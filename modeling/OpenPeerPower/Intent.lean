import Mathlib.Data.Int.Bitwise
import OpenPeerPower.Schema
import OpenPeerPower.Regex

/-!
# `helpers/intent.py`

The intent registry, the dispatch pipeline `async_handle`, the handler base class with its slot
validation, `ServiceIntentHandler`, the fuzzy matcher and the response object, as the code
computes them.

What a dispatch touches outside this file is an `Env`: the states of the hub, what each service
call does, the case folding of `re.IGNORECASE` and `str.format` with one positional argument. A
coroutine is modelled by its `Outcome`: the service calls it issued, in order, and whether it
returned or raised. Exceptions are `PyException`s; `async_handle` turns them into a `HandleError`.
Log lines are not modelled.
-/

namespace OpenPeerPower

/-- The subclasses of `IntentError`. -/
inductive IntentErrorKind where
  | unknownIntent
  | invalidSlotInfo
  | intentHandleError
  | intentUnexpectedError
  deriving Repr, DecidableEq

/-- An exception raised by the helpers or by a collaborator they call. `exception` is any other
`Exception`; `baseException` one that does not derive from `Exception` (`CancelledError`,
`KeyboardInterrupt`). -/
inductive PyException where
  | invalid (errors : List Invalid)
  | intentError (kind : IntentErrorKind) (msg : String)
  | keyError (key : String)
  | typeError (msg : String)
  | reError (err : Re.ReError)
  | notImplemented
  | assertionError (msg : String)
  | exception (name : String)
  | baseException (name : String)
  deriving Repr, DecidableEq

theorem ok_bind {ε α β : Type} (a : α) (f : α → Except ε β) : (Except.ok a >>= f) = f a := rfl

/-- What `async_handle` raises: one of the four intent errors (with the exception it was raised
from), or an exception its `except Exception` does not catch. -/
inductive HandleError where
  | unknownIntent (msg : String)
  | invalidSlotInfo (msg : String) (cause : List Invalid)
  | intentHandleError (msg : String)
  | intentUnexpectedError (msg : String) (cause : PyException)
  | uncaught (e : PyException)
  deriving Repr, DecidableEq

/-- `core.Context`: its id and the user and parent context it names. -/
structure Context where
  id : String
  userId : Option String := none
  parentId : Option String := none
  deriving Repr, DecidableEq

/-- The fields of a `core.State` the intent helpers read. -/
structure State where
  entityId : String
  name : String
  attributes : List (String × Value) := []
  deriving Repr, DecidableEq

/-- A call `opp.services.async_call(domain, service, data, context=context)`. -/
structure ServiceCall where
  domain : String
  service : String
  data : List (String × Value)
  context : Context
  deriving Repr, DecidableEq

/-- What a coroutine did: the service calls it issued, in order, and how it ended. -/
structure Outcome (ε α : Type) where
  calls : List ServiceCall
  result : Except ε α

/-- The collaborators of a dispatch: `opp.states.async_all()`, the effect of each service call, the
case folding `re.IGNORECASE` compares by, `str.format` with one positional argument, and the
`Context()` a dispatch without context creates. -/
structure Env where
  states : List State
  services : ServiceCall → Except PyException Unit
  lower : Char → Char
  format : String → String → Except PyException String
  freshContext : Context

/-- An `Intent`: what `async_handle` hands the handler. -/
structure Intent where
  platform : String
  intentType : String
  slots : List (String × Value)
  textInput : Option String
  context : Context
  deriving Repr, DecidableEq

/-- An entry of `IntentResponse.speech`. -/
structure Speech where
  speech : String
  extraData : Option Value
  deriving Repr, DecidableEq

/-- An entry of `IntentResponse.card`. -/
structure Card where
  title : String
  content : String
  deriving Repr, DecidableEq

/-- `IntentResponse`: speech and card entries keyed by their type. -/
structure IntentResponse where
  intent : Option Intent
  speech : List (String × Speech) := []
  card : List (String × Card) := []
  deriving Repr, DecidableEq

namespace IntentResponse

/-- `async_set_speech(speech, speech_type="plain", extra_data=None)`. -/
def asyncSetSpeech (r : IntentResponse) (speech : String) (speechType : String := "plain")
    (extraData : Option Value := none) : IntentResponse :=
  { r with speech := Dict.setItem r.speech speechType ⟨speech, extraData⟩ }

/-- `async_set_card(title, content, card_type="simple")`. -/
def asyncSetCard (r : IntentResponse) (title content : String) (cardType : String := "simple") :
    IntentResponse :=
  { r with card := Dict.setItem r.card cardType ⟨title, content⟩ }

/-- `as_dict()`. -/
def asDict (r : IntentResponse) : Value :=
  .dict [("speech", .dict (r.speech.map fun (t, s) =>
            (t, .dict [("speech", .str s.speech), ("extra_data", s.extraData.getD .none)]))),
         ("card", .dict (r.card.map fun (t, c) =>
            (t, .dict [("title", .str c.title), ("content", .str c.content)])))]

end IntentResponse

/-- `Intent.create_response()`. -/
def Intent.createResponse (i : Intent) : IntentResponse := { intent := some i }

/-- `SLOT_SCHEMA`: a dict schema with no keys that allows extra ones. -/
def SLOT_SCHEMA : Schema := { entries := [], extra := .allowExtra }

def ATTR_SUPPORTED_FEATURES : String := "supported_features"

def ATTR_ENTITY_ID : String := "entity_id"

/-- `value[key]`: a missing key of a dict raises `KeyError`, and any other value is not
subscriptable by a string. -/
def getItem : Value → String → Except PyException Value
  | .dict kvs, k =>
    match Dict.get? kvs k with
    | some v => .ok v
    | none => .error (.keyError k)
  | _, _ => .error (.typeError "indices must be integers")

/-- `".*?".join(name)`. -/
def joinLazy : List Char → List Char
  | [] => []
  | [c] => [c]
  | c :: rest => c :: '.' :: '*' :: '?' :: joinLazy rest

/-- The order of `sorted(matches)` on `(len(match.group()), match.start(), idx, item)`: the
indices differ, so the items are never compared. -/
def rankLE {α : Type} (a b : Nat × Nat × Nat × α) : Bool :=
  a.1 < b.1 || (a.1 == b.1 && (a.2.1 < b.2.1 || (a.2.1 == b.2.1 && a.2.2.1 ≤ b.2.2.1)))

/-- The list `matches` that the loop of `_fuzzymatch` builds with the compiled `regex`:
`(len(match.group()), match.start(), idx, item)` for every item whose key the regex finds. -/
def matchList {α : Type} (lower : Char → Char) (regex : Re.Regex) (items : List α)
    (key : α → String) : List (Nat × Nat × Nat × α) :=
  items.enum.filterMap fun (idx, item) =>
    (Re.search lower regex 0 (key item).toList).map fun (start, stop) =>
      (stop - start, start, idx, item)

/-- `sorted(matches)[0][3] if matches else None`. -/
def bestMatch {α : Type} (lower : Char → Char) (regex : Re.Regex) (items : List α)
    (key : α → String) : Option α :=
  ((matchList lower regex items key).mergeSort rankLE).head?.map fun m => m.2.2.2

/-- `_fuzzymatch(name, items, key)`. -/
def fuzzymatch {α : Type} (lower : Char → Char) (name : String) (items : List α)
    (key : α → String) : Except Re.ReError (Option α) := do
  let pattern := joinLazy name.toList
  let regex ← Re.compile pattern
  return bestMatch lower regex items key

/-- `async_match_state(opp, name)`: the states are `opp.states.async_all()`. -/
def asyncMatchState (env : Env) (name : String) : Except PyException State :=
  match fuzzymatch env.lower name env.states State.name with
  | .error e => .error (.reError e)
  | .ok none => .error (.intentError .intentHandleError s!"Unable to find an entity called {name}")
  | .ok (some state) => .ok state

/-- `async_test_feature(state, feature, feature_name)`. -/
def asyncTestFeature (state : State) (feature : Int) (featureName : String) :
    Except PyException Unit :=
  let supported := (Dict.get? state.attributes ATTR_SUPPORTED_FEATURES).getD (.int 0)
  let test (n : Int) : Except PyException Unit :=
    if Int.land n feature = 0 then
      .error (.intentError .intentHandleError s!"Entity {state.name} does not support {featureName}")
    else .ok ()
  match supported with
  | .int n => test n
  | .bool b => test (if b then 1 else 0)
  | _ => .error (.typeError "unsupported operand type(s) for &")

/-- The attributes `IntentHandler` declares, as an instance holds them: what its methods read
through `self`. -/
structure HandlerAttrs where
  intentType : Option String := none
  slotSchema : Option (List (Marker × Validator)) := none
  platforms : Option (List String) := some []

/-- What a handler class does in `async_handle`: the base class raises `NotImplementedError`,
`ServiceIntentHandler` calls a service, and a handler defined elsewhere is given by its
behaviour, which sees the attributes of its own instance as `self` does. -/
inductive HandlerKind where
  | base
  | service (domain service speech : String)
  | custom (handle : HandlerAttrs → Env → Intent → Outcome PyException IntentResponse)

/-- An `IntentHandler` instance. -/
structure IntentHandler extends HandlerAttrs where
  kind : HandlerKind := .base

namespace IntentHandler

/-- `async_can_handle(intent_obj)`. -/
def asyncCanHandle (h : IntentHandler) (intentObj : Intent) : Bool :=
  match h.platforms with
  | none => true
  | some ps => ps.contains intentObj.platform

/-- The schema `async_validate_slots` compiles (and caches in `_slot_schema`): each declared key
validates a dict whose `value` goes through the key's validator. -/
def compiledSlotSchema (slotSchema : List (Marker × Validator)) : Schema :=
  { entries := slotSchema.map fun (key, validator) =>
      (key, (SLOT_SCHEMA.extend [(.plain "value", validator)]).validate)
    extra := .allowExtra }

/-- `async_validate_slots(slots)`. -/
def asyncValidateSlots (h : IntentHandler) (slots : List (String × Value)) :
    Except (List Invalid) Value :=
  match h.slotSchema with
  | none => .ok (.dict slots)
  | some slotSchema => (compiledSlotSchema slotSchema).call (.dict slots)

end IntentHandler

/-- `ServiceIntentHandler(intent_type, domain, service, speech)`. -/
def ServiceIntentHandler (intentType domain service speech : String) : IntentHandler where
  intentType := some intentType
  slotSchema := some [(.required "name", cvString)]
  kind := .service domain service speech

/-- The `name` passed to `async_match_state`: `".*?".join(name)` needs a string. -/
def nameOf : Value → Except PyException String
  | .str s => .ok s
  | _ => .error (.typeError "can only join an iterable")

/-- `slots["name"]["value"]`, as the string `async_match_state` joins. -/
def nameValue (slots : Value) : Except PyException String :=
  ((getItem slots "name").bind (getItem · "value")).bind nameOf

/-- `ServiceIntentHandler.async_handle(intent_obj)`. -/
def serviceHandle (h : IntentHandler) (domain service speech : String) (env : Env)
    (intentObj : Intent) : Outcome PyException IntentResponse :=
  match h.asyncValidateSlots intentObj.slots with
  | .error es => ⟨[], .error (.invalid es)⟩
  | .ok slots =>
    match nameValue slots with
    | .error e => ⟨[], .error e⟩
    | .ok name =>
      match asyncMatchState env name with
      | .error e => ⟨[], .error e⟩
      | .ok state =>
        let call : ServiceCall :=
          ⟨domain, service, [(ATTR_ENTITY_ID, .str state.entityId)], intentObj.context⟩
        match env.services call with
        | .error e => ⟨[call], .error e⟩
        | .ok () =>
          match env.format speech state.name with
          | .error e => ⟨[call], .error e⟩
          | .ok text => ⟨[call], .ok (intentObj.createResponse.asyncSetSpeech text)⟩

/-- `handler.async_handle(intent)`, by the handler's class. -/
def IntentHandler.asyncHandle (h : IntentHandler) (env : Env) (intentObj : Intent) :
    Outcome PyException IntentResponse :=
  match h.kind with
  | .base => ⟨[], .error .notImplemented⟩
  | .service domain service speech => serviceHandle h domain service speech env intentObj
  | .custom handle => handle h.toHandlerAttrs env intentObj

/-- `async_register(opp, handler)` on the registry `opp.data[DATA_KEY]`, `none` until the first
registration: the registry is created before the assertion on `intent_type`, and a handler of a
type already registered replaces the old one. -/
def asyncRegister (intents : Option (List (String × IntentHandler))) (handler : IntentHandler) :
    Option (List (String × IntentHandler)) × Except PyException Unit :=
  let registry := intents.getD []
  match handler.intentType with
  | none => (some registry, .error (.assertionError "intent_type cannot be None"))
  | some t => (some (Dict.setItem registry t handler), .ok ())

/-- How `async_handle` classifies what the handler raised. -/
def classify (intentType : String) : PyException → HandleError
  | .invalid es => .invalidSlotInfo s!"Received invalid slot info for {intentType}" es
  | .intentError .intentHandleError msg => .intentHandleError msg
  | .baseException n => .uncaught (.baseException n)
  | e => .intentUnexpectedError s!"Error handling {intentType}" e

/-- `async_handle(opp, platform, intent_type, slots, text_input, context)`. -/
def asyncHandle (intents : Option (List (String × IntentHandler))) (env : Env)
    (platform intentType : String) (slots : Option (List (String × Value)) := none)
    (textInput : Option String := none) (context : Option Context := none) :
    Outcome HandleError IntentResponse :=
  match Dict.get? (intents.getD []) intentType with
  | none => ⟨[], .error (.unknownIntent s!"Unknown intent {intentType}")⟩
  | some handler =>
    let intentObj : Intent :=
      ⟨platform, intentType, slots.getD [], textInput, context.getD env.freshContext⟩
    let out := handler.asyncHandle env intentObj
    ⟨out.calls, out.result.mapError (classify intentType)⟩

end OpenPeerPower
