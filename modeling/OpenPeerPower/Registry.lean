import OpenPeerPower.Intent

/-!
# The registry and the response over runs of writes

Two dicts of `helpers/intent.py` change only by `d[k] = v`: the registry `opp.data[DATA_KEY]`,
written by `async_register`, and the `speech` and `card` dicts of an `IntentResponse`, written by
`async_set_speech` and `async_set_card`. For each, one lemma says what a write does to every key
(the written key takes the value, the others keep theirs), and an induction over any run of writes
gives the invariant: one entry per key, holding the value written last.

`asyncHandle_registerAll` adds that a dispatch after any run of registrations behaves as with a
registry holding only the handler registered last for its type; `asDict_writes` says that
`as_dict()` exposes exactly the entries of the response, one per type.
-/

namespace OpenPeerPower

/-! ### Runs of registrations -/

/-- The registry after `async_register` was called with each handler of `hs` in turn, each call
from its own caller: a failed assertion stops that caller only, after the registry was
created. -/
def registerAll (intents : Option (List (String × IntentHandler))) (hs : List IntentHandler) :
    Option (List (String × IntentHandler)) :=
  hs.foldl (fun r h => (asyncRegister r h).1) intents

/-- The handler the last registration of type `t` in `hs` installed. -/
def lastOfType (hs : List IntentHandler) (t : String) : Option IntentHandler :=
  hs.reverse.find? fun h => h.intentType == some t

@[simp] theorem registerAll_nil (intents : Option (List (String × IntentHandler))) :
    registerAll intents [] = intents := rfl

@[simp] theorem registerAll_cons (intents : Option (List (String × IntentHandler)))
    (h : IntentHandler) (hs : List IntentHandler) :
    registerAll intents (h :: hs) = registerAll (asyncRegister intents h).1 hs := rfl

theorem lastOfType_cons (h : IntentHandler) (hs : List IntentHandler) (t : String) :
    lastOfType (h :: hs) t =
      (lastOfType hs t).or (if h.intentType = some t then some h else none) := by
  simp only [lastOfType, List.reverse_cons, List.find?_append, List.find?_singleton, beq_iff_eq]

theorem get?_asyncRegister (intents : Option (List (String × IntentHandler))) (h : IntentHandler)
    (t : String) :
    Dict.get? ((asyncRegister intents h).1.getD []) t =
      if h.intentType = some t then some h else Dict.get? (intents.getD []) t := by
  unfold asyncRegister
  cases h.intentType with
  | none => simp
  | some t' => by_cases ht : t' = t <;> simp [ht]

theorem nodup_keys_asyncRegister {intents : Option (List (String × IntentHandler))}
    (hnd : (Dict.keys (intents.getD [])).Nodup) (h : IntentHandler) :
    (Dict.keys ((asyncRegister intents h).1.getD [])).Nodup := by
  unfold asyncRegister
  cases h.intentType with
  | none => exact hnd
  | some t => exact Dict.nodup_keys_setItem t h hnd

theorem get?_registerAll (intents : Option (List (String × IntentHandler))) (hs : List IntentHandler)
    (t : String) :
    Dict.get? ((registerAll intents hs).getD []) t =
      (lastOfType hs t).or (Dict.get? (intents.getD []) t) := by
  induction hs generalizing intents with
  | nil => rfl
  | cons h hs ih =>
    rw [registerAll_cons, ih, get?_asyncRegister, lastOfType_cons]
    cases lastOfType hs t <;> by_cases ht : h.intentType = some t <;> simp [ht]

theorem nodup_keys_registerAll {intents : Option (List (String × IntentHandler))}
    (hnd : (Dict.keys (intents.getD [])).Nodup) (hs : List IntentHandler) :
    (Dict.keys ((registerAll intents hs).getD [])).Nodup := by
  induction hs generalizing intents with
  | nil => exact hnd
  | cons h hs ih => exact ih (nodup_keys_asyncRegister hnd h)

/-- A dispatch after any run of registrations, from any registry with distinct intent types: the
registry keeps its types distinct, its entry for `t` is the handler the last registration of `t`
installed (or the one it held before the run), and `async_handle` for `t` behaves as if the
registry held only that handler, and raises `UnknownIntent` with no call when there is none. -/
theorem asyncHandle_registerAll (intents : Option (List (String × IntentHandler)))
    (hnd : (Dict.keys (intents.getD [])).Nodup) (hs : List IntentHandler) (env : Env)
    (p t : String) (slots : Option (List (String × Value))) (textInput : Option String)
    (context : Option Context) :
    (Dict.keys ((registerAll intents hs).getD [])).Nodup ∧
    Dict.get? ((registerAll intents hs).getD []) t =
      (lastOfType hs t).or (Dict.get? (intents.getD []) t) ∧
    asyncHandle (registerAll intents hs) env p t slots textInput context =
      match (lastOfType hs t).or (Dict.get? (intents.getD []) t) with
      | none => ⟨[], .error (.unknownIntent s!"Unknown intent {t}")⟩
      | some handler => asyncHandle (some [(t, handler)]) env p t slots textInput context := by
  refine ⟨nodup_keys_registerAll hnd hs, get?_registerAll intents hs t, ?_⟩
  rw [asyncHandle, get?_registerAll]
  cases (lastOfType hs t).or (Dict.get? (intents.getD []) t) with
  | none => rfl
  | some handler => simp [asyncHandle, Dict.get?_cons]

/-- Two handlers registered for `turn_on_test`, one for lights and one for switches, dispatched
with a name that matches a state: the one registered second answers. -/
theorem asyncHandle_registerAll_twice :
    let t := "turn_on_test"
    let h₁ := ServiceIntentHandler t "light" "turn_on" "Turned on {}"
    let h₂ := ServiceIntentHandler t "switch" "turn_on" "Switched on {}"
    let env : Env := ⟨[{ entityId := "switch.kitchen", name := "Kitchen" }], fun _ => .ok (),
      Char.toLower, fun _ n => .ok n, ⟨"ctx", none, none⟩⟩
    let slots : Option (List (String × Value)) := some [("name", .dict [("value", .str "Kitchen")])]
    (Dict.keys ((none : Option (List (String × IntentHandler))).getD [])).Nodup ∧
    (Dict.keys ((registerAll none [h₁, h₂]).getD [])).Nodup ∧
    Dict.get? ((registerAll none [h₁, h₂]).getD []) t =
      (lastOfType [h₁, h₂] t).or (Dict.get? ([] : List (String × IntentHandler)) t) ∧
    asyncHandle (registerAll none [h₁, h₂]) env "conversation" t slots none none =
      match (lastOfType [h₁, h₂] t).or (Dict.get? ([] : List (String × IntentHandler)) t) with
      | none => ⟨[], .error (.unknownIntent s!"Unknown intent {t}")⟩
      | some handler => asyncHandle (some [(t, handler)]) env "conversation" t slots none none := by
  intro t h₁ h₂ env slots
  exact ⟨List.nodup_nil, asyncHandle_registerAll none List.nodup_nil [h₁, h₂] env "conversation" t
    slots none none⟩

/-! ### Writes to a response -/

/-- A write to an `IntentResponse`: `async_set_speech(speech, speech_type, extra_data)` or
`async_set_card(title, content, card_type)`. -/
inductive ResponseWrite where
  | speech (speech speechType : String) (extraData : Option Value)
  | card (title content cardType : String)

namespace ResponseWrite

def apply (r : IntentResponse) : ResponseWrite → IntentResponse
  | .speech s t e => r.asyncSetSpeech s t e
  | .card title content t => r.asyncSetCard title content t

/-- The speech entry the write sets for the type `t`, if it sets one. -/
def speechFor (t : String) : ResponseWrite → Option Speech
  | .speech s t' e => if t' = t then some ⟨s, e⟩ else none
  | .card .. => none

/-- The card entry the write sets for the type `t`, if it sets one. -/
def cardFor (t : String) : ResponseWrite → Option Card
  | .speech .. => none
  | .card title content t' => if t' = t then some ⟨title, content⟩ else none

variable (r : IntentResponse) (w : ResponseWrite)

@[simp] theorem intent_apply : (w.apply r).intent = r.intent := by cases w <;> rfl

theorem get?_speech_apply (t : String) :
    Dict.get? (w.apply r).speech t = (w.speechFor t).or (Dict.get? r.speech t) := by
  cases w with
  | speech s t' e => by_cases h : t' = t <;> simp [apply, speechFor, IntentResponse.asyncSetSpeech, h]
  | card => rfl

theorem get?_card_apply (t : String) :
    Dict.get? (w.apply r).card t = (w.cardFor t).or (Dict.get? r.card t) := by
  cases w with
  | speech => rfl
  | card ti c t' => by_cases h : t' = t <;> simp [apply, cardFor, IntentResponse.asyncSetCard, h]

theorem nodup_apply (h : (Dict.keys r.speech).Nodup ∧ (Dict.keys r.card).Nodup) :
    (Dict.keys (w.apply r).speech).Nodup ∧ (Dict.keys (w.apply r).card).Nodup := by
  cases w with
  | speech => exact ⟨Dict.nodup_keys_setItem _ _ h.1, h.2⟩
  | card => exact ⟨h.1, Dict.nodup_keys_setItem _ _ h.2⟩

end ResponseWrite

section Writes

variable (ws : List ResponseWrite)

@[simp] theorem intent_foldl_apply (r : IntentResponse) :
    (ws.foldl ResponseWrite.apply r).intent = r.intent := by
  induction ws generalizing r with
  | nil => rfl
  | cons w ws ih => rw [List.foldl_cons, ih, ResponseWrite.intent_apply]

theorem get?_speech_foldl_apply (r : IntentResponse) (t : String) :
    Dict.get? (ws.foldl ResponseWrite.apply r).speech t =
      (ws.reverse.findSome? (ResponseWrite.speechFor t)).or (Dict.get? r.speech t) := by
  induction ws generalizing r with
  | nil => rfl
  | cons w ws ih => rw [List.foldl_cons, ih, ResponseWrite.get?_speech_apply, findSome?_reverse_cons,
      Option.or_assoc]

theorem get?_card_foldl_apply (r : IntentResponse) (t : String) :
    Dict.get? (ws.foldl ResponseWrite.apply r).card t =
      (ws.reverse.findSome? (ResponseWrite.cardFor t)).or (Dict.get? r.card t) := by
  induction ws generalizing r with
  | nil => rfl
  | cons w ws ih => rw [List.foldl_cons, ih, ResponseWrite.get?_card_apply, findSome?_reverse_cons,
      Option.or_assoc]

theorem nodup_foldl_apply (r : IntentResponse)
    (h : (Dict.keys r.speech).Nodup ∧ (Dict.keys r.card).Nodup) :
    (Dict.keys (ws.foldl ResponseWrite.apply r).speech).Nodup ∧
      (Dict.keys (ws.foldl ResponseWrite.apply r).card).Nodup := by
  induction ws generalizing r with
  | nil => exact h
  | cons w ws ih => exact ih _ (w.nodup_apply r h)

/-- The response of an intent after any writes: it stays bound to the intent, its speech and card
dicts have one entry per type, holding what the last write of that type set, and `as_dict()`
exposes exactly these entries. -/
theorem asDict_writes (i : Intent) :
    let r := ws.foldl ResponseWrite.apply i.createResponse
    r.intent = some i ∧ (Dict.keys r.speech).Nodup ∧ (Dict.keys r.card).Nodup ∧
    (∀ t, Dict.get? r.speech t = ws.reverse.findSome? (ResponseWrite.speechFor t)) ∧
    (∀ t, Dict.get? r.card t = ws.reverse.findSome? (ResponseWrite.cardFor t)) ∧
    ∃ S C, r.asDict = .dict [("speech", .dict S), ("card", .dict C)] ∧
      Dict.keys S = Dict.keys r.speech ∧ Dict.keys C = Dict.keys r.card ∧
      (∀ t, Dict.get? S t = (Dict.get? r.speech t).map fun s =>
        .dict [("speech", .str s.speech), ("extra_data", s.extraData.getD .none)]) ∧
      (∀ t, Dict.get? C t = (Dict.get? r.card t).map fun c =>
        .dict [("title", .str c.title), ("content", .str c.content)]) := by
  intro r
  have hnd := nodup_foldl_apply ws i.createResponse ⟨List.nodup_nil, List.nodup_nil⟩
  refine ⟨intent_foldl_apply ws _, hnd.1, hnd.2,
    fun t => (get?_speech_foldl_apply ws _ t).trans Option.or_none,
    fun t => (get?_card_foldl_apply ws _ t).trans Option.or_none,
    _, _, rfl, ?_, ?_, fun t => ?_, fun t => ?_⟩
  -- `as_dict` rebuilds each entry under its own type
  · apply Dict.keys_map; rintro ⟨_, _⟩; rfl
  · apply Dict.keys_map; rintro ⟨_, _⟩; rfl
  · apply Dict.get?_map; rintro ⟨_, _⟩; rfl
  · apply Dict.get?_map; rintro ⟨_, _⟩; rfl

example : (([.speech "a" "plain" none, .speech "b" "plain" none] : List ResponseWrite).foldl
    ResponseWrite.apply (Intent.createResponse ⟨"p", "t", [], none, ⟨"c", none, none⟩⟩)).asDict =
      .dict [("speech", .dict [("plain", .dict [("speech", .str "b"), ("extra_data", .none)])]),
        ("card", .dict [])] := rfl

end Writes

end OpenPeerPower
