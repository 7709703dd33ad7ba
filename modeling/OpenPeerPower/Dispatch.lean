import OpenPeerPower.Slots
import OpenPeerPower.FuzzyMatch

/-!
# What a dispatch to a `ServiceIntentHandler` ends in

`async_handle` looks the handler up, builds the `Intent` and classifies what the handler raised.
For a `ServiceIntentHandler` the handler validates the slots, reads `slots["name"]["value"]`,
matches it against the states, calls the service once and formats the speech.

The slot schema leaves the `value` sub-key optional (`SLOT_SCHEMA.extend({"value": validator})`
keeps the `required=False` of `SLOT_SCHEMA`), so a `name` slot without `value` passes validation
and the handler's `slots["name"]["value"]` raises `KeyError`, which `async_handle` reports as
`IntentUnexpectedError`.

`serviceHandle_cases` says once what the handler can do; `asyncHandle_service_outcomes` derives
from it, for every slots dict, state list and service behaviour, that at most one call is made, to
the state the validated `slots["name"]["value"]` matched, that `InvalidSlotInfo` without a call is
exactly a failed validation, and what an unreadable or unmatched name, a response and a failing
call lead to. For a name with no special character and state names without newline,
`asyncHandle_service_name_match` adds that the dispatch ends in `IntentHandleError` with no call
exactly when no state's name contains the name, and otherwise calls the service once, on a state
whose name contains it.
-/

namespace OpenPeerPower

/-- A registered `ServiceIntentHandler` dispatched with a `name` slot that has no `value` ends in
`IntentUnexpectedError` from a `KeyError`, with no service call. -/
theorem asyncHandle_name_without_value_unexpected (intents : Option (List (String × IntentHandler)))
    (env : Env) (t d s sp p : String)
    (h : Dict.get? (intents.getD []) t = some (ServiceIntentHandler t d s sp)) :
    asyncHandle intents env p t (some [("name", .dict [])]) =
      ⟨[], .error (.intentUnexpectedError s!"Error handling {t}" (.keyError "value"))⟩ := by
  simp only [asyncHandle, h]
  rfl

/-- The handler `turn_on_test` for `light.turn_on`, registered alone, with no state and services that
succeed. -/
theorem asyncHandle_turn_on_test_name_without_value :
    asyncHandle (asyncRegister none (ServiceIntentHandler "turn_on_test" "light" "turn_on"
        "Turned on {}")).1 ⟨[], fun _ => .ok (), id, fun t _ => .ok t, ⟨"ctx", none, none⟩⟩
        "conversation" "turn_on_test" (some [("name", .dict [])]) =
      ⟨[], .error (.intentUnexpectedError "Error handling turn_on_test" (.keyError "value"))⟩ :=
  asyncHandle_name_without_value_unexpected _ _ "turn_on_test" "light" "turn_on" "Turned on {}"
    "conversation" rfl

section ServiceHandle

variable (h : IntentHandler) (dm sv sp : String) (env : Env) (i : Intent)

/-- The call `ServiceIntentHandler.async_handle` makes once it matched `st`. -/
def serviceCall (st : State) : ServiceCall :=
  ⟨dm, sv, [(ATTR_ENTITY_ID, .str st.entityId)], i.context⟩

/-- Everything `ServiceIntentHandler.async_handle` can do: fail validation, fail to read the name,
fail to match it, or call the service once with the matched state and then answer or fail. -/
theorem serviceHandle_cases :
    (∃ es, h.asyncValidateSlots i.slots = .error es ∧
      serviceHandle h dm sv sp env i = ⟨[], .error (.invalid es)⟩) ∨
    (∃ r e, h.asyncValidateSlots i.slots = .ok r ∧ nameValue r = .error e ∧
      serviceHandle h dm sv sp env i = ⟨[], .error e⟩) ∨
    (∃ r name e, h.asyncValidateSlots i.slots = .ok r ∧ nameValue r = .ok name ∧
      asyncMatchState env name = .error e ∧ serviceHandle h dm sv sp env i = ⟨[], .error e⟩) ∨
    (∃ r name st, h.asyncValidateSlots i.slots = .ok r ∧ nameValue r = .ok name ∧
      asyncMatchState env name = .ok st ∧
      serviceHandle h dm sv sp env i = ⟨[serviceCall dm sv i st],
        (env.services (serviceCall dm sv i st)).bind fun _ =>
          (env.format sp st.name).map fun text => i.createResponse.asyncSetSpeech text⟩) := by
  cases hv : h.asyncValidateSlots i.slots with
  | error es => exact .inl ⟨es, rfl, by simp only [serviceHandle, hv]⟩
  | ok r =>
    cases hn : nameValue r with
    | error e => exact .inr (.inl ⟨r, e, rfl, hn, by simp only [serviceHandle, hv, hn]⟩)
    | ok name =>
      cases hm : asyncMatchState env name with
      | error e => exact .inr (.inr (.inl ⟨r, name, e, rfl, hn, hm, by simp only [serviceHandle, hv, hn, hm]⟩))
      | ok st =>
        refine .inr (.inr (.inr ⟨r, name, st, rfl, hn, hm, ?_⟩))
        simp only [serviceHandle, hv, hn, hm, serviceCall]
        cases env.services ⟨dm, sv, [(ATTR_ENTITY_ID, .str st.entityId)], i.context⟩ with
        | error e => rfl
        | ok u => cases env.format sp st.name <;> rfl

end ServiceHandle

theorem classify_eq_invalidSlotInfo {t msg : String} {es : List Invalid} {e : PyException} :
    classify t e = .invalidSlotInfo msg es ↔ e = .invalid es ∧ msg = s!"Received invalid slot info for {t}" := by
  cases e with
  | invalid es' => simp [classify, and_comm, eq_comm]
  | intentError k m => cases k <;> simp [classify]
  | _ => simp [classify]

theorem getItem_error_ne_invalid {v : Value} {k : String} {e : PyException}
    (h : getItem v k = .error e) (es : List Invalid) : e ≠ .invalid es := by
  rintro rfl
  cases v with
  | dict kvs => simp only [getItem] at h; split at h <;> cases h
  | _ => cases h

theorem nameValue_error_ne_invalid {r : Value} {e : PyException} (h : nameValue r = .error e)
    (es : List Invalid) : e ≠ .invalid es := by
  simp only [nameValue] at h
  cases h₁ : getItem r "name" with
  | error e₁ => rw [h₁] at h; cases h; exact getItem_error_ne_invalid h₁ es
  | ok v =>
    rw [h₁] at h
    cases h₂ : getItem v "value" with
    | error e₂ => simp only [Except.bind, h₂] at h; cases h; exact getItem_error_ne_invalid h₂ es
    | ok w =>
      simp only [Except.bind, h₂] at h
      cases w <;> cases h <;> nofun

theorem asyncMatchState_error_ne_invalid {env : Env} {name : String} {e : PyException}
    (h : asyncMatchState env name = .error e) (es : List Invalid) : e ≠ .invalid es := by
  rintro rfl
  simp only [asyncMatchState] at h
  split at h <;> cases h

theorem asyncHandle_service {intents : Option (List (String × IntentHandler))} {env : Env}
    {p t : String} {slots : Option (List (String × Value))} {textInput : Option String}
    {context : Option Context} {t' dm sv sp : String}
    (hreg : Dict.get? (intents.getD []) t = some (ServiceIntentHandler t' dm sv sp)) :
    asyncHandle intents env p t slots textInput context =
      let out := serviceHandle (ServiceIntentHandler t' dm sv sp) dm sv sp env
        ⟨p, t, slots.getD [], textInput, context.getD env.freshContext⟩
      ⟨out.calls, out.result.mapError (classify t)⟩ := by
  simp only [asyncHandle, hreg]; rfl

/-- A dispatch to a registered `ServiceIntentHandler`, for every slots dict, every state list and
every behaviour of the services: at most one service call is made, with the intent's context, to
the state that `slots["name"]["value"]` of the validated slots matched; it ends in `InvalidSlotInfo`
with no call exactly when the slots fail validation, carrying its errors; a name that cannot be
read or matched ends the dispatch with no call, classified as `async_handle` classifies it; a
response means the call succeeded and its plain speech is the formatted template; and a failing
call is classified the same way. -/
theorem asyncHandle_service_outcomes (intents : Option (List (String × IntentHandler))) (env : Env)
    (p t : String) (slots : Option (List (String × Value))) (textInput : Option String)
    (context : Option Context) {t' dm sv sp : String}
    (hreg : Dict.get? (intents.getD []) t = some (ServiceIntentHandler t' dm sv sp)) :
    let out := asyncHandle intents env p t slots textInput context
    let validated := (ServiceIntentHandler t' dm sv sp).asyncValidateSlots (slots.getD [])
    let call := fun st : State =>
      (⟨dm, sv, [(ATTR_ENTITY_ID, .str st.entityId)], context.getD env.freshContext⟩ : ServiceCall)
    (out.calls = [] ∨ ∃ r name st, validated = .ok r ∧ nameValue r = .ok name ∧
      asyncMatchState env name = .ok st ∧ out.calls = [call st]) ∧
    (∀ msg es, (out.calls = [] ∧ out.result = .error (.invalidSlotInfo msg es)) ↔
      validated = .error es ∧ msg = s!"Received invalid slot info for {t}") ∧
    (∀ r e, validated = .ok r → nameValue r = .error e → out = ⟨[], .error (classify t e)⟩) ∧
    (∀ r name e, validated = .ok r → nameValue r = .ok name → asyncMatchState env name = .error e →
      out = ⟨[], .error (classify t e)⟩) ∧
    (∀ resp, out.result = .ok resp → ∃ r name st text, validated = .ok r ∧ nameValue r = .ok name ∧
      asyncMatchState env name = .ok st ∧ out.calls = [call st] ∧ env.services (call st) = .ok () ∧
      env.format sp st.name = .ok text ∧ resp.speech = [("plain", ⟨text, none⟩)]) ∧
    (∀ c e, out.calls = [c] → env.services c = .error e → out.result = .error (classify t e)) := by
  rw [asyncHandle_service hreg]
  rcases serviceHandle_cases (ServiceIntentHandler t' dm sv sp) dm sv sp env
      ⟨p, t, slots.getD [], textInput, context.getD env.freshContext⟩ with
    ⟨es, hv, ho⟩ | ⟨r, e, hv, hn, ho⟩ | ⟨r, name, e, hv, hn, hm, ho⟩ | ⟨r, name, st, hv, hn, hm, ho⟩ <;>
    simp only [ho] <;> dsimp only at hv ⊢
  · -- the slots fail validation
    refine ⟨.inl trivial, fun msg es' => ?_, fun _ _ h _ => (nomatch hv.symm.trans h),
      fun _ _ _ h _ _ => (nomatch hv.symm.trans h), nofun, fun c e h => by simp at h⟩
    simp [Except.mapError, classify_eq_invalidSlotInfo, hv]
  · -- `slots["name"]["value"]` cannot be read
    refine ⟨.inl trivial, fun msg es => iff_of_false (fun ⟨_, h⟩ => ?_) (by simp [hv]),
      fun _ _ h h' => ?_, fun _ _ _ h h' _ => ?_, nofun, fun c e h => by simp at h⟩
    · exact nameValue_error_ne_invalid hn es (classify_eq_invalidSlotInfo.1 (Except.error.inj h)).1
    · cases Except.ok.inj (hv.symm.trans h); cases hn.symm.trans h'; rfl
    · cases Except.ok.inj (hv.symm.trans h); cases hn.symm.trans h'
  · -- the name matches no state
    refine ⟨.inl trivial, fun msg es => iff_of_false (fun ⟨_, h⟩ => ?_) (by simp [hv]),
      fun _ _ h h' => ?_, fun _ _ _ h h' h'' => ?_, nofun, fun c e h => by simp at h⟩
    · exact asyncMatchState_error_ne_invalid hm es (classify_eq_invalidSlotInfo.1 (Except.error.inj h)).1
    · cases Except.ok.inj (hv.symm.trans h); cases hn.symm.trans h'
    · cases Except.ok.inj (hv.symm.trans h); cases Except.ok.inj (hn.symm.trans h')
      cases hm.symm.trans h''; rfl
  · -- the service is called on the matched state
    refine ⟨.inr ⟨r, name, st, hv, hn, hm, rfl⟩, fun msg es => by simp [hv],
      fun _ _ h h' => ?_, fun _ _ _ h h' h'' => ?_, fun resp h => ?_, fun c e hc he => ?_⟩
    · cases Except.ok.inj (hv.symm.trans h); cases hn.symm.trans h'
    · cases Except.ok.inj (hv.symm.trans h); cases Except.ok.inj (hn.symm.trans h')
      cases hm.symm.trans h''
    · cases hs : env.services (serviceCall dm sv ⟨p, t, slots.getD [], textInput, context.getD env.freshContext⟩ st) with
      | error e => simp [hs, Except.bind, Except.mapError] at h
      | ok u =>
        cases hf : env.format sp st.name with
        | error e => simp [hs, hf, Except.bind, Except.map, Except.mapError] at h
        | ok text =>
          simp only [hs, hf, Except.bind, Except.map, Except.mapError, Except.ok.injEq] at h
          exact ⟨r, name, st, text, hv, hn, hm, rfl, hs, hf, by rw [← h]; rfl⟩
    · obtain rfl := List.singleton_inj.1 hc
      simp [he, Except.bind, Except.mapError]

/-- The handler `turn_on_test` for `light.turn_on`, registered alone, dispatched with the name `Kitchen Light` against
one state. -/
theorem asyncHandle_service_outcomes_kitchen :
    let t := "turn_on_test"
    let intents := (asyncRegister none
      (ServiceIntentHandler "turn_on_test" "light" "turn_on" "Turned on {}")).1
    let env : Env := ⟨[{ entityId := "light.kitchen", name := "Kitchen Light" }], fun _ => .ok (),
      Char.toLower, fun _ n => .ok ("Turned on " ++ n), ⟨"ctx", none, none⟩⟩
    let slots : Option (List (String × Value)) := some [("name", .dict [("value", .str "Kitchen Light")])]
    Dict.get? (intents.getD []) t =
      some (ServiceIntentHandler "turn_on_test" "light" "turn_on" "Turned on {}") ∧
    let out := asyncHandle intents env "conversation" t slots none none
    let validated := (ServiceIntentHandler "turn_on_test" "light" "turn_on" "Turned on {}").asyncValidateSlots
      (slots.getD [])
    let call := fun st : State =>
      (⟨"light", "turn_on", [(ATTR_ENTITY_ID, .str st.entityId)],
        (none : Option Context).getD env.freshContext⟩ : ServiceCall)
    (out.calls = [] ∨ ∃ r name st, validated = .ok r ∧ nameValue r = .ok name ∧
      asyncMatchState env name = .ok st ∧ out.calls = [call st]) ∧
    (∀ msg es, (out.calls = [] ∧ out.result = .error (.invalidSlotInfo msg es)) ↔
      validated = .error es ∧ msg = s!"Received invalid slot info for {t}") ∧
    (∀ r e, validated = .ok r → nameValue r = .error e → out = ⟨[], .error (classify t e)⟩) ∧
    (∀ r name e, validated = .ok r → nameValue r = .ok name → asyncMatchState env name = .error e →
      out = ⟨[], .error (classify t e)⟩) ∧
    (∀ resp, out.result = .ok resp → ∃ r name st text, validated = .ok r ∧ nameValue r = .ok name ∧
      asyncMatchState env name = .ok st ∧ out.calls = [call st] ∧ env.services (call st) = .ok () ∧
      env.format "Turned on {}" st.name = .ok text ∧ resp.speech = [("plain", ⟨text, none⟩)]) ∧
    (∀ c e, out.calls = [c] → env.services c = .error e →
      out.result = .error (classify t e)) :=
  ⟨rfl, asyncHandle_service_outcomes _ _ _ _ _ _ _ rfl⟩

theorem serviceIntentHandler_nameValue (t dm sv sp : String) {slots d : List (String × Value)}
    {n : String} (hnd : (Dict.keys slots).Nodup)
    (hnd' : ∀ k d, Dict.get? slots k = some (.dict d) → (Dict.keys d).Nodup)
    (hname : Dict.get? slots "name" = some (.dict d)) (hvalue : Dict.get? d "value" = some (.str n)) :
    ∃ r, (ServiceIntentHandler t dm sv sp).asyncValidateSlots slots = .ok r ∧ nameValue r = .ok n := by
  have hproper : ∀ e ∈ [(Marker.required "name", cvString)], e.2.Proper := by simp [cvString_proper]
  obtain ⟨r, hr⟩ := (IntentHandler.asyncValidateSlots_accepts_iff (h := ServiceIntentHandler t dm sv sp) rfl hnd hproper hnd').2
    ⟨fun k v hk => by simp at hk; exact hk.1 ▸ Dict.mem_keys_of_get? hname,
     fun k x e hx he => by
      simp [Marker.key] at he
      obtain ⟨rfl, rfl⟩ := he
      exact ⟨d, Option.some.inj (hx.symm.trans hname), fun z hz => ⟨z, by
        rw [hvalue] at hz; cases hz; rfl⟩⟩⟩
  obtain ⟨out, rfl, -, hout⟩ := IntentHandler.asyncValidateSlots_result (h := ServiceIntentHandler t dm sv sp) rfl hnd hproper hnd' hr
  obtain ⟨d₀, d', hd₀, hd', -, -, hval⟩ :=
    (hout "name" _ hname).2 (.required "name", cvString) (by simp [Marker.key])
  cases hd₀
  obtain ⟨z', hz', hz'd⟩ := hval _ hvalue
  cases hz'
  exact ⟨_, hr, by simp [nameValue, getItem, hd', hz'd, Except.bind, nameOf]⟩

/-- A registered `ServiceIntentHandler` dispatched with a `name` slot whose `value` is a string
without special characters, against states whose names have no newline: it ends in
`IntentHandleError` with no call exactly when no state's name contains the name, and otherwise
calls the service exactly once, on a state whose name contains it. -/
theorem asyncHandle_service_name_match (intents : Option (List (String × IntentHandler))) (env : Env)
    (p t : String) (textInput : Option String) (context : Option Context) {t' dm sv sp : String}
    (hreg : Dict.get? (intents.getD []) t = some (ServiceIntentHandler t' dm sv sp))
    {slots d : List (String × Value)} {n : String} (hnd : (Dict.keys slots).Nodup)
    (hnd' : ∀ k d, Dict.get? slots k = some (.dict d) → (Dict.keys d).Nodup)
    (hname : Dict.get? slots "name" = some (.dict d)) (hvalue : Dict.get? d "value" = some (.str n))
    (hplain : Re.Plain n.toList) (hstates : ∀ st ∈ env.states, '\n' ∉ st.name.toList) :
    let out := asyncHandle intents env p t (some slots) textInput context
    ((out.calls = [] ∧
        out.result = .error (.intentHandleError s!"Unable to find an entity called {n}")) ↔
      ∀ st ∈ env.states, ¬ Contains env.lower n.toList st.name.toList) ∧
    ((∃ st ∈ env.states, Contains env.lower n.toList st.name.toList) ↔ out.calls.length = 1) ∧
    ∀ c ∈ out.calls, ∃ st ∈ env.states, Contains env.lower n.toList st.name.toList ∧
      c = ⟨dm, sv, [(ATTR_ENTITY_ID, .str st.entityId)], context.getD env.freshContext⟩ := by
  obtain ⟨r, hv, hn⟩ := serviceIntentHandler_nameValue t' dm sv sp hnd hnd' hname hvalue
  rw [asyncHandle_service hreg, Option.getD_some]
  rcases serviceHandle_cases (ServiceIntentHandler t' dm sv sp) dm sv sp env
      ⟨p, t, slots, textInput, context.getD env.freshContext⟩ with
    ⟨es, hv', -⟩ | ⟨r', e, hv', hn', -⟩ | ⟨r', name, e, hv', hn', hm, ho⟩ | ⟨r', name, st, hv', hn', hm, ho⟩
  · cases hv.symm.trans hv'
  · cases Except.ok.inj (hv.symm.trans hv'); cases hn.symm.trans hn'
  · -- no state's name contains the name
    cases Except.ok.inj (hv.symm.trans hv'); cases Except.ok.inj (hn.symm.trans hn')
    obtain ⟨hb, rfl⟩ := (asyncMatchState_eq_error_iff hplain).1 hm
    have hno := (bestMatch_eq_none_iff hstates).1 hb
    simp only [ho]
    exact ⟨iff_of_true (by simp [classify, Except.mapError]) hno,
      iff_of_false (fun ⟨st, hst, hc⟩ => hno st hst hc) (by simp), by simp⟩
  · -- the service is called on the best match
    cases Except.ok.inj (hv.symm.trans hv'); cases Except.ok.inj (hn.symm.trans hn')
    obtain ⟨i, _, _, hi, hfs, -⟩ := bestMatch_eq_some hstates ((asyncMatchState_eq_ok_iff hplain).1 hm)
    have hmem : st ∈ env.states := List.mem_iff_getElem?.2 ⟨i, hi⟩
    simp only [ho]
    exact ⟨iff_of_false (by simp) fun h => h st hmem hfs.contains,
      iff_of_true ⟨st, hmem, hfs.contains⟩ rfl, fun c hc => ⟨st, hmem, hfs.contains, List.mem_singleton.1 hc⟩⟩

/-- `turn_on_test` dispatched with the name `Kitchen Light` against one state of that name. -/
theorem asyncHandle_service_name_match_kitchen :
    let t := "turn_on_test"
    let n := "Kitchen Light"
    let intents := (asyncRegister none
      (ServiceIntentHandler t "light" "turn_on" "Turned on {}")).1
    let env : Env := ⟨[{ entityId := "light.kitchen", name := "Kitchen Light" }], fun _ => .ok (),
      Char.toLower, fun _ n => .ok ("Turned on " ++ n), ⟨"ctx", none, none⟩⟩
    let slots := [("name", Value.dict [("value", .str n)])]
    Dict.get? (intents.getD []) t = some (ServiceIntentHandler t "light" "turn_on" "Turned on {}") ∧
    (Dict.keys slots).Nodup ∧
    Dict.get? slots "name" = some (.dict [("value", .str n)]) ∧
    Dict.get? [("value", Value.str n)] "value" = some (.str n) ∧
    Re.Plain n.toList ∧ (∀ st ∈ env.states, '\n' ∉ st.name.toList) ∧
    let out := asyncHandle intents env "conversation" t (some slots) none none
    ((out.calls = [] ∧
        out.result = .error (.intentHandleError s!"Unable to find an entity called {n}")) ↔
      ∀ st ∈ env.states, ¬ Contains env.lower n.toList st.name.toList) ∧
    ((∃ st ∈ env.states, Contains env.lower n.toList st.name.toList) ↔ out.calls.length = 1) ∧
    ∀ c ∈ out.calls, ∃ st ∈ env.states, Contains env.lower n.toList st.name.toList ∧
      c = ⟨"light", "turn_on", [(ATTR_ENTITY_ID, .str st.entityId)],
        (none : Option Context).getD env.freshContext⟩ := by
  intro t n intents env slots
  exact ⟨rfl, by decide, rfl, rfl, by decide, by decide,
    asyncHandle_service_name_match intents env "conversation" t none none rfl
      (by decide) (nodup_keys_name_value _) rfl rfl (by decide) (by decide)⟩


end OpenPeerPower
