import OpenPeerPower.Intent

/-!
# Slot validation

`IntentHandler.async_validate_slots` compiles the handler's `slot_schema` into a dict schema whose
entry for a declared key validates a dict with `SLOT_SCHEMA.extend({"value": validator})`. The
extension keeps `required=False`, so `value` is optional: a declared slot whose dict has no
`value` passes unchanged.

`asyncValidateSlots_checks_present_values` says what validation does for every handler, every
slot schema whose validators report their errors, and every slots dict: it accepts exactly when
every `Required` key is present and every declared slot is a dict whose `value`, when present,
passes the slot's validator; and it returns the slots in order, undeclared ones unchanged, each
declared one with its `value` validated and its other entries unchanged. The proof rests on
`Schema.validateMapping_eq_ok_iff`, applied to the outer schema and to the schema of each slot.

When validation rejects, `asyncValidateSlots_errors_name_slots` says that every error names the
slot it is about, from `Schema.validateMapping_errors` applied the same two ways: a slot that is not
a dict, an error of the slot's validator under its `value`, or a `Required` slot that is missing.
-/

namespace OpenPeerPower

/-- The `ServiceIntentHandler` schema accepts a `name` slot without `value`. -/
theorem asyncValidateSlots_accepts_name_without_value (t d s sp : String) :
    (ServiceIntentHandler t d s sp).asyncValidateSlots [("name", .dict [])] =
      .ok (.dict [("name", .dict [])]) := rfl

theorem nodup_keys_name_value (v : Value) :
    ∀ k d, Dict.get? [("name", Value.dict [("value", v)])] k = some (.dict d) → (Dict.keys d).Nodup := by
  intro k d h
  simp only [Dict.get?_cons, Dict.get?_nil] at h
  split_ifs at h
  cases h; simp

section SlotValue

variable {v : Validator}

@[simp] theorem slotValueSchema_entries :
    (SLOT_SCHEMA.extend [(.plain "value", v)]).entries = [(.plain "value", v)] := rfl

@[simp] theorem slotValueSchema_extra : (SLOT_SCHEMA.extend [(.plain "value", v)]).extra = .allowExtra := rfl

theorem slotValueSchema_itemResult (path : List String) (k : String) (z : Value) :
    (SLOT_SCHEMA.extend [(.plain "value", v)]).itemResult path (k, z) =
      if k = "value" then (v (path ++ ["value"]) z).map ("value", ·) else .ok (k, z) := by
  by_cases hk : k = "value"
  · subst hk; rfl
  · simp [Schema.itemResult, Schema.candidate, List.find?, Marker.key, Ne.symm hk, hk]

variable (hv : v.Proper) {path : List String} {d : List (String × Value)} (hd : (Dict.keys d).Nodup)
include hv hd

omit hv in
theorem slotValue_itemResult_ok_iff :
    (∀ kv ∈ d, ∃ kv', (SLOT_SCHEMA.extend [(.plain "value", v)]).itemResult path kv = .ok kv') ↔
      ∀ z, Dict.get? d "value" = some z → ∃ z', v (path ++ ["value"]) z = .ok z' := by
  constructor
  · intro h z hz
    obtain ⟨kv', hkv'⟩ := h _ ((Dict.get?_eq_some_iff hd).1 hz)
    rw [slotValueSchema_itemResult, if_pos rfl] at hkv'
    cases hz' : v (path ++ ["value"]) z with
    | error es => rw [hz'] at hkv'; exact nomatch hkv'
    | ok z' => exact ⟨z', rfl⟩
  · rintro h ⟨k, z⟩ hkz
    rw [slotValueSchema_itemResult]
    split_ifs with hk
    · subst hk
      obtain ⟨z', hz'⟩ := h z ((Dict.get?_eq_some_iff hd).2 hkz)
      exact ⟨_, by rw [hz']; rfl⟩
    · exact ⟨_, rfl⟩

theorem validate_slotValue_eq_ok_iff {r : Value} :
    (SLOT_SCHEMA.extend [(.plain "value", v)]).validate path (.dict d) = .ok r ↔
      (∀ z, Dict.get? d "value" = some z → ∃ z', v (path ++ ["value"]) z = .ok z') ∧
      r = .dict (d.filterMap fun kv =>
        ((SLOT_SCHEMA.extend [(.plain "value", v)]).itemResult path kv).toOption) := by
  rw [Schema.validate, Schema.validateMapping_eq_ok_iff rfl hd]
  · have hreq : ∀ e ∈ (SLOT_SCHEMA.extend [(.plain "value", v)]).entries,
        (SLOT_SCHEMA.extend [(.plain "value", v)]).isRequired e.1 → e.1.key ∈ Dict.keys d := by
      simp [Schema.isRequired, SLOT_SCHEMA, Schema.extend]
    rw [slotValue_itemResult_ok_iff hd, and_iff_right hreq]
  · rintro ⟨k, z⟩ - es h
    rw [slotValueSchema_itemResult] at h
    split_ifs at h
    cases hz : v (path ++ ["value"]) z with
    | error es' => rw [hz] at h; cases h; exact hv _ _ _ hz
    | ok _ => rw [hz] at h; exact nomatch h

theorem validate_slotValue_result {r : Value}
    (h : (SLOT_SCHEMA.extend [(.plain "value", v)]).validate path (.dict d) = .ok r) :
    ∃ d', r = .dict d' ∧ Dict.keys d' = Dict.keys d ∧
      (∀ k, k ≠ "value" → Dict.get? d' k = Dict.get? d k) ∧
      ∀ z, Dict.get? d "value" = some z →
        ∃ z', v (path ++ ["value"]) z = .ok z' ∧ Dict.get? d' "value" = some z' := by
  obtain ⟨hval, rfl⟩ := (validate_slotValue_eq_ok_iff hv hd).1 h
  refine ⟨_, rfl, Schema.keys_filterMap_itemResult ((slotValue_itemResult_ok_iff hd).2 hval),
    fun k hk => ?_, fun z hz => ?_⟩
  · rw [Schema.get?_filterMap_itemResult hd]
    cases Dict.get? d k <;> simp [slotValueSchema_itemResult, hk, Except.toOption]
  · obtain ⟨z', hz'⟩ := hval z hz
    refine ⟨z', hz', ?_⟩
    rw [Schema.get?_filterMap_itemResult hd, hz]
    simp [slotValueSchema_itemResult, hz', Except.toOption, Except.map]

end SlotValue

namespace IntentHandler

variable {ss : List (Marker × Validator)}

theorem compiledSlotSchema_itemResult (k : String) (x : Value) :
    (compiledSlotSchema ss).itemResult [] (k, x) =
      match ss.find? (·.1.key = k) with
      | none => .ok (k, x)
      | some e => ((SLOT_SCHEMA.extend [(.plain "value", e.2)]).validate [k] x).map (k, ·) := by
  simp only [Schema.itemResult, Schema.candidate, compiledSlotSchema, List.find?_map,
    Function.comp_def]
  cases ss.find? (·.1.key = k) <;> rfl

theorem compiledSlotSchema_itemResult_ok_iff {k : String} {x : Value} {e : Marker × Validator}
    (he : ss.find? (·.1.key = k) = some e) (hv : e.2.Proper)
    (hd : ∀ d, x = .dict d → (Dict.keys d).Nodup) :
    (∃ kv', (compiledSlotSchema ss).itemResult [] (k, x) = .ok kv') ↔
      ∃ d, x = .dict d ∧ ∀ z, Dict.get? d "value" = some z → ∃ z', e.2 [k, "value"] z = .ok z' := by
  rw [compiledSlotSchema_itemResult, he]
  cases x with
  | dict d =>
    simp only [Value.dict.injEq, exists_eq_left']
    constructor
    · rintro ⟨kv', hkv'⟩
      cases hr : (SLOT_SCHEMA.extend [(.plain "value", e.2)]).validate [k] (.dict d) with
      | error es => rw [hr] at hkv'; exact nomatch hkv'
      | ok r => exact ((validate_slotValue_eq_ok_iff hv (hd d rfl)).1 hr).1
    · intro hval
      exact ⟨_, by rw [(validate_slotValue_eq_ok_iff hv (hd d rfl)).2 ⟨hval, rfl⟩]; rfl⟩
  | _ => simp [Schema.validate, Except.map]

section Slots

variable {h : IntentHandler} (hss : h.slotSchema = some ss) {slots : List (String × Value)}
  (hnd : (Dict.keys slots).Nodup)
include hss hnd

theorem asyncValidateSlots_eq_ok_iff {r : Value} :
    h.asyncValidateSlots slots = .ok r ↔
      (∀ k validator, (Marker.required k, validator) ∈ ss → k ∈ Dict.keys slots) ∧
      (∀ kv ∈ slots, ∃ kv', (compiledSlotSchema ss).itemResult [] kv = .ok kv') ∧
      r = .dict (slots.filterMap fun kv => ((compiledSlotSchema ss).itemResult [] kv).toOption) := by
  rw [asyncValidateSlots, hss]
  simp only [Schema.call, Schema.validate]
  rw [Schema.validateMapping_eq_ok_iff rfl hnd]
  · have hreq : (∀ e ∈ (compiledSlotSchema ss).entries,
          (compiledSlotSchema ss).isRequired e.1 → e.1.key ∈ Dict.keys slots) ↔
        ∀ k validator, (Marker.required k, validator) ∈ ss → k ∈ Dict.keys slots := by
      simp only [compiledSlotSchema, List.mem_map, forall_exists_index, and_imp]
      constructor
      · intro H k validator hk; exact H _ _ hk rfl rfl
      · rintro H _ ⟨m, validator⟩ hm rfl hreq
        cases m with
        | required k => exact H k validator hm
        | plain _ | optional _ => simp [Schema.isRequired] at hreq
    rw [hreq]
  · intro kv _ es hes
    obtain ⟨k, x⟩ := kv
    rw [compiledSlotSchema_itemResult] at hes
    split at hes
    · exact nomatch hes
    · cases hv : (SLOT_SCHEMA.extend [(.plain "value", _)]).validate [k] x with
      | error es' => rw [hv] at hes; cases hes; exact Schema.validate_ne_nil hv
      | ok _ => rw [hv] at hes; exact nomatch hes

omit hss in
theorem slots_itemResult_ok_iff (hproper : ∀ e ∈ ss, e.2.Proper)
    (hnd' : ∀ k d, Dict.get? slots k = some (.dict d) → (Dict.keys d).Nodup) :
    (∀ kv ∈ slots, ∃ kv', (compiledSlotSchema ss).itemResult [] kv = .ok kv') ↔
      ∀ k x e, Dict.get? slots k = some x → ss.find? (·.1.key = k) = some e →
        ∃ d, x = .dict d ∧ ∀ z, Dict.get? d "value" = some z → ∃ z', e.2 [k, "value"] z = .ok z' := by
  constructor
  · intro H k x e hx he
    exact (compiledSlotSchema_itemResult_ok_iff he (hproper e (List.mem_of_find?_eq_some he))
      fun d hd => hnd' k d (hd ▸ hx)).1 (H _ ((Dict.get?_eq_some_iff hnd).1 hx))
  · rintro H ⟨k, x⟩ hkx
    have hx := (Dict.get?_eq_some_iff hnd).2 hkx
    cases he : ss.find? (·.1.key = k) with
    | none => rw [compiledSlotSchema_itemResult, he]; exact ⟨_, rfl⟩
    | some e =>
      exact (compiledSlotSchema_itemResult_ok_iff he (hproper e (List.mem_of_find?_eq_some he))
        fun d hd => hnd' k d (hd ▸ hx)).2 (H k x e hx he)

theorem asyncValidateSlots_accepts_iff (hproper : ∀ e ∈ ss, e.2.Proper)
    (hnd' : ∀ k d, Dict.get? slots k = some (.dict d) → (Dict.keys d).Nodup) :
    (∃ r, h.asyncValidateSlots slots = .ok r) ↔
      (∀ k validator, (Marker.required k, validator) ∈ ss → k ∈ Dict.keys slots) ∧
      ∀ k x e, Dict.get? slots k = some x → ss.find? (·.1.key = k) = some e →
        ∃ d, x = .dict d ∧ ∀ z, Dict.get? d "value" = some z → ∃ z', e.2 [k, "value"] z = .ok z' := by
  refine ⟨fun ⟨r, hr⟩ => ?_, fun ⟨hreq, hval⟩ => ?_⟩
  · obtain ⟨hreq, hall, -⟩ := (asyncValidateSlots_eq_ok_iff hss hnd).1 hr
    exact ⟨hreq, (slots_itemResult_ok_iff hnd hproper hnd').1 hall⟩
  · exact ⟨_, (asyncValidateSlots_eq_ok_iff hss hnd).2
      ⟨hreq, (slots_itemResult_ok_iff hnd hproper hnd').2 hval, rfl⟩⟩

theorem asyncValidateSlots_result (hproper : ∀ e ∈ ss, e.2.Proper)
    (hnd' : ∀ k d, Dict.get? slots k = some (.dict d) → (Dict.keys d).Nodup) {r : Value}
    (hr : h.asyncValidateSlots slots = .ok r) :
    ∃ out, r = .dict out ∧ Dict.keys out = Dict.keys slots ∧
      ∀ k x, Dict.get? slots k = some x →
        (ss.find? (·.1.key = k) = none → Dict.get? out k = some x) ∧
        ∀ e, ss.find? (·.1.key = k) = some e → ∃ d d', x = .dict d ∧ Dict.get? out k = some (.dict d') ∧
          Dict.keys d' = Dict.keys d ∧ (∀ k', k' ≠ "value" → Dict.get? d' k' = Dict.get? d k') ∧
          ∀ z, Dict.get? d "value" = some z →
            ∃ z', e.2 [k, "value"] z = .ok z' ∧ Dict.get? d' "value" = some z' := by
  obtain ⟨-, hall, rfl⟩ := (asyncValidateSlots_eq_ok_iff hss hnd).1 hr
  refine ⟨_, rfl, Schema.keys_filterMap_itemResult hall, fun k x hx => ⟨fun he => ?_, fun e he => ?_⟩⟩
  · rw [Schema.get?_filterMap_itemResult hnd, hx]
    simp [compiledSlotSchema_itemResult, he, Except.toOption]
  · obtain ⟨d, rfl, -⟩ := (slots_itemResult_ok_iff hnd hproper hnd').1 hall k x e hx he
    obtain ⟨kv', hkv'⟩ := hall _ ((Dict.get?_eq_some_iff hnd).1 hx)
    rw [compiledSlotSchema_itemResult, he] at hkv'
    dsimp only at hkv'
    cases hr' : (SLOT_SCHEMA.extend [(.plain "value", e.2)]).validate [k] (.dict d) with
    | error es => rw [hr'] at hkv'; exact nomatch hkv'
    | ok r' =>
      obtain ⟨d', rfl, hkeys, hother, hvalue⟩ :=
        validate_slotValue_result (hproper e (List.mem_of_find?_eq_some he)) (hnd' k d hx) hr'
      refine ⟨d, d', rfl, ?_, hkeys, hother, hvalue⟩
      rw [Schema.get?_filterMap_itemResult hnd, hx]
      simp [compiledSlotSchema_itemResult, he, hr', Except.toOption, Except.map]

end Slots

/-- For every handler with a declared slot schema whose validators report their errors, and every
slots dict, `async_validate_slots` accepts exactly when every `Required` key is present and every
declared slot is a dict whose `value`, when present, passes the slot's validator; what it returns
keeps the slots in order, undeclared ones unchanged, and each declared one with the same keys, its
`value` validated when present and its other entries unchanged. -/
theorem asyncValidateSlots_checks_present_values (h : IntentHandler) {ss : List (Marker × Validator)}
    (hss : h.slotSchema = some ss) (hproper : ∀ e ∈ ss, e.2.Proper) {slots : List (String × Value)}
    (hnd : (Dict.keys slots).Nodup)
    (hnd' : ∀ k d, Dict.get? slots k = some (.dict d) → (Dict.keys d).Nodup) :
    ((∃ r, h.asyncValidateSlots slots = .ok r) ↔
      (∀ k validator, (Marker.required k, validator) ∈ ss → k ∈ Dict.keys slots) ∧
      ∀ k x e, Dict.get? slots k = some x → ss.find? (·.1.key = k) = some e →
        ∃ d, x = .dict d ∧ ∀ z, Dict.get? d "value" = some z → ∃ z', e.2 [k, "value"] z = .ok z') ∧
    ∀ r, h.asyncValidateSlots slots = .ok r → ∃ out, r = .dict out ∧ Dict.keys out = Dict.keys slots ∧
      ∀ k x, Dict.get? slots k = some x →
        (ss.find? (·.1.key = k) = none → Dict.get? out k = some x) ∧
        ∀ e, ss.find? (·.1.key = k) = some e → ∃ d d', x = .dict d ∧ Dict.get? out k = some (.dict d') ∧
          Dict.keys d' = Dict.keys d ∧ (∀ k', k' ≠ "value" → Dict.get? d' k' = Dict.get? d k') ∧
          ∀ z, Dict.get? d "value" = some z →
            ∃ z', e.2 [k, "value"] z = .ok z' ∧ Dict.get? d' "value" = some z' :=
  ⟨asyncValidateSlots_accepts_iff hss hnd hproper hnd',
    fun _ hr => asyncValidateSlots_result hss hnd hproper hnd' hr⟩

/-- A `name` slot with a string `value`, validated by the `ServiceIntentHandler` schema. -/
theorem asyncValidateSlots_checks_present_values_name :
    (ServiceIntentHandler "turn_on_test" "light" "turn_on" "Turned on {}").slotSchema =
      some [(.required "name", cvString)] ∧
    (∀ e ∈ [(Marker.required "name", cvString)], e.2.Proper) ∧
    (Dict.keys [("name", Value.dict [("value", .str "Kitchen Light")])]).Nodup ∧
    (∀ k d, Dict.get? [("name", Value.dict [("value", .str "Kitchen Light")])] k = some (.dict d) →
      (Dict.keys d).Nodup) ∧
    ((∃ r, (ServiceIntentHandler "turn_on_test" "light" "turn_on" "Turned on {}").asyncValidateSlots
        [("name", .dict [("value", .str "Kitchen Light")])] = .ok r) ↔
      (∀ k validator, (Marker.required k, validator) ∈ [(Marker.required "name", cvString)] →
        k ∈ Dict.keys [("name", Value.dict [("value", .str "Kitchen Light")])]) ∧
      ∀ k x e, Dict.get? [("name", Value.dict [("value", .str "Kitchen Light")])] k = some x →
        [(Marker.required "name", cvString)].find? (·.1.key = k) = some e →
        ∃ d, x = .dict d ∧ ∀ z, Dict.get? d "value" = some z → ∃ z', e.2 [k, "value"] z = .ok z') ∧
    ∀ r, (ServiceIntentHandler "turn_on_test" "light" "turn_on" "Turned on {}").asyncValidateSlots
        [("name", .dict [("value", .str "Kitchen Light")])] = .ok r →
      ∃ out, r = .dict out ∧ Dict.keys out = Dict.keys [("name", Value.dict [("value", .str "Kitchen Light")])] ∧
      ∀ k x, Dict.get? [("name", Value.dict [("value", .str "Kitchen Light")])] k = some x →
        ([(Marker.required "name", cvString)].find? (·.1.key = k) = none → Dict.get? out k = some x) ∧
        ∀ e, [(Marker.required "name", cvString)].find? (·.1.key = k) = some e →
          ∃ d d', x = .dict d ∧ Dict.get? out k = some (.dict d') ∧
          Dict.keys d' = Dict.keys d ∧ (∀ k', k' ≠ "value" → Dict.get? d' k' = Dict.get? d k') ∧
          ∀ z, Dict.get? d "value" = some z →
            ∃ z', e.2 [k, "value"] z = .ok z' ∧ Dict.get? d' "value" = some z' := by
  have hnd' := nodup_keys_name_value (.str "Kitchen Light")
  have hproper : ∀ e ∈ [(Marker.required "name", cvString)], e.2.Proper := by
    simp [cvString_proper]
  exact ⟨rfl, hproper, by decide, hnd', asyncValidateSlots_checks_present_values _ rfl hproper (by decide) hnd'⟩

theorem validate_slotValue_errors {v : Validator} (hv : v.Local) {k : String} {x : Value}
    {es : List Invalid} (h : (SLOT_SCHEMA.extend [(.plain "value", v)]).validate [k] x = .error es) :
    ∀ e ∈ es, ((∀ d, x ≠ .dict d) ∧ e = ⟨"expected a dictionary", [k]⟩) ∨
      ∃ d z es', x = .dict d ∧ ("value", z) ∈ d ∧ v [k, "value"] z = .error es' ∧ e ∈ es' ∧
        [k, "value"] <+: e.path := by
  intro e he
  cases x with
  | dict d =>
    rcases Schema.validateMapping_errors h he with
      ⟨⟨z₁, z⟩, hz₁, ⟨m, v', hc, hz⟩ | ⟨hx, -⟩⟩ | ⟨m, hm, hreq, -⟩
    · have hmem := List.mem_of_find?_eq_some hc
      simp only [slotValueSchema_entries, List.mem_singleton, Prod.mk.injEq] at hmem
      obtain ⟨rfl, hv'⟩ := hmem
      rw [hv'] at hz
      obtain rfl : "value" = z₁ := Schema.candidate_key hc
      cases hvz : v ([k] ++ ["value"]) z with
      | ok _ => rw [hvz] at hz; cases hz
      | error es' =>
        rw [hvz] at hz
        exact .inr ⟨d, z, es', rfl, hz₁, hvz, hz, hv _ _ _ hvz e hz⟩
    · cases hx
    · simp [Schema.isRequired, SLOT_SCHEMA, Schema.extend] at hm hreq
      simp [hm] at hreq
  | _ => cases h; exact .inl ⟨nofun, List.mem_singleton.1 he⟩

theorem compiledSlotSchema_candidate (k : String) :
    (compiledSlotSchema ss).candidate k = (ss.find? (·.1.key = k)).map fun e =>
      (e.1, (SLOT_SCHEMA.extend [(.plain "value", e.2)]).validate) := by
  simp only [Schema.candidate, compiledSlotSchema, List.find?_map, Function.comp_def]

/-- Every error of slot validation names the slot it is about: a passed slot that is declared and
is not a dict, an error the declared slot's validator reported on its `value`, under the slot's
`value`, or a `Required` slot missing. -/
theorem asyncValidateSlots_errors_name_slots (h : IntentHandler) {ss : List (Marker × Validator)}
    (hss : h.slotSchema = some ss) (hloc : ∀ e ∈ ss, e.2.Local) {slots : List (String × Value)}
    {es : List Invalid} (he : h.asyncValidateSlots slots = .error es) :
    es ≠ [] ∧ ∀ e ∈ es,
      (∃ k x m validator, (k, x) ∈ slots ∧ ss.find? (·.1.key = k) = some (m, validator) ∧
        (((∀ d, x ≠ .dict d) ∧ e = ⟨"expected a dictionary", [k]⟩) ∨
          ∃ d z es', x = .dict d ∧ ("value", z) ∈ d ∧ validator [k, "value"] z = .error es' ∧
            e ∈ es' ∧ [k, "value"] <+: e.path)) ∨
      ∃ k validator, (Marker.required k, validator) ∈ ss ∧ k ∉ Dict.keys slots ∧
        e = ⟨"required key not provided", [k]⟩ := by
  rw [asyncValidateSlots, hss] at he
  refine ⟨Schema.validate_ne_nil he, fun e hes => ?_⟩
  rcases Schema.validateMapping_errors he hes with
    ⟨⟨k, x⟩, hkx, ⟨m, v, hc, hev⟩ | ⟨hx, -⟩⟩ | ⟨m, hm, hreq, hk, rfl⟩
  · rw [compiledSlotSchema_candidate, Option.map_eq_some'] at hc
    obtain ⟨⟨m', validator⟩, hfind, hmv⟩ := hc
    cases hmv
    cases hvk : (SLOT_SCHEMA.extend [(.plain "value", validator)]).validate ([] ++ [k]) x with
    | ok _ => rw [hvk] at hev; cases hev
    | error es' =>
      rw [hvk] at hev
      exact .inl ⟨k, x, m', validator, hkx, hfind, validate_slotValue_errors
        (hloc _ (List.mem_of_find?_eq_some hfind)) hvk e hev⟩
  · cases hx
  · obtain ⟨⟨m', v'⟩, hm', rfl⟩ := List.mem_map.1 hm
    cases m' with
    | required k => exact .inr ⟨k, v', hm', hk, rfl⟩
    | plain _ | optional _ => simp [Schema.isRequired, compiledSlotSchema] at hreq

/-- `name` whose `value` is `None`: the one error is the validator's, under `name.value`. -/
theorem asyncValidateSlots_errors_name_none :
    (ServiceIntentHandler "turn_on_test" "light" "turn_on" "Turned on {}").slotSchema =
      some [(.required "name", cvString)] ∧
    (∀ e ∈ [(Marker.required "name", cvString)], e.2.Local) ∧
    (ServiceIntentHandler "turn_on_test" "light" "turn_on" "Turned on {}").asyncValidateSlots
      [("name", .dict [("value", .none)])] = .error [⟨"string value is None", ["name", "value"]⟩] ∧
    [(⟨"string value is None", ["name", "value"]⟩ : Invalid)] ≠ [] ∧
    ∀ e ∈ [(⟨"string value is None", ["name", "value"]⟩ : Invalid)],
      (∃ k x m validator, (k, x) ∈ [("name", Value.dict [("value", .none)])] ∧
        [(Marker.required "name", cvString)].find? (·.1.key = k) = some (m, validator) ∧
        (((∀ d, x ≠ .dict d) ∧ e = ⟨"expected a dictionary", [k]⟩) ∨
          ∃ d z es', x = .dict d ∧ ("value", z) ∈ d ∧ validator [k, "value"] z = .error es' ∧
            e ∈ es' ∧ [k, "value"] <+: e.path)) ∨
      ∃ k validator, (Marker.required k, validator) ∈ [(Marker.required "name", cvString)] ∧
        k ∉ Dict.keys [("name", Value.dict [("value", .none)])] ∧
        e = ⟨"required key not provided", [k]⟩ := by
  have hloc : ∀ e ∈ [(Marker.required "name", cvString)], e.2.Local := by simp [cvString_local]
  exact ⟨rfl, hloc, rfl, asyncValidateSlots_errors_name_slots
    (ServiceIntentHandler "turn_on_test" "light" "turn_on" "Turned on {}") rfl hloc rfl⟩

end IntentHandler

/-- `ServiceIntentHandler` accepts the slots exactly when `name` is a dict whose `value`, when
present, is a string, a number or a boolean. -/
theorem serviceIntentHandler_accepts_iff (t dm sv sp : String) {slots : List (String × Value)}
    (hnd : (Dict.keys slots).Nodup)
    (hnd' : ∀ k d, Dict.get? slots k = some (.dict d) → (Dict.keys d).Nodup) :
    (∃ r, (ServiceIntentHandler t dm sv sp).asyncValidateSlots slots = .ok r) ↔
      ∃ d, Dict.get? slots "name" = some (.dict d) ∧
        ∀ z, Dict.get? d "value" = some z → ∃ z', cvString ["name", "value"] z = .ok z' := by
  rw [IntentHandler.asyncValidateSlots_accepts_iff rfl hnd (by simp [cvString_proper]) hnd']
  have hfind : ∀ k e, [(Marker.required "name", cvString)].find? (·.1.key = k) = some e ↔
      k = "name" ∧ e = (.required "name", cvString) := by
    intro k e
    by_cases hk : k = "name"
    · subst hk; simp [Marker.key, eq_comm]
    · simp [Marker.key, Ne.symm hk, hk]
  simp only [hfind, List.mem_singleton, Prod.mk.injEq, Marker.required.injEq]
  constructor
  · rintro ⟨hreq, hval⟩
    obtain ⟨x, hx⟩ := Option.isSome_iff_exists.1
      (Option.isSome_iff_ne_none.2 (mt Dict.get?_eq_none_iff.1 (not_not.2 (hreq "name" cvString ⟨rfl, rfl⟩))))
    obtain ⟨d, rfl, hd⟩ := hval "name" x _ hx ⟨rfl, rfl⟩
    exact ⟨d, hx, hd⟩
  · rintro ⟨d, hd, hval⟩
    refine ⟨fun k v ⟨hk, _⟩ => hk ▸ Dict.mem_keys_of_get? hd, fun k x e hx ⟨hk, he⟩ => ?_⟩
    subst hk he
    exact ⟨d, Option.some.inj (hx.symm.trans hd), hval⟩

/-- The slots `name` with the string value `Kitchen Light`. -/
theorem serviceIntentHandler_accepts_kitchen_light :
    (Dict.keys [("name", Value.dict [("value", .str "Kitchen Light")])]).Nodup ∧
    (∀ k d, Dict.get? [("name", Value.dict [("value", .str "Kitchen Light")])] k = some (.dict d) →
      (Dict.keys d).Nodup) ∧
    ((∃ r, (ServiceIntentHandler "turn_on_test" "light" "turn_on" "Turned on {}").asyncValidateSlots
        [("name", .dict [("value", .str "Kitchen Light")])] = .ok r) ↔
      ∃ d, Dict.get? [("name", Value.dict [("value", .str "Kitchen Light")])] "name" = some (.dict d) ∧
        ∀ z, Dict.get? d "value" = some z → ∃ z', cvString ["name", "value"] z = .ok z') :=
  ⟨by decide, nodup_keys_name_value _,
    serviceIntentHandler_accepts_iff _ _ _ _ (by decide) (nodup_keys_name_value _)⟩

end OpenPeerPower
