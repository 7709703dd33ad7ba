import OpenPeerPower.Value

/-!
# Voluptuous dict schemas

The part of `voluptuous` that `IntentHandler.async_validate_slots` runs: a `Schema` over a dict
whose keys are literal strings, plain or wrapped in `vol.Required` / `vol.Optional`, each with a
validator for its value. `Schema.validateMapping` follows `_compile_mapping.validate_mapping`: it
walks the data's items in order, validates an item whose key the schema names (and marks that key
found, whether or not its value passed), lets `extra` decide about the other items, then reports
every required key not found. Errors accumulate; any error makes the whole call raise
`MultipleInvalid`, which `Schema.validate` returns as the list of its errors.

Only literal keys, no defaults, and no `Remove`/`Exclusive`/`Inclusive` markers: the schemas of
`helpers/intent.py` and of the alarm panel's device triggers use none of them. `Schema.extend`
replaces an entry with the same literal key or appends a new one, with the `required` and `extra`
of the schema it extends.

An accepted dict holds, under each required key, the value its validator returned
(`validateMapping_required`), and a dict whose keys the schema names, with every required one and
values the validators keep, is accepted unchanged (`validateMapping_of_fixed`).
-/

namespace OpenPeerPower

/-- A `voluptuous.Invalid` error: its message and the path of keys to the offending value. -/
structure Invalid where
  msg : String
  path : List String
  deriving Repr, DecidableEq

/-- A compiled validator: called with the path of the value and the value, it returns the
validated value or raises `MultipleInvalid` (the list of its errors). -/
abbrev Validator := List String → Value → Except (List Invalid) Value

/-- A literal schema key, plain or wrapped in a marker. -/
inductive Marker where
  | plain (key : String)
  | required (key : String)
  | optional (key : String)
  deriving Repr, DecidableEq

/-- The literal a marker wraps (`key_literal` in `Schema.extend`). -/
def Marker.key : Marker → String
  | .plain k | .required k | .optional k => k

/-- `vol.PREVENT_EXTRA`, `vol.ALLOW_EXTRA`, `vol.REMOVE_EXTRA`. -/
inductive Extra where
  | preventExtra
  | allowExtra
  | removeExtra
  deriving Repr, DecidableEq

/-- `vol.Schema(schema, required=False, extra=PREVENT_EXTRA)` for a dict-based `schema`. -/
structure Schema where
  entries : List (Marker × Validator)
  required : Bool := false
  extra : Extra := .preventExtra

/-- The accumulators of `validate_mapping`: the output dict, the errors so far, and the keys of
the schema entries an item has matched (`required_keys.discard(skey)`). -/
structure MappingState where
  out : List (String × Value)
  errors : List Invalid
  found : List String

namespace Schema

variable (s : Schema)

/-- Whether the schema requires the key of `m` (`all_required_keys`). -/
def isRequired : Marker → Bool
  | .required _ => true
  | .plain _ => s.required
  | .optional _ => false

/-- The schema entry a data key is validated against (`candidates_by_key`). -/
def candidate (k : String) : Option (Marker × Validator) :=
  s.entries.find? (·.1.key = k)

/-- One item of the loop of `validate_mapping`. -/
def validateItem (path : List String) (st : MappingState) (kv : String × Value) : MappingState :=
  match s.candidate kv.1 with
  | some (m, validator) =>
    match validator (path ++ [kv.1]) kv.2 with
    | .ok cval => { st with out := Dict.setItem st.out kv.1 cval, found := m.key :: st.found }
    | .error es => { st with errors := st.errors ++ es, found := m.key :: st.found }
  | none =>
    match s.extra with
    | .allowExtra => { st with out := Dict.setItem st.out kv.1 kv.2 }
    | .preventExtra => { st with errors := st.errors ++ [⟨"extra keys not allowed", path ++ [kv.1]⟩] }
    | .removeExtra => st

/-- `validate_mapping(path, iterable, out)`: the data's items are first collected into
`key_value_map`, then validated one by one; required keys not found are reported last. The model
reports these in the order of the schema's entries, where voluptuous iterates a `set` whose order
depends on the hash seed: what is proved here is which errors are reported, not their order. -/
def validateMapping (path : List String) (data : List (String × Value)) :
    Except (List Invalid) Value :=
  let keyValueMap := Dict.update [] data
  let st := keyValueMap.foldl (s.validateItem path) ⟨[], [], []⟩
  let missing := (s.entries.filter fun e => s.isRequired e.1 && !st.found.contains e.1.key).map
    fun e => (⟨"required key not provided", path ++ [e.1.key]⟩ : Invalid)
  let errors := st.errors ++ missing
  if errors.isEmpty then .ok (.dict st.out) else .error errors

/-- The compiled dict schema (`validate_dict`): anything but a dict is rejected. -/
def validate : Validator := fun path data =>
  match data with
  | .dict kvs => s.validateMapping path kvs
  | _ => .error [⟨"expected a dictionary", path⟩]

/-- `Schema.__call__(data)`. -/
def call (data : Value) : Except (List Invalid) Value := s.validate [] data

/-- `Schema.extend(schema)`: an entry with the same literal key is removed and the new one put
last; `required` and `extra` are kept. -/
def extend (ext : List (Marker × Validator)) : Schema :=
  { s with entries := ext.foldl (fun es e => es.filter (·.1.key ≠ e.1.key) ++ [e]) s.entries }

end Schema

/-! ### What `validate_mapping` computes when extra keys are allowed -/

/-- A validator that reports at least one error whenever it rejects. -/
def Validator.Proper (v : Validator) : Prop := ∀ p z es, v p z = .error es → es ≠ []

/-- A validator whose errors lie under the path it is called with. -/
def Validator.Local (v : Validator) : Prop := ∀ p z es, v p z = .error es → ∀ e ∈ es, p <+: e.path

/-- The errors an `Except` carries. -/
def errorsOf {α : Type} : Except (List Invalid) α → List Invalid
  | .error es => es
  | .ok _ => []

namespace Schema

variable (s : Schema) (path : List String)

/-- What validating one item gives when extra keys are allowed: the item with its validated
value, or the validator's errors. -/
def itemResult (kv : String × Value) : Except (List Invalid) (String × Value) :=
  match s.candidate kv.1 with
  | some (_, validator) => (validator (path ++ [kv.1]) kv.2).map (kv.1, ·)
  | none => .ok kv

/-- The key of the entry an item matched, which `validate_mapping` marks found. -/
def foundKey (kv : String × Value) : Option String := (s.candidate kv.1).map (·.1.key)

variable {s path}

theorem validateItem_allowExtra (hx : s.extra = .allowExtra) (st : MappingState) (kv : String × Value) :
    s.validateItem path st kv =
      ⟨match s.itemResult path kv with
        | .ok kv' => Dict.setItem st.out kv'.1 kv'.2
        | .error _ => st.out,
       st.errors ++ errorsOf (s.itemResult path kv),
       (s.foundKey kv).toList ++ st.found⟩ := by
  obtain ⟨k, v⟩ := kv
  simp only [validateItem, itemResult, foundKey]
  cases s.candidate k with
  | none => simp [hx, errorsOf]
  | some e =>
    obtain ⟨m, validator⟩ := e
    cases h : validator (path ++ [k]) v <;> simp [h, Except.map, errorsOf]

theorem itemResult_fst {kv kv' : String × Value} (h : s.itemResult path kv = .ok kv') : kv'.1 = kv.1 := by
  unfold itemResult at h
  split at h
  · cases hv : ‹Validator› (path ++ [kv.1]) kv.2 <;> simp [hv, Except.map] at h; rw [← h]
  · cases h; rfl

theorem foldl_validateItem (hx : s.extra = .allowExtra) : ∀ (data : List (String × Value)) (st : MappingState),
    (Dict.keys (st.out ++ data)).Nodup →
    data.foldl (s.validateItem path) st =
      ⟨st.out ++ data.filterMap (fun kv => (s.itemResult path kv).toOption),
       st.errors ++ data.flatMap (fun kv => errorsOf (s.itemResult path kv)),
       (data.filterMap s.foundKey).reverse ++ st.found⟩
  | [], st, _ => by simp
  | (k, v) :: rest, st, hnd => by
    rw [List.foldl_cons, validateItem_allowExtra hx]
    simp only [Dict.keys_append, Dict.keys_cons] at hnd
    have hk : k ∉ Dict.keys st.out := fun h => (List.nodup_middle.1 hnd |> List.nodup_cons.1).1 (by simp [h])
    have hrest : (Dict.keys st.out ++ Dict.keys rest).Nodup := (List.nodup_middle.1 hnd).sublist (by simp)
    have hfound : ∀ l : List String,
        (((k, v) :: rest).filterMap s.foundKey).reverse ++ l =
          (rest.filterMap s.foundKey).reverse ++ ((s.foundKey (k, v)).toList ++ l) := fun l => by
      cases h : s.foundKey (k, v) <;> simp [List.filterMap_cons, h]
    rw [hfound]
    cases hr : s.itemResult path (k, v) with
    | error es =>
      rw [foldl_validateItem hx rest _ (by simpa using hrest)]
      simp [hr, Except.toOption, errorsOf]
    | ok kv' =>
      obtain ⟨k', v'⟩ := kv'
      obtain rfl : k' = k := itemResult_fst hr
      dsimp only
      rw [Dict.setItem_of_not_mem _ hk, foldl_validateItem hx rest _ (by simpa using hnd)]
      simp [hr, Except.toOption, errorsOf]

theorem candidate_key {k : String} {e : Marker × Validator} (h : s.candidate k = some e) :
    e.1.key = k := by
  simpa using List.find?_some h

theorem candidate_isSome {e : Marker × Validator} (he : e ∈ s.entries) : (s.candidate e.1.key).isSome := by
  rw [candidate, List.find?_isSome]; exact ⟨e, he, by simp⟩

theorem mem_foundKeys {data : List (String × Value)} {e : Marker × Validator} (he : e ∈ s.entries) :
    e.1.key ∈ data.filterMap s.foundKey ↔ e.1.key ∈ Dict.keys data := by
  simp only [List.mem_filterMap, foundKey, Option.map_eq_some', Dict.keys, List.mem_map]
  constructor
  · rintro ⟨kv, hkv, e', he', hkey⟩; exact ⟨kv, hkv, by rw [← candidate_key he', hkey]⟩
  · rintro ⟨kv, hkv, hk⟩
    obtain ⟨e', he'⟩ := Option.isSome_iff_exists.1 (candidate_isSome he)
    exact ⟨kv, hkv, e', hk ▸ he', candidate_key he'⟩

/-- With extra keys allowed and items with distinct keys, `validate_mapping` succeeds exactly
when every required key is present and every named item validates, and then returns the items in
order, each named one with its validated value. -/
theorem validateMapping_eq_ok_iff (hx : s.extra = .allowExtra) {data : List (String × Value)}
    (hnd : (Dict.keys data).Nodup)
    (hproper : ∀ kv ∈ data, ∀ es, s.itemResult path kv = .error es → es ≠ []) {r : Value} :
    s.validateMapping path data = .ok r ↔
      (∀ e ∈ s.entries, s.isRequired e.1 → e.1.key ∈ Dict.keys data) ∧
      (∀ kv ∈ data, ∃ kv', s.itemResult path kv = .ok kv') ∧
      r = .dict (data.filterMap fun kv => (s.itemResult path kv).toOption) := by
  have hfold : data.foldl (s.validateItem path) ⟨[], [], []⟩ = _ :=
    foldl_validateItem hx data ⟨[], [], []⟩ (by simpa using hnd)
  simp only [List.nil_append, List.append_nil] at hfold
  have herrs : data.flatMap (fun kv => errorsOf (s.itemResult path kv)) = [] ↔
      ∀ kv ∈ data, ∃ kv', s.itemResult path kv = .ok kv' := by
    simp only [List.flatMap_eq_nil_iff]
    refine forall₂_congr fun kv hkv => ?_
    cases h : s.itemResult path kv with
    | ok kv' => simp [errorsOf]
    | error es => simpa [errorsOf] using hproper kv hkv es h
  have hmiss : (s.entries.filter fun e =>
        s.isRequired e.1 && !((data.filterMap s.foundKey).reverse.contains e.1.key)) = [] ↔
      ∀ e ∈ s.entries, s.isRequired e.1 → e.1.key ∈ Dict.keys data := by
    rw [List.filter_eq_nil_iff]
    refine forall₂_congr fun e he => ?_
    simp [mem_foundKeys he]
  simp only [validateMapping, Dict.update_nil_of_nodup hnd, hfold]
  split_ifs with h
  · simp only [List.isEmpty_iff, List.append_eq_nil, List.map_eq_nil_iff] at h
    simp only [Except.ok.injEq]
    exact ⟨fun h' => ⟨hmiss.1 h.2, herrs.1 h.1, h'.symm⟩, fun ⟨_, _, h'⟩ => h'.symm⟩
  · simp only [List.isEmpty_iff, List.append_eq_nil, List.map_eq_nil_iff, herrs, hmiss] at h
    simp only [false_iff, reduceCtorEq]
    exact fun ⟨h₁, h₂, _⟩ => h ⟨h₂, h₁⟩

theorem validate_ne_nil {path : List String} {data : Value} {es : List Invalid}
    (h : s.validate path data = .error es) : es ≠ [] := by
  cases data with
  | dict kvs =>
    simp only [validate, validateMapping] at h
    split_ifs at h with he
    cases h
    simpa [List.isEmpty_iff] using he
  | _ => cases h; simp

theorem keys_filterMap_itemResult : ∀ {data : List (String × Value)},
    (∀ kv ∈ data, ∃ kv', s.itemResult path kv = .ok kv') →
    Dict.keys (data.filterMap fun kv => (s.itemResult path kv).toOption) = Dict.keys data
  | [], _ => rfl
  | kv :: rest, h => by
    obtain ⟨kv', hkv'⟩ := h kv (List.mem_cons_self _ _)
    rw [List.filterMap_cons, hkv', Except.toOption, Dict.keys, List.map_cons, itemResult_fst hkv']
    exact congrArg _ (keys_filterMap_itemResult fun kv hkv => h kv (List.mem_cons_of_mem _ hkv))

theorem get?_filterMap_itemResult : ∀ {data : List (String × Value)}, (Dict.keys data).Nodup →
    ∀ k, Dict.get? (data.filterMap fun kv => (s.itemResult path kv).toOption) k =
      (Dict.get? data k).bind fun x => (s.itemResult path (k, x)).toOption.map Prod.snd
  | [], _, _ => rfl
  | (k', x') :: rest, hnd, k => by
    simp only [Dict.keys_cons, List.nodup_cons] at hnd
    have ih := get?_filterMap_itemResult hnd.2 k
    rw [List.filterMap_cons, Dict.get?_cons]
    cases hr : s.itemResult path (k', x') with
    | error es =>
      simp only [Except.toOption] at ih ⊢
      rw [ih]
      by_cases hk : k' = k
      · subst hk; simp [Dict.get?_eq_none_iff.2 hnd.1, hr, Except.toOption]
      · simp [hk]
    | ok kv' =>
      obtain ⟨k'', y⟩ := kv'
      obtain rfl : k'' = k' := itemResult_fst hr
      by_cases hk : k'' = k
      · subst hk; simp [Except.toOption, Dict.get?_cons, hr]
      · simpa [Except.toOption, Dict.get?_cons, hk] using ih

end Schema

/-! ### Where the errors of `validate_mapping` come from -/

namespace Schema

variable {s : Schema} {path : List String}

theorem errors_validateItem {st : MappingState} {kv : String × Value} {e : Invalid}
    (h : e ∈ (s.validateItem path st kv).errors) :
    e ∈ st.errors ∨
      (∃ m v, s.candidate kv.1 = some (m, v) ∧ e ∈ errorsOf (v (path ++ [kv.1]) kv.2)) ∨
      (s.extra = .preventExtra ∧ s.candidate kv.1 = none ∧
        e = ⟨"extra keys not allowed", path ++ [kv.1]⟩) := by
  unfold validateItem at h
  split at h
  · rename_i m v hc
    split at h
    · exact .inl h
    · rename_i es hes
      rcases List.mem_append.1 h with h | h
      · exact .inl h
      · exact .inr (.inl ⟨m, v, hc, by rw [hes]; exact h⟩)
  · rename_i hc
    split at h
    · exact .inl h
    · rcases List.mem_append.1 h with h | h
      · exact .inl h
      · exact .inr (.inr ⟨‹_›, hc, List.mem_singleton.1 h⟩)
    · exact .inl h

theorem found_validateItem (st : MappingState) (kv : String × Value) :
    (s.validateItem path st kv).found = (s.foundKey kv).toList ++ st.found := by
  obtain ⟨k, v⟩ := kv
  simp only [validateItem, foundKey]
  cases s.candidate k with
  | none => cases s.extra <;> rfl
  | some e => obtain ⟨m, validator⟩ := e; dsimp only; split <;> rfl

theorem errors_foldl_validateItem (l : List (String × Value)) (st : MappingState) {e : Invalid}
    (h : e ∈ (l.foldl (s.validateItem path) st).errors) :
    e ∈ st.errors ∨ ∃ kv ∈ l,
      (∃ m v, s.candidate kv.1 = some (m, v) ∧ e ∈ errorsOf (v (path ++ [kv.1]) kv.2)) ∨
      (s.extra = .preventExtra ∧ s.candidate kv.1 = none ∧
        e = ⟨"extra keys not allowed", path ++ [kv.1]⟩) := by
  induction l generalizing st with
  | nil => exact .inl h
  | cons kv l ih =>
    rcases ih _ h with h | ⟨kv', hkv', h⟩
    · exact (errors_validateItem h).imp_right fun h => ⟨kv, List.mem_cons_self _ _, h⟩
    · exact .inr ⟨kv', List.mem_cons_of_mem _ hkv', h⟩

theorem found_foldl_validateItem (l : List (String × Value)) (st : MappingState) :
    (l.foldl (s.validateItem path) st).found = (l.filterMap s.foundKey).reverse ++ st.found := by
  induction l generalizing st with
  | nil => rfl
  | cons kv l ih =>
    rw [List.foldl_cons, ih, found_validateItem]
    cases h : s.foundKey kv <;> simp [List.filterMap_cons, h]

/-- Every error of `validate_mapping` is an error of the validator of an item the schema names,
an extra key when extra keys are prevented, or a required key the data lacks. -/
theorem validateMapping_errors {data : List (String × Value)} {es : List Invalid}
    (h : s.validateMapping path data = .error es) {e : Invalid} (he : e ∈ es) :
    (∃ kv ∈ data,
      (∃ m v, s.candidate kv.1 = some (m, v) ∧ e ∈ errorsOf (v (path ++ [kv.1]) kv.2)) ∨
      (s.extra = .preventExtra ∧ s.candidate kv.1 = none ∧
        e = ⟨"extra keys not allowed", path ++ [kv.1]⟩)) ∨
    (∃ m ∈ s.entries, s.isRequired m.1 ∧ m.1.key ∉ Dict.keys data ∧
      e = ⟨"required key not provided", path ++ [m.1.key]⟩) := by
  simp only [validateMapping] at h
  split_ifs at h
  cases h
  rcases List.mem_append.1 he with he | he
  · rcases errors_foldl_validateItem _ _ he with he | ⟨kv, hkv, he⟩
    · cases he
    · refine .inl ⟨kv, ?_, he⟩
      simpa using Dict.mem_foldl_assign (l := data) (d := []) hkv
  · obtain ⟨m, hm, rfl⟩ := List.mem_map.1 he
    obtain ⟨hm, hreq⟩ := List.mem_filter.1 hm
    simp only [Bool.and_eq_true, Bool.not_eq_true'] at hreq
    refine .inr ⟨m, hm, hreq.1, fun hk => ?_, rfl⟩
    have hfound := hreq.2
    rw [found_foldl_validateItem] at hfound
    refine absurd ((mem_foundKeys hm).2 ?_) (by simpa using hfound)
    rw [Dict.update_eq_foldl, Dict.mem_keys_foldl_assign]
    exact .inr hk

/-! ### Accepted dicts -/

theorem errors_prefix_validateItem (st : MappingState) (kv : String × Value) :
    st.errors <+: (s.validateItem path st kv).errors := by
  unfold validateItem
  split
  · split
    · exact List.prefix_refl _
    · exact List.prefix_append _ _
  · cases s.extra
    · exact List.prefix_append _ _
    · exact List.prefix_refl _
    · exact List.prefix_refl _

theorem errors_prefix_foldl : ∀ (l : List (String × Value)) (st : MappingState),
    st.errors <+: (l.foldl (s.validateItem path) st).errors
  | [], _ => List.prefix_refl _
  | kv :: l, st => (errors_prefix_validateItem st kv).trans (errors_prefix_foldl l _)

theorem get?_validateItem_of_ne {st : MappingState} {kv : String × Value} {k : String} (h : kv.1 ≠ k) :
    Dict.get? (s.validateItem path st kv).out k = Dict.get? st.out k := by
  unfold validateItem
  split
  · split <;> simp [h]
  · cases s.extra <;> simp [h]

theorem get?_foldl_validateItem_of_not_mem {k : String} : ∀ (l : List (String × Value)) (st : MappingState),
    k ∉ Dict.keys l → Dict.get? (l.foldl (s.validateItem path) st).out k = Dict.get? st.out k
  | [], _, _ => rfl
  | kv :: l, st, hk => by
    simp only [Dict.keys, List.map_cons, List.mem_cons, not_or] at hk
    rw [List.foldl_cons, get?_foldl_validateItem_of_not_mem l _ hk.2, get?_validateItem_of_ne (Ne.symm hk.1)]

theorem foldl_validateItem_named (hp : ∀ e ∈ s.entries, e.2.Proper) :
    ∀ (l : List (String × Value)) (st : MappingState), (Dict.keys l).Nodup →
      (l.foldl (s.validateItem path) st).errors = [] →
      ∀ kv ∈ l, ∀ m v, s.candidate kv.1 = some (m, v) →
        ∃ y, v (path ++ [kv.1]) kv.2 = .ok y ∧ Dict.get? (l.foldl (s.validateItem path) st).out kv.1 = some y
  | [], _, _, _, _, h, _, _, _ => nomatch h
  | kv' :: l, st, hnd, herr, kv, hkv, m, v, hc => by
    simp only [Dict.keys, List.map_cons, List.nodup_cons] at hnd
    rw [List.foldl_cons] at herr ⊢
    rcases List.mem_cons.1 hkv with rfl | hkv
    · have hpre : (s.validateItem path st kv).errors = [] :=
        List.eq_nil_of_prefix_nil (herr ▸ errors_prefix_foldl l _)
      rw [get?_foldl_validateItem_of_not_mem l _ hnd.1]
      unfold validateItem at hpre ⊢
      rw [hc] at hpre ⊢
      dsimp only at hpre ⊢
      cases hv : v (path ++ [kv.1]) kv.2 with
      | ok y => exact ⟨y, rfl, by simp⟩
      | error es =>
        rw [hv] at hpre
        exact absurd (List.append_eq_nil.1 hpre).2
          (hp _ (List.mem_of_find?_eq_some hc) _ _ _ hv)
    · exact foldl_validateItem_named hp l _ hnd.2 herr kv hkv m v hc

theorem validateMapping_required (hp : ∀ e ∈ s.entries, e.2.Proper) {data : List (String × Value)}
    {r : Value} (h : s.validateMapping path data = .ok r) {e : Marker × Validator} (he : e ∈ s.entries)
    (hreq : s.isRequired e.1) :
    ∃ x m v y out, Dict.get? (Dict.update [] data) e.1.key = some x ∧ s.candidate e.1.key = some (m, v) ∧
      v (path ++ [e.1.key]) x = .ok y ∧ r = .dict out ∧ Dict.get? out e.1.key = some y := by
  simp only [validateMapping] at h
  split_ifs at h with hE
  cases h
  simp only [List.isEmpty_iff, List.append_eq_nil, List.map_eq_nil_iff, List.filter_eq_nil_iff] at hE
  have hfound := hE.2 e he
  simp only [hreq, Bool.true_and, Bool.not_eq_true', Bool.not_eq_false'] at hfound
  have hmem : e.1.key ∈ Dict.keys (Dict.update [] data) := by
    rw [found_foldl_validateItem] at hfound
    simpa [mem_foundKeys he] using hfound
  obtain ⟨x, hx⟩ := Option.ne_none_iff_exists'.1 (mt Dict.get?_eq_none_iff.1 (not_not.2 hmem))
  obtain ⟨⟨m, v⟩, hc⟩ := Option.isSome_iff_exists.1 (candidate_isSome he)
  have hnd : (Dict.keys (Dict.update [] data)).Nodup := by
    rw [Dict.update_eq_foldl]; exact Dict.nodup_keys_foldl_assign data List.nodup_nil
  obtain ⟨y, hy, hout⟩ :=
    foldl_validateItem_named hp _ _ hnd hE.1 (e.1.key, x) (Dict.mem_of_get? hx) m v hc
  exact ⟨x, m, v, y, _, hx, hc, hy, rfl, hout⟩

theorem foldl_validateItem_fixed : ∀ (l : List (String × Value)) (st : MappingState),
    (Dict.keys (st.out ++ l)).Nodup →
    (∀ kv ∈ l, ∃ m v, s.candidate kv.1 = some (m, v) ∧ v (path ++ [kv.1]) kv.2 = .ok kv.2) →
    l.foldl (s.validateItem path) st = ⟨st.out ++ l, st.errors, (Dict.keys l).reverse ++ st.found⟩
  | [], st, _, _ => by simp
  | (k, x) :: l, st, hnd, hl => by
    obtain ⟨m, v, hc, hv⟩ := hl (k, x) (List.mem_cons_self _ _)
    have hk : k ∉ Dict.keys st.out := fun h =>
      (List.nodup_middle.1 (by simpa using hnd) |> List.nodup_cons.1).1 (by simp [h])
    have hm : m.key = k := candidate_key hc
    have hstep : s.validateItem path st (k, x) = ⟨st.out ++ [(k, x)], st.errors, k :: st.found⟩ := by
      simp only [validateItem, hc, hv, hm, Dict.setItem_of_not_mem _ hk]
    rw [List.foldl_cons, hstep, foldl_validateItem_fixed l _ (by simpa using hnd)
      fun kv hkv => hl kv (List.mem_cons_of_mem _ hkv)]
    simp

theorem validateMapping_of_fixed {data : List (String × Value)} (hnd : (Dict.keys data).Nodup)
    (hnamed : ∀ kv ∈ data, ∃ m v, s.candidate kv.1 = some (m, v) ∧ v (path ++ [kv.1]) kv.2 = .ok kv.2)
    (hreq : ∀ e ∈ s.entries, s.isRequired e.1 → e.1.key ∈ Dict.keys data) :
    s.validateMapping path data = .ok (.dict data) := by
  have hfold : data.foldl (s.validateItem path) ⟨[], [], []⟩ = ⟨data, [], (Dict.keys data).reverse⟩ := by
    simpa using foldl_validateItem_fixed data ⟨[], [], []⟩ (by simpa using hnd) hnamed
  simp only [validateMapping, Dict.update_nil_of_nodup hnd, hfold]
  rw [if_pos]
  simp only [List.isEmpty_iff, List.nil_append, List.map_eq_nil_iff, List.filter_eq_nil_iff]
  intro e he
  simpa using hreq e he

end Schema

/-- `cv.string` of `helpers/config_validation.py`, the validator of the `name` slot: a string
passes unchanged, a number or a boolean is coerced with `str`, and `None`, a list or a dict is
rejected. -/
def cvString : Validator := fun path v =>
  match v with
  | .str s => .ok (.str s)
  | .int n => .ok (.str (toString n))
  | .bool b => .ok (.str (if b then "True" else "False"))
  | .none => .error [⟨"string value is None", path⟩]
  | .list _ | .dict _ => .error [⟨"value should be a string", path⟩]

theorem cvString_proper : cvString.Proper := by
  intro p z es h
  cases z <;> simp [cvString] at h <;> simp [← h]

theorem cvString_local : cvString.Local := by
  intro p z es h
  cases z <;> simp [cvString] at h <;> simp [← h]

end OpenPeerPower
