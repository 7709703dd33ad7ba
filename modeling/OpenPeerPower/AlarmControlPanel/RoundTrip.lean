import OpenPeerPower.AlarmControlPanel.DeviceTrigger

/-!
# What the device triggers of an alarm panel list and attach

`Listed` says which triggers an entry of the device offers, without the loop of the source: an
alarm panel with a state whose `supported_features` is an `int` offers each type of
`TRIGGER_TYPES` whose feature bit (`requiredFeature`) the mask has. `asyncGetTriggers_offers` says
that `async_get_triggers` lists exactly these, raises exactly when a state lacks such a mask, and
then raises the `KeyError` or `TypeError` (`FeaturesError`) of the first entry whose state lacks
one. The loop is a `foldlM`; `mem_foldlM`, `foldlM_isOk` and `foldlM_error` carry what one
iteration does over the whole loop.

The two functions fit together: every listed trigger passes `TRIGGER_SCHEMA` unchanged and
attaches a state trigger on its entity into the state its type names (`asyncGetTriggers_attach`),
and on any config `async_attach_trigger` raises only the schema's `MultipleInvalid`, and otherwise
watches the entity the config names for the change its type names: the `if`/`elif` chain, which
has no `else`, covers every type the schema admits (`asyncAttachTrigger_accepts`).
-/

namespace OpenPeerPower

namespace AlarmControlPanel

/-! ### Loops that may raise -/

section FoldM

variable {ε α β : Type} {step : List β → α → Except ε (List β)}

theorem mem_foldlM {P : α → β → Prop}
    (hstep : ∀ acc a r, step acc a = .ok r → ∀ x, x ∈ r ↔ x ∈ acc ∨ P a x) :
    ∀ (l : List α) (acc r : List β), l.foldlM step acc = .ok r →
      ∀ x, x ∈ r ↔ x ∈ acc ∨ ∃ a ∈ l, P a x
  | [], acc, r, h, x => by cases h; simp
  | a :: l, acc, r, h, x => by
    rw [List.foldlM_cons] at h
    cases ha : step acc a with
    | error e => rw [ha] at h; cases h
    | ok acc' =>
      rw [ha, ok_bind] at h
      rw [mem_foldlM hstep l acc' r h, hstep acc a acc' ha]
      simp only [List.mem_cons, exists_eq_or_imp, or_assoc]

theorem foldlM_isOk {Q : α → Prop} (hstep : ∀ acc a, (∃ r, step acc a = .ok r) ↔ Q a) :
    ∀ (l : List α) (acc : List β), (∃ r, l.foldlM step acc = .ok r) ↔ ∀ a ∈ l, Q a
  | [], acc => by simp; exact ⟨acc, rfl⟩
  | a :: l, acc => by
    rw [List.foldlM_cons]
    cases ha : step acc a with
    | error e =>
      have : ¬ Q a := fun hq => by obtain ⟨r, hr⟩ := (hstep acc a).2 hq; rw [ha] at hr; cases hr
      simp [this]
      rintro r ⟨⟩
    | ok acc' =>
      rw [ok_bind, foldlM_isOk hstep l acc']
      have : Q a := (hstep acc a).1 ⟨acc', ha⟩
      simp [this]

theorem foldlM_error {Q : α → Prop} {R : α → ε → Prop}
    (hok : ∀ acc a, (∃ r, step acc a = .ok r) ↔ Q a) (herr : ∀ acc a ex, step acc a = .error ex → R a ex) :
    ∀ (l : List α) (acc : List β) (ex : ε), l.foldlM step acc = .error ex →
      ∃ pre a post, l = pre ++ a :: post ∧ (∀ b ∈ pre, Q b) ∧ R a ex
  | [], acc, ex, h => nomatch h
  | a :: l, acc, ex, h => by
    rw [List.foldlM_cons] at h
    cases ha : step acc a with
    | error ex' =>
      rw [ha] at h
      cases h
      exact ⟨[], a, l, rfl, nofun, herr acc a _ ha⟩
    | ok acc' =>
      rw [ha, ok_bind] at h
      obtain ⟨pre, b, post, rfl, hpre, hb⟩ := foldlM_error hok herr l acc' ex h
      exact ⟨a :: pre, b, post, rfl, List.forall_mem_cons.2 ⟨(hok acc a).1 ⟨acc', ha⟩, hpre⟩, hb⟩

end FoldM

/-! ### What is listed -/

/-- The feature bit a trigger type needs, if any. -/
def requiredFeature : String → Option Int
  | "armed_home" => some SUPPORT_ALARM_ARM_HOME
  | "armed_away" => some SUPPORT_ALARM_ARM_AWAY
  | "armed_night" => some SUPPORT_ALARM_ARM_NIGHT
  | _ => none

/-- Whether the feature mask `n` has the bit the trigger type needs. -/
def supports (n : Int) (type : String) : Bool :=
  match requiredFeature type with
  | some f => Int.land n f != 0
  | none => true

/-- The value of an attribute as an `int`, when it is one (a `bool` is one). -/
def intOf : Value → Option Int
  | .int n => some n
  | .bool b => some (if b then 1 else 0)
  | _ => none

/-- The feature mask of a state, when its `supported_features` is an `int`. -/
def featureBits (st : State) : Option Int :=
  (Dict.get? st.attributes ATTR_SUPPORTED_FEATURES).bind intOf

/-- A trigger the registry entry `e` offers on the device: `e` is an alarm panel with a state whose
feature mask has the bit of the trigger's type. -/
def Listed (states : String → Option State) (deviceId : String) (e : RegistryEntry) (t : Value) :
    Prop :=
  e.domain = DOMAIN ∧ ∃ st n, states e.entityId = some st ∧ featureBits st = some n ∧
    ∃ type ∈ TRIGGER_TYPES, supports n type ∧ t = trigger deviceId e.entityId type

/-- What `async_get_triggers` raises on a state whose `supported_features` is not an `int`:
`KeyError` when the attribute is missing, the `TypeError` of `&` otherwise. -/
def FeaturesError (st : State) (ex : PyException) : Prop :=
  (Dict.get? st.attributes ATTR_SUPPORTED_FEATURES = none ∧ ex = .keyError ATTR_SUPPORTED_FEATURES) ∨
  ∃ v, Dict.get? st.attributes ATTR_SUPPORTED_FEATURES = some v ∧ intOf v = none ∧
    ex = .typeError "unsupported operand type(s) for &"

theorem bitAnd_of_intOf {v : Value} {n : Int} (h : intOf v = some n) (mask : Int) :
    bitAnd v mask = .ok (Int.land n mask) := by
  cases v <;> cases h <;> rfl

theorem bitAnd_of_intOf_none {v : Value} (h : intOf v = none) (mask : Int) :
    bitAnd v mask = .error (.typeError "unsupported operand type(s) for &") := by
  cases v <;> simp [intOf] at h <;> rfl

theorem appendIfSupported_of_intOf {v : Value} {n : Int} (h : intOf v = some n)
    (deviceId entityId : String) (f : Int) (type : String) (ts : List Value) :
    appendIfSupported deviceId entityId v f type ts =
      .ok (ts ++ if Int.land n f ≠ 0 then [trigger deviceId entityId type] else []) := by
  simp only [appendIfSupported, bitAnd_of_intOf h, ok_bind]
  split_ifs
  · rfl
  · rw [List.append_nil]; rfl

theorem mem_trigger_types {deviceId entityId : String} {n : Int} {t : Value} :
    (∃ type ∈ TRIGGER_TYPES, supports n type ∧ t = trigger deviceId entityId type) ↔
      t = trigger deviceId entityId "disarmed" ∨ t = trigger deviceId entityId "triggered" ∨
        (Int.land n SUPPORT_ALARM_ARM_HOME ≠ 0 ∧ t = trigger deviceId entityId "armed_home") ∨
        (Int.land n SUPPORT_ALARM_ARM_AWAY ≠ 0 ∧ t = trigger deviceId entityId "armed_away") ∨
        (Int.land n SUPPORT_ALARM_ARM_NIGHT ≠ 0 ∧ t = trigger deviceId entityId "armed_night") := by
  simp only [TRIGGER_TYPES, List.mem_cons, List.mem_singleton, List.not_mem_nil, or_false,
    exists_eq_or_imp, exists_eq_left]
  simp [supports, requiredFeature, or_left_comm]

theorem entryTriggers_of_featureBits {states : String → Option State} (deviceId : String)
    {e : RegistryEntry} {st : State} {n : Int} (hd : e.domain = DOMAIN)
    (hs : states e.entityId = some st) (hn : featureBits st = some n) (ts : List Value) :
    ∃ r, entryTriggers states deviceId ts e = .ok r ∧ ∀ t, t ∈ r ↔
      t ∈ ts ∨ ∃ type ∈ TRIGGER_TYPES, supports n type ∧ t = trigger deviceId e.entityId type := by
  obtain ⟨v, hv, hi⟩ := Option.bind_eq_some.1 hn
  have hg : getItem (.dict st.attributes) ATTR_SUPPORTED_FEATURES = .ok v := by simp [getItem, hv]
  let tr := trigger deviceId e.entityId
  refine ⟨ts ++ [tr "disarmed", tr "triggered"] ++
    (if Int.land n SUPPORT_ALARM_ARM_HOME ≠ 0 then [tr "armed_home"] else []) ++
    (if Int.land n SUPPORT_ALARM_ARM_AWAY ≠ 0 then [tr "armed_away"] else []) ++
    (if Int.land n SUPPORT_ALARM_ARM_NIGHT ≠ 0 then [tr "armed_night"] else []), ?_, fun t => ?_⟩
  · simp only [entryTriggers, hd, hs, ne_eq, not_true_eq_false, if_false, hg, ok_bind,
      appendIfSupported_of_intOf hi]
  · rw [mem_trigger_types]
    split_ifs <;> simp_all [tr]

theorem entryTriggers_of_featureBits_none {states : String → Option State} (deviceId : String)
    {e : RegistryEntry} {st : State} (hd : e.domain = DOMAIN)
    (hs : states e.entityId = some st) (hn : featureBits st = none) (ts : List Value) :
    ∃ ex, FeaturesError st ex ∧ entryTriggers states deviceId ts e = .error ex := by
  simp only [entryTriggers, hd, hs, ne_eq, not_true_eq_false, if_false]
  cases hv : Dict.get? st.attributes ATTR_SUPPORTED_FEATURES with
  | none => exact ⟨_, .inl ⟨hv, rfl⟩, by simp only [getItem, hv]; rfl⟩
  | some v =>
    have hi : intOf v = none := by simpa [featureBits, hv] using hn
    exact ⟨_, .inr ⟨v, hv, hi, rfl⟩, by
      simp only [getItem, hv, ok_bind, appendIfSupported, bitAnd_of_intOf_none hi]; rfl⟩

theorem entryTriggers_ok {states : String → Option State} {deviceId : String} {ts r : List Value}
    {e : RegistryEntry} (h : entryTriggers states deviceId ts e = .ok r) (t : Value) :
    t ∈ r ↔ t ∈ ts ∨ Listed states deviceId e t := by
  by_cases hd : e.domain = DOMAIN
  · cases hs : states e.entityId with
    | none =>
      simp only [entryTriggers, hd, hs, ne_eq, not_true_eq_false, if_false] at h
      cases h; simp [Listed, hs]
    | some st =>
      cases hn : featureBits st with
      | none =>
        obtain ⟨ex, -, hex⟩ := entryTriggers_of_featureBits_none deviceId hd hs hn ts
        rw [hex] at h; cases h
      | some n =>
        obtain ⟨r', hr', hm⟩ := entryTriggers_of_featureBits deviceId hd hs hn ts
        rw [hr'] at h; cases h
        rw [hm]; simp [Listed, hd, hs, hn]
  · simp only [entryTriggers, hd, ne_eq, not_false_eq_true, if_true] at h
    cases h; simp [Listed, hd]

theorem entryTriggers_isOk (states : String → Option State) (deviceId : String) (ts : List Value)
    (e : RegistryEntry) :
    (∃ r, entryTriggers states deviceId ts e = .ok r) ↔
      (e.domain = DOMAIN → ∀ st, states e.entityId = some st → (featureBits st).isSome) := by
  by_cases hd : e.domain = DOMAIN
  · cases hs : states e.entityId with
    | none => simp [entryTriggers, hd, hs]
    | some st =>
      cases hn : featureBits st with
      | none =>
        obtain ⟨ex, -, hex⟩ := entryTriggers_of_featureBits_none deviceId hd hs hn ts
        simp [hex, hd, hn]
      | some n =>
        obtain ⟨r', hr', -⟩ := entryTriggers_of_featureBits deviceId hd hs hn ts
        simp [hr', hn]
  · simp [entryTriggers, hd]

theorem entryTriggers_error {states : String → Option State} {deviceId : String} {ts : List Value}
    {e : RegistryEntry} {ex : PyException} (h : entryTriggers states deviceId ts e = .error ex) :
    e.domain = DOMAIN ∧ ∃ st, states e.entityId = some st ∧ FeaturesError st ex := by
  by_cases hd : e.domain = DOMAIN
  · cases hs : states e.entityId with
    | none => simp [entryTriggers, hd, hs] at h
    | some st =>
      cases hn : featureBits st with
      | none =>
        obtain ⟨ex', hf, hex⟩ := entryTriggers_of_featureBits_none deviceId hd hs hn ts
        cases hex.symm.trans h
        exact ⟨hd, st, rfl, hf⟩
      | some n =>
        obtain ⟨r, hr, -⟩ := entryTriggers_of_featureBits deviceId hd hs hn ts
        cases hr.symm.trans h
  · simp [entryTriggers, hd] at h

theorem mem_asyncGetTriggers {registry : List RegistryEntry} {states : String → Option State}
    {deviceId : String} {triggers : List Value}
    (h : asyncGetTriggers registry states deviceId = .ok triggers) (t : Value) :
    t ∈ triggers ↔ ∃ e ∈ registry, e.deviceId = some deviceId ∧ Listed states deviceId e t := by
  rw [asyncGetTriggers] at h
  rw [mem_foldlM (fun _ _ _ h => entryTriggers_ok h) _ [] triggers h t]
  simp [asyncEntriesForDevice, and_assoc]

theorem asyncGetTriggers_isOk (registry : List RegistryEntry) (states : String → Option State)
    (deviceId : String) :
    (∃ triggers, asyncGetTriggers registry states deviceId = .ok triggers) ↔
      ∀ e ∈ registry, e.deviceId = some deviceId → e.domain = DOMAIN →
        ∀ st, states e.entityId = some st → (featureBits st).isSome := by
  rw [asyncGetTriggers, foldlM_isOk (entryTriggers_isOk states deviceId)]
  simp [asyncEntriesForDevice]

/-- `async_get_triggers` lists, for each alarm panel of the device with a state, a trigger of
each type whose feature bit the state's `supported_features` has (`disarmed` and `triggered`
need none); it raises exactly when one of these states has no `supported_features` or one that is
not an `int`, and then raises the `KeyError` or `TypeError` of the first such entry of the
device. -/
theorem asyncGetTriggers_offers (registry : List RegistryEntry) (states : String → Option State)
    (deviceId : String) :
    (∀ triggers, asyncGetTriggers registry states deviceId = .ok triggers →
      ∀ t, t ∈ triggers ↔ ∃ e ∈ registry, e.deviceId = some deviceId ∧ Listed states deviceId e t) ∧
    ((∃ triggers, asyncGetTriggers registry states deviceId = .ok triggers) ↔
      ∀ e ∈ registry, e.deviceId = some deviceId → e.domain = DOMAIN →
        ∀ st, states e.entityId = some st → (featureBits st).isSome) ∧
    (∀ ex, asyncGetTriggers registry states deviceId = .error ex →
      ∃ pre e post, asyncEntriesForDevice registry deviceId = pre ++ e :: post ∧
        (∀ e' ∈ pre, e'.domain = DOMAIN → ∀ st, states e'.entityId = some st → (featureBits st).isSome) ∧
        e.domain = DOMAIN ∧ ∃ st, states e.entityId = some st ∧ FeaturesError st ex) :=
  ⟨fun _ h => mem_asyncGetTriggers h, asyncGetTriggers_isOk registry states deviceId,
    fun ex h => foldlM_error (entryTriggers_isOk states deviceId) (fun _ _ _ h => entryTriggers_error h)
      _ [] ex h⟩

/-! ### Attaching what is listed -/

section Attach

variable (validEntityId : String → Bool) (lower : String → String)

theorem TRIGGER_SCHEMA_entries : (TRIGGER_SCHEMA validEntityId lower).entries =
    [(.required CONF_PLATFORM, literal "device"), (.required CONF_DOMAIN, strType),
      (.required CONF_DEVICE_ID, strType),
      (.required CONF_ENTITY_ID, cvEntityId validEntityId lower),
      (.required CONF_TYPE, volIn TRIGGER_TYPES)] := rfl

theorem fromToState_of_mem {type : String} (h : type ∈ TRIGGER_TYPES) :
    fromToState (.str type) =
      some (if type = "disarmed" then STATE_ALARM_TRIGGERED else STATE_ALARM_PENDING, type) := by
  simp only [TRIGGER_TYPES, List.mem_cons, List.mem_singleton, List.not_mem_nil, or_false] at h
  rcases h with rfl | rfl | rfl | rfl | rfl <;> rfl

theorem asyncAttachTrigger_of_call {config : Value} {out : List (String × Value)} {type : String}
    {entityId : Value} (hc : (TRIGGER_SCHEMA validEntityId lower).call config = .ok (.dict out))
    (ht : Dict.get? out CONF_TYPE = some (.str type)) (hmem : type ∈ TRIGGER_TYPES)
    (he : Dict.get? out CONF_ENTITY_ID = some entityId) :
    asyncAttachTrigger validEntityId lower config =
      .ok [(CONF_PLATFORM, .str "state"), (CONF_ENTITY_ID, entityId),
        (CONF_FROM, .str (if type = "disarmed" then STATE_ALARM_TRIGGERED else STATE_ALARM_PENDING)),
        (CONF_TO, .str type)] := by
  simp only [asyncAttachTrigger, hc, Except.mapError, ok_bind, getItem, ht, he,
    fromToState_of_mem hmem]
  rfl

theorem call_trigger {deviceId entityId type : String} (hv : validEntityId entityId = true)
    (hl : lower entityId = entityId) (ht : type ∈ TRIGGER_TYPES) :
    (TRIGGER_SCHEMA validEntityId lower).call (trigger deviceId entityId type) =
      .ok (trigger deviceId entityId type) := by
  apply Schema.validateMapping_of_fixed
  · show [CONF_PLATFORM, CONF_DEVICE_ID, CONF_DOMAIN, CONF_ENTITY_ID, CONF_TYPE].Nodup
    decide
  · intro kv hkv
    simp only [List.mem_cons, List.mem_singleton, List.not_mem_nil, or_false] at hkv
    rcases hkv with rfl | rfl | rfl | rfl | rfl
    · exact ⟨_, _, rfl, rfl⟩
    · exact ⟨_, _, rfl, rfl⟩
    · exact ⟨_, _, rfl, rfl⟩
    · exact ⟨_, _, rfl, by simp [cvEntityId, cvString, hl, hv]⟩
    · exact ⟨_, _, rfl, by simp [volIn, ht]⟩
  · intro e he _
    rw [TRIGGER_SCHEMA_entries] at he
    simp only [List.mem_cons, List.mem_singleton, List.not_mem_nil, or_false] at he
    rcases he with rfl | rfl | rfl | rfl | rfl <;> simp [Dict.keys, Marker.key]

theorem literal_proper (expected : String) : (literal expected).Proper := by
  intro p z es h
  cases z <;> simp only [literal] at h <;> (try split_ifs at h) <;> cases h <;> simp

theorem strType_proper : strType.Proper := by
  intro p z es h
  cases z <;> simp only [strType] at h <;> cases h <;> simp

theorem volIn_proper (container : List String) : (volIn container).Proper := by
  intro p z es h
  cases z <;> simp only [volIn] at h <;> (try split_ifs at h) <;> cases h <;> simp

theorem cvEntityId_proper : (cvEntityId validEntityId lower).Proper := by
  intro p z es h
  simp only [cvEntityId] at h
  split at h
  · split_ifs at h; cases h; simp
  · next r _ => exact cvString_proper p z es h

theorem volIn_ok {container : List String} {path : List String} {v y : Value}
    (h : volIn container path v = .ok y) : ∃ s, v = .str s ∧ s ∈ container ∧ y = v := by
  cases v <;> simp only [volIn] at h <;> (try split_ifs at h with hs) <;> cases h
  exact ⟨_, rfl, hs, rfl⟩

theorem TRIGGER_SCHEMA_proper :
    ∀ e ∈ (TRIGGER_SCHEMA validEntityId lower).entries, e.2.Proper := by
  rw [TRIGGER_SCHEMA_entries]
  simp only [List.mem_cons, List.mem_singleton, List.not_mem_nil, or_false, forall_eq_or_imp,
    forall_eq]
  exact ⟨literal_proper _, strType_proper, strType_proper, cvEntityId_proper validEntityId lower,
    volIn_proper _⟩

/-- Every trigger `async_get_triggers` lists passes `TRIGGER_SCHEMA` unchanged, and attaching it
watches its entity for the change into the state its type names, from `pending` (from `triggered`
for `disarmed`), provided the registry's entity ids are valid and lower case. -/
theorem asyncGetTriggers_attach {registry : List RegistryEntry} {states : String → Option State}
    {deviceId : String} {triggers : List Value}
    (hreg : ∀ e ∈ registry, validEntityId e.entityId = true ∧ lower e.entityId = e.entityId)
    (h : asyncGetTriggers registry states deviceId = .ok triggers) :
    ∀ t ∈ triggers, (TRIGGER_SCHEMA validEntityId lower).call t = .ok t ∧
      ∃ entityId type, t = trigger deviceId entityId type ∧
        asyncAttachTrigger validEntityId lower t =
          .ok [(CONF_PLATFORM, .str "state"), (CONF_ENTITY_ID, .str entityId),
            (CONF_FROM, .str (if type = "disarmed" then STATE_ALARM_TRIGGERED else STATE_ALARM_PENDING)),
            (CONF_TO, .str type)] := by
  intro t ht
  obtain ⟨e, he, -, -, st, n, -, -, type, hty, -, rfl⟩ := (mem_asyncGetTriggers h t).1 ht
  have hc : (TRIGGER_SCHEMA validEntityId lower).call (trigger deviceId e.entityId type) =
      .ok (trigger deviceId e.entityId type) :=
    call_trigger validEntityId lower (hreg e he).1 (hreg e he).2 hty
  exact ⟨hc, e.entityId, type, rfl, asyncAttachTrigger_of_call validEntityId lower hc rfl hty rfl⟩

/-- A panel that can arm at home lists three triggers, and each attaches. -/
theorem asyncGetTriggers_attach_home :
    (∀ e ∈ [(⟨"alarm_control_panel.home", some "dev1"⟩ : RegistryEntry)],
      (fun _ => true : String → Bool) e.entityId = true ∧ id e.entityId = e.entityId) ∧
    asyncGetTriggers [⟨"alarm_control_panel.home", some "dev1"⟩]
        (fun _ => some ⟨"alarm_control_panel.home", "Home", [(ATTR_SUPPORTED_FEATURES, .int 1)]⟩)
        "dev1" =
      .ok [trigger "dev1" "alarm_control_panel.home" "disarmed",
        trigger "dev1" "alarm_control_panel.home" "triggered",
        trigger "dev1" "alarm_control_panel.home" "armed_home"] ∧
    ∀ t ∈ [trigger "dev1" "alarm_control_panel.home" "disarmed",
        trigger "dev1" "alarm_control_panel.home" "triggered",
        trigger "dev1" "alarm_control_panel.home" "armed_home"],
      (TRIGGER_SCHEMA (fun _ => true) id).call t = .ok t ∧
        ∃ entityId type, t = trigger "dev1" entityId type ∧
          asyncAttachTrigger (fun _ => true) id t =
            .ok [(CONF_PLATFORM, .str "state"), (CONF_ENTITY_ID, .str entityId),
              (CONF_FROM, .str (if type = "disarmed" then STATE_ALARM_TRIGGERED else STATE_ALARM_PENDING)),
              (CONF_TO, .str type)] := by
  refine ⟨?hreg, ?h, asyncGetTriggers_attach (fun _ => true) id ?hreg ?h⟩
  · simp
  · rfl

theorem cvEntityId_ok {path : List String} {x y : Value}
    (h : cvEntityId validEntityId lower path x = .ok y) : ∃ s, y = .str s := by
  cases x <;> simp only [cvEntityId, cvString] at h <;> (try split_ifs at h) <;> cases h <;>
    exact ⟨_, rfl⟩

/-- `async_attach_trigger` raises only the schema's `MultipleInvalid`: on every config the schema
accepts, the config's `type` is one of `TRIGGER_TYPES`, so a branch of the `if`/`elif` chain is
taken and `from_state` is bound, and the state trigger watches the entity id `cv.entity_id` made of
the config's `entity_id` for the change into the state the config's type names. -/
theorem asyncAttachTrigger_accepts (config : Value) :
    (∃ es, es ≠ [] ∧ (TRIGGER_SCHEMA validEntityId lower).call config = .error es ∧
      asyncAttachTrigger validEntityId lower config = .error (.invalid es)) ∨
    ∃ kvs x entityId type, config = .dict kvs ∧
      Dict.get? (Dict.update [] kvs) CONF_ENTITY_ID = some x ∧
      cvEntityId validEntityId lower [CONF_ENTITY_ID] x = .ok (.str entityId) ∧
      Dict.get? (Dict.update [] kvs) CONF_TYPE = some (.str type) ∧ type ∈ TRIGGER_TYPES ∧
      asyncAttachTrigger validEntityId lower config =
        .ok [(CONF_PLATFORM, .str "state"), (CONF_ENTITY_ID, .str entityId),
          (CONF_FROM, .str (if type = "disarmed" then STATE_ALARM_TRIGGERED else STATE_ALARM_PENDING)),
          (CONF_TO, .str type)] := by
  cases hc : (TRIGGER_SCHEMA validEntityId lower).call config with
  | error es =>
    exact .inl ⟨es, Schema.validate_ne_nil hc, rfl, by simp only [asyncAttachTrigger, hc]; rfl⟩
  | ok r =>
    cases config with
    | dict kvs =>
      have hp := TRIGGER_SCHEMA_proper validEntityId lower
      obtain ⟨x, m, v, y, out, hx, hcand, hv, rfl, hy⟩ := Schema.validateMapping_required hp hc
        (e := (.required CONF_TYPE, volIn TRIGGER_TYPES)) (by rw [TRIGGER_SCHEMA_entries]; simp) rfl
      obtain ⟨x', m', v', y', out', hx', hcand', hv', hout, hy'⟩ := Schema.validateMapping_required hp hc
        (e := (.required CONF_ENTITY_ID, cvEntityId validEntityId lower))
        (by rw [TRIGGER_SCHEMA_entries]; simp) rfl
      cases hout
      have htype : (TRIGGER_SCHEMA validEntityId lower).candidate CONF_TYPE =
          some (.required CONF_TYPE, volIn TRIGGER_TYPES) := rfl
      have hentity : (TRIGGER_SCHEMA validEntityId lower).candidate CONF_ENTITY_ID =
          some (.required CONF_ENTITY_ID, cvEntityId validEntityId lower) := rfl
      obtain rfl : v = volIn TRIGGER_TYPES :=
        (congrArg Prod.snd (Option.some.inj (htype.symm.trans hcand))).symm
      obtain rfl : v' = cvEntityId validEntityId lower :=
        (congrArg Prod.snd (Option.some.inj (hentity.symm.trans hcand'))).symm
      obtain ⟨type, rfl, hmem, rfl⟩ := volIn_ok hv
      obtain ⟨entityId, rfl⟩ := cvEntityId_ok validEntityId lower hv'
      exact .inr ⟨kvs, x', entityId, type, rfl, hx', hv', hx, hmem,
        asyncAttachTrigger_of_call validEntityId lower hc hy hmem hy'⟩
    | _ => cases hc

end Attach

end AlarmControlPanel

end OpenPeerPower
