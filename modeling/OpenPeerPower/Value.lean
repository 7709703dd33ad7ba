import Mathlib.Data.List.Nodup

/-!
# Python values and dictionaries

The intent and translation helpers pass JSON-like Python values around: the slots of an intent,
the translation trees loaded from `.translations/*.json`, and the caches built from them. A dict is
an association list in insertion order. `Dict.setItem` is `d[k] = v` (a key already present keeps
its place and takes the new value, a new key goes last) and `Dict.update` is `d.update(e)`, so the
order in which `recursive_flatten` and `build_resources` write keys is the order Python gives.

The one fact about dicts the translation proofs need is `Dict.update_foldl`: updating with a dict
built by a sequence of assignments is the same as making those assignments directly.
-/

namespace OpenPeerPower

/-- A Python value as the helpers see it: strings, integers, booleans, `None`, lists, and dicts
with string keys in insertion order. -/
inductive Value where
  | str (s : String)
  | int (n : Int)
  | bool (b : Bool)
  | none
  | list (vs : List Value)
  | dict (kvs : List (String × Value))
  deriving Repr, Inhabited

namespace Value

mutual
/-- Structural equality of values (`==` on the JSON data). -/
def beq : Value → Value → Bool
  | .str a, .str b => a == b
  | .int a, .int b => a == b
  | .bool a, .bool b => a == b
  | .none, .none => true
  | .list a, .list b => beqList a b
  | .dict a, .dict b => beqDict a b
  | _, _ => false
def beqList : List Value → List Value → Bool
  | [], [] => true
  | a :: as, b :: bs => beq a b && beqList as bs
  | _, _ => false
def beqDict : List (String × Value) → List (String × Value) → Bool
  | [], [] => true
  | (k, a) :: as, (l, b) :: bs => k == l && beq a b && beqDict as bs
  | _, _ => false
end

mutual
theorem beq_iff : (a b : Value) → beq a b = true ↔ a = b
  | .str _, .str _ => beq_iff_eq.trans ⟨congrArg _, Value.str.inj⟩
  | .int _, .int _ => beq_iff_eq.trans ⟨congrArg _, Value.int.inj⟩
  | .bool _, .bool _ => beq_iff_eq.trans ⟨congrArg _, Value.bool.inj⟩
  | .none, .none => iff_of_true rfl rfl
  | .list a, .list b => (beqList_iff a b).trans ⟨congrArg _, Value.list.inj⟩
  | .dict a, .dict b => (beqDict_iff a b).trans ⟨congrArg _, Value.dict.inj⟩
  | .str _, .int _ | .str _, .bool _ | .str _, .none | .str _, .list _ | .str _, .dict _
  | .int _, .str _ | .int _, .bool _ | .int _, .none | .int _, .list _ | .int _, .dict _
  | .bool _, .str _ | .bool _, .int _ | .bool _, .none | .bool _, .list _ | .bool _, .dict _
  | .none, .str _ | .none, .int _ | .none, .bool _ | .none, .list _ | .none, .dict _
  | .list _, .str _ | .list _, .int _ | .list _, .bool _ | .list _, .none | .list _, .dict _
  | .dict _, .str _ | .dict _, .int _ | .dict _, .bool _ | .dict _, .none | .dict _, .list _ =>
    ⟨nofun, nofun⟩
theorem beqList_iff : (a b : List Value) → beqList a b = true ↔ a = b
  | [], [] => iff_of_true rfl rfl
  | [], _ :: _ | _ :: _, [] => ⟨nofun, nofun⟩
  | a :: as, b :: bs => Bool.and_eq_true_iff.trans <|
      (and_congr (beq_iff a b) (beqList_iff as bs)).trans List.cons_eq_cons.symm
theorem beqDict_iff : (a b : List (String × Value)) → beqDict a b = true ↔ a = b
  | [], [] => iff_of_true rfl rfl
  | [], _ :: _ | _ :: _, [] => ⟨nofun, nofun⟩
  | (k, a) :: as, (l, b) :: bs => Bool.and_eq_true_iff.trans <|
      (and_congr (Bool.and_eq_true_iff.trans (and_congr beq_iff_eq (beq_iff a b)))
        (beqDict_iff as bs)).trans <|
      (and_congr_left' (Iff.of_eq (Prod.mk.injEq k a l b).symm)).trans List.cons_eq_cons.symm
end

instance : DecidableEq Value := fun a b => decidable_of_iff _ (beq_iff a b)

end Value

instance decEqExcept {ε α : Type} [DecidableEq ε] [DecidableEq α] : DecidableEq (Except ε α)
  | .ok x, .ok y => decidable_of_iff (x = y) (by simp)
  | .error x, .error y => decidable_of_iff (x = y) (by simp)
  | .ok _, .error _ | .error _, .ok _ => isFalse (by simp)

theorem findSome?_reverse_cons {α β : Type} (f : α → Option β) (x : α) (l : List α) :
    (x :: l).reverse.findSome? f = (l.reverse.findSome? f).or (f x) := by
  rw [List.reverse_cons, List.findSome?_append, List.findSome?_cons]
  cases f x <;> rfl

namespace Dict

variable {α : Type}

/-- The keys of a dict, in insertion order. -/
def keys (d : List (String × α)) : List String := d.map Prod.fst

/-- `d.get(k)`. -/
def get? : List (String × α) → String → Option α
  | [], _ => none
  | (k', v) :: rest, k => if k' = k then some v else get? rest k

/-- `d[k] = v`: an existing key keeps its position and takes the new value, a new key is
appended. -/
def setItem : List (String × α) → String → α → List (String × α)
  | [], k, v => [(k, v)]
  | (k', v') :: rest, k, v => if k' = k then (k, v) :: rest else (k', v') :: setItem rest k v

/-- `d.update(e)`: the items of `e` assigned one by one, in `e`'s order. -/
def update (d e : List (String × α)) : List (String × α) :=
  e.foldl (fun d kv => setItem d kv.1 kv.2) d

@[simp] theorem keys_nil : keys ([] : List (String × α)) = [] := rfl

@[simp] theorem keys_cons (k : String) (v : α) (d : List (String × α)) :
    keys ((k, v) :: d) = k :: keys d := rfl

@[simp] theorem keys_append (d e : List (String × α)) : keys (d ++ e) = keys d ++ keys e :=
  List.map_append _ _ _

@[simp] theorem get?_nil (k : String) : get? ([] : List (String × α)) k = none := rfl

theorem get?_cons (k' k : String) (v : α) (d : List (String × α)) :
    get? ((k', v) :: d) k = if k' = k then some v else get? d k := rfl

theorem get?_eq_none_iff {d : List (String × α)} {k : String} : get? d k = none ↔ k ∉ keys d := by
  induction d with
  | nil => simp
  | cons kv d ih => obtain ⟨k', v⟩ := kv; by_cases h : k' = k <;> simp [get?_cons, h, ih, Ne.symm]

theorem mem_keys_of_get? {d : List (String × α)} {k : String} {v : α} (h : get? d k = some v) :
    k ∈ keys d := by
  by_contra hk; rw [← get?_eq_none_iff] at hk; simp [hk] at h

theorem get?_eq_some_iff {d : List (String × α)} (hnd : (keys d).Nodup) {k : String} {v : α} :
    get? d k = some v ↔ (k, v) ∈ d := by
  induction d with
  | nil => simp
  | cons kv d ih =>
    obtain ⟨k', v'⟩ := kv
    simp only [keys_cons, List.nodup_cons] at hnd
    by_cases hk : k' = k
    · subst hk
      have : (k', v) ∉ d := fun h => hnd.1 (List.mem_map.2 ⟨_, h, rfl⟩)
      simp [get?_cons, this, eq_comm]
    · simp [get?_cons, hk, ih hnd.2, Ne.symm hk]

theorem get?_append (d e : List (String × α)) (k : String) :
    get? (d ++ e) k = (get? d k).or (get? e k) := by
  induction d with
  | nil => rfl
  | cons kv d ih => obtain ⟨k', v⟩ := kv; by_cases h : k' = k <;> simp [get?_cons, h, ih]

theorem mem_of_get? {d : List (String × α)} {k : String} {v : α} (h : get? d k = some v) :
    (k, v) ∈ d := by
  induction d with
  | nil => cases h
  | cons kv d ih =>
    obtain ⟨k', v'⟩ := kv
    rw [get?_cons] at h
    split_ifs at h with hk
    · cases h; subst hk; exact List.mem_cons_self _ _
    · exact List.mem_cons_of_mem _ (ih h)

theorem get?_flatMap {β : Type} (l : List β) (f : β → List (String × α)) (k : String) :
    get? (l.flatMap f) k = l.findSome? fun x => get? (f x) k := by
  induction l with
  | nil => rfl
  | cons x l ih =>
    rw [List.flatMap_cons, get?_append, ih, List.findSome?_cons]
    cases get? (f x) k <;> rfl

theorem keys_map {β : Type} (f : String × α → String × β) (hf : ∀ kv, (f kv).1 = kv.1)
    (d : List (String × α)) : keys (d.map f) = keys d := by
  simp [keys, Function.comp_def, hf]

theorem get?_map {β : Type} (f : String × α → String × β) (hf : ∀ kv, (f kv).1 = kv.1)
    (d : List (String × α)) (k : String) : get? (d.map f) k = (get? d k).map fun v => (f (k, v)).2 := by
  induction d with
  | nil => rfl
  | cons kv d ih =>
    obtain ⟨k', v⟩ := kv
    rw [List.map_cons, show f (k', v) = (k', (f (k', v)).2) from Prod.ext (hf _) rfl, get?_cons,
      get?_cons, ih]
    by_cases h : k' = k
    · subst h; simp
    · simp [h]

theorem get?_reverse_of_nodup {d : List (String × α)} (h : (keys d).Nodup) (k : String) :
    get? d.reverse k = get? d k := by
  have hr : (keys d.reverse).Nodup := by simpa [keys, List.map_reverse] using h
  cases hv : get? d k with
  | none => simpa [get?_eq_none_iff, keys, List.map_reverse] using hv
  | some v => exact (get?_eq_some_iff hr).2 (List.mem_reverse.2 ((get?_eq_some_iff h).1 hv))

@[simp] theorem get?_setItem (d : List (String × α)) (k k' : String) (v : α) :
    get? (setItem d k v) k' = if k = k' then some v else get? d k' := by
  induction d with
  | nil => simp [setItem, get?_cons]
  | cons kv d ih =>
    obtain ⟨a, x⟩ := kv
    by_cases ha : a = k
    · subst ha; by_cases h : a = k' <;> simp [setItem, get?_cons, h]
    · by_cases hk : k = k'
      · subst hk; simp [setItem, get?_cons, ha, ih]
      · simp [setItem, get?_cons, ha, ih, hk]

@[simp] theorem mem_keys_setItem {d : List (String × α)} {k k' : String} {v : α} :
    k' ∈ keys (setItem d k v) ↔ k' ∈ keys d ∨ k' = k := by
  induction d with
  | nil => simp [setItem]
  | cons kv d ih =>
    obtain ⟨a, x⟩ := kv
    by_cases ha : a = k
    · subst ha; simp [setItem, or_comm]
    · simp [setItem, ha, ih, or_assoc]

theorem setItem_of_not_mem {d : List (String × α)} {k : String} (v : α) (h : k ∉ keys d) :
    setItem d k v = d ++ [(k, v)] := by
  induction d with
  | nil => rfl
  | cons kv d ih =>
    obtain ⟨a, x⟩ := kv
    simp only [keys_cons, List.mem_cons, not_or] at h
    simp [setItem, Ne.symm h.1, ih h.2]

theorem setItem_append_cons {A B : List (String × α)} {k : String} (v₀ v : α) (h : k ∉ keys A) :
    setItem (A ++ (k, v₀) :: B) k v = A ++ (k, v) :: B := by
  induction A with
  | nil => simp [setItem]
  | cons kv A ih =>
    obtain ⟨a, x⟩ := kv
    simp only [keys_cons, List.mem_cons, not_or] at h
    simp [setItem, Ne.symm h.1, ih h.2]

@[simp] theorem setItem_setItem_self (d : List (String × α)) (k : String) (v w : α) :
    setItem (setItem d k v) k w = setItem d k w := by
  induction d with
  | nil => simp [setItem]
  | cons kv d ih =>
    obtain ⟨a, x⟩ := kv
    by_cases ha : a = k <;> simp [setItem, ha, ih]

theorem setItem_comm {d : List (String × α)} {k k' : String} (v w : α) (hk : k ∈ keys d)
    (hne : k ≠ k') : setItem (setItem d k v) k' w = setItem (setItem d k' w) k v := by
  induction d with
  | nil => simp at hk
  | cons kv d ih =>
    obtain ⟨a, x⟩ := kv
    by_cases ha : a = k
    · subst ha; simp [setItem, hne]
    · have hk' : k ∈ keys d := by simpa [Ne.symm ha] using hk
      by_cases ha' : a = k' <;> simp [setItem, ha, ha', ih hk', Ne.symm hne]

theorem nodup_keys_setItem {d : List (String × α)} (k : String) (v : α) (h : (keys d).Nodup) :
    (keys (setItem d k v)).Nodup := by
  by_cases hk : k ∈ keys d
  · induction d with
    | nil => simp at hk
    | cons kv d ih =>
      obtain ⟨a, x⟩ := kv
      simp only [keys_cons, List.nodup_cons] at h
      by_cases ha : a = k
      · subst ha; simpa [setItem] using h
      · have hk' : k ∈ keys d := by simpa [Ne.symm ha] using hk
        simp [setItem, ha, ih h.2 hk', h.1, hk', Ne.symm ha]
  · rw [setItem_of_not_mem v hk, keys_append]
    exact List.nodup_append.2 ⟨h, by simp, by simpa using hk⟩

/-- The assignment `d[k] = v` for a pair `(k, v)`; `update` folds it. -/
def assign (d : List (String × α)) (kv : String × α) : List (String × α) := setItem d kv.1 kv.2

theorem update_eq_foldl (d e : List (String × α)) : update d e = e.foldl assign d := rfl

theorem nodup_keys_foldl_assign (l : List (String × α)) {d : List (String × α)}
    (h : (keys d).Nodup) : (keys (l.foldl assign d)).Nodup := by
  induction l generalizing d with
  | nil => exact h
  | cons kv l ih => exact ih (nodup_keys_setItem _ _ h)

theorem mem_keys_foldl_assign {l d : List (String × α)} {k : String} :
    k ∈ keys (l.foldl assign d) ↔ k ∈ keys d ∨ k ∈ keys l := by
  induction l generalizing d with
  | nil => simp
  | cons kv l ih => obtain ⟨a, x⟩ := kv; simp [ih, assign, or_assoc, or_left_comm]

theorem foldl_assign_setItem {B d : List (String × α)} {k : String} (v : α) (hk : k ∈ keys d)
    (hB : k ∉ keys B) : B.foldl assign (setItem d k v) = setItem (B.foldl assign d) k v := by
  induction B generalizing d with
  | nil => rfl
  | cons kv B ih =>
    obtain ⟨a, x⟩ := kv
    simp only [keys_cons, List.mem_cons, not_or] at hB
    simp only [List.foldl_cons, assign]
    rw [setItem_comm v x hk hB.1]
    exact ih (mem_keys_setItem.2 (.inl hk)) hB.2

theorem foldl_assign_setItem_dict {D : List (String × α)} (out : List (String × α)) (k : String)
    (v : α) (hnd : (keys D).Nodup) :
    (setItem D k v).foldl assign out = setItem (D.foldl assign out) k v := by
  by_cases hk : k ∈ keys D
  · obtain ⟨⟨k₀, v₀⟩, hi, rfl⟩ := List.mem_map.1 hk
    obtain ⟨A, B, rfl⟩ := List.append_of_mem hi
    rw [keys_append, keys_cons, List.nodup_middle, List.nodup_cons, ← keys_append] at hnd
    have hA : k₀ ∉ keys A := fun h => hnd.1 (by simp [h])
    have hB : k₀ ∉ keys B := fun h => hnd.1 (by simp [h])
    simp only [setItem_append_cons v₀ v hA, List.foldl_append, List.foldl_cons, assign]
    rw [← setItem_setItem_self _ k₀ v₀ v]
    exact foldl_assign_setItem v (mem_keys_setItem.2 (.inr rfl)) hB
  · rw [setItem_of_not_mem v hk, List.foldl_append]; rfl

theorem mem_setItem {d : List (String × α)} {k : String} {v : α} {kv : String × α}
    (h : kv ∈ setItem d k v) : kv ∈ d ∨ kv = (k, v) := by
  induction d with
  | nil => exact .inr (List.mem_singleton.1 h)
  | cons kv' d ih =>
    obtain ⟨k', v'⟩ := kv'
    simp only [setItem] at h
    split_ifs at h
    · rcases List.mem_cons.1 h with h | h
      · exact .inr h
      · exact .inl (List.mem_cons_of_mem _ h)
    · rcases List.mem_cons.1 h with h | h
      · exact .inl (h ▸ List.mem_cons_self _ _)
      · exact (ih h).imp_left (List.mem_cons_of_mem _)

theorem mem_foldl_assign {l d : List (String × α)} {kv : String × α}
    (h : kv ∈ l.foldl assign d) : kv ∈ d ∨ kv ∈ l := by
  induction l generalizing d with
  | nil => exact .inl h
  | cons kv' l ih =>
    rcases ih h with h | h
    · rcases mem_setItem h with h | h
      · exact .inl h
      · exact .inr (h ▸ List.mem_cons_self _ _)
    · exact .inr (List.mem_cons_of_mem _ h)

theorem get?_foldl_assign (l acc : List (String × α)) (k : String) :
    get? (l.foldl assign acc) k = (get? l.reverse k).or (get? acc k) := by
  induction l generalizing acc with
  | nil => rfl
  | cons kv l ih =>
    obtain ⟨k', v⟩ := kv
    rw [List.foldl_cons, ih, List.reverse_cons, get?_append, Option.or_assoc, assign, get?_setItem]
    by_cases h : k' = k <;> simp [get?_cons, h]

theorem foldl_assign_of_nodup : ∀ (l acc : List (String × α)),
    (keys (acc ++ l)).Nodup → l.foldl assign acc = acc ++ l
  | [], acc, _ => by simp
  | (k, v) :: l, acc, h => by
    have hk : k ∉ keys acc := by
      simp only [keys_append, keys_cons] at h
      exact fun hk => (List.nodup_middle.1 h |> List.nodup_cons.1).1 (by simp [hk])
    rw [List.foldl_cons, assign, setItem_of_not_mem v hk,
      foldl_assign_of_nodup l _ (by simpa using h)]
    simp

theorem update_nil_of_nodup {d : List (String × α)} (h : (keys d).Nodup) : update [] d = d :=
  foldl_assign_of_nodup d [] (by simpa using h)

theorem update_foldl (l out : List (String × α)) :
    update out (l.foldl assign []) = l.foldl assign out := by
  rw [update_eq_foldl]
  induction l using List.reverseRecOn with
  | nil => rfl
  | append_singleton l kv ih =>
    simp only [List.foldl_append, List.foldl_cons, List.foldl_nil, assign, ← ih]
    exact foldl_assign_setItem_dict out kv.1 kv.2 (nodup_keys_foldl_assign l (by simp))

end Dict

end OpenPeerPower
