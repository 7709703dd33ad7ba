import OpenPeerPower.Translation

/-!
# `recursive_flatten` assigns the leaf paths in depth-first order

A translation tree is read as its leaf paths: the keys from the root to each value that is not a
dict, depth first in insertion order (`leafPaths`). `recursiveFlatten_eq_foldl` says that
`recursive_flatten(prefix, data)` is the dict obtained by assigning, path after path,
`prefix + ".".join(path)` to the leaf, a later path overwriting an earlier one with the same
joined key. The proof is one induction on the nesting with the output dict generalised; the only
fact about dicts it needs is that `output.update(d)`, for a `d` built by assignments, makes those
assignments on `output` (`Dict.update_foldl`).

When the keys on the leaf paths contain no `.`, joining is injective on them; when the leaf paths
are also distinct (every dict has distinct keys) nothing is overwritten, and the result is the
list of joined leaf paths itself.
-/

namespace OpenPeerPower

mutual
/-- The leaf paths of the value stored under `key`, each with its leaf. -/
def leafPathsValue (key : String) : Value → List (List String × Value)
  | .dict d => (leafPaths d).map fun pv => (key :: pv.1, pv.2)
  | v => [([key], v)]
/-- The leaf paths of a dict, depth first in insertion order, each with its leaf; an empty
sub-dict has none. -/
def leafPaths : List (String × Value) → List (List String × Value)
  | [] => []
  | (key, value) :: rest => leafPathsValue key value ++ leafPaths rest
end

/-- `".".join(path)`. -/
def joinPath : List String → String
  | [] => ""
  | [k] => k
  | k :: p => k ++ "." ++ joinPath p

/-- The assignments the flattening makes: each leaf path joined under the prefix, with its leaf. -/
def flatKeys (pre : String) (d : List (String × Value)) : List (String × Value) :=
  (leafPaths d).map fun pv => (pre ++ joinPath pv.1, pv.2)

/-- No key on a leaf path contains `.`. -/
def NoDotKeys (d : List (String × Value)) : Prop := ∀ pv ∈ leafPaths d, ∀ k ∈ pv.1, '.' ∉ k.data

instance (d : List (String × Value)) : Decidable (NoDotKeys d) :=
  inferInstanceAs (Decidable (∀ pv ∈ leafPaths d, ∀ k ∈ pv.1, '.' ∉ k.data))

@[simp] theorem leafPaths_nil : leafPaths [] = [] := by simp [leafPaths]

@[simp] theorem leafPaths_cons (key : String) (value : Value) (rest : List (String × Value)) :
    leafPaths ((key, value) :: rest) = leafPathsValue key value ++ leafPaths rest := by
  simp [leafPaths]

theorem leafPaths_append (d e : List (String × Value)) :
    leafPaths (d ++ e) = leafPaths d ++ leafPaths e := by
  induction d with
  | nil => simp
  | cons kv d ih => obtain ⟨k, v⟩ := kv; simp [ih]

theorem leafPaths_eq_flatMap (d : List (String × Value)) :
    leafPaths d = d.flatMap fun kv => leafPathsValue kv.1 kv.2 := by
  induction d with
  | nil => simp
  | cons kv d ih => obtain ⟨k, v⟩ := kv; simp [ih]

theorem joinPath_cons {k : String} {p : List String} (hp : p ≠ []) :
    joinPath (k :: p) = k ++ "." ++ joinPath p := by
  cases p with
  | nil => exact absurd rfl hp
  | cons _ _ => rfl

mutual
theorem ne_nil_of_mem_leafPathsValue : ∀ (key : String) (v : Value) {pv},
    pv ∈ leafPathsValue key v → pv.1 ≠ []
  | key, .dict d, pv, h => by
    simp only [leafPathsValue, List.mem_map] at h
    obtain ⟨_, -, rfl⟩ := h; simp
  | key, .str _, pv, h | key, .int _, pv, h | key, .bool _, pv, h | key, .none, pv, h
  | key, .list _, pv, h => by simp [leafPathsValue] at h; simp [h]
theorem ne_nil_of_mem_leafPaths : ∀ (d : List (String × Value)) {pv}, pv ∈ leafPaths d → pv.1 ≠ []
  | [], pv, h => by simp at h
  | (key, v) :: rest, pv, h => by
    rcases List.mem_append.1 (by simpa using h) with h | h
    · exact ne_nil_of_mem_leafPathsValue key v h
    · exact ne_nil_of_mem_leafPaths rest h
end

mutual
theorem flattenValue_eq : ∀ (pre key : String) (v : Value) (out : List (String × Value)),
    flattenValue pre key v out =
      ((leafPathsValue key v).map fun pv => (pre ++ joinPath pv.1, pv.2)).foldl Dict.assign out
  | pre, key, .dict d, out => by
    rw [flattenValue, flattenItems_eq, Dict.update_foldl, leafPathsValue, List.map_map]
    congr 1
    refine List.map_congr_left fun pv hpv => ?_
    simp [joinPath_cons (ne_nil_of_mem_leafPaths d hpv), String.append_assoc]
  | pre, key, .str _, out | pre, key, .int _, out | pre, key, .bool _, out
  | pre, key, .none, out | pre, key, .list _, out => by
    simp [flattenValue, leafPathsValue, joinPath, Dict.assign]
theorem flattenItems_eq : ∀ (pre : String) (d out : List (String × Value)),
    flattenItems pre d out = (flatKeys pre d).foldl Dict.assign out
  | pre, [], out => by simp [flattenItems, flatKeys]
  | pre, (key, v) :: rest, out => by
    rw [flattenItems, flattenItems_eq pre rest, flattenValue_eq]
    simp [flatKeys]
end

theorem append_dot_inj : ∀ {a a' b b' : List Char}, '.' ∉ a → '.' ∉ a' →
    a ++ '.' :: b = a' ++ '.' :: b' → a = a' ∧ b = b'
  | [], [], _, _, _, _, h => by simpa using h
  | [], c :: _, _, _, _, ha', h => by
    simp only [List.nil_append, List.cons_append, List.cons.injEq] at h
    exact absurd (h.1 ▸ List.mem_cons_self _ _) ha'
  | c :: _, [], _, _, ha, _, h => by
    simp only [List.nil_append, List.cons_append, List.cons.injEq] at h
    exact absurd (h.1 ▸ List.mem_cons_self _ _) ha
  | c :: a, c' :: a', _, _, ha, ha', h => by
    simp only [List.cons_append, List.cons.injEq] at h
    obtain ⟨rfl, h⟩ := h
    obtain ⟨rfl, rfl⟩ := append_dot_inj (fun h => ha (List.mem_cons_of_mem _ h))
      (fun h => ha' (List.mem_cons_of_mem _ h)) h
    exact ⟨rfl, rfl⟩

theorem joinPath_inj : ∀ {p q : List String}, p ≠ [] → q ≠ [] → (∀ k ∈ p, '.' ∉ k.data) →
    (∀ k ∈ q, '.' ∉ k.data) → joinPath p = joinPath q → p = q
  | [], _, hp, _, _, _, _ => absurd rfl hp
  | _, [], _, hq, _, _, _ => absurd rfl hq
  | [k], [k'], _, _, _, _, h => by simpa [joinPath] using h
  | [k], k' :: q' :: qs, _, _, hk, _, h => by
    have := congrArg (fun s => '.' ∈ s.data) h
    simp [joinPath] at this; exact absurd this (hk k (by simp))
  | k :: p' :: ps, [k'], _, _, _, hk', h => by
    have := congrArg (fun s => '.' ∈ s.data) h
    simp [joinPath] at this; exact absurd this (hk' k' (by simp))
  | k :: p' :: ps, k' :: q' :: qs, _, _, hp, hq, h => by
    rw [joinPath_cons (List.cons_ne_nil _ _), joinPath_cons (List.cons_ne_nil _ _),
      String.ext_iff] at h
    simp only [String.data_append, List.append_assoc, String.data] at h
    obtain ⟨hk, hrest⟩ := append_dot_inj (hp k (by simp)) (hq k' (by simp)) h
    rw [String.ext hk, joinPath_inj (List.cons_ne_nil _ _) (List.cons_ne_nil _ _)
      (fun k hk => hp k (List.mem_cons_of_mem _ hk)) (fun k hk => hq k (List.mem_cons_of_mem _ hk))
      (String.ext hrest)]

/-- `recursive_flatten(prefix, data)`: the leaf paths of `data` assigned in depth-first order; its
keys are exactly the joined leaf paths, an empty sub-dict contributes none, joining is injective
when no key on a leaf path has a `.`, and then, with distinct leaf paths, every leaf is kept. -/
theorem recursiveFlatten_eq_foldl (pre : String) (d : List (String × Value)) :
    recursiveFlatten pre d = (flatKeys pre d).foldl Dict.assign [] ∧
    (∀ k, k ∈ Dict.keys (recursiveFlatten pre d) ↔ ∃ pv ∈ leafPaths d, k = pre ++ joinPath pv.1) ∧
    (∀ d₁ d₂ key, d = d₁ ++ (key, .dict []) :: d₂ →
      recursiveFlatten pre d = recursiveFlatten pre (d₁ ++ d₂)) ∧
    (NoDotKeys d → ∀ pv ∈ leafPaths d, ∀ qv ∈ leafPaths d, pv.1 ≠ qv.1 →
      pre ++ joinPath pv.1 ≠ pre ++ joinPath qv.1) ∧
    (((leafPaths d).map Prod.fst).Nodup → NoDotKeys d → recursiveFlatten pre d = flatKeys pre d) := by
  have heq : ∀ d, recursiveFlatten pre d = (flatKeys pre d).foldl Dict.assign [] :=
    fun d => flattenItems_eq pre d []
  have hinj : NoDotKeys d → ∀ pv ∈ leafPaths d, ∀ qv ∈ leafPaths d,
      pre ++ joinPath pv.1 = pre ++ joinPath qv.1 → pv.1 = qv.1 := fun hd pv hp qv hq h =>
    joinPath_inj (ne_nil_of_mem_leafPaths d hp) (ne_nil_of_mem_leafPaths d hq) (hd pv hp)
      (hd qv hq) (by simpa [String.ext_iff] using h)
  refine ⟨heq d, fun k => ?_, fun d₁ d₂ key hd => ?_, fun hd pv hp qv hq hne h => hne (hinj hd pv hp qv hq h),
    fun hnd hd => ?_⟩
  · rw [heq, Dict.mem_keys_foldl_assign]
    simp [flatKeys, Dict.keys, eq_comm]
  · simp [heq, hd, flatKeys, leafPaths_append, leafPathsValue]
  · rw [heq, Dict.foldl_assign_of_nodup _ _ ?_, List.nil_append]
    have hkeys : Dict.keys (flatKeys pre d) =
        ((leafPaths d).map Prod.fst).map fun p => pre ++ joinPath p := by
      simp [Dict.keys, flatKeys]
    rw [List.nil_append, hkeys]
    refine List.Nodup.map_on (fun p hp q hq h => ?_) hnd
    obtain ⟨pv, hpv, rfl⟩ := List.mem_map.1 hp
    obtain ⟨qv, hqv, rfl⟩ := List.mem_map.1 hq
    exact hinj hd pv hpv qv hqv h

/-- A tree with a nested dict, an empty sub-dict and a top-level leaf flattens to its two joined
leaf paths. -/
theorem recursiveFlatten_nested_example :
    recursiveFlatten "" [("a", .dict [("b", .str "x"), ("c", .dict [])]), ("d", .int 1)] =
      [("a.b", .str "x"), ("d", .int 1)] :=
  (recursiveFlatten_eq_foldl "" _).2.2.2.2 (by decide) (by decide)

end OpenPeerPower
