import OpenPeerPower.Flatten

/-!
# Merging the translations of a domain

`build_resources` merges each component's tree into its domain's resources with a shallow
`dict.update`: when a domain and one of its platforms both have a subtree under the same top-level
key, the one merged last replaces the other, and which one that is depends on the iteration order
of the component set (`componentResources_depends_on_order`).

`buildResources_last_wins` says what it computes: a `KeyError` for the first component missing
from the cache, or else one dict per domain whose key `k` holds the value of the last component
of the domain whose tree has `k` (`domainEntry`). The proof is one run lemma per property over the
loop, from the equation of one iteration (`buildResources_cons`).

When the components of a domain have disjoint top-level keys, without `.`, at most one component
gives each key, and `componentResources_perm` shows that the flattened result, as a mapping, is
the same for every iteration order. `flatten` visits the result as one block of items per domain
and top-level key (`blocks`); a key of a block spells out its domain and top-level key
(`block_key_inj`), so a key is assigned in at most one block, and resources with the same entries
have the same blocks (`get?_flatten_congr`).
-/

namespace OpenPeerPower

/-- `sensor` and `sensor.moon` both translate `state`, with different leaves: each order of the
component set keeps only the leaf of the component merged last. -/
theorem componentResources_depends_on_order :
    componentResources [("sensor", [("state", .dict [("a", .str "1")])]),
        ("sensor.moon", [("state", .dict [("b", .str "2")])])] ["sensor", "sensor.moon"] =
      .ok [("component.sensor.state.b", .str "2")] ∧
    componentResources [("sensor", [("state", .dict [("a", .str "1")])]),
        ("sensor.moon", [("state", .dict [("b", .str "2")])])] ["sensor.moon", "sensor"] =
      .ok [("component.sensor.state.a", .str "1")] := by
  decide

/-! ### What `build_resources` computes -/

/-- A cache whose dicts are dicts: one entry per component, and distinct keys in each tree. -/
structure Cache.Distinct (cache : Cache) : Prop where
  keys_nodup : (Dict.keys cache).Nodup
  tree_nodup : ∀ ct ∈ cache, (Dict.keys ct.2).Nodup

instance (cache : Cache) : Decidable (Cache.Distinct cache) :=
  decidable_of_iff ((Dict.keys cache).Nodup ∧ ∀ ct ∈ cache, (Dict.keys ct.2).Nodup)
    ⟨fun h => ⟨h.1, h.2⟩, fun h => ⟨h.1, h.2⟩⟩

theorem Cache.Distinct.nodup_of_get? {cache : Cache} (h : Cache.Distinct cache) {c : String}
    {tree : List (String × Value)} (ht : Dict.get? cache c = some tree) : (Dict.keys tree).Nodup :=
  h.tree_nodup (c, tree) (Dict.mem_of_get? ht)

/-- The value component `c` gives to the top-level key `k` of domain `d`. -/
def entryOf (cache : Cache) (d k c : String) : Option Value :=
  if componentDomain c = d then (Dict.get? cache c).bind (Dict.get? · k) else none

/-- The value the components give to the top-level key `k` of domain `d`: that of the last
component of domain `d`, in iteration order, whose tree has `k`. -/
def domainEntry (cache : Cache) (components : List String) (d k : String) : Option Value :=
  components.reverse.findSome? (entryOf cache d k)

theorem domainEntry_cons (cache : Cache) (c : String) (rest : List String) (d k : String) :
    domainEntry cache (c :: rest) d k = (domainEntry cache rest d k).or (entryOf cache d k c) := by
  simp only [domainEntry, List.reverse_cons, List.findSome?_append]
  cases h : entryOf cache d k c <;> simp [List.findSome?_cons, h]

section BuildResources

variable {cache : Cache}

theorem buildResources_cons {c : String} {tree : List (String × Value)}
    (h : Dict.get? cache c = some tree) (rest : List String) (acc : Cache) :
    buildResources cache (c :: rest) acc =
      buildResources cache rest (Dict.setItem acc (componentDomain c)
        (Dict.update ((Dict.get? acc (componentDomain c)).getD []) tree)) := by
  rw [buildResources]
  simp only [h]
  split_ifs with hd
  · rfl
  · rw [Dict.setItem_setItem_self, Dict.get?_setItem, if_pos rfl, Dict.get?_eq_none_iff.2 hd]
    rfl

theorem buildResources_ok :
    ∀ {components : List String} (resources : Cache), (∀ x ∈ components, x ∈ Dict.keys cache) →
      ∃ r, buildResources cache components resources = .ok r
  | [], resources, _ => ⟨resources, rfl⟩
  | c :: rest, resources, h => by
    obtain ⟨tree, htree⟩ : ∃ tree, Dict.get? cache c = some tree :=
      Option.ne_none_iff_exists'.1 fun hn => Dict.get?_eq_none_iff.1 hn (h c (by simp))
    rw [buildResources_cons htree]
    exact buildResources_ok _ fun x hx => h x (List.mem_cons_of_mem _ hx)

theorem componentResources_ok {components : List String}
    (h : ∀ x ∈ components, x ∈ Dict.keys cache) :
    ∃ r, componentResources cache components = .ok r := by
  obtain ⟨r, hr⟩ := buildResources_ok [] h
  exact ⟨_, by rw [componentResources, hr]; rfl⟩

theorem buildResources_eq_error {c : String} (hc : c ∉ Dict.keys cache) (rest : List String)
    (acc : Cache) : buildResources cache (c :: rest) acc = .error (.keyError c) := by
  rw [buildResources]
  simp only [Dict.get?_eq_none_iff.2 hc]

theorem get?_buildResources (hcache : Cache.Distinct cache) :
    ∀ {components : List String} {acc res : Cache}, buildResources cache components acc = .ok res →
      ∀ d k, Dict.get? ((Dict.get? res d).getD []) k =
        (domainEntry cache components d k).or (Dict.get? ((Dict.get? acc d).getD []) k)
  | [], acc, res, h, d, k => by cases h; rfl
  | c :: rest, acc, res, h, d, k => by
    cases ht : Dict.get? cache c with
    | none => rw [buildResources_eq_error (Dict.get?_eq_none_iff.1 ht)] at h; cases h
    | some tree =>
      rw [buildResources_cons ht] at h
      rw [get?_buildResources hcache h, domainEntry_cons, Option.or_assoc, Dict.get?_setItem]
      congr 1
      simp only [entryOf, ht, Option.some_bind]
      split_ifs with hd
      · subst hd
        rw [Option.getD_some, Dict.update_eq_foldl, Dict.get?_foldl_assign,
          Dict.get?_reverse_of_nodup (hcache.nodup_of_get? ht)]
      · rfl

theorem buildResources_first_missing {c : String} (hc : c ∉ Dict.keys cache) (l₂ : List String) :
    ∀ {l₁ : List String} (acc : Cache), (∀ x ∈ l₁, x ∈ Dict.keys cache) →
      buildResources cache (l₁ ++ c :: l₂) acc = .error (.keyError c)
  | [], acc, _ => buildResources_eq_error hc l₂ acc
  | x :: l₁, acc, h => by
    obtain ⟨tree, htree⟩ : ∃ tree, Dict.get? cache x = some tree :=
      Option.ne_none_iff_exists'.1 fun hn => Dict.get?_eq_none_iff.1 hn (h x (by simp))
    rw [List.cons_append, buildResources_cons htree]
    exact buildResources_first_missing hc l₂ _ fun y hy => h y (List.mem_cons_of_mem _ hy)

theorem mem_keys_buildResources :
    ∀ {components : List String} {acc res : Cache}, buildResources cache components acc = .ok res →
      ∀ d, d ∈ Dict.keys res ↔ d ∈ Dict.keys acc ∨ ∃ c ∈ components, componentDomain c = d
  | [], acc, res, h, d => by cases h; simp
  | c :: rest, acc, res, h, d => by
    cases ht : Dict.get? cache c with
    | none => rw [buildResources_eq_error (Dict.get?_eq_none_iff.1 ht)] at h; cases h
    | some tree =>
      rw [buildResources_cons ht] at h
      rw [mem_keys_buildResources h, Dict.mem_keys_setItem]
      simp only [List.mem_cons, exists_eq_or_imp]
      tauto

theorem distinct_buildResources (hcache : Cache.Distinct cache) :
    ∀ {components : List String} {acc res : Cache}, buildResources cache components acc = .ok res →
      Cache.Distinct acc → Cache.Distinct res
  | [], acc, res, h, hacc => by cases h; exact hacc
  | c :: rest, acc, res, h, hacc => by
    cases ht : Dict.get? cache c with
    | none => rw [buildResources_eq_error (Dict.get?_eq_none_iff.1 ht)] at h; cases h
    | some tree =>
      rw [buildResources_cons ht] at h
      refine distinct_buildResources hcache h ⟨Dict.nodup_keys_setItem _ _ hacc.keys_nodup, ?_⟩
      rintro ⟨d, t⟩ hdt
      have hd := (Dict.get?_eq_some_iff (Dict.nodup_keys_setItem _ _ hacc.keys_nodup)).2 hdt
      rw [Dict.get?_setItem] at hd
      split_ifs at hd with hdom
      · cases hd
        rw [Dict.update_eq_foldl]
        refine Dict.nodup_keys_foldl_assign _ ?_
        cases hg : Dict.get? acc (componentDomain c) with
        | none => exact List.nodup_nil
        | some t => exact hacc.nodup_of_get? hg
      · exact hacc.nodup_of_get? hd

/-- `build_resources` on a cache whose dicts are dicts: it raises `KeyError` for the first
component missing from the cache; otherwise it returns one dict per domain of the components,
each with distinct keys, whose top-level key `k` in domain `d` holds the value of the last
component of domain `d` whose tree has `k`. -/
theorem buildResources_last_wins (cache : Cache) (hcache : Cache.Distinct cache)
    (components : List String) :
    (∀ l₁ c l₂, components = l₁ ++ c :: l₂ → (∀ x ∈ l₁, x ∈ Dict.keys cache) →
      c ∉ Dict.keys cache → buildResources cache components [] = .error (.keyError c)) ∧
    ((∀ c ∈ components, c ∈ Dict.keys cache) → ∃ res, buildResources cache components [] = .ok res ∧
      Cache.Distinct res ∧ (∀ d, d ∈ Dict.keys res ↔ ∃ c ∈ components, componentDomain c = d) ∧
      ∀ d k, Dict.get? ((Dict.get? res d).getD []) k = domainEntry cache components d k) := by
  refine ⟨fun l₁ c l₂ hc h₁ hm => hc ▸ buildResources_first_missing hm l₂ [] h₁, fun h => ?_⟩
  obtain ⟨res, hres⟩ := buildResources_ok [] h
  exact ⟨res, hres, distinct_buildResources hcache hres ⟨List.nodup_nil, by simp⟩,
    fun d => by simpa using mem_keys_buildResources hres d,
    fun d k => by simpa using get?_buildResources hcache hres d k⟩

end BuildResources


/-- `sensor` and `sensor.moon` give the domain `sensor` the keys `state` and `title`. -/
theorem buildResources_last_wins_sensor :
    let cache : Cache := [("sensor", [("state", .dict [("a", .str "1")])]),
      ("sensor.moon", [("title", .str "Moon")])]
    let components := ["sensor", "sensor.moon"]
    Cache.Distinct cache ∧
    (∀ l₁ c l₂, components = l₁ ++ c :: l₂ → (∀ x ∈ l₁, x ∈ Dict.keys cache) →
      c ∉ Dict.keys cache → buildResources cache components [] = .error (.keyError c)) ∧
    ((∀ c ∈ components, c ∈ Dict.keys cache) → ∃ res, buildResources cache components [] = .ok res ∧
      Cache.Distinct res ∧ (∀ d, d ∈ Dict.keys res ↔ ∃ c ∈ components, componentDomain c = d) ∧
      ∀ d k, Dict.get? ((Dict.get? res d).getD []) k = domainEntry cache components d k) := by
  intro cache components
  exact ⟨by decide, buildResources_last_wins cache (by decide) components⟩

/-! ### When the flattened resources do not depend on the iteration order -/

theorem findSome?_eq_of_mem_iff {α β : Type} {f : α → Option β} {l l' : List α}
    (hmem : ∀ x, x ∈ l ↔ x ∈ l')
    (huniq : ∀ x ∈ l, ∀ y ∈ l, ∀ a b, f x = some a → f y = some b → a = b) :
    l.findSome? f = l'.findSome? f := by
  cases h : l.findSome? f with
  | none =>
    exact (List.findSome?_eq_none_iff.2 fun x hx =>
      List.findSome?_eq_none_iff.1 h x ((hmem x).2 hx)).symm
  | some a =>
    obtain ⟨x, hx, hfx⟩ := List.exists_of_findSome?_eq_some h
    cases h' : l'.findSome? f with
    | none => rw [List.findSome?_eq_none_iff.1 h' x ((hmem x).1 hx)] at hfx; cases hfx
    | some b =>
      obtain ⟨y, hy, hfy⟩ := List.exists_of_findSome?_eq_some h'
      exact congrArg some (huniq x hx y ((hmem y).2 hy) a b hfx hfy)

theorem domainEntry_perm {cache : Cache} {components components' : List String}
    (hperm : components.Perm components')
    (hdisj : ∀ c ∈ components, ∀ c' ∈ components, c ≠ c' → componentDomain c = componentDomain c' →
      ∀ k ∈ Dict.keys ((Dict.get? cache c).getD []), k ∉ Dict.keys ((Dict.get? cache c').getD []))
    (d k : String) :
    domainEntry cache components d k = domainEntry cache components' d k := by
  refine findSome?_eq_of_mem_iff (fun x => by simp [hperm.mem_iff]) fun c hc c' hc' a b ha hb => ?_
  rw [List.mem_reverse] at hc hc'
  by_cases hcc : c = c'
  · subst hcc; exact Option.some.inj (ha.symm.trans hb)
  simp only [entryOf] at ha hb
  split_ifs at ha hb with hd hd'
  obtain ⟨t, ht, hta⟩ := Option.bind_eq_some.1 ha
  obtain ⟨t', ht', htb⟩ := Option.bind_eq_some.1 hb
  exact absurd (by simpa [ht'] using Dict.mem_keys_of_get? htb)
    (hdisj c hc c' hc' hcc (hd.trans hd'.symm) k (by simpa [ht] using Dict.mem_keys_of_get? hta))

theorem not_dot_componentDomain (c : String) : '.' ∉ (componentDomain c).data := by
  unfold componentDomain beforeDot
  split_ifs with h
  · exact fun hm => by simpa using List.mem_takeWhile_imp hm
  · exact h

/-- The items `flatten` assigns for the value `v` of the top-level key `k` of domain `d`. -/
def itemBlock (d k : String) (v : Value) : List (String × Value) :=
  (leafPathsValue k v).map fun pv => (joinPath ("component" :: d :: pv.1), pv.2)

/-- The items `flatten` assigns for the resources, as one block per domain and top-level key, in
the order it visits them. -/
def blocks (res : Cache) : List ((String × String) × List (String × Value)) :=
  res.flatMap fun dt => dt.2.map fun kv => ((dt.1, kv.1), itemBlock dt.1 kv.1 kv.2)

theorem get?_flatten_resources (res : Cache) (key : String) :
    Dict.get? (flatten [("component", .dict (res.map fun (d, tree) => (d, .dict tree)))]) key =
      (blocks res).reverse.findSome? fun b => Dict.get? b.2.reverse key := by
  have hflat : flatten [("component", .dict (res.map fun (d, tree) => (d, .dict tree)))] =
      ((blocks res).flatMap Prod.snd).foldl Dict.assign [] := by
    rw [flatten, recursiveFlatten, flattenItems_eq]
    simp [flatKeys, leafPaths_eq_flatMap, leafPathsValue, blocks, itemBlock, List.map_flatMap,
      List.flatMap_map, List.flatMap_assoc, Function.comp_def]
  rw [hflat, Dict.get?_foldl_assign, Dict.get?_nil, Option.or_none, List.reverse_flatMap,
    Dict.get?_flatMap]
  rfl


theorem append_sep_inj : ∀ {a a' s s' : List Char}, '.' ∉ a → '.' ∉ a' →
    (s = [] ∨ ∃ t, s = '.' :: t) → (s' = [] ∨ ∃ t, s' = '.' :: t) → a ++ s = a' ++ s' → a = a'
  | [], [], _, _, _, _, _, _, _ => rfl
  | [], c :: _, s, _, _, ha', hs, _, h => by
    rcases hs with rfl | ⟨t, rfl⟩
    · simp at h
    · simp only [List.nil_append, List.cons_append, List.cons.injEq] at h
      exact absurd (h.1 ▸ List.mem_cons_self _ _) ha'
  | c :: _, [], _, s', ha, _, _, hs', h => by
    rcases hs' with rfl | ⟨t, rfl⟩
    · simp at h
    · simp only [List.nil_append, List.cons_append, List.cons.injEq] at h
      exact absurd (h.1 ▸ List.mem_cons_self _ _) ha
  | c :: a, c' :: a', _, _, ha, ha', hs, hs', h => by
    simp only [List.cons_append, List.cons.injEq] at h
    obtain ⟨rfl, h⟩ := h
    rw [append_sep_inj (fun h => ha (List.mem_cons_of_mem _ h))
      (fun h => ha' (List.mem_cons_of_mem _ h)) hs hs' h]

theorem fst_of_mem_leafPathsValue {k : String} {v : Value} {pv : List String × Value}
    (h : pv ∈ leafPathsValue k v) : ∃ q, pv.1 = k :: q := by
  cases v with
  | dict d =>
    simp only [leafPathsValue, List.mem_map] at h
    obtain ⟨_, -, rfl⟩ := h
    exact ⟨_, rfl⟩
  | _ => exact ⟨[], by simp [leafPathsValue] at h; simp [h]⟩

theorem key_data_of_mem_itemBlock {d k key : String} {v : Value}
    (h : key ∈ Dict.keys (itemBlock d k v)) :
    ∃ s, (s = [] ∨ ∃ t, s = '.' :: t) ∧
      key.data = "component".data ++ '.' :: (d.data ++ '.' :: (k.data ++ s)) := by
  simp only [Dict.keys, itemBlock, List.map_map, List.mem_map, Function.comp_def] at h
  obtain ⟨pv, hpv, rfl⟩ := h
  obtain ⟨q, hq⟩ := fst_of_mem_leafPathsValue hpv
  rw [hq, joinPath_cons (List.cons_ne_nil _ _), joinPath_cons (List.cons_ne_nil _ _)]
  cases q with
  | nil => exact ⟨[], .inl rfl, by simp [joinPath]⟩
  | cons x q =>
    rw [joinPath_cons (List.cons_ne_nil _ _)]
    exact ⟨'.' :: (joinPath (x :: q)).data, .inr ⟨_, rfl⟩, by simp⟩

theorem block_key_inj {d k d' k' key : String} {v v' : Value} (hd : '.' ∉ d.data)
    (hk : '.' ∉ k.data) (hd' : '.' ∉ d'.data) (hk' : '.' ∉ k'.data)
    (h : key ∈ Dict.keys (itemBlock d k v)) (h' : key ∈ Dict.keys (itemBlock d' k' v')) :
    d = d' ∧ k = k' := by
  obtain ⟨s, hs, hkey⟩ := key_data_of_mem_itemBlock h
  obtain ⟨s', hs', hkey'⟩ := key_data_of_mem_itemBlock h'
  have h₁ := (append_dot_inj (by decide) (by decide) (hkey.symm.trans hkey')).2
  obtain ⟨hdd, h₂⟩ := append_dot_inj hd hd' h₁
  exact ⟨String.ext hdd, String.ext (append_sep_inj hk hk' hs hs' h₂)⟩

theorem get?_getD_eq_some_iff {res : Cache} (hres : Cache.Distinct res) {d k : String}
    {v : Value} : Dict.get? ((Dict.get? res d).getD []) k = some v ↔ ∃ t, (d, t) ∈ res ∧ (k, v) ∈ t := by
  have hmem : ∀ {t}, (d, t) ∈ res ↔ Dict.get? res d = some t :=
    (Dict.get?_eq_some_iff hres.keys_nodup).symm
  cases hd : Dict.get? res d with
  | none => simp [hmem, hd]
  | some t =>
    rw [Option.getD_some, Dict.get?_eq_some_iff (hres.nodup_of_get? hd)]
    simp [hmem, hd]

theorem mem_blocks {res : Cache} (hres : Cache.Distinct res) {b} :
    b ∈ blocks res ↔ ∃ d k v, Dict.get? ((Dict.get? res d).getD []) k = some v ∧
      b = ((d, k), itemBlock d k v) := by
  simp only [blocks, List.mem_flatMap, List.mem_map, get?_getD_eq_some_iff hres]
  constructor
  · rintro ⟨⟨d, t⟩, hdt, ⟨k, v⟩, hkv, rfl⟩
    exact ⟨d, k, v, ⟨t, hdt, hkv⟩, rfl⟩
  · rintro ⟨d, k, v, ⟨t, hdt, hkv⟩, rfl⟩
    exact ⟨(d, t), hdt, (k, v), hkv, rfl⟩

theorem get?_flatten_congr {res res' : Cache} (hdist : Cache.Distinct res)
    (hdist' : Cache.Distinct res')
    (hmap : ∀ d k, Dict.get? ((Dict.get? res d).getD []) k = Dict.get? ((Dict.get? res' d).getD []) k)
    (hdots : ∀ d k v, Dict.get? ((Dict.get? res d).getD []) k = some v → '.' ∉ d.data ∧ '.' ∉ k.data)
    (key : String) :
    Dict.get? (flatten [("component", .dict (res.map fun (d, tree) => (d, .dict tree)))]) key =
      Dict.get? (flatten [("component", .dict (res'.map fun (d, tree) => (d, .dict tree)))]) key := by
  rw [get?_flatten_resources, get?_flatten_resources]
  refine findSome?_eq_of_mem_iff
    (fun b => by simp only [List.mem_reverse, mem_blocks hdist, mem_blocks hdist', hmap]) ?_
  intro x hx y hy a b ha hb
  rw [List.mem_reverse, mem_blocks hdist] at hx hy
  obtain ⟨d, k, v, hv, rfl⟩ := hx
  obtain ⟨d', k', v', hv', rfl⟩ := hy
  have hka : key ∈ Dict.keys (itemBlock d k v) := by
    simpa [Dict.keys] using Dict.mem_keys_of_get? ha
  have hkb : key ∈ Dict.keys (itemBlock d' k' v') := by
    simpa [Dict.keys] using Dict.mem_keys_of_get? hb
  obtain ⟨rfl, rfl⟩ := block_key_inj (hdots d k v hv).1 (hdots d k v hv).2 (hdots d' k' v' hv').1
    (hdots d' k' v' hv').2 hka hkb
  cases hv.symm.trans hv'
  exact Option.some.inj (ha.symm.trans hb)

theorem not_dot_of_domainEntry {cache : Cache} {components : List String}
    (hdot : ∀ ct ∈ cache, ∀ k ∈ Dict.keys ct.2, '.' ∉ k.data) {d k : String} {v : Value}
    (h : domainEntry cache components d k = some v) : '.' ∉ d.data ∧ '.' ∉ k.data := by
  obtain ⟨c, -, hc⟩ := List.exists_of_findSome?_eq_some h
  simp only [entryOf] at hc
  split_ifs at hc with hcd
  obtain ⟨t, ht, hkt⟩ := Option.bind_eq_some.1 hc
  exact ⟨hcd ▸ not_dot_componentDomain c, hdot (c, t) (Dict.mem_of_get? ht) k (Dict.mem_keys_of_get? hkt)⟩

/-- `async_get_component_resources` once the cache is filled, for a cache whose dicts are dicts
and whose trees have no `.` in their top-level keys: when the components of one domain have
disjoint top-level keys, every iteration order of the component set gives the same flattened
resources, as a mapping. -/
theorem componentResources_perm (cache : Cache) (hcache : Cache.Distinct cache)
    (hdot : ∀ ct ∈ cache, ∀ k ∈ Dict.keys ct.2, '.' ∉ k.data)
    (components components' : List String) (hperm : components.Perm components')
    (hin : ∀ c ∈ components, c ∈ Dict.keys cache)
    (hdisj : ∀ c ∈ components, ∀ c' ∈ components, c ≠ c' → componentDomain c = componentDomain c' →
      ∀ k ∈ Dict.keys ((Dict.get? cache c).getD []), k ∉ Dict.keys ((Dict.get? cache c').getD [])) :
    ∃ r r', componentResources cache components = .ok r ∧
      componentResources cache components' = .ok r' ∧ ∀ key, Dict.get? r key = Dict.get? r' key := by
  obtain ⟨res, hres⟩ := buildResources_ok [] hin
  obtain ⟨res', hres'⟩ := buildResources_ok [] fun c hc => hin c (hperm.mem_iff.2 hc)
  have hget : ∀ d k, Dict.get? ((Dict.get? res d).getD []) k = domainEntry cache components d k :=
    fun d k => by simpa using get?_buildResources hcache hres d k
  have hmap : ∀ d k, Dict.get? ((Dict.get? res d).getD []) k =
      Dict.get? ((Dict.get? res' d).getD []) k := fun d k => by
    rw [hget, domainEntry_perm hperm hdisj]
    simpa using (get?_buildResources hcache hres' d k).symm
  refine ⟨_, _, by rw [componentResources, hres]; rfl, by rw [componentResources, hres']; rfl,
    get?_flatten_congr (distinct_buildResources hcache hres ⟨List.nodup_nil, by simp⟩)
      (distinct_buildResources hcache hres' ⟨List.nodup_nil, by simp⟩) hmap
      fun d k v h => not_dot_of_domainEntry hdot ((hget d k).symm.trans h)⟩

/-- `sensor` with `state` and `sensor.moon` with `title`, in both orders. -/
theorem componentResources_perm_sensor :
    let cache : Cache := [("sensor", [("state", .dict [("a", .str "1")])]),
      ("sensor.moon", [("title", .str "Moon")])]
    let components := ["sensor", "sensor.moon"]
    let components' := ["sensor.moon", "sensor"]
    Cache.Distinct cache ∧ (∀ ct ∈ cache, ∀ k ∈ Dict.keys ct.2, '.' ∉ k.data) ∧
    components.Perm components' ∧ (∀ c ∈ components, c ∈ Dict.keys cache) ∧
    (∀ c ∈ components, ∀ c' ∈ components, c ≠ c' → componentDomain c = componentDomain c' →
      ∀ k ∈ Dict.keys ((Dict.get? cache c).getD []), k ∉ Dict.keys ((Dict.get? cache c').getD [])) ∧
    ∃ r r', componentResources cache components = .ok r ∧
      componentResources cache components' = .ok r' ∧ ∀ key, Dict.get? r key = Dict.get? r' key := by
  intro cache components components'
  have hperm : components.Perm components' := List.Perm.swap _ _ []
  exact ⟨by decide, by decide, hperm, by decide, by decide,
    componentResources_perm cache (by decide) (by decide) components components' hperm (by decide)
      (by decide)⟩

end OpenPeerPower
