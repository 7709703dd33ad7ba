import OpenPeerPower.Intent

/-!
# The fuzzy matcher

`_fuzzymatch(name, items, key)` compiles `".*?".join(name)` with `re.IGNORECASE`, searches every
key with it and returns the item of the least `(len(match.group()), match.start(), idx)`.

What it is for is stated without regular expressions: `Occurs lower q s w` says that `q` is a
case-insensitive subsequence of the first `w` characters of `s` that starts with the first of
them and ends with the last; `FirstShortest` picks the leftmost start and the shortest span there.
For a name with no character special to `sre_parse` and keys without a newline (`.` does not match
one), `fuzzymatch_first_shortest` says that `_fuzzymatch` returns, returns `None` exactly when no
key contains the name, and otherwise returns the item whose leftmost-shortest occurrence ranks
first. The proof goes through the compiled pattern (`compile_joinLazy`), the backtracking matcher
at one position (`leastFrom_matchHere_joinItems`: the lazy `.*?` tries the fewest characters
first, and the first success is the shortest span) and the scan of `search` over the positions.

The name is spliced into the pattern unescaped, so a name such as `"("` makes `re.compile` raise.
`fuzzymatch_special_raises` names the error for every name whose first special character is a
repeat character or a parenthesis, and for a name that ends with its only special character `\\`;
`fuzzymatch_open_set_raises` for a `[` that no `]` closes.
-/

namespace OpenPeerPower

section Spec

variable (lower : Char → Char)

/-- `q` occurs case-insensitively as a subsequence at the start of `s`, spanning `w` characters:
the first character of `q` is the first of `s`, and its last is the `w`-th. -/
inductive Occurs : List Char → List Char → Nat → Prop
  | nil (s : List Char) : Occurs [] s 0
  | single {c x : Char} (s : List Char) : lower c = lower x → Occurs [c] (x :: s) 1
  | cons {c x d : Char} {q s : List Char} (g w : Nat) : lower c = lower x →
      Occurs (d :: q) (s.drop g) w → Occurs (c :: d :: q) (x :: s) (1 + g + w)

/-- `q` is a case-insensitive subsequence of `s`. -/
def Contains (q s : List Char) : Prop := ∃ start w, Occurs lower q (s.drop start) w

/-- The occurrence `_fuzzymatch` ranks a key by: it starts at `start`, the leftmost position where
`q` occurs, and spans `w` characters, the fewest of an occurrence starting there. -/
structure FirstShortest (q s : List Char) (start w : Nat) : Prop where
  occurs : Occurs lower q (s.drop start) w
  leftmost : ∀ i < start, ∀ w', ¬ Occurs lower q (s.drop i) w'
  shortest : ∀ w' < w, ¬ Occurs lower q (s.drop start) w'

/-- `o` is `i` plus the least `w` with `P w`, and `none` when there is none. -/
def LeastFrom (P : Nat → Prop) (i : Nat) : Option Nat → Prop
  | some j => ∃ w, j = i + w ∧ P w ∧ ∀ w' < w, ¬ P w'
  | none => ∀ w, ¬ P w

end Spec

section Occurs

variable {lower : Char → Char}

theorem not_occurs_cons_nil {c : Char} {q : List Char} {w : Nat} : ¬ Occurs lower (c :: q) [] w :=
  nofun

theorem occurs_single_iff {c x : Char} {s : List Char} {w : Nat} :
    Occurs lower [c] (x :: s) w ↔ lower c = lower x ∧ w = 1 :=
  ⟨fun h => by cases h; exact ⟨‹_›, rfl⟩, fun ⟨h, hw⟩ => hw ▸ .single s h⟩

theorem occurs_cons_cons_iff {c x d : Char} {q s : List Char} {W : Nat} :
    Occurs lower (c :: d :: q) (x :: s) W ↔
      lower c = lower x ∧ ∃ g w, W = 1 + g + w ∧ Occurs lower (d :: q) (s.drop g) w :=
  ⟨fun h => by cases h; exact ⟨‹_›, _, _, rfl, ‹_›⟩, fun ⟨h, g, w, hW, hw⟩ => hW ▸ .cons g w h hw⟩

theorem Occurs.pos {c : Char} {q s : List Char} {w : Nat} (h : Occurs lower (c :: q) s w) : 0 < w := by
  cases h <;> omega

theorem occurs_shift {d : Char} {q t : List Char} {w₀ w : Nat} (δ : Nat)
    (h₀ : Occurs lower (d :: q) t w₀) (h : Occurs lower (d :: q) (t.drop δ) w) :
    ∃ w' ≤ δ + w, Occurs lower (d :: q) t w' := by
  cases q with
  | nil => cases h₀; exact ⟨1, by have := h.pos; omega, .single _ ‹_›⟩
  | cons e q =>
    obtain ⟨y, t, rfl⟩ : ∃ y t', t = y :: t' := by cases h₀; exact ⟨_, _, rfl⟩
    have hdy := (occurs_cons_cons_iff.1 h₀).1
    rcases δ with _ | δ
    · exact ⟨w, by omega, h⟩
    rw [List.drop_succ_cons] at h
    obtain ⟨z, u, hu⟩ : ∃ z u, t.drop δ = z :: u := by
      cases hu : t.drop δ with
      | nil => rw [hu] at h; exact absurd h not_occurs_cons_nil
      | cons z u => exact ⟨z, u, rfl⟩
    rw [hu, occurs_cons_cons_iff] at h
    obtain ⟨-, g, w', rfl, hrest⟩ := h
    have hdrop : t.drop (δ + 1 + g) = u.drop g := by
      rw [← List.drop_drop, ← List.drop_drop, hu]; rfl
    exact ⟨_, by omega, .cons (δ + 1 + g) w' hdy (hdrop ▸ hrest)⟩

theorem occurs_self : ∀ q : List Char, Occurs lower q q q.length
  | [] => .nil []
  | [c] => .single [] rfl
  | c :: d :: q => by
    have := Occurs.cons (x := c) (s := d :: q) 0 (d :: q).length (rfl : lower c = lower c) (occurs_self (d :: q))
    simpa [Nat.add_comm] using this

theorem Occurs.length_le {q s : List Char} {w : Nat} (h : Occurs lower q s w) : q.length ≤ w := by
  induction h with
  | nil => exact Nat.le_refl 0
  | single => exact Nat.le_refl 1
  | cons g w _ _ ih => simp only [List.length_cons] at ih ⊢; omega

variable {q s : List Char} {st w st' w' : Nat}

theorem FirstShortest.atStart (h : Occurs lower q s w) (hmin : ∀ w' < w, ¬ Occurs lower q s w') :
    FirstShortest lower q s 0 w :=
  ⟨h, fun _ h => absurd h (Nat.not_lt_zero _), hmin⟩

theorem FirstShortest.contains (h : FirstShortest lower q s st w) : Contains lower q s :=
  ⟨st, w, h.occurs⟩

theorem FirstShortest.unique (h : FirstShortest lower q s st w) (h' : FirstShortest lower q s st' w') :
    st = st' ∧ w = w' := by
  obtain rfl : st = st' := by
    rcases Nat.lt_trichotomy st st' with hlt | heq | hgt
    · exact absurd h.occurs (h'.leftmost st hlt w)
    · exact heq
    · exact absurd h'.occurs (h.leftmost st' hgt w')
  rcases Nat.lt_trichotomy w w' with hlt | heq | hgt
  · exact absurd h.occurs (h'.shortest w hlt)
  · exact ⟨rfl, heq⟩
  · exact absurd h'.occurs (h.shortest w' hgt)

end Occurs

theorem leastFrom_findSome_range {P : Nat → Nat → Prop} {F : Nat → Option Nat} {i n : Nat}
    (hF : ∀ m, LeastFrom (P m) (i + 1 + m) (F m)) (hn : ∀ m > n, ∀ w, ¬ P m w)
    (hshift : ∀ m g w₀ w, m ≤ g → P m w₀ → P g w → ∃ w' ≤ g - m + w, P m w') :
    LeastFrom (fun W => ∃ g w, W = 1 + g + w ∧ P g w) i ((List.range (n + 1)).findSome? F) := by
  cases hfind : (List.range (n + 1)).findSome? F with
  | none =>
    rw [List.findSome?_eq_none_iff] at hfind
    rintro W ⟨g, w, rfl, hg⟩
    by_cases hgn : g ≤ n
    · have := hF g; rw [hfind g (List.mem_range.2 (by omega))] at this; exact this w hg
    · exact hn g (by omega) w hg
  | some j =>
    obtain ⟨l₁, m, l₂, hl, hm, hnone⟩ := List.findSome?_eq_some_iff.1 hfind
    have hsorted := List.pairwise_lt_range (n + 1)
    rw [hl, List.pairwise_append] at hsorted
    have hbefore : ∀ g < m, ∀ w, ¬ P g w := fun g hg w hw => by
      have hmn : m < n + 1 := List.mem_range.1 (hl ▸ List.mem_append_right _ (List.mem_cons_self _ _))
      rcases List.mem_append.1 (hl ▸ List.mem_range.2 (by omega) : g ∈ l₁ ++ m :: l₂) with h₁ | h₂
      · have := hF g; rw [hnone g h₁] at this; exact this w hw
      · rcases List.mem_cons.1 h₂ with rfl | h₂
        · omega
        · have := (List.pairwise_cons.1 hsorted.2.1).1 g h₂; omega
    have := hF m; rw [hm] at this
    obtain ⟨w, rfl, hw, hleast⟩ := this
    refine ⟨1 + m + w, by omega, ⟨m, w, rfl, hw⟩, ?_⟩
    rintro W hW ⟨g, w', rfl, hg⟩
    by_cases hgm : g < m
    · exact hbefore g hgm w' hg
    · obtain ⟨w'', hle, hw''⟩ := hshift m g w w' (by omega) hw hg
      exact hleast w'' (by omega) hw''

namespace Re

section Parse

variable {c : Char} {rest : List Char} {mode mode' : Option SetState} {f f' : Frame}
  {fs fs' : List Frame} {e : ReError}

theorem parseAux_next (h : step c rest mode f fs = .next mode' f' fs') :
    parseAux (c :: rest) mode f fs = parseAux rest mode' f' fs' := by
  rw [parseAux.eq_def]; simp only [h]

theorem parseAux_raise (h : step c rest mode f fs = .raise e) :
    parseAux (c :: rest) mode f fs = .error e := by
  rw [parseAux.eq_def]; simp only [h]

theorem parseAux_plain (hc : c ∉ specialChars) :
    parseAux (c :: rest) none f fs = parseAux rest none (f.push (.atom (.literal c))) fs :=
  parseAux_next <| by
    have hesc : c ≠ '\\' := by rintro rfl; exact hc (by decide)
    simp only [step, outStep, if_neg hesc, if_pos hc]

theorem parseAux_lazyAny (rest : List Char) (f : Frame) (fs : List Frame) :
    parseAux ('.' :: '*' :: '?' :: rest) none f fs =
      parseAux rest none ⟨f.branches, .rep 0 none true .any :: f.items⟩ fs := rfl

theorem parseAux_open (rest : List Char) (f : Frame) (fs : List Frame) :
    parseAux ('(' :: '.' :: rest) none f fs = parseAux ('.' :: rest) none ⟨[], []⟩ (f :: fs) :=
  parseAux_next rfl

theorem parseAux_openSet (rest : List Char) (f : Frame) (fs : List Frame) :
    parseAux ('[' :: '.' :: rest) none f fs = parseAux ('.' :: rest) (some ⟨false, [], none⟩) f fs :=
  parseAux_next rfl

theorem parseAux_set_lazyAny (rest : List Char) (st : SetState) (f : Frame) (fs : List Frame) :
    ∃ st' : SetState, st'.last = some '?' ∧
      parseAux ('.' :: '*' :: '?' :: rest) (some st) f fs = parseAux rest (some st') f fs := by
  obtain ⟨_, _, _ | _⟩ := st <;> exact ⟨_, rfl, rfl⟩

theorem parseAux_set_member {x : Char} (hx : x ∉ specialChars) (hclose : x ≠ ']') (hdash : x ≠ '-')
    {st : SetState} (hst : st.last = some '?') (rest : List Char) (f : Frame) (fs : List Frame) :
    parseAux (x :: rest) (some st) f fs = parseAux rest (some ⟨st.neg, st.all, some x⟩) f fs := by
  have hesc : x ≠ '\\' := by rintro rfl; exact hx (by decide)
  exact parseAux_next (by simp [step, setStep, hst, hdash, hclose, hesc])

end Parse

/-- The items `".*?".join(q)` compiles to: the characters of `q` as literals, with a lazy `.*`
between two. -/
def joinItems : List Char → List Item
  | [] => []
  | [c] => [.atom (.literal c)]
  | c :: rest => .atom (.literal c) :: .rep 0 none true .any :: joinItems rest

/-- No character of `q` is special to `sre_parse` outside a set. -/
def Plain (q : List Char) : Prop := ∀ c ∈ q, c ∉ specialChars

theorem parseAux_joinLazy_append : ∀ {q : List Char}, Plain q →
    ∀ (rest : List Char) (f : Frame) (fs : List Frame), parseAux (joinLazy q ++ rest) none f fs =
      parseAux rest none ⟨f.branches, (joinItems q).reverse ++ f.items⟩ fs
  | [], _, _, _, _ => rfl
  | [c], hq, _, _, _ => parseAux_plain (hq c (List.mem_singleton_self c))
  | c :: d :: q, hq, rest, f, fs => by
    show parseAux (c :: '.' :: '*' :: '?' :: (joinLazy (d :: q) ++ rest)) none f fs = _
    rw [parseAux_plain (hq c (by simp)), parseAux_lazyAny,
      parseAux_joinLazy_append (fun x hx => hq x (List.mem_cons_of_mem _ hx))]
    simp [Frame.push, joinItems]

theorem compile_joinLazy {q : List Char} (hq : Plain q) :
    compile (joinLazy q) = .ok (seqOf (joinItems q)) := by
  rw [compile, ← List.append_nil (joinLazy q), parseAux_joinLazy_append hq]
  simp [parseAux, Frame.close, altOf]

/-! ### Names that `re.compile` rejects -/

theorem joinLazy_append : ∀ {p s : List Char}, p ≠ [] → s ≠ [] →
    joinLazy (p ++ s) = joinLazy p ++ '.' :: '*' :: '?' :: joinLazy s
  | [_], _ :: _, _, _ => rfl
  | c :: d :: q, s, _, hs => by
    show c :: '.' :: '*' :: '?' :: joinLazy (d :: q ++ s) = _
    rw [joinLazy_append (List.cons_ne_nil d q) hs]; rfl

theorem compile_joinLazy_append {p s : List Char} (hp : Plain p) (hs : s ≠ []) :
    ∃ f : Frame, compile (joinLazy (p ++ s)) = parseAux (joinLazy s) none f [] ∧
      ∀ lo hi lazy, f.repeatLast lo hi lazy =
        .error (.error (if p = [] then "nothing to repeat" else "multiple repeat")) := by
  rcases eq_or_ne p [] with rfl | hne
  · exact ⟨⟨[], []⟩, rfl, fun _ _ _ => rfl⟩
  · refine ⟨⟨[], .rep 0 none true .any :: (joinItems p).reverse⟩, ?_,
      fun _ _ _ => by simp [Frame.repeatLast, hne]⟩
    rw [compile, joinLazy_append hne hs, parseAux_joinLazy_append hp, parseAux_lazyAny]
    simp only [List.append_nil]

section Rejected

variable {f : Frame} {e : ReError}

theorem parseAux_joinLazy_repeat {c : Char} (hc : c ∈ ['*', '+', '?'])
    (he : ∀ lo hi lazy, f.repeatLast lo hi lazy = .error e) (r : List Char) (fs : List Frame) :
    parseAux (joinLazy (c :: r)) none f fs = .error e := by
  simp only [List.mem_cons, List.mem_singleton, List.not_mem_nil, or_false] at hc
  rcases hc with rfl | rfl | rfl <;> cases r <;>
    exact parseAux_raise (by simp [step, outStep, repeatStep, specialChars, repeatBounds, he])

theorem parseAux_joinLazy_close (r : List Char) :
    parseAux (joinLazy (')' :: r)) none f [] = .error (.error "unbalanced parenthesis") := by
  cases r <;> rfl

theorem parseAux_joinLazy_open {r : List Char} (hr : Plain r) :
    parseAux (joinLazy ('(' :: r)) none f [] =
      .error (.error "missing ), unterminated subpattern") := by
  cases r with
  | nil => rfl
  | cons d q =>
    show parseAux ('(' :: '.' :: '*' :: '?' :: joinLazy (d :: q)) none f [] = _
    rw [parseAux_open, parseAux_lazyAny, ← List.append_nil (joinLazy _),
      parseAux_joinLazy_append hr]
    rfl

theorem parseAux_joinLazy_set : ∀ {r : List Char}, Plain r → ']' ∉ r →
    ∀ (st : SetState) (f : Frame) (fs : List Frame), st.last = some '?' →
    parseAux (joinLazy r) (some st) f fs = .error (.error
      (if '-' ∈ r.dropLast then "bad character range ?-." else "unterminated character set"))
  | [], _, _, _, _, _, _ => rfl
  | [x], hr, hx, st, f, fs, hst => by
    by_cases hdash : x = '-'
    · subst hdash; exact parseAux_raise (by simp [step, setStep, hst])
    · rw [joinLazy, parseAux_set_member (hr x (List.mem_singleton_self x))
        (fun h => hx (by simp [h])) hdash hst]
      rfl
  | x :: y :: q, hr, hx, st, f, fs, hst => by
    show parseAux (x :: '.' :: '*' :: '?' :: joinLazy (y :: q)) (some st) f fs = _
    by_cases hdash : x = '-'
    · subst hdash
      exact parseAux_raise (by simp [step, setStep, hst, rangeError]; decide)
    · obtain ⟨st', hst', he⟩ := parseAux_set_lazyAny (joinLazy (y :: q)) ⟨st.neg, st.all, some x⟩ f fs
      rw [parseAux_set_member (hr x (by simp)) (fun h => hx (by simp [h])) hdash hst, he,
        parseAux_joinLazy_set (fun z hz => hr z (List.mem_cons_of_mem _ hz))
          (fun h => hx (List.mem_cons_of_mem _ h)) st' f fs hst']
      simp [List.dropLast_cons₂, Ne.symm hdash]

theorem parseAux_joinLazy_bracket {r : List Char} (hr : Plain r) (hclose : ']' ∉ r) (f : Frame) :
    parseAux (joinLazy ('[' :: r)) none f [] = .error (.error
      (if '-' ∈ r.dropLast then "bad character range ?-." else "unterminated character set")) := by
  cases r with
  | nil => rfl
  | cons d q =>
    show parseAux ('[' :: '.' :: '*' :: '?' :: joinLazy (d :: q)) none f [] = _
    obtain ⟨st', hst', he⟩ := parseAux_set_lazyAny (joinLazy (d :: q)) ⟨false, [], none⟩ f []
    rw [parseAux_openSet, he, parseAux_joinLazy_set hr hclose st' f [] hst']

end Rejected

section Match

variable {lower : Char → Char}

theorem runLength_any {cs : List Char} (h : '\n' ∉ cs) : runLength lower .any cs = cs.length := by
  rw [runLength, List.takeWhile_eq_self_iff.2]
  intro x hx
  simp only [Atom.matches, bne_iff_ne, ne_eq, decide_eq_true_eq]
  rintro rfl; exact h hx

theorem matchHere_literal_lazyAny {c x : Char} {cs : List Char} (h : '\n' ∉ cs) (rest : List Item)
    (i : Nat) (k : Nat → List Char → Option Nat) :
    matchHere lower (seqOf (.atom (.literal c) :: .rep 0 none true .any :: rest)) i (x :: cs) k =
      if lower c = lower x then
        (List.range (cs.length + 1)).findSome? fun m =>
          matchHere lower (seqOf rest) (i + 1 + m) (cs.drop m) k
      else none := by
  simp [seqOf, Item.toRegex, matchHere, Atom.matches, runLength_any h]

theorem leastFrom_matchHere_joinItems (lower : Char → Char) : ∀ (q : List Char) (i : Nat) (cs : List Char), '\n' ∉ cs →
    LeastFrom (Occurs lower q cs) i (matchHere lower (seqOf (joinItems q)) i cs fun j _ => some j)
  | [], i, cs, _ => ⟨0, rfl, .nil cs, fun _ h => absurd h (Nat.not_lt_zero _)⟩
  | [_], _, [], _ => fun _ h => not_occurs_cons_nil h
  | [c], i, x :: s, _ => by
    by_cases hcx : lower c = lower x
    · have : matchHere lower (seqOf (joinItems [c])) i (x :: s) (fun j _ => some j) = some (i + 1) := by
        simp [joinItems, seqOf, Item.toRegex, matchHere, Atom.matches, hcx]
      rw [this]
      exact ⟨1, rfl, .single s hcx, fun w hw h => by rw [occurs_single_iff] at h; omega⟩
    · have : matchHere lower (seqOf (joinItems [c])) i (x :: s) (fun j _ => some j) = none := by
        simp [joinItems, seqOf, Item.toRegex, matchHere, Atom.matches, hcx]
      rw [this]; intro w h; exact hcx (occurs_single_iff.1 h).1
  | _ :: _ :: _, _, [], _ => fun _ h => not_occurs_cons_nil h
  | c :: d :: q, i, x :: s, hcs => by
    have hs : '\n' ∉ s := fun h => hcs (List.mem_cons_of_mem _ h)
    show LeastFrom _ i (matchHere lower (seqOf (.atom (.literal c) :: .rep 0 none true .any ::
      joinItems (d :: q))) i (x :: s) _)
    rw [matchHere_literal_lazyAny hs]
    split_ifs with hcx
    · have hocc : Occurs lower (c :: d :: q) (x :: s) =
          fun W => ∃ g w, W = 1 + g + w ∧ Occurs lower (d :: q) (s.drop g) w :=
        funext fun W => propext (occurs_cons_cons_iff.trans (and_iff_right hcx))
      rw [hocc]
      refine leastFrom_findSome_range (fun m => leastFrom_matchHere_joinItems lower (d :: q) _ _
        fun h => hs (List.mem_of_mem_drop h)) (fun m hm w h => ?_) (fun m g w₀ w hmg h₀ h => ?_)
      · rw [List.drop_eq_nil_of_le (by omega)] at h; exact not_occurs_cons_nil h
      · exact occurs_shift (g - m) h₀ (by rwa [List.drop_drop, Nat.add_sub_of_le hmg])
    · intro W h; exact hcx (occurs_cons_cons_iff.1 h).1

theorem search_joinItems (lower : Char → Char) (q : List Char) : ∀ (cs : List Char) (i : Nat), '\n' ∉ cs →
    (∀ a b, search lower (seqOf (joinItems q)) i cs = some (a, b) →
      ∃ st w, a = i + st ∧ b = a + w ∧ FirstShortest lower q cs st w) ∧
    (search lower (seqOf (joinItems q)) i cs = none → ¬ Contains lower q cs)
  | [], i, _ => by
    have hat := leastFrom_matchHere_joinItems lower q i [] (List.not_mem_nil _)
    rw [search]
    cases hm : matchHere lower (seqOf (joinItems q)) i [] (fun j _ => some j) with
    | some j =>
      rw [hm] at hat
      obtain ⟨w, rfl, hocc, hmin⟩ := hat
      refine ⟨fun a b h => ?_, nofun⟩
      simp only [Option.map_some', Option.some.injEq, Prod.mk.injEq] at h
      obtain ⟨rfl, rfl⟩ := h
      exact ⟨0, w, rfl, rfl, .atStart hocc hmin⟩
    | none =>
      rw [hm] at hat
      exact ⟨nofun, fun _ ⟨st, w, h⟩ => hat w (by simpa using h)⟩
  | x :: cs, i, hcs => by
    have hat := leastFrom_matchHere_joinItems lower q i (x :: cs) hcs
    rw [search]
    cases hm : matchHere lower (seqOf (joinItems q)) i (x :: cs) (fun j _ => some j) with
    | some j =>
      rw [hm] at hat
      obtain ⟨w, rfl, hocc, hmin⟩ := hat
      refine ⟨?_, nofun⟩
      rintro a b ⟨⟩
      exact ⟨0, w, rfl, rfl, .atStart hocc hmin⟩
    | none =>
      rw [hm] at hat
      obtain ⟨ih₁, ih₂⟩ := search_joinItems lower q cs (i + 1) fun h => hcs (List.mem_cons_of_mem _ h)
      refine ⟨fun a b h => ?_, fun h ⟨st, w, hst⟩ => ?_⟩
      · obtain ⟨st, w, rfl, rfl, hfs⟩ := ih₁ a b h
        refine ⟨st + 1, w, by omega, rfl, ⟨hfs.occurs, fun i' hi' w' h' => ?_, hfs.shortest⟩⟩
        rcases i' with _ | i'
        · exact hat w' h'
        · exact hfs.leftmost i' (by omega) w' h'
      · rcases st with _ | st
        · exact hat w hst
        · exact ih₂ h ⟨st, w, hst⟩

theorem exists_firstShortest {q s : List Char} (hs : '\n' ∉ s) (h : Contains lower q s) :
    ∃ st w, FirstShortest lower q s st w := by
  obtain ⟨h₁, h₂⟩ := search_joinItems lower q s 0 hs
  obtain ⟨⟨a, b⟩, hab⟩ := Option.ne_none_iff_exists'.1 fun hn => h₂ hn h
  obtain ⟨st, w, -, -, hfs⟩ := h₁ a b hab
  exact ⟨st, w, hfs⟩

end Match

end Re

section Rank

variable {α : Type}

theorem rankLE_trans (a b c : Nat × Nat × Nat × α) : rankLE a b → rankLE b c → rankLE a c := by
  simp only [rankLE, Bool.or_eq_true, Bool.and_eq_true, decide_eq_true_eq, beq_iff_eq]; omega

theorem rankLE_total (a b : Nat × Nat × Nat × α) : (rankLE a b || rankLE b a) = true := by
  simp only [rankLE, Bool.or_eq_true, Bool.and_eq_true, decide_eq_true_eq, beq_iff_eq]; omega

theorem rankLE_head_mergeSort {l : List (Nat × Nat × Nat × α)} {m m' : Nat × Nat × Nat × α}
    (hm : (l.mergeSort rankLE).head? = some m) (hm' : m' ∈ l) (hne : m' ≠ m) : rankLE m m' := by
  have hsorted := List.sorted_mergeSort rankLE_trans rankLE_total l
  obtain ⟨tail, htail⟩ : ∃ tail, l.mergeSort rankLE = m :: tail := by
    cases h : l.mergeSort rankLE with
    | nil => rw [h] at hm; exact nomatch hm
    | cons m'' tail => rw [h] at hm; exact ⟨tail, by rw [Option.some.inj hm]⟩
  have : m' ∈ m :: tail := htail ▸ List.mem_mergeSort.2 hm'
  rw [htail] at hsorted
  exact List.rel_of_pairwise_cons hsorted ((List.mem_cons.1 this).resolve_left hne)

end Rank

instance : DecidablePred Re.Plain := fun q =>
  inferInstanceAs (Decidable (∀ c ∈ q, c ∉ Re.specialChars))

theorem fuzzymatch_eq_ok {α : Type} (lower : Char → Char) {name : String} (items : List α)
    (key : α → String) (hname : Re.Plain name.toList) :
    fuzzymatch lower name items key =
      .ok (bestMatch lower (Re.seqOf (Re.joinItems name.toList)) items key) := by
  simp only [fuzzymatch, Re.compile_joinLazy hname]; rfl

theorem fuzzymatch_eq_error {α : Type} (lower : Char → Char) {name : String} (items : List α)
    (key : α → String) {e : Re.ReError} (h : Re.compile (joinLazy name.toList) = .error e) :
    fuzzymatch lower name items key = .error e := by
  simp only [fuzzymatch, h]; rfl

section BestMatch

variable {α : Type} {lower : Char → Char} {q : List Char} {items : List α} {key : α → String}
  (hkeys : ∀ x ∈ items, '\n' ∉ (key x).toList)
include hkeys

theorem mem_matchList_iff {m : Nat × Nat × Nat × α} :
    m ∈ matchList lower (Re.seqOf (Re.joinItems q)) items key ↔
      items[m.2.2.1]? = some m.2.2.2 ∧ FirstShortest lower q (key m.2.2.2).toList m.2.1 m.1 := by
  obtain ⟨w, st, i, x⟩ := m
  simp only [matchList, List.mem_filterMap, Option.map_eq_some', Prod.exists,
    List.mem_enum_iff_getElem?]
  constructor
  · rintro ⟨i, x, hix, a, b, hs, heq⟩
    simp only [Prod.mk.injEq] at heq
    obtain ⟨rfl, rfl, rfl, rfl⟩ := heq
    have hx := List.mem_iff_getElem?.2 ⟨_, hix⟩
    obtain ⟨st, w, rfl, rfl, hfs⟩ := (Re.search_joinItems lower q (key x).toList 0 (hkeys x hx)).1 _ _ hs
    exact ⟨hix, by simpa using hfs⟩
  · rintro ⟨hix, hfs⟩
    have hx := List.mem_iff_getElem?.2 ⟨_, hix⟩
    obtain ⟨h₁, h₂⟩ := Re.search_joinItems lower q (key x).toList 0 (hkeys x hx)
    obtain ⟨⟨a, b⟩, hs⟩ := Option.ne_none_iff_exists'.1 fun h => h₂ h hfs.contains
    obtain ⟨st', w', rfl, rfl, hfs'⟩ := h₁ _ _ hs
    obtain ⟨rfl, rfl⟩ := hfs'.unique hfs
    exact ⟨i, x, hix, 0 + st', 0 + st' + w', hs, by simp⟩

theorem bestMatch_eq_none_iff :
    bestMatch lower (Re.seqOf (Re.joinItems q)) items key = none ↔
      ∀ x ∈ items, ¬ Contains lower q (key x).toList := by
  have hsort : ∀ l : List (Nat × Nat × Nat × α), l.mergeSort rankLE = [] ↔ l = [] := fun l => by
    rw [← List.length_eq_zero, List.length_mergeSort, List.length_eq_zero]
  simp only [bestMatch, Option.map_eq_none', List.head?_eq_none_iff, hsort,
    List.eq_nil_iff_forall_not_mem, mem_matchList_iff hkeys]
  constructor
  · intro h x hx hc
    obtain ⟨i, hix⟩ := List.mem_iff_getElem?.1 hx
    obtain ⟨st, w, hfs⟩ := Re.exists_firstShortest (hkeys x hx) hc
    exact h (w, st, i, x) ⟨hix, hfs⟩
  · rintro h ⟨w, st, i, x⟩ ⟨hix, hfs⟩
    exact h x (List.mem_iff_getElem?.2 ⟨i, hix⟩) hfs.contains

theorem bestMatch_eq_some {x : α} (h : bestMatch lower (Re.seqOf (Re.joinItems q)) items key = some x) :
    ∃ i st w : Nat, items[i]? = some x ∧ FirstShortest lower q (key x).toList st w ∧
      ∀ (j : Nat) (y : α) (st' w' : Nat), j ≠ i → items[j]? = some y →
        FirstShortest lower q (key y).toList st' w' →
        w < w' ∨ w = w' ∧ (st < st' ∨ st = st' ∧ i < j) := by
  obtain ⟨⟨w, st, i, x⟩, hm, rfl⟩ := Option.map_eq_some'.1 h
  obtain ⟨hix, hfs⟩ := (mem_matchList_iff hkeys).1 (List.mem_mergeSort.1 (List.mem_of_mem_head? hm))
  refine ⟨i, st, w, hix, hfs, fun j y st' w' hji hjy hfs' => ?_⟩
  have hle := rankLE_head_mergeSort hm ((mem_matchList_iff hkeys (m := (w', st', j, y))).2 ⟨hjy, hfs'⟩)
    (by simp [hji])
  simp only [rankLE, Bool.or_eq_true, Bool.and_eq_true, decide_eq_true_eq, beq_iff_eq] at hle
  omega

end BestMatch

/-- For a name with no character special to `sre_parse` and keys without newline, `_fuzzymatch`
returns without raising; it returns `None` exactly when no key contains the name as a
case-insensitive subsequence, and otherwise the item whose leftmost-shortest occurrence has the
least `(span, start, index)`. -/
theorem fuzzymatch_first_shortest {α : Type} (lower : Char → Char) (name : String) (items : List α)
    (key : α → String) (hname : Re.Plain name.toList) (hkeys : ∀ x ∈ items, '\n' ∉ (key x).toList) :
    ∃ r, fuzzymatch lower name items key = .ok r ∧
      (r = none ↔ ∀ x ∈ items, ¬ Contains lower name.toList (key x).toList) ∧
      ∀ x, r = some x → ∃ i st w : Nat, items[i]? = some x ∧
        FirstShortest lower name.toList (key x).toList st w ∧
        ∀ (j : Nat) (y : α) (st' w' : Nat), j ≠ i → items[j]? = some y →
          FirstShortest lower name.toList (key y).toList st' w' →
          w < w' ∨ w = w' ∧ (st < st' ∨ st = st' ∧ i < j) :=
  ⟨_, fuzzymatch_eq_ok lower items key hname, bestMatch_eq_none_iff hkeys,
    fun _ => bestMatch_eq_some hkeys⟩

/-- `"kl"` among two names: the theorem's hypotheses hold and it describes the result. -/
theorem fuzzymatch_first_shortest_kl :
    Re.Plain "kl".toList ∧ (∀ x ∈ ["Kitchen Light", "Bedroom"], '\n' ∉ (id x : String).toList) ∧
    ∃ r, fuzzymatch Char.toLower "kl" ["Kitchen Light", "Bedroom"] id = .ok r ∧
      (r = none ↔ ∀ x ∈ ["Kitchen Light", "Bedroom"],
        ¬ Contains Char.toLower "kl".toList (id x : String).toList) ∧
      ∀ x, r = some x → ∃ i st w : Nat, ["Kitchen Light", "Bedroom"][i]? = some x ∧
        FirstShortest Char.toLower "kl".toList (id x : String).toList st w ∧
        ∀ (j : Nat) (y : String) (st' w' : Nat), j ≠ i → ["Kitchen Light", "Bedroom"][j]? = some y →
          FirstShortest Char.toLower "kl".toList (id y : String).toList st' w' →
          w < w' ∨ w = w' ∧ (st < st' ∨ st = st' ∧ i < j) :=
  ⟨by decide, by decide, fuzzymatch_first_shortest Char.toLower "kl" _ id (by decide) (by decide)⟩

/-- A candidate whose key is the name verbatim is returned, unless the returned one comes earlier
and its key begins with the name case-insensitively. -/
theorem fuzzymatch_exact_key {α : Type} (lower : Char → Char) (name : String) (items : List α)
    (key : α → String) (hname : Re.Plain name.toList) (hkeys : ∀ x ∈ items, '\n' ∉ (key x).toList)
    {i : Nat} {x : α} (hx : items[i]? = some x) (hkey : key x = name) :
    ∃ (j : Nat) (y : α), fuzzymatch lower name items key = .ok (some y) ∧ items[j]? = some y ∧
      j ≤ i ∧ Occurs lower name.toList (key y).toList name.length := by
  have hself : FirstShortest lower name.toList (key x).toList 0 name.length := by
    rw [hkey]
    exact .atStart (occurs_self _) fun w' hw' h => absurd h.length_le (by simpa using hw')
  cases hb : bestMatch lower (Re.seqOf (Re.joinItems name.toList)) items key with
  | none =>
    exact absurd hself.contains ((bestMatch_eq_none_iff hkeys).1 hb x (List.mem_iff_getElem?.2 ⟨i, hx⟩))
  | some y =>
    obtain ⟨j, st, w, hjy, hfs, hmin⟩ := bestMatch_eq_some hkeys hb
    refine ⟨j, y, by rw [fuzzymatch_eq_ok lower items key hname, hb], hjy, ?_⟩
    by_cases hji : j = i
    · subst hji
      obtain rfl : y = x := Option.some.inj (hjy.symm.trans hx)
      exact ⟨le_rfl, by simpa using hself.occurs⟩
    · have hlen : name.length ≤ w := by simpa using hfs.occurs.length_le
      have := hmin i x 0 name.length (Ne.symm hji) hx hself
      obtain ⟨rfl, rfl, hlt⟩ : w = name.length ∧ st = 0 ∧ j < i := by omega
      exact ⟨hlt.le, by simpa using hfs.occurs⟩

/-- `"Kitchen"` after `"Kitchen Light"`: the later, exact key is returned or an earlier key
beginning with `Kitchen`. -/
theorem fuzzymatch_exact_key_kitchen :
    Re.Plain "Kitchen".toList ∧ (∀ x ∈ ["Kitchen Light", "Kitchen"], '\n' ∉ (id x : String).toList) ∧
    ["Kitchen Light", "Kitchen"][1]? = some "Kitchen" ∧ id "Kitchen" = "Kitchen" ∧
    ∃ (j : Nat) (y : String),
      fuzzymatch Char.toLower "Kitchen" ["Kitchen Light", "Kitchen"] id = .ok (some y) ∧
      ["Kitchen Light", "Kitchen"][j]? = some y ∧ j ≤ 1 ∧
      Occurs Char.toLower "Kitchen".toList (id y : String).toList "Kitchen".length :=
  ⟨by decide, by decide, rfl, rfl,
    fuzzymatch_exact_key Char.toLower "Kitchen" _ id (by decide) (by decide) (i := 1) rfl rfl⟩

section MatchState

variable {env : Env} {name : String} (hname : Re.Plain name.toList)
include hname

theorem asyncMatchState_eq_error_iff {e : PyException} :
    asyncMatchState env name = .error e ↔
      bestMatch env.lower (Re.seqOf (Re.joinItems name.toList)) env.states State.name = none ∧
        e = .intentError .intentHandleError s!"Unable to find an entity called {name}" := by
  rw [asyncMatchState, fuzzymatch_eq_ok env.lower env.states State.name hname]
  cases bestMatch env.lower (Re.seqOf (Re.joinItems name.toList)) env.states State.name <;>
    simp [eq_comm]

theorem asyncMatchState_eq_ok_iff {st : State} :
    asyncMatchState env name = .ok st ↔
      bestMatch env.lower (Re.seqOf (Re.joinItems name.toList)) env.states State.name = some st := by
  rw [asyncMatchState, fuzzymatch_eq_ok env.lower env.states State.name hname]
  cases bestMatch env.lower (Re.seqOf (Re.joinItems name.toList)) env.states State.name <;> simp

end MatchState

/-- `async_match_state` with a plain name and state names without newline raises only
`IntentHandleError`, exactly when no state's name contains the name, and otherwise returns one of
the states. -/
theorem asyncMatchState_raises_iff_no_match (env : Env) (name : String) (hname : Re.Plain name.toList)
    (hstates : ∀ st ∈ env.states, '\n' ∉ st.name.toList) :
    (∀ e, asyncMatchState env name = .error e →
      e = .intentError .intentHandleError s!"Unable to find an entity called {name}") ∧
    ((∃ e, asyncMatchState env name = .error e) ↔
      ∀ st ∈ env.states, ¬ Contains env.lower name.toList st.name.toList) ∧
    ∀ st, asyncMatchState env name = .ok st → st ∈ env.states := by
  have herr : ∀ e, asyncMatchState env name = .error e ↔ _ ∧ _ := fun e =>
    asyncMatchState_eq_error_iff hname
  refine ⟨fun e he => ((herr e).1 he).2,
    ⟨fun ⟨e, he⟩ => (bestMatch_eq_none_iff hstates).1 ((herr e).1 he).1,
      fun h => ⟨_, (herr _).2 ⟨(bestMatch_eq_none_iff hstates).2 h, rfl⟩⟩⟩, fun st hst => ?_⟩
  obtain ⟨j, -, -, hjy, -⟩ := bestMatch_eq_some hstates ((asyncMatchState_eq_ok_iff hname).1 hst)
  exact List.mem_iff_getElem?.2 ⟨j, hjy⟩

/-- One state named `Kitchen Light`, looked up as `kit`. -/
theorem asyncMatchState_kit :
    let name := "kit"
    let env : Env := ⟨[{ entityId := "light.kitchen", name := "Kitchen Light" }], fun _ => .ok (),
      Char.toLower, fun t _ => .ok t, ⟨"ctx", none, none⟩⟩
    Re.Plain name.toList ∧ (∀ st ∈ env.states, '\n' ∉ st.name.toList) ∧
    (∀ e, asyncMatchState env name = .error e →
      e = .intentError .intentHandleError s!"Unable to find an entity called {name}") ∧
    ((∃ e, asyncMatchState env name = .error e) ↔
      ∀ st ∈ env.states, ¬ Contains env.lower name.toList st.name.toList) ∧
    ∀ st, asyncMatchState env name = .ok st → st ∈ env.states :=
  ⟨by decide, by decide, asyncMatchState_raises_iff_no_match _ "kit" (by decide) (by decide)⟩

/-- The query `"("` makes `_fuzzymatch` raise `re.error`, whatever the candidates. -/
theorem fuzzymatch_unbalanced_paren_raises {α : Type} (lower : Char → Char) (items : List α)
    (key : α → String) :
    fuzzymatch lower "(" items key = .error (.error "missing ), unterminated subpattern") := rfl

/-- A name whose first character special to `sre_parse` is a repeat character or a parenthesis,
or that ends with its only special character `\\`, makes `_fuzzymatch` raise `re.error` before
any candidate is looked at. -/
theorem fuzzymatch_special_raises {α : Type} (lower : Char → Char) (items : List α)
    (key : α → String) {p : List Char} (hp : Re.Plain p) (r : List Char) :
    (∀ c ∈ ['*', '+', '?'], fuzzymatch lower (String.mk (p ++ c :: r)) items key =
      .error (.error (if p = [] then "nothing to repeat" else "multiple repeat"))) ∧
    fuzzymatch lower (String.mk (p ++ ')' :: r)) items key =
      .error (.error "unbalanced parenthesis") ∧
    (Re.Plain r → fuzzymatch lower (String.mk (p ++ '(' :: r)) items key =
      .error (.error "missing ), unterminated subpattern")) ∧
    fuzzymatch lower (String.mk (p ++ ['\\'])) items key =
      .error (.error "bad escape (end of pattern)") := by
  refine ⟨fun c hc => ?_, ?_, fun hr => ?_, ?_⟩ <;>
    obtain ⟨f, hf, he⟩ := Re.compile_joinLazy_append hp (List.cons_ne_nil _ _) <;>
    refine fuzzymatch_eq_error lower items key (hf.trans ?_)
  · exact Re.parseAux_joinLazy_repeat hc he r []
  · exact Re.parseAux_joinLazy_close r
  · exact Re.parseAux_joinLazy_open hr
  · rfl

/-- A prefix `Hallway ` before `*`, `+`, `?`, `)` or `(` and the rest `1`, and the name
`Hallway \\`. -/
theorem fuzzymatch_special_raises_hallway :
    let p := "Hallway ".toList
    let r := "1".toList
    Re.Plain p ∧
    (∀ c ∈ ['*', '+', '?'], fuzzymatch Char.toLower (String.mk (p ++ c :: r)) [] id =
      .error (.error (if p = [] then "nothing to repeat" else "multiple repeat"))) ∧
    fuzzymatch Char.toLower (String.mk (p ++ ')' :: r)) [] id =
      .error (.error "unbalanced parenthesis") ∧
    (Re.Plain r → fuzzymatch Char.toLower (String.mk (p ++ '(' :: r)) [] id =
      .error (.error "missing ), unterminated subpattern")) ∧
    fuzzymatch Char.toLower (String.mk (p ++ ['\\'])) [] id =
      .error (.error "bad escape (end of pattern)") :=
  ⟨by decide, fuzzymatch_special_raises Char.toLower ([] : List String) id (by decide) _⟩


/-- A name whose first special character is `[`, followed by plain characters none of which is
`]`, leaves the set open: `_fuzzymatch` raises `re.error` for the range `?-.` that a `-` before the
last character makes, or for the unterminated set. -/
theorem fuzzymatch_open_set_raises {α : Type} (lower : Char → Char) (items : List α)
    (key : α → String) {p r : List Char} (hp : Re.Plain p) (hr : Re.Plain r) (hclose : ']' ∉ r) :
    fuzzymatch lower (String.mk (p ++ '[' :: r)) items key = .error (.error
      (if '-' ∈ r.dropLast then "bad character range ?-." else "unterminated character set")) := by
  obtain ⟨f, hf, -⟩ := Re.compile_joinLazy_append hp (List.cons_ne_nil '[' r)
  exact fuzzymatch_eq_error lower items key (hf.trans (Re.parseAux_joinLazy_bracket hr hclose f))

/-- The name `Den [1-2`. -/
theorem fuzzymatch_open_set_raises_den :
    let p := "Den ".toList
    let r := "1-2".toList
    Re.Plain p ∧ Re.Plain r ∧ ']' ∉ r ∧
    fuzzymatch Char.toLower (String.mk (p ++ '[' :: r)) [] id = .error (.error
      (if '-' ∈ r.dropLast then "bad character range ?-." else "unterminated character set")) :=
  ⟨by decide, by decide, by decide,
    fuzzymatch_open_set_raises Char.toLower ([] : List String) id (by decide) (by decide) (by decide)⟩

end OpenPeerPower
