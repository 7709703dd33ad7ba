import Mathlib.Data.List.Perm.Basic
import Mathlib.Data.List.Sort
import Mathlib.Data.String.Basic
import OpenPeerPower.Oppfest.Dependencies

/-!
# What the dependency linter reports

`Refers t d` says where a syntax tree refers to the integration `d`, node kind by node kind:
an import from `openpeerpower.components.<d>...` or of `openpeerpower.components.<d>...`, a name
`d` imported from `openpeerpower.components`, an attribute `opp.components.d` or
`<expr>.opp.components.d`, and what the receiver of any other attribute and the children of any
other node refer to. The receiver of an `opp.components.d` chain is not looked into: in
`f(opp.components.a).opp.components.b` only `b` is a reference. `mem_visit` says that the
collector records exactly these.

`Violation` says which references the integration is not allowed to make, without the loops of
the source: a reference of one of its Python files that is not its own domain, not allowed by its
manifest (`Allowed`), not a whitelisted pair, and not a platform. `Outcome` says what `validate`
does with one integration: nothing without a manifest or with an empty one, else `SyntaxError`,
`KeyError`, or the violations, sorted and each once, followed by the declared dependencies that
are not integrations (`validateIntegration_outcome`). A sorted list without repetition is fixed by
its members, so `Outcome` fixes the result (`Outcome.unique`), and the reports depend neither on
the order of the files nor on that of the integrations (`validateIntegration_perm`,
`validate_perm`). `validate_outcome` lifts `Outcome` to the whole run.
-/

namespace OpenPeerPower

namespace Oppfest

/-! ### Sets as lists -/

theorem mem_addRef {refs : List String} {r x : String} : x ∈ addRef refs r ↔ x ∈ refs ∨ x = r := by
  unfold addRef
  split_ifs with h
  · exact ⟨.inl, fun hx => hx.elim id fun hxr => hxr ▸ h⟩
  · simp

theorem nodup_addRef {refs : List String} (h : refs.Nodup) (r : String) :
    (addRef refs r).Nodup := by
  unfold addRef
  split_ifs with hr
  · exact h
  · exact List.concat_eq_append refs r ▸ h.concat hr

section Fold

variable {α : Type} {step : List String → α → List String} {P : α → String → Prop}

theorem mem_foldl (hstep : ∀ acc a x, x ∈ step acc a ↔ x ∈ acc ∨ P a x) :
    ∀ (l : List α) (acc : List String) (x : String), x ∈ l.foldl step acc ↔ x ∈ acc ∨ ∃ a ∈ l, P a x
  | [], _, _ => by simp
  | a :: l, acc, x => by
    rw [List.foldl_cons, mem_foldl hstep l, hstep]
    simp only [List.mem_cons, exists_eq_or_imp, or_assoc]

theorem nodup_foldl (hstep : ∀ acc a, acc.Nodup → (step acc a).Nodup) :
    ∀ (l : List α) (acc : List String), acc.Nodup → (l.foldl step acc).Nodup
  | [], _, h => h
  | a :: l, acc, h => nodup_foldl hstep l _ (hstep acc a h)

end Fold

/-! ### The references of a syntax tree -/

/-- Where a syntax tree refers to an integration, node kind by node kind. -/
inductive Refers : Node → String → Prop
  | importFrom {module : String} {names : List String} : module.startsWith componentsPrefix →
      Refers (.importFrom (some module) names) (componentOf module)
  | importFromComponents {names : List String} {n : String} : n ∈ names →
      Refers (.importFrom (some "openpeerpower.components") names) n
  | importModules {names : List String} {n : String} : n ∈ names →
      n.startsWith componentsPrefix → Refers (.importModules names) (componentOf n)
  | oppComponents {value : Node} {attr : String} : isOppComponents value →
      Refers (.attribute value attr) attr
  | attributeValue {value : Node} {attr d : String} : isOppComponents value = false →
      Refers value d → Refers (.attribute value attr) d
  | child {children : List Node} {c : Node} {d : String} : c ∈ children → Refers c d →
      Refers (.node children) d

section Refers

variable {d : String}

theorem refers_importFrom_none {names : List String} : ¬ Refers (.importFrom none names) d := nofun

theorem refers_importFrom {module : String} {names : List String} :
    Refers (.importFrom (some module) names) d ↔
      module.startsWith componentsPrefix ∧ d = componentOf module ∨
        module = "openpeerpower.components" ∧ d ∈ names := by
  constructor
  · intro h
    cases h with
    | importFrom h => exact .inl ⟨h, rfl⟩
    | importFromComponents h => exact .inr ⟨rfl, h⟩
  · rintro (⟨h, rfl⟩ | ⟨rfl, h⟩)
    · exact .importFrom h
    · exact .importFromComponents h

theorem refers_importModules {names : List String} :
    Refers (.importModules names) d ↔
      ∃ n ∈ names, n.startsWith componentsPrefix ∧ d = componentOf n := by
  constructor
  · intro h
    cases h with
    | importModules hn h => exact ⟨_, hn, h, rfl⟩
  · rintro ⟨n, hn, h, rfl⟩
    exact .importModules hn h

theorem refers_attribute {value : Node} {attr : String} :
    Refers (.attribute value attr) d ↔
      isOppComponents value ∧ d = attr ∨ isOppComponents value = false ∧ Refers value d := by
  constructor
  · intro h
    cases h with
    | oppComponents h => exact .inl ⟨h, rfl⟩
    | attributeValue h hv => exact .inr ⟨h, hv⟩
  · rintro (⟨h, rfl⟩ | ⟨h, hv⟩)
    · exact .oppComponents h
    · exact .attributeValue h hv

theorem refers_name {id : String} : ¬ Refers (.name id) d := nofun

theorem refers_node {children : List Node} :
    Refers (.node children) d ↔ ∃ c ∈ children, Refers c d := by
  constructor
  · intro h
    cases h with
    | child hc h => exact ⟨_, hc, h⟩
  · rintro ⟨_, hc, h⟩
    exact .child hc h

end Refers

set_option maxRecDepth 4000 in
theorem components_not_startsWith :
    ("openpeerpower.components".startsWith componentsPrefix) = false := by
  decide

mutual
theorem mem_visit : ∀ (t : Node) (acc : List String) (x : String),
    x ∈ visit t acc ↔ x ∈ acc ∨ Refers t x
  | .importFrom none _, _, _ => by simp [visit, refers_importFrom_none]
  | .importFrom (some module) names, acc, x => by
    rw [refers_importFrom]
    by_cases hp : module.startsWith componentsPrefix
    · have hm : module ≠ "openpeerpower.components" := by
        rintro rfl; exact absurd hp (by rw [components_not_startsWith]; decide)
      simp [visit, hp, hm, mem_addRef]
    · by_cases hm : module = "openpeerpower.components"
      · subst hm
        simp [visit, components_not_startsWith,
          mem_foldl (P := fun n x => x = n) fun _ _ _ => mem_addRef]
      · simp [visit, hp, hm]
  | .importModules names, acc, x => by
    rw [visit, refers_importModules,
      mem_foldl (P := fun n x => n.startsWith componentsPrefix ∧ x = componentOf n)]
    intro acc n y
    unfold importStep
    split_ifs with h <;> simp [h, mem_addRef]
  | .attribute value attr, acc, x => by
    rw [visit, refers_attribute]
    cases h : isOppComponents value
    · simp [mem_visit value acc x]
    · simp [mem_addRef]
  | .name _, _, _ => by simp [visit, refers_name]
  | .node children, acc, x => by rw [visit, mem_visitAll, refers_node]
theorem mem_visitAll : ∀ (cs : List Node) (acc : List String) (x : String),
    x ∈ visitAll cs acc ↔ x ∈ acc ∨ ∃ c ∈ cs, Refers c x
  | [], _, _ => by simp [visitAll]
  | c :: cs, acc, x => by
    rw [visitAll, mem_visitAll cs, mem_visit c]
    simp only [List.mem_cons, exists_eq_or_imp, or_assoc]
end

/-! ### What the linter is to report -/

section Spec

variable (discovery : List (String × List String))

/-- The references a manifest allows: the components always set up, the declared dependencies and
after-dependencies, and the discovery integrations asked for by one of the manifest's keys. -/
def Allowed (m : Manifest) (d : String) : Prop :=
  d ∈ ALLOWED_USED_COMPONENTS ∨ d ∈ m.dependencies.getD [] ∨ d ∈ m.afterDependencies.getD [] ∨
    ∃ p ∈ discovery, p.2.any (· ∈ m.keys) ∧ d = p.1

/-- A reference `d` of a file filed under `c` that is none of the references the integration may
make: its own domain, an allowed one, a whitelisted pair, the integration a platform file is for,
or a platform of the integration (a file `d.py` or a directory `d`). -/
def Kept (domains : List String) (i : Integration) (m : Manifest) (c d : String) : Prop :=
  d ≠ i.domain ∧ ¬ Allowed discovery m d ∧ Ignored.pair i.domain d ∉ IGNORE_VIOLATIONS ∧
    (c ∈ domains → c ≠ d) ∧ (c ∉ domains → i.isFile (d ++ ".py") = false ∧ i.isDir d = false)

/-- A reference of one of the integration's Python files that it is not allowed to make. -/
def Violation (domains : List String) (i : Integration) (m : Manifest) (d : String) : Prop :=
  ∃ f ∈ i.files, f.isFile ∧ (∃ t, f.tree = some t ∧ Refers t d) ∧
    Kept discovery domains i m f.path.curFilDir d

/-- What `validate` does with one integration: nothing without a manifest or with an empty one;
otherwise it raises `SyntaxError` when a file does not parse (unless the integration is exempt)
and `KeyError` without `dependencies`, or reports the violations, sorted and each once, and then
the declared dependencies that are not integrations. -/
def Outcome (domains : List String) (i : Integration) (r : Except PyException Integration) : Prop :=
  match i.manifest with
  | none => r = .ok i
  | some m =>
    if m.keys = [] then r = .ok i
    else if Ignored.domain i.domain ∉ IGNORE_VIOLATIONS ∧ ∃ f ∈ i.files, f.isFile ∧ f.tree.isNone then
      r = .error (.exception "SyntaxError")
    else
      match m.dependencies with
      | none => r = .error (.keyError "dependencies")
      | some deps => ∃ l : List String, l.Sorted (· < ·) ∧
        (∀ d, d ∈ l ↔ Ignored.domain i.domain ∉ IGNORE_VIOLATIONS ∧ Violation discovery domains i m d) ∧
        r = .ok { i with errors := i.errors ++ l.map (fun d => ("dependencies", usingMessage d)) ++
          (deps.filter (· ∉ domains)).map fun dep => ("dependencies", missingMessage dep) }

end Spec

/-! ### The stages of the linter -/

section Stages

variable (discovery : List (String × List String))

theorem collect_ok : ∀ {fs : List PyFile}, (∀ f ∈ fs, f.isFile → f.tree.isSome) →
    ∃ refs, collect fs = .ok refs ∧ ∀ pr, pr ∈ refs ↔
      ∃ f ∈ fs, f.isFile ∧ ∃ t, f.tree = some t ∧ pr = (f.path, visit t [])
  | [], _ => ⟨[], rfl, by simp⟩
  | f :: fs, h => by
    obtain ⟨refs, hc, hm⟩ := collect_ok fun g hg => h g (List.mem_cons_of_mem f hg)
    cases hf : f.isFile
    · refine ⟨refs, by simp [collect, hf, hc], fun pr => ?_⟩
      simp [hm, hf]
    · obtain ⟨t, ht⟩ := Option.isSome_iff_exists.1 (h f (List.mem_cons_self f fs) hf)
      refine ⟨_, by simp [collect, hf, ht, hc]; rfl, fun pr => ?_⟩
      simp [hm, hf, ht]

theorem collect_error : ∀ {fs : List PyFile}, (∃ f ∈ fs, f.isFile ∧ f.tree.isNone) →
    collect fs = .error (.exception "SyntaxError")
  | f :: fs, ⟨g, hg, hgf, hgt⟩ => by
    rcases List.mem_cons.1 hg with rfl | hg
    · simp [collect, hgf, Option.isNone_iff_eq_none.1 hgt]
    · have he := collect_error ⟨g, hg, hgf, hgt⟩
      cases hf : f.isFile
      · simp [collect, hf, he]
      · cases ht : f.tree <;> simp [collect, hf, ht, he]

theorem calcAllowedReferences_ok {i : Integration} {m : Manifest} {deps : List String}
    (hm : i.manifest = some m) (hd : m.dependencies = some deps) :
    ∃ allowed, calcAllowedReferences discovery i = .ok allowed ∧
      ∀ d, d ∈ allowed ↔ Allowed discovery m d := by
  refine ⟨_, by simp only [calcAllowedReferences, hm, hd]; rfl, fun d => ?_⟩
  rw [mem_foldl (P := fun p x => p.2.any (· ∈ m.keys) ∧ x = p.1)]
  · simp [Allowed, hd, or_assoc]
  · rintro acc ⟨c, cs⟩ x
    dsimp only
    split_ifs with h <;> simp [h, mem_addRef]

theorem skips_eq_false {domains : List String} {i : Integration} {m : Manifest}
    {allowed : List String}
    (ha : ∀ d, d ∈ allowed ↔ Allowed discovery m d) (c d : String) :
    skips domains i allowed c d = false ↔ Kept discovery domains i m c d := by
  unfold skips Kept
  by_cases hc : c ∈ domains <;> simp [hc, ha, Ne.symm, and_assoc]

theorem findNonReferencedIntegrations_ok (domains : List String) {i : Integration} {m : Manifest}
    {deps : List String} (hm : i.manifest = some m) (hd : m.dependencies = some deps)
    (references : List (RelPath × List String)) :
    ∃ l, findNonReferencedIntegrations discovery domains i references = .ok l ∧ l.Nodup ∧
      ∀ d, d ∈ l ↔ ∃ pr ∈ references, d ∈ pr.2 ∧ Kept discovery domains i m pr.1.curFilDir d := by
  obtain ⟨allowed, hc, ha⟩ := calcAllowedReferences_ok discovery hm hd
  have hinner : ∀ (c : String) (acc : List String) (ref x : String),
      x ∈ (if skips domains i allowed c ref then acc else addRef acc ref) ↔
        x ∈ acc ∨ x = ref ∧ Kept discovery domains i m c ref := by
    intro c acc ref x
    rw [← skips_eq_false discovery ha]
    cases skips domains i allowed c ref <;> simp [mem_addRef]
  refine ⟨_, by simp only [findNonReferencedIntegrations, hc]; rfl,
    nodup_foldl (fun acc pr h => nodup_foldl (fun acc ref h => ?_) _ _ h) _ _ List.nodup_nil,
    fun d => ?_⟩
  · dsimp only
    split_ifs
    exacts [h, nodup_addRef h ref]
  · rw [mem_foldl (P := fun pr x => x ∈ pr.2 ∧ Kept discovery domains i m pr.1.curFilDir x)]
    · simp
    · rintro acc ⟨path, refs⟩ x
      rw [mem_foldl (P := fun ref x => x = ref ∧ Kept discovery domains i m path.curFilDir ref)
        (hinner path.curFilDir)]
      exact or_congr_right ⟨fun ⟨_, ha, rfl, hk⟩ => ⟨ha, hk⟩, fun ⟨ha, hk⟩ => ⟨x, ha, rfl, hk⟩⟩

end Stages

/-! ### One integration -/

section Integration

variable (discovery : List (String × List String))

theorem sorted_perm (l : List String) : (sorted l).Perm l := List.mergeSort_perm _ _

theorem keepsOrder_iff {a b : String} : keepsOrder a b = true ↔ a ≤ b := by
  rw [← not_lt, String.lt_iff_toList_lt]
  simp only [keepsOrder, Bool.not_eq_true', decide_eq_false_iff_not]
  exact not_congr (List.lt_iff_lex_lt _ _)

theorem sorted_lt {l : List String} (h : l.Nodup) : (sorted l).Sorted (· < ·) := by
  have hle : (sorted l).Pairwise fun a b => keepsOrder a b = true :=
    @List.sorted_mergeSort String keepsOrder
      (fun _ _ _ hab hbc =>
        keepsOrder_iff.2 (le_trans (keepsOrder_iff.1 hab) (keepsOrder_iff.1 hbc)))
      (fun a b => Bool.or_eq_true_iff.2 ((le_total a b).imp keepsOrder_iff.2 keepsOrder_iff.2)) l
  exact List.Sorted.lt_of_le (hle.imp keepsOrder_iff.1) ((sorted_perm l).nodup_iff.2 h)

theorem foldl_addError (msg : String → String) : ∀ (l : List String) (i : Integration),
    l.foldl (fun i d => i.addError "dependencies" (msg d)) i =
      { i with errors := i.errors ++ l.map fun d => ("dependencies", msg d) }
  | [], i => by simp only [List.foldl_nil, List.map_nil, List.append_nil]
  | d :: l, i => by
    rw [List.foldl_cons, foldl_addError msg l]
    simp [Integration.addError]

theorem foldl_addError_missing (domains : List String) : ∀ (deps : List String) (i : Integration),
    deps.foldl (fun i dep =>
        if dep ∈ domains then i else i.addError "dependencies" (missingMessage dep)) i =
      { i with errors := i.errors ++ (deps.filter (· ∉ domains)).map fun dep =>
        ("dependencies", missingMessage dep) }
  | [], i => by simp only [List.foldl_nil, List.filter_nil, List.map_nil, List.append_nil]
  | dep :: deps, i => by
    rw [List.foldl_cons, foldl_addError_missing domains deps]
    by_cases h : dep ∈ domains <;> simp [h, Integration.addError]

theorem exists_kept_iff {domains : List String} {i : Integration} {m : Manifest}
    {refs : List (RelPath × List String)}
    (hrefs : ∀ pr, pr ∈ refs ↔
      ∃ f ∈ i.files, f.isFile ∧ ∃ t, f.tree = some t ∧ pr = (f.path, visit t []))
    (d : String) :
    (∃ pr ∈ refs, d ∈ pr.2 ∧ Kept discovery domains i m pr.1.curFilDir d) ↔
      Violation discovery domains i m d := by
  have hv : ∀ t, d ∈ visit t [] ↔ Refers t d := fun t => by simp [mem_visit]
  simp only [hrefs, Violation]
  constructor
  · rintro ⟨_, ⟨f, hf, hfile, t, ht, rfl⟩, hd, hk⟩
    exact ⟨f, hf, hfile, ⟨t, ht, (hv t).1 hd⟩, hk⟩
  · rintro ⟨f, hf, hfile, ⟨t, ht, hr⟩, hk⟩
    exact ⟨_, ⟨f, hf, hfile, t, ht, rfl⟩, (hv t).2 hr, hk⟩

section ValidateDependencies

variable {domains : List String} {i : Integration}

theorem validateDependencies_ignored (hi : Ignored.domain i.domain ∈ IGNORE_VIOLATIONS) :
    validateDependencies discovery domains i = .ok i := by
  simp [validateDependencies, hi]

theorem validateDependencies_syntaxError (hi : Ignored.domain i.domain ∉ IGNORE_VIOLATIONS)
    (hbad : ∃ f ∈ i.files, f.isFile ∧ f.tree.isNone) :
    validateDependencies discovery domains i = .error (.exception "SyntaxError") := by
  have hc : IGNORE_VIOLATIONS.contains (.domain i.domain) = false := by simpa using hi
  simp only [validateDependencies, hc, collect_error hbad]
  rfl

theorem validateDependencies_keyError {m : Manifest}
    (hi : Ignored.domain i.domain ∉ IGNORE_VIOLATIONS)
    (hparse : ∀ f ∈ i.files, f.isFile → f.tree.isSome) (hm : i.manifest = some m)
    (hd : m.dependencies = none) :
    validateDependencies discovery domains i = .error (.keyError "dependencies") := by
  have hc : IGNORE_VIOLATIONS.contains (.domain i.domain) = false := by simpa using hi
  obtain ⟨refs, hrefs, -⟩ := collect_ok hparse
  simp only [validateDependencies, hc, hrefs, findNonReferencedIntegrations, calcAllowedReferences,
    hm, hd]
  rfl

theorem validateDependencies_ok {m : Manifest} {deps : List String}
    (hi : Ignored.domain i.domain ∉ IGNORE_VIOLATIONS)
    (hparse : ∀ f ∈ i.files, f.isFile → f.tree.isSome)
    (hm : i.manifest = some m) (hd : m.dependencies = some deps) :
    ∃ l, l.Nodup ∧ (∀ d, d ∈ l ↔ Violation discovery domains i m d) ∧
      validateDependencies discovery domains i =
        .ok ((sorted l).foldl (fun i d => i.addError "dependencies" (usingMessage d)) i) := by
  have hc : IGNORE_VIOLATIONS.contains (.domain i.domain) = false := by simpa using hi
  obtain ⟨refs, hrefs, hmem⟩ := collect_ok hparse
  obtain ⟨l, hl, hnd, hml⟩ := findNonReferencedIntegrations_ok discovery domains hm hd refs
  refine ⟨l, hnd, fun d => (hml d).trans (exists_kept_iff discovery hmem d), ?_⟩
  simp only [validateDependencies, hc, hrefs, hl, ok_bind, Bool.false_eq_true, if_false]
  rfl

end ValidateDependencies

/-- `validate` does with each integration what `Outcome` says. -/
theorem validateIntegration_outcome (domains : List String) (i : Integration) :
    Outcome discovery domains i (validateIntegration discovery domains i) := by
  unfold validateIntegration Outcome
  rcases hm : i.manifest with _ | m
  · rfl
  · dsimp only
    split_ifs with hk hbad
    · rfl
    · rw [validateDependencies_syntaxError discovery hbad.1 hbad.2]; rfl
    · by_cases hi : Ignored.domain i.domain ∈ IGNORE_VIOLATIONS
      · rw [validateDependencies_ignored discovery hi]
        cases hd : m.dependencies with
        | none => rfl
        | some deps =>
          exact ⟨[], List.sorted_nil, by simp [hi], by simp [hd, hm, foldl_addError_missing]⟩
      · have hparse : ∀ f ∈ i.files, f.isFile → f.tree.isSome := fun f hf hfile =>
          Option.ne_none_iff_isSome.1 fun h => hbad ⟨hi, f, hf, hfile, by simp [h]⟩
        cases hd : m.dependencies with
        | none => rw [validateDependencies_keyError discovery hi hparse hm hd]; rfl
        | some deps =>
          obtain ⟨l, hnd, hml, hv⟩ :=
            @validateDependencies_ok discovery domains i m deps hi hparse hm hd
          refine ⟨sorted l, sorted_lt hnd, fun d => ?_, ?_⟩
          · rw [(sorted_perm l).mem_iff, hml]
            simp [hi]
          · rw [hv]
            simp [hm, foldl_addError, foldl_addError_missing]

/-- `Outcome` fixes what happens to an integration: a sorted list without repetition is fixed by
its members. -/
theorem Outcome.unique {domains : List String} {i : Integration}
    {r r' : Except PyException Integration}
    (h : Outcome discovery domains i r) (h' : Outcome discovery domains i r') : r = r' := by
  unfold Outcome at h h'
  rcases hm : i.manifest with _ | m
  · rw [hm] at h h'; exact h.trans h'.symm
  · rw [hm] at h h'
    dsimp only at h h'
    split_ifs at h h'
    · exact h.trans h'.symm
    · exact h.trans h'.symm
    · cases hd : m.dependencies with
      | none => rw [hd] at h h'; exact h.trans h'.symm
      | some deps =>
        rw [hd] at h h'
        obtain ⟨l, hl, hml, rfl⟩ := h
        obtain ⟨l', hl', hml', rfl⟩ := h'
        have hperm : l.Perm l' := (List.perm_ext_iff_of_nodup hl.nodup hl'.nodup).2 fun d =>
          (hml d).trans (hml' d).symm
        rw [List.eq_of_perm_of_sorted hperm hl hl']

theorem Outcome.congr_domains {domains domains' : List String}
    (hd : ∀ d, d ∈ domains' ↔ d ∈ domains)
    {i : Integration} {r : Except PyException Integration} (h : Outcome discovery domains i r) :
    Outcome discovery domains' i r := by
  unfold Outcome at h ⊢
  rcases hm : i.manifest with _ | m
  · rw [hm] at h; exact h
  · rw [hm] at h
    dsimp only at h ⊢
    split_ifs at h ⊢
    · exact h
    · exact h
    · cases hdeps : m.dependencies with
      | none => rw [hdeps] at h; exact h
      | some deps =>
        rw [hdeps] at h
        obtain ⟨l, hl, hml, rfl⟩ := h
        refine ⟨l, hl, fun d => (hml d).trans ?_, ?_⟩
        · simp only [Violation, Kept, hd]
        · simp [hd]

theorem Outcome.perm_files {domains : List String} {i : Integration} {fs : List PyFile}
    (hf : fs.Perm i.files) {r : Except PyException Integration}
    (h : Outcome discovery domains i r) :
    Outcome discovery domains { i with files := fs } (r.map fun i' => { i' with files := fs }) := by
  obtain ⟨domain, manifest, files, isFile, isDir, errors⟩ := i
  have hbad : (∃ f ∈ fs, f.isFile ∧ f.tree.isNone) ↔ ∃ f ∈ files, f.isFile ∧ f.tree.isNone := by
    simp only [hf.mem_iff]
  cases manifest with
  | none => unfold Outcome at h ⊢; rw [h]; rfl
  | some m =>
    unfold Outcome at h ⊢
    dsimp only at h ⊢
    simp only [hbad]
    split_ifs at h ⊢
    · rw [h]; rfl
    · rw [h]; rfl
    · cases hdeps : m.dependencies with
      | none => rw [hdeps] at h; rw [h]; rfl
      | some deps =>
        rw [hdeps] at h
        obtain ⟨l, hl, hml, rfl⟩ := h
        refine ⟨l, hl, fun d => (hml d).trans ?_, rfl⟩
        simp only [Violation, Kept, hf.mem_iff]

/-- What the linter reports on an integration does not depend on the order in which `glob` lists
its files, nor on the order of the integrations. -/
theorem validateIntegration_perm {domains domains' : List String} (hd : domains'.Perm domains)
    {i : Integration} {fs : List PyFile} (hf : fs.Perm i.files) :
    validateIntegration discovery domains' { i with files := fs } =
      (validateIntegration discovery domains i).map fun i' => { i' with files := fs } :=
  Outcome.unique discovery (validateIntegration_outcome discovery domains' _)
    (((validateIntegration_outcome discovery domains i).congr_domains discovery
      fun _ => hd.mem_iff).perm_files discovery hf)

theorem validateIntegration_perm_demo :
    ["sun", "demo"].Perm ["demo", "sun"] ∧
      ([⟨⟨"switch.py", []⟩, true, some (.name "opp")⟩,
        ⟨⟨"light.py", []⟩, true, some (.importModules ["openpeerpower.components.sun"])⟩] :
          List PyFile).Perm
        [⟨⟨"light.py", []⟩, true, some (.importModules ["openpeerpower.components.sun"])⟩,
          ⟨⟨"switch.py", []⟩, true, some (.name "opp")⟩] ∧
      validateIntegration [] ["sun", "demo"]
          ⟨"demo", some ⟨some [], none, []⟩,
            [⟨⟨"switch.py", []⟩, true, some (.name "opp")⟩,
              ⟨⟨"light.py", []⟩, true, some (.importModules ["openpeerpower.components.sun"])⟩],
            fun _ => false, fun _ => false, []⟩ =
        (validateIntegration [] ["demo", "sun"]
          ⟨"demo", some ⟨some [], none, []⟩,
            [⟨⟨"light.py", []⟩, true, some (.importModules ["openpeerpower.components.sun"])⟩,
              ⟨⟨"switch.py", []⟩, true, some (.name "opp")⟩],
            fun _ => false, fun _ => false, []⟩).map fun i' =>
          { i' with files := [⟨⟨"switch.py", []⟩, true, some (.name "opp")⟩,
              ⟨⟨"light.py", []⟩, true, some (.importModules ["openpeerpower.components.sun"])⟩] } :=
  ⟨.swap _ _ _, .swap _ _ _, @validateIntegration_perm [] _ _ (.swap _ _ _)
    ⟨"demo", some ⟨some [], none, []⟩, _, fun _ => false, fun _ => false, []⟩ _ (.swap _ _ _)⟩

end Integration

/-! ### The whole run -/

section MapM

variable {ε α β : Type} {f : α → Except ε β}

theorem mapM_ok : ∀ {l : List α} {r : List β}, l.mapM f = .ok r →
    List.Forall₂ (fun a b => f a = .ok b) l r
  | [], r, h => by cases h; exact .nil
  | a :: l, r, h => by
    rw [List.mapM_cons] at h
    cases ha : f a with
    | error e => rw [ha] at h; cases h
    | ok b =>
      cases hl : l.mapM f with
      | error e => rw [ha, ok_bind, hl] at h; cases h
      | ok bs =>
        rw [ha, ok_bind, hl, ok_bind] at h
        cases h
        exact .cons ha (mapM_ok hl)

theorem mapM_of_forall₂ : ∀ {l : List α} {r : List β},
    List.Forall₂ (fun a b => f a = .ok b) l r → l.mapM f = .ok r
  | _, _, .nil => rfl
  | _, _, .cons h hs => by rw [List.mapM_cons, h, ok_bind, mapM_of_forall₂ hs]; rfl

theorem mapM_error : ∀ {l : List α} {e : ε}, l.mapM f = .error e →
    ∃ pre a post, l = pre ++ a :: post ∧ (∀ x ∈ pre, ∃ b, f x = .ok b) ∧ f a = .error e
  | [], e, h => by cases h
  | a :: l, e, h => by
    rw [List.mapM_cons] at h
    cases ha : f a with
    | error e' => rw [ha] at h; cases h; exact ⟨[], a, l, rfl, by simp, ha⟩
    | ok b =>
      rw [ha, ok_bind] at h
      cases hl : l.mapM f with
      | error e' =>
        rw [hl] at h
        cases h
        obtain ⟨pre, x, post, rfl, hpre, hx⟩ := mapM_error hl
        refine ⟨a :: pre, x, post, rfl, ?_, hx⟩
        rintro y (_ | ⟨_, hy⟩)
        exacts [⟨b, ha⟩, hpre y hy]
      | ok bs => rw [hl, ok_bind] at h; cases h

end MapM

section Run

variable (discovery : List (String × List String))

/-- `validate` goes through the integrations in order, each one as `Outcome` says, the domains
being those of all integrations: when it returns, every integration keeps its domain and is
reported on as `Outcome` says; when it raises, the exception is the one `Outcome` gives for some
integration, and every integration before it was checked without one. -/
theorem validate_outcome (integrations : List (String × Integration)) :
    match validate discovery integrations with
    | .ok r => List.Forall₂ (fun p q => q.1 = p.1 ∧
        Outcome discovery (integrations.map Prod.fst) p.2 (.ok q.2)) integrations r
    | .error e => ∃ pre p post, integrations = pre ++ p :: post ∧
        (∀ q ∈ pre, ∃ i, Outcome discovery (integrations.map Prod.fst) q.2 (.ok i)) ∧
        Outcome discovery (integrations.map Prod.fst) p.2 (.error e) := by
  have hstep : ∀ (p : String × Integration) (r : Except PyException Integration),
      validateIntegration discovery (integrations.map Prod.fst) p.2 = r →
        Outcome discovery (integrations.map Prod.fst) p.2 r := fun p _ h =>
    h ▸ validateIntegration_outcome discovery _ p.2
  unfold validate
  split
  · next r h =>
    refine (mapM_ok h).imp fun {p q} hpq => ?_
    obtain ⟨d, i⟩ := p
    dsimp only at hpq
    cases hv : validateIntegration discovery (integrations.map Prod.fst) i with
    | error e => rw [hv] at hpq; cases hpq
    | ok i' => rw [hv, ok_bind] at hpq; cases hpq; exact ⟨rfl, hstep _ _ hv⟩
  · next e h =>
    obtain ⟨pre, ⟨d, i⟩, post, heq, hpre, he⟩ := mapM_error h
    refine ⟨pre, (d, i), post, heq, fun ⟨d', i'⟩ hq => ?_, ?_⟩
    · obtain ⟨q, hq⟩ := hpre _ hq
      dsimp only at hq
      cases hv : validateIntegration discovery (integrations.map Prod.fst) i' with
      | error e => rw [hv] at hq; cases hq
      | ok i'' => exact ⟨i'', hstep _ _ hv⟩
    · dsimp only at he
      cases hv : validateIntegration discovery (integrations.map Prod.fst) i with
      | error e' => rw [hv] at he; cases he; exact hstep _ _ hv
      | ok i'' => rw [hv, ok_bind] at he; cases he

theorem validateIntegration_congr_domains {domains domains' : List String}
    (hd : ∀ d, d ∈ domains' ↔ d ∈ domains) (i : Integration) :
    validateIntegration discovery domains' i = validateIntegration discovery domains i :=
  Outcome.unique discovery (validateIntegration_outcome discovery domains' i)
    ((validateIntegration_outcome discovery domains i).congr_domains discovery hd)

theorem validate_perm_ok {integrations integrations' : List (String × Integration)}
    (h : integrations'.Perm integrations) {r : List (String × Integration)}
    (hr : validate discovery integrations = .ok r) :
    ∃ r', validate discovery integrations' = .ok r' ∧ r'.Perm r := by
  have hd : ∀ d, d ∈ integrations'.map Prod.fst ↔ d ∈ integrations.map Prod.fst :=
    fun _ => (h.map _).mem_iff
  obtain ⟨r', h₁, h₂⟩ := List.perm_comp_forall₂ h (mapM_ok hr)
  refine ⟨r', mapM_of_forall₂ (h₁.imp fun {p q} hpq => ?_), h₂⟩
  obtain ⟨d, i⟩ := p
  dsimp only at hpq ⊢
  rwa [validateIntegration_congr_domains discovery hd]

/-- Whether `validate` raises, and what it reports when it does not, do not depend on the order of
the integrations; which exception it raises may. -/
theorem validate_perm {integrations integrations' : List (String × Integration)}
    (h : integrations'.Perm integrations) :
    (∀ r, validate discovery integrations = .ok r →
      ∃ r', validate discovery integrations' = .ok r' ∧ r'.Perm r) ∧
    (∀ e, validate discovery integrations = .error e → ∃ e', validate discovery integrations' = .error e') := by
  refine ⟨fun _ => validate_perm_ok discovery h, fun e he => ?_⟩
  cases hr' : validate discovery integrations' with
  | error e' => exact ⟨e', rfl⟩
  | ok r' =>
    obtain ⟨_, hr, -⟩ := validate_perm_ok discovery h.symm hr'
    rw [hr] at he; cases he

/-- `a` has a non-empty manifest without `dependencies`, `b` a file that does not parse: in either
order the run raises. -/
theorem validate_perm_keyError_syntaxError :
    ([("b", ⟨"b", some ⟨some [], none, []⟩, [⟨⟨"b.py", []⟩, true, none⟩],
        fun _ => false, fun _ => false, []⟩),
      ("a", ⟨"a", some ⟨none, none, ["domain"]⟩, [], fun _ => false, fun _ => false, []⟩)] :
      List (String × Integration)).Perm
      [("a", ⟨"a", some ⟨none, none, ["domain"]⟩, [], fun _ => false, fun _ => false, []⟩),
       ("b", ⟨"b", some ⟨some [], none, []⟩, [⟨⟨"b.py", []⟩, true, none⟩],
         fun _ => false, fun _ => false, []⟩)] ∧
    (∀ r, validate []
        [("a", ⟨"a", some ⟨none, none, ["domain"]⟩, [], fun _ => false, fun _ => false, []⟩),
         ("b", ⟨"b", some ⟨some [], none, []⟩, [⟨⟨"b.py", []⟩, true, none⟩],
           fun _ => false, fun _ => false, []⟩)] = .ok r →
      ∃ r', validate []
        [("b", ⟨"b", some ⟨some [], none, []⟩, [⟨⟨"b.py", []⟩, true, none⟩],
           fun _ => false, fun _ => false, []⟩),
         ("a", ⟨"a", some ⟨none, none, ["domain"]⟩, [], fun _ => false, fun _ => false, []⟩)] = .ok r' ∧
        r'.Perm r) ∧
    (∀ e, validate []
        [("a", ⟨"a", some ⟨none, none, ["domain"]⟩, [], fun _ => false, fun _ => false, []⟩),
         ("b", ⟨"b", some ⟨some [], none, []⟩, [⟨⟨"b.py", []⟩, true, none⟩],
           fun _ => false, fun _ => false, []⟩)] = .error e →
      ∃ e', validate []
        [("b", ⟨"b", some ⟨some [], none, []⟩, [⟨⟨"b.py", []⟩, true, none⟩],
           fun _ => false, fun _ => false, []⟩),
         ("a", ⟨"a", some ⟨none, none, ["domain"]⟩, [], fun _ => false, fun _ => false, []⟩)] = .error e') :=
  ⟨.swap _ _ _, validate_perm [] (.swap _ _ _)⟩

-- The exception depends on the order: `KeyError` from `a` first, `SyntaxError` from `b` first.
example : validate []
    [("a", ⟨"a", some ⟨none, none, ["domain"]⟩, [], fun _ => false, fun _ => false, []⟩),
     ("b", ⟨"b", some ⟨some [], none, []⟩, [⟨⟨"b.py", []⟩, true, none⟩],
       fun _ => false, fun _ => false, []⟩)] =
    .error (.keyError "dependencies") := rfl

example : validate []
    [("b", ⟨"b", some ⟨some [], none, []⟩, [⟨⟨"b.py", []⟩, true, none⟩],
       fun _ => false, fun _ => false, []⟩),
     ("a", ⟨"a", some ⟨none, none, ["domain"]⟩, [], fun _ => false, fun _ => false, []⟩)] =
    .error (.exception "SyntaxError") := rfl

end Run

end Oppfest

end OpenPeerPower
