import Mathlib.Logic.Relation
import OpenPeerPower.Loader
import OpenPeerPower.Resources

/-!
# The translation cache only grows and covers every call that builds

`Hub.Le hub hub'`: `hub'` has the cache of every language `hub` has, with at least its keys. Every
step only adds (`Step.le`), whatever the answers and the schedule.

`CallInv` is what a suspended call knows: the cache of its language exists, and every component
of its set is already cached, or is still to be looked up (`pending`, or the `component` being
looked up), or has its file in `missing_files`. A `done` call has all its components cached. It is
monotone in the hub, so a step of one call keeps the invariant of the others; for the stepped call
it is one case per suspension point (`resume_inv`). By induction every reachable state satisfies
it, and a `done` call's `build_resources` found every component (`translationCache_grows_and_covers`).

Every call also ends: the resumptions of a call are well founded (`call_returns_or_raises`), since
each one takes a component off `pending` or moves to a later suspension point, and a call that has
not ended can always be resumed without raising.
-/

namespace OpenPeerPower

namespace Hub

/-- `hub'` keeps every language and every cached component of `hub`. -/
structure Le (hub hub' : Hub) : Prop where
  languages : ∀ l ∈ hub.languages, l ∈ hub'.languages
  keys : ∀ l, ∀ x ∈ Dict.keys (hub.cache l), x ∈ Dict.keys (hub'.cache l)

instance : LE Hub := ⟨Le⟩

variable {hub hub' hub'' : Hub}

theorem le_refl (hub : Hub) : hub ≤ hub := ⟨fun _ h => h, fun _ _ h => h⟩

theorem le_trans (h : hub ≤ hub') (h' : hub' ≤ hub'') : hub ≤ hub'' :=
  ⟨fun l hl => h'.languages l (h.languages l hl), fun l x hx => h'.keys l x (h.keys l x hx)⟩

theorem mem_languages_ensureCache (language : String) : language ∈ (hub.ensureCache language).languages := by
  dsimp only [ensureCache, languages]
  split_ifs with h <;> simp [h]

theorem le_ensureCache (language : String) : hub ≤ hub.ensureCache language := by
  dsimp only [ensureCache]
  split_ifs with h
  · exact ⟨fun l hl => by simpa [languages] using hl, fun l x hx => by simpa [cache] using hx⟩
  · refine ⟨fun l hl => by simp [languages] at hl ⊢; exact .inl hl, fun l x hx => ?_⟩
    by_cases hl : language = l
    · subst hl
      simp [cache, Dict.get?_eq_none_iff.2 h] at hx
    · simpa [cache, hl] using hx

theorem cache_modifyCache (f : Cache → Cache) (language l : String)
    (h : language ∈ hub.languages) :
    (hub.modifyCache language f).cache l = if language = l then f (hub.cache language) else hub.cache l := by
  obtain ⟨caches⟩ := hub
  cases caches with
  | none => simp [languages] at h
  | some caches => by_cases hl : language = l <;> simp [modifyCache, cache, hl]

theorem le_modifyCache (f : Cache → Cache) (language : String)
    (hf : ∀ c, ∀ x ∈ Dict.keys c, x ∈ Dict.keys (f c)) : hub ≤ hub.modifyCache language f := by
  obtain ⟨caches⟩ := hub
  cases caches with
  | none => exact le_refl _
  | some caches =>
    refine ⟨fun l hl => by simp_all [languages, modifyCache], fun l x hx => ?_⟩
    by_cases hl : language = l
    · subst hl; simpa [modifyCache, cache] using hf _ x hx
    · simpa [modifyCache, cache, hl] using hx

end Hub

/-- Every component of `components` is cached for `language`, or still to be looked up
(`pending`), or has its file in `files`. -/
def Covered (hub : Hub) (language : String) (components pending : List String)
    (files : List (String × String)) : Prop :=
  ∀ x ∈ components, x ∈ Dict.keys (hub.cache language) ∨ x ∈ pending ∨ x ∈ Dict.keys files

/-- What a call knows about the cache: the cache of its language exists once it has started, its
components are covered at every suspension point, and when it has returned they are all cached
and `build_resources` succeeded. -/
def CallInv (hub : Hub) : Call → Prop
  | .awaitFlows language => language ∈ hub.languages
  | .awaitPath language components c pending files =>
    language ∈ hub.languages ∧ Covered hub language components (c :: pending) files
  | .awaitLoad language components files =>
    language ∈ hub.languages ∧ Covered hub language components [] files
  | .done language components result =>
    Covered hub language components [] [] ∧ ∃ r, result = .ok r
  | .failed _ => True

/-- Every call satisfies `CallInv`. -/
def Inv (s : Sys) : Prop := ∀ c ∈ s.calls, CallInv s.hub c

variable {hub hub' : Hub} {language : String} {components pending : List String}
  {files : List (String × String)}

theorem Covered.mono (hle : hub ≤ hub') (h : Covered hub language components pending files) :
    Covered hub' language components pending files := fun x hx =>
  (h x hx).imp_left (hle.keys language x)

theorem CallInv.mono (hle : hub ≤ hub') : ∀ {c : Call}, CallInv hub c → CallInv hub' c
  | .awaitFlows _, h => hle.languages _ h
  | .awaitPath .., h | .awaitLoad .., h => ⟨hle.languages _ h.1, h.2.mono hle⟩
  | .done .., h => ⟨h.1.mono hle, h.2⟩
  | .failed _, h => h

theorem finish_inv (h : Covered hub language components [] []) :
    CallInv hub (finish language components hub).1 :=
  ⟨h, componentResources_ok fun x hx => by simpa using h x hx⟩

theorem loop_inv (hl : language ∈ hub.languages) (h : Covered hub language components pending files) :
    (loop language components pending files hub).2 = hub ∧
      CallInv hub (loop language components pending files hub).1 := by
  cases pending with
  | cons c pending => exact ⟨rfl, hl, h⟩
  | nil =>
    simp only [loop]
    split_ifs with hf
    · exact ⟨rfl, finish_inv fun x hx => by simpa [hf] using h x hx⟩
    · exact ⟨rfl, hl, h⟩

theorem keys_loadTranslationsFiles {loadJson : String → Except PyException Value} :
    ∀ {files : List (String × String)} {acc loaded : Cache},
      loadTranslationsFiles loadJson files acc = .ok loaded →
        ∀ x, x ∈ Dict.keys acc ∨ x ∈ Dict.keys files → x ∈ Dict.keys loaded
  | [], acc, loaded, h, x, hx => by
    simp only [loadTranslationsFiles, Except.ok.injEq] at h; subst h; simpa using hx
  | (c, file) :: rest, acc, loaded, h, x, hx => by
    simp only [loadTranslationsFiles] at h
    split at h
    · cases h
    · refine keys_loadTranslationsFiles h x ?_
      simp only [Dict.keys_cons, List.mem_cons] at hx
      rcases hx with hx | hx | hx
      exacts [.inl (Dict.mem_keys_setItem.2 (.inl hx)), .inl (Dict.mem_keys_setItem.2 (.inr hx)),
        .inr hx]
    · cases h

@[simp] theorem loop_snd (pending : List String) (files : List (String × String)) (hub : Hub) :
    (loop language components pending files hub).2 = hub := by
  cases pending with
  | cons => rfl
  | nil => simp only [loop]; split_ifs <;> rfl

/-- What one resumption can do: raise, or go on from the one suspension point the answer fits,
writing the cache only where the code does. -/
theorem resume_cases {c c' : Call} {a : Answer} (h : resume hub c a = some (c', hub')) :
    (∃ e, c' = .failed e ∧ hub' = hub) ∨
    (∃ language components missing, c = .awaitFlows language ∧ a = .flows components missing ∧
      (c', hub') = loop language components missing [] hub) ∨
    (∃ language components comp pending files i, c = .awaitPath language components comp pending files ∧
      componentTranslationFile comp language i = .ok none ∧
      (c', hub') = loop language components pending files
        (hub.modifyCache language fun cache => Dict.setItem cache comp [])) ∨
    (∃ language components comp pending files i path,
      c = .awaitPath language components comp pending files ∧
      componentTranslationFile comp language i = .ok (some path) ∧
      (c', hub') = loop language components pending (Dict.setItem files comp path) hub) ∨
    (∃ language components files loadJson loaded, c = .awaitLoad language components files ∧
      loadTranslationsFiles loadJson files [] = .ok loaded ∧
      (c', hub') = finish language components
        (hub.modifyCache language fun cache => Dict.update cache loaded)) := by
  have failed : ∀ e, some (Call.failed e, hub) = some (c', hub') → ∃ e, c' = .failed e ∧ hub' = hub :=
    fun e he => by simp only [Option.some.injEq, Prod.mk.injEq] at he; exact ⟨e, he.1.symm, he.2.symm⟩
  cases c <;> cases a <;> simp only [resume, reduceCtorEq] at h
  case awaitFlows.flows language components missing =>
    exact .inr (.inl ⟨_, _, _, rfl, rfl, (Option.some.inj h).symm⟩)
  case awaitPath.integration language components comp pending files i =>
    split at h
    · exact .inl (failed _ h)
    · exact .inr (.inr (.inl ⟨_, _, _, _, _, i, rfl, ‹_›, (Option.some.inj h).symm⟩))
    · exact .inr (.inr (.inr (.inl ⟨_, _, _, _, _, i, _, rfl, ‹_›, (Option.some.inj h).symm⟩)))
  case awaitLoad.loaded language components files loadJson =>
    split at h
    · exact .inl (failed _ h)
    · exact .inr (.inr (.inr (.inr ⟨_, _, _, loadJson, _, rfl, ‹_›, (Option.some.inj h).symm⟩)))
  all_goals exact .inl (failed _ h)

theorem keys_setItem_sub (c : String) (v : α) (d : List (String × α)) :
    ∀ x ∈ Dict.keys d, x ∈ Dict.keys (Dict.setItem d c v) :=
  fun _ hx => Dict.mem_keys_setItem.2 (.inl hx)

theorem keys_update_sub (e : List (String × α)) (d : List (String × α)) :
    ∀ x ∈ Dict.keys d, x ∈ Dict.keys (Dict.update d e) :=
  fun _ hx => Dict.mem_keys_foldl_assign.2 (.inl hx)

theorem resume_le {c c' : Call} {a : Answer} (h : resume hub c a = some (c', hub')) : hub ≤ hub' := by
  rcases resume_cases h with ⟨_, -, rfl⟩ | ⟨_, _, _, -, -, he⟩ | ⟨_, _, _, _, _, _, -, -, he⟩ |
    ⟨_, _, _, _, _, _, _, -, -, he⟩ | ⟨_, _, _, _, _, -, -, he⟩
  · exact Hub.le_refl _
  all_goals simp only [Prod.ext_iff, loop_snd, finish] at he; rw [he.2]
  · exact Hub.le_refl _
  · exact Hub.le_modifyCache _ _ fun _ => keys_setItem_sub _ _ _
  · exact Hub.le_refl _
  · exact Hub.le_modifyCache _ _ fun _ => keys_update_sub _ _

theorem resume_inv {c c' : Call} {a : Answer} (h : resume hub c a = some (c', hub'))
    (hfit : a.Fits hub c) (hc : CallInv hub c) : CallInv hub' c' := by
  rcases resume_cases h with ⟨_, rfl, -⟩ | ⟨language, components, missing, rfl, rfl, he⟩ |
    ⟨language, components, comp, pending, files, i, rfl, -, he⟩ |
    ⟨language, components, comp, pending, files, i, path, rfl, -, he⟩ |
    ⟨language, components, files, loadJson, loaded, rfl, hload, he⟩
  · trivial
  · simp only [Prod.ext_iff, loop_snd] at he
    obtain ⟨rfl, h2⟩ := he; rw [h2]
    refine (loop_inv hc fun x hx => ?_).2
    by_cases hk : x ∈ Dict.keys (hub.cache language)
    · exact .inl hk
    · exact .inr (.inl (hfit.2.mem_iff.2 (List.mem_filter.2 ⟨hx, by simpa using hk⟩)))
  · simp only [Prod.ext_iff, loop_snd] at he
    obtain ⟨rfl, rfl⟩ := he
    have hle : hub ≤ hub.modifyCache language fun cache => Dict.setItem cache comp [] :=
      Hub.le_modifyCache _ _ fun _ => keys_setItem_sub _ _ _
    refine (loop_inv (hle.languages _ hc.1) fun x hx => ?_).2
    have hx := hc.2 x hx; simp only [List.mem_cons] at hx
    rcases hx with hk | (rfl | hk) | hk
    · exact .inl (hle.keys _ _ hk)
    · exact .inl (by simp [Hub.cache_modifyCache _ _ _ hc.1])
    · exact .inr (.inl hk)
    · exact .inr (.inr hk)
  · simp only [Prod.ext_iff, loop_snd] at he
    obtain ⟨rfl, h2⟩ := he; rw [h2]
    refine (loop_inv hc.1 fun x hx => ?_).2
    have hx := hc.2 x hx; simp only [List.mem_cons] at hx
    rcases hx with hk | (rfl | hk) | hk
    · exact .inl hk
    · exact .inr (.inr (Dict.mem_keys_setItem.2 (.inr rfl)))
    · exact .inr (.inl hk)
    · exact .inr (.inr (keys_setItem_sub _ _ _ _ hk))
  · simp only [Prod.ext_iff, finish] at he
    obtain ⟨rfl, rfl⟩ := he
    refine finish_inv fun x hx => .inl ?_
    rw [Hub.cache_modifyCache _ _ _ hc.1, if_pos rfl, Dict.update_eq_foldl,
      Dict.mem_keys_foldl_assign]
    rcases hc.2 x hx with hk | hk | hk
    · exact .inl hk
    · simp at hk
    · exact .inr (keys_loadTranslationsFiles hload x (.inr hk))

theorem Step.le {s s' : Sys} : Step s s' → s.hub ≤ s'.hub
  | .spawn _ _ => Hub.le_ensureCache _
  | .resume _ _ _ _ _ _ h _ => resume_le h

/-- Every step keeps the invariant of every call. -/
theorem Step.inv {s s' : Sys} (hs : Inv s) (hst : Step s s') : Inv s' := by
  cases hst with
  | spawn language =>
    intro c hc
    rcases List.mem_append.1 hc with hc | hc
    · exact (hs c hc).mono (Hub.le_ensureCache language)
    · rw [List.mem_singleton.1 hc]; exact Hub.mem_languages_ensureCache language
  | resume i hi a c hub h hfit =>
    intro c' hc'
    rcases List.mem_or_eq_of_mem_set hc' with hc' | rfl
    · exact (hs c' hc').mono (resume_le h)
    · exact resume_inv h hfit (hs _ (List.get_mem _ _ _))

theorem Reachable.inv {s : Sys} (h : Reachable s) : Inv s := by
  induction h with
  | init => intro c hc; simp at hc
  | step _ hst ih => exact hst.inv ih

/-- Over any run the cache only gains keys, and a call that reached `build_resources` found every
component of its set in the cache, so the lookup `translation_cache[component]` did not fail. -/
theorem translationCache_grows_and_covers {s : Sys} (hs : Reachable s) :
    (∀ s', Relation.ReflTransGen Step s s' → s.hub ≤ s'.hub) ∧
    ∀ c ∈ s.calls, ∀ language components result, c = .done language components result →
      (∀ x ∈ components, x ∈ Dict.keys (s.hub.cache language)) ∧ ∃ r, result = .ok r := by
  refine ⟨fun s' hrun => ?_, fun c hc language components result hdone => ?_⟩
  · induction hrun with
    | refl => exact Hub.le_refl _
    | tail _ hst ih => exact Hub.le_trans ih hst.le
  · have := hs.inv c hc
    subst hdone
    exact ⟨fun x hx => by simpa using this.1 x hx, this.2⟩

/-- One call for `en` whose `sensor` is already cached: started, then resumed with the component
set `{sensor}` and no missing component, it builds at once. -/
theorem translationCache_cached_sensor_call :
    (∀ s', Relation.ReflTransGen Step
        ⟨⟨some [("en", [("sensor", [("state", .dict [("on", .str "On")])])])]⟩,
          [.done "en" ["sensor"] (.ok [("component.sensor.state.on", .str "On")])]⟩ s' →
      (⟨some [("en", [("sensor", [("state", .dict [("on", .str "On")])])])]⟩ : Hub) ≤ s'.hub) ∧
    ∀ c ∈ [Call.done "en" ["sensor"] (.ok [("component.sensor.state.on", .str "On")])],
      ∀ language components result, c = .done language components result →
      (∀ x ∈ components, x ∈ Dict.keys
        (Hub.cache ⟨some [("en", [("sensor", [("state", .dict [("on", .str "On")])])])]⟩ language)) ∧
      ∃ r, result = .ok r :=
  translationCache_grows_and_covers
    (.step (.step (.init ⟨some [("en", [("sensor", [("state", .dict [("on", .str "On")])])])]⟩)
      (.spawn _ "en")) (.resume _ 0 (by decide) (.flows ["sensor"] []) _ _ rfl ⟨by decide, by decide⟩))

/-! ### Every call returns or raises -/

/-- `c'` is what the call `c` becomes when it resumes with some answer. -/
def Call.Resumes (c' c : Call) : Prop := ∃ hub a hub', resume hub c a = some (c', hub')

section Termination

variable (language : String) (components : List String)

theorem acc_done (result : Except PyException (List (String × Value))) :
    Acc Call.Resumes (.done language components result) :=
  ⟨_, fun _ ⟨_, a, _, h⟩ => by cases a <;> cases h⟩

theorem acc_failed (e : PyException) : Acc Call.Resumes (.failed e) :=
  ⟨_, fun _ ⟨_, a, _, h⟩ => by cases a <;> cases h⟩

theorem acc_finish (hub : Hub) : Acc Call.Resumes (finish language components hub).1 :=
  acc_done _ _ _

theorem acc_awaitLoad (files : List (String × String)) :
    Acc Call.Resumes (.awaitLoad language components files) := by
  refine ⟨_, fun c' ⟨hub, a, hub', h⟩ => ?_⟩
  rcases resume_cases h with ⟨e, rfl, -⟩ | ⟨_, _, _, hc, -⟩ | ⟨_, _, _, _, _, _, hc, -⟩ |
    ⟨_, _, _, _, _, _, _, hc, -⟩ | ⟨_, _, _, _, _, hc, -, he⟩
  · exact acc_failed e
  · cases hc
  · cases hc
  · cases hc
  · cases hc; rw [show c' = _ from congrArg Prod.fst he]; exact acc_finish _ _ _

theorem acc_loop (pending : List String) :
    ∀ files hub, Acc Call.Resumes (loop language components pending files hub).1 := by
  induction pending with
  | nil =>
    intro files hub
    simp only [loop]
    split_ifs
    · exact acc_finish _ _ _
    · exact acc_awaitLoad _ _ _
  | cons c pending ih =>
    intro files hub
    refine ⟨_, fun c' ⟨hub₀, a, hub', h⟩ => ?_⟩
    rcases resume_cases h with ⟨e, rfl, -⟩ | ⟨_, _, _, hc, -⟩ | ⟨_, _, _, _, _, _, hc, -, he⟩ |
      ⟨_, _, _, _, _, _, _, hc, -, he⟩ | ⟨_, _, _, _, _, hc, -⟩
    · exact acc_failed e
    · cases hc
    · cases hc; rw [show c' = _ from congrArg Prod.fst he]; exact ih _ _
    · cases hc; rw [show c' = _ from congrArg Prod.fst he]; exact ih _ _
    · cases hc

theorem acc_awaitFlows : Acc Call.Resumes (.awaitFlows language) := by
  refine ⟨_, fun c' ⟨hub, a, hub', h⟩ => ?_⟩
  rcases resume_cases h with ⟨e, rfl, -⟩ | ⟨_, _, _, hc, -, he⟩ | ⟨_, _, _, _, _, _, hc, -⟩ |
    ⟨_, _, _, _, _, _, _, hc, -⟩ | ⟨_, _, _, _, _, hc, -⟩
  · exact acc_failed e
  · cases hc; rw [show c' = _ from congrArg Prod.fst he]; exact acc_loop _ _ _ _ _
  · cases hc
  · cases hc
  · cases hc

theorem loop_ne_failed (pending : List String) (files : List (String × String)) (hub : Hub)
    (e : PyException) : (loop language components pending files hub).1 ≠ .failed e := by
  cases pending with
  | cons => nofun
  | nil => simp only [loop]; split_ifs <;> nofun

end Termination

theorem componentTranslationFile_ok (component language : String) (i : Integration) :
    ∃ path, componentTranslationFile component language (some i) = .ok path := by
  simp only [componentTranslationFile]
  split_ifs <;> exact ⟨_, rfl⟩

theorem loadTranslationsFiles_dicts :
    ∀ (files : List (String × String)) (loaded : Cache),
      ∃ r, loadTranslationsFiles (fun _ => .ok (.dict [])) files loaded = .ok r
  | [], loaded => ⟨loaded, rfl⟩
  | (_, _) :: files, _ => loadTranslationsFiles_dicts files _

/-- Every call of `async_get_component_resources` returns or raises after finitely many
resumptions, whatever the answers of the coroutines it awaits; and a call that has neither
returned nor raised can always be resumed with an answer that fits and does not make it raise. -/
theorem call_returns_or_raises :
    WellFounded Call.Resumes ∧
    ∀ hub c, (∀ language components result, c ≠ .done language components result) →
      (∀ e, c ≠ .failed e) →
      ∃ a c' hub', a.Fits hub c ∧ resume hub c a = some (c', hub') ∧ ∀ e, c' ≠ .failed e := by
  refine ⟨⟨fun c => ?_⟩, fun hub c hdone hfailed => ?_⟩
  · cases c with
    | awaitFlows language => exact acc_awaitFlows language
    | awaitPath language components c pending files => exact acc_loop language components (c :: pending) files ⟨none⟩
    | awaitLoad language components files => exact acc_awaitLoad _ _ _
    | done language components result => exact acc_done _ _ _
    | failed e => exact acc_failed e
  · cases c with
    | awaitFlows language =>
      exact ⟨.flows [] [], _, _, ⟨List.nodup_nil, by simp⟩, rfl, fun e h => by cases h⟩
    | awaitPath language components comp pending files =>
      obtain ⟨path, hpath⟩ := componentTranslationFile_ok comp language ⟨[]⟩
      refine ⟨.integration (some ⟨[]⟩), ?_⟩
      cases path with
      | none =>
        refine ⟨_, _, trivial, by simp only [resume, hpath]; rfl, ?_⟩
        exact loop_ne_failed _ _ _ _ _
      | some path =>
        refine ⟨_, _, trivial, by simp only [resume, hpath]; rfl, ?_⟩
        exact loop_ne_failed _ _ _ _ _
    | awaitLoad language components files =>
      obtain ⟨r, hr⟩ := loadTranslationsFiles_dicts files []
      exact ⟨.loaded fun _ => .ok (.dict []), _, _, trivial, by simp only [resume, hr]; rfl,
        fun e h => by cases h⟩
    | done language components result => exact absurd rfl (hdone language components result)
    | failed e => exact absurd rfl (hfailed e)

end OpenPeerPower
