import OpenPeerPower.Translation

/-!
# Concurrent calls of `async_get_component_resources`

Every call of `async_get_component_resources(opp, language)` is a coroutine that suspends at its
`await`s: on `async_get_config_flows`, on `component_translation_file` for each missing component
(which awaits `async_get_integration`), and on the executor job that runs
`load_translations_files`. Between two suspensions it runs without interruption. A `Sys` is the
shared `opp.data[TRANSLATION_STRING_CACHE]` and every call started so far, each at its
suspension point with its local variables; a `Step` starts a call or runs one call to its next
suspension, given what the awaited coroutine answered (`Answer`). Any number of calls, for any
languages, interleave in any order.

A call keeps a reference `translation_cache` to the dict of its language. That dict is created
when the call starts, if absent, and never replaced, so the model reads and writes it through the
language (`Hub.cache`, `Hub.modifyCache`). The executor job only reads the call's own
`missing_files`, so its result is computed when the call resumes.
-/

namespace OpenPeerPower

/-- The part of `opp.data` the loader uses: `opp.data[TRANSLATION_STRING_CACHE]`, the cache of
each language, absent before the first call. -/
structure Hub where
  translationStringCache : Option (List (String × Cache))

namespace Hub

/-- The languages that have a cache. -/
def languages (hub : Hub) : List String := Dict.keys (hub.translationStringCache.getD [])

/-- `opp.data[TRANSLATION_STRING_CACHE][language]`. -/
def cache (hub : Hub) (language : String) : Cache :=
  (Dict.get? (hub.translationStringCache.getD []) language).getD []

/-- The first lines of `async_get_component_resources`: create the dict of caches and the cache
of `language` if absent. -/
def ensureCache (hub : Hub) (language : String) : Hub :=
  let caches := hub.translationStringCache.getD []
  ⟨some (if language ∈ Dict.keys caches then caches else Dict.setItem caches language [])⟩

/-- A write to the cache of `language` through a call's `translation_cache`. -/
def modifyCache (hub : Hub) (language : String) (f : Cache → Cache) : Hub :=
  ⟨hub.translationStringCache.map fun caches => Dict.setItem caches language (f (hub.cache language))⟩

end Hub

/-- A call of `async_get_component_resources(opp, language)` at a suspension point, with the
locals it still needs. `awaitPath` waits on `component_translation_file` for `component`, with
`pending` the rest of the iteration over `missing_components`; `done` holds what the call
returned, `failed` what it raised. -/
inductive Call where
  | awaitFlows (language : String)
  | awaitPath (language : String) (components : List String) (component : String)
      (pending : List String) (missingFiles : List (String × String))
  | awaitLoad (language : String) (components : List String) (missingFiles : List (String × String))
  | done (language : String) (components : List String)
      (result : Except PyException (List (String × Value)))
  | failed (e : PyException)

/-- What the awaited coroutine answered: `flows` is the set
`opp.config.components | await async_get_config_flows(opp)` in its iteration order together with
the iteration order of `missing_components`; `integration` is what `async_get_integration`
returned; `loaded` is what `load_json` gives for each file; `raise` is any exception. -/
inductive Answer where
  | flows (components missing : List String)
  | integration (i : Option Integration)
  | loaded (loadJson : String → Except PyException Value)
  | raise (e : PyException)

/-- `resources = build_resources(translation_cache, components)` and the return of the flattened
resources. -/
def finish (language : String) (components : List String) (hub : Hub) : Call × Hub :=
  (.done language components (componentResources (hub.cache language) components), hub)

/-- The loop over the missing components and what follows it: the next component suspends in
`component_translation_file`; after the last, the call suspends on the executor job if any file
is missing, and otherwise builds its resources at once. -/
def loop (language : String) (components : List String) :
    List String → List (String × String) → Hub → Call × Hub
  | c :: pending, files, hub => (.awaitPath language components c pending files, hub)
  | [], files, hub =>
    if files = [] then finish language components hub else (.awaitLoad language components files, hub)

/-- Run a call from its suspension point to the next one, given the answer of the coroutine it
awaits; `none` when the answer does not fit the suspension point or the call has returned. -/
def resume (hub : Hub) : Call → Answer → Option (Call × Hub)
  | .awaitFlows language, .flows components missing => some (loop language components missing [] hub)
  | .awaitPath language components c pending files, .integration i =>
    match componentTranslationFile c language i with
    | .error e => some (.failed e, hub)
    | .ok none =>
      some (loop language components pending files
        (hub.modifyCache language fun cache => Dict.setItem cache c []))
    | .ok (some path) => some (loop language components pending (Dict.setItem files c path) hub)
  | .awaitLoad language components files, .loaded loadJson =>
    match loadTranslationsFiles loadJson files [] with
    | .error e => some (.failed e, hub)
    | .ok loaded =>
      some (finish language components (hub.modifyCache language fun cache => Dict.update cache loaded))
  | .awaitFlows _, .raise e | .awaitPath .., .raise e | .awaitLoad .., .raise e => some (.failed e, hub)
  | _, _ => none

/-- An answer the code can receive: `components` is a set, and `missing_components` is the set of
its elements that the cache lacks at that moment. -/
def Answer.Fits (hub : Hub) : Call → Answer → Prop
  | .awaitFlows language, .flows components missing =>
    components.Nodup ∧ missing.Perm (components.filter fun c => c ∉ Dict.keys (hub.cache language))
  | _, _ => True

/-- The shared cache and every call started so far. -/
structure Sys where
  hub : Hub
  calls : List Call

/-- One step of the event loop: a new call runs to its first `await`, or a suspended call resumes
with an answer and runs to its next. -/
inductive Step : Sys → Sys → Prop
  | spawn (s : Sys) (language : String) :
      Step s ⟨s.hub.ensureCache language, s.calls ++ [.awaitFlows language]⟩
  | resume (s : Sys) (i : Nat) (hi : i < s.calls.length) (a : Answer) (c : Call) (hub : Hub) :
      resume s.hub (s.calls.get ⟨i, hi⟩) a = some (c, hub) → a.Fits s.hub (s.calls.get ⟨i, hi⟩) →
      Step s ⟨hub, s.calls.set i c⟩

/-- The states reachable from a hub with no call in flight. -/
inductive Reachable : Sys → Prop
  | init (hub : Hub) : Reachable ⟨hub, []⟩
  | step {s s' : Sys} : Reachable s → Step s s' → Reachable s'

end OpenPeerPower
