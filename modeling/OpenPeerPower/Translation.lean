import OpenPeerPower.Intent

/-!
# `helpers/translation.py`

The translation helpers as the code computes them. A translation tree is the dict a
`.translations/<language>.json` file holds; the cache of one language maps each component to its
tree. `recursive_flatten` walks a tree in insertion order; `build_resources` groups the components
by domain with a shallow `dict.update`; `component_translation_file` and `load_translations_files`
are the two steps of `async_get_component_resources` that find and read the missing files;
`async_get_translations` merges the resources of a language over the English ones. The
interleaving of concurrent calls of `async_get_component_resources` is in `Loader`.
-/

namespace OpenPeerPower

/-- The translations of one language: component ↦ translation tree. -/
abbrev Cache := List (String × List (String × Value))

mutual
/-- One item of the loop of `recursive_flatten(prefix, data)`: a dict value is flattened under
`prefix + key + "."` and merged with `output.update`, any other value is assigned to
`prefix + key`. -/
def flattenValue (pre key : String) : Value → List (String × Value) → List (String × Value)
  | .dict value, output => Dict.update output (flattenItems (pre ++ key ++ ".") value [])
  | value, output => Dict.setItem output (pre ++ key) value
/-- The loop of `recursive_flatten(prefix, data)` over the items of `data`, in insertion order,
with the `output` built so far. -/
def flattenItems (pre : String) : List (String × Value) → List (String × Value) →
    List (String × Value)
  | [], output => output
  | (key, value) :: rest, output => flattenItems pre rest (flattenValue pre key value output)
end

/-- `recursive_flatten(prefix, data)`. -/
def recursiveFlatten (pre : String) (data : List (String × Value)) : List (String × Value) :=
  flattenItems pre data []

/-- `flatten(data)`. -/
def flatten (data : List (String × Value)) : List (String × Value) := recursiveFlatten "" data

/-- The integration `async_get_integration(opp, domain)` finds: the directory it lives in, as path
segments (its `file_path`). -/
structure Integration where
  filePath : List String
  deriving Repr, DecidableEq

/-- `str(path / seg / ...)`. -/
def pathStr (segments : List String) : String := "/".intercalate segments

/-- The part of a component name before the first `.`. -/
def beforeDot (component : String) : String := String.mk (component.data.takeWhile (· ≠ '.'))

/-- `component_translation_file(opp, component, language)`, once `async_get_integration` has
answered for `parts[-1]`: a platform `domain.platform` reads `<platform>/.translations/
<domain>.<language>.json`, a component `<component>/.translations/<language>.json`, and a
component that is a single file has no translations. -/
def componentTranslationFile (component language : String) (integration : Option Integration) :
    Except PyException (Option String) :=
  let parts := component.splitOn "."
  let domain := parts.getLastD ""
  let isPlatform := parts.length = 2
  let first := parts.headD ""
  match integration with
  | none => .error (.assertionError domain)
  | some integration =>
    if isPlatform then
      .ok (some (pathStr (integration.filePath ++ [".translations", s!"{first}.{language}.json"])))
    else if integration.filePath.getLastD "" ≠ domain then .ok none
    else .ok (some (pathStr (integration.filePath ++ [".translations", s!"{language}.json"])))

/-- `load_translations_files(translation_files)`: `load_json` on every file, each of which must
hold a dict. -/
def loadTranslationsFiles (loadJson : String → Except PyException Value) :
    List (String × String) → Cache → Except PyException Cache
  | [], loaded => .ok loaded
  | (component, file) :: rest, loaded =>
    match loadJson file with
    | .error e => .error e
    | .ok (.dict tree) => loadTranslationsFiles loadJson rest (Dict.setItem loaded component tree)
    | .ok _ => .error (.assertionError "")

/-- The domain a component's translations are returned under: the component itself, or the part
of `domain.platform` before the first `.`. -/
def componentDomain (component : String) : String :=
  if '.' ∉ component.data then component else beforeDot component

/-- `build_resources(translation_cache, components)`: every component's tree is merged into its
domain's resources with a shallow `dict.update`; a component missing from the cache raises
`KeyError`. -/
def buildResources (translationCache : Cache) :
    List String → Cache → Except PyException Cache
  | [], resources => .ok resources
  | component :: rest, resources =>
    let domain := componentDomain component
    let resources :=
      if domain ∈ Dict.keys resources then resources else Dict.setItem resources domain []
    match Dict.get? translationCache component with
    | none => .error (.keyError component)
    | some tree =>
      buildResources translationCache rest
        (Dict.setItem resources domain (Dict.update ((Dict.get? resources domain).getD []) tree))

/-- What `async_get_component_resources` returns once the cache is filled:
`flatten({"component": build_resources(translation_cache, components)})`. -/
def componentResources (translationCache : Cache) (components : List String) :
    Except PyException (List (String × Value)) :=
  (buildResources translationCache components []).map fun resources =>
    flatten [("component", .dict (resources.map fun (d, tree) => (d, .dict tree)))]

/-- `async_get_translations(opp, language)`, given what the awaited
`async_get_component_resources(opp, language)` returns for each language: for a language other
than `en` the English resources are the fallback, `{**base_resources, **resources}`. -/
def asyncGetTranslations (getResources : String → Except PyException (List (String × Value)))
    (language : String) : Except PyException (List (String × Value)) := do
  let resources ← getResources language
  if language ≠ "en" then
    let baseResources ← getResources "en"
    return Dict.update (Dict.update [] baseResources) resources
  else
    return resources

end OpenPeerPower
