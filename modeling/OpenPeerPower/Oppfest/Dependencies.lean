import OpenPeerPower.Intent

/-!
# `script/oppfest/dependencies.py`: the dependency linter

`oppfest` checks every integration of the tree. This plugin parses each Python file of an
integration, collects the integrations the file refers to (`ImportCollector`: imports from
`openpeerpower.components`, and attribute chains `opp.components.<domain>`), drops the references
the integration may make (itself, its manifest's `dependencies` and `after_dependencies`, the
components always set up, the discovery integrations its manifest asks for, the whitelisted pairs,
and platforms), and reports each remaining one once, in sorted order. It then reports each
declared dependency that is not an integration.

A syntax tree is given as the nodes `ImportCollector` tells apart (`ImportFrom`, `Import`,
`Attribute`, `Name`) and one constructor for every other node class, with its child nodes in the
order `ast.iter_fields` gives them, which is all `generic_visit` reads. The file system is given by
what `glob`, `is_file`, `is_dir` and `ast.parse` answer; a file `ast.parse` rejects raises
`SyntaxError` out of `validate`. Python sets are lists without repetition in some order: `sorted`
makes the order unobservable.
-/

namespace OpenPeerPower

namespace Oppfest

/-- The nodes of a Python syntax tree, as `ImportCollector` tells them apart. -/
inductive Node where
  /-- `ImportFrom`: `from <module> import <names>` (`module` is `None` in `from . import x`). -/
  | importFrom (module : Option String) (names : List String)
  /-- `Import`: `import <names>`. -/
  | importModules (names : List String)
  /-- `Attribute`: `<value>.<attr>`. -/
  | attribute (value : Node) (attr : String)
  /-- `Name`: the variable `<id>`. -/
  | name (id : String)
  /-- Any other node, with its child nodes in field order. -/
  | node (children : List Node)
  deriving Repr

/-- The prefix of the modules of the integrations. -/
def componentsPrefix : String := "openpeerpower.components."

/-- `module.split(".")[2]`: the integration of a module `openpeerpower.components.<domain>...`. -/
def componentOf (module : String) : String := (module.splitOn ".").getD 2 ""

/-- `set.add(reference)`. -/
def addRef (refs : List String) (r : String) : List String := if r ∈ refs then refs else refs ++ [r]

/-- The test of `visit_Attribute` on `node.value`: `opp.components` or `<expr>.opp.components`. -/
def isOppComponents : Node → Bool
  | .attribute value attr =>
    attr == "components" &&
      match value with
      | .name id => id == "opp"
      | .attribute _ a => a == "opp"
      | _ => false
  | _ => false

/-- `visit_Import` on one imported name. -/
def importStep (refs : List String) (n : String) : List String :=
  if n.startsWith componentsPrefix then addRef refs (componentOf n) else refs

mutual
/-- `ImportCollector.visit(node)`, adding to the set of the file being visited. `visit_ImportFrom`,
`visit_Import` and `visit_Attribute` when it records do not visit the node's children; every
other node is visited by `generic_visit`. -/
def visit : Node → List String → List String
  | .importFrom none _, refs => refs
  | .importFrom (some module) names, refs =>
    if module.startsWith componentsPrefix then addRef refs (componentOf module)
    else if module = "openpeerpower.components" then names.foldl addRef refs
    else refs
  | .importModules names, refs => names.foldl importStep refs
  | .attribute value attr, refs =>
    if isOppComponents value then addRef refs attr else visit value refs
  | .name _, refs => refs
  | .node children, refs => visitAll children refs
/-- `generic_visit` over child nodes, in order. -/
def visitAll : List Node → List String → List String
  | [], refs => refs
  | c :: cs, refs => visitAll cs (visit c refs)
end

/-- A path relative to the integration's directory, by its parts (`path.parts`): there is at
least one. -/
structure RelPath where
  first : String
  rest : List String
  deriving Repr, DecidableEq

/-- `PurePath.stem` of a file name: the name without its last suffix, where a suffix starts at a
`.` that is neither the first nor the last character. -/
def stem (name : String) : String :=
  let cs := name.toList
  let j := cs.reverse.indexOf '.'
  if 0 < j ∧ j + 1 < cs.length then String.mk (cs.take (cs.length - 1 - j)) else name

/-- The directory a file's references are filed under: `climate.py` as `climate`,
`climate/__init__.py` as `climate`. -/
def RelPath.curFilDir (p : RelPath) : String := if p.rest = [] then stem p.first else p.first

/-- An entry of `integration.path.glob("**/*.py")`: its path, `fil.is_file()`, and what
`ast.parse(fil.read_text())` returns (`none` when it raises `SyntaxError`). -/
structure PyFile where
  path : RelPath
  isFile : Bool
  tree : Option Node
  deriving Repr

/-- The manifest keys the linter reads: `dependencies` and `after_dependencies` (each `none` when
the key is missing), and the other keys. -/
structure Manifest where
  dependencies : Option (List String)
  afterDependencies : Option (List String)
  otherKeys : List String
  deriving Repr, DecidableEq

/-- The keys of the manifest (`check in integration.manifest`). -/
def Manifest.keys (m : Manifest) : List String :=
  (m.dependencies.map fun _ => "dependencies").toList ++
    (m.afterDependencies.map fun _ => "after_dependencies").toList ++ m.otherKeys

/-- An integration of the tree (`script/oppfest/model.py`): its domain, manifest (`None` when it
has none), Python files, what `is_file` and `is_dir` answer for a name in its directory, and the
errors reported on it, as `(plugin, message)`. -/
structure Integration where
  domain : String
  manifest : Option Manifest
  files : List PyFile
  isFile : String → Bool
  isDir : String → Bool
  errors : List (String × String)

/-- `integration.add_error(plugin, message)`. -/
def Integration.addError (i : Integration) (plugin message : String) : Integration :=
  { i with errors := i.errors ++ [(plugin, message)] }

/-- `ALLOWED_USED_COMPONENTS`: the components every integration may refer to without declaring
them. -/
def ALLOWED_USED_COMPONENTS : List String :=
  ["persistent_notification", "conversation", "frontend", "oppio", "system_health",
    "websocket_api", "automation", "device_automation", "zone", "openpeerpower", "system_log",
    "person", "mjpeg", "stream"]

/-- An entry of `IGNORE_VIOLATIONS`, which holds pairs `(domain, reference)` and domains. -/
inductive Ignored where
  | pair (domain reference : String)
  | domain (domain : String)
  deriving Repr, DecidableEq

/-- `IGNORE_VIOLATIONS`: the references, and the domains, the linter does not report. -/
def IGNORE_VIOLATIONS : List Ignored :=
  [.pair "sql" "recorder", .pair "openalpr_cloud" "openalpr_local", .pair "lutron_caseta" "lutron",
    .pair "ffmpeg_noise" "ffmpeg_motion", .pair "demo" "manual", .pair "demo" "openalpr_local",
    .pair "websocket_api" "devcon", .pair "websocket_api" "shopping_list", .domain "homekit",
    .domain "alexa", .domain "google_assistant", .domain "emulated_hue", .domain "prometheus",
    .domain "conversation", .domain "logbook", .domain "mobile_app", .domain "pvoutput",
    .domain "dwd_weather_warnings"]

section Linter

-- `DISCOVERY_INTEGRATIONS` of `openpeerpower.requirements`: each discovery integration with the
-- manifest keys that ask for it.
variable (discovery : List (String × List String))

/-- `ImportCollector.collect()`: the set of references of every file `glob` yields, by path. -/
def collect : List PyFile → Except PyException (List (RelPath × List String))
  | [] => .ok []
  | f :: fs =>
    if f.isFile then
      match f.tree with
      | none => .error (.exception "SyntaxError")
      | some t => do
        let rest ← collect fs
        return (f.path, visit t []) :: rest
    else collect fs

/-- `calc_allowed_references(integration)`. -/
def calcAllowedReferences (i : Integration) : Except PyException (List String) :=
  match i.manifest with
  | none => .error (.typeError "\x27NoneType\x27 object is not subscriptable")
  | some m =>
    match m.dependencies with
    | none => .error (.keyError "dependencies")
    | some deps =>
      .ok (discovery.foldl (fun allowed (checkDomain, toCheck) =>
          if toCheck.any (· ∈ m.keys) then addRef allowed checkDomain else allowed)
        (ALLOWED_USED_COMPONENTS ++ deps ++ m.afterDependencies.getD []))

/-- The tests of the inner loop of `find_non_referenced_integrations` that `continue` past a
reference `ref` of a file filed under `curFilDir`, in the order of the source. -/
def skips (domains : List String) (i : Integration) (allowed : List String) (curFilDir ref : String) :
    Bool :=
  let isPlatformOtherIntegration := domains.contains curFilDir
  ref == i.domain || allowed.contains ref || IGNORE_VIOLATIONS.contains (.pair i.domain ref) ||
    (isPlatformOtherIntegration && curFilDir == ref) ||
    (!isPlatformOtherIntegration && (i.isFile (ref ++ ".py") || i.isDir ref))

/-- `find_non_referenced_integrations(integrations, integration, references)`; `domains` are the
keys of `integrations`. -/
def findNonReferencedIntegrations (domains : List String) (i : Integration)
    (references : List (RelPath × List String)) : Except PyException (List String) := do
  let allowed ← calcAllowedReferences discovery i
  return references.foldl (fun referenced (path, refs) =>
      refs.foldl (fun referenced ref =>
        if skips domains i allowed path.curFilDir ref then referenced else addRef referenced ref)
        referenced)
    []

/-- The message for a component used but not declared. -/
def usingMessage (domain : String) : String :=
  s!"Using component {domain} but it\x27s not in \x27dependencies\x27 or \x27after_dependencies\x27"

/-- The message for a declared dependency that is not an integration. -/
def missingMessage (dep : String) : String := s!"Dependency {dep} does not exist"

/-- The comparison of `sorted`, which compares with `<` only: `a` stays before `b` unless
`b < a`, in the order of the code points (`String.decLt`). -/
def keepsOrder (a b : String) : Bool := !(String.decLt b a).decide

/-- `sorted(...)` on a set of strings, a stable sort. -/
def sorted (l : List String) : List String := l.mergeSort keepsOrder

/-- `validate_dependencies(integrations, integration)`. -/
def validateDependencies (domains : List String) (i : Integration) : Except PyException Integration :=
  if IGNORE_VIOLATIONS.contains (.domain i.domain) then .ok i
  else do
    let referenced ← collect i.files
    let found ← findNonReferencedIntegrations discovery domains i referenced
    return (sorted found).foldl (fun i d => i.addError "dependencies" (usingMessage d)) i

/-- One iteration of the loop of `validate(integrations, config)`. -/
def validateIntegration (domains : List String) (i : Integration) : Except PyException Integration :=
  match i.manifest with
  | none => .ok i
  | some m =>
    if m.keys = [] then .ok i
    else do
      let i ← validateDependencies discovery domains i
      match m.dependencies with
      | none => .error (.keyError "dependencies")
      | some deps =>
        return deps.foldl (fun i dep =>
          if dep ∈ domains then i else i.addError "dependencies" (missingMessage dep)) i

/-- `validate(integrations, config)`: every integration in turn, each seeing the domains of all;
an exception stops the run. -/
def validate (integrations : List (String × Integration)) :
    Except PyException (List (String × Integration)) :=
  integrations.mapM fun (d, i) => do
    let i ← validateIntegration discovery (integrations.map Prod.fst) i
    return (d, i)

end Linter

end Oppfest

end OpenPeerPower
