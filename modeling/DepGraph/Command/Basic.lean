/-
  DepGraph — commands.

  The command line names a command, which may have options and a target:
  `graph` draws the graph of the target, `check` looks for cycles in it,
  `languages` and `formats` list what there is.

  * `GraphOption`: the options of `graph` and `check`.
  * `GraphRequest`: the options that are given, and the target.
  * `GraphRequest.layer`: what the options set, over what a file sets.
  * `Command`: the commands; `Command.ofArguments`: the command of a command
    line, or why it is none.
-/
import DepGraph.Command.Arguments
import DepGraph.Settings.Config

namespace DepGraph

/-! ## Options -/

/-- The options of the commands that make a graph. -/
inductive GraphOption
  | language
  | inputFilter
  | pathMapping
  | keepAuxiliary
  | excludeExternal
  | resultFilter
  | rootFilter
  | start
  | depth
  | byPaths
  | strict
  | languageOption
  | cache
  | config
  | debug
  | format
  | output
  deriving DecidableEq, Repr

namespace GraphOption

/-- The options of `check`. -/
def forCheck : List GraphOption :=
  [language, inputFilter, pathMapping, keepAuxiliary, excludeExternal, resultFilter, rootFilter,
    start, depth, byPaths, strict, languageOption, cache, config, debug]

/-- The options of `graph`. -/
def forGraph : List GraphOption := forCheck ++ [format, output]

/-- The name of an option. -/
def long : GraphOption → String
  | language => "language"
  | inputFilter => "input-filter"
  | pathMapping => "path-mapping"
  | keepAuxiliary => "keep-auxiliary-folders"
  | excludeExternal => "exclude-external"
  | resultFilter => "result-filter"
  | rootFilter => "root-filter"
  | start => "prefix"
  | depth => "depth"
  | byPaths => "force-path-dependency"
  | strict => "strict"
  | languageOption => "option"
  | cache => "cache"
  | config => "config"
  | debug => "debug"
  | format => "format"
  | output => "output"

/-- The letter of an option. -/
def short? : GraphOption → Option Char
  | language => some 'l'
  | inputFilter => some 'i'
  | resultFilter => some 'r'
  | start => some 'p'
  | config => some 'c'
  | debug => some 'd'
  | format => some 'f'
  | output => some 'o'
  | _ => none

/-- An option has a value; the others are switches. -/
def takesValue : GraphOption → Bool
  | keepAuxiliary | excludeExternal | byPaths | strict | debug => false
  | _ => true

/-- The options of a command as a table. -/
def table (options : List GraphOption) : OptionTable GraphOption :=
  ⟨options, long, short?, takesValue⟩

end GraphOption

/-! ## What the options set -/

/-- The options that are given on a command line, and the target. -/
structure GraphRequest where
  given : List (GraphOption × Option String)
  target : Option String

namespace GraphRequest

/-- An option is given. -/
def has (r : GraphRequest) (o : GraphOption) : Bool := r.given.any (·.1 == o)

/-- All values of an option, in order. -/
def values (r : GraphRequest) (o : GraphOption) : List String :=
  r.given.filterMap fun e => if e.1 = o then e.2 else none

/-- The value of an option: of several, the last. -/
def value? (r : GraphRequest) (o : GraphOption) : Option String := (r.values o).getLast?

/-- The text that an option sets. -/
def text? (r : GraphRequest) (o : GraphOption) : Option Value :=
  (r.value? o).map fun s => .json (.string s)

/-- The texts that an option sets. -/
def texts? (r : GraphRequest) (o : GraphOption) : Option Value :=
  if r.has o then some (.json (.ofStrings (r.values o))) else none

/-- The path that an option sets. -/
def path? (r : GraphRequest) (o : GraphOption) : Option Value :=
  (r.value? o).map fun s => .path (Path.ofText s)

/-- What a switch sets. -/
def switch? (r : GraphRequest) (o : GraphOption) (b : Bool) : Option Value :=
  if r.has o then some (.json (.bool b)) else none

/-- The options of the language, laid over those that a file sets. -/
def languageOptions? (r : GraphRequest) (file : Layer) : Except Failure (Option Value) :=
  if r.has .languageOption then do
    let above ← (readOptions (r.values .languageOption)).mapError .invalidOption
    let below := (file.getD Setting.languageOptions.name (.json .null)).options
    return some (.json (.object (below.overlay above).entries))
  else .ok none

/-- The value that a command line gives to a setting, if it gives one;
  `options` are the options of the language. -/
def setting? (r : GraphRequest) (options : Option Value) : Setting → Option Value
  | .target => r.target.map fun s => .path (Path.ofText s)
  | .language => r.text? .language
  | .inputFilters => r.texts? .inputFilter
  | .pathMapping => r.texts? .pathMapping
  | .skipAuxiliary => r.switch? .keepAuxiliary false
  | .excludeExternal => r.switch? .excludeExternal true
  | .resultFilters => r.texts? .resultFilter
  | .rootFilters => r.texts? .rootFilter
  | .start => r.text? .start
  | .depth => r.text? .depth
  | .byPaths => r.switch? .byPaths true
  | .strict => r.switch? .strict true
  | .languageOptions => options
  | .outputFormat => r.text? .format
  | .outputFile => r.path? .output
  | .cacheFile => r.path? .cache
  | .debug => r.switch? .debug true

/-- What a command line sets, given what a file sets. -/
def layer (r : GraphRequest) (file : Layer) : Except Failure Layer := do
  let options ← r.languageOptions? file
  return OrderedMap.ofList (Setting.all.filterMap fun s =>
    (r.setting? options s).map fun v => (s.name, v))

/-- The layer of the configuration file that a command line names. -/
def fileLayer (r : GraphRequest) (ws : Workspace) : Except Failure Layer :=
  match r.value? .config with
  | some path => Config.load ws (Path.ofText path)
  | none => .ok ∅

/-- The values of all settings: those of the command line, else those of the
  configuration file, else the defaults. -/
def settings (r : GraphRequest) (ws : Workspace) : Except Failure Settings := do
  let file ← r.fileLayer ws
  let above ← r.layer file
  (file.cover above).settings.mapError .layer

end GraphRequest

/-! ## Commands -/

/-- What the program is asked to do. -/
inductive Command
  | version
  | languages
  | formats
  | graph (r : GraphRequest)
  | check (r : GraphRequest)

/-- Why a command line is no command. -/
inductive Rejection
  | usage
  /-- A path holds a null character. -/
  | nullCharacter
  deriving DecidableEq, Repr

namespace Command

/-- What a path must be. -/
inductive PathRule
  /-- Any file or folder that exists. -/
  | exists
  /-- A file that exists. -/
  | file
  /-- No folder. -/
  | noFolder
  deriving DecidableEq, Repr

/-- A path is what it must be. -/
def checkPath (ws : Workspace) (rule : PathRule) (path : String) : Except Rejection Unit :=
  if '\x00' ∈ path.toList then .error .nullCharacter
  else
    let found := match ws.locate path with
      | .ok place => ws.entry? place
      | .error _ => none
    let isAllowed := match rule, found with
      | .exists, some _ | .file, some (.file _) => true
      | .noFolder, none | .noFolder, some (.file _) => true
      | _, _ => false
    if isAllowed then .ok () else .error .usage

/-- The value of an option is what it must be. -/
def checkOption (ws : Workspace) (r : GraphRequest) (o : GraphOption) : Except Rejection Unit :=
  match o, r.value? o with
  | .language, some name => if (Language.ofName? name).isSome then .ok () else .error .usage
  | .cache, some path | .output, some path => checkPath ws .noFolder path
  | .config, some path => checkPath ws .file path
  | _, _ => .ok ()

/-- The options and the target of a command; the options are checked in the
  order in which they are given. -/
def readRequest (ws : Workspace) (options : List GraphOption) (args : List String) :
    Except Rejection GraphRequest :=
  match (GraphOption.table options).read? true args with
  | none => .error .usage
  | some a => do
    let r : GraphRequest := ⟨a.given, a.rest.head?⟩
    let _ ← (a.given.map (·.1)).eraseDups.mapM (checkOption ws r)
    match a.rest with
    | [] => .ok r
    | target :: more =>
      checkPath ws .exists target
      if more.isEmpty then .ok r else .error .usage

/-- The only option that stands before a command. -/
def versionTable : OptionTable Unit := ⟨[()], fun _ => "version", fun _ => none, fun _ => false⟩

/-- A command without options and arguments. -/
def bare (c : Command) (args : List String) : Except Rejection Command :=
  match (GraphOption.table []).read? true args with
  | some ⟨_, []⟩ => .ok c
  | _ => .error .usage

/-- A command by its name.  A name that is an option is read as one. -/
def ofName (ws : Workspace) (name : String) (args : List String) : Except Rejection Command :=
  match name with
  | "graph" => (readRequest ws GraphOption.forGraph args).map .graph
  | "check" => (readRequest ws GraphOption.forCheck args).map .check
  | "languages" => bare .languages args
  | "formats" => bare .formats args
  | name =>
    match versionTable.read? false (name :: args) with
    | some ⟨_ :: _, _⟩ => .ok .version
    | _ => .error .usage

/-- The command of a command line. -/
def ofArguments (ws : Workspace) (args : List String) : Except Rejection Command :=
  match versionTable.read? false args with
  | none => .error .usage
  | some ⟨_ :: _, _⟩ => .ok .version
  | some ⟨[], []⟩ => .error .usage
  | some ⟨[], name :: args⟩ => ofName ws name args

end Command

end DepGraph
