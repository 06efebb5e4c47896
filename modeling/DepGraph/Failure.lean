/-
  DepGraph — why a run fails.

  * `Failure`: the causes; `Failure.message` says them.
  * `Failure.isReported`: a cause that lies in what the run was asked to do.
    The others are faults of files at a bad moment.
-/
import DepGraph.Export.Format
import DepGraph.Filter
import DepGraph.Json.Checked
import DepGraph.Language.Basic
import DepGraph.Settings.Basic
import DepGraph.Workspace.Reading

namespace DepGraph

open DepGraph.Json DepGraph.Text

/-- Why a run fails. -/
inductive Failure
  | unknownLanguage (name : String)
  | unknownFormat (name : String)
  | invalidFilter (text : String) (cause : PatternError)
  /-- A depth that is none, as a literal. -/
  | invalidDepth (literal : String)
  | invalidMapping (text : String)
  | invalidOption (text : String)
  | layer (fault : LayerFault)
  | missingTarget (path : String)
  /-- A configuration file cannot be opened. -/
  | unreadableConfig (cause : Fault) (path : String)
  | invalidConfig (path : String) (issues : List Issue)
  | invalidCache (path : String) (issues : List Issue)
  /-- Names are to be cut into segments, but nothing separates them. -/
  | emptySeparator
  | file (e : FileError)
  /-- The lines of a language do not stand for themselves. -/
  | noLineScanner (language : Language)
  deriving DecidableEq, Repr

namespace Failure

/-- The text of a fault in a layer. -/
def layerMessage : LayerFault → String
  | .unknownName name =>
    "GraphConfig.__init__() got an unexpected keyword argument '" ++ name ++ "'"
  | .reservedName =>
    "GraphConfig.__init__() got multiple values for argument '" ++ reservedName ++ "'"

/-- The text of a filter that holds no pattern. -/
def filterMessage (text : String) (cause : PatternError) : String :=
  match cause with
  | .fault .. | .unboundedLookBehind =>
    "invalid filter " ++ quoted text ++ ": " ++ cause.message (NameFilter.signOf text).2
  | .countTooLarge | .conflictingWords => cause.message text

/-- The text of a failure. -/
def message : Failure → String
  | unknownLanguage name =>
    "unsupported language: " ++ name ++ " (supported: " ++
      join ", " (Language.all.map Language.name) ++ ")"
  | unknownFormat name =>
    "unknown output format: " ++ name ++ " (supported: " ++
      join ", " (Format.all.map Format.name) ++ ")"
  | invalidFilter text cause => filterMessage text cause
  | invalidDepth literal => "invalid depth " ++ literal ++ ": expected N or N,M"
  | invalidMapping text => "invalid path mapping " ++ quoted text ++ ": expected FROM=TO"
  | invalidOption text => "invalid option " ++ quoted text ++ ": expected KEY=VALUE"
  | layer fault => layerMessage fault
  | missingTarget path => "target does not exist: " ++ path
  | unreadableConfig cause path =>
    "cannot read config file " ++ path ++ ": " ++ faultMessage cause path
  | invalidConfig path _ => "invalid config file " ++ path
  | invalidCache path _ => "invalid cache file " ++ path
  | emptySeparator => "empty separator"
  | file e => e.message
  | noLineScanner language => language.name ++ " does not parse line by line"

/-- The cause lies in what the run was asked to do. -/
def isReported : Failure → Bool
  | file (.fault ..) | invalidFilter _ .countTooLarge | noLineScanner _ => false
  | _ => true

end Failure

/-- A language by its name. -/
def languageOf (name : String) : Except Failure Language :=
  match Language.ofName? name with
  | some l => .ok l
  | none => .error (.unknownLanguage name)

/-- A format by its name. -/
def formatOf (name : String) : Except Failure Format :=
  match Format.ofName? name with
  | some f => .ok f
  | none => .error (.unknownFormat name)

/-- The filter of some texts. -/
def filterOf (texts : List String) : Except Failure NameFilter :=
  (NameFilter.ofTexts texts).mapError fun (text, cause) => .invalidFilter text cause

/-- The text of a graph in the format of a name. -/
def renderAs (name : String) (d : Diagram) : Except Failure String :=
  (formatOf name).map (Format.render d)

/-- The graph of a survey. -/
def diagramOf (s : Survey) (o : DiagramOptions) : Except Failure Diagram :=
  match Diagram.build? s o with
  | some d => .ok d
  | none => .error .emptySeparator

end DepGraph
