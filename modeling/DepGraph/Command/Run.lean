/-
  DepGraph — carrying out commands.

  A command prints texts and reports, changes files, and ends with a status: 0
  if all went well, 1 if something is wrong with what was asked for or a cycle
  was found, 2 if the command line is no command.

  * `Outcome`: what a command leaves behind.
  * `Command.run`: carry out a command.
  * `runArguments`: carry out the command of a command line.
-/
import DepGraph.Command.Basic
import DepGraph.Command.Screen
import DepGraph.Run

namespace DepGraph

/-- What a command leaves behind. -/
structure Outcome where
  status : Nat
  printed : List String
  reported : List String
  /-- The failure by which the command broke off. -/
  broken : Option Failure
  workspace : Workspace

namespace Outcome

/-- What is printed, as text. -/
def output (o : Outcome) : String := screenText o.printed

/-- What is reported, as text. -/
def errors (o : Outcome) : String := screenText o.reported

/-- A command that only prints. -/
def ofTexts (ws : Workspace) (texts : List String) : Outcome := ⟨0, texts, [], none, ws⟩

/-- A command that fails, after some reports. -/
def ofFailure (ws : Workspace) (reports : List String) (f : Failure) : Outcome :=
  if f.isReported then ⟨1, [], reports ++ ["Error: " ++ f.message], none, ws⟩
  else ⟨1, [], reports, some f, ws⟩

end Outcome

/-- A text with blanks before it, up to a width. -/
def alignRight (width : Nat) (s : String) : String :=
  String.ofList (List.replicate (width - s.length) ' ') ++ s

/-- The program's version. -/
def versionText : String := "cli, version 0.3.0"

/-- How the program is called. -/
def usageText : String :=
  "usage: (graph | check) [OPTION]... [TARGET] | languages | formats | --version"

namespace GraphRequest

/-- Make the graph that is asked for, and go on with its configuration. -/
def build (r : GraphRequest) (ws : Workspace)
    (next : Config → Diagram → Workspace → List String → Outcome) : Outcome :=
  match r.settings ws with
  | .error f => .ofFailure ws [] f
  | .ok s =>
    let c := Config.ofSettings s
    let run := Run.diagram ws c
    let reports := run.progress.map Progress.text
    match run.result with
    | .error f => .ofFailure run.workspace reports f
    | .ok d => next c d run.workspace reports

/-- The name of the format to write: unless it is given on the command line, the
  output file may ask for one. -/
def formatName (r : GraphRequest) (c : Config) : String :=
  match c.outputFile with
  | some file =>
    if r.has .format then c.outputFormat
    else ((Format.ofFile? file.text).map Format.name).getD c.outputFormat
  | none => c.outputFormat

/-- Write the graph to its output file, or print it. -/
def draw (r : GraphRequest) (c : Config) (d : Diagram) (ws : Workspace) (reports : List String) :
    Outcome :=
  match renderAs (r.formatName c) d, c.outputFile with
  | .error f, _ => .ofFailure ws reports f
  | .ok text, none => ⟨0, [text], reports, none, ws⟩
  | .ok text, some file =>
    match ws.writeText file.text text with
    | .error e => ⟨1, [], reports, some (.file e), ws⟩
    | .ok after => ⟨0, [], reports ++ ["Output written to: " ++ file.text], none, after⟩

end GraphRequest

/-- Report the cycles of a graph. -/
def reportCycles (_ : Config) (d : Diagram) (ws : Workspace) (reports : List String) : Outcome :=
  match d.cycles with
  | [] => ⟨0, ["no cycles found"], reports, none, ws⟩
  | cycles => ⟨1, "cycles found:" :: cycles.map (" -> ".intercalate ·), reports, none, ws⟩

/-- Carry out a command. -/
def Command.run (ws : Workspace) : Command → Outcome
  | .version => .ofTexts ws [versionText]
  | .languages =>
    .ofTexts ws (Language.all.map fun l => alignRight 12 l.name ++ "  " ++ l.description)
  | .formats => .ofTexts ws (Format.all.map fun f => alignRight 8 f.name ++ "  " ++ f.description)
  | .graph r => r.build ws r.draw
  | .check r => r.build ws reportCycles

/-- Carry out the command of a command line. -/
def runArguments (ws : Workspace) (args : List String) : Outcome :=
  match Command.ofArguments ws args with
  | .ok c => c.run ws
  | .error .usage => ⟨2, [], [usageText], none, ws⟩
  | .error .nullCharacter => ⟨1, [], [], some (.file .nullCharacter), ws⟩

end DepGraph
