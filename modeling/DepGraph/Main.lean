/-
  DepGraph — the program.

  The files that a run may read are those whose names stand on the standard
  input, one a line.  The arguments are those of the command line; files that
  the command changes are written.
-/
import DepGraph.Command.Run

namespace DepGraph

/-- The names that stand on the standard input. -/
partial def readNames (input : IO.FS.Stream) (names : List String) : IO (List String) := do
  let line ← input.getLine
  if line.isEmpty then return names.reverse
  else readNames input (String.ofList (line.toList.filter (· != '\n')) :: names)

/-- The workspace of some files. -/
def readWorkspace (names : List String) : IO Workspace :=
  names.foldlM (fun (ws : Workspace) (name : String) => do
    let bytes ← IO.FS.readBinFile name
    return ws.put (Path.ofText name).parts (.file bytes.toList)) Workspace.empty

/-- Write the files that differ from those of an earlier workspace. -/
def writeChanges (before after : Workspace) : IO Unit :=
  after.entries.entries.forM fun (place, entry) =>
    match entry with
    | .file bytes =>
      if before.entry? place = some entry then pure ()
      else IO.FS.writeBinFile (Text.join "/" place) ⟨bytes.toArray⟩
    | _ => pure ()

end DepGraph

open DepGraph in
def main (args : List String) : IO UInt32 := do
  let names ← readNames (← IO.getStdin) []
  let ws ← readWorkspace (names.filter (· != ""))
  let outcome := runArguments ws args
  writeChanges ws outcome.workspace
  IO.print outcome.output
  IO.eprint outcome.errors
  match outcome.broken with
  | some failure => IO.eprintln failure.message
  | none => pure ()
  return outcome.status.toUInt32
