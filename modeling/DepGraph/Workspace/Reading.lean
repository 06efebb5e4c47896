/-
  DepGraph — reading text files.

  Bytes are read as UTF-8, and every line end becomes one line feed.

  * `FileError`: why a file has no text; `FileError.message` says it.
  * `readText`: the text; a byte that belongs to no character is an error.
  * `readTextLossy`: the text with a replacement for such bytes.
-/
import DepGraph.Text.Lines
import DepGraph.Text.Quoted
import DepGraph.Text.Utf8
import DepGraph.Workspace.Basic

namespace DepGraph

open DepGraph.Text

/-- Why a file cannot be read or written. -/
inductive FileError
  /-- The path leads to no such file. -/
  | fault (cause : Fault) (path : String)
  /-- The path holds a null character. -/
  | nullCharacter
  /-- The bytes are no text. -/
  | undecodable (e : Utf8.DecodeError)
  deriving DecidableEq, Repr

/-- The reason of a fault in UTF-8. -/
def faultReason : Utf8.Fault → String
  | .invalidStart => "invalid start byte"
  | .invalidContinuation => "invalid continuation byte"
  | .unexpectedEnd => "unexpected end of data"

/-- The bytes of a fault in UTF-8 and where they lie. -/
def faultPlace (e : Utf8.DecodeError) : String :=
  if e.length = 1 then
    "byte 0x" ++ String.ofList (hexDigits 2 e.firstByte.toNat) ++ " in position " ++
      toString e.start
  else "bytes in position " ++ toString e.start ++ "-" ++ toString (e.start + e.length - 1)

/-- A fault with its number and the path that has it. -/
def faultMessage (cause : Fault) (path : String) : String :=
  "[Errno " ++ toString cause.number ++ "] " ++ cause.text ++ ": " ++ quoted path

/-- The text of an error. -/
def FileError.message : FileError → String
  | .fault cause path => faultMessage cause path
  | .nullCharacter => "embedded null byte"
  | .undecodable e =>
    "'utf-8' codec can't decode " ++ faultPlace e ++ ": " ++ faultReason e.fault

namespace Workspace

/-- The bytes of a file. -/
def readBytes (ws : Workspace) (path : String) : Except FileError (List UInt8) :=
  if '\x00' ∈ path.toList then .error .nullCharacter
  else (ws.bytes path).mapError (.fault · path)

/-- Bytes as text. -/
def textOf (bytes : List UInt8) : Except FileError (List Char) :=
  ((Utf8.decode bytes).map foldNewlines).mapError .undecodable

/-- The text of a file. -/
def readText (ws : Workspace) (path : String) : Except FileError (List Char) := do
  textOf (← ws.readBytes path)

/-- The text of a file, with a replacement for bytes that belong to no character. -/
def readTextLossy (ws : Workspace) (path : String) : Except FileError (List Char) :=
  (ws.readBytes path).map fun bytes => foldNewlines (Utf8.decodeLossy bytes)

/-- Write a text file. -/
def writeText (ws : Workspace) (path text : String) : Except FileError Workspace :=
  if '\x00' ∈ path.toList then .error .nullCharacter
  else (ws.write path (Utf8.encode text.toList)).mapError (.fault · path)

end Workspace

end DepGraph
