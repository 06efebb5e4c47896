/-
  DepGraph — why a file has no text.

  A path with a null character cannot be asked for, and one that leads to no file
  cannot be opened.  The bytes of a file are read if they are those of a text; no
  other bytes are, and then the file has no text.

  * `Workspace.IsText`: the bytes of a text.
  * `Workspace.Reads`: how reading a file ends; `reads_readText` says that these are
    all the ways.
-/
import DepGraph.Proofs.Text.Utf8
import DepGraph.Workspace.Reading

namespace DepGraph.Workspace

open DepGraph.Text

/-- The bytes of a text. -/
def IsText (bytes : List UInt8) : Prop := ∃ text, bytes = Utf8.encode text

theorem textOf_encode (text : List Char) :
    textOf (Utf8.encode text) = .ok (foldNewlines text) := by
  rw [textOf, Utf8.decode_encode]
  rfl

/-- Bytes that are not those of a text are read as none. -/
theorem exists_textOf_eq_error {bytes : List UInt8} (h : ¬ IsText bytes) :
    ∃ fault, textOf bytes = .error (.undecodable fault) := by
  cases hdecode : Utf8.decode bytes with
  | ok text => exact absurd ⟨text, Utf8.decode_eq_ok_iff.1 hdecode⟩ h
  | error fault => exact ⟨fault, by rw [textOf, hdecode]; rfl⟩

/-- How reading the file that a path leads to ends. -/
inductive Reads (ws : Workspace) (path : String) : Except FileError (List Char) → Prop
  | null (h : '\x00' ∈ path.toList) : Reads ws path (.error .nullCharacter)
  | fault (hnull : '\x00' ∉ path.toList) {cause : Fault} (h : ws.bytes path = .error cause) :
    Reads ws path (.error (.fault cause path))
  | undecodable (hnull : '\x00' ∉ path.toList) {bytes : List UInt8} (h : ws.bytes path = .ok bytes)
    (htext : ¬ IsText bytes) (fault : Utf8.DecodeError) :
    Reads ws path (.error (.undecodable fault))
  | text (hnull : '\x00' ∉ path.toList) {text : List Char}
    (h : ws.bytes path = .ok (Utf8.encode text)) : Reads ws path (.ok (foldNewlines text))

theorem reads_readText (ws : Workspace) (path : String) : ws.Reads path (ws.readText path) := by
  by_cases hnull : '\x00' ∈ path.toList
  · have hread : ws.readText path = .error .nullCharacter := by
      rw [readText, readBytes, if_pos hnull]
      rfl
    rw [hread]
    exact .null hnull
  have hread : ws.readText path = ((ws.bytes path).mapError (.fault · path)).bind textOf := by
    rw [readText, readBytes, if_neg hnull]
    rfl
  rw [hread]
  cases hbytes : ws.bytes path with
  | error cause => exact .fault hnull hbytes
  | ok bytes =>
    change ws.Reads path (textOf bytes)
    by_cases htext : IsText bytes
    · obtain ⟨text, rfl⟩ := htext
      rw [textOf_encode]
      exact .text hnull hbytes
    · obtain ⟨fault, hfault⟩ := exists_textOf_eq_error htext
      rw [hfault]
      exact .undecodable hnull hbytes htext fault

end DepGraph.Workspace
