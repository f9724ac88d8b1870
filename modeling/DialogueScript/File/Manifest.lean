/-
# Manifests

A manifest describes a file tree as text, one entry a line.  The fields of a line are separated by
tabs: `file`, a path and the content in hexadecimal digits; `dir` and a path; or `link`, a path and
the target.
-/
import DialogueScript.File.Create
import DialogueScript.Json.Quoted

namespace DialogueScript

/-- The bytes that pairs of hexadecimal digits stand for. -/
def bytesOfHex? : List Char → Option (List UInt8)
  | [] => some []
  | high :: low :: rest =>
    match QuotedScan.hexValue? high, QuotedScan.hexValue? low, bytesOfHex? rest with
    | some high, some low, some bytes => some (UInt8.ofNat (16 * high + low) :: bytes)
    | _, _, _ => none
  | [_] => none

/-- The entry that a line of a manifest describes. -/
def FileEntry.ofLine? (line : String) : Option FileEntry :=
  match (line.toList.splitOn '\t').map String.ofList with
  | ["file", path, digits] =>
    (bytesOfHex? digits.toList).map fun bytes => .file path ⟨bytes.toArray⟩
  | ["dir", path] => some (.directory path)
  | ["link", path, target] => some (.link path target)
  | _ => none

/-- The entries of a manifest, if every line that is not empty describes one. -/
def manifestEntries? (text : String) : Option (List FileEntry) :=
  let lines := (text.toList.splitOn '\n').filter (! ·.isEmpty)
  lines.mapM fun line => FileEntry.ofLine? (String.ofList line)

end DialogueScript
