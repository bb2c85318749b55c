import RespClient.Bytes
import RespClient.Text.Cut
import RespClient.Text.Utf8
import Std.Data.ExtTreeMap.Lemmas

/-!
# The server's description of itself

A description is lines of a field, a colon and a value; section headers and
blank lines have no colon. Reading never fails: bytes that are not UTF-8 turn
into U+FFFD where they stand.
-/

namespace RespClient

/-- Values by field, in the order of the fields' characters. -/
abbrev Info := Std.ExtTreeMap String String

namespace Info

/-- The field and the value of a line. -/
def entry? (line : List Char) : Option (String × String) :=
  (cut ':' line).map fun (field, value) => (String.ofList field, String.ofList value)

/-- The fields of a description; of two lines with one field the later counts. -/
def parse (bytes : Bytes) : Info :=
  ((splitPair '\r' '\n' (Utf8.decodeLossy bytes)).filterMap entry?).foldl
    (fun info (field, value) => info.insert field value) ∅

end Info

end RespClient
