import RespClient.Failure
import RespClient.Text.Blank
import RespClient.Text.Cut
import RespClient.Text.Decimal
import RespClient.Text.Quoted
import RespClient.Text.Utf8
import Std.Data.ExtTreeMap.Lemmas

/-!
# The keyspace section

The section of a server's description that counts the keys of each database:
the header, then lines such as `db0:keys=18,expires=0,avg_ttl=0`. Lines that do
not begin with `db` say nothing; one line that begins with `db` and is not
well formed spoils the whole section.
-/

namespace RespClient

/-- Key counts by database, in the order of the databases. -/
abbrev Keyspace := Std.ExtTreeMap UInt32 Int64

namespace Keyspace

/-- Why a section cannot be read. -/
inductive Flaw where
  | notUtf8 (fault : Utf8.Fault)
  | noHeader (text : List Char)
  | noStats (line : List Char)
  | badIndex (line : List Char) (flaw : Decimal.Flaw)
  | noCount (line : List Char)
  | badCount (line : List Char) (flaw : Decimal.Flaw)
  deriving DecidableEq, Repr

def header : List Char := "# Keyspace".toList

def Flaw.message : Flaw → String
  | notUtf8 fault => "keyspace is not UTF-8: " ++ fault.message
  | noHeader text =>
      "missing " ++ String.ofList header ++ " header: " ++ Quoted.text text
  | noStats line => "no stats in line " ++ Quoted.text line
  | badIndex line flaw => "bad db index in " ++ Quoted.text line ++ ": " ++ flaw.message
  | noCount line => "no keys= entry in " ++ Quoted.text line
  | badCount line flaw => "bad key count in " ++ Quoted.text line ++ ": " ++ flaw.message

def Flaw.failure (flaw : Flaw) : Failure :=
  .invalidInfo flaw.message

/-- The database and the count of a line, given what follows its `db`. -/
def readStats (line rest : List Char) : Except Flaw (UInt32 × Int64) :=
  match cut ':' rest with
  | none => .error (.noStats line)
  | some (index, stats) =>
      match Decimal.readUInt32 index with
      | .error flaw => .error (.badIndex line flaw)
      | .ok index =>
          match dropLead? "keys=".toList (beforeFirst ',' stats) with
          | none => .error (.noCount line)
          | some count =>
              match Decimal.readInt64 count with
              | .error flaw => .error (.badCount line flaw)
              | .ok count => .ok (index, count)

/-- The database and the count of a line, or nothing for a line about neither. -/
def readLine (line : List Char) : Except Flaw (Option (UInt32 × Int64)) :=
  match dropLead? "db".toList line with
  | none => .ok none
  | some rest => (readStats line rest).map some

/-- Add the counts of lines in order; a later count of a database replaces an
earlier one. -/
def readLines : List (List Char) → Keyspace → Except Flaw Keyspace
  | [], counts => .ok counts
  | line :: lines, counts =>
      match readLine line with
      | .error flaw => .error flaw
      | .ok none => readLines lines counts
      | .ok (some (index, count)) => readLines lines (counts.insert index count)

/-- The counts of a section's text. -/
def ofText (text : List Char) : Except Flaw Keyspace :=
  match dropLead? header text with
  | none => .error (.noHeader text)
  | some _ => readLines ((split '\n' text).map trim) ∅

/-- The counts of a section. -/
def parse (bytes : Bytes) : Except Flaw Keyspace :=
  match Utf8.decode bytes with
  | .error fault => .error (.notUtf8 fault)
  | .ok text => ofText text.toList

example : (ofText "# Keyspace\r\ndb2:keys=3,expires=1\r\n db0:keys=18\n".toList).map (·.toList) =
    .ok [(0, 18), (2, 3)] := by rfl

end Keyspace

end RespClient
