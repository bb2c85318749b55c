/-!
# Settings

The value of a setting as a configuration source gives it: nested tables and
lists over plain values.
-/

namespace RespClient

inductive Setting where
  | null
  | flag (on : Bool)
  | whole (n : Int)
  /-- A number that is not written as an integer. -/
  | fraction
  | text (value : String)
  | list (items : List Setting)
  | table (fields : List (String × Setting))
  deriving Inhabited

namespace Setting

def asText? : Setting → Option String
  | text value => some value
  | _ => none

/-- A text, or `none` inside for null. -/
def asTextOrNull? : Setting → Option (Option String)
  | null => some none
  | text value => some (some value)
  | _ => none

def asUInt64? : Setting → Option UInt64
  | whole n => if 0 ≤ n ∧ n < UInt64.size then some (UInt64.ofNat n.toNat) else none
  | _ => none

/-- The name of one alternative: a text, or a table that leads from the name to
null. -/
def asAlternative? : Setting → Option String
  | text value => some value
  | table [(value, null)] => some value
  | _ => none

end Setting

end RespClient
