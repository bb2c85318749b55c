import RespClient.Bytes
import RespClient.Text.Shown

/-!
# Quoted texts and bytes

How messages show the texts and bytes they are about: between quotation marks,
with backslash escapes for what would not be seen.
-/

namespace RespClient.Quoted

/-- Lower-case hexadecimal digits, none in excess. -/
def hex (n : Nat) : List Char :=
  Nat.toDigits 16 n

/-- The escapes that texts and bytes share: the quotation mark, the backslash
and four control characters. -/
def shortEscape? (code : Nat) : Option (List Char) :=
  if code = 0 then some ['\\', '0']
  else if code = 9 then some ['\\', 't']
  else if code = 10 then some ['\\', 'n']
  else if code = 13 then some ['\\', 'r']
  else if code = 34 then some ['\\', '"']
  else if code = 92 then some ['\\', '\\']
  else none

/-- A character of a text: itself if it is shown, its code in braces if not. -/
def char (c : Char) : List Char :=
  (shortEscape? c.toNat).getD
    (if isShown c then [c] else ['\\', 'u', '\x7b'] ++ hex c.toNat ++ ['\x7d'])

/-- A byte of a byte string: ASCII as itself, the rest as two hexadecimal digits. -/
def byte (b : UInt8) : List Char :=
  (shortEscape? b.toNat).getD
    (if 0x20 ≤ b ∧ b < 0x7F then [Char.ofNat b.toNat]
    else ['\\', 'x', Nat.digitChar (b.toNat / 16), Nat.digitChar (b.toNat % 16)])

/-- A text between quotation marks. -/
def text (chars : List Char) : String :=
  String.ofList ('"' :: chars.flatMap char ++ ['"'])

/-- Bytes between quotation marks, after a `b`. -/
def bytes (data : Bytes) : String :=
  String.ofList ('b' :: '"' :: data.flatMap byte ++ ['"'])

/-- Bytes as the list of their values. -/
def values (data : Bytes) : String :=
  "[" ++ String.intercalate ", " (data.map fun b => b.toNat.repr) ++ "]"

end RespClient.Quoted
