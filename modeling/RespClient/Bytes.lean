/-!
# Byte strings

Everything that crosses the wire is a list of bytes.
-/

namespace RespClient

abbrev Bytes := List UInt8

/-- Carriage return, line feed: the end of every protocol line. -/
def crlf : Bytes := [13, 10]

/-- The bytes of an ASCII text, one byte a character. -/
def ascii (text : String) : Bytes :=
  text.toList.map Char.toUInt8

/-- Each byte as the character with its code. On ASCII bytes this is their text,
and no other byte becomes a digit or a sign. -/
def Bytes.chars (bytes : Bytes) : List Char :=
  bytes.map fun b => Char.ofNat b.toNat

end RespClient
