import RespClient.Reply

/-!
# Writing replies

A reply starts with a byte for its kind. Simple, error and integer replies are
one line; a bulk reply writes its length, its bytes and a line end; an array
writes its length and then its items.
-/

namespace RespClient

namespace Wire

/-- A line: the byte of its kind, its body and the line end. -/
def line (kind : UInt8) (body : Bytes) : Bytes :=
  kind :: body ++ crlf

/-- The digits of a number as bytes. -/
def decimal (n : Int) : Bytes :=
  (Decimal.chars n).map Char.toUInt8

/-- Bytes behind the line with their number, and a line end. -/
def bulk (data : Bytes) : Bytes :=
  line 36 (decimal data.length) ++ data ++ crlf

end Wire

namespace Reply

open Wire

mutual

/-- The bytes of a reply: `+` simple, `-` error, `:` integer, `$` bulk and nil,
`*` array. -/
def encode : Reply → Bytes
  | .simple text => line 43 (Utf8.encode text)
  | .error text => line 45 (Utf8.encode text)
  | .integer n => line 58 (decimal n.toInt)
  | .bulk data => Wire.bulk data
  | .null => line 36 (decimal (-1))
  | .array items => line 42 (decimal items.length) ++ encodeItems items

def encodeItems : List Reply → Bytes
  | [] => []
  | item :: items => encode item ++ encodeItems items

end

end Reply

example : (Reply.array [.simple "OK", .integer (-7), .null]).encode =
    ascii "*3\r\n+OK\r\n:-7\r\n$-1\r\n" := by decide +kernel

end RespClient
