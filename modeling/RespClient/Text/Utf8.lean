import RespClient.Bytes

/-!
# UTF-8

Writing characters as bytes, and reading bytes as characters in two ways:
`decode` reports where the first bad sequence stands and how long it is,
`decodeLossy` puts U+FFFD for every bad sequence. Both follow one rule for a
single character, `next`: the first byte fixes the length and the range of the
second byte, so overlong forms, surrogates and values above U+10FFFF never
begin a character.
-/

namespace RespClient.Utf8

/-- The bytes of a text. -/
def encode (text : String) : Bytes :=
  text.toList.flatMap String.utf8EncodeChar

/-- What the first byte of a character asks of the bytes after it. -/
inductive Lead where
  | ascii
  | two
  | three (low high : UInt8)
  | four (low high : UInt8)
  | stray
  deriving DecidableEq, Repr

/-- The ranges keep out overlong forms (after `E0` and `F0`), surrogates (after
`ED`) and values above U+10FFFF (after `F4`). -/
def Lead.ofByte (b : UInt8) : Lead :=
  if b ≤ 0x7F then .ascii
  else if b < 0xC2 then .stray
  else if b ≤ 0xDF then .two
  else if b = 0xE0 then .three 0xA0 0xBF
  else if b = 0xED then .three 0x80 0x9F
  else if b ≤ 0xEF then .three 0x80 0xBF
  else if b = 0xF0 then .four 0x90 0xBF
  else if b ≤ 0xF3 then .four 0x80 0xBF
  else if b = 0xF4 then .four 0x80 0x8F
  else .stray

/-- Whether a byte continues a character. -/
def isTail (b : UInt8) : Bool :=
  0x80 ≤ b && b ≤ 0xBF

/-- The character at the head of some bytes. -/
inductive Next where
  /-- A character, and how many bytes it takes after the first. -/
  | char (c : Char) (more : Nat)
  /-- Bytes that begin no character: one, and `more` after it. -/
  | bad (more : Nat)
  /-- The bytes end inside a character. -/
  | cut
  deriving DecidableEq, Repr

/-- The low six bits, which a continuation byte adds to its character. -/
def tailBits (b : UInt8) : Nat := b.toNat % 64

/-- Read the character that begins with `a` and goes on in `rest`. A bad
sequence is the longest start of a character that its next byte breaks off. -/
def next (a : UInt8) (rest : Bytes) : Next :=
  match Lead.ofByte a with
  | .ascii => .char (Char.ofNat a.toNat) 0
  | .stray => .bad 0
  | .two =>
      match rest with
      | [] => .cut
      | b :: _ =>
          if isTail b then .char (Char.ofNat (a.toNat % 32 * 64 + tailBits b)) 1
          else .bad 0
  | .three low high =>
      match rest with
      | [] => .cut
      | b :: rest =>
          if low ≤ b && b ≤ high then
            match rest with
            | [] => .cut
            | c :: _ =>
                if isTail c then
                  .char (Char.ofNat (a.toNat % 16 * 4096 + tailBits b * 64 + tailBits c)) 2
                else .bad 1
          else .bad 0
  | .four low high =>
      match rest with
      | [] => .cut
      | b :: rest =>
          if low ≤ b && b ≤ high then
            match rest with
            | [] => .cut
            | c :: rest =>
                if isTail c then
                  match rest with
                  | [] => .cut
                  | d :: _ =>
                      if isTail d then
                        .char (Char.ofNat (a.toNat % 8 * 262144 + tailBits b * 4096 +
                          tailBits c * 64 + tailBits d)) 3
                      else .bad 2
                else .bad 1
          else .bad 0

/-- Why bytes are not UTF-8: how many bytes before the fault are good, and the
length of the bad sequence, if the bytes do not just end too early. -/
structure Fault where
  goodUpTo : Nat
  length : Option Nat
  deriving DecidableEq, Repr

def Fault.message (fault : Fault) : String :=
  match fault.length with
  | some n =>
      "invalid utf-8 sequence of " ++ n.repr ++ " bytes from index " ++ fault.goodUpTo.repr
  | none => "incomplete utf-8 byte sequence from index " ++ fault.goodUpTo.repr

/-- The characters of some bytes: `skip` bytes belong to a character already
read, and `index` bytes went before. -/
def decodeFrom (skip index : Nat) : Bytes → Except Fault (List Char)
  | [] => .ok []
  | a :: rest =>
      match skip with
      | more + 1 => decodeFrom more (index + 1) rest
      | 0 =>
          match next a rest with
          | .char c more => (decodeFrom more (index + 1) rest).map (c :: ·)
          | .bad more => .error ⟨index, some (more + 1)⟩
          | .cut => .error ⟨index, none⟩

/-- The text of some bytes, or the first fault. -/
def decode (bytes : Bytes) : Except Fault String :=
  (decodeFrom 0 0 bytes).map String.ofList

/-- U+FFFD, which stands for what cannot be read. -/
def replacement : Char := '\uFFFD'

/-- The characters of some bytes, each bad sequence as one U+FFFD; `skip` bytes
are already accounted for. -/
def lossyFrom (skip : Nat) : Bytes → List Char
  | [] => []
  | a :: rest =>
      match skip with
      | more + 1 => lossyFrom more rest
      | 0 =>
          match next a rest with
          | .char c more => c :: lossyFrom more rest
          | .bad more => replacement :: lossyFrom more rest
          | .cut => [replacement]

/-- The characters of some bytes, each bad sequence as one U+FFFD. -/
def decodeLossy (bytes : Bytes) : List Char :=
  lossyFrom 0 bytes

example : decodeFrom 0 0 [0xE2, 0x82, 0xAC] = .ok ['€'] := by rfl
example : decode [97, 0xE2, 0x82] = .error ⟨1, none⟩ := by rfl
example : decode [97, 0xED, 0xA0, 0x80] = .error ⟨1, some 1⟩ := by rfl
example : decode [0xF0, 0x9F, 0x98, 97] = .error ⟨0, some 3⟩ := by rfl
example : decodeLossy [0xF0, 0x9F, 97, 0xFF] = ['\uFFFD', 'a', '\uFFFD'] := by rfl

end RespClient.Utf8
