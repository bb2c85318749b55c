import RespClient.Failure
import RespClient.Text.Cut
import RespClient.Wire.Encode

/-!
# Reading one frame

A frame is a whole value without items, or the head of an array whose items
follow. What some bytes say about their first frame is a verdict: an item and
the bytes after it, too few bytes to tell, or a fault that no more bytes can
mend.
-/

namespace RespClient

namespace Wire

/-- Why bytes are no reply. -/
inductive Fault where
  /-- The text of a simple or error reply is not UTF-8. -/
  | text (fault : Utf8.Fault)
  /-- The line of a number does not write one. -/
  | number (role : String) (line : Bytes)
  /-- A length below zero that does not mean nil. -/
  | negativeLength (n : Int64)
  /-- The bytes of a bulk reply are not followed by a line end. -/
  | unterminated
  /-- The first byte names no kind of reply. -/
  | kind (b : UInt8)
  deriving DecidableEq, Repr

def Fault.message : Fault → String
  | .text fault => "Invalid UTF-8: " ++ fault.message
  | .number role line => "Invalid " ++ role ++ ": " ++ Quoted.values line
  | .negativeLength n => "Negative length: " ++ Decimal.text n.toInt
  | .unterminated => "Bulk string not terminated by CRLF"
  | .kind b => "Invalid RESP type byte: " ++ String.ofList [Char.ofNat b.toNat]

def Fault.failure (fault : Fault) : Failure :=
  .protocol fault.message

/-- What bytes say about the item they start with. -/
inductive Verdict (α : Type) where
  | item (a : α) (rest : Bytes)
  | incomplete
  | malformed (fault : Fault)
  deriving Repr

/-- A value without items to follow, or the head of an array of `length` items. -/
inductive Frame where
  | value (reply : Reply)
  | arrayHead (length : Nat)
  deriving DecidableEq, Repr

/-- The text of a line. -/
def readText (line : Bytes) : Except Fault String :=
  (Utf8.decode line).mapError .text

/-- The number that a line writes. -/
def readNumber (role : String) (line : Bytes) : Except Fault Int64 :=
  (Decimal.readInt64 line.chars).mapError fun _ => .number role line

/-- A length, or `none` for the length -1 of nil. -/
def readLength (role : String) (line : Bytes) : Except Fault (Option Nat) := do
  let n ← readNumber role line
  if n = -1 then pure none
  else if n < 0 then throw (.negativeLength n)
  else pure (some n.toInt.toNat)

/-- The bulk reply of `length` bytes, which a line end has to follow. -/
def readBulk (length : Nat) (bytes : Bytes) : Verdict Frame :=
  match bytes.drop length with
  | cr :: lf :: rest =>
      if cr = 13 ∧ lf = 10 then .item (.value (.bulk (bytes.take length))) rest
      else .malformed .unterminated
  | _ => .incomplete

/-- The frame of a kind whose first line is `line`; `rest` follows the line. -/
def frameOfLine (kind : UInt8) (line rest : Bytes) : Verdict Frame :=
  if kind = 43 then
    match readText line with
    | .ok text => .item (.value (.simple text)) rest
    | .error fault => .malformed fault
  else if kind = 45 then
    match readText line with
    | .ok text => .item (.value (.error text)) rest
    | .error fault => .malformed fault
  else if kind = 58 then
    match readNumber "integer" line with
    | .ok n => .item (.value (.integer n)) rest
    | .error fault => .malformed fault
  else if kind = 36 then
    match readLength "bulk string length" line with
    | .ok (some length) => readBulk length rest
    | .ok none => .item (.value .null) rest
    | .error fault => .malformed fault
  else if kind = 42 then
    match readLength "array length" line with
    | .ok (some 0) => .item (.value (.array [])) rest
    | .ok (some length) => .item (.arrayHead length) rest
    | .ok none => .item (.value .null) rest
    | .error fault => .malformed fault
  else .malformed (.kind kind)

/-- The first frame of some bytes. Nothing is judged before the first line is
complete, not even its kind. -/
def frame : Bytes → Verdict Frame
  | [] => .incomplete
  | kind :: bytes =>
      match cutPair 13 10 bytes with
      | none => .incomplete
      | some (line, rest) => frameOfLine kind line rest

theorem length_le_of_readBulk {length : Nat} {bytes rest : Bytes} {f : Frame}
    (h : readBulk length bytes = .item f rest) : rest.length ≤ bytes.length := by
  unfold readBulk at h
  split at h
  · next after hd =>
      split at h
      · simp only [Verdict.item.injEq] at h
        obtain ⟨-, rfl⟩ := h
        have := congrArg List.length hd
        simp only [List.length_drop, List.length_cons] at this
        omega
      · simp at h
  · simp at h

theorem length_le_of_frameOfLine {kind : UInt8} {line bytes rest : Bytes} {f : Frame}
    (h : frameOfLine kind line bytes = .item f rest) : rest.length ≤ bytes.length := by
  unfold frameOfLine at h
  repeat' split at h
  all_goals first
    | exact length_le_of_readBulk h
    | simp_all

/-- A frame takes at least three bytes. -/
theorem length_add_three_le_of_frame {bytes rest : Bytes} {f : Frame}
    (h : frame bytes = .item f rest) : rest.length + 3 ≤ bytes.length := by
  cases bytes with
  | nil => simp [frame] at h
  | cons kind bytes =>
      simp only [frame] at h
      split at h
      · simp at h
      · next line after hc =>
          have := length_le_of_frameOfLine h
          have := congrArg List.length (eq_append_of_cutPair hc)
          simp only [List.length_append, List.length_cons] at this ⊢
          omega

end Wire

end RespClient
