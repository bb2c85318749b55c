/-!
# Decimal integers

`chars` writes an integer with the fewest digits. `read` takes one optional
sign and then ASCII digits, leading zeros included, and keeps the value inside
a range; a minus sign is a digit out of place where the range holds no negative
number. Reading goes from left to right and reports the first thing that is
wrong.
-/

namespace RespClient.Decimal

/-- Why a text is no integer of the range asked for. -/
inductive Flaw where
  | empty
  | badDigit
  | tooLarge
  | tooSmall
  deriving DecidableEq, Repr

def Flaw.message : Flaw → String
  | .empty => "cannot parse integer from empty string"
  | .badDigit => "invalid digit found in string"
  | .tooLarge => "number too large to fit in target type"
  | .tooSmall => "number too small to fit in target type"

/-- The decimal digits of an integer, after a minus sign if it is negative. -/
def chars (n : Int) : List Char :=
  if n < 0 then '-' :: Nat.toDigits 10 n.natAbs else Nat.toDigits 10 n.natAbs

def text (n : Int) : String :=
  String.ofList (chars n)

/-- The value of an ASCII digit. -/
def digit? (c : Char) : Option Nat :=
  if c.isDigit then some (c.toNat - '0'.toNat) else none

/-- Append digits to a number that may not exceed `highest`. -/
def readUp (highest : Int) (sofar : Int) : List Char → Except Flaw Int
  | [] => .ok sofar
  | c :: rest =>
      match digit? c with
      | none => .error .badDigit
      | some d =>
          if sofar * 10 + d ≤ highest then readUp highest (sofar * 10 + d) rest
          else .error .tooLarge

/-- Append digits to a number below zero that may not go under `lowest`. -/
def readDown (lowest : Int) (sofar : Int) : List Char → Except Flaw Int
  | [] => .ok sofar
  | c :: rest =>
      match digit? c with
      | none => .error .badDigit
      | some d =>
          if lowest ≤ sofar * 10 - d then readDown lowest (sofar * 10 - d) rest
          else .error .tooSmall

/-- The integer that a text writes, if it lies between the bounds. -/
def read (lowest highest : Int) : List Char → Except Flaw Int
  | [] => .error .empty
  | sign :: rest =>
      if sign = '+' then
        if rest = [] then .error .badDigit else readUp highest 0 rest
      else if sign = '-' ∧ lowest < 0 then
        if rest = [] then .error .badDigit else readDown lowest 0 rest
      else readUp highest 0 (sign :: rest)

def readInt64 (text : List Char) : Except Flaw Int64 :=
  (read Int64.minValue.toInt Int64.maxValue.toInt text).map Int64.ofInt

def readUInt64 (text : List Char) : Except Flaw UInt64 :=
  (read 0 (UInt64.size - 1) text).map fun n => UInt64.ofNat n.toNat

def readUInt32 (text : List Char) : Except Flaw UInt32 :=
  (read 0 (UInt32.size - 1) text).map fun n => UInt32.ofNat n.toNat

def readUInt16 (text : List Char) : Except Flaw UInt16 :=
  (read 0 (UInt16.size - 1) text).map fun n => UInt16.ofNat n.toNat

theorem readUp_bounds {highest sofar n : Int} {text : List Char}
    (h : readUp highest sofar text = .ok n) (hs : 0 ≤ sofar) (hh : sofar ≤ highest) :
    0 ≤ n ∧ n ≤ highest := by
  induction text generalizing sofar with
  | nil =>
      simp only [readUp, Except.ok.injEq] at h
      omega
  | cons c rest ih =>
      rw [readUp] at h
      split at h
      · simp at h
      · split at h
        · exact ih h (by omega) (by omega)
        · simp at h

theorem readDown_bounds {lowest sofar n : Int} {text : List Char}
    (h : readDown lowest sofar text = .ok n) (hs : sofar ≤ 0) (hl : lowest ≤ sofar) :
    lowest ≤ n ∧ n ≤ 0 := by
  induction text generalizing sofar with
  | nil =>
      simp only [readDown, Except.ok.injEq] at h
      omega
  | cons c rest ih =>
      rw [readDown] at h
      split at h
      · simp at h
      · split at h
        · exact ih h (by omega) (by omega)
        · simp at h

/-- What is read lies in the range asked for. -/
theorem read_bounds {lowest highest n : Int} {text : List Char} (hl : lowest ≤ 0)
    (hh : 0 ≤ highest) (h : read lowest highest text = .ok n) : lowest ≤ n ∧ n ≤ highest := by
  cases text with
  | nil => simp [read] at h
  | cons sign rest =>
      rw [read] at h
      split at h
      · split at h
        · simp at h
        · have := readUp_bounds h (Int.le_refl 0) hh
          omega
      · split at h
        · split at h
          · simp at h
          · have := readDown_bounds h (Int.le_refl 0) hl
            omega
        · have := readUp_bounds h (Int.le_refl 0) hh
          omega

example : read (-128) 127 ['+', '0', '0', '7'] = .ok 7 := by rfl
example : read (-128) 127 ['-', '1', '2', '9'] = .error .tooSmall := by rfl
example : read 0 255 ['-', '1'] = .error .badDigit := by rfl
example : read 0 255 ['2', '5', '6', 'x'] = .error .tooLarge := by rfl
example : read 0 255 ['2', '5', 'x', '6'] = .error .badDigit := by rfl

end RespClient.Decimal
