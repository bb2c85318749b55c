import Mathlib.Algebra.Group.Nat.Defs
import RespClient.Text.Decimal

/-!
# Decimal integers read back

The digits written for an integer are read as that integer, by every reader
whose range holds it, with a sign before them or without, and whatever zeros lead.
Nothing else is read, and nothing that is read is shorter.
-/

namespace RespClient.Decimal

theorem digit?_of_isDigit {c : Char} (h : c.isDigit = true) :
    digit? c = some (c.toNat - '0'.toNat) := by
  rw [digit?, if_pos h]

theorem le_ofDigitChars (digits : List Char) (sofar : Nat) :
    sofar ≤ Nat.ofDigitChars 10 digits sofar := by
  induction digits generalizing sofar with
  | nil => simp
  | cons c digits ih =>
      rw [Nat.ofDigitChars_cons]
      exact Nat.le_trans (by omega) (ih _)

theorem readUp_cons {highest : Int} {sofar : Nat} {c : Char} (hc : c.isDigit = true)
    (digits : List Char) :
    readUp highest sofar (c :: digits) =
      if ((10 * sofar + (c.toNat - '0'.toNat) : Nat) : Int) ≤ highest then
        readUp highest (10 * sofar + (c.toNat - '0'.toNat) : Nat) digits
      else .error .tooLarge := by
  have hs : (sofar : Int) * 10 + (c.toNat - '0'.toNat : Nat) =
      ((10 * sofar + (c.toNat - '0'.toNat) : Nat) : Int) := by omega
  rw [readUp, digit?_of_isDigit hc]
  dsimp only
  rw [hs]

theorem readDown_cons {lowest : Int} {sofar : Nat} {c : Char} (hc : c.isDigit = true)
    (digits : List Char) :
    readDown lowest (-sofar) (c :: digits) =
      if lowest ≤ -((10 * sofar + (c.toNat - '0'.toNat) : Nat) : Int) then
        readDown lowest (-(10 * sofar + (c.toNat - '0'.toNat) : Nat)) digits
      else .error .tooSmall := by
  have hs : -(sofar : Int) * 10 - (c.toNat - '0'.toNat : Nat) =
      -((10 * sofar + (c.toNat - '0'.toNat) : Nat) : Int) := by omega
  rw [readDown, digit?_of_isDigit hc]
  dsimp only
  rw [hs]

/-- The value only grows on the way, so it stays below a bound that holds at the
end. -/
theorem readUp_digits {highest : Int} {digits : List Char} {sofar : Nat}
    (hd : ∀ c ∈ digits, c.isDigit = true)
    (hh : (Nat.ofDigitChars 10 digits sofar : Int) ≤ highest) :
    readUp highest sofar digits = .ok (Nat.ofDigitChars 10 digits sofar) := by
  induction digits generalizing sofar with
  | nil => simp [readUp]
  | cons c digits ih =>
      rw [Nat.ofDigitChars_cons] at hh ⊢
      have hle := le_ofDigitChars digits (10 * sofar + (c.toNat - '0'.toNat))
      rw [readUp_cons (hd c List.mem_cons_self), if_pos (by omega)]
      exact ih (fun d h => hd d (List.mem_cons_of_mem _ h)) hh

theorem readDown_digits {lowest : Int} {digits : List Char} {sofar : Nat}
    (hd : ∀ c ∈ digits, c.isDigit = true)
    (hl : lowest ≤ -(Nat.ofDigitChars 10 digits sofar : Int)) :
    readDown lowest (-sofar) digits = .ok (-(Nat.ofDigitChars 10 digits sofar : Int)) := by
  induction digits generalizing sofar with
  | nil => simp [readDown]
  | cons c digits ih =>
      rw [Nat.ofDigitChars_cons] at hl ⊢
      have hle := le_ofDigitChars digits (10 * sofar + (c.toNat - '0'.toNat))
      rw [readDown_cons (hd c List.mem_cons_self), if_pos (by omega)]
      exact ih (fun d h => hd d (List.mem_cons_of_mem _ h)) hl

theorem isDigit_of_mem_toDigits {n : Nat} {c : Char} (h : c ∈ Nat.toDigits 10 n) :
    c.isDigit = true :=
  Nat.isDigit_of_mem_toDigits (by decide) (by decide) h

/-- Some ASCII digits write a number. Zeros may lead. -/
structure Writes (digits : List Char) (n : Nat) : Prop where
  ne_nil : digits ≠ []
  isDigit : ∀ c ∈ digits, c.isDigit = true
  value : Nat.ofDigitChars 10 digits 0 = n

theorem writes_toDigits (n : Nat) : Writes (Nat.toDigits 10 n) n :=
  ⟨Nat.toDigits_ne_nil, fun _ h => isDigit_of_mem_toDigits h, Nat.ofDigitChars_ten_toDigits⟩

/-- A number in digits is read by every reader whose range goes up to it. -/
theorem read_of_writes {lowest highest : Int} {digits : List Char} {n : Nat}
    (h : Writes digits n) (hh : n ≤ highest) : read lowest highest digits = .ok n := by
  obtain ⟨hne, hdigits, rfl⟩ := h
  have hup := readUp_digits hdigits hh
  cases digits with
  | nil => exact absurd rfl hne
  | cons c digits =>
      have hc : c.isDigit = true := hdigits c List.mem_cons_self
      rw [read, if_neg (by rintro rfl; simp at hc), if_neg (by rintro ⟨rfl, -⟩; simp at hc)]
      exact hup

/-! ## Integers with a sign -/

/-- A text writes a number that is not negative: digits by themselves, or behind a plus sign. -/
inductive SpellsNat : List Char → Nat → Prop where
  | bare {digits : List Char} {n : Nat} (h : Writes digits n) : SpellsNat digits n
  | plus {digits : List Char} {n : Nat} (h : Writes digits n) : SpellsNat ('+' :: digits) n

theorem read_of_spellsNat {lowest highest : Int} {text : List Char} {n : Nat}
    (h : SpellsNat text n) (hh : n ≤ highest) : read lowest highest text = .ok n := by
  cases h with
  | bare h => exact read_of_writes h hh
  | plus h =>
      obtain ⟨hne, hdigits, rfl⟩ := h
      rw [read, if_pos rfl, if_neg hne]
      exact readUp_digits hdigits hh

/-- A text writes an integer: digits by themselves, or behind a sign. -/
inductive Spells : List Char → Int → Prop where
  | bare {digits : List Char} {n : Nat} (h : Writes digits n) : Spells digits n
  | plus {digits : List Char} {n : Nat} (h : Writes digits n) : Spells ('+' :: digits) n
  | minus {digits : List Char} {n : Nat} (h : Writes digits n) : Spells ('-' :: digits) (-n)

theorem spells_chars (n : Int) : Spells (chars n) n := by
  unfold chars
  split
  · next hn =>
      have h := Spells.minus (writes_toDigits n.natAbs)
      rwa [show -(n.natAbs : Int) = n by omega] at h
  · next hn =>
      have h := Spells.bare (writes_toDigits n.natAbs)
      rwa [show (n.natAbs : Int) = n by omega] at h

theorem spellsNat_chars (n : Nat) : SpellsNat (chars n) n := by
  rw [chars, if_neg (by omega)]
  exact .bare (writes_toDigits n)

theorem SpellsNat.spells {text : List Char} {n : Nat} (h : SpellsNat text n) : Spells text n := by
  cases h with
  | bare h => exact .bare h
  | plus h => exact .plus h

theorem isDigit_or_sign_of_spells {text : List Char} {n : Int} {c : Char} (h : Spells text n)
    (hc : c ∈ text) : c.isDigit = true ∨ c = '+' ∨ c = '-' := by
  cases h with
  | bare h => exact .inl (h.isDigit c hc)
  | plus h =>
      rcases List.mem_cons.mp hc with rfl | hc
      · exact .inr (.inl rfl)
      · exact .inl (h.isDigit c hc)
  | minus h =>
      rcases List.mem_cons.mp hc with rfl | hc
      · exact .inr (.inr rfl)
      · exact .inl (h.isDigit c hc)

/-- Signs and digits lie above the control characters and are ASCII. -/
theorem toNat_lt_of_spells {text : List Char} {n : Int} {c : Char} (h : Spells text n)
    (hc : c ∈ text) : 13 < c.toNat ∧ c.toNat < 128 := by
  rcases isDigit_or_sign_of_spells h hc with hd | rfl | rfl
  · simp only [Char.isDigit, Bool.and_eq_true, decide_eq_true_eq, UInt32.le_iff_toNat_le] at hd
    have h1 : 48 ≤ c.toNat := hd.1
    have h2 : c.toNat ≤ 57 := hd.2
    omega
  · decide
  · decide

theorem read_of_spells {lowest highest n : Int} {text : List Char} (h : Spells text n)
    (hneg : lowest < 0) (hl : lowest ≤ n) (hh : n ≤ highest) :
    read lowest highest text = .ok n := by
  cases h with
  | bare h => exact read_of_spellsNat (.bare h) hh
  | plus h => exact read_of_spellsNat (.plus h) hh
  | minus h =>
      obtain ⟨hne, hdigits, rfl⟩ := h
      rw [read, if_neg (by decide), if_pos ⟨rfl, hneg⟩, if_neg hne]
      exact readDown_digits hdigits hl

/-! ## Nothing else is read -/

theorem digits_of_readUp {highest n : Int} {digits : List Char} {sofar : Nat}
    (h : readUp highest sofar digits = .ok n) :
    (∀ c ∈ digits, c.isDigit = true) ∧ (Nat.ofDigitChars 10 digits sofar : Int) = n := by
  induction digits generalizing sofar with
  | nil => simpa [readUp] using h
  | cons c digits ih =>
      have hc : c.isDigit = true := by
        cases hc : c.isDigit with
        | true => rfl
        | false => simp [readUp, digit?, hc] at h
      rw [readUp_cons hc] at h
      split at h
      · obtain ⟨hdigits, hvalue⟩ := ih h
        exact ⟨List.forall_mem_cons.mpr ⟨hc, hdigits⟩, by rwa [Nat.ofDigitChars_cons]⟩
      · simp at h

theorem digits_of_readDown {lowest n : Int} {digits : List Char} {sofar : Nat}
    (h : readDown lowest (-sofar) digits = .ok n) :
    (∀ c ∈ digits, c.isDigit = true) ∧ -(Nat.ofDigitChars 10 digits sofar : Int) = n := by
  induction digits generalizing sofar with
  | nil => simpa [readDown] using h
  | cons c digits ih =>
      have hc : c.isDigit = true := by
        cases hc : c.isDigit with
        | true => rfl
        | false => simp [readDown, digit?, hc] at h
      rw [readDown_cons hc] at h
      split at h
      · obtain ⟨hdigits, hvalue⟩ := ih h
        exact ⟨List.forall_mem_cons.mpr ⟨hc, hdigits⟩, by rwa [Nat.ofDigitChars_cons]⟩
      · simp at h

theorem spells_of_read {lowest highest n : Int} {text : List Char}
    (h : read lowest highest text = .ok n) : Spells text n := by
  cases text with
  | nil => simp [read] at h
  | cons sign rest =>
      rw [read] at h
      split at h
      · next hsign =>
          subst hsign
          split at h
          · simp at h
          · next hne =>
              obtain ⟨hdigits, rfl⟩ := @digits_of_readUp _ _ _ 0 h
              exact .plus ⟨hne, hdigits, rfl⟩
      · split at h
        · next hsign =>
            obtain ⟨rfl, -⟩ := hsign
            split at h
            · simp at h
            · next hne =>
                obtain ⟨hdigits, rfl⟩ := @digits_of_readDown _ _ _ 0 h
                exact .minus ⟨hne, hdigits, rfl⟩
        · obtain ⟨hdigits, rfl⟩ := @digits_of_readUp _ _ _ 0 h
          exact .bare ⟨List.cons_ne_nil _ _, hdigits, rfl⟩

/-- Where no number is negative, a minus sign is read nowhere. -/
theorem spellsNat_of_read {highest n : Int} {text : List Char}
    (h : read 0 highest text = .ok n) : SpellsNat text n.toNat := by
  cases text with
  | nil => simp [read] at h
  | cons sign rest =>
      rw [read] at h
      split at h
      · next hsign =>
          subst hsign
          split at h
          · simp at h
          · next hne =>
              obtain ⟨hdigits, rfl⟩ := @digits_of_readUp _ _ _ 0 h
              exact .plus ⟨hne, hdigits, rfl⟩
      · rw [if_neg (by simp)] at h
        obtain ⟨hdigits, rfl⟩ := @digits_of_readUp _ _ _ 0 h
        exact .bare ⟨List.cons_ne_nil _ _, hdigits, rfl⟩

section

variable {κ : Type} {size : Nat} {ofNat : Nat → κ} {toNat : κ → Nat}

/-- Numbers below a bound are read exactly where they are written. -/
theorem map_read_eq_ok_iff (hlt : ∀ k, toNat k < size) (hto : ∀ n < size, toNat (ofNat n) = n)
    (hof : ∀ k, ofNat (toNat k) = k) {text : List Char} {k : κ} :
    (read 0 (size - 1) text).map (fun n => ofNat n.toNat) = .ok k ↔ SpellsNat text (toNat k) := by
  have hk := hlt k
  constructor
  · intro h
    cases hr : read 0 (size - 1) text with
    | error flaw =>
        rw [hr] at h
        cases h
    | ok n =>
        obtain ⟨hl, hh⟩ := read_bounds (Int.le_refl 0) (by omega) hr
        rw [hr] at h
        obtain rfl : ofNat n.toNat = k := Except.ok.inj h
        rw [hto _ (by omega)]
        exact spellsNat_of_read hr
  · intro h
    rw [read_of_spellsNat h (by omega)]
    exact congrArg Except.ok (hof k)

end

theorem readUInt64_eq_ok_iff {text : List Char} {n : UInt64} :
    readUInt64 text = .ok n ↔ SpellsNat text n.toNat :=
  map_read_eq_ok_iff UInt64.toNat_lt_size (fun _ h => UInt64.toNat_ofNat_of_lt h)
    fun n => n.ofNat_toNat

theorem readUInt32_eq_ok_iff {text : List Char} {n : UInt32} :
    readUInt32 text = .ok n ↔ SpellsNat text n.toNat :=
  map_read_eq_ok_iff UInt32.toNat_lt_size (fun _ h => UInt32.toNat_ofNat_of_lt h)
    fun n => n.ofNat_toNat

/-- A number of 64 bits is read exactly where it is written. -/
theorem readInt64_eq_ok_iff {text : List Char} {n : Int64} :
    readInt64 text = .ok n ↔ Spells text n.toInt := by
  constructor
  · intro h
    unfold readInt64 at h
    cases hr : read Int64.minValue.toInt Int64.maxValue.toInt text with
    | error flaw =>
        rw [hr] at h
        cases h
    | ok m =>
        rw [hr] at h
        obtain rfl : Int64.ofInt m = n := Except.ok.inj h
        obtain ⟨hl, hh⟩ := read_bounds (by decide) (by decide) hr
        rw [Int64.toInt_ofInt_of_le hl (Int.lt_add_one_of_le hh)]
        exact spells_of_read hr
  · intro h
    rw [readInt64, read_of_spells h (by decide) n.minValue_le_toInt n.toInt_le]
    exact congrArg Except.ok n.ofInt_toInt

/-! ## The shortest spelling -/

/-- Each digit makes room for ten times as many numbers. -/
theorem ofDigitChars_lt {digits : List Char} (hd : ∀ c ∈ digits, c.isDigit = true) (sofar : Nat) :
    Nat.ofDigitChars 10 digits sofar < (sofar + 1) * 10 ^ digits.length := by
  induction digits generalizing sofar with
  | nil => simp
  | cons c digits ih =>
      obtain ⟨hc, hdigits⟩ := List.forall_mem_cons.mp hd
      simp only [Char.isDigit, Bool.and_eq_true, decide_eq_true_eq, UInt32.le_iff_toNat_le] at hc
      have hvalue : c.toNat - '0'.toNat < 10 :=
        Nat.sub_lt_left_of_lt_add hc.1 (Nat.lt_succ_of_le hc.2)
      have hstep : 10 * sofar + (c.toNat - '0'.toNat) + 1 ≤ (sofar + 1) * 10 := by omega
      rw [Nat.ofDigitChars_cons, List.length_cons, Nat.pow_succ']
      calc Nat.ofDigitChars 10 digits (10 * sofar + (c.toNat - '0'.toNat))
          < (10 * sofar + (c.toNat - '0'.toNat) + 1) * 10 ^ digits.length := ih hdigits _
        _ ≤ (sofar + 1) * 10 * 10 ^ digits.length := Nat.mul_le_mul_right _ hstep
        _ = (sofar + 1) * (10 * 10 ^ digits.length) := Nat.mul_assoc _ _ _

theorem length_toDigits_le_of_writes {digits : List Char} {n : Nat} (h : Writes digits n) :
    (Nat.toDigits 10 n).length ≤ digits.length := by
  obtain ⟨hne, hdigits, rfl⟩ := h
  rw [Nat.length_toDigits_le_iff (by decide) (List.length_pos_iff.mpr hne)]
  have hlt := ofDigitChars_lt hdigits 0
  rwa [Nat.zero_add, Nat.one_mul] at hlt

/-- No text that writes an integer is shorter than the digits written for it. -/
theorem length_chars_le_of_spells {text : List Char} {n : Int} (h : Spells text n) :
    (chars n).length ≤ text.length := by
  cases h with
  | bare h =>
      rw [chars, if_neg (by omega)]
      exact length_toDigits_le_of_writes h
  | plus h =>
      rw [chars, if_neg (by omega)]
      exact Nat.le_succ_of_le (length_toDigits_le_of_writes h)
  | @minus digits n h =>
      have hle := length_toDigits_le_of_writes h
      rw [chars, Int.natAbs_neg, Int.natAbs_natCast]
      split
      · exact Nat.succ_le_succ hle
      · exact Nat.le_succ_of_le hle

end RespClient.Decimal
