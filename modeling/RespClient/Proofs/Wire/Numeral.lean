import RespClient.Proofs.Text.Cut
import RespClient.Proofs.Text.Decimal
import RespClient.Proofs.Text.Utf8
import RespClient.Wire.Frame

/-!
# What the line of a number writes

The numbers of the protocol are integers of 64 bits, written with a sign or without one and
with any number of leading zeros. A line is read as a number exactly when it is such a
numeral. A numeral holds no line end, so it is a line of its own wherever it stands.
-/

namespace RespClient

namespace Wire

/-- A line writes an integer of 64 bits. -/
structure Numeral (line : Bytes) (n : Int) : Prop where
  lower : Int64.minValue.toInt ≤ n
  upper : n ≤ Int64.maxValue.toInt
  spelled : ∃ text, Decimal.Spells text n ∧ line = text.map Char.toUInt8

/-! ## Characters and bytes -/

theorem chars_map_toUInt8 {text : List Char} (h : ∀ c ∈ text, c.toNat < 256) :
    Bytes.chars (text.map Char.toUInt8) = text := by
  rw [Bytes.chars, List.map_map]
  conv => rhs; rw [← List.map_id text]
  apply List.map_congr_left
  intro c hc
  show Char.ofNat (c.toNat % 256) = c
  rw [Nat.mod_eq_of_lt (h c hc), Char.ofNat_toNat]

theorem map_toUInt8_chars (bytes : Bytes) : bytes.chars.map Char.toUInt8 = bytes := by
  rw [Bytes.chars, List.map_map]
  conv => rhs; rw [← List.map_id bytes]
  apply List.map_congr_left
  intro b _
  have hb : b.toNat < 256 := b.toNat_lt
  show UInt8.ofNat (Char.ofNat b.toNat).val.toNat = b
  rw [Utf8.val_toNat_ofNat (.inl (by omega)), UInt8.ofNat_toNat]

theorem chars_of_spells {text : List Char} {n : Int} (h : Decimal.Spells text n) :
    Bytes.chars (text.map Char.toUInt8) = text :=
  chars_map_toUInt8 fun _ hc => Nat.lt_trans (Decimal.toNat_lt_of_spells h hc).2 (by decide)

/-- A numeral has no carriage return. -/
theorem crlf_not_infix_of_spells {text : List Char} {n : Int} (h : Decimal.Spells text n) :
    ¬ crlf <:+: text.map Char.toUInt8 := by
  intro hin
  have hcr : (13 : UInt8) ∈ text.map Char.toUInt8 := hin.subset List.mem_cons_self
  obtain ⟨c, hc, hb⟩ := List.mem_map.mp hcr
  have hlt := Decimal.toNat_lt_of_spells h hc
  have hn : c.toNat % 256 = 13 := congrArg UInt8.toNat hb
  omega

theorem Numeral.crlf_not_infix {line : Bytes} {n : Int} (h : Numeral line n) :
    ¬ crlf <:+: line := by
  obtain ⟨text, htext, rfl⟩ := h.spelled
  exact crlf_not_infix_of_spells htext

theorem numeral_decimal {n : Int} (hl : Int64.minValue.toInt ≤ n)
    (hu : n ≤ Int64.maxValue.toInt) : Numeral (decimal n) n :=
  ⟨hl, hu, Decimal.chars n, Decimal.spells_chars n, rfl⟩

/-- A length is written as a numeral. -/
theorem numeral_length {length : Nat} (h : length ≤ Int64.maxValue.toInt) :
    Numeral (decimal length) length :=
  numeral_decimal (Int.le_trans (by decide) (Int.natCast_nonneg length)) h

/-! ## Reading -/

/-- Naming the fault of an outcome keeps what it comes to otherwise. -/
theorem mapError_eq_ok_iff {α ε δ : Type} {name : ε → δ} {outcome : Except ε α} {a : α} :
    outcome.mapError name = .ok a ↔ outcome = .ok a := by
  cases outcome with
  | error e => exact ⟨nofun, nofun⟩
  | ok b =>
      constructor
      · intro h
        exact congrArg Except.ok (Except.ok.inj h)
      · intro h
        exact congrArg Except.ok (Except.ok.inj h)

theorem readNumber_eq_ok_iff {role : String} {line : Bytes} {n : Int64} :
    readNumber role line = .ok n ↔ Numeral line n.toInt := by
  rw [readNumber, mapError_eq_ok_iff, Decimal.readInt64_eq_ok_iff]
  constructor
  · intro h
    exact ⟨n.minValue_le_toInt, n.toInt_le, line.chars, h, (map_toUInt8_chars line).symm⟩
  · rintro ⟨-, -, text, htext, rfl⟩
    rwa [chars_of_spells htext]

/-- The number of a numeral is one of 64 bits. -/
theorem Numeral.exists_int64 {line : Bytes} {n : Int} (h : Numeral line n) :
    ∃ m : Int64, m.toInt = n :=
  ⟨Int64.ofInt n, Int64.toInt_ofInt_of_le h.lower (Int.lt_add_one_of_le h.upper)⟩

theorem readLength_eq_ok_iff {role : String} {line : Bytes} {length? : Option Nat} :
    readLength role line = .ok length? ↔
      ∃ n, readNumber role line = .ok n ∧
        (n = -1 ∧ length? = none ∨ 0 ≤ n.toInt ∧ length? = some n.toInt.toNat) := by
  rw [readLength]
  cases readNumber role line with
  | error fault => simp [bind, Except.bind]
  | ok n =>
      show (if n = -1 then pure none
        else if n < 0 then throw (.negativeLength n)
        else pure (some n.toInt.toNat) : Except Fault (Option Nat)) = .ok length? ↔ _
      have hneg : n < 0 ↔ n.toInt < 0 := by rw [Int64.lt_iff_toInt_lt, Int64.toInt_zero]
      split
      · next hnil => simp [hnil, pure, Except.pure, eq_comm]
      · next hnil =>
          split
          · next hlow =>
              have := hneg.mp hlow
              simp [hnil, throw, throwThe, MonadExceptOf.throw, Int.not_le.mpr this]
          · next hlow =>
              have := Int.not_lt.mp (mt hneg.mpr hlow)
              simp [hnil, pure, Except.pure, this, eq_comm]

theorem readLength_eq_some_iff {role : String} {line : Bytes} {length : Nat} :
    readLength role line = .ok (some length) ↔ Numeral line length := by
  rw [readLength_eq_ok_iff]
  constructor
  · rintro ⟨n, hn, ⟨-, hnone⟩ | ⟨hpos, hsome⟩⟩
    · cases hnone
    · obtain rfl := Option.some.inj hsome
      rw [Int.toNat_of_nonneg hpos]
      exact readNumber_eq_ok_iff.mp hn
  · intro h
    obtain ⟨n, hn⟩ := h.exists_int64
    refine ⟨n, readNumber_eq_ok_iff.mpr (hn ▸ h), .inr ⟨by omega, ?_⟩⟩
    rw [hn, Int.toNat_natCast]

theorem readLength_eq_none_iff {role : String} {line : Bytes} :
    readLength role line = .ok none ↔ Numeral line (-1) := by
  rw [readLength_eq_ok_iff]
  constructor
  · rintro ⟨n, hn, ⟨rfl, -⟩ | ⟨-, hnone⟩⟩
    · exact readNumber_eq_ok_iff.mp hn
    · cases hnone
  · intro h
    exact ⟨-1, readNumber_eq_ok_iff.mpr h, .inl ⟨rfl, rfl⟩⟩

end Wire

end RespClient
