import RespClient.Proofs.Text.Utf8

/-!
# Bytes that are read whatever they are

Where bytes are not UTF-8, reading puts U+FFFD and goes on. An ASCII byte is no part of any
longer character and of no bad sequence: it is read as its own character wherever it stands,
and the bytes on its two sides are read as if the others were not there.
-/

namespace RespClient.Utf8

/-! ## What may follow a first byte -/

theorem isTail_of_ascii {b : UInt8} (hb : b.toNat ≤ 0x7F) : isTail b = false := by
  rw [Bool.eq_false_iff, Ne, isTail_iff]
  omega

/-- No range for a second byte goes down to ASCII. -/
theorem lt_low_of_ofByte {a low high b : UInt8}
    (h : Lead.ofByte a = .three low high ∨ Lead.ofByte a = .four low high)
    (hb : b.toNat ≤ 0x7F) : ¬ low ≤ b := by
  rw [UInt8.le_iff_toNat_le]
  rcases ofByte_range a with ha | ha | ha | ha | ha
  · simp [ofByte_ascii ha] at h
  · simp [ofByte_stray ha] at h
  · simp [ofByte_two ha] at h
  · obtain ⟨l, u, hl, hlow, -⟩ := ofByte_three ha
    simp only [hl, Lead.three.injEq, reduceCtorEq, or_false] at h
    obtain ⟨rfl, rfl⟩ := h
    omega
  · obtain ⟨l, u, hl, hlow, -⟩ := ofByte_four ha
    simp only [hl, Lead.four.injEq, reduceCtorEq, false_or] at h
    obtain ⟨rfl, rfl⟩ := h
    omega

/-- An ASCII byte breaks off a character that it comes too early for, and changes nothing
else. -/
theorem next_append_ascii {b : UInt8} (hb : b.toNat ≤ 0x7F) (a : UInt8) (rest after : Bytes) :
    next a (rest ++ b :: after) =
      match next a rest with
      | .cut => .bad rest.length
      | found => found := by
  have htail := isTail_of_ascii hb
  cases hlead : Lead.ofByte a with
  | ascii => simp [next, hlead]
  | stray => simp [next, hlead]
  | two =>
      rcases rest with _ | ⟨c, rest⟩
      · simp [next, hlead, htail]
      · simp only [next, hlead, List.cons_append]
        split <;> rfl
  | three low high =>
      have hlow := lt_low_of_ofByte (.inl hlead) hb
      rcases rest with _ | ⟨c, _ | ⟨d, rest⟩⟩
      · simp [next, hlead, hlow]
      · simp only [next, hlead, List.cons_append, List.nil_append, htail]
        split <;> rfl
      · simp only [next, hlead, List.cons_append]
        split
        · split <;> rfl
        · rfl
  | four low high =>
      have hlow := lt_low_of_ofByte (.inr hlead) hb
      rcases rest with _ | ⟨c, _ | ⟨d, _ | ⟨e, rest⟩⟩⟩
      · simp [next, hlead, hlow]
      · simp only [next, hlead, List.cons_append, List.nil_append, htail]
        split <;> rfl
      · simp only [next, hlead, List.cons_append, List.nil_append, htail]
        split
        · split <;> rfl
        · rfl
      · simp only [next, hlead, List.cons_append]
        split
        · split
          · split <;> rfl
          · rfl
        · rfl

theorem more_le_of_next_char {a : UInt8} {rest : Bytes} {c : Char} {more : Nat}
    (h : next a rest = .char c more) : more ≤ rest.length := by
  obtain ⟨tail, after, rfl, rfl, -⟩ := utf8EncodeChar_of_next h
  simp

theorem more_le_of_next_bad {a : UInt8} {rest : Bytes} {more : Nat}
    (h : next a rest = .bad more) : more ≤ rest.length := by
  cases hlead : Lead.ofByte a with
  | ascii => simp [next, hlead] at h
  | stray =>
      simp only [next, hlead, Next.bad.injEq] at h
      omega
  | two | three low high | four low high =>
      simp only [next, hlead] at h
      repeat' split at h
      all_goals first
        | cases h; done
        | simp only [Next.bad.injEq] at h
          simp only [List.length_cons]
          omega

/-! ## Texts around an ASCII byte -/

theorem lossyFrom_length (bytes : Bytes) : lossyFrom bytes.length bytes = [] := by
  induction bytes with
  | nil => rfl
  | cons a rest ih => exact ih

theorem lossyFrom_append_ascii {b : UInt8} (hb : b.toNat ≤ 0x7F) {skip : Nat} {bytes : Bytes}
    (h : skip ≤ bytes.length) (after : Bytes) :
    lossyFrom skip (bytes ++ b :: after) =
      lossyFrom skip bytes ++ Char.ofNat b.toNat :: lossyFrom 0 after := by
  induction bytes generalizing skip with
  | nil =>
      obtain rfl : skip = 0 := Nat.le_zero.mp h
      simp only [List.nil_append, lossyFrom, next_ascii hb]
  | cons a rest ih =>
      cases skip with
      | succ skip => exact ih (Nat.le_of_succ_le_succ h)
      | zero =>
          rw [List.cons_append, lossyFrom, lossyFrom, next_append_ascii hb]
          cases hnext : next a rest with
          | char c more =>
              dsimp only
              rw [ih (more_le_of_next_char hnext), List.cons_append]
          | bad more =>
              dsimp only
              rw [ih (more_le_of_next_bad hnext), List.cons_append]
          | cut =>
              -- the bytes at the end are skipped as the beginning of a character
              dsimp only
              rw [ih (Nat.le_refl _), lossyFrom_length, List.nil_append, List.singleton_append]

/-- An ASCII byte stands for its character, whatever surrounds it, and what stands before and
after it is read as if it were all. -/
theorem decodeLossy_append_ascii {b : UInt8} (hb : b.toNat ≤ 0x7F) (before after : Bytes) :
    decodeLossy (before ++ b :: after) =
      decodeLossy before ++ Char.ofNat b.toNat :: decodeLossy after :=
  lossyFrom_append_ascii hb (Nat.zero_le _) after

theorem toNat_ofNat_ascii {b : UInt8} (hb : b.toNat ≤ 0x7F) :
    (Char.ofNat b.toNat).toNat = b.toNat :=
  val_toNat_ofNat (by omega)

theorem ofNat_ascii_ne_replacement {b : UInt8} (hb : b.toNat ≤ 0x7F) :
    Char.ofNat b.toNat ≠ replacement := by
  intro h
  have hn := toNat_ofNat_ascii hb
  rw [h] at hn
  have hr : replacement.toNat = 0xFFFD := rfl
  omega

/-- An ASCII character is read from its own byte only. -/
theorem next_eq_ascii {a b : UInt8} (hb : b.toNat ≤ 0x7F) {rest : Bytes} {more : Nat}
    (h : next a rest = .char (Char.ofNat b.toNat) more) : a = b ∧ more = 0 := by
  obtain ⟨tail, after, -, rfl, hchar⟩ := utf8EncodeChar_of_next h
  have hone : String.utf8EncodeChar (Char.ofNat b.toNat) = [b] := by
    unfold String.utf8EncodeChar
    rw [val_toNat_ofNat (by omega)]
    simp [hb]
  rw [hone] at hchar
  obtain ⟨rfl, rfl⟩ := List.cons.inj hchar
  exact ⟨rfl, rfl⟩

/-- Where an ASCII character is read, there is its byte. -/
theorem exists_of_lossyFrom {b : UInt8} (hb : b.toNat ≤ 0x7F) {skip : Nat} {bytes : Bytes}
    {before after : List Char}
    (h : lossyFrom skip bytes = before ++ Char.ofNat b.toNat :: after) :
    ∃ first last, bytes = first ++ b :: last ∧ skip ≤ first.length ∧ lossyFrom 0 last = after := by
  induction bytes generalizing skip before with
  | nil => simp [lossyFrom] at h
  | cons a rest ih =>
      have hlater : ∀ {more : Nat} {before : List Char},
          lossyFrom more rest = before ++ Char.ofNat b.toNat :: after →
            ∃ first last, a :: rest = first ++ b :: last ∧ more < first.length ∧
              lossyFrom 0 last = after := by
        intro more before hrest
        obtain ⟨first, last, rfl, hskip, hlast⟩ := ih hrest
        exact ⟨a :: first, last, rfl, Nat.lt_succ_of_le hskip, hlast⟩
      cases skip with
      | succ skip => exact hlater h
      | zero =>
          rw [lossyFrom] at h
          cases hnext : next a rest with
          | char c more =>
              rw [hnext] at h
              rcases List.cons_eq_append_iff.mp h with ⟨rfl, hc⟩ | ⟨before, rfl, hmore⟩
              · obtain ⟨rfl, rfl⟩ := List.cons.inj hc
                obtain ⟨rfl, rfl⟩ := next_eq_ascii hb hnext
                exact ⟨[], rest, rfl, Nat.le_refl _, rfl⟩
              · obtain ⟨first, last, hbytes, -, hlast⟩ := hlater hmore
                exact ⟨first, last, hbytes, Nat.zero_le _, hlast⟩
          | bad more =>
              rw [hnext] at h
              rcases List.cons_eq_append_iff.mp h with ⟨rfl, hc⟩ | ⟨before, rfl, hmore⟩
              · exact absurd (List.cons.inj hc).1 (ofNat_ascii_ne_replacement hb)
              · obtain ⟨first, last, hbytes, -, hlast⟩ := hlater hmore
                exact ⟨first, last, hbytes, Nat.zero_le _, hlast⟩
          | cut =>
              rw [hnext] at h
              rcases List.cons_eq_append_iff.mp h with ⟨rfl, hc⟩ | ⟨before, rfl, hmore⟩
              · exact absurd (List.cons.inj hc).1 (ofNat_ascii_ne_replacement hb)
              · simp at hmore

/-- An ASCII character comes from its own byte, and the texts around it from the bytes
around that. -/
theorem decodeLossy_eq_append_iff {b : UInt8} (hb : b.toNat ≤ 0x7F) {bytes : Bytes}
    {before after : List Char} :
    decodeLossy bytes = before ++ Char.ofNat b.toNat :: after ↔
      ∃ first last, bytes = first ++ b :: last ∧ decodeLossy first = before ∧
        decodeLossy last = after := by
  constructor
  · intro h
    obtain ⟨first, last, rfl, -, rfl⟩ := exists_of_lossyFrom hb h
    rw [decodeLossy_append_ascii hb] at h
    exact ⟨first, last, rfl, List.append_cancel_right h, rfl⟩
  · rintro ⟨first, last, rfl, rfl, rfl⟩
    exact decodeLossy_append_ascii hb first last

theorem decodeLossy_eq_nil_iff {bytes : Bytes} : decodeLossy bytes = [] ↔ bytes = [] := by
  constructor
  · intro h
    cases bytes with
    | nil => rfl
    | cons a rest =>
        rw [decodeLossy, lossyFrom] at h
        cases hnext : next a rest <;> simp [hnext] at h
  · rintro rfl
    rfl

theorem mem_decodeLossy_iff {b : UInt8} (hb : b.toNat ≤ 0x7F) {bytes : Bytes} :
    Char.ofNat b.toNat ∈ decodeLossy bytes ↔ b ∈ bytes := by
  constructor
  · intro h
    obtain ⟨before, after, h⟩ := List.append_of_mem h
    obtain ⟨first, last, rfl, -, -⟩ := (decodeLossy_eq_append_iff hb).mp h
    simp
  · intro h
    obtain ⟨first, last, rfl⟩ := List.append_of_mem h
    rw [decodeLossy_append_ascii hb]
    simp

theorem pair_infix_decodeLossy_iff {a b : UInt8} (ha : a.toNat ≤ 0x7F) (hb : b.toNat ≤ 0x7F)
    {bytes : Bytes} :
    [Char.ofNat a.toNat, Char.ofNat b.toNat] <:+: decodeLossy bytes ↔ [a, b] <:+: bytes := by
  constructor
  · rintro ⟨before, after, h⟩
    rw [List.append_assoc] at h
    obtain ⟨first, rest, rfl, -, hrest⟩ := (decodeLossy_eq_append_iff ha).mp h.symm
    have hrest : decodeLossy rest = [] ++ Char.ofNat b.toNat :: after := hrest
    obtain ⟨between, last, rfl, hbetween, -⟩ := (decodeLossy_eq_append_iff hb).mp hrest
    obtain rfl := decodeLossy_eq_nil_iff.mp hbetween
    exact ⟨first, last, by simp⟩
  · rintro ⟨before, after, rfl⟩
    refine ⟨decodeLossy before, decodeLossy after, ?_⟩
    have hpair : before ++ [a, b] ++ after = before ++ a :: ([] ++ b :: after) := by simp
    rw [hpair, decodeLossy_append_ascii ha, decodeLossy_append_ascii hb]
    simp [decodeLossy, lossyFrom]

/-! ## Bytes that are UTF-8 -/

theorem lossyFrom_skip (skipped rest : Bytes) :
    lossyFrom skipped.length (skipped ++ rest) = lossyFrom 0 rest := by
  induction skipped with
  | nil => rfl
  | cons b skipped ih => exact ih

/-- Nothing is lost of a text. -/
theorem decodeLossy_encode (text : String) : decodeLossy (encode text) = text.toList := by
  rw [decodeLossy, encode]
  induction text.toList with
  | nil => rfl
  | cons c chars ih =>
      obtain ⟨a, tail, hc⟩ := utf8EncodeChar_eq_cons c
      have hnext := next_of_utf8EncodeChar hc (chars.flatMap String.utf8EncodeChar)
      rw [List.flatMap_cons, hc, List.cons_append, lossyFrom, hnext]
      dsimp only
      rw [lossyFrom_skip, ih]

end RespClient.Utf8
