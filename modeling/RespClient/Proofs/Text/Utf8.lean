import RespClient.Text.Utf8

/-!
# UTF-8 reads back what it writes, and nothing else

Decoding is the inverse of encoding: `decode_eq_ok_iff` says that some bytes are
the text `text` exactly when they are its encoding. The single character comes
first, one lemma for each class of first byte.
-/

namespace RespClient.Utf8

/-! ## First bytes by their value -/

theorem ofByte_range (b : UInt8) :
    b.toNat ≤ 0x7F ∨ (0x80 ≤ b.toNat ∧ b.toNat ≤ 0xC1 ∨ 0xF5 ≤ b.toNat) ∨
      (0xC2 ≤ b.toNat ∧ b.toNat ≤ 0xDF) ∨ (0xE0 ≤ b.toNat ∧ b.toNat ≤ 0xEF) ∨
      (0xF0 ≤ b.toNat ∧ b.toNat ≤ 0xF4) := by
  omega

theorem ofByte_ascii {b : UInt8} (h : b.toNat ≤ 0x7F) : Lead.ofByte b = .ascii := by
  simp only [Lead.ofByte, UInt8.le_iff_toNat_le, UInt8.reduceToNat]
  rw [if_pos h]

theorem ofByte_stray {b : UInt8} (h : 0x80 ≤ b.toNat ∧ b.toNat ≤ 0xC1 ∨ 0xF5 ≤ b.toNat) :
    Lead.ofByte b = .stray := by
  simp only [Lead.ofByte, UInt8.le_iff_toNat_le, UInt8.lt_iff_toNat_lt, ← UInt8.toNat_inj,
    UInt8.reduceToNat]
  grind

theorem ofByte_two {b : UInt8} (h : 0xC2 ≤ b.toNat ∧ b.toNat ≤ 0xDF) :
    Lead.ofByte b = .two := by
  simp only [Lead.ofByte, UInt8.le_iff_toNat_le, UInt8.lt_iff_toNat_lt, UInt8.reduceToNat]
  rw [if_neg (by omega), if_neg (by omega), if_pos h.2]

/-- The second byte starts at `A0` after `E0`, and ends at `9F` after `ED`. -/
theorem ofByte_three {b : UInt8} (h : 0xE0 ≤ b.toNat ∧ b.toNat ≤ 0xEF) :
    ∃ low high, Lead.ofByte b = .three low high ∧
      (b.toNat = 0xE0 ∧ low.toNat = 0xA0 ∨ b.toNat ≠ 0xE0 ∧ low.toNat = 0x80) ∧
      (b.toNat = 0xED ∧ high.toNat = 0x9F ∨ b.toNat ≠ 0xED ∧ high.toNat = 0xBF) := by
  simp only [Lead.ofByte, UInt8.le_iff_toNat_le, UInt8.lt_iff_toNat_lt, ← UInt8.toNat_inj,
    UInt8.reduceToNat]
  rw [if_neg (by omega), if_neg (by omega), if_neg (by omega)]
  split
  · exact ⟨_, _, rfl, by simp; omega⟩
  · split
    · exact ⟨_, _, rfl, by simp; omega⟩
    · rw [if_pos h.2]
      exact ⟨_, _, rfl, by simp; omega⟩

/-- The second byte starts at `90` after `F0`, and ends at `8F` after `F4`. -/
theorem ofByte_four {b : UInt8} (h : 0xF0 ≤ b.toNat ∧ b.toNat ≤ 0xF4) :
    ∃ low high, Lead.ofByte b = .four low high ∧
      (b.toNat = 0xF0 ∧ low.toNat = 0x90 ∨ b.toNat ≠ 0xF0 ∧ low.toNat = 0x80) ∧
      (b.toNat = 0xF4 ∧ high.toNat = 0x8F ∨ b.toNat ≠ 0xF4 ∧ high.toNat = 0xBF) := by
  simp only [Lead.ofByte, UInt8.le_iff_toNat_le, UInt8.lt_iff_toNat_lt, ← UInt8.toNat_inj,
    UInt8.reduceToNat]
  rw [if_neg (by omega), if_neg (by omega), if_neg (by omega), if_neg (by omega),
    if_neg (by omega), if_neg (by omega)]
  split
  · exact ⟨_, _, rfl, by simp; omega⟩
  · split
    · exact ⟨_, _, rfl, by simp; omega⟩
    · rw [if_pos (by omega)]
      exact ⟨_, _, rfl, by simp; omega⟩

theorem isTail_iff {b : UInt8} : isTail b = true ↔ 0x80 ≤ b.toNat ∧ b.toNat ≤ 0xBF := by
  simp [isTail, UInt8.le_iff_toNat_le]

/-! ## One character -/

theorem next_ascii {a : UInt8} (h : a.toNat ≤ 0x7F) (rest : Bytes) :
    next a rest = .char (Char.ofNat a.toNat) 0 := by
  simp only [next, ofByte_ascii h]

theorem toNat_of_ofNat_eq {n : Nat} {b : UInt8} (h : UInt8.ofNat n = b) (hn : n < 256) :
    b.toNat = n := by
  rw [← h, UInt8.toNat_ofNat']
  omega

theorem ofNat_eq_of_toNat {n : Nat} {b : UInt8} (h : b.toNat = n) : UInt8.ofNat n = b := by
  rw [← h, UInt8.ofNat_toNat]

/-- Surrogates and values above U+10FFFF are no characters. -/
theorem val_toNat_ofNat {n : Nat} (h : n < 0xD800 ∨ 0xDFFF < n ∧ n < 0x110000) :
    (Char.ofNat n).val.toNat = n := by
  have hn : n.isValidChar := h
  rw [Char.ofNat, dif_pos hn]
  rfl

theorem utf8EncodeChar_eq_cons (c : Char) : ∃ a tail, String.utf8EncodeChar c = a :: tail := by
  apply List.exists_cons_of_length_pos
  rw [String.length_utf8EncodeChar]
  exact c.utf8Size_pos

/-- The bytes of a character are read as that character, whatever follows. -/
theorem next_of_utf8EncodeChar {c : Char} {a : UInt8} {tail : Bytes}
    (h : String.utf8EncodeChar c = a :: tail) (rest : Bytes) :
    next a (tail ++ rest) = .char c tail.length := by
  have hv : c.val.toNat < 0xD800 ∨ 0xDFFF < c.val.toNat ∧ c.val.toNat < 0x110000 := c.valid
  have hc : Char.ofNat c.val.toNat = c := Char.ofNat_toNat c
  unfold String.utf8EncodeChar at h
  generalize c.val.toNat = n at h hv hc
  simp only at h
  split at h
  · obtain ⟨ha, rfl⟩ := List.cons.inj h
    have ha := toNat_of_ofNat_eq ha (by omega)
    rw [next_ascii (by omega), ha, hc]
    rfl
  split at h
  · obtain ⟨ha, rfl⟩ := List.cons.inj h
    generalize hb : UInt8.ofNat (n % 0x40 + 0x80) = b
    have ha := toNat_of_ofNat_eq ha (by omega)
    have hb := toNat_of_ofNat_eq hb (by omega)
    have ht : isTail b = true := isTail_iff.mpr (by omega)
    have hn : a.toNat % 32 * 64 + tailBits b = n := by
      simp only [tailBits]
      omega
    simp [next, ofByte_two (b := a) (by omega), ht, hn, hc]
  split at h
  · obtain ⟨ha, rfl⟩ := List.cons.inj h
    generalize hb : UInt8.ofNat (n / 64 % 0x40 + 0x80) = b
    generalize hd : UInt8.ofNat (n % 0x40 + 0x80) = d
    have ha := toNat_of_ofNat_eq ha (by omega)
    have hb := toNat_of_ofNat_eq hb (by omega)
    have hd := toNat_of_ofNat_eq hd (by omega)
    obtain ⟨low, high, hl, hlow, hhigh⟩ := ofByte_three (b := a) (by omega)
    have hlow : low ≤ b := by
      rw [UInt8.le_iff_toNat_le]
      omega
    have hhigh : b ≤ high := by
      rw [UInt8.le_iff_toNat_le]
      omega
    have ht : isTail d = true := isTail_iff.mpr (by omega)
    have hn : a.toNat % 16 * 4096 + tailBits b * 64 + tailBits d = n := by
      simp only [tailBits]
      omega
    simp [next, hl, hlow, hhigh, ht, hn, hc]
  · obtain ⟨ha, rfl⟩ := List.cons.inj h
    generalize hb : UInt8.ofNat (n / 4096 % 0x40 + 0x80) = b
    generalize hd : UInt8.ofNat (n / 64 % 0x40 + 0x80) = d
    generalize he : UInt8.ofNat (n % 0x40 + 0x80) = e
    have ha := toNat_of_ofNat_eq ha (by omega)
    have hb := toNat_of_ofNat_eq hb (by omega)
    have hd := toNat_of_ofNat_eq hd (by omega)
    have he := toNat_of_ofNat_eq he (by omega)
    obtain ⟨low, high, hl, hlow, hhigh⟩ := ofByte_four (b := a) (by omega)
    have hlow : low ≤ b := by
      rw [UInt8.le_iff_toNat_le]
      omega
    have hhigh : b ≤ high := by
      rw [UInt8.le_iff_toNat_le]
      omega
    have ht : isTail d = true := isTail_iff.mpr (by omega)
    have ht' : isTail e = true := isTail_iff.mpr (by omega)
    have hn : a.toNat % 8 * 262144 + tailBits b * 4096 + tailBits d * 64 + tailBits e = n := by
      simp only [tailBits]
      omega
    simp [next, hl, hlow, hhigh, ht, ht', hn, hc]

/-- A character that is read is written with the very bytes it was read from. -/
theorem utf8EncodeChar_of_next {a : UInt8} {rest : Bytes} {c : Char} {more : Nat}
    (h : next a rest = .char c more) :
    ∃ tail after, rest = tail ++ after ∧ tail.length = more ∧
      String.utf8EncodeChar c = a :: tail := by
  rcases ofByte_range a with ha | ha | ha | ha | ha
  · rw [next_ascii ha] at h
    obtain ⟨rfl, rfl⟩ := Next.char.inj h
    refine ⟨[], rest, rfl, rfl, ?_⟩
    unfold String.utf8EncodeChar
    rw [val_toNat_ofNat (by omega)]
    simp [ha]
  · simp [next, ofByte_stray ha] at h
  · simp only [next, ofByte_two ha] at h
    repeat' split at h
    all_goals try (simp at h; done)
    next b after hb =>
      obtain ⟨rfl, rfl⟩ := Next.char.inj h
      refine ⟨[b], after, rfl, rfl, ?_⟩
      rw [isTail_iff] at hb
      unfold String.utf8EncodeChar tailBits
      rw [val_toNat_ofNat (by omega)]
      simp only
      rw [if_neg (by omega), if_pos (by omega), ofNat_eq_of_toNat (b := a) (by omega),
        ofNat_eq_of_toNat (b := b) (by omega)]
  · obtain ⟨low, high, hl, hlow, hhigh⟩ := ofByte_three ha
    simp only [next, hl] at h
    repeat' split at h
    all_goals try (simp at h; done)
    next b hb _ c after hc =>
      obtain ⟨rfl, rfl⟩ := Next.char.inj h
      refine ⟨[b, c], after, rfl, rfl, ?_⟩
      rw [isTail_iff] at hc
      simp only [Bool.and_eq_true, decide_eq_true_eq, UInt8.le_iff_toNat_le] at hb
      unfold String.utf8EncodeChar tailBits
      rw [val_toNat_ofNat (by omega)]
      simp only
      rw [if_neg (by omega), if_neg (by omega),
        if_pos (by omega), ofNat_eq_of_toNat (b := a) (by omega),
        ofNat_eq_of_toNat (b := b) (by omega),
        ofNat_eq_of_toNat (b := c) (by omega)]
  · obtain ⟨low, high, hl, hlow, hhigh⟩ := ofByte_four ha
    simp only [next, hl] at h
    repeat' split at h
    all_goals try (simp at h; done)
    next b hb _ c hc _ d after hd =>
      obtain ⟨rfl, rfl⟩ := Next.char.inj h
      refine ⟨[b, c, d], after, rfl, rfl, ?_⟩
      rw [isTail_iff] at hc hd
      simp only [Bool.and_eq_true, decide_eq_true_eq, UInt8.le_iff_toNat_le] at hb
      unfold String.utf8EncodeChar tailBits
      rw [val_toNat_ofNat (by omega)]
      simp only
      rw [if_neg (by omega), if_neg (by omega),
        if_neg (by omega), ofNat_eq_of_toNat (b := a) (by omega),
        ofNat_eq_of_toNat (b := b) (by omega),
        ofNat_eq_of_toNat (b := c) (by omega), ofNat_eq_of_toNat (b := d) (by omega)]

/-! ## Texts -/

theorem decodeFrom_skip (skipped : Bytes) (index : Nat) (rest : Bytes) :
    decodeFrom skipped.length index (skipped ++ rest) =
      decodeFrom 0 (index + skipped.length) rest := by
  induction skipped generalizing index with
  | nil => rfl
  | cons b skipped ih =>
      rw [List.length_cons, List.cons_append, decodeFrom, ih]
      congr 1
      omega

/-- Encoded characters are read in order, and then what follows them. -/
theorem decodeFrom_append (chars : List Char) (index : Nat) (rest : Bytes) :
    decodeFrom 0 index (chars.flatMap String.utf8EncodeChar ++ rest) =
      (decodeFrom 0 (index + (chars.flatMap String.utf8EncodeChar).length) rest).map
        (chars ++ ·) := by
  induction chars generalizing index with
  | nil =>
      simp only [List.flatMap_nil, List.nil_append, List.length_nil, Nat.add_zero]
      cases decodeFrom 0 index rest <;> rfl
  | cons c chars ih =>
      obtain ⟨a, tail, hc⟩ := utf8EncodeChar_eq_cons c
      have hn := next_of_utf8EncodeChar hc (chars.flatMap String.utf8EncodeChar ++ rest)
      rw [List.flatMap_cons, hc, List.append_assoc, List.cons_append, decodeFrom, hn]
      dsimp only
      rw [decodeFrom_skip, ih]
      have hi : index + 1 + tail.length + (chars.flatMap String.utf8EncodeChar).length =
          index + (a :: tail ++ chars.flatMap String.utf8EncodeChar).length := by
        simp only [List.length_append, List.length_cons]
        omega
      rw [hi]
      cases decodeFrom 0 (index + (a :: tail ++ chars.flatMap String.utf8EncodeChar).length) rest
        <;> rfl

theorem eq_flatMap_of_decodeFrom {index : Nat} {bytes : Bytes} {chars : List Char}
    (h : decodeFrom 0 index bytes = .ok chars) :
    bytes = chars.flatMap String.utf8EncodeChar := by
  induction chars generalizing index bytes with
  | nil =>
      cases bytes with
      | nil => rfl
      | cons a rest =>
          rw [decodeFrom] at h
          cases hn : next a rest with
          | char c more =>
              rw [hn] at h
              dsimp only at h
              cases hr : decodeFrom more (index + 1) rest <;> simp [hr, Except.map] at h
          | bad more => simp [hn] at h
          | cut => simp [hn] at h
  | cons c chars ih =>
      cases bytes with
      | nil => simp [decodeFrom] at h
      | cons a rest =>
          rw [decodeFrom] at h
          cases hn : next a rest with
          | bad more => simp [hn] at h
          | cut => simp [hn] at h
          | char d more =>
              obtain ⟨tail, after, rfl, rfl, hd⟩ := utf8EncodeChar_of_next hn
              rw [hn] at h
              dsimp only at h
              rw [decodeFrom_skip] at h
              cases hr : decodeFrom 0 (index + 1 + tail.length) after with
              | error fault => simp [hr, Except.map] at h
              | ok rest =>
                  obtain ⟨rfl, rfl⟩ : d = c ∧ rest = chars := by
                    simpa [hr, Except.map] using h
                  rw [List.flatMap_cons, hd, ih hr, List.cons_append]

/-- Bytes are a text exactly when they are the text's encoding. -/
theorem decode_eq_ok_iff {bytes : Bytes} {text : String} :
    decode bytes = .ok text ↔ bytes = encode text := by
  constructor
  · intro h
    unfold decode at h
    cases hb : decodeFrom 0 0 bytes with
    | error fault => simp [hb, Except.map] at h
    | ok chars =>
        obtain rfl : String.ofList chars = text := by simpa [hb, Except.map] using h
        rw [encode, String.toList_ofList]
        exact eq_flatMap_of_decodeFrom hb
  · rintro rfl
    have h := decodeFrom_append text.toList 0 []
    rw [List.append_nil] at h
    rw [decode, encode, h]
    simp [decodeFrom, Except.map]

/-- A character below U+0080 is one byte. -/
theorem encode_ofList_ascii {chars : List Char} (h : ∀ c ∈ chars, c.toNat < 128) :
    encode (String.ofList chars) = chars.map Char.toUInt8 := by
  rw [encode, String.toList_ofList]
  induction chars with
  | nil => rfl
  | cons c chars ih =>
      have hc : c.val.toNat < 128 := h c List.mem_cons_self
      have hone : String.utf8EncodeChar c = [c.toUInt8] := by
        rw [String.utf8EncodeChar, if_pos (by omega)]
        rfl
      rw [List.flatMap_cons, hone, ih fun d hd => h d (List.mem_cons_of_mem c hd), List.map_cons]
      rfl

theorem decode_encode (text : String) : decode (encode text) = .ok text :=
  decode_eq_ok_iff.mpr rfl

end RespClient.Utf8
