import RespClient.Proofs.Wire.Grammar

/-!
# What is written is read back

Decoding the encoding of a reply gives the reply, wherever the encoding stands
and whatever follows it. The one condition is that no simple or error text holds
a line end; a reply with such a text anywhere inside is never read back.
-/

namespace RespClient

namespace Reply

mutual

/-- No simple or error text anywhere inside holds a line end. -/
def WireSafe : Reply → Prop
  | .simple text | .error text => ¬ crlf <:+: Utf8.encode text
  | .integer _ | .bulk _ | .null => True
  | .array items => AllWireSafe items

def AllWireSafe : List Reply → Prop
  | [] => True
  | item :: items => WireSafe item ∧ AllWireSafe items

end

mutual

/-- Every length inside is a signed number of 64 bits. -/
def Fits : Reply → Prop
  | .simple _ | .error _ | .integer _ | .null => True
  | .bulk data => data.length ≤ Int64.maxValue.toInt
  | .array items => items.length ≤ Int64.maxValue.toInt ∧ AllFit items

def AllFit : List Reply → Prop
  | [] => True
  | item :: items => Fits item ∧ AllFit items

end

theorem allWireSafe_bulk (words : List Bytes) : AllWireSafe (words.map .bulk) := by
  induction words with
  | nil => trivial
  | cons word words ih => exact ⟨trivial, ih⟩

theorem allFit_append {xs ys : List Reply} : AllFit (xs ++ ys) ↔ AllFit xs ∧ AllFit ys := by
  induction xs with
  | nil => simp [AllFit]
  | cons x xs ih => simp [AllFit, ih, and_assoc]

end Reply

namespace Wire

/-! ## Encodings are words of the language -/

mutual

theorem denotes_encode : ∀ v : Reply, v.WireSafe → v.Fits → Denotes v.encode v
  | .simple _, hs, _ => by
      rw [Reply.encode]
      exact .simple hs
  | .error _, hs, _ => by
      rw [Reply.encode]
      exact .error hs
  | .integer n, _, _ => by
      rw [Reply.encode]
      exact .integer (numeral_decimal n.minValue_le_toInt n.toInt_le)
  | .bulk _, _, hf => by
      rw [Reply.encode, bulk, List.append_assoc]
      exact .bulk (numeral_length hf)
  | .null, _, _ => by
      rw [Reply.encode]
      exact .nilBulk (numeral_decimal (by decide) (by decide))
  | .array items, hs, hf => by
      rw [Reply.encode]
      exact .array (numeral_length hf.1) (denoteEach_encodeItems items hs hf.2)

theorem denoteEach_encodeItems : ∀ xs : List Reply, Reply.AllWireSafe xs → Reply.AllFit xs →
    DenoteEach (Reply.encodeItems xs) xs
  | [], _, _ => .nil
  | x :: xs, hs, hf => by
      rw [Reply.encodeItems]
      exact .cons (denotes_encode x hs.1 hf.1) (denoteEach_encodeItems xs hs.2 hf.2)

end

theorem decode_encode (v : Reply) (hs : v.WireSafe) (hf : v.Fits) (rest : Bytes) :
    decode (v.encode ++ rest) = .item v rest :=
  decode_of_denotes (denotes_encode v hs hf) rest

theorem items_encodeItems (xs : List Reply) (hs : Reply.AllWireSafe xs) (hf : Reply.AllFit xs)
    (done : List Reply) (rest : Bytes) :
    items decode xs.length done (Reply.encodeItems xs ++ rest) = .item (done.reverse ++ xs) rest :=
  items_of_denoteEach (denoteEach_encodeItems xs hs hf) done rest

/-! ## Texts that hold a line end -/

/-- A text that holds a line end is cut there, so another text is read. -/
theorem frame_line_of_infix {text : String} (h : crlf <:+: Utf8.encode text) (kind : UInt8)
    (rest : Bytes) : ∃ line after, line.length < (Utf8.encode text).length ∧
      frame (Wire.line kind (Utf8.encode text) ++ rest) = frameOfLine kind line after := by
  obtain ⟨line, after, heq, hcut⟩ := cutPair_of_infix h
  refine ⟨line, after ++ (crlf ++ rest), ?_, ?_⟩
  · rw [heq]
    simp
  · have hc := hcut (crlf ++ rest)
    rw [Wire.line, List.append_assoc, List.cons_append]
    simp only [frame, hc]

theorem readText_ne {line : Bytes} {text : String}
    (h : line.length < (Utf8.encode text).length) : readText line ≠ .ok text := by
  intro hr
  rw [readText_eq_ok_iff.mp hr] at h
  exact Nat.lt_irrefl _ h

/-- Of the two kinds of reply that are one line of text, one that is read back
holds no line end. -/
theorem not_infix_of_decode (kind : UInt8) (reply : String → Reply)
    (hinj : ∀ s t, reply s = reply t → s = t)
    (hkind : ∀ line rest, frameOfLine kind line rest =
      match readText line with
      | .ok text => .item (.value (reply text)) rest
      | .error fault => .malformed fault)
    {text : String} {rest after : Bytes}
    (h : decode (line kind (Utf8.encode text) ++ rest) = .item (reply text) after) :
    ¬ crlf <:+: Utf8.encode text := by
  intro hin
  obtain ⟨line, tail, hlt, hf⟩ := frame_line_of_infix hin kind rest
  rw [decode_eq, hf, hkind] at h
  cases hr : readText line with
  | error fault => simp [hr] at h
  | ok t =>
      simp only [hr, Verdict.item.injEq] at h
      rw [hinj t text h.1] at hr
      exact readText_ne hlt hr

/-- Reading items keeps those that are already read. -/
theorem prefix_of_items {one : Bytes → Verdict Reply} {count : Nat} {done replies : List Reply}
    {bytes rest : Bytes} (h : items one count done bytes = .item replies rest) :
    done.reverse <+: replies := by
  induction count generalizing done bytes with
  | zero =>
      simp only [items, Verdict.item.injEq] at h
      obtain ⟨rfl, -⟩ := h
      exact List.prefix_rfl
  | succ count ih =>
      rw [items] at h
      split at h
      · have hp := ih h
        rw [List.reverse_cons] at hp
        exact (List.prefix_append _ _).trans hp
      · simp at h
      · simp at h

mutual

/-- Reading a reply back shows that no text inside it holds a line end. The items
of an array are gone through in order: one that is read back is safe, so the next
is read from its own first byte. -/
theorem wireSafe_of_decode : ∀ (v : Reply), v.Fits → ∀ {rest after : Bytes},
    decode (v.encode ++ rest) = .item v after → v.WireSafe
  | .simple _, _, _, _, h => not_infix_of_decode 43 .simple (by simp) (fun _ _ => rfl) h
  | .error _, _, _, _, h => not_infix_of_decode 45 .error (by simp) (fun _ _ => rfl) h
  | .integer _, _, _, _, _ => trivial
  | .bulk _, _, _, _, _ => trivial
  | .null, _, _, _, _ => trivial
  | .array items, hf, rest, after, h => by
      rw [Reply.encode, List.append_assoc, decode_array (numeral_length hf.1)] at h
      cases hi : Wire.items decode items.length [] (Reply.encodeItems items ++ rest) with
      | incomplete => simp [hi] at h
      | malformed fault => simp [hi] at h
      | item replies tail =>
          obtain ⟨rfl, -⟩ : replies = items ∧ tail = after := by simpa [hi] using h
          exact allWireSafe_of_items replies hf.2 hi

theorem allWireSafe_of_items : ∀ (xs : List Reply), Reply.AllFit xs →
    ∀ {done : List Reply} {rest after : Bytes},
      items decode xs.length done (Reply.encodeItems xs ++ rest) =
        .item (done.reverse ++ xs) after → Reply.AllWireSafe xs
  | [], _, _, _, _, _ => trivial
  | x :: xs, hf, done, rest, after, h => by
      rw [List.length_cons, items, Reply.encodeItems, List.append_assoc] at h
      cases hx : decode (x.encode ++ (Reply.encodeItems xs ++ rest)) with
      | incomplete => simp [hx] at h
      | malformed fault => simp [hx] at h
      | item y tail =>
          rw [hx] at h
          dsimp only at h
          -- what was read first stands first in what was read at all, so it is `x`
          have hp := prefix_of_items h
          rw [List.reverse_cons, List.prefix_append_right_inj, List.cons_prefix_cons] at hp
          obtain ⟨rfl, -⟩ := hp
          have hsafe := wireSafe_of_decode y hf.1 hx
          rw [decode_encode y hsafe hf.1, Verdict.item.injEq] at hx
          obtain ⟨-, rfl⟩ := hx
          refine ⟨hsafe, @allWireSafe_of_items xs hf.2 (y :: done) rest after ?_⟩
          rw [h, List.reverse_cons, List.append_assoc, List.singleton_append]

end

/-! ## At a position -/

theorem decodeAt_encode_of_wireSafe (v : Reply) (hs : v.WireSafe) (hf : v.Fits)
    (before rest : Bytes) :
    decodeAt (before ++ v.encode ++ rest) before.length =
      .ok (some (v, before.length + v.encode.length)) := by
  rw [decodeAt, List.append_assoc, List.drop_left, decode_encode v hs hf]
  simp only [List.length_append]
  congr 3
  omega

/-- The encoding of a reply is read back from where it stands, exactly when no
text inside the reply holds a line end. -/
theorem decodeAt_encode (v : Reply) (hfits : v.Fits) :
    (v.WireSafe → ∀ before rest : Bytes,
      decodeAt (before ++ v.encode ++ rest) before.length =
        .ok (some (v, before.length + v.encode.length))) ∧
    (¬ v.WireSafe → ∀ stop, decodeAt v.encode 0 ≠ .ok (some (v, stop))) := by
  constructor
  · intro hs before rest
    exact decodeAt_encode_of_wireSafe v hs hfits before rest
  · intro hs stop h
    unfold decodeAt at h
    rw [List.drop_zero] at h
    cases hd : decode v.encode with
    | incomplete => simp [hd] at h
    | malformed fault => simp [hd] at h
    | item reply rest =>
        obtain ⟨rfl, -⟩ : reply = v ∧ _ := by simpa [hd] using h
        rw [← List.append_nil reply.encode] at hd
        exact hs (wireSafe_of_decode reply hfits hd)

/-- A nested reply whose texts end in half a line end. -/
def halfEnds : Reply :=
  .array [.simple "a\r", .array [.bulk [13, 10], .null], .integer (-9223372036854775808),
    .error "\n"]

/-- A reply whose last text holds a whole one. -/
def wholeEnd : Reply :=
  .array [.integer 0, .error "x\r\ny"]

theorem decodeAt_encode_halfEnds_wholeEnd :
    (halfEnds.Fits ∧ wholeEnd.Fits) ∧
      decodeAt ([43] ++ halfEnds.encode ++ [10]) 1 =
        .ok (some (halfEnds, 1 + halfEnds.encode.length)) ∧
      decodeAt wholeEnd.encode 0 ≠ .ok (some (wholeEnd, wholeEnd.encode.length)) := by
  have hfits : halfEnds.Fits ∧ wholeEnd.Fits := by
    simp only [halfEnds, wholeEnd, Reply.Fits, Reply.AllFit]
    decide
  have hsafe : halfEnds.WireSafe := by
    simp only [halfEnds, Reply.WireSafe, Reply.AllWireSafe]
    decide +kernel
  have hunsafe : ¬ wholeEnd.WireSafe := by
    simp only [wholeEnd, Reply.WireSafe, Reply.AllWireSafe]
    decide +kernel
  exact ⟨hfits, (decodeAt_encode halfEnds hfits.1).1 hsafe [43] [10],
    (decodeAt_encode wholeEnd hfits.2).2 hunsafe _⟩

end Wire

end RespClient
