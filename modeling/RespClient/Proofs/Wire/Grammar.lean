import RespClient.Proofs.Wire.Numeral
import RespClient.Proofs.Wire.Stability

/-!
# The language of replies

`Denotes` says, without a decoder, which bytes stand for a reply: a byte for the kind, a line,
and what the line announces. The grammar has more spellings than one of a reply, since a
number may begin with a plus sign or with zeros, and nil is a bulk reply or an array of length
-1. Decoding from a position on accepts exactly the bytes of this grammar, whatever follows
them: no word of it is the beginning of another one, and none has two meanings.
-/

namespace RespClient

namespace Wire

mutual

/-- Bytes denote a reply. -/
inductive Denotes : Bytes → Reply → Prop where
  | simple {text : String} (h : ¬ crlf <:+: Utf8.encode text) :
      Denotes (line 43 (Utf8.encode text)) (.simple text)
  | error {text : String} (h : ¬ crlf <:+: Utf8.encode text) :
      Denotes (line 45 (Utf8.encode text)) (.error text)
  | integer {numeral : Bytes} {n : Int64} (h : Numeral numeral n.toInt) :
      Denotes (line 58 numeral) (.integer n)
  | bulk {numeral data : Bytes} (h : Numeral numeral data.length) :
      Denotes (line 36 numeral ++ (data ++ crlf)) (.bulk data)
  | nilBulk {numeral : Bytes} (h : Numeral numeral (-1)) : Denotes (line 36 numeral) .null
  | array {numeral word : Bytes} {items : List Reply} (h : Numeral numeral items.length)
      (hitems : DenoteEach word items) : Denotes (line 42 numeral ++ word) (.array items)
  | nilArray {numeral : Bytes} (h : Numeral numeral (-1)) : Denotes (line 42 numeral) .null

/-- Bytes denote replies one after another. -/
inductive DenoteEach : Bytes → List Reply → Prop where
  | nil : DenoteEach [] []
  | cons {word later : Bytes} {reply : Reply} {replies : List Reply} (h : Denotes word reply)
      (hlater : DenoteEach later replies) : DenoteEach (word ++ later) (reply :: replies)

end

/-! ## Lines and payloads -/

theorem readText_eq_ok_iff {line : Bytes} {text : String} :
    readText line = .ok text ↔ line = Utf8.encode text := by
  rw [readText, mapError_eq_ok_iff, Utf8.decode_eq_ok_iff]

/-- A line is found by its end, whatever follows it. -/
theorem frame_line {body : Bytes} (h : ¬ crlf <:+: body) (kind : UInt8) (rest : Bytes) :
    frame (line kind body ++ rest) = frameOfLine kind body rest := by
  have hc : cutPair 13 10 (body ++ 13 :: 10 :: rest) = some (body, rest) :=
    cutPair_append_pair (by decide) h rest
  rw [line, crlf, List.append_assoc, List.cons_append]
  simp only [frame, List.cons_append, List.nil_append, hc]

/-- A frame begins with a line. -/
theorem exists_line_of_frame {bytes rest : Bytes} {f : Frame} (h : frame bytes = .item f rest) :
    ∃ kind body after, bytes = line kind body ++ after ∧ ¬ crlf <:+: body ∧
      frameOfLine kind body after = .item f rest := by
  cases bytes with
  | nil => simp [frame] at h
  | cons kind bytes =>
      simp only [frame] at h
      cases hc : cutPair 13 10 bytes with
      | none => simp [hc] at h
      | some parts =>
          obtain ⟨body, after⟩ := parts
          rw [hc] at h
          obtain ⟨rfl, hbody⟩ := (cutPair_eq_some_iff (by decide)).mp hc
          exact ⟨kind, body, after, by simp [line, crlf], hbody, h⟩

theorem readBulk_append (data rest : Bytes) :
    readBulk data.length (data ++ crlf ++ rest) = .item (.value (.bulk data)) rest := by
  rw [readBulk, List.append_assoc, List.drop_left, List.take_left]
  rfl

theorem exists_data_of_readBulk {length : Nat} {bytes rest : Bytes} {f : Frame}
    (h : readBulk length bytes = .item f rest) :
    ∃ data, f = .value (.bulk data) ∧ data.length = length ∧ bytes = data ++ crlf ++ rest := by
  unfold readBulk at h
  split at h
  · next cr lf after hd =>
      split at h
      · next hend =>
          obtain ⟨rfl, rfl⟩ := hend
          simp only [Verdict.item.injEq] at h
          obtain ⟨rfl, rfl⟩ := h
          have hlength := congrArg List.length hd
          simp only [List.length_drop, List.length_cons] at hlength
          refine ⟨bytes.take length, rfl, List.length_take_of_le (by omega), ?_⟩
          have hwhole := List.take_append_drop length bytes
          rw [hd] at hwhole
          rw [List.append_assoc]
          exact hwhole.symm
      · simp at h
  · simp at h

/-! ## What denotes a reply is decoded -/

/-- A first frame that is a value is the reply. -/
theorem decode_of_frame {bytes rest : Bytes} {reply : Reply}
    (h : frame bytes = .item (.value reply) rest) : decode bytes = .item reply rest := by
  rw [decode_eq, h]

/-- An array of items is read as soon as they are, one after another. -/
theorem decode_array {numeral : Bytes} {length : Nat} (h : Numeral numeral length)
    (rest : Bytes) :
    decode (line 42 numeral ++ rest) =
      match items decode length [] rest with
      | .item replies rest => .item (.array replies) rest
      | .incomplete => .incomplete
      | .malformed fault => .malformed fault := by
  have hf := frame_line h.crlf_not_infix 42 rest
  simp only [frameOfLine, readLength_eq_some_iff.mpr h] at hf
  rw [decode_eq]
  cases length with
  | zero => rw [hf]; rfl
  | succ length => rw [hf]; rfl

mutual

theorem decode_of_denotes : ∀ {reply : Reply} {word : Bytes}, Denotes word reply →
    ∀ rest : Bytes, decode (word ++ rest) = .item reply rest
  | .simple text, _, .simple h, rest => by
      apply decode_of_frame
      rw [frame_line h]
      simp only [frameOfLine, readText_eq_ok_iff.mpr rfl]
      rfl
  | .error text, _, .error h, rest => by
      apply decode_of_frame
      rw [frame_line h]
      simp only [frameOfLine, readText_eq_ok_iff.mpr rfl]
      rfl
  | .integer n, _, .integer h, rest => by
      apply decode_of_frame
      rw [frame_line h.crlf_not_infix]
      simp only [frameOfLine, readNumber_eq_ok_iff.mpr h]
      rfl
  | .bulk data, _, .bulk h, rest => by
      apply decode_of_frame
      rw [List.append_assoc, frame_line h.crlf_not_infix]
      simp only [frameOfLine, readLength_eq_some_iff.mpr h, readBulk_append]
      rfl
  | .null, _, .nilBulk h, rest => by
      apply decode_of_frame
      rw [frame_line h.crlf_not_infix]
      simp only [frameOfLine, readLength_eq_none_iff.mpr h]
      rfl
  | .null, _, .nilArray h, rest => by
      apply decode_of_frame
      rw [frame_line h.crlf_not_infix]
      simp only [frameOfLine, readLength_eq_none_iff.mpr h]
      rfl
  | .array items, _, .array h hitems, rest => by
      rw [List.append_assoc, decode_array h, items_of_denoteEach hitems [] rest]
      rfl

theorem items_of_denoteEach : ∀ {replies : List Reply} {word : Bytes}, DenoteEach word replies →
    ∀ (done : List Reply) (rest : Bytes),
      items decode replies.length done (word ++ rest) = .item (done.reverse ++ replies) rest
  | [], _, .nil, done, rest => by simp [items]
  | reply :: replies, _, .cons h hlater, done, rest => by
      rw [List.length_cons, items, List.append_assoc, decode_of_denotes h]
      dsimp only
      rw [items_of_denoteEach hlater, List.reverse_cons, List.append_assoc,
        List.singleton_append]

end

/-- Where fewer replies stand than are asked for, the next one is missing. -/
theorem items_of_fewer {replies : List Reply} {word : Bytes} (h : DenoteEach word replies)
    {count : Nat} (hcount : replies.length < count) (done : List Reply) :
    items decode count done word = .incomplete := by
  induction replies generalizing word count done with
  | nil =>
      cases h
      cases count with
      | zero => exact absurd hcount (Nat.lt_irrefl 0)
      | succ count => rfl
  | cons reply replies ih =>
      cases h with
      | cons hreply hlater =>
          cases count with
          | zero => exact absurd hcount (Nat.not_lt_zero _)
          | succ count =>
              rw [items, decode_of_denotes hreply]
              exact ih hlater (Nat.lt_of_succ_lt_succ hcount) _

/-! ## What is decoded denotes a reply -/

/-- The bytes of a frame: those of a value denote it, and the head of an array is the line of
its length. -/
inductive FrameOf : Bytes → Frame → Prop where
  | value {word : Bytes} {reply : Reply} (h : Denotes word reply) : FrameOf word (.value reply)
  | arrayHead {numeral : Bytes} {length : Nat} (h : Numeral numeral length) :
      FrameOf (line 42 numeral) (.arrayHead length)

section

variable {kind : UInt8} {body after rest : Bytes} {f : Frame}

/-- A frame that is one line takes nothing of what follows. -/
theorem frameOf_of_line {g : Frame} (hg : FrameOf (line kind body) g)
    (h : (.item g after : Verdict Frame) = .item f rest) :
    ∃ payload, after = payload ++ rest ∧ FrameOf (line kind body ++ payload) f := by
  obtain ⟨rfl, rfl⟩ := Verdict.item.inj h
  exact ⟨[], rfl, by rwa [List.append_nil]⟩

/-- Of the two kinds of reply that are one line of text, the text is denoted. -/
theorem frameOf_of_text {reply : String → Reply}
    (hreply : ∀ {text}, ¬ crlf <:+: Utf8.encode text →
      Denotes (line kind (Utf8.encode text)) (reply text))
    (hbody : ¬ crlf <:+: body)
    (h : (match readText body with
      | .ok text => .item (.value (reply text)) after
      | .error fault => .malformed fault : Verdict Frame) = .item f rest) :
    ∃ payload, after = payload ++ rest ∧ FrameOf (line kind body ++ payload) f := by
  cases ht : readText body with
  | error fault => simp [ht] at h
  | ok text =>
      rw [ht] at h
      obtain rfl := readText_eq_ok_iff.mp ht
      exact frameOf_of_line (.value (hreply hbody)) h

theorem frameOf_of_frameOfLine (hbody : ¬ crlf <:+: body)
    (h : frameOfLine kind body after = .item f rest) :
    ∃ payload, after = payload ++ rest ∧ FrameOf (line kind body ++ payload) f := by
  unfold frameOfLine at h
  split at h
  case isTrue hkind =>
    subst hkind
    exact frameOf_of_text .simple hbody h
  split at h
  case isTrue hkind =>
    subst hkind
    exact frameOf_of_text .error hbody h
  split at h
  case isTrue hkind =>
    subst hkind
    cases hn : readNumber "integer" body with
    | error fault => simp [hn] at h
    | ok n =>
        rw [hn] at h
        exact frameOf_of_line (.value (.integer (readNumber_eq_ok_iff.mp hn))) h
  split at h
  case isTrue hkind =>
    subst hkind
    cases hl : readLength "bulk string length" body with
    | error fault => simp [hl] at h
    | ok length? =>
        rw [hl] at h
        cases length? with
        | none => exact frameOf_of_line (.value (.nilBulk (readLength_eq_none_iff.mp hl))) h
        | some length =>
            obtain ⟨data, rfl, rfl, rfl⟩ := exists_data_of_readBulk h
            exact ⟨data ++ crlf, rfl, .value (.bulk (readLength_eq_some_iff.mp hl))⟩
  split at h
  case isTrue hkind =>
    subst hkind
    cases hl : readLength "array length" body with
    | error fault => simp [hl] at h
    | ok length? =>
        rw [hl] at h
        cases length? with
        | none => exact frameOf_of_line (.value (.nilArray (readLength_eq_none_iff.mp hl))) h
        | some length =>
            have hnumeral := readLength_eq_some_iff.mp hl
            cases length with
            | zero =>
                refine frameOf_of_line (.value ?_) h
                rw [← List.append_nil (line 42 body)]
                exact .array hnumeral .nil
            | succ length => exact frameOf_of_line (.arrayHead hnumeral) h
  case isFalse => simp at h

end

theorem frameOf_of_frame {bytes rest : Bytes} {f : Frame} (h : frame bytes = .item f rest) :
    ∃ word, bytes = word ++ rest ∧ FrameOf word f := by
  obtain ⟨kind, body, after, rfl, hbody, hline⟩ := exists_line_of_frame h
  obtain ⟨payload, rfl, hframe⟩ := frameOf_of_frameOfLine hbody hline
  exact ⟨line kind body ++ payload, by rw [List.append_assoc], hframe⟩

/-- The items of an array are denoted if each reader of an item reads what is denoted. -/
theorem denoteEach_of_items {one : Bytes → Verdict Reply}
    (hone : ∀ {bytes rest reply}, one bytes = .item reply rest →
      ∃ word, bytes = word ++ rest ∧ Denotes word reply)
    {count : Nat} {done replies : List Reply} {bytes rest : Bytes}
    (h : items one count done bytes = .item replies rest) :
    ∃ word later, bytes = word ++ rest ∧ replies = done.reverse ++ later ∧
      later.length = count ∧ DenoteEach word later := by
  induction count generalizing done bytes with
  | zero =>
      simp only [items, Verdict.item.injEq] at h
      obtain ⟨rfl, rfl⟩ := h
      exact ⟨[], [], rfl, by simp, rfl, .nil⟩
  | succ count ih =>
      rw [items] at h
      cases hr : one bytes with
      | incomplete => simp [hr] at h
      | malformed fault => simp [hr] at h
      | item reply after =>
          rw [hr] at h
          obtain ⟨word, rfl, hword⟩ := hone hr
          obtain ⟨others, later, rfl, rfl, rfl, hlater⟩ := ih h
          exact ⟨word ++ others, reply :: later, by simp, by simp, rfl, .cons hword hlater⟩

theorem denotes_of_decodeWithin {depth : Nat} {bytes rest : Bytes} {reply : Reply}
    (h : decodeWithin depth bytes = .item reply rest) :
    ∃ word, bytes = word ++ rest ∧ Denotes word reply := by
  induction depth generalizing bytes reply rest with
  | zero => simp [decodeWithin] at h
  | succ depth ih =>
      rw [decodeWithin] at h
      cases hf : frame bytes with
      | incomplete => simp [hf] at h
      | malformed fault => simp [hf] at h
      | item f after =>
          rw [hf] at h
          obtain ⟨word, rfl, hword⟩ := frameOf_of_frame hf
          cases hword with
          | value hvalue =>
              obtain ⟨rfl, rfl⟩ := Verdict.item.inj h
              exact ⟨word, rfl, hvalue⟩
          | @arrayHead numeral length hnumeral =>
              cases hi : items (decodeWithin depth) length [] after with
              | incomplete => simp [hi] at h
              | malformed fault => simp [hi] at h
              | item replies last =>
                  simp only [hi, Verdict.item.injEq] at h
                  obtain ⟨rfl, rfl⟩ := h
                  obtain ⟨others, later, rfl, rfl, rfl, hlater⟩ := denoteEach_of_items ih hi
                  exact ⟨line 42 numeral ++ others, by simp, .array hnumeral hlater⟩

/-- A reply is decoded from some bytes exactly when they begin with bytes that denote it. -/
theorem decode_eq_item_iff {bytes rest : Bytes} {reply : Reply} :
    decode bytes = .item reply rest ↔ ∃ word, bytes = word ++ rest ∧ Denotes word reply := by
  constructor
  · exact denotes_of_decodeWithin
  · rintro ⟨word, rfl, hword⟩
    exact decode_of_denotes hword rest

/-! ## At a position -/

/-- Decoding from a position on accepts exactly the language of replies: it comes to a reply
and a position exactly when the bytes in between denote the reply. -/
theorem decodeAt_eq_some_iff (data : Bytes) (start stop : Nat) (reply : Reply) :
    decodeAt data start = .ok (some (reply, stop)) ↔
      start ≤ stop ∧ stop ≤ data.length ∧ Denotes (data.extract start stop) reply := by
  rw [decodeAt_eq_located, located_eq_item_iff]
  constructor
  · rintro ⟨rest, hdecode, rfl⟩
    obtain ⟨word, hword, hdenotes⟩ := decode_eq_item_iff.mp hdecode
    have hlength := length_add_three_le_of_decode hdecode
    rw [List.length_drop] at hlength
    have hwhole := drop_eq_extract_append_of_suffix (suffix_of_decode hdecode) (by omega)
    obtain rfl := List.append_cancel_right (hword.symm.trans hwhole)
    exact ⟨by omega, by omega, hdenotes⟩
  · rintro ⟨hstart, hstop, hdenotes⟩
    refine ⟨data.drop stop, ?_, ?_⟩
    · rw [drop_eq_extract_append data hstart]
      exact decode_of_denotes hdenotes _
    · rw [List.length_drop]
      omega

/-- Another spelling of an array with an empty item than the one that is written. -/
example : decodeAt (ascii "*+01\r\n$-0\r\n\r\n") 0 = .ok (some (.array [.bulk []], 13)) := by
  rfl

end Wire

end RespClient
