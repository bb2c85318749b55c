import RespClient.Proofs.Wire.Grammar

/-!
# Writing a reply again

A reply has many spellings: signs and zeros may lead its numbers, and nil is a bulk reply or an
array. The bytes that are written for it are one of them, and none is shorter. So what has been
decoded and written again stays as it is, and takes no more room than before. A spelling has
room for the bytes that the reply carries and three more for each reply in it, which bounds how
often some bytes can be decoded.
-/

namespace RespClient

namespace Reply

mutual

/-- The replies that a reply is made of: itself, and those inside its items. -/
def nodes : Reply → Nat
  | .array items => 1 + nodesIn items
  | .simple _ | .error _ | .integer _ | .bulk _ | .null => 1

def nodesIn : List Reply → Nat
  | [] => 0
  | item :: items => nodes item + nodesIn items

end

mutual

/-- The bytes of its texts and bulk strings. -/
def load : Reply → Nat
  | .simple text | .error text => (Utf8.encode text).length
  | .bulk data => data.length
  | .integer _ | .null => 0
  | .array items => loadIn items

def loadIn : List Reply → Nat
  | [] => 0
  | item :: items => load item + loadIn items

end

theorem nodes_pos (v : Reply) : 0 < v.nodes := by
  cases v with
  | array items =>
      rw [nodes]
      omega
  | simple | error | integer | bulk | null => exact Nat.one_pos

end Reply

namespace Wire

/-! ## What is written is a spelling -/

mutual

/-- A reply that has a spelling at all is denoted by the one that is written. -/
theorem denotes_encode_of_denotes : ∀ {v : Reply} {word : Bytes}, Denotes word v →
    Denotes v.encode v
  | .simple _, _, .simple h => by
      rw [Reply.encode]
      exact .simple h
  | .error _, _, .error h => by
      rw [Reply.encode]
      exact .error h
  | .integer _, _, .integer h => by
      rw [Reply.encode]
      exact .integer (numeral_decimal h.lower h.upper)
  | .bulk _, _, .bulk h => by
      rw [Reply.encode, bulk, List.append_assoc]
      exact .bulk (numeral_length h.upper)
  | .null, _, .nilBulk h | .null, _, .nilArray h => by
      rw [Reply.encode]
      exact .nilBulk (numeral_decimal h.lower h.upper)
  | .array _, _, .array h hitems => by
      rw [Reply.encode]
      exact .array (numeral_length h.upper) (denoteEach_encodeItems_of_denoteEach hitems)

theorem denoteEach_encodeItems_of_denoteEach : ∀ {vs : List Reply} {word : Bytes},
    DenoteEach word vs → DenoteEach (Reply.encodeItems vs) vs
  | [], _, .nil => .nil
  | _ :: _, _, .cons h hlater => by
      rw [Reply.encodeItems]
      exact .cons (denotes_encode_of_denotes h) (denoteEach_encodeItems_of_denoteEach hlater)

end

/-! ## No spelling is shorter -/

theorem length_line (kind : UInt8) (body : Bytes) : (line kind body).length = body.length + 3 := by
  simp [line, crlf]

theorem Numeral.length_decimal_le {numeral : Bytes} {n : Int} (h : Numeral numeral n) :
    (decimal n).length ≤ numeral.length := by
  obtain ⟨text, htext, rfl⟩ := h.spelled
  rw [decimal, List.length_map, List.length_map]
  exact Decimal.length_chars_le_of_spells htext

mutual

theorem length_encode_le_of_denotes : ∀ {v : Reply} {word : Bytes}, Denotes word v →
    v.encode.length ≤ word.length
  | .simple _, _, .simple _ | .error _, _, .error _ => by
      simp only [Reply.encode, Nat.le_refl]
  | .integer _, _, .integer h => by
      rw [Reply.encode, length_line, length_line]
      exact Nat.add_le_add_right h.length_decimal_le 3
  | .bulk _, _, .bulk h => by
      have hle := h.length_decimal_le
      simp only [Reply.encode, bulk, List.length_append, length_line]
      omega
  | .null, _, .nilBulk h | .null, _, .nilArray h => by
      rw [Reply.encode, length_line, length_line]
      exact Nat.add_le_add_right h.length_decimal_le 3
  | .array _, _, .array h hitems => by
      rw [Reply.encode, List.length_append, List.length_append, length_line, length_line]
      exact Nat.add_le_add (Nat.add_le_add_right h.length_decimal_le 3)
        (length_encodeItems_le_of_denoteEach hitems)

theorem length_encodeItems_le_of_denoteEach : ∀ {vs : List Reply} {word : Bytes},
    DenoteEach word vs → (Reply.encodeItems vs).length ≤ word.length
  | [], _, .nil => Nat.le_refl _
  | _ :: _, _, .cons h hlater => by
      rw [Reply.encodeItems, List.length_append, List.length_append]
      exact Nat.add_le_add (length_encode_le_of_denotes h)
        (length_encodeItems_le_of_denoteEach hlater)

end

mutual

/-- Each reply inside takes the byte of its kind and a line end, beside the bytes it carries. -/
theorem load_le_length_encode : ∀ v : Reply, 3 * v.nodes + v.load ≤ v.encode.length
  | .simple _ | .error _ => by
      simp only [Reply.nodes, Reply.load, Reply.encode, length_line]
      omega
  | .integer _ | .null => by
      simp only [Reply.nodes, Reply.load, Reply.encode, length_line]
      omega
  | .bulk _ => by
      simp only [Reply.nodes, Reply.load, Reply.encode, bulk, List.length_append, length_line]
      omega
  | .array items => by
      have hitems := loadIn_le_length_encodeItems items
      simp only [Reply.nodes, Reply.load, Reply.encode, List.length_append, length_line]
      omega

theorem loadIn_le_length_encodeItems : ∀ vs : List Reply,
    3 * Reply.nodesIn vs + Reply.loadIn vs ≤ (Reply.encodeItems vs).length
  | [] => Nat.le_refl 0
  | v :: vs => by
      have hv := load_le_length_encode v
      have hvs := loadIn_le_length_encodeItems vs
      simp only [Reply.nodesIn, Reply.loadIn, Reply.encodeItems, List.length_append]
      omega

end

/-! ## At a position -/

/-- The bytes between two positions denote the reply that is decoded there. -/
theorem exists_denotes_of_decodeAt {data : Bytes} {start stop : Nat} {v : Reply}
    (h : decodeAt data start = .ok (some (v, stop))) :
    ∃ word, Denotes word v ∧ start + word.length = stop ∧ stop ≤ data.length := by
  rw [decodeAt_eq_located, located_eq_item_iff] at h
  obtain ⟨rest, hdecode, rfl⟩ := h
  obtain ⟨word, hword, hdenotes⟩ := decode_eq_item_iff.mp hdecode
  have hlength := length_add_three_le_of_decode hdecode
  have hwhole := congrArg List.length hword
  rw [List.length_drop, List.length_append] at hwhole
  rw [List.length_drop] at hlength
  exact ⟨word, hdenotes, by omega, by omega⟩

theorem load_le_of_denotes {v : Reply} {word : Bytes} (h : Denotes word v) :
    3 * v.nodes + v.load ≤ word.length :=
  Nat.le_trans (load_le_length_encode v) (length_encode_le_of_denotes h)

theorem decode_encode_of_denotes {v : Reply} {word : Bytes} (h : Denotes word v) :
    decode v.encode = .item v [] := by
  have hdecode := decode_of_denotes (denotes_encode_of_denotes h) []
  rwa [List.append_nil] at hdecode

/-- The first reply of some bytes, written again. -/
def recode (bytes : Bytes) : Option Bytes :=
  match decode bytes with
  | .item v _ => some v.encode
  | .incomplete | .malformed _ => none

theorem recode_eq_some_iff {bytes again : Bytes} :
    recode bytes = some again ↔ ∃ v rest, decode bytes = .item v rest ∧ v.encode = again := by
  rw [recode]
  cases decode bytes <;> simp

/-- What is written for a reply that was decoded from between two positions. -/
structure NormalForm (v : Reply) (start stop : Nat) : Prop where
  /-- It is decoded as that reply, with nothing left over. -/
  whole : decodeAt v.encode 0 = .ok (some (v, v.encode.length))
  /-- It is written again as it is. -/
  fixed : recode v.encode = some v.encode
  /-- It is no longer than what was decoded. -/
  shrunk : start + v.encode.length ≤ stop
  /-- What was decoded has three bytes for each reply inside, beside those that they carry. -/
  roomy : start + (3 * v.nodes + v.load) ≤ stop

theorem normalForm_of_decodeAt {data : Bytes} {start stop : Nat} {v : Reply}
    (h : decodeAt data start = .ok (some (v, stop))) : NormalForm v start stop := by
  obtain ⟨word, hdenotes, rfl, -⟩ := exists_denotes_of_decodeAt h
  have hdecode := decode_encode_of_denotes hdenotes
  refine ⟨?_, recode_eq_some_iff.mpr ⟨v, [], hdecode, rfl⟩, ?_, ?_⟩
  · rw [decodeAt, List.drop_zero, hdecode]
    rfl
  · exact Nat.add_le_add_left (length_encode_le_of_denotes hdenotes) start
  · exact Nat.add_le_add_left (load_le_of_denotes hdenotes) start

/-! ## Again and again -/

/-- Decoding again and again from a position on gives some replies and comes to another
position. -/
inductive Decodes (data : Bytes) : Nat → List Reply → Nat → Prop where
  | nil {start : Nat} : Decodes data start [] start
  | cons {start next stop : Nat} {v : Reply} {vs : List Reply}
      (h : decodeAt data start = .ok (some (v, next))) (hlater : Decodes data next vs stop) :
      Decodes data start (v :: vs) stop

/-- Each reply is a step of three bytes or more, and none leads past the end. -/
theorem Decodes.length_le {data : Bytes} {start stop : Nat} {vs : List Reply}
    (h : Decodes data start vs stop) : start + 3 * vs.length ≤ max start data.length := by
  induction h with
  | nil => exact Nat.le_max_left _ _
  | @cons start next stop v vs h _ ih =>
      obtain ⟨word, hdenotes, rfl, hstop⟩ := exists_denotes_of_decodeAt h
      have hroom := load_le_of_denotes hdenotes
      have hnodes := v.nodes_pos
      rw [List.length_cons]
      omega

/-- Decoding again and again ends, at a position where there is no reply. -/
theorem exists_decodes (data : Bytes) (start : Nat) :
    ∃ vs stop, Decodes data start vs stop ∧
      (decodeAt data stop = .ok none ∨ ∃ fault, decodeAt data stop = .error fault) := by
  -- on the bytes that are left
  induction hleft : data.length - start using Nat.strongRecOn generalizing start with
  | ind left ih =>
      match h : decodeAt data start with
      | .ok none => exact ⟨[], start, .nil, .inl h⟩
      | .error fault => exact ⟨[], start, .nil, .inr ⟨fault, h⟩⟩
      | .ok (some (v, next)) =>
          obtain ⟨word, hdenotes, rfl, hnext⟩ := exists_denotes_of_decodeAt h
          have hroom := load_le_of_denotes hdenotes
          have hnodes := v.nodes_pos
          obtain ⟨vs, stop, hvs, hstop⟩ := ih _ (by omega) (start + word.length) rfl
          exact ⟨v :: vs, stop, .cons h hvs, hstop⟩

/-- A reply that has been decoded is written in its normal form: this is decoded as the same
reply, is written again as it is, and is no longer than what was decoded. So writing again what
has been decoded changes nothing the second time and never takes more room; and decoding again
and again comes to an end, with one reply for every three bytes at most. -/
theorem normalForm_recode :
    (∀ {data : Bytes} {start stop : Nat} {v : Reply},
      decodeAt data start = .ok (some (v, stop)) → NormalForm v start stop) ∧
    (∀ {bytes again : Bytes}, recode bytes = some again →
      recode again = some again ∧ again.length ≤ bytes.length) ∧
    ∀ (data : Bytes) (start : Nat),
      (∃ vs stop, Decodes data start vs stop ∧
        (decodeAt data stop = .ok none ∨ ∃ fault, decodeAt data stop = .error fault)) ∧
      ∀ {vs : List Reply} {stop : Nat}, Decodes data start vs stop →
        vs.length ≤ data.length / 3 := by
  refine ⟨normalForm_of_decodeAt, fun {bytes again} h => ?_, fun data start => ?_⟩
  · obtain ⟨v, rest, hdecode, rfl⟩ := recode_eq_some_iff.mp h
    obtain ⟨word, rfl, hdenotes⟩ := decode_eq_item_iff.mp hdecode
    refine ⟨recode_eq_some_iff.mpr ⟨v, [], decode_encode_of_denotes hdenotes, rfl⟩, ?_⟩
    rw [List.length_append]
    exact Nat.le_add_right_of_le (length_encode_le_of_denotes hdenotes)
  · refine ⟨exists_decodes data start, fun {vs stop} h => ?_⟩
    have hlength := h.length_le
    omega

/-- A byte of something else, and then an array whose numbers and nils are spelled at length;
behind it a reply is broken off. -/
def atLength : Bytes :=
  [7] ++ ascii "*+03\r\n*-01\r\n:-00\r\n$002\r\n\r\n\r\n:5\r\n+x"

theorem normalForm_recode_atLength :
    NormalForm (.array [.null, .integer 0, .bulk crlf]) 1 29 ∧
      recode (ascii "*+01\r\n*-1\r\n") = some (ascii "*1\r\n$-1\r\n") ∧
      recode (ascii "*1\r\n$-1\r\n") = some (ascii "*1\r\n$-1\r\n") ∧
      Decodes atLength 1 [.array [.null, .integer 0, .bulk crlf], .integer 5] 33 ∧
      [Reply.array [.null, .integer 0, .bulk crlf], .integer 5].length ≤ atLength.length / 3 := by
  have hfirst : decodeAt atLength 1 = .ok (some (.array [.null, .integer 0, .bulk crlf], 29)) := by
    rfl
  have hsecond : decodeAt atLength 29 = .ok (some (.integer 5, 33)) := by rfl
  have hrecode : recode (ascii "*+01\r\n*-1\r\n") = some (ascii "*1\r\n$-1\r\n") := by rfl
  have hdecodes : Decodes atLength 1 [.array [.null, .integer 0, .bulk crlf], .integer 5] 33 :=
    .cons hfirst (.cons hsecond .nil)
  exact ⟨normalForm_recode.1 hfirst, hrecode, (normalForm_recode.2.1 hrecode).1, hdecodes,
    (normalForm_recode.2.2 atLength 1).2 hdecodes⟩

end Wire

end RespClient
