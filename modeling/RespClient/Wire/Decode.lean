import RespClient.Wire.Frame

/-!
# Decoding whole replies

A reply is one frame, or an array head and as many replies as it announces.
Each nested array takes bytes of its own, so the number of bytes bounds the
nesting, and items are read only as long as there are bytes for them whatever
length the head announces.
-/

namespace RespClient

namespace Wire

/-- Read `count` items in a row with `one`; `done` holds the items already
read, last first. -/
def items (one : Bytes → Verdict Reply) : (count : Nat) → (done : List Reply) → Bytes →
    Verdict (List Reply)
  | 0, done, bytes => .item done.reverse bytes
  | count + 1, done, bytes =>
      match one bytes with
      | .item reply rest => items one count (reply :: done) rest
      | .incomplete => .incomplete
      | .malformed fault => .malformed fault

/-- Read a reply whose arrays nest less than `depth` deep. -/
def decodeWithin : (depth : Nat) → Bytes → Verdict Reply
  | 0, _ => .incomplete
  | depth + 1, bytes =>
      match frame bytes with
      | .item (.value reply) rest => .item reply rest
      | .item (.arrayHead length) rest =>
          match items (decodeWithin depth) length [] rest with
          | .item replies rest => .item (.array replies) rest
          | .incomplete => .incomplete
          | .malformed fault => .malformed fault
      | .incomplete => .incomplete
      | .malformed fault => .malformed fault

/-- The first reply of some bytes. -/
def decode (bytes : Bytes) : Verdict Reply :=
  decodeWithin (bytes.length + 1) bytes

/-- The first reply from a position on, and the position after it; `none` while
the reply is incomplete. -/
def decodeAt (data : Bytes) (start : Nat) : Except Fault (Option (Reply × Nat)) :=
  match decode (data.drop start) with
  | .item reply rest => .ok (some (reply, data.length - rest.length))
  | .incomplete => .ok none
  | .malformed fault => .error fault

/-- The first frame from a position on, and the position after it; `none` while
the frame is incomplete. -/
def frameAt (data : Bytes) (start : Nat) : Except Fault (Option (Frame × Nat)) :=
  match frame (data.drop start) with
  | .item f rest => .ok (some (f, data.length - rest.length))
  | .incomplete => .ok none
  | .malformed fault => .error fault

theorem length_le_of_items {one : Bytes → Verdict Reply}
    (hone : ∀ {bytes reply rest}, one bytes = .item reply rest → rest.length ≤ bytes.length)
    {count : Nat} {done replies : List Reply} {bytes rest : Bytes}
    (h : items one count done bytes = .item replies rest) : rest.length ≤ bytes.length := by
  induction count generalizing done bytes with
  | zero =>
      simp only [items, Verdict.item.injEq] at h
      obtain ⟨-, rfl⟩ := h
      exact Nat.le_refl _
  | succ count ih =>
      rw [items] at h
      split at h
      · next hr => exact Nat.le_trans (ih h) (hone hr)
      · simp at h
      · simp at h

/-- A reply takes at least three bytes. -/
theorem length_add_three_le_of_decodeWithin {depth : Nat} {bytes rest : Bytes} {reply : Reply}
    (h : decodeWithin depth bytes = .item reply rest) : rest.length + 3 ≤ bytes.length := by
  induction depth generalizing bytes reply rest with
  | zero => simp [decodeWithin] at h
  | succ depth ih =>
      rw [decodeWithin] at h
      split at h
      · next hf =>
          simp only [Verdict.item.injEq] at h
          obtain ⟨-, rfl⟩ := h
          exact length_add_three_le_of_frame hf
      · next hf =>
          split at h
          · next hi =>
              simp only [Verdict.item.injEq] at h
              obtain ⟨-, rfl⟩ := h
              have := length_le_of_items (fun hr => by have := ih hr; omega) hi
              have := length_add_three_le_of_frame hf
              omega
          · simp at h
          · simp at h
      · simp at h
      · simp at h

/-- Items are read alike by two readers that agree on bytes no longer than
these. -/
theorem items_congr (one other : Bytes → Verdict Reply) (bound : Nat)
    (hone : ∀ {bytes reply rest}, one bytes = .item reply rest → rest.length ≤ bytes.length)
    (hagree : ∀ bytes : Bytes, bytes.length ≤ bound → one bytes = other bytes) :
    ∀ (count : Nat) (done : List Reply) (bytes : Bytes), bytes.length ≤ bound →
      items one count done bytes = items other count done bytes := by
  intro count
  induction count with
  | zero => intros; rfl
  | succ count ih =>
      intro done bytes hb
      rw [items, items, ← hagree bytes hb]
      cases hr : one bytes with
      | item reply rest => exact ih _ _ (Nat.le_trans (hone hr) hb)
      | incomplete => rfl
      | malformed fault => rfl

/-- Any depth above the number of bytes reads the same. -/
theorem decodeWithin_eq {bytes : Bytes} {d e : Nat} (hd : bytes.length < d)
    (he : bytes.length < e) : decodeWithin d bytes = decodeWithin e bytes := by
  induction d generalizing bytes e with
  | zero => omega
  | succ d ih =>
      cases e with
      | zero => omega
      | succ e =>
          rw [decodeWithin, decodeWithin]
          cases hf : frame bytes with
          | incomplete => rfl
          | malformed fault => rfl
          | item f rest =>
              cases f with
              | value reply => rfl
              | arrayHead length =>
                  have hlen := length_add_three_le_of_frame hf
                  have hitems := items_congr (decodeWithin d) (decodeWithin e) rest.length
                    (fun h => by have := length_add_three_le_of_decodeWithin h; omega)
                    (fun bytes hb => ih (by omega) (by omega)) length [] rest (Nat.le_refl _)
                  dsimp only
                  rw [hitems]

/-- Decoding, without the bound: a frame that is a value is the reply, and an
array head is followed by its items. -/
theorem decode_eq (bytes : Bytes) :
    decode bytes =
      match frame bytes with
      | .item (.value reply) rest => .item reply rest
      | .item (.arrayHead length) rest =>
          match items decode length [] rest with
          | .item replies rest => .item (.array replies) rest
          | .incomplete => .incomplete
          | .malformed fault => .malformed fault
      | .incomplete => .incomplete
      | .malformed fault => .malformed fault := by
  rw [decode, decodeWithin]
  cases hf : frame bytes with
  | incomplete => rfl
  | malformed fault => rfl
  | item f rest =>
      cases f with
      | value reply => rfl
      | arrayHead length =>
          have hlen := length_add_three_le_of_frame hf
          have hitems := items_congr (decodeWithin bytes.length) decode rest.length
            (fun h => by have := length_add_three_le_of_decodeWithin h; omega)
            (fun bytes hb => decodeWithin_eq (by omega) (by omega))
            length [] rest (Nat.le_refl _)
          dsimp only
          rw [hitems]

theorem length_add_three_le_of_decode {bytes rest : Bytes} {reply : Reply}
    (h : decode bytes = .item reply rest) : rest.length + 3 ≤ bytes.length :=
  length_add_three_le_of_decodeWithin h

end Wire

end RespClient
