import RespClient.Proofs.Text.Cut
import RespClient.Wire.Decode

/-!
# Verdicts and the bytes after them

A verdict other than "incomplete" is final: bytes that arrive later change
neither the item nor the fault, and stand behind the rest. So a part of an item's
bytes is neither an item nor a fault, but incomplete. What is left of some bytes is
always an end of them.
-/

namespace RespClient

namespace Wire

variable {α : Type}

/-- The verdict when more bytes stand behind those it was given on. -/
def Verdict.append (more : Bytes) : Verdict α → Verdict α
  | .item a rest => .item a (rest ++ more)
  | .incomplete => .incomplete
  | .malformed fault => .malformed fault

/-- The verdict on some bytes holds on all bytes that begin with them, unless it is
"incomplete". -/
def Lasting (one : Bytes → Verdict α) : Prop :=
  ∀ {bytes}, one bytes ≠ .incomplete → ∀ more, one (bytes ++ more) = (one bytes).append more

/-! ## Frames -/

theorem readBulk_append_of_ne {length : Nat} {bytes : Bytes}
    (h : readBulk length bytes ≠ .incomplete) (more : Bytes) :
    readBulk length (bytes ++ more) = (readBulk length bytes).append more := by
  unfold readBulk at h ⊢
  split at h
  · next cr lf rest hd =>
      have hlen := congrArg List.length hd
      simp only [List.length_drop, List.length_cons] at hlen
      rw [List.drop_append_of_le_length (by omega), List.take_append_of_le_length (by omega), hd]
      dsimp only [List.cons_append]
      split <;> rfl
  · exact absurd rfl h

theorem frameOfLine_append {kind : UInt8} {line rest : Bytes}
    (h : frameOfLine kind line rest ≠ .incomplete) (more : Bytes) :
    frameOfLine kind line (rest ++ more) = (frameOfLine kind line rest).append more := by
  unfold frameOfLine at h ⊢
  repeat' split at h
  all_goals try simp_all [Verdict.append]
  exact readBulk_append_of_ne h more

/-- A frame is judged by its own bytes. -/
theorem frame_append {bytes : Bytes} (h : frame bytes ≠ .incomplete) (more : Bytes) :
    frame (bytes ++ more) = (frame bytes).append more := by
  cases bytes with
  | nil => exact absurd rfl h
  | cons kind bytes =>
      simp only [frame] at h
      rw [List.cons_append]
      simp only [frame]
      cases hc : cutPair 13 10 bytes with
      | none => simp [hc] at h
      | some parts =>
          obtain ⟨line, rest⟩ := parts
          simp only [hc] at h
          rw [cutPair_append hc]
          exact frameOfLine_append h more

/-! ## Whole replies -/

/-- Items are judged by their own bytes if each of them is. -/
theorem items_append {one : Bytes → Verdict Reply} (hone : Lasting one) {count : Nat}
    {done : List Reply} {bytes : Bytes} (h : items one count done bytes ≠ .incomplete)
    (more : Bytes) :
    items one count done (bytes ++ more) = (items one count done bytes).append more := by
  induction count generalizing done bytes with
  | zero => rfl
  | succ count ih =>
      rw [items] at h ⊢
      cases hr : one bytes with
      | incomplete => simp [hr] at h
      | malformed fault =>
          rw [hone (by simp [hr]), hr, items, hr]
          rfl
      | item reply rest =>
          rw [hr] at h
          rw [hone (by simp [hr]), hr, items, hr]
          exact ih h

theorem lasting_decodeWithin (depth : Nat) : Lasting (decodeWithin depth) := by
  induction depth with
  | zero =>
      intro bytes h
      exact absurd rfl h
  | succ depth ih =>
      intro bytes h more
      rw [decodeWithin] at h ⊢
      cases hf : frame bytes with
      | incomplete => simp [hf] at h
      | malformed fault =>
          rw [frame_append (by simp [hf]), hf, decodeWithin, hf]
          rfl
      | item f rest =>
          rw [hf] at h
          rw [frame_append (by simp [hf]), hf, decodeWithin, hf]
          cases f with
          | value reply => rfl
          | arrayHead length =>
              dsimp only [Verdict.append] at h ⊢
              cases hi : items (decodeWithin depth) length [] rest with
              | incomplete => simp [hi] at h
              | malformed fault =>
                  rw [items_append ih (by simp [hi]), hi]
                  rfl
              | item replies after =>
                  rw [items_append ih (by simp [hi]), hi]
                  rfl

/-- A reply is judged by its own bytes: the depth that the longer bytes allow reads the shorter
ones alike. -/
theorem lasting_decode : Lasting decode := by
  intro bytes h more
  have hdepth : decode bytes = decodeWithin ((bytes ++ more).length + 1) bytes :=
    decodeWithin_eq (Nat.lt_succ_self _) (by simp only [List.length_append]; omega)
  rw [hdepth] at h ⊢
  exact lasting_decodeWithin _ h more

/-! ## Array heads -/

theorem readBulk_ne_arrayHead {length n : Nat} {bytes rest : Bytes} :
    readBulk length bytes ≠ .item (.arrayHead n) rest := by
  unfold readBulk
  repeat' split
  all_goals simp

/-- The head of an array is a frame of its own only if items follow. -/
theorem pos_of_frameOfLine {kind : UInt8} {line bytes rest : Bytes} {length : Nat}
    (h : frameOfLine kind line bytes = .item (.arrayHead length) rest) : 0 < length := by
  unfold frameOfLine at h
  repeat' split at h
  all_goals try (simp at h; done)
  · exact absurd h readBulk_ne_arrayHead
  · next length' hne hl =>
      simp only [Verdict.item.injEq, Frame.arrayHead.injEq] at h
      obtain ⟨rfl, -⟩ := h
      apply Nat.pos_of_ne_zero
      rintro rfl
      exact hne rfl

theorem pos_of_frame {bytes rest : Bytes} {length : Nat}
    (h : frame bytes = .item (.arrayHead length) rest) : 0 < length := by
  cases bytes with
  | nil => simp [frame] at h
  | cons kind bytes =>
      simp only [frame] at h
      split at h
      · simp at h
      · exact pos_of_frameOfLine h

/-! ## What is left -/

theorem suffix_of_readBulk {length : Nat} {bytes rest : Bytes} {f : Frame}
    (h : readBulk length bytes = .item f rest) : rest <:+ bytes := by
  unfold readBulk at h
  split at h
  · next cr lf after hd =>
      split at h
      · simp only [Verdict.item.injEq] at h
        obtain ⟨-, rfl⟩ := h
        have hs := List.drop_suffix length bytes
        rw [hd] at hs
        exact ((List.suffix_cons lf after).trans (List.suffix_cons cr _)).trans hs
      · simp at h
  · simp at h

theorem suffix_of_frameOfLine {kind : UInt8} {line bytes rest : Bytes} {f : Frame}
    (h : frameOfLine kind line bytes = .item f rest) : rest <:+ bytes := by
  unfold frameOfLine at h
  repeat' split at h
  all_goals first
    | exact suffix_of_readBulk h
    | simp_all

theorem suffix_of_frame {bytes rest : Bytes} {f : Frame} (h : frame bytes = .item f rest) :
    rest <:+ bytes := by
  cases bytes with
  | nil => simp [frame] at h
  | cons kind bytes =>
      simp only [frame] at h
      split at h
      · simp at h
      · next line after hc =>
          have hs : after <:+ bytes := ⟨line ++ [13, 10], by simp [eq_append_of_cutPair hc]⟩
          exact (suffix_of_frameOfLine h).trans (hs.trans (List.suffix_cons kind bytes))

theorem suffix_of_items {one : Bytes → Verdict Reply}
    (hone : ∀ {bytes reply rest}, one bytes = .item reply rest → rest <:+ bytes)
    {count : Nat} {done replies : List Reply} {bytes rest : Bytes}
    (h : items one count done bytes = .item replies rest) : rest <:+ bytes := by
  induction count generalizing done bytes with
  | zero =>
      simp only [items, Verdict.item.injEq] at h
      obtain ⟨-, rfl⟩ := h
      exact List.suffix_rfl
  | succ count ih =>
      rw [items] at h
      split at h
      · next hr => exact (ih h).trans (hone hr)
      · simp at h
      · simp at h

theorem suffix_of_decodeWithin {depth : Nat} {bytes rest : Bytes} {reply : Reply}
    (h : decodeWithin depth bytes = .item reply rest) : rest <:+ bytes := by
  induction depth generalizing bytes reply rest with
  | zero => simp [decodeWithin] at h
  | succ depth ih =>
      rw [decodeWithin] at h
      split at h
      · next hf =>
          simp only [Verdict.item.injEq] at h
          obtain ⟨-, rfl⟩ := h
          exact suffix_of_frame hf
      · next hf =>
          split at h
          · next hi =>
              simp only [Verdict.item.injEq] at h
              obtain ⟨-, rfl⟩ := h
              exact (suffix_of_items ih hi).trans (suffix_of_frame hf)
          · simp at h
          · simp at h
      · simp at h
      · simp at h

theorem suffix_of_decode {bytes rest : Bytes} {reply : Reply}
    (h : decode bytes = .item reply rest) : rest <:+ bytes :=
  suffix_of_decodeWithin h

/-- Decoding at a position, in terms of decoding what stands from there on: the
rest is what stands from the new position on. -/
theorem drop_of_decode {data rest : Bytes} {start : Nat} {reply : Reply}
    (h : decode (data.drop start) = .item reply rest) :
    data.drop (data.length - rest.length) = rest := by
  have hs : rest <:+ data := (suffix_of_decode h).trans (List.drop_suffix start data)
  exact (List.suffix_iff_eq_drop.mp hs).symm

/-! ## At a position -/

/-- A verdict on what stands from a position on, with the position of the rest. -/
def Verdict.located (data : Bytes) : Verdict α → Except Fault (Option (α × Nat))
  | .item a rest => .ok (some (a, data.length - rest.length))
  | .incomplete => .ok none
  | .malformed fault => .error fault

theorem decodeAt_eq_located (data : Bytes) (start : Nat) :
    decodeAt data start = (decode (data.drop start)).located data := by
  unfold decodeAt
  cases decode (data.drop start) <;> rfl

theorem frameAt_eq_located (data : Bytes) (start : Nat) :
    frameAt data start = (frame (data.drop start)).located data := by
  unfold frameAt
  cases frame (data.drop start) <;> rfl

theorem located_eq_item_iff {data : Bytes} {verdict : Verdict α} {a : α} {stop : Nat} :
    verdict.located data = .ok (some (a, stop)) ↔
      ∃ rest, verdict = .item a rest ∧ data.length - rest.length = stop := by
  cases verdict <;> simp [Verdict.located, and_assoc]

theorem located_eq_error_iff {data : Bytes} {verdict : Verdict α} {fault : Fault} :
    verdict.located data = .error fault ↔ verdict = .malformed fault := by
  cases verdict <;> simp [Verdict.located]

theorem drop_eq_extract_append (data : Bytes) {start stop : Nat} (h : start ≤ stop) :
    data.drop start = data.extract start stop ++ data.drop stop := by
  have hsplit := List.take_append_drop (stop - start) (data.drop start)
  rw [List.drop_drop, Nat.add_sub_cancel' h] at hsplit
  rw [List.extract_eq_take_drop, hsplit]

/-- What was read from a position on are the bytes up to the rest. -/
theorem drop_eq_extract_append_of_suffix {data rest : Bytes} {start : Nat}
    (hs : rest <:+ data.drop start) (hstart : start ≤ data.length) :
    data.drop start = data.extract start (data.length - rest.length) ++ rest := by
  have hlength := hs.length_le
  rw [List.length_drop] at hlength
  have hrest := List.suffix_iff_eq_drop.mp (hs.trans (List.drop_suffix start data))
  have hstop : start ≤ data.length - rest.length := by omega
  have hsplit := drop_eq_extract_append data hstop
  rwa [← hrest] at hsplit

/-- A front of an item's bytes is no item, which would leave bytes of the item behind, and
no fault, which would stay. -/
theorem Lasting.front {one : Bytes → Verdict α} (hone : Lasting one) {front missing rest : Bytes}
    {a : α} (h : one (front ++ (missing ++ rest)) = .item a rest) (hne : missing ≠ []) :
    one front = .incomplete := by
  cases hf : one front with
  | incomplete => rfl
  | malformed fault =>
      rw [hone (by simp [hf]), hf] at h
      cases h
  | item b after =>
      rw [hone (by simp [hf]), hf, Verdict.append, Verdict.item.injEq] at h
      have hlength := congrArg List.length h.2
      simp only [List.length_append] at hlength
      exact absurd (List.length_eq_zero_iff.mp (by omega)) hne

/-- Reading from a position on is final: more bytes change neither an item nor a fault, and the
bytes of an item tell nothing while one of them is missing. -/
structure Final (readAt : Bytes → Nat → Except Fault (Option (α × Nat))) : Prop where
  item {data : Bytes} {start stop : Nat} {a : α} (h : readAt data start = .ok (some (a, stop)))
    (more : Bytes) : readAt (data ++ more) start = .ok (some (a, stop))
  fault {data : Bytes} {start : Nat} {f : Fault} (h : readAt data start = .error f)
    (more : Bytes) : readAt (data ++ more) start = .error f
  incomplete {data front : Bytes} {start stop : Nat} {a : α}
    (h : readAt data start = .ok (some (a, stop))) (hfront : front <+: data.extract start stop)
    (hne : front ≠ data.extract start stop) : readAt front 0 = .ok none

/-- A verdict that lasts is final at any position. -/
theorem Lasting.final {one : Bytes → Verdict α} (hone : Lasting one) (hnil : one [] = .incomplete)
    (hsuffix : ∀ {bytes a rest}, one bytes = .item a rest → rest <:+ bytes)
    {readAt : Bytes → Nat → Except Fault (Option (α × Nat))}
    (hread : ∀ data start, readAt data start = (one (data.drop start)).located data) :
    Final readAt := by
  -- behind the end there are no bytes to judge
  have hstart {data : Bytes} {start : Nat} (h : one (data.drop start) ≠ .incomplete) :
      start ≤ data.length := by
    apply Nat.le_of_not_lt
    intro hlt
    rw [List.drop_eq_nil_of_le (Nat.le_of_lt hlt)] at h
    exact h hnil
  have hmore {data : Bytes} {start : Nat} (h : one (data.drop start) ≠ .incomplete)
      (more : Bytes) : one ((data ++ more).drop start) = (one (data.drop start)).append more := by
    rw [List.drop_append_of_le_length (hstart h), hone h]
  constructor
  case item =>
    intro data start stop a h more
    rw [hread, located_eq_item_iff] at h ⊢
    obtain ⟨rest, hitem, rfl⟩ := h
    refine ⟨rest ++ more, ?_, ?_⟩
    · rw [hmore (by simp [hitem]), hitem, Verdict.append]
    · simp only [List.length_append]
      omega
  case fault =>
    intro data start f h more
    rw [hread, located_eq_error_iff] at h ⊢
    rw [hmore (by simp [h]), h, Verdict.append]
  case incomplete =>
    intro data front start stop a h hfront hne
    rw [hread, located_eq_item_iff] at h
    obtain ⟨rest, hitem, rfl⟩ := h
    obtain ⟨missing, hmissing⟩ := hfront
    have hwhole := drop_eq_extract_append_of_suffix (hsuffix hitem) (hstart (by simp [hitem]))
    rw [← hmissing, List.append_assoc] at hwhole
    rw [hwhole] at hitem
    have hshort : one front = .incomplete := by
      apply hone.front hitem
      rintro rfl
      exact hne (by rw [← hmissing, List.append_nil])
    rw [hread, List.drop_zero, hshort, Verdict.located]

/-- Replies and frames are read from a position on for good. -/
theorem final_decodeAt_frameAt : Final decodeAt ∧ Final frameAt :=
  ⟨lasting_decode.final rfl suffix_of_decode decodeAt_eq_located,
    Lasting.final frame_append rfl suffix_of_frame frameAt_eq_located⟩

/-- A byte that begins nothing, and behind it an array whose only item is a line end. -/
def stray : Bytes :=
  [0] ++ ascii "*1\r\n$2\r\n\r\n\r\n"

theorem final_decodeAt_frameAt_stray :
    decodeAt stray 1 = .ok (some (.array [.bulk crlf], 13)) ∧
      decodeAt (stray ++ [42]) 1 = .ok (some (.array [.bulk crlf], 13)) ∧
      decodeAt (ascii "*1\r\n$2\r\n\r\n\r") 0 = .ok none ∧
      frameAt stray 0 = .error (.kind 0) ∧ frameAt (stray ++ [42]) 0 = .error (.kind 0) := by
  have hreply : decodeAt stray 1 = .ok (some (.array [.bulk crlf], 13)) := by rfl
  have hfault : frameAt stray 0 = .error (.kind 0) := by rfl
  refine ⟨hreply, final_decodeAt_frameAt.1.item hreply [42], ?_, hfault,
    final_decodeAt_frameAt.2.fault hfault [42]⟩
  exact final_decodeAt_frameAt.1.incomplete hreply ⟨[10], by rfl⟩ (by decide)

end Wire

end RespClient
