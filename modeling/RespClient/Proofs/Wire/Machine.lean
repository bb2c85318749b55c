import RespClient.Proofs.Wire.Numeral
import RespClient.Proofs.Wire.Turns

/-!
# Reading on a machine

Numbers are words of 64 bits here, bytes are looked at by position, and an operation that cannot
be done stops the machine: a sum that is no word, one less than zero, a position outside of the
bytes, an entry of an empty stack. Reading a frame is never stopped, whatever the bytes are, and
taking a value into the open arrays is not as long as each of them lacks an item. A call none of
whose moves is stopped comes to what it comes to without the machine.
-/

namespace RespClient

namespace Wire

namespace Machine

/-- Why a machine stops. -/
inductive Trap where
  /-- A sum is no word. -/
  | overflow
  /-- One is taken from zero. -/
  | underflow
  /-- Bytes are looked at where there are none. -/
  | outside
  /-- More bytes are passed over than there are. -/
  | overrun
  /-- An entry is taken off an empty stack. -/
  | noEntry
  deriving DecidableEq, Repr

/-! ## Operations -/

def add (a b : Nat) : Except Trap Nat :=
  if a + b < 2 ^ 64 then .ok (a + b) else .error .overflow

def decrement : Nat → Except Trap Nat
  | 0 => .error .underflow
  | n + 1 => .ok n

def byteAt (data : Bytes) (position : Nat) : Except Trap UInt8 :=
  match data[position]? with
  | some b => .ok b
  | none => .error .outside

def slice (data : Bytes) (start stop : Nat) : Except Trap Bytes :=
  if start ≤ stop ∧ stop ≤ data.length then .ok (data.extract start stop) else .error .outside

/-- The position some bytes further on. -/
def pass (data : Bytes) (position count : Nat) : Except Trap Nat :=
  if position + count ≤ data.length then .ok (position + count) else .error .overrun

def pop : List OpenArray → Except Trap (OpenArray × List OpenArray)
  | [] => .error .noEntry
  | inner :: outer => .ok (inner, outer)

/-! ## Frames -/

/-- The line from a position on, and the position behind its end. -/
def readLine (data : Bytes) (start : Nat) : Except Trap (Option (Bytes × Nat)) := do
  let ahead ← slice data start data.length
  match cutPair 13 10 ahead with
  | none => pure none
  | some (before, _) => do
      let stop := start + before.length
      let next ← pass data stop 2
      let line ← slice data start stop
      pure (some (line, next))

/-- The bulk reply of `length` bytes from a position on. -/
def readBulk (length : Nat) (data : Bytes) (start : Nat) :
    Except Trap (Except Fault (Option (Frame × Nat))) := do
  let needed ← add length 2
  if data.length - start < needed then pure (.ok none)
  else do
    let payload ← slice data start (start + length)
    let stop ← pass data start length
    let ending ← slice data stop (stop + 2)
    if ending = crlf then do
      let next ← pass data stop 2
      pure (.ok (some (.value (.bulk payload), next)))
    else pure (.error .unterminated)

/-- The frame of a kind whose first line is `line`; `next` is the position behind the line. Only a
bulk reply has more bytes than its line. -/
def frameOfLine (kind : UInt8) (line data : Bytes) (next : Nat) :
    Except Trap (Except Fault (Option (Frame × Nat))) :=
  if kind = 36 then
    match readLength "bulk string length" line with
    | .ok (some length) => readBulk length data next
    | .ok none => .ok (.ok (some (.value .null, next)))
    | .error fault => .ok (.error fault)
  else
    match Wire.frameOfLine kind line [] with
    | .item f _ => .ok (.ok (some (f, next)))
    | .incomplete => .ok (.ok none)
    | .malformed fault => .ok (.error fault)

/-- The first frame from a position on, and the position behind it. -/
def frameAt (data : Bytes) (start : Nat) :
    Except Trap (Except Fault (Option (Frame × Nat))) := do
  if data.length ≤ start then pure (.ok none)
  else do
    let kind ← byteAt data start
    let next ← pass data start 1
    match ← readLine data next with
    | none => pure (.ok none)
    | some (line, next) => frameOfLine kind line data next

/-! ## Open arrays -/

/-- Put a value into the innermost open array, and take an array that this fills off the stack. -/
def attach (value : Reply) (unfilled : List OpenArray) :
    Except Trap (Option Reply × List OpenArray) :=
  match unfilled with
  | [] => .ok (some value, [])
  | inner :: outer =>
      match decrement inner.missing with
      | .error trap => .error trap
      | .ok missing =>
          let inner : OpenArray := { missing, seen := value :: inner.seen }
          if 0 < missing then .ok (none, inner :: outer)
          else
            match _h : pop (inner :: outer) with
            | .error trap => .error trap
            | .ok (full, rest) => attach (.array full.seen.reverse) rest
termination_by unfilled.length
decreasing_by
  cases _h
  exact Nat.lt_succ_self _

/-- What the first frame of its buffer makes of a reader. -/
def move (reader : Reader) : Except Trap Move := do
  match ← frameAt reader.buffer 0 with
  | .error fault => pure (.malformed fault)
  | .ok none => pure .starved
  | .ok (some (f, consumed)) => do
      let start ← pass reader.buffer 0 consumed
      let rest ← slice reader.buffer start reader.buffer.length
      match f with
      | .arrayHead length =>
          pure (.onward { buffer := rest, unfilled := ⟨length, []⟩ :: reader.unfilled })
      | .value value =>
          match ← attach value reader.unfilled with
          | (some reply, outer) => pure (.reply reply { buffer := rest, unfilled := outer })
          | (none, outer) => pure (.onward { buffer := rest, unfilled := outer })

/-! ## What is never stopped -/

variable {data : Bytes} {start stop : Nat}

theorem ok_bind {α β : Type} (a : α) (next : α → Except Trap β) :
    (Except.ok a >>= next) = next a := rfl

theorem add_eq {a b : Nat} (h : a + b < 2 ^ 64) : add a b = .ok (a + b) :=
  if_pos h

theorem slice_eq (hstart : start ≤ stop) (hstop : stop ≤ data.length) :
    slice data start stop = .ok ((data.drop start).take (stop - start)) := by
  rw [slice, if_pos ⟨hstart, hstop⟩, List.extract_eq_take_drop]

/-- The bytes from a position to the end. -/
theorem slice_to_end (h : start ≤ data.length) :
    slice data start data.length = .ok (data.drop start) := by
  rw [slice_eq h (Nat.le_refl _), ← List.length_drop, List.take_length]

theorem pass_eq {count : Nat} (h : start + count ≤ data.length) :
    pass data start count = .ok (start + count) :=
  if_pos h

theorem readLine_eq (h : start ≤ data.length) :
    readLine data start = .ok ((cutPair 13 10 (data.drop start)).map fun parts =>
      (parts.1, data.length - parts.2.length)) := by
  rw [readLine, slice_to_end h, ok_bind]
  cases hc : cutPair 13 10 (data.drop start) with
  | none => rfl
  | some parts =>
      obtain ⟨before, after⟩ := parts
      have hwhole := eq_append_of_cutPair hc
      have hlength := congrArg List.length hwhole
      simp only [List.length_drop, List.length_append, List.length_cons] at hlength
      dsimp only
      rw [pass_eq (by omega), ok_bind, slice_eq (by omega) (by omega), ok_bind, hwhole,
        Nat.add_sub_cancel_left, List.take_left, Option.map_some,
        show start + before.length + 2 = data.length - after.length by omega]
      rfl

theorem readBulk_of_short {length : Nat} {bytes : Bytes} (h : bytes.length < length + 2) :
    Wire.readBulk length bytes = .incomplete := by
  unfold Wire.readBulk
  split
  · next cr lf rest hd =>
      have hlength := congrArg List.length hd
      simp only [List.length_drop, List.length_cons] at hlength
      omega
  · rfl

theorem exists_drop_of_length {length : Nat} {bytes : Bytes} (h : length + 2 ≤ bytes.length) :
    ∃ cr lf rest, bytes.drop length = cr :: lf :: rest := by
  rw [List.drop_eq_getElem_cons (Nat.lt_of_succ_lt h), List.drop_eq_getElem_cons h]
  exact ⟨_, _, _, rfl⟩

theorem readBulk_eq {length : Nat} (hword : length + 2 < 2 ^ 64) (data : Bytes) (start : Nat) :
    readBulk length data start =
      .ok ((Wire.readBulk length (data.drop start)).located data) := by
  rw [readBulk, add_eq hword, ok_bind]
  by_cases hshort : data.length - start < length + 2
  · rw [if_pos hshort, readBulk_of_short (by rwa [List.length_drop])]
    rfl
  · obtain ⟨cr, lf, rest, hd⟩ := exists_drop_of_length
      (show length + 2 ≤ (data.drop start).length by rw [List.length_drop]; omega)
    have hrest := congrArg List.length hd
    simp only [List.length_drop, List.length_cons] at hrest
    have hending : (data.drop (start + length)).take (start + length + 2 - (start + length)) =
        [cr, lf] := by
      rw [← List.drop_drop, hd, Nat.add_sub_cancel_left]
      rfl
    rw [if_neg hshort, slice_eq (by omega) (by omega), ok_bind, pass_eq (by omega), ok_bind,
      slice_eq (by omega) (by omega), ok_bind, hending, Wire.readBulk, hd, Nat.add_sub_cancel_left]
    dsimp only
    by_cases hcrlf : cr = 13 ∧ lf = 10
    · rw [if_pos hcrlf, if_pos (by rw [hcrlf.1, hcrlf.2]; rfl), pass_eq (by omega), ok_bind,
        Verdict.located, show start + length + 2 = data.length - rest.length by omega]
      rfl
    · rw [if_neg hcrlf, if_neg (by simpa [crlf] using hcrlf)]
      rfl

/-- Every length that is read is a word with room for a line end. -/
theorem add_two_lt_of_readLength {role : String} {line : Bytes} {length : Nat}
    (h : readLength role line = .ok (some length)) : length + 2 < 2 ^ 64 := by
  have hupper := (readLength_eq_some_iff.mp h).upper
  have hmax : Int64.maxValue.toInt = 2 ^ 63 - 1 := by decide
  omega

theorem frameOfLine_ne_incomplete {kind : UInt8} (hkind : kind ≠ 36) (line rest : Bytes) :
    Wire.frameOfLine kind line rest ≠ .incomplete := by
  unfold Wire.frameOfLine
  repeat' split
  all_goals first
    | exact absurd ‹kind = 36› hkind
    | simp

theorem frameOfLine_eq (kind : UInt8) (line : Bytes) (h : start ≤ data.length) :
    frameOfLine kind line data start =
      .ok ((Wire.frameOfLine kind line (data.drop start)).located data) := by
  have hstart : data.length - (data.drop start).length = start := by
    rw [List.length_drop]
    omega
  by_cases hkind : kind = 36
  · subst hkind
    have hbulk : Wire.frameOfLine 36 line (data.drop start) =
        match readLength "bulk string length" line with
        | .ok (some length) => Wire.readBulk length (data.drop start)
        | .ok none => .item (.value .null) (data.drop start)
        | .error fault => .malformed fault := rfl
    rw [frameOfLine, if_pos rfl, hbulk]
    cases hlength : readLength "bulk string length" line with
    | error fault => rfl
    | ok length? =>
        cases length? with
        | none =>
            dsimp only
            rw [Verdict.located, hstart]
        | some length => exact readBulk_eq (add_two_lt_of_readLength hlength) data start
  · -- what is behind the line of any other kind stays as it is
    have happend := frameOfLine_append (frameOfLine_ne_incomplete hkind line []) (data.drop start)
    rw [frameOfLine, if_neg hkind, ← List.nil_append (data.drop start), happend]
    cases hf : Wire.frameOfLine kind line [] with
    | item f rest =>
        obtain rfl := List.suffix_nil.mp (suffix_of_frameOfLine hf)
        rw [Verdict.append, Verdict.located, List.nil_append, hstart]
    | incomplete => rfl
    | malformed fault => rfl

/-- A frame is read from any bytes and any position on. -/
theorem frameAt_eq (data : Bytes) (start : Nat) :
    frameAt data start = .ok (Wire.frameAt data start) := by
  rw [frameAt, frameAt_eq_located]
  by_cases hend : data.length ≤ start
  · rw [if_pos hend, List.drop_eq_nil_of_le hend]
    rfl
  · have hlt : start < data.length := Nat.lt_of_not_le hend
    rw [if_neg hend, byteAt, List.getElem?_eq_getElem hlt, pass_eq hlt,
      List.drop_eq_getElem_cons hlt]
    dsimp only [Wire.frame]
    rw [ok_bind, ok_bind, readLine_eq hlt, ok_bind]
    cases hc : cutPair 13 10 (data.drop (start + 1)) with
    | none => rfl
    | some parts =>
        obtain ⟨line, after⟩ := parts
        have hsuffix : after <:+ data.drop (start + 1) :=
          ⟨line ++ [13, 10], by rw [eq_append_of_cutPair hc, List.append_assoc]; rfl⟩
        have hafter := List.suffix_iff_eq_drop.mp (hsuffix.trans (List.drop_suffix _ data))
        dsimp only [Option.map_some]
        rw [frameOfLine_eq _ _ (Nat.sub_le _ _), ← hafter]

/-- Taking in a value is not stopped where each open array lacks an item. -/
theorem attach_eq {unfilled : List OpenArray} (h : ∀ entry ∈ unfilled, 1 ≤ entry.missing)
    (value : Reply) : attach value unfilled = .ok (Reader.attach value unfilled) := by
  induction unfilled generalizing value with
  | nil => rw [attach, Reader.attach]
  | cons inner outer ih =>
      obtain ⟨hinner, houter⟩ := List.forall_mem_cons.mp h
      obtain ⟨n, hn⟩ : ∃ n, inner.missing = n + 1 := ⟨inner.missing - 1, by omega⟩
      rw [attach, Reader.attach, hn]
      dsimp only [decrement, pop]
      by_cases hfull : n = 0
      · rw [if_neg (by omega), if_pos (by omega)]
        exact ih houter _
      · rw [if_pos (by omega), if_neg (by omega), Nat.add_sub_cancel]

/-- Nothing but the open arrays can stop a move. -/
theorem move_eq_attach (reader : Reader) :
    move reader =
      match frame reader.buffer with
      | .incomplete => .ok .starved
      | .malformed fault => .ok (.malformed fault)
      | .item (.arrayHead length) rest =>
          .ok (.onward { buffer := rest, unfilled := ⟨length, []⟩ :: reader.unfilled })
      | .item (.value value) rest =>
          match attach value reader.unfilled with
          | .error trap => .error trap
          | .ok (some reply, outer) => .ok (.reply reply { buffer := rest, unfilled := outer })
          | .ok (none, outer) => .ok (.onward { buffer := rest, unfilled := outer }) := by
  rw [move, frameAt_eq, frameAt_eq_located, List.drop_zero, ok_bind]
  cases hf : frame reader.buffer with
  | incomplete => rfl
  | malformed fault => rfl
  | item f rest =>
      have hrest := List.suffix_iff_eq_drop.mp (suffix_of_frame hf)
      dsimp only [Verdict.located]
      rw [pass_eq (by omega), ok_bind, Nat.zero_add, slice_to_end (Nat.sub_le _ _), ok_bind,
        ← hrest]
      cases f with
      | arrayHead length => rfl
      | value value =>
          dsimp only
          rcases attach value reader.unfilled with trap | ⟨_ | reply, outer⟩ <;> rfl

theorem move_eq {reader : Reader} (h : ∀ entry ∈ reader.unfilled, 1 ≤ entry.missing) :
    move reader = .ok reader.move := by
  rw [move_eq_attach, Reader.move]
  cases frame reader.buffer with
  | incomplete => rfl
  | malformed fault => rfl
  | item f rest =>
      cases f with
      | arrayHead length => rfl
      | value value =>
          dsimp only
          rw [attach_eq h]
          rcases Reader.attach value reader.unfilled with ⟨_ | reply, outer⟩ <;> rfl

theorem length_lt_of_move {reader next : Reader} (h : move reader = .ok (.onward next)) :
    next.buffer.length < reader.buffer.length := by
  rw [move_eq_attach] at h
  repeat' split at h
  all_goals cases h
  all_goals
    have hlen := length_add_three_le_of_frame ‹frame reader.buffer = _›
    dsimp only
    omega

/-! ## Calls -/

/-- Make one move after another, until none can be made or a reply is complete. -/
def advance (reader : Reader) : Except Trap Progress :=
  match _h : move reader with
  | .error trap => .error trap
  | .ok (.reply value next) => .ok (.reply value next)
  | .ok (.onward next) => advance next
  | .ok .starved => .ok (.starved reader)
  | .ok (.malformed fault) => .ok (.malformed fault reader)
termination_by reader.buffer.length
decreasing_by exact length_lt_of_move _h

/-- A call that waits for the next reply. -/
def receiveFrom (reader : Reader) (coming : List Delivery) :
    Except Trap (EStateM.Result Failure Inbox Reply) := do
  match ← advance reader with
  | .reply value after => pure (.ok value ⟨coming, after⟩)
  | .malformed fault after => pure (.error fault.failure ⟨coming, after⟩)
  | .starved after =>
      match coming with
      | [] => pure (.error .closedByPeer ⟨[], after⟩)
      | .expired :: coming => pure (.error .timeout ⟨coming, after⟩)
      | .broken text :: coming => pure (.error (.io text) ⟨coming, after⟩)
      | .bytes chunk :: coming => receiveFrom (after.feed chunk) coming

def receive (inbox : Inbox) : Except Trap (EStateM.Result Failure Inbox Reply) :=
  receiveFrom inbox.reader inbox.coming

/-- Wherever turns lead from an inbox, the next move is not stopped. -/
def Unstopped (inbox : Inbox) : Prop :=
  ∀ now, Inbox.Turns inbox now → move now.reader = .ok now.reader.move

theorem Unstopped.of_turns {inbox next : Inbox} (h : Unstopped inbox)
    (hturns : Inbox.Turns inbox next) : Unstopped next :=
  fun now hnow => h now (hturns.trans hnow)

theorem advance_eq {reader : Reader} {coming : List Delivery} (h : Unstopped ⟨coming, reader⟩) :
    advance reader = .ok reader.advance := by
  have hmove : move reader = .ok reader.move := h _ .refl
  rw [advance, Reader.advance_eq]
  split
  next trap hstep => cases hmove.symm.trans hstep
  next value after hstep => rw [Except.ok.inj (hmove.symm.trans hstep)]
  next after hstep =>
      have hshorter := length_lt_of_move hstep
      have honward : reader.move = .onward after := Except.ok.inj (hmove.symm.trans hstep)
      rw [honward]
      exact advance_eq (h.of_turns (.single (.onward honward)))
  next hstep => rw [Except.ok.inj (hmove.symm.trans hstep)]
  next fault hstep => rw [Except.ok.inj (hmove.symm.trans hstep)]
termination_by reader.buffer.length
decreasing_by exact hshorter

theorem receiveFrom_eq {reader : Reader} {coming : List Delivery}
    (h : Unstopped ⟨coming, reader⟩) :
    receiveFrom reader coming = .ok (Wire.receiveFrom reader coming) := by
  have hleads := Inbox.leads_advance reader coming
  rw [receiveFrom.eq_def, Inbox.receiveFrom_eq, advance_eq h, ok_bind]
  cases hadvance : reader.advance with
  | reply value after => rfl
  | malformed fault after => rfl
  | starved after =>
      rw [hadvance] at hleads
      obtain ⟨hturns, hstarved⟩ := hleads
      cases coming with
      | nil => rfl
      | cons delivery coming =>
          cases delivery with
          | expired => rfl
          | broken text => rfl
          | bytes chunk => exact receiveFrom_eq (h.of_turns (hturns.tail (.arrives hstarved)))

theorem receive_eq {inbox : Inbox} (h : Unstopped inbox) : receive inbox = .ok inbox.receive :=
  receiveFrom_eq h

/-- An array that lacks nothing would stop it, -/
example : attach .null [⟨0, []⟩] = .error .underflow := by
  cbv

/-- and so would a length that is no length of a line. -/
example : readBulk (2 ^ 64 - 1) [] 0 = .error .overflow := by
  rfl

end Machine

end Wire

end RespClient
