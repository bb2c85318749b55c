import RespClient.Network.Link
import RespClient.Proofs.Wire.Stability

/-!
# Reading piece by piece is reading at once

A reader with open arrays stands where the recursive decoder would be suspended:
`resume` says what that decoder comes to from there. Every frame that the reader
takes leaves the verdict of `resume` as it is, whatever is still to come, so the
replies of a stream depend on its bytes alone and neither on how they arrive nor
on the deadlines in between.
-/

namespace RespClient

namespace Wire

/-! ## The suspended decoder -/

/-- What decoding comes to once `value` is the next item of the innermost open
array. -/
def finish (value : Reply) : List OpenArray → Bytes → Verdict Reply
  | [], bytes => .item value bytes
  | inner :: outer, bytes =>
      match items decode (inner.missing - 1) (value :: inner.seen) bytes with
      | .item replies rest => finish (.array replies) outer rest
      | .incomplete => .incomplete
      | .malformed fault => .malformed fault

/-- What decoding comes to from some bytes on, inside open arrays. -/
def resume (unfilled : List OpenArray) (bytes : Bytes) : Verdict Reply :=
  match decode bytes with
  | .item value rest => finish value unfilled rest
  | .incomplete => .incomplete
  | .malformed fault => .malformed fault

@[simp] theorem resume_nil (bytes : Bytes) : resume [] bytes = decode bytes := by
  rw [resume]
  cases decode bytes <;> rfl

theorem resume_value {bytes rest : Bytes} {value : Reply}
    (h : frame bytes = .item (.value value) rest) (unfilled : List OpenArray) :
    resume unfilled bytes = finish value unfilled rest := by
  rw [resume, decode_eq, h]

theorem resume_malformed {bytes : Bytes} {fault : Fault} (h : frame bytes = .malformed fault)
    (unfilled : List OpenArray) : resume unfilled bytes = .malformed fault := by
  rw [resume, decode_eq, h]

theorem resume_incomplete {bytes : Bytes} (h : frame bytes = .incomplete)
    (unfilled : List OpenArray) : resume unfilled bytes = .incomplete := by
  rw [resume, decode_eq, h]

/-- An array that lacks items is resumed at its next one. -/
theorem finish_missing (value : Reply) {inner : OpenArray} (h : 1 < inner.missing)
    (outer : List OpenArray) (bytes : Bytes) :
    finish value (inner :: outer) bytes =
      resume ({ missing := inner.missing - 1, seen := value :: inner.seen } :: outer) bytes := by
  obtain ⟨missing, seen⟩ := inner
  obtain ⟨n, rfl⟩ : ∃ n, missing = n + 2 := ⟨missing - 2, by dsimp at h; omega⟩
  show (match items decode (n + 1) (value :: seen) bytes with
    | .item replies rest => finish (.array replies) outer rest
    | .incomplete => .incomplete
    | .malformed fault => .malformed fault) = resume _ bytes
  rw [items, resume]
  cases decode bytes <;> rfl

/-- The head of an array opens it. -/
theorem resume_arrayHead {bytes rest : Bytes} {length : Nat}
    (h : frame bytes = .item (.arrayHead length) rest) (unfilled : List OpenArray) :
    resume unfilled bytes = resume (⟨length, []⟩ :: unfilled) rest := by
  obtain ⟨n, rfl⟩ : ∃ n, length = n + 1 := ⟨length - 1, by have := pos_of_frame h; omega⟩
  rw [resume, decode_eq, h]
  dsimp only
  rw [items, resume]
  cases decode rest with
  | incomplete => rfl
  | malformed fault => rfl
  | item value after =>
      dsimp only
      rw [finish, Nat.add_sub_cancel]
      cases items decode n [value] after <;> rfl

/-- Attaching a value closes every array that it fills, as the recursion does. -/
theorem finish_attach (value : Reply) (unfilled : List OpenArray) (bytes : Bytes) :
    finish value unfilled bytes =
      match Reader.attach value unfilled with
      | (some reply, _) => .item reply bytes
      | (none, outer) => resume outer bytes := by
  induction unfilled generalizing value with
  | nil => rfl
  | cons inner outer ih =>
      by_cases hfull : inner.missing ≤ 1
      · rw [Reader.attach, if_pos hfull, ← ih, finish,
          show inner.missing - 1 = 0 by omega, items]
      · rw [Reader.attach, if_neg hfull]
        exact finish_missing value (by omega) outer bytes

theorem unfilled_of_attach {value reply : Reply} {unfilled outer : List OpenArray}
    (h : Reader.attach value unfilled = (some reply, outer)) : outer = [] := by
  induction unfilled generalizing value with
  | nil =>
      simp only [Reader.attach, Prod.mk.injEq] at h
      exact h.2.symm
  | cons inner rest ih =>
      rw [Reader.attach] at h
      split at h
      · exact ih h
      · simp at h

/-! ## What a reader comes to -/

namespace Reader

/-- What decoding comes to at a reader, with `more` bytes behind its buffer. -/
def verdict (reader : Reader) (more : Bytes) : Verdict Reply :=
  resume reader.unfilled (reader.buffer ++ more)

theorem verdict_feed (reader : Reader) (chunk more : Bytes) :
    (reader.feed chunk).verdict more = reader.verdict (chunk ++ more) := by
  simp [verdict, feed]

/-- A reader comes to what decoding comes to from where it stands, with the bytes it
has and whatever follows them; one that starves has lost nothing. -/
def Comes (reader : Reader) : Progress → Prop
  | .reply value after =>
      after.unfilled = [] ∧ ∀ more, reader.verdict more = .item value (after.buffer ++ more)
  | .starved after =>
      after.verdict [] = .incomplete ∧ ∀ more, reader.verdict more = after.verdict more
  | .malformed fault after =>
      ∀ more, reader.verdict more = .malformed fault ∧ after.verdict more = .malformed fault

/-- Reading on from a reader with the same verdicts comes to the same. -/
theorem Comes.of_verdict {reader next : Reader} {progress : Progress}
    (hv : ∀ more, reader.verdict more = next.verdict more) (h : next.Comes progress) :
    reader.Comes progress := by
  cases progress with
  | reply value after => exact ⟨h.1, fun more => (hv more).trans (h.2 more)⟩
  | starved after => exact ⟨h.1, fun more => (hv more).trans (h.2 more)⟩
  | malformed fault after => exact fun more => ⟨(hv more).trans (h more).1, (h more).2⟩

theorem comes_advance (reader : Reader) : reader.Comes reader.advance := by
  fun_induction advance reader with
  | case1 reader hf =>
      refine ⟨?_, fun _ => rfl⟩
      rw [verdict, List.append_nil]
      exact resume_incomplete hf _
  | case2 reader fault hf =>
      have hm : ∀ more, reader.verdict more = .malformed fault := by
        intro more
        apply resume_malformed
        rw [frame_append (by simp [hf]), hf, Verdict.append]
      exact fun more => ⟨hm more, hm more⟩
  | case3 reader length rest hf ih =>
      refine Comes.of_verdict (fun more => ?_) ih
      apply resume_arrayHead
      rw [frame_append (by simp [hf]), hf, Verdict.append]
  | case4 reader value rest hf reply outer ha =>
      -- the value fills every array around it
      refine ⟨unfilled_of_attach ha, fun more => ?_⟩
      rw [verdict, resume_value, finish_attach, ha]
      rw [frame_append (by simp [hf]), hf, Verdict.append]
  | case5 reader value rest hf outer ha ih =>
      -- some array around the value lacks more items
      refine Comes.of_verdict (fun more => ?_) ih
      rw [verdict, resume_value, finish_attach, ha]
      · rfl
      · rw [frame_append (by simp [hf]), hf, Verdict.append]

end Reader

/-! ## Waiting for a reply -/

/-- Why a stream with this verdict, once it has ended, holds no further item. -/
def Verdict.failure? {α : Type} : Verdict α → Option Failure
  | .item _ _ => none
  | .incomplete => some .closedByPeer
  | .malformed fault => some fault.failure

theorem Verdict.ne_timeout_of_failure? {α : Type} {verdict : Verdict α} {e : Failure}
    (h : verdict.failure? = some e) : e ≠ .timeout := by
  cases verdict with
  | item a rest => simp [failure?] at h
  | incomplete =>
      cases h
      simp [Failure.closedByPeer]
  | malformed fault =>
      cases h
      simp [Fault.failure]

/-- The bytes that some deliveries bring. -/
def stream : List Delivery → Bytes
  | [] => []
  | .bytes chunk :: coming => chunk ++ stream coming
  | _ :: coming => stream coming

/-- The deadlines that pass in between. -/
def deadlines : List Delivery → Nat
  | [] => 0
  | .expired :: coming => deadlines coming + 1
  | _ :: coming => deadlines coming

/-- The stream goes on to its end. -/
def Unbroken (coming : List Delivery) : Prop :=
  ∀ text, .broken text ∉ coming

theorem deadlines_le_of_suffix {after coming : List Delivery} (h : after <:+ coming) :
    deadlines after ≤ deadlines coming := by
  induction coming with
  | nil => exact Nat.le_of_eq (by rw [List.suffix_nil.mp h])
  | cons delivery coming ih =>
      rcases List.suffix_cons_iff.mp h with rfl | hrest
      · exact Nat.le_refl _
      · refine Nat.le_trans (ih hrest) ?_
        cases delivery <;> simp [deadlines]

theorem Unbroken.of_suffix {after coming : List Delivery} (h : Unbroken coming)
    (hs : after <:+ coming) : Unbroken after :=
  fun text hmem => h text (hs.subset hmem)

namespace Inbox

/-- What decoding comes to with all the bytes that ever arrive. -/
def verdict (inbox : Inbox) : Verdict Reply :=
  inbox.reader.verdict (stream inbox.coming)

/-- What a call that waits for a reply may come to: the item or the failure that
decoding finds, or a deadline. After a failure and after a deadline the verdict stands. -/
inductive Comes (inbox : Inbox) : EStateM.Result Failure Inbox Reply → Prop
  | item {reply : Reply} {after : Inbox}
      (hverdict : inbox.verdict = .item reply (after.reader.buffer ++ stream after.coming))
      (hfull : after.reader.unfilled = []) (hcoming : after.coming <:+ inbox.coming) :
      Comes inbox (.ok reply after)
  | stuck {after : Inbox} {e : Failure} (hfailure : inbox.verdict.failure? = some e)
      (hafter : after.verdict = inbox.verdict) (hcoming : after.coming <:+ inbox.coming) :
      Comes inbox (.error e after)
  | expired {after : Inbox} (hafter : after.verdict = inbox.verdict)
      (hcoming : .expired :: after.coming <:+ inbox.coming) :
      Comes inbox (.error .timeout after)

theorem Comes.of_malformed {reader after : Reader} {fault : Fault} (coming : List Delivery)
    (h : reader.Comes (.malformed fault after)) :
    Comes ⟨coming, reader⟩ (.error fault.failure ⟨coming, after⟩) := by
  obtain ⟨hv, hafter⟩ := h (stream coming)
  exact .stuck (congrArg Verdict.failure? hv) (hafter.trans hv.symm) List.suffix_rfl

/-- Taking in a delivery that changes no verdict comes to the same. -/
theorem Comes.of_cons {inbox next : Inbox} {delivery : Delivery}
    {result : EStateM.Result Failure Inbox Reply} (hv : inbox.verdict = next.verdict)
    (hcoming : inbox.coming = delivery :: next.coming) (h : next.Comes result) :
    inbox.Comes result := by
  have hs : next.coming <:+ inbox.coming := by
    rw [hcoming]
    exact List.suffix_cons delivery next.coming
  cases h with
  | item hverdict hfull hc => exact .item (hv.trans hverdict) hfull (hc.trans hs)
  | stuck hfailure hafter hc =>
      exact .stuck (hv ▸ hfailure) (hafter.trans hv.symm) (hc.trans hs)
  | expired hafter hc => exact .expired (hafter.trans hv.symm) (hc.trans hs)

theorem comes_receiveFrom (reader : Reader) {coming : List Delivery} (h : Unbroken coming) :
    Comes ⟨coming, reader⟩ (receiveFrom reader coming) := by
  induction coming generalizing reader with
  | nil =>
      have hc := reader.comes_advance
      rw [receiveFrom]
      cases hr : reader.advance with
      | reply value after =>
          rw [hr] at hc
          exact .item (hc.2 _) hc.1 List.suffix_rfl
      | starved after =>
          rw [hr] at hc
          have hv : Inbox.verdict ⟨[], reader⟩ = .incomplete := (hc.2 _).trans hc.1
          exact .stuck (congrArg Verdict.failure? hv) (hc.2 _).symm List.suffix_rfl
      | malformed fault after =>
          rw [hr] at hc
          exact .of_malformed _ hc
  | cons delivery coming ih =>
      have hc := reader.comes_advance
      rw [receiveFrom]
      cases hr : reader.advance with
      | reply value after =>
          rw [hr] at hc
          exact .item (hc.2 _) hc.1 List.suffix_rfl
      | malformed fault after =>
          rw [hr] at hc
          exact .of_malformed _ hc
      | starved after =>
          rw [hr] at hc
          have hu := h.of_suffix (List.suffix_cons delivery coming)
          cases delivery with
          | expired => exact .expired (hc.2 _).symm List.suffix_rfl
          | broken text => exact absurd List.mem_cons_self (h text)
          | bytes chunk =>
              -- the reader goes on with the chunk behind the bytes it kept
              refine Comes.of_cons ?_ rfl (ih (after.feed chunk) hu)
              exact (hc.2 _).trans (after.verdict_feed chunk (stream coming)).symm

theorem comes_receive {inbox : Inbox} (h : Unbroken inbox.coming) :
    inbox.Comes inbox.receive :=
  comes_receiveFrom inbox.reader h

end Inbox

/-! ## Successive calls -/

/-- What decoding gives from a position on, reply after reply. It stays where the
bytes run out and where they are no reply. -/
def successive (data : Bytes) : (start count : Nat) → List (Except Failure Reply)
  | _, 0 => []
  | start, count + 1 =>
      match decodeAt data start with
      | .ok (some (reply, next)) => .ok reply :: successive data next count
      | .ok none => .error .closedByPeer :: successive data start count
      | .error fault => .error fault.failure :: successive data start count

/-- Where the bytes hold no further item, decoding fails over and over. -/
theorem successive_of_failure? {data : Bytes} {start : Nat} {e : Failure}
    (h : (decode (data.drop start)).failure? = some e) (count : Nat) :
    successive data start (count + 1) = .error e :: successive data start count := by
  rw [successive, decodeAt]
  generalize decode (data.drop start) = verdict at h
  cases verdict with
  | item reply rest => simp [Verdict.failure?] at h
  | incomplete =>
      cases h
      rfl
  | malformed fault =>
      cases h
      rfl

end Wire

namespace Network

variable {σ : Type}

/-- What some successive calls that wait for a reply come to, less the timeouts. -/
def outcomes (receive : Act σ Reply) : (calls : Nat) → σ → List (Except Failure Reply)
  | 0, _ => []
  | calls + 1, s =>
      match receive s with
      | .ok reply s => .ok reply :: outcomes receive calls s
      | .error e s =>
          if e = .timeout then outcomes receive calls s
          else .error e :: outcomes receive calls s

end Network

namespace Link

open Wire Network

variable {π : Type}

/-- On a link where the verdict is that of decoding at a position, the outcomes are
those of decoding from there on, and all calls but the timeouts have one. -/
theorem outcomes_of_verdict {data : Bytes} {start : Nat} {link : Link π}
    (hv : decode (data.drop start) = link.inbox.verdict) (hu : Unbroken link.inbox.coming)
    (calls : Nat) :
    outcomes receive calls link =
        successive data start (outcomes receive calls link).length ∧
      calls ≤ (outcomes receive calls link).length + deadlines link.inbox.coming := by
  induction calls generalizing start link with
  | zero => exact ⟨rfl, Nat.zero_le _⟩
  | succ calls ih =>
      have hc := Inbox.comes_receive hu
      rw [outcomes, receive]
      generalize link.inbox.receive = result at hc
      cases hc with
      | @item reply after hverdict hfull hcoming =>
          -- the reader has no open arrays again, so it stands at the next position
          have hd := hv.trans hverdict
          have hnext : decode (data.drop (data.length -
              (after.reader.buffer ++ stream after.coming).length)) = after.verdict := by
            rw [drop_of_decode hd, Inbox.verdict, Reader.verdict, hfull, resume_nil]
          obtain ⟨hout, hcalls⟩ := @ih _ { link with inbox := after } hnext
            (hu.of_suffix hcoming)
          have hle := deadlines_le_of_suffix hcoming
          dsimp only at hcalls ⊢
          constructor
          · rw [List.length_cons, successive, decodeAt, hd]
            exact congrArg _ hout
          · rw [List.length_cons]
            omega
      | @stuck after e hfailure hafter hcoming =>
          obtain ⟨hout, hcalls⟩ := @ih start { link with inbox := after }
            (hv.trans hafter.symm) (hu.of_suffix hcoming)
          have hle := deadlines_le_of_suffix hcoming
          dsimp only at hcalls ⊢
          rw [if_neg (Verdict.ne_timeout_of_failure? hfailure)]
          constructor
          · rw [List.length_cons, successive_of_failure? (hv ▸ hfailure)]
            exact congrArg _ hout
          · rw [List.length_cons]
            omega
      | @expired after hafter hcoming =>
          have hs := (List.suffix_cons _ after.coming).trans hcoming
          obtain ⟨hout, hcalls⟩ := @ih start { link with inbox := after }
            (hv.trans hafter.symm) (hu.of_suffix hs)
          have hle : deadlines after.coming + 1 ≤ deadlines link.inbox.coming :=
            deadlines_le_of_suffix hcoming
          dsimp only at hcalls ⊢
          rw [if_pos rfl]
          exact ⟨hout, by omega⟩

/-- The replies on a fresh link are those that decoding gives on the whole stream from
successive positions, however the stream is cut up and whatever deadlines pass; so is
its end, and so is its first fault. -/
theorem outcomes_receive (peer : π) (unsent : Bytes) {deliveries : List Delivery}
    (hu : Unbroken deliveries) (calls : Nat) :
    let results := outcomes receive calls
      ({ peer, inbox := { coming := deliveries }, unsent } : Link π)
    results = successive (stream deliveries) 0 results.length ∧
      calls ≤ results.length + deadlines deliveries ∧
      ∀ (peer' : π) (unsent' : Bytes) (deliveries' : List Delivery) (calls' : Nat),
        Unbroken deliveries' → stream deliveries' = stream deliveries →
        let results' := outcomes receive calls'
          ({ peer := peer', inbox := { coming := deliveries' }, unsent := unsent' } : Link π)
        results'.length = results.length → results' = results := by
  have hfresh : ∀ (peer : π) (unsent : Bytes) (coming : List Delivery),
      decode ((stream coming).drop 0) =
        ({ peer, inbox := { coming }, unsent } : Link π).inbox.verdict := by
    intro peer unsent coming
    rw [List.drop_zero, Inbox.verdict, Reader.verdict, resume_nil, List.nil_append]
  obtain ⟨hout, hcalls⟩ := outcomes_of_verdict (hfresh peer unsent deliveries) hu calls
  refine ⟨hout, hcalls, ?_⟩
  intro peer' unsent' deliveries' calls' hu' hstream results' hlength
  obtain ⟨hout', -⟩ := outcomes_of_verdict (hfresh peer' unsent' deliveries') hu' calls'
  rw [hstream] at hout'
  exact hout'.trans (hlength ▸ hout.symm)

/-- `*2 +a *1 :7` in pieces, then a line that is no reply; deadlines pass inside the
arrays. -/
def inPieces : List Delivery :=
  [.bytes [42, 50, 13], .expired, .bytes [10, 43, 97, 13, 10, 42, 49, 13, 10, 58], .expired,
    .bytes [55, 13, 10, 63], .bytes [13, 10]]

theorem outcomes_receive_inPieces :
    Unbroken inPieces ∧
      ∃ later, outcomes receive 4 ({ peer := (), inbox := { coming := inPieces } } : Link Unit) =
        .ok (.array [.simple "a", .array [.integer 7]]) ::
          .error (Fault.kind 63).failure :: later := by
  have hu : Unbroken inPieces := by simp [Unbroken, inPieces]
  obtain ⟨hout, hcalls, -⟩ := outcomes_receive () [] hu 4
  have hpassed : deadlines inPieces = 2 := rfl
  refine ⟨hu, ?_⟩
  generalize outcomes receive 4 _ = results at hout hcalls ⊢
  obtain ⟨n, hn⟩ : ∃ n, results.length = n + 2 := ⟨results.length - 2, by omega⟩
  rw [hn] at hout
  exact ⟨successive (stream inPieces) 16 n, hout⟩

end Link

end RespClient
