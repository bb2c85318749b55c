import Mathlib.Logic.Relation
import RespClient.Proofs.Wire.Incremental

/-!
# Reading turn by turn

A call that waits for a reply takes turns. In each it takes a frame from the buffer, or it takes
in the next delivery where there is no whole frame. A call that is given up between two turns
leaves the inbox where the next call finds it, so the states that an inbox can be in are those
that turns lead to.
-/

namespace RespClient

namespace Wire

/-- What the first frame of its buffer makes of a reader. -/
inductive Move where
  | reply (value : Reply) (next : Reader)
  | onward (next : Reader)
  | starved
  | malformed (fault : Fault)
  deriving DecidableEq, Repr

namespace Reader

def move (reader : Reader) : Move :=
  match frame reader.buffer with
  | .incomplete => .starved
  | .malformed fault => .malformed fault
  | .item (.arrayHead length) rest =>
      .onward { buffer := rest, unfilled := ⟨length, []⟩ :: reader.unfilled }
  | .item (.value value) rest =>
      match attach value reader.unfilled with
      | (some reply, outer) => .reply reply { buffer := rest, unfilled := outer }
      | (none, outer) => .onward { buffer := rest, unfilled := outer }

/-- A reader that advances makes one move after another. -/
theorem advance_eq (reader : Reader) :
    reader.advance =
      match reader.move with
      | .reply value next => .reply value next
      | .onward next => next.advance
      | .starved => .starved reader
      | .malformed fault => .malformed fault reader := by
  fun_cases advance reader with
  | case1 hf => rw [move, hf]
  | case2 fault hf => rw [move, hf]
  | case3 length rest hf => rw [move, hf]
  | case4 value rest hf reply outer ha => simp only [move, hf, ha]
  | case5 value rest hf outer ha => simp only [move, hf, ha]

/-- A reply is the item of no array that is still open. -/
theorem unfilled_of_reply {reader next : Reader} {value : Reply}
    (h : reader.move = .reply value next) : next.unfilled = [] := by
  unfold move at h
  repeat' split at h
  all_goals cases h
  next ha => exact unfilled_of_attach ha

end Reader

namespace Inbox

/-- One turn of a call that waits for a reply. -/
inductive Turn : Inbox → Inbox → Prop where
  | onward {coming : List Delivery} {reader next : Reader} (h : reader.move = .onward next) :
      Turn ⟨coming, reader⟩ ⟨coming, next⟩
  | reply {coming : List Delivery} {reader next : Reader} {value : Reply}
      (h : reader.move = .reply value next) : Turn ⟨coming, reader⟩ ⟨coming, next⟩
  | arrives {chunk : Bytes} {coming : List Delivery} {reader : Reader}
      (h : reader.move = .starved) :
      Turn ⟨.bytes chunk :: coming, reader⟩ ⟨coming, reader.feed chunk⟩
  | expires {coming : List Delivery} {reader : Reader} (h : reader.move = .starved) :
      Turn ⟨.expired :: coming, reader⟩ ⟨coming, reader⟩
  | breaks {text : String} {coming : List Delivery} {reader : Reader}
      (h : reader.move = .starved) : Turn ⟨.broken text :: coming, reader⟩ ⟨coming, reader⟩

/-- Turns lead from one inbox to another. -/
abbrev Turns : Inbox → Inbox → Prop :=
  Relation.ReflTransGen Turn

/-- Turns lead to what a reader comes to: to the move that completes a reply, or to where no move
can be made. -/
def Leads (inbox : Inbox) : Progress → Prop
  | .reply value after => ∃ last, Turns inbox ⟨inbox.coming, last⟩ ∧ last.move = .reply value after
  | .starved after => Turns inbox ⟨inbox.coming, after⟩ ∧ after.move = .starved
  | .malformed fault after =>
      Turns inbox ⟨inbox.coming, after⟩ ∧ after.move = .malformed fault

theorem Leads.of_onward {reader next : Reader} {coming : List Delivery} {progress : Progress}
    (h : reader.move = .onward next) (hnext : Leads ⟨coming, next⟩ progress) :
    Leads ⟨coming, reader⟩ progress := by
  have hturn : Turn ⟨coming, reader⟩ ⟨coming, next⟩ := .onward h
  cases progress with
  | reply value after =>
      obtain ⟨last, hturns, hlast⟩ := hnext
      exact ⟨last, hturns.head hturn, hlast⟩
  | starved after => exact ⟨hnext.1.head hturn, hnext.2⟩
  | malformed fault after => exact ⟨hnext.1.head hturn, hnext.2⟩

theorem leads_advance (reader : Reader) (coming : List Delivery) :
    Leads ⟨coming, reader⟩ reader.advance := by
  fun_induction Reader.advance reader with
  | case1 reader hf =>
      refine ⟨.refl, ?_⟩
      rw [Reader.move, hf]
  | case2 reader fault hf =>
      refine ⟨.refl, ?_⟩
      rw [Reader.move, hf]
  | case3 reader length rest hf ih =>
      refine ih.of_onward ?_
      rw [Reader.move, hf]
  | case4 reader value rest hf reply outer ha =>
      refine ⟨reader, .refl, ?_⟩
      simp only [Reader.move, hf, ha]
  | case5 reader value rest hf outer ha ih =>
      refine ih.of_onward ?_
      simp only [Reader.move, hf, ha]

/-- A call that waits for a reply takes turns, and the last one of a call that succeeds completes
the reply. -/
inductive TakesTurns (inbox : Inbox) : EStateM.Result Failure Inbox Reply → Prop where
  | ok {last : Inbox} {value : Reply} {after : Reader} (hturns : Turns inbox last)
      (hlast : last.reader.move = .reply value after) :
      TakesTurns inbox (.ok value ⟨last.coming, after⟩)
  | error {after : Inbox} {e : Failure} (hturns : Turns inbox after) :
      TakesTurns inbox (.error e after)

theorem TakesTurns.of_turns {inbox next : Inbox} {result : EStateM.Result Failure Inbox Reply}
    (h : Turns inbox next) (hnext : next.TakesTurns result) : inbox.TakesTurns result := by
  cases hnext with
  | ok hturns hlast => exact .ok (h.trans hturns) hlast
  | error hturns => exact .error (h.trans hturns)

/-- A delivery is taken in only where the reader is starved. -/
theorem receiveFrom_eq (reader : Reader) (coming : List Delivery) :
    receiveFrom reader coming =
      match reader.advance with
      | .reply value after => .ok value ⟨coming, after⟩
      | .malformed fault after => .error fault.failure ⟨coming, after⟩
      | .starved after =>
          match coming with
          | [] => .error .closedByPeer ⟨[], after⟩
          | .expired :: coming => .error .timeout ⟨coming, after⟩
          | .broken text :: coming => .error (.io text) ⟨coming, after⟩
          | .bytes chunk :: coming => receiveFrom (after.feed chunk) coming := by
  cases hadvance : reader.advance with
  | reply value after => cases coming <;> simp only [receiveFrom, hadvance]
  | malformed fault after => cases coming <;> simp only [receiveFrom, hadvance]
  | starved after =>
      cases coming with
      | nil => simp only [receiveFrom, hadvance]
      | cons delivery coming => cases delivery <;> simp only [receiveFrom, hadvance]

theorem takesTurns_receiveFrom (reader : Reader) (coming : List Delivery) :
    TakesTurns ⟨coming, reader⟩ (receiveFrom reader coming) := by
  have hleads := leads_advance reader coming
  rw [receiveFrom_eq]
  cases hadvance : reader.advance with
  | reply value after =>
      rw [hadvance] at hleads
      obtain ⟨last, hturns, hlast⟩ := hleads
      exact .ok hturns hlast
  | malformed fault after =>
      rw [hadvance] at hleads
      exact .error hleads.1
  | starved after =>
      rw [hadvance] at hleads
      obtain ⟨hturns, hstarved⟩ := hleads
      cases coming with
      | nil => exact .error hturns
      | cons delivery coming =>
          cases delivery with
          | expired => exact .error (hturns.tail (.expires hstarved))
          | broken text => exact .error (hturns.tail (.breaks hstarved))
          | bytes chunk =>
              exact (takesTurns_receiveFrom (after.feed chunk) coming).of_turns
                (hturns.tail (.arrives hstarved))
termination_by coming.length

theorem takesTurns_receive (inbox : Inbox) : inbox.TakesTurns inbox.receive :=
  takesTurns_receiveFrom inbox.reader inbox.coming

end Inbox

end Wire

end RespClient
