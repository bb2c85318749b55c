import Mathlib.Logic.Relation
import RespClient.Network.Recorder
import RespClient.Proofs.Client.Logged

/-!
# Bytes that are no reply

Bytes that are no reply stay at the head of the reader's buffer, and no more bytes are read once
they are there. So a connection that has come upon them fails in the same way for good, and no
reply is made of what stands behind them. A run that comes upon them asks for nothing more: it
gives the connection up and reports them.
-/

namespace RespClient

open Wire

/-! ## Readers that are stuck -/

namespace Wire

/-- What stands at the head of the buffer is no reply. -/
def Reader.Stuck (reader : Reader) (fault : Fault) : Prop :=
  frame reader.buffer = .malformed fault

theorem Reader.Stuck.advance {reader : Reader} {fault : Fault} (h : reader.Stuck fault) :
    reader.advance = .malformed fault reader := by
  rw [Reader.advance]
  split
  · next hf => exact absurd (h.symm.trans hf) (by simp)
  · next fault' hf =>
      cases h.symm.trans hf
      rfl
  · next hf => exact absurd (h.symm.trans hf) (by simp)
  · next hf => exact absurd (h.symm.trans hf) (by simp)

/-- However many frames were read before a fault, the reader is stuck there. -/
theorem Reader.stuck_of_advance {reader after : Reader} {fault : Fault}
    (h : reader.advance = .malformed fault after) : after.Stuck fault := by
  fun_induction Reader.advance reader with
  | case1 reader hf => cases h
  | case2 reader fault' hf =>
      cases h
      exact hf
  | case3 reader length rest hf ih => exact ih h
  | case4 reader value rest hf reply outer ha => cases h
  | case5 reader value rest hf outer ha ih => exact ih h

/-- A stuck reader takes nothing from the stream. -/
theorem receiveFrom_of_stuck {reader : Reader} {fault : Fault} (h : reader.Stuck fault)
    (coming : List Delivery) :
    receiveFrom reader coming = .error fault.failure ⟨coming, reader⟩ := by
  cases coming <;> rw [receiveFrom, h.advance]

/-- Waiting for a reply fails with a protocol failure only where the reader is stuck. -/
theorem stuck_of_receiveFrom {reader : Reader} {coming : List Delivery} {text : String}
    {after : Inbox} (h : receiveFrom reader coming = .error (.protocol text) after) :
    ∃ fault, after.reader.Stuck fault ∧ fault.failure = .protocol text := by
  induction coming generalizing reader with
  | nil =>
      rw [receiveFrom] at h
      cases hadvance : reader.advance with
      | reply value next => simp [hadvance] at h
      | starved next => simp [hadvance, Failure.closedByPeer] at h
      | malformed fault next =>
          simp only [hadvance, EStateM.Result.error.injEq] at h
          obtain ⟨hfailure, rfl⟩ := h
          exact ⟨fault, Reader.stuck_of_advance hadvance, hfailure⟩
  | cons delivery coming ih =>
      rw [receiveFrom] at h
      cases hadvance : reader.advance with
      | reply value next => simp [hadvance] at h
      | malformed fault next =>
          simp only [hadvance, EStateM.Result.error.injEq] at h
          obtain ⟨hfailure, rfl⟩ := h
          exact ⟨fault, Reader.stuck_of_advance hadvance, hfailure⟩
      | starved next =>
          rw [hadvance] at h
          cases delivery with
          | expired => simp at h
          | broken text => simp at h
          | bytes chunk => exact ih h

end Wire

/-! ## Connections that are stuck -/

namespace Link

variable {π : Type} {link later : Link π} {fault : Fault}

theorem receive_of_stuck (h : link.inbox.reader.Stuck fault) :
    Link.receive link = .error fault.failure link := by
  rw [Link.receive, Inbox.receive, receiveFrom_of_stuck h]

theorem stuck_of_receive {text : String} {after : Link π}
    (h : Link.receive link = .error (.protocol text) after) :
    ∃ fault, after.inbox.reader.Stuck fault ∧ fault.failure = .protocol text := by
  rw [Link.receive] at h
  cases hreceive : link.inbox.receive with
  | ok reply inbox => simp [hreceive] at h
  | error e inbox =>
      rw [hreceive] at h
      cases h
      exact stuck_of_receiveFrom hreceive

/-- What may happen to a connection that lasts: the client makes a call on it, or the peer stirs
and anything may come from it, bytes or deadlines or a broken stream or none at all. -/
inductive Next [Peer π] : Link π → Link π → Prop
  | send (request : Request) {link : Link π} : Next link ((Link.send request).left link)
  | flush {link : Link π} : Next link (Link.flush.left link)
  | receive {link : Link π} : Next link (Link.receive.left link)
  | stirs (peer : π) (coming : List Delivery) {link : Link π} :
      Next link { link with peer, inbox := { link.inbox with coming } }

variable [Peer π]

/-- Only receiving touches the reader, and it leaves one that is stuck as it is. -/
theorem Next.reader_eq (h : Next link later) (hstuck : link.inbox.reader.Stuck fault) :
    later.inbox.reader = link.inbox.reader := by
  cases h with
  | send request =>
      rw [Act.left, Link.send]
      cases request.append link.unsent <;> rfl
  | flush =>
      rw [Act.left, Link.flush]
      by_cases hnone : link.unsent = []
      · rw [if_pos hnone]
      · rw [if_neg hnone]
        cases Peer.hear link.unsent link.peer <;> rfl
  | receive => rw [Act.left_of_error (receive_of_stuck hstuck)]
  | stirs peer coming => rfl

theorem reader_eq_of_stuck (h : Relation.ReflTransGen Next link later)
    (hstuck : link.inbox.reader.Stuck fault) : later.inbox.reader = link.inbox.reader := by
  induction h with
  | refl => rfl
  | tail _ hnext ih => exact (hnext.reader_eq (ih ▸ hstuck)).trans ih

end Link

/-! ## Runs that come upon them -/

/-- Why a reply could not be received, where an event says so. -/
def Event.unreceived? : Event → Option Failure
  | .receive (.error e) => some e
  | _ => none

namespace Client

open Journal

/-- A reply that could not be read ends a run: it is the last call of the run, which fails for it
and gives the connection up. -/
theorem run_of_unreadable {σ : Type} [Network σ] {client : Client} {requests : List Request}
    {session : Session (Journal σ)} {events : List Event} {text : String}
    (hevents : ((client.run requests).left session).network.events =
      session.network.events ++ events)
    (hmem : .receive (.error (.protocol text)) ∈ events) :
    (client.run requests).outcome session = .error (.protocol text) ∧
      ((client.run requests).left session).connected = false ∧
      ∃ earlier, events = earlier ++ [.receive (.error (.protocol text)), .close] ∧
        ∀ text', Event.receive (.error (.protocol text')) ∉ earlier := by
  by_cases hne : requests = []
  · subst hne
    have hleft : (client.run []).left session = session := rfl
    rw [hleft, List.self_eq_append_right] at hevents
    rw [hevents] at hmem
    cases hmem
  · obtain ⟨struck, last, hrow, -, hresult⟩ := exists_inRow_of_run client hne session
    obtain ⟨before, hbefore, hnetwork⟩ := hrow.exists_logged
    obtain ⟨calls, hcalls, hblame⟩ := exists_logged_of_made (hrow.made last (by simp))
    have hprotocol : ∀ text text', Failure.protocol text ≠ .server text' := by simp
    have hearlier : ∀ text', Event.receive (.error (.protocol text')) ∉ before :=
      fun text' hmem' => by cases hnetwork _ (hprotocol text') hmem'
    rw [Act.left_of_eq_ofExcept hresult, hcalls.events_eq, hbefore.events_eq,
      List.append_assoc] at hevents
    have hsplit := List.append_cancel_left hevents
    rw [← hsplit] at hmem
    obtain ⟨houtcome, front, hwell, hshape⟩ :=
      hblame _ (hprotocol text) ((List.mem_append.mp hmem).resolve_left (hearlier text))
    have hfails : client.run requests session = .error (.protocol text) last.final := by
      rw [hresult, houtcome]
      rfl
    refine ⟨(Act.outcome_of_eq_ofExcept hresult).trans houtcome, ?_, before ++ front, ?_, ?_⟩
    · rw [Act.left_of_error hfails]
      exact connected_of_run_error hfails
    · rw [← hsplit, hshape, List.append_assoc]
    · intro text' hmem'
      rcases List.mem_append.mp hmem' with hmem' | hmem'
      · exact hearlier text' hmem'
      · cases hwell _ hmem'

/-- A connection on which a reply could not be read is stuck where the bytes are that are none.
Whatever is sent or comes from the peer later, receiving fails as it did then, and leaves the
stream, the buffer and the open arrays as they are. A run on which this happens reports it, makes
no further call and gives the connection up. -/
theorem unreadable_contained (π : Type) [Peer π] :
    (∀ {link poisoned : Link π} {text : String},
      Link.receive link = .error (.protocol text) poisoned →
        (∃ fault, frame poisoned.inbox.reader.buffer = .malformed fault ∧
          fault.failure = .protocol text) ∧
        ∀ {later : Link π}, Relation.ReflTransGen Link.Next poisoned later →
          Link.receive later = .error (.protocol text) later ∧
            later.inbox.reader = poisoned.inbox.reader) ∧
    ∀ (client : Client) (requests : List Request) (session : Session (Journal (Link π)))
        {events : List Event} {text : String},
      ((client.run requests).left session).network.events = session.network.events ++ events →
      .receive (.error (.protocol text)) ∈ events →
        (client.run requests).outcome session = .error (.protocol text) ∧
          ((client.run requests).left session).connected = false ∧
          ∃ earlier, events = earlier ++ [.receive (.error (.protocol text)), .close] ∧
            ∀ text', Event.receive (.error (.protocol text')) ∉ earlier := by
  refine ⟨fun {link poisoned text} hreceive => ?_,
    fun client requests session => run_of_unreadable⟩
  obtain ⟨fault, hstuck, hfault⟩ := Link.stuck_of_receive hreceive
  refine ⟨⟨fault, hstuck, hfault⟩, fun {later} hlater => ?_⟩
  have hreader := Link.reader_eq_of_stuck hlater hstuck
  have hstill : later.inbox.reader.Stuck fault := by rwa [hreader]
  exact ⟨hfault ▸ Link.receive_of_stuck hstill, hreader⟩

/-- An array that breaks off in a line which starts as no reply does, with a good reply behind. -/
def spoilt : Link Recorder where
  peer := {}
  inbox := { coming := [.bytes (ascii "*2\r\n:1\r\n?"), .bytes (ascii "x\r\n+OK\r\n")] }

/-- The same on a connection that the client opens. -/
def spoiltAnswer : Session (Journal (Link Recorder)) where
  network :=
    { state := { peer := { answers := [[ascii "+OK\r\n"], [ascii "*2\r\n:1\r\n?x\r\n+OK\r\n"]] } } }

theorem unreadable_contained_midArray :
    (∃ poisoned later : Link Recorder,
      Link.receive spoilt = .error (.protocol "Invalid RESP type byte: ?") poisoned ∧
      poisoned.inbox.reader.unfilled = [⟨1, [.integer 1]⟩] ∧
      later.inbox.coming = [.expired, .bytes (ascii "+OK\r\n")] ∧
      Link.receive later = .error (.protocol "Invalid RESP type byte: ?") later ∧
      later.inbox.reader = poisoned.inbox.reader) ∧
    (patient.run [{ command := "dbsize" }]).outcome spoiltAnswer =
        .error (.protocol "Invalid RESP type byte: ?") ∧
      ((patient.run [{ command := "dbsize" }]).left spoiltAnswer).connected = false := by
  obtain ⟨hlink, hrun⟩ := unreadable_contained Recorder
  constructor
  · have hfails : Link.receive.failure? spoilt =
        some (.protocol "Invalid RESP type byte: ?") := by decide +kernel
    have hopen : (Link.receive.left spoilt).inbox.reader.unfilled = [⟨1, [.integer 1]⟩] := by
      decide +kernel
    obtain ⟨-, hlasts⟩ := hlink (Act.eq_error_of_failure? hfails)
    exact ⟨_, _, Act.eq_error_of_failure? hfails, hopen, rfl,
      hlasts (.single (.stirs {} [.expired, .bytes (ascii "+OK\r\n")]))⟩
  · have hseen : ((patient.run [{ command := "dbsize" }]).left
        spoiltAnswer).network.events.filterMap Event.unreceived? =
          [.protocol "Invalid RESP type byte: ?"] := by decide +kernel
    obtain ⟨event, hmem, hevent⟩ := List.mem_filterMap.mp (hseen ▸ List.mem_singleton_self _)
    have hreceive : event = .receive (.error (.protocol "Invalid RESP type byte: ?")) := by
      cases event with
      | receive outcome =>
          cases outcome with
          | ok reply => cases hevent
          | error e =>
              cases hevent
              rfl
      | _ => cases hevent
    rw [hreceive] at hmem
    obtain ⟨houtcome, hconnected, -⟩ :=
      hrun patient [{ command := "dbsize" }] spoiltAnswer (List.nil_append _).symm hmem
    exact ⟨houtcome, hconnected⟩

end Client

end RespClient
