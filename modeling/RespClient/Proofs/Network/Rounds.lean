import RespClient.Network.Recorder
import RespClient.Proofs.Wire.Incremental
import RespClient.Proofs.Wire.Request

/-!
# Rounds over a byte stream

On a link that neither breaks nor times out a round is what it would be if requests and
replies were handed over as values: the peer reads the requests, the client gets the
replies, and no byte and no open array is left on the link. So the next round finds the
link as the first one did, whatever chunks the replies arrive in.
-/

namespace RespClient

open Wire

/-! ## Waiting for replies -/

/-- The stream brings bytes only: it neither breaks nor does a deadline pass. -/
def Smooth (coming : List Delivery) : Prop :=
  ∀ delivery ∈ coming, ∃ chunk, delivery = .bytes chunk

theorem Smooth.of_suffix {after coming : List Delivery} (h : Smooth coming)
    (hs : after <:+ coming) : Smooth after :=
  fun delivery hmem => h delivery (hs.subset hmem)

theorem Smooth.append {xs ys : List Delivery} (hxs : Smooth xs) (hys : Smooth ys) :
    Smooth (xs ++ ys) := by
  intro delivery hmem
  rcases List.mem_append.mp hmem with hmem | hmem
  · exact hxs delivery hmem
  · exact hys delivery hmem

theorem Smooth.unbroken {coming : List Delivery} (h : Smooth coming) : Unbroken coming := by
  intro text hmem
  obtain ⟨chunk, hchunk⟩ := h _ hmem
  cases hchunk

theorem smooth_arrive (chunks : List Bytes) : Smooth (Recorder.arrive chunks) := by
  intro delivery hmem
  obtain ⟨chunk, -, rfl⟩ := List.mem_map.mp hmem
  exact ⟨chunk, rfl⟩

theorem stream_append (xs ys : List Delivery) : stream (xs ++ ys) = stream xs ++ stream ys := by
  induction xs with
  | nil => rfl
  | cons delivery xs ih => cases delivery <;> simp [stream, ih]

theorem stream_arrive (chunks : List Bytes) :
    stream (Recorder.arrive chunks) = chunks.flatten := by
  induction chunks with
  | nil => rfl
  | cons chunk chunks ih =>
      rw [List.flatten_cons, ← ih]
      rfl

namespace Wire.Inbox

/-- No array is open, and `bytes` are still to be read: those that have arrived and those
that will. -/
structure Holds (bytes : Bytes) (inbox : Inbox) : Prop where
  unfilled : inbox.reader.unfilled = []
  bytes : inbox.reader.buffer ++ stream inbox.coming = bytes
  smooth : Smooth inbox.coming

/-- The reply whose bytes come first is received, and nothing of what follows it. -/
theorem receive_of_holds {inbox : Inbox} {reply : Reply} {rest : Bytes} (hsafe : reply.WireSafe)
    (hfits : reply.Fits) (h : Holds (reply.encode ++ rest) inbox) :
    ∃ after, inbox.receive = .ok reply after ∧ Holds rest after := by
  have hverdict : inbox.verdict = .item reply rest := by
    rw [verdict, Reader.verdict, h.unfilled, resume_nil, h.bytes, decode_encode reply hsafe hfits]
  have hc := comes_receive h.smooth.unbroken
  generalize inbox.receive = result at hc
  cases hc with
  | @item reply' after hv hfull hcoming =>
      rw [hverdict, Verdict.item.injEq] at hv
      obtain ⟨rfl, hrest⟩ := hv
      exact ⟨after, rfl, hfull, hrest.symm, h.smooth.of_suffix hcoming⟩
  | stuck hfailure _ _ =>
      rw [hverdict] at hfailure
      cases hfailure
  | expired _ hcoming =>
      obtain ⟨chunk, hchunk⟩ := h.smooth _ (hcoming.subset List.mem_cons_self)
      cases hchunk

end Wire.Inbox

namespace Link

open Network

variable {π : Type} {link : Link π}

theorem receiveMany_of_holds [Peer π] {replies : List Reply} {rest : Bytes}
    (hreplies : ∀ v ∈ replies, v.WireSafe ∧ v.Fits)
    (h : link.inbox.Holds (Reply.encodeItems replies ++ rest)) :
    ∃ inbox, receiveMany replies.length link = .ok replies { link with inbox } ∧
      inbox.Holds rest := by
  induction replies generalizing link with
  | nil => exact ⟨link.inbox, rfl, h⟩
  | cons reply replies ih =>
      obtain ⟨hsafe, hfits⟩ := hreplies reply List.mem_cons_self
      rw [Reply.encodeItems, List.append_assoc] at h
      obtain ⟨inbox, hreceive, hinbox⟩ := Inbox.receive_of_holds hsafe hfits h
      obtain ⟨last, hlast, hholds⟩ := @ih { link with inbox }
        (fun v hv => hreplies v (List.mem_cons_of_mem reply hv)) hinbox
      refine ⟨last, ?_, hholds⟩
      have hfirst : Network.receive link = .ok reply { link with inbox } := by
        show Link.receive link = _
        rw [Link.receive, hreceive]
      rw [List.length_cons, receiveMany, Act.bind_apply, hfirst]
      dsimp only
      rw [Act.bind_apply, hlast]
      rfl

/-! ## Rounds -/

/-- Nothing is under way: no byte waits to be sent or read, and no array is open. -/
structure Idle (link : Link π) : Prop where
  unsent : link.unsent = []
  inbox : link.inbox.Holds []

theorem Idle.buffer (h : link.Idle) : link.inbox.reader.buffer = [] :=
  (List.append_eq_nil_iff.mp h.inbox.bytes).1

theorem sendAll_eq [Peer π] {requests : List Request}
    (h : ∀ r ∈ requests, ∀ arg ∈ r.args, arg.isArgument) :
    sendAll requests link =
      .ok () { link with
        unsent := link.unsent ++ Reply.encodeItems (requests.map Request.spelled) } := by
  induction requests generalizing link with
  | nil => simp [sendAll, Reply.encodeItems]
  | cons request requests ih =>
      have hfirst : Network.send request link =
          .ok () { link with unsent := link.unsent ++ request.spelled.encode } := by
        show Link.send request link = _
        rw [Link.send, Request.append_eq_spelled (h request List.mem_cons_self)]
      rw [sendAll, Act.bind_apply, hfirst]
      dsimp only
      rw [ih fun r hr => h r (List.mem_cons_of_mem request hr), List.append_assoc]
      rfl

theorem flush_of_hear [Peer π] {deliveries : List Delivery} {peer : π} (h : link.unsent ≠ [])
    (hhear : Peer.hear link.unsent link.peer = .ok deliveries peer) :
    Network.flush link =
      .ok () { peer, inbox := { link.inbox with coming := link.inbox.coming ++ deliveries } } := by
  show Link.flush link = _
  rw [Link.flush, if_neg h, hhear]

theorem Idle.hear (h : link.Idle) {deliveries : List Delivery} (hsmooth : Smooth deliveries) :
    Inbox.Holds (stream deliveries)
      { link.inbox with coming := link.inbox.coming ++ deliveries } := by
  refine ⟨h.inbox.unfilled, ?_, h.inbox.smooth.append hsmooth⟩
  rw [stream_append, ← List.append_assoc, h.inbox.bytes, List.nil_append]

end Link

/-- A round as both sides have it: the requests, the reply to each, and the chunks that the
bytes of the replies arrive in. -/
structure Turn where
  requests : List Request
  replies : List Reply
  chunks : List Bytes

namespace Turn

/-- The requests can be sent, there is a reply for each whose texts hold no line end, and the
chunks are the bytes of the replies, cut up somewhere. All lengths are signed numbers of 64
bits. -/
structure Proper (turn : Turn) : Prop where
  sendable : ∀ r ∈ turn.requests, ∀ arg ∈ r.args, arg.isArgument
  fits : ∀ r ∈ turn.requests, r.spelled.Fits
  answered : turn.replies.length = turn.requests.length
  readable : ∀ v ∈ turn.replies, v.WireSafe ∧ v.Fits
  cut : turn.chunks.flatten = Reply.encodeItems turn.replies

/-- What a peer that records has laid out for a round: nothing if it is not asked for
anything. -/
def answers (turn : Turn) : List (List Bytes) :=
  if turn.requests = [] then [] else [turn.chunks]

/-- The bytes of the requests. -/
def bytes (turn : Turn) : Bytes :=
  Reply.encodeItems (turn.requests.map Request.spelled)

end Turn

namespace Link

open Network

variable {link : Link Recorder} {turn : Turn} {answers : List (List Bytes)}

theorem encodeItems_spelled_ne_nil {requests : List Request} (h : requests ≠ []) :
    Reply.encodeItems (requests.map Request.spelled) ≠ [] := by
  cases requests with
  | nil => exact absurd rfl h
  | cons request requests =>
      rw [List.map_cons, Reply.encodeItems, Request.spelled, Reply.encode, line]
      simp

/-- A round on a link with nothing under way comes to the replies, and leaves nothing under
way. -/
theorem round_of_idle (hp : turn.Proper) (h : link.Idle)
    (hanswers : link.peer.answers = turn.answers ++ answers) :
    ∃ after, Network.round turn.requests link = .ok turn.replies after ∧ after.Idle ∧
      after.peer = { heard := link.peer.heard ++ turn.bytes, answers } := by
  have hsend : sendAll turn.requests link = .ok () { link with unsent := turn.bytes } := by
    rw [sendAll_eq hp.sendable, h.unsent, List.nil_append, Turn.bytes]
  rw [Network.round, Act.bind_apply, hsend]
  dsimp only
  rw [Act.bind_apply, ← hp.answered]
  by_cases hnone : turn.requests = []
  · -- nothing is asked for, so nothing is called on the stream
    have hreplies : turn.replies = [] := by
      rw [← List.length_eq_zero_iff, hp.answered, hnone]
      rfl
    have hbytes : turn.bytes = [] := by
      rw [Turn.bytes, hnone]
      rfl
    rw [Turn.answers, if_pos hnone, List.nil_append] at hanswers
    refine ⟨{ link with unsent := [] }, ?_, ⟨rfl, h.inbox⟩, ?_⟩
    · rw [hbytes, hreplies]
      rfl
    · rw [hbytes, List.append_nil, ← hanswers]
  · rw [Turn.answers, if_neg hnone, List.singleton_append] at hanswers
    have hhear : Peer.hear turn.bytes link.peer =
        .ok (Recorder.arrive turn.chunks) { heard := link.peer.heard ++ turn.bytes, answers } := by
      show Recorder.hear turn.bytes link.peer = _
      rw [Recorder.hear, hanswers]
    obtain ⟨flushed, hflush, hpeer, hunsent, hinbox⟩ : ∃ flushed : Link Recorder,
        Network.flush { link with unsent := turn.bytes } = .ok () flushed ∧
        flushed.peer = { heard := link.peer.heard ++ turn.bytes, answers } ∧
        flushed.unsent = [] ∧
        flushed.inbox.Holds (Reply.encodeItems turn.replies ++ []) := by
      refine ⟨_, flush_of_hear (encodeItems_spelled_ne_nil hnone) hhear, rfl, rfl, ?_⟩
      rw [List.append_nil, ← hp.cut, ← stream_arrive]
      exact h.hear (smooth_arrive turn.chunks)
    obtain ⟨inbox, hreceive, hlast⟩ := receiveMany_of_holds hp.readable hinbox
    rw [hflush]
    exact ⟨{ flushed with inbox }, hreceive, ⟨hunsent, hlast⟩, hpeer⟩

end Link

namespace Network

variable {σ : Type} [Network σ]

/-- Rounds one after another on one connection. -/
def rounds : List (List Request) → Act σ (List (List Reply))
  | [] => pure []
  | requests :: later => do
      let replies ← round requests
      let rest ← rounds later
      pure (replies :: rest)

end Network

namespace Link

open Network

variable {link : Link Recorder} {answers : List (List Bytes)}

/-- Each round ends as it began, so any number of them follow one another. -/
theorem rounds_of_idle {turns : List Turn} (hp : ∀ turn ∈ turns, turn.Proper) (h : link.Idle)
    (hanswers : link.peer.answers = turns.flatMap Turn.answers ++ answers) :
    ∃ after, rounds (turns.map Turn.requests) link = .ok (turns.map Turn.replies) after ∧
      after.Idle ∧ after.peer.answers = answers := by
  induction turns generalizing link with
  | nil => exact ⟨link, rfl, h, hanswers⟩
  | cons turn turns ih =>
      rw [List.flatMap_cons, List.append_assoc] at hanswers
      obtain ⟨middle, hround, hidle, hpeer⟩ :=
        round_of_idle (hp turn List.mem_cons_self) h hanswers
      obtain ⟨after, hrounds, hlast⟩ :=
        ih (fun t ht => hp t (List.mem_cons_of_mem turn ht)) hidle (by rw [hpeer])
      refine ⟨after, ?_, hlast⟩
      rw [List.map_cons, rounds, Act.bind_apply, hround]
      dsimp only
      rw [Act.bind_apply, hrounds]
      rfl

/-- On a new connection whose stream neither breaks nor times out, any rounds come to the
replies of the peer, however their bytes are cut up. In each of them the peer is sent just
what reads as the requests, and afterwards nothing is left: no byte that was not sent or not
read, and no open array. -/
theorem round_after_rounds (endpoint : Endpoint) {start : Link Recorder} {earlier later : List Turn}
    {turn : Turn} (hp : ∀ t ∈ earlier ++ turn :: later, t.Proper)
    (hanswers : start.peer.answers = (earlier ++ turn :: later).flatMap Turn.answers) :
    ∃ fresh before after : Link Recorder, ∃ bytes : Bytes,
      Network.dial endpoint start = .ok () fresh ∧
      rounds (earlier.map Turn.requests) fresh = .ok (earlier.map Turn.replies) before ∧
      Network.round turn.requests before = .ok turn.replies after ∧
      after.peer.heard = before.peer.heard ++ bytes ∧
      items decode turn.requests.length [] bytes = .item (turn.requests.map Request.spelled) [] ∧
      after.unsent = [] ∧ after.inbox.reader.buffer = [] ∧ after.inbox.reader.unfilled = [] := by
  have hidle : Link.Idle ({ peer := start.peer } : Link Recorder) :=
    ⟨rfl, rfl, rfl, by simp [Smooth]⟩
  rw [List.flatMap_append, List.flatMap_cons] at hanswers
  obtain ⟨before, hrounds, hbefore, hleft⟩ :=
    rounds_of_idle (fun t ht => hp t (List.mem_append_left _ ht)) hidle hanswers
  have hturn : turn.Proper := hp turn (by simp)
  obtain ⟨after, hround, hafter, hpeer⟩ := round_of_idle hturn hbefore hleft
  refine ⟨{ peer := start.peer }, before, after, turn.bytes, rfl, hrounds, hround, ?_,
    Request.items_spelled hturn.fits, hafter.unsent, hafter.buffer, hafter.inbox.unfilled⟩
  rw [hpeer]

/-- A nested reply and an error, in chunks that break lines and payloads. -/
def nestedTurn : Turn where
  requests := [{ command := "hscan", args := [.bulk [13, 10, 42], .integer (-7)] },
    { command := "get", args := [.simple "k"] }]
  replies := [.array [.bulk [48], .array [.bulk [13, 10], .null]], .error "WRONGTYPE"]
  chunks := [ascii "*2\r\n$1\r\n0\r", ascii "\n*2\r\n$2\r\n\r\n\r\n$-", ascii "1\r\n-WRONG",
    ascii "TYPE\r\n"]

/-- A round that asks nothing. -/
def emptyTurn : Turn where
  requests := []
  replies := []
  chunks := []

theorem proper_nestedTurn : nestedTurn.Proper := by
  constructor
  · decide
  · simp only [nestedTurn, Request.spelled, List.map_cons, List.map_nil, List.forall_mem_cons,
      List.not_mem_nil, false_implies, implies_true, Reply.Fits, Reply.AllFit]
    decide +kernel
  · rfl
  · simp only [nestedTurn, List.forall_mem_cons, List.not_mem_nil, false_implies, implies_true,
      Reply.WireSafe, Reply.AllWireSafe, Reply.Fits, Reply.AllFit]
    decide +kernel
  · decide +kernel

theorem proper_emptyTurn : emptyTurn.Proper := by
  constructor <;> simp [emptyTurn, Reply.encodeItems]

theorem round_after_rounds_nestedTurn :
    (∀ t ∈ [nestedTurn, emptyTurn] ++ nestedTurn :: [], t.Proper) ∧
      ∃ before after : Link Recorder, ∃ bytes : Bytes,
        Network.round nestedTurn.requests before = .ok nestedTurn.replies after ∧
        items decode 2 [] bytes =
          .item [.array [.bulk (ascii "hscan"), .bulk [13, 10, 42], .bulk (ascii "-7")],
            .array [.bulk (ascii "get"), .bulk (ascii "k")]] [] ∧
        after.unsent = [] ∧ after.inbox.reader.buffer = [] ∧ after.inbox.reader.unfilled = [] := by
  have hproper : ∀ t ∈ [nestedTurn, emptyTurn] ++ nestedTurn :: [], t.Proper := by
    simp [proper_nestedTurn, proper_emptyTurn]
  let start : Link Recorder :=
    { peer := { answers := [nestedTurn.chunks, nestedTurn.chunks] }, unsent := [0] }
  have hanswers : start.peer.answers =
      ([nestedTurn, emptyTurn] ++ nestedTurn :: []).flatMap Turn.answers := rfl
  obtain ⟨fresh, before, after, bytes, -, -, hround, -, hread, hlast⟩ :=
    round_after_rounds { address := "h:1" } hproper hanswers
  have hspelled : nestedTurn.requests.map Request.spelled =
      [.array [.bulk (ascii "hscan"), .bulk [13, 10, 42], .bulk (ascii "-7")],
        .array [.bulk (ascii "get"), .bulk (ascii "k")]] := by decide +kernel
  exact ⟨hproper, before, after, bytes, hround, hspelled ▸ hread, hlast⟩

end Link

end RespClient
