import RespClient.Network.Journal
import RespClient.Network.Script
import RespClient.Proofs.Client.Plan

/-!
# A connection that is kept is in step

On a connection in step every call has gone well, nothing that was sent waits to be
flushed, and as many replies have come as requests have gone out. A round moves both
counts on alike; where one fails on the way, the connection is given up. So the next
reply always belongs to the next request.
-/

namespace RespClient

/-! ## The calls on a connection -/

namespace Event

/-- A call that has gone well. -/
def Succeeded : Event → Prop
  | .dial _ outcome | .send _ outcome | .flush outcome => outcome = .ok ()
  | .receive outcome => ∃ reply, outcome = .ok reply
  | .close | .pause _ => True

/-- The calls on the open connection, after one more event. -/
def follow : Option (List Event) → Event → Option (List Event)
  | _, .dial _ (.ok _) => some []
  | _, .dial _ (.error _) | _, .close => none
  | calls, .pause _ => calls
  | calls, event => calls.map (· ++ [event])

/-- The requests that wait to be flushed, after one more event. -/
def queue : List Request → Event → List Request
  | queued, .send request (.ok _) => queued ++ [request]
  | _, .flush (.ok _) => []
  | queued, _ => queued

end Event

namespace Journal

/-- The calls on the connection that was dialed last, since it was dialed; `none` if
there is none or it was given up. -/
def calls? (events : List Event) : Option (List Event) :=
  events.foldl Event.follow none

/-- The requests sent, in order. -/
def sent (calls : List Event) : List Request :=
  calls.filterMap fun
    | .send request (.ok _) => some request
    | _ => none

/-- The replies received, in order. -/
def received (calls : List Event) : List Reply :=
  calls.filterMap fun
    | .receive (.ok reply) => some reply
    | _ => none

/-- The requests sent since the last flush. -/
def unflushed (calls : List Event) : List Request :=
  calls.foldl Event.queue []

structure InStep (calls : List Event) : Prop where
  succeeded : ∀ call ∈ calls, call.Succeeded
  flushed : unflushed calls = []
  answered : (received calls).length = (sent calls).length

/-- The calls of a round. -/
def roundCalls (requests : List Request) (replies : List Reply) : List Event :=
  requests.map (.send · (.ok ())) ++ .flush (.ok ()) :: replies.map fun reply =>
    .receive (.ok reply)

/-- The last calls are a round on a connection in step: with the same number on the
connection, the requests are the last ones sent and the replies the last ones received. -/
structure Paired (requests : List Request) (replies : List Reply) (calls : List Event) :
    Prop where
  inStep : InStep calls
  latest : ∃ earlier, InStep earlier ∧ calls = earlier ++ roundCalls requests replies
  numbered : ∃ n, (sent calls).drop n = requests ∧ (received calls).drop n = replies

theorem inStep_nil : InStep [] := by
  constructor <;> simp [unflushed, sent, received]

theorem mem_roundCalls {requests : List Request} {replies : List Reply} {event : Event} :
    event ∈ roundCalls requests replies ↔
      (∃ request ∈ requests, event = .send request (.ok ())) ∨ event = .flush (.ok ()) ∨
        ∃ reply ∈ replies, event = .receive (.ok reply) := by
  simp [roundCalls, eq_comm]

theorem sent_append (calls more : List Event) : sent (calls ++ more) = sent calls ++ sent more :=
  List.filterMap_append

theorem received_append (calls more : List Event) :
    received (calls ++ more) = received calls ++ received more :=
  List.filterMap_append

theorem sent_append_roundCalls (calls : List Event) (requests : List Request)
    (replies : List Reply) :
    sent (calls ++ roundCalls requests replies) = sent calls ++ requests := by
  have hsends : sent (requests.map (.send · (.ok ()))) = requests := by
    rw [sent, List.filterMap_map]
    exact List.filterMap_some
  have hothers : sent (.flush (.ok ()) :: replies.map fun reply => .receive (.ok reply)) = [] :=
    List.filterMap_eq_nil_iff.mpr (by simp)
  rw [sent_append, roundCalls, sent_append, hsends, hothers, List.append_nil]

theorem received_append_roundCalls (calls : List Event) (requests : List Request)
    (replies : List Reply) :
    received (calls ++ roundCalls requests replies) = received calls ++ replies := by
  have hothers : received (requests.map (.send · (.ok ()))) = [] :=
    List.filterMap_eq_nil_iff.mpr (by simp)
  have hreceives : received (.flush (.ok ()) :: replies.map fun reply => .receive (.ok reply)) =
      replies := by
    rw [received, List.filterMap_cons_none rfl, List.filterMap_map]
    exact List.filterMap_some
  rw [received_append, roundCalls, received_append, hothers, hreceives, List.nil_append]

/-- A round leaves nothing to be flushed. -/
theorem unflushed_append_roundCalls (calls : List Event) (requests : List Request)
    (replies : List Reply) : unflushed (calls ++ roundCalls requests replies) = [] := by
  have hreplies : ∀ replies : List Reply,
      (replies.map fun reply => Event.receive (.ok reply)).foldl Event.queue [] = [] := by
    intro replies
    induction replies with
    | nil => rfl
    | cons reply replies ih => exact ih
  rw [unflushed, roundCalls, List.foldl_append, List.foldl_append, List.foldl_cons]
  exact hreplies replies

/-- A whole round after calls in step. -/
theorem InStep.append {calls : List Event} (h : InStep calls) {requests : List Request}
    {replies : List Reply} (hlength : replies.length = requests.length) :
    Paired requests replies (calls ++ roundCalls requests replies) := by
  refine ⟨⟨?_, unflushed_append_roundCalls calls requests replies, ?_⟩, ⟨calls, h, rfl⟩,
    (sent calls).length, ?_, ?_⟩
  · intro call hcall
    rcases List.mem_append.mp hcall with hcall | hcall
    · exact h.succeeded call hcall
    · rcases mem_roundCalls.mp hcall with ⟨request, -, rfl⟩ | rfl | ⟨reply, -, rfl⟩
      · rfl
      · rfl
      · exact ⟨reply, rfl⟩
  · rw [sent_append_roundCalls, received_append_roundCalls, List.length_append,
      List.length_append, h.answered, hlength]
  · rw [sent_append_roundCalls, List.drop_left]
  · rw [received_append_roundCalls, ← h.answered, List.drop_left]

/-! ## Calls that go well -/

variable {σ : Type} {journal after : Journal σ} {calls : List Event}

/-- A connection is open, and in step. -/
def Steady (journal : Journal σ) : Prop :=
  ∃ calls, calls? journal.events = some calls ∧ InStep calls

theorem events_of_record {α : Type} {event : Except Failure α → Event} {call : Act σ α} {a : α}
    (h : record event call journal = .ok a after) :
    after.events = journal.events ++ [event (.ok a)] := by
  rw [record] at h
  split at h
  · cases h
    rfl
  · cases h

theorem events_of_record_error {α : Type} {event : Except Failure α → Event} {call : Act σ α}
    {e : Failure} (h : record event call journal = .error e after) :
    after.events = journal.events ++ [event (.error e)] := by
  rw [record] at h
  split at h
  · cases h
  · cases h
    rfl

theorem steady_of_paired {requests : List Request} {replies : List Reply}
    (h : ∃ calls, calls? journal.events = some calls ∧ Paired requests replies calls) :
    Steady journal := by
  obtain ⟨calls, hc, hp⟩ := h
  exact ⟨calls, hc, hp.inStep⟩

/-- Calls that only add to the connection. -/
theorem calls?_append {events more : List Event}
    (hmore : ∀ event ∈ more, ∀ calls, Event.follow (some calls) event = some (calls ++ [event]))
    (hc : calls? events = some calls) : calls? (events ++ more) = some (calls ++ more) := by
  induction more generalizing events calls with
  | nil => rw [List.append_nil, List.append_nil, hc]
  | cons event more ih =>
      have hnext : calls? (events ++ [event]) = some (calls ++ [event]) := by
        rw [calls?] at hc
        rw [calls?, List.foldl_append, hc]
        exact hmore event List.mem_cons_self calls
      have hlast := ih (fun e he => hmore e (List.mem_cons_of_mem event he)) hnext
      rw [List.append_assoc, List.append_assoc, List.singleton_append] at hlast
      exact hlast

/-- A call that has gone well is one more call on the connection. -/
theorem calls?_of_record {α : Type} {event : Except Failure α → Event} {call : Act σ α} {a : α}
    (hfollow : ∀ calls, Event.follow (some calls) (event (.ok a)) =
      some (calls ++ [event (.ok a)]))
    (hc : calls? journal.events = some calls) (h : record event call journal = .ok a after) :
    calls? after.events = some (calls ++ [event (.ok a)]) := by
  rw [events_of_record h]
  exact calls?_append (by simpa using hfollow) hc

variable [Network σ]

theorem events_of_sendAll {requests : List Request}
    (h : Network.sendAll requests journal = .ok () after) :
    after.events = journal.events ++ requests.map (.send · (.ok ())) := by
  induction requests generalizing journal with
  | nil =>
      cases h
      rw [List.map_nil, List.append_nil]
  | cons request requests ih =>
      rw [Network.sendAll, Act.bind_eq_ok_iff] at h
      obtain ⟨_, middle, hsend, h⟩ := h
      rw [ih h, events_of_record hsend, List.append_assoc, List.map_cons, List.singleton_append]

theorem events_of_receiveMany {n : Nat} {replies : List Reply}
    (h : Network.receiveMany n journal = .ok replies after) :
    after.events = journal.events ++ replies.map fun reply => .receive (.ok reply) := by
  induction n generalizing journal replies with
  | zero =>
      cases h
      rw [List.map_nil, List.append_nil]
  | succ n ih =>
      rw [Network.receiveMany, Act.bind_eq_ok_iff] at h
      obtain ⟨reply, middle, hreceive, h⟩ := h
      rw [Act.bind_eq_ok_iff] at h
      obtain ⟨rest, last, hrest, h⟩ := h
      cases h
      rw [ih hrest, events_of_record hreceive, List.append_assoc, List.map_cons,
        List.singleton_append]

/-- The calls of a round that succeeds. -/
theorem events_of_round {requests : List Request} {replies : List Reply}
    (h : Network.round requests journal = .ok replies after) :
    after.events = journal.events ++ roundCalls requests replies := by
  rw [Network.round, Act.bind_eq_ok_iff] at h
  obtain ⟨_, queued, hsend, h⟩ := h
  rw [Act.bind_eq_ok_iff] at h
  obtain ⟨_, flushed, hflush, h⟩ := h
  rw [events_of_receiveMany h, events_of_record hflush, events_of_sendAll hsend, roundCalls]
  simp only [List.append_assoc, List.singleton_append]

theorem calls?_of_sendAll {requests : List Request} (hc : calls? journal.events = some calls)
    (h : Network.sendAll requests journal = .ok () after) :
    calls? after.events = some (calls ++ requests.map (.send · (.ok ()))) := by
  rw [events_of_sendAll h]
  refine calls?_append ?_ hc
  intro event hevent
  obtain ⟨request, -, rfl⟩ := List.mem_map.mp hevent
  exact fun _ => rfl

theorem calls?_of_round {requests : List Request} {replies : List Reply}
    (hc : calls? journal.events = some calls)
    (h : Network.round requests journal = .ok replies after) :
    calls? after.events = some (calls ++ roundCalls requests replies) := by
  rw [events_of_round h]
  refine calls?_append ?_ hc
  intro event hevent
  rcases mem_roundCalls.mp hevent with ⟨request, -, rfl⟩ | rfl | ⟨reply, -, rfl⟩ <;>
    exact fun _ => rfl

/-- A round that succeeds on a connection in step leaves it in step, its replies paired
with its requests. -/
theorem paired_of_round {requests : List Request} {replies : List Reply} (hs : Steady journal)
    (h : Network.round requests journal = .ok replies after) :
    ∃ calls, calls? after.events = some calls ∧ Paired requests replies calls := by
  obtain ⟨calls, hc, hstep⟩ := hs
  exact ⟨_, calls?_of_round hc h, hstep.append (Network.length_of_round h)⟩

theorem steady_of_dial {endpoint : Endpoint}
    (h : Network.dial endpoint journal = .ok () after) : Steady after := by
  refine ⟨[], ?_, inStep_nil⟩
  rw [events_of_record h, calls?, List.foldl_append]
  rfl

/-- The replies used in rounds on a connection in step are paired with their requests. -/
theorem paired_of_exchanges {α : Type} (plan : Plan α) (hs : Steady journal) :
    ∀ x ∈ plan.exchanges Network.round journal,
      ∃ calls, calls? x.after.events = some calls ∧ Paired x.requests x.replies calls := by
  refine Plan.forall_exchanges ?_ hs
  intro requests replies before after hs h
  exact ⟨steady_of_paired (paired_of_round hs h), paired_of_round hs h⟩

theorem steady_of_run {α : Type} {plan : Plan α} {a : α} (hs : Steady journal)
    (h : plan.run Network.round journal = .ok a after) : Steady after := by
  induction plan generalizing journal with
  | answer outcome =>
      cases outcome <;> cases h
      exact hs
  | round requests blame next ih =>
      rw [Plan.run_round] at h
      cases hc : Network.round requests journal with
      | error e middle => simp [hc] at h
      | ok replies middle =>
          rw [hc] at h
          exact ih replies (steady_of_paired (paired_of_round hs hc)) h

theorem steady_of_establish {endpoint : Endpoint} {db : UInt32}
    (h : Network.establish endpoint db journal = .ok () after) : Steady after := by
  rw [Network.establish] at h
  split at h
  · cases h
  · next dialed hdial =>
      split at h
      · cases h
      · next greeted hgreet =>
          cases h
          rw [← Plan.run_greeting] at hgreet
          exact steady_of_run (steady_of_dial hdial) hgreet

end Journal

/-! ## The connection of a session -/

namespace Client

open Journal

variable {σ : Type} {client : Client} {session after : Session (Journal σ)}
  {requests : List Request} {replies : List Reply}

/-- A session holds no connection or one in step. -/
def Held (session : Session (Journal σ)) : Prop :=
  session.connected → Steady session.network

theorem held_of_not_connected (h : session.connected = false) : Held session := by
  intro hconnected
  rw [h] at hconnected
  cases hconnected

variable [Network σ]

theorem steady_of_connect (hs : Held session) (h : client.connect session = .ok () after) :
    after.connected = true ∧ Steady after.network := by
  rw [connect] at h
  split at h
  · next hconnected =>
      cases h
      exact ⟨hconnected, hs hconnected⟩
  · split at h
    · next network hestablish =>
        cases h
        exact ⟨rfl, steady_of_establish hestablish⟩
    · cases h

theorem paired_of_attempt (hs : Held session)
    (h : client.attempt requests session = .ok replies after) :
    ∃ calls, calls? after.network.events = some calls ∧ Paired requests replies calls := by
  rw [attempt, Act.bind_eq_ok_iff] at h
  obtain ⟨_, ready, hconnect, h⟩ := h
  obtain ⟨hconnected, hsteady⟩ := steady_of_connect hs hconnect
  rw [onConnection_of_connected hconnected, Session.onNetwork] at h
  split at h
  · next network hround =>
      cases h
      exact paired_of_round hsteady hround
  · cases h

/-- The replies of a run, if it has any requests, are those to its requests. -/
theorem paired_of_run (hs : Held session) (h : client.run requests session = .ok replies after) :
    Held after ∧ (requests = [] ∧ replies = [] ∨
      ∃ calls, calls? after.network.events = some calls ∧ Paired requests replies calls) := by
  rcases exists_attempt_of_run h with ⟨hrequests, hreplies, rfl⟩ | ⟨start, hstart, hattempt⟩
  · exact ⟨hs, .inl ⟨hrequests, hreplies⟩⟩
  · have hheld : Held start := by
      rcases hstart with rfl | hstart
      · exact hs
      · exact held_of_not_connected hstart
    have hp := paired_of_attempt hheld hattempt
    exact ⟨fun _ => steady_of_paired hp, .inr hp⟩

theorem keeps_held_run (requests : List Request) :
    Act.Keeps (Held (σ := σ)) (client.run requests) := by
  constructor
  · intro session after replies hs h
    exact (paired_of_run hs h).1
  · intro session after e hs h
    exact held_of_not_connected (connected_of_run_error h)

theorem held_of_reached (h : Reached client session) : Held session :=
  h.invariant (fun _ => held_of_not_connected rfl) keeps_held_run
    (fun _ => held_of_not_connected (by simp))

/-- A client holds no connection or one in step, whatever the network does: all calls on
it have gone well, nothing waits to be flushed, and there is a reply for each request. So
every reply that an operation uses is, by its number on the connection, the one to the
request it is used for; and so is every reply that the greeting of a connection uses. -/
theorem inStep_of_reached (h : Reached client session) :
    (session.connected →
      ∃ calls, calls? session.network.events = some calls ∧ InStep calls) ∧
    (∀ {α : Type} (op : Operation α),
      op.perform client session = op.plan.run client.run session ∧
      ∀ x ∈ op.plan.exchanges client.run session,
        x.requests = [] ∧ x.replies = [] ∨
          ∃ calls, calls? x.after.network.events = some calls ∧
            Paired x.requests x.replies calls) ∧
    ∀ journal dialed : Journal σ, Network.dial client.endpoint journal = .ok () dialed →
      Network.greet client.endpoint client.db dialed =
        (Plan.greeting client.endpoint client.db).run Network.round dialed ∧
      ∀ x ∈ (Plan.greeting client.endpoint client.db).exchanges Network.round dialed,
        ∃ calls, calls? x.after.events = some calls ∧ Paired x.requests x.replies calls := by
  have hheld := held_of_reached h
  refine ⟨hheld, ?_, ?_⟩
  · intro α op
    exact ⟨by rw [Operation.perform_eq_run], Plan.forall_exchanges (fun _ _ _ _ => paired_of_run) hheld⟩
  · intro journal dialed hdial
    exact ⟨by rw [Plan.run_greeting], paired_of_exchanges _ (steady_of_dial hdial)⟩

/-- The replies to a database that is chosen and to a ping. -/
def okPong : Script :=
  { replies := [.ok (.simple "OK"), .ok (.simple "PONG")] }

theorem inStep_of_reached_okPong :
    ∃ session : Session (Journal Script),
      Reached { endpoint := { address := "h:1" } } session ∧ session.connected = true ∧
        ∃ calls, calls? session.network.events = some calls ∧ InStep calls ∧
          received calls = [.simple "OK", .simple "PONG"] := by
  obtain ⟨session, hstart, hconnected, hreceived⟩ :
      ∃ session : Session (Journal Script),
        start { endpoint := { address := "h:1" } } { network := { state := okPong } } =
          .ok () session ∧ session.connected = true ∧
        (calls? session.network.events).map received = some [.simple "OK", .simple "PONG"] :=
    ⟨_, rfl, rfl, rfl⟩
  have hreached := Reached.of_start hstart
  obtain ⟨calls, hc, hstep⟩ := (inStep_of_reached hreached).1 hconnected
  rw [hc] at hreceived
  exact ⟨session, hreached, hconnected, calls, hc, hstep, Option.some.inj hreceived⟩

end Client

end RespClient
