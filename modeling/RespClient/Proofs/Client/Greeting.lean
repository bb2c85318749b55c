import Mathlib.Data.List.Induction
import RespClient.Proofs.Client.Opening

/-!
# No request before the greeting

A connection is greeted before it carries a request of an operation: the secret and the
database go out one after the other, and each has been answered before the next request
follows. The rule is stated for each event of a journal by the events before it, so it
holds at every moment of every run.
-/

namespace RespClient

/-! ## What can be done with a client -/

/-- A client is made ready, asked for an operation, or closed. -/
inductive Step : Type 1
  | start
  | perform {α : Type} (op : Operation α)
  | close

/-- A request that a step may come to ask, the greeting apart. -/
def Step.Asks : Step → Request → Prop
  | start, request => request = { command := "ping" }
  | perform op, request => op.plan.Asks request
  | close, _ => False

namespace Client

variable {σ : Type} [Network σ]

/-- The session after a step, whatever comes of it. -/
def take (client : Client) (session : Session σ) : Step → Session σ
  | .start => Act.left client.start session
  | .perform op => (op.perform client).left session
  | .close => session.close

/-- The session after some steps. -/
def steps (client : Client) (steps : List Step) (session : Session σ) : Session σ :=
  steps.foldl client.take session

end Client

/-! ## The order of calls -/

namespace Journal

/-- The calls of requests that go out one by one: each is sent, flushed and answered
before the next. -/
def exchanged (pairs : List (Request × Reply)) : List Event :=
  pairs.flatMap fun x => roundCalls [x.1] [x.2]

/-- Requests that were answered, and none by an error. -/
def Accepted (pairs : List (Request × Reply)) : Prop :=
  ∀ x ∈ pairs, ∀ text, x.2 ≠ .error text

/-- Whose turn it is on a connection, by the calls on it so far: the next request of the
greeting once those before it are accepted, and after the greeting any request that is
`asked` for. -/
inductive InTurn (greeting : List Request) (asked : Request → Prop) (calls : List Event) :
    Request → Prop
  | greets {done : List (Request × Reply)} {request : Request} {rest : List Request}
      (hcalls : calls = exchanged done) (haccepted : Accepted done)
      (hgreeting : greeting = done.map Prod.fst ++ request :: rest) :
      InTurn greeting asked calls request
  | asks {done : List (Request × Reply)} {later : List Event} {request : Request}
      (hcalls : calls = exchanged done ++ later) (haccepted : Accepted done)
      (hgreeting : greeting = done.map Prod.fst) (hasked : asked request) :
      InTurn greeting asked calls request

/-- What may happen after some events: a dial of the client's endpoint where no connection
is open, and on an open one a request whose turn it is. -/
def Allowed (client : Client) (asked : Request → Prop) (before : List Event) : Event → Prop
  | .dial endpoint _ => endpoint = client.endpoint ∧ calls? before = none
  | .send request _ =>
      ∃ calls, calls? before = some calls ∧ InTurn client.greeting asked calls request
  | .flush _ | .receive _ => (calls? before).isSome
  | .close | .pause _ => True

/-- Each event is allowed at its moment. -/
def Orderly (client : Client) (asked : Request → Prop) (events : List Event) : Prop :=
  ∀ before event after, events = before ++ event :: after → Allowed client asked before event

variable {σ α β : Type} {client : Client} {asked : Request → Prop} {events calls : List Event}
  {journal after : Journal σ}

theorem orderly_nil : Orderly client asked [] := by
  intro before event after h
  simp at h

theorem Orderly.snoc (h : Orderly client asked events) {event : Event}
    (he : Allowed client asked events event) : Orderly client asked (events ++ [event]) := by
  intro before event' after heq
  rcases List.eq_nil_or_concat after with rfl | ⟨init, last, rfl⟩
  · obtain ⟨rfl, hevent⟩ := List.append_inj' heq rfl
    cases hevent
    exact he
  · rw [List.concat_eq_append, ← List.cons_append, ← List.append_assoc] at heq
    exact h before event' init (List.append_inj' heq rfl).1

theorem Orderly.of_append {more : List Event} (h : Orderly client asked (events ++ more)) :
    Orderly client asked events := by
  intro before event after heq
  exact h before event (after ++ more) (by rw [heq]; simp)

theorem calls?_snoc (events : List Event) (event : Event) :
    calls? (events ++ [event]) = Event.follow (calls? events) event := by
  rw [calls?, List.foldl_append]
  rfl

theorem exchanged_snoc (pairs : List (Request × Reply)) (request : Request) (reply : Reply) :
    exchanged (pairs ++ [(request, reply)]) =
      exchanged pairs ++ roundCalls [request] [reply] := by
  simp [exchanged]

theorem Accepted.snoc {pairs : List (Request × Reply)} (h : Accepted pairs) {reply : Reply}
    (hreply : ∀ text, reply ≠ .error text) (request : Request) :
    Accepted (pairs ++ [(request, reply)]) := by
  intro x hx
  rcases List.mem_append.mp hx with hx | hx
  · exact h x hx
  · rw [List.mem_singleton.mp hx]
    exact hreply

/-! ## Requests in order -/

theorem sent_exchanged (pairs : List (Request × Reply)) :
    sent (exchanged pairs) = pairs.map Prod.fst := by
  induction pairs with
  | nil => rfl
  | cons x pairs ih =>
      rw [exchanged, List.flatMap_cons, sent_append, List.map_cons]
      exact congrArg (x.1 :: ·) ih

/-- Requests that start with the greeting, or with a part of it where they end there, and go
on with requests that are asked for. -/
def Sequenced (greeting : List Request) (asked : Request → Prop) (requests : List Request) :
    Prop :=
  requests <+: greeting ∨ ∃ data, requests = greeting ++ data ∧ ∀ r ∈ data, asked r

theorem sequenced_of_inTurn {greeting : List Request} {request : Request}
    (hs : Sequenced greeting asked (sent calls)) (h : InTurn greeting asked calls request) :
    Sequenced greeting asked (sent calls ++ [request]) := by
  cases h with
  | @greets done _ rest hcalls _ hgreeting =>
      refine .inl ⟨rest, ?_⟩
      rw [hcalls, sent_exchanged, hgreeting, List.append_assoc]
      rfl
  | @asks done later _ hcalls _ hgreeting hasked =>
      have hsent : sent calls = greeting ++ sent later := by
        rw [hcalls, sent_append, sent_exchanged, hgreeting]
      refine .inr ⟨sent later ++ [request], by rw [hsent, List.append_assoc], ?_⟩
      intro r hr
      rcases List.mem_append.mp hr with hr | hr
      · rcases hs with hs | ⟨data, hdata, hall⟩
        · -- what is a part of the greeting and starts with it is no more than the greeting
          rw [hsent] at hs
          have hnil : sent later = [] := by
            have := hs.length_le
            rw [List.length_append] at this
            exact List.length_eq_zero_iff.mp (by omega)
          rw [hnil] at hr
          cases hr
        · rw [hsent] at hdata
          exact hall r (List.append_cancel_left hdata ▸ hr)
      · rw [List.mem_singleton.mp hr]
        exact hasked

/-- On a journal in order the requests of each connection are in order. -/
theorem sequenced_of_orderly (h : Orderly client asked events) (hc : calls? events = some calls) :
    Sequenced client.greeting asked (sent calls) := by
  induction events using List.reverseRecOn generalizing calls with
  | nil => cases hc
  | append_singleton events event ih =>
      have hallowed := h events event [] rfl
      have hbefore := fun {calls} => @ih calls h.of_append
      rw [calls?_snoc] at hc
      cases event with
      | dial endpoint outcome =>
          cases outcome with
          | error e => cases hc
          | ok _ =>
              cases hc
              exact .inl (List.nil_prefix)
      | close => cases hc
      | pause ms => exact hbefore hc
      | send request outcome =>
          obtain ⟨earlier, hearlier, hturn⟩ := hallowed
          rw [hearlier] at hc
          cases hc
          rw [sent_append]
          cases outcome with
          | ok _ => exact sequenced_of_inTurn (hbefore hearlier) hturn
          | error e => exact (List.append_nil (sent earlier)).symm ▸ hbefore hearlier
      | flush outcome | receive outcome =>
          obtain ⟨earlier, hearlier⟩ := Option.isSome_iff_exists.mp hallowed
          rw [hearlier] at hc
          cases hc
          rw [sent_append]
          exact (List.append_nil (sent earlier)).symm ▸ hbefore hearlier

/-! ## Calls in order -/

/-- The journal so far is in order. -/
def Kept (client : Client) (asked : Request → Prop) (journal : Journal σ) : Prop :=
  Orderly client asked journal.events

/-- A connection is open whose greeting is done. -/
def Greeted (client : Client) (journal : Journal σ) : Prop :=
  ∃ done later, calls? journal.events = some (exchanged done ++ later) ∧ Accepted done ∧
    client.greeting = done.map Prod.fst

/-- The greeting has got as far as the requests that are `done`, with `rest` to go. -/
structure Greeting (client : Client) (asked : Request → Prop) (done : List (Request × Reply))
    (rest : List Request) (journal : Journal σ) : Prop where
  kept : Kept client asked journal
  calls : calls? journal.events = some (exchanged done)
  accepted : Accepted done
  greeting : client.greeting = done.map Prod.fst ++ rest

theorem Greeting.greeted {done : List (Request × Reply)}
    (h : Greeting client asked done [] journal) : Greeted client journal :=
  ⟨done, [], by rw [h.calls, List.append_nil], h.accepted, by rw [h.greeting, List.append_nil]⟩

theorem kept_record {event : Except Failure α → Event} {call : Act σ α}
    (h : Kept client asked journal)
    (he : ∀ outcome, Allowed client asked journal.events (event outcome)) :
    Kept client asked ((record event call).left journal) := by
  rw [Act.left, record]
  cases call journal.state with
  | ok a state => exact h.snoc (he _)
  | error e state => exact h.snoc (he _)

variable [Network σ]

theorem kept_sendAll {requests : List Request} (h : Kept client asked journal)
    (hc : calls? journal.events = some calls)
    (hturn : ∀ earlier request later, requests = earlier ++ request :: later →
      InTurn client.greeting asked (calls ++ earlier.map (.send · (.ok ()))) request) :
    Kept client asked ((Network.sendAll requests).left journal) := by
  induction requests generalizing journal calls with
  | nil => exact h
  | cons request requests ih =>
      rw [Network.sendAll]
      apply Act.left_bind
      · have hfirst := hturn [] request requests rfl
        rw [List.map_nil, List.append_nil] at hfirst
        exact kept_record h fun _ => ⟨calls, hc, hfirst⟩
      · intro _ middle hsend hmiddle
        apply ih hmiddle (calls?_of_record (fun _ => rfl) hc hsend)
        intro earlier next later heq
        have hnext := hturn (request :: earlier) next later (by rw [heq]; rfl)
        rw [List.append_assoc]
        exact hnext

theorem kept_flush (h : Kept client asked journal) (hc : calls? journal.events = some calls) :
    Kept client asked ((Network.flush (σ := Journal σ)).left journal) :=
  kept_record h fun _ => Option.isSome_of_eq_some hc

theorem kept_receive (h : Kept client asked journal) (hc : calls? journal.events = some calls) :
    Kept client asked ((Network.receive (σ := Journal σ)).left journal) :=
  kept_record h fun _ => Option.isSome_of_eq_some hc

theorem kept_receiveMany {n : Nat} (h : Kept client asked journal)
    (hc : calls? journal.events = some calls) :
    Kept client asked ((Network.receiveMany n).left journal) := by
  induction n generalizing journal calls with
  | zero => exact h
  | succ n ih =>
      rw [Network.receiveMany]
      apply Act.left_bind (kept_receive h hc)
      intro reply middle hreceive hmiddle
      apply Act.left_bind (ih hmiddle (calls?_of_record (fun _ => rfl) hc hreceive))
      exact fun _ _ _ hlast => hlast

/-- A round of requests whose turn it is. -/
theorem kept_round {requests : List Request} (h : Kept client asked journal)
    (hc : calls? journal.events = some calls)
    (hturn : ∀ earlier request later, requests = earlier ++ request :: later →
      InTurn client.greeting asked (calls ++ earlier.map (.send · (.ok ()))) request) :
    Kept client asked ((Network.round requests).left journal) := by
  rw [Network.round]
  apply Act.left_bind (kept_sendAll h hc hturn)
  intro _ sent hsend hsent
  have hcalls := calls?_of_sendAll hc hsend
  apply Act.left_bind (kept_flush hsent hcalls)
  intro _ flushed hflush hflushed
  exact kept_receiveMany hflushed (calls?_of_record (fun _ => rfl) hcalls hflush)

/-- On a connection whose greeting is done it is the turn of whatever is asked for. -/
theorem kept_round_of_greeted {requests : List Request} (h : Kept client asked journal)
    (hg : Greeted client journal) (hasked : ∀ r ∈ requests, asked r) :
    Kept client asked ((Network.round requests).left journal) := by
  obtain ⟨done, later, hc, haccepted, hgreeting⟩ := hg
  apply kept_round h hc
  intro earlier request after heq
  refine .asks (List.append_assoc _ _ _) haccepted hgreeting ?_
  exact hasked request (by rw [heq]; simp)

theorem greeted_of_round {requests : List Request} {replies : List Reply}
    (hg : Greeted client journal) (h : Network.round requests journal = .ok replies after) :
    Greeted client after := by
  obtain ⟨done, later, hc, haccepted, hgreeting⟩ := hg
  refine ⟨done, later ++ roundCalls requests replies, ?_, haccepted, hgreeting⟩
  rw [calls?_of_round hc h, List.append_assoc]

/-! ## The greeting -/

variable {done : List (Request × Reply)} {request : Request} {rest : List Request}

theorem Greeting.kept_ask (h : Greeting client asked done (request :: rest) journal) :
    Kept client asked ((Network.ask request).left journal) := by
  rw [Plan.left_ask]
  apply kept_round h.kept h.calls
  intro earlier next later heq
  -- the round has one request, which is the next one of the greeting
  cases earlier with
  | nil =>
      cases heq
      exact .greets (List.append_nil _) h.accepted h.greeting
  | cons first earlier =>
      have hlength := congrArg List.length heq
      simp at hlength

theorem Greeting.snoc {reply : Reply} (h : Greeting client asked done (request :: rest) journal)
    (hask : Network.ask request journal = .ok reply after) :
    Greeting client asked (done ++ [(request, reply)]) rest after := by
  obtain ⟨hround, hreply⟩ := Plan.round_of_ask hask
  have hkept := h.kept_ask
  rw [Act.left_of_ok hask] at hkept
  refine ⟨hkept, ?_, h.accepted.snoc hreply request, ?_⟩
  · rw [calls?_of_round h.calls hround, exchanged_snoc]
  · rw [h.greeting, List.map_append, List.append_assoc]
    rfl

/-- An action that asks the next request of the greeting, and fails if that is refused. -/
structure Advances (client : Client) (asked : Request → Prop) (rest : List Request)
    (journal : Journal σ) (act : Act (Journal σ) Unit) : Prop where
  kept : Kept client asked (act.left journal)
  ok : ∀ {after}, act journal = .ok () after → ∃ done, Greeting client asked done rest after

theorem Greeting.advances_authenticate {secret : String}
    (h : Greeting client asked done
      ({ command := client.endpoint.authMethod.command, args := [.ofText secret] } :: rest)
      journal) :
    Advances client asked rest journal
      (Network.authenticate client.endpoint.authMethod secret) := by
  constructor
  · rw [Network.authenticate]
    apply Act.left_bind
    · rw [Act.left_mapFailure]
      exact h.kept_ask
    · exact fun _ _ _ hkept => hkept
  · intro after hok
    rw [Network.authenticate, Act.bind_eq_ok_iff] at hok
    obtain ⟨reply, middle, hask, hok⟩ := hok
    cases hok
    exact ⟨_, h.snoc (Act.mapFailure_eq_ok_iff.mp hask)⟩

theorem Greeting.advances_select
    (h : Greeting client asked done (client.databaseRequest :: rest) journal) :
    Advances client asked rest journal (Network.select client.db) := by
  constructor
  · rw [Network.select]
    exact Act.left_bind h.kept_ask fun _ _ _ hkept => hkept
  · intro after hok
    rw [Network.select, Act.bind_eq_ok_iff] at hok
    obtain ⟨reply, middle, hask, hok⟩ := hok
    cases hok
    exact ⟨_, h.snoc hask⟩

theorem Greeting.advances_greet (h : Greeting client asked [] client.greeting journal) :
    Advances client asked [] journal (Network.greet client.endpoint client.db) := by
  rw [Client.greeting, Client.secretRequests_eq] at h
  rw [Network.greet]
  cases hsecret : client.endpoint.secret? with
  | none =>
      rw [hsecret] at h
      exact h.advances_select
  | some secret =>
      rw [hsecret] at h
      have hfirst := h.advances_authenticate
      constructor
      · apply Act.left_bind hfirst.kept
        intro _ middle hok _
        obtain ⟨done, hdone⟩ := hfirst.ok hok
        exact hdone.advances_select.kept
      · intro after hok
        rw [Act.bind_eq_ok_iff] at hok
        obtain ⟨_, middle, hauth, hselect⟩ := hok
        obtain ⟨done, hdone⟩ := hfirst.ok hauth
        exact hdone.advances_select.ok hselect

/-- What opening a connection comes to: one whose greeting is done, or none. -/
def Opened (client : Client) (asked : Request → Prop) :
    EStateM.Result Failure (Journal σ) Unit → Prop
  | .ok _ after => Kept client asked after ∧ Greeted client after
  | .error _ after => Kept client asked after ∧ calls? after.events = none

theorem opened_establish (h : Kept client asked journal) (hc : calls? journal.events = none) :
    Opened client asked (Network.establish client.endpoint client.db journal) := by
  have hdial : Kept client asked ((Network.dial client.endpoint).left journal) :=
    kept_record h fun _ => ⟨rfl, hc⟩
  rw [Network.establish]
  cases hd : Network.dial client.endpoint journal with
  | error e dialed =>
      rw [Act.left_of_error hd] at hdial
      refine ⟨hdial, ?_⟩
      rw [events_of_record_error hd, calls?_snoc]
      rfl
  | ok _ dialed =>
      rw [Act.left_of_ok hd] at hdial
      have hfresh : calls? dialed.events = some (exchanged []) := by
        rw [events_of_record hd, calls?_snoc]
        rfl
      have hgreet := Greeting.advances_greet ⟨hdial, hfresh, by simp [Accepted], rfl⟩
      dsimp only
      cases hg : Network.greet client.endpoint client.db dialed with
      | error e greeted =>
          -- the connection is given up at once
          have hkept := hgreet.kept
          rw [Act.left_of_error hg] at hkept
          refine ⟨hkept.snoc trivial, ?_⟩
          exact calls?_snoc greeted.events .close
      | ok _ greeted =>
          obtain ⟨done, hdone⟩ := hgreet.ok hg
          exact ⟨hdone.kept, hdone.greeted⟩

end Journal

/-! ## The sessions of a client -/

namespace Client

open Journal

variable {σ : Type} {client : Client} {asked : Request → Prop} {session after : Session (Journal σ)}
  {requests : List Request}

/-- A session whose calls are in order, and that knows when there is no connection. -/
structure Loose (client : Client) (asked : Request → Prop) (session : Session (Journal σ)) :
    Prop where
  kept : Kept client asked session.network
  free : session.connected = false → calls? session.network.events = none

/-- Besides, the connection it holds is greeted. -/
structure Sound (client : Client) (asked : Request → Prop) (session : Session (Journal σ)) : Prop
    extends Loose client asked session where
  greeted : session.connected = true → Greeted client session.network

variable [Network σ]

theorem Loose.close (h : Loose client asked session) : Sound client asked session.close := by
  by_cases hconnected : session.connected = true
  · rw [Session.close, if_pos hconnected]
    refine ⟨⟨h.kept.snoc trivial, fun _ => calls?_snoc session.network.events .close⟩, ?_⟩
    intro hopen
    cases hopen
  · have hclosed : session.connected = false := by simpa using hconnected
    rw [Session.close_of_connected_eq_false hclosed]
    refine ⟨h, ?_⟩
    intro hopen
    exact absurd hopen hconnected

theorem Sound.pause (h : Sound client asked session) (ms : Nat) :
    Sound client asked (session.pause ms) := by
  have hcalls : calls? (session.pause ms).network.events = calls? session.network.events :=
    calls?_snoc session.network.events (.pause ms)
  refine ⟨⟨h.kept.snoc trivial, fun hclosed => hcalls.trans (h.free hclosed)⟩, ?_⟩
  intro hopen
  obtain ⟨done, later, hc, haccepted, hgreeting⟩ := h.greeted hopen
  exact ⟨done, later, hcalls.trans hc, haccepted, hgreeting⟩

theorem sound_connect (h : Sound client asked session) :
    Sound client asked (client.connect.left session) := by
  by_cases hconnected : session.connected = true
  · rw [Act.left_of_ok (connect_of_connected hconnected)]
    exact h
  · have hopened := opened_establish h.kept (h.free (by simpa using hconnected))
    rw [Act.left, connect, if_neg hconnected]
    cases he : Network.establish client.endpoint client.db session.network with
    | ok _ network =>
        rw [he] at hopened
        refine ⟨⟨hopened.1, ?_⟩, fun _ => hopened.2⟩
        intro hclosed
        cases hclosed
    | error e network =>
        rw [he] at hopened
        refine ⟨⟨hopened.1, fun _ => hopened.2⟩, ?_⟩
        intro hopen
        cases hopen

/-- What an attempt at a round comes to: where it fails, there may be a connection in the
middle of its greeting or of the round, which is to be given up. -/
def Tried (client : Client) (asked : Request → Prop) :
    EStateM.Result Failure (Session (Journal σ)) (List Reply) → Prop
  | .ok _ after => Sound client asked after
  | .error _ after => Loose client asked after

theorem tried_attempt (h : Sound client asked session) (hasked : ∀ r ∈ requests, asked r) :
    Tried client asked (client.attempt requests session) := by
  have hready := sound_connect h
  rw [attempt, Act.bind_apply]
  cases hc : client.connect session with
  | error e ready =>
      rw [Act.left_of_error hc] at hready
      exact hready.toLoose
  | ok _ ready =>
      rw [Act.left_of_ok hc] at hready
      have hconnected := connected_of_connect hc
      have hopen : ¬ ready.connected = false := by simp [hconnected]
      have hgreeted := hready.greeted hconnected
      have hround := kept_round_of_greeted hready.kept hgreeted hasked
      dsimp only
      rw [onConnection_of_connected hconnected, Session.onNetwork]
      cases hr : Network.round requests ready.network with
      | error e network =>
          rw [Act.left_of_error hr] at hround
          exact ⟨hround, fun hclosed => absurd hclosed hopen⟩
      | ok replies network =>
          rw [Act.left_of_ok hr] at hround
          exact ⟨⟨hround, fun hclosed => absurd hclosed hopen⟩, fun _ => greeted_of_round hgreeted hr⟩

theorem sound_attemptUpTo {retries : Nat} (h : Sound client asked session)
    (hasked : ∀ r ∈ requests, asked r) :
    Sound client asked ((client.attemptUpTo requests retries).left session) := by
  induction retries generalizing session with
  | zero =>
      have htried := tried_attempt h hasked
      cases ha : client.attempt requests session with
      | ok replies after =>
          rw [ha] at htried
          rw [Act.left_of_ok (attemptUpTo_of_ok ha 0)]
          exact htried
      | error e after =>
          rw [ha] at htried
          rw [Act.left_of_error (attemptUpTo_zero_of_error ha)]
          exact Loose.close htried
  | succ retries ih =>
      have htried := tried_attempt h hasked
      cases ha : client.attempt requests session with
      | ok replies after =>
          rw [ha] at htried
          rw [Act.left_of_ok (attemptUpTo_of_ok ha (retries + 1))]
          exact htried
      | error e after =>
          rw [ha] at htried
          have hclosed := Loose.close htried
          have hlast := attemptUpTo_succ_of_error ha retries
          by_cases he : e.isNetwork = true
          · rw [if_pos he] at hlast
            rw [Act.left, hlast]
            exact ih (hclosed.pause client.policy.backoffMs)
          · rw [if_neg he] at hlast
            rw [Act.left_of_error hlast]
            exact hclosed

theorem keeps_sound_run (hasked : ∀ r ∈ requests, asked r) :
    Act.Keeps (Sound (σ := σ) client asked) (client.run requests) := by
  apply Act.keeps_of_left
  intro session h
  rw [run]
  split
  · exact h
  · exact sound_attemptUpTo h hasked

theorem sound_perform {α : Type} {op : Operation α} (h : Sound client asked session)
    (hasked : ∀ r, op.plan.Asks r → asked r) :
    Sound client asked ((op.perform client).left session) := by
  rw [Operation.perform_eq_run]
  exact (Plan.keeps_run_of_asks (fun _ => keeps_sound_run) op.plan hasked).left h

theorem sound_start (h : Sound client asked session) (hasked : asked { command := "ping" }) :
    Sound client asked (Act.left client.start session) := by
  rw [start]
  apply Act.left_bind
  · cases client.endpoint.validate <;> exact h
  · intro _ valid _ hvalid
    apply Act.left_bind
    · have hping : Sound client asked
          (((Operation.execute { command := "ping" }).perform client).left valid) := by
        apply sound_perform hvalid
        intro request hr
        rw [Plan.eq_of_asks_ask hr]
        exact hasked
      exact hping
    · intro reply answered _ hanswered
      split
      · exact hanswered
      · exact hanswered.toLoose.close

theorem sound_take {step : Step} (h : Sound client asked session)
    (hasked : ∀ r, step.Asks r → asked r) : Sound client asked (client.take session step) := by
  cases step with
  | start => exact sound_start h (hasked _ rfl)
  | perform op => exact sound_perform h hasked
  | close => exact h.toLoose.close

theorem sound_steps {steps : List Step} (h : Sound client asked session)
    (hasked : ∀ step ∈ steps, ∀ r, step.Asks r → asked r) :
    Sound client asked (client.steps steps session) := by
  induction steps generalizing session with
  | nil => exact h
  | cons step steps ih =>
      apply ih (sound_take h (hasked step List.mem_cons_self))
      exact fun later hlater => hasked later (List.mem_cons_of_mem step hlater)

/-- Whatever is done with a client and whatever the network does: a dial happens only while
no connection is open, and a request is sent only in its turn, which for those of the
operations is after the secret and the database were flushed and accepted one after the
other. So the requests of every connection are at every moment a part of the greeting, or the
greeting and then requests of the operations; and the client knows whether it holds a
connection, whose greeting is then done. -/
theorem orderly_steps (client : Client) (steps : List Step) (state : σ) :
    let asked := fun request => ∃ step ∈ steps, step.Asks request
    let session := client.steps steps { network := ({ state } : Journal σ) }
    Orderly client asked session.network.events ∧
      (∀ before after calls, session.network.events = before ++ after →
        calls? before = some calls → Sequenced client.greeting asked (sent calls)) ∧
      (session.connected = true → Greeted client session.network) ∧
      (session.connected = false → calls? session.network.events = none) := by
  intro asked session
  have hfresh : Sound client asked { network := ({ state } : Journal σ) } :=
    ⟨⟨orderly_nil, fun _ => rfl⟩, fun hopen => Bool.noConfusion hopen⟩
  have hsound : Sound client asked session :=
    sound_steps hfresh fun step hstep r hr => ⟨step, hstep, hr⟩
  refine ⟨hsound.kept, ?_, hsound.greeted, hsound.free⟩
  intro before after calls heq hc
  have hkept : Orderly client asked (before ++ after) := heq ▸ hsound.kept
  exact sequenced_of_orderly hkept.of_append hc

/-- A client with a secret and a database of its own. -/
def guarded : Client where
  endpoint := { address := "h:1", password := some "pw", authMethod := .adminAuth }
  db := 3

/-- The second flush fails, which carries the choice of the database. -/
def flushFailsOnce : Script where
  flushes := [none, some (.io "broken pipe")]
  replies := [.ok (.simple "OK"), .ok (.simple "OK"), .ok (.simple "OK"), .ok (.simple "PONG")]

/-- The session that is made ready on the second connection. -/
def secondTry : Session (Journal Script) :=
  guarded.steps [.start] { network := { state := flushFailsOnce } }

/-- The calls up to the second dial. -/
def brokenOff : List Event :=
  .dial guarded.endpoint (.ok ()) ::
    roundCalls [{ command := "adminauth", args := [.ofText "pw"] }] [.simple "OK"] ++
    [.send { command := "select", args := [.integer 3] } (.ok ()),
      .flush (.error (.io "broken pipe")), .close, .pause 1000]

/-- The calls on the second connection. -/
def wholeGreeting : List Event :=
  roundCalls [{ command := "adminauth", args := [.ofText "pw"] }] [.simple "OK"] ++
    roundCalls [{ command := "select", args := [.integer 3] }] [.simple "OK"] ++
    roundCalls [{ command := "ping" }] [.simple "PONG"]

theorem orderly_steps_secondTry :
    secondTry.network.events = brokenOff ++ .dial guarded.endpoint (.ok ()) :: wholeGreeting ∧
      calls? brokenOff = none ∧
      Sequenced guarded.greeting (fun r => ∃ step ∈ [Step.start], step.Asks r)
        (sent wholeGreeting) ∧
      Greeted guarded secondTry.network := by
  have hall := orderly_steps guarded [.start] flushFailsOnce
  rw [← secondTry] at hall
  obtain ⟨horderly, hsequenced, hgreeted, -⟩ := hall
  have hevents : secondTry.network.events =
      brokenOff ++ .dial guarded.endpoint (.ok ()) :: wholeGreeting := by decide +kernel
  have hconnected : secondTry.connected = true := by decide +kernel
  have hcalls : calls? secondTry.network.events = some wholeGreeting := by
    rw [hevents]
    rfl
  exact ⟨hevents, (horderly _ _ _ hevents).2,
    hsequenced _ [] _ (List.append_nil _).symm hcalls, hgreeted hconnected⟩

end Client

end RespClient
