import RespClient.Network.Script
import RespClient.Proofs.Client.InStep

/-!
# Opening a connection

A connection is opened by calls in a fixed order: the dial, and then a request for the
secret, if there is one, and a request for the database, each sent, flushed and answered. It
is held when all of them have gone well. The first that does not ends the opening and says
why, and then no connection is held.
-/

namespace RespClient

/-! ## Calls one after another -/

namespace Network

/-- A call on the way to an open connection. -/
inductive Call where
  | dial (endpoint : Endpoint)
  | send (request : Request)
  | flush
  /-- Wait for the next reply, which may not be an error. -/
  | answer

/-- A step of opening a connection: a call, and whether it presents the secret. -/
structure Stage where
  call : Call
  secret : Bool := false

/-- How a failed step is reported: what the server says against the secret is a failure to
authenticate, and anything else is what it was. -/
def Stage.report (stage : Stage) : Failure → Failure
  | .server text => if stage.secret then .auth text else .server text
  | e => e

/-- The steps that ask for something. -/
def asking (secret : Bool) (request : Request) : List Stage :=
  [⟨.send request, secret⟩, ⟨.flush, secret⟩, ⟨.answer, secret⟩]

variable {σ : Type} [Network σ]

/-- Make a call. -/
def Call.make : Call → Act σ Unit
  | dial endpoint => Network.dial endpoint
  | send request => Network.send request
  | flush => Network.flush
  | answer => do
      let reply ← Network.receive
      let _ ← Act.ofExcept reply.answer

/-- Some steps go well one after the other. -/
inductive GoWell : List Stage → σ → σ → Prop
  | nil {s : σ} : GoWell [] s s
  | cons {stage : Stage} {stages : List Stage} {s t u : σ} (h : stage.call.make s = .ok () t)
      (hs : GoWell stages t u) : GoWell (stage :: stages) s u

/-- The steps that are `done` go well, and the next one fails with `e`. -/
def StopsAt (stages done : List Stage) (stage : Stage) (s : σ) (e : Failure) (t : σ) : Prop :=
  ∃ later u, stages = done ++ stage :: later ∧ GoWell done s u ∧ stage.call.make u = .error e t

/-- Take some steps in order, up to the first that fails. -/
def inOrder : List Stage → Act σ Unit
  | [] => pure ()
  | stage :: stages => do
      stage.call.make.mapFailure stage.report
      inOrder stages

variable {stages : List Stage} {s t : σ} {e : Failure}

theorem inOrder_append (xs ys : List Stage) :
    inOrder (σ := σ) (xs ++ ys) = inOrder xs >>= fun _ => inOrder ys := by
  funext s
  induction xs generalizing s with
  | nil => rfl
  | cons stage xs ih =>
      rw [List.cons_append, inOrder, inOrder, Act.bind_apply, Act.bind_apply, Act.bind_apply]
      cases stage.call.make.mapFailure stage.report s with
      | error e t => rfl
      | ok _ t => exact (ih t).trans (Act.bind_apply _ _ t)

theorem inOrder_eq_ok_iff : inOrder stages s = .ok () t ↔ GoWell stages s t := by
  induction stages generalizing s with
  | nil =>
      constructor
      · intro h
        cases h
        exact .nil
      · intro h
        cases h
        rfl
  | cons stage stages ih =>
      rw [inOrder, Act.bind_eq_ok_iff]
      constructor
      · rintro ⟨_, u, hfirst, hrest⟩
        exact .cons (Act.mapFailure_eq_ok_iff.mp hfirst) (ih.mp hrest)
      · intro h
        cases h with
        | @cons _ _ _ u _ hfirst hrest =>
            exact ⟨(), u, Act.mapFailure_eq_ok_iff.mpr hfirst, ih.mpr hrest⟩

/-- Either the first step fails, or it goes well and a later one fails. -/
theorem stopsAt_cons_iff {first stage : Stage} {done : List Stage} :
    StopsAt (first :: stages) done stage s e t ↔
      done = [] ∧ stage = first ∧ first.call.make s = .error e t ∨
        ∃ rest u, done = first :: rest ∧ first.call.make s = .ok () u ∧
          StopsAt stages rest stage u e t := by
  constructor
  · rintro ⟨later, u, hstages, hdone, hfails⟩
    cases hdone with
    | nil =>
        cases hstages
        exact .inl ⟨rfl, rfl, hfails⟩
    | @cons _ rest _ v _ hwell hrest =>
        cases hstages
        exact .inr ⟨rest, v, rfl, hwell, later, u, rfl, hrest, hfails⟩
  · rintro (⟨rfl, rfl, hfails⟩ | ⟨rest, u, rfl, hwell, later, v, rfl, hrest, hfails⟩)
    · exact ⟨stages, s, rfl, .nil, hfails⟩
    · exact ⟨later, v, rfl, .cons hwell hrest, hfails⟩

theorem inOrder_eq_error_iff :
    inOrder stages s = .error e t ↔
      ∃ done stage e', StopsAt stages done stage s e' t ∧ e = stage.report e' := by
  induction stages generalizing s with
  | nil =>
      constructor
      · intro h
        cases h
      · rintro ⟨done, stage, e', ⟨later, u, hstages, -⟩, -⟩
        simp at hstages
  | cons first stages ih =>
      simp only [stopsAt_cons_iff]
      rw [inOrder, Act.bind_apply, Act.mapFailure]
      cases hfirst : first.call.make s with
      | error e' u =>
          constructor
          · intro h
            cases h
            exact ⟨[], first, e', .inl ⟨rfl, rfl, rfl⟩, rfl⟩
          · rintro ⟨done, stage, e'', ⟨rfl, rfl, hfails⟩ | ⟨_, _, _, hwell, _⟩, rfl⟩
            · cases hfails
              rfl
            · cases hwell
      | ok _ u =>
          refine ih.trans ?_
          constructor
          · rintro ⟨done, stage, e', hstops, he⟩
            exact ⟨first :: done, stage, e', .inr ⟨done, u, rfl, rfl, hstops⟩, he⟩
          · rintro ⟨done, stage, e', ⟨rfl, rfl, hfails⟩ | ⟨rest, v, rfl, hwell, hstops⟩, he⟩
            · cases hfails
            · cases hwell
              exact ⟨rest, stage, e', hstops, he⟩

/-- A question is its three calls in order. -/
theorem inOrder_asking (secret : Bool) (request : Request) :
    inOrder (σ := σ) (asking secret request) =
      (ask request).mapFailure (Stage.report ⟨.answer, secret⟩) >>= fun _ => pure () := by
  funext s
  simp only [asking, inOrder, ask, Call.make, Act.bind_apply, Act.mapFailure, Act.pure_apply]
  cases Network.send request s with
  | error e t => rfl
  | ok _ t =>
      dsimp only
      cases Network.flush (σ := σ) t with
      | error e u => rfl
      | ok _ u =>
          dsimp only
          cases Network.receive (σ := σ) u with
          | error e v => rfl
          | ok reply v => cases reply <;> rfl

/-- What holds after the dial, and is kept by the greeting and by closing, holds after a
connection was opened or given up. -/
theorem left_establish {P : σ → Prop} {endpoint : Endpoint} {db : UInt32}
    (hdial : P ((Network.dial endpoint).left s))
    (hgreet : ∀ t, Network.dial endpoint s = .ok () t → P t → P ((greet endpoint db).left t))
    (hclose : ∀ t, P t → P (Network.close t)) : P ((establish endpoint db).left s) := by
  rw [Act.left, establish]
  cases hd : Network.dial endpoint s with
  | error e t =>
      rw [Act.left_of_error hd] at hdial
      exact hdial
  | ok _ t =>
      rw [Act.left_of_ok hd] at hdial
      have hgreeted := hgreet t hd hdial
      dsimp only
      cases hg : greet endpoint db t with
      | error e u =>
          rw [Act.left_of_error hg] at hgreeted
          exact hclose u hgreeted
      | ok _ u =>
          rw [Act.left_of_ok hg] at hgreeted
          exact hgreeted

theorem isNetwork_report (stage : Stage) (e : Failure) :
    (stage.report e).isNetwork = e.isNetwork := by
  cases e with
  | server text =>
      rw [Stage.report]
      split <;> rfl
  | _ => rfl

end Network

open Network

/-! ## The calls in a journal -/

/-- The call that an event writes down. -/
def Event.call? : Event → Option Call
  | .dial endpoint _ => some (.dial endpoint)
  | .send request _ => some (.send request)
  | .flush _ => some .flush
  | .receive _ => some .answer
  | .close | .pause _ => none

namespace Journal

variable {σ : Type} {journal after : Journal σ} {stages : List Stage}

theorem exists_event_of_record {α : Type} (event : Except Failure α → Event) (call : Act σ α)
    (journal : Journal σ) :
    ∃ outcome, ((record event call).left journal).events = journal.events ++ [event outcome] := by
  rw [Act.left, record]
  cases call journal.state with
  | ok a state => exact ⟨.ok a, rfl⟩
  | error e state => exact ⟨.error e, rfl⟩

variable [Network σ]

/-- Each call is written down as one event. -/
theorem exists_event_of_make (call : Call) (journal : Journal σ) :
    ∃ event : Event, event.call? = some call ∧
      (call.make.left journal).events = journal.events ++ [event] := by
  cases call with
  | dial | send | flush =>
      obtain ⟨outcome, h⟩ := exists_event_of_record _ _ journal
      exact ⟨_, rfl, h⟩
  | answer =>
      obtain ⟨outcome, h⟩ := exists_event_of_record .receive Network.receive journal
      refine ⟨.receive outcome, rfl, ?_⟩
      have hanswer : Call.answer.make.left journal =
          (Network.receive (σ := Journal σ)).left journal := by
        rw [Call.make, Act.left, Act.bind_apply, Act.left]
        cases Network.receive (σ := Journal σ) journal with
        | error e t => rfl
        | ok reply t => cases reply <;> rfl
      rw [hanswer]
      exact h

theorem events_of_goWell (h : GoWell stages journal after) :
    ∃ events, after.events = journal.events ++ events ∧
      events.filterMap Event.call? = stages.map Stage.call := by
  induction h with
  | nil => exact ⟨[], (List.append_nil _).symm, rfl⟩
  | @cons stage stages s t u hfirst _ ih =>
      obtain ⟨event, hevent, hnext⟩ := exists_event_of_make stage.call s
      obtain ⟨events, hlast, hcalls⟩ := ih
      rw [Act.left_of_ok hfirst] at hnext
      refine ⟨event :: events, ?_, ?_⟩
      · rw [hlast, hnext, List.append_assoc, List.singleton_append]
      · rw [List.filterMap_cons_some hevent, hcalls, List.map_cons]

/-- Where a step fails, the calls are those before it and its own. -/
theorem events_of_stopsAt {done : List Stage} {stage : Stage} {e : Failure}
    (h : StopsAt stages done stage journal e after) :
    ∃ events, after.events = journal.events ++ events ∧
      events.filterMap Event.call? = (done ++ [stage]).map Stage.call := by
  obtain ⟨later, before, -, hdone, hfails⟩ := h
  obtain ⟨events, hbefore, hcalls⟩ := events_of_goWell hdone
  obtain ⟨event, hevent, hlast⟩ := exists_event_of_make stage.call before
  rw [Act.left_of_error hfails, hbefore, List.append_assoc] at hlast
  refine ⟨events ++ [event], hlast, ?_⟩
  rw [List.filterMap_append, hcalls, List.filterMap_cons_some hevent, List.map_append]
  rfl

end Journal

/-! ## Connections of a client -/

namespace Client

/-- What presents the password, if one is set that is not empty: the command of the endpoint. -/
def secretRequests (client : Client) : List Request :=
  match client.endpoint.password with
  | some password =>
      if password = "" then []
      else [{ command := client.endpoint.authMethod.command, args := [.ofText password] }]
  | none => []

/-- What chooses the database. -/
def databaseRequest (client : Client) : Request :=
  { command := "select", args := [.integer (Int64.ofNat client.db.toNat)] }

/-- What a new connection is asked first: the password, and then the database. -/
def greeting (client : Client) : List Request :=
  client.secretRequests ++ [client.databaseRequest]

/-- The steps that open a connection: the dial, and then those of the greeting. -/
def opening (client : Client) : List Stage :=
  ⟨.dial client.endpoint, false⟩ ::
    (client.secretRequests.flatMap (asking true) ++ asking false client.databaseRequest)

/-- The secret goes first, where there is one. -/
theorem secretRequests_eq (client : Client) :
    client.secretRequests =
      match client.endpoint.secret? with
      | some secret => [{ command := client.endpoint.authMethod.command, args := [.ofText secret] }]
      | none => [] := by
  rw [secretRequests, Endpoint.secret?]
  cases client.endpoint.password with
  | none => rfl
  | some password => by_cases h : password = "" <;> simp [h, Option.filter]

section

variable {σ : Type} [Network σ] {client : Client} {session after : Session σ}

theorem greet_eq_inOrder (client : Client) :
    Network.greet (σ := σ) client.endpoint client.db = inOrder client.opening.tail := by
  have hselect : Network.select (σ := σ) client.db =
      inOrder (asking false client.databaseRequest) := by
    funext s
    rw [inOrder_asking, databaseRequest, Network.select, Act.bind_apply, Act.bind_apply, Act.mapFailure]
    cases Network.ask (σ := σ) _ s with
    | ok reply t => rfl
    | error e t => cases e <;> rfl
  have hsecret : ∀ secret, Network.authenticate (σ := σ) client.endpoint.authMethod secret =
      inOrder (asking true
        { command := client.endpoint.authMethod.command, args := [.ofText secret] }) := by
    intro secret
    funext s
    rw [inOrder_asking, Network.authenticate, Act.bind_apply, Act.bind_apply, Act.mapFailure,
      Act.mapFailure]
    cases Network.ask (σ := σ) _ s with
    | ok reply t => rfl
    | error e t => cases e <;> rfl
  rw [opening, List.tail_cons, inOrder_append, ← hselect, Network.greet, secretRequests_eq]
  cases client.endpoint.secret? with
  | none => rfl
  | some secret => rw [List.flatMap_singleton, ← hsecret]

/-- A connection is opened by the steps in order, and given up if one of them fails after the
dial. -/
theorem establish_eq_inOrder (client : Client) (s : σ) :
    Network.establish client.endpoint client.db s =
      match Network.dial client.endpoint s with
      | .error e t => .error e t
      | .ok _ t =>
          match inOrder client.opening.tail t with
          | .error e u => .error e (Network.close u)
          | .ok _ u => .ok () u := by
  rw [← greet_eq_inOrder]
  rfl

theorem network_left_connect (h : session.connected = false) :
    (client.connect.left session).network =
      (Network.establish client.endpoint client.db).left session.network := by
  rw [Act.left, connect, if_neg (by simp [h]), Act.left]
  cases Network.establish client.endpoint client.db session.network <;> rfl

theorem connect_eq_ok_iff (h : session.connected = false) :
    client.connect session = .ok () after ↔
      ∃ network, GoWell client.opening session.network network ∧
        after = { network, connected := true } := by
  rw [connect, if_neg (by simp [h]), establish_eq_inOrder]
  constructor
  · intro hok
    cases hdial : Network.dial client.endpoint session.network with
    | error e t => simp [hdial] at hok
    | ok _ t =>
        cases hrest : inOrder client.opening.tail t with
        | error e u => simp [hdial, hrest] at hok
        | ok _ u =>
            simp only [hdial, hrest] at hok
            cases hok
            exact ⟨u, .cons hdial (inOrder_eq_ok_iff.mp hrest), rfl⟩
  · rintro ⟨u, hwell, rfl⟩
    cases hwell with
    | cons hdial hrest =>
        have hdial : Network.dial client.endpoint session.network = .ok () _ := hdial
        have hrest : inOrder client.opening.tail _ = .ok () u := inOrder_eq_ok_iff.mpr hrest
        simp only [hdial, hrest]

theorem connect_eq_error_iff {e : Failure} (h : session.connected = false) :
    client.connect session = .error e after ↔
      ∃ done stage e' network, StopsAt client.opening done stage session.network e' network ∧
        e = stage.report e' ∧
        after = { network := if done.isEmpty then network else Network.close network } := by
  have hdialed : ∀ s : σ, (⟨.dial client.endpoint, false⟩ : Stage).call.make s =
      Network.dial client.endpoint s := fun _ => rfl
  have hreport : ∀ e', (⟨.dial client.endpoint, false⟩ : Stage).report e' = e' := by
    intro e'
    cases e' <;> rfl
  obtain ⟨greeting, hopening⟩ : ∃ greeting,
      client.opening = ⟨.dial client.endpoint, false⟩ :: greeting := ⟨_, rfl⟩
  rw [connect, if_neg (by simp [h]), establish_eq_inOrder, hopening]
  simp only [stopsAt_cons_iff, hdialed, List.tail_cons]
  cases hdial : Network.dial client.endpoint session.network with
  | error e' t =>
      constructor
      · intro herror
        cases herror
        exact ⟨[], _, e, t, .inl ⟨rfl, rfl, rfl⟩, (hreport e).symm, rfl⟩
      · rintro ⟨done, stage, e'', u, ⟨rfl, rfl, hfails⟩ | ⟨_, _, _, hwell, _⟩, rfl, rfl⟩
        · cases hfails
          rw [hreport]
          rfl
        · cases hwell
  | ok _ t =>
      dsimp only
      constructor
      · intro herror
        cases hgreeting : inOrder greeting t with
        | ok _ u => simp [hgreeting] at herror
        | error e' u =>
            rw [hgreeting] at herror
            cases herror
            obtain ⟨done, stage, e', hstops, he⟩ := inOrder_eq_error_iff.mp hgreeting
            exact ⟨_, stage, e', u, .inr ⟨done, t, rfl, rfl, hstops⟩, he, rfl⟩
      · rintro ⟨done, stage, e', u, ⟨rfl, rfl, hfails⟩ | ⟨rest, v, rfl, hwell, hstops⟩, he, rfl⟩
        · cases hfails
        · cases hwell
          rw [inOrder_eq_error_iff.mpr ⟨rest, stage, e', hstops, he⟩]
          rfl

end

open Journal

variable {σ : Type} [Network σ]

/-- A connection that is held is left alone. Otherwise the steps of the opening are taken in
order: if all go well the connection is held, and it is so only then. The first step that
fails says why, is the last call that is made, and leaves no connection; what it reports may
clear up on a new connection exactly if its own failure may. -/
theorem connect_allOrNothing (client : Client) (session : Session (Journal σ)) :
    (session.connected = true → client.connect session = .ok () session) ∧
    (session.connected = false →
      (∀ after, client.connect session = .ok () after ↔
        ∃ network, GoWell client.opening session.network network ∧
          after = { network, connected := true }) ∧
      (∀ e after, client.connect session = .error e after ↔
        ∃ done stage e' network, StopsAt client.opening done stage session.network e' network ∧
          e = stage.report e' ∧
          after = { network := if done.isEmpty then network else Network.close network,
                    connected := false }) ∧
      (∀ network, GoWell client.opening session.network network →
        ∃ events, network.events = session.network.events ++ events ∧
          events.filterMap Event.call? = client.opening.map Stage.call) ∧
      ∀ done stage e network, StopsAt client.opening done stage session.network e network →
        (stage.report e).isNetwork = e.isNetwork ∧
        ∃ events, network.events = session.network.events ++ events ∧
          events.filterMap Event.call? = (done ++ [stage]).map Stage.call) := by
  refine ⟨connect_of_connected, fun hclosed => ⟨fun after => connect_eq_ok_iff hclosed,
    fun e after => connect_eq_error_iff hclosed, fun network => events_of_goWell, ?_⟩⟩
  intro done stage e network hstops
  exact ⟨isNetwork_report stage e, events_of_stopsAt hstops⟩

/-- A client whose password is not the right one. -/
def intruder : Client where
  endpoint := { address := "h:1", password := some "pw" }

/-- A server that refuses the password, before anything is written down. -/
def wrongPassword : Journal Script where
  state := { replies := [.ok (.error "WRONGPASS")] }

theorem connect_allOrNothing_wrongPassword :
    intruder.connect { network := wrongPassword, connected := true } =
      .ok () { network := wrongPassword, connected := true } ∧
    ∃ network : Journal Script,
      intruder.connect { network := wrongPassword } =
        .error (.auth "WRONGPASS") { network := Network.close network, connected := false } ∧
      network.events.filterMap Event.call? =
        [.dial intruder.endpoint, .send { command := "auth", args := [.ofText "pw"] }, .flush,
          .answer] := by
  obtain ⟨hheld, -⟩ :=
    connect_allOrNothing intruder { network := wrongPassword, connected := true }
  obtain ⟨-, hopens⟩ := connect_allOrNothing intruder { network := wrongPassword }
  obtain ⟨-, herror, -, hstopped⟩ := hopens rfl
  obtain ⟨network, hstops⟩ : ∃ network, StopsAt intruder.opening (intruder.opening.take 3)
      ⟨.answer, true⟩ wrongPassword (.server "WRONGPASS") network :=
    ⟨_, _, _, rfl, .cons rfl (.cons rfl (.cons rfl .nil)), rfl⟩
  obtain ⟨-, events, hevents, hcalls⟩ := hstopped _ _ _ _ hstops
  refine ⟨hheld rfl, network, (herror _ _).mpr ⟨_, _, _, network, hstops, rfl, rfl⟩, ?_⟩
  rw [hevents]
  exact hcalls

end Client

end RespClient
