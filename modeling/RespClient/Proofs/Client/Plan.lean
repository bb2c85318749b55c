import RespClient.Client.Batch
import RespClient.Client.Scan
import RespClient.Proofs.Act

/-!
# Operations as plans

Whatever a client does with the network it does in rounds, and what it does next
depends on the replies alone. A plan says so: it is an answer, or a round and what
to do with its replies. Every operation follows a plan, and so does the greeting of
a new connection.
-/

namespace RespClient

/-! ## Plans -/

/-- What to do next: answer, or ask for one more round and go on with its replies.
A failure of the round is reported as `blame` has it. -/
inductive Plan (α : Type) where
  | answer (outcome : Except Failure α)
  | round (requests : List Request) (blame : Failure → Failure) (next : List Reply → Plan α)

/-- A round that has brought its replies, and the state after it. -/
structure Exchange (σ : Type) where
  requests : List Request
  replies : List Reply
  after : σ

namespace Plan

variable {σ α β : Type}

/-- Follow a plan, with `carry` for its rounds. -/
def run (carry : List Request → Act σ (List Reply)) : Plan α → Act σ α
  | answer outcome => Act.ofExcept outcome
  | round requests blame next => do
      let replies ← (carry requests).mapFailure blame
      (next replies).run carry

/-- The rounds whose replies are used when a plan is followed. -/
def exchanges (carry : List Request → Act σ (List Reply)) : Plan α → σ → List (Exchange σ)
  | answer _, _ => []
  | round requests _ next, s =>
      match carry requests s with
      | .ok replies after => ⟨requests, replies, after⟩ :: (next replies).exchanges carry after
      | .error _ _ => []

/-- What a plan comes to when `reply` says what its rounds bring. -/
def eval (reply : List Request → Except Failure (List Reply)) :
    Plan α → Except Failure α
  | answer outcome => outcome
  | round requests blame next => do
      let replies ← (reply requests).mapError blame
      (next replies).eval reply

/-- Follow a second plan with the first one's answer. -/
def bind : Plan α → (α → Plan β) → Plan β
  | answer (.ok a), next => next a
  | answer (.error e), _ => answer (.error e)
  | round requests blame rest, next =>
      round requests blame fun replies => (rest replies).bind next

/-- Report each failure as another one. -/
def mapFailure (f : Failure → Failure) : Plan α → Plan α
  | answer outcome => answer (outcome.mapError f)
  | round requests blame next =>
      round requests (f ∘ blame) fun replies => (next replies).mapFailure f

theorem run_round (carry : List Request → Act σ (List Reply)) (requests : List Request)
    (blame : Failure → Failure) (next : List Reply → Plan α) (s : σ) :
    (round requests blame next).run carry s =
      match carry requests s with
      | .ok replies after => (next replies).run carry after
      | .error e after => .error (blame e) after := by
  rw [run, Act.bind_apply, Act.mapFailure]
  cases carry requests s <;> rfl

theorem run_bind (carry : List Request → Act σ (List Reply)) (plan : Plan α)
    (next : α → Plan β) :
    (plan.bind next).run carry = plan.run carry >>= fun a => (next a).run carry := by
  funext s
  induction plan generalizing s with
  | answer outcome => cases outcome <;> rfl
  | round requests blame rest ih =>
      rw [bind, Act.bind_apply, run_round, run_round]
      cases carry requests s with
      | error e after => rfl
      | ok replies after => exact (ih replies after).trans (Act.bind_apply _ _ _)

theorem run_mapFailure (carry : List Request → Act σ (List Reply)) (f : Failure → Failure)
    (plan : Plan α) : (plan.mapFailure f).run carry = (plan.run carry).mapFailure f := by
  funext s
  induction plan generalizing s with
  | answer outcome => cases outcome <;> rfl
  | round requests blame rest ih =>
      rw [mapFailure, run_round, Act.mapFailure, run_round]
      cases carry requests s with
      | error e after => rfl
      | ok replies after => exact ih replies after

/-- A request that a plan may come to ask, depending on the replies to those before it. -/
inductive Asks : Plan α → Request → Prop
  | now {requests : List Request} {blame : Failure → Failure} {next : List Reply → Plan α}
      {request : Request} (h : request ∈ requests) : Asks (.round requests blame next) request
  | later {requests : List Request} {blame : Failure → Failure} {next : List Reply → Plan α}
      {request : Request} {replies : List Reply} (h : Asks (next replies) request) :
      Asks (.round requests blame next) request

/-- What every round of requests that a plan may ask keeps, the whole plan keeps. -/
theorem keeps_run_of_asks {carry : List Request → Act σ (List Reply)} {P : σ → Prop}
    {D : Request → Prop} (h : ∀ requests, (∀ r ∈ requests, D r) → Act.Keeps P (carry requests))
    (plan : Plan α) (hasks : ∀ r, plan.Asks r → D r) : Act.Keeps P (plan.run carry) := by
  induction plan with
  | answer outcome => exact Act.keeps_ofExcept outcome
  | round requests blame next ih =>
      have hround := h requests fun r hr => hasks r (.now hr)
      have hnext := fun replies => ih replies fun r hr => hasks r (.later hr)
      constructor
      · intro s t a hs ht
        rw [run_round] at ht
        cases hc : carry requests s with
        | error e after => simp [hc] at ht
        | ok replies after =>
            rw [hc] at ht
            exact (hnext replies).ok (hround.ok hs hc) ht
      · intro s t e hs ht
        rw [run_round] at ht
        cases hc : carry requests s with
        | error e' after =>
            rw [hc] at ht
            cases ht
            exact hround.error hs hc
        | ok replies after =>
            rw [hc] at ht
            exact (hnext replies).error (hround.ok hs hc) ht

/-- What every round keeps, a whole plan keeps. -/
theorem keeps_run {carry : List Request → Act σ (List Reply)} {P : σ → Prop}
    (h : ∀ requests, Act.Keeps P (carry requests)) (plan : Plan α) :
    Act.Keeps P (plan.run carry) :=
  keeps_run_of_asks (fun requests _ => h requests) plan fun _ _ => trivial

/-- What holds after every round that starts well holds of all whose replies are used. -/
theorem forall_exchanges {carry : List Request → Act σ (List Reply)} {P : σ → Prop}
    {Q : Exchange σ → Prop}
    (h : ∀ requests replies s t, P s → carry requests s = .ok replies t →
      P t ∧ Q ⟨requests, replies, t⟩) {plan : Plan α} {s : σ} (hs : P s) :
    ∀ x ∈ plan.exchanges carry s, Q x := by
  induction plan generalizing s with
  | answer outcome => simp [exchanges]
  | round requests blame next ih =>
      rw [exchanges]
      cases hc : carry requests s with
      | error e after => simp
      | ok replies after =>
          obtain ⟨hafter, hq⟩ := h requests replies s after hs hc
          intro x hx
          rcases List.mem_cons.mp hx with rfl | hx
          · exact hq
          · exact ih replies hafter x hx

/-! ## The plans of a client -/

/-- One round for one request. -/
def ask (request : Request) : Plan Reply :=
  round [request] id fun
    | reply :: _ => answer reply.answer
    | [] => answer (.error (.unexpected ("no reply to " ++ request.command)))

/-- One round for many requests. -/
def collect (requests : List Request) (read : Reply → Except Failure α) : Plan (List α) :=
  round requests id fun replies => answer (replies.mapM read)

/-- Page after page. -/
def walk (command : String) (key : Key) (count : Nat) :
    (rounds : Nat) → Walk → Plan (Option FieldMap)
  | 0, _ => answer (.ok none)
  | rounds + 1, state =>
      (ask (Client.pageRequest command key.bytes state.cursor count)).bind fun reply =>
        (answer (state.absorb key.type command reply)).bind fun state =>
          if state.cursor = 0 then answer (.ok (some state.entries))
          else walk command key count rounds state

/-- The secret of a new connection. -/
def authenticate (method : AuthMethod) (secret : String) : Plan Unit :=
  ((ask { command := method.command, args := [.ofText secret] }).mapFailure fun e =>
    match e with
    | .server text => .auth text
    | e => e).bind fun _ => answer (.ok ())

/-- The secret, if there is one, and the database. -/
def greeting (endpoint : Endpoint) (db : UInt32) : Plan Unit :=
  (match endpoint.secret? with
    | some secret => authenticate endpoint.authMethod secret
    | none => answer (.ok ())).bind fun _ =>
      (ask { command := "select", args := [.integer (Int64.ofNat db.toNat)] }).bind fun _ =>
        answer (.ok ())

theorem run_ask (client : Client) (request : Request) [Network σ] :
    (ask request).run client.run = client.execute (σ := σ) request := by
  funext s
  rw [ask, run_round, Client.execute, Act.bind_apply]
  cases client.run [request] s with
  | error e after => rfl
  | ok replies after => cases replies <;> rfl

theorem run_ask_round (request : Request) [Network σ] :
    (ask request).run Network.round = Network.ask (σ := σ) request := by
  funext s
  simp only [ask, run_round, Network.round, Network.sendAll, Network.receiveMany, Network.ask,
    List.length_cons, List.length_nil, Nat.zero_add, Act.bind_apply, Act.pure_apply]
  cases Network.send request s with
  | error e after => rfl
  | ok _ after =>
      dsimp only
      cases Network.flush (σ := σ) after with
      | error e after => rfl
      | ok _ after =>
          dsimp only
          cases Network.receive (σ := σ) after <;> rfl

theorem eq_of_asks_ask {request asked : Request} (h : (ask request).Asks asked) :
    asked = request := by
  cases h with
  | now h => exact List.mem_singleton.mp h
  | @later _ _ _ _ replies h => cases replies <;> cases h

/-- One question is a round of one request, whose reply is the answer. -/
theorem round_of_ask {request : Request} {reply : Reply} {s t : σ} [Network σ]
    (h : Network.ask request s = .ok reply t) :
    Network.round [request] s = .ok [reply] t ∧ ∀ text, reply ≠ .error text := by
  rw [← run_ask_round, ask, run_round] at h
  cases hr : Network.round [request] s with
  | error e after => simp [hr] at h
  | ok replies after =>
      obtain ⟨first, rfl⟩ := List.length_eq_one_iff.mp (Network.length_of_round hr)
      rw [hr] at h
      change Act.ofExcept first.answer after = .ok reply t at h
      cases ha : first.answer with
      | error e => simp [ha] at h
      | ok answered =>
          obtain ⟨rfl, hne⟩ := Reply.answer_eq_ok_iff.mp ha
          rw [ha] at h
          cases h
          exact ⟨rfl, hne⟩

theorem left_ask (request : Request) (s : σ) [Network σ] :
    (Network.ask request).left s = (Network.round [request]).left s := by
  rw [← run_ask_round, Act.left, ask, run_round, Act.left]
  cases Network.round [request] s with
  | error e after => rfl
  | ok replies after =>
      cases replies with
      | nil => rfl
      | cons reply replies => cases reply <;> rfl

theorem run_collect (client : Client) (requests : List Request) (read : Reply → Except Failure α)
    [Network σ] :
    (collect requests read).run client.run = client.collect (σ := σ) requests read := by
  funext s
  rw [collect, run_round, Client.collect, Act.bind_apply]
  cases client.run requests s <;> rfl

theorem run_greeting (endpoint : Endpoint) (db : UInt32) [Network σ] :
    (greeting endpoint db).run Network.round = Network.greet (σ := σ) endpoint db := by
  have hselect : ((ask { command := "select", args := [.integer (Int64.ofNat db.toNat)] }).bind
      fun _ => answer (.ok ())).run Network.round = Network.select (σ := σ) db := by
    rw [run_bind, run_ask_round]
    rfl
  have hsecret : ∀ secret, (authenticate endpoint.authMethod secret).run Network.round =
      Network.authenticate (σ := σ) endpoint.authMethod secret := by
    intro secret
    rw [authenticate, run_bind, run_mapFailure, run_ask_round]
    rfl
  rw [greeting, run_bind, hselect, Network.greet]
  cases endpoint.secret? with
  | none => rfl
  | some secret =>
      dsimp only
      rw [hsecret]

theorem run_walk (client : Client) (command : String) (key : Key) (count rounds : Nat)
    (state : Walk) [Network σ] :
    (walk command key count rounds state).run client.run =
      client.walk (σ := σ) command key count rounds state := by
  induction rounds generalizing state with
  | zero => rfl
  | succ rounds ih =>
      rw [walk, run_bind, run_ask, Client.walk]
      congr 1
      funext reply
      rw [run_bind]
      congr 1
      funext state
      split
      · rfl
      · exact ih state

end Plan

/-! ## Operations -/

/-- What a client can be asked, by the type of the answer. -/
inductive Operation : Type → Type where
  | execute (request : Request) : Operation Reply
  | info (topic : Option String) : Operation Info
  | keyspace : Operation Keyspace
  | types (keys : List Key) : Operation (List String)
  | exist (keys : List Key) : Operation (List Int64)
  | lengths (keys : List Key) : Operation (List Int64)
  | values (keys : List Key) : Operation (List Reply)
  | contents (keys : List Key) : Operation (List Content)
  | areMembers (key : Bytes) (members : List Bytes) : Operation (List Bool)
  | scores (key : Bytes) (members : List Bytes) : Operation (List (Option Bytes))
  | scan (key : Key) (count rounds : Nat) : Operation (Option FieldMap)

namespace Operation

open Client

variable {σ α : Type}

def perform [Network σ] (client : Client) : Operation α → Act (Session σ) α
  | execute request => client.execute request
  | info topic => client.info topic
  | keyspace => client.keyspace
  | types keys => client.types keys
  | exist keys => client.exist keys
  | lengths keys => client.lengths keys
  | values keys => client.values keys
  | contents keys => client.contents keys
  | areMembers key members => client.areMembers key members
  | scores key members => client.scores key members
  | scan key count rounds => client.scan key count rounds

/-- The plan that an operation follows. -/
def plan : Operation α → Plan α
  | execute request => .ask request
  | info topic =>
      (Plan.ask { command := "info", args := (topic.map Reply.ofText).toList }).bind fun reply =>
        .answer (Info.parse <$> reply.asBytes)
  | keyspace =>
      (Plan.ask { command := "info", args := [.ofText "keyspace"] }).bind fun reply =>
        (Plan.answer reply.asBytes).bind fun bytes =>
          .answer ((Keyspace.parse bytes).mapError Keyspace.Flaw.failure)
  | types keys =>
      .collect (keys.map fun key => keyRequest "type" key.bytes []) fun reply => do
        (← reply.answer).asText
  | exist keys =>
      .collect (keys.map fun key => keyRequest "exists" key.bytes []) fun reply => do
        (← reply.answer).asInt
  | lengths keys =>
      .collect (keys.map fun key => keyRequest key.type.lengthCommand key.bytes []) readLength
  | values keys => fetch keys
  | contents keys =>
      (fetch keys).bind fun replies =>
        .answer ((keys.zip replies).mapM fun (key, reply) => Content.ofReply key.type reply)
  | areMembers key members =>
      .collect (members.map fun member => keyRequest "SISMEMBER" key [.bulk member])
        fun reply => do
          let n ← (← reply.answer).asInt
          pure (n = 1)
  | scores key members =>
      .collect (members.map fun member => keyRequest "ZSCORE" key [.bulk member])
        fun reply => do (← reply.answer).asBytes?
  | scan key count rounds =>
      match key.type.scanCommand? with
      | none => .answer (.error (.conversion ("cannot scan a key of type " ++ key.type.name)))
      | some command => .walk command key count rounds {}
where
  fetch (keys : List Key) : Plan (List Reply) :=
    .collect (keys.map fun key =>
      keyRequest key.type.fetchCommand.1 key.bytes key.type.fetchCommand.2) Reply.answer

theorem perform_eq_run (client : Client) (op : Operation α) [Network σ] :
    op.perform client = op.plan.run (σ := Session σ) client.run := by
  cases op with
  | execute request => exact (Plan.run_ask client request).symm
  | info topic =>
      rw [plan, Plan.run_bind, Plan.run_ask]
      refine congrArg (client.execute _ >>= ·) (funext fun reply => ?_)
      cases reply.asBytes <;> rfl
  | keyspace =>
      rw [plan, Plan.run_bind, Plan.run_ask]
      refine congrArg (client.execute _ >>= ·) (funext fun reply => ?_)
      cases reply.asBytes <;> rfl
  | types | exist | lengths | values | areMembers | scores =>
      exact (Plan.run_collect client _ _).symm
  | contents keys =>
      rw [plan, Plan.run_bind, plan.fetch, Plan.run_collect]
      rfl
  | scan key count rounds =>
      rw [plan, perform, Client.scan]
      cases key.type.scanCommand? with
      | none => rfl
      | some command => exact (Plan.run_walk client command key count rounds {}).symm

end Operation

/-! ## The sessions of a client -/

/-- The sessions in which a client has been asked for some operations, one after the
other, and was closed now and then. -/
inductive Reached {σ : Type} [Network σ] (client : Client) : Session σ → Prop where
  | fresh (network : σ) : Reached client { network }
  | answered {α : Type} {op : Operation α} {a : α} {session after : Session σ}
      (h : Reached client session) (hop : op.perform client session = .ok a after) :
      Reached client after
  | failed {α : Type} {op : Operation α} {e : Failure} {session after : Session σ}
      (h : Reached client session) (hop : op.perform client session = .error e after) :
      Reached client after
  | closed {session : Session σ} (h : Reached client session) : Reached client session.close

namespace Reached

variable {σ : Type} [Network σ] {client : Client}

/-- A client that has been made ready is in one of its sessions. -/
theorem of_start {network : σ} {session : Session σ}
    (h : client.start { network } = .ok () session) : Reached client session := by
  rw [Client.start, Act.bind_eq_ok_iff] at h
  obtain ⟨_, valid, hvalid, h⟩ := h
  have hstart : valid = { network } := by
    cases hv : client.endpoint.validate <;> simp_all
  rw [Act.bind_eq_ok_iff, hstart] at h
  obtain ⟨reply, after, hping, h⟩ := h
  have hop : (Operation.execute { command := "ping" }).perform client { network } =
      .ok reply after := hping
  -- any reply but a pong closes the session, and fails
  split at h
  · cases h
    exact answered (fresh network) hop
  · cases h

/-- What every round and every closing keep holds in every session. -/
theorem invariant {P : Session σ → Prop} (hfresh : ∀ network, P { network })
    (hrun : ∀ requests, Act.Keeps P (client.run requests))
    (hclose : ∀ {session}, P session → P session.close) {session : Session σ}
    (h : Reached client session) : P session := by
  induction h with
  | fresh network => exact hfresh network
  | @answered α op a session after h hop ih =>
      rw [Operation.perform_eq_run] at hop
      exact (Plan.keeps_run hrun op.plan).ok ih hop
  | @failed α op e session after h hop ih =>
      rw [Operation.perform_eq_run] at hop
      exact (Plan.keeps_run hrun op.plan).error ih hop
  | closed h ih => exact hclose ih

end Reached

end RespClient
