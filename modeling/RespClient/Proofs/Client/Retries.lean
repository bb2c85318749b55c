import RespClient.Proofs.Client.Plan
import RespClient.Proofs.Network.Faithful

/-!
# Retries are invisible

An attempt that the network strikes leaves nothing behind that the next attempt could
see. As long as no run is struck more often than it may try again, an operation comes to
what it would come to if nothing were struck.
-/

namespace RespClient

/-! ## Sessions -/

/-- The session as it would be if no call were struck any more. -/
def Session.calmed {f : Request → Reply} (session : Session (Answering f)) :
    Session (Answering f) :=
  { session with network := session.network.calmed }

namespace Client

open Answering

variable {f : Request → Reply} {calm : Prop} {client : Client} {α : Type}
  {session : Session (Answering f)}

/-- A session whose connection, if it holds one, has nothing under way. -/
structure Idle (calm : Prop) (session : Session (Answering f)) : Prop where
  quiet : calm → session.network.Calm
  idle : session.connected → Holds calm [] [] session.network

theorem faithful_connect (hf : Welcomes f client.endpoint client.db) (hs : Idle calm session) :
    Faithful calm (fun t => t.connected = true ∧ Idle calm t) (.ok ())
      (client.connect session) := by
  rw [connect]
  split
  · next hconnected => exact .ok rfl ⟨hconnected, hs⟩
  · have h := faithful_establish hf hs.quiet
    cases he : Network.establish client.endpoint client.db session.network with
    | error e network =>
        rw [he] at h
        exact h.of_error
    | ok _ network =>
        rw [he] at h
        cases h with
        | ok _ hheld => exact .ok rfl ⟨rfl, hheld.quiet, fun _ => hheld⟩

theorem faithful_attempt (hf : Welcomes f client.endpoint client.db) (requests : List Request)
    (hs : Idle calm session) :
    Faithful calm (Idle calm) (answers f requests) (client.attempt requests session) := by
  apply (faithful_connect hf hs).bind_ok
  rintro ready ⟨hconnected, hready⟩
  have h := faithful_round requests (hready.idle hconnected)
  rw [onConnection_of_connected hconnected, Session.onNetwork]
  cases hr : Network.round requests ready.network with
  | error e network =>
      rw [hr] at h
      cases h with
      | error h => exact .error h
      | struck hcalm he => exact .struck hcalm he
  | ok replies network =>
      rw [hr] at h
      cases h with
      | ok ho hheld => exact .ok ho ⟨hheld.quiet, fun _ => hheld⟩

/-! ## Runs -/

/-- How many attempts at a round the network strikes in a row, out of so many tries. -/
def networkFailures {σ : Type} [Network σ] (client : Client) (requests : List Request) :
    (tries : Nat) → Session σ → Nat
  | 0, _ => 0
  | tries + 1, session =>
      match client.attempt requests session with
      | .ok _ _ => 0
      | .error e after =>
          if e.isNetwork then
            networkFailures client requests tries
              (after.close.pause client.policy.backoffMs) + 1
          else 0

theorem idle_of_not_connected (hcalm : ¬ calm) (h : session.connected = false) :
    Idle calm session := by
  refine ⟨fun hc => absurd hc hcalm, ?_⟩
  rw [h]
  intro hconnected
  cases hconnected

/-- Attempts that are not struck too often come to the peer's replies. -/
theorem faithful_attemptUpTo (hf : Welcomes f client.endpoint client.db)
    {requests : List Request} {retries : Nat} (hs : Idle calm session)
    (hwithin : client.networkFailures requests (retries + 1) session ≤ retries) :
    Faithful True (Idle calm) (answers f requests)
      (client.attemptUpTo requests retries session) := by
  induction retries generalizing session with
  | zero =>
      have h := faithful_attempt hf requests hs
      rw [networkFailures] at hwithin
      cases ha : client.attempt requests session with
      | ok replies after =>
          rw [ha] at h
          rw [attemptUpTo_of_ok ha]
          cases h with
          | ok ho hafter => exact .ok ho hafter
      | error e after =>
          rw [ha] at h hwithin
          rw [attemptUpTo_zero_of_error ha]
          cases h with
          | error ho => exact .error ho
          | struck hcalm he => simp [he] at hwithin
  | succ retries ih =>
      have h := faithful_attempt hf requests hs
      rw [networkFailures] at hwithin
      cases ha : client.attempt requests session with
      | ok replies after =>
          rw [ha] at h
          rw [attemptUpTo_of_ok ha]
          cases h with
          | ok ho hafter => exact .ok ho hafter
      | error e after =>
          rw [ha] at h hwithin
          rw [attemptUpTo_succ_of_error ha]
          cases h with
          | error ho =>
              rw [if_neg (by simp [isNetwork_of_answers ho])]
              exact .error ho
          | struck hcalm he =>
              -- the connection is given up, so the next attempt finds nothing under way
              simp only [he, if_true] at hwithin
              rw [if_pos he]
              apply ih (idle_of_not_connected hcalm (by simp))
              omega

theorem faithful_run (hf : Welcomes f client.endpoint client.db) {requests : List Request}
    (hs : Idle calm session)
    (hwithin : requests ≠ [] → client.networkFailures requests (client.policy.maxRetries + 1)
      session ≤ client.policy.maxRetries) :
    Faithful True (Idle calm) (answers f requests) (client.run requests session) := by
  rw [run]
  split
  · next hempty =>
      rw [List.isEmpty_iff.mp hempty]
      exact .ok rfl hs
  · next hne =>
      apply faithful_attemptUpTo hf hs
      apply hwithin
      rintro rfl
      exact hne rfl

/-- Where all is calm, no attempt is struck. -/
theorem networkFailures_of_calm (hf : Welcomes f client.endpoint client.db) (hcalm : calm)
    (requests : List Request) (tries : Nat) (hs : Idle calm session) :
    client.networkFailures requests tries session = 0 := by
  cases tries with
  | zero => rfl
  | succ tries =>
      have h := faithful_attempt hf requests hs
      rw [networkFailures]
      cases ha : client.attempt requests session with
      | ok replies after => rfl
      | error e after =>
          rw [ha] at h
          cases h with
          | error ho => simp [isNetwork_of_answers ho]
          | struck hnot he => exact absurd hcalm hnot

/-- No run of a plan is struck more often than it may try again. -/
inductive Within {σ : Type} [Network σ] (client : Client) : Plan α → Session σ → Prop where
  | answer {outcome : Except Failure α} {session : Session σ} :
      Within client (.answer outcome) session
  | round {requests : List Request} {blame : Failure → Failure} {next : List Reply → Plan α}
      {session : Session σ}
      (hfailures : requests ≠ [] →
        client.networkFailures requests (client.policy.maxRetries + 1) session ≤
          client.policy.maxRetries)
      (hnext : ∀ replies after, client.run requests session = .ok replies after →
        Within client (next replies) after) :
      Within client (.round requests blame next) session

theorem within_of_calm (hf : Welcomes f client.endpoint client.db) (hcalm : calm)
    (plan : Plan α) (hs : Idle calm session) : client.Within plan session := by
  induction plan generalizing session with
  | answer outcome => exact .answer
  | round requests blame next ih =>
      have hwithin : client.networkFailures requests (client.policy.maxRetries + 1) session ≤
          client.policy.maxRetries := by
        rw [networkFailures_of_calm hf hcalm requests _ hs]
        exact Nat.zero_le _
      refine .round (fun _ => hwithin) ?_
      intro replies after hr
      have h := faithful_run hf hs fun _ => hwithin
      rw [hr] at h
      cases h with
      | ok _ hafter => exact ih replies hafter

/-- A plan whose runs are not struck too often comes to what the peer's replies make of
it. -/
theorem outcome_run (hf : Welcomes f client.endpoint client.db) (plan : Plan α)
    (hs : Idle calm session) (hwithin : client.Within plan session) :
    (plan.run client.run).outcome session = plan.eval (answers f) := by
  induction hwithin with
  | @answer outcome session => cases outcome <;> rfl
  | @round requests blame next session hfailures _ ih =>
      have h := faithful_run hf hs hfailures
      rw [Act.outcome, Plan.run_round, Plan.eval]
      cases hr : client.run requests session with
      | error e after =>
          rw [hr] at h
          cases h with
          | error ho =>
              rw [ho]
              rfl
          | struck hnot _ => exact absurd trivial hnot
      | ok replies after =>
          rw [hr] at h
          cases h with
          | ok ho hafter =>
              rw [ho]
              exact ih replies after hr hafter

/-! ## The sessions of a client -/

/-- Whatever strikes it, a client never keeps a connection with something under way. -/
theorem idle_of_reached (hf : Welcomes f client.endpoint client.db) (h : Reached client session) :
    Idle False session := by
  have hclosed : ∀ {session : Session (Answering f)}, session.connected = false →
      Idle False session := fun h => idle_of_not_connected not_false h
  have hrun : ∀ requests, Act.Keeps (Idle (f := f) False) (client.run requests) := by
    intro requests
    constructor
    · intro session after replies hs hr
      rcases exists_attempt_of_run hr with ⟨-, -, rfl⟩ | ⟨start, hstart, hattempt⟩
      · exact hs
      · have hidle : Idle False start := by
          rcases hstart with rfl | hstart
          · exact hs
          · exact hclosed hstart
        have ha := faithful_attempt hf requests hidle
        rw [hattempt] at ha
        cases ha with
        | ok _ hafter => exact hafter
    · intro session after e _ hr
      exact hclosed (connected_of_run_error hr)
  exact h.invariant (fun _ => hclosed rfl) hrun fun _ => hclosed (by simp)

/-- A client whose runs are not struck more often than they may try again is answered as
if nothing had been struck: with the value, or the failure, that the peer's replies make of
the operation. -/
theorem outcome_perform_calmed (hf : Welcomes f client.endpoint client.db)
    (h : Reached client session) (op : Operation α) (hwithin : client.Within op.plan session) :
    (op.perform client).outcome session = (op.perform client).outcome session.calmed ∧
      (op.perform client).outcome session.calmed = op.plan.eval (answers f) := by
  have hidle := idle_of_reached hf h
  have hcalmed : Idle True session.calmed :=
    ⟨fun _ => calm_calmed session.network,
      fun hconnected =>
        ⟨(hidle.idle hconnected).queued, (hidle.idle hconnected).pending,
          fun _ => calm_calmed session.network⟩⟩
  have hcalm := outcome_run hf op.plan hcalmed (within_of_calm hf trivial op.plan hcalmed)
  have hstruck := outcome_run hf op.plan hidle hwithin
  rw [Operation.perform_eq_run]
  exact ⟨hstruck.trans hcalm.symm, hcalm⟩

/-- A peer that has every member in every set. -/
def fullSets (request : Request) : Reply :=
  if request.args.length = 2 then .integer 1 else .simple "OK"

/-- The first dial, the greeting of the second connection and the second reply of the round
on the third are struck. -/
def struckThrice : Answering fullSets where
  faults n := if n = 0 ∨ n = 3 ∨ n = 12 then some ⟨.timeout, rfl⟩ else none

/-- A client that may try three times more, and so just gets its answer. -/
def persistent : Client where
  endpoint := { address := "h:1" }
  policy := { maxRetries := 3 }

theorem outcome_perform_calmed_struckThrice :
    Welcomes fullSets persistent.endpoint persistent.db ∧
      Reached persistent { network := struckThrice } ∧
      persistent.Within (Operation.areMembers [107] [[97], [98]]).plan
        { network := struckThrice } ∧
      ((Operation.areMembers [107] [[97], [98]]).perform persistent).outcome
        { network := struckThrice } = .ok [true, true] := by
  have hf : Welcomes fullSets persistent.endpoint persistent.db := by
    constructor <;> simp [fullSets]
  have hwithin : persistent.Within (Operation.areMembers [107] [[97], [98]]).plan
      { network := struckThrice } :=
    .round (fun _ => by decide +kernel) fun _ _ _ => .answer
  have hreached : Reached persistent { network := struckThrice } := .fresh struckThrice
  obtain ⟨hcalmed, heval⟩ := outcome_perform_calmed hf hreached _ hwithin
  exact ⟨hf, hreached, hwithin, hcalmed.trans (heval.trans rfl)⟩

end Client

end RespClient
