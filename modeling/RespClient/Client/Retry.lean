import RespClient.Client.Session

/-!
# Rounds that survive network failures

A round is tried again on a new connection after a network failure, as often as
the policy allows and after a pause each time. The whole round is replayed, so
its requests should only read. Any other failure ends it at once; every failure
gives the connection up.
-/

namespace RespClient.Client

variable {σ : Type} [Network σ]

/-- Try a round once, on the open connection or on a new one. -/
def attempt (client : Client) (requests : List Request) : Act (Session σ) (List Reply) := do
  client.connect
  client.onConnection (Network.round requests)

/-- Try a round, and again after network failures while retries are left. -/
def attemptUpTo (client : Client) (requests : List Request) :
    (retries : Nat) → Act (Session σ) (List Reply)
  | 0 => fun session =>
      match client.attempt requests session with
      | .ok replies session => .ok replies session
      | .error e session => .error e session.close
  | retries + 1 => fun session =>
      match client.attempt requests session with
      | .ok replies session => .ok replies session
      | .error e session =>
          if e.isNetwork then
            client.attemptUpTo requests retries (session.close.pause client.policy.backoffMs)
          else .error e session.close

/-- Run a round under the client's policy: one reply for each request, in
order. A round of no requests asks nothing of the network. -/
def run (client : Client) (requests : List Request) : Act (Session σ) (List Reply) :=
  if requests.isEmpty then pure []
  else client.attemptUpTo requests client.policy.maxRetries

/-! ## What a run comes to -/

variable {client : Client} {requests : List Request} {replies : List Reply} {e : Failure}
  {session after : Session σ}

theorem attemptUpTo_of_ok (h : client.attempt requests session = .ok replies after)
    (retries : Nat) : client.attemptUpTo requests retries session = .ok replies after := by
  cases retries <;> simp only [attemptUpTo, h]

theorem attemptUpTo_zero_of_error (h : client.attempt requests session = .error e after) :
    client.attemptUpTo requests 0 session = .error e after.close := by
  simp only [attemptUpTo, h]

theorem attemptUpTo_succ_of_error (h : client.attempt requests session = .error e after)
    (retries : Nat) :
    client.attemptUpTo requests (retries + 1) session =
      if e.isNetwork then
        client.attemptUpTo requests retries (after.close.pause client.policy.backoffMs)
      else .error e after.close := by
  simp only [attemptUpTo, h]

theorem exists_attempt_of_attemptUpTo {retries : Nat}
    (h : client.attemptUpTo requests retries session = .ok replies after) :
    ∃ start, (start = session ∨ start.connected = false) ∧
      client.attempt requests start = .ok replies after := by
  induction retries generalizing session with
  | zero =>
      cases ha : client.attempt requests session with
      | ok replies' after' =>
          rw [attemptUpTo_of_ok ha] at h
          exact ⟨session, .inl rfl, ha.trans h⟩
      | error e after' =>
          rw [attemptUpTo_zero_of_error ha] at h
          cases h
  | succ retries ih =>
      cases ha : client.attempt requests session with
      | ok replies' after' =>
          rw [attemptUpTo_of_ok ha] at h
          exact ⟨session, .inl rfl, ha.trans h⟩
      | error e after' =>
          rw [attemptUpTo_succ_of_error ha] at h
          split at h
          · obtain ⟨start, hstart, hattempt⟩ := ih h
            refine ⟨start, .inr ?_, hattempt⟩
            rcases hstart with rfl | hstart
            · simp
            · exact hstart
          · cases h

theorem connected_of_attemptUpTo_error {retries : Nat}
    (h : client.attemptUpTo requests retries session = .error e after) :
    after.connected = false := by
  induction retries generalizing session with
  | zero =>
      cases ha : client.attempt requests session with
      | ok replies after' =>
          rw [attemptUpTo_of_ok ha] at h
          cases h
      | error e' after' =>
          rw [attemptUpTo_zero_of_error ha] at h
          cases h
          exact Session.connected_close after'
  | succ retries ih =>
      cases ha : client.attempt requests session with
      | ok replies after' =>
          rw [attemptUpTo_of_ok ha] at h
          cases h
      | error e' after' =>
          rw [attemptUpTo_succ_of_error ha] at h
          split at h
          · exact ih h
          · cases h
            exact Session.connected_close after'

/-- A run that succeeds, if it has any requests, ends with an attempt that does, on the
session it was given or on one without a connection. -/
theorem exists_attempt_of_run (h : client.run requests session = .ok replies after) :
    requests = [] ∧ replies = [] ∧ after = session ∨
      ∃ start, (start = session ∨ start.connected = false) ∧
        client.attempt requests start = .ok replies after := by
  rw [run] at h
  split at h
  · next hempty =>
      cases h
      exact .inl ⟨List.isEmpty_iff.mp hempty, rfl, rfl⟩
  · exact .inr (exists_attempt_of_attemptUpTo h)

/-- A run that fails has given the connection up, whatever failed. -/
theorem connected_of_run_error (h : client.run requests session = .error e after) :
    after.connected = false := by
  rw [run] at h
  split at h
  · cases h
  · exact connected_of_attemptUpTo_error h

end RespClient.Client
