import RespClient.Proofs.Client.Logged
import RespClient.Proofs.Client.Legs

/-!
# Walks end when the replies run out

A walk goes on as long as it is told a cursor, be it the same one again and again. But each of
its rounds that is answered takes a reply from the peer, and a round that is not ends after the
retries that the client has. So against a peer with finitely many replies every walk ends, even
one that is given no number of rounds.
-/

namespace RespClient

open Network Journal

/-! ## The replies of a script -/

namespace Script

/-- The replies that a script still has, without the failures in between. -/
def unread (script : Script) : List Reply :=
  script.replies.filterMap Except.toOption

/-- Each call either leaves the replies alone or receives the next one. -/
theorem unread_of_happens {s t : Script} {event : Event} (h : Happens s event t) :
    received [event] ++ t.unread = s.unread := by
  cases h with
  | dial h =>
      obtain ⟨-, rfl⟩ := Act.ofExcept_inj h
      rfl
  | @send request outcome _ _ h =>
      change Script.send request s = _ at h
      rw [Script.send] at h
      split at h
      · cases outcome <;> cases h
        rfl
      · obtain ⟨-, rfl⟩ := Act.ofExcept_inj h
        rfl
  | flush h =>
      obtain ⟨-, rfl⟩ := Act.ofExcept_inj h
      rfl
  | @receive outcome _ _ h =>
      change Script.receive s = _ at h
      rw [Script.receive] at h
      split at h
      · cases outcome <;> cases h
        rfl
      · next first replies hreplies =>
          obtain ⟨rfl, rfl⟩ := Act.ofExcept_inj h
          rw [unread, unread, hreplies]
          cases first <;> rfl
  | close => rfl
  | pause => rfl

theorem unread_of_trail {s t : Script} {events : List Event} (h : Trail s events t) :
    received events ++ t.unread = s.unread := by
  induction h with
  | nil => rfl
  | @cons event events s t u h _ ih =>
      have hreceived : received (event :: events) = received [event] ++ received events := by
        rw [received, received, received, ← List.filterMap_append, List.singleton_append]
      rw [hreceived, List.append_assoc, ih, unread_of_happens h]

end Script

namespace Client

/-! ## Walks that end -/

section

variable {σ : Type} [Network σ]

/-- All attempts of a leg. -/
def Leg.attempts (leg : Leg σ) : List (Attempt σ) :=
  leg.struck ++ [leg.last]

/-- A leg of a walk from a session on: it asks with the cursor of the walk and is answered. -/
structure Leg.Gone (client : Client) (ask : UInt64 → Request) (cursor : UInt64)
    (session : Session σ) (leg : Leg σ) : Prop where
  cursor_eq : leg.cursor = cursor
  row : InRow client [ask leg.cursor] session leg.struck leg.last
  within : leg.struck.length ≤ client.policy.maxRetries
  answered : leg.last.outcome = .ok [leg.reply]

/-- How a walk ends that may go on for as long as it takes: the legs that are answered, all the
attempts it makes, and what it comes to. The last leg brings cursor 0 or a reply that is refused,
or one more round is not answered. -/
inductive Ends (client : Client) (command : String) (key : Key) (count : Nat) :
    Walk → Session σ → List (Leg σ) → List (Attempt σ) → Except Failure FieldMap → Session σ →
      Prop
  | unanswered {state : Walk} {session : Session σ} {struck : List (Attempt σ)}
      {last : Attempt σ} {e : Failure}
      (hrow : InRow client [pageRequest command key.bytes state.cursor count] session struck last)
      (hwithin : struck.length ≤ client.policy.maxRetries)
      (hrun : client.run [pageRequest command key.bytes state.cursor count] session =
        .error e last.final) :
      Ends client command key count state session [] (struck ++ [last]) (.error e) last.final
  | refused {state : Walk} {session : Session σ} {leg : Leg σ} {e : Failure}
      (hleg : leg.Gone client (pageRequest command key.bytes · count) state.cursor session)
      (hrefused : state.judge key.type command leg.reply = .error e) :
      Ends client command key count state session [leg] leg.attempts (.error e) leg.last.after
  | found {state next : Walk} {session : Session σ} {leg : Leg σ}
      (hleg : leg.Gone client (pageRequest command key.bytes · count) state.cursor session)
      (hnext : state.judge key.type command leg.reply = .ok next) (hzero : next.cursor = 0) :
      Ends client command key count state session [leg] leg.attempts (.ok next.entries)
        leg.last.after
  | further {state next : Walk} {session after : Session σ} {leg : Leg σ} {legs : List (Leg σ)}
      {attempts : List (Attempt σ)} {outcome : Except Failure FieldMap}
      (hleg : leg.Gone client (pageRequest command key.bytes · count) state.cursor session)
      (hnext : state.judge key.type command leg.reply = .ok next) (hmore : next.cursor ≠ 0)
      (hlater : Ends client command key count next leg.last.after legs attempts outcome after) :
      Ends client command key count state session (leg :: legs) (leg.attempts ++ attempts) outcome
        after

variable {client : Client} {command : String} {key : Key} {count : Nat}
  {state : Walk} {session after : Session σ} {legs : List (Leg σ)} {attempts : List (Attempt σ)}
  {outcome : Except Failure FieldMap}

theorem Leg.Gone.run_eq {ask : UInt64 → Request} {cursor : UInt64} {leg : Leg σ}
    (h : leg.Gone client ask cursor session) :
    client.run [ask cursor] session = .ok [leg.reply] leg.last.after := by
  rw [← h.cursor_eq]
  exact h.row.attemptUpTo_eq h.answered h.within

/-- A walk that ends is what the client does with enough rounds. -/
theorem Ends.walk_eq (h : Ends client command key count state session legs attempts outcome after)
    {rounds : Nat} (hrounds : legs.length < rounds) :
    client.walk command key count rounds state session =
      Act.ofExcept (outcome.map some) after := by
  induction h generalizing rounds with
  | unanswered hrow hwithin hrun =>
      obtain ⟨more, rfl⟩ := Nat.exists_eq_add_of_lt hrounds
      rw [walk, Act.bind_apply, execute, Act.bind_apply, hrun]
      rfl
  | refused hleg hrefused =>
      obtain ⟨more, rfl⟩ := Nat.exists_eq_add_of_lt hrounds
      rw [walk_of_run hleg.run_eq, takeIn, Act.bind_apply, hrefused]
      rfl
  | found hleg hnext hzero =>
      obtain ⟨more, rfl⟩ := Nat.exists_eq_add_of_lt hrounds
      rw [walk_of_run hleg.run_eq, takeIn, Act.bind_apply, hnext, Act.ofExcept_ok]
      dsimp only
      rw [if_pos hzero]
      rfl
  | @further _ next _ _ _ legs _ _ hleg hnext hmore hlater ih =>
      obtain ⟨more, rfl⟩ := Nat.exists_eq_add_of_lt hrounds
      rw [walk_of_run hleg.run_eq, takeIn, Act.bind_apply, hnext, Act.ofExcept_ok]
      dsimp only
      rw [if_neg hmore]
      exact ih (by rw [List.length_cons]; omega)

/-- No more attempts are made for a leg than the policy allows, nor for the round that is not
answered. -/
theorem Ends.length_attempts_le
    (h : Ends client command key count state session legs attempts outcome after) :
    attempts.length ≤ (legs.length + 1) * (client.policy.maxRetries + 1) := by
  have hleg : ∀ {ask : UInt64 → Request} {cursor : UInt64} {session : Session σ} {leg : Leg σ},
      leg.Gone client ask cursor session →
        leg.attempts.length ≤ client.policy.maxRetries + 1 := by
    intro ask cursor session leg hgone
    rw [Leg.attempts, List.length_append]
    exact Nat.succ_le_succ hgone.within
  induction h with
  | unanswered hrow hwithin hrun =>
      rw [List.length_append, List.length_nil, Nat.zero_add, Nat.one_mul]
      exact Nat.succ_le_succ hwithin
  | refused hgone _ => exact Nat.le_trans (hleg hgone) (Nat.le_mul_of_pos_left _ (Nat.succ_pos _))
  | found hgone _ _ => exact Nat.le_trans (hleg hgone) (Nat.le_mul_of_pos_left _ (Nat.succ_pos _))
  | further hgone _ _ _ ih =>
      rw [List.length_append, List.length_cons, Nat.succ_mul, Nat.add_comm]
      exact Nat.add_le_add ih (hleg hgone)

end

/-! ## Walks against a script -/

section

variable {client : Client} {command : String} {key : Key} {count : Nat} {state : Walk}
  {session after : Session (Journal Script)} {legs : List (Leg (Journal Script))}
  {attempts : List (Attempt (Journal Script))} {outcome : Except Failure FieldMap}

/-- A leg takes at least one reply from the script. -/
theorem Leg.Gone.exists_logged {ask : UInt64 → Request} {cursor : UInt64}
    {leg : Leg (Journal Script)} (h : leg.Gone client ask cursor session) :
    (∃ events, Logged (leg.attempts.length * 10) session.network leg.last.after.network events) ∧
      leg.last.after.network.state.unread.length < session.network.state.unread.length := by
  obtain ⟨events, hlogged, hreplies⟩ := h.row.exists_logged_final
  have hfinal : leg.last.final = leg.last.after := by rw [Attempt.final, h.answered]
  rw [hfinal] at hlogged
  have hunread := congrArg List.length (Script.unread_of_trail hlogged.trail)
  have hone := (hreplies _ h.answered).length_le
  rw [List.length_append] at hunread
  rw [List.length_singleton] at hone
  refine ⟨⟨events, ?_⟩, by omega⟩
  rw [Leg.attempts, List.length_append]
  exact hlogged

/-- Each leg takes a reply, and each attempt makes ten calls at most. -/
theorem Ends.exists_logged
    (h : Ends client command key count state session legs attempts outcome after) :
    (∃ events, Logged (attempts.length * 10) session.network after.network events) ∧
      legs.length ≤ session.network.state.unread.length := by
  induction h with
  | unanswered hrow hwithin hrun =>
      obtain ⟨events, hlogged, -⟩ := hrow.exists_logged_final
      refine ⟨⟨events, ?_⟩, Nat.zero_le _⟩
      rw [List.length_append]
      exact hlogged
  | refused hgone _ => exact ⟨hgone.exists_logged.1, Nat.one_le_of_lt hgone.exists_logged.2⟩
  | found hgone _ _ => exact ⟨hgone.exists_logged.1, Nat.one_le_of_lt hgone.exists_logged.2⟩
  | further hgone _ _ _ ih =>
      obtain ⟨⟨events, hlogged⟩, hfewer⟩ := hgone.exists_logged
      obtain ⟨⟨more, hmore⟩, hlegs⟩ := ih
      refine ⟨⟨events ++ more, ?_⟩, Nat.succ_le_of_lt (Nat.lt_of_le_of_lt hlegs hfewer)⟩
      rw [List.length_append, Nat.add_mul]
      exact hlogged.append hmore

/-- A round either is not answered or goes a leg of the walk. -/
theorem unanswered_or_gone (client : Client) (command : String) (key : Key) (count : Nat)
    (state : Walk) (session : Session (Journal Script)) :
    (∃ attempts e after,
      Ends client command key count state session [] attempts (.error e) after) ∨
    ∃ leg : Leg (Journal Script),
      leg.Gone client (pageRequest command key.bytes · count) state.cursor session := by
  obtain ⟨struck, last, hrow, hwithin, hrun⟩ := exists_inRow_of_run client
    (List.cons_ne_nil (pageRequest command key.bytes state.cursor count) []) session
  cases houtcome : last.outcome with
  | error e =>
      rw [houtcome] at hrun
      exact .inl ⟨_, e, _, .unanswered hrow hwithin hrun⟩
  | ok replies =>
      have hmade := hrow.made last (by simp)
      rw [Attempt.Made, houtcome] at hmade
      obtain ⟨-, hlength, -⟩ := events_of_attempt hmade
      obtain ⟨reply, rfl⟩ := List.length_eq_one_iff.mp hlength
      exact .inr ⟨⟨state.cursor, struck, last, reply⟩, rfl, hrow, hwithin, houtcome⟩

/-- Every walk against a script ends. -/
theorem exists_ends (client : Client) (command : String) (key : Key) (count : Nat) (state : Walk)
    (session : Session (Journal Script)) :
    ∃ legs attempts outcome after,
      Ends client command key count state session legs attempts outcome after := by
  -- a leg leaves fewer replies for the rest of the walk, which may well ask with its cursor again
  induction hn : session.network.state.unread.length using Nat.strongRecOn
    generalizing state session with
  | ind n ih =>
  rcases unanswered_or_gone client command key count state session with
    ⟨attempts, e, after, hends⟩ | ⟨leg, hgone⟩
  · exact ⟨[], attempts, .error e, after, hends⟩
  · cases hjudge : state.judge key.type command leg.reply with
    | error e => exact ⟨_, _, _, _, .refused hgone hjudge⟩
    | ok next =>
        by_cases hzero : next.cursor = 0
        · exact ⟨_, _, _, _, .found hgone hjudge hzero⟩
        · have hfewer := hgone.exists_logged.2
          rw [hn] at hfewer
          obtain ⟨legs, attempts, outcome, after, hlater⟩ := ih _ hfewer next _ rfl
          exact ⟨_, _, _, _, .further hgone hjudge hzero hlater⟩

end

/-- A walk against a script ends, whatever cursors it is told. It goes no more legs than the
script has replies. There are at most as many attempts as retries would allow for these legs and
one more round, each of ten calls at most, and it comes to the same however many rounds it is
given beyond the replies. -/
theorem scan_ends (client : Client) {key : Key} {command : String}
    (hcommand : key.type.scanCommand? = some command) (count : Nat)
    (session : Session (Journal Script)) :
    ∃ legs attempts outcome after events,
      Ends client command key count {} session legs attempts outcome after ∧
      legs.length ≤ session.network.state.unread.length ∧
      attempts.length ≤
        (session.network.state.unread.length + 1) * (client.policy.maxRetries + 1) ∧
      after.network.events = session.network.events ++ events ∧
      (events.filterMap Event.call?).length ≤ attempts.length * 10 ∧
      ∀ rounds, session.network.state.unread.length < rounds →
        client.scan key count rounds session = Act.ofExcept (outcome.map some) after := by
  obtain ⟨legs, attempts, outcome, after, hends⟩ :=
    exists_ends client command key count {} session
  obtain ⟨⟨events, hlogged⟩, hlegs⟩ := hends.exists_logged
  refine ⟨legs, attempts, outcome, after, events, hends, hlegs, ?_, hlogged.events_eq,
    hlogged.within, fun rounds hrounds => ?_⟩
  · exact Nat.le_trans hends.length_attempts_le
      (Nat.mul_le_mul_right _ (Nat.succ_le_succ hlegs))
  · rw [scan_eq_walk hcommand]
    exact hends.walk_eq (Nat.lt_of_le_of_lt hlegs hrounds)

/-- The same portion twice, a failure before the second, and nothing more. -/
def repeating : Session (Journal Script) :=
  openOn [.ok signedPortion.reply, .error .timeout, .ok (.simple "OK"), .ok signedPortion.reply] []

theorem scan_ends_repeating :
    ∃ legs attempts after,
      Ends patient "zscan" scoresKey 10 {} repeating legs attempts (.error .closedByPeer) after ∧
      legs.length ≤ 3 ∧ attempts.length ≤ 12 ∧
      ∀ rounds, 3 < rounds →
        patient.scan scoresKey 10 rounds repeating = .error .closedByPeer after := by
  obtain ⟨legs, attempts, outcome, after, events, hends, hlegs, hattempts, -, -, hscan⟩ :=
    @scan_ends patient scoresKey "zscan" rfl 10 repeating
  have hfails : (patient.scan scoresKey 10 4).failure? repeating = some .closedByPeer := by
    decide +kernel
  have houtcome : outcome = .error .closedByPeer := by
    have hfour := hscan 4 (by decide)
    rw [Act.eq_error_of_failure? hfails] at hfour
    cases outcome <;> cases hfour
    rfl
  subst houtcome
  exact ⟨legs, attempts, after, hends, hlegs, hattempts, hscan⟩

end Client

end RespClient
