import RespClient.Proofs.Client.Calls

/-!
# The attempts of a run

A run is a row of attempts. Each but the last is ended by the network, and the next one is
made when its connection has been given up and the pause is over. How the last one ends is
what the run comes to.
-/

namespace RespClient

/-! ## Calls without a pause -/

namespace Journal

open Network

/-- Some events were added, among which no time was let pass. -/
def Promptly (earlier later : List Event) : Prop :=
  ∃ more, later = earlier ++ more ∧ paused more = 0

theorem Promptly.refl (events : List Event) : Promptly events events :=
  ⟨[], (List.append_nil _).symm, rfl⟩

theorem Promptly.snoc {earlier later : List Event} (h : Promptly earlier later) {event : Event}
    (he : paused [event] = 0) : Promptly earlier (later ++ [event]) := by
  obtain ⟨more, rfl, hmore⟩ := h
  exact ⟨more ++ [event], List.append_assoc _ _ _, by rw [paused_append, hmore, he]⟩

theorem Promptly.trans {first second third : List Event} (h : Promptly first second)
    (hnext : Promptly second third) : Promptly first third := by
  obtain ⟨more, rfl, hmore⟩ := h
  obtain ⟨rest, rfl, hrest⟩ := hnext
  exact ⟨more ++ rest, List.append_assoc _ _ _, by rw [paused_append, hmore, hrest]⟩

theorem Promptly.paused_eq {earlier later : List Event} (h : Promptly earlier later) :
    paused later = paused earlier := by
  obtain ⟨more, rfl, hmore⟩ := h
  rw [paused_append, hmore, Nat.add_zero]

theorem paused_eq_zero {plan : List Call} {calls : List Event}
    (h : calls.map Event.call? <+: plan.map some) : paused calls = 0 := by
  induction calls generalizing plan with
  | nil => rfl
  | cons event calls ih =>
      cases plan with
      | nil => simp at h
      | cons call plan =>
          obtain ⟨hevent, hrest⟩ := List.cons_prefix_cons.mp h
          cases event <;> first | exact ih hrest | cases hevent

variable {σ α : Type} [Network σ]

/-- Calls let no time pass. -/
theorem Makes.promptly {plan : List Call} {act : Act (Journal σ) α} (h : Makes plan act)
    (journal : Journal σ) : Promptly journal.events (act.left journal).events := by
  have hact := h journal
  rw [Act.left]
  cases hresult : act journal with
  | ok a after =>
      rw [hresult] at hact
      cases hact with
      | ok hevents hplan => exact ⟨_, hevents, paused_eq_zero ⟨[], (List.append_nil _).trans hplan⟩⟩
  | error e after =>
      rw [hresult] at hact
      cases hact with
      | refused hevents hplan => exact ⟨_, hevents, paused_eq_zero hplan⟩
      | failed hevents hplan => exact ⟨_, hevents, paused_eq_zero hplan⟩

end Journal

open Journal Network

/-! ## Attempts -/

/-- One attempt at a round: the session it is made on, what it comes to, and the session that
it leaves. -/
structure Attempt (σ : Type) where
  before : Session σ
  outcome : Except Failure (List Reply)
  after : Session σ

namespace Attempt

variable {σ : Type} [Network σ]

/-- The attempt is what comes of a round that is tried once. -/
def Made (client : Client) (requests : List Request) (a : Attempt σ) : Prop :=
  client.attempt requests a.before = Act.ofExcept a.outcome a.after

/-- The session after a run that ends with the attempt: where it has failed, the connection is
given up. -/
def final (a : Attempt σ) : Session σ :=
  match a.outcome with
  | .ok _ => a.after
  | .error _ => a.after.close

end Attempt

namespace Client

theorem network_left_onConnection {σ α : Type} {client : Client} {call : Act σ α} {session : Session σ}
    (h : session.connected = true) :
    ((client.onConnection call).left session).network = call.left session.network := by
  rw [Act.left, onConnection_of_connected h, Session.onNetwork, Act.left]
  cases call session.network <;> rfl

variable {σ : Type} [Network σ]

/-- A row of attempts from a session on. The network ends all that were `struck`; after each
the connection is given up and the pause passes, and the next attempt is made. -/
inductive InRow (client : Client) (requests : List Request) :
    Session σ → (struck : List (Attempt σ)) → (last : Attempt σ) → Prop where
  | last {last : Attempt σ} (hmade : last.Made client requests) :
      InRow client requests last.before [] last
  | struck {a last : Attempt σ} {later : List (Attempt σ)} {e : Failure}
      (hmade : a.Made client requests) (hfailed : a.outcome = .error e)
      (hnetwork : e.isNetwork = true)
      (hlater : InRow client requests (a.after.close.pause client.policy.backoffMs) later last) :
      InRow client requests a.before (a :: later) last

section

variable {client : Client} {requests : List Request} {session : Session σ}
  {struck : List (Attempt σ)} {last : Attempt σ}

theorem exists_made (client : Client) (requests : List Request) (session : Session σ) :
    ∃ a : Attempt σ, a.before = session ∧ a.Made client requests := by
  cases h : client.attempt requests session with
  | ok replies after => exact ⟨⟨session, .ok replies, after⟩, rfl, h⟩
  | error e after => exact ⟨⟨session, .error e, after⟩, rfl, h⟩

theorem left_of_made {a : Attempt σ} (h : a.Made client requests) :
    (client.attempt requests).left a.before = a.after :=
  Act.left_of_eq_ofExcept h

/-- The attempts that are made with so many retries at most. Where the network ends the last
one too, there are no retries left. -/
theorem exists_inRow (client : Client) (requests : List Request) (retries : Nat)
    (session : Session σ) :
    ∃ struck last, InRow client requests session struck last ∧ struck.length ≤ retries ∧
      (∀ e, last.outcome = .error e → e.isNetwork = true → struck.length = retries) ∧
      client.attemptUpTo requests retries session = Act.ofExcept last.outcome last.final := by
  induction retries generalizing session with
  | zero =>
      obtain ⟨a, rfl, hmade⟩ := exists_made client requests session
      refine ⟨[], a, .last hmade, Nat.le_refl 0, fun _ _ _ => rfl, ?_⟩
      rw [Attempt.Made] at hmade
      rw [Attempt.final]
      cases ha : a.outcome with
      | ok replies =>
          rw [ha] at hmade
          exact attemptUpTo_of_ok hmade 0
      | error e =>
          rw [ha] at hmade
          exact attemptUpTo_zero_of_error hmade
  | succ retries ih =>
      obtain ⟨a, rfl, hmade⟩ := exists_made client requests session
      have hrun := hmade
      rw [Attempt.Made] at hrun
      cases ha : a.outcome with
      | ok replies =>
          rw [ha] at hrun
          refine ⟨[], a, .last hmade, Nat.zero_le _, by simp [ha], ?_⟩
          rw [Attempt.final, ha]
          exact attemptUpTo_of_ok hrun (retries + 1)
      | error e =>
          rw [ha] at hrun
          have hnext := attemptUpTo_succ_of_error hrun retries
          by_cases he : e.isNetwork = true
          · rw [if_pos he] at hnext
            obtain ⟨struck, last, hrow, hwithin, hexhausted, hresult⟩ :=
              ih (a.after.close.pause client.policy.backoffMs)
            refine ⟨a :: struck, last, .struck hmade ha he hrow, Nat.succ_le_succ hwithin, ?_,
              hnext.trans hresult⟩
            intro e' hlast hnetwork
            rw [List.length_cons, hexhausted e' hlast hnetwork]
          · rw [if_neg he] at hnext
            refine ⟨[], a, .last hmade, Nat.zero_le _, ?_, ?_⟩
            · intro e' he' hnetwork
              rw [ha] at he'
              cases he'
              exact absurd hnetwork he
            · rw [Attempt.final, ha]
              exact hnext

theorem InRow.made (h : InRow client requests session struck last) :
    ∀ a ∈ struck ++ [last], a.Made client requests := by
  induction h with
  | last hmade => simpa using hmade
  | struck hmade _ _ _ ih => exact List.forall_mem_cons.mpr ⟨hmade, ih⟩

theorem InRow.ended (h : InRow client requests session struck last) :
    ∀ a ∈ struck, ∃ e, a.outcome = .error e ∧ e.isNetwork = true := by
  induction h with
  | last _ => simp
  | struck _ hfailed hnetwork _ ih =>
      exact List.forall_mem_cons.mpr ⟨⟨_, hfailed, hnetwork⟩, ih⟩

/-- What attempts, closing and pausing keep, a row of attempts keeps. -/
theorem InRow.keeps {P : Session σ → Prop}
    (hattempt : ∀ s, P s → P ((client.attempt requests).left s)) (hclose : ∀ s, P s → P s.close)
    (hpause : ∀ s ms, P s → P (s.pause ms)) (h : InRow client requests session struck last)
    (hs : P session) : P last.final := by
  induction h with
  | last hmade =>
      have hafter := hattempt _ hs
      rw [left_of_made hmade] at hafter
      rw [Attempt.final]
      split
      · exact hafter
      · exact hclose _ hafter
  | struck hmade _ _ _ ih =>
      have hafter := hattempt _ hs
      rw [left_of_made hmade] at hafter
      exact ih (hpause _ _ (hclose _ hafter))

/-- The first attempt is made on the session of the run. -/
theorem InRow.head (h : InRow client requests session struck last) :
    (struck ++ [last]).head?.map Attempt.before = some session := by
  cases h <;> rfl

/-- An attempt that follows another one finds no connection. -/
theorem InRow.closed (h : InRow client requests session struck last) :
    ∀ a ∈ (struck ++ [last]).tail, a.before.connected = false := by
  induction h with
  | last _ => simp
  | @struck a last later e _ _ _ hlater ih =>
      intro b hb
      have hhead := hlater.head
      cases hall : later ++ [last] with
      | nil => simp at hall
      | cons next rest =>
          rw [hall] at hhead ih
          rw [List.cons_append, List.tail_cons, hall] at hb
          rcases List.mem_cons.mp hb with rfl | hb
          · rw [Option.some.inj hhead, Session.connected_pause, Session.connected_close]
          · exact ih b hb

end

/-! ## The journal of an attempt -/

section

variable {client : Client} {requests : List Request} {session after : Session (Journal σ)}
  {replies : List Reply}

theorem paused_close (session : Session (Journal σ)) :
    paused session.close.network.events = paused session.network.events := by
  rw [Session.close]
  split
  · exact (paused_append _ [.close]).trans (Nat.add_zero _)
  · rfl

/-- A connection is opened with a dial first. -/
theorem exists_dial_of_establish (client : Client) (journal : Journal σ) :
    ∃ outcome, Promptly (journal.events ++ [.dial client.endpoint outcome])
      ((Network.establish client.endpoint client.db).left journal).events := by
  obtain ⟨outcome, hdialed⟩ := exists_event_of_record (.dial client.endpoint)
    (Network.dial client.endpoint) journal
  have hdial : ((Network.dial client.endpoint).left journal).events =
      journal.events ++ [.dial client.endpoint outcome] := hdialed
  refine ⟨outcome, ?_⟩
  rw [← hdial]
  apply left_establish (P := fun t : Journal σ =>
    Promptly ((Network.dial client.endpoint).left journal).events t.events) (.refl _)
  · intro t _ ht
    rw [greet_eq_inOrder]
    exact ht.trans ((makes_inOrder client.opening.tail).promptly t)
  · exact fun t ht => ht.snoc rfl

theorem exists_dial_of_connect (client : Client) (h : session.connected = false) :
    ∃ outcome, Promptly (session.network.events ++ [.dial client.endpoint outcome])
      (client.connect.left session).network.events := by
  rw [network_left_connect h]
  exact exists_dial_of_establish client session.network

theorem promptly_connect (client : Client) (session : Session (Journal σ)) :
    Promptly session.network.events (client.connect.left session).network.events := by
  by_cases h : session.connected = true
  · rw [Act.left_of_ok (connect_of_connected h)]
    exact .refl _
  · obtain ⟨outcome, hdial⟩ := exists_dial_of_connect client (by simpa using h)
    exact ((Promptly.refl _).snoc rfl).trans hdial

/-- What follows on connecting in an attempt takes no time. -/
theorem promptly_attempt (client : Client) (requests : List Request)
    (session : Session (Journal σ)) :
    Promptly (client.connect.left session).network.events
      ((client.attempt requests).left session).network.events := by
  rw [attempt]
  apply Act.left_bind (P := fun t : Session (Journal σ) =>
    Promptly (client.connect.left session).network.events t.network.events) (.refl _)
  intro _ ready hconnect hready
  rw [network_left_onConnection (connected_of_connect hconnect)]
  exact hready.trans ((makes_round requests).promptly ready.network)

/-- The calls of connecting, where it goes well. -/
theorem events_of_connect (h : client.connect session = .ok () after) :
    ∃ opening, after.network.events = session.network.events ++ opening ∧
      opening.filterMap Event.call? =
        if session.connected then [] else client.opening.map Stage.call := by
  by_cases hheld : session.connected = true
  · rw [connect_of_connected hheld] at h
    cases h
    exact ⟨[], (List.append_nil _).symm, by rw [if_pos hheld]; rfl⟩
  · obtain ⟨network, hwell, rfl⟩ := (connect_eq_ok_iff (by simpa using hheld)).mp h
    rw [if_neg hheld]
    exact events_of_goWell hwell

/-- An attempt that succeeds ends with the round, and its replies are those that the round
received. -/
theorem events_of_attempt (h : client.attempt requests session = .ok replies after) :
    after.connected = true ∧ replies.length = requests.length ∧
      ∃ opening, after.network.events =
          session.network.events ++ opening ++ roundCalls requests replies ∧
        opening.filterMap Event.call? =
          if session.connected then [] else client.opening.map Stage.call := by
  rw [attempt, Act.bind_eq_ok_iff] at h
  obtain ⟨_, ready, hconnect, h⟩ := h
  have hconnected := connected_of_connect hconnect
  rw [onConnection_of_connected hconnected, Session.onNetwork] at h
  obtain ⟨opening, hready, hcalls⟩ := events_of_connect hconnect
  cases hr : Network.round requests ready.network with
  | error e network => simp [hr] at h
  | ok replies' network =>
      rw [hr] at h
      cases h
      refine ⟨hconnected, Network.length_of_round hr, opening, ?_, hcalls⟩
      rw [← hready]
      exact events_of_round hr

end

/-! ## Runs -/

section

variable {client : Client} {requests : List Request} {session : Session (Journal σ)}
  {a last : Attempt (Journal σ)} {struck : List (Attempt (Journal σ))}

/-- An attempt takes no time. -/
theorem paused_of_made (h : a.Made client requests) :
    paused a.after.network.events = paused a.before.network.events := by
  have hprompt := (promptly_connect client a.before).trans
    (promptly_attempt client requests a.before)
  rw [left_of_made h] at hprompt
  exact hprompt.paused_eq

theorem paused_final (a : Attempt (Journal σ)) :
    paused a.final.network.events = paused a.after.network.events := by
  rw [Attempt.final]
  cases a.outcome with
  | ok replies => rfl
  | error e => exact paused_close a.after

/-- An attempt that finds no connection starts with a dial. -/
theorem exists_dial_of_made (h : a.Made client requests) (hclosed : a.before.connected = false) :
    ∃ outcome more, a.after.network.events =
      a.before.network.events ++ .dial client.endpoint outcome :: more := by
  obtain ⟨outcome, hdial⟩ := exists_dial_of_connect client hclosed
  obtain ⟨more, hmore, -⟩ := hdial.trans (promptly_attempt client requests a.before)
  rw [left_of_made h, List.append_assoc] at hmore
  exact ⟨outcome, more, hmore⟩

/-- In a row one pause passes between each attempt and the next. -/
theorem InRow.paused_eq (h : InRow client requests session struck last) :
    paused last.after.network.events =
      paused session.network.events + struck.length * client.policy.backoffMs := by
  induction h with
  | last hmade => rw [paused_of_made hmade, List.length_nil, Nat.zero_mul, Nat.add_zero]
  | @struck a last later e hmade _ _ _ ih =>
      have hpause : paused (a.after.close.pause client.policy.backoffMs).network.events =
          paused a.before.network.events + client.policy.backoffMs := by
        rw [← paused_of_made hmade, ← paused_close a.after]
        exact paused_append _ [.pause client.policy.backoffMs]
      rw [ih, hpause, List.length_cons, Nat.succ_mul]
      omega

/-- What a run is made of: some attempts that were `struck`, and the last one, which decides
what the run comes to. -/
structure Course (client : Client) (requests : List Request) (session : Session (Journal σ))
    (struck : List (Attempt (Journal σ))) (last : Attempt (Journal σ)) : Prop where
  row : InRow client requests session struck last
  ended : ∀ a ∈ struck, ∃ e, a.outcome = .error e ∧ e.isNetwork = true
  within : struck.length ≤ client.policy.maxRetries
  exhausted : ∀ e, last.outcome = .error e → e.isNetwork = true →
    struck.length = client.policy.maxRetries
  result : client.run requests session = Act.ofExcept last.outcome last.final
  answered : ∀ replies, last.outcome = .ok replies → replies.length = requests.length ∧
    ∃ opening, last.after.network.events =
        last.before.network.events ++ opening ++ roundCalls requests replies ∧
      opening.filterMap Event.call? =
        if last.before.connected then [] else client.opening.map Stage.call
  redialed : ∀ a ∈ (struck ++ [last]).tail, ∃ outcome more, a.after.network.events =
    a.before.network.events ++ .dial client.endpoint outcome :: more
  paused : Journal.paused last.final.network.events =
    Journal.paused session.network.events + struck.length * client.policy.backoffMs
  held : last.final.connected = true ↔ ∃ replies, last.outcome = .ok replies

end

/-- A run of no requests calls nothing. Any other run makes attempts until one succeeds or fails
for good, or until the network has ended one more than there are retries; and it comes to what
the last attempt does. Each attempt but the first dials anew, there is one pause between two
attempts, and a connection is held just after a success. -/
theorem run_attempts (client : Client) :
    (∀ session : Session (Journal σ), client.run [] session = .ok [] session) ∧
    ∀ {requests : List Request} (session : Session (Journal σ)), requests ≠ [] →
      ∃ struck last, Course client requests session struck last := by
  refine ⟨fun session => rfl, fun {requests} session hne => ?_⟩
  obtain ⟨struck, last, hrow, hwithin, hexhausted, hresult⟩ :=
    exists_inRow client requests client.policy.maxRetries session
  have hmade := hrow.made last (by simp)
  refine ⟨struck, last, hrow, hrow.ended, hwithin, hexhausted, ?_, ?_, ?_, ?_, ?_⟩
  · rw [run, if_neg (by simpa using hne)]
    exact hresult
  · intro replies hreplies
    rw [Attempt.Made, hreplies] at hmade
    exact (events_of_attempt hmade).2
  · intro a ha
    exact exists_dial_of_made (hrow.made a (List.mem_of_mem_tail ha)) (hrow.closed a ha)
  · rw [paused_final, hrow.paused_eq]
  · rw [Attempt.final]
    cases hlast : last.outcome with
    | ok replies =>
        rw [Attempt.Made, hlast] at hmade
        exact iff_of_true (events_of_attempt hmade).1 ⟨replies, rfl⟩
    | error e => simp

/-- A client that may try twice more. -/
def patient : Client where
  endpoint := { address := "h:1" }
  policy := { maxRetries := 2 }

/-- The first dial fails, and on the second connection the choice of the database. -/
def brokenTwice : Script where
  dials := [some (.io "refused")]
  flushes := [some .timeout]
  replies := [.ok (.simple "OK"), .ok (.integer 1)]

theorem run_attempts_brokenTwice :
    ∃ struck last, Course patient [{ command := "dbsize" }]
        { network := ({ state := brokenTwice } : Journal Script) } struck last ∧
      struck.length = 2 ∧ last.outcome = .ok [.integer 1] := by
  let session : Session (Journal Script) := { network := { state := brokenTwice } }
  obtain ⟨struck, last, hcourse⟩ :=
    (run_attempts patient).2 session (List.cons_ne_nil { command := "dbsize" } [])
  have hanswer : ((patient.run [{ command := "dbsize" }]).outcome session).toOption =
      some [.integer 1] := by decide +kernel
  have hpaused : paused ((patient.run [{ command := "dbsize" }]).left session).network.events =
      2000 := by decide +kernel
  have hlast : last.outcome = .ok [.integer 1] := by
    rw [Act.outcome, hcourse.result] at hanswer
    cases h : last.outcome with
    | ok replies =>
        rw [h] at hanswer
        exact congrArg Except.ok (Option.some.inj hanswer)
    | error e =>
        rw [h] at hanswer
        cases hanswer
  have htotal := hcourse.paused
  have hafter : paused last.final.network.events = 2000 := by
    rw [Act.left, hcourse.result, hlast] at hpaused
    exact hpaused
  rw [hafter] at htotal
  have hlength : 2000 = 0 + struck.length * 1000 := htotal
  exact ⟨struck, last, hcourse, by omega, hlast⟩

end Client

end RespClient
