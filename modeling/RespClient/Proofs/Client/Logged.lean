import RespClient.Proofs.Client.Attempts

/-!
# What attempts write down

An attempt makes the calls that open a connection, unless one is held, and those of its round.
What it writes down is these calls, up to the first that fails, and the end of the connection
where it has failed. So the calls of a row of attempts can be counted, they say what became of
the network, and a reply that could not be received ends the attempt that waited for it.
-/

namespace RespClient

/-! ## Logs -/

namespace Journal

open Network

variable {σ α : Type} [Network σ] {before middle after : Journal σ} {events more : List Event}
  {m n : Nat} {plan : List Call}

/-- From one state of a journal to another some events were added, at most `limit` of them
calls; and the network has gone where they lead. -/
structure Logged (limit : Nat) (before after : Journal σ) (events : List Event) : Prop where
  events_eq : after.events = before.events ++ events
  within : (events.filterMap Event.call?).length ≤ limit
  trail : Trail before.state events after.state

theorem Logged.append (h : Logged m before middle events) (hmore : Logged n middle after more) :
    Logged (m + n) before after (events ++ more) where
  events_eq := by rw [hmore.events_eq, h.events_eq, List.append_assoc]
  within := by
    rw [List.filterMap_append, List.length_append]
    exact Nat.add_le_add h.within hmore.within
  trail := h.trail.append hmore.trail

theorem logged_close (journal : Journal σ) :
    Logged 0 journal (Network.close journal) [.close] :=
  ⟨rfl, Nat.le_refl 0, Happens.close.trail⟩

theorem logged_pause (ms : Nat) (journal : Journal σ) :
    Logged 0 journal (Network.pause ms journal) [.pause ms] :=
  ⟨rfl, Nat.le_refl 0, Happens.pause.trail⟩

theorem logged_calls {calls : List Event} (hevents : after.events = before.events ++ calls)
    (hplan : calls.map Event.call? <+: plan.map some) (hlimit : plan.length ≤ n)
    (htrail : Trail before.state calls after.state) : Logged n before after calls where
  events_eq := hevents
  within := by
    have hcalls := List.length_filterMap_le Event.call? calls
    have hlength := hplan.length_le
    rw [List.length_map, List.length_map] at hlength
    omega
  trail := htrail

theorem Comes.logged_ok {a : α} (h : Comes plan before (.ok a after)) (hlimit : plan.length ≤ n) :
    ∃ calls, Logged n before after calls ∧ ∀ call ∈ calls, call.failure? = none := by
  cases h with
  | ok hevents hplan hwell htrail =>
      exact ⟨_, logged_calls hevents ⟨[], (List.append_nil _).trans hplan⟩ hlimit htrail, hwell⟩

/-- A failure that is no word of the server's is the last call's, and the action's. -/
theorem Comes.logged_error {e : Failure} (h : Comes plan before (.error (α := α) e after))
    (hlimit : plan.length ≤ n) :
    ∃ calls, Logged n before after calls ∧
      ∀ call ∈ calls, ∀ e', call.failure? = some e' → (∀ text, e' ≠ .server text) →
        e = e' ∧ ∃ earlier, (∀ call ∈ earlier, call.failure? = none) ∧
          calls = earlier ++ [call] := by
  cases h with
  | refused hevents hplan hwell htrail =>
      refine ⟨_, logged_calls hevents hplan hlimit htrail, fun call hcall e' he' => ?_⟩
      rw [hwell call hcall] at he'
      cases he'
  | @failed _ _ _ earlier last hevents hplan hwell hlast hblame htrail =>
      refine ⟨_, logged_calls hevents hplan hlimit htrail, fun call hcall e' he' hserver => ?_⟩
      rcases List.mem_append.mp hcall with hcall | hcall
      · rw [hwell call hcall] at he'
        cases he'
      · cases List.mem_singleton.mp hcall
        cases hlast.symm.trans he'
        refine ⟨?_, earlier, hwell, rfl⟩
        rcases hblame with rfl | ⟨text, rfl⟩
        · rfl
        · exact absurd rfl (hserver text)

end Journal

namespace Client

open Network Journal

/-! ## Attempts -/

section

variable {σ : Type} [Network σ] {client : Client} {requests : List Request} {a : Attempt σ}

/-- The steps that an attempt starts with. -/
def openingFrom (client : Client) (held : Bool) : List Stage :=
  if held then [] else client.opening

/-- All that an attempt asks of the network. -/
def conversation (client : Client) (held : Bool) (requests : List Request) :
    Act σ (List Reply) := do
  inOrder (client.openingFrom held)
  round requests

/-- What an attempt makes of its conversation. The connection is held after a success and given
up after a failure, except that there is nothing to give up where the dial fails. -/
inductive Concluded (client : Client) (requests : List Request) (a : Attempt σ) : Prop
  | answered {replies : List Reply} {network : σ}
      (h : client.conversation a.before.connected requests a.before.network = .ok replies network)
      (houtcome : a.outcome = .ok replies) (hfinal : a.final = { network, connected := true })
  | undialed {e : Failure} {network : σ}
      (h : Network.dial client.endpoint a.before.network = .error e network)
      (houtcome : a.outcome = .error e) (hfinal : a.final = { network })
  | dropped {e : Failure} {network : σ}
      (h : client.conversation a.before.connected requests a.before.network = .error e network)
      (houtcome : a.outcome = .error e) (hfinal : a.final = { network := Network.close network })

theorem answered_of_made {replies : List Reply} {after : Session σ} (h : a.Made client requests)
    (hattempt : client.attempt requests a.before = .ok replies after) :
    a.outcome = .ok replies ∧ a.final = after := by
  obtain ⟨before, outcome, after'⟩ := a
  rw [Attempt.Made, hattempt] at h
  cases outcome <;> cases h
  exact ⟨rfl, rfl⟩

theorem failed_of_made {e : Failure} {after : Session σ} (h : a.Made client requests)
    (hattempt : client.attempt requests a.before = .error e after) :
    a.outcome = .error e ∧ a.final = after.close := by
  obtain ⟨before, outcome, after'⟩ := a
  rw [Attempt.Made, hattempt] at h
  cases outcome <;> cases h
  exact ⟨rfl, rfl⟩

/-- Once a connection is held, the round decides. -/
theorem concluded_of_connect {network : σ} (h : a.Made client requests)
    (hopen : inOrder (client.openingFrom a.before.connected) a.before.network = .ok () network)
    (hconnect : client.connect a.before = .ok () { network, connected := true }) :
    Concluded client requests a := by
  have hconversation : client.conversation a.before.connected requests a.before.network =
      round requests network := by
    rw [conversation, Act.bind_apply, hopen]
  have hattempt : client.attempt requests a.before =
      Session.onNetwork (round requests) { network, connected := true } := by
    rw [attempt, Act.bind_apply, hconnect]
    exact onConnection_of_connected rfl
  rw [Session.onNetwork] at hattempt
  cases hround : round requests network with
  | ok replies network' =>
      rw [hround] at hattempt
      obtain ⟨houtcome, hfinal⟩ := answered_of_made h hattempt
      exact .answered (hconversation.trans hround) houtcome hfinal
  | error e network' =>
      rw [hround] at hattempt
      obtain ⟨houtcome, hfinal⟩ := failed_of_made h hattempt
      exact .dropped (hconversation.trans hround) houtcome hfinal

theorem concluded_of_made (h : a.Made client requests) : Concluded client requests a := by
  by_cases hheld : a.before.connected = true
  · obtain ⟨⟨network, connected⟩, outcome, after⟩ := a
    cases hheld
    exact concluded_of_connect h rfl (connect_of_connected rfl)
  · have hclosed : a.before.connected = false := by simpa using hheld
    have hfrom : client.openingFrom a.before.connected = client.opening := by
      rw [openingFrom, if_neg hheld]
    cases hopen : inOrder client.opening a.before.network with
    | ok _ network =>
        exact concluded_of_connect h (hfrom ▸ hopen)
          ((connect_eq_ok_iff hclosed).mpr ⟨network, inOrder_eq_ok_iff.mp hopen, rfl⟩)
    | error e network =>
        obtain ⟨done, stage, e', hstops, rfl⟩ := inOrder_eq_error_iff.mp hopen
        have hconnect := (connect_eq_error_iff hclosed).mpr
          ⟨done, stage, e', network, hstops, rfl, rfl⟩
        have hattempt : client.attempt requests a.before =
            .error (stage.report e') { network := if done.isEmpty then network
                                                  else Network.close network } := by
          rw [attempt, Act.bind_apply, hconnect]
        obtain ⟨houtcome, hfinal⟩ := failed_of_made h hattempt
        rw [Session.close_of_connected_eq_false rfl] at hfinal
        cases done with
        | nil =>
            obtain ⟨later, u, hstages, hnone, hfails⟩ := hstops
            cases hnone
            cases hstages
            have hdial : Network.dial client.endpoint a.before.network = .error e' network := hfails
            have hreport : Stage.report ⟨.dial client.endpoint, false⟩ e' = e' := by
              cases e' <;> rfl
            exact .undialed hdial (hreport ▸ houtcome) hfinal
        | cons first done =>
            refine .dropped ?_ houtcome hfinal
            rw [conversation, Act.bind_apply, hfrom, hopen]

end

/-! ## Attempts in a journal -/

section

variable {σ : Type} [Network σ] {client : Client} {requests : List Request}
  {session : Session (Journal σ)} {a last : Attempt (Journal σ)}
  {struck : List (Attempt (Journal σ))}

/-- The calls of an attempt in order, if none of them fails. -/
def attemptPlan (client : Client) (held : Bool) (requests : List Request) : List Call :=
  (client.openingFrom held).map Stage.call ++ roundPlan requests

theorem makes_conversation (client : Client) (held : Bool) (requests : List Request) :
    Makes (σ := σ) (client.attemptPlan held requests) (client.conversation held requests) :=
  (makes_inOrder _).bind fun _ => makes_round requests

/-- The calls that an attempt makes at most: the dial, two questions of three calls on the new
connection, and the round. -/
def callLimit (requests : List Request) : Nat :=
  7 + (requests.length + (1 + requests.length))

theorem length_openingFrom_le (client : Client) (held : Bool) :
    (client.openingFrom held).length ≤ 7 := by
  rw [openingFrom]
  split
  · exact Nat.zero_le 7
  · rw [opening, secretRequests]
    cases client.endpoint.password with
    | none => simp [asking]
    | some password => by_cases h : password = "" <;> simp [h, asking]

theorem length_attemptPlan_le (client : Client) (held : Bool) (requests : List Request) :
    (client.attemptPlan held requests).length ≤ callLimit requests := by
  have hopening := length_openingFrom_le client held
  simp only [attemptPlan, roundPlan, List.length_append, List.length_map, List.length_singleton,
    List.length_replicate, callLimit]
  omega

/-- What an attempt and its end write down. Where a reply could not be received, that was the
last call, the attempt fails for it, and the connection is given up. -/
theorem exists_logged_of_made (h : a.Made client requests) :
    ∃ events, Logged (callLimit requests) a.before.network a.final.network events ∧
      ∀ e, (∀ text, e ≠ .server text) → .receive (.error e) ∈ events →
        a.outcome = .error e ∧ ∃ earlier, (∀ event ∈ earlier, event.failure? = none) ∧
          events = earlier ++ [.receive (.error e), .close] := by
  have hmakes := makes_conversation client a.before.connected requests a.before.network
  have hlimit := length_attemptPlan_le client a.before.connected requests
  cases concluded_of_made h with
  | answered hok houtcome hfinal =>
      rw [hok] at hmakes
      obtain ⟨calls, hlogged, hwell⟩ := hmakes.logged_ok hlimit
      rw [hfinal]
      refine ⟨calls, hlogged, fun e _ hmem => ?_⟩
      cases hwell _ hmem
  | undialed hdial houtcome hfinal =>
      have hcall := makes_make (.dial client.endpoint) a.before.network
      rw [Call.make, hdial] at hcall
      have hone : 1 ≤ callLimit requests := Nat.le_trans (by decide) (Nat.le_add_right 7 _)
      obtain ⟨calls, hlogged, -⟩ := hcall.logged_error hone
      have hevents := hlogged.events_eq
      rw [events_of_record_error hdial] at hevents
      cases List.append_cancel_left hevents
      rw [hfinal]
      refine ⟨_, hlogged, fun e' _ hmem => ?_⟩
      cases List.mem_singleton.mp hmem
  | dropped herror houtcome hfinal =>
      rw [herror] at hmakes
      obtain ⟨calls, hlogged, hblame⟩ := hmakes.logged_error hlimit
      rw [hfinal]
      refine ⟨calls ++ [.close], hlogged.append (logged_close _), ?_⟩
      intro e hserver hmem
      obtain ⟨rfl, earlier, hwell, rfl⟩ := hblame _ (by simpa using hmem) e rfl hserver
      exact ⟨houtcome, earlier, hwell, by simp⟩

/-- What was written down before the last attempt of a row. Whatever failed a receive then may
clear up on a new connection. -/
theorem InRow.exists_logged (h : InRow client requests session struck last) :
    ∃ events, Logged (struck.length * callLimit requests) session.network last.before.network
        events ∧
      ∀ e, (∀ text, e ≠ .server text) → .receive (.error e) ∈ events → e.isNetwork = true := by
  induction h with
  | last _ => exact ⟨[], ⟨(List.append_nil _).symm, Nat.zero_le _, .nil⟩, by simp⟩
  | @struck a last later e hmade hfailed hnetwork _ ih =>
      obtain ⟨events, hlogged, hblame⟩ := exists_logged_of_made hmade
      obtain ⟨more, hmore, hlater⟩ := ih
      have hfinal : a.final = a.after.close := by rw [Attempt.final, hfailed]
      rw [hfinal] at hlogged
      refine ⟨events ++ ([.pause client.policy.backoffMs] ++ more), ?_, ?_⟩
      · have hall := hlogged.append ((logged_pause client.policy.backoffMs _).append hmore)
        rwa [Nat.zero_add, Nat.add_comm, ← Nat.succ_mul] at hall
      · intro e' hserver hmem
        rcases List.mem_append.mp hmem with hmem | hmem
        · obtain ⟨houtcome, -⟩ := hblame e' hserver hmem
          rw [hfailed] at houtcome
          cases houtcome
          exact hnetwork
        · exact hlater e' hserver (by simpa using hmem)

/-- What a whole row and its end write down. The replies of a row that is answered are the last
ones received. -/
theorem InRow.exists_logged_final (h : InRow client requests session struck last) :
    ∃ events, Logged ((struck.length + 1) * callLimit requests) session.network last.final.network
        events ∧
      ∀ replies, last.outcome = .ok replies → replies <:+ received events := by
  obtain ⟨before, hbefore, -⟩ := h.exists_logged
  have hmade := h.made last (by simp)
  obtain ⟨calls, hcalls, -⟩ := exists_logged_of_made hmade
  have hall := hbefore.append hcalls
  rw [← Nat.succ_mul] at hall
  refine ⟨before ++ calls, hall, fun replies hreplies => ?_⟩
  rw [Attempt.Made, hreplies] at hmade
  obtain ⟨-, -, opening, hevents, -⟩ := events_of_attempt hmade
  have hfinal : last.final = last.after := by rw [Attempt.final, hreplies]
  rw [← hfinal, hcalls.events_eq, List.append_assoc] at hevents
  rw [List.append_cancel_left hevents, ← List.append_assoc, received_append_roundCalls]
  exact List.suffix_append _ _

/-- A run that asks for anything is a row of attempts, of which the last one decides. -/
theorem exists_inRow_of_run (client : Client) (hne : requests ≠ []) (session : Session (Journal σ)) :
    ∃ struck last, InRow client requests session struck last ∧
      struck.length ≤ client.policy.maxRetries ∧
        client.run requests session = Act.ofExcept last.outcome last.final := by
  obtain ⟨struck, last, hrow, hwithin, -, hresult⟩ :=
    exists_inRow client requests client.policy.maxRetries session
  refine ⟨struck, last, hrow, hwithin, ?_⟩
  rw [run, if_neg (by simpa using hne)]
  exact hresult

end

end Client

end RespClient
