import RespClient.Proofs.Client.Opening

/-!
# Calls in order

What a client asks of a network it asks in one order of calls: those that open a connection, or
those of a round. It makes them one after the other and stops with the first that fails. So all
of them but the last have gone well, and a call that has failed is the last one and to blame for
the failure.
-/

namespace RespClient

/-- Why a call failed, if it did. -/
def Event.failure? : Event → Option Failure
  | .dial _ (.error e) | .send _ (.error e) | .flush (.error e) | .receive (.error e) => some e
  | _ => none

/-! ## What events do to a network -/

namespace Network

variable {σ : Type} [Network σ]

/-- A network goes from one state to another by what an event says. -/
inductive Happens : σ → Event → σ → Prop
  | dial {endpoint : Endpoint} {outcome : Except Failure Unit} {s t : σ}
      (h : Network.dial endpoint s = Act.ofExcept outcome t) : Happens s (.dial endpoint outcome) t
  | send {request : Request} {outcome : Except Failure Unit} {s t : σ}
      (h : Network.send request s = Act.ofExcept outcome t) : Happens s (.send request outcome) t
  | flush {outcome : Except Failure Unit} {s t : σ}
      (h : Network.flush s = Act.ofExcept outcome t) : Happens s (.flush outcome) t
  | receive {outcome : Except Failure Reply} {s t : σ}
      (h : Network.receive s = Act.ofExcept outcome t) : Happens s (.receive outcome) t
  | close {s : σ} : Happens s .close (Network.close s)
  | pause {ms : Nat} {s : σ} : Happens s (.pause ms) (Network.pause ms s)

/-- Some events in order lead from one state to another. -/
inductive Trail : σ → List Event → σ → Prop
  | nil {s : σ} : Trail s [] s
  | cons {event : Event} {events : List Event} {s t u : σ} (h : Happens s event t)
      (hlater : Trail t events u) : Trail s (event :: events) u

theorem Happens.trail {event : Event} {s t : σ} (h : Happens s event t) : Trail s [event] t :=
  .cons h .nil

theorem Trail.append {events more : List Event} {s t u : σ} (h : Trail s events t)
    (hmore : Trail t more u) : Trail s (events ++ more) u := by
  induction h with
  | nil => exact hmore
  | cons h _ ih => exact .cons h (ih hmore)

end Network

namespace Journal

open Network

variable {σ α β : Type} [Network σ] {journal : Journal σ} {plan later : List Call}

/-! ## Calls up to the first that fails -/

/-- What comes of the calls of a plan, made in order up to the first that fails: they are added
to the journal, all of them if nothing fails. A call that fails is to blame for the failure,
though what the server says may be reported as another one; where none fails a reply may still
be refused. -/
inductive Comes (plan : List Call) (journal : Journal σ) :
    EStateM.Result Failure (Journal σ) α → Prop
  | ok {a : α} {after : Journal σ} {calls : List Event}
      (hevents : after.events = journal.events ++ calls)
      (hplan : calls.map Event.call? = plan.map some)
      (hwell : ∀ call ∈ calls, call.failure? = none)
      (htrail : Trail journal.state calls after.state) : Comes plan journal (.ok a after)
  | refused {e : Failure} {after : Journal σ} {calls : List Event}
      (hevents : after.events = journal.events ++ calls)
      (hplan : calls.map Event.call? <+: plan.map some)
      (hwell : ∀ call ∈ calls, call.failure? = none)
      (htrail : Trail journal.state calls after.state) : Comes plan journal (.error e after)
  | failed {e e' : Failure} {after : Journal σ} {earlier : List Event} {last : Event}
      (hevents : after.events = journal.events ++ (earlier ++ [last]))
      (hplan : (earlier ++ [last]).map Event.call? <+: plan.map some)
      (hwell : ∀ call ∈ earlier, call.failure? = none) (hlast : last.failure? = some e')
      (hblame : e = e' ∨ ∃ text, e' = .server text)
      (htrail : Trail journal.state (earlier ++ [last]) after.state) :
      Comes plan journal (.error e after)

/-- An action makes the calls of a plan, up to the first that fails. -/
def Makes (plan : List Call) (act : Act (Journal σ) α) : Prop :=
  ∀ journal, Comes plan journal (act journal)

/-- What more calls come to after all of an earlier plan. -/
theorem Comes.after {middle : Journal σ} {calls : List Event}
    {result : EStateM.Result Failure (Journal σ) α} (h : Comes later middle result)
    (hevents : middle.events = journal.events ++ calls)
    (hplan : calls.map Event.call? = plan.map some)
    (hwell : ∀ call ∈ calls, call.failure? = none)
    (htrail : Trail journal.state calls middle.state) : Comes (plan ++ later) journal result := by
  have hbegins : ∀ {more : List Event}, more.map Event.call? <+: later.map some →
      (calls ++ more).map Event.call? <+: (plan ++ later).map some := by
    intro more hmore
    rw [List.map_append, List.map_append, hplan]
    exact (List.prefix_append_right_inj _).mpr hmore
  cases h with
  | ok hmore hplan' hwell' htrail' =>
      refine .ok ?_ ?_ (List.forall_mem_append.mpr ⟨hwell, hwell'⟩) (htrail.append htrail')
      · rw [hmore, hevents, List.append_assoc]
      · rw [List.map_append, List.map_append, hplan, hplan']
  | refused hmore hplan' hwell' htrail' =>
      refine .refused ?_ (hbegins hplan') (List.forall_mem_append.mpr ⟨hwell, hwell'⟩)
        (htrail.append htrail')
      rw [hmore, hevents, List.append_assoc]
  | failed hmore hplan' hwell' hlast hblame htrail' =>
      refine .failed ?_ ?_ (List.forall_mem_append.mpr ⟨hwell, hwell'⟩) hlast hblame ?_
      · rw [hmore, hevents, List.append_assoc, List.append_assoc]
      · rw [List.append_assoc]
        exact hbegins hplan'
      · rw [List.append_assoc]
        exact htrail.append htrail'

theorem Makes.bind {act : Act (Journal σ) α} {next : α → Act (Journal σ) β} (h : Makes plan act)
    (hnext : ∀ a, Makes later (next a)) : Makes (plan ++ later) (act >>= next) := by
  intro journal
  have hfirst := h journal
  have hbegins : plan.map some <+: (plan ++ later).map some := by
    rw [List.map_append]
    exact List.prefix_append _ _
  rw [Act.bind_apply]
  cases hact : act journal with
  | ok a middle =>
      rw [hact] at hfirst
      cases hfirst with
      | ok hevents hplan hwell htrail => exact (hnext a middle).after hevents hplan hwell htrail
  | error e after =>
      rw [hact] at hfirst
      cases hfirst with
      | refused hevents hplan hwell htrail =>
          exact .refused hevents (hplan.trans hbegins) hwell htrail
      | failed hevents hplan hwell hlast hblame htrail =>
          exact .failed hevents (hplan.trans hbegins) hwell hlast hblame htrail

theorem makes_ofExcept (outcome : Except Failure α) :
    Makes (σ := σ) [] (Act.ofExcept outcome) := by
  intro journal
  cases outcome with
  | ok a => exact .ok (List.append_nil _).symm rfl (by simp) .nil
  | error e => exact .refused (List.append_nil _).symm (List.prefix_refl _) (by simp) .nil

/-- Only what the server says is reported as another failure. -/
theorem Makes.report {act : Act (Journal σ) α} (h : Makes plan act) (stage : Stage) :
    Makes plan (act.mapFailure stage.report) := by
  intro journal
  have hact := h journal
  rw [Act.mapFailure]
  cases hresult : act journal with
  | ok a after =>
      rw [hresult] at hact
      exact hact
  | error e after =>
      rw [hresult] at hact
      cases hact with
      | refused hevents hplan hwell htrail => exact .refused hevents hplan hwell htrail
      | failed hevents hplan hwell hlast hblame htrail =>
          refine .failed hevents hplan hwell hlast ?_ htrail
          rcases hblame with rfl | hserver
          · cases e with
            | server text => exact .inr ⟨text, rfl⟩
            | _ => exact .inl rfl
          · exact .inr hserver

theorem makes_record {event : Except Failure α → Event} {call : Act σ α} {step : Call}
    (hcall : ∀ outcome, (event outcome).call? = some step)
    (hok : ∀ a, (event (.ok a)).failure? = none)
    (herror : ∀ e, (event (.error e)).failure? = some e)
    (hhappens : ∀ outcome s t, call s = Act.ofExcept outcome t → Happens s (event outcome) t) :
    Makes [step] (record event call) := by
  have hplan : ∀ outcome, [event outcome].map Event.call? = [step].map some := fun outcome =>
    congrArg List.singleton (hcall outcome)
  intro journal
  rw [record]
  cases h : call journal.state with
  | ok a state =>
      exact .ok rfl (hplan _) (List.forall_mem_singleton.mpr (hok a)) (hhappens (.ok a) _ _ h).trail
  | error e state =>
      have hnone : ∀ call ∈ ([] : List Event), call.failure? = none := by simp
      refine .failed ?_ ?_ hnone (herror e) (.inl rfl) (hhappens (.error e) _ _ h).trail
      · rfl
      · exact (hplan _) ▸ List.prefix_refl _

/-! ## The calls of a client -/

theorem makes_receive : Makes (σ := σ) [.answer] Network.receive :=
  makes_record (fun _ => rfl) (fun _ => rfl) (fun _ => rfl) fun _ _ _ => .receive

theorem makes_make (call : Call) : Makes (σ := σ) [call] call.make := by
  cases call with
  | dial endpoint =>
      exact makes_record (fun _ => rfl) (fun _ => rfl) (fun _ => rfl) fun _ _ _ => .dial
  | send request =>
      exact makes_record (fun _ => rfl) (fun _ => rfl) (fun _ => rfl) fun _ _ _ => .send
  | flush => exact makes_record (fun _ => rfl) (fun _ => rfl) (fun _ => rfl) fun _ _ _ => .flush
  | answer =>
      exact makes_receive.bind fun reply =>
        (makes_ofExcept reply.answer).bind fun _ => makes_ofExcept (.ok ())

theorem makes_inOrder (stages : List Stage) :
    Makes (σ := σ) (stages.map Stage.call) (inOrder stages) := by
  induction stages with
  | nil => exact makes_ofExcept (.ok ())
  | cons stage stages ih => exact ((makes_make stage.call).report stage).bind fun _ => ih

theorem makes_sendAll (requests : List Request) :
    Makes (σ := σ) (requests.map .send) (Network.sendAll requests) := by
  induction requests with
  | nil => exact makes_ofExcept (.ok ())
  | cons request requests ih => exact (makes_make (.send request)).bind fun _ => ih

theorem makes_receiveMany (n : Nat) :
    Makes (σ := σ) (List.replicate n .answer) (Network.receiveMany n) := by
  induction n with
  | zero => exact makes_ofExcept (.ok [])
  | succ n ih =>
      have h : Makes ([.answer] ++ (List.replicate n .answer ++ []))
          (Network.receiveMany (σ := Journal σ) (n + 1)) :=
        makes_receive.bind fun reply => ih.bind fun replies =>
          makes_ofExcept (.ok (reply :: replies))
      rwa [List.append_nil] at h

/-- The calls of a round. -/
def roundPlan (requests : List Request) : List Call :=
  requests.map .send ++ ([.flush] ++ List.replicate requests.length .answer)

theorem makes_round (requests : List Request) :
    Makes (σ := σ) (roundPlan requests) (Network.round requests) :=
  (makes_sendAll requests).bind fun _ => (makes_make .flush).bind fun _ => makes_receiveMany _

end Journal

end RespClient
