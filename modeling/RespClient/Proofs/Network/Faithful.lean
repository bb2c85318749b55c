import RespClient.Network.Answering

/-!
# What a peer that answers by a function makes of a round

On an answering network a round comes to the peer's replies, or to the refusal of the
first request without bytes, unless the network strikes it. So does the opening of a
connection, if the peer refuses neither the secret nor the database.
-/

namespace RespClient

/-! ## Faithful actions -/

/-- An action comes to its `outcome`, and to a state as it should be where it succeeds;
unless all is `calm`, it may be struck instead. -/
inductive Faithful {σ α : Type} (calm : Prop) (post : σ → Prop) (outcome : Except Failure α) :
    EStateM.Result Failure σ α → Prop where
  | ok {a : α} {s : σ} (h : outcome = .ok a) (hs : post s) : Faithful calm post outcome (.ok a s)
  | error {e : Failure} {s : σ} (h : outcome = .error e) :
      Faithful calm post outcome (.error e s)
  | struck {e : Failure} {s : σ} (hcalm : ¬ calm) (he : e.isNetwork) :
      Faithful calm post outcome (.error e s)

namespace Faithful

variable {σ α β : Type} {calm : Prop} {post mid : σ → Prop} {s : σ}

/-- An action that should have succeeded was struck, and so is what it was a part of. -/
theorem of_error {τ : Type} {last : τ → Prop} {a : α} {outcome : Except Failure β} {e : Failure}
    {t : τ} (h : Faithful calm mid (.ok a) (.error e s)) :
    Faithful calm last outcome (.error e t) := by
  cases h with
  | error h => cases h
  | struck hcalm he => exact .struck hcalm he

/-- Faithful actions in a row. -/
theorem bind {act : Act σ α} {next : α → Act σ β} {outcome : Except Failure α}
    {after : α → Except Failure β} (h : Faithful calm mid outcome (act s))
    (hnext : ∀ a t, outcome = .ok a → mid t → Faithful calm post (after a) (next a t)) :
    Faithful calm post (outcome >>= after) ((act >>= next) s) := by
  rw [Act.bind_apply]
  cases hact : act s with
  | ok a t =>
      rw [hact] at h
      cases h with
      | ok ho hs =>
          rw [ho]
          exact hnext a t ho hs
  | error e t =>
      rw [hact] at h
      cases h with
      | error ho =>
          rw [ho]
          exact .error rfl
      | struck hcalm he => exact .struck hcalm he

theorem bind_ok {act : Act σ α} {next : α → Act σ β} {a : α} {outcome : Except Failure β}
    (h : Faithful calm mid (.ok a) (act s))
    (hnext : ∀ t, mid t → Faithful calm post outcome (next a t)) :
    Faithful calm post outcome ((act >>= next) s) := by
  have hrow : Faithful calm post (Except.ok a >>= fun _ => outcome) ((act >>= next) s) := by
    apply h.bind
    intro a' t ha ht
    cases ha
    exact hnext t ht
  exact hrow

theorem mapFailure {act : Act σ α} {outcome : Except Failure α} {f : Failure → Failure}
    (hf : ∀ e, e.isNetwork → (f e).isNetwork) (h : Faithful calm post outcome (act s)) :
    Faithful calm post (outcome.mapError f) (act.mapFailure f s) := by
  rw [Act.mapFailure]
  cases hact : act s with
  | ok a t =>
      rw [hact] at h
      cases h with
      | ok ho hs => exact .ok (by rw [ho]; rfl) hs
  | error e t =>
      rw [hact] at h
      cases h with
      | error ho => exact .error (by rw [ho]; rfl)
      | struck hcalm he => exact .struck hcalm (hf e he)

end Faithful

/-! ## Calls on an answering network -/

/-- Whether a request has bytes. -/
def check (request : Request) : Except Failure Unit :=
  request.encode.map fun _ => ()

def checkAll : List Request → Except Failure Unit
  | [] => .ok ()
  | request :: requests => do
      check request
      checkAll requests

/-- What a peer that answers by `f` replies to a round. -/
def answers (f : Request → Reply) (requests : List Request) : Except Failure (List Reply) := do
  checkAll requests
  pure (requests.map f)

theorem isNetwork_of_appendArgs {args : List Reply} {buffer after : Bytes} {e : Failure}
    (h : Request.appendArgs args buffer = .error e after) : e.isNetwork = false := by
  induction args generalizing buffer with
  | nil => cases h
  | cons arg args ih =>
      rw [Request.appendArgs] at h
      split at h
      · exact ih h
      · cases h
        rfl

theorem isNetwork_of_check {request : Request} {e : Failure} (h : check request = .error e) :
    e.isNetwork = false := by
  rw [check, Request.encode, Request.append] at h
  split at h
  · cases h
  · next happend =>
      cases h
      exact isNetwork_of_appendArgs happend

theorem isNetwork_of_checkAll {requests : List Request} {e : Failure}
    (h : checkAll requests = .error e) : e.isNetwork = false := by
  induction requests with
  | nil => cases h
  | cons request requests ih =>
      rw [checkAll] at h
      cases hc : check request with
      | ok _ =>
          rw [hc] at h
          exact ih h
      | error e' =>
          rw [hc] at h
          cases h
          exact isNetwork_of_check hc

/-- A round that the peer cannot be asked for is not the network's failure. -/
theorem isNetwork_of_answers {f : Request → Reply} {requests : List Request} {e : Failure}
    (h : answers f requests = .error e) : e.isNetwork = false := by
  rw [answers] at h
  cases hc : checkAll requests with
  | ok _ =>
      rw [hc] at h
      cases h
  | error e' =>
      rw [hc] at h
      cases h
      exact isNetwork_of_checkAll hc

namespace Answering

variable {f : Request → Reply} {calm : Prop} {network : Answering f} {α : Type}
  {queued : List Request} {pending : List Reply}

/-- What is under way on a connection. Nothing strikes it if all is `calm`. -/
structure Holds (calm : Prop) (queued : List Request) (pending : List Reply)
    (network : Answering f) : Prop where
  queued : network.queued = queued
  pending : network.pending = pending
  quiet : calm → network.Calm

theorem faithful_strike {call : Act (Answering f) α} {post : Answering f → Prop}
    {outcome : Except Failure α} (hquiet : calm → network.Calm)
    (h : Faithful calm post outcome
      (call { network with faults := fun n => network.faults (n + 1) })) :
    Faithful calm post outcome (strike call network) := by
  rw [strike]
  cases hfault : network.faults 0 with
  | some e =>
      refine .struck ?_ e.property
      intro hcalm
      rw [hquiet hcalm 0] at hfault
      cases hfault
  | none => exact h

theorem quiet_succ (hquiet : calm → network.Calm) :
    calm → ∀ n, network.faults (n + 1) = none :=
  fun hcalm n => hquiet hcalm (n + 1)

theorem faithful_dial (endpoint : Endpoint) (hquiet : calm → network.Calm) :
    Faithful calm (Holds calm [] []) (.ok ()) (Network.dial endpoint network) := by
  show Faithful _ _ _ (Answering.dial network)
  apply faithful_strike hquiet
  exact .ok rfl ⟨rfl, rfl, quiet_succ hquiet⟩

theorem faithful_send (h : Holds calm queued pending network) (request : Request) :
    Faithful calm (Holds calm (queued ++ [request]) pending) (check request)
      (Network.send request network) := by
  show Faithful _ _ _ (Answering.send request network)
  apply faithful_strike h.quiet
  rw [check]
  cases request.encode with
  | error e => exact .error rfl
  | ok bytes => exact .ok rfl ⟨by rw [h.queued], h.pending, quiet_succ h.quiet⟩

theorem faithful_flush (h : Holds calm queued pending network) :
    Faithful calm (Holds calm [] (pending ++ queued.map f)) (.ok ())
      (Network.flush network) := by
  show Faithful _ _ _ (Answering.flush network)
  apply faithful_strike h.quiet
  exact .ok rfl ⟨rfl, by rw [h.queued, h.pending], quiet_succ h.quiet⟩

theorem faithful_receive {reply : Reply} (h : Holds calm queued (reply :: pending) network) :
    Faithful calm (Holds calm queued pending) (.ok reply)
      (Network.receive network) := by
  show Faithful _ _ _ (Answering.receive network)
  apply faithful_strike h.quiet
  rw [h.pending]
  exact .ok rfl ⟨h.queued, rfl, quiet_succ h.quiet⟩

theorem faithful_sendAll (requests : List Request) (h : Holds calm queued pending network) :
    Faithful calm (Holds calm (queued ++ requests) pending) (checkAll requests)
      (Network.sendAll requests network) := by
  induction requests generalizing queued network with
  | nil => exact .ok rfl (by rw [List.append_nil]; exact h)
  | cons request requests ih =>
      apply (faithful_send h request).bind
      intro _ sent _ hsent
      have hrest := ih hsent
      rw [List.append_assoc, List.singleton_append] at hrest
      exact hrest

theorem faithful_receiveMany (replies : List Reply)
    (h : Holds calm queued (replies ++ pending) network) :
    Faithful calm (Holds calm queued pending) (.ok replies)
      (Network.receiveMany replies.length network) := by
  induction replies generalizing network with
  | nil => exact .ok rfl h
  | cons reply replies ih =>
      apply (faithful_receive h).bind_ok
      intro received hreceived
      apply (ih hreceived).bind_ok
      intro last hlast
      exact .ok rfl hlast

/-- A round on a connection with nothing under way comes to the peer's replies, and
leaves nothing under way. -/
theorem faithful_round (requests : List Request) (h : Holds calm [] [] network) :
    Faithful calm (Holds calm [] []) (answers f requests) (Network.round requests network) := by
  apply (faithful_sendAll requests h).bind
  intro _ sent _ hsent
  apply (faithful_flush hsent).bind_ok
  intro flushed hflushed
  have hunder : Holds calm [] (requests.map f ++ []) flushed := by
    rw [List.append_nil]
    exact hflushed
  have hreplies := faithful_receiveMany (requests.map f) hunder
  rw [List.length_map] at hreplies
  exact hreplies

/-! ## Connections -/

/-- The peer refuses neither the secret nor the database. -/
structure Welcomes (f : Request → Reply) (endpoint : Endpoint) (db : UInt32) : Prop where
  secret : ∀ secret, endpoint.secret? = some secret → ∀ text,
    f { command := endpoint.authMethod.command, args := [.ofText secret] } ≠ .error text
  database : ∀ text,
    f { command := "select", args := [.integer (Int64.ofNat db.toNat)] } ≠ .error text

theorem check_of_argument {command : String} {arg : Reply} {data : Bytes}
    (h : Request.argument? arg = some data) : check { command, args := [arg] } = .ok () := by
  simp only [check, Request.encode, Request.append, Request.appendArgs, h]
  rfl

theorem faithful_ask {request : Request} (hbytes : check request = .ok ())
    (hreply : ∀ text, f request ≠ .error text) (h : Holds calm [] [] network) :
    Faithful calm (Holds calm [] []) (.ok (f request)) (Network.ask request network) := by
  have hsend := faithful_send h request
  rw [hbytes] at hsend
  apply hsend.bind_ok
  intro sent hsent
  apply (faithful_flush hsent).bind_ok
  intro flushed hflushed
  apply (faithful_receive hflushed).bind_ok
  intro received hreceived
  rw [Reply.answer_eq_ok_iff.mpr ⟨rfl, hreply⟩]
  exact .ok rfl hreceived

theorem faithful_greet {endpoint : Endpoint} {db : UInt32} (hf : Welcomes f endpoint db)
    (h : Holds calm [] [] network) :
    Faithful calm (Holds calm [] []) (.ok ()) (Network.greet endpoint db network) := by
  have hselect : ∀ {network : Answering f}, Holds calm [] [] network →
      Faithful calm (Holds calm [] []) (.ok ()) (Network.select db network) := by
    intro network h
    apply (faithful_ask (check_of_argument rfl) hf.database h).bind_ok
    intro selected hselected
    exact .ok rfl hselected
  rw [Network.greet]
  cases hsecret : endpoint.secret? with
  | none => exact hselect h
  | some secret =>
      have hask := faithful_ask (check_of_argument rfl) (hf.secret secret hsecret) h
      have hauth : Faithful calm (Holds calm [] []) (.ok ())
          (Network.authenticate endpoint.authMethod secret network) := by
        refine (hask.mapFailure ?_).bind_ok fun _ ht => .ok rfl ht
        intro e he
        cases e <;> exact he
      exact hauth.bind_ok fun _ ht => hselect ht

theorem faithful_establish {endpoint : Endpoint} {db : UInt32} (hf : Welcomes f endpoint db)
    (hquiet : calm → network.Calm) :
    Faithful calm (Holds calm [] []) (.ok ()) (Network.establish endpoint db network) := by
  have hdial := faithful_dial endpoint hquiet
  rw [Network.establish]
  cases hd : Network.dial endpoint network with
  | error e dialed =>
      rw [hd] at hdial
      exact hdial.of_error
  | ok _ dialed =>
      rw [hd] at hdial
      cases hdial with
      | ok _ hdialed =>
          have hgreet := faithful_greet hf hdialed
          dsimp only
          cases hg : Network.greet endpoint db dialed with
          | error e greeted =>
              rw [hg] at hgreet
              exact hgreet.of_error
          | ok _ greeted =>
              rw [hg] at hgreet
              cases hgreet with
              | ok _ hgreeted => exact .ok rfl hgreeted

end Answering

end RespClient
