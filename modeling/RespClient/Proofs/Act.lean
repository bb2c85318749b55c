import RespClient.Failure

/-!
# What an action comes to and what it leaves

An action that may fail has an outcome, and it leaves a state either way. What holds of every
state that it leaves, if it held before, it keeps, and so do actions in a row.
-/

namespace RespClient

namespace Act

variable {σ α β : Type}

/-- What an action comes to, without the state it leaves. -/
def outcome (act : Act σ α) (s : σ) : Except Failure α :=
  match act s with
  | .ok a _ => .ok a
  | .error e _ => .error e

/-- The state that an action leaves, whether it succeeds or fails. -/
def left (act : Act σ α) (s : σ) : σ :=
  match act s with
  | .ok _ t => t
  | .error _ t => t

theorem left_of_ok {act : Act σ α} {a : α} {s t : σ} (h : act s = .ok a t) : act.left s = t := by
  rw [left, h]

theorem left_of_error {act : Act σ α} {e : Failure} {s t : σ} (h : act s = .error e t) :
    act.left s = t := by
  rw [left, h]

theorem ofExcept_inj {outcome outcome' : Except Failure α} {s t : σ}
    (h : ofExcept outcome s = ofExcept outcome' t) : outcome = outcome' ∧ s = t := by
  cases outcome <;> cases outcome' <;> cases h <;> exact ⟨rfl, rfl⟩

theorem left_of_eq_ofExcept {act : Act σ α} {outcome : Except Failure α} {s t : σ}
    (h : act s = ofExcept outcome t) : act.left s = t := by
  rw [left, h]
  cases outcome <;> rfl

theorem outcome_of_eq_ofExcept {act : Act σ α} {outcome : Except Failure α} {s t : σ}
    (h : act s = ofExcept outcome t) : act.outcome s = outcome := by
  rw [Act.outcome, h]
  cases outcome <;> rfl

/-- Why an action fails, if it does. -/
def failure? (act : Act σ α) (s : σ) : Option Failure :=
  match act s with
  | .ok _ _ => none
  | .error e _ => some e

theorem eq_error_of_failure? {act : Act σ α} {e : Failure} {s : σ}
    (h : act.failure? s = some e) : act s = .error e (act.left s) := by
  rw [failure?] at h
  rw [left]
  cases hact : act s with
  | ok a t => simp [hact] at h
  | error e' t =>
      rw [hact] at h
      cases h
      rfl

/-- What holds after the first of two actions, and after the second where the first
succeeds, holds after both. -/
theorem left_bind {P : σ → Prop} {act : Act σ α} {next : α → Act σ β} {s : σ}
    (h : P (act.left s)) (hnext : ∀ a t, act s = .ok a t → P t → P ((next a).left t)) :
    P ((act >>= next).left s) := by
  rw [left, bind_apply]
  cases hact : act s with
  | ok a t =>
      rw [left_of_ok hact] at h
      exact hnext a t hact h
  | error e t =>
      rw [left_of_error hact] at h
      exact h

theorem left_mapFailure (f : Failure → Failure) (act : Act σ α) (s : σ) :
    (act.mapFailure f).left s = act.left s := by
  rw [left, mapFailure, left]
  cases act s <;> rfl

theorem mapFailure_eq_ok_iff {f : Failure → Failure} {act : Act σ α} {a : α} {s t : σ} :
    act.mapFailure f s = .ok a t ↔ act s = .ok a t := by
  rw [mapFailure]
  cases act s <;> simp

/-- What holds of a state holds of the one that an action leaves, whether it succeeds
or fails. -/
structure Keeps (P : σ → Prop) (act : Act σ α) : Prop where
  ok : ∀ {s t : σ} {a : α}, P s → act s = .ok a t → P t
  error : ∀ {s t : σ} {e : Failure}, P s → act s = .error e t → P t

theorem keeps_of_left {P : σ → Prop} {act : Act σ α} (h : ∀ s, P s → P (act.left s)) :
    Keeps P act := by
  constructor
  · intro s t a hs ht
    exact left_of_ok ht ▸ h s hs
  · intro s t e hs ht
    exact left_of_error ht ▸ h s hs

theorem Keeps.left {P : σ → Prop} {act : Act σ α} (h : Keeps P act) {s : σ} (hs : P s) :
    P (act.left s) := by
  cases hact : act s with
  | ok a t =>
      rw [left_of_ok hact]
      exact h.ok hs hact
  | error e t =>
      rw [left_of_error hact]
      exact h.error hs hact

theorem keeps_ofExcept {P : σ → Prop} (outcome : Except Failure α) : Keeps P (ofExcept outcome) := by
  constructor
  · intro s t a hs h
    cases outcome <;> cases h
    exact hs
  · intro s t e hs h
    cases outcome <;> cases h
    exact hs

theorem Keeps.bind {P : σ → Prop} {act : Act σ α} {next : α → Act σ β} (h : Keeps P act)
    (hnext : ∀ a, Keeps P (next a)) : Keeps P (act >>= next) :=
  keeps_of_left fun _ hs => left_bind (h.left hs) fun a _ _ ht => (hnext a).left ht

theorem Keeps.mapFailure {P : σ → Prop} {act : Act σ α} (h : Keeps P act)
    (f : Failure → Failure) : Keeps P (act.mapFailure f) := by
  apply keeps_of_left
  intro s hs
  rw [left_mapFailure]
  exact h.left hs

end Act

end RespClient
