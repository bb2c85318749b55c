import RespClient.Proofs.Client.Legs

/-!
# Walks that fail on a reply

A type that cannot be walked is refused before the network is asked anything. A walk that is
under way fails with the first reply that is neither a portion nor an ending: the failure says
what is wrong with that reply, the entries found before it are lost, and the connection stays
open.
-/

namespace RespClient.Client

open Journal

variable {σ : Type} [Network σ]

/-- The reply to the last round that a walk is given fails it just if it is refused. -/
theorem takeIn_eq_error_iff {client : Client} {key : Key} {command : String} {count : Nat}
    {state : Walk} {reply : Reply} {e : Failure} {session : Session σ} :
    (client.takeIn command key count 0 state reply).outcome session = .error e ↔
      Refused key.type command reply e := by
  rw [← Walk.judge_eq_error_iff, Act.outcome, takeIn, Act.bind_apply]
  cases state.judge key.type command reply with
  | error e' => simp
  | ok next =>
      -- with no rounds left, a walk that could go on is unfinished, which is no failure
      by_cases hlast : next.cursor = 0
      · simp [hlast]
      · simp [hlast, walk]

theorem connected_of_legs {client : Client} {ask : UInt64 → Request}
    {session after : Session (Journal σ)} {legs : List (Leg (Journal σ))}
    (h : Legs client ask session legs after) (hne : legs ≠ []) : after.connected = true := by
  obtain ⟨leg, hleg, rfl⟩ := h.last hne
  exact (h.asked leg hleg).1

/-- A walk of a type that has no command for it does nothing but fail. Any other walk goes on
with portions until a reply is refused, which it fails with, however many rounds it is given;
the reply has been read, nothing is asked after it, and the connection is held. In the last
round it is given, a walk fails for no other reply. -/
theorem scan_refusals (client : Client) (key : Key) (count : Nat) :
    (key.type.scanCommand? = none → ∀ (rounds : Nat) (session : Session (Journal σ)),
      client.scan key count rounds session =
        .error (.conversion ("cannot scan a key of type " ++ key.type.name)) session) ∧
    ∀ {command : String}, key.type.scanCommand? = some command →
      ∀ {portions : List (Portion key.type)}, (∀ portion ∈ portions, portion.next ≠ 0) →
        ∀ {reply : Reply} {rest : List Reply} {session : Session (Journal σ)},
          client.Brings (portions.map Portion.reply ++ reply :: rest) session →
            ∃ legs after, Walked client command key count session after legs
                (0 :: portions.map Portion.next) (portions.map Portion.reply ++ [reply]) rest ∧
              after.connected = true ∧
              (∀ e, Refused key.type command reply e → ∀ rounds, portions.length < rounds →
                client.scan key count rounds session = .error e after) ∧
              ∀ e, (client.scan key count (portions.length + 1)).outcome session = .error e ↔
                Refused key.type command reply e := by
  constructor
  · intro hcommand rounds session
    rw [scan, hcommand]
    rfl
  · intro command hcommand portions hportions reply rest session h
    obtain ⟨legs, after, hlegs, hcursors, hreplies, hrest, hwalk⟩ :=
      exists_legs command count hportions {} h
    have hne : legs ≠ [] := by
      rintro rfl
      cases hcursors
    refine ⟨legs, after, walked_of_legs hlegs hcursors hreplies hrest,
      connected_of_legs hlegs hne, ?_, ?_⟩
    · intro e hrefused rounds hrounds
      obtain ⟨more, rfl⟩ := Nat.exists_eq_add_of_lt hrounds
      rw [scan_eq_walk hcommand, hwalk, takeIn_of_refused hrefused]
    · intro e
      have hlast := hwalk 0
      rw [Nat.add_zero, ← scan_eq_walk hcommand] at hlast
      rw [Act.outcome, hlast]
      exact takeIn_eq_error_iff

/-- A portion and then, behind a failure of the network, a reply whose cursor is no text and
whose items are not all strings. -/
def misread : Session (Journal Script) :=
  openOn [.ok signedPortion.reply, .error .timeout, .ok (.simple "OK"),
    .ok (.array [.integer 0, .array [.null]]), .ok .null] []

theorem scan_refusals_cursorFirst :
    patient.scan ⟨[107], .list⟩ 10 5 misread =
        .error (.conversion "cannot scan a key of type list") misread ∧
      ∃ legs after, Walked patient "zscan" scoresKey 10 misread after legs [0, 7]
          [signedPortion.reply, .array [.integer 0, .array [.null]]] [.null] ∧
        after.connected = true ∧
        patient.scan scoresKey 10 5 misread =
          .error (.unexpected "zscan returned Integer(0)") after := by
  have hportions : ∀ portion ∈ [signedPortion], portion.next ≠ 0 :=
    List.forall_mem_singleton.mpr (by decide)
  have hbrings : patient.Brings ([signedPortion].map Portion.reply ++
      .array [.integer 0, .array [.null]] :: [.null]) misread :=
    brings_openOn_ok (brings_openOn_struck rfl (brings_openOn patient [.null])) []
  have hrefused : Refused scoresKey.type "zscan" (.array [.integer 0, .array [.null]])
      (.unexpected "zscan returned Integer(0)") := by
    refine .cursor _ fun next => ?_
    rintro ⟨digits, hdigits, -⟩
    cases hdigits
  obtain ⟨legs, after, hwalked, hconnected, hfails, -⟩ :=
    (scan_refusals patient scoresKey 10).2 rfl hportions hbrings
  exact ⟨(scan_refusals patient ⟨[107], .list⟩ 10).1 rfl 5 misread, legs, after, hwalked,
    hconnected, hfails _ hrefused 5 (by decide)⟩

end RespClient.Client
