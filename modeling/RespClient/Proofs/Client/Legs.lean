import RespClient.Proofs.Client.Attempts
import RespClient.Proofs.Network.Serving
import RespClient.Proofs.Portion

/-!
# The legs of a walk

A walk goes in legs: it asks with a cursor, again after each failure of the network, and the
reply tells it the cursor to ask with next. It ends with the first reply that tells cursor 0 or
is refused, and what else the network would bring stays where it is.
-/

namespace RespClient.Client

open Journal

/-! ## Rounds that are answered -/

section

variable {σ : Type} [Network σ] {client : Client} {requests : List Request}
  {session : Session σ} {struck : List (Attempt σ)} {last : Attempt σ} {replies : List Reply}

/-- A row of attempts that ends with an answer is a run, if there are retries enough. -/
theorem InRow.attemptUpTo_eq (h : InRow client requests session struck last)
    (hanswered : last.outcome = .ok replies) {retries : Nat} (hwithin : struck.length ≤ retries) :
    client.attemptUpTo requests retries session = .ok replies last.after := by
  -- each attempt that the network ended uses up one retry
  induction h generalizing retries with
  | last hmade =>
      rw [Attempt.Made, hanswered] at hmade
      exact attemptUpTo_of_ok hmade retries
  | struck hmade hfailed hnetwork _ ih =>
      rw [Attempt.Made, hfailed] at hmade
      cases retries with
      | zero => simp at hwithin
      | succ retries =>
          rw [attemptUpTo_succ_of_error hmade, if_pos hnetwork]
          exact ih hanswered (Nat.le_of_succ_le_succ hwithin)

/-- Whatever is asked, the network brings these replies, one after the other. It may end some
attempts before each of them, though no more than the client makes up for. -/
def Brings (client : Client) : List Reply → Session σ → Prop
  | [], _ => True
  | reply :: replies, session => ∀ (request : Request) (bytes : Bytes),
      request.encode = .ok bytes →
        ∃ struck last, InRow client [request] session struck last ∧
          struck.length ≤ client.policy.maxRetries ∧ last.outcome = .ok [reply] ∧
            client.Brings replies last.after

/-- A client that is served is brought the replies without a failure. -/
theorem brings_of_served (h : client.Served replies session) : client.Brings replies session := by
  induction replies generalizing session with
  | nil => exact trivial
  | cons reply replies ih =>
      intro request bytes hencode
      obtain ⟨ready, hconnect, P, hP, hready⟩ := h
      have hready : P 0 0 ([reply] ++ replies) ready.network := hready
      obtain ⟨network, hround, hnetwork⟩ :=
        hP.round (List.forall_mem_singleton.mpr ⟨bytes, hencode⟩) rfl hready
      have hmade : Attempt.Made client [request]
          ⟨session, .ok [reply], { network, connected := true }⟩ :=
        attempt_of_round hconnect hround
      exact ⟨[], _, InRow.last hmade, Nat.zero_le _, rfl,
        ih (served_of_connected rfl ⟨P, hP, hnetwork⟩)⟩

end

/-! ## Legs -/

/-- A leg of a walk: the cursor to ask with, the attempts that the network ended, the last
attempt, and the reply to it. -/
structure Leg (σ : Type) where
  cursor : UInt64
  struck : List (Attempt σ)
  last : Attempt σ
  reply : Reply

section

variable {σ : Type} [Network σ] {client : Client} {ask : UInt64 → Request}
  {session after : Session σ}

/-- Legs that follow on each other. All attempts of a leg ask with its cursor. -/
inductive Legs (client : Client) (ask : UInt64 → Request) :
    Session σ → List (Leg σ) → Session σ → Prop where
  | nil {session : Session σ} : Legs client ask session [] session
  | cons {leg : Leg σ} {legs : List (Leg σ)} {session after : Session σ}
      (hrow : InRow client [ask leg.cursor] session leg.struck leg.last)
      (hwithin : leg.struck.length ≤ client.policy.maxRetries)
      (hanswered : leg.last.outcome = .ok [leg.reply])
      (hlater : Legs client ask leg.last.after legs after) :
      Legs client ask session (leg :: legs) after

variable {command : String} {key : Key} {count : Nat} {reply : Reply} {rest : List Reply}

theorem exists_encode_pageRequest (command : String) (key : Bytes) (cursor : UInt64)
    (count : Nat) : ∃ bytes, (pageRequest command key cursor count).encode = .ok bytes := by
  refine ⟨_, Request.encode_eq_spelled ?_⟩
  simp [pageRequest, Reply.ofText, Reply.isArgument]

/-- What becomes of a walk with the reply of a leg. -/
def takeIn (client : Client) (command : String) (key : Key) (count rounds : Nat) (state : Walk)
    (reply : Reply) : Act (Session σ) (Option FieldMap) := do
  let next ← Act.ofExcept (state.judge key.type command reply)
  if next.cursor = 0 then pure (some next.entries)
  else client.walk command key count rounds next

theorem takeIn_portion (client : Client) (command : String) (count rounds : Nat) (state : Walk)
    (portion : Portion key.type) (session : Session σ) :
    client.takeIn command key count rounds state portion.reply session =
      if portion.next = 0 then .ok (some (state.past portion).entries) session
      else client.walk command key count rounds (state.past portion) session := by
  rw [takeIn, Act.bind_apply, Walk.judge_portion, Act.ofExcept_ok]
  dsimp only
  rw [Walk.past]
  split <;> rfl

theorem takeIn_of_refused {e : Failure} (h : Refused key.type command reply e) (client : Client)
    (count rounds : Nat) (state : Walk) (session : Session σ) :
    client.takeIn command key count rounds state reply session = .error e session := by
  rw [takeIn, Act.bind_apply, Walk.judge_of_refused h, Act.ofExcept_error]

theorem walk_of_run {state : Walk}
    (h : client.run [pageRequest command key.bytes state.cursor count] session =
      .ok [reply] after) (rounds : Nat) :
    client.walk command key count (rounds + 1) state session =
      client.takeIn command key count rounds state reply after := by
  rw [walk, Act.bind_apply, execute, Act.bind_apply, h, takeIn, Act.bind_apply, Walk.judge]
  dsimp only
  cases reply.answer with
  | error e => rfl
  | ok reply => exact Act.bind_apply _ _ after

theorem scan_eq_walk (hcommand : key.type.scanCommand? = some command) (count rounds : Nat)
    (session : Session σ) :
    client.scan key count rounds session = client.walk command key count rounds {} session := by
  rw [scan, hcommand]

/-- One leg, whatever comes of it. -/
theorem exists_leg (command : String) (count : Nat) (state : Walk)
    (h : client.Brings (reply :: rest) session) :
    ∃ leg : Leg σ, leg.cursor = state.cursor ∧ leg.reply = reply ∧
      (∀ later after,
        Legs client (pageRequest command key.bytes · count) leg.last.after later after →
          Legs client (pageRequest command key.bytes · count) session (leg :: later) after) ∧
      client.Brings rest leg.last.after ∧
        ∀ rounds, client.walk command key count (rounds + 1) state session =
          client.takeIn command key count rounds state reply leg.last.after := by
  obtain ⟨bytes, hencode⟩ := exists_encode_pageRequest command key.bytes state.cursor count
  obtain ⟨struck, last, hrow, hwithin, hanswered, hrest⟩ := h _ _ hencode
  exact ⟨⟨state.cursor, struck, last, reply⟩, rfl, rfl,
    fun _ _ hlater => .cons hrow hwithin hanswered hlater, hrest,
    walk_of_run (hrow.attemptUpTo_eq hanswered hwithin)⟩

/-- Portions move a walk on, and then one more reply is taken in. -/
theorem exists_legs (command : String) (count : Nat) {portions : List (Portion key.type)}
    (hportions : ∀ portion ∈ portions, portion.next ≠ 0) (state : Walk)
    (h : client.Brings (portions.map Portion.reply ++ reply :: rest) session) :
    ∃ legs after, Legs client (pageRequest command key.bytes · count) session legs after ∧
      legs.map Leg.cursor = state.cursor :: portions.map Portion.next ∧
        legs.map Leg.reply = portions.map Portion.reply ++ [reply] ∧
          client.Brings rest after ∧
            ∀ rounds, client.walk command key count (portions.length + rounds + 1) state session =
              client.takeIn command key count rounds (portions.foldl Walk.past state) reply
                after := by
  -- each portion moves the walk on, so its state is general
  induction portions generalizing state session with
  | nil =>
      obtain ⟨leg, hcursor, hreply, hleg, hrest, hwalk⟩ := exists_leg command count state h
      refine ⟨[leg], _, hleg _ _ .nil, ?_, ?_, hrest, ?_⟩
      · rw [List.map_singleton, hcursor]
        rfl
      · rw [List.map_singleton, hreply]
        rfl
      · intro rounds
        rw [List.length_nil, Nat.zero_add]
        exact hwalk rounds
  | cons portion portions ih =>
      obtain ⟨hportion, hportions⟩ := List.forall_mem_cons.mp hportions
      obtain ⟨leg, hcursor, hreply, hleg, hnext, hwalk⟩ := exists_leg command count state h
      obtain ⟨legs, after, hlegs, hcursors, hreplies, hrest, hwalks⟩ :=
        ih hportions (state.past portion) hnext
      refine ⟨leg :: legs, after, hleg _ _ hlegs, ?_, ?_, hrest, ?_⟩
      · rw [List.map_cons, hcursor, hcursors]
        rfl
      · rw [List.map_cons, hreply, hreplies]
        rfl
      · intro rounds
        have hlength : (portion :: portions).length + rounds + 1 =
            (portions.length + rounds + 1) + 1 := by
          rw [List.length_cons]
          omega
        rw [hlength, hwalk, takeIn_portion, if_neg hportion, hwalks, List.foldl_cons]

end

/-! ## Walks in a journal -/

section

variable {σ : Type} [Network σ] {client : Client} {ask : UInt64 → Request} {command : String}
  {key : Key} {count : Nat} {session after : Session (Journal σ)}
  {legs : List (Leg (Journal σ))} {cursors : List UInt64} {replies rest : List Reply}

/-- What a walk has done from one session to another: it asked with these cursors, one to a leg,
and got these replies. The network is left with the `rest`. -/
structure Walked (client : Client) (command : String) (key : Key) (count : Nat)
    (session after : Session (Journal σ)) (legs : List (Leg (Journal σ))) (cursors : List UInt64)
    (replies rest : List Reply) : Prop where
  row : Legs client (pageRequest command key.bytes · count) session legs after
  cursors_eq : legs.map Leg.cursor = cursors
  replies_eq : legs.map Leg.reply = replies
  asked : ∀ leg ∈ legs, ∃ opening,
    leg.last.after.network.events = leg.last.before.network.events ++ opening ++
      roundCalls [{
        command
        args := [.bulk key.bytes, .ofText (Decimal.text leg.cursor.toNat), .ofText "count",
          .ofText (Decimal.text count)] }] [leg.reply] ∧
    opening.filterMap Event.call? =
      if leg.last.before.connected then [] else client.opening.map Network.Stage.call
  unread : client.Brings rest after

theorem Legs.asked (h : Legs client ask session legs after) :
    ∀ leg ∈ legs, leg.last.after.connected = true ∧ ∃ opening,
      leg.last.after.network.events = leg.last.before.network.events ++ opening ++
        roundCalls [ask leg.cursor] [leg.reply] ∧
      opening.filterMap Event.call? =
        if leg.last.before.connected then [] else client.opening.map Network.Stage.call := by
  induction h with
  | nil => simp
  | @cons leg legs session after hrow _ hanswered _ ih =>
      refine List.forall_mem_cons.mpr ⟨?_, ih⟩
      have hmade := hrow.made leg.last (by simp)
      rw [Attempt.Made, hanswered] at hmade
      obtain ⟨hconnected, -, hevents⟩ := events_of_attempt hmade
      exact ⟨hconnected, hevents⟩

theorem Legs.last (h : Legs client ask session legs after) (hne : legs ≠ []) :
    ∃ leg ∈ legs, leg.last.after = after := by
  induction h with
  | nil => exact absurd rfl hne
  | @cons leg legs session after _ _ _ hlater ih =>
      cases legs with
      | nil =>
          cases hlater
          exact ⟨leg, List.mem_cons_self, rfl⟩
      | cons next legs =>
          obtain ⟨last, hmem, hlast⟩ := ih (List.cons_ne_nil _ _)
          exact ⟨last, List.mem_cons_of_mem _ hmem, hlast⟩

theorem walked_of_legs (h : Legs client (pageRequest command key.bytes · count) session legs after)
    (hcursors : legs.map Leg.cursor = cursors) (hreplies : legs.map Leg.reply = replies)
    (hrest : client.Brings rest after) :
    Walked client command key count session after legs cursors replies rest :=
  ⟨h, hcursors, hreplies, fun leg hleg => (h.asked leg hleg).2, hrest⟩

/-- Portions that do not end a walk leave it unfinished. -/
theorem exists_walked_unfinished (hcommand : key.type.scanCommand? = some command)
    {portions : List (Portion key.type)} (hportions : ∀ portion ∈ portions, portion.next ≠ 0)
    (h : client.Brings (portions.map Portion.reply ++ rest) session) :
    ∃ legs after, Walked client command key count session after legs
        (0 :: portions.map Portion.next).dropLast (portions.map Portion.reply) rest ∧
      client.scan key count portions.length session = .ok none after := by
  rw [scan_eq_walk hcommand]
  -- the last portion is the reply that `exists_legs` takes in behind the others
  rcases List.eq_nil_or_concat portions with rfl | ⟨before, portion, rfl⟩
  · exact ⟨[], session, walked_of_legs .nil rfl rfl h, rfl⟩
  · rw [List.concat_eq_append] at hportions h ⊢
    obtain ⟨hbefore, hportion⟩ := List.forall_mem_append.mp hportions
    rw [List.map_append, List.append_assoc] at h
    obtain ⟨legs, after, hlegs, hcursors, hreplies, hrest, hwalk⟩ :=
      exists_legs command count hbefore {} h
    refine ⟨legs, after, walked_of_legs hlegs ?_ ?_ hrest, ?_⟩
    · rw [hcursors, List.map_append, List.map_singleton, ← List.cons_append,
        List.dropLast_concat]
    · rw [hreplies, List.map_append, List.map_singleton]
    · rw [List.length_append, List.length_singleton]
      refine (hwalk 0).trans ?_
      rw [takeIn_portion, if_neg (hportion portion (List.mem_singleton_self portion)), walk,
        Act.pure_apply]

/-- Portions move a walk on, asking with the cursor of the last one each time, and it is not over
as long as none of them tells cursor 0. With the first that does it is over: it has found, under
each field that the portions list, the payload that they list last. -/
theorem scan_portions (client : Client) {key : Key} {command : String}
    (hcommand : key.type.scanCommand? = some command) (count : Nat)
    {earlier : List (Portion key.type)} (hearlier : ∀ portion ∈ earlier, portion.next ≠ 0)
    {session : Session (Journal σ)} {rest : List Reply} :
    (client.Brings (earlier.map Portion.reply ++ rest) session →
      ∃ legs after, Walked client command key count session after legs
          (0 :: earlier.map Portion.next).dropLast (earlier.map Portion.reply) rest ∧
        client.scan key count earlier.length session = .ok none after) ∧
    ∀ {last : Portion key.type}, last.next = 0 →
      client.Brings ((earlier ++ [last]).map Portion.reply ++ rest) session →
        ∃ legs after found, Walked client command key count session after legs
            (0 :: earlier.map Portion.next) ((earlier ++ [last]).map Portion.reply) rest ∧
          (∀ rounds, earlier.length < rounds →
            client.scan key count rounds session = .ok (some found) after) ∧
          Collected (earlier ++ [last]) found := by
  refine ⟨exists_walked_unfinished hcommand hearlier, fun {last} hlast h => ?_⟩
  rw [List.map_append, List.append_assoc] at h
  obtain ⟨legs, after, hlegs, hcursors, hreplies, hrest, hwalk⟩ :=
    exists_legs command count hearlier {} h
  refine ⟨legs, after, ((earlier ++ [last]).foldl Walk.past {}).entries,
    walked_of_legs hlegs hcursors ?_ hrest, ?_, Walk.collected_foldl_past _⟩
  · rw [hreplies, List.map_append, List.map_singleton]
  · intro rounds hrounds
    obtain ⟨more, rfl⟩ := Nat.exists_eq_add_of_lt hrounds
    rw [scan_eq_walk hcommand, hwalk, takeIn_portion, if_pos hlast, List.foldl_append,
      List.foldl_cons, List.foldl_nil]

end

/-! ## A walk that the network strikes in between -/

theorem attempt_of_connect {σ : Type} [Network σ] {client : Client} {session ready : Session σ}
    (h : client.connect session = .ok () ready) (requests : List Request) :
    client.attempt requests session = client.attempt requests ready := by
  rw [attempt, Act.bind_apply, Act.bind_apply, h, connect_of_connected (connected_of_connect h)]

/-- An open connection of a script on which receiving is to come to these outcomes. -/
def openOn (outcomes : List (Except Failure Reply)) (events : List Event) :
    Session (Journal Script) where
  network := { state := { replies := outcomes }, events }
  connected := true

/-- One question uses up one outcome, whatever it is. -/
theorem exists_attempt_openOn (client : Client) {request : Request} {bytes : Bytes}
    (hencode : request.encode = .ok bytes) (outcome : Except Failure Reply)
    (later : List (Except Failure Reply)) (events : List Event) :
    ∃ seen, Attempt.Made client [request]
      ⟨openOn (outcome :: later) events, outcome.map fun reply => [reply], openOn later seen⟩ := by
  have hsend : Network.send request (openOn (outcome :: later) events).network = .ok ()
      (openOn (outcome :: later) (events ++ [.send request (.ok ())])).network := by
    apply record_of_ok
    show Script.send request _ = _
    rw [Script.send, hencode]
    rfl
  have hround : Network.round [request] (openOn (outcome :: later) events).network =
      Act.ofExcept (outcome.map fun reply => [reply])
        (openOn later (events ++ [.send request (.ok ())] ++ [.flush (.ok ())] ++
          [.receive outcome])).network := by
    rw [Network.round, Network.sendAll, Act.bind_apply, Act.bind_apply, hsend]
    cases outcome <;> rfl
  refine ⟨events ++ [.send request (.ok ())] ++ [.flush (.ok ())] ++ [.receive outcome], ?_⟩
  rw [Attempt.Made, attempt, Act.bind_apply, connect_of_connected rfl]
  dsimp only
  rw [onConnection_of_connected rfl, Session.onNetwork, hround]
  cases outcome <;> rfl

theorem brings_openOn_ok {client : Client} {reply : Reply} {replies : List Reply}
    {later : List (Except Failure Reply)}
    (h : ∀ seen, client.Brings replies (openOn later seen)) (events : List Event) :
    client.Brings (reply :: replies) (openOn (.ok reply :: later) events) := by
  intro request bytes hencode
  obtain ⟨seen, hmade⟩ := exists_attempt_openOn client hencode (.ok reply) later events
  exact ⟨[], _, InRow.last hmade, Nat.zero_le _, rfl, h seen⟩

theorem brings_openOn (client : Client) (replies : List Reply) (events : List Event) :
    client.Brings replies (openOn (replies.map .ok) events) := by
  induction replies generalizing events with
  | nil => exact trivial
  | cons reply replies ih => exact brings_openOn_ok ih events

/-- After a failure the patient client opens another connection, where the server lets it choose
its database, and asks again. -/
theorem brings_openOn_struck {e : Failure} (hnetwork : e.isNetwork = true) {reply : Reply}
    {replies : List Reply} {later : List (Except Failure Reply)}
    (h : ∀ seen, patient.Brings replies (openOn later seen)) (events : List Event) :
    patient.Brings (reply :: replies)
      (openOn (.error e :: .ok (.simple "OK") :: .ok reply :: later) events) := by
  intro request bytes hencode
  obtain ⟨seen, hstruck⟩ := exists_attempt_openOn patient hencode (.error e)
    (.ok (.simple "OK") :: .ok reply :: later) events
  obtain ⟨opened, hconnect⟩ : ∃ opened, patient.connect
      ((openOn (.ok (.simple "OK") :: .ok reply :: later) seen).close.pause
        patient.policy.backoffMs) = .ok () (openOn (.ok reply :: later) opened) := ⟨_, rfl⟩
  obtain ⟨seen', hmade⟩ := exists_attempt_openOn patient hencode (.ok reply) later opened
  have hanswered : Attempt.Made patient [request] ⟨_, .ok [reply], openOn later seen'⟩ :=
    (attempt_of_connect hconnect [request]).trans hmade
  exact ⟨[_], _, InRow.struck hstruck rfl hnetwork (InRow.last hanswered), Nat.le_add_left 1 1,
    rfl, h seen'⟩

/-- The key of a sorted set. -/
def scoresKey : Key where
  bytes := [107]
  type := .zset

/-- A member under a cursor that is written with a sign and a zero. -/
def signedPortion : Portion .zset where
  head := .simple "+07"
  next := 7
  shown := ⟨"+07".toList, rfl, .plus ⟨by decide, List.all_eq_true.mp (by decide), by decide⟩⟩
  items := [.simple "a", .bulk [49]]
  entries := [([97], some [49])]
  listed := rfl
  suited := by simp

/-- The member again, with another score, and one more. The cursor is the largest. -/
def largestPortion : Portion .zset where
  head := .bulk (ascii "18446744073709551615")
  next := 18446744073709551615
  shown := ⟨"18446744073709551615".toList, by decide,
    .bare ⟨by decide, List.all_eq_true.mp (by decide), by decide⟩⟩
  items := [.bulk [97], .bulk [50], .bulk [98], .bulk [51]]
  entries := [([97], some [50]), ([98], some [51])]
  listed := rfl
  suited := by simp

/-- Nothing more, and the cursor that ends the walk, written with three zeros. -/
def endingPortion : Portion .zset where
  head := .bulk [48, 48, 48]
  next := 0
  shown := ⟨['0', '0', '0'], rfl, .bare ⟨by decide, List.all_eq_true.mp (by decide), by decide⟩⟩
  items := []
  entries := []
  listed := FieldMap.lists_nil
  suited := by simp

/-- Three portions and a reply that nobody asked for; the network strikes after the first. -/
def struckBetween : Session (Journal Script) :=
  openOn [.ok signedPortion.reply, .error .timeout, .ok (.simple "OK"), .ok largestPortion.reply,
    .ok endingPortion.reply, .ok .null] []

theorem scan_portions_struckBetween :
    (∃ legs after, Walked patient "zscan" scoresKey 10 struckBetween after legs [0, 7]
        [signedPortion.reply, largestPortion.reply] [endingPortion.reply, .null] ∧
      patient.scan scoresKey 10 2 struckBetween = .ok none after) ∧
    (∃ legs after found, Walked patient "zscan" scoresKey 10 struckBetween after legs
        [0, 7, 18446744073709551615]
        [signedPortion.reply, largestPortion.reply, endingPortion.reply] [.null] ∧
      patient.scan scoresKey 10 100 struckBetween = .ok (some found) after ∧
        found[([97] : Bytes)]? = some (some [50])) ∧
    paused ((patient.scan scoresKey 10 100).left struckBetween).network.events = 1000 := by
  have hearlier : ∀ portion ∈ [signedPortion, largestPortion], portion.next ≠ 0 := by
    simp only [List.forall_mem_cons]
    exact ⟨by decide, by decide, by simp⟩
  have hbrings : patient.Brings
      [signedPortion.reply, largestPortion.reply, endingPortion.reply, .null] struckBetween :=
    brings_openOn_ok (brings_openOn_struck rfl
      (brings_openOn patient [endingPortion.reply, .null])) []
  have htwo : patient.Brings ([signedPortion, largestPortion].map Portion.reply ++
      [endingPortion.reply, .null]) struckBetween := hbrings
  have hthree : patient.Brings (([signedPortion, largestPortion] ++ [endingPortion]).map
      Portion.reply ++ [.null]) struckBetween := hbrings
  have hcommand : scoresKey.type.scanCommand? = some "zscan" := rfl
  refine ⟨(scan_portions patient hcommand 10 hearlier).1 htwo, ?_, by decide +kernel⟩
  obtain ⟨legs, after, found, hwalked, hscan, hcollected⟩ :=
    (scan_portions patient hcommand 10 hearlier).2 rfl hthree
  refine ⟨legs, after, found, hwalked, hscan 100 (by decide), ?_⟩
  exact (hcollected.last _ _).mpr
    ⟨[([97], some [49])], ([97], some [50]), [([98], some [51])], rfl, rfl, by simp⟩

end RespClient.Client
