import Mathlib.Data.List.Forall2
import RespClient.Proofs.Network.Serving

/-!
# A batch is its questions one by one

A batch of questions sends in one round what its items would send one at a time, and has
the answers that they would have. Where some have none, the batch fails as the first of
them does; only contents are not judged before all replies are known to be no errors.
-/

namespace RespClient

/-! ## Outcomes in a row -/

/-- The first of some items that fails does so with `e`. -/
def FirstFailing {α β : Type} (outcome : α → Except Failure β) (items : List α) (e : Failure) :
    Prop :=
  ∃ earlier item later, items = earlier ++ item :: later ∧
    (∀ x ∈ earlier, ∃ b, outcome x = .ok b) ∧ outcome item = .error e

section

variable {α β γ : Type} {f : α → Except Failure β} {xs : List α}

/-- What comes to the outcomes of `f` in another form has the same first failure. -/
theorem FirstFailing.of_map {g : α → Except Failure γ} {form : β → γ} {e : Failure}
    (hg : ∀ x ∈ xs, g x = (f x).map form) (h : FirstFailing g xs e) : FirstFailing f xs e := by
  obtain ⟨earlier, item, later, rfl, hearlier, hitem⟩ := h
  refine ⟨earlier, item, later, rfl, ?_, ?_⟩
  · intro x hx
    obtain ⟨c, hc⟩ := hearlier x hx
    rw [hg x (by simp [hx])] at hc
    cases hf : f x with
    | ok b => exact ⟨b, rfl⟩
    | error e => simp [hf, Except.map] at hc
  · rw [hg item (by simp)] at hitem
    cases hf : f item with
    | ok b => simp [hf, Except.map] at hitem
    | error e => simpa [hf, Except.map] using hitem

theorem mapM_eq_ok_iff {ys : List β} :
    xs.mapM f = .ok ys ↔ List.Forall₂ (fun x y => f x = .ok y) xs ys := by
  induction xs generalizing ys with
  | nil =>
      rw [List.mapM_nil, List.forall₂_nil_left_iff]
      simp [pure, Except.pure, eq_comm]
  | cons x xs ih =>
      rw [List.mapM_cons, List.forall₂_cons_left_iff]
      cases hx : f x with
      | error e => simp [bind, Except.bind]
      | ok y =>
          cases hxs : xs.mapM f with
          | error e => simp [bind, Except.bind, ← ih, hxs]
          | ok rest => simp [bind, Except.bind, pure, Except.pure, ← ih, hxs, eq_comm]

theorem mapM_eq_error_of_firstFailing {e : Failure} (h : FirstFailing f xs e) :
    xs.mapM f = .error e := by
  obtain ⟨earlier, item, later, rfl, hearlier, hitem⟩ := h
  induction earlier with
  | nil =>
      rw [List.nil_append, List.mapM_cons, hitem]
      rfl
  | cons x earlier ih =>
      obtain ⟨b, hx⟩ := hearlier x List.mem_cons_self
      rw [List.cons_append, List.mapM_cons, hx,
        ih fun y hy => hearlier y (List.mem_cons_of_mem x hy)]
      rfl

theorem mapM_singleton (f : α → Except Failure β) (x : α) :
    [x].mapM f = (f x).map fun b => [b] := by
  rw [List.mapM_cons, List.mapM_nil]
  cases f x <;> rfl

theorem map_singleton_eq_ok_iff {outcome : Except Failure β} {b : β} :
    (outcome.map fun b => [b]) = .ok [b] ↔ outcome = .ok b := by
  cases outcome <;> simp [Except.map]

end

/-! ## Batches -/

/-- The batches that read the reply to each item by itself, by the types of the items and
of the answers. -/
inductive Batch : Type → Type → Type where
  | types : Batch Key String
  | exist : Batch Key Int64
  | lengths : Batch Key Int64
  | values : Batch Key Reply
  | areMembers (key : Bytes) : Batch Bytes Bool
  | scores (key : Bytes) : Batch Bytes (Option Bytes)

/-- The operation that asks a batch about some items. -/
def Batch.ask {ι α : Type} : Batch ι α → List ι → Operation (List α)
  | types, keys => .types keys
  | exist, keys => .exist keys
  | lengths, keys => .lengths keys
  | values, keys => .values keys
  | areMembers key, members => .areMembers key members
  | scores key, members => .scores key members

namespace Client

open Network Journal

variable {σ ι α : Type} [Network σ]

/-- A session with an open connection, and nothing written down yet. -/
def connectedTo (state : σ) : Session (Journal σ) :=
  { network := { state }, connected := true }

/-- What an operation comes to on an open connection. -/
def answerOn (client : Client) (op : Operation α) (state : σ) : Except Failure α :=
  (op.perform client).outcome (connectedTo state)

/-- The session after an operation on an open connection. -/
def sessionAfter (client : Client) (op : Operation α) (state : σ) : Session (Journal σ) :=
  (op.perform client).left (connectedTo state)

/-- A batch asks its questions as they are asked one by one, `alone x` being the network on
which the question `x` is asked by itself: the batch has the answers that they have, it sends
what they send and flushes once, it reads all replies and no more, and it keeps the
connection. -/
structure OneByOne (client : Client) (ask : List ι → Operation (List α))
    (asked : List (ι × Reply)) (rest : List Reply) (state : σ) (alone : ι × Reply → σ) :
    Prop where
  single : ∀ x ∈ asked, (∃ a, client.answerOn (ask [x.1]) (alone x) = .ok [a]) ∨
    ∃ e, client.answerOn (ask [x.1]) (alone x) = .error e
  answers : ∀ answers,
    List.Forall₂ (fun x a => client.answerOn (ask [x.1]) (alone x) = .ok [a]) asked answers →
      client.answerOn (ask (asked.map Prod.fst)) state = .ok answers
  calls : (client.sessionAfter (ask (asked.map Prod.fst)) state).network.events =
    if asked.isEmpty then []
    else roundCalls
      (asked.flatMap fun x => sent (client.sessionAfter (ask [x.1]) (alone x)).network.events)
      (asked.map Prod.snd)
  served : Serves rest (client.sessionAfter (ask (asked.map Prod.fst)) state).network.state
  connected : (client.sessionAfter (ask (asked.map Prod.fst)) state).connected = true

/-- Questions go through one round, a request for each item, and `judge` says what the
replies come to. -/
def InOneRound (σ : Type) [Network σ] (client : Client) (ask : List ι → Operation (List α))
    (request : ι → Request) (judge : List (ι × Reply) → Except Failure (List α)) : Prop :=
  ∀ (asked : List (ι × Reply)) (rest : List Reply) (state : σ),
    Serves (asked.map Prod.snd ++ rest) state →
      ∃ after : Journal σ,
        (ask (asked.map Prod.fst)).perform client (connectedTo state) =
          Act.ofExcept (judge asked) { network := after, connected := true } ∧
        Serves rest after.state ∧
        after.events = if asked.isEmpty then []
          else roundCalls (asked.map fun x => request x.1) (asked.map Prod.snd)

/-! ## One round -/

theorem run_connectedTo (client : Client) {requests : List Request} {replies rest : List Reply}
    {state : σ} (hbytes : ∀ request ∈ requests, ∃ bytes, request.encode = .ok bytes)
    (hlength : replies.length = requests.length) (hs : Serves (replies ++ rest) state) :
    ∃ after : Journal σ,
      client.run requests (connectedTo state) =
        .ok replies { network := after, connected := true } ∧
      Serves rest after.state ∧
      after.events = if requests.isEmpty then [] else roundCalls requests replies := by
  by_cases hne : requests = []
  · subst hne
    obtain rfl : replies = [] := List.eq_nil_of_length_eq_zero hlength
    exact ⟨{ state }, rfl, hs, rfl⟩
  · obtain ⟨P, hP, hstate⟩ := hs
    have hstart : P 0 0 (replies ++ rest) (connectedTo state).network.state := hstate
    obtain ⟨after, hround, hafter⟩ := (obliging hP).round hbytes hlength hstart
    refine ⟨after, run_of_round hne (connect_of_connected rfl) hround, ⟨P, hP, hafter⟩, ?_⟩
    rw [events_of_round hround, if_neg (by simpa using hne)]
    rfl

/-- Judging the replies of a run. -/
theorem inOneRound_of_run {client : Client} {ask : List ι → Operation (List α)}
    {request : ι → Request} {judge : List (ι × Reply) → Except Failure (List α)}
    {read : List ι → List Reply → Except Failure (List α)}
    (hbytes : ∀ item, ∃ bytes, (request item).encode = .ok bytes)
    (hperform : ∀ items, (ask items).perform client =
      (client.run (items.map request) >>= fun replies => Act.ofExcept (read items replies) :
        Act (Session (Journal σ)) (List α)))
    (hread : ∀ asked, read (asked.map Prod.fst) (asked.map Prod.snd) = judge asked) :
    InOneRound σ client ask request judge := by
  intro asked rest state hs
  have hmap : (asked.map Prod.fst).map request = asked.map fun x => request x.1 :=
    List.map_map
  have hall : ∀ r ∈ asked.map fun x => request x.1, ∃ bytes, r.encode = .ok bytes := by
    intro r hr
    obtain ⟨x, -, rfl⟩ := List.mem_map.mp hr
    exact hbytes x.1
  obtain ⟨after, hrun, hrest, hevents⟩ := run_connectedTo client hall (by simp) hs
  refine ⟨after, ?_, hrest, ?_⟩
  · rw [hperform, hmap, Act.bind_apply, hrun, ← hread]
  · rw [hevents]
    cases asked <;> rfl

section

variable {client : Client} {ask : List ι → Operation (List α)} {request : ι → Request}
  {judge : List (ι × Reply) → Except Failure (List α)} {asked : List (ι × Reply)}
  {rest : List Reply} {state : σ} {alone : ι × Reply → σ}

theorem answerOn_of_inOneRound (h : InOneRound σ client ask request judge)
    (hs : Serves (asked.map Prod.snd ++ rest) state) :
    client.answerOn (ask (asked.map Prod.fst)) state = judge asked := by
  obtain ⟨after, hperform, -, -⟩ := h asked rest state hs
  rw [answerOn, Act.outcome, hperform]
  cases judge asked <;> rfl

theorem sessionAfter_of_inOneRound (h : InOneRound σ client ask request judge)
    (hs : Serves (asked.map Prod.snd ++ rest) state) :
    ∃ after : Journal σ,
      client.sessionAfter (ask (asked.map Prod.fst)) state =
        { network := after, connected := true } ∧
      Serves rest after.state ∧
      after.events = if asked.isEmpty then []
        else roundCalls (asked.map fun x => request x.1) (asked.map Prod.snd) := by
  obtain ⟨after, hperform, hrest, hevents⟩ := h asked rest state hs
  refine ⟨after, ?_, hrest, hevents⟩
  rw [sessionAfter, Act.left, hperform]
  cases judge asked <;> rfl

/-- A question by itself sends its request. -/
theorem sent_of_inOneRound (h : InOneRound σ client ask request judge) {x : ι × Reply} {s : σ}
    (hs : Serves [x.2] s) :
    sent (client.sessionAfter (ask [x.1]) s).network.events = [request x.1] := by
  have hx : Serves ([x].map Prod.snd ++ []) s := hs
  obtain ⟨after, hafter, -, hevents⟩ := sessionAfter_of_inOneRound h hx
  have hsent := sent_append_roundCalls [] [request x.1] [x.2]
  rw [List.map_cons, List.map_nil] at hafter
  rw [hafter, hevents]
  exact hsent

/-- What a question comes to by itself. -/
theorem answerOn_alone (h : InOneRound σ client ask request judge) {x : ι × Reply} {s : σ}
    (hs : Serves [x.2] s) : client.answerOn (ask [x.1]) s = judge [x] := by
  have hx : Serves ([x].map Prod.snd ++ []) s := hs
  exact answerOn_of_inOneRound h hx

/-- It is enough that a question by itself comes to what `outcome` says, as one answer, and
that answers to all questions are the answers of the batch. -/
theorem oneByOne_of_inOneRound {outcome : ι × Reply → Except Failure α}
    (h : InOneRound σ client ask request judge)
    (hsingle : ∀ x, judge [x] = (outcome x).map fun a => [a])
    (hanswers : ∀ answers, List.Forall₂ (fun x a => outcome x = .ok a) asked answers →
      judge asked = .ok answers)
    (hs : Serves (asked.map Prod.snd ++ rest) state)
    (halone : ∀ x ∈ asked, Serves [x.2] (alone x)) :
    OneByOne client ask asked rest state alone := by
  have hjudge : ∀ x ∈ asked,
      client.answerOn (ask [x.1]) (alone x) = (outcome x).map fun a => [a] :=
    fun x hx => (answerOn_alone h (halone x hx)).trans (hsingle x)
  obtain ⟨after, hafter, hrest, hevents⟩ := sessionAfter_of_inOneRound h hs
  constructor
  · intro x hx
    rw [hjudge x hx]
    cases outcome x with
    | ok a => exact .inl ⟨a, rfl⟩
    | error e => exact .inr ⟨e, rfl⟩
  · intro answers hall
    rw [answerOn_of_inOneRound h hs]
    apply hanswers
    rw [List.forall₂_iff_get] at hall ⊢
    refine ⟨hall.1, fun i hi hi' => ?_⟩
    have hsame := hall.2 i hi hi'
    rw [hjudge _ (List.get_mem _ _)] at hsame
    exact map_singleton_eq_ok_iff.mp hsame
  · -- by itself each question sends the one request that it has in the batch
    have hsent : (asked.flatMap fun x =>
        sent (client.sessionAfter (ask [x.1]) (alone x)).network.events) =
          asked.map fun x => request x.1 := by
      rw [List.map_eq_flatMap]
      exact List.flatMap_congr fun x hx => sent_of_inOneRound h (halone x hx)
    rw [hafter, hevents, hsent]
  · rw [hafter]
    exact hrest
  · rw [hafter]

end

/-! ## The batches -/

theorem exists_encode_keyRequest {args : List Reply} (h : ∀ arg ∈ args, arg.isArgument)
    (command : String) (key : Bytes) :
    ∃ bytes, (keyRequest command key args).encode = .ok bytes := by
  refine ⟨_, Request.encode_eq_spelled ?_⟩
  intro arg harg
  rcases List.mem_cons.mp harg with rfl | harg
  · rfl
  · exact h arg harg

/-- The request that fetches the whole value of a key. -/
def fetchRequest (key : Key) : Request :=
  keyRequest key.type.fetchCommand.1 key.bytes key.type.fetchCommand.2

theorem exists_encode_fetchRequest (key : Key) :
    ∃ bytes, (fetchRequest key).encode = .ok bytes :=
  exists_encode_keyRequest (by cases key.type <;> decide) _ _

theorem inOneRound_of_collect {client : Client} {ask : List ι → Operation (List α)}
    {request : ι → Request} {read : Reply → Except Failure α}
    (hbytes : ∀ item, ∃ bytes, (request item).encode = .ok bytes)
    (hperform : ∀ items, (ask items).perform (σ := Journal σ) client =
      client.collect (items.map request) read) :
    InOneRound σ client ask request fun asked => asked.mapM fun x => read x.2 :=
  inOneRound_of_run hbytes hperform fun _ => List.mapM_map

/-- Each of the batches reads its replies one by one. -/
theorem inOneRound_batch (batch : Batch ι α) (client : Client) :
    ∃ (request : ι → Request) (read : Reply → Except Failure α),
      InOneRound σ client batch.ask request fun asked => asked.mapM fun x => read x.2 := by
  cases batch with
  | types | exist | lengths =>
      refine ⟨_, _, inOneRound_of_collect ?_ fun _ => rfl⟩
      exact fun _ => exists_encode_keyRequest (by simp) _ _
  | values =>
      exact ⟨_, _, inOneRound_of_collect exists_encode_fetchRequest fun _ => rfl⟩
  | areMembers key | scores key =>
      refine ⟨_, _, inOneRound_of_collect ?_ fun _ => rfl⟩
      exact fun _ => exists_encode_keyRequest (by simp [Reply.isArgument]) _ _

/-! ## Contents -/

/-- The contents under some keys, given the replies that fetched them. -/
def readContents (keys : List Key) (replies : List Reply) : Except Failure (List Content) := do
  let answers ← replies.mapM Reply.answer
  (keys.zip answers).mapM fun (key, reply) => Content.ofReply key.type reply

theorem contents_eq_run (client : Client) (keys : List Key) :
    client.contents (σ := σ) keys =
      client.run (keys.map fetchRequest) >>= fun replies =>
        Act.ofExcept (readContents keys replies) := by
  have hvalues : client.values (σ := σ) keys =
      client.collect (keys.map fetchRequest) Reply.answer := rfl
  funext session
  rw [contents, hvalues, collect, Act.bind_apply, Act.bind_apply, Act.bind_apply]
  cases client.run (keys.map fetchRequest) session with
  | error e after => rfl
  | ok replies after =>
      dsimp only
      rw [readContents]
      cases replies.mapM Reply.answer <;> rfl

/-- An answer is the reply itself. -/
theorem eq_of_mapM_answer {replies answers : List Reply}
    (h : replies.mapM Reply.answer = .ok answers) : answers = replies := by
  have heq : List.Forall₂ (fun reply a => a = reply) replies answers :=
    (mapM_eq_ok_iff.mp h).imp fun _ _ ha => (Reply.answer_eq_ok_iff.mp ha).1
  exact List.forall₂_eq_eq_eq ▸ heq.flip

theorem mapM_answer {asked : List (Key × Reply)} (h : ∀ x ∈ asked, x.2.answer = .ok x.2) :
    asked.mapM (fun x => x.2.answer) = .ok (asked.map Prod.snd) := by
  rw [mapM_eq_ok_iff, List.forall₂_map_right_iff, List.forall₂_same]
  exact h

/-- Error replies are looked for first, and then each content is read. -/
theorem readContents_eq (asked : List (Key × Reply)) :
    readContents (asked.map Prod.fst) (asked.map Prod.snd) = (do
      let _ ← asked.mapM fun x => x.2.answer
      asked.mapM fun x => Content.ofReply x.1.type x.2) := by
  have hanswers : (asked.map Prod.snd).mapM Reply.answer = asked.mapM fun x => x.2.answer :=
    List.mapM_map
  rw [readContents, ← hanswers]
  cases h : (asked.map Prod.snd).mapM Reply.answer with
  | error e => rfl
  | ok answers =>
      -- no reply is an error, so each key meets its own reply again
      rw [eq_of_mapM_answer h]
      have hzip : (asked.map Prod.fst).zip (asked.map Prod.snd) = asked := by
        rw [List.zip_map', List.map_id']
      exact congrArg (List.mapM fun x : Key × Reply => Content.ofReply x.1.type x.2) hzip

theorem inOneRound_contents (client : Client) :
    ∃ request, InOneRound σ client Operation.contents request fun asked =>
      readContents (asked.map Prod.fst) (asked.map Prod.snd) := by
  exact ⟨_, inOneRound_of_run exists_encode_fetchRequest (contents_eq_run client) fun _ => rfl⟩

/-- The content under a key, given the reply that fetched it. -/
def readContent (x : Key × Reply) : Except Failure Content := do
  let answer ← x.2.answer
  Content.ofReply x.1.type answer

theorem readContent_eq_ok_iff {x : Key × Reply} {content : Content} :
    readContent x = .ok content ↔
      x.2.answer = .ok x.2 ∧ Content.ofReply x.1.type x.2 = .ok content := by
  rw [readContent]
  cases ha : x.2.answer with
  | error e => simp [bind, Except.bind]
  | ok answer =>
      obtain rfl := (Reply.answer_eq_ok_iff.mp ha).1
      exact (and_iff_right rfl).symm

theorem readContents_singleton (x : Key × Reply) :
    readContents ([x].map Prod.fst) ([x].map Prod.snd) =
      (readContent x).map fun content => [content] := by
  rw [readContents_eq, mapM_singleton, mapM_singleton, readContent]
  cases ha : x.2.answer with
  | error e => rfl
  | ok answer =>
      obtain rfl := (Reply.answer_eq_ok_iff.mp ha).1
      rfl

theorem readContents_eq_ok {asked : List (Key × Reply)} {contents : List Content}
    (h : List.Forall₂ (fun x content => readContent x = .ok content) asked contents) :
    readContents (asked.map Prod.fst) (asked.map Prod.snd) = .ok contents := by
  obtain ⟨hanswers, hcontents⟩ :=
    (List.forall₂_and_left _ _).mp (h.imp fun _ _ hx => readContent_eq_ok_iff.mp hx)
  rw [readContents_eq, mapM_answer hanswers]
  exact mapM_eq_ok_iff.mpr hcontents

/-! ## All batches -/

/-- A batch does what its questions do one by one, on any network that serves the batch all
replies and each question its own. A batch that reads its replies one by one fails as the
first question fails that does; contents fail as the first error reply says, and where there
is none, as the first reply does that cannot be read. -/
theorem oneByOne_batches (client : Client) :
    (∀ {ι α : Type} (batch : Batch ι α) {asked : List (ι × Reply)} {rest : List Reply}
        {state : σ} {alone : ι × Reply → σ},
      Serves (asked.map Prod.snd ++ rest) state → (∀ x ∈ asked, Serves [x.2] (alone x)) →
        OneByOne client batch.ask asked rest state alone ∧
        ∀ e, FirstFailing (fun x => client.answerOn (batch.ask [x.1]) (alone x)) asked e →
          client.answerOn (batch.ask (asked.map Prod.fst)) state = .error e) ∧
    (∀ {asked : List (Key × Reply)} {rest : List Reply} {state : σ} {alone : Key × Reply → σ},
      Serves (asked.map Prod.snd ++ rest) state → (∀ x ∈ asked, Serves [x.2] (alone x)) →
        OneByOne client .contents asked rest state alone ∧
        (∀ e, FirstFailing (fun x => x.2.answer) asked e →
          client.answerOn (.contents (asked.map Prod.fst)) state = .error e) ∧
        ((∀ x ∈ asked, ∀ text, x.2 ≠ .error text) →
          ∀ e, FirstFailing (fun x => Content.ofReply x.1.type x.2) asked e →
            client.answerOn (.contents (asked.map Prod.fst)) state = .error e)) := by
  constructor
  · intro ι α batch asked rest state alone hs halone
    obtain ⟨request, read, h⟩ := inOneRound_batch (σ := σ) batch client
    refine ⟨oneByOne_of_inOneRound h (mapM_singleton _)
      (fun _ hall => mapM_eq_ok_iff.mpr hall) hs halone, ?_⟩
    intro e hfirst
    -- a question fails by itself exactly as the reading of its reply does
    rw [answerOn_of_inOneRound h hs]
    apply mapM_eq_error_of_firstFailing
    exact hfirst.of_map fun x hx => (answerOn_alone h (halone x hx)).trans (mapM_singleton _ x)
  · intro asked rest state alone hs halone
    obtain ⟨request, h⟩ := inOneRound_contents (σ := σ) client
    refine ⟨oneByOne_of_inOneRound h readContents_singleton (fun _ => readContents_eq_ok) hs
      halone, ?_, ?_⟩
    · intro e hfirst
      rw [answerOn_of_inOneRound h hs, readContents_eq, mapM_eq_error_of_firstFailing hfirst]
      rfl
    · intro hanswers e hfirst
      have hok : ∀ x ∈ asked, x.2.answer = .ok x.2 :=
        fun x hx => Reply.answer_eq_ok_iff.mpr ⟨rfl, hanswers x hx⟩
      rw [answerOn_of_inOneRound h hs, readContents_eq, mapM_answer hok]
      exact mapM_eq_error_of_firstFailing hfirst

/-- A client without a secret. -/
def plainClient : Client where
  endpoint := { address := "h:1" }

/-- A length, a key of another type, a server that is loading, and a text for a length. -/
def lengthReplies : List (Key × Reply) :=
  [(⟨[1], .list⟩, .integer 2), (⟨[2], .hash⟩, .error "WRONGTYPE not a hash"),
    (⟨[3], .set⟩, .error "LOADING"), (⟨[4], .string⟩, .simple "long")]

/-- A set that is no array, a string, and a server that is loading. -/
def contentReplies : List (Key × Reply) :=
  [(⟨[1], .set⟩, .integer 7), (⟨[2], .string⟩, .bulk [97]), (⟨[3], .zset⟩, .error "LOADING")]

/-- The script that brings the replies to some questions. -/
def scriptOf (asked : List (Key × Reply)) : Script :=
  .ofReplies (asked.map Prod.snd)

theorem oneByOne_batches_firstFailures :
    plainClient.answerOn (.lengths ((lengthReplies.take 2).map Prod.fst))
        (scriptOf (lengthReplies.take 2)) = .ok [2, -1] ∧
      plainClient.answerOn (.lengths (lengthReplies.map Prod.fst)) (scriptOf lengthReplies) =
        .error (.server "LOADING") ∧
      plainClient.answerOn (.contents (contentReplies.map Prod.fst)) (scriptOf contentReplies) =
        .error (.server "LOADING") ∧
      plainClient.answerOn (.contents ((contentReplies.take 2).map Prod.fst))
        (scriptOf (contentReplies.take 2)) =
        .error (.conversion "Cannot convert Integer(7) to array") := by
  have hserves : ∀ asked : List (Key × Reply),
      Serves (asked.map Prod.snd ++ []) (scriptOf asked) := by
    intro asked
    rw [List.append_nil]
    exact Script.serves_ofReplies _
  have halone : ∀ asked : List (Key × Reply), ∀ x ∈ asked, Serves [x.2] (scriptOf [x]) :=
    fun _ x _ => Script.serves_ofReplies [x.2]
  have htwo : List.Forall₂ (fun x a =>
      plainClient.answerOn (.lengths [x.1]) (scriptOf [x]) = .ok [a])
      (lengthReplies.take 2) [2, -1] :=
    .cons (by decide +kernel) (.cons (by decide +kernel) .nil)
  obtain ⟨hone, -⟩ := (oneByOne_batches plainClient).1 .lengths
    (hserves (lengthReplies.take 2)) (halone (lengthReplies.take 2))
  obtain ⟨-, hfirst⟩ := (oneByOne_batches plainClient).1 .lengths (hserves lengthReplies)
    (halone lengthReplies)
  obtain ⟨-, hrefused, -⟩ := (oneByOne_batches plainClient).2 (hserves contentReplies)
    (halone contentReplies)
  obtain ⟨-, -, hunread⟩ := (oneByOne_batches plainClient).2
    (hserves (contentReplies.take 2)) (halone (contentReplies.take 2))
  refine ⟨hone.answers _ htwo, hfirst _ ?_, hrefused _ ?_, hunread ?_ _ ?_⟩
  · refine ⟨lengthReplies.take 2, _, _, rfl, ?_, by decide +kernel⟩
    simp only [lengthReplies, List.take, List.forall_mem_cons]
    exact ⟨⟨[2], by decide +kernel⟩, ⟨[-1], by decide +kernel⟩, by simp⟩
  · refine ⟨contentReplies.take 2, _, _, rfl, ?_, rfl⟩
    simp [contentReplies, Reply.answer]
  · simp [contentReplies]
  · exact ⟨[], _, _, rfl, by simp, rfl⟩

end Client

end RespClient
