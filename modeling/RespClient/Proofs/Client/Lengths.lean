import RespClient.Proofs.Client.Batch
import RespClient.Proofs.Wire.Numeral

/-!
# Lengths of keys that hold another type

Where a key holds another type than was declared, its length is a number that no length is,
and the other lengths of the batch are what they are without it. Every other reply that is no
number fails the batch, which goes through one round all the same.
-/

namespace RespClient

/-- Each item has something that it is related to exactly when there is a list of such. -/
theorem exists_forall₂_iff {α β : Type} {R : α → β → Prop} {xs : List α} :
    (∃ ys, List.Forall₂ R xs ys) ↔ ∀ x ∈ xs, ∃ y, R x y := by
  induction xs with
  | nil => exact iff_of_true ⟨[], .nil⟩ (by simp)
  | cons x xs ih =>
      rw [List.forall_mem_cons, ← ih]
      constructor
      · rintro ⟨_, _ | ⟨hx, hxs⟩⟩
        exact ⟨⟨_, hx⟩, _, hxs⟩
      · rintro ⟨⟨y, hx⟩, ys, hxs⟩
        exact ⟨y :: ys, .cons hx hxs⟩

/-! ## What a reply says about a length -/

namespace Reply

/-- The refusal of a command on a key that holds another type. -/
def Mismatched (reply : Reply) : Prop :=
  ∃ rest, reply = .error ("WRONGTYPE" ++ rest)

/-- A reply that is a number, or the text of one. -/
inductive Counts : Reply → Int64 → Prop
  | integer (n : Int64) : Counts (.integer n) n
  | bulk {data : Bytes} {n : Int64} (h : Wire.Numeral data n.toInt) : Counts (.bulk data) n

/-- The length that a reply stands for. -/
inductive Measures (reply : Reply) : Int64 → Prop
  | mismatched (h : reply.Mismatched) : Measures reply (-1)
  | counts {n : Int64} (h : reply.Counts n) : Measures reply n

/-- The failure of a reply that stands for no length. -/
def lengthFailure : Reply → Failure
  | .error text => .server text
  | .bulk data => .conversion ("Cannot parse integer from " ++ Quoted.bytes data)
  | reply => reply.cannotConvert "integer"

theorem not_counts_of_mismatched {reply : Reply} (h : reply.Mismatched) (n : Int64) :
    ¬ reply.Counts n := by
  obtain ⟨rest, rfl⟩ := h
  intro hcounts
  cases hcounts

/-- Among lengths that are not negative, the mark of another type stands for itself. -/
theorem Measures.eq_iff_mismatched {reply : Reply} {n : Int64} (h : reply.Measures n)
    (hpos : ∀ n, reply.Counts n → 0 ≤ n) : n = -1 ↔ reply.Mismatched := by
  cases h with
  | mismatched hmismatched => exact iff_of_true rfl hmismatched
  | counts hcounts =>
      have hn := hpos n hcounts
      refine iff_of_false ?_ fun hmismatched => not_counts_of_mismatched hmismatched n hcounts
      rintro rfl
      exact absurd hn (by decide)

theorem exists_measures_iff {reply : Reply} :
    (∃ n, reply.Measures n) ↔ reply.Mismatched ∨ ∃ n, reply.Counts n := by
  constructor
  · rintro ⟨n, hmismatched | hcounts⟩
    · exact .inl hmismatched
    · exact .inr ⟨n, hcounts⟩
  · rintro (hmismatched | ⟨n, hcounts⟩)
    · exact ⟨-1, .mismatched hmismatched⟩
    · exact ⟨n, .counts hcounts⟩

theorem measures_iff_counts {reply : Reply} {n : Int64} (h : ∀ text, reply ≠ .error text) :
    reply.Measures n ↔ reply.Counts n := by
  constructor
  · rintro (⟨rest, rfl⟩ | hcounts)
    · exact absurd rfl (h _)
    · exact hcounts
  · exact .counts

theorem asInt_eq_ok_iff {reply : Reply} {n : Int64} : reply.asInt = .ok n ↔ reply.Counts n := by
  cases reply with
  | integer m =>
      constructor
      · intro h
        cases h
        exact .integer n
      · rintro ⟨⟩
        rfl
  | bulk data =>
      have hread : Decimal.readInt64 data.chars = .ok n ↔ Wire.Numeral data n.toInt := by
        rw [← @Wire.readNumber_eq_ok_iff "", Wire.readNumber, Wire.mapError_eq_ok_iff]
      have hcounts : (Reply.bulk data).Counts n ↔ Wire.Numeral data n.toInt := by
        constructor
        · rintro ⟨⟩
          assumption
        · exact .bulk
      rw [hcounts, ← hread, asInt]
      cases Decimal.readInt64 data.chars <;> simp
  | simple | error | null | array =>
      constructor
      · rintro ⟨⟩
      · rintro ⟨⟩

/-- A reply that is no number is refused for what it is. -/
theorem asInt_eq_lengthFailure {reply : Reply} (hanswer : ∀ text, reply ≠ .error text)
    (h : ∀ n, ¬ reply.Counts n) : reply.asInt = .error reply.lengthFailure := by
  cases hr : reply.asInt with
  | ok n => exact absurd (asInt_eq_ok_iff.mp hr) (h n)
  | error e =>
      rw [← hr]
      cases reply with
      | error text => exact absurd rfl (hanswer text)
      | integer n => exact absurd (.integer n) (h n)
      | bulk data =>
          rw [asInt] at hr ⊢
          cases hread : Decimal.readInt64 data.chars with
          | ok n => simp [hread] at hr
          | error flaw => rfl
      | simple | null | array => rfl

end Reply

theorem Failure.isWrongType_server_iff {text : String} :
    (Failure.server text).isWrongType = true ↔ (Reply.error text).Mismatched := by
  rw [isWrongType, List.isPrefixOf_iff_prefix, Reply.Mismatched]
  constructor
  · rintro ⟨rest, h⟩
    refine ⟨String.ofList rest, congrArg Reply.error (String.toList_inj.mp ?_)⟩
    rw [String.toList_append, ← h]
    exact congrArg _ String.toList_ofList.symm
  · rintro ⟨rest, h⟩
    rw [Reply.error.inj h, String.toList_append]
    exact List.prefix_append _ _

namespace Client

open Network Journal

/-! ## How a length is read -/

theorem readLength_error (text : String) :
    readLength (.error text) =
      if (Failure.server text).isWrongType then .ok (-1) else .error (.server text) := rfl

theorem readLength_of_answer {reply : Reply} (h : ∀ text, reply ≠ .error text) :
    readLength reply = reply.asInt := by
  rw [readLength, Reply.answer_eq_ok_iff.mpr ⟨rfl, h⟩]

theorem readLength_eq_ok_iff {reply : Reply} {n : Int64} :
    readLength reply = .ok n ↔ reply.Measures n := by
  by_cases herror : ∃ text, reply = .error text
  · obtain ⟨text, rfl⟩ := herror
    rw [readLength_error]
    by_cases h : (Failure.server text).isWrongType = true
    · rw [if_pos h, Except.ok.injEq]
      constructor
      · rintro rfl
        exact .mismatched (Failure.isWrongType_server_iff.mp h)
      · rintro (_ | hcounts)
        · rfl
        · cases hcounts
    · rw [if_neg h]
      refine iff_of_false nofun ?_
      rintro (hmismatched | hcounts)
      · exact h (Failure.isWrongType_server_iff.mpr hmismatched)
      · cases hcounts
  · have hanswer : ∀ text, reply ≠ .error text := fun text h => herror ⟨text, h⟩
    rw [readLength_of_answer hanswer, Reply.asInt_eq_ok_iff, Reply.measures_iff_counts hanswer]

theorem readLength_eq_lengthFailure {reply : Reply} (hmismatched : ¬ reply.Mismatched)
    (hcounts : ∀ n, ¬ reply.Counts n) : readLength reply = .error reply.lengthFailure := by
  by_cases herror : ∃ text, reply = .error text
  · obtain ⟨text, rfl⟩ := herror
    rw [readLength_error, if_neg (mt Failure.isWrongType_server_iff.mp hmismatched)]
    rfl
  · have hanswer : ∀ text, reply ≠ .error text := fun text h => herror ⟨text, h⟩
    rw [readLength_of_answer hanswer, Reply.asInt_eq_lengthFailure hanswer hcounts]

/-! ## Batches of lengths -/

variable {σ : Type} [Network σ]

theorem inOneRound_lengths (client : Client) :
    InOneRound σ client .lengths
      (fun key => keyRequest key.type.lengthCommand key.bytes []) fun asked =>
        asked.mapM fun x => readLength x.2 :=
  inOneRound_of_collect (fun _ => exists_encode_keyRequest (by simp) _ _) fun _ => rfl

/-- A batch of lengths measures the replies: each stands for its own length whatever the
others say, the first that stands for none fails the batch, and it is one round in any case. -/
structure Measured (client : Client) (asked : List (Key × Reply)) (rest : List Reply)
    (state : σ) : Prop where
  succeeds : (∃ lengths, client.answerOn (.lengths (asked.map Prod.fst)) state = .ok lengths) ↔
    ∀ x ∈ asked, x.2.Mismatched ∨ ∃ n, x.2.Counts n
  answers : ∀ lengths, client.answerOn (.lengths (asked.map Prod.fst)) state = .ok lengths ↔
    List.Forall₂ (fun x n => x.2.Measures n) asked lengths
  marks : (∀ x ∈ asked, ∀ n, x.2.Counts n → 0 ≤ n) →
    ∀ lengths, client.answerOn (.lengths (asked.map Prod.fst)) state = .ok lengths →
      List.Forall₂ (fun x n => n = -1 ↔ x.2.Mismatched) asked lengths
  fails : ∀ earlier x later, asked = earlier ++ x :: later →
    (∀ y ∈ earlier, y.2.Mismatched ∨ ∃ n, y.2.Counts n) →
      ¬ x.2.Mismatched → (∀ n, ¬ x.2.Counts n) →
        client.answerOn (.lengths (asked.map Prod.fst)) state = .error x.2.lengthFailure
  oneRound : ∃ after : Journal σ,
    client.sessionAfter (.lengths (asked.map Prod.fst)) state =
      { network := after, connected := true } ∧
    Serves rest after.state ∧
    after.events = if asked.isEmpty then []
      else roundCalls (asked.map fun x => keyRequest x.1.type.lengthCommand x.1.bytes [])
        (asked.map Prod.snd)

/-- On a connection whose calls do not fail a batch of lengths succeeds exactly when each reply
is a number or says that the key holds another type, which is marked with a number that no
length is. The marks cause nothing else: the batch is one round, and the connection is kept. -/
theorem measured_lengths (client : Client) {asked : List (Key × Reply)} {rest : List Reply}
    {state : σ} (hs : Serves (asked.map Prod.snd ++ rest) state) :
    Measured client asked rest state := by
  have hanswer : client.answerOn (.lengths (asked.map Prod.fst)) state =
      asked.mapM fun x => readLength x.2 :=
    answerOn_of_inOneRound (inOneRound_lengths client) hs
  have hmeasures : ∀ lengths,
      client.answerOn (.lengths (asked.map Prod.fst)) state = .ok lengths ↔
        List.Forall₂ (fun x n => x.2.Measures n) asked lengths := by
    intro lengths
    rw [hanswer, mapM_eq_ok_iff]
    simp only [readLength_eq_ok_iff]
  constructor
  · simp only [hmeasures, exists_forall₂_iff, Reply.exists_measures_iff]
  · exact hmeasures
  · intro hpos lengths hlengths
    have hall := (List.forall₂_and_left _ _).mpr ⟨hpos, (hmeasures lengths).mp hlengths⟩
    exact hall.imp fun x n h => h.2.eq_iff_mismatched h.1
  · intro earlier x later hsplit hearlier hmismatched hcounts
    rw [hanswer]
    apply mapM_eq_error_of_firstFailing
    refine ⟨earlier, x, later, hsplit, ?_, readLength_eq_lengthFailure hmismatched hcounts⟩
    intro y hy
    obtain ⟨n, hn⟩ := Reply.exists_measures_iff.mpr (hearlier y hy)
    exact ⟨n, readLength_eq_ok_iff.mpr hn⟩
  · exact sessionAfter_of_inOneRound (inOneRound_lengths client) hs

/-- Two keys of another type, and lengths as a number and as a text. -/
def markedLengths : List (Key × Reply) :=
  [(⟨[1], .list⟩, .error "WRONGTYPE no list"), (⟨[2], .hash⟩, .bulk [43, 48, 55]),
    (⟨[3], .set⟩, .error "WRONGTYPE"), (⟨[4], .zset⟩, .integer 0)]

/-- A reply that is no number among keys of another type, and a refusal after it. -/
def unmeasuredLength : List (Key × Reply) :=
  [(⟨[1], .list⟩, .error "WRONGTYPE no list"), (⟨[2], .hash⟩, .simple "x"),
    (⟨[3], .set⟩, .error "WRONGTYPE"), (⟨[4], .zset⟩, .error "LOADING")]

theorem measured_lengths_betweenMarks :
    plainClient.answerOn (.lengths (markedLengths.map Prod.fst))
        (Script.ofReplies (markedLengths.map Prod.snd)) = .ok [-1, 7, -1, 0] ∧
      plainClient.answerOn (.lengths (unmeasuredLength.map Prod.fst))
          (Script.ofReplies (unmeasuredLength.map Prod.snd)) =
        .error (.conversion "Cannot convert SimpleString(\"x\") to integer") := by
  have hserves : ∀ asked : List (Key × Reply),
      Serves (asked.map Prod.snd ++ []) (Script.ofReplies (asked.map Prod.snd)) := by
    intro asked
    rw [List.append_nil]
    exact Script.serves_ofReplies _
  have hmarked := measured_lengths plainClient (hserves markedLengths)
  have hunmeasured := measured_lengths plainClient (hserves unmeasuredLength)
  have hmark : ∀ rest, (Reply.error ("WRONGTYPE" ++ rest)).Mismatched := fun rest => ⟨rest, rfl⟩
  have hseven : Wire.Numeral [43, 48, 55] (Int64.toInt 7) :=
    (@Wire.readNumber_eq_ok_iff "" _ 7).mp (by decide +kernel)
  constructor
  · rw [hmarked.answers]
    exact .cons (.mismatched (hmark " no list")) (.cons (.counts (.bulk hseven))
      (.cons (.mismatched (hmark "")) (.cons (.counts (.integer 0)) .nil)))
  · exact hunmeasured.fails _ _ _ rfl (List.forall_mem_singleton.mpr (.inl (hmark " no list")))
      nofun nofun

end Client

end RespClient
