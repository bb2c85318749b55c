import RespClient.Keyspace
import RespClient.Proofs.LastEntry
import RespClient.Proofs.Text.Cut
import RespClient.Proofs.Text.Decimal
import RespClient.Proofs.Text.Utf8

/-!
# What a keyspace section says

A section is read exactly when it is UTF-8, begins with the header, and has no line about a
database that is spelled in another way than such lines are. Then it counts the databases that
its lines name, each as the last line about it says.
-/

namespace RespClient.Keyspace

open Decimal

/-! ## Lines -/

/-- A line tells how many keys a database has: `db` and its index, `:keys=` and their number,
and after that nothing, or a comma and anything. -/
inductive Tells : List Char → UInt32 → Int64 → Prop
  | mk {digits number rest : List Char} {index : UInt32} {count : Int64}
      (hindex : SpellsNat digits index.toNat) (hcount : Spells number count.toInt)
      (hrest : rest = [] ∨ ∃ more, rest = ',' :: more) :
      Tells ("db".toList ++ (digits ++ ':' :: ("keys=".toList ++ (number ++ rest)))) index count

theorem not_mem_of_spells {text : List Char} {n : Int} (h : Spells text n) :
    ':' ∉ text ∧ ',' ∉ text := by
  constructor
  · intro hc
    rcases isDigit_or_sign_of_spells h hc with hd | hd | hd <;> revert hd <;> decide
  · intro hc
    rcases isDigit_or_sign_of_spells h hc with hd | hd | hd <;> revert hd <;> decide

theorem readStats_of_tells {line digits number rest : List Char} {index : UInt32} {count : Int64}
    (hindex : SpellsNat digits index.toNat) (hcount : Spells number count.toInt)
    (hrest : rest = [] ∨ ∃ more, rest = ',' :: more) :
    readStats line (digits ++ ':' :: ("keys=".toList ++ (number ++ rest))) =
      .ok (index, count) := by
  have hcut := cut_append (not_mem_of_spells hindex.spells).1
    ("keys=".toList ++ (number ++ rest))
  have hentry : beforeFirst ',' ("keys=".toList ++ (number ++ rest)) =
      "keys=".toList ++ number := by
    refine beforeFirst_eq_iff.mpr ⟨?_, rest, (List.append_assoc _ _ _).symm, hrest⟩
    intro hc
    rcases List.mem_append.mp hc with hc | hc
    · revert hc
      decide
    · exact (not_mem_of_spells hcount).2 hc
  simp only [readStats, hcut, readUInt32_eq_ok_iff.mpr hindex, hentry,
    dropLead?_eq_some_iff.mpr rfl, readInt64_eq_ok_iff.mpr hcount]

theorem tells_of_readStats {line rest : List Char} {index : UInt32} {count : Int64}
    (h : readStats line rest = .ok (index, count)) : Tells ("db".toList ++ rest) index count := by
  -- the cuts are taken in the order they are made; each of them has to succeed
  rw [readStats] at h
  cases hcut : cut ':' rest with
  | none => simp [hcut] at h
  | some parts =>
      obtain ⟨digits, stats⟩ := parts
      rw [hcut] at h
      dsimp only at h
      cases hindex : readUInt32 digits with
      | error flaw => simp [hindex] at h
      | ok i =>
          rw [hindex] at h
          dsimp only at h
          cases hlead : dropLead? "keys=".toList (beforeFirst ',' stats) with
          | none =>
              rw [hlead] at h
              cases h
          | some number =>
              rw [hlead] at h
              dsimp only at h
              cases hcount : readInt64 number with
              | error flaw => simp [hcount] at h
              | ok n =>
                  rw [hcount] at h
                  cases h
                  obtain ⟨-, more, hstats, hmore⟩ :=
                    beforeFirst_eq_iff.mp (dropLead?_eq_some_iff.mp hlead)
                  rw [eq_append_of_cut hcut, hstats, List.append_assoc]
                  exact .mk (readUInt32_eq_ok_iff.mp hindex) (readInt64_eq_ok_iff.mp hcount) hmore

theorem readLine_eq_some_iff {line : List Char} {index : UInt32} {count : Int64} :
    readLine line = .ok (some (index, count)) ↔ Tells line index count := by
  constructor
  · intro h
    rw [readLine] at h
    cases hlead : dropLead? "db".toList line with
    | none =>
        rw [hlead] at h
        cases h
    | some rest =>
        rw [hlead] at h
        dsimp only at h
        cases hstats : readStats line rest with
        | error flaw => simp [hstats, Except.map] at h
        | ok told =>
            obtain rfl : told = (index, count) := by simpa [hstats, Except.map] using h
            rw [dropLead?_eq_some_iff.mp hlead]
            exact tells_of_readStats hstats
  · rintro ⟨hindex, hcount, hrest⟩
    rw [readLine, dropLead?_eq_some_iff.mpr rfl]
    dsimp only
    rw [readStats_of_tells hindex hcount hrest]
    rfl

theorem readLine_eq_none_iff {line : List Char} :
    readLine line = .ok none ↔ ¬ "db".toList <+: line := by
  rw [← dropLead?_eq_none_iff, readLine]
  cases dropLead? "db".toList line with
  | none => simp
  | some rest =>
      dsimp only
      cases readStats line rest <;> simp [Except.map]

/-! ## Sections -/

/-- What some lines tell, in order. Lines that do not begin with `db` tell nothing. -/
inductive TellAll : List (List Char) → List (UInt32 × Int64) → Prop
  | nil : TellAll [] []
  | told {line : List Char} {lines : List (List Char)} {index : UInt32} {count : Int64}
      {told : List (UInt32 × Int64)} (h : Tells line index count) (hs : TellAll lines told) :
      TellAll (line :: lines) ((index, count) :: told)
  | other {line : List Char} {lines : List (List Char)} {told : List (UInt32 × Int64)}
      (h : ¬ "db".toList <+: line) (hs : TellAll lines told) : TellAll (line :: lines) told

theorem readLines_eq_ok_iff {lines : List (List Char)} {before after : Keyspace} :
    readLines lines before = .ok after ↔
      ∃ told, TellAll lines told ∧ before.insertMany told = after := by
  induction lines generalizing before with
  | nil =>
      rw [readLines, Except.ok.injEq]
      constructor
      · rintro rfl
        exact ⟨[], .nil, Std.ExtTreeMap.insertMany_nil⟩
      · rintro ⟨told, ⟨⟩, h⟩
        rw [← h, Std.ExtTreeMap.insertMany_nil]
  | cons line lines ih =>
      constructor
      · intro h
        rw [readLines] at h
        cases hline : readLine line with
        | error flaw => simp [hline] at h
        | ok report =>
            rw [hline] at h
            cases report with
            | none =>
                obtain ⟨told, hs, rfl⟩ := ih.mp h
                exact ⟨told, .other (readLine_eq_none_iff.mp hline) hs, rfl⟩
            | some entry =>
                obtain ⟨index, count⟩ := entry
                obtain ⟨told, hs, rfl⟩ := ih.mp h
                exact ⟨_, .told (readLine_eq_some_iff.mp hline) hs, Std.ExtTreeMap.insertMany_cons⟩
      · rintro ⟨told, htold, rfl⟩
        cases htold with
        | told h hs =>
            rw [readLines, readLine_eq_some_iff.mpr h]
            exact ih.mpr ⟨_, hs, Std.ExtTreeMap.insertMany_cons.symm⟩
        | other h hs =>
            rw [readLines, readLine_eq_none_iff.mpr h]
            exact ih.mpr ⟨_, hs, rfl⟩

theorem prefix_of_tells {line : List Char} {index : UInt32} {count : Int64}
    (h : Tells line index count) : "db".toList <+: line := by
  cases h
  exact List.prefix_append _ _

theorem exists_tellAll_iff {lines : List (List Char)} :
    (∃ told, TellAll lines told) ↔
      ∀ line ∈ lines, "db".toList <+: line → ∃ index count, Tells line index count := by
  induction lines with
  | nil => exact iff_of_true ⟨[], .nil⟩ (by simp)
  | cons line lines ih =>
      rw [List.forall_mem_cons, ← ih]
      constructor
      · rintro ⟨_, h | h⟩
        next h hs => exact ⟨fun _ => ⟨_, _, h⟩, _, hs⟩
        next h hs => exact ⟨fun hdb => absurd hdb h, _, hs⟩
      · rintro ⟨h, told, hs⟩
        by_cases hdb : "db".toList <+: line
        · obtain ⟨index, count, htells⟩ := h hdb
          exact ⟨_, .told htells hs⟩
        · exact ⟨told, .other hdb hs⟩

theorem tells_unique {line : List Char} {i j : UInt32} {m n : Int64} (hi : Tells line i m)
    (hj : Tells line j n) : (i, m) = (j, n) := by
  have h := readLine_eq_some_iff.mpr hi
  rw [readLine_eq_some_iff.mpr hj] at h
  cases h
  rfl

section

variable {lines : List (List Char)} {told : List (UInt32 × Int64)} {index : UInt32} {count : Int64}

theorem mem_of_tellAll (h : TellAll lines told) :
    (index, count) ∈ told ↔ ∃ line ∈ lines, Tells line index count := by
  induction h with
  | nil => simp
  | @told line lines i n told h hs ih =>
      simp only [List.mem_cons, exists_eq_or_imp, ih]
      refine or_congr_left ⟨?_, fun htells => tells_unique htells h⟩
      rintro ⟨⟩
      exact h
  | @other line lines told h hs ih =>
      simp only [List.mem_cons, exists_eq_or_imp, ih]
      rw [or_iff_right]
      exact fun htells => h (prefix_of_tells htells)

theorem lastUnder_of_tellAll (h : TellAll lines told) :
    LastUnder told index count ↔ LastTells Tells lines index count := by
  induction h with
  | nil => exact iff_of_false not_lastTells_nil not_lastTells_nil
  | @told line lines i n told h hs ih =>
      -- a line tells one thing only, so that entries and lines stop being last together
      have htells : (i, n) = (index, count) ↔ Tells line index count := by
        refine ⟨?_, tells_unique h⟩
        rintro ⟨⟩
        exact h
      have hrest : (∀ entry ∈ told, ∀ m, entry ≠ (index, m)) ↔
          ∀ l ∈ lines, ∀ m, ¬ Tells l index m := by
        constructor
        · intro hnone l hl m htells
          exact hnone _ ((mem_of_tellAll hs).mpr ⟨l, hl, htells⟩) m rfl
        · rintro hnone entry hentry m rfl
          obtain ⟨l, hl, htells⟩ := (mem_of_tellAll hs).mp hentry
          exact hnone l hl m htells
      rw [LastUnder, lastTells_cons, lastTells_cons, ← ih, htells, hrest]
      rfl
  | @other line lines told h hs ih =>
      rw [ih, lastTells_cons, or_iff_left]
      exact fun htells => h (prefix_of_tells htells.1)

end

/-- The lines of a text, without the white space around them. -/
def lines (text : String) : List (List Char) :=
  (text.toList.splitOn '\n').map trim

/-- A section has its header, and what its lines about databases say can be told. -/
structure WellFormed (text : String) : Prop where
  header : "# Keyspace".toList <+: text.toList
  told : ∀ line ∈ lines text, "db".toList <+: line → ∃ index count, Tells line index count

/-- The counts are of the databases that the lines of a text are about, as the last line about
each of them has it. -/
structure Counted (text : String) (counts : Keyspace) : Prop where
  databases : ∀ index, index ∈ counts ↔ ∃ line ∈ lines text, ∃ count, Tells line index count
  last : ∀ index count, counts[index]? = some count ↔ LastTells Tells (lines text) index count

theorem counted_iff_of_tellAll {text : String} {told : List (UInt32 × Int64)} {counts : Keyspace}
    (h : TellAll (lines text) told) :
    (∅ : Keyspace).insertMany told = counts ↔ Counted text counts := by
  have hlast : ∀ index count, ((∅ : Keyspace).insertMany told)[index]? = some count ↔
      LastTells Tells (lines text) index count := by
    intro index count
    rw [getElem?_insertMany_empty_iff, lastUnder_of_tellAll h]
  constructor
  · rintro rfl
    refine ⟨fun index => ?_, hlast⟩
    rw [Std.ExtTreeMap.mem_insertMany_list, or_iff_right Std.ExtTreeMap.not_mem_empty,
      List.contains_iff_mem, List.mem_map]
    constructor
    · rintro ⟨⟨i, count⟩, hmem, rfl⟩
      obtain ⟨line, hline, htells⟩ := (mem_of_tellAll h).mp hmem
      exact ⟨line, hline, count, htells⟩
    · rintro ⟨line, hline, count, htells⟩
      exact ⟨(index, count), (mem_of_tellAll h).mpr ⟨line, hline, htells⟩, rfl⟩
  · rintro ⟨-, hcounts⟩
    apply Std.ExtTreeMap.ext_getElem?
    intro index
    apply Option.ext
    intro count
    rw [hlast, hcounts]

theorem ofText_eq_ok_iff {text : String} {counts : Keyspace} :
    ofText text.toList = .ok counts ↔ WellFormed text ∧ Counted text counts := by
  rw [ofText]
  cases hlead : dropLead? header text.toList with
  | none =>
      refine iff_of_false nofun fun h => ?_
      exact dropLead?_eq_none_iff.mp hlead h.1.header
  | some rest =>
      have hheader : "# Keyspace".toList <+: text.toList :=
        ⟨rest, (dropLead?_eq_some_iff.mp hlead).symm⟩
      dsimp only
      rw [split_eq_splitOn, readLines_eq_ok_iff]
      constructor
      · rintro ⟨told, htold, hcounts⟩
        exact ⟨⟨hheader, exists_tellAll_iff.mp ⟨told, htold⟩⟩,
          (counted_iff_of_tellAll htold).mp hcounts⟩
      · rintro ⟨hwell, hcounted⟩
        obtain ⟨told, htold⟩ := exists_tellAll_iff.mpr hwell.told
        exact ⟨told, htold, (counted_iff_of_tellAll htold).mpr hcounted⟩

theorem parse_eq_ok_iff {bytes : Bytes} {counts : Keyspace} :
    parse bytes = .ok counts ↔
      ∃ text, bytes = Utf8.encode text ∧ ofText text.toList = .ok counts := by
  rw [parse]
  simp only [← Utf8.decode_eq_ok_iff]
  cases hdecode : Utf8.decode bytes with
  | error fault => simp
  | ok text => simp

/-- A section is read exactly when it is well formed, as the counts that its lines tell. In
every other case there are no counts, and the failure is about the section. -/
theorem parse_exactly (bytes : Bytes) :
    (∀ counts, (parse bytes).mapError Flaw.failure = .ok counts ↔
      ∃ text, bytes = Utf8.encode text ∧ WellFormed text ∧ Counted text counts) ∧
    ∀ e, (parse bytes).mapError Flaw.failure = .error e → ∃ message, e = .invalidInfo message := by
  simp only [← ofText_eq_ok_iff, ← parse_eq_ok_iff]
  cases parse bytes with
  | ok counts =>
      refine ⟨fun counts' => ?_, fun e h => by cases h⟩
      constructor <;> intro h <;> cases h <;> rfl
  | error flaw =>
      refine ⟨fun counts' => ?_, fun e h => ?_⟩
      · constructor <;> intro h <;> cases h
      · cases h
        exact ⟨flaw.message, rfl⟩

/-- One database twice, its index and its counts spelled in different ways. The line that counts
is indented. -/
def twiceTold : String :=
  "# Keyspace\r\ndb1:keys=3\t\r\nkeys=9\n \tdb+01:keys=-0004,x:y,z"

/-- No index is below zero, not even with a value of zero. -/
def minusZero : String :=
  "# Keyspace\r\ndb-0:keys=3\r\n"

theorem parse_exactly_twiceTold_minusZero :
    (∃ text, Utf8.encode twiceTold = Utf8.encode text ∧ WellFormed text ∧
      Counted text ((∅ : Keyspace).insert 1 (-4))) ∧
    ∃ message, (parse (Utf8.encode minusZero)).mapError Flaw.failure =
      .error (.invalidInfo message) := by
  have htwice : (parse (Utf8.encode twiceTold)).mapError Flaw.failure =
      .ok ((∅ : Keyspace).insert 1 (-4)) := by rfl
  refine ⟨((parse_exactly (Utf8.encode twiceTold)).1 _).mp htwice, ?_⟩
  cases hminus : (parse (Utf8.encode minusZero)).mapError Flaw.failure with
  | ok counts =>
      have hfails : ((parse (Utf8.encode minusZero)).mapError Flaw.failure).isOk = false := by
        decide +kernel
      rw [hminus] at hfails
      cases hfails
  | error e =>
      obtain ⟨message, rfl⟩ := (parse_exactly (Utf8.encode minusZero)).2 e hminus
      exact ⟨message, rfl⟩

end RespClient.Keyspace
