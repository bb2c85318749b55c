import RespClient.Proofs.Info
import RespClient.Proofs.Keyspace

/-!
# A keyspace section as a server writes it

A server writes a header and then one line for each database, with more behind the number of
keys if it likes. The section can be read for the counts or as a description like any other, and
the two readings agree: each finds all the databases, and nothing else. They take the lines
apart in different ways, so what stands behind a number must not end a line in either.
-/

namespace RespClient

/-! ## Lines with their ends -/

/-- Pieces with a separator behind each are joined by it, with an empty piece at the end. -/
theorem flatMap_append_eq_intercalate {α : Type} (separator : List α) (pieces : List (List α)) :
    pieces.flatMap (· ++ separator) = separator.intercalate (pieces ++ [[]]) := by
  induction pieces with
  | nil => rfl
  | cons piece pieces ih =>
      rw [List.flatMap_cons, ih]
      cases pieces with
      | nil => simp
      | cons next pieces => simp only [List.cons_append, List.intercalate_cons_cons]

/-- White space is taken off behind a last character that is none. -/
theorem trim_append {first last : Char} (hfirst : isBlank first = false)
    (hlast : isBlank last = false) (between after : List Char) :
    trim (first :: (between ++ last :: after)) =
      first :: (between ++ last :: (after.reverse.dropWhile isBlank).reverse) := by
  rw [trim, List.dropWhile_cons_of_neg (by simp [hfirst])]
  have hreverse : (first :: (between ++ last :: after)).reverse =
      after.reverse ++ last :: (first :: between).reverse := by simp
  have hstop : (last :: (first :: between).reverse).dropWhile isBlank =
      last :: (first :: between).reverse := List.dropWhile_cons_of_neg (by simp [hlast])
  rw [hreverse, List.dropWhile_append, hstop]
  split
  · next hnone => simp [List.isEmpty_iff.mp hnone]
  · simp

namespace Keyspace

open Decimal

/-! ## The section -/

/-- A line about a database. -/
structure Line where
  index : UInt32
  count : Int64
  /-- What stands behind the number of keys. -/
  details : String
  apart : details = "" ∨ [','] <+: details.toList
  oneLine : '\r' ∉ details.toList ∧ '\n' ∉ details.toList

namespace Line

/-- What the line tells. -/
def told (line : Line) : UInt32 × Int64 :=
  (line.index, line.count)

def field (line : Line) : String :=
  "db" ++ Decimal.text line.index.toNat

def value (line : Line) : String :=
  "keys=" ++ Decimal.text line.count.toInt ++ line.details

/-- The line without its end. -/
def chars (line : Line) : List Char :=
  line.field.toList ++ ':' :: line.value.toList

end Line

/-- The header and some lines, each with its end. -/
def rendered (lines : List Line) : String :=
  "# Keyspace\r\n" ++
    String.join (lines.map fun line => line.field ++ ":" ++ line.value ++ "\r\n")

def renderedPieces (lines : List Line) : List (List Char) :=
  "# Keyspace".toList :: lines.map Line.chars

theorem toList_rendered (lines : List Line) :
    (rendered lines).toList = (renderedPieces lines).flatMap (· ++ ['\r', '\n']) := by
  have hline : String.toList ∘ (fun line : Line => line.field ++ ":" ++ line.value ++ "\r\n") =
      fun line => line.chars ++ ['\r', '\n'] := by
    funext line
    simp [Line.chars]
  rw [rendered, String.toList_append, String.toList_join, List.flatMap_map, renderedPieces,
    List.flatMap_cons, List.flatMap_map]
  exact congrArg _ (congrArg (fun f => List.flatMap f lines) hline)

namespace Line

variable {line : Line}

theorem chars_eq (line : Line) :
    line.chars = "db".toList ++ (Decimal.chars line.index.toNat ++ ':' ::
      ("keys=".toList ++ (Decimal.chars line.count.toInt ++ line.details.toList))) := by
  simp [chars, field, value, Decimal.text]

/-- Only the details can have white space or control characters. -/
theorem lt_toNat_of_mem_chars {c : Char} (h : c ∈ line.chars) (hdetails : c ∉ line.details.toList) :
    13 < c.toNat := by
  have hdigits : ∀ n : Int, c ∈ Decimal.chars n → 13 < c.toNat := fun n hc =>
    (toNat_lt_of_spells (spells_chars n) hc).1
  have hdb : ∀ d ∈ "db".toList, 13 < d.toNat := by simp
  have hkeys : ∀ d ∈ "keys=".toList, 13 < d.toNat := by simp
  rw [chars_eq] at h
  simp only [List.mem_append, List.mem_cons] at h
  rcases h with h | h | rfl | h | h | h
  · exact hdb c h
  · exact hdigits _ h
  · decide
  · exact hkeys c h
  · exact hdigits _ h
  · exact absurd h hdetails

theorem details_eq (line : Line) :
    line.details.toList = [] ∨ ∃ more, line.details.toList = ',' :: more := by
  rcases line.apart with h | ⟨more, h⟩
  · exact .inl (by rw [h]; rfl)
  · exact .inr ⟨more, h.symm⟩

/-- A number ends in a digit, which is no white space. -/
theorem exists_chars_eq_concat (n : Int) :
    ∃ before last, Decimal.chars n = before ++ [last] ∧ isBlank last = false := by
  have hne : Decimal.chars n ≠ [] := by
    rw [Decimal.chars]
    split
    · exact List.cons_ne_nil _ _
    · exact Nat.toDigits_ne_nil
  obtain ⟨before, last, hchars⟩ := (List.eq_nil_or_concat (Decimal.chars n)).resolve_left hne
  rw [List.concat_eq_append] at hchars
  have hlast : last ∈ Decimal.chars n := by simp [hchars]
  refine ⟨before, last, hchars, ?_⟩
  rcases isDigit_or_sign_of_spells (spells_chars n) hlast with hdigit | rfl | rfl
  · simp only [Char.isDigit, Bool.and_eq_true, decide_eq_true_eq, UInt32.le_iff_toNat_le] at hdigit
    have hlow : 48 ≤ last.toNat := hdigit.1
    have hhigh : last.toNat ≤ 57 := hdigit.2
    simp [isBlank]
    omega
  · rfl
  · rfl

theorem trim_line {last : Char} (hlast : isBlank last = false) (digits before after : List Char) :
    trim ("db".toList ++ (digits ++ ':' :: ("keys=".toList ++ (before ++ last :: after)))) =
      "db".toList ++ (digits ++ ':' :: ("keys=".toList ++
        (before ++ last :: (after.reverse.dropWhile isBlank).reverse))) := by
  have htrim := trim_append (rfl : isBlank 'd' = false) hlast
    ('b' :: (digits ++ ':' :: ("keys=".toList ++ before))) after
  simpa using htrim

/-- The line tells the same when the white space at its end is gone. -/
theorem tells_trim (line : Line) : Tells (trim (line.chars ++ ['\r'])) line.index line.count := by
  have hindex : SpellsNat (Decimal.chars line.index.toNat) line.index.toNat := spellsNat_chars _
  have hcount : Spells (Decimal.chars line.count.toInt) line.count.toInt := spells_chars _
  rcases line.details_eq with hdetails | ⟨more, hdetails⟩
  · -- nothing but the line end stands behind the last digit
    obtain ⟨before, last, hchars, hlast⟩ := exists_chars_eq_concat line.count.toInt
    have hline : line.chars ++ ['\r'] = "db".toList ++ (Decimal.chars line.index.toNat ++ ':' ::
        ("keys=".toList ++ (before ++ last :: ['\r']))) := by
      simp [chars_eq, hdetails, hchars]
    have hnumber : before ++ last :: (['\r'].reverse.dropWhile isBlank).reverse =
        Decimal.chars line.count.toInt ++ [] := by
      rw [hchars, List.append_nil]
      rfl
    rw [hline, trim_line hlast, hnumber]
    exact .mk hindex hcount (.inl rfl)
  · have hline : line.chars ++ ['\r'] = "db".toList ++ (Decimal.chars line.index.toNat ++ ':' ::
        ("keys=".toList ++ (Decimal.chars line.count.toInt ++ ',' :: (more ++ ['\r'])))) := by
      simp [chars_eq, hdetails]
    rw [hline, trim_line rfl]
    exact .mk hindex hcount (.inr ⟨_, rfl⟩)

end Line

theorem not_mem_renderedPieces {c : Char} (hc : c.toNat ≤ 13) {lines : List Line}
    (hdetails : ∀ line ∈ lines, c ∉ line.details.toList) :
    ∀ piece ∈ renderedPieces lines, c ∉ piece := by
  rw [renderedPieces, List.forall_mem_cons, List.forall_mem_map]
  constructor
  · intro hmem
    have hheader : ∀ d ∈ "# Keyspace".toList, 13 < d.toNat := by simp
    exact absurd (hheader c hmem) (Nat.not_lt.mpr hc)
  · intro line hline hmem
    exact absurd (Line.lt_toNat_of_mem_chars hmem (hdetails line hline)) (Nat.not_lt.mpr hc)

/-! ## Read for the counts -/

theorem splitOn_rendered (lines : List Line) :
    (rendered lines).toList.splitOn '\n' =
      (renderedPieces lines).map (· ++ ['\r']) ++ [[]] := by
  have hends : (rendered lines).toList =
      ['\n'].intercalate ((renderedPieces lines).map (· ++ ['\r']) ++ [[]]) := by
    rw [toList_rendered, ← flatMap_append_eq_intercalate, List.flatMap_map]
    simp
  have hpieces := not_mem_renderedPieces (c := '\n') (by decide)
    fun (line : Line) (_ : line ∈ lines) => line.oneLine.2
  rw [hends]
  apply List.splitOn_intercalate
  · simpa [or_imp, forall_and] using hpieces
  · simp

theorem tellAll_lines (lines : List Line) :
    TellAll (Keyspace.lines (rendered lines)) (lines.map Line.told) := by
  have hlast : TellAll [trim []] [] := .other (by decide) .nil
  have hlines : TellAll (lines.map (fun line => trim (line.chars ++ ['\r'])) ++ [trim []])
      (lines.map Line.told) := by
    induction lines with
    | nil => exact hlast
    | cons line lines ih => exact .told line.tells_trim ih
  have hheader : ¬ "db".toList <+: trim ("# Keyspace".toList ++ ['\r']) := by decide
  rw [Keyspace.lines, splitOn_rendered, renderedPieces]
  simpa [Function.comp_def] using TellAll.other hheader hlines

theorem ofText_rendered {counts : Keyspace} {lines : List Line}
    (h : (lines.map Line.told).Perm counts.toList) :
    ofText (rendered lines).toList = .ok counts := by
  have htold := tellAll_lines lines
  have hheader : "# Keyspace".toList <+: (rendered lines).toList := by
    rw [toList_rendered, renderedPieces, List.flatMap_cons, List.append_assoc]
    exact List.prefix_append _ _
  exact ofText_eq_ok_iff.mpr ⟨⟨hheader, exists_tellAll_iff.mp ⟨_, htold⟩⟩,
    (counted_iff_of_tellAll htold).mp (insertMany_eq_of_perm h)⟩

/-! ## Read as a description -/

theorem splitPair_rendered (lines : List Line) :
    splitPair '\r' '\n' (rendered lines).toList = renderedPieces lines ++ [[]] := by
  have hpieces := not_mem_renderedPieces (c := '\r') (by decide)
    fun (line : Line) (_ : line ∈ lines) => line.oneLine.1
  rw [toList_rendered, flatMap_append_eq_intercalate]
  apply splitPair_intercalate (by decide) (by simp)
  rw [List.forall_mem_append, List.forall_mem_singleton]
  exact ⟨fun piece hpiece hpair => hpieces piece hpiece (hpair.subset List.mem_cons_self),
    by simp⟩

/-- The first colon of a line stands behind the index of its database. -/
theorem entry?_chars (line : Line) : Info.entry? line.chars = some (line.field, line.value) := by
  have hfield : ':' ∉ line.field.toList := by
    have hdigits := (not_mem_of_spells (spells_chars line.index.toNat)).1
    simpa [Line.field, Decimal.text] using hdigits
  rw [Info.entry?, Line.chars, cut_append hfield, Option.map_some]
  dsimp only
  rw [String.ofList_toList, String.ofList_toList]

theorem filterMap_entry?_renderedPieces (lines : List Line) :
    (renderedPieces lines ++ [[]]).filterMap Info.entry? =
      lines.map fun line => (line.field, line.value) := by
  have hheader : Info.entry? "# Keyspace".toList = none := by decide
  have hlast : Info.entry? [] = none := rfl
  rw [renderedPieces, List.cons_append, List.filterMap_cons_none hheader, List.filterMap_append,
    List.filterMap_map, List.filterMap_cons_none hlast, List.filterMap_nil, List.append_nil,
    ← List.filterMap_eq_map]
  exact congrArg (fun f => List.filterMap f lines) (funext entry?_chars)

/-- Lines with one field are about one database. -/
theorem index_eq_of_field_eq {a b : Line} (h : a.field = b.field) : a.index = b.index := by
  have hdigits : Decimal.chars a.index.toNat = Decimal.chars b.index.toNat := by
    simpa [Line.field, Decimal.text] using congrArg String.toList h
  have hread := readUInt32_eq_ok_iff.mpr (spellsNat_chars a.index.toNat)
  rw [hdigits, readUInt32_eq_ok_iff.mpr (spellsNat_chars b.index.toNat)] at hread
  exact (Except.ok.inj hread).symm

theorem toList_parse_rendered {lines : List Line} (h : (lines.map Line.index).Nodup) :
    (Info.parse (Utf8.encode (rendered lines))).toList.Perm
      (lines.map fun line => (line.field, line.value)) := by
  rw [Info.parse, Utf8.decodeLossy_encode, splitPair_rendered, Info.foldl_insert_eq,
    filterMap_entry?_renderedPieces]
  apply toList_insertMany_perm
  rw [List.map_map]
  refine List.Pairwise.map _ (fun a b hne heq => hne ?_) (List.pairwise_map.mp h)
  exact index_eq_of_field_eq heq

/-! ## Both readings -/

/-- Some counts, written down line by line in any order and with any details, are read as just
these counts; and as a description they are read as one field for each line, with all that
stands behind its colon. -/
theorem parse_rendered {counts : Keyspace} {lines : List Line}
    (h : (lines.map Line.told).Perm counts.toList) :
    parse (Utf8.encode (rendered lines)) = .ok counts ∧
      (Info.parse (Utf8.encode (rendered lines))).toList.Perm
        (lines.map fun line =>
          ("db" ++ Decimal.text line.index.toNat,
            "keys=" ++ Decimal.text line.count.toInt ++ line.details)) := by
  refine ⟨parse_eq_ok_iff.mpr ⟨rendered lines, rfl, ofText_rendered h⟩, ?_⟩
  apply toList_parse_rendered
  have hindices := h.map Prod.fst
  rw [List.map_map, Std.ExtTreeMap.map_fst_toList_eq_keys] at hindices
  exact hindices.nodup_iff.mpr Std.ExtTreeMap.nodup_keys

/-- The last database, with details that look like another line and end in white space. -/
def lastDatabase : Line where
  index := 4294967295
  count := -9223372036854775808
  details := ",db1:keys=7:=\u3000"
  apart := .inr (by decide)
  oneLine := by decide

/-- The first database, with no details at all. -/
def firstDatabase : Line where
  index := 0
  count := 18
  details := ""
  apart := .inl rfl
  oneLine := by decide

theorem parse_rendered_lastFirst :
    ([lastDatabase, firstDatabase].map Line.told).Perm
        ((∅ : Keyspace).insertMany [(0, 18), (4294967295, -9223372036854775808)]).toList ∧
      parse (Utf8.encode (rendered [lastDatabase, firstDatabase])) =
        .ok ((∅ : Keyspace).insertMany [(0, 18), (4294967295, -9223372036854775808)]) ∧
      (Info.parse (Utf8.encode (rendered [lastDatabase, firstDatabase]))).toList.Perm
        [("db4294967295", "keys=-9223372036854775808,db1:keys=7:=\u3000"), ("db0", "keys=18")] := by
  have hcounts : ([lastDatabase, firstDatabase].map Line.told).Perm
      ((∅ : Keyspace).insertMany [(0, 18), (4294967295, -9223372036854775808)]).toList := by
    decide +kernel
  obtain ⟨hparse, hinfo⟩ := parse_rendered hcounts
  have hfields : [lastDatabase, firstDatabase].map (fun line =>
        ("db" ++ Decimal.text line.index.toNat,
          "keys=" ++ Decimal.text line.count.toInt ++ line.details)) =
      [("db4294967295", "keys=-9223372036854775808,db1:keys=7:=\u3000"), ("db0", "keys=18")] := by
    decide +kernel
  exact ⟨hcounts, hparse, hfields ▸ hinfo⟩

end Keyspace

end RespClient
