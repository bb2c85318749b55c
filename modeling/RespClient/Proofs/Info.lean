import RespClient.Info
import RespClient.Proofs.LastEntry
import RespClient.Proofs.Text.Cut
import RespClient.Proofs.Text.Lossy

/-!
# A description is read piece by piece

The text of a whole description is taken apart into lines, and lines into fields and values.
It comes to the same to take the bytes apart, and to read the text of each field and value by
itself: bytes that are not UTF-8 spoil neither the lines around them nor the other half of
their own line.
-/

namespace RespClient

open Utf8

/-- Text is split at two ASCII characters where the bytes are split at theirs. -/
theorem splitPair_decodeLossy {a b : UInt8} (ha : a.toNat ≤ 0x7F) (hb : b.toNat ≤ 0x7F)
    (hab : a ≠ b) (bytes : Bytes) :
    splitPair (Char.ofNat a.toNat) (Char.ofNat b.toNat) (decodeLossy bytes) =
      (splitPair a b bytes).map decodeLossy := by
  have hne : Char.ofNat a.toNat ≠ Char.ofNat b.toNat := by
    intro h
    have hn := congrArg Char.toNat h
    rw [toNat_ofNat_ascii ha, toNat_ofNat_ascii hb] at hn
    exact hab (UInt8.toNat_inj.mp hn)
  -- on the length, since what follows a cut is no tail that the recursion of `splitPair` meets
  induction h : bytes.length using Nat.strongRecOn generalizing bytes with
  | ind n ih =>
      rw [splitPair_eq, splitPair_eq a b]
      cases hcut : cutPair a b bytes with
      | none =>
          have hno := cutPair_eq_none_iff.mp hcut
          rw [← pair_infix_decodeLossy_iff ha hb] at hno
          rw [cutPair_eq_none_iff.mpr hno]
          rfl
      | some parts =>
          obtain ⟨before, after⟩ := parts
          obtain ⟨rfl, hno⟩ := (cutPair_eq_some_iff hab).mp hcut
          rw [← pair_infix_decodeLossy_iff ha hb] at hno
          have htext := decodeLossy_append_ascii hb [] after
          rw [List.nil_append, show decodeLossy [] = [] from rfl, List.nil_append] at htext
          rw [decodeLossy_append_ascii ha, htext, cutPair_append_pair hne hno]
          dsimp only
          rw [List.map_cons, ih after.length ?_ after rfl]
          simp only [← h, List.length_append, List.length_cons]
          omega

theorem cut_decodeLossy {b : UInt8} (hb : b.toNat ≤ 0x7F) (bytes : Bytes) :
    cut (Char.ofNat b.toNat) (decodeLossy bytes) =
      (cut b bytes).map fun (before, after) => (decodeLossy before, decodeLossy after) := by
  cases hcut : cut b bytes with
  | none =>
      have hno := cut_eq_none_iff.mp hcut
      rw [← mem_decodeLossy_iff hb] at hno
      rw [cut_eq_none_iff.mpr hno]
      rfl
  | some parts =>
      obtain ⟨before, after⟩ := parts
      obtain ⟨rfl, hno⟩ := cut_eq_some_iff.mp hcut
      rw [← mem_decodeLossy_iff hb] at hno
      rw [decodeLossy_append_ascii hb, cut_append hno]
      rfl

namespace Info

/-- The text of some bytes, each bad sequence as one U+FFFD. -/
def textOf (bytes : Bytes) : String :=
  String.ofList (decodeLossy bytes)

/-- What a piece of a description adds to it: what stands before and after its first colon, if
it has one, each read by itself. -/
def entryOf? (piece : Bytes) : Option (String × String) :=
  (cut 58 piece).map fun (field, value) => (textOf field, textOf value)

/-- What the pieces of a description add to it, in order. -/
def pieceEntries (pieces : List Bytes) : List (String × String) :=
  pieces.filterMap entryOf?

theorem entry?_decodeLossy (piece : Bytes) : entry? (decodeLossy piece) = entryOf? piece := by
  have hcut := cut_decodeLossy (b := 58) (by decide) piece
  unfold entry?
  rw [show ':' = Char.ofNat (58 : UInt8).toNat from rfl, hcut, Option.map_map]
  rfl

theorem foldl_insert_eq (entries : List (String × String)) (info : Info) :
    entries.foldl (fun info (field, value) => info.insert field value) info =
      info.insertMany entries := by
  induction entries generalizing info with
  | nil => rw [List.foldl_nil, Std.ExtTreeMap.insertMany_nil]
  | cons entry entries ih => rw [List.foldl_cons, ih, Std.ExtTreeMap.insertMany_cons]

theorem parse_eq_insertMany (bytes : Bytes) :
    parse bytes = (∅ : Info).insertMany (pieceEntries (splitPair 13 10 bytes)) := by
  have hsplit := splitPair_decodeLossy (a := 13) (b := 10) (by decide) (by decide) (by decide) bytes
  have hpieces : splitPair '\r' '\n' (decodeLossy bytes) =
      (splitPair 13 10 bytes).map decodeLossy := hsplit
  rw [parse, foldl_insert_eq, hpieces, List.filterMap_map]
  congr 1
  exact congrArg (fun f => List.filterMap f _) (funext entry?_decodeLossy)

/-- A description is what its pieces add to it, in order, each read by itself. So whatever one
piece is replaced by, the others add what they did before. -/
theorem parse_piecewise :
    (∀ bytes : Bytes,
      parse bytes = (∅ : Info).insertMany (pieceEntries (splitPair 13 10 bytes)) ∧
        ∀ field value, (parse bytes)[field]? = some value ↔
          LastUnder (pieceEntries (splitPair 13 10 bytes)) field value) ∧
    ∀ {before after : List Bytes} {piece : Bytes},
      (∀ p ∈ before ++ piece :: after, ¬ crlf <:+: p) →
        parse (crlf.intercalate (before ++ piece :: after)) =
          (∅ : Info).insertMany
            (pieceEntries before ++ (entryOf? piece).toList ++ pieceEntries after) := by
  constructor
  · intro bytes
    refine ⟨parse_eq_insertMany bytes, fun field value => ?_⟩
    rw [parse_eq_insertMany, getElem?_insertMany_empty_iff]
  · intro before after piece hpieces
    rw [parse_eq_insertMany]
    have hsplit : splitPair 13 10 (crlf.intercalate (before ++ piece :: after)) =
        before ++ piece :: after :=
      splitPair_intercalate (by decide) (by simp) hpieces
    rw [hsplit]
    simp only [pieceEntries, List.filterMap_append, List.filterMap_cons]
    cases entryOf? piece <;> simp

/-- Lines that end inside a character, before the line end and before the colon. -/
def brokenOff : List Bytes :=
  [ascii "role:" ++ [0xE2, 0x82], [0xF0, 0x9F] ++ ascii ":a:b\r"]

/-- A line that goes on with what could have ended a character, and one with no colon. -/
def goneOn : List Bytes :=
  [[10, 0x82, 0xAC] ++ ascii "role:" ++ [0xC3], ascii "# Server"]

theorem parse_piecewise_brokenOff :
    (parse (crlf.intercalate (brokenOff ++ ascii "role:slave" :: goneOn))).toList =
        [("\n\uFFFD\uFFFDrole", "\uFFFD"), ("role", "slave"), ("\uFFFD", "a:b\r")] ∧
      (parse (crlf.intercalate (brokenOff ++ ascii "slave" :: goneOn))).toList =
        [("\n\uFFFD\uFFFDrole", "\uFFFD"), ("role", "\uFFFD"), ("\uFFFD", "a:b\r")] := by
  constructor
  · rw [parse_piecewise.2 (by decide +kernel)]
    decide +kernel
  · rw [parse_piecewise.2 (by decide +kernel)]
    decide +kernel

end Info

end RespClient
