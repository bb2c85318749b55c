import RespClient.Text.Cut

/-!
# Where a list is cut

A cut is made at the first occurrence, of one element or of two in a row. A list without
the pair is given back by a cut behind it, and nothing that is appended moves a
cut that has been made. Pieces are found again by splitting what they are joined to.
-/

namespace RespClient

variable {α : Type} [DecidableEq α]

/-! ## Cuts at one element -/

theorem cut_eq_none_iff {x : α} {l : List α} : cut x l = none ↔ x ∉ l := by
  induction l with
  | nil => simp [cut]
  | cons y rest ih =>
      by_cases hy : y = x
      · simp [cut, hy]
      · simp [cut, hy, ih, Ne.symm hy]

theorem cut_append {x : α} {before : List α} (h : x ∉ before) (after : List α) :
    cut x (before ++ x :: after) = some (before, after) := by
  induction before with
  | nil => simp [cut]
  | cons y before ih =>
      obtain ⟨hy, hbefore⟩ : x ≠ y ∧ x ∉ before := by simpa using h
      rw [List.cons_append, cut, if_neg (Ne.symm hy), ih hbefore]
      rfl

/-- A cut is made exactly at the first occurrence of the element. -/
theorem cut_eq_some_iff {x : α} {l before after : List α} :
    cut x l = some (before, after) ↔ l = before ++ x :: after ∧ x ∉ before := by
  constructor
  · intro h
    refine ⟨eq_append_of_cut h, fun hin => ?_⟩
    obtain ⟨first, between, rfl, hfirst⟩ := List.eq_append_cons_of_mem hin
    rw [eq_append_of_cut h, List.append_assoc, List.cons_append, cut_append hfirst,
      Option.some.injEq, Prod.mk.injEq] at h
    simpa using congrArg List.length h.1
  · rintro ⟨rfl, hno⟩
    exact cut_append hno after

/-- The part before the first `x` ends where the list does, or at that `x`. -/
theorem beforeFirst_eq_iff {x : α} {l before : List α} :
    beforeFirst x l = before ↔
      x ∉ before ∧ ∃ rest, l = before ++ rest ∧ (rest = [] ∨ ∃ more, rest = x :: more) := by
  constructor
  · rintro rfl
    refine ⟨fun hin => ?_, l.dropWhile (· ≠ x), (List.takeWhile_append_dropWhile).symm, ?_⟩
    · simpa using List.all_eq_true.mp List.all_takeWhile x hin
    · cases hrest : l.dropWhile (· ≠ x) with
      | nil => exact .inl rfl
      | cons y more =>
          have hy := List.head?_dropWhile_not (· ≠ x) l
          rw [hrest, List.head?_cons] at hy
          obtain rfl : y = x := by simpa using hy
          exact .inr ⟨more, rfl⟩
  · rintro ⟨hno, rest, rfl, hrest⟩
    have hbefore : ∀ y ∈ before, decide (y ≠ x) = true := by
      intro y hy
      rw [decide_eq_true_iff]
      rintro rfl
      exact hno hy
    rw [beforeFirst, List.takeWhile_append_of_pos hbefore]
    rcases hrest with rfl | ⟨more, rfl⟩ <;> simp

/-! ## Leading parts -/

theorem dropLead?_eq_some_iff {lead l rest : List α} :
    dropLead? lead l = some rest ↔ l = lead ++ rest := by
  induction lead generalizing l with
  | nil => simp [dropLead?, eq_comm]
  | cons x lead ih =>
      cases l with
      | nil => simp [dropLead?]
      | cons y l =>
          by_cases hxy : x = y
          · simp [dropLead?, hxy, ih]
          · simp [dropLead?, hxy, Ne.symm hxy]

theorem dropLead?_eq_none_iff {lead l : List α} : dropLead? lead l = none ↔ ¬ lead <+: l := by
  rw [Option.eq_none_iff_forall_not_mem]
  constructor
  · rintro h ⟨rest, rfl⟩
    exact h rest (dropLead?_eq_some_iff.mpr rfl)
  · intro h rest hrest
    exact h ⟨rest, (dropLead?_eq_some_iff.mp hrest).symm⟩

/-! ## Cuts at two elements in a row -/

theorem cutPair_eq_none_iff {x y : α} {l : List α} : cutPair x y l = none ↔ ¬ [x, y] <:+: l := by
  induction l with
  | nil => simp [cutPair]
  | cons a l ih =>
      cases l with
      | nil =>
          simp only [cutPair, true_iff]
          intro h
          simpa using h.length_le
      | cons b l =>
          rw [cutPair, List.infix_cons_iff]
          split
          · next hab =>
              obtain ⟨rfl, rfl⟩ := hab
              simp
          · next hab =>
              have hp : ¬ [x, y] <+: a :: b :: l := by
                intro h
                simp only [List.cons_prefix_cons, List.nil_prefix, and_true] at h
                exact hab ⟨h.1.symm, h.2.symm⟩
              rw [Option.map_eq_none_iff, ih, not_or]
              exact ⟨fun h => ⟨hp, h⟩, fun h => h.2⟩

/-- With two different elements, one that ends the list begins no earlier pair. -/
theorem cutPair_append_pair {x y : α} {l : List α} (hxy : x ≠ y) (h : ¬ [x, y] <:+: l)
    (rest : List α) : cutPair x y (l ++ x :: y :: rest) = some (l, rest) := by
  induction l with
  | nil => simp [cutPair]
  | cons a l ih =>
      rw [List.infix_cons_iff, not_or] at h
      cases l with
      | nil =>
          simp [cutPair, hxy]
      | cons b l =>
          have hne : ¬ (a = x ∧ b = y) := by
            rintro ⟨rfl, rfl⟩
            exact h.1 (by simp)
          have ih := ih h.2
          rw [List.cons_append] at ih
          rw [List.cons_append, List.cons_append, cutPair, if_neg hne, ih]
          rfl

theorem cutPair_append {x y : α} {l before after : List α}
    (h : cutPair x y l = some (before, after)) (more : List α) :
    cutPair x y (l ++ more) = some (before, after ++ more) := by
  induction l generalizing before with
  | nil => simp [cutPair] at h
  | cons a l ih =>
      cases l with
      | nil => simp [cutPair] at h
      | cons b l =>
          rw [cutPair] at h
          rw [List.cons_append, List.cons_append, cutPair]
          split at h
          · next hab =>
              obtain ⟨rfl, rfl⟩ := Prod.mk.inj (Option.some.inj h)
              rw [if_pos hab]
          · next hab =>
              obtain ⟨⟨p, q⟩, hc, he⟩ := Option.map_eq_some_iff.mp h
              obtain ⟨rfl, rfl⟩ := Prod.mk.inj he
              have ih := ih hc
              rw [List.cons_append] at ih
              rw [if_neg hab, ih]
              rfl

/-- A list that holds the pair is cut inside, whatever is appended. -/
theorem cutPair_of_infix {x y : α} {l : List α} (h : [x, y] <:+: l) :
    ∃ before after, l = before ++ x :: y :: after ∧
      ∀ more, cutPair x y (l ++ more) = some (before, after ++ more) := by
  cases hc : cutPair x y l with
  | none => exact absurd h (cutPair_eq_none_iff.mp hc)
  | some parts =>
      obtain ⟨before, after⟩ := parts
      exact ⟨before, after, eq_append_of_cutPair hc, cutPair_append hc⟩

/-- A cut is made exactly at the first occurrence of the pair. -/
theorem cutPair_eq_some_iff {x y : α} {l before after : List α} (hxy : x ≠ y) :
    cutPair x y l = some (before, after) ↔
      l = before ++ x :: y :: after ∧ ¬ [x, y] <:+: before := by
  constructor
  · intro h
    refine ⟨eq_append_of_cutPair h, fun hin => ?_⟩
    obtain ⟨first, between, rfl, hcut⟩ := cutPair_of_infix hin
    rw [eq_append_of_cutPair h, hcut, Option.some.injEq, Prod.mk.injEq] at h
    simpa using congrArg List.length h.1
  · rintro ⟨rfl, hno⟩
    exact cutPair_append_pair hxy hno after

/-! ## Cuts at every occurrence -/

theorem split_eq_splitOn (x : α) (l : List α) : split x l = l.splitOn x := by
  induction l with
  | nil => rfl
  | cons y rest ih =>
      rw [split, List.splitOn_cons_eq_if_modifyHead, ih]
      by_cases hy : y = x
      · simp [hy]
      · cases hrest : rest.splitOn x with
        | nil => exact absurd hrest (List.splitOn_ne_nil x rest)
        | cons piece pieces => simp [hy, consFirst]

/-- The first piece ends at the first cut, and the others are the pieces of what follows. -/
theorem splitPair_eq (x y : α) (l : List α) :
    splitPair x y l =
      match cutPair x y l with
      | none => [l]
      | some (before, after) => before :: splitPair x y after := by
  induction l with
  | nil => rfl
  | cons a l ih =>
      cases l with
      | nil => rfl
      | cons b l =>
          rw [splitPair, cutPair]
          by_cases hab : a = x ∧ b = y
          · rw [if_pos hab, if_pos hab]
          · rw [if_neg hab, if_neg hab, ih]
            cases cutPair x y (b :: l) with
            | none => rfl
            | some parts => rfl

/-- Pieces without the pair, joined by it, are found again. -/
theorem splitPair_intercalate {x y : α} (hxy : x ≠ y) {pieces : List (List α)}
    (hne : pieces ≠ []) (h : ∀ piece ∈ pieces, ¬ [x, y] <:+: piece) :
    splitPair x y ([x, y].intercalate pieces) = pieces := by
  induction pieces with
  | nil => exact absurd rfl hne
  | cons piece pieces ih =>
      obtain ⟨hpiece, hpieces⟩ := List.forall_mem_cons.mp h
      rw [splitPair_eq]
      cases pieces with
      | nil =>
          rw [List.intercalate_singleton, cutPair_eq_none_iff.mpr hpiece]
      | cons next pieces =>
          rw [List.intercalate_cons_cons, List.append_assoc]
          have hcut := cutPair_append_pair hxy hpiece ([x, y].intercalate (next :: pieces))
          have hpair : [x, y] ++ [x, y].intercalate (next :: pieces) =
              x :: y :: [x, y].intercalate (next :: pieces) := rfl
          rw [hpair, hcut]
          dsimp only
          rw [ih (List.cons_ne_nil _ _) hpieces]

end RespClient
