/-!
# Cutting lists at separators

Texts and byte strings are taken apart in three ways: at the first occurrence of
an element, at the first occurrence of two elements in a row, and at every
occurrence of either.
-/

namespace RespClient

variable {α : Type} [DecidableEq α]

/-- The parts before and after the first `x`. -/
def cut (x : α) : List α → Option (List α × List α)
  | [] => none
  | y :: rest =>
      if y = x then some ([], rest)
      else (cut x rest).map fun (before, after) => (y :: before, after)

/-- The parts before and after the first `x` that `y` follows at once. -/
def cutPair (x y : α) : List α → Option (List α × List α)
  | a :: b :: rest =>
      if a = x ∧ b = y then some ([], rest)
      else (cutPair x y (b :: rest)).map fun (before, after) => (a :: before, after)
  | _ => none

/-- Put an element in front of the first of several pieces. -/
def consFirst {α : Type} (a : α) : List (List α) → List (List α)
  | [] => [[a]]
  | piece :: pieces => (a :: piece) :: pieces

/-- The pieces between the occurrences of `x`; there is always at least one. -/
def split (x : α) : List α → List (List α)
  | [] => [[]]
  | y :: rest => if y = x then [] :: split x rest else consFirst y (split x rest)

/-- The pieces between the occurrences of `x` and `y` in a row. -/
def splitPair (x y : α) : List α → List (List α)
  | a :: b :: rest =>
      if a = x ∧ b = y then [] :: splitPair x y rest
      else consFirst a (splitPair x y (b :: rest))
  | [a] => [[a]]
  | [] => [[]]

/-- What follows `lead`, if the list begins with it. -/
def dropLead? : List α → List α → Option (List α)
  | [], rest => some rest
  | x :: lead, y :: rest => if x = y then dropLead? lead rest else none
  | _ :: _, [] => none

/-- The part before the first `x`, or everything. -/
def beforeFirst (x : α) (l : List α) : List α :=
  l.takeWhile (· ≠ x)

/-- A cut loses only the separator. -/
theorem eq_append_of_cut {x : α} {l before after : List α}
    (h : cut x l = some (before, after)) : l = before ++ x :: after := by
  induction l generalizing before with
  | nil => simp [cut] at h
  | cons y rest ih =>
      by_cases hy : y = x
      · obtain ⟨rfl, rfl⟩ : [] = before ∧ rest = after := by simpa [cut, hy] using h
        simp [hy]
      · cases hc : cut x rest with
        | none => simp [cut, hy, hc] at h
        | some parts =>
            obtain ⟨p, q⟩ := parts
            obtain ⟨rfl, rfl⟩ : y :: p = before ∧ q = after := by simpa [cut, hy, hc] using h
            simp [ih hc]

/-- A cut at two elements loses only these. -/
theorem eq_append_of_cutPair {x y : α} {l before after : List α}
    (h : cutPair x y l = some (before, after)) : l = before ++ x :: y :: after := by
  induction l generalizing before with
  | nil => simp [cutPair] at h
  | cons a rest ih =>
      cases rest with
      | nil => simp [cutPair] at h
      | cons b rest =>
          by_cases hab : a = x ∧ b = y
          · obtain ⟨rfl, rfl⟩ : [] = before ∧ rest = after := by simpa [cutPair, hab] using h
            simp [hab]
          · cases hc : cutPair x y (b :: rest) with
            | none => simp [cutPair, hab, hc] at h
            | some parts =>
                obtain ⟨p, q⟩ := parts
                obtain ⟨rfl, rfl⟩ : a :: p = before ∧ q = after := by
                  simpa [cutPair, hab, hc] using h
                simp [ih hc]

end RespClient
