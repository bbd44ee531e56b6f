import Mathlib

/-!
# Removing characters at both ends

What is left when the characters of a kind are removed at both ends of a text: the text is cut
into characters of the kind, what is left, and again characters of the kind, and what is left
neither begins nor ends with one.
-/

namespace ContractKit.Text

variable {p : Char → Bool} {cs body before after : List Char}

/-- A text without the characters of a kind at its ends. -/
def trimEnds (p : Char → Bool) (cs : List Char) : List Char :=
  ((cs.dropWhile p).reverse.dropWhile p).reverse

/-- A part of a text that neither begins nor ends with a character of a kind. -/
structure Trimmed (p : Char → Bool) (body : List Char) : Prop where
  head : ∀ c ∈ body.head?, p c = false
  last : ∀ c ∈ body.getLast?, p c = false

theorem dropWhile_append (hbefore : ∀ c ∈ before, p c = true)
    (hhead : ∀ c ∈ body.head?, p c = false) : (before ++ body).dropWhile p = body := by
  rw [List.dropWhile_append_of_pos hbefore]
  cases body with
  | nil => rfl
  | cons c rest => simp [hhead c (by simp)]

theorem trimEnds_append (hbefore : ∀ c ∈ before, p c = true) (hafter : ∀ c ∈ after, p c = true)
    (hne : body ≠ []) (h : Trimmed p body) : trimEnds p (before ++ body ++ after) = body := by
  have hhead : ∀ c ∈ (body ++ after).head?, p c = false := by
    rw [List.head?_append_of_ne_nil _ hne]
    exact h.head
  have hlast : ∀ c ∈ body.reverse.head?, p c = false := by
    rw [List.head?_reverse]
    exact h.last
  rw [trimEnds, List.append_assoc, dropWhile_append hbefore hhead, List.reverse_append,
    dropWhile_append (by simpa using hafter) hlast, List.reverse_reverse]

theorem exists_of_trimEnds (p : Char → Bool) (cs : List Char) (hne : trimEnds p cs ≠ []) :
    ∃ before after, cs = before ++ trimEnds p cs ++ after ∧ (∀ c ∈ before, p c = true) ∧
      (∀ c ∈ after, p c = true) ∧ Trimmed p (trimEnds p cs) := by
  have hfront : cs = cs.takeWhile p ++ cs.dropWhile p := List.takeWhile_append_dropWhile.symm
  have hback : cs.dropWhile p =
      trimEnds p cs ++ ((cs.dropWhile p).reverse.takeWhile p).reverse := by
    rw [trimEnds, ← List.reverse_append, List.takeWhile_append_dropWhile, List.reverse_reverse]
  refine ⟨cs.takeWhile p, ((cs.dropWhile p).reverse.takeWhile p).reverse, ?_, ?_, ?_, ?_, ?_⟩
  · rw [List.append_assoc, ← hback]
    exact hfront
  · intro c hc
    exact List.mem_takeWhile_imp hc
  · intro c hc
    exact List.mem_takeWhile_imp (List.mem_reverse.mp hc)
  · -- What is left begins as the text does after the characters of the kind.
    intro c hc
    have hhead : (cs.dropWhile p).head? = some c := by
      rw [hback, List.head?_append_of_ne_nil _ hne]
      exact hc
    have hnot := List.head?_dropWhile_not p cs
    rw [hhead] at hnot
    simpa using hnot
  · intro c hc
    rw [trimEnds, List.getLast?_reverse] at hc
    have hnot := List.head?_dropWhile_not p (cs.dropWhile p).reverse
    rw [Option.mem_def.mp hc] at hnot
    simpa using hnot

theorem trimEnds_eq_iff (hne : body ≠ []) :
    trimEnds p cs = body ↔ ∃ before after, cs = before ++ body ++ after ∧
      (∀ c ∈ before, p c = true) ∧ (∀ c ∈ after, p c = true) ∧ Trimmed p body := by
  constructor
  · rintro rfl
    exact exists_of_trimEnds p cs hne
  · rintro ⟨before, after, rfl, hbefore, hafter, h⟩
    exact trimEnds_append hbefore hafter hne h

end ContractKit.Text
