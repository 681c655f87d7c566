import BridgeBidding.Text.Split
import Mathlib.Data.List.Basic

/-!
# Cutting and joining

Cutting a text at a separator and joining pieces with it undo each other, for pieces in which the
separator does not occur (`Text.splitOn_eq_iff`).
-/

set_option autoImplicit false
set_option relaxedAutoImplicit false

namespace BridgeBidding.Text

variable {separator character : Char} {characters piece : List Char} {pieces : List (List Char)}

/-- A character that is no separator belongs to the first piece. -/
theorem exists_splitOn_cons (h : character ≠ separator) (rest : List Char) :
    ∃ first others, splitOn separator rest = first :: others ∧
      splitOn separator (character :: rest) = (character :: first) :: others := by
  cases hpieces : splitOn separator rest with
  | nil => exact absurd hpieces (splitOn_ne_nil separator rest)
  | cons first others =>
    refine ⟨first, others, rfl, ?_⟩
    rw [splitOn, if_neg h, hpieces]

theorem splitOn_eq (separator : Char) (characters : List Char) :
    splitOn separator characters = characters.splitOn separator := by
  induction characters with
  | nil => rfl
  | cons character rest ih =>
    rw [List.splitOn_cons_eq_if_modifyHead, ← ih]
    by_cases hseparator : character = separator
    · rw [splitOn, if_pos hseparator, if_pos (beq_iff_eq.mpr hseparator)]
    · obtain ⟨first, others, hrest, hcons⟩ := exists_splitOn_cons hseparator rest
      rw [hcons, hrest, if_neg (mt beq_iff_eq.mp hseparator), List.modifyHead_cons]

theorem not_mem_of_mem_splitOn (h : piece ∈ splitOn separator characters) : separator ∉ piece := by
  induction characters generalizing piece with
  | nil =>
    rw [List.mem_singleton.mp h]
    exact List.not_mem_nil
  | cons character rest ih =>
    by_cases hseparator : character = separator
    · rw [splitOn, if_pos hseparator] at h
      rcases List.mem_cons.mp h with rfl | hrest
      · exact List.not_mem_nil
      · exact ih hrest
    · obtain ⟨first, others, hrest, hcons⟩ := exists_splitOn_cons hseparator rest
      rw [hcons] at h
      rw [hrest] at ih
      rcases List.mem_cons.mp h with rfl | hother
      · exact List.not_mem_cons_of_ne_of_not_mem (Ne.symm hseparator) (ih List.mem_cons_self)
      · exact ih (List.mem_cons_of_mem _ hother)

/-- A text is cut into the pieces without the separator that it is joined of. -/
theorem splitOn_eq_iff (hsome : pieces ≠ []) :
    splitOn separator characters = pieces ↔
      characters = [separator].intercalate pieces ∧ ∀ piece ∈ pieces, separator ∉ piece := by
  constructor
  · rintro rfl
    refine ⟨?_, fun piece ↦ not_mem_of_mem_splitOn⟩
    rw [splitOn_eq, List.intercalate_splitOn]
  · rintro ⟨rfl, hpieces⟩
    rw [splitOn_eq, List.splitOn_intercalate separator hpieces hsome]

/-- What is joined is the separator and the pieces. -/
theorem mem_of_mem_intercalate (h : character ∈ [separator].intercalate pieces) :
    character = separator ∨ ∃ piece ∈ pieces, character ∈ piece := by
  induction pieces with
  | nil => exact absurd h List.not_mem_nil
  | cons piece rest ih =>
    cases rest with
    | nil =>
      rw [List.intercalate_singleton] at h
      exact .inr ⟨piece, List.mem_cons_self, h⟩
    | cons next others =>
      rw [List.intercalate_cons_cons, List.append_assoc, List.mem_append, List.mem_append,
        List.mem_singleton] at h
      rcases h with hpiece | hseparator | hrest
      · exact .inr ⟨piece, List.mem_cons_self, hpiece⟩
      · exact .inl hseparator
      · exact (ih hrest).imp_right fun ⟨found, hfound, hmem⟩ ↦
          ⟨found, List.mem_cons_of_mem _ hfound, hmem⟩

end BridgeBidding.Text
