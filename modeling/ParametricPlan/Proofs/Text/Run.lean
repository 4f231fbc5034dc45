/-
ParametricPlan/Proofs/Text/Run.lean

Runs.

A run of elements of one class ends where the class does: if what follows does not go on with it,
then the run is what `takeWhile` takes, and what follows is what `dropWhile` leaves.  So a list
that begins with a run tells the run and what follows it (`run_append_inj`).
-/
import Mathlib.Data.List.TakeDrop

namespace ParametricPlan

variable {α : Type} {p : α → Bool} {run rest : List α}

/-- The run is taken up to its end. -/
theorem takeWhile_run (h : ∀ a ∈ run, p a = true) (hrest : ∀ a ∈ rest.head?, p a = false) :
    (run ++ rest).takeWhile p = run := by
  rw [List.takeWhile_append_of_pos h]
  rcases rest with - | ⟨a, rest⟩
  · exact List.append_nil run
  · rw [List.takeWhile_cons_of_neg (by simpa using hrest a rfl), List.append_nil]

/-- What follows the run is left. -/
theorem dropWhile_run (h : ∀ a ∈ run, p a = true) (hrest : ∀ a ∈ rest.head?, p a = false) :
    (run ++ rest).dropWhile p = rest := by
  rw [List.dropWhile_append_of_pos h]
  rcases rest with - | ⟨a, rest⟩
  · rfl
  · exact List.dropWhile_cons_of_neg (by simpa using hrest a rfl)

/-- A list is cut where the run ends. -/
theorem span_run (h : ∀ a ∈ run, p a = true) (hrest : ∀ a ∈ rest.head?, p a = false) :
    (run ++ rest).span p = (run, rest) := by
  rw [List.span_eq_takeWhile_dropWhile, takeWhile_run h hrest, dropWhile_run h hrest]

/-- A run, before what does not go on with it, is told by the whole. -/
theorem run_append_inj {run' rest' : List α} (h : ∀ a ∈ run, p a = true)
    (h' : ∀ a ∈ run', p a = true) (hrest : ∀ a ∈ rest.head?, p a = false)
    (hrest' : ∀ a ∈ rest'.head?, p a = false) (heq : run ++ rest = run' ++ rest') :
    run = run' ∧ rest = rest' := by
  have hspan := span_run h hrest
  rw [heq, span_run h' hrest'] at hspan
  exact ⟨(congrArg Prod.fst hspan).symm, (congrArg Prod.snd hspan).symm⟩

end ParametricPlan
