import Mathlib.Data.List.Nodup
import Mathlib.Data.List.Perm.Subperm
import Mathlib.Logic.Function.Iterate

/-! # Looking for a value that is not in use

A loop that steps on from a candidate for as long as the candidate is in use ends within one
round more than there are values in use, provided that stepping does not repeat itself before.
-/

namespace Simterpose.Lib

universe u

variable {α : Type u} [DecidableEq α] {next : α → α} {used : List α}

/-- Step on as long as the candidate is in use, for at most so many rounds. -/
def firstUnused (next : α → α) (used : List α) : (rounds : Nat) → α → Option α
  | 0, _ => none
  | rounds + 1, a => if a ∈ used then firstUnused next used rounds (next a) else some a

theorem notMem_of_firstUnused {rounds : Nat} {a b : α}
    (found : firstUnused next used rounds a = some b) : b ∉ used := by
  induction rounds generalizing a with
  | zero => cases found
  | succ rounds ih =>
      simp only [firstUnused] at found
      split at found
      · exact ih found
      · rename_i free
        cases found
        exact free

theorem used_of_firstUnused_none {rounds : Nat} {a : α}
    (failed : firstUnused next used rounds a = none) {i : Nat} (early : i < rounds) :
    next^[i] a ∈ used := by
  induction rounds generalizing a i with
  | zero => omega
  | succ rounds ih =>
      simp only [firstUnused] at failed
      split at failed
      · rename_i taken
        cases i with
        | zero => exact taken
        | succ i => exact ih failed (by omega)
      · cases failed

theorem exists_firstUnused (a : α)
    (apart : ∀ i ≤ used.length, ∀ j ≤ used.length, next^[i] a = next^[j] a → i = j) :
    ∃ b, firstUnused next used (used.length + 1) a = some b := by
  cases found : firstUnused next used (used.length + 1) a with
  | some b => exact ⟨b, rfl⟩
  | none =>
      -- all candidates would be in use, and they are too many
      have tried : ((List.range (used.length + 1)).map fun i => next^[i] a).Nodup := by
        apply List.Nodup.map_on _ List.nodup_range
        intro i first j second same
        rw [List.mem_range] at first second
        exact apart i (by omega) j (by omega) same
      have taken : ((List.range (used.length + 1)).map fun i => next^[i] a) ⊆ used := by
        intro b listed
        obtain ⟨i, early, rfl⟩ := List.mem_map.mp listed
        exact used_of_firstUnused_none found (List.mem_range.mp early)
      have few := tried.length_le_of_subset taken
      simp only [List.length_map, List.length_range] at few
      omega

end Simterpose.Lib
