import Mathlib.Data.List.AList
import Mathlib.Algebra.BigOperators.Group.List.Basic
import Mathlib.Algebra.GroupWithZero.Nat

/-! # Sums over the values of an association list -/

namespace Simterpose.Lib

universe u v

variable {α : Type u} [DecidableEq α] {β : Type v}

/-- The sum of `f` over the values of a table. -/
def tally (f : β → Nat) (t : AList fun _ : α => β) : Nat := (t.entries.map fun e => f e.2).sum

private theorem sum_kerase (f : β → Nat) {a : α} {b : β} {l : List (Sigma fun _ : α => β)}
    (found : l.dlookup a = some b) :
    f b + ((l.kerase a).map fun e => f e.2).sum = (l.map fun e => f e.2).sum := by
  induction l with
  | nil => simp at found
  | cons e l ih =>
      obtain ⟨a', b'⟩ := e
      by_cases same : a = a'
      · subst same
        simp at found
        simp [found]
      · rw [List.dlookup_cons_ne _ _ same] at found
        rw [List.kerase_cons_ne same]
        simp only [List.map_cons, List.sum_cons, ← ih found]
        omega

variable (f : β → Nat) (t : AList fun _ : α => β) {a : α} {b : β}

theorem tally_insert (a : α) (b : β) : tally f (t.insert a b) = f b + tally f (t.erase a) := rfl

theorem tally_erase_of_lookup (found : t.lookup a = some b) :
    f b + tally f (t.erase a) = tally f t :=
  sum_kerase f found

theorem tally_erase_of_absent (absent : t.lookup a = none) : tally f (t.erase a) = tally f t := by
  have missing : a ∉ t.entries.keys := List.dlookup_eq_none.mp absent
  have same : (t.erase a).entries = t.entries := List.kerase_of_notMem_keys missing
  simp only [tally, same]

theorem tally_eq_zero (zero : ∀ a b, t.lookup a = some b → f b = 0) : tally f t = 0 := by
  refine List.sum_eq_zero fun n member => ?_
  obtain ⟨⟨a, b⟩, entry, rfl⟩ := List.mem_map.mp member
  exact zero a b (AList.mem_lookup_iff.mpr entry)

end Simterpose.Lib
