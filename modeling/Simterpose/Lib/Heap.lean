import Mathlib.Logic.Function.Basic

/-! # Heaps

Objects live in numbered cells. `alloc` stores an object in the cell `next`, the first
that was never used. Freeing a cell only marks it: the contents stay readable and
writable, which is what a program that touches an object after freeing it observes as
long as the address is not handed out again. An allocator that does hand addresses out
again moves `next` before it allocates, to any address that is offered.
-/

namespace Simterpose.Lib

universe u

structure Heap (α : Type u) where
  next : Nat
  cell : Nat → α
  freed : Nat → Bool

namespace Heap

variable {α : Type u}

def empty (a : α) : Heap α := ⟨0, fun _ => a, fun _ => false⟩

/-- Store a new object; its address is `h.next`. -/
def alloc (h : Heap α) (a : α) : Heap α :=
  { next := h.next + 1, cell := Function.update h.cell h.next a
    freed := Function.update h.freed h.next false }

def modify (h : Heap α) (i : Nat) (f : α → α) : Heap α :=
  { h with cell := Function.update h.cell i (f (h.cell i)) }

def free (h : Heap α) (i : Nat) : Heap α :=
  { h with freed := Function.update h.freed i true }

/-- An address that may be handed out: one that never was, or one that was freed. -/
def Offers (h : Heap α) (i : Nat) : Prop := i = h.next ∨ i < h.next ∧ h.freed i = true

instance (h : Heap α) (i : Nat) : Decidable (h.Offers i) := inferInstanceAs (Decidable (_ ∨ _))

/-- The address that is handed out next is `i`. -/
def offering (h : Heap α) (i : Nat) : Heap α := { h with next := i }

/-- All addresses below `n` were handed out before. -/
def covering (h : Heap α) (n : Nat) : Heap α := { h with next := max n h.next }

variable (h : Heap α) (a : α) (f : α → α) (i j : Nat)

/-- An address in use is not handed out again. -/
theorem not_mem_of_offers {h : Heap α} {i : Nat} (offered : h.Offers i) {used : List Nat}
    (live : ∀ j ∈ used, j < h.next ∧ h.freed j = false) : i ∉ used := by
  intro member
  obtain ⟨old, unfreed⟩ := live i member
  rcases offered with rfl | ⟨-, freed⟩
  · exact Nat.lt_irrefl _ old
  · simp [unfreed] at freed

@[simp] theorem next_alloc : (h.alloc a).next = h.next + 1 := rfl
@[simp] theorem freed_modify : (h.modify i f).freed j = h.freed j := rfl
@[simp] theorem cell_free : (h.free i).cell j = h.cell j := rfl

@[simp] theorem cell_alloc_self : (h.alloc a).cell h.next = a := by simp [alloc]

theorem cell_alloc : (h.alloc a).cell j = if j = h.next then a else h.cell j := by
  simp [alloc, Function.update_apply]

theorem freed_alloc : (h.alloc a).freed j = if j = h.next then false else h.freed j := by
  simp [alloc, Function.update_apply]

@[simp] theorem cell_modify_self : (h.modify i f).cell i = f (h.cell i) := by simp [modify]

theorem cell_modify : (h.modify i f).cell j = if j = i then f (h.cell j) else h.cell j := by
  by_cases same : j = i
  · subst same; simp [modify]
  · simp [modify, same]

theorem freed_free : (h.free i).freed j = if j = i then true else h.freed j := by
  simp [free, Function.update_apply]

/-- One field of all cells, after a cell was changed. -/
theorem proj_modify {β : Sort*} (g : α → β) :
    (fun j => g ((h.modify i f).cell j)) =
      Function.update (fun j => g (h.cell j)) i (g (f (h.cell i))) := by
  funext j
  by_cases same : j = i
  · subst same; simp
  · simp [cell_modify, same]

/-- One field of all cells, after a cell was added. -/
theorem proj_alloc {β : Sort*} (g : α → β) :
    (fun j => g ((h.alloc a).cell j)) = Function.update (fun j => g (h.cell j)) h.next (g a) := by
  funext j
  by_cases same : j = h.next
  · subst same; simp
  · simp [cell_alloc, same]

end Heap

end Simterpose.Lib
