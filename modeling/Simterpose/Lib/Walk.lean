import Mathlib.Data.List.Basic
import Simterpose.Lib.Loop

/-! # Loops over a list that changes under them

A loop by index which compares the index with the current length in each round, and whose
body appends to the list or removes the element it stands on. Appending may never come to
an end, so that loop is given a number of rounds. The same loops with an unsigned index, which is
set back after a removal and then wraps around at the first element, do what these do.
-/

namespace Simterpose.Lib

universe u

variable {α : Type u} (chosen : α → Bool)

/-- Append `copy a` for each chosen element `a`, the appended ones included. -/
def appendWalk (copy : α → α) : (rounds index : Nat) → List α → Option (List α)
  | 0, _, _ => none
  | rounds + 1, index, xs =>
      match xs[index]? with
      | none => some xs
      | some a =>
          if chosen a then appendWalk copy rounds (index + 1) (xs ++ [copy a])
          else appendWalk copy rounds (index + 1) xs

/-- Remove each chosen element; the index stays where one was removed. -/
def eraseWalk : (rounds index : Nat) → List α → List α
  | 0, _, xs => xs
  | rounds + 1, index, xs =>
      match xs[index]? with
      | none => xs
      | some a =>
          if chosen a then eraseWalk rounds index (xs.eraseIdx index)
          else eraseWalk rounds (index + 1) xs

variable {chosen} {copy : α → α}

/-- When no copy is chosen again, the walk appends the copies of what it finds. -/
theorem appendWalk_of_fresh {rounds index : Nat} {xs : List α}
    (fresh : ∀ a ∈ xs.drop index, chosen a = true → chosen (copy a) = false)
    (enough : (xs.length - index) + ((xs.drop index).filter chosen).length < rounds) :
    appendWalk chosen copy rounds index xs =
      some (xs ++ ((xs.drop index).filter chosen).map copy) := by
  induction rounds generalizing index xs with
  | zero => omega
  | succ rounds ih =>
      unfold appendWalk
      split
      · rename_i beyond
        rw [List.drop_eq_nil_of_le (List.getElem?_eq_none_iff.mp beyond)]
        simp
      · rename_i a here
        obtain ⟨inside, rfl⟩ := List.getElem?_eq_some_iff.mp here
        rw [List.drop_eq_getElem_cons inside] at fresh enough ⊢
        rw [List.forall_mem_cons] at fresh
        split
        · rename_i picked
          -- the copy lies ahead of the index but is passed over
          have passed := fresh.1 picked
          have ahead : (xs ++ [copy xs[index]]).drop (index + 1) =
              xs.drop (index + 1) ++ [copy xs[index]] :=
            List.drop_append_of_le_length (by omega)
          have rest : ((xs ++ [copy xs[index]]).drop (index + 1)).filter chosen =
              (xs.drop (index + 1)).filter chosen := by
            rw [ahead, List.filter_append]
            simp [passed]
          have fresh' : ∀ a ∈ (xs ++ [copy xs[index]]).drop (index + 1),
              chosen a = true → chosen (copy a) = false := by
            rw [ahead]
            intro a later
            rcases List.mem_append.mp later with old | new
            · exact fresh.2 a old
            · rw [List.mem_singleton.mp new, passed]
              simp
          rw [List.filter_cons_of_pos picked] at enough ⊢
          rw [ih fresh' (by rw [rest]; simp at enough ⊢; omega), rest]
          simp
        · rename_i skipped
          rw [List.filter_cons_of_neg skipped] at enough ⊢
          exact ih fresh.2 (by omega)

/-- When the copies are chosen again, one chosen element keeps the walk going. -/
theorem appendWalk_of_chosen (again : ∀ a, chosen a = true → chosen (copy a) = true)
    {rounds index : Nat} {xs : List α} (ahead : ∃ a ∈ xs.drop index, chosen a = true) :
    appendWalk chosen copy rounds index xs = none := by
  induction rounds generalizing index xs with
  | zero => rfl
  | succ rounds ih =>
      obtain ⟨a, later, picked⟩ := ahead
      have inside : index < xs.length := by
        by_contra beyond
        rw [List.drop_eq_nil_of_le (by omega)] at later
        cases later
      rw [List.drop_eq_getElem_cons inside] at later
      unfold appendWalk
      rw [List.getElem?_eq_getElem inside]
      dsimp only
      split
      · rename_i here
        apply ih
        refine ⟨copy xs[index], ?_, again _ here⟩
        rw [List.drop_append_of_le_length (by omega)]
        simp
      · rename_i skipped
        rcases List.mem_cons.mp later with rfl | later
        · exact absurd picked skipped
        · exact ih ⟨a, later, picked⟩

theorem eraseWalk_eq {rounds index : Nat} {xs : List α} (enough : xs.length - index ≤ rounds) :
    eraseWalk chosen rounds index xs =
      xs.take index ++ (xs.drop index).filter fun a => !chosen a := by
  induction rounds generalizing index xs with
  | zero =>
      unfold eraseWalk
      rw [List.take_of_length_le (by omega), List.drop_eq_nil_of_le (by omega)]
      simp
  | succ rounds ih =>
      unfold eraseWalk
      split
      · rename_i beyond
        have short := List.getElem?_eq_none_iff.mp beyond
        rw [List.take_of_length_le short, List.drop_eq_nil_of_le short]
        simp
      · rename_i a here
        obtain ⟨inside, rfl⟩ := List.getElem?_eq_some_iff.mp here
        rw [List.drop_eq_getElem_cons inside]
        split
        · rename_i picked
          rw [ih (by rw [List.length_eraseIdx_of_lt inside]; omega)]
          have before : (xs.take index).length = index := List.length_take_of_le (by omega)
          rw [List.eraseIdx_eq_take_drop_succ, List.take_left' before, List.drop_left' before,
            List.filter_cons_of_neg (by simp [picked])]
        · rename_i kept
          rw [ih (by omega), List.filter_cons_of_pos (by simpa using kept)]
          rw [List.take_succ_eq_append_getElem inside, List.append_assoc]
          rfl

/-! ## With an index that wraps around -/

/-- A round of a loop over a list, whose body may set the index and change the list. The index is a
    number modulo `m`. -/
def foreachRound (m : Nat) (body : Nat → α → List α → Nat × List α) (s : Nat × List α) :
    Iteration (Nat × List α) (List α) :=
  match s.2[s.1]? with
  | none => .stop s.2
  | some a => .again (((body s.1 a s.2).1 + 1) % m, (body s.1 a s.2).2)

variable {m index : Nat} {xs ys : List α} {body : Nat → α → List α → Nat × List α}

theorem foreachRound_stop (beyond : xs[index]? = none) : foreachRound m body (index, xs) = .stop xs := by
  simp only [foreachRound, beyond]

theorem foreachRound_again {a : α} (here : xs[index]? = some a) {i : Nat} (next : body index a xs = (i, ys)) :
    foreachRound m body (index, xs) = .again ((i + 1) % m, ys) := by
  simp only [foreachRound, here, next]

variable (chosen copy)

def appendBody (i : Nat) (a : α) (xs : List α) : Nat × List α := (i, if chosen a then xs ++ [copy a] else xs)

def eraseBody (m i : Nat) (a : α) (xs : List α) : Nat × List α :=
  if chosen a then ((i + (m - 1)) % m, xs.eraseIdx i) else (i, xs)

variable {chosen copy}

theorem length_le_of_appendWalk {rounds : Nat} (walked : appendWalk chosen copy rounds index xs = some ys) :
    xs.length ≤ ys.length := by
  induction rounds generalizing index xs with
  | zero => cases walked
  | succ rounds ih =>
      unfold appendWalk at walked
      split at walked
      · cases walked
        exact Nat.le_refl _
      · split at walked
        · have longer := ih walked
          rw [List.length_append] at longer
          exact Nat.le_of_add_right_le longer
        · exact ih walked

theorem ends_append {rounds : Nat} (walked : appendWalk chosen copy rounds index xs = some ys)
    (fits : ys.length < m) : Ends (foreachRound m (appendBody chosen copy)) (index, xs) ys := by
  induction rounds generalizing index xs with
  | zero => cases walked
  | succ rounds ih =>
      have long := length_le_of_appendWalk walked
      unfold appendWalk at walked
      split at walked
      · rename_i beyond
        cases walked
        rw [ends_stop (foreachRound_stop beyond)]
      · rename_i a here
        have inside := (List.getElem?_eq_some_iff.mp here).1
        have small : (index + 1) % m = index + 1 := Nat.mod_eq_of_lt (by omega)
        rw [ends_again (foreachRound_again here rfl), small]
        split at walked
        · rename_i picked
          rw [if_pos picked]
          exact ih walked
        · rename_i skipped
          rw [if_neg skipped]
          exact ih walked

/-- One back and one forth, also at the first element. -/
theorem add_pred_mod (inside : index < m) : ((index + (m - 1)) % m + 1) % m = index := by
  rw [Nat.mod_add_mod, Nat.add_assoc, Nat.sub_add_cancel (by omega), Nat.add_mod_right,
    Nat.mod_eq_of_lt inside]

theorem ends_erase {rounds : Nat} (enough : xs.length - index ≤ rounds) (fits : xs.length < m) :
    Ends (foreachRound m (eraseBody chosen m)) (index, xs) (eraseWalk chosen rounds index xs) := by
  induction rounds generalizing index xs with
  | zero =>
      have beyond : xs[index]? = none := List.getElem?_eq_none (by omega)
      rw [ends_stop (foreachRound_stop beyond)]
      rfl
  | succ rounds ih =>
      unfold eraseWalk
      split
      · rename_i beyond
        rw [ends_stop (foreachRound_stop beyond)]
      · rename_i a here
        have inside := (List.getElem?_eq_some_iff.mp here).1
        split
        · rename_i picked
          have removed : eraseBody chosen m index a xs = ((index + (m - 1)) % m, xs.eraseIdx index) := by
            rw [eraseBody, if_pos picked]
          have shorter := List.length_eraseIdx_of_lt inside
          rw [ends_again (foreachRound_again here removed), add_pred_mod (by omega)]
          exact ih (by omega) (by omega)
        · rename_i kept
          have same : eraseBody chosen m index a xs = (index, xs) := by
            rw [eraseBody, if_neg kept]
          rw [ends_again (foreachRound_again here same), Nat.mod_eq_of_lt (by omega)]
          exact ih (by omega) fits

end Simterpose.Lib
