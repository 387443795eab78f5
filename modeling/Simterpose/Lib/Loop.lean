import Mathlib.Logic.Function.Iterate

/-! # Loops that need not come to an end

A round of a loop goes on with a new state or stops with a result. The loop is run for a
number of rounds; it ends if some number is enough, and is endless if none is.
-/

namespace Simterpose.Lib

universe u v

/-- What a round of a loop comes to. -/
inductive Iteration (σ : Type u) (ρ : Type v) where
  | again (s : σ)
  | stop (r : ρ)
  deriving DecidableEq

variable {σ : Type u} {ρ : Type v}

/-- The result of a loop that stops within a number of rounds. -/
def loop (round : σ → Iteration σ ρ) : (rounds : Nat) → σ → Option ρ
  | 0, _ => none
  | rounds + 1, s =>
      match round s with
      | .again s' => loop round rounds s'
      | .stop r => some r

def Ends (round : σ → Iteration σ ρ) (s : σ) (r : ρ) : Prop := ∃ rounds, loop round rounds s = some r

def Endless (round : σ → Iteration σ ρ) (s : σ) : Prop := ∀ rounds, loop round rounds s = none

variable {round : σ → Iteration σ ρ} {s s' : σ} {r r' : ρ}

theorem ends_again (next : round s = .again s') : Ends round s r ↔ Ends round s' r := by
  constructor
  · rintro ⟨rounds, done⟩
    cases rounds with
    | zero => cases done
    | succ rounds =>
        rw [loop, next] at done
        exact ⟨rounds, done⟩
  · rintro ⟨rounds, done⟩
    refine ⟨rounds + 1, ?_⟩
    rw [loop, next]
    exact done

theorem ends_stop (last : round s = .stop r') : Ends round s r ↔ r = r' := by
  constructor
  · rintro ⟨rounds, done⟩
    cases rounds with
    | zero => cases done
    | succ rounds =>
        rw [loop, last] at done
        exact (Option.some.inj done).symm
  · rintro rfl
    refine ⟨1, ?_⟩
    rw [loop, last]

/-- A loop that goes through a sequence of states stops where the sequence does. -/
theorem loop_of_sequence {f : Nat → σ} {n rounds : Nat}
    (goesOn : ∀ k < n, round (f k) = .again (f (k + 1))) (last : round (f n) = .stop r)
    (enough : n < rounds) : loop round rounds (f 0) = some r := by
  induction n generalizing f rounds with
  | zero =>
      obtain ⟨rounds, rfl⟩ := Nat.exists_eq_add_one.mpr enough
      rw [loop, last]
  | succ n ih =>
      obtain ⟨rounds, rfl⟩ := Nat.exists_eq_add_one.mpr (Nat.zero_lt_of_lt enough)
      rw [loop, goesOn 0 (Nat.succ_pos n)]
      apply ih (f := fun k => f (k + 1)) (fun k inside => goesOn (k + 1) (by omega)) last
      omega

/-- To show something of every state in which a loop is started and ends, go back from the
    round that stops. -/
theorem Ends.induct {motive : σ → Prop} (stop : ∀ s, round s = .stop r → motive s)
    (again : ∀ s s', round s = .again s' → Ends round s' r → motive s' → motive s)
    (ended : Ends round s r) : motive s := by
  obtain ⟨rounds, done⟩ := ended
  induction rounds generalizing s with
  | zero => cases done
  | succ rounds ih =>
      cases round_ : round s with
      | again s' =>
          rw [loop, round_] at done
          exact again s s' round_ ⟨rounds, done⟩ (ih done)
      | stop r' =>
          rw [loop, round_] at done
          cases done
          exact stop s round_

theorem Ends.unique (ended : Ends round s r) (ended' : Ends round s r') : r = r' := by
  revert ended'
  refine ended.induct (motive := fun s => Ends round s r' → r = r') ?_ ?_
  · intro s last ended'
    exact ((ends_stop last).mp ended').symm
  · intro s s' next _ ih ended'
    exact ih ((ends_again next).mp ended')

theorem Endless.not_ends (endless : Endless round s) : ¬ Ends round s r := by
  rintro ⟨rounds, done⟩
  rw [endless rounds] at done
  cases done

/-- A loop is endless in states from which each round leads to another such state. -/
theorem endless_of_invariant (Inv : σ → Prop)
    (goesOn : ∀ s, Inv s → ∃ s', round s = .again s' ∧ Inv s') (initial : Inv s) :
    Endless round s := by
  intro rounds
  induction rounds generalizing s with
  | zero => rfl
  | succ rounds ih =>
      obtain ⟨s', next, inv⟩ := goesOn s initial
      rw [loop, next]
      exact ih inv

/-- A counter of 16 bits that is counted down. -/
theorem toNat_sub_one {count : UInt16} {n : Nat} (size : count.toNat = n + 1) :
    (count - 1).toNat = n := by
  have positive : (1 : UInt16) ≤ count := by
    rw [UInt16.le_iff_toNat_le, size]
    exact Nat.le_add_left 1 n
  rw [UInt16.toNat_sub_of_le _ _ positive, size]
  rfl

/-- What holds of all iterates holds of the first one and of those that follow. -/
theorem forall_iterate_iff {P : σ → Prop} {f : σ → σ} {x : σ} :
    (∀ n, P (f^[n] x)) ↔ P x ∧ ∀ n, P (f^[n] (f x)) := by
  constructor
  · intro all
    exact ⟨all 0, fun n => all (n + 1)⟩
  · rintro ⟨first, rest⟩ n
    cases n with
    | zero => exact first
    | succ n => exact rest n

end Simterpose.Lib
