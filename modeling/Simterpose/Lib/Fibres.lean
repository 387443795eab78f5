import Mathlib.Data.Finset.Card

/-! # The keys behind each value of a table

A table maps some keys to values. A program that wants to go the other way keeps a list of
the keys of each value, or only their number. Both have to follow each entry that is made,
changed or removed, and either does exactly when what it says of the changed key is right.
-/

namespace Simterpose.Lib

universe u v

variable {κ : Type u} {ρ : Type v} [DecidableEq κ] [DecidableEq ρ]

section Listed

/-- Each of the values `made` lists the keys that are mapped to it, each once. -/
def Fibres (made : ρ → Prop) (table : κ → Option ρ) (keys : ρ → List κ) : Prop :=
  ∀ r, made r → ∀ k, (keys r).count k = if table k = some r then 1 else 0

variable {made : ρ → Prop} {table table' : κ → Option ρ} {keys keys' : ρ → List κ}

theorem fibres_iff : Fibres made table keys ↔
    ∀ r, made r → (∀ k, k ∈ keys r ↔ table k = some r) ∧ (keys r).Nodup := by
  constructor
  · intro fibres r isMade
    constructor
    · intro k
      rw [← List.count_pos_iff, fibres r isMade k]
      split <;> simp [*]
    · apply List.nodup_iff_count_le_one.mpr
      intro k
      rw [fibres r isMade k]
      split <;> omega
  · intro listed r isMade k
    obtain ⟨mem, nodup⟩ := listed r isMade
    split
    · rename_i mapped
      exact List.count_eq_one_of_mem nodup ((mem k).mpr mapped)
    · rename_i other
      exact List.count_eq_zero.mpr fun listed => other ((mem k).mp listed)

theorem Fibres.mem_iff (fibres : Fibres made table keys) {r : ρ} (isMade : made r) (k : κ) :
    k ∈ keys r ↔ table k = some r := (fibres_iff.mp fibres r isMade).1 k

/-- When only the entry of `k` may have changed and no list in what it says of other keys,
    all depends on what the lists say of `k`. -/
theorem Fibres.update_iff (fibres : Fibres made table keys) {k : κ}
    (entries : ∀ j, j ≠ k → table' j = table j)
    (counts : ∀ r, made r → ∀ j, j ≠ k → (keys' r).count j = (keys r).count j) :
    Fibres made table' keys' ↔
      ∀ r, made r → (keys' r).count k = if table' k = some r then 1 else 0 := by
  constructor
  · intro fibres' r isMade
    exact fibres' r isMade k
  · intro right r isMade j
    by_cases same : j = k
    · rw [same]
      exact right r isMade
    · rw [counts r isMade j same, entries j same]
      exact fibres r isMade j

end Listed

section Counted

variable {table table' : κ → Option ρ} {r : ρ} {n m : Int}

/-- There are `n` keys that are mapped to `r`. -/
def Counts (table : κ → Option ρ) (r : ρ) (n : Int) : Prop :=
  ∃ keys : Finset κ, (∀ k, k ∈ keys ↔ table k = some r) ∧ n = keys.card

omit [DecidableEq κ] [DecidableEq ρ] in
theorem Counts.unique (first : Counts table r n) (second : Counts table r m) : n = m := by
  obtain ⟨keys, mem, rfl⟩ := first
  obtain ⟨keys', mem', rfl⟩ := second
  rw [Finset.ext fun k => (mem k).trans (mem' k).symm]

/-- An entry for `k` counts, and so does the one it replaces. -/
theorem Counts.update (counts : Counts table r n) (k : κ) {o : Option ρ}
    (entry : table' k = o) (entries : ∀ j, j ≠ k → table' j = table j) :
    Counts table' r
      (n + (if o = some r then 1 else 0) - (if table k = some r then 1 else 0)) := by
  obtain ⟨keys, mem, rfl⟩ := counts
  have others : ∀ j, j ≠ k → (table' j = some r ↔ j ∈ keys) := by
    intro j other
    rw [entries j other, mem]
  by_cases new : o = some r
  · refine ⟨insert k keys, fun j => ?_, ?_⟩
    · by_cases same : j = k
      · simp [same, entry, new]
      · simp [same, others j same]
    · by_cases old : table k = some r
      · simp [new, old, Finset.insert_eq_self.mpr ((mem k).mpr old)]
      · have fresh : k ∉ keys := fun listed => old ((mem k).mp listed)
        simp [new, old, Finset.card_insert_of_notMem fresh]
  · refine ⟨keys.erase k, fun j => ?_, ?_⟩
    · by_cases same : j = k
      · simp [same, entry, new]
      · simp [same, others j same]
    · by_cases old : table k = some r
      · have listed := (mem k).mpr old
        have some_ : 0 < keys.card := Finset.card_pos.mpr ⟨k, listed⟩
        simp only [new, old, if_true, if_false, Finset.card_erase_of_mem listed]
        omega
      · have fresh : k ∉ keys := fun listed => old ((mem k).mp listed)
        simp [new, old, Finset.erase_eq_of_notMem fresh]

end Counted

end Simterpose.Lib
