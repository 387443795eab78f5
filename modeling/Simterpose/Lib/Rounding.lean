import Mathlib.Data.Nat.Bitwise
import Mathlib.Data.Nat.Log

/-! # Rounding to a number of binary digits

Magnitudes are natural numbers of some smallest unit. Of a number only the first `p` binary digits
are kept, rounded to the nearest such number and to the even one of two that are equally near.
Rounding keeps order, and with it any bound of a result follows from one evaluation.
-/

namespace Simterpose.Lib

/-- The multiple of `u` that is nearest to `n`, in units of `u`. -/
def nearest (n u : Nat) : Nat :=
  if 2 * (n % u) < u ∨ 2 * (n % u) = u ∧ n / u % 2 = 0 then n / u else n / u + 1

/-- How far apart the numbers with `p` digits are around `n`. -/
def spacing (p n : Nat) : Nat := 2 ^ (n.log2 + 1 - p)

def roundTo (p n : Nat) : Nat := nearest n (spacing p n) * spacing p n

/-- A number with at most `p` digits that are not zeros at the end. -/
def HasDigits (p n : Nat) : Prop := ∃ m e, m < 2 ^ p ∧ n = m * 2 ^ e

theorem nearest_mul {u : Nat} (positive : 0 < u) (k : Nat) : nearest (k * u) u = k := by
  simp [nearest, Nat.mul_mod_left, Nat.mul_div_cancel _ positive, positive]

theorem nearest_mono {n m u : Nat} (le : n ≤ m) : nearest n u ≤ nearest m u := by
  have quotients := Nat.div_le_div_right (c := u) le
  have first := Nat.div_add_mod n u
  have second := Nat.div_add_mod m u
  unfold nearest
  rcases Nat.lt_or_ge (n / u) (m / u) with less | equal
  · split <;> split <;> omega
  · -- with one quotient the remainders are in order
    have same : n / u = m / u := by omega
    rw [same] at first ⊢
    have remainders : n % u ≤ m % u := by omega
    split <;> split <;> omega

section

variable {p n m : Nat}

theorem spacing_pos : 0 < spacing p n := Nat.two_pow_pos _

theorem HasDigits.mul_two_pow {k : Nat} (small : m < 2 ^ p) : HasDigits p (m * 2 ^ k) := ⟨m, k, small, rfl⟩

/-- A number that has few digits is its own rounding. -/
theorem HasDigits.roundTo_eq (digits : HasDigits p n) : roundTo p n = n := by
  obtain ⟨m, e, small, rfl⟩ := digits
  rcases Nat.eq_zero_or_pos m with rfl | positive
  · simp [roundTo, nearest, spacing_pos]
  · have log : (m * 2 ^ e).log2 < p + e := by
      apply (Nat.log2_lt (Nat.ne_of_gt (Nat.mul_pos positive (Nat.two_pow_pos e)))).mpr
      rw [Nat.pow_add]
      exact Nat.mul_lt_mul_of_pos_right small (Nat.two_pow_pos e)
    have multiple : m * 2 ^ e =
        m * 2 ^ (e - ((m * 2 ^ e).log2 + 1 - p)) * spacing p (m * 2 ^ e) := by
      rw [spacing, Nat.mul_assoc, ← Nat.pow_add, Nat.sub_add_cancel (by omega)]
    rw [roundTo]
    nth_rewrite 1 [multiple]
    rw [nearest_mul spacing_pos]
    exact multiple.symm

theorem roundTo_of_lt (small : n < 2 ^ p) : roundTo p n = n :=
  HasDigits.roundTo_eq ⟨n, 0, small, (Nat.mul_one n).symm⟩

/-- Below the next power of two a number is not rounded above it. -/
theorem roundTo_le (p n : Nat) : roundTo p n ≤ 2 ^ (n.log2 + 1) := by
  have below : n < 2 ^ (n.log2 + 1) := Nat.lt_log2_self
  rcases Nat.le_total p (n.log2 + 1) with long | short
  · have whole : 2 ^ (n.log2 + 1) = 2 ^ p * spacing p n := by
      rw [spacing, ← Nat.pow_add]
      congr 1
      omega
    have most := nearest_mono (u := spacing p n) (Nat.le_of_lt below)
    rw [whole, nearest_mul spacing_pos] at most
    rw [whole, roundTo]
    exact Nat.mul_le_mul_right _ most
  · rw [roundTo_of_lt (below.trans_le (Nat.pow_le_pow_right (by decide) short))]
    exact Nat.le_of_lt below

/-- A number is not rounded below the power of two it starts at. -/
theorem le_roundTo (positive : 0 < p) (nonzero : n ≠ 0) : 2 ^ n.log2 ≤ roundTo p n := by
  have above : 2 ^ n.log2 ≤ n := Nat.log2_self_le nonzero
  rcases Nat.le_total p (n.log2 + 1) with long | short
  · have whole : 2 ^ n.log2 = 2 ^ (p - 1) * spacing p n := by
      rw [spacing, ← Nat.pow_add]
      congr 1
      omega
    have least := nearest_mono (u := spacing p n) above
    rw [whole, nearest_mul spacing_pos] at least
    rw [whole, roundTo]
    exact Nat.mul_le_mul_right _ least
  · rw [roundTo_of_lt (Nat.lt_log2_self.trans_le (Nat.pow_le_pow_right (by decide) short))]
    exact above

theorem roundTo_mono (positive : 0 < p) (le : n ≤ m) : roundTo p n ≤ roundTo p m := by
  rcases Nat.eq_zero_or_pos n with rfl | nonzero
  · rw [roundTo_of_lt (Nat.two_pow_pos p)]
    exact Nat.zero_le _
  · have logs : n.log2 ≤ m.log2 := (Nat.le_log2 (by omega)).mpr ((Nat.log2_self_le (by omega)).trans le)
    rcases Nat.lt_or_ge n.log2 m.log2 with less | equal
    · calc roundTo p n ≤ 2 ^ (n.log2 + 1) := roundTo_le p n
        _ ≤ 2 ^ m.log2 := Nat.pow_le_pow_right (by decide) less
        _ ≤ roundTo p m := le_roundTo positive (by omega)
    · have same : spacing p n = spacing p m := by
        rw [spacing, spacing, Nat.le_antisymm logs equal]
      rw [roundTo, roundTo, same]
      exact Nat.mul_le_mul_right _ (nearest_mono le)

theorem HasDigits.mod {k : Nat} (digits : HasDigits p n) : HasDigits p (n % 2 ^ k) := by
  obtain ⟨m, e, small, rfl⟩ := digits
  rcases Nat.le_total k e with coarse | between
  · have multiple : m * 2 ^ e % 2 ^ k = 0 := by
      rw [← Nat.sub_add_cancel coarse, Nat.pow_add, ← Nat.mul_assoc]
      exact Nat.mul_mod_left _ _
    exact ⟨0, 0, Nat.two_pow_pos p, by rw [multiple, Nat.zero_mul]⟩
  · refine ⟨m % 2 ^ (k - e), e, Nat.lt_of_le_of_lt (Nat.mod_le ..) small, ?_⟩
    rw [← Nat.mul_mod_mul_right, ← Nat.pow_add, Nat.sub_add_cancel between]

/-- A number with `p` digits below a power of two leaves room for one unit of the last digit. -/
theorem HasDigits.add_le {k : Nat} (positive : 0 < p) (digits : HasDigits p n) (fine : p ≤ k)
    (below : n < 2 ^ k) : n + 2 ^ (k - p) ≤ 2 ^ k := by
  obtain ⟨m, e, small, rfl⟩ := digits
  rcases Nat.lt_or_ge e (k - p) with near | far
  · -- all digits are below the upper half
    have whole : 2 ^ k = 2 ^ (k - 1) + 2 ^ (k - 1) := by
      rw [← Nat.two_mul, ← Nat.pow_succ']
      congr 1
      omega
    have number : m * 2 ^ e ≤ 2 ^ (k - 1) := by
      calc m * 2 ^ e ≤ 2 ^ p * 2 ^ e := Nat.mul_le_mul_right _ (Nat.le_of_lt small)
        _ = 2 ^ (p + e) := (Nat.pow_add ..).symm
        _ ≤ 2 ^ (k - 1) := Nat.pow_le_pow_right (by decide) (by omega)
    have last : 2 ^ (k - p) ≤ 2 ^ (k - 1) := Nat.pow_le_pow_right (by decide) (by omega)
    omega
  · -- number and power are multiples of one that is at least that unit
    rcases Nat.le_total e k with between | coarse
    · have split : 2 ^ k = 2 ^ (k - e) * 2 ^ e := by
        rw [← Nat.pow_add, Nat.sub_add_cancel between]
      rw [split] at below
      have less : m + 1 ≤ 2 ^ (k - e) := Nat.lt_of_mul_lt_mul_right below
      calc m * 2 ^ e + 2 ^ (k - p) ≤ m * 2 ^ e + 2 ^ e :=
            Nat.add_le_add_left (Nat.pow_le_pow_right (by decide) far) _
        _ = (m + 1) * 2 ^ e := by rw [Nat.add_mul, Nat.one_mul]
        _ ≤ 2 ^ (k - e) * 2 ^ e := Nat.mul_le_mul_right _ less
        _ = 2 ^ k := split.symm
    · have zero : m = 0 := by
        by_contra nonzero
        have more : 2 ^ k ≤ m * 2 ^ e :=
          (Nat.pow_le_pow_right (by decide) coarse).trans (Nat.le_mul_of_pos_left _ (by omega))
        omega
      rw [zero, Nat.zero_mul, Nat.zero_add]
      exact Nat.pow_le_pow_right (by decide) (Nat.sub_le ..)

/-- Rounding moves a number over at most one whole one, and never below one. -/
theorem div_roundTo {k : Nat} (positive : 0 < p) (small : n / 2 ^ k + 1 < 2 ^ p) :
    n / 2 ^ k ≤ roundTo p n / 2 ^ k ∧ roundTo p n / 2 ^ k ≤ n / 2 ^ k + 1 := by
  have unit := Nat.two_pow_pos k
  constructor
  · have rounded := roundTo_mono positive (Nat.div_mul_le_self n (2 ^ k))
    rw [(HasDigits.mul_two_pow (k := k) (by omega)).roundTo_eq] at rounded
    exact (Nat.le_div_iff_mul_le unit).mpr rounded
  · have above : n ≤ (n / 2 ^ k + 1) * 2 ^ k := Nat.le_of_lt (Nat.lt_mul_of_div_lt (Nat.lt_succ_self _) unit)
    have rounded := roundTo_mono positive above
    rw [(HasDigits.mul_two_pow (k := k) small).roundTo_eq] at rounded
    exact Nat.div_le_of_le_mul (Nat.mul_comm .. ▸ rounded)

end

end Simterpose.Lib
