import Mathlib.Data.List.Basic
import Mathlib.Data.Nat.Bitwise

/-! # Memory as bytes

A memory is a byte at each address. Blocks are read and written as lists of bytes, and a block
of them is a number with the least significant byte first.
-/

namespace Simterpose.Lib

abbrev Memory := Nat → UInt8

/-- The number that some bytes make, least significant first. -/
def littleEndian : List UInt8 → Nat
  | [] => 0
  | b :: bytes => b.toNat + 256 * littleEndian bytes

/-- The bytes of a number, least significant first. -/
def toLittleEndian : (count n : Nat) → List UInt8
  | 0, _ => []
  | count + 1, n => UInt8.ofNat n :: toLittleEndian count (n / 256)

@[simp] theorem length_toLittleEndian (count n : Nat) : (toLittleEndian count n).length = count := by
  induction count generalizing n with
  | zero => rfl
  | succ count ih => simp only [toLittleEndian, List.length_cons, ih]

theorem littleEndian_toLittleEndian (count n : Nat) :
    littleEndian (toLittleEndian count n) = n % 256 ^ count := by
  induction count generalizing n with
  | zero => simp [toLittleEndian, littleEndian, Nat.mod_one]
  | succ count ih =>
      rw [toLittleEndian, littleEndian, ih, Nat.pow_succ', Nat.mod_mul, UInt8.toNat_ofNat']

theorem toLittleEndian_littleEndian (bytes : List UInt8) :
    toLittleEndian bytes.length (littleEndian bytes) = bytes := by
  induction bytes with
  | nil => rfl
  | cons b bytes ih =>
      have byte := b.toNat_lt
      have rest : (b.toNat + 256 * littleEndian bytes) / 256 = littleEndian bytes := by omega
      have first : UInt8.ofNat (b.toNat + 256 * littleEndian bytes) = b := by
        apply UInt8.toNat_inj.mp
        rw [UInt8.toNat_ofNat']
        omega
      rw [List.length_cons, littleEndian, toLittleEndian, rest, first, ih]

theorem littleEndian_lt (bytes : List UInt8) : littleEndian bytes < 256 ^ bytes.length := by
  rw [← toLittleEndian_littleEndian bytes, littleEndian_toLittleEndian, length_toLittleEndian]
  exact Nat.mod_lt _ (Nat.pow_pos (by decide))

namespace Memory

variable (mem : Memory)

def read (a : Nat) : (n : Nat) → List UInt8
  | 0 => []
  | n + 1 => mem a :: read (a + 1) n

def write (a : Nat) (bytes : List UInt8) : Memory := fun b =>
  if a ≤ b then (bytes[b - a]?).getD (mem b) else mem b

@[simp] theorem length_read (a n : Nat) : (mem.read a n).length = n := by
  induction n generalizing a with
  | zero => rfl
  | succ n ih => simp only [read, List.length_cons, ih]

theorem read_add (a m n : Nat) : mem.read a (m + n) = mem.read a m ++ mem.read (a + m) n := by
  induction m generalizing a with
  | zero => simp [read]
  | succ m ih =>
      rw [Nat.add_right_comm]
      simp only [read, List.cons_append, ih]
      rw [Nat.add_right_comm, Nat.add_assoc]

theorem take_read (a : Nat) {m n : Nat} (short : m ≤ n) : (mem.read a n).take m = mem.read a m := by
  obtain ⟨k, rfl⟩ := Nat.exists_eq_add_of_le short
  rw [read_add]
  simp

theorem getElem?_read (a n i : Nat) :
    (mem.read a n)[i]? = if i < n then some (mem (a + i)) else none := by
  induction n generalizing a i with
  | zero => simp [read]
  | succ n ih =>
      cases i with
      | zero => simp [read]
      | succ i =>
          simp only [read, List.getElem?_cons_succ, ih, Nat.add_lt_add_iff_right]
          rw [Nat.add_right_comm, Nat.add_assoc]

theorem exists_of_mem_read {a n : Nat} {b : UInt8} (member : b ∈ mem.read a n) :
    ∃ i < n, b = mem (a + i) := by
  obtain ⟨i, found⟩ := List.mem_iff_getElem?.mp member
  rw [getElem?_read] at found
  split at found
  · rename_i inside
    exact ⟨i, inside, (Option.some.inj found).symm⟩
  · cases found

@[simp] theorem write_nil (a : Nat) : mem.write a [] = mem := by
  funext b
  simp [write]

theorem write_append (a : Nat) (first second : List UInt8) :
    mem.write a (first ++ second) = (mem.write a first).write (a + first.length) second := by
  funext b
  simp only [write]
  by_cases below : b < a + first.length
  · rw [if_neg (Nat.not_le_of_lt below)]
    split
    · rw [List.getElem?_append_left (by omega)]
    · rfl
  · have past : first[b - a]? = none := List.getElem?_eq_none (by omega)
    rw [if_pos (by omega), if_pos (by omega), if_pos (by omega), past,
      List.getElem?_append_right (by omega), Nat.sub_sub]
    rfl

theorem write_inside (a : Nat) {bytes : List UInt8} {k : Nat} (inside : k < bytes.length) :
    some (mem.write a bytes (a + k)) = bytes[k]? := by
  simp [write, List.getElem?_eq_getElem inside]

theorem write_outside {a b : Nat} {bytes : List UInt8} (outside : b < a ∨ a + bytes.length ≤ b) :
    mem.write a bytes b = mem b := by
  unfold write
  split
  · rw [List.getElem?_eq_none (by omega)]
    rfl
  · rfl

/-- Writing what is there changes nothing. -/
theorem write_read (a n : Nat) : mem.write a (mem.read a n) = mem := by
  funext b
  simp only [write, getElem?_read]
  split
  · rename_i above
    split
    · simp [Nat.add_sub_cancel' above]
    · rfl
  · rfl

/-- A block that was written is what is read there. -/
theorem read_write (a : Nat) (bytes : List UInt8) {n : Nat} (short : n ≤ bytes.length) :
    (mem.write a bytes).read a n = bytes.take n := by
  apply List.ext_getElem?
  intro i
  rw [getElem?_read, List.getElem?_take]
  split
  · rename_i inside
    simp [write, List.getElem?_eq_getElem (Nat.lt_of_lt_of_le inside short)]
  · rfl

/-- Of two blocks written to one place the second remains. -/
theorem write_write (a : Nat) {first second : List UInt8} (same : first.length = second.length) :
    (mem.write a first).write a second = mem.write a second := by
  funext b
  simp only [write]
  split
  · by_cases inside : b - a < second.length
    · rw [List.getElem?_eq_getElem inside]
      rfl
    · rw [List.getElem?_eq_none (by omega), List.getElem?_eq_none (by omega)]
      rfl
  · rfl

/-- A block next to the one written is as it was. -/
theorem read_write_of_disjoint {a b n : Nat} {bytes : List UInt8}
    (apart : b + n ≤ a ∨ a + bytes.length ≤ b) : (mem.write a bytes).read b n = mem.read b n := by
  apply List.ext_getElem?
  intro i
  rw [getElem?_read, getElem?_read]
  split
  · rename_i inside
    simp only [write]
    split
    · rw [List.getElem?_eq_none (by omega)]
      rfl
    · rfl
  · rfl

/-- The block that starts at an address. -/
def Holds (a : Nat) (bytes : List UInt8) : Prop := mem.read a bytes.length = bytes

variable {mem} {a : Nat} {bytes first second : List UInt8}

theorem holds_append :
    mem.Holds a (first ++ second) ↔ mem.Holds a first ∧ mem.Holds (a + first.length) second := by
  unfold Holds
  rw [List.length_append, read_add]
  constructor
  · intro same
    exact List.append_inj same (length_read ..)
  · rintro ⟨same, same'⟩
    rw [same, same']

theorem Holds.read_slice (holds : mem.Holds a bytes) {i n : Nat} (fits : i + n ≤ bytes.length) :
    mem.read (a + i) n = (bytes.drop i).take n := by
  apply List.ext_getElem?
  intro k
  rw [getElem?_read, List.getElem?_take]
  split
  · rename_i inside
    rw [List.getElem?_drop, ← holds, getElem?_read, if_pos (by omega), Nat.add_assoc]
  · rfl

end Memory

/-! ## Memory of which parts are missing -/

abbrev PartialMemory := Nat → Option UInt8

/-- The word that eight bytes make. -/
def word (bytes : List UInt8) : UInt64 := UInt64.ofNat (littleEndian bytes)

/-- The bytes of a word. -/
def wordBytes (word : UInt64) : List UInt8 := toLittleEndian 8 word.toNat

theorem wordBytes_word {bytes : List UInt8} (eight : bytes.length = 8) :
    wordBytes (word bytes) = bytes := by
  have small := littleEndian_lt bytes
  rw [eight] at small
  rw [wordBytes, word, UInt64.toNat_ofNat_of_lt' small, ← eight, toLittleEndian_littleEndian]

namespace PartialMemory

variable (mem : PartialMemory)

/-- A block, if all of it is there. -/
def read (a : Nat) : (n : Nat) → Option (List UInt8)
  | 0 => some []
  | n + 1 => do
      let b ← mem a
      let bytes ← read (a + 1) n
      return b :: bytes

def write (a : Nat) (bytes : List UInt8) : PartialMemory := fun b =>
  if a ≤ b then (bytes[b - a]?).or (mem b) else mem b

/-- All bytes of a block are there. -/
def Mapped (a n : Nat) : Prop := ∀ k < n, mem (a + k) ≠ none

instance (a n : Nat) : Decidable (mem.Mapped a n) :=
  inferInstanceAs (Decidable (∀ k < n, mem (a + k) ≠ none))

/-- The memory with zeros in place of what is missing. -/
def fill : Memory := fun a => (mem a).getD 0

variable {mem} {a n : Nat}

theorem mapped_add {m : Nat} : mem.Mapped a (m + n) ↔ mem.Mapped a m ∧ mem.Mapped (a + m) n := by
  constructor
  · intro mapped
    refine ⟨fun k inside => mapped k (by omega), fun k inside => ?_⟩
    rw [Nat.add_assoc]
    exact mapped (m + k) (by omega)
  · rintro ⟨first, second⟩ k inside
    by_cases below : k < m
    · exact first k below
    · have later := second (k - m) (by omega)
      rwa [Nat.add_assoc, Nat.add_sub_cancel' (Nat.not_lt.mp below)] at later

theorem fill_of_mapped (mapped : mem.Mapped a n) {k : Nat} (inside : k < n) :
    mem (a + k) = some (mem.fill (a + k)) := by
  obtain ⟨b, here⟩ := Option.ne_none_iff_exists'.mp (mapped k inside)
  rw [fill, here]
  rfl

theorem read_of_mapped (mapped : mem.Mapped a n) : mem.read a n = some (mem.fill.read a n) := by
  induction n generalizing a with
  | zero => rfl
  | succ n ih =>
      rw [Nat.add_comm, mapped_add] at mapped
      obtain ⟨first, rest⟩ := mapped
      have here : mem a = some (mem.fill a) := fill_of_mapped first Nat.zero_lt_one
      rw [read, here, ih rest]
      rfl

theorem read_of_not_mapped (missing : ¬ mem.Mapped a n) : mem.read a n = none := by
  induction n generalizing a with
  | zero => exact absurd (fun k inside => absurd inside (Nat.not_lt_zero k)) missing
  | succ n ih =>
      rw [read]
      cases here : mem a with
      | none => rfl
      | some b =>
          have rest : ¬ mem.Mapped (a + 1) n := by
            intro rest
            rw [Nat.add_comm, mapped_add] at missing
            refine missing ⟨fun k inside => ?_, rest⟩
            rw [Nat.lt_one_iff.mp inside, Nat.add_zero, here]
            simp
          rw [ih rest]
          rfl

@[simp] theorem write_nil (a : Nat) : mem.write a [] = mem := by
  funext b
  simp [write]

theorem write_append (mem : PartialMemory) (a : Nat) (first second : List UInt8) :
    mem.write a (first ++ second) = (mem.write a first).write (a + first.length) second := by
  funext b
  simp only [write]
  by_cases below : b < a + first.length
  · rw [if_neg (Nat.not_le_of_lt below)]
    split
    · rw [List.getElem?_append_left (by omega)]
    · rfl
  · have past : first[b - a]? = none := List.getElem?_eq_none (by omega)
    rw [if_pos (by omega), if_pos (by omega), if_pos (by omega), past,
      List.getElem?_append_right (by omega), Nat.sub_sub]
    rfl

theorem write_inside (mem : PartialMemory) {bytes : List UInt8} {k : Nat} (inside : k < bytes.length) :
    mem.write a bytes (a + k) = bytes[k]? := by
  simp [write, List.getElem?_eq_getElem inside]

theorem write_outside (mem : PartialMemory) {bytes : List UInt8} {b : Nat}
    (outside : b < a ∨ a + bytes.length ≤ b) : mem.write a bytes b = mem b := by
  unfold write
  split
  · rw [List.getElem?_eq_none (by omega), Option.none_or]
  · rfl

/-- Writing what is there changes nothing. -/
theorem write_fill_read (mapped : mem.Mapped a n) : mem.write a (mem.fill.read a n) = mem := by
  funext b
  simp only [write, Memory.getElem?_read]
  split
  · rename_i above
    split
    · rename_i inside
      have there := fill_of_mapped mapped inside
      rw [Nat.add_sub_cancel' above] at there ⊢
      rw [there]
      rfl
    · rfl
  · rfl

/-- A write to what is there maps nothing new. -/
theorem write_eq_none_iff {bytes : List UInt8} (mapped : mem.Mapped a bytes.length) (b : Nat) :
    mem.write a bytes b = none ↔ mem b = none := by
  by_cases outside : b < a ∨ a + bytes.length ≤ b
  · rw [write_outside _ outside]
  · obtain ⟨k, rfl⟩ := Nat.exists_eq_add_of_le (show a ≤ b by omega)
    have inside : k < bytes.length := by omega
    simp [write_inside _ inside, List.getElem?_eq_getElem inside, mapped k inside]

theorem mapped_congr {mem' : PartialMemory} (same : ∀ b, mem' b = none ↔ mem b = none) :
    mem'.Mapped a n ↔ mem.Mapped a n :=
  forall_congr' fun k => imp_congr_right fun _ => not_congr (same (a + k))

theorem fill_read_congr {mem' : PartialMemory} (same : ∀ k < n, mem' (a + k) = mem (a + k)) :
    mem'.fill.read a n = mem.fill.read a n := by
  apply List.ext_getElem?
  intro i
  rw [Memory.getElem?_read, Memory.getElem?_read]
  split
  · rename_i inside
    simp only [fill, same i inside]
  · rfl

end PartialMemory

/-- Two blocks have no address in common. -/
def Apart (a m b n : Nat) : Prop := ∀ k < m, a + k < b ∨ b + n ≤ a + k

instance (a m b n : Nat) : Decidable (Apart a m b n) :=
  inferInstanceAs (Decidable (∀ k < m, a + k < b ∨ b + n ≤ a + k))

theorem Apart.symm {a m b n : Nat} (apart : Apart a m b n) : Apart b n a m := by
  intro k inside
  by_contra both
  have other := apart (b + k - a) (by omega)
  omega

theorem Apart.shrink {a m m' b n n' : Nat} (apart : Apart a m b n) (le : m' ≤ m) (le' : n' ≤ n) :
    Apart a m' b n' := by
  intro k inside
  have other := apart k (by omega)
  omega

end Simterpose.Lib
