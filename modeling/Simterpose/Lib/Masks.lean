import Mathlib.Data.BitVec

/-! # Words taken apart by masks

A table of masks is gone through in order: a mask whose bits are all in the word is picked, and its
bits are taken out. The masks picked and what remains are the word again.
-/

namespace Simterpose.Lib

variable {w : Nat} {α : Type*} (mask : α → BitVec w)

/-- The entries picked from a table, and what remains of the word. -/
def pickMasks : List α → BitVec w → List α × BitVec w
  | [], word => ([], word)
  | entry :: table, word =>
      if mask entry &&& word = mask entry then
        (entry :: (pickMasks table (word &&& ~~~mask entry)).1,
          (pickMasks table (word &&& ~~~mask entry)).2)
      else pickMasks table word

/-- The word that some masks and a rest make. -/
def joinMasks (entries : List α) (rest : BitVec w) : BitVec w :=
  entries.foldr (fun entry word => mask entry ||| word) rest

variable {mask} {table : List α} {word : BitVec w}

theorem or_and_not_of_within {m v : BitVec w} (within : m &&& v = m) : m ||| v &&& ~~~m = v := by
  ext i inside
  have bit := congrArg (·[i]) within
  simp only [BitVec.getElem_and] at bit
  simp only [BitVec.getElem_or, BitVec.getElem_and, BitVec.getElem_not]
  cases first : m[i] <;> cases second : v[i] <;> simp_all

theorem joinMasks_pickMasks (table : List α) (word : BitVec w) :
    joinMasks mask (pickMasks mask table word).1 (pickMasks mask table word).2 = word := by
  induction table generalizing word with
  | nil => rfl
  | cons entry table ih =>
      simp only [pickMasks]
      split
      · rename_i within
        have rest := ih (word &&& ~~~mask entry)
        rw [joinMasks] at rest ⊢
        rw [List.foldr_cons, rest]
        exact or_and_not_of_within within
      · exact ih word

theorem pickMasks_sublist (table : List α) (word : BitVec w) :
    (pickMasks mask table word).1.Sublist table := by
  induction table generalizing word with
  | nil => exact .slnil
  | cons entry table ih =>
      simp only [pickMasks]
      split
      · exact (ih _).cons_cons entry
      · exact (ih _).cons entry

end Simterpose.Lib
