import Simterpose.Lib.Memory
import Simterpose.Messages

/-! # Copying to and from the tracee

`ptrace` moves memory one machine word at a time, and so do `ptrace_cpy` and `ptrace_poke`:
both go on to the end of the word in which the requested length ends.
-/

namespace Simterpose

open Lib

/-- The value of a 64-bit register as `ssize_t`. -/
def toSsize (n : Nat) : Int := (BitVec.ofNat 64 n).toInt

/-- The loop of `ptrace_cpy`, with the number of words copied so far. -/
def ptraceCpyLoop (mem : Memory) (src len : Nat) : (rounds i : Nat) → List UInt8
  | 0, _ => []
  | rounds + 1, i =>
      if 8 * i < len then mem.read (src + 8 * i) 8 ++ ptraceCpyLoop mem src len rounds (i + 1) else []

/-- `ptrace_cpy`: the bytes stored at the destination, as whole words. The loop is for the
    length with its bit 3 taken out, and for that bit one more word is copied. -/
def ptraceCpy (mem : Memory) (src length : Nat) : List UInt8 :=
  let rest := length &&& 0x8
  let copied := ptraceCpyLoop mem src (length - rest) length 0
  if rest ≠ 0 then copied ++ mem.read (src + copied.length) 8 else copied

/-- The loop of `ptrace_poke`. The source is memory of the simulator, as far as it is mapped. -/
def ptracePokeLoop (dst : Nat) (src : List UInt8) (len : Nat) :
    (rounds sizeCopy : Nat) → Memory → Result Memory
  | 0, _, mem => .ok mem
  | rounds + 1, sizeCopy, mem =>
      if sizeCopy < len then
        if sizeCopy + 8 ≤ src.length then
          ptracePokeLoop dst src len rounds (sizeCopy + 8)
            (mem.write (dst + sizeCopy) ((src.drop sizeCopy).take 8))
        else .error .segfault
      else .ok mem

/-- `ptrace_poke` -/
def ptracePoke (mem : Memory) (dst : Nat) (src : List UInt8) (len : Nat) : Result Memory :=
  ptracePokeLoop dst src len len 0 mem

/-- The bytes in the words that a length of bytes takes. -/
def wholeWords (length : Nat) : Nat := 8 * ((length + 7) / 8)

theorem le_wholeWords (length : Nat) : length ≤ wholeWords length := by
  unfold wholeWords
  omega

theorem ptraceCpyLoop_eq (mem : Memory) (src len : Nat) {rounds i : Nat}
    (enough : len ≤ 8 * i + rounds) (started : 8 * i ≤ wholeWords len) :
    ptraceCpyLoop mem src len rounds i = mem.read (src + 8 * i) (wholeWords len - 8 * i) := by
  unfold wholeWords at started ⊢
  induction rounds generalizing i with
  | zero =>
      rw [show 8 * ((len + 7) / 8) - 8 * i = 0 by omega]
      rfl
  | succ rounds ih =>
      unfold ptraceCpyLoop
      split
      · rw [ih (by omega) (by omega),
          show 8 * ((len + 7) / 8) - 8 * i = 8 + (8 * ((len + 7) / 8) - 8 * (i + 1)) by omega,
          Memory.read_add, show src + 8 * i + 8 = src + 8 * (i + 1) by omega]
      · rw [show 8 * ((len + 7) / 8) - 8 * i = 0 by omega]
        rfl

theorem and_eight (n : Nat) : n &&& 0x8 = 8 * (n / 8 % 2) := by
  have bit : n &&& 0x8 = (n.testBit 3).toNat * 8 := Nat.and_two_pow n 3
  rw [Nat.testBit_eq_decide_div_mod_eq, show 2 ^ 3 = 8 by rfl] at bit
  rw [bit]
  by_cases odd : n / 8 % 2 = 1
  · simp [odd]
  · have even : n / 8 % 2 = 0 := by omega
    simp [even]

theorem ptraceCpy_eq (mem : Memory) (src length : Nat) :
    ptraceCpy mem src length = mem.read src (wholeWords length) := by
  unfold ptraceCpy
  rw [and_eight]
  have looped : ptraceCpyLoop mem src (length - 8 * (length / 8 % 2)) length 0 = _ :=
    ptraceCpyLoop_eq mem src _ (by omega) (by omega)
  simp only [Nat.mul_zero, Nat.add_zero, Nat.sub_zero] at looped
  simp only [looped, Memory.length_read]
  split
  · rw [← Memory.read_add]
    unfold wholeWords
    congr 1
    omega
  · unfold wholeWords
    congr 1
    omega

/-- What is asked for is copied, with some more bytes behind it. -/
theorem take_ptraceCpy (mem : Memory) (src length : Nat) :
    (ptraceCpy mem src length).take length = mem.read src length := by
  rw [ptraceCpy_eq, Memory.take_read _ _ (le_wholeWords length)]

theorem ptracePokeLoop_eq (dst : Nat) (src : List UInt8) (len : Nat) {rounds i : Nat} (mem : Memory)
    (enough : len ≤ 8 * i + rounds) (started : 8 * i ≤ wholeWords len)
    (mapped : wholeWords len ≤ src.length) :
    ptracePokeLoop dst src len rounds (8 * i) mem =
      .ok (mem.write (dst + 8 * i) ((src.drop (8 * i)).take (wholeWords len - 8 * i))) := by
  unfold wholeWords at started mapped ⊢
  induction rounds generalizing i mem with
  | zero => simp [ptracePokeLoop, show 8 * ((len + 7) / 8) - 8 * i = 0 by omega]
  | succ rounds ih =>
      unfold ptracePokeLoop
      split
      · rw [if_pos (by omega), ← Nat.mul_succ, ih _ (by omega) (by omega),
          show 8 * ((len + 7) / 8) - 8 * i = 8 + (8 * ((len + 7) / 8) - 8 * (i + 1)) by omega,
          List.take_add, Memory.write_append, List.drop_drop]
        have word : ((src.drop (8 * i)).take 8).length = 8 := by
          simp only [List.length_take, List.length_drop]
          omega
        rw [word, Nat.add_assoc]
        rfl
      · simp [show 8 * ((len + 7) / 8) - 8 * i = 0 by omega]

/-- Once the last of the words is past what is mapped, the loop does not come to its end. -/
theorem ptracePokeLoop_unmapped (dst : Nat) (src : List UInt8) (len : Nat) {rounds i : Nat} (mem : Memory)
    (enough : len ≤ 8 * i + rounds) (started : 8 * i < len) (unmapped : src.length < wholeWords len) :
    ptracePokeLoop dst src len rounds (8 * i) mem = .error .segfault := by
  unfold wholeWords at unmapped
  induction rounds generalizing i mem with
  | zero => omega
  | succ rounds ih =>
      unfold ptracePokeLoop
      rw [if_pos started]
      split
      · rw [← Nat.mul_succ]
        exact ih _ (by omega) (by omega)
      · rfl

theorem ptracePoke_eq (mem : Memory) (dst : Nat) (src : List UInt8) (len : Nat) :
    ptracePoke mem dst src len =
      if wholeWords len ≤ src.length then .ok (mem.write dst (src.take (wholeWords len)))
      else .error .segfault := by
  unfold ptracePoke
  split
  · rename_i mapped
    have poked := ptracePokeLoop_eq dst src len (i := 0) mem (Nat.le_add_left len _) (by omega) mapped
    simpa using poked
  · rename_i unmapped
    rw [Nat.not_le] at unmapped
    have some : 0 < len := by
      unfold wholeWords at unmapped
      omega
    exact ptracePokeLoop_unmapped dst src len (i := 0) mem (by omega) some unmapped

/-- All of a source of whole words is stored. -/
theorem ptracePoke_of_length {mem : Memory} {dst len : Nat} {src : List UInt8}
    (words : wholeWords len = len) (exactly : src.length = len) :
    ptracePoke mem dst src len = .ok (mem.write dst src) := by
  rw [ptracePoke_eq, words, if_pos (Nat.le_of_eq exactly.symm), ← exactly, List.take_length]

/-- What a poke that returns has stored. -/
theorem read_ptracePoke {mem mem' : Memory} {dst : Nat} {src : List UInt8} {len : Nat}
    (poked : ptracePoke mem dst src len = .ok mem') :
    len ≤ src.length ∧ mem'.read dst len = src.take len := by
  rw [ptracePoke_eq] at poked
  split at poked
  · rename_i mapped
    cases poked
    have long := le_wholeWords len
    rw [Memory.read_write _ _ _ (by rw [List.length_take]; omega), List.take_take, Nat.min_eq_left long]
    exact ⟨long.trans mapped, rfl⟩
  · cases poked

/-- `struct iovec` -/
structure Iovec where
  base : Nat
  len : Nat
  deriving DecidableEq

/-- `sizeof(struct iovec)` and `sizeof(struct msghdr)` -/
def sizeofIovec : Nat := 16
def sizeofMsghdr : Nat := 56

/-- The entry of which these are the bytes. -/
def Iovec.ofBytes (bytes : List UInt8) : Iovec where
  base := littleEndian (bytes.take 8)
  len := littleEndian ((bytes.drop 8).take 8)

/-- The fields of `struct msghdr` that say where the buffers are. -/
structure Msghdr where
  iov : Nat
  iovlen : Nat

/-- The header of which these are the bytes: `msg_name` and `msg_namelen` come first. -/
def Msghdr.ofBytes (bytes : List UInt8) : Msghdr where
  iov := littleEndian ((bytes.drop 16).take 8)
  iovlen := littleEndian ((bytes.drop 24).take 8)

/-- The entry that starts at an address. -/
def iovecAt (mem : Memory) (a : Nat) : Iovec := .ofBytes (mem.read a sizeofIovec)

/-- The header that starts at an address. -/
def msghdrAt (mem : Memory) (a : Nat) : Msghdr := .ofBytes (mem.read a sizeofMsghdr)

end Simterpose
