import Mathlib.Data.Nat.Find
import Simterpose.Buffers
import Simterpose.Lib.Loop

/-! # Words to and from the tracee

`ptrace_cpy` and `ptrace_poke` once more, with what `ptraceCpy` and `ptracePoke` leave out: the
memory of the simulator on the other side, the words that are looked at, and the pages of the
tracee that are not mapped. `PTRACE_PEEKDATA` returns the word itself, and -1 may be a word or an
error; `errno` tells which.
-/

namespace Simterpose

open Lib

def eio : Nat := 5

/-- What `SYSERROR` throws. -/
inductive SystemError where
  /-- `"%s : ptrace peekdata in %s\n"`, with the text for `errno` -/
  | peekdata (errno : Nat) (syscall : String)
  /-- `"[%d] Unable to write at memory address %p\n"` -/
  | pokedata (errno dst : Nat)
  deriving Repr, DecidableEq

/-- `PTRACE_PEEKDATA`, with `errno` afterwards. -/
def peekData (mem : PartialMemory) (a : Nat) : UInt64 × Nat :=
  match mem.read a 8 with
  | some bytes => (word bytes, 0)
  | none => (-1, eio)

/-- `PTRACE_POKEDATA`, with `errno` and the memory afterwards. -/
def pokeData (mem : PartialMemory) (a : Nat) (data : UInt64) : Int × Nat × PartialMemory :=
  match mem.read a 8 with
  | some _ => (0, 0, mem.write a (wordBytes data))
  | none => (-1, eio, mem)

/-- The variables of `ptrace_cpy` with the memory of the simulator. The addresses of the words that
    were looked at are kept in `peeked`. -/
structure Copying where
  i : Nat
  sizeCopy : Nat
  tempDest : Nat
  dest : Memory
  peeked : List Nat

/-- `(char *) src + i * sizeof(long)`, where `i` is an `int`. -/
def wordAddress (src i : Nat) : Nat := (↑src + toCInt i * 8).toNat

/-- A word of the tracee, looked at and checked. -/
def peekChecked (mem : PartialMemory) (a : Nat) (syscall : String) : Except SystemError UInt64 :=
  let (ret, errno) := peekData mem a
  if ret = -1 ∧ errno ≠ 0 then .error (.peekdata errno syscall) else .ok ret

section

variable (mem : PartialMemory) (src : Nat) (syscall : String)

def cpyRound (len : Nat) (s : Copying) : Iteration Copying (Except SystemError Copying) :=
  if s.sizeCopy < len then
    match peekChecked mem (wordAddress src s.i) syscall with
    | .error e => .stop (.error e)
    | .ok ret => .again
        { i := s.i + 1, sizeCopy := s.sizeCopy + 8, tempDest := s.tempDest + 8
          dest := s.dest.write s.tempDest (wordBytes ret), peeked := s.peeked ++ [wordAddress src s.i] }
  else .stop (.ok s)

/-- What follows the loop, for bit 3 of the length. -/
def cpyRest (rest : Nat) (s : Copying) : Except SystemError (Memory × List Nat) :=
  if rest ≠ 0 then do
    let ret ← peekChecked mem (wordAddress src s.i) syscall
    return (s.dest.write s.tempDest ((wordBytes ret).take rest), s.peeked ++ [wordAddress src s.i])
  else .ok (s.dest, s.peeked)

/-- `ptrace_cpy`: the memory of the simulator afterwards and the words looked at. -/
def ptraceCpyInto (dest : Memory) (dst length : Nat) : Option (Except SystemError (Memory × List Nat)) :=
  let rest := length &&& 0x8
  (loop (cpyRound mem src syscall (length - rest)) (length + 1)
    { i := 0, sizeCopy := 0, tempDest := dst, dest := dest, peeked := [] }).map
      (· >>= cpyRest mem src syscall rest)

end

/-- The variable of `ptrace_poke` with the memory of the tracee. The addresses of the words that were
    taken from the simulator are kept in `taken`. -/
structure Poking where
  sizeCopy : Nat
  mem : PartialMemory
  taken : List Nat

def pokeRound (source : Memory) (dst src len : Nat) (s : Poking) :
    Iteration Poking (Except SystemError (PartialMemory × List Nat)) :=
  if s.sizeCopy < len then
    let data := word (source.read (src + s.sizeCopy) 8)
    let (ret, errno, mem) := pokeData s.mem (dst + s.sizeCopy) data
    if ret = -1 ∧ errno ≠ 0 then .stop (.error (.pokedata errno dst))
    else .again { sizeCopy := s.sizeCopy + 8, mem, taken := s.taken ++ [src + s.sizeCopy] }
  else .stop (.ok (s.mem, s.taken))

/-- `ptrace_poke`: the memory of the tracee afterwards and the words taken. -/
def ptracePokeFrom (source : Memory) (src : Nat) (mem : PartialMemory) (dst len : Nat) :
    Option (Except SystemError (PartialMemory × List Nat)) :=
  loop (pokeRound source dst src len) (len + 1) { sizeCopy := 0, mem := mem, taken := [] }

/-! ## The words copied -/

theorem wordAddress_eq {i : Nat} (small : i < 0x80000000) (src : Nat) : wordAddress src i = src + 8 * i := by
  unfold wordAddress
  rw [toCInt_of_lt small]
  omega

/-- The words that a number of rounds looks at. -/
def wordsFrom (src count : Nat) : List Nat := (List.range count).map (wordAddress src)

theorem wordsFrom_succ (src count : Nat) :
    wordsFrom src (count + 1) = wordsFrom src count ++ [wordAddress src count] := by
  simp [wordsFrom, List.range_succ]

/-- The bytes of some words. -/
def bytesAt (mem : PartialMemory) (words : List Nat) : List UInt8 := words.flatMap (mem.fill.read · 8)

theorem bytesAt_succ (mem : PartialMemory) (src count : Nat) :
    bytesAt mem (wordsFrom src (count + 1)) =
      bytesAt mem (wordsFrom src count) ++ mem.fill.read (wordAddress src count) 8 := by
  simp [bytesAt, wordsFrom_succ]

@[simp] theorem length_bytesAt_wordsFrom (mem : PartialMemory) (src count : Nat) :
    (bytesAt mem (wordsFrom src count)).length = 8 * count := by
  induction count with
  | zero => rfl
  | succ count ih => rw [bytesAt_succ, List.length_append, ih, Memory.length_read, Nat.mul_succ]

/-- As long as `i` does not overflow, the words are next to each other. -/
theorem bytesAt_eq_read (mem : PartialMemory) (src : Nat) {count : Nat} (small : count ≤ 0x80000000) :
    bytesAt mem (wordsFrom src count) = mem.fill.read src (8 * count) := by
  induction count with
  | zero => rfl
  | succ count ih => rw [bytesAt_succ, ih (by omega), wordAddress_eq (by omega), Nat.mul_succ, Memory.read_add]

section

variable {mem : PartialMemory} {a : Nat} (syscall : String)

theorem peekChecked_mapped (mapped : mem.Mapped a 8) :
    peekChecked mem a syscall = .ok (word (mem.fill.read a 8)) := by
  simp [peekChecked, peekData, PartialMemory.read_of_mapped mapped]

theorem peekChecked_missing (missing : ¬ mem.Mapped a 8) :
    peekChecked mem a syscall = .error (.peekdata eio syscall) := by
  simp [peekChecked, peekData, PartialMemory.read_of_not_mapped missing, eio]

end

namespace Copying

variable (mem : PartialMemory) (dest : Memory) (dst src : Nat)

/-- The copying when some words have been copied. -/
def after (count : Nat) : Copying where
  i := count
  sizeCopy := 8 * count
  tempDest := dst + 8 * count
  dest := dest.write dst (bytesAt mem (wordsFrom src count))
  peeked := wordsFrom src count

/-- One more word behind those copied. -/
theorem write_word (count : Nat) :
    (dest.write dst (bytesAt mem (wordsFrom src count))).write (dst + 8 * count)
        (wordBytes (word (mem.fill.read (wordAddress src count) 8))) =
      dest.write dst (bytesAt mem (wordsFrom src (count + 1))) := by
  rw [bytesAt_succ, Memory.write_append, length_bytesAt_wordsFrom, wordBytes_word (Memory.length_read ..)]

variable {mem dest dst src} {count len : Nat} {syscall : String}

theorem round_mapped (more : 8 * count < len) (mapped : mem.Mapped (wordAddress src count) 8) :
    cpyRound mem src syscall len (after mem dest dst src count) =
      .again (after mem dest dst src (count + 1)) := by
  simp only [cpyRound, after, if_pos more, peekChecked_mapped syscall mapped, write_word, wordsFrom_succ,
    Nat.mul_succ, Nat.add_assoc]

theorem round_missing (more : 8 * count < len) (missing : ¬ mem.Mapped (wordAddress src count) 8) :
    cpyRound mem src syscall len (after mem dest dst src count) =
      .stop (.error (.peekdata eio syscall)) := by
  simp only [cpyRound, after, if_pos more, peekChecked_missing syscall missing]

theorem round_done (done : len ≤ 8 * count) :
    cpyRound mem src syscall len (after mem dest dst src count) =
      .stop (.ok (after mem dest dst src count)) := by
  rw [cpyRound, if_neg]
  exact Nat.not_lt.mpr done

theorem rest_zero (syscall : String) : cpyRest mem src syscall 0 (after mem dest dst src count) =
    .ok (dest.write dst (bytesAt mem (wordsFrom src count)), wordsFrom src count) := rfl

theorem rest_mapped (mapped : mem.Mapped (wordAddress src count) 8) :
    cpyRest mem src syscall 8 (after mem dest dst src count) =
      .ok (dest.write dst (bytesAt mem (wordsFrom src (count + 1))), wordsFrom src (count + 1)) := by
  have whole (data : UInt64) : (wordBytes data).take 8 = wordBytes data :=
    List.take_of_length_le (by simp [wordBytes])
  rw [cpyRest, if_pos (by decide)]
  simp only [after, peekChecked_mapped syscall mapped, whole, bind, Except.bind, write_word, wordsFrom_succ]
  rfl

theorem rest_missing (missing : ¬ mem.Mapped (wordAddress src count) 8) :
    cpyRest mem src syscall 8 (after mem dest dst src count) = .error (.peekdata eio syscall) := by
  rw [cpyRest, if_pos (by decide)]
  simp only [after, peekChecked_missing syscall missing, bind, Except.bind]

/-- What the loop comes to, with the words of it there or not. -/
theorem loop_mapped (mapped : ∀ k < (len + 7) / 8, mem.Mapped (wordAddress src k) 8) {rounds : Nat}
    (enough : (len + 7) / 8 < rounds) :
    loop (cpyRound mem src syscall len) rounds (after mem dest dst src 0) =
      some (.ok (after mem dest dst src ((len + 7) / 8))) := by
  apply loop_of_sequence (f := after mem dest dst src) _ (round_done (by omega)) enough
  intro k inside
  exact round_mapped (by omega) (mapped k inside)

theorem loop_missing (missing : ∃ k < (len + 7) / 8, ¬ mem.Mapped (wordAddress src k) 8) {rounds : Nat}
    (enough : (len + 7) / 8 < rounds) :
    loop (cpyRound mem src syscall len) rounds (after mem dest dst src 0) =
      some (.error (.peekdata eio syscall)) := by
  classical
  -- the loop stops at the first of the words that are missing
  obtain ⟨inside, gone⟩ := Nat.find_spec missing
  apply loop_of_sequence (f := after mem dest dst src) _ (round_missing (by omega) gone) (by omega)
  intro k before
  have there := Nat.find_min missing before
  exact round_mapped (by omega) (by_contra fun gone => there ⟨by omega, gone⟩)

end Copying

section

variable {mem : PartialMemory} {dest : Memory} {dst src length : Nat} {syscall : String}

theorem ptraceCpyInto_eq :
    ptraceCpyInto mem src syscall dest dst length =
      (loop (cpyRound mem src syscall (length - 8 * (length / 8 % 2))) (length + 1)
        (Copying.after mem dest dst src 0)).map
          (· >>= cpyRest mem src syscall (8 * (length / 8 % 2))) := by
  have start : Copying.after mem dest dst src 0 =
      { i := 0, sizeCopy := 0, tempDest := dst, dest := dest, peeked := [] } := by
    simp [Copying.after, wordsFrom, bytesAt]
  rw [start, ptraceCpyInto, and_eight]

/-- Whether a word is copied behind the loop. -/
theorem words_split (length : Nat) :
    (length / 8 % 2 = 0 ∧ (length - 8 * (length / 8 % 2) + 7) / 8 = (length + 7) / 8) ∨
    (length / 8 % 2 = 1 ∧ (length - 8 * (length / 8 % 2) + 7) / 8 + 1 = (length + 7) / 8) := by
  omega

theorem ptraceCpyInto_mapped (mapped : ∀ k < (length + 7) / 8, mem.Mapped (wordAddress src k) 8) :
    ptraceCpyInto mem src syscall dest dst length =
      some (.ok (dest.write dst (bytesAt mem (wordsFrom src ((length + 7) / 8))),
        wordsFrom src ((length + 7) / 8))) := by
  rw [ptraceCpyInto_eq, Copying.loop_mapped (fun k inside => mapped k (by omega)) (by omega)]
  apply congrArg some
  obtain ⟨even, words⟩ | ⟨odd, words⟩ := words_split length
  · rw [words, even]
    exact Copying.rest_zero syscall
  · rw [← words] at mapped ⊢
    have last := mapped _ (Nat.lt_succ_self _)
    rw [odd] at last ⊢
    exact Copying.rest_mapped last

theorem ptraceCpyInto_missing (missing : ∃ k < (length + 7) / 8, ¬ mem.Mapped (wordAddress src k) 8) :
    ptraceCpyInto mem src syscall dest dst length = some (.error (.peekdata eio syscall)) := by
  rw [ptraceCpyInto_eq]
  by_cases early : ∃ k < (length - 8 * (length / 8 % 2) + 7) / 8, ¬ mem.Mapped (wordAddress src k) 8
  · rw [Copying.loop_missing early (by omega)]
    rfl
  · have there : ∀ k < (length - 8 * (length / 8 % 2) + 7) / 8, mem.Mapped (wordAddress src k) 8 := by
      intro k inside
      exact by_contra fun gone => early ⟨k, inside, gone⟩
    rw [Copying.loop_mapped there (by omega)]
    apply congrArg some
    obtain ⟨k, inside, gone⟩ := missing
    have late : (length - 8 * (length / 8 % 2) + 7) / 8 ≤ k := by
      by_contra before
      exact gone (there k (by omega))
    obtain ⟨_, words⟩ | ⟨odd, words⟩ := words_split length
    · omega
    · have last : (length - 8 * (length / 8 % 2) + 7) / 8 = k := by omega
      rw [last, odd]
      exact Copying.rest_missing gone

/-- What a copy that succeeds has copied. -/
theorem ptraceCpyInto_ok {dest' : Memory} {peeked : List Nat}
    (copied : ptraceCpyInto mem src syscall dest dst length = some (.ok (dest', peeked))) :
    ∃ bytes : List UInt8, bytes.length = wholeWords length ∧ dest' = dest.write dst bytes := by
  by_cases mapped : ∀ k < (length + 7) / 8, mem.Mapped (wordAddress src k) 8
  · cases (ptraceCpyInto_mapped mapped).symm.trans copied
    exact ⟨_, length_bytesAt_wordsFrom .., rfl⟩
  · simp only [not_forall, exists_prop] at mapped
    cases (ptraceCpyInto_missing mapped).symm.trans copied

end

/-! ## The words stored -/

namespace Poking

variable (source : Memory) (src : Nat) (mem : PartialMemory) (dst : Nat)

/-- The storing when some words have been stored. -/
def after (count : Nat) : Poking where
  sizeCopy := 8 * count
  mem := mem.write dst (source.read src (8 * count))
  taken := (List.range count).map fun k => src + 8 * k

variable {mem dst} {count len : Nat}

theorem mapped_after :
    (mem.write dst (source.read src (8 * count))).Mapped (dst + 8 * count) 8 ↔
      mem.Mapped (dst + 8 * count) 8 := by
  unfold PartialMemory.Mapped
  apply forall_congr'
  intro k
  rw [PartialMemory.write_outside _ (by rw [Memory.length_read]; omega)]

variable {source src}

theorem round_mapped (more : 8 * count < len) (mapped : mem.Mapped (dst + 8 * count) 8) :
    pokeRound source dst src len (after source src mem dst count) =
      .again (after source src mem dst (count + 1)) := by
  have there := PartialMemory.read_of_mapped ((mapped_after source src).mpr mapped)
  have next : (mem.write dst (source.read src (8 * count))).write (dst + 8 * count)
      (source.read (src + 8 * count) 8) = mem.write dst (source.read src (8 * (count + 1))) := by
    rw [Nat.mul_succ, Memory.read_add, PartialMemory.write_append, Memory.length_read]
  simp only [pokeRound, after, if_pos more, pokeData, there, wordBytes_word (Memory.length_read ..), next]
  simp [List.range_succ, Nat.mul_succ]

theorem round_missing (more : 8 * count < len) (missing : ¬ mem.Mapped (dst + 8 * count) 8) :
    pokeRound source dst src len (after source src mem dst count) =
      .stop (.error (.pokedata eio dst)) := by
  have gone := PartialMemory.read_of_not_mapped (mt (mapped_after source src).mp missing)
  simp only [pokeRound, after, if_pos more, pokeData, gone]
  simp [eio]

theorem round_done (done : len ≤ 8 * count) :
    pokeRound source dst src len (after source src mem dst count) =
      .stop (.ok ((after source src mem dst count).mem, (after source src mem dst count).taken)) := by
  rw [pokeRound, if_neg]
  exact Nat.not_lt.mpr done

end Poking

section

variable {source : Memory} {src : Nat} {mem : PartialMemory} {dst len : Nat}

theorem ptracePokeFrom_eq :
    ptracePokeFrom source src mem dst len =
      loop (pokeRound source dst src len) (len + 1) (Poking.after source src mem dst 0) := by
  have start : Poking.after source src mem dst 0 = { sizeCopy := 0, mem := mem, taken := [] } := by
    simp [Poking.after, Memory.read]
  rw [start, ptracePokeFrom]

theorem ptracePokeFrom_mapped (mapped : ∀ k < (len + 7) / 8, mem.Mapped (dst + 8 * k) 8) :
    ptracePokeFrom source src mem dst len =
      some (.ok (mem.write dst (source.read src (wholeWords len)),
        (List.range ((len + 7) / 8)).map fun k => src + 8 * k)) := by
  rw [ptracePokeFrom_eq]
  apply loop_of_sequence (f := Poking.after source src mem dst) _ (Poking.round_done (by omega)) (by omega)
  intro k inside
  exact Poking.round_mapped (by omega) (mapped k inside)

theorem ptracePokeFrom_missing (missing : ∃ k < (len + 7) / 8, ¬ mem.Mapped (dst + 8 * k) 8) :
    ptracePokeFrom source src mem dst len = some (.error (.pokedata eio dst)) := by
  classical
  obtain ⟨inside, gone⟩ := Nat.find_spec missing
  rw [ptracePokeFrom_eq]
  apply loop_of_sequence (f := Poking.after source src mem dst) _ (Poking.round_missing (by omega) gone)
    (by omega)
  intro k before
  have there := Nat.find_min missing before
  exact Poking.round_mapped (by omega) (by_contra fun gone => there ⟨by omega, gone⟩)

/-- What a store that succeeds has stored. -/
theorem ptracePokeFrom_ok {mem' : PartialMemory} {taken : List Nat}
    (poked : ptracePokeFrom source src mem dst len = some (.ok (mem', taken))) :
    mem' = mem.write dst (source.read src (wholeWords len)) ∧
      taken = (List.range ((len + 7) / 8)).map fun k => src + 8 * k := by
  by_cases mapped : ∀ k < (len + 7) / 8, mem.Mapped (dst + 8 * k) 8
  · cases (ptracePokeFrom_mapped mapped).symm.trans poked
    exact ⟨rfl, rfl⟩
  · simp only [not_forall, exists_prop] at mapped
    cases (ptracePokeFrom_missing mapped).symm.trans poked

end

/-! ## What is copied -/

/-- A block of words is there when each of its words is. -/
theorem mapped_words {mem : PartialMemory} {a count : Nat} :
    mem.Mapped a (8 * count) ↔ ∀ k < count, mem.Mapped (a + 8 * k) 8 := by
  induction count with
  | zero => simp [PartialMemory.Mapped]
  | succ count ih =>
      rw [Nat.mul_succ, PartialMemory.mapped_add, ih]
      simp only [Nat.lt_succ_iff_lt_or_eq, or_imp, forall_and, forall_eq]

section

variable {mem : PartialMemory} {dest : Memory} {dst src length : Nat} {syscall : String}

theorem mapped_wordAddress (short : length < 0x80000000) :
    (∀ k < (length + 7) / 8, mem.Mapped (wordAddress src k) 8) ↔ mem.Mapped src (wholeWords length) := by
  rw [wholeWords, mapped_words]
  apply forall_congr'
  intro k
  apply imp_congr_right
  intro inside
  rw [wordAddress_eq (by omega)]

theorem ptraceCpyInto_of_mapped (short : length < 0x80000000)
    (mapped : mem.Mapped src (wholeWords length)) :
    ptraceCpyInto mem src syscall dest dst length =
      some (.ok (dest.write dst (mem.fill.read src (wholeWords length)),
        (List.range ((length + 7) / 8)).map fun k => src + 8 * k)) := by
  have words : wordsFrom src ((length + 7) / 8) = (List.range ((length + 7) / 8)).map fun k => src + 8 * k := by
    apply List.map_congr_left
    intro k inside
    rw [List.mem_range] at inside
    exact wordAddress_eq (by omega) src
  rw [ptraceCpyInto_mapped ((mapped_wordAddress short).mpr mapped), bytesAt_eq_read _ _ (by omega), words]
  rfl

theorem ptraceCpyInto_of_not_mapped (short : length < 0x80000000)
    (missing : ¬ mem.Mapped src (wholeWords length)) :
    ptraceCpyInto mem src syscall dest dst length = some (.error (.peekdata eio syscall)) := by
  rw [← mapped_wordAddress short] at missing
  apply ptraceCpyInto_missing
  simpa only [not_forall, exists_prop] using missing

/-- In a memory of which nothing is missing, `ptraceCpy` is what comes to the destination. -/
theorem ptraceCpyInto_total (short : length < 0x80000000) (mem : Memory) :
    ptraceCpyInto (fun a => some (mem a)) src syscall dest dst length =
      some (.ok (dest.write dst (ptraceCpy mem src length),
        (List.range ((length + 7) / 8)).map fun k => src + 8 * k)) := by
  rw [ptraceCpyInto_of_mapped short fun _ _ => by simp, ptraceCpy_eq]
  rfl

/-- And `ptracePoke` is what the memory is afterwards, for a source that is long enough. -/
theorem ptracePokeFrom_total {mem mem' : Memory} {source : Memory} {n : Nat}
    (poked : ptracePoke mem dst (source.read src n) length = .ok mem') :
    ptracePokeFrom source src (fun a => some (mem a)) dst length =
      some (.ok (fun a => some (mem' a), (List.range ((length + 7) / 8)).map fun k => src + 8 * k)) := by
  rw [ptracePoke_eq, Memory.length_read] at poked
  split at poked
  · rename_i long
    cases poked
    rw [ptracePokeFrom_mapped fun _ _ _ _ => by simp, Memory.take_read _ _ long]
    apply congrArg (fun stored => some (Except.ok (stored, _)))
    funext b
    simp only [PartialMemory.write, Memory.write]
    split
    · cases (source.read src (wholeWords length))[b - dst]? <;> rfl
    · rfl
  · cases poked

/-- The bytes asked for are among those copied. -/
theorem write_fill_read (dest : Memory) (dst : Nat) (mapped : mem.Mapped src (wholeWords length)) {i : Nat} (inside : i < length) :
    mem (src + i) = some (dest.write dst (mem.fill.read src (wholeWords length)) (dst + i)) := by
  have short : i < wholeWords length := Nat.lt_of_lt_of_le inside (le_wholeWords length)
  rw [Memory.write_inside _ _ (by rwa [Memory.length_read]), Memory.getElem?_read, if_pos short,
    PartialMemory.fill_of_mapped mapped short]

end

theorem mapped_write (mem : PartialMemory) (a : Nat) (bytes : List UInt8) :
    (mem.write a bytes).Mapped a bytes.length := by
  intro k inside
  rw [PartialMemory.write_inside _ inside, List.getElem?_eq_getElem inside]
  simp

theorem write_read_source (mem : PartialMemory) (source : Memory) (dst src : Nat) {length i : Nat}
    (inside : i < length) :
    mem.write dst (source.read src (wholeWords length)) (dst + i) = some (source (src + i)) := by
  have short : i < wholeWords length := Nat.lt_of_lt_of_le inside (le_wholeWords length)
  rw [PartialMemory.write_inside _ (by rwa [Memory.length_read]), Memory.getElem?_read, if_pos short]

/-- A copy of less than 2³¹ bytes looks at the words in which the bytes are, one after the other, and
    gets the bytes; a word that is not there is an error. Bytes that are stored are what is there
    afterwards, and what a copy of them gets back. -/
theorem remote_copies_exact {length : Nat} (short : length < 0x80000000) (mem : PartialMemory)
    (dest source : Memory) (there here back : Nat) (syscall : String) :
    ((mem.Mapped there (wholeWords length) →
        ∃ dest', ptraceCpyInto mem there syscall dest here length =
            some (.ok (dest', (List.range ((length + 7) / 8)).map fun k => there + 8 * k)) ∧
          ∀ i < length, mem (there + i) = some (dest' (here + i))) ∧
      (¬ mem.Mapped there (wholeWords length) →
        ptraceCpyInto mem there syscall dest here length = some (.error (.peekdata eio syscall)))) ∧
    (mem.Mapped there (wholeWords length) →
        ∃ mem' taken, ptracePokeFrom source here mem there length = some (.ok (mem', taken)) ∧
          (∀ i < length, mem' (there + i) = some (source (here + i))) ∧
          ∃ dest' peeked, ptraceCpyInto mem' there syscall dest back length = some (.ok (dest', peeked)) ∧
            ∀ i < length, dest' (back + i) = source (here + i)) ∧
      (¬ mem.Mapped there (wholeWords length) →
        ptracePokeFrom source here mem there length = some (.error (.pokedata eio there))) := by
  refine ⟨⟨fun mapped => ?_, ptraceCpyInto_of_not_mapped short⟩, fun mapped => ?_, fun missing => ?_⟩
  · exact ⟨_, ptraceCpyInto_of_mapped short mapped, fun i inside => write_fill_read dest here mapped inside⟩
  · have stored := mapped_write mem there (source.read here (wholeWords length))
    rw [Memory.length_read] at stored
    refine ⟨_, _, ptracePokeFrom_mapped (mapped_words.mp mapped),
      fun i inside => write_read_source mem source there here inside,
      _, _, ptraceCpyInto_of_mapped short stored, fun i inside => ?_⟩
    have copied := write_fill_read dest back stored inside
    rw [write_read_source _ _ _ _ inside] at copied
    exact (Option.some.inj copied).symm
  · rw [wholeWords, mapped_words] at missing
    apply ptracePokeFrom_missing
    simpa only [not_forall, exists_prop] using missing

/-- Twelve bytes that are all of them 255, so that the words are -1. -/
theorem copy_of_minus_one : ∃ dest', ptraceCpyInto (fun _ => some 255) 5 "read" (fun _ => 0) 3 12 =
      some (.ok (dest', [5, 13])) ∧ ∀ i < 12, some 255 = some (dest' (3 + i)) :=
  (remote_copies_exact (by decide) (fun _ => some 255) (fun _ => 0) (fun _ => 0) 5 3 0 "read").1.1
    fun _ _ => by simp

/-! ## Blocks of bytes -/

/-- `ptrace_cpy` into a block of its own: the bytes asked for. -/
def peekBytes (mem : PartialMemory) (src : Nat) (syscall : String) (length : Nat) : Result (List UInt8) :=
  match ptraceCpyInto mem src syscall (fun _ => 0) 0 length with
  | some (.ok (dest, _)) => .ok (dest.read 0 length)
  | some (.error _) => .error .systemError
  | none => .error .endless

/-- `ptrace_poke` of what the simulator has from some place on, as far as it is mapped. -/
def pokeBytes (mem : PartialMemory) (dst : Nat) (src : List UInt8) (len : Nat) : Result PartialMemory :=
  match ptracePokeFrom (fun a => src.getD a 0) 0 mem dst len with
  | some (.ok (mem', taken)) => if ∀ a ∈ taken, a + 8 ≤ src.length then .ok mem' else .error .segfault
  | some (.error _) => .error .systemError
  | none => .error .endless

section

variable {mem : PartialMemory} {src dst length : Nat} {syscall : String}

theorem peekBytes_of_mapped (short : length < 0x80000000) (mapped : mem.Mapped src (wholeWords length)) :
    peekBytes mem src syscall length = .ok (mem.fill.read src length) := by
  have long := le_wholeWords length
  simp only [peekBytes, ptraceCpyInto_of_mapped short mapped]
  rw [Memory.read_write _ _ _ (by rwa [Memory.length_read]), Memory.take_read _ _ long]

theorem peekBytes_of_not_mapped (short : length < 0x80000000)
    (missing : ¬ mem.Mapped src (wholeWords length)) :
    peekBytes mem src syscall length = .error .systemError := by
  simp only [peekBytes, ptraceCpyInto_of_not_mapped short missing]

theorem peekBytes_eq_ok (short : length < 0x80000000) {bytes : List UInt8} :
    peekBytes mem src syscall length = .ok bytes ↔
      mem.Mapped src (wholeWords length) ∧ bytes = mem.fill.read src length := by
  by_cases mapped : mem.Mapped src (wholeWords length)
  · simp [peekBytes_of_mapped short mapped, mapped, eq_comm]
  · simp [peekBytes_of_not_mapped short mapped, mapped]

/-- The words that are taken are those that the bytes are in. -/
theorem taken_inside_iff (src : List UInt8) (len : Nat) :
    (∀ a ∈ (List.range ((len + 7) / 8)).map fun k => 0 + 8 * k, a + 8 ≤ src.length) ↔
      wholeWords len ≤ src.length := by
  simp only [List.forall_mem_map, List.mem_range, wholeWords]
  constructor
  · intro inside
    rcases Nat.eq_zero_or_pos ((len + 7) / 8) with none_ | some_
    · omega
    · have last := inside ((len + 7) / 8 - 1) (by omega)
      omega
  · intro long k inside
    omega

theorem read_getD (src : List UInt8) {n : Nat} (long : n ≤ src.length) :
    Memory.read (fun a => src.getD a 0) 0 n = src.take n := by
  apply List.ext_getElem?
  intro i
  rw [Memory.getElem?_read, List.getElem?_take]
  split
  · rename_i inside
    have there : i < src.length := Nat.lt_of_lt_of_le inside long
    simp [List.getElem?_eq_getElem there]
  · rfl

theorem pokeBytes_eq (mem : PartialMemory) (dst : Nat) (src : List UInt8) (len : Nat) :
    pokeBytes mem dst src len =
      if mem.Mapped dst (wholeWords len) then
        if wholeWords len ≤ src.length then .ok (mem.write dst (src.take (wholeWords len)))
        else .error .segfault
      else .error .systemError := by
  unfold pokeBytes
  by_cases mapped : mem.Mapped dst (wholeWords len)
  · rw [if_pos mapped, ptracePokeFrom_mapped (mapped_words.mp mapped)]
    by_cases long : wholeWords len ≤ src.length
    · simp only [if_pos ((taken_inside_iff src len).mpr long), if_pos long, read_getD src long]
    · simp only [if_neg (mt (taken_inside_iff src len).mp long), if_neg long]
  · have missing : ∃ k < (len + 7) / 8, ¬ mem.Mapped (dst + 8 * k) 8 := by
      rw [wholeWords, mapped_words] at mapped
      simpa only [not_forall, exists_prop] using mapped
    rw [if_neg mapped, ptracePokeFrom_missing missing]

theorem pokeBytes_eq_ok {bytes : List UInt8} {mem' : PartialMemory} :
    pokeBytes mem dst bytes length = .ok mem' ↔ mem.Mapped dst (wholeWords length) ∧
      wholeWords length ≤ bytes.length ∧ mem' = mem.write dst (bytes.take (wholeWords length)) := by
  rw [pokeBytes_eq]
  by_cases mapped : mem.Mapped dst (wholeWords length)
  · by_cases long : wholeWords length ≤ bytes.length
    · simp [mapped, long, eq_comm]
    · simp [mapped, long]
  · simp [mapped]

end

/-! ## What is copied with it -/

theorem wholeWords_eq_iff (length : Nat) : wholeWords length = length ↔ 8 ∣ length := by
  unfold wholeWords
  omega

theorem lt_wholeWords {length : Nat} (ragged : ¬ 8 ∣ length) : length < wholeWords length := by
  unfold wholeWords
  omega

theorem exists_other_byte (old : Option UInt8) : ∃ b : UInt8, old ≠ some b := by
  cases old with
  | none => exact ⟨0, by simp⟩
  | some y => exact ⟨y + 1, by simp⟩

section

variable (dst src len : Nat)

theorem poke_frame_iff :
    (∀ mem source mem' taken, ptracePokeFrom source src mem dst len = some (.ok (mem', taken)) →
      ∀ b, b < dst ∨ dst + len ≤ b → mem' b = mem b) ↔ 8 ∣ len := by
  constructor
  · intro kept
    by_contra ragged
    have inside := lt_wholeWords ragged
    have same := kept (fun _ => some 1) (fun _ => 0) _ _
      (ptracePokeFrom_mapped fun _ _ _ _ => by simp) (dst + len) (.inr (Nat.le_refl _))
    rw [PartialMemory.write_inside _ (by rwa [Memory.length_read]), Memory.getElem?_read,
      if_pos inside] at same
    cases same
  · intro even mem source mem' taken poked b outside
    rw [(ptracePokeFrom_ok poked).1]
    apply PartialMemory.write_outside
    rwa [Memory.length_read, (wholeWords_eq_iff len).mpr even]

theorem poke_source_iff :
    (∀ mem source mem' taken, ptracePokeFrom source src mem dst len = some (.ok (mem', taken)) →
      ∀ a ∈ taken, a + 8 ≤ src + len) ↔ 8 ∣ len := by
  constructor
  · intro inside
    by_contra ragged
    have last := inside (fun _ => some 0) (fun _ => 0) _ _
      (ptracePokeFrom_mapped fun _ _ _ _ => by simp) (src + 8 * (len / 8))
      (List.mem_map_of_mem (List.mem_range.mpr (by omega)))
    omega
  · intro even mem source mem' taken poked a read
    rw [(ptracePokeFrom_ok poked).2, List.mem_map] at read
    obtain ⟨k, inside, rfl⟩ := read
    rw [List.mem_range] at inside
    omega

theorem cpy_frame_iff (syscall : String) :
    (∀ mem dest dest' peeked, ptraceCpyInto mem src syscall dest dst len = some (.ok (dest', peeked)) →
      ∀ b, b < dst ∨ dst + len ≤ b → dest' b = dest b) ↔ 8 ∣ len := by
  constructor
  · intro kept
    by_contra ragged
    have inside : len < (bytesAt (fun _ => some 0) (wordsFrom src ((len + 7) / 8))).length := by
      rw [length_bytesAt_wordsFrom]
      exact lt_wholeWords ragged
    -- the memory at the destination has another byte behind it than the one that is copied there
    obtain ⟨b, differs⟩ := exists_other_byte
      ((bytesAt (fun _ => some 0) (wordsFrom src ((len + 7) / 8)))[len]?)
    have same := kept (fun _ => some 0) (fun _ => b) _ _
      (ptraceCpyInto_mapped fun _ _ _ _ => by simp) (dst + len) (.inr (Nat.le_refl _))
    have written := Memory.write_inside (fun _ => b) dst inside
    rw [same] at written
    exact differs written.symm
  · intro even mem dest dest' peeked copied b outside
    obtain ⟨bytes, size, rfl⟩ := ptraceCpyInto_ok copied
    apply Memory.write_outside
    rwa [size, (wholeWords_eq_iff len).mpr even]

end

theorem recvfrom_frame_iff {task : Task} {n len : Nat}
    (ends : strlen (task.data ++ task.beyond) = some len)
    (mapped : wholeWords (min (len + 1) n) ≤ (task.data ++ task.beyond).length) (buf : Nat) :
    (∀ mem mem' ret, processRecvfromOutCall mem buf n task = .ok (mem', ret) →
      ∀ b : Nat, buf + ret ≤ b → mem' b = mem b) ↔ 8 ∣ min (len + 1) n := by
  constructor
  · intro kept
    by_contra ragged
    have inside := lt_wholeWords ragged
    obtain ⟨b, differs⟩ := exists_other_byte
      (((task.data ++ task.beyond).take (wholeWords (min (len + 1) n)))[min (len + 1) n]?)
    have same := kept (fun _ => b) _ _ (World.processRecvfromOutCall_of_mapped ends mapped _ buf)
      (buf + min (len + 1) n) (by omega)
    have size : min (len + 1) n < ((task.data ++ task.beyond).take (wholeWords (min (len + 1) n))).length := by
      rw [List.length_take]
      omega
    have written := Memory.write_inside (fun _ => b) buf size
    rw [same] at written
    exact differs written.symm
  · intro even mem mem' ret received b behind
    cases (World.processRecvfromOutCall_of_mapped ends mapped mem buf).symm.trans received
    apply Memory.write_outside
    rw [List.length_take, (wholeWords_eq_iff _).mpr even]
    omega

/-- The copies keep to their bounds for the lengths that are a number of words, and for no others. -/
theorem remote_copies_in_bounds_iff (dst src len : Nat) (syscall : String) :
    ((∀ mem source mem' taken, ptracePokeFrom source src mem dst len = some (.ok (mem', taken)) →
      ∀ b, b < dst ∨ dst + len ≤ b → mem' b = mem b) ↔ 8 ∣ len) ∧
    ((∀ mem source mem' taken, ptracePokeFrom source src mem dst len = some (.ok (mem', taken)) →
      ∀ a ∈ taken, a + 8 ≤ src + len) ↔ 8 ∣ len) ∧
    ((∀ mem dest dest' peeked, ptraceCpyInto mem src syscall dest dst len = some (.ok (dest', peeked)) →
      ∀ b, b < dst ∨ dst + len ≤ b → dest' b = dest b) ↔ 8 ∣ len) ∧
    ∀ (task : Task) (n k : Nat), strlen (task.data ++ task.beyond) = some k →
      wholeWords (min (k + 1) n) ≤ (task.data ++ task.beyond).length →
      ((∀ mem mem' ret, processRecvfromOutCall mem dst n task = .ok (mem', ret) →
        ∀ b : Nat, dst + ret ≤ b → mem' b = mem b) ↔ 8 ∣ min (k + 1) n) :=
  ⟨poke_frame_iff dst src len, poke_source_iff dst src len, cpy_frame_iff dst src len syscall,
    fun _ _ _ ends mapped => recvfrom_frame_iff ends mapped dst⟩

/-- The `int` that `setsockopt` copies is followed by the four bytes behind it. -/
theorem copy_of_int_overruns : ∃ dest' peeked,
    ptraceCpyInto (fun a => some (UInt8.ofNat a)) 1 "setsockopt" (fun _ => 0) 16 4 =
      some (.ok (dest', peeked)) ∧ dest'.read 16 9 = [1, 2, 3, 4, 5, 6, 7, 8, 0] :=
  ⟨_, _, ptraceCpyInto_of_mapped (by decide) fun _ _ => by simp, by decide⟩

end Simterpose
