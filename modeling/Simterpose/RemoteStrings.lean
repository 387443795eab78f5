import Simterpose.RemoteCopies

/-! # Strings of the tracee

`get_string` copies a string of the tracee into a buffer, a word at a time: `execve` is printed with
it. It does not look at `errno`, so a word that is not there is one whose bits are all set. The NUL
is stored at one of three places: in the middle of a word, for a word that is zero, or when the
buffer is full.
-/

namespace Simterpose

open Lib

/-- The variables of `get_string` with the memory that starts with the buffer. The places that were
    stored to are kept in `written`. -/
structure Reading where
  ptr : Nat
  j : Nat
  buf : Memory
  written : List Nat

/-- `buf[j] = c` -/
def Reading.store (s : Reading) (c : UInt8) : Reading :=
  { s with buf := s.buf.write s.j [c], written := s.written ++ [s.j] }

/-- The inner loop, over the bytes of a word; and whether it returns. -/
def copyBytes (size : Nat) : List UInt8 → Reading → Reading × Bool
  | [], s => (s, false)
  | c :: bytes, s =>
      if s.j < size then
        let s := s.store c
        if c = 0 then (s.store 0, true) else copyBytes size bytes { s with j := s.j + 1 }
      else (s, false)

/-- `PTRACE_PEEKTEXT`, without a look at `errno`. -/
def peekText (mem : PartialMemory) (a : Nat) : UInt64 := (peekData mem a).1

def stringRound (mem : PartialMemory) (size : Nat) (s : Reading) : Iteration Reading Reading :=
  let data := peekText mem s.ptr
  if data ≠ 0 ∧ s.j < size then
    match copyBytes size (wordBytes data) s with
    | (s, true) => .stop s
    | (s, false) => .again { s with ptr := s.ptr + 8 }
  else .stop (s.store 0)

/-- `get_string`: the length returned is `j`. -/
def getString (mem : PartialMemory) (ptr : Nat) (buf : Memory) (size : Nat) : Option Reading :=
  loop (stringRound mem size) (size + 2) { ptr := ptr, j := 0, buf := buf, written := [] }

/-! ## The bytes looked at -/

/-- The bytes of the words that start at an address, as `get_string` sees them. -/
def seen (mem : PartialMemory) (ptr : Nat) : Memory := fun i =>
  ((wordBytes (peekText mem (ptr + 8 * (i / 8))))[i % 8]?).getD 0

theorem length_wordBytes (data : UInt64) : (wordBytes data).length = 8 := length_toLittleEndian ..

theorem wordBytes_peekText (mem : PartialMemory) (ptr count : Nat) :
    wordBytes (peekText mem (ptr + 8 * count)) = (seen mem ptr).read (8 * count) 8 := by
  apply List.ext_getElem?
  intro i
  rw [Memory.getElem?_read]
  split
  · rename_i inside
    have word : (8 * count + i) / 8 = count := by omega
    have byte : (8 * count + i) % 8 = i := by omega
    rw [seen, word, byte, List.getElem?_eq_getElem (by rwa [length_wordBytes])]
    rfl
  · rw [List.getElem?_eq_none (by rw [length_wordBytes]; omega)]

theorem wordBytes_split (mem : PartialMemory) (ptr count : Nat) {n : Nat} (short : n ≤ 8) :
    wordBytes (peekText mem (ptr + 8 * count)) =
      (seen mem ptr).read (8 * count) n ++ (seen mem ptr).read (8 * count + n) (8 - n) := by
  rw [wordBytes_peekText, ← Memory.read_add, Nat.add_sub_cancel' short]

/-- A word with a byte that is not zero is not zero. -/
theorem peekText_ne_zero {mem : PartialMemory} {ptr count i : Nat} (inside : i < 8)
    (byte : seen mem ptr (8 * count + i) ≠ 0) : peekText mem (ptr + 8 * count) ≠ 0 := by
  intro zero
  apply byte
  have word : (8 * count + i) / 8 = count := by omega
  rw [seen, word, zero]
  have zeros : wordBytes 0 = List.replicate 8 0 := by decide
  rw [zeros, List.getElem?_replicate]
  split <;> rfl

theorem seen_of_mapped {mem : PartialMemory} {ptr i : Nat} (mapped : mem.Mapped (ptr + 8 * (i / 8)) 8) :
    seen mem ptr i = mem.fill (ptr + i) := by
  have inside : i % 8 < 8 := Nat.mod_lt _ (by decide)
  have place : ptr + 8 * (i / 8) + i % 8 = ptr + i := by omega
  rw [seen, peekText, peekData, PartialMemory.read_of_mapped mapped]
  simp only
  rw [wordBytes_word (Memory.length_read ..), Memory.getElem?_read, if_pos inside, place]
  rfl

theorem seen_of_not_mapped {mem : PartialMemory} {ptr i : Nat}
    (missing : ¬ mem.Mapped (ptr + 8 * (i / 8)) 8) : seen mem ptr i = 255 := by
  have inside : i % 8 < 8 := Nat.mod_lt _ (by decide)
  have ones : wordBytes (-1) = List.replicate 8 255 := by decide
  rw [seen, peekText, peekData, PartialMemory.read_of_not_mapped missing]
  simp only
  rw [ones, List.getElem?_replicate, if_pos inside]
  rfl

/-! ## The rounds -/

namespace Reading

/-- The reading when some more bytes have been copied. -/
def advance (s : Reading) (bytes : List UInt8) : Reading where
  ptr := s.ptr
  j := s.j + bytes.length
  buf := s.buf.write s.j bytes
  written := s.written ++ List.range' s.j bytes.length

theorem advance_nil (s : Reading) : s.advance [] = s := by simp [advance]

theorem advance_cons (s : Reading) (c : UInt8) (bytes : List UInt8) :
    s.advance (c :: bytes) = { s.store c with j := s.j + 1 : Reading }.advance bytes := by
  have apart : s.buf.write s.j (c :: bytes) = (s.buf.write s.j [c]).write (s.j + 1) bytes :=
    s.buf.write_append s.j [c] bytes
  simp only [advance, store, apart, List.length_cons, List.range'_succ, List.append_assoc,
    List.singleton_append, Nat.add_assoc, Nat.add_comm 1]

end Reading

variable {size : Nat} {bytes rest : List UInt8}

/-- Bytes that are not NUL are copied up to the end of the word or of the buffer. -/
theorem copyBytes_full (text : ∀ c ∈ bytes, c ≠ 0) {s : Reading}
    (full : s.j + bytes.length ≤ size ∧ (rest = [] ∨ s.j + bytes.length = size)) :
    copyBytes size (bytes ++ rest) s = (s.advance bytes, false) := by
  induction bytes generalizing s with
  | nil =>
      rw [List.nil_append, Reading.advance_nil]
      cases rest with
      | nil => rfl
      | cons c rest =>
          have done : ¬ s.j < size := by simp at full; omega
          rw [copyBytes, if_neg done]
  | cons c bytes ih =>
      rw [List.length_cons] at full
      have more : s.j < size := by omega
      have here : c ≠ 0 := text c (by simp)
      rw [List.cons_append, copyBytes, if_pos more, Reading.advance_cons]
      simp only [if_neg here]
      apply ih (fun c member => text c (List.mem_cons_of_mem _ member))
      simp only [Reading.store]
      exact ⟨by omega, full.2.imp_right (by omega)⟩

/-- At a NUL the copying is over. -/
theorem copyBytes_nul (text : ∀ c ∈ bytes, c ≠ 0) {s : Reading} (fits : s.j + bytes.length < size) :
    copyBytes size (bytes ++ 0 :: rest) s = (((s.advance bytes).store 0).store 0, true) := by
  induction bytes generalizing s with
  | nil =>
      have more : s.j < size := by simpa using fits
      rw [List.nil_append, Reading.advance_nil, copyBytes, if_pos more, if_pos rfl]
  | cons c bytes ih =>
      rw [List.length_cons] at fits
      have more : s.j < size := by omega
      have here : c ≠ 0 := text c (by simp)
      rw [List.cons_append, copyBytes, if_pos more, Reading.advance_cons]
      simp only [if_neg here]
      apply ih (fun c member => text c (List.mem_cons_of_mem _ member))
      simp only [Reading.store]
      omega

/-! ## The loop -/

section

variable (mem : PartialMemory) (ptr : Nat) (buf : Memory)

/-- The reading when the first `k` of the bytes seen are in the buffer. -/
def Reading.copied (k pos : Nat) : Reading where
  ptr := pos
  j := k
  buf := buf.write 0 ((seen mem ptr).read 0 k)
  written := List.range k

/-- What a reading of `k` bytes ends with. -/
structure Reading.Done (k : Nat) (r : Reading) : Prop where
  j : r.j = k
  buf : r.buf = buf.write 0 ((seen mem ptr).read 0 k ++ [0])
  written : ∀ i, i ∈ r.written ↔ i ≤ k

variable {mem ptr buf} {k pos : Nat}

theorem Reading.advance_copied (n : Nat) :
    (copied mem ptr buf k pos).advance ((seen mem ptr).read k n) = copied mem ptr buf (k + n) pos := by
  have stored := buf.write_append 0 ((seen mem ptr).read 0 k) ((seen mem ptr).read k n)
  rw [Memory.length_read, Nat.zero_add] at stored
  have whole := (seen mem ptr).read_add 0 k n
  rw [Nat.zero_add] at whole
  have places := @List.range'_append_1 0 k n
  rw [Nat.zero_add] at places
  simp only [advance, copied, Memory.length_read, whole, stored, List.range_eq_range', places]

variable (pos)

theorem Reading.done_store : Done mem ptr buf k ((copied mem ptr buf k pos).store 0) where
  j := rfl
  buf := by
    rw [Memory.write_append, Memory.length_read, Nat.zero_add]
    rfl
  written i := by simp [store, copied]; omega

theorem Reading.done_store_store : Done mem ptr buf k (((copied mem ptr buf k pos).store 0).store 0) where
  j := rfl
  buf := by
    rw [Memory.write_append, Memory.length_read, Nat.zero_add]
    exact Memory.write_write _ _ rfl
  written i := by simp [store, copied]; omega

variable {pos}

theorem text_of_read (text : ∀ i < k, seen mem ptr i ≠ 0) {a n : Nat} (short : a + n ≤ k) :
    ∀ c ∈ (seen mem ptr).read a n, c ≠ 0 := by
  intro c member
  obtain ⟨i, inside, rfl⟩ := Memory.exists_of_mem_read _ member
  exact text (a + i) (by omega)

/-- As long as there are bytes to copy, a round copies those of a word, or those for which there is
    room. -/
theorem stringRound_again {count : Nat} (text : ∀ i < k, seen mem ptr i ≠ 0) (more : 8 * count < k)
    (room : k ≤ size) (full : 8 * count + 8 ≤ k ∨ k = size) :
    stringRound mem size (.copied mem ptr buf (min (8 * count) k) (ptr + 8 * count)) =
      .again (.copied mem ptr buf (min (8 * (count + 1)) k) (ptr + 8 * (count + 1))) := by
  have here : min (8 * count) k = 8 * count := Nat.min_eq_left (Nat.le_of_lt more)
  have step : 8 * count + min 8 (k - 8 * count) = min (8 * (count + 1)) k := by omega
  have data : peekText mem (ptr + 8 * count) ≠ 0 := peekText_ne_zero (i := 0) (by decide) (text _ more)
  have copied : copyBytes size (wordBytes (peekText mem (ptr + 8 * count)))
      (.copied mem ptr buf (8 * count) (ptr + 8 * count)) =
        (.copied mem ptr buf (min (8 * (count + 1)) k) (ptr + 8 * count), false) := by
    rw [wordBytes_split _ _ _ (Nat.min_le_left 8 (k - 8 * count)), copyBytes_full, Reading.advance_copied, step]
    · exact text_of_read text (by omega)
    · simp only [Memory.length_read, Reading.copied]
      refine ⟨by omega, ?_⟩
      by_cases whole : 8 * count + 8 ≤ k
      · left
        rw [Nat.min_eq_left (by omega)]
        rfl
      · right
        omega
  rw [here, stringRound, if_pos ⟨data, by simp only [Reading.copied]; omega⟩]
  simp only [Reading.copied] at copied ⊢
  rw [copied]
  rfl

theorem stringRound_full :
    stringRound mem size (.copied mem ptr buf size pos) = .stop ((Reading.copied mem ptr buf size pos).store 0) := by
  rw [stringRound, if_neg]
  rintro ⟨_, more⟩
  exact Nat.lt_irrefl _ more

/-- The round that comes to the NUL. -/
theorem stringRound_nul (buf : Memory) {count : Nat} (text : ∀ i < k, seen mem ptr i ≠ 0) (nul : seen mem ptr k = 0)
    (room : k < size) (started : 8 * count ≤ k) (ends : k < 8 * count + 8) :
    ∃ r, stringRound mem size (.copied mem ptr buf (8 * count) (ptr + 8 * count)) = .stop r ∧
      Reading.Done mem ptr buf k r := by
  by_cases data : peekText mem (ptr + 8 * count) = 0
  · -- a word that is zero has no byte in front of the NUL
    have here : 8 * count = k := by
      by_contra before
      exact peekText_ne_zero (i := 0) (by decide) (text (8 * count) (by omega)) data
    refine ⟨_, ?_, Reading.done_store (ptr + 8 * count)⟩
    rw [stringRound, if_neg (fun go => go.1 data), here]
  · have place : 8 * count + (k - 8 * count) = k := by omega
    have bytes : wordBytes (peekText mem (ptr + 8 * count)) =
        (seen mem ptr).read (8 * count) (k - 8 * count) ++
          0 :: (seen mem ptr).read (k + 1) (7 - (k - 8 * count)) := by
      have rest : 8 - (k - 8 * count) = 7 - (k - 8 * count) + 1 := by omega
      rw [wordBytes_split _ _ _ (show k - 8 * count ≤ 8 by omega), rest, place, Memory.read, nul]
    have copied : copyBytes size (wordBytes (peekText mem (ptr + 8 * count)))
        (.copied mem ptr buf (8 * count) (ptr + 8 * count)) =
          (((Reading.copied mem ptr buf k (ptr + 8 * count)).store 0).store 0, true) := by
      rw [bytes, copyBytes_nul (text_of_read text (by omega)), Reading.advance_copied, place]
      rw [Memory.length_read]
      simp only [Reading.copied]
      omega
    refine ⟨_, ?_, Reading.done_store_store (ptr + 8 * count)⟩
    rw [stringRound, if_pos ⟨data, by simp only [Reading.copied]; omega⟩]
    simp only [Reading.copied] at copied ⊢
    rw [copied]

/-- What `get_string` does: it copies the bytes up to a NUL, or as many as the size says. -/
theorem getString_eq (buf : Memory) (text : ∀ i < k, seen mem ptr i ≠ 0) (room : k ≤ size)
    (ends : k = size ∨ seen mem ptr k = 0) :
    ∃ r, getString mem ptr buf size = some r ∧ Reading.Done mem ptr buf k r := by
  have start : ({ ptr := ptr, j := 0, buf := buf, written := [] } : Reading) =
      .copied mem ptr buf (min (8 * 0) k) (ptr + 8 * 0) := by
    simp [Reading.copied, Memory.read]
  rw [getString, start]
  by_cases full : k = size
  · subst full
    refine ⟨_, ?_, Reading.done_store (ptr + 8 * ((k + 7) / 8))⟩
    apply loop_of_sequence (f := fun count => Reading.copied mem ptr buf (min (8 * count) k) (ptr + 8 * count))
      (n := (k + 7) / 8)
    · intro count inside
      exact stringRound_again text (by omega) (Nat.le_refl _) (.inr rfl)
    · simp only [Nat.min_eq_right (show k ≤ 8 * ((k + 7) / 8) by omega)]
      exact stringRound_full
    · omega
  · have nul := ends.resolve_left full
    have short : k < size := by omega
    have started : 8 * (k / 8) ≤ k := Nat.mul_div_le k 8
    obtain ⟨r, last, done⟩ := stringRound_nul buf text nul short started (by omega)
    refine ⟨r, ?_, done⟩
    apply loop_of_sequence (f := fun count => Reading.copied mem ptr buf (min (8 * count) k) (ptr + 8 * count))
      (n := k / 8)
    · intro count inside
      exact stringRound_again text (by omega) room (.inl (by omega))
    · simp only [Nat.min_eq_left started]
      exact last
    · omega

/-- It always comes to its end. -/
theorem exists_getString (mem : PartialMemory) (ptr : Nat) (buf : Memory) (size : Nat) :
    ∃ k r, getString mem ptr buf size = some r ∧ Reading.Done mem ptr buf k r ∧
      (k = size ∨ seen mem ptr k = 0) := by
  have stops : ∃ k ≤ size, (∀ i < k, seen mem ptr i ≠ 0) ∧ (k = size ∨ seen mem ptr k = 0) := by
    induction size with
    | zero => exact ⟨0, Nat.le_refl _, fun i inside => absurd inside (Nat.not_lt_zero i), .inl rfl⟩
    | succ size ih =>
        obtain ⟨k, room, text, ends⟩ := ih
        by_cases nul : seen mem ptr k = 0
        · exact ⟨k, Nat.le_succ_of_le room, text, .inr nul⟩
        · obtain rfl := ends.resolve_right nul
          refine ⟨k + 1, Nat.le_refl _, fun i inside => ?_, .inl rfl⟩
          rcases Nat.lt_succ_iff_lt_or_eq.mp inside with before | rfl
          · exact text i before
          · exact nul
  obtain ⟨k, room, text, ends⟩ := stops
  obtain ⟨r, given, done⟩ := getString_eq buf text room ends
  exact ⟨k, r, given, done, ends⟩

end

/-! ## A string of the tracee -/

/-- A text with its NUL is at an address of the tracee. -/
structure StringAt (mem : PartialMemory) (ptr : Nat) (text : List UInt8) : Prop where
  bytes : mem.read ptr (text.length + 1) = some (text ++ [0])
  text : ∀ c ∈ text, c ≠ 0

namespace StringAt

variable {mem : PartialMemory} {ptr : Nat} {text : List UInt8}

theorem mapped (string : StringAt mem ptr text) : mem.Mapped ptr (text.length + 1) := by
  by_contra missing
  have bytes := string.bytes
  rw [PartialMemory.read_of_not_mapped missing] at bytes
  cases bytes

theorem fill_read (string : StringAt mem ptr text) : mem.fill.read ptr (text.length + 1) = text ++ [0] := by
  have bytes := string.bytes
  rw [PartialMemory.read_of_mapped string.mapped] at bytes
  exact Option.some.inj bytes

theorem fill_text (string : StringAt mem ptr text) {i : Nat} (inside : i < text.length) :
    some (mem.fill (ptr + i)) = text[i]? := by
  have byte := mem.fill.getElem?_read ptr (text.length + 1) i
  rw [if_pos (by omega), string.fill_read, List.getElem?_append_left inside] at byte
  exact byte.symm

theorem fill_nul (string : StringAt mem ptr text) : mem.fill (ptr + text.length) = 0 := by
  have byte := mem.fill.getElem?_read ptr (text.length + 1) text.length
  rw [if_pos (by omega), string.fill_read] at byte
  simpa using byte.symm

/-- No byte of the text is seen as NUL, whether the words are there or not. -/
theorem seen_ne_zero (string : StringAt mem ptr text) {i : Nat} (inside : i < text.length) :
    seen mem ptr i ≠ 0 := by
  by_cases mapped : mem.Mapped (ptr + 8 * (i / 8)) 8
  · rw [seen_of_mapped mapped]
    apply string.text
    exact List.mem_of_getElem? (string.fill_text inside).symm
  · rw [seen_of_not_mapped mapped]
    decide

/-- The NUL is seen exactly if the word is there in which it is. -/
theorem seen_nul_iff (string : StringAt mem ptr text) :
    seen mem ptr text.length = 0 ↔ mem.Mapped (ptr + 8 * (text.length / 8)) 8 := by
  constructor
  · intro nul
    by_contra missing
    rw [seen_of_not_mapped missing] at nul
    cases nul
  · intro mapped
    rw [seen_of_mapped mapped, string.fill_nul]

/-- All words but the one with the NUL are there. -/
theorem seen_read (string : StringAt mem ptr text) (last : mem.Mapped (ptr + 8 * (text.length / 8)) 8) :
    (seen mem ptr).read 0 text.length = text := by
  apply List.ext_getElem?
  intro i
  rw [Memory.getElem?_read, Nat.zero_add]
  split
  · rename_i inside
    have there : mem.Mapped (ptr + 8 * (i / 8)) 8 := by
      by_cases same : i / 8 = text.length / 8
      · rwa [same]
      · intro b byte
        rw [Nat.add_assoc]
        exact string.mapped _ (by omega)
    rw [seen_of_mapped there, string.fill_text inside]
  · rename_i outside
    rw [List.getElem?_eq_none (by omega)]

end StringAt

/-- A string is read as it should be exactly if the buffer is longer than it and the word in which
    it ends is there. One that is as long as the buffer or longer is followed by a NUL behind the
    buffer. -/
theorem get_string_right_iff {mem : PartialMemory} {ptr size : Nat} {text : List UInt8} (buf : Memory)
    (string : StringAt mem ptr text) :
    ((∃ r, getString mem ptr buf size = some r ∧ (∀ i ∈ r.written, i < size) ∧
        r.j = (text.take (size - 1)).length ∧ r.buf.read 0 (r.j + 1) = text.take (size - 1) ++ [0]) ↔
      text.length < size ∧ mem.Mapped (ptr + 8 * (text.length / 8)) 8) ∧
    (size ≤ text.length →
      ∃ r, getString mem ptr buf size = some r ∧ size ∈ r.written ∧ r.j = size) := by
  have overrun : size ≤ text.length →
      ∃ r, getString mem ptr buf size = some r ∧ size ∈ r.written ∧ r.j = size := by
    intro long
    obtain ⟨r, given, done⟩ := getString_eq buf
      (fun i inside => string.seen_ne_zero (Nat.lt_of_lt_of_le inside long)) (Nat.le_refl size) (.inl rfl)
    exact ⟨r, given, (done.written size).mpr (Nat.le_refl _), done.j⟩
  refine ⟨⟨?_, ?_⟩, overrun⟩
  · rintro ⟨r, given, inside, length, content⟩
    have short : text.length < size := by
      by_contra long
      obtain ⟨r', given', past, _⟩ := overrun (by omega)
      cases given.symm.trans given'
      exact Nat.lt_irrefl _ (inside size past)
    obtain ⟨k, r', given', done, ends⟩ := exists_getString mem ptr buf size
    cases given.symm.trans given'
    have whole : k = text.length := by
      rw [done.j, List.length_take] at length
      omega
    rw [whole] at ends
    exact ⟨short, string.seen_nul_iff.mp (ends.resolve_left (Nat.ne_of_lt short))⟩
  · rintro ⟨short, mapped⟩
    obtain ⟨r, given, done⟩ := getString_eq buf
      (fun i inside => string.seen_ne_zero inside) (Nat.le_of_lt short) (.inr (string.seen_nul_iff.mpr mapped))
    have whole : text.take (size - 1) = text := List.take_of_length_le (by omega)
    refine ⟨r, given, fun i written => ?_, by rw [whole, done.j], ?_⟩
    · have most := (done.written i).mp written
      omega
    · rw [whole, done.j, done.buf, string.seen_read mapped, Memory.read_write _ _ _ (by simp),
        List.take_of_length_le (by simp)]

/-- A name of three letters and a buffer of four bytes. -/
theorem get_string_of_short_name : ∃ r, getString (fun a => some (if a < 3 then 97 else 0)) 0 (fun _ => 1) 4 = some r ∧
    (∀ i ∈ r.written, i < 4) ∧ r.j = ([97, 97, 97].take 3 : List UInt8).length ∧
      r.buf.read 0 (r.j + 1) = [97, 97, 97].take 3 ++ [0] :=
  (get_string_right_iff (fun _ => 1) ⟨by decide, by simp⟩).1.mpr
    ⟨by decide, fun k _ => by simp⟩

/-- A name of four letters and a buffer of four bytes: the NUL is stored behind the buffer. -/
theorem get_string_overruns : ∃ r, getString (fun a => some (if a < 4 then 97 else 0)) 0 (fun _ => 1) 4 = some r ∧
    4 ∈ r.written ∧ r.j = 4 ∧ r.buf.read 0 5 = [97, 97, 97, 97, 0] :=
  ⟨_, rfl, by decide, by decide, by decide⟩

end Simterpose
