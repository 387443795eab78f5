import Simterpose.RemoteCopies

/-! # Vectors of buffers

`sendmsg` sends what is in several buffers of the tracee, and `recvmsg` stores a message in several.
A `struct msghdr` says where the entries that describe the buffers are. The handlers multiply the
index of an entry by the size of an entry before they add it to a pointer to entries, and so read
every sixteenth one.
-/

namespace Simterpose

open Lib

/-! ## What a vector of buffers is for -/

/-- The entries of an array at an address. -/
def iovecs (mem : Memory) (iov n : Nat) : List Iovec :=
  (List.range n).map fun i => iovecAt mem (iov + sizeofIovec * i)

/-- The entries of the array that a header names. -/
def vectorAt (mem : Memory) (msg : Nat) : List Iovec :=
  iovecs mem (msghdrAt mem msg).iov (msghdrAt mem msg).iovlen

/-- How many bytes some buffers have together. -/
def room (vs : List Iovec) : Nat := (vs.map Iovec.len).sum

/-- What is in some buffers, one after the other. -/
def gather (mem : Memory) (vs : List Iovec) : List UInt8 := vs.flatMap fun v => mem.read v.base v.len

/-- Store a message in some buffers, each filled before the next one starts. -/
def scatter : List Iovec → List UInt8 → PartialMemory → PartialMemory
  | [], _, mem => mem
  | v :: vs, message, mem => scatter vs (message.drop v.len) (mem.write v.base (message.take v.len))

/-- An address in one of the buffers. -/
def InBuffers (vs : List Iovec) (a : Nat) : Prop := ∃ v ∈ vs, v.base ≤ a ∧ a < v.base + v.len

/-- As much of a message as there is room for was stored in the buffers, and nothing else. -/
def Scattered (vs : List Iovec) (message : List UInt8) (mem : PartialMemory)
    (out : PartialMemory × Nat) : Prop :=
  out.2 = min message.length (room vs) ∧ ∀ a, InBuffers vs a → out.1 a = scatter vs message mem a

/-! ## What the handlers do -/

/-- The address of the entry that the handlers read for an index. -/
def entryAddress (iov i : Nat) : Nat := iov + sizeofIovec * (i * sizeofIovec)

/-- The loop of `syscall_sendmsg`. -/
def syscallSendmsgLoop (mem : PartialMemory) (iov : Nat) :
    (rounds i : Nat) → List UInt8 → Result (List UInt8)
  | 0, _, data => .ok data
  | rounds + 1, i, data => do
      let temp := Iovec.ofBytes (← peekBytes mem (entryAddress iov i) "sendmsg" sizeofIovec)
      let bytes ← peekBytes mem temp.base "sendmsg" temp.len
      syscallSendmsgLoop mem iov rounds (i + 1) (data ++ bytes)

/-- `syscall_sendmsg` at the entrance: the task sent and the value for the tracee. The third argument
    of this call is its flags, and the result register holds them after the send. -/
def World.syscallSendmsg {H : Type} [DecidableEq H] (w : World H) (proc : Pid) (fd : Int)
    (mem : PartialMemory) (arg1 flags : Nat) (beyond : List UInt8) :
    Result (World H × Option (Task × Int)) := do
  let msg := Msghdr.ofBytes (← peekBytes mem arg1 "sendmsg" sizeofMsghdr)
  let data ← syscallSendmsgLoop mem msg.iov msg.iovlen 0 []
  let sent ← w.processSendCallWith proc fd data beyond flags
  return (sent.1, sent.2.map fun task => (task, toSsize flags))

/-- The loop of `sys_build_recvmsg`. A length is not negative, so that the loop is never left early;
    the offset into the data stays at zero. -/
def sysBuildRecvmsgLoop (data : List UInt8) (iov : Nat) :
    (rounds i bytesRead : Nat) → PartialMemory → Result (PartialMemory × Nat)
  | 0, _, bytesRead, mem => .ok (mem, bytesRead)
  | rounds + 1, i, bytesRead, mem => do
      let bytes ← peekBytes mem (entryAddress iov i) "recvmsg" sizeofIovec
      let temp := Iovec.ofBytes bytes
      match strlen data with
      | none => .error .segfault
      | some len => do
          let mem ← pokeBytes mem (entryAddress iov i) bytes sizeofIovec
          let mem ← pokeBytes mem temp.base data temp.len
          sysBuildRecvmsgLoop data iov rounds (i + 1) (bytesRead + len) mem

/-- `sys_build_recvmsg`: the memory of the tracee afterwards and the value it gets. The data is the
    simulator's memory from the start of the message on. -/
def sysBuildRecvmsg (mem : PartialMemory) (data : List UInt8) (msg : Msghdr) :
    Result (PartialMemory × Nat) :=
  sysBuildRecvmsgLoop data msg.iov msg.iovlen 0 0 mem

/-- The entry that the handlers read for an index, if it is there. -/
def entryAt (mem : PartialMemory) (iov i : Nat) : Iovec := iovecAt mem.fill (entryAddress iov i)

/-- The entries that the handlers read are those of the array. -/
def SameEntries (mem : PartialMemory) (iov n : Nat) : Prop :=
  ∀ i < n, entryAt mem iov i = iovecAt mem.fill (iov + sizeofIovec * i)

/-- Up to the first entry the handlers look where they should. -/
theorem sameEntries_of_le_one (mem : PartialMemory) (iov : Nat) {n : Nat} (few : n ≤ 1) :
    SameEntries mem iov n := by
  intro i below
  have first : i = 0 := by omega
  subst first
  rfl

theorem ofBytes_entry (mem : PartialMemory) (iov i : Nat) :
    Iovec.ofBytes (mem.fill.read (entryAddress iov i) sizeofIovec) = entryAt mem iov i := rfl

theorem peek_entry_eq_ok {mem : PartialMemory} {a : Nat} {syscall : String} {bytes : List UInt8} :
    peekBytes mem a syscall sizeofIovec = .ok bytes ↔
      mem.Mapped a sizeofIovec ∧ bytes = mem.fill.read a sizeofIovec :=
  peekBytes_eq_ok (by decide)

theorem SameEntries.iovecs_eq {mem : PartialMemory} {iov n : Nat} (same : SameEntries mem iov n) :
    iovecs mem.fill iov n = (List.range' 0 n).map (entryAt mem iov) := by
  rw [← List.range_eq_range']
  apply List.map_congr_left
  intro i below
  exact (same i (List.mem_range.mp below)).symm

/-! ## Gathering -/

/-- All words that `syscall_sendmsg` looks at are there. -/
structure SendmsgMapped (mem : PartialMemory) (arg1 : Nat) : Prop where
  header : mem.Mapped arg1 sizeofMsghdr
  entry : ∀ i < (msghdrAt mem.fill arg1).iovlen,
    mem.Mapped (entryAddress (msghdrAt mem.fill arg1).iov i) sizeofIovec
  buffer : ∀ i < (msghdrAt mem.fill arg1).iovlen,
    mem.Mapped (entryAt mem (msghdrAt mem.fill arg1).iov i).base
      (wholeWords (entryAt mem (msghdrAt mem.fill arg1).iov i).len)

/-- What the loop gathers, from entries of which none is too long. -/
theorem syscallSendmsgLoop_eq_ok {mem : PartialMemory} {iov rounds i : Nat}
    (short : ∀ j < rounds, (entryAt mem iov (i + j)).len < 0x80000000) {data out : List UInt8} :
    syscallSendmsgLoop mem iov rounds i data = .ok out ↔
      (∀ j < rounds, mem.Mapped (entryAddress iov (i + j)) sizeofIovec ∧
        mem.Mapped (entryAt mem iov (i + j)).base (wholeWords (entryAt mem iov (i + j)).len)) ∧
      out = data ++ gather mem.fill ((List.range' i rounds).map (entryAt mem iov)) := by
  induction rounds generalizing i data with
  | zero => simp [syscallSendmsgLoop, gather, eq_comm]
  | succ rounds ih =>
      have later : ∀ j < rounds, (entryAt mem iov (i + 1 + j)).len < 0x80000000 := by
        intro j below
        rw [Nat.add_assoc, Nat.add_comm 1]
        exact short (j + 1) (by omega)
      have split : ∀ P : Nat → Prop,
          (∀ j < rounds + 1, P (i + j)) ↔ P i ∧ ∀ j < rounds, P (i + 1 + j) := by
        intro P
        rw [Nat.forall_lt_succ_left]
        simp only [Nat.add_zero, Nat.add_assoc, Nat.add_comm 1]
      have first : (entryAt mem iov i).len < 0x80000000 := short 0 (Nat.succ_pos rounds)
      simp only [syscallSendmsgLoop, bind_eq_ok, peek_entry_eq_ok]
      rw [split fun j => mem.Mapped (entryAddress iov j) sizeofIovec ∧
        mem.Mapped (entryAt mem iov j).base (wholeWords (entryAt mem iov j).len)]
      constructor
      · rintro ⟨_, ⟨there, rfl⟩, bytes, copied, rest⟩
        rw [ofBytes_entry, peekBytes_eq_ok first] at copied
        obtain ⟨mapped, same⟩ := copied
        obtain ⟨all, tail⟩ := (ih later).mp rest
        refine ⟨⟨⟨there, mapped⟩, all⟩, ?_⟩
        rw [tail, same]
        simp only [List.range'_succ, List.map_cons, gather, List.flatMap_cons, List.append_assoc]
      · rintro ⟨⟨⟨there, mapped⟩, all⟩, rfl⟩
        refine ⟨_, ⟨there, rfl⟩, _, (peekBytes_eq_ok first).mpr ⟨mapped, rfl⟩, ?_⟩
        refine (ih later).mpr ⟨all, ?_⟩
        simp only [List.range'_succ, List.map_cons, gather, List.flatMap_cons, List.append_assoc,
          ofBytes_entry]

theorem room_cons (v : Iovec) (vs : List Iovec) : room (v :: vs) = v.len + room vs := rfl

theorem len_le_room {vs : List Iovec} {v : Iovec} (member : v ∈ vs) : v.len ≤ room vs := by
  induction vs with
  | nil => cases member
  | cons u vs ih =>
      rw [room_cons]
      rcases List.mem_cons.mp member with rfl | later
      · exact Nat.le_add_right ..
      · exact (ih later).trans (Nat.le_add_left ..)

/-- A header at 0 with two entries, an array of them at 64, and their buffers of two bytes. -/
def twoBuffers : PartialMemory :=
  let blank : PartialMemory := fun a => if a < 512 then some 0 else none
  let header : PartialMemory := (blank.write 16 [64]).write 24 [2]
  let first : PartialMemory := ((header.write 64 [128]).write 72 [2]).write 128 [104, 105]
  (first.write 80 [160]).write 88 [2]

/-- The same with the second entry where the handlers look for it, too. -/
def twoEntries : PartialMemory := (twoBuffers.write 320 [160]).write 328 [2]

namespace World

variable {H : Type} [DecidableEq H] {w : World H} {p : Pid} {fd : Int} {x y : SockId}

/-- What a `sendmsg` on an established socket sends, and the flags that are taken for its length. -/
theorem syscallSendmsg_sends_iff (established : w.Established p fd x y) (mem : PartialMemory)
    (arg1 flags : Nat) (beyond payload : List UInt8) (ret amount : Int) :
    (∃ w' task, w.syscallSendmsg p fd mem arg1 flags beyond = .ok (w', some (task, ret)) ∧
      task.data = payload ∧ task.bytesAmount = amount) ↔
    mem.Mapped arg1 sizeofMsghdr ∧
      syscallSendmsgLoop mem (msghdrAt mem.fill arg1).iov (msghdrAt mem.fill arg1).iovlen 0 [] = .ok payload ∧
      toSsize flags = ret ∧ toCInt flags = amount := by
  have header : ∀ {bytes}, peekBytes mem arg1 "sendmsg" sizeofMsghdr = .ok bytes ↔
      mem.Mapped arg1 sizeofMsghdr ∧ bytes = mem.fill.read arg1 sizeofMsghdr :=
    peekBytes_eq_ok (by decide)
  simp only [syscallSendmsg, bind_eq_ok, header, pure_eq_ok, Prod.mk.injEq]
  constructor
  · rintro ⟨w', task, ⟨_, ⟨there, rfl⟩, data, looped, r, call, -, given⟩, rfl, rfl⟩
    obtain ⟨recv, sent⟩ := processSendCallWith_of_established established data beyond flags
    cases sent.symm.trans call
    simp only [Option.map_some, Option.some.injEq, Prod.mk.injEq] at given
    obtain ⟨rfl, returned⟩ := given
    exact ⟨there, looped, returned, rfl⟩
  · rintro ⟨there, looped, rfl, rfl⟩
    obtain ⟨recv, sent⟩ := processSendCallWith_of_established established payload beyond flags
    exact ⟨_, _, ⟨_, ⟨there, rfl⟩, payload, looped, _, sent, rfl, rfl⟩, rfl, rfl⟩

/-- On an established socket, with one entry or entries that are where the handlers look for them,
    `sendmsg` gathers exactly when the words it looks at are there and its flags happen to be the number
    of bytes. -/
theorem sendmsg_gathers_iff (established : w.Established p fd x y) {mem : PartialMemory} {arg1 : Nat}
    (found : 1 < (msghdrAt mem.fill arg1).iovlen →
      SameEntries mem (msghdrAt mem.fill arg1).iov (msghdrAt mem.fill arg1).iovlen)
    (flags : Nat) (beyond : List UInt8) :
    (∃ w' task,
      w.syscallSendmsg p fd mem arg1 flags beyond = .ok (w', some (task, ↑(room (vectorAt mem.fill arg1)))) ∧
      task.data = gather mem.fill (vectorAt mem.fill arg1) ∧
      task.bytesAmount = room (vectorAt mem.fill arg1)) ↔
    SendmsgMapped mem arg1 ∧ toSsize flags = room (vectorAt mem.fill arg1) ∧
      toCInt flags = room (vectorAt mem.fill arg1) := by
  have same : SameEntries mem (msghdrAt mem.fill arg1).iov (msghdrAt mem.fill arg1).iovlen :=
    (Nat.lt_or_ge 1 _).elim found (sameEntries_of_le_one mem _)
  -- a number of bytes that is an `int` leaves no room for an entry that is too long
  have short : toCInt flags = room (vectorAt mem.fill arg1) →
      ∀ j < (msghdrAt mem.fill arg1).iovlen,
        (entryAt mem (msghdrAt mem.fill arg1).iov (0 + j)).len < 0x80000000 := by
    intro amount j below
    have small : toCInt flags < 0x80000000 := BitVec.toInt_lt
    have entry : iovecAt mem.fill ((msghdrAt mem.fill arg1).iov + sizeofIovec * j) ∈
        vectorAt mem.fill arg1 := List.mem_map_of_mem (List.mem_range.mpr below)
    have fits := len_le_room entry
    rw [Nat.zero_add, same j below]
    omega
  rw [syscallSendmsg_sends_iff established]
  constructor
  · rintro ⟨there, looped, returned, amount⟩
    obtain ⟨all, -⟩ := (syscallSendmsgLoop_eq_ok (short amount)).mp looped
    simp only [Nat.zero_add] at all
    exact ⟨⟨there, fun i below => (all i below).1, fun i below => (all i below).2⟩, returned, amount⟩
  · rintro ⟨readable, returned, amount⟩
    refine ⟨readable.header, (syscallSendmsgLoop_eq_ok (short amount)).mpr ⟨?_, ?_⟩, returned, amount⟩
    · intro j below
      rw [Nat.zero_add]
      exact ⟨readable.entry j below, readable.buffer j below⟩
    · rw [← same.iovecs_eq, List.nil_append]
      rfl

/-- Two entries and flags that are the number of bytes in their buffers. -/
theorem two_buffers_gathered : ∃ w : World (Fin 3), w.Established 0 4 3 1 ∧ ∃ w' task,
    w.syscallSendmsg 0 4 twoEntries 0 4 [] = .ok (w', some (task, 4)) ∧
      task.data = [104, 105, 0, 0] ∧ task.bytesAmount = 4 := by
  obtain ⟨_, _, _, _, w, _, _, _, established⟩ :=
    exists_transferred (fun _ _ => True) [] (P := fun _ _ w => w.Established 0 4 3 1) (by decide)
  refine ⟨w, established, ?_⟩
  have header : (msghdrAt twoEntries.fill 0).iov = 64 ∧ (msghdrAt twoEntries.fill 0).iovlen = 2 := by
    decide +kernel
  have same : SameEntries twoEntries (msghdrAt twoEntries.fill 0).iov (msghdrAt twoEntries.fill 0).iovlen := by
    rw [header.1, header.2]
    unfold SameEntries
    decide +kernel
  have readable : SendmsgMapped twoEntries 0 := by
    constructor
    · decide +kernel
    · rw [header.1, header.2]
      decide +kernel
    · rw [header.1, header.2]
      decide +kernel
  have there : room (vectorAt twoEntries.fill 0) = 4 ∧
      gather twoEntries.fill (vectorAt twoEntries.fill 0) = [104, 105, 0, 0] := by decide +kernel
  have gathered := (sendmsg_gathers_iff established (fun _ => same) 4 []).mpr
    ⟨readable, by rw [there.1]; decide, by rw [there.1]; decide⟩
  rw [there.1, there.2] at gathered
  exact gathered

/-- The same call without flags sends a task of no bytes, and the tracee is told that nothing was
    sent. -/
theorem flags_taken_for_length : ∃ (m₀ m : Meeting (Fin 3)) (turns : List Turn)
    (es : List (Transfer × Delivery)) (w : World (Fin 3)), Meeting.Ready 0 3 m₀ ∧
    Run (Guarded (Meeting.OneAtATime 0 3) Meeting.Step) m₀ turns m ∧
    Run (Guarded (fun _ _ => True) Transfers) m.world es w ∧ w.Established 0 4 3 1 ∧
    gather twoEntries.fill (vectorAt twoEntries.fill 0) = [104, 105, 0, 0] ∧
    answer (w.syscallSendmsg 0 4 twoEntries 0 0 []) =
      some ({ bytesAmount := 0, data := [104, 105, 0, 0], beyond := [], sentOn := 3 }, 0) :=
  exists_transferred _ [] (by decide +kernel)

end World

/-! ## Scattering -/

/-- The whole words that are stored for a buffer. -/
def Iovec.words (v : Iovec) : Nat := wholeWords v.len

/-- The handlers read the entries of the array, and what is stored for a buffer changes neither an
    entry that is read later nor another buffer. -/
structure Laid (mem : PartialMemory) (iov n : Nat) : Prop where
  same : SameEntries mem iov n
  entries : ∀ j < n, ∀ i < j,
    Apart (entryAt mem iov i).base (entryAt mem iov i).words (entryAddress iov j) sizeofIovec
  buffers : ∀ j < n, ∀ i < j,
    Apart (entryAt mem iov i).base (entryAt mem iov i).words (entryAt mem iov j).base (entryAt mem iov j).words

/-- One buffer is laid out well, wherever it is. -/
theorem laid_of_le_one (mem : PartialMemory) (iov : Nat) {n : Nat} (few : n ≤ 1) : Laid mem iov n where
  same := sameEntries_of_le_one mem iov few
  entries j below i before := by omega
  buffers j below i before := by omega

/-- What is read and stored for an entry is there. -/
def Storable (mem : PartialMemory) (data : List UInt8) (iov i : Nat) : Prop :=
  mem.Mapped (entryAddress iov i) sizeofIovec ∧
    mem.Mapped (entryAt mem iov i).base (entryAt mem iov i).words ∧ (entryAt mem iov i).words ≤ data.length

/-- The start of the data is stored for each of some buffers. -/
def storeEach (data : List UInt8) : List Iovec → PartialMemory → PartialMemory
  | [], mem => mem
  | v :: vs, mem => storeEach data vs (mem.write v.base (data.take v.words))

/-- One round of the loop, in a memory that has the entry as it was. -/
theorem sysBuildRecvmsgLoop_succ {mem₀ mem : PartialMemory} {data : List UInt8} {len iov i : Nat}
    (ends : strlen data = some len) (same : ∀ a, mem a = none ↔ mem₀ a = none)
    (kept : ∀ k < sizeofIovec, mem (entryAddress iov i + k) = mem₀ (entryAddress iov i + k))
    (rounds bytesRead : Nat) (out : PartialMemory × Nat) :
    sysBuildRecvmsgLoop data iov (rounds + 1) i bytesRead mem = .ok out ↔
      Storable mem₀ data iov i ∧ sysBuildRecvmsgLoop data iov rounds (i + 1) (bytesRead + len)
        (mem.write (entryAt mem₀ iov i).base (data.take (entryAt mem₀ iov i).words)) = .ok out := by
  have bytes : mem.fill.read (entryAddress iov i) sizeofIovec =
      mem₀.fill.read (entryAddress iov i) sizeofIovec := PartialMemory.fill_read_congr kept
  simp only [sysBuildRecvmsgLoop, bind_eq_ok, peek_entry_eq_ok, ends, pokeBytes_eq_ok]
  constructor
  · rintro ⟨_, ⟨there, rfl⟩, mem', ⟨-, -, back⟩, mem'', ⟨mapped, long, stored⟩, rest⟩
    have unchanged : mem' = mem := by
      rw [back, List.take_of_length_le (by rw [Memory.length_read]; decide)]
      exact PartialMemory.write_fill_read there
    rw [unchanged, bytes, ofBytes_entry] at mapped stored
    rw [bytes, ofBytes_entry] at long
    rw [stored] at rest
    exact ⟨⟨(PartialMemory.mapped_congr same).mp there, (PartialMemory.mapped_congr same).mp mapped, long⟩,
      rest⟩
  · rintro ⟨⟨there, mapped, long⟩, rest⟩
    have there' := (PartialMemory.mapped_congr same).mpr there
    have mapped' := (PartialMemory.mapped_congr same).mpr mapped
    refine ⟨_, ⟨there', rfl⟩, mem, ⟨there', by rw [Memory.length_read]; decide, ?_⟩, _, ⟨?_, ?_, rfl⟩, ?_⟩
    · rw [List.take_of_length_le (by rw [Memory.length_read]; decide)]
      exact (PartialMemory.write_fill_read there').symm
    · rw [bytes, ofBytes_entry]
      exact mapped'
    · rw [bytes, ofBytes_entry]
      exact long
    · rw [bytes, ofBytes_entry]
      exact rest

/-- The whole loop, for buffers that do not get in each other's way. Each round counts the length of the
    whole string. -/
theorem sysBuildRecvmsgLoop_ok_iff {mem₀ mem : PartialMemory} {data : List UInt8} {len iov n : Nat}
    (laid : Laid mem₀ iov n) (ends : strlen data = some len) (same : ∀ a, mem a = none ↔ mem₀ a = none)
    {rounds i : Nat} (all : i + rounds = n)
    (kept : ∀ j, i ≤ j → j < n →
      ∀ k < sizeofIovec, mem (entryAddress iov j + k) = mem₀ (entryAddress iov j + k))
    (bytesRead : Nat) (out : PartialMemory × Nat) :
    sysBuildRecvmsgLoop data iov rounds i bytesRead mem = .ok out ↔
      (∀ j, i ≤ j → j < n → Storable mem₀ data iov j) ∧
        out = (storeEach data ((List.range' i rounds).map (entryAt mem₀ iov)) mem,
          bytesRead + rounds * len) := by
  induction rounds generalizing i mem bytesRead with
  | zero =>
      have past : ∀ j, i ≤ j → j < n → Storable mem₀ data iov j := by
        intro j above below
        omega
      simp only [sysBuildRecvmsgLoop, storeEach, Except.ok.injEq, List.range'_zero, List.map_nil,
        Nat.zero_mul, Nat.add_zero]
      exact ⟨fun same => ⟨past, same.symm⟩, fun same => same.2.symm⟩
  | succ rounds ih =>
      rw [sysBuildRecvmsgLoop_succ ends same (kept i (Nat.le_refl i) (by omega))]
      by_cases storable : Storable mem₀ data iov i
      · have mapped := storable.2.1
        have long := storable.2.2
        have size : (data.take (entryAt mem₀ iov i).words).length = (entryAt mem₀ iov i).words := by
          rw [List.length_take, Nat.min_eq_left long]
        have same' : ∀ a, mem.write (entryAt mem₀ iov i).base (data.take (entryAt mem₀ iov i).words) a =
            none ↔ mem₀ a = none := by
          intro a
          rw [PartialMemory.write_eq_none_iff, same]
          rw [size]
          exact (PartialMemory.mapped_congr same).mpr mapped
        have kept' : ∀ j, i + 1 ≤ j → j < n → ∀ k < sizeofIovec,
            mem.write (entryAt mem₀ iov i).base (data.take (entryAt mem₀ iov i).words)
              (entryAddress iov j + k) = mem₀ (entryAddress iov j + k) := by
          intro j later below k inside
          rw [PartialMemory.write_outside, kept j (by omega) below k inside]
          rw [size]
          exact (laid.entries j below i later).symm k inside
        rw [ih same' (by omega) kept']
        have before : (∀ j, i ≤ j → j < n → Storable mem₀ data iov j) ↔
            ∀ j, i + 1 ≤ j → j < n → Storable mem₀ data iov j := by
          constructor
          · intro every j later
            exact every j (by omega)
          · intro every j above below
            rcases Nat.eq_or_lt_of_le above with rfl | later
            · exact storable
            · exact every j later below
        rw [before, Nat.succ_mul, Nat.add_assoc bytesRead, Nat.add_comm len]
        simp only [storable, true_and, List.range'_succ, List.map_cons, storeEach]
      · constructor
        · rintro ⟨now, -⟩
          exact absurd now storable
        · rintro ⟨every, -⟩
          exact absurd (every i (Nat.le_refl i) (by omega)) storable

section

variable {vs : List Iovec} {mem : PartialMemory}

theorem storeEach_outside {data : List UInt8} {a : Nat}
    (outside : ∀ v ∈ vs, a < v.base ∨ v.base + v.words ≤ a) : storeEach data vs mem a = mem a := by
  induction vs generalizing mem with
  | nil => rfl
  | cons v vs ih =>
      have short : (data.take v.words).length ≤ v.words := List.length_take_le ..
      have here := outside v (.head vs)
      rw [storeEach, ih fun u later => outside u (.tail v later), PartialMemory.write_outside]
      omega

theorem storeEach_inside {data : List UInt8}
    (apart : vs.Pairwise fun v u => Apart v.base v.words u.base u.words) {v : Iovec} (member : v ∈ vs)
    (long : v.words ≤ data.length) {t : Nat} (inside : t < v.words) :
    storeEach data vs mem (v.base + t) = data[t]? := by
  induction vs generalizing mem with
  | nil => cases member
  | cons u vs ih =>
      obtain ⟨first, later⟩ := List.pairwise_cons.mp apart
      rcases List.mem_cons.mp member with rfl | member
      · rw [storeEach, storeEach_outside fun u listed => first u listed t inside,
          PartialMemory.write_inside _ (by rw [List.length_take]; omega), List.getElem?_take, if_pos inside]
      · exact ih later member

theorem scatter_outside {message : List UInt8} {a : Nat}
    (outside : ∀ v ∈ vs, a < v.base ∨ v.base + v.len ≤ a) : scatter vs message mem a = mem a := by
  induction vs generalizing message mem with
  | nil => rfl
  | cons v vs ih =>
      have short : (message.take v.len).length ≤ v.len := List.length_take_le ..
      have here := outside v (.head vs)
      rw [scatter, ih fun u later => outside u (.tail v later), PartialMemory.write_outside]
      omega

/-- Where the bytes of a message come to be, in buffers that do not overlap. -/
theorem scatter_inside {message : List UInt8}
    (apart : vs.Pairwise fun v u => Apart v.base v.len u.base u.len) {i : Nat} {v : Iovec}
    (found : vs[i]? = some v) {t : Nat} (inside : t < v.len) :
    scatter vs message mem (v.base + t) = (message[room (vs.take i) + t]?).or (mem (v.base + t)) := by
  induction vs generalizing message mem i with
  | nil => cases found
  | cons u vs ih =>
      obtain ⟨first, later⟩ := List.pairwise_cons.mp apart
      cases i with
      | zero =>
          cases found
          rw [scatter, scatter_outside fun u listed => first u listed t inside]
          simp [PartialMemory.write, inside, room]
      | succ i =>
          have member : v ∈ vs := List.mem_of_getElem? found
          have short : (message.take u.len).length ≤ u.len := List.length_take_le ..
          have outside := (first v member).symm t inside
          rw [scatter, ih later found, PartialMemory.write_outside _ (by omega), List.getElem?_drop,
            List.take_succ_cons, room_cons, Nat.add_assoc]

end

/-- What one call of `sys_build_recvmsg` needs: the length of the string at the start of the message,
    once for each buffer, is the number of bytes that fit; what is read and stored is there; and in
    each buffer the bytes that belong there, of the message or those that are to stay, are the first
    bytes of the message again. -/
def Suits (mem : PartialMemory) (message beyond : List UInt8) (msg : Msghdr) : Prop :=
  msg.iovlen = 0 ∨
    (∃ len, strlen (message ++ beyond) = some len ∧
      msg.iovlen * len = min message.length (room (iovecs mem.fill msg.iov msg.iovlen))) ∧
    ∀ i < msg.iovlen, Storable mem (message ++ beyond) msg.iov i ∧
      ∀ t < (entryAt mem msg.iov i).len, (message ++ beyond)[t]? =
        (message[room ((iovecs mem.fill msg.iov msg.iovlen).take i) + t]?).or
          (mem ((entryAt mem msg.iov i).base + t))

theorem Laid.pairwise {mem : PartialMemory} {iov n : Nat} (laid : Laid mem iov n) :
    (iovecs mem.fill iov n).Pairwise fun v u => Apart v.base v.words u.base u.words := by
  rw [laid.same.iovecs_eq, List.pairwise_map, ← List.range_eq_range']
  apply List.pairwise_lt_range.imp_of_mem
  intro i j _ below before
  exact laid.buffers j (List.mem_range.mp below) i before

/-- Which bytes the buffers have and should have. -/
theorem storeEach_eq_scatter_iff {mem : PartialMemory} {data : List UInt8} {iov n : Nat}
    (laid : Laid mem iov n) (storable : ∀ i < n, Storable mem data iov i) (message : List UInt8) :
    (∀ a, InBuffers (iovecs mem.fill iov n) a →
      storeEach data (iovecs mem.fill iov n) mem a = scatter (iovecs mem.fill iov n) message mem a) ↔
    ∀ i < n, ∀ t < (entryAt mem iov i).len, data[t]? =
      (message[room ((iovecs mem.fill iov n).take i) + t]?).or (mem ((entryAt mem iov i).base + t)) := by
  have apart := laid.pairwise
  have apart' : (iovecs mem.fill iov n).Pairwise fun v u => Apart v.base v.len u.base u.len :=
    apart.imp fun far => far.shrink (le_wholeWords _) (le_wholeWords _)
  have found : ∀ i < n, (iovecs mem.fill iov n)[i]? = some (entryAt mem iov i) := by
    intro i below
    simp [iovecs, below, laid.same i below]
  have here : ∀ i < n, ∀ t < (entryAt mem iov i).len,
      storeEach data (iovecs mem.fill iov n) mem ((entryAt mem iov i).base + t) = data[t]? ∧
      scatter (iovecs mem.fill iov n) message mem ((entryAt mem iov i).base + t) =
        (message[room ((iovecs mem.fill iov n).take i) + t]?).or (mem ((entryAt mem iov i).base + t)) := by
    intro i below t inside
    refine ⟨storeEach_inside apart (List.mem_of_getElem? (found i below)) (storable i below).2.2 ?_,
      scatter_inside apart' (found i below) inside⟩
    exact Nat.lt_of_lt_of_le inside (le_wholeWords _)
  constructor
  · intro same i below t inside
    rw [← (here i below t inside).1, ← (here i below t inside).2]
    exact same _ ⟨_, List.mem_of_getElem? (found i below), by omega⟩
  · rintro same a ⟨v, member, above, within⟩
    obtain ⟨i, below, rfl⟩ := List.mem_map.mp (laid.same.iovecs_eq ▸ member)
    rw [← List.range_eq_range', List.mem_range] at below
    obtain ⟨t, rfl⟩ := Nat.exists_eq_add_of_le above
    have inside : t < (entryAt mem iov i).len := by omega
    rw [(here i below t inside).1, (here i below t inside).2]
    exact same i below t inside

theorem sysBuildRecvmsgLoop_unended {data : List UInt8} (unended : strlen data = none)
    (iov rounds i bytesRead : Nat) (mem : PartialMemory) (out : PartialMemory × Nat) :
    sysBuildRecvmsgLoop data iov (rounds + 1) i bytesRead mem ≠ .ok out := by
  simp only [sysBuildRecvmsgLoop, ne_eq, bind_eq_ok, unended, not_exists, not_and]
  rintro bytes - ⟨⟩

/-- With one buffer or with buffers that are laid out well, `sys_build_recvmsg` scatters a message exactly
    when it suits: all that is stored in a buffer is the start of the message. -/
theorem recvmsg_scatters_iff {mem : PartialMemory} {msg : Msghdr}
    (apart : 1 < msg.iovlen → Laid mem msg.iov msg.iovlen) (message beyond : List UInt8) :
    (∃ out, sysBuildRecvmsg mem (message ++ beyond) msg = .ok out ∧
      Scattered (iovecs mem.fill msg.iov msg.iovlen) message mem out) ↔ Suits mem message beyond msg := by
  have laid : Laid mem msg.iov msg.iovlen := (Nat.lt_or_ge 1 _).elim apart (laid_of_le_one mem _)
  obtain ⟨iov, n⟩ := msg
  cases n with
  | zero => exact iff_of_true ⟨(mem, 0), rfl, by simp [iovecs, room], fun a _ => rfl⟩ (.inl rfl)
  | succ n =>
      simp only [sysBuildRecvmsg, Suits, Nat.succ_ne_zero, false_or]
      cases ends : strlen (message ++ beyond) with
      | none => simp [sysBuildRecvmsgLoop_unended ends]
      | some len =>
          have looped := sysBuildRecvmsgLoop_ok_iff laid ends (fun _ => Iff.rfl) (Nat.zero_add _)
            (fun _ _ _ _ _ => rfl) 0
          simp only [Nat.zero_le, true_implies, Nat.zero_add, ← laid.same.iovecs_eq] at looped
          simp only [looped, Option.some.injEq]
          constructor
          · rintro ⟨_, ⟨storable, rfl⟩, value, same⟩
            have bytes := (storeEach_eq_scatter_iff laid storable message).mp same
            exact ⟨⟨len, rfl, value⟩, fun i below => ⟨storable i below, bytes i below⟩⟩
          · rintro ⟨⟨_, rfl, value⟩, each⟩
            have storable : ∀ i < n + 1, Storable mem (message ++ beyond) iov i :=
              fun i below => (each i below).1
            refine ⟨_, ⟨storable, rfl⟩, value, ?_⟩
            exact (storeEach_eq_scatter_iff laid storable message).mpr fun i below => (each i below).2

/-- Buffers of three bytes and of one, with both entries where the handlers look for them, too. -/
def unevenBuffers : PartialMemory := ((twoEntries.write 72 [3]).write 88 [1]).write 328 [1]

/-- A message of four bytes that is a string of two, with its first byte once more at the end. -/
theorem uneven_buffers_scattered :
    iovecs unevenBuffers.fill 64 2 = [⟨128, 3⟩, ⟨160, 1⟩] ∧
    ∃ out, sysBuildRecvmsg unevenBuffers ([97, 98, 0, 97] ++ [0, 0, 0, 0]) ⟨64, 2⟩ = .ok out ∧
      Scattered (iovecs unevenBuffers.fill 64 2) [97, 98, 0, 97] unevenBuffers out := by
  have laid : Laid unevenBuffers 64 2 := by
    constructor
    · unfold SameEntries
      decide +kernel
    · decide +kernel
    · decide +kernel
  have suits : Suits unevenBuffers [97, 98, 0, 97] [0, 0, 0, 0] ⟨64, 2⟩ := by
    refine .inr ⟨⟨2, by decide, by decide +kernel⟩, ?_⟩
    unfold Storable
    decide +kernel
  exact ⟨by decide +kernel, (recvmsg_scatters_iff (fun _ => laid) _ _).mpr suits⟩

/-- A message of four bytes for two buffers of two. The entry of the second buffer is not read, and
    the four bytes are counted twice. -/
theorem second_buffer_untouched :
    iovecs twoBuffers.fill 64 2 = [⟨128, 2⟩, ⟨160, 2⟩] ∧
    ∃ out, sysBuildRecvmsg twoBuffers ([97, 98, 99, 100] ++ [0, 0, 0, 0]) ⟨64, 2⟩ = .ok out ∧
      out.2 = 8 ∧ out.1.read 128 2 = some [97, 98] ∧ out.1.read 160 2 = some [0, 0] ∧
      ¬ Scattered (iovecs twoBuffers.fill 64 2) [97, 98, 99, 100] twoBuffers out := by
  refine ⟨by decide +kernel, ?_⟩
  obtain ⟨out, done, count, first, second⟩ :
      ∃ out ∈ (sysBuildRecvmsg twoBuffers ([97, 98, 99, 100] ++ [0, 0, 0, 0]) ⟨64, 2⟩).toOption,
        out.2 = 8 ∧ out.1.read 128 2 = some [97, 98] ∧ out.1.read 160 2 = some [0, 0] := by decide +kernel
  refine ⟨out, eq_ok_of_mem_toOption done, count, first, second, ?_⟩
  rintro ⟨value, -⟩
  rw [count] at value
  exact absurd value (by decide +kernel)

end Simterpose
