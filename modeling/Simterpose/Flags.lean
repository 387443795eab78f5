import Mathlib.Data.Nat.Bitwise
import Simterpose.Effects
import Simterpose.Locks

/-! # The flags of a descriptor

`open` stores its flags in the record of the new descriptor, and `F_SETFD` and `F_SETFL` add
bits to them. `FD_CLOEXEC` is a flag of the descriptor and not of the open file, but it is stored
among the others, where its bit is that of `O_WRONLY`. For sockets there is a second set of
flags, which `fcntl` does not know of.
-/

namespace Simterpose

open Lib

/-- `O_ACCMODE` -/
def oAccmode : Nat := 0x3

/-! ## Bits -/

section

variable {flags flags' mask mask' : Nat}

theorem testBit_clearBits (flags mask i : Nat) :
    (clearBits flags mask).testBit i = (flags.testBit i && !mask.testBit i) := by
  rw [clearBits, Nat.testBit_xor, Nat.testBit_and]
  cases flags.testBit i <;> cases mask.testBit i <;> rfl

/-- Within a larger mask it does not matter what a smaller one clears. -/
theorem clearBits_clearBits (within : mask ||| mask' = mask') :
    clearBits (clearBits flags mask) mask' = clearBits flags mask' := by
  apply Nat.eq_of_testBit_eq
  intro i
  rw [← within]
  simp only [testBit_clearBits, Nat.testBit_or]
  cases flags.testBit i <;> cases mask.testBit i <;> rfl

theorem clearBits_or (within : mask ||| mask' = mask') :
    clearBits (flags ||| mask) mask' = clearBits flags mask' := by
  apply Nat.eq_of_testBit_eq
  intro i
  rw [← within]
  simp only [testBit_clearBits, Nat.testBit_or]
  cases flags.testBit i <;> cases mask.testBit i <;> rfl

theorem and_bit_eq_zero (flags i : Nat) : flags &&& 1 <<< i = 0 ↔ flags.testBit i = false := by
  rw [Nat.one_shiftLeft, Nat.and_two_pow]
  cases flags.testBit i <;> simp

theorem and_bit_eq_self (flags i : Nat) : flags &&& 1 <<< i = 1 <<< i ↔ flags.testBit i = true := by
  have positive := Nat.two_pow_pos i
  rw [Nat.one_shiftLeft, Nat.and_two_pow]
  cases flags.testBit i with
  | false => simp [positive.ne]
  | true => simp

theorem and_oAccmode_eq_iff :
    flags &&& oAccmode = flags' &&& oAccmode ↔
      flags.testBit 0 = flags'.testBit 0 ∧ flags.testBit 1 = flags'.testBit 1 := by
  have two : ∀ n, n &&& oAccmode = n % 4 := fun n => Nat.and_two_pow_sub_one_eq_mod n 2
  rw [two, two]
  simp only [Nat.testBit_eq_decide_div_mod_eq, decide_eq_decide]
  omega

end

/-- The calls that change the flags of a descriptor, with the result of the kernel. -/
inductive FlagCall where
  | setfd (ret : Int)
  | setfl (arg : Nat) (ret : Int)
  deriving Repr, DecidableEq

namespace FlagCall

def cmd : FlagCall → FcntlCmd
  | .setfd _ => .setfd fdCloexec
  | .setfl arg _ => .setfl arg

def ret : FlagCall → Int
  | .setfd ret | .setfl _ ret => ret

/-- The flags after the call. -/
def effect : FlagCall → Nat → Nat
  | .setfd _, flags => flags ||| fdCloexec
  | .setfl arg _, flags =>
      if arg = oAppend ∨ arg = oAsync ∨ arg = oNonblock then flags ||| arg else flags

end FlagCall

/-- The flags of a file opened with `opened` some calls later: the bit of `O_RDWR` and that of
    `O_CLOEXEC` are as they were, and that of `O_WRONLY` is also set for `FD_CLOEXEC`. -/
structure Flagged (opened flags : Nat) : Prop where
  rdwr : flags.testBit 1 = opened.testBit 1
  cloexec : flags.testBit 19 = opened.testBit 19
  low : opened.testBit 0 = true ∨ opened.testBit 19 = true → flags.testBit 0 = true

namespace Flagged

variable {opened flags : Nat}

theorem of_open (opened : Nat) :
    Flagged opened (if opened &&& oCloexec = oCloexec then opened ||| fdCloexec else opened) := by
  split
  · refine ⟨?_, ?_, ?_⟩
    · rw [Nat.testBit_or]
      exact Bool.or_false _
    · rw [Nat.testBit_or]
      exact Bool.or_false _
    · intro _
      rw [Nat.testBit_or]
      exact Bool.or_true _
  · rename_i kept
    refine ⟨rfl, rfl, ?_⟩
    rintro (low | cloexec)
    · exact low
    · exact absurd ((and_bit_eq_self opened 19).mpr cloexec) kept

theorem or_mask (flagged : Flagged opened flags) {mask : Nat} (rdwr : mask.testBit 1 = false)
    (cloexec : mask.testBit 19 = false) : Flagged opened (flags ||| mask) where
  rdwr := by rw [Nat.testBit_or, rdwr, flagged.rdwr, Bool.or_false]
  cloexec := by rw [Nat.testBit_or, cloexec, flagged.cloexec, Bool.or_false]
  low set := by rw [Nat.testBit_or, flagged.low set, Bool.true_or]

theorem effect (flagged : Flagged opened flags) (call : FlagCall) :
    Flagged opened (call.effect flags) := by
  cases call with
  | setfd => exact flagged.or_mask rfl rfl
  | setfl arg =>
      simp only [FlagCall.effect]
      split
      · rename_i known
        rcases known with rfl | rfl | rfl
        · exact flagged.or_mask rfl rfl
        · exact flagged.or_mask rfl rfl
        · exact flagged.or_mask rfl rfl
      · exact flagged

theorem foldl (flagged : Flagged opened flags) (calls : List FlagCall) :
    Flagged opened (calls.foldl (fun flags call => call.effect flags) flags) := by
  induction calls generalizing flags with
  | nil => exact flagged
  | cons call calls ih => exact ih (flagged.effect call)

end Flagged

/-- What a duplicate has in common with the file as opened and with the descriptor it is made
    from: the access mode, and the flags that are neither the access mode nor close-on-exec. -/
structure Duplicate (opened original copy : Nat) : Prop where
  mode : copy &&& oAccmode = opened &&& oAccmode
  status : clearBits copy (oAccmode ||| oCloexec) = clearBits original (oAccmode ||| oCloexec)

/-- Close-on-exec in either of its encodings. -/
def closesOnExec (flags : Nat) : Prop := flags &&& oCloexec ≠ 0 ∨ flags &&& fdCloexec ≠ 0

theorem closesOnExec_iff (flags : Nat) :
    closesOnExec flags ↔ flags.testBit 19 = true ∨ flags.testBit 0 = true := by
  have high := and_bit_eq_zero flags 19
  have low := and_bit_eq_zero flags 0
  unfold closesOnExec
  rw [← Bool.not_eq_false, ← Bool.not_eq_false, ← high, ← low]
  exact Iff.rfl

section

variable {opened flags : Nat} (flagged : Flagged opened flags)

include flagged

theorem duplicate_dupfdFlags_iff :
    Duplicate opened flags (dupfdFlags flags) ∧ ¬ closesOnExec (dupfdFlags flags) ↔
      opened &&& oWronly = 0 ∧ opened &&& oCloexec = 0 := by
  have wronly : opened &&& oWronly = 0 ↔ opened.testBit 0 = false := and_bit_eq_zero opened 0
  have cloexec : opened &&& oCloexec = 0 ↔ opened.testBit 19 = false := and_bit_eq_zero opened 19
  rw [wronly, cloexec, closesOnExec_iff, dupfdFlags]
  split
  · -- `FD_CLOEXEC`, which `open` has added, is not cleared
    rename_i set
    have high : flags.testBit 19 = true := (and_bit_eq_self flags 19).mp set
    have low : flags.testBit 0 = true := flagged.low (.inr (flagged.cloexec.symm.trans high))
    have kept : (clearBits flags oCloexec).testBit 0 = true := by
      rw [testBit_clearBits, low]
      rfl
    refine iff_of_false (fun both => both.2 (.inr kept)) fun both => ?_
    rw [← flagged.cloexec, high] at both
    cases both.2
  · rename_i clear
    have high : flags.testBit 19 = false := by
      rw [← Bool.not_eq_true]
      exact fun set => clear ((and_bit_eq_self flags 19).mpr set)
    have unset : opened.testBit 19 = false := flagged.cloexec.symm.trans high
    split
    · -- the bit is cleared, whichever of the two flags it stood for
      have copy₀ : (clearBits flags fdCloexec).testBit 0 = false := by
        rw [testBit_clearBits]
        exact Bool.and_false _
      have copy₁ : (clearBits flags fdCloexec).testBit 1 = opened.testBit 1 := by
        rw [testBit_clearBits, flagged.rdwr]
        exact Bool.and_true _
      have copy₁₉ : (clearBits flags fdCloexec).testBit 19 = false := by
        rw [testBit_clearBits, high]
        rfl
      constructor
      · rintro ⟨⟨mode, -⟩, -⟩
        exact ⟨(and_oAccmode_eq_iff.mp mode).1.symm.trans copy₀, unset⟩
      · rintro ⟨read, -⟩
        have mode := and_oAccmode_eq_iff.mpr ⟨copy₀.trans read.symm, copy₁⟩
        refine ⟨⟨mode, clearBits_clearBits (by decide)⟩, ?_⟩
        simp [copy₀, copy₁₉]
    · rename_i none_
      have low : flags.testBit 0 = false := by
        rw [← Bool.not_eq_true]
        exact fun set => none_ ((and_bit_eq_self flags 0).mpr set)
      have read : opened.testBit 0 = false := by
        rw [← Bool.not_eq_true]
        intro set
        rw [flagged.low (.inl set)] at low
        cases low
      have mode := and_oAccmode_eq_iff.mpr ⟨low.trans read.symm, flagged.rdwr⟩
      refine iff_of_true ⟨⟨mode, rfl⟩, ?_⟩ ⟨read, unset⟩
      simp [low, high]

theorem duplicate_or_fdCloexec_iff :
    Duplicate opened flags (flags ||| fdCloexec) ∧ closesOnExec (flags ||| fdCloexec) ↔
      opened &&& oWronly ≠ 0 := by
  have wronly : opened &&& oWronly = 0 ↔ opened.testBit 0 = false := and_bit_eq_zero opened 0
  have low : (flags ||| fdCloexec).testBit 0 = true := by
    rw [Nat.testBit_or]
    exact Bool.or_true _
  have high : (flags ||| fdCloexec).testBit 1 = opened.testBit 1 := by
    rw [Nat.testBit_or, flagged.rdwr]
    exact Bool.or_false _
  rw [ne_eq, wronly, Bool.not_eq_false]
  constructor
  · rintro ⟨⟨mode, -⟩, -⟩
    exact (and_oAccmode_eq_iff.mp mode).1.symm.trans low
  · intro set
    refine ⟨⟨and_oAccmode_eq_iff.mpr ⟨low.trans set.symm, high⟩, clearBits_or (by decide)⟩, ?_⟩
    exact (closesOnExec_iff _).mpr (.inr low)

end

namespace World

section

variable {H : Type} {w w' : World H} {proc : Pid} {fd : Int} {ref : DescRef}

/-- The flags in the record of a descriptor. -/
def flagsOf (w : World H) (proc : Pid) (fd : Int) : Option Nat :=
  (w.processDescriptorGetFd proc fd).map fun ref => (w.fileDesc ref).flags

/-- A call for which the kernel did not return -1. -/
def FlagStep (proc : Pid) (fd : Int) (w : World H) (call : FlagCall) (w' : World H) : Prop :=
  w.processFcntlCall proc fd call.cmd call.ret = .ok w'

theorem flags_modifyDesc (ref : DescRef) (f : FdDescriptor → FdDescriptor) (is : SockId) :
    ((w.modifyDesc ref f).socket is).flags = (w.socket is).flags := by
  cases ref with
  | plain => rfl
  | socket is' =>
      simp only [modifyDesc, modifySocket, World.socket, Heap.cell_modify]
      split <;> rfl

/-- What a call leaves: the record's flags are changed, those of the sockets are not. -/
structure Marked (w : World H) (ref : DescRef) (flags : Nat) (w' : World H) : Prop where
  table : w'.processDescriptorGetFd = w.processDescriptorGetFd
  flags : (w'.fileDesc ref).flags = flags
  sockets : ∀ is, (w'.socket is).flags = (w.socket is).flags

theorem marked_modifyDesc (w : World H) (ref : DescRef) (arg : Nat) :
    w.Marked ref ((w.fileDesc ref).flags ||| arg)
      (w.modifyDesc ref fun desc => { desc with flags := desc.flags ||| arg }) where
  table := getFd_modifyDesc ref _
  flags := by rw [fileDesc_modifyDesc, if_pos rfl]
  sockets := flags_modifyDesc ref _

theorem exists_flagStep (found : w.processDescriptorGetFd proc fd = some ref) {call : FlagCall}
    (heard : call.ret ≠ -1) :
    ∃ w', w.FlagStep proc fd call w' ∧ w.Marked ref (call.effect (w.fileDesc ref).flags) w' := by
  have store := fun arg => fcntlStore_of_found found fun desc => { desc with flags := desc.flags ||| arg }
  cases call with
  | setfd ret =>
      refine ⟨_, ?_, w.marked_modifyDesc ref fdCloexec⟩
      unfold FlagStep processFcntlCall
      rw [if_neg heard]
      exact store fdCloexec
  | setfl arg ret =>
      unfold FlagStep processFcntlCall
      rw [if_neg heard]
      simp only [FlagCall.cmd, FlagCall.effect]
      split
      · exact ⟨_, store arg, w.marked_modifyDesc ref arg⟩
      · exact ⟨w, rfl, rfl, rfl, fun _ => rfl⟩

theorem exists_flagRun (found : w.processDescriptorGetFd proc fd = some ref) (calls : List FlagCall)
    (heard : ∀ call ∈ calls, call.ret ≠ -1) :
    ∃ w', Run (FlagStep proc fd) w calls w' ∧
      w.Marked ref (calls.foldl (fun flags call => call.effect flags) (w.fileDesc ref).flags) w' := by
  apply Run.exists_history (fun (calls : List FlagCall) v => w.Marked ref
    (calls.foldl (fun flags call => call.effect flags) (w.fileDesc ref).flags) v) ⟨rfl, rfl, fun _ => rfl⟩
  intro earlier v call member before
  rw [← before.table] at found
  obtain ⟨w', step, after⟩ := exists_flagStep found (heard call member)
  refine ⟨w', step, after.table.trans before.table, ?_, ?_⟩
  · rw [after.flags, before.flags, List.foldl_concat]
  · intro is
    rw [after.sockets, before.sockets]

theorem flagsOf_enterDesc (w : World H) (proc : Pid) (fd : Int) (desc : FdDescriptor) :
    (w.enterDesc proc fd desc).flagsOf proc fd = some desc.flags := by
  rw [flagsOf, getFd_enterDesc, if_pos ⟨rfl, rfl⟩]
  simp [fileDesc, enterDesc, Heap.cell_alloc]

theorem flagsOf_fcntlDup (found : w.processDescriptorGetFd proc fd = some ref) (newfd : Int)
    (f : Nat → Nat) : ∃ w', w.fcntlDup proc fd newfd f = .ok w' ∧
      w'.flagsOf proc newfd = some (f (w.fileDesc ref).flags) := by
  unfold fcntlDup
  rw [found]
  exact ⟨_, rfl, flagsOf_enterDesc ..⟩

end

/-- A duplicate has its access mode and the other flags right and close-on-exec cleared exactly if
    the file was opened neither for writing only nor with close-on-exec. One with close-on-exec set
    is right exactly if the file was opened for writing only. -/
theorem duplicated_flags_iff {H : Type} (w : World H) (proc : Pid) {fd newfd : Int} (isOpen : 0 ≤ fd)
    (duplicated : 0 ≤ newfd) (flags mode : Nat) (calls : List FlagCall)
    (heard : ∀ call ∈ calls, call.ret ≠ -1) :
    ∃ w₁ original, Run (FlagStep proc fd) (w.syscallOpen proc flags mode fd) calls w₁ ∧
      w₁.flagsOf proc fd = some original ∧
      (∃ w₂ copy, w₁.processFcntlCall proc fd .dupfd newfd = .ok w₂ ∧
        w₂.flagsOf proc newfd = some copy ∧
        (Duplicate flags original copy ∧ ¬ closesOnExec copy ↔
          flags &&& oWronly = 0 ∧ flags &&& oCloexec = 0)) ∧
      ∃ w₂ copy, w₁.processFcntlCall proc fd .dupfdCloexec newfd = .ok w₂ ∧
        w₂.flagsOf proc newfd = some copy ∧
        (Duplicate flags original copy ∧ closesOnExec copy ↔ flags &&& oWronly ≠ 0) := by
  have found : (w.syscallOpen proc flags mode fd).processDescriptorGetFd proc fd =
      some (.plain w.descs.next) := by
    rw [syscallOpen, if_pos isOpen, getFd_enterDesc, if_pos ⟨rfl, rfl⟩]
  have stored : Flagged flags
      ((w.syscallOpen proc flags mode fd).fileDesc (.plain w.descs.next)).flags := by
    rw [syscallOpen, if_pos isOpen]
    simpa [enterDesc, fileDesc, Heap.cell_alloc] using Flagged.of_open flags
  have answered : newfd ≠ -1 := by omega
  obtain ⟨w₁, run, marked⟩ := exists_flagRun found calls heard
  rw [← marked.table] at found
  have flagged := stored.foldl calls
  rw [← marked.flags] at flagged
  obtain ⟨w₂, dupfd, copied⟩ := flagsOf_fcntlDup found newfd dupfdFlags
  obtain ⟨w₃, dupfdCloexec, copied'⟩ := flagsOf_fcntlDup found newfd (· ||| fdCloexec)
  refine ⟨w₁, _, run, ?_, ⟨w₂, _, ?_, copied, duplicate_dupfdFlags_iff flagged⟩,
    w₃, _, ?_, copied', duplicate_or_fdCloexec_iff flagged⟩
  · rw [flagsOf, found]
    rfl
  · rw [processFcntlCall, if_neg answered]
    exact dupfd
  · rw [processFcntlCall, if_neg answered]
    exact dupfdCloexec

/-- A file opened for reading and writing that is set to be closed on `exec`. -/
theorem read_write_duplicated : ∃ w₁ original w₂ copy,
    Run (FlagStep 0 3) (threeHosts.syscallOpen 0 oRdwr 0 3) [.setfd 0, .setfl oAppend 0] w₁ ∧
    w₁.flagsOf 0 3 = some original ∧ w₁.processFcntlCall 0 3 .dupfd 10 = .ok w₂ ∧
    w₂.flagsOf 0 10 = some copy ∧ Duplicate oRdwr original copy ∧ ¬ closesOnExec copy := by
  obtain ⟨w₁, original, run, known, ⟨w₂, copy, done, copied, right⟩, -⟩ :=
    duplicated_flags_iff threeHosts 0 (by decide : (0 : Int) ≤ 3) (by decide : (0 : Int) ≤ 10) oRdwr 0
      [.setfd 0, .setfl oAppend 0] (by decide)
  exact ⟨w₁, original, w₂, copy, run, known, done, copied, right.mpr (by decide)⟩

/-- A file opened for writing only seems to be open for reading only once duplicated. -/
theorem write_only_duplicated : ∃ w₂,
    (threeHosts.syscallOpen 0 oWronly 0 3).processFcntlCall 0 3 .dupfd 10 = .ok w₂ ∧
    (threeHosts.syscallOpen 0 oWronly 0 3).flagsOf 0 3 = some oWronly ∧
    w₂.flagsOf 0 10 = some 0 ∧ ¬ Duplicate oWronly oWronly 0 := by
  refine ⟨_, rfl, by decide +kernel, by decide +kernel, ?_⟩
  intro duplicate
  exact absurd duplicate.mode (by decide)

/-! ## Non-blocking sockets -/

/-- Whether `connect` takes its `O_NONBLOCK` path does not depend on the words given to `F_SETFL`
    but on the flags that the socket was registered with. -/
theorem nonblocking_connect_iff {H : Type} [DecidableEq H] (w : World H) {proc : Pid} {fd : Int}
    {is : SockId} (registered : w.getInfosSocket proc fd = some is) (words : List Nat) (word : Nat) :
    ∃ w', Run (FlagStep proc fd) w ((words ++ [word]).map (.setfl · 0)) w' ∧
      w'.getInfosSocket proc fd = some is ∧
      ∀ sai o, w'.processConnectInCall proc fd sai = .ok o → o.listener ≠ none →
        (o.waits = false ↔ (w.socket is).flags &&& oNonblock ≠ 0) ∧
        ((w.socket is).flags = oRdwr →
          ((o.waits = false ↔ word &&& oNonblock ≠ 0) ↔ word &&& oNonblock = 0)) := by
  have found := w.getInfosSocket_eq_some.mp registered
  have heard : ∀ call ∈ (words ++ [word]).map (FlagCall.setfl · 0), call.ret ≠ -1 := by
    intro call member
    obtain ⟨_, -, rfl⟩ := List.mem_map.mp member
    simp [FlagCall.ret]
  obtain ⟨w', run, marked⟩ := exists_flagRun found _ heard
  have kept : w'.getInfosSocket proc fd = some is := by
    rw [getInfosSocket_eq_some, marked.table]
    exact found
  refine ⟨w', run, kept, ?_⟩
  intro sai o done asked
  have flags : w'.socketGetFlags proc fd = (w.socket is).flags := by
    simp only [socketGetFlags, kept, marked.sockets]
  have waits := processConnectInCall_waits done
  rw [flags] at waits
  have path : o.waits = false ↔ (w.socket is).flags &&& oNonblock ≠ 0 := by
    rw [← Bool.not_eq_true, waits, not_and]
    exact ⟨fun refuted => refuted asked, fun set _ => set⟩
  refine ⟨path, ?_⟩
  intro fresh
  have blocks : ¬ o.waits = false := by
    rw [path, fresh]
    decide
  constructor
  · intro agree
    exact not_not.mp fun set => blocks (agree.mpr set)
  · intro clear
    exact iff_of_false blocks (not_not.mpr clear)

/-- A client whose last word is without `O_NONBLOCK` waits for the server. -/
theorem blocking_connect_waits : ∃ es w, Run Step threeHosts es w ∧ w.getInfosSocket 1 3 = some 1 ∧
    ∃ w' o, Run (FlagStep 1 3) w [.setfl oRdwr 0] w' ∧
      w'.processConnectInCall 1 3 ⟨10, 80⟩ = .ok o ∧ (o.waits = false ↔ oRdwr &&& oNonblock ≠ 0) := by
  obtain ⟨es, w, run, registered, flags, o, done, asked⟩ := exists_run (fun _ _ => True) threeHosts
    [.socket 0 2 1 0 3, .bind 0 3 ⟨inaddrAny, 80⟩, .listen 0 3, .socket 1 2 1 0 3]
    (P := fun w => w.getInfosSocket 1 3 = some 1 ∧ (w.socket 1).flags = oRdwr ∧
      ∃ o ∈ (w.processConnectInCall 1 3 ⟨10, 80⟩).toOption, o.listener ≠ none) (by decide)
  obtain ⟨w', flagRun, -, connects⟩ := nonblocking_connect_iff w registered [] oRdwr
  have single : Run (FlagStep 1 3) w ([] ++ [.setfl oRdwr 0]) w' := flagRun
  obtain ⟨v, empty, step⟩ := Run.concat_iff.mp single
  cases Run.nil_iff.mp empty
  cases (Except.ok.inj step : w = w')
  have reached := eq_ok_of_mem_toOption done
  exact ⟨es, w, run.mono fun _ _ _ step => step.2, registered, w, o, flagRun, reached,
    ((connects _ _ reached asked).2 flags).mpr (by decide)⟩

/-- A client that has set `O_NONBLOCK` waits all the same. -/
theorem nonblocking_connect_waits : ∃ es w, Run Step threeHosts es w ∧
    w.getInfosSocket 1 3 = some 1 ∧ ∃ w' o, w.processFcntlCall 1 3 (.setfl oNonblock) 0 = .ok w' ∧
      w'.processConnectInCall 1 3 ⟨10, 80⟩ = .ok o ∧ o.listener = some 0 ∧ o.waits = true := by
  obtain ⟨es, w, run, registered, w', set, o, done, asked⟩ := exists_run (fun _ _ => True) threeHosts
    [.socket 0 2 1 0 3, .bind 0 3 ⟨inaddrAny, 80⟩, .listen 0 3, .socket 1 2 1 0 3]
    (P := fun w => w.getInfosSocket 1 3 = some 1 ∧
      ∃ w' ∈ (w.processFcntlCall 1 3 (.setfl oNonblock) 0).toOption,
        ∃ o ∈ (w'.processConnectInCall 1 3 ⟨10, 80⟩).toOption, o.listener = some 0 ∧ o.waits = true)
    (by decide)
  exact ⟨es, w, run.mono fun _ _ _ step => step.2, registered, w', o, eq_ok_of_mem_toOption set,
    eq_ok_of_mem_toOption done, asked⟩

end World

end Simterpose
