import Simterpose.Ptrace
import Simterpose.Stops

/-! # The registers of a tracee

`ptrace` stops a tracee at the entry and at the exit of a call, and its registers can be changed
in both places: the call that is about to be made becomes another one, and after it the tracee is
sent back to the instruction that made the call. What the kernel does for a call is a parameter.
-/

namespace Simterpose

open Lib

/-- `struct user_regs_struct` -/
structure UserRegs where
  r15 : UInt64
  r14 : UInt64
  r13 : UInt64
  r12 : UInt64
  rbp : UInt64
  rbx : UInt64
  r11 : UInt64
  r10 : UInt64
  r9 : UInt64
  r8 : UInt64
  rax : UInt64
  rcx : UInt64
  rdx : UInt64
  rsi : UInt64
  rdi : UInt64
  origRax : UInt64
  rip : UInt64
  cs : UInt64
  eflags : UInt64
  rsp : UInt64
  ss : UInt64
  fsBase : UInt64
  gsBase : UInt64
  ds : UInt64
  es : UInt64
  fs : UInt64
  gs : UInt64
  deriving Repr, DecidableEq

def UserRegs.setRax (regs : UserRegs) (rax : UInt64) : UserRegs := { regs with rax := rax }

def sysSocket : UInt64 := 41
def sysAccept : UInt64 := 43
def sysTuxcall : UInt64 := 184

/-- The two bytes of a `syscall` instruction. -/
def syscallInstruction : List UInt8 := [0x0f, 0x05]

/-- What a call leaves behind. -/
structure Executed (K : Type) where
  kernel : K
  mem : Memory
  result : UInt64

/-- A call by its number, with the registers that have its arguments. -/
abbrev Kernel (K : Type) := UInt64 → UserRegs → K → Memory → Executed K

/-- A stopped tracee and the state of the kernel, with the calls that the kernel has executed for
    it. -/
structure Ptraced (K : Type) where
  regs : UserRegs
  mem : Memory
  stop : Stop
  kernel : K
  executed : List UInt64

namespace Ptraced

variable {K : Type} (execute : Kernel K) (t : Ptraced K)

/-- The tracee after its call. -/
def call : Ptraced K :=
  let done := execute t.regs.origRax t.regs t.kernel t.mem
  { regs := t.regs.setRax done.result, mem := done.mem, stop := .exit, kernel := done.kernel
    executed := t.executed ++ [t.regs.origRax] }

/-- `PTRACE_SYSCALL` and the `waitpid` after it, without signals. From the exit of a call only a
    tracee at a `syscall` instruction is followed. -/
def resume : Option (Ptraced K) :=
  match t.stop with
  | .entry => some (t.call execute)
  | .exit =>
      if t.mem.read t.regs.rip.toNat 2 = syscallInstruction then
        some { t with
          regs := { t.regs with
            origRax := t.regs.rax, rax := UInt64.ofInt (-enosys), rip := t.regs.rip + 2 }
          stop := .entry }
      else none
  | .event _ => none

/-- `PTRACE_SETREGS` -/
def setRegs (regs : UserRegs) : Ptraced K := { t with regs := regs }

/-- `ptrace_rewind_syscalls` -/
def ptraceRewindSyscalls : Ptraced K :=
  t.setRegs { t.regs with rax := t.regs.origRax, rip := t.regs.rip - 2 }

/-- `ptrace_record_socket`: a socket of `AF_INET` and `SOCK_STREAM` is made in place of the call,
    which is then entered again. -/
def ptraceRecordSocket : Option (Ptraced K × Int) := do
  let saveReg := t.regs
  let t ← (t.setRegs { t.regs with origRax := sysSocket, rdi := 2, rsi := 1, rdx := 0 }).resume execute
  let res := toCInt t.regs.rax.toNat
  let t ← (t.setRegs saveReg).ptraceRewindSyscalls.resume execute
  return (t, res)

/-- `ptrace_neutralize_syscall` -/
def ptraceNeutralizeSyscall : Option (Ptraced K) :=
  (t.setRegs { t.regs with origRax := sysTuxcall }).resume execute

/-- `ptrace_restore_syscall` -/
def ptraceRestoreSyscall (syscall result : UInt64) : Ptraced K :=
  t.setRegs { t.regs with origRax := syscall, rax := result }

/-- How `syscall_accept` rebuilds the call under full mediation. -/
def rebuildAccept : Option (Ptraced K × Int) := do
  let (t, newFd) ← t.ptraceRecordSocket execute
  let t ← t.ptraceNeutralizeSyscall execute
  return (t.ptraceRestoreSyscall sysAccept (UInt64.ofInt newFd), newFd)

end Ptraced

/-- What a descriptor of the kernel is open for. -/
inductive KernelFile where
  | socket (domain type protocol : UInt64)
  | other
  deriving Repr, DecidableEq

/-- A kernel in which `tuxcall` has no effect and `socket` makes a new descriptor, or fails. -/
structure SocketKernel (K : Type) where
  execute : Kernel K
  /-- the descriptors of the tracee -/
  files : K → Int → Option KernelFile
  tuxcall : ∀ regs k mem, (execute sysTuxcall regs k mem).kernel = k ∧
    (execute sysTuxcall regs k mem).mem = mem
  untouched : ∀ regs k mem, (execute sysSocket regs k mem).mem = mem
  socket : ∀ regs k mem,
    (∃ fd : Int, 0 ≤ fd ∧ fd < 0x80000000 ∧
      (execute sysSocket regs k mem).result = UInt64.ofInt fd ∧ files k fd = none ∧
      files (execute sysSocket regs k mem).kernel =
        Function.update (files k) fd (some (.socket regs.rdi regs.rsi regs.rdx))) ∨
    ∃ errno : Int, 0 < errno ∧ errno < 4096 ∧
      (execute sysSocket regs k mem).result = UInt64.ofInt (-errno) ∧
      files (execute sysSocket regs k mem).kernel = files k

theorem toCInt_ofInt {n : Int} (low : -0x80000000 ≤ n) (high : n < 0x80000000) :
    toCInt (UInt64.ofInt n).toNat = n := by
  have small : n % 0x10000000000000000 < 0x10000000000000000 := by omega
  have bits : (UInt64.ofInt n).toNat = (n % 0x10000000000000000).toNat := by
    simp [UInt64.ofInt, small]
  rw [toCInt, bits, BitVec.toInt_eq_toNat_cond]
  simp only [BitVec.toNat_ofNat]
  split <;> omega

namespace Ptraced

variable {K : Type} {execute : Kernel K} {t : Ptraced K}

theorem resume_entry (stopped : t.stop = .entry) : t.resume execute = some (t.call execute) := by
  unfold resume
  rw [stopped]

/-- A call that was rewound is entered again. -/
theorem resume_rewound (stopped : t.stop = .exit)
    (instruction : t.mem.read (t.regs.rip - 2).toNat 2 = syscallInstruction) :
    t.ptraceRewindSyscalls.resume execute =
      some { t with regs := t.regs.setRax (UInt64.ofInt (-enosys)), stop := .entry } := by
  have entered : t.ptraceRewindSyscalls.stop = .exit := stopped
  unfold resume
  rw [entered]
  simp only [ptraceRewindSyscalls, setRegs, instruction, if_pos, UInt64.sub_add_cancel]
  rfl

/-- The tracee is back at the entry of its call, with one more call executed. -/
theorem ptraceRecordSocket_entry {result : Executed K} (stopped : t.stop = .entry)
    (made : execute sysSocket { t.regs with origRax := sysSocket, rdi := 2, rsi := 1, rdx := 0 }
      t.kernel t.mem = result)
    (instruction : result.mem.read (t.regs.rip - 2).toNat 2 = syscallInstruction) :
    t.ptraceRecordSocket execute = some
      ({ regs := t.regs.setRax (UInt64.ofInt (-enosys)), mem := result.mem, stop := .entry
         kernel := result.kernel, executed := t.executed ++ [sysSocket] },
        toCInt result.result.toNat) := by
  have entered : (t.setRegs { t.regs with origRax := sysSocket, rdi := 2, rsi := 1, rdx := 0 }).stop =
    .entry := stopped
  subst made
  unfold ptraceRecordSocket
  dsimp only
  rw [resume_entry entered]
  dsimp only [Option.bind_eq_bind, Option.bind_some]
  rw [resume_rewound rfl instruction]
  rfl

/-- The two calls that are executed for an `accept`, and what the registers are after them. -/
theorem rebuildAccept_entry {made nothing : Executed K} (stopped : t.stop = .entry)
    (socket : execute sysSocket { t.regs with origRax := sysSocket, rdi := 2, rsi := 1, rdx := 0 }
      t.kernel t.mem = made)
    (instruction : made.mem.read (t.regs.rip - 2).toNat 2 = syscallInstruction)
    (tuxcall : execute sysTuxcall
      { t.regs.setRax (UInt64.ofInt (-enosys)) with origRax := sysTuxcall } made.kernel made.mem = nothing) :
    t.rebuildAccept execute = some
      ({ regs := { t.regs.setRax (UInt64.ofInt (toCInt made.result.toNat)) with origRax := sysAccept }
         mem := nothing.mem, stop := .exit, kernel := nothing.kernel
         executed := t.executed ++ [sysSocket] ++ [sysTuxcall] },
        toCInt made.result.toNat) := by
  subst tuxcall
  unfold rebuildAccept
  rw [ptraceRecordSocket_entry stopped socket instruction]
  dsimp only [Option.bind_eq_bind, Option.bind_some]
  rw [ptraceNeutralizeSyscall, resume_entry rfl]
  rfl

/-- What the application sees of an `accept` that was rebuilt: the number of a new socket, or the
    error for which there is none. -/
theorem accept_transparent {K : Type} (kernel : SocketKernel K) {t : Ptraced K}
    (stopped : t.stop = .entry) (accepts : t.regs.origRax = sysAccept)
    (instruction : t.mem.read (t.regs.rip - 2).toNat 2 = syscallInstruction) :
    ∃ t' fd, t.rebuildAccept kernel.execute = some (t', fd) ∧ t'.stop = .exit ∧
      t'.regs = t.regs.setRax (UInt64.ofInt fd) ∧ t'.regs.origRax = sysAccept ∧ t'.mem = t.mem ∧
      t'.executed = t.executed ++ [sysSocket, sysTuxcall] ∧
      (0 ≤ fd ∧ kernel.files t.kernel fd = none ∧ kernel.files t'.kernel =
          Function.update (kernel.files t.kernel) fd (some (.socket 2 1 0)) ∨
        fd < 0 ∧ kernel.files t'.kernel = kernel.files t.kernel) := by
  generalize args : { t.regs with origRax := sysSocket, rdi := 2, rsi := 1, rdx := 0 } = regs
  generalize socket : kernel.execute sysSocket regs t.kernel t.mem = made
  generalize tuxcall : kernel.execute sysTuxcall
    { t.regs.setRax (UInt64.ofInt (-enosys)) with origRax := sysTuxcall } made.kernel made.mem = nothing
  have untouched : made.mem = t.mem := by
    rw [← socket]
    exact kernel.untouched regs t.kernel t.mem
  have idle : nothing.kernel = made.kernel ∧ nothing.mem = made.mem := by
    rw [← tuxcall]
    exact kernel.tuxcall _ made.kernel made.mem
  have rebuilt := rebuildAccept_entry stopped (args ▸ socket) (untouched ▸ instruction) tuxcall
  refine ⟨_, _, rebuilt, rfl, ?_, rfl, idle.2.trans untouched, List.append_assoc .., ?_⟩
  · rw [← accepts]
    rfl
  · have outcome := kernel.socket regs t.kernel t.mem
    rw [socket, ← args] at outcome
    dsimp only at outcome ⊢
    rw [idle.1]
    rcases outcome with ⟨fd, nonneg, small, result, unused, files⟩ | ⟨errno, positive, small, result, files⟩
    · rw [result, toCInt_ofInt (by omega) small]
      exact .inl ⟨nonneg, unused, files⟩
    · rw [result, toCInt_ofInt (by omega) (by omega)]
      exact .inr ⟨by omega, files⟩

end Ptraced

/-- A kernel with a table of at most 1024 descriptors. -/
def tableKernel : SocketKernel (List KernelFile) where
  execute call regs k mem :=
    if call = sysSocket then
      if k.length < 1024 then
        ⟨k ++ [.socket regs.rdi regs.rsi regs.rdx], mem, UInt64.ofInt k.length⟩
      else ⟨k, mem, UInt64.ofInt (-24)⟩
    else ⟨k, mem, UInt64.ofInt (-enosys)⟩
  files k fd := if 0 ≤ fd then k[fd.toNat]? else none
  tuxcall _ _ _ := ⟨rfl, rfl⟩
  untouched _ k _ := by
    rw [if_pos rfl]
    split <;> rfl
  socket regs k mem := by
    rw [if_pos rfl]
    split
    · rename_i room
      refine .inl ⟨k.length, by omega, by omega, rfl, ?_, ?_⟩
      · simp
      · funext fd
        by_cases last : fd = k.length
        · subst last
          simp
        · rw [Function.update_of_ne last]
          split
          · by_cases old : fd.toNat < k.length
            · rw [List.getElem?_append_left old]
            · rw [List.getElem?_eq_none (by simp; omega), List.getElem?_eq_none (by omega)]
          · rfl
    · exact .inr ⟨24, by decide, by decide, rfl, rfl⟩

theorem tableKernel_full {k : List KernelFile} (full : ¬ k.length < 1024) (regs : UserRegs) (mem : Memory) :
    tableKernel.execute sysSocket regs k mem = ⟨k, mem, UInt64.ofInt (-24)⟩ := by
  simp only [tableKernel, if_true, if_neg full]

namespace Ptraced

/-- A tracee at the entry of an `accept`, which it made at address 98. -/
def accepting : Ptraced (List KernelFile) where
  regs :=
    { r15 := 0, r14 := 0, r13 := 0, r12 := 0, rbp := 0, rbx := 0, r11 := 0, r10 := 0, r9 := 0, r8 := 0
      rax := UInt64.ofInt (-enosys), rcx := 100, rdx := 7, rsi := 8, rdi := 3, origRax := sysAccept
      rip := 100, cs := 0, eflags := 0, rsp := 0, ss := 0, fsBase := 0, gsBase := 0, ds := 0, es := 0
      fs := 0, gs := 0 }
  mem := Memory.write (fun _ => 0) 98 syscallInstruction
  stop := .entry
  kernel := [.other, .other, .other, .socket 2 1 0]
  executed := []

theorem accepting_transparent : accepting.regs.origRax = sysAccept ∧
    ∃ t' fd, accepting.rebuildAccept tableKernel.execute = some (t', fd) ∧ t'.stop = .exit ∧
      t'.regs = accepting.regs.setRax (UInt64.ofInt fd) ∧ t'.mem = accepting.mem := by
  obtain ⟨t', fd, rebuilt, stopped, regs, -, mem, -⟩ :=
    accept_transparent tableKernel (t := accepting) rfl rfl (by decide)
  exact ⟨rfl, t', fd, rebuilt, stopped, regs, mem⟩

/-- The same tracee with all descriptors in use. -/
def exhausted : Ptraced (List KernelFile) := { accepting with kernel := List.replicate 1024 KernelFile.other }

/-- Where `socket` fails with `EMFILE`, the application is told so and the kernel has no new
    descriptor. -/
theorem accept_without_descriptor :
    ∃ t', exhausted.rebuildAccept tableKernel.execute = some (t', -24) ∧ t'.stop = .exit ∧
      ¬ ∃ fd, tableKernel.files exhausted.kernel fd = none ∧
        tableKernel.files t'.kernel fd = some (.socket 2 1 0) := by
  have full : ¬ exhausted.kernel.length < 1024 := by
    rw [exhausted, List.length_replicate]
    decide
  have failed : tableKernel.execute sysSocket
      { exhausted.regs with origRax := sysSocket, rdi := 2, rsi := 1, rdx := 0 } exhausted.kernel
      exhausted.mem = ⟨exhausted.kernel, exhausted.mem, UInt64.ofInt (-24)⟩ :=
    tableKernel_full full _ _
  have rebuilt := rebuildAccept_entry (t := exhausted) rfl failed (by decide) rfl
  rw [toCInt_ofInt (by decide) (by decide)] at rebuilt
  refine ⟨_, rebuilt, rfl, ?_⟩
  rintro ⟨fd, unused, used⟩
  exact Option.some_ne_none _ (used.symm.trans unused)

end Ptraced

end Simterpose
