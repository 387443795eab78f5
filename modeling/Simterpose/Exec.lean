import Simterpose.Flags
import Simterpose.Mirror

/-! # Programs that are replaced

When a program is replaced by `execve`, the kernel closes the descriptors that are marked for it.
`syscall_execve` looks through the table of the process for flags that are `FD_CLOEXEC` and warns
of them, but takes no descriptor out.
-/

namespace Simterpose

open Lib

/-- `SOCK_CLOEXEC` -/
def sockCloexec : Nat := 0x80000

/-- The descriptors of which `syscall_execve` warns. -/
def World.cloexecWarnings {H : Type} (w : World H) (proc : Pid) : List Int :=
  ((w.procs proc).fdMap.entries.filter fun entry => (w.fileDesc entry.2).flags = fdCloexec).map (·.1)

/-- The stops of an `execve`, which reports an event if it succeeds. -/
def execveStops : Bool → List Stop
  | true => [.entry, .event .exec, .exit]
  | false => [.entry, .exit]

namespace Traced

variable {H : Type} (s : Traced H) (proc : Pid)

/-- `syscall_execve` at one of its stops, with the warnings. -/
def syscallExecve (place : Stop) : Traced H × List Int :=
  if place.status.procEventExec then (s, [])
  else if s.inSyscall proc then (s.procOutside proc, s.world.cloexecWarnings proc)
  else (s.procInside proc, [])

def atExecveStops : List Stop → Traced H → Traced H × List Int
  | [], s => (s, [])
  | place :: places, s =>
      let (s, warnings) := s.syscallExecve proc place
      let (s, more) := atExecveStops places s
      (s, warnings ++ more)

/-- `F_SETFD` with `FD_CLOEXEC`, at both of its stops. -/
def setfd (fd ret : Int) : Result (Traced H) := do
  let s ← s.atExit proc (·.processFcntlCall proc fd (.setfd fdCloexec) (-enosys))
  s.atExit proc (·.processFcntlCall proc fd (.setfd fdCloexec) ret)

/-- The tables are as before, and each descriptor is looked at once. -/
theorem atExecveStops_eq (succeeds : Bool) :
    s.atExecveStops proc (execveStops succeeds) = (s, s.world.cloexecWarnings proc) := by
  have event : (Stop.event .exec).status.procEventExec = true := by decide
  have entry : Stop.entry.status.procEventExec = false := by decide
  have exit : Stop.exit.status.procEventExec = false := by decide
  cases flag : s.inSyscall proc with
  | false =>
      have back : (s.procInside proc).procOutside proc = s := by
        simp [procInside, procOutside, ← flag]
      cases succeeds <;>
        simp [execveStops, atExecveStops, syscallExecve, event, entry, exit, flag, back] <;>
        simp [procInside]
  | true =>
      have back : (s.procOutside proc).procInside proc = s := by
        simp [procInside, procOutside, ← flag]
      cases succeeds <;>
        simp [execveStops, atExecveStops, syscallExecve, event, entry, exit, flag, back] <;>
        simp [procOutside]

variable {s proc}

/-- The mark is stored with the flags of the descriptor, whether the kernel set it or not. -/
theorem setfd_iff {fd ret : Int} {s' : Traced H} : s.setfd proc fd ret = .ok s' ↔
    (s.inSyscall proc = false → ret ≠ -1) ∧ ∃ ref, s.world.processDescriptorGetFd proc fd = some ref ∧
      s' = { s with
        world := s.world.modifyDesc ref fun desc => { desc with flags := desc.flags ||| fdCloexec } } := by
  have stored : ∀ {seen : Int} {w : World H},
      s.world.processFcntlCall proc fd (.setfd fdCloexec) seen = .ok w ↔
        seen ≠ -1 ∧ ∃ ref, s.world.processDescriptorGetFd proc fd = some ref ∧
          s.world.modifyDesc ref (fun desc => { desc with flags := desc.flags ||| fdCloexec }) = w := by
    intro seen w
    unfold World.processFcntlCall World.fcntlStore
    by_cases silent : seen = -1
    · simp [silent]
    · cases s.world.processDescriptorGetFd proc fd <;> simp [silent]
  rw [setfd, atExit_twice]
  cases flag : s.inSyscall proc with
  | false =>
      simp only [if_false, bind_eq_ok, stored, Bool.false_eq_true]
      constructor
      · rintro ⟨w, ⟨heard, ref, found, rfl⟩, same⟩
        cases same
        exact ⟨fun _ => heard, ref, found, rfl⟩
      · rintro ⟨heard, ref, found, rfl⟩
        exact ⟨_, ⟨heard trivial, ref, found, rfl⟩, rfl⟩
  | true =>
      simp only [if_true, bind_eq_ok, stored]
      constructor
      · rintro ⟨w, ⟨-, ref, found, rfl⟩, same⟩
        cases same
        exact ⟨fun down => (by cases down), ref, found, rfl⟩
      · rintro ⟨-, ref, found, rfl⟩
        exact ⟨_, ⟨by decide, ref, found, rfl⟩, rfl⟩

end Traced

/-! ## The descriptors that the kernel closes -/

/-- The marked descriptors of a process after a call with its result. -/
def Completed.marks (c : Completed) (marked : Finset Int) : Finset Int :=
  let made (cloexec : Bool) :=
    if c.ret < 0 then marked else if cloexec then insert c.ret marked else marked.erase c.ret
  match c.call with
  | .openFile _ flags _ => made (flags &&& oCloexec ≠ 0)
  | .creat .. => made false
  | .socket _ type _ => made (type.toNat &&& sockCloexec ≠ 0)
  | .dup _ => made false
  -- a descriptor that is its own duplicate keeps its mark
  | .dup2 oldfd newfd => if oldfd = newfd then marked else made false
  | .dupfd _ cloexec => made cloexec
  | .close fd => if c.ret = -ebadf then marked else marked.erase fd

/-- What a traced process does. -/
inductive ExecEvent where
  | call (c : Completed)
  | setfd (proc : Pid) (fd ret : Int)
  | execve (proc : Pid) (succeeds : Bool)

def ExecEvent.proc : ExecEvent → Pid
  | .call c => c.proc
  | .setfd proc .. | .execve proc _ => proc

/-- The tables and flags, and which descriptors are open in the tracees and which are marked. -/
structure Executing (H : Type) extends Tracing H where
  closing : Pid → Finset Int

namespace Executing

/-- The numbers in the tables are those that are open, and only what is open is marked. -/
structure MirrorsMarked {H : Type} (who : Set Pid) (s : Executing H) : Prop where
  mirrors : s.Mirrors who
  marked : ∀ proc ∈ who, s.closing proc ⊆ s.opened proc

section

variable {H : Type} [DecidableEq H] {s s' : Executing H} {who : Set Pid}

def perform (s : Executing H) : ExecEvent → Result (Executing H)
  | .call c => do
      let t ← s.toTracing.perform c
      return { t with closing := Function.update s.closing c.proc (c.marks (s.closing c.proc)) }
  | .setfd proc fd ret => do
      let t ← s.toTraced.setfd proc fd ret
      let marked := if ret = 0 then insert fd (s.closing proc) else s.closing proc
      return { s with
        toTraced := t
        closing := Function.update s.closing proc marked }
  | .execve proc succeeds =>
      let (t, _) := s.toTraced.atExecveStops proc (execveStops succeeds)
      if succeeds then
        .ok { s with
          toTraced := t
          opened := Function.update s.opened proc (s.opened proc \ s.closing proc)
          closing := Function.update s.closing proc ∅ }
      else .ok { s with toTraced := t }

def Step (s : Executing H) (e : ExecEvent) (s' : Executing H) : Prop := s.perform e = .ok s'

theorem Step.functional (s : Executing H) (e : ExecEvent) (s₁ s₂ : Executing H) (first : s.Step e s₁)
    (second : s.Step e s₂) : s₁ = s₂ := Except.ok.inj (first.symm.trans second)

/-- The condition under which an event leaves both tables with the same numbers. -/
def Agrees (s : Executing H) : ExecEvent → Prop
  | .call c => s.toTracing.Agrees c
  | .setfd proc fd ret => (s.inSyscall proc = false → ret ≠ -1) ∧ s.world.Knows proc fd
  | .execve proc succeeds => succeeds = true → s.closing proc = ∅

instance (s : Executing H) : (e : ExecEvent) → Decidable (s.Agrees e)
  | .call c => inferInstanceAs (Decidable (s.toTracing.Agrees c))
  | .setfd .. => inferInstanceAs (Decidable (_ ∧ _))
  | .execve .. => inferInstanceAs (Decidable (_ → _))

/-- A failed call leaves all descriptors alone. -/
def Unharmed (s : Executing H) (e : ExecEvent) (s' : Executing H) : Prop :=
  ∀ c, e = .call c → c.ret < 0 → s.world.Unchanged s'.world

/-- Only descriptors that the kernel has are marked. -/
theorem marks_subset {c : Completed} {opened marked : Finset Int} (within : marked ⊆ opened) :
    c.marks marked ⊆ c.kernel opened := by
  have kept : marked ⊆ gained c.ret ∪ opened := within.trans Finset.subset_union_right
  have made : ∀ cloexec : Bool, (if c.ret < 0 then marked else
      if cloexec then insert c.ret marked else marked.erase c.ret) ⊆ gained c.ret ∪ opened := by
    intro cloexec
    split
    · exact kept
    · rename_i succeeded
      split
      · apply Finset.insert_subset _ kept
        exact Finset.mem_union_left _ (mem_gained.mpr ⟨rfl, Int.not_lt.mp succeeded⟩)
      · exact (Finset.erase_subset ..).trans kept
  obtain ⟨proc, call, ret⟩ := c
  cases call with
  | openFile | creat | socket | dup | dupfd => exact made _
  | dup2 oldfd newfd =>
      simp only [Completed.marks, Completed.kernel]
      split
      · exact kept
      · exact made false
  | close fd =>
      simp only [Completed.marks, Completed.kernel]
      split
      · exact within
      · exact Finset.erase_subset_erase fd within

theorem agrees_call (inv : s.MirrorsMarked who) {c : Completed} (mine : c.proc ∈ who) :
    (∃ s', s.Step (.call c) s' ∧ s'.MirrorsMarked who ∧ s.Unharmed (.call c) s') ↔
      s.Agrees (.call c) := by
  have within : ∀ q ∈ who, Function.update s.closing c.proc (c.marks (s.closing c.proc)) q ⊆
      Function.update s.opened c.proc (c.kernel (s.opened c.proc)) q := by
    intro q its
    by_cases here : q = c.proc
    · subst here
      simp only [Function.update_self]
      exact marks_subset (inv.marked _ its)
    · simp only [Function.update_of_ne here]
      exact inv.marked q its
  rw [Agrees, ← Tracing.agrees_iff inv.mirrors c mine]
  constructor
  · rintro ⟨s', step, after, unharmed⟩
    obtain ⟨t, performed, rfl⟩ := bind_pure_eq_ok.mp step
    exact ⟨t, performed, after.mirrors, unharmed c rfl⟩
  · rintro ⟨t, performed, after, unchanged⟩
    refine ⟨_, bind_eq_ok.mpr ⟨t, performed, rfl⟩, ⟨after, ?_⟩, ?_⟩
    · obtain ⟨w, -, rfl⟩ := Tracing.step_iff.mp performed
      exact within
    · intro c' same failed
      cases same
      exact unchanged failed

theorem agrees_setfd (inv : s.MirrorsMarked who) {proc : Pid} {fd ret : Int} (mine : proc ∈ who) :
    (∃ s', s.Step (.setfd proc fd ret) s' ∧ s'.MirrorsMarked who ∧ s.Unharmed (.setfd proc fd ret) s') ↔
      s.Agrees (.setfd proc fd ret) := by
  have knows : s.world.Knows proc fd ↔ ∃ ref, s.world.processDescriptorGetFd proc fd = some ref :=
    Option.isSome_iff_exists
  constructor
  · rintro ⟨s', step, -, -⟩
    obtain ⟨t, stored, -⟩ := bind_eq_ok.mp step
    obtain ⟨heard, ref, found, -⟩ := Traced.setfd_iff.mp stored
    exact ⟨heard, knows.mpr ⟨ref, found⟩⟩
  · rintro ⟨heard, known⟩
    obtain ⟨ref, found⟩ := knows.mp known
    refine ⟨_, bind_eq_ok.mpr ⟨_, Traced.setfd_iff.mpr ⟨heard, ref, found, rfl⟩, rfl⟩, ⟨⟨?_, ?_⟩, ?_⟩, ?_⟩
    · intro q its g
      rw [inv.mirrors.same q its g, World.Knows, World.Knows]
      exact iff_of_eq (congrArg (fun table => (table q g).isSome = true) (World.getFd_modifyDesc ref _).symm)
    · exact inv.mirrors.nonneg
    · intro q its
      have isOpen : fd ∈ s.opened proc := (inv.mirrors.same proc mine fd).mpr known
      by_cases here : q = proc
      · subst here
        simp only [Function.update_self]
        split
        · exact Finset.insert_subset isOpen (inv.marked q its)
        · exact inv.marked q its
      · simp only [Function.update_of_ne here]
        exact inv.marked q its
    · intro c same
      cases same

theorem agrees_execve (inv : s.MirrorsMarked who) {proc : Pid} {succeeds : Bool} (mine : proc ∈ who) :
    (∃ s', s.Step (.execve proc succeeds) s' ∧ s'.MirrorsMarked who ∧
      s.Unharmed (.execve proc succeeds) s') ↔ s.Agrees (.execve proc succeeds) := by
  have unharmed : ∀ s', s.Unharmed (.execve proc succeeds) s' := fun _ _ same => by cases same
  simp only [unharmed, and_true]
  cases succeeds with
  | false =>
      refine iff_of_true ⟨s, ?_, inv⟩ fun success => by cases success
      simp [Step, perform, Traced.atExecveStops_eq]
  | true =>
      have replaced : s.Step (.execve proc true) { s with
          opened := Function.update s.opened proc (s.opened proc \ s.closing proc)
          closing := Function.update s.closing proc ∅ } := by
        simp [Step, perform, Traced.atExecveStops_eq]
      constructor
      · rintro ⟨s', step, after⟩ -
        cases Step.functional _ _ _ _ step replaced
        apply Finset.eq_empty_of_forall_notMem
        intro fd marked
        -- the table still has the number, the kernel does not
        have isOpen := inv.marked proc mine marked
        have known := (inv.mirrors.same proc mine fd).mp isOpen
        have still := (after.mirrors.same proc mine fd).mpr known
        simp [marked] at still
      · intro unmarked
        refine ⟨_, replaced, ?_⟩
        have same : Function.update s.opened proc (s.opened proc \ s.closing proc) = s.opened := by
          simp [unmarked rfl]
        rw [same]
        refine ⟨⟨inv.mirrors.same, inv.mirrors.nonneg⟩, ?_⟩
        intro q its
        by_cases here : q = proc
        · subst here
          simp
        · simp only [Function.update_of_ne here]
          exact inv.marked q its

end

/-- Three hosts and processes without descriptors. -/
def idle : Executing (Fin 3) where
  toTracing := .idle
  closing _ := ∅

theorem idle_mirrorsMarked (who : Set Pid) : idle.MirrorsMarked who where
  mirrors := Tracing.idle_mirrors who
  marked _ _ := Finset.empty_subset _

end Executing

/-! ## The warnings -/

theorem or_le_one {n m : Nat} : n ||| m ≤ 1 ↔ n ≤ 1 ∧ m ≤ 1 := by
  constructor
  · exact fun small => ⟨Nat.left_le_or.trans small, Nat.right_le_or.trans small⟩
  · rintro ⟨first, second⟩
    rcases Nat.le_one_iff_eq_zero_or_eq_one.mp first with rfl | rfl <;>
      rcases Nat.le_one_iff_eq_zero_or_eq_one.mp second with rfl | rfl <;> decide

theorem or_eq_one {n m : Nat} : n ||| m = 1 ↔ (n ≤ 1 ∧ m ≤ 1) ∧ (n = 1 ∨ m = 1) := by
  rw [← or_le_one]
  constructor
  · intro one
    refine ⟨Nat.le_of_eq one, ?_⟩
    by_contra neither
    have small := or_le_one.mp (Nat.le_of_eq one)
    have zeros : n = 0 ∧ m = 0 := by omega
    rw [zeros.1, zeros.2] at one
    cases one
  · rintro ⟨small, rfl | rfl⟩
    · exact Nat.le_antisymm small Nat.left_le_or
    · exact Nat.le_antisymm small Nat.right_le_or

namespace FlagCall

/-- The bits that a call adds. -/
def adds (call : FlagCall) : Nat := call.effect 0

theorem effect_eq (call : FlagCall) (flags : Nat) : call.effect flags = flags ||| call.adds := by
  cases call with
  | setfd => simp [adds, effect]
  | setfl arg =>
      simp only [adds, effect]
      split <;> simp

/-- Calls leave nothing but `FD_CLOEXEC` if nothing else was there or is added. -/
theorem foldl_effect_eq_one (calls : List FlagCall) (flags : Nat) :
    calls.foldl (fun flags call => call.effect flags) flags = 1 ↔
      flags ≤ 1 ∧ (∀ call ∈ calls, call.adds ≤ 1) ∧ (flags = 1 ∨ ∃ call ∈ calls, call.adds = 1) := by
  induction calls generalizing flags with
  | nil =>
      have alone : flags = 1 ↔ flags ≤ 1 ∧ flags = 1 := by omega
      simpa using alone
  | cons call calls ih =>
      rw [List.foldl_cons, effect_eq, ih, or_le_one, or_eq_one]
      simp only [List.forall_mem_cons, List.exists_mem_cons_iff]
      grind

/-- A status flag that `F_SETFL` stores. -/
def storesStatus : FlagCall → Bool
  | .setfd _ => false
  | .setfl arg _ => arg = oAppend ∨ arg = oAsync ∨ arg = oNonblock

def isSetfd : FlagCall → Bool
  | .setfd _ => true
  | .setfl .. => false

theorem adds_eq_one {call : FlagCall} : call.adds = 1 ↔ call.isSetfd = true := by
  cases call with
  | setfd => simp [adds, effect, isSetfd, fdCloexec]
  | setfl arg =>
      simp only [adds, effect, isSetfd]
      split
      · rename_i known
        rcases known with rfl | rfl | rfl <;> decide
      · simp

theorem adds_le_one {call : FlagCall} : call.adds ≤ 1 ↔ call.storesStatus = false := by
  cases call with
  | setfd => simp [adds, effect, storesStatus, fdCloexec]
  | setfl arg =>
      simp only [adds, effect, storesStatus, decide_eq_false_iff_not]
      split
      · rename_i known
        rcases known with rfl | rfl | rfl <;> decide
      · rename_i unknown
        simp [unknown]

end FlagCall

namespace World

variable {H : Type} {w : World H} {proc : Pid} {fd : Int}

theorem mem_cloexecWarnings :
    fd ∈ w.cloexecWarnings proc ↔ w.flagsOf proc fd = some fdCloexec := by
  simp only [cloexecWarnings, flagsOf, processDescriptorGetFd, List.mem_map, List.mem_filter,
    decide_eq_true_eq, Option.map_eq_some_iff]
  constructor
  · rintro ⟨⟨number, ref⟩, ⟨member, marked⟩, rfl⟩
    exact ⟨ref, AList.mem_lookup_iff.mpr member, marked⟩
  · rintro ⟨ref, found, marked⟩
    exact ⟨⟨fd, ref⟩, ⟨AList.mem_lookup_iff.mp found, marked⟩, rfl⟩

end World

end Simterpose
