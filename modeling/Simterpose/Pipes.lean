import Simterpose.Lib.Fibres
import Simterpose.Tags

/-! # Pipes and their ends

A pipe knows its ends by two lists of pairs of a process and a descriptor number, a
descriptor knows its pipe by a pointer. How a pipe gets recorded at all is the matter of the
stops of `SYS_pipe`; from then on the two sides have to be kept together by every call
that makes, duplicates or closes descriptors.
-/

namespace Simterpose

open Lib

/-! ## The stops of `SYS_pipe` -/

namespace Traced

variable {H : Type} (s : Traced H)

/-- `syscall_pipe`, with the array in the tracee's memory and the result register. -/
def syscallPipe (proc : Pid) (filedes : Int × Int) (ret : Int) : Traced H :=
  if s.inSyscall proc then
    { s.procOutside proc with world := s.world.syscallPipePost proc filedes ret }
  else s.procInside proc

/-- `syscall_brk` -/
def syscallBrk (proc : Pid) : Traced H :=
  if s.inSyscall proc then s.procOutside proc else s.procInside proc

/-- A stop of `SYS_pipe`: its case of the switch goes on with that of `SYS_brk`. -/
def pipeStop (proc : Pid) (filedes : Int × Int) (ret : Int) : Traced H :=
  (s.syscallPipe proc filedes ret).syscallBrk proc

/-- Both stops of a `pipe` that succeeds. The kernel stores the descriptors in between. -/
def pipeCall (proc : Pid) (before stored : Int × Int) : Traced H :=
  (s.pipeStop proc before (-enosys)).pipeStop proc stored 0

variable {s}

/-- Each stop turns the flag twice. -/
theorem pipeStop_eq (proc : Pid) (filedes : Int × Int) (ret : Int) :
    s.pipeStop proc filedes ret =
      { s with world := if s.inSyscall proc then s.world.syscallPipePost proc filedes ret
                        else s.world } := by
  have back : ∀ flag between, s.inSyscall proc = flag →
      Function.update (Function.update s.inSyscall proc between) proc flag = s.inSyscall := by
    intro flag between known
    rw [Function.update_idem, ← known, Function.update_eq_self]
  cases flag : s.inSyscall proc with
  | false => simp [pipeStop, syscallPipe, syscallBrk, procInside, procOutside, flag, back false true flag]
  | true => simp [pipeStop, syscallPipe, syscallBrk, procInside, procOutside, flag, back true false flag]

/-- What a stop does to the flag is what the loop of `process_handle` goes on with. -/
theorem dispatch_of_pipeStop [DecidableEq H] (proc : Pid) (filedes : Int × Int) (ret : Int)
    (place : Stop) : Tracee.dispatch s.world proc ret .pipe ⟨place, s.inSyscall proc⟩ =
      .ok (⟨place, (s.pipeStop proc filedes ret).inSyscall proc⟩, .processContinue) := by
  rw [pipeStop_eq]
  cases s.inSyscall proc <;> rfl

theorem world_pipeCall (proc : Pid) (before stored : Int × Int) :
    (s.pipeCall proc before stored).world =
      if s.inSyscall proc then s.world.syscallPipePost proc stored 0 else s.world := by
  have entered : s.world.syscallPipePost proc before (-enosys) = s.world := if_neg (by decide)
  rw [pipeCall, pipeStop_eq, pipeStop_eq, entered, ite_self]

end Traced

namespace World

section

variable {H : Type} {w w' : World H}

/-- Two descriptors of a process are the ends of a new pipe, and no other is changed. -/
structure RecordsPipe (proc : Pid) (r wr : Int) (pipe : PipeId) (w w' : World H) : Prop where
  new : w.pipes.next ≤ pipe ∧ pipe < w'.pipes.next
  ends : w'.pipes.cell pipe =
    { readEnd := [{ fd := r, proc := proc }], writeEnd := [{ fd := wr, proc := proc }] }
  entered : ∀ fd, fd = r ∨ fd = wr → ∃ ref, w'.processDescriptorGetFd proc fd = some ref ∧
    w'.tag ref = (.pipe, some pipe)
  others : ∀ q g, ¬ (q = proc ∧ (g = r ∨ g = wr)) →
    w'.processDescriptorGetFd q g = w.processDescriptorGetFd q g
  records : ∀ ref, w.Holds ref → w'.fileDesc ref = w.fileDesc ref

theorem next_syscallPipePost (w : World H) (proc : Pid) (filedes : Int × Int) :
    (w.syscallPipePost proc filedes 0).pipes.next = w.pipes.next + 1 := rfl

theorem cell_syscallPipePost (w : World H) (proc : Pid) (filedes : Int × Int) (pipe : PipeId) :
    (w.syscallPipePost proc filedes 0).pipes.cell pipe =
      if pipe = w.pipes.next then
        { readEnd := [{ fd := filedes.1, proc := proc }]
          writeEnd := [{ fd := filedes.1 + 1, proc := proc }] }
      else w.pipes.cell pipe := w.pipes.cell_alloc _ pipe

theorem getFd_syscallPipePost (w : World H) (proc : Pid) (filedes : Int × Int) (q : Pid) (g : Int) :
    (w.syscallPipePost proc filedes 0).processDescriptorGetFd q g =
      if q = proc ∧ g = filedes.1 + 1 then some (.plain (w.descs.next + 1))
      else if q = proc ∧ g = filedes.1 then some (.plain w.descs.next)
      else w.processDescriptorGetFd q g := by
  simp only [syscallPipePost, if_true, getFd_enterDesc]
  rfl

/-- The records of a new pipe are the next two. -/
theorem fileDesc_syscallPipePost (w : World H) (proc : Pid) (filedes : Int × Int) :
    (∀ ref, w.Holds ref → (w.syscallPipePost proc filedes 0).fileDesc ref = w.fileDesc ref) ∧
      (w.syscallPipePost proc filedes 0).fileDesc (.plain w.descs.next) =
        { type := .pipe, proc := proc, fd := filedes.1, pipe := some w.pipes.next, refcount := 1 } ∧
      (w.syscallPipePost proc filedes 0).fileDesc (.plain (w.descs.next + 1)) =
        { type := .pipe, proc := proc, fd := filedes.1 + 1, pipe := some w.pipes.next
          refcount := 1 } := by
  refine ⟨fun ref held => ?_, ?_, ?_⟩
  · cases ref with
    | plain d =>
        have old : d < w.descs.next := held
        simp only [fileDesc, syscallPipePost, if_true, enterDesc, processDescriptorSetFd,
          Heap.cell_alloc, Heap.next_alloc]
        rw [if_neg (Nat.ne_of_lt (Nat.lt_succ_of_lt old)), if_neg (Nat.ne_of_lt old)]
    | socket is => rfl
  · simp [fileDesc, syscallPipePost, enterDesc, processDescriptorSetFd, Heap.cell_alloc]
  · simp [fileDesc, syscallPipePost, enterDesc, processDescriptorSetFd, Heap.cell_alloc]

theorem recordsPipe_syscallPipePost (w : World H) (proc : Pid) (r wr : Int) (next : wr = r + 1) :
    w.RecordsPipe proc r wr w.pipes.next (w.syscallPipePost proc (r, wr) 0) := by
  subst next
  obtain ⟨old, first, second⟩ := w.fileDesc_syscallPipePost proc (r, r + 1)
  refine ⟨⟨Nat.le_refl _, Nat.lt_succ_self _⟩, ?_, fun fd either => ?_, fun q g apart => ?_, old⟩
  · simp [cell_syscallPipePost]
  · rcases either with rfl | rfl
    · refine ⟨.plain w.descs.next, ?_, ?_⟩
      · have apart : fd ≠ fd + 1 := by omega
        simp [getFd_syscallPipePost, apart]
      · rw [tag, first]
    · refine ⟨.plain (w.descs.next + 1), ?_, ?_⟩
      · simp [getFd_syscallPipePost]
      · rw [tag, second]
  · rw [getFd_syscallPipePost]
    rw [if_neg (fun here => apart ⟨here.1, .inr here.2⟩), if_neg (fun here => apart ⟨here.1, .inl here.2⟩)]

end

end World

/-- A successful `pipe` is recorded if and only if the flag is up when the call is entered, left
    by some earlier call, and the kernel chose two numbers in a row. -/
theorem Traced.pipe_recorded_iff {H : Type} (s : Traced H) (proc : Pid) (before : Int × Int)
    (r wr : Int) :
    (∃ pipe, s.world.RecordsPipe proc r wr pipe (s.pipeCall proc before (r, wr)).world) ↔
      s.inSyscall proc = true ∧ wr = r + 1 := by
  rw [world_pipeCall]
  constructor
  · rintro ⟨pipe, new, ends, -, -, -⟩
    cases flag : s.inSyscall proc with
    | false =>
        simp only [flag, Bool.false_eq_true, if_false] at new
        exact absurd new.2 (Nat.not_lt_of_le new.1)
    | true =>
        simp only [flag, if_true] at new ends
        rw [World.next_syscallPipePost] at new
        have same : pipe = s.world.pipes.next := Nat.le_antisymm (Nat.le_of_lt_succ new.2) new.1
        rw [same, World.cell_syscallPipePost, if_pos rfl] at ends
        simp only [Pipe.mk.injEq, List.cons.injEq, PipeEnd.mk.injEq, and_true, true_and] at ends
        exact ⟨rfl, ends.symm⟩
  · rintro ⟨flag, next⟩
    rw [flag, if_pos rfl]
    exact ⟨_, s.world.recordsPipe_syscallPipePost proc r wr next⟩

/-- The first call of a process: the kernel makes the pipe of 3 and 4, Simterpose none. -/
theorem Traced.first_pipe_unrecorded :
    let s : Traced (Fin 3) := { world := .threeHosts, inSyscall := fun _ => false }
    (s.pipeCall 0 (0, 0) (3, 4)).world.processDescriptorGetFd 0 3 = none ∧
      ¬ ∃ pipe, s.world.RecordsPipe 0 3 4 pipe (s.pipeCall 0 (0, 0) (3, 4)).world := by
  refine ⟨by decide +kernel, ?_⟩
  rintro ⟨pipe, -, -, entered, -, -⟩
  obtain ⟨ref, found, -⟩ := entered 3 (.inl rfl)
  rw [world_pipeCall] at found
  exact World.threeHosts_bare 0 3 ref found

end Simterpose
