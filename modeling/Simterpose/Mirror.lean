import Mathlib.Data.Finset.Basic
import Simterpose.Stops

/-! # The descriptor tables and the kernel's

The kernel has a table of its own for each tracee, and its results tell how that table
changes. Each exit handler reads the result in its own way. Here the calls that make and
close descriptors run against both tables, with any results, and the question is when
the numbers in `fd_map` are the kernel's and a failed call changes nothing.
-/

namespace Simterpose

open Lib

/-- The number a call that makes a descriptor adds to the kernel's table. -/
def gained (ret : Int) : Finset Int := if 0 ≤ ret then {ret} else ∅

theorem mem_gained {g ret : Int} : g ∈ gained ret ↔ g = ret ∧ 0 ≤ ret := by
  unfold gained
  split <;> simp [*]

namespace World

/-! ## When a handler comes back -/

section

variable {H : Type} {w w' : World H}

/-- `comm_close` finds the sockets it releases. -/
def CommClosable (w : World H) (is : SockId) : Prop :=
  ∀ k ∈ (w.socket is).comm,
    ((w.comm k).state = .listening → (w.comm k).info0.socket ≠ none) ∧
      ((w.comm k).state = .closed →
        (w.comm k).info0.socket ≠ none ∧ (w.comm k).info1.socket ≠ none)

instance (w : World H) (is : SockId) : Decidable (w.CommClosable is) :=
  inferInstanceAs (Decidable (∀ _ ∈ _, _))

/-- A record that `process_close_call` does not stop on: a plain one has neither the tag of a
    socket nor that of a pipe without its pipe. -/
def ClosableRef (w : World H) : DescRef → Prop
  | .plain d => w.tag (.plain d) ≠ (.pipe, none) ∧ (w.tag (.plain d)).1 ≠ .socket
  | .socket is => InetLike (w.socket is) → w.CommClosable is

instance (w : World H) : (ref : DescRef) → Decidable (w.ClosableRef ref)
  | .plain _ => inferInstanceAs (Decidable (_ ∧ _))
  | .socket _ => inferInstanceAs (Decidable (_ → _))

def Closable (w : World H) (proc : Pid) (fd : Int) : Prop :=
  ∀ ref ∈ w.processDescriptorGetFd proc fd, w.ClosableRef ref

instance (w : World H) (proc : Pid) (fd : Int) : Decidable (w.Closable proc fd) :=
  inferInstanceAs (Decidable (∀ _ ∈ _, _))

/-- A record that can be duplicated. The loops over the ends of a pipe do not stop when they
    append what they look for. -/
def DuplicableRef (w : World H) (proc : Pid) (oldfd newfd : Int) (ref : DescRef) : Prop :=
  (w.tag ref).1 = .pipe → ∃ pipe ∈ (w.tag ref).2, newfd = oldfd →
    { fd := oldfd, proc := proc } ∉ (w.pipes.cell pipe).readEnd ∧
      { fd := oldfd, proc := proc } ∉ (w.pipes.cell pipe).writeEnd

instance (w : World H) (proc : Pid) (oldfd newfd : Int) (ref : DescRef) :
    Decidable (w.DuplicableRef proc oldfd newfd ref) := inferInstanceAs (Decidable (_ → _))

def Duplicable (w : World H) (proc : Pid) (oldfd newfd : Int) : Prop :=
  ∃ ref ∈ w.processDescriptorGetFd proc oldfd, w.DuplicableRef proc oldfd newfd ref

instance (w : World H) (proc : Pid) (oldfd newfd : Int) : Decidable (w.Duplicable proc oldfd newfd) :=
  inferInstanceAs (Decidable (∃ _ ∈ _, _))

theorem dupPipe_returns_iff {proc : Pid} {oldfd newfd : Int} {ref : DescRef} :
    (∃ w', w.dupPipe proc oldfd newfd ref = .ok w') ↔ w.DuplicableRef proc oldfd newfd ref := by
  unfold dupPipe DuplicableRef tag
  split
  · rename_i typed
    split
    · rename_i null
      simp [typed, null]
    · rename_i pipe piped
      dsimp only
      by_cases apart : newfd = oldfd
      · subst apart
        rw [copyEnds_self, copyEnds_self]
        by_cases read : { fd := newfd, proc := proc } ∈ (w.pipes.cell pipe).readEnd
        · simp [typed, piped, read]
        · by_cases write : { fd := newfd, proc := proc } ∈ (w.pipes.cell pipe).writeEnd
          · simp [typed, piped, write]
          · simp [typed, piped, read, write]
      · rw [copyEnds_of_ne apart, copyEnds_of_ne apart]
        simp [typed, piped, apart]
  · rename_i other
    simp [other]

theorem syscallDupPost_returns_iff {proc : Pid} {oldfd newfd : Int} :
    (∃ w', w.syscallDupPost proc oldfd newfd = .ok w') ↔ w.Duplicable proc oldfd newfd := by
  unfold syscallDupPost Duplicable
  split
  · rename_i absent
    simp [absent]
  · rename_i ref found
    have pipes : ((w.addRefcount ref 1).processDescriptorSetFd proc newfd (some ref)).pipes =
        w.pipes := by
      cases ref <;> rfl
    rw [dupPipe_returns_iff, DuplicableRef, tag_setFd, tag_addRefcount, pipes]
    simp [found, DuplicableRef]

theorem closable_addRefcount (ref : DescRef) (n : Int) (proc : Pid) (fd : Int) :
    (w.addRefcount ref n).Closable proc fd ↔ w.Closable proc fd := by
  have same : (w.addRefcount ref n).ClosableRef = w.ClosableRef := by
    funext target
    cases target with
    | plain d => simp only [ClosableRef, tag_addRefcount]
    | socket is =>
        have socket : InetLike ((w.addRefcount ref n).socket is) = InetLike (w.socket is) ∧
            ((w.addRefcount ref n).socket is).comm = (w.socket is).comm := by
          cases ref with
          | plain => exact ⟨rfl, rfl⟩
          | socket is' =>
              simp only [addRefcount, modifySocket, World.socket, Heap.cell_modify]
              split <;> exact ⟨rfl, rfl⟩
        have comms : (w.addRefcount ref n).comms = w.comms := by
          cases ref <;> rfl
        simp only [ClosableRef, CommClosable, socket.1, socket.2, World.comm, comms]
  unfold Closable
  rw [getFd_addRefcount, same]

end

section

variable {H : Type} [DecidableEq H] {w w' : World H}

theorem commClose_returns_iff {is : SockId} : (∃ w', w.commClose is = .ok w') ↔ w.CommClosable is := by
  unfold commClose CommClosable
  split
  · rename_i detached
    simp [detached]
  · rename_i k attached
    split
    · rename_i listening
      split
      · rename_i null
        simp [attached, listening, null]
      · rename_i s first
        simp [attached, listening, first]
    · rename_i closed
      split
      · rename_i s t first second
        simp [attached, closed, first, second]
      · rename_i missing
        cases first : (w.comm k).info0.socket with
        | none => simp [attached, closed, first]
        | some s =>
            cases second : (w.comm k).info1.socket with
            | none => simp [attached, closed, second]
            | some t => exact absurd second (missing s t first)
    · rename_i opened
      simp [attached, opened]
    · rename_i shut
      simp [attached, shut]

theorem processCloseCall_returns_iff {proc : Pid} {fd : Int} :
    (∃ w', w.processCloseCall proc fd = .ok w') ↔ w.Closable proc fd := by
  unfold Closable
  cases found : w.processDescriptorGetFd proc fd with
  | none => simp [processCloseCall, found]
  | some ref =>
      simp only [Option.mem_def, Option.some.injEq, forall_eq']
      cases ref with
      | plain d =>
          rw [processCloseCall_plain found, ClosableRef]
          rcases w.tag (.plain d) with ⟨type, pipe⟩
          cases type with
          | pipe => cases pipe <;> simp
          | socket => simp
          | stdin | stdout | stderr | classic => simp
      | socket is =>
          have begun : (w.beginClose is).CommClosable is ↔ w.CommClosable is := by
            have attached : ((w.beginClose is).socket is).comm = (w.socket is).comm := by
              simp [beginClose, addRefNb, addRefcount, modifySocket, World.socket]
            unfold CommClosable
            rw [attached]
            rfl
          rw [processCloseCall_socket found, ClosableRef, ← begun, ← commClose_returns_iff]
          split
          · rename_i network
            simp [network, bind_eq_ok]
          · rename_i other
            simp [other, bind_eq_ok]

theorem closeTarget_returns_iff {proc : Pid} {newfd : Int} :
    (∃ w', w.closeTarget proc newfd = .ok w') ↔ w.Closable proc newfd := by
  unfold closeTarget
  split
  · rw [processCloseCall_returns_iff, closable_addRefcount]
  · rename_i absent
    simp [Closable, absent]

/-- A descriptor closed onto itself has lost its ends, so the loops of `dup2` always stop. -/
theorem syscallDup2Post_returns_iff {proc : Pid} {oldfd newfd : Int} :
    (∃ w', w.syscallDup2Post proc oldfd newfd = .ok w') ↔
      w.Closable proc newfd ∧
        ∃ ref, w.processDescriptorGetFd proc oldfd = some ref ∧ w.tag ref ≠ (.pipe, none) := by
  unfold syscallDup2Post
  split
  · rename_i absent
    simp [absent]
  · rename_i ref found
    have closing : (∃ w₁, (w.addRefcount ref 1).closeTarget proc newfd = .ok w₁) ↔
        w.Closable proc newfd := by
      rw [closeTarget_returns_iff, closable_addRefcount]
    have copying : ∀ w₁, (w.addRefcount ref 1).closeTarget proc newfd = .ok w₁ →
        ((∃ w', (w₁.processDescriptorSetFd proc newfd (some ref)).dupPipe proc oldfd newfd ref =
          .ok w') ↔ w.tag ref ≠ (.pipe, none)) := by
      intro w₁ closed
      obtain ⟨-, pipes, tag, -⟩ := closeTarget_file closed
      rw [closedPipes_addRefcount] at pipes
      rw [tag_addRefcount] at tag
      have piped : (w₁.processDescriptorSetFd proc newfd (some ref)).pipes = w₁.pipes := rfl
      rw [dupPipe_returns_iff, DuplicableRef, tag_setFd, tag, piped, pipes]
      rcases shape : w.tag ref with ⟨type, pipe⟩
      by_cases typed : type = .pipe
      · subst typed
        cases pipe with
        | none => simp
        | some pipe =>
            refine iff_of_true (fun _ => ⟨pipe, rfl, ?_⟩) (by simp)
            rintro rfl
            rw [closedPipes_of_pipe found shape, cell_closePipe]
            simp
      · simp [typed]
    rw [← closing]
    simp only [found, Option.some.injEq, exists_eq_left', bind_eq_ok]
    constructor
    · rintro ⟨w', w₁, closed, copied⟩
      exact ⟨⟨w₁, closed⟩, (copying w₁ closed).mp ⟨w', copied⟩⟩
    · rintro ⟨⟨w₁, closed⟩, whole⟩
      obtain ⟨w', copied⟩ := (copying w₁ closed).mpr whole
      exact ⟨w', w₁, closed, copied⟩

end

/-! ## The numbers in the tables -/

section

variable {H : Type} {w w' : World H}

/-- The process has a descriptor with this number. -/
def Knows (w : World H) (proc : Pid) (fd : Int) : Prop :=
  (w.processDescriptorGetFd proc fd).isSome = true

instance (w : World H) (proc : Pid) (fd : Int) : Decidable (w.Knows proc fd) :=
  inferInstanceAs (Decidable (_ = _))

/-- All descriptor tables and descriptors are the same. -/
structure Unchanged (w w' : World H) : Prop where
  tables : ∀ proc fd, w'.processDescriptorGetFd proc fd = w.processDescriptorGetFd proc fd
  records : ∀ ref, w'.fileDesc ref = w.fileDesc ref

theorem Unchanged.refl (w : World H) : w.Unchanged w := ⟨fun _ _ => rfl, fun _ => rfl⟩

theorem knows_of_getFd {proc : Pid} {fd : Int} {ref : DescRef}
    (after : ∀ q g, w'.processDescriptorGetFd q g =
      if q = proc ∧ g = fd then some ref else w.processDescriptorGetFd q g) (q : Pid) (g : Int) :
    w'.Knows q g ↔ q = proc ∧ g ∈ ({fd} : Finset Int) ∨ w.Knows q g := by
  unfold Knows
  rw [after]
  split
  · rename_i here
    simp [here]
  · rename_i elsewhere
    simp [elsewhere]

end

section

variable {H : Type} [DecidableEq H] {w w' : World H}

/-- Closing the target of `dup2` that is a duplicate already. -/
theorem closeTarget_duplicate {proc : Pid} {newfd : Int} {ref : DescRef}
    (found : w.processDescriptorGetFd proc newfd = some ref) :
    (w.addRefcount ref 1).closeTarget proc newfd = w.processCloseCall proc newfd := by
  simp [closeTarget, getFd_addRefcount, found, addRefcount_addRefcount]

/-- Closing a socket lowers the count of its descriptor. -/
theorem refcount_processCloseCall {proc : Pid} {fd : Int} {is : SockId}
    (found : w.processDescriptorGetFd proc fd = some (.socket is))
    (done : w.processCloseCall proc fd = .ok w') :
    (w'.fileDesc (.socket is)).refcount = (w.fileDesc (.socket is)).refcount - 1 := by
  rw [processCloseCall_socket found] at done
  obtain ⟨w₁, closed, rest⟩ := bind_eq_ok.mp done
  cases rest
  have shut : (w.beginClose is).SameFiles w₁ := by
    split at closed
    · exact sameFiles_commClose closed
    · cases closed
      exact ⟨rfl, rfl, rfl, rfl, fun _ => rfl⟩
  have begun : (w.beginClose is).fileDesc (.socket is) = w.fileDesc (.socket is) := by
    rw [beginClose, (sameFiles_addRefNb ..).fileDesc, addRefcount_addRefcount]
    simp
  have ended : ((w₁.endClose proc fd is).fileDesc (.socket is)).refcount =
      (w₁.fileDesc (.socket is)).refcount - 1 := by
    simp [endClose, fileDesc, addRefcount, modifySocket, World.socket, processDescriptorSetFd]
    rfl
  rw [ended, shut.fileDesc, begun]

/-- A `dup2` leaves everything as it was only onto a duplicate of a plain descriptor. -/
theorem unchanged_syscallDup2Post_iff {proc : Pid} {oldfd newfd : Int} {ref : DescRef}
    (found : w.processDescriptorGetFd proc oldfd = some ref)
    (done : w.syscallDup2Post proc oldfd newfd = .ok w') :
    w.Unchanged w' ↔
      w.processDescriptorGetFd proc newfd = some ref ∧ ∃ d, ref = .plain d := by
  have after := getFd_syscallDup2Post done
  obtain ⟨ref', w₁, pipes, found', closed, rfl⟩ := syscallDup2Post_ok done
  obtain rfl : ref = ref' := by simpa [found] using found'
  have records : ∀ ref', ({ w₁.processDescriptorSetFd proc newfd (some ref) with pipes := pipes } :
      World H).fileDesc ref' = w₁.fileDesc ref' := by
    intro ref'
    cases ref' <;> rfl
  constructor
  · intro unchanged
    have target : w.processDescriptorGetFd proc newfd = some ref := by
      rw [← unchanged.tables, after, if_pos ⟨rfl, rfl⟩, found]
    rw [closeTarget_duplicate target] at closed
    refine ⟨target, ?_⟩
    cases ref with
    | plain d => exact ⟨d, rfl⟩
    | socket is =>
        have counted := refcount_processCloseCall target closed
        rw [← records, unchanged.records] at counted
        omega
  · rintro ⟨target, d, rfl⟩
    rw [closeTarget_duplicate target, processCloseCall_plain target] at closed
    refine ⟨fun q g => ?_, fun ref' => ?_⟩
    · rw [after]
      split
      · rename_i here
        rw [here.1, here.2, found, target]
      · rfl
    · rw [records]
      split at closed
      · cases closed
      · cases closed
      · cases closed
        cases ref' <;> rfl

end

end World

def ebadf : Int := 9

/-- The kernel's table after a call with its result. A `close` releases the descriptor whatever goes
    wrong with the file, unless there is no such descriptor. -/
def Completed.kernel (c : Completed) (opened : Finset Int) : Finset Int :=
  match c.call with
  | .close fd => if c.ret = -ebadf then opened else opened.erase fd
  | _ => gained c.ret ∪ opened

/-- Simterpose's tables and flags, and the descriptors that are open in the tracees. -/
structure Tracing (H : Type) extends Traced H where
  opened : Pid → Finset Int

namespace Tracing

section

variable {H : Type} {s s' : Tracing H} {who : Set Pid}

/-- The numbers in the tables of some processes are those open in the tracees. -/
structure Mirrors (who : Set Pid) (s : Tracing H) : Prop where
  same : ∀ proc ∈ who, ∀ fd, fd ∈ s.opened proc ↔ s.world.Knows proc fd
  nonneg : ∀ proc ∈ who, ∀ fd ∈ s.opened proc, 0 ≤ fd

theorem Mirrors.knows_nonneg (mirrors : s.Mirrors who) {proc : Pid} (mine : proc ∈ who) {fd : Int}
    (known : s.world.Knows proc fd) : 0 ≤ fd :=
  mirrors.nonneg proc mine fd ((mirrors.same proc mine fd).mpr known)

/-- When each of the two tables of a process gains some numbers, they go on to agree if
    neither gains one that the other has not. -/
theorem Mirrors.gain_iff (mirrors : s.Mirrors who) {proc : Pid} (mine : proc ∈ who)
    {entered given : Finset Int}
    (table : ∀ q g, s'.world.Knows q g ↔ q = proc ∧ g ∈ entered ∨ s.world.Knows q g)
    (kernel : s'.opened = Function.update s.opened proc (given ∪ s.opened proc))
    (nonneg : ∀ g ∈ given, 0 ≤ g) :
    s'.Mirrors who ↔ (∀ g ∈ entered, g ∈ given ∨ s.world.Knows proc g) ∧
      ∀ g ∈ given, g ∈ entered ∨ s.world.Knows proc g := by
  have opened : ∀ q ∈ who, ∀ g, g ∈ s'.opened q ↔ q = proc ∧ g ∈ given ∨ s.world.Knows q g := by
    intro q its g
    rw [kernel]
    by_cases here : q = proc
    · subst here
      simp [mirrors.same q its]
    · simp [here, mirrors.same q its]
  constructor
  · intro after
    have both := fun g =>
      (opened proc mine g).symm.trans ((after.same proc mine g).trans (table proc g))
    simp only [true_and] at both
    exact ⟨fun g mem => (both g).mpr (.inl mem), fun g mem => (both g).mp (.inl mem)⟩
  · rintro ⟨first, second⟩
    refine ⟨fun q its g => ?_, fun q its g mem => ?_⟩
    · rw [opened q its, table]
      constructor
      · rintro (⟨rfl, mem⟩ | known)
        · exact (second g mem).imp (fun h => ⟨rfl, h⟩) id
        · exact .inr known
      · rintro (⟨rfl, mem⟩ | known)
        · exact (first g mem).imp (fun h => ⟨rfl, h⟩) id
        · exact .inr known
    · rcases (opened q its g).mp mem with ⟨-, mem⟩ | known
      · exact nonneg g mem
      · exact mirrors.knows_nonneg its known

end

section

variable {H : Type} [DecidableEq H] {s s' : Tracing H} {who : Set Pid}

/-- A completed call, with the kernel's table. -/
def perform (s : Tracing H) (c : Completed) : Result (Tracing H) := do
  let t ← s.toTraced.complete c
  return { t with opened := Function.update s.opened c.proc (c.kernel (s.opened c.proc)) }

/-- One completed call; new objects are at addresses never used before. -/
def Step (s : Tracing H) (c : Completed) (s' : Tracing H) : Prop := s.perform c = .ok s'

theorem Step.functional (s : Tracing H) (c : Completed) (s₁ s₂ : Tracing H) (first : s.Step c s₁)
    (second : s.Step c s₂) : s₁ = s₂ := Except.ok.inj (first.symm.trans second)

theorem step_iff {c : Completed} : s.Step c s' ↔
    ∃ w, s.world.handleExit c.proc (s.seen c) c.call = .ok w ∧
      s' = { world := w, inSyscall := s.flagsAfter c
             opened := Function.update s.opened c.proc (c.kernel (s.opened c.proc)) } := by
  simp only [Step, perform, Traced.complete_eq, bind_eq_ok]
  constructor
  · rintro ⟨t, ⟨w, done, rest⟩, same⟩
    cases rest
    cases pure_eq_ok.mp same
    exact ⟨w, done, rfl⟩
  · rintro ⟨w, done, rfl⟩
    exact ⟨_, ⟨w, done, rfl⟩, rfl⟩

/-- What `dup2` needs of the record it duplicates: when the kernel failed, the target must
    be a duplicate already. -/
def AgreesOnto (s : Tracing H) (proc : Pid) (newfd ret : Int) (ref : DescRef) : Prop :=
  s.world.tag ref ≠ (.pipe, none) ∧
    if 0 ≤ ret then ret = newfd ∨ s.world.Knows proc newfd ∧ s.world.Knows proc ret
    else s.world.processDescriptorGetFd proc newfd = some ref ∧ ∃ d, ref = .plain d

instance (s : Tracing H) (proc : Pid) (newfd ret : Int) :
    (ref : DescRef) → Decidable (s.AgreesOnto proc newfd ret ref)
  | .plain d => decidable_of_iff (s.world.tag (.plain d) ≠ (.pipe, none) ∧
      if 0 ≤ ret then ret = newfd ∨ s.world.Knows proc newfd ∧ s.world.Knows proc ret
      else s.world.processDescriptorGetFd proc newfd = some (.plain d)) (by simp [AgreesOnto])
  | .socket is => decidable_of_iff (s.world.tag (.socket is) ≠ (.pipe, none) ∧
      if 0 ≤ ret then ret = newfd ∨ s.world.Knows proc newfd ∧ s.world.Knows proc ret
      else False) (by simp [AgreesOnto])

/-- The condition under which a call leaves both tables with the same numbers. -/
def Agrees (s : Tracing H) (c : Completed) : Prop :=
  match c.call with
  | .openFile path _ _ | .creat path _ =>
      path.Mapped ∧ (c.ret < 0 ∨ s.inSyscall c.proc = false ∨ s.world.Knows c.proc c.ret)
  | .socket .. =>
      c.ret < 0 ∨ if s.inSyscall c.proc then s.world.Knows c.proc c.ret
        else (0 < c.ret ↔ ¬ s.world.Knows c.proc c.ret)
  | .dup oldfd =>
      s.inSyscall c.proc = false ∧ 0 ≤ c.ret ∧ s.world.Duplicable c.proc oldfd c.ret
  | .dup2 oldfd newfd =>
      s.world.Closable c.proc newfd ∧
        ∃ ref ∈ s.world.processDescriptorGetFd c.proc oldfd, s.AgreesOnto c.proc newfd c.ret ref
  | .dupfd fd _ => s.inSyscall c.proc = false ∧ 0 ≤ c.ret ∧ s.world.Knows c.proc fd
  | .close fd =>
      if c.ret = 0 then s.world.Closable c.proc fd else c.ret = -ebadf ∨ ¬ s.world.Knows c.proc fd

instance (s : Tracing H) : (c : Completed) → Decidable (s.Agrees c)
  | ⟨_, .openFile .., _⟩ | ⟨_, .creat .., _⟩ => inferInstanceAs (Decidable (_ ∧ (_ ∨ _ ∨ _)))
  | ⟨_, .socket .., _⟩ => inferInstanceAs (Decidable (_ ∨ ite ..))
  | ⟨_, .dup _, _⟩ => inferInstanceAs (Decidable (_ ∧ _ ∧ _))
  | ⟨_, .dup2 .., _⟩ => inferInstanceAs (Decidable (_ ∧ ∃ _ ∈ _, _))
  | ⟨_, .dupfd .., _⟩ => inferInstanceAs (Decidable (_ ∧ _ ∧ _))
  | ⟨_, .close _, _⟩ => inferInstanceAs (Decidable (ite ..))

/-- A call that makes descriptors, seen from the two tables. -/
theorem good_iff (mirrors : s.Mirrors who) {c : Completed} (mine : c.proc ∈ who) {entered : Finset Int}
    (makes : c.kernel (s.opened c.proc) = gained c.ret ∪ s.opened c.proc)
    (table : ∀ w', s.world.handleExit c.proc (s.seen c) c.call = .ok w' → ∀ q g,
      w'.Knows q g ↔ q = c.proc ∧ g ∈ entered ∨ s.world.Knows q g) :
    (∃ s', s.Step c s' ∧ s'.Mirrors who ∧ (c.ret < 0 → s.world.Unchanged s'.world)) ↔
      (∀ g ∈ entered, g ∈ gained c.ret ∨ s.world.Knows c.proc g) ∧
      (∀ g ∈ gained c.ret, g ∈ entered ∨ s.world.Knows c.proc g) ∧
      ∃ w', s.world.handleExit c.proc (s.seen c) c.call = .ok w' ∧
        (c.ret < 0 → s.world.Unchanged w') := by
  have agree : ∀ w', s.world.handleExit c.proc (s.seen c) c.call = .ok w' →
      (Mirrors who { world := w', inSyscall := s.flagsAfter c
                     opened := Function.update s.opened c.proc (c.kernel (s.opened c.proc)) } ↔
        (∀ g ∈ entered, g ∈ gained c.ret ∨ s.world.Knows c.proc g) ∧
          ∀ g ∈ gained c.ret, g ∈ entered ∨ s.world.Knows c.proc g) := by
    intro w' done
    apply mirrors.gain_iff mine (table w' done)
    · rw [makes]
    · intro g mem
      obtain ⟨rfl, nonneg⟩ := mem_gained.mp mem
      exact nonneg
  simp only [step_iff]
  constructor
  · rintro ⟨s', ⟨w', done, rfl⟩, after, failed⟩
    obtain ⟨first, second⟩ := (agree w' done).mp after
    exact ⟨first, second, w', done, failed⟩
  · rintro ⟨first, second, w', done, failed⟩
    exact ⟨_, ⟨w', done, rfl⟩, (agree w' done).mpr ⟨first, second⟩, failed⟩

theorem enosys_pos : 0 < enosys := by decide

/-- A call whose handler does nothing is right when the kernel gave out no new number. -/
theorem agrees_idle (mirrors : s.Mirrors who) {c : Completed} (mine : c.proc ∈ who)
    (makes : c.kernel (s.opened c.proc) = gained c.ret ∪ s.opened c.proc)
    (handled : s.world.handleExit c.proc (s.seen c) c.call = .ok s.world) :
    (∃ s', s.Step c s' ∧ s'.Mirrors who ∧ (c.ret < 0 → s.world.Unchanged s'.world)) ↔
      c.ret < 0 ∨ s.world.Knows c.proc c.ret := by
  have table : ∀ w', s.world.handleExit c.proc (s.seen c) c.call = .ok w' → ∀ q g,
      w'.Knows q g ↔ q = c.proc ∧ g ∈ (∅ : Finset Int) ∨ s.world.Knows q g := by
    intro w' done q g
    cases handled.symm.trans done
    simp
  rw [good_iff mirrors mine makes table, handled]
  simp only [mem_gained]
  constructor
  · rintro ⟨-, second, -⟩
    by_cases failed : c.ret < 0
    · exact .inl failed
    · exact .inr ((second c.ret ⟨rfl, by omega⟩).resolve_left (by simp))
  · intro fine
    refine ⟨by simp, ?_, s.world, rfl, fun _ => .refl _⟩
    rintro g ⟨rfl, nonneg⟩
    exact .inr (fine.resolve_left (by omega))

/-- A call whose handler enters the number the kernel gave out. -/
theorem agrees_entered (mirrors : s.Mirrors who) {c : Completed} (mine : c.proc ∈ who)
    (makes : c.kernel (s.opened c.proc) = gained c.ret ∪ s.opened c.proc) (nonneg : 0 ≤ c.ret)
    (table : ∀ w', s.world.handleExit c.proc (s.seen c) c.call = .ok w' → ∀ q g,
      w'.Knows q g ↔ q = c.proc ∧ g ∈ ({c.ret} : Finset Int) ∨ s.world.Knows q g) :
    (∃ s', s.Step c s' ∧ s'.Mirrors who ∧ (c.ret < 0 → s.world.Unchanged s'.world)) ↔
      ∃ w', s.world.handleExit c.proc (s.seen c) c.call = .ok w' := by
  rw [good_iff mirrors mine makes table]
  simp only [mem_gained, Finset.mem_singleton]
  constructor
  · rintro ⟨-, -, w', done, -⟩
    exact ⟨w', done⟩
  · rintro ⟨w', done⟩
    exact ⟨fun g mem => .inl ⟨mem, nonneg⟩, fun g mem => .inl mem.1, w', done, fun _ => by omega⟩

/-- A call whose handler copies a path and then enters the result when it is a number. -/
theorem agrees_create (mirrors : s.Mirrors who) {c : Completed} (mine : c.proc ∈ who) {desc : FdDescriptor}
    {path : Pathname} {syscall : String}
    (makes : c.kernel (s.opened c.proc) = gained c.ret ∪ s.opened c.proc)
    (sees : s.seen c = if s.inSyscall c.proc then -enosys else c.ret)
    (handled : s.world.handleExit c.proc (s.seen c) c.call = path.copy syscall >>= fun _ =>
      .ok (if s.seen c ≥ 0 then s.world.enterDesc c.proc (s.seen c) desc else s.world)) :
    (∃ s', s.Step c s' ∧ s'.Mirrors who ∧ (c.ret < 0 → s.world.Unchanged s'.world)) ↔
      path.Mapped ∧ (c.ret < 0 ∨ s.inSyscall c.proc = false ∨ s.world.Knows c.proc c.ret) := by
  have pos := enosys_pos
  by_cases mapped : path.Mapped
  swap
  · -- the handler throws before it looks at the result
    refine iff_of_false ?_ fun fine => mapped fine.1
    rintro ⟨s', step, -⟩
    obtain ⟨w, done, -⟩ := step_iff.mp step
    rw [handled, path.copy_eq, if_neg mapped] at done
    cases done
  rw [path.copy_eq, if_pos mapped] at handled
  replace handled : s.world.handleExit c.proc (s.seen c) c.call =
    .ok (if s.seen c ≥ 0 then s.world.enterDesc c.proc (s.seen c) desc else s.world) := handled
  rw [and_iff_right mapped]
  by_cases nonneg : s.seen c ≥ 0
  · cases flag : s.inSyscall c.proc with
    | true =>
        rw [sees, flag, if_pos rfl] at nonneg
        omega
    | false =>
        have same : s.seen c = c.ret := by rw [sees, flag]; rfl
        rw [if_pos nonneg, same] at handled
        rw [same] at nonneg
        have table : ∀ w', s.world.handleExit c.proc (s.seen c) c.call = .ok w' → ∀ q g,
            w'.Knows q g ↔ q = c.proc ∧ g ∈ ({c.ret} : Finset Int) ∨ s.world.Knows q g := by
          intro w' done
          rw [same, handled] at done
          cases done
          exact World.knows_of_getFd fun q g => World.getFd_enterDesc ..
        rw [agrees_entered mirrors mine makes nonneg table, same, handled]
        simp
  · rw [if_neg nonneg] at handled
    rw [agrees_idle mirrors mine makes handled]
    cases flag : s.inSyscall c.proc with
    | true => simp
    | false =>
        rw [sees, flag] at nonneg
        exact iff_of_true (.inl (by simpa using nonneg)) (.inl (by simpa using nonneg))

theorem agrees_socket (mirrors : s.Mirrors who) {proc : Pid} (mine : proc ∈ who) (domain type protocol ret : Int) :
    (∃ s', s.Step ⟨proc, .socket domain type protocol, ret⟩ s' ∧ s'.Mirrors who ∧
        (ret < 0 → s.world.Unchanged s'.world)) ↔
      s.Agrees ⟨proc, .socket domain type protocol, ret⟩ := by
  have pos := enosys_pos
  have idle : ∀ seen : Int, seen ≤ 0 →
      s.world.handleExit proc seen (.socket domain type protocol) = .ok s.world := by
    intro seen none_
    exact if_neg (by omega)
  simp only [Agrees]
  cases flag : s.inSyscall proc with
  | true =>
      have sees : s.seen ⟨proc, .socket domain type protocol, ret⟩ = -enosys := if_pos flag
      rw [if_pos rfl]
      exact agrees_idle mirrors mine rfl (by rw [sees]; exact idle _ (by omega))
  | false =>
      have sees : s.seen ⟨proc, .socket domain type protocol, ret⟩ = ret :=
        if_neg (by simp [flag])
      rw [if_neg (by simp)]
      by_cases positive : 0 < ret
      · have register : s.world.handleExit proc ret (.socket domain type protocol) =
            s.world.registerSocket proc ret domain type protocol := if_pos positive
        have table : ∀ w', s.world.handleExit proc
            (s.seen ⟨proc, .socket domain type protocol, ret⟩) (.socket domain type protocol) =
              .ok w' → ∀ q g, w'.Knows q g ↔
                q = proc ∧ g ∈ ({ret} : Finset Int) ∨ s.world.Knows q g := by
          intro w' done
          rw [sees, register] at done
          obtain ⟨-, rfl⟩ := World.registerSocket_ok done
          exact World.knows_of_getFd fun q g =>
            World.processDescriptorGetFd_confirmRegisterSocket ..
        have nonneg : 0 ≤ ret := positive.le
        refine (agrees_entered mirrors mine rfl nonneg table).trans ?_
        rw [sees, register, World.registerSocket]
        by_cases known : s.world.Knows proc ret
        · simp [positive, known, show (s.world.processDescriptorGetFd proc ret).isSome = true from known]
          omega
        · simp [positive, known, show ¬ (s.world.processDescriptorGetFd proc ret).isSome = true from known]
      · refine (agrees_idle mirrors mine rfl (by rw [sees]; exact idle _ (by omega))).trans ?_
        simp [positive]

/-- A call whose handler enters the result whatever it is. -/
theorem agrees_copy (mirrors : s.Mirrors who) {c : Completed} (mine : c.proc ∈ who) {P : Int → Prop}
    (makes : c.kernel (s.opened c.proc) = gained c.ret ∪ s.opened c.proc)
    (sees : s.seen c = if s.inSyscall c.proc then -enosys else c.ret)
    (returns : (∃ w', s.world.handleExit c.proc (s.seen c) c.call = .ok w') ↔ P (s.seen c))
    (table : ∀ w', s.world.handleExit c.proc (s.seen c) c.call = .ok w' → ∀ q g,
      w'.Knows q g ↔ q = c.proc ∧ g ∈ ({s.seen c} : Finset Int) ∨ s.world.Knows q g) :
    (∃ s', s.Step c s' ∧ s'.Mirrors who ∧ (c.ret < 0 → s.world.Unchanged s'.world)) ↔
      s.inSyscall c.proc = false ∧ 0 ≤ c.ret ∧ P c.ret := by
  have pos := enosys_pos
  rw [good_iff mirrors mine makes table]
  simp only [Finset.mem_singleton, forall_eq, mem_gained]
  constructor
  · rintro ⟨first, -, w', done, -⟩
    -- a negative number is in neither table
    have nonneg : 0 ≤ s.seen c := by
      rcases first with ⟨same, nonneg⟩ | known
      · omega
      · exact mirrors.knows_nonneg mine known
    cases flag : s.inSyscall c.proc with
    | true =>
        rw [sees, flag, if_pos rfl] at nonneg
        omega
    | false =>
        have same : s.seen c = c.ret := by rw [sees, flag]; rfl
        rw [same] at nonneg returns
        exact ⟨rfl, nonneg, returns.mp ⟨w', same ▸ done⟩⟩
  · rintro ⟨flag, nonneg, holds⟩
    have same : s.seen c = c.ret := by rw [sees, flag]; rfl
    rw [same] at returns ⊢
    obtain ⟨w', done⟩ := returns.mpr holds
    exact ⟨.inl ⟨rfl, nonneg⟩, fun g mem => .inl mem.1, w', done, fun failed => by omega⟩

theorem agrees_dup2 (mirrors : s.Mirrors who) {proc : Pid} (mine : proc ∈ who) (oldfd newfd ret : Int) :
    (∃ s', s.Step ⟨proc, .dup2 oldfd newfd, ret⟩ s' ∧ s'.Mirrors who ∧
        (ret < 0 → s.world.Unchanged s'.world)) ↔ s.Agrees ⟨proc, .dup2 oldfd newfd, ret⟩ := by
  have table : ∀ w', s.world.syscallDup2Post proc oldfd newfd = .ok w' → ∀ q g,
      w'.Knows q g ↔ q = proc ∧ g ∈ ({newfd} : Finset Int) ∨ s.world.Knows q g := by
    intro w' done
    obtain ⟨ref, w₁, pipes, found, -, -⟩ := World.syscallDup2Post_ok done
    have after := World.getFd_syscallDup2Post done
    simp only [found] at after
    exact World.knows_of_getFd after
  refine (good_iff mirrors mine (c := ⟨proc, .dup2 oldfd newfd, ret⟩) rfl table).trans ?_
  simp only [Agrees, World.handleExit, Finset.mem_singleton, forall_eq, mem_gained]
  constructor
  · rintro ⟨first, second, w', done, failed⟩
    obtain ⟨closable, ref, found, whole⟩ := World.syscallDup2Post_returns_iff.mp ⟨w', done⟩
    refine ⟨closable, ref, found, whole, ?_⟩
    split
    · rename_i nonneg
      rcases second ret ⟨rfl, nonneg⟩ with same | known
      · exact .inl same
      · exact first.imp (fun given => given.1.symm) (fun target => ⟨target, known⟩)
    · rename_i negative
      exact (World.unchanged_syscallDup2Post_iff found done).mp (failed (by omega))
  · rintro ⟨closable, ref, found, whole, fine⟩
    obtain ⟨w', done⟩ := World.syscallDup2Post_returns_iff.mpr ⟨closable, ref, found, whole⟩
    split at fine
    · rename_i nonneg
      refine ⟨?_, ?_, w', done, fun failed => by omega⟩
      · exact fine.imp (fun same => ⟨same.symm, nonneg⟩) (·.1)
      · rintro g ⟨rfl, -⟩
        exact fine.imp id (·.2)
    · rename_i negative
      refine ⟨.inr ?_, fun g mem => by omega, w', done, fun _ => ?_⟩
      · simp [World.Knows, fine.1]
      · exact (World.unchanged_syscallDup2Post_iff found done).mpr fine

theorem agrees_dupfd (mirrors : s.Mirrors who) {proc : Pid} (mine : proc ∈ who) (fd : Int) (cloexec : Bool) (ret : Int) :
    (∃ s', s.Step ⟨proc, .dupfd fd cloexec, ret⟩ s' ∧ s'.Mirrors who ∧
        (ret < 0 → s.world.Unchanged s'.world)) ↔ s.Agrees ⟨proc, .dupfd fd cloexec, ret⟩ := by
  have dup : ∀ seen : Int, ∃ flags, s.world.handleExit proc seen (.dupfd fd cloexec) =
      if seen = -1 then .error .simulatorExit else s.world.fcntlDup proc fd seen flags := by
    intro seen
    cases cloexec with
    | false => exact ⟨_, rfl⟩
    | true => exact ⟨_, rfl⟩
  have returns : ∀ seen : Int, (∃ w', s.world.handleExit proc seen (.dupfd fd cloexec) = .ok w') ↔
      seen ≠ -1 ∧ s.world.Knows proc fd := by
    intro seen
    obtain ⟨flags, handled⟩ := dup seen
    rw [handled, World.fcntlDup, World.Knows]
    by_cases stops : seen = -1
    · simp [stops]
    · cases s.world.processDescriptorGetFd proc fd <;> simp [stops]
  have table : ∀ seen w', s.world.handleExit proc seen (.dupfd fd cloexec) = .ok w' → ∀ q g,
      w'.Knows q g ↔ q = proc ∧ g ∈ ({seen} : Finset Int) ∨ s.world.Knows q g := by
    intro seen w' done
    obtain ⟨flags, handled⟩ := dup seen
    rw [handled] at done
    split at done
    · cases done
    · obtain ⟨ref, -, rfl⟩ := World.fcntlDup_ok done
      exact World.knows_of_getFd fun q g => World.getFd_enterDesc ..
  refine (agrees_copy mirrors mine (c := ⟨proc, .dupfd fd cloexec, ret⟩)
    (P := fun seen => seen ≠ -1 ∧ s.world.Knows proc fd) rfl rfl (returns _) (table _)).trans ?_
  simp only [Agrees]
  constructor
  · rintro ⟨flag, nonneg, -, known⟩
    exact ⟨flag, nonneg, known⟩
  · rintro ⟨flag, nonneg, known⟩
    exact ⟨flag, nonneg, by omega, known⟩

theorem agrees_close (mirrors : s.Mirrors who) {proc : Pid} (mine : proc ∈ who) (fd ret : Int) :
    (∃ s', s.Step ⟨proc, .close fd, ret⟩ s' ∧ s'.Mirrors who ∧
        (ret < 0 → s.world.Unchanged s'.world)) ↔ s.Agrees ⟨proc, .close fd, ret⟩ := by
  simp only [step_iff, Agrees, Traced.seen, World.handleExit, Completed.kernel]
  by_cases closed : ret = 0
  · subst closed
    have success : (0 : Int) ≠ -ebadf := by decide
    simp only [if_true, if_neg success]
    rw [← World.processCloseCall_returns_iff]
    constructor
    · rintro ⟨s', ⟨w', done, -⟩, -⟩
      exact ⟨w', done⟩
    · rintro ⟨w', done⟩
      refine ⟨_, ⟨w', done, rfl⟩, ⟨fun q its g => ?_, fun q its g mem => ?_⟩,
        fun failed => by omega⟩
      · simp only [World.Knows, World.getFd_processCloseCall done]
        by_cases here : q = proc
        · subst here
          by_cases same : g = fd
          · simp [same]
          · simp [same, mirrors.same q its, World.Knows]
        · simp [here, mirrors.same q its, World.Knows]
      · dsimp only at mem
        by_cases here : q = proc
        · subst here
          rw [Function.update_self] at mem
          exact mirrors.nonneg q its g (Finset.mem_of_mem_erase mem)
        · rw [Function.update_of_ne here] at mem
          exact mirrors.nonneg q its g mem
  · simp only [closed, if_false]
    by_cases absent : ret = -ebadf
    · simp only [absent, if_true, Function.update_eq_self, true_or, iff_true]
      exact ⟨_, ⟨s.world, rfl, rfl⟩, ⟨mirrors.same, mirrors.nonneg⟩, fun _ => .refl _⟩
    · -- the kernel has released what the table still has
      simp only [absent, if_false, false_or]
      rw [← mirrors.same proc mine]
      constructor
      · rintro ⟨s', ⟨w', done, rfl⟩, after, -⟩ isOpen
        cases done
        have known := (mirrors.same proc mine fd).mp isOpen
        have still := (after.same proc mine fd).mpr known
        simp at still
      · intro gone
        rw [Finset.erase_eq_of_notMem gone, Function.update_eq_self]
        exact ⟨_, ⟨s.world, rfl, rfl⟩, ⟨mirrors.same, mirrors.nonneg⟩, fun _ => .refl _⟩

/-- Each call does right exactly when it meets the condition. -/
theorem agrees_iff (mirrors : s.Mirrors who) (c : Completed) (mine : c.proc ∈ who) :
    (∃ s', s.Step c s' ∧ s'.Mirrors who ∧ (c.ret < 0 → s.world.Unchanged s'.world)) ↔ s.Agrees c := by
  obtain ⟨proc, call, ret⟩ := c
  cases call with
  | openFile path flags mode => exact agrees_create mirrors mine rfl rfl rfl
  | creat path mode => exact agrees_create mirrors mine rfl rfl rfl
  | socket domain type protocol => exact agrees_socket mirrors mine domain type protocol ret
  | dup oldfd =>
      refine agrees_copy mirrors mine rfl rfl World.syscallDupPost_returns_iff ?_
      intro w' done
      obtain ⟨ref, pipes, found, -⟩ := World.syscallDupPost_ok done
      have after := World.getFd_syscallDupPost _ done
      simp only [found] at after
      exact World.knows_of_getFd after
  | dup2 oldfd newfd => exact agrees_dup2 mirrors mine oldfd newfd ret
  | dupfd fd cloexec => exact agrees_dupfd mirrors mine fd cloexec ret
  | close fd => exact agrees_close mirrors mine fd ret

/-! ## Any sequence of calls -/

/-- Perform calls one after another, as long as each is allowed by `guard`. -/
theorem exists_calls (guard : Tracing H → Completed → Prop) [∀ s c, Decidable (guard s c)]
    (s₀ : Tracing H) (calls : List Completed) {P : Tracing H → Prop}
    (found : ∃ r ∈ Lib.perform (fun s c => (s.perform c).toOption.map fun s' => (c, s')) guard s₀
      calls, P r.2) : ∃ s, Run (Guarded guard Step) s₀ calls s ∧ P s := by
  have labels : ∀ r ∈ Lib.perform (fun s c => (s.perform c).toOption.map fun s' => (c, s')) guard s₀ calls,
      r.1 = calls := by
    intro r done
    refine labels_of_perform ?_ done
    intro s c e s' stepped
    obtain ⟨_, -, same⟩ := Option.map_eq_some_iff.mp stepped
    exact (congrArg Prod.fst same).symm
  obtain ⟨r, done, holds⟩ := found
  have correct : ∀ (s : Tracing H) (c : Completed) (s' : Tracing H), s.perform c = .ok s' → s.Step c s' :=
    fun _ _ _ done => done
  obtain ⟨es, s, run, rfl, holds⟩ := Run.exists_of_results (P := fun es s => es = calls ∧ P s) correct
    ⟨r, done, labels r done, holds⟩
  exact ⟨s, run, holds⟩

/-- Three hosts and processes without descriptors. -/
def idle : Tracing (Fin 3) where
  world := .threeHosts
  inSyscall _ := false
  opened _ := ∅

theorem idle_mirrors (who : Set Pid) : idle.Mirrors who where
  same := by simp [idle, World.threeHosts, World.boot, World.Knows, World.processDescriptorGetFd]
  nonneg := by simp [idle]

/-- A path in the first page of a memory without others. -/
def firstPage : Pathname where
  mem a := if a < 4096 then some 0 else none
  address := 64

/-- Successful calls of all kinds, a failed `open` and a failed `close`. -/
def mixedCalls : List Completed :=
  [⟨0, .openFile firstPage 0 0, 0⟩, ⟨0, .socket 2 1 0, 3⟩, ⟨0, .dup 3, 4⟩, ⟨0, .dupfd 0 true, 5⟩,
    ⟨0, .dup2 4 7, 7⟩, ⟨0, .openFile firstPage 0 0, -2⟩, ⟨0, .close 9, -9⟩, ⟨0, .close 3, 0⟩,
    ⟨1, .creat firstPage 420, 3⟩]

end

end Tracing

end Simterpose
