import Simterpose.Lib.Run
import Simterpose.Network
import Simterpose.Stops

/-! # File offsets

The record of a descriptor has a field for the offset of the file. `open` sets it to zero and
`lseek` to the result register, but the full-mediation build looks at that register when the
call has not been made yet. No other handler touches the field.
-/

namespace Simterpose

open Lib

/-- Whether `address_translation` is defined. -/
inductive Build where
  | fullMediation
  | addressTranslation
  deriving Repr, DecidableEq

/-- The calls that say something about the offset of a file. -/
inductive FileCall where
  | openFile (flags mode : Nat)
  | lseek (fd : Int)
  | read (fd : Int)
  | write (fd : Int)
  deriving Repr, DecidableEq

/-- A call that went through its two stops, with the kernel's result. -/
structure FileOp where
  proc : Pid
  call : FileCall
  ret : Int
  deriving Repr, DecidableEq

namespace World

variable {H : Type} (w : World H)

/-- `process_lseek_call` -/
def processLseekCall (proc : Pid) (fd ret : Int) : Result (World H) :=
  if ret ≥ 0 then
    match w.processDescriptorGetFd proc fd with
    | none => .error .segfault
    | some ref => .ok (w.modifyDesc ref fun desc => { desc with offset := ret })
  else .ok w

/-- What `syscall_read` and `syscall_write` do for a file that is neither a socket nor a pipe. -/
def useFile (proc : Pid) (fd : Int) : Result (World H) :=
  match w.processDescriptorGetFd proc fd with
  | none => .error .segfault
  | some ref => .ok ((w.addRefcount ref 1).addRefcount ref (-1))

/-- The handlers at the entry of a call, with the result register. -/
def enterFileCall (build : Build) (proc : Pid) (ret : Int) : FileCall → Result (World H)
  | .openFile .. | .write _ => .ok w
  | .lseek fd => if build = .fullMediation then w.processLseekCall proc fd ret else .ok w
  | .read fd => w.useFile proc fd

/-- The handlers at the exit. -/
def leaveFileCall (build : Build) (proc : Pid) (ret : Int) : FileCall → Result (World H)
  | .openFile flags mode => .ok (w.syscallOpen proc flags mode ret)
  | .lseek fd => if build = .addressTranslation then w.processLseekCall proc fd ret else .ok w
  | .read _ => .ok w
  | .write fd => w.useFile proc fd

end World

namespace Traced

variable {H : Type} (s : Traced H)

def fileStop (build : Build) (proc : Pid) (ret : Int) (call : FileCall) : Result (Traced H) :=
  if s.inSyscall proc then do
    let w ← s.world.leaveFileCall build proc ret call
    return { s.procOutside proc with world := w }
  else do
    let w ← s.world.enterFileCall build proc ret call
    return { s.procInside proc with world := w }

def completeFileCall (build : Build) (op : FileOp) : Result (Traced H) := do
  let s ← s.fileStop build op.proc (-enosys) op.call
  s.fileStop build op.proc op.ret op.call

end Traced

/-! ## The kernel's offsets -/

/-- The offset of each open file, by process and descriptor. -/
abbrev Offsets := Pid → Int → Option Int

namespace Offsets

def set (offsets : Offsets) (proc : Pid) (fd offset : Int) : Offsets := fun q g =>
  if q = proc ∧ g = fd then some offset else offsets q g

theorem set_self {offsets : Offsets} {proc : Pid} {fd offset : Int}
    (here : offsets proc fd = some offset) : offsets.set proc fd offset = offsets := by
  funext q g
  unfold set
  split
  · rename_i same
    rw [same.1, same.2, here]
  · rfl

end Offsets

namespace FileOp

/-- What a call does to the offsets: those read and written move the offset along. -/
def offsets (op : FileOp) (offsets : Offsets) : Offsets :=
  match op.call with
  | .openFile .. => if op.ret ≥ 0 then offsets.set op.proc op.ret 0 else offsets
  | .lseek fd => if op.ret ≥ 0 then offsets.set op.proc fd op.ret else offsets
  | .read fd | .write fd =>
      if op.ret > 0 then offsets.set op.proc fd ((offsets op.proc fd).getD 0 + op.ret) else offsets

/-- The descriptor is that of a file opened before. -/
def Known (op : FileOp) (offsets : Offsets) : Prop :=
  match op.call with
  | .openFile .. => True
  | .lseek fd | .read fd | .write fd => ∃ offset, offsets op.proc fd = some offset

/-- The call leaves the offset where it was, or is one that the build keeps track of. -/
def Keeps (build : Build) (op : FileOp) (offsets : Offsets) : Prop :=
  match op.call with
  | .openFile .. => True
  | .lseek fd => build = .fullMediation → op.ret ≥ 0 → offsets op.proc fd = some op.ret
  | .read _ | .write _ => op.ret ≤ 0

end FileOp

/-- The simulator beside the kernel. -/
structure Observed (H : Type) where
  traced : Traced H
  offsets : Offsets

namespace Observed

variable {H : Type} {s s' : Observed H} {build : Build} {op : FileOp}

/-- A call on a known descriptor. -/
def Step (build : Build) (s : Observed H) (op : FileOp) (s' : Observed H) : Prop :=
  op.Known s.offsets ∧ s.traced.completeFileCall build op = .ok s'.traced ∧
    s'.offsets = op.offsets s.offsets

/-- The field of each descriptor is the kernel's offset. -/
def Tracked (s : Observed H) : Prop :=
  ∀ proc fd offset, s.offsets proc fd = some offset →
    ∃ ref, s.traced.world.processDescriptorGetFd proc fd = some ref ∧
      (s.traced.world.fileDesc ref).offset = offset

/-- No process is inside of a call, and each open file has a record of its own. -/
structure Separate (s : Observed H) : Prop where
  outside : ∀ proc, s.traced.inSyscall proc = false
  stored : ∀ proc fd offset, s.offsets proc fd = some offset →
    ∃ d < s.traced.world.descs.next, s.traced.world.processDescriptorGetFd proc fd = some (.plain d)
  apart : ∀ proc fd q g ref, s.offsets proc fd ≠ none → s.offsets q g ≠ none →
    s.traced.world.processDescriptorGetFd proc fd = some ref →
    s.traced.world.processDescriptorGetFd q g = some ref → q = proc ∧ g = fd

end Observed

namespace World

variable {H : Type} {w : World H} {proc : Pid} {fd : Int} {ref : DescRef}

theorem useFile_of_found (found : w.processDescriptorGetFd proc fd = some ref) :
    w.useFile proc fd = .ok w := by
  simp only [useFile, found, addRefcount_addRefcount]
  exact congrArg _ (w.addRefcount_zero ref)

theorem processLseekCall_of_found (found : w.processDescriptorGetFd proc fd = some ref) (ret : Int) :
    w.processLseekCall proc fd ret =
      .ok (if ret ≥ 0 then w.modifyDesc ref fun desc => { desc with offset := ret } else w) := by
  simp only [processLseekCall, found]
  split <;> rfl

/-- At the entry `lseek` has no result. -/
theorem processLseekCall_enosys (w : World H) (proc : Pid) (fd : Int) :
    w.processLseekCall proc fd (-enosys) = .ok w := by
  simp [processLseekCall, enosys]

end World

namespace Traced

variable {H : Type} {s : Traced H}

theorem completeFileCall_of_outside (build : Build) (op : FileOp)
    (outside : s.inSyscall op.proc = false) :
    s.completeFileCall build op =
      (s.world.enterFileCall build op.proc (-enosys) op.call >>= fun w =>
        w.leaveFileCall build op.proc op.ret op.call >>= fun w =>
          .ok { world := w, inSyscall := s.inSyscall }) := by
  have back : Function.update (Function.update s.inSyscall op.proc true) op.proc false = s.inSyscall := by
    rw [Function.update_idem, ← outside, Function.update_eq_self]
  unfold completeFileCall fileStop
  rw [outside]
  cases s.world.enterFileCall build op.proc (-enosys) op.call with
  | error => rfl
  | ok w =>
      change (if Function.update s.inSyscall op.proc true op.proc then _ else _) = _
      rw [Function.update_self]
      simp only [if_true, procOutside, procInside, back]
      rfl

end Traced

namespace FileOp

/-- The tables after a call on a descriptor that is found. -/
def tables {H : Type} (build : Build) (op : FileOp) (w : World H) : World H :=
  match op.call with
  | .openFile flags mode => w.syscallOpen op.proc flags mode op.ret
  | .lseek fd =>
      if build = .addressTranslation ∧ op.ret ≥ 0 then
        match w.processDescriptorGetFd op.proc fd with
        | some ref => w.modifyDesc ref fun desc => { desc with offset := op.ret }
        | none => w
      else w
  | .read _ | .write _ => w

end FileOp

namespace Observed

variable {H : Type} {s s' : Observed H} {build : Build} {op : FileOp}

theorem Separate.completes (separate : s.Separate) (known : op.Known s.offsets) :
    s.traced.completeFileCall build op =
      .ok { world := op.tables build s.traced.world, inSyscall := s.traced.inSyscall } := by
  rw [Traced.completeFileCall_of_outside build op (separate.outside op.proc)]
  obtain ⟨proc, call, ret⟩ := op
  cases call with
  | openFile => rfl
  | lseek fd =>
      obtain ⟨offset, here⟩ := known
      obtain ⟨d, -, found⟩ := separate.stored proc fd offset here
      cases build with
      | fullMediation =>
          simp only [World.enterFileCall, if_pos, World.processLseekCall_enosys]
          rfl
      | addressTranslation =>
          have seeks := World.processLseekCall_of_found found ret
          simp only [World.enterFileCall, World.leaveFileCall, FileOp.tables, found, if_pos,
            reduceCtorEq, if_false, true_and]
          change (s.traced.world.processLseekCall proc fd ret >>= _) = _
          rw [seeks]
          rfl
  | read fd =>
      obtain ⟨offset, here⟩ := known
      obtain ⟨d, -, found⟩ := separate.stored proc fd offset here
      simp only [World.enterFileCall, World.useFile_of_found found]
      rfl
  | write fd =>
      obtain ⟨offset, here⟩ := known
      obtain ⟨d, -, found⟩ := separate.stored proc fd offset here
      change (s.traced.world.useFile proc fd >>= _) = _
      rw [World.useFile_of_found found]
      rfl

/-- The state after a call. -/
def after (s : Observed H) (build : Build) (op : FileOp) : Observed H where
  traced := { world := op.tables build s.traced.world, inSyscall := s.traced.inSyscall }
  offsets := op.offsets s.offsets

theorem Separate.step_after (separate : s.Separate) (build : Build) (op : FileOp)
    (known : op.Known s.offsets) : s.Step build op (s.after build op) :=
  ⟨known, separate.completes known, rfl⟩

theorem step_functional (s : Observed H) (op : FileOp) (s₁ s₂ : Observed H)
    (step₁ : s.Step build op s₁) (step₂ : s.Step build op s₂) : s₁ = s₂ := by
  obtain ⟨-, done₁, moved₁⟩ := step₁
  obtain ⟨-, done₂, moved₂⟩ := step₂
  cases s₁
  cases s₂
  cases Except.ok.inj (done₁.symm.trans done₂)
  cases moved₁.trans moved₂.symm
  rfl

theorem Separate.step_eq (separate : s.Separate) (step : s.Step build op s') :
    s' = s.after build op :=
  step_functional s op _ _ step (separate.step_after build op step.1)

/-- Records and descriptors are where they were. -/
theorem Separate.of_same (separate : s.Separate) {w : World H} {offsets : Offsets}
    (table : w.processDescriptorGetFd = s.traced.world.processDescriptorGetFd)
    (next : w.descs.next = s.traced.world.descs.next)
    (older : ∀ proc fd, offsets proc fd ≠ none → s.offsets proc fd ≠ none) :
    Separate { traced := { s.traced with world := w }, offsets := offsets } where
  outside := separate.outside
  stored proc fd offset here := by
    change offsets proc fd = some offset at here
    obtain ⟨offset', here'⟩ := Option.ne_none_iff_exists'.mp (older proc fd (by simp [here]))
    simp only [table, next]
    exact separate.stored proc fd offset' here'
  apart proc fd q g ref known known' := by
    simp only [table]
    exact separate.apart proc fd q g ref (older proc fd known) (older q g known')

theorem Separate.enterDesc (separate : s.Separate) (proc : Pid) (fd offset : Int)
    (desc : FdDescriptor) : Separate
      { traced := { s.traced with world := s.traced.world.enterDesc proc fd desc }
        offsets := s.offsets.set proc fd offset } where
  outside := separate.outside
  stored q g offset' here := by
    simp only [World.getFd_enterDesc]
    split
    · exact ⟨_, Nat.lt_succ_self _, rfl⟩
    · rename_i other
      simp only [Offsets.set, if_neg other] at here
      obtain ⟨d, old, found⟩ := separate.stored q g offset' here
      exact ⟨d, Nat.lt_succ_of_lt old, found⟩
  apart p f q g ref known known' found found' := by
    -- the new record is the descriptor's only
    have fresh : ∀ p f, s.offsets p f ≠ none →
        s.traced.world.processDescriptorGetFd p f ≠ some (.plain s.traced.world.descs.next) := by
      intro p f known same
      obtain ⟨offset, here⟩ := Option.ne_none_iff_exists'.mp known
      obtain ⟨d, old, found⟩ := separate.stored p f offset here
      rw [same] at found
      cases found
      exact Nat.lt_irrefl _ old
    simp only [Offsets.set] at known known'
    rw [World.getFd_enterDesc] at found found'
    split at found
    · rename_i here
      rw [if_pos here] at known
      split at found'
      · rename_i here'
        exact ⟨here'.1.trans here.1.symm, here'.2.trans here.2.symm⟩
      · rename_i other
        rw [if_neg other] at known'
        exact absurd (found'.trans found.symm) (fresh q g known')
    · rename_i other
      rw [if_neg other] at known
      split at found'
      · exact absurd (found.trans found'.symm) (fresh p f known)
      · rename_i other'
        rw [if_neg other'] at known'
        exact separate.apart p f q g ref known known' found found'

theorem Separate.step (separate : s.Separate) (step : s.Step build op s') : s'.Separate := by
  have known := step.1
  rw [separate.step_eq step]
  obtain ⟨proc, call, ret⟩ := op
  have set_known : ∀ {fd offset}, (∃ offset', s.offsets proc fd = some offset') → ∀ q g,
      s.offsets.set proc fd offset q g ≠ none → s.offsets q g ≠ none := by
    rintro fd offset ⟨offset', here⟩ q g
    unfold Offsets.set
    split
    · rename_i same
      rw [same.1, same.2, here]
      simp
    · exact id
  cases call with
  | openFile flags mode =>
      simp only [after, FileOp.tables, FileOp.offsets, World.syscallOpen]
      split
      · exact separate.enterDesc proc ret 0 _
      · exact separate
  | lseek fd =>
      obtain ⟨offset, here⟩ := known
      obtain ⟨d, -, found⟩ := separate.stored proc fd offset here
      simp only [after, FileOp.tables, FileOp.offsets, found]
      by_cases sought : ret ≥ 0
      · rw [if_pos sought]
        split
        · exact separate.of_same (World.getFd_modifyDesc _ _) rfl (set_known ⟨offset, here⟩)
        · exact separate.of_same rfl rfl (set_known ⟨offset, here⟩)
      · rw [if_neg sought, if_neg fun both => sought both.2]
        exact separate
  | read fd | write fd =>
      simp only [after, FileOp.tables, FileOp.offsets]
      split
      · exact separate.of_same rfl rfl (set_known known)
      · exact separate

/-! ## Which calls are kept track of -/

/-- While the tables stay, the kernel's offset must stay too. -/
theorem Tracked.set_iff (tracked : s.Tracked) {proc : Pid} {fd offset : Int}
    (here : s.offsets proc fd = some offset) (offset' : Int) :
    Tracked { s with offsets := s.offsets.set proc fd offset' } ↔ offset' = offset := by
  constructor
  · intro tracked'
    obtain ⟨ref, found, stored⟩ := tracked proc fd offset here
    have moved : s.offsets.set proc fd offset' proc fd = some offset' := if_pos ⟨rfl, rfl⟩
    obtain ⟨ref', found', stored'⟩ := tracked' proc fd offset' moved
    cases Option.some.inj (found.symm.trans found')
    exact stored'.symm.trans stored
  · rintro rfl
    rw [Offsets.set_self here]
    exact tracked

theorem Tracked.enterDesc (tracked : s.Tracked) (separate : s.Separate) (proc : Pid) (fd : Int)
    (desc : FdDescriptor) : Tracked
      { traced := { s.traced with world := s.traced.world.enterDesc proc fd desc }
        offsets := s.offsets.set proc fd desc.offset } := by
  intro q g offset here
  simp only [World.getFd_enterDesc]
  simp only [Offsets.set] at here
  split at here
  · rename_i same
    cases here
    refine ⟨_, if_pos same, ?_⟩
    simp [World.enterDesc, World.fileDesc, Heap.cell_alloc]
  · rename_i other
    obtain ⟨ref, found, stored⟩ := tracked q g offset here
    obtain ⟨d, old, found'⟩ := separate.stored q g offset here
    cases Option.some.inj (found.symm.trans found')
    refine ⟨.plain d, (if_neg other).trans found, ?_⟩
    simp only [World.enterDesc, World.fileDesc, Heap.cell_alloc, if_neg (Nat.ne_of_lt old)]
    exact stored

theorem Tracked.modifyDesc (tracked : s.Tracked) (separate : s.Separate) {proc : Pid} {fd offset : Int}
    {ref : DescRef} (here : s.offsets proc fd = some offset)
    (found : s.traced.world.processDescriptorGetFd proc fd = some ref) (offset' : Int) : Tracked
      { traced := { s.traced with
          world := s.traced.world.modifyDesc ref fun desc => { desc with offset := offset' } }
        offsets := s.offsets.set proc fd offset' } := by
  intro q g offset'' here'
  simp only [World.getFd_modifyDesc, World.fileDesc_modifyDesc]
  simp only [Offsets.set] at here'
  split at here'
  · rename_i same
    cases here'
    rw [same.1, same.2]
    exact ⟨ref, found, by rw [if_pos rfl]⟩
  · rename_i other
    obtain ⟨ref', found', stored⟩ := tracked q g offset'' here'
    have distinct : ref' ≠ ref := by
      rintro rfl
      exact other (separate.apart proc fd q g ref' (by simp [here]) (by simp [here']) found found')
    exact ⟨ref', found', by rwa [if_neg distinct]⟩

theorem Tracked.step_iff (tracked : s.Tracked) (separate : s.Separate) (step : s.Step build op s') :
    s'.Tracked ↔ op.Keeps build s.offsets := by
  have known := step.1
  rw [separate.step_eq step]
  obtain ⟨proc, call, ret⟩ := op
  cases call with
  | openFile flags mode =>
      refine iff_of_true ?_ trivial
      simp only [after, FileOp.tables, FileOp.offsets, World.syscallOpen]
      split
      · exact tracked.enterDesc separate proc ret _
      · exact tracked
  | lseek fd =>
      obtain ⟨offset, here⟩ := known
      obtain ⟨d, -, found⟩ := separate.stored proc fd offset here
      simp only [after, FileOp.tables, FileOp.offsets, FileOp.Keeps, found]
      by_cases sought : ret ≥ 0
      · rw [if_pos sought]
        cases build with
        | fullMediation =>
            have same := tracked.set_iff here ret
            simp only [reduceCtorEq, false_and, if_false, here, Option.some.injEq]
            exact same.trans ⟨fun eq _ _ => eq.symm, fun keeps => (keeps trivial sought).symm⟩
        | addressTranslation =>
            refine iff_of_true ?_ (by simp)
            rw [if_pos ⟨rfl, sought⟩]
            exact tracked.modifyDesc separate here found ret
      · rw [if_neg sought, if_neg fun both => sought both.2]
        exact iff_of_true tracked fun _ sought' => absurd sought' sought
  | read fd | write fd =>
      obtain ⟨offset, here⟩ := known
      simp only [after, FileOp.tables, FileOp.offsets, FileOp.Keeps]
      split
      · rename_i moved
        rw [here]
        refine (tracked.set_iff here _).trans ?_
        simp only [Option.getD_some]
        omega
      · rename_i stayed
        exact iff_of_true tracked (by omega)

/-- Before any file is opened. -/
def Fresh (s : Observed H) : Prop :=
  (∀ proc, s.traced.inSyscall proc = false) ∧ ∀ proc fd, s.offsets proc fd = none

theorem Fresh.separate (fresh : s.Fresh) : s.Separate where
  outside := fresh.1
  stored proc fd offset here := by
    rw [fresh.2 proc fd] at here
    cases here
  apart proc fd q g ref known := absurd (fresh.2 proc fd) known

theorem Fresh.tracked (fresh : s.Fresh) : s.Tracked := by
  intro proc fd offset here
  rw [fresh.2 proc fd] at here
  cases here

/-- The calls on open files all complete. The offsets are right after each of them exactly if no
    `read` or `write` moves the offset, nor, under full mediation, an `lseek`. -/
theorem tracked_offsets_iff {init s : Observed H} (fresh : init.Fresh) (build : Build)
    {ops : List FileOp} (run : Run (Step build) init ops s) :
    (∀ op, op.Known s.offsets → ∃ s', s.Step build op s') ∧
      (Run (Guarded (fun s op => op.Keeps build s.offsets) (Step build)) init ops s ↔
        ∀ ops' s', ops' <+: ops → Run (Step build) init ops' s' → s'.Tracked) := by
  have separate : ∀ {ops' s'}, Run (Step build) init ops' s' → s'.Separate := fun run =>
    run.invariant Separate fresh.separate fun _ _ _ separate step => separate.step step
  constructor
  · intro op known
    exact ⟨_, (separate run).step_after build op known⟩
  · refine Run.guarded_iff (fun _ s => s.Tracked) step_functional fresh.tracked ?_ run
    intro ops' s op s' run tracked step
    exact tracked.step_iff (separate run) step

/-- Three hosts, and no file is open. -/
def idle : Observed (Fin 3) :=
  { traced := { world := .threeHosts, inSyscall := fun _ => false }, offsets := fun _ _ => none }

theorem idle_fresh : idle.Fresh := ⟨fun _ => rfl, fun _ _ => rfl⟩

/-- With address translation a file is opened and `lseek` sets the offset to 10. -/
theorem translated_seek_tracked : ∃ s,
    Run (Step .addressTranslation) idle [⟨0, .openFile oRdwr 0, 3⟩, ⟨0, .lseek 3, 10⟩] s ∧
    ∀ ops s', ops <+: [⟨0, .openFile oRdwr 0, 3⟩, ⟨0, .lseek 3, 10⟩] →
      Run (Step .addressTranslation) idle ops s' → s'.Tracked := by
  have opened := idle_fresh.separate.step_after .addressTranslation ⟨0, .openFile oRdwr 0, 3⟩ trivial
  have sought := (idle_fresh.separate.step opened).step_after .addressTranslation ⟨0, .lseek 3, 10⟩
    ⟨0, rfl⟩
  have run := (Run.start.next opened).next sought
  have first : FileOp.Keeps .addressTranslation ⟨0, .openFile oRdwr 0, 3⟩ idle.offsets := trivial
  have second : ∀ offsets, FileOp.Keeps .addressTranslation ⟨0, .lseek 3, 10⟩ offsets := by
    simp [FileOp.Keeps]
  have guarded : Run (Guarded (fun (s : Observed (Fin 3)) op =>
      FileOp.Keeps .addressTranslation op s.offsets) (Step .addressTranslation)) idle _ _ :=
    (Run.start.next ⟨first, opened⟩).next ⟨second _, sought⟩
  exact ⟨_, run, (tracked_offsets_iff idle_fresh _ run).2.mp guarded⟩

/-- With address translation the bytes read are not counted, and under full mediation `lseek` is
    not noticed. -/
theorem unnoticed_moves :
    (∃ s, Run (Step .addressTranslation) idle [⟨0, .openFile oRdwr 0, 3⟩, ⟨0, .read 3, 5⟩] s ∧
      s.offsets 0 3 = some 5 ∧ s.traced.world.processDescriptorGetFd 0 3 = some (.plain 0) ∧
      (s.traced.world.fileDesc (.plain 0)).offset = 0) ∧
    ∃ s, Run (Step .fullMediation) idle [⟨0, .openFile oRdwr 0, 3⟩, ⟨0, .lseek 3, 10⟩] s ∧
      s.offsets 0 3 = some 10 ∧ s.traced.world.processDescriptorGetFd 0 3 = some (.plain 0) ∧
      (s.traced.world.fileDesc (.plain 0)).offset = 0 := by
  constructor
  · have opened := idle_fresh.separate.step_after .addressTranslation ⟨0, .openFile oRdwr 0, 3⟩ trivial
    have used := (idle_fresh.separate.step opened).step_after .addressTranslation ⟨0, .read 3, 5⟩ ⟨0, rfl⟩
    exact ⟨_, (Run.start.next opened).next used, rfl, rfl, rfl⟩
  · have opened := idle_fresh.separate.step_after .fullMediation ⟨0, .openFile oRdwr 0, 3⟩ trivial
    have sought := (idle_fresh.separate.step opened).step_after .fullMediation ⟨0, .lseek 3, 10⟩ ⟨0, rfl⟩
    exact ⟨_, (Run.start.next opened).next sought, rfl, rfl, rfl⟩

end Observed

end Simterpose
