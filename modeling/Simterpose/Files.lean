import Simterpose.Lib.Walk
import Simterpose.Tables

/-! # Files, pipes and clones

The calls that make plain descriptors: `open`, `creat`, `pipe`, `fcntl`, and `clone`
where it builds the descriptor of the child. As elsewhere the kernel's results and the
tracee's memory are arguments.
-/

namespace Simterpose

open Lib

/-- Flags of `open` and `fcntl` on x86-64. -/
def fdCloexec : Nat := 0x1
def oWronly : Nat := 0x1
def oCreat : Nat := 0x40
def oTrunc : Nat := 0x200
def oAppend : Nat := 0x400
def oAsync : Nat := 0x2000
def oCloexec : Nat := 0x80000

def fRdlck : Int := 0
def fWrlck : Int := 1
def fUnlck : Int := 2

/-- `flags &~ mask` -/
def clearBits (flags mask : Nat) : Nat := flags ^^^ (flags &&& mask)

/-- A number as the 64 bits of an `off_t` hold it. -/
def toOff (n : Int) : Int := (n + 0x8000000000000000) % 0x10000000000000000 - 0x8000000000000000

/-- `struct flock` -/
structure Flock where
  lType : Int
  lWhence : Int
  lStart : Int
  lLen : Int
  lPid : Int
  deriving Repr, DecidableEq

/-- The commands of `fcntl` with the arguments their cases read. -/
inductive FcntlCmd where
  | dupfd
  | dupfdCloexec
  | getfd
  | setfd (arg : Nat)
  | getfl
  | setfl (arg : Nat)
  | getlk (lock : Flock)
  | setlk (lock : Flock)
  | setlkw (lock : Flock)
  | getown
  | setown (arg : Int)
  | other
  deriving Repr, DecidableEq

namespace FdDescriptor

/-- The range that three cases of `process_fcntl_call` record for a lock. -/
def setRange (desc : FdDescriptor) (lock : Flock) : FdDescriptor :=
  let start := toOff (lock.lStart + lock.lWhence)
  if lock.lLen > 0 then { desc with lockBegin := start, lockEnd := toOff (start + lock.lLen - 1) }
  else { desc with lockBegin := toOff (start + lock.lLen), lockEnd := toOff (start - 1) }

def getlk (desc : FdDescriptor) (lock : Flock) : FdDescriptor :=
  if lock.lType = fUnlck then { desc with ltype := fUnlck }
  else { desc with ltype := lock.lType, procLocker := lock.lPid }.setRange lock

def setlkw (desc : FdDescriptor) (lock : Flock) : FdDescriptor :=
  { desc with lock := true, procLocker := lock.lPid, ltype := lock.lType }.setRange lock

def setlk (desc : FdDescriptor) (lock : Flock) : FdDescriptor :=
  if lock.lType = fRdlck ∨ lock.lType = fWrlck then desc.setlkw lock
  else { desc with lock := false, ltype := fUnlck, lockBegin := 0, lockEnd := 0, procLocker := 0 }

end FdDescriptor

/-- The flags that `F_DUPFD` gives the new descriptor. -/
def dupfdFlags (flags : Nat) : Nat :=
  if flags &&& oCloexec = oCloexec then clearBits flags oCloexec
  else if flags &&& fdCloexec = fdCloexec then clearBits flags fdCloexec
  else flags

/-- The type `process_descriptor_new` gives an open file of the simulator. -/
def ownType (fd : Int) : FdType :=
  if fd = 0 then .stdin else if fd = 1 then .stdout else if fd = 2 then .stderr else .classic

/-- The loop of `syscall_clone` over an end list of a pipe: an end for the clone is
    appended for each end of any other process. -/
def cloneEnds (clone : Pid) (ends : List PipeEnd) : Option (List PipeEnd) :=
  appendWalk (fun e => e.proc ≠ clone) (fun e => { fd := e.fd, proc := clone })
    (2 * ends.length + 1) 0 ends

namespace World

variable {H : Type} (w : World H)

/-- A new plain record, which becomes the descriptor `fd` of `proc`. -/
def enterDesc (proc : Pid) (fd : Int) (desc : FdDescriptor) : World H :=
  { w.processDescriptorSetFd proc fd (some (.plain w.descs.next)) with descs := w.descs.alloc desc }

/-- Change a record; its type stays. -/
def modifyDesc (ref : DescRef) (f : FdDescriptor → FdDescriptor) : World H :=
  match ref with
  | .plain d => { w with descs := w.descs.modify d fun desc => { f desc with type := desc.type } }
  | .socket is => w.modifySocket is fun s => { s with fd := { f s.fd with type := s.fd.type } }

/-- `syscall_open` at the exit, once the path is copied. -/
def syscallOpen (proc : Pid) (flags mode : Nat) (ret : Int) : World H :=
  if ret ≥ 0 then
    w.enterDesc proc ret
      { type := .classic, proc := proc, fd := ret, refcount := 1
        flags := if flags &&& oCloexec = oCloexec then flags ||| fdCloexec else flags
        mode := if flags &&& oCreat = oCreat then mode else 0 }
  else w

/-- `syscall_creat_post`, once the path is copied. -/
def syscallCreatPost (proc : Pid) (mode : Nat) (ret : Int) : World H :=
  if ret ≥ 0 then
    w.enterDesc proc ret
      { type := .classic, proc := proc, fd := ret, refcount := 1
        flags := oCreat ||| oWronly ||| oTrunc, mode := mode }
  else w

/-- `syscall_pipe_post`; of the two descriptors the kernel stored it reads the first. -/
def syscallPipePost (proc : Pid) (filedes : Int × Int) (ret : Int) : World H :=
  if ret = 0 then
    let p0 := filedes.1
    let p1 := filedes.1 + 1
    let pipe := w.pipes.next
    let pipes := w.pipes.alloc
      { readEnd := [{ fd := p0, proc := proc }], writeEnd := [{ fd := p1, proc := proc }] }
    let w := { w with pipes := pipes }
    let w := w.enterDesc proc p0
      { type := .pipe, proc := proc, fd := p0, pipe := some pipe, refcount := 1 }
    w.enterDesc proc p1 { type := .pipe, proc := proc, fd := p1, pipe := some pipe, refcount := 1 }
  else w

/-- The cases `F_DUPFD` and `F_DUPFD_CLOEXEC`: the new record is a plain one, whatever the
    old one is. -/
def fcntlDup (proc : Pid) (fd ret : Int) (flags : Nat → Nat) : Result (World H) :=
  match w.processDescriptorGetFd proc fd with
  | none => .error .segfault
  | some ref =>
      let arg := w.fileDesc ref
      .ok (w.enterDesc proc ret
        { type := arg.type, proc := proc, fd := ret, stream := arg.stream, pipe := arg.pipe
          flags := flags arg.flags, refcount := 1 })

/-- The cases that store into the record of the descriptor. -/
def fcntlStore (proc : Pid) (fd : Int) (f : FdDescriptor → FdDescriptor) : Result (World H) :=
  match w.processDescriptorGetFd proc fd with
  | none => .error .segfault
  | some ref => .ok (w.modifyDesc ref f)

/-- `process_fcntl_call`. The tests of `F_GETOWN` and `F_SETOWN` for a negative value are on
    unsigned registers. -/
def processFcntlCall (proc : Pid) (fd : Int) (cmd : FcntlCmd) (ret : Int) : Result (World H) :=
  if ret = -1 then .error .simulatorExit
  else
    match cmd with
    | .dupfd => w.fcntlDup proc fd ret dupfdFlags
    | .dupfdCloexec => w.fcntlDup proc fd ret (· ||| fdCloexec)
    | .getfd | .getfl | .other => .ok w
    | .setfd arg =>
        if arg = fdCloexec then
          w.fcntlStore proc fd fun desc => { desc with flags := desc.flags ||| arg }
        else .error .simulatorExit
    | .setfl arg =>
        if arg = oAppend ∨ arg = oAsync ∨ arg = oNonblock then
          w.fcntlStore proc fd fun desc => { desc with flags := desc.flags ||| arg }
        else .ok w
    | .getlk lock => w.fcntlStore proc fd (·.getlk lock)
    | .setlk lock => if ret = 0 then w.fcntlStore proc fd (·.setlk lock) else .ok w
    | .setlkw lock => if ret = 0 then w.fcntlStore proc fd (·.setlkw lock) else .ok w
    | .getown => w.fcntlStore proc fd fun desc => { desc with sigId := ret }
    | .setown arg => w.fcntlStore proc fd fun desc => { desc with sigId := arg }

/-- `register_file_descriptor` -/
def registerFileDescriptor (process : Pid) (fd : Int) (type : FdType) : World H :=
  w.enterDesc process fd { type := type, proc := process, fd := fd, refcount := 1 }

/-- `process_descriptor_new`; `own` are the numbers listed in `/proc/self/fd`. -/
def processDescriptorNew (host : H) (pid : Pid) (own : List Int) : World H :=
  own.foldl (fun w fd => w.registerFileDescriptor pid fd (ownType fd))
    { w with procs := Function.update w.procs pid { host := host, fdMap := ∅ } }

/-- Both end lists of a pipe get the ends of the clone. -/
def clonePipe (clone : Pid) (pipe : PipeId) : Result (World H) :=
  let ends := w.pipes.cell pipe
  match cloneEnds clone ends.readEnd, cloneEnds clone ends.writeEnd with
  | some readEnd, some writeEnd =>
      .ok { w with pipes := w.pipes.modify pipe fun _ => { readEnd, writeEnd } }
  | _, _ => .error .endless

/-- The clone gets a copy of the record behind the parent's descriptor `i`. -/
def cloneDesc (clone : Pid) (i : Int) (ref : DescRef) : Result (World H) :=
  let fileDesc := w.fileDesc ref
  let w := w.enterDesc clone i
    { type := fileDesc.type, proc := clone, fd := fileDesc.fd, flags := fileDesc.flags
      pipe := fileDesc.pipe, stream := fileDesc.stream }
  if fileDesc.type = .pipe then
    match fileDesc.pipe with
    | none => .error .xbtAssert
    | some pipe => w.clonePipe clone pipe
  else .ok w

/-- The loop of `syscall_clone` over the parent's descriptors. -/
def cloneDescs (clone : Pid) : List (Sigma fun _ : Int => DescRef) → World H → Result (World H)
  | [], w => .ok w
  | entry :: entries, w => do
      let w ← w.cloneDesc clone entry.1 entry.2
      cloneDescs clone entries w

/-- What `syscall_clone` does to the tables where it takes a stop for that of a child: a
    new process `pid` on the parent's host, with copies of the parent's descriptors. -/
def cloneProcess (parent pid : Pid) (own : List Int) : Result (World H) :=
  cloneDescs pid (w.procs parent).fdMap.entries
    (w.processDescriptorNew (w.procs parent).host pid own)

end World

/-! ## The end lists -/

theorem PipeEnd.at_iff (e : PipeEnd) (fd : Int) (proc : Pid) :
    e.fd = fd ∧ e.proc = proc ↔ e = { fd := fd, proc := proc } := by
  cases e
  simp

theorem copyEnds_eq_appendWalk (oldfd newfd : Int) (proc : Pid) (rounds index : Nat)
    (ends : List PipeEnd) : copyEnds oldfd newfd proc rounds index ends =
      appendWalk (· == { fd := oldfd, proc := proc }) (fun e => { fd := newfd, proc := e.proc })
        rounds index ends := by
  induction rounds generalizing index ends with
  | zero => rfl
  | succ rounds ih =>
      simp only [copyEnds, appendWalk, ih, beq_iff_eq, PipeEnd.at_iff]
      cases ends[index]? with
      | none | some => rfl

theorem removeEnds_eq_eraseWalk (fd : Int) (proc : Pid) (rounds index : Nat)
    (ends : List PipeEnd) : removeEnds fd proc rounds index ends =
      eraseWalk (· == { fd := fd, proc := proc }) rounds index ends := by
  induction rounds generalizing index ends with
  | zero => rfl
  | succ rounds ih =>
      simp only [removeEnds, eraseWalk, ih, beq_iff_eq, PipeEnd.at_iff]
      cases ends[index]? with
      | none | some => rfl

/-- Duplicating adds one end for each that the old descriptor has. -/
theorem copyEnds_of_ne {oldfd newfd : Int} (apart : newfd ≠ oldfd) (proc : Pid)
    (ends : List PipeEnd) : copyEnds oldfd newfd proc (2 * ends.length + 1) 0 ends =
      some (ends ++ .replicate (ends.count { fd := oldfd, proc := proc })
        { fd := newfd, proc := proc }) := by
  have few := List.length_filter_le (· == ({ fd := oldfd, proc := proc } : PipeEnd)) ends
  rw [copyEnds_eq_appendWalk, appendWalk_of_fresh (by simp [apart]) (by simp; omega)]
  simp [List.filter_beq]

/-- Onto itself a descriptor with an end is duplicated without end. -/
theorem copyEnds_self (fd : Int) (proc : Pid) (ends : List PipeEnd) :
    copyEnds fd fd proc (2 * ends.length + 1) 0 ends =
      if { fd := fd, proc := proc } ∈ ends then none else some ends := by
  rw [copyEnds_eq_appendWalk]
  split
  · rename_i listed
    apply appendWalk_of_chosen
    · simp +contextual
    · exact ⟨_, listed, by simp⟩
  · rename_i unlisted
    have none_ : ends.filter (· == ({ fd := fd, proc := proc } : PipeEnd)) = [] := by
      rw [List.filter_beq, List.count_eq_zero.mpr unlisted]
      rfl
    rw [appendWalk_of_fresh]
    · simp [none_]
    · intro e listed same
      exact absurd (eq_of_beq same ▸ listed) unlisted
    · simp [none_]
      omega

theorem removeEnds_eq (fd : Int) (proc : Pid) (ends : List PipeEnd) :
    removeEnds fd proc ends.length 0 ends = ends.filter (· ≠ { fd := fd, proc := proc }) := by
  rw [removeEnds_eq_eraseWalk, eraseWalk_eq (by omega)]
  simp only [List.take_zero, List.drop_zero, List.nil_append, ne_eq, decide_not]
  rfl

/-- The loop of `syscall_clone` comes to an end, having added one end for each of another
    process. -/
theorem cloneEnds_eq (clone : Pid) (ends : List PipeEnd) :
    cloneEnds clone ends = some (ends ++
      (ends.filter (·.proc ≠ clone)).map fun e => { fd := e.fd, proc := clone }) := by
  have few := List.length_filter_le (fun e : PipeEnd => e.proc ≠ clone) ends
  unfold cloneEnds
  rw [appendWalk_of_fresh (by simp) (by simp at few ⊢; omega)]
  simp

/-! ## Descriptors by what they refer to -/

namespace World

section

variable {H : Type} {w w' : World H}

/-- The type of a descriptor and its pipe, which no call changes. -/
def tag (w : World H) (ref : DescRef) : FdType × Option PipeId :=
  ((w.fileDesc ref).type, (w.fileDesc ref).pipe)

theorem tag_socket (w : World H) (is : SockId) : (w.tag (.socket is)).1 = .socket :=
  (w.socket is).tagged

theorem SameFiles.tag (same : w.SameFiles w') : w'.tag = w.tag :=
  funext fun ref => by rw [World.tag, same.fileDesc, World.tag]

@[simp] theorem tag_setFd (proc : Pid) (fd : Int) (ref : Option DescRef) :
    (w.processDescriptorSetFd proc fd ref).tag = w.tag := rfl

@[simp] theorem tag_addRefcount (ref : DescRef) (n : Int) : (w.addRefcount ref n).tag = w.tag := by
  funext ref'
  cases ref with
  | plain d =>
      cases ref' with
      | plain d' =>
          simp only [tag, fileDesc, addRefcount, Heap.cell_modify]
          split <;> rfl
      | socket => rfl
  | socket is =>
      cases ref' with
      | plain => rfl
      | socket is' =>
          simp only [tag, fileDesc, addRefcount, modifySocket, World.socket, Heap.cell_modify]
          split <;> rfl

theorem addRefcount_addRefcount (w : World H) (ref : DescRef) (m n : Int) :
    (w.addRefcount ref m).addRefcount ref n = w.addRefcount ref (m + n) := by
  cases ref with
  | plain d => simp [addRefcount, Heap.modify, Int.add_assoc]
  | socket is => simp [addRefcount, modifySocket, Heap.modify, Int.add_assoc]

@[simp] theorem addRefcount_zero (w : World H) (ref : DescRef) : w.addRefcount ref 0 = w := by
  cases ref with
  | plain d => simp [addRefcount, Heap.modify]
  | socket is => simp [addRefcount, modifySocket, Heap.modify]

theorem getFd_enterDesc (proc q : Pid) (fd g : Int) (desc : FdDescriptor) :
    (w.enterDesc proc fd desc).processDescriptorGetFd q g =
      if q = proc ∧ g = fd then some (.plain w.descs.next) else w.processDescriptorGetFd q g :=
  w.getFd_setFd proc q fd g _

theorem fcntlDup_ok {proc : Pid} {fd ret : Int} {flags : Nat → Nat}
    (done : w.fcntlDup proc fd ret flags = .ok w') :
    ∃ ref, w.processDescriptorGetFd proc fd = some ref ∧
      w' = w.enterDesc proc ret
        { type := (w.fileDesc ref).type, proc := proc, fd := ret, stream := (w.fileDesc ref).stream
          pipe := (w.fileDesc ref).pipe, flags := flags (w.fileDesc ref).flags, refcount := 1 } := by
  unfold fcntlDup at done
  split at done
  · cases done
  · rename_i ref found
    cases done
    exact ⟨ref, found, rfl⟩

theorem getFd_modifyDesc (ref : DescRef) (f : FdDescriptor → FdDescriptor) :
    (w.modifyDesc ref f).processDescriptorGetFd = w.processDescriptorGetFd := by
  cases ref <;> rfl

theorem fileDesc_modifyDesc (ref ref' : DescRef) (f : FdDescriptor → FdDescriptor) :
    (w.modifyDesc ref f).fileDesc ref' =
      if ref' = ref then { f (w.fileDesc ref) with type := (w.fileDesc ref).type }
      else w.fileDesc ref' := by
  cases ref with
  | plain d =>
      cases ref' with
      | plain d' =>
          simp only [fileDesc, modifyDesc, Heap.cell_modify, DescRef.plain.injEq]
          split <;> simp_all
      | socket => rfl
  | socket is =>
      cases ref' with
      | plain => rfl
      | socket is' =>
          simp only [fileDesc, modifyDesc, modifySocket, World.socket, Heap.cell_modify,
            DescRef.socket.injEq]
          split <;> simp_all

theorem fcntlStore_of_found {proc : Pid} {fd : Int} {ref : DescRef}
    (found : w.processDescriptorGetFd proc fd = some ref) (f : FdDescriptor → FdDescriptor) :
    w.fcntlStore proc fd f = .ok (w.modifyDesc ref f) := by
  simp only [fcntlStore, found]

theorem cell_closePipe (proc : Pid) (fd : Int) (pipe q : PipeId) :
    (w.closePipe proc fd pipe).pipes.cell q =
      if q = pipe then
        { readEnd := (w.pipes.cell pipe).readEnd.filter (· ≠ { fd := fd, proc := proc })
          writeEnd := (w.pipes.cell pipe).writeEnd.filter (· ≠ { fd := fd, proc := proc }) }
      else w.pipes.cell q := by
  simp only [closePipe, removeEnds_eq]
  split <;> simp only [Heap.cell_free, Heap.cell_modify]

/-- A pipe is freed when the closed descriptor had its last ends. -/
theorem freed_closePipe (proc : Pid) (fd : Int) (pipe q : PipeId) :
    (w.closePipe proc fd pipe).pipes.freed q = true ↔
      w.pipes.freed q = true ∨ q = pipe ∧
        (∀ e ∈ (w.pipes.cell pipe).readEnd, e = { fd := fd, proc := proc }) ∧
        ∀ e ∈ (w.pipes.cell pipe).writeEnd, e = { fd := fd, proc := proc } := by
  simp only [closePipe, removeEnds_eq]
  split
  · rename_i empty
    simp at empty
    simp [Heap.freed_free, Heap.freed_modify]
    tauto
  · rename_i kept
    simp at kept
    simp [Heap.freed_modify]
    tauto

/-- The pipes when a process has closed one of its descriptors. -/
def closedPipes (w : World H) (proc : Pid) (fd : Int) : Heap Pipe :=
  match (w.processDescriptorGetFd proc fd).map w.tag with
  | some (.pipe, some pipe) => (w.closePipe proc fd pipe).pipes
  | _ => w.pipes

theorem closedPipes_of_pipe {proc : Pid} {fd : Int} {ref : DescRef} {pipe : PipeId}
    (found : w.processDescriptorGetFd proc fd = some ref) (piped : w.tag ref = (.pipe, some pipe)) :
    w.closedPipes proc fd = (w.closePipe proc fd pipe).pipes := by
  simp [closedPipes, found, piped]

theorem closedPipes_addRefcount (w : World H) (ref : DescRef) (n : Int) (proc : Pid) (fd : Int) :
    (w.addRefcount ref n).closedPipes proc fd = w.closedPipes proc fd := by
  unfold closedPipes
  rw [getFd_addRefcount, tag_addRefcount]
  cases ref <;> rfl

end

section

variable {H : Type} [DecidableEq H] {w w' : World H}

theorem closeByType_plain (w : World H) (proc : Pid) (fd : Int) (d : DescId) :
    w.closeByType proc fd (.plain d) =
      match w.tag (.plain d) with
      | (.socket, _) => .error .outOfBounds
      | (.pipe, none) => .error .xbtAssert
      | (.pipe, some pipe) => .ok (w.closePipe proc fd pipe)
      | _ => .ok w := by
  unfold closeByType tag
  cases (w.fileDesc (.plain d)).type <;> cases (w.fileDesc (.plain d)).pipe <;> rfl

/-- Closing a plain descriptor takes it out of the table and its end out of the pipe. -/
theorem processCloseCall_plain {proc : Pid} {fd : Int} {d : DescId}
    (found : w.processDescriptorGetFd proc fd = some (.plain d)) :
    w.processCloseCall proc fd =
      match w.tag (.plain d) with
      | (.socket, _) => .error .outOfBounds
      | (.pipe, none) => .error .xbtAssert
      | _ => .ok ({ w with pipes := w.closedPipes proc fd }.processDescriptorSetFd proc fd none) := by
  have uncounted : ∀ pipes : Heap Pipe,
      ({ w.addRefcount (.plain d) 1 with pipes := pipes } : World H).addRefcount (.plain d) (-1) =
        { w with pipes := pipes } := by
    intro pipes
    have apart : ({ w.addRefcount (.plain d) 1 with pipes := pipes } : World H).addRefcount
        (.plain d) (-1) =
          { (w.addRefcount (.plain d) 1).addRefcount (.plain d) (-1) with pipes := pipes } := rfl
    rw [apart, addRefcount_addRefcount]
    simp
  simp only [processCloseCall, found, closedPipes, Option.map_some, closeByType_plain,
    tag_addRefcount]
  rcases w.tag (.plain d) with ⟨type, pipe⟩
  cases type with
  | socket => rfl
  | pipe =>
      cases pipe with
      | none => rfl
      | some pipe =>
          exact congrArg (fun u => Except.ok (processDescriptorSetFd u proc fd none))
            (uncounted (w.closePipe proc fd pipe).pipes)
  | stdin | stdout | stderr | classic =>
      exact congrArg (fun u => Except.ok (processDescriptorSetFd u proc fd none)) (uncounted w.pipes)

/-- What closing does to plain descriptors, pipes and the sockets' descriptor parts. -/
structure ClosedFile (w : World H) (proc : Pid) (fd : Int) (w' : World H) : Prop where
  stored : w'.descs.next = w.descs.next
  pipes : w'.pipes = w.closedPipes proc fd
  tag : w'.tag = w.tag
  made : w'.sockets.next = w.sockets.next

theorem processCloseCall_file {proc : Pid} {fd : Int} (done : w.processCloseCall proc fd = .ok w') :
    w.ClosedFile proc fd w' := by
  cases found : w.processDescriptorGetFd proc fd with
  | none =>
      simp only [processCloseCall, found] at done
      cases done
      exact ⟨rfl, by simp [closedPipes, found], rfl, rfl⟩
  | some ref =>
      cases ref with
      | plain d =>
          rw [processCloseCall_plain found] at done
          split at done
          · cases done
          · cases done
          · cases done
            exact ⟨rfl, rfl, rfl, rfl⟩
      | socket is =>
          have kept : w.closedPipes proc fd = w.pipes := by
            have socket := w.tag_socket is
            unfold closedPipes
            rw [found]
            split
            · rename_i tagged
              simp [Option.some.inj tagged] at socket
            · rfl
          have begun : (w.beginClose is).tag = w.tag := by
            rw [beginClose, (sameFiles_addRefNb _ is (-1)).tag, tag_addRefcount, tag_addRefcount]
          have ended : ∀ v : World H, (v.endClose proc fd is).tag = v.tag := by
            intro v
            rw [endClose, tag_setFd, tag_addRefcount, tag_setFd]
          rcases processCloseCall_ok done with ⟨absent, -⟩ | ⟨d, pipes, other, -⟩ |
              ⟨is', w₁, same, rfl, closing⟩
          · rw [found] at absent
            cases absent
          · rw [found] at other
            cases other
          · obtain rfl : is = is' := by simpa [found] using same
            have shut : (w.beginClose is).SameFiles w₁ := by
              rcases closing with ⟨-, rfl⟩ | ⟨-, closed⟩
              · exact ⟨rfl, rfl, rfl, rfl, fun _ => rfl⟩
              · exact sameFiles_commClose closed
            exact ⟨congrArg (·.next) shut.descs, shut.pipes.trans kept.symm, (ended w₁).trans (shut.tag.trans begun),
              shut.made⟩

theorem closeTarget_file {proc : Pid} {newfd : Int} (done : w.closeTarget proc newfd = .ok w') :
    w.ClosedFile proc newfd w' := by
  unfold closeTarget at done
  split at done
  · rename_i old found
    obtain ⟨stored, pipes, tag, made⟩ := processCloseCall_file done
    rw [closedPipes_addRefcount] at pipes
    rw [tag_addRefcount] at tag
    refine ⟨stored.trans ?_, pipes, tag, made.trans ?_⟩
    · cases old <;> rfl
    · cases old <;> rfl
  · rename_i absent
    cases done
    exact ⟨rfl, by simp [closedPipes, absent], rfl, rfl⟩

end

end World

end Simterpose
