import Simterpose.Pipes

/-! # The two sides of a pipe

The end lists of a pipe are the only record of who may still read or write it. Five
handlers change them, apart from the descriptor tables they should agree with.
-/

namespace Simterpose

open Lib

/-- The calls that make, duplicate and close descriptors, with successful results. -/
inductive DescOp where
  | openFile (proc : Pid) (flags mode : Nat) (ret : Int)
  | creat (proc : Pid) (mode : Nat) (ret : Int)
  | pipe (proc : Pid) (filedes : Int × Int)
  | socket (proc : Pid) (domain type protocol ret : Int)
  | accept (proc : Pid) (sockfd newfd : Int)
  | dup (proc : Pid) (oldfd newfd : Int)
  | dup2 (proc : Pid) (oldfd newfd : Int)
  | dupfd (proc : Pid) (fd : Int) (cloexec : Bool) (ret : Int)
  | close (proc : Pid) (fd : Int)
  deriving Repr, DecidableEq

def DescOp.call : DescOp → TableCall
  | .openFile proc flags mode ret => .openFile proc flags mode ret
  | .creat proc mode ret => .creat proc mode ret
  | .pipe proc filedes => .pipe proc filedes 0
  | .socket proc domain type protocol ret => .call (.socket proc domain type protocol ret)
  | .accept proc sockfd newfd => .call (.accept proc sockfd newfd)
  | .dup proc oldfd newfd => .call (.dup proc oldfd newfd)
  | .dup2 proc oldfd newfd => .call (.dup2 proc oldfd newfd)
  | .dupfd proc fd cloexec ret => .fcntl proc fd (if cloexec then .dupfdCloexec else .dupfd) ret
  | .close proc fd => .call (.close proc fd)

/-- The pipe that a record with this tag is an end of. -/
def tagPipe (tag : FdType × Option PipeId) : Option PipeId := if tag.1 = .pipe then tag.2 else none

theorem tagPipe_eq_some {tag : FdType × Option PipeId} {pipe : PipeId} :
    tagPipe tag = some pipe ↔ tag = (.pipe, some pipe) := by
  obtain ⟨type, piped⟩ := tag
  by_cases typed : type = .pipe
  · simp [tagPipe, typed]
  · simp [tagPipe, typed]

namespace World

section

variable {H : Type} {w w' : World H}

/-- The pipe that a descriptor is an end of, according to the table. -/
def pipeOf (w : World H) (e : PipeEnd) : Option PipeId :=
  (w.processDescriptorGetFd e.proc e.fd).bind fun ref => tagPipe (w.tag ref)

/-- The ends of a pipe, according to its lists. -/
def endsOf (w : World H) (pipe : PipeId) : List PipeEnd :=
  (w.pipes.cell pipe).readEnd ++ (w.pipes.cell pipe).writeEnd

/-- A pair of a process and a descriptor number is on the lists of a pipe if and only if the
    table of the process has an end of the pipe there, and then once. A pipe is freed
    exactly when no descriptor refers to it. -/
structure EndsMirror (w : World H) : Prop where
  listed : Fibres (· < w.pipes.next) w.pipeOf w.endsOf
  freed : ∀ pipe < w.pipes.next, w.pipes.freed pipe = true ↔ ∀ e, w.pipeOf e ≠ some pipe

theorem pipeOf_of_found {proc : Pid} {fd : Int} {ref : DescRef}
    (found : w.processDescriptorGetFd proc fd = some ref) :
    w.pipeOf { fd := fd, proc := proc } = tagPipe (w.tag ref) := by
  simp only [pipeOf, found, Option.bind_some]

theorem pipeOf_eq_some {e : PipeEnd} {pipe : PipeId} : w.pipeOf e = some pipe ↔
    ∃ ref, w.processDescriptorGetFd e.proc e.fd = some ref ∧ w.tag ref = (.pipe, some pipe) := by
  simp only [pipeOf, Option.bind_eq_some_iff, tagPipe_eq_some]

theorem Allocated.pipeOf_lt (allocated : w.Allocated) {e : PipeEnd} {pipe : PipeId}
    (piped : w.pipeOf e = some pipe) : pipe < w.pipes.next := by
  obtain ⟨ref, found, tagged⟩ := pipeOf_eq_some.mp piped
  exact (allocated _ _ ref found).2 pipe (congrArg Prod.snd tagged)

/-- A pipe is told apart from the others by the numbers below `next`. -/
theorem Allocated.pipeOf_ext (allocated : w.Allocated) {e : PipeEnd} {o : Option PipeId}
    (made : ∀ pipe, o = some pipe → pipe < w.pipes.next)
    (same : ∀ pipe < w.pipes.next, (w.pipeOf e = some pipe ↔ o = some pipe)) : w.pipeOf e = o := by
  apply Option.ext
  intro pipe
  constructor
  · intro piped
    exact (same pipe (allocated.pipeOf_lt piped)).mp piped
  · intro piped
    exact (same pipe (made pipe piped)).mpr piped

theorem PipeEnd.ne_iff (e : PipeEnd) (fd : Int) (proc : Pid) :
    e ≠ { fd := fd, proc := proc } ↔ ¬ (e.proc = proc ∧ e.fd = fd) := by
  cases e
  simp only [ne_eq, PipeEnd.mk.injEq, and_comm]

/-- Descriptors that stay what they are, with their tags. -/
theorem pipeOf_congr (allocated : w.Allocated) (tag : ∀ ref, w.Holds ref → w'.tag ref = w.tag ref)
    {e : PipeEnd}
    (entry : w'.processDescriptorGetFd e.proc e.fd = w.processDescriptorGetFd e.proc e.fd) :
    w'.pipeOf e = w.pipeOf e := by
  unfold pipeOf
  rw [entry]
  cases found : w.processDescriptorGetFd e.proc e.fd with
  | none => rfl
  | some ref => simp only [Option.bind_some, tag ref (allocated _ _ ref found).1]

/-- One entry of the tables is changed, and no tag. -/
theorem pipeOf_of_table {proc : Pid} {fd : Int} {o : Option DescRef} (tag : w'.tag = w.tag)
    (table : ∀ q g, w'.processDescriptorGetFd q g =
      if q = proc ∧ g = fd then o else w.processDescriptorGetFd q g) (e : PipeEnd) :
    w'.pipeOf e = if e = { fd := fd, proc := proc } then o.bind fun ref => tagPipe (w.tag ref)
      else w.pipeOf e := by
  unfold pipeOf
  rw [table, tag]
  by_cases here : e = { fd := fd, proc := proc }
  · simp [here]
  · rw [if_neg here, if_neg ((PipeEnd.ne_iff e fd proc).mp here)]

theorem EndsMirror.congr (mirror : w.EndsMirror) (pipeOf : w'.pipeOf = w.pipeOf)
    (pipes : w'.pipes = w.pipes) : w'.EndsMirror := by
  have ends : w'.endsOf = w.endsOf := by
    funext pipe
    simp only [endsOf, pipes]
  constructor
  · rw [pipeOf, ends, pipes]
    exact mirror.listed
  · rw [pipeOf, pipes]
    exact mirror.freed

/-! ## New records -/

theorem pipeOf_enterDesc (allocated : w.Allocated) (proc : Pid) (fd : Int) (desc : FdDescriptor)
    (e : PipeEnd) : (w.enterDesc proc fd desc).pipeOf e =
      if e = { fd := fd, proc := proc } then tagPipe (desc.type, desc.pipe) else w.pipeOf e := by
  split
  · rename_i here
    subst here
    simp only [pipeOf, getFd_enterDesc, and_self, if_true, Option.bind_some, tag_enterDesc]
  · rename_i apart
    apply pipeOf_congr allocated (w.enters_enterDesc proc fd desc).evolves.tag
    rw [getFd_enterDesc, if_neg ((PipeEnd.ne_iff e fd proc).mp apart)]

/-- `open`, `creat` and `fcntl` put a record into the table and know nothing of the lists. -/
theorem mirror_enterDesc_iff (allocated : w.Allocated) (mirror : w.EndsMirror) (proc : Pid) (fd : Int)
    {desc : FdDescriptor} (made : ∀ pipe, desc.pipe = some pipe → pipe < w.pipes.next) :
    (w.enterDesc proc fd desc).EndsMirror ↔
      w.pipeOf { fd := fd, proc := proc } = tagPipe (desc.type, desc.pipe) := by
  have entry := pipeOf_enterDesc allocated proc fd desc
  constructor
  · intro mirror'
    apply allocated.pipeOf_ext
    · intro pipe piped
      exact made pipe (congrArg Prod.snd (tagPipe_eq_some.mp piped))
    · intro pipe below
      have ends : (w.enterDesc proc fd desc).endsOf pipe = w.endsOf pipe := rfl
      rw [← mirror.listed.mem_iff below, ← ends, mirror'.listed.mem_iff below, entry, if_pos rfl]
  · intro same
    have pipes : (w.enterDesc proc fd desc).pipes = w.pipes := rfl
    refine mirror.congr ?_ pipes
    funext e
    rw [entry]
    split
    · rename_i here
      rw [here, same]
    · rfl

theorem mirror_fcntlDup_iff (allocated : w.Allocated) (mirror : w.EndsMirror) {proc : Pid}
    {fd ret : Int} {flags : Nat → Nat} (done : w.fcntlDup proc fd ret flags = .ok w') :
    w'.EndsMirror ↔
      w.pipeOf { fd := ret, proc := proc } = w.pipeOf { fd := fd, proc := proc } := by
  obtain ⟨ref, found, rfl⟩ := fcntlDup_ok done
  refine (mirror_enterDesc_iff allocated mirror proc ret ?_).trans ?_
  · exact (allocated proc fd ref found).2
  simp only [pipeOf, found, Option.bind_some, tag]

/-- `open` and `creat` -/
theorem mirror_opened_iff (allocated : w.Allocated) (mirror : w.EndsMirror) (proc : Pid) (ret : Int)
    {desc : FdDescriptor} (classic : desc.type = .classic) (noPipe : desc.pipe = none) :
    (if ret ≥ 0 then w.enterDesc proc ret desc else w).EndsMirror ↔
      (ret ≥ 0 → w.pipeOf { fd := ret, proc := proc } = none) := by
  split
  · rename_i opened
    rw [mirror_enterDesc_iff allocated mirror proc ret (by simp [noPipe])]
    simp [opened, tagPipe, classic]
  · rename_i failed
    exact iff_of_true mirror fun opened => absurd opened failed

/-! ## A new pipe -/

theorem pipeOf_syscallPipePost (allocated : w.Allocated) (proc : Pid) (filedes : Int × Int)
    (e : PipeEnd) : (w.syscallPipePost proc filedes 0).pipeOf e =
      if e = { fd := filedes.1, proc := proc } ∨ e = { fd := filedes.1 + 1, proc := proc } then
        some w.pipes.next
      else w.pipeOf e := by
  obtain ⟨old, first, second⟩ := w.fileDesc_syscallPipePost proc filedes
  have numbers : filedes.1 ≠ filedes.1 + 1 := by omega
  split
  · rename_i either
    apply pipeOf_eq_some.mpr
    rcases either with rfl | rfl
    · refine ⟨.plain w.descs.next, ?_, ?_⟩
      · simp [getFd_syscallPipePost, numbers]
      · rw [tag, first]
    · refine ⟨.plain (w.descs.next + 1), ?_, ?_⟩
      · simp [getFd_syscallPipePost]
      · rw [tag, second]
  · rename_i neither
    rw [not_or, ← ne_eq, ← ne_eq, PipeEnd.ne_iff, PipeEnd.ne_iff] at neither
    apply pipeOf_congr allocated
    · intro ref held
      rw [tag, old ref held, tag]
    · rw [getFd_syscallPipePost, if_neg neither.2, if_neg neither.1]

theorem mirror_syscallPipePost_iff (allocated : w.Allocated) (mirror : w.EndsMirror) (proc : Pid)
    (filedes : Int × Int) : (w.syscallPipePost proc filedes 0).EndsMirror ↔
      w.pipeOf { fd := filedes.1, proc := proc } = none ∧
        w.pipeOf { fd := filedes.1 + 1, proc := proc } = none := by
  have entry := pipeOf_syscallPipePost allocated proc filedes
  have cell := w.cell_syscallPipePost proc filedes
  have ends : ∀ pipe < w.pipes.next,
      (w.syscallPipePost proc filedes 0).endsOf pipe = w.endsOf pipe := by
    intro pipe below
    rw [endsOf, cell, if_neg (Nat.ne_of_lt below), endsOf]
  -- a descriptor that becomes an end of the new pipe must not be one of another
  have overwritten : ∀ e, (w.syscallPipePost proc filedes 0).EndsMirror →
      (w.syscallPipePost proc filedes 0).pipeOf e = some w.pipes.next → w.pipeOf e = none := by
    intro e mirror' new
    by_contra other
    obtain ⟨pipe, piped⟩ := Option.ne_none_iff_exists'.mp other
    have below := allocated.pipeOf_lt piped
    have listed := (mirror.listed.mem_iff below e).mpr piped
    rw [← ends pipe below, mirror'.listed.mem_iff (Nat.lt_succ_of_lt below), new] at listed
    cases listed
    exact absurd below (Nat.lt_irrefl _)
  constructor
  · intro mirror'
    constructor
    · exact overwritten _ mirror' (by rw [entry, if_pos (.inl rfl)])
    · exact overwritten _ mirror' (by rw [entry, if_pos (.inr rfl)])
  · rintro ⟨first, second⟩
    -- for the old pipes nothing has changed
    have kept : ∀ e, ∀ pipe < w.pipes.next,
        (w.syscallPipePost proc filedes 0).pipeOf e = some pipe ↔ w.pipeOf e = some pipe := by
      intro e pipe below
      rw [entry]
      split
      · rename_i either
        have unused : w.pipeOf e = none := by
          rcases either with rfl | rfl
          · exact first
          · exact second
        rw [unused]
        simp [Nat.ne_of_gt below]
      · rfl
    constructor
    · intro pipe below e
      rcases Nat.lt_succ_iff_lt_or_eq.mp below with old | rfl
      · rw [ends pipe old, mirror.listed pipe old e]
        simp only [kept e pipe old]
      · have apart : filedes.1 + 1 ≠ filedes.1 := by omega
        rw [endsOf, cell, if_pos rfl, entry]
        by_cases here : e = { fd := filedes.1, proc := proc }
        · subst here
          simp
        · by_cases there : e = { fd := filedes.1 + 1, proc := proc }
          · subst there
            simp [apart.symm]
          · have unused : w.pipeOf e ≠ some w.pipes.next := fun piped =>
              Nat.lt_irrefl _ (allocated.pipeOf_lt piped)
            simp [here, there, Ne.symm here, Ne.symm there, unused]
    · intro pipe below
      rcases Nat.lt_succ_iff_lt_or_eq.mp below with old | rfl
      · have same : (w.syscallPipePost proc filedes 0).pipes.freed pipe = w.pipes.freed pipe :=
          (w.pipes.freed_alloc _ pipe).trans (if_neg (Nat.ne_of_lt old))
        rw [same]
        exact (mirror.freed pipe old).trans
          ⟨fun unused e piped => unused e ((kept e pipe old).mp piped),
            fun unused e piped => unused e ((kept e pipe old).mpr piped)⟩
      · have live : (w.syscallPipePost proc filedes 0).pipes.freed w.pipes.next = false :=
          (w.pipes.freed_alloc _ _).trans (if_pos rfl)
        rw [live]
        refine iff_of_false (by simp) fun unused => ?_
        exact unused { fd := filedes.1, proc := proc } (by rw [entry, if_pos (.inl rfl)])

/-! ## Closing -/

theorem closesLastEnd_iff {proc : Pid} {fd : Int} {pipe : PipeId} :
    w.ClosesLastEnd proc fd pipe ↔ w.pipeOf { fd := fd, proc := proc } = some pipe ∧
      ∀ e ∈ w.endsOf pipe, e = { fd := fd, proc := proc } := by
  rw [pipeOf_eq_some]
  simp only [ClosesLastEnd, endsOf, List.mem_append, or_imp, forall_and]
  constructor
  · rintro ⟨ref, found, piped, last⟩
    exact ⟨⟨ref, found, piped⟩, last⟩
  · rintro ⟨⟨ref, found, piped⟩, last⟩
    exact ⟨ref, found, piped, last⟩

/-- The ends that closing a descriptor leaves. -/
theorem count_closedPipes (w : World H) (proc : Pid) (fd : Int) (pipe : PipeId) (e : PipeEnd) :
    (((w.closedPipes proc fd).cell pipe).readEnd ++
        ((w.closedPipes proc fd).cell pipe).writeEnd).count e =
      if e = { fd := fd, proc := proc } ∧ w.pipeOf e = some pipe then 0
      else (w.endsOf pipe).count e := by
  have filtered : ∀ ends : List PipeEnd,
      (ends.filter (· ≠ { fd := fd, proc := proc })).count e =
        if e = { fd := fd, proc := proc } then 0 else ends.count e := by
    intro ends
    split
    · rename_i here
      subst here
      exact List.count_eq_zero.mpr (by simp)
    · rename_i apart
      exact List.count_filter (by simpa using apart)
  by_cases piped : w.pipeOf { fd := fd, proc := proc } = some pipe
  · obtain ⟨ref, found, tagged⟩ := pipeOf_eq_some.mp piped
    rw [closedPipes_of_pipe found tagged, cell_closePipe, if_pos rfl, List.count_append, filtered,
      filtered, endsOf, List.count_append]
    by_cases here : e = { fd := fd, proc := proc }
    · subst here
      simp [piped]
    · simp [here]
  · have kept : (w.closedPipes proc fd).cell pipe = w.pipes.cell pipe := by
      unfold closedPipes
      split
      · rename_i other tagged
        obtain ⟨ref, found, tagged⟩ := Option.map_eq_some_iff.mp tagged
        rw [cell_closePipe, if_neg]
        rintro rfl
        exact piped (pipeOf_eq_some.mpr ⟨ref, found, tagged⟩)
      · rfl
    rw [kept, if_neg, endsOf]
    rintro ⟨rfl, other⟩
    exact piped other

/-- A descriptor is out of the table, and its ends are off the lists of its pipe. -/
structure ClosedEnd (proc : Pid) (fd : Int) (w w' : World H) : Prop where
  pipeOf : ∀ e, w'.pipeOf e = if e = { fd := fd, proc := proc } then none else w.pipeOf e
  pipes : w'.pipes = w.closedPipes proc fd

/-- Closing keeps the two sides together whatever is closed. -/
theorem ClosedEnd.mirror {proc : Pid} {fd : Int} (closed : w.ClosedEnd proc fd w')
    (mirror : w.EndsMirror) : w'.EndsMirror := by
  have made : w'.pipes.next = w.pipes.next := by rw [closed.pipes, next_closedPipes]
  have count : ∀ pipe e, (w'.endsOf pipe).count e =
      if e = { fd := fd, proc := proc } ∧ w.pipeOf e = some pipe then 0
      else (w.endsOf pipe).count e := by
    intro pipe e
    rw [endsOf, closed.pipes]
    exact w.count_closedPipes proc fd pipe e
  constructor
  · intro pipe below e
    have before := mirror.listed pipe (made ▸ below) e
    rw [count, closed.pipeOf, before]
    by_cases here : e = { fd := fd, proc := proc }
    · subst here
      by_cases piped : w.pipeOf { fd := fd, proc := proc } = some pipe
      · simp
      · simp [piped]
    · simp [here]
  · intro pipe below
    rw [made] at below
    have mem := mirror.listed.mem_iff below
    rw [closed.pipes, freed_closedPipes, mirror.freed pipe below, closesLastEnd_iff]
    constructor
    · rintro (unused | ⟨-, last⟩) e piped
      · rw [closed.pipeOf] at piped
        split at piped
        · cases piped
        · exact unused e piped
      · rw [closed.pipeOf] at piped
        split at piped
        · cases piped
        · rename_i apart
          exact apart (last e ((mem e).mpr piped))
    · intro unused
      have others : ∀ e, e ≠ { fd := fd, proc := proc } → w.pipeOf e ≠ some pipe := by
        intro e apart piped
        apply unused e
        rw [closed.pipeOf, if_neg apart, piped]
      by_cases piped : w.pipeOf { fd := fd, proc := proc } = some pipe
      · refine .inr ⟨piped, fun e listed => ?_⟩
        by_contra apart
        exact others e apart ((mem e).mp listed)
      · left
        intro e
        by_cases here : e = { fd := fd, proc := proc }
        · rwa [here]
        · exact others e here

theorem closedEnd_of_file {proc : Pid} {fd : Int} (file : w.ClosedFile proc fd w')
    (table : ∀ q g, w'.processDescriptorGetFd q g =
      if q = proc ∧ g = fd then none else w.processDescriptorGetFd q g) :
    w.ClosedEnd proc fd w' := by
  exact ⟨pipeOf_of_table file.tag table, file.pipes⟩

/-! ## Duplicating -/

/-- What `dupPipe` does to the ends of the pipe of the duplicated descriptor. -/
theorem dupPipe_ends {proc : Pid} {oldfd newfd : Int} {ref : DescRef}
    (done : w.dupPipe proc oldfd newfd ref = .ok w') (pipe : PipeId) (e : PipeEnd) :
    (w'.endsOf pipe).count e = (w.endsOf pipe).count e +
      if newfd ≠ oldfd ∧ e = { fd := newfd, proc := proc } ∧ tagPipe (w.tag ref) = some pipe then
        (w.endsOf pipe).count { fd := oldfd, proc := proc }
      else 0 := by
  have copied : ∀ ends ends' : List PipeEnd,
      copyEnds oldfd newfd proc (2 * ends.length + 1) 0 ends = some ends' →
      ends'.count e = ends.count e +
        if newfd ≠ oldfd ∧ e = { fd := newfd, proc := proc } then
          ends.count { fd := oldfd, proc := proc }
        else 0 := by
    intro ends ends' copied
    by_cases same : newfd = oldfd
    · subst same
      rw [copyEnds_self] at copied
      split at copied
      · cases copied
      · cases copied
        simp
    · rw [copyEnds_of_ne same] at copied
      cases copied
      rw [List.count_append, List.count_replicate]
      by_cases here : e = { fd := newfd, proc := proc }
      · simp [here, same]
      · simp [here, Ne.symm here]
  unfold dupPipe at done
  split at done
  · rename_i typed
    split at done
    · cases done
    · rename_i own piped
      have tagged : tagPipe (w.tag ref) = some own := tagPipe_eq_some.mpr (by rw [tag, typed, piped])
      dsimp only at done
      split at done
      · rename_i readEnd writeEnd read write
        cases done
        simp only [endsOf, Heap.cell_modify, tagged, Option.some.injEq]
        by_cases here : pipe = own
        · subst here
          simp only [if_true, List.count_append, copied _ _ read, copied _ _ write, and_true]
          split <;> omega
        · simp [here, Ne.symm here]
      · cases done
  · rename_i other
    cases done
    have none_ : tagPipe (w.tag ref) = none := if_neg other
    simp [none_]

/-- A descriptor of the target is made from the one of the source, as `dup` does it and `dup2`
    when the target is closed. -/
structure DupsEnd (proc : Pid) (oldfd newfd : Int) (o : Option PipeId) (w w' : World H) : Prop where
  pipeOf : ∀ e, w'.pipeOf e = if e = { fd := newfd, proc := proc } then o else w.pipeOf e
  made : w'.pipes.next = w.pipes.next
  freed : w'.pipes.freed = w.pipes.freed
  ends : ∀ pipe e, (w'.endsOf pipe).count e = (w.endsOf pipe).count e +
    if newfd ≠ oldfd ∧ e = { fd := newfd, proc := proc } ∧ o = some pipe then
      (w.endsOf pipe).count { fd := oldfd, proc := proc }
    else 0

namespace DupsEnd

variable {proc : Pid} {oldfd newfd : Int}
  (dups : w.DupsEnd proc oldfd newfd (w.pipeOf { fd := oldfd, proc := proc }) w')

include dups

theorem entry : w'.pipeOf { fd := newfd, proc := proc } = w.pipeOf { fd := oldfd, proc := proc } := by
  rw [dups.pipeOf, if_pos rfl]

theorem others {e : PipeEnd} (apart : e ≠ { fd := newfd, proc := proc }) :
    w'.pipeOf e = w.pipeOf e := by
  rw [dups.pipeOf, if_neg apart]

/-- The new end is listed as often as the old one, next to the ends that the target has. -/
theorem count (mirror : w.EndsMirror) (apart : newfd ≠ oldfd) {pipe : PipeId}
    (below : pipe < w.pipes.next) : (w'.endsOf pipe).count { fd := newfd, proc := proc } =
      (if w.pipeOf { fd := newfd, proc := proc } = some pipe then 1 else 0) +
        if w.pipeOf { fd := oldfd, proc := proc } = some pipe then 1 else 0 := by
  rw [dups.ends, mirror.listed pipe below, mirror.listed pipe below]
  by_cases piped : w.pipeOf { fd := oldfd, proc := proc } = some pipe
  · simp [apart, piped]
  · simp [piped]

/-- Onto itself a descriptor that is no end stays one. -/
theorem mirror_self (mirror : w.EndsMirror) (same : newfd = oldfd) : w'.EndsMirror := by
  subst same
  have table : w'.pipeOf = w.pipeOf := by
    funext e
    rw [dups.pipeOf]
    split
    · rename_i here
      rw [here]
    · rfl
  constructor
  · rw [dups.made, table]
    intro pipe below e
    rw [dups.ends, mirror.listed pipe below]
    simp
  · rw [dups.made, dups.freed, table]
    exact mirror.freed

theorem mirror_of_free (mirror : w.EndsMirror) (apart : newfd ≠ oldfd)
    (free : w.pipeOf { fd := newfd, proc := proc } = none) : w'.EndsMirror := by
  constructor
  · rw [dups.made]
    refine (mirror.listed.update_iff (fun e => dups.others) ?_).mpr ?_
    · intro pipe below e other
      simp [dups.ends, other]
    · intro pipe below
      rw [dups.count mirror apart below, dups.entry, free]
      simp
  · intro pipe below
    rw [dups.made] at below
    rw [dups.freed, mirror.freed pipe below]
    constructor
    · intro unused e
      by_cases here : e = { fd := newfd, proc := proc }
      · rw [here, dups.entry]
        exact unused _
      · rw [dups.others here]
        exact unused e
    · intro unused e piped
      by_cases here : e = { fd := newfd, proc := proc }
      · rw [here, free] at piped
        cases piped
      · exact unused e (by rw [dups.others here, piped])

theorem mirror (mirror : w.EndsMirror)
    (free : newfd ≠ oldfd → w.pipeOf { fd := newfd, proc := proc } = none) : w'.EndsMirror := by
  by_cases same : newfd = oldfd
  · exact dups.mirror_self mirror same
  · exact dups.mirror_of_free mirror same (free same)

theorem free_of_mirror (allocated : w.Allocated) (mirror : w.EndsMirror) (mirror' : w'.EndsMirror)
    (apart : newfd ≠ oldfd) : w.pipeOf { fd := newfd, proc := proc } = none := by
  by_contra other
  obtain ⟨pipe, piped⟩ := Option.ne_none_iff_exists'.mp other
  have below := allocated.pipeOf_lt piped
  have once := mirror'.listed pipe (dups.made ▸ below) { fd := newfd, proc := proc }
  rw [dups.count mirror apart below, dups.entry, if_pos piped] at once
  omega

end DupsEnd

theorem dupsEnd_dupPipe {v : World H} {proc : Pid} {oldfd newfd : Int} {ref : DescRef}
    (done : v.dupPipe proc oldfd newfd ref = .ok w')
    (table : ∀ q g, v.processDescriptorGetFd q g =
      if q = proc ∧ g = newfd then some ref else w.processDescriptorGetFd q g)
    (tag : v.tag = w.tag) (pipes : v.pipes = w.pipes) :
    w.DupsEnd proc oldfd newfd (tagPipe (w.tag ref)) w' := by
  have adds := addsEnd_dupPipe done
  have ends : v.endsOf = w.endsOf := by
    funext pipe
    simp only [endsOf, pipes]
  refine ⟨fun e => ?_, by rw [adds.made, pipes], by rw [adds.freed, pipes], fun pipe e => ?_⟩
  · have table' : ∀ q g, w'.processDescriptorGetFd q g =
        if q = proc ∧ g = newfd then some ref else w.processDescriptorGetFd q g := by
      intro q g
      rw [processDescriptorGetFd, adds.procs, ← processDescriptorGetFd, table]
    exact pipeOf_of_table (adds.tag.trans tag) table' e
  · rw [dupPipe_ends done pipe e, ends, tag]

theorem mirror_syscallDupPost_iff (allocated : w.Allocated) (mirror : w.EndsMirror) {proc : Pid}
    {oldfd newfd : Int} (done : w.syscallDupPost proc oldfd newfd = .ok w') :
    w'.EndsMirror ↔ (newfd ≠ oldfd → w.pipeOf { fd := newfd, proc := proc } = none) := by
  unfold syscallDupPost at done
  split at done
  · cases done
  · rename_i ref found
    have counted := w.sameTags_addRefcount ref 1
    have dups : w.DupsEnd proc oldfd newfd (w.pipeOf { fd := oldfd, proc := proc }) w' := by
      rw [pipeOf_of_found found]
      apply dupsEnd_dupPipe done
      · intro q g
        rw [getFd_setFd, counted.getFd]
      · rw [tag_setFd, counted.tag]
      · exact counted.pipes
    exact ⟨dups.free_of_mirror allocated mirror, dups.mirror mirror⟩

/-! ## New sockets -/

/-- A socket was registered at a number that was not in use. -/
structure Registers (proc : Pid) (fd : Int) (w w' : World H) : Prop where
  absent : w.processDescriptorGetFd proc fd = none
  table : ∀ q g, w'.processDescriptorGetFd q g =
    if q = proc ∧ g = fd then some (.socket w.sockets.next) else w.processDescriptorGetFd q g
  innocent : w.Innocent w'
  pipes : w'.pipes = w.pipes
  live : w'.sockets.freed w.sockets.next = false
  uncounted : (w'.fileDesc (.socket w.sockets.next)).refcount = 0

theorem Registers.mirror {proc : Pid} {fd : Int} (registers : w.Registers proc fd w')
    (allocated : w.Allocated) (mirror : w.EndsMirror) : w'.EndsMirror := by
  refine mirror.congr ?_ registers.pipes
  funext e
  by_cases here : e.proc = proc ∧ e.fd = fd
  · have entry := registers.table e.proc e.fd
    rw [if_pos here] at entry
    have typed := w'.tag_socket w.sockets.next
    have before : w.processDescriptorGetFd e.proc e.fd = none := by
      rw [here.1, here.2, registers.absent]
    simp [pipeOf, entry, before, tagPipe, typed]
  · apply pipeOf_congr allocated registers.innocent.evolves.tag
    rw [registers.table, if_neg here]

theorem registers_confirmRegisterSocket {proc : Pid} {fd : Int}
    (absent : w.processDescriptorGetFd proc fd = none) (domain type protocol : Int) :
    w.Registers proc fd (w.confirmRegisterSocket proc fd domain type protocol) where
  absent := absent
  table q g := w.getFd_setFd proc q fd g _
  innocent := w.innocent_confirmRegisterSocket ..
  pipes := rfl
  live := by rw [freed_confirmRegisterSocket, if_pos rfl]
  uncounted := by simp [fileDesc, World.socket, confirmRegisterSocket, newSocket]

end

section

variable {H : Type} [DecidableEq H] {w w' : World H}

theorem mirror_processCloseCall {proc : Pid} {fd : Int} (mirror : w.EndsMirror)
    (done : w.processCloseCall proc fd = .ok w') : w'.EndsMirror :=
  (closedEnd_of_file (processCloseCall_file done) (getFd_processCloseCall done)).mirror mirror

/-- Onto itself `dup2` closes an end and finds nothing left to duplicate. -/
theorem mirror_syscallDup2Post_iff (allocated : w.Allocated) (mirror : w.EndsMirror) {proc : Pid}
    {oldfd newfd : Int} (done : w.syscallDup2Post proc oldfd newfd = .ok w') :
    w'.EndsMirror ↔ (oldfd = newfd → w.pipeOf { fd := oldfd, proc := proc } = none) := by
  unfold syscallDup2Post at done
  split at done
  · cases done
  · rename_i ref found
    obtain ⟨v, closed, rest⟩ := bind_eq_ok.mp done
    have counted := w.sameTags_addRefcount ref 1
    have file := closeTarget_file closed
    have table := getFd_closeTarget closed
    have closedEnd : w.ClosedEnd proc newfd v := by
      apply closedEnd_of_file
      · refine ⟨file.stored.trans counted.stored, ?_, file.tag.trans counted.tag,
          file.made.trans counted.made⟩
        rw [file.pipes, closedPipes_addRefcount]
      · intro q g
        rw [table, counted.getFd]
    have dups : v.DupsEnd proc oldfd newfd (w.pipeOf { fd := oldfd, proc := proc }) w' := by
      rw [pipeOf_of_found found, ← counted.tag, ← file.tag]
      apply dupsEnd_dupPipe rest
      · intro q g
        rw [getFd_setFd]
      · exact tag_setFd ..
      · rfl
    have target : v.pipeOf { fd := newfd, proc := proc } = none := by
      rw [closedEnd.pipeOf, if_pos rfl]
    constructor
    · rintro mirror' rfl
      by_contra other
      obtain ⟨pipe, piped⟩ := Option.ne_none_iff_exists'.mp other
      have made : v.pipes.next = w.pipes.next := by rw [closedEnd.pipes, next_closedPipes]
      have below : pipe < v.pipes.next := made ▸ allocated.pipeOf_lt piped
      have once := mirror'.listed pipe (dups.made ▸ below) { fd := oldfd, proc := proc }
      rw [dups.ends, (closedEnd.mirror mirror).listed pipe below, target, dups.pipeOf, if_pos rfl,
        if_pos piped] at once
      simp at once
    · intro free
      have source : w.pipeOf { fd := oldfd, proc := proc } = v.pipeOf { fd := oldfd, proc := proc } := by
        by_cases same : oldfd = newfd
        · rw [free same, same, target]
        · rw [closedEnd.pipeOf, if_neg]
          simpa using same
      rw [source] at dups
      exact dups.mirror (closedEnd.mirror mirror) fun _ => target

theorem registers_acceptFrom {proc : Pid} {fd : Int}
    (absent : w.processDescriptorGetFd proc fd = none) (listener : SockId) (k conn : CommId)
    (rest : List CommId) (ip : UInt32) :
    w.Registers proc fd (w.acceptFrom proc fd listener k conn rest ip) where
  absent := absent
  table q g := w.getFd_setFd proc q fd g _
  innocent := w.innocent_acceptFrom ..
  pipes := rfl
  live := by
    have made : (w.acceptFrom proc fd listener k conn rest ip).sockets.freed =
        (w.confirmRegisterSocket proc fd (w.socket listener).domain (w.socket listener).type
          (w.socket listener).protocol).sockets.freed := rfl
    rw [made, freed_confirmRegisterSocket, if_pos rfl]
  uncounted := by
    simp [acceptFrom, fileDesc, World.socket, modifySocket, setAddress, registerPort, setPortDesc,
      takeConnection, modifyComm, confirmRegisterSocket, newSocket]

/-- What `socket` and `accept` do when they do not stop the simulator. -/
theorem registers_of_step {op : DescOp} (allocated : w.Allocated)
    (either : (∃ proc domain type protocol ret, op = .socket proc domain type protocol ret) ∨
      ∃ proc sockfd newfd, op = .accept proc sockfd newfd)
    (step : w.TableStep op.call w') : w' = w ∨ ∃ proc fd, w.Registers proc fd w' := by
  rcases either with ⟨proc, domain, type, protocol, ret, rfl⟩ | ⟨proc, sockfd, newfd, rfl⟩
  · obtain ⟨event, step⟩ := tableStep_call.mp step
    cases step.effect fun _ => allocated_old allocated with
    | quiet => exact .inl rfl
    | socket absent => exact .inr ⟨proc, ret, registers_confirmRegisterSocket absent ..⟩
  · obtain ⟨event, step⟩ := tableStep_call.mp step
    cases step.effect fun _ => allocated_old allocated with
    | quiet => exact .inl rfl
    | accept _ _ _ _ absent => exact .inr ⟨proc, newfd, registers_acceptFrom absent ..⟩

/-! ## Runs -/

theorem tableCall_socket (w : World H) (proc : Pid) (domain type protocol ret : Int) :
    w.tableCall (.call (.socket proc domain type protocol ret)) =
      w.syscallSocket proc domain type protocol ret := by
  simp only [tableCall, step]
  cases w.syscallSocket proc domain type protocol ret <;> rfl

theorem tableCall_dup (w : World H) (proc : Pid) (oldfd newfd : Int) :
    w.tableCall (.call (.dup proc oldfd newfd)) = w.syscallDupPost proc oldfd newfd := by
  simp only [tableCall, step]
  cases w.syscallDupPost proc oldfd newfd <;> rfl

theorem tableCall_dup2 (w : World H) (proc : Pid) (oldfd newfd : Int) :
    w.tableCall (.call (.dup2 proc oldfd newfd)) = w.syscallDup2Post proc oldfd newfd := by
  simp only [tableCall, step]
  cases w.syscallDup2Post proc oldfd newfd <;> rfl

theorem tableCall_close (w : World H) (proc : Pid) (fd : Int) :
    w.tableCall (.call (.close proc fd)) = w.processCloseCall proc fd := by
  simp only [tableCall, step]
  cases w.processCloseCall proc fd <;> rfl

def DescStep (w : World H) (op : DescOp) (w' : World H) : Prop := w.TableStep op.call w'

theorem DescStep.functional (w : World H) (op : DescOp) (w₁ w₂ : World H)
    (first : w.DescStep op w₁) (second : w.DescStep op w₂) : w₁ = w₂ :=
  TableStep.functional w op.call w₁ w₂ first second

/-- The call finds no end of a pipe where it puts a descriptor without looking: `open`, `creat`,
    `pipe` and `dup` none at all, `fcntl` none but of the pipe it copies. `dup2` looks, but
    must not duplicate an end onto itself. -/
def KeepsEnds (w : World H) : DescOp → Prop
  | .openFile proc _ _ ret | .creat proc _ ret =>
      ret ≥ 0 → w.pipeOf { fd := ret, proc := proc } = none
  | .pipe proc filedes => w.pipeOf { fd := filedes.1, proc := proc } = none ∧
      w.pipeOf { fd := filedes.1 + 1, proc := proc } = none
  | .dup proc oldfd newfd => newfd ≠ oldfd → w.pipeOf { fd := newfd, proc := proc } = none
  | .dup2 proc oldfd newfd => oldfd = newfd → w.pipeOf { fd := oldfd, proc := proc } = none
  | .dupfd proc fd _ ret =>
      w.pipeOf { fd := ret, proc := proc } = w.pipeOf { fd := fd, proc := proc }
  | .socket .. | .accept .. | .close .. => True

instance (w : World H) : (op : DescOp) → Decidable (w.KeepsEnds op)
  | .openFile .. | .creat .. | .dup .. | .dup2 .. => inferInstanceAs (Decidable (_ → _))
  | .pipe .. => inferInstanceAs (Decidable (_ ∧ _))
  | .dupfd .. => inferInstanceAs (Decidable (_ = _))
  | .socket .. | .accept .. | .close .. => inferInstanceAs (Decidable True)

theorem DescStep.mirror_iff {op : DescOp} (allocated : w.Allocated) (mirror : w.EndsMirror)
    (step : w.DescStep op w') : w'.EndsMirror ↔ w.KeepsEnds op := by
  cases op with
  | openFile proc flags mode ret =>
      cases step
      exact mirror_opened_iff allocated mirror proc ret rfl rfl
  | creat proc mode ret =>
      cases step
      exact mirror_opened_iff allocated mirror proc ret rfl rfl
  | pipe proc filedes =>
      cases step
      exact mirror_syscallPipePost_iff allocated mirror proc filedes
  | socket proc domain type protocol ret =>
      rcases registers_of_step allocated (.inl ⟨_, _, _, _, _, rfl⟩) step with rfl | ⟨_, _, registers⟩
      · exact iff_of_true mirror trivial
      · exact iff_of_true (registers.mirror allocated mirror) trivial
  | accept proc sockfd newfd =>
      rcases registers_of_step allocated (.inr ⟨_, _, _, rfl⟩) step with rfl | ⟨_, _, registers⟩
      · exact iff_of_true mirror trivial
      · exact iff_of_true (registers.mirror allocated mirror) trivial
  | dup proc oldfd newfd =>
      have done := (w.tableCall_dup proc oldfd newfd).symm.trans step
      exact mirror_syscallDupPost_iff allocated mirror done
  | dup2 proc oldfd newfd =>
      have done := (w.tableCall_dup2 proc oldfd newfd).symm.trans step
      exact mirror_syscallDup2Post_iff allocated mirror done
  | dupfd proc fd cloexec ret =>
      rcases processFcntlCall_cases step with ⟨-, flags, done⟩ | ⟨other, -⟩
      · exact mirror_fcntlDup_iff allocated mirror done
      · cases cloexec <;> cases other
  | close proc fd =>
      have done := (w.tableCall_close proc fd).symm.trans step
      exact iff_of_true (mirror_processCloseCall mirror done) trivial

/-- From any state in which the lists and the tables agree: they agree in every state of a run
    if and only if each call keeps the ends in the state before it. -/
theorem ends_mirror_iff {w₀ : World H} {ops : List DescOp} (allocated : w₀.Allocated)
    (mirror : w₀.EndsMirror) (run : Run DescStep w₀ ops w) :
    Run (Guarded KeepsEnds DescStep) w₀ ops w ↔
      ∀ ops' w', ops' <+: ops → Run DescStep w₀ ops' w' → w'.EndsMirror := by
  refine Run.guarded_iff (fun _ v => v.EndsMirror) DescStep.functional mirror ?_ run
  intro _ v op v' before mirror step
  have stored := before.invariant Allocated allocated fun _ _ _ stored step =>
    TableStep.allocated stored step
  exact step.mirror_iff stored mirror

/-- What can be computed of some calls holds after a run of them. -/
theorem exists_descOps (guard : World H → DescOp → Prop) [∀ w op, Decidable (guard w op)]
    (w₀ : World H) (ops : List DescOp) {P : World H → Prop}
    (found : ∃ r ∈ perform (fun w op => (w.tableCall op.call).toOption.map fun w' => (op, w'))
      guard w₀ ops, r.1 = ops ∧ P r.2) :
    ∃ w, Run (Guarded guard DescStep) w₀ ops w ∧ P w := by
  have correct : ∀ (w : World H) (op : DescOp) (w' : World H), w.tableCall op.call = .ok w' →
      w.DescStep op w' := fun _ _ _ done => done
  obtain ⟨ops', w, run, rfl, holds⟩ := Run.exists_of_results
    (P := fun ops' w => ops' = ops ∧ P w) correct found
  exact ⟨w, run, holds⟩

theorem threeHosts_allocated : threeHosts.Allocated :=
  fun proc fd ref found => absurd found (threeHosts_bare proc fd ref)

theorem threeHosts_mirror : threeHosts.EndsMirror :=
  ⟨fun pipe below => absurd below (Nat.not_lt_zero pipe),
    fun pipe below => absurd below (Nat.not_lt_zero pipe)⟩

/-- Both ends of a pipe are duplicated, one of them onto the other, and closed. -/
def duplicatedEnds : List DescOp :=
  [.pipe 0 (3, 4), .dup 0 3 5, .dup2 0 4 5, .close 0 4, .pipe 0 (6, 7), .dup2 0 5 6, .close 0 3,
    .close 0 7]

theorem duplicated_ends_mirror : ∃ w, Run DescStep threeHosts duplicatedEnds w ∧ w.EndsMirror ∧
    w.endsOf 0 = [{ fd := 5, proc := 0 }, { fd := 6, proc := 0 }] ∧ w.pipes.freed 1 = true := by
  obtain ⟨w, guarded, ends, freed⟩ := exists_descOps KeepsEnds threeHosts duplicatedEnds
    (P := fun w => w.endsOf 0 = [{ fd := 5, proc := 0 }, { fd := 6, proc := 0 }] ∧
      w.pipes.freed 1 = true) (by decide +kernel)
  have run := guarded.mono fun _ _ _ step => step.2
  have mirror := (ends_mirror_iff threeHosts_allocated threeHosts_mirror run).mp guarded
  exact ⟨w, run, mirror _ _ (List.prefix_refl _) run, ends, freed⟩

/-- A descriptor that `F_DUPFD` made of a read end is on neither list. -/
theorem fcntl_duplicate_unlisted : ∃ w,
    Run DescStep threeHosts [.pipe 0 (3, 4), .dupfd 0 3 false 5] w ∧
      w.pipeOf { fd := 5, proc := 0 } = some 0 ∧ { fd := 5, proc := 0 } ∉ w.endsOf 0 ∧
      ¬ w.EndsMirror := by
  obtain ⟨w, run, made, piped, unlisted⟩ := exists_descOps (fun _ _ => True) threeHosts
    [.pipe 0 (3, 4), .dupfd 0 3 false 5]
    (P := fun w => w.pipes.next = 1 ∧ w.pipeOf { fd := 5, proc := 0 } = some 0 ∧
      { fd := 5, proc := 0 } ∉ w.endsOf 0) (by decide +kernel)
  refine ⟨w, run.mono fun _ _ _ step => step.2, piped, unlisted, fun mirror => unlisted ?_⟩
  exact (mirror.listed.mem_iff (made ▸ Nat.zero_lt_one) _).mpr piped

end

end World

end Simterpose
