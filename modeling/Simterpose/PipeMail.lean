import Simterpose.Ends

/-! # Messages through pipes

A `write` on a pipe sends a task to a mailbox, at the exit of the call, and a `read` waits
for one at its entry. The writer names the mailbox after the number of the first read end
of the pipe, the reader after the number of its own descriptor, and all processes and
pipes share these names. MSG is assumed to hand the tasks of a mailbox out in sending order.
-/

namespace Simterpose

open Lib

/-- Which end of a pipe a descriptor is. -/
inductive Side where
  | read | write
  deriving Repr, DecidableEq

/-- An open descriptor of a pipe: what `pipe` made, or a copy of it. -/
structure OpenEnd where
  fd : Int
  proc : Pid
  pipe : PipeId
  side : Side
  deriving Repr, DecidableEq

/-- A task sent for a `write` on a pipe. The name of its mailbox is the numeral of `mailbox`,
    so names are the same when the numbers are. -/
structure PipeTask where
  mailbox : Int
  pipe : PipeId
  amount : Int
  deriving Repr, DecidableEq

/-- The tables, the open descriptors of pipes and the tasks sent and not yet received, in
    sending order. The list of descriptors only says what the calls mean; no handler has it. -/
structure PipeMail (H : Type) where
  world : World H
  opened : List OpenEnd
  sent : List PipeTask

inductive MailOp where
  | pipe (proc : Pid) (filedes : Int × Int)
  | dup (proc : Pid) (oldfd newfd : Int)
  | dup2 (proc : Pid) (oldfd newfd : Int)
  | clone (parent pid : Pid) (own : List Int)
  | close (proc : Pid) (fd : Int)
  | write (proc : Pid) (fd ret : Int)
  | read (proc : Pid) (fd : Int)
  deriving Repr, DecidableEq

/-- The open descriptors without the one of a process with the given number. -/
def closeEnd (proc : Pid) (fd : Int) (opened : List OpenEnd) : List OpenEnd :=
  opened.filter fun e => ¬ (e.proc = proc ∧ e.fd = fd)

/-- The descriptor `newfd` becomes what `oldfd` is. -/
def dupEnd (proc : Pid) (oldfd newfd : Int) (opened : List OpenEnd) : List OpenEnd :=
  closeEnd proc newfd opened ++
    (opened.filter fun e => e.proc = proc ∧ e.fd = oldfd).map ({ · with fd := newfd })

/-- The two ends of a new pipe are opened. -/
def pipeEnds (proc : Pid) (p0 : Int) (pipe : PipeId) (opened : List OpenEnd) : List OpenEnd :=
  closeEnd proc (p0 + 1) (closeEnd proc p0 opened) ++
    [{ fd := p0, proc := proc, pipe := pipe, side := .read },
      { fd := p0 + 1, proc := proc, pipe := pipe, side := .write }]

/-- The clone has copies of its parent's descriptors and no others. -/
def cloneOpened (parent clone : Pid) (opened : List OpenEnd) : List OpenEnd :=
  opened.filter (·.proc ≠ clone) ++ (opened.filter (·.proc = parent)).map ({ · with proc := clone })

namespace PipeMail

section

variable {H : Type}

/-- The exit of `syscall_write` with the kernel's result. -/
def syscallWrite (s : PipeMail H) (proc : Pid) (fd ret : Int) : Result (PipeMail H) :=
  match s.world.processDescriptorGetFd proc fd with
  | none => .error .segfault
  | some ref =>
      if (s.world.fileDesc ref).type = .pipe then
        match (s.world.fileDesc ref).pipe with
        | none => .error .throwImpossible
        | some pipe =>
            match (s.world.pipes.cell pipe).readEnd with
            | [] => .error .xbtAssert
            | endIn :: _ =>
                .ok { s with sent := s.sent ++ [{ mailbox := endIn.fd, pipe := pipe, amount := ret }] }
      else .ok s

/-- The entry of `syscall_read` on a descriptor that is no socket. -/
def syscallRead (s : PipeMail H) (proc : Pid) (fd : Int) : Result (PipeMail H) :=
  match s.world.processDescriptorGetFd proc fd with
  | none => .error .segfault
  | some ref =>
      if (s.world.fileDesc ref).type = .pipe then
        match (s.world.fileDesc ref).pipe with
        | none => .error .throwImpossible
        | some _ =>
            if s.sent.any (·.mailbox = fd) then .ok { s with sent := s.sent.eraseP (·.mailbox = fd) }
            else .error .blocked
      else .ok s

end

variable {H : Type} [DecidableEq H]

def step (s : PipeMail H) : MailOp → Result (PipeMail H)
  | .pipe proc filedes =>
      .ok { s with
        world := s.world.syscallPipePost proc filedes 0
        opened := pipeEnds proc filedes.1 s.world.pipes.next s.opened }
  | .dup proc oldfd newfd => do
      let w ← s.world.syscallDupPost proc oldfd newfd
      return { s with world := w, opened := dupEnd proc oldfd newfd s.opened }
  | .dup2 proc oldfd newfd => do
      let w ← s.world.syscallDup2Post proc oldfd newfd
      return { s with world := w, opened := dupEnd proc oldfd newfd s.opened }
  | .clone parent pid own => do
      let w ← s.world.cloneProcess parent pid own
      return { s with world := w, opened := cloneOpened parent pid s.opened }
  | .close proc fd => do
      let w ← s.world.processCloseCall proc fd
      return { s with world := w, opened := closeEnd proc fd s.opened }
  | .write proc fd ret => s.syscallWrite proc fd ret
  | .read proc fd => s.syscallRead proc fd

/-- One call; a new pipe is at an address never used before. -/
def Step (s : PipeMail H) (op : MailOp) (s' : PipeMail H) : Prop := s.step op = .ok s'

end PipeMail

namespace World

section

variable {H : Type} {w w' : World H}

theorem mem_readEnd_closedPipes {proc : Pid} {fd : Int} {pipe : PipeId} {e : PipeEnd}
    (listed : e ∈ ((w.closedPipes proc fd).cell pipe).readEnd) :
    e ∈ (w.pipes.cell pipe).readEnd := by
  unfold closedPipes at listed
  split at listed
  · rename_i own _
    rw [cell_closePipe] at listed
    by_cases here : pipe = own
    · rw [if_pos here, ← here] at listed
      exact (List.mem_filter.mp listed).1
    · rwa [if_neg here] at listed
  · exact listed

/-- The descriptor `newfd` has become a read end of the pipes whose lists have `oldfd`. -/
structure CopiesEnd (proc : Pid) (oldfd newfd : Int) (w w' : World H) : Prop where
  made : w'.pipes.next = w.pipes.next
  readEnd : ∀ pipe, ∀ e ∈ (w'.pipes.cell pipe).readEnd, e ∈ (w.pipes.cell pipe).readEnd ∨
    e.fd = newfd ∧ { fd := oldfd, proc := proc } ∈ (w.pipes.cell pipe).readEnd ∧
      w.pipeOf { fd := oldfd, proc := proc } = some pipe

theorem fd_of_mem_copyEnds {proc : Pid} {oldfd newfd : Int} {ends ends' : List PipeEnd}
    (copied : copyEnds oldfd newfd proc (2 * ends.length + 1) 0 ends = some ends') {e : PipeEnd}
    (listed : e ∈ ends') : e ∈ ends ∨ e.fd = newfd ∧ { fd := oldfd, proc := proc } ∈ ends := by
  by_cases same : newfd = oldfd
  · subst same
    rw [copyEnds_self] at copied
    split at copied
    · cases copied
    · cases copied
      exact .inl listed
  · rw [copyEnds_of_ne same] at copied
    cases copied
    rcases List.mem_append.mp listed with old | new
    · exact .inl old
    · obtain ⟨some_, rfl⟩ := List.mem_replicate.mp new
      exact .inr ⟨rfl, List.count_pos_iff.mp (Nat.pos_of_ne_zero some_)⟩

theorem mem_readEnd_dupPipe {proc : Pid} {oldfd newfd : Int} {ref : DescRef}
    (done : w.dupPipe proc oldfd newfd ref = .ok w') {pipe : PipeId} {e : PipeEnd}
    (listed : e ∈ (w'.pipes.cell pipe).readEnd) : e ∈ (w.pipes.cell pipe).readEnd ∨
      e.fd = newfd ∧ { fd := oldfd, proc := proc } ∈ (w.pipes.cell pipe).readEnd ∧
        tagPipe (w.tag ref) = some pipe := by
  unfold dupPipe at done
  split at done
  · rename_i typed
    split at done
    · cases done
    · rename_i own piped
      dsimp only at done
      split at done
      · rename_i readEnd writeEnd read write
        cases done
        simp only [Heap.cell_modify] at listed
        by_cases here : pipe = own
        · subst here
          rw [if_pos rfl] at listed
          have tagged : tagPipe (w.tag ref) = some pipe :=
            tagPipe_eq_some.mpr (by rw [tag, typed, piped])
          exact (fd_of_mem_copyEnds read listed).imp_right fun new => ⟨new.1, new.2, tagged⟩
        · rw [if_neg here] at listed
          exact .inl listed
      · cases done
  · cases done
    exact .inl listed

theorem copiesEnd_syscallDupPost {proc : Pid} {oldfd newfd : Int}
    (done : w.syscallDupPost proc oldfd newfd = .ok w') : w.CopiesEnd proc oldfd newfd w' := by
  unfold syscallDupPost at done
  split at done
  · cases done
  · rename_i ref found
    have counted := w.sameTags_addRefcount ref 1
    refine ⟨(addsEnd_dupPipe done).made.trans (congrArg Heap.next counted.pipes), ?_⟩
    intro pipe e listed
    have pipes : ((w.addRefcount ref 1).processDescriptorSetFd proc newfd (some ref)).pipes =
        w.pipes := counted.pipes
    have new := mem_readEnd_dupPipe done listed
    rwa [tag_setFd, counted.tag, ← pipeOf_of_found found, pipes] at new

end

section

variable {H : Type} [DecidableEq H] {w w' : World H}

theorem copiesEnd_syscallDup2Post {proc : Pid} {oldfd newfd : Int}
    (done : w.syscallDup2Post proc oldfd newfd = .ok w') : w.CopiesEnd proc oldfd newfd w' := by
  unfold syscallDup2Post at done
  split at done
  · cases done
  · rename_i ref found
    obtain ⟨v, closed, rest⟩ := bind_eq_ok.mp done
    have counted := w.sameTags_addRefcount ref 1
    have file := closeTarget_file closed
    have pipes : (v.processDescriptorSetFd proc newfd (some ref)).pipes = w.closedPipes proc newfd :=
      file.pipes.trans (closedPipes_addRefcount ..)
    constructor
    · rw [(addsEnd_dupPipe rest).made, pipes, next_closedPipes]
    · intro pipe e listed
      have new := mem_readEnd_dupPipe rest listed
      rw [tag_setFd, file.tag, counted.tag, ← pipeOf_of_found found, pipes] at new
      exact new.imp mem_readEnd_closedPipes fun new =>
        ⟨new.1, mem_readEnd_closedPipes new.2.1, new.2.2⟩

end

end World

/-- A `read` on the descriptor gets the task if it is a read end of the pipe the task was sent
    for, and does not get it if it is a descriptor of another pipe. -/
def PipeTask.Meets (task : PipeTask) (e : OpenEnd) : Prop :=
  (e.pipe = task.pipe → e.side = .read → e.fd = task.mailbox) ∧
    (e.pipe ≠ task.pipe → e.fd ≠ task.mailbox)

instance (task : PipeTask) (e : OpenEnd) : Decidable (task.Meets e) :=
  inferInstanceAs (Decidable (_ ∧ _))

namespace PipeMail

section

variable {H : Type} {s s' : PipeMail H}

/-- Every task that was sent can be received where it should and nowhere else. -/
def Stays (s : PipeMail H) : Prop := ∀ task ∈ s.sent, ∀ e ∈ s.opened, task.Meets e

instance (s : PipeMail H) : Decidable s.Stays := inferInstanceAs (Decidable (∀ _ ∈ _, _))

/-- The open descriptors are those that the tables have. -/
def Sided (s : PipeMail H) : Prop :=
  ∀ fd proc pipe, s.world.pipeOf { fd := fd, proc := proc } = some pipe ↔
    ∃ side, { fd, proc, pipe, side } ∈ s.opened

/-- The mailbox that a `write` on the descriptor sends to, and its pipe. -/
def writes (s : PipeMail H) (proc : Pid) (fd : Int) : Option (Int × PipeId) := do
  let pipe ← s.world.pipeOf { fd := fd, proc := proc }
  let endIn ← (s.world.pipes.cell pipe).readEnd.head?
  return (endIn.fd, pipe)

/-- The number is one by which the pipe is read: that of an open read end, of an end on the list
    from which a `write` takes its mailbox, or of the mailbox of a task on the way. -/
def ReadAt (s : PipeMail H) (pipe : PipeId) (n : Int) : Prop :=
  pipe < s.world.pipes.next ∧
    ((∃ e ∈ s.opened, e.pipe = pipe ∧ e.side = .read ∧ e.fd = n) ∨
      (∃ e ∈ (s.world.pipes.cell pipe).readEnd, e.fd = n) ∨
      ∃ task ∈ s.sent, task.pipe = pipe ∧ task.mailbox = n)

instance (s : PipeMail H) (pipe : PipeId) (n : Int) : Decidable (s.ReadAt pipe n) :=
  inferInstanceAs (Decidable (_ ∧ (_ ∨ _ ∨ _)))

/-- Numbers tell the pipes apart: what `pipe` and `dup` return is no number by which another pipe
    is read, a new pipe is read by a number that no pipe has, and the number by which a pipe is
    read is not duplicated to another one. -/
def KeepsApart (s : PipeMail H) : MailOp → Prop
  | .pipe _ filedes => (∀ e ∈ s.opened, e.fd ≠ filedes.1) ∧
      ∀ pipe < s.world.pipes.next, ¬ s.ReadAt pipe filedes.1 ∧ ¬ s.ReadAt pipe (filedes.1 + 1)
  | .dup proc oldfd newfd | .dup2 proc oldfd newfd => ∀ e ∈ s.opened, e.proc = proc → e.fd = oldfd →
      (s.ReadAt e.pipe oldfd → newfd = oldfd) ∧
        ∀ pipe < s.world.pipes.next, pipe ≠ e.pipe → ¬ s.ReadAt pipe newfd
  | .clone .. | .close .. | .write .. | .read .. => True

instance (s : PipeMail H) : (op : MailOp) → Decidable (s.KeepsApart op)
  | .pipe .. => inferInstanceAs (Decidable (_ ∧ _))
  | .dup .. | .dup2 .. => inferInstanceAs (Decidable (∀ _ ∈ _, _))
  | .clone .. | .close .. | .write .. | .read .. => inferInstanceAs (Decidable True)

/-- A pipe is read by one number, and no other pipe has it. -/
structure Apart (s : PipeMail H) : Prop where
  one : ∀ pipe n m, s.ReadAt pipe n → s.ReadAt pipe m → m = n
  own : ∀ pipe other n, s.ReadAt pipe n → s.ReadAt other n → other = pipe
  foreign : ∀ pipe n, s.ReadAt pipe n → ∀ e ∈ s.opened, e.pipe ≠ pipe → e.fd ≠ n
  sent : ∀ task ∈ s.sent, task.pipe < s.world.pipes.next

/-- What a `write` would send next can be received where it should and nowhere else, and goes to a
    mailbox of its own pipe. -/
def Named (s : PipeMail H) : Prop :=
  ∀ proc fd m, s.writes proc fd = some m →
    (∀ ret, ∀ e ∈ s.opened, PipeTask.Meets { mailbox := m.1, pipe := m.2, amount := ret } e) ∧
      ∀ proc' fd' m', s.writes proc' fd' = some m' → m'.2 ≠ m.2 → m'.1 ≠ m.1

/-! ## One call -/

theorem mem_closeEnd {proc : Pid} {fd : Int} {opened : List OpenEnd} {e : OpenEnd} :
    e ∈ closeEnd proc fd opened ↔ e ∈ opened ∧ ¬ (e.proc = proc ∧ e.fd = fd) := by
  rw [closeEnd, List.mem_filter, decide_eq_true_eq]

theorem mem_dupEnd {proc : Pid} {oldfd newfd : Int} {opened : List OpenEnd} {e : OpenEnd} :
    e ∈ dupEnd proc oldfd newfd opened ↔ e ∈ opened ∧ ¬ (e.proc = proc ∧ e.fd = newfd) ∨
      (e.proc = proc ∧ e.fd = newfd) ∧ { e with fd := oldfd } ∈ opened := by
  simp only [dupEnd, List.mem_append, mem_closeEnd, List.mem_map, List.mem_filter,
    decide_eq_true_eq]
  apply or_congr_right
  constructor
  · rintro ⟨old, ⟨listed, rfl, rfl⟩, rfl⟩
    exact ⟨⟨rfl, rfl⟩, listed⟩
  · rintro ⟨⟨rfl, rfl⟩, listed⟩
    exact ⟨_, ⟨listed, rfl, rfl⟩, rfl⟩

theorem mem_pipeEnds {proc : Pid} {p0 : Int} {pipe : PipeId} {opened : List OpenEnd} {e : OpenEnd} :
    e ∈ pipeEnds proc p0 pipe opened ↔
      ((e ∈ opened ∧ ¬ (e.proc = proc ∧ e.fd = p0)) ∧ ¬ (e.proc = proc ∧ e.fd = p0 + 1)) ∨
        e = { fd := p0, proc := proc, pipe := pipe, side := .read } ∨
        e = { fd := p0 + 1, proc := proc, pipe := pipe, side := .write } := by
  simp only [pipeEnds, List.mem_append, mem_closeEnd, List.mem_cons, List.not_mem_nil, or_false]

theorem mem_cloneOpened {parent clone : Pid} {opened : List OpenEnd} {e : OpenEnd} :
    e ∈ cloneOpened parent clone opened ↔ e ∈ opened ∧ e.proc ≠ clone ∨
      e.proc = clone ∧ { e with proc := parent } ∈ opened := by
  simp only [cloneOpened, List.mem_append, List.mem_map, List.mem_filter, decide_eq_true_eq]
  apply or_congr_right
  constructor
  · rintro ⟨old, ⟨listed, rfl⟩, rfl⟩
    exact ⟨rfl, listed⟩
  · rintro ⟨rfl, listed⟩
    exact ⟨_, ⟨listed, rfl⟩, rfl⟩

theorem syscallWrite_ok {proc : Pid} {fd ret : Int} (done : s.syscallWrite proc fd ret = .ok s') :
    s.writes proc fd = none ∧ s' = s ∨ ∃ m, s.writes proc fd = some m ∧
      s' = { s with sent := s.sent ++ [{ mailbox := m.1, pipe := m.2, amount := ret }] } := by
  unfold syscallWrite at done
  split at done
  · cases done
  · rename_i ref found
    split at done
    · rename_i typed
      split at done
      · cases done
      · rename_i pipe piped
        have here : s.world.pipeOf { fd := fd, proc := proc } = some pipe :=
          World.pipeOf_eq_some.mpr ⟨ref, found, by rw [World.tag, typed, piped]⟩
        split at done
        · cases done
        · rename_i endIn rest ends
          cases done
          exact .inr ⟨(endIn.fd, pipe), by simp [writes, here, ends], rfl⟩
    · rename_i other
      cases done
      have none_ : s.world.pipeOf { fd := fd, proc := proc } = none := by
        simp [World.pipeOf, found, tagPipe, World.tag, other]
      exact .inl ⟨by simp [writes, none_], rfl⟩

theorem syscallRead_ok {proc : Pid} {fd : Int} (done : s.syscallRead proc fd = .ok s') :
    s'.world = s.world ∧ s'.opened = s.opened ∧ ∀ task ∈ s'.sent, task ∈ s.sent := by
  unfold syscallRead at done
  split at done
  · cases done
  · split at done
    · split at done
      · cases done
      · split at done
        · cases done
          exact ⟨rfl, rfl, fun _ => List.mem_of_mem_eraseP⟩
        · cases done
    · cases done
      exact ⟨rfl, rfl, fun _ => id⟩

/-! ## What is open -/

theorem sided_closeEnd {w : World H} {proc : Pid} {fd : Int} (sided : s.Sided)
    (pipeOf : ∀ e, w.pipeOf e =
      if e = { fd := fd, proc := proc } then none else s.world.pipeOf e) :
    Sided { s with world := w, opened := closeEnd proc fd s.opened } := by
  intro g q pipe
  simp only [pipeOf, mem_closeEnd, PipeEnd.mk.injEq]
  by_cases here : g = fd ∧ q = proc
  · simp [here]
  · have apart : ¬ (q = proc ∧ g = fd) := fun other => here other.symm
    simpa [here, apart] using sided g q pipe

theorem sided_dupEnd {w : World H} {proc : Pid} {oldfd newfd : Int} (sided : s.Sided)
    (pipeOf : ∀ e, w.pipeOf e = if e = { fd := newfd, proc := proc } then
      s.world.pipeOf { fd := oldfd, proc := proc } else s.world.pipeOf e) :
    Sided { s with world := w, opened := dupEnd proc oldfd newfd s.opened } := by
  intro fd q pipe
  simp only [pipeOf, mem_dupEnd, PipeEnd.mk.injEq]
  by_cases here : fd = newfd ∧ q = proc
  · obtain ⟨rfl, rfl⟩ := here
    simpa using sided oldfd q pipe
  · have apart : ¬ (q = proc ∧ fd = newfd) := fun other => here other.symm
    simpa [here, apart] using sided fd q pipe

theorem sided_pipe (allocated : s.world.Allocated) (sided : s.Sided) (proc : Pid)
    (filedes : Int × Int) : Sided
      { s with
        world := s.world.syscallPipePost proc filedes 0
        opened := pipeEnds proc filedes.1 s.world.pipes.next s.opened } := by
  intro g q pipe
  simp only [World.pipeOf_syscallPipePost allocated, mem_pipeEnds, PipeEnd.mk.injEq, OpenEnd.mk.injEq]
  by_cases either : (g = filedes.1 ∧ q = proc) ∨ g = filedes.1 + 1 ∧ q = proc
  · have apart : filedes.1 ≠ filedes.1 + 1 := by omega
    rw [if_pos either, Option.some.injEq, eq_comm]
    rcases either with ⟨rfl, rfl⟩ | ⟨rfl, rfl⟩
    · simp [apart]
    · simp [apart.symm]
  · rw [if_neg either]
    rw [not_or] at either
    have first : ¬ (q = proc ∧ g = filedes.1) := fun other => either.1 other.symm
    have second : ¬ (q = proc ∧ g = filedes.1 + 1) := fun other => either.2 other.symm
    rw [sided g q pipe]
    constructor
    · rintro ⟨side, listed⟩
      exact ⟨side, .inl ⟨⟨listed, first⟩, second⟩⟩
    · rintro ⟨side, ⟨⟨listed, -⟩, -⟩ | ⟨rfl, rfl, -⟩ | ⟨rfl, rfl, -⟩⟩
      · exact ⟨side, listed⟩
      · exact absurd ⟨rfl, rfl⟩ first
      · exact absurd ⟨rfl, rfl⟩ second

/-- The clone's descriptors are of the pipes that its parent's are of. -/
theorem pipeOf_clone {w w' : World H} {parent pid : Pid} {own : List Int}
    (clones : w.Clones parent pid own w') (g : Int) :
    w'.pipeOf { fd := g, proc := pid } = w.pipeOf { fd := g, proc := parent } := by
  cases there : w.processDescriptorGetFd parent g with
  | none =>
      have before : w.pipeOf { fd := g, proc := parent } = none := by simp [World.pipeOf, there]
      rw [before]
      cases found : w'.processDescriptorGetFd pid g with
      | none => simp [World.pipeOf, found]
      | some ref =>
          obtain ⟨-, tagged, -⟩ := clones.own g ref there found
          simp [World.pipeOf, found, tagged, tagPipe]
  | some ref =>
      obtain ⟨d, entered, -, stored⟩ := clones.copied g ref there
      simp only [World.pipeOf, entered, there, Option.bind_some, World.tag, World.fileDesc, stored]
      rfl

theorem sided_clone {w : World H} {parent pid : Pid} {own : List Int}
    (allocated : s.world.Allocated) (sided : s.Sided) (clones : s.world.Clones parent pid own w) :
    Sided { s with world := w, opened := cloneOpened parent pid s.opened } := by
  intro g q pipe
  simp only [mem_cloneOpened]
  by_cases here : q = pid
  · subst here
    rw [pipeOf_clone clones, sided g parent pipe]
    simp
  · have same : w.pipeOf { fd := g, proc := q } = s.world.pipeOf { fd := g, proc := q } :=
      World.pipeOf_congr allocated (fun _ held => clones.tag held) (clones.getFd here g)
    rw [same, sided g q pipe]
    simp [here]

/-! ## The numbers by which pipes are read -/

theorem fd_of_mem_passedEnds {clone : Pid} {passes : Nat} {ends : List PipeEnd} {e : PipeEnd}
    (listed : e ∈ passedEnds clone passes ends) : ∃ old ∈ ends, old.fd = e.fd := by
  rcases List.mem_append.mp listed with old | new
  · exact ⟨e, old, rfl⟩
  · obtain ⟨pass, isPass, added⟩ := List.mem_flatten.mp new
    rw [List.eq_of_mem_replicate isPass] at added
    obtain ⟨old, kept, rfl⟩ := List.mem_map.mp added
    exact ⟨old, (List.mem_filter.mp kept).1, rfl⟩

theorem readAt_of_writes (allocated : s.world.Allocated) {proc : Pid} {fd : Int} {m : Int × PipeId}
    (writes : s.writes proc fd = some m) : s.ReadAt m.2 m.1 := by
  simp only [PipeMail.writes, Option.bind_eq_bind, Option.bind_eq_some_iff, Option.pure_def,
    Option.some.injEq] at writes
  obtain ⟨pipe, piped, endIn, first, rfl⟩ := writes
  exact ⟨allocated.pipeOf_lt piped, .inr (.inl ⟨endIn, List.mem_of_head? first, rfl⟩)⟩

theorem Sided.pipe_lt (sided : s.Sided) (allocated : s.world.Allocated) {e : OpenEnd}
    (listed : e ∈ s.opened) : e.pipe < s.world.pipes.next :=
  allocated.pipeOf_lt ((sided e.fd e.proc e.pipe).mpr ⟨e.side, listed⟩)

theorem Apart.meets (allocated : s.world.Allocated) (sided : s.Sided) (apart : s.Apart)
    {task : PipeTask} (read : s.ReadAt task.pipe task.mailbox) {e : OpenEnd}
    (listed : e ∈ s.opened) : task.Meets e := by
  constructor
  · rintro same side
    have open_ : s.ReadAt task.pipe e.fd :=
      ⟨same ▸ sided.pipe_lt allocated listed, .inl ⟨e, listed, same, side, rfl⟩⟩
    exact apart.one _ _ _ read open_
  · exact apart.foreign _ _ read e listed

theorem Apart.stays (allocated : s.world.Allocated) (sided : s.Sided) (apart : s.Apart) : s.Stays := by
  intro task sent e listed
  have read : s.ReadAt task.pipe task.mailbox :=
    ⟨apart.sent task sent, .inr (.inr ⟨task, sent, rfl, rfl⟩)⟩
  exact apart.meets allocated sided read listed

theorem Apart.named (allocated : s.world.Allocated) (sided : s.Sided) (apart : s.Apart) :
    s.Named := by
  intro proc fd m writes
  have read := readAt_of_writes allocated writes
  refine ⟨fun ret e listed => apart.meets allocated sided read listed, ?_⟩
  intro proc' fd' m' writes' other same
  have read' := readAt_of_writes allocated writes'
  rw [same] at read'
  exact other (apart.own _ _ _ read read')

/-- Of what is read afterwards everything was read by the same number before. -/
theorem Apart.of_readAt (apart : s.Apart) (old : ∀ pipe n, s'.ReadAt pipe n → s.ReadAt pipe n)
    (opened : ∀ e ∈ s'.opened, (∃ e₀ ∈ s.opened, e₀.pipe = e.pipe ∧ e₀.fd = e.fd) ∨
      ∀ pipe, pipe ≠ e.pipe → ¬ s.ReadAt pipe e.fd)
    (sent : ∀ task ∈ s'.sent, task.pipe < s'.world.pipes.next) : s'.Apart where
  one pipe n m first second := apart.one pipe n m (old pipe n first) (old pipe m second)
  own pipe other n first second := apart.own pipe other n (old pipe n first) (old other n second)
  foreign pipe n read e listed other := by
    rcases opened e listed with ⟨e₀, before, same, number⟩ | free
    · rw [← number]
      exact apart.foreign pipe n (old pipe n read) e₀ before (same ▸ other)
    · rintro rfl
      exact free pipe (Ne.symm other) (old pipe _ read)
  sent := sent

/-- No call but `pipe` and `dup` brings a new number. -/
theorem Apart.of_old (apart : s.Apart) (made : s'.world.pipes.next = s.world.pipes.next)
    (opened : ∀ e ∈ s'.opened, ∃ e₀ ∈ s.opened, e₀.pipe = e.pipe ∧ e₀.side = e.side ∧ e₀.fd = e.fd)
    (ends : ∀ pipe, ∀ e ∈ (s'.world.pipes.cell pipe).readEnd,
      ∃ e₀ ∈ (s.world.pipes.cell pipe).readEnd, e₀.fd = e.fd)
    (sent : ∀ task ∈ s'.sent, task ∈ s.sent ∨ s.ReadAt task.pipe task.mailbox) : s'.Apart := by
  refine apart.of_readAt ?_ (fun e listed => ?_) (fun task listed => ?_)
  · rintro pipe n ⟨below, ⟨e, listed, rfl, side, rfl⟩ | ⟨e, listed, rfl⟩ | ⟨task, listed, rfl, rfl⟩⟩
    · obtain ⟨e₀, before, same, side', number⟩ := opened e listed
      exact ⟨made ▸ below, .inl ⟨e₀, before, same, side'.trans side, number⟩⟩
    · exact ⟨made ▸ below, .inr (.inl (ends pipe e listed))⟩
    · rcases sent task listed with before | read
      · exact ⟨made ▸ below, .inr (.inr ⟨task, before, rfl, rfl⟩)⟩
      · exact read
  · obtain ⟨e₀, before, same, -, number⟩ := opened e listed
    exact .inl ⟨e₀, before, same, number⟩
  · rw [made]
    rcases sent task listed with before | read
    · exact apart.sent task before
    · exact read.1

theorem Apart.dup {w : World H} {proc : Pid} {oldfd newfd : Int} (sided : s.Sided) (apart : s.Apart)
    (keeps : s.KeepsApart (.dup proc oldfd newfd)) (copies : s.world.CopiesEnd proc oldfd newfd w) :
    Apart { s with world := w, opened := dupEnd proc oldfd newfd s.opened } := by
  refine apart.of_readAt ?_ (fun e listed => ?_) fun task sent => ?_
  · rintro pipe n ⟨below, which⟩
    have below' : pipe < s.world.pipes.next := copies.made ▸ below
    rcases which with ⟨e, listed, rfl, side, rfl⟩ | ⟨e, listed, rfl⟩ | sent
    · rcases mem_dupEnd.mp listed with ⟨old, -⟩ | ⟨⟨rfl, rfl⟩, old⟩
      · exact ⟨below', .inl ⟨e, old, rfl, side, rfl⟩⟩
      · have read : s.ReadAt e.pipe oldfd := ⟨below', .inl ⟨_, old, rfl, side, rfl⟩⟩
        rw [(keeps _ old rfl rfl).1 read]
        exact read
    · rcases copies.readEnd pipe e listed with old | ⟨number, old, piped⟩
      · exact ⟨below', .inr (.inl ⟨e, old, rfl⟩)⟩
      · have read : s.ReadAt pipe oldfd := ⟨below', .inr (.inl ⟨_, old, rfl⟩)⟩
        obtain ⟨side, isOpen⟩ := (sided oldfd proc pipe).mp piped
        rw [number, (keeps _ isOpen rfl rfl).1 read]
        exact read
    · exact ⟨below', .inr (.inr sent)⟩
  · rcases mem_dupEnd.mp listed with ⟨old, -⟩ | ⟨⟨rfl, rfl⟩, old⟩
    · exact .inl ⟨e, old, rfl, rfl⟩
    · exact .inr fun pipe other read => (keeps _ old rfl rfl).2 pipe read.1 other read
  · exact copies.made ▸ apart.sent task sent

/-- A new pipe is read by its first number, the others as before. -/
theorem readAt_of_pipe {proc : Pid} {filedes : Int × Int} (allocated : s.world.Allocated)
    (sided : s.Sided) (apart : s.Apart) {pipe : PipeId} {n : Int}
    (read : ReadAt { s with
        world := s.world.syscallPipePost proc filedes 0
        opened := pipeEnds proc filedes.1 s.world.pipes.next s.opened } pipe n) :
    s.ReadAt pipe n ∨ pipe = s.world.pipes.next ∧ n = filedes.1 := by
  obtain ⟨below, which⟩ := read
  have below : pipe < s.world.pipes.next + 1 := below
  simp only [World.cell_syscallPipePost, mem_pipeEnds] at which
  rcases which with ⟨e, ⟨⟨old, -⟩, -⟩ | rfl | rfl, rfl, side, rfl⟩ | ⟨e, listed, rfl⟩ |
    ⟨task, sent, rfl, rfl⟩
  · exact .inl ⟨sided.pipe_lt allocated old, .inl ⟨e, old, rfl, side, rfl⟩⟩
  · exact .inr ⟨rfl, rfl⟩
  · cases side
  · by_cases new : pipe = s.world.pipes.next
    · rw [if_pos new, List.mem_singleton] at listed
      exact .inr ⟨new, by rw [listed]⟩
    · rw [if_neg new] at listed
      exact .inl ⟨Nat.lt_of_le_of_ne (Nat.le_of_lt_succ below) new, .inr (.inl ⟨e, listed, rfl⟩)⟩
  · exact .inl ⟨apart.sent task sent, .inr (.inr ⟨task, sent, rfl, rfl⟩)⟩

theorem Apart.pipe {proc : Pid} {filedes : Int × Int} (allocated : s.world.Allocated)
    (sided : s.Sided) (apart : s.Apart) (keeps : s.KeepsApart (.pipe proc filedes)) : Apart
      { s with
        world := s.world.syscallPipePost proc filedes 0
        opened := pipeEnds proc filedes.1 s.world.pipes.next s.opened } := by
  obtain ⟨unused, free⟩ := keeps
  have old_ne : ∀ {n}, ¬ s.ReadAt s.world.pipes.next n := fun read => Nat.lt_irrefl _ read.1
  have read := @readAt_of_pipe _ s proc filedes allocated sided apart
  refine ⟨fun pipe n m first second => ?_, fun pipe other n first second => ?_,
    fun pipe n known e listed other => ?_, fun task sent => ?_⟩
  · rcases read first with first | ⟨rfl, rfl⟩
    · rcases read second with second | ⟨rfl, rfl⟩
      · exact apart.one pipe n m first second
      · exact absurd first old_ne
    · rcases read second with second | ⟨-, rfl⟩
      · exact absurd second old_ne
      · rfl
  · rcases read first with first | ⟨rfl, rfl⟩
    · rcases read second with second | ⟨rfl, rfl⟩
      · exact apart.own pipe other n first second
      · exact absurd first (free pipe first.1).1
    · rcases read second with second | ⟨rfl, -⟩
      · exact absurd second (free other second.1).1
      · rfl
  · rw [mem_pipeEnds] at listed
    rcases read known with known | ⟨rfl, rfl⟩
    · rcases listed with ⟨⟨old, -⟩, -⟩ | rfl | rfl
      · exact apart.foreign pipe n known e old other
      · rintro rfl
        exact (free pipe known.1).1 known
      · rintro rfl
        exact (free pipe known.1).2 known
    · rcases listed with ⟨⟨old, -⟩, -⟩ | rfl | rfl
      · exact unused e old
      · exact absurd rfl other
      · exact absurd rfl other
  · exact Nat.lt_succ_of_lt (apart.sent task sent)

end

section

variable {H : Type} [DecidableEq H] {s s' : PipeMail H}

/-! ## Runs -/

theorem Step.allocated {op : MailOp} (allocated : s.world.Allocated) (step : s.Step op s') :
    s'.world.Allocated := by
  cases op with
  | pipe proc filedes =>
      cases step
      have made : s.world.TableStep (.pipe proc filedes 0) _ := rfl
      exact made.allocated allocated
  | dup proc oldfd newfd =>
      obtain ⟨w, done, rfl⟩ := bind_pure_eq_ok.mp step
      exact World.TableStep.allocated allocated ((s.world.tableCall_dup proc oldfd newfd).trans done)
  | dup2 proc oldfd newfd =>
      obtain ⟨w, done, rfl⟩ := bind_pure_eq_ok.mp step
      exact World.TableStep.allocated allocated ((s.world.tableCall_dup2 proc oldfd newfd).trans done)
  | clone parent pid own =>
      obtain ⟨w, done, rfl⟩ := bind_pure_eq_ok.mp step
      have cloned : s.world.TableStep (.clone parent pid own) w := done
      exact cloned.allocated allocated
  | close proc fd =>
      obtain ⟨w, done, rfl⟩ := bind_pure_eq_ok.mp step
      exact World.TableStep.allocated allocated ((s.world.tableCall_close proc fd).trans done)
  | write proc fd ret =>
      rcases syscallWrite_ok step with ⟨-, rfl⟩ | ⟨m, -, rfl⟩
      · exact allocated
      · exact allocated
  | read proc fd =>
      rw [(syscallRead_ok step).1]
      exact allocated

theorem Step.sided {op : MailOp} (allocated : s.world.Allocated) (sided : s.Sided)
    (step : s.Step op s') : s'.Sided := by
  cases op with
  | pipe proc filedes =>
      cases step
      exact sided_pipe allocated sided proc filedes
  | dup proc oldfd newfd =>
      obtain ⟨w, done, rfl⟩ := bind_pure_eq_ok.mp step
      apply sided_dupEnd sided
      have table := World.getFd_syscallDupPost _ done
      obtain ⟨ref, pipes, -, rfl⟩ := World.syscallDupPost_ok done
      exact World.pipeOf_of_table (World.tag_addRefcount ref 1) table
  | dup2 proc oldfd newfd =>
      obtain ⟨w, done, rfl⟩ := bind_pure_eq_ok.mp step
      apply sided_dupEnd sided
      exact World.pipeOf_of_table (World.closing_syscallDup2Post done).tag
        (World.getFd_syscallDup2Post done)
  | clone parent pid own =>
      obtain ⟨w, done, rfl⟩ := bind_pure_eq_ok.mp step
      obtain ⟨clones, -⟩ :=
        World.cloneProcess_ok (World.holdsAll_of_allocated allocated parent) done
      exact sided_clone allocated sided clones
  | close proc fd =>
      obtain ⟨w, done, rfl⟩ := bind_pure_eq_ok.mp step
      apply sided_closeEnd sided
      exact World.pipeOf_of_table (World.closing_processCloseCall done).tag
        (World.getFd_processCloseCall done)
  | write proc fd ret =>
      rcases syscallWrite_ok step with ⟨-, rfl⟩ | ⟨m, -, rfl⟩
      · exact sided
      · exact sided
  | read proc fd =>
      obtain ⟨world, opened, -⟩ := syscallRead_ok step
      unfold Sided
      rw [world, opened]
      exact sided

theorem Apart.step {op : MailOp} (allocated : s.world.Allocated) (sided : s.Sided) (apart : s.Apart)
    (keeps : s.KeepsApart op) (step : s.Step op s') : s'.Apart := by
  cases op with
  | pipe proc filedes =>
      cases step
      exact apart.pipe allocated sided keeps
  | dup proc oldfd newfd =>
      obtain ⟨w, done, rfl⟩ := bind_pure_eq_ok.mp step
      exact apart.dup sided keeps (World.copiesEnd_syscallDupPost done)
  | dup2 proc oldfd newfd =>
      obtain ⟨w, done, rfl⟩ := bind_pure_eq_ok.mp step
      exact apart.dup sided keeps (World.copiesEnd_syscallDup2Post done)
  | clone parent pid own =>
      obtain ⟨w, done, rfl⟩ := bind_pure_eq_ok.mp step
      obtain ⟨clones, -⟩ :=
        World.cloneProcess_ok (World.holdsAll_of_allocated allocated parent) done
      refine apart.of_old clones.made (fun e listed => ?_) (fun pipe e listed => ?_) fun _ => .inl
      -- a clone has the numbers of its parent
      · rcases mem_cloneOpened.mp listed with ⟨old, -⟩ | ⟨-, old⟩
        · exact ⟨e, old, rfl, rfl, rfl⟩
        · exact ⟨_, old, rfl, rfl, rfl⟩
      · rw [clones.ends] at listed
        exact fd_of_mem_passedEnds listed
  | close proc fd =>
      obtain ⟨w, done, rfl⟩ := bind_pure_eq_ok.mp step
      have file := World.processCloseCall_file done
      refine apart.of_old ?_ (fun e listed => ?_) (fun pipe e listed => ?_) fun _ => .inl
      · rw [file.pipes, World.next_closedPipes]
      · exact ⟨e, (mem_closeEnd.mp listed).1, rfl, rfl, rfl⟩
      · rw [file.pipes] at listed
        exact ⟨e, World.mem_readEnd_closedPipes listed, rfl⟩
  | write proc fd ret =>
      rcases syscallWrite_ok step with ⟨-, rfl⟩ | ⟨m, writes, rfl⟩
      · exact apart
      · refine apart.of_old rfl (fun e listed => ⟨e, listed, rfl, rfl, rfl⟩)
          (fun _ e listed => ⟨e, listed, rfl⟩) fun task sent => ?_
        rcases List.mem_append.mp sent with old | new
        · exact .inl old
        · rw [List.mem_singleton.mp new]
          exact .inr (readAt_of_writes allocated writes)
  | read proc fd =>
      obtain ⟨world, opened, sent⟩ := syscallRead_ok step
      refine apart.of_old (by rw [world]) (fun e listed => ?_) (fun pipe e listed => ?_)
        fun task listed => .inl (sent task listed)
      · exact ⟨e, opened ▸ listed, rfl, rfl, rfl⟩
      · exact ⟨e, world ▸ listed, rfl⟩

/-- What can be computed of some calls holds after a run of them. -/
theorem exists_mailOps (guard : PipeMail H → MailOp → Prop) [∀ s op, Decidable (guard s op)]
    (s₀ : PipeMail H) (ops : List MailOp) {P : PipeMail H → Prop}
    (found : ∃ r ∈ perform (fun s op => (s.step op).toOption.map fun s' => (op, s')) guard s₀ ops,
      r.1 = ops ∧ P r.2) :
    ∃ s, Run (Guarded guard Step) s₀ ops s ∧ P s := by
  have correct : ∀ (s : PipeMail H) (op : MailOp) (s' : PipeMail H), s.step op = .ok s' →
      s.Step op s' := fun _ _ _ done => done
  obtain ⟨ops', s, run, rfl, holds⟩ := Run.exists_of_results
    (P := fun ops' s => ops' = ops ∧ P s) correct found
  exact ⟨s, run, holds⟩

/-- No process has a pipe. -/
def quiet : PipeMail (Fin 3) := { world := .threeHosts, opened := [], sent := [] }

theorem quiet_sided : quiet.Sided := by
  intro fd proc pipe
  simp [quiet, World.pipeOf, World.threeHosts, World.boot, World.processDescriptorGetFd]

theorem quiet_apart : quiet.Apart := by
  have unread : ∀ pipe n, ¬ quiet.ReadAt pipe n := fun _ _ read => Nat.not_lt_zero _ read.1
  exact ⟨fun _ _ _ read => absurd read (unread _ _), fun _ _ _ read => absurd read (unread _ _),
    fun _ _ read => absurd read (unread _ _), by simp [quiet]⟩

/-- A process and its clone, each with one end of a pipe and both with another one. -/
def throughClone : List MailOp :=
  [.pipe 0 (3, 4), .pipe 0 (5, 6), .clone 0 1 [0, 1, 2], .close 0 3, .close 1 4, .dup 0 4 7,
    .write 0 7 10, .read 1 3, .write 1 6 20, .write 0 4 30]

end

end PipeMail

end Simterpose
