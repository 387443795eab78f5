import Simterpose.Ends

/-! # The reference counts of descriptors

Each `fd_descriptor_t` counts the entries of the descriptor tables that refer to it. The
number of these entries is a matter of the tables alone, so every handler can be held
against it: the counters of the handlers are right when they follow the entries.
-/

namespace Simterpose

open Lib

namespace World

section

variable {H : Type} {w w' : World H}

/-- The descriptor tables of all processes as one. -/
def refOf (w : World H) (k : Pid × Int) : Option DescRef := w.processDescriptorGetFd k.1 k.2

/-- Whether the memory of the record was given back, which only happens to sockets. -/
def Released (w : World H) : DescRef → Prop
  | .plain _ => False
  | .socket is => w.sockets.freed is = true

/-- The `refcount` of each record is the number of entries that refer to it. -/
def CountsRight (w : World H) : Prop :=
  ∀ ref, w.Holds ref → ¬ w.Released ref → Counts w.refOf ref (w.fileDesc ref).refcount

/-- How many entries refer to each plain record. -/
def Entries (w : World H) (c : DescId → Int) : Prop := ∀ d, Counts w.refOf (.plain d) (c d)

theorem getFd_of_noSocket (allocated : w.Allocated) (noSocket : w.sockets.next = 0) {proc : Pid}
    {fd : Int} {ref : DescRef} (found : w.processDescriptorGetFd proc fd = some ref) :
    ∃ d, ref = .plain d ∧ d < w.descs.next := by
  have held := (allocated proc fd ref found).1
  cases ref with
  | plain d => exact ⟨d, rfl, held⟩
  | socket is =>
      have held : is < w.sockets.next := held
      rw [noSocket] at held
      cases held

theorem plain_of_noSocket (allocated : w.Allocated) (noSocket : w.sockets.next = 0) {proc : Pid}
    {fd : Int} (ref : DescRef) (found : w.processDescriptorGetFd proc fd = some ref) :
    ∃ d, ref = .plain d := by
  obtain ⟨d, same, -⟩ := getFd_of_noSocket allocated noSocket found
  exact ⟨d, same⟩

theorem absent_of_noSocket (allocated : w.Allocated) (noSocket : w.sockets.next = 0) {proc : Pid}
    {fd : Int} (noRecord : ∀ d < w.descs.next, w.processDescriptorGetFd proc fd ≠ some (.plain d)) :
    w.processDescriptorGetFd proc fd = none := by
  by_contra other
  obtain ⟨ref, found⟩ := Option.ne_none_iff_exists'.mp other
  obtain ⟨d, rfl, held⟩ := getFd_of_noSocket allocated noSocket found
  exact noRecord d held found

/-- As long as there is no socket, the counters are right if they are what the tables say. -/
theorem countsRight_iff {c : DescId → Int} (entries : w.Entries c) (noSocket : w.sockets.next = 0) :
    w.CountsRight ↔ ∀ d < w.descs.next, (w.descs.cell d).refcount = c d := by
  constructor
  · intro right d held
    exact (right (.plain d) held id).unique (entries d)
  · intro same ref held _
    cases ref with
    | plain d =>
        have counts := entries d
        rw [← same d held] at counts
        exact counts
    | socket is =>
        have held : is < w.sockets.next := held
        rw [noSocket] at held
        cases held

/-- The counter of each record, and none for those not yet made. -/
def counter (w : World H) (d : DescId) : Int :=
  if d < w.descs.next then (w.descs.cell d).refcount else 0

theorem CountsRight.entries (allocated : w.Allocated) (right : w.CountsRight) :
    w.Entries w.counter := by
  intro d
  unfold counter
  split
  · rename_i held
    exact right (.plain d) held id
  · rename_i beyond
    refine ⟨∅, fun k => ⟨fun none_ => absurd none_ (Finset.notMem_empty k), fun found => ?_⟩, rfl⟩
    exact absurd (allocated _ _ _ found).1 beyond

/-- The entry of one descriptor is changed. -/
structure Rewrites (proc : Pid) (fd : Int) (o : Option DescRef) (w w' : World H) : Prop where
  table : ∀ q g, w'.processDescriptorGetFd q g =
    if q = proc ∧ g = fd then o else w.processDescriptorGetFd q g

theorem Rewrites.entries {proc : Pid} {fd : Int} {o : Option DescRef}
    (rewrites : w.Rewrites proc fd o w') {c : DescId → Int} (entries : w.Entries c) :
    w'.Entries fun d => c d + (if o = some (.plain d) then 1 else 0) -
      (if w.processDescriptorGetFd proc fd = some (.plain d) then 1 else 0) := by
  intro d
  refine (entries d).update (proc, fd) ?_ ?_
  · exact (rewrites.table proc fd).trans (if_pos ⟨rfl, rfl⟩)
  · rintro ⟨q, g⟩ apart
    refine (rewrites.table q g).trans (if_neg ?_)
    rintro ⟨rfl, rfl⟩
    exact apart rfl

theorem rewrites_enterDesc (w : World H) (proc : Pid) (fd : Int) (desc : FdDescriptor) :
    w.Rewrites proc fd (some (.plain w.descs.next)) (w.enterDesc proc fd desc) :=
  ⟨fun q g => getFd_enterDesc proc q fd g desc⟩

/-- The new record starts with the count of one, which is right, and the record that the
    entry referred to before is not told. -/
theorem counts_enterDesc_iff (allocated : w.Allocated) (noSocket : w.sockets.next = 0)
    (right : w.CountsRight) (proc : Pid) (fd : Int) {desc : FdDescriptor} (one : desc.refcount = 1) :
    (w.enterDesc proc fd desc).CountsRight ↔ w.processDescriptorGetFd proc fd = none := by
  have entries := (w.rewrites_enterDesc proc fd desc).entries (right.entries allocated)
  have cell : ∀ d, ((w.enterDesc proc fd desc).descs.cell d).refcount =
      if d = w.descs.next then 1 else (w.descs.cell d).refcount := by
    intro d
    simp only [enterDesc, Heap.cell_alloc]
    split
    · exact one
    · rfl
  rw [countsRight_iff entries noSocket]
  constructor
  · intro same
    apply absent_of_noSocket allocated noSocket
    intro d held found
    have lost := same d (Nat.lt_succ_of_lt held)
    rw [cell, if_neg (Nat.ne_of_lt held)] at lost
    simp [counter, held, found, Nat.ne_of_gt held] at lost
    omega
  · intro absent d made
    rw [cell, absent]
    rcases Nat.lt_succ_iff_lt_or_eq.mp made with held | rfl
    · simp [counter, held, Nat.ne_of_lt held, Nat.ne_of_gt held]
    · simp [counter]

/-- `open` and `creat` -/
theorem counts_opened_iff (allocated : w.Allocated) (noSocket : w.sockets.next = 0)
    (right : w.CountsRight) (proc : Pid) (ret : Int) {desc : FdDescriptor} (one : desc.refcount = 1) :
    ((if ret ≥ 0 then w.enterDesc proc ret desc else w).CountsRight ↔
        (ret ≥ 0 → w.processDescriptorGetFd proc ret = none)) ∧
      ((if ret ≥ 0 then w.enterDesc proc ret desc else w).CountsRight →
        (if ret ≥ 0 then w.enterDesc proc ret desc else w).sockets = w.sockets) := by
  by_cases opened : ret ≥ 0
  · rw [if_pos opened, counts_enterDesc_iff allocated noSocket right proc ret one]
    exact ⟨⟨fun absent _ => absent, fun free => free opened⟩, fun _ => rfl⟩
  · rw [if_neg opened]
    exact ⟨iff_of_true right fun other => absurd other opened, fun _ => rfl⟩

theorem counts_syscallPipePost_iff (allocated : w.Allocated) (noSocket : w.sockets.next = 0)
    (right : w.CountsRight) (proc : Pid) (filedes : Int × Int) :
    (w.syscallPipePost proc filedes 0).CountsRight ↔
      w.processDescriptorGetFd proc filedes.1 = none ∧
        w.processDescriptorGetFd proc (filedes.1 + 1) = none := by
  have apart : filedes.1 + 1 ≠ filedes.1 := by omega
  have first : w.Rewrites proc filedes.1 (some (.plain w.descs.next))
      (w.processDescriptorSetFd proc filedes.1 (some (.plain w.descs.next))) :=
    ⟨fun q g => w.getFd_setFd proc q filedes.1 g _⟩
  have second : (w.processDescriptorSetFd proc filedes.1 (some (.plain w.descs.next))).Rewrites proc
      (filedes.1 + 1) (some (.plain (w.descs.next + 1))) (w.syscallPipePost proc filedes 0) := by
    constructor
    intro q g
    rw [getFd_syscallPipePost, getFd_setFd]
  have entries := second.entries (first.entries (right.entries allocated))
  have between : (w.processDescriptorSetFd proc filedes.1
      (some (.plain w.descs.next))).processDescriptorGetFd proc (filedes.1 + 1) =
        w.processDescriptorGetFd proc (filedes.1 + 1) := by
    rw [getFd_setFd, if_neg fun here => apart here.2]
  obtain ⟨old, new, last⟩ := w.fileDesc_syscallPipePost proc filedes
  rw [countsRight_iff entries noSocket, between]
  constructor
  · intro same
    -- a record that loses an entry keeps its count
    have kept : ∀ d < w.descs.next, w.processDescriptorGetFd proc filedes.1 ≠ some (.plain d) ∧
        w.processDescriptorGetFd proc (filedes.1 + 1) ≠ some (.plain d) := by
      intro d held
      have count := same d (Nat.lt_succ_of_lt (Nat.lt_succ_of_lt held))
      have unchanged : ((w.syscallPipePost proc filedes 0).descs.cell d).refcount =
          (w.descs.cell d).refcount := congrArg FdDescriptor.refcount (old (.plain d) held)
      have notNew : w.descs.next ≠ d := Nat.ne_of_gt held
      have notLast : w.descs.next + 1 ≠ d := Nat.ne_of_gt (Nat.lt_succ_of_lt held)
      simp only [unchanged, counter, if_pos held, Option.some.injEq, DescRef.plain.injEq, notNew,
        notLast, if_false] at count
      constructor
      · intro found
        rw [if_pos found] at count
        split at count <;> omega
      · intro found
        rw [if_pos found] at count
        split at count <;> omega
    exact ⟨absent_of_noSocket allocated noSocket fun d held => (kept d held).1,
      absent_of_noSocket allocated noSocket fun d held => (kept d held).2⟩
  · rintro ⟨free, free'⟩ d made
    rw [free, free']
    have made : d < w.descs.next + 1 + 1 := made
    rcases Nat.lt_succ_iff_lt_or_eq.mp made with earlier | rfl
    · rcases Nat.lt_succ_iff_lt_or_eq.mp earlier with held | rfl
      · rw [show ((w.syscallPipePost proc filedes 0).descs.cell d).refcount =
          (w.descs.cell d).refcount from congrArg FdDescriptor.refcount (old (.plain d) held)]
        simp [counter, held, Nat.ne_of_gt held, Nat.ne_of_gt earlier]
      · rw [show ((w.syscallPipePost proc filedes 0).descs.cell w.descs.next).refcount = 1 from
          congrArg FdDescriptor.refcount new]
        simp [counter]
    · rw [show ((w.syscallPipePost proc filedes 0).descs.cell (w.descs.next + 1)).refcount = 1 from
        congrArg FdDescriptor.refcount last]
      simp [counter, Nat.not_lt_of_le (Nat.le_succ w.descs.next)]

/-- An entry was changed, and the counters followed by the amounts `moved`. -/
structure Recounts (proc : Pid) (fd : Int) (o : Option DescRef) (moved : DescId → Int)
    (w w' : World H) : Prop extends Rewrites proc fd o w w' where
  made : w'.descs.next = w.descs.next
  noSocket : w'.sockets.next = w.sockets.next
  counters : ∀ d, (w'.descs.cell d).refcount = (w.descs.cell d).refcount + moved d

theorem Recounts.counts_iff {proc : Pid} {fd : Int} {o : Option DescRef} {moved : DescId → Int}
    (recounts : w.Recounts proc fd o moved w') (allocated : w.Allocated)
    (noSocket : w.sockets.next = 0) (right : w.CountsRight) : w'.CountsRight ↔
      ∀ d < w.descs.next, moved d = (if o = some (.plain d) then 1 else 0) -
        (if w.processDescriptorGetFd proc fd = some (.plain d) then 1 else 0) := by
  have entries := recounts.toRewrites.entries (right.entries allocated)
  rw [countsRight_iff entries (recounts.noSocket.trans noSocket), recounts.made]
  apply forall₂_congr
  intro d held
  rw [recounts.counters, counter, if_pos held]
  omega

theorem refcount_addRefcount (w : World H) (ref : DescRef) (n : Int) (d : DescId) :
    ((w.addRefcount ref n).descs.cell d).refcount =
      (w.descs.cell d).refcount + if ref = .plain d then n else 0 := by
  cases ref with
  | plain d' =>
      simp only [addRefcount, Heap.cell_modify, DescRef.plain.injEq, eq_comm]
      split <;> simp
  | socket is => simp [addRefcount, modifySocket]

theorem counts_syscallDupPost_iff (allocated : w.Allocated) (noSocket : w.sockets.next = 0)
    (right : w.CountsRight) {proc : Pid} {oldfd newfd : Int}
    (done : w.syscallDupPost proc oldfd newfd = .ok w') :
    w'.CountsRight ↔ w.processDescriptorGetFd proc newfd = none := by
  have table := w.getFd_syscallDupPost done
  obtain ⟨ref, pipes, found, rfl⟩ := syscallDupPost_ok done
  have counted := w.sameTags_addRefcount ref 1
  have recounts : w.Recounts proc newfd (some ref) (fun d => if ref = .plain d then 1 else 0)
      { (w.addRefcount ref 1).processDescriptorSetFd proc newfd (some ref) with pipes := pipes } :=
    { table := fun q g => by rw [table, found]
      made := counted.stored
      noSocket := counted.made
      counters := w.refcount_addRefcount ref 1 }
  rw [recounts.counts_iff allocated noSocket right]
  constructor
  · intro same
    apply absent_of_noSocket allocated noSocket
    intro d held taken
    have lost := same d held
    simp [taken] at lost
    omega
  · intro free d _
    simp [free]

/-- A registered socket has an entry and the count zero. -/
theorem Registers.miscounts {proc : Pid} {fd : Int} (registers : w.Registers proc fd w') :
    ¬ w'.CountsRight := by
  intro right
  have entry : w'.refOf (proc, fd) = some (.socket w.sockets.next) :=
    (registers.table proc fd).trans (if_pos ⟨rfl, rfl⟩)
  have held : w'.Holds (.socket w.sockets.next) := by
    rcases registers.innocent.new proc fd _ entry with old | harmless
    · rw [registers.absent] at old
      cases old
    · exact harmless.1.1
  have unfreed : ¬ w'.Released (.socket w.sockets.next) := by
    simp [Released, registers.live]
  obtain ⟨keys, mem, count⟩ := right _ held unfreed
  rw [registers.uncounted] at count
  have listed := (mem (proc, fd)).mpr entry
  have some_ := Finset.card_pos.mpr ⟨_, listed⟩
  omega

end

section

variable {H : Type} [DecidableEq H] {w w' : World H}

/-- Closing a plain descriptor leaves its record, and the sockets, as they are. -/
theorem records_of_close {proc : Pid} {fd : Int}
    (plain : ∀ ref, w.processDescriptorGetFd proc fd = some ref → ∃ d, ref = .plain d)
    (done : w.processCloseCall proc fd = .ok w') : w'.descs = w.descs ∧ w'.sockets = w.sockets := by
  rcases processCloseCall_ok done with ⟨-, rfl⟩ | ⟨d, pipes, -, rfl⟩ | ⟨is, _, found, -⟩
  · exact ⟨rfl, rfl⟩
  · refine ⟨?_, rfl⟩
    have twice := congrArg World.descs (w.addRefcount_addRefcount (.plain d) 1 (-1))
    exact twice.trans (congrArg World.descs (w.addRefcount_zero (.plain d)))
  · obtain ⟨d, other⟩ := plain _ found
    cases other

/-- What `dup2` finds at its target is counted one less, for the entry that it loses. -/
theorem records_of_closeTarget {proc : Pid} {newfd : Int}
    (plain : ∀ ref, w.processDescriptorGetFd proc newfd = some ref → ∃ d, ref = .plain d)
    (done : w.closeTarget proc newfd = .ok w') :
    (∀ d, (w'.descs.cell d).refcount = (w.descs.cell d).refcount -
      if w.processDescriptorGetFd proc newfd = some (.plain d) then 1 else 0) ∧
    w'.sockets = w.sockets := by
  unfold closeTarget at done
  cases there : w.processDescriptorGetFd proc newfd with
  | none =>
      simp only [there] at done
      cases done
      simp
  | some old =>
      simp only [there] at done
      obtain ⟨d', rfl⟩ := plain old there
      have still : ∀ ref, (w.addRefcount (.plain d') (-1)).processDescriptorGetFd proc newfd =
          some ref → ∃ d, ref = .plain d := by
        intro ref found
        rw [getFd_addRefcount] at found
        exact plain ref found
      obtain ⟨descs, sockets⟩ := records_of_close still done
      refine ⟨fun d => ?_, sockets⟩
      rw [descs, refcount_addRefcount]
      simp only [Option.some.injEq]
      split <;> omega

/-- `close` takes a descriptor out of the table and raises and lowers the count of its record. -/
theorem counts_processCloseCall_iff (allocated : w.Allocated) (noSocket : w.sockets.next = 0)
    (right : w.CountsRight) {proc : Pid} {fd : Int} (done : w.processCloseCall proc fd = .ok w') :
    w'.CountsRight ↔ w.processDescriptorGetFd proc fd = none := by
  obtain ⟨descs, sockets⟩ := records_of_close (plain_of_noSocket allocated noSocket) done
  have recounts : w.Recounts proc fd none (fun _ => 0) w' :=
    { table := getFd_processCloseCall done
      made := congrArg (·.next) descs
      noSocket := congrArg (·.next) sockets
      counters := fun d => by rw [descs, Int.add_zero] }
  rw [recounts.counts_iff allocated noSocket right]
  constructor
  · intro same
    apply absent_of_noSocket allocated noSocket
    intro d held found
    have lost := same d held
    simp [found] at lost
  · intro absent d _
    simp [absent]

/-- `dup2` keeps all counts right. -/
theorem counts_syscallDup2Post (allocated : w.Allocated) (noSocket : w.sockets.next = 0)
    (right : w.CountsRight) {proc : Pid} {oldfd newfd : Int}
    (done : w.syscallDup2Post proc oldfd newfd = .ok w') :
    w'.CountsRight ∧ w'.sockets = w.sockets := by
  have table := getFd_syscallDup2Post done
  obtain ⟨ref, v, pipes, found, closed, rfl⟩ := syscallDup2Post_ok done
  obtain ⟨d₀, rfl⟩ := plain_of_noSocket allocated noSocket ref found
  have counted := w.sameTags_addRefcount (.plain d₀) 1
  have plain : ∀ old, (w.addRefcount (.plain d₀) 1).processDescriptorGetFd proc newfd = some old →
      ∃ d, old = .plain d := by
    intro old there
    rw [counted.getFd] at there
    exact plain_of_noSocket allocated noSocket old there
  obtain ⟨counts, sockets⟩ := records_of_closeTarget plain closed
  have recounts : w.Recounts proc newfd (some (.plain d₀))
      (fun d => (if DescRef.plain d₀ = .plain d then 1 else 0) -
        if w.processDescriptorGetFd proc newfd = some (.plain d) then 1 else 0)
      { v.processDescriptorSetFd proc newfd (some (.plain d₀)) with pipes := pipes } := by
    refine ⟨⟨fun q g => ?_⟩, (closeTarget_file closed).stored.trans counted.stored,
      congrArg (·.next) sockets, fun d => ?_⟩
    · rw [table, found]
    · refine (counts d).trans ?_
      rw [counted.getFd, refcount_addRefcount]
      omega
  refine ⟨?_, sockets⟩
  rw [recounts.counts_iff allocated noSocket right]
  intro d _
  simp

/-! ## Runs -/

/-- The call puts no descriptor where there is one, unless it is `dup2`, registers no socket and
    closes nothing. -/
def KeepsRefcounts (w : World H) : DescOp → Prop
  | .openFile proc _ _ ret | .creat proc _ ret => ret ≥ 0 → w.processDescriptorGetFd proc ret = none
  | .pipe proc filedes => w.processDescriptorGetFd proc filedes.1 = none ∧
      w.processDescriptorGetFd proc (filedes.1 + 1) = none
  | .socket _ _ _ _ ret => ret ≤ 0
  | .dup proc _ newfd => w.processDescriptorGetFd proc newfd = none
  | .dupfd proc _ _ ret => w.processDescriptorGetFd proc ret = none
  | .close proc fd => w.processDescriptorGetFd proc fd = none
  | .accept .. | .dup2 .. => True

instance (w : World H) : (op : DescOp) → Decidable (w.KeepsRefcounts op)
  | .openFile .. | .creat .. => inferInstanceAs (Decidable (_ → _))
  | .pipe .. => inferInstanceAs (Decidable (_ ∧ _))
  | .socket .. => inferInstanceAs (Decidable (_ ≤ _))
  | .dup .. | .dupfd .. | .close .. => inferInstanceAs (Decidable (_ = _))
  | .accept .. | .dup2 .. => inferInstanceAs (Decidable True)

/-- No socket was made so far. -/
structure Socketless (w : World H) : Prop where
  allocated : w.Allocated
  none_ : w.sockets.next = 0

theorem DescStep.counts_iff {op : DescOp} (socketless : w.Socketless) (right : w.CountsRight)
    (step : w.DescStep op w') :
    (w'.CountsRight ↔ w.KeepsRefcounts op) ∧ (w'.CountsRight → w'.sockets = w.sockets) := by
  obtain ⟨allocated, noSocket⟩ := socketless
  cases op with
  | openFile proc flags mode ret =>
      cases step
      exact counts_opened_iff allocated noSocket right proc ret rfl
  | creat proc mode ret =>
      cases step
      exact counts_opened_iff allocated noSocket right proc ret rfl
  | pipe proc filedes =>
      cases step
      exact ⟨counts_syscallPipePost_iff allocated noSocket right proc filedes, fun _ => rfl⟩
  | socket proc domain type protocol ret =>
      have done := (w.tableCall_socket proc domain type protocol ret).symm.trans step
      unfold syscallSocket at done
      split at done
      · rename_i positive
        obtain ⟨absent, rfl⟩ := registerSocket_ok done
        have wrong := (registers_confirmRegisterSocket absent domain type protocol).miscounts
        exact ⟨iff_of_false wrong (Int.not_le.mpr positive), fun right' => absurd right' wrong⟩
      · rename_i other
        cases done
        exact ⟨iff_of_true right (Int.not_lt.mp other), fun _ => rfl⟩
  | accept proc sockfd newfd =>
      obtain ⟨event, step⟩ := World.tableStep_call.mp step
      cases step.effect fun _ => allocated_old allocated with
      | quiet => exact ⟨iff_of_true right trivial, fun _ => rfl⟩
      | accept listening =>
          obtain ⟨d, other⟩ :=
            plain_of_noSocket allocated noSocket _ (w.getInfosSocket_eq_some.mp listening)
          cases other
  | dup proc oldfd newfd =>
      have done := (w.tableCall_dup proc oldfd newfd).symm.trans step
      refine ⟨counts_syscallDupPost_iff allocated noSocket right done, fun _ => ?_⟩
      obtain ⟨ref, pipes, found, rfl⟩ := syscallDupPost_ok done
      obtain ⟨d, rfl⟩ := plain_of_noSocket allocated noSocket ref found
      rfl
  | dup2 proc oldfd newfd =>
      have done := (w.tableCall_dup2 proc oldfd newfd).symm.trans step
      obtain ⟨right', sockets⟩ := counts_syscallDup2Post allocated noSocket right done
      exact ⟨iff_of_true right' trivial, fun _ => sockets⟩
  | dupfd proc fd cloexec ret =>
      rcases processFcntlCall_cases step with ⟨-, flags, done⟩ | ⟨other, -⟩
      · obtain ⟨ref, found, rfl⟩ := fcntlDup_ok done
        exact ⟨counts_enterDesc_iff allocated noSocket right proc ret rfl, fun _ => rfl⟩
      · cases cloexec <;> cases other
  | close proc fd =>
      have done := (w.tableCall_close proc fd).symm.trans step
      refine ⟨counts_processCloseCall_iff allocated noSocket right done, fun _ => ?_⟩
      exact (records_of_close (plain_of_noSocket allocated noSocket) done).2

theorem Socketless.step {op : DescOp} (socketless : w.Socketless) (right : w.CountsRight)
    (step : w.DescStep op w') (right' : w'.CountsRight) : w'.Socketless := by
  have sockets := (step.counts_iff socketless right).2 right'
  refine ⟨TableStep.allocated socketless.allocated step, ?_⟩
  rw [sockets, socketless.none_]

/-- Where all counts were right so far, no socket was made. -/
theorem socketless_of_run {w₀ : World H} {ops : List DescOp} (initial : w₀.Socketless)
    (run : Run DescStep w₀ ops w)
    (right : ∀ ops' w', ops' <+: ops → Run DescStep w₀ ops' w' → w'.CountsRight) : w.Socketless := by
  induction run with
  | start => exact initial
  | next run step ih =>
      have before := ih fun ops' w' shorter => right ops' w' (shorter.trans (List.prefix_append ..))
      apply before.step _ step
      · exact right _ _ (List.prefix_refl _) (.next run step)
      · exact right _ _ (List.prefix_append ..) run

/-- From any state without sockets in which the counts are right: they are right in every state
    of a run if and only if each call keeps them in the state before it. -/
theorem desc_counts_iff {w₀ : World H} {ops : List DescOp} (initial : w₀.Socketless)
    (right : w₀.CountsRight) (run : Run DescStep w₀ ops w) :
    Run (Guarded KeepsRefcounts DescStep) w₀ ops w ↔
      ∀ ops' w', ops' <+: ops → Run DescStep w₀ ops' w' → w'.CountsRight := by
  -- that there is no socket goes with the invariant, and comes for nothing
  have both : Run (Guarded KeepsRefcounts DescStep) w₀ ops w ↔ ∀ ops' w', ops' <+: ops →
      Run DescStep w₀ ops' w' → w'.CountsRight ∧ w'.Socketless := by
    refine Run.guarded_iff (fun _ v => v.CountsRight ∧ v.Socketless) DescStep.functional
      ⟨right, initial⟩ ?_ run
    rintro _ v op v' _ ⟨right, socketless⟩ step
    rw [← (step.counts_iff socketless right).1]
    exact ⟨fun after => after.1, fun right' => ⟨right', socketless.step right step right'⟩⟩
  rw [both]
  constructor
  · intro kept ops' w' shorter run'
    exact (kept ops' w' shorter run').1
  · intro kept ops' w' shorter run'
    refine ⟨kept ops' w' shorter run', socketless_of_run initial run' ?_⟩
    exact fun ops₂ w₂ shorter₂ => kept ops₂ w₂ (shorter₂.trans shorter)

theorem threeHosts_socketless : threeHosts.Socketless := ⟨threeHosts_allocated, rfl⟩

theorem threeHosts_countsRight : threeHosts.CountsRight := by
  intro ref held
  cases ref with
  | plain d => exact absurd held (Nat.not_lt_zero d)
  | socket is => exact absurd held (Nat.not_lt_zero is)

/-- A file with three descriptors, one of which was the write end of a pipe. -/
def sharedFile : List DescOp :=
  [.openFile 0 0 0 3, .dup 0 3 4, .pipe 0 (5, 6), .dup2 0 3 6, .dupfd 0 5 false 7]

theorem shared_file_counted : ∃ w, Run DescStep threeHosts sharedFile w ∧ w.CountsRight ∧
    (w.fileDesc (.plain 0)).refcount = 3 ∧ (w.fileDesc (.plain 2)).refcount = 0 := by
  obtain ⟨w, guarded, file, closed⟩ := exists_descOps KeepsRefcounts threeHosts sharedFile
    (P := fun w => (w.fileDesc (.plain 0)).refcount = 3 ∧ (w.fileDesc (.plain 2)).refcount = 0)
    (by decide +kernel)
  have run := guarded.mono fun _ _ _ step => step.2
  have kept := (desc_counts_iff threeHosts_socketless threeHosts_countsRight run).mp guarded
  exact ⟨w, run, kept _ _ (List.prefix_refl _) run, file, closed⟩

/-- A closed file keeps the count of its only descriptor. -/
theorem closed_file_miscounted : ∃ w, Run DescStep threeHosts [.openFile 0 0 0 3, .close 0 3] w ∧
    (w.fileDesc (.plain 0)).refcount = 1 ∧ w.processDescriptorGetFd 0 3 = none ∧
    ¬ w.CountsRight := by
  obtain ⟨w, run, count, closed⟩ := exists_descOps (fun _ _ => True) threeHosts
    [.openFile 0 0 0 3, .close 0 3]
    (P := fun w => (w.fileDesc (.plain 0)).refcount = 1 ∧ w.processDescriptorGetFd 0 3 = none)
    (by decide +kernel)
  have run := run.mono fun _ _ _ step => step.2
  refine ⟨w, run, count, closed, fun right => ?_⟩
  obtain ⟨v, opened, closing⟩ : ∃ v, Run DescStep threeHosts ([] ++ [.openFile 0 0 0 3]) v ∧
      v.DescStep (.close 0 3) w := Run.concat_iff.mp run
  obtain ⟨_, none_, opening⟩ := Run.concat_iff.mp opened
  cases Run.nil_iff.mp none_
  have right' : v.CountsRight :=
    (opening.counts_iff threeHosts_socketless threeHosts_countsRight).1.mpr fun _ => rfl
  have socketless := threeHosts_socketless.step threeHosts_countsRight opening right'
  have absent : v.processDescriptorGetFd 0 3 = none := (closing.counts_iff socketless right').1.mp right
  cases opening
  exact absurd absent (by decide +kernel)

end

end World

end Simterpose
