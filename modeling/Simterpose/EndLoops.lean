import Simterpose.Mirror
import Simterpose.Tags

/-! # The loops over the ends of a pipe

The loops of `dup`, `dup2` and `close` change the list they go through, with an unsigned index:
`close` sets it back after a removal, at the first element below zero. Here they are loops over such
an index, of any width that is enough for the lists, and `copyEnds` and `removeEnds` are what they
compute.
-/

namespace Simterpose

open Lib

/-- The body of the loops of `syscall_dup_post` and `syscall_dup2_post`. -/
def dupEndBody (oldfd newfd : Int) (proc : Pid) (cpt : Nat) (e : PipeEnd) (ends : List PipeEnd) :
    Nat × List PipeEnd :=
  (cpt, if e.fd = oldfd ∧ e.proc = proc then ends ++ [{ fd := newfd, proc := e.proc }] else ends)

/-- The body of the loops of `process_close_call`. The index is a number modulo `m`, and so is
    `cpt--`. -/
def closeEndBody (m : Nat) (fd : Int) (proc : Pid) (cpt : Nat) (e : PipeEnd) (ends : List PipeEnd) :
    Nat × List PipeEnd :=
  if e.fd = fd ∧ e.proc = proc then ((cpt + (m - 1)) % m, ends.eraseIdx cpt) else (cpt, ends)

/-- The ends with one at `newfd` for each at `oldfd`. -/
def dupEnds (oldfd newfd : Int) (proc : Pid) (ends : List PipeEnd) : List PipeEnd :=
  ends ++ .replicate (ends.count { fd := oldfd, proc := proc }) { fd := newfd, proc := proc }

/-- The ends other than those of a descriptor. -/
def otherEnds (fd : Int) (proc : Pid) (ends : List PipeEnd) : List PipeEnd :=
  ends.filter (· ≠ { fd := fd, proc := proc })

theorem dupEndBody_eq (oldfd newfd : Int) (proc : Pid) : dupEndBody oldfd newfd proc =
    appendBody (· == { fd := oldfd, proc := proc }) (fun e => { fd := newfd, proc := e.proc }) := by
  funext cpt e ends
  simp only [dupEndBody, appendBody, PipeEnd.at_iff, beq_iff_eq]

theorem closeEndBody_eq (m : Nat) (fd : Int) (proc : Pid) :
    closeEndBody m fd proc = eraseBody (· == { fd := fd, proc := proc }) m := by
  funext cpt e ends
  simp only [closeEndBody, eraseBody, PipeEnd.at_iff, beq_iff_eq]

theorem ends_dupEndBody {oldfd newfd : Int} (apart : newfd ≠ oldfd) (proc : Pid) {m : Nat} {ends : List PipeEnd}
    (fits : (dupEnds oldfd newfd proc ends).length < m) :
    Ends (foreachRound m (dupEndBody oldfd newfd proc)) (0, ends) (dupEnds oldfd newfd proc ends) := by
  have walked := copyEnds_of_ne apart proc ends
  rw [copyEnds_eq_appendWalk] at walked
  rw [dupEndBody_eq]
  exact ends_append walked fits

theorem ends_closeEndBody (fd : Int) (proc : Pid) {m : Nat} {ends : List PipeEnd} (fits : ends.length < m) :
    Ends (foreachRound m (closeEndBody m fd proc)) (0, ends) (otherEnds fd proc ends) := by
  have walked := removeEnds_eq fd proc ends
  rw [removeEnds_eq_eraseWalk] at walked
  rw [otherEnds, closeEndBody_eq, ← walked]
  exact ends_erase (by omega) fits

theorem otherEnds_dupEnds {oldfd newfd : Int} {proc : Pid} {ends : List PipeEnd} :
    otherEnds newfd proc (dupEnds oldfd newfd proc ends) = otherEnds newfd proc ends := by
  simp [otherEnds, dupEnds]

theorem otherEnds_eq_self {fd : Int} {proc : Pid} {ends : List PipeEnd} :
    otherEnds fd proc ends = ends ↔ { fd := fd, proc := proc } ∉ ends := by
  rw [otherEnds, List.filter_eq_self]
  constructor
  · intro all listed
    simpa using all _ listed
  · intro unlisted e listed
    simp only [ne_eq, decide_eq_true_eq]
    rintro rfl
    exact unlisted listed

namespace Pipe

def dup (oldfd newfd : Int) (proc : Pid) (p : Pipe) : Pipe :=
  { readEnd := dupEnds oldfd newfd proc p.readEnd, writeEnd := dupEnds oldfd newfd proc p.writeEnd }

def close (fd : Int) (proc : Pid) (p : Pipe) : Pipe :=
  { readEnd := otherEnds fd proc p.readEnd, writeEnd := otherEnds fd proc p.writeEnd }

/-- A descriptor of a process is among the ends. -/
def Lists (p : Pipe) (fd : Int) (proc : Pid) : Prop :=
  { fd := fd, proc := proc } ∈ p.readEnd ∨ { fd := fd, proc := proc } ∈ p.writeEnd

/-- There are no ends left. -/
def Empty (p : Pipe) : Prop := p.readEnd = [] ∧ p.writeEnd = []

theorem close_dup_eq_iff {oldfd newfd : Int} {proc : Pid} {p : Pipe} :
    (p.dup oldfd newfd proc).close newfd proc = p ↔ ¬ p.Lists newfd proc := by
  cases p
  simp only [close, dup, otherEnds_dupEnds, Pipe.mk.injEq, otherEnds_eq_self, Lists, not_or]

end Pipe

namespace World

section

variable {H : Type} {w w₁ : World H} {proc : Pid} {oldfd newfd fd : Int} {ref : DescRef} {pipe : PipeId}

theorem dupPipe_of_ne (apart : newfd ≠ oldfd) (piped : w.tag ref = (.pipe, some pipe)) :
    w.dupPipe proc oldfd newfd ref =
      .ok { w with pipes := w.pipes.modify pipe (Pipe.dup oldfd newfd proc) } := by
  obtain ⟨typed, piped⟩ := Prod.mk.inj piped
  simp only [dupPipe, typed, piped, copyEnds_of_ne apart]
  rfl

theorem syscallDupPost_of_ne (apart : newfd ≠ oldfd) (found : w.processDescriptorGetFd proc oldfd = some ref)
    (piped : w.tag ref = (.pipe, some pipe)) :
    ∃ w', w.syscallDupPost proc oldfd newfd = .ok w' ∧
      w'.pipes = w.pipes.modify pipe (Pipe.dup oldfd newfd proc) ∧ w'.tag = w.tag ∧
      w'.processDescriptorGetFd proc newfd = some ref := by
  have tagged : ((w.addRefcount ref 1).processDescriptorSetFd proc newfd (some ref)).tag = w.tag := by
    rw [tag_setFd, tag_addRefcount]
  have pipes : ((w.addRefcount ref 1).processDescriptorSetFd proc newfd (some ref)).pipes = w.pipes := by
    cases ref <;> rfl
  have handled : w.syscallDupPost proc oldfd newfd =
      ((w.addRefcount ref 1).processDescriptorSetFd proc newfd (some ref)).dupPipe proc oldfd newfd ref := by
    simp only [syscallDupPost, found]
  refine ⟨_, handled.trans (dupPipe_of_ne apart (by rw [tagged, piped])), by rw [pipes], tagged, ?_⟩
  exact (getFd_setFd _ proc proc newfd newfd _).trans (by simp)

/-- The ends of a pipe when a process has closed a descriptor, of this pipe or not. -/
theorem cell_closedPipes :
    (w.closedPipes proc fd).cell pipe =
      if (w.processDescriptorGetFd proc fd).map w.tag = some (.pipe, some pipe) then
        (w.pipes.cell pipe).close fd proc
      else w.pipes.cell pipe := by
  unfold closedPipes
  split
  · rename_i q tagged
    rw [cell_closePipe, tagged]
    by_cases same : pipe = q
    · subst same
      simp [Pipe.close, otherEnds]
    · simp [same, Ne.symm same]
  · rename_i other
    rw [if_neg (other pipe)]

/-- A pipe with an end that is not closed stays. -/
theorem live_closedPipes (listed : (w.pipes.cell pipe).Lists oldfd proc) (apart : newfd ≠ oldfd)
    (live : w.pipes.freed pipe = false) : (w.closedPipes proc newfd).freed pipe = false := by
  rw [← Bool.not_eq_true, freed_closedPipes, live]
  rintro (freed | ⟨_, _, _, read, write⟩)
  · cases freed
  · rcases listed with listed | listed
    · exact apart (PipeEnd.mk.inj (read _ listed)).1.symm
    · exact apart (PipeEnd.mk.inj (write _ listed)).1.symm

end

section

variable {H : Type} [DecidableEq H] {w : World H} {proc : Pid} {oldfd newfd fd : Int} {ref : DescRef}
  {pipe : PipeId}

theorem processCloseCall_of_pipe (found : w.processDescriptorGetFd proc fd = some ref)
    (piped : w.tag ref = (.pipe, some pipe)) :
    ∃ w', w.processCloseCall proc fd = .ok w' ∧ w'.pipes = (w.closePipe proc fd pipe).pipes := by
  cases ref with
  | socket is =>
      have socket := w.tag_socket is
      rw [piped] at socket
      cases socket
  | plain d =>
      have closed := processCloseCall_plain found
      rw [piped] at closed
      exact ⟨_, closed, closedPipes_of_pipe found piped⟩

/-- `process_close_call` on a descriptor of a pipe. -/
theorem close_ends (found : w.processDescriptorGetFd proc fd = some ref)
    (piped : w.tag ref = (.pipe, some pipe)) (live : w.pipes.freed pipe = false) :
    ∃ w', w.processCloseCall proc fd = .ok w' ∧
      w'.pipes.cell pipe = (w.pipes.cell pipe).close fd proc ∧
      (w'.pipes.freed pipe = true ↔ ((w.pipes.cell pipe).close fd proc).Empty) := by
  obtain ⟨w', closed, pipes⟩ := processCloseCall_of_pipe found piped
  refine ⟨w', closed, ?_, ?_⟩
  · rw [pipes, cell_closePipe, if_pos rfl]
    rfl
  · rw [pipes, freed_closePipe, live]
    simp [Pipe.Empty, Pipe.close, otherEnds]

/-- `syscall_dup2_post` on a descriptor of a pipe, with the ends as the close of the target leaves
    them. -/
theorem dup2_ends (found : w.processDescriptorGetFd proc oldfd = some ref)
    (piped : w.tag ref = (.pipe, some pipe)) (apart : newfd ≠ oldfd) (closable : w.Closable proc newfd) :
    ∃ w', w.syscallDup2Post proc oldfd newfd = .ok w' ∧
      w'.pipes = (w.closedPipes proc newfd).modify pipe (Pipe.dup oldfd newfd proc) := by
  obtain ⟨w₁, closed⟩ := closeTarget_returns_iff.mpr ((closable_addRefcount ref 1 proc newfd).mpr closable)
  have file := closeTarget_file closed
  have tagged : (w₁.processDescriptorSetFd proc newfd (some ref)).tag ref = (.pipe, some pipe) := by
    rw [tag_setFd, file.tag, tag_addRefcount, piped]
  have handled : w.syscallDup2Post proc oldfd newfd =
      (w₁.processDescriptorSetFd proc newfd (some ref)).dupPipe proc oldfd newfd ref := by
    simp only [syscallDup2Post, found, closed, bind, Except.bind]
  have pipes : (w₁.processDescriptorSetFd proc newfd (some ref)).pipes = w.closedPipes proc newfd := by
    rw [← closedPipes_addRefcount w ref 1, ← file.pipes]
    rfl
  exact ⟨_, handled.trans (dupPipe_of_ne apart tagged), by rw [pipes]⟩

/-- For the ends of a pipe of which a descriptor is one: the loops come to an end, with the index
    wrapping around or not. `dup` and `dup2` add one end for each of the old descriptor, `close` takes
    away those of the closed one and frees the pipe with the last of them, and so closing what `dup`
    made puts the lists back exactly if the number was not in use. -/
theorem pipe_end_loops (found : w.processDescriptorGetFd proc oldfd = some ref)
    (piped : w.tag ref = (.pipe, some pipe)) (live : w.pipes.freed pipe = false)
    (listed : (w.pipes.cell pipe).Lists oldfd proc) (apart : newfd ≠ oldfd) :
    (∀ (m : Nat) (ends : List PipeEnd), (dupEnds oldfd newfd proc ends).length < m →
      Ends (foreachRound m (dupEndBody oldfd newfd proc)) (0, ends) (dupEnds oldfd newfd proc ends)) ∧
    (∀ (m : Nat) (fd : Int) (ends : List PipeEnd), ends.length < m →
      Ends (foreachRound m (closeEndBody m fd proc)) (0, ends) (otherEnds fd proc ends)) ∧
    (∃ w', w.syscallDupPost proc oldfd newfd = .ok w' ∧
      w'.pipes.cell pipe = (w.pipes.cell pipe).dup oldfd newfd proc ∧
      ∃ w'', w'.processCloseCall proc newfd = .ok w'' ∧
        (w''.pipes.cell pipe = w.pipes.cell pipe ↔ ¬ (w.pipes.cell pipe).Lists newfd proc)) ∧
    (w.Closable proc newfd → ∃ w', w.syscallDup2Post proc oldfd newfd = .ok w' ∧
      w'.pipes.cell pipe =
        (if (w.processDescriptorGetFd proc newfd).map w.tag = some (.pipe, some pipe) then
          (w.pipes.cell pipe).close newfd proc else w.pipes.cell pipe).dup oldfd newfd proc ∧
      w'.pipes.freed pipe = false) ∧
    ∀ (fd : Int) (ref' : DescRef), w.processDescriptorGetFd proc fd = some ref' →
      w.tag ref' = (.pipe, some pipe) →
      ∃ w', w.processCloseCall proc fd = .ok w' ∧
        w'.pipes.cell pipe = (w.pipes.cell pipe).close fd proc ∧
        (w'.pipes.freed pipe = true ↔ ((w.pipes.cell pipe).close fd proc).Empty) := by
  refine ⟨fun m ends fits => ends_dupEndBody apart proc fits, fun m fd ends fits => ends_closeEndBody fd proc fits,
    ?_, fun closable => ?_, fun fd ref' found piped => close_ends found piped live⟩
  · obtain ⟨w', duplicated, pipes, tag, opened⟩ := syscallDupPost_of_ne apart found piped
    have cell : w'.pipes.cell pipe = (w.pipes.cell pipe).dup oldfd newfd proc := by
      rw [pipes, Heap.cell_modify_self]
    obtain ⟨w'', closed, restored, _⟩ := close_ends opened (by rw [tag, piped])
      (show w'.pipes.freed pipe = false by rw [pipes, Heap.freed_modify, live])
    refine ⟨w', duplicated, cell, w'', closed, ?_⟩
    rw [restored, cell]
    exact Pipe.close_dup_eq_iff
  · obtain ⟨w', duplicated, pipes⟩ := dup2_ends found piped apart closable
    refine ⟨w', duplicated, ?_, ?_⟩
    · rw [pipes, Heap.cell_modify_self, cell_closedPipes]
    · rw [pipes, Heap.freed_modify]
      exact live_closedPipes listed apart live

/-- A new pipe of which the read end is duplicated. -/
theorem dup_of_new_pipe : ∃ w', (threeHosts.syscallPipePost 0 (3, 4) 0).syscallDupPost 0 3 5 = .ok w' ∧
    w'.pipes.cell 0 = { readEnd := [⟨3, 0⟩, ⟨5, 0⟩], writeEnd := [⟨4, 0⟩] } := by
  have found : (threeHosts.syscallPipePost 0 (3, 4) 0).processDescriptorGetFd 0 3 = some (.plain 0) := by
    decide +kernel
  have piped : (threeHosts.syscallPipePost 0 (3, 4) 0).tag (.plain 0) = (.pipe, some 0) := by decide +kernel
  have listed : ((threeHosts.syscallPipePost 0 (3, 4) 0).pipes.cell 0).Lists 3 0 := .inl (by decide +kernel)
  have apart : (5 : Int) ≠ 3 := by decide
  obtain ⟨_, _, ⟨w', done, cell, _⟩, _⟩ := pipe_end_loops found piped rfl listed apart
  refine ⟨w', done, ?_⟩
  rw [cell]
  decide +kernel

end

end World

end Simterpose
