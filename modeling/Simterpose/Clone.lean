import Mathlib.Logic.Function.Iterate
import Simterpose.Stops

/-! # What a clone inherits

At a stop that `syscall_clone` takes for that of a child, a new process gets copies of
its parent's descriptors, and for each descriptor that refers to a pipe the loops over the
pipe's ends run once. Which stops these are is decoded from the wait status.
-/

namespace Simterpose

open Lib

/-! ## The ends of a pipe -/

/-- The ends that one pass of a loop adds for the clone. -/
def clonedEnds (clone : Pid) (ends : List PipeEnd) : List PipeEnd :=
  (ends.filter (·.proc ≠ clone)).map fun e => { fd := e.fd, proc := clone }

/-- The ends after some passes: none of them copies what an earlier one added. -/
def passedEnds (clone : Pid) (passes : Nat) (ends : List PipeEnd) : List PipeEnd :=
  ends ++ (List.replicate passes (clonedEnds clone ends)).flatten

/-- A pipe after a pass of both loops. -/
def Pipe.cloned (clone : Pid) (pipe : Pipe) : Pipe where
  readEnd := pipe.readEnd ++ clonedEnds clone pipe.readEnd
  writeEnd := pipe.writeEnd ++ clonedEnds clone pipe.writeEnd

theorem clonedEnds_append (clone : Pid) (ends ends' : List PipeEnd) :
    clonedEnds clone (ends ++ ends') = clonedEnds clone ends ++ clonedEnds clone ends' := by
  simp [clonedEnds]

theorem clonedEnds_eq_nil {clone : Pid} {ends : List PipeEnd} :
    clonedEnds clone ends = [] ↔ ∀ e ∈ ends, e.proc = clone := by
  simp [clonedEnds]

theorem proc_of_mem_clonedEnds {clone : Pid} {ends : List PipeEnd} {e : PipeEnd}
    (added : e ∈ clonedEnds clone ends) : e.proc = clone := by
  obtain ⟨_, _, rfl⟩ := List.mem_map.mp added
  rfl

theorem passedEnds_succ (clone : Pid) (passes : Nat) (ends : List PipeEnd) :
    passedEnds clone passes ends ++ clonedEnds clone (passedEnds clone passes ends) =
      passedEnds clone (passes + 1) ends := by
  have again : clonedEnds clone (List.replicate passes (clonedEnds clone ends)).flatten = [] := by
    apply clonedEnds_eq_nil.mpr
    intro e added
    obtain ⟨pass, isPass, added⟩ := List.mem_flatten.mp added
    rw [List.eq_of_mem_replicate isPass] at added
    exact proc_of_mem_clonedEnds added
  rw [passedEnds, clonedEnds_append, again, passedEnds, List.replicate_succ']
  simp

theorem Pipe.cloned_iterate (clone : Pid) (passes : Nat) (pipe : Pipe) :
    (Pipe.cloned clone)^[passes] pipe =
      { readEnd := passedEnds clone passes pipe.readEnd
        writeEnd := passedEnds clone passes pipe.writeEnd } := by
  induction passes with
  | zero => simp [passedEnds]
  | succ passes ih =>
      rw [Function.iterate_succ_apply', ih]
      simp only [Pipe.cloned, passedEnds_succ]

/-- The ends that the clone should get: one for each of the parent's. -/
def inheritedEnds (parent clone : Pid) (ends : List PipeEnd) : List PipeEnd :=
  (ends.filter (·.proc = parent)).map fun e => { fd := e.fd, proc := clone }

/-- The ends a list holds are such that the passes add one for each of the parent's: one
    pass does where all ends are the parent's, and none where none is. -/
def PassesFit (parent clone : Pid) (passes : Nat) (ends : List PipeEnd) : Prop :=
  ∀ e ∈ ends, e.proc ≠ clone →
    passes = 1 ∧ e.proc = parent ∨ passes = 0 ∧ e.proc ≠ parent

instance (parent clone : Pid) (passes : Nat) (ends : List PipeEnd) :
    Decidable (PassesFit parent clone passes ends) := inferInstanceAs (Decidable (∀ _ ∈ _, _))

section

variable {parent clone : Pid} {passes : Nat} {ends : List PipeEnd}

theorem filter_proc (apart : clone ≠ parent) :
    (ends.filter (·.proc ≠ clone)).filter (·.proc = parent) = ends.filter (·.proc = parent) := by
  rw [List.filter_filter]
  apply List.filter_congr
  intro e _
  by_cases mine : e.proc = parent
  · simp [mine, apart.symm]
  · simp [mine]

theorem passesFit_of_perm (apart : clone ≠ parent)
    (perm : (passedEnds clone passes ends).Perm (ends ++ inheritedEnds parent clone ends)) :
    PassesFit parent clone passes ends := by
  intro e listed other
  have counted : e ∈ ends.filter (·.proc ≠ clone) := by simp [listed, other]
  have positive := List.length_pos_of_mem counted
  have few := List.length_filter_le (fun e : PipeEnd => e.proc = parent)
    (ends.filter (·.proc ≠ clone))
  have lengths : passes * (ends.filter (·.proc ≠ clone)).length =
      ((ends.filter (·.proc ≠ clone)).filter (·.proc = parent)).length := by
    rw [filter_proc apart]
    simpa [passedEnds, clonedEnds, inheritedEnds] using perm.length_eq
  match passes, lengths with
  | 0, lengths =>
      right
      rw [Nat.zero_mul, eq_comm, List.length_eq_zero_iff, List.filter_eq_nil_iff] at lengths
      exact ⟨rfl, by simpa using lengths e counted⟩
  | 1, lengths =>
      left
      rw [Nat.one_mul, eq_comm, List.length_filter_eq_length_iff] at lengths
      exact ⟨rfl, by simpa using lengths e counted⟩
  | passes + 2, lengths =>
      -- twice as many ends as there are
      rw [Nat.add_mul] at lengths
      omega

theorem perm_of_passesFit (apart : clone ≠ parent) (fits : PassesFit parent clone passes ends) :
    (passedEnds clone passes ends).Perm (ends ++ inheritedEnds parent clone ends) := by
  apply List.Perm.append_left
  match passes with
  | 0 =>
      have absent : ends.filter (·.proc = parent) = [] := by
        apply List.filter_eq_nil_iff.mpr
        intro e listed mine
        have mine : e.proc = parent := by simpa using mine
        rcases fits e listed (by rw [mine]; exact apart.symm) with ⟨wrong, -⟩ | ⟨-, other⟩
        · cases wrong
        · exact other mine
      simp [inheritedEnds, absent]
  | 1 =>
      have all : ends.filter (·.proc ≠ clone) = ends.filter (·.proc = parent) := by
        rw [← filter_proc apart, eq_comm, List.filter_eq_self]
        intro e listed
        obtain ⟨listed, other⟩ := List.mem_filter.mp listed
        rcases fits e listed (by simpa using other) with ⟨-, mine⟩ | ⟨wrong, -⟩
        · simpa using mine
        · cases wrong
      rw [List.replicate_one, List.flatten_singleton, clonedEnds, all]
      rfl
  | passes + 2 =>
      have mine : ∀ e ∈ ends, e.proc = clone := by
        intro e listed
        by_contra other
        rcases fits e listed other with ⟨wrong, -⟩ | ⟨wrong, -⟩
        · omega
        · omega
      have absent : inheritedEnds parent clone ends = [] := by
        simp only [inheritedEnds, List.map_eq_nil_iff, List.filter_eq_nil_iff]
        intro e listed
        simp [mine e listed, apart]
      rw [clonedEnds_eq_nil.mpr mine, absent]
      simp

end

namespace World

/-! ## Records -/

section

variable {H : Type} {w w' w'' : World H}

/-- The record exists. -/
def Holds (w : World H) : DescRef → Prop
  | .plain d => d < w.descs.next
  | .socket is => is < w.sockets.next

instance (w : World H) : (ref : DescRef) → Decidable (w.Holds ref)
  | .plain _ => inferInstanceAs (Decidable (_ < _))
  | .socket _ => inferInstanceAs (Decidable (_ < _))

/-- Only the table of one process changes, and plain records are only added. -/
structure Adds (proc : Pid) (w w' : World H) : Prop where
  others : ∀ q, q ≠ proc → w'.procs q = w.procs q
  stored : ∀ d < w.descs.next, w'.descs.cell d = w.descs.cell d
  grown : w.descs.next ≤ w'.descs.next
  sockets : w'.sockets = w.sockets

namespace Adds

variable {proc : Pid}

theorem refl (w : World H) (proc : Pid) : w.Adds proc w :=
  ⟨fun _ _ => rfl, fun _ _ => rfl, Nat.le_refl _, rfl⟩

theorem trans (first : w.Adds proc w') (second : w'.Adds proc w'') : w.Adds proc w'' where
  others q other := (second.others q other).trans (first.others q other)
  stored d old := (second.stored d (Nat.lt_of_lt_of_le old first.grown)).trans (first.stored d old)
  grown := Nat.le_trans first.grown second.grown
  sockets := second.sockets.trans first.sockets

theorem holds (adds : w.Adds proc w') {ref : DescRef} (held : w.Holds ref) : w'.Holds ref := by
  cases ref with
  | plain d => exact Nat.lt_of_lt_of_le held adds.grown
  | socket is =>
      unfold Holds
      rw [adds.sockets]
      exact held

theorem fileDesc (adds : w.Adds proc w') {ref : DescRef} (held : w.Holds ref) :
    w'.fileDesc ref = w.fileDesc ref := by
  cases ref with
  | plain d => exact adds.stored d held
  | socket is => simp only [World.fileDesc, World.socket, adds.sockets]

theorem tag (adds : w.Adds proc w') {ref : DescRef} (held : w.Holds ref) :
    w'.tag ref = w.tag ref := by
  rw [World.tag, adds.fileDesc held, World.tag]

theorem getFd (adds : w.Adds proc w') {q : Pid} (other : q ≠ proc) (g : Int) :
    w'.processDescriptorGetFd q g = w.processDescriptorGetFd q g := by
  simp only [processDescriptorGetFd, adds.others q other]

end Adds

theorem adds_enterDesc (w : World H) (proc : Pid) (fd : Int) (desc : FdDescriptor) :
    w.Adds proc (w.enterDesc proc fd desc) where
  others q other := Function.update_of_ne other _ _
  stored d old := by
    simp only [enterDesc, Heap.cell_alloc]
    exact if_neg (Nat.ne_of_lt old)
  grown := Nat.le_succ _
  sockets := rfl

/-! ## The descriptors of a new process -/

/-- `process_descriptor_new` enters the simulator's own open files, plain records without a
    pipe. -/
structure Opens (pid : Pid) (own : List Int) (w w' : World H) : Prop extends Adds pid w w' where
  pipes : w'.pipes = w.pipes
  entered : ∀ g, (w'.processDescriptorGetFd pid g).isSome = true ↔
    g ∈ own ∨ (w.processDescriptorGetFd pid g).isSome = true
  fresh : ∀ g ref, w'.processDescriptorGetFd pid g = some ref →
    w.processDescriptorGetFd pid g = some ref ∨
      w'.Holds ref ∧ w'.tag ref = (ownType g, none) ∧ ∃ d, ref = .plain d

theorem opens_registerFileDescriptor (w : World H) (pid : Pid) (fd : Int) :
    w.Opens pid [fd] (w.registerFileDescriptor pid fd (ownType fd)) where
  toAdds := w.adds_enterDesc pid fd _
  pipes := rfl
  entered g := by
    unfold registerFileDescriptor
    rw [getFd_enterDesc]
    by_cases same : g = fd
    · simp [same]
    · simp [same]
  fresh g ref found := by
    unfold registerFileDescriptor at found ⊢
    rw [getFd_enterDesc] at found
    split at found
    · rename_i same
      cases found
      refine .inr ⟨Nat.lt_succ_self _, ?_, _, rfl⟩
      simp [tag, World.fileDesc, enterDesc, same.2]
    · exact .inl found

theorem Opens.trans {pid : Pid} {own own' : List Int} (first : w.Opens pid own w')
    (second : w'.Opens pid own' w'') : w.Opens pid (own ++ own') w'' where
  toAdds := first.toAdds.trans second.toAdds
  pipes := second.pipes.trans first.pipes
  entered g := by
    rw [second.entered, first.entered, List.mem_append]
    tauto
  fresh g ref found := by
    rcases second.fresh g ref found with old | new
    · rcases first.fresh g ref old with old | ⟨held, tagged, plain⟩
      · exact .inl old
      · exact .inr ⟨second.holds held, (second.tag held).trans tagged, plain⟩
    · exact .inr new

theorem opens_foldl (w : World H) (pid : Pid) (own : List Int) :
    w.Opens pid own
      (own.foldl (fun w fd => w.registerFileDescriptor pid fd (ownType fd)) w) := by
  induction own generalizing w with
  | nil => exact ⟨.refl w pid, rfl, fun g => by simp, fun g ref found => .inl found⟩
  | cons fd own ih => exact (w.opens_registerFileDescriptor pid fd).trans (ih _)

/-! ## The copies of the parent's descriptors -/

/-- The record of the clone for one of the parent. -/
def clonedDesc (clone : Pid) (fileDesc : FdDescriptor) : FdDescriptor where
  type := fileDesc.type
  proc := clone
  fd := fileDesc.fd
  flags := fileDesc.flags
  pipe := fileDesc.pipe
  stream := fileDesc.stream

/-- How many of some descriptors refer to the pipe: the passes that its ends undergo. -/
def passes (w : World H) (entries : List (Sigma fun _ : Int => DescRef)) (pipe : PipeId) : Nat :=
  entries.countP fun entry => w.tag entry.2 = (.pipe, some pipe)

/-- The loop of `syscall_clone` over some descriptors. -/
structure Copies (clone : Pid) (entries : List (Sigma fun _ : Int => DescRef)) (w w' : World H) :
    Prop extends Adds clone w w' where
  kept : ∀ g, (∀ entry ∈ entries, entry.1 ≠ g) →
    w'.processDescriptorGetFd clone g = w.processDescriptorGetFd clone g
  copied : ∀ entry ∈ entries, ∃ d, w'.processDescriptorGetFd clone entry.1 = some (.plain d) ∧
    d < w'.descs.next ∧ w'.descs.cell d = clonedDesc clone (w.fileDesc entry.2)
  made : w'.pipes.next = w.pipes.next
  freed : w'.pipes.freed = w.pipes.freed
  ends : ∀ pipe, w'.pipes.cell pipe =
    (Pipe.cloned clone)^[w.passes entries pipe] (w.pipes.cell pipe)

theorem clonePipe_eq (w : World H) (clone : Pid) (pipe : PipeId) :
    w.clonePipe clone pipe = .ok { w with pipes := w.pipes.modify pipe (Pipe.cloned clone) } := by
  simp only [clonePipe, cloneEnds_eq]
  rfl

theorem cloneDesc_eq (w : World H) (clone : Pid) (i : Int) (ref : DescRef) :
    w.cloneDesc clone i ref =
      match w.tag ref with
      | (.pipe, none) => .error .xbtAssert
      | (.pipe, some pipe) =>
          .ok { w.enterDesc clone i (clonedDesc clone (w.fileDesc ref)) with
            pipes := w.pipes.modify pipe (Pipe.cloned clone) }
      | _ => .ok (w.enterDesc clone i (clonedDesc clone (w.fileDesc ref))) := by
  simp only [cloneDesc, clonePipe_eq, tag]
  cases typed : (w.fileDesc ref).type with
  | pipe =>
      cases piped : (w.fileDesc ref).pipe with
      | none | some => simp [clonedDesc, typed, piped, enterDesc]; try rfl
  | stdin | stdout | stderr | classic | socket => simp [clonedDesc, typed]

theorem cloneDesc_ok {clone : Pid} {i : Int} {ref : DescRef}
    (done : w.cloneDesc clone i ref = .ok w') :
    w.tag ref ≠ (.pipe, none) ∧
      w' = { w.enterDesc clone i (clonedDesc clone (w.fileDesc ref)) with pipes := w'.pipes } ∧
      w'.pipes.next = w.pipes.next ∧ w'.pipes.freed = w.pipes.freed ∧
      ∀ pipe, w'.pipes.cell pipe =
        (Pipe.cloned clone)^[if w.tag ref = (.pipe, some pipe) then 1 else 0] (w.pipes.cell pipe) := by
  rw [cloneDesc_eq] at done
  split at done
  · cases done
  · rename_i pipe piped
    cases done
    refine ⟨by simp [piped], rfl, rfl, rfl, fun q => ?_⟩
    simp only [piped, Heap.cell_modify, Prod.mk.injEq, true_and, Option.some.injEq]
    by_cases same : q = pipe
    · simp [same]
    · simp [same, Ne.symm same]
  · rename_i noNull noPipe
    cases done
    refine ⟨noNull, rfl, rfl, rfl, fun q => ?_⟩
    rw [if_neg (noPipe q)]
    rfl

theorem copies_cloneDesc {clone : Pid} {i : Int} {ref : DescRef}
    (done : w.cloneDesc clone i ref = .ok w') : w.Copies clone [⟨i, ref⟩] w' := by
  obtain ⟨-, same, made, freed, ends⟩ := cloneDesc_ok done
  have adds := w.adds_enterDesc clone i (clonedDesc clone (w.fileDesc ref))
  have descs : w'.descs = w.descs.alloc (clonedDesc clone (w.fileDesc ref)) := by rw [same]; rfl
  have getFd : ∀ g, w'.processDescriptorGetFd clone g =
      if g = i then some (.plain w.descs.next) else w.processDescriptorGetFd clone g := by
    intro g
    rw [same]
    exact (w.getFd_setFd clone clone i g _).trans (by simp)
  refine { others := ?_, stored := ?_, grown := ?_, sockets := ?_, kept := ?_, copied := ?_
           made := made, freed := freed, ends := ?_ }
  · rw [same]
    exact adds.others
  · rw [same]
    exact adds.stored
  · rw [same]
    exact adds.grown
  · rw [same]
    exact adds.sockets
  · intro g other
    rw [getFd, if_neg (Ne.symm (other _ (List.mem_singleton.mpr rfl)))]
  · intro entry listed
    rw [List.mem_singleton.mp listed, getFd, if_pos rfl, descs]
    exact ⟨_, rfl, Nat.lt_succ_self _, Heap.cell_alloc_self ..⟩
  · intro pipe
    rw [ends, passes, List.countP_singleton]
    simp

theorem Copies.cons {clone : Pid} {entry : Sigma fun _ : Int => DescRef}
    {entries : List (Sigma fun _ : Int => DescRef)} (first : w.Copies clone [entry] w')
    (second : w'.Copies clone entries w'') (apart : ∀ other ∈ entries, other.1 ≠ entry.1)
    (held : ∀ other ∈ entries, w.Holds other.2) : w.Copies clone (entry :: entries) w'' where
  toAdds := first.toAdds.trans second.toAdds
  kept g other := by
    rw [List.forall_mem_cons] at other
    rw [second.kept g other.2, first.kept g (by simpa using other.1)]
  copied := by
    rw [List.forall_mem_cons]
    constructor
    · obtain ⟨d, found, old, stored⟩ := first.copied entry (by simp)
      refine ⟨d, ?_, Nat.lt_of_lt_of_le old second.grown, (second.stored d old).trans stored⟩
      rw [second.kept _ apart, found]
    · intro other listed
      rw [← first.fileDesc (held other listed)]
      exact second.copied other listed
  made := second.made.trans first.made
  freed := second.freed.trans first.freed
  ends pipe := by
    have later : w'.passes entries pipe = w.passes entries pipe := by
      apply List.countP_congr
      intro other listed
      rw [first.tag (held other listed)]
    have total : w.passes (entry :: entries) pipe = w.passes entries pipe + w.passes [entry] pipe := by
      simp [passes, List.countP_cons]
    rw [second.ends, first.ends, later, total, Function.iterate_add_apply]

theorem cloneDescs_ok {clone : Pid} {entries : List (Sigma fun _ : Int => DescRef)}
    (nodup : entries.NodupKeys) (held : ∀ entry ∈ entries, w.Holds entry.2)
    (done : cloneDescs clone entries w = .ok w') :
    w.Copies clone entries w' ∧ ∀ entry ∈ entries, w.tag entry.2 ≠ (.pipe, none) := by
  induction entries generalizing w with
  | nil =>
      cases done
      exact ⟨⟨.refl _ clone, fun _ _ => rfl, by simp, rfl, rfl, fun _ => rfl⟩, by simp⟩
  | cons entry entries ih =>
      obtain ⟨w₁, first, rest⟩ := bind_eq_ok.mp done
      obtain ⟨keyFresh, nodup⟩ := List.nodupKeys_cons.mp nodup
      rw [List.forall_mem_cons] at held
      have copies := copies_cloneDesc first
      obtain ⟨later, whole⟩ := ih nodup (fun other listed => copies.holds (held.2 other listed)) rest
      refine ⟨copies.cons later ?_ held.2, ?_⟩
      · intro other listed same
        exact keyFresh (same ▸ List.mem_map_of_mem listed)
      · rw [List.forall_mem_cons]
        refine ⟨(cloneDesc_ok first).1, fun other listed => ?_⟩
        rw [← copies.tag (held.2 other listed)]
        exact whole other listed

theorem exists_cloneDescs (clone : Pid) {entries : List (Sigma fun _ : Int => DescRef)}
    (held : ∀ entry ∈ entries, w.Holds entry.2)
    (whole : ∀ entry ∈ entries, w.tag entry.2 ≠ (.pipe, none)) :
    ∃ w', cloneDescs clone entries w = .ok w' := by
  induction entries generalizing w with
  | nil => exact ⟨w, rfl⟩
  | cons entry entries ih =>
      rw [List.forall_mem_cons] at held whole
      have first : ∃ w₁, w.cloneDesc clone entry.1 entry.2 = .ok w₁ := by
        rw [cloneDesc_eq]
        split
        · rename_i null
          exact absurd null whole.1
        · exact ⟨_, rfl⟩
        · exact ⟨_, rfl⟩
      obtain ⟨w₁, first⟩ := first
      have adds := (copies_cloneDesc first).toAdds
      obtain ⟨w', rest⟩ := ih (fun other listed => adds.holds (held.2 other listed))
        fun other listed => (adds.tag (held.2 other listed)).symm ▸ whole.2 other listed
      exact ⟨w', bind_eq_ok.mpr ⟨w₁, first, rest⟩⟩

/-! ## The whole of a clone -/

/-- The records behind the descriptors of a process exist. -/
def HoldsAll (w : World H) (proc : Pid) : Prop :=
  ∀ g ref, w.processDescriptorGetFd proc g = some ref → w.Holds ref

/-- How many descriptors of a process refer to the pipe. -/
def pipeRefs (w : World H) (proc : Pid) (pipe : PipeId) : Nat :=
  w.passes (w.procs proc).fdMap.entries pipe

/-- None of the process's descriptors is of a pipe and has none. -/
def NoNullPipe (w : World H) (proc : Pid) : Prop :=
  ∀ g ref, w.processDescriptorGetFd proc g = some ref → w.tag ref ≠ (.pipe, none)

/-- What `syscall_clone` does to the tables for a child. -/
structure Clones (parent clone : Pid) (own : List Int) (w w' : World H) : Prop
    extends Adds clone w w' where
  numbers : ∀ g, (w'.processDescriptorGetFd clone g).isSome = true ↔
    g ∈ own ∨ (w.processDescriptorGetFd parent g).isSome = true
  copied : ∀ g ref, w.processDescriptorGetFd parent g = some ref →
    ∃ d, w'.processDescriptorGetFd clone g = some (.plain d) ∧ d < w'.descs.next ∧
      w'.descs.cell d = clonedDesc clone (w.fileDesc ref)
  own : ∀ g ref, w.processDescriptorGetFd parent g = none →
    w'.processDescriptorGetFd clone g = some ref →
    w'.Holds ref ∧ w'.tag ref = (ownType g, none) ∧ ∃ d, ref = .plain d
  made : w'.pipes.next = w.pipes.next
  freed : w'.pipes.freed = w.pipes.freed
  ends : ∀ pipe, w'.pipes.cell pipe =
    { readEnd := passedEnds clone (w.pipeRefs parent pipe) (w.pipes.cell pipe).readEnd
      writeEnd := passedEnds clone (w.pipeRefs parent pipe) (w.pipes.cell pipe).writeEnd }

theorem mem_entries_iff {proc : Pid} {entry : Sigma fun _ : Int => DescRef} :
    entry ∈ (w.procs proc).fdMap.entries ↔
      w.processDescriptorGetFd proc entry.1 = some entry.2 :=
  AList.mem_lookup_iff.symm

/-- The table of the clone starts out empty. -/
theorem opens_processDescriptorNew (w : World H) (host : H) (pid : Pid) (own : List Int) :
    w.Adds pid (w.processDescriptorNew host pid own) ∧
      (w.processDescriptorNew host pid own).pipes = w.pipes ∧
      (∀ g, ((w.processDescriptorNew host pid own).processDescriptorGetFd pid g).isSome = true ↔
        g ∈ own) ∧
      ∀ g ref, (w.processDescriptorNew host pid own).processDescriptorGetFd pid g = some ref →
        (w.processDescriptorNew host pid own).Holds ref ∧
          (w.processDescriptorNew host pid own).tag ref = (ownType g, none) ∧
          ∃ d, ref = .plain d := by
  let start : World H := { w with procs := Function.update w.procs pid { host := host, fdMap := ∅ } }
  have empty : ∀ g, start.processDescriptorGetFd pid g = none := by
    intro g
    simp [start, processDescriptorGetFd]
  have opens : start.Opens pid own (w.processDescriptorNew host pid own) := opens_foldl start pid own
  have adds : w.Adds pid start :=
    ⟨fun q other => Function.update_of_ne other _ _, fun _ _ => rfl, Nat.le_refl _, rfl⟩
  refine ⟨adds.trans opens.toAdds, opens.pipes, fun g => ?_, fun g ref found => ?_⟩
  · rw [opens.entered, empty]
    simp
  · rcases opens.fresh g ref found with old | new
    · rw [empty] at old
      cases old
    · exact new

theorem cloneProcess_ok {parent clone : Pid} {own : List Int} (held : w.HoldsAll parent)
    (done : w.cloneProcess parent clone own = .ok w') :
    w.Clones parent clone own w' ∧ w.NoNullPipe parent := by
  obtain ⟨opened, pipes, numbers, fresh⟩ :=
    w.opens_processDescriptorNew (w.procs parent).host clone own
  have held : ∀ entry ∈ (w.procs parent).fdMap.entries, w.Holds entry.2 :=
    fun entry listed => held _ _ (mem_entries_iff.mp listed)
  obtain ⟨copies, whole⟩ := cloneDescs_ok (w.procs parent).fdMap.nodupKeys
    (fun entry listed => opened.holds (held entry listed)) done
  have fdOf : ∀ g, (∀ entry ∈ (w.procs parent).fdMap.entries, entry.1 ≠ g) ↔
      w.processDescriptorGetFd parent g = none := by
    intro g
    rw [Option.eq_none_iff_forall_not_mem]
    constructor
    · intro other ref found
      exact other ⟨g, ref⟩ (mem_entries_iff.mpr found) rfl
    · rintro absent ⟨g', ref⟩ listed rfl
      exact absent ref (mem_entries_iff.mp listed)
  have copied : ∀ g ref, w.processDescriptorGetFd parent g = some ref →
      ∃ d, w'.processDescriptorGetFd clone g = some (.plain d) ∧ d < w'.descs.next ∧
        w'.descs.cell d = clonedDesc clone (w.fileDesc ref) := by
    intro g ref found
    have listed : ⟨g, ref⟩ ∈ (w.procs parent).fdMap.entries := mem_entries_iff.mpr found
    rw [← opened.fileDesc (held ⟨g, ref⟩ listed)]
    exact copies.copied ⟨g, ref⟩ listed
  refine ⟨{ toAdds := opened.trans copies.toAdds, copied := copied, numbers := ?_, own := ?_
            made := ?_, freed := ?_, ends := ?_ }, ?_⟩
  · intro g
    cases found : w.processDescriptorGetFd parent g with
    | none =>
        rw [copies.kept g ((fdOf g).mpr found), numbers]
        simp
    | some ref =>
        obtain ⟨d, entered, -⟩ := copied g ref found
        simp [entered]
  · intro g ref absent found
    rw [copies.kept g ((fdOf g).mpr absent)] at found
    obtain ⟨new, tagged, plain⟩ := fresh g ref found
    exact ⟨copies.holds new, (copies.tag new).trans tagged, plain⟩
  · rw [copies.made, pipes]
  · rw [copies.freed, pipes]
  · intro pipe
    have same : World.passes (w.processDescriptorNew (w.procs parent).host clone own)
        (w.procs parent).fdMap.entries pipe = w.pipeRefs parent pipe := by
      apply List.countP_congr
      intro entry listed
      rw [opened.tag (held entry listed)]
    rw [copies.ends, same, pipes, Pipe.cloned_iterate]
  · intro g ref found
    have listed : ⟨g, ref⟩ ∈ (w.procs parent).fdMap.entries := mem_entries_iff.mpr found
    rw [← opened.tag (held ⟨g, ref⟩ listed)]
    exact whole ⟨g, ref⟩ listed

theorem cloneProcess_returns_iff {parent clone : Pid} {own : List Int} (held : w.HoldsAll parent) :
    (∃ w', w.cloneProcess parent clone own = .ok w') ↔ w.NoNullPipe parent := by
  constructor
  · rintro ⟨w', done⟩
    exact (cloneProcess_ok held done).2
  · intro whole
    obtain ⟨opened, -⟩ := w.opens_processDescriptorNew (w.procs parent).host clone own
    apply exists_cloneDescs
    · intro entry listed
      exact opened.holds (held _ _ (mem_entries_iff.mp listed))
    · intro entry listed
      have found := mem_entries_iff.mp listed
      rw [opened.tag (held _ _ found)]
      exact whole _ _ found

/-- The clone has exactly the parent's descriptors, each pipe has gained one end of the clone
    for each of the parent's, and the parent's table is as it was. -/
structure Inherits (w : World H) (parent clone : Pid) (w' : World H) : Prop where
  numbers : ∀ g, (w'.processDescriptorGetFd clone g).isSome = true ↔
    (w.processDescriptorGetFd parent g).isSome = true
  records : ∀ g ref ref', w.processDescriptorGetFd parent g = some ref →
    w'.processDescriptorGetFd clone g = some ref' →
    (w'.fileDesc ref').type = (w.fileDesc ref).type ∧
      (w'.fileDesc ref').flags = (w.fileDesc ref).flags ∧
      (w'.fileDesc ref').pipe = (w.fileDesc ref).pipe ∧
      (w'.fileDesc ref').stream = (w.fileDesc ref).stream
  reads : ∀ pipe, (w'.pipes.cell pipe).readEnd.Perm
    ((w.pipes.cell pipe).readEnd ++ inheritedEnds parent clone (w.pipes.cell pipe).readEnd)
  writes : ∀ pipe, (w'.pipes.cell pipe).writeEnd.Perm
    ((w.pipes.cell pipe).writeEnd ++ inheritedEnds parent clone (w.pipes.cell pipe).writeEnd)
  table : ∀ g, w'.processDescriptorGetFd parent g = w.processDescriptorGetFd parent g
  parents : ∀ g ref, w.processDescriptorGetFd parent g = some ref →
    w'.fileDesc ref = w.fileDesc ref

/-- The simulator has no open file whose number the parent does not use, and the loops add
    the ends they should. -/
structure Inheritable (w : World H) (parent clone : Pid) (own : List Int) : Prop where
  whole : w.NoNullPipe parent
  own : ∀ g ∈ own, (w.processDescriptorGetFd parent g).isSome = true
  reads : ∀ pipe, PassesFit parent clone (w.pipeRefs parent pipe) (w.pipes.cell pipe).readEnd
  writes : ∀ pipe, PassesFit parent clone (w.pipeRefs parent pipe) (w.pipes.cell pipe).writeEnd

theorem Clones.inherits_iff {parent clone : Pid} {own : List Int} (apart : clone ≠ parent)
    (held : w.HoldsAll parent) (whole : w.NoNullPipe parent)
    (clones : w.Clones parent clone own w') :
    w.Inherits parent clone w' ↔ w.Inheritable parent clone own := by
  constructor
  · intro inherits
    refine ⟨whole, fun g opened => ?_, fun pipe => ?_, fun pipe => ?_⟩
    · rw [← inherits.numbers, clones.numbers]
      exact .inl opened
    · apply passesFit_of_perm apart
      have perm := inherits.reads pipe
      rwa [clones.ends] at perm
    · apply passesFit_of_perm apart
      have perm := inherits.writes pipe
      rwa [clones.ends] at perm
  · intro fits
    refine ⟨fun g => ?_, fun g ref ref' found found' => ?_, fun pipe => ?_, fun pipe => ?_,
      fun g => clones.getFd (Ne.symm apart) g, fun g ref found => clones.fileDesc (held g ref found)⟩
    · rw [clones.numbers]
      constructor
      · rintro (opened | known)
        · exact fits.own g opened
        · exact known
      · exact .inr
    · obtain ⟨d, entered, -, stored⟩ := clones.copied g ref found
      rw [entered] at found'
      cases found'
      simp only [World.fileDesc] at stored ⊢
      rw [stored]
      exact ⟨rfl, rfl, rfl, rfl⟩
    · rw [clones.ends]
      exact perm_of_passesFit apart (fits.reads pipe)
    · rw [clones.ends]
      exact perm_of_passesFit apart (fits.writes pipe)

theorem cloneProcess_inherits_iff {parent clone : Pid} {own : List Int} (apart : clone ≠ parent)
    (held : w.HoldsAll parent) :
    (∃ w', w.cloneProcess parent clone own = .ok w' ∧ w.Inherits parent clone w') ↔
      w.Inheritable parent clone own := by
  constructor
  · rintro ⟨w', done, inherits⟩
    obtain ⟨clones, whole⟩ := cloneProcess_ok held done
    exact (clones.inherits_iff apart held whole).mp inherits
  · intro fits
    obtain ⟨w', done⟩ := (cloneProcess_returns_iff held).mpr fits.whole
    obtain ⟨clones, whole⟩ := cloneProcess_ok held done
    exact ⟨w', done, (clones.inherits_iff apart held whole).mpr fits⟩

end

end World

/-! ## The three stops -/

namespace Traced

variable {H : Type}

/-- The stops of a `clone` in the parent: its entry, the one reported for the new process
    with the given status, and its exit. With the state comes the list of the processes for
    which a descriptor was made. -/
def cloneStops (s : Traced H) (parent pidClone : Pid) (own : List Int) (status : WaitStatus) :
    Result (Traced H × List Pid) := do
  let (s, first) ← s.syscallClone parent Stop.entry.status pidClone own
  let (s, second) ← s.syscallClone parent status pidClone own
  let (s, third) ← s.syscallClone parent Stop.exit.status pidClone own
  return (s, first.toList ++ second.toList ++ third.toList)

/-- `syscall_clone` takes a stop with this status for that of a child. -/
def TakenForChild (status : WaitStatus) : Prop :=
  status.wstopsig &&& (sigtrap ||| 0x80) = 0 ∧ status.procEventExec = true

instance (status : WaitStatus) : Decidable (TakenForChild status) :=
  inferInstanceAs (Decidable (_ ∧ _))

/-- Every stop of a tracee is by `SIGTRAP`, so none is taken for that of a child. -/
theorem not_takenForChild (place : Stop) : ¬ TakenForChild place.status := by
  cases place with
  | entry | exit => decide
  | event e => cases e <;> decide

section

variable {s s' : Traced H} {parent pidClone : Pid} {own : List Int} {status : WaitStatus}
  {made : Option Pid}

/-- At any other stop the handler makes no process and leaves the tables alone. -/
theorem syscallClone_ok (handled : s.syscallClone parent status pidClone own = .ok (s', made)) :
    ¬ TakenForChild status ∧ made = none ∧ s'.world = s.world ∨
      TakenForChild status ∧ made = some pidClone ∧
        s.world.cloneProcess parent pidClone own = .ok s'.world := by
  unfold syscallClone at handled
  split at handled
  · rename_i regular
    obtain ⟨s₁, exited, ⟨⟩⟩ := bind_pure_eq_ok.mp handled
    refine .inl ⟨fun child => regular child.1, rfl, ?_⟩
    rcases atExit_ok exited with ⟨-, rfl⟩ | ⟨-, w, done, rfl⟩
    · rfl
    · cases done
      rfl
  · rename_i silent
    split at handled
    · rename_i child
      obtain ⟨w', done, ⟨⟩⟩ := bind_pure_eq_ok.mp handled
      exact .inr ⟨⟨by simpa using silent, child⟩, rfl, done⟩
    · rename_i other
      cases handled
      exact .inl ⟨fun child => other child.2, rfl, rfl⟩

theorem exists_syscallClone (s : Traced H) (returns : TakenForChild status →
    ∃ w', s.world.cloneProcess parent pidClone own = .ok w') :
    ∃ r, s.syscallClone parent status pidClone own = .ok r := by
  unfold syscallClone
  split
  · unfold atExit
    split
    · exact ⟨_, rfl⟩
    · exact ⟨_, rfl⟩
  · rename_i silent
    split
    · rename_i child
      obtain ⟨w', done⟩ := returns ⟨by simpa using silent, child⟩
      exact ⟨_, bind_eq_ok.mpr ⟨w', done, rfl⟩⟩
    · exact ⟨_, rfl⟩

/-- Of the three stops only the second can make a process. -/
theorem cloneStops_iff {P : World H → Prop} :
    (∃ s', s.cloneStops parent pidClone own status = .ok (s', [pidClone]) ∧ P s'.world) ↔
      TakenForChild status ∧
        ∃ w', s.world.cloneProcess parent pidClone own = .ok w' ∧ P w' := by
  have regular : ∀ {place : Stop} {s s' : Traced H} {made : Option Pid},
      s.syscallClone parent place.status pidClone own = .ok (s', made) →
      made = none ∧ s'.world = s.world := by
    intro place s s' made handled
    rcases syscallClone_ok handled with ⟨-, same⟩ | ⟨child, -⟩
    · exact same
    · exact absurd child (not_takenForChild place)
  constructor
  · rintro ⟨s', handled, holds⟩
    obtain ⟨⟨s₁, made₁⟩, first, handled⟩ := bind_eq_ok.mp handled
    obtain ⟨⟨s₂, made₂⟩, second, handled⟩ := bind_eq_ok.mp handled
    obtain ⟨⟨s₃, made₃⟩, third, rest⟩ := bind_eq_ok.mp handled
    obtain ⟨rfl, entered⟩ := regular first
    obtain ⟨rfl, exited⟩ := regular third
    obtain ⟨rfl, pids⟩ := Prod.mk.inj (pure_eq_ok.mp rest)
    rcases syscallClone_ok second with ⟨-, rfl, -⟩ | ⟨child, -, done⟩
    · simp at pids
    · rw [entered, ← exited] at done
      exact ⟨child, _, done, holds⟩
  · rintro ⟨child, w', done, holds⟩
    have regularReturns : ∀ (place : Stop) (s : Traced H),
        ∃ r, s.syscallClone parent place.status pidClone own = .ok r :=
      fun place s => exists_syscallClone s fun child => absurd child (not_takenForChild place)
    obtain ⟨⟨s₁, made₁⟩, first⟩ := regularReturns .entry s
    obtain ⟨rfl, entered⟩ := regular first
    have cloned : s₁.world.cloneProcess parent pidClone own = .ok w' := by rw [entered, done]
    obtain ⟨⟨s₂, made₂⟩, second⟩ := exists_syscallClone s₁ fun _ : TakenForChild status => ⟨w', cloned⟩
    obtain ⟨⟨s₃, made₃⟩, third⟩ := regularReturns .exit s₂
    obtain ⟨rfl, exited⟩ := regular third
    rcases syscallClone_ok second with ⟨other, -⟩ | ⟨-, rfl, done'⟩
    · exact absurd child other
    · rw [cloned] at done'
      cases done'
      refine ⟨s₃, ?_, exited ▸ holds⟩
      exact bind_eq_ok.mpr ⟨_, first, bind_eq_ok.mpr ⟨_, second, bind_eq_ok.mpr ⟨_, third, rfl⟩⟩⟩

end

/-- For any wait status of the stop that reports the new process: the three stops make
    exactly one process, which inherits the parent's descriptors, if and only if the handler
    takes the stop for that of a child, the simulator has no open file that the parent has
    not, and each pipe the parent uses is behind one descriptor of it and has no end of
    another process. -/
theorem clone_inherits_iff (s : Traced H) (parent pidClone : Pid) (own : List Int)
    (status : WaitStatus) (apart : pidClone ≠ parent) (held : s.world.HoldsAll parent) :
    (∃ s', s.cloneStops parent pidClone own status = .ok (s', [pidClone]) ∧
        s.world.Inherits parent pidClone s'.world) ↔
      TakenForChild status ∧ s.world.Inheritable parent pidClone own := by
  rw [cloneStops_iff (P := s.world.Inherits parent pidClone), World.cloneProcess_inherits_iff apart held]

/-- Process `0` holds the writing end of a pipe, whose other end it has closed. -/
def writer : Traced (Fin 3) where
  world :=
    let host := (World.threeHosts.procs 0).host
    let w := (World.threeHosts.processDescriptorNew host 0 [0, 1, 2]).syscallPipePost 0 (3, 4) 0
    match w.processCloseCall 0 3 with
    | .ok w => w
    | .error _ => World.threeHosts
  inSyscall _ := false

theorem writer_held : writer.world.HoldsAll 0 := by
  have all : ∀ entry ∈ (writer.world.procs 0).fdMap.entries, writer.world.Holds entry.2 := by
    decide +kernel
  intro g ref found
  exact all ⟨g, ref⟩ (World.mem_entries_iff.mpr found)

theorem writer_inheritable : writer.world.Inheritable 0 7 [0, 1, 2] := by
  have whole : ∀ entry ∈ (writer.world.procs 0).fdMap.entries,
      writer.world.tag entry.2 ≠ (.pipe, none) := by
    decide +kernel
  have readers : ∀ pipe, (writer.world.pipes.cell pipe).readEnd = [] := by
    intro pipe
    cases pipe with
    | zero => decide +kernel
    | succ => rfl
  have unused : ∀ pipe, (writer.world.pipes.cell (pipe + 1)).writeEnd = [] := by
    intro pipe
    rfl
  refine ⟨fun g ref found => whole ⟨g, ref⟩ (World.mem_entries_iff.mpr found), by decide +kernel,
    fun pipe => ?_, fun pipe => ?_⟩
  · rw [readers]
    exact List.forall_mem_nil _
  · cases pipe with
    | zero => decide +kernel
    | succ pipe =>
        rw [unused]
        exact List.forall_mem_nil _

theorem clone_inherits_writer : TakenForChild 0x4007f ∧
    ∃ s', writer.cloneStops 0 7 [0, 1, 2] 0x4007f = .ok (s', [7]) ∧
      writer.world.Inherits 0 7 s'.world :=
  ⟨by decide, (clone_inherits_iff writer 0 7 [0, 1, 2] 0x4007f (by decide) writer_held).mpr
    ⟨by decide, writer_inheritable⟩⟩

theorem clone_event_makes_no_process : ∃ s',
    writer.cloneStops 0 7 [0, 1, 2] (Stop.event .clone).status = .ok (s', []) ∧
      (writer.world.processDescriptorGetFd 0 4).isSome = true ∧
      s'.world.processDescriptorGetFd 7 4 = none := by
  refine ⟨_, rfl, ?_, ?_⟩
  · decide +kernel
  · decide +kernel

end Traced

end Simterpose
