import Simterpose.Overwrites
import Simterpose.References

/-! # Tags and the records behind them

A descriptor is a pointer to an `fd_descriptor_t`, and its tag says what the record is: one
of a socket is cast to `infos_socket`, one of a pipe has a `pipe`. Here all calls that make
or close descriptors run together, in any order and with any arguments and results, and
the question is when the tags keep telling the truth.
-/

namespace Simterpose

open Lib

/-- A call that makes, changes or closes descriptors. Of `clone` it is the part for a child. -/
inductive TableCall where
  | call (op : Op)
  | openFile (proc : Pid) (flags mode : Nat) (ret : Int)
  | creat (proc : Pid) (mode : Nat) (ret : Int)
  | pipe (proc : Pid) (filedes : Int × Int) (ret : Int)
  | fcntl (proc : Pid) (fd : Int) (cmd : FcntlCmd) (ret : Int)
  | clone (parent pid : Pid) (own : List Int)
  deriving Repr, DecidableEq

namespace Links

/-- Closing the descriptor leaves a socket to be freed: its own if that is not of the network
    or listens, and both ends of a connection whose other end is closed already. -/
def GivesUp (l : Links) (proc : Pid) (fd : Int) (s : SockId) : Prop :=
  ∃ is, l.opened proc fd = some is ∧
    (¬ l.network is ∧ s = is ∨
      l.network is ∧ ∃ k, l.comm is = some k ∧
        (l.state k = .listening ∧ l.info0 k = some s ∨
          l.state k = .closed ∧ (l.info0 k = some s ∨ l.info1 k = some s)))

/-- In live tables a socket that is given up has no descriptor but the one that is closed. -/
theorem Live.opened_of_givesUp {l : Links} (live : l.Live) {proc q : Pid} {fd g : Int} {s : SockId}
    (givenUp : l.GivesUp proc fd s) (there : l.opened q g = some s) : q = proc ∧ g = fd := by
  obtain ⟨is, here, ⟨-, rfl⟩ | ⟨network, k, attached, ⟨listening, first⟩ | ⟨closed, slot⟩⟩⟩ := givenUp
  · exact live.single here there
  · obtain rfl := (live.listeningOwner attached listening first).mpr attached
    exact live.single here there
  · -- the two ends are the socket that is closed and one that was closed before
    obtain ⟨z, -, zComm, unopened⟩ := live.closedHalf (live.attached here network attached) closed
    have apart : z ≠ is := fun same => unopened proc fd (same ▸ here)
    have ends : s = z ∨ s = is := by
      rcases live.sound.slot zComm with zSlot | ⟨zSlot, -⟩ <;>
        rcases live.sound.slot attached with isSlot | ⟨isSlot, -⟩ <;>
        simp only [zSlot, isSlot, Option.some.injEq] at slot
      · exact absurd (Option.some.inj (zSlot.symm.trans isSlot)) apart
      · exact slot.imp Eq.symm Eq.symm
      · exact slot.symm.imp Eq.symm Eq.symm
      · exact absurd (Option.some.inj (zSlot.symm.trans isSlot)) apart
    rcases ends with rfl | rfl
    · exact absurd there (unopened q g)
    · exact live.single here there

end Links

namespace World

section

variable {H : Type} {w w' w'' : World H}

/-! ## Tags that tell the truth -/

/-- A record with the tag of a socket is one of the `infos_socket` that
    `confirm_register_socket` made and that are in use, and one with the tag of a pipe has a
    pipe in use. -/
def RightTag (w : World H) (ref : DescRef) : Prop :=
  ((w.tag ref).1 = .socket →
      ∃ is, ref = .socket is ∧ is < w.sockets.next ∧ w.sockets.freed is = false) ∧
    ((w.tag ref).1 = .pipe → ∃ pipe, (w.tag ref).2 = some pipe ∧ w.pipes.freed pipe = false)

/-- The tag of each descriptor in the table of any process is right. -/
def Tagged (w : World H) : Prop :=
  ∀ proc fd ref, w.processDescriptorGetFd proc fd = some ref → w.RightTag ref

/-- What `get_infos_socket` casts to an `infos_socket` is one, in use or not. -/
def Castable (w : World H) : Prop :=
  ∀ proc fd ref, w.processDescriptorGetFd proc fd = some ref → (w.tag ref).1 = .socket →
    ∃ is, ref = .socket is

/-- The record exists and so does its pipe. -/
def Grounded (w : World H) (ref : DescRef) : Prop :=
  w.Holds ref ∧ ∀ pipe, (w.tag ref).2 = some pipe → pipe < w.pipes.next

/-- The tables refer to nothing that is not there. -/
def Allocated (w : World H) : Prop :=
  ∀ proc fd ref, w.processDescriptorGetFd proc fd = some ref → w.Grounded ref

/-- The pipe of a descriptor has an end for it. -/
def HasEnd (w : World H) (proc : Pid) (fd : Int) (ref : DescRef) : Prop :=
  ∀ pipe, w.tag ref = (.pipe, some pipe) →
    { fd := fd, proc := proc } ∈ (w.pipes.cell pipe).readEnd ∨
      { fd := fd, proc := proc } ∈ (w.pipes.cell pipe).writeEnd

def Listed (w : World H) : Prop :=
  ∀ proc fd ref, w.processDescriptorGetFd proc fd = some ref → w.HasEnd proc fd ref

/-- Records and pipes stay and keep their tags, pipes keep their ends. -/
structure Evolves (w w' : World H) : Prop where
  holds : ∀ ref, w.Holds ref → w'.Holds ref
  tag : ∀ ref, w.Holds ref → w'.tag ref = w.tag ref
  made : w.pipes.next ≤ w'.pipes.next
  freed : ∀ pipe < w.pipes.next, w'.pipes.freed pipe = w.pipes.freed pipe
  live : ∀ is < w.sockets.next, w'.sockets.freed is = w.sockets.freed is
  reads : ∀ pipe < w.pipes.next, ∀ e ∈ (w.pipes.cell pipe).readEnd, e ∈ (w'.pipes.cell pipe).readEnd
  writes : ∀ pipe < w.pipes.next,
    ∀ e ∈ (w.pipes.cell pipe).writeEnd, e ∈ (w'.pipes.cell pipe).writeEnd

namespace Evolves

theorem trans (first : w.Evolves w') (second : w'.Evolves w'') : w.Evolves w'' where
  holds ref held := second.holds ref (first.holds ref held)
  tag ref held := (second.tag ref (first.holds ref held)).trans (first.tag ref held)
  made := Nat.le_trans first.made second.made
  freed pipe old :=
    (second.freed pipe (Nat.lt_of_lt_of_le old first.made)).trans (first.freed pipe old)
  live is old := (second.live is (first.holds (.socket is) old)).trans (first.live is old)
  reads pipe old e listed :=
    second.reads pipe (Nat.lt_of_lt_of_le old first.made) e (first.reads pipe old e listed)
  writes pipe old e listed :=
    second.writes pipe (Nat.lt_of_lt_of_le old first.made) e (first.writes pipe old e listed)

theorem grounded (evolves : w.Evolves w') {ref : DescRef} (grounded : w.Grounded ref) :
    w'.Grounded ref := by
  refine ⟨evolves.holds ref grounded.1, fun pipe piped => ?_⟩
  rw [evolves.tag ref grounded.1] at piped
  exact Nat.lt_of_lt_of_le (grounded.2 pipe piped) evolves.made

theorem rightTag (evolves : w.Evolves w') {ref : DescRef} (grounded : w.Grounded ref)
    (right : w.RightTag ref) : w'.RightTag ref := by
  unfold RightTag
  rw [evolves.tag ref grounded.1]
  constructor
  · intro typed
    obtain ⟨is, rfl, made, live⟩ := right.1 typed
    exact ⟨is, rfl, evolves.holds _ grounded.1, (evolves.live is made).trans live⟩
  · intro typed
    obtain ⟨pipe, piped, live⟩ := right.2 typed
    exact ⟨pipe, piped, (evolves.freed pipe (grounded.2 pipe piped)).trans live⟩

theorem hasEnd (evolves : w.Evolves w') {proc : Pid} {fd : Int} {ref : DescRef}
    (grounded : w.Grounded ref) (ends : w.HasEnd proc fd ref) : w'.HasEnd proc fd ref := by
  intro pipe piped
  rw [evolves.tag ref grounded.1] at piped
  have old := grounded.2 pipe (congrArg Prod.snd piped)
  rcases ends pipe piped with read | write
  · exact .inl (evolves.reads pipe old _ read)
  · exact .inr (evolves.writes pipe old _ write)

end Evolves

/-- After the step the tables have what they had, and what is entered as `New` says. -/
structure Enters (w w' : World H) (New : Pid → Int → DescRef → Prop) : Prop where
  evolves : w.Evolves w'
  new : ∀ proc fd ref, w'.processDescriptorGetFd proc fd = some ref →
    w.processDescriptorGetFd proc fd = some ref ∨ New proc fd ref

namespace Enters

variable {New New' : Pid → Int → DescRef → Prop}

theorem mono (enters : w.Enters w' New) (weaker : ∀ proc fd ref, New proc fd ref → New' proc fd ref) :
    w.Enters w' New' :=
  ⟨enters.evolves, fun proc fd ref found => (enters.new proc fd ref found).imp_right (weaker proc fd ref)⟩

theorem allocated (enters : w.Enters w' New) (allocated : w.Allocated)
    (grounded : ∀ proc fd ref, New proc fd ref → w'.Grounded ref) : w'.Allocated := by
  intro proc fd ref found
  rcases enters.new proc fd ref found with old | new
  · exact enters.evolves.grounded (allocated proc fd ref old)
  · exact grounded proc fd ref new

theorem tagged (enters : w.Enters w' New) (allocated : w.Allocated) (tagged : w.Tagged)
    (right : ∀ proc fd ref, New proc fd ref → w'.RightTag ref) : w'.Tagged := by
  intro proc fd ref found
  rcases enters.new proc fd ref found with old | new
  · exact enters.evolves.rightTag (allocated proc fd ref old) (tagged proc fd ref old)
  · exact right proc fd ref new

theorem castable (enters : w.Enters w' New) (allocated : w.Allocated) (castable : w.Castable)
    (right : ∀ proc fd ref, New proc fd ref → (w'.tag ref).1 = .socket → ∃ is, ref = .socket is) :
    w'.Castable := by
  intro proc fd ref found typed
  rcases enters.new proc fd ref found with old | new
  · rw [enters.evolves.tag ref (allocated proc fd ref old).1] at typed
    exact castable proc fd ref old typed
  · exact right proc fd ref new typed

theorem listed (enters : w.Enters w' New) (allocated : w.Allocated) (listed : w.Listed)
    (ends : ∀ proc fd ref, New proc fd ref → w'.HasEnd proc fd ref) : w'.Listed := by
  intro proc fd ref found
  rcases enters.new proc fd ref found with old | new
  · exact enters.evolves.hasEnd (allocated proc fd ref old) (listed proc fd ref old)
  · exact ends proc fd ref new

end Enters

/-! ## Calls that make descriptors of no pipe -/

/-- Nothing that a tag speaks of is changed. -/
structure SameTags (w w' : World H) : Prop where
  procs : w'.procs = w.procs
  tag : w'.tag = w.tag
  stored : w'.descs.next = w.descs.next
  made : w'.sockets.next = w.sockets.next
  live : w'.sockets.freed = w.sockets.freed
  pipes : w'.pipes = w.pipes

theorem SameFiles.sameTags (same : w.SameFiles w') (live : w'.sockets.freed = w.sockets.freed) :
    w.SameTags w' :=
  ⟨same.procs, same.tag, congrArg (·.next) same.descs, same.made, live, same.pipes⟩

namespace SameTags

theorem refl (w : World H) : w.SameTags w := ⟨rfl, rfl, rfl, rfl, rfl, rfl⟩

theorem trans (first : w.SameTags w') (second : w'.SameTags w'') : w.SameTags w'' :=
  ⟨second.procs.trans first.procs, second.tag.trans first.tag, second.stored.trans first.stored,
    second.made.trans first.made, second.live.trans first.live, second.pipes.trans first.pipes⟩

theorem holds_iff (same : w.SameTags w') (ref : DescRef) : w'.Holds ref ↔ w.Holds ref := by
  cases ref with
  | plain d => simp only [Holds, same.stored]
  | socket is => simp only [Holds, same.made]

theorem getFd (same : w.SameTags w') (proc : Pid) (fd : Int) :
    w'.processDescriptorGetFd proc fd = w.processDescriptorGetFd proc fd := by
  simp only [processDescriptorGetFd, same.procs]

theorem evolves (same : w.SameTags w') : w.Evolves w' where
  holds ref held := (same.holds_iff ref).mpr held
  tag ref _ := congrFun same.tag ref
  made := Nat.le_of_eq (congrArg (·.next) same.pipes.symm)
  freed _ _ := by rw [same.pipes]
  live is _ := congrFun same.live is
  reads pipe _ e listed := by rwa [same.pipes]
  writes pipe _ e listed := by rwa [same.pipes]

end SameTags

theorem sameTags_addRefcount (w : World H) (ref : DescRef) (n : Int) :
    w.SameTags (w.addRefcount ref n) := by
  refine ⟨?_, tag_addRefcount ref n, ?_, ?_, ?_, ?_⟩ <;> cases ref <;> rfl

theorem sameTags_modifyDesc (w : World H) {f : FdDescriptor → FdDescriptor}
    (kept : KeepsOrigin f) (ref : DescRef) : w.SameTags (w.modifyDesc ref f) := by
  cases ref with
  | plain d =>
      refine ⟨rfl, funext fun ref => ?_, rfl, rfl, rfl, rfl⟩
      cases ref with
      | plain d' =>
          simp only [tag, fileDesc, modifyDesc, Heap.cell_modify]
          split
          · exact congrArg _ (kept _).1
          · rfl
      | socket => rfl
  | socket is =>
      refine ⟨rfl, funext fun ref => ?_, rfl, rfl, rfl, rfl⟩
      cases ref with
      | plain => rfl
      | socket is' =>
          simp only [tag, fileDesc, modifyDesc, modifySocket, World.socket, Heap.cell_modify]
          split
          · exact congrArg _ (kept _).1
          · rfl

/-- A new record whose tag claims neither a socket nor a pipe that is not there. -/
def Harmless (w : World H) (ref : DescRef) : Prop :=
  w.Grounded ref ∧ w.RightTag ref ∧ (w.tag ref).1 ≠ .pipe

theorem Harmless.hasEnd {ref : DescRef} (harmless : w.Harmless ref) (proc : Pid) (fd : Int) :
    w.HasEnd proc fd ref :=
  fun _ piped => absurd (congrArg Prod.fst piped) harmless.2.2

theorem harmless_socket {is : SockId} (made : is < w.sockets.next) (live : w.sockets.freed is = false)
    (noPipe : (w.tag (.socket is)).2 = none) : w.Harmless (.socket is) := by
  have typed := w.tag_socket is
  refine ⟨⟨made, fun pipe piped => ?_⟩, ⟨fun _ => ⟨is, rfl, made, live⟩, ?_⟩, ?_⟩
  · rw [noPipe] at piped
    cases piped
  · simp [typed]
  · simp [typed]

theorem harmless_plain {d : DescId} {type : FdType} (made : d < w.descs.next)
    (tagged : w.tag (.plain d) = (type, none)) (noSocket : type ≠ .socket) (noPipe : type ≠ .pipe) :
    w.Harmless (.plain d) := by
  refine ⟨⟨made, fun pipe piped => ?_⟩, ⟨?_, ?_⟩, ?_⟩
  · rw [tagged] at piped
    cases piped
  · simp [tagged, noSocket]
  · simp [tagged, noPipe]
  · simpa [tagged] using noPipe

/-- All that is new in the tables is harmless. -/
abbrev Innocent (w w' : World H) : Prop := w.Enters w' fun _ _ ref => w'.Harmless ref

theorem SameTags.innocent (same : w.SameTags w') : w.Innocent w' :=
  ⟨same.evolves, fun proc fd ref found => .inl (by rwa [same.getFd] at found)⟩

/-- The step keeps what tags and ends there are in order. -/
structure Preserves (w w' : World H) : Prop where
  allocated : w.Allocated → w'.Allocated
  tagged : w.Allocated → w.Tagged → w'.Tagged
  castable : w.Allocated → w.Castable → w'.Castable
  listed : w.Allocated → w.Listed → w'.Listed

theorem Preserves.trans (first : w.Preserves w') (second : w'.Preserves w'') : w.Preserves w'' where
  allocated allocated := second.allocated (first.allocated allocated)
  tagged allocated tagged := second.tagged (first.allocated allocated) (first.tagged allocated tagged)
  castable allocated castable :=
    second.castable (first.allocated allocated) (first.castable allocated castable)
  listed allocated listed := second.listed (first.allocated allocated) (first.listed allocated listed)

theorem Innocent.preserves (innocent : w.Innocent w') : w.Preserves w' where
  allocated allocated := innocent.allocated allocated fun _ _ _ => And.left
  tagged allocated tagged := innocent.tagged allocated tagged fun _ _ _ harmless => harmless.2.1
  castable allocated castable := innocent.castable allocated castable fun _ _ _ harmless typed =>
    (harmless.2.1.1 typed).imp fun _ made => made.1
  listed allocated listed := innocent.listed allocated listed fun proc fd _ harmless =>
    harmless.hasEnd proc fd

theorem Adds.evolves {proc : Pid} (adds : w.Adds proc w') (pipes : w'.pipes = w.pipes) :
    w.Evolves w' where
  holds ref held := adds.holds held
  tag ref held := adds.tag held
  made := Nat.le_of_eq (congrArg (·.next) pipes.symm)
  freed _ _ := by rw [pipes]
  live _ _ := by rw [adds.sockets]
  reads pipe _ e listed := by rwa [pipes]
  writes pipe _ e listed := by rwa [pipes]

theorem tag_enterDesc (w : World H) (proc : Pid) (fd : Int) (desc : FdDescriptor) :
    (w.enterDesc proc fd desc).tag (.plain w.descs.next) = (desc.type, desc.pipe) := by
  simp [tag, World.fileDesc, enterDesc]

theorem enters_enterDesc (w : World H) (proc : Pid) (fd : Int) (desc : FdDescriptor) :
    w.Enters (w.enterDesc proc fd desc) fun q g ref => q = proc ∧ g = fd ∧ ref = .plain w.descs.next where
  evolves := (w.adds_enterDesc proc fd desc).evolves rfl
  new q g ref found := by
    rw [getFd_enterDesc] at found
    split at found
    · rename_i same
      cases found
      exact .inr ⟨same.1, same.2, rfl⟩
    · exact .inl found

theorem innocent_enterDesc (w : World H) (proc : Pid) (fd : Int) {desc : FdDescriptor}
    (classic : desc.type = .classic) (noPipe : desc.pipe = none) :
    w.Innocent (w.enterDesc proc fd desc) := by
  apply (w.enters_enterDesc proc fd desc).mono
  rintro _ _ _ ⟨-, -, rfl⟩
  have tagged : (w.enterDesc proc fd desc).tag (.plain w.descs.next) = (.classic, none) := by
    rw [tag_enterDesc, classic, noPipe]
  exact harmless_plain (Nat.lt_succ_self _) tagged (by simp) (by simp)

/-- `open` and `creat` -/
theorem innocent_opened (w : World H) (proc : Pid) (ret : Int) {desc : FdDescriptor}
    (classic : desc.type = .classic) (noPipe : desc.pipe = none) :
    w.Innocent (if ret ≥ 0 then w.enterDesc proc ret desc else w) := by
  split
  · exact w.innocent_enterDesc proc ret classic noPipe
  · exact (SameTags.refl w).innocent

theorem innocent_syscallOpen (w : World H) (proc : Pid) (flags mode : Nat) (ret : Int) :
    w.Innocent (w.syscallOpen proc flags mode ret) :=
  w.innocent_opened proc ret rfl rfl

theorem innocent_syscallCreatPost (w : World H) (proc : Pid) (mode : Nat) (ret : Int) :
    w.Innocent (w.syscallCreatPost proc mode ret) :=
  w.innocent_opened proc ret rfl rfl

theorem innocent_confirmRegisterSocket (w : World H) (proc : Pid) (fd domain type protocol : Int) :
    w.Innocent (w.confirmRegisterSocket proc fd domain type protocol) := by
  have old : ∀ ref, w.Holds ref →
      (w.confirmRegisterSocket proc fd domain type protocol).fileDesc ref = w.fileDesc ref := by
    intro ref held
    cases ref with
    | plain => rfl
    | socket is =>
        simp only [fileDesc, World.socket, confirmRegisterSocket, Heap.cell_alloc]
        rw [if_neg (Nat.ne_of_lt held)]
  constructor
  · refine ⟨fun ref held => ?_, fun ref held => ?_, Nat.le_refl _, fun _ _ => rfl, fun is old => ?_,
      fun _ _ _ listed => listed, fun _ _ _ listed => listed⟩
    · cases ref with
      | plain => exact held
      | socket => exact Nat.lt_succ_of_lt held
    · rw [tag, old ref held, tag]
    · rw [freed_confirmRegisterSocket, if_neg (Nat.ne_of_lt old)]
  · intro q g ref found
    have table : (w.confirmRegisterSocket proc fd domain type protocol).processDescriptorGetFd q g =
        if q = proc ∧ g = fd then some (.socket w.sockets.next) else w.processDescriptorGetFd q g :=
      w.getFd_setFd proc q fd g _
    rw [table] at found
    split at found
    · cases found
      right
      apply harmless_socket (Nat.lt_succ_self _) (by rw [freed_confirmRegisterSocket, if_pos rfl])
      simp [tag, fileDesc, World.socket, confirmRegisterSocket, newSocket]
    · exact .inl found

theorem Innocent.trans_sameTags (first : w.Innocent w') (second : w'.SameTags w'') :
    w.Innocent w'' := by
  refine ⟨first.evolves.trans second.evolves, fun proc fd ref found => ?_⟩
  rw [second.getFd] at found
  rcases first.new proc fd ref found with old | ⟨grounded, right, noPipe⟩
  · exact .inl old
  · exact .inr ⟨second.evolves.grounded grounded, second.evolves.rightTag grounded right,
      by rwa [second.tag]⟩

/-! ## Records with the tag of another one -/

section

variable {desc : FdDescriptor}

theorem allocated_enterDesc (allocated : w.Allocated) (proc : Pid) (fd : Int)
    (made : ∀ pipe, desc.pipe = some pipe → pipe < w.pipes.next) :
    (w.enterDesc proc fd desc).Allocated := by
  apply (w.enters_enterDesc proc fd desc).allocated allocated
  rintro _ _ _ ⟨-, -, rfl⟩
  refine ⟨Nat.lt_succ_self _, fun pipe piped => made pipe ?_⟩
  rwa [tag_enterDesc] at piped

theorem tagged_enterDesc (allocated : w.Allocated) (tagged : w.Tagged) (proc : Pid) (fd : Int)
    (noSocket : desc.type ≠ .socket)
    (hasPipe : desc.type = .pipe → ∃ pipe, desc.pipe = some pipe ∧ w.pipes.freed pipe = false) :
    (w.enterDesc proc fd desc).Tagged := by
  apply (w.enters_enterDesc proc fd desc).tagged allocated tagged
  rintro _ _ _ ⟨-, -, rfl⟩
  unfold RightTag
  rw [tag_enterDesc]
  exact ⟨fun typed => absurd typed noSocket, hasPipe⟩

theorem castable_enterDesc (allocated : w.Allocated) (castable : w.Castable) (proc : Pid) (fd : Int)
    (noSocket : desc.type ≠ .socket) : (w.enterDesc proc fd desc).Castable := by
  apply (w.enters_enterDesc proc fd desc).castable allocated castable
  rintro _ _ _ ⟨-, -, rfl⟩
  rw [tag_enterDesc]
  exact fun typed => absurd typed noSocket

theorem listed_enterDesc (allocated : w.Allocated) (listed : w.Listed) (proc : Pid) (fd : Int)
    (ends : ∀ pipe, desc.type = .pipe → desc.pipe = some pipe →
      { fd := fd, proc := proc } ∈ (w.pipes.cell pipe).readEnd ∨
        { fd := fd, proc := proc } ∈ (w.pipes.cell pipe).writeEnd) :
    (w.enterDesc proc fd desc).Listed := by
  apply (w.enters_enterDesc proc fd desc).listed allocated listed
  rintro _ _ _ ⟨rfl, rfl, rfl⟩ pipe piped
  rw [tag_enterDesc, Prod.mk.injEq] at piped
  exact ends pipe piped.1 piped.2

end

theorem preserves_enterEnd (w : World H) (proc : Pid) (fd : Int) {desc : FdDescriptor}
    {pipe : PipeId} (typed : desc.type = .pipe) (piped : desc.pipe = some pipe)
    (made : pipe < w.pipes.next) (live : w.pipes.freed pipe = false)
    (ends : { fd := fd, proc := proc } ∈ (w.pipes.cell pipe).readEnd ∨
      { fd := fd, proc := proc } ∈ (w.pipes.cell pipe).writeEnd) :
    w.Preserves (w.enterDesc proc fd desc) where
  allocated allocated := by
    apply allocated_enterDesc allocated
    intro pipe' piped'
    rw [piped] at piped'
    cases piped'
    exact made
  tagged allocated tagged := by
    exact tagged_enterDesc allocated tagged proc fd (by simp [typed]) fun _ => ⟨pipe, piped, live⟩
  castable allocated castable := castable_enterDesc allocated castable proc fd (by simp [typed])
  listed allocated listed := by
    apply listed_enterDesc allocated listed
    intro pipe' _ piped'
    rw [piped] at piped'
    cases piped'
    exact ends

/-- A pipe that no descriptor refers to yet. -/
theorem preserves_allocPipe (w : World H) (pipe : Pipe) :
    w.Preserves { w with pipes := w.pipes.alloc pipe } := by
  have evolves : w.Evolves { w with pipes := w.pipes.alloc pipe } := by
    refine ⟨fun ref held => ?_, fun _ _ => rfl, Nat.le_succ _, fun old made => ?_, fun _ _ => rfl, ?_, ?_⟩
    · cases ref <;> exact held
    · rw [Heap.freed_alloc, if_neg (Nat.ne_of_lt made)]
    · intro old made e listed
      simpa only [Heap.cell_alloc, if_neg (Nat.ne_of_lt made)] using listed
    · intro old made e listed
      simpa only [Heap.cell_alloc, if_neg (Nat.ne_of_lt made)] using listed
  have innocent : w.Innocent _ := ⟨evolves, fun _ _ _ => .inl⟩
  exact innocent.preserves

theorem preserves_syscallPipePost (w : World H) (proc : Pid) (filedes : Int × Int) (ret : Int) :
    w.Preserves (w.syscallPipePost proc filedes ret) := by
  unfold syscallPipePost
  split
  · have new : ∀ pipe : Pipe, (w.pipes.alloc pipe).freed w.pipes.next = false := fun pipe =>
      (w.pipes.freed_alloc pipe w.pipes.next).trans (if_pos rfl)
    dsimp only
    refine (w.preserves_allocPipe _).trans (Preserves.trans
      (preserves_enterEnd _ proc filedes.1 rfl rfl (Nat.lt_succ_self _) (new _) ?_)
      (preserves_enterEnd _ proc (filedes.1 + 1) rfl rfl (Nat.lt_succ_self _) (new _) ?_))
    · simp
    · simp [enterDesc, processDescriptorSetFd]
  · exact (SameTags.refl w).innocent.preserves

theorem mem_of_copyEnds {oldfd newfd : Int} {proc : Pid} {ends ends' : List PipeEnd}
    (copied : copyEnds oldfd newfd proc (2 * ends.length + 1) 0 ends = some ends') :
    (∀ e ∈ ends, e ∈ ends') ∧
      ({ fd := oldfd, proc := proc } ∈ ends → { fd := newfd, proc := proc } ∈ ends') := by
  by_cases same : newfd = oldfd
  · subst same
    rw [copyEnds_self] at copied
    split at copied
    · cases copied
    · cases copied
      exact ⟨fun _ listed => listed, fun listed => listed⟩
  · rw [copyEnds_of_ne same] at copied
    cases copied
    constructor
    · intro e listed
      exact List.mem_append_left _ listed
    · intro listed
      apply List.mem_append_right
      exact List.mem_replicate.mpr ⟨Nat.ne_of_gt (List.count_pos_iff.mpr listed), rfl⟩

/-- What the last part of `dup` and `dup2` does. -/
structure AddsEnd (proc : Pid) (oldfd newfd : Int) (ref : DescRef) (w w' : World H) : Prop where
  procs : w'.procs = w.procs
  tag : w'.tag = w.tag
  stored : w'.descs.next = w.descs.next
  sockets : w'.sockets = w.sockets
  made : w'.pipes.next = w.pipes.next
  freed : w'.pipes.freed = w.pipes.freed
  reads : ∀ pipe, ∀ e ∈ (w.pipes.cell pipe).readEnd, e ∈ (w'.pipes.cell pipe).readEnd
  writes : ∀ pipe, ∀ e ∈ (w.pipes.cell pipe).writeEnd, e ∈ (w'.pipes.cell pipe).writeEnd
  ends : w.HasEnd proc oldfd ref → w'.HasEnd proc newfd ref

theorem addsEnd_dupPipe {proc : Pid} {oldfd newfd : Int} {ref : DescRef}
    (done : w.dupPipe proc oldfd newfd ref = .ok w') : w.AddsEnd proc oldfd newfd ref w' := by
  unfold dupPipe at done
  split at done
  · rename_i typed
    split at done
    · cases done
    · rename_i pipe piped
      have tagged : w.tag ref = (.pipe, some pipe) := by rw [tag, typed, piped]
      dsimp only at done
      split at done
      · rename_i readEnd writeEnd read write
        cases done
        have reads := mem_of_copyEnds read
        have writes := mem_of_copyEnds write
        refine ⟨rfl, rfl, rfl, rfl, rfl, rfl, fun q e listed => ?_, fun q e listed => ?_,
          fun ends q piped => ?_⟩
        · rw [Heap.cell_modify]
          split
          · rename_i same
            exact reads.1 e (same ▸ listed)
          · exact listed
        · rw [Heap.cell_modify]
          split
          · rename_i same
            exact writes.1 e (same ▸ listed)
          · exact listed
        · cases tagged.symm.trans piped
          rw [Heap.cell_modify_self]
          exact (ends _ tagged).imp reads.2 writes.2
      · cases done
  · rename_i other
    cases done
    exact ⟨rfl, rfl, rfl, rfl, rfl, rfl, fun _ _ listed => listed, fun _ _ listed => listed,
      fun _ pipe piped => absurd (congrArg Prod.fst piped) other⟩

theorem AddsEnd.holds_iff {proc : Pid} {oldfd newfd : Int} {ref : DescRef}
    (adds : w.AddsEnd proc oldfd newfd ref w') (ref' : DescRef) : w'.Holds ref' ↔ w.Holds ref' := by
  cases ref' with
  | plain d => simp only [Holds, adds.stored]
  | socket is => simp only [Holds, adds.sockets]

/-- The new descriptor is the old one once more, and an end where the old one is. -/
theorem syscallDupPost_parts {proc : Pid} {oldfd newfd : Int}
    (done : w.syscallDupPost proc oldfd newfd = .ok w') :
    ∃ ref, w.processDescriptorGetFd proc oldfd = some ref ∧
      (w.Enters w' fun q g ref' => q = proc ∧ g = newfd ∧ ref' = ref) ∧
      (w.HasEnd proc oldfd ref → w'.HasEnd proc newfd ref) := by
  have table := w.getFd_syscallDupPost done
  unfold syscallDupPost at done
  split at done
  · cases done
  · rename_i ref found
    rw [found] at table
    have adds := addsEnd_dupPipe done
    have counted := w.sameTags_addRefcount ref 1
    have pipes : ((w.addRefcount ref 1).processDescriptorSetFd proc newfd (some ref)).pipes =
        w.pipes := counted.pipes
    have evolves : w.Evolves w' := by
      refine ⟨fun ref' held => ?_, fun ref' held => ?_, ?_, fun pipe _ => ?_, fun is _ => ?_,
        fun pipe _ => ?_, fun pipe _ => ?_⟩
      · exact (adds.holds_iff ref').mpr ((counted.holds_iff ref').mpr held)
      · exact congrFun (adds.tag.trans counted.tag) ref'
      · rw [adds.made, pipes]
      · rw [adds.freed, pipes]
      · rw [adds.sockets]
        exact congrFun counted.live is
      · have kept := adds.reads pipe
        rwa [pipes] at kept
      · have kept := adds.writes pipe
        rwa [pipes] at kept
    refine ⟨ref, found, ⟨evolves, fun q g ref' there => ?_⟩, fun ends => adds.ends fun pipe piped => ?_⟩
    · rw [table] at there
      split at there
      · rename_i here
        cases there
        exact .inr ⟨here.1, here.2, rfl⟩
      · exact .inl there
    · rw [tag_setFd, counted.tag] at piped
      rw [pipes]
      exact ends pipe piped

theorem preserves_syscallDupPost {proc : Pid} {oldfd newfd : Int}
    (done : w.syscallDupPost proc oldfd newfd = .ok w') : w.Preserves w' := by
  obtain ⟨ref, found, enters, ends⟩ := syscallDupPost_parts done
  refine ⟨fun allocated => ?_, fun allocated tagged => ?_, fun allocated castable => ?_,
    fun allocated listed => ?_⟩
  · apply enters.allocated allocated
    rintro _ _ _ ⟨-, -, rfl⟩
    exact enters.evolves.grounded (allocated proc oldfd _ found)
  · apply enters.tagged allocated tagged
    rintro _ _ _ ⟨-, -, rfl⟩
    exact enters.evolves.rightTag (allocated proc oldfd _ found) (tagged _ _ _ found)
  · apply enters.castable allocated castable
    rintro _ _ _ ⟨-, -, rfl⟩
    rw [enters.evolves.tag _ (allocated proc oldfd _ found).1]
    exact castable _ _ _ found
  · apply enters.listed allocated listed
    rintro _ _ _ ⟨rfl, rfl, rfl⟩
    exact ends (listed _ _ _ found)

/-! ## Copies of a record -/

theorem innocent_fcntl
    (stored : w' = w ∨ ∃ ref f, KeepsOrigin f ∧ w' = w.modifyDesc ref f) : w.Innocent w' := by
  rcases stored with rfl | ⟨ref, f, kept, rfl⟩
  · exact (SameTags.refl _).innocent
  · exact (w.sameTags_modifyDesc kept ref).innocent

section

variable {proc : Pid} {fd ret : Int} {flags : Nat → Nat}

theorem allocated_fcntlDup (allocated : w.Allocated) (done : w.fcntlDup proc fd ret flags = .ok w') :
    w'.Allocated := by
  obtain ⟨ref, found, rfl⟩ := fcntlDup_ok done
  apply allocated_enterDesc allocated
  exact (allocated proc fd ref found).2

/-- `F_DUPFD` copies the tag into a plain record, which is wrong for a socket. -/
theorem tagged_fcntlDup (allocated : w.Allocated) (tagged : w.Tagged)
    (noSocket : ∀ ref, w.processDescriptorGetFd proc fd = some ref → (w.tag ref).1 ≠ .socket)
    (done : w.fcntlDup proc fd ret flags = .ok w') : w'.Tagged := by
  obtain ⟨ref, found, rfl⟩ := fcntlDup_ok done
  exact tagged_enterDesc allocated tagged proc ret (noSocket ref found) (tagged proc fd ref found).2

theorem castable_fcntlDup (allocated : w.Allocated) (castable : w.Castable)
    (noSocket : ∀ ref, w.processDescriptorGetFd proc fd = some ref → (w.tag ref).1 ≠ .socket)
    (done : w.fcntlDup proc fd ret flags = .ok w') : w'.Castable := by
  obtain ⟨ref, found, rfl⟩ := fcntlDup_ok done
  exact castable_enterDesc allocated castable proc ret (noSocket ref found)

theorem listed_fcntlDup (allocated : w.Allocated) (listed : w.Listed)
    (noPipe : ∀ ref, w.processDescriptorGetFd proc fd = some ref → (w.tag ref).1 ≠ .pipe)
    (done : w.fcntlDup proc fd ret flags = .ok w') : w'.Listed := by
  obtain ⟨ref, found, rfl⟩ := fcntlDup_ok done
  apply listed_enterDesc allocated listed
  intro pipe typed
  exact absurd typed (noPipe ref found)

end

section

variable {parent clone : Pid} {own : List Int}

theorem ownType_ne (fd : Int) : ownType fd ≠ .socket ∧ ownType fd ≠ .pipe := by
  unfold ownType
  split
  · simp
  · split
    · simp
    · split <;> simp

/-- A descriptor of the clone is one of the simulator's or a copy of one of the parent's. -/
theorem Clones.enters (clones : w.Clones parent clone own w') :
    w.Enters w' fun q g ref' => w'.Harmless ref' ∨
      q = clone ∧ ∃ ref d, w.processDescriptorGetFd parent g = some ref ∧ ref' = .plain d ∧
        d < w'.descs.next ∧ w'.tag (.plain d) = w.tag ref where
  evolves :=
    { holds := fun ref held => clones.holds held
      tag := fun ref held => clones.tag held
      made := Nat.le_of_eq clones.made.symm
      freed := fun _ _ => by rw [clones.freed]
      live := fun _ _ => by rw [clones.sockets]
      reads := fun pipe _ e listed => by
        rw [clones.ends]
        exact List.mem_append_left _ listed
      writes := fun pipe _ e listed => by
        rw [clones.ends]
        exact List.mem_append_left _ listed }
  new q g ref' found := by
    by_cases other : q = clone
    · subst other
      right
      cases there : w.processDescriptorGetFd parent g with
      | none =>
          obtain ⟨held, tagged, d, rfl⟩ := clones.own g ref' there found
          exact .inl (harmless_plain held tagged (ownType_ne g).1 (ownType_ne g).2)
      | some ref =>
          obtain ⟨d, entered, made, stored⟩ := clones.copied g ref there
          rw [entered] at found
          cases found
          refine .inr ⟨rfl, ref, d, rfl, rfl, made, ?_⟩
          simp only [tag, World.fileDesc] at stored ⊢
          rw [stored]
          rfl
    · rw [clones.getFd other] at found
      exact .inl found

theorem Clones.allocated (clones : w.Clones parent clone own w') (allocated : w.Allocated) :
    w'.Allocated := by
  apply clones.enters.allocated allocated
  rintro _ g _ (harmless | ⟨-, ref, d, there, rfl, made, tagged⟩)
  · exact harmless.1
  · refine ⟨made, fun pipe piped => ?_⟩
    rw [tagged] at piped
    rw [clones.made]
    exact (allocated parent g ref there).2 pipe piped

theorem Clones.tagged (clones : w.Clones parent clone own w') (allocated : w.Allocated)
    (tagged : w.Tagged)
    (noSocket : ∀ g ref, w.processDescriptorGetFd parent g = some ref → (w.tag ref).1 ≠ .socket) :
    w'.Tagged := by
  apply clones.enters.tagged allocated tagged
  rintro _ g _ (harmless | ⟨-, ref, d, there, rfl, made, copied⟩)
  · exact harmless.2.1
  · unfold RightTag
    rw [copied, clones.freed]
    exact ⟨fun typed => absurd typed (noSocket g ref there), (tagged parent g ref there).2⟩

theorem Clones.castable (clones : w.Clones parent clone own w') (allocated : w.Allocated)
    (castable : w.Castable)
    (noSocket : ∀ g ref, w.processDescriptorGetFd parent g = some ref → (w.tag ref).1 ≠ .socket) :
    w'.Castable := by
  apply clones.enters.castable allocated castable
  rintro _ g _ (harmless | ⟨-, ref, d, there, rfl, made, copied⟩) typed
  · exact (harmless.2.1.1 typed).imp fun _ made => made.1
  · rw [copied] at typed
    exact absurd typed (noSocket g ref there)

theorem pipeRefs_pos {proc : Pid} {g : Int} {ref : DescRef} {pipe : PipeId}
    (found : w.processDescriptorGetFd proc g = some ref) (piped : w.tag ref = (.pipe, some pipe)) :
    0 < w.pipeRefs proc pipe := by
  have listed : ⟨g, ref⟩ ∈ (w.procs proc).fdMap.entries := mem_entries_iff.mpr found
  exact List.countP_pos_iff.mpr ⟨⟨g, ref⟩, listed, by simpa using piped⟩

theorem mem_passedEnds {fd : Int} {passes : Nat} {ends : List PipeEnd} (some_ : 0 < passes)
    (listed : { fd := fd, proc := parent } ∈ ends) :
    { fd := fd, proc := clone } ∈ passedEnds clone passes ends := by
  by_cases same : parent = clone
  · subst same
    exact List.mem_append_left _ listed
  · apply List.mem_append_right
    refine List.mem_flatten.mpr ⟨_, List.mem_replicate.mpr ⟨Nat.ne_of_gt some_, rfl⟩, ?_⟩
    exact List.mem_map.mpr ⟨_, List.mem_filter.mpr ⟨listed, by simpa using same⟩, rfl⟩

theorem Clones.listed (clones : w.Clones parent clone own w') (allocated : w.Allocated)
    (listed : w.Listed) : w'.Listed := by
  apply clones.enters.listed allocated listed
  rintro q g _ (harmless | ⟨rfl, ref, d, there, rfl, made, copied⟩) pipe piped
  · exact harmless.hasEnd q g pipe piped
  · rw [copied] at piped
    have some_ := pipeRefs_pos there piped
    rw [clones.ends]
    exact (listed parent g ref there pipe piped).imp (mem_passedEnds some_) (mem_passedEnds some_)

end

/-! ## Closing -/

/-- The descriptor has the last ends of the pipe, so that closing it frees the pipe. -/
def ClosesLastEnd (w : World H) (proc : Pid) (fd : Int) (pipe : PipeId) : Prop :=
  ∃ ref, w.processDescriptorGetFd proc fd = some ref ∧ w.tag ref = (.pipe, some pipe) ∧
    (∀ e ∈ (w.pipes.cell pipe).readEnd, e = { fd := fd, proc := proc }) ∧
    ∀ e ∈ (w.pipes.cell pipe).writeEnd, e = { fd := fd, proc := proc }

/-- Closing the descriptor frees no pipe that one of the descriptors which stay refers to. The
    closed one stays if it is entered `again`. -/
def SparesPipes (w : World H) (proc : Pid) (fd : Int) (again : Prop) : Prop :=
  ∀ q g ref pipe, (q = proc → g = fd → again) → w.processDescriptorGetFd q g = some ref →
    w.tag ref = (.pipe, some pipe) → ¬ w.ClosesLastEnd proc fd pipe

theorem freed_closedPipes (w : World H) (proc : Pid) (fd : Int) (pipe : PipeId) :
    (w.closedPipes proc fd).freed pipe = true ↔
      w.pipes.freed pipe = true ∨ w.ClosesLastEnd proc fd pipe := by
  unfold closedPipes
  split
  · rename_i p tagged
    obtain ⟨ref, found, piped⟩ := Option.map_eq_some_iff.mp tagged
    rw [freed_closePipe]
    constructor
    · rintro (old | ⟨rfl, ends⟩)
      · exact .inl old
      · exact .inr ⟨ref, found, piped, ends⟩
    · rintro (old | ⟨ref', found', piped', ends⟩)
      · exact .inl old
      · rw [found] at found'
        cases found'
        cases piped.symm.trans piped'
        exact .inr ⟨rfl, ends⟩
  · rename_i other
    constructor
    · exact .inl
    · rintro (old | ⟨ref, found, piped, -⟩)
      · exact old
      · exact absurd (by rw [found, Option.map_some, piped]) (other pipe)

theorem next_closedPipes (w : World H) (proc : Pid) (fd : Int) :
    (w.closedPipes proc fd).next = w.pipes.next := by
  unfold closedPipes closePipe
  split
  · dsimp only
    split <;> rfl
  · rfl

/-- Closing takes the ends of the descriptor out and no others. -/
theorem mem_closedPipes {proc : Pid} {fd : Int} {e : PipeEnd} (other : e ≠ { fd := fd, proc := proc })
    (pipe : PipeId) :
    (e ∈ (w.pipes.cell pipe).readEnd → e ∈ ((w.closedPipes proc fd).cell pipe).readEnd) ∧
      (e ∈ (w.pipes.cell pipe).writeEnd → e ∈ ((w.closedPipes proc fd).cell pipe).writeEnd) := by
  unfold closedPipes
  split
  · rw [cell_closePipe]
    split
    · rename_i same
      subst same
      constructor
      · exact fun listed => List.mem_filter.mpr ⟨listed, by simpa using other⟩
      · exact fun listed => List.mem_filter.mpr ⟨listed, by simpa using other⟩
    · exact ⟨id, id⟩
  · exact ⟨id, id⟩

/-- Closing the descriptor gives up no socket that one of the descriptors which stay refers to. -/
def SparesSockets (w : World H) (proc : Pid) (fd : Int) (again : Prop) : Prop :=
  ∀ q g s, (q = proc → g = fd → again) → w.links.opened q g = some s → ¬ w.links.GivesUp proc fd s

/-- No record is made or gets another tag, and the tables refer to no other ones. -/
structure Shrinks (w w' : World H) : Prop where
  tag : w'.tag = w.tag
  stored : w'.descs.next = w.descs.next
  sockets : w'.sockets.next = w.sockets.next
  made : w'.pipes.next = w.pipes.next
  left : ∀ q g ref, w'.processDescriptorGetFd q g = some ref →
    ∃ q' g', w.processDescriptorGetFd q' g' = some ref

namespace Shrinks

theorem refl (w : World H) : w.Shrinks w := ⟨rfl, rfl, rfl, rfl, fun q g _ found => ⟨q, g, found⟩⟩

theorem trans (first : w.Shrinks w') (second : w'.Shrinks w'') : w.Shrinks w'' where
  tag := second.tag.trans first.tag
  stored := second.stored.trans first.stored
  sockets := second.sockets.trans first.sockets
  made := second.made.trans first.made
  left q g ref found := by
    obtain ⟨q', g', found⟩ := second.left q g ref found
    exact first.left q' g' ref found

theorem allocated (shrinks : w.Shrinks w') (allocated : w.Allocated) : w'.Allocated := by
  intro q g ref found
  obtain ⟨q', g', old⟩ := shrinks.left q g ref found
  obtain ⟨held, made⟩ := allocated q' g' ref old
  refine ⟨?_, fun pipe piped => ?_⟩
  · cases ref with
    | plain d => simpa only [Holds, shrinks.stored] using held
    | socket is => simpa only [Holds, shrinks.sockets] using held
  · rw [shrinks.tag] at piped
    rw [shrinks.made]
    exact made pipe piped

theorem castable (shrinks : w.Shrinks w') (castable : w.Castable) : w'.Castable := by
  intro q g ref found typed
  obtain ⟨q', g', old⟩ := shrinks.left q g ref found
  rw [shrinks.tag] at typed
  exact castable q' g' ref old typed

end Shrinks

/-- What `close` does, and `dup2` with the descriptor it finds at its target. -/
structure Closing (proc : Pid) (fd : Int) (again : Prop) (w w' : World H) : Prop where
  tag : w'.tag = w.tag
  stored : w'.descs.next = w.descs.next
  sockets : w'.sockets.next = w.sockets.next
  made : w'.pipes.next = w.pipes.next
  freed : ∀ pipe, w'.pipes.freed pipe = true → w.pipes.freed pipe = true ∨ w.ClosesLastEnd proc fd pipe
  live : ∀ s, w'.sockets.freed s = true → w.sockets.freed s = true ∨ w.links.GivesUp proc fd s
  left : ∀ q g ref, w'.processDescriptorGetFd q g = some ref →
    ∃ q' g', (q' = proc → g' = fd → again) ∧ w.processDescriptorGetFd q' g' = some ref

section

variable {proc : Pid} {fd : Int} {again : Prop}

theorem Closing.shrinks (closing : w.Closing proc fd again w') : w.Shrinks w' where
  tag := closing.tag
  stored := closing.stored
  sockets := closing.sockets
  made := closing.made
  left q g ref found := by
    obtain ⟨q', g', -, old⟩ := closing.left q g ref found
    exact ⟨q', g', old⟩

/-- What a descriptor still refers to must not be freed. -/
theorem Closing.tagged (closing : w.Closing proc fd again w') (tagged : w.Tagged)
    (pipes : w.SparesPipes proc fd again) (sockets : w.SparesSockets proc fd again) : w'.Tagged := by
  intro q g ref found
  obtain ⟨q', g', stays, old⟩ := closing.left q g ref found
  obtain ⟨isSocket, hasPipe⟩ := tagged q' g' ref old
  unfold RightTag
  rw [closing.tag, closing.sockets]
  constructor
  · intro typed
    obtain ⟨is, rfl, made, live⟩ := isSocket typed
    refine ⟨is, rfl, made, ?_⟩
    by_contra freed
    rcases closing.live is (by simpa using freed) with before | givenUp
    · rw [live] at before
      cases before
    · exact sockets q' g' is stays (opened_of_found old) givenUp
  · intro typed
    obtain ⟨pipe, piped, live⟩ := hasPipe typed
    have tagged : w.tag ref = (.pipe, some pipe) := by rw [← typed, ← piped]
    refine ⟨pipe, piped, ?_⟩
    by_contra freed
    rcases closing.freed pipe (by simpa using freed) with before | last
    · rw [live] at before
      cases before
    · exact pipes q' g' ref pipe stays old tagged last

/-- With its end listed, every other descriptor keeps the pipe from being freed. -/
theorem Listed.sparesPipes (listed : w.Listed)
    (noPipe : again → ∀ ref, w.processDescriptorGetFd proc fd = some ref → (w.tag ref).1 ≠ .pipe) :
    w.SparesPipes proc fd again := by
  rintro q g ref pipe stays found piped ⟨ref', found', piped', reads, writes⟩
  have here : ({ fd := g, proc := q } : PipeEnd) = { fd := fd, proc := proc } :=
    (listed q g ref found pipe piped).elim (reads _) (writes _)
  cases here
  exact noPipe (stays rfl rfl) ref' found' (by rw [piped'])

/-- In live tables a socket that is given up has no other descriptor. -/
theorem sparesSockets_of_live (live : w.links.Live)
    (noSocket : again → ∀ is, w.links.opened proc fd ≠ some is) : w.SparesSockets proc fd again := by
  intro q g s stays there givenUp
  obtain ⟨rfl, rfl⟩ := live.opened_of_givesUp givenUp there
  exact noSocket (stays rfl rfl) s there

end

/-- The descriptor, if there is one, has another tag. -/
def NoTag (w : World H) (type : FdType) (proc : Pid) (fd : Int) : Prop :=
  ∀ ref ∈ w.processDescriptorGetFd proc fd, (w.tag ref).1 ≠ type

instance (w : World H) (type : FdType) (proc : Pid) (fd : Int) : Decidable (w.NoTag type proc fd) :=
  inferInstanceAs (Decidable (∀ _ ∈ _, _))

theorem opened_of_noTag {proc : Pid} {fd : Int} (noTag : w.NoTag .socket proc fd) :
    w.links.opened proc fd = none := by
  cases here : w.links.opened proc fd with
  | none => rfl
  | some is =>
      rw [← getInfosSocket_eq_opened, getInfosSocket_eq_some] at here
      exact absurd (w.tag_socket is) (noTag _ here)

/-- No descriptor of the process has the tag of a socket. -/
def NoSocketTag (w : World H) (proc : Pid) : Prop :=
  ∀ entry ∈ (w.procs proc).fdMap.entries, (w.tag entry.2).1 ≠ .socket

instance (w : World H) (proc : Pid) : Decidable (w.NoSocketTag proc) :=
  inferInstanceAs (Decidable (∀ _ ∈ _, _))

theorem noSocketTag_iff {proc : Pid} : w.NoSocketTag proc ↔
    ∀ g ref, w.processDescriptorGetFd proc g = some ref → (w.tag ref).1 ≠ .socket := by
  constructor
  · intro none_ g ref found
    have listed : ⟨g, ref⟩ ∈ (w.procs proc).fdMap.entries := mem_entries_iff.mpr found
    exact none_ _ listed
  · intro none_ entry listed
    exact none_ entry.1 entry.2 (mem_entries_iff.mp listed)

theorem allocated_old (allocated : w.Allocated) {proc : Pid} {fd : Int} {is : SockId}
    (found : w.getInfosSocket proc fd = some is) : is ≠ w.sockets.next :=
  Nat.ne_of_lt (allocated proc fd _ ((w.getInfosSocket_eq_some).mp found)).1

theorem holdsAll_of_allocated (allocated : w.Allocated) (proc : Pid) : w.HoldsAll proc :=
  fun g ref found => (allocated proc g ref found).1

end

section

variable {H : Type} [DecidableEq H] {w w' : World H}

theorem innocent_acceptFrom (w : World H) (proc : Pid) (newfd : Int) (listener : SockId)
    (k conn : CommId) (rest : List CommId) (ip : UInt32) :
    w.Innocent (w.acceptFrom proc newfd listener k conn rest ip) := by
  have streamed : ∀ (v : World H) (is : SockId) (stream : Option StreamId), v.SameTags
      (v.modifySocket is fun n => { n with fd := { n.fd with stream := stream } }) := by
    intro v is stream
    refine ⟨rfl, funext fun ref => ?_, rfl, rfl, rfl, rfl⟩
    cases ref with
    | plain => rfl
    | socket is' =>
        simp only [tag, fileDesc, modifySocket, World.socket, Heap.cell_modify]
        split <;> rfl
  apply (w.innocent_confirmRegisterSocket ..).trans_sameTags
  exact (((sameFiles_takeConnection ..).trans ((sameFiles_registerPort ..).trans
    (sameFiles_setAddress ..))).sameTags rfl).trans (streamed ..)

/-- The calls on sockets, but for those that close or duplicate. -/
theorem Effect.innocent {label : Op × Event H} (effect : w.Effect label w')
    (noClose : label.1.closes = none) (noCopy : label.1.duplicates = false) : w.Innocent w' := by
  cases effect with
  | quiet => exact (SameTags.refl w).innocent
  | socket => exact w.innocent_confirmRegisterSocket ..
  | bind _ _ unused =>
      exact ((w.sameFiles_bindTo ..).sameTags (by rw [w.bindTo_eq _ unused]; rfl)).innocent
  | listen =>
      exact (((w.sameFiles_commNew _).trans (sameFiles_modifyComm ..)).sameTags rfl).innocent
  | connect => exact ((w.sameFiles_connectFrom ..).sameTags rfl).innocent
  | accept => exact w.innocent_acceptFrom ..
  | send => exact ((w.sameFiles_sendFrom ..).sameTags (w.sockets_sendFrom ..).2).innocent
  | close => cases noClose
  | dup => cases noCopy
  | dup2 => cases noClose

/-- Only a socket that is given up is freed. -/
theorem freed_processCloseCall {proc : Pid} {fd : Int} (done : w.processCloseCall proc fd = .ok w')
    {s : SockId} (freed : w'.sockets.freed s = true) :
    w.sockets.freed s = true ∨ w.links.GivesUp proc fd s := by
  rcases processCloseCall_ok done with ⟨-, rfl⟩ | ⟨d, pipes, -, rfl⟩ |
      ⟨is, w₁, found, rfl, ⟨other, rfl⟩ | ⟨network, closed⟩⟩
  · exact .inl freed
  · exact .inl freed
  · have here : w.links.opened proc fd = some is := opened_of_found found
    have freed : (w.sockets.free is).freed s = true := freed
    rw [Heap.freed_free] at freed
    split at freed
    · rename_i same
      exact .inr ⟨is, here, .inl ⟨other, same⟩⟩
    · exact .inl freed
  · have here : w.links.opened proc fd = some is := opened_of_found found
    have links := w.links_beginClose is
    have freed : w₁.sockets.freed s = true := freed
    rcases commClose_ok closed with ⟨-, rfl⟩ | ⟨k, attached, closed⟩
    · exact .inl freed
    have attached : w.links.comm is = some k := links ▸ attached
    rcases closed with ⟨t, state, first, rfl⟩ | ⟨t, t', state, first, second, rfl⟩ | ⟨-, -, rfl⟩
    · have state : w.links.state k = .listening := links ▸ state
      have first : w.links.info0 k = some t := links ▸ first
      rw [(commDestroy_kept _ k).2.1] at freed
      refine (freed_releaseSocket freed).imp id ?_
      rintro rfl
      exact ⟨is, here, .inr ⟨network, k, attached, .inl ⟨state, first⟩⟩⟩
    · have state : w.links.state k = .closed := links ▸ state
      have first : w.links.info0 k = some t := links ▸ first
      have second : w.links.info1 k = some t' := links ▸ second
      rw [(commDestroy_kept _ k).2.1] at freed
      rcases freed_releaseSocket freed with freed | rfl
      · refine (freed_releaseSocket freed).imp id ?_
        rintro rfl
        exact ⟨is, here, .inr ⟨network, k, attached, .inr ⟨state, .inl first⟩⟩⟩
      · exact .inr ⟨is, here, .inr ⟨network, k, attached, .inr ⟨state, .inr second⟩⟩⟩
    · exact .inl freed

/-- `dup2` frees what closing its target would. -/
theorem freed_closeTarget {proc : Pid} {newfd : Int} {ref : DescRef}
    (closed : (w.addRefcount ref 1).closeTarget proc newfd = .ok w') {s : SockId}
    (freed : w'.sockets.freed s = true) : w.sockets.freed s = true ∨ w.links.GivesUp proc newfd s := by
  have counted : ∀ (v : World H) (ref : DescRef) (n : Int),
      (v.addRefcount ref n).sockets.freed = v.sockets.freed := fun v ref n =>
    (v.sameTags_addRefcount ref n).live
  unfold closeTarget at closed
  split at closed
  · have before := freed_processCloseCall closed freed
    rwa [counted, counted, links_addRefcount, links_addRefcount] at before
  · cases closed
    rw [counted] at freed
    exact .inl freed

theorem closing_processCloseCall {proc : Pid} {fd : Int} (done : w.processCloseCall proc fd = .ok w') :
    w.Closing proc fd False w' := by
  obtain ⟨stored, pipes, tag, made⟩ := processCloseCall_file done
  have table := getFd_processCloseCall done
  refine ⟨tag, stored, made, ?_, fun pipe freed => ?_, fun s => freed_processCloseCall done,
    fun q g ref found => ?_⟩
  · rw [pipes, next_closedPipes]
  · rwa [pipes, freed_closedPipes] at freed
  · rw [table] at found
    split at found
    · cases found
    · rename_i other
      exact ⟨q, g, fun sameProc sameFd => other ⟨sameProc, sameFd⟩, found⟩

theorem listed_processCloseCall {proc : Pid} {fd : Int} (listed : w.Listed)
    (done : w.processCloseCall proc fd = .ok w') : w'.Listed := by
  obtain ⟨-, pipes, tag, -⟩ := processCloseCall_file done
  intro q g ref found pipe piped
  rw [getFd_processCloseCall done] at found
  split at found
  · cases found
  · rename_i apart
    rw [tag] at piped
    rw [pipes]
    have other : ({ fd := g, proc := q } : PipeEnd) ≠ { fd := fd, proc := proc } := by
      rintro same
      cases same
      exact apart ⟨rfl, rfl⟩
    exact (listed q g ref found pipe piped).imp (mem_closedPipes other pipe).1 (mem_closedPipes other pipe).2

/-- The two parts of `dup2`. -/
theorem syscallDup2Post_parts {proc : Pid} {oldfd newfd : Int}
    (done : w.syscallDup2Post proc oldfd newfd = .ok w') :
    ∃ (ref : DescRef) (v : World H), w.processDescriptorGetFd proc oldfd = some ref ∧
      v.AddsEnd proc oldfd newfd ref w' ∧ v.tag = w.tag ∧ v.descs.next = w.descs.next ∧
      v.sockets.next = w.sockets.next ∧
      (∀ s, v.sockets.freed s = true → w.sockets.freed s = true ∨ w.links.GivesUp proc newfd s) ∧
      v.pipes = w.closedPipes proc newfd := by
  unfold syscallDup2Post at done
  split at done
  · cases done
  · rename_i ref found
    obtain ⟨v, closed, rest⟩ := bind_eq_ok.mp done
    have counted := w.sameTags_addRefcount ref 1
    obtain ⟨stored, pipes, tag, made⟩ := closeTarget_file closed
    rw [closedPipes_addRefcount] at pipes
    exact ⟨ref, _, found, addsEnd_dupPipe rest, tag.trans counted.tag, stored.trans counted.stored,
      made.trans counted.made, fun s => freed_closeTarget closed, pipes⟩

theorem closing_syscallDup2Post {proc : Pid} {oldfd newfd : Int}
    (done : w.syscallDup2Post proc oldfd newfd = .ok w') :
    w.Closing proc newfd (oldfd = newfd) w' := by
  have table := getFd_syscallDup2Post done
  obtain ⟨ref, v, found, adds, tag, stored, made, live, pipes⟩ := syscallDup2Post_parts done
  refine ⟨adds.tag.trans tag, adds.stored.trans stored, ?_, ?_, fun pipe freed => ?_, fun s freed => ?_,
    fun q g ref' there => ?_⟩
  · rw [adds.sockets, made]
  · rw [adds.made, pipes, next_closedPipes]
  · rwa [adds.freed, pipes, freed_closedPipes] at freed
  · rw [adds.sockets] at freed
    exact live s freed
  · rw [table] at there
    split at there
    · exact ⟨proc, oldfd, fun _ same => same, there⟩
    · rename_i other
      exact ⟨q, g, fun sameProc sameFd => absurd ⟨sameProc, sameFd⟩ other, there⟩

theorem listed_syscallDup2Post {proc : Pid} {oldfd newfd : Int} (listed : w.Listed)
    (noPipe : oldfd = newfd →
      ∀ ref, w.processDescriptorGetFd proc oldfd = some ref → (w.tag ref).1 ≠ .pipe)
    (done : w.syscallDup2Post proc oldfd newfd = .ok w') : w'.Listed := by
  have table := getFd_syscallDup2Post done
  obtain ⟨ref, v, found, adds, tag, -, -, -, pipes⟩ := syscallDup2Post_parts done
  -- an end of another descriptor than the target outlives the closing
  have outlives : ∀ q g ref', w.processDescriptorGetFd q g = some ref' → ¬ (q = proc ∧ g = newfd) →
      v.HasEnd q g ref' := by
    intro q g ref' there apart pipe piped
    have other : ({ fd := g, proc := q } : PipeEnd) ≠ { fd := newfd, proc := proc } := by
      intro same
      cases same
      exact apart ⟨rfl, rfl⟩
    rw [tag] at piped
    rw [pipes]
    exact (listed q g ref' there pipe piped).imp (mem_closedPipes other pipe).1
      (mem_closedPipes other pipe).2
  intro q g ref' there
  rw [table] at there
  split at there
  · rename_i here
    rw [found] at there
    cases there
    rw [here.1, here.2]
    by_cases same : oldfd = newfd
    · intro pipe piped
      rw [adds.tag, tag] at piped
      exact absurd (congrArg Prod.fst piped) (noPipe same ref found)
    · exact adds.ends (outlives proc oldfd ref found fun wrong => same wrong.2)
  · rename_i apart
    intro pipe piped
    rw [adds.tag] at piped
    exact (outlives q g ref' there apart pipe piped).imp (adds.reads pipe _) (adds.writes pipe _)

/-! ## Runs -/

def tableCall (w : World H) : TableCall → Result (World H)
  | .call op => do
      let (w', _) ← w.step op
      return w'
  | .openFile proc flags mode ret => .ok (w.syscallOpen proc flags mode ret)
  | .creat proc mode ret => .ok (w.syscallCreatPost proc mode ret)
  | .pipe proc filedes ret => .ok (w.syscallPipePost proc filedes ret)
  | .fcntl proc fd cmd ret => w.processFcntlCall proc fd cmd ret
  | .clone parent pid own => w.cloneProcess parent pid own

/-- One call; new objects are at addresses never used before. -/
def TableStep (w : World H) (call : TableCall) (w' : World H) : Prop := w.tableCall call = .ok w'

theorem TableStep.functional (w : World H) (call : TableCall) (w₁ w₂ : World H)
    (first : w.TableStep call w₁) (second : w.TableStep call w₂) : w₁ = w₂ :=
  Except.ok.inj (first.symm.trans second)

theorem tableStep_call {op : Op} : w.TableStep (.call op) w' ↔ ∃ event, w.Step (op, event) w' := by
  constructor
  · intro step
    obtain ⟨⟨w₁, event⟩, stepped, rest⟩ := bind_eq_ok.mp step
    cases pure_eq_ok.mp rest
    exact ⟨event, stepped⟩
  · rintro ⟨event, step⟩
    exact bind_eq_ok.mpr ⟨_, step, rfl⟩

/-- What the call would make of the tags is right: a socket is not copied by `fcntl` or
    `clone`, and what `close` and `dup2` give up is not in use. -/
def Spares (w : World H) : TableCall → Prop
  | .call (.close proc fd) => w.SparesPipes proc fd False ∧ w.SparesSockets proc fd False
  | .call (.dup2 proc oldfd newfd) =>
      w.SparesPipes proc newfd (oldfd = newfd) ∧ w.SparesSockets proc newfd (oldfd = newfd)
  | .fcntl proc fd cmd _ => cmd.duplicates = true → w.NoTag .socket proc fd
  | .clone parent _ _ => w.NoSocketTag parent
  | _ => True

/-- What a call does to the tables, as far as tags are concerned. -/
inductive Retags (w : World H) : TableCall → World H → Prop where
  | kept {call w'} : w.Spares call → w.Preserves w' → Retags w call w'
  | closed {proc fd w'} : w.processCloseCall proc fd = .ok w' →
      Retags w (.call (.close proc fd)) w'
  | replaced {proc oldfd newfd w'} : w.syscallDup2Post proc oldfd newfd = .ok w' →
      Retags w (.call (.dup2 proc oldfd newfd)) w'
  | copied {proc fd cmd ret flags w'} : cmd.duplicates = true →
      w.fcntlDup proc fd ret flags = .ok w' → Retags w (.fcntl proc fd cmd ret) w'
  | cloned {parent pid own w'} : w.Clones parent pid own w' → Retags w (.clone parent pid own) w'

theorem TableStep.retags {call : TableCall} (allocated : w.Allocated) (step : w.TableStep call w') :
    w.Retags call w' := by
  cases call with
  | call op =>
      obtain ⟨event, step⟩ := tableStep_call.mp step
      have plain : op.closes = none → op.duplicates = false → w.Preserves w' := fun noClose noCopy =>
        (step.effect (fun _ => allocated_old allocated) |>.innocent noClose noCopy).preserves
      cases op with
      | close proc fd =>
          obtain ⟨w₁, done, ⟨⟩⟩ := bind_pure_eq_ok.mp step
          exact .closed done
      | dup2 proc oldfd newfd =>
          obtain ⟨w₁, done, ⟨⟩⟩ := bind_pure_eq_ok.mp step
          exact .replaced done
      | dup proc oldfd newfd =>
          obtain ⟨w₁, done, ⟨⟩⟩ := bind_pure_eq_ok.mp step
          exact .kept trivial (preserves_syscallDupPost done)
      | socket | bind | listen | connect | accept | send => exact .kept trivial (plain rfl rfl)
  | openFile proc flags mode ret =>
      cases step
      exact .kept trivial (w.innocent_syscallOpen proc flags mode ret).preserves
  | creat proc mode ret =>
      cases step
      exact .kept trivial (w.innocent_syscallCreatPost proc mode ret).preserves
  | pipe proc filedes ret =>
      cases step
      exact .kept trivial (w.preserves_syscallPipePost proc filedes ret)
  | fcntl proc fd cmd ret =>
      rcases processFcntlCall_cases step with ⟨copies, flags, done⟩ | ⟨other, stored⟩
      · exact .copied copies done
      · refine .kept (fun copies => ?_) (innocent_fcntl stored).preserves
        rw [other] at copies
        cases copies
  | clone parent pid own =>
      exact .cloned (cloneProcess_ok (holdsAll_of_allocated allocated parent) step).1

theorem TableStep.allocated {call : TableCall} (allocated : w.Allocated)
    (step : w.TableStep call w') : w'.Allocated := by
  cases step.retags allocated with
  | kept _ preserves => exact preserves.allocated allocated
  | closed done => exact (closing_processCloseCall done).shrinks.allocated allocated
  | replaced done => exact (closing_syscallDup2Post done).shrinks.allocated allocated
  | copied _ done => exact allocated_fcntlDup allocated done
  | cloned clones => exact clones.allocated allocated

theorem TableStep.tagged {call : TableCall} (allocated : w.Allocated) (tagged : w.Tagged)
    (spares : w.Spares call) (step : w.TableStep call w') : w'.Tagged := by
  cases step.retags allocated with
  | kept _ preserves => exact preserves.tagged allocated tagged
  | closed done => exact (closing_processCloseCall done).tagged tagged spares.1 spares.2
  | replaced done => exact (closing_syscallDup2Post done).tagged tagged spares.1 spares.2
  | copied copies done => exact tagged_fcntlDup allocated tagged (spares copies) done
  | cloned clones => exact clones.tagged allocated tagged (noSocketTag_iff.mp spares)

/-! ## Calls that share no socket -/

/-- The call gives no second descriptor to a socket. -/
def SharesNoSocket (w : World H) : TableCall → Prop
  | .call (.dup proc oldfd _) | .call (.dup2 proc oldfd _) => w.NoTag .socket proc oldfd
  | .fcntl proc fd cmd _ => cmd.duplicates = true → w.NoTag .socket proc fd
  | .clone parent _ _ => w.NoSocketTag parent
  | _ => True

instance (w : World H) : (call : TableCall) → Decidable (w.SharesNoSocket call)
  | .call (.dup ..) | .call (.dup2 ..) => inferInstanceAs (Decidable (NoTag ..))
  | .call (.socket ..) | .call (.bind ..) | .call (.listen ..) | .call (.connect ..)
  | .call (.accept ..) | .call (.send ..) | .call (.close ..) => inferInstanceAs (Decidable True)
  | .fcntl .. => inferInstanceAs (Decidable (_ → _))
  | .clone .. => inferInstanceAs (Decidable (NoSocketTag ..))
  | .openFile .. | .creat .. | .pipe .. => inferInstanceAs (Decidable True)

theorem TableStep.castable {call : TableCall} (allocated : w.Allocated) (castable : w.Castable)
    (unshared : w.SharesNoSocket call) (step : w.TableStep call w') : w'.Castable := by
  cases step.retags allocated with
  | kept _ preserves => exact preserves.castable allocated castable
  | closed done => exact (closing_processCloseCall done).shrinks.castable castable
  | replaced done => exact (closing_syscallDup2Post done).shrinks.castable castable
  | copied copies done => exact castable_fcntlDup allocated castable (unshared copies) done
  | cloned clones => exact clones.castable allocated castable (noSocketTag_iff.mp unshared)

/-- A call other than those on sockets makes plain records only. -/
theorem TableStep.overwrites {call : TableCall} (other : ∀ op, call ≠ .call op)
    (step : w.TableStep call w') : w.Overwrites w' := by
  cases call with
  | call op => exact absurd rfl (other op)
  | openFile | creat =>
      cases step
      exact w.overwrites_opened ..
  | pipe proc filedes ret =>
      cases step
      exact w.overwrites_syscallPipePost proc filedes ret
  | fcntl => exact overwrites_processFcntlCall step
  | clone => exact overwrites_cloneProcess step

theorem TableStep.live {call : TableCall} (live : w.links.Live) (unshared : w.SharesNoSocket call)
    (step : w.TableStep call w') : w'.links.Live := by
  by_cases other : ∀ op, call ≠ .call op
  · exact (step.overwrites other).live live
  · simp only [not_forall, not_not] at other
    obtain ⟨op, rfl⟩ := other
    obtain ⟨event, step⟩ := tableStep_call.mp step
    have links : w.links.Step (op, event) w'.links := Step.links live.sound step
    revert links
    generalize w'.links = l'
    intro links
    cases links with
    | dup =>
        rw [opened_of_noTag unshared]
        exact live.forget _ _
    | dup2 closed =>
        rw [opened_of_noTag unshared]
        exact (live.ofClose closed).forget _ _
    | quiet => exact live
    | socket => exact live.register _ _ _
    | listen here => exact live.listen here
    | ask here => exact live.ask here _ _
    | join _ _ _ queue _ => exact live.join _ _ _ queue
    | close closed => exact live.ofClose closed

/-- The call leaves no descriptor of a pipe without its end: `fcntl` duplicates no pipe, and
    `dup2` duplicates none onto itself. -/
def TracksEnds (w : World H) : TableCall → Prop
  | .call (.dup2 proc oldfd newfd) => oldfd = newfd → w.NoTag .pipe proc oldfd
  | .fcntl proc fd cmd _ => cmd.duplicates = true → w.NoTag .pipe proc fd
  | _ => True

instance (w : World H) : (call : TableCall) → Decidable (w.TracksEnds call)
  | .call (.dup2 ..) | .fcntl .. => inferInstanceAs (Decidable (_ → _))
  | .call (.socket ..) | .call (.bind ..) | .call (.listen ..) | .call (.connect ..)
  | .call (.accept ..) | .call (.send ..) | .call (.close ..) | .call (.dup ..)
  | .openFile .. | .creat .. | .pipe .. | .clone .. => inferInstanceAs (Decidable True)

/-- Both, a condition on the arguments of the call. -/
def Careful (w : World H) (call : TableCall) : Prop := w.SharesNoSocket call ∧ w.TracksEnds call

instance (w : World H) (call : TableCall) : Decidable (w.Careful call) :=
  inferInstanceAs (Decidable (_ ∧ _))

theorem TableStep.listed {call : TableCall} (allocated : w.Allocated) (listed : w.Listed)
    (tracks : w.TracksEnds call) (step : w.TableStep call w') : w'.Listed := by
  cases step.retags allocated with
  | kept _ preserves => exact preserves.listed allocated listed
  | closed done => exact listed_processCloseCall listed done
  | replaced done => exact listed_syscallDup2Post listed tracks done
  | copied copies done => exact listed_fcntlDup allocated listed (tracks copies) done
  | cloned clones => exact clones.listed allocated listed

theorem TableStep.spares {call : TableCall} (allocated : w.Allocated) (listed : w.Listed)
    (live : w.links.Live) (careful : w.Careful call) (step : w.TableStep call w') : w.Spares call := by
  cases step.retags allocated with
  | kept spares => exact spares
  | closed => exact ⟨listed.sparesPipes False.elim, sparesSockets_of_live live False.elim⟩
  | replaced =>
      obtain ⟨unshared, tracks⟩ := careful
      refine ⟨listed.sparesPipes fun same => ?_, sparesSockets_of_live live fun same is here => ?_⟩
      · rw [← same]
        exact tracks same
      · rw [← same, opened_of_noTag unshared] at here
        cases here
  | copied copies => exact fun _ => careful.1 copies
  | cloned => exact careful.1

theorem spares_of_careful {w₀ : World H} {calls : List TableCall} (allocated : w₀.Allocated)
    (listed : w₀.Listed) (live : w₀.links.Live) (run : Run (Guarded Careful TableStep) w₀ calls w) :
    Run (Guarded Spares TableStep) w₀ calls w ∧ w.Allocated ∧ w.Listed ∧ w.links.Live := by
  induction run with
  | start => exact ⟨.start, allocated, listed, live⟩
  | next _ step ih =>
      obtain ⟨spared, allocated, listed, live⟩ := ih
      obtain ⟨careful, step⟩ := step
      exact ⟨.next spared ⟨step.spares allocated listed live careful, step⟩, step.allocated allocated,
        step.listed allocated listed careful.2, step.live live careful.1⟩

/-- From any state with right tags: the tags are right in every state of a run in which each
    call spares them in the state before it. Careful calls do, from a state with live tables
    in which all ends of pipes are listed. -/
theorem tags_stay_right {w₀ : World H} {calls : List TableCall} (allocated : w₀.Allocated)
    (tagged : w₀.Tagged) :
    (Run (Guarded Spares TableStep) w₀ calls w → w.Tagged) ∧
      (w₀.Listed → w₀.links.Live → Run (Guarded Careful TableStep) w₀ calls w →
        Run (Guarded Spares TableStep) w₀ calls w) := by
  refine ⟨fun run => ?_, fun listed live run => (spares_of_careful allocated listed live run).1⟩
  have both := run.invariant (fun w => w.Allocated ∧ w.Tagged) ⟨allocated, tagged⟩
    fun _ _ _ before step => ⟨step.2.allocated before.1, step.2.tagged before.1 before.2 step.1⟩
  exact both.2

/-- What can be computed of some calls holds after a run of them. -/
theorem exists_tableCalls (guard : World H → TableCall → Prop) [∀ w call, Decidable (guard w call)]
    (w₀ : World H) (calls : List TableCall) {P : World H → Prop}
    (found : ∃ r ∈ perform (fun w call => (w.tableCall call).toOption.map fun w' => (call, w'))
      guard w₀ calls, r.1 = calls ∧ P r.2) :
    ∃ w, Run (Guarded guard TableStep) w₀ calls w ∧ P w := by
  have correct : ∀ (w : World H) (call : TableCall) (w' : World H), w.tableCall call = .ok w' →
      w.TableStep call w' := fun _ _ _ done => done
  obtain ⟨calls', w, run, rfl, holds⟩ := Run.exists_of_results
    (P := fun calls' w => calls' = calls ∧ P w) correct found
  exact ⟨w, run, holds⟩

/-- A pipe between a process and its clone, a file and two sockets, some of them duplicated and
    some closed. -/
def mixedDescriptors : List TableCall :=
  [.pipe 0 (3, 4) 0, .openFile 0 0 0 5, .call (.dup 0 3 6), .call (.dup2 0 5 6), .fcntl 0 5 .dupfd 7,
    .clone 0 1 [0, 1, 2], .call (.close 0 3), .call (.close 1 4), .call (.socket 0 1 1 0 3),
    .call (.close 0 3), .call (.socket 0 2 1 0 3)]

theorem threeHosts_bare (proc : Pid) (fd : Int) (ref : DescRef) :
    threeHosts.processDescriptorGetFd proc fd ≠ some ref := by
  simp [threeHosts, boot, processDescriptorGetFd]

theorem mixed_descriptors_right : ∃ w, Run (Guarded Careful TableStep) threeHosts mixedDescriptors w ∧
    w.Tagged ∧ w.processDescriptorGetFd 0 3 = some (.socket 1) ∧ w.sockets.freed 0 = true ∧
    w.pipes.freed 0 = false := by
  obtain ⟨w, careful, socket, freed, live⟩ := exists_tableCalls Careful threeHosts mixedDescriptors
    (P := fun w => w.processDescriptorGetFd 0 3 = some (.socket 1) ∧ w.sockets.freed 0 = true ∧
      w.pipes.freed 0 = false) (by decide +kernel)
  have bare := threeHosts_bare
  have right : (Run (Guarded Spares TableStep) threeHosts mixedDescriptors w → w.Tagged) ∧ _ :=
    tags_stay_right (fun proc fd ref found => absurd found (bare proc fd ref))
      (fun proc fd ref found => absurd found (bare proc fd ref))
  refine ⟨w, careful, ?_, socket, freed, live⟩
  exact right.1 (right.2 (fun proc fd ref found => absurd found (bare proc fd ref))
    (boot_initial _ _ _).live careful)

/-- A copy of a socket by `F_DUPFD` is a plain record with the tag of a socket. -/
theorem duplicated_socket_wrong : ∃ w,
    Run TableStep threeHosts [.call (.socket 0 2 1 0 3), .fcntl 0 3 .dupfd 4] w ∧
      w.processDescriptorGetFd 0 4 = some (.plain 0) ∧ (w.tag (.plain 0)).1 = .socket ∧
      ¬ w.Tagged := by
  obtain ⟨w, run, found, typed⟩ := exists_tableCalls (fun _ _ => True) threeHosts
    [.call (.socket 0 2 1 0 3), .fcntl 0 3 .dupfd 4]
    (P := fun w => w.processDescriptorGetFd 0 4 = some (.plain 0) ∧
      (w.tag (.plain 0)).1 = .socket) (by decide +kernel)
  refine ⟨w, run.mono fun _ _ _ step => step.2, found, typed, fun tagged => ?_⟩
  obtain ⟨is, wrong, -⟩ := (tagged 0 4 (.plain 0) found).1 typed
  cases wrong

end

end World

end Simterpose
