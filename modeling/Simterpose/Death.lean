import Mathlib.Data.List.Perm.Basic
import Mathlib.Logic.Relation
import Simterpose.Tables
import Simterpose.Ledger

/-! # The death of a process

`process_die`: what `process_descriptor.c` and `sockets.c` do to the tables when a traced
process is gone. The sockets that have a communication are closed one after the other, in
the order in which the dictionary of descriptors is walked, which is not specified here;
what is left of the dictionary is freed. Seen from links and ledger this is a sequence of
closings.
-/

namespace Simterpose

open Lib

namespace World

section

variable {H : Type} (w : World H)

/-- `free` of what a descriptor points at. -/
def freeDesc : DescRef → World H
  | .plain d => { w with descs := w.descs.free d }
  | .socket is => w.freeSocket is

/-- One round of the loop of `process_descriptor_destroy`. -/
def destroyDesc (proc : Pid) (fd : Int) : World H :=
  match w.processDescriptorGetFd proc fd with
  | none => w
  | some ref => (w.addRefcount ref (-1)).freeDesc ref

/-- The descriptor is a plain record with the tag of a socket, which a cast to `infos_socket`
    reads beyond its end. -/
def castsPlain (proc : Pid) (fd : Int) : Bool :=
  match w.processDescriptorGetFd proc fd with
  | some (.plain d) => (w.fileDesc (.plain d)).type = .socket
  | _ => false

/-- `process_descriptor_destroy`, walking through the descriptors `fds`; those closed
    before are not found any more. -/
def processDescriptorDestroy (proc : Pid) (fds : List Int) : World H :=
  let w := fds.foldl (fun w fd => w.destroyDesc proc fd) w
  { w with procs := Function.update w.procs proc { w.procs proc with fdMap := ∅ } }

end

variable {H : Type} [DecidableEq H] (w : World H)

/-- One round of the loop of `close_all_communication`, with the record it empties. A
    socket without communication is passed over. The loop goes by the tag. -/
def closeCommunication (proc : Pid) (fd : Int) : Result (World H × RecvInformation H) :=
  if w.castsPlain proc fd then .error .outOfBounds
  else
    match w.getInfosSocket proc fd with
    | none => .ok (w, {})
    | some is =>
        match w.commGetOwnRecv is with
        | none => .ok (w, {})
        | some recv => do
            let w' ← (w.modifyRecv recv fun _ => {}).socketClose proc fd
            return (w', w.recvInformation recv)

/-- `close_all_communication`. The loop removes the element it stands on; the memory of
    that element is still readable, so the walk goes on with the next one. -/
def closeAllCommunication (proc : Pid) : List Int → World H → Result (World H × List (RecvInformation H))
  | [], w => .ok (w, [])
  | fd :: fds, w => do
      let (w, emptied) ← w.closeCommunication proc fd
      let (w, rest) ← closeAllCommunication proc fds w
      return (w, emptied :: rest)

/-- `process_die`, with the records that were emptied on the way. -/
def processDie (proc : Pid) (fds : List Int) : Result (World H × List (RecvInformation H)) := do
  let (w, emptied) ← closeAllCommunication proc fds w
  return (w.processDescriptorDestroy proc fds, emptied)

end World

/-- What can happen to the tables: a call, or the death of a process whose descriptors are
    walked through in the given order. -/
inductive Act where
  | call (op : Op)
  | die (proc : Pid) (fds : List Int)
  deriving Repr, DecidableEq

/-- The process that makes a call. -/
def Op.proc : Op → Pid
  | .socket proc .. | .bind proc .. | .listen proc _ | .connect proc .. | .accept proc ..
  | .send proc .. | .close proc _ | .dup proc .. | .dup2 proc .. => proc

def Act.proc : Act → Pid
  | .call op => op.proc
  | .die proc _ => proc

namespace World

variable {H : Type}

/-- A walk visits every descriptor of the process once. -/
def Walks (w : World H) : Act → Prop
  | .call _ => True
  | .die proc fds => fds.Perm (w.procs proc).fdMap.keys

instance (w : World H) : (act : Act) → Decidable (w.Walks act)
  | .call _ => .isTrue trivial
  | .die proc fds => inferInstanceAs (Decidable (fds.Perm (w.procs proc).fdMap.keys))

variable [DecidableEq H]

def act (w : World H) : Act → Result (World H × Event H)
  | .call op => w.step op
  | .die proc fds => do return ((← w.processDie proc fds).1, .silent)

/-- One labelled step of calls and deaths, with new objects at addresses never used before. -/
def Acts (w : World H) (label : Act × Event H) (w' : World H) : Prop :=
  w.Walks label.1 ∧ w.act label.1 = .ok (w', label.2)

end World

/-! ## Closings, seen from links and ledger -/

/-- A process closes one of its descriptors, or comes to one that is no socket. -/
inductive Shut {H : Type} [DecidableEq H] (proc : Pid) (fd : Int) :
    Links × Ledger H → Links × Ledger H → Prop where
  | idle (v : Links × Ledger H) : Shut proc fd v v
  | alone {l : Links} {d : Ledger H} {is : SockId} : l.opened proc fd = some is →
      (l.network is → l.comm is = none) → Shut proc fd (l, d) (l.setOpened proc fd none, d)
  | comm {l l' : Links} {d : Ledger H} {is : SockId} {gone : List SockId} :
      l.opened proc fd = some is → l.network is → l.CommClose is l' gone →
      Shut proc fd (l, d) (l'.setOpened proc fd none, d.releaseAll gone)

/-- A process closes some of its descriptors. -/
def Shuts {H : Type} [DecidableEq H] (proc : Pid) : Links × Ledger H → Links × Ledger H → Prop :=
  Relation.ReflTransGen fun v v' => ∃ fd, Shut proc fd v v'

namespace Shut

variable {H : Type} [DecidableEq H] {proc : Pid} {fd : Int} {v v' : Links × Ledger H}

/-- To the links it is a close or nothing. -/
theorem keeps {P : Links → Links → Prop} (shut : Shut proc fd v v') (refl : ∀ l, P l l)
    (close : ∀ {l l'}, l.Close proc fd l' → P l l') : P v.1 v'.1 := by
  cases shut with
  | idle => exact refl _
  | alone here detached => exact close (.alone here detached)
  | comm here network closed => exact close (closed.close here network)

/-- Closing opens nothing. -/
theorem opened (shut : Shut proc fd v v') {proc' : Pid} {fd' : Int} {is : SockId} :
    v'.1.opened proc' fd' = some is → v.1.opened proc' fd' = some is :=
  shut.keeps (P := fun l l' => l'.opened proc' fd' = some is → l.opened proc' fd' = some is)
    (fun _ => id) fun closed => closed.opened

/-- Sockets keep their communication. -/
theorem comm_eq (shut : Shut proc fd v v') : v'.1.comm = v.1.comm :=
  shut.keeps (P := fun l l' => l'.comm = l.comm) (fun _ => rfl) fun closed => by cases closed <;> rfl

/-- Communications keep the ends that they were made for. -/
theorem info0_eq (shut : Shut proc fd v v') : v'.1.info0 = v.1.info0 :=
  shut.keeps (P := fun l l' => l'.info0 = l.info0) (fun _ => rfl) fun closed => by cases closed <;> rfl

/-- A whole sequence of closings opens nothing and keeps the communications. -/
theorem all (shuts : Shuts proc v v') :
    (∀ {proc' fd is}, v'.1.opened proc' fd = some is → v.1.opened proc' fd = some is) ∧
      v'.1.comm = v.1.comm ∧ v'.1.info0 = v.1.info0 := by
  induction shuts with
  | refl => exact ⟨id, rfl, rfl⟩
  | tail _ shut ih =>
      obtain ⟨_, shut⟩ := shut
      obtain ⟨opened, comm, info0⟩ := ih
      exact ⟨fun here => opened (shut.opened here), shut.comm_eq.trans comm, shut.info0_eq.trans info0⟩

end Shut

theorem Links.Close.opened_other {l l' : Links} {proc proc' : Pid} {fd : Int}
    (closed : l.Close proc fd l') (other : proc' ≠ proc) : l'.opened proc' = l.opened proc' := by
  cases closed with
  | noSocket => rfl
  | alone | listening | first | second =>
      funext fd'
      exact if_neg fun both => other both.1

section

variable {H : Type} [DecidableEq H] {proc : Pid} {fd : Int} {v v' : Links × Ledger H}

/-- The descriptors of other processes stay as they are. -/
theorem Shut.opened_other (shut : Shut proc fd v v') {proc' : Pid} (other : proc' ≠ proc) :
    v'.1.opened proc' = v.1.opened proc' :=
  shut.keeps (P := fun l l' => l'.opened proc' = l.opened proc') (fun _ => rfl) fun closed =>
    closed.opened_other other

theorem Shut.sound (shut : Shut proc fd v v') : v.1.Sound → v'.1.Sound :=
  shut.keeps (P := fun l l' => l.Sound → l'.Sound) (fun _ => id) fun closed sound => sound.ofClose closed

end

/-- A call changes descriptors of the process that makes it only. -/
theorem Links.Step.opened_other {H : Type} {label : Op × Event H} {l l' : Links}
    (step : l.Step label l') {proc : Pid} (other : proc ≠ label.1.proc) :
    l'.opened proc = l.opened proc := by
  cases step with
  | quiet | listen | ask => rfl
  | socket | join | dup =>
      funext fd
      exact if_neg fun both => other both.1
  | close closed => exact closed.opened_other other
  | dup2 closed =>
      rw [← closed.opened_other other]
      funext fd
      exact if_neg fun both => other both.1

/-- A process has no descriptors any more. -/
def Links.clear (l : Links) (proc : Pid) : Links :=
  { l with opened := fun proc' fd => if proc' = proc then none else l.opened proc' fd }

theorem Links.clear_setOpened (l : Links) (proc : Pid) (fd : Int) :
    (l.setOpened proc fd none).clear proc = l.clear proc := by
  have same : ((l.setOpened proc fd none).clear proc).opened = (l.clear proc).opened := by
    funext proc' fd'
    simp only [Links.clear, Links.setOpened]
    split
    · rfl
    · rename_i other
      rw [if_neg fun both => other both.1]
  exact congrArg (fun o => { l with opened := o }) same

theorem Links.clear_self {l : Links} {proc : Pid} (none_ : ∀ fd, l.opened proc fd = none) :
    l.clear proc = l := by
  have same : (l.clear proc).opened = l.opened := by
    funext proc' fd
    simp only [Links.clear]
    split
    · rename_i here
      rw [here, none_]
    · rfl
  exact congrArg (fun o => { l with opened := o }) same

/-- Sockets without communication can be forgotten all at once. -/
theorem shuts_clear {H : Type} [DecidableEq H] {proc : Pid} {d : Ledger H} (fds : List Int)
    {l : Links} (detached : ∀ fd is, l.opened proc fd = some is → fd ∈ fds ∧ l.comm is = none) :
    Shuts proc (l, d) (l.clear proc, d) := by
  induction fds generalizing l with
  | nil =>
      have none_ : ∀ fd, l.opened proc fd = none := by
        intro fd
        cases here : l.opened proc fd with
        | none => rfl
        | some is => exact absurd (detached fd is here).1 List.not_mem_nil
      rw [Links.clear_self none_]
      exact .refl
  | cons fd fds ih =>
      have first : Shut proc fd (l, d) (l.setOpened proc fd none, d) := by
        cases here : l.opened proc fd with
        | none =>
            rw [l.setOpened_self here]
            exact .idle _
        | some is => exact .alone here fun _ => (detached fd is here).2
      rw [← l.clear_setOpened proc fd]
      refine .head ⟨fd, first⟩ (ih ?_)
      intro fd' is there
      have before := first.opened there
      obtain ⟨member, alone⟩ := detached fd' is before
      refine ⟨?_, alone⟩
      rcases List.mem_cons.mp member with rfl | member
      · simp [Links.setOpened] at there
      · exact member

namespace World

section

variable {H : Type}

/-- Links and ledger at once. -/
def views (w : World H) : Links × Ledger H := (w.links, w.ledger)

theorem mem_of_walk {w : World H} {proc : Pid} {fds : List Int} (walk : fds.Perm (w.procs proc).fdMap.keys) {fd : Int} {is : SockId}
    (here : w.links.opened proc fd = some is) : fd ∈ fds := by
  rw [← getInfosSocket_eq_opened, getInfosSocket_eq_some] at here
  have found : (w.procs proc).fdMap.lookup fd = some (.socket is) := here
  rw [walk.mem_iff]
  exact AList.mem_keys.mpr (AList.lookup_isSome.mp (by simp [found]))

/-- What neither counting nor freeing a record changes, no round of
    `process_descriptor_destroy` changes. -/
theorem foldl_destroyDesc {α : Type} (read : World H → α)
    (counted : ∀ v ref n, read (v.addRefcount ref n) = read v)
    (freed : ∀ v ref, read (v.freeDesc ref) = read v) (w : World H) (proc : Pid) (fds : List Int) :
    read (fds.foldl (fun v fd => v.destroyDesc proc fd) w) = read w := by
  have one : ∀ (v : World H) (fd : Int), read (v.destroyDesc proc fd) = read v := by
    intro v fd
    unfold destroyDesc
    split
    · rfl
    · rw [freed, counted]
  induction fds generalizing w with
  | nil => rfl
  | cons fd fds ih => exact (ih (w.destroyDesc proc fd)).trans (one w fd)

theorem views_processDescriptorDestroy (w : World H) (proc : Pid) (fds : List Int) :
    (w.processDescriptorDestroy proc fds).views = (w.links.clear proc, w.ledger) := by
  have freed : ∀ (v : World H) (ref : DescRef), (v.freeDesc ref).views = v.views := by
    intro v ref
    cases ref <;> rfl
  have counted : ∀ (v : World H) (ref : DescRef) (n : Int), (v.addRefcount ref n).views = v.views := by
    intro v ref n
    simp [views]
  have all := foldl_destroyDesc views counted freed w proc fds
  have cleared : ∀ v : World H,
      ({ v with procs := Function.update v.procs proc { v.procs proc with fdMap := ∅ } } : World H).views =
        (v.links.clear proc, v.ledger) := by
    intro v
    have opened : (fun proc' fd => (Option.bind ((Function.update v.procs proc
        { v.procs proc with fdMap := ∅ } proc').fdMap.lookup fd) DescRef.socket?)) =
        (v.links.clear proc).opened := by
      funext proc' fd
      by_cases same : proc' = proc
      · subst same
        simp [Links.clear]
      · simp [Links.clear, same, links, processDescriptorGetFd]
    have home : (fun proc' => (Function.update v.procs proc
        { v.procs proc with fdMap := ∅ } proc').host) = v.ledger.home := by
      funext proc'
      by_cases same : proc' = proc
      · subst same
        simp [ledger]
      · simp [same, ledger]
    refine Prod.ext ?_ ?_
    · exact congrArg (fun o => { v.links with opened := o }) opened
    · exact congrArg (fun h => { v.ledger with home := h }) home
  rw [processDescriptorDestroy, cleared]
  rw [Prod.ext_iff] at all ⊢
  exact ⟨congrArg (Links.clear · proc) all.1, all.2⟩

end

variable {H : Type} [DecidableEq H] {w w' : World H} {proc : Pid} {fd : Int}

theorem socketClose_shut {is : SockId} (found : w.getInfosSocket proc fd = some is)
    (done : w.socketClose proc fd = .ok w') :
    Shut proc fd w.views w'.views ∧ w'.links.opened proc fd = none := by
  have here : w.links.opened proc fd = some is := getInfosSocket_eq_opened .. ▸ found
  obtain ⟨w₁, rfl, ⟨other, rfl⟩ | ⟨network, closed⟩⟩ :=
    socketClose_ok ((getInfosSocket_eq_some _).mp found) done
  · refine ⟨?_, by simp [Links.setOpened]⟩
    simp only [views, links_setFd, links_freeSocket, links_addRefNb, links_addRefcount, ledger_setFd,
      ledger_freeSocket, ledger_addRefNb, ledger_addRefcount]
    exact .alone here fun network => absurd network other
  · refine ⟨?_, by simp [Links.setOpened]⟩
    obtain ⟨gone, closed, released⟩ := commClose_views closed
    rw [links_addRefNb, links_addRefcount] at closed
    rw [ledger_addRefNb, ledger_addRefcount] at released
    simp only [views, links_setFd, ledger_setFd, released]
    exact .comm here network closed

theorem processCloseCall_shut (done : w.processCloseCall proc fd = .ok w') :
    Shut proc fd w.views w'.views := by
  rcases processCloseCall_ok done with ⟨-, rfl⟩ | ⟨d, pipes, found, rfl⟩ |
      ⟨is, w₁, found, rfl, ⟨other, rfl⟩ | ⟨network, closed⟩⟩
  · exact .idle _
  · have none_ : w.links.opened proc fd = none := opened_of_found found
    have piped : ∀ v : World H, { v with pipes := pipes }.links = v.links ∧
        { v with pipes := pipes }.ledger = v.ledger := fun _ => ⟨rfl, rfl⟩
    have same : w.links.setOpened proc fd ((none : Option DescRef).bind DescRef.socket?) = w.links :=
      w.links.setOpened_self none_
    simp only [views, links_setFd, links_addRefcount, ledger_setFd, ledger_addRefcount, piped, same]
    exact .idle _
  · have here : w.links.opened proc fd = some is := opened_of_found found
    simp only [views, links_endClose, links_freeSocket, links_beginClose, ledger_endClose,
      ledger_freeSocket, ledger_beginClose]
    exact .alone here fun network => absurd network other
  · have here : w.links.opened proc fd = some is := opened_of_found found
    obtain ⟨gone, closed, released⟩ := commClose_views closed
    rw [links_beginClose] at closed
    rw [ledger_beginClose] at released
    simp only [views, links_endClose, ledger_endClose, released]
    exact .comm here network closed

theorem closeCommunication_ok {emptied : RecvInformation H}
    (done : w.closeCommunication proc fd = .ok (w', emptied)) :
    (w' = w ∧ emptied = {} ∧
        ∀ is, w.getInfosSocket proc fd = some is → w.commGetOwnRecv is = none) ∨
      ∃ is recv, w.getInfosSocket proc fd = some is ∧ w.commGetOwnRecv is = some recv ∧
        emptied = w.recvInformation recv ∧
        (w.modifyRecv recv fun _ => {}).socketClose proc fd = .ok w' := by
  unfold closeCommunication at done
  split at done
  · cases done
  split at done
  · rename_i absent
    cases done
    exact .inl ⟨rfl, rfl, fun is found => by rw [absent] at found; cases found⟩
  · rename_i is found
    split at done
    · rename_i detached
      cases done
      refine .inl ⟨rfl, rfl, fun is' found' => ?_⟩
      rw [found] at found'
      cases found'
      exact detached
    · rename_i recv own
      obtain ⟨w₁, closed, ⟨⟩⟩ := bind_pure_eq_ok.mp done
      exact .inr ⟨is, recv, found, own, rfl, closed⟩

/-- One round of `close_all_communication`; a socket it passes over has no communication. -/
theorem closeCommunication_shut {emptied : RecvInformation H}
    (done : w.closeCommunication proc fd = .ok (w', emptied)) :
    Shut proc fd w.views w'.views ∧
      ∀ is, w'.links.opened proc fd = some is → w'.links.comm is = none := by
  rcases closeCommunication_ok done with ⟨rfl, -, passed⟩ | ⟨is, recv, found, -, -, closed⟩
  · refine ⟨.idle _, fun is here => ?_⟩
    rw [← getInfosSocket_eq_opened] at here
    have detached := passed is here
    unfold commGetOwnRecv at detached
    split at detached
    · assumption
    · split at detached <;> cases detached
  · have still : (w.modifyRecv recv fun _ => {}).getInfosSocket proc fd = some is := by
      rw [getInfosSocket_eq_opened, links_modifyRecv, ← getInfosSocket_eq_opened, found]
    obtain ⟨shut, gone⟩ := socketClose_shut still closed
    rw [views, links_modifyRecv, ledger_modifyRecv] at shut
    exact ⟨shut, fun is' here => absurd here (by simp [gone])⟩

theorem closeAllCommunication_shuts {fds : List Int} {emptied : List (RecvInformation H)}
    (done : closeAllCommunication proc fds w = .ok (w', emptied)) :
    Shuts proc w.views w'.views ∧
      ∀ fd ∈ fds, ∀ is, w'.links.opened proc fd = some is → w'.links.comm is = none := by
  induction fds generalizing w emptied with
  | nil =>
      cases done
      exact ⟨.refl, by simp⟩
  | cons fd fds ih =>
      obtain ⟨⟨w₁, one⟩, first, done⟩ := bind_eq_ok.mp done
      obtain ⟨⟨w₂, others⟩, rest, ⟨⟩⟩ := bind_pure_eq_ok.mp done
      obtain ⟨shut, passed⟩ := closeCommunication_shut first
      obtain ⟨shuts, passedRest⟩ := ih rest
      refine ⟨.head ⟨fd, shut⟩ shuts, fun fd' member is here => ?_⟩
      rcases List.mem_cons.mp member with rfl | member
      · obtain ⟨opened, comm, -⟩ := Shut.all shuts
        have comm : w₂.links.comm = w₁.links.comm := comm
        rw [comm]
        exact passed is (opened here)
      · exact passedRest fd' member is here

/-- The death of a process is a sequence of closings, after which nothing of it is open. -/
theorem processDie_shuts {fds : List Int} {emptied : List (RecvInformation H)}
    (walk : fds.Perm (w.procs proc).fdMap.keys) (done : w.processDie proc fds = .ok (w', emptied)) :
    Shuts proc w.views w'.views ∧
      ∀ fd, w'.links.opened proc fd = none := by
  obtain ⟨⟨w₁, emptied'⟩, closed, ⟨⟩⟩ := bind_pure_eq_ok.mp done
  obtain ⟨shuts, passed⟩ := closeAllCommunication_shuts closed
  have walked : ∀ fd is, w₁.links.opened proc fd = some is → fd ∈ fds ∧ w₁.links.comm is = none := by
    intro fd is here
    have member := mem_of_walk walk ((Shut.all shuts).1 here)
    exact ⟨member, passed fd member is here⟩
  have cleared := w₁.views_processDescriptorDestroy proc fds
  refine ⟨?_, fun fd => ?_⟩
  · rw [cleared]
    exact Relation.ReflTransGen.trans shuts (shuts_clear fds walked)
  · have links := congrArg (fun v : Links × Ledger H => v.1.opened proc fd) cleared
    exact links.trans (if_pos rfl)

theorem Acts.die {fds : List Int} {event : Event H} (acts : w.Acts (.die proc fds, event) w') :
    event = .silent ∧ fds.Perm (w.procs proc).fdMap.keys ∧
      ∃ emptied, w.processDie proc fds = .ok (w', emptied) := by
  obtain ⟨walk, done⟩ := acts
  obtain ⟨⟨w₁, emptied⟩, died, rest⟩ := bind_eq_ok.mp done
  obtain ⟨rfl, rfl⟩ := Prod.mk.inj (pure_eq_ok.mp rest)
  exact ⟨rfl, walk, emptied, died⟩

/-- Calls and deaths keep the links sound and leave the descriptors of other processes alone. -/
theorem Acts.sound {label : Act × Event H} (sound : w.links.Sound) (acts : w.Acts label w') :
    w'.links.Sound ∧ ∀ proc, proc ≠ label.1.proc → w'.links.opened proc = w.links.opened proc := by
  obtain ⟨act, event⟩ := label
  cases act with
  | call op =>
      have step : w.links.Step (op, event) w'.links := Step.links sound acts.2
      exact ⟨sound.step step, fun proc other => step.opened_other other⟩
  | die proc fds =>
      obtain ⟨-, walk, emptied, died⟩ := acts.die
      have kept : ∀ {v v' : Links × Ledger H}, Shuts proc v v' → v.1.Sound →
          v'.1.Sound ∧ ∀ proc', proc' ≠ proc → v'.1.opened proc' = v.1.opened proc' := by
        intro v v' shuts before
        induction shuts with
        | refl => exact ⟨before, fun _ _ => rfl⟩
        | tail _ shut ih =>
            obtain ⟨_, shut⟩ := shut
            obtain ⟨sound, opened⟩ := ih
            exact ⟨shut.sound sound, fun proc' other =>
              (shut.opened_other other).trans (opened proc' other)⟩
      exact kept (processDie_shuts walk died).1 sound

end World

end Simterpose
