import Simterpose.PortUse
import Simterpose.References

/-! # Addresses that are handed out again

`malloc` may hand out the address of a socket or a communication that was freed, and then
whatever still names the old object names the new one. Here every call runs with whatever
addresses the allocator offers. As long as every socket that is freed has left
`all_sockets`, nothing that is listed is ever handed out, and the ports stay accounted
for. A socket that is not of the network is freed and stays in the list.
-/

namespace Simterpose

open Lib

/-- The addresses of the socket and of the communication that a call makes, if it makes one. -/
structure Addresses where
  socket : SockId
  comm : CommId
  deriving Repr, DecidableEq

namespace World

section

variable {H : Type}

def Offers (w : World H) (made : Addresses) : Prop :=
  w.sockets.Offers made.socket ∧ w.comms.Offers made.comm

instance (w : World H) (made : Addresses) : Decidable (w.Offers made) :=
  inferInstanceAs (Decidable (_ ∧ _))

def offering (w : World H) (made : Addresses) : World H :=
  { w with sockets := w.sockets.offering made.socket, comms := w.comms.offering made.comm }

/-- What was handed out before `v` was reached from `w` stays handed out. -/
def covering (w v : World H) : World H :=
  { v with sockets := v.sockets.covering w.sockets.next, comms := v.comms.covering w.comms.next }

@[simp] theorem ledger_covering (w v : World H) : (w.covering v).ledger = v.ledger := rfl

end

variable {H : Type} [DecidableEq H]

/-- One call, with the addresses that `malloc` returns in it. -/
def stepAt (w : World H) (call : Addresses × Op) : Result (World H × Event H) := do
  let (v, ev) ← (w.offering call.1).step call.2
  return (w.covering v, ev)

/-- One labelled step with any addresses that are offered. -/
def StepAt (w : World H) (label : Addresses × Op × Event H) (w' : World H) : Prop :=
  w.Offers label.1 ∧ w.stepAt (label.1, label.2.1) = .ok (w', label.2.2)

theorem StepAt.exists_step {w w' : World H} {label : Addresses × Op × Event H}
    (step : w.StepAt label w') : ∃ v, (w.offering label.1).Step label.2 v ∧ w' = w.covering v := by
  obtain ⟨⟨v, ev⟩, done, ⟨⟩⟩ := bind_pure_eq_ok.mp step.2
  exact ⟨v, done, rfl⟩

theorem StepAt.of_step {w v : World H} {made : Addresses} {label : Op × Event H}
    (offered : w.Offers made) (step : (w.offering made).Step label v) :
    w.StepAt (made, label) (w.covering v) :=
  ⟨offered, bind_eq_ok.mpr ⟨_, step, rfl⟩⟩

/-- Perform calls with given addresses one after another, as long as the addresses are
    offered, `guard` allows each call and none of them stops the simulator. -/
def executeAt (guard : World H → Addresses × Op × Event H → Prop)
    [∀ w label, Decidable (guard w label)] (w : World H) (calls : List (Addresses × Op)) :
    Option (List (Addresses × Op × Event H) × World H) :=
  perform (fun w call => if w.Offers call.1 then
    (w.stepAt call).toOption.map fun r => ((call.1, call.2, r.2), r.1) else none) guard w calls

theorem exists_runAt (guard : World H → Addresses × Op × Event H → Prop)
    [∀ w label, Decidable (guard w label)] (w₀ : World H) (calls : List (Addresses × Op))
    {P : List (Addresses × Op × Event H) → World H → Prop}
    (found : ∃ r ∈ w₀.executeAt guard calls, P r.1 r.2) :
    ∃ es w, Run (Guarded guard StepAt) w₀ es w ∧ P es w := by
  apply Run.exists_of_results_if _ found
  intro w call outcome offered done
  exact ⟨offered, done⟩

end World

namespace Links

variable {l l' : Links}

/-- The same links, with other addresses handed out next. -/
def readdress (l : Links) (made : Addresses) : Links :=
  { l with nextSocket := made.socket, nextComm := made.comm }

/-- What the listed sockets say, each taken for a socket of the network. -/
def trimmed (l : Links) : Links :=
  { l with
    network := fun _ => True
    comm := fun is => if is ∈ l.allSockets then l.comm is else none }

theorem comm_trimmed {is : SockId} (listed : is ∈ l.allSockets) : l.trimmed.comm is = l.comm is :=
  if_pos listed

theorem of_comm_trimmed {is : SockId} {k : CommId} (attached : l.trimmed.comm is = some k) :
    is ∈ l.allSockets ∧ l.comm is = some k := by
  simp only [trimmed] at attached
  split at attached
  · exact ⟨‹_›, attached⟩
  · cases attached

/-- Among the listed sockets everything is in order: open ones are listed, and what they refer
    to is listed too. -/
structure Current (l : Links) : Prop where
  kept : l.trimmed.Kept
  attached : ∀ {is k}, is ∈ l.allSockets → l.comm is = some k → k ∈ l.commList

namespace Current

theorem listed (current : l.Current) {proc : Pid} {fd : Int} {is : SockId}
    (here : l.opened proc fd = some is) : is ∈ l.allSockets :=
  current.kept.listed (l := l.trimmed) here trivial

/-- Addresses that are in no list have no owner. -/
theorem fresh (current : l.Current) (socket : l.nextSocket ∉ l.allSockets)
    (comm : l.nextComm ∉ l.commList) : l.trimmed.Fresh where
  comm := by
    intro is attached
    obtain ⟨listed, attached⟩ := of_comm_trimmed attached
    exact comm (current.attached listed attached)
  waiting := fun waiting => comm (current.kept.waitListed waiting)
  opened := fun here => socket (current.listed here)
  socketUnlisted := socket
  commUnlisted := comm

/-- Which addresses are handed out next does not matter to what is listed. -/
theorem readdress (current : l.Current) (made : Addresses) : (l.readdress made).Current :=
  ⟨{ current.kept with }, current.attached⟩

end Current

/-- Forgetting what unlisted sockets say leaves the rest in order. -/
theorem Kept.trimmed (kept : l.Kept)
    (network : ∀ {proc fd is}, l.opened proc fd = some is → l.network is) : l.trimmed.Kept :=
  { kept with
    slot := fun attached => kept.slot (of_comm_trimmed attached).2
    listener := fun attached => kept.listener (of_comm_trimmed attached).2
    listed := fun here _ => kept.listed here (network here)
    attached := fun here _ attached => kept.attached here (network here) (of_comm_trimmed attached).2
    closedHalf := by
      intro k member closed
      obtain ⟨z, listed, comm, unopened⟩ := kept.closedHalf member closed
      exact ⟨z, listed, (comm_trimmed listed).trans comm, unopened⟩ }

/-! ## Calls on what is listed -/

theorem trimmed_register (proc : Pid) (fd : Int) (network : Prop) :
    (l.register proc fd network).trimmed = l.trimmed.register proc fd True := by
  have comm : (l.register proc fd network).trimmed.comm = (l.trimmed.register proc fd True).comm := by
    funext s
    by_cases new : s = l.nextSocket
    · simp [trimmed, register, setOpened, new]
    · simp [trimmed, register, setOpened, new]
  have networks : (l.trimmed.register proc fd True).network = fun _ => True := by
    funext s
    by_cases new : s = l.nextSocket <;> simp [trimmed, register, setOpened, new]
  simp only [register, setOpened, trimmed] at comm networks ⊢
  rw [comm, networks]

theorem trimmed_commNew {is : SockId} (listed : is ∈ l.allSockets) :
    (l.commNew is).trimmed = l.trimmed.commNew is := by
  have comm : (l.commNew is).trimmed.comm = (l.trimmed.commNew is).comm := by
    funext s
    by_cases same : s = is
    · simp [trimmed, commNew, same, listed]
    · simp [trimmed, commNew, same]
  simp only [commNew, trimmed] at comm ⊢
  rw [comm]

theorem trimmed_join (proc : Pid) (fd : Int) (listener : SockId) (m k : CommId)
    (rest : List CommId) :
    (l.join proc fd listener m k rest).trimmed = l.trimmed.join proc fd listener m k rest := by
  have comm : (l.join proc fd listener m k rest).trimmed.comm =
      (l.trimmed.join proc fd listener m k rest).comm := by
    funext s
    rw [comm_join]
    by_cases new : s = l.nextSocket
    · simp [trimmed, join, setComm, setInfo1, setConnWait, register, setOpened, new]
    · simp [trimmed, join, setComm, setInfo1, setConnWait, register, setOpened, new]
  have networks : (l.trimmed.join proc fd listener m k rest).network = fun _ => True := by
    funext s
    by_cases new : s = l.nextSocket <;>
      simp [trimmed, join, setComm, setInfo1, setConnWait, register, setOpened, new]
  simp only [join, setComm, setInfo1, setConnWait, register, setOpened, trimmed] at comm networks ⊢
  rw [comm, networks]

/-- Closing a socket that is listed closes it among those that are listed. -/
theorem Close.trimmed {proc : Pid} {fd : Int} (closed : l.Close proc fd l')
    (listed : ∀ {is}, l.opened proc fd = some is → is ∈ l.allSockets)
    (network : ∀ {is}, l.opened proc fd = some is → l.network is) :
    ∃ l₁, l.trimmed.Close proc fd l₁ ∧ l₁.trimmed = l'.trimmed ∧ ∀ is, l₁.network is := by
  have again : ∀ {all : List SockId}, (∀ s ∈ all, s ∈ l.allSockets) →
      (fun s => if s ∈ all then l.trimmed.comm s else none) =
        fun s => if s ∈ all then l.comm s else none := by
    intro all fewer
    funext s
    split
    · exact comm_trimmed (fewer s ‹_›)
    · rfl
  cases closed with
  | noSocket absent =>
      refine ⟨l.trimmed, .noSocket absent, ?_, fun _ => trivial⟩
      exact congrArg (fun comm => { l.trimmed with comm := comm }) (again fun _ => id)
  | @alone is here detached =>
      have attached := (comm_trimmed (listed here)).trans (detached (network here))
      refine ⟨l.trimmed.setOpened proc fd none, .alone here fun _ => attached, ?_, fun _ => trivial⟩
      exact congrArg (fun comm => { l.trimmed.setOpened proc fd none with comm := comm })
        (again fun _ => id)
  | @listening is s k here _ comm state first =>
      refine ⟨_, .listening here trivial ((comm_trimmed (listed here)).trans comm) state first, ?_,
        fun _ => trivial⟩
      exact congrArg (fun comm => { ((l.trimmed.delete s).destroy k).setOpened proc fd none with
        comm := comm }) (again fun _ => List.mem_of_mem_erase)
  | @first is k here _ comm notListening notClosed =>
      refine ⟨_, .first here trivial ((comm_trimmed (listed here)).trans comm) notListening notClosed,
        ?_, fun _ => trivial⟩
      exact congrArg (fun comm => { (l.trimmed.setState k .closed).setOpened proc fd none with
        comm := comm }) (again fun _ => id)
  | @second is s t k here _ comm state first second =>
      refine ⟨_, .second here trivial ((comm_trimmed (listed here)).trans comm) state first second, ?_,
        fun _ => trivial⟩
      exact congrArg (fun comm =>
        { (((l.trimmed.delete s).delete t).destroy k).setOpened proc fd none with comm := comm })
        (again fun _ member => List.mem_of_mem_erase (List.mem_of_mem_erase member))

theorem trimmed_listen {is : SockId} (listed : is ∈ l.allSockets) :
    (l.listen is).trimmed = l.trimmed.listen is :=
  congrArg (Links.setState · l.nextComm .listening) (trimmed_commNew listed)

theorem trimmed_ask {client : SockId} (listed : client ∈ l.allSockets) (listener : SockId)
    (m : CommId) : (l.ask client listener m).trimmed = l.trimmed.ask client listener m :=
  congrArg (fun l' : Links => (l'.setConnWait m (l'.connWait m ++ [l.nextComm])).setInfo1 l.nextComm
    listener) (trimmed_commNew listed)

namespace Current

theorem commNew_attached (current : l.Current) {is s : SockId} {k : CommId}
    (listed : s ∈ l.allSockets) (attached : (l.commNew is).comm s = some k) :
    k ∈ (l.commNew is).commList := by
  simp only [commNew, Function.update_apply] at attached
  split at attached
  · cases attached
    exact List.mem_append_right _ (List.mem_singleton_self _)
  · exact List.mem_append_left _ (current.attached listed attached)

/-- A communication that is torn down takes all its listed sockets out of the list. -/
theorem ofClose (current : l.Current) {proc : Pid} {fd : Int}
    (network : ∀ {is}, l.opened proc fd = some is → l.network is) (closed : l.Close proc fd l') :
    l'.Current := by
  obtain ⟨l₁, closed₁, same, networks⟩ := closed.trimmed current.listed network
  refine ⟨same ▸ (current.kept.ofClose closed₁).trimmed fun _ => networks _, ?_⟩
  have all : l.allSockets.Nodup := current.kept.allNodup
  have comms : l.commList.Nodup := current.kept.listNodup
  have visible : ∀ {x j}, x ∈ l.allSockets → l.comm x = some j → l.trimmed.comm x = some j :=
    fun listed attached => (comm_trimmed listed).trans attached
  cases closed with
  | noSocket | alone | first =>
      intro x j listed attached
      exact current.attached listed attached
  | @listening is s k here _ comm state first =>
      intro x j left attached
      obtain ⟨other, listed⟩ := all.mem_erase_iff.mp left
      refine comms.mem_erase_iff.mpr ⟨?_, current.attached listed attached⟩
      rintro rfl
      exact other ((current.kept.listeningOwner (visible (current.listed here) comm) state first).mpr
        (visible listed attached))
  | @second is s t k here _ comm state first second =>
      intro x j left attached
      obtain ⟨other, left⟩ := (all.erase s).mem_erase_iff.mp left
      obtain ⟨other', listed⟩ := all.mem_erase_iff.mp left
      refine comms.mem_erase_iff.mpr ⟨?_, current.attached listed attached⟩
      rintro rfl
      have owner := (current.kept.closedOwners here trivial (visible (current.listed here) comm) state
        first second).mpr (visible listed attached)
      exact owner.elim other' other

/-- Calls keep what is listed in order, provided that they are offered addresses which are in
    no list and that the sockets they close are of the network. -/
theorem step {H : Type} {label : Op × Event H} (current : l.Current)
    (socket : l.nextSocket ∉ l.allSockets) (comm : l.nextComm ∉ l.commList)
    (single : label.1.duplicates = false)
    (network : ∀ {proc fd is}, label.1.closes = some (proc, fd) → l.opened proc fd = some is →
      l.network is) (step : l.Step label l') : l'.Current := by
  have fresh := current.fresh socket comm
  cases step with
  | quiet => exact current
  | @socket proc _ _ _ ret network =>
      refine ⟨?_, ?_⟩
      · rw [trimmed_register]
        exact current.kept.register fresh proc ret True
      · intro s k listed attached
        simp only [register, Function.update_apply] at attached
        split at attached
        · cases attached
        · rename_i other
          rcases List.mem_append.mp listed with listed | new
          · exact current.attached listed attached
          · exact absurd (List.mem_singleton.mp new) other
  | listen here =>
      refine ⟨?_, current.commNew_attached⟩
      rw [trimmed_listen (current.listed here)]
      exact current.kept.listen fresh here
  | ask here =>
      refine ⟨?_, current.commNew_attached⟩
      rw [trimmed_ask (current.listed here)]
      exact current.kept.ask fresh here _ _
  | @join proc _ newfd listener _ m k rest _ _ _ _ queue _ =>
      refine ⟨?_, ?_⟩
      · rw [trimmed_join]
        exact current.kept.join fresh proc newfd listener queue
      · intro s j listed attached
        rw [comm_join] at attached
        split at attached
        · cases attached
          exact current.kept.waitListed (m := m) (queue ▸ List.mem_cons_self ..)
        · rename_i other
          rcases List.mem_append.mp listed with listed | new
          · exact current.attached listed attached
          · exact absurd (List.mem_singleton.mp new) other
  | close closed => exact current.ofClose (network rfl) closed
  | dup => simp [Op.duplicates] at single
  | dup2 => simp [Op.duplicates] at single

/-- What a close releases is listed. -/
theorem releasesListed (current : l.Current) : l.ReleasesListed := by
  intro proc fd is l' gone here _ closed
  have comm : l.trimmed.comm is = l.comm is := comm_trimmed (current.listed here)
  have again : ∃ l₁, l.trimmed.CommClose is l₁ gone := by
    cases closed with
    | detached attached => exact ⟨_, .detached (comm.trans attached)⟩
    | listening attached state first => exact ⟨_, .listening (comm.trans attached) state first⟩
    | first attached notListening notClosed =>
        exact ⟨_, .first (comm.trans attached) notListening notClosed⟩
    | second attached state first second =>
        exact ⟨_, .second (comm.trans attached) state first second⟩
  obtain ⟨l₁, closed₁⟩ := again
  exact current.kept.releasesListed here trivial closed₁

end Current

/-- The lists grow by what a call makes only. -/
theorem Step.listed {H : Type} {label : Op × Event H} (step : l.Step label l') :
    (∀ s ∈ l'.allSockets, s ∈ l.allSockets ∨ s < l'.nextSocket) ∧
      ∀ k ∈ l'.commList, k ∈ l.commList ∨ k < l'.nextComm := by
  have added : ∀ {xs : List Nat} {n i : Nat}, i ∈ xs ++ [n] → i ∈ xs ∨ i < n + 1 := by
    intro xs n i member
    rcases List.mem_append.mp member with old | new
    · exact .inl old
    · exact .inr (List.mem_singleton.mp new ▸ Nat.lt_succ_self _)
  have fewer : ∀ {proc fd l'}, l.Close proc fd l' →
      (∀ s ∈ l'.allSockets, s ∈ l.allSockets) ∧ ∀ k ∈ l'.commList, k ∈ l.commList := by
    intro proc fd l' closed
    cases closed with
    | noSocket | alone | first => exact ⟨fun _ => id, fun _ => id⟩
    | listening => exact ⟨fun _ => List.mem_of_mem_erase, fun _ => List.mem_of_mem_erase⟩
    | second =>
        exact ⟨fun _ member => List.mem_of_mem_erase (List.mem_of_mem_erase member),
          fun _ => List.mem_of_mem_erase⟩
  cases step with
  | quiet | dup => exact ⟨fun _ => .inl, fun _ => .inl⟩
  | socket | join => exact ⟨fun _ => added, fun _ => .inl⟩
  | listen | ask => exact ⟨fun _ => .inl, fun _ => added⟩
  | close closed | dup2 closed =>
      exact ⟨fun s member => .inl ((fewer closed).1 s member),
        fun k member => .inl ((fewer closed).2 k member)⟩

end Links

namespace World

section

variable {H : Type}

@[simp] theorem links_covering (w v : World H) : (w.covering v).links =
    v.links.readdress ⟨max w.sockets.next v.sockets.next, max w.comms.next v.comms.next⟩ := rfl

theorem exists_links_covering {w v : World H} {l : Links} (same : v.links = l) :
    ∃ made, (w.covering v).links = l.readdress made :=
  ⟨_, by rw [links_covering, same]⟩

/-- Nothing that is listed was freed. -/
structure Unfreed (w : World H) : Prop where
  sockets : ∀ s ∈ w.allSockets, w.sockets.freed s = false
  comms : ∀ k ∈ w.commList, w.comms.freed k = false

/-- The descriptors that the call closes are of sockets of the network. -/
def ClosesNetwork (w : World H) (op : Op) : Prop :=
  ∀ target ∈ op.closes, ∀ is ∈ w.getInfosSocket target.1 target.2, InetLike (w.socket is)

instance (w : World H) (op : Op) : Decidable (w.ClosesNetwork op) :=
  inferInstanceAs (Decidable (∀ target ∈ op.closes, _))

theorem ClosesNetwork.network {w : World H} {op : Op} (closes : w.ClosesNetwork op) {proc : Pid}
    {fd : Int} {is : SockId} (closing : op.closes = some (proc, fd))
    (here : w.links.opened proc fd = some is) : w.links.network is :=
  closes (proc, fd) closing is (w.getInfosSocket_eq_opened proc fd ▸ here)

end

variable {H : Type} [DecidableEq H] {w₀ w w' : World H} {es : List (Addresses × Op × Event H)}
  {label : Op × Event H}

/-! ## Runs in which no address is handed out twice -/

/-- What the call makes is put where nothing was before. -/
def TakesNew (w : World H) (label : Addresses × Op × Event H) : Prop :=
  label.1 = ⟨w.sockets.next, w.comms.next⟩

theorem step_iff_stepAt (sound : w.links.Sound) :
    w.Step label w' ↔ w.StepAt (⟨w.sockets.next, w.comms.next⟩, label) w' := by
  have kept : ∀ {v}, w.Step label v → w.covering v = v := by
    intro v step
    have grown := (step.links sound).next_le
    have sockets : v.sockets.covering w.sockets.next = v.sockets :=
      congrArg (fun n => { v.sockets with next := n }) (Nat.max_eq_right grown.1)
    have comms : v.comms.covering w.comms.next = v.comms :=
      congrArg (fun n => { v.comms with next := n }) (Nat.max_eq_right grown.2)
    simp only [covering, sockets, comms]
  constructor
  · intro step
    have stepAt : w.StepAt (⟨w.sockets.next, w.comms.next⟩, label) (w.covering w') :=
      StepAt.of_step ⟨.inl rfl, .inl rfl⟩ step
    rwa [kept step] at stepAt
  · intro step
    obtain ⟨v, stepped, rfl⟩ := step.exists_step
    have stepped : w.Step label v := stepped
    rwa [kept stepped]

/-- The runs of `Step` are those in which `malloc` returns new addresses only. -/
theorem run_iff_takesNew {es : List (Op × Event H)} (initial : w₀.Initial) :
    Run Step w₀ es w ↔
      ∃ es', Run (Guarded TakesNew StepAt) w₀ es' w ∧ es'.map Prod.snd = es := by
  constructor
  · intro run
    induction run with
    | start => exact ⟨[], .start, rfl⟩
    | @next es e w w' run step ih =>
        obtain ⟨es', run', rfl⟩ := ih
        have stepAt := (step_iff_stepAt (sound_of_run initial run)).mp step
        have new : w.TakesNew (⟨w.sockets.next, w.comms.next⟩, e) := rfl
        exact ⟨_, .next run' ⟨new, stepAt⟩, by simp⟩
  · rintro ⟨es', run, rfl⟩
    induction run with
    | start => exact .start
    | @next es' label w w' _ step ih =>
        obtain ⟨made, label⟩ := label
        obtain ⟨rfl, step⟩ := step
        rw [List.map_append]
        exact .next ih ((step_iff_stepAt (sound_of_run initial ih)).mpr step)

namespace Unfreed

/-- A new object is in use. -/
private theorem of_alloc {freed : Nat → Bool} {xs : List Nat} (unfreed : ∀ i ∈ xs, freed i = false)
    (next : Nat) : ∀ i ∈ xs ++ [next], Function.update freed next false i = false := by
  intro i member
  rw [Function.update_apply]
  split
  · rfl
  · rename_i other
    rcases List.mem_append.mp member with old | new
    · exact unfreed i old
    · exact absurd (List.mem_singleton.mp new) other

private theorem of_commClose (unfreed : w.Unfreed) (all : w.allSockets.Nodup)
    (comms : w.commList.Nodup) {is : SockId} (done : w.commClose is = .ok w') : w'.Unfreed := by
  have released : ∀ {v : World H} {s : SockId}, v.allSockets.Nodup →
      (∀ x ∈ v.allSockets, v.sockets.freed x = false) →
      ∀ x ∈ (v.releaseSocket s).allSockets, (v.releaseSocket s).sockets.freed x = false := by
    intro v s nodup kept x member
    have left : (v.releaseSocket s).allSockets = v.allSockets.erase s :=
      congrArg Links.allSockets (v.links_releaseSocket s)
    rw [left, nodup.mem_erase_iff] at member
    rw [Bool.eq_false_iff]
    intro freed
    rcases freed_releaseSocket freed with freed | same
    · simp [kept x member.2] at freed
    · exact member.1 same
  have destroyed : ∀ {v : World H} {k : CommId}, v.comms = w.comms → v.commList = w.commList →
      (∀ x ∈ v.allSockets, v.sockets.freed x = false) → (v.commDestroy k).Unfreed := by
    intro v k sameComms sameList kept
    have allSockets : (v.commDestroy k).allSockets = v.allSockets :=
      congrArg Links.allSockets (v.links_commDestroy k)
    have commList : (v.commDestroy k).commList = v.commList.erase k :=
      congrArg Links.commList (v.links_commDestroy k)
    constructor
    · rw [allSockets, (commDestroy_kept v k).2.1]
      exact kept
    · intro j member
      rw [commList, sameList, comms.mem_erase_iff] at member
      rw [freed_commDestroy, if_neg member.1, sameComms]
      exact unfreed.comms j member.2
  have listed : ∀ (v : World H) (s : SockId), (v.releaseSocket s).commList = v.commList :=
    fun v s => congrArg Links.commList (v.links_releaseSocket s)
  have left : ∀ (v : World H) (s : SockId), (v.releaseSocket s).allSockets = v.allSockets.erase s :=
    fun v s => congrArg Links.allSockets (v.links_releaseSocket s)
  rcases commClose_ok done with ⟨-, rfl⟩ | ⟨k, -, ⟨s, -, -, rfl⟩ | ⟨s, t, -, -, -, rfl⟩ | ⟨-, -, rfl⟩⟩
  · exact unfreed
  · exact destroyed (comms_releaseSocket ..) (listed ..) (released all unfreed.sockets)
  · refine destroyed ((comms_releaseSocket ..).trans (comms_releaseSocket ..))
      ((listed ..).trans (listed ..)) (released ?_ (released all unfreed.sockets))
    rw [left]
    exact all.erase s
  · exact ⟨unfreed.sockets, unfreed.comms⟩

theorem of_processCloseCall (unfreed : w.Unfreed) (all : w.allSockets.Nodup)
    (comms : w.commList.Nodup) {proc : Pid} {fd : Int}
    (network : ∀ {is}, w.links.opened proc fd = some is → w.links.network is)
    (done : w.processCloseCall proc fd = .ok w') : w'.Unfreed := by
  rcases processCloseCall_ok done with ⟨-, rfl⟩ | ⟨d, pipes, -, rfl⟩ |
      ⟨is, w₁, found, rfl, ⟨other, rfl⟩ | ⟨-, closed⟩⟩
  · exact unfreed
  · exact ⟨unfreed.sockets, unfreed.comms⟩
  · have here : w.links.opened proc fd = some is := opened_of_found found
    exact absurd (network here) other
  · have begun : (w.beginClose is).Unfreed := ⟨unfreed.sockets, unfreed.comms⟩
    have closed := begun.of_commClose all comms closed
    exact ⟨closed.sockets, closed.comms⟩

/-- No call frees what stays listed. -/
theorem effect (unfreed : w.Unfreed) (all : w.allSockets.Nodup) (comms : w.commList.Nodup)
    (single : label.1.duplicates = false)
    (network : ∀ {proc fd is}, label.1.closes = some (proc, fd) → w.links.opened proc fd = some is →
      w.links.network is) (effect : w.Effect label w') : w'.Unfreed := by
  cases effect with
  | quiet => exact unfreed
  | socket | accept => exact ⟨of_alloc unfreed.sockets w.sockets.next, unfreed.comms⟩
  | bind _ _ unused =>
      rw [w.bindTo_eq _ unused]
      exact ⟨unfreed.sockets, unfreed.comms⟩
  | listen | connect => exact ⟨unfreed.sockets, of_alloc unfreed.comms w.comms.next⟩
  | @send _ _ _ _ is s recv ds tci receiver =>
      have comms : (w.sendFrom is s recv ds tci receiver).comms.freed = w.comms.freed := by
        simp only [sendFrom, modifyRecv]
        split <;> rfl
      have same := w.links_sendFrom is s recv ds tci receiver
      have allSockets : (w.sendFrom is s recv ds tci receiver).allSockets = w.allSockets :=
        congrArg Links.allSockets same
      have commList : (w.sendFrom is s recv ds tci receiver).commList = w.commList :=
        congrArg Links.commList same
      refine ⟨?_, ?_⟩
      · rw [(w.sockets_sendFrom ..).2, allSockets]
        exact unfreed.sockets
      · rw [comms, commList]
        exact unfreed.comms
  | close done => exact unfreed.of_processCloseCall all comms (network rfl) done
  | dup => simp [Op.duplicates] at single
  | dup2 => simp [Op.duplicates] at single

end Unfreed

/-- What is listed is in use, and its ports are accounted for. -/
structure Reusable (w : World H) : Prop where
  current : w.links.Current
  enumerated : w.links.Enumerated
  unfreed : w.Unfreed
  atHome : w.ledger.AtHome w.links
  covered : w.ledger.Covered

theorem Initial.reusable (initial : w.Initial) : w.Reusable where
  current :=
    { kept := initial.live.toKept.trimmed fun here => absurd here (initial.unopened _ _ _)
      attached := fun listed => by simp [links, initial.allSockets] at listed }
  enumerated := initial.live.enumerated
  unfreed := ⟨by simp [initial.allSockets], by simp [initial.commList]⟩
  atHome := initial.accounted.atHome
  covered := initial.accounted.covered

/-- No address that is offered is in a list. -/
theorem Reusable.unlisted (reusable : w.Reusable) {made : Addresses} (offered : w.Offers made) :
    made.socket ∉ w.allSockets ∧ made.comm ∉ w.commList :=
  ⟨Heap.not_mem_of_offers offered.1 fun s listed =>
      ⟨reusable.enumerated.socketLt listed, reusable.unfreed.sockets s listed⟩,
    Heap.not_mem_of_offers offered.2 fun k listed =>
      ⟨reusable.enumerated.commLt listed, reusable.unfreed.comms k listed⟩⟩

theorem Reusable.step {label : Addresses × Op × Event H} (reusable : w.Reusable)
    (single : label.2.1.duplicates = false) (closes : w.ClosesNetwork label.2.1)
    (step : w.StepAt label w') : w'.Reusable := by
  obtain ⟨made, call⟩ := label
  obtain ⟨socket, comm⟩ := reusable.unlisted step.1
  obtain ⟨v, stepped, rfl⟩ := step.exists_step
  -- the tables before the call, about to hand out what it is given
  have current : (w.offering made).links.Current := reusable.current.readdress made
  have fresh := current.fresh socket comm
  have network : ∀ {proc fd is}, call.1.closes = some (proc, fd) →
      (w.offering made).links.opened proc fd = some is → (w.offering made).links.network is :=
    closes.network
  have unopened : ∀ {proc fd}, (w.offering made).links.opened proc fd ≠ some made.socket :=
    fun here => fresh.opened here
  have effect : (w.offering made).Effect call v := stepped.effect fun _ found same =>
    unopened ((getInfosSocket_eq_opened ..).symm.trans (found.trans (congrArg some same)))
  have moved := effect.ledger current.releasesListed single
  have listed := effect.links.listed
  have all : w.allSockets.Nodup := current.kept.allNodup
  have unfreed := Unfreed.effect (w := w.offering made) ⟨reusable.unfreed.sockets, reusable.unfreed.comms⟩
    all current.kept.listNodup single network effect
  have atHome : (w.offering made).ledger.AtHome (w.offering made).links := reusable.atHome
  have atHome' := effect.atHome unopened single atHome
  exact
    { current := (current.step socket comm single network effect.links).readdress ⟨_, _⟩
      enumerated :=
        { socketLt := fun {s} member => by
            rcases listed.1 s member with old | new
            · exact Nat.lt_of_lt_of_le (reusable.enumerated.socketLt old) (Nat.le_max_left ..)
            · exact Nat.lt_of_lt_of_le new (Nat.le_max_right ..)
          commLt := fun {k} member => by
            rcases listed.2 k member with old | new
            · exact Nat.lt_of_lt_of_le (reusable.enumerated.commLt old) (Nat.le_max_left ..)
            · exact Nat.lt_of_lt_of_le new (Nat.le_max_right ..) }
      unfreed := ⟨unfreed.sockets, unfreed.comms⟩
      atHome := atHome'
      covered := Ledger.Covered.step (l := (w.offering made).ledger) reusable.covered all socket atHome
        moved }

/-- A port that a listed socket has is in use. -/
theorem inUse_of_covered (covered : w.ledger.Covered) {s : SockId} (listed : s ∈ w.allSockets)
    (valid : 0 < (w.socket s).portLocal) :
    w.isPortInUse (w.socket s).host (w.socket s).portLocal = true := by
  have covered := covered (w.socket s).host (w.socket s).portLocal valid
  have used : 0 < w.ledger.users (w.socket s).host (w.socket s).portLocal :=
    List.countP_pos_iff.mpr ⟨s, listed, by simp [ledger]⟩
  have entry : w.ledger.desc (w.socket s).host (w.socket s).portLocal =
      w.portDesc (w.socket s).host (w.socket s).portLocal := rfl
  rw [isPortInUse, ← entry]
  cases found : w.ledger.desc (w.socket s).host (w.socket s).portLocal with
  | none =>
      simp only [Ledger.amount, found, Option.elim_none] at covered
      omega
  | some desc => rfl

/-- No descriptor is duplicated, and every `connect` finds a listening socket. -/
def ListeningCall (w : World H) (label : Addresses × Op × Event H) : Prop :=
  label.2.1.duplicates = false ∧ w.FindsListening label.2.2

instance (w : World H) (label : Addresses × Op × Event H) : Decidable (w.ListeningCall label) :=
  inferInstanceAs (Decidable (_ ∧ _))

/-- Such a call, which closes no socket that is not of the network. -/
def NetworkCall (w : World H) (label : Addresses × Op × Event H) : Prop :=
  w.ListeningCall label ∧ w.ClosesNetwork label.2.1

instance (w : World H) (label : Addresses × Op × Event H) : Decidable (w.NetworkCall label) :=
  inferInstanceAs (Decidable (_ ∧ _))

end World

end Simterpose
