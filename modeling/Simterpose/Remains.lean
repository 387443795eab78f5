import Simterpose.Bindings
import Simterpose.Release
import Simterpose.Tags
import Simterpose.Teardown

/-! # What a death leaves behind

`close_all_communication` closes the sockets of the dying process one after the other, so
a communication goes away with the process when that makes for a second close of it: the
process has both of its ends, or the last one, or the one that listens. Which
communications and sockets are left can therefore be said before the first one is closed,
whatever the order. What is left may name sockets that the process made.
-/

namespace Simterpose

open Lib

/-- What can happen to the tables: any call, or the death of a process whose descriptors are
    walked through in the given order. -/
inductive Deed where
  | call (call : TableCall)
  | die (proc : Pid) (fds : List Int)
  deriving Repr, DecidableEq

namespace Links

/-- A descriptor of the process belongs to an end of the communication. -/
def EndAt (l : Links) (proc : Pid) (k : CommId) (fd : Int) : Prop :=
  ∃ s, l.opened proc fd = some s ∧ l.network s ∧ l.comm s = some k

/-- The death of the process destroys the communication. -/
def Doomed (l : Links) (proc : Pid) (k : CommId) : Prop :=
  ∃ fd, l.EndAt proc k fd ∧
    (l.state k = .listening ∨ l.state k = .closed ∨ ∃ fd', fd' ≠ fd ∧ l.EndAt proc k fd')

/-- An `info` slot of the communication names the socket. -/
def Slot (l : Links) (k : CommId) (s : SockId) : Prop := l.info0 k = some s ∨ l.info1 k = some s

/-- Communications have a first end, and a second one unless they listen. -/
structure Slotted (l : Links) : Prop where
  first : ∀ {k}, k < l.nextComm → ∃ s, l.info0 k = some s
  second : ∀ {k}, k < l.nextComm → (l.info1 k = none ↔ l.state k = .listening)

namespace Slotted

variable {l l' : Links}

/-- A communication is made. -/
theorem grow (slotted : l.Slotted) (next : l'.nextComm = l.nextComm + 1)
    (old : ∀ k ≠ l.nextComm, l'.info0 k = l.info0 k ∧ l'.info1 k = l.info1 k ∧ l'.state k = l.state k)
    (first : ∃ s, l'.info0 l.nextComm = some s)
    (second : l'.info1 l.nextComm = none ↔ l'.state l.nextComm = .listening) : l'.Slotted := by
  constructor
  · intro k below
    by_cases new : k = l.nextComm
    · exact new ▸ first
    · rw [(old k new).1]
      exact slotted.first (by omega)
  · intro k below
    by_cases new : k = l.nextComm
    · exact new ▸ second
    · rw [(old k new).2.1, (old k new).2.2]
      exact slotted.second (by omega)

theorem listen (slotted : l.Slotted) (is : SockId) : (l.listen is).Slotted := by
  refine slotted.grow rfl (fun k other => ?_) ⟨is, ?_⟩ ?_
  all_goals simp [Links.listen, setState, commNew, *]

theorem ask (slotted : l.Slotted) (client listener : SockId) (m : CommId) :
    (l.ask client listener m).Slotted := by
  refine slotted.grow rfl (fun k other => ?_) ⟨client, ?_⟩ ?_
  all_goals simp [Links.ask, setInfo1, setConnWait, commNew, *]

theorem join (slotted : l.Slotted) (sound : l.Sound) (proc : Pid) (newfd : Int) (listener : SockId)
    {m k : CommId} {rest : List CommId} (queue : l.connWait m = k :: rest) :
    (l.join proc newfd listener m k rest).Slotted := by
  refine ⟨slotted.first, ?_⟩
  intro j below
  by_cases taken : j = k
  · have waits : l.state k ≠ .listening := sound.waitState (m := m) (by simp [queue])
    simp [Links.join, setComm, setInfo1, setConnWait, Links.register, Links.setOpened, taken, waits]
  · simpa [Links.join, setComm, setInfo1, setConnWait, Links.register, Links.setOpened, taken]
      using slotted.second below

theorem ofClose (slotted : l.Slotted) {proc : Pid} {fd : Int} (closed : l.Close proc fd l') :
    l'.Slotted := by
  cases closed with
  | noSocket | alone | listening | second => exact ⟨slotted.first, slotted.second⟩
  | @first is k _ _ _ notListening _ =>
      refine ⟨slotted.first, ?_⟩
      intro j below
      by_cases same : j = k
      · have second := slotted.second (same ▸ below)
        simp [Links.setOpened, setState, same, second, notListening]
      · simpa [Links.setOpened, setState, same] using slotted.second below

theorem step {H : Type} {label : Op × Event H} (slotted : l.Slotted) (sound : l.Sound)
    (step : l.Step label l') : l'.Slotted := by
  cases step with
  | quiet | socket | dup => exact ⟨slotted.first, slotted.second⟩
  | listen => exact slotted.listen _
  | ask => exact slotted.ask _ _ _
  | join _ _ _ queue _ => exact slotted.join sound _ _ _ queue
  | close closed => exact slotted.ofClose closed
  | dup2 closed =>
      have after := slotted.ofClose closed
      exact ⟨after.first, after.second⟩

/-- Whatever socket is closed, the close goes through. -/
theorem exists_close (slotted : l.Slotted) (sound : l.Sound) (is : SockId) :
    ∃ l' gone, l.CommClose is l' gone := by
  cases comm : l.comm is with
  | none => exact ⟨_, _, .detached comm⟩
  | some k =>
      have below := sound.commLt comm
      obtain ⟨s, first⟩ := slotted.first below
      by_cases listening : l.state k = .listening
      · exact ⟨_, _, .listening comm listening first⟩
      · by_cases closed : l.state k = .closed
        · obtain ⟨t, second⟩ := Option.ne_none_iff_exists'.mp (mt (slotted.second below).mp listening)
          exact ⟨_, _, .second comm closed first second⟩
        · exact ⟨_, _, .first comm listening closed⟩

end Slotted

/-! ## One descriptor of the process is closed -/

/-- What two stages of a death have in common. -/
structure Remains (proc : Pid) (l l' : Links) : Prop where
  slot : ∀ k s, l'.Slot k s ↔ l.Slot k s
  fewer : ∀ {k}, k ∈ l'.commList → k ∈ l.commList
  queue : ∀ {m}, m ∈ l'.commList → l'.connWait m = l.connWait m
  comms : ∀ k, k ∈ l'.commList ∧ ¬ l'.Doomed proc k ↔ k ∈ l.commList ∧ ¬ l.Doomed proc k
  sockets : ∀ s, (s ∈ l'.allSockets ∧ ∀ k, l'.Doomed proc k → ¬ l'.Slot k s) ↔
    s ∈ l.allSockets ∧ ∀ k, l.Doomed proc k → ¬ l.Slot k s

theorem Remains.refl (proc : Pid) (l : Links) : l.Remains proc l :=
  ⟨fun _ _ => Iff.rfl, id, fun _ => rfl, fun _ => Iff.rfl, fun _ => Iff.rfl⟩

theorem Remains.trans {proc : Pid} {l l' l'' : Links} (first : l.Remains proc l')
    (second : l'.Remains proc l'') : l.Remains proc l'' where
  slot k s := (second.slot k s).trans (first.slot k s)
  fewer member := first.fewer (second.fewer member)
  queue member := (second.queue member).trans (first.queue (second.fewer member))
  comms k := (second.comms k).trans (first.comms k)
  sockets s := (second.sockets s).trans (first.sockets s)

section

variable {l l' : Links} {proc : Pid} {fd : Int} {k : CommId}

/-- `l'` is `l` with one descriptor less. -/
structure Forgets (l : Links) (proc : Pid) (fd : Int) (l' : Links) : Prop where
  opened : l'.opened = (l.setOpened proc fd none).opened
  network : l'.network = l.network
  comm : l'.comm = l.comm
  slot : ∀ k s, l'.Slot k s ↔ l.Slot k s

theorem Forgets.endAt_iff (forgets : l.Forgets proc fd l') {fd' : Int} :
    l'.EndAt proc k fd' ↔ fd' ≠ fd ∧ l.EndAt proc k fd' := by
  unfold EndAt
  rw [forgets.opened, forgets.network, forgets.comm]
  by_cases same : fd' = fd
  · simp [Links.setOpened, same]
  · simp [Links.setOpened, same]

/-- Closing a descriptor that is no end of a communication. -/
theorem Forgets.doomed_of_other (forgets : l.Forgets proc fd l') (state : l'.state k = l.state k)
    (other : ¬ l.EndAt proc k fd) : l'.Doomed proc k ↔ l.Doomed proc k := by
  have same : ∀ fd', l'.EndAt proc k fd' ↔ l.EndAt proc k fd' := by
    intro fd'
    rw [forgets.endAt_iff, and_iff_right_iff_imp]
    rintro here rfl
    exact other here
  simp only [Doomed, same, state]

/-- The first close of a communication: who has another end still dooms it. -/
theorem Forgets.doomed_first (forgets : l.Forgets proc fd l') (here : l.EndAt proc k fd)
    (notListening : l.state k ≠ .listening) (notClosed : l.state k ≠ .closed)
    (closed : l'.state k = .closed) : l'.Doomed proc k ↔ l.Doomed proc k := by
  constructor
  · rintro ⟨fd', there, -⟩
    obtain ⟨other, there⟩ := forgets.endAt_iff.mp there
    exact ⟨fd, here, .inr (.inr ⟨fd', other, there⟩)⟩
  · rintro ⟨fd₁, first, listening | closed' | ⟨fd₂, apart, second⟩⟩
    · exact absurd listening notListening
    · exact absurd closed' notClosed
    · -- one of the two descriptors is not the one that is closed
      by_cases same : fd₁ = fd
      · subst same
        exact ⟨fd₂, forgets.endAt_iff.mpr ⟨apart, second⟩, .inr (.inl closed)⟩
      · exact ⟨fd₁, forgets.endAt_iff.mpr ⟨same, first⟩, .inr (.inl closed)⟩

theorem Forgets.remains (forgets : l.Forgets proc fd l') (all : l'.allSockets = l.allSockets)
    (list : l'.commList = l.commList) (queue : l'.connWait = l.connWait)
    (doomed : ∀ k, l'.Doomed proc k ↔ l.Doomed proc k) : l.Remains proc l' where
  slot := forgets.slot
  fewer member := list ▸ member
  queue _ := by rw [queue]
  comms k := by rw [list, doomed]
  sockets s := by simp only [all, doomed, forgets.slot]

theorem not_endAt {is : SockId} (here : l.opened proc fd = some is)
    (other : l.network is → l.comm is ≠ some k) : ¬ l.EndAt proc k fd := by
  rintro ⟨s, there, network, attached⟩
  cases Option.some.inj (here.symm.trans there)
  exact other network attached

/-- The last close of a communication takes it and its ends away. -/
theorem Forgets.destroys {is : SockId} (forgets : l.Forgets proc fd l') (distinct : l.commList.Nodup)
    (here : l.opened proc fd = some is) (network : l.network is) (comm : l.comm is = some k)
    (last : l.state k = .listening ∨ l.state k = .closed) (state : l'.state = l.state)
    (list : l'.commList = l.commList.erase k) (queue : ∀ {j}, j ≠ k → l'.connWait j = l.connWait j)
    (all : ∀ s, s ∈ l'.allSockets ↔ s ∈ l.allSockets ∧ ¬ l.Slot k s) : l.Remains proc l' := by
  have doomed : l.Doomed proc k := ⟨fd, ⟨is, here, network, comm⟩, last.imp_right .inl⟩
  have others : ∀ {j}, j ≠ k → (l'.Doomed proc j ↔ l.Doomed proc j) := fun other =>
    forgets.doomed_of_other (congrFun state _) (not_endAt here fun _ => by simpa [comm] using Ne.symm other)
  have listed : ∀ {j}, j ∈ l'.commList ↔ j ≠ k ∧ j ∈ l.commList := by
    rw [list]
    exact distinct.mem_erase_iff
  refine ⟨forgets.slot, fun member => (listed.mp member).2, fun member => queue (listed.mp member).1,
    fun j => ?_, fun s => ?_⟩
  · rw [listed]
    by_cases same : j = k
    · subst same
      simp [doomed]
    · simp [same, others same]
  · rw [all]
    constructor
    · rintro ⟨⟨member, outside⟩, spared⟩
      refine ⟨member, fun j dies slot => ?_⟩
      by_cases same : j = k
      · exact outside (same ▸ slot)
      · exact spared j ((others same).mpr dies) ((forgets.slot j s).mpr slot)
    · rintro ⟨member, spared⟩
      refine ⟨⟨member, spared k doomed⟩, fun j dies slot => ?_⟩
      rw [forgets.slot] at slot
      by_cases same : j = k
      · exact spared k doomed (same ▸ slot)
      · exact spared j ((others same).mp dies) slot

theorem Close.remains (closed : l.Close proc fd l') (live : l.Live) (slotted : l.Slotted) :
    l.Remains proc l' := by
  cases closed with
  | noSocket => exact .refl proc l
  | alone here detached =>
      have forgets : l.Forgets proc fd (l.setOpened proc fd none) := ⟨rfl, rfl, rfl, fun _ _ => Iff.rfl⟩
      refine forgets.remains rfl rfl rfl fun k => forgets.doomed_of_other rfl ?_
      exact not_endAt here fun network => by simp [detached network]
  | @first is k here network comm notListening notClosed =>
      have forgets : l.Forgets proc fd ((l.setState k .closed).setOpened proc fd none) :=
        ⟨rfl, rfl, rfl, fun _ _ => Iff.rfl⟩
      refine forgets.remains rfl rfl rfl fun j => ?_
      by_cases same : j = k
      · subst same
        exact forgets.doomed_first ⟨is, here, network, comm⟩ notListening notClosed
          (Function.update_self ..)
      · refine forgets.doomed_of_other (Function.update_of_ne same ..) ?_
        exact not_endAt here fun _ => by simpa [comm] using Ne.symm same
  | @listening is s k here network comm listening first =>
      have forgets : l.Forgets proc fd (((l.delete s).destroy k).setOpened proc fd none) :=
        ⟨rfl, rfl, rfl, fun _ _ => Iff.rfl⟩
      have second := (slotted.second (live.sound.commLt comm)).mpr listening
      refine forgets.destroys live.listNodup here network comm (.inl listening) rfl rfl
        (fun other => Function.update_of_ne other ..) fun x => ?_
      refine live.allNodup.mem_erase_iff.trans ?_
      simp [Links.Slot, first, second, and_comm, eq_comm]
  | @second is s t k here network comm closed first second =>
      have forgets : l.Forgets proc fd ((((l.delete s).delete t).destroy k).setOpened proc fd none) :=
        ⟨rfl, rfl, rfl, fun _ _ => Iff.rfl⟩
      refine forgets.destroys live.listNodup here network comm (.inr closed) rfl rfl
        (fun other => Function.update_of_ne other ..) fun x => ?_
      refine (live.allNodup.erase s).mem_erase_iff.trans ?_
      rw [live.allNodup.mem_erase_iff]
      simp only [Links.Slot, first, second, Option.some.injEq, not_or]
      constructor
      · rintro ⟨notT, notS, member⟩
        exact ⟨member, Ne.symm notS, Ne.symm notT⟩
      · rintro ⟨member, notS, notT⟩
        exact ⟨Ne.symm notT, Ne.symm notS, member⟩

end

end Links

section

variable {H : Type} [DecidableEq H] {v v' : Links × Ledger H} {proc : Pid} {fd : Int}

theorem Shut.slotted (shut : Shut proc fd v v') : v.1.Slotted → v'.1.Slotted :=
  shut.keeps (P := fun l l' => l.Slotted → l'.Slotted) (fun _ => id) fun closed slotted =>
    slotted.ofClose closed

/-- What all closings of a death together leave behind. -/
theorem Shuts.remains (shuts : Shuts proc v v') (live : v.1.Live) (slotted : v.1.Slotted) :
    v'.1.Live ∧ v'.1.Slotted ∧ v.1.Remains proc v'.1 := by
  induction shuts with
  | refl => exact ⟨live, slotted, .refl proc _⟩
  | tail _ shut ih =>
      obtain ⟨fd, shut⟩ := shut
      obtain ⟨live, slotted, remains⟩ := ih
      have kept := shut.keeps (P := fun l l' => l.Live → l'.Live) (fun _ => id) fun closed live =>
        live.ofClose closed
      have later := shut.keeps (P := fun l l' => l.Live → l.Slotted → l.Remains proc l')
        (fun l _ _ => .refl proc l) Links.Close.remains
      exact ⟨kept live, shut.slotted slotted, remains.trans (later live slotted)⟩

end

/-- Once nothing of the process is open, what was not doomed is what there is. -/
theorem Links.Remains.settle {proc : Pid} {l l' : Links} (remains : l.Remains proc l')
    (gone : ∀ fd, l'.opened proc fd = none) :
    (∀ k, k ∈ l'.commList ↔ k ∈ l.commList ∧ ¬ l.Doomed proc k) ∧
      ∀ s, s ∈ l'.allSockets ↔ s ∈ l.allSockets ∧ ∀ k, l.Doomed proc k → ¬ l.Slot k s := by
  have none_ : ∀ k, ¬ l'.Doomed proc k := by
    rintro k ⟨fd, ⟨s, here, -⟩, -⟩
    simp [gone] at here
  constructor
  · intro k
    rw [← remains.comms]
    simp [none_]
  · intro s
    rw [← remains.sockets]
    simp [none_]

namespace Ledger

variable {H : Type} {l : Ledger H} {lk : Links}

/-- A bound socket is listed and has the port it is bound to. -/
def Placed (l : Ledger H) : Prop :=
  ∀ host port desc s, l.desc host port = some desc → desc.bindSocket = some s →
    l.place s = (host, port) ∧ s ∈ l.allSockets

namespace Placed

theorem binds (placed : l.Placed) {host : H} {port : Nat} {desc : PortDesc} {s : SockId}
    (entry : l.desc host port = some desc) (bound : desc.bindSocket = some s) : l.Binds s :=
  ⟨desc, by rw [(placed _ _ _ _ entry bound).1]; exact entry, bound⟩

theorem enter (placed : l.Placed) {is : SockId} (fresh : is ∉ l.allSockets) (host : H) :
    (l.enter is host).Placed := by
  intro host' port desc s entry bound
  obtain ⟨place, listed⟩ := placed _ _ _ _ entry bound
  have other : s ≠ is := fun same => fresh (same ▸ listed)
  exact ⟨(Function.update_of_ne other ..).trans place, List.mem_append_left _ listed⟩

variable [DecidableEq H]

/-- A socket bound nowhere gets a port. -/
theorem take (placed : l.Placed) {is : SockId} (unbound : ¬ l.Binds is) (listed : is ∈ l.allSockets)
    {host : H} (home : (l.place is).1 = host) {port : Nat} {desc : PortDesc}
    (only : ∀ {s}, desc.bindSocket = some s →
      s = is ∨ ∃ old, l.desc host port = some old ∧ old.bindSocket = some s) :
    (l.take is host port desc).Placed := by
  have kept : ∀ {host' port' old s}, l.desc host' port' = some old → old.bindSocket = some s →
      (l.take is host port desc).place s = (host', port') ∧ s ∈ l.allSockets := by
    intro host' port' old s entry bound
    obtain ⟨place, listed⟩ := placed _ _ _ _ entry bound
    have other : s ≠ is := by
      rintro rfl
      exact unbound (placed.binds entry bound)
    exact ⟨(Function.update_of_ne other ..).trans place, listed⟩
  intro host' port' desc' s entry bound
  have entries : (l.take is host port desc).desc host' port' =
      if host' = host ∧ port' = port then some desc else l.desc host' port' := rfl
  rw [entries] at entry
  split at entry
  · rename_i here
    cases entry
    rw [here.1, here.2]
    rcases only bound with rfl | ⟨old, before, bound⟩
    · refine ⟨?_, listed⟩
      simp [Ledger.take, put, move, home]
    · exact kept before bound
  · exact kept entry bound

theorem release (placed : l.Placed) (is : SockId) : (l.release is).Placed := by
  have listed : ∀ {s}, s ≠ is → s ∈ l.allSockets → s ∈ (l.release is).allSockets :=
    fun other member => (List.mem_erase_of_ne other).mpr member
  intro host port desc s entry bound
  rw [desc_release] at entry
  split at entry
  · rename_i here
    obtain ⟨old, before, left⟩ := Option.bind_eq_some_iff.mp entry
    obtain ⟨bound, other⟩ := PortDesc.bindSocket_unset left bound
    obtain ⟨place, member⟩ := placed _ _ _ _ before bound
    exact ⟨by rw [here.1, here.2]; exact place, listed other member⟩
  · rename_i elsewhere
    obtain ⟨place, member⟩ := placed _ _ _ _ entry bound
    refine ⟨place, listed ?_ member⟩
    rintro rfl
    exact elsewhere ⟨by rw [place], by rw [place]⟩

theorem releaseAll (placed : l.Placed) (gone : List SockId) : (l.releaseAll gone).Placed := by
  induction gone generalizing l with
  | nil => exact placed
  | cons is gone ih => exact ih (placed.release is)

theorem step {label : Op × Event H} {l' : Ledger H} (placed : l.Placed) (live : lk.Live)
    (agree : lk.allSockets = l.allSockets) (atHome : l.AtHome lk)
    (unbound : ∀ is, label.2.takesPort = some is → ¬ l.Binds is) (step : l.Step lk label l') :
    l'.Placed := by
  have fresh : lk.nextSocket ∉ l.allSockets := by
    rw [← agree]
    exact fun member => Nat.lt_irrefl _ (live.allLt member)
  have listed : ∀ {proc fd is}, lk.opened proc fd = some is → lk.network is → is ∈ l.allSockets := by
    intro proc fd is here network
    rw [← agree]
    exact live.listed here network
  cases step with
  | quiet => exact placed
  | socket => exact placed.enter fresh _
  | bind here network unused =>
      refine placed.take (unbound _ rfl) (listed here network) (atHome _ _ _ here) ?_
      rintro s ⟨⟩
      exact .inl rfl
  | connect here network unused =>
      refine placed.take (unbound _ rfl) (listed here network) (atHome _ _ _ here) ?_
      rintro s ⟨⟩
  | accept same =>
      subst same
      refine (placed.enter fresh _).take ?_ (List.mem_append_right _ (List.mem_singleton_self _)) ?_ ?_
      · rintro ⟨desc, entry, bound⟩
        exact fresh (placed _ _ _ _ entry bound).2
      · simp [Ledger.enter]
      · intro s bound
        exact .inr (PortDesc.bindSocket_register.mp bound)
  | close => exact placed.releaseAll _

end Placed

end Ledger

/-- Deaths move no port and no process. -/
theorem Shuts.ledger {H : Type} [DecidableEq H] {proc : Pid} {v v' : Links × Ledger H} (shuts : Shuts proc v v')
    (placed : v.2.Placed) :
    v'.2.Placed ∧ v'.2.place = v.2.place ∧ v'.2.home = v.2.home := by
  induction shuts with
  | refl => exact ⟨placed, rfl, rfl⟩
  | tail _ shut ih =>
      obtain ⟨_, shut⟩ := shut
      obtain ⟨placed, place, home⟩ := ih
      cases shut with
      | idle | alone => exact ⟨placed, place, home⟩
      | @comm _ _ d _ gone =>
          obtain ⟨samePlace, sameHome⟩ := d.place_releaseAll gone
          exact ⟨placed.releaseAll gone, samePlace.trans place, sameHome.trans home⟩

namespace World

variable {H : Type} [DecidableEq H] {w w' w₀ : World H}

/-! ## A death goes through -/

theorem exists_socketClose (sound : w.links.Sound) (slotted : w.links.Slotted) (proc : Pid) (fd : Int) :
    ∃ w', w.socketClose proc fd = .ok w' := by
  unfold socketClose
  split
  · exact ⟨_, rfl⟩
  · rename_i is _
    have counted : ((w.addRefcount (.socket is) (-1)).addRefNb is (-1)).links = w.links := by simp
    obtain ⟨l', gone, closing⟩ := slotted.exists_close sound is
    rw [← counted] at closing
    obtain ⟨w₁, closed, -⟩ := exists_commClose closing
    have detached : ∃ w₂,
        ((w.addRefcount (.socket is) (-1)).addRefNb is (-1)).detachSocket proc fd is = .ok w₂ := by
      unfold detachSocket
      split
      · exact ⟨w₁, closed⟩
      · exact ⟨_, rfl⟩
    obtain ⟨w₂, detached⟩ := detached
    exact ⟨_, bind_eq_ok.mpr ⟨w₂, detached, rfl⟩⟩

omit [DecidableEq H] in
theorem SameFiles.shrinks (same : w.SameFiles w') : w.Shrinks w' where
  tag := same.tag
  stored := congrArg Heap.next same.descs
  sockets := same.made
  made := congrArg Heap.next same.pipes
  left q g ref found := ⟨q, g, by simpa only [processDescriptorGetFd, same.procs] using found⟩

omit [DecidableEq H] in
theorem shrinks_setFd (w : World H) (proc : Pid) (fd : Int) :
    w.Shrinks (w.processDescriptorSetFd proc fd none) := by
  refine ⟨tag_setFd .., rfl, rfl, rfl, fun q g ref found => ⟨q, g, ?_⟩⟩
  rw [getFd_setFd] at found
  split at found
  · cases found
  · exact found

omit [DecidableEq H] in
theorem shrinks_addRefcount (w : World H) (ref : DescRef) (n : Int) :
    w.Shrinks (w.addRefcount ref n) := by
  have same := w.sameTags_addRefcount ref n
  exact ⟨same.tag, same.stored, same.made, congrArg Heap.next same.pipes,
    fun q g _ found => ⟨q, g, by rwa [same.getFd] at found⟩⟩

omit [DecidableEq H] in
theorem shrinks_freeDesc (w : World H) (ref : DescRef) : w.Shrinks (w.freeDesc ref) := by
  cases ref <;> exact ⟨rfl, rfl, rfl, rfl, fun q g _ found => ⟨q, g, found⟩⟩

theorem socketClose_shrinks {proc : Pid} {fd : Int} (done : w.socketClose proc fd = .ok w') :
    w.Shrinks w' := by
  cases found : w.getInfosSocket proc fd with
  | none =>
      simp only [socketClose, found] at done
      cases done
      exact .refl _
  | some is =>
      have counted := (w.shrinks_addRefcount (.socket is) (-1)).trans
        (sameFiles_addRefNb _ is (-1)).shrinks
      obtain ⟨w₁, rfl, ⟨-, rfl⟩ | ⟨-, closed⟩⟩ :=
        socketClose_ok ((getInfosSocket_eq_some _).mp found) done
      · exact counted.trans ((shrinks_freeDesc _ (.socket is)).trans (shrinks_setFd ..))
      · exact counted.trans ((sameFiles_commClose closed).shrinks.trans (shrinks_setFd ..))

theorem closeCommunication_shrinks {proc : Pid} {fd : Int} {emptied : RecvInformation H}
    (done : w.closeCommunication proc fd = .ok (w', emptied)) : w.Shrinks w' := by
  rcases closeCommunication_ok done with ⟨rfl, -⟩ | ⟨is, recv, -, -, -, closed⟩
  · exact .refl _
  · exact (w.sameFiles_modifyRecv recv _).shrinks.trans (socketClose_shrinks closed)

theorem processDie_shrinks {proc : Pid} {fds : List Int} {emptied : List (RecvInformation H)}
    (done : w.processDie proc fds = .ok (w', emptied)) : w.Shrinks w' := by
  have closed : ∀ {fds : List Int} {v v' : World H} {records},
      closeAllCommunication proc fds v = .ok (v', records) → v.Shrinks v' := by
    intro fds
    induction fds with
    | nil =>
        intro v v' records done
        cases done
        exact .refl _
    | cons fd fds ih =>
        intro v v' records done
        obtain ⟨⟨v₁, one⟩, first, done⟩ := bind_eq_ok.mp done
        obtain ⟨⟨v₂, others⟩, rest, ⟨⟩⟩ := bind_pure_eq_ok.mp done
        exact (closeCommunication_shrinks first).trans (ih rest)
  have destroyed : ∀ (fds : List Int) (v : World H),
      v.Shrinks (fds.foldl (fun v fd => v.destroyDesc proc fd) v) := by
    intro fds
    induction fds with
    | nil => exact fun v => .refl v
    | cons fd fds ih =>
        intro v
        refine Shrinks.trans ?_ (ih (v.destroyDesc proc fd))
        unfold destroyDesc
        split
        · exact .refl v
        · exact (shrinks_addRefcount ..).trans (shrinks_freeDesc ..)
  have emptied : ∀ v : World H, v.Shrinks
      { v with procs := Function.update v.procs proc { v.procs proc with fdMap := ∅ } } := by
    refine fun v => ⟨rfl, rfl, rfl, rfl, fun q g ref found => ⟨q, g, ?_⟩⟩
    by_cases same : q = proc
    · subst same
      simp [processDescriptorGetFd] at found
    · simpa [processDescriptorGetFd, same] using found
  obtain ⟨⟨w₁, records⟩, all, ⟨⟩⟩ := bind_pure_eq_ok.mp done
  exact (closed all).trans ((destroyed fds w₁).trans (emptied _))

omit [DecidableEq H] in
theorem castsPlain_of_castable (castable : w.Castable) (proc : Pid) (fd : Int) :
    w.castsPlain proc fd = false := by
  unfold castsPlain
  split
  · rename_i d found
    by_contra typed
    obtain ⟨is, wrong⟩ := castable proc fd _ found (by simpa [tag] using typed)
    cases wrong
  · rfl

theorem exists_closeAllCommunication (sound : w.links.Sound) (slotted : w.links.Slotted)
    (castable : w.Castable) (proc : Pid) (fds : List Int) :
    ∃ r, closeAllCommunication proc fds w = .ok r := by
  induction fds generalizing w with
  | nil => exact ⟨_, rfl⟩
  | cons fd fds ih =>
      have one : ∃ r, w.closeCommunication proc fd = .ok r := by
        rw [closeCommunication, castsPlain_of_castable castable, if_neg Bool.false_ne_true]
        split
        · exact ⟨_, rfl⟩
        · split
          · exact ⟨_, rfl⟩
          · rename_i recv _
            have same := w.links_modifyRecv recv fun _ => {}
            obtain ⟨w₁, closed⟩ := exists_socketClose (w := w.modifyRecv recv fun _ => {})
              (by rwa [same]) (by rwa [same]) proc fd
            exact ⟨_, bind_eq_ok.mpr ⟨w₁, closed, rfl⟩⟩
      obtain ⟨⟨w₁, emptied⟩, first⟩ := one
      have shut := (closeCommunication_shut first).1
      obtain ⟨r, rest⟩ := ih (shut.sound sound) (shut.slotted slotted)
        ((closeCommunication_shrinks first).castable castable)
      exact ⟨_, bind_eq_ok.mpr ⟨_, first, bind_eq_ok.mpr ⟨r, rest, rfl⟩⟩⟩

theorem exists_die (sound : w.links.Sound) (slotted : w.links.Slotted) (castable : w.Castable)
    {proc : Pid} {fds : List Int} (walk : fds.Perm (w.procs proc).fdMap.keys) :
    ∃ w', w.Acts (.die proc fds, .silent) w' := by
  obtain ⟨r, closed⟩ := exists_closeAllCommunication sound slotted castable proc fds
  exact ⟨_, walk, bind_eq_ok.mpr ⟨_, bind_eq_ok.mpr ⟨r, closed, rfl⟩, rfl⟩⟩

/-! ## Runs -/

def deed (w : World H) : Deed → Result (World H × Event H)
  | .call (.call op) => w.step op
  | .call call => do
      let w' ← w.tableCall call
      return (w', .silent)
  | .die proc fds => w.act (.die proc fds)

/-- A walk visits every descriptor of the process once. -/
def Visits (w : World H) : Deed → Prop
  | .call _ => True
  | .die proc fds => fds.Perm (w.procs proc).fdMap.keys

instance (w : World H) : (deed : Deed) → Decidable (w.Visits deed)
  | .call _ => .isTrue trivial
  | .die proc fds => inferInstanceAs (Decidable (fds.Perm (w.procs proc).fdMap.keys))

/-- One labelled step of calls of any kind and deaths, with new objects at addresses never used
    before. -/
def Deeds (w : World H) (label : Deed × Event H) (w' : World H) : Prop :=
  w.Visits label.1 ∧ w.deed label.1 = .ok (w', label.2)

theorem Deeds.cases {deed : Deed} {event : Event H} (deeds : w.Deeds (deed, event) w') :
    (∃ op, deed = .call (.call op) ∧ w.Step (op, event) w') ∨
      (∃ call, deed = .call call ∧ (∀ op, call ≠ .call op) ∧ w.TableStep call w') ∨
      ∃ proc fds, deed = .die proc fds ∧ w.Acts (.die proc fds, event) w' := by
  obtain ⟨visits, done⟩ := deeds
  cases deed with
  | die proc fds => exact .inr (.inr ⟨proc, fds, rfl, visits, done⟩)
  | call call =>
      have other : ∀ {call : TableCall}, (do
          let w' ← w.tableCall call
          return (w', Event.silent) : Result (World H × Event H)) = .ok (w', event) →
          w.TableStep call w' := by
        intro call done
        obtain ⟨w₁, stepped, ⟨⟩⟩ := bind_pure_eq_ok.mp done
        exact stepped
      cases call with
      | call op => exact .inl ⟨op, rfl, done⟩
      | openFile | creat | pipe | fcntl | clone =>
          exact .inr (.inl ⟨_, rfl, by simp, other done⟩)

/-- What holds of the tables as long as no socket gets a second descriptor and no bound socket
    gets another port. -/
structure Traceable (w : World H) : Prop where
  live : w.links.Live
  slotted : w.links.Slotted
  owned : ∀ {proc fd s}, w.links.opened proc fd = some s → w.owner s = proc
  atHome : w.ledger.AtHome w.links
  placed : w.ledger.Placed

/-- No socket gets a second descriptor and no bound socket gets another port. -/
def PortKept (w : World H) (label : Deed × Event H) : Prop :=
  (∀ call, label.1 = .call call → w.SharesNoSocket call) ∧ ∀ is ∈ label.2.takesPort, ¬ w.Binds is

/-- The first part, decided. -/
def sharesNothing (w : World H) : Deed → Bool
  | .call call => w.SharesNoSocket call
  | .die _ _ => true

instance (w : World H) (label : Deed × Event H) : Decidable (w.PortKept label) :=
  decidable_of_iff (w.sharesNothing label.1 = true ∧ ∀ is ∈ label.2.takesPort, ¬ w.Binds is) (by
    obtain ⟨deed, event⟩ := label
    cases deed <;> simp [PortKept, sharesNothing])

omit [DecidableEq H] in
theorem Traceable.overwrites (traceable : w.Traceable) (overwrites : w.Overwrites w') :
    w'.Traceable where
  live := overwrites.live traceable.live
  slotted := by
    rw [overwrites.links]
    exact ⟨traceable.slotted.first, traceable.slotted.second⟩
  owned here := overwrites.owner ▸ traceable.owned (overwrites.opened here)
  atHome := by
    intro proc fd s here
    have place : w'.ledger.place = w.ledger.place := by rw [overwrites.ledger]
    rw [place, overwrites.home here]
    exact traceable.atHome proc fd s (overwrites.opened here)
  placed := by
    rw [overwrites.ledger]
    exact traceable.placed

/-- Closing descriptors, one after the other. -/
theorem Traceable.shuts {proc : Pid} (traceable : w.Traceable) (shuts : Shuts proc w.views w'.views)
    (owner : w'.owner = w.owner) : w'.Traceable := by
  obtain ⟨live, slotted, -⟩ := shuts.remains traceable.live traceable.slotted
  obtain ⟨placed, place, home⟩ := shuts.ledger traceable.placed
  have opened : ∀ {proc fd s}, w'.links.opened proc fd = some s → w.links.opened proc fd = some s :=
    (Shut.all shuts).1
  exact
    { live, slotted, placed
      owned := fun here => owner ▸ traceable.owned (opened here)
      atHome := by
        intro proc' fd s here
        have before := traceable.atHome proc' fd s (opened here)
        exact (congrArg Prod.fst (congrFun place s)).trans (before.trans (congrFun home proc').symm) }

theorem closeTarget_shut {proc : Pid} {newfd : Int} (done : w.closeTarget proc newfd = .ok w') :
    Shut proc newfd w.views w'.views := by
  unfold closeTarget at done
  split at done
  · rename_i ref _
    have shut := processCloseCall_shut done
    rwa [views, links_addRefcount, ledger_addRefcount] at shut
  · cases done
    exact .idle _

theorem Traceable.call {op : Op} {event : Event H} (traceable : w.Traceable)
    (kept : w.PortKept (.call (.call op), event)) (step : w.Step (op, event) w') : w'.Traceable := by
  have effect := step.effect_of_sound traceable.live.sound
  have unshared := kept.1 _ rfl
  -- what is duplicated is a plain record
  have plain : ∀ {proc fd ref}, w.NoTag .socket proc fd →
      w.processDescriptorGetFd proc fd = some ref → ∃ d, ref = .plain d := by
    intro proc fd ref noTag found
    cases ref with
    | plain d => exact ⟨d, rfl⟩
    | socket is => exact absurd (w.tag_socket is) (noTag _ found)
  have counted : ∀ d, w.Overwrites (w.addRefcount (.plain d) 1) := fun _ => .of_views rfl rfl rfl
  have entered : ∀ (v : World H) (proc : Pid) (fd : Int) (d : DescId) (pipes : Heap Pipe), v.Overwrites
      { v.processDescriptorSetFd proc fd (some (.plain d)) with pipes := pipes } := fun v proc fd d _ =>
    (v.overwrites_setFd proc fd d).trans (.of_views rfl rfl rfl)
  by_cases single : op.duplicates = false
  · have ledger := effect.ledger traceable.live.releasesListed single
    exact
      { live := traceable.live.step single effect.links
        slotted := traceable.slotted.step traceable.live.sound effect.links
        owned := effect.owned traceable.live.sound traceable.owned
        atHome := effect.atHome traceable.live.fresh.opened single traceable.atHome
        placed := traceable.placed.step traceable.live rfl traceable.atHome
          (fun is takes binds => kept.2 is takes ((w.binds_iff is).mpr binds)) ledger }
  · cases effect with
    | quiet => exact traceable
    | @dup proc oldfd newfd ref pipes found =>
        obtain ⟨d, rfl⟩ := plain unshared found
        exact traceable.overwrites ((counted d).trans (entered _ proc newfd d pipes))
    | @dup2 proc oldfd newfd ref w₁ pipes found closed =>
        obtain ⟨d, rfl⟩ := plain unshared found
        have shut : Shuts proc (w.addRefcount (.plain d) 1).views w₁.views :=
          .single ⟨newfd, closeTarget_shut closed⟩
        have before := (traceable.overwrites (counted d)).shuts shut
          ((owner_closeTarget closed).trans (w.owner_addRefcount _ 1).symm)
        exact before.overwrites (entered w₁ proc newfd d pipes)
    | socket | bind | listen | connect | accept | send | close => exact absurd rfl single

theorem Traceable.die {proc : Pid} {fds : List Int} {event : Event H} (traceable : w.Traceable)
    (dies : w.Acts (.die proc fds, event) w') : w'.Traceable := by
  obtain ⟨-, walk, emptied, died⟩ := dies.die
  exact traceable.shuts (processDie_shuts walk died).1 (owner_processDie died)

theorem Initial.traceable (initial : w.Initial) : w.Traceable where
  live := initial.live
  slotted := by
    have none_ : w.links.nextComm = 0 := initial.noComm
    constructor <;> (intro k below; omega)
  owned := by
    intro proc fd s here
    rw [← getInfosSocket_eq_opened, getInfosSocket_eq_some] at here
    exact absurd here (initial.noDescriptor proc fd s)
  atHome := initial.accounted.atHome
  placed := by
    intro host port desc s entry
    simp [World.ledger, portDesc, initial.ports] at entry

theorem traceable_of_run {es : List (Deed × Event H)} (initial : w₀.Initial)
    (allocated : w₀.Allocated) (castable : w₀.Castable) (run : Run (Guarded PortKept Deeds) w₀ es w) :
    w.Traceable ∧ w.Allocated ∧ w.Castable := by
  refine run.invariant (fun w => w.Traceable ∧ w.Allocated ∧ w.Castable)
    ⟨initial.traceable, allocated, castable⟩ ?_
  rintro w ⟨deed, event⟩ w' ⟨traceable, allocated, castable⟩ ⟨kept, deeds⟩
  rcases deeds.cases with ⟨op, rfl, step⟩ | ⟨call, rfl, other, step⟩ | ⟨proc, fds, rfl, dies⟩
  · have stepped : w.TableStep (.call op) w' := tableStep_call.mpr ⟨event, step⟩
    exact ⟨traceable.call kept step, stepped.allocated allocated,
      stepped.castable allocated castable (kept.1 _ rfl)⟩
  · exact ⟨traceable.overwrites (step.overwrites other), step.allocated allocated,
      step.castable allocated castable (kept.1 _ rfl)⟩
  · obtain ⟨-, -, emptied, died⟩ := dies.die
    have shrinks := processDie_shrinks died
    exact ⟨traceable.die dies, shrinks.allocated allocated, shrinks.castable castable⟩

/-! ## Traces -/

section

variable {H : Type} (w w' : World H) (proc : Pid)

/-- Where the tables may mention a socket. -/
inductive Mentions (s : SockId) : Prop where
  | listed : s ∈ w.allSockets → Mentions s
  | slot {k} : k ∈ w.commList → w.links.Slot k s → Mentions s
  | queued {m k} : m ∈ w.commList → k ∈ (w.comm m).connWait → w.links.Slot k s → Mentions s
  | bound {host port desc} : w.portDesc host port = some desc → desc.bindSocket = some s → Mentions s

/-- The other end of a connection of the socket is open. -/
def PeerOpen (s : SockId) : Prop :=
  ∃ k ∈ w.commList, ∃ t, w.links.Open t ∧
    (w.links.info0 k = some s ∧ w.links.info1 k = some t ∨
      w.links.info0 k = some t ∧ w.links.info1 k = some s)

/-- After the death of the process the tables mention no socket that refers to it, nor one that
    it had a descriptor of, unless the peer is open. -/
def NoTrace : Prop :=
  ∀ s, w'.Mentions s → (w'.socket s).fd.proc ≠ proc ∧
    ∀ fd, w.getInfosSocket proc fd = some s → w'.PeerOpen s

/-- Whatever mentions a socket that the process made goes away with the process. -/
structure Clean : Prop where
  sockets : ∀ s ∈ w.allSockets, (w.socket s).fd.proc = proc →
    ∃ k, w.links.Doomed proc k ∧ w.links.Slot k s
  comms : ∀ k ∈ w.commList, ∀ s, w.links.Slot k s → (w.socket s).fd.proc = proc →
    w.links.Doomed proc k
  queues : ∀ m ∈ w.commList, ∀ k ∈ (w.comm m).connWait, ∀ s, w.links.Slot k s →
    (w.socket s).fd.proc = proc → w.links.Doomed proc m

end

theorem Traceable.noTrace_iff {proc : Pid} {fds : List Int} (traceable : w.Traceable)
    (dies : w.Acts (.die proc fds, .silent) w') : w.NoTrace w' proc ↔ w.Clean proc := by
  obtain ⟨-, walk, emptied, died⟩ := dies.die
  obtain ⟨shuts, gone⟩ := processDie_shuts walk died
  have remains : w.links.Remains proc w'.links :=
    (shuts.remains traceable.live traceable.slotted).2.2
  obtain ⟨comms, sockets⟩ := remains.settle gone
  have owner : ∀ s, (w'.socket s).fd.proc = (w.socket s).fd.proc := congrFun (owner_processDie died)
  have queue : ∀ {m}, m ∈ w'.commList → (w'.comm m).connWait = (w.comm m).connWait := remains.queue
  constructor
  · intro noTrace
    have apart : ∀ {s}, w'.Mentions s → (w.socket s).fd.proc ≠ proc :=
      fun mentions => owner _ ▸ (noTrace _ mentions).1
    refine ⟨fun s listed made => ?_, fun k listed s slot made => ?_, fun m listed k waits s slot made => ?_⟩
    · by_contra spared
      have left := (sockets s).mpr ⟨listed, fun k doomed slot => spared ⟨k, doomed, slot⟩⟩
      exact apart (.listed left) made
    · by_contra spared
      have left := (comms k).mpr ⟨listed, spared⟩
      exact apart (.slot left ((remains.slot k s).mpr slot)) made
    · by_contra spared
      have left := (comms m).mpr ⟨listed, spared⟩
      exact apart (.queued left (by rw [queue left]; exact waits) ((remains.slot k s).mpr slot)) made
  · intro clean
    have unlisted : ∀ {s}, s ∈ w'.allSockets → (w.socket s).fd.proc ≠ proc := by
      intro s left made
      obtain ⟨listed, spared⟩ := (sockets s).mp left
      obtain ⟨k, doomed, slot⟩ := clean.sockets s listed made
      exact spared k doomed slot
    have apart : ∀ {s}, w'.Mentions s → (w.socket s).fd.proc ≠ proc := by
      rintro s (left | ⟨left, slot⟩ | ⟨left, waits, slot⟩ | ⟨entry, bound⟩) made
      · exact unlisted left made
      · obtain ⟨listed, spared⟩ := (comms _).mp left
        exact spared (clean.comms _ listed s ((remains.slot _ s).mp slot) made)
      · obtain ⟨listed, spared⟩ := (comms _).mp left
        rw [queue left] at waits
        exact spared (clean.queues _ listed _ waits s ((remains.slot _ s).mp slot) made)
      · -- who is bound is listed
        exact unlisted ((traceable.die dies).placed _ _ _ s entry bound).2 made
    intro s mentions
    refine ⟨owner s ▸ apart mentions, fun fd here => ?_⟩
    rw [getInfosSocket_eq_opened] at here
    exact absurd (traceable.owned here) (apart mentions)

/-- What can be computed of some deeds and their outcomes holds after some run. -/
theorem exists_deeds (guard : World H → Deed × Event H → Prop) [∀ w label, Decidable (guard w label)]
    (w₀ : World H) (deeds : List Deed) {P : List (Deed × Event H) → World H → Prop}
    (found : ∃ r ∈ perform (fun w deed => if w.Visits deed then (w.deed deed).toOption.map fun r =>
      ((deed, r.2), r.1) else none) guard w₀ deeds, P r.1 r.2) :
    ∃ es w, Run (Guarded guard Deeds) w₀ es w ∧ P es w := by
  apply Run.exists_of_results_if _ found
  intro w deed outcome visits stepped
  exact ⟨visits, stepped⟩

end World

end Simterpose
