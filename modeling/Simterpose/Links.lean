import Simterpose.Effects

/-! # Who is connected to whom

The part of the tables that decides which sockets and communications belong together:
descriptors, the two `info` slots, the queues and the two global lists. Ports,
counters, streams and messages are left out. Each primitive of the code acts on this
part as one small operation or not at all, and every call acts as one of the
transitions of `Links.Step`, which says all that a call can do to it.
-/

namespace Simterpose

open Lib

structure Links where
  opened : Pid → Int → Option SockId
  network : SockId → Prop
  comm : SockId → Option CommId
  info0 : CommId → Option SockId
  info1 : CommId → Option SockId
  state : CommId → CommState
  connWait : CommId → List CommId
  allSockets : List SockId
  commList : List CommId
  nextSocket : Nat
  nextComm : Nat

namespace Links

variable (l : Links)

/-- Let a descriptor refer to a socket, or to none. -/
def setOpened (proc : Pid) (fd : Int) (is : Option SockId) : Links :=
  { l with opened := fun proc' fd' => if proc' = proc ∧ fd' = fd then is else l.opened proc' fd' }

@[simp] theorem setOpened_setOpened (proc : Pid) (fd : Int) (is is' : Option SockId) :
    (l.setOpened proc fd is).setOpened proc fd is' = l.setOpened proc fd is' := by
  simp only [setOpened]
  congr 1
  funext proc' fd'
  split <;> rfl

/-- Setting a descriptor to what it refers to already. -/
theorem setOpened_self {proc : Pid} {fd : Int} {is : Option SockId} (same : l.opened proc fd = is) :
    l.setOpened proc fd is = l := by
  have opened : (fun proc' fd' => if proc' = proc ∧ fd' = fd then is else l.opened proc' fd') =
      l.opened := by
    funext proc' fd'
    split
    · rename_i here
      rw [here.1, here.2, same]
    · rfl
  simp only [setOpened, opened]

def register (proc : Pid) (fd : Int) (network : Prop) : Links :=
  { l.setOpened proc fd (some l.nextSocket) with
    network := Function.update l.network l.nextSocket network
    comm := Function.update l.comm l.nextSocket none
    allSockets := l.allSockets ++ [l.nextSocket]
    nextSocket := l.nextSocket + 1 }

def commNew (is : SockId) : Links :=
  { l with
    comm := Function.update l.comm is (some l.nextComm)
    info0 := Function.update l.info0 l.nextComm (some is)
    info1 := Function.update l.info1 l.nextComm none
    state := Function.update l.state l.nextComm .opened
    connWait := Function.update l.connWait l.nextComm []
    commList := l.commList ++ [l.nextComm]
    nextComm := l.nextComm + 1 }

def setState (k : CommId) (s : CommState) : Links := { l with state := Function.update l.state k s }

def setConnWait (k : CommId) (q : List CommId) : Links :=
  { l with connWait := Function.update l.connWait k q }

def setInfo1 (k : CommId) (is : SockId) : Links :=
  { l with info1 := Function.update l.info1 k (some is) }

def setComm (is : SockId) (k : CommId) : Links :=
  { l with comm := Function.update l.comm is (some k) }

def delete (is : SockId) : Links := { l with allSockets := l.allSockets.erase is }

def destroy (k : CommId) : Links := { l.setConnWait k [] with commList := l.commList.erase k }

/-- A socket starts to listen. -/
def listen (is : SockId) : Links := (l.commNew is).setState l.nextComm .listening

/-- A client's new communication enters the queue of `m`. -/
def ask (client listener : SockId) (m : CommId) : Links :=
  let l' := l.commNew client
  (l'.setConnWait m (l'.connWait m ++ [l.nextComm])).setInfo1 l.nextComm listener

/-- The socket made by an accept takes over the communication at the head of the queue. -/
def join (proc : Pid) (fd : Int) (listener : SockId) (m k : CommId) (rest : List CommId) : Links :=
  (((l.register proc fd (l.network listener)).setConnWait m rest).setInfo1 k l.nextSocket).setComm
    l.nextSocket k

section

variable {l}

theorem connWait_listen (is : SockId) (m : CommId) :
    (l.listen is).connWait m = if m = l.nextComm then [] else l.connWait m := by
  simp [listen, setState, commNew, Function.update_apply]

/-- The queue asked on belongs to a communication that is there already. -/
theorem connWait_ask (client listener : SockId) {m : CommId} (old : m ≠ l.nextComm) (m' : CommId) :
    (l.ask client listener m).connWait m' =
      if m' = m then l.connWait m ++ [l.nextComm]
      else if m' = l.nextComm then [] else l.connWait m' := by
  simp [ask, setInfo1, setConnWait, commNew, Function.update_apply, old]

/-- A request puts its own communication into the queue asked on, and none into another queue. -/
theorem mem_connWait_of_ask {client listener : SockId} {m : CommId} (old : m ≠ l.nextComm)
    {k m' : CommId} (waiting : k ∈ (l.ask client listener m).connWait m') :
    k ∈ l.connWait m' ∧ m' ≠ l.nextComm ∨ k = l.nextComm ∧ m' = m := by
  rw [connWait_ask _ _ old] at waiting
  split at waiting
  · rename_i same
    rcases List.mem_append.mp waiting with before | new
    · exact .inl ⟨same ▸ before, same ▸ old⟩
    · exact .inr ⟨List.mem_singleton.mp new, same⟩
  · split at waiting
    · cases waiting
    · exact .inl ⟨waiting, ‹_›⟩

theorem connWait_join (proc : Pid) (fd : Int) (listener : SockId) (m k : CommId) (rest : List CommId)
    (m' : CommId) :
    (l.join proc fd listener m k rest).connWait m' = if m' = m then rest else l.connWait m' := by
  simp only [join, setComm, setInfo1, setConnWait, Function.update_apply]
  rfl

theorem comm_join (proc : Pid) (fd : Int) (listener : SockId) (m k : CommId) (rest : List CommId)
    (s : SockId) :
    (l.join proc fd listener m k rest).comm s = if s = l.nextSocket then some k else l.comm s := by
  simp only [join, setComm, setInfo1, setConnWait, register, Function.update_apply]
  split <;> simp_all

/-- An accept puts nobody into a queue. -/
theorem mem_connWait_of_join {proc : Pid} {fd : Int} {listener : SockId} {m k : CommId}
    {rest : List CommId} (queue : l.connWait m = k :: rest) {j m' : CommId}
    (waiting : j ∈ (l.join proc fd listener m k rest).connWait m') : j ∈ l.connWait m' := by
  rw [connWait_join] at waiting
  split at waiting
  · rename_i same
    rw [same, queue]
    exact List.mem_cons_of_mem _ waiting
  · exact waiting

/-- Removing a communication puts nobody into a queue. -/
theorem mem_connWait_of_destroy {k j m : CommId} (waiting : j ∈ (l.destroy k).connWait m) :
    j ∈ l.connWait m := by
  simp only [destroy, setConnWait, Function.update_apply] at waiting
  split at waiting
  · simp at waiting
  · exact waiting

end

/-- What closing a descriptor does. -/
inductive Close (l : Links) (proc : Pid) (fd : Int) : Links → Prop where
  | noSocket : l.opened proc fd = none → Close l proc fd l
  | alone {is} : l.opened proc fd = some is → (l.network is → l.comm is = none) →
      Close l proc fd (l.setOpened proc fd none)
  | listening {is s k} : l.opened proc fd = some is → l.network is → l.comm is = some k →
      l.state k = .listening → l.info0 k = some s →
      Close l proc fd (((l.delete s).destroy k).setOpened proc fd none)
  | first {is k} : l.opened proc fd = some is → l.network is → l.comm is = some k →
      l.state k ≠ .listening → l.state k ≠ .closed →
      Close l proc fd ((l.setState k .closed).setOpened proc fd none)
  | second {is s t k} : l.opened proc fd = some is → l.network is → l.comm is = some k →
      l.state k = .closed → l.info0 k = some s → l.info1 k = some t →
      Close l proc fd ((((l.delete s).delete t).destroy k).setOpened proc fd none)

/-- What `comm_close` does for a socket, and which sockets it releases. -/
inductive CommClose (l : Links) (is : SockId) : Links → List SockId → Prop where
  | detached : l.comm is = none → CommClose l is l []
  | listening {s k} : l.comm is = some k → l.state k = .listening → l.info0 k = some s →
      CommClose l is ((l.delete s).destroy k) [s]
  | first {k} : l.comm is = some k → l.state k ≠ .listening → l.state k ≠ .closed →
      CommClose l is (l.setState k .closed) []
  | second {s t k} : l.comm is = some k → l.state k = .closed → l.info0 k = some s →
      l.info1 k = some t → CommClose l is (((l.delete s).delete t).destroy k) [s, t]

theorem CommClose.close {l l' : Links} {is : SockId} {gone : List SockId} {proc : Pid} {fd : Int}
    (here : l.opened proc fd = some is) (network : l.network is) (closed : l.CommClose is l' gone) :
    l.Close proc fd (l'.setOpened proc fd none) := by
  cases closed with
  | detached comm => exact .alone here fun _ => comm
  | listening comm state first => exact .listening here network comm state first
  | first comm notListening notClosed => exact .first here network comm notListening notClosed
  | second comm state first second => exact .second here network comm state first second

/-- What a call does, with its outcome. -/
inductive Step {H : Type} (l : Links) : Op × Event H → Links → Prop where
  | quiet {op ev} : (∀ is, ev ≠ .listened is) → (∀ client listener, ev ≠ .asked client listener) →
      (∀ listener client new sai, ev ≠ .accepted listener client new sai) → Step l (op, ev) l
  | socket {proc domain type protocol ret network} : l.opened proc ret = none →
      Step l (.socket proc domain type protocol ret, .silent) (l.register proc ret network)
  | listen {proc sockfd is} : l.opened proc sockfd = some is →
      Step l (.listen proc sockfd, .listened is) (l.listen is)
  | ask {proc sockfd sai client listener m} : l.opened proc sockfd = some client →
      (l.commNew client).comm listener = some m →
      Step l (.connect proc sockfd sai, .asked client listener) (l.ask client listener m)
  | join {proc sockfd newfd listener client m k rest sai} :
      l.opened proc sockfd = some listener → l.opened proc newfd = none →
      l.comm listener = some m → l.connWait m = k :: rest → l.info0 k = some client →
      Step l (.accept proc sockfd newfd, .accepted listener client l.nextSocket sai)
        (l.join proc newfd listener m k rest)
  | close {proc fd l'} : l.Close proc fd l' → Step l (.close proc fd, .silent) l'
  | dup {proc oldfd newfd} :
      Step l (.dup proc oldfd newfd, .silent) (l.setOpened proc newfd (l.opened proc oldfd))
  | dup2 {proc oldfd newfd l'} : l.Close proc newfd l' →
      Step l (.dup2 proc oldfd newfd, .silent) (l'.setOpened proc newfd (l.opened proc oldfd))

end Links

/-- The socket a descriptor reference points at. -/
def DescRef.socket? : DescRef → Option SockId
  | .socket is => some is
  | .plain _ => none

namespace World

variable {H : Type} (w : World H)

def links : Links where
  opened proc fd := (w.processDescriptorGetFd proc fd).bind DescRef.socket?
  network is := InetLike (w.socket is)
  comm is := (w.socket is).comm
  info0 k := (w.comm k).info0.socket
  info1 k := (w.comm k).info1.socket
  state k := (w.comm k).state
  connWait k := (w.comm k).connWait
  allSockets := w.allSockets
  commList := w.commList
  nextSocket := w.sockets.next
  nextComm := w.comms.next

theorem getInfosSocket_eq_opened (proc : Pid) (fd : Int) :
    w.getInfosSocket proc fd = w.links.opened proc fd := by
  ext is
  rw [getInfosSocket_eq_some]
  simp only [links]
  cases w.processDescriptorGetFd proc fd with
  | none => simp
  | some ref => cases ref <;> simp [DescRef.socket?]

section

variable {w w' : World H}

/-- The links have the sockets that the tables have. -/
theorem opened_of_found {proc : Pid} {fd : Int} {ref : DescRef}
    (found : w.processDescriptorGetFd proc fd = some ref) : w.links.opened proc fd = ref.socket? := by
  simp [links, found]

theorem commGetPeer_congr (same : w'.links = w.links) (is : SockId) :
    w'.commGetPeer is = w.commGetPeer is := by
  have comm : (w'.socket is).comm = (w.socket is).comm := congrArg (Links.comm · is) same
  have info0 : ∀ k, (w'.comm k).info0.socket = (w.comm k).info0.socket := fun k =>
    congrArg (Links.info0 · k) same
  have info1 : ∀ k, (w'.comm k).info1.socket = (w.comm k).info1.socket := fun k =>
    congrArg (Links.info1 · k) same
  simp only [commGetPeer, comm, info0, info1]

theorem commGetPeerRecv_kept {is : SockId} {k : CommId} (attached : w.links.comm is = some k)
    (comm : w'.links.comm is = some k) (info0 : w'.links.info0 k = w.links.info0 k) :
    w'.commGetPeerRecv is = w.commGetPeerRecv is := by
  have before : (w.socket is).comm = some k := attached
  have after : (w'.socket is).comm = some k := comm
  have first : (w'.comm k).info0.socket = (w.comm k).info0.socket := info0
  simp only [commGetPeerRecv, before, after, first]

theorem commGetPeerRecv_congr (same : w'.links = w.links) (is : SockId) :
    w'.commGetPeerRecv is = w.commGetPeerRecv is := by
  cases attached : w.links.comm is with
  | none =>
      have before : (w.socket is).comm = none := attached
      have after : (w'.socket is).comm = none := (congrArg (Links.comm · is) same).trans attached
      simp only [commGetPeerRecv, before, after]
  | some k =>
      exact commGetPeerRecv_kept attached (same ▸ attached) (congrArg (Links.info0 · k) same)

end

/-! ## What the primitives do to the links -/

theorem links_modifySocket (is : SockId) (f : InfosSocket H → InfosSocket H) :
    (w.modifySocket is f).links =
      { w.links with
        network := Function.update w.links.network is (InetLike (f (w.socket is)))
        comm := Function.update w.links.comm is (f (w.socket is)).comm } := by
  have network := Heap.proj_modify w.sockets f is InetLike
  have comm := Heap.proj_modify w.sockets f is InfosSocket.comm
  simp only [links, modifySocket, network, comm]
  rfl

theorem links_modifyComm (k : CommId) (f : Comm H → Comm H) :
    (w.modifyComm k f).links =
      { w.links with
        info0 := Function.update w.links.info0 k (f (w.comm k)).info0.socket
        info1 := Function.update w.links.info1 k (f (w.comm k)).info1.socket
        state := Function.update w.links.state k (f (w.comm k)).state
        connWait := Function.update w.links.connWait k (f (w.comm k)).connWait } := by
  have updated := fun {β : Type} (g : Comm H → β) => Heap.proj_modify w.comms f k g
  simp only [links, modifyComm, updated fun c => c.info0.socket, updated fun c => c.info1.socket,
    updated Comm.state, updated Comm.connWait]
  rfl

@[simp] theorem links_addRefNb (is : SockId) (n : Int) : (w.addRefNb is n).links = w.links := by
  rw [addRefNb, links_modifySocket]
  simp [links, InetLike]

@[simp] theorem links_addRefcount (ref : DescRef) (n : Int) :
    (w.addRefcount ref n).links = w.links := by
  cases ref with
  | plain d => rfl
  | socket is =>
      rw [addRefcount, links_modifySocket]
      simp [links, InetLike]

@[simp] theorem links_freeSocket (is : SockId) : (w.freeSocket is).links = w.links := rfl

@[simp] theorem links_setFd (proc : Pid) (fd : Int) (ref : Option DescRef) :
    (w.processDescriptorSetFd proc fd ref).links =
      w.links.setOpened proc fd (ref.bind DescRef.socket?) := by
  have opened : (w.processDescriptorSetFd proc fd ref).links.opened =
      (w.links.setOpened proc fd (ref.bind DescRef.socket?)).opened := by
    funext proc' fd'
    simp only [links, Links.setOpened, getFd_setFd]
    split <;> rfl
  simp only [links, Links.setOpened] at opened ⊢
  rw [opened]
  rfl

@[simp] theorem links_modifyRecv (recv : RecvRef) (f : RecvInformation H → RecvInformation H) :
    (w.modifyRecv recv f).links = w.links := by
  unfold modifyRecv
  split <;> (rw [links_modifyComm]; simp [links])

@[simp] theorem links_confirmRegisterSocket (proc : Pid) (fd domain type protocol : Int) :
    (w.confirmRegisterSocket proc fd domain type protocol).links =
      w.links.register proc fd (InetLike (w.newSocket proc fd domain type protocol)) := by
  have opened := congrArg Links.opened (w.links_setFd proc fd (some (.socket w.sockets.next)))
  have network := Heap.proj_alloc w.sockets (w.newSocket proc fd domain type protocol) InetLike
  have comm := Heap.proj_alloc w.sockets (w.newSocket proc fd domain type protocol) InfosSocket.comm
  simp only [links] at opened
  simp only [links, confirmRegisterSocket, Links.register, network, comm]
  exact congrArg (fun o => { opened := o, .. : Links }) opened

@[simp] theorem links_commNew (is : SockId) : (w.commNew is).links = w.links.commNew is := by
  let f := fun s : InfosSocket H => { s with comm := some w.comms.next, refNb := s.refNb + 1 }
  have network : (fun j => InetLike ((w.sockets.modify is f).cell j)) = w.links.network := by
    rw [Heap.proj_modify]
    exact Function.update_eq_self is _
  have comm := Heap.proj_modify w.sockets f is InfosSocket.comm
  have fresh := fun {β : Type} (g : Comm H → β) =>
    Heap.proj_alloc w.comms { info0 := { socket := some is }, refNb := 1 } g
  simp only [links, commNew, modifySocket, Links.commNew, fresh fun c => c.info0.socket,
    fresh fun c => c.info1.socket, fresh Comm.state, fresh Comm.connWait] at network ⊢
  rw [network, comm]
  rfl

@[simp] theorem links_dropInfo (socket : Option SockId) : (w.dropInfo socket).links = w.links := by
  cases socket <;> simp [dropInfo]

theorem links_modifyComm_state (k : CommId) (s : CommState) :
    (w.modifyComm k fun c => { c with state := s }).links = w.links.setState k s := by
  rw [links_modifyComm]
  simp [links, Links.setState]

@[simp] theorem links_commSetListen (k : CommId) :
    (w.commSetListen k).links = w.links.setState k .listening :=
  w.links_modifyComm_state k .listening

theorem links_modifyComm_connWait (k : CommId) (f : List CommId → List CommId) :
    (w.modifyComm k fun c => { c with connWait := f c.connWait }).links =
      w.links.setConnWait k (f (w.links.connWait k)) := by
  rw [links_modifyComm]
  simp [links, Links.setConnWait]

theorem links_modifyComm_info1 (k : CommId) (is : SockId) {f : Comm H → Comm H}
    (info0 : ∀ c, (f c).info0.socket = c.info0.socket) (info1 : ∀ c, (f c).info1.socket = some is)
    (state : ∀ c, (f c).state = c.state) (connWait : ∀ c, (f c).connWait = c.connWait) :
    (w.modifyComm k f).links = w.links.setInfo1 k is := by
  rw [links_modifyComm]
  simp [links, Links.setInfo1, info0, info1, state, connWait]

theorem links_modifySocket_comm (is : SockId) (k : CommId) {f : InfosSocket H → InfosSocket H}
    (domain : ∀ s, (f s).domain = s.domain) (comm : ∀ s, (f s).comm = some k) :
    (w.modifySocket is f).links = w.links.setComm is k := by
  rw [links_modifySocket]
  simp [links, Links.setComm, InetLike, domain, comm]

@[simp] theorem links_deleteSocket (is : SockId) :
    (w.deleteSocket is).links = w.links.delete is := by
  unfold deleteSocket
  split
  · exact congrArg (fun l : Links => { l with allSockets := w.allSockets.erase is })
      (w.links_addRefNb is (-1))
  · rename_i absent
    simp [Links.delete, links, List.erase_of_not_mem absent]

theorem links_unlistComm (k : CommId) :
    (w.unlistComm k).links = { w.links with commList := w.commList.erase k } := by
  unfold unlistComm
  split
  · have counted : (w.modifyComm k fun c => { c with refNb := c.refNb - 1 }).links = w.links := by
      rw [links_modifyComm]
      simp [links]
    exact congrArg (fun l : Links => { l with commList := w.commList.erase k }) counted
  · rename_i absent
    simp [links, List.erase_of_not_mem absent]

@[simp] theorem links_commDestroy (k : CommId) :
    (w.commDestroy k).links = w.links.destroy k := by
  have freed : ∀ v : World H, (v.freeComm k).links = v.links := fun _ => rfl
  have listed : ∀ v : World H, v.commList = v.links.commList := fun _ => rfl
  simp only [commDestroy, freed, links_unlistComm, listed]
  rw [links_modifyComm_connWait _ k fun _ => []]
  simp [Links.destroy, Links.setConnWait]

section

variable [DecidableEq H]

@[simp] theorem links_setPortDesc (host : H) (port : Nat) (desc : Option PortDesc) :
    (w.setPortDesc host port desc).links = w.links := rfl

@[simp] theorem links_registerPort (host : H) (port : Nat) :
    (w.registerPort host port).links = w.links := rfl

@[simp] theorem links_setPortOnBinding (host : H) (port : Nat) (is : SockId) (device : Nat) :
    (w.setPortOnBinding host port is device).links = w.links := by
  unfold setPortOnBinding
  split <;> simp

@[simp] theorem links_unsetSocket (is : SockId) : (w.unsetSocket is).links = w.links := by
  unfold unsetSocket
  split
  · rfl
  · split <;> simp

@[simp] theorem links_releaseSocket (is : SockId) :
    (w.releaseSocket is).links = w.links.delete is := by
  unfold releaseSocket
  dsimp only
  split <;> simp

@[simp] theorem links_sendTask (host : H) (task : Task) : (w.sendTask host task).links = w.links :=
  rfl

end

@[simp] theorem links_setAddress (is : SockId) (ip : UInt32) (port : Nat) :
    (w.setAddress is ip port).links = w.links := by
  rw [setAddress, links_modifySocket]
  simp [links, InetLike]

/-! ## What the calls do to the links -/

@[simp] theorem links_queueConnection (is conn : SockId) (k : CommId) :
    (w.queueConnection is conn k).links = w.links.ask is conn k := by
  simp only [queueConnection, links_addRefNb]
  refine (links_modifyComm_info1 _ _ conn (by intro; rfl) (by intro; rfl) (by intro; rfl)
    (by intro; rfl)).trans ?_
  rw [links_modifyComm_connWait _ k fun q => q ++ [w.comms.next], links_commNew]
  rfl

theorem links_listen (is : SockId) :
    ((w.commNew is).commSetListen w.comms.next).links = w.links.listen is := by
  rw [links_commSetListen, links_commNew]
  rfl

@[simp] theorem links_takeConnection (is : SockId) (k conn : CommId) (rest : List CommId) :
    (w.takeConnection is k conn rest).links =
      ((w.links.setConnWait k rest).setInfo1 conn is).setComm is conn := by
  simp only [takeConnection]
  refine (links_modifySocket_comm _ is conn (by intro; rfl) (by intro; rfl)).trans ?_
  refine congrArg (Links.setComm · is conn) ?_
  refine (links_modifyComm_info1 _ conn is (by intro; rfl) (by intro; rfl) (by intro; rfl)
    (by intro; rfl)).trans ?_
  rw [links_modifyComm_connWait _ k fun _ => rest]

@[simp] theorem links_beginClose (is : SockId) : (w.beginClose is).links = w.links := by
  simp [beginClose]

@[simp] theorem links_endClose (proc : Pid) (fd : Int) (is : SockId) :
    (w.endClose proc fd is).links = w.links.setOpened proc fd none := by
  simp [endClose]

section

variable [DecidableEq H]

@[simp] theorem links_bindTo (host : H) (sai : SockaddrIn) (is : SockId) :
    (w.bindTo host sai is).links = w.links := by
  have flagged : ∀ v : World H, (v.modifySocket is fun s => { s with binded := true }).links = v.links := by
    intro v
    rw [links_modifySocket]
    simp [links, InetLike]
  simp [bindTo, flagged]

@[simp] theorem links_connectFrom (is conn : SockId) (k : CommId) (host : H) (ip : UInt32)
    (port : Nat) : (w.connectFrom is conn k host ip port).links = w.links.ask is conn k := by
  simp [connectFrom]

@[simp] theorem links_sendFrom (is s : SockId) (recv : RecvRef) (sent : DataSend)
    (tci : TaskCommInfo H) (receiver : H) :
    (w.sendFrom is s recv sent tci receiver).links = w.links := by
  simp [sendFrom]

@[simp] theorem links_acceptFrom (proc : Pid) (newfd : Int) (listener : SockId) (k conn : CommId)
    (rest : List CommId) (ip : UInt32) :
    (w.acceptFrom proc newfd listener k conn rest ip).links =
      w.links.join proc newfd listener k conn rest := by
  have streamed : ∀ (v : World H) (is : SockId) (stream : Option StreamId),
      (v.modifySocket is fun n => { n with fd := { n.fd with stream := stream } }).links = v.links := by
    intro v is stream
    rw [links_modifySocket]
    simp [links, InetLike]
  simp only [acceptFrom, streamed, links_setAddress, links_registerPort, links_takeConnection,
    links_confirmRegisterSocket]
  rfl

theorem links_commClose {is : SockId} {w' : World H} (done : w.commClose is = .ok w') :
    ∃ gone, w.links.CommClose is w'.links gone := by
  rcases commClose_ok done with ⟨detached, rfl⟩ | ⟨k, attached, ⟨s, state, first, rfl⟩ |
      ⟨s, t, state, first, second, rfl⟩ | ⟨notListening, notClosed, rfl⟩⟩
  · exact ⟨[], .detached detached⟩
  · rw [links_commDestroy, links_releaseSocket]
    exact ⟨[s], .listening attached state first⟩
  · rw [links_commDestroy, links_releaseSocket, links_releaseSocket]
    exact ⟨[s, t], .second attached state first second⟩
  · rw [links_modifyComm_state]
    exact ⟨[], .first attached notListening notClosed⟩

theorem links_processCloseCall {proc : Pid} {fd : Int} {w' : World H}
    (done : w.processCloseCall proc fd = .ok w') : w.links.Close proc fd w'.links := by
  rcases processCloseCall_ok done with ⟨absent, rfl⟩ | ⟨d, pipes, found, rfl⟩ |
      ⟨is, w₁, found, rfl, ⟨other, rfl⟩ | ⟨network, closed⟩⟩
  · exact .noSocket (by simp [links, absent])
  · have none_ : w.links.opened proc fd = none := opened_of_found found
    have piped : ∀ v : World H, { v with pipes := pipes }.links = v.links := fun _ => rfl
    simp only [links_setFd, links_addRefcount, piped]
    rw [w.links.setOpened_self (by simpa using none_)]
    exact .noSocket none_
  · have here : w.links.opened proc fd = some is := opened_of_found found
    rw [links_endClose, links_freeSocket, links_beginClose]
    exact .alone here fun network => absurd network other
  · have here : w.links.opened proc fd = some is := opened_of_found found
    obtain ⟨gone, closed⟩ := links_commClose _ closed
    rw [links_beginClose] at closed
    rw [links_endClose]
    exact closed.close here network

theorem links_closeTarget {w : World H} {proc : Pid} {newfd : Int} {ref : DescRef} {w' : World H}
    (done : (w.addRefcount ref 1).closeTarget proc newfd = .ok w') :
    w.links.Close proc newfd w'.links := by
  unfold closeTarget at done
  split at done
  · rename_i target _
    have closed := links_processCloseCall _ done
    rwa [links_addRefcount, links_addRefcount] at closed
  · rename_i absent
    cases done
    rw [links_addRefcount]
    refine .noSocket ?_
    rw [← w.links_addRefcount ref 1]
    simp [World.links, absent]

/-- Every call is one of the transitions of the links. -/
theorem Effect.links {label : Op × Event H} {w w' : World H} (effect : w.Effect label w') :
    w.links.Step label w'.links := by
  cases effect with
  | quiet => exact .quiet (by simp) (by simp) (by simp)
  | socket free =>
      rw [links_confirmRegisterSocket]
      exact .socket (by simp [World.links, free])
  | bind found network unused =>
      rw [links_bindTo]
      exact .quiet (by simp) (by simp) (by simp)
  | listen found =>
      rw [links_listen]
      exact .listen (getInfosSocket_eq_opened .. ▸ found)
  | connect found network binding attached live random =>
      rw [links_connectFrom]
      refine .ask (getInfosSocket_eq_opened .. ▸ found) ?_
      rw [← links_commNew]
      exact attached
  | accept found attached queue first free =>
      rw [links_acceptFrom]
      exact .join (getInfosSocket_eq_opened .. ▸ found) (by simp [World.links, free]) attached
        queue first
  | send =>
      rw [links_sendFrom]
      exact .quiet (by simp) (by simp) (by simp)
  | close done => exact .close (w.links_processCloseCall done)
  | @dup proc oldfd newfd ref pipes found =>
      have opened : w.links.opened proc oldfd = (some ref).bind DescRef.socket? := by
        simp only [World.links, found]
      have shape := (w.addRefcount ref 1).links_setFd proc newfd (some ref)
      rw [links_addRefcount, ← opened] at shape
      exact shape ▸ .dup
  | @dup2 proc oldfd newfd ref w₁ pipes found closed =>
      have opened : w.links.opened proc oldfd = (some ref).bind DescRef.socket? := by
        simp only [World.links, found]
      have shape := w₁.links_setFd proc newfd (some ref)
      rw [← opened] at shape
      exact shape ▸ .dup2 (links_closeTarget closed)

end

end World

end Simterpose
