import Simterpose.Ownership

/-! # Who uses which port

The part of the tables that concerns ports: the entry of every port, the host and the
local port of every socket, and the list of sockets. Every call acts on this part as a
few small operations. Closing a descriptor is the release, one after the other, of
different sockets that are still listed, which is what keeps a port from being given
back twice.
-/

namespace Simterpose

open Lib

structure Ledger (H : Type) where
  desc : H → Nat → Option PortDesc
  place : SockId → H × Nat
  home : Pid → H
  allSockets : List SockId

namespace Ledger

variable {H : Type} (l : Ledger H)

/-- A new socket, without a port. -/
def enter (is : SockId) (host : H) : Ledger H :=
  { l with place := Function.update l.place is (host, 0), allSockets := l.allSockets ++ [is] }

/-- A socket changes its port. -/
def move (is : SockId) (port : Nat) : Ledger H :=
  { l with place := Function.update l.place is ((l.place is).1, port) }

/-- `amount_socket` of a port, 0 when there is no entry. -/
def amount (host : H) (port : Nat) : Int := (l.desc host port).elim 0 PortDesc.amountSocket

variable [DecidableEq H]

/-- Store the entry of a port, or remove it. -/
def put (host : H) (port : Nat) (desc : Option PortDesc) : Ledger H :=
  { l with desc := fun host' port' =>
      if host' = host ∧ port' = port then desc else l.desc host' port' }

/-- A socket gets a port whose new entry is `desc`. -/
def take (is : SockId) (host : H) (port : Nat) (desc : PortDesc) : Ledger H :=
  (l.put host port (some desc)).move is port

/-- A socket gives its port back and leaves the list. -/
def release (is : SockId) : Ledger H :=
  { l.put (l.place is).1 (l.place is).2
      ((l.desc (l.place is).1 (l.place is).2).bind (PortDesc.unset · is)) with
    allSockets := l.allSockets.erase is }

/-- Several sockets give up their ports one after the other. -/
def releaseAll (gone : List SockId) : Ledger H := gone.foldl (fun l is => l.release is) l

/-- How many listed sockets have a port. -/
def users (host : H) (port : Nat) : Nat := l.allSockets.countP fun s => l.place s = (host, port)

variable {l}

/-- Removing the entry of a port that has none. -/
theorem put_none {host : H} {port : Nat} (absent : l.desc host port = none) :
    l.put host port none = l := by
  have same : (l.put host port none).desc = l.desc := by
    funext host' port'
    simp only [put]
    split
    · rename_i here
      rw [here.1, here.2, absent]
    · rfl
  exact congrArg (fun d => { l with desc := d }) same

theorem desc_release (is : SockId) (host : H) (port : Nat) : (l.release is).desc host port =
    if host = (l.place is).1 ∧ port = (l.place is).2 then
      (l.desc (l.place is).1 (l.place is).2).bind (PortDesc.unset · is)
    else l.desc host port := rfl

/-- What each release keeps is kept by releasing different listed sockets in turn. -/
theorem releaseAll_induction {P : Ledger H → Prop}
    (one : ∀ l is, l.allSockets.Nodup → is ∈ l.allSockets → P l → P (l.release is))
    (gone : List SockId) (distinct : gone.Nodup) (listed : ∀ s ∈ gone, s ∈ l.allSockets)
    (nodup : l.allSockets.Nodup) (holds : P l) : P (l.releaseAll gone) := by
  induction gone generalizing l with
  | nil => exact holds
  | cons s rest ih =>
      obtain ⟨notAgain, distinct⟩ := List.nodup_cons.mp distinct
      have here : s ∈ l.allSockets := listed s (List.mem_cons_self ..)
      refine ih distinct ?_ (nodup.erase s) (one l s nodup here holds)
      intro t member
      refine nodup.mem_erase_iff.mpr ⟨fun same => notAgain (same ▸ member), ?_⟩
      exact listed t (List.mem_cons_of_mem _ member)

theorem place_releaseAll (gone : List SockId) :
    (l.releaseAll gone).place = l.place ∧ (l.releaseAll gone).home = l.home := by
  induction gone generalizing l with
  | nil => exact ⟨rfl, rfl⟩
  | cons s rest ih => exact @ih (l.release s)

/-- What a call that duplicates no descriptor does to the ledger, beside the links `lk`. -/
inductive Step (lk : Links) (l : Ledger H) : Op × Event H → Ledger H → Prop where
  | quiet {op ev} : (∀ is host port addr, ev ≠ .bound is host port addr) → Step lk l (op, ev) l
  | socket {proc domain type protocol ret} :
      Step lk l (.socket proc domain type protocol ret, .silent)
        (l.enter lk.nextSocket (l.home proc))
  | bind {proc sockfd is} {sai : SockaddrIn} : lk.opened proc sockfd = some is → lk.network is →
      l.desc (l.home proc) sai.port.toNat = none →
      Step lk l (.bind proc sockfd sai, .bound is (l.home proc) sai.port.toNat sai.addr)
        (l.take is (l.home proc) sai.port.toNat (.bound sai.port.toNat (bindDevice sai.addr) is))
  | connect {proc sockfd sai client listener port} : lk.opened proc sockfd = some client →
      lk.network client → l.desc (l.home proc) port = none →
      Step lk l (.connect proc sockfd sai, .asked client listener)
        (l.take client (l.home proc) port (.register port none))
  | accept {proc sockfd newfd listener client new sai} : new = lk.nextSocket →
      Step lk l (.accept proc sockfd newfd, .accepted listener client new sai)
        ((l.enter new (l.home proc)).take new (l.home proc) (l.place listener).2
          (.register (l.place listener).2 (l.desc (l.home proc) (l.place listener).2)))
  | close {proc fd gone} : gone.Nodup → (∀ s ∈ gone, s ∈ l.allSockets) →
      Step lk l (.close proc fd, .silent) (l.releaseAll gone)

end Ledger

namespace World

section

variable {H : Type} (w : World H)

def ledger : Ledger H where
  desc := w.portDesc
  place is := ((w.socket is).host, (w.socket is).portLocal)
  home proc := (w.procs proc).host
  allSockets := w.allSockets

/-! ## What the primitives do to the ledger -/

theorem ledger_modifySocket {f : InfosSocket H → InfosSocket H} (host : ∀ s, (f s).host = s.host)
    (port : ∀ s, (f s).portLocal = s.portLocal) (is : SockId) :
    (w.modifySocket is f).ledger = w.ledger := by
  have place := Heap.proj_modify w.sockets f is fun s => (s.host, s.portLocal)
  simp only [host, port] at place
  have same : (w.modifySocket is f).ledger.place = w.ledger.place :=
    place.trans (Function.update_eq_self is w.ledger.place)
  exact congrArg (fun p => { w.ledger with place := p }) same

@[simp] theorem ledger_setStream (is : SockId) (stream : Option StreamId) :
    (w.modifySocket is fun n => { n with fd := { n.fd with stream := stream } }).ledger = w.ledger :=
  w.ledger_modifySocket (by intro; rfl) (by intro; rfl) is

@[simp] theorem ledger_addRefNb (is : SockId) (n : Int) : (w.addRefNb is n).ledger = w.ledger :=
  w.ledger_modifySocket (by intro; rfl) (by intro; rfl) is

@[simp] theorem ledger_addRefcount (ref : DescRef) (n : Int) :
    (w.addRefcount ref n).ledger = w.ledger := by
  cases ref with
  | plain d => rfl
  | socket is => exact w.ledger_modifySocket (by intro; rfl) (by intro; rfl) is

@[simp] theorem ledger_modifyComm (k : CommId) (f : Comm H → Comm H) :
    (w.modifyComm k f).ledger = w.ledger := rfl

@[simp] theorem ledger_freeSocket (is : SockId) : (w.freeSocket is).ledger = w.ledger := rfl

@[simp] theorem ledger_setFd (proc : Pid) (fd : Int) (ref : Option DescRef) :
    (w.processDescriptorSetFd proc fd ref).ledger = w.ledger := by
  have home : (w.processDescriptorSetFd proc fd ref).ledger.home = w.ledger.home := by
    funext proc'
    exact w.host_setFd proc proc' fd ref
  exact congrArg (fun h => { w.ledger with home := h }) home

@[simp] theorem ledger_modifyRecv (recv : RecvRef) (f : RecvInformation H → RecvInformation H) :
    (w.modifyRecv recv f).ledger = w.ledger := by
  unfold modifyRecv
  split <;> rfl

@[simp] theorem ledger_setAddress (is : SockId) (ip : UInt32) (port : Nat) :
    (w.setAddress is ip port).ledger = w.ledger.move is port := by
  have place := Heap.proj_modify w.sockets (fun s => { s with ipLocal := ip, portLocal := port }) is
    fun s => (s.host, s.portLocal)
  exact congrArg (fun p => { w.ledger with place := p }) place

@[simp] theorem ledger_confirmRegisterSocket (proc : Pid) (fd domain type protocol : Int) :
    (w.confirmRegisterSocket proc fd domain type protocol).ledger =
      w.ledger.enter w.sockets.next (w.procs proc).host := by
  have home := congrArg Ledger.home (w.ledger_setFd proc fd (some (.socket w.sockets.next)))
  have place := Heap.proj_alloc w.sockets (w.newSocket proc fd domain type protocol)
    fun s => (s.host, s.portLocal)
  simp only [ledger, confirmRegisterSocket, Ledger.enter] at home ⊢
  simp only [Ledger.mk.injEq]
  exact ⟨rfl, place, home, trivial⟩

@[simp] theorem ledger_commNew (is : SockId) : (w.commNew is).ledger = w.ledger :=
  w.ledger_modifySocket (f := fun s => { s with comm := some w.comms.next, refNb := s.refNb + 1 })
    (by intro; rfl) (by intro; rfl) is

@[simp] theorem ledger_queueConnection (is conn : SockId) (k : CommId) :
    (w.queueConnection is conn k).ledger = w.ledger := by
  simp [queueConnection]

@[simp] theorem ledger_takeConnection (is : SockId) (k conn : CommId) (rest : List CommId) :
    (w.takeConnection is k conn rest).ledger = w.ledger := by
  have attached : ∀ v : World H, (v.modifySocket is fun s =>
      { s with comm := some conn, refNb := s.refNb + 1 }).ledger = v.ledger :=
    fun v => v.ledger_modifySocket (by intro; rfl) (by intro; rfl) is
  simp [takeConnection, attached]

@[simp] theorem ledger_dropInfo (socket : Option SockId) : (w.dropInfo socket).ledger = w.ledger := by
  cases socket <;> simp [dropInfo]

@[simp] theorem ledger_commDestroy (k : CommId) : (w.commDestroy k).ledger = w.ledger := by
  have unlisted : ∀ v : World H, (v.unlistComm k).ledger = v.ledger := by
    intro v
    unfold unlistComm
    split <;> rfl
  have freed : ∀ v : World H, (v.freeComm k).ledger = v.ledger := fun _ => rfl
  simp only [commDestroy, freed, unlisted, ledger_modifyComm, ledger_dropInfo]

@[simp] theorem ledger_deleteSocket (is : SockId) :
    (w.deleteSocket is).ledger = { w.ledger with allSockets := w.allSockets.erase is } := by
  unfold deleteSocket
  split
  · exact congrArg (fun l : Ledger H => { l with allSockets := w.allSockets.erase is })
      (w.ledger_addRefNb is (-1))
  · rename_i absent
    rw [List.erase_of_not_mem absent]
    rfl

@[simp] theorem ledger_beginClose (is : SockId) : (w.beginClose is).ledger = w.ledger := by
  simp [beginClose]

@[simp] theorem ledger_endClose (proc : Pid) (fd : Int) (is : SockId) :
    (w.endClose proc fd is).ledger = w.ledger := by
  simp [endClose]

end

section

variable {H : Type} [DecidableEq H] (w : World H)

@[simp] theorem ledger_setPortDesc (host : H) (port : Nat) (desc : Option PortDesc) :
    (w.setPortDesc host port desc).ledger = w.ledger.put host port desc := by
  have entries : (w.setPortDesc host port desc).ledger.desc = (w.ledger.put host port desc).desc := by
    funext host' port'
    exact w.portDesc_setPortDesc host host' port port' desc
  exact congrArg (fun d => { w.ledger with desc := d }) entries

theorem ledger_unsetSocket (is : SockId) :
    (w.unsetSocket is).ledger =
      w.ledger.put (w.ledger.place is).1 (w.ledger.place is).2
        ((w.ledger.desc (w.ledger.place is).1 (w.ledger.place is).2).bind (PortDesc.unset · is)) := by
  cases entry : w.portDesc (w.socket is).host (w.socket is).portLocal with
  | none =>
      have absent : w.ledger.desc (w.ledger.place is).1 (w.ledger.place is).2 = none := entry
      simp only [unsetSocket, entry, absent, Option.bind_none]
      rw [Ledger.put_none absent]
  | some desc =>
      have dropped : ∀ v : World H, v.ledger = w.ledger →
          (v.setPortDesc (w.socket is).host (w.socket is).portLocal (desc.unset is)).ledger =
            w.ledger.put (w.socket is).host (w.socket is).portLocal (desc.unset is) := by
        intro v same
        rw [ledger_setPortDesc, same]
      simp only [unsetSocket, entry]
      rw [dropped]
      · simp only [ledger, entry, Option.bind_some]
      · split
        · exact w.ledger_addRefNb is (-1)
        · rfl

@[simp] theorem ledger_releaseSocket (is : SockId) :
    (w.releaseSocket is).ledger = w.ledger.release is := by
  have shape : (w.releaseSocket is).ledger = ((w.unsetSocket is).deleteSocket is).ledger := by
    unfold releaseSocket
    dsimp only
    split <;> rfl
  have all : (w.unsetSocket is).allSockets = w.allSockets :=
    congrArg Links.allSockets (w.links_unsetSocket is)
  rw [shape, ledger_deleteSocket, ledger_unsetSocket, all]
  rfl

/-! ## What the calls do to the ledger -/

@[simp] theorem ledger_registerPort (host : H) (port : Nat) :
    (w.registerPort host port).ledger =
      w.ledger.put host port (some (PortDesc.register port (w.ledger.desc host port))) :=
  w.ledger_setPortDesc host port _

theorem ledger_bindTo {host : H} {sai : SockaddrIn} (is : SockId)
    (unused : w.portDesc host sai.port.toNat = none) :
    (w.bindTo host sai is).ledger =
      w.ledger.take is host sai.port.toNat (.bound sai.port.toNat (bindDevice sai.addr) is) := by
  have flagged : ∀ v : World H,
      (v.modifySocket is fun s => { s with binded := true }).ledger = v.ledger :=
    fun v => v.ledger_modifySocket (by intro; rfl) (by intro; rfl) is
  rw [w.bindTo_eq is unused, ledger_setAddress, flagged, ledger_addRefNb, ledger_setPortDesc]
  rfl

theorem ledger_connectFrom (is conn : SockId) (k : CommId) (host : H) (ip : UInt32) (port : Nat) :
    (w.connectFrom is conn k host ip port).ledger =
      w.ledger.take is host port (PortDesc.register port (w.ledger.desc host port)) := by
  rw [connectFrom, ledger_registerPort, ledger_setAddress, ledger_queueConnection]
  rfl

theorem ledger_acceptFrom (proc : Pid) (newfd : Int) (listener : SockId) (k conn : CommId)
    (rest : List CommId) (ip : UInt32) :
    (w.acceptFrom proc newfd listener k conn rest ip).ledger =
      (w.ledger.enter w.sockets.next (w.ledger.home proc)).take w.sockets.next (w.ledger.home proc)
        (w.ledger.place listener).2
        (PortDesc.register (w.ledger.place listener).2
          (w.ledger.desc (w.ledger.home proc) (w.ledger.place listener).2)) := by
  have host : ∀ v : World H, (v.procs proc).host = v.ledger.home proc := fun _ => rfl
  simp only [acceptFrom, ledger_setStream, ledger_setAddress, ledger_registerPort, host,
    ledger_takeConnection, ledger_confirmRegisterSocket]
  rfl

@[simp] theorem ledger_sendFrom (is s : SockId) (recv : RecvRef) (sent : DataSend)
    (tci : TaskCommInfo H) (receiver : H) :
    (w.sendFrom is s recv sent tci receiver).ledger = w.ledger := by
  have sent : ∀ (v : World H) (host : H) (task : Task), (v.sendTask host task).ledger = v.ledger :=
    fun _ _ _ => rfl
  simp [sendFrom, sent]

variable {w}

/-- What `comm_close` does to links and ledger at once. -/
theorem commClose_views {w' : World H} {is : SockId} (done : w.commClose is = .ok w') :
    ∃ gone, w.links.CommClose is w'.links gone ∧ w'.ledger = w.ledger.releaseAll gone := by
  rcases commClose_ok done with ⟨detached, rfl⟩ | ⟨k, attached, ⟨s, state, first, rfl⟩ |
      ⟨s, t, state, first, second, rfl⟩ | ⟨notListening, notClosed, rfl⟩⟩
  · exact ⟨[], .detached detached, rfl⟩
  · rw [links_commDestroy, links_releaseSocket, ledger_commDestroy, ledger_releaseSocket]
    exact ⟨[s], .listening attached state first, rfl⟩
  · rw [links_commDestroy, links_releaseSocket, links_releaseSocket, ledger_commDestroy,
      ledger_releaseSocket, ledger_releaseSocket]
    exact ⟨[s, t], .second attached state first second, rfl⟩
  · rw [links_modifyComm_state]
    exact ⟨[], .first attached notListening notClosed, rfl⟩

/-- What closing a descriptor does to links and ledger at once. -/
theorem processCloseCall_views {w' : World H} {proc : Pid} {fd : Int}
    (done : w.processCloseCall proc fd = .ok w') :
    w'.ledger = w.ledger ∨ ∃ is l' gone, w.links.opened proc fd = some is ∧ w.links.network is ∧
      w.links.CommClose is l' gone ∧ w'.links = l'.setOpened proc fd none ∧
      w'.ledger = w.ledger.releaseAll gone := by
  rcases processCloseCall_ok done with ⟨absent, rfl⟩ | ⟨d, pipes, found, rfl⟩ |
      ⟨is, w₁, found, rfl, ⟨other, rfl⟩ | ⟨network, closed⟩⟩
  · exact .inl rfl
  · have piped : ∀ v : World H, { v with pipes := pipes }.ledger = v.ledger := fun _ => rfl
    exact .inl (by simp [piped])
  · exact .inl (by simp)
  · have here : w.links.opened proc fd = some is := opened_of_found found
    obtain ⟨gone, closed, shape⟩ := commClose_views closed
    rw [links_beginClose] at closed
    rw [ledger_beginClose] at shape
    exact .inr ⟨is, w₁.links, gone, here, network, closed, by simp, by simpa using shape⟩

/-- Closing a descriptor releases different sockets that are listed. -/
theorem ledger_processCloseCall {w' : World H} {proc : Pid} {fd : Int}
    (listing : w.links.ReleasesListed)
    (done : w.processCloseCall proc fd = .ok w') :
    ∃ gone : List SockId, gone.Nodup ∧ (∀ s ∈ gone, s ∈ w.ledger.allSockets) ∧
      w'.ledger = w.ledger.releaseAll gone := by
  rcases processCloseCall_views done with same | ⟨is, l', gone, here, network, closed, -, shape⟩
  · exact ⟨[], List.nodup_nil, by simp, same⟩
  · obtain ⟨distinct, listed⟩ := listing here network closed
    exact ⟨gone, distinct, listed, shape⟩

/-- Every call is one of the transitions of the ledger. -/
theorem Effect.ledger {w' : World H} {label : Op × Event H}
    (listing : w.links.ReleasesListed)
    (single : label.1.duplicates = false) (effect : w.Effect label w') :
    w.ledger.Step w.links label w'.ledger := by
  cases effect with
  | quiet => exact .quiet (by simp)
  | socket =>
      rw [ledger_confirmRegisterSocket]
      exact .socket
  | bind found network unused =>
      rw [ledger_bindTo _ _ unused]
      exact .bind (getInfosSocket_eq_opened .. ▸ found) network unused
  | listen =>
      have same : ∀ is, ((w.commNew is).commSetListen w.comms.next).ledger = w.ledger :=
        fun is => w.ledger_commNew is
      rw [same]
      exact .quiet (by simp)
  | @connect proc _ _ _ _ _ _ port found network _ _ _ random =>
      have unused : w.ledger.desc (w.ledger.home proc) port = none := w.getRandomPort_unused random
      have host : (w.procs proc).host = w.ledger.home proc := rfl
      rw [ledger_connectFrom, host, unused]
      exact .connect (getInfosSocket_eq_opened .. ▸ found) network unused
  | accept =>
      rw [ledger_acceptFrom]
      exact .accept rfl
  | send =>
      rw [ledger_sendFrom]
      exact .quiet (by simp)
  | close done =>
      obtain ⟨gone, distinct, listed, shape⟩ := ledger_processCloseCall listing done
      rw [shape]
      exact .close distinct listed
  | dup => simp [Op.duplicates] at single
  | dup2 => simp [Op.duplicates] at single

end

end World

end Simterpose
