import Simterpose.Ledger

/-! # The references a socket has

How the primitives of the code change `ref_nb`, and which sockets they free. Closing only
ever lowers a counter, and lowers that of the socket being closed in any case.
-/

namespace Simterpose

open Lib

/-- How often one communication holds a socket. -/
def Links.slotsOf (l : Links) (is : SockId) (k : CommId) : Nat :=
  (if l.info0 k = some is then 1 else 0) + (if l.info1 k = some is then 1 else 0)

namespace World

section

variable {H : Type} (w : World H)

/-- The `ref_nb` of a socket. -/
def refNb (is : SockId) : Int := (w.socket is).refNb

@[simp] theorem refNb_addRefNb (is j : SockId) (n : Int) :
    (w.addRefNb is n).refNb j = w.refNb j + if j = is then n else 0 := by
  simp only [refNb, addRefNb, modifySocket, World.socket, Heap.cell_modify]
  split <;> simp

theorem refNb_modifySocket {f : InfosSocket H → InfosSocket H} (kept : ∀ s, (f s).refNb = s.refNb)
    (is j : SockId) : (w.modifySocket is f).refNb j = w.refNb j := by
  simp only [refNb, modifySocket, World.socket, Heap.cell_modify]
  split
  · exact kept _
  · rfl

@[simp] theorem refNb_addRefcount (ref : DescRef) (n : Int) (j : SockId) :
    (w.addRefcount ref n).refNb j = w.refNb j := by
  cases ref with
  | plain d => rfl
  | socket is => exact w.refNb_modifySocket (by intro; rfl) is j

@[simp] theorem refNb_setAddress (is : SockId) (ip : UInt32) (port : Nat) (j : SockId) :
    (w.setAddress is ip port).refNb j = w.refNb j :=
  w.refNb_modifySocket (by intro; rfl) is j

@[simp] theorem refNb_modifyComm (k : CommId) (f : Comm H → Comm H) (j : SockId) :
    (w.modifyComm k f).refNb j = w.refNb j := rfl

@[simp] theorem refNb_modifyRecv (recv : RecvRef) (f : RecvInformation H → RecvInformation H)
    (j : SockId) : (w.modifyRecv recv f).refNb j = w.refNb j := by
  unfold modifyRecv
  split <;> rfl

@[simp] theorem refNb_setFd (proc : Pid) (fd : Int) (ref : Option DescRef) (j : SockId) :
    (w.processDescriptorSetFd proc fd ref).refNb j = w.refNb j := rfl

@[simp] theorem refNb_freeSocket (is j : SockId) : (w.freeSocket is).refNb j = w.refNb j := rfl

@[simp] theorem refNb_dropInfo (socket : Option SockId) (j : SockId) :
    (w.dropInfo socket).refNb j = w.refNb j + if socket = some j then -1 else 0 := by
  cases socket with
  | none => simp [dropInfo]
  | some is => simp [dropInfo, eq_comm]

@[simp] theorem refNb_deleteSocket (is j : SockId) :
    (w.deleteSocket is).refNb j = w.refNb j + if j = is ∧ is ∈ w.allSockets then -1 else 0 := by
  unfold deleteSocket
  split
  · rename_i listed
    simp only [listed, and_true]
    exact w.refNb_addRefNb is j (-1)
  · simp [*]

/-- `comm_destroy` gives back what its two slots hold. -/
theorem refNb_commDestroy (k : CommId) (j : SockId) :
    (w.commDestroy k).refNb j = w.refNb j - w.links.slotsOf j k := by
  have unlisted : ∀ v : World H, (v.unlistComm k).refNb j = v.refNb j := by
    intro v
    unfold unlistComm
    split <;> rfl
  have freed : ∀ v : World H, (v.freeComm k).refNb j = v.refNb j := fun _ => rfl
  have second : ((w.dropInfo (w.comm k).info0.socket).comm k).info1.socket = w.links.info1 k :=
    congrArg (Links.info1 · k) (w.links_dropInfo _)
  have slots : w.links.slotsOf j k = (if (w.comm k).info0.socket = some j then 1 else 0) +
      (if (w.comm k).info1.socket = some j then 1 else 0) := rfl
  have info1 : w.links.info1 k = (w.comm k).info1.socket := rfl
  simp only [commDestroy, freed, unlisted, refNb_modifyComm, refNb_dropInfo, second, slots, info1]
  by_cases atFirst : (w.comm k).info0.socket = some j <;>
    by_cases atSecond : (w.comm k).info1.socket = some j <;> simp [atFirst, atSecond] <;> omega

/-- All but the counters of the sockets it held stays when a communication is destroyed. -/
theorem commDestroy_kept (k : CommId) :
    (w.commDestroy k).hosts = w.hosts ∧ (w.commDestroy k).sockets.freed = w.sockets.freed ∧
      (w.commDestroy k).sockets.next = w.sockets.next := by
  have dropped : ∀ (v : World H) (socket : Option SockId), (v.dropInfo socket).hosts = v.hosts ∧
      (v.dropInfo socket).sockets.freed = v.sockets.freed ∧
      (v.dropInfo socket).sockets.next = v.sockets.next := by
    intro v socket
    cases socket <;> exact ⟨rfl, rfl, rfl⟩
  have unlisted : ∀ v : World H, (v.unlistComm k).hosts = v.hosts ∧
      (v.unlistComm k).sockets = v.sockets := by
    intro v
    unfold unlistComm
    split <;> exact ⟨rfl, rfl⟩
  have freed : ∀ v : World H, (v.freeComm k).hosts = v.hosts ∧ (v.freeComm k).sockets = v.sockets :=
    fun _ => ⟨rfl, rfl⟩
  have emptied : ∀ v : World H, (v.modifyComm k fun c => { c with connWait := [] }).hosts = v.hosts ∧
      (v.modifyComm k fun c => { c with connWait := [] }).sockets = v.sockets := fun _ => ⟨rfl, rfl⟩
  simp only [commDestroy, freed, unlisted, emptied, dropped, and_self]

theorem freed_commDestroy (k j : CommId) :
    (w.commDestroy k).comms.freed j = if j = k then true else w.comms.freed j := by
  have dropped : ∀ (v : World H) (socket : Option SockId),
      (v.dropInfo socket).comms.freed = v.comms.freed := by
    intro v socket
    cases socket <;> rfl
  have unlisted : ∀ v : World H, (v.unlistComm k).comms.freed = v.comms.freed := by
    intro v
    unfold unlistComm
    split <;> rfl
  have freed : ∀ v : World H, (v.freeComm k).comms.freed j = if j = k then true else v.comms.freed j :=
    fun _ => Heap.freed_free ..
  have emptied : ∀ v : World H, (v.modifyComm k fun c => { c with connWait := [] }).comms.freed =
      v.comms.freed := fun _ => rfl
  simp only [commDestroy, freed, unlisted, emptied, dropped]

theorem deleteSocket_kept (is : SockId) :
    (w.deleteSocket is).hosts = w.hosts ∧ (w.deleteSocket is).sockets.freed = w.sockets.freed ∧
      (w.deleteSocket is).sockets.next = w.sockets.next := by
  unfold deleteSocket
  split <;> exact ⟨rfl, rfl, rfl⟩

theorem freed_confirmRegisterSocket (proc : Pid) (fd domain type protocol : Int) (j : SockId) :
    (w.confirmRegisterSocket proc fd domain type protocol).sockets.freed j =
      if j = w.sockets.next then false else w.sockets.freed j := Heap.freed_alloc _ _ _

theorem refNb_confirmRegisterSocket (proc : Pid) (fd domain type protocol : Int) (j : SockId) :
    (w.confirmRegisterSocket proc fd domain type protocol).refNb j =
      if j = w.sockets.next then 1 else w.refNb j := by
  simp only [refNb, socket_confirmRegisterSocket]
  split <;> rfl

@[simp] theorem refNb_commNew (is j : SockId) :
    (w.commNew is).refNb j = w.refNb j + if j = is then 1 else 0 := by
  simp only [refNb, commNew, modifySocket, World.socket, Heap.cell_modify]
  split <;> simp

@[simp] theorem refNb_queueConnection (is conn : SockId) (k : CommId) (j : SockId) :
    (w.queueConnection is conn k).refNb j =
      w.refNb j + (if j = is then 1 else 0) + if j = conn then 1 else 0 := by
  simp [queueConnection]

/-- The socket bound at the port of a socket. -/
def ownBinding (is : SockId) : Option SockId :=
  (w.portDesc (w.socket is).host (w.socket is).portLocal).bind PortDesc.bindSocket

theorem ownBinding_beginClose (is : SockId) : (w.beginClose is).ownBinding is = w.ownBinding is :=
  congrArg (fun l : Ledger H => (l.desc (l.place is).1 (l.place is).2).bind PortDesc.bindSocket)
    (show (w.beginClose is).ledger = w.ledger by simp [beginClose])

end

section

variable {H : Type} [DecidableEq H] (w : World H)

@[simp] theorem refNb_setPortDesc (host : H) (port : Nat) (desc : Option PortDesc) (j : SockId) :
    (w.setPortDesc host port desc).refNb j = w.refNb j := rfl

theorem refNb_unsetSocket (is j : SockId) :
    (w.unsetSocket is).refNb j =
      w.refNb j + if j = is ∧ w.ownBinding is = some is then -1 else 0 := by
  unfold unsetSocket ownBinding
  split
  · simp [*]
  · rename_i desc entry
    simp only [refNb_setPortDesc, entry, Option.bind_some]
    split
    · simp [*]
    · simp [*]

/-- A released socket is freed when its last reference was that of the list or of its port. -/
theorem releaseSocket_counts (is j : SockId) :
    (w.releaseSocket is).refNb j = ((w.unsetSocket is).deleteSocket is).refNb j ∧
      (w.releaseSocket is).sockets.freed j =
        if j = is ∧ ((w.unsetSocket is).deleteSocket is).refNb is = 0 then true
        else ((w.unsetSocket is).deleteSocket is).sockets.freed j := by
  have whole : w.releaseSocket is = if ((w.unsetSocket is).deleteSocket is).refNb is = 0 then
      ((w.unsetSocket is).deleteSocket is).freeSocket is
      else (w.unsetSocket is).deleteSocket is := rfl
  rw [whole]
  split
  · rename_i zero
    simp only [zero, and_true]
    exact ⟨rfl, Heap.freed_free _ _ _⟩
  · rename_i kept
    rw [if_neg fun released => kept released.2]
    exact ⟨rfl, rfl⟩

theorem unsetSocket_kept (is : SockId) :
    (w.unsetSocket is).sockets.freed = w.sockets.freed ∧
      (w.unsetSocket is).sockets.next = w.sockets.next ∧
      (w.unsetSocket is).allSockets = w.allSockets := by
  unfold unsetSocket
  split
  · exact ⟨rfl, rfl, rfl⟩
  · split <;> exact ⟨rfl, rfl, rfl⟩

theorem releaseSocket_kept (is : SockId) :
    (w.releaseSocket is).hosts = (w.unsetSocket is).hosts ∧
      (w.releaseSocket is).sockets.next = w.sockets.next := by
  have whole : w.releaseSocket is = if ((w.unsetSocket is).deleteSocket is).refNb is = 0 then
      ((w.unsetSocket is).deleteSocket is).freeSocket is
      else (w.unsetSocket is).deleteSocket is := rfl
  have freed : ∀ v : World H, (v.freeSocket is).hosts = v.hosts ∧
      (v.freeSocket is).sockets.next = v.sockets.next := fun _ => ⟨rfl, rfl⟩
  rw [whole]
  split <;> simp only [freed, deleteSocket_kept, unsetSocket_kept, and_self]

theorem freed_releaseSocket {w : World H} {is j : SockId}
    (freed : (w.releaseSocket is).sockets.freed j = true) :
    w.sockets.freed j = true ∨ j = is := by
  rw [(w.releaseSocket_counts is j).2, (deleteSocket_kept _ is).2.1, (w.unsetSocket_kept is).1] at freed
  split at freed
  · rename_i released
    exact .inr released.1
  · exact .inl freed

@[simp] theorem refNb_registerPort (host : H) (port : Nat) (j : SockId) :
    (w.registerPort host port).refNb j = w.refNb j := by
  simp only [refNb, World.socket, sockets_registerPort]

@[simp] theorem refNb_sendTask (host : H) (task : Task) (j : SockId) :
    (w.sendTask host task).refNb j = w.refNb j := rfl

theorem refNb_sendFrom (is s : SockId) (recv : RecvRef) (sent : DataSend) (tci : TaskCommInfo H)
    (receiver : H) (j : SockId) : (w.sendFrom is s recv sent tci receiver).refNb j = w.refNb j := by
  simp only [sendFrom, refNb_addRefNb, refNb_sendTask, refNb_modifyRecv]
  split <;> split <;> omega

/-- The tables after the socket `is`, which listens on `k`, was closed. -/
def closeListening (proc : Pid) (fd : Int) (is : SockId) (k : CommId) : World H :=
  (((w.beginClose is).releaseSocket is).commDestroy k).endClose proc fd is

variable (proc : Pid) (fd : Int) (is : SockId) (k : CommId)

theorem links_closeListening : (w.closeListening proc fd is k).links =
    ((w.links.delete is).destroy k).setOpened proc fd none := by
  simp [closeListening, endClose, beginClose]

theorem ledger_closeListening : (w.closeListening proc fd is k).ledger = w.ledger.release is := by
  simp [closeListening, endClose, beginClose]

theorem next_closeListening : (w.closeListening proc fd is k).sockets.next = w.sockets.next :=
  (commDestroy_kept _ k).2.2.trans ((w.beginClose is).releaseSocket_kept is).2

/-- References left when the socket is off the list and its port given back. -/
theorem refNb_released (listed : is ∈ w.allSockets) (j : SockId) :
    (((w.beginClose is).unsetSocket is).deleteSocket is).refNb j =
      w.refNb j - if j = is then 2 + (if w.ownBinding is = some is then 1 else 0) else 0 := by
  have unlisted : ((w.beginClose is).unsetSocket is).allSockets = w.allSockets :=
    ((w.beginClose is).unsetSocket_kept is).2.2
  have begun : (w.beginClose is).refNb j = w.refNb j + if j = is then -1 else 0 := by
    simp [beginClose]
  rw [refNb_deleteSocket, refNb_unsetSocket, ownBinding_beginClose, unlisted, begun]
  by_cases same : j = is
  · simp only [same, listed, true_and, and_true, if_true]
    split <;> omega
  · simp [same]

theorem refNb_closeListening (listed : is ∈ w.allSockets) (j : SockId) :
    (w.closeListening proc fd is k).refNb j = w.refNb j - w.links.slotsOf j k -
      if j = is then 2 + (if w.ownBinding is = some is then 1 else 0) else 0 := by
  have slots : ((w.beginClose is).releaseSocket is).links.slotsOf j k = w.links.slotsOf j k := by
    simp only [links_releaseSocket, beginClose, links_addRefNb, links_addRefcount]
    rfl
  simp only [closeListening, endClose, refNb_setFd, refNb_addRefcount, refNb_commDestroy, slots,
    (releaseSocket_counts _ is j).1, w.refNb_released is listed j]
  omega

theorem freed_closeListening (listed : is ∈ w.allSockets)
    (references : w.refNb is = 2 + if w.ownBinding is = some is then 1 else 0) (j : SockId) :
    (w.closeListening proc fd is k).sockets.freed j = if j = is then true else w.sockets.freed j := by
  have zero : (((w.beginClose is).unsetSocket is).deleteSocket is).refNb is = 0 := by
    rw [w.refNb_released is listed, if_pos rfl, references]
    omega
  refine (congrFun (commDestroy_kept _ k).2.1 j).trans ?_
  rw [(releaseSocket_counts _ is j).2, (deleteSocket_kept _ is).2.1,
    ((w.beginClose is).unsetSocket_kept is).1]
  simp only [zero, and_true]
  rfl

end

end World

end Simterpose
