import Simterpose.Effects

/-! # What the calls do to the descriptor tables

Most of what a call does happens to sockets, communications and ports. The descriptor
tables of the processes, the plain descriptors and the pipes are another part of the
state, which `comm_close` and what it calls leave alone.
-/

namespace Simterpose

open Lib

namespace World

variable {H : Type}

/-- Descriptor tables, descriptors and pipes are the same. -/
structure SameFiles (w w' : World H) : Prop where
  procs : w'.procs = w.procs
  descs : w'.descs = w.descs
  pipes : w'.pipes = w.pipes
  made : w'.sockets.next = w.sockets.next
  fds : ∀ s, (w'.socket s).fd = (w.socket s).fd

namespace SameFiles

variable {w w' w'' : World H}

theorem refl (w : World H) : w.SameFiles w := ⟨rfl, rfl, rfl, rfl, fun _ => rfl⟩

theorem trans (first : w.SameFiles w') (second : w'.SameFiles w'') : w.SameFiles w'' where
  procs := second.procs.trans first.procs
  descs := second.descs.trans first.descs
  pipes := second.pipes.trans first.pipes
  made := second.made.trans first.made
  fds s := (second.fds s).trans (first.fds s)

theorem getFd (same : w.SameFiles w') (proc : Pid) (fd : Int) :
    w'.processDescriptorGetFd proc fd = w.processDescriptorGetFd proc fd := by
  simp only [processDescriptorGetFd, same.procs]

theorem fileDesc (same : w.SameFiles w') (ref : DescRef) : w'.fileDesc ref = w.fileDesc ref := by
  cases ref with
  | plain d => exact congrArg (·.cell d) same.descs
  | socket s => exact same.fds s

end SameFiles

section

variable (w : World H)

theorem sameFiles_modifySocket {f : InfosSocket H → InfosSocket H} (kept : ∀ s, (f s).fd = s.fd)
    (is : SockId) : w.SameFiles (w.modifySocket is f) := by
  refine ⟨rfl, rfl, rfl, rfl, fun s => ?_⟩
  simp only [modifySocket, World.socket, Heap.cell_modify]
  split
  · exact kept _
  · rfl

theorem sameFiles_addRefNb (is : SockId) (n : Int) : w.SameFiles (w.addRefNb is n) :=
  w.sameFiles_modifySocket (by intro; rfl) is

theorem sameFiles_modifyComm (k : CommId) (f : Comm H → Comm H) :
    w.SameFiles (w.modifyComm k f) := ⟨rfl, rfl, rfl, rfl, fun _ => rfl⟩

theorem sameFiles_deleteSocket (is : SockId) : w.SameFiles (w.deleteSocket is) := by
  unfold deleteSocket
  split
  · obtain ⟨procs, descs, pipes, made, fds⟩ := w.sameFiles_addRefNb is (-1)
    exact ⟨procs, descs, pipes, made, fds⟩
  · exact .refl w

theorem sameFiles_dropInfo (socket : Option SockId) : w.SameFiles (w.dropInfo socket) := by
  cases socket with
  | none => exact .refl w
  | some is => exact w.sameFiles_addRefNb is (-1)

theorem sameFiles_unlistComm (k : CommId) : w.SameFiles (w.unlistComm k) := by
  unfold unlistComm
  split <;> exact ⟨rfl, rfl, rfl, rfl, fun _ => rfl⟩

theorem sameFiles_commDestroy (k : CommId) : w.SameFiles (w.commDestroy k) := by
  have freed : ∀ v : World H, v.SameFiles (v.freeComm k) :=
    fun _ => ⟨rfl, rfl, rfl, rfl, fun _ => rfl⟩
  exact (w.sameFiles_dropInfo _).trans ((sameFiles_dropInfo _ _).trans
    ((sameFiles_modifyComm _ k _).trans ((sameFiles_unlistComm _ k).trans (freed _))))

theorem sameFiles_setAddress (is : SockId) (ip : UInt32) (port : Nat) :
    w.SameFiles (w.setAddress is ip port) :=
  w.sameFiles_modifySocket (by intro; rfl) is

theorem sameFiles_modifyRecv (recv : RecvRef) (f : RecvInformation H → RecvInformation H) :
    w.SameFiles (w.modifyRecv recv f) := by
  unfold modifyRecv
  split <;> exact w.sameFiles_modifyComm _ _

theorem sameFiles_commNew (is : SockId) : w.SameFiles (w.commNew is) := by
  have attached := w.sameFiles_modifySocket
    (f := fun s => { s with comm := some w.comms.next, refNb := s.refNb + 1 }) (by intro; rfl) is
  exact ⟨rfl, rfl, rfl, rfl, attached.fds⟩

theorem sameFiles_queueConnection (is conn : SockId) (k : CommId) :
    w.SameFiles (w.queueConnection is conn k) := by
  obtain ⟨-, -, -, -, fds⟩ := (w.sameFiles_commNew is).trans (sameFiles_addRefNb _ conn 1)
  exact ⟨rfl, rfl, rfl, rfl, fds⟩

theorem sameFiles_takeConnection (is : SockId) (k conn : CommId) (rest : List CommId) :
    w.SameFiles (w.takeConnection is k conn rest) := by
  obtain ⟨-, -, -, -, fds⟩ := w.sameFiles_modifySocket
    (f := fun s => { s with comm := some conn, refNb := s.refNb + 1 }) (by intro; rfl) is
  exact ⟨rfl, rfl, rfl, rfl, fds⟩

theorem getFd_addRefcount (ref : DescRef) (n : Int) (proc : Pid) (fd : Int) :
    (w.addRefcount ref n).processDescriptorGetFd proc fd = w.processDescriptorGetFd proc fd := by
  cases ref <;> rfl

/-- Both duplicating calls let the new descriptor be what the old one is. -/
theorem getFd_syscallDupPost {w' : World H} {proc : Pid} {oldfd newfd : Int}
    (done : w.syscallDupPost proc oldfd newfd = .ok w') (q : Pid) (g : Int) :
    w'.processDescriptorGetFd q g =
      if q = proc ∧ g = newfd then w.processDescriptorGetFd proc oldfd
      else w.processDescriptorGetFd q g := by
  obtain ⟨ref, pipes, found, rfl⟩ := syscallDupPost_ok done
  have piped : ∀ v : World H, { v with pipes := pipes }.processDescriptorGetFd q g =
      v.processDescriptorGetFd q g := fun _ => rfl
  rw [piped, getFd_setFd, getFd_addRefcount, found]

end

variable [DecidableEq H] {w w' : World H}

theorem sameFiles_setPortDesc (w : World H) (host : H) (port : Nat) (desc : Option PortDesc) :
    w.SameFiles (w.setPortDesc host port desc) := ⟨rfl, rfl, rfl, rfl, fun _ => rfl⟩

theorem sameFiles_registerPort (w : World H) (host : H) (port : Nat) :
    w.SameFiles (w.registerPort host port) := w.sameFiles_setPortDesc ..

theorem sameFiles_setPortOnBinding (w : World H) (host : H) (port : Nat) (is : SockId) (device : Nat) :
    w.SameFiles (w.setPortOnBinding host port is device) := by
  unfold setPortOnBinding
  split
  · exact .refl w
  · exact (w.sameFiles_setPortDesc ..).trans (sameFiles_addRefNb ..)

theorem sameFiles_bindTo (w : World H) (host : H) (sai : SockaddrIn) (is : SockId) :
    w.SameFiles (w.bindTo host sai is) :=
  (w.sameFiles_registerPort ..).trans ((sameFiles_setPortOnBinding ..).trans
    ((sameFiles_modifySocket _ (by intro; rfl) is).trans (sameFiles_setAddress ..)))

theorem sameFiles_connectFrom (w : World H) (is conn : SockId) (k : CommId) (host : H) (ip : UInt32)
    (port : Nat) : w.SameFiles (w.connectFrom is conn k host ip port) :=
  (w.sameFiles_queueConnection ..).trans
    ((sameFiles_setAddress ..).trans (sameFiles_registerPort ..))

theorem sameFiles_sendFrom (w : World H) (is s : SockId) (recv : RecvRef) (sent : DataSend)
    (tci : TaskCommInfo H) (receiver : H) :
    w.SameFiles (w.sendFrom is s recv sent tci receiver) := by
  have task : ∀ v : World H, v.SameFiles (v.sendTask receiver tci.task) :=
    fun _ => ⟨rfl, rfl, rfl, rfl, fun _ => rfl⟩
  exact (w.sameFiles_addRefNb is 1).trans ((sameFiles_addRefNb _ s 1).trans
    ((sameFiles_modifyRecv ..).trans ((sameFiles_modifyRecv ..).trans
      ((task _).trans ((sameFiles_addRefNb ..).trans (sameFiles_addRefNb ..))))))

theorem sameFiles_unsetSocket (w : World H) (is : SockId) : w.SameFiles (w.unsetSocket is) := by
  unfold unsetSocket
  split
  · exact .refl w
  · split
    · exact (w.sameFiles_addRefNb is (-1)).trans (sameFiles_setPortDesc ..)
    · exact w.sameFiles_setPortDesc ..

theorem sameFiles_releaseSocket (w : World H) (is : SockId) : w.SameFiles (w.releaseSocket is) := by
  refine (w.sameFiles_unsetSocket is).trans ((sameFiles_deleteSocket _ is).trans ?_)
  unfold releaseSocket
  dsimp only
  split
  · exact ⟨rfl, rfl, rfl, rfl, fun _ => rfl⟩
  · exact .refl _

theorem sameFiles_commClose {is : SockId} (done : w.commClose is = .ok w') : w.SameFiles w' := by
  rcases commClose_ok done with ⟨-, rfl⟩ | ⟨k, -, ⟨s, -, -, rfl⟩ | ⟨s, t, -, -, -, rfl⟩ | ⟨-, -, rfl⟩⟩
  · exact .refl _
  · exact (w.sameFiles_releaseSocket s).trans (sameFiles_commDestroy _ k)
  · exact (w.sameFiles_releaseSocket s).trans
      ((sameFiles_releaseSocket _ t).trans (sameFiles_commDestroy _ k))
  · exact w.sameFiles_modifyComm k _

/-- Closing removes the descriptor and no other. -/
theorem getFd_processCloseCall {proc : Pid} {fd : Int}
    (done : w.processCloseCall proc fd = .ok w') (q : Pid) (g : Int) :
    w'.processDescriptorGetFd q g =
      if q = proc ∧ g = fd then none else w.processDescriptorGetFd q g := by
  rcases processCloseCall_ok done with ⟨absent, rfl⟩ | ⟨d, pipes, -, rfl⟩ |
      ⟨is, w₁, -, rfl, ⟨-, rfl⟩ | ⟨-, closed⟩⟩
  · split
    · rename_i here
      rw [here.1, here.2, absent]
    · rfl
  · rw [getFd_setFd]
    rfl
  · rw [endClose, getFd_setFd, getFd_addRefcount, getFd_setFd]
    split <;> rfl
  · rw [endClose, getFd_setFd, getFd_addRefcount, getFd_setFd, (sameFiles_commClose closed).getFd]
    split <;> rfl

theorem getFd_closeTarget {proc : Pid} {newfd : Int} (done : w.closeTarget proc newfd = .ok w')
    (q : Pid) (g : Int) : w'.processDescriptorGetFd q g =
      if q = proc ∧ g = newfd then none else w.processDescriptorGetFd q g := by
  unfold closeTarget at done
  split at done
  · rw [getFd_processCloseCall done, getFd_addRefcount]
  · rename_i absent
    cases done
    split
    · rename_i here
      rw [here.1, here.2, absent]
    · rfl

theorem getFd_syscallDup2Post {proc : Pid} {oldfd newfd : Int}
    (done : w.syscallDup2Post proc oldfd newfd = .ok w') (q : Pid) (g : Int) :
    w'.processDescriptorGetFd q g =
      if q = proc ∧ g = newfd then w.processDescriptorGetFd proc oldfd
      else w.processDescriptorGetFd q g := by
  obtain ⟨ref, w₁, pipes, found, closed, rfl⟩ := syscallDup2Post_ok done
  have piped : ∀ v : World H, { v with pipes := pipes }.processDescriptorGetFd q g =
      v.processDescriptorGetFd q g := fun _ => rfl
  rw [piped, getFd_setFd, getFd_closeTarget closed, getFd_addRefcount, found]
  split <;> rfl

end World

end Simterpose
