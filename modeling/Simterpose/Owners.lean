import Simterpose.Death

/-! # The process that made a socket

The descriptor part of a socket names the process that made it. Nothing ever changes
this, neither the calls nor the death of that process.
-/

namespace Simterpose

open Lib

namespace World

section

variable {H : Type} (w : World H)

/-- The process that the descriptor part of a socket refers to. -/
def owner (s : SockId) : Pid := (w.socket s).fd.proc

theorem owner_modifySocket {f : InfosSocket H → InfosSocket H} (same : ∀ s, (f s).fd.proc = s.fd.proc)
    (is : SockId) : (w.modifySocket is f).owner = w.owner := by
  funext s
  simp only [owner, modifySocket, World.socket, Heap.cell_modify]
  split
  · exact same _
  · rfl

theorem SameFiles.owner {w w' : World H} (same : w.SameFiles w') : w'.owner = w.owner :=
  funext fun s => congrArg (·.proc) (same.fds s)

@[simp] theorem owner_addRefcount (ref : DescRef) (n : Int) :
    (w.addRefcount ref n).owner = w.owner := by
  cases ref with
  | plain => rfl
  | socket is => exact w.owner_modifySocket (by intro; rfl) is

@[simp] theorem owner_confirmRegisterSocket (proc : Pid) (fd domain type protocol : Int) :
    (w.confirmRegisterSocket proc fd domain type protocol).owner =
      Function.update w.owner w.sockets.next proc :=
  Heap.proj_alloc w.sockets (w.newSocket proc fd domain type protocol) fun s => s.fd.proc

variable [DecidableEq H]

@[simp] theorem owner_acceptFrom (proc : Pid) (newfd : Int) (listener : SockId) (k conn : CommId)
    (rest : List CommId) (ip : UInt32) :
    (w.acceptFrom proc newfd listener k conn rest ip).owner =
      Function.update w.owner w.sockets.next proc := by
  have streamed : ∀ (v : World H) (is : SockId) (stream : Option StreamId),
      (v.modifySocket is fun n => { n with fd := { n.fd with stream := stream } }).owner = v.owner :=
    fun v is stream => v.owner_modifySocket (by intro; rfl) is
  have joined : ∀ v : World H, v.SameFiles
      (((v.takeConnection w.sockets.next k conn rest).registerPort
        (v.procs proc).host (w.socket listener).portLocal).setAddress w.sockets.next ip
          (w.socket listener).portLocal) :=
    fun v => (v.sameFiles_takeConnection ..).trans
      ((sameFiles_registerPort ..).trans (sameFiles_setAddress ..))
  exact (streamed ..).trans ((joined _).owner.trans (w.owner_confirmRegisterSocket ..))

variable {w} {w' : World H}

theorem owner_socketClose {proc : Pid} {fd : Int} (done : w.socketClose proc fd = .ok w') :
    w'.owner = w.owner := by
  unfold socketClose at done
  split at done
  · cases done
    rfl
  · rename_i is _
    obtain ⟨w₁, detached, rfl⟩ := bind_pure_eq_ok.mp done
    have counted : ((w.addRefcount (.socket is) (-1)).addRefNb is (-1)).owner = w.owner := by
      rw [(sameFiles_addRefNb _ is (-1)).owner, owner_addRefcount]
    unfold detachSocket at detached
    split at detached
    · exact (sameFiles_commClose detached).owner.trans counted
    · cases detached
      exact counted

theorem owner_processCloseCall {proc : Pid} {fd : Int} (done : w.processCloseCall proc fd = .ok w') :
    w'.owner = w.owner := by
  unfold processCloseCall at done
  split at done
  · cases done
    rfl
  · rename_i ref _
    obtain ⟨w₁, closed, rfl⟩ := bind_pure_eq_ok.mp done
    have shape : ((w₁.addRefcount ref (-1)).processDescriptorSetFd proc fd none).owner = w₁.owner :=
      w₁.owner_addRefcount ref (-1)
    rw [shape, ← w.owner_addRefcount ref 1]
    unfold closeByType at closed
    split at closed
    · exact owner_socketClose closed
    · cases closed
    · cases closed
      rfl
    · cases closed
    · cases closed
      rfl

theorem owner_closeTarget {proc : Pid} {newfd : Int} {ref : DescRef}
    (done : (w.addRefcount ref 1).closeTarget proc newfd = .ok w') : w'.owner = w.owner := by
  unfold closeTarget at done
  split at done
  · rw [owner_processCloseCall done, owner_addRefcount, owner_addRefcount]
  · cases done
    exact w.owner_addRefcount ref 1

theorem owner_closeAllCommunication {proc : Pid} {fds : List Int} {emptied : List (RecvInformation H)}
    (done : closeAllCommunication proc fds w = .ok (w', emptied)) : w'.owner = w.owner := by
  induction fds generalizing w emptied with
  | nil =>
      cases done
      rfl
  | cons fd fds ih =>
      obtain ⟨⟨w₁, one⟩, first, done⟩ := bind_eq_ok.mp done
      obtain ⟨⟨w₂, others⟩, rest, ⟨⟩⟩ := bind_pure_eq_ok.mp done
      refine (ih rest).trans ?_
      rcases closeCommunication_ok first with ⟨rfl, -⟩ | ⟨is, recv, -, -, -, closed⟩
      · rfl
      · exact (owner_socketClose closed).trans (w.sameFiles_modifyRecv ..).owner

theorem owner_processDie {proc : Pid} {fds : List Int} {emptied : List (RecvInformation H)}
    (done : w.processDie proc fds = .ok (w', emptied)) : w'.owner = w.owner := by
  obtain ⟨⟨w₁, emptied'⟩, closed, ⟨⟩⟩ := bind_pure_eq_ok.mp done
  refine Eq.trans ?_ (owner_closeAllCommunication closed)
  apply foldl_destroyDesc owner owner_addRefcount
  intro v ref
  cases ref <;> rfl

omit [DecidableEq H] in
/-- The only new descriptors are those of a socket just made. -/
theorem owned_register (sound : w.links.Sound)
    (owned : ∀ {proc fd s}, w.links.opened proc fd = some s → w.owner s = proc) {maker proc : Pid}
    {fd' fd : Int} (network : Prop) {s : SockId}
    (here : (w.links.register maker fd' network).opened proc fd = some s) :
    Function.update w.owner w.sockets.next maker s = proc := by
  simp only [Links.register, Links.setOpened] at here
  split at here
  · rename_i same
    cases here
    rw [same.1]
    exact Function.update_self ..
  · have old : s ≠ w.sockets.next := Nat.ne_of_lt (sound.openedLt here)
    rw [Function.update_of_ne old]
    exact owned here

omit [DecidableEq H] in
/-- A copy of a descriptor goes to the process that had it. -/
theorem owned_setOpened (owned : ∀ {proc fd s}, w.links.opened proc fd = some s → w.owner s = proc)
    {l : Links} (before : ∀ {proc fd s}, l.opened proc fd = some s → w.owner s = proc)
    {maker proc : Pid} {oldfd newfd fd : Int} {ref : DescRef} {s : SockId}
    (found : w.processDescriptorGetFd maker oldfd = some ref)
    (here : (l.setOpened maker newfd ref.socket?).opened proc fd = some s) : w.owner s = proc := by
  simp only [Links.setOpened] at here
  split at here
  · rename_i same
    have there : w.links.opened maker oldfd = some s := by simpa [World.links, found] using here
    rw [same.1]
    exact owned there
  · exact before here

/-- A process has descriptors of sockets that it made only. -/
theorem Effect.owned {label : Op × Event H} (sound : w.links.Sound)
    (owned : ∀ {proc fd s}, w.links.opened proc fd = some s → w.owner s = proc)
    (effect : w.Effect label w') {proc : Pid} {fd : Int} {s : SockId}
    (here : w'.links.opened proc fd = some s) : w'.owner s = proc := by
  cases effect with
  | quiet => exact owned here
  | socket =>
      rw [links_confirmRegisterSocket] at here
      rw [owner_confirmRegisterSocket]
      exact owned_register sound owned _ here
  | bind =>
      rw [links_bindTo] at here
      rw [(w.sameFiles_bindTo ..).owner]
      exact owned here
  | @listen _ _ is =>
      rw [links_listen] at here
      have same : ((w.commNew is).commSetListen w.comms.next).owner = w.owner :=
        (w.sameFiles_commNew is).owner
      rw [same]
      exact owned here
  | connect =>
      rw [links_connectFrom] at here
      rw [(w.sameFiles_connectFrom ..).owner]
      exact owned here
  | @accept maker _ newfd listener =>
      rw [links_acceptFrom] at here
      rw [owner_acceptFrom]
      exact owned_register sound owned (w.links.network listener) here
  | send =>
      rw [links_sendFrom] at here
      rw [(w.sameFiles_sendFrom ..).owner]
      exact owned here
  | close done =>
      rw [owner_processCloseCall done]
      exact owned ((processCloseCall_shut done).opened here)
  | @dup maker oldfd newfd ref pipes found =>
      have same : ({ (w.addRefcount ref 1).processDescriptorSetFd maker newfd (some ref) with
          pipes := pipes } : World H).owner = w.owner := w.owner_addRefcount ref 1
      rw [same]
      have links : ({ (w.addRefcount ref 1).processDescriptorSetFd maker newfd (some ref) with
          pipes := pipes } : World H).links = w.links.setOpened maker newfd (ref.socket?) :=
        ((w.addRefcount ref 1).links_setFd maker newfd (some ref)).trans
          (congrArg (Links.setOpened · maker newfd ref.socket?) (w.links_addRefcount ref 1))
      rw [links] at here
      exact owned_setOpened owned owned found here
  | @dup2 maker oldfd newfd ref w₁ pipes found closed =>
      have kept : w₁.owner = w.owner := owner_closeTarget closed
      have same : ({ w₁.processDescriptorSetFd maker newfd (some ref) with
          pipes := pipes } : World H).owner = w.owner := kept
      rw [same]
      have links : ({ w₁.processDescriptorSetFd maker newfd (some ref) with
          pipes := pipes } : World H).links = w₁.links.setOpened maker newfd (ref.socket?) :=
        w₁.links_setFd maker newfd (some ref)
      rw [links] at here
      exact owned_setOpened owned (fun there => owned ((links_closeTarget closed).opened there)) found here

end

end World

end Simterpose
