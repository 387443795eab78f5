import Simterpose.Network

/-! # What a successful call leaves behind

For each call, the tables after it, as the composition of primitives that the
successful branch of its handler runs, together with the tests that led there. What
follows looks at calls through these statements only.
-/

namespace Simterpose

open Lib

namespace World

section

variable {H : Type} {w w' : World H}

theorem getInfosSocket_congr (same : w'.procs = w.procs) (proc : Pid) (fd : Int) :
    w'.getInfosSocket proc fd = w.getInfosSocket proc fd := by
  ext is
  simp only [getInfosSocket_eq_some, processDescriptorGetFd, same]

theorem socketNetwork_iff {proc : Pid} {fd : Int} {is : SockId}
    (found : w.getInfosSocket proc fd = some is) :
    w.socketNetwork proc fd = true ↔ InetLike (w.socket is) := by
  simp [socketNetwork, found]

theorem registerSocket_ok {proc : Pid} {fd domain type protocol : Int}
    (done : w.registerSocket proc fd domain type protocol = .ok w') :
    w.processDescriptorGetFd proc fd = none ∧
      w' = w.confirmRegisterSocket proc fd domain type protocol := by
  unfold registerSocket at done
  split at done
  · cases done
  · rename_i absent
    exact ⟨by simpa using absent, by cases done; rfl⟩

theorem syscallSocket_ok {proc : Pid} {domain type protocol ret : Int}
    (done : w.syscallSocket proc domain type protocol ret = .ok w') :
    w' = w ∨ w.processDescriptorGetFd proc ret = none ∧
      w' = w.confirmRegisterSocket proc ret domain type protocol := by
  unfold syscallSocket at done
  split at done
  · exact .inr (registerSocket_ok done)
  · exact .inl (by cases done; rfl)

theorem processListenCall_ok {proc : Pid} {sockfd : Int}
    (done : w.processListenCall proc sockfd = .ok w') :
    ∃ is, w.getInfosSocket proc sockfd = some is ∧
      w' = (w.commNew is).commSetListen w.comms.next := by
  unfold processListenCall at done
  split at done
  · cases done
  · rename_i is found
    exact ⟨is, found, by cases done; rfl⟩

theorem processDescriptorGetFd_confirmRegisterSocket (proc proc' : Pid)
    (fd fd' domain type protocol : Int) :
    (w.confirmRegisterSocket proc fd domain type protocol).processDescriptorGetFd proc' fd' =
      if proc' = proc ∧ fd' = fd then some (.socket w.sockets.next)
      else w.processDescriptorGetFd proc' fd' :=
  w.getFd_setFd proc proc' fd fd' (some (.socket w.sockets.next))

theorem socket_confirmRegisterSocket (proc : Pid) (fd domain type protocol : Int) (is : SockId) :
    (w.confirmRegisterSocket proc fd domain type protocol).socket is =
      if is = w.sockets.next then w.newSocket proc fd domain type protocol else w.socket is :=
  Heap.cell_alloc _ _ _

/-- A socket with a communication is not the one just made. -/
theorem attached_of_confirmRegisterSocket {proc proc' : Pid} {fd fd' domain type protocol : Int}
    {listener : SockId} {k : CommId}
    (found : (w.confirmRegisterSocket proc fd domain type protocol).getInfosSocket proc' fd' = some listener)
    (attached : ((w.confirmRegisterSocket proc fd domain type protocol).socket listener).comm = some k) :
    w.getInfosSocket proc' fd' = some listener ∧ (w.socket listener).comm = some k := by
  have other : listener ≠ w.sockets.next := by
    rintro rfl
    simp [socket_confirmRegisterSocket, newSocket] at attached
  rw [socket_confirmRegisterSocket, if_neg other] at attached
  refine ⟨?_, attached⟩
  rw [getInfosSocket_eq_some, processDescriptorGetFd_confirmRegisterSocket] at found
  rw [getInfosSocket_eq_some]
  split at found
  · cases found
    exact absurd rfl other
  · exact found

theorem procs_takeConnection (is : SockId) (k conn : CommId) (rest : List CommId) :
    (w.takeConnection is k conn rest).procs = w.procs := rfl

theorem setLocaladdrPortSocket_ok {proc : Pid} {fd : Int} {ip : UInt32} {port : Nat}
    (done : w.setLocaladdrPortSocket proc fd ip port = .ok w') :
    ∃ is, w.getInfosSocket proc fd = some is ∧ w' = w.setAddress is ip port := by
  unfold setLocaladdrPortSocket at done
  split at done
  · cases done
  · rename_i is found
    exact ⟨is, found, by cases done; rfl⟩

/-- A new communication is live, and no other one is freed or brought back. -/
theorem freed_commNew (is : SockId) (k : CommId) :
    (w.commNew is).comms.freed k = if k = w.comms.next then false else w.comms.freed k :=
  Heap.freed_alloc _ _ _

theorem commAskConnect_ok {host : H} {port : Nat} {proc : Pid} {fd : Int} {device : Nat}
    {accProc : Option SockId} (done : w.commAskConnect host port proc fd device = .ok (w', accProc)) :
    w' = w ∧ accProc = none ∨
      ∃ is conn k, w.getInfosSocket proc fd = some is ∧
        w.getBindingSocketHost host port device = some conn ∧
        ((w.commNew is).socket conn).comm = some k ∧ (w.commNew is).comms.freed k = false ∧
        accProc = some conn ∧ w' = w.queueConnection is conn k := by
  unfold commAskConnect at done
  split at done
  · cases done
    exact .inl ⟨rfl, rfl⟩
  · rename_i conn binding
    split at done
    · cases done
    · rename_i is found
      split at done
      · cases done
      · rename_i k attached
        split at done
        · cases done
        · rename_i live
          cases done
          exact .inr ⟨is, conn, k, found, binding, attached, by simpa using live, rfl, rfl⟩

theorem commJoinOnAccept_ok {is : SockId} {proc : Pid} {fdListen : Int}
    (done : w.commJoinOnAccept is proc fdListen = .ok w') :
    ∃ listener k conn rest, w.getInfosSocket proc fdListen = some listener ∧
      (w.socket listener).comm = some k ∧ (w.comm k).connWait = conn :: rest ∧
      w' = w.takeConnection is k conn rest := by
  unfold commJoinOnAccept at done
  split at done
  · cases done
  · rename_i listener found
    split at done
    · cases done
    · rename_i k attached
      split at done
      · cases done
      · rename_i conn rest queue
        exact ⟨listener, k, conn, rest, found, attached, queue, by cases done; rfl⟩

theorem commAcceptConnect_ok {is : SockId} {sai : SockaddrIn} {k conn : CommId} {rest : List CommId}
    (attached : (w.socket is).comm = some k) (queue : (w.comm k).connWait = conn :: rest)
    (done : w.commAcceptConnect is = .ok (some sai)) :
    ∃ client, (w.comm conn).info0.socket = some client ∧
      sai = { addr := (w.socket client).ipLocal, port := UInt16.ofNat (w.socket client).portLocal } := by
  simp only [commAcceptConnect, attached, queue] at done
  split at done
  · cases done
  · rename_i client first
    exact ⟨client, first, by cases done; rfl⟩

theorem hosts_modifyRecv (recv : RecvRef) (f : RecvInformation H → RecvInformation H) :
    (w.modifyRecv recv f).hosts = w.hosts := by
  unfold modifyRecv
  split <;> rfl

theorem commGetPeerRecv_modifyRecv (recv : RecvRef) (f : RecvInformation H → RecvInformation H)
    (is : SockId) : (w.modifyRecv recv f).commGetPeerRecv is = w.commGetPeerRecv is := by
  have kept : ∀ k, ((w.modifyRecv recv f).comm k).info0.socket = (w.comm k).info0.socket := by
    intro k
    simp only [modifyRecv]
    split <;> (simp only [modifyComm, World.comm, Heap.cell_modify]; split <;> rfl)
  have attached : ((w.modifyRecv recv f).socket is).comm = (w.socket is).comm := by
    simp only [modifyRecv]
    split <;> rfl
  simp only [commGetPeerRecv, attached, kept]

theorem comm_addRefNb (is j : SockId) (n : Int) :
    ((w.addRefNb is n).socket j).comm = (w.socket j).comm := by
  simp only [addRefNb, modifySocket, World.socket, Heap.cell_modify]
  split <;> rfl

theorem dupPipe_ok {proc : Pid} {oldfd newfd : Int} {ref : DescRef}
    (done : w.dupPipe proc oldfd newfd ref = .ok w') : ∃ pipes, w' = { w with pipes := pipes } := by
  unfold dupPipe at done
  split at done
  · split at done
    · cases done
    · dsimp only at done
      split at done
      · cases done
        exact ⟨_, rfl⟩
      · cases done
  · cases done
    exact ⟨w.pipes, rfl⟩

theorem syscallDupPost_ok {proc : Pid} {oldfd newfd : Int}
    (done : w.syscallDupPost proc oldfd newfd = .ok w') :
    ∃ ref pipes, w.processDescriptorGetFd proc oldfd = some ref ∧
      w' = { (w.addRefcount ref 1).processDescriptorSetFd proc newfd (some ref) with pipes := pipes } := by
  unfold syscallDupPost at done
  split at done
  · cases done
  · rename_i ref found
    obtain ⟨pipes, rfl⟩ := dupPipe_ok done
    exact ⟨ref, pipes, found, rfl⟩

theorem bindEvent_of_failed {proc : Pid} {sockfd : Int} {sai : SockaddrIn} {ret : Option Int}
    (failed : ret ≠ some 0) : w.bindEvent proc sockfd sai ret = .silent := by
  unfold bindEvent
  split
  · exact absurd rfl failed
  · rfl

theorem bindEvent_of_found {proc : Pid} {sockfd : Int} {sai : SockaddrIn} {is : SockId}
    (found : w.getInfosSocket proc sockfd = some is) :
    w.bindEvent proc sockfd sai (some 0) =
      .bound is (w.procs proc).host sai.port.toNat sai.addr := by
  simp [bindEvent, found]

theorem connectEvent_none (proc : Pid) (sockfd : Int) :
    w.connectEvent proc sockfd none = .silent := by
  unfold connectEvent
  split <;> simp_all

theorem connectEvent_of_found {proc : Pid} {sockfd : Int} {is listener : SockId}
    (found : w.getInfosSocket proc sockfd = some is) :
    w.connectEvent proc sockfd (some listener) = .asked is listener := by
  simp [connectEvent, found]

theorem acceptEvent_of_refused {proc : Pid} {sockfd newfd : Int} {sai : Option SockaddrIn}
    (refused : sai = none ∨ newfd < 0) : w.acceptEvent proc sockfd newfd sai = .silent := by
  unfold acceptEvent
  split
  · rcases refused with none_ | negative
    · cases none_
    · split
      · rw [if_neg (by omega)]
      · rfl
  · rfl

theorem acceptEvent_of_found {proc : Pid} {sockfd newfd : Int} {sai : SockaddrIn}
    {listener client : SockId} (found : w.getInfosSocket proc sockfd = some listener)
    (waiting : w.waitingClient listener = some client) (nonneg : newfd ≥ 0) :
    w.acceptEvent proc sockfd newfd (some sai) =
      .accepted listener client w.sockets.next sai := by
  simp [acceptEvent, found, waiting, nonneg]

end

section

variable {H : Type} [DecidableEq H] {w w' : World H}

@[simp] theorem procs_registerPort (host : H) (port : Nat) :
    (w.registerPort host port).procs = w.procs := rfl

@[simp] theorem sockets_registerPort (host : H) (port : Nat) :
    (w.registerPort host port).sockets = w.sockets := rfl

@[simp] theorem procs_setPortOnBinding (host : H) (port : Nat) (is : SockId) (device : Nat) :
    (w.setPortOnBinding host port is device).procs = w.procs := by
  unfold setPortOnBinding
  split <;> rfl

/-- The tables after a successful `bind`. -/
def bindTo (w : World H) (host : H) (sai : SockaddrIn) (is : SockId) : World H :=
  let w := w.registerPort host sai.port.toNat
  let w := w.setPortOnBinding host sai.port.toNat is (bindDevice sai.addr)
  (w.modifySocket is fun s => { s with binded := true }).setAddress is sai.addr sai.port.toNat

theorem bindTo_eq (w : World H) {host : H} {sai : SockaddrIn} (is : SockId)
    (unused : w.portDesc host sai.port.toNat = none) :
    w.bindTo host sai is =
      (((w.setPortDesc host sai.port.toNat
          (some (.bound sai.port.toNat (bindDevice sai.addr) is))).addRefNb is 1).modifySocket is
        fun s => { s with binded := true }).setAddress is sai.addr sai.port.toNat := by
  have entry : (w.registerPort host sai.port.toNat).portDesc host sai.port.toNat =
      some (PortDesc.register sai.port.toNat none) := by
    simp only [registerPort, portDesc_setPortDesc, unused, and_self, if_true]
  have fresh : { PortDesc.register sai.port.toNat none with
      option := (PortDesc.register sai.port.toNat none).option ||| portBind ||| bindDevice sai.addr
      bindSocket := some is } = PortDesc.bound sai.port.toNat (bindDevice sai.addr) is := by
    simp [PortDesc.register, PortDesc.bound]
  simp only [bindTo, setPortOnBinding, entry, fresh]
  rw [registerPort, setPortDesc_setPortDesc]

theorem portDesc_bindTo {host : H} {sai : SockaddrIn} (is : SockId)
    (unused : w.portDesc host sai.port.toNat = none) (host' : H) (port : Nat) :
    (w.bindTo host sai is).portDesc host' port =
      if host' = host ∧ port = sai.port.toNat then
        some (.bound sai.port.toNat (bindDevice sai.addr) is)
      else w.portDesc host' port := by
  rw [w.bindTo_eq is unused]
  exact w.portDesc_setPortDesc host host' sai.port.toNat port _

theorem syscallBindPre_ok {proc : Pid} {sockfd : Int} {sai : SockaddrIn} {ret : Option Int}
    (done : w.syscallBindPre proc sockfd sai = .ok (w', ret)) :
    w' = w ∧ ret ≠ some 0 ∨
      ∃ is, w.getInfosSocket proc sockfd = some is ∧ InetLike (w.socket is) ∧
        w.portDesc (w.procs proc).host sai.port.toNat = none ∧ ret = some 0 ∧
        w' = w.bindTo (w.procs proc).host sai is := by
  unfold syscallBindPre at done
  split at done
  · cases done
    exact .inl ⟨rfl, by simp⟩
  · rename_i is found
    dsimp only at done
    split at done
    · rename_i network
      split at done
      · cases done
        exact .inl ⟨rfl, by simp [eaddrinuse]⟩
      · rename_i unused
        obtain ⟨w₁, addressed, rest⟩ := bind_eq_ok.mp done
        obtain ⟨is', found', rfl⟩ := setLocaladdrPortSocket_ok addressed
        cases pure_eq_ok.mp rest
        rw [getInfosSocket_congr (w := w) (by simp [modifySocket]), found] at found'
        cases found'
        refine .inr ⟨is, found, (socketNetwork_iff found).mp network, ?_, rfl, rfl⟩
        simpa [isPortInUse] using unused
    · cases done
      exact .inl ⟨rfl, by simp⟩

/-- The tables after a `connect` that found the bound socket `conn`. -/
def connectFrom (w : World H) (is conn : SockId) (k : CommId) (host : H) (ip : UInt32) (port : Nat) :
    World H :=
  ((w.queueConnection is conn k).setAddress is ip port).registerPort host port

theorem portDesc_connectFrom (is conn : SockId) (k : CommId) (host : H) (ip : UInt32) (port : Nat)
    (host' : H) (port' : Nat) :
    (w.connectFrom is conn k host ip port).portDesc host' port' =
      if host' = host ∧ port' = port then some (PortDesc.register port (w.portDesc host port))
      else w.portDesc host' port' :=
  ((w.queueConnection is conn k).setAddress is ip port).portDesc_setPortDesc host host' port port' _

theorem connectTo_ok {proc : Pid} {sockfd : Int} {port device : Nat} {host : H} {ip : UInt32}
    {o : ConnectOutcome H} (done : w.connectTo proc sockfd port host device ip = .ok o) :
    o.world = w ∧ o.listener = none ∨
      ∃ is conn k localPort, w.getInfosSocket proc sockfd = some is ∧
        w.getBindingSocketHost host port device = some conn ∧
        ((w.commNew is).socket conn).comm = some k ∧ (w.commNew is).comms.freed k = false ∧
        w.getRandomPort (w.procs proc).host = some localPort ∧ o.listener = some conn ∧
        o.world = w.connectFrom is conn k (w.procs proc).host ip localPort := by
  obtain ⟨⟨w₁, accProc⟩, asked, rest⟩ := bind_eq_ok.mp done
  rcases commAskConnect_ok asked with ⟨rfl, rfl⟩ | ⟨is, conn, k, found, binding, attached, live, rfl, rfl⟩
  · cases rest
    exact .inl ⟨rfl, rfl⟩
  · dsimp only at rest
    split at rest
    · cases rest
    · rename_i localPort random
      obtain ⟨w₂, addressed, rest⟩ := bind_eq_ok.mp rest
      obtain ⟨is', found', rfl⟩ := setLocaladdrPortSocket_ok addressed
      rw [getInfosSocket_congr (w.procs_queueConnection is conn k), found] at found'
      cases found'
      rw [w.getRandomPort_congr (w.hosts_queueConnection is conn k)] at random
      refine .inr ⟨is, conn, k, localPort, found, binding, attached, live, random, ?_⟩
      split at rest <;> (cases pure_eq_ok.mp rest; exact ⟨rfl, rfl⟩)

theorem processConnectInCall_ok {proc : Pid} {sockfd : Int} {sai : SockaddrIn}
    {o : ConnectOutcome H} (done : w.processConnectInCall proc sockfd sai = .ok o) :
    o.world = w ∧ o.listener = none ∨
      ∃ is conn k ip localPort, w.getInfosSocket proc sockfd = some is ∧ InetLike (w.socket is) ∧
        (∃ host device, w.getBindingSocketHost host sai.port.toNat device = some conn) ∧
        ((w.commNew is).socket conn).comm = some k ∧ (w.commNew is).comms.freed k = false ∧
        w.getRandomPort (w.procs proc).host = some localPort ∧ o.listener = some conn ∧
        o.world = w.connectFrom is conn k (w.procs proc).host ip localPort := by
  unfold processConnectInCall at done
  split at done
  · rename_i inet
    have network : ∀ is, w.getInfosSocket proc sockfd = some is → InetLike (w.socket is) := by
      intro is found
      simp only [getDomainSocket, found] at inet
      simp [InetLike, inet]
    split at done
    · rcases connectTo_ok done with quiet | ⟨is, conn, k, localPort, found, binding, rest⟩
      · exact .inl quiet
      · exact .inr ⟨is, conn, k, _, localPort, found, network is found, ⟨_, _, binding⟩, rest⟩
    · split at done
      · cases done
        exact .inl ⟨rfl, rfl⟩
      · rcases connectTo_ok done with quiet | ⟨is, conn, k, localPort, found, binding, rest⟩
        · exact .inl quiet
        · exact .inr ⟨is, conn, k, _, localPort, found, network is found, ⟨_, _, binding⟩, rest⟩
  · cases done
    exact .inl ⟨rfl, rfl⟩

theorem getInfosSocket_connectFrom (is conn : SockId) (k : CommId) (host : H) (ip : UInt32)
    (port : Nat) (proc : Pid) (fd : Int) :
    (w.connectFrom is conn k host ip port).getInfosSocket proc fd = w.getInfosSocket proc fd := by
  have same : (w.connectFrom is conn k host ip port).procs = w.procs :=
    w.procs_queueConnection is conn k
  exact getInfosSocket_congr same proc fd

theorem flags_connectFrom (is conn : SockId) (k : CommId) (host : H) (ip : UInt32) (port : Nat)
    (s : SockId) : ((w.connectFrom is conn k host ip port).socket s).flags = (w.socket s).flags := by
  simp only [connectFrom, sockets_registerPort, setAddress, queueConnection, commNew, addRefNb,
    modifySocket, modifyComm, World.socket, Heap.cell_modify]
  split <;> split <;> rfl

theorem connectTo_waits {proc : Pid} {sockfd : Int} {port device : Nat} {host : H} {ip : UInt32}
    {o : ConnectOutcome H} (done : w.connectTo proc sockfd port host device ip = .ok o) :
    o.waits = true ↔ o.listener ≠ none ∧ w.socketGetFlags proc sockfd &&& oNonblock = 0 := by
  obtain ⟨⟨w₁, accProc⟩, asked, rest⟩ := bind_eq_ok.mp done
  rcases commAskConnect_ok asked with ⟨rfl, rfl⟩ | ⟨is, conn, k, found, -, -, -, rfl, rfl⟩
  · cases rest
    simp
  · dsimp only at rest
    split at rest
    · cases rest
    · rename_i localPort _
      obtain ⟨w₂, addressed, rest⟩ := bind_eq_ok.mp rest
      obtain ⟨is', found', rfl⟩ := setLocaladdrPortSocket_ok addressed
      rw [getInfosSocket_congr (w.procs_queueConnection is conn k), found] at found'
      cases found'
      have flags : (w.connectFrom is conn k (w.procs proc).host ip localPort).socketGetFlags
          proc sockfd = w.socketGetFlags proc sockfd := by
        simp only [socketGetFlags, getInfosSocket_connectFrom, found, flags_connectFrom]
      rw [← flags]
      split at rest
      · rename_i nonblocking
        cases pure_eq_ok.mp rest
        exact iff_of_false (by simp) fun both => nonblocking both.2
      · rename_i blocking
        cases pure_eq_ok.mp rest
        exact iff_of_true rfl ⟨by simp, not_not.mp blocking⟩

theorem processConnectInCall_waits {proc : Pid} {sockfd : Int} {sai : SockaddrIn}
    {o : ConnectOutcome H} (done : w.processConnectInCall proc sockfd sai = .ok o) :
    o.waits = true ↔ o.listener ≠ none ∧ w.socketGetFlags proc sockfd &&& oNonblock = 0 := by
  unfold processConnectInCall at done
  split at done
  · split at done
    · exact connectTo_waits done
    · split at done
      · cases done
        simp
      · exact connectTo_waits done
  · cases done
    simp

/-- The tables after an `accept` on `listener` took the request `conn`. -/
def acceptFrom (w : World H) (proc : Pid) (newfd : Int) (listener : SockId) (k conn : CommId)
    (rest : List CommId) (ip : UInt32) : World H :=
  let new := w.sockets.next
  let s := w.socket listener
  let w := w.confirmRegisterSocket proc newfd s.domain s.type s.protocol
  let w := w.takeConnection new k conn rest
  let w := w.registerPort (w.procs proc).host s.portLocal
  let w := w.setAddress new ip s.portLocal
  w.modifySocket new fun n => { n with fd := { n.fd with stream := s.fd.stream } }

theorem processAcceptOutCall_ok {proc : Pid} {sockfd newfd : Int}
    (old : ∀ is, w.getInfosSocket proc sockfd = some is → is ≠ w.sockets.next)
    (done : w.processAcceptOutCall proc sockfd newfd = .ok w') :
    newfd < 0 ∧ w' = w ∨
      ∃ listener k conn rest ip, newfd ≥ 0 ∧ w.getInfosSocket proc sockfd = some listener ∧
        (w.socket listener).comm = some k ∧ (w.comm k).connWait = conn :: rest ∧
        w.processDescriptorGetFd proc newfd = none ∧
        w' = w.acceptFrom proc newfd listener k conn rest ip := by
  unfold processAcceptOutCall at done
  split at done
  swap
  · rename_i negative
    cases done
    exact .inl ⟨by omega, rfl⟩
  rename_i nonneg
  obtain ⟨w₁, registered, done⟩ := bind_eq_ok.mp done
  obtain ⟨free, rfl⟩ := registerSocket_ok registered
  obtain ⟨w₂, joined, done⟩ := bind_eq_ok.mp done
  obtain ⟨listener, k, conn, rest, found, attached, queue, rfl⟩ := commJoinOnAccept_ok joined
  obtain ⟨oldFound, attached⟩ := attached_of_confirmRegisterSocket found attached
  have other : listener ≠ w.sockets.next := old listener oldFound
  have same : (w.confirmRegisterSocket proc newfd (w.getDomainSocket proc sockfd)
      (w.getTypeSocket proc sockfd) (w.getProtocolSocket proc sockfd)).socket listener =
      w.socket listener := by
    rw [socket_confirmRegisterSocket, if_neg other]
  rw [getInfosSocket_congr (procs_takeConnection ..), found] at done
  obtain ⟨ip, -, done⟩ := bind_eq_ok.mp done
  obtain ⟨w₃, addressed, done⟩ := bind_eq_ok.mp done
  obtain ⟨new, newFound, rfl⟩ := setLocaladdrPortSocket_ok addressed
  cases pure_eq_ok.mp done
  refine .inr ⟨listener, k, conn, rest, ip, nonneg, oldFound, attached, queue, free, ?_⟩
  have made : new = w.sockets.next := by
    rw [getInfosSocket_congr ((procs_registerPort _ _).trans (procs_takeConnection ..)),
      getInfosSocket_eq_some, processDescriptorGetFd_confirmRegisterSocket] at newFound
    simpa using newFound.symm
  subst made
  have domain : w.getDomainSocket proc sockfd = (w.socket listener).domain := by
    simp [getDomainSocket, oldFound]
  have type : w.getTypeSocket proc sockfd = (w.socket listener).type := by
    simp [getTypeSocket, oldFound]
  have protocol : w.getProtocolSocket proc sockfd = (w.socket listener).protocol := by
    simp [getProtocolSocket, oldFound]
  rw [domain, type, protocol] at same ⊢
  simp only [acceptFrom, World.socket, sockets_registerPort, setAddress, modifySocket,
    Heap.cell_modify, if_neg other] at same ⊢
  simp only [takeConnection, modifySocket, modifyComm, Heap.cell_modify, if_neg other, same]

theorem syscallAccept_ok {proc : Pid} {sockfd newfd : Int} {sai : Option SockaddrIn}
    (old : ∀ is, w.getInfosSocket proc sockfd = some is → is ≠ w.sockets.next)
    (done : w.syscallAccept proc sockfd newfd = .ok (w', sai)) :
    w' = w ∧ (sai = none ∨ newfd < 0) ∨
      ∃ listener k conn rest client ip, newfd ≥ 0 ∧
        w.getInfosSocket proc sockfd = some listener ∧ (w.socket listener).comm = some k ∧
        (w.comm k).connWait = conn :: rest ∧ (w.comm conn).info0.socket = some client ∧
        w.processDescriptorGetFd proc newfd = none ∧
        sai = some { addr := (w.socket client).ipLocal
                     port := UInt16.ofNat (w.socket client).portLocal } ∧
        w' = w.acceptFrom proc newfd listener k conn rest ip := by
  obtain ⟨waiting, -, done⟩ := bind_eq_ok.mp done
  split at done
  · rename_i _ is found
    obtain ⟨reported, accepting, done⟩ := bind_eq_ok.mp done
    obtain ⟨w₁, out, ⟨⟩⟩ := bind_pure_eq_ok.mp done
    rcases processAcceptOutCall_ok old out with
      ⟨negative, rfl⟩ | ⟨listener, k, conn, rest, ip, nonneg, found', attached, queue, free, rfl⟩
    · exact .inl ⟨rfl, .inr negative⟩
    · obtain rfl : is = listener := Option.some.inj (found.symm.trans found')
      cases sai with
      | none =>
          simp only [commAcceptConnect, attached, queue] at accepting
          split at accepting <;> cases accepting
      | some sai =>
          obtain ⟨client, first, rfl⟩ := commAcceptConnect_ok attached queue accepting
          exact .inr ⟨is, k, conn, rest, client, ip, nonneg, found, attached, queue, first, free,
            rfl, rfl⟩
  · cases pure_eq_ok.mp done
    exact .inl ⟨rfl, .inl rfl⟩

/-- An `accept` that left the call to the kernel found no request. -/
theorem syscallAccept_none {proc : Pid} {sockfd newfd : Int} {is : SockId} {k : CommId}
    (found : w.getInfosSocket proc sockfd = some is) (attached : (w.socket is).comm = some k)
    (done : w.syscallAccept proc sockfd newfd = .ok (w', none)) : (w.comm k).connWait = [] := by
  obtain ⟨waiting, some_, done⟩ := bind_eq_ok.mp done
  simp only [found, commHasConnectWaiting, attached, Except.ok.injEq] at some_ done
  cases queue : (w.comm k).connWait with
  | nil => rfl
  | cons conn rest =>
      simp only [queue, List.isEmpty_cons, Bool.not_false] at some_
      subst some_
      obtain ⟨sai, accepting, done⟩ := bind_eq_ok.mp done
      obtain ⟨w₁, -, ⟨⟩⟩ := bind_pure_eq_ok.mp done
      simp only [commAcceptConnect, attached, queue] at accepting
      split at accepting <;> cases accepting

/-- The tables after a message was sent from `is` to `s`. -/
def sendFrom (w : World H) (is s : SockId) (recv : RecvRef) (sent : DataSend) (tci : TaskCommInfo H)
    (receiver : H) : World H :=
  let w := (w.addRefNb is 1).addRefNb s 1
  let w := w.modifyRecv recv fun r => { r with dataFifo := r.dataFifo ++ [sent] }
  let w := w.modifyRecv recv fun r => { r with recvTask := r.recvTask ++ [tci] }
  ((w.sendTask receiver tci.task).addRefNb is (-1)).addRefNb s (-1)

theorem sockets_sendFrom (is s : SockId) (recv : RecvRef) (sent : DataSend) (tci : TaskCommInfo H)
    (receiver : H) :
    (w.sendFrom is s recv sent tci receiver).sockets.next = w.sockets.next ∧
      (w.sendFrom is s recv sent tci receiver).sockets.freed = w.sockets.freed := by
  simp only [sendFrom, modifyRecv]
  split <;> exact ⟨rfl, rfl⟩

theorem hosts_sendFrom (is s : SockId) (recv : RecvRef) (sent : DataSend) (tci : TaskCommInfo H)
    (receiver : H) : (w.sendFrom is s recv sent tci receiver).hosts = w.hosts :=
  (hosts_modifyRecv ..).trans (hosts_modifyRecv ..)

theorem processSendCall_ok {proc : Pid} {fd : Int} {data beyond : List UInt8} {sent : Bool}
    (done : w.processSendCall proc fd data beyond = .ok (w', sent)) :
    w.socketNetlink proc fd = true ∧ w' = w ∨
      ∃ is s recv tci receiver, w.getInfosSocket proc fd = some is ∧
        w.socketNetlink proc fd = false ∧ w.commGetPeer is = .ok (some s) ∧
        w.commGetPeerRecv is = .ok recv ∧
        tci.task = { bytesAmount := toCInt data.length, data := data, beyond := beyond, sentOn := is } ∧
        w' = w.sendFrom is s recv { data := data, size := toCInt data.length } tci receiver := by
  unfold processSendCall at done
  split at done
  · cases done
  · rename_i is found
    split at done
    · rename_i netlink
      cases done
      exact .inl ⟨netlink, rfl⟩
    · rename_i network
      obtain ⟨peer, peers, done⟩ := bind_eq_ok.mp done
      cases peer with
      | none => cases done
      | some s =>
          obtain ⟨w₁, handled, done⟩ := bind_eq_ok.mp done
          obtain ⟨recv, peerRecv, rfl⟩ := bind_pure_eq_ok.mp handled
          obtain ⟨w₂, queued, done⟩ := bind_eq_ok.mp done
          obtain ⟨recv', peerRecv', rfl⟩ := bind_pure_eq_ok.mp queued
          cases pure_eq_ok.mp done
          rw [commGetPeerRecv_modifyRecv, peerRecv] at peerRecv'
          cases peerRecv'
          have counted : ((w.addRefNb is 1).addRefNb s 1).commGetPeerRecv is = w.commGetPeerRecv is := by
            simp only [commGetPeerRecv, comm_addRefNb]
            rfl
          rw [counted] at peerRecv
          exact .inr ⟨is, s, recv, _, _, found, by simpa using network, peers, peerRecv, rfl, rfl⟩

theorem comms_releaseSocket (w : World H) (is : SockId) : (w.releaseSocket is).comms = w.comms := by
  have unset : (w.unsetSocket is).comms = w.comms := by
    unfold unsetSocket
    split
    · rfl
    · split <;> rfl
  have deleted : ((w.unsetSocket is).deleteSocket is).comms = w.comms := by
    unfold deleteSocket
    split <;> exact unset
  unfold releaseSocket
  dsimp only
  split <;> exact deleted

theorem commClose_ok {is : SockId} (done : w.commClose is = .ok w') :
    (w.socket is).comm = none ∧ w' = w ∨
      ∃ k, (w.socket is).comm = some k ∧
        ((∃ s, (w.comm k).state = .listening ∧ (w.comm k).info0.socket = some s ∧
            w' = (w.releaseSocket s).commDestroy k) ∨
          (∃ s t, (w.comm k).state = .closed ∧ (w.comm k).info0.socket = some s ∧
            (w.comm k).info1.socket = some t ∧
            w' = ((w.releaseSocket s).releaseSocket t).commDestroy k) ∨
          ((w.comm k).state ≠ .listening ∧ (w.comm k).state ≠ .closed ∧
            w' = w.modifyComm k fun c => { c with state := .closed })) := by
  unfold commClose at done
  split at done
  · rename_i detached
    cases done
    exact .inl ⟨detached, rfl⟩
  · rename_i k attached
    refine .inr ⟨k, attached, ?_⟩
    split at done
    · rename_i listening
      split at done
      · cases done
      · rename_i s first
        exact .inl ⟨s, listening, first, by cases done; rfl⟩
    · rename_i closed
      split at done
      · rename_i s t first second
        exact .inr (.inl ⟨s, t, closed, first, second, by cases done; rfl⟩)
      · cases done
    all_goals
      rename_i state
      cases done
      exact .inr (.inr ⟨by simp [state], by simp [state], rfl⟩)

/-- What `process_close_call` and `socket_close` do to a socket before they get to its
    communication. -/
def beginClose (w : World H) (is : SockId) : World H :=
  ((w.addRefcount (.socket is) 1).addRefcount (.socket is) (-1)).addRefNb is (-1)

/-- What they do once the communication is dealt with. -/
def endClose (w : World H) (proc : Pid) (fd : Int) (is : SockId) : World H :=
  ((w.processDescriptorSetFd proc fd none).addRefcount (.socket is) (-1)).processDescriptorSetFd
    proc fd none

theorem hosts_endClose {H : Type} (w : World H) (proc : Pid) (fd : Int) (is : SockId) :
    (w.endClose proc fd is).hosts = w.hosts := rfl

theorem socketClose_ok {proc : Pid} {fd : Int} {is : SockId}
    (found : w.processDescriptorGetFd proc fd = some (.socket is))
    (done : w.socketClose proc fd = .ok w') :
    ∃ w₁, w' = w₁.processDescriptorSetFd proc fd none ∧
      (¬ InetLike (w.socket is) ∧
          w₁ = ((w.addRefcount (.socket is) (-1)).addRefNb is (-1)).freeSocket is ∨
        InetLike (w.socket is) ∧
          ((w.addRefcount (.socket is) (-1)).addRefNb is (-1)).commClose is = .ok w₁) := by
  have registered := w.getInfosSocket_eq_some.mpr found
  unfold socketClose at done
  rw [registered] at done
  dsimp only at done
  have network : ((w.addRefcount (.socket is) (-1)).addRefNb is (-1)).socketNetwork proc fd = true ↔
      InetLike (w.socket is) := by
    have still : ((w.addRefcount (.socket is) (-1)).addRefNb is (-1)).getInfosSocket proc fd = some is :=
      (getInfosSocket_eq_some _).mpr found
    rw [socketNetwork_iff still]
    simp [addRefNb, addRefcount, modifySocket, World.socket, InetLike]
  obtain ⟨w₁, closed, rfl⟩ := bind_pure_eq_ok.mp done
  refine ⟨w₁, rfl, ?_⟩
  unfold detachSocket at closed
  split at closed
  · rename_i isNetwork
    exact .inr ⟨network.mp isNetwork, closed⟩
  · rename_i notNetwork
    cases closed
    exact .inl ⟨mt network.mpr notNetwork, rfl⟩

/-- Closing a socket, as one composition. -/
theorem processCloseCall_socket {proc : Pid} {fd : Int} {is : SockId}
    (found : w.processDescriptorGetFd proc fd = some (.socket is)) :
    w.processCloseCall proc fd =
      (if InetLike (w.socket is) then (w.beginClose is).commClose is
        else .ok ((w.beginClose is).freeSocket is)) >>= fun w₁ => .ok (w₁.endClose proc fd is) := by
  have tag : ((w.addRefcount (.socket is) 1).fileDesc (.socket is)).type = .socket :=
    ((w.addRefcount (.socket is) 1).socket is).tagged
  have registered : (w.addRefcount (.socket is) 1).getInfosSocket proc fd = some is :=
    (getInfosSocket_eq_some _).mpr found
  have network : (w.beginClose is).socketNetwork proc fd = true ↔ InetLike (w.socket is) := by
    have still : (w.beginClose is).getInfosSocket proc fd = some is :=
      (getInfosSocket_eq_some _).mpr found
    rw [socketNetwork_iff still]
    simp [beginClose, addRefNb, addRefcount, modifySocket, World.socket, InetLike]
  have detached : (w.beginClose is).detachSocket proc fd is =
      if InetLike (w.socket is) then (w.beginClose is).commClose is
      else .ok ((w.beginClose is).freeSocket is) := by
    simp only [detachSocket, network]
  simp only [processCloseCall, found, closeByType, tag, socketClose, registered, bind_assoc, pure_bind]
  rw [← detached]
  rfl

theorem processCloseCall_ok {proc : Pid} {fd : Int} (done : w.processCloseCall proc fd = .ok w') :
    w.processDescriptorGetFd proc fd = none ∧ w' = w ∨
      (∃ d pipes, w.processDescriptorGetFd proc fd = some (.plain d) ∧
        w' = ({ w.addRefcount (.plain d) 1 with pipes := pipes }.addRefcount (.plain d) (-1)).processDescriptorSetFd
          proc fd none) ∨
      ∃ is w₁, w.processDescriptorGetFd proc fd = some (.socket is) ∧ w' = w₁.endClose proc fd is ∧
        (¬ InetLike (w.socket is) ∧ w₁ = (w.beginClose is).freeSocket is ∨
          InetLike (w.socket is) ∧ (w.beginClose is).commClose is = .ok w₁) := by
  cases found : w.processDescriptorGetFd proc fd with
  | none =>
      simp only [processCloseCall, found] at done
      cases done
      exact .inl ⟨rfl, rfl⟩
  | some ref =>
      cases ref with
      | plain d =>
          simp only [processCloseCall, found] at done
          obtain ⟨w₁, closed, rfl⟩ := bind_pure_eq_ok.mp done
          refine .inr (.inl ⟨d, w₁.pipes, rfl, ?_⟩)
          have shape : w₁ = { w.addRefcount (.plain d) 1 with pipes := w₁.pipes } := by
            unfold closeByType at closed
            split at closed
            · contradiction
            · cases closed
            · cases closed
              rfl
            · cases closed
            · cases closed
              rfl
          rw [← shape]
      | socket is =>
          rw [processCloseCall_socket found] at done
          obtain ⟨w₁, closed, done⟩ := bind_eq_ok.mp done
          cases done
          refine .inr (.inr ⟨is, w₁, rfl, rfl, ?_⟩)
          split at closed
          · rename_i network
            exact .inr ⟨network, closed⟩
          · rename_i other
            cases closed
            exact .inl ⟨other, rfl⟩

theorem syscallDup2Post_ok {proc : Pid} {oldfd newfd : Int}
    (done : w.syscallDup2Post proc oldfd newfd = .ok w') :
    ∃ ref w₁ pipes, w.processDescriptorGetFd proc oldfd = some ref ∧
      (w.addRefcount ref 1).closeTarget proc newfd = .ok w₁ ∧
      w' = { w₁.processDescriptorSetFd proc newfd (some ref) with pipes := pipes } := by
  unfold syscallDup2Post at done
  split at done
  · cases done
  · rename_i ref found
    obtain ⟨w₁, closed, done⟩ := bind_eq_ok.mp done
    obtain ⟨pipes, rfl⟩ := dupPipe_ok done
    exact ⟨ref, w₁, pipes, found, closed, rfl⟩

/-- All that a call can do. -/
inductive Effect (w : World H) : Op × Event H → World H → Prop where
  | quiet {op} : Effect w (op, .silent) w
  | socket {proc domain type protocol ret} : w.processDescriptorGetFd proc ret = none →
      Effect w (.socket proc domain type protocol ret, .silent)
        (w.confirmRegisterSocket proc ret domain type protocol)
  | bind {proc sockfd sai is} : w.getInfosSocket proc sockfd = some is → InetLike (w.socket is) →
      w.portDesc (w.procs proc).host sai.port.toNat = none →
      Effect w (.bind proc sockfd sai, .bound is (w.procs proc).host sai.port.toNat sai.addr)
        (w.bindTo (w.procs proc).host sai is)
  | listen {proc sockfd is} : w.getInfosSocket proc sockfd = some is →
      Effect w (.listen proc sockfd, .listened is) ((w.commNew is).commSetListen w.comms.next)
  | connect {proc sockfd sai is conn k ip port} : w.getInfosSocket proc sockfd = some is →
      InetLike (w.socket is) →
      (∃ host device, w.getBindingSocketHost host sai.port.toNat device = some conn) →
      ((w.commNew is).socket conn).comm = some k → (w.commNew is).comms.freed k = false →
      w.getRandomPort (w.procs proc).host = some port →
      Effect w (.connect proc sockfd sai, .asked is conn)
        (w.connectFrom is conn k (w.procs proc).host ip port)
  | accept {proc sockfd newfd listener k conn rest client ip} :
      w.getInfosSocket proc sockfd = some listener → (w.socket listener).comm = some k →
      (w.comm k).connWait = conn :: rest → (w.comm conn).info0.socket = some client →
      w.processDescriptorGetFd proc newfd = none →
      Effect w (.accept proc sockfd newfd, .accepted listener client w.sockets.next
          { addr := (w.socket client).ipLocal, port := UInt16.ofNat (w.socket client).portLocal })
        (w.acceptFrom proc newfd listener k conn rest ip)
  | send {proc fd data beyond is s recv ds tci receiver} :
      Effect w (.send proc fd data beyond, .silent) (w.sendFrom is s recv ds tci receiver)
  | close {proc fd w'} : w.processCloseCall proc fd = .ok w' →
      Effect w (.close proc fd, .silent) w'
  | dup {proc oldfd newfd ref pipes} : w.processDescriptorGetFd proc oldfd = some ref →
      Effect w (.dup proc oldfd newfd, .silent)
        { (w.addRefcount ref 1).processDescriptorSetFd proc newfd (some ref) with pipes := pipes }
  | dup2 {proc oldfd newfd ref w₁ pipes} : w.processDescriptorGetFd proc oldfd = some ref →
      (w.addRefcount ref 1).closeTarget proc newfd = .ok w₁ →
      Effect w (.dup2 proc oldfd newfd, .silent)
        { w₁.processDescriptorSetFd proc newfd (some ref) with pipes := pipes }

/-- Every call does one of these things, provided that what an `accept` listens on is not the
    socket it makes. -/
theorem Step.effect {label : Op × Event H}
    (old : ∀ {proc sockfd newfd is}, label.1 = .accept proc sockfd newfd →
      w.getInfosSocket proc sockfd = some is → is ≠ w.sockets.next)
    (step : w.Step label w') : w.Effect label w' := by
  obtain ⟨op, ev⟩ := label
  cases op with
  | socket proc domain type protocol ret =>
      obtain ⟨w₁, done, rest⟩ := bind_eq_ok.mp step
      obtain ⟨rfl, rfl⟩ := Prod.mk.inj (pure_eq_ok.mp rest)
      rcases syscallSocket_ok done with rfl | ⟨free, rfl⟩
      · exact .quiet
      · exact .socket free
  | bind proc sockfd sai =>
      obtain ⟨⟨w₁, ret⟩, done, rest⟩ := bind_eq_ok.mp step
      obtain ⟨rfl, event⟩ := Prod.mk.inj (pure_eq_ok.mp rest)
      obtain rfl : w.bindEvent proc sockfd sai ret = ev := event
      rcases syscallBindPre_ok done with ⟨rfl, failed⟩ | ⟨is, found, network, unused, rfl, rfl⟩
      · rw [bindEvent_of_failed failed]
        exact .quiet
      · rw [bindEvent_of_found found]
        exact .bind found network unused
  | listen proc sockfd =>
      obtain ⟨w₁, done, rest⟩ := bind_eq_ok.mp step
      obtain ⟨rfl, event⟩ := Prod.mk.inj (pure_eq_ok.mp rest)
      obtain rfl : w.listenEvent proc sockfd = ev := event
      obtain ⟨is, found, rfl⟩ := processListenCall_ok done
      simp only [listenEvent, found]
      exact .listen found
  | connect proc sockfd sai =>
      obtain ⟨o, done, rest⟩ := bind_eq_ok.mp step
      obtain ⟨rfl, event⟩ := Prod.mk.inj (pure_eq_ok.mp rest)
      obtain rfl : w.connectEvent proc sockfd o.listener = ev := event
      rcases processConnectInCall_ok done with ⟨same, refused⟩ |
          ⟨is, conn, k, ip, port, found, network, binding, attached, live, random, asked, made⟩
      · rw [same, refused, connectEvent_none]
        exact .quiet
      · rw [made, asked, connectEvent_of_found found]
        exact .connect found network binding attached live random
  | accept proc sockfd newfd =>
      obtain ⟨⟨w₁, sai⟩, done, rest⟩ := bind_eq_ok.mp step
      obtain ⟨rfl, event⟩ := Prod.mk.inj (pure_eq_ok.mp rest)
      obtain rfl : w.acceptEvent proc sockfd newfd sai = ev := event
      rcases syscallAccept_ok (fun _ => old rfl) done with ⟨rfl, refused⟩ |
          ⟨listener, k, conn, rest, client, ip, nonneg, found, attached, queue, first, free, rfl, rfl⟩
      · rw [acceptEvent_of_refused refused]
        exact .quiet
      · have waiting : w.waitingClient listener = some client := by
          simp [waitingClient, attached, queue, first]
        rw [acceptEvent_of_found found waiting nonneg]
        exact .accept found attached queue first free
  | send proc fd data beyond =>
      obtain ⟨⟨w₁, sent⟩, done, rest⟩ := bind_eq_ok.mp step
      obtain ⟨rfl, rfl⟩ := Prod.mk.inj (pure_eq_ok.mp rest)
      rcases processSendCall_ok done with ⟨-, rfl⟩ | ⟨is, s, recv, tci, receiver, -, -, -, -, -, rfl⟩
      · exact .quiet
      · exact .send
  | close proc fd =>
      obtain ⟨w₁, done, rest⟩ := bind_eq_ok.mp step
      obtain ⟨rfl, rfl⟩ := Prod.mk.inj (pure_eq_ok.mp rest)
      exact .close done
  | dup proc oldfd newfd =>
      obtain ⟨w₁, done, rest⟩ := bind_eq_ok.mp step
      obtain ⟨rfl, rfl⟩ := Prod.mk.inj (pure_eq_ok.mp rest)
      obtain ⟨ref, pipes, found, rfl⟩ := syscallDupPost_ok done
      exact .dup found
  | dup2 proc oldfd newfd =>
      obtain ⟨w₁, done, rest⟩ := bind_eq_ok.mp step
      obtain ⟨rfl, rfl⟩ := Prod.mk.inj (pure_eq_ok.mp rest)
      obtain ⟨ref, w₂, pipes, found, closed, rfl⟩ := syscallDup2Post_ok done
      exact .dup2 found closed

end

end World

end Simterpose
