import Simterpose.Translation

/-! # Tables that differ in the real ports only

Only the address-translation build records real ports, and none of the handlers that the two builds
share looks at them: on tables that differ in nothing else such a handler does the same. The
dictionaries of the ports count as the maps they are, since recording a real port may change the order
of their entries.
-/

namespace Simterpose

open Lib

/-- An entry with the real port left out. -/
def PortDesc.forgetReal (desc : PortDesc) : PortDesc := { desc with realPort := 0 }

namespace PortDesc

theorem forgetReal_register {port : Nat} {entry entry' : Option PortDesc}
    (same : entry'.map forgetReal = entry.map forgetReal) :
    (register port entry').forgetReal = (register port entry).forgetReal := by
  have shape : ∀ entry : Option PortDesc,
      (register port entry).forgetReal = register port (entry.map forgetReal) := by
    intro entry
    cases entry <;> rfl
  rw [shape, shape, same]

theorem forgetReal_unset (desc : PortDesc) (is : SockId) :
    (desc.unset is).map forgetReal = desc.forgetReal.unset is := by
  rw [unset, unset, apply_ite (Option.map forgetReal)]
  rfl

end PortDesc

/-- The same host, real ports aside. -/
structure SimterposeHost.Alike (host host' : SimterposeHost) : Prop where
  ip : host'.ip = host.ip
  entry : ∀ port, (host'.port.lookup port).map PortDesc.forgetReal =
    (host.port.lookup port).map PortDesc.forgetReal

namespace SimterposeHost

theorem lookup_put (host : SimterposeHost) (port port' : Nat) (desc : Option PortDesc) :
    (host.put port desc).port.lookup port' = if port' = port then desc else host.port.lookup port' := by
  by_cases same : port' = port
  · subst same
    cases desc <;> simp [put]
  · cases desc <;> simp [put, same, AList.lookup_insert_ne, AList.lookup_erase_ne]

theorem ip_put (host : SimterposeHost) (port : Nat) (desc : Option PortDesc) :
    (host.put port desc).ip = host.ip := by
  cases desc <;> rfl

theorem Alike.put {host host' : SimterposeHost} (alike : host.Alike host') (port : Nat)
    {desc desc' : Option PortDesc}
    (same : desc'.map PortDesc.forgetReal = desc.map PortDesc.forgetReal) :
    (host.put port desc).Alike (host'.put port desc') where
  ip := by rw [ip_put, ip_put, alike.ip]
  entry port' := by
    rw [lookup_put, lookup_put]
    split
    · exact same
    · exact alike.entry port'

end SimterposeHost

namespace World

section

variable {H : Type}

/-- The same tables, real ports aside. -/
inductive Alike (w : World H) : World H → Prop where
  | intro {hosts : H → SimterposeHost} :
      (∀ host, (w.hosts host).Alike (hosts host)) → Alike w { w with hosts := hosts }

/-- Two ways a `connect` came out which differ in real ports only. -/
def SameOutcome (o o' : ConnectOutcome H) : Prop :=
  o.world.Alike o'.world ∧ o.listener = o'.listener ∧ o.waits = o'.waits

namespace Alike

variable {w v : World H}

theorem refl (w : World H) : w.Alike w := .intro fun _ => ⟨rfl, fun _ => rfl⟩

/-! ## What the handlers read -/

theorem hosts (alike : w.Alike v) (host : H) : (w.hosts host).Alike (v.hosts host) := by
  obtain ⟨same⟩ := alike
  exact same host

theorem trans {u : World H} (first : w.Alike v) (second : v.Alike u) : w.Alike u := by
  obtain ⟨same⟩ := first
  obtain ⟨same'⟩ := second
  exact .intro fun host => ⟨(same' host).ip.trans (same host).ip,
    fun port => ((same' host).entry port).trans ((same host).entry port)⟩

theorem procs (alike : w.Alike v) : v.procs = w.procs := by cases alike; rfl

theorem sockets (alike : w.Alike v) : v.sockets = w.sockets := by cases alike; rfl

theorem comms (alike : w.Alike v) : v.comms = w.comms := by cases alike; rfl

theorem listIp (alike : w.Alike v) : v.listIp = w.listIp := by cases alike; rfl

theorem getFd (alike : w.Alike v) (proc : Pid) (fd : Int) :
    v.processDescriptorGetFd proc fd = w.processDescriptorGetFd proc fd := by cases alike; rfl

theorem getInfosSocket (alike : w.Alike v) (proc : Pid) (fd : Int) :
    v.getInfosSocket proc fd = w.getInfosSocket proc fd := by cases alike; rfl

theorem socketNetwork (alike : w.Alike v) (proc : Pid) (fd : Int) :
    v.socketNetwork proc fd = w.socketNetwork proc fd := by cases alike; rfl

theorem getDomainSocket (alike : w.Alike v) (proc : Pid) (fd : Int) :
    v.getDomainSocket proc fd = w.getDomainSocket proc fd := by cases alike; rfl

theorem socketGetFlags (alike : w.Alike v) (proc : Pid) (fd : Int) :
    v.socketGetFlags proc fd = w.socketGetFlags proc fd := by cases alike; rfl

theorem entry (alike : w.Alike v) (host : H) (port : Nat) :
    (v.portDesc host port).map PortDesc.forgetReal = (w.portDesc host port).map PortDesc.forgetReal :=
  (alike.hosts host).entry port

theorem isPortInUse (alike : w.Alike v) (host : H) (port : Nat) :
    v.isPortInUse host port = w.isPortInUse host port := by
  have same := congrArg Option.isSome (alike.entry host port)
  rwa [Option.isSome_map, Option.isSome_map] at same

theorem getBindingSocketHost (alike : w.Alike v) (host : H) (port device : Nat) :
    v.getBindingSocketHost host port device = w.getBindingSocketHost host port device := by
  -- the search reads the entry without its real port
  have shape : ∀ u : World H, u.getBindingSocketHost host port device =
      ((u.portDesc host port).map PortDesc.forgetReal).bind fun desc =>
        if desc.option &&& portBind = 0 then none
        else if device &&& desc.option = 0 then none
        else desc.bindSocket := by
    intro u
    unfold World.getBindingSocketHost
    cases u.portDesc host port <;> rfl
  rw [shape, shape, alike.entry]

theorem getRandomPort (alike : w.Alike v) (host : H) : v.getRandomPort host = w.getRandomPort host :=
  w.getRandomPort_of_used (funext (alike.isPortInUse host))

theorem remoteIp (alike : w.Alike v) (conn is : SockId) : v.remoteIp conn is = w.remoteIp conn is := by
  simp only [World.remoteIp, World.socket, alike.sockets, alike.procs, (alike.hosts _).ip]

theorem acceptedIp (alike : w.Alike v) (proc : Pid) (s is : SockId) :
    v.acceptedIp proc s is = w.acceptedIp proc s is := by
  simp only [World.acceptedIp, World.socket, World.comm, alike.sockets, alike.comms, alike.procs,
    (alike.hosts _).ip]

end Alike

/-! ## Handlers that do not touch ports -/

section

variable {w v : World H} (alike : w.Alike v)

include alike

theorem alike_modifySocket (is : SockId) (f : InfosSocket H → InfosSocket H) :
    (w.modifySocket is f).Alike (v.modifySocket is f) := by
  obtain ⟨same⟩ := alike
  exact .intro same

theorem alike_addRefNb (is : SockId) (n : Int) : (w.addRefNb is n).Alike (v.addRefNb is n) :=
  alike_modifySocket alike is _

theorem alike_modifyComm (k : CommId) (f : Comm H → Comm H) :
    (w.modifyComm k f).Alike (v.modifyComm k f) := by
  obtain ⟨same⟩ := alike
  exact .intro same

theorem alike_setFd (proc : Pid) (fd : Int) (ref : Option DescRef) :
    (w.processDescriptorSetFd proc fd ref).Alike (v.processDescriptorSetFd proc fd ref) := by
  obtain ⟨same⟩ := alike
  exact .intro same

theorem alike_addRefcount (ref : DescRef) (n : Int) :
    (w.addRefcount ref n).Alike (v.addRefcount ref n) := by
  obtain ⟨same⟩ := alike
  cases ref <;> exact .intro same

theorem alike_freeSocket (is : SockId) : (w.freeSocket is).Alike (v.freeSocket is) := by
  obtain ⟨same⟩ := alike
  exact .intro same

theorem alike_deleteSocket (is : SockId) : (w.deleteSocket is).Alike (v.deleteSocket is) := by
  obtain ⟨same⟩ := alike
  unfold deleteSocket
  dsimp only
  split <;> exact .intro same

theorem alike_dropInfo (socket : Option SockId) : (w.dropInfo socket).Alike (v.dropInfo socket) := by
  cases socket with
  | none => exact alike
  | some is => exact alike_addRefNb alike is (-1)

theorem alike_commDestroy (k : CommId) : (w.commDestroy k).Alike (v.commDestroy k) := by
  have unlisted : ∀ {w v : World H}, w.Alike v → ((w.unlistComm k).freeComm k).Alike
      ((v.unlistComm k).freeComm k) := by
    rintro w _ ⟨same⟩
    unfold unlistComm
    dsimp only
    split <;> exact .intro same
  unfold commDestroy
  simp only [World.comm, alike.comms]
  have dropped := alike_dropInfo alike (w.comms.cell k).info0.socket
  simp only [dropped.comms]
  exact unlisted (alike_modifyComm (alike_dropInfo dropped _) k _)

theorem alike_confirmRegisterSocket (proc : Pid) (sockfd domain type protocol : Int) :
    (w.confirmRegisterSocket proc sockfd domain type protocol).Alike
      (v.confirmRegisterSocket proc sockfd domain type protocol) := by
  obtain ⟨same⟩ := alike
  exact .intro same

theorem relates_registerSocket (proc : Pid) (sockfd domain type protocol : Int) :
    Relates Alike (w.registerSocket proc sockfd domain type protocol)
      (v.registerSocket proc sockfd domain type protocol) := by
  unfold registerSocket
  rw [alike.getFd]
  split
  · exact .error_left
  · exact .ok (alike_confirmRegisterSocket alike ..)

theorem relates_syscallSocket (proc : Pid) (domain type protocol ret : Int) :
    Relates Alike (w.syscallSocket proc domain type protocol ret)
      (v.syscallSocket proc domain type protocol ret) := by
  unfold syscallSocket
  split
  · exact relates_registerSocket alike proc ret domain type protocol
  · exact .ok alike

theorem relates_setLocaladdrPortSocket (proc : Pid) (fd : Int) (ip : UInt32) (port : Nat) :
    Relates Alike (w.setLocaladdrPortSocket proc fd ip port) (v.setLocaladdrPortSocket proc fd ip port) := by
  unfold setLocaladdrPortSocket
  rw [alike.getInfosSocket]
  cases w.getInfosSocket proc fd with
  | none => exact .error_left
  | some is => exact .ok (alike_modifySocket alike is _)

theorem relates_processListenCall (proc : Pid) (sockfd : Int) :
    Relates Alike (w.processListenCall proc sockfd) (v.processListenCall proc sockfd) := by
  unfold processListenCall
  rw [alike.getInfosSocket, alike.comms]
  cases w.getInfosSocket proc sockfd with
  | none => exact .error_left
  | some is =>
      obtain ⟨same⟩ := alike
      exact .ok (.intro same)

theorem relates_commJoinOnAccept (is : SockId) (proc : Pid) (fdListen : Int) :
    Relates Alike (w.commJoinOnAccept is proc fdListen) (v.commJoinOnAccept is proc fdListen) := by
  unfold commJoinOnAccept
  simp only [World.socket, World.comm, alike.getInfosSocket, alike.sockets, alike.comms]
  cases w.getInfosSocket proc fdListen with
  | none => exact .error_left
  | some listener =>
      dsimp only
      cases (w.sockets.cell listener).comm with
      | none => exact .error_left
      | some k =>
          dsimp only
          cases (w.comms.cell k).connWait with
          | nil => exact .error_left
          | cons conn rest =>
              obtain ⟨same⟩ := alike
              exact .ok (.intro same)

theorem alike_commNew (is : SockId) : (w.commNew is).Alike (v.commNew is) := by
  obtain ⟨same⟩ := alike
  exact .intro same

theorem alike_queueConnection (is conn : SockId) (k : CommId) :
    (w.queueConnection is conn k).Alike (v.queueConnection is conn k) := by
  have waiting := alike_modifyComm (alike_commNew alike is) k
    fun c => { c with connWait := c.connWait ++ [w.comms.next] }
  unfold queueConnection
  simp only [World.socket, alike.comms, waiting.sockets, waiting.remoteIp]
  exact alike_addRefNb (alike_modifyComm waiting _ _) conn 1

theorem alike_closePipe (proc : Pid) (fd : Int) (pipe : PipeId) :
    (w.closePipe proc fd pipe).Alike (v.closePipe proc fd pipe) := by
  obtain ⟨same⟩ := alike
  exact .intro same

theorem relates_commAskConnect (host : H) (port : Nat) (proc : Pid) (fd : Int) (device : Nat) :
    Relates (fun a b => a.1.Alike b.1 ∧ a.2 = b.2) (w.commAskConnect host port proc fd device)
      (v.commAskConnect host port proc fd device) := by
  unfold commAskConnect
  rw [alike.getBindingSocketHost, alike.getInfosSocket]
  cases w.getBindingSocketHost host port device with
  | none => exact .ok ⟨alike, rfl⟩
  | some conn =>
      cases w.getInfosSocket proc fd with
      | none => exact .error_left
      | some is =>
          have made := alike_commNew alike is
          simp only [World.socket, made.sockets, made.comms]
          cases ((w.commNew is).sockets.cell conn).comm with
          | none => exact .error_left
          | some k =>
              dsimp only
              split
              · exact .error_left
              · exact .ok ⟨alike_queueConnection alike is conn k, rfl⟩

end

end

section

variable {H : Type} [DecidableEq H] {w v : World H}

/-! ## Handlers that change the port tables -/

theorem alike_setPortDesc (alike : w.Alike v) (host : H) (port : Nat) {desc desc' : Option PortDesc}
    (same : desc'.map PortDesc.forgetReal = desc.map PortDesc.forgetReal) :
    (w.setPortDesc host port desc).Alike (v.setPortDesc host port desc') := by
  obtain ⟨hosts⟩ := alike
  refine .intro fun host' => ?_
  by_cases here : host' = host
  · subst here
    simp only [setPortDesc, Function.update_self]
    exact (hosts host').put port same
  · simp only [setPortDesc, Function.update_of_ne here]
    exact hosts host'

/-- Recording a real port changes nothing else. -/
theorem alike_setRealPort (alike : w.Alike v) (host : H) (port realPort : Nat) :
    w.Alike (v.setRealPort host port realPort) := by
  apply alike.trans
  unfold setRealPort
  cases entry : v.portDesc host port with
  | none => exact .refl v
  | some desc =>
      refine .intro fun host' => ?_
      by_cases here : host' = host
      · subst here
        simp only [Function.update_self]
        refine ⟨SimterposeHost.ip_put .., fun port' => ?_⟩
        rw [SimterposeHost.lookup_put]
        split
        · rename_i same
          rw [same, show (v.hosts host').port.lookup port = some desc from entry]
          rfl
        · rfl
      · simp only [Function.update_of_ne here]
        exact (Alike.refl v).hosts host'

variable (alike : w.Alike v)

include alike

theorem alike_registerPort (host : H) (port : Nat) :
    (w.registerPort host port).Alike (v.registerPort host port) :=
  alike_setPortDesc alike host port
    (congrArg some (PortDesc.forgetReal_register (alike.entry host port)))

theorem alike_setPortOnBinding (host : H) (port : Nat) (is : SockId) (device : Nat) :
    (w.setPortOnBinding host port is device).Alike (v.setPortOnBinding host port is device) := by
  have same := alike.entry host port
  unfold setPortOnBinding
  cases entry : w.portDesc host port with
  | none =>
      rw [entry, Option.map_none, Option.map_eq_none_iff] at same
      rw [same]
      exact alike
  | some desc =>
      rw [entry] at same
      obtain ⟨desc', entry', same⟩ := Option.map_eq_some_iff.mp same
      rw [entry']
      have bound : PortDesc.forgetReal
          { desc' with option := desc'.option ||| portBind ||| device, bindSocket := some is } =
          PortDesc.forgetReal
            { desc with option := desc.option ||| portBind ||| device, bindSocket := some is } :=
        congrArg (fun d : PortDesc =>
          { d with option := d.option ||| portBind ||| device, bindSocket := some is }) same
      apply alike_addRefNb
      apply alike_setPortDesc alike
      exact congrArg some bound

theorem alike_unsetSocket (is : SockId) : (w.unsetSocket is).Alike (v.unsetSocket is) := by
  have same := alike.entry (w.socket is).host (w.socket is).portLocal
  unfold unsetSocket
  simp only [World.socket, alike.sockets]
  cases entry : w.portDesc (w.socket is).host (w.socket is).portLocal with
  | none =>
      rw [entry, Option.map_none, Option.map_eq_none_iff] at same
      rw [same]
      exact alike
  | some desc =>
      rw [entry] at same
      obtain ⟨desc', entry', same⟩ := Option.map_eq_some_iff.mp same
      rw [entry']
      have bound : desc'.bindSocket = desc.bindSocket := (congrArg PortDesc.bindSocket same :)
      have left : (desc'.unset is).map PortDesc.forgetReal = (desc.unset is).map PortDesc.forgetReal := by
        rw [PortDesc.forgetReal_unset, PortDesc.forgetReal_unset, same]
      dsimp only
      rw [bound]
      split
      · exact alike_setPortDesc (alike_addRefNb alike is (-1)) _ _ left
      · exact alike_setPortDesc alike _ _ left

theorem alike_releaseSocket (is : SockId) : (w.releaseSocket is).Alike (v.releaseSocket is) := by
  have deleted := alike_deleteSocket (alike_unsetSocket alike is) is
  unfold releaseSocket
  simp only [World.socket, deleted.sockets]
  split
  · exact alike_freeSocket deleted is
  · exact deleted

theorem relates_commClose (is : SockId) : Relates Alike (w.commClose is) (v.commClose is) := by
  unfold commClose
  simp only [World.socket, World.comm, alike.sockets, alike.comms]
  cases (w.sockets.cell is).comm with
  | none => exact .ok alike
  | some k =>
      dsimp only
      cases (w.comms.cell k).state with
      | listening =>
          dsimp only
          cases (w.comms.cell k).info0.socket with
          | none => exact .error_left
          | some s => exact .ok (alike_commDestroy (alike_releaseSocket alike s) k)
      | closed =>
          dsimp only
          cases (w.comms.cell k).info0.socket with
          | none => exact .error_left
          | some s =>
              cases (w.comms.cell k).info1.socket with
              | none => exact .error_left
              | some t =>
                  exact .ok (alike_commDestroy (alike_releaseSocket (alike_releaseSocket alike s) t) k)
      | opened => exact .ok (alike_modifyComm alike k _)
      | shut => exact .ok (alike_modifyComm alike k _)

theorem relates_socketClose (proc : Pid) (fd : Int) :
    Relates Alike (w.socketClose proc fd) (v.socketClose proc fd) := by
  unfold socketClose
  rw [alike.getInfosSocket]
  cases w.getInfosSocket proc fd with
  | none => exact .ok alike
  | some is =>
      have counted := alike_addRefNb (alike_addRefcount alike (.socket is) (-1)) is (-1)
      refine Relates.bind (R := Alike) ?_ fun a b done => .ok (alike_setFd done proc fd none)
      unfold detachSocket
      rw [counted.socketNetwork]
      split
      · exact relates_commClose counted is
      · exact .ok (alike_freeSocket counted is)

theorem relates_processCloseCall (proc : Pid) (fd : Int) :
    Relates Alike (w.processCloseCall proc fd) (v.processCloseCall proc fd) := by
  unfold processCloseCall
  rw [alike.getFd]
  cases w.processDescriptorGetFd proc fd with
  | none => exact .ok alike
  | some ref =>
      refine Relates.bind (R := Alike) ?_ fun a b done =>
        .ok (alike_setFd (alike_addRefcount done ref (-1)) proc fd none)
      have counted := alike_addRefcount alike ref 1
      have desc : (v.addRefcount ref 1).fileDesc ref = (w.addRefcount ref 1).fileDesc ref := by
        cases alike
        cases ref <;> rfl
      unfold closeByType
      rw [desc]
      split
      · exact relates_socketClose counted proc fd
      · exact .error_left
      · exact .ok (alike_closePipe counted proc fd _)
      · exact .error_left
      · exact .ok counted

theorem relates_syscallBindPre (proc : Pid) (sockfd : Int) (sai : SockaddrIn) :
    Relates (fun a b => a.1.Alike b.1 ∧ a.2 = b.2) (w.syscallBindPre proc sockfd sai)
      (v.syscallBindPre proc sockfd sai) := by
  unfold syscallBindPre
  rw [alike.getInfosSocket]
  cases w.getInfosSocket proc sockfd with
  | none => exact .ok ⟨alike, rfl⟩
  | some is =>
      simp only [alike.procs, alike.socketNetwork, alike.isPortInUse]
      split
      · split
        · exact .ok ⟨alike, rfl⟩
        · have bound := alike_modifySocket (alike_setPortOnBinding (alike_registerPort alike
            (w.procs proc).host sai.port.toNat) (w.procs proc).host sai.port.toNat is
              (bindDevice sai.addr)) is fun s => { s with binded := true }
          exact (relates_setLocaladdrPortSocket bound proc sockfd sai.addr sai.port.toNat).bind
            fun a b done => .ok ⟨done, rfl⟩
      · exact .ok ⟨alike, rfl⟩

theorem relates_connectTo (proc : Pid) (sockfd : Int) (port device : Nat) (host : H) (ip : UInt32) :
    Relates SameOutcome (w.connectTo proc sockfd port host device ip)
      (v.connectTo proc sockfd port host device ip) := by
  refine (relates_commAskConnect alike host port proc sockfd device).bind ?_
  rintro ⟨w₁, accProc⟩ ⟨v₁, accProc'⟩ ⟨asked, same⟩
  obtain rfl : accProc = accProc' := same
  replace asked : w₁.Alike v₁ := asked
  cases accProc with
  | none => exact .ok ⟨asked, rfl, rfl⟩
  | some listener =>
      simp only [asked.procs, asked.getRandomPort]
      cases w₁.getRandomPort (w₁.procs proc).host with
      | none => exact .error_left
      | some localPort =>
          refine (relates_setLocaladdrPortSocket asked proc sockfd ip localPort).bind fun w₂ v₂ done => ?_
          have registered := alike_registerPort done (w₂.procs proc).host localPort
          simp only [done.procs, registered.socketGetFlags]
          split
          · exact .ok ⟨registered, rfl, rfl⟩
          · exact .ok ⟨registered, rfl, rfl⟩

theorem relates_processConnectInCall (proc : Pid) (sockfd : Int) (sai : SockaddrIn) :
    Relates SameOutcome (w.processConnectInCall proc sockfd sai) (v.processConnectInCall proc sockfd sai) := by
  unfold processConnectInCall
  simp only [alike.getDomainSocket, alike.procs, alike.listIp, (alike.hosts _).ip]
  split
  · split
    · exact relates_connectTo alike proc sockfd sai.port.toNat portLocalDevice _ loopback
    · cases w.listIp sai.addr with
      | none => exact .ok ⟨alike, rfl, rfl⟩
      | some host => exact relates_connectTo alike proc sockfd sai.port.toNat portRemoteDevice host _
  · exact .ok ⟨alike, rfl, rfl⟩

end

end World

end Simterpose
