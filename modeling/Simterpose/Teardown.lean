import Simterpose.Connecting
import Simterpose.Reuse
import Simterpose.Tables

/-! # Setting a connection up and tearing it down again

A connection costs two sockets, a communication, a port of the client and one more user
of the listener's port. The first `close` of an end only marks the communication, the
second one gives everything back, whichever end it is. In all runs the entry of a port has
users, which is what brings the ports back. The lists come back unless `malloc` hands out
an address that one of them names still: then the old entry goes and the new one stays.
-/

namespace Simterpose

open Lib

namespace Links

/-- Two sockets of the network are the ends of an open communication. -/
structure Joined (l : Links) (client new : SockId) (k : CommId) : Prop where
  network : l.network client ∧ l.network new
  attached : l.comm client = some k ∧ l.comm new = some k
  opened : l.state k = .opened
  info0 : l.info0 k = some client
  info1 : l.info1 k = some new

/-- A client's new socket waits to be accepted. -/
def asked (l : Links) (made made' : Addresses) (client : Pid) (cfd : Int) (listener : SockId)
    (m : CommId) : Links :=
  (((l.readdress made).register client cfd True).readdress made').ask made.socket listener m

/-- An accept has joined it to its own new socket. -/
def connected (l : Links) (made made' made'' : Addresses) (client : Pid) (cfd : Int) (server : Pid)
    (nfd : Int) (listener : SockId) (m : CommId) : Links :=
  ((l.asked made made' client cfd listener m).readdress made'').join server nfd listener m made'.comm []

theorem joined_connected {l : Links} {made made' made'' : Addresses} {client server : Pid}
    {cfd nfd : Int} {listener : SockId} {m : CommId} (older : listener ≠ made.socket)
    (apart : made''.socket ≠ made.socket) (network : l.network listener) :
    (l.connected made made' made'' client cfd server nfd listener m).Joined made.socket made''.socket
      made'.comm := by
  constructor <;>
  simp [connected, asked, readdress, join, setComm, setInfo1, setConnWait, register, ask, commNew,
    setOpened, older, apart.symm, network]

end Links

/-- Giving back a use of a port undoes taking it. -/
theorem PortDesc.unset_register {port : Nat} {entry : Option PortDesc} {is : SockId}
    (fine : ∀ desc, entry = some desc → 1 ≤ desc.amountSocket ∧ desc.bindSocket ≠ some is) :
    (PortDesc.register port entry).unset is = entry := by
  cases entry with
  | none => simp [PortDesc.register, PortDesc.unset]
  | some desc =>
      obtain ⟨users, other⟩ := fine desc rfl
      have left : (PortDesc.register port (some desc)).amountSocket - 1 ≠ 0 := by
        simp only [PortDesc.register]
        omega
      have bound : (PortDesc.register port (some desc)).bindSocket ≠ some is := other
      rw [PortDesc.unset, if_pos left, if_neg bound]
      simp [PortDesc.register]

namespace Ledger

variable {H : Type} {l : Ledger H}

/-- An entry has users. -/
def Inhabited (l : Ledger H) : Prop :=
  ∀ host port desc, l.desc host port = some desc → 1 ≤ desc.amountSocket

theorem Inhabited.congr {l' : Ledger H} (inhabited : l.Inhabited) (same : l'.desc = l.desc) :
    l'.Inhabited := by
  intro host port desc entry
  rw [same] at entry
  exact inhabited host port desc entry

variable [DecidableEq H]

theorem Inhabited.put (inhabited : l.Inhabited) {host : H} {port : Nat} {new : Option PortDesc}
    (fine : ∀ desc, new = some desc → 1 ≤ desc.amountSocket) : (l.put host port new).Inhabited := by
  intro host' port' desc entry
  simp only [Ledger.put] at entry
  split at entry
  · exact fine desc entry
  · exact inhabited host' port' desc entry

theorem Inhabited.register (inhabited : l.Inhabited) (host : H) (port : Nat) :
    (l.put host port (some (.register port (l.desc host port)))).Inhabited := by
  refine inhabited.put ?_
  rintro _ ⟨⟩
  cases entry : l.desc host port with
  | none => simp [PortDesc.register]
  | some desc =>
      have users := inhabited host port desc entry
      simp only [PortDesc.register]
      omega

theorem Inhabited.release (inhabited : l.Inhabited) (is : SockId) : (l.release is).Inhabited := by
  refine Inhabited.congr (l := l.put (l.place is).1 (l.place is).2 _) (inhabited.put ?_) rfl
  intro desc' left
  obtain ⟨desc, entry, left⟩ := Option.bind_eq_some_iff.mp left
  have users := inhabited _ _ desc entry
  simp only [PortDesc.unset] at left
  split at left
  · cases left
    dsimp only
    omega
  · cases left

theorem Inhabited.releaseAll (inhabited : l.Inhabited) (gone : List SockId) :
    (l.releaseAll gone).Inhabited := by
  induction gone generalizing l with
  | nil => exact inhabited
  | cons s gone ih => exact ih (inhabited.release s)

/-- A client's socket takes a port, then an accepted socket takes one. -/
def connected (l : Ledger H) (client new : SockId) (home host : H) (port accepted : Nat) : Ledger H :=
  let l := (l.enter client home).take client home port (.register port (l.desc home port))
  (l.enter new host).take new host accepted (.register accepted (l.desc host accepted))

/-- Giving both ports back in the order they were taken in. -/
theorem desc_release_connected {client new : SockId} {home host : H} {port accepted : Nat}
    (apart : new ≠ client) (unused : l.desc home port = none)
    (fine : ∀ desc, l.desc host accepted = some desc →
      1 ≤ desc.amountSocket ∧ desc.bindSocket ≠ some new) :
    (((l.connected client new home host port accepted).release client).release new).desc = l.desc := by
  have placeClient : (l.connected client new home host port accepted).place client = (home, port) := by
    simp [connected, take, put, move, enter, apart.symm]
  have placeNew : (l.connected client new home host port accepted).place new = (host, accepted) := by
    simp [connected, take, put, move, enter]
  have alone : (PortDesc.register port none).unset client = none :=
    PortDesc.unset_register (by simp)
  have restored : (PortDesc.register accepted (l.desc host accepted)).unset new =
      l.desc host accepted := PortDesc.unset_register fine
  funext host' port'
  by_cases same : host = home ∧ accepted = port
  · -- both sockets use one port, which nobody used before
    obtain ⟨rfl, rfl⟩ := same
    have shared : (PortDesc.register accepted (some (PortDesc.register accepted none))).unset client =
        some (PortDesc.register accepted none) := by
      apply PortDesc.unset_register
      rintro _ ⟨⟩
      simp [PortDesc.register]
    rw [unused] at restored
    simp only [release, put, placeClient, placeNew]
    simp only [connected, take, put, move, enter, and_self, if_true, Option.bind_some, unused, shared,
      restored]
    split
    · rename_i here
      rw [here.1, here.2, unused]
    · rfl
  · have other : ¬ (home = host ∧ port = accepted) := fun both => same ⟨both.1.symm, both.2.symm⟩
    simp only [release, put, placeClient, placeNew]
    simp only [connected, take, put, move, enter, and_self, if_true, Option.bind_some, unused, same,
      other, if_false, alone, restored]
    split
    · rename_i here
      rw [here.1, here.2]
    · split
      · rename_i here
        rw [here.1, here.2, unused]
      · rfl

end Ledger

namespace World

section

variable {H : Type} {w : World H}

/-- What a connection passes through is the same, reference counters and streams aside. -/
structure SameTables (w : World H) (m : CommId) (w' : World H) : Prop where
  ports : ∀ host port, w'.portDesc host port = w.portDesc host port
  allSockets : w'.allSockets = w.allSockets
  commList : w'.commList = w.commList
  connWait : (w'.comm m).connWait = (w.comm m).connWait
  fdMap : ∀ proc fd, w'.processDescriptorGetFd proc fd = w.processDescriptorGetFd proc fd

theorem SameTables.symm {m : CommId} {w' : World H} (same : w.SameTables m w') :
    w'.SameTables m w where
  ports host port := (same.ports host port).symm
  allSockets := same.allSockets.symm
  commList := same.commList.symm
  connWait := same.connWait.symm
  fdMap proc fd := (same.fdMap proc fd).symm

theorem SameTables.trans {m : CommId} {w' w'' : World H} (same : w.SameTables m w')
    (same' : w'.SameTables m w'') : w.SameTables m w'' where
  ports host port := (same'.ports host port).trans (same.ports host port)
  allSockets := same'.allSockets.trans same.allSockets
  commList := same'.commList.trans same.commList
  connWait := same'.connWait.trans same.connWait
  fdMap proc fd := (same'.fdMap proc fd).trans (same.fdMap proc fd)

/-- A client with the free descriptor `cfd` can connect to a socket that listens, on which the
    server can accept into `nfd`. -/
@[mk_iff]
structure Connectable (w : World H) (client : Pid) (cfd : Int) (sai : SockaddrIn) (server : Pid)
    (lfd nfd : Int) (listener : SockId) (m : CommId) : Prop where
  found : w.getInfosSocket server lfd = some listener
  listens : w.Listens listener m
  idle : (w.comm m).connWait = []
  target : w.connectTarget client sai = some listener
  freePort : (w.getRandomPort (w.procs client).host).isSome
  positive : cfd > 0
  free : w.processDescriptorGetFd client cfd = none
  nonneg : nfd ≥ 0
  newFree : w.processDescriptorGetFd server nfd = none
  apart : ¬ (server = client ∧ nfd = cfd)

instance {n : Nat} (w : World (Fin n)) (client : Pid) (cfd : Int) (sai : SockaddrIn) (server : Pid)
    (lfd nfd : Int) (listener : SockId) (m : CommId) :
    Decidable (w.Connectable client cfd sai server lfd nfd listener m) :=
  have : Decidable (w.Listens listener m) := inferInstanceAs (Decidable (_ ∧ _))
  decidable_of_iff' _ (w.connectable_iff ..)

theorem acceptedIp_of_joined {proc : Pid} {s is client : SockId} {k : CommId}
    (attached : (w.socket is).comm = some k) (first : (w.comm k).info0.socket = some client) :
    ∃ ip, w.acceptedIp proc s is = .ok ip := by
  unfold acceptedIp
  simp only [attached, first]
  split
  · split <;> exact ⟨_, rfl⟩
  · exact ⟨_, rfl⟩

theorem exists_bindSocket_of_target {proc : Pid} {sai : SockaddrIn} {conn : SockId}
    (target : w.connectTarget proc sai = some conn) :
    ∃ host port desc, w.portDesc host port = some desc ∧ desc.bindSocket = some conn := by
  unfold connectTarget at target
  split at target
  · exact ⟨_, _, bound_of_found target⟩
  · split at target
    · cases target
    · exact ⟨_, _, bound_of_found target⟩

end

variable {H : Type} [DecidableEq H] {w w' w₀ : World H} {label : Op × Event H}
  {es : List (Op × Event H)}

theorem inhabited_processCloseCall {proc : Pid} {fd : Int} (inhabited : w.ledger.Inhabited)
    (done : w.processCloseCall proc fd = .ok w') : w'.ledger.Inhabited := by
  rcases processCloseCall_views done with same | ⟨is, l', gone, -, -, -, -, shape⟩
  · rwa [same]
  · rw [shape]
    exact inhabited.releaseAll gone

theorem inhabited_registerPort (inhabited : w.ledger.Inhabited) (host : H) (port : Nat) :
    (w.registerPort host port).ledger.Inhabited := by
  rw [ledger_registerPort]
  exact inhabited.register host port

/-- An `accept` adds a user to a port, whichever socket it reads the port from. -/
theorem inhabited_processAcceptOutCall {proc : Pid} {sockfd newfd : Int} (inhabited : w.ledger.Inhabited)
    (done : w.processAcceptOutCall proc sockfd newfd = .ok w') : w'.ledger.Inhabited := by
  unfold processAcceptOutCall at done
  split at done
  · obtain ⟨w₁, registered, done⟩ := bind_eq_ok.mp done
    obtain ⟨-, rfl⟩ := registerSocket_ok registered
    obtain ⟨w₂, joined, done⟩ := bind_eq_ok.mp done
    obtain ⟨_, k, conn, rest, -, -, -, rfl⟩ := commJoinOnAccept_ok joined
    split at done
    · cases done
    obtain ⟨ip, -, done⟩ := bind_eq_ok.mp done
    obtain ⟨w₃, addressed, rfl⟩ := bind_pure_eq_ok.mp done
    obtain ⟨new, -, rfl⟩ := setLocaladdrPortSocket_ok addressed
    rw [ledger_setStream, ledger_setAddress]
    refine Ledger.Inhabited.congr (inhabited_registerPort ?_ _ _) rfl
    rw [ledger_takeConnection, ledger_confirmRegisterSocket]
    exact inhabited.congr rfl
  · cases done
    exact inhabited

theorem inhabited_syscallAccept {proc : Pid} {sockfd newfd : Int} {sai : Option SockaddrIn}
    (inhabited : w.ledger.Inhabited) (done : w.syscallAccept proc sockfd newfd = .ok (w', sai)) :
    w'.ledger.Inhabited := by
  obtain ⟨waiting, -, done⟩ := bind_eq_ok.mp done
  split at done
  · obtain ⟨reported, -, done⟩ := bind_eq_ok.mp done
    obtain ⟨w₁, called, ⟨⟩⟩ := bind_pure_eq_ok.mp done
    exact inhabited_processAcceptOutCall inhabited called
  · cases pure_eq_ok.mp done
    exact inhabited

theorem Step.inhabited (inhabited : w.ledger.Inhabited) (step : w.Step label w') :
    w'.ledger.Inhabited := by
  by_cases accepts : ∃ proc sockfd newfd, label.1 = .accept proc sockfd newfd
  · obtain ⟨op, ev⟩ := label
    obtain ⟨proc, sockfd, newfd, rfl⟩ := accepts
    obtain ⟨⟨w₁, sai⟩, done, ⟨⟩⟩ := bind_pure_eq_ok.mp step
    exact inhabited_syscallAccept inhabited done
  have effect := step.effect fun accept _ => absurd ⟨_, _, _, accept⟩ accepts
  cases effect with
  | quiet => exact inhabited
  | socket =>
      rw [ledger_confirmRegisterSocket]
      exact inhabited.congr rfl
  | bind _ _ unused =>
      rw [ledger_bindTo _ _ unused]
      refine Ledger.Inhabited.congr (l := w.ledger.put _ _ _) (inhabited.put ?_) rfl
      rintro _ ⟨⟩
      simp [PortDesc.bound]
  | @listen _ _ is =>
      have same : ((w.commNew is).commSetListen w.comms.next).ledger = w.ledger := w.ledger_commNew is
      rwa [same]
  | connect =>
      rw [ledger_connectFrom]
      exact (inhabited.register _ _).congr rfl
  | accept => exact absurd ⟨_, _, _, rfl⟩ accepts
  | send =>
      rw [ledger_sendFrom]
      exact inhabited
  | close done => exact inhabited_processCloseCall inhabited done
  | @dup proc _ newfd ref pipes =>
      have same : ({ (w.addRefcount ref 1).processDescriptorSetFd proc newfd (some ref) with
          pipes := pipes } : World H).ledger = w.ledger :=
        (ledger_setFd (w.addRefcount ref 1) proc newfd (some ref)).trans (w.ledger_addRefcount ref 1)
      rwa [same]
  | @dup2 proc _ newfd ref w₁ pipes _ closed =>
      have same : ({ w₁.processDescriptorSetFd proc newfd (some ref) with
          pipes := pipes } : World H).ledger = w₁.ledger := w₁.ledger_setFd proc newfd (some ref)
      rw [same]
      unfold closeTarget at closed
      split at closed
      · refine inhabited_processCloseCall ?_ closed
        rwa [ledger_addRefcount, ledger_addRefcount]
      · cases closed
        rwa [ledger_addRefcount]

/-- Every entry has users, whatever addresses are handed out. -/
theorem inhabited_of_run {es : List (Addresses × Op × Event H)} (initial : w₀.Initial)
    (run : Run StepAt w₀ es w) : w.ledger.Inhabited := by
  refine run.invariant (fun w => w.ledger.Inhabited) ?_ ?_
  · intro host port desc entry
    simp [ledger, portDesc, initial.ports] at entry
  · intro w label w' inhabited step
    obtain ⟨v, stepped, rfl⟩ := step.exists_step
    have after : v.ledger.Inhabited := Step.inhabited (w := w.offering label.1) inhabited stepped
    exact after

/-! ## Calls that go through -/

theorem step_socket {proc : Pid} {type protocol fd : Int} (positive : fd > 0)
    (free : w.processDescriptorGetFd proc fd = none) :
    w.Step (.socket proc 2 type protocol fd, .silent)
      (w.confirmRegisterSocket proc fd 2 type protocol) := by
  simp only [Step, step, syscallSocket, if_pos positive, registerSocket, free]
  rfl

theorem step_connect {proc : Pid} {sockfd : Int} {sai : SockaddrIn} {is conn : SockId} {k : CommId}
    {port : Nat} (found : w.getInfosSocket proc sockfd = some is) (inet : (w.socket is).domain = 2)
    (blocking : (w.socket is).flags &&& oNonblock = 0)
    (target : w.connectTarget proc sai = some conn) (apart : conn ≠ is)
    (attached : (w.socket conn).comm = some k) (live : w.comms.freed k = false)
    (random : w.getRandomPort (w.procs proc).host = some port) :
    ∃ ip, w.Step (.connect proc sockfd sai, .asked is conn)
      (w.connectFrom is conn k (w.procs proc).host ip port) := by
  have domain : w.getDomainSocket proc sockfd = 2 := by
    simp only [getDomainSocket, found, inet]
  have flags : w.socketGetFlags proc sockfd &&& oNonblock = 0 := by
    simp only [socketGetFlags, found, blocking]
  obtain ⟨host, device, ip, bound, same⟩ := processConnectInCall_of_bound domain target
  refine ⟨ip, bind_eq_ok.mpr ⟨_, same.trans ((connectTo_of_bound found flags bound).mpr
    ⟨k, port, (comm_commNew_of_ne apart).trans attached, by rw [freed_commNew, live, ite_self],
      random, rfl⟩), ?_⟩⟩
  rw [connectEvent_of_found found]
  rfl

theorem processAcceptOutCall_of_waiting {proc : Pid} {sockfd newfd : Int} {listener client : SockId}
    {k conn : CommId} {rest : List CommId} (found : w.getInfosSocket proc sockfd = some listener)
    (other : listener ≠ w.sockets.next) (attached : (w.socket listener).comm = some k)
    (queue : (w.comm k).connWait = conn :: rest) (first : (w.comm conn).info0.socket = some client)
    (nonneg : newfd ≥ 0) (free : w.processDescriptorGetFd proc newfd = none) :
    ∃ w', w.processAcceptOutCall proc sockfd newfd = .ok w' := by
  let made := w.confirmRegisterSocket proc newfd (w.getDomainSocket proc sockfd)
    (w.getTypeSocket proc sockfd) (w.getProtocolSocket proc sockfd)
  let joined := made.takeConnection w.sockets.next k conn rest
  have registered : w.registerSocket proc newfd (w.getDomainSocket proc sockfd)
      (w.getTypeSocket proc sockfd) (w.getProtocolSocket proc sockfd) = .ok made := by
    simp only [registerSocket, free]
    rfl
  have foundMade : made.getInfosSocket proc sockfd = some listener := by
    rw [getInfosSocket_eq_some] at found ⊢
    rw [processDescriptorGetFd_confirmRegisterSocket, if_neg, found]
    rintro ⟨-, rfl⟩
    rw [free] at found
    cases found
  have socketMade : made.socket listener = w.socket listener := by
    rw [socket_confirmRegisterSocket, if_neg other]
  have joins : made.commJoinOnAccept w.sockets.next proc sockfd = .ok joined := by
    have sameQueue : (made.comm k).connWait = conn :: rest := queue
    simp only [commJoinOnAccept, foundMade, socketMade, attached, sameQueue]
    rfl
  have foundJoined : joined.getInfosSocket proc sockfd = some listener :=
    (getInfosSocket_congr (procs_takeConnection ..) ..).trans foundMade
  have newJoined : joined.getInfosSocket proc newfd = some w.sockets.next := by
    rw [getInfosSocket_congr (procs_takeConnection ..), getInfosSocket_eq_some,
      processDescriptorGetFd_confirmRegisterSocket, if_pos ⟨rfl, rfl⟩]
  have links : joined.links = ((made.links.setConnWait k rest).setInfo1 conn w.sockets.next).setComm
      w.sockets.next conn := made.links_takeConnection _ k conn rest
  let counted := joined.registerPort (joined.procs proc).host (joined.socket listener).portLocal
  obtain ⟨ip, address⟩ : ∃ ip, counted.acceptedIp proc listener w.sockets.next = .ok ip :=
    acceptedIp_of_joined
      ((congrArg (Links.comm · w.sockets.next) links).trans (Function.update_self ..))
      ((congrArg (Links.info0 · conn) links).trans first)
  let placed := counted.setAddress w.sockets.next ip (counted.socket listener).portLocal
  have addressed : counted.setLocaladdrPortSocket proc newfd ip (counted.socket listener).portLocal =
      .ok placed := by
    have newCounted : counted.getInfosSocket proc newfd = some w.sockets.next := newJoined
    simp only [setLocaladdrPortSocket, newCounted]
    rfl
  refine ⟨placed.modifySocket w.sockets.next fun n =>
    { n with fd := { n.fd with stream := (placed.socket listener).fd.stream } }, ?_⟩
  unfold processAcceptOutCall
  rw [if_pos nonneg]
  refine bind_eq_ok.mpr ⟨made, registered, bind_eq_ok.mpr ⟨joined, joins, ?_⟩⟩
  rw [foundJoined]
  exact bind_eq_ok.mpr ⟨ip, address, bind_eq_ok.mpr ⟨placed, addressed, rfl⟩⟩

theorem step_accept {proc : Pid} {sockfd newfd : Int} {listener client : SockId} {k conn : CommId}
    {rest : List CommId} (found : w.getInfosSocket proc sockfd = some listener)
    (other : listener ≠ w.sockets.next) (attached : (w.socket listener).comm = some k)
    (queue : (w.comm k).connWait = conn :: rest) (first : (w.comm conn).info0.socket = some client)
    (nonneg : newfd ≥ 0) (free : w.processDescriptorGetFd proc newfd = none) :
    ∃ sai ip, w.Step (.accept proc sockfd newfd, .accepted listener client w.sockets.next sai)
      (w.acceptFrom proc newfd listener k conn rest ip) := by
  obtain ⟨w', out⟩ := processAcceptOutCall_of_waiting found other attached queue first nonneg free
  have waiting : w.waitingClient listener = some client := by
    simp [waitingClient, attached, queue, first]
  have accepting : ∃ sai, w.commAcceptConnect listener = .ok (some sai) := by
    simp only [commAcceptConnect, attached, queue, first]
    exact ⟨_, rfl⟩
  obtain ⟨sai, accepting⟩ := accepting
  have handled : w.syscallAccept proc sockfd newfd = .ok (w', some sai) := by
    refine bind_eq_ok.mpr ⟨true, ?_, ?_⟩
    · simp [commHasConnectWaiting, found, attached, queue]
    · rw [found]
      exact bind_eq_ok.mpr ⟨_, accepting, bind_eq_ok.mpr ⟨w', out, rfl⟩⟩
  have other' : ∀ is, w.getInfosSocket proc sockfd = some is → is ≠ w.sockets.next := by
    intro is found'
    rwa [← Option.some.inj (found.symm.trans found')]
  rcases processAcceptOutCall_ok other' out with
    ⟨negative, -⟩ | ⟨listener', k', conn', rest', ip, -, found', attached', queue', -, rfl⟩
  · omega
  · cases Option.some.inj (found.symm.trans found')
    cases Option.some.inj (attached.symm.trans attached')
    obtain ⟨rfl, rfl⟩ := List.cons.inj (queue.symm.trans queue')
    refine ⟨sai, ip, bind_eq_ok.mpr ⟨_, handled, ?_⟩⟩
    dsimp only
    rw [acceptEvent_of_found found waiting nonneg]
    rfl

theorem exists_commClose {is : SockId} {l' : Links} {gone : List SockId}
    (closing : w.links.CommClose is l' gone) :
    ∃ w', w.commClose is = .ok w' ∧ w'.links = l' ∧ w'.ledger = w.ledger.releaseAll gone := by
  cases closing with
  | detached comm =>
      have detached : (w.socket is).comm = none := comm
      exact ⟨w, by simp only [commClose, detached], rfl, rfl⟩
  | @listening s k comm listening first =>
      have attached : (w.socket is).comm = some k := comm
      have state : (w.comm k).state = .listening := listening
      have owner : (w.comm k).info0.socket = some s := first
      exact ⟨(w.releaseSocket s).commDestroy k, by simp only [commClose, attached, state, owner],
        by simp, by simp [Ledger.releaseAll]⟩
  | @first k comm notListening notClosed =>
      have attached : (w.socket is).comm = some k := comm
      have open_ : (w.comm k).state = .opened ∨ (w.comm k).state = .shut := by
        cases state : (w.comm k).state with
        | opened => exact .inl rfl
        | shut => exact .inr rfl
        | listening => exact absurd state notListening
        | closed => exact absurd state notClosed
      refine ⟨w.modifyComm k fun c => { c with state := .closed }, ?_, w.links_modifyComm_state k _,
        rfl⟩
      rcases open_ with state | state <;> simp only [commClose, attached, state]
  | @second s t k comm closed first second =>
      have attached : (w.socket is).comm = some k := comm
      have state : (w.comm k).state = .closed := closed
      have client : (w.comm k).info0.socket = some s := first
      have server : (w.comm k).info1.socket = some t := second
      exact ⟨((w.releaseSocket s).releaseSocket t).commDestroy k,
        by simp only [commClose, attached, state, client, server], by simp,
        by simp [Ledger.releaseAll]⟩

theorem step_close {proc : Pid} {fd : Int} {is : SockId} {l' : Links} {gone : List SockId}
    (found : w.processDescriptorGetFd proc fd = some (.socket is)) (network : w.links.network is)
    (closing : w.links.CommClose is l' gone) :
    ∃ w', w.Step (.close proc fd, .silent) w' ∧ w'.links = l'.setOpened proc fd none ∧
      w'.ledger = w.ledger.releaseAll gone ∧ ∀ q g, w'.processDescriptorGetFd q g =
        if q = proc ∧ g = fd then none else w.processDescriptorGetFd q g := by
  obtain ⟨w₁, closed, links, ledger⟩ :
      ∃ w₁, (w.beginClose is).commClose is = .ok w₁ ∧ w₁.links = l' ∧
        w₁.ledger = (w.beginClose is).ledger.releaseAll gone :=
    exists_commClose (by rwa [links_beginClose])
  have called : w.processCloseCall proc fd = .ok (w₁.endClose proc fd is) := by
    have inet : InetLike (w.socket is) := network
    rw [processCloseCall_socket found, if_pos inet, closed]
    rfl
  exact ⟨w₁.endClose proc fd is, bind_eq_ok.mpr ⟨_, called, rfl⟩, by rw [links_endClose, links],
    by simp [ledger], getFd_processCloseCall called⟩

/-- Closing both ends of a connection, one after the other, releases both sockets and the
    communication. -/
theorem close_both {p q : Pid} {f g : Int} {s t client new : SockId} {k : CommId}
    (first : w.processDescriptorGetFd p f = some (.socket s))
    (second : w.processDescriptorGetFd q g = some (.socket t)) (apart : ¬ (q = p ∧ g = f))
    (network : w.links.network s ∧ w.links.network t)
    (attached : w.links.comm s = some k ∧ w.links.comm t = some k)
    (opened : w.links.state k = .opened) (info0 : w.links.info0 k = some client)
    (info1 : w.links.info1 k = some new) :
    ∃ w₁ w₂, w.Step (.close p f, .silent) w₁ ∧ w₁.Step (.close q g, .silent) w₂ ∧
      w₂.ledger = (w.ledger.release client).release new ∧ w₂.commList = w.commList.erase k ∧
      (∀ m, m ≠ k → (w₂.comm m).connWait = (w.comm m).connWait) ∧
      ∀ proc fd, w₂.processDescriptorGetFd proc fd =
        if proc = q ∧ fd = g then none
        else if proc = p ∧ fd = f then none else w.processDescriptorGetFd proc fd := by
  obtain ⟨w₁, step₁, links₁, ledger₁, files₁⟩ := step_close first network.1
    (.first attached.1 (by simp [opened]) (by simp [opened]))
  have still : w₁.processDescriptorGetFd q g = some (.socket t) := by
    rw [files₁, if_neg apart, second]
  have closing : w₁.links.CommClose t
      (((w₁.links.delete client).delete new).destroy k) [client, new] := by
    rw [links₁]
    exact .second attached.2 (Function.update_self ..) info0 info1
  have network₁ : w₁.links.network t := by
    rw [links₁]
    exact network.2
  obtain ⟨w₂, step₂, links₂, ledger₂, files₂⟩ := step_close still network₁ closing
  rw [links₁] at links₂
  refine ⟨w₁, w₂, step₁, step₂, ?_, congrArg Links.commList links₂, ?_, ?_⟩
  · rw [ledger₂, ledger₁]
    rfl
  · intro m other
    exact (congrArg (Links.connWait · m) links₂).trans (Function.update_of_ne other ..)
  · intro proc fd
    rw [files₂, files₁]

section

variable {client server : Pid} {cfd lfd nfd : Int} {sai : SockaddrIn} {listener : SockId} {m : CommId}
  {made made' made'' : Addresses}

/-- Neither list and no port names an object at one of the addresses. -/
def Unnamed (w : World H) (made : Addresses) : Prop :=
  made.socket ∉ w.allSockets ∧ made.comm ∉ w.commList ∧
    ∀ host, ∀ entry ∈ (w.hosts host).port.entries, entry.2.bindSocket ≠ some made.socket

instance {n : Nat} (w : World (Fin n)) (made : Addresses) : Decidable (w.Unnamed made) :=
  inferInstanceAs (Decidable (_ ∧ _ ∧ _))

omit [DecidableEq H] in
theorem Unnamed.bound (unnamed : w.Unnamed made) {host : H} {port : Nat} {desc : PortDesc}
    (entry : w.portDesc host port = some desc) : desc.bindSocket ≠ some made.socket :=
  unnamed.2.2 host ⟨port, desc⟩ (AList.mem_lookup_iff.mp entry)

/-- The client's new socket. -/
def created (w : World H) (made : Addresses) (client : Pid) (cfd type protocol : Int) : World H :=
  w.covering ((w.offering made).confirmRegisterSocket client cfd 2 type protocol)

/-- The ledger while the client's new socket waits to be accepted. -/
def askedLedger (w : World H) (made : Addresses) (client : Pid) (port : Nat) : Ledger H :=
  let home := (w.procs client).host
  (w.ledger.enter made.socket home).take made.socket home port
    (.register port (w.ledger.desc home port))

/-- What has an entry keeps it while the client takes a port that has none. -/
theorem entry_of_asked {w₂ : World H} {port : Nat} (ledger₂ : w₂.ledger = w.askedLedger made client port)
    (unused : w.ledger.desc (w.procs client).host port = none) {host : H} {port' : Nat}
    {desc : PortDesc} (entry : w.ledger.desc host port' = some desc) :
    w₂.portDesc host port' = some desc := by
  have elsewhere : ¬ (host = (w.procs client).host ∧ port' = port) := by
    rintro ⟨rfl, rfl⟩
    rw [unused] at entry
    cases entry
  have same : w₂.portDesc host port' = (w.askedLedger made client port).desc host port' :=
    congrFun (congrFun (congrArg Ledger.desc ledger₂) host) port'
  rw [same]
  exact (if_neg elsewhere).trans entry

theorem Connectable.creates (connectable : w.Connectable client cfd sai server lfd nfd listener m)
    (offered : w.Offers made) (type protocol : Int) :
    w.StepAt (made, .socket client 2 type protocol cfd, .silent)
      (w.created made client cfd type protocol) :=
  .of_step offered (step_socket (w := w.offering made) connectable.positive connectable.free)

omit [DecidableEq H] in
theorem links_created (w : World H) (made : Addresses) (client : Pid) (cfd type protocol : Int) :
    (w.created made client cfd type protocol).links =
      ((w.links.readdress made).register client cfd True).readdress
        ⟨max w.sockets.next (made.socket + 1), max w.comms.next made.comm⟩ := by
  have inet : InetLike ((w.offering made).newSocket client cfd 2 type protocol) = True := by
    simp [InetLike, newSocket]
  rw [created, links_covering, links_confirmRegisterSocket, inet]
  rfl

omit [DecidableEq H] in
theorem ledger_created (w : World H) (made : Addresses) (client : Pid) (cfd type protocol : Int) :
    (w.created made client cfd type protocol).ledger =
      w.ledger.enter made.socket (w.procs client).host := by
  rw [created, ledger_covering, ledger_confirmRegisterSocket]
  rfl

omit [DecidableEq H] in
/-- The communication of a listener is in use, so it is not handed out. -/
theorem Connectable.comm_ne (connectable : w.Connectable client cfd sai server lfd nfd listener m)
    {type protocol : Int} (offered : (w.created made client cfd type protocol).Offers made') :
    m ≠ made'.comm := by
  obtain ⟨-, old, live, -⟩ := connectable.listens
  have kept : ∀ k, (w.created made client cfd type protocol).comms.freed k = w.comms.freed k :=
    fun _ => rfl
  have next : w.comms.next ≤ (w.created made client cfd type protocol).comms.next := Nat.le_max_left ..
  rcases offered.2 with new | ⟨-, freed⟩
  · rw [new]
    exact Nat.ne_of_lt (Nat.lt_of_lt_of_le old next)
  · rintro rfl
    rw [kept, live] at freed
    cases freed

/-- The client's second call goes through. -/
theorem Connectable.asks (connectable : w.Connectable client cfd sai server lfd nfd listener m)
    (other : listener ≠ made.socket) (type protocol : Int)
    (offered : (w.created made client cfd type protocol).Offers made') :
    ∃ w₂ port, w.getRandomPort (w.procs client).host = some port ∧
      (w.created made client cfd type protocol).StepAt
        (made', .connect client cfd sai, .asked made.socket listener) w₂ ∧
      (∃ n, w₂.links = (w.links.asked made made' client cfd listener m).readdress n) ∧
      w₂.ledger = w.askedLedger made client port ∧
      ∀ proc fd, w₂.processDescriptorGetFd proc fd =
        if proc = client ∧ fd = cfd then some (.socket made.socket)
        else w.processDescriptorGetFd proc fd := by
  obtain ⟨port, random⟩ := Option.isSome_iff_exists.mp connectable.freePort
  obtain ⟨attached, -, live, -⟩ := connectable.listens
  let v := (w.created made client cfd type protocol).offering made'
  have made₁ : v.socket made.socket = (w.offering made).newSocket client cfd 2 type protocol :=
    (socket_confirmRegisterSocket ..).trans (if_pos rfl)
  have kept : v.socket listener = w.socket listener :=
    (socket_confirmRegisterSocket ..).trans (if_neg other)
  have home : ∀ proc, (v.procs proc).host = (w.procs proc).host := fun proc =>
    (w.offering made).host_setFd client proc cfd _
  have target₁ : v.connectTarget client sai = some listener := by
    rw [← connectable.target]
    simp only [connectTarget, home]
    rfl
  have random₁ : v.getRandomPort (v.procs client).host = some port := by
    have hosts : v.hosts = w.hosts := rfl
    rw [home, w.getRandomPort_congr hosts, random]
  have files : ∀ proc fd, v.processDescriptorGetFd proc fd =
      if proc = client ∧ fd = cfd then some (.socket made.socket)
      else w.processDescriptorGetFd proc fd :=
    fun proc fd => processDescriptorGetFd_confirmRegisterSocket client proc cfd fd 2 type protocol
  have found₁ : v.getInfosSocket client cfd = some made.socket := by
    rw [getInfosSocket_eq_some, files, if_pos ⟨rfl, rfl⟩]
  have blocking : (v.socket made.socket).flags &&& oNonblock = 0 := by
    simp [made₁, newSocket, oRdwr, oNonblock]
  obtain ⟨ip, step₂⟩ := step_connect found₁ (by rw [made₁]; rfl) blocking target₁ other
    (by rw [kept, attached]) live random₁
  have links₁ : v.links = ((w.links.readdress made).register client cfd True).readdress made' :=
    congrArg (Links.readdress · made') (w.links_created made client cfd type protocol)
  have ledger₁ : v.ledger = w.ledger.enter made.socket (w.procs client).host :=
    w.ledger_created made client cfd type protocol
  have links₂ : (v.connectFrom made.socket listener m (v.procs client).host ip port).links =
      w.links.asked made made' client cfd listener m := by
    rw [links_connectFrom, links₁]
    rfl
  refine ⟨_, port, random, .of_step offered step₂, ?_, ?_, files⟩
  · exact exists_links_covering links₂
  · rw [ledger_covering, ledger_connectFrom, ledger₁, home]
    rfl

/-- The server's call goes through. -/
theorem Connectable.accepts (connectable : w.Connectable client cfd sai server lfd nfd listener m)
    (other : listener ≠ made.socket) (other' : listener ≠ made''.socket) (distinct : m ≠ made'.comm)
    {w₂ : World H} {port : Nat} (offered : w₂.Offers made'')
    (links₂ : ∃ n, w₂.links = (w.links.asked made made' client cfd listener m).readdress n)
    (ledger₂ : w₂.ledger = w.askedLedger made client port)
    (files₂ : ∀ proc fd, w₂.processDescriptorGetFd proc fd =
      if proc = client ∧ fd = cfd then some (.socket made.socket)
      else w.processDescriptorGetFd proc fd) :
    ∃ w₃ reported, w₂.StepAt (made'', .accept server lfd nfd,
        .accepted listener made.socket made''.socket reported) w₃ ∧
      (∃ n, w₃.links =
        (w.links.connected made made' made'' client cfd server nfd listener m).readdress n) ∧
      w₃.ledger = w.ledger.connected made.socket made''.socket (w.procs client).host
        (w.procs server).host port (w.ledger.place listener).2 ∧
      ∀ proc fd, w₃.processDescriptorGetFd proc fd =
        if proc = server ∧ fd = nfd then some (.socket made''.socket)
        else if proc = client ∧ fd = cfd then some (.socket made.socket)
        else w.processDescriptorGetFd proc fd := by
  obtain ⟨n, links₂⟩ := links₂
  obtain ⟨attached, -, -, -⟩ := connectable.listens
  let v := w₂.offering made''
  have linksV : v.links = (w.links.asked made made' client cfd listener m).readdress made'' :=
    congrArg (Links.readdress · made'') links₂
  have ledgerV : v.ledger = w.askedLedger made client port := ledger₂
  have found₂ : v.getInfosSocket server lfd = some listener := by
    have listed := (getInfosSocket_eq_some _).mp connectable.found
    refine (getInfosSocket_eq_some _).mpr ((files₂ server lfd).trans ?_)
    rw [if_neg, listed]
    rintro ⟨rfl, rfl⟩
    rw [connectable.free] at listed
    cases listed
  have newFree₂ : v.processDescriptorGetFd server nfd = none :=
    (files₂ server nfd).trans ((if_neg connectable.apart).trans connectable.newFree)
  have attached₂ : (v.socket listener).comm = some m := by
    refine (congrArg (Links.comm · listener) linksV).trans ?_
    simpa [Links.asked, Links.readdress, Links.ask, Links.setInfo1, Links.setConnWait, Links.commNew,
      Links.register, Links.setOpened, links, other] using attached
  have queue₂ : (v.comm m).connWait = [made'.comm] := by
    refine (congrArg (Links.connWait · m) linksV).trans ?_
    simp [Links.asked, Links.readdress, Links.ask, Links.setInfo1, Links.setConnWait, Links.commNew,
      Links.register, Links.setOpened, links, distinct, connectable.idle]
  have first₂ : (v.comm made'.comm).info0.socket = some made.socket :=
    (congrArg (Links.info0 · made'.comm) linksV).trans (Function.update_self ..)
  obtain ⟨reported, ip, step₃⟩ := step_accept found₂ other' attached₂ queue₂ first₂
    connectable.nonneg newFree₂
  have home₂ : v.ledger.home server = (w.procs server).host := congrArg (Ledger.home · server) ledgerV
  have place₂ : v.ledger.place listener = w.ledger.place listener := by
    rw [ledgerV]
    simp [askedLedger, Ledger.take, Ledger.move, Ledger.put, Ledger.enter, other]
  have links₃ : (v.acceptFrom server nfd listener m made'.comm [] ip).links =
      w.links.connected made made' made'' client cfd server nfd listener m := by
    rw [links_acceptFrom, linksV]
    rfl
  refine ⟨_, reported, .of_step offered step₃, ?_, ?_, ?_⟩
  · exact exists_links_covering links₃
  · rw [ledger_covering, ledger_acceptFrom, home₂, place₂, ledgerV]
    rfl
  · intro proc fd
    rw [← files₂ proc fd]
    exact processDescriptorGetFd_confirmRegisterSocket server proc nfd fd (v.socket listener).domain
      (v.socket listener).type (v.socket listener).protocol

/-- Whatever the last state of a connection is, releasing both of its sockets, the
    communication and the two descriptors restores the tables. -/
theorem Connectable.sameTables {w₂ w₃ w₅ : World H} {port : Nat} (inhabited : w.ledger.Inhabited)
    (connectable : w.Connectable client cfd sai server lfd nfd listener m)
    (random : w.getRandomPort (w.procs client).host = some port)
    (unlisted : made.socket ∉ w.allSockets) (unlisted' : made'.comm ∉ w.commList)
    (distinct : m ≠ made'.comm) (ledger₂ : w₂.ledger = w.askedLedger made client port)
    (unnamed : w₂.Unnamed made'')
    (links₃ : ∃ n, w₃.links =
      (w.links.connected made made' made'' client cfd server nfd listener m).readdress n)
    (ledger₃ : w₃.ledger = w.ledger.connected made.socket made''.socket (w.procs client).host
      (w.procs server).host port (w.ledger.place listener).2)
    (ledger₅ : w₅.ledger = (w₃.ledger.release made.socket).release made''.socket)
    (commList : w₅.commList = w₃.commList.erase made'.comm)
    (connWait : ∀ j, j ≠ made'.comm → (w₅.comm j).connWait = (w₃.comm j).connWait)
    (fdMap : ∀ proc fd, w₅.processDescriptorGetFd proc fd = w.processDescriptorGetFd proc fd) :
    w.SameTables m w₅ := by
  obtain ⟨n, links₃⟩ := links₃
  have unused : w.ledger.desc (w.procs client).host port = none := w.getRandomPort_unused random
  have sockets₂ : w₂.allSockets = w.allSockets ++ [made.socket] := congrArg Ledger.allSockets ledger₂
  have fresh : made''.socket ∉ w.allSockets ++ [made.socket] := sockets₂ ▸ unnamed.1
  have apart : made''.socket ≠ made.socket := fun same => fresh (by simp [same])
  refine { ports := ?_, allSockets := ?_, commList := ?_, connWait := ?_, fdMap := fdMap }
  · intro host port'
    have restored := Ledger.desc_release_connected (l := w.ledger) apart unused fun desc entry =>
      ⟨inhabited (w.procs server).host (w.ledger.place listener).2 desc entry,
        unnamed.bound (entry_of_asked ledger₂ unused entry)⟩
    rw [← ledger₃, ← ledger₅] at restored
    exact congrFun (congrFun restored host) port'
  · have listed : w₃.ledger.allSockets = w.allSockets ++ [made.socket] ++ [made''.socket] := by
      rw [ledger₃]
      rfl
    have gone : w₅.allSockets = (w₃.ledger.allSockets.erase made.socket).erase made''.socket :=
      congrArg Ledger.allSockets ledger₅
    have fresh' : made''.socket ∉ w.allSockets := fun member => fresh (List.mem_append_left _ member)
    rw [gone, listed]
    simp [List.erase_append, unlisted, fresh']
  · have listed : w₃.commList = w.commList ++ [made'.comm] := congrArg Links.commList links₃
    rw [commList, listed]
    simp [List.erase_append, unlisted']
  · rw [connWait m distinct, connectable.idle]
    exact (congrArg (Links.connWait · m) links₃).trans (Function.update_self ..)

end

end World

end Simterpose
