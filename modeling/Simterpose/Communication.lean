import Simterpose.Sockets

/-! # Communications between sockets

`communication.c`: the object behind a listening socket or a connection, the queue
of connections a listener has not accepted yet, and the two closing paths. The
messages a communication carries are in `Simterpose.Messages`.
-/

namespace Simterpose

open Lib

namespace World

variable {H : Type} (w : World H)

/-- `comm_new`; the communication made is `w.comms.next`. -/
def commNew (is : SockId) : World H :=
  { w.modifySocket is fun s => { s with comm := some w.comms.next, refNb := s.refNb + 1 } with
    comms := w.comms.alloc { info0 := { socket := some is }, refNb := 1 }
    commList := w.commList ++ [w.comms.next] }

/-- Drop the reference an `info` record holds. -/
def dropInfo (socket : Option SockId) : World H :=
  match socket with
  | some is => w.addRefNb is (-1)
  | none => w

/-- Take a communication off the list; one that is not there is only reported. -/
def unlistComm (k : CommId) : World H :=
  if k ∈ w.commList then
    { w.modifyComm k fun c => { c with refNb := c.refNb - 1 } with commList := w.commList.erase k }
  else w

/-- `free(comm)` -/
def freeComm (k : CommId) : World H := { w with comms := w.comms.free k }

/-- `comm_destroy`. `xbt_dynar_free` leaves a NULL `conn_wait`, which reads as an empty
    queue. -/
def commDestroy (k : CommId) : World H :=
  let w := w.dropInfo (w.comm k).info0.socket
  let w := w.dropInfo (w.comm k).info1.socket
  let w := w.modifyComm k fun c => { c with connWait := [] }
  (w.unlistComm k).freeComm k

/-- `comm_get_peer` -/
def commGetPeer (is : SockId) : Result (Option SockId) :=
  match (w.socket is).comm with
  | none => .error .segfault
  | some k =>
      if (w.comm k).info0.socket = some is then .ok (w.comm k).info1.socket
      else .ok (w.comm k).info0.socket

/-- `comm_get_own_recv` -/
def commGetOwnRecv (is : SockId) : Option RecvRef :=
  match (w.socket is).comm with
  | none => none
  | some k => if (w.comm k).info0.socket = some is then some ⟨k, .zero⟩ else some ⟨k, .one⟩

/-- `comm_get_peer_recv` -/
def commGetPeerRecv (is : SockId) : Result RecvRef :=
  match (w.socket is).comm with
  | none => .error .segfault
  | some k => if (w.comm k).info0.socket = some is then .ok ⟨k, .one⟩ else .ok ⟨k, .zero⟩

/-- `comm_set_listen` -/
def commSetListen (k : CommId) : World H := w.modifyComm k fun c => { c with state := .listening }

/-- `comm_has_connect_waiting` -/
def commHasConnectWaiting (is : Option SockId) : Result Bool :=
  match is with
  | none => .error (.xbtDie "The socket does not exist")
  | some is =>
      match (w.socket is).comm with
      | none => .error (.xbtDie "The communication does not exist")
      | some k => .ok !(w.comm k).connWait.isEmpty

/-- `comm_accept_connect`: the address of the socket that waits first. -/
def commAcceptConnect (is : SockId) : Result (Option SockaddrIn) :=
  match (w.socket is).comm with
  | none => .error .throwImpossible
  | some k =>
      match (w.comm k).connWait with
      | [] => .ok none
      | conn :: _ =>
          match (w.comm conn).info0.socket with
          | none => .error .segfault
          | some s => .ok (some
              { addr := (w.socket s).ipLocal, port := UInt16.ofNat (w.socket s).portLocal })

/-- The request `conn` at the head of the queue of `k` gets the socket `is` as its other
    side; its own counter goes down for the queue and up for the socket. -/
def takeConnection (is : SockId) (k conn : CommId) (rest : List CommId) : World H :=
  let w := w.modifyComm k fun c => { c with connWait := rest }
  let w := w.modifyComm conn fun c => { c with info1 := { c.info1 with socket := some is } }
  w.modifySocket is fun s => { s with comm := some conn, refNb := s.refNb + 1 }

/-- `comm_join_on_accept` -/
def commJoinOnAccept (is : SockId) (proc : Pid) (fdListen : Int) : Result (World H) :=
  match w.getInfosSocket proc fdListen with
  | none => .error .segfault
  | some sockListen =>
      match (w.socket sockListen).comm with
      | none => .error .throwImpossible
      | some k =>
          match (w.comm k).connWait with
          | [] => .error .xbtAssert
          | conn :: rest => .ok (w.takeConnection is k conn rest)

/-- The address a connecting socket will report for its peer. -/
def remoteIp (conn is : SockId) : UInt32 :=
  if (w.socket conn).ipLocal = inaddrAny then
    if (w.socket conn).fd.proc = (w.socket is).fd.proc then loopback
    else (w.hosts (w.procs (w.socket conn).fd.proc).host).ip
  else (w.socket conn).ipLocal

/-- A new communication of `is` waits in the queue of `k`, the one of the socket `conn`. -/
def queueConnection (is conn : SockId) (k : CommId) : World H :=
  let new := w.comms.next
  let w := w.commNew is
  let w := w.modifyComm k fun c => { c with connWait := c.connWait ++ [new] }
  let w := w.modifyComm new fun c =>
    { c with refNb := c.refNb + 1
             remoteIp := w.remoteIp conn is
             remotePort := (w.socket conn).portLocal
             info1 := { c.info1 with socket := some conn } }
  w.addRefNb conn 1

@[simp] theorem procs_queueConnection (is conn : SockId) (k : CommId) :
    (w.queueConnection is conn k).procs = w.procs := rfl

@[simp] theorem hosts_queueConnection (is conn : SockId) (k : CommId) :
    (w.queueConnection is conn k).hosts = w.hosts := rfl

/-- `comm_ask_connect`; the listener's process it returns is named by the listener. -/
def commAskConnect (host : H) (port : Nat) (proc : Pid) (fd : Int) (device : Nat) :
    Result (World H × Option SockId) :=
  match w.getBindingSocketHost host port device with
  | none => .ok (w, none)
  | some conn =>
      match w.getInfosSocket proc fd with
      | none => .error .segfault
      | some is =>
          match ((w.commNew is).socket conn).comm with
          | none => .error .segfault
          | some k =>
              -- a destroyed communication has a NULL queue
              if (w.commNew is).comms.freed k then .error .xbtAssert
              else .ok (w.queueConnection is conn k, some conn)

end World

namespace World

variable {H : Type} [DecidableEq H] (w : World H)

/-- Both closing paths of `comm_close` do this to a socket: give its port back, take it
    off the list, free it when nothing seems to refer to it. -/
def releaseSocket (is : SockId) : World H :=
  let w := (w.unsetSocket is).deleteSocket is
  if (w.socket is).refNb = 0 then w.freeSocket is else w

/-- `comm_close` -/
def commClose (is : SockId) : Result (World H) :=
  match (w.socket is).comm with
  | none => .ok w
  | some k =>
      match (w.comm k).state with
      | .listening =>
          match (w.comm k).info0.socket with
          | none => .error .segfault
          | some s => .ok ((w.releaseSocket s).commDestroy k)
      | .closed =>
          match (w.comm k).info0.socket, (w.comm k).info1.socket with
          | some s, some t => .ok (((w.releaseSocket s).releaseSocket t).commDestroy k)
          | _, _ => .error .segfault
      | .opened | .shut => .ok (w.modifyComm k fun c => { c with state := .closed })

end World

end Simterpose
