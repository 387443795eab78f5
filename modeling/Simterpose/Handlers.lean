import Simterpose.Descriptors

/-! # The socket calls of the full-mediation build

What the handlers of `socket`, `bind`, `listen`, `connect` and `accept` do to the
tables. The kernel's results and the tracee's memory are arguments. Of `connect` this
is `process_connect_in_call`, of `accept` the part between the two waits on the server
semaphore; the semaphores and the stream object are in `Simterpose.Handshake`.
-/

namespace Simterpose

open Lib

def eaddrinuse : Int := 98
def econnrefused : Int := 111
def einprogress : Int := 115

/-- The devices a bound address is reachable through. -/
def bindDevice (addr : UInt32) : Nat :=
  if addr = inaddrAny then portLocalDevice ||| portRemoteDevice
  else if addr = loopback then portLocalDevice
  else portRemoteDevice

/-- What `process_connect_in_call` leaves behind. -/
structure ConnectOutcome (H : Type) where
  world : World H
  /-- the result the neutralised call is given; `none` leaves the call to the kernel -/
  ret : Option Int
  /-- the socket on whose queue the request now waits -/
  listener : Option SockId
  /-- the value returned: whether the caller goes on to wait for the server -/
  waits : Bool

namespace World

section

variable {H : Type} (w : World H)

/-- `syscall_socket` at the exit, with the kernel's result. -/
def syscallSocket (proc : Pid) (domain type protocol ret : Int) : Result (World H) :=
  if ret > 0 then w.registerSocket proc ret domain type protocol else .ok w

/-- `process_listen_call` -/
def processListenCall (proc : Pid) (sockfd : Int) : Result (World H) :=
  match w.getInfosSocket proc sockfd with
  | none => .error .segfault
  | some is => .ok ((w.commNew is).commSetListen w.comms.next)

/-- The address `process_accept_out_call` gives to the accepted socket `is`. -/
def acceptedIp (proc : Pid) (s is : SockId) : Result UInt32 :=
  if (w.socket s).ipLocal = inaddrAny then
    match (w.socket is).comm with
    | none => .error .segfault
    | some k =>
        match (w.comm k).info0.socket with
        | none => .error .segfault
        | some temp =>
            if (w.socket temp).ipLocal = loopback then .ok loopback
            else .ok (w.hosts (w.procs proc).host).ip
  else .ok (w.socket s).ipLocal

end

variable {H : Type} [DecidableEq H] (w : World H)

/-- `syscall_bind_pre`, with the result of the neutralised call. On a socket that is not
    of the network the call is left to the kernel. `sai` is read from the tracee for
    `PF_INET` only; on other network sockets it is whatever the stack holds. -/
def syscallBindPre (proc : Pid) (sockfd : Int) (sai : SockaddrIn) :
    Result (World H × Option Int) :=
  match w.getInfosSocket proc sockfd with
  | none => .ok (w, none)
  | some is =>
      let host := (w.procs proc).host
      let port := sai.port.toNat
      if w.socketNetwork proc sockfd then
        if w.isPortInUse host port then .ok (w, some (-eaddrinuse))
        else do
          let w := w.registerPort host port
          let w := w.setPortOnBinding host port is (bindDevice sai.addr)
          let w := w.modifySocket is fun s => { s with binded := true }
          let w ← w.setLocaladdrPortSocket proc sockfd sai.addr port
          return (w, some 0)
      else .ok (w, none)

/-- The part of `process_connect_in_call` that follows the choice of host and device. -/
def connectTo (proc : Pid) (sockfd : Int) (port : Nat) (host : H) (device : Nat) (ip : UInt32) :
    Result (ConnectOutcome H) := do
  let (w, accProc) ← w.commAskConnect host port proc sockfd device
  match accProc with
  | none => return { world := w, ret := some (-econnrefused), listener := none, waits := false }
  | some listener =>
      match w.getRandomPort (w.procs proc).host with
      | none => .error .endless
      | some localPort =>
          let w ← w.setLocaladdrPortSocket proc sockfd ip localPort
          let w := w.registerPort (w.procs proc).host localPort
          if w.socketGetFlags proc sockfd &&& oNonblock ≠ 0 then
            return { world := w, ret := some (-einprogress), listener := some listener, waits := false }
          else return { world := w, ret := some 0, listener := some listener, waits := true }

/-- `process_connect_in_call` -/
def processConnectInCall (proc : Pid) (sockfd : Int) (sai : SockaddrIn) :
    Result (ConnectOutcome H) :=
  if w.getDomainSocket proc sockfd = 2 then
    if sai.addr = loopback then
      w.connectTo proc sockfd sai.port.toNat (w.procs proc).host portLocalDevice loopback
    else
      match w.listIp sai.addr with
      | none => .ok { world := w, ret := some (-econnrefused), listener := none, waits := false }
      | some host =>
          w.connectTo proc sockfd sai.port.toNat host portRemoteDevice
            (w.hosts (w.procs proc).host).ip
  else .ok { world := w, ret := none, listener := none, waits := false }

/-- `process_accept_out_call`; the socket made is `w.sockets.next`. -/
def processAcceptOutCall (proc : Pid) (sockfd ret : Int) : Result (World H) :=
  if ret ≥ 0 then do
    let is := w.sockets.next
    let w ← w.registerSocket proc ret (w.getDomainSocket proc sockfd) (w.getTypeSocket proc sockfd)
      (w.getProtocolSocket proc sockfd)
    let w ← w.commJoinOnAccept is proc sockfd
    match w.getInfosSocket proc sockfd with
    | none => .error .segfault
    | some s =>
        let w := w.registerPort (w.procs proc).host (w.socket s).portLocal
        let ip ← w.acceptedIp proc s is
        let w ← w.setLocaladdrPortSocket proc ret ip (w.socket s).portLocal
        return w.modifySocket is fun n =>
          { n with fd := { n.fd with stream := (w.socket s).fd.stream } }
  else .ok w

/-- `syscall_accept` between its two waits, with the descriptor `ptrace_record_socket` got
    from the kernel. When somebody waits to be accepted, the result is the address
    written to the tracee. -/
def syscallAccept (proc : Pid) (sockfd newfd : Int) : Result (World H × Option SockaddrIn) := do
  let waiting ← w.commHasConnectWaiting (w.getInfosSocket proc sockfd)
  match w.getInfosSocket proc sockfd, waiting with
  | some is, true =>
      let sai ← w.commAcceptConnect is
      let w ← w.processAcceptOutCall proc sockfd newfd
      return (w, sai)
  | _, _ => return (w, none)

end World

end Simterpose
