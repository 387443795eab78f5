import Mathlib.Data.List.AList
import Simterpose.Lib.Heap

/-! # The tables Simterpose keeps about the traced processes

One record for all the global data of `sockets.c`, `communication.c` and
`data_utils.c` and for the descriptor tables of the processes. Pointers are heap
addresses; NULL is `none`. A network socket descriptor is an `infos_socket`, whose
first member is the `fd_descriptor_t` the descriptor table refers to, so a
descriptor reference says which of the two records it points at.

The MSG process that represents a traced process is named by the process's pid,
and a mailbox by the host after which the code names it.
-/

namespace Simterpose

open Lib

abbrev Pid := Nat
abbrev SockId := Nat
abbrev CommId := Nat
abbrev StreamId := Nat
abbrev PipeId := Nat
abbrev DescId := Nat

/-- Why a handler does not come back to the main loop. -/
inductive Halt where
  /-- memory that is not mapped, as a rule through a NULL pointer -/
  | segfault
  /-- a record used as a longer one than it is -/
  | outOfBounds
  | xbtDie (message : String)
  | xbtAssert
  | throwImpossible
  | throwUnimplemented
  /-- `SYSERROR`, where `ptrace` fails -/
  | systemError
  /-- `exit(-1)` of the whole simulator -/
  | simulatorExit
  /-- a loop of the source that never ends -/
  | endless
  /-- the calling MSG process sleeps until another one wakes it -/
  | blocked
  deriving Repr, DecidableEq

abbrev Result := Except Halt

inductive FdType where
  | stdin | stdout | stderr | classic | socket | pipe
  deriving Repr, DecidableEq

/-- `struct pipe_end_s` -/
structure PipeEnd where
  fd : Int
  proc : Pid
  deriving Repr, DecidableEq

/-- `pipe_t` -/
structure Pipe where
  readEnd : List PipeEnd
  writeEnd : List PipeEnd
  deriving Repr, DecidableEq

/-- `fd_descriptor_t`. Flag words are the numbers their 32 bits make. `sigId` is the
    union of `sig_proc_id` and `sig_group_id`. -/
structure FdDescriptor where
  type : FdType
  proc : Pid
  fd : Int
  stream : Option StreamId := none
  pipe : Option PipeId := none
  flags : Nat := 0
  mode : Nat := 0
  refcount : Int := 0
  offset : Int := 0
  lock : Bool := false
  ltype : Int := 0
  lockBegin : Int := 0
  lockEnd : Int := 0
  procLocker : Int := 0
  sigId : Int := 0
  deriving Repr, DecidableEq

/-- What an entry of `fd_map` points at. -/
inductive DescRef where
  | plain (desc : DescId)
  | socket (is : SockId)
  deriving Repr, DecidableEq

/-- `COMM_OPEN`, `COMM_CLOSED`, `COMM_LISTEN`, `COMM_SHUT`; never combined. -/
inductive CommState where
  | opened | closed | listening | shut
  deriving Repr, DecidableEq

/-- `struct sockaddr_in`, the port in host order. -/
structure SockaddrIn where
  addr : UInt32
  port : UInt16
  deriving Repr, DecidableEq

def inaddrAny : UInt32 := 0
/-- `inet_addr("127.0.0.1")` -/
def loopback : UInt32 := 0x0100007f

section Tables

variable (H : Type)

/-- `stream_t`; the two semaphores are their counters. -/
structure Stream where
  semClient : Nat := 0
  semServer : Nat := 0
  client : Option Pid := none
  server : Option Pid := none
  toClient : Option H := none
  toServer : Option H := none

/-- A MSG task with its payload. `beyond` is what the simulator's memory holds
    after the payload, as far as it is mapped; `sentOn` is the socket whose send
    made the task, which no code reads. -/
structure Task where
  bytesAmount : Int
  data : List UInt8
  beyond : List UInt8
  sentOn : SockId
  deriving Repr, DecidableEq

/-- `task_comm_info` -/
structure TaskCommInfo where
  task : Task
  senderHost : H

/-- `data_send_s` of the full-mediation build. -/
structure DataSend where
  data : List UInt8
  size : Int
  deriving Repr, DecidableEq

/-- `recv_information` -/
structure RecvInformation where
  dataFifo : List DataSend := []
  recvTask : List (TaskCommInfo H) := []

/-- `comm_info` -/
structure CommInfo where
  socket : Option SockId := none
  recv : RecvInformation H := {}

/-- `struct comm_s` -/
structure Comm where
  remoteIp : UInt32 := 0
  remotePort : Nat := 0
  info0 : CommInfo H := {}
  info1 : CommInfo H := {}
  state : CommState := .opened
  connWait : List CommId := []
  refNb : Int := 0

/-- `struct infos_socket`. Its descriptor part always carries the tag that
    `get_infos_socket` tests before it casts. -/
structure InfosSocket where
  fd : FdDescriptor
  comm : Option CommId
  host : H
  domain : Int
  protocol : Int
  ipLocal : UInt32
  portLocal : Nat
  flags : Nat
  type : Int
  option : Nat
  binded : Bool
  refNb : Int
  tagged : fd.type = .socket

/-- `struct port_desc` -/
structure PortDesc where
  portNum : Nat
  realPort : Nat
  option : Nat
  amountSocket : Int
  bindSocket : Option SockId
  deriving Repr, DecidableEq

/-- The port dictionary of a host. -/
abbrev PortTable := AList fun _ : Nat => PortDesc

/-- `struct simterpose_host` -/
structure SimterposeHost where
  ip : UInt32
  port : PortTable

/-- `struct process_descriptor`, less what only concerns the tracing of the process. -/
structure ProcessDescriptor where
  host : H
  fdMap : AList fun _ : Int => DescRef

structure World where
  procs : Pid → ProcessDescriptor H
  descs : Heap FdDescriptor
  sockets : Heap (InfosSocket H)
  comms : Heap (Comm H)
  streams : Heap (Stream H)
  pipes : Heap Pipe
  allSockets : List SockId
  commList : List CommId
  hosts : H → SimterposeHost
  listIp : UInt32 → Option H
  mailboxes : H → List Task

end Tables

/-- Which of the two `info` records of a communication. -/
inductive Slot where
  | zero | one
  deriving Repr, DecidableEq

/-- A pointer to a `recv_information`: those of a communication are made with it
    and never exchanged. -/
structure RecvRef where
  comm : CommId
  slot : Slot
  deriving Repr, DecidableEq

namespace World

variable {H : Type} (w : World H)

abbrev socket (is : SockId) : InfosSocket H := w.sockets.cell is
abbrev comm (k : CommId) : Comm H := w.comms.cell k
abbrev stream (t : StreamId) : Stream H := w.streams.cell t

def modifySocket (is : SockId) (f : InfosSocket H → InfosSocket H) : World H :=
  { w with sockets := w.sockets.modify is f }

def modifyComm (k : CommId) (f : Comm H → Comm H) : World H :=
  { w with comms := w.comms.modify k f }

def modifyStream (t : StreamId) (f : Stream H → Stream H) : World H :=
  { w with streams := w.streams.modify t f }

/-- The `fd_descriptor_t` behind a descriptor reference. -/
def fileDesc : DescRef → FdDescriptor
  | .plain d => w.descs.cell d
  | .socket is => (w.socket is).fd

/-- Add to the `refcount` of a descriptor. -/
def addRefcount (ref : DescRef) (n : Int) : World H :=
  match ref with
  | .plain d => { w with descs := w.descs.modify d fun fd => { fd with refcount := fd.refcount + n } }
  | .socket is => w.modifySocket is fun s =>
      { s with fd := { s.fd with refcount := s.fd.refcount + n } }

/-- Add to the `ref_nb` of a socket. -/
def addRefNb (is : SockId) (n : Int) : World H :=
  w.modifySocket is fun s => { s with refNb := s.refNb + n }

end World

end Simterpose
