import Simterpose.Handlers

/-! # Sending and receiving through MSG

`process_send_call` puts a task into the mailbox named after the receiver's host and
leaves a record of it in the communication; `syscall_recvfrom_pre` takes the oldest
task of the mailbox its stream names. MSG is assumed to keep each mailbox in sending
order and to hand every task out once.
-/

namespace Simterpose

open Lib

/-- The conversion to `int` of a 64-bit register. -/
def toCInt (n : Nat) : Int := (BitVec.ofNat 32 n).toInt

theorem toCInt_of_lt {n : Nat} (small : n < 0x80000000) : toCInt n = n := by
  unfold toCInt
  rw [BitVec.toInt_eq_toNat_cond, BitVec.toNat_ofNat]
  omega

/-- `strlen` on memory that starts with these bytes; without a NUL it runs out of the
    mapped memory. -/
def strlen (memory : List UInt8) : Option Nat :=
  if 0 ∈ memory then some (memory.idxOf 0) else none

/-- The bytes `process_recvfrom_out_call` stores and reports for a task: the length it
    goes by is that of the C string at the start of the data. -/
def Task.recvfromChunk (task : Task) (lenBuf : Nat) : Option (List UInt8) :=
  match strlen (task.data ++ task.beyond) with
  | none => none
  | some n =>
      let lenData := n + 1
      if lenBuf ≥ lenData then some ((task.data ++ task.beyond).take lenData)
      else some ((task.data ++ task.beyond).take lenBuf)

/-- The bytes `process_read_out_call` stores: it goes by the value that the result register has
    when the call is entered, which is no length. -/
def Task.readChunk (task : Task) (ret : Int) : Option (List UInt8) :=
  if ret > 0 then
    if ret.toNat ≤ (task.data ++ task.beyond).length then some ((task.data ++ task.beyond).take ret.toNat)
    else none
  else some []

/-- The bytes `sys_build_recvmsg` stores: each buffer of the vector gets the start of the data,
    in the length of the buffer. -/
def Task.recvmsgChunk (task : Task) (iovLens : List Nat) : Option (List UInt8) :=
  if iovLens = [] then some []
  else
    match strlen (task.data ++ task.beyond) with
    | none => none
    | some _ =>
        if iovLens.all (· ≤ (task.data ++ task.beyond).length) then
          some (iovLens.flatMap fun len => (task.data ++ task.beyond).take len)
        else none

/-- `SOCKET_READ_OK`, `SOCKET_CLOSED`, `SOCKET_WR_NBLK` and `SOCKET_SHUT` -/
def socketReadOk : Nat := 0x1
def socketClosed : Nat := 0x2
def socketWrNblk : Nat := 0x4
def socketShut : Nat := 0x8

namespace World

section

variable {H : Type} (w : World H)

/-- The record a reference points at. -/
def recvInformation (recv : RecvRef) : RecvInformation H :=
  match recv.slot with
  | .zero => (w.comm recv.comm).info0.recv
  | .one => (w.comm recv.comm).info1.recv

/-- `comm_get_socket_state` -/
def commGetSocketState (is : SockId) : Nat :=
  match (w.socket is).comm, w.commGetOwnRecv is, w.commGetPeer is with
  | some k, some recv, .ok peer =>
      (if (w.recvInformation recv).dataFifo = [] then 0 else socketReadOk) |||
        (if (w.comm k).connWait = [] then 0 else socketReadOk) |||
        (if (w.comm k).state = .closed then socketClosed else 0) |||
        (if peer = none then 0 else socketWrNblk) |||
        (if (w.comm k).state = .shut then socketShut else 0)
  | _, _, _ => 0

def modifyRecv (recv : RecvRef) (f : RecvInformation H → RecvInformation H) : World H :=
  match recv.slot with
  | .zero => w.modifyComm recv.comm fun c => { c with info0 := { c.info0 with recv := f c.info0.recv } }
  | .one => w.modifyComm recv.comm fun c => { c with info1 := { c.info1 with recv := f c.info1.recv } }

/-- `handle_new_send`; it also sets the result register to the third argument. -/
def handleNewSend (is : SockId) (data : List UInt8) (arg2 : Nat) : Result (World H) := do
  let recv ← w.commGetPeerRecv is
  return w.modifyRecv recv fun r =>
    { r with dataFifo := r.dataFifo ++ [{ data := data, size := toCInt arg2 }] }

/-- `comm_send_data` -/
def commSendData (is : SockId) (tci : TaskCommInfo H) : Result (World H) := do
  let recv ← w.commGetPeerRecv is
  return w.modifyRecv recv fun r => { r with recvTask := r.recvTask ++ [tci] }

end

variable {H : Type} [DecidableEq H] (w : World H)

/-- `send_task`: the mailbox is named after the receiving host. -/
def sendTask (receiver : H) (task : Task) : World H :=
  { w with mailboxes := Function.update w.mailboxes receiver (w.mailboxes receiver ++ [task]) }

/-- `process_send_call`, called with the bytes copied from the tracee; whether a task was
    sent. -/
def processSendCall (proc : Pid) (fd : Int) (data beyond : List UInt8) : Result (World H × Bool) :=
  match w.getInfosSocket proc fd with
  | none => .error (.xbtDie "The socket is not registered")
  | some is =>
      if w.socketNetlink proc fd then .ok (w, false)
      else do
        match ← w.commGetPeer is with
        | none => .error .segfault
        | some s =>
            let w := (w.addRefNb is 1).addRefNb s 1
            let w ← w.handleNewSend is data data.length
            let task : Task :=
              { bytesAmount := toCInt data.length, data := data, beyond := beyond, sentOn := is }
            let w ← w.commSendData is { task := task, senderHost := (w.procs proc).host }
            let w := w.sendTask (w.procs (w.socket s).fd.proc).host task
            return ((w.addRefNb is (-1)).addRefNb s (-1), true)

/-- `process_send_call` with the third argument of the call, which is no length in every call it
    is used for; the task that was sent. -/
def processSendCallWith (proc : Pid) (fd : Int) (data beyond : List UInt8) (arg2 : Nat) :
    Result (World H × Option Task) :=
  match w.getInfosSocket proc fd with
  | none => .error (.xbtDie "The socket is not registered")
  | some is =>
      if w.socketNetlink proc fd then .ok (w, none)
      else do
        match ← w.commGetPeer is with
        | none => .error .segfault
        | some s =>
            let w := (w.addRefNb is 1).addRefNb s 1
            let w ← w.handleNewSend is data arg2
            let task : Task := { bytesAmount := toCInt arg2, data := data, beyond := beyond, sentOn := is }
            let w ← w.commSendData is { task := task, senderHost := (w.procs proc).host }
            let w := w.sendTask (w.procs (w.socket s).fd.proc).host task
            return ((w.addRefNb is (-1)).addRefNb s (-1), some task)

/-- Where the third argument is the length of the data, the two agree. -/
theorem processSendCall_eq (proc : Pid) (fd : Int) (data beyond : List UInt8) :
    w.processSendCall proc fd data beyond =
      (w.processSendCallWith proc fd data beyond data.length).map fun sent => (sent.1, sent.2.isSome) := by
  unfold processSendCall processSendCallWith
  cases w.getInfosSocket proc fd with
  | none => rfl
  | some is =>
      cases w.socketNetlink proc fd with
      | true => rfl
      | false =>
          simp only [Bool.false_eq_true, if_false, bind, Except.bind]
          cases w.commGetPeer is with
          | error => rfl
          | ok peer =>
              cases peer with
              | none => rfl
              | some s =>
                  simp only
                  cases ((w.addRefNb is 1).addRefNb s 1).handleNewSend is data data.length with
                  | error => rfl
                  | ok w =>
                      simp only
                      cases w.commSendData is _ <;> rfl

/-- The mailbox `syscall_recvfrom_pre` listens on for a descriptor with the given stream. -/
def recvMailbox (proc : Pid) (stream : Option StreamId) : Result H :=
  match stream with
  | none => .error .segfault
  | some t =>
      let mailbox :=
        if (w.stream t).client = some proc then some (w.stream t).toClient
        else if (w.stream t).server = some proc then some (w.stream t).toServer
        else none
      match mailbox with
      | none => .error .throwImpossible
      | some none => .error .segfault
      | some (some mailbox) => .ok mailbox

/-- `sys_translate_recvfrom_out` for the length word the tracee passed. No translation is
    ever recorded by the full-mediation build, so the one that is looked up is NULL. -/
def sysTranslateRecvfromOut (addrlen : Option Nat) : Result Unit :=
  match addrlen with
  | none => .ok ()
  | some len => if len = 8 then .error .segfault else .ok ()

/-- `syscall_recvfrom_pre` and `process_recvfrom_out_call`: the task taken and the bytes
    given to the tracee, or nothing when the kernel runs the call. The descriptor's
    `refcount` is raised while the call waits and lowered again. -/
def syscallRecvfromPre (proc : Pid) (fd : Int) (lenBuf : Nat) (addrlen : Option Nat) :
    Result (World H × Option (Task × List UInt8)) :=
  match w.processDescriptorGetFd proc fd with
  | none => .error .segfault
  | some ref =>
      if w.socketRegistered proc fd ≠ -1 ∧ w.socketNetlink proc fd = false then do
        let mailbox ← w.recvMailbox proc (w.fileDesc ref).stream
        match w.mailboxes mailbox with
        | [] => .error .blocked
        | task :: rest =>
            let w := { w with mailboxes := Function.update w.mailboxes mailbox rest }
            if w.socketNetwork proc fd then sysTranslateRecvfromOut addrlen else pure ()
            match task.recvfromChunk lenBuf with
            | none => .error .segfault
            | some chunk => return (w, some (task, chunk))
      else .ok (w, none)

/-- What the receive handlers have in common: the oldest task of the mailbox is taken, and
    `store` says which of its bytes the tracee gets. -/
def receiveTask (proc : Pid) (ref : DescRef) (store : Task → Option (List UInt8)) :
    Result (World H × Option (Task × List UInt8)) := do
  let mailbox ← w.recvMailbox proc (w.fileDesc ref).stream
  match w.mailboxes mailbox with
  | [] => .error .blocked
  | task :: rest =>
      match store task with
      | none => .error .segfault
      | some chunk =>
          return ({ w with mailboxes := Function.update w.mailboxes mailbox rest }, some (task, chunk))

/-- `syscall_read` at the entrance, with the value of the result register. A descriptor that is
    no socket is left alone; pipes have mailboxes of their own, which are not modelled. -/
def syscallRead (proc : Pid) (fd ret : Int) : Result (World H × Option (Task × List UInt8)) :=
  match w.processDescriptorGetFd proc fd with
  | none => .error .segfault
  | some ref =>
      if w.socketRegistered proc fd ≠ -1 then w.receiveTask proc ref (·.readChunk ret)
      else .ok (w, none)

/-- `syscall_recvmsg_pre`, with the lengths of the buffers. -/
def syscallRecvmsgPre (proc : Pid) (fd : Int) (iovLens : List Nat) :
    Result (World H × Option (Task × List UInt8)) :=
  match w.processDescriptorGetFd proc fd with
  | none => .error .segfault
  | some ref =>
      if w.socketRegistered proc fd ≠ -1 ∧ w.socketNetlink proc fd = false then
        w.receiveTask proc ref (·.recvmsgChunk iovLens)
      else .ok (w, none)

end World

end Simterpose
