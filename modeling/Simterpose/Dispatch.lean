import Simterpose.Handshake

/-! # The loop of process_handle

`process_handle` looks at a stopped tracee, calls the handler of the system call in its
registers, resumes it and waits for the next stop. Which side of the call a stop is taken
for is decided by `in_syscall` alone, which the handlers set by hand. Modelled here is
what each handler does to that flag and to the stop of the tracee; what it does to the
tables is in the other modules, whose functions decide here whether the call is
neutralised. Every round finds the tables as the other processes left them.

A handler that stops the simulator ends the run. Where that depends on data which is not
modelled (the tracee's memory and the commands of `fcntl`), the handler goes on.
-/

namespace Simterpose

open Lib

/-- `PTRACE_EVENT_*`, as far as Simterpose asks for them. -/
inductive PtraceEvent where
  | fork | vfork | clone | exec
  deriving Repr, DecidableEq

/-- Where a tracee stands when `waitpid` returns. -/
inductive Stop where
  | entry
  | event (e : PtraceEvent)
  | exit
  deriving Repr, DecidableEq

def sigtrap : Nat := 5

/-- `WSTOPSIG` of the status, with `PTRACE_O_TRACESYSGOOD` set. -/
def Stop.wstopsig : Stop → Nat
  | .entry | .exit => sigtrap ||| 0x80
  | .event _ => sigtrap

/-- `proc_event_exec` -/
def Stop.procEventExec (stop : Stop) : Bool := stop = .event .exec

/-- The call in the registers of a tracee, with the arguments and the memory its handler
    goes by. -/
inductive Syscall where
  | creat
  /-- `SYS_open` -/
  | openFile
  | close (fd : Int)
  | read (fd : Int)
  | write (fd : Int) (data beyond : List UInt8)
  | dup (oldfd : Int)
  | dup2 (oldfd newfd : Int)
  | fcntl
  | lseek (fd : Int)
  /-- the first descriptor polled, or a NULL list -/
  | poll (fd : Option Int)
  | select
  | pipe
  | brk
  | socket (domain type protocol : Int)
  | connect (sockfd : Int) (sai : SockaddrIn)
  | bind (sockfd : Int) (sai : SockaddrIn)
  | listen (sockfd : Int)
  /-- `newfd` is what the kernel gives `ptrace_record_socket` -/
  | accept (sockfd newfd : Int)
  | sendto (fd : Int) (data beyond : List UInt8)
  | recvfrom (fd : Int) (lenBuf : Nat) (addrlen : Option Nat)
  | sendmsg (fd : Int) (data beyond : List UInt8)
  | recvmsg (fd : Int)
  | shutdown
  | getpeername (sockfd : Int)
  | getsockopt
  | setsockopt
  | clone
  | execve
  | exit
  | exitGroup
  | getpid
  | tuxcall
  /-- a call without a case of its own, by its number -/
  | other (nr : Nat)

/-- The events that a call can report between its entry and its exit. -/
def Syscall.reports : Syscall → PtraceEvent → Bool
  | .clone, e => e ≠ .exec
  | .execve, e => e = .exec
  | .other nr, e => nr = 57 ∧ e = .fork ∨ nr = 58 ∧ e = .vfork
  | _, _ => false

/-- A call stops its tracee at its entry, at its exit, and where it reports an event. -/
def Stop.possible : Stop → Syscall → Bool
  | .event e, call => call.reports e
  | _, _ => true

/-- A stopped tracee, and the flag its descriptor has. -/
structure Tracee where
  stop : Stop
  inSyscall : Bool
  deriving Repr, DecidableEq

/-- What a handler tells `process_handle`. -/
inductive Returned where
  | processContinue
  | processTaskFound
  | processDead
  /-- `process_handle` is called again, for the stop at hand -/
  | nested
  deriving Repr, DecidableEq

abbrev Handler := Tracee → Result (Tracee × Returned)

namespace Tracee

def procEntering (t : Tracee) : Bool := !t.inSyscall
def procInside (t : Tracee) : Tracee := { t with inSyscall := true }
def procOutside (t : Tracee) : Tracee := { t with inSyscall := false }

/-- `ptrace_neutralize_syscall` waits for the exit itself. -/
def ptraceNeutralizeSyscall (t : Tracee) : Tracee := { t with stop := .exit }

/-- Nothing more is done at this stop. -/
def done : Handler := fun t => .ok (t, .processContinue)

/-- The kernel does not run the call. -/
def neutralised (returned : Returned) : Handler := fun t =>
  .ok (t.ptraceNeutralizeSyscall.procOutside, returned)

/-- A call that Simterpose has an answer for is neutralised, the others are the kernel's. -/
def answered {α : Type} (answer : Option α) : Handler :=
  if answer.isSome then neutralised .processContinue else done

/-- The shape of most handlers. -/
def bySide (pre post : Handler) : Handler := fun t =>
  if t.procEntering then pre t.procInside else post t.procOutside

def syscallCreat : Handler := bySide done done
def syscallOpen : Handler := bySide done done
def syscallPipe : Handler := bySide done done
def syscallBrk : Handler := bySide done done
def syscallGetpid : Handler := bySide done done
def syscallTuxcall : Handler := bySide done done
def syscallDefault : Handler := bySide done done
def syscallShutdown : Handler := bySide (neutralised .processContinue) done
def syscallGetsockopt : Handler := bySide (neutralised .processContinue) done
def syscallSetsockopt : Handler := bySide (neutralised .processContinue) done

def syscallSelect : Handler := bySide (fun _ => .error .throwUnimplemented) done

def syscallFcntl (ret : Int) : Handler :=
  bySide done fun t => if ret = -1 then .error .simulatorExit else done t

/-- When the descriptor is no socket, the handler waits for an uninitialised `comm`. -/
def syscallPoll (fd : Option Int) : Handler :=
  bySide (fun t => if fd = none then .error .segfault else done t) done

/-- The first test asks for any common bit with the signal of a syscall stop, which an event
    stop has. `proc->status` is not refreshed when a call is neutralised, but neither this
    handler nor `syscall_execve` runs after that. -/
def syscallClone : Handler := fun t =>
  if t.stop.wstopsig &&& (sigtrap ||| 0x80) ≠ 0 then bySide done done t
  else if t.stop.procEventExec then done t.procOutside.procInside
  else done t

def syscallExecve : Handler := fun t =>
  if t.stop.procEventExec then done t else bySide done done t

def syscallExit : Handler := fun t =>
  if t.procEntering then .ok (t.procInside, .processDead) else .error .throwImpossible

section

variable {H : Type} (w : World H) (proc : Pid)

def syscallDup (oldfd ret : Int) : Handler :=
  bySide done fun t => do
    let _ ← w.syscallDupPost proc oldfd ret
    done t

/-- `process_lseek_call` runs at the entry, before the kernel has stored a result. -/
def syscallLseek (fd ret : Int) : Handler :=
  bySide (fun t =>
    if ret ≥ 0 ∧ w.processDescriptorGetFd proc fd = none then .error .segfault else done t) done

def syscallSocket (domain type protocol ret : Int) : Handler :=
  bySide done fun t => do
    let _ ← w.syscallSocket proc domain type protocol ret
    done t

def syscallListen (sockfd : Int) : Handler :=
  bySide (fun t => do
    let _ ← w.processListenCall proc sockfd
    neutralised .processContinue t) fun _ => .error .throwImpossible

/-- `comm_getpeername` stores through a NULL pointer unless there is no communication. -/
def syscallGetpeername (sockfd : Int) : Handler :=
  bySide (fun t =>
    match w.getInfosSocket proc sockfd with
    | none => done t
    | some is =>
        if w.socketNetwork proc sockfd then
          if (w.socket is).comm = none then neutralised .processContinue t else .error .segfault
        else done t) done

/-- `MSG_task_receive` on the mailbox a descriptor's stream names. -/
def taskReceive (ref : DescRef) : Result Task := do
  let mailbox ← w.recvMailbox proc (w.fileDesc ref).stream
  match w.mailboxes mailbox with
  | [] => .error .blocked
  | task :: _ => return task

/-- Of a pipe the entry also waits for a task, and then lets the kernel run the call. -/
def syscallReadPre (fd : Int) : Handler := fun t =>
  match w.processDescriptorGetFd proc fd with
  | none => .error .segfault
  | some ref =>
      if w.socketRegistered proc fd ≠ -1 then do
        let _ ← taskReceive w proc ref
        neutralised .processContinue t
      else if (w.fileDesc ref).type = .pipe ∧ (w.fileDesc ref).pipe = none then
        .error .throwImpossible
      else done t

def syscallRead (fd : Int) : Handler := bySide (syscallReadPre w proc fd) done

def syscallRecvmsgPre (fd : Int) : Handler := fun t =>
  match w.processDescriptorGetFd proc fd with
  | none => .error .segfault
  | some ref =>
      if w.socketRegistered proc fd ≠ -1 ∧ w.socketNetlink proc fd = false then do
        let _ ← taskReceive w proc ref
        neutralised .processContinue t
      else done t

def syscallRecvmsg (fd : Int) : Handler := bySide (syscallRecvmsgPre w proc fd) done

/-- The exit of `syscall_accept`, when the kernel ran the call. -/
def syscallAcceptPost (sockfd : Int) : Handler := fun t =>
  match w.processDescriptorGetFd proc sockfd with
  | none => .error .segfault
  | some fileDesc => do
      let _ ← w.msgSemAcquire (w.fileDesc fileDesc).stream .server
      done t

/-- The exit of `syscall_write`; the first read end of a pipe must exist. -/
def syscallWritePost (fd : Int) : Handler := fun t =>
  match w.processDescriptorGetFd proc fd with
  | none => .error .segfault
  | some ref =>
      if (w.fileDesc ref).type = .pipe then
        match (w.fileDesc ref).pipe with
        | none => .error .throwImpossible
        | some pipe => if (w.pipes.cell pipe).readEnd = [] then .error .xbtAssert else done t
      else done t

end

section

variable {H : Type} [DecidableEq H] (w : World H) (proc : Pid)

/-- The flag is put back only when the kernel closed the descriptor. -/
def syscallClose (fd ret : Int) : Handler := fun t =>
  if t.procEntering then done t.procInside
  else if ret = 0 then do
    let _ ← w.processCloseCall proc fd
    done t.procOutside
  else done t

def syscallDup2 (oldfd newfd : Int) : Handler :=
  bySide done fun t => do
    let _ ← w.syscallDup2Post proc oldfd newfd
    done t

def syscallBind (sockfd : Int) (sai : SockaddrIn) : Handler :=
  bySide (fun t => do
    let bound ← w.syscallBindPre proc sockfd sai
    answered bound.2 t) done

/-- `process_connect_in_call` neutralises the calls it gives a result. What the nested
    `process_handle` returns is dropped, and its caller then resumes the tracee just as the
    main loop would. -/
def syscallConnectPre (sockfd : Int) (sai : SockaddrIn) : Handler := fun t => do
  let outcome ← w.processConnectInCall proc sockfd sai
  let t := if outcome.ret.isSome then t.ptraceNeutralizeSyscall else t
  if outcome.waits then
    let _ ← outcome.world.connectStream proc sockfd
    return (t, .nested)
  else done t.procOutside

def syscallConnect (sockfd : Int) (sai : SockaddrIn) : Handler :=
  bySide (syscallConnectPre w proc sockfd sai) fun t => do
    let _ ← w.syscallConnectPost proc sockfd
    done t

/-- The tables are those after the wait for a client. -/
def syscallAccept (sockfd newfd : Int) : Handler :=
  bySide (fun t => do
    let accepted ← w.syscallAccept proc sockfd newfd
    answered accepted.2 t) (syscallAcceptPost w proc sockfd)

/-- What `write`, `sendto` and `sendmsg` do with a socket at their entry. -/
def sendPre (fd : Int) (data beyond : List UInt8) : Handler := fun t => do
  let sent ← w.processSendCall proc fd data beyond
  if sent.2 then neutralised .processTaskFound t else done t

def syscallSendto (fd : Int) (data beyond : List UInt8) : Handler :=
  bySide (sendPre w proc fd data beyond) done

def syscallSendmsg (fd : Int) (data beyond : List UInt8) : Handler :=
  bySide (sendPre w proc fd data beyond) done

def syscallWrite (fd : Int) (data beyond : List UInt8) : Handler :=
  bySide (fun t =>
    if w.socketRegistered proc fd ≠ -1 then sendPre w proc fd data beyond t else done t)
    (syscallWritePost w proc fd)

def syscallRecvfrom (fd : Int) (lenBuf : Nat) (addrlen : Option Nat) : Handler :=
  bySide (fun t => do
    let taken ← w.syscallRecvfromPre proc fd lenBuf addrlen
    answered taken.2 t) fun t => do
      if w.socketNetwork proc fd then World.sysTranslateRecvfromOut addrlen
      done t

/-- The `switch` of `process_handle`, with the result register. -/
def dispatch (ret : Int) : Syscall → Handler
  | .creat => syscallCreat
  | .openFile => syscallOpen
  | .close fd => syscallClose w proc fd ret
  | .read fd => syscallRead w proc fd
  | .write fd data beyond => syscallWrite w proc fd data beyond
  | .dup oldfd => syscallDup w proc oldfd ret
  | .dup2 oldfd newfd => syscallDup2 w proc oldfd newfd
  | .fcntl => syscallFcntl ret
  | .lseek fd => syscallLseek w proc fd ret
  | .poll fd => syscallPoll fd
  | .select => syscallSelect
  -- the case of `SYS_pipe` has no `break`
  | .pipe => fun t => do
      let (t, _) ← syscallPipe t
      syscallBrk t
  | .brk => syscallBrk
  | .socket domain type protocol => syscallSocket w proc domain type protocol ret
  | .connect sockfd sai => syscallConnect w proc sockfd sai
  | .bind sockfd sai => syscallBind w proc sockfd sai
  | .listen sockfd => syscallListen w proc sockfd
  | .accept sockfd newfd => syscallAccept w proc sockfd newfd
  | .sendto fd data beyond => syscallSendto w proc fd data beyond
  | .recvfrom fd lenBuf addrlen => syscallRecvfrom w proc fd lenBuf addrlen
  | .sendmsg fd data beyond => syscallSendmsg w proc fd data beyond
  | .recvmsg fd => syscallRecvmsg w proc fd
  | .shutdown => syscallShutdown
  | .getpeername sockfd => syscallGetpeername w proc sockfd
  | .getsockopt => syscallGetsockopt
  | .setsockopt => syscallSetsockopt
  | .clone => syscallClone
  | .execve => syscallExecve
  | .exit | .exitGroup => syscallExit
  | .getpid => syscallGetpid
  | .tuxcall => syscallTuxcall
  | .other _ => syscallDefault

end

end Tracee

/-- The moment of a dispatch: the tracee, and the call in its registers. -/
structure Moment where
  call : Syscall
  tracee : Tracee
  possible : tracee.stop.possible call = true

/-- Where a resumed tracee stops. -/
inductive Motion where
  | event (e : PtraceEvent)
  | exit
  | entry (call : Syscall)

/-- One round of the loop of `process_handle`: the tables and the result register it
    finds, and how far the tracee runs afterwards. A nested `process_handle` does not
    resume it. -/
structure Round (H : Type) where
  world : World H
  ret : Int
  motion : Option Motion

namespace Moment

/-- The first stop of a tracee is the entry of a call; its descriptor is new. -/
def start (call : Syscall) : Moment := ⟨call, ⟨.entry, false⟩, rfl⟩

/-- A dispatch of `call` with this tracee. -/
def arrive (call : Syscall) (t : Tracee) : Option Moment :=
  if possible : t.stop.possible call = true then some ⟨call, t, possible⟩ else none

/-- `ptrace_resume_process` and `waitpid` -/
def resume (call : Syscall) (t : Tracee) : Motion → Option Moment
  | .event e => if t.stop = .entry then arrive call { t with stop := .event e } else none
  | .exit => if t.stop = .exit then none else arrive call { t with stop := .exit }
  | .entry next => if t.stop = .exit then arrive next { t with stop := .entry } else none

/-- The next dispatch after a handler returned. -/
def after (call : Syscall) : Tracee × Returned → Option Motion → Option Moment
  | (t, .processContinue), some motion | (t, .processTaskFound), some motion => resume call t motion
  | (t, .nested), none => arrive call t
  | _, _ => none

variable {H : Type} [DecidableEq H] (proc : Pid)

def round (m : Moment) (r : Round H) : Option Moment := do
  let outcome ← (m.tracee.dispatch r.world proc r.ret m.call).toOption
  after m.call outcome r.motion

/-- One labelled round. -/
def Step (m : Moment) (r : Round H) (m' : Moment) : Prop := m.round proc r = some m'

end Moment

end Simterpose
