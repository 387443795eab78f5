import Simterpose.Builds
import Simterpose.Polling
import Simterpose.Registers
import Simterpose.Vectors

/-! # What the application makes of full mediation

Under full mediation a network call of the tracee is replaced by `tuxcall`, which the kernel
refuses, and when the kernel is done the registers are set as if the call had been made and had
the result that the tables give. The application is meant not to notice. Here the loop of
`process_handle` is followed at the level of `ptrace`, with the registers and the memory of the
tracee, and compared with a machine that has no tracer: its kernel answers the network calls
from the tables, in one step each, and executes all others.

Every dispatch finds the tables as the other processes left them, and the memory of the tracee
with the pages that are mapped then. The handlers copy more of that memory than an answer takes.
The mailboxes of pipes are not among the tables, and the operations on the semaphores of a
connection are those of `Simterpose.Handshake`.
-/

namespace Simterpose

open Lib

/-! ## Calls by their number -/

/-- The calls that full mediation answers. -/
inductive NetCall where
  | read | write | connect | accept | sendto | recvfrom | sendmsg | recvmsg | shutdown | bind | listen
  | setsockopt | getsockopt
  deriving Repr, DecidableEq

def NetCall.number : NetCall → UInt64
  | .read => 0
  | .write => 1
  | .connect => 42
  | .accept => sysAccept
  | .sendto => 44
  | .recvfrom => 45
  | .sendmsg => 46
  | .recvmsg => 47
  | .shutdown => 48
  | .bind => 49
  | .listen => 50
  | .setsockopt => 54
  | .getsockopt => 55

def NetCall.all : List NetCall :=
  [.read, .write, .connect, .accept, .sendto, .recvfrom, .sendmsg, .recvmsg, .shutdown, .bind, .listen,
    .setsockopt, .getsockopt]

/-- The calls whose handler changes the tables at the exit. -/
inductive DescCall where
  | openFile | close | dup | dup2 | socket | creat
  deriving Repr, DecidableEq

/-- The calls that are followed here, as the `switch` of `process_handle` tells them apart. -/
inductive Call where
  | net (call : NetCall)
  | poll
  | file (call : DescCall)
  | tuxcall
  /-- a call without a handler, or with one that does nothing but print -/
  | other
  deriving Repr, DecidableEq

def sysPoll : UInt64 := 7

/-- The other numbers with a handler: `lseek`, `pipe`, `select`, `getpeername`, `clone`, `execve`,
    `exit`, `fcntl` and `exit_group`. -/
def notFollowed : List UInt64 := [8, 22, 23, 52, 56, 59, 60, 72, 231]

/-- The call in the registers. -/
def UserRegs.call (regs : UserRegs) : Option Call :=
  match NetCall.all.find? (·.number = regs.origRax) with
  | some call => some (.net call)
  | none =>
      if regs.origRax = sysPoll then some .poll
      else if regs.origRax = 2 then some (.file .openFile)
      else if regs.origRax = 3 then some (.file .close)
      else if regs.origRax = 32 then some (.file .dup)
      else if regs.origRax = 33 then some (.file .dup2)
      else if regs.origRax = sysSocket then some (.file .socket)
      else if regs.origRax = 85 then some (.file .creat)
      else if regs.origRax = sysTuxcall then some .tuxcall
      else if regs.origRax ∈ notFollowed then none
      else some .other

theorem UserRegs.origRax_of_net {regs : UserRegs} {call : NetCall} (known : regs.call = some (.net call)) :
    regs.origRax = call.number := by
  unfold UserRegs.call at known
  split at known
  · rename_i found
    cases known
    exact (by simpa using List.find?_some found : call.number = regs.origRax).symm
  · repeat' split at known
    all_goals cases known

theorem UserRegs.origRax_of_poll {regs : UserRegs} (known : regs.call = some .poll) :
    regs.origRax = sysPoll := by
  unfold UserRegs.call at known
  split at known
  · cases known
  · split at known
    · assumption
    · repeat' split at known
      all_goals cases known

/-- The first argument, as a descriptor. -/
def UserRegs.fd (regs : UserRegs) : Int := toCInt regs.rdi.toNat

/-- A call that changes the tables, with its arguments. -/
def UserRegs.fdCall (regs : UserRegs) (mem : PartialMemory) : DescCall → FdCall
  | .openFile => .openFile ⟨mem, regs.rdi.toNat⟩ regs.rsi.toUInt32.toNat regs.rdx.toUInt32.toNat
  | .close => .close regs.fd
  | .dup => .dup regs.fd
  | .dup2 => .dup2 regs.fd (toCInt regs.rsi.toNat)
  | .socket => .socket regs.fd (toCInt regs.rsi.toNat) (toCInt regs.rdx.toNat)
  | .creat => .creat ⟨mem, regs.rdi.toNat⟩ regs.rsi.toUInt32.toNat

/-! ## A machine whose kernel knows the tables -/

/-- What a call finds beside the registers and the memory of its caller. -/
structure Found (H : Type) where
  world : World H
  /-- the addresses that are mapped in the caller -/
  mapped : Nat → Bool
  /-- what is on the stack of the handler where it keeps an address -/
  stack : List UInt8
  stackSize : stack.length = sizeofSockaddrIn
  /-- what the simulator has at the address of the caller's buffer -/
  elsewhere : List UInt8
  /-- what the simulator has behind its copy of a message -/
  beyond : List UInt8
  /-- how the wait of a poll ends -/
  err : MsgError
  /-- `MSG_get_clock`, as the bytes of a `double` -/
  clock : List UInt8
  clockSize : clock.length = 8

/-- What the application does from the return of a call to the next call. -/
structure UserCode where
  run : UserRegs → Memory → UserRegs × Memory
  calls : ∀ regs mem, (run regs mem).2.read (run regs mem).1.rip.toNat 2 = syscallInstruction

/-- `SO_REUSEADDR` -/
def soReuseaddr : Int := 2

/-- `sizeof(struct sockaddr_un)`, `sizeof(struct sockaddr_nl)`, `sizeof(socklen_t)` and `sizeof(int)` -/
def sizeofSockaddrUn : Nat := 110
def sizeofSockaddrNl : Nat := 12
def sizeofSocklen : Nat := 4
def sizeofInt : Nat := 4

/-- How much the handlers copy of an address: a `struct sockaddr_in`, `sockaddr_un` or `sockaddr_nl`,
    and nothing for a socket of another domain. -/
def addressSize (domain : Int) : Nat :=
  if domain = 2 then sizeofSockaddrIn
  else if domain = 1 then sizeofSockaddrUn
  else if domain = 16 then sizeofSockaddrNl
  else 0

theorem addressSize_lt (domain : Int) : addressSize domain < 0x80000000 := by
  unfold addressSize
  split_ifs <;> decide

/-- The `struct sockaddr_in` that `comm_accept_connect` fills in. -/
def SockaddrIn.bytes (sai : SockaddrIn) : List UInt8 := sai.toBytes ([2, 0] ++ List.replicate 14 0)

namespace PollFd

/-- `sizeof(struct pollfd)` -/
def size : Nat := 8

def ofBytes (bytes : List UInt8) : PollFd where
  fd := toCInt (littleEndian (bytes.take 4))
  events := UInt16.ofNat (littleEndian ((bytes.drop 4).take 2))
  revents := UInt16.ofNat (littleEndian ((bytes.drop 6).take 2))

def toBytes (p : PollFd) : List UInt8 :=
  toLittleEndian 4 (p.fd % 0x100000000).toNat ++ toLittleEndian 2 p.events.toNat ++
    toLittleEndian 2 p.revents.toNat

end PollFd

namespace Found

section

variable {H : Type} (f : Found H) (mem : Memory)

/-- What `ptrace` gets at of the memory of the caller. -/
def view : PartialMemory := fun a => if f.mapped a then some (mem a) else none

/-- `ptrace_cpy` -/
def copy (src : Nat) (syscall : String) (length : Nat) : Result (List UInt8) :=
  peekBytes (f.view mem) src syscall length

/-- `ptrace_poke`: the memory of the caller afterwards. -/
def store (dst : Nat) (src : List UInt8) (len : Nat) : Result Memory :=
  (pokeBytes (f.view mem) dst src len).map fun stored a => (stored a).getD (mem a)

/-- What is stored in mapped memory is what a write makes of all of it. -/
theorem store_of_mapped {f : Found H} {mem : Memory} {dst len : Nat} {src : List UInt8}
    (mapped : (f.view mem).Mapped dst (wholeWords len)) (words : wholeWords len = len)
    (exactly : src.length = len) : f.store mem dst src len = .ok (mem.write dst src) := by
  have poked : pokeBytes (f.view mem) dst src len = .ok ((f.view mem).write dst src) := by
    rw [pokeBytes_eq, if_pos mapped, words, if_pos (Nat.le_of_eq exactly.symm), ← exactly,
      List.take_length]
  rw [store, poked]
  apply congrArg Except.ok
  funext a
  have unmapped : (f.view mem a).getD (mem a) = mem a := by
    unfold view
    split <;> rfl
  simp only [PartialMemory.write, Memory.write]
  split
  · cases src[a - dst]? with
    | none => exact unmapped
    | some b => rfl
  · exact unmapped

/-- The header and the entries of `recvmsg`: its handlers add up the lengths before anything else. -/
def copyMsghdr (src : Nat) : Result Msghdr := do
  let msg := Msghdr.ofBytes (← f.copy mem src "recvmsg" sizeofMsghdr)
  let _ ← (List.range msg.iovlen).mapM fun i => f.copy mem (entryAddress msg.iov i) "recvmsg" sizeofIovec
  return msg

end

variable {H : Type} [DecidableEq H] (f : Found H) (proc : Pid) (regs : UserRegs) (mem : Memory)

/-- The address that `bind` and `connect` are called with. -/
def sai (syscall : String) : Result SockaddrIn := do
  let domain := f.world.getDomainSocket proc regs.fd
  let bytes ← f.copy mem regs.rsi.toNat syscall (addressSize domain)
  return .ofBytes (if domain = 2 then bytes else f.stack)

/-- What `write` is called with: of a socket that is not one of the network it takes the bytes that
    the simulator itself has at the address. -/
def writeData : Result (List UInt8) :=
  if f.world.socketRegistered proc regs.fd ≠ 0 ∧ f.world.socketNetwork proc regs.fd then
    f.copy mem regs.rsi.toNat "write" regs.rdx.toNat
  else .ok f.elsewhere

/-- `syscall_write` at the entrance; it returns the result register as it was then. -/
def write : Result (World H × Option (Task × Int)) := do
  let data ← f.writeData proc regs mem
  if f.world.socketRegistered proc regs.fd ≠ -1 then
    let (w, sent) ← f.world.processSendCallWith proc regs.fd data f.beyond regs.rdx.toNat
    return (w, sent.map fun task => (task, toSsize regs.rax.toNat))
  else return (f.world, none)

/-- `syscall_sendto_pre` from the copy of the data on. -/
def sendto : Result (World H × Option (Task × Int)) := do
  let data ← f.copy mem regs.rsi.toNat "sendto" regs.rdx.toNat
  let (w, sent) ← f.world.processSendCallWith proc regs.fd data f.beyond regs.rdx.toNat
  return (w, sent.map fun task => (task, toCInt regs.rdx.toNat))

/-- `process_read_out_call` -/
def readOut (task : Task) : Result (Memory × Int) := do
  let ret := toCInt regs.rax.toNat
  if ret > 0 then
    return (← f.store mem regs.rsi.toNat (task.data ++ task.beyond) ret.toNat, ret)
  else return (mem, ret)

/-- For a `recvfrom` that asks for the address a translation is looked up. -/
def translateRecvfrom : Result Unit :=
  if regs.r8 ≠ 0 ∧ f.world.socketRegistered proc regs.fd ≠ -1 ∧ f.world.socketNetwork proc regs.fd then do
    -- as many bytes as a pointer has
    let _ ← f.copy mem regs.r8.toNat "recvfrom" 8
    let lenBuf ← f.copy mem regs.r9.toNat "recvfrom" sizeofSocklen
    World.sysTranslateRecvfromOut (some (littleEndian lenBuf))
  else .ok ()

/-- `process_recvfrom_out_call` -/
def recvfromOut (task : Task) : Result (Memory × Int) := do
  f.translateRecvfrom proc regs mem
  match strlen (task.data ++ task.beyond) with
  | none => .error .segfault
  | some len =>
      let ret := if regs.rdx.toNat ≥ len + 1 then len + 1 else regs.rdx.toNat
      return (← f.store mem regs.rsi.toNat (task.data ++ task.beyond) ret, ret)

/-- `sys_build_recvmsg` -/
def recvmsgOut (msg : Msghdr) (task : Task) : Result (Memory × Int) := do
  let (stored, bytesRead) ← sysBuildRecvmsg (f.view mem) (task.data ++ task.beyond) msg
  return (fun a => (stored a).getD (mem a), bytesRead)

/-- What the three receiving calls have in common: on a socket that is not left to the kernel the
    oldest task is taken, and `out` stores it. -/
def receive (mediated : Prop) [Decidable mediated] (out : Task → Result (Memory × Int)) :
    Result (World H × Option (Memory × Int)) :=
  match f.world.processDescriptorGetFd proc regs.fd with
  | none => .error .segfault
  | some ref => if mediated then f.world.receiveInto proc ref out else .ok (f.world, none)

/-- `recvfrom` and `recvmsg` are answered. -/
def Receives : Prop :=
  f.world.socketRegistered proc regs.fd ≠ -1 ∧ f.world.socketNetlink proc regs.fd = false

instance : Decidable (f.Receives proc regs) := inferInstanceAs (Decidable (_ ∧ _))

/-- What the tables answer to a call: the memory of the caller afterwards and the value it gets, or
    nothing if the call is for the kernel. What is still to do for `connect` and `accept` is said
    where they are used. -/
def reply : NetCall → Result (World H × Option (Memory × Int))
  | .read => f.receive proc regs (f.world.socketRegistered proc regs.fd ≠ -1) (f.readOut regs mem)
  | .write => (f.write proc regs mem).map fun r => (r.1, r.2.map fun sent => (mem, sent.2))
  | .connect => do
      let outcome ← f.world.processConnectInCall proc regs.fd (← f.sai proc regs mem "connect")
      return (outcome.world, outcome.ret.map fun ret => (mem, ret))
  | .accept => .ok (f.world, none)
  | .sendto => (f.sendto proc regs mem).map fun r => (r.1, r.2.map fun sent => (mem, sent.2))
  | .recvfrom => f.receive proc regs (f.Receives proc regs) (f.recvfromOut proc regs mem)
  | .sendmsg =>
      (f.world.syscallSendmsg proc regs.fd (f.view mem) regs.rsi.toNat regs.rdx.toNat f.beyond).map
        fun r => (r.1, r.2.map fun sent => (mem, sent.2))
  | .recvmsg => do
      let msg ← f.copyMsghdr mem regs.rsi.toNat
      f.receive proc regs (f.Receives proc regs) (f.recvmsgOut mem msg)
  | .shutdown => .ok (f.world, some (mem, 0))
  | .bind => do
      let (w, ret) ← f.world.syscallBindPre proc regs.fd (← f.sai proc regs mem "bind")
      return (w, ret.map fun ret => (mem, ret))
  | .listen => (f.world.processListenCall proc regs.fd).map fun w => (w, some (mem, 0))
  | .setsockopt => do
      if toCInt regs.rdx.toNat = soReuseaddr then
        let optval ← f.copy mem regs.r10.toNat "setsockopt" sizeofInt
        let w := f.world.socketSetOption proc regs.fd sockOptReuseaddr (toCInt (littleEndian optval))
        return (w, some (mem, 0))
      else return (f.world, some (mem, -1))
  | .getsockopt => .ok (f.world, some (mem, 0))

/-- What the handler of a call copies at the entrance with no use for it, and what `accept` stores, is
    mapped. -/
def SpareMapped : NetCall → Prop
  | .accept =>
      (f.view mem).Mapped regs.rsi.toNat (wholeWords (addressSize (f.world.getDomainSocket proc regs.fd))) ∧
      (f.view mem).Mapped regs.rdx.toNat (wholeWords sizeofSocklen) ∧
      (f.view mem).Mapped regs.rsi.toNat (wholeWords sizeofSockaddrIn)
  | .sendto => f.world.getTypeSocket proc regs.fd ∉ [1, 5] → toCInt regs.r8.toNat ≠ 0 →
      (f.view mem).Mapped regs.r8.toNat (wholeWords (addressSize (f.world.getDomainSocket proc regs.fd)))
  | .getsockopt => (f.view mem).Mapped regs.r10.toNat (wholeWords sizeofSocklen)
  | _ => True

/-- The array that a poll is called with; NULL is the address 0. -/
def pollList : Result (Option (List PollFd)) :=
  if regs.rdi = 0 then .ok none
  else do
    let bytes ← f.copy mem regs.rdi.toNat "poll" (regs.rsi.toNat * PollFd.size)
    return some ((List.range regs.rsi.toNat).map fun i =>
      .ofBytes ((bytes.drop (PollFd.size * i)).take PollFd.size))

/-- `syscall_poll_pre`: the value for the caller and its memory with the array in it, if MSG gave an
    answer. -/
def poll : Result (World H × Option (Int × Memory)) := do
  let (w, answer) ←
    f.world.syscallPollPre proc (← f.pollList regs mem) (toCInt regs.rdx.toNat) f.err
  match answer with
  | none => return (w, none)
  | some (ret, fdList) =>
      let mem ← f.store mem regs.rdi.toNat (fdList.flatMap PollFd.toBytes) (regs.rsi.toNat * PollFd.size)
      return (w, some (ret, mem))

/-- `syscall_write` at the exit: of a pipe it looks for the first read end. -/
def writePost : Result (World H) := do
  let _ ← f.writeData proc regs mem
  match f.world.processDescriptorGetFd proc regs.fd with
  | none => .error .segfault
  | some ref =>
      if (f.world.fileDesc ref).type = .pipe then
        match (f.world.fileDesc ref).pipe with
        | none => .error .throwImpossible
        | some pipe => if (f.world.pipes.cell pipe).readEnd = [] then .error .xbtAssert else .ok f.world
      else .ok f.world

/-- `syscall_connect_post` -/
def connectPost : Result (World H) := do
  let _ ← f.copy mem regs.rsi.toNat "connect" (addressSize (f.world.getDomainSocket proc regs.fd))
  f.world.syscallConnectPost proc regs.fd

/-- `syscall_accept` at the exit -/
def acceptPost : Result (World H) :=
  match f.world.processDescriptorGetFd proc regs.fd with
  | none => .error .segfault
  | some fileDesc => f.world.msgSemAcquire (f.world.fileDesc fileDesc).stream .server

/-- `syscall_sendto_post`: an address is copied over the pointers to where it should go, and what was
    sent is sent once more. -/
def sendtoPost : Result (World H) := do
  let data ← f.copy mem regs.rsi.toNat "sendto" regs.rdx.toNat
  if f.world.getTypeSocket proc regs.fd ∉ [1, 5] ∧ f.world.getDomainSocket proc regs.fd ∈ [1, 2, 16] ∧
      toCInt regs.r8.toNat ≠ 0 then .error .outOfBounds
  else if toCInt regs.rax.toNat > 0 then
    let (w, _) ← f.world.processSendCallWith proc regs.fd data f.beyond regs.rdx.toNat
    return w
  else return f.world

/-- `syscall_sendmsg` at the exit -/
def sendmsgPost : Result Unit := do
  let msg := Msghdr.ofBytes (← f.copy mem regs.rsi.toNat "sendmsg" sizeofMsghdr)
  let _ ← syscallSendmsgLoop (f.view mem) msg.iov msg.iovlen 0 []

/-- `syscall_recvfrom_post`, for a call that did not fail. -/
def recvfromPost : Result Unit := do
  let _ ← f.copy mem regs.rsi.toNat "recvfrom" regs.rax.toNat
  f.translateRecvfrom proc regs mem

/-- `syscall_getsockopt_post` -/
def getsockoptPost : Result Unit := do
  let _ ← f.copy mem regs.r10.toNat "setsockopt" regs.r8.toUInt32.toNat

/-- What the handler of a call that was left to the kernel does at its exit, to the tables and to
    the memory of the caller. -/
def leave : Call → Result (World H × Memory)
  | .net .write => (f.writePost proc regs mem).map fun w => (w, mem)
  | .net .connect => (f.connectPost proc regs mem).map fun w => (w, mem)
  | .net .accept => (f.acceptPost proc regs).map fun w => (w, mem)
  | .net .shutdown => .ok (f.world.syscallShutdownPost proc regs.fd, mem)
  | .net .listen => .error .throwImpossible
  | .net .recvfrom => (f.recvfromPost proc regs mem).map fun _ => (f.world, mem)
  | .net .sendto => (f.sendtoPost proc regs mem).map fun w => (w, mem)
  | .net .sendmsg => (f.sendmsgPost regs mem).map fun _ => (f.world, mem)
  | .net .recvmsg => (f.copyMsghdr mem regs.rsi.toNat).map fun _ => (f.world, mem)
  | .net .getsockopt => (f.getsockoptPost regs mem).map fun _ => (f.world, mem)
  | .net .read | .net .bind | .net .setsockopt => .ok (f.world, mem)
  | .poll => (f.pollList regs mem).map fun _ => (f.world, mem)
  | .file call =>
      (f.world.handleExit proc (toCInt regs.rax.toNat) (regs.fdCall (f.view mem) call)).map
        fun w => (w, mem)
  | .tuxcall => (f.store mem regs.rsi.toNat f.clock 8).map fun mem => (f.world, mem)
  | .other => .ok (f.world, mem)

end Found

/-- The application without a tracer, as it enters a call. -/
structure Guest (K : Type) where
  regs : UserRegs
  mem : Memory
  kernel : K
  /-- what a kernel without the tables executes meanwhile -/
  executed : List UInt64

namespace Guest

variable {K : Type} (user : UserCode) (kernel : Kernel K) (g : Guest K)

/-- A call has returned; the application runs on and enters the next one. -/
def enter : Guest K :=
  let (regs, mem) := user.run g.regs g.mem
  { g with
    regs := { regs with origRax := regs.rax, rax := UInt64.ofInt (-enosys), rip := regs.rip + 2 }
    mem := mem }

/-- The kernel executes the call. -/
def execute : Guest K :=
  let done := kernel g.regs.origRax g.regs g.kernel g.mem
  { regs := g.regs.setRax done.result, mem := done.mem, kernel := done.kernel
    executed := g.executed ++ [g.regs.origRax] }

/-- The call returns what the tables answered. -/
def answer (mem : Memory) (ret : Int) : Guest K :=
  { g with
    regs := g.regs.setRax (UInt64.ofInt ret), mem := mem, executed := g.executed ++ [sysTuxcall] }

/-- The kernel makes a socket of `AF_INET` and `SOCK_STREAM`, whose number is the descriptor of the
    connection that is accepted. -/
def newSocket : Guest K × Int :=
  let made := kernel sysSocket { g.regs with origRax := sysSocket, rdi := 2, rsi := 1, rdx := 0 } g.kernel g.mem
  ({ g with kernel := made.kernel, executed := g.executed ++ [sysSocket] }, toCInt made.result.toNat)

variable {H : Type} [DecidableEq H] (proc : Pid) (f₁ f₂ : Found H)

/-- A call for the kernel; `w` is what its entry left of the tables. -/
def left (call : Call) (w : World H) : Result (List (World H) × Guest K) := do
  let g := g.execute kernel
  let (w', mem) ← f₂.leave proc g.regs g.mem call
  return ([w, w'], ({ g with mem := mem } : Guest K).enter user)

/-- One call of the application. The tables are looked at when it is entered, and in some cases a
    second time; the result has what each look left of them. -/
def serve : Result (List (World H) × Guest K) :=
  match g.regs.call with
  | none => .error .endless
  | some (.net .accept) => do
      if ← f₁.world.commHasConnectWaiting (f₁.world.getInfosSocket proc g.regs.fd) then
        let (g', newFd) := g.newSocket kernel
        let (w, sai) ← f₁.world.syscallAccept proc g.regs.fd newFd
        let stored := (sai.map fun sai => g.mem.write g.regs.rsi.toNat sai.bytes).getD g.mem
        return ([w], (g'.answer stored newFd).enter user)
      else g.left user kernel proc f₂ (.net .accept) f₁.world
  | some (.net .connect) => do
      let outcome ← f₁.world.processConnectInCall proc g.regs.fd (← f₁.sai proc g.regs g.mem "connect")
      match outcome.ret with
      | none => g.left user kernel proc f₂ (.net .connect) outcome.world
      | some ret =>
          if outcome.waits then
            let (w, _) ← outcome.world.connectStream proc g.regs.fd
            let w' ← f₂.connectPost proc g.regs g.mem
            return ([w, w'], (g.answer g.mem ret).enter user)
          else return ([outcome.world], (g.answer g.mem ret).enter user)
  | some (.net call) => do
      let (w, answer) ← f₁.reply proc g.regs g.mem call
      match answer with
      | some (mem, ret) => return ([w], (g.answer mem ret).enter user)
      | none => g.left user kernel proc f₂ (.net call) w
  | some .poll => do
      -- what the tables answer is stored, but the value returned is that of the kernel
      let (w, answer) ← f₁.poll proc g.regs g.mem
      let g := match answer with
        | some (ret, mem) => { g with regs := g.regs.setRax (UInt64.ofInt ret), mem := mem }
        | none => g
      g.left user kernel proc f₂ .poll w
  | some call => g.left user kernel proc f₂ call f₁.world

/-- Calls one after another. -/
def serveAll : List (Found H × Found H) → Guest K → Result (List (World H) × Guest K)
  | [], g => .ok ([], g)
  | (f₁, f₂) :: fs, g => do
      let (ws, g) ← g.serve user kernel proc f₁ f₂
      let (ws', g) ← serveAll fs g
      return (ws ++ ws', g)

end Guest

/-! ## The loop of process_handle -/

/-- `ptrace` stores in the memory of a tracee. -/
def Ptraced.setMem {K : Type} (t : Ptraced K) (mem : Memory) : Ptraced K := { t with mem := mem }

/-- A tracee that stops never again ends the run. -/
def followed {α : Type} : Option α → Result α
  | some a => .ok a
  | none => .error .endless

/-- A stopped tracee, with the flag of its descriptor. -/
structure Interposed (K : Type) where
  tracee : Ptraced K
  inSyscall : Bool

namespace Interposed

section

variable {K : Type} (kernel : Kernel K) (t : Ptraced K)

/-- `ptrace_neutralize_syscall` and `ptrace_restore_syscall` -/
def answered (nr : UInt64) (ret : Int) : Result (Ptraced K) := do
  let t ← followed (t.ptraceNeutralizeSyscall kernel)
  return t.ptraceRestoreSyscall nr (UInt64.ofInt ret)

variable {H : Type} (w : World H)

/-- The call is left to the kernel. -/
def goesOn : World H × Interposed K × Returned := (w, ⟨t, true⟩, .processContinue)

/-- The call was answered, and the flag lowered. -/
def outside (returned : Returned) : World H × Interposed K × Returned := (w, ⟨t, false⟩, returned)

end

section

variable {K : Type} {H : Type} [DecidableEq H] (kernel : Kernel K) (proc : Pid) (f : Found H)
  (t : Ptraced K)

def syscallBindPre : Result (World H × Interposed K × Returned) := do
  let (w, ret) ← f.world.syscallBindPre proc t.regs.fd (← f.sai proc t.regs t.mem "bind")
  match ret with
  | some ret => return outside (← answered kernel t NetCall.bind.number ret) w .processContinue
  | none => return goesOn t w

def syscallListen : Result (World H × Interposed K × Returned) := do
  let w ← f.world.processListenCall proc t.regs.fd
  return outside (← answered kernel t NetCall.listen.number 0) w .processContinue

/-- `syscall_connect_pre`; `process_connect_in_call` has neutralised the calls it gives a result. A
    call that waits for the server is dispatched again, by a `process_handle` of its own. -/
def syscallConnectPre : Result (World H × Interposed K × Returned) := do
  let outcome ← f.world.processConnectInCall proc t.regs.fd (← f.sai proc t.regs t.mem "connect")
  let t' ← match outcome.ret with
    | some ret => answered kernel t NetCall.connect.number ret
    | none => pure t
  if outcome.waits then
    let (w, _) ← outcome.world.connectStream proc t.regs.fd
    return (w, ⟨t', true⟩, .nested)
  else return outside t' outcome.world .processContinue

/-- `syscall_accept` at the entrance, with the tables after the wait for a client. The copies that
    it makes first are not used. -/
def syscallAcceptPre : Result (World H × Interposed K × Returned) := do
  let domain := f.world.getDomainSocket proc t.regs.fd
  let _ ← f.copy t.mem t.regs.rsi.toNat "accept" (addressSize domain)
  let _ ← f.copy t.mem t.regs.rdx.toNat "accept" sizeofSocklen
  if ← f.world.commHasConnectWaiting (f.world.getInfosSocket proc t.regs.fd) then
    let (t', newFd) ← followed (t.rebuildAccept kernel)
    let (w, sai) ← f.world.syscallAccept proc t.regs.fd newFd
    match sai with
    | some sai =>
        let mem ← f.store t'.mem t.regs.rsi.toNat sai.bytes sizeofSockaddrIn
        return outside (t'.setMem mem) w .processContinue
    | none => return outside t' w .processContinue
  else return goesOn t f.world

def syscallShutdownPre : Result (World H × Interposed K × Returned) := do
  return outside (← answered kernel t NetCall.shutdown.number 0) f.world .processContinue

/-- The value of the option is not given to the tracee, only copied from there. -/
def syscallGetsockoptPre : Result (World H × Interposed K × Returned) := do
  let _ ← f.copy t.mem t.regs.r10.toNat "getsockopt" sizeofSocklen
  return outside (← answered kernel t NetCall.getsockopt.number 0) f.world .processContinue

def syscallSetsockoptPre : Result (World H × Interposed K × Returned) := do
  if toCInt t.regs.rdx.toNat = soReuseaddr then
    let optval ← f.copy t.mem t.regs.r10.toNat "setsockopt" sizeofInt
    let w := f.world.socketSetOption proc t.regs.fd sockOptReuseaddr (toCInt (littleEndian optval))
    return outside (← answered kernel t NetCall.setsockopt.number 0) w .processContinue
  else return outside (← answered kernel t NetCall.setsockopt.number (-1)) f.world .processContinue

/-- What the three sending calls have in common: a task was sent, and the tracee gets `ret`. -/
def sending (nr : UInt64) (sent : Result (World H × Option (Task × Int))) :
    Result (World H × Interposed K × Returned) := do
  let (w, sent) ← sent
  match sent with
  | some (_, ret) => return outside (← answered kernel t nr ret) w .processTaskFound
  | none => return goesOn t w

/-- An address is copied too, but nothing is done with it. -/
def syscallSendtoPre : Result (World H × Interposed K × Returned) := do
  if f.world.getTypeSocket proc t.regs.fd ∉ [1, 5] ∧ toCInt t.regs.r8.toNat ≠ 0 then
    let domain := f.world.getDomainSocket proc t.regs.fd
    let _ ← f.copy t.mem t.regs.r8.toNat "sendto" (addressSize domain)
  sending kernel t NetCall.sendto.number (f.sendto proc t.regs t.mem)

def syscallWritePre : Result (World H × Interposed K × Returned) :=
  sending kernel t NetCall.write.number (f.write proc t.regs t.mem)

def syscallSendmsgPre : Result (World H × Interposed K × Returned) :=
  sending kernel t NetCall.sendmsg.number
    (f.world.syscallSendmsg proc t.regs.fd (f.view t.mem) t.regs.rsi.toNat t.regs.rdx.toNat f.beyond)

/-- What the three receiving calls have in common: the oldest task is taken, the call neutralised,
    and `out` stores the message and restores the registers. -/
def receiving (mediated : Prop) [Decidable mediated] (out : Ptraced K → Task → Result (Ptraced K)) :
    Result (World H × Interposed K × Returned) :=
  match f.world.processDescriptorGetFd proc t.regs.fd with
  | none => .error .segfault
  | some ref =>
      if mediated then do
        let mailbox ← f.world.recvMailbox proc (f.world.fileDesc ref).stream
        match f.world.mailboxes mailbox with
        | [] => .error .blocked
        | task :: rest =>
            let t ← followed (t.ptraceNeutralizeSyscall kernel)
            let t ← out t task
            return outside t { f.world with mailboxes := Function.update f.world.mailboxes mailbox rest }
              .processContinue
      else .ok (goesOn t f.world)

/-- `process_read_out_call`, with the registers as they were at the dispatch. -/
def processReadOutCall (reg : UserRegs) (t : Ptraced K) (task : Task) : Result (Ptraced K) := do
  let ret := toCInt reg.rax.toNat
  let t := t.ptraceRestoreSyscall NetCall.read.number (UInt64.ofInt ret)
  if ret > 0 then
    let mem ← f.store t.mem reg.rsi.toNat (task.data ++ task.beyond) ret.toNat
    return t.setMem mem
  else return t

/-- `process_recvfrom_out_call` -/
def processRecvfromOutCall (reg : UserRegs) (t : Ptraced K) (task : Task) : Result (Ptraced K) := do
  f.translateRecvfrom proc reg t.mem
  match strlen (task.data ++ task.beyond) with
  | none => .error .segfault
  | some len =>
      let ret := if reg.rdx.toNat ≥ len + 1 then len + 1 else reg.rdx.toNat
      let mem ← f.store t.mem reg.rsi.toNat (task.data ++ task.beyond) ret
      return (t.setMem mem).ptraceRestoreSyscall NetCall.recvfrom.number (UInt64.ofInt ret)

/-- `sys_build_recvmsg` -/
def buildRecvmsg (msg : Msghdr) (t : Ptraced K) (task : Task) : Result (Ptraced K) := do
  let (stored, bytesRead) ← sysBuildRecvmsg (f.view t.mem) (task.data ++ task.beyond) msg
  let t := t.setMem fun a => (stored a).getD (t.mem a)
  return t.ptraceRestoreSyscall NetCall.recvmsg.number (UInt64.ofInt bytesRead)

def syscallReadPre : Result (World H × Interposed K × Returned) :=
  receiving kernel proc f t (f.world.socketRegistered proc t.regs.fd ≠ -1) (processReadOutCall f t.regs)

def syscallRecvfromPre : Result (World H × Interposed K × Returned) :=
  receiving kernel proc f t (f.Receives proc t.regs) (processRecvfromOutCall proc f t.regs)

def syscallRecvmsgPre : Result (World H × Interposed K × Returned) := do
  let msg ← f.copyMsghdr t.mem t.regs.rsi.toNat
  receiving kernel proc f t (f.Receives proc t.regs) (buildRecvmsg f msg)

/-- `syscall_poll_pre`: the registers are restored while the call is still to be made. -/
def syscallPollPre : Result (World H × Interposed K × Returned) := do
  let (w, answer) ←
    f.world.syscallPollPre proc (← f.pollList t.regs t.mem) (toCInt t.regs.rdx.toNat) f.err
  match answer with
  | some (ret, fdList) =>
      let t' := t.ptraceRestoreSyscall sysPoll (UInt64.ofInt ret)
      let mem ← f.store t'.mem t.regs.rdi.toNat (fdList.flatMap PollFd.toBytes)
        (t.regs.rsi.toNat * PollFd.size)
      return goesOn (t'.setMem mem) w
  | none => return goesOn t w

/-- The handler of a call at its entrance. -/
def pre : Call → Result (World H × Interposed K × Returned)
  | .net .read => syscallReadPre kernel proc f t
  | .net .write => syscallWritePre kernel proc f t
  | .net .connect => syscallConnectPre kernel proc f t
  | .net .accept => syscallAcceptPre kernel proc f t
  | .net .sendto => syscallSendtoPre kernel proc f t
  | .net .recvfrom => syscallRecvfromPre kernel proc f t
  | .net .sendmsg => syscallSendmsgPre kernel proc f t
  | .net .recvmsg => syscallRecvmsgPre kernel proc f t
  | .net .shutdown => syscallShutdownPre kernel f t
  | .net .bind => syscallBindPre kernel proc f t
  | .net .listen => syscallListen kernel proc f t
  | .net .setsockopt => syscallSetsockoptPre kernel proc f t
  | .net .getsockopt => syscallGetsockoptPre kernel f t
  | .poll => syscallPollPre proc f t
  | .file _ | .tuxcall | .other => .ok (goesOn t f.world)

/-- Whether the handler of a call lowers the flag at the exit: `close` only if the kernel did close
    the descriptor. -/
def lowers (regs : UserRegs) : Call → Bool
  | .file .close => toCInt regs.rax.toNat = 0
  | _ => true

/-- The handler of a call at its exit. -/
def post (call : Call) : Result (World H × Interposed K × Returned) := do
  let (w, mem) ← f.leave proc t.regs t.mem call
  return (w, ⟨t.setMem mem, !lowers t.regs call⟩, .processContinue)

/-- The `switch` of `process_handle`, by the flag and the number in the registers. -/
def dispatch (i : Interposed K) : Result (World H × Interposed K × Returned) :=
  match i.tracee.regs.call with
  | none => .error .endless
  | some call => if i.inSyscall then post proc f i.tracee call else pre kernel proc f i.tracee call

end

section

variable {K : Type} (user : UserCode) (kernel : Kernel K)

/-- `ptrace_resume_process` and `waitpid`. From the exit of a call the application runs to the next
    one. -/
def proceed (t : Ptraced K) : Result (Ptraced K) :=
  match t.stop with
  | .exit =>
      let (regs, mem) := user.run t.regs t.mem
      followed (({ t with regs := regs, mem := mem } : Ptraced K).resume kernel)
  | _ => followed (t.resume kernel)

variable {H : Type} [DecidableEq H] (proc : Pid)

/-- One round of `process_handle`. The runner that a sent task is reported to resumes the tracee just
    as the loop would. -/
def round (f : Found H) (i : Interposed K) : Result (World H × Interposed K) := do
  let (w, i, returned) ← i.dispatch kernel proc f
  if returned = .nested then return (w, i)
  else return (w, ⟨← proceed user kernel i.tracee, i.inSyscall⟩)

/-- The rounds of one call. -/
def serve (f₁ f₂ : Found H) (i : Interposed K) : Result (List (World H) × Interposed K) := do
  let (w, i) ← i.round user kernel proc f₁
  if i.tracee.stop = .entry then return ([w], i)
  else
    let (w', i) ← i.round user kernel proc f₂
    return ([w, w'], i)

/-- Calls one after another. -/
def serveAll : List (Found H × Found H) → Interposed K → Result (List (World H) × Interposed K)
  | [], i => .ok ([], i)
  | (f₁, f₂) :: fs, i => do
      let (ws, i) ← i.serve user kernel proc f₁ f₂
      let (ws', i) ← serveAll fs i
      return (ws ++ ws', i)

end

end Interposed

/-! ## The two run in step -/

namespace Guest

variable {K : Type} (g : Guest K)

/-- The application as a tracee. -/
def traced (stop : Stop) : Ptraced K := ⟨g.regs, g.mem, stop, g.kernel, g.executed⟩

@[simp] theorem regs_traced (stop : Stop) : (g.traced stop).regs = g.regs := rfl

@[simp] theorem mem_traced (stop : Stop) : (g.traced stop).mem = g.mem := rfl

/-- The application when `tuxcall` was executed in place of its call. -/
def refused (rax : UInt64) : Guest K :=
  { g with
    regs := { g.regs with origRax := sysTuxcall, rax := rax }
    executed := g.executed ++ [sysTuxcall] }

/-- The application at the entry of a call, under a tracer that takes it for such. -/
def interposed : Interposed K := ⟨g.traced .entry, false⟩

end Guest

namespace Interposed

section

variable {K : Type} {user : UserCode} {kernel : Kernel K} {g : Guest K}

theorem proceed_exit : proceed user kernel (g.traced .exit) = .ok ((g.enter user).traced .entry) := by
  simp only [proceed, Guest.traced, Ptraced.resume, user.calls, if_true, followed]
  rfl

theorem proceed_entry : proceed user kernel (g.traced .entry) = .ok ((g.execute kernel).traced .exit) := rfl

variable {H : Type} [DecidableEq H] {proc : Pid} {f₁ f₂ : Found H} {w : World H}

/-- What stops the simulator at the first dispatch stops it in the call. -/
theorem serve_halted {halt : Halt} (handled : dispatch kernel proc f₁ g.interposed = .error halt) :
    g.interposed.serve user kernel proc f₁ f₂ = .error halt := by
  simp only [serve, round, handled]
  rfl

/-- A handler and the call without a trace that begin alike are compared where they go on. -/
theorem serve_bind {α : Type} {x : Result α} {handler : α → Result (World H × Interposed K × Returned)}
    {plain : α → Result (List (World H) × Guest K)}
    (handled : dispatch kernel proc f₁ g.interposed = x >>= handler)
    (rest : ∀ a, x = .ok a → dispatch kernel proc f₁ g.interposed = handler a →
      g.interposed.serve user kernel proc f₁ f₂ = (plain a).map fun r => (r.1, r.2.interposed)) :
    g.interposed.serve user kernel proc f₁ f₂ = (x >>= plain).map fun r => (r.1, r.2.interposed) := by
  cases given : x with
  | error halt =>
      rw [given] at handled
      exact serve_halted handled
  | ok a =>
      rw [given] at handled
      exact rest a given handled

/-- A call that was answered at its entry is over. -/
theorem serve_answered {g' : Guest K} {returned : Returned} (loops : returned ≠ .nested)
    (handled : dispatch kernel proc f₁ g.interposed = .ok (outside (g'.traced .exit) w returned)) :
    g.interposed.serve user kernel proc f₁ f₂ = .ok ([w], (g'.enter user).interposed) := by
  have once : g.interposed.round user kernel proc f₁ = .ok (w, (g'.enter user).interposed) := by
    simp only [round, handled, outside, bind, Except.bind, loops, if_false, proceed_exit]
    rfl
  simp only [serve, once, bind, Except.bind]
  rfl

/-- A call that was left to the kernel has a second round, at its exit. -/
theorem serve_left {g' : Guest K} {call : Call} (known : g'.regs.call = some call)
    (lowered : lowers (g'.execute kernel).regs call = true)
    (handled : dispatch kernel proc f₁ g.interposed = .ok (goesOn (g'.traced .entry) w)) :
    g.interposed.serve user kernel proc f₁ f₂ =
      (g'.left user kernel proc f₂ call w).map fun r => (r.1, r.2.interposed) := by
  have first : g.interposed.round user kernel proc f₁ =
      .ok (w, ⟨(g'.execute kernel).traced .exit, true⟩) := by
    simp only [round, handled, goesOn, bind, Except.bind, proceed_entry]
    rfl
  have known' : ((g'.execute kernel).traced .exit).regs.call = some call := known
  have second : round user kernel proc f₂ ⟨(g'.execute kernel).traced .exit, true⟩ =
      (f₂.leave proc (g'.execute kernel).regs (g'.execute kernel).mem call).map fun r =>
        (r.1, (({ g'.execute kernel with mem := r.2 } : Guest K).enter user).interposed) := by
    simp only [round, dispatch, known', if_true, post]
    cases left : f₂.leave proc (g'.execute kernel).regs (g'.execute kernel).mem call with
    | error halt => simp only [Guest.traced, left]; rfl
    | ok r =>
        have after : proceed user kernel (((g'.execute kernel).traced .exit).setMem r.2) = .ok _ :=
          proceed_exit (g := { g'.execute kernel with mem := r.2 })
        simp only [Guest.traced, left, bind, Except.bind, pure, Except.pure, reduceCtorEq, if_false] at after ⊢
        simp only [after, lowered]
        rfl
  simp only [serve, first, bind, Except.bind, second, Guest.left]
  cases f₂.leave proc (g'.execute kernel).regs (g'.execute kernel).mem call <;> rfl

end

/-! ### The handlers at the entry -/

section

variable {K : Type} {kernel : SocketKernel K} {g : Guest K}

/-- `tuxcall` leaves nothing but the result register changed. -/
theorem neutralize_entry (kernel : SocketKernel K) (g : Guest K) : ∃ rax,
    followed ((g.traced .entry).ptraceNeutralizeSyscall kernel.execute) =
      .ok ((g.refused rax).traced .exit) := by
  have idle := kernel.tuxcall { g.regs with origRax := sysTuxcall } g.kernel g.mem
  refine ⟨(kernel.execute sysTuxcall { g.regs with origRax := sysTuxcall } g.kernel g.mem).result, ?_⟩
  rw [Ptraced.ptraceNeutralizeSyscall, Ptraced.resume_entry rfl]
  simp only [Ptraced.call, Ptraced.setRegs, Guest.traced, followed, UserRegs.setRax, idle.1, idle.2]
  rfl

/-- Restoring the registers leaves no trace of it. -/
theorem restore_refused {nr : UInt64} (number : g.regs.origRax = nr) (rax : UInt64) (mem : Memory)
    (ret : Int) :
    (((g.refused rax).traced .exit).setMem mem).ptraceRestoreSyscall nr (UInt64.ofInt ret) =
      (g.answer mem ret).traced .exit := by
  subst number
  rfl

theorem answered_entry {nr : UInt64} (number : g.regs.origRax = nr) (ret : Int) :
    answered kernel.execute (g.traced .entry) nr ret = .ok ((g.answer g.mem ret).traced .exit) := by
  obtain ⟨rax, neutralized⟩ := neutralize_entry kernel g
  rw [answered, neutralized]
  exact congrArg Except.ok (restore_refused number rax g.mem ret)

variable {H : Type}

/-- What a handler makes of an answer of the tables. -/
def conclude (g : Guest K) (returned : Returned) (r : World H × Option (Memory × Int)) :
    World H × Interposed K × Returned :=
  match r.2 with
  | some (mem, ret) => outside ((g.answer mem ret).traced .exit) r.1 returned
  | none => goesOn (g.traced .entry) r.1

theorem sending_eq {nr : UInt64} (number : g.regs.origRax = nr)
    (sent : Result (World H × Option (Task × Int))) :
    sending kernel.execute (g.traced .entry) nr sent =
      (sent.map fun r => (r.1, r.2.map fun s => (g.mem, s.2))).map (conclude g .processTaskFound) := by
  cases sent with
  | error => rfl
  | ok r =>
      obtain ⟨w, sent⟩ := r
      cases sent with
      | none => rfl
      | some s =>
          simp only [sending, bind, Except.bind, answered_entry number]
          rfl

variable {proc : Pid} {f : Found H}

theorem processReadOutCall_eq (number : g.regs.origRax = NetCall.read.number) (rax : UInt64) (task : Task) :
    processReadOutCall f g.regs ((g.refused rax).traced .exit) task =
      (f.readOut g.regs g.mem task).map fun r => (g.answer r.1 r.2).traced .exit := by
  have restored : ((g.refused rax).traced .exit).ptraceRestoreSyscall NetCall.read.number _ = _ :=
    restore_refused number rax g.mem (toCInt g.regs.rax.toNat)
  unfold processReadOutCall Found.readOut
  simp only [restored]
  split
  · simp only [bind, Except.bind, Guest.traced, Guest.answer]
    cases f.store g.mem g.regs.rsi.toNat (task.data ++ task.beyond) (toCInt g.regs.rax.toNat).toNat <;> rfl
  · rfl

theorem processRecvfromOutCall_eq (number : g.regs.origRax = NetCall.recvfrom.number) (rax : UInt64)
    (task : Task) :
    processRecvfromOutCall proc f g.regs ((g.refused rax).traced .exit) task =
      (f.recvfromOut proc g.regs g.mem task).map fun r => (g.answer r.1 r.2).traced .exit := by
  have restored := restore_refused number rax
  unfold processRecvfromOutCall Found.recvfromOut
  have same : ((g.refused rax).traced .exit).mem = g.mem := rfl
  rw [same]
  cases f.translateRecvfrom proc g.regs g.mem with
  | error => rfl
  | ok _ =>
      simp only [bind, Except.bind]
      cases strlen (task.data ++ task.beyond) with
      | none => rfl
      | some len =>
          simp only
          generalize (if g.regs.rdx.toNat ≥ len + 1 then len + 1 else g.regs.rdx.toNat) = ret
          cases f.store g.mem g.regs.rsi.toNat (task.data ++ task.beyond) ret with
          | error => rfl
          | ok mem => exact congrArg Except.ok (restored mem ret)

theorem buildRecvmsg_eq (number : g.regs.origRax = NetCall.recvmsg.number) (msg : Msghdr) (rax : UInt64)
    (task : Task) :
    buildRecvmsg f msg ((g.refused rax).traced .exit) task =
      (f.recvmsgOut g.mem msg task).map fun r => (g.answer r.1 r.2).traced .exit := by
  unfold buildRecvmsg Found.recvmsgOut
  have same : ((g.refused rax).traced .exit).mem = g.mem := rfl
  rw [same]
  cases sysBuildRecvmsg (f.view g.mem) (task.data ++ task.beyond) msg with
  | error => rfl
  | ok r => exact congrArg Except.ok (restore_refused number rax _ r.2)

/-- A copy that is not used does nothing if it succeeds. -/
theorem copy_bind {α : Type} {mem : Memory} {src length : Nat} {syscall : String}
    (short : length < 0x80000000) (mapped : (f.view mem).Mapped src (wholeWords length))
    (rest : Result α) : (f.copy mem src syscall length >>= fun _ => rest) = rest := by
  rw [Found.copy, peekBytes_of_mapped short mapped]
  rfl

variable [DecidableEq H]

/-- A handler that stores a task as `store` says once the call is neutralised. -/
theorem receiving_eq {mediated : Prop} [Decidable mediated] {out : Ptraced K → Task → Result (Ptraced K)}
    {store : Task → Result (Memory × Int)}
    (stores : ∀ rax task, out ((g.refused rax).traced .exit) task =
      (store task).map fun r => (g.answer r.1 r.2).traced .exit) :
    receiving kernel.execute proc f (g.traced .entry) mediated out =
      (f.receive proc g.regs mediated store).map (conclude g .processContinue) := by
  obtain ⟨rax, neutralized⟩ := neutralize_entry kernel g
  unfold receiving Found.receive World.receiveInto
  simp only [Guest.regs_traced]
  cases f.world.processDescriptorGetFd proc g.regs.fd with
  | none => rfl
  | some ref =>
      by_cases answers : mediated
      · simp only [if_pos answers]
        cases f.world.recvMailbox proc (f.world.fileDesc ref).stream with
        | error => rfl
        | ok mailbox =>
            simp only [bind, Except.bind]
            cases f.world.mailboxes mailbox with
            | nil => rfl
            | cons task rest =>
                simp only [neutralized, stores]
                cases store task <;> rfl
      · simp only [if_neg answers]
        rfl

/-- What `process_handle` learns from the handler of an answered call. -/
def returned : NetCall → Returned
  | .write | .sendto | .sendmsg => .processTaskFound
  | _ => .processContinue

/-- At its entry a network call is given the answer of the tables. -/
theorem pre_eq_reply {call : NetCall} (number : g.regs.origRax = call.number) (settled : call ≠ .accept)
    (settled' : call ≠ .connect) (spare : f.SpareMapped proc g.regs g.mem call) :
    pre kernel.execute proc f (g.traced .entry) (.net call) =
      (f.reply proc g.regs g.mem call).map (conclude g (returned call)) := by
  have settle : ∀ (w : World H) (ret : Int), (do
      let t ← answered kernel.execute (g.traced .entry) call.number ret
      return outside t w .processContinue) =
        .ok (outside ((g.answer g.mem ret).traced .exit) w .processContinue) := by
    intro w ret
    rw [answered_entry number]
    rfl
  cases call with
  | accept => exact absurd rfl settled
  | connect => exact absurd rfl settled'
  | write => exact sending_eq number _
  | sendmsg => exact sending_eq number _
  | sendto =>
      unfold pre syscallSendtoPre
      by_cases addressed : f.world.getTypeSocket proc (g.traced .entry).regs.fd ∉ [1, 5] ∧
          toCInt (g.traced .entry).regs.r8.toNat ≠ 0
      · rw [if_pos addressed]
        exact (copy_bind (addressSize_lt _) (spare addressed.1 addressed.2) _).trans (sending_eq number _)
      · rw [if_neg addressed]
        exact sending_eq number _
  | read => exact receiving_eq (processReadOutCall_eq number)
  | recvfrom => exact receiving_eq (processRecvfromOutCall_eq number)
  | recvmsg =>
      simp only [pre, syscallRecvmsgPre, Found.reply, Guest.regs_traced, Guest.mem_traced]
      cases f.copyMsghdr g.mem g.regs.rsi.toNat with
      | error => rfl
      | ok msg => exact receiving_eq (buildRecvmsg_eq number msg)
  | shutdown => exact settle _ _
  | getsockopt =>
      simp only [pre, syscallGetsockoptPre, Guest.regs_traced, Guest.mem_traced]
      rw [copy_bind (by decide) spare]
      exact settle _ _
  | setsockopt =>
      simp only [pre, syscallSetsockoptPre, Found.reply]
      by_cases reuse : toCInt g.regs.rdx.toNat = soReuseaddr
      · have traced : toCInt (g.traced .entry).regs.rdx.toNat = soReuseaddr := reuse
        rw [if_pos traced, if_pos reuse]
        simp only [Guest.regs_traced, Guest.mem_traced]
        cases f.copy g.mem g.regs.r10.toNat "setsockopt" sizeofInt with
        | error => rfl
        | ok optval => exact settle _ _
      · have traced : ¬ toCInt (g.traced .entry).regs.rdx.toNat = soReuseaddr := reuse
        rw [if_neg traced, if_neg reuse]
        exact settle _ _
  | listen =>
      simp only [pre, syscallListen, Found.reply, Guest.regs_traced]
      cases f.world.processListenCall proc g.regs.fd with
      | error => rfl
      | ok w => exact settle _ _
  | bind =>
      simp only [pre, syscallBindPre, Found.reply, Guest.regs_traced, Guest.mem_traced]
      cases f.sai proc g.regs g.mem "bind" with
      | error => rfl
      | ok sai =>
          simp only [bind, Except.bind]
          cases f.world.syscallBindPre proc g.regs.fd sai with
          | error => rfl
          | ok r =>
              obtain ⟨w, ret⟩ := r
              cases ret with
              | none => rfl
              | some ret => exact settle _ _

/-! ### One call -/

variable {user : UserCode} {f₁ f₂ : Found H}

/-- A call that the tables know all about is served as they answer. -/
theorem serve_reply {call : NetCall} (known : g.regs.call = some (.net call)) (settled : call ≠ .accept)
    (settled' : call ≠ .connect) (spare : f₁.SpareMapped proc g.regs g.mem call) :
    g.interposed.serve user kernel.execute proc f₁ f₂ =
      (g.serve user kernel.execute proc f₁ f₂).map fun r => (r.1, r.2.interposed) := by
  have handled : dispatch kernel.execute proc f₁ g.interposed =
      (f₁.reply proc g.regs g.mem call).map (conclude g (returned call)) := by
    have entered : dispatch kernel.execute proc f₁ g.interposed =
        pre kernel.execute proc f₁ (g.traced .entry) (.net call) := by
      simp only [dispatch, Guest.interposed, Guest.regs_traced, known]
      rfl
    exact entered.trans (pre_eq_reply (UserRegs.origRax_of_net known) settled settled' spare)
  have plain : g.serve user kernel.execute proc f₁ f₂ = (do
      let (w, answer) ← f₁.reply proc g.regs g.mem call
      match answer with
      | some (mem, ret) => return ([w], (g.answer mem ret).enter user)
      | none => g.left user kernel.execute proc f₂ (.net call) w) := by
    unfold Guest.serve
    rw [known]
    cases call <;> first | rfl | contradiction
  rw [plain]
  cases replied : f₁.reply proc g.regs g.mem call with
  | error halt =>
      rw [replied] at handled
      rw [serve_halted handled]
      rfl
  | ok r =>
      rw [replied] at handled
      obtain ⟨w, answer⟩ := r
      cases answer with
      | none => exact serve_left known rfl handled
      | some stored =>
          have loops : returned call ≠ .nested := by cases call <;> exact fun same => by cases same
          exact serve_answered loops handled

theorem processConnectInCall_answers {sockfd : Int} {sai : SockaddrIn} {outcome : ConnectOutcome H}
    {w : World H} (domain : w.getDomainSocket proc sockfd = 2)
    (done : w.processConnectInCall proc sockfd sai = .ok outcome) : ∃ ret, outcome.ret = some ret := by
  have connects : ∀ {port host device ip}, w.connectTo proc sockfd port host device ip = .ok outcome →
      ∃ ret, outcome.ret = some ret := by
    intro port host device ip done
    obtain ⟨⟨w₁, found⟩, -, done⟩ := bind_eq_ok.mp done
    cases found with
    | none =>
        cases pure_eq_ok.mp done
        exact ⟨_, rfl⟩
    | some listener =>
        dsimp only at done
        split at done
        · cases done
        · obtain ⟨w₂, -, done⟩ := bind_eq_ok.mp done
          split at done <;> cases pure_eq_ok.mp done <;> exact ⟨_, rfl⟩
  unfold World.processConnectInCall at done
  rw [if_pos domain] at done
  split at done
  · exact connects done
  · split at done
    · cases done
      exact ⟨_, rfl⟩
    · exact connects done

/-- A blocking `connect` has a second round too, for the `process_handle` it calls itself. -/
theorem serve_connect (known : g.regs.call = some (.net .connect))
    (domain : f₁.world.getDomainSocket proc g.regs.fd = 2) :
    g.interposed.serve user kernel.execute proc f₁ f₂ =
      (g.serve user kernel.execute proc f₁ f₂).map fun r => (r.1, r.2.interposed) := by
  have number : g.regs.origRax = NetCall.connect.number := UserRegs.origRax_of_net known
  have handled : dispatch kernel.execute proc f₁ g.interposed =
      syscallConnectPre kernel.execute proc f₁ (g.traced .entry) := by
    simp only [dispatch, Guest.interposed, Guest.regs_traced, known]
    rfl
  simp only [Guest.serve, known]
  unfold syscallConnectPre at handled
  simp only [Guest.regs_traced, Guest.mem_traced] at handled
  refine serve_bind handled fun sai _ handled => ?_
  refine serve_bind handled fun outcome asked handled => ?_
  obtain ⟨ret, answers⟩ := processConnectInCall_answers domain asked
  simp only [answers, answered_entry number] at handled ⊢
  by_cases waits : outcome.waits = true
  · simp only [waits, if_true] at handled ⊢
    refine serve_bind handled fun r _ handled => ?_
    have first : g.interposed.round user kernel.execute proc f₁ =
        .ok (r.1, ⟨(g.answer g.mem ret).traced .exit, true⟩) := by
      simp only [round, handled]
      rfl
    have second : round user kernel.execute proc f₂ ⟨(g.answer g.mem ret).traced .exit, true⟩ =
        (f₂.connectPost proc g.regs g.mem).map fun w =>
          (w, ((g.answer g.mem ret).enter user).interposed) := by
      have known' : ((g.answer g.mem ret).traced .exit).regs.call = some (.net .connect) := known
      simp only [round, dispatch, known', if_true, post, Found.leave]
      have same : f₂.connectPost proc ((g.answer g.mem ret).traced .exit).regs
          ((g.answer g.mem ret).traced .exit).mem = f₂.connectPost proc g.regs g.mem := rfl
      rw [same]
      cases f₂.connectPost proc g.regs g.mem with
      | error => rfl
      | ok w =>
          have after : proceed user kernel.execute
            (((g.answer g.mem ret).traced .exit).setMem (g.answer g.mem ret).mem) = .ok _ := proceed_exit
          simp only [bind, Except.bind, Except.map, pure, Except.pure, reduceCtorEq, if_false,
            Guest.mem_traced, after, lowers]
          rfl
    simp only [serve, first, bind, Except.bind, second]
    cases f₂.connectPost proc g.regs g.mem <;> rfl
  · simp only [waits, Bool.false_eq_true, if_false] at handled ⊢
    exact serve_answered (by decide) handled

/-- The `syscall` instruction is in front of where the application stands. -/
def AtCall (g : Guest K) : Prop := g.mem.read (g.regs.rip - 2).toNat 2 = syscallInstruction

theorem atCall_enter (g : Guest K) : AtCall (g.enter user) := by
  unfold AtCall Guest.enter
  simp only [UInt64.add_sub_cancel]
  exact user.calls g.regs g.mem

theorem rebuildAccept_eq (number : g.regs.origRax = sysAccept) (atCall : AtCall g) :
    (g.traced .entry).rebuildAccept kernel.execute = some
      (((g.newSocket kernel.execute).1.answer g.mem (g.newSocket kernel.execute).2).traced .exit,
        (g.newSocket kernel.execute).2) := by
  generalize args : { g.regs with origRax := sysSocket, rdi := 2, rsi := 1, rdx := 0 } = regs
  generalize socket : kernel.execute sysSocket regs g.kernel g.mem = made
  have untouched : made.mem = g.mem := by
    rw [← socket]
    exact kernel.untouched regs g.kernel g.mem
  generalize tuxcall : kernel.execute sysTuxcall
    { g.regs.setRax (UInt64.ofInt (-enosys)) with origRax := sysTuxcall } made.kernel made.mem = nothing
  have idle : nothing.kernel = made.kernel ∧ nothing.mem = made.mem := by
    rw [← tuxcall]
    exact kernel.tuxcall _ made.kernel made.mem
  have instruction : made.mem.read (g.regs.rip - 2).toNat 2 = syscallInstruction := by
    rw [untouched]
    exact atCall
  have rebuilt := Ptraced.rebuildAccept_entry (t := g.traced .entry) rfl (args ▸ socket) instruction tuxcall
  rw [rebuilt, idle.1, idle.2, untouched, ← number]
  simp only [Guest.newSocket, args, socket]
  rfl

theorem length_bytes (sai : SockaddrIn) : sai.bytes.length = sizeofSockaddrIn :=
  SockaddrIn.length_toBytes sai (by decide)

theorem serve_accept (known : g.regs.call = some (.net .accept)) (atCall : AtCall g)
    (spare : f₁.SpareMapped proc g.regs g.mem .accept) :
    g.interposed.serve user kernel.execute proc f₁ f₂ =
      (g.serve user kernel.execute proc f₁ f₂).map fun r => (r.1, r.2.interposed) := by
  have number : g.regs.origRax = sysAccept := UserRegs.origRax_of_net known
  obtain ⟨copied, length, address⟩ := spare
  have handled : dispatch kernel.execute proc f₁ g.interposed =
      syscallAcceptPre kernel.execute proc f₁ (g.traced .entry) := by
    simp only [dispatch, Guest.interposed, Guest.regs_traced, known]
    rfl
  simp only [Guest.serve, known]
  unfold syscallAcceptPre at handled
  simp only [Guest.regs_traced, Guest.mem_traced, rebuildAccept_eq number atCall, followed] at handled
  rw [copy_bind (addressSize_lt _) copied, copy_bind (by decide) length] at handled
  refine serve_bind handled fun waiting _ handled => ?_
  cases waiting with
  | false => exact serve_left known rfl handled
  | true =>
      simp only [if_true] at handled ⊢
      generalize (g.newSocket kernel.execute).2 = newFd at handled ⊢
      refine serve_bind handled fun r _ handled => ?_
      obtain ⟨w, sai⟩ := r
      cases sai with
      | none => exact serve_answered (by decide) handled
      | some sai =>
          have stored : f₁.store g.mem g.regs.rsi.toNat sai.bytes sizeofSockaddrIn = .ok _ :=
            Found.store_of_mapped address rfl (length_bytes sai)
          have same : (((g.newSocket kernel.execute).1.answer g.mem newFd).traced .exit).mem = g.mem := rfl
          simp only [same, stored] at handled
          have answered : dispatch kernel.execute proc f₁ g.interposed = .ok (outside
              (((g.newSocket kernel.execute).1.answer (g.mem.write g.regs.rsi.toNat sai.bytes)
                newFd).traced .exit) w .processContinue) := handled
          exact serve_answered (by decide) answered

/-- The answer to a `poll` is stored, but the call is made. -/
theorem serve_poll (known : g.regs.call = some .poll) :
    g.interposed.serve user kernel.execute proc f₁ f₂ =
      (g.serve user kernel.execute proc f₁ f₂).map fun r => (r.1, r.2.interposed) := by
  have number : g.regs.origRax = sysPoll := UserRegs.origRax_of_poll known
  have handled : dispatch kernel.execute proc f₁ g.interposed = syscallPollPre proc f₁ (g.traced .entry) := by
    simp only [dispatch, Guest.interposed, Guest.regs_traced, known]
    rfl
  simp only [Guest.serve, known, Found.poll]
  unfold syscallPollPre at handled
  simp only [Guest.regs_traced, Guest.mem_traced] at handled
  rw [bind_assoc]
  refine serve_bind handled fun fdList _ handled => ?_
  rw [bind_assoc]
  refine serve_bind handled fun r _ handled => ?_
  obtain ⟨w, answer⟩ := r
  cases answer with
  | none => exact serve_left known rfl handled
  | some answer =>
      obtain ⟨ret, fdList⟩ := answer
      have same : ((g.traced .entry).ptraceRestoreSyscall sysPoll (UInt64.ofInt ret)).mem = g.mem := rfl
      simp only [same, bind_assoc] at handled ⊢
      refine serve_bind handled fun mem _ handled => ?_
      have restored : ((g.traced .entry).ptraceRestoreSyscall sysPoll (UInt64.ofInt ret)).setMem mem =
          ({ g with regs := g.regs.setRax (UInt64.ofInt ret), mem := mem } : Guest K).traced .entry := by
        rw [← number]
        rfl
      have entered : dispatch kernel.execute proc f₁ g.interposed = .ok (goesOn
          (({ g with regs := g.regs.setRax (UInt64.ofInt ret), mem := mem } : Guest K).traced .entry) w) :=
        handled.trans (congrArg (fun t => Except.ok (goesOn t w)) restored)
      exact serve_left known rfl entered

end

end Interposed

/-! ## Any number of calls -/

namespace Guest

variable {K : Type} {H : Type} [DecidableEq H] (user : UserCode) (kernel : Kernel K) (proc : Pid)

/-- A call that the tracer can handle without a trace: the memory that its handler copies for
    nothing is mapped, a `close` succeeds and a `connect` is on a socket of `PF_INET`, so that the flag
    is where it should be afterwards. A `recvfrom` that is left to the kernel is not followed, since its
    handler asks for as much memory as the call returned. -/
def Regular (f : Found H) (g : Guest K) : Prop :=
  match g.regs.call with
  | some (.file .close) => toCInt (g.execute kernel).regs.rax.toNat = 0
  | some (.net call) => f.SpareMapped proc g.regs g.mem call ∧
      (call = .connect → f.world.getDomainSocket proc g.regs.fd = 2) ∧
      (call = .recvfrom → f.Receives proc g.regs)
  | _ => True

/-- All calls that the application makes are. -/
def AllRegular : List (Found H × Found H) → Guest K → Prop
  | [], _ => True
  | (f₁, f₂) :: fs, g => g.Regular kernel proc f₁ ∧
      ∀ r ∈ (g.serve user kernel proc f₁ f₂).toOption, AllRegular fs r.2

end Guest

namespace Interposed

variable {K : Type} {H : Type} [DecidableEq H] {user : UserCode} {kernel : SocketKernel K} {proc : Pid}
  {g : Guest K} {f₁ f₂ : Found H}

/-- The other calls are left to the kernel. -/
theorem serve_kernel {call : Call} (known : g.regs.call = some call)
    (alone : pre kernel.execute proc f₁ (g.traced .entry) call = .ok (goesOn (g.traced .entry) f₁.world))
    (lowered : lowers (g.execute kernel.execute).regs call = true) :
    g.interposed.serve user kernel.execute proc f₁ f₂ =
      (g.left user kernel.execute proc f₂ call f₁.world).map fun r => (r.1, r.2.interposed) := by
  apply serve_left known lowered
  rw [← alone]
  simp only [dispatch, Guest.interposed, Guest.regs_traced, known]
  rfl

theorem serve_eq (atCall : AtCall g) (regular : g.Regular kernel.execute proc f₁) :
    g.interposed.serve user kernel.execute proc f₁ f₂ =
      (g.serve user kernel.execute proc f₁ f₂).map fun r => (r.1, r.2.interposed) := by
  cases known : g.regs.call with
  | none =>
      simp only [serve, round, dispatch, Guest.interposed, Guest.regs_traced, known, Guest.serve]
      rfl
  | some call =>
      cases call with
      | net call =>
          simp only [Guest.Regular, known] at regular
          by_cases accepts : call = .accept
          · subst accepts
            exact serve_accept known atCall regular.1
          · by_cases connects : call = .connect
            · subst connects
              exact serve_connect known (regular.2.1 rfl)
            · exact serve_reply known accepts connects regular.1
      | poll => exact serve_poll known
      | file call =>
          simp only [Guest.serve, known]
          apply serve_kernel known rfl
          cases call with
          | close =>
              simp only [Guest.Regular, known] at regular
              simp [lowers, regular]
          | _ => rfl
      | tuxcall =>
          simp only [Guest.serve, known]
          exact serve_kernel known rfl rfl
      | other =>
          simp only [Guest.serve, known]
          exact serve_kernel known rfl rfl

/-- After a call the application has entered the next one. -/
theorem atCall_serve {ws : List (World H)} {g' : Guest K}
    (served : g.serve user kernel.execute proc f₁ f₂ = .ok (ws, g')) : AtCall g' := by
  have left : ∀ {h : Guest K} {call : Call} {w : World H},
      h.left user kernel.execute proc f₂ call w = .ok (ws, g') → AtCall g' := by
    intro h call w done
    obtain ⟨r, -, ⟨⟩⟩ := bind_pure_eq_ok.mp done
    exact atCall_enter _
  unfold Guest.serve at served
  split at served
  · cases served
  · obtain ⟨waiting, -, served⟩ := bind_eq_ok.mp served
    split at served
    · obtain ⟨r, -, ⟨⟩⟩ := bind_pure_eq_ok.mp served
      exact atCall_enter _
    · exact left served
  · obtain ⟨sai, -, served⟩ := bind_eq_ok.mp served
    obtain ⟨outcome, -, served⟩ := bind_eq_ok.mp served
    split at served
    · exact left served
    · split at served
      · obtain ⟨r, -, served⟩ := bind_eq_ok.mp served
        obtain ⟨w, -, ⟨⟩⟩ := bind_pure_eq_ok.mp served
        exact atCall_enter _
      · cases pure_eq_ok.mp served
        exact atCall_enter _
  · obtain ⟨⟨w, answer⟩, -, served⟩ := bind_eq_ok.mp served
    cases answer with
    | some stored =>
        cases pure_eq_ok.mp served
        exact atCall_enter _
    | none => exact left served
  · obtain ⟨r, -, served⟩ := bind_eq_ok.mp served
    exact left served
  · exact left served

/-- An application that asks for an option over and over, by the instruction at address 98. -/
def askingOption : UserCode where
  run regs mem := ({ regs with rax := 55, r10 := 64, rip := 98 }, mem.write 98 syscallInstruction)
  calls _ mem := Memory.read_write mem 98 syscallInstruction (by decide)

/-- Three hosts, one page of memory, and nothing behind the buffers of the simulator. -/
def onePage : Found (Fin 3) where
  world := World.threeHosts
  mapped a := a < 4096
  stack := List.replicate 16 0
  stackSize := rfl
  elsewhere := []
  beyond := []
  err := .timeout
  clock := List.replicate 8 0
  clockSize := rfl

end Interposed

end Simterpose
