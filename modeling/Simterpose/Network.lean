import Simterpose.Lib.Except
import Simterpose.Lib.Run
import Simterpose.Messages

/-! # Runs of socket calls

The calls of all traced processes as one step function: a call of any process, with
any arguments, results of the kernel and tracee memory, turns the tables into new
ones. A step also says what became of the call. Calls on which the simulator stops,
sleeps or fails have no step.
-/

namespace Simterpose

open Lib

/-- A completed call of a traced process, or the part of it that changes the tables. -/
inductive Op where
  | socket (proc : Pid) (domain type protocol ret : Int)
  | bind (proc : Pid) (sockfd : Int) (sai : SockaddrIn)
  | listen (proc : Pid) (sockfd : Int)
  | connect (proc : Pid) (sockfd : Int) (sai : SockaddrIn)
  | accept (proc : Pid) (sockfd newfd : Int)
  | send (proc : Pid) (fd : Int) (data beyond : List UInt8)
  | close (proc : Pid) (fd : Int)
  | dup (proc : Pid) (oldfd newfd : Int)
  | dup2 (proc : Pid) (oldfd newfd : Int)
  deriving Repr, DecidableEq

/-- Whether the call makes a second descriptor for an open file. -/
def Op.duplicates : Op → Bool
  | .dup .. | .dup2 .. => true
  | _ => false

/-- The descriptor that the call closes. -/
def Op.closes : Op → Option (Pid × Int)
  | .close proc fd => some (proc, fd)
  | .dup2 proc _ newfd => some (proc, newfd)
  | _ => none

/-- What a step did beyond changing the tables. -/
inductive Event (H : Type) where
  | silent
  /-- a successful `bind` of the socket to a port of the host -/
  | bound (is : SockId) (host : H) (port : Nat) (addr : UInt32)
  /-- the socket listens from now on -/
  | listened (is : SockId)
  /-- a `connect` of the client that found the bound socket `listener` -/
  | asked (client listener : SockId)
  /-- an `accept` on `listener` that made the socket `new` for the client and reported
      the address `sai` -/
  | accepted (listener client new : SockId) (sai : SockaddrIn)
  deriving Repr, DecidableEq

/-- Whether an `accept` took a request. -/
def Event.accepts {H : Type} : Event H → Bool
  | .accepted .. => true
  | _ => false

namespace World

variable {H : Type}

/-- The tables before any traced process made a call. -/
structure Initial (w : World H) : Prop where
  noDescriptor : ∀ proc fd is, w.processDescriptorGetFd proc fd ≠ some (.socket is)
  noSocket : w.sockets.next = 0
  noComm : w.comms.next = 0
  notFreed : ∀ is, w.sockets.freed is = false
  unused : ∀ is, (w.socket is).comm = none
  blank : ∀ k, w.comm k = {}
  allSockets : w.allSockets = []
  commList : w.commList = []
  ports : ∀ host, (w.hosts host).port = ∅
  mailboxes : ∀ host, w.mailboxes host = []

/-- The tables when the processes named by `place` are started on their hosts. -/
def boot (place : Pid → H) (ip : H → UInt32) (listIp : UInt32 → Option H) : World H where
  procs proc := { host := place proc, fdMap := ∅ }
  descs := .empty { type := .classic, proc := 0, fd := 0 }
  sockets := .empty
    { fd := { type := .socket, proc := 0, fd := 0 }, comm := none, host := place 0, domain := 0
      protocol := 0, ipLocal := 0, portLocal := 0, flags := 0, type := 0, option := 0
      binded := false, refNb := 0, tagged := rfl }
  comms := .empty {}
  streams := .empty {}
  pipes := .empty { readEnd := [], writeEnd := [] }
  allSockets := []
  commList := []
  hosts host := { ip := ip host, port := ∅ }
  listIp := listIp
  mailboxes _ := []

theorem boot_initial (place : Pid → H) (ip : H → UInt32) (listIp : UInt32 → Option H) :
    (boot place ip listIp).Initial where
  noDescriptor := by simp [boot, processDescriptorGetFd]
  noSocket := rfl
  noComm := rfl
  notFreed _ := rfl
  unused _ := rfl
  blank _ := rfl
  allSockets := rfl
  commList := rfl
  ports _ := rfl
  mailboxes _ := rfl

/-- The socket whose request is at the head of a listener's queue. -/
def waitingClient (w : World H) (listener : SockId) : Option SockId := do
  let k ← (w.socket listener).comm
  let conn ← (w.comm k).connWait.head?
  (w.comm conn).info0.socket

def bindEvent (w : World H) (proc : Pid) (sockfd : Int) (sai : SockaddrIn) (ret : Option Int) :
    Event H :=
  match w.getInfosSocket proc sockfd, ret with
  | some is, some 0 => .bound is (w.procs proc).host sai.port.toNat sai.addr
  | _, _ => .silent

def listenEvent (w : World H) (proc : Pid) (sockfd : Int) : Event H :=
  match w.getInfosSocket proc sockfd with
  | some is => .listened is
  | none => .silent

def connectEvent (w : World H) (proc : Pid) (sockfd : Int) (listener : Option SockId) : Event H :=
  match w.getInfosSocket proc sockfd, listener with
  | some client, some listener => .asked client listener
  | _, _ => .silent

def acceptEvent (w : World H) (proc : Pid) (sockfd newfd : Int) (sai : Option SockaddrIn) :
    Event H :=
  match w.getInfosSocket proc sockfd, sai with
  | some listener, some sai =>
      match w.waitingClient listener with
      | some client => if newfd ≥ 0 then .accepted listener client w.sockets.next sai else .silent
      | none => .silent
  | _, _ => .silent

variable [DecidableEq H]

def step (w : World H) : Op → Result (World H × Event H)
  | .socket proc domain type protocol ret => do
      return (← w.syscallSocket proc domain type protocol ret, .silent)
  | .bind proc sockfd sai => do
      let (w', ret) ← w.syscallBindPre proc sockfd sai
      return (w', w.bindEvent proc sockfd sai ret)
  | .listen proc sockfd => do
      return (← w.processListenCall proc sockfd, w.listenEvent proc sockfd)
  | .connect proc sockfd sai => do
      let outcome ← w.processConnectInCall proc sockfd sai
      return (outcome.world, w.connectEvent proc sockfd outcome.listener)
  | .accept proc sockfd newfd => do
      let (w', sai) ← w.syscallAccept proc sockfd newfd
      return (w', w.acceptEvent proc sockfd newfd sai)
  | .send proc fd data beyond => do
      return ((← w.processSendCall proc fd data beyond).1, .silent)
  | .close proc fd => do
      return (← w.processCloseCall proc fd, .silent)
  | .dup proc oldfd newfd => do
      return (← w.syscallDupPost proc oldfd newfd, .silent)
  | .dup2 proc oldfd newfd => do
      return (← w.syscallDup2Post proc oldfd newfd, .silent)

/-- One labelled step. New sockets and communications are at addresses that were never used before;
    `StepAt` of `Simterpose.Reuse` is the step at any address that `malloc` may return. -/
def Step (w : World H) (label : Op × Event H) (w' : World H) : Prop :=
  w.step label.1 = .ok (w', label.2)

theorem Step.of_result {w : World H} {op : Op} {outcome : World H × Event H}
    (done : outcome ∈ (w.step op).toOption) : w.Step (op, outcome.2) outcome.1 :=
  eq_ok_of_mem_toOption done

/-- Perform calls one after another, as long as each is allowed by `guard` and none of them
    stops the simulator. -/
def execute (guard : World H → Op × Event H → Prop) [∀ w label, Decidable (guard w label)]
    (w : World H) (ops : List Op) : Option (List (Op × Event H) × World H) :=
  perform (fun w op => (w.step op).toOption.map fun r => ((op, r.2), r.1)) guard w ops

/-- What can be computed of some calls and their outcomes holds after some run. -/
theorem exists_history (guard : World H → Op × Event H → Prop)
    [∀ w label, Decidable (guard w label)] (w₀ : World H) (ops : List Op)
    {P : List (Op × Event H) → World H → Prop} (found : ∃ r ∈ w₀.execute guard ops, P r.1 r.2) :
    ∃ es w, Run (Guarded guard Step) w₀ es w ∧ P es w := by
  apply Run.exists_of_results _ found
  intro w op outcome stepped
  exact stepped

theorem exists_run (guard : World H → Op × Event H → Prop) [∀ w label, Decidable (guard w label)]
    (w₀ : World H) (ops : List Op) {P : World H → Prop}
    (found : ∃ r ∈ w₀.execute guard ops, P r.2) : ∃ es w, Run (Guarded guard Step) w₀ es w ∧ P w :=
  exists_history guard w₀ ops (P := fun _ w => P w) found

/-- Three hosts with addresses 10, 11 and 12; process `p` runs on host `p` modulo 3. -/
def threeHosts : World (Fin 3) :=
  boot (Fin.ofNat 3 ·) (10 + UInt32.ofNat ·.val) fun ip =>
    if ip = 10 then some 0 else if ip = 11 then some 1 else if ip = 12 then some 2 else none

end World

end Simterpose
