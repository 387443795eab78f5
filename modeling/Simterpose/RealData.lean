import Mathlib.Algebra.GroupWithZero.Nat
import Simterpose.Polling
import Simterpose.Rendezvous

/-! # Data in the address-translation build

In the address-translation build the kernel carries the bytes of a connection. When a call that sends
returns, the interposer sends a task to the host of the peer; a call that receives takes one task when
it is entered, and then the kernel runs it. This module follows the tasks and the bytes together, over
any order of these steps. How many bytes a call moves is up to the kernel, which is only known not to
give more than there is room for, nor what was not sent.
-/

namespace Simterpose

open Lib World

/-- The calls that send. -/
inductive Outgoing where
  | write | sendto | sendmsg
  deriving Repr, DecidableEq

/-- The calls that receive. -/
inductive Incoming where
  | read | recvfrom | recvmsg
  deriving Repr, DecidableEq

/-- What the tracees do with the ends of their connections. -/
inductive RealCall where
  /-- the kernel took `count` bytes, and the call returns -/
  | send (how : Outgoing) (proc : Pid) (fd : Int) (count : Nat)
  | enter (how : Incoming) (proc : Pid) (fd : Int)
  /-- a call that was entered returns, with `got` bytes in a buffer of `room` -/
  | receive (proc : Pid) (fd : Int) (room got : Nat)
  deriving Repr, DecidableEq

namespace World

variable {H : Type} [DecidableEq H] (w : World H)

/-- A task for what the kernel sent. Its data is an address in the tracee, a copy or NULL, which this
    build never follows. -/
def announce (proc : Pid) (fd : Int) (ret : Nat) : Result (World H) :=
  if 0 < toCInt ret then (w.processSendCallWith proc fd [] [] ret).map Prod.fst else .ok w

/-- `syscall_write` at the exit with the result of the kernel, on a descriptor that is no pipe -/
def syscallWriteOut (proc : Pid) (fd : Int) (ret : Nat) : Result (World H) :=
  match w.processDescriptorGetFd proc fd with
  | none => .error .segfault
  | some _ => if w.socketRegistered proc fd ≠ -1 then w.announce proc fd ret else .ok w

/-- `syscall_sendto_post`, for a call without an address -/
def syscallSendtoPost (proc : Pid) (fd : Int) (ret : Nat) : Result (World H) := w.announce proc fd ret

/-- `syscall_sendmsg` at the exit -/
def syscallSendmsgOut (proc : Pid) (fd : Int) (ret : Nat) : Result (World H) := w.announce proc fd ret

def sendOut : Outgoing → Pid → Int → Nat → Result (World H)
  | .write => w.syscallWriteOut
  | .sendto => w.syscallSendtoPost
  | .sendmsg => w.syscallSendmsgOut

/-- Take a task; its size and its data are not used. -/
def awaitTask (proc : Pid) (ref : DescRef) : Result (World H) :=
  (w.receiveTask proc ref fun _ => some []).map Prod.fst

/-- `syscall_read` at the entrance, on a descriptor that is no pipe -/
def syscallReadIn (proc : Pid) (fd : Int) : Result (World H) :=
  match w.processDescriptorGetFd proc fd with
  | none => .error .segfault
  | some ref => if w.socketRegistered proc fd ≠ -1 then w.awaitTask proc ref else .ok w

/-- What both calls below do at the entrance. They do it only if the result register is greater than 0,
    which it is there: it holds `-ENOSYS` and has no sign. -/
def awaitMessage (proc : Pid) (fd : Int) : Result (World H) :=
  match w.processDescriptorGetFd proc fd with
  | none => .error .segfault
  | some ref =>
      if w.socketRegistered proc fd ≠ -1 ∧ w.socketNetlink proc fd = false then w.awaitTask proc ref
      else .ok w

/-- `syscall_recvfrom_pre` -/
def syscallRecvfromIn (proc : Pid) (fd : Int) : Result (World H) := w.awaitMessage proc fd

/-- `syscall_recvmsg_pre` -/
def syscallRecvmsgIn (proc : Pid) (fd : Int) : Result (World H) := w.awaitMessage proc fd

def receiveIn : Incoming → Pid → Int → Result (World H)
  | .read => w.syscallReadIn
  | .recvfrom => w.syscallRecvfromIn
  | .recvmsg => w.syscallRecvmsgIn

variable {w} {w' : World H} {p : Pid} {fd : Int} {x y : SockId}

/-- On an end of a connection the calls that send make no difference. -/
theorem sendOut_of_wired (wired : w.Wired p fd x y) (how : Outgoing) (ret : Nat) :
    w.sendOut how p fd ret = w.announce p fd ret := by
  cases how with
  | write =>
      have opened := w.getInfosSocket_eq_some.mp wired.opened
      have registered : w.socketRegistered p fd ≠ -1 := by simp [socketRegistered, wired.opened]
      simp only [sendOut, syscallWriteOut, opened, if_pos registered]
  | sendto => rfl
  | sendmsg => rfl

/-- Nor do those that receive. -/
theorem receiveIn_of_wired (wired : w.Wired p fd x y) (how : Incoming) :
    w.receiveIn how p fd = w.awaitTask p (.socket x) := by
  have opened := w.getInfosSocket_eq_some.mp wired.opened
  have registered : w.socketRegistered p fd ≠ -1 := by simp [socketRegistered, wired.opened]
  cases how with
  | read => simp only [receiveIn, syscallReadIn, opened, if_pos registered]
  | recvfrom | recvmsg =>
      simp only [receiveIn, syscallRecvfromIn, syscallRecvmsgIn, awaitMessage, opened,
        if_pos (And.intro registered wired.netlink)]

theorem announce_of_wired (wired : w.Wired p fd x y) (ret : Nat) :
    ∃ w' tasks, w.announce p fd ret = .ok w' ∧ w.SameWires w' ∧
      tasks.length = (if 0 < toCInt ret then 1 else 0) ∧
      w'.mailboxes = Function.update w.mailboxes (w.procs (w.socket y).fd.proc).host
        (w.mailboxes (w.procs (w.socket y).fd.proc).host ++ tasks) := by
  unfold announce
  by_cases some_ : 0 < toCInt ret
  · obtain ⟨recv, sends⟩ := processSendCallWith_of_established wired.established [] [] ret
    simp only [if_pos some_, sends]
    exact ⟨_, [_], rfl, sameWires_sendFrom .., rfl, mailboxes_sendFrom ..⟩
  · simp only [if_neg some_]
    exact ⟨w, [], rfl, SameEnds.rfl.wires, rfl, by simp⟩

theorem awaitTask_eq_ok (wired : w.Wired p fd x y) :
    w.awaitTask p (.socket x) = .ok w' ↔
      ∃ task rest, w.mailboxes (w.procs p).host = task :: rest ∧ w' = w.takeTask (w.procs p).host rest := by
  have mailbox : w.recvMailbox p (w.fileDesc (.socket x)).stream = .ok (w.procs p).host := wired.mailbox
  simp only [awaitTask, receiveTask, mailbox]
  cases queue : w.mailboxes (w.procs p).host with
  | nil => simp [bind, Except.bind, Except.map, queue]
  | cons task rest => simp [bind, Except.bind, Except.map, pure, Except.pure, queue, takeTask, eq_comm]

end World

/-! ## The calls -/

namespace RealCall

variable (opened : Pid → Int → Option SockId) (is : SockId)

/-- The bytes that the call sent on a socket. -/
def sent : RealCall → Nat
  | .send _ proc fd count => if opened proc fd = some is then count else 0
  | _ => 0

/-- The tasks that were sent for them. -/
def announced : RealCall → Nat
  | .send _ proc fd count => if opened proc fd = some is ∧ 0 < toCInt count then 1 else 0
  | _ => 0

/-- How many calls on a socket it enters, -/
def entered : RealCall → Nat
  | .enter _ proc fd => if opened proc fd = some is then 1 else 0
  | _ => 0

/-- and how many it ends, -/
def returned : RealCall → Nat
  | .receive proc fd _ _ => if opened proc fd = some is then 1 else 0
  | _ => 0

/-- with how many bytes. -/
def received : RealCall → Nat
  | .receive proc fd _ got => if opened proc fd = some is then got else 0
  | _ => 0

/-- The descriptor the call is on. -/
def place : RealCall → Pid × Int
  | .send _ proc fd _ | .enter _ proc fd | .receive proc fd _ _ => (proc, fd)

/-- The call sends at least `n` bytes or has room for at most as many. -/
def Sized (n : Nat) : RealCall → Prop
  | .send _ _ _ count => n ≤ count
  | .enter .. => True
  | .receive _ _ room _ => room ≤ n

/-- If the call sent on `x` or received on `y`, then it moved `n` bytes. -/
def Whole (n : Nat) (x y : SockId) : RealCall → Prop
  | .send _ proc fd count => opened proc fd = some x → count = n
  | .enter .. => True
  | .receive proc fd _ got => opened proc fd = some y → got = n

end RealCall

/-- The tables, and what is known of the connections and the calls in the kernel. -/
structure RealData (H : Type) where
  world : World H
  /-- what was sent to each socket and not yet received -/
  waiting : SockId → Nat
  /-- the calls that were entered and did not return -/
  inside : List (Pid × Int)

namespace RealData

variable {H : Type} [DecidableEq H]

/-- The bytes sent on a socket are for its peer. -/
def addSent (s : RealData H) (proc : Pid) (fd : Int) (count : Nat) : SockId → Nat :=
  match s.world.getInfosSocket proc fd with
  | none => s.waiting
  | some x =>
      match s.world.commGetPeer x with
      | .ok (some y) => Function.update s.waiting y (s.waiting y + count)
      | _ => s.waiting

/-- The bytes received on a socket are gone. -/
def dropReceived (s : RealData H) (proc : Pid) (fd : Int) (got : Nat) : SockId → Nat :=
  match s.world.getInfosSocket proc fd with
  | none => s.waiting
  | some y => Function.update s.waiting y (s.waiting y - got)

def perform (s : RealData H) : RealCall → Result (RealData H)
  | .send how proc fd count => do
      let world ← s.world.sendOut how proc fd count
      return { s with world, waiting := s.addSent proc fd count }
  | .enter how proc fd => do
      let world ← s.world.receiveIn how proc fd
      return { s with world, inside := (proc, fd) :: s.inside }
  | .receive proc fd _ got =>
      .ok { s with waiting := s.dropReceived proc fd got, inside := s.inside.erase (proc, fd) }

/-- A tracee makes one call after the other. -/
def InTurn (s : RealData H) : RealCall → Prop
  | .send _ proc _ _ | .enter _ proc _ => ∀ call ∈ s.inside, call.1 ≠ proc
  | .receive proc fd _ _ => (proc, fd) ∈ s.inside

/-- What a kernel may do: a call that receives gets no more than it has room for and no more than
    was sent. It may get less, or nothing at all if it fails. -/
def Delivers (s : RealData H) : RealCall → Prop
  | .receive proc fd room got => got ≤ room ∧ ∀ y ∈ s.world.getInfosSocket proc fd, got ≤ s.waiting y
  | _ => True

/-- A call of a tracee on an end in `E`. -/
def Step (E : Pid → Int → Prop) (s : RealData H) (call : RealCall) (s' : RealData H) : Prop :=
  E call.place.1 call.place.2 ∧ s.InTurn call ∧ s.Delivers call ∧ s.perform call = .ok s'

/-- The calls on a socket that the kernel is to run. -/
def receivers (s : RealData H) (y : SockId) : Nat :=
  s.inside.countP fun call => s.world.getInfosSocket call.1 call.2 = some y

/-- The tasks for the end of a process. -/
def tasks (s : RealData H) (q : Pid) : Nat := (s.world.mailboxes (s.world.procs q).host).length

variable {E : Pid → Int → Prop} {s s' s₀ : RealData H} {call : RealCall} {q : Pid} {gd : Int}
  {x y : SockId}

theorem perform_send (wired : s.world.Wired q gd x y) (how : Outgoing) (count : Nat) :
    ∃ w' tasks, s.perform (.send how q gd count) =
        .ok { s with world := w', waiting := Function.update s.waiting y (s.waiting y + count) } ∧
      s.world.SameWires w' ∧ tasks.length = (if 0 < toCInt count then 1 else 0) ∧
      w'.mailboxes = Function.update s.world.mailboxes (s.world.procs (s.world.socket y).fd.proc).host
        (s.world.mailboxes (s.world.procs (s.world.socket y).fd.proc).host ++ tasks) := by
  obtain ⟨w', tasks, sends, same, number, mailboxes⟩ := announce_of_wired wired count
  refine ⟨w', tasks, ?_, same, number, mailboxes⟩
  simp only [perform, sendOut_of_wired wired, sends, addSent, wired.opened, wired.peer]
  rfl

theorem perform_enter (wired : s.world.Wired q gd y x) (how : Incoming) :
    s.perform (.enter how q gd) = .ok s' ↔ ∃ task rest,
      s.world.mailboxes (s.world.procs q).host = task :: rest ∧
      s' = { s with world := s.world.takeTask (s.world.procs q).host rest, inside := (q, gd) :: s.inside } := by
  simp only [perform, receiveIn_of_wired wired, bind_eq_ok, pure_eq_ok, awaitTask_eq_ok wired]
  constructor
  · rintro ⟨_, ⟨task, rest, queue, rfl⟩, rfl⟩
    exact ⟨task, rest, queue, rfl⟩
  · rintro ⟨task, rest, queue, rfl⟩
    exact ⟨_, ⟨task, rest, queue, rfl⟩, rfl⟩

/-- The wiring stays, whatever the calls on the ends do. -/
theorem Step.sameWires (connected : Connected E s.world) (step : Step E s call s') :
    s.world.SameWires s'.world := by
  obtain ⟨here, -, -, done⟩ := step
  obtain ⟨_, _, _, _, wired, -⟩ := connected _ _ here
  cases call with
  | send how p fd count =>
      obtain ⟨w', _, sends, same, -⟩ := perform_send wired how count
      cases sends.symm.trans done
      exact same
  | enter how p fd =>
      obtain ⟨_, _, -, rfl⟩ := (perform_enter wired how).mp done
      exact sameWires_takeTask ..
  | receive p fd room got =>
      cases done
      exact SameEnds.rfl.wires

/-- What a call does to the tasks, the bytes and the calls inside of one end `y` with peer `x`. -/
structure Moves (s : RealData H) (call : RealCall) (s' : RealData H) (q : Pid) (x y : SockId) : Prop where
  tasks : s'.tasks q + call.entered s.world.getInfosSocket y =
    s.tasks q + call.announced s.world.getInfosSocket x
  bytes : s'.waiting y + call.received s.world.getInfosSocket y =
    s.waiting y + call.sent s.world.getInfosSocket x
  receivers : s'.receivers y + call.returned s.world.getInfosSocket y =
    s.receivers y + call.entered s.world.getInfosSocket y

section

variable (connected : Connected E s.world) (apart : Apart E s.world) (here : E q gd)
  (wired : s.world.Wired q gd y x) {p : Pid} {fd : Int} (there : E p fd)

include connected apart here wired there

theorem moves_send {how : Outgoing} {count : Nat} (done : s.perform (.send how p fd count) = .ok s') :
    Moves s (.send how p fd count) s' q x y := by
  obtain ⟨x', y', q', gd', sender, there', receiver⟩ := connected p fd there
  obtain ⟨w', tasks, sends, same, number, mailboxes⟩ := perform_send sender how count
  cases sends.symm.trans done
  have target := apart.host_eq_iff here wired there' receiver
  have source := connected.peer_eq_iff here wired there' receiver
  rw [receiver.place] at mailboxes
  refine ⟨?_, ?_, ?_⟩
  · by_cases peer : y = y'
    · simp [RealData.tasks, mailboxes, same.procs, target.mpr peer, source.mpr peer, number,
        RealCall.announced, RealCall.entered, sender.opened]
    · simp [RealData.tasks, mailboxes, same.procs, mt target.mp peer, Ne.symm (mt source.mp peer),
        RealCall.announced, RealCall.entered, sender.opened]
  · by_cases peer : y = y'
    · simp [peer, source.mpr peer, RealCall.sent, RealCall.received, sender.opened]
    · simp [peer, Ne.symm (mt source.mp peer), RealCall.sent, RealCall.received, sender.opened]
  · simp only [RealData.receivers, getInfosSocket_congr same.procs, RealCall.returned, RealCall.entered]

theorem moves_enter {how : Incoming} (done : s.perform (.enter how p fd) = .ok s') :
    Moves s (.enter how p fd) s' q x y := by
  obtain ⟨y', x', _, _, receiver, -⟩ := connected p fd there
  obtain ⟨task, rest, queue, rfl⟩ := (perform_enter receiver how).mp done
  have target := apart.host_eq_iff here wired there receiver
  refine ⟨?_, by simp [RealCall.sent, RealCall.received], ?_⟩
  · by_cases own : y = y'
    · simp [RealData.tasks, takeTask, target.mpr own, queue, own, RealCall.announced, RealCall.entered,
        receiver.opened]
    · simp [RealData.tasks, takeTask, mt target.mp own, Ne.symm own, RealCall.announced, RealCall.entered,
        receiver.opened]
  · simp only [RealData.receivers, List.countP_cons, RealCall.returned, RealCall.entered, decide_eq_true_eq]
    rfl

omit apart here wired in
theorem moves_receive {room got : Nat} (inside : (p, fd) ∈ s.inside)
    (delivers : s.Delivers (.receive p fd room got))
    (done : s.perform (.receive p fd room got) = .ok s') : Moves s (.receive p fd room got) s' q x y := by
  obtain ⟨y', x', _, _, receiver, -⟩ := connected p fd there
  cases done
  have sent := delivers.2 y' receiver.opened
  refine ⟨by simp [RealData.tasks, RealCall.announced, RealCall.entered], ?_, ?_⟩
  · by_cases own : y = y'
    · simp [own, dropReceived, RealCall.sent, RealCall.received, receiver.opened, Nat.sub_add_cancel sent]
    · simp [own, Ne.symm own, dropReceived, RealCall.sent, RealCall.received, receiver.opened]
  · have counted := (List.perm_cons_erase inside).countP_eq fun call : Pid × Int =>
      decide (s.world.getInfosSocket call.1 call.2 = some y)
    simp only [List.countP_cons, decide_eq_true_eq] at counted
    exact counted.symm

end

theorem Step.moves (connected : Connected E s.world) (apart : Apart E s.world) (step : Step E s call s')
    (here : E q gd) (wired : s.world.Wired q gd y x) : Moves s call s' q x y := by
  obtain ⟨there, turn, delivers, done⟩ := step
  cases call with
  | send how p fd count => exact moves_send connected apart here wired there done
  | enter how p fd => exact moves_enter connected apart here wired there done
  | receive p fd room got => exact moves_receive connected there turn delivers done

/-! ## Whole runs -/

/-- Nothing was sent yet on the connections of `E`, which have their ends on different hosts. -/
structure Idle (E : Pid → Int → Prop) (s : RealData H) : Prop where
  connected : Connected E s.world
  apart : Apart E s.world
  empty : ∀ p fd, E p fd → s.tasks p = 0
  unread : ∀ y, s.waiting y = 0
  outside : s.inside = []

theorem sameWires_of_run {calls : List RealCall} (connected : Connected E s₀.world)
    (run : Run (Step E) s₀ calls s) : s₀.world.SameWires s.world := by
  refine run.invariant (fun s => s₀.world.SameWires s.world) SameEnds.rfl.wires ?_
  intro s call s' same step
  exact same.trans (step.sameWires (connected.keep same))

/-- What each call of a run does to one end, with the tables as they were at the start. -/
theorem moves_of_run {calls : List RealCall} (idle : Idle E s₀) (run : Run (Step E) s₀ calls s)
    (step : Step E s call s') (here : E q gd) (wired : s₀.world.Wired q gd y x) :
    s.world.getInfosSocket = s₀.world.getInfosSocket ∧ Moves s call s' q x y := by
  have same := sameWires_of_run idle.connected run
  exact ⟨funext₂ (getInfosSocket_congr same.procs),
    step.moves (idle.connected.keep same) (idle.apart.keep same) here (wired.keep same)⟩

/-- The tasks that were sent to one end were taken there or wait. -/
theorem tasks_of_run {calls : List RealCall} (idle : Idle E s₀) (run : Run (Step E) s₀ calls s)
    (here : E q gd) (wired : s₀.world.Wired q gd y x) :
    (calls.map (RealCall.announced s₀.world.getInfosSocket x)).sum =
      (calls.map (RealCall.entered s₀.world.getInfosSocket y)).sum + s.tasks q := by
  induction run with
  | start => simp [idle.empty q gd here]
  | next run step ih =>
      obtain ⟨tables, moves⟩ := moves_of_run idle run step here wired
      have tasks := moves.tasks
      rw [tables] at tasks
      simp only [List.map_append, List.map_cons, List.map_nil, List.sum_append, List.sum_cons, List.sum_nil]
      omega

theorem enter_iff (wired : s.world.Wired q gd y x) (how : Incoming) :
    (∃ s', s.perform (.enter how q gd) = .ok s') ↔ 0 < s.tasks q := by
  constructor
  · rintro ⟨s', done⟩
    obtain ⟨task, rest, queue, -⟩ := (perform_enter wired how).mp done
    simp [tasks, queue]
  · intro some_
    obtain ⟨task, rest, queue⟩ := List.exists_cons_of_length_pos some_
    exact ⟨_, (perform_enter wired how).mpr ⟨task, rest, queue, rfl⟩⟩

omit [DecidableEq H] in
theorem idle_of_joined {ends : Side → Endpoint} {w : World H} (joined : Joined ends w)
    (empty : ∀ host, w.mailboxes host = []) : Idle (EndOf ends) ⟨w, fun _ => 0, []⟩ where
  connected := joined.connected
  apart := by
    rintro _ _ x _ _ x' ⟨i, rfl, rfl⟩ opened ⟨j, rfl, rfl⟩ opened' host
    rcases i.eq_or_eq_other j with rfl | rfl
    · exact Option.some.inj (opened.symm.trans opened')
    · exact absurd host.symm (joined.host_ne i)
  empty p _ _ := by simp [tasks, empty]
  unread _ := rfl
  outside := rfl

theorem endOf_client : EndOf clientAndServer 1 3 := ⟨.left, rfl, rfl⟩

theorem endOf_server : EndOf clientAndServer 0 4 := ⟨.right, rfl, rfl⟩

/-- A client has written four bytes, and the server has entered a read. -/
theorem exists_entered : ∃ s₀ s : RealData (Fin 3), Idle (EndOf clientAndServer) s₀ ∧
    s₀.world.Wired 1 3 1 3 ∧ s₀.world.Wired 0 4 3 1 ∧
    Run (Guarded (fun _ call => call.Sized 4) (Step (EndOf clientAndServer))) s₀
      [.send .write 1 3 4, .enter .read 0 4] s ∧ (0, 4) ∈ s.inside ∧ s.waiting 3 = 4 := by
  obtain ⟨w₀, joined, empty⟩ := exists_joined
  have idle := idle_of_joined joined empty
  have client : w₀.Wired 1 3 1 3 := joined.wired .left
  have server : w₀.Wired 0 4 3 1 := joined.wired .right
  obtain ⟨w₁, _, sends, -⟩ :=
    perform_send (show (RealData.mk w₀ (fun _ => 0) []).world.Wired 1 3 1 3 from client) .write 4
  have first : Step (EndOf clientAndServer) ⟨w₀, fun _ => 0, []⟩ (.send .write 1 3 4) _ :=
    ⟨endOf_client, List.forall_mem_nil _, trivial, sends⟩
  have told := tasks_of_run idle (.next .start first) endOf_server server
  have same := first.sameWires idle.connected
  obtain ⟨s, entered⟩ := (enter_iff (server.keep same) .read).mpr (by
    simp [RealCall.announced, RealCall.entered, client.opened, toCInt] at told
    exact Nat.le_of_eq told)
  obtain ⟨_, _, -, rfl⟩ := (perform_enter (server.keep same) .read).mp entered
  refine ⟨_, _, idle, client, server, .next (.next .start ⟨Nat.le_refl 4, first⟩)
    ⟨trivial, endOf_server, ?_, trivial, entered⟩, List.mem_cons_self .., ?_⟩
  · exact List.forall_mem_nil _
  · simp

/-- In any order of calls, and whatever the kernel gives to those that receive, one that receives can
    be entered if and only if more calls sent something on the peer than were entered before. -/
theorem real_receive_entered_iff {calls : List RealCall} (idle : Idle E s₀)
    (run : Run (Step E) s₀ calls s) (here : E q gd) (wired : s₀.world.Wired q gd y x) (how : Incoming) :
    (∃ s', s.perform (.enter how q gd) = .ok s') ↔
      (calls.map (RealCall.entered s₀.world.getInfosSocket y)).sum <
        (calls.map (RealCall.announced s₀.world.getInfosSocket x)).sum := by
  have kept := wired.keep (sameWires_of_run idle.connected run)
  rw [enter_iff kept, tasks_of_run idle run here wired]
  omega

/-- The server reads two bytes of the four; the next read waits for another write. -/
theorem rest_of_message_waits : ∃ (s₀ s : RealData (Fin 3)) (calls : List RealCall),
    Idle (EndOf clientAndServer) s₀ ∧ Run (Step (EndOf clientAndServer)) s₀ calls s ∧
    s.waiting 3 = 2 ∧ ¬ ∃ s', s.perform (.enter .read 0 4) = .ok s' := by
  obtain ⟨s₀, s, idle, client, server, sized, inside, four⟩ := exists_entered
  have run := sized.mono fun _ _ _ step => step.2
  have kept := server.keep (sameWires_of_run idle.connected run)
  have delivers : s.Delivers (.receive 0 4 2 2) := by
    refine ⟨Nat.le_refl 2, ?_⟩
    intro y opened
    cases kept.opened.symm.trans opened
    omega
  have run' := run.next (⟨endOf_server, inside, delivers, rfl⟩ :
    Step (EndOf clientAndServer) s (.receive 0 4 2 2) _)
  refine ⟨s₀, _, _, idle, run', ?_, ?_⟩
  · simp [dropReceived, kept.opened, four]
  · rw [real_receive_entered_iff idle run' endOf_server server .read]
    simp [RealCall.entered, RealCall.announced, client.opened, server.opened, toCInt]

/-! ## Messages of one size -/

omit [DecidableEq H] in
/-- What a call moves, against the tasks and the calls that it changes the number of. -/
theorem amounts_of_sized {n : Nat} (sized : call.Sized n) (delivers : s.Delivers call)
    (opened : Pid → Int → Option SockId) (x y : SockId) :
    n * call.announced opened x ≤ call.sent opened x ∧
      call.received opened y ≤ n * call.returned opened y := by
  cases call with
  | send how proc fd count =>
      have long : n ≤ count := sized
      simp only [RealCall.announced, RealCall.sent, RealCall.received, RealCall.returned]
      split_ifs <;> simp_all
  | enter => simp [RealCall.announced, RealCall.sent, RealCall.received, RealCall.returned]
  | receive proc fd room got =>
      have short : got ≤ n := delivers.1.trans sized
      simp only [RealCall.announced, RealCall.sent, RealCall.received, RealCall.returned]
      split_ifs <;> simp_all

theorem whole_iff {n : Nat} (some_ : 0 < toCInt n) (sized : call.Sized n)
    (opened : Pid → Int → Option SockId) (x y : SockId) :
    call.Whole opened n x y ↔ call.sent opened x = n * call.announced opened x ∧
      call.received opened y = n * call.returned opened y := by
  have positive : 0 < n := by
    by_contra none_
    obtain rfl : n = 0 := by omega
    exact absurd some_ (by decide)
  cases call with
  | send how proc fd count =>
      have long : n ≤ count := sized
      simp only [RealCall.Whole, RealCall.announced, RealCall.sent, RealCall.received, RealCall.returned]
      by_cases own : opened proc fd = some x
      · by_cases whole : count = n
        · simp [own, whole, some_]
        · have more : n < count := Nat.lt_of_le_of_ne long (Ne.symm whole)
          simp only [own, whole, if_true, true_and, forall_const, false_iff]
          split_ifs <;> omega
      · simp [own]
  | enter => simp [RealCall.Whole, RealCall.announced, RealCall.sent, RealCall.received, RealCall.returned]
  | receive proc fd room got =>
      simp only [RealCall.Whole, RealCall.announced, RealCall.sent, RealCall.received, RealCall.returned]
      split_ifs with own <;> simp [own]

/-- Where no call sends less than `n` bytes and none receives more, so many bytes wait for each task and
    for each call that took its task, however little the kernel gives to the calls: none of them
    waits for something that was not sent. No other bytes wait if and only if each call moved just
    `n`. -/
theorem entered_receives_find_data {n : Nat} {calls : List RealCall} (idle : Idle E s₀)
    (some_ : 0 < toCInt n) (run : Run (Guarded (fun _ call => call.Sized n) (Step E)) s₀ calls s)
    (here : E q gd) (wired : s₀.world.Wired q gd y x) :
    n * (s.tasks q + s.receivers y) ≤ s.waiting y ∧
      ((q, gd) ∈ s.inside → n ≤ s.waiting y) ∧
      (s.waiting y = n * (s.tasks q + s.receivers y) ↔
        ∀ call ∈ calls, call.Whole s₀.world.getInfosSocket n x y) := by
  have enough : n * (s.tasks q + s.receivers y) ≤ s.waiting y ∧
      (s.waiting y = n * (s.tasks q + s.receivers y) ↔
        ∀ call ∈ calls, call.Whole s₀.world.getInfosSocket n x y) := by
    induction run with
    | start => simp [idle.unread, idle.empty q gd here, receivers, idle.outside]
    | @next _ call s s' run step ih =>
        obtain ⟨sized, step⟩ := step
        obtain ⟨tables, tasks, bytes, receivers⟩ :=
          moves_of_run idle (run.mono fun _ _ _ step => step.2) step here wired
        rw [tables] at tasks bytes receivers
        obtain ⟨sent, received⟩ := amounts_of_sized sized step.2.2.1 s₀.world.getInfosSocket x y
        have shares : n * (s'.tasks q + s'.receivers y) + n * call.returned s₀.world.getInfosSocket y =
            n * (s.tasks q + s.receivers y) + n * call.announced s₀.world.getInfosSocket x := by
          rw [← Nat.mul_add, ← Nat.mul_add]
          congr 1
          omega
        rw [List.forall_mem_append, List.forall_mem_singleton, whole_iff some_ sized, ← ih.2]
        have before := ih.1
        omega
  refine ⟨enough.1, ?_, enough.2⟩
  intro inside
  have kept := wired.keep (sameWires_of_run idle.connected (run.mono fun _ _ _ step => step.2))
  have receiver : 0 < s.receivers y := List.countP_pos_iff.mpr ⟨(q, gd), inside, by simp [kept.opened]⟩
  exact (Nat.le_mul_of_pos_right n (by omega)).trans enough.1

/-- The four bytes wait for the server. -/
theorem entered_read_finds_message : ∃ s : RealData (Fin 3), (0, 4) ∈ s.inside ∧ 4 ≤ s.waiting 3 := by
  obtain ⟨s₀, s, idle, client, server, sized, inside, -⟩ := exists_entered
  obtain ⟨-, finds, -⟩ := entered_receives_find_data idle (by decide) sized endOf_server server
  exact ⟨s, inside, finds inside⟩

end RealData

end Simterpose
