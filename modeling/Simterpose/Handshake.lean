import Simterpose.Network

/-! # The meeting of connect and accept

`syscall_accept` and `syscall_connect_pre` hand a stream from the server to the client
and wait for each other on the two semaphores of the stream. A process can be suspended
at each semaphore operation, so the two handlers are cut there: between two operations a
process stands at a program point, and a turn takes it from one point to the next.
-/

namespace Simterpose

open Lib

/-- The two semaphores of a stream. -/
inductive Sem where
  | client | server
  deriving Repr, DecidableEq

section

variable {H : Type}

def Stream.count (s : Stream H) : Sem → Nat
  | .client => s.semClient
  | .server => s.semServer

def Stream.setCount (s : Stream H) (sem : Sem) (n : Nat) : Stream H :=
  match sem with
  | .client => { s with semClient := n }
  | .server => { s with semServer := n }

end

/-- Where a process stands in `accept` or `connect`, with the pointers the handler holds. -/
inductive Point where
  /-- in no such call -/
  | running
  /-- `accept`, before it takes the server semaphore -/
  | acceptIn (sockfd : Int) (fileDesc : DescRef)
  /-- `accept`, before it releases the client semaphore -/
  | acceptTook (sockfd : Int) (fileDesc : DescRef)
  /-- `accept`, before it looks for a request -/
  | acceptLook (sockfd : Int) (fileDesc : DescRef)
  /-- `accept`, before it takes the server semaphore for the second time -/
  | acceptOut (sockfd : Int) (fileDesc : DescRef)
  /-- `accept` found nobody, and the kernel runs the call -/
  | acceptKernel
  /-- `connect`, before it releases the server semaphore -/
  | connectAsked (sockfd : Int) (fileDesc : SockId)
  /-- `connect`, before it takes the client semaphore -/
  | connectWait (sockfd : Int) (fileDesc : SockId)
  /-- `connect`, before `syscall_connect_post` -/
  | connectPost (sockfd : Int)
  deriving Repr, DecidableEq

namespace World

variable {H : Type} (w : World H)

/-- Store the stream of a descriptor. -/
def setStream (ref : DescRef) (stream : Option StreamId) : World H :=
  match ref with
  | .plain d => { w with descs := w.descs.modify d fun fd => { fd with stream := stream } }
  | .socket is => w.modifySocket is fun s => { s with fd := { s.fd with stream := stream } }

/-- `MSG_sem_acquire` -/
def msgSemAcquire (stream : Option StreamId) (sem : Sem) : Result (World H) :=
  match stream with
  | none => .error .segfault
  | some t =>
      match (w.stream t).count sem with
      | 0 => .error .blocked
      | n + 1 => .ok (w.modifyStream t fun s => s.setCount sem n)

/-- `MSG_sem_release` -/
def msgSemRelease (stream : Option StreamId) (sem : Sem) : Result (World H) :=
  match stream with
  | none => .error .segfault
  | some t => .ok (w.modifyStream t fun s => s.setCount sem (s.count sem + 1))

/-- `syscall_accept` up to its first semaphore operation, with the descriptor it holds on to. -/
def acceptEnter (proc : Pid) (sockfd : Int) : Result (World H × DescRef) :=
  match w.processDescriptorGetFd proc sockfd with
  | none => .error .segfault
  | some fileDesc =>
      let stream : Stream H := { server := some proc, toServer := some (w.procs proc).host }
      let new := w.streams.next
      let w := w.addRefcount fileDesc 1
      let w := { w with streams := w.streams.alloc stream }
      .ok (w.setStream fileDesc (some new), fileDesc)

/-- `syscall_connect_pre` between `process_connect_in_call` and its first semaphore
    operation, with the socket it holds on to. -/
def connectStream (proc : Pid) (sockfd : Int) : Result (World H × SockId) :=
  match w.getInfosSocket proc sockfd with
  | none => .error .segfault
  | some is => do
      match ← w.commGetPeer is with
      | none => .error .segfault
      | some s =>
          match (w.socket s).fd.stream with
          | none => .error .segfault
          | some t =>
              let host := (w.procs proc).host
              let w := w.setStream (.socket is) (some t)
              return (w.modifyStream t fun stream =>
                { stream with client := some proc, toClient := some host }, is)

/-- `syscall_connect_post` -/
def syscallConnectPost (proc : Pid) (sockfd : Int) : Result (World H) :=
  match w.processDescriptorGetFd proc sockfd with
  | none => .error .segfault
  | some fileDesc => do
      let w := w.addRefcount fileDesc 1
      let w ← w.msgSemRelease (w.fileDesc fileDesc).stream .server
      return w.addRefcount fileDesc (-1)

end World

/-- The tables, and where each process stands. -/
structure Meeting (H : Type) where
  world : World H
  point : Pid → Point

/-- One process goes on: it starts a call, or continues the one it is in. `newfd` is the
    descriptor the kernel gives `ptrace_record_socket`, should the process come to it. -/
inductive Turn where
  | accept (proc : Pid) (sockfd : Int)
  | connect (proc : Pid) (sockfd : Int) (sai : SockaddrIn)
  | proceed (proc : Pid) (newfd : Int)
  deriving Repr, DecidableEq

namespace Meeting

variable {H : Type} (m : Meeting H)

/-- All processes run, none is in a call. -/
def start (w : World H) : Meeting H := ⟨w, fun _ => .running⟩

/-- A process reaches a point, with the tables as they are then. -/
def reach (proc : Pid) (w : World H) (point : Point) : Meeting H :=
  ⟨w, Function.update m.point proc point⟩

variable [DecidableEq H]

/-- From one semaphore operation to the next. A turn of a process that sleeps is not
    possible, which `Halt.blocked` stands for. -/
def proceed (proc : Pid) (newfd : Int) : Result (Meeting H) :=
  let w := m.world
  match m.point proc with
  | .running => .error .blocked
  | .acceptIn sockfd fileDesc => do
      let w ← w.msgSemAcquire (w.fileDesc fileDesc).stream .server
      return m.reach proc w (.acceptTook sockfd fileDesc)
  | .acceptTook sockfd fileDesc => do
      let w ← w.msgSemRelease (w.fileDesc fileDesc).stream .client
      return m.reach proc w (.acceptLook sockfd fileDesc)
  | .acceptLook sockfd fileDesc => do
      let (w, sai) ← w.syscallAccept proc sockfd newfd
      match sai with
      | some _ => return m.reach proc w (.acceptOut sockfd fileDesc)
      | none => return m.reach proc (w.addRefcount fileDesc (-1)) .acceptKernel
  | .acceptOut _ fileDesc => do
      let w ← w.msgSemAcquire (w.fileDesc fileDesc).stream .server
      return m.reach proc (w.addRefcount fileDesc (-1)) .running
  | .acceptKernel => .error .blocked
  | .connectAsked sockfd is => do
      let w ← w.msgSemRelease (w.socket is).fd.stream .server
      return m.reach proc w (.connectWait sockfd is)
  | .connectWait sockfd is => do
      let w ← w.msgSemAcquire (w.socket is).fd.stream .client
      return m.reach proc w (.connectPost sockfd)
  | .connectPost sockfd => do
      let w ← w.syscallConnectPost proc sockfd
      return m.reach proc w .running

def turn : Turn → Result (Meeting H)
  | .accept proc sockfd =>
      match m.point proc with
      | .running => do
          let (w, fileDesc) ← m.world.acceptEnter proc sockfd
          return m.reach proc w (.acceptIn sockfd fileDesc)
      | _ => .error .blocked
  | .connect proc sockfd sai =>
      match m.point proc with
      | .running => do
          let o ← m.world.processConnectInCall proc sockfd sai
          if o.waits then
            let (w, is) ← o.world.connectStream proc sockfd
            return m.reach proc w (.connectAsked sockfd is)
          else return m.reach proc o.world .running
      | _ => .error .blocked
  | .proceed proc newfd => m.proceed proc newfd

/-- One labelled turn; new objects are at addresses never used before. -/
def Step (m : Meeting H) (turn : Turn) (m' : Meeting H) : Prop := m.turn turn = .ok m'

/-- Take turns one after another, as long as each is allowed by `guard` and possible. -/
def execute (guard : Meeting H → Turn → Prop) [∀ m turn, Decidable (guard m turn)]
    (m : Meeting H) (turns : List Turn) : Option (List Turn × Meeting H) :=
  perform (fun m turn => (m.turn turn).toOption.map fun m' => (turn, m')) guard m turns

/-- What can be computed of some turns holds after some run. -/
theorem exists_run {guard : Meeting H → Turn → Prop} [∀ m turn, Decidable (guard m turn)]
    {m₀ : Meeting H} {turns : List Turn} {P : List Turn × Meeting H → Prop}
    (found : ∃ r ∈ m₀.execute guard turns, P r) :
    ∃ es m, Run (Guarded guard Step) m₀ es m ∧ P (es, m) := by
  apply Run.exists_of_results (P := fun es m => P (es, m)) _ found
  intro m turn m' done
  exact done

end Meeting

end Simterpose
