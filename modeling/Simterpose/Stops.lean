import Simterpose.Dispatch
import Simterpose.Files
import Simterpose.RemoteCopies

/-! # The stops of a call, with the tables

`Simterpose.Dispatch` follows `in_syscall` through the stops of any calls and leaves the
tables open. Here are the handlers of the calls that make and close descriptors with
both, the flags and the tables. A call of a tracee has two stops: at its entry the result
register holds `-ENOSYS`, at its exit the kernel's result.
-/

namespace Simterpose

open Lib

def enosys : Int := 38

/-- A path argument: an address in the memory of the tracee. -/
structure Pathname where
  mem : PartialMemory
  address : Nat

/-- The bytes that `open` and `creat` copy of a path are there. -/
def Pathname.Mapped (path : Pathname) : Prop := path.mem.Mapped path.address 200

instance (path : Pathname) : Decidable path.Mapped :=
  inferInstanceAs (Decidable (path.mem.Mapped path.address 200))

/-- The copy of the path for the log: 200 bytes, however long the path is. -/
def Pathname.copy (path : Pathname) (syscall : String) : Result Unit :=
  match ptraceCpyInto path.mem path.address syscall (fun _ => 0) 0 200 with
  | none => .error .endless
  | some (.error _) => .error .systemError
  | some (.ok _) => .ok ()

theorem Pathname.copy_eq (path : Pathname) (syscall : String) :
    path.copy syscall = if path.Mapped then .ok () else .error .systemError := by
  have words : path.Mapped ↔ path.mem.Mapped path.address (wholeWords 200) := Iff.rfl
  unfold copy
  split_ifs with mapped
  · rw [ptraceCpyInto_of_mapped (by decide) (words.mp mapped)]
  · rw [ptraceCpyInto_of_not_mapped (by decide) fun whole => mapped (words.mpr whole)]

/-- A call that makes or closes descriptors; of `fcntl` the commands that duplicate. -/
inductive FdCall where
  | openFile (path : Pathname) (flags mode : Nat)
  | creat (path : Pathname) (mode : Nat)
  | socket (domain type protocol : Int)
  | dup (oldfd : Int)
  | dup2 (oldfd newfd : Int)
  | dupfd (fd : Int) (cloexec : Bool)
  | close (fd : Int)

/-- What `Simterpose.Dispatch` knows of the call. -/
def FdCall.syscall : FdCall → Syscall
  | .openFile .. => .openFile
  | .creat .. => .creat
  | .socket domain type protocol => .socket domain type protocol
  | .dup oldfd => .dup oldfd
  | .dup2 oldfd newfd => .dup2 oldfd newfd
  | .dupfd .. => .fcntl
  | .close fd => .close fd

/-- The status `waitpid` stores. -/
abbrev WaitStatus := Nat

namespace WaitStatus

def wifstopped (status : WaitStatus) : Bool := status &&& 0xff = 0x7f
def wstopsig (status : WaitStatus) : Nat := (status >>> 8) &&& 0xff
def getevent (status : WaitStatus) : Nat := (status >>> 16) &&& 0xffff

/-- `proc_event_exec`; `PTRACE_EVENT_EXEC` is 4. -/
def procEventExec (status : WaitStatus) : Bool := status.wifstopped && status.getevent = 4

end WaitStatus

def PtraceEvent.number : PtraceEvent → Nat
  | .fork => 1
  | .vfork => 2
  | .clone => 3
  | .exec => 4

/-- The status of a stopped tracee. -/
def Stop.status : Stop → WaitStatus
  | .entry | .exit => ((sigtrap ||| 0x80) <<< 8) ||| 0x7f
  | .event e => (e.number <<< 16) ||| (sigtrap <<< 8) ||| 0x7f

/-- The tables and the flags of all processes. -/
structure Traced (H : Type) where
  world : World H
  inSyscall : Pid → Bool

/-- What the handler of a call does to the tables at the exit. -/
def World.handleExit {H : Type} [DecidableEq H] (w : World H) (proc : Pid) (ret : Int) :
    FdCall → Result (World H)
  | .openFile path flags mode => do
      path.copy "open"
      return w.syscallOpen proc flags mode ret
  | .creat path mode => do
      path.copy "creat"
      return w.syscallCreatPost proc mode ret
  | .socket domain type protocol => w.syscallSocket proc domain type protocol ret
  | .dup oldfd => w.syscallDupPost proc oldfd ret
  | .dup2 oldfd newfd => w.syscallDup2Post proc oldfd newfd
  | .dupfd fd cloexec =>
      w.processFcntlCall proc fd (if cloexec then .dupfdCloexec else .dupfd) ret
  | .close fd => if ret = 0 then w.processCloseCall proc fd else .ok w

namespace Traced

section

variable {H : Type} (s : Traced H)

def procInside (proc : Pid) : Traced H :=
  { s with inSyscall := Function.update s.inSyscall proc true }

def procOutside (proc : Pid) : Traced H :=
  { s with inSyscall := Function.update s.inSyscall proc false }

/-- The handlers that leave the entry of a call alone. -/
def atExit (proc : Pid) (post : World H → Result (World H)) : Result (Traced H) :=
  if s.inSyscall proc then do
    let w ← post s.world
    return { s.procOutside proc with world := w }
  else .ok (s.procInside proc)

/-- `syscall_clone`. At an event `pidClone` is what `PTRACE_GETEVENTMSG` tells, and the
    second component of the result is the process for which a descriptor was made. -/
def syscallClone (proc : Pid) (status : WaitStatus) (pidClone : Pid) (own : List Int) :
    Result (Traced H × Option Pid) :=
  if status.wstopsig &&& (sigtrap ||| 0x80) ≠ 0 then do
    let s ← s.atExit proc fun w => .ok w
    return (s, none)
  else if status.procEventExec then do
    let s := s.procOutside proc
    let w ← s.world.cloneProcess proc pidClone own
    -- the descriptor of the clone is new, so its flag is down
    let s := { s.procOutside pidClone with world := w }
    return (s.procInside proc, some pidClone)
  else .ok (s, none)

end

variable {H : Type} [DecidableEq H] (s : Traced H)

/-- The handler of a call at one of its stops, with the result register. That of `close`
    puts the flag back only when the kernel closed the descriptor. -/
def stop (proc : Pid) (ret : Int) (call : FdCall) : Result (Traced H) :=
  match call with
  | .close _ =>
      if ret ≠ 0 ∧ s.inSyscall proc then .ok s else s.atExit proc (·.handleExit proc ret call)
  | _ => s.atExit proc (·.handleExit proc ret call)

end Traced

/-- A call that went through its two stops. -/
structure Completed where
  proc : Pid
  call : FdCall
  ret : Int

namespace Traced

section

variable {H : Type} {s s' : Traced H}

theorem atExit_ok {proc : Pid} {post : World H → Result (World H)}
    (handled : s.atExit proc post = .ok s') :
    s.inSyscall proc = false ∧ s' = s.procInside proc ∨
      s.inSyscall proc = true ∧
        ∃ w, post s.world = .ok w ∧ s' = { s.procOutside proc with world := w } := by
  unfold atExit at handled
  split at handled
  · rename_i inside
    obtain ⟨w, done, rfl⟩ := bind_pure_eq_ok.mp handled
    exact .inr ⟨inside, w, done, rfl⟩
  · rename_i outside
    cases handled
    exact .inl ⟨by simpa using outside, rfl⟩

/-- A handler of two sides leaves the flag where `bySide` leaves it. -/
theorem bySide_of_atExit {proc : Pid} {post : World H → Result (World H)} {handler : Handler}
    {place : Stop} (agrees : ∀ w, post s.world = .ok w → handler ⟨place, false⟩ =
      .ok (⟨place, false⟩, .processContinue)) (handled : s.atExit proc post = .ok s') :
    Tracee.bySide Tracee.done handler ⟨place, s.inSyscall proc⟩ =
      .ok (⟨place, s'.inSyscall proc⟩, .processContinue) := by
  rcases atExit_ok handled with ⟨outside, rfl⟩ | ⟨inside, w, done, rfl⟩
  · simp [Tracee.bySide, Tracee.procEntering, outside, Tracee.procInside, Tracee.done, procInside]
  · simp [Tracee.bySide, Tracee.procEntering, inside, Tracee.procOutside, agrees w done, procOutside]

/-- The result that the handler of a completed call goes by: when the flag is up from an
    earlier call, the entry is taken for the exit. `close` acts at its exit in any case. -/
def seen (s : Traced H) (c : Completed) : Int :=
  match c.call with
  | .close _ => c.ret
  | _ => if s.inSyscall c.proc then -enosys else c.ret

/-- The flags after a completed call. -/
def flagsAfter (s : Traced H) (c : Completed) : Pid → Bool :=
  match c.call with
  | .close _ => Function.update s.inSyscall c.proc (c.ret ≠ 0)
  | _ => s.inSyscall

theorem atExit_twice (s : Traced H) (proc : Pid) (first second : World H → Result (World H)) :
    (s.atExit proc first >>= fun s => s.atExit proc second) =
      ((if s.inSyscall proc then first s.world else second s.world) >>= fun w =>
        .ok { world := w, inSyscall := s.inSyscall }) := by
  have back : ∀ flag, s.inSyscall proc = flag → ∀ between,
      Function.update (Function.update s.inSyscall proc between) proc flag = s.inSyscall := by
    rintro flag rfl between
    rw [Function.update_idem, Function.update_eq_self]
  cases flag : s.inSyscall proc with
  | false =>
      have entered : s.atExit proc first = .ok (s.procInside proc) := by simp [atExit, flag]
      rw [entered]
      change (s.procInside proc).atExit proc second = _
      simp only [atExit, procInside, procOutside, Function.update_self, Bool.false_eq_true, if_true,
        if_false, back false flag]
      rfl
  | true =>
      simp only [atExit, flag, if_true]
      cases first s.world with
      | error => rfl
      | ok w =>
          change atExit { s.procOutside proc with world := w } proc second = _
          simp only [atExit, procInside, procOutside, Function.update_self, Bool.false_eq_true,
            if_false, back true flag]
          rfl

theorem wstopsig_status (place : Stop) : place.status.wstopsig = place.wstopsig := by
  cases place with
  | entry | exit => rfl
  | event e => cases e <;> rfl

theorem dispatch_of_syscallClone {proc pidClone : Pid} {own : List Int} {made : Option Pid}
    {place : Stop} (handled : s.syscallClone proc place.status pidClone own = .ok (s', made)) :
    Tracee.syscallClone ⟨place, s.inSyscall proc⟩ =
      .ok (⟨place, s'.inSyscall proc⟩, .processContinue) := by
  have regular : place.wstopsig &&& (sigtrap ||| 0x80) ≠ 0 := by
    cases place with
    | entry | exit => decide
    | event e => exact (by decide : sigtrap &&& (sigtrap ||| 0x80) ≠ 0)
  unfold syscallClone at handled
  rw [wstopsig_status, if_pos regular] at handled
  obtain ⟨s₁, exited, ⟨⟩⟩ := bind_pure_eq_ok.mp handled
  unfold Tracee.syscallClone
  rw [if_pos regular]
  exact bySide_of_atExit (fun _ _ => rfl) exited

end

variable {H : Type} [DecidableEq H] {s s' : Traced H}

def complete (s : Traced H) (c : Completed) : Result (Traced H) := do
  let s ← s.stop c.proc (-enosys) c.call
  s.stop c.proc c.ret c.call

theorem complete_eq (s : Traced H) (c : Completed) :
    s.complete c = (s.world.handleExit c.proc (s.seen c) c.call >>= fun w =>
      .ok { world := w, inSyscall := s.flagsAfter c }) := by
  obtain ⟨proc, call, ret⟩ := c
  cases call with
  | close fd =>
      have entered : s.stop proc (-enosys) (.close fd) = .ok (s.procInside proc) := by
        cases flag : s.inSyscall proc with
        | false => simp [stop, atExit, flag]
        | true => 
            have up : s.procInside proc = s := by
              simp [procInside, ← flag]
            simp [stop, flag, up, enosys]
      simp only [complete, entered, seen, flagsAfter]
      change (s.procInside proc).stop proc ret (.close fd) = _
      by_cases closed : ret = 0
      · simp [stop, closed, atExit, procInside, procOutside, World.handleExit]
        rfl
      · simp [stop, closed, procInside, World.handleExit]
        rfl
  | openFile | creat | socket | dup | dup2 | dupfd =>
      simp only [complete, stop]
      rw [atExit_twice]
      simp only [seen, flagsAfter]
      split <;> rfl

/-- What a stop does to the flag is what the loop of `process_handle` goes on with. -/
theorem dispatch_of_stop {proc : Pid} {ret : Int} {call : FdCall} (place : Stop)
    (handled : s.stop proc ret call = .ok s') :
    Tracee.dispatch s.world proc ret call.syscall ⟨place, s.inSyscall proc⟩ =
      .ok (⟨place, s'.inSyscall proc⟩, .processContinue) := by
  cases call with
  | openFile | creat =>
      simp only [stop] at handled
      exact bySide_of_atExit (fun _ _ => rfl) handled
  | socket | dup | dup2 =>
      simp only [stop] at handled
      simp only [FdCall.syscall, Tracee.dispatch, Tracee.syscallSocket, Tracee.syscallDup,
        Tracee.syscallDup2]
      refine bySide_of_atExit ?_ handled
      exact fun w done => bind_eq_ok.mpr ⟨w, done, rfl⟩
  | dupfd =>
      simp only [stop] at handled
      simp only [FdCall.syscall, Tracee.dispatch, Tracee.syscallFcntl]
      refine bySide_of_atExit ?_ handled
      intro w done
      simp only [World.handleExit, World.processFcntlCall] at done
      split at done
      · cases done
      · rename_i succeeded
        exact if_neg succeeded
  | close fd =>
      simp only [stop] at handled
      simp only [FdCall.syscall, Tracee.dispatch, Tracee.syscallClose, Tracee.procEntering]
      split at handled
      · rename_i failed
        cases handled
        simp [failed.1, failed.2, Tracee.done]
      · rename_i other
        rcases atExit_ok handled with ⟨outside, rfl⟩ | ⟨inside, w, done, rfl⟩
        · simp [outside, procInside, Tracee.procInside, Tracee.done]
        · have closed : ret = 0 := by
            by_contra failed
            exact other ⟨failed, inside⟩
          rw [World.handleExit, if_pos closed] at done
          simp only [inside, closed, done, procOutside, Function.update_self]
          rfl

end Traced

end Simterpose
