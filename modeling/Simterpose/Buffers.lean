import Simterpose.Ptrace
import Simterpose.Delivery

/-! # Buffers of the tracee

`write` and `sendto` take the bytes to send out of a buffer of the tracee, `read` and `recvfrom`
store the bytes of a task there. The two of a pair are separate copies of the same logic. They
differ in the variable that the result goes through: `write` and `read` go by the result register
as it was when the call was entered.
-/

namespace Simterpose

open Lib

/-- `process_read_out_call`: the memory of the tracee afterwards and the value it gets. -/
def processReadOutCall (mem : Memory) (buf stale : Nat) (task : Task) : Result (Memory × Int) :=
  if toCInt stale > 0 then do
    let mem ← ptracePoke mem buf (task.data ++ task.beyond) (toCInt stale).toNat
    return (mem, toCInt stale)
  else .ok (mem, toCInt stale)

/-- `process_recvfrom_out_call` for a call that asks for no address. -/
def processRecvfromOutCall (mem : Memory) (buf n : Nat) (task : Task) : Result (Memory × Int) :=
  match strlen (task.data ++ task.beyond) with
  | none => .error .segfault
  | some len => do
      let lenData := len + 1
      let ret := if n ≥ lenData then lenData else n
      let mem ← ptracePoke mem buf (task.data ++ task.beyond) ret
      return (mem, ret)

/-- There is a chunk, and it is what the buffer starts with. -/
def Stores (buf : Nat) (chunk : Option (List UInt8)) (mem : Memory) : Prop :=
  ∃ bytes, chunk = some bytes ∧ mem.read buf bytes.length = bytes

theorem processReadOutCall_stores {mem : Memory} {buf stale : Nat} {task : Task} {out : Memory × Int}
    (done : processReadOutCall mem buf stale task = .ok out) :
    Stores buf (task.readChunk (toCInt stale)) out.1 := by
  unfold processReadOutCall at done
  unfold Task.readChunk
  by_cases positive : toCInt stale > 0
  · rw [if_pos positive] at done
    obtain ⟨mem', poked, rfl⟩ := bind_pure_eq_ok.mp done
    obtain ⟨short, stored⟩ := read_ptracePoke poked
    rw [if_pos positive, if_pos short]
    exact ⟨_, rfl, by rw [List.length_take, Nat.min_eq_left short]; exact stored⟩
  · rw [if_neg positive]
    exact ⟨[], rfl, rfl⟩

theorem processRecvfromOutCall_stores {mem : Memory} {buf n : Nat} {task : Task} {out : Memory × Int}
    (done : processRecvfromOutCall mem buf n task = .ok out) :
    Stores buf (task.recvfromChunk n) out.1 := by
  unfold processRecvfromOutCall at done
  unfold Task.recvfromChunk
  cases ends : strlen (task.data ++ task.beyond) with
  | none =>
      rw [ends] at done
      cases done
  | some len =>
      rw [ends] at done
      obtain ⟨mem', poked, rfl⟩ := bind_pure_eq_ok.mp done
      obtain ⟨short, stored⟩ := read_ptracePoke poked
      simp only [← apply_ite some, ← apply_ite (fun k => (task.data ++ task.beyond).take k)]
      exact ⟨_, rfl, by rw [List.length_take, Nat.min_eq_left short]; exact stored⟩

namespace World

variable {H : Type} [DecidableEq H] (w : World H)

/-- `syscall_write` at the entrance, with the result register as it is then: the task sent and the
    value for the tracee, or nothing where the kernel runs the call. For a socket that is not one
    of the network, the payload is what the simulator itself has at the address of the buffer. -/
def syscallWrite (proc : Pid) (fd : Int) (mem : Memory) (buf n stale : Nat)
    (elsewhere beyond : List UInt8) : Result (World H × Option (Task × Int)) :=
  let data :=
    if w.socketRegistered proc fd ≠ 0 ∧ w.socketNetwork proc fd then (ptraceCpy mem buf n).take n
    else elsewhere
  if w.socketRegistered proc fd ≠ -1 then
    (w.processSendCallWith proc fd data beyond n).map fun sent =>
      (sent.1, sent.2.map fun task => (task, toSsize stale))
  else .ok (w, none)

/-- `syscall_sendto_pre` for a call without an address; the result register holds the third
    argument after the send. -/
def syscallSendtoPre (proc : Pid) (fd : Int) (mem : Memory) (buf n : Nat) (beyond : List UInt8) :
    Result (World H × Option (Task × Int)) :=
  (w.processSendCallWith proc fd ((ptraceCpy mem buf n).take n) beyond n).map fun sent =>
    (sent.1, sent.2.map fun task => (task, toCInt n))

/-- Take the oldest task of the mailbox, and let `out` store it in the tracee. -/
def receiveInto (proc : Pid) (ref : DescRef) (out : Task → Result (Memory × Int)) :
    Result (World H × Option (Memory × Int)) := do
  let mailbox ← w.recvMailbox proc (w.fileDesc ref).stream
  match w.mailboxes mailbox with
  | [] => .error .blocked
  | task :: rest =>
      let stored ← out task
      return ({ w with mailboxes := Function.update w.mailboxes mailbox rest }, some stored)

/-- `syscall_read` at the entrance, on a socket. -/
def readInto (proc : Pid) (fd : Int) (mem : Memory) (buf stale : Nat) :
    Result (World H × Option (Memory × Int)) :=
  match w.processDescriptorGetFd proc fd with
  | none => .error .segfault
  | some ref =>
      if w.socketRegistered proc fd ≠ -1 then w.receiveInto proc ref (processReadOutCall mem buf stale)
      else .ok (w, none)

/-- `syscall_recvfrom_pre` for a call that asks for no address. -/
def recvfromInto (proc : Pid) (fd : Int) (mem : Memory) (buf n : Nat) :
    Result (World H × Option (Memory × Int)) :=
  match w.processDescriptorGetFd proc fd with
  | none => .error .segfault
  | some ref =>
      if w.socketRegistered proc fd ≠ -1 ∧ w.socketNetlink proc fd = false then
        w.receiveInto proc ref (processRecvfromOutCall mem buf n)
      else .ok (w, none)

variable {w} {w' : World H} {p : Pid} {fd : Int} {x y : SockId}

/-- A handler that stores a chunk of each task does to the world what the handler that only
    reports the chunk does. -/
theorem receiveTask_of_receiveInto {ref : DescRef} {buf : Nat} {out : Task → Result (Memory × Int)}
    {chunk : Task → Option (List UInt8)} {stored : Option (Memory × Int)}
    (done : w.receiveInto p ref out = .ok (w', stored))
    (stores : ∀ task result, out task = .ok result → Stores buf (chunk task) result.1) :
    ∃ task bytes result, stored = some result ∧ w.receiveTask p ref chunk = .ok (w', some (task, bytes)) ∧
      result.1.read buf bytes.length = bytes := by
  obtain ⟨mailbox, found, done⟩ := bind_eq_ok.mp done
  cases queue : w.mailboxes mailbox with
  | nil =>
      rw [queue] at done
      cases done
  | cons task rest =>
      rw [queue] at done
      obtain ⟨result, given, ⟨⟩⟩ := bind_pure_eq_ok.mp done
      obtain ⟨bytes, known, held⟩ := stores task result given
      refine ⟨task, bytes, result, rfl, ?_, held⟩
      simp only [receiveTask, found, bind, Except.bind, queue, known]
      rfl

/-- `read` as a change of the tracee's memory is `read` as it is in the runs of the network. -/
theorem syscallRead_of_readInto {mem : Memory} {buf stale : Nat} {result : Memory × Int}
    (done : w.readInto p fd mem buf stale = .ok (w', some result)) :
    ∃ task bytes, w.syscallRead p fd (toCInt stale) = .ok (w', some (task, bytes)) ∧
      result.1.read buf bytes.length = bytes := by
  unfold readInto at done
  unfold syscallRead
  cases opened : w.processDescriptorGetFd p fd with
  | none =>
      rw [opened] at done
      cases done
  | some ref =>
      rw [opened] at done
      by_cases registered : w.socketRegistered p fd ≠ -1
      · simp only [if_pos registered] at done ⊢
        obtain ⟨task, bytes, result', same, received, held⟩ :=
          receiveTask_of_receiveInto done fun _ _ given => processReadOutCall_stores given
        cases same
        exact ⟨task, bytes, received, held⟩
      · simp only [if_neg registered] at done
        cases done

/-- The same of `recvfrom`. -/
theorem syscallRecvfromPre_of_recvfromInto (wired : w.Wired p fd x y) {mem : Memory} {buf n : Nat}
    {result : Memory × Int} (done : w.recvfromInto p fd mem buf n = .ok (w', some result)) :
    ∃ task bytes, w.syscallRecvfromPre p fd n none = .ok (w', some (task, bytes)) ∧
      result.1.read buf bytes.length = bytes := by
  have opened := w.getInfosSocket_eq_some.mp wired.opened
  have registered : w.socketRegistered p fd ≠ -1 := by simp [socketRegistered, wired.opened]
  simp only [recvfromInto, opened, if_pos (And.intro registered wired.netlink)] at done
  obtain ⟨mailbox, found, done⟩ := bind_eq_ok.mp done
  cases Except.ok.inj (wired.mailbox.symm.trans found)
  cases queue : w.mailboxes (w.procs p).host with
  | nil =>
      rw [queue] at done
      cases done
  | cons task rest =>
      rw [queue] at done
      obtain ⟨stored, given, ⟨⟩⟩ := bind_pure_eq_ok.mp done
      obtain ⟨bytes, known, held⟩ := processRecvfromOutCall_stores given
      exact ⟨task, bytes, syscallRecvfromPre_of_wired wired queue known, held⟩

/-- The payload of `write`. -/
theorem syscallWrite_of_established (established : w.Established p fd x y) (mem : Memory)
    (buf n stale : Nat) (elsewhere beyond : List UInt8) :
    w.syscallWrite p fd mem buf n stale elsewhere beyond =
      (w.processSendCallWith p fd (if w.socketNetwork p fd then mem.read buf n else elsewhere)
        beyond n).map fun sent => (sent.1, sent.2.map fun task => (task, toSsize stale)) := by
  have registered : w.socketRegistered p fd = 1 := by simp [socketRegistered, established.opened]
  simp only [syscallWrite, registered, take_ptraceCpy, ne_eq, one_ne_zero, not_false_eq_true, true_and]
  rfl

theorem write_eq_sendto_iff (established : w.Established p fd x y) (mem : Memory) (buf n stale : Nat)
    (elsewhere beyond : List UInt8) :
    w.syscallWrite p fd mem buf n stale elsewhere beyond = w.syscallSendtoPre p fd mem buf n beyond ↔
      (w.socketNetwork p fd = true ∨ elsewhere = mem.read buf n) ∧ toSsize stale = toCInt n := by
  rw [syscallWrite_of_established established, syscallSendtoPre, take_ptraceCpy]
  obtain ⟨_, written⟩ := processSendCallWith_of_established established
    (if w.socketNetwork p fd then mem.read buf n else elsewhere) beyond n
  obtain ⟨_, sent⟩ := processSendCallWith_of_established established (mem.read buf n) beyond n
  have payload : (if w.socketNetwork p fd = true then mem.read buf n else elsewhere) = mem.read buf n ↔
      w.socketNetwork p fd = true ∨ elsewhere = mem.read buf n := by
    by_cases network : w.socketNetwork p fd = true
    · simp [network]
    · simp [network]
  constructor
  · intro same
    rw [written, sent] at same
    have tasks := congrArg Prod.snd (Except.ok.inj same)
    simp only [Option.map_some, Option.some.injEq, Prod.mk.injEq, Task.mk.injEq] at tasks
    exact ⟨payload.mp tasks.1.2.1, tasks.2⟩
  · rintro ⟨bytes, value⟩
    rw [payload.mpr bytes, value]

/-- What `read` and `recvfrom` do with the pending task. -/
theorem receiveInto_of_pending {ref : DescRef} {mailbox : H} {task : Task} {rest : List Task}
    (found : w.recvMailbox p (w.fileDesc ref).stream = .ok mailbox)
    (pending : w.mailboxes mailbox = task :: rest) (out : Task → Result (Memory × Int)) :
    w.receiveInto p ref out = (out task).map fun stored => (w.takeTask mailbox rest, some stored) := by
  simp only [receiveInto, found, bind, Except.bind, pending]
  cases out task <;> rfl

theorem processRecvfromOutCall_of_mapped {task : Task} {n len : Nat}
    (ends : strlen (task.data ++ task.beyond) = some len)
    (mapped : wholeWords (min (len + 1) n) ≤ (task.data ++ task.beyond).length) (mem : Memory) (buf : Nat) :
    processRecvfromOutCall mem buf n task =
      .ok (mem.write buf ((task.data ++ task.beyond).take (wholeWords (min (len + 1) n))),
        ↑(min (len + 1) n)) := by
  have shorter : (if n ≥ len + 1 then len + 1 else n) = min (len + 1) n := by
    split <;> omega
  simp only [processRecvfromOutCall, ends, shorter, ptracePoke_eq, if_pos mapped]
  rfl

/-- `read` stores and returns what `recvfrom` does as soon as it returns the same number. -/
theorem processReadOutCall_eq_iff {task : Task} {n len : Nat}
    (ends : strlen (task.data ++ task.beyond) = some len)
    (mapped : wholeWords (min (len + 1) n) ≤ (task.data ++ task.beyond).length)
    (mem : Memory) (buf stale : Nat) :
    processReadOutCall mem buf stale task = processRecvfromOutCall mem buf n task ↔
      toCInt stale = ↑(min (len + 1) n) := by
  rw [processRecvfromOutCall_of_mapped ends mapped]
  constructor
  · intro same
    unfold processReadOutCall at same
    by_cases positive : toCInt stale > 0
    · rw [if_pos positive] at same
      obtain ⟨_, -, done⟩ := bind_eq_ok.mp same
      exact congrArg Prod.snd (pure_eq_ok.mp done)
    · rw [if_neg positive] at same
      exact congrArg Prod.snd (Except.ok.inj same)
  · intro value
    unfold processReadOutCall
    rw [value]
    by_cases empty : min (len + 1) n = 0
    · rw [empty]
      simp [wholeWords]
    · rw [if_pos (by omega), Int.toNat_natCast, ptracePoke_eq, if_pos mapped]
      rfl

theorem read_eq_recvfrom_iff (established : w.Established p fd x y) {mailbox : H} {task : Task}
    {rest : List Task} {n len : Nat}
    (found : w.recvMailbox p (w.socket x).fd.stream = .ok mailbox)
    (pending : w.mailboxes mailbox = task :: rest)
    (ends : strlen (task.data ++ task.beyond) = some len)
    (mapped : wholeWords (min (len + 1) n) ≤ (task.data ++ task.beyond).length)
    (mem : Memory) (buf stale : Nat) :
    w.readInto p fd mem buf stale = w.recvfromInto p fd mem buf n ↔
      toCInt stale = ↑(min (len + 1) n) := by
  have opened := w.getInfosSocket_eq_some.mp established.opened
  have registered : w.socketRegistered p fd ≠ -1 := by simp [socketRegistered, established.opened]
  have stream : w.recvMailbox p (w.fileDesc (.socket x)).stream = .ok mailbox := found
  simp only [readInto, recvfromInto, opened, if_pos registered,
    if_pos (And.intro registered established.netlink), receiveInto_of_pending stream pending]
  rw [← processReadOutCall_eq_iff ends mapped mem buf stale]
  constructor
  · intro same
    rw [processRecvfromOutCall_of_mapped ends mapped] at same ⊢
    cases given : processReadOutCall mem buf stale task with
    | error =>
        rw [given] at same
        cases same
    | ok stored =>
        rw [given] at same
        have results := congrArg Prod.snd (Except.ok.inj same)
        exact congrArg Except.ok (Option.some.inj results)
  · intro same
    rw [same]

/-- On an established socket `write` is `sendto` exactly when the result register happens to hold
    the length as the call is entered, and `read` is `recvfrom` exactly when it happens to hold the
    number of bytes that `recvfrom` stores. -/
theorem read_write_agree_iff (established : w.Established p fd x y) (mem : Memory)
    (buf n stale : Nat) (elsewhere beyond : List UInt8) :
    (w.syscallWrite p fd mem buf n stale elsewhere beyond = w.syscallSendtoPre p fd mem buf n beyond ↔
      (w.socketNetwork p fd = true ∨ elsewhere = mem.read buf n) ∧ toSsize stale = toCInt n) ∧
    ∀ (mailbox : H) (task : Task) (rest : List Task) (len : Nat),
      w.recvMailbox p (w.socket x).fd.stream = .ok mailbox → w.mailboxes mailbox = task :: rest →
      strlen (task.data ++ task.beyond) = some len →
      wholeWords (min (len + 1) n) ≤ (task.data ++ task.beyond).length →
      (w.readInto p fd mem buf stale = w.recvfromInto p fd mem buf n ↔
        toCInt stale = ↑(min (len + 1) n)) :=
  ⟨write_eq_sendto_iff established mem buf n stale elsewhere beyond,
    fun _ _ _ _ found pending ends mapped => read_eq_recvfrom_iff established found pending ends mapped
      mem buf stale⟩

/-- What a call gives to the tracee, where it is not left to the kernel. -/
def answer {α : Type} (done : Result (World H × Option α)) : Option α := done.toOption.bind (·.2)

/-- A register that holds the length at the entrance, and a message of that length. -/
theorem lucky_register_agrees : ∃ w : World (Fin 3), w.Established 0 4 3 1 ∧
    w.syscallWrite 0 4 (fun _ => 7) 0 3 3 [] [] = w.syscallSendtoPre 0 4 (fun _ => 7) 0 3 [] ∧
    w.readInto 0 4 (fun _ => 7) 0 3 = w.recvfromInto 0 4 (fun _ => 7) 0 3 := by
  obtain ⟨_, _, _, _, w, _, _, _, established, network, found, pending⟩ := exists_transferred
    (fun _ _ => True) [.send 1 3 [104, 105, 0] [0, 0, 0, 0, 0]]
    (P := fun _ _ w => w.Established 0 4 3 1 ∧ w.socketNetwork 0 4 = true ∧
      w.recvMailbox 0 (w.socket 3).fd.stream = .ok (w.procs 0).host ∧
      w.mailboxes (w.procs 0).host = [taskOf 1 [104, 105, 0] [0, 0, 0, 0, 0]]) (by decide)
  have agree := read_write_agree_iff established (fun _ => 7) 0 3 3 [] []
  exact ⟨w, established, agree.1.mpr ⟨.inl network, by decide⟩,
    (agree.2 _ _ _ 2 found pending (by decide) (by decide)).mpr (by decide)⟩

/-- The kernel leaves −38 in the result register at the entrance of a call. Three bytes are sent
    either way, but `write` returns −38; and so does `read`, for a message of which `recvfrom` gives
    three bytes. -/
theorem stale_register_disagrees : ∃ (m₀ m : Meeting (Fin 3)) (turns : List Turn)
    (es : List (Transfer × Delivery)) (w : World (Fin 3)), Meeting.Ready 0 3 m₀ ∧
    Run (Guarded (Meeting.OneAtATime 0 3) Meeting.Step) m₀ turns m ∧
    Run (Guarded (fun _ _ => True) Transfers) m.world es w ∧
    w.Established 0 4 3 1 ∧
    answer (w.syscallWrite 0 4 (fun _ => 7) 0 3 (2 ^ 64 - 38) [] []) =
      some (taskOf 3 [7, 7, 7] [], -38) ∧
    answer (w.syscallSendtoPre 0 4 (fun _ => 7) 0 3 []) = some (taskOf 3 [7, 7, 7] [], 3) ∧
    ((answer (w.readInto 0 4 (fun _ => 7) 0 (2 ^ 64 - 38))).map Prod.snd,
      (answer (w.recvfromInto 0 4 (fun _ => 7) 0 3)).map Prod.snd) = (some (-38), some 3) :=
  exists_transferred _ [.send 1 3 [104, 105, 0] [0, 0, 0, 0, 0]] (by decide)

end World

end Simterpose
