import Simterpose.Agreement

/-! # What arrives of what is sent

`sendto` and `recvfrom` on established connections. A task goes into the mailbox of the
host on which the receiving process runs, and a receive takes the oldest task of the
mailbox its stream names, so the messages of two connections with ends on one host are
mixed up. Of a task that arrives, the receiver stores the C string at its start, cut at
the length of its buffer, and the rest is lost.
-/

namespace Simterpose

open Lib

/-- A call that moves data. -/
inductive Transfer where
  | send (proc : Pid) (fd : Int) (data beyond : List UInt8)
  | recv (proc : Pid) (fd : Int) (lenBuf : Nat) (addrlen : Option Nat)
  deriving Repr, DecidableEq

/-- What became of it. -/
inductive Delivery where
  | sent (is : SockId) (data : List UInt8)
  | received (is : SockId) (task : Task) (chunk : List UInt8)
  /-- the kernel runs the call -/
  | left
  deriving Repr, DecidableEq

namespace World

section

variable {H : Type} (w : World H)

def sendEvent (proc : Pid) (fd : Int) (data : List UInt8) (sent : Bool) : Delivery :=
  match w.getInfosSocket proc fd, sent with
  | some is, true => .sent is data
  | _, _ => .left

def recvEvent (proc : Pid) (fd : Int) (got : Option (Task × List UInt8)) : Delivery :=
  match w.getInfosSocket proc fd, got with
  | some is, some (task, chunk) => .received is task chunk
  | _, _ => .left

end

variable {H : Type} [DecidableEq H] (w : World H)

def transfer : Transfer → Result (World H × Delivery)
  | .send proc fd data beyond => do
      let (w', sent) ← w.processSendCall proc fd data beyond
      return (w', w.sendEvent proc fd data sent)
  | .recv proc fd lenBuf addrlen => do
      let (w', got) ← w.syscallRecvfromPre proc fd lenBuf addrlen
      return (w', w.recvEvent proc fd got)

/-- One labelled transfer. -/
def Transfers (w : World H) (label : Transfer × Delivery) (w' : World H) : Prop :=
  w.transfer label.1 = .ok (w', label.2)

/-- Perform transfers one after another, as long as each is allowed by `guard` and possible. -/
def carryOut (guard : World H → Transfer × Delivery → Prop) [∀ w label, Decidable (guard w label)]
    (transfers : List Transfer) : Option (List (Transfer × Delivery) × World H) :=
  perform (fun w t => (w.transfer t).toOption.map fun r => ((t, r.2), r.1)) guard w transfers

/-- What can be computed of some transfers holds after some run. -/
theorem exists_transfers {guard : World H → Transfer × Delivery → Prop}
    [∀ w label, Decidable (guard w label)] {w₀ : World H} {transfers : List Transfer}
    {P : List (Transfer × Delivery) × World H → Prop}
    (found : ∃ r ∈ w₀.carryOut guard transfers, P r) :
    ∃ es w, Run (Guarded guard Transfers) w₀ es w ∧ P (es, w) := by
  apply Run.exists_of_results (P := fun es w => P (es, w)) _ found
  intro w t outcome done
  exact done

end World

namespace World

/-! ## The ends of a connection -/

section

variable {H : Type} {w w' : World H}

/-- The descriptor `fd` of process `p` is the socket `x`, and `x` has the peer `y`. -/
structure Established (w : World H) (p : Pid) (fd : Int) (x y : SockId) : Prop where
  opened : w.getInfosSocket p fd = some x
  notNetlink : (w.socket x).domain ≠ 16
  peer : w.commGetPeer x = .ok (some y)

instance (w : World H) (p : Pid) (fd : Int) (x y : SockId) : Decidable (w.Established p fd x y) :=
  decidable_of_iff (w.getInfosSocket p fd = some x ∧ (w.socket x).domain ≠ 16 ∧
      w.commGetPeer x = .ok (some y))
    ⟨fun ⟨opened, notNetlink, peer⟩ => ⟨opened, notNetlink, peer⟩,
      fun established => ⟨established.opened, established.notNetlink, established.peer⟩⟩

theorem Established.netlink {p : Pid} {fd : Int} {x y : SockId} (established : w.Established p fd x y) :
    w.socketNetlink p fd = false := by
  simp [socketNetlink, established.opened, established.notNetlink]

/-- The descriptor `fd` of process `p` is the end `x` of an established connection whose other
    end is `y`. -/
structure Wired (w : World H) (p : Pid) (fd : Int) (x y : SockId) : Prop where
  opened : w.getInfosSocket p fd = some x
  notNetlink : (w.socket x).domain ≠ 16
  peer : w.commGetPeer x = .ok (some y)
  place : (w.procs (w.socket x).fd.proc).host = (w.procs p).host
  mailbox : w.recvMailbox p (w.socket x).fd.stream = .ok (w.procs p).host

instance [DecidableEq H] (w : World H) (p : Pid) (fd : Int) (x y : SockId) :
    Decidable (w.Wired p fd x y) :=
  decidable_of_iff (w.getInfosSocket p fd = some x ∧ (w.socket x).domain ≠ 16 ∧
      w.commGetPeer x = .ok (some y) ∧
      (w.procs (w.socket x).fd.proc).host = (w.procs p).host ∧
      w.recvMailbox p (w.socket x).fd.stream = .ok (w.procs p).host)
    ⟨fun ⟨opened, notNetlink, peer, place, mailbox⟩ => ⟨opened, notNetlink, peer, place, mailbox⟩,
      fun wired => ⟨wired.opened, wired.notNetlink, wired.peer, wired.place, wired.mailbox⟩⟩

/-- Only the mailboxes, the records of the communications and the counters differ. -/
structure SameWires (w w' : World H) : Prop where
  procs : w'.procs = w.procs
  links : w'.links = w.links
  streams : w'.streams = w.streams
  fd : ∀ is, (w'.socket is).fd = (w.socket is).fd
  domain : ∀ is, (w'.socket is).domain = (w.socket is).domain

theorem Wired.keep {p : Pid} {fd : Int} {x y : SockId} (wired : w.Wired p fd x y)
    (same : w.SameWires w') : w'.Wired p fd x y where
  opened := (getInfosSocket_congr same.procs p fd).trans wired.opened
  notNetlink := same.domain x ▸ wired.notNetlink
  peer := (commGetPeer_congr same.links x).trans wired.peer
  place := by rw [same.procs, same.fd]; exact wired.place
  mailbox := by
    have mailbox : w'.recvMailbox = w.recvMailbox := by
      funext p stream
      simp only [recvMailbox, World.stream, same.streams]
    rw [mailbox, same.procs, same.fd]
    exact wired.mailbox

theorem Wired.established {p : Pid} {fd : Int} {x y : SockId} (wired : w.Wired p fd x y) :
    w.Established p fd x y :=
  ⟨wired.opened, wired.notNetlink, wired.peer⟩

theorem Wired.netlink {p : Pid} {fd : Int} {x y : SockId} (wired : w.Wired p fd x y) :
    w.socketNetlink p fd = false :=
  wired.established.netlink

theorem SameWires.trans {w'' : World H} (first : w.SameWires w') (second : w'.SameWires w'') :
    w.SameWires w'' where
  procs := second.procs.trans first.procs
  links := second.links.trans first.links
  streams := second.streams.trans first.streams
  fd is := (second.fd is).trans (first.fd is)
  domain is := (second.domain is).trans (first.domain is)

theorem SameWires.symm (same : w.SameWires w') : w'.SameWires w where
  procs := same.procs.symm
  links := same.links.symm
  streams := same.streams.symm
  fd is := (same.fd is).symm
  domain is := (same.domain is).symm

theorem sameWires_addRefNb (w : World H) (is : SockId) (n : Int) : w.SameWires (w.addRefNb is n) := by
  refine { procs := rfl, links := w.links_addRefNb is n, streams := rfl, fd := ?_, domain := ?_ } <;>
    (intro j
     simp only [addRefNb, modifySocket, World.socket, Heap.cell_modify]
     split <;> rfl)

theorem sameWires_modifyRecv (w : World H) (recv : RecvRef)
    (f : RecvInformation H → RecvInformation H) : w.SameWires (w.modifyRecv recv f) := by
  have links := w.links_modifyRecv recv f
  obtain ⟨k, slot⟩ := recv
  cases slot <;>
    exact { procs := rfl, links := links, streams := rfl, fd := fun _ => rfl, domain := fun _ => rfl }

/-- What two processes know about the same socket is the same. -/
theorem Wired.unique {p p' : Pid} {fd fd' : Int} {x y y' : SockId} (wired : w.Wired p fd x y)
    (other : w.Wired p' fd' x y') : y = y' :=
  Option.some.inj (Except.ok.inj (wired.peer.symm.trans other.peer))

end

variable {H : Type} [DecidableEq H] {w w' : World H} {p : Pid} {fd : Int} {x y : SockId}

theorem sameWires_sendFrom (is s : SockId) (recv : RecvRef) (sent : DataSend) (tci : TaskCommInfo H)
    (receiver : H) : w.SameWires (w.sendFrom is s recv sent tci receiver) := by
  have mailed : ∀ v : World H, v.SameWires (v.sendTask receiver tci.task) := fun v =>
    { procs := rfl, links := rfl, streams := rfl, fd := fun _ => rfl, domain := fun _ => rfl }
  exact (sameWires_addRefNb ..).trans <| (sameWires_addRefNb ..).trans <|
    (sameWires_modifyRecv ..).trans <| (sameWires_modifyRecv ..).trans <|
    (mailed _).trans <| (sameWires_addRefNb ..).trans (sameWires_addRefNb ..)

theorem mailboxes_sendFrom (is s : SockId) (recv : RecvRef) (sent : DataSend) (tci : TaskCommInfo H)
    (receiver : H) : (w.sendFrom is s recv sent tci receiver).mailboxes =
      Function.update w.mailboxes receiver (w.mailboxes receiver ++ [tci.task]) := by
  have recorded : ∀ (v : World H) (f : RecvInformation H → RecvInformation H),
      (v.modifyRecv recv f).mailboxes = v.mailboxes := by
    intro v f
    unfold modifyRecv
    cases recv.slot <;> rfl
  simp only [sendFrom, addRefNb, modifySocket, sendTask, recorded]

/-- The task a send on `x` makes. -/
def taskOf (x : SockId) (data beyond : List UInt8) : Task :=
  { bytesAmount := toCInt data.length, data := data, beyond := beyond, sentOn := x }

theorem processSendCallWith_of_established (established : w.Established p fd x y)
    (data beyond : List UInt8) (arg2 : Nat) :
    ∃ recv, w.processSendCallWith p fd data beyond arg2 = .ok
      (w.sendFrom x y recv { data := data, size := toCInt arg2 }
        { task := { bytesAmount := toCInt arg2, data := data, beyond := beyond, sentOn := x },
          senderHost := (w.procs p).host } (w.procs (w.socket y).fd.proc).host,
        some { bytesAmount := toCInt arg2, data := data, beyond := beyond, sentOn := x }) := by
  have netlink := established.netlink
  obtain ⟨recv, found⟩ : ∃ recv, w.commGetPeerRecv x = .ok recv := by
    have peer := established.peer
    unfold commGetPeer at peer
    unfold commGetPeerRecv
    split at peer
    · cases peer
    · split <;> exact ⟨_, rfl⟩
  have counted : w.SameWires ((w.addRefNb x 1).addRefNb y 1) :=
    (sameWires_addRefNb ..).trans (sameWires_addRefNb ..)
  have found₁ := (commGetPeerRecv_congr counted.links x).trans found
  have found₂ := fun f => (commGetPeerRecv_congr
    (((w.addRefNb x 1).addRefNb y 1).sameWires_modifyRecv recv f).links x).trans found₁
  have same := fun f g => counted.trans ((sameWires_modifyRecv _ recv f).trans
    (sameWires_modifyRecv _ recv g))
  have procs := fun f => (counted.trans (sameWires_modifyRecv _ recv f)).procs
  refine ⟨recv, ?_⟩
  simp only [processSendCallWith, established.opened, netlink, established.peer, Bool.false_eq_true,
    if_false]
  simp only [bind, Except.bind, pure, Except.pure, handleNewSend, commSendData, found₁, found₂,
    procs, (same _ _).procs, (same _ _).fd y]
  rfl

theorem processSendCall_of_wired (wired : w.Wired p fd x y) (data beyond : List UInt8) :
    ∃ recv, w.processSendCall p fd data beyond = .ok
      (w.sendFrom x y recv { data := data, size := toCInt data.length }
        { task := taskOf x data beyond, senderHost := (w.procs p).host }
        (w.procs (w.socket y).fd.proc).host, true) := by
  obtain ⟨recv, sent⟩ :=
    processSendCallWith_of_established wired.established data beyond data.length
  exact ⟨recv, by rw [processSendCall_eq, sent]; rfl⟩

/-- Take the oldest task out of a mailbox. -/
def takeTask (w : World H) (host : H) (rest : List Task) : World H :=
  { w with mailboxes := Function.update w.mailboxes host rest }

theorem sameWires_takeTask (host : H) (rest : List Task) : w.SameWires (w.takeTask host rest) :=
  { procs := rfl, links := rfl, streams := rfl, fd := fun _ => rfl, domain := fun _ => rfl }

theorem syscallRecvfromPre_of_wired (wired : w.Wired p fd x y) {lenBuf : Nat} {task : Task}
    {rest : List Task} {chunk : List UInt8}
    (queue : w.mailboxes (w.procs p).host = task :: rest)
    (stored : task.recvfromChunk lenBuf = some chunk) :
    w.syscallRecvfromPre p fd lenBuf none =
      .ok (w.takeTask (w.procs p).host rest, some (task, chunk)) := by
  have found := w.getInfosSocket_eq_some.mp wired.opened
  have registered : w.socketRegistered p fd ≠ -1 := by simp [socketRegistered, wired.opened]
  have mailbox : w.recvMailbox p (w.fileDesc (.socket x)).stream = .ok (w.procs p).host :=
    wired.mailbox
  simp only [syscallRecvfromPre, found, registered, wired.netlink, ne_eq, not_false_eq_true,
    and_self, if_true, mailbox, sysTranslateRecvfromOut]
  simp only [bind, Except.bind, queue]
  split <;> (rw [stored]; rfl)

theorem syscallRecvfromPre_ok (wired : w.Wired p fd x y) {lenBuf : Nat} {addrlen : Option Nat}
    {got : Option (Task × List UInt8)}
    (done : w.syscallRecvfromPre p fd lenBuf addrlen = .ok (w', got)) :
    ∃ task rest chunk, w.mailboxes (w.procs p).host = task :: rest ∧
      task.recvfromChunk lenBuf = some chunk ∧ got = some (task, chunk) ∧
      w' = w.takeTask (w.procs p).host rest := by
  have found := w.getInfosSocket_eq_some.mp wired.opened
  have registered : w.socketRegistered p fd ≠ -1 := by simp [socketRegistered, wired.opened]
  simp only [syscallRecvfromPre, found, registered, wired.netlink, ne_eq, not_false_eq_true,
    and_self, if_true] at done
  obtain ⟨host, mailbox, done⟩ := bind_eq_ok.mp done
  cases Except.ok.inj (wired.mailbox.symm.trans mailbox)
  split at done
  · cases done
  · rename_i task rest queue
    -- the address is written or not; the task is taken either way
    cases stored : task.recvfromChunk lenBuf with
    | none =>
        simp only [stored] at done
        split at done
        · obtain ⟨-, -, done⟩ := bind_eq_ok.mp done
          cases done
        · cases done
    | some chunk =>
        simp only [stored] at done
        have ended : (w.takeTask (w.procs p).host rest, some (task, chunk)) = (w', got) := by
          split at done
          · obtain ⟨-, -, done⟩ := bind_eq_ok.mp done
            exact Except.ok.inj done
          · exact Except.ok.inj done
        cases ended
        exact ⟨task, rest, chunk, queue, stored, rfl, rfl⟩

/-- All that a send on an end of a connection does. -/
theorem Transfers.send_ok {data beyond : List UInt8} {ev : Delivery} (wired : w.Wired p fd x y)
    (step : w.Transfers (.send p fd data beyond, ev) w') :
    ev = .sent x data ∧ w.SameWires w' ∧
      w'.mailboxes = Function.update w.mailboxes (w.procs (w.socket y).fd.proc).host
        (w.mailboxes (w.procs (w.socket y).fd.proc).host ++ [taskOf x data beyond]) := by
  obtain ⟨⟨w₁, sent⟩, done, rest⟩ := bind_eq_ok.mp step
  obtain ⟨recv, equation⟩ := processSendCall_of_wired wired data beyond
  cases Except.ok.inj (equation.symm.trans done)
  cases pure_eq_ok.mp rest
  refine ⟨?_, sameWires_sendFrom .., mailboxes_sendFrom ..⟩
  simp [wired.opened]

/-- All that a receive on an end of a connection does. -/
theorem Transfers.recv_ok {lenBuf : Nat} {addrlen : Option Nat} {ev : Delivery}
    (wired : w.Wired p fd x y) (step : w.Transfers (.recv p fd lenBuf addrlen, ev) w') :
    ∃ task rest chunk, w.mailboxes (w.procs p).host = task :: rest ∧
      task.recvfromChunk lenBuf = some chunk ∧ ev = .received x task chunk ∧
      w' = w.takeTask (w.procs p).host rest := by
  obtain ⟨⟨w₁, got⟩, done, rest⟩ := bind_eq_ok.mp step
  obtain ⟨task, rest', chunk, queue, stored, rfl, rfl⟩ := syscallRecvfromPre_ok wired done
  cases pure_eq_ok.mp rest
  refine ⟨task, rest', chunk, queue, stored, ?_, rfl⟩
  simp [wired.opened]

theorem Transfers.send_of_wired (wired : w.Wired p fd x y) (data beyond : List UInt8) :
    ∃ w', w.Transfers (.send p fd data beyond, .sent x data) w' := by
  obtain ⟨recv, sends⟩ := processSendCall_of_wired wired data beyond
  have event : w.sendEvent p fd data true = .sent x data := by simp [sendEvent, wired.opened]
  refine ⟨_, bind_eq_ok.mpr ⟨_, sends, pure_eq_ok.mpr (Prod.ext rfl event)⟩⟩

theorem Transfers.recv_of_wired (wired : w.Wired p fd x y) {lenBuf : Nat} {task : Task}
    {rest : List Task} {chunk : List UInt8} (queue : w.mailboxes (w.procs p).host = task :: rest)
    (stored : task.recvfromChunk lenBuf = some chunk) :
    w.Transfers (.recv p fd lenBuf none, .received x task chunk)
      (w.takeTask (w.procs p).host rest) := by
  have event : w.recvEvent p fd (some (task, chunk)) = .received x task chunk := by
    simp [recvEvent, wired.opened]
  exact bind_eq_ok.mpr ⟨_, syscallRecvfromPre_of_wired wired queue stored,
    pure_eq_ok.mpr (Prod.ext rfl event)⟩

/-! ## Which connection a message arrives on -/

/-- The transfers are on descriptors of the set `E`. -/
def On (E : Pid → Int → Prop) (_ : World H) (label : Transfer × Delivery) : Prop :=
  match label.1 with
  | .send p fd _ _ => E p fd
  | .recv p fd _ _ => E p fd

/-- The descriptors in `E` are the ends of established connections, both ends of each. -/
def Connected (E : Pid → Int → Prop) (w : World H) : Prop :=
  ∀ p fd, E p fd → ∃ x y q gd, w.Wired p fd x y ∧ E q gd ∧ w.Wired q gd y x

/-- What is received on a socket was sent on its peer. -/
def Isolated (w : World H) (label : Transfer × Delivery) : Prop :=
  match label.2 with
  | .received x task _ => w.commGetPeer x = .ok (some task.sentOn)
  | .sent .. | .left => True

/-- No two ends are on one host. -/
def Apart (E : Pid → Int → Prop) (w : World H) : Prop :=
  ∀ p fd x p' fd' x', E p fd → w.getInfosSocket p fd = some x → E p' fd' →
    w.getInfosSocket p' fd' = some x' → (w.procs p).host = (w.procs p').host → x = x'

/-- The mailbox of each end holds what was sent to this end only. -/
def Sorted (E : Pid → Int → Prop) (w : World H) : Prop :=
  ∀ p fd x y, E p fd → w.Wired p fd x y → ∀ task ∈ w.mailboxes (w.procs p).host, task.sentOn = y

variable {E : Pid → Int → Prop} {w₀ : World H} {es : List (Transfer × Delivery)}

omit [DecidableEq H] in
theorem Connected.keep (connected : Connected E w) (same : w.SameWires w') : Connected E w' := by
  intro p fd here
  obtain ⟨x, y, q, gd, wired, there, wired'⟩ := connected p fd here
  exact ⟨x, y, q, gd, wired.keep same, there, wired'.keep same⟩

omit [DecidableEq H] in
theorem Apart.keep (apart : Apart E w) (same : w.SameWires w') : Apart E w' := by
  intro p fd x p' fd' x' here opened there opened' host
  rw [getInfosSocket_congr same.procs] at opened opened'
  rw [same.procs] at host
  exact apart p fd x p' fd' x' here opened there opened' host

/-- A transfer changes mailboxes and nothing that the connections depend on. -/
theorem Transfers.sameWires {label : Transfer × Delivery} (connected : Connected E w)
    (on : On E w label) (step : w.Transfers label w') : w.SameWires w' := by
  obtain ⟨t, ev⟩ := label
  cases t with
  | send p fd data beyond =>
      obtain ⟨x, y, q, gd, wired, -⟩ := connected p fd on
      exact (step.send_ok wired).2.1
  | recv p fd lenBuf addrlen =>
      obtain ⟨x, y, q, gd, wired, -⟩ := connected p fd on
      obtain ⟨task, rest, chunk, -, -, -, rfl⟩ := step.recv_ok wired
      exact sameWires_takeTask ..

theorem connected_of_run (connected : Connected E w₀)
    (run : Run (Guarded (On E) Transfers) w₀ es w) : Connected E w ∧ w₀.SameWires w := by
  refine run.invariant (fun w => Connected E w ∧ w₀.SameWires w) ⟨connected, ⟨rfl, rfl, rfl, fun _ => rfl, fun _ => rfl⟩⟩ ?_
  rintro w label w' ⟨connected, same⟩ ⟨on, step⟩
  have next := step.sameWires connected on
  exact ⟨connected.keep next, same.trans next⟩

theorem Sorted.step {label : Transfer × Delivery} (sorted : Sorted E w) (connected : Connected E w)
    (apart : Apart E w) (on : On E w label) (step : w.Transfers label w') : Sorted E w' := by
  have same := step.sameWires connected on
  intro p fd x y here wired task member
  have before := wired.keep same.symm
  rw [same.procs] at member
  obtain ⟨t, ev⟩ := label
  cases t with
  | send q gd data beyond =>
      obtain ⟨z, v, r, hd, sender, there, receiver⟩ := connected q gd on
      obtain ⟨-, -, mailboxes⟩ := step.send_ok sender
      rw [mailboxes, Function.update_apply] at member
      split at member
      · rename_i sameHost
        rcases List.mem_append.mp member with old | new
        · exact sorted p fd x y here before task (sameHost ▸ old)
        · -- the mailbox is the one of `v`, so that `x` is `v` and the sender its peer
          rw [List.mem_singleton.mp new]
          obtain rfl := apart p fd x r hd v here before.opened there receiver.opened
            (sameHost.trans receiver.place)
          exact receiver.unique before
      · exact sorted p fd x y here before task member
  | recv q gd lenBuf addrlen =>
      obtain ⟨z, v, r, hd, receiver, -⟩ := connected q gd on
      obtain ⟨first, rest, chunk, queue, -, -, rfl⟩ := step.recv_ok receiver
      simp only [takeTask, Function.update_apply] at member
      split at member
      · rename_i sameHost
        refine sorted p fd x y here before task ?_
        rw [sameHost, queue]
        exact List.mem_cons_of_mem _ member
      · exact sorted p fd x y here before task member

theorem sorted_of_run (connected : Connected E w₀) (apart : Apart E w₀)
    (empty : ∀ p fd, E p fd → w₀.mailboxes (w₀.procs p).host = [])
    (run : Run (Guarded (On E) Transfers) w₀ es w) : Sorted E w := by
  have initial : Sorted E w₀ := by
    intro p fd x y here _ task member
    simp [empty p fd here] at member
  refine (run.invariant (fun w => Sorted E w ∧ Connected E w ∧ Apart E w)
    ⟨initial, connected, apart⟩ ?_).1
  rintro w label w' ⟨sorted, connected, apart⟩ ⟨on, step⟩
  have same := step.sameWires connected on
  exact ⟨sorted.step connected apart on step, connected.keep same, apart.keep same⟩

/-- With the ends apart, what arrives comes from the peer. -/
theorem isolated_of_sorted {label : Transfer × Delivery} (sorted : Sorted E w)
    (connected : Connected E w) (on : On E w label) (step : w.Transfers label w') :
    w.Isolated label := by
  obtain ⟨t, ev⟩ := label
  cases t with
  | send p fd data beyond =>
      obtain ⟨x, y, q, gd, wired, -⟩ := connected p fd on
      obtain ⟨rfl, -⟩ := step.send_ok wired
      trivial
  | recv p fd lenBuf addrlen =>
      obtain ⟨x, y, q, gd, wired, -⟩ := connected p fd on
      obtain ⟨task, rest, chunk, queue, -, rfl, -⟩ := step.recv_ok wired
      have sender := sorted p fd x y on wired task (by simp [queue])
      exact wired.peer.trans (by rw [sender])

/-- Two ends on one host: what is sent to the one arrives at the other. -/
theorem received_from_other {p p' q : Pid} {fd fd' gd : Int} {x x' y y' : SockId}
    (wired : w.Wired p fd x y) (sender : w.Wired q gd y x) (other : w.Wired p' fd' x' y')
    (host : (w.procs p).host = (w.procs p').host) (empty : w.mailboxes (w.procs p').host = []) :
    ∃ w₁ w₂, w.Transfers (.send q gd [0] [], .sent y [0]) w₁ ∧
      w₁.Transfers (.recv p' fd' 1 none, .received x' (taskOf y [0] []) [0]) w₂ := by
  obtain ⟨w₁, sent⟩ := Transfers.send_of_wired sender [0] []
  obtain ⟨-, same, mailboxes⟩ := sent.send_ok sender
  have queue : w₁.mailboxes (w₁.procs p').host = [taskOf y [0] []] := by
    rw [same.procs, mailboxes, wired.place, host, Function.update_self, empty]
    rfl
  exact ⟨w₁, _, sent, Transfers.recv_of_wired (other.keep same) queue rfl⟩

/-- On established connections through which nothing was sent yet, everything received comes
    from the peer in every run, if and only if no two ends are on one host. -/
theorem transfers_isolated_iff (connected : Connected E w₀)
    (empty : ∀ p fd, E p fd → w₀.mailboxes (w₀.procs p).host = []) :
    (∀ es w label w', Run (Guarded (On E) Transfers) w₀ es w →
      Guarded (On E) Transfers w label w' → w.Isolated label) ↔ Apart E w₀ := by
  constructor
  · intro isolated p fd x p' fd' x' here opened there opened' host
    obtain ⟨x₁, y, q, gd, wired, sending, sender⟩ := connected p fd here
    obtain rfl : x = x₁ := Option.some.inj (opened.symm.trans wired.opened)
    obtain ⟨x₂, y', q', gd', other, -, sender'⟩ := connected p' fd' there
    obtain rfl : x' = x₂ := Option.some.inj (opened'.symm.trans other.opened)
    obtain ⟨w₁, w₂, sent, received⟩ := received_from_other wired sender other host (empty p' fd' there)
    have sends : Guarded (On E) Transfers w₀ (.send q gd [0] [], .sent y [0]) w₁ := ⟨sending, sent⟩
    have receives : Guarded (On E) Transfers w₁
        (.recv p' fd' 1 none, .received x' (taskOf y [0] []) [0]) w₂ := ⟨there, received⟩
    have from_ : w₁.commGetPeer x' = .ok (some y) := isolated _ w₁ _ w₂ (.next .start sends) receives
    rw [commGetPeer_congr (sent.send_ok sender).2.1.links, other.peer] at from_
    obtain rfl : y' = y := by simpa using from_
    exact sender.unique sender'
  · intro apart es w label w' run step
    have sorted := sorted_of_run connected apart empty run
    have connected := (connected_of_run connected run).1
    exact isolated_of_sorted sorted connected step.1 step.2

omit [DecidableEq H] in
theorem connected_pair {w : World H} {p q : Pid} {f g : Int} {x y : SockId} (client : w.Wired p f x y)
    (server : w.Wired q g y x) : Connected (fun r fd => (r, fd) = (p, f) ∨ (r, fd) = (q, g)) w := by
  rintro r fd (same | same) <;> cases same
  · exact ⟨x, y, q, g, client, .inr rfl, server⟩
  · exact ⟨y, x, p, f, server, .inl rfl, client⟩

omit [DecidableEq H] in
theorem apart_pair {w : World H} {p q : Pid} {f g : Int} (hosts : (w.procs p).host ≠ (w.procs q).host) :
    Apart (fun r fd => (r, fd) = (p, f) ∨ (r, fd) = (q, g)) w := by
  rintro r fd x r' fd' x' (same | same) opened (same' | same') opened' host <;> cases same <;> cases same'
  · exact Option.some.inj (opened.symm.trans opened')
  · exact absurd host hosts
  · exact absurd host.symm hosts
  · exact Option.some.inj (opened.symm.trans opened')

/-- A world in which two clients were accepted one after the other. -/
theorem exists_two_connections : ∃ (m₀ m : Meeting (Fin 3)) (es : List Turn),
    Meeting.Ready 0 3 m₀ ∧ Run (Guarded (Meeting.OneAtATime 0 3) Meeting.Step) m₀ es m ∧
    m.world.Wired 1 3 1 3 ∧ m.world.Wired 0 4 3 1 ∧ m.world.Wired 2 3 2 4 ∧ m.world.Wired 0 5 4 2 ∧
    (∀ host, m.world.mailboxes host = []) ∧ (m.world.procs 0).host = 0 ∧ (m.world.procs 1).host = 1 :=
  Meeting.exists_meeting (Meeting.OneAtATime 0 3)
    (Meeting.firstJoins ++ [.accept 0 3, .connect 2 3 ⟨10, 80⟩, .proceed 2 0, .proceed 0 0,
      .proceed 0 0, .proceed 2 0, .proceed 0 5, .proceed 2 0, .proceed 0 0])
    (P := fun _ m => m.world.Wired 1 3 1 3 ∧ m.world.Wired 0 4 3 1 ∧ m.world.Wired 2 3 2 4 ∧
      m.world.Wired 0 5 4 2 ∧ (∀ host, m.world.mailboxes host = []) ∧ (m.world.procs 0).host = 0 ∧
      (m.world.procs 1).host = 1) (by decide)

/-- The only two ends are on two hosts. -/
theorem one_connection_isolated : ∃ w₀ : World (Fin 3),
    Connected (fun p fd => (p, fd) = (1, 3) ∨ (p, fd) = (0, 4)) w₀ ∧
    (∀ es w label w', Run (Guarded (On fun p fd => (p, fd) = (1, 3) ∨ (p, fd) = (0, 4)) Transfers) w₀ es w →
      Guarded (On fun p fd => (p, fd) = (1, 3) ∨ (p, fd) = (0, 4)) Transfers w label w' →
      w.Isolated label) := by
  obtain ⟨_, m, _, _, _, client, server, _, _, empty, host₀, host₁⟩ := exists_two_connections
  have connected := connected_pair client server
  refine ⟨m.world, connected, (transfers_isolated_iff connected fun p fd _ => empty _).mpr ?_⟩
  exact apart_pair (by rw [host₀, host₁]; decide)

/-- Two clients of one server: what the first client sends is received on the connection of
    the second. -/
theorem message_of_other_connection : ∃ (w₀ : World (Fin 3)) (E : Pid → Int → Prop)
    (es : List (Transfer × Delivery)) (w w' : World (Fin 3)) (label : Transfer × Delivery),
    Connected E w₀ ∧ (∀ host, w₀.mailboxes host = []) ∧ Run (Guarded (On E) Transfers) w₀ es w ∧
    Guarded (On E) Transfers w label w' ∧ ¬ w.Isolated label := by
  obtain ⟨_, m, _, _, _, client₁, server₁, client₂, server₂, empty, _⟩ := exists_two_connections
  let E : Pid → Int → Prop := fun p fd => (p, fd) ∈ [(1, 3), (0, 4), (2, 3), (0, 5)]
  have connected : Connected E m.world := by
    intro p fd member
    simp only [E, List.mem_cons, List.not_mem_nil, or_false] at member
    rcases member with same | same | same | same <;> cases same
    · exact ⟨1, 3, 0, 4, client₁, by simp [E], server₁⟩
    · exact ⟨3, 1, 1, 3, server₁, by simp [E], client₁⟩
    · exact ⟨2, 4, 0, 5, client₂, by simp [E], server₂⟩
    · exact ⟨4, 2, 2, 3, server₂, by simp [E], client₂⟩
  obtain ⟨w₁, w₂, sent, received⟩ := received_from_other server₁ client₁ server₂ rfl (empty _)
  have sends : Guarded (On E) Transfers m.world (.send 1 3 [0] [], .sent 1 [0]) w₁ :=
    ⟨show (1, 3) ∈ _ by simp, sent⟩
  have receives : Guarded (On E) Transfers w₁ (.recv 0 5 1 none, .received 4 (taskOf 1 [0] []) [0]) w₂ :=
    ⟨show (0, 5) ∈ _ by simp, received⟩
  refine ⟨m.world, E, _, w₁, w₂, _, connected, empty, .next .start sends, receives, ?_⟩
  intro isolated
  have peer := (server₂.keep (sent.send_ok client₁).2.1).peer
  cases Except.ok.inj (peer.symm.trans isolated)

/-! ## Which bytes arrive -/

end World

/-- The bytes sent, in order. -/
def sentBytes (es : List (Transfer × Delivery)) : List UInt8 :=
  es.flatMap fun e => match e.2 with
    | .sent _ data => data
    | .received .. | .left => []

/-- The bytes stored by the receives, in order. -/
def receivedBytes (es : List (Transfer × Delivery)) : List UInt8 :=
  es.flatMap fun e => match e.2 with
    | .received _ _ chunk => chunk
    | .sent .. | .left => []

/-- A buffer takes the whole message: no NUL is in it but for the last byte, and the buffer is
    as long as the message, or longer if the message does end with a NUL. -/
def Fits (data : List UInt8) (lenBuf : Nat) : Prop :=
  data.length ≤ data.idxOf 0 + 1 ∧
    (lenBuf = data.length ∨ data.idxOf 0 + 1 = data.length ∧ data.length ≤ lenBuf)

instance (data : List UInt8) (lenBuf : Nat) : Decidable (Fits data lenBuf) :=
  inferInstanceAs (Decidable (_ ∧ _))

theorem Task.recvfromChunk_eq_take {task : Task} {lenBuf : Nat} {chunk : List UInt8}
    (stored : task.recvfromChunk lenBuf = some chunk) :
    0 ∈ task.data ++ task.beyond ∧
      chunk = (task.data ++ task.beyond).take (min lenBuf ((task.data ++ task.beyond).idxOf 0 + 1)) := by
  unfold recvfromChunk at stored
  split at stored
  · cases stored
  · rename_i n length
    unfold strlen at length
    split at length
    · rename_i nul
      cases length
      refine ⟨nul, ?_⟩
      dsimp only at stored
      split at stored
      · rename_i enough
        rw [Nat.min_eq_right enough]
        exact (Option.some.inj stored).symm
      · rename_i short
        rw [Nat.min_eq_left (by omega)]
        exact (Option.some.inj stored).symm
    · cases length

/-- A receive delivers the whole message exactly if the buffer takes it. -/
theorem Task.recvfromChunk_eq_data_iff {task : Task} {lenBuf : Nat} {chunk : List UInt8}
    (stored : task.recvfromChunk lenBuf = some chunk) :
    chunk = task.data ↔ Fits task.data lenBuf := by
  obtain ⟨nul, rfl⟩ := recvfromChunk_eq_take stored
  have within := List.idxOf_lt_length_of_mem nul
  have whole : ∀ n, n ≤ (task.data ++ task.beyond).length →
      ((task.data ++ task.beyond).take n = task.data ↔ n = task.data.length) := by
    intro n short
    constructor
    · intro same
      have length := congrArg List.length same
      rwa [List.length_take, Nat.min_eq_left short] at length
    · rintro rfl
      exact List.take_left
  rw [whole _ (by omega)]
  unfold Fits
  by_cases inside : 0 ∈ task.data
  · have before := List.idxOf_lt_length_of_mem inside
    rw [List.idxOf_append_of_mem inside]
    omega
  · have outside : task.data.idxOf 0 = task.data.length := List.idxOf_eq_length inside
    rw [List.idxOf_append_of_notMem inside, outside]
    omega

namespace World

variable {H : Type} [DecidableEq H] {w w' w₀ : World H} {p q : Pid} {fd gd : Int} {x y : SockId}
  {es : List (Transfer × Delivery)}

/-- Sends on one descriptor and receives on another. -/
def OneWay (p : Pid) (fd : Int) (q : Pid) (gd : Int) (_ : World H) (label : Transfer × Delivery) :
    Prop :=
  match label.1 with
  | .send p' fd' _ _ => p' = p ∧ fd' = fd
  | .recv q' gd' _ _ => q' = q ∧ gd' = gd

/-- A receive has a buffer that takes the next message whole. -/
def TakesWhole (w : World H) (label : Transfer × Delivery) : Prop :=
  match label.1 with
  | .send .. => True
  | .recv q _ lenBuf _ => ∀ task ∈ (w.mailboxes (w.procs q).host).head?, Fits task.data lenBuf

instance (p : Pid) (fd : Int) (q : Pid) (gd : Int) (w : World H) :
    (label : Transfer × Delivery) → Decidable (OneWay p fd q gd w label)
  | (.send .., _) => inferInstanceAs (Decidable (_ ∧ _))
  | (.recv .., _) => inferInstanceAs (Decidable (_ ∧ _))

instance (w : World H) : (label : Transfer × Delivery) → Decidable (w.TakesWhole label)
  | (.send .., _) => .isTrue trivial
  | (.recv q _ lenBuf _, _) => inferInstanceAs
      (Decidable (∀ task ∈ (w.mailboxes (w.procs q).host).head?, Fits task.data lenBuf))

/-- What was sent is what was received and what still waits in the mailbox. -/
structure Conveyed (p : Pid) (fd : Int) (q : Pid) (gd : Int) (x y : SockId)
    (es : List (Transfer × Delivery)) (w : World H) : Prop where
  sender : w.Wired p fd x y
  receiver : w.Wired q gd y x
  bytes : sentBytes es = receivedBytes es ++ (w.mailboxes (w.procs q).host).flatMap Task.data

theorem Conveyed.step {label : Transfer × Delivery} (conveyed : Conveyed p fd q gd x y es w)
    (oneWay : OneWay p fd q gd w label) (takesWhole : w.TakesWhole label)
    (step : w.Transfers label w') : Conveyed p fd q gd x y (es ++ [label]) w' := by
  obtain ⟨t, ev⟩ := label
  cases t with
  | send p' fd' data beyond =>
      obtain ⟨rfl, rfl⟩ := oneWay
      obtain ⟨rfl, same, mailboxes⟩ := step.send_ok conveyed.sender
      refine ⟨conveyed.sender.keep same, conveyed.receiver.keep same, ?_⟩
      have bytes := conveyed.bytes
      simp only [sentBytes, receivedBytes] at bytes ⊢
      rw [same.procs, mailboxes, conveyed.receiver.place, Function.update_self]
      simp [bytes, taskOf]
  | recv q' gd' lenBuf addrlen =>
      obtain ⟨rfl, rfl⟩ := oneWay
      obtain ⟨task, rest, chunk, queue, stored, rfl, rfl⟩ := step.recv_ok conveyed.receiver
      have same : w.SameWires (w.takeTask (w.procs q').host rest) := sameWires_takeTask ..
      refine ⟨conveyed.sender.keep same, conveyed.receiver.keep same, ?_⟩
      have whole := (Task.recvfromChunk_eq_data_iff stored).mpr (takesWhole task (by simp [queue]))
      have bytes := conveyed.bytes
      simp only [sentBytes, receivedBytes, queue] at bytes ⊢
      simp [bytes, takeTask, whole]

/-- As long as every receive has a buffer that takes the next message whole, the bytes received
    are the first of the bytes sent, and the rest is in the mailbox. -/
theorem received_prefix_of_sent (sender : w₀.Wired p fd x y) (receiver : w₀.Wired q gd y x)
    (empty : w₀.mailboxes (w₀.procs q).host = [])
    (run : Run (Guarded (fun w label => OneWay p fd q gd w label ∧ w.TakesWhole label) Transfers)
      w₀ es w) : receivedBytes es <+: sentBytes es := by
  have initial : Conveyed p fd q gd x y [] w₀ := ⟨sender, receiver, by simp [sentBytes, receivedBytes, empty]⟩
  have conveyed := run.history (Conveyed p fd q gd x y) initial
    fun _ _ _ _ conveyed step => conveyed.step step.1.1 step.1.2 step.2
  exact ⟨_, conveyed.bytes.symm⟩

/-- What can be computed of some transfers on the connection of a client and a server holds after a
    run of them. -/
theorem exists_transferred (guard : World (Fin 3) → Transfer × Delivery → Prop)
    [∀ w label, Decidable (guard w label)] (transfers : List Transfer)
    {P : Meeting (Fin 3) → List (Transfer × Delivery) → World (Fin 3) → Prop}
    (found : ∃ r₀ ∈ threeHosts.execute Prepares Meeting.setUp,
      (∃ s ∈ r₀.2.getInfosSocket 0 3, ∃ k ∈ (r₀.2.socket s).comm, (r₀.2.comm k).connWait = []) ∧
      ∃ r ∈ (Meeting.start r₀.2).execute (Meeting.OneAtATime 0 3) Meeting.firstJoins,
        ∃ t ∈ r.2.world.carryOut guard transfers, P r.2 t.1 t.2) :
    ∃ (m₀ m : Meeting (Fin 3)) (turns : List Turn) (es : List (Transfer × Delivery))
      (w : World (Fin 3)), Meeting.Ready 0 3 m₀ ∧
      Run (Guarded (Meeting.OneAtATime 0 3) Meeting.Step) m₀ turns m ∧
      Run (Guarded guard Transfers) m.world es w ∧ P m es w := by
  obtain ⟨m₀, m, turns, ready, met, carried⟩ := Meeting.exists_meeting (Meeting.OneAtATime 0 3) _
    (P := fun _ m => ∃ t ∈ m.world.carryOut guard transfers, P m t.1 t.2) found
  obtain ⟨es, w, run, holds⟩ := exists_transfers carried
  exact ⟨m₀, m, turns, es, w, ready, met, run, holds⟩

/-- Two messages that end with a NUL, one of them received into a longer buffer. -/
theorem received_two_messages : ∃ (w₀ w : World (Fin 3)) (es : List (Transfer × Delivery)),
    Run (Guarded (fun w label => OneWay 1 3 0 4 w label ∧ w.TakesWhole label) Transfers) w₀ es w ∧
    receivedBytes es = [104, 105, 0, 33, 0] ∧ receivedBytes es <+: sentBytes es := by
  obtain ⟨_, m, _, es, w, _, _, run, client, server, empty, bytes⟩ := exists_transferred
    (fun w label => OneWay 1 3 0 4 w label ∧ w.TakesWhole label)
    [.send 1 3 [104, 105, 0] [], .send 1 3 [33, 0] [], .recv 0 4 3 none, .recv 0 4 128 none]
    (P := fun m es _ => m.world.Wired 1 3 1 3 ∧ m.world.Wired 0 4 3 1 ∧
      (∀ host, m.world.mailboxes host = []) ∧ receivedBytes es = [104, 105, 0, 33, 0]) (by decide)
  exact ⟨m.world, w, es, run, bytes, received_prefix_of_sent client server (empty _) run⟩

/-- A message with a NUL inside: the byte behind it is lost, and the next message follows. -/
theorem byte_after_nul_lost : ∃ (m₀ m : Meeting (Fin 3)) (turns : List Turn)
    (es : List (Transfer × Delivery)) (w : World (Fin 3)), Meeting.Ready 0 3 m₀ ∧
    Run (Guarded (Meeting.OneAtATime 0 3) Meeting.Step) m₀ turns m ∧
    m.world.Wired 1 3 1 3 ∧ m.world.Wired 0 4 3 1 ∧ (∀ host, m.world.mailboxes host = []) ∧
    (m.world.procs 1).host ≠ (m.world.procs 0).host ∧
    Run (Guarded (OneWay 1 3 0 4) Transfers) m.world es w ∧
    sentBytes es = [97, 0, 98, 99, 0] ∧ receivedBytes es = [97, 0, 99, 0] ∧
    ¬ receivedBytes es <+: sentBytes es := by
  obtain ⟨m₀, m, turns, es, w, ready, met, run, client, server, empty, hosts, bytes⟩ :=
    exists_transferred (OneWay 1 3 0 4)
    [.send 1 3 [97, 0, 98] [], .recv 0 4 10 none, .send 1 3 [99, 0] [], .recv 0 4 10 none]
    (P := fun m es _ => m.world.Wired 1 3 1 3 ∧ m.world.Wired 0 4 3 1 ∧
      (∀ host, m.world.mailboxes host = []) ∧ (m.world.procs 1).host ≠ (m.world.procs 0).host ∧
      sentBytes es = [97, 0, 98, 99, 0] ∧ receivedBytes es = [97, 0, 99, 0] ∧
      ¬ receivedBytes es <+: sentBytes es) (by decide)
  exact ⟨m₀, m, turns, es, w, ready, met, client, server, empty, hosts, run, bytes⟩

end World

end Simterpose
