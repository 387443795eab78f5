import Mathlib.Algebra.BigOperators.Group.Finset.Basic
import Simterpose.Delivery
import Simterpose.Lib.Rendezvous

/-! # Sends that wait for their receiver

`send_task` calls `MSG_task_send`, which comes back when the receiver has taken the task, so a
process whose message is still in a mailbox makes no call. The runs in which every call comes
from a process that is awake are those of the simulator; all that holds of sends which do not
wait holds of them too. What waiting adds is a bound on the messages under way, and that two
processes finish only if each of them receives when the other one sends.
-/

namespace Simterpose

open Lib

def Transfer.proc : Transfer → Pid
  | .send proc .. | .recv proc .. => proc

/-- What a process does on its end of a connection; a receive is a `recvfrom` that does not ask
    for the address. -/
inductive Exchange where
  | send (data beyond : List UInt8)
  | recv (lenBuf : Nat)
  deriving Repr, DecidableEq

/-- A process with the descriptor and the socket of its end of a connection. -/
structure Endpoint where
  proc : Pid
  fd : Int
  is : SockId
  deriving Repr, DecidableEq

namespace Exchange

def on (x : Endpoint) : Exchange → Transfer
  | .send data beyond => .send x.proc x.fd data beyond
  | .recv lenBuf => .recv x.proc x.fd lenBuf none

/-- The data of a message and what follows it in the memory of the simulator. -/
def gives : Exchange → Option (List UInt8 × List UInt8)
  | .send data beyond => some (data, beyond)
  | .recv _ => none

/-- `recvfrom` looks for a NUL in the message or behind it. -/
def takes (_ : Exchange) (m : List UInt8 × List UInt8) : Prop := 0 ∈ m.1 ++ m.2

@[simp] theorem proc_on (x : Endpoint) (a : Exchange) : (a.on x).proc = x.proc := by cases a <;> rfl

theorem on_injective (x : Endpoint) : Function.Injective (on x) := by
  intro a b same
  cases a <;> cases b <;> simp_all [on]

end Exchange

namespace World

section

variable {H : Type} (w : World H)

/-- The process that sent a task. -/
def sender (task : Task) : Pid := (w.socket task.sentOn).fd.proc

/-- The call comes from a process that does not wait for one of its messages to be taken. -/
def Awake (label : Transfer × Delivery) : Prop :=
  ∀ host, ∀ task ∈ w.mailboxes host, w.sender task ≠ label.1.proc

end

/-! ## How much is under way -/

section

variable {H : Type} (w : World H)

/-- Who sent the tasks of a mailbox. -/
def senders (host : H) : List Pid := (w.mailboxes host).map w.sender

/-- No two tasks are of one process. -/
structure Single : Prop where
  nodup : ∀ host, (w.senders host).Nodup
  apart : ∀ {host host' p}, p ∈ w.senders host → p ∈ w.senders host' → host = host'

/-- The descriptors of `E` are sockets of the process that has them. -/
def Own (E : Pid → Int → Prop) : Prop :=
  ∀ p fd x, E p fd → w.getInfosSocket p fd = some x → (w.socket x).fd.proc = p

variable {w} {w' : World H} {E : Pid → Int → Prop}

theorem Own.keep (own : w.Own E) (same : w.SameWires w') : w'.Own E := by
  intro p fd x here opened
  rw [getInfosSocket_congr same.procs] at opened
  rw [same.fd]
  exact own p fd x here opened

theorem senders_congr (same : w.SameWires w') (host : H) :
    w'.senders host = (w'.mailboxes host).map w.sender := by
  unfold senders
  congr 1
  funext task
  exact congrArg FdDescriptor.proc (same.fd task.sentOn)

theorem awake_iff_notMem {label : Transfer × Delivery} :
    w.Awake label ↔ ∀ host, label.1.proc ∉ w.senders host := by
  simp [Awake, senders]

theorem Single.length_le (single : w.Single) {procs : Finset Pid}
    (known : ∀ host p, p ∈ w.senders host → p ∈ procs) (hosts : Finset H) :
    ∑ host ∈ hosts, (w.mailboxes host).length ≤ procs.card := by
  have distinct : (hosts.toList.flatMap w.senders).Nodup := by
    apply List.nodup_flatMap.mpr
    refine ⟨fun host _ => single.nodup host, hosts.nodup_toList.imp ?_⟩
    intro host host' different p member member'
    exact different (single.apart member member')
  have total : (hosts.toList.flatMap w.senders).length = ∑ host ∈ hosts, (w.mailboxes host).length := by
    simp [List.length_flatMap, senders, Finset.sum_map_toList]
  rw [← total, ← List.toFinset_card_of_nodup distinct]
  apply Finset.card_le_card
  intro p member
  obtain ⟨host, -, sent⟩ := List.mem_flatMap.mp (List.mem_toFinset.mp member)
  exact known host p sent

end

section

variable {H : Type} [DecidableEq H] {w w' w₀ : World H} {E : Pid → Int → Prop}

/-- A send adds its process to the senders of one mailbox, a receive takes one away. -/
theorem Transfers.senders_cases {label : Transfer × Delivery} (connected : Connected E w) (own : w.Own E)
    (on : On E w label) (step : w.Transfers label w') :
    ∃ host, (∀ host' ≠ host, w'.senders host' = w.senders host') ∧
      (w'.senders host = w.senders host ++ [label.1.proc] ∨ w'.senders host <:+ w.senders host) := by
  have same := step.sameWires connected on
  obtain ⟨t, ev⟩ := label
  cases t with
  | send p fd data beyond =>
      obtain ⟨x, y, q, gd, wired, -⟩ := connected p fd on
      obtain ⟨-, -, mailboxes⟩ := step.send_ok wired
      have owner : w.sender (taskOf x data beyond) = p := own p fd x on wired.opened
      refine ⟨(w.procs (w.socket y).fd.proc).host, fun host' other => ?_, .inl ?_⟩
      · rw [senders_congr same, mailboxes, Function.update_of_ne other]
        rfl
      · rw [senders_congr same, mailboxes, Function.update_self, List.map_append]
        simp [senders, owner, Transfer.proc]
  | recv p fd lenBuf addrlen =>
      obtain ⟨x, y, q, gd, wired, -⟩ := connected p fd on
      obtain ⟨task, rest, chunk, queue, -, -, rfl⟩ := step.recv_ok wired
      refine ⟨(w.procs p).host, fun host' other => ?_, .inr ?_⟩
      · simp only [senders, takeTask, Function.update_of_ne other]
        rfl
      · simp only [senders, takeTask, Function.update_self, queue]
        exact List.suffix_cons ..

/-- Whoever is among the senders afterwards was there before, or is the caller. -/
theorem Transfers.sender_origin {label : Transfer × Delivery} {host host' : H} {p : Pid}
    (others : ∀ host' ≠ host, w'.senders host' = w.senders host')
    (changed : w'.senders host = w.senders host ++ [label.1.proc] ∨ w'.senders host <:+ w.senders host)
    (member : p ∈ w'.senders host') : p ∈ w.senders host' ∨ p = label.1.proc ∧ host' = host := by
  by_cases there : host' = host
  · subst there
    rcases changed with added | shorter
    · rw [added, List.mem_append, List.mem_singleton] at member
      exact member.imp id fun last => ⟨last, rfl⟩
    · exact .inl (shorter.subset member)
  · rw [others host' there] at member
    exact .inl member

theorem Single.step {label : Transfer × Delivery} (single : w.Single) (connected : Connected E w)
    (own : w.Own E) (on : On E w label) (awake : w.Awake label) (step : w.Transfers label w') :
    w'.Single := by
  obtain ⟨host, others, changed⟩ := step.senders_cases connected own on
  have fresh := awake_iff_notMem.mp awake
  constructor
  · intro host'
    by_cases there : host' = host
    · subst there
      rcases changed with added | shorter
      · rw [added]
        apply List.nodup_append.mpr
        refine ⟨single.nodup host', by simp, ?_⟩
        rintro p before q last rfl
        exact fresh host' (List.mem_singleton.mp last ▸ before)
      · exact (single.nodup host').sublist shorter.sublist
    · rw [others host' there]
      exact single.nodup host'
  · intro host₁ host₂ p first second
    rcases Transfers.sender_origin others changed first with before₁ | ⟨rfl, rfl⟩
    · rcases Transfers.sender_origin others changed second with before₂ | ⟨rfl, rfl⟩
      · exact single.apart before₁ before₂
      · exact absurd before₁ (fresh host₁)
    · rcases Transfers.sender_origin others changed second with before₂ | ⟨-, rfl⟩
      · exact absurd before₂ (fresh host₂)
      · rfl

/-- On any number of connections there are never more messages under way, in all mailboxes
    together, than there are processes with an end of one. -/
theorem messages_underway_le {es : List (Transfer × Delivery)} (connected : Connected E w₀)
    (own : w₀.Own E) (empty : ∀ host, w₀.mailboxes host = []) {procs : Finset Pid}
    (known : ∀ p fd, E p fd → p ∈ procs)
    (run : Run (Guarded (fun w label => On E w label ∧ w.Awake label) Transfers) w₀ es w)
    (hosts : Finset H) : ∑ host ∈ hosts, (w.mailboxes host).length ≤ procs.card := by
  have nobody : ∀ host, w₀.senders host = [] := by simp [senders, empty]
  have invariant := run.invariant (fun w => (w.Single ∧ ∀ host p, p ∈ w.senders host → p ∈ procs) ∧
      Connected E w ∧ w.Own E)
    ⟨⟨⟨by simp [nobody], by simp [nobody]⟩, by simp [nobody]⟩, connected, own⟩ ?_
  · exact invariant.1.1.length_le invariant.1.2 hosts
  · rintro w label w' ⟨⟨single, senders⟩, connected, own⟩ ⟨⟨on, awake⟩, step⟩
    have same := step.sameWires connected on
    refine ⟨⟨single.step connected own on awake step, ?_⟩, connected.keep same, own.keep same⟩
    intro host' p member
    obtain ⟨host, others, changed⟩ := step.senders_cases connected own on
    rcases Transfers.sender_origin others changed member with before | ⟨rfl, -⟩
    · exact senders host' p before
    · obtain ⟨t, ev⟩ := label
      cases t with
      | send p fd data beyond => exact known p fd on
      | recv p fd lenBuf addrlen => exact known p fd on

end

/-- Two processes on two hosts, each with one end of a connection. -/
structure Joined {H : Type} (ends : Side → Endpoint) (w : World H) : Prop where
  wired : ∀ i, w.Wired (ends i).proc (ends i).fd (ends i).is (ends i.other).is
  owner : ∀ i, (w.socket (ends i).is).fd.proc = (ends i).proc
  apart : (w.procs (ends .left).proc).host ≠ (w.procs (ends .right).proc).host

section

variable {H : Type} {ends : Side → Endpoint} {w w' : World H}
  {under : Side → Option (List UInt8 × List UInt8)}

theorem Joined.keep (joined : Joined ends w) (same : w.SameWires w') : Joined ends w' where
  wired i := (joined.wired i).keep same
  owner i := by rw [same.fd]; exact joined.owner i
  apart := by rw [same.procs]; exact joined.apart

theorem Joined.host_ne (joined : Joined ends w) (i : Side) :
    (w.procs (ends i.other).proc).host ≠ (w.procs (ends i).proc).host := by
  cases i with
  | left => exact joined.apart.symm
  | right => exact joined.apart

theorem Joined.proc_ne (joined : Joined ends w) (i : Side) : (ends i.other).proc ≠ (ends i).proc := by
  intro same
  exact joined.host_ne i (by rw [same])

/-- The ends of one connection. -/
def EndOf (ends : Side → Endpoint) (p : Pid) (fd : Int) : Prop := ∃ i, (ends i).proc = p ∧ (ends i).fd = fd

theorem Joined.connected (joined : Joined ends w) : Connected (EndOf ends) w := by
  rintro _ _ ⟨i, rfl, rfl⟩
  exact ⟨_, _, _, _, joined.wired i, ⟨i.other, rfl, rfl⟩, by simpa using joined.wired i.other⟩

/-- A client on host 1 and the server that accepted it on host 0. -/
def clientAndServer : Side → Endpoint
  | .left => ⟨1, 3, 1⟩
  | .right => ⟨0, 4, 3⟩

theorem exists_joined : ∃ w₀ : World (Fin 3),
    Joined clientAndServer w₀ ∧ ∀ host, w₀.mailboxes host = [] := by
  obtain ⟨_, m, _, _, _, client, server, ownerClient, ownerServer, apart, empty⟩ :=
    Meeting.exists_meeting (Meeting.OneAtATime 0 3)
      Meeting.firstJoins
      (P := fun _ m => m.world.Wired 1 3 1 3 ∧ m.world.Wired 0 4 3 1 ∧
        (m.world.socket 1).fd.proc = 1 ∧ (m.world.socket 3).fd.proc = 0 ∧
        (m.world.procs 1).host ≠ (m.world.procs 0).host ∧ ∀ host, m.world.mailboxes host = [])
      (by decide)
  refine ⟨m.world, ⟨?_, ?_, apart⟩, empty⟩
  · intro i
    cases i with
    | left => exact client
    | right => exact server
  · intro i
    cases i with
    | left => exact ownerClient
    | right => exact ownerServer

/-- The client and the server have one message each under way at most. -/
theorem two_messages_at_most : ∃ w₀ : World (Fin 3), Joined clientAndServer w₀ ∧
    ∀ es w, Run (Guarded (fun w label => On (EndOf clientAndServer) w label ∧ w.Awake label) Transfers)
      w₀ es w → ∀ hosts : Finset (Fin 3), ∑ host ∈ hosts, (w.mailboxes host).length ≤ 2 := by
  obtain ⟨w₀, joined, empty⟩ := exists_joined
  have own : w₀.Own (EndOf clientAndServer) := by
    rintro _ _ x ⟨i, rfl, rfl⟩ opened
    cases opened.symm.trans (joined.wired i).opened
    exact joined.owner i
  have known : ∀ p fd, EndOf clientAndServer p fd → p ∈ ({0, 1} : Finset Pid) := by
    rintro _ _ ⟨i, rfl, rfl⟩
    cases i <;> simp [clientAndServer]
  exact ⟨w₀, joined, fun es w run => messages_underway_le joined.connected own empty known run⟩

/-- The mailboxes hold what each side sent and the other did not take, and nothing else. -/
structure Carries (ends : Side → Endpoint) (under : Side → Option (List UInt8 × List UInt8))
    (w : World H) : Prop where
  joined : Joined ends w
  mailbox : ∀ i, w.mailboxes (w.procs (ends i.other).proc).host =
    (under i).toList.map fun m => taskOf (ends i).is m.1 m.2
  others : ∀ host, (∀ i, host ≠ (w.procs (ends i).proc).host) → w.mailboxes host = []

/-- A call of the two processes on their ends. -/
def Exchanges (ends : Side → Endpoint) (_ : World H) (label : Transfer × Delivery) : Prop :=
  ∃ i a, label.1 = Exchange.on (ends i) a

/-- A call of one of the two on its end, made while it is awake. -/
def Works (ends : Side → Endpoint) (w : World H) (label : Transfer × Delivery) : Prop :=
  Exchanges ends w label ∧ w.Awake label

/-- The calls of each side are those of its script, in order. -/
def Follows (ends : Side → Endpoint) (script : Side → List Exchange)
    (es : List (Transfer × Delivery)) : Prop :=
  ∀ i, (es.map Prod.fst).filter (·.proc = (ends i).proc) = (script i).map (Exchange.on (ends i))

theorem Carries.own (carries : Carries ends under w) (i : Side) :
    w.mailboxes (w.procs (ends i).proc).host =
      (under i.other).toList.map fun m => taskOf (ends i.other).is m.1 m.2 := by
  simpa using carries.mailbox i.other

/-- The tasks in the mailboxes, by the side that sent them. -/
theorem Carries.sender_of_mem (carries : Carries ends under w) {host : H} {task : Task}
    (member : task ∈ w.mailboxes host) : ∃ i, w.sender task = (ends i).proc ∧ under i ≠ none := by
  by_cases known : ∃ i, host = (w.procs (ends i).proc).host
  · obtain ⟨i, rfl⟩ := known
    rw [carries.own i, List.mem_map] at member
    obtain ⟨m, sent, rfl⟩ := member
    refine ⟨i.other, carries.joined.owner i.other, ?_⟩
    intro nothing
    simp [nothing] at sent
  · rw [carries.others host fun i same => known ⟨i, same⟩] at member
    cases member

/-- A side is awake exactly if none of its messages is under way. -/
theorem Carries.awake_iff (carries : Carries ends under w) {i : Side} {label : Transfer × Delivery}
    (caller : label.1.proc = (ends i).proc) : w.Awake label ↔ under i = none := by
  constructor
  · intro awake
    cases sent : under i with
    | none => rfl
    | some m =>
        refine absurd ?_ (awake (w.procs (ends i.other).proc).host (taskOf (ends i).is m.1 m.2) ?_)
        · exact (carries.joined.owner i).trans caller.symm
        · simp [carries.mailbox i, sent]
  · intro nothing host task member
    obtain ⟨j, sent, underway⟩ := carries.sender_of_mem member
    rw [sent, caller]
    rcases Side.eq_or_eq_other i j with rfl | rfl
    · exact absurd nothing underway
    · exact carries.joined.proc_ne i

theorem Joined.carries (joined : Joined ends w) (empty : ∀ host, w.mailboxes host = []) :
    Carries ends (fun _ => none) w where
  joined := joined
  mailbox i := by simp [empty]
  others host _ := empty host

theorem Carries.empty_iff (carries : Carries ends under w) :
    (∀ host, w.mailboxes host = []) ↔ under = fun _ => none := by
  constructor
  · intro empty
    funext i
    have mailbox := carries.mailbox i
    rw [empty] at mailbox
    cases sent : under i with
    | none => rfl
    | some m => simp [sent] at mailbox
  · rintro rfl host
    by_cases known : ∃ i, host = (w.procs (ends i).proc).host
    · obtain ⟨i, rfl⟩ := known
      simp [carries.own i]
    · exact carries.others host fun i same => known ⟨i, same⟩

/-- The calls of a run of two parties. -/
def calls (ends : Side → Endpoint) (ls : List (Side × Exchange)) : List Transfer :=
  ls.map fun l => l.2.on (ends l.1)

theorem filter_calls (joined : Joined ends w) (ls : List (Side × Exchange)) (i : Side) :
    (calls ends ls).filter (·.proc = (ends i).proc) =
      (Rendezvous.work ls i).map (Exchange.on (ends i)) := by
  induction ls with
  | nil => rfl
  | cons l ls ih =>
      obtain ⟨j, a⟩ := l
      rcases Side.eq_or_eq_other i j with rfl | rfl
      · simpa [calls, Rendezvous.work] using ih
      · simpa [calls, Rendezvous.work, joined.proc_ne, Side.other_ne] using ih

/-- The calls of a side are those of the party that stands for it. -/
theorem follows_iff {es : List (Transfer × Delivery)} {ls : List (Side × Exchange)}
    {script : Side → List Exchange} (joined : Joined ends w) (same : es.map Prod.fst = calls ends ls) :
    Follows ends script es ↔ Rendezvous.work ls = script := by
  unfold Follows
  rw [same, funext_iff]
  apply forall_congr'
  intro i
  rw [filter_calls joined]
  exact (List.map_injective_iff.mpr (Exchange.on_injective (ends i))).eq_iff

end

/-! ## The simulator and two parties that meet -/

section

variable {H : Type} [DecidableEq H] {ends : Side → Endpoint} {w w' w₀ : World H}
  {under under' : Side → Option (List UInt8 × List UInt8)}

/-- What a call of a side does to what is under way. -/
theorem Carries.step {i : Side} {a : Exchange} {ev : Delivery} (carries : Carries ends under w)
    (awake : w.Awake (a.on (ends i), ev)) (step : w.Transfers (a.on (ends i), ev) w') :
    ∃ under', Rendezvous.Step Exchange.gives Exchange.takes under (i, a) under' ∧
      Carries ends under' w' := by
  have free : under i = none := (carries.awake_iff (a.proc_on (ends i))).mp awake
  have wired := carries.joined.wired i
  cases a with
  | send data beyond =>
      obtain ⟨-, same, mailboxes⟩ := step.send_ok wired
      refine ⟨_, Rendezvous.step_give free rfl, carries.joined.keep same, ?_, ?_⟩
      · intro j
        rw [same.procs, mailboxes, carries.joined.owner]
        rcases Side.eq_or_eq_other i j with rfl | rfl
        · simp [carries.mailbox, free]
        · rw [Function.update_of_ne (by simpa using (carries.joined.host_ne i).symm),
            Function.update_of_ne (Side.other_ne i)]
          exact carries.mailbox i.other
      · intro host foreign
        rw [same.procs] at foreign
        rw [mailboxes, carries.joined.owner, Function.update_of_ne (foreign i.other)]
        exact carries.others host foreign
  | recv lenBuf =>
      obtain ⟨task, rest, chunk, queue, stored, -, rfl⟩ := step.recv_ok wired
      have same : w.SameWires (w.takeTask (w.procs (ends i).proc).host rest) := sameWires_takeTask ..
      rw [carries.own i] at queue
      cases sent : under i.other with
      | none => simp [sent] at queue
      | some m =>
          simp only [sent, Option.toList_some, List.map_cons, List.map_nil, List.cons.injEq] at queue
          obtain ⟨rfl, rfl⟩ := queue
          have nul := (Task.recvfromChunk_eq_take stored).1
          have free' : under i.other.other = none := by simpa using free
          have taken : Rendezvous.Step Exchange.gives Exchange.takes under
              (i.other.other, .recv lenBuf) _ := Rendezvous.step_take free' rfl sent nul
          rw [Side.other_other] at taken
          refine ⟨_, taken, carries.joined.keep same, ?_, ?_⟩
          · intro j
            rcases Side.eq_or_eq_other i j with rfl | rfl
            · rw [Function.update_of_ne (Side.other_ne j).symm]
              simp [takeTask, carries.joined.host_ne, carries.mailbox]
            · simp [takeTask]
          · intro host foreign
            have elsewhere : host ≠ (w.procs (ends i).proc).host := foreign i
            simp only [takeTask, Function.update_of_ne elsewhere]
            exact carries.others host foreign

/-- A side can do what the two parties can. -/
theorem Carries.exists_step {i : Side} {a : Exchange} (carries : Carries ends under w)
    (step : Rendezvous.Step Exchange.gives Exchange.takes under (i, a) under') :
    ∃ ev w', w.Awake (a.on (ends i), ev) ∧ w.Transfers (a.on (ends i), ev) w' ∧
      Carries ends under' w' := by
  have wired := carries.joined.wired i
  have awake : ∀ ev, w.Awake (a.on (ends i), ev) := fun ev =>
    (carries.awake_iff (a.proc_on (ends i))).mpr step.1
  obtain ⟨ev, w', done⟩ : ∃ ev w', w.Transfers (a.on (ends i), ev) w' := by
    cases a with
    | send data beyond =>
        obtain ⟨w', sent⟩ := Transfers.send_of_wired wired data beyond
        exact ⟨_, w', sent⟩
    | recv lenBuf =>
        obtain ⟨-, m, sent, nul, -⟩ := step
        have queue := carries.own i
        rw [sent] at queue
        have stored : ∃ chunk, (taskOf (ends i.other).is m.1 m.2).recvfromChunk lenBuf = some chunk := by
          have nul' : 0 ∈ m.1 ++ m.2 := nul
          simp only [Task.recvfromChunk, strlen, taskOf, nul', if_true]
          split <;> exact ⟨_, rfl⟩
        obtain ⟨chunk, stored⟩ := stored
        exact ⟨_, _, Transfers.recv_of_wired wired queue stored⟩
  obtain ⟨under'', step', carries'⟩ := carries.step (awake ev) done
  cases Rendezvous.Step.functional _ _ _ _ step' step
  exact ⟨ev, w', awake ev, done, carries'⟩

/-- Every run of the simulator is one of two parties that meet. -/
theorem exists_meeting_of_run {es : List (Transfer × Delivery)} (start : Carries ends (fun _ => none) w₀)
    (run : Run (Guarded (Works ends) Transfers) w₀ es w) :
    ∃ ls under, Run (Rendezvous.Step Exchange.gives Exchange.takes) (fun _ => none) ls under ∧
      Carries ends under w ∧ es.map Prod.fst = calls ends ls := by
  induction run with
  | start => exact ⟨[], _, .start, start, rfl⟩
  | @next es label w w' _ step ih =>
      obtain ⟨ls, under, run, carries, same⟩ := ih
      obtain ⟨t, ev⟩ := label
      obtain ⟨⟨⟨i, a, rfl⟩, awake⟩, done⟩ := step
      obtain ⟨under', moved, carries'⟩ := carries.step awake done
      exact ⟨ls ++ [(i, a)], under', run.next moved, carries', by simp [same, calls]⟩

/-- Every run of two parties is one of the simulator, and goes on from where the simulator is. -/
theorem exists_run_of_meeting {es : List (Transfer × Delivery)} {ls ls' : List (Side × Exchange)}
    (run : Run (Guarded (Works ends) Transfers) w₀ es w) (carries : Carries ends under w)
    (first : Run (Rendezvous.Step Exchange.gives Exchange.takes) (fun _ => none) ls under)
    (meeting : Run (Rendezvous.Step Exchange.gives Exchange.takes) (fun _ => none) (ls ++ ls') under') :
    ∃ es' w', Run (Guarded (Works ends) Transfers) w₀ (es ++ es') w' ∧ Carries ends under' w' ∧
      es'.map Prod.fst = calls ends ls' := by
  induction ls' using List.reverseRecOn generalizing under' with
  | nil =>
      rw [List.append_nil] at meeting
      cases Run.unique Rendezvous.Step.functional first meeting
      exact ⟨[], w, by simpa using run, carries, rfl⟩
  | append_singleton ls' l ih =>
      rw [← List.append_assoc] at meeting
      obtain ⟨between, meeting, step⟩ := Run.concat_iff.mp meeting
      obtain ⟨es', w', run', carries', same⟩ := ih meeting
      obtain ⟨ev, w'', awake, done, carries''⟩ := carries'.exists_step step
      refine ⟨es' ++ [(l.2.on (ends l.1), ev)], w'', ?_, carries'', by simp [same, calls]⟩
      rw [← List.append_assoc]
      exact run'.next ⟨⟨⟨l.1, l.2, rfl⟩, awake⟩, done⟩

/-- A run in which the two have done all of their scripts and every message has arrived. -/
def Completes (ends : Side → Endpoint) (script : Side → List Exchange) (w₀ : World H)
    (es : List (Transfer × Delivery)) : Prop :=
  ∃ w, Run (Guarded (Works ends) Transfers) w₀ es w ∧ Follows ends script es ∧
    ∀ host, w.mailboxes host = []

/-- Two processes with one connection between two hosts can do what their scripts say if and only
    if the scripts face each other call by call: where one sends, the other receives, and finds a
    NUL in the message or behind it. -/
theorem exchange_completes_iff (joined : Joined ends w₀) (empty : ∀ host, w₀.mailboxes host = [])
    (script : Side → List Exchange) :
    (∃ es, Completes ends script w₀ es) ↔
      Rendezvous.Dual Exchange.gives Exchange.takes script := by
  have start := joined.carries empty
  constructor
  · rintro ⟨es, w, run, follows, arrived⟩
    obtain ⟨ls, under, meeting, carries, same⟩ := exists_meeting_of_run start run
    cases carries.empty_iff.mp arrived
    rw [← (follows_iff joined same).mp follows]
    exact Rendezvous.dual_of_run meeting
  · intro dual
    have nothing : Run (Rendezvous.Step Exchange.gives Exchange.takes) (fun _ => none) [] _ := .start
    obtain ⟨ls, meeting, worked⟩ := Rendezvous.exists_completion dual nothing fun i => List.nil_prefix
    obtain ⟨es, w, run, carries, same⟩ := exists_run_of_meeting .start start nothing meeting
    exact ⟨es, w, run, (follows_iff joined same).mpr worked, carries.empty_iff.mpr rfl⟩

/-- A request and its answer. -/
def askAndAnswer : Side → List Exchange
  | .left => [.send [63, 0] [], .recv 2]
  | .right => [.recv 2, .send [33, 0] []]

/-- Both send before they receive. -/
def bothSend : Side → List Exchange
  | .left => [.send [63, 0] [], .recv 2]
  | .right => [.send [33, 0] [], .recv 2]

theorem askAndAnswer_dual : Rendezvous.Dual Exchange.gives Exchange.takes askAndAnswer := by
  simp [Rendezvous.Dual, askAndAnswer, Rendezvous.Faces, Exchange.gives, Exchange.takes]

/-- A request is answered; two processes that both send first wait for ever. -/
theorem request_completes : ∃ w₀ : World (Fin 3),
    (∃ es, Completes clientAndServer askAndAnswer w₀ es) ∧
      ¬ ∃ es, Completes clientAndServer bothSend w₀ es := by
  obtain ⟨w₀, joined, empty⟩ := exists_joined
  refine ⟨w₀, (exchange_completes_iff joined empty _).mpr askAndAnswer_dual, ?_⟩
  rw [exchange_completes_iff joined empty]
  simp [Rendezvous.Dual, bothSend, Rendezvous.Faces, Exchange.gives]

/-- When the scripts face each other, the two never get stuck: whatever they have done of them, in
    whatever order, can be continued to the end. -/
theorem exchange_never_stuck (joined : Joined ends w₀) (empty : ∀ host, w₀.mailboxes host = [])
    {script done : Side → List Exchange} (dual : Rendezvous.Dual Exchange.gives Exchange.takes script)
    (begun : ∀ i, done i <+: script i) {es : List (Transfer × Delivery)}
    (run : Run (Guarded (Works ends) Transfers) w₀ es w) (follows : Follows ends done es) :
    ∃ es', Completes ends script w₀ (es ++ es') := by
  obtain ⟨ls, under, meeting, carries, same⟩ := exists_meeting_of_run (joined.carries empty) run
  have worked := (follows_iff joined same).mp follows
  obtain ⟨ls', completed, whole⟩ := Rendezvous.exists_completion dual meeting
    fun i => worked ▸ begun i
  obtain ⟨es', w', run', carries', same'⟩ := exists_run_of_meeting run carries meeting completed
  have all : (es ++ es').map Prod.fst = calls ends (ls ++ ls') := by
    simp [same, same', calls]
  exact ⟨es', w', run', (follows_iff joined all).mpr whole, carries'.empty_iff.mpr rfl⟩

/-- The client has sent its request. -/
def requestSent : Side → List Exchange
  | .left => [.send [63, 0] []]
  | .right => []

/-- The request of a client that waits gets its answer. -/
theorem request_continues : ∃ (w₀ w : World (Fin 3)) (es es' : List (Transfer × Delivery)),
    Run (Guarded (Works clientAndServer) Transfers) w₀ es w ∧
      Follows clientAndServer requestSent es ∧ Completes clientAndServer askAndAnswer w₀ (es ++ es') := by
  obtain ⟨w₀, joined, empty⟩ := exists_joined
  have asked : Rendezvous.Step Exchange.gives Exchange.takes (fun _ => none)
      (.left, .send [63, 0] []) _ := Rendezvous.step_give rfl rfl
  obtain ⟨ev, w, awake, sent, -⟩ := (joined.carries empty).exists_step asked
  have run : Run (Guarded (Works clientAndServer) Transfers) w₀
      [(.send 1 3 [63, 0] [], ev)] w := .next .start ⟨⟨⟨.left, .send [63, 0] [], rfl⟩, awake⟩, sent⟩
  have follows : Follows clientAndServer requestSent [(.send 1 3 [63, 0] [], ev)] := by
    intro i
    cases i <;> rfl
  have begun : ∀ i, requestSent i <+: askAndAnswer i := by
    intro i
    cases i <;> simp [requestSent, askAndAnswer]
  obtain ⟨es', completes⟩ := exchange_never_stuck joined empty askAndAnswer_dual begun run follows
  exact ⟨w₀, w, _, es', run, follows, completes⟩

end

end World

end Simterpose
