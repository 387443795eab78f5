import Simterpose.Pairing

/-! # Where a send goes

Each communication has two records of messages, one for each side. `process_send_call`
puts what it sends into both queues of one record: that of slot 1 for the socket in slot
0, that of slot 0 for any other. Along a run in which nothing is closed and every socket
plays one part only, the record a socket sends to never changes, and it is the one its
peer reads.
-/

namespace Simterpose

open Lib

/-- A send that got through to a communication, with the record it went to. -/
structure Sent where
  on : SockId
  data : List UInt8
  beyond : List UInt8
  recv : RecvRef
  deriving Repr, DecidableEq

/-- What a send leaves in `data_fifo`. -/
def Sent.dataSend (sent : Sent) : DataSend := { data := sent.data, size := toCInt sent.data.length }

/-- The task a send leaves in `recv_task`. -/
def Sent.task (sent : Sent) : Task :=
  { bytesAmount := toCInt sent.data.length, data := sent.data, beyond := sent.beyond
    sentOn := sent.on }

namespace World

section

variable {H : Type} (w : World H)

/-- What a call sends, and to which record. -/
def sentBy : Op → Option Sent
  | .send proc fd data beyond =>
      match w.getInfosSocket proc fd with
      | none => none
      | some is =>
          if w.socketNetlink proc fd then none
          else
            match w.commGetPeerRecv is with
            | .ok recv => some { on := is, data := data, beyond := beyond, recv := recv }
            | .error _ => none
  | _ => none

/-! ## What the primitives do to the records -/

theorem recvInformation_congr {w w' : World H} (same : w'.comms.cell = w.comms.cell) :
    w'.recvInformation = w.recvInformation := by
  funext recv
  simp only [recvInformation, World.comm, same]

theorem recvInformation_modifySocket (is : SockId) (f : InfosSocket H → InfosSocket H) :
    (w.modifySocket is f).recvInformation = w.recvInformation := rfl

theorem recvInformation_addRefNb (is : SockId) (n : Int) :
    (w.addRefNb is n).recvInformation = w.recvInformation := rfl

theorem recvInformation_modifyComm (k : CommId) {f : Comm H → Comm H}
    (first : ∀ c, (f c).info0.recv = c.info0.recv) (second : ∀ c, (f c).info1.recv = c.info1.recv) :
    (w.modifyComm k f).recvInformation = w.recvInformation := by
  funext recv
  simp only [recvInformation, modifyComm, World.comm, Heap.cell_modify]
  split
  · split
    · exact first _
    · rfl
  · split
    · exact second _
    · rfl

theorem recvInformation_modifyRecv (recv : RecvRef) (f : RecvInformation H → RecvInformation H) :
    (w.modifyRecv recv f).recvInformation =
      Function.update w.recvInformation recv (f (w.recvInformation recv)) := by
  obtain ⟨k, slot⟩ := recv
  funext ⟨j, side⟩
  simp only [Function.update_apply, RecvRef.mk.injEq]
  by_cases here : j = k
  · subst here
    cases slot with
    | zero => cases side <;> simp [recvInformation, modifyRecv, modifyComm, World.comm]
    | one => cases side <;> simp [recvInformation, modifyRecv, modifyComm, World.comm]
  · cases slot with
    | zero => cases side <;> simp [recvInformation, modifyRecv, modifyComm, World.comm, Heap.cell_modify, here]
    | one => cases side <;> simp [recvInformation, modifyRecv, modifyComm, World.comm, Heap.cell_modify, here]

/-- The records of a new communication are empty. -/
theorem recvInformation_commNew (is : SockId)
    (blank : ∀ slot, w.recvInformation ⟨w.comms.next, slot⟩ = {}) :
    (w.commNew is).recvInformation = w.recvInformation := by
  funext ⟨k, slot⟩
  by_cases new : k = w.comms.next
  · subst new
    rw [blank]
    cases slot <;> simp [recvInformation, commNew, World.comm]
  · cases slot <;> simp [recvInformation, commNew, World.comm, Heap.cell_alloc, new]

theorem recvInformation_queueConnection (is conn : SockId) (k : CommId)
    (blank : ∀ slot, w.recvInformation ⟨w.comms.next, slot⟩ = {}) :
    (w.queueConnection is conn k).recvInformation = w.recvInformation := by
  simp only [queueConnection, recvInformation_addRefNb]
  refine (recvInformation_modifyComm _ _ (by intro; rfl) (by intro; rfl)).trans ?_
  refine (recvInformation_modifyComm _ _ (by intro; rfl) (by intro; rfl)).trans ?_
  exact w.recvInformation_commNew is blank

theorem recvInformation_takeConnection (is : SockId) (k conn : CommId) (rest : List CommId) :
    (w.takeConnection is k conn rest).recvInformation = w.recvInformation := by
  simp only [takeConnection, recvInformation_modifySocket]
  refine (recvInformation_modifyComm _ _ (by intro; rfl) (by intro; rfl)).trans ?_
  exact recvInformation_modifyComm _ _ (by intro; rfl) (by intro; rfl)

end

section

variable {H : Type} [DecidableEq H] (w : World H)

theorem comms_setPortOnBinding (host : H) (port : Nat) (is : SockId) (device : Nat) :
    (w.setPortOnBinding host port is device).comms = w.comms := by
  unfold setPortOnBinding
  split <;> rfl

theorem recvInformation_sendFrom (is s : SockId) (recv : RecvRef) (sent : DataSend)
    (tci : TaskCommInfo H) (receiver : H) :
    (w.sendFrom is s recv sent tci receiver).recvInformation =
      Function.update w.recvInformation recv
        { dataFifo := (w.recvInformation recv).dataFifo ++ [sent]
          recvTask := (w.recvInformation recv).recvTask ++ [tci] } := by
  have mailed : ∀ (v : World H) (task : Task),
      (v.sendTask receiver task).recvInformation = v.recvInformation := fun _ _ => rfl
  simp only [sendFrom, recvInformation_addRefNb, mailed, recvInformation_modifyRecv]
  simp

theorem recvInformation_bindTo (host : H) (sai : SockaddrIn) (is : SockId) :
    (w.bindTo host sai is).recvInformation = w.recvInformation := by
  apply recvInformation_congr
  change (setPortOnBinding _ _ _ _ _).comms.cell = _
  rw [comms_setPortOnBinding]
  rfl

theorem recvInformation_acceptFrom (proc : Pid) (newfd : Int) (listener : SockId) (k conn : CommId)
    (rest : List CommId) (ip : UInt32) :
    (w.acceptFrom proc newfd listener k conn rest ip).recvInformation = w.recvInformation :=
  recvInformation_takeConnection (w.confirmRegisterSocket proc newfd (w.socket listener).domain
    (w.socket listener).type (w.socket listener).protocol) w.sockets.next k conn rest

end

/-! ## Sends along a run -/

section

variable {H : Type} {w : World H}

/-- What was sent, in order. -/
def sends (es : List ((Op × Event H) × Option Sent)) : List Sent := es.filterMap Prod.snd

/-- What was sent to a record, in order. -/
def sentTo (recv : RecvRef) (es : List ((Op × Event H) × Option Sent)) : List Sent :=
  (sends es).filter (·.recv = recv)

/-- Where a socket sends to is where its peer reads. -/
theorem commGetPeer_of_recv (sound : w.links.Sound) {x y : SockId} {recv : RecvRef}
    (own : w.commGetOwnRecv x = some recv) (peer : w.commGetPeerRecv y = .ok recv) :
    w.commGetPeer x = .ok (some y) := by
  unfold commGetOwnRecv at own
  unfold commGetPeerRecv at peer
  unfold commGetPeer
  split at own
  · cases own
  · rename_i k attached
    split at peer
    · cases peer
    · rename_i k' attached'
      split at own
      · rename_i mine
        cases own
        split at peer
        · cases peer
        · rename_i other
          cases peer
          -- `y` is not in slot 0, so it is in slot 1
          have held : w.links.comm y = some k := attached'
          rcases sound.slot held with first | ⟨second, -⟩
          · exact absurd first other
          · rw [if_pos mine]
            exact congrArg Except.ok second
      · rename_i other
        cases own
        split at peer
        · rename_i theirs
          cases peer
          rw [if_neg other, theirs]
        · cases peer

/-- The queues of each record against what was sent to it. -/
structure Routed (es : List ((Op × Event H) × Option Sent)) (w : World H) : Prop where
  stable : ∀ sent ∈ sends es, w.commGetPeerRecv sent.on = .ok sent.recv
  dataFifo : ∀ recv, (w.recvInformation recv).dataFifo = (sentTo recv es).map Sent.dataSend
  recvTask : ∀ recv, (w.recvInformation recv).recvTask.map (·.task) = (sentTo recv es).map Sent.task

theorem sends_append (es : List ((Op × Event H) × Option Sent)) (label : Op × Event H)
    (sent : Option Sent) : sends (es ++ [(label, sent)]) = sends es ++ sent.toList := by
  cases sent <;> simp [sends, List.filterMap_append]

theorem sentTo_append (recv : RecvRef) (es : List ((Op × Event H) × Option Sent))
    (label : Op × Event H) (sent : Option Sent) :
    sentTo recv (es ++ [(label, sent)]) = sentTo recv es ++ sent.toList.filter (·.recv = recv) := by
  simp [sentTo, sends_append]

/-- No record of a communication that does not exist was ever sent to. -/
theorem Routed.blank {es : List ((Op × Event H) × Option Sent)} (routed : w.Routed es) (sound : w.links.Sound) (slot : Slot) :
    w.recvInformation ⟨w.comms.next, slot⟩ = {} := by
  have unsent : sentTo ⟨w.comms.next, slot⟩ es = [] := by
    apply List.filter_eq_nil_iff.mpr
    intro sent member here
    have recv : sent.recv = ⟨w.comms.next, slot⟩ := by simpa using here
    have stable := routed.stable sent member
    unfold commGetPeerRecv at stable
    split at stable
    · cases stable
    · rename_i k attached
      have held : w.links.comm sent.on = some k := attached
      have lt : k < w.comms.next := sound.commLt held
      have same : k = w.comms.next := by
        split at stable <;> (rw [recv] at stable; cases stable; rfl)
      exact Nat.lt_irrefl _ (same ▸ lt)
  have fifo := routed.dataFifo ⟨w.comms.next, slot⟩
  have tasks := routed.recvTask ⟨w.comms.next, slot⟩
  rw [unsent] at fifo tasks
  cases record : w.recvInformation ⟨w.comms.next, slot⟩ with
  | mk dataFifo recvTask =>
      rw [record] at fifo tasks
      simp only [List.map_nil, List.map_eq_nil_iff] at fifo tasks
      rw [fifo, tasks]

end

variable {H : Type} [DecidableEq H] {w w' w₀ : World H}

/-- A step together with what it sent. -/
def Records (w : World H) (label : (Op × Event H) × Option Sent) (w' : World H) : Prop :=
  w.Step label.1 w' ∧ label.2 = w.sentBy label.1.1

/-- A call that neither sends nor closes leaves the records alone. -/
theorem Effect.recvInformation {label : Op × Event H} (keeps : label.1.closes = none)
    (quiet : ∀ proc fd data beyond, label.1 ≠ .send proc fd data beyond)
    (blank : ∀ slot, w.recvInformation ⟨w.comms.next, slot⟩ = {}) (effect : w.Effect label w') :
    w'.recvInformation = w.recvInformation := by
  cases effect with
  | quiet => rfl
  | socket => rfl
  | bind => exact w.recvInformation_bindTo ..
  | @listen _ _ is =>
      refine (recvInformation_modifyComm _ _ (by intro; rfl) (by intro; rfl)).trans ?_
      exact w.recvInformation_commNew is blank
  | @connect _ _ _ is conn k => exact w.recvInformation_queueConnection is conn k blank
  | accept => exact w.recvInformation_acceptFrom ..
  | send => exact (quiet _ _ _ _ rfl).elim
  | close => cases keeps
  | @dup _ _ _ ref =>
      apply recvInformation_congr
      cases ref <;> rfl
  | dup2 => cases keeps

/-- A step that sends appends one entry to each queue of one record. -/
theorem Records.sent {label : Op × Event H} {sent : Sent}
    (records : w.Records (label, some sent) w') :
    w.commGetPeerRecv sent.on = .ok sent.recv ∧ w'.links = w.links ∧
      ∃ tci : TaskCommInfo H, tci.task = sent.task ∧
        w'.recvInformation = Function.update w.recvInformation sent.recv
          { dataFifo := (w.recvInformation sent.recv).dataFifo ++ [sent.dataSend]
            recvTask := (w.recvInformation sent.recv).recvTask ++ [tci] } := by
  obtain ⟨op, ev⟩ := label
  obtain ⟨step, sends⟩ := records
  cases op with
  | send proc fd data beyond =>
      obtain ⟨⟨w₁, done⟩, handled, rest⟩ := bind_eq_ok.mp step
      obtain ⟨rfl, -⟩ := Prod.mk.inj (pure_eq_ok.mp rest)
      rcases processSendCall_ok handled with ⟨netlink, rfl⟩ |
        ⟨is, s, recv, tci, receiver, found, network, -, peerRecv, task, rfl⟩
      · simp only [sentBy, netlink, if_true] at sends
        split at sends <;> cases sends
      · simp only [sentBy, found, network, peerRecv] at sends
        cases sends
        exact ⟨peerRecv, w.links_sendFrom .., tci, task, w.recvInformation_sendFrom ..⟩
  | _ => cases sends

/-- A step that sends nothing and closes nothing leaves the records alone. -/
theorem Records.unsent {label : Op × Event H} (sound : w.links.Sound)
    (keeps : label.1.closes = none)
    (blank : ∀ slot, w.recvInformation ⟨w.comms.next, slot⟩ = {})
    (records : w.Records (label, none) w') : w'.recvInformation = w.recvInformation := by
  obtain ⟨op, ev⟩ := label
  obtain ⟨step, sends⟩ := records
  by_cases sending : ∃ proc fd data beyond, op = .send proc fd data beyond
  · obtain ⟨proc, fd, data, beyond, rfl⟩ := sending
    obtain ⟨⟨w₁, done⟩, handled, rest⟩ := bind_eq_ok.mp step
    obtain ⟨rfl, -⟩ := Prod.mk.inj (pure_eq_ok.mp rest)
    rcases processSendCall_ok handled with ⟨-, rfl⟩ |
      ⟨is, s, recv, tci, receiver, found, network, -, peerRecv, -, rfl⟩
    · rfl
    · simp [sentBy, found, network, peerRecv] at sends
  · apply (step.effect_of_sound sound).recvInformation keeps _ blank
    intro proc fd data beyond same
    exact sending ⟨proc, fd, data, beyond, same⟩

namespace Routed

variable {es : List ((Op × Event H) × Option Sent)} {label : Op × Event H}

theorem send (routed : w.Routed es) {sent : Sent} (records : w.Records (label, some sent) w') :
    w'.Routed (es ++ [(label, some sent)]) := by
  obtain ⟨peerRecv, links, tci, task, queues⟩ := records.sent
  constructor
  · intro sent' member
    rw [commGetPeerRecv_congr links]
    rw [sends_append] at member
    rcases List.mem_append.mp member with before | now
    · exact routed.stable sent' before
    · cases List.mem_singleton.mp now
      exact peerRecv
  · intro recv
    rw [queues, sentTo_append, Function.update_apply]
    by_cases here : recv = sent.recv
    · subst here
      simp [routed.dataFifo]
    · simp [here, Ne.symm here, routed.dataFifo]
  · intro recv
    rw [queues, sentTo_append, Function.update_apply]
    by_cases here : recv = sent.recv
    · subst here
      simp [routed.recvTask, task]
    · simp [here, Ne.symm here, routed.recvTask]

theorem unsent (routed : w.Routed es) (paired : w.links.Paired (es.map Prod.fst))
    (keeps : label.1.closes = none) (once : (engaged (es.map Prod.fst ++ [label])).Nodup)
    (records : w.Records (label, none) w') : w'.Routed (es ++ [(label, none)]) := by
  have queues := records.unsent paired.sound keeps (routed.blank paired.sound)
  have links := (records.1.effect_of_sound paired.sound).links
  constructor
  · intro sent member
    rw [sends_append] at member
    have stable := routed.stable sent (by simpa using member)
    cases attached : w.links.comm sent.on with
    | none =>
        have none_ : (w.socket sent.on).comm = none := attached
        simp [commGetPeerRecv, none_] at stable
    | some k =>
        obtain ⟨comm, info0⟩ := paired.kept keeps once links attached
        rw [commGetPeerRecv_kept attached comm info0, stable]
  · intro recv
    rw [queues, sentTo_append]
    simpa using routed.dataFifo recv
  · intro recv
    rw [queues, sentTo_append]
    simpa using routed.recvTask recv

end Routed

variable {es : List ((Op × Event H) × Option Sent)}

/-- The calls of a run with what they sent are the calls of a run. -/
theorem run_of_records {guard : World H → Op × Event H → Prop}
    (run : Run (Guarded (fun w e => guard w e.1) Records) w₀ es w) :
    Run (Guarded guard Step) w₀ (es.map Prod.fst) w := by
  induction run with
  | start => exact .start
  | next _ step ih =>
      rw [List.map_append]
      exact .next ih ⟨step.1, step.2.1⟩

theorem routed_of_run (initial : w₀.Initial)
    (run : Run (Guarded (fun w e => w.OpenCall e.1) Records) w₀ es w)
    (once : (engaged (es.map Prod.fst)).Nodup) : w.Routed es := by
  induction run with
  | start =>
      have blank : ∀ recv, w₀.recvInformation recv = {} := by
        intro recv
        simp only [recvInformation, initial.blank]
        split <;> rfl
      exact ⟨by simp [sends], by simp [blank, sentTo, sends], by simp [blank, sentTo, sends]⟩
  | @next es label w w' run step ih =>
      obtain ⟨label, sent⟩ := label
      rw [List.map_append] at once
      have before : (engaged (es.map Prod.fst)).Nodup := by
        rw [List.map_singleton, engaged_append] at once
        exact once.of_append_left
      have paired := (paired_of_run initial (run_of_records run)).2 before
      cases sent with
      | none => exact (ih before).unsent paired step.1.1 once step.2
      | some sent => exact (ih before).send step.2

/-- What a socket sends goes to the record its peer reads, or will read once it is accepted,
    and the queues of a record hold what its peer sent, in order. -/
theorem sends_reach_peer (initial : w₀.Initial)
    (run : Run (Guarded (fun w e => w.OpenCall e.1) Records) w₀ es w)
    (once : (engaged (es.map Prod.fst)).Nodup) :
    (∀ label sent w', w.Records (label, some sent) w' →
      ∃ tci : TaskCommInfo H, tci.task = sent.task ∧
        w'.recvInformation sent.recv =
          { dataFifo := (w.recvInformation sent.recv).dataFifo ++ [sent.dataSend]
            recvTask := (w.recvInformation sent.recv).recvTask ++ [tci] } ∧
        ∀ recv, recv ≠ sent.recv → w'.recvInformation recv = w.recvInformation recv) ∧
    (∀ sent ∈ sends es, ∀ op listener c n sai,
      (op, Event.accepted listener c n sai) ∈ es.map Prod.fst →
        (sent.on = c → w.commGetOwnRecv n = some sent.recv) ∧
        (sent.on = n → w.commGetOwnRecv c = some sent.recv)) ∧
    ∀ x recv, w.commGetOwnRecv x = some recv →
      (∀ sent ∈ sentTo recv es, w.commGetPeer x = .ok (some sent.on)) ∧
      (w.recvInformation recv).dataFifo = (sentTo recv es).map Sent.dataSend ∧
      (w.recvInformation recv).recvTask.map (·.task) = (sentTo recv es).map Sent.task := by
  have paired := (paired_of_run initial (run_of_records run)).2 once
  have routed := routed_of_run initial run once
  refine ⟨?_, ?_, ?_⟩
  · intro label sent w' records
    obtain ⟨-, -, tci, task, queues⟩ := records.sent
    refine ⟨tci, task, by simp [queues], ?_⟩
    intro recv other
    simp [queues, other]
  · intro sent member op listener c n sai accepted
    have stable := routed.stable sent member
    obtain ⟨k, client, new, first, second, distinct, -⟩ := paired.pairs accepted
    obtain ⟨-, -, ⟨recv, own, sending⟩, ⟨recv', own', sending'⟩⟩ :=
      peers_of_pair client new first second distinct
    constructor
    · rintro rfl
      cases sending.symm.trans stable
      exact own
    · rintro rfl
      cases sending'.symm.trans stable
      exact own'
  · intro x recv own
    refine ⟨?_, routed.dataFifo recv, routed.recvTask recv⟩
    intro sent member
    obtain ⟨member, here⟩ := List.mem_filter.mp member
    have same : sent.recv = recv := by simpa using here
    exact commGetPeer_of_recv paired.sound own (same ▸ routed.stable sent member)

/-- What can be computed of some calls and what they sent holds after some run. -/
theorem exists_records (guard : World H → Op × Event H → Prop)
    [∀ w label, Decidable (guard w label)] (w₀ : World H) (ops : List Op)
    {P : List ((Op × Event H) × Option Sent) → World H → Prop}
    (found : ∃ r ∈ perform (fun w op => (w.step op).toOption.map fun r =>
      (((op, r.2), w.sentBy op), r.1)) (fun w e => guard w e.1) w₀ ops, P r.1 r.2) :
    ∃ es w, Run (Guarded (fun w e => guard w e.1) Records) w₀ es w ∧ P es w := by
  apply Run.exists_of_results _ found
  intro w op outcome stepped
  exact ⟨stepped, rfl⟩

/-- A client sends before and after it is accepted, and is sent an answer; another one sends
    while it waits. -/
theorem sends_of_two_clients : ∃ es w,
    Run (Guarded (fun w e => w.OpenCall e.1) Records) threeHosts es w ∧
    (sends es).map Sent.on = [1, 2, 3, 1] ∧
    ∃ recv, w.commGetOwnRecv 3 = some recv ∧
      (∀ sent ∈ sentTo recv es, w.commGetPeer 3 = .ok (some sent.on)) ∧
      (w.recvInformation recv).dataFifo = [{ data := [7], size := 1 }, { data := [8, 9], size := 2 }] := by
  obtain ⟨es, w, run, once, senders, recv, own, fifo⟩ := exists_records OpenCall threeHosts
    [.socket 0 2 1 0 3, .bind 0 3 ⟨0, 80⟩, .listen 0 3, .socket 1 2 1 0 3, .socket 2 2 1 0 3,
      .connect 1 3 ⟨10, 80⟩, .connect 2 3 ⟨10, 80⟩, .send 1 3 [7] [], .send 2 3 [5] [],
      .accept 0 3 4, .send 0 4 [6] [], .send 1 3 [8, 9] []]
    (P := fun es w => (engaged (es.map Prod.fst)).Nodup ∧ (sends es).map Sent.on = [1, 2, 3, 1] ∧
      ∃ recv ∈ w.commGetOwnRecv 3, (sentTo recv es).map Sent.dataSend =
        [{ data := [7], size := 1 }, { data := [8, 9], size := 2 }]) (by decide)
  obtain ⟨fromPeer, queue, -⟩ :=
    (sends_reach_peer (boot_initial _ _ _) run once).2.2 3 recv own
  exact ⟨es, w, run, senders, recv, own, fromPeer, queue.trans fifo⟩

/-- A server connects the socket it got from `accept` to a third process. No socket listens or
    connects twice, but what the client sends does not reach the record of its peer. -/
theorem send_misses_reconnected_peer : ∃ es w w',
    Run (Guarded (fun w e => w.OpenCall e.1) Records) threeHosts es w ∧
    (es.filterMap fun e => e.1.2.uses).Nodup ∧ w.commGetPeer 1 = .ok (some 2) ∧
    ∃ sent recv, w.Records ((.send 1 3 [7] [], .silent), some sent) w' ∧ sent.on = 1 ∧
      w.commGetOwnRecv 2 = some recv ∧ w'.commGetOwnRecv 2 = some recv ∧
      (w'.recvInformation recv).dataFifo = [] := by
  obtain ⟨es, w, run, once, peer, ⟨w', ev⟩, stepped, silent, sent, sends, on, recv, own, own', fifo⟩ :=
    exists_records OpenCall threeHosts
    [.socket 0 2 1 0 3, .bind 0 3 ⟨0, 80⟩, .listen 0 3, .socket 1 2 1 0 3, .connect 1 3 ⟨10, 80⟩,
      .accept 0 3 4, .socket 2 2 1 0 3, .bind 2 3 ⟨0, 80⟩, .listen 2 3, .connect 0 4 ⟨12, 80⟩]
    (P := fun es w => (es.filterMap fun e => e.1.2.uses).Nodup ∧
      (w.commGetPeer 1).toOption = some (some 2) ∧
      ∃ r ∈ (w.step (.send 1 3 [7] [])).toOption, r.2 = .silent ∧
      ∃ sent ∈ w.sentBy (.send 1 3 [7] []), sent.on = 1 ∧ ∃ recv ∈ w.commGetOwnRecv 2,
        r.1.commGetOwnRecv 2 = some recv ∧ (r.1.recvInformation recv).dataFifo = []) (by decide)
  have step := Step.of_result stepped
  simp only at silent
  subst silent
  exact ⟨es, w, w', run, once, eq_ok_of_mem_toOption peer, sent, recv, ⟨step, sends.symm⟩, on, own,
    own', fifo⟩

end World

end Simterpose
