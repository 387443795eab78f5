import Simterpose.Delivery
import Simterpose.Owners
import Simterpose.Routing

/-! # What is left in the queues

A send leaves a message in the mailbox of the receiver's host and in both queues of the
receiver's record. The receive calls take it from the mailbox and from nowhere else, and the
death of a process empties the records of its sockets. The mailbox is the host's: whoever
receives on the host takes the first task of it, which destroys the task for the socket that
it was sent towards. So the queues of the endpoints hold what was sent towards them and not
received as long as nothing is received that is queued for any of them, and no longer.
-/

namespace Simterpose

open Lib

/-- A receive call, with what it depends on beside the tables. -/
inductive Receive where
  | read (ret : Int)
  | recvfrom (lenBuf : Nat) (addrlen : Option Nat)
  | recvmsg (iovLens : List Nat)
  deriving Repr, DecidableEq

/-- What can happen to the messages. -/
inductive Traffic where
  | send (proc : Pid) (fd : Int) (data beyond : List UInt8)
  | receive (proc : Pid) (fd : Int) (call : Receive)
  | die (proc : Pid) (fds : List Int)
  deriving Repr, DecidableEq

/-- What became of it. -/
inductive Passage where
  | sent (sent : Sent)
  /-- a task was taken by the socket, whose record is given -/
  | received (is : SockId) (own : Option RecvRef) (task : Task)
  | nothing
  deriving Repr, DecidableEq

/-- The messages sent towards a record and not received, after one more event. What its owner
    takes is received; a task that another socket takes is gone as well, which counts if
    `elsewhere` is set. -/
def Passage.settle (elsewhere : Bool) (recv : RecvRef) (queue : List Sent) : Passage → List Sent
  | .sent s => if s.recv = recv then queue ++ [s] else queue
  | .received _ own task =>
      if elsewhere ∨ own = some recv then queue.eraseP (fun sent => sent.task = task) else queue
  | .nothing => queue

/-- The messages sent towards a record and not yet received, in the order of sending. -/
def pending (elsewhere : Bool) (recv : RecvRef) (es : List (Traffic × Passage)) : List Sent :=
  es.foldl (fun queue e => e.2.settle elsewhere recv queue) []

theorem pending_concat (elsewhere : Bool) (recv : RecvRef) (es : List (Traffic × Passage))
    (e : Traffic × Passage) :
    pending elsewhere recv (es ++ [e]) = e.2.settle elsewhere recv (pending elsewhere recv es) := by
  simp [pending, List.foldl_append]

namespace World

section

variable {H : Type} (w : World H)

def sendPassage (op : Op) : Passage :=
  match w.sentBy op with
  | some sent => .sent sent
  | none => .nothing

def receivePassage (proc : Pid) (fd : Int) (got : Option (Task × List UInt8)) : Passage :=
  match w.getInfosSocket proc fd, got with
  | some is, some (task, _) => .received is (w.commGetOwnRecv is) task
  | _, _ => .nothing

variable {w} {w' : World H}

theorem commGetOwnRecv_congr (comm : w'.links.comm = w.links.comm) (info0 : w'.links.info0 = w.links.info0)
    (is : SockId) : w'.commGetOwnRecv is = w.commGetOwnRecv is := by
  have attached : (w'.socket is).comm = (w.socket is).comm := congrFun comm is
  have first : ∀ k, (w'.comm k).info0.socket = (w.comm k).info0.socket := congrFun info0
  simp only [commGetOwnRecv, attached, first]

theorem commGetOwnRecv_ok {is : SockId} {recv : RecvRef} (own : w.commGetOwnRecv is = some recv) :
    w.links.comm is = some recv.comm ∧ (recv.slot = .zero ↔ w.links.info0 recv.comm = some is) := by
  unfold commGetOwnRecv at own
  split at own
  · cases own
  · rename_i k attached
    split at own
    · rename_i first
      cases own
      exact ⟨attached, iff_of_true rfl first⟩
    · rename_i other
      cases own
      exact ⟨attached, iff_of_false (by simp) other⟩

/-- Different sockets have different records. -/
theorem commGetOwnRecv_inj (sound : w.links.Sound) {s t : SockId} {recv : RecvRef}
    (first : w.commGetOwnRecv s = some recv) (second : w.commGetOwnRecv t = some recv) : s = t := by
  obtain ⟨commS, zeroS⟩ := commGetOwnRecv_ok first
  obtain ⟨commT, zeroT⟩ := commGetOwnRecv_ok second
  rcases sound.slot commS with slotS | ⟨slotS, -⟩
  · exact Option.some.inj (slotS.symm.trans (zeroT.mp (zeroS.mpr slotS)))
  · rcases sound.slot commT with slotT | ⟨slotT, -⟩
    · exact Option.some.inj ((zeroS.mp (zeroT.mpr slotT)).symm.trans slotT)
    · exact Option.some.inj (slotS.symm.trans slotT)

theorem recvInformation_commDestroy (w : World H) (k : CommId) :
    (w.commDestroy k).recvInformation = w.recvInformation := by
  have dropped : ∀ (v : World H) (socket : Option SockId),
      (v.dropInfo socket).recvInformation = v.recvInformation := by
    intro v socket
    cases socket <;> rfl
  have unlisted : ∀ v : World H, ((v.unlistComm k).freeComm k).recvInformation = v.recvInformation := by
    intro v
    unfold unlistComm
    split
    · exact recvInformation_modifyComm v k (f := fun c => { c with refNb := c.refNb - 1 })
        (by intro; rfl) (by intro; rfl)
    · rfl
  rw [commDestroy, unlisted, recvInformation_modifyComm _ k (by intro; rfl) (by intro; rfl), dropped,
    dropped]

/-- Descriptors and slots fit together, and a process has only sockets that it made. -/
structure Linked (w : World H) : Prop where
  sound : w.links.Sound
  owned : ∀ {proc fd s}, w.links.opened proc fd = some s → w.owner s = proc

/-- Connections over which nothing was sent yet. -/
structure Fresh (w : World H) : Prop extends Linked w where
  blank : ∀ recv, w.recvInformation recv = {}

theorem Linked.same (linked : w.Linked) (links : w'.links = w.links) (owner : w'.owner = w.owner) :
    w'.Linked := by
  refine ⟨links ▸ linked.sound, ?_⟩
  rw [links, owner]
  exact linked.owned

theorem commGetSocketState_readable {is : SockId} {k : CommId} {recv : RecvRef}
    (attached : (w.socket is).comm = some k) (idle : (w.comm k).connWait = [])
    (own : w.commGetOwnRecv is = some recv) :
    w.commGetSocketState is &&& socketReadOk ≠ 0 ↔ (w.recvInformation recv).dataFifo ≠ [] := by
  have peer : ∃ peer, w.commGetPeer is = .ok peer := by
    simp only [commGetPeer, attached]
    split <;> exact ⟨_, rfl⟩
  obtain ⟨peer, found⟩ := peer
  have closed : (if (w.comm k).state = .closed then socketClosed else 0) &&& socketReadOk = 0 := by
    split <;> rfl
  have writable : (if peer = none then 0 else socketWrNblk) &&& socketReadOk = 0 := by
    split <;> rfl
  have shut : (if (w.comm k).state = .shut then socketShut else 0) &&& socketReadOk = 0 := by
    split <;> rfl
  simp only [commGetSocketState, attached, own, found, idle, if_true, Nat.and_or_distrib_right, closed,
    writable, shut]
  cases (w.recvInformation recv).dataFifo <;> simp [socketReadOk]

theorem stored_ok {w₁ : World H} {task : Task} {stored : Option (List UInt8)}
    {got : Option (Task × List UInt8)}
    (done : (match stored with
      | none => Except.error Halt.segfault
      | some chunk => pure (w₁, some (task, chunk)) : Result (World H × Option (Task × List UInt8))) =
        .ok (w', got)) : w' = w₁ := by
  cases stored with
  | none => cases done
  | some chunk =>
      cases pure_eq_ok.mp done
      rfl

end

variable {H : Type} [DecidableEq H] (w : World H)

def receive (proc : Pid) (fd : Int) : Receive → Result (World H × Option (Task × List UInt8))
  | .read ret => w.syscallRead proc fd ret
  | .recvfrom lenBuf addrlen => w.syscallRecvfromPre proc fd lenBuf addrlen
  | .recvmsg iovLens => w.syscallRecvmsgPre proc fd iovLens

def traffic : Traffic → Result (World H × Passage)
  | .send proc fd data beyond => do
      let (w', _) ← w.step (.send proc fd data beyond)
      return (w', w.sendPassage (.send proc fd data beyond))
  | .receive proc fd call => do
      let (w', got) ← w.receive proc fd call
      return (w', w.receivePassage proc fd got)
  | .die proc fds => do
      let (w', _) ← w.processDie proc fds
      return (w', .nothing)

/-- The walk of a death visits every descriptor once. -/
def InOrder : Traffic → Prop
  | .die proc fds => fds.Perm (w.procs proc).fdMap.keys
  | _ => True

instance : (t : Traffic) → Decidable (w.InOrder t)
  | .die proc fds => inferInstanceAs (Decidable (fds.Perm (w.procs proc).fdMap.keys))
  | .send .. | .receive .. => .isTrue trivial

/-- One labelled step of sends, receives and deaths. -/
def Traffics (w : World H) (label : Traffic × Passage) (w' : World H) : Prop :=
  w.InOrder label.1 ∧ w.traffic label.1 = .ok (w', label.2)

variable {w} {w' w₀ : World H}

theorem Traffics.functional (w : World H) (label : Traffic × Passage) (w₁ w₂ : World H)
    (first : w.Traffics label w₁) (second : w.Traffics label w₂) : w₁ = w₂ :=
  (Prod.mk.inj (Except.ok.inj (first.2.symm.trans second.2))).1

/-! ## Receives -/

theorem receiveTask_ok {proc : Pid} {ref : DescRef} {store : Task → Option (List UInt8)}
    {got : Option (Task × List UInt8)} (done : w.receiveTask proc ref store = .ok (w', got)) :
    ∃ mailboxes, w' = { w with mailboxes := mailboxes } := by
  obtain ⟨mailbox, -, done⟩ := bind_eq_ok.mp done
  split at done
  · cases done
  · exact ⟨_, stored_ok done⟩

/-- A receive changes mailboxes only. -/
theorem receive_ok {proc : Pid} {fd : Int} {call : Receive} {got : Option (Task × List UInt8)}
    (done : w.receive proc fd call = .ok (w', got)) :
    ∃ mailboxes, w' = { w with mailboxes := mailboxes } := by
  cases call with
  | read ret =>
      simp only [receive, syscallRead] at done
      split at done
      · cases done
      · split at done
        · exact receiveTask_ok done
        · cases done
          exact ⟨w.mailboxes, rfl⟩
  | recvfrom lenBuf addrlen =>
      simp only [receive, syscallRecvfromPre] at done
      split at done
      · cases done
      · split at done
        · obtain ⟨mailbox, -, done⟩ := bind_eq_ok.mp done
          split at done
          · cases done
          · split at done
            · obtain ⟨-, -, done⟩ := bind_eq_ok.mp done
              exact ⟨_, stored_ok done⟩
            · exact ⟨_, stored_ok done⟩
        · cases done
          exact ⟨w.mailboxes, rfl⟩
  | recvmsg iovLens =>
      simp only [receive, syscallRecvmsgPre] at done
      split at done
      · cases done
      · split at done
        · exact receiveTask_ok done
        · cases done
          exact ⟨w.mailboxes, rfl⟩

/-! ## What closing does to the records -/

theorem recvInformation_releaseSocket (w : World H) (is : SockId) :
    (w.releaseSocket is).recvInformation = w.recvInformation := by
  apply recvInformation_congr
  exact congrArg Heap.cell (w.comms_releaseSocket is)

theorem recvInformation_commClose {is : SockId} (done : w.commClose is = .ok w') :
    w'.recvInformation = w.recvInformation := by
  rcases commClose_ok done with ⟨-, rfl⟩ | ⟨k, -, ⟨s, -, -, rfl⟩ | ⟨s, t, -, -, -, rfl⟩ | ⟨-, -, rfl⟩⟩
  · rfl
  · rw [recvInformation_commDestroy, recvInformation_releaseSocket]
  · rw [recvInformation_commDestroy, recvInformation_releaseSocket, recvInformation_releaseSocket]
  · exact recvInformation_modifyComm w k (by intro; rfl) (by intro; rfl)

theorem recvInformation_socketClose {proc : Pid} {fd : Int} (done : w.socketClose proc fd = .ok w') :
    w'.recvInformation = w.recvInformation := by
  unfold socketClose at done
  split at done
  · cases done
    rfl
  · rename_i is _
    obtain ⟨w₁, detached, rfl⟩ := bind_pure_eq_ok.mp done
    unfold detachSocket at detached
    split at detached
    · have closed : w₁.recvInformation = _ := recvInformation_commClose detached
      exact closed
    · cases detached
      rfl

/-- One round of `close_all_communication` empties the record of a socket of the process, and
    hands it out. -/
theorem closeCommunication_records {proc : Pid} {fd : Int} {record : RecvInformation H}
    (done : w.closeCommunication proc fd = .ok (w', record)) :
    (∀ recv, w'.recvInformation recv = w.recvInformation recv ∨ w'.recvInformation recv = {} ∧
        ∃ is, w.getInfosSocket proc fd = some is ∧ w.commGetOwnRecv is = some recv) ∧
      (record = {} ∨ ∃ is recv, w.getInfosSocket proc fd = some is ∧
        w.commGetOwnRecv is = some recv ∧ record = w.recvInformation recv) := by
  rcases closeCommunication_ok done with ⟨rfl, rfl, -⟩ | ⟨is, own, found, ownRecv, rfl, closed⟩
  · exact ⟨fun _ => .inl rfl, .inl rfl⟩
  · refine ⟨fun recv => ?_, .inr ⟨is, own, found, ownRecv, rfl⟩⟩
    rw [recvInformation_socketClose closed, recvInformation_modifyRecv]
    by_cases same : recv = own
    · subst same
      exact .inr ⟨Function.update_self .., is, found, ownRecv⟩
    · exact .inl (Function.update_of_ne same ..)

/-- The death of a process empties the records of its sockets and no others. -/
theorem closeAllCommunication_records {proc : Pid} {fds : List Int}
    {emptied : List (RecvInformation H)}
    (done : closeAllCommunication proc fds w = .ok (w', emptied)) :
    (∀ recv, (∀ fd is, w.getInfosSocket proc fd = some is → w.commGetOwnRecv is ≠ some recv) →
        w'.recvInformation recv = w.recvInformation recv) ∧
      ∀ record ∈ emptied, record = {} ∨ ∃ fd is recv, w.getInfosSocket proc fd = some is ∧
        w.commGetOwnRecv is = some recv ∧ record = w.recvInformation recv := by
  induction fds generalizing w emptied with
  | nil =>
      cases done
      exact ⟨fun _ _ => rfl, by simp⟩
  | cons fd fds ih =>
      obtain ⟨⟨w₁, one⟩, first, done⟩ := bind_eq_ok.mp done
      obtain ⟨⟨w₂, others⟩, rest, ⟨⟩⟩ := bind_pure_eq_ok.mp done
      -- what is open after the first round was open before, with the same record
      have shut := (closeCommunication_shut first).1
      have own : ∀ is, w₁.commGetOwnRecv is = w.commGetOwnRecv is :=
        commGetOwnRecv_congr shut.comm_eq shut.info0_eq
      have opened : ∀ {fd' is}, w₁.getInfosSocket proc fd' = some is →
          w.getInfosSocket proc fd' = some is := by
        intro fd' is there
        rw [getInfosSocket_eq_opened] at there ⊢
        exact shut.opened there
      obtain ⟨changed, taken⟩ := closeCommunication_records first
      obtain ⟨keptRest, takenRest⟩ := ih rest
      constructor
      · intro recv foreign
        have later : w₂.recvInformation recv = w₁.recvInformation recv := by
          refine keptRest recv fun fd' is there => ?_
          rw [own]
          exact foreign fd' is (opened there)
        rcases changed recv with same | ⟨-, is, found, ownRecv⟩
        · exact later.trans same
        · exact absurd ownRecv (foreign fd is found)
      · intro record member
        rcases List.mem_cons.mp member with rfl | member
        · refine taken.imp id ?_
          rintro ⟨is, recv, found, ownRecv, same⟩
          exact ⟨fd, is, recv, found, ownRecv, same⟩
        · rcases takenRest record member with blank | ⟨fd', is, recv, found, ownRecv, same⟩
          · exact .inl blank
          · rcases changed recv with before | ⟨blank, -⟩
            · rw [own] at ownRecv
              exact .inr ⟨fd', is, recv, opened found, ownRecv, same.trans before⟩
            · exact .inl (same.trans blank)

theorem processDie_records {proc : Pid} {fds : List Int} {emptied : List (RecvInformation H)}
    (done : w.processDie proc fds = .ok (w', emptied)) :
    (∀ recv, (∀ fd is, w.getInfosSocket proc fd = some is → w.commGetOwnRecv is ≠ some recv) →
        w'.recvInformation recv = w.recvInformation recv) ∧
      ∀ record ∈ emptied, record = {} ∨ ∃ fd is recv, w.getInfosSocket proc fd = some is ∧
        w.commGetOwnRecv is = some recv ∧ record = w.recvInformation recv := by
  obtain ⟨⟨w₁, records⟩, closed, ⟨⟩⟩ := bind_pure_eq_ok.mp done
  have destroyed : (w₁.processDescriptorDestroy proc fds).recvInformation = w₁.recvInformation := by
    have counted : ∀ (v : World H) (ref : DescRef) (n : Int),
        (v.addRefcount ref n).comms = v.comms := by
      intro v ref n
      cases ref <;> rfl
    have freed : ∀ (v : World H) (ref : DescRef), (v.freeDesc ref).comms = v.comms := by
      intro v ref
      cases ref <;> rfl
    have all := foldl_destroyDesc comms counted freed w₁ proc fds
    exact recvInformation_congr (congrArg Heap.cell all)
  rw [destroyed]
  exact closeAllCommunication_records closed

/-! ## Queues and what is pending -/

/-- All that sends, receives and deaths can do. -/
inductive Moves (w : World H) : Traffic × Passage → World H → Prop where
  | quiet {t w'} : w'.links = w.links → w'.owner = w.owner →
      w'.recvInformation = w.recvInformation → Moves w (t, .nothing) w'
  | sent {t s w'} {tci : TaskCommInfo H} : w'.links = w.links → w'.owner = w.owner →
      tci.task = s.task →
      w'.recvInformation = Function.update w.recvInformation s.recv
        { dataFifo := (w.recvInformation s.recv).dataFifo ++ [s.dataSend]
          recvTask := (w.recvInformation s.recv).recvTask ++ [tci] } → Moves w (t, .sent s) w'
  | received {proc fd call is task w'} : w.getInfosSocket proc fd = some is →
      w'.links = w.links → w'.owner = w.owner → w'.recvInformation = w.recvInformation →
      Moves w (.receive proc fd call, .received is (w.commGetOwnRecv is) task) w'
  | died {proc fds w' emptied} : fds.Perm (w.procs proc).fdMap.keys →
      w.processDie proc fds = .ok (w', emptied) → Moves w (.die proc fds, .nothing) w'

theorem Traffics.moves {label : Traffic × Passage} (step : w.Traffics label w') : w.Moves label w' := by
  obtain ⟨t, passage⟩ := label
  obtain ⟨order, done⟩ := step
  cases t with
  | send proc fd data beyond =>
      obtain ⟨⟨w₁, event⟩, stepped, rest⟩ := bind_eq_ok.mp done
      obtain ⟨rfl, outcome⟩ := Prod.mk.inj (pure_eq_ok.mp rest)
      obtain rfl : w.sendPassage (.send proc fd data beyond) = passage := outcome
      obtain ⟨⟨w₂, sent⟩, handled, rest⟩ := bind_eq_ok.mp stepped
      obtain ⟨rfl, -⟩ := Prod.mk.inj (pure_eq_ok.mp rest)
      rcases processSendCall_ok handled with ⟨netlink, rfl⟩ |
        ⟨is, s, recv, tci, receiver, found, network, -, peerRecv, task, rfl⟩
      · have unsent : w₂.sentBy (.send proc fd data beyond) = none := by
          simp only [sentBy, netlink, if_true]
          split <;> rfl
        simp only [sendPassage, unsent]
        exact .quiet rfl rfl rfl
      · simp only [sendPassage, sentBy, found, network, peerRecv]
        exact .sent (w.links_sendFrom ..) (w.sameFiles_sendFrom ..).owner task (w.recvInformation_sendFrom ..)
  | receive proc fd call =>
      obtain ⟨⟨w₁, got⟩, received, rest⟩ := bind_eq_ok.mp done
      obtain ⟨rfl, outcome⟩ := Prod.mk.inj (pure_eq_ok.mp rest)
      obtain rfl : w.receivePassage proc fd got = passage := outcome
      obtain ⟨mailboxes, rfl⟩ := receive_ok received
      unfold receivePassage
      split
      · rename_i is task chunk found
        exact .received found rfl rfl rfl
      · exact .quiet rfl rfl rfl
  | die proc fds =>
      obtain ⟨⟨w₁, emptied⟩, died, rest⟩ := bind_eq_ok.mp done
      obtain ⟨rfl, outcome⟩ := Prod.mk.inj (pure_eq_ok.mp rest)
      obtain rfl : Passage.nothing = passage := outcome
      exact .died order died

theorem Linked.step {label : Traffic × Passage} (linked : w.Linked) (moves : w.Moves label w') :
    w'.Linked := by
  cases moves with
  | quiet links owner => exact linked.same links owner
  | sent links owner => exact linked.same links owner
  | received _ links owner => exact linked.same links owner
  | @died proc fds _ emptied walk died =>
      have dies : w.Acts (.die proc fds, .silent) w' := ⟨walk, bind_eq_ok.mpr ⟨_, died, rfl⟩⟩
      refine ⟨(dies.sound linked.sound).1, ?_⟩
      intro proc' fd s here
      rw [owner_processDie died]
      exact linked.owned ((Shut.all (processDie_shuts walk died).1).1 here)

theorem linked_of_run {es : List (Traffic × Passage)} (linked : w₀.Linked)
    (run : Run Traffics w₀ es w) : w.Linked :=
  run.invariant Linked linked fun _ _ _ linked step => linked.step step.moves

/-- Both queues of every open socket hold what is pending for it, and what is pending was not
    taken on another socket either. -/
def Waits (es : List (Traffic × Passage)) (w : World H) : Prop :=
  ∀ elsewhere proc fd is recv, w.getInfosSocket proc fd = some is →
    w.commGetOwnRecv is = some recv →
    (w.recvInformation recv).dataFifo = (pending elsewhere recv es).map Sent.dataSend ∧
      (w.recvInformation recv).recvTask.map (·.task) = (pending elsewhere recv es).map Sent.task

/-- Nothing is received that is queued for an open socket. -/
def Misses (w : World H) (label : Traffic × Passage) : Prop :=
  ∀ on own task, label.2 = .received on own task →
    ∀ proc fd is recv, w.getInfosSocket proc fd = some is → w.commGetOwnRecv is = some recv →
      task ∉ (w.recvInformation recv).recvTask.map (·.task)

/-- Nothing is received at all. -/
def Unread (_ : World H) (label : Traffic × Passage) : Prop :=
  match label.2 with
  | .received .. => False
  | _ => True

instance (w : World H) : (label : Traffic × Passage) → Decidable (w.Unread label)
  | (_, .received ..) => .isFalse id
  | (_, .sent _) | (_, .nothing) => .isTrue trivial

omit [DecidableEq H] in
theorem Unread.misses {label : Traffic × Passage} (unread : w.Unread label) : w.Misses label := by
  intro on own task received
  simp [Unread, received] at unread

/-- A message that is not pending cannot be taken out, one that is leaves a shorter queue. -/
theorem eraseP_eq_iff {queue : List Sent} {task : Task} :
    queue.eraseP (fun sent => sent.task = task) = queue ↔ task ∉ queue.map Sent.task := by
  constructor
  · intro same member
    obtain ⟨sent, inside, taken⟩ := List.mem_map.mp member
    have shorter := List.length_eraseP_of_mem inside (p := fun sent => sent.task = task) (by simpa using taken)
    have positive := List.length_pos_of_mem inside
    rw [same] at shorter
    omega
  · intro missing
    apply List.eraseP_of_forall_not
    intro sent inside taken
    exact missing (List.mem_map.mpr ⟨sent, inside, by simpa using taken⟩)

omit [DecidableEq H] in
/-- Where the links are the same, only the records have to be looked at. -/
theorem waits_iff_of_links {es : List (Traffic × Passage)} (links : w'.links = w.links) :
    w'.Waits es ↔ ∀ elsewhere proc fd is recv, w.getInfosSocket proc fd = some is →
      w.commGetOwnRecv is = some recv →
      (w'.recvInformation recv).dataFifo = (pending elsewhere recv es).map Sent.dataSend ∧
        (w'.recvInformation recv).recvTask.map (·.task) = (pending elsewhere recv es).map Sent.task := by
  have found : ∀ proc fd, w'.getInfosSocket proc fd = w.getInfosSocket proc fd := by
    intro proc fd
    rw [getInfosSocket_eq_opened, links, ← getInfosSocket_eq_opened]
  have own : ∀ is, w'.commGetOwnRecv is = w.commGetOwnRecv is :=
    commGetOwnRecv_congr (by rw [links]) (by rw [links])
  simp only [Waits, found, own]

theorem Waits.die {es : List (Traffic × Passage)} {proc : Pid} {fds : List Int}
    {emptied : List (RecvInformation H)} (linked : w.Linked) (queued : w.Waits es)
    (walk : fds.Perm (w.procs proc).fdMap.keys) (died : w.processDie proc fds = .ok (w', emptied)) :
    w'.Waits (es ++ [(.die proc fds, .nothing)]) := by
  obtain ⟨shuts, gone⟩ := processDie_shuts walk died
  obtain ⟨opened, comm, info0⟩ := Shut.all shuts
  intro elsewhere proc' fd is recv here ownRecv
  rw [commGetOwnRecv_congr comm info0] at ownRecv
  rw [getInfosSocket_eq_opened] at here
  have before : w.links.opened proc' fd = some is := opened here
  -- the socket is another one than those of the process, and so is its record
  have foreign : ∀ fd' t, w.getInfosSocket proc fd' = some t → w.commGetOwnRecv t ≠ some recv := by
    intro fd' t there ownT
    obtain rfl := commGetOwnRecv_inj linked.sound ownT ownRecv
    rw [getInfosSocket_eq_opened] at there
    obtain rfl : proc = proc' := (linked.owned there).symm.trans (linked.owned before)
    rw [gone] at here
    cases here
  rw [pending_concat, (processDie_records died).1 recv foreign]
  exact queued elsewhere proc' fd is recv ((w.getInfosSocket_eq_opened proc' fd).trans before) ownRecv

theorem Waits.step_iff {es : List (Traffic × Passage)} {label : Traffic × Passage} (linked : w.Linked)
    (queued : w.Waits es) (moves : w.Moves label w') :
    w'.Waits (es ++ [label]) ↔ w.Misses label := by
  cases moves with
  | quiet links owner records =>
      refine iff_of_true ((waits_iff_of_links links).mpr ?_) (by nofun)
      intro elsewhere proc fd is recv here ownRecv
      rw [pending_concat, records]
      exact queued elsewhere proc fd is recv here ownRecv
  | @sent _ s _ tci links owner task records =>
      refine iff_of_true ((waits_iff_of_links links).mpr ?_) (by nofun)
      intro elsewhere proc fd is recv here ownRecv
      obtain ⟨fifo, tasks⟩ := queued elsewhere proc fd is recv here ownRecv
      rw [pending_concat, records]
      by_cases same : s.recv = recv
      · subst same
        simp [Passage.settle, fifo, tasks, task]
      · simp [Passage.settle, same, Function.update_of_ne (Ne.symm same), fifo, tasks]
  | @received _ _ _ _ task _ _ links owner records =>
      rw [waits_iff_of_links links]
      constructor
      · -- a queued task that is taken leaves one pending message less and the queue as it is
        rintro after _ _ _ ⟨⟩ proc fd is recv here ownRecv
        have before := (queued true proc fd is recv here ownRecv).2
        have tasks := (after true proc fd is recv here ownRecv).2
        rw [pending_concat, records, before] at tasks
        simp only [Passage.settle, true_or, if_true] at tasks
        have whole := (List.eraseP_sublist ..).eq_of_length
          (by simpa using congrArg List.length tasks.symm)
        rw [before]
        exact eraseP_eq_iff.mp whole
      · intro misses elsewhere proc fd is recv here ownRecv
        have before := queued elsewhere proc fd is recv here ownRecv
        have missing := misses _ _ task rfl proc fd is recv here ownRecv
        rw [before.2] at missing
        rw [pending_concat, records]
        simp only [Passage.settle, eraseP_eq_iff.mpr missing, ite_self]
        exact before
  | died walk died => exact iff_of_true (queued.die linked walk died) (by nofun)

/-- The queues hold what is pending, a socket without requests is readable exactly when
    something is pending for it, and a death destroys nothing but what is pending, and so no
    task that was received on any socket. -/
structure Holding (es : List (Traffic × Passage)) (w : World H) : Prop where
  queues : w.Waits es
  readable : ∀ {elsewhere proc fd is k recv}, w.getInfosSocket proc fd = some is →
    (w.socket is).comm = some k → (w.comm k).connWait = [] → w.commGetOwnRecv is = some recv →
    (w.commGetSocketState is &&& socketReadOk ≠ 0 ↔ pending elsewhere recv es ≠ [])
  destroyed : ∀ {elsewhere proc fds w' emptied}, w.processDie proc fds = .ok (w', emptied) →
    ∀ record ∈ emptied, record = {} ∨ ∃ fd is recv, w.getInfosSocket proc fd = some is ∧
      w.commGetOwnRecv is = some recv ∧
      record.dataFifo = (pending elsewhere recv es).map Sent.dataSend ∧
      record.recvTask.map (·.task) = (pending elsewhere recv es).map Sent.task

theorem Waits.holding {es : List (Traffic × Passage)} (queued : w.Waits es) : w.Holding es where
  queues := queued
  readable {elsewhere} _ _ _ _ _ here attached idle own := by
    rw [commGetSocketState_readable attached idle own, (queued elsewhere _ _ _ _ here own).1]
    simp
  destroyed {elsewhere} _ _ _ _ died record member := by
    refine ((processDie_records died).2 record member).imp id ?_
    rintro ⟨fd, is, recv, here, own, rfl⟩
    exact ⟨fd, is, recv, here, own, queued elsewhere _ fd is recv here own⟩

/-- Along a run the queues always hold what is pending if and only if nothing was ever received
    that was queued for an open socket. -/
theorem queues_hold_pending_iff {es : List (Traffic × Passage)} (fresh : w₀.Fresh)
    (run : Run Traffics w₀ es w) :
    Run (Guarded Misses Traffics) w₀ es w ↔
      ∀ es' w', es' <+: es → Run Traffics w₀ es' w' → w'.Holding es' := by
  have initial : w₀.Holding [] := by
    apply Waits.holding
    intro elsewhere proc fd is recv _ _
    simp [fresh.blank, pending]
  refine run.guarded_iff (fun es (w : World H) => w.Holding es) Traffics.functional initial ?_
  intro es w label w' before holding step
  have linked := linked_of_run fresh.toLinked before
  rw [← Waits.step_iff linked holding.queues step.moves]
  exact ⟨fun after => after.queues, fun queued => queued.holding⟩

/-! ## Connections to start from -/

theorem recvInformation_processCloseCall {proc : Pid} {fd : Int}
    (done : w.processCloseCall proc fd = .ok w') : w'.recvInformation = w.recvInformation := by
  have counted : ∀ (v : World H) (ref : DescRef) (n : Int),
      (v.addRefcount ref n).recvInformation = v.recvInformation := by
    intro v ref n
    cases ref <;> rfl
  unfold processCloseCall at done
  split at done
  · cases done
    rfl
  · rename_i ref _
    obtain ⟨w₁, closed, rfl⟩ := bind_pure_eq_ok.mp done
    have shape : ((w₁.addRefcount ref (-1)).processDescriptorSetFd proc fd none).recvInformation =
        w₁.recvInformation := counted w₁ ref (-1)
    rw [shape, ← counted w ref 1]
    unfold closeByType at closed
    split at closed
    · exact recvInformation_socketClose closed
    · cases closed
    · cases closed
      rfl
    · cases closed
    · cases closed
      rfl

/-- A call that sends nothing. -/
def Wordless (_ : World H) (label : Op × Event H) : Prop :=
  match label.1 with
  | .send .. => False
  | _ => True

instance (w : World H) : (label : Op × Event H) → Decidable (w.Wordless label)
  | (.send .., _) => .isFalse id
  | (.socket .., _) | (.bind .., _) | (.listen .., _) | (.connect .., _) | (.accept .., _) |
    (.close .., _) | (.dup .., _) | (.dup2 .., _) => .isTrue trivial

theorem Effect.recvInformation_blank {label : Op × Event H} (wordless : w.Wordless label)
    (blank : ∀ recv, w.recvInformation recv = {}) (effect : w.Effect label w') :
    ∀ recv, w'.recvInformation recv = {} := by
  have same : w'.recvInformation = w.recvInformation := by
    by_cases keeps : label.1.closes = none
    · refine effect.recvInformation keeps ?_ (fun slot => blank _)
      rintro proc fd data beyond same
      simp [Wordless, same] at wordless
    · cases effect with
      | quiet => rfl
      | close done => exact recvInformation_processCloseCall done
      | @dup2 proc _ newfd ref w₁ pipes _ closed =>
          have counted : (w.addRefcount ref 1).recvInformation = w.recvInformation := by
            cases ref <;> rfl
          have kept : w₁.recvInformation = w.recvInformation := by
            unfold closeTarget at closed
            split at closed
            · rename_i target _
              have again : ((w.addRefcount ref 1).addRefcount target (-1)).recvInformation =
                  (w.addRefcount ref 1).recvInformation := by
                cases target <;> rfl
              exact (recvInformation_processCloseCall closed).trans (again.trans counted)
            · cases closed
              exact counted
          exact kept
      | _ => simp [Op.closes] at keeps
  intro recv
  rw [same]
  exact blank recv

/-- Connections made by calls that send nothing. -/
theorem fresh_of_run {es : List (Op × Event H)} (initial : w₀.Initial)
    (run : Run (Guarded Wordless Step) w₀ es w) : w.Fresh := by
  refine run.invariant Fresh ⟨⟨initial.live.sound, ?_⟩, ?_⟩ ?_
  · intro proc fd s here
    rw [← getInfosSocket_eq_opened, getInfosSocket_eq_some] at here
    exact absurd here (initial.noDescriptor proc fd s)
  · rintro ⟨k, slot⟩
    cases slot <;> simp [recvInformation, initial.blank]
  · intro w label w' fresh step
    have effect := step.2.effect_of_sound fresh.sound
    exact ⟨⟨fresh.sound.step effect.links, effect.owned fresh.sound fresh.owned⟩,
      effect.recvInformation_blank step.1 fresh.blank⟩

/-- Perform traffic step by step, as long as each is allowed by `guard` and possible. -/
def pass (guard : World H → Traffic × Passage → Prop) [∀ w label, Decidable (guard w label)]
    (w : World H) (ts : List Traffic) : Option (List (Traffic × Passage) × World H) :=
  perform (fun w t => if w.InOrder t then (w.traffic t).toOption.map fun r => ((t, r.2), r.1) else none)
    guard w ts

/-- What can be computed of some traffic holds after some run. -/
theorem exists_traffic {guard : World H → Traffic × Passage → Prop}
    [∀ w label, Decidable (guard w label)] {ts : List Traffic}
    {P : List (Traffic × Passage) → World H → Prop} (found : ∃ r ∈ pass guard w₀ ts, P r.1 r.2) :
    ∃ es w, Run (Guarded guard Traffics) w₀ es w ∧ P es w := by
  apply Run.exists_of_results_if _ found
  intro w t outcome order reached
  exact ⟨order, reached⟩

/-- Messages in both directions, and the death of one end. -/
theorem queues_hold_sends : ∃ es₀ w₀ es w, Run (Guarded Wordless Step) threeHosts es₀ w₀ ∧
    Run (Guarded Misses Traffics) w₀ es w ∧
    (pending true ⟨1, .one⟩ es).map Sent.data = [[7], [8]] ∧
    ∀ es' w', es' <+: es → Run Traffics w₀ es' w' → w'.Holding es' := by
  obtain ⟨es₀, w₀, setup, found⟩ := exists_history Wordless threeHosts
    [.socket 0 2 1 0 3, .bind 0 3 ⟨0, 80⟩, .listen 0 3, .socket 1 2 1 0 3, .connect 1 3 ⟨10, 80⟩,
      .accept 0 3 4]
    (P := fun _ w₀ => ∃ r ∈ pass Unread w₀
      [.send 1 3 [7] [], .send 0 4 [5] [], .send 1 3 [8] [], .die 1 [3]],
      (pending true ⟨1, .one⟩ r.1).map Sent.data = [[7], [8]]) (by decide +kernel)
  obtain ⟨es, w, unread, sent⟩ := exists_traffic found (P := fun es _ =>
    (pending true ⟨1, .one⟩ es).map Sent.data = [[7], [8]])
  have fresh := fresh_of_run (boot_initial _ _ _) setup
  have run : Run (Guarded Misses Traffics) w₀ es w :=
    unread.mono fun _ _ _ step => ⟨step.1.misses, step.2⟩
  exact ⟨es₀, w₀, es, w, setup, run, sent,
    (queues_hold_pending_iff fresh (run.mono fun _ _ _ step => step.2)).mp run⟩

/-- A message is received, but the queues still hold it. -/
theorem received_message_stays_queued : ∃ (m₀ m : Meeting (Fin 3)) (turns : List Turn)
    (es : List (Traffic × Passage)) (w : World (Fin 3)), Meeting.Ready 0 3 m₀ ∧
    Run (Guarded (Meeting.OneAtATime 0 3) Meeting.Step) m₀ turns m ∧
    m.world.Wired 1 3 1 3 ∧ m.world.Wired 0 4 3 1 ∧ Run Traffics m.world es w ∧
    es.map Prod.fst = [.send 1 3 [104, 0] [], .receive 0 4 (.recvfrom 128 none)] ∧
    ∃ recv, w.commGetOwnRecv 3 = some recv ∧ (m.world.recvInformation recv).dataFifo = [] ∧
      pending false recv es = [] ∧ (w.recvInformation recv).dataFifo = [{ data := [104, 0], size := 2 }] ∧
      w.commGetSocketState 3 &&& socketReadOk ≠ 0 ∧ ¬ w.Holding es := by
  obtain ⟨m₀, m, turns, ready, met, client, server, found⟩ :=
    Meeting.exists_meeting (Meeting.OneAtATime 0 3) Meeting.firstJoins
    (P := fun _ m => m.world.Wired 1 3 1 3 ∧ m.world.Wired 0 4 3 1 ∧
      ∃ r ∈ pass (fun _ _ => True) m.world
        [.send 1 3 [104, 0] [], .receive 0 4 (.recvfrom 128 none)],
        r.1.map Prod.fst = [.send 1 3 [104, 0] [], .receive 0 4 (.recvfrom 128 none)] ∧
        r.2.getInfosSocket 0 4 = some 3 ∧
        ∃ recv ∈ r.2.commGetOwnRecv 3, (m.world.recvInformation recv).dataFifo = [] ∧
          pending false recv r.1 = [] ∧
          (r.2.recvInformation recv).dataFifo = [{ data := [104, 0], size := 2 }] ∧
          r.2.commGetSocketState 3 &&& socketReadOk ≠ 0) (by decide +kernel)
  obtain ⟨es, w, run, calls, here, recv, own, before, none_, queue, readable⟩ := exists_traffic found
    (P := fun es w => es.map Prod.fst = [.send 1 3 [104, 0] [], .receive 0 4 (.recvfrom 128 none)] ∧
      w.getInfosSocket 0 4 = some 3 ∧
      ∃ recv ∈ w.commGetOwnRecv 3, (m.world.recvInformation recv).dataFifo = [] ∧
        pending false recv es = [] ∧ (w.recvInformation recv).dataFifo = [{ data := [104, 0], size := 2 }] ∧
        w.commGetSocketState 3 &&& socketReadOk ≠ 0)
  refine ⟨m₀, m, turns, es, w, ready, met, client, server, run.mono fun _ _ _ step => step.2, calls,
    recv, own, before, none_, queue, readable, fun holding => ?_⟩
  have kept := (holding.queues false 0 4 3 recv here own).1
  rw [queue, none_] at kept
  cases kept

end World

end Simterpose
