import Simterpose.Delivery

/-! # Polls among the transfers

`syscall_poll_pre` finds out whether there is something to read by receiving it: it starts a
receive on the mailbox of the socket's host, and when a task comes it is put in a local variable
that nothing reads. The wait for it may also end before the transfer does, the more so as the
timeout is cut to whole seconds, and then the task is lost without a word. Over any run of sends,
receives and polls each message sent is therefore received, or matched with one poll, or still in
the mailbox.

How a wait ends is for MSG to say: it is part of what happens in a step.
-/

namespace Simterpose

open Lib

/-- `struct pollfd` -/
structure PollFd where
  fd : Int
  events : UInt16
  revents : UInt16
  deriving Repr, DecidableEq

/-- `POLLIN` -/
def pollIn : UInt16 := 1

/-- `msg_error_t`, as far as `syscall_poll_pre` tells its values apart. -/
inductive MsgError where
  | ok
  | timeout
  | failure
  deriving Repr, DecidableEq

/-- A wait for a receive on a mailbox that ends so, with the tasks it leaves there. A receive takes
    the oldest task as soon as there is one, and does not give it back when the wait for the
    transfer ends early; a negative timeout is none. -/
def msgCommWait (tasks : List Task) (timeout : Int) : MsgError → Option (List Task)
  | .ok => tasks.tail?
  | .timeout => if timeout < 0 then none else some tasks.tail
  | .failure => tasks.tail?

/-- The timeout in seconds: the number of milliseconds is divided as a `double`, and the quotient
    is cut to an `int`. -/
def pollTimeout (arg2 : Int) : Int := arg2.tdiv 1000

/-- A call that moves data or asks whether there is some, with the timeout of a poll in milliseconds
    and the way in which its wait ends. -/
inductive Use where
  | transfer (t : Transfer)
  | poll (proc : Pid) (fdList : List PollFd) (arg2 : Int) (err : MsgError)
  deriving Repr, DecidableEq

inductive Outcome where
  | moved (delivery : Delivery)
  /-- a poll was matched with this task, and its wait ended so -/
  | polled (is : SockId) (task : Task) (err : MsgError)
  /-- no task came until the time was over -/
  | nothing
  deriving Repr, DecidableEq

namespace Outcome

/-- The message sent on `x`, if any. -/
def sentOn (x : SockId) : Outcome → Option (List UInt8)
  | .moved (.sent is data) => if is = x then some data else none
  | _ => none

/-- The message a receive on `y` was given, if any. -/
def receivedOn (y : SockId) : Outcome → Option (List UInt8)
  | .moved (.received is task _) => if is = y then some task.data else none
  | _ => none

/-- The message a poll on `y` was matched with, if any. -/
def polledOn (y : SockId) : Outcome → Option (List UInt8)
  | .polled is task _ => if is = y then some task.data else none
  | _ => none

end Outcome

/-- The messages that `select` picks, in order. -/
def messages (select : Outcome → Option (List UInt8)) (es : List (Use × Outcome)) :
    List (List UInt8) :=
  es.filterMap fun e => select e.2

/-- The messages taken out of the mailbox through the socket `y`. -/
def taken (y : SockId) : List (Use × Outcome) → List (List UInt8) :=
  messages fun o => (o.receivedOn y).or (o.polledOn y)

theorem messages_concat (select : Outcome → Option (List UInt8)) (es : List (Use × Outcome))
    (e : Use × Outcome) : messages select (es ++ [e]) = messages select es ++ (select e.2).toList := by
  unfold messages
  rw [List.filterMap_append]
  cases picked : select e.2 <;> simp [picked]

theorem messages_cons (select : Outcome → Option (List UInt8)) (e : Use × Outcome)
    (es : List (Use × Outcome)) : messages select (e :: es) = (select e.2).toList ++ messages select es := by
  unfold messages
  rw [List.filterMap_cons]
  cases select e.2 <;> rfl

theorem received_sublist_taken (y : SockId) (es : List (Use × Outcome)) :
    (messages (Outcome.receivedOn y) es).Sublist (taken y es) := by
  induction es with
  | nil => exact .slnil
  | cons e es ih =>
      rw [taken, messages_cons, messages_cons]
      apply List.Sublist.append _ ih
      cases e.2.receivedOn y with
      | none => exact List.nil_sublist _
      | some data => exact List.Sublist.refl _

/-- No outcome is both that of a receive and that of a poll. -/
theorem length_taken (y : SockId) (es : List (Use × Outcome)) :
    (taken y es).length =
      (messages (Outcome.receivedOn y) es).length + (messages (Outcome.polledOn y) es).length := by
  induction es with
  | nil => rfl
  | cons e es ih =>
      have one : ((e.2.receivedOn y).or (e.2.polledOn y)).toList.length =
          (e.2.receivedOn y).toList.length + (e.2.polledOn y).toList.length := by
        cases e.2 with
        | moved delivery => simp [Outcome.polledOn]
        | polled is task err => simp [Outcome.receivedOn]
        | nothing => rfl
      rw [taken] at ih ⊢
      simp only [messages_cons, List.length_append, ih, one]
      omega

namespace World

variable {H : Type} [DecidableEq H] (w : World H)

/-- `fdList` is the array copied from the tracee, or NULL, and `arg2` the timeout it gave. The answer
    is the return value for the tracee and the array to be stored in its memory, if there is one;
    the call is left to the kernel in any case. The increment of `ref_nb` is taken back before the
    handler waits. -/
def syscallPollPre (proc : Pid) (fdList : Option (List PollFd)) (arg2 : Int) (err : MsgError) :
    Result (World H × Option (Int × List PollFd)) :=
  match fdList with
  | none => .error .segfault
  | some [] => .error .outOfBounds
  | some (temp :: others) =>
      match w.getInfosSocket proc temp.fd with
      -- `comm` was never assigned
      | none => .error .segfault
      | some is =>
          if temp.events &&& pollIn = 0 then .error .segfault
          else match msgCommWait (w.mailboxes (w.socket is).host) (pollTimeout arg2) err with
            | none => .error .blocked
            | some rest => .ok (w.takeTask (w.socket is).host rest,
                match err with
                | .ok => some (1, { temp with revents := temp.revents ||| pollIn } :: others)
                | .timeout => some (0, temp :: others)
                | .failure => none)

/-- What a poll that does not crash comes upon. -/
def pollEvent (proc : Pid) (fdList : List PollFd) (err : MsgError) : Outcome :=
  match fdList.head?.bind fun temp => w.getInfosSocket proc temp.fd with
  | none => .nothing
  | some is => ((w.mailboxes (w.socket is).host).head?.map (.polled is · err)).getD .nothing

def use : Use → Result (World H × Outcome)
  | .transfer t => (w.transfer t).map fun r => (r.1, .moved r.2)
  | .poll proc fdList arg2 err => (w.syscallPollPre proc (some fdList) arg2 err).map fun r =>
      (r.1, w.pollEvent proc fdList err)

def Uses (w : World H) (label : Use × Outcome) (w' : World H) : Prop :=
  w.use label.1 = .ok (w', label.2)

/-- Perform calls one after another, as long as each is allowed by `guard` and possible. -/
def carryOutUses (guard : World H → Use × Outcome → Prop) [∀ w label, Decidable (guard w label)]
    (uses : List Use) : Option (List (Use × Outcome) × World H) :=
  perform (fun w u => (w.use u).toOption.map fun r => ((u, r.2), r.1)) guard w uses

theorem exists_uses {guard : World H → Use × Outcome → Prop} [∀ w label, Decidable (guard w label)]
    {w₀ : World H} {uses : List Use} {P : List (Use × Outcome) × World H → Prop}
    (found : ∃ r ∈ w₀.carryOutUses guard uses, P r) :
    ∃ es w, Run (Guarded guard Uses) w₀ es w ∧ P (es, w) := by
  apply Run.exists_of_results (P := fun es w => P (es, w)) _ found
  intro w u outcome done
  exact done

/-- The calls are on descriptors of the set `E`. -/
def UsesOn (E : Pid → Int → Prop) (w : World H) (label : Use × Outcome) : Prop :=
  match label with
  | (.transfer t, .moved ev) => On E w (t, ev)
  | (.poll proc fdList _ _, _) => ∃ temp ∈ fdList.head?, E proc temp.fd
  | (.transfer _, _) => False

instance (E : Pid → Int → Prop) [∀ p fd, Decidable (E p fd)] (w : World H) :
    (label : Use × Outcome) → Decidable (UsesOn E w label)
  | (.transfer (.send p fd _ _), .moved _) => inferInstanceAs (Decidable (E p fd))
  | (.transfer (.recv p fd _ _), .moved _) => inferInstanceAs (Decidable (E p fd))
  | (.poll proc fdList _ _, _) =>
      inferInstanceAs (Decidable (∃ temp ∈ fdList.head?, E proc temp.fd))
  | (.transfer _, .polled ..) => .isFalse id
  | (.transfer _, .nothing) => .isFalse id

/-- The sockets of `E` were made on the host of the process that has them. -/
def Housed (E : Pid → Int → Prop) (w : World H) : Prop :=
  ∀ p fd x, E p fd → w.getInfosSocket p fd = some x → (w.socket x).host = (w.procs p).host

/-! ## What one call does to the mailboxes -/

section

variable {H : Type} {w w' : World H} {E : Pid → Int → Prop}

/-- The ends of some connections, no two of them on one host. -/
structure EndsApart (E : Pid → Int → Prop) (w : World H) : Prop where
  connected : Connected E w
  apart : Apart E w
  housed : Housed E w

/-- Nothing that the ends depend on differs. -/
structure SameEnds (w w' : World H) : Prop where
  wires : w.SameWires w'
  host : ∀ is, (w'.socket is).host = (w.socket is).host

theorem SameEnds.rfl : w.SameEnds w where
  wires := ⟨Eq.refl _, Eq.refl _, Eq.refl _, fun _ => Eq.refl _, fun _ => Eq.refl _⟩
  host _ := Eq.refl _

theorem EndsApart.keep (ends : EndsApart E w) (same : w.SameEnds w') : EndsApart E w' where
  connected := ends.connected.keep same.wires
  apart := ends.apart.keep same.wires
  housed p fd x here opened := by
    rw [getInfosSocket_congr same.wires.procs] at opened
    rw [same.host, same.wires.procs]
    exact ends.housed p fd x here opened

/-- All that is known about one socket agrees on the host. -/
theorem Wired.host_eq {p q : Pid} {fd gd : Int} {x y y' : SockId} (wired : w.Wired p fd x y)
    (wired' : w.Wired q gd x y') : (w.procs p).host = (w.procs q).host :=
  wired.place.symm.trans wired'.place

variable {q q' : Pid} {gd gd' : Int} {x x' y y' : SockId}

/-- The ends have a mailbox each. -/
theorem Apart.host_eq_iff (apart : Apart E w) (here : E q gd) (wired : w.Wired q gd y x)
    (there : E q' gd') (wired' : w.Wired q' gd' y' x') :
    (w.procs q).host = (w.procs q').host ↔ y = y' := by
  constructor
  · exact apart q gd y q' gd' y' here wired.opened there wired'.opened
  · rintro rfl
    exact wired.host_eq wired'

/-- Two ends have the same peer only if they are the same. -/
theorem Connected.peer_eq_iff (connected : Connected E w) (here : E q gd) (wired : w.Wired q gd y x)
    (there : E q' gd') (wired' : w.Wired q' gd' y' x') : x = x' ↔ y = y' := by
  -- both are the peer of their peer
  have back : ∀ {q gd y x}, E q gd → w.Wired q gd y x → w.commGetPeer x = .ok (some y) := by
    intro q gd y x here wired
    obtain ⟨_, _, _, _, same, -, other⟩ := connected q gd here
    obtain rfl : y = _ := Option.some.inj (wired.opened.symm.trans same.opened)
    obtain rfl := wired.unique same
    exact other.peer
  constructor
  · rintro rfl
    exact Option.some.inj (Except.ok.inj ((back here wired).symm.trans (back there wired')))
  · rintro rfl
    exact wired.unique wired'

end

variable {H : Type} [DecidableEq H] {w w' w₀ : World H} {E : Pid → Int → Prop}

theorem sameEnds_takeTask (host : H) (rest : List Task) : w.SameEnds (w.takeTask host rest) :=
  ⟨sameWires_takeTask host rest, fun _ => rfl⟩

theorem host_sendFrom (is s : SockId) (recv : RecvRef) (sent : DataSend) (tci : TaskCommInfo H)
    (receiver : H) (j : SockId) :
    ((w.sendFrom is s recv sent tci receiver).socket j).host = (w.socket j).host := by
  have counted : ∀ (v : World H) (i : SockId) (n : Int),
      ((v.addRefNb i n).socket j).host = (v.socket j).host := by
    intro v i n
    simp only [addRefNb, modifySocket, World.socket, Heap.cell_modify]
    split <;> rfl
  have recorded : ∀ (v : World H) (f : RecvInformation H → RecvInformation H),
      ((v.modifyRecv recv f).socket j).host = (v.socket j).host := by
    intro v f
    unfold modifyRecv
    cases recv.slot <;> rfl
  have mailed : ∀ v : World H, ((v.sendTask receiver tci.task).socket j).host = (v.socket j).host :=
    fun _ => rfl
  simp only [sendFrom, counted, recorded, mailed]

/-- What a call on an end can do. -/
inductive UseEffect (E : Pid → Int → Prop) (w : World H) : Outcome → World H → Prop where
  | sent {p q fd gd x y data beyond w'} (sender : w.Wired p fd x y) (there : E q gd)
      (receiver : w.Wired q gd y x)
      (mailboxes : w'.mailboxes = Function.update w.mailboxes (w.procs q).host
        (w.mailboxes (w.procs q).host ++ [taskOf x data beyond])) :
      UseEffect E w (.moved (.sent x data)) w'
  | taken {q gd x y task rest outcome} (here : E q gd) (receiver : w.Wired q gd y x)
      (queue : w.mailboxes (w.procs q).host = task :: rest)
      (how : (∃ err, outcome = .polled y task err) ∨ ∃ chunk, outcome = .moved (.received y task chunk)) :
      UseEffect E w outcome (w.takeTask (w.procs q).host rest)
  | nothing : UseEffect E w .nothing w

/-- However the wait ends, the oldest task is gone. -/
theorem msgCommWait_eq_some {tasks rest : List Task} {timeout : Int} {err : MsgError}
    (ended : msgCommWait tasks timeout err = some rest) : rest = tasks.tail := by
  cases err with
  | ok | failure =>
      cases tasks with
      | nil => cases ended
      | cons task tasks => exact (Option.some.inj ended).symm
  | timeout =>
      simp only [msgCommWait] at ended
      split at ended
      · cases ended
      · exact (Option.some.inj ended).symm

theorem syscallPollPre_ok {proc : Pid} {temp : PollFd} {others : List PollFd} {arg2 : Int}
    {err : MsgError} {answer : Option (Int × List PollFd)} {is : SockId}
    (opened : w.getInfosSocket proc temp.fd = some is)
    (done : w.syscallPollPre proc (some (temp :: others)) arg2 err = .ok (w', answer)) :
    w' = w.takeTask (w.socket is).host (w.mailboxes (w.socket is).host).tail := by
  simp only [syscallPollPre, opened] at done
  split at done
  · cases done
  · split at done
    · cases done
    · rename_i rest ended
      cases done
      rw [msgCommWait_eq_some ended]

theorem Uses.effect {label : Use × Outcome} (ends : EndsApart E w) (on : UsesOn E w label)
    (step : w.Uses label w') : w.SameEnds w' ∧ UseEffect E w label.2 w' := by
  obtain ⟨u, o⟩ := label
  cases u with
  | transfer t =>
      obtain ⟨⟨w₁, ev⟩, moved, same⟩ := map_eq_ok.mp step
      cases same
      change w.Transfers (t, ev) w₁ at moved
      cases t with
      | send p fd data beyond =>
          obtain ⟨x, y, q, gd, sender, there, receiver⟩ := ends.connected p fd on
          obtain ⟨rfl, same, mailboxes⟩ := moved.send_ok sender
          refine ⟨⟨same, ?_⟩, .sent sender there receiver (by rw [← receiver.place]; exact mailboxes)⟩
          intro is
          obtain ⟨recv, sends⟩ := processSendCall_of_wired sender data beyond
          obtain ⟨_, sent, rest⟩ := bind_eq_ok.mp moved
          cases sends.symm.trans sent
          cases congrArg Prod.fst (pure_eq_ok.mp rest)
          exact host_sendFrom ..
      | recv q gd lenBuf addrlen =>
          obtain ⟨y, x, _, _, receiver, -⟩ := ends.connected q gd on
          obtain ⟨task, rest, chunk, queue, -, rfl, rfl⟩ := moved.recv_ok receiver
          exact ⟨sameEnds_takeTask .., .taken on receiver queue (.inr ⟨chunk, rfl⟩)⟩
  | poll q fdList arg2 err =>
      obtain ⟨temp, first, here⟩ := on
      obtain ⟨y, x, _, _, receiver, -⟩ := ends.connected q temp.fd here
      obtain ⟨⟨w₁, answer⟩, step, same⟩ := map_eq_ok.mp step
      cases fdList with
      | nil => cases first
      | cons head others =>
          cases first
          obtain rfl := syscallPollPre_ok receiver.opened step
          have home := ends.housed q temp.fd y here receiver.opened
          have event : w.pollEvent q (temp :: others) err =
              ((w.mailboxes (w.procs q).host).head?.map (.polled y · err)).getD .nothing := by
            simp only [pollEvent, List.head?_cons, Option.bind_some, receiver.opened, home]
          rw [event, home] at same
          cases same
          refine ⟨sameEnds_takeTask .., ?_⟩
          cases queue : w.mailboxes (w.procs q).host with
          | nil =>
              have idle : w.takeTask (w.procs q).host [] = w := by
                rw [takeTask, ← queue, Function.update_eq_self]
              rw [List.tail_nil, idle]
              exact .nothing
          | cons task rest => exact .taken here receiver queue (.inl ⟨err, rfl⟩)

/-! ## Where the messages are -/

/-- What was sent to an end is what was taken there and what waits in its mailbox. -/
def MessagesAccounted (E : Pid → Int → Prop) (es : List (Use × Outcome)) (w : World H) : Prop :=
  ∀ q gd y x, E q gd → w.Wired q gd y x →
    messages (Outcome.sentOn x) es = taken y es ++ (w.mailboxes (w.procs q).host).map Task.data

theorem MessagesAccounted.step {es : List (Use × Outcome)} {label : Use × Outcome} (ends : EndsApart E w)
    (accounted : MessagesAccounted E es w) (on : UsesOn E w label) (step : w.Uses label w') :
    MessagesAccounted E (es ++ [label]) w' := by
  obtain ⟨same, effect⟩ := step.effect ends on
  intro q gd y x here wired
  have before := wired.keep same.wires.symm
  have equation := accounted q gd y x here before
  obtain ⟨u, o⟩ := label
  rw [taken, messages_concat, messages_concat, ← taken, equation, same.wires.procs]
  cases effect with
  | @sent p q' fd gd' x' y' data beyond w' sender there receiver mailboxes =>
      have target := ends.apart.host_eq_iff here before there receiver
      have source := ends.connected.peer_eq_iff here before there receiver
      by_cases same : y = y'
      · obtain rfl := source.mpr same
        simp [mailboxes, target.mpr same, Outcome.sentOn, Outcome.receivedOn, Outcome.polledOn, taskOf]
      · have elsewhere := mt target.mp same
        have other := Ne.symm (mt source.mp same)
        simp [mailboxes, elsewhere, other, Outcome.sentOn, Outcome.receivedOn, Outcome.polledOn]
  | @taken q' gd' x' y' task rest _ there receiver queue how =>
      have target := ends.apart.host_eq_iff here before there receiver
      by_cases same : y = y'
      · obtain rfl := same
        rcases how with ⟨err, rfl⟩ | ⟨chunk, rfl⟩ <;>
          simp [takeTask, target.mpr rfl, queue, Outcome.sentOn, Outcome.receivedOn, Outcome.polledOn]
      · have elsewhere := mt target.mp same
        have other := Ne.symm same
        rcases how with ⟨err, rfl⟩ | ⟨chunk, rfl⟩ <;>
          simp [takeTask, elsewhere, other, Outcome.sentOn, Outcome.receivedOn, Outcome.polledOn]
  | nothing => simp [Outcome.sentOn, Outcome.receivedOn, Outcome.polledOn]

theorem messagesAccounted_of_run {es : List (Use × Outcome)} (ends : EndsApart E w₀)
    (empty : ∀ p fd, E p fd → w₀.mailboxes (w₀.procs p).host = [])
    (run : Run (Guarded (UsesOn E) Uses) w₀ es w) : MessagesAccounted E es w ∧ w₀.SameEnds w := by
  have initial : MessagesAccounted E [] w₀ := by
    intro q gd y x here _
    simp [empty q gd here, messages, taken]
  have all := run.history (fun es w => MessagesAccounted E es w ∧ EndsApart E w ∧ w₀.SameEnds w)
    ⟨initial, ends, .rfl⟩ ?_
  · exact ⟨all.1, all.2.2⟩
  · rintro es w label w' ⟨accounted, ends, same⟩ ⟨on, step⟩
    have next := (step.effect ends on).1
    exact ⟨accounted.step ends on step, ends.keep next,
      same.wires.trans next.wires, fun is => (next.host is).trans (same.host is)⟩

/-- Over any sends, receives and polls on connections whose ends are on different hosts, and however
    the waits of the polls end, the messages received are some of those sent by the peer, in their
    order; each of the others was matched with a poll or is in the mailbox. All that was sent is
    received or will be if and only if no poll was matched with anything. -/
theorem polled_messages_lost {es : List (Use × Outcome)} (ends : EndsApart E w₀)
    (empty : ∀ p fd, E p fd → w₀.mailboxes (w₀.procs p).host = [])
    (run : Run (Guarded (UsesOn E) Uses) w₀ es w) {q : Pid} {gd : Int} {x y : SockId}
    (here : E q gd) (wired : w₀.Wired q gd y x) :
    (messages (Outcome.receivedOn y) es).Sublist (messages (Outcome.sentOn x) es) ∧
      (messages (Outcome.sentOn x) es).length = (messages (Outcome.receivedOn y) es).length +
        (messages (Outcome.polledOn y) es).length + (w.mailboxes (w.procs q).host).length ∧
      (messages (Outcome.sentOn x) es = messages (Outcome.receivedOn y) es ++
        (w.mailboxes (w.procs q).host).map Task.data ↔ messages (Outcome.polledOn y) es = []) := by
  obtain ⟨accounted, same⟩ := messagesAccounted_of_run ends empty run
  have equation := accounted q gd y x here (wired.keep same.wires)
  have some_ := received_sublist_taken y es
  have total := length_taken y es
  refine ⟨?_, ?_, ?_⟩
  · rw [equation]
    exact some_.trans (List.sublist_append_left ..)
  · rw [equation, List.length_append, List.length_map, total]
  · rw [equation, List.append_cancel_right_eq]
    constructor
    · intro all
      rw [all] at total
      exact List.eq_nil_of_length_eq_zero (by omega)
    · intro none_
      rw [none_, List.length_nil, Nat.add_zero] at total
      exact (some_.eq_of_length total.symm).symm

/-- A client sends three messages. The server polls twice, once for five seconds and once for a tenth
    of a second, which is none at all, and receives the third message. -/
theorem two_messages_polled : ∃ (w₀ w : World (Fin 3)) (es : List (Use × Outcome)),
    EndsApart (fun p fd => (p, fd) = (1, 3) ∨ (p, fd) = (0, 4)) w₀ ∧
    Run (Guarded (UsesOn fun p fd => (p, fd) = (1, 3) ∨ (p, fd) = (0, 4)) Uses) w₀ es w ∧
    messages (Outcome.polledOn 3) es = [[104, 0], [105, 0]] ∧ messages (Outcome.sentOn 1) es ≠
      messages (Outcome.receivedOn 3) es ++ (w.mailboxes (w.procs 0).host).map Task.data := by
  obtain ⟨_, m, _, _, _, client, server, empty, host₀, host₁, home₀, home₁, carried⟩ :=
    Meeting.exists_meeting (Meeting.OneAtATime 0 3)
      Meeting.firstJoins
      (P := fun _ m => m.world.Wired 1 3 1 3 ∧ m.world.Wired 0 4 3 1 ∧
        (∀ host, m.world.mailboxes host = []) ∧ (m.world.procs 0).host = 0 ∧
        (m.world.procs 1).host = 1 ∧ (m.world.socket 3).host = 0 ∧ (m.world.socket 1).host = 1 ∧
        ∃ r ∈ m.world.carryOutUses (UsesOn fun p fd => (p, fd) = (1, 3) ∨ (p, fd) = (0, 4))
          [.transfer (.send 1 3 [104, 0] []), .transfer (.send 1 3 [105, 0] []),
            .transfer (.send 1 3 [106, 0] []), .poll 0 [⟨4, 1, 0⟩] 5000 .ok,
            .poll 0 [⟨4, 1, 0⟩] 100 .timeout, .transfer (.recv 0 4 2 none)],
          messages (Outcome.polledOn 3) r.1 = [[104, 0], [105, 0]]) (by decide)
  obtain ⟨es, w, run, found⟩ := exists_uses carried
  have ends : EndsApart (fun p fd => (p, fd) = (1, 3) ∨ (p, fd) = (0, 4)) m.world := by
    refine ⟨connected_pair client server, apart_pair (by rw [host₀, host₁]; decide), ?_⟩
    intro p fd x here opened
    rcases here with same | same <;> cases same
    · cases opened.symm.trans client.opened
      exact home₁.trans host₁.symm
    · cases opened.symm.trans server.opened
      exact home₀.trans host₀.symm
  refine ⟨m.world, w, es, ends, run, found, ?_⟩
  intro all
  have none_ := (polled_messages_lost ends (fun _ _ _ => empty _) run (.inr rfl) server).2.2.mp all
  rw [found] at none_
  cases none_

end World

end Simterpose
