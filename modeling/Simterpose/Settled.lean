import Simterpose.Death

/-! # Connections have an open end

As long as every socket gets at most one communication and no socket that listens is
closed before its queue is empty, a listed communication is in the hands of somebody: a
listening one is, an open one has two open ends and one that is closed on one side has an
open end on the other. While a connection waits to be accepted, its other end is the
socket that listens.
-/

namespace Simterpose

open Lib

namespace Links

/-- Some descriptor refers to the socket. -/
def Open (l : Links) (s : SockId) : Prop := ∃ proc fd, l.opened proc fd = some s

/-- The two ends of a communication that does not listen. -/
structure Ends (l : Links) (k : CommId) (c t : SockId) : Prop where
  info0 : l.info0 k = some c
  info1 : l.info1 k = some t
  comm0 : l.comm c = some k
  comm1 : (∀ m, k ∉ l.connWait m) → l.comm t = some k
  apart : c ≠ t
  network : l.network c ∧ l.network t
  listed : c ∈ l.allSockets ∧ t ∈ l.allSockets
  half : l.Open c ∨ l.Open t
  both : l.state k ≠ .closed → l.Open c ∧ l.Open t

/-- The socket in whose queue a communication waits. -/
structure Awaits (l : Links) (k m : CommId) (s : SockId) : Prop where
  info1 : l.info1 k = some s
  comm : l.comm s = some m
  listening : l.state m = .listening
  opened : l.Open s
  network : l.network s

structure Settled (l : Links) : Prop where
  live : l.Live
  listedComm : ∀ {s k}, s ∈ l.allSockets → l.comm s = some k → k ∈ l.commList
  queue : ∀ {k m}, k ∈ l.connWait m → ∃ s, l.Awaits k m s
  ends : ∀ {k}, k ∈ l.commList → l.state k ≠ .listening → ∃ c t, l.Ends k c t

/-- A socket that listens has an empty queue. -/
def QueueDone (l : Links) (is : SockId) : Prop :=
  ∀ k, l.comm is = some k → l.state k = .listening → l.connWait k = []

/-- What stays as it is for the sockets and communications a call does not touch. -/
structure Frame (l l' : Links) (untouched : SockId → Prop) (unchanged : CommId → Prop) : Prop where
  comm : ∀ {s}, untouched s → l'.comm s = l.comm s
  network : ∀ {s}, untouched s → l.network s → l'.network s
  listed : ∀ {s}, untouched s → s ∈ l.allSockets → s ∈ l'.allSockets
  opened : ∀ {s}, untouched s → l.Open s → l'.Open s
  info0 : ∀ {k}, unchanged k → l'.info0 k = l.info0 k
  info1 : ∀ {k}, unchanged k → l'.info1 k = l.info1 k
  state : ∀ {k}, unchanged k → l'.state k = l.state k

section

variable {l l' : Links} {untouched : SockId → Prop} {unchanged : CommId → Prop} {k m : CommId}
  {c t s : SockId}

theorem Ends.frame (ends : l.Ends k c t) (frame : l.Frame l' untouched unchanged)
    (atK : unchanged k) (atC : untouched c) (atT : untouched t)
    (waiting : (∀ m, k ∉ l'.connWait m) → ∀ m, k ∉ l.connWait m) : l'.Ends k c t where
  info0 := (frame.info0 atK).trans ends.info0
  info1 := (frame.info1 atK).trans ends.info1
  comm0 := (frame.comm atC).trans ends.comm0
  comm1 left := (frame.comm atT).trans (ends.comm1 (waiting left))
  apart := ends.apart
  network := ⟨frame.network atC ends.network.1, frame.network atT ends.network.2⟩
  listed := ⟨frame.listed atC ends.listed.1, frame.listed atT ends.listed.2⟩
  half := ends.half.imp (frame.opened atC) (frame.opened atT)
  both notClosed := by
    obtain ⟨openC, openT⟩ := ends.both (frame.state atK ▸ notClosed)
    exact ⟨frame.opened atC openC, frame.opened atT openT⟩

theorem Awaits.frame (awaits : l.Awaits k m s) (frame : l.Frame l' untouched unchanged)
    (atK : unchanged k) (atM : unchanged m) (atS : untouched s) : l'.Awaits k m s where
  info1 := (frame.info1 atK).trans awaits.info1
  comm := (frame.comm atS).trans awaits.comm
  listening := (frame.state atM).trans awaits.listening
  opened := frame.opened atS awaits.opened
  network := frame.network atS awaits.network

end

namespace Settled

variable {l : Links}

theorem open_register {proc : Pid} {fd : Int} {s : SockId} {network : Prop}
    (free : l.opened proc fd = none) (opened : l.Open s) : (l.register proc fd network).Open s := by
  obtain ⟨proc', fd', here⟩ := opened
  refine ⟨proc', fd', ?_⟩
  have other : ¬ (proc' = proc ∧ fd' = fd) := by
    rintro ⟨rfl, rfl⟩
    rw [free] at here
    cases here
  simpa [Links.register, setOpened, other] using here

theorem lt_of_queue (settled : l.Settled) {k m : CommId} (waiting : k ∈ l.connWait m) :
    k < l.nextComm ∧ m < l.nextComm := by
  obtain ⟨s, awaits⟩ := settled.queue waiting
  exact ⟨settled.live.sound.waitLt waiting, settled.live.sound.commLt awaits.comm⟩

/-- A new descriptor refers to a socket made with it. -/
theorem register (settled : l.Settled) {proc : Pid} {fd : Int} (free : l.opened proc fd = none)
    (network : Prop) : (l.register proc fd network).Settled := by
  have frame : l.Frame (l.register proc fd network) (· ≠ l.nextSocket) fun _ => True := by
    refine { comm := ?_, network := ?_, listed := ?_, opened := fun _ => open_register free
             info0 := fun _ => rfl, info1 := fun _ => rfl, state := fun _ => rfl }
    · intro s old
      exact Function.update_of_ne old ..
    · intro s old here
      simpa [Links.register, old] using here
    · intro s _ member
      exact List.mem_append_left _ member
  refine { live := settled.live.register proc fd network, listedComm := ?_, queue := ?_, ends := ?_ }
  · intro s k member comm
    have old : s ≠ l.nextSocket := by
      rintro rfl
      simp [Links.register] at comm
    rw [frame.comm old] at comm
    rcases List.mem_append.mp member with member | new
    · exact settled.listedComm member comm
    · exact absurd (List.mem_singleton.mp new) old
  · intro k m waiting
    obtain ⟨s, awaits⟩ := settled.queue waiting
    obtain ⟨proc', fd', here⟩ := awaits.opened
    have old : s ≠ l.nextSocket := Nat.ne_of_lt (settled.live.sound.openedLt here)
    exact ⟨s, awaits.frame frame trivial trivial old⟩
  · intro k member connected
    obtain ⟨c, t, ends⟩ := settled.ends member connected
    have oldC : c ≠ l.nextSocket := Nat.ne_of_lt (settled.live.allLt ends.listed.1)
    have oldT : t ≠ l.nextSocket := Nat.ne_of_lt (settled.live.allLt ends.listed.2)
    exact ⟨c, t, ends.frame frame trivial oldC oldT id⟩

/-- The other end of a communication belongs to it, or is the socket in whose queue it waits. -/
theorem other_end (settled : l.Settled) {k : CommId} {c t : SockId} (ends : l.Ends k c t) :
    l.comm t = some k ∧ (∀ m, k ∉ l.connWait m) ∨ ∃ m, k ∈ l.connWait m ∧ l.Awaits k m t := by
  by_cases waits : ∃ m, k ∈ l.connWait m
  · obtain ⟨m, waiting⟩ := waits
    obtain ⟨s, awaits⟩ := settled.queue waiting
    cases Option.some.inj (awaits.info1.symm.trans ends.info1)
    exact .inr ⟨m, waiting, awaits⟩
  · have left : ∀ m, k ∉ l.connWait m := fun m waiting => waits ⟨m, waiting⟩
    exact .inl ⟨ends.comm1 left, left⟩

theorem ends_attached (settled : l.Settled) {k : CommId} {c t is : SockId} (ends : l.Ends k c t)
    (detached : l.network is → l.comm is = none) : c ≠ is ∧ t ≠ is := by
  have attached : ∀ {s j}, l.network s → l.comm s = some j → s ≠ is := by
    rintro s j network comm rfl
    rw [detached network] at comm
    cases comm
  refine ⟨attached ends.network.1 ends.comm0, ?_⟩
  rcases settled.other_end ends with ⟨comm, -⟩ | ⟨m, -, awaits⟩
  · exact attached ends.network.2 comm
  · exact attached ends.network.2 awaits.comm

/-- A socket without communication gets a new one; the old ones stay as they are. -/
theorem old_kept (settled : l.Settled) {l' : Links} {is : SockId} (fresh : l.comm is = none)
    (frame : l.Frame l' (· ≠ is) (· ≠ l.nextComm))
    (queues : ∀ {k m}, k ∈ l.connWait m → k ∈ l'.connWait m) :
    (∀ {k m}, k ∈ l.connWait m → ∃ s, l'.Awaits k m s) ∧
      ∀ {k}, k ∈ l.commList → l.state k ≠ .listening → ∃ c t, l'.Ends k c t := by
  constructor
  · intro k m waiting
    obtain ⟨s, awaits⟩ := settled.queue waiting
    obtain ⟨ltK, ltM⟩ := settled.lt_of_queue waiting
    have other : s ≠ is := by
      rintro rfl
      exact absurd awaits.comm (by simp [fresh])
    exact ⟨s, awaits.frame frame (Nat.ne_of_lt ltK) (Nat.ne_of_lt ltM) other⟩
  · intro k listed connected
    obtain ⟨c, t, ends⟩ := settled.ends listed connected
    obtain ⟨otherC, otherT⟩ := settled.ends_attached ends fun _ => fresh
    refine ⟨c, t, ends.frame frame (Nat.ne_of_lt (settled.live.listLt listed)) otherC otherT ?_⟩
    exact fun left m waiting => left m (queues waiting)

theorem listedComm_commNew (settled : l.Settled) {is s : SockId} {k : CommId}
    (member : s ∈ l.allSockets) (comm : (l.commNew is).comm s = some k) :
    k ∈ l.commList ++ [l.nextComm] := by
  by_cases same : s = is
  · subst same
    have new : k = l.nextComm := by simpa [commNew, eq_comm] using comm
    exact List.mem_append_right _ (by simp [new])
  · have kept : l.comm s = some k := by simpa [commNew, same] using comm
    exact List.mem_append_left _ (settled.listedComm member kept)

theorem listen (settled : l.Settled) {proc : Pid} {fd : Int} {is : SockId}
    (here : l.opened proc fd = some is) (fresh : l.comm is = none) : (l.listen is).Settled := by
  have frame : l.Frame (l.listen is) (· ≠ is) (· ≠ l.nextComm) :=
    { comm := fun other => Function.update_of_ne other .., network := fun _ => id
      listed := fun _ => id, opened := fun _ => id, info0 := fun old => Function.update_of_ne old ..
      info1 := fun old => Function.update_of_ne old ..
      state := fun old => by simp [Links.listen, setState, commNew, old] }
  obtain ⟨awaits, ends⟩ := settled.old_kept fresh frame (by
    intro k m waiting
    rw [connWait_listen, if_neg (Nat.ne_of_lt (settled.lt_of_queue waiting).2)]
    exact waiting)
  refine { live := settled.live.listen here, listedComm := settled.listedComm_commNew, queue := ?_
           ends := ?_ }
  · intro k m waiting
    rw [connWait_listen] at waiting
    split at waiting
    · cases waiting
    · exact awaits waiting
  · intro k member connected
    have old : k ≠ l.nextComm := by
      rintro rfl
      exact connected (Function.update_self ..)
    rw [frame.state old] at connected
    rcases List.mem_append.mp member with listed | new
    · exact ends listed connected
    · exact absurd (List.mem_singleton.mp new) old

theorem ask (settled : l.Settled) {proc : Pid} {fd : Int} {client listener : SockId} {m : CommId}
    (here : l.opened proc fd = some client) (network : l.network client)
    (fresh : l.comm client = none) (found : l.Open listener) (foundNetwork : l.network listener)
    (attached : l.comm listener = some m) (listening : l.state m = .listening) :
    (l.ask client listener m).Settled := by
  have apart : client ≠ listener := by
    rintro rfl
    rw [fresh] at attached
    cases attached
  have oldM : m ≠ l.nextComm := Nat.ne_of_lt (settled.live.sound.commLt attached)
  have frame : l.Frame (l.ask client listener m) (· ≠ client) (· ≠ l.nextComm) :=
    { comm := fun other => Function.update_of_ne other .., network := fun _ => id
      listed := fun _ => id, opened := fun _ => id, info0 := fun old => Function.update_of_ne old ..
      info1 := fun old => by simp [Links.ask, setInfo1, setConnWait, commNew, old]
      state := fun old => Function.update_of_ne old .. }
  have queue := connWait_ask client listener oldM
  obtain ⟨awaits, ends⟩ := settled.old_kept fresh frame (by
    intro k m' waiting
    rw [queue]
    split
    · rename_i same
      exact List.mem_append_left _ (same ▸ waiting)
    · rw [if_neg (Nat.ne_of_lt (settled.lt_of_queue waiting).2)]
      exact waiting)
  have new0 : (l.ask client listener m).info0 l.nextComm = some client := Function.update_self ..
  have new1 : (l.ask client listener m).info1 l.nextComm = some listener := Function.update_self ..
  have newComm : (l.ask client listener m).comm client = some l.nextComm := Function.update_self ..
  have listenerComm : (l.ask client listener m).comm listener = some m :=
    (frame.comm apart.symm).trans attached
  refine { live := settled.live.ask here listener m, listedComm := settled.listedComm_commNew
           queue := ?_, ends := ?_ }
  · intro k m' waiting
    rcases mem_connWait_of_ask oldM waiting with ⟨before, -⟩ | ⟨rfl, rfl⟩
    · exact awaits before
    · exact ⟨listener, new1, listenerComm, (frame.state oldM).trans listening, found, foundNetwork⟩
  · intro k member connected
    by_cases same : k = l.nextComm
    · subst same
      have waits : l.nextComm ∈ (l.ask client listener m).connWait m := by simp [queue]
      exact ⟨client, listener,
        { info0 := new0, info1 := new1, comm0 := newComm
          comm1 := fun left => absurd waits (left m)
          apart, network := ⟨network, foundNetwork⟩
          listed := ⟨settled.live.listed here network, by
            obtain ⟨proc', fd', there⟩ := found
            exact settled.live.listed there foundNetwork⟩
          half := .inl ⟨proc, fd, here⟩, both := fun _ => ⟨⟨proc, fd, here⟩, found⟩ }⟩
    · rw [frame.state same] at connected
      rcases List.mem_append.mp member with listed | new
      · exact ends listed connected
      · exact absurd (List.mem_singleton.mp new) same

theorem join (settled : l.Settled) {proc : Pid} {newfd : Int} {listener : SockId} {m k : CommId}
    {rest : List CommId} (free : l.opened proc newfd = none) (attached : l.comm listener = some m)
    (queue : l.connWait m = k :: rest) : (l.join proc newfd listener m k rest).Settled := by
  have head : k ∈ l.connWait m := by simp [queue]
  have registered := settled.register free (l.network listener)
  obtain ⟨s, awaited⟩ := settled.queue head
  -- the queue's socket is the one accepted on
  have owner : s = listener :=
    settled.live.sound.listening_unique awaited.comm attached awaited.listening
  have frame : (l.register proc newfd (l.network listener)).Frame
      (l.join proc newfd listener m k rest) (· ≠ l.nextSocket) (· ≠ k) :=
    { comm := fun other => Function.update_of_ne other .., network := fun _ => id
      listed := fun _ => id, opened := fun _ => id, info0 := fun _ => rfl
      info1 := fun old => Function.update_of_ne old .., state := fun _ => rfl }
  have fresh : (l.register proc newfd (l.network listener)).comm l.nextSocket = none :=
    Function.update_self ..
  have connected : l.state k ≠ .listening := settled.live.sound.waitState head
  have listed : k ∈ l.commList := settled.live.waitListed head
  refine { live := settled.live.join proc newfd listener queue, listedComm := ?_, queue := ?_
           ends := ?_ }
  · intro x j member comm
    by_cases new : x = l.nextSocket
    · subst new
      have made : (l.join proc newfd listener m k rest).comm l.nextSocket = some k :=
        Function.update_self ..
      cases Option.some.inj (made.symm.trans comm)
      exact listed
    · rw [frame.comm new] at comm
      exact registered.listedComm member comm
  · intro j m' waiting
    have other : j ≠ k := by
      rintro rfl
      exact settled.live.sound.not_waiting_join queue m' waiting
    obtain ⟨s', awaits⟩ := registered.queue (mem_connWait_of_join queue waiting)
    have oldS : s' ≠ l.nextSocket := by
      rintro rfl
      exact absurd awaits.comm (by simp [fresh])
    have oldM : m' ≠ k := by
      rintro rfl
      exact connected awaits.listening
    exact ⟨s', awaits.frame frame other oldM oldS⟩
  · intro j member other
    obtain ⟨c, t, ends⟩ := registered.ends member other
    obtain ⟨oldC, oldT⟩ := registered.ends_attached ends fun _ => fresh
    by_cases same : j = k
    · subst same
      have opened : (l.join proc newfd listener m j rest).Open l.nextSocket :=
        ⟨proc, newfd, if_pos ⟨rfl, rfl⟩⟩
      have network : (l.join proc newfd listener m j rest).network l.nextSocket := by
        have made : (l.register proc newfd (l.network listener)).network l.nextSocket =
          l.network listener := Function.update_self ..
        exact made.mpr (owner ▸ awaited.network)
      exact ⟨c, l.nextSocket,
        { info0 := ends.info0, info1 := Function.update_self ..
          comm0 := (frame.comm oldC).trans ends.comm0, comm1 := fun _ => Function.update_self ..
          apart := oldC, network := ⟨ends.network.1, network⟩
          listed := ⟨ends.listed.1, List.mem_append_right _ (List.mem_singleton_self _)⟩
          half := .inr opened, both := fun notClosed => ⟨(ends.both notClosed).1, opened⟩ }⟩
    · refine ⟨c, t, ends.frame frame same oldC oldT ?_⟩
      intro left m' waiting
      refine left m' ?_
      rw [connWait_join]
      have waits : j ∈ l.connWait m' := waiting
      split
      · rename_i here
        rw [here, queue] at waits
        exact (List.mem_cons.mp waits).resolve_left same
      · exact waits

theorem open_forget {proc : Pid} {fd : Int} {is s : SockId} (here : l.opened proc fd = some is)
    (other : s ≠ is) (opened : l.Open s) : (l.setOpened proc fd none).Open s := by
  obtain ⟨proc', fd', there⟩ := opened
  refine ⟨proc', fd', ?_⟩
  have elsewhere : ¬ (proc' = proc ∧ fd' = fd) := by
    rintro ⟨rfl, rfl⟩
    exact other (Option.some.inj (there.symm.trans here))
  simp [setOpened, elsewhere, there]

/-- A descriptor of a socket without communication, or of one that is not of the network. -/
theorem forget (settled : l.Settled) {proc : Pid} {fd : Int} {is : SockId}
    (here : l.opened proc fd = some is) (detached : l.network is → l.comm is = none) :
    (l.setOpened proc fd none).Settled := by
  have frame : l.Frame (l.setOpened proc fd none) (· ≠ is) fun _ => True :=
    { comm := fun _ => rfl, network := fun _ => id, listed := fun _ => id
      opened := open_forget here, info0 := fun _ => rfl, info1 := fun _ => rfl
      state := fun _ => rfl }
  refine { live := settled.live.ofClose (.alone here detached), listedComm := settled.listedComm, queue := ?_
           ends := ?_ }
  · intro k m waiting
    obtain ⟨s, awaits⟩ := settled.queue waiting
    have other : s ≠ is := by
      rintro rfl
      exact absurd awaits.comm (by simp [detached awaits.network])
    exact ⟨s, awaits.frame frame trivial trivial other⟩
  · intro k member connected
    obtain ⟨c, t, ends⟩ := settled.ends member connected
    obtain ⟨otherC, otherT⟩ := settled.ends_attached ends detached
    exact ⟨c, t, ends.frame frame trivial otherC otherT id⟩

/-- The ends of another communication than the one of `is`. -/
theorem ends_of_ne (settled : l.Settled) {j k : CommId} {c t is : SockId} (ends : l.Ends j c t)
    (comm : l.comm is = some k) (other : j ≠ k) (done : l.QueueDone is) : c ≠ is ∧ t ≠ is := by
  have elsewhere : ∀ {s i}, l.comm s = some i → i ≠ k → s ≠ is := by
    rintro s i attached different rfl
    exact different (Option.some.inj (attached.symm.trans comm))
  refine ⟨elsewhere ends.comm0 other, ?_⟩
  rcases settled.other_end ends with ⟨attached, -⟩ | ⟨m, waiting, awaits⟩
  · exact elsewhere attached other
  · refine elsewhere awaits.comm ?_
    rintro rfl
    rw [done m comm awaits.listening] at waiting
    cases waiting

/-- The first of two ends is closed. -/
theorem closeFirst (settled : l.Settled) {proc : Pid} {fd : Int} {is : SockId} {k : CommId}
    (here : l.opened proc fd = some is) (network : l.network is) (comm : l.comm is = some k)
    (notListening : l.state k ≠ .listening) (notClosed : l.state k ≠ .closed) :
    ((l.setState k .closed).setOpened proc fd none).Settled := by
  have frame : l.Frame ((l.setState k .closed).setOpened proc fd none) (· ≠ is) (· ≠ k) :=
    { comm := fun _ => rfl, network := fun _ => id, listed := fun _ => id
      opened := fun other opened => open_forget (l := l.setState k .closed) here other opened
      info0 := fun _ => rfl, info1 := fun _ => rfl
      state := fun other => Function.update_of_ne other .. }
  have done : l.QueueDone is := by
    intro j attached listening
    cases Option.some.inj (comm.symm.trans attached)
    exact absurd listening notListening
  refine { live := settled.live.ofClose (.first here network comm notListening notClosed)
           listedComm := settled.listedComm, queue := ?_, ends := ?_ }
  · intro j m waiting
    obtain ⟨s, awaits⟩ := settled.queue waiting
    have notK : m ≠ k := fun same => notListening (same ▸ awaits.listening)
    have other : s ≠ is := by
      rintro rfl
      exact notK (Option.some.inj (awaits.comm.symm.trans comm))
    exact ⟨s, awaits.info1, awaits.comm, (frame.state notK).trans awaits.listening,
      frame.opened other awaits.opened, awaits.network⟩
  · intro j member connected
    by_cases same : j = k
    · subst same
      obtain ⟨c, t, ends⟩ := settled.ends member notListening
      obtain ⟨openC, openT⟩ := ends.both notClosed
      have closed : ((l.setState j .closed).setOpened proc fd none).state j = .closed :=
        Function.update_self ..
      refine ⟨c, t, ends.info0, ends.info1, ends.comm0, ends.comm1, ends.apart, ends.network,
        ends.listed, ?_, fun open_ => absurd closed open_⟩
      -- the end that stays open is the one that is not closed now
      rcases settled.live.sound.slot comm with first | ⟨second, -⟩
      · cases Option.some.inj (first.symm.trans ends.info0)
        exact .inr (frame.opened ends.apart.symm openT)
      · cases Option.some.inj (second.symm.trans ends.info1)
        exact .inl (frame.opened ends.apart openC)
    · rw [frame.state same] at connected
      obtain ⟨c, t, ends⟩ := settled.ends member connected
      obtain ⟨otherC, otherT⟩ := settled.ends_of_ne ends comm same done
      exact ⟨c, t, ends.frame frame same otherC otherT id⟩

/-- A communication goes, with all the sockets that belong to it. -/
theorem tearDown (settled : l.Settled) {proc : Pid} {fd : Int} {is : SockId} {k : CommId}
    (here : l.opened proc fd = some is) (comm : l.comm is = some k) (idle : l.connWait k = []) {all : List SockId}
    (mem : ∀ {s}, s ∈ all ↔ s ∈ l.allSockets ∧ l.comm s ≠ some k)
    (live : (({ l with allSockets := all }.destroy k).setOpened proc fd none).Live) :
    (({ l with allSockets := all }.destroy k).setOpened proc fd none).Settled := by
  have frame : l.Frame (({ l with allSockets := all }.destroy k).setOpened proc fd none)
      (fun s => l.comm s ≠ some k) fun _ => True :=
    { comm := fun _ => rfl, network := fun _ => id
      listed := fun other member => mem.mpr ⟨member, other⟩
      opened := by
        intro s other opened
        refine open_forget (l := { l with allSockets := all }.destroy k) here ?_ opened
        rintro rfl
        exact other comm
      info0 := fun _ => rfl, info1 := fun _ => rfl, state := fun _ => rfl }
  have queues : ∀ m, (({ l with allSockets := all }.destroy k).setOpened proc fd none).connWait m =
      l.connWait m := by
    intro m
    simp only [setOpened, Links.destroy, setConnWait, Function.update_apply]
    split
    · rename_i same
      rw [same, idle]
    · rfl
  refine { live, listedComm := ?_, queue := ?_, ends := ?_ }
  · intro s j member attached
    obtain ⟨listed, other⟩ := mem.mp member
    have listedJ := settled.listedComm listed attached
    exact settled.live.listNodup.mem_erase_iff.mpr ⟨fun same => other (same ▸ attached), listedJ⟩
  · intro j m waiting
    rw [queues] at waiting
    obtain ⟨s, awaits⟩ := settled.queue waiting
    have other : l.comm s ≠ some k := by
      intro attached
      cases Option.some.inj (awaits.comm.symm.trans attached)
      rw [idle] at waiting
      cases waiting
    exact ⟨s, awaits.frame frame trivial trivial other⟩
  · intro j member connected
    obtain ⟨other, listed⟩ := settled.live.listNodup.mem_erase_iff.mp member
    obtain ⟨c, t, ends⟩ := settled.ends listed connected
    have elsewhere : ∀ {s i}, l.comm s = some i → i ≠ k → l.comm s ≠ some k := by
      intro s i attached different attached'
      exact different (Option.some.inj (attached.symm.trans attached'))
    have otherT : l.comm t ≠ some k := by
      rcases settled.other_end ends with ⟨attached, -⟩ | ⟨m, waiting, awaits⟩
      · exact elsewhere attached other
      · refine elsewhere awaits.comm ?_
        rintro rfl
        rw [idle] at waiting
        cases waiting
    refine ⟨c, t, ends.frame frame trivial (elsewhere ends.comm0 other) otherT ?_⟩
    exact fun left m waiting => left m ((queues m).symm ▸ waiting)

/-- Closing a descriptor, unless it strands a queue. -/
theorem commClose (settled : l.Settled) {proc : Pid} {fd : Int} {is : SockId} {l' : Links}
    {gone : List SockId} (here : l.opened proc fd = some is) (network : l.network is)
    (done : l.QueueDone is) (closed : l.CommClose is l' gone) :
    (l'.setOpened proc fd none).Settled := by
  have live := settled.live.ofClose (closed.close here network)
  cases closed with
  | detached comm => exact settled.forget here fun _ => comm
  | first comm notListening notClosed =>
      exact settled.closeFirst here network comm notListening notClosed
  | @listening s k comm listening first =>
      refine settled.tearDown here comm (done k comm listening) ?_ live
      intro x
      rw [settled.live.allNodup.mem_erase_iff, and_comm]
      exact and_congr_right fun _ => not_congr (settled.live.listeningOwner comm listening first)
  | @second s t k comm closed first second =>
      have idle : l.connWait k = [] := by
        apply List.eq_nil_iff_forall_not_mem.mpr
        intro j waiting
        obtain ⟨x, awaits⟩ := settled.queue waiting
        exact absurd awaits.listening (by simp [closed])
      refine settled.tearDown here comm idle ?_ live
      intro x
      have owners := settled.live.closedOwners (x := x) here network comm closed first second
      simp only [delete, ne_eq, ← owners]
      rw [(settled.live.allNodup.erase s).mem_erase_iff, settled.live.allNodup.mem_erase_iff]
      tauto

end Settled

end Links

end Simterpose
