import Simterpose.Links

/-! # Who owns a communication

A communication belongs to the sockets in its two slots. In every run a socket that
refers to a communication sits in one of its slots, and the second slot belongs to a
socket only once the communication has left the queue it waited in. Without duplicated
descriptors more is true: what an open descriptor of a network socket reaches has not
been torn down.
-/

namespace Simterpose

open Lib

namespace Links

/-- Slots, queues and back references fit together. -/
structure Tied (l : Links) : Prop where
  waitNodup : ∀ m, (l.connWait m).Nodup
  waitUnique : ∀ {k m m'}, k ∈ l.connWait m → k ∈ l.connWait m' → m = m'
  waitState : ∀ {k m}, k ∈ l.connWait m → l.state k ≠ .listening
  slot : ∀ {is k}, l.comm is = some k →
    l.info0 k = some is ∨ l.info1 k = some is ∧ ∀ m, k ∉ l.connWait m
  listener : ∀ {is k}, l.comm is = some k → l.state k = .listening → l.info0 k = some is

/-- Nothing refers to the communication that is made next. -/
structure NewComm (l : Links) : Prop where
  comm : ∀ {is}, l.comm is ≠ some l.nextComm
  waiting : ∀ {m}, l.nextComm ∉ l.connWait m

namespace Tied

variable {l : Links}

theorem register (tied : l.Tied) (proc : Pid) (fd : Int) (network : Prop) :
    (l.register proc fd network).Tied where
  waitNodup := tied.waitNodup
  waitUnique := tied.waitUnique
  waitState := tied.waitState
  slot := by
    intro s k attached
    simp only [Links.register, Function.update_apply] at attached
    split at attached
    · cases attached
    · exact tied.slot attached
  listener := by
    intro s k attached
    simp only [Links.register, Function.update_apply] at attached
    split at attached
    · cases attached
    · exact tied.listener attached

theorem close (tied : l.Tied) (k : CommId) : (l.setState k .closed).Tied where
  waitNodup := tied.waitNodup
  waitUnique := tied.waitUnique
  waitState := by
    intro j m waiting
    simp only [setState, Function.update_apply]
    split
    · simp
    · exact tied.waitState waiting
  slot := tied.slot
  listener := by
    intro s j attached
    simp only [setState, Function.update_apply]
    split
    · simp
    · exact tied.listener attached

theorem destroy (tied : l.Tied) (k : CommId) : (l.destroy k).Tied := by
  refine { tied with waitNodup := ?_, waitUnique := ?_, waitState := ?_, slot := ?_ }
  · intro m
    simp only [Links.destroy, setConnWait, Function.update_apply]
    split
    · exact List.nodup_nil
    · exact tied.waitNodup m
  · exact fun waiting waiting' =>
      tied.waitUnique (mem_connWait_of_destroy waiting) (mem_connWait_of_destroy waiting')
  · exact fun waiting => tied.waitState (mem_connWait_of_destroy waiting)
  · intro s j attached
    rcases tied.slot attached with first | ⟨second, joined⟩
    · exact .inl first
    · exact .inr ⟨second, fun m waiting => joined m (mem_connWait_of_destroy waiting)⟩

theorem commNew (tied : l.Tied) (new : l.NewComm) (is : SockId) : (l.commNew is).Tied where
  waitNodup := by
    intro m
    simp only [Links.commNew, Function.update_apply]
    split
    · exact List.nodup_nil
    · exact tied.waitNodup m
  waitUnique := by
    intro k m m' waiting waiting'
    simp only [Links.commNew, Function.update_apply] at waiting waiting'
    split at waiting
    · simp at waiting
    · split at waiting'
      · simp at waiting'
      · exact tied.waitUnique waiting waiting'
  waitState := by
    intro k m waiting
    simp only [Links.commNew, Function.update_apply] at waiting ⊢
    split at waiting
    · simp at waiting
    · have older : k ≠ l.nextComm := fun same => new.waiting (same ▸ waiting)
      rw [if_neg older]
      exact tied.waitState waiting
  slot := by
    intro s k attached
    simp only [Links.commNew, Function.update_apply] at attached ⊢
    split at attached
    · rename_i same
      cases attached
      simp [same]
    · have older : k ≠ l.nextComm := fun same => new.comm (same ▸ attached)
      simp only [if_neg older]
      rcases tied.slot attached with first | ⟨second, joined⟩
      · exact .inl first
      · refine .inr ⟨second, fun m => ?_⟩
        split
        · simp
        · exact joined m
  listener := by
    intro s k attached
    simp only [Links.commNew, Function.update_apply] at attached ⊢
    split at attached
    · cases attached
      simp
    · have older : k ≠ l.nextComm := fun same => new.comm (same ▸ attached)
      simp only [if_neg older]
      exact tied.listener attached

/-- The communication accepted waits in no queue any more. -/
theorem not_waiting_join (tied : l.Tied) {proc : Pid} {fd : Int} {listener : SockId} {m k : CommId}
    {rest : List CommId} (queue : l.connWait m = k :: rest) (m' : CommId) :
    k ∉ (l.join proc fd listener m k rest).connWait m' := by
  have head : k ∈ l.connWait m := by simp [queue]
  have nodup : (k :: rest).Nodup := queue ▸ tied.waitNodup m
  intro waiting
  obtain rfl := tied.waitUnique head (mem_connWait_of_join queue waiting)
  rw [connWait_join, if_pos rfl] at waiting
  exact (List.nodup_cons.mp nodup).1 waiting

theorem join (tied : l.Tied) (proc : Pid) (fd : Int) (listener : SockId) {m k : CommId}
    {rest : List CommId} (queue : l.connWait m = k :: rest) :
    (l.join proc fd listener m k rest).Tied := by
  have head : k ∈ l.connWait m := by simp [queue]
  have nodup : (k :: rest).Nodup := queue ▸ tied.waitNodup m
  have fewer : ∀ {j m'}, j ∈ (l.join proc fd listener m k rest).connWait m' → j ∈ l.connWait m' :=
    fun waiting => mem_connWait_of_join queue waiting
  refine { waitNodup := ?_, waitUnique := ?_, waitState := ?_, slot := ?_, listener := ?_ }
  · intro m'
    rw [connWait_join]
    split
    · exact (List.nodup_cons.mp nodup).2
    · exact tied.waitNodup m'
  · exact fun waiting waiting' => tied.waitUnique (fewer waiting) (fewer waiting')
  · exact fun waiting => tied.waitState (fewer waiting)
  · intro s j attached
    rw [comm_join] at attached
    split at attached
    · rename_i new
      cases attached
      exact .inr ⟨by simp [Links.join, setComm, setInfo1, new], tied.not_waiting_join queue⟩
    · rcases tied.slot attached with first | ⟨second, joined⟩
      · exact .inl first
      · have other : j ≠ k := fun same => joined m (same ▸ head)
        refine .inr ⟨?_, fun m' waiting => joined m' (fewer waiting)⟩
        simpa only [Links.join, setComm, setInfo1, setConnWait, Links.register,
          Links.setOpened, Function.update_apply, if_neg other] using second
  · intro s j attached state
    rw [comm_join] at attached
    split at attached
    · cases attached
      exact absurd state (tied.waitState head)
    · exact tied.listener attached state

/-- A listening communication is attached to one socket. -/
theorem listening_unique (tied : l.Tied) {s t : SockId} {m : CommId} (mine : l.comm s = some m)
    (theirs : l.comm t = some m) (listening : l.state m = .listening) : s = t :=
  Option.some.inj ((tied.listener mine listening).symm.trans (tied.listener theirs listening))

end Tied

namespace NewComm

variable {l : Links}

/-- Only the socket it was made for refers to a new communication. -/
theorem owner (new : l.NewComm) {is s : SockId}
    (attached : (l.commNew is).comm s = some l.nextComm) : s = is := by
  simp only [Links.commNew, Function.update_apply] at attached
  split at attached
  · assumption
  · exact absurd attached new.comm

/-- A new communication waits nowhere. -/
theorem idle (new : l.NewComm) (is : SockId) (m : CommId) :
    l.nextComm ∉ (l.commNew is).connWait m := by
  simp only [Links.commNew, Function.update_apply]
  split
  · simp
  · exact new.waiting

end NewComm

namespace Tied

variable {l : Links}

theorem listen (tied : l.Tied) (new : l.NewComm) (is : SockId) : (l.listen is).Tied := by
  have made := tied.commNew new is
  refine { made with waitState := ?_, listener := ?_ }
  · intro k m waiting
    have older : k ≠ l.nextComm := fun same => new.idle is m (same ▸ waiting)
    simp only [Links.listen, setState, Function.update_apply, if_neg older]
    exact made.waitState waiting
  · intro s k attached state
    by_cases same : k = l.nextComm
    · subst same
      obtain rfl := new.owner attached
      simp [Links.listen, setState, Links.commNew]
    · simp only [Links.listen, setState, Function.update_apply, if_neg same] at state ⊢
      exact made.listener attached state

theorem ask (tied : l.Tied) (new : l.NewComm) (client listener : SockId) (m : CommId) :
    (l.ask client listener m).Tied := by
  have made := tied.commNew new client
  have queue : ∀ m', (l.ask client listener m).connWait m' =
      if m' = m then (l.commNew client).connWait m' ++ [l.nextComm]
      else (l.commNew client).connWait m' := by
    intro m'
    simp only [Links.ask, setInfo1, setConnWait, Function.update_apply]
    split <;> simp_all
  have waits : ∀ {k m'}, k ∈ (l.ask client listener m).connWait m' →
      k ∈ (l.commNew client).connWait m' ∨ k = l.nextComm ∧ m' = m := by
    intro k m' waiting
    rw [queue] at waiting
    split at waiting
    · rcases List.mem_append.mp waiting with old | last
      · exact .inl old
      · exact .inr ⟨List.mem_singleton.mp last, ‹_›⟩
    · exact .inl waiting
  refine { made with waitNodup := ?_, waitUnique := ?_, waitState := ?_, slot := ?_ }
  · intro m'
    rw [queue]
    split
    · exact List.nodup_append.mpr ⟨made.waitNodup m', List.nodup_singleton _, by
        intro a member b last same
        rw [List.mem_singleton.mp last] at same
        exact new.idle client m' (same ▸ member)⟩
    · exact made.waitNodup m'
  · intro k m' m'' waiting waiting'
    rcases waits waiting with old | ⟨rfl, rfl⟩ <;> rcases waits waiting' with old' | ⟨last, rfl⟩
    · exact made.waitUnique old old'
    · exact absurd (last ▸ old) (new.idle client m')
    · exact absurd old' (new.idle client m'')
    · rfl
  · intro k m' waiting
    rcases waits waiting with old | ⟨rfl, -⟩
    · exact made.waitState old
    · simp [Links.ask, setInfo1, setConnWait, Links.commNew]
  · intro s k attached
    rcases made.slot attached with first | ⟨second, joined⟩
    · exact .inl first
    · have older : k ≠ l.nextComm := by
        rintro rfl
        simp [Links.commNew] at second
      refine .inr ⟨?_, fun m' waiting => ?_⟩
      · simpa only [Links.ask, setInfo1, setConnWait, Function.update_apply, if_neg older] using second
      · rcases waits waiting with old | ⟨last, -⟩
        · exact joined m' old
        · exact older last

end Tied

/-- Closing opens nothing. -/
theorem Close.opened {l l' : Links} {proc : Pid} {fd : Int} (closed : l.Close proc fd l')
    {proc' : Pid} {fd' : Int} {s : SockId} (there : l'.opened proc' fd' = some s) :
    l.opened proc' fd' = some s := by
  cases closed with
  | noSocket => exact there
  | alone | listening | first | second =>
      simp only [setOpened] at there
      split at there
      · cases there
      · exact there

theorem Close.nextSocket {l l' : Links} {proc : Pid} {fd : Int} (closed : l.Close proc fd l') :
    l'.nextSocket = l.nextSocket := by
  cases closed <;> rfl

theorem Step.next_le {H : Type} {label : Op × Event H} {l l' : Links} (step : l.Step label l') :
    l.nextSocket ≤ l'.nextSocket ∧ l.nextComm ≤ l'.nextComm := by
  have closes : ∀ {proc fd l'}, l.Close proc fd l' →
      l.nextSocket ≤ l'.nextSocket ∧ l.nextComm ≤ l'.nextComm := by
    intro proc fd l' closed
    cases closed <;> exact ⟨Nat.le_refl _, Nat.le_refl _⟩
  cases step with
  | quiet | dup => exact ⟨Nat.le_refl _, Nat.le_refl _⟩
  | socket | join => exact ⟨Nat.le_succ _, Nat.le_refl _⟩
  | listen | ask => exact ⟨Nat.le_refl _, Nat.le_succ _⟩
  | close closed => exact closes closed
  | dup2 closed =>
      have grown := closes closed
      exact grown

/-- What holds in every run in which no address is handed out twice: slots, queues and back
    references fit together, and they name only what exists. -/
structure Sound (l : Links) : Prop extends Tied l where
  openedLt : ∀ {proc fd is}, l.opened proc fd = some is → is < l.nextSocket
  commLt : ∀ {is k}, l.comm is = some k → k < l.nextComm
  waitLt : ∀ {k m}, k ∈ l.connWait m → k < l.nextComm

namespace Sound

variable {l : Links}

theorem newComm (sound : l.Sound) : l.NewComm where
  comm := fun attached => absurd (sound.commLt attached) (Nat.lt_irrefl _)
  waiting := fun waiting => absurd (sound.waitLt waiting) (Nat.lt_irrefl _)

theorem setOpened (sound : l.Sound) (proc : Pid) (fd : Int) {is : Option SockId}
    (old : ∀ s, is = some s → s < l.nextSocket) : (l.setOpened proc fd is).Sound := by
  refine { sound with openedLt := ?_ }
  intro proc' fd' s here
  simp only [Links.setOpened] at here
  split at here
  · exact old s here
  · exact sound.openedLt here

theorem register (sound : l.Sound) (proc : Pid) (fd : Int) (network : Prop) :
    (l.register proc fd network).Sound := by
  refine { sound.toTied.register proc fd network with
           openedLt := ?_, commLt := ?_, waitLt := sound.waitLt }
  · intro proc' fd' s here
    simp only [Links.register, Links.setOpened] at here ⊢
    split at here
    · cases here
      exact Nat.lt_succ_self _
    · exact Nat.lt_succ_of_lt (sound.openedLt here)
  · intro s k attached
    simp only [Links.register, Function.update_apply] at attached
    split at attached
    · cases attached
    · exact sound.commLt attached

theorem delete (sound : l.Sound) (is : SockId) : (l.delete is).Sound := { sound with }

theorem close (sound : l.Sound) (k : CommId) : (l.setState k .closed).Sound :=
  { sound.toTied.close k with
    openedLt := sound.openedLt, commLt := sound.commLt, waitLt := sound.waitLt }

theorem destroy (sound : l.Sound) (k : CommId) : (l.destroy k).Sound :=
  { sound.toTied.destroy k with
    openedLt := sound.openedLt, commLt := sound.commLt
    waitLt := fun waiting => sound.waitLt (mem_connWait_of_destroy waiting) }

theorem commNew (sound : l.Sound) (is : SockId) : (l.commNew is).Sound := by
  refine { sound.toTied.commNew sound.newComm is with
           openedLt := sound.openedLt, commLt := ?_, waitLt := ?_ }
  · intro s k attached
    simp only [Links.commNew, Function.update_apply] at attached ⊢
    split at attached
    · cases attached
      exact Nat.lt_succ_self _
    · exact Nat.lt_succ_of_lt (sound.commLt attached)
  · intro k m waiting
    simp only [Links.commNew, Function.update_apply] at waiting ⊢
    split at waiting
    · simp at waiting
    · exact Nat.lt_succ_of_lt (sound.waitLt waiting)

theorem listen (sound : l.Sound) (is : SockId) : (l.listen is).Sound :=
  have made := sound.commNew is
  { sound.toTied.listen sound.newComm is with
    openedLt := made.openedLt, commLt := made.commLt, waitLt := made.waitLt }

theorem ask (sound : l.Sound) (client listener : SockId) (m : CommId) :
    (l.ask client listener m).Sound := by
  have made := sound.commNew client
  refine { sound.toTied.ask sound.newComm client listener m with
           openedLt := made.openedLt, commLt := made.commLt, waitLt := ?_ }
  intro k m' waiting
  simp only [Links.ask, setInfo1, setConnWait, Function.update_apply] at waiting
  split at waiting
  · rcases List.mem_append.mp waiting with old | new
    · exact made.waitLt old
    · rw [List.mem_singleton.mp new]
      exact Nat.lt_succ_self _
  · exact made.waitLt waiting

theorem join (sound : l.Sound) (proc : Pid) (fd : Int) (listener : SockId) {m k : CommId}
    {rest : List CommId} (queue : l.connWait m = k :: rest) :
    (l.join proc fd listener m k rest).Sound := by
  refine { sound.toTied.join proc fd listener queue with
           openedLt := (sound.register proc fd (l.network listener)).openedLt, commLt := ?_
           waitLt := fun waiting => sound.waitLt (mem_connWait_of_join queue waiting) }
  intro s j attached
  rw [comm_join] at attached
  split at attached
  · cases attached
    exact sound.waitLt (m := m) (by simp [queue])
  · exact sound.commLt attached

theorem ofClose (sound : l.Sound) {proc : Pid} {fd : Int} {l' : Links} (closed : l.Close proc fd l') :
    l'.Sound := by
  cases closed with
  | noSocket => exact sound
  | alone => exact sound.setOpened proc fd (by simp)
  | listening => exact ((sound.delete _).destroy _).setOpened proc fd (by simp)
  | first => exact (sound.close _).setOpened proc fd (by simp)
  | second => exact (((sound.delete _).delete _).destroy _).setOpened proc fd (by simp)

/-- Every call keeps slots, queues and back references together. -/
theorem step {H : Type} {label : Op × Event H} {l' : Links} (sound : l.Sound)
    (step : l.Step label l') : l'.Sound := by
  cases step with
  | quiet => exact sound
  | socket => exact sound.register _ _ _
  | listen => exact sound.listen _
  | ask => exact sound.ask _ _ _
  | join _ _ _ queue _ => exact sound.join _ _ _ queue
  | close closed => exact sound.ofClose closed
  | dup => exact sound.setOpened _ _ fun _ => sound.openedLt
  | dup2 closed =>
      refine (sound.ofClose closed).setOpened _ _ fun s here => ?_
      rw [closed.nextSocket]
      exact sound.openedLt here

end Sound

/-- The lists name only what exists. -/
structure Enumerated (l : Links) : Prop where
  socketLt : ∀ {is}, is ∈ l.allSockets → is < l.nextSocket
  commLt : ∀ {k}, k ∈ l.commList → k < l.nextComm

namespace Enumerated

variable {l l' : Links}

theorem register (enumerated : l.Enumerated) (proc : Pid) (fd : Int) (network : Prop) :
    (l.register proc fd network).Enumerated where
  socketLt := by
    intro is member
    rcases List.mem_append.mp member with old | new
    · exact Nat.lt_succ_of_lt (enumerated.socketLt old)
    · rw [List.mem_singleton.mp new]
      exact Nat.lt_succ_self _
  commLt := enumerated.commLt

theorem commNew (enumerated : l.Enumerated) (is : SockId) : (l.commNew is).Enumerated where
  socketLt := enumerated.socketLt
  commLt := by
    intro k member
    rcases List.mem_append.mp member with old | new
    · exact Nat.lt_succ_of_lt (enumerated.commLt old)
    · rw [List.mem_singleton.mp new]
      exact Nat.lt_succ_self _

theorem listen (enumerated : l.Enumerated) (is : SockId) : (l.listen is).Enumerated :=
  have new := enumerated.commNew is
  ⟨new.socketLt, new.commLt⟩

theorem ask (enumerated : l.Enumerated) (client listener : SockId) (m : CommId) :
    (l.ask client listener m).Enumerated :=
  have new := enumerated.commNew client
  ⟨new.socketLt, new.commLt⟩

theorem join (enumerated : l.Enumerated) (proc : Pid) (fd : Int) (listener : SockId) (m k : CommId)
    (rest : List CommId) : (l.join proc fd listener m k rest).Enumerated :=
  have new := enumerated.register proc fd (l.network listener)
  ⟨new.socketLt, new.commLt⟩

theorem ofClose (enumerated : l.Enumerated) {proc : Pid} {fd : Int} (closed : l.Close proc fd l') :
    l'.Enumerated := by
  cases closed with
  | noSocket => exact enumerated
  | alone | first => exact ⟨enumerated.socketLt, enumerated.commLt⟩
  | listening =>
      exact ⟨fun member => enumerated.socketLt (List.mem_of_mem_erase member),
        fun member => enumerated.commLt (List.mem_of_mem_erase member)⟩
  | second =>
      exact ⟨fun member => enumerated.socketLt (List.mem_of_mem_erase (List.mem_of_mem_erase member)),
        fun member => enumerated.commLt (List.mem_of_mem_erase member)⟩

end Enumerated

/-- What holds as long as no descriptor is duplicated: an open descriptor of a network socket
    reaches only what is listed. -/
structure Kept (l : Links) : Prop extends Tied l where
  single : ∀ {proc fd proc' fd' is}, l.opened proc fd = some is → l.opened proc' fd' = some is →
    proc' = proc ∧ fd' = fd
  allNodup : l.allSockets.Nodup
  listNodup : l.commList.Nodup
  listed : ∀ {proc fd is}, l.opened proc fd = some is → l.network is → is ∈ l.allSockets
  attached : ∀ {proc fd is k}, l.opened proc fd = some is → l.network is → l.comm is = some k →
    k ∈ l.commList
  closedHalf : ∀ {k}, k ∈ l.commList → l.state k = .closed →
    ∃ z ∈ l.allSockets, l.comm z = some k ∧ ∀ proc fd, l.opened proc fd ≠ some z
  waitListed : ∀ {k m}, k ∈ l.connWait m → k ∈ l.commList

/-- The socket and the communication that are made next are nobody's yet. -/
structure Fresh (l : Links) : Prop extends NewComm l where
  opened : ∀ {proc fd}, l.opened proc fd ≠ some l.nextSocket
  socketUnlisted : l.nextSocket ∉ l.allSockets
  commUnlisted : l.nextComm ∉ l.commList

namespace Kept

variable {l : Links}

theorem register (kept : l.Kept) (fresh : l.Fresh) (proc : Pid) (fd : Int) (network : Prop) :
    (l.register proc fd network).Kept := by
  have opened : ∀ {proc' fd' s}, (l.register proc fd network).opened proc' fd' = some s →
      (proc' = proc ∧ fd' = fd ∧ s = l.nextSocket) ∨
        l.opened proc' fd' = some s ∧ s ≠ l.nextSocket := by
    intro proc' fd' s here
    simp only [Links.register, Links.setOpened] at here
    split at here
    · rename_i same
      cases here
      exact .inl ⟨same.1, same.2, rfl⟩
    · exact .inr ⟨here, fun same => fresh.opened (same ▸ here)⟩
  refine
    { kept.toTied.register proc fd network with
      single := ?_, allNodup := ?_, listNodup := kept.listNodup, listed := ?_, attached := ?_
      closedHalf := ?_, waitListed := kept.waitListed }
  · intro proc₁ fd₁ proc₂ fd₂ s here there
    rcases opened here with ⟨rfl, rfl, rfl⟩ | ⟨here, other⟩ <;>
      rcases opened there with ⟨rfl, rfl, same⟩ | ⟨there, other'⟩
    · exact ⟨rfl, rfl⟩
    · exact absurd rfl other'
    · exact absurd same other
    · exact kept.single here there
  · exact List.nodup_append.mpr ⟨kept.allNodup, List.nodup_singleton _, by
      intro a member b new same
      rw [List.mem_singleton.mp new] at same
      exact fresh.socketUnlisted (same ▸ member)⟩
  · intro proc' fd' s here isNetwork
    simp only [Links.register, List.mem_append, List.mem_singleton, Function.update_apply] at isNetwork ⊢
    rcases opened here with ⟨-, -, new⟩ | ⟨here, other⟩
    · exact .inr new
    · rw [if_neg other] at isNetwork
      exact .inl (kept.listed here isNetwork)
  · intro proc' fd' s k here isNetwork comm
    simp only [Links.register, Function.update_apply] at isNetwork comm ⊢
    rcases opened here with ⟨-, -, rfl⟩ | ⟨here, other⟩
    · simp at comm
    · rw [if_neg other] at isNetwork comm
      exact kept.attached here isNetwork comm
  · intro k member closed
    obtain ⟨z, listed, comm, unopened⟩ := kept.closedHalf member closed
    have other : z ≠ l.nextSocket := fun same => fresh.socketUnlisted (same ▸ listed)
    refine ⟨z, List.mem_append_left _ listed, ?_, ?_⟩
    · simp [Links.register, other, comm]
    · intro proc' fd' here
      rcases opened here with ⟨-, -, same⟩ | ⟨here, -⟩
      · exact other same
      · exact unopened _ _ here

theorem commNew (kept : l.Kept) (fresh : l.Fresh) {proc : Pid} {fd : Int} {is : SockId}
    (here : l.opened proc fd = some is) : (l.commNew is).Kept := by
  have older : ∀ {k}, k ∈ l.commList → k ≠ l.nextComm :=
    fun member same => fresh.commUnlisted (same ▸ member)
  refine
    { kept.toTied.commNew fresh.toNewComm is with
      single := kept.single, allNodup := kept.allNodup, listNodup := ?_, listed := kept.listed
      attached := ?_, closedHalf := ?_, waitListed := ?_ }
  · exact List.nodup_append.mpr ⟨kept.listNodup, List.nodup_singleton _, by
      intro a member b new same
      rw [List.mem_singleton.mp new] at same
      exact older member same⟩
  · intro proc' fd' s k there network comm
    simp only [Links.commNew, Function.update_apply] at comm
    split at comm
    · cases comm
      exact List.mem_append_right _ (List.mem_singleton_self _)
    · exact List.mem_append_left _ (kept.attached there network comm)
  · intro k member closed
    rcases List.mem_append.mp member with old | new
    · simp only [Links.commNew, Function.update_apply, if_neg (older old)] at closed
      obtain ⟨z, listed, comm, unopened⟩ := kept.closedHalf old closed
      have other : z ≠ is := fun same => unopened proc fd (same ▸ here)
      exact ⟨z, listed, by simp [Links.commNew, other, comm], unopened⟩
    · rw [List.mem_singleton.mp new] at closed
      simp [Links.commNew] at closed
  · intro k m waiting
    simp only [Links.commNew, Function.update_apply] at waiting
    split at waiting
    · simp at waiting
    · exact List.mem_append_left _ (kept.waitListed waiting)

theorem listen (kept : l.Kept) (fresh : l.Fresh) {proc : Pid} {fd : Int} {is : SockId}
    (here : l.opened proc fd = some is) : (l.listen is).Kept := by
  have made := kept.commNew fresh here
  refine { kept.toTied.listen fresh.toNewComm is with
           single := made.single, allNodup := made.allNodup, listNodup := made.listNodup
           listed := made.listed, attached := made.attached, closedHalf := ?_
           waitListed := made.waitListed }
  intro k member closed
  simp only [Links.listen, setState, Function.update_apply] at closed
  split at closed
  · cases closed
  · exact made.closedHalf member closed

theorem ask (kept : l.Kept) (fresh : l.Fresh) {proc : Pid} {fd : Int} {client : SockId}
    (here : l.opened proc fd = some client) (listener : SockId) (m : CommId) :
    (l.ask client listener m).Kept := by
  have made := kept.commNew fresh here
  refine { kept.toTied.ask fresh.toNewComm client listener m with
           single := made.single, allNodup := made.allNodup, listNodup := made.listNodup
           listed := made.listed, attached := made.attached, closedHalf := made.closedHalf
           waitListed := ?_ }
  intro k m' waiting
  simp only [Links.ask, setInfo1, setConnWait, Function.update_apply] at waiting
  split at waiting
  · rcases List.mem_append.mp waiting with old | new
    · exact made.waitListed old
    · rw [List.mem_singleton.mp new]
      exact List.mem_append_right _ (List.mem_singleton_self _)
  · exact made.waitListed waiting

theorem join (kept : l.Kept) (fresh : l.Fresh) (proc : Pid) (fd : Int) (listener : SockId)
    {m k : CommId} {rest : List CommId} (queue : l.connWait m = k :: rest) :
    (l.join proc fd listener m k rest).Kept := by
  have made := kept.register fresh proc fd (l.network listener)
  have head : k ∈ l.connWait m := by simp [queue]
  have comm : ∀ s, (l.join proc fd listener m k rest).comm s =
      if s = l.nextSocket then some k else (l.register proc fd (l.network listener)).comm s := by
    intro s
    simp only [Links.join, setComm, setInfo1, setConnWait, Function.update_apply]
  refine { kept.toTied.join proc fd listener queue with
           single := made.single, allNodup := made.allNodup, listNodup := made.listNodup
           listed := made.listed, attached := ?_, closedHalf := ?_, waitListed := ?_ }
  · intro proc' fd' s j there network attached
    rw [comm] at attached
    split at attached
    · cases attached
      exact kept.waitListed head
    · exact made.attached there network attached
  · intro j member closed
    obtain ⟨z, listed, attached, unopened⟩ := made.closedHalf member closed
    refine ⟨z, listed, ?_, unopened⟩
    rw [comm, if_neg, attached]
    rintro rfl
    exact unopened proc fd (by simp [Links.register, Links.setOpened])
  · intro j m' waiting
    exact kept.waitListed (mem_connWait_of_join queue waiting)

private theorem opened_forget {proc : Pid} {fd : Int} {proc' : Pid} {fd' : Int} {s : SockId}
    (there : (l.setOpened proc fd none).opened proc' fd' = some s) :
    l.opened proc' fd' = some s ∧ ¬ (proc' = proc ∧ fd' = fd) := by
  simp only [Links.setOpened] at there
  split at there
  · cases there
  · exact ⟨there, ‹_›⟩

/-- Descriptors that are gone, with nothing else happening. -/
theorem fewer (kept : l.Kept) {opened : Pid → Int → Option SockId}
    (left : ∀ {proc fd is}, opened proc fd = some is → l.opened proc fd = some is) :
    { l with opened := opened }.Kept :=
  { kept with
    single := fun here there => kept.single (left here) (left there)
    listed := fun here => kept.listed (left here)
    attached := fun here => kept.attached (left here)
    closedHalf := by
      intro k member closed
      obtain ⟨z, listed, comm, unopened⟩ := kept.closedHalf member closed
      exact ⟨z, listed, comm, fun proc fd there => unopened proc fd (left there)⟩ }

/-- A descriptor that is given up. -/
theorem forget (kept : l.Kept) (proc : Pid) (fd : Int) : (l.setOpened proc fd none).Kept :=
  kept.fewer fun here => (opened_forget here).1

/-- The only descriptor of a socket is gone once it is closed. -/
theorem unopened_forget (kept : l.Kept) {proc : Pid} {fd : Int} {is : SockId}
    (here : l.opened proc fd = some is) (proc' : Pid) (fd' : Int) :
    (l.setOpened proc fd none).opened proc' fd' ≠ some is := by
  intro there
  obtain ⟨there, other⟩ := opened_forget there
  exact other (kept.single here there)

theorem closeFirst (kept : l.Kept) {proc : Pid} {fd : Int} {is : SockId} {k : CommId}
    (here : l.opened proc fd = some is) (network : l.network is) (comm : l.comm is = some k) :
    ((l.setState k .closed).setOpened proc fd none).Kept := by
  have closing := kept.toTied.close k
  refine { kept.forget proc fd with
           waitState := closing.waitState, listener := closing.listener, closedHalf := ?_ }
  intro j member closed
  by_cases same : j = k
  · subst same
    exact ⟨is, kept.listed here network, comm, kept.unopened_forget here⟩
  · simp only [Links.setOpened, setState, Function.update_apply, if_neg same] at closed
    exact (kept.forget proc fd).closedHalf member closed

/-- Removing a communication together with all the sockets that refer to it, of which none
    but the one just closed was open. -/
theorem tearDown (kept : l.Kept) {proc : Pid} {fd : Int} {is : SockId} {k : CommId}
    (here : l.opened proc fd = some is) (dead : SockId → Prop)
    (owners : ∀ {s}, dead s ↔ l.comm s = some k)
    (unopened : ∀ {s}, dead s → s = is ∨ ∀ proc' fd', l.opened proc' fd' ≠ some s)
    (left : ∀ m, k ∉ l.connWait m) {all : List SockId} (nodup : all.Nodup)
    (mem : ∀ {s}, s ∈ all ↔ s ∈ l.allSockets ∧ ¬ dead s) :
    (({ l with allSockets := all }.destroy k).setOpened proc fd none).Kept := by
  have survives : ∀ {proc' fd' s}, (l.setOpened proc fd none).opened proc' fd' = some s → ¬ dead s := by
    intro proc' fd' s there gone
    rcases unopened gone with rfl | closed
    · exact kept.unopened_forget here _ _ there
    · exact closed _ _ (opened_forget there).1
  have erased : ∀ {j}, j ∈ l.commList.erase k ↔ j ≠ k ∧ j ∈ l.commList :=
    fun {j} => kept.listNodup.mem_erase_iff
  have tied : { l with allSockets := all }.Tied := { kept.toTied with }
  have torn := tied.destroy k
  exact
    { waitNodup := torn.waitNodup
      waitUnique := torn.waitUnique
      waitState := torn.waitState
      slot := torn.slot
      listener := torn.listener
      single := fun h h' => kept.single (opened_forget h).1 (opened_forget h').1
      allNodup := nodup
      listNodup := kept.listNodup.erase k
      listed := fun there network => mem.mpr ⟨kept.listed (opened_forget there).1 network, survives there⟩
      attached := by
        intro proc' fd' s j there network comm
        refine erased.mpr ⟨?_, kept.attached (opened_forget there).1 network comm⟩
        rintro rfl
        exact survives there (owners.mpr comm)
      closedHalf := by
        intro j member closed
        obtain ⟨other, listed⟩ := erased.mp member
        obtain ⟨z, member, comm, unopened⟩ := kept.closedHalf listed closed
        refine ⟨z, mem.mpr ⟨member, fun gone => ?_⟩, comm, fun p f there => unopened _ _ (opened_forget there).1⟩
        exact other (Option.some.inj (comm.symm.trans (owners.mp gone)))
      waitListed := by
        intro j m waiting
        have waited : j ∈ l.connWait m :=
          mem_connWait_of_destroy (l := { l with allSockets := all }) waiting
        refine erased.mpr ⟨?_, kept.waitListed waited⟩
        rintro rfl
        exact left m waited }

/-- The two sockets that leave with a communication whose second side closes: the one being
    closed, and one that was closed before and is still listed. -/
theorem closedPair (kept : l.Kept) {proc : Pid} {fd : Int} {is s t : SockId} {k : CommId}
    (here : l.opened proc fd = some is) (network : l.network is) (comm : l.comm is = some k)
    (closed : l.state k = .closed) (first : l.info0 k = some s) (second : l.info1 k = some t) :
    ∃ z ∈ l.allSockets, (∀ proc' fd', l.opened proc' fd' ≠ some z) ∧ l.comm z = some k ∧
      (∀ m, k ∉ l.connWait m) ∧ (s = z ∧ t = is ∨ s = is ∧ t = z) := by
  obtain ⟨z, listed, zComm, unopened⟩ := kept.closedHalf (kept.attached here network comm) closed
  have other : z ≠ is := fun same => unopened proc fd (same ▸ here)
  have slot : ∀ {x}, l.comm x = some k → s = x ∨ t = x ∧ ∀ m, k ∉ l.connWait m := by
    intro x attached
    rcases kept.slot attached with slot | ⟨slot, left⟩
    · exact .inl (Option.some.inj (first.symm.trans slot))
    · exact .inr ⟨Option.some.inj (second.symm.trans slot), left⟩
  refine ⟨z, listed, unopened, zComm, ?_⟩
  rcases slot zComm with atS | ⟨atT, left⟩ <;> rcases slot comm with isS | ⟨isT, left'⟩
  · exact absurd (atS.symm.trans isS) other
  · exact ⟨left', .inl ⟨atS, isT⟩⟩
  · exact ⟨left, .inr ⟨isS, atT⟩⟩
  · exact absurd (atT.symm.trans isT) other

/-- A communication whose second side closes belongs to the sockets in its slots. -/
theorem closedOwners (kept : l.Kept) {proc : Pid} {fd : Int} {is s t x : SockId} {k : CommId}
    (here : l.opened proc fd = some is) (network : l.network is) (comm : l.comm is = some k)
    (closed : l.state k = .closed) (first : l.info0 k = some s) (second : l.info1 k = some t) :
    (x = s ∨ x = t) ↔ l.comm x = some k := by
  obtain ⟨z, -, -, zComm, -, pair⟩ := kept.closedPair here network comm closed first second
  constructor
  · rcases pair with ⟨rfl, rfl⟩ | ⟨rfl, rfl⟩ <;> rintro (rfl | rfl) <;> assumption
  · intro attached
    rcases kept.slot attached with slot | ⟨slot, -⟩
    · exact .inl (Option.some.inj (slot.symm.trans first))
    · exact .inr (Option.some.inj (slot.symm.trans second))

/-- A listening communication belongs to the one socket that listens. -/
theorem listeningOwner (kept : l.Kept) {is s x : SockId} {k : CommId} (comm : l.comm is = some k)
    (state : l.state k = .listening) (first : l.info0 k = some s) : x = s ↔ l.comm x = some k := by
  have owner : ∀ {y}, l.comm y = some k → y = s := fun attached =>
    Option.some.inj ((kept.listener attached state).symm.trans first)
  constructor
  · rintro rfl
    exact owner comm ▸ comm
  · exact owner

theorem ofClose (kept : l.Kept) {proc : Pid} {fd : Int} {l' : Links} (closed : l.Close proc fd l') :
    l'.Kept := by
  cases closed with
  | noSocket => exact kept
  | alone => exact kept.forget proc fd
  | @listening is s k here network comm state first =>
      have owner := fun {x} => kept.listeningOwner (x := x) comm state first
      refine kept.tearDown here (· = s) owner ?_ ?_ (kept.allNodup.erase s) ?_
      · rintro x rfl
        exact .inl (owner.mpr comm).symm
      · exact fun m waiting => kept.waitState waiting state
      · intro x
        rw [kept.allNodup.mem_erase_iff, and_comm]
  | first here network comm => exact kept.closeFirst here network comm
  | @second is s t k here network comm state first second =>
      obtain ⟨z, listed, unopened, zComm, left, pair⟩ :=
        kept.closedPair here network comm state first second
      refine kept.tearDown here (fun x => x = s ∨ x = t)
        (kept.closedOwners here network comm state first second) ?_ left
        ((kept.allNodup.erase s).erase t) ?_
      · rcases pair with ⟨rfl, rfl⟩ | ⟨rfl, rfl⟩ <;> rintro x (rfl | rfl) <;>
          first | exact .inl rfl | exact .inr unopened
      · intro x
        simp only [Links.delete]
        rw [(kept.allNodup.erase s).mem_erase_iff, kept.allNodup.mem_erase_iff]
        tauto

end Kept

/-- What holds as long as no descriptor is duplicated and no address is handed out twice. -/
structure Live (l : Links) : Prop extends Kept l where
  sound : l.Sound
  enumerated : l.Enumerated

namespace Live

variable {l : Links}

theorem allLt (live : l.Live) {is : SockId} (listed : is ∈ l.allSockets) : is < l.nextSocket :=
  live.enumerated.socketLt listed

theorem listLt (live : l.Live) {k : CommId} (listed : k ∈ l.commList) : k < l.nextComm :=
  live.enumerated.commLt listed

theorem fresh (live : l.Live) : l.Fresh :=
  { live.sound.newComm with
    opened := fun here => Nat.lt_irrefl _ (live.sound.openedLt here)
    socketUnlisted := fun listed => Nat.lt_irrefl _ (live.allLt listed)
    commUnlisted := fun listed => Nat.lt_irrefl _ (live.listLt listed) }

theorem register (live : l.Live) (proc : Pid) (fd : Int) (network : Prop) :
    (l.register proc fd network).Live :=
  { live.toKept.register live.fresh proc fd network with
    sound := live.sound.register proc fd network
    enumerated := live.enumerated.register proc fd network }

theorem listen (live : l.Live) {proc : Pid} {fd : Int} {is : SockId}
    (here : l.opened proc fd = some is) : (l.listen is).Live :=
  { live.toKept.listen live.fresh here with
    sound := live.sound.listen is
    enumerated := live.enumerated.listen is }

theorem ask (live : l.Live) {proc : Pid} {fd : Int} {client : SockId}
    (here : l.opened proc fd = some client) (listener : SockId) (m : CommId) :
    (l.ask client listener m).Live :=
  { live.toKept.ask live.fresh here listener m with
    sound := live.sound.ask client listener m
    enumerated := live.enumerated.ask client listener m }

theorem join (live : l.Live) (proc : Pid) (fd : Int) (listener : SockId) {m k : CommId}
    {rest : List CommId} (queue : l.connWait m = k :: rest) :
    (l.join proc fd listener m k rest).Live :=
  { live.toKept.join live.fresh proc fd listener queue with
    sound := live.sound.join proc fd listener queue
    enumerated := live.enumerated.join proc fd listener m k rest }

/-- Descriptors that are gone, with nothing else happening. -/
theorem fewer (live : l.Live) {opened : Pid → Int → Option SockId}
    (left : ∀ {proc fd is}, opened proc fd = some is → l.opened proc fd = some is) :
    { l with opened := opened }.Live :=
  { live.toKept.fewer left with
    sound := { live.sound with openedLt := fun here => live.sound.openedLt (left here) }
    enumerated := { live.enumerated with } }

/-- A descriptor that is given up. -/
theorem forget (live : l.Live) (proc : Pid) (fd : Int) : (l.setOpened proc fd none).Live :=
  live.fewer fun here => (Kept.opened_forget here).1

theorem ofClose (live : l.Live) {proc : Pid} {fd : Int} {l' : Links} (closed : l.Close proc fd l') :
    l'.Live :=
  { live.toKept.ofClose closed with
    sound := live.sound.ofClose closed
    enumerated := live.enumerated.ofClose closed }

/-- Calls that duplicate no descriptor keep what is alive alive. -/
theorem step {H : Type} {label : Op × Event H} {l' : Links} (live : l.Live)
    (single : label.1.duplicates = false) (step : l.Step label l') : l'.Live := by
  cases step with
  | quiet => exact live
  | socket => exact live.register _ _ _
  | listen here => exact live.listen here
  | ask here => exact live.ask here _ _
  | join _ _ _ queue _ => exact live.join _ _ _ queue
  | close closed => exact live.ofClose closed
  | dup => simp [Op.duplicates] at single
  | dup2 => simp [Op.duplicates] at single

end Live

/-- The sockets that closing a descriptor releases are listed, and no two are the same. -/
def ReleasesListed (l : Links) : Prop :=
  ∀ {proc fd is l' gone}, l.opened proc fd = some is → l.network is → l.CommClose is l' gone →
    gone.Nodup ∧ ∀ s ∈ gone, s ∈ l.allSockets

theorem Kept.releasesListed {l : Links} (kept : l.Kept) : l.ReleasesListed := by
  intro proc fd is l' gone here network closed
  have isListed := kept.listed here network
  cases closed with
  | detached | first => exact ⟨List.nodup_nil, by simp⟩
  | @listening s k comm state first =>
      obtain rfl : is = s := (kept.listeningOwner comm state first).mpr comm
      exact ⟨List.nodup_singleton _, by simpa using isListed⟩
  | @second s t k comm state first second =>
      obtain ⟨z, listed, unopened, -, -, pair⟩ := kept.closedPair here network comm state first second
      have other : z ≠ is := fun same => unopened proc fd (same ▸ here)
      rcases pair with ⟨rfl, rfl⟩ | ⟨rfl, rfl⟩
      · exact ⟨by simp [other], by simpa using ⟨listed, isListed⟩⟩
      · exact ⟨by simp [Ne.symm other], by simpa using ⟨isListed, listed⟩⟩

end Links

namespace World

variable {H : Type} {w₀ w w' : World H}

theorem Initial.unopened (initial : w.Initial) (proc : Pid) (fd : Int) (is : SockId) :
    w.links.opened proc fd ≠ some is := by
  intro here
  rw [← getInfosSocket_eq_opened, getInfosSocket_eq_some] at here
  exact initial.noDescriptor proc fd is here

theorem Initial.live (initial : w.Initial) : w.links.Live := by
  have unopened := initial.unopened
  have detached : ∀ is k, w.links.comm is ≠ some k := by
    intro is k
    simp [links, initial.unused]
  have idle : ∀ k m, k ∉ w.links.connWait m := by
    intro k m
    simp [links, initial.blank]
  have tied : w.links.Tied :=
    { waitNodup := fun m => by simp [links, initial.blank]
      waitUnique := fun waiting => absurd waiting (idle _ _)
      waitState := fun waiting => absurd waiting (idle _ _)
      slot := fun comm => absurd comm (detached _ _)
      listener := fun comm => absurd comm (detached _ _) }
  exact
    { tied with
      sound :=
        { tied with
          openedLt := fun here => absurd here (unopened _ _ _)
          commLt := fun comm => absurd comm (detached _ _)
          waitLt := fun waiting => absurd waiting (idle _ _) }
      enumerated :=
        { socketLt := fun member => by simp [links, initial.allSockets] at member
          commLt := fun member => by simp [links, initial.commList] at member }
      single := fun here => absurd here (unopened _ _ _)
      allNodup := by simp [links, initial.allSockets]
      listNodup := by simp [links, initial.commList]
      listed := fun here => absurd here (unopened _ _ _)
      attached := fun here => absurd here (unopened _ _ _)
      closedHalf := fun member => by simp [links, initial.commList] at member
      waitListed := fun waiting => absurd waiting (idle _ _) }

variable [DecidableEq H] {es : List (Op × Event H)} {label : Op × Event H}

theorem Step.effect_of_sound (sound : w.links.Sound) (step : w.Step label w') : w.Effect label w' :=
  step.effect fun _ found =>
    Nat.ne_of_lt (sound.openedLt (w.getInfosSocket_eq_opened _ _ ▸ found))

theorem Step.links (sound : w.links.Sound) (step : w.Step label w') :
    w.links.Step label w'.links :=
  (step.effect_of_sound sound).links

theorem sound_of_run (initial : w₀.Initial) (run : Run Step w₀ es w) : w.links.Sound :=
  run.invariant (fun w => w.links.Sound) initial.live.sound
    fun _ _ _ sound step => sound.step (step.links sound)

/-- A guard that rules out `dup` and `dup2`. -/
def Undoubled (guard : World H → Op × Event H → Prop) : Prop :=
  ∀ w label, guard w label → label.1.duplicates = false

theorem live_of_run {guard : World H → Op × Event H → Prop} (undoubled : Undoubled guard)
    (initial : w₀.Initial) (run : Run (Guarded guard Step) w₀ es w) : w.links.Live :=
  run.invariant (fun w => w.links.Live) initial.live
    fun _ _ _ live step => live.step (undoubled _ _ step.1) (step.2.links live.sound)

/-- A `connect` that finds a bound socket finds one whose communication is in `comm_list`. -/
def FindsListed (w : World H) : Event H → Prop
  | .asked _ listener => ∃ k ∈ w.commList, (w.socket listener).comm = some k
  | _ => True

instance (w : World H) : (ev : Event H) → Decidable (w.FindsListed ev)
  | .asked _ listener =>
      inferInstanceAs (Decidable (∃ k ∈ w.commList, (w.socket listener).comm = some k))
  | .silent | .bound .. | .listened .. | .accepted .. => .isTrue trivial

/-- No descriptor is duplicated, and every `connect` finds a listed communication. -/
def PlainCall (w : World H) (label : Op × Event H) : Prop :=
  label.1.duplicates = false ∧ w.FindsListed label.2

instance (w : World H) (label : Op × Event H) : Decidable (w.PlainCall label) :=
  inferInstanceAs (Decidable (_ ∧ _))

/-- Nothing that an open descriptor of a network socket reaches is torn down. -/
theorem open_socket_kept (initial : w₀.Initial) (run : Run (Guarded PlainCall Step) w₀ es w)
    {proc : Pid} {fd : Int} {is : SockId} (opened : w.getInfosSocket proc fd = some is)
    (network : InetLike (w.socket is)) :
    is ∈ w.allSockets ∧ ∀ k, (w.socket is).comm = some k → k ∈ w.commList := by
  have live := live_of_run (fun _ _ plain => plain.1) initial run
  rw [getInfosSocket_eq_opened] at opened
  exact ⟨live.listed opened network, fun k comm => live.attached opened network comm⟩

/-- A client that closes before it is accepted: the accepted socket keeps its communication. -/
theorem accepted_socket_kept_after_close : ∃ es w, Run (Guarded PlainCall Step) threeHosts es w ∧
    w.getInfosSocket 0 4 = some 2 ∧ InetLike (w.socket 2) ∧
    2 ∈ w.allSockets ∧ ∀ k, (w.socket 2).comm = some k → k ∈ w.commList := by
  obtain ⟨es, w, run, opened, network⟩ := exists_run PlainCall threeHosts
    [.socket 0 2 1 0 3, .bind 0 3 ⟨0, 80⟩, .listen 0 3, .socket 1 2 1 0 3, .connect 1 3 ⟨10, 80⟩,
      .close 1 3, .accept 0 3 4]
    (P := fun w => w.getInfosSocket 0 4 = some 2 ∧ InetLike (w.socket 2)) (by decide)
  exact ⟨es, w, run, opened, network,
    open_socket_kept (boot_initial _ _ _) run opened network⟩

end World

end Simterpose
