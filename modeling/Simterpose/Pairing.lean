import Simterpose.PortUse

/-! # Which client an accept gets

The requests for a listener wait in the queue of its communication, and `accept` takes
them from the head. Along a run in which nothing is closed and every socket plays one
part only, the clients accepted on a listener together with those still waiting are the
clients that asked, in asking order, and the two sockets of an accepted connection stay
each other's peers.
-/

namespace Simterpose

open Lib

section Histories

variable {H : Type}

/-- The client of a request for the given listener. -/
def Event.askedOf (listener : SockId) : Event H → Option SockId
  | .asked client target => if target = listener then some client else none
  | _ => none

/-- The client of an accept on the given listener. -/
def Event.acceptedBy (listener : SockId) : Event H → Option SockId
  | .accepted acceptor client _ _ => if acceptor = listener then some client else none
  | _ => none

/-- The socket that listens or connects. -/
def Event.uses : Event H → Option SockId
  | .listened is => some is
  | .asked client _ => some client
  | _ => none

/-- The socket that listens, connects or is made by an accept. -/
def Event.engages : Event H → Option SockId
  | .listened is => some is
  | .asked client _ => some client
  | .accepted _ _ new _ => some new
  | _ => none

/-- The clients that asked for a listener, in order. -/
def asked (listener : SockId) (es : List (Op × Event H)) : List SockId :=
  es.filterMap fun e => e.2.askedOf listener

/-- The clients accepted on a listener, in order. -/
def accepted (listener : SockId) (es : List (Op × Event H)) : List SockId :=
  es.filterMap fun e => e.2.acceptedBy listener

def engaged (es : List (Op × Event H)) : List SockId := es.filterMap fun e => e.2.engages

variable {es : List (Op × Event H)} {op : Op} {ev : Event H} {listener : SockId}

theorem asked_append : asked listener (es ++ [(op, ev)]) =
    asked listener es ++ (ev.askedOf listener).toList := by
  cases found : ev.askedOf listener <;> simp [asked, List.filterMap_append, found]

theorem accepted_append : accepted listener (es ++ [(op, ev)]) =
    accepted listener es ++ (ev.acceptedBy listener).toList := by
  cases found : ev.acceptedBy listener <;> simp [accepted, List.filterMap_append, found]

theorem asked_append_of_ne (noAsk : ∀ client listener, ev ≠ .asked client listener) (s : SockId) :
    asked s (es ++ [(op, ev)]) = asked s es := by
  rw [asked_append]
  cases ev with
  | asked client listener => exact absurd rfl (noAsk client listener)
  | silent | bound | listened | accepted => simp [Event.askedOf]

theorem accepted_append_of_ne (noAccept : ∀ listener client new sai, ev ≠ .accepted listener client new sai)
    (s : SockId) : accepted s (es ++ [(op, ev)]) = accepted s es := by
  rw [accepted_append]
  cases ev with
  | accepted listener client new sai => exact absurd rfl (noAccept listener client new sai)
  | silent | bound | listened | asked => simp [Event.acceptedBy]

theorem engaged_append : engaged (es ++ [(op, ev)]) = engaged es ++ ev.engages.toList := by
  cases found : ev.engages <;> simp [engaged, List.filterMap_append, found]

/-- A socket that is engaged once was not engaged before. -/
theorem not_engaged {label : Op × Event H} {is : SockId} (once : (engaged (es ++ [label])).Nodup)
    (engages : label.2.engages = some is) : is ∉ engaged es := by
  intro member
  rw [engaged_append, engages] at once
  exact (List.nodup_append.mp once).2.2 is member is (by simp) rfl

/-- A client engages itself when it asks. -/
theorem asked_sublist (listener : SockId) (es : List (Op × Event H)) :
    (asked listener es).Sublist (engaged es) := by
  induction es with
  | nil => exact .slnil
  | cons e es ih =>
      have head : e.2.askedOf listener = none ∨ e.2.askedOf listener = e.2.engages := by
        cases e.2 with
        | asked client target => by_cases same : target = listener <;> simp [Event.askedOf, Event.engages, same]
        | silent | bound | listened | accepted => exact .inl rfl
      simp only [asked, engaged, List.filterMap_cons] at ih ⊢
      rcases head with none_ | same
      · rw [none_]
        cases e.2.engages with
        | none => exact ih
        | some is => exact ih.cons is
      · rw [same]
        cases e.2.engages with
        | none => exact ih
        | some is => exact ih.cons_cons is

end Histories

namespace Links

variable {H : Type} {l : Links} {es : List (Op × Event H)}

/-- The clients whose requests wait in the queue of a communication. -/
def waiting (l : Links) (m : CommId) : List SockId := (l.connWait m).filterMap l.info0

/-- Communications that exist are as before when `l'` adds one, for a socket that had none. -/
structure Extends (l l' : Links) (is : SockId) : Prop where
  free : l.comm is = none
  comm : l'.comm = Function.update l.comm is (some l.nextComm)
  info0 : l'.info0 = Function.update l.info0 l.nextComm (some is)
  info1 : ∀ {k}, k ≠ l.nextComm → l'.info1 k = l.info1 k
  state : ∀ {k}, k ≠ l.nextComm → l'.state k = l.state k
  nextSocket : l'.nextSocket = l.nextSocket

namespace Extends

variable {l' : Links} {is : SockId}

theorem attached (more : l.Extends l' is) {s : SockId} {k : CommId} (old : l.comm s = some k) :
    l'.comm s = some k := by
  have other : s ≠ is := by
    rintro rfl
    simp [more.free] at old
  rw [more.comm, Function.update_of_ne other, old]

theorem attachedBefore (more : l.Extends l' is) {s : SockId} {k : CommId}
    (new : l'.comm s = some k) : s = is ∧ k = l.nextComm ∨ l.comm s = some k := by
  rw [more.comm, Function.update_apply] at new
  split at new
  · cases new
    exact .inl ⟨‹_›, rfl⟩
  · exact .inr new

theorem first (more : l.Extends l' is) {k : CommId} (older : k ≠ l.nextComm) :
    l'.info0 k = l.info0 k := by
  rw [more.info0, Function.update_of_ne older]

theorem waiting (more : l.Extends l' is) (sound : l.Sound) (m : CommId) :
    (l.connWait m).filterMap l'.info0 = l.waiting m :=
  List.filterMap_congr fun _ member => more.first (Nat.ne_of_lt (sound.waitLt member))

theorem pair (more : l.Extends l' is) (sound : l.Sound) {c n : SockId} {k : CommId}
    (attached : l.comm c = some k ∧ l.comm n = some k ∧ l.info0 k = some c ∧ l.info1 k = some n) :
    l'.comm c = some k ∧ l'.comm n = some k ∧ l'.info0 k = some c ∧ l'.info1 k = some n := by
  obtain ⟨first, second, slot, slot'⟩ := attached
  have older := Nat.ne_of_lt (sound.commLt first)
  exact ⟨more.attached first, more.attached second, (more.first older).trans slot,
    (more.info1 older).trans slot'⟩

end Extends

/-- The queues and the accepted connections against the history. -/
structure Paired (es : List (Op × Event H)) (l : Links) : Prop where
  sound : l.Sound
  attachedLt : ∀ {is k}, l.comm is = some k → is < l.nextSocket
  engaged : ∀ {is k}, l.comm is = some k → is ∈ engaged es
  client : ∀ {k m}, k ∈ l.connWait m → ∃ c, l.info0 k = some c ∧ l.comm c = some k
  listening : ∀ {k m}, k ∈ l.connWait m → l.state m = .listening
  fifo : ∀ {s m}, l.comm s = some m → l.state m = .listening →
    asked s es = accepted s es ++ l.waiting m
  unasked : ∀ {s}, (∀ m, l.comm s = some m → l.state m ≠ .listening) →
    asked s es = [] ∧ accepted s es = []
  pairs : ∀ {op listener c n sai}, (op, Event.accepted listener c n sai) ∈ es →
    ∃ k, l.comm c = some k ∧ l.comm n = some k ∧ l.info0 k = some c ∧ l.info1 k = some n ∧
      c ≠ n ∧ ∀ m, k ∉ l.connWait m

namespace Paired

/-- A call that neither listens nor connects nor accepts adds nothing to the history. -/
theorem quiet (paired : l.Paired es) (op : Op) {ev : Event H}
    (noAsk : ∀ client listener, ev ≠ .asked client listener)
    (noAccept : ∀ listener client new sai, ev ≠ .accepted listener client new sai) :
    l.Paired (es ++ [(op, ev)]) := by
  refine
    { paired with
      engaged := fun comm => by
        rw [engaged_append]
        exact List.mem_append_left _ (paired.engaged comm)
      fifo := ?_, unasked := ?_, pairs := ?_ }
  · intro s m comm state
    rw [asked_append_of_ne noAsk, accepted_append_of_ne noAccept]
    exact paired.fifo comm state
  · intro s idle
    rw [asked_append_of_ne noAsk, accepted_append_of_ne noAccept]
    exact paired.unasked idle
  · intro op' listener c n sai member
    rcases List.mem_append.mp member with before | now
    · exact paired.pairs before
    · cases List.mem_singleton.mp now
      exact absurd rfl (noAccept listener c n sai)

/-- A socket that is not engaged yet has no communication. -/
theorem unattached (paired : l.Paired es) {is : SockId} (free : is ∉ Simterpose.engaged es) :
    l.comm is = none := by
  cases attached : l.comm is with
  | none => rfl
  | some k => exact absurd (paired.engaged attached) free

theorem register (paired : l.Paired es) (proc : Pid) (fd : Int) (network : Prop) :
    (l.register proc fd network).Paired es := by
  have comm : ∀ {is k}, (l.register proc fd network).comm is = some k → l.comm is = some k := by
    intro is k attached
    simp only [Links.register, Function.update_apply] at attached
    split at attached
    · cases attached
    · exact attached
  have kept : ∀ {is k}, l.comm is = some k → (l.register proc fd network).comm is = some k := by
    intro is k attached
    simpa [Links.register, Nat.ne_of_lt (paired.attachedLt attached)] using attached
  refine
    { paired with
      sound := paired.sound.register proc fd network
      attachedLt := fun attached => Nat.lt_succ_of_lt (paired.attachedLt (comm attached))
      engaged := fun attached => paired.engaged (comm attached)
      client := ?_
      fifo := fun attached state => paired.fifo (comm attached) state
      unasked := fun idle => paired.unasked fun m attached => idle m (kept attached)
      pairs := ?_ }
  · intro k m waiting
    obtain ⟨c, first, attached⟩ := paired.client waiting
    exact ⟨c, first, kept attached⟩
  · intro op listener c n sai member
    obtain ⟨k, attached, attached', rest⟩ := paired.pairs member
    exact ⟨k, kept attached, kept attached', rest⟩

theorem attachedLt_extends (paired : l.Paired es) {l' : Links} {is s : SockId} {k : CommId}
    (more : l.Extends l' is) (old : is < l.nextSocket) (attached : l'.comm s = some k) :
    s < l'.nextSocket := by
  rw [more.nextSocket]
  rcases more.attachedBefore attached with ⟨rfl, -⟩ | before
  · exact old
  · exact paired.attachedLt before

theorem engaged_extends (paired : l.Paired es) {l' : Links} {is s : SockId} {k : CommId}
    {op : Op} {ev : Event H} (more : l.Extends l' is) (engages : ev.engages = some is)
    (attached : l'.comm s = some k) : s ∈ Simterpose.engaged (es ++ [(op, ev)]) := by
  rw [engaged_append, engages]
  rcases more.attachedBefore attached with ⟨rfl, -⟩ | before
  · exact List.mem_append_right _ (List.mem_singleton_self _)
  · exact List.mem_append_left _ (paired.engaged before)

theorem unasked_extends (paired : l.Paired es) {l' : Links} {is s : SockId} (more : l.Extends l' is)
    (idle : ∀ m, l'.comm s = some m → l'.state m ≠ .listening) :
    asked s es = [] ∧ accepted s es = [] := by
  apply paired.unasked
  intro m attached
  rw [← more.state (Nat.ne_of_lt (paired.sound.commLt attached))]
  exact idle m (more.attached attached)

/-- Pairs made before stay, if no communication but the new one gets into a queue. -/
theorem pairs_extends (paired : l.Paired es) {l' : Links} {is : SockId} (more : l.Extends l' is)
    (waits : ∀ {k m}, k ∈ l'.connWait m → k ∈ l.connWait m ∨ k = l.nextComm) {op : Op}
    {listener c n : SockId} {sai : SockaddrIn} (before : (op, Event.accepted listener c n sai) ∈ es) :
    ∃ k, l'.comm c = some k ∧ l'.comm n = some k ∧ l'.info0 k = some c ∧ l'.info1 k = some n ∧
      c ≠ n ∧ ∀ m, k ∉ l'.connWait m := by
  obtain ⟨k, attached, attached', slot, slot', distinct, left⟩ := paired.pairs before
  have older := Nat.ne_of_lt (paired.sound.commLt attached)
  obtain ⟨attached, attached', slot, slot'⟩ :=
    more.pair paired.sound ⟨attached, attached', slot, slot'⟩
  refine ⟨k, attached, attached', slot, slot', distinct, fun m waiting => ?_⟩
  rcases waits waiting with queued | new
  · exact left m queued
  · exact older new

theorem listen (paired : l.Paired es) (op : Op) {is : SockId} (old : is < l.nextSocket)
    (free : is ∉ Simterpose.engaged es) :
    (l.listen is).Paired (es ++ [(op, (.listened is : Event H))]) := by
  have more : l.Extends (l.listen is) is :=
    { free := paired.unattached free, comm := rfl, info0 := rfl, nextSocket := rfl
      info1 := fun older => by simp [Links.listen, setState, Links.commNew, older]
      state := fun older => by simp [Links.listen, setState, Links.commNew, older] }
  have waits : ∀ {k m}, k ∈ (l.listen is).connWait m → k ∈ l.connWait m := by
    intro k m waiting
    rw [connWait_listen] at waiting
    split at waiting
    · simp at waiting
    · exact waiting
  have asks : ∀ s, asked s (es ++ [(op, .listened is)]) = asked s es :=
    asked_append_of_ne fun _ _ same => by cases same
  have accepts : ∀ s, accepted s (es ++ [(op, .listened is)]) = accepted s es :=
    accepted_append_of_ne fun _ _ _ _ same => by cases same
  refine
    { sound := paired.sound.listen is
      attachedLt := fun attached => paired.attachedLt_extends more old attached
      engaged := fun attached => paired.engaged_extends more rfl attached
      client := ?_, listening := ?_, fifo := ?_, unasked := ?_, pairs := ?_ }
  · intro k m waiting
    obtain ⟨c, first, attached⟩ := paired.client (waits waiting)
    have older := Nat.ne_of_lt (paired.sound.waitLt (waits waiting))
    exact ⟨c, (more.first older).trans first, more.attached attached⟩
  · intro k m waiting
    have state := paired.listening (waits waiting)
    simp only [Links.listen, setState, Links.commNew, Function.update_apply]
    split
    · rfl
    · exact state
  · intro s m attached state
    rw [asks, accepts]
    rcases more.attachedBefore attached with ⟨rfl, rfl⟩ | before
    · have none_ := paired.unasked (s := s) (by simp [more.free])
      rw [none_.1, none_.2, Links.waiting, connWait_listen, if_pos rfl]
      rfl
    · have older := Nat.ne_of_lt (paired.sound.commLt before)
      rw [more.state older] at state
      rw [Links.waiting, connWait_listen, if_neg older, more.waiting paired.sound]
      exact paired.fifo before state
  · intro s idle
    rw [asks, accepts]
    exact paired.unasked_extends more idle
  · intro op' listener c n sai member
    rcases List.mem_append.mp member with before | now
    · exact paired.pairs_extends more (fun waiting => .inl (waits waiting)) before
    · cases List.mem_singleton.mp now

theorem ask (paired : l.Paired es) (op : Op) {client listener : SockId} {m : CommId}
    (old : client < l.nextSocket) (free : client ∉ Simterpose.engaged es)
    (target : l.comm listener = some m) (state : l.state m = .listening) :
    (l.ask client listener m).Paired (es ++ [(op, (.asked client listener : Event H))]) := by
  have olderTarget := Nat.ne_of_lt (paired.sound.commLt target)
  have more : l.Extends (l.ask client listener m) client :=
    { free := paired.unattached free, comm := rfl, info0 := rfl, nextSocket := rfl
      info1 := fun older => by simp [Links.ask, setInfo1, setConnWait, Links.commNew, older]
      state := fun older => by simp [Links.ask, setInfo1, setConnWait, Links.commNew, older] }
  have new : (l.ask client listener m).state l.nextComm = .opened := by
    simp [Links.ask, setInfo1, setConnWait, Links.commNew]
  have first : (l.ask client listener m).info0 l.nextComm = some client := by
    simp [more.info0]
  have asks : ∀ s, asked s (es ++ [(op, .asked client listener)]) =
      asked s es ++ if listener = s then [client] else [] := by
    intro s
    rw [asked_append]
    by_cases same : listener = s <;> simp [Event.askedOf, same]
  have accepts : ∀ s, accepted s (es ++ [(op, .asked client listener)]) = accepted s es :=
    accepted_append_of_ne fun _ _ _ _ same => by cases same
  refine
    { sound := paired.sound.ask client listener m
      attachedLt := fun attached => paired.attachedLt_extends more old attached
      engaged := fun attached => paired.engaged_extends more rfl attached
      client := ?_, listening := ?_, fifo := ?_, unasked := ?_, pairs := ?_ }
  · intro k m' waiting
    rcases mem_connWait_of_ask olderTarget waiting with ⟨before, -⟩ | ⟨rfl, rfl⟩
    · obtain ⟨c, slot, attached⟩ := paired.client before
      have older := Nat.ne_of_lt (paired.sound.waitLt before)
      exact ⟨c, (more.first older).trans slot, more.attached attached⟩
    · exact ⟨client, first, by simp [more.comm]⟩
  · intro k m' waiting
    rcases mem_connWait_of_ask olderTarget waiting with ⟨before, older⟩ | ⟨-, rfl⟩
    · exact (more.state older).trans (paired.listening before)
    · exact (more.state olderTarget).trans state
  · intro s m' attached listening
    rw [asks, accepts]
    rcases more.attachedBefore attached with ⟨rfl, rfl⟩ | before
    · cases new.symm.trans listening
    · have older := Nat.ne_of_lt (paired.sound.commLt before)
      rw [more.state older] at listening
      have after : (l.ask client listener m).waiting m' =
          ((l.ask client listener m).connWait m').filterMap (l.ask client listener m).info0 := rfl
      rw [paired.fifo before listening, after, connWait_ask _ _ olderTarget]
      by_cases same : listener = s
      · subst same
        obtain rfl : m = m' := Option.some.inj (target.symm.trans before)
        simp [more.waiting paired.sound, first]
      · -- another listener has another communication
        have other : m' ≠ m := by
          rintro rfl
          exact same (paired.sound.listening_unique target before state)
        simp [other, older, same, more.waiting paired.sound]
  · intro s idle
    rw [asks, accepts]
    have other : listener ≠ s := by
      rintro rfl
      exact idle m (more.attached target) ((more.state olderTarget).trans state)
    simpa [other] using paired.unasked_extends more idle
  · intro op' listener' c n sai member
    rcases List.mem_append.mp member with before | now
    · apply paired.pairs_extends more _ before
      intro k m' waiting
      exact (mem_connWait_of_ask olderTarget waiting).imp And.left And.left
    · cases List.mem_singleton.mp now

theorem join (paired : l.Paired es) (op : Op) (proc : Pid) (fd : Int) {listener client : SockId}
    {m k : CommId} {rest : List CommId} (sai : SockaddrIn) (target : l.comm listener = some m)
    (queue : l.connWait m = k :: rest) (slot : l.info0 k = some client) :
    (l.join proc fd listener m k rest).Paired
      (es ++ [(op, (.accepted listener client l.nextSocket sai : Event H))]) := by
  have head : k ∈ l.connWait m := by simp [queue]
  have state := paired.listening head
  have idle := paired.sound.waitState head
  have sound := paired.sound.join proc fd listener queue
  have attachedClient : l.comm client = some k := by
    obtain ⟨c, slot', attached⟩ := paired.client head
    rwa [Option.some.inj (slot.symm.trans slot')]
  have oldTarget := Nat.ne_of_lt (paired.attachedLt target)
  have kept : ∀ {s j}, l.comm s = some j → (l.join proc fd listener m k rest).comm s = some j := by
    intro s j attached
    rw [comm_join, if_neg (Nat.ne_of_lt (paired.attachedLt attached)), attached]
  have before : ∀ {s j}, (l.join proc fd listener m k rest).comm s = some j →
      s = l.nextSocket ∧ j = k ∨ l.comm s = some j := by
    intro s j attached
    rw [comm_join] at attached
    split at attached
    · cases attached
      exact .inl ⟨‹_›, rfl⟩
    · exact .inr attached
  have waits : ∀ {j m'}, j ∈ (l.join proc fd listener m k rest).connWait m' → j ∈ l.connWait m' :=
    fun waiting => mem_connWait_of_join queue waiting
  have asks : ∀ s, asked s (es ++ [(op, .accepted listener client l.nextSocket sai)]) = asked s es :=
    asked_append_of_ne fun _ _ same => by cases same
  have accepts : ∀ s, accepted s (es ++ [(op, .accepted listener client l.nextSocket sai)]) =
      accepted s es ++ if listener = s then [client] else [] := by
    intro s
    rw [accepted_append]
    by_cases same : listener = s <;> simp [Event.acceptedBy, same]
  refine
    { sound := sound
      attachedLt := ?_, engaged := ?_, client := ?_
      listening := fun waiting => paired.listening (waits waiting)
      fifo := ?_, unasked := ?_, pairs := ?_ }
  · intro s j attached
    rcases before attached with ⟨rfl, -⟩ | old
    · exact Nat.lt_succ_self _
    · exact Nat.lt_succ_of_lt (paired.attachedLt old)
  · intro s j attached
    rw [engaged_append]
    rcases before attached with ⟨rfl, -⟩ | old
    · exact List.mem_append_right _ (by simp [Event.engages])
    · exact List.mem_append_left _ (paired.engaged old)
  · intro j m' waiting
    obtain ⟨c, first, attached⟩ := paired.client (waits waiting)
    exact ⟨c, first, kept attached⟩
  · intro s m' attached listening
    rw [asks, accepts]
    rcases before attached with ⟨-, rfl⟩ | old
    · exact absurd listening idle
    · have after : (l.join proc fd listener m k rest).waiting m' =
          ((l.join proc fd listener m k rest).connWait m').filterMap l.info0 := rfl
      rw [paired.fifo old listening, after, connWait_join]
      by_cases same : listener = s
      · subst same
        obtain rfl : m = m' := Option.some.inj (target.symm.trans old)
        simp [Links.waiting, queue, slot]
      · have other : m' ≠ m := by
          rintro rfl
          exact same (paired.sound.listening_unique target old state)
        simp [Links.waiting, other, same]
  · intro s idle
    rw [asks, accepts]
    have other : listener ≠ s := by
      rintro rfl
      exact idle m (kept target) state
    have unasked := paired.unasked (s := s) fun m' attached => idle m' (kept attached)
    simpa [other] using unasked
  · intro op' listener' c n sai' member
    rcases List.mem_append.mp member with old | now
    · obtain ⟨j, attached, attached', first, second, distinct, left⟩ := paired.pairs old
      have other : j ≠ k := by
        rintro rfl
        exact left m head
      refine ⟨j, kept attached, kept attached', first, ?_, distinct, fun m' waiting => left m' (waits waiting)⟩
      simpa only [Links.join, setComm, setInfo1, setConnWait, Links.register, Links.setOpened,
        Function.update_apply, if_neg other] using second
    · cases List.mem_singleton.mp now
      exact ⟨k, kept attachedClient, by rw [comm_join, if_pos rfl], slot,
        by simp [Links.join, setComm, setInfo1], Nat.ne_of_lt (paired.attachedLt attachedClient),
        paired.sound.not_waiting_join queue⟩

theorem setOpened (paired : l.Paired es) (proc : Pid) (fd : Int) {is : Option SockId}
    (old : ∀ s, is = some s → s < l.nextSocket) : (l.setOpened proc fd is).Paired es :=
  { paired with sound := paired.sound.setOpened proc fd old }

/-- Calls that close nothing keep queues and pairs in step with the history, as long as no
    socket is engaged twice. -/
theorem step {label : Op × Event H} {l' : Links} (paired : l.Paired es)
    (keeps : label.1.closes = none)
    (finds : ∀ client listener, label.2 = .asked client listener →
      ∃ m, l.comm listener = some m ∧ l.state m = .listening)
    (once : (Simterpose.engaged (es ++ [label])).Nodup) (step : l.Step label l') :
    l'.Paired (es ++ [label]) := by
  cases step with
  | quiet noListen noAsk noAccept => exact paired.quiet _ noAsk noAccept
  | socket => exact (paired.register _ _ _).quiet _ (by simp) (by simp)
  | listen here => exact paired.listen _ (paired.sound.openedLt here) (not_engaged once rfl)
  | @ask _ _ _ client listener m here attached =>
      obtain ⟨m', target, state⟩ := finds client listener rfl
      have free : client ∉ Simterpose.engaged es := not_engaged once rfl
      have other : listener ≠ client := by
        rintro rfl
        simp [paired.unattached free] at target
      obtain rfl : m' = m := by
        simpa [Links.commNew, other, target] using attached
      exact paired.ask _ (paired.sound.openedLt here) free target state
  | join _ _ target queue slot => exact paired.join _ _ _ _ target queue slot
  | close => cases keeps
  | dup => exact (paired.setOpened _ _ fun s => paired.sound.openedLt).quiet _ (by simp) (by simp)
  | dup2 => cases keeps

/-- A socket keeps its communication, and a communication its first socket. -/
theorem kept {label : Op × Event H} {l' : Links} (paired : l.Paired es)
    (keeps : label.1.closes = none) (once : (Simterpose.engaged (es ++ [label])).Nodup)
    (step : l.Step label l') {s : SockId} {k : CommId} (attached : l.comm s = some k) :
    l'.comm s = some k ∧ l'.info0 k = l.info0 k := by
  have older := Nat.ne_of_lt (paired.sound.commLt attached)
  have old := Nat.ne_of_lt (paired.attachedLt attached)
  have engages : ∀ {is}, label.2.engages = some is → s ≠ is := by
    intro is engages same
    exact not_engaged once engages (same ▸ paired.engaged attached)
  cases step with
  | quiet | dup => exact ⟨attached, rfl⟩
  | socket => exact ⟨by simp [Links.register, old, attached], rfl⟩
  | listen =>
      have other := engages rfl
      exact ⟨by simp [Links.listen, setState, Links.commNew, other, attached],
        by simp [Links.listen, setState, Links.commNew, older]⟩
  | ask =>
      have other := engages rfl
      exact ⟨by simp [Links.ask, setInfo1, setConnWait, Links.commNew, other, attached],
        by simp [Links.ask, setInfo1, setConnWait, Links.commNew, older]⟩
  | join =>
      exact ⟨by simp [Links.join, setComm, setInfo1, setConnWait, Links.register, old, attached], rfl⟩
  | close | dup2 => cases keeps

end Paired

end Links

namespace World

section

variable {H : Type} {w : World H}

/-- The clients that wait to be accepted on a socket. -/
def waitingClients (w : World H) (listener : SockId) : List SockId :=
  match (w.socket listener).comm with
  | none => []
  | some m => (w.comm m).connWait.filterMap fun k => (w.comm k).info0.socket

theorem asked_eq {es : List (Op × Event H)} (paired : w.links.Paired es) (s : SockId) :
    asked s es = accepted s es ++ w.waitingClients s := by
  unfold waitingClients
  cases attached : (w.socket s).comm with
  | none =>
      have none_ := paired.unasked (s := s) fun m comm => by cases attached.symm.trans comm
      simp [none_.1, none_.2]
  | some m =>
      by_cases listening : w.links.state m = .listening
      · exact paired.fifo attached listening
      · have none_ := paired.unasked (s := s) fun m' comm => by
          rwa [Option.some.inj ((show w.links.comm s = some m' from comm).symm.trans attached)]
        have empty : (w.comm m).connWait = [] :=
          List.eq_nil_iff_forall_not_mem.mpr fun k waiting => listening (paired.listening waiting)
        simp [none_.1, none_.2, empty]

/-- Local ports fit into 16 bits. -/
def PortsFit (w : World H) : Prop := ∀ is < w.sockets.next, (w.socket is).portLocal < 65536

theorem portsFit_congr {v : World H} (fit : w.PortsFit) (next : v.sockets.next = w.sockets.next)
    (same : v.ledger = w.ledger) : v.PortsFit := by
  intro s old
  have place : (v.socket s).portLocal = (w.ledger.place s).2 := by
    rw [← same]
    rfl
  rw [place]
  exact fit s (next ▸ old)

theorem portsFit_move {v : World H} (fit : w.PortsFit) (is : SockId) {port : Nat}
    (small : port < 65536) (next : v.sockets.next = w.sockets.next)
    (place : v.ledger.place = (w.ledger.move is port).place) : v.PortsFit := by
  intro s old
  have moved : (v.socket s).portLocal = ((w.ledger.move is port).place s).2 := by
    rw [← place]
    rfl
  rw [moved]
  simp only [Ledger.move, Function.update_apply]
  split
  · exact small
  · exact fit s (next ▸ old)

/-- The two sockets of an accepted connection are each other's peers, and each receives what
    the other sends. -/
theorem peers_of_pair {c n : SockId} {k : CommId} (client : (w.socket c).comm = some k)
    (new : (w.socket n).comm = some k) (first : (w.comm k).info0.socket = some c)
    (second : (w.comm k).info1.socket = some n) (distinct : c ≠ n) :
    w.commGetPeer c = .ok (some n) ∧ w.commGetPeer n = .ok (some c) ∧
      (∃ recv, w.commGetOwnRecv n = some recv ∧ w.commGetPeerRecv c = .ok recv) ∧
      ∃ recv, w.commGetOwnRecv c = some recv ∧ w.commGetPeerRecv n = .ok recv := by
  simp [commGetPeer, commGetOwnRecv, commGetPeerRecv, client, new, first, second, distinct]

end

variable {H : Type} [DecidableEq H] {w₀ w w' : World H} {es : List (Op × Event H)}
  {label : Op × Event H}

theorem Effect.portsFit (sound : w.links.Sound) (keeps : label.1.closes = none) (fit : w.PortsFit)
    (effect : w.Effect label w') : w'.PortsFit := by
  have entered : ∀ (proc : Pid) (fd domain type protocol : Int),
      (w.confirmRegisterSocket proc fd domain type protocol).PortsFit := by
    intro proc fd domain type protocol is old
    rw [socket_confirmRegisterSocket]
    split
    · simp [newSocket]
    · rename_i other
      exact fit is (Nat.lt_of_le_of_ne (Nat.le_of_lt_succ old) other)
  have opened : ∀ {proc fd is}, w.getInfosSocket proc fd = some is → is < w.sockets.next :=
    fun found => sound.openedLt (getInfosSocket_eq_opened .. ▸ found)
  cases effect with
  | quiet => exact fit
  | socket => exact entered _ _ _ _ _
  | @bind _ _ sai is _ _ unused =>
      refine portsFit_move fit is sai.port.toNat_lt (by rw [bindTo_eq _ _ unused]; rfl) ?_
      rw [ledger_bindTo _ _ unused]
      rfl
  | @listen _ _ is => exact portsFit_congr fit rfl (w.ledger_commNew is)
  | @connect _ _ _ is _ _ _ port _ _ _ _ _ random =>
      refine portsFit_move fit is (Nat.lt_succ_of_le (w.randomPortFrom_le random)) rfl ?_
      rw [ledger_connectFrom]
      rfl
  | @accept proc _ newfd listener _ _ _ _ _ found =>
      have new := entered proc newfd (w.socket listener).domain (w.socket listener).type
        (w.socket listener).protocol
      refine portsFit_move new w.sockets.next (fit listener (opened found)) rfl ?_
      rw [ledger_acceptFrom, ledger_confirmRegisterSocket]
      rfl
  | @send _ _ _ _ is s recv ds tci receiver =>
      exact portsFit_congr fit (w.sockets_sendFrom is s recv ds tci receiver).1
        (w.ledger_sendFrom is s recv ds tci receiver)
  | close => cases keeps
  | @dup _ _ _ ref =>
      have next : (w.addRefcount ref 1).sockets.next = w.sockets.next := by cases ref <;> rfl
      exact portsFit_congr fit next
        ((ledger_setFd (w.addRefcount ref 1) _ _ _).trans (w.ledger_addRefcount ref 1))
  | dup2 => cases keeps

/-- Nothing is closed, and every `connect` that finds a bound socket finds a listening one. -/
def OpenCall (w : World H) (label : Op × Event H) : Prop :=
  label.1.closes = none ∧ w.FindsListening label.2

instance (w : World H) (label : Op × Event H) : Decidable (w.OpenCall label) :=
  inferInstanceAs (Decidable (_ ∧ _))

theorem paired_of_run (initial : w₀.Initial) (run : Run (Guarded OpenCall Step) w₀ es w) :
    w.PortsFit ∧ ((engaged es).Nodup → w.links.Paired es) := by
  refine (run.history (fun es w => w.links.Sound ∧ w.PortsFit ∧
    ((engaged es).Nodup → w.links.Paired es)) ⟨initial.live.sound, ?_, fun _ => ?_⟩ ?_).2
  · intro is old
    simp [initial.noSocket] at old
  · have unattached : ∀ {is k}, w₀.links.comm is ≠ some k := by simp [links, initial.unused]
    have idle : ∀ {k m}, k ∉ w₀.links.connWait m := by simp [links, initial.blank]
    exact
      { sound := initial.live.sound
        attachedLt := fun attached => absurd attached unattached
        engaged := fun attached => absurd attached unattached
        client := fun waiting => absurd waiting idle
        listening := fun waiting => absurd waiting idle
        fifo := fun attached => absurd attached unattached
        unasked := fun _ => ⟨rfl, rfl⟩
        pairs := fun member => by simp at member }
  · rintro es w ⟨op, ev⟩ w' ⟨sound, fit, paired⟩ ⟨⟨keeps, finds⟩, step⟩
    have effect := step.effect_of_sound sound
    refine ⟨sound.step effect.links, effect.portsFit sound keeps fit, fun once => ?_⟩
    have before : (engaged es).Nodup := by
      rw [engaged_append] at once
      exact once.of_append_left
    refine (paired before).step keeps ?_ once effect.links
    rintro client listener rfl
    exact finds

/-- Clients are accepted in the order in which they asked, the address reported is that of the
    client, and the sockets of a connection are peers. -/
theorem accepts_in_order (initial : w₀.Initial) (run : Run (Guarded OpenCall Step) w₀ es w)
    (once : (engaged es).Nodup) :
    (∀ s, asked s es = accepted s es ++ w.waitingClients s ∧ (asked s es).Nodup) ∧
      (∀ op listener c n sai w', w.Step (op, .accepted listener c n sai) w' →
        sai.addr = (w.socket c).ipLocal ∧ sai.port.toNat = (w.socket c).portLocal) ∧
      ∀ op listener c n sai, (op, .accepted listener c n sai) ∈ es →
        w.commGetPeer c = .ok (some n) ∧ w.commGetPeer n = .ok (some c) ∧
        (∃ recv, w.commGetOwnRecv n = some recv ∧ w.commGetPeerRecv c = .ok recv) ∧
        ∃ recv, w.commGetOwnRecv c = some recv ∧ w.commGetPeerRecv n = .ok recv := by
  obtain ⟨fit, paired⟩ := paired_of_run initial run
  have paired := paired once
  refine ⟨fun s => ⟨asked_eq paired s, once.sublist (asked_sublist s es)⟩, ?_, ?_⟩
  · intro op listener c n sai w' step
    cases step.effect_of_sound paired.sound with
    | accept found attached queue first free =>
        obtain ⟨c', slot, comm⟩ := paired.client (k := _) (m := _)
          (show _ ∈ w.links.connWait _ from queue ▸ List.mem_cons_self ..)
        have old : c < w.sockets.next := by
          rw [← Option.some.inj (slot.symm.trans first)]
          exact paired.attachedLt comm
        exact ⟨rfl, UInt16.toNat_ofNat_of_lt (fit c old)⟩
  · intro op listener c n sai member
    obtain ⟨k, client, new, first, second, distinct, -⟩ := paired.pairs member
    exact peers_of_pair client new first second distinct

/-- Two clients ask, one is accepted. -/
theorem accepts_first_of_two : ∃ es w, Run (Guarded OpenCall Step) threeHosts es w ∧
    asked 0 es = [1, 2] ∧ accepted 0 es = [1] ∧
    (∀ s, asked s es = accepted s es ++ w.waitingClients s ∧ (asked s es).Nodup) ∧
      (∀ op listener c n sai w', w.Step (op, .accepted listener c n sai) w' →
        sai.addr = (w.socket c).ipLocal ∧ sai.port.toNat = (w.socket c).portLocal) ∧
      ∀ op listener c n sai, (op, .accepted listener c n sai) ∈ es →
        w.commGetPeer c = .ok (some n) ∧ w.commGetPeer n = .ok (some c) ∧
        (∃ recv, w.commGetOwnRecv n = some recv ∧ w.commGetPeerRecv c = .ok recv) ∧
        ∃ recv, w.commGetOwnRecv c = some recv ∧ w.commGetPeerRecv n = .ok recv := by
  obtain ⟨es, w, run, asks, accepts, once⟩ := exists_history OpenCall threeHosts
    [.socket 0 2 1 0 3, .bind 0 3 ⟨0, 80⟩, .listen 0 3, .socket 1 2 1 0 3, .socket 2 2 1 0 3,
      .connect 1 3 ⟨10, 80⟩, .connect 2 3 ⟨10, 80⟩, .accept 0 3 4]
    (P := fun es _ => asked 0 es = [1, 2] ∧ accepted 0 es = [1] ∧ (engaged es).Nodup) (by decide)
  exact ⟨es, w, run, asks, accepts, accepts_in_order (boot_initial _ _ _) run once⟩

/-- A server that connects the socket it got from `accept` to a third process: no socket
    listens or connects twice, but the accepted socket has a new peer. -/
theorem accepted_socket_loses_peer : ∃ es w, Run (Guarded OpenCall Step) threeHosts es w ∧
    (es.filterMap fun e => e.2.uses).Nodup ∧
    (∃ op sai, (op, Event.accepted 0 1 2 sai) ∈ es) ∧ w.commGetPeer 2 ≠ .ok (some 1) := by
  obtain ⟨es, w, run, once, accepts, peer⟩ := exists_history OpenCall threeHosts
    [.socket 0 2 1 0 3, .bind 0 3 ⟨0, 80⟩, .listen 0 3, .socket 1 2 1 0 3, .connect 1 3 ⟨10, 80⟩,
      .accept 0 3 4, .socket 2 2 1 0 3, .bind 2 3 ⟨0, 80⟩, .listen 2 3, .connect 0 4 ⟨12, 80⟩]
    (P := fun es w => (es.filterMap fun e => e.2.uses).Nodup ∧
      (Op.accept 0 3 4, Event.accepted 0 1 2 ⟨11, 65535⟩) ∈ es ∧
      (w.commGetPeer 2).toOption = some (some 3)) (by decide)
  refine ⟨es, w, run, once, ⟨_, _, accepts⟩, fun same => ?_⟩
  rw [same] at peer
  cases peer

end World

end Simterpose
