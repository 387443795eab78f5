import Simterpose.PortUse

/-! # Which socket is bound to a port

`get_binding_socket_host` against the history of binds. As long as no socket changes a
port it already has, the socket found at a port is the listed one that was bound there,
and the option bits of the entry are those of its address. An entry that outlives its
binder, because accepted sockets still use the port, has lost its `bind_socket`.
-/

namespace Simterpose

open Lib

/-- The devices through which a bound address can be reached. -/
def Admits (addr : UInt32) (device : Nat) : Prop :=
  addr = inaddrAny ∨ (addr = loopback ∧ device = portLocalDevice) ∨
    (addr ≠ inaddrAny ∧ addr ≠ loopback ∧ device = portRemoteDevice)

instance (addr : UInt32) (device : Nat) : Decidable (Admits addr device) :=
  inferInstanceAs (Decidable (_ ∨ (_ ∧ _) ∨ (_ ∧ _ ∧ _)))

/-- The two tests of `get_binding_socket_host` on the options of a bound port. -/
theorem option_admits {device : Nat}
    (valid : device = portLocalDevice ∨ device = portRemoteDevice) (addr : UInt32) :
    (portBind ||| bindDevice addr) &&& portBind ≠ 0 ∧
      (device &&& (portBind ||| bindDevice addr) ≠ 0 ↔ Admits addr device) := by
  by_cases any : addr = inaddrAny
  · rcases valid with rfl | rfl <;> simp [bindDevice, Admits, any] <;> decide
  · by_cases local_ : addr = loopback
    · have apart : loopback ≠ inaddrAny := by decide
      rcases valid with rfl | rfl <;> simp [bindDevice, Admits, local_, apart] <;> decide
    · rcases valid with rfl | rfl <;> simp [bindDevice, Admits, any, local_] <;> decide

section

variable {H : Type}

/-- The socket that gets a new local port. -/
def Event.takesPort : Event H → Option SockId
  | .bound is .. => some is
  | .asked client _ => some client
  | _ => none

/-- A successful `bind` in the past. -/
def BoundIn (es : List (Op × Event H)) (s : SockId) (host : H) (port : Nat) (addr : UInt32) : Prop :=
  ∃ op, (op, Event.bound s host port addr) ∈ es

theorem boundIn_append {es : List (Op × Event H)} {op : Op} {ev : Event H} {s : SockId} {host : H}
    {port : Nat} {addr : UInt32} : BoundIn (es ++ [(op, ev)]) s host port addr ↔
      BoundIn es s host port addr ∨ ev = .bound s host port addr := by
  simp only [BoundIn, List.mem_append, List.mem_singleton, Prod.mk.injEq, exists_or]
  simp [eq_comm]

end

namespace Ledger

variable {H : Type} {l : Ledger H} {es : List (Op × Event H)}

/-- The socket bound at a port, with the options of the entry. -/
def bindingAt (l : Ledger H) (host : H) (port : Nat) : Option (SockId × Nat) :=
  (l.desc host port).bind fun desc => desc.bindSocket.map fun s => (s, desc.option)

/-- The entries say who was bound where. -/
structure Bindings (es : List (Op × Event H)) (l : Ledger H) : Prop where
  placed : ∀ {s host port addr}, 0 < port → BoundIn es s host port addr → s ∈ l.allSockets →
    l.place s = (host, port)
  exact : ∀ {host port s option}, 0 < port → (l.bindingAt host port = some (s, option) ↔
    s ∈ l.allSockets ∧ ∃ addr, BoundIn es s host port addr ∧ option = portBind ||| bindDevice addr)

namespace Bindings

theorem quiet (bindings : l.Bindings es) {op : Op} {ev : Event H}
    (silent : ∀ is host port addr, ev ≠ .bound is host port addr) : l.Bindings (es ++ [(op, ev)]) where
  placed := by
    intro s host port addr valid bound listed
    rcases boundIn_append.mp bound with before | now
    · exact bindings.placed valid before listed
    · exact absurd now (silent s host port addr)
  exact := by
    intro host port s option valid
    have same : ∀ addr, BoundIn (es ++ [(op, ev)]) s host port addr ↔ BoundIn es s host port addr := by
      intro addr
      simp [boundIn_append, silent]
    simp only [same]
    exact bindings.exact valid

/-- A new socket was bound nowhere. -/
theorem enter (bindings : l.Bindings es) {is : SockId}
    (never : ∀ host port addr, ¬ BoundIn es is host port addr) (home : H) :
    (l.enter is home).Bindings es := by
  have listed : ∀ {s host port addr}, BoundIn es s host port addr →
      (s ∈ (l.enter is home).allSockets ↔ s ∈ l.allSockets) := by
    intro s host port addr bound
    have other : s ≠ is := by
      rintro rfl
      exact never host port addr bound
    simp [Ledger.enter, other]
  constructor
  · intro s host port addr valid bound member
    have other : s ≠ is := by
      rintro rfl
      exact never host port addr bound
    simpa [Ledger.enter, other] using bindings.placed valid bound ((listed bound).mp member)
  · intro host port s option valid
    refine (bindings.exact valid).trans ?_
    constructor
    · rintro ⟨member, addr, bound, options⟩
      exact ⟨(listed bound).mpr member, addr, bound, options⟩
    · rintro ⟨member, addr, bound, options⟩
      exact ⟨(listed bound).mp member, addr, bound, options⟩

/-- A socket without a port was bound to none, so it may take one. -/
theorem place_move (bindings : l.Bindings es) {is : SockId} (portless : (l.place is).2 = 0)
    (port' : Nat) {s : SockId} {host : H} {port : Nat} {addr : UInt32} (valid : 0 < port)
    (bound : BoundIn es s host port addr) (listed : s ∈ l.allSockets) :
    (l.move is port').place s = (host, port) := by
  have before := bindings.placed valid bound listed
  have other : s ≠ is := by
    rintro rfl
    rw [before] at portless
    exact absurd portless (Nat.pos_iff_ne_zero.mp valid)
  simpa [Ledger.move, other] using before

variable [DecidableEq H]

theorem bindingAt_register (is : SockId) (host : H) (port : Nat) (host' : H) (port' : Nat) :
    (l.take is host port (.register port (l.desc host port))).bindingAt host' port' =
      l.bindingAt host' port' := by
  simp only [bindingAt, take, Ledger.put, Ledger.move]
  split
  · rename_i here
    rw [here.1, here.2]
    cases l.desc host port with
    | none => simp [PortDesc.register]
    | some desc => simp [PortDesc.register]
  · rfl

/-- One more user of a port leaves its binding alone. -/
theorem register (bindings : l.Bindings es) {is : SockId} (portless : (l.place is).2 = 0) (host : H)
    (port : Nat) : (l.take is host port (.register port (l.desc host port))).Bindings es where
  placed := fun valid bound listed => bindings.place_move portless port valid bound listed
  exact := by
    intro host' port' s option valid
    rw [bindingAt_register]
    exact bindings.exact valid

theorem bindingAt_bound (is : SockId) (host : H) (port device : Nat) (host' : H) (port' : Nat) :
    (l.take is host port (.bound port device is)).bindingAt host' port' =
      if host' = host ∧ port' = port then some (is, portBind ||| device)
      else l.bindingAt host' port' := by
  simp only [bindingAt, take, Ledger.put, Ledger.move]
  split <;> rfl

theorem bind (bindings : l.Bindings es) {is : SockId} {host : H} {port : Nat} (op : Op)
    (addr : UInt32) (listed : is ∈ l.allSockets) (here : (l.place is).1 = host)
    (portless : (l.place is).2 = 0) (unused : l.desc host port = none) :
    (l.take is host port (.bound port (bindDevice addr) is)).Bindings
      (es ++ [(op, .bound is host port addr)]) := by
  have unbound : l.bindingAt host port = none := by simp [bindingAt, unused]
  constructor
  · intro s host' port' addr' valid bound member
    rcases boundIn_append.mp bound with before | now
    · exact bindings.place_move portless port valid before member
    · cases now
      simp [take, Ledger.put, Ledger.move, here]
  · intro host' port' s option valid
    rw [bindingAt_bound]
    split
    · rename_i same
      obtain ⟨rfl, rfl⟩ := same
      constructor
      · intro found
        cases found
        exact ⟨listed, addr, boundIn_append.mpr (.inr rfl), rfl⟩
      · rintro ⟨member, addr', bound, rfl⟩
        rcases boundIn_append.mp bound with before | now
        · have found := (bindings.exact valid).mpr ⟨member, addr', before, rfl⟩
          simp [unbound] at found
        · cases now
          rfl
    · rename_i elsewhere
      refine (bindings.exact valid).trans (and_congr_right fun _ => exists_congr fun addr' => ?_)
      have same : BoundIn (es ++ [(op, .bound is host port addr)]) s host' port' addr' ↔
          BoundIn es s host' port' addr' := by
        rw [boundIn_append]
        constructor
        · rintro (before | now)
          · exact before
          · cases now
            exact absurd ⟨rfl, rfl⟩ elsewhere
        · exact .inl
      rw [same]

/-- Giving a port back changes a binding only if it is that of the socket itself or the entry
    goes with its last user. -/
theorem bindingAt_release {is : SockId} {host : H} {port : Nat}
    (others : l.place is = (host, port) → ∀ desc, l.desc host port = some desc →
      desc.bindSocket = some is ∨ desc.bindSocket = none ∨ desc.amountSocket ≠ 1) :
    (l.release is).bindingAt host port =
      (l.bindingAt host port).filter fun binding => l.place is ≠ (host, port) ∨ binding.1 ≠ is := by
  by_cases here : l.place is = (host, port)
  · cases entry : l.desc host port with
    | none => simp [bindingAt, release, put, here, entry]
    | some desc =>
        simp only [bindingAt, release, put, here, entry, Option.bind_some, and_self, if_true]
        rcases others here desc entry with self | none_ | kept
        · simp only [PortDesc.unset, self, if_true]
          split <;> simp [Option.filter_some]
        · simp only [PortDesc.unset, none_]
          split <;> simp
        · have left : desc.amountSocket - 1 ≠ 0 := by omega
          cases bound : desc.bindSocket with
          | none => simp [PortDesc.unset, left, bound]
          | some t =>
              by_cases same : t = is
              · simp [PortDesc.unset, left, bound, same, Option.filter_some]
              · simp [PortDesc.unset, left, bound, same, Option.filter_some]
  · have elsewhere : ¬ (host = (l.place is).1 ∧ port = (l.place is).2) :=
      fun same => here (by rw [same.1, same.2])
    have same : (l.release is).bindingAt host port = l.bindingAt host port := by
      simp only [bindingAt, release, put, if_neg elsewhere]
    rw [same]
    cases l.bindingAt host port <;> simp [here, Option.filter_some]

/-- An entry with two users is not removed by one of them. -/
theorem amount_of_two (covered : l.Covered) (nodup : l.allSockets.Nodup) {s t : SockId}
    (distinct : t ≠ s) (listed : s ∈ l.allSockets) (listed' : t ∈ l.allSockets) {host : H}
    {port : Nat} (valid : 0 < port) (here : l.place s = (host, port))
    (here' : l.place t = (host, port)) : 2 ≤ l.amount host port := by
  have split := users_release listed host port
  have left : 0 < (l.release s).users host port :=
    List.countP_pos_iff.mpr ⟨t, nodup.mem_erase_iff.mpr ⟨distinct, listed'⟩,
      decide_eq_true (show (l.release s).place t = (host, port) from here')⟩
  have covers := covered host port valid
  rw [if_pos here] at split
  omega

theorem release (bindings : l.Bindings es) (covered : l.Covered) (nodup : l.allSockets.Nodup)
    {is : SockId} (listed : is ∈ l.allSockets) : (l.release is).Bindings es := by
  have member : ∀ {s}, s ∈ (l.release is).allSockets ↔ s ≠ is ∧ s ∈ l.allSockets :=
    nodup.mem_erase_iff
  refine ⟨fun valid bound left => bindings.placed valid bound (member.mp left).2, ?_⟩
  intro host port s option valid
  have others : l.place is = (host, port) → ∀ desc, l.desc host port = some desc →
      desc.bindSocket = some is ∨ desc.bindSocket = none ∨ desc.amountSocket ≠ 1 := by
    intro here desc entry
    cases binder : desc.bindSocket with
    | none => exact .inr (.inl rfl)
    | some t =>
        by_cases same : t = is
        · exact .inl (by rw [same])
        · refine .inr (.inr ?_)
          have found : l.bindingAt host port = some (t, desc.option) := by
            simp [bindingAt, entry, binder]
          obtain ⟨tListed, addr, bound, -⟩ := (bindings.exact valid).mp found
          have two := amount_of_two covered nodup same listed tListed valid here
            (bindings.placed valid bound tListed)
          simp only [amount, entry, Option.elim_some] at two
          omega
  rw [bindingAt_release others, Option.filter_eq_some_iff, bindings.exact valid, member]
  constructor
  · rintro ⟨⟨sListed, addr, bound, options⟩, kept⟩
    have place := bindings.placed valid bound sListed
    refine ⟨⟨?_, sListed⟩, addr, bound, options⟩
    rintro rfl
    simp [place] at kept
  · rintro ⟨⟨other, sListed⟩, addr, bound, options⟩
    exact ⟨⟨sListed, addr, bound, options⟩, by simp [other]⟩

/-- Calls keep the entries in step with the binds of the past, as long as a socket takes a
    port only when it has none. -/
theorem step {lk : Links} {label : Op × Event H} {l' : Ledger H} (bindings : l.Bindings es)
    (covered : l.Covered) (live : lk.Live) (same : lk.allSockets = l.allSockets)
    (atHome : l.AtHome lk) (old : ∀ s host port addr, BoundIn es s host port addr → s < lk.nextSocket)
    (portless : ∀ is, label.2.takesPort = some is → (l.place is).2 = 0) (step : l.Step lk label l') :
    l'.Bindings (es ++ [label]) := by
  have nodup : l.allSockets.Nodup := same ▸ live.allNodup
  have never : ∀ host port addr, ¬ BoundIn es lk.nextSocket host port addr :=
    fun host port addr bound => Nat.lt_irrefl _ (old _ host port addr bound)
  cases step with
  | quiet silent => exact bindings.quiet silent
  | socket => exact (bindings.enter never _).quiet (by simp)
  | bind here network unused =>
      exact bindings.bind _ _ (same ▸ live.listed here network) (atHome _ _ _ here)
        (portless _ rfl) unused
  | @connect proc _ _ _ _ port here network unused =>
      have registered := bindings.register (portless _ rfl) (l.home proc) port
      rw [unused] at registered
      exact registered.quiet (by simp)
  | @accept proc _ _ listener _ _ _ new =>
      subst new
      have entered := bindings.enter never (l.home proc)
      exact (entered.register (by simp [Ledger.enter]) (l.home proc) (l.place listener).2).quiet (by simp)
  | close distinct listed =>
      refine Bindings.quiet ?_ (by simp)
      refine (releaseAll_induction (P := fun l => l.Covered ∧ l.Bindings es) ?_ _ distinct listed
        nodup ⟨covered, bindings⟩).2
      rintro l is nodup listed ⟨covered, bindings⟩
      exact ⟨covered.release listed, bindings.release covered nodup listed⟩

end Bindings

end Ledger

namespace World

theorem getBindingSocketHost_eq_some {H : Type} {w : World H} {host : H} {port device : Nat}
    {s : SockId} :
    w.getBindingSocketHost host port device = some s ↔
      ∃ option, w.ledger.bindingAt host port = some (s, option) ∧ option &&& portBind ≠ 0 ∧
        device &&& option ≠ 0 := by
  have entry : w.ledger.desc host port = w.portDesc host port := rfl
  simp only [getBindingSocketHost, Ledger.bindingAt, entry]
  cases w.portDesc host port with
  | none => simp
  | some desc =>
      simp only [Option.ite_none_left_eq_some, Option.bind_some, Option.map_eq_some_iff, Prod.mk.injEq]
      constructor
      · rintro ⟨binding, reached, bound⟩
        exact ⟨desc.option, ⟨s, bound, rfl, rfl⟩, binding, reached⟩
      · rintro ⟨_, ⟨t, bound, rfl, rfl⟩, binding, reached⟩
        exact ⟨binding, reached, bound⟩

variable {H : Type} [DecidableEq H] {w₀ w w' : World H} {es : List (Op × Event H)}
  {label : Op × Event H}

/-- No descriptor is duplicated, and no socket that already has a local port is bound or
    connected again. -/
def FirstPortCall (w : World H) (label : Op × Event H) : Prop :=
  label.1.duplicates = false ∧ ∀ is ∈ label.2.takesPort, (w.socket is).portLocal = 0

instance (w : World H) (label : Op × Event H) : Decidable (w.FirstPortCall label) :=
  inferInstanceAs (Decidable (_ ∧ ∀ is ∈ label.2.takesPort, (w.socket is).portLocal = 0))

/-- The entries of the ports against the calls made so far. -/
structure Tracked (es : List (Op × Event H)) (w : World H) : Prop where
  accounted : w.Accounted
  bindings : w.ledger.Bindings es
  old : ∀ s host port addr, BoundIn es s host port addr → s < w.sockets.next

theorem Initial.tracked (initial : w.Initial) : w.Tracked [] := by
  have never : ∀ s host port addr, ¬ BoundIn ([] : List (Op × Event H)) s host port addr := by
    simp [BoundIn]
  refine ⟨initial.accounted, ⟨fun _ bound => absurd bound (never _ _ _ _), ?_⟩,
    fun s host port addr bound => absurd bound (never s host port addr)⟩
  intro host port s option valid
  have absent : w.ledger.desc host port = none := by
    simp [ledger, portDesc, initial.ports]
  simp [Ledger.bindingAt, absent, never]

theorem Tracked.step (tracked : w.Tracked es) (first : w.FirstPortCall label)
    (step : w.Step label w') : w'.Tracked (es ++ [label]) := by
  have live := tracked.accounted.live
  have effect := step.effect_of_sound live.sound
  have moved := effect.ledger live.releasesListed first.1
  refine
    { accounted := tracked.accounted.step first.1 step
      bindings := tracked.bindings.step tracked.accounted.covered live rfl tracked.accounted.atHome
        tracked.old first.2 moved
      old := ?_ }
  intro s host port addr bound
  have grown : w.sockets.next ≤ w'.sockets.next := effect.links.next_le.1
  obtain ⟨op, ev⟩ := label
  rcases boundIn_append.mp bound with before | rfl
  · exact Nat.lt_of_lt_of_le (tracked.old s host port addr before) grown
  · cases effect with
    | bind found =>
        exact Nat.lt_of_lt_of_le (live.sound.openedLt (getInfosSocket_eq_opened .. ▸ found)) grown

theorem tracked_of_run (initial : w₀.Initial) (run : Run (Guarded FirstPortCall Step) w₀ es w) :
    w.Tracked es :=
  run.history (fun es w => w.Tracked es) initial.tracked
    fun _ _ _ _ tracked step => tracked.step step.1 step.2

/-- A listed socket that was bound to a port of a host, with an address that admits the device. -/
def Serves (es : List (Op × Event H)) (w : World H) (s : SockId) (host : H) (port device : Nat) :
    Prop :=
  s ∈ w.allSockets ∧ ∃ addr, BoundIn es s host port addr ∧ Admits addr device

end World

end Simterpose
