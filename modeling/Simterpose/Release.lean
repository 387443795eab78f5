import Simterpose.Connecting
import Simterpose.PortUse
import Simterpose.Settled

/-! # Ports are given back

A port that is in use is held by a listed socket which was given it: a socket bound there,
or one end of a connection that uses it. This bounds the amount of an entry from above,
where `PortUse` bounds it from below. It needs calls that keep a socket's port once it has
one and that do not close a bound socket before it listens. The holder is open, or the
peer of its connection is.
-/

namespace Simterpose

open Lib

/-- A socket and a port of a host that it was given. -/
abbrev Lease (H : Type) := SockId × H × Nat

namespace Ledger

variable {H : Type}

/-- The entry of the port that a socket has names it as the bound one. -/
def Binds (l : Ledger H) (s : SockId) : Prop :=
  ∃ desc, l.desc (l.place s).1 (l.place s).2 = some desc ∧ desc.bindSocket = some s

/-- A socket that has its port for a reason: it is connected or bound. -/
def Holds (lk : Links) (l : Ledger H) (s : SockId) : Prop :=
  (∃ k, lk.comm s = some k ∧ lk.state k ≠ .listening) ∨ l.Binds s

/-- What the entry of a port says about the socket bound there. -/
structure BoundAt (leases : List (Lease H)) (lk : Links) (l : Ledger H) (s : SockId) (host : H)
    (port : Nat) : Prop where
  leased : (s, host, port) ∈ leases
  place : l.place s = (host, port)
  network : lk.network s
  opened : lk.Open s
  listening : ∀ k, lk.comm s = some k → lk.state k = .listening

/-- Every use of a port is backed by a socket that was given it. -/
structure Leased (leases : List (Lease H)) (lk : Links) (l : Ledger H) : Prop where
  agree : l.allSockets = lk.allSockets
  atHome : l.AtHome lk
  users : ∀ {host port desc}, l.desc host port = some desc → 1 ≤ desc.amountSocket
  bound : ∀ {host port desc s}, l.desc host port = some desc → desc.bindSocket = some s →
    l.BoundAt leases lk s host port
  connected : ∀ {s k}, lk.comm s = some k → lk.state k ≠ .listening → (s, l.place s) ∈ leases
  backed : ∀ host port, ∃ holders : List SockId, holders.Nodup ∧
    l.amount host port ≤ holders.length ∧
    ∀ s ∈ holders, s ∈ l.allSockets ∧ l.place s = (host, port) ∧ l.Holds lk s

theorem Holds.keep {lk lk' : Links} {l l' : Ledger H} {s : SockId} (holds : l.Holds lk s)
    (comm : lk'.comm s = lk.comm s) (state : ∀ {k}, lk.comm s = some k → lk'.state k = lk.state k)
    (binds : l.Binds s → l'.Binds s) : l'.Holds lk' s := by
  refine holds.imp ?_ binds
  rintro ⟨k, attached, connected⟩
  exact ⟨k, comm.trans attached, (state attached).symm ▸ connected⟩

namespace Leased

variable {leases : List (Lease H)} {lk : Links} {l : Ledger H}

theorem amount_nonneg (leased : l.Leased leases lk) (host : H) (port : Nat) :
    0 ≤ l.amount host port := by
  cases entry : l.desc host port with
  | none => simp [amount, entry]
  | some desc =>
      have users := leased.users entry
      simp only [amount, entry, Option.elim_some]
      omega

/-- Whoever is bound somewhere is not a socket that binds nothing. -/
theorem bound_ne (leased : l.Leased leases lk) {is s : SockId} (unbound : ¬ l.Binds is) {host : H}
    {port : Nat} {desc : PortDesc} (entry : l.desc host port = some desc)
    (self : desc.bindSocket = some s) : s ≠ is := by
  rintro rfl
  have place := (leased.bound entry self).place
  exact unbound ⟨desc, by rw [place]; exact entry, self⟩

/-- A port in use is held by a socket that was given it and that is open, or whose peer is. -/
theorem inUse (leased : l.Leased leases lk) (settled : lk.Settled) {host : H} {port : Nat}
    {desc : PortDesc} (entry : l.desc host port = some desc) :
    ∃ s, (s, host, port) ∈ leases ∧ (lk.Open s ∨ ∃ k t, lk.Open t ∧
      (lk.info0 k = some s ∧ lk.info1 k = some t ∨ lk.info0 k = some t ∧ lk.info1 k = some s)) := by
  obtain ⟨holders, -, enough, held⟩ := leased.backed host port
  have some_ : holders ≠ [] := by
    rintro rfl
    have users := leased.users entry
    simp only [amount, entry, Option.elim_some, List.length_nil] at enough
    omega
  obtain ⟨s, member⟩ := List.exists_mem_of_ne_nil holders some_
  obtain ⟨listed, place, ⟨k, comm, connected⟩ | ⟨desc', entry', self⟩⟩ := held s member
  · refine ⟨s, place ▸ leased.connected comm connected, ?_⟩
    rw [leased.agree] at listed
    obtain ⟨c, t, ends⟩ := settled.ends (settled.listedComm listed comm) connected
    rcases settled.live.sound.slot comm with first | ⟨second, -⟩
    · cases Option.some.inj (first.symm.trans ends.info0)
      exact ends.half.imp id fun openT => ⟨k, t, openT, .inl ⟨ends.info0, ends.info1⟩⟩
    · cases Option.some.inj (second.symm.trans ends.info1)
      exact ends.half.symm.imp id fun openC => ⟨k, c, openC, .inr ⟨ends.info0, ends.info1⟩⟩
  · rw [place] at entry'
    have boundAt := leased.bound entry' self
    exact ⟨s, boundAt.leased, .inl boundAt.opened⟩

/-- A new socket has no port yet. -/
theorem enter (leased : l.Leased leases lk) (settled : lk.Settled) {proc : Pid} {fd : Int}
    (free : lk.opened proc fd = none) (network : Prop) :
    (l.enter lk.nextSocket (l.home proc)).Leased leases (lk.register proc fd network) := by
  have listedOld : ∀ {s}, s ∈ l.allSockets → s ≠ lk.nextSocket := by
    intro s member
    rw [leased.agree] at member
    exact Nat.ne_of_lt (settled.live.allLt member)
  have comm : ∀ {s}, s ≠ lk.nextSocket → (lk.register proc fd network).comm s = lk.comm s :=
    fun other => Function.update_of_ne other ..
  have place : ∀ {s}, s ≠ lk.nextSocket →
      (l.enter lk.nextSocket (l.home proc)).place s = l.place s :=
    fun other => Function.update_of_ne other ..
  refine { agree := ?_, atHome := leased.atHome.enter settled.live.fresh.opened proc fd network
           users := leased.users, bound := ?_, connected := ?_, backed := ?_ }
  · exact congrArg (· ++ [lk.nextSocket]) leased.agree
  · intro host port desc s entry self
    have old := leased.bound entry self
    obtain ⟨proc', fd', there⟩ := old.opened
    have other : s ≠ lk.nextSocket := Nat.ne_of_lt (settled.live.sound.openedLt there)
    exact { leased := old.leased, place := (place other).trans old.place
            network := by simpa [Links.register, other] using old.network
            opened := Links.Settled.open_register free old.opened
            listening := fun k attached => old.listening k ((comm other).symm.trans attached) }
  · intro s k attached connected
    have other : s ≠ lk.nextSocket := by
      rintro rfl
      simp [Links.register] at attached
    rw [comm other] at attached
    rw [place other]
    exact leased.connected attached connected
  · intro host port
    obtain ⟨holders, nodup, enough, held⟩ := leased.backed host port
    refine ⟨holders, nodup, enough, fun s member => ?_⟩
    obtain ⟨listed, here, holds⟩ := held s member
    have other := listedOld listed
    refine ⟨List.mem_append_left _ listed, (place other).trans here, holds.keep (comm other) (fun _ => rfl) ?_⟩
    rintro ⟨desc, entry, self⟩
    exact ⟨desc, by rw [place other]; exact entry, self⟩

/-- Sockets that listen from now on, or are closed on one side, keep their ports. -/
theorem relink (leased : l.Leased leases lk) {lk' : Links} (all : lk'.allSockets = lk.allSockets)
    (opened : ∀ {proc fd s}, lk'.opened proc fd = some s → lk.opened proc fd = some s)
    (boundOpen : ∀ {host port desc s}, l.desc host port = some desc → desc.bindSocket = some s →
      lk'.network s ∧ lk'.Open s ∧ ∀ k, lk'.comm s = some k → lk'.state k = .listening)
    (connected : ∀ {s}, (∃ k, lk'.comm s = some k ∧ lk'.state k ≠ .listening) ↔
      ∃ k, lk.comm s = some k ∧ lk.state k ≠ .listening) : l.Leased leases lk' where
  agree := leased.agree.trans all.symm
  atHome proc fd s here := leased.atHome proc fd s (opened here)
  users := leased.users
  bound entry self := by
    have before := leased.bound entry self
    obtain ⟨network, opened, listening⟩ := boundOpen entry self
    exact { before with network, opened, listening }
  connected attached other := by
    obtain ⟨k, attached, other⟩ := connected.mp ⟨_, attached, other⟩
    exact leased.connected attached other
  backed host port := by
    obtain ⟨holders, nodup, enough, held⟩ := leased.backed host port
    refine ⟨holders, nodup, enough, fun s member => ?_⟩
    obtain ⟨listed, here, holds⟩ := held s member
    exact ⟨listed, here, holds.imp connected.mpr id⟩

theorem listen (leased : l.Leased leases lk) (sound : lk.Sound) {is : SockId}
    (fresh : lk.comm is = none) : l.Leased leases (lk.listen is) := by
  have self : (lk.listen is).comm is = some lk.nextComm := Function.update_self ..
  have new : (lk.listen is).state lk.nextComm = .listening := Function.update_self ..
  have comm : ∀ {s}, s ≠ is → (lk.listen is).comm s = lk.comm s :=
    fun other => Function.update_of_ne other ..
  have state : ∀ {s k}, lk.comm s = some k → (lk.listen is).state k = lk.state k := by
    intro s k attached
    have old : k ≠ lk.nextComm := Nat.ne_of_lt (sound.commLt attached)
    simp [Links.listen, Links.setState, Links.commNew, old]
  refine leased.relink rfl id ?_ ?_
  · intro host port desc s entry bound
    have before := leased.bound entry bound
    refine ⟨before.network, before.opened, fun k attached => ?_⟩
    by_cases same : s = is
    · subst same
      cases Option.some.inj (self.symm.trans attached)
      exact new
    · rw [comm same] at attached
      rw [state attached]
      exact before.listening k attached
  · intro s
    by_cases same : s = is
    · subst same
      simp [self, new, fresh]
    · rw [comm same]
      constructor
      · rintro ⟨k, attached, other⟩
        exact ⟨k, attached, state attached ▸ other⟩
      · rintro ⟨k, attached, other⟩
        exact ⟨k, attached, (state attached).symm ▸ other⟩

/-- A descriptor of a socket that is bound nowhere is closed. -/
theorem forget (leased : l.Leased leases lk) {proc : Pid} {fd : Int} {is : SockId}
    (here : lk.opened proc fd = some is)
    (unbound : ∀ {host port desc}, l.desc host port = some desc → desc.bindSocket ≠ some is) :
    l.Leased leases (lk.setOpened proc fd none) := by
  refine leased.relink rfl ?_ ?_ Iff.rfl
  · intro proc' fd' s there
    simp only [Links.setOpened] at there
    split at there
    · cases there
    · exact there
  · intro host port desc s entry bound
    have before := leased.bound entry bound
    have other : s ≠ is := by
      rintro rfl
      exact unbound entry bound
    exact ⟨before.network, Links.Settled.open_forget here other before.opened, before.listening⟩

theorem closeFirst (leased : l.Leased leases lk) {k : CommId} (connected : lk.state k ≠ .listening) :
    l.Leased leases (lk.setState k .closed) := by
  have state : ∀ {j}, (lk.setState k .closed).state j ≠ .listening ↔ lk.state j ≠ .listening := by
    intro j
    by_cases same : j = k
    · subst same
      simp [Links.setState, connected]
    · simp [Links.setState, same]
  refine leased.relink rfl id ?_ ?_
  · intro host port desc s entry bound
    have before := leased.bound entry bound
    refine ⟨before.network, before.opened, fun j attached => ?_⟩
    exact not_not.mp fun other => state.mp other (before.listening j attached)
  · intro s
    exact exists_congr fun j => and_congr_right fun _ => state

theorem destroy (leased : l.Leased leases lk) (k : CommId) : l.Leased leases (lk.destroy k) := by
  refine leased.relink rfl id ?_ Iff.rfl
  intro host port desc s entry self
  have before := leased.bound entry self
  exact ⟨before.network, before.opened, before.listening⟩

theorem amount_unused {host : H} {port : Nat} (unused : l.desc host port = none) :
    l.amount host port = 0 := by
  simp [amount, unused]

variable [DecidableEq H]

theorem binds_of_release {is s : SockId} (binds : (l.release is).Binds s) : l.Binds s := by
  obtain ⟨desc, entry, self⟩ := binds
  have place : (l.release is).place = l.place := rfl
  rw [place, desc_release] at entry
  split at entry
  · rename_i here
    obtain ⟨old, found, left⟩ := Option.bind_eq_some_iff.mp entry
    exact ⟨old, by rw [here.1, here.2, found], (PortDesc.bindSocket_unset left self).1⟩
  · exact ⟨desc, entry, self⟩

theorem binds_of_releaseAll {gone : List SockId} {s : SockId} (binds : (l.releaseAll gone).Binds s) :
    l.Binds s := by
  induction gone generalizing l with
  | nil => exact binds
  | cons is gone ih => exact binds_of_release (ih binds)

/-- An entry that is left was there before, and the socket bound to it is another one. -/
theorem entry_of_release (leased : l.Leased leases lk) {is : SockId} {host : H} {port : Nat}
    {desc : PortDesc} (entry : (l.release is).desc host port = some desc) :
    ∃ old, l.desc host port = some old ∧ 1 ≤ desc.amountSocket ∧
      ∀ s, desc.bindSocket = some s → old.bindSocket = some s ∧ s ≠ is := by
  rw [desc_release] at entry
  split at entry
  · rename_i here
    obtain ⟨old, found, left⟩ := Option.bind_eq_some_iff.mp entry
    refine ⟨old, by rw [here.1, here.2, found], ?_, fun s => PortDesc.bindSocket_unset left⟩
    have users := leased.users found
    simp only [PortDesc.unset] at left
    split at left
    · cases left
      dsimp only
      omega
    · cases left
  · rename_i elsewhere
    refine ⟨desc, entry, leased.users entry, fun s self => ⟨self, ?_⟩⟩
    rintro rfl
    have place := (leased.bound entry self).place
    exact elsewhere ⟨by rw [place], by rw [place]⟩

/-- A listed socket gives its port back. -/
theorem release (leased : l.Leased leases lk) (is : SockId) :
    (l.release is).Leased leases (lk.delete is) := by
  refine { agree := congrArg (List.erase · is) leased.agree, atHome := leased.atHome
           users := fun entry => ?_, bound := ?_, connected := leased.connected, backed := ?_ }
  · obtain ⟨old, -, users, -⟩ := leased.entry_of_release entry
    exact users
  · intro host port desc s entry self
    obtain ⟨old, found, -, same⟩ := leased.entry_of_release entry
    have bound := leased.bound found (same s self).1
    exact { bound with }
  · intro host port
    obtain ⟨holders, nodup, enough, held⟩ := leased.backed host port
    by_cases here : l.place is = (host, port)
    · cases left : (l.release is).desc host port with
      | none => exact ⟨[], List.nodup_nil, by simp [amount, left], by simp⟩
      | some desc =>
          obtain ⟨old, found, -, -⟩ := leased.entry_of_release left
          have less := amount_release here found
          have shorter := List.le_length_erase (a := is) (l := holders)
          refine ⟨holders.erase is, nodup.erase is, by omega, fun s member => ?_⟩
          obtain ⟨other, member⟩ := nodup.mem_erase_iff.mp member
          obtain ⟨listed, there, holds⟩ := held s member
          refine ⟨(List.mem_erase_of_ne other).mpr listed, there, holds.keep rfl (fun _ => rfl) ?_⟩
          rintro ⟨desc', entry, self⟩
          rw [there, found] at entry
          cases entry
          rw [desc_release, here, if_pos ⟨rfl, rfl⟩, found] at left
          refine ⟨desc, ?_, PortDesc.bindSocket_unset_of_ne left self other⟩
          have same : (l.release is).place s = (host, port) := there
          rw [same, desc_release, here, if_pos ⟨rfl, rfl⟩, found, left]
    · refine ⟨holders, nodup, (amount_release_of_ne here).symm ▸ enough, fun s member => ?_⟩
      obtain ⟨listed, there, holds⟩ := held s member
      have other : s ≠ is := by
        rintro rfl
        exact here there
      refine ⟨(List.mem_erase_of_ne other).mpr listed, there, holds.keep rfl (fun _ => rfl) ?_⟩
      rintro ⟨desc, entry, self⟩
      have same : (l.release is).place s = (host, port) := there
      have elsewhere : ¬ (host = (l.place is).1 ∧ port = (l.place is).2) :=
        fun both => here (by rw [both.1, both.2])
      rw [there] at entry
      exact ⟨desc, by rw [same, desc_release, if_neg elsewhere]; exact entry, self⟩

theorem place_take (leased : l.Leased leases lk) {proc : Pid} {fd : Int} {is : SockId}
    (here : lk.opened proc fd = some is) (port : Nat) (desc : PortDesc) :
    (l.take is (l.home proc) port desc).place is = (l.home proc, port) := by
  simp [Ledger.take, put, Ledger.move, leased.atHome proc fd is here]

/-- Another socket that is bound stays so when `is` gets a port. -/
theorem boundAt_take {lk' : Links} {is s : SockId} {host : H} {port : Nat}
    (before : l.BoundAt leases lk s host port) (apart : s ≠ is) (opened : lk'.opened = lk.opened)
    (network : lk'.network = lk.network) (comm : lk'.comm s = lk.comm s)
    (state : ∀ {k}, lk.comm s = some k → lk'.state k = lk.state k) (home : H) (port' : Nat)
    (desc : PortDesc) (lease : Lease H) :
    (l.take is home port' desc).BoundAt (leases ++ [lease]) lk' s host port where
  leased := List.mem_append_left _ before.leased
  place := (Function.update_of_ne apart ..).trans before.place
  network := network ▸ before.network
  opened := by
    obtain ⟨proc, fd, there⟩ := before.opened
    exact ⟨proc, fd, by rw [opened]; exact there⟩
  listening k attached := by
    rw [comm] at attached
    rw [state attached]
    exact before.listening k attached

theorem binds_take {is s : SockId} {host : H} {port : Nat} {desc : PortDesc} (binds : l.Binds s)
    (apart : s ≠ is)
    (kept : ∀ {old}, l.desc host port = some old → old.bindSocket = some s →
      desc.bindSocket = some s) : (l.take is host port desc).Binds s := by
  obtain ⟨old, entry, self⟩ := binds
  have place : (l.take is host port desc).place s = l.place s := Function.update_of_ne apart ..
  have entries : ∀ host' port', (l.take is host port desc).desc host' port' =
      if host' = host ∧ port' = port then some desc else l.desc host' port' :=
    fun _ _ => rfl
  unfold Binds
  rw [place, entries]
  split
  · rename_i same
    rw [same.1, same.2] at entry
    exact ⟨desc, rfl, kept entry self⟩
  · exact ⟨old, entry, self⟩

/-- A socket that had no port gets one, alone or together with those that have it. -/
theorem take (leased : l.Leased leases lk) {lk' : Links} {proc : Pid} {fd : Int} {is : SockId}
    (opened : lk'.opened = lk.opened) (network : lk'.network = lk.network)
    (all : lk'.allSockets = lk.allSockets) (comm : ∀ {s}, s ≠ is → lk'.comm s = lk.comm s)
    (state : ∀ {s k}, lk.comm s = some k → lk'.state k = lk.state k)
    (here : lk.opened proc fd = some is) (listed : is ∈ l.allSockets) (detached : lk.comm is = none)
    (unbound : ¬ l.Binds is) {port : Nat} {desc : PortDesc}
    (more : desc.amountSocket = l.amount (l.home proc) port + 1)
    (kept : ∀ {old s}, l.desc (l.home proc) port = some old → old.bindSocket = some s →
      desc.bindSocket = some s)
    (only : ∀ {s}, desc.bindSocket = some s →
      (∃ old, l.desc (l.home proc) port = some old ∧ old.bindSocket = some s) ∨
        s = is ∧ lk.network is ∧ ∀ k, lk'.comm is = some k → lk'.state k = .listening)
    (holds : desc.bindSocket = some is ∨ ∃ k, lk'.comm is = some k ∧ lk'.state k ≠ .listening) :
    (l.take is (l.home proc) port desc).Leased (leases ++ [(is, l.home proc, port)]) lk' := by
  have nonneg := leased.amount_nonneg (l.home proc) port
  have placeSelf := leased.place_take here port desc
  have place : ∀ {s}, s ≠ is → (l.take is (l.home proc) port desc).place s = l.place s :=
    fun other => Function.update_of_ne other ..
  have entries : ∀ host' port', (l.take is (l.home proc) port desc).desc host' port' =
      if host' = l.home proc ∧ port' = port then some desc else l.desc host' port' :=
    fun _ _ => rfl
  have boundKept : ∀ {host' port' old s}, l.desc host' port' = some old → old.bindSocket = some s →
      (l.take is (l.home proc) port desc).BoundAt (leases ++ [(is, l.home proc, port)]) lk' s host'
        port' := by
    intro host' port' old s entry self
    have apart := leased.bound_ne unbound entry self
    exact boundAt_take (leased.bound entry self) apart opened network (comm apart) state ..
  refine { agree := leased.agree.trans all.symm, atHome := ?_, users := ?_, bound := ?_
           connected := ?_, backed := ?_ }
  · intro proc' fd' s there
    rw [opened] at there
    exact leased.atHome.move is port proc' fd' s there
  · intro host' port' desc' entry
    rw [entries] at entry
    split at entry
    · cases entry
      omega
    · exact leased.users entry
  · intro host' port' desc' s entry self
    rw [entries] at entry
    split at entry
    · rename_i same
      cases entry
      rw [same.1, same.2]
      rcases only self with ⟨old, before, bound⟩ | ⟨rfl, isNetwork, listening⟩
      · exact boundKept before bound
      · exact { leased := List.mem_append_right _ (List.mem_singleton_self _), place := placeSelf
                network := network ▸ isNetwork, opened := ⟨proc, fd, by rw [opened]; exact here⟩
                listening }
    · exact boundKept entry self
  · intro s k attached connected
    by_cases same : s = is
    · subst same
      rw [placeSelf]
      exact List.mem_append_right _ (List.mem_singleton_self _)
    · rw [comm same] at attached
      rw [state attached] at connected
      rw [place same]
      exact List.mem_append_left _ (leased.connected attached connected)
  · intro host' port'
    obtain ⟨holders, nodup, enough, held⟩ := leased.backed host' port'
    have absent : is ∉ holders := by
      intro member
      obtain ⟨-, -, ⟨k, attached, -⟩ | binds⟩ := held is member
      · rw [detached] at attached
        cases attached
      · exact unbound binds
    have heldKept : ∀ s ∈ holders, s ∈ l.allSockets ∧
        (l.take is (l.home proc) port desc).place s = (host', port') ∧
        (l.take is (l.home proc) port desc).Holds lk' s := by
      intro s member
      obtain ⟨listed, there, holds⟩ := held s member
      have apart : s ≠ is := fun same => absent (same ▸ member)
      exact ⟨listed, (place apart).trans there,
        holds.keep (comm apart) state fun binds => binds_take binds apart kept⟩
    rw [amount_take]
    by_cases same : host' = l.home proc ∧ port' = port
    · obtain ⟨rfl, rfl⟩ := same
      refine ⟨is :: holders, List.nodup_cons.mpr ⟨absent, nodup⟩, ?_, ?_⟩
      · rw [if_pos ⟨rfl, rfl⟩, more, List.length_cons]
        omega
      · intro s member
        rcases List.mem_cons.mp member with rfl | member
        · refine ⟨listed, placeSelf, ?_⟩
          rcases holds with self | connected
          · exact .inr ⟨desc, by rw [placeSelf, entries, if_pos ⟨rfl, rfl⟩], self⟩
          · exact .inl connected
        · exact heldKept s member
    · rw [if_neg same]
      exact ⟨holders, nodup, enough, heldKept⟩

theorem bind (leased : l.Leased leases lk) {proc : Pid} {fd : Int} {is : SockId}
    (here : lk.opened proc fd = some is) (listed : is ∈ l.allSockets) (network : lk.network is)
    (detached : lk.comm is = none) (unbound : ¬ l.Binds is) {port : Nat} (device : Nat)
    (unused : l.desc (l.home proc) port = none) :
    (l.take is (l.home proc) port (.bound port device is)).Leased
      (leases ++ [(is, l.home proc, port)]) lk := by
  apply leased.take rfl rfl rfl (fun _ => rfl) (fun _ => rfl) here listed detached unbound
  · simp [PortDesc.bound, amount_unused unused]
  · intro old s entry
    rw [unused] at entry
    cases entry
  · rintro s ⟨⟩
    refine .inr ⟨rfl, network, fun k attached => ?_⟩
    rw [detached] at attached
    cases attached
  · exact .inl rfl

theorem ask (leased : l.Leased leases lk) (sound : lk.Sound) {proc : Pid} {fd : Int} {is : SockId}
    (here : lk.opened proc fd = some is) (listed : is ∈ l.allSockets) (detached : lk.comm is = none)
    (unbound : ¬ l.Binds is) {port : Nat} (unused : l.desc (l.home proc) port = none)
    (listener : SockId) (m : CommId) :
    (l.take is (l.home proc) port (.register port none)).Leased
      (leases ++ [(is, l.home proc, port)]) (lk.ask is listener m) := by
  have state : ∀ {s k}, lk.comm s = some k → (lk.ask is listener m).state k = lk.state k := by
    intro s k attached
    exact Function.update_of_ne (Nat.ne_of_lt (sound.commLt attached)) ..
  have comm : ∀ {s}, s ≠ is → (lk.ask is listener m).comm s = lk.comm s :=
    fun other => Function.update_of_ne other ..
  apply leased.take (by rfl) (by rfl) (by rfl) comm state here listed detached unbound
  · simp [PortDesc.register, amount_unused unused]
  · intro old s entry
    rw [unused] at entry
    cases entry
  · rintro s ⟨⟩
  · have attached : (lk.ask is listener m).comm is = some lk.nextComm := Function.update_self ..
    have state : (lk.ask is listener m).state lk.nextComm = .opened := Function.update_self ..
    exact .inr ⟨lk.nextComm, attached, by simp [state]⟩

theorem join (leased : l.Leased leases lk) (settled : lk.Settled) {proc : Pid} {newfd : Int}
    {listener : SockId} {m k : CommId} {rest : List CommId} (free : lk.opened proc newfd = none)
    (queue : lk.connWait m = k :: rest) (port : Nat) :
    ((l.enter lk.nextSocket (l.home proc)).take lk.nextSocket (l.home proc) port
        (.register port (l.desc (l.home proc) port))).Leased
      (leases ++ [(lk.nextSocket, l.home proc, port)]) (lk.join proc newfd listener m k rest) := by
  have entered := leased.enter settled free (lk.network listener)
  have fresh : (lk.register proc newfd (lk.network listener)).comm lk.nextSocket = none :=
    Function.update_self ..
  have attached : (lk.join proc newfd listener m k rest).comm lk.nextSocket = some k :=
    Function.update_self ..
  have comm : ∀ {s}, s ≠ lk.nextSocket → (lk.join proc newfd listener m k rest).comm s =
      (lk.register proc newfd (lk.network listener)).comm s :=
    fun other => Function.update_of_ne other ..
  have here : (lk.register proc newfd (lk.network listener)).opened proc newfd = some lk.nextSocket :=
    if_pos ⟨rfl, rfl⟩
  have waiting : k ∈ lk.connWait m := by simp [queue]
  have unbound : ¬ (l.enter lk.nextSocket (l.home proc)).Binds lk.nextSocket := by
    rintro ⟨desc, entry, self⟩
    obtain ⟨proc', fd', there⟩ := (leased.bound entry self).opened
    exact Nat.lt_irrefl _ (settled.live.sound.openedLt there)
  apply entered.take (by rfl) (by rfl) (by rfl) comm (fun _ => rfl) here
    (List.mem_append_right _ (List.mem_singleton_self _)) fresh unbound
  · exact amountSocket_register _ _
  · intro old s entry self
    exact PortDesc.bindSocket_register.mpr ⟨old, entry, self⟩
  · intro s self
    exact .inl (PortDesc.bindSocket_register.mp self)
  · exact .inr ⟨k, attached, settled.live.sound.waitState waiting⟩

/-- Closing a descriptor, unless its socket is bound and does not listen yet. -/
theorem commClose (leased : l.Leased leases lk) (settled : lk.Settled) {proc : Pid} {fd : Int}
    {is : SockId} {lk' : Links} {gone : List SockId} (here : lk.opened proc fd = some is)
    (network : lk.network is) (unbound : lk.comm is = none → ¬ l.Binds is)
    (closed : lk.CommClose is lk' gone) :
    (l.releaseAll gone).Leased leases (lk'.setOpened proc fd none) := by
  cases closed with
  | detached comm =>
      refine leased.forget here fun entry self => unbound comm ?_
      have place := (leased.bound entry self).place
      exact ⟨_, by rw [place]; exact entry, self⟩
  | @first k comm notListening notClosed =>
      refine (leased.closeFirst notListening).forget here fun entry self => ?_
      exact notListening ((leased.bound entry self).listening k comm)
  | @listening s k comm listening first =>
      obtain rfl : is = s := (settled.live.listeningOwner comm listening first).mpr comm
      refine ((leased.release is).destroy k).forget here fun entry self => ?_
      obtain ⟨_, -, -, same⟩ := leased.entry_of_release entry
      exact (same is self).2 rfl
  | @second s t k comm closed first second =>
      have released := (leased.release s).release t
      refine (released.destroy k).forget here fun entry self => ?_
      obtain ⟨old, found, -, sameT⟩ := (leased.release s).entry_of_release entry
      obtain ⟨_, -, -, sameS⟩ := leased.entry_of_release found
      have member := (settled.live.closedOwners here network comm closed first second).mpr comm
      rcases member with rfl | rfl
      · exact (sameS is (sameT is self).1).2 rfl
      · exact (sameT is self).2 rfl

end Leased

end Ledger

/-! ## Closing -/

section

variable {H : Type} [DecidableEq H] {leases : List (Lease H)} {v v' : Links × Ledger H} {proc : Pid}
  {fd : Int}

/-- A close strands no queue and forgets no binding. -/
def Closable (v : Links × Ledger H) (is : SockId) : Prop :=
  v.1.network is → v.1.QueueDone is ∧ (v.1.comm is = none → ¬ v.2.Binds is)

/-- Connections have an open end and ports a holder. -/
structure Kept (leases : List (Lease H)) (v : Links × Ledger H) : Prop where
  settled : v.1.Settled
  leased : v.2.Leased leases v.1

theorem Kept.shut (kept : Kept leases v)
    (closable : ∀ is, v.1.opened proc fd = some is → Closable v is) (shut : Shut proc fd v v') :
    Kept leases v' := by
  obtain ⟨settled, leased⟩ := kept
  cases shut with
  | idle => exact ⟨settled, leased⟩
  | @alone lk l is here detached =>
      refine ⟨settled.forget here detached, leased.forget here fun entry self => ?_⟩
      have bound := leased.bound entry self
      refine (closable is here bound.network).2 (detached bound.network) ?_
      exact ⟨_, by rw [bound.place]; exact entry, self⟩
  | @comm lk lk' l is gone here network closed =>
      obtain ⟨done, unbound⟩ := closable is here network
      exact ⟨settled.commClose here network done closed,
        leased.commClose settled here network unbound closed⟩

theorem Closable.shut {is : SockId} (closable : Closable v is) (shut : Shut proc fd v v') :
    Closable v' is := by
  cases shut with
  | idle => exact closable
  | alone => exact closable
  | @comm lk lk' l is' gone here network closed =>
      intro isNetwork
      have old : lk.network is := by cases closed <;> exact isNetwork
      have comm : lk'.comm = lk.comm := by cases closed <;> rfl
      obtain ⟨done, unbound⟩ := closable old
      refine ⟨?_, fun detached binds => unbound (comm ▸ detached) (Ledger.Leased.binds_of_releaseAll binds)⟩
      intro k attached listening
      have before : lk.comm is = some k := comm ▸ attached
      cases closed with
      | detached => exact done k before listening
      | first =>
          simp only [Links.setOpened, Links.setState, Function.update_apply] at listening
          split at listening
          · cases listening
          · exact done k before listening
      | listening | second =>
          simp only [Links.setOpened, Links.destroy, Links.setConnWait, Function.update_apply]
          split
          · rfl
          · exact done k before listening

theorem Kept.shuts (kept : Kept leases v)
    (closable : ∀ fd is, v.1.opened proc fd = some is → Closable v is) (shuts : Shuts proc v v') :
    Kept leases v' := by
  have both : Kept leases v' ∧ ∀ fd is, v'.1.opened proc fd = some is → Closable v' is := by
    induction shuts with
    | refl => exact ⟨kept, closable⟩
    | tail _ shut ih =>
        obtain ⟨fd, shut⟩ := shut
        obtain ⟨kept, closable⟩ := ih
        refine ⟨kept.shut (closable fd) shut, fun fd' is there => ?_⟩
        exact (closable fd' is (shut.opened there)).shut shut
  exact both.1

end

/-- Whether an act makes a second descriptor for an open file. -/
def Act.duplicates : Act → Bool
  | .call op => op.duplicates
  | .die .. => false

/-- The descriptors that an act closes. -/
def Act.closes : Act → List (Pid × Int)
  | .call op => op.closes.toList
  | .die proc fds => fds.map fun fd => (proc, fd)

namespace World

section

variable {H : Type} (w : World H)

/-- The entry of the port that a socket has names it as the bound one. -/
def Binds (is : SockId) : Prop :=
  ∃ desc ∈ w.portDesc (w.socket is).host (w.socket is).portLocal, desc.bindSocket = some is

instance (is : SockId) : Decidable (w.Binds is) :=
  inferInstanceAs (Decidable (∃ desc ∈ w.portDesc (w.socket is).host (w.socket is).portLocal,
    desc.bindSocket = some is))

theorem binds_iff (is : SockId) : w.Binds is ↔ w.ledger.Binds is := by
  simp only [Binds, Ledger.Binds, Option.mem_def]
  rfl

/-- A socket that is neither bound nor has a communication. -/
def Unplaced (is : SockId) : Prop := (w.socket is).comm = none ∧ ¬ w.Binds is

instance (is : SockId) : Decidable (w.Unplaced is) := inferInstanceAs (Decidable (_ ∧ _))

/-- Closing the socket strands no request in its queue and no binding. -/
def MayClose (is : SockId) : Prop :=
  InetLike (w.socket is) → ((w.socket is).comm = none → ¬ w.Binds is) ∧
    ∀ k ∈ (w.socket is).comm, (w.comm k).state = .listening → (w.comm k).connWait = []

instance (is : SockId) : Decidable (w.MayClose is) := inferInstanceAs (Decidable (_ → _ ∧ _))

/-- A socket gets its port and its communication once. -/
def PlacedOnce : Event H → Prop
  | .bound is _ _ _ | .asked is _ => w.Unplaced is
  | .listened is => (w.socket is).comm = none
  | .silent | .accepted .. => True

instance : (ev : Event H) → Decidable (w.PlacedOnce ev)
  | .bound is _ _ _ | .asked is _ => inferInstanceAs (Decidable (w.Unplaced is))
  | .listened is => inferInstanceAs (Decidable ((w.socket is).comm = none))
  | .silent | .accepted .. => .isTrue trivial

/-- No descriptor is duplicated, a socket gets its port and its communication once, and what
    is closed may be closed. -/
def Orderly (label : Act × Event H) : Prop :=
  label.1.duplicates = false ∧ w.PlacedOnce label.2 ∧
    ∀ d ∈ label.1.closes, ∀ is ∈ w.getInfosSocket d.1 d.2, w.MayClose is

instance (label : Act × Event H) : Decidable (w.Orderly label) :=
  inferInstanceAs (Decidable (_ ∧ _ ∧ _))

/-- The port that an act gave to a socket. -/
def given : Event H → Option (Lease H)
  | .bound is host port _ => some (is, host, port)
  | .asked is _ | .accepted _ _ is _ => some (is, (w.socket is).host, (w.socket is).portLocal)
  | .silent | .listened _ => none

theorem given_asked (is listener : SockId) :
    w.given (.asked is listener) = some (is, w.ledger.place is) := rfl

theorem given_accepted (listener client is : SockId) (sai : SockaddrIn) :
    w.given (.accepted listener client is sai) = some (is, w.ledger.place is) := rfl

/-- The ports that were given to sockets along a run. -/
def leases (es : List ((Act × Event H) × Option (Lease H))) : List (Lease H) := es.filterMap Prod.snd

theorem leases_concat (es : List ((Act × Event H) × Option (Lease H)))
    (label : (Act × Event H) × Option (Lease H)) :
    leases (es ++ [label]) = leases es ++ label.2.toList := by
  rw [leases, List.filterMap_append]
  cases given : label.2 <;> simp [leases, given]

/-- Nobody who ever had the port is open, nor is the other end of a connection of theirs. -/
def Abandoned (es : List ((Act × Event H) × Option (Lease H))) (host : H) (port : Nat) : Prop :=
  ∀ s, (s, host, port) ∈ leases es → ¬ w.links.Open s ∧
    ∀ k t, (w.links.info0 k = some s ∧ w.links.info1 k = some t ∨
      w.links.info0 k = some t ∧ w.links.info1 k = some s) → ¬ w.links.Open t

theorem MayClose.closable {w : World H} {is : SockId} (may : w.MayClose is) : Closable w.views is := by
  intro network
  obtain ⟨unbound, done⟩ := may network
  refine ⟨fun k comm listening => done k comm listening, fun comm binds => ?_⟩
  exact unbound comm ((w.binds_iff is).mpr binds)

end

variable {H : Type} [DecidableEq H] {w w' w₀ : World H} {leased : List (Lease H)}

/-- One step of calls and deaths, with the port it gave to a socket. -/
def Leases (w : World H) (label : (Act × Event H) × Option (Lease H)) (w' : World H) : Prop :=
  w.Acts label.1 w' ∧ label.2 = w'.given label.1.2

theorem Kept.call {label : Op × Event H} (kept : Kept leased w.views)
    (orderly : w.Orderly (.call label.1, label.2)) (step : w.Step label w') :
    Kept (leased ++ (w'.given label.2).toList) w'.views := by
  obtain ⟨settled, leases⟩ := kept
  have settled : w.links.Settled := settled
  have leases : w.ledger.Leased leased w.links := leases
  obtain ⟨single, once, closes⟩ := orderly
  have live := settled.live
  have effect := step.effect_of_sound live.sound
  have unopened : ∀ {proc fd}, w.processDescriptorGetFd proc fd = none →
      w.links.opened proc fd = none := by
    intro proc fd free
    simp [World.links, free]
  have opened : ∀ {proc fd is}, w.getInfosSocket proc fd = some is →
      w.links.opened proc fd = some is := fun found => getInfosSocket_eq_opened .. ▸ found
  have unbound : ∀ {is}, w.Unplaced is → ¬ w.ledger.Binds is := fun unplaced binds =>
    unplaced.2 ((w.binds_iff _).mpr binds)
  cases effect with
  | quiet => simpa [given] using Kept.mk settled leases
  | @socket proc domain type protocol ret free =>
      rw [given, Option.toList_none, List.append_nil, views, links_confirmRegisterSocket,
        ledger_confirmRegisterSocket]
      exact ⟨settled.register (unopened free) _, leases.enter settled (unopened free) _⟩
  | @bind proc sockfd sai is found network unused =>
      rw [views, links_bindTo, ledger_bindTo _ _ unused]
      exact ⟨settled, leases.bind (opened found) (live.listed (opened found) network) network once.1
        (unbound once) _ unused⟩
  | @listen proc sockfd is found =>
      have ledger : ((w.commNew is).commSetListen w.comms.next).ledger = w.ledger := w.ledger_commNew is
      rw [given, Option.toList_none, List.append_nil, views, links_listen, ledger]
      exact ⟨settled.listen (opened found) once, leases.listen live.sound once⟩
  | @connect proc sockfd sai is conn k ip port found network binding attached notFreed random =>
      have unused : w.ledger.desc (w.ledger.home proc) port = none := w.getRandomPort_unused random
      obtain ⟨host', device, binding⟩ := binding
      obtain ⟨desc, entry, self⟩ := bound_of_found binding
      have bound := leases.bound entry self
      -- the socket that was found is bound, the one that connects is not
      have apart : conn ≠ is := by
        rintro rfl
        exact unbound once ⟨desc, by rw [bound.place]; exact entry, self⟩
      rw [comm_commNew_of_ne apart] at attached
      have here := opened found
      have place := leases.place_take here port (.register port (w.ledger.desc (w.ledger.home proc) port))
      have lease : (w.connectFrom is conn k (w.procs proc).host ip port).given (.asked is conn) =
          some (is, w.ledger.home proc, port) := by
        rw [given_asked, ledger_connectFrom]
        exact congrArg (fun p => some (is, p)) place
      rw [lease, views, links_connectFrom, ledger_connectFrom]
      refine ⟨settled.ask here network once.1 bound.opened bound.network attached
        (bound.listening k attached), ?_⟩
      have asked := leases.ask live.sound here (live.listed here network) once.1 (unbound once) unused conn k
      rwa [← unused] at asked
  | @accept proc sockfd newfd listener m k rest client ip found attached queue first free =>
      have here := unopened free
      have lease : (w.acceptFrom proc newfd listener m k rest ip).given
          (.accepted listener client w.sockets.next
            { addr := (w.socket client).ipLocal, port := UInt16.ofNat (w.socket client).portLocal }) =
          some (w.sockets.next, w.ledger.home proc, (w.ledger.place listener).2) := by
        rw [given_accepted, ledger_acceptFrom]
        exact congrArg (fun p => some (w.sockets.next, p))
          ((leases.enter settled here (w.links.network listener)).place_take (if_pos ⟨rfl, rfl⟩) _ _)
      rw [lease, views, links_acceptFrom, ledger_acceptFrom]
      exact ⟨settled.join here attached queue, leases.join settled here queue _⟩
  | send =>
      rw [given, Option.toList_none, List.append_nil, views, links_sendFrom, ledger_sendFrom]
      exact ⟨settled, leases⟩
  | @close proc fd _ done =>
      rw [given, Option.toList_none, List.append_nil]
      refine Kept.shut ⟨settled, leases⟩ (fun is here => ?_) (processCloseCall_shut done)
      have here : w.links.opened proc fd = some is := here
      refine (closes (proc, fd) (by simp [Act.closes, Op.closes]) is ?_).closable
      rw [getInfosSocket_eq_opened, here]
      rfl
  | dup => simp [Act.duplicates, Op.duplicates] at single
  | dup2 => simp [Act.duplicates, Op.duplicates] at single

theorem Kept.die {proc : Pid} {fds : List Int} {emptied : List (RecvInformation H)}
    (kept : Kept leased w.views) (walk : fds.Perm (w.procs proc).fdMap.keys)
    (closes : ∀ fd ∈ fds, ∀ is ∈ w.getInfosSocket proc fd, w.MayClose is)
    (done : w.processDie proc fds = .ok (w', emptied)) : Kept leased w'.views := by
  refine kept.shuts (fun fd is here => ?_) (processDie_shuts walk done).1
  have here : w.links.opened proc fd = some is := here
  have found : is ∈ w.getInfosSocket proc fd := by
    rw [getInfosSocket_eq_opened, here]
    rfl
  exact (closes fd (mem_of_walk walk here) is found).closable

theorem Kept.act {label : (Act × Event H) × Option (Lease H)} (kept : Kept leased w.views)
    (orderly : w.Orderly label.1) (step : w.Leases label w') :
    Kept (leased ++ label.2.toList) w'.views := by
  obtain ⟨⟨act, event⟩, lease⟩ := label
  obtain ⟨acts, given⟩ := step
  have given : lease = w'.given event := given
  subst given
  cases act with
  | call op =>
      have step : w.Step (op, event) w' := acts.2
      have orderly : w.Orderly (.call op, event) := orderly
      exact Kept.call kept orderly step
  | die proc fds =>
      obtain ⟨rfl, walk, emptied, died⟩ := acts.die
      rw [World.given, Option.toList_none, List.append_nil]
      refine Kept.die kept walk (fun fd member is found => ?_) died
      exact orderly.2.2 (proc, fd) (List.mem_map_of_mem member) is found

theorem Initial.kept (initial : w.Initial) : Kept [] w.views := by
  have unlisted : w.links.allSockets = [] := initial.allSockets
  have absent : ∀ host port, w.ledger.desc host port = none := by
    intro host port
    simp [World.ledger, portDesc, initial.ports]
  have detached : ∀ is, w.links.comm is = none := initial.unused
  refine Kept.mk ?_ ?_
  · refine { live := initial.live, listedComm := ?_, queue := ?_, ends := ?_ }
    · intro s k _ attached
      exact absurd attached (by simp [views, detached])
    · intro k m waiting
      simp [views, World.links, initial.blank] at waiting
    · intro k listed
      simp [views, World.links, initial.commList] at listed
  · refine { agree := rfl, atHome := initial.accounted.atHome, users := ?_, bound := ?_
             connected := ?_, backed := ?_ }
    · intro host port desc entry
      exact absurd entry (by simp [views, absent])
    · intro host port desc s entry
      exact absurd entry (by simp [views, absent])
    · intro s k attached
      exact absurd attached (by simp [views, detached])
    · intro host port
      exact ⟨[], List.nodup_nil, by simp [views, Ledger.amount, absent], by simp⟩

theorem kept_of_run {es : List ((Act × Event H) × Option (Lease H))} (initial : w₀.Initial)
    (run : Run (Guarded (fun w e => w.Orderly e.1) Leases) w₀ es w) : Kept (leases es) w.views := by
  refine run.history (fun es (v : World H) => Kept (leases es) v.views) initial.kept ?_
  intro es v label v' kept step
  rw [leases_concat]
  exact Kept.act kept step.1 step.2

theorem syscallBindPre_of_unused {proc : Pid} {sockfd : Int} {sai : SockaddrIn} {is : SockId}
    (found : w.getInfosSocket proc sockfd = some is) (network : InetLike (w.socket is))
    (unused : w.portDesc (w.procs proc).host sai.port.toNat = none) :
    w.syscallBindPre proc sockfd sai = .ok (w.bindTo (w.procs proc).host sai is, some 0) := by
  have isNetwork : w.socketNetwork proc sockfd = true := (socketNetwork_iff found).mpr network
  have free : w.isPortInUse (w.procs proc).host sai.port.toNat = false := by
    simp [isPortInUse, unused]
  have still : ∀ v : World H, v.procs = w.procs → v.getInfosSocket proc sockfd = some is :=
    fun v same => (getInfosSocket_congr same proc sockfd).trans found
  simp only [syscallBindPre, found, isNetwork, free, if_true, Bool.false_eq_true, if_false,
    setLocaladdrPortSocket]
  rw [still _ (by simp [modifySocket])]
  rfl

theorem idle_of_run {es : List ((Act × Event H) × Option (Lease H))} (initial : w₀.Initial)
    (run : Run Leases w₀ es w) {proc : Pid} (idle : ∀ e ∈ es, e.1.1.proc ≠ proc) (fd : Int) :
    w.links.opened proc fd = none := by
  have both : w.links.Sound ∧ ((∀ e ∈ es, e.1.1.proc ≠ proc) → w.links.opened proc = w₀.links.opened proc) := by
    refine run.history (fun es (v : World H) => v.links.Sound ∧
      ((∀ e ∈ es, e.1.1.proc ≠ proc) → v.links.opened proc = w₀.links.opened proc))
      ⟨initial.live.sound, fun _ => rfl⟩ ?_
    intro es v e v' before step
    obtain ⟨sound, opened⟩ := step.1.sound before.1
    refine ⟨sound, fun idle => (opened proc (idle e (by simp)).symm).trans (before.2 fun e' member => ?_)⟩
    exact idle e' (List.mem_append_left _ member)
  rw [both.2 idle]
  cases here : w₀.links.opened proc fd with
  | none => rfl
  | some is =>
      rw [← getInfosSocket_eq_opened, getInfosSocket_eq_some] at here
      exact absurd here (initial.noDescriptor proc fd is)

/-- An open socket is found with the processes that did something. -/
theorem open_of_run {es : List ((Act × Event H) × Option (Lease H))} (initial : w₀.Initial)
    (run : Run Leases w₀ es w) {s : SockId} (isOpen : w.links.Open s) :
    ∃ e ∈ es, ∃ fd ∈ (w.procs e.1.1.proc).fdMap.keys, w.getInfosSocket e.1.1.proc fd = some s := by
  obtain ⟨proc, fd, here⟩ := isOpen
  have busy : ∃ e ∈ es, e.1.1.proc = proc := by
    by_contra idle
    rw [idle_of_run initial run (fun e member same => idle ⟨e, member, same⟩)] at here
    cases here
  obtain ⟨e, member, rfl⟩ := busy
  exact ⟨e, member, fd, mem_of_walk (.refl _) here, (w.getInfosSocket_eq_opened ..).trans here⟩

/-- What can be computed of some acts and the ports they gave holds after some run. -/
theorem exists_leases (guard : World H → Act × Event H → Prop) [∀ w label, Decidable (guard w label)]
    (w₀ : World H) (acts : List Act)
    {P : List ((Act × Event H) × Option (Lease H)) → World H → Prop}
    (found : ∃ r ∈ perform (fun w act => if w.Walks act then (w.act act).toOption.map fun r =>
      (((act, r.2), r.1.given r.2), r.1) else none) (fun w e => guard w e.1) w₀ acts, P r.1 r.2) :
    ∃ es w, Run (Guarded (fun w e => guard w e.1) Leases) w₀ es w ∧ P es w := by
  apply Run.exists_of_results_if _ found
  intro w act outcome walk stepped
  exact ⟨⟨walk, stepped⟩, rfl⟩

/-- A port that everybody who had it has given up is free again, as long as every step was
    an orderly one. -/
theorem abandoned_port_free {es : List ((Act × Event H) × Option (Lease H))} (initial : w₀.Initial)
    (run : Run (Guarded (fun w e => w.Orderly e.1) Leases) w₀ es w) {host : H} {port : Nat}
    (abandoned : w.Abandoned es host port) :
    w.isPortInUse host port = false ∧
      ∀ proc sockfd sai is, (w.procs proc).host = host → sai.port.toNat = port →
        w.getInfosSocket proc sockfd = some is → InetLike (w.socket is) →
        ∃ w', w.syscallBindPre proc sockfd sai = .ok (w', some 0) := by
  obtain ⟨settled, leased⟩ := kept_of_run initial run
  have unused : w.portDesc host port = none := by
    by_contra used
    obtain ⟨desc, entry⟩ := Option.ne_none_iff_exists'.mp used
    obtain ⟨s, given, held⟩ := leased.inUse settled entry
    obtain ⟨notOpen, peers⟩ := abandoned s given
    rcases held with isOpen | ⟨k, t, isOpen, ends⟩
    · exact notOpen isOpen
    · exact peers k t ends isOpen
  refine ⟨by simp [isPortInUse, unused], ?_⟩
  rintro proc sockfd sai is rfl rfl found network
  exact ⟨_, syscallBindPre_of_unused found network unused⟩

/-- A connection is used and given up on both sides, once by a death. -/
theorem abandoned_port_of_server_free : ∃ es w,
    Run (Guarded (fun w e => w.Orderly e.1) Leases) threeHosts es w ∧
    (leases es).map (fun l => (l.1, l.2.1)) = [(0, 0), (1, 1), (2, 0)] ∧
    w.Abandoned es 0 80 ∧ w.isPortInUse 0 80 = false ∧
      ∀ proc sockfd sai is, (w.procs proc).host = 0 → sai.port.toNat = 80 →
        w.getInfosSocket proc sockfd = some is → InetLike (w.socket is) →
        ∃ w', w.syscallBindPre proc sockfd sai = .ok (w', some 0) := by
  obtain ⟨es, w, run, given, closed⟩ := exists_leases Orderly threeHosts
    [.call (.socket 0 2 1 0 3), .call (.bind 0 3 ⟨0, 80⟩), .call (.listen 0 3),
      .call (.socket 1 2 1 0 3), .call (.connect 1 3 ⟨10, 80⟩), .call (.accept 0 3 4),
      .call (.close 0 3), .call (.close 0 4), .die 1 [3]]
    (P := fun es w => (leases es).map (fun l => (l.1, l.2.1)) = [(0, 0), (1, 1), (2, 0)] ∧
      ∀ e ∈ es, (w.procs e.1.1.proc).fdMap.keys = []) (by decide +kernel)
  have notOpen : ∀ s, ¬ w.links.Open s := by
    intro s isOpen
    obtain ⟨e, member, fd, here, -⟩ :=
      open_of_run (boot_initial _ _ _) (run.mono fun _ _ _ step => step.2) isOpen
    simp [closed e member] at here
  have abandoned : w.Abandoned es 0 80 := fun s _ => ⟨notOpen s, fun _ t _ => notOpen t⟩
  exact ⟨es, w, run, given, abandoned, abandoned_port_free (boot_initial _ _ _) run abandoned⟩

/-- A socket that is closed between `bind` and `listen` keeps its port for ever. -/
theorem bound_socket_keeps_port : ∃ es w, Run Leases threeHosts es w ∧
    es.map (fun e => e.1.1) =
      [.call (.socket 0 2 1 0 3), .call (.bind 0 3 ⟨0, 80⟩), .call (.close 0 3)] ∧
    (∀ s, ¬ w.links.Open s) ∧ w.Abandoned es 0 80 ∧ w.isPortInUse 0 80 = true := by
  obtain ⟨es, w, run, acts, closed, used⟩ := exists_leases (fun _ _ => True) threeHosts
    [.call (.socket 0 2 1 0 3), .call (.bind 0 3 ⟨0, 80⟩), .call (.close 0 3)]
    (P := fun es w => es.map (fun e => e.1.1) =
        [.call (.socket 0 2 1 0 3), .call (.bind 0 3 ⟨0, 80⟩), .call (.close 0 3)] ∧
      (∀ e ∈ es, (w.procs e.1.1.proc).fdMap.keys = []) ∧ w.isPortInUse 0 80 = true) (by decide)
  have run := run.mono fun _ _ _ step => step.2
  have notOpen : ∀ s, ¬ w.links.Open s := by
    intro s isOpen
    obtain ⟨e, member, fd, here, -⟩ := open_of_run (boot_initial _ _ _) run isOpen
    simp [closed e member] at here
  exact ⟨es, w, run, acts, notOpen, fun s _ => ⟨notOpen s, fun _ t _ => notOpen t⟩, used⟩

end World

end Simterpose
