import Simterpose.Ledger

/-! # Ports that are in use stay in use

`amount_socket` of a port is never below the number of listed sockets that have it. The
amount goes up whenever a socket gets the port, and down only when a listed socket
leaves the list, so a port some listed socket has is neither bound again nor drawn by
`get_random_port`.
-/

namespace Simterpose

open Lib

namespace Ledger

variable {H : Type} {l : Ledger H}

/-- Every process finds its own sockets on its own host. -/
def AtHome (lk : Links) (l : Ledger H) : Prop :=
  ∀ proc fd is, lk.opened proc fd = some is → (l.place is).1 = l.home proc

theorem AtHome.enter {lk : Links} (fresh : ∀ {proc fd}, lk.opened proc fd ≠ some lk.nextSocket)
    (atHome : l.AtHome lk) (proc : Pid) (fd : Int) (network : Prop) :
    (l.enter lk.nextSocket (l.home proc)).AtHome (lk.register proc fd network) := by
  intro proc' fd' is here
  simp only [Links.register, Links.setOpened] at here
  split at here
  · rename_i same
    cases here
    simp [Ledger.enter, same.1]
  · have old : is ≠ lk.nextSocket := fun same => fresh (same ▸ here)
    simpa [Ledger.enter, old] using atHome proc' fd' is here

theorem AtHome.move {lk : Links} (atHome : l.AtHome lk) (is : SockId) (port : Nat) :
    (l.move is port).AtHome lk := by
  intro proc fd s here
  simp only [Ledger.move, Function.update_apply]
  split
  · rename_i same
    exact same ▸ atHome proc fd s here
  · exact atHome proc fd s here

variable [DecidableEq H]

/-- The amounts cover the listed sockets. -/
def Covered (l : Ledger H) : Prop := ∀ host port, 0 < port → l.users host port ≤ l.amount host port

theorem users_enter {is : SockId} (fresh : is ∉ l.allSockets) (home host : H) {port : Nat}
    (valid : 0 < port) : (l.enter is home).users host port = l.users host port := by
  have old : l.allSockets.countP (fun s => (l.enter is home).place s = (host, port)) =
      l.users host port := by
    refine List.countP_congr fun s member => ?_
    have other : s ≠ is := fun same => fresh (same ▸ member)
    simp [Ledger.enter, other]
  have new : (l.enter is home).place is ≠ (host, port) := by
    simp [Ledger.enter]
    omega
  have all : (l.enter is home).allSockets = l.allSockets ++ [is] := rfl
  rw [users, all, List.countP_append, old]
  simp [new]

private theorem countP_le_add {α : Type} {p q r : α → Bool} (covers : ∀ a, p a → q a ∨ r a)
    (xs : List α) : xs.countP p ≤ xs.countP q + xs.countP r := by
  induction xs with
  | nil => simp
  | cons a xs ih =>
      have here := covers a
      simp only [List.countP_cons]
      cases pa : p a with
      | false => simp; omega
      | true =>
          rcases here pa with qa | ra
          · simp [qa]; omega
          · simp [ra]; omega

theorem users_move {is : SockId} (nodup : l.allSockets.Nodup) (port : Nat) (host' : H)
    (port' : Nat) : (l.move is port).users host' port' ≤
      l.users host' port' + if host' = (l.place is).1 ∧ port' = port then 1 else 0 := by
  split
  · have split : (l.move is port).users host' port' ≤
        l.users host' port' + l.allSockets.countP (fun s => s = is) := by
      refine countP_le_add ?_ l.allSockets
      intro s there
      by_cases same : s = is
      · exact .inr (by simp [same])
      · exact .inl (by simpa [Ledger.move, same] using there)
    have once : l.allSockets.countP (fun s => s = is) ≤ 1 := by
      have := List.nodup_iff_count_le_one.mp nodup is
      rwa [List.count_eq_countP'] at this
    omega
  · rename_i elsewhere
    refine List.countP_mono_left fun s _ there => ?_
    by_cases same : s = is
    · subst same
      simp only [Ledger.move, Function.update_self, decide_eq_true_eq, Prod.mk.injEq] at there
      exact absurd ⟨there.1.symm, there.2.symm⟩ elsewhere
    · simpa [Ledger.move, same] using there

theorem users_release {is : SockId} (listed : is ∈ l.allSockets) (host : H) (port : Nat) :
    (l.release is).users host port + (if l.place is = (host, port) then 1 else 0) =
      l.users host port := by
  have all : (l.release is).allSockets = l.allSockets.erase is := rfl
  have place : (l.release is).place = l.place := rfl
  rw [users, users, all, place, (List.perm_cons_erase listed).countP_eq, List.countP_cons]
  simp

theorem amount_take (is : SockId) (host : H) (port : Nat) (desc : PortDesc) (host' : H)
    (port' : Nat) : (l.take is host port desc).amount host' port' =
      if host' = host ∧ port' = port then desc.amountSocket else l.amount host' port' := by
  simp only [amount, take, put, Ledger.move]
  split <;> rfl

/-- A release takes one off the amount of an entry; an entry that is removed had one. -/
theorem amount_release {is : SockId} {host : H} {port : Nat} {desc : PortDesc}
    (here : l.place is = (host, port)) (entry : l.desc host port = some desc) :
    (l.release is).amount host port + 1 = l.amount host port := by
  simp only [amount, release, put, here, entry, Option.bind_some, PortDesc.unset, and_self, if_true,
    Option.elim_some]
  split
  · simp
  · simp
    omega

theorem amount_release_of_ne {is : SockId} {host : H} {port : Nat}
    (elsewhere : l.place is ≠ (host, port)) : (l.release is).amount host port = l.amount host port := by
  have other : ¬ (host = (l.place is).1 ∧ port = (l.place is).2) :=
    fun same => elsewhere (by rw [same.1, same.2])
  simp only [amount, release, put, if_neg other]

theorem Covered.enter (covered : l.Covered) {is : SockId} (fresh : is ∉ l.allSockets) (home : H) :
    (l.enter is home).Covered := by
  intro host port valid
  rw [users_enter fresh home host valid]
  exact covered host port valid

/-- A socket that gets a port raises its amount. -/
theorem Covered.take (covered : l.Covered) (nodup : l.allSockets.Nodup) {is : SockId} {host : H}
    (here : (l.place is).1 = host) {port : Nat} {desc : PortDesc}
    (more : desc.amountSocket = l.amount host port + 1) : (l.take is host port desc).Covered := by
  intro host' port' valid
  have users : (l.take is host port desc).users host' port' ≤
      l.users host' port' + if host' = (l.place is).1 ∧ port' = port then 1 else 0 :=
    users_move nodup port host' port'
  have before := covered host' port' valid
  rw [here] at users
  rw [amount_take]
  split
  · rename_i same
    rw [if_pos same] at users
    rw [same.1, same.2] at before users ⊢
    omega
  · rename_i elsewhere
    rw [if_neg elsewhere] at users
    omega

theorem Covered.release (covered : l.Covered) {is : SockId} (listed : is ∈ l.allSockets) :
    (l.release is).Covered := by
  intro host port valid
  have users := users_release listed host port
  have before := covered host port valid
  by_cases here : l.place is = (host, port)
  · rw [if_pos here] at users
    cases entry : l.desc host port with
    | none =>
        simp only [amount, entry, Option.elim_none] at before
        omega
    | some desc =>
        have amount := amount_release here entry
        omega
  · rw [if_neg here] at users
    rw [amount_release_of_ne here]
    omega

theorem amountSocket_register (port : Nat) (entry : Option PortDesc) :
    (PortDesc.register port entry).amountSocket = entry.elim 0 PortDesc.amountSocket + 1 := by
  cases entry <;> simp [PortDesc.register]

/-- Calls keep the amounts above the numbers of sockets. -/
theorem Covered.step {lk : Links} {label : Op × Event H} {l' : Ledger H} (covered : l.Covered)
    (nodup : l.allSockets.Nodup) (fresh : lk.nextSocket ∉ l.allSockets) (atHome : l.AtHome lk)
    (step : l.Step lk label l') : l'.Covered := by
  cases step with
  | quiet => exact covered
  | socket => exact covered.enter fresh _
  | bind here network unused =>
      refine covered.take nodup (atHome _ _ _ here) ?_
      simp [amount, unused, PortDesc.bound]
  | connect here network unused =>
      refine covered.take nodup (atHome _ _ _ here) ?_
      simp [amount, unused, PortDesc.register]
  | accept new =>
      subst new
      refine (covered.enter fresh _).take ?_ (by simp [Ledger.enter]) ?_
      · exact List.nodup_append.mpr ⟨nodup, List.nodup_singleton _, by
          intro a member b new same
          rw [List.mem_singleton.mp new] at same
          exact fresh (same ▸ member)⟩
      · exact amountSocket_register _ _
  | close distinct listed =>
      exact releaseAll_induction (fun _ _ _ listed covered => covered.release listed) _ distinct listed
        nodup covered

end Ledger

namespace World

variable {H : Type} [DecidableEq H] {w₀ w w' : World H} {es : List (Op × Event H)}
  {label : Op × Event H}

theorem Effect.atHome (fresh : ∀ {proc fd}, w.links.opened proc fd ≠ some w.sockets.next)
    (single : label.1.duplicates = false) (atHome : w.ledger.AtHome w.links)
    (effect : w.Effect label w') : w'.ledger.AtHome w'.links := by
  cases effect with
  | quiet => exact atHome
  | socket =>
      rw [ledger_confirmRegisterSocket, links_confirmRegisterSocket]
      exact atHome.enter fresh _ _ _
  | bind found network unused =>
      rw [ledger_bindTo _ _ unused, links_bindTo]
      exact Ledger.AtHome.move atHome _ _
  | listen =>
      rw [links_listen]
      have same : ∀ is, ((w.commNew is).commSetListen w.comms.next).ledger = w.ledger :=
        fun is => w.ledger_commNew is
      rw [same]
      exact atHome
  | connect =>
      rw [ledger_connectFrom, links_connectFrom]
      exact Ledger.AtHome.move atHome _ _
  | @accept proc _ newfd listener =>
      rw [ledger_acceptFrom, links_acceptFrom]
      exact Ledger.AtHome.move (atHome.enter fresh proc newfd (w.links.network listener)) _ _
  | send =>
      rw [ledger_sendFrom, links_sendFrom]
      exact atHome
  | close done =>
      have closed := w.links_processCloseCall done
      intro proc fd is here
      have before := atHome proc fd is (closed.opened here)
      rcases processCloseCall_views done with same | ⟨-, -, gone, -, -, -, -, shape⟩
      · rwa [same]
      · rwa [shape, (Ledger.place_releaseAll gone).1, (Ledger.place_releaseAll gone).2]
  | dup => simp [Op.duplicates] at single
  | dup2 => simp [Op.duplicates] at single

/-- The ports of all listed sockets are accounted for. -/
structure Accounted (w : World H) : Prop where
  live : w.links.Live
  atHome : w.ledger.AtHome w.links
  covered : w.ledger.Covered

theorem Initial.accounted (initial : w.Initial) : w.Accounted where
  live := initial.live
  atHome := by
    intro proc fd is here
    exact absurd here (initial.unopened proc fd is)
  covered := by
    intro host port _
    have none_ : w.ledger.allSockets = [] := initial.allSockets
    have absent : w.ledger.desc host port = none := by
      simp [ledger, portDesc, initial.ports]
    simp [Ledger.users, Ledger.amount, none_, absent]

theorem Accounted.step (accounted : w.Accounted) (single : label.1.duplicates = false)
    (step : w.Step label w') : w'.Accounted := by
  have effect := step.effect_of_sound accounted.live.sound
  have moved := effect.ledger accounted.live.releasesListed single
  exact
    { live := accounted.live.step single (step.links accounted.live.sound)
      atHome := effect.atHome accounted.live.fresh.opened single accounted.atHome
      covered := accounted.covered.step accounted.live.allNodup accounted.live.fresh.socketUnlisted
        accounted.atHome moved }

/-- A `connect` that finds a bound socket finds a listening one. -/
def FindsListening (w : World H) : Event H → Prop
  | .asked _ listener => ∃ k ∈ (w.socket listener).comm, (w.comm k).state = .listening
  | _ => True

instance (w : World H) : (ev : Event H) → Decidable (w.FindsListening ev)
  | .asked _ listener =>
      inferInstanceAs (Decidable (∃ k ∈ (w.socket listener).comm, (w.comm k).state = .listening))
  | .silent | .bound .. | .listened .. | .accepted .. => .isTrue trivial

end World

end Simterpose
