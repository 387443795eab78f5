import Mathlib.Algebra.BigOperators.Fin
import Mathlib.Algebra.Order.BigOperators.Group.Finset
import Simterpose.Lib.Tally
import Simterpose.References

/-! # The reference counters of sockets

`ref_nb` against the places that hold a socket: the list of all sockets, the slots of
the listed communications and the port entries. Creating, binding, listening and
connecting keep the two equal. Closing a network socket does not, because
`socket_close` takes one reference off that nobody held, and neither does accepting,
because the slot that held the listener is overwritten.
-/

namespace Simterpose

open Lib

namespace Links

variable (l : Links)

/-- The list and the slots that hold a socket. -/
def held (is : SockId) : Nat :=
  (if is ∈ l.allSockets then 1 else 0) + (l.commList.map (l.slotsOf is)).sum

variable {l}

/-- The slots of the listed communications hold sockets that exist. -/
def SlotsExist (l : Links) : Prop :=
  ∀ k ∈ l.commList, ∀ is, l.info0 k = some is ∨ l.info1 k = some is → is < l.nextSocket

theorem SlotsExist.register (exist : l.SlotsExist) (proc : Pid) (fd : Int) (network : Prop) :
    (l.register proc fd network).SlotsExist :=
  fun k member is slot => Nat.lt_succ_of_lt (exist k member is slot)

theorem SlotsExist.commNew (live : l.Live) (exist : l.SlotsExist) {is : SockId}
    (old : is < l.nextSocket) : (l.commNew is).SlotsExist := by
  intro k member j slot
  rcases List.mem_append.mp member with listed | new
  · simp only [Links.commNew, Function.update_apply, if_neg (Nat.ne_of_lt (live.listLt listed))] at slot
    exact exist k listed j slot
  · obtain rfl := List.mem_singleton.mp new
    have : is = j := by simpa [Links.commNew] using slot
    exact this ▸ old

theorem SlotsExist.ask (live : l.Live) (exist : l.SlotsExist) {client listener : SockId}
    (old : client < l.nextSocket) (old' : listener < l.nextSocket) (m : CommId) :
    (l.ask client listener m).SlotsExist := by
  intro k member j slot
  by_cases new : k = l.nextComm
  · subst new
    have : client = j ∨ listener = j := by
      simpa [Links.ask, setInfo1, setConnWait, Links.commNew] using slot
    rcases this with rfl | rfl
    · exact old
    · exact old'
  · simp only [Links.ask, setInfo1, setConnWait, Function.update_apply, if_neg new] at slot
    exact exist.commNew live old k member j slot

theorem SlotsExist.destroy (exist : l.SlotsExist) (k : CommId) : (l.destroy k).SlotsExist :=
  fun m member is slot => exist m (List.mem_of_mem_erase member) is slot

theorem held_register (live : l.Live) (proc : Pid) (fd : Int) (network : Prop) (is : SockId) :
    (l.register proc fd network).held is = l.held is + if is = l.nextSocket then 1 else 0 := by
  have slots : (l.register proc fd network).slotsOf is = l.slotsOf is := rfl
  have fresh : l.nextSocket ∉ l.allSockets := fun member => Nat.lt_irrefl _ (live.allLt member)
  have list : (l.register proc fd network).commList = l.commList := rfl
  have all : (l.register proc fd network).allSockets = l.allSockets ++ [l.nextSocket] := rfl
  simp only [held, slots, list, all, List.mem_append, List.mem_singleton]
  by_cases new : is = l.nextSocket
  · subst new
    simp [fresh]
    omega
  · simp [new]

/-- Nothing holds a socket that does not exist yet. -/
theorem held_fresh (live : l.Live) (exist : l.SlotsExist) : l.held l.nextSocket = 0 := by
  have unlisted : l.nextSocket ∉ l.allSockets := fun member => Nat.lt_irrefl _ (live.allLt member)
  have empty : ∀ k ∈ l.commList, l.slotsOf l.nextSocket k = 0 := by
    intro k member
    have first : l.info0 k ≠ some l.nextSocket :=
      fun slot => Nat.lt_irrefl _ (exist k member _ (.inl slot))
    have second : l.info1 k ≠ some l.nextSocket :=
      fun slot => Nat.lt_irrefl _ (exist k member _ (.inr slot))
    simp [slotsOf, first, second]
  have none_ : (l.commList.map (l.slotsOf l.nextSocket)).sum = 0 := by
    refine List.sum_eq_zero fun n member => ?_
    obtain ⟨k, listed, rfl⟩ := List.mem_map.mp member
    exact empty k listed
  simp [held, unlisted, none_]

theorem held_commNew (live : l.Live) (is j : SockId) :
    (l.commNew is).held j = l.held j + if j = is then 1 else 0 := by
  have old : l.commList.map ((l.commNew is).slotsOf j) = l.commList.map (l.slotsOf j) := by
    refine List.map_congr_left fun k member => ?_
    simp [slotsOf, commNew, Nat.ne_of_lt (live.listLt member)]
  have new : (l.commNew is).slotsOf j l.nextComm = if j = is then 1 else 0 := by
    simp [slotsOf, commNew, eq_comm]
  have list : (l.commNew is).commList = l.commList ++ [l.nextComm] := rfl
  have all : (l.commNew is).allSockets = l.allSockets := rfl
  simp only [held, list, all, List.map_append, List.map_cons, List.map_nil, List.sum_append,
    List.sum_cons, List.sum_nil, old, new]
  omega

theorem held_listen (live : l.Live) (is j : SockId) :
    (l.listen is).held j = l.held j + if j = is then 1 else 0 :=
  held_commNew live is j

theorem held_delete (live : l.Live) {is : SockId} (listed : is ∈ l.allSockets) (j : SockId) :
    (l.delete is).held j + (if j = is then 1 else 0) = l.held j := by
  have slots : (l.delete is).slotsOf j = l.slotsOf j := rfl
  have list : (l.delete is).commList = l.commList := rfl
  have all : j ∈ (l.delete is).allSockets ↔ j ≠ is ∧ j ∈ l.allSockets := live.allNodup.mem_erase_iff
  simp only [held, slots, list, all]
  by_cases same : j = is
  · subst same
    simp [listed]
    omega
  · simp [same]

theorem held_destroy {k : CommId} (listed : k ∈ l.commList) (j : SockId) :
    (l.destroy k).held j + l.slotsOf j k = l.held j := by
  have slots : (l.destroy k).slotsOf j = l.slotsOf j := rfl
  have split := List.sum_map_erase (l.slotsOf j) listed
  have list : (l.destroy k).commList = l.commList.erase k := rfl
  have all : (l.destroy k).allSockets = l.allSockets := rfl
  simp only [held, slots, list, all]
  omega

theorem held_ask (live : l.Live) (client listener : SockId) (m : CommId) (j : SockId) :
    (l.ask client listener m).held j =
      l.held j + (if j = client then 1 else 0) + if j = listener then 1 else 0 := by
  have old : l.commList.map ((l.ask client listener m).slotsOf j) =
      l.commList.map ((l.commNew client).slotsOf j) := by
    refine List.map_congr_left fun k member => ?_
    simp [slotsOf, ask, setInfo1, setConnWait, commNew, Nat.ne_of_lt (live.listLt member)]
  have new : (l.ask client listener m).slotsOf j l.nextComm =
      (l.commNew client).slotsOf j l.nextComm + if j = listener then 1 else 0 := by
    simp [slotsOf, ask, setInfo1, setConnWait, commNew, eq_comm]
  have list : (l.ask client listener m).commList = l.commList ++ [l.nextComm] := rfl
  have list' : (l.commNew client).commList = l.commList ++ [l.nextComm] := rfl
  have all : (l.ask client listener m).allSockets = (l.commNew client).allSockets := rfl
  rw [← held_commNew live client j]
  simp only [held, list, list', all, List.map_append, List.map_cons, List.map_nil, List.sum_append,
    List.sum_cons, List.sum_nil, old, new]
  omega

end Links

namespace World

/-- `bind_socket` of a port entry, as a count. -/
def bindsTo (is : SockId) (desc : PortDesc) : Nat := if desc.bindSocket = some is then 1 else 0

section

variable {H : Type} {w : World H}

/-- The port entries are bound to sockets that exist. -/
def BindsExist (w : World H) : Prop :=
  ∀ host port desc is, w.portDesc host port = some desc → desc.bindSocket = some is →
    is < w.sockets.next

end

section

variable {H : Type} [Fintype H] (w : World H)

/-- How many port entries are bound to a socket. -/
def binds (is : SockId) : Nat := ∑ host, tally (bindsTo is) (w.hosts host).port

/-- The places that hold a socket: `all_sockets`, the slots of the communications in
    `comm_list`, and the port entries. -/
def holders (is : SockId) : Nat :=
  (if is ∈ w.allSockets then 1 else 0) +
    (w.commList.map fun k => (if (w.comm k).info0.socket = some is then 1 else 0) +
      (if (w.comm k).info1.socket = some is then 1 else 0)).sum +
    w.binds is

theorem holders_eq (is : SockId) : w.holders is = w.links.held is + w.binds is := rfl

theorem binds_congr {w' : World H} (same : w'.hosts = w.hosts) (is : SockId) :
    w'.binds is = w.binds is := by
  simp only [binds, same]

/-- No entry is bound to a socket that does not exist yet. -/
theorem binds_fresh (exist : w.BindsExist) : w.binds w.sockets.next = 0 := by
  refine Finset.sum_eq_zero fun host _ => tally_eq_zero _ _ fun port desc entry => ?_
  refine if_neg fun bound => Nat.lt_irrefl _ (exist host port desc _ entry bound)

theorem binds_pos {host : H} {port : Nat} {desc : PortDesc} {is : SockId}
    (entry : w.portDesc host port = some desc) (bound : desc.bindSocket = some is) :
    0 < w.binds is := by
  refine Nat.lt_of_lt_of_le ?_
    (Finset.single_le_sum (fun _ _ => Nat.zero_le _) (Finset.mem_univ host))
  have split := tally_erase_of_lookup (bindsTo is) (w.hosts host).port entry
  have one : bindsTo is desc = 1 := if_pos bound
  omega

theorem holders_pos_of_listed {is : SockId} (listed : is ∈ w.allSockets) : 0 < w.holders is := by
  simp only [holders, if_pos listed]
  omega

variable {w} {w' : World H}

/-- The counters of all sockets that are not freed are exact, and nothing holds a network
    socket that is. -/
structure Counted (w : World H) : Prop where
  exact : ∀ is, is < w.sockets.next → w.sockets.freed is = false → w.refNb is = w.holders is
  gone : ∀ is, w.sockets.freed is = true → is < w.sockets.next ∧ (w.links.network is → w.holders is = 0)
  slots : w.links.SlotsExist
  binds : w.BindsExist

/-- A network socket that something holds is not freed. -/
theorem Counted.kept (counted : w.Counted) {is : SockId} (network : w.links.network is)
    (held : 0 < w.holders is) : w.sockets.freed is = false := by
  cases freed : w.sockets.freed is with
  | false => rfl
  | true => exact absurd ((counted.gone is freed).2 network) (Nat.ne_of_gt held)

/-- References and holders grow together, for sockets that something holds already. -/
theorem Counted.grow (counted : w.Counted) (next : w'.sockets.next = w.sockets.next)
    (freed : w'.sockets.freed = w.sockets.freed) (network : w'.links.network = w.links.network)
    (d : SockId → Nat) (refs : ∀ j, w'.refNb j = w.refNb j + d j)
    (holds : ∀ j, w'.links.held j + w'.binds j = w.links.held j + w.binds j + d j)
    (held : ∀ j, w.links.network j → 0 < d j → 0 < w.holders j)
    (slots : w'.links.SlotsExist) (binds : w'.BindsExist) : w'.Counted where
  exact := by
    intro is old live
    rw [next] at old
    rw [freed] at live
    rw [refs, counted.exact is old live, holders_eq, holders_eq, holds]
    push_cast
    omega
  gone := by
    intro is gone
    rw [freed] at gone
    rw [next, network, holders_eq, holds, ← holders_eq]
    obtain ⟨old, unheld⟩ := counted.gone is gone
    refine ⟨old, fun isNetwork => ?_⟩
    have none_ := unheld isNetwork
    have grown := held is isNetwork
    omega
  slots := slots
  binds := binds

end

section

variable {H : Type} [DecidableEq H] [Fintype H] (w : World H)

/-- Storing an entry counts the socket bound in it instead of the one bound before. -/
theorem binds_setPortDesc (host : H) (port : Nat) (desc : Option PortDesc) (is : SockId) :
    (w.setPortDesc host port desc).binds is + (w.portDesc host port).elim 0 (bindsTo is) =
      w.binds is + desc.elim 0 (bindsTo is) := by
  have others : ∀ h ∈ Finset.univ.erase host,
      tally (bindsTo is) ((w.setPortDesc host port desc).hosts h).port =
        tally (bindsTo is) (w.hosts h).port := by
    intro h member
    simp [setPortDesc, Finset.ne_of_mem_erase member]
  have here : tally (bindsTo is) ((w.setPortDesc host port desc).hosts host).port =
      desc.elim 0 (bindsTo is) + tally (bindsTo is) ((w.hosts host).port.erase port) := by
    cases desc with
    | none => simp [setPortDesc, SimterposeHost.put]
    | some desc => simp [setPortDesc, SimterposeHost.put, tally_insert]
  have before : (w.portDesc host port).elim 0 (bindsTo is) +
      tally (bindsTo is) ((w.hosts host).port.erase port) = tally (bindsTo is) (w.hosts host).port := by
    cases found : w.portDesc host port with
    | none => simpa using tally_erase_of_absent (bindsTo is) _ found
    | some old => exact tally_erase_of_lookup (bindsTo is) _ found
  simp only [binds]
  rw [← Finset.add_sum_erase _ _ (Finset.mem_univ host), Finset.sum_congr rfl others, here,
    ← Finset.add_sum_erase _ (fun h => tally (bindsTo is) (w.hosts h).port) (Finset.mem_univ host),
    ← before]
  omega

@[simp] theorem binds_registerPort (host : H) (port : Nat) (is : SockId) :
    (w.registerPort host port).binds is = w.binds is := by
  have counted :=
    w.binds_setPortDesc host port (some (PortDesc.register port (w.portDesc host port))) is
  unfold registerPort
  cases found : w.portDesc host port with
  | none =>
      simp only [found, PortDesc.register, Option.elim_none, Option.elim_some, bindsTo] at counted ⊢
      simpa using counted
  | some desc =>
      simp only [found, PortDesc.register, Option.elim_some, bindsTo] at counted ⊢
      omega

/-- Giving a port back unbinds the socket that gives it back, when it is bound there. -/
theorem binds_unsetSocket {is : SockId}
    (own : w.ownBinding is = none ∨ w.ownBinding is = some is) (j : SockId) :
    (w.unsetSocket is).binds j + (if j = is ∧ w.ownBinding is = some is then 1 else 0) =
      w.binds j := by
  unfold unsetSocket
  unfold ownBinding at own ⊢
  split
  · rename_i absent
    simp [absent]
  · rename_i desc entry
    simp only [entry, Option.bind_some] at own ⊢
    have before : bindsTo j desc = if j = is ∧ desc.bindSocket = some is then 1 else 0 := by
      rcases own with none_ | self
      · simp [bindsTo, none_]
      · simp [bindsTo, self, eq_comm]
    have left : (desc.unset is).elim 0 (bindsTo j) = 0 := by
      cases unset : desc.unset is with
      | none => rfl
      | some desc' =>
          refine if_neg fun bound => ?_
          obtain ⟨bound, other⟩ := PortDesc.bindSocket_unset unset bound
          rcases own with none_ | self
          · simp [none_] at bound
          · exact other (Option.some.inj (bound.symm.trans self))
    have stored : ∀ v : World H, v.hosts = w.hosts →
        (v.setPortDesc (w.socket is).host (w.socket is).portLocal (desc.unset is)).binds j +
          bindsTo j desc = w.binds j := by
      intro v hosts
      have counted := v.binds_setPortDesc (w.socket is).host (w.socket is).portLocal (desc.unset is) j
      have entry' : v.portDesc (w.socket is).host (w.socket is).portLocal = some desc := by
        rw [portDesc, hosts]
        exact entry
      rwa [entry', Option.elim_some, left, Nat.add_zero, w.binds_congr hosts] at counted
    rw [← before]
    refine stored _ ?_
    split <;> rfl

/-- Binding a free port adds one reference and one holder. -/
theorem counts_bindTo {host : H} {sai : SockaddrIn} (unused : w.portDesc host sai.port.toNat = none)
    (is j : SockId) :
    (w.bindTo host sai is).refNb j = w.refNb j + (if j = is then 1 else 0) ∧
      (w.bindTo host sai is).binds j = w.binds j + (if j = is then 1 else 0) := by
  have flagged : ∀ u : World H,
      (u.modifySocket is fun s => { s with binded := true }).refNb j = u.refNb j :=
    fun u => u.refNb_modifySocket (by intro; rfl) is j
  have counted := w.binds_setPortDesc host sai.port.toNat
    (some (.bound sai.port.toNat (bindDevice sai.addr) is)) j
  rw [w.bindTo_eq is unused]
  constructor
  · simp [flagged]
  · refine (binds_congr (w.setPortDesc host sai.port.toNat _) rfl j).trans ?_
    simpa [unused, bindsTo, PortDesc.bound, eq_comm] using counted

end

section

variable {H : Type} [DecidableEq H] [Fintype H] {w₀ w w' : World H} {es : List (Op × Event H)}

/-- A listening socket that only the list, its communication and its port refer to, while no
    other socket is bound at that port. -/
def Unshared (w : World H) (is : SockId) : Prop :=
  (∃ k ∈ (w.socket is).comm, (w.comm k).state = .listening) ∧
    w.refNb is = 2 + (if w.ownBinding is = some is then 1 else 0) ∧
    (w.ownBinding is = none ∨ w.ownBinding is = some is)

section

variable (w : World H) (proc : Pid) (fd : Int) {is : SockId} (k : CommId)

theorem holders_closeListening (live : w.links.Live) (listed : is ∈ w.allSockets)
    (listedComm : k ∈ w.commList) (own : w.ownBinding is = none ∨ w.ownBinding is = some is)
    (j : SockId) : (w.closeListening proc fd is k).holders j + w.links.slotsOf j k +
      (if j = is then 1 + (if w.ownBinding is = some is then 1 else 0) else 0) = w.holders j := by
  have deleted := Links.held_delete live listed j
  have destroyed : ((w.links.delete is).destroy k).held j + w.links.slotsOf j k =
      (w.links.delete is).held j :=
    Links.held_destroy (l := w.links.delete is) listedComm j
  have opened : (((w.links.delete is).destroy k).setOpened proc fd none).held j =
      ((w.links.delete is).destroy k).held j := rfl
  have hosts : (w.closeListening proc fd is k).hosts = ((w.beginClose is).unsetSocket is).hosts :=
    (hosts_endClose ..).trans
      ((commDestroy_kept _ k).1.trans ((w.beginClose is).releaseSocket_kept is).1)
  have unbound := (w.beginClose is).binds_unsetSocket (w.ownBinding_beginClose is ▸ own) j
  have begun : (w.beginClose is).binds j = w.binds j := binds_congr w rfl j
  rw [ownBinding_beginClose, begun] at unbound
  rw [holders_eq, links_closeListening, opened, binds_congr _ hosts, holders_eq]
  by_cases same : j = is
  · simp only [same, true_and, if_true] at *
    omega
  · simp only [same, false_and, if_false] at *
    omega

end

/-- Closing such a socket frees it, and no other counter changes without its holders. -/
theorem Counted.closeUnshared (live : w.links.Live) (counted : w.Counted) {proc : Pid} {fd : Int}
    {is : SockId} {k : CommId} (here : w.links.opened proc fd = some is) (network : w.links.network is)
    (attached : w.links.comm is = some k) (state : w.links.state k = .listening)
    (unshared : w.Unshared is) : (w.closeListening proc fd is k).Counted := by
  obtain ⟨-, references, own⟩ := unshared
  have listed : is ∈ w.allSockets := live.listed here network
  have listedComm := live.attached here network attached
  have freed := w.freed_closeListening proc fd is k listed references
  have holders := w.holders_closeListening proc fd k live listed listedComm own
  have links := w.links_closeListening proc fd is k
  have next := w.next_closeListening proc fd is k
  refine ⟨fun j old kept => ?_, fun j gone => ?_, ?_, ?_⟩
  · rw [freed] at kept
    have other : j ≠ is := by
      rintro rfl
      simp at kept
    rw [if_neg other] at kept
    rw [next] at old
    have after := holders j
    rw [w.refNb_closeListening proc fd is k listed, counted.exact j old kept, ← after]
    simp only [if_neg other]
    omega
  · rw [freed] at gone
    rw [next]
    by_cases same : j = is
    · subst same
      refine ⟨live.sound.openedLt here, fun _ => ?_⟩
      -- the list, its own slot and its port were all that held it
      have before := counted.exact j (live.sound.openedLt here)
        (counted.kept network (w.holders_pos_of_listed listed))
      have slot : 1 ≤ w.links.slotsOf j k := by
        simp [Links.slotsOf, live.sound.listener attached state]
      have after := holders j
      rw [if_pos rfl] at after
      rw [references] at before
      split at before <;> simp_all <;> omega
    · rw [if_neg same] at gone
      obtain ⟨old, unheld⟩ := counted.gone j gone
      refine ⟨old, fun isNetwork => ?_⟩
      rw [links] at isNetwork
      have after := holders j
      rw [unheld isNetwork] at after
      omega
  · rw [links]
    exact Links.SlotsExist.destroy (l := w.links.delete is) counted.slots k
  · intro host port desc j entry bound
    have entry' : (w.ledger.release is).desc host port = some desc :=
      w.ledger_closeListening proc fd is k ▸ entry
    rw [next]
    simp only [Ledger.release, Ledger.put] at entry'
    split at entry'
    · obtain ⟨old, found, left⟩ := Option.bind_eq_some_iff.mp entry'
      exact counted.binds _ _ old j found (PortDesc.bindSocket_unset left bound).1
    · exact counted.binds host port desc j entry' bound

/-- No descriptor is duplicated, no `accept` takes a request, and no network socket is closed
    other than an unshared one. -/
def KeepsCounts (w : World H) (label : Op × Event H) : Prop :=
  label.1.duplicates = false ∧ label.2.accepts = false ∧
    ∀ target ∈ label.1.closes, ∀ is ∈ w.getInfosSocket target.1 target.2,
      InetLike (w.socket is) → w.Unshared is

omit [DecidableEq H] [Fintype H] in
theorem opened_lt (live : w.links.Live) {proc : Pid} {fd : Int} {is : SockId}
    (found : w.getInfosSocket proc fd = some is) : is < w.sockets.next :=
  live.sound.openedLt (getInfosSocket_eq_opened .. ▸ found)

omit [DecidableEq H] in
theorem holders_pos_of_open (live : w.links.Live) {proc : Pid} {fd : Int} {is : SockId}
    (found : w.getInfosSocket proc fd = some is) (network : w.links.network is) : 0 < w.holders is :=
  w.holders_pos_of_listed (live.listed (getInfosSocket_eq_opened .. ▸ found) network)

omit [DecidableEq H] in
/-- A new socket is held by the list, which is the reference it starts with. -/
theorem Counted.register (live : w.links.Live) (counted : w.Counted) (proc : Pid)
    (ret domain type protocol : Int) : (w.confirmRegisterSocket proc ret domain type protocol).Counted := by
  refine ⟨fun j old kept => ?_, fun j freed => ?_, ?_, ?_⟩
  · rw [refNb_confirmRegisterSocket, holders_eq, links_confirmRegisterSocket,
      Links.held_register live]
    have same : (w.confirmRegisterSocket proc ret domain type protocol).binds j = w.binds j :=
      binds_congr w rfl j
    rw [same]
    by_cases new : j = w.sockets.next
    · subst new
      have unheld : w.links.held w.sockets.next = 0 := Links.held_fresh live counted.slots
      rw [if_pos rfl, if_pos (show w.sockets.next = w.links.nextSocket from rfl), unheld,
        w.binds_fresh counted.binds]
      rfl
    · rw [freed_confirmRegisterSocket, if_neg new] at kept
      have exact : w.refNb j = w.holders j :=
        counted.exact j (Nat.lt_of_le_of_ne (Nat.le_of_lt_succ old) new) kept
      rw [if_neg new, if_neg (show j ≠ w.links.nextSocket from new), exact, holders_eq]
      simp
  · rw [freed_confirmRegisterSocket] at freed
    split at freed
    · cases freed
    obtain ⟨old, unheld⟩ := counted.gone j freed
    refine ⟨Nat.lt_succ_of_lt old, fun network => ?_⟩
    have same : (w.confirmRegisterSocket proc ret domain type protocol).binds j = w.binds j :=
      binds_congr w rfl j
    have other : j ≠ w.links.nextSocket := Nat.ne_of_lt old
    rw [links_confirmRegisterSocket] at network
    simp only [Links.register, Function.update_apply, if_neg other] at network
    rw [holders_eq, links_confirmRegisterSocket, Links.held_register live, if_neg other, same]
    exact unheld network
  · rw [links_confirmRegisterSocket]
    exact counted.slots.register _ _ _
  · exact fun host port desc is entry bound =>
      Nat.lt_succ_of_lt (counted.binds host port desc is entry bound)

theorem Counted.bindTo (live : w.links.Live) (counted : w.Counted) {proc : Pid} {sockfd : Int}
    {sai : SockaddrIn} {is : SockId} (found : w.getInfosSocket proc sockfd = some is)
    (unused : w.portDesc (w.procs proc).host sai.port.toNat = none) :
    (w.bindTo (w.procs proc).host sai is).Counted := by
  have shape := w.bindTo_eq is unused
  refine counted.grow (by rw [shape]; rfl) (by rw [shape]; rfl) (by rw [links_bindTo])
    (fun j => if j = is then 1 else 0) ?_ ?_ ?_ (by rw [links_bindTo]; exact counted.slots) ?_
  · intro j
    rw [(w.counts_bindTo unused is j).1]
    split <;> rfl
  · intro j
    rw [(w.counts_bindTo unused is j).2, links_bindTo]
    omega
  · intro j network raised
    obtain rfl : j = is := by
      by_contra other
      simp [other] at raised
    exact holders_pos_of_open live found network
  · intro host port desc j entry bound
    have same : (w.bindTo (w.procs proc).host sai is).sockets.next = w.sockets.next := by
      rw [shape]; rfl
    rw [portDesc_bindTo is unused] at entry
    rw [same]
    split at entry
    · cases entry
      cases bound
      exact opened_lt live found
    · exact counted.binds host port desc j entry bound

omit [DecidableEq H] in
theorem Counted.listen (live : w.links.Live) (counted : w.Counted) {proc : Pid} {sockfd : Int}
    {is : SockId} (found : w.getInfosSocket proc sockfd = some is) :
    ((w.commNew is).commSetListen w.comms.next).Counted := by
  refine counted.grow rfl rfl (by rw [links_listen]; rfl) (fun j => if j = is then 1 else 0)
    ?_ ?_ ?_ ?_ counted.binds
  · intro j
    simp [commSetListen]
  · intro j
    have same : ((w.commNew is).commSetListen w.comms.next).binds j = w.binds j :=
      binds_congr w rfl j
    rw [links_listen, Links.held_listen live, same]
    omega
  · intro j network raised
    obtain rfl : j = is := by
      by_contra other
      simp [other] at raised
    exact holders_pos_of_open live found network
  · rw [links_listen]
    exact counted.slots.commNew live (opened_lt live found)

/-- The new communication holds both ends. -/
theorem Counted.connectFrom (live : w.links.Live) (counted : w.Counted) {proc : Pid} {sockfd : Int}
    {is conn : SockId} (found : w.getInfosSocket proc sockfd = some is)
    (binding : ∃ (host : H) (port device : Nat), w.getBindingSocketHost host port device = some conn)
    (k : CommId) (home : H) (ip : UInt32) (port : Nat) :
    (w.connectFrom is conn k home ip port).Counted := by
  obtain ⟨host, _, device, binding⟩ := binding
  obtain ⟨bindDesc, bindEntry, bindSelf⟩ := bound_of_found binding
  have connOld : conn < w.sockets.next := counted.binds _ _ bindDesc conn bindEntry bindSelf
  refine counted.grow rfl rfl (by rw [links_connectFrom]; rfl)
    (fun j => (if j = is then 1 else 0) + if j = conn then 1 else 0) ?_ ?_ ?_ ?_ ?_
  · intro j
    simp only [World.connectFrom, refNb_registerPort, refNb_setAddress, refNb_queueConnection]
    push_cast
    omega
  · intro j
    have same : ((w.queueConnection is conn k).setAddress is ip port).binds j = w.binds j :=
      binds_congr w rfl j
    rw [links_connectFrom, Links.held_ask live, World.connectFrom, binds_registerPort, same]
    omega
  · intro j network raised
    by_cases client : j = is
    · subst client
      exact holders_pos_of_open live found network
    · obtain rfl : j = conn := by
        by_contra other
        simp [client, other] at raised
      exact Nat.lt_of_lt_of_le (w.binds_pos bindEntry bindSelf) (Nat.le_add_left _ _)
  · rw [links_connectFrom]
    exact counted.slots.ask live (opened_lt live found) connOld k
  · intro host' port' desc j entry bound
    rw [portDesc_connectFrom] at entry
    split at entry
    · cases entry
      obtain ⟨desc, entry, bound⟩ := PortDesc.bindSocket_register.mp bound
      exact counted.binds _ _ desc j entry bound
    · exact counted.binds host' port' desc j entry bound

theorem Counted.sendFrom (counted : w.Counted) (is s : SockId) (recv : RecvRef) (ds : DataSend)
    (tci : TaskCommInfo H) (receiver : H) : (w.sendFrom is s recv ds tci receiver).Counted := by
  have same := w.sockets_sendFrom is s recv ds tci receiver
  have hosts := w.hosts_sendFrom is s recv ds tci receiver
  refine counted.grow same.1 same.2 (by rw [links_sendFrom]) (fun _ => 0) ?_ ?_
    (fun _ _ raised => absurd raised (Nat.lt_irrefl _)) ?_ ?_
  · intro j
    simp [refNb_sendFrom]
  · intro j
    rw [links_sendFrom, binds_congr w hosts, Nat.add_zero]
  · rw [links_sendFrom]
    exact counted.slots
  · intro host port desc j entry bound
    rw [portDesc, hosts] at entry
    rw [same.1]
    exact counted.binds host port desc j entry bound

omit [DecidableEq H] in
/-- A socket that is not of the network is freed at once; nothing is claimed of it afterwards. -/
theorem Counted.closeOther (live : w.links.Live) (counted : w.Counted) {proc : Pid} {fd : Int} {is : SockId}
    (found : w.processDescriptorGetFd proc fd = some (.socket is)) (other : ¬ InetLike (w.socket is)) :
    (((w.beginClose is).freeSocket is).endClose proc fd is).Counted := by
  have freed : ∀ j, (((w.beginClose is).freeSocket is).endClose proc fd is).sockets.freed j =
      if j = is then true else w.sockets.freed j := fun j => Heap.freed_free _ _ _
  have refs : ∀ j, (((w.beginClose is).freeSocket is).endClose proc fd is).refNb j =
      w.refNb j + if j = is then -1 else 0 := by
    intro j
    simp [beginClose, endClose]
  have same : ∀ j, (((w.beginClose is).freeSocket is).endClose proc fd is).holders j =
      w.holders j := fun _ => rfl
  have network : (((w.beginClose is).freeSocket is).endClose proc fd is).links.network =
      w.links.network := by
    simp [endClose, beginClose, Links.setOpened]
  refine ⟨fun j old kept => ?_, fun j gone => ?_, counted.slots, counted.binds⟩
  · rw [freed] at kept
    have other : j ≠ is := by
      rintro rfl
      simp at kept
    rw [if_neg other] at kept
    rw [refs, if_neg other, counted.exact j old kept, same, Int.add_zero]
  · rw [freed] at gone
    rw [network, same]
    by_cases self : j = is
    · subst self
      exact ⟨opened_lt live (w.getInfosSocket_eq_some.mpr found), fun isNetwork => absurd isNetwork other⟩
    · rw [if_neg self] at gone
      exact counted.gone j gone

theorem Counted.step {label : Op × Event H} (live : w.links.Live) (counted : w.Counted)
    (keeps : w.KeepsCounts label) (step : w.Step label w') : w'.Counted := by
  have effect := step.effect_of_sound live.sound
  cases effect with
  | quiet => exact counted
  | socket => exact counted.register live ..
  | bind found _ unused => exact counted.bindTo live found unused
  | listen found => exact counted.listen live found
  | connect found _ binding =>
      obtain ⟨host, device, binding⟩ := binding
      exact counted.connectFrom live found ⟨host, _, device, binding⟩ ..
  | accept => simp [KeepsCounts, Event.accepts] at keeps
  | send => exact counted.sendFrom ..
  | @close proc fd w' done =>
      rcases processCloseCall_ok done with ⟨absent, rfl⟩ | ⟨d, pipes, found, rfl⟩ |
          ⟨is, w₁, found, rfl, ⟨other, rfl⟩ | ⟨network, closed⟩⟩
      · exact counted
      · exact ⟨counted.exact, counted.gone, counted.slots, counted.binds⟩
      · exact counted.closeOther live found other
      · have unshared := keeps.2.2 (proc, fd) rfl is (w.getInfosSocket_eq_some.mpr found) network
        have here : w.links.opened proc fd = some is := opened_of_found found
        have begun : (w.beginClose is).links = w.links := by simp [beginClose]
        obtain ⟨k, attached, listening⟩ := unshared.1
        have comm : ((w.beginClose is).socket is).comm = some k :=
          (congrArg (Links.comm · is) begun).trans attached
        rcases commClose_ok closed with ⟨detached, -⟩ | ⟨k', attached', ⟨s, state, first, rfl⟩ |
            ⟨s, t, state, -⟩ | ⟨notListening, -⟩⟩
        · simp [comm] at detached
        · obtain rfl : k = k' := Option.some.inj (comm.symm.trans attached')
          obtain rfl : is = s := (live.listeningOwner attached state first).mpr attached
          exact counted.closeUnshared live here network attached listening unshared
        · obtain rfl : k = k' := Option.some.inj (comm.symm.trans attached')
          cases listening.symm.trans state
        · obtain rfl : k = k' := Option.some.inj (comm.symm.trans attached')
          exact absurd listening notListening
  | dup => simp [KeepsCounts, Op.duplicates] at keeps
  | dup2 => simp [KeepsCounts, Op.duplicates] at keeps

omit [DecidableEq H] in
theorem Initial.counted (initial : w.Initial) : w.Counted where
  exact := fun is old => absurd old (by simp [initial.noSocket])
  gone := fun is freed => by simp [initial.notFreed] at freed
  slots := fun k member => by simp [links, initial.commList] at member
  binds := fun host port desc is entry => by simp [portDesc, initial.ports] at entry

theorem counted_of_run (initial : w₀.Initial) (run : Run (Guarded KeepsCounts Step) w₀ es w) :
    w.links.Live ∧ w.Counted := by
  refine run.invariant (fun w => w.links.Live ∧ w.Counted) ⟨initial.live, initial.counted⟩ ?_
  rintro w label w' ⟨live, counted⟩ ⟨keeps, step⟩
  exact ⟨live.step keeps.1 (step.links live.sound), counted.step live keeps step⟩

end

section

instance {H : Type} (w : World H) (is : SockId) : Decidable (w.Unshared is) :=
  inferInstanceAs (Decidable ((∃ k ∈ (w.socket is).comm, (w.comm k).state = .listening) ∧ _ ∧ _))

instance {H : Type} (w : World H) (label : Op × Event H) : Decidable (w.KeepsCounts label) :=
  inferInstanceAs (Decidable (_ ∧ _ ∧ ∀ target ∈ label.1.closes,
    ∀ is ∈ w.getInfosSocket target.1 target.2, InetLike (w.socket is) → w.Unshared is))

end

end World

end Simterpose
