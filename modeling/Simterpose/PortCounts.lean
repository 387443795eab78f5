import Simterpose.Network

/-! # The port tables as multisets

`register_port`, `set_port_on_binding` and `unset_socket` in any order, for any sockets: the table of
a host has a port as often as it was registered and not given back, as long as that number is an
`int`. Between two of these calls everything else may change, the fields of the sockets as well.
-/

namespace Simterpose

open Lib

/-- The text under which the entry of a port is found, `"%d"`. -/
def portKey (port : UInt16) : List Char := Nat.toDigits 10 port.toNat

theorem portKey_injective {p q : UInt16} (same : portKey p = portKey q) : p = q := by
  have value := congrArg (Nat.ofDigitChars 10 · 0) same
  simp only [portKey, Nat.ofDigitChars_toDigits (show 1 < 10 by decide) (Nat.le_refl 10)] at value
  exact UInt16.toNat_inj.mp value

/-- The text and its NUL are no longer than `buff[6]`. -/
theorem length_portKey (p : UInt16) : (portKey p).length + 1 ≤ 6 := by
  have short : (portKey p).length ≤ 5 := by
    apply (Nat.length_toDigits_le_iff (by decide) (by decide)).mpr
    exact Nat.lt_trans p.toNat_lt (by decide)
  omega

/-- A call that changes the table of a host. The host and the port of `unset_socket` are fields of
    the socket. -/
inductive PortCall (H : Type) where
  | register (host : H) (port : UInt16)
  | bind (host : H) (port : UInt16) (is : SockId) (device : Nat)
  | unset (host : H) (port : UInt16) (is : SockId)
  deriving DecidableEq

/-- The entry that a call is about. -/
def PortCall.place {H : Type} : PortCall H → H × UInt16
  | register host port | bind host port _ _ | unset host port _ => (host, port)

/-- The entry with its amount as an `int`. The other modules count in unbounded numbers; the
    difference is in this function alone. -/
def PortDesc.narrow (desc : PortDesc) : PortDesc :=
  { desc with amountSocket := desc.amountSocket.bmod 0x100000000 }

theorem PortDesc.narrow_eq {desc : PortDesc} (lower : -0x80000000 ≤ desc.amountSocket)
    (upper : desc.amountSocket < 0x80000000) : desc.narrow = desc := by
  have same : desc.amountSocket.bmod 0x100000000 = desc.amountSocket := by
    apply Int.bmod_eq_of_le
    · omega
    · omega
  rw [narrow, same]

/-- What a call makes of the entry. -/
def PortCall.entry {H : Type} : PortCall H → Option PortDesc → Option PortDesc
  | register _ port, entry => some (PortDesc.register port.toNat entry).narrow
  | bind _ _ is device, entry => entry.map fun desc =>
      { desc with option := desc.option ||| portBind ||| device, bindSocket := some is }
  | unset _ _ is, entry => (entry.bind fun desc => desc.unset is).map PortDesc.narrow

/-- A socket was bound to a place and not released there since. -/
def BoundSince {H : Type} (place : H × UInt16) (calls : List (PortCall H)) (is : SockId) : Prop :=
  ∃ before device after, calls = before ++ .bind place.1 place.2 is device :: after ∧
    .unset place.1 place.2 is ∉ after

theorem BoundSince.concat {H : Type} {place : H × UInt16} {calls : List (PortCall H)} {is : SockId}
    (since : BoundSince place calls is) {call : PortCall H} (other : call ≠ .unset place.1 place.2 is) :
    BoundSince place (calls ++ [call]) is := by
  obtain ⟨before, device, after, rfl, none⟩ := since
  refine ⟨before, device, after ++ [call], by simp, ?_⟩
  rw [List.mem_append, List.mem_singleton]
  rintro (earlier | last)
  · exact none earlier
  · exact other last.symm

variable {H : Type} [DecidableEq H]

/-- The amount of a port cut to the 32 bits of `amount_socket`. -/
def World.narrowPort (w : World H) (host : H) (port : Nat) : World H :=
  w.setPortDesc host port ((w.portDesc host port).map PortDesc.narrow)

theorem World.portDesc_narrowPort (w : World H) (host host' : H) (port port' : Nat) :
    (w.narrowPort host port).portDesc host' port' =
      if host' = host ∧ port' = port then (w.portDesc host port).map PortDesc.narrow
      else w.portDesc host' port' :=
  w.portDesc_setPortDesc ..

theorem World.portDesc_unsetSocket (w : World H) (is : SockId) (host : H) (port : Nat) :
    (w.unsetSocket is).portDesc host port =
      if host = (w.socket is).host ∧ port = (w.socket is).portLocal then
        (w.portDesc (w.socket is).host (w.socket is).portLocal).bind fun desc => desc.unset is
      else w.portDesc host port := by
  unfold World.unsetSocket
  split
  · rename_i absent
    split
    · rename_i here
      rw [here.1, here.2, absent]
      rfl
    · rfl
  · rename_i desc found
    have kept : (if desc.bindSocket = some is then w.addRefNb is (-1) else w).portDesc = w.portDesc := by
      split <;> rfl
    rw [World.portDesc_setPortDesc, kept, found]
    rfl

/-- One call, after changes to anything but the tables. -/
def PortStep (w : World H) (call : PortCall H) (w' : World H) : Prop :=
  ∃ v : World H, v.hosts = w.hosts ∧
    match call with
    | .register host port => w' = (v.registerPort host port.toNat).narrowPort host port.toNat
    | .bind host port is device => w' = v.setPortOnBinding host port.toNat is device
    | .unset host port is => (v.socket is).host = host ∧ (v.socket is).portLocal = port.toNat ∧
        w' = (v.unsetSocket is).narrowPort host port.toNat

/-- How a call changes the count of a place. -/
def PortCall.counts (place : H × UInt16) (count : Nat) (call : PortCall H) : Nat :=
  match call with
  | .register host port => if (host, port) = place then count + 1 else count
  | .bind .. => count
  | .unset host port _ => if (host, port) = place then count - 1 else count

/-- One more for each registration and one less for each release, down to zero. -/
def portCount (place : H × UInt16) (calls : List (PortCall H)) : Nat :=
  calls.foldl (PortCall.counts place) 0

theorem portCount_concat (place : H × UInt16) (calls : List (PortCall H)) (call : PortCall H) :
    portCount place (calls ++ [call]) = call.counts place (portCount place calls) := by
  simp [portCount]

/-- The value stored first is lost. -/
private theorem if_if_same {α : Type} {p : Prop} [Decidable p] (a b c : α) :
    (if p then a else if p then b else c) = if p then a else c := by
  split <;> rfl

theorem portCount_le_length (place : H × UInt16) (calls : List (PortCall H)) :
    portCount place calls ≤ calls.length := by
  induction calls using List.reverseRecOn with
  | nil => exact Nat.le_refl 0
  | append_singleton calls call ih =>
      rw [portCount_concat, List.length_append, List.length_singleton]
      cases call with
      | register host port =>
          simp only [PortCall.counts]
          split <;> omega
      | bind => exact Nat.le_succ_of_le ih
      | unset host port is =>
          simp only [PortCall.counts]
          split <;> omega

/-- The entries when a call has stored `new` for its place. -/
theorem PortCall.entries_eq (w : World H) (call : PortCall H) {new : Option PortDesc}
    (made : call.entry (w.portDesc call.place.1 call.place.2.toNat) = new) (host : H) (port : Nat) :
    (if host = call.place.1 ∧ port = call.place.2.toNat then new else w.portDesc host port) =
      if host = call.place.1 ∧ port = call.place.2.toNat then call.entry (w.portDesc host port)
      else w.portDesc host port := by
  split
  · rename_i here
    rw [here.1, here.2, made]
  · rfl

/-- The entries when a call has found nothing at its place. -/
theorem PortCall.entries_absent (w : World H) (call : PortCall H)
    (absent : w.portDesc call.place.1 call.place.2.toNat = none) (nothing : call.entry none = none)
    (host : H) (port : Nat) : w.portDesc host port =
      if host = call.place.1 ∧ port = call.place.2.toNat then call.entry (w.portDesc host port)
      else w.portDesc host port := by
  split
  · rename_i here
    rw [here.1, here.2, absent, nothing]
  · rfl

/-- A call changes the entry of its place and no other. -/
theorem portDesc_of_step {w w' : World H} {call : PortCall H} (step : PortStep w call w') (host : H)
    (port : Nat) : w'.portDesc host port =
      if host = call.place.1 ∧ port = call.place.2.toNat then call.entry (w.portDesc host port)
      else w.portDesc host port := by
  obtain ⟨v, hosts, called⟩ := step
  have same : v.portDesc = w.portDesc := by
    funext host port
    simp only [World.portDesc, hosts]
  cases call with
  | register host' port' =>
      cases called
      have stored : ∀ h p, (v.registerPort host' port'.toNat).portDesc h p =
          if h = host' ∧ p = port'.toNat then some (.register port'.toNat (w.portDesc host' port'.toNat))
          else w.portDesc h p := by
        intro h p
        rw [World.registerPort, World.portDesc_setPortDesc, same]
      have here := (stored host' port'.toNat).trans (if_pos ⟨rfl, rfl⟩)
      rw [World.portDesc_narrowPort, here, stored, if_if_same]
      exact PortCall.entries_eq w (.register host' port') rfl host port
  | bind host' port' is device =>
      cases called
      unfold World.setPortOnBinding
      rw [same]
      split
      · rename_i absent
        rw [same]
        exact PortCall.entries_absent w (.bind host' port' is device) absent rfl host port
      · rename_i desc found
        have counted : ∀ u : World H, (u.addRefNb is 1).portDesc = u.portDesc := fun _ => rfl
        rw [counted, World.portDesc_setPortDesc, same]
        exact PortCall.entries_eq w (.bind host' port' is device) (congrArg _ found) host port
  | unset host' port' is =>
      obtain ⟨rfl, local_, rfl⟩ := called
      have stored : ∀ h p, (v.unsetSocket is).portDesc h p =
          if h = (v.socket is).host ∧ p = port'.toNat then
            (w.portDesc (v.socket is).host port'.toNat).bind fun desc => desc.unset is
          else w.portDesc h p := by
        intro h p
        rw [v.portDesc_unsetSocket, same, local_]
      have here := (stored (v.socket is).host port'.toNat).trans (if_pos ⟨rfl, rfl⟩)
      rw [World.portDesc_narrowPort, here, stored, if_if_same]
      exact PortCall.entries_eq w (.unset _ port' is) rfl host port

/-- The entry of a place that has seen some calls. -/
structure EntryFits (place : H × UInt16) (calls : List (PortCall H)) (entry : Option PortDesc) : Prop where
  used : entry.isSome = true ↔ 0 < portCount place calls
  amount : ∀ desc ∈ entry, desc.amountSocket = portCount place calls
  num : ∀ desc ∈ entry, desc.portNum = place.2.toNat
  bound : ∀ desc ∈ entry, ∀ is, desc.bindSocket = some is → BoundSince place calls is

theorem counts_elsewhere {place : H × UInt16} {call : PortCall H} (elsewhere : place ≠ call.place) (count : Nat) :
    call.counts place count = count := by
  cases call with
  | register host port => exact if_neg (Ne.symm elsewhere)
  | bind => rfl
  | unset host port is => exact if_neg (Ne.symm elsewhere)

theorem EntryFits.elsewhere {place : H × UInt16} {calls : List (PortCall H)} {entry : Option PortDesc}
    (fits : EntryFits place calls entry) {call : PortCall H} (elsewhere : place ≠ call.place) :
    EntryFits place (calls ++ [call]) entry := by
  have count : portCount place (calls ++ [call]) = portCount place calls := by
    rw [portCount_concat, counts_elsewhere elsewhere]
  refine ⟨by rw [count]; exact fits.used, by rw [count]; exact fits.amount, fits.num,
    fun desc found is bound => (fits.bound desc found is bound).concat ?_⟩
  rintro rfl
  exact elsewhere rfl

theorem portCount_register (host : H) (port : UInt16) (calls : List (PortCall H)) :
    portCount (host, port) (calls ++ [.register host port]) = portCount (host, port) calls + 1 := by
  rw [portCount_concat]
  exact if_pos rfl

theorem EntryFits.register {host : H} {port : UInt16} {calls : List (PortCall H)} {entry : Option PortDesc}
    (fits : EntryFits (host, port) calls entry) (small : portCount (host, port) calls + 1 < 0x80000000) :
    EntryFits (host, port) (calls ++ [.register host port]) (some (PortDesc.register port.toNat entry).narrow) := by
  have count := portCount_register host port calls
  cases entry with
  | none =>
      have zero : portCount (host, port) calls = 0 := by
        have unused := fits.used
        simp at unused
        exact unused
      rw [PortDesc.narrow_eq (by simp [PortDesc.register]) (by simp [PortDesc.register])]
      exact
        { used := by simp [count]
          amount := by simp [PortDesc.register, count, zero]
          num := by simp [PortDesc.register]
          bound := by simp [PortDesc.register] }
  | some desc =>
      have amount : (PortDesc.register port.toNat (some desc)).amountSocket = portCount (host, port) calls + 1 := by
        simp [PortDesc.register, fits.amount desc rfl]
      rw [PortDesc.narrow_eq (by omega) (by omega)]
      exact
        { used := by simp [count]
          amount := by simp [amount, count]
          num := by simp [PortDesc.register, fits.num desc rfl]
          bound := by
            intro desc' found is bound
            cases found
            exact (fits.bound desc rfl is bound).concat (by simp) }

theorem EntryFits.bind {host : H} {port : UInt16} {calls : List (PortCall H)} {entry : Option PortDesc}
    (fits : EntryFits (host, port) calls entry) (is : SockId) (device : Nat) :
    EntryFits (host, port) (calls ++ [.bind host port is device]) ((PortCall.bind host port is device).entry entry) := by
  have count : portCount (host, port) (calls ++ [.bind host port is device]) = portCount (host, port) calls :=
    portCount_concat ..
  cases entry with
  | none => exact ⟨by rw [count]; exact fits.used, by simp [PortCall.entry], by simp [PortCall.entry], by simp [PortCall.entry]⟩
  | some desc =>
      exact
        { used := by rw [count]; exact fits.used
          amount := by simp [PortCall.entry, count, fits.amount desc rfl]
          num := by simp [PortCall.entry, fits.num desc rfl]
          bound := by
            intro desc' found is' bound
            cases found
            cases bound
            exact ⟨calls, device, [], rfl, by simp⟩ }

theorem EntryFits.unset {host : H} {port : UInt16} {calls : List (PortCall H)} {entry : Option PortDesc}
    (fits : EntryFits (host, port) calls entry) (small : portCount (host, port) calls < 0x80000000) (is : SockId) :
    EntryFits (host, port) (calls ++ [.unset host port is])
      ((entry.bind fun desc => desc.unset is).map PortDesc.narrow) := by
  have count : portCount (host, port) (calls ++ [.unset host port is]) = portCount (host, port) calls - 1 := by
    rw [portCount_concat]
    exact if_pos rfl
  cases entry with
  | none =>
      have unused := fits.used
      simp at unused
      exact ⟨by simp [count, unused], by simp, by simp, by simp⟩
  | some desc =>
      have positive := fits.used.mp rfl
      have amount := fits.amount desc rfl
      rw [Option.bind_some]
      by_cases last : desc.amountSocket - 1 ≠ 0
      · have left : desc.unset is = some { desc with
            amountSocket := desc.amountSocket - 1
            bindSocket := if desc.bindSocket = some is then none else desc.bindSocket } := if_pos last
        have since : ∀ desc' ∈ desc.unset is, ∀ is', desc'.bindSocket = some is' →
            BoundSince (host, port) (calls ++ [.unset host port is]) is' := by
          intro desc' found is' bound
          obtain ⟨before, other⟩ := PortDesc.bindSocket_unset found bound
          exact (fits.bound desc rfl is' before).concat (by simp [other.symm])
        rw [left] at since ⊢
        rw [Option.map_some, PortDesc.narrow_eq (by dsimp only; omega) (by dsimp only; omega)]
        exact
          { used := by simp [count]; omega
            amount := by simp [count]; omega
            num := by simp [fits.num desc rfl]
            bound := since }
      · have gone : desc.unset is = none := if_neg last
        rw [gone]
        exact ⟨by simp [count]; omega, by simp, by simp, by simp⟩

theorem EntryFits.step {call : PortCall H} {calls : List (PortCall H)} {entry : Option PortDesc}
    (fits : EntryFits call.place calls entry) (before : portCount call.place calls < 0x80000000)
    (after : portCount call.place (calls ++ [call]) < 0x80000000) :
    EntryFits call.place (calls ++ [call]) (call.entry entry) := by
  cases call with
  | register host port => exact fits.register (portCount_register host port calls ▸ after)
  | bind host port is device => exact fits.bind is device
  | unset host port is => exact fits.unset before is

/-- At no time a port is registered more often than an `int` can count. -/
def CountsFit (calls : List (PortCall H)) : Prop :=
  ∀ before, before <+: calls → ∀ place, portCount place before < 0x80000000

/-- From empty tables on, whatever the calls and their order, as long as the numbers of sockets are
    below 2^31: a port has an entry exactly while it has been registered more often than released,
    with that number, and the socket bound there has not been released from it. No call touches the
    entry of another port or host, and the key of a port is its own and fits into the buffer. -/
theorem port_table_is_multiset {w₀ w : World H} (empty : ∀ host port, w₀.portDesc host port = none)
    {calls : List (PortCall H)} (run : Run PortStep w₀ calls w) (small : CountsFit calls) :
    (∀ (host : H) (port : UInt16),
      ((w.portDesc host port.toNat).isSome = true ↔ 0 < portCount (host, port) calls) ∧
      ∀ desc, w.portDesc host port.toNat = some desc →
        desc.amountSocket = portCount (host, port) calls ∧ 0 < desc.amountSocket ∧
        desc.portNum = port.toNat ∧
        ∀ is, desc.bindSocket = some is → BoundSince (host, port) calls is) ∧
    (∀ call w', PortStep w call w' → ∀ (host : H) (port : Nat),
      (host, port) ≠ (call.place.1, call.place.2.toNat) → w'.portDesc host port = w.portDesc host port) ∧
    ∀ p : UInt16, (portKey p).length + 1 ≤ 6 ∧ ∀ q, portKey p = portKey q → p = q := by
  have fits := run.history
    (fun calls w => CountsFit calls →
      ∀ place : H × UInt16, EntryFits place calls (w.portDesc place.1 place.2.toNat))
    (fun _ place => by
      rw [empty]
      exact ⟨by simp [portCount], by simp, by simp, by simp⟩)
    (fun calls w call w' fits step small place => by
      have earlier : CountsFit calls := fun before first =>
        small before (first.trans (List.prefix_append ..))
      rw [portDesc_of_step step]
      by_cases here : place = call.place
      · subst here
        rw [if_pos ⟨rfl, rfl⟩]
        exact (fits earlier call.place).step (earlier _ List.prefix_rfl _) (small _ List.prefix_rfl _)
      · rw [if_neg]
        · exact (fits earlier place).elsewhere here
        · rintro ⟨host, port⟩
          exact here (Prod.ext host (UInt16.toNat_inj.mp port))) small
  refine ⟨fun host port => ⟨(fits (host, port)).used, fun desc found => ?_⟩, ?_, ?_⟩
  · have amount := (fits (host, port)).amount desc found
    have used := (fits (host, port)).used.mp (by rw [found]; rfl)
    exact ⟨amount, by omega, (fits (host, port)).num desc found, (fits (host, port)).bound desc found⟩
  · intro call w' step host port other
    rw [portDesc_of_step step, if_neg]
    rintro ⟨rfl, rfl⟩
    exact other rfl
  · exact fun p => ⟨length_portKey p, fun q same => portKey_injective same⟩

/-- A port that is registered, bound and registered again. -/
theorem registered_twice : ∃ (host : Fin 3) (w : World (Fin 3)) (desc : PortDesc),
    Run PortStep World.threeHosts [.register host 80, .bind host 80 0 2, .register host 80] w ∧
      w.portDesc host 80 = some desc ∧ desc.amountSocket = 2 := by
  let host : Fin 3 := (World.threeHosts.procs 0).host
  have run : Run PortStep World.threeHosts ([] ++ [.register host 80] ++ [.bind host 80 0 2] ++ [.register host 80]) _ :=
    .next (.next (.next .start ⟨_, rfl, rfl⟩) ⟨_, rfl, rfl⟩) ⟨_, rfl, rfl⟩
  have small : CountsFit [.register host 80, .bind host 80 0 2, .register host 80] := by
    intro before first place
    have few := portCount_le_length place before
    have short := first.length_le
    simp at short
    omega
  obtain ⟨used, entry⟩ := (port_table_is_multiset (fun _ _ => rfl) run small).1 host 80
  obtain ⟨desc, found⟩ := Option.isSome_iff_exists.mp (used.mpr (by simp [portCount, PortCall.counts]))
  refine ⟨host, _, desc, run, found, ?_⟩
  rw [(entry desc found).1]
  simp [portCount, PortCall.counts]

theorem portCount_replicate (host : H) (port : UInt16) (n : Nat) :
    portCount (host, port) (List.replicate n (.register host port)) = n := by
  induction n with
  | zero => rfl
  | succ n ih => rw [List.replicate_succ', portCount_register, ih]

/-- A port that is registered again and again counts in 32 bits. -/
theorem exists_registered (w₀ : World H) (host : H) (port : UInt16) (unused : w₀.portDesc host port.toNat = none)
    (n : Nat) : ∃ w desc, Run PortStep w₀ (List.replicate (n + 1) (.register host port)) w ∧
      w.portDesc host port.toNat = some desc ∧ desc.amountSocket = ((n + 1 : Nat) : Int).bmod 0x100000000 := by
  induction n with
  | zero =>
      have step : PortStep w₀ (.register host port) _ := ⟨w₀, rfl, rfl⟩
      refine ⟨_, _, .next .start step, (portDesc_of_step step host port.toNat).trans (if_pos ⟨rfl, rfl⟩), ?_⟩
      rw [unused]
      rfl
  | succ n ih =>
      obtain ⟨w, desc, run, found, amount⟩ := ih
      have step : PortStep w (.register host port) _ := ⟨w, rfl, rfl⟩
      refine ⟨_, _, ?_, (portDesc_of_step step host port.toNat).trans (if_pos ⟨rfl, rfl⟩), ?_⟩
      · rw [List.replicate_succ']
        exact .next run step
      · rw [found]
        simp only [PortDesc.narrow, PortDesc.register, amount]
        rw [Int.bmod_add_bmod]
        norm_cast

/-- The registration number 2^31 of a port makes its amount negative. -/
theorem amount_overflows : ∃ (host : Fin 3) (w : World (Fin 3)) (desc : PortDesc),
    Run PortStep World.threeHosts (List.replicate 0x80000000 (.register host 80)) w ∧
      portCount (host, 80) (List.replicate 0x80000000 (.register host 80)) = 0x80000000 ∧
      w.portDesc host 80 = some desc ∧ desc.amountSocket = -0x80000000 := by
  obtain ⟨w, desc, run, found, amount⟩ :=
    exists_registered World.threeHosts (World.threeHosts.procs 0).host 80 rfl 0x7fffffff
  exact ⟨_, w, desc, run, portCount_replicate _ _ _, found, amount.trans (by decide)⟩

end Simterpose
