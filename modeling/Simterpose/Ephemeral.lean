import Mathlib.Data.Finset.Card
import Simterpose.Lib.Loop
import Simterpose.Lib.Run
import Simterpose.Ports

/-! # Ephemeral ports

`get_random_port` counts a 16-bit port down from 65535 until the dictionary of the host has
no entry for it. Here is the loop as it runs, counter and wrap-around included, and what
comes of drawing and registering ports again and again.
-/

namespace Simterpose

open Lib

namespace World

section

variable {H : Type} (w : World H) {host : H}

/-- A round of the loop of `get_random_port`. -/
def randomPortRound (host : H) (port : UInt16) : Iteration UInt16 Nat :=
  if w.isPortInUse host port.toNat then .again (port - 1) else .stop port.toNat

/-- `get_random_port` returns `port`. -/
def DrawsPort (host : H) (port : Nat) : Prop := Ends (w.randomPortRound host) (0 - 1) port

/-- The ports without an entry. -/
def freePorts (host : H) : Finset Nat := (Finset.range 65536).filter fun port => w.portDesc host port = none

variable {w}

theorem mem_freePorts {port : Nat} :
    port ∈ w.freePorts host ↔ port ≤ 65535 ∧ w.portDesc host port = none := by
  rw [freePorts, Finset.mem_filter, Finset.mem_range, Nat.lt_succ_iff]

theorem isPortInUse_iff {port : Nat} : w.isPortInUse host port = true ↔ w.portDesc host port ≠ none := by
  rw [isPortInUse, Option.isSome_iff_ne_none]

/-- No port above the one found is free. -/
theorem randomPortFrom_largest {start port : Nat} (found : w.randomPortFrom host start = some port)
    {q : Nat} (below : q ≤ start) (free : w.portDesc host q = none) : q ≤ port := by
  induction start with
  | zero => omega
  | succ start ih =>
      simp only [randomPortFrom] at found
      split at found
      · rename_i used
        have other : q ≠ start + 1 := by
          rintro rfl
          exact isPortInUse_iff.mp used free
        exact ih found (by omega)
      · cases found
        exact below

theorem randomPortFrom_isSome {start q : Nat} (below : q ≤ start) (free : w.portDesc host q = none) :
    (w.randomPortFrom host start).isSome := by
  have unused : ¬ w.isPortInUse host q = true := fun used => isPortInUse_iff.mp used free
  induction start with
  | zero =>
      obtain rfl : q = 0 := by omega
      rw [randomPortFrom, if_neg unused]
      rfl
  | succ start ih =>
      rw [randomPortFrom]
      split
      · rename_i used
        have other : q ≠ start + 1 := by
          rintro rfl
          exact unused used
        exact ih (by omega)
      · rfl

/-- Down to port 0 the loop of the source goes the way of `randomPortFrom`. -/
theorem ends_of_randomPortFrom {start : UInt16} {port : Nat}
    (found : w.randomPortFrom host start.toNat = some port) :
    Ends (w.randomPortRound host) start port := by
  generalize size : start.toNat = n at found
  induction n generalizing start with
  | zero =>
      rw [randomPortFrom] at found
      split at found
      · cases found
      · rename_i unused
        have last : w.randomPortRound host start = .stop 0 := by
          rw [randomPortRound, size, if_neg unused]
        exact (ends_stop last).mpr (Option.some.inj found).symm
  | succ n ih =>
      rw [randomPortFrom] at found
      split at found
      · rename_i used
        have next : w.randomPortRound host start = .again (start - 1) := by
          rw [randomPortRound, size, if_pos used]
        exact (ends_again next).mpr (ih (toNat_sub_one size) found)
      · rename_i unused
        have last : w.randomPortRound host start = .stop (n + 1) := by
          rw [randomPortRound, size, if_neg unused]
        exact (ends_stop last).mpr (Option.some.inj found).symm

theorem endless_of_all_used (used : ∀ port ≤ 65535, w.portDesc host port ≠ none) (start : UInt16) :
    Endless (w.randomPortRound host) start := by
  apply endless_of_invariant (fun _ => True) _ trivial
  intro port _
  have inUse : w.isPortInUse host port.toNat = true :=
    isPortInUse_iff.mpr (used _ (Nat.le_of_lt_succ port.toNat_lt))
  exact ⟨port - 1, if_pos inUse, trivial⟩

/-- The loop returns what `getRandomPort` says, and does not end where that is nothing. -/
theorem drawsPort_iff {port : Nat} : w.DrawsPort host port ↔ w.getRandomPort host = some port := by
  constructor
  · intro drawn
    cases found : w.getRandomPort host with
    | none =>
        have used : ∀ q ≤ 65535, w.portDesc host q ≠ none := by
          intro q below free
          have some_ : (w.getRandomPort host).isSome := randomPortFrom_isSome below free
          simp [found] at some_
        exact absurd drawn (endless_of_all_used used _).not_ends
    | some port' =>
        have drawn' : w.DrawsPort host port' := ends_of_randomPortFrom found
        rw [drawn.unique drawn']
  · exact fun found => ends_of_randomPortFrom found

theorem DrawsPort.mem_freePorts {port : Nat} (drawn : w.DrawsPort host port) :
    port ∈ w.freePorts host := by
  have found := drawsPort_iff.mp drawn
  exact World.mem_freePorts.mpr ⟨w.randomPortFrom_le found, w.getRandomPort_unused found⟩

theorem DrawsPort.largest {port q : Nat} (drawn : w.DrawsPort host port) (free : q ∈ w.freePorts host) :
    q ≤ port := by
  obtain ⟨below, free⟩ := World.mem_freePorts.mp free
  exact randomPortFrom_largest (drawsPort_iff.mp drawn) below free

theorem exists_drawsPort (free : (w.freePorts host).Nonempty) : ∃ port, w.DrawsPort host port := by
  obtain ⟨q, free⟩ := free
  obtain ⟨below, free⟩ := mem_freePorts.mp free
  obtain ⟨port, found⟩ := Option.isSome_iff_exists.mp (randomPortFrom_isSome below free)
  exact ⟨port, drawsPort_iff.mpr found⟩

end

variable {H : Type} [DecidableEq H] {w w' : World H} {host : H}

/-- A call of `get_random_port` and one of `register_port` for the port it returned. -/
def Obtains (host : H) (w : World H) (port : Nat) (w' : World H) : Prop :=
  w.DrawsPort host port ∧ w' = w.registerPort host port

theorem freePorts_registerPort (port : Nat) :
    (w.registerPort host port).freePorts host = (w.freePorts host).erase port := by
  ext q
  rw [Finset.mem_erase, mem_freePorts, mem_freePorts, registerPort, portDesc_setPortDesc]
  by_cases same : q = port
  · simp [same]
  · simp [same]

/-- What has been obtained is what is no longer free, and only smaller ports are left. -/
structure Obtained (w : World H) (host : H) (ports : List Nat) (w' : World H) : Prop where
  left : ∀ q, q ∈ w'.freePorts host ↔ q ∈ w.freePorts host ∧ q ∉ ports
  drawn : ∀ p ∈ ports, p ∈ w.freePorts host
  smaller : ∀ p ∈ ports, ∀ q ∈ w'.freePorts host, q < p
  decreasing : ports.Pairwise (· > ·)

theorem Obtained.step {ports : List Nat} {w₁ w₂ : World H} {port : Nat}
    (before : w.Obtained host ports w₁) (step : Obtains host w₁ port w₂) :
    w.Obtained host (ports ++ [port]) w₂ := by
  obtain ⟨drawn, rfl⟩ := step
  have free := drawn.mem_freePorts
  have left : ∀ q, q ∈ (w₁.registerPort host port).freePorts host ↔
      q ∈ w.freePorts host ∧ q ∉ ports ++ [port] := by
    intro q
    rw [freePorts_registerPort, Finset.mem_erase, before.left, List.mem_append, List.mem_singleton]
    constructor
    · rintro ⟨other, unused, unlisted⟩
      exact ⟨unused, fun listed => listed.elim unlisted other⟩
    · rintro ⟨unused, unlisted⟩
      exact ⟨fun same => unlisted (.inr same), unused, fun old => unlisted (.inl old)⟩
  refine { left, drawn := ?_, smaller := ?_, decreasing := ?_ }
  · intro p member
    rcases List.mem_append.mp member with old | new
    · exact before.drawn p old
    · rw [List.mem_singleton.mp new]
      exact ((before.left port).mp free).1
  · intro p member q unused
    rw [freePorts_registerPort, Finset.mem_erase] at unused
    rcases List.mem_append.mp member with old | new
    · exact before.smaller p old q unused.2
    · rw [List.mem_singleton.mp new]
      exact Nat.lt_of_le_of_ne (drawn.largest unused.2) unused.1
  · apply List.pairwise_append.mpr
    refine ⟨before.decreasing, List.pairwise_singleton .., ?_⟩
    intro p old q new
    rw [List.mem_singleton.mp new]
    exact before.smaller p old port free

theorem obtained_of_run {ports : List Nat} (run : Run (Obtains host) w ports w') :
    w.Obtained host ports w' := by
  apply run.history (w.Obtained host ·)
  · exact { left := by simp, drawn := by simp, smaller := by simp, decreasing := .nil }
  · intro ports w₁ port w₂ before step
    exact before.step step

theorem nodup_of_decreasing {ports : List Nat} (decreasing : ports.Pairwise (· > ·)) : ports.Nodup :=
  decreasing.imp Nat.ne_of_gt

/-- As many ports can be obtained as are free. -/
theorem exists_run_obtains (w : World H) (host : H) {k : Nat} (enough : k ≤ (w.freePorts host).card) :
    ∃ ports w', Run (Obtains host) w ports w' ∧ ports.length = k := by
  induction k with
  | zero => exact ⟨[], w, .start, rfl⟩
  | succ k ih =>
      obtain ⟨ports, w₁, run, length⟩ := ih (Nat.le_of_succ_le enough)
      have obtained := obtained_of_run run
      have few : ports.toFinset.card < (w.freePorts host).card :=
        calc ports.toFinset.card ≤ ports.length := ports.toFinset_card_le
          _ < (w.freePorts host).card := by omega
      obtain ⟨q, free, other⟩ := Finset.exists_mem_notMem_of_card_lt_card few
      have left : q ∈ w₁.freePorts host :=
        (obtained.left q).mpr ⟨free, fun member => other (List.mem_toFinset.mpr member)⟩
      obtain ⟨port, drawn⟩ := exists_drawsPort ⟨q, left⟩
      exact ⟨ports ++ [port], _, run.next ⟨drawn, rfl⟩, by simp [length]⟩

/-- The search returns the largest free port and ends exactly if there is one; ports drawn
    and registered one after the other are distinct, decreasing and were all free. -/
theorem ephemeral_ports (w : World H) (host : H) :
    ((∃ q ≤ 65535, w.portDesc host q = none) →
      ∃ port ≤ 65535, w.DrawsPort host port ∧ w.portDesc host port = none ∧
        ∀ q ≤ 65535, w.portDesc host q = none → q ≤ port) ∧
    ((∀ q ≤ 65535, w.portDesc host q ≠ none) → Endless (w.randomPortRound host) (0 - 1)) ∧
    (∀ k ≤ (w.freePorts host).card,
      ∃ ports w', Run (Obtains host) w ports w' ∧ ports.length = k) ∧
    ∀ ports w', Run (Obtains host) w ports w' →
      ports.Nodup ∧ ports.Pairwise (· > ·) ∧ ∀ p ∈ ports, p ≤ 65535 ∧ w.portDesc host p = none := by
  refine ⟨?_, ?_, ?_, ?_⟩
  · rintro ⟨q, below, free⟩
    obtain ⟨port, drawn⟩ := exists_drawsPort ⟨q, mem_freePorts.mpr ⟨below, free⟩⟩
    obtain ⟨bound, unused⟩ := mem_freePorts.mp drawn.mem_freePorts
    exact ⟨port, bound, drawn, unused, fun q' below' free' =>
      drawn.largest (mem_freePorts.mpr ⟨below', free'⟩)⟩
  · exact fun used => endless_of_all_used used _
  · exact fun k enough => exists_run_obtains w host enough
  · intro ports w' run
    have obtained := obtained_of_run run
    exact ⟨nodup_of_decreasing obtained.decreasing, obtained.decreasing,
      fun p member => mem_freePorts.mp (obtained.drawn p member)⟩

end World

end Simterpose
