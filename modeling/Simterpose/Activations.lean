import Mathlib.Data.List.Induction
import Simterpose.Phase

/-! # Who learns that a tracee is dead

The runner of a process calls `process_handle` until it returns `PROCESS_DEAD`. A blocking
`connect` calls it once more from within a handler, and `syscall_connect` drops what that
call returns. Which activation handles the last system call, and who takes its
`PROCESS_DEAD`, depends on the connects and sends before.
-/

namespace Simterpose

open Lib

/-- The requests of `ptrace` that the death of a tracee can bring about. -/
inductive Request where
  /-- `PTRACE_DETACH` of `ptrace_detach_process` -/
  | detach
  /-- `PTRACE_SYSCALL` of `ptrace_resume_process` -/
  | resume
  deriving Repr, DecidableEq

/-- The thread of the simulator that stands for a tracee: the dispatch it is at, and how
    many activations of `process_handle` by `connect` there are within the runner's. -/
structure Activations where
  moment : Moment
  nested : Nat

/-- What becomes of a `PROCESS_DEAD`. -/
structure Ending where
  /-- what the outermost `process_handle` returns to the runner, if it returns -/
  runner : Option Returned
  /-- what is asked of the kernel about the pid, oldest first -/
  requests : List Request

/-- The innermost activation has detached the tracee and returns. In the runner that ends the
    loop; in `syscall_connect` it is dropped, and the activation outside resumes the tracee.
    The kernel refuses, which throws an exception that nobody catches. -/
def Ending.unwind : (nested : Nat) → Ending
  | 0 => { runner := some .processDead, requests := [.detach] }
  | _ + 1 => { runner := none, requests := [.detach, .resume] }

/-- Whether the call ends its tracee. -/
def Syscall.exits : Syscall → Bool
  | .exit | .exitGroup => true
  | _ => false

namespace Activations

/-- The activations after a handler returned. A task that was found ends the innermost one,
    and when that is the outermost the runner calls `process_handle` again. -/
def count (nested : Nat) : Returned → Nat
  | .nested => nested + 1
  | .processTaskFound => nested - 1
  | .processContinue | .processDead => nested

/-- The activations of `connect` that are left of a history. -/
def unfinished (history : List Returned) : Nat := history.foldl count 0

def start (call : Syscall) : Activations := ⟨.start call, 0⟩

section

variable {H : Type} [DecidableEq H] (proc : Pid) (a : Activations) (r : Round H)

def round : Option (Returned × Activations) := do
  let outcome ← (a.moment.tracee.dispatch r.world proc r.ret a.moment.call).toOption
  let moment ← Moment.after a.moment.call outcome r.motion
  return (outcome.2, ⟨moment, count a.nested outcome.2⟩)

/-- The dispatch of the last call. -/
def last : Option Ending :=
  match a.moment.tracee.dispatch r.world proc r.ret a.moment.call with
  | .ok (_, .processDead) => some (.unwind a.nested)
  | _ => none

/-- The runner gets `PROCESS_DEAD`, and the pid is left alone once it is detached. -/
def Reported : Prop :=
  ∃ ending, a.last proc r = some ending ∧ ending.runner = some .processDead ∧
    ∀ before after, ending.requests = before ++ .detach :: after → after = []

/-- One labelled round. -/
def Step (a : Activations) (label : Round H × Returned) (a' : Activations) : Prop :=
  a.round proc label.1 = some (label.2, a')

end

/-- All connects are done with when each is followed by a send of its own. -/
theorem unfinished_le_iff {history : List Returned} {n : Nat} :
    unfinished history ≤ n ↔
      ∀ recent, recent <:+ history → recent.count .nested ≤ recent.count .processTaskFound + n := by
  -- an end of the history loses its newest element, which is where `unfinished` recurses
  induction history using List.reverseRecOn generalizing n with
  | nil =>
      simp [unfinished]
  | append_singleton older newest ih =>
      have grown : unfinished (older ++ [newest]) = count (unfinished older) newest := by
        simp [unfinished]
      have ends : ∀ {P : List Returned → Prop}, P [] →
          ((∀ recent, recent <:+ older ++ [newest] → P recent) ↔
            ∀ recent, recent <:+ older → P (recent ++ [newest])) := by
        intro P empty
        constructor
        · intro all recent suffix
          exact all _ (List.suffix_concat_iff.mpr (.inr ⟨recent, rfl, suffix⟩))
        · intro all recent suffix
          rcases List.suffix_concat_iff.mp suffix with rfl | ⟨shorter, rfl, within⟩
          · exact empty
          · exact all shorter within
      rw [grown, ends (by simp)]
      cases newest with
      | processContinue | processDead => simpa [count] using ih
      | processTaskFound =>
          have moved : count (unfinished older) .processTaskFound ≤ n ↔ unfinished older ≤ n + 1 := by
            simp only [count]
            omega
          rw [moved, ih]
          apply forall₂_congr
          intro recent _
          simp
          omega
      | nested =>
          cases n with
          | zero =>
              apply iff_of_false (by simp [count])
              intro all
              simpa using all [] (List.nil_suffix)
          | succ n =>
              have moved : count (unfinished older) .nested ≤ n + 1 ↔ unfinished older ≤ n := by
                simp only [count]
                omega
              rw [moved, ih]
              apply forall₂_congr
              intro recent _
              simp
              omega

variable {H : Type} [DecidableEq H] {proc : Pid}

theorem Step.inv {a a' : Activations} {label : Round H × Returned} (step : Step proc a label a') :
    Moment.Step proc a.moment label.1 a'.moment ∧ a'.nested = count a.nested label.2 := by
  obtain ⟨outcome, handled, rest⟩ := Option.bind_eq_some_iff.mp step
  obtain ⟨moment, next, same⟩ := Option.bind_eq_some_iff.mp rest
  obtain ⟨returned, rfl⟩ := Prod.mk.inj (Option.some.inj same)
  constructor
  · exact Option.bind_eq_some_iff.mpr ⟨outcome, handled, next⟩
  · rw [← returned]

theorem nested_of_run {call : Syscall} {labels : List (Round H × Returned)} {a : Activations}
    (run : Run (Step proc) (start call) labels a) : a.nested = unfinished (labels.map Prod.snd) := by
  induction run with
  | start => rfl
  | next _ step ih =>
      rw [step.inv.2, ih]
      simp [unfinished]

/-- The handler of the last call goes by the flag alone. -/
theorem last_of_exit {a : Activations} {r : Round H}
    (exits : a.moment.call.exits = true) :
    a.last proc r = if a.moment.tracee.inSyscall = false then some (.unwind a.nested) else none := by
  have dispatched : a.moment.tracee.dispatch r.world proc r.ret a.moment.call =
      a.moment.tracee.syscallExit := by
    unfold Syscall.exits at exits
    split at exits
    · rename_i exit
      rw [exit]
      rfl
    · rename_i exitGroup
      rw [exitGroup]
      rfl
    · cases exits
  simp only [last, dispatched, Tracee.syscallExit, Tracee.procEntering, Bool.not_eq_true']
  by_cases down : a.moment.tracee.inSyscall = false
  · simp [down]
  · simp [down]

theorem reported_iff {a : Activations} {r : Round H}
    (exits : a.moment.call.exits = true) :
    a.Reported proc r ↔ a.moment.tracee.inSyscall = false ∧ a.nested = 0 := by
  rw [Reported, last_of_exit exits]
  by_cases down : a.moment.tracee.inSyscall = false
  · rw [if_pos down]
    cases a.nested with
    | zero =>
        apply iff_of_true _ ⟨down, rfl⟩
        refine ⟨_, rfl, rfl, ?_⟩
        intro before after requests
        cases before with
        | nil => exact (List.cons.inj requests).2.symm
        | cons first before => simp [Ending.unwind] at requests
    | succ nested =>
        apply iff_of_false
        · rintro ⟨ending, ⟨⟩, runner, -⟩
          cases runner
        · simp
  · rw [if_neg down]
    simp [down]

/-- When a tracee enters `exit` or `exit_group`, its death reaches the runner, and the pid is
    left alone afterwards, if and only if the flag is down and every `connect` that waited
    was followed by a send of its own. -/
theorem death_reported_iff {call : Syscall} {labels : List (Round H × Returned)} {a : Activations}
    (run : Run (Step proc) (start call) labels a) (exits : a.moment.call.exits = true)
    (r : Round H) :
    a.Reported proc r ↔
      a.moment.tracee.inSyscall = false ∧
        ∀ recent, recent <:+ labels.map Prod.snd →
          recent.count .nested ≤ recent.count .processTaskFound := by
  rw [reported_iff exits, nested_of_run run, ← Nat.le_zero, unfinished_le_iff]
  simp

/-- Rounds of a client on host 1, before and after its `connect` finds the server on host 0
    that waits in `accept`. -/
theorem exists_client_run
    (rounds : (before after : World (Fin 3)) → List (Round (Fin 3))) {P : Activations → Prop}
    (found : ∃ served ∈ World.threeHosts.execute (fun _ _ => True)
        [.socket 0 2 1 0 3, .bind 0 3 ⟨inaddrAny, 80⟩, .listen 0 3, .socket 1 2 1 0 3],
      ∃ waiting ∈ (served.2.acceptEnter 0 3).toOption,
      ∃ asked ∈ (waiting.1.processConnectInCall 1 3 ⟨10, 80⟩).toOption,
      ∃ connected ∈ (asked.world.connectStream 1 3).toOption,
      ∃ r ∈ perform (fun a r => (round 1 a r).map fun next => ((r, next.1), next.2))
        (fun _ _ => True) (start (.connect 3 ⟨10, 80⟩)) (rounds waiting.1 connected.1),
        P r.2) :
    ∃ (labels : List (Round (Fin 3) × Returned)) (a : Activations),
      Run (Step 1) (start (.connect 3 ⟨10, 80⟩)) labels a ∧ P a := by
  obtain ⟨_, -, _, -, _, -, _, -, found⟩ := found
  have allowed : ∃ labels a, Run (Guarded (fun _ _ => True) (Step (H := Fin 3) 1))
      (start (.connect 3 ⟨10, 80⟩)) labels a ∧ P a := by
    refine Run.exists_of_perform (P := fun _ a => P a) ?_ found
    intro a r label a' done
    obtain ⟨_, next, same⟩ := Option.map_eq_some_iff.mp done
    cases same
    exact next
  obtain ⟨labels, a, run, holds⟩ := allowed
  exact ⟨labels, a, run.mono fun _ _ _ step => step.2, holds⟩

/-- A client connects, sends and exits. -/
theorem death_reported_after_send :
    ∃ (labels : List (Round (Fin 3) × Returned)) (a : Activations),
      Run (Step 1) (start (.connect 3 ⟨10, 80⟩)) labels a ∧ a.moment.call.exits = true ∧
      ∀ r : Round (Fin 3), a.Reported 1 r := by
  obtain ⟨labels, a, run, exits, down, none_⟩ := exists_client_run
    (fun before after => [⟨before, -38, none⟩, ⟨after, 0, some (.entry (.sendto 3 [1] [0]))⟩,
      ⟨after, -38, some (.entry .exit)⟩])
    (P := fun a => a.moment.call.exits = true ∧ a.moment.tracee.inSyscall = false ∧ a.nested = 0)
    (by decide)
  have finished : unfinished (labels.map Prod.snd) ≤ 0 := by
    rw [← nested_of_run run, none_]
  refine ⟨labels, a, run, exits, fun r => (death_reported_iff run exits r).mpr ⟨down, ?_⟩⟩
  simpa using unfinished_le_iff.mp finished

/-- A client connects and exits: the exit is handled within the `connect`. -/
theorem death_lost_after_connect :
    ∃ (labels : List (Round (Fin 3) × Returned)) (a : Activations),
      Run (Step 1) (start (.connect 3 ⟨10, 80⟩)) labels a ∧ a.moment.call.exits = true ∧
      ∀ r : Round (Fin 3), ∃ ending, a.last 1 r = some ending ∧ ending.runner = none ∧
        ending.requests = [.detach, .resume] := by
  obtain ⟨labels, a, run, exits, down, one⟩ := exists_client_run
    (fun before after => [⟨before, -38, none⟩, ⟨after, 0, some (.entry .exit)⟩])
    (P := fun a => a.moment.call.exits = true ∧ a.moment.tracee.inSyscall = false ∧ a.nested = 1)
    (by decide)
  refine ⟨labels, a, run, exits, fun r => ⟨.unwind 1, ?_, rfl, rfl⟩⟩
  rw [last_of_exit exits, if_pos down, one]

end Activations

end Simterpose
