import Mathlib.Data.List.Induction
import Simterpose.Lib.Except

/-! # Runs of a labelled step relation

A run is a list of labels together with the state they lead to, newest label
last, so that an induction over a run peels off the most recent step. Guards
restrict a step relation to the steps a statement wants to speak about; an
invariant of the guarded relation is then an invariant of those runs only.
-/

namespace Simterpose.Lib

universe u v

variable {σ : Type u} {ι : Type v}

/-- The labels `es` lead from `init` to the given state. -/
inductive Run (Step : σ → ι → σ → Prop) (init : σ) : List ι → σ → Prop where
  | start : Run Step init [] init
  | next {es e s s'} : Run Step init es s → Step s e s' → Run Step init (es ++ [e]) s'

/-- Steps which are taken only where `guard` allows them. -/
def Guarded (guard : σ → ι → Prop) (Step : σ → ι → σ → Prop) (s : σ) (e : ι) (s' : σ) : Prop :=
  guard s e ∧ Step s e s'

namespace Run

variable {Step Step' : σ → ι → σ → Prop} {init s s' : σ} {es : List ι}

theorem invariant (Inv : σ → Prop) (initial : Inv init)
    (preserved : ∀ s e s', Inv s → Step s e s' → Inv s') (run : Run Step init es s) : Inv s := by
  induction run with
  | start => exact initial
  | next _ step ih => exact preserved _ _ _ ih step

/-- Invariants may also mention the labels seen so far. -/
theorem history (Inv : List ι → σ → Prop) (initial : Inv [] init)
    (preserved : ∀ es s e s', Inv es s → Step s e s' → Inv (es ++ [e]) s')
    (run : Run Step init es s) : Inv es s := by
  induction run with
  | start => exact initial
  | next _ step ih => exact preserved _ _ _ _ ih step

theorem mono (weaken : ∀ s e s', Step s e s' → Step' s e s') (run : Run Step init es s) :
    Run Step' init es s := by
  induction run with
  | start => exact .start
  | next _ step ih => exact .next ih (weaken _ _ _ step)

theorem nil_iff : Run Step init [] s ↔ s = init := by
  constructor
  · intro run
    generalize empty : ([] : List ι) = es at run
    cases run with
    | start => rfl
    | next => simp at empty
  · rintro rfl
    exact .start

theorem concat_iff {e : ι} :
    Run Step init (es ++ [e]) s' ↔ ∃ s, Run Step init es s ∧ Step s e s' := by
  constructor
  · intro run
    generalize whole : es ++ [e] = es' at run
    cases run with
    | start => simp at whole
    | next run step =>
        obtain ⟨rfl, same⟩ := List.append_inj' whole rfl
        cases same
        exact ⟨_, run, step⟩
  · rintro ⟨s, run, step⟩
    exact .next run step

/-- Where each of the labels is possible, there is a run of them. -/
theorem exists_history (Inv : List ι → σ → Prop) (initial : Inv [] init)
    (possible : ∀ es' s, ∀ e ∈ es, Inv es' s → ∃ s', Step s e s' ∧ Inv (es' ++ [e]) s') :
    ∃ s, Run Step init es s ∧ Inv es s := by
  induction es using List.reverseRecOn with
  | nil => exact ⟨init, .start, initial⟩
  | append_singleton es e ih =>
      obtain ⟨s, run, inv⟩ := ih fun es' s e' member => possible es' s e' (List.mem_append_left _ member)
      obtain ⟨s', step, inv'⟩ := possible es s e (by simp) inv
      exact ⟨s', .next run step, inv'⟩

theorem exists_of_prefix {es' : List ι} (run : Run Step init es s) (shorter : es' <+: es) :
    ∃ s', Run Step init es' s' := by
  induction run with
  | start =>
      rw [List.prefix_nil.mp shorter]
      exact ⟨_, .start⟩
  | next run step ih =>
      rcases List.prefix_concat_iff.mp shorter with rfl | shorter
      · exact ⟨_, .next run step⟩
      · exact ih shorter

theorem unique (functional : ∀ s e s₁ s₂, Step s e s₁ → Step s e s₂ → s₁ = s₂)
    (run : Run Step init es s) (run' : Run Step init es s') : s = s' := by
  induction run generalizing s' with
  | start => exact (nil_iff.mp run').symm
  | next _ step ih =>
      obtain ⟨between, run', step'⟩ := concat_iff.mp run'
      cases ih run'
      exact functional _ _ _ _ step step'

/-- When a step keeps `Inv` exactly where `guard` allows it, the guarded runs are those on
    which `Inv` never fails. -/
theorem guarded_iff {guard : σ → ι → Prop} (Inv : List ι → σ → Prop)
    (functional : ∀ s e s₁ s₂, Step s e s₁ → Step s e s₂ → s₁ = s₂) (initial : Inv [] init)
    (sharp : ∀ es s e s', Run Step init es s → Inv es s → Step s e s' →
      (Inv (es ++ [e]) s' ↔ guard s e)) (run : Run Step init es s) :
    Run (Guarded guard Step) init es s ↔
      ∀ es' s', es' <+: es → Run Step init es' s' → Inv es' s' := by
  constructor
  · intro guarded es' s' shorter run'
    obtain ⟨between, guarded'⟩ := guarded.exists_of_prefix shorter
    cases unique functional (guarded'.mono fun _ _ _ step => step.2) run'
    have both := guarded'.history (fun es s => Run Step init es s ∧ Inv es s) ⟨.start, initial⟩
      fun es s e s' before step =>
        ⟨.next before.1 step.2, (sharp es s e s' before.1 before.2 step.2).mpr step.1⟩
    exact both.2
  · intro kept
    induction run with
    | start => exact .start
    | next run step ih =>
        have inv := kept _ _ (List.prefix_append ..) run
        have guarded := ih fun es' s' shorter => kept es' s' (shorter.trans (List.prefix_append ..))
        have inv' := kept _ _ (List.prefix_refl _) (.next run step)
        exact .next guarded ⟨(sharp _ _ _ _ run inv step).mp inv', step⟩

/-- The same where all that is looked at is `Good`, which follows from the invariant and holds
    after a step only if `guard` allowed the step. -/
theorem guarded_iff_of_observed {guard : σ → ι → Prop} (Inv Good : σ → Prop)
    (functional : ∀ s e s₁ s₂, Step s e s₁ → Step s e s₂ → s₁ = s₂) (initial : Inv init)
    (observed : ∀ s, Inv s → Good s)
    (kept : ∀ s e s', Inv s → Step s e s' → guard s e → Inv s')
    (needed : ∀ s e s', Inv s → Step s e s' → Good s' → guard s e) (run : Run Step init es s) :
    Run (Guarded guard Step) init es s ↔ ∀ es' s', es' <+: es → Run Step init es' s' → Good s' := by
  have holds : ∀ {es' s'}, Run (Guarded guard Step) init es' s' → Inv s' := fun guarded =>
    guarded.invariant Inv initial fun s e s' inv step => kept s e s' inv step.2 step.1
  constructor
  · intro guarded es' s' shorter run'
    obtain ⟨between, guarded'⟩ := guarded.exists_of_prefix shorter
    cases unique functional (guarded'.mono fun _ _ _ step => step.2) run'
    exact observed _ (holds guarded')
  · intro good
    induction run with
    | start => exact .start
    | next run step ih =>
        have guarded := ih fun es' s' shorter => good es' s' (shorter.trans (List.prefix_append ..))
        have last := good _ _ (List.prefix_refl _) (.next run step)
        exact .next guarded ⟨needed _ _ _ (holds guarded) step last, step⟩

/-- When a step is possible, and does what it should, exactly where `guard` allows it, then
    all steps do so if and only if `guard` holds before each of them. -/
theorem always_iff {guard : σ → ι → Prop} {Good : σ → ι → σ → Prop} (Inv : σ → Prop)
    (functional : ∀ s e s₁ s₂, Step s e s₁ → Step s e s₂ → s₁ = s₂) (initial : Inv init)
    (sharp : ∀ s, ∀ e ∈ es, Inv s → ((∃ s', Step s e s' ∧ Inv s' ∧ Good s e s') ↔ guard s e)) :
    (∀ es' e, es' ++ [e] <+: es →
        ∃ s s', Run Step init es' s ∧ Step s e s' ∧ Inv s' ∧ Good s e s') ↔
      ∀ es' e s, es' ++ [e] <+: es → Run Step init es' s → guard s e := by
  have mem : ∀ {es' e}, es' ++ [e] <+: es → e ∈ es := fun shorter => shorter.subset (by simp)
  constructor
  · intro all es' e s shorter run
    obtain ⟨s₁, s', run₁, step⟩ := all es' e shorter
    cases unique functional run₁ run
    -- the state is the first one or the one after an earlier step
    have inv : Inv s := by
      cases run with
      | start => exact initial
      | next run step =>
          obtain ⟨s₂, s₃, run₂, step₂, inv, -⟩ := all _ _ ((List.prefix_append ..).trans shorter)
          cases unique functional run₂ run
          cases functional _ _ _ _ step₂ step
          exact inv
    exact (sharp s e (mem shorter) inv).mp ⟨s', step⟩
  · intro allowed
    have reached : ∀ es', es' <+: es → ∃ s, Run Step init es' s ∧ Inv s := by
      intro es'
      induction es' using List.reverseRecOn with
      | nil => exact fun _ => ⟨init, .start, initial⟩
      | append_singleton es' e ih =>
          intro shorter
          obtain ⟨s, run, inv⟩ := ih ((List.prefix_append ..).trans shorter)
          obtain ⟨s', step, inv', -⟩ := (sharp s e (mem shorter) inv).mpr (allowed es' e s shorter run)
          exact ⟨s', .next run step, inv'⟩
    intro es' e shorter
    obtain ⟨s, run, inv⟩ := reached es' ((List.prefix_append ..).trans shorter)
    obtain ⟨s', step⟩ := (sharp s e (mem shorter) inv).mpr (allowed es' e s shorter run)
    exact ⟨s, s', run, step⟩

/-- Along a guarded run the guard held before each step. -/
theorem guard_of_guarded {guard : σ → ι → Prop}
    (functional : ∀ s e s₁ s₂, Step s e s₁ → Step s e s₂ → s₁ = s₂)
    (guarded : Run (Guarded guard Step) init es s) {es' : List ι} {e : ι}
    (shorter : es' ++ [e] <+: es) (run : Run Step init es' s') : guard s' e := by
  obtain ⟨after, guarded'⟩ := guarded.exists_of_prefix shorter
  obtain ⟨before, guarded', allowed, -⟩ := concat_iff.mp guarded'
  cases unique functional (guarded'.mono fun _ _ _ step => step.2) run
  exact allowed

end Run

section Execution

variable {α : Type*} (next : σ → α → Option (ι × σ)) (guard : σ → ι → Prop)
  [∀ s e, Decidable (guard s e)]

/-- Perform actions one after another, as long as each is possible and `guard` allows it. -/
def perform : σ → List α → Option (List ι × σ)
  | s, [] => some ([], s)
  | s, a :: actions =>
      match next s a with
      | some (e, s') =>
          if guard s e then (perform s' actions).map fun r => (e :: r.1, r.2) else none
      | none => none

variable {next guard} {Step : σ → ι → σ → Prop}

theorem Run.of_perform (correct : ∀ s a e s', next s a = some (e, s') → Step s e s')
    {init s s' : σ} {es es' : List ι} {actions : List α} (run : Run (Guarded guard Step) init es s)
    (done : perform next guard s actions = some (es', s')) :
    Run (Guarded guard Step) init (es ++ es') s' := by
  induction actions generalizing s es es' with
  | nil =>
      cases done
      rwa [List.append_nil]
  | cons a actions ih =>
      simp only [perform] at done
      split at done
      · rename_i e between stepped
        split at done
        · rename_i allowed
          obtain ⟨⟨tail, last⟩, rest, same⟩ := Option.map_eq_some_iff.mp done
          cases same
          rw [List.append_cons]
          exact ih (.next run ⟨allowed, correct _ _ _ _ stepped⟩) rest
        · cases done
      · cases done

/-- Where the label of a step is the action itself, the labels are the actions. -/
theorem labels_of_perform {next : σ → ι → Option (ι × σ)} (same : ∀ s a e s', next s a = some (e, s') → e = a)
    {s s' : σ} {actions es : List ι} (done : perform next guard s actions = some (es, s')) : es = actions := by
  induction actions generalizing s es with
  | nil =>
      cases done
      rfl
  | cons a actions ih =>
      simp only [perform] at done
      split at done
      · rename_i e between stepped
        split at done
        · obtain ⟨⟨tail, last⟩, rest, same'⟩ := Option.map_eq_some_iff.mp done
          cases same'
          rw [same _ _ _ _ stepped, ih rest]
        · cases done
      · cases done

/-- What can be computed of some actions and their labels holds after some run. -/
theorem Run.exists_of_perform (correct : ∀ s a e s', next s a = some (e, s') → Step s e s')
    {init : σ} {actions : List α} {P : List ι → σ → Prop}
    (found : ∃ r ∈ perform next guard init actions, P r.1 r.2) :
    ∃ es s, Run (Guarded guard Step) init es s ∧ P es s := by
  obtain ⟨⟨es, s⟩, done, holds⟩ := found
  exact ⟨es, s, Run.of_perform correct .start done, holds⟩

section Results

variable {ε ρ : Type*} {f : σ → α → Except ε ρ} {label : σ → α → ρ → ι} {state : ρ → σ} {init : σ}
  {actions : List α} {P : List ι → σ → Prop}

/-- The same for actions that are computed by a function which may fail. -/
theorem Run.exists_of_results (correct : ∀ s a r, f s a = .ok r → Step s (label s a r) (state r))
    (found : ∃ r ∈ perform (fun s a => (f s a).toOption.map fun r => (label s a r, state r)) guard init
      actions, P r.1 r.2) : ∃ es s, Run (Guarded guard Step) init es s ∧ P es s := by
  refine Run.exists_of_perform ?_ found
  intro s a e s' done
  obtain ⟨r, reached, same⟩ := Option.map_eq_some_iff.mp done
  cases same
  exact correct s a r (eq_ok_of_mem_toOption reached)

/-- The same for actions with a precondition. -/
theorem Run.exists_of_results_if {pre : σ → α → Prop} [∀ s a, Decidable (pre s a)]
    (correct : ∀ s a r, pre s a → f s a = .ok r → Step s (label s a r) (state r))
    (found : ∃ r ∈ perform (fun s a => if pre s a then (f s a).toOption.map fun r =>
      (label s a r, state r) else none) guard init actions, P r.1 r.2) :
    ∃ es s, Run (Guarded guard Step) init es s ∧ P es s := by
  refine Run.exists_of_perform ?_ found
  intro s a e s' done
  split at done
  · rename_i allowed
    obtain ⟨r, reached, same⟩ := Option.map_eq_some_iff.mp done
    cases same
    exact correct s a r allowed (eq_ok_of_mem_toOption reached)
  · cases done

end Results

end Execution

end Simterpose.Lib
