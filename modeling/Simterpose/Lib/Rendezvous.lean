import Mathlib.Data.List.Forall2
import Simterpose.Lib.Run

/-! # Two parties whose sends wait

Each of two parties works off a list of actions. An action gives a message to the other side or
takes the one that the other side has given; a party whose message was not taken yet does
nothing. The two come to an end exactly if their lists face each other, action by action.
-/

namespace Simterpose.Lib

universe u v

inductive Side where
  | left | right
  deriving Repr, DecidableEq

def Side.other : Side → Side
  | .left => .right
  | .right => .left

@[simp] theorem Side.other_other (i : Side) : i.other.other = i := by cases i <;> rfl

theorem Side.other_ne (i : Side) : i.other ≠ i := by cases i <;> simp [Side.other]

theorem Side.eq_or_eq_other (i j : Side) : j = i ∨ j = i.other := by
  cases i <;> cases j <;> simp [Side.other]

namespace Rendezvous

variable {α : Type u} {μ : Type v} (gives : α → Option μ) (takes : α → μ → Prop)

/-- One action of a side. The state is what each side gave and the other did not take yet. -/
def Step (under : Side → Option μ) (e : Side × α) (under' : Side → Option μ) : Prop :=
  under e.1 = none ∧
    match gives e.2 with
    | some m => under' = Function.update under e.1 (some m)
    | none => ∃ m, under e.1.other = some m ∧ takes e.2 m ∧
        under' = Function.update under e.1.other none

/-- One of the two gives what the other takes. -/
def Faces (a b : α) : Prop :=
  (∃ m, gives a = some m ∧ gives b = none ∧ takes b m) ∨
    ∃ m, gives b = some m ∧ gives a = none ∧ takes a m

/-- The actions of one side, in order. -/
def work (es : List (Side × α)) (i : Side) : List α := (es.filter (·.1 = i)).map Prod.snd

/-- The action by which a side gave what is under way. -/
def Owes : Option μ → List α → Prop
  | none, as => as = []
  | some m, as => ∃ a, as = [a] ∧ gives a = some m

/-- Two lists of actions that face each other. -/
def Dual (script : Side → List α) : Prop :=
  List.Forall₂ (Faces gives takes) (script .left) (script .right)

/-- All actions face one of the other side, apart from those whose message is under way. -/
def Met (done : Side → List α) (under : Side → Option μ) : Prop :=
  ∃ paired owed : Side → List α, (∀ i, done i = paired i ++ owed i) ∧
    (∀ i, Owes gives (under i) (owed i)) ∧ Dual gives takes paired

variable {gives takes} {under under' : Side → Option μ} {es : List (Side × α)} {e : Side × α}

theorem Faces.symm {a b : α} (faces : Faces gives takes a b) : Faces gives takes b a := Or.symm faces

theorem dual_iff {script : Side → List α} (i : Side) :
    Dual gives takes script ↔ List.Forall₂ (Faces gives takes) (script i) (script i.other) := by
  cases i with
  | left => rfl
  | right => exact ⟨fun dual => dual.flip.imp fun _ _ => Faces.symm,
      fun dual => dual.flip.imp fun _ _ => Faces.symm⟩

theorem step_give {i : Side} {a : α} {m : μ} (free : under i = none) (given : gives a = some m) :
    Step gives takes under (i, a) (Function.update under i (some m)) := by
  refine ⟨free, ?_⟩
  simp only [given]

theorem step_take {i : Side} {b : α} {m : μ} (free : under i.other = none) (waits : gives b = none)
    (sent : under i = some m) (taken : takes b m) :
    Step gives takes under (i.other, b) (Function.update under i none) := by
  refine ⟨free, ?_⟩
  simp [waits, sent, taken]

/-- An action has one outcome. -/
theorem Step.functional (under : Side → Option μ) (e : Side × α) (under₁ under₂ : Side → Option μ)
    (first : Step gives takes under e under₁) (second : Step gives takes under e under₂) :
    under₁ = under₂ := by
  obtain ⟨-, moved₁⟩ := first
  obtain ⟨-, moved₂⟩ := second
  cases given : gives e.2 with
  | some m =>
      simp only [given] at moved₁ moved₂
      rw [moved₁, moved₂]
  | none =>
      simp only [given] at moved₁ moved₂
      obtain ⟨-, -, -, rfl⟩ := moved₁
      obtain ⟨-, -, -, rfl⟩ := moved₂
      rfl

theorem work_concat (es : List (Side × α)) (e : Side × α) (i : Side) :
    work (es ++ [e]) i = if e.1 = i then work es i ++ [e.2] else work es i := by
  unfold work
  by_cases same : e.1 = i
  · simp [same]
  · simp [same]

theorem Met.step (met : Met gives takes (work es) under) (step : Step gives takes under e under') :
    Met gives takes (work (es ++ [e])) under' := by
  obtain ⟨i, a⟩ := e
  obtain ⟨paired, owed, split, owes, dual⟩ := met
  obtain ⟨free, moved⟩ := step
  have none_ : owed i = [] := by
    have owe := owes i
    rw [free] at owe
    exact owe
  cases given : gives a with
  | some m =>
      -- the message is under way, and with it the action is not paired yet
      simp only [given] at moved
      subst moved
      refine ⟨paired, Function.update owed i [a], ?_, ?_, dual⟩
      · intro j
        have before := split j
        by_cases same : j = i
        · subst same
          simp [work_concat, before, none_]
        · simp [work_concat, before, same, Ne.symm same]
      · intro j
        by_cases same : j = i
        · subst same
          simpa [Owes] using given
        · simpa [same] using owes j
  | none =>
      simp only [given] at moved
      obtain ⟨m, underway, taken, rfl⟩ := moved
      obtain ⟨b, ownOther, givenOther⟩ : ∃ b, owed i.other = [b] ∧ gives b = some m := by
        have owe := owes i.other
        rw [underway] at owe
        exact owe
      refine ⟨fun j => paired j ++ (if j = i then [a] else [b]), fun _ => [], ?_, ?_, ?_⟩
      · intro j
        have before := split j
        rcases Side.eq_or_eq_other i j with rfl | rfl
        · simp [work_concat, before, none_]
        · simp [work_concat, before, ownOther, Side.other_ne, (Side.other_ne i).symm]
      · intro j
        rcases Side.eq_or_eq_other i j with rfl | rfl
        · simp [Owes, free, (Side.other_ne j).symm]
        · simp [Owes]
      · have last : Faces gives takes a b := .inr ⟨m, givenOther, given, taken⟩
        apply (dual_iff i).mpr
        simpa [Side.other_ne] using List.rel_append ((dual_iff i).mp dual) (.cons last .nil)

/-- What holds at any moment of any run. -/
theorem met_of_run (run : Run (Step gives takes) (fun _ => none) es under) :
    Met gives takes (work es) under := by
  refine run.history (fun es under => Met gives takes (work es) under) ?_ ?_
  · exact ⟨fun _ => [], fun _ => [], by simp [work], by simp [Owes], .nil⟩
  · intro es under e under' met step
    exact met.step step

/-- When nothing is under way, the two lists face each other. -/
theorem dual_of_run (run : Run (Step gives takes) (fun _ => none) es fun _ => none) :
    Dual gives takes (work es) := by
  obtain ⟨paired, owed, split, owes, dual⟩ := met_of_run run
  have all : (work es) = paired := by
    funext i
    have owe : owed i = [] := owes i
    rw [split i, owe, List.append_nil]
  rw [all]
  exact dual

theorem owes_nil {o : Option μ} (owes : Owes gives o []) : o = none := by
  cases o with
  | none => rfl
  | some m =>
      obtain ⟨a, same, -⟩ := owes
      cases same

/-- A side that owes nothing has its next action before it; one that does is just behind it. -/
theorem Owes.next {o : Option μ} {owed rest as : List α} {a : α} (owes : Owes gives o owed)
    (split : owed ++ rest = a :: as) :
    o = none ∧ owed = [] ∧ rest = a :: as ∨ ∃ m, o = some m ∧ gives a = some m ∧ owed = [a] ∧ rest = as := by
  cases o with
  | none =>
      cases owes
      exact .inl ⟨rfl, rfl, split⟩
  | some m =>
      obtain ⟨a', rfl, given⟩ := owes
      cases split
      exact .inr ⟨m, rfl, given, rfl, rfl⟩

/-- As long as the parties follow lists that face each other, one of them can go on. -/
theorem Met.progress {script : Side → List α} (met : Met gives takes (work es) under)
    (dual : Dual gives takes script) (follows : ∀ i, work es i <+: script i) :
    under = (fun _ => none) ∧ work es = script ∨
      ∃ e under', Step gives takes under e under' ∧ ∀ i, work (es ++ [e]) i <+: script i := by
  obtain ⟨paired, owed, split, owes, dual'⟩ := met
  choose rest whole using follows
  have sorted : ∀ i, script i = paired i ++ (owed i ++ rest i) := by
    intro i
    rw [← whole i, split i, List.append_assoc]
  -- what is left of the lists faces each other as well
  have left : ∀ i, List.Forall₂ (Faces gives takes) (owed i ++ rest i) (owed i.other ++ rest i.other) := by
    intro i
    have all := (dual_iff i).mp dual
    have lengths := ((dual_iff i).mp dual').length_eq
    rw [sorted i, sorted i.other] at all
    have behind := List.forall₂_drop_append _ _ _ all
    rwa [← lengths, List.drop_left] at behind
  have extended : ∀ {i : Side} {a : α} {as : List α}, owed i = [] → rest i = a :: as →
      ∀ j, work (es ++ [(i, a)]) j <+: script j := by
    intro i a as nothing next j
    rw [work_concat]
    by_cases same : i = j
    · subst same
      simp [sorted, split, nothing, next]
    · simp [same, sorted, split]
  cases ahead : owed .left ++ rest .left with
  | nil =>
      have behind : owed .right ++ rest .right = [] := by
        have both := left .left
        rw [ahead] at both
        exact List.forall₂_nil_left_iff.mp both
      have empty : ∀ i, owed i = [] ∧ rest i = [] := by
        intro i
        cases i with
        | left => exact List.append_eq_nil_iff.mp ahead
        | right => exact List.append_eq_nil_iff.mp behind
      left
      constructor
      · funext i
        exact owes_nil ((empty i).1 ▸ owes i)
      · funext i
        rw [sorted, split, (empty i).1, (empty i).2]
        simp
  | cons a as =>
      right
      -- the side that gives is `i`
      obtain ⟨i, a, b, as, bs, m, giving, taking, given, waits, taken⟩ : ∃ i a b as bs m,
          owed i ++ rest i = a :: as ∧ owed i.other ++ rest i.other = b :: bs ∧
          gives a = some m ∧ gives b = none ∧ takes b m := by
        have both := left .left
        rw [ahead] at both
        obtain ⟨b, bs, faces, -, behind⟩ := List.forall₂_cons_left_iff.mp both
        rcases faces with ⟨m, given, waits, taken⟩ | ⟨m, given, waits, taken⟩
        · exact ⟨.left, a, b, as, bs, m, ahead, behind, given, waits, taken⟩
        · exact ⟨.right, b, a, bs, as, m, behind, ahead, given, waits, taken⟩
      rcases (owes i).next giving with ⟨free, nothing, next⟩ | ⟨m', sent, given', -, -⟩
      · exact ⟨_, _, step_give free given, extended nothing next⟩
      · cases given.symm.trans given'
        rcases (owes i.other).next taking with ⟨free, nothing, next⟩ | ⟨m'', -, given'', -⟩
        · exact ⟨_, _, step_take free waits sent taken, extended nothing next⟩
        · cases waits.symm.trans given''

/-- Lists that face each other are worked off whatever was done first. -/
theorem exists_completion {script : Side → List α} (dual : Dual gives takes script)
    (run : Run (Step gives takes) (fun _ => none) es under) (follows : ∀ i, work es i <+: script i) :
    ∃ es', Run (Step gives takes) (fun _ => none) (es ++ es') (fun _ => none) ∧
      work (es ++ es') = script := by
  -- each action brings one of the two lists closer to its end
  obtain ⟨n, enough⟩ : ∃ n, (script .left).length + (script .right).length ≤
      (work es .left).length + (work es .right).length + n := ⟨_, Nat.le_add_left ..⟩
  induction n generalizing es under with
  | zero =>
      rcases (met_of_run run).progress dual follows with ⟨rfl, done⟩ | ⟨e, under', -, further⟩
      · exact ⟨[], by simpa using run, by simpa using done⟩
      · have left := (further .left).length_le
        have right := (further .right).length_le
        simp only [work_concat] at left right
        obtain ⟨i, a⟩ := e
        cases i <;> simp at left right <;> omega
  | succ n ih =>
      rcases (met_of_run run).progress dual follows with ⟨rfl, done⟩ | ⟨e, under', step, further⟩
      · exact ⟨[], by simpa using run, by simpa using done⟩
      · obtain ⟨es', completed, done⟩ := ih (run.next step) further (by
          obtain ⟨i, a⟩ := e
          cases i <;> simp [work_concat] <;> omega)
        exact ⟨e :: es', by simpa using completed, by simpa using done⟩

end Rendezvous

end Simterpose.Lib
