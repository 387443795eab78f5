import Mathlib.Logic.Basic

/-! # Taking successful computations apart

A computation in `Except` that succeeded is a chain of steps that succeeded. -/

namespace Simterpose.Lib

universe u v

variable {ε : Type u} {α β : Type v}

theorem bind_eq_ok {x : Except ε α} {f : α → Except ε β} {b : β} :
    x >>= f = .ok b ↔ ∃ a, x = .ok a ∧ f a = .ok b := by
  cases x with
  | error e => simp [bind, Except.bind]
  | ok a => simp [bind, Except.bind]

theorem pure_eq_ok {a b : α} : (pure a : Except ε α) = .ok b ↔ a = b := by
  simp [pure, Except.pure]

theorem bind_pure_eq_ok {x : Except ε α} {f : α → β} {b : β} :
    (x >>= fun a => pure (f a)) = .ok b ↔ ∃ a, x = .ok a ∧ f a = b := by
  simp only [bind_eq_ok, pure_eq_ok]

theorem map_eq_ok {x : Except ε α} {f : α → β} {b : β} : x.map f = .ok b ↔ ∃ a, x = .ok a ∧ f a = b := by
  cases x with
  | error e => simp [Except.map]
  | ok a => simp [Except.map]

theorem eq_ok_of_mem_toOption {x : Except ε α} {a : α} (mem : a ∈ x.toOption) : x = .ok a := by
  cases x with
  | error e => simp [Except.toOption] at mem
  | ok b => simpa [Except.toOption] using mem

/-- Every result of a computation that succeeds satisfies `Q`. -/
def Ensures (x : Except ε α) (Q : α → Prop) : Prop := ∀ a, x = .ok a → Q a

namespace Ensures

theorem ok {a : α} {Q : α → Prop} (holds : Q a) : Ensures (.ok a : Except ε α) Q := by
  rintro _ ⟨⟩
  exact holds

theorem error {e : ε} {Q : α → Prop} : Ensures (.error e) Q := by
  intro a none
  cases none

theorem bind {x : Except ε α} {f : α → Except ε β} {P : α → Prop} {Q : β → Prop}
    (first : Ensures x P) (rest : ∀ a, P a → Ensures (f a) Q) : Ensures (x >>= f) Q := by
  intro b succeeded
  obtain ⟨a, done, finished⟩ := bind_eq_ok.mp succeeded
  exact rest a (first a done) b finished

/-- Nothing about the first computation matters. -/
theorem after {x : Except ε α} {f : α → Except ε β} {Q : β → Prop}
    (rest : ∀ a, Ensures (f a) Q) : Ensures (x >>= f) Q :=
  bind (P := fun _ => True) (fun _ _ => trivial) fun a _ => rest a

end Ensures

/-- Whenever both computations succeed, their results are related. -/
def Relates {α' : Type v} (R : α → α' → Prop) (x : Except ε α) (y : Except ε α') : Prop :=
  ∀ a b, x = .ok a → y = .ok b → R a b

namespace Relates

variable {α' β' : Type v} {R : α → α' → Prop} {S : β → β' → Prop}

theorem ok {a : α} {b : α'} (related : R a b) : Relates R (.ok a : Except ε α) (.ok b) := by
  rintro _ _ ⟨⟩ ⟨⟩
  exact related

theorem error_left {e : ε} {y : Except ε α'} : Relates R (.error e) y := by
  intro a b none
  cases none

theorem bind {x : Except ε α} {y : Except ε α'} {f : α → Except ε β} {g : α' → Except ε β'}
    (first : Relates R x y) (rest : ∀ a b, R a b → Relates S (f a) (g b)) :
    Relates S (x >>= f) (y >>= g) := by
  intro a b left right
  obtain ⟨a₁, left₁, left⟩ := bind_eq_ok.mp left
  obtain ⟨b₁, right₁, right⟩ := bind_eq_ok.mp right
  exact rest a₁ b₁ (first a₁ b₁ left₁ right₁) a b left right

end Relates

/-- What the results of a computation for each of some values say, when each of them says it. -/
theorem map_of_mapM {γ : Type v} {f : α → Except ε β} {measure : β → γ} {report : α → γ}
    {as : List α} {bs : List β} (reports : ∀ a ∈ as, ∀ b, f a = .ok b → measure b = report a)
    (answered : as.mapM f = .ok bs) : bs.map measure = as.map report := by
  induction as generalizing bs with
  | nil =>
      cases pure_eq_ok.mp answered
      rfl
  | cons a as ih =>
      rw [List.mapM_cons] at answered
      obtain ⟨b, first, answered⟩ := bind_eq_ok.mp answered
      obtain ⟨rest, others, rfl⟩ := bind_pure_eq_ok.mp answered
      rw [List.forall_mem_cons] at reports
      rw [List.map_cons, List.map_cons, reports.1 b first, ih reports.2 others]

end Simterpose.Lib
