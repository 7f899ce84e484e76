import Mathlib.Data.List.Induction
import Mathlib.Data.Option.Basic
import Mathlib.Order.Basic

/-!
# Machines that take events

A machine is a partial step function `step : σ → ε → Option σ`: the event `e` may happen in the
state `s` when `step s e` is `some`, and the state after it is that value.  A run is a list of
events, and `Reachable step s₀ s` says that some run leads from `s₀` to `s`.  Runs compose, and an
invariant of the steps holds in every reachable state.  `ReachableBy` allows only events that have a
property.

`Along` says a property of each event of a run, and what the steps keep that have the property holds
after the run.  When every step lowers a measure, runs are no longer than the measure of the state
they start in, and each leads on to a state in which no event may happen.  A goal that allows such
a step as long as it is not met can be met.
-/

namespace Machine

variable {σ ε : Type*}

/-- The state after a list of events, or `none` when one of them is refused. -/
def run (step : σ → ε → Option σ) : σ → List ε → Option σ
  | s, [] => some s
  | s, e :: es => (step s e).bind fun s' => run step s' es

/-- Some run leads from `s₀` to `s`. -/
def Reachable (step : σ → ε → Option σ) (s₀ s : σ) : Prop := ∃ es, run step s₀ es = some s

/-- The property holds of every event of the run, with the events and the state before it. -/
def Along (step : σ → ε → Option σ) (s₀ : σ) (P : List ε → σ → ε → Prop) (es : List ε) : Prop :=
  ∀ before e after s, es = before ++ e :: after → run step s₀ before = some s → P before s e

/-- No event may happen. -/
def Stuck (step : σ → ε → Option σ) (s : σ) : Prop := ∀ e, step s e = none

variable {step : σ → ε → Option σ} {s₀ s s' : σ}

@[simp] theorem run_nil : run step s [] = some s := rfl

@[simp] theorem run_cons (e : ε) (es : List ε) :
    run step s (e :: es) = (step s e).bind fun s' => run step s' es := rfl

theorem run_append (es fs : List ε) :
    run step s (es ++ fs) = (run step s es).bind fun s' => run step s' fs := by
  induction es generalizing s with
  | nil => rfl
  | cons e es ih =>
    rw [List.cons_append, run_cons, run_cons]
    cases step s e with
    | none => rfl
    | some s' => exact ih

theorem run_concat (es : List ε) (e : ε) :
    run step s (es ++ [e]) = (run step s es).bind fun s' => step s' e := by
  rw [run_append]
  congr 1
  funext s'
  rw [run_cons]
  cases step s' e <;> rfl

theorem Reachable.refl (step : σ → ε → Option σ) (s : σ) : Reachable step s s := ⟨[], rfl⟩

theorem Reachable.trans {s₁ : σ} (h₁ : Reachable step s₀ s₁) (h₂ : Reachable step s₁ s) :
    Reachable step s₀ s := by
  obtain ⟨es, hes⟩ := h₁
  obtain ⟨fs, hfs⟩ := h₂
  exact ⟨es ++ fs, by rw [run_append, hes, Option.bind_some, hfs]⟩

theorem Reachable.single {e : ε} (h : step s e = some s') : Reachable step s s' :=
  ⟨[e], by simp [h]⟩

/-- Some run of events that have a property leads from `s₀` to `s`. -/
def ReachableBy (step : σ → ε → Option σ) (p : ε → Prop) (s₀ s : σ) : Prop :=
  ∃ es, run step s₀ es = some s ∧ ∀ e ∈ es, p e

section ReachableBy

variable {p : ε → Prop}

theorem ReachableBy.refl (step : σ → ε → Option σ) (p : ε → Prop) (s : σ) :
    ReachableBy step p s s := ⟨[], rfl, List.forall_mem_nil p⟩

theorem ReachableBy.trans {s₁ : σ} (h₁ : ReachableBy step p s₀ s₁)
    (h₂ : ReachableBy step p s₁ s) : ReachableBy step p s₀ s := by
  obtain ⟨es, hes, hp⟩ := h₁
  obtain ⟨fs, hfs, hp'⟩ := h₂
  refine ⟨es ++ fs, by rw [run_append, hes, Option.bind_some, hfs], ?_⟩
  rw [List.forall_mem_append]
  exact ⟨hp, hp'⟩

theorem ReachableBy.single {e : ε} (h : step s e = some s') (he : p e) :
    ReachableBy step p s s' :=
  ⟨[e], by simp [h], List.forall_mem_singleton.2 he⟩

theorem ReachableBy.reachable (h : ReachableBy step p s₀ s) : Reachable step s₀ s :=
  h.imp fun _ => And.left

end ReachableBy

/-- An invariant of the initial state that every step keeps holds after every run. -/
theorem invariant_run (Inv : σ → Prop) (hstep : ∀ s e s', Inv s → step s e = some s' → Inv s')
    (es : List ε) (h₀ : Inv s₀) (h : run step s₀ es = some s) : Inv s := by
  induction es generalizing s₀ with
  | nil =>
    cases h
    exact h₀
  | cons e es ih =>
    rw [run_cons, Option.bind_eq_some_iff] at h
    obtain ⟨s₁, hs₁, h⟩ := h
    exact ih (hstep s₀ e s₁ h₀ hs₁) h

/-- An invariant holds in every reachable state. -/
theorem Reachable.invariant (Inv : σ → Prop) (h₀ : Inv s₀)
    (hstep : ∀ s e s', Inv s → step s e = some s' → Inv s') (h : Reachable step s₀ s) : Inv s := by
  obtain ⟨es, hes⟩ := h
  exact invariant_run Inv hstep es h₀ hes

/-! ## Properties along a run -/

section Along

variable {P Q : List ε → σ → ε → Prop} {es fs : List ε} {e : ε}

theorem along_nil : Along step s₀ P [] := by
  intro before e after s hes
  simp at hes

theorem Along.of_append (h : Along step s₀ P (es ++ fs)) : Along step s₀ P es := by
  intro before e after s hes hs
  exact h before e (after ++ fs) s (by rw [hes, List.append_assoc, List.cons_append]) hs

theorem Along.last (h : Along step s₀ P (es ++ [e])) (hs : run step s₀ es = some s) : P es s e :=
  h es e [] s rfl hs

theorem Along.concat (h : Along step s₀ P es) (hlast : ∀ s, run step s₀ es = some s → P es s e) :
    Along step s₀ P (es ++ [e]) := by
  intro before e' after s hes hs
  rcases List.eq_nil_or_concat after with rfl | ⟨after, e'', rfl⟩
  · obtain ⟨rfl, hlast'⟩ := List.append_inj' hes rfl
    obtain rfl : e = e' := by simpa using hlast'
    exact hlast s hs
  · rw [List.concat_eq_append, ← List.cons_append, ← List.append_assoc] at hes
    exact h before e' after s (List.append_inj' hes rfl).1 hs

theorem Along.mono (h : Along step s₀ P es) (himp : ∀ before s e, P before s e → Q before s e) :
    Along step s₀ Q es :=
  fun before e after s hes hs => himp before s e (h before e after s hes hs)

theorem Along.and (hP : Along step s₀ P es) (hQ : Along step s₀ Q es) :
    Along step s₀ (fun before s e => P before s e ∧ Q before s e) es :=
  fun before e after s hes hs => ⟨hP before e after s hes hs, hQ before e after s hes hs⟩

/-- An invariant of the events and the state that every step keeps which has the property. -/
theorem Along.invariant (Inv : List ε → σ → Prop) (h₀ : Inv [] s₀)
    (hstep : ∀ before s e s', Inv before s → P before s e → step s e = some s' →
      Inv (before ++ [e]) s')
    (h : Along step s₀ P es) (hs : run step s₀ es = some s) : Inv es s := by
  induction es using List.reverseRecOn generalizing s with
  | nil =>
    cases hs
    exact h₀
  | append_singleton es e ih =>
    rw [run_concat, Option.bind_eq_some_iff] at hs
    obtain ⟨s', hs', hs⟩ := hs
    exact hstep es s' e s (ih h.of_append hs') (h.last hs') hs

/-- An invariant of the events and the state that every step keeps. -/
theorem invariant_events (Inv : List ε → σ → Prop) (h₀ : Inv [] s₀)
    (hstep : ∀ before s e s', Inv before s → step s e = some s' → Inv (before ++ [e]) s')
    (hs : run step s₀ es = some s) : Inv es s := by
  have hall : Along step s₀ (fun _ _ _ => True) es := fun _ _ _ _ _ _ => trivial
  exact hall.invariant Inv h₀ (fun before s e s' hinv _ => hstep before s e s' hinv) hs

/-- A property along a run that follows from another one, with what that one keeps. -/
theorem Along.imp (Inv : List ε → σ → Prop) (h₀ : Inv [] s₀)
    (hstep : ∀ before s e s', Inv before s → P before s e → step s e = some s' →
      Inv (before ++ [e]) s')
    (himp : ∀ before s e, Inv before s → P before s e → Q before s e) (h : Along step s₀ P es) :
    Along step s₀ Q es := by
  intro before e after s hes hs
  have hbefore : Along step s₀ P before := (hes ▸ h).of_append
  exact himp before s e (hbefore.invariant Inv h₀ hstep hs) (h before e after s hes hs)

/-- Two properties that are the same where an invariant of all steps holds. -/
theorem along_congr (Inv : List ε → σ → Prop) (h₀ : Inv [] s₀)
    (hstep : ∀ before s e s', Inv before s → step s e = some s' → Inv (before ++ [e]) s')
    (hiff : ∀ before s e, Inv before s → (P before s e ↔ Q before s e)) :
    Along step s₀ P es ↔ Along step s₀ Q es := by
  constructor
  · exact Along.imp Inv h₀ (fun before s e s' hinv _ => hstep before s e s' hinv)
      (fun before s e hinv => (hiff before s e hinv).1)
  · exact Along.imp Inv h₀ (fun before s e s' hinv _ => hstep before s e s' hinv)
      (fun before s e hinv => (hiff before s e hinv).2)

end Along

/-! ## Termination -/

section Measure

variable {μ : σ → ℕ} (hμ : ∀ s e s', step s e = some s' → μ s' < μ s)

include hμ

/-- A run is no longer than what it takes off the measure. -/
theorem length_run_add_le {es : List ε} (h : run step s es = some s') :
    es.length + μ s' ≤ μ s := by
  induction es generalizing s with
  | nil =>
    cases h
    simp
  | cons e es ih =>
    rw [run_cons, Option.bind_eq_some_iff] at h
    obtain ⟨s₁, hs₁, h⟩ := h
    have hlt := hμ s e s₁ hs₁
    have hle := ih h
    rw [List.length_cons]
    omega

/-- Every state leads on to one in which no event may happen. -/
theorem exists_stuck (s : σ) : ∃ s', Reachable step s s' ∧ Stuck step s' := by
  induction hn : μ s using Nat.strongRecOn generalizing s with
  | ind n ih =>
    by_cases hstuck : Stuck step s
    · exact ⟨s, .refl step s, hstuck⟩
    · simp only [Stuck, not_forall] at hstuck
      obtain ⟨e, he⟩ := hstuck
      obtain ⟨s₁, hs₁⟩ := Option.ne_none_iff_exists'.1 he
      obtain ⟨s', hs', hstuck'⟩ := ih (μ s₁) (hn ▸ hμ s e s₁ hs₁) s₁ rfl
      exact ⟨s', (Reachable.single hs₁).trans hs', hstuck'⟩

end Measure

/-- Where a goal that is not met allows a step that keeps an invariant and lowers a measure, the
goal can be met. -/
theorem Reachable.exists_goal (Inv Goal : σ → Prop) (μ : σ → ℕ)
    (hstep : ∀ s, Inv s → ¬Goal s → ∃ e s', step s e = some s' ∧ Inv s' ∧ μ s' < μ s)
    (h₀ : Inv s₀) : ∃ s, Reachable step s₀ s ∧ Inv s ∧ Goal s := by
  induction hn : μ s₀ using Nat.strongRecOn generalizing s₀ with
  | ind n ih =>
    by_cases hgoal : Goal s₀
    · exact ⟨s₀, .refl step s₀, h₀, hgoal⟩
    · obtain ⟨e, s₁, hs₁, hinv, hlt⟩ := hstep s₀ h₀ hgoal
      obtain ⟨s, hs, hs'⟩ := ih (μ s₁) (hn ▸ hlt) hinv rfl
      exact ⟨s, (Reachable.single hs₁).trans hs, hs'⟩

end Machine
