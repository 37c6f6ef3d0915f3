import Mathlib.Algebra.GroupWithZero.Nat
import Mathlib.Data.List.Basic

/-!
# Labelled transition systems with observable events

A step is a partial function of the state and a label, so a schedule (the list of
labels) determines the run and can be executed. Every step also reports the events
an observer sees; statements about whole runs speak of the concatenated events.
Runs carry a condition on their steps, which is how assumptions on the environment
(no allocation fails, no timeout fires) enter a theorem.
-/

/-- A labelled transition system: `none` means that the label is not enabled. -/
structure TransitionSystem (σ α ε : Type*) where
  step : σ → α → Option (σ × List ε)

namespace TransitionSystem

variable {σ α ε : Type*} (M : TransitionSystem σ α ε)

/-- Finite runs from `s₀` all of whose steps meet `P`, with the events they report. -/
inductive Run (P : σ → α → Prop) (s₀ : σ) : List ε → σ → Prop
  | refl : Run P s₀ [] s₀
  | tail {es fs : List ε} {s t : σ} {a : α} :
      Run P s₀ es s → P s a → M.step s a = some (t, fs) → Run P s₀ (es ++ fs) t

/-- A run whose steps are unconstrained. -/
abbrev Reaches (s₀ : σ) (es : List ε) (s : σ) : Prop := M.Run (fun _ _ => True) s₀ es s

/-- Executable counterpart of `Run`: follow a schedule, checking `P` at every step. -/
def exec (P : σ → α → Prop) [∀ s a, Decidable (P s a)] : σ → List α → Option (σ × List ε)
  | s, [] => some (s, [])
  | s, a :: as =>
    if P s a then
      match M.step s a with
      | none => none
      | some (t, es) => (exec P t as).map fun r => (r.1, es ++ r.2)
    else none

variable {M} {P Q : σ → α → Prop} {s₀ s t : σ} {es fs : List ε}

theorem Run.single {a : α} (hp : P s a) (h : M.step s a = some (t, fs)) : M.Run P s fs t := by
  simpa using Run.tail Run.refl hp h

theorem Run.trans (h : M.Run P s₀ es s) (h' : M.Run P s fs t) : M.Run P s₀ (es ++ fs) t := by
  induction h' with
  | refl => simpa using h
  | tail _ hp hs ih => simpa [List.append_assoc] using Run.tail ih hp hs

theorem Run.mono (hpq : ∀ s a, P s a → Q s a) (h : M.Run P s₀ es s) : M.Run Q s₀ es s := by
  induction h with
  | refl => exact Run.refl
  | tail _ hp hs ih => exact Run.tail ih (hpq _ _ hp) hs

theorem Run.reaches (h : M.Run P s₀ es s) : M.Reaches s₀ es s :=
  h.mono fun _ _ _ => trivial

theorem Run.of_exec [∀ s a, Decidable (P s a)] {as : List α}
    (h : M.exec P s as = some (t, es)) : M.Run P s es t := by
  induction as generalizing s es with
  | nil =>
    simp only [exec, Option.some.injEq, Prod.mk.injEq] at h
    obtain ⟨rfl, rfl⟩ := h
    exact Run.refl
  | cons a as ih =>
    simp only [exec] at h
    split_ifs at h with hp
    cases hs : M.step s a with
    | none => simp [hs] at h
    | some r =>
      obtain ⟨u, gs⟩ := r
      cases hr : M.exec P u as with
      | none => simp [hs, hr] at h
      | some r' =>
        simp only [hs, hr, Option.map_some, Option.some.injEq, Prod.mk.injEq] at h
        obtain ⟨rfl, rfl⟩ := h
        exact (Run.single hp hs).trans (ih hr)

/-- A schedule that can be followed is a run. -/
theorem Run.of_schedule [∀ s a, Decidable (P s a)] (as : List α)
    (h : (M.exec P s as).isSome = true) :
    M.Run P s ((M.exec P s as).get h).2 ((M.exec P s as).get h).1 :=
  Run.of_exec (Option.some_get h).symm

/-- The invariant rule: what holds initially and survives every step holds of every
run, of its events and its last state together. -/
theorem Run.invariant {I : List ε → σ → Prop} (h : M.Run P s₀ es s) (h₀ : I [] s₀)
    (hstep : ∀ es s a t fs, I es s → P s a → M.step s a = some (t, fs) → I (es ++ fs) t) :
    I es s := by
  induction h with
  | refl => exact h₀
  | tail _ hp hs ih => exact hstep _ _ _ _ _ ih hp hs

/-- The invariant rule for a property of states. -/
theorem Run.stable {I : σ → Prop} (h : M.Run P s₀ es s) (h₀ : I s₀)
    (hstep : ∀ s a t fs, I s → P s a → M.step s a = some (t, fs) → I t) : I s :=
  h.invariant (I := fun _ s => I s) h₀ fun _ s a t fs => hstep s a t fs

/-- What holds of the states of a run may be assumed at its steps. -/
theorem Run.attach {J : σ → Prop} (h : M.Run P s₀ es s) (hJ : ∀ es s, M.Run P s₀ es s → J s) :
    M.Run (fun s a => P s a ∧ J s) s₀ es s := by
  induction h with
  | refl => exact Run.refl
  | tail hrun hp hs ih => exact Run.tail ih ⟨hp, hJ _ _ hrun⟩ hs

section Monitor

variable {μ : Type*} (record : μ → ε → μ)

/-- The invariant rule for a monitor that reads the events in order. -/
theorem Run.monitored {I : μ → σ → Prop} {m₀ : μ} (h : M.Run P s₀ es s) (h₀ : I m₀ s₀)
    (hstep : ∀ m s a t fs, I m s → P s a → M.step s a = some (t, fs) →
      I (fs.foldl record m) t) : I (es.foldl record m₀) s := by
  refine h.invariant (I := fun es s => I (es.foldl record m₀) s) h₀ ?_
  intro es s a t fs hi hp hs
  rw [List.foldl_append]
  exact hstep _ s a t fs hi hp hs

end Monitor

section Observed

/-- The system together with what has been observed so far, so that a condition on a step
may speak of the past. -/
def observed (M : TransitionSystem σ α ε) : TransitionSystem (List ε × σ) α ε where
  step x a := (M.step x.2 a).map fun r => ((x.1 ++ r.2, r.1), r.2)

variable {O : List ε × σ → α → Prop} {x : List ε × σ}

theorem observed_step {a : α} {y : List ε × σ} (h : M.observed.step x a = some (y, fs)) :
    M.step x.2 a = some (y.2, fs) ∧ y.1 = x.1 ++ fs := by
  simp only [observed, Option.map_eq_some_iff] at h
  obtain ⟨r, hr, h⟩ := h
  cases h
  exact ⟨hr, rfl⟩

/-- What has been observed are the events of the run. -/
theorem Run.observed_history (h : M.observed.Run O ([], s₀) es x) : x.1 = es :=
  h.invariant (I := fun es x => x.1 = es) rfl fun es x a y fs hi _ hs => by
    rw [(observed_step hs).2, hi]

theorem Run.unobserved (h : M.observed.Run O ([], s₀) es x) : M.Reaches s₀ es x.2 :=
  h.invariant (I := fun es x => M.Reaches s₀ es x.2) Run.refl fun _ _ _ _ _ hi _ hs =>
    Run.tail hi trivial (observed_step hs).1

end Observed

section Stepwise

/-- A step that has been taken. -/
structure Taken (σ α ε : Type*) where
  before : σ
  action : α
  after : σ
  events : List ε

/-- The system that reports the steps it takes, for statements about all steps of one run. -/
def stepwise (M : TransitionSystem σ α ε) : TransitionSystem σ α (Taken σ α ε) where
  step s a := (M.step s a).map fun r => (r.1, [⟨s, a, r.1, r.2⟩])

variable {taken : List (Taken σ α ε)}

theorem stepwise_step {a : α} {xs : List (Taken σ α ε)} (h : M.stepwise.step s a = some (t, xs)) :
    ∃ fs, M.step s a = some (t, fs) ∧ xs = [⟨s, a, t, fs⟩] := by
  simp only [stepwise, Option.map_eq_some_iff] at h
  obtain ⟨r, hr, h⟩ := h
  cases h
  exact ⟨r.2, hr, rfl⟩

theorem Run.forgets (h : M.stepwise.Run P s₀ taken s) :
    M.Run P s₀ (taken.flatMap Taken.events) s := by
  induction h with
  | refl => exact Run.refl
  | tail _ hp hs ih =>
    obtain ⟨fs, hstep, rfl⟩ := stepwise_step hs
    simpa using Run.tail ih hp hstep

/-- What has been taken are steps of the system, each within the condition. -/
theorem Run.steps (h : M.stepwise.Run P s₀ taken s) :
    ∀ x ∈ taken, P x.before x.action ∧ M.step x.before x.action = some (x.after, x.events) := by
  induction h with
  | refl => simp
  | tail _ hp hs ih =>
    obtain ⟨fs, hstep, rfl⟩ := stepwise_step hs
    intro x hx
    rcases List.mem_append.mp hx with hx | hx
    · exact ih x hx
    · obtain rfl := List.mem_singleton.mp hx
      exact ⟨hp, hstep⟩

/-- A potential bounds the runs: a step that `counts` lowers it, and each step may raise it by
what it gains. -/
theorem Run.spends {I : σ → Prop} (φ : σ → ℕ) (counts : α → Bool) (gain : α → ℕ)
    (h : M.stepwise.Run P s₀ taken s) (h₀ : I s₀)
    (hstep : ∀ s a t es, I s → P s a → M.step s a = some (t, es) →
      I t ∧ (counts a).toNat + φ t ≤ φ s + gain a) :
    I s ∧ taken.countP (fun x => counts x.action) + φ s ≤
      φ s₀ + (taken.map fun x => gain x.action).sum := by
  refine h.invariant (I := fun taken s => I s ∧
    taken.countP (fun x => counts x.action) + φ s ≤
      φ s₀ + (taken.map fun x => gain x.action).sum) ⟨h₀, by simp⟩ ?_
  rintro taken s a t xs ⟨hI, hbound⟩ hp hs
  obtain ⟨fs, hs', rfl⟩ := stepwise_step hs
  obtain ⟨hI', hone⟩ := hstep _ _ _ _ hI hp hs'
  have hcount : ∀ b : Bool, (if b = true then 1 else 0) = b.toNat := by decide
  refine ⟨hI', ?_⟩
  simp only [List.countP_append, List.countP_singleton, hcount, List.map_append, List.map_cons,
    List.map_nil, List.sum_append, List.sum_singleton]
  omega

end Stepwise

section Simulation

variable {τ β δ : Type*} {N : TransitionSystem τ β δ} {R : τ → β → Prop}
variable (f : σ → τ) (g : ε → Option δ)

/-- `M` projects to `N` along `f`: every step of `M` leaves the image unchanged and
reports nothing there, or is a step of `N` that meets `R`. -/
def Projects (M : TransitionSystem σ α ε) (N : TransitionSystem τ β δ)
    (P : σ → α → Prop) (R : τ → β → Prop) (f : σ → τ) (g : ε → Option δ) : Prop :=
  ∀ s a t es, P s a → M.step s a = some (t, es) →
    (f t = f s ∧ es.filterMap g = []) ∨
      ∃ b, R (f s) b ∧ N.step (f s) b = some (f t, es.filterMap g)

/-- Runs follow a projection, so invariants of the target hold of the image. -/
theorem Run.project (hproj : Projects M N P R f g) (h : M.Run P s₀ es s) :
    N.Run R (f s₀) (es.filterMap g) (f s) := by
  induction h with
  | refl => exact Run.refl
  | tail _ hp hs ih =>
    rw [List.filterMap_append]
    rcases hproj _ _ _ _ hp hs with ⟨hf, hg⟩ | ⟨b, hr, hb⟩
    · simpa [hf, hg] using ih
    · exact Run.tail ih hr hb

end Simulation

end TransitionSystem
