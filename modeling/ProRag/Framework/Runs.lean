import Mathlib.Tactic.Basic

/-!
# Runs of a transition system

A system is a partial step function `step : σ → α → Option σ`: action `a` is enabled in
`s` when `step s a` is a state.  A guard restricts which enabled steps a run may take;
the unguarded runs are those of `unguarded`.
-/

namespace Framework

variable {σ α : Type*}

/-- The states reached from `init` by runs all of whose steps meet `guard`. -/
inductive Reaches (step : σ → α → Option σ) (guard : σ → α → Prop) (init : σ → Prop) : σ → Prop
  | start {s : σ} : init s → Reaches step guard init s
  | next {s s' : σ} {a : α} : Reaches step guard init s → guard s a → step s a = some s' →
      Reaches step guard init s'

/-- The guard of the runs without a restriction. -/
def unguarded : σ → α → Prop := fun _ _ => True

variable {step : σ → α → Option σ} {guard guard' : σ → α → Prop} {init init' : σ → Prop}

/-- What holds initially and is kept by every guarded step holds in every state reached. -/
theorem Reaches.invariant (Inv : σ → Prop) (h0 : ∀ s, init s → Inv s)
    (hs : ∀ s a s', Inv s → guard s a → step s a = some s' → Inv s')
    {s : σ} (h : Reaches step guard init s) : Inv s := by
  induction h with
  | start hi => exact h0 _ hi
  | next _ hg ht ih => exact hs _ _ _ ih hg ht

theorem Reaches.mono (hi : ∀ s, init s → init' s) (hg : ∀ s a, guard s a → guard' s a)
    {s : σ} (h : Reaches step guard init s) : Reaches step guard' init' s := by
  induction h with
  | start h0 => exact .start (hi _ h0)
  | next _ ha ht ih => exact .next ih (hg _ _ ha) ht

/-- Run a list of actions; `none` when one of them is not enabled. -/
def runSteps (step : σ → α → Option σ) : σ → List α → Option σ
  | s, [] => some s
  | s, a :: as => (step s a).bind fun s' => runSteps step s' as

/-- Every step of the run of `as` from `s` meets the guard. -/
def Guarded (step : σ → α → Option σ) (guard : σ → α → Prop) : σ → List α → Prop
  | _, [] => True
  | s, a :: as => guard s a ∧ ∀ s', step s a = some s' → Guarded step guard s' as

theorem runSteps_cons {s s' : σ} {a : α} {as : List α} :
    runSteps step s (a :: as) = some s' ↔ ∃ t, step s a = some t ∧ runSteps step t as = some s' := by
  simp [runSteps, Option.bind_eq_some_iff]

theorem Reaches.runSteps {s s' : σ} {as : List α} (h : Reaches step guard init s)
    (hg : Guarded step guard s as) (hr : runSteps step s as = some s') :
    Reaches step guard init s' := by
  induction as generalizing s with
  | nil =>
    obtain rfl : s = s' := by simpa [Framework.runSteps] using hr
    exact h
  | cons a as ih =>
    obtain ⟨t, ht, hr⟩ := runSteps_cons.mp hr
    exact ih (.next h hg.1 ht) (hg.2 t ht) hr

theorem Guarded.cons {s t : σ} {a : α} {as : List α} (hg : guard s a) (ht : step s a = some t)
    (h : Guarded step guard t as) : Guarded step guard s (a :: as) := by
  refine ⟨hg, fun s' hs => ?_⟩
  obtain rfl := Option.some.inj (ht.symm.trans hs)
  exact h

instance Guarded.decidable [∀ s a, Decidable (guard s a)] :
    ∀ (s : σ) (as : List α), Decidable (Guarded step guard s as)
  | _, [] => isTrue trivial
  | s, a :: as =>
    match h : step s a with
    | none => decidable_of_iff (guard s a) ⟨fun hg => ⟨hg, fun s' hs => by rw [h] at hs; cases hs⟩, And.left⟩
    | some t =>
      have := Guarded.decidable t as
      decidable_of_iff (guard s a ∧ Guarded step guard t as)
        ⟨fun hg => .cons hg.1 h hg.2, fun hg => ⟨hg.1, hg.2 t h⟩⟩

/-- A guard that implies another along an invariant does so over whole runs. -/
theorem Guarded.imp (Inv : σ → Prop) (himp : ∀ s a, Inv s → guard s a → guard' s a)
    (hs : ∀ s a s', Inv s → guard s a → step s a = some s' → Inv s') {s : σ} {as : List α} (h0 : Inv s)
    (h : Guarded step guard s as) : Guarded step guard' s as := by
  induction as generalizing s with
  | nil => trivial
  | cons a as ih =>
    obtain ⟨hg, hrest⟩ := h
    exact ⟨himp s a h0 hg, fun s' ht => ih (hs s a s' h0 hg ht) (hrest s' ht)⟩

theorem guarded_unguarded (s : σ) (as : List α) : Guarded step unguarded s as := by
  induction as generalizing s with
  | nil => trivial
  | cons a as ih => exact ⟨trivial, fun s' _ => ih s'⟩

/-- A state found by running a list of actions is reached by an unguarded run. -/
theorem reaches_of_runSteps {s s' : σ} {as : List α} (h : init s)
    (hr : runSteps step s as = some s') : Reaches step unguarded init s' :=
  (Reaches.start h).runSteps (guarded_unguarded s as) hr

end Framework
