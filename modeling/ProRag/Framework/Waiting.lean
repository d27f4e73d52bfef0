import Mathlib.Algebra.Order.Group.Defs
import Mathlib.Algebra.BigOperators.Group.List.Basic
import ProRag.Framework.Runs

/-!
# Waiting

What is awaited along a run has come at its end, or each step of the run was one that leaves the wait as it is and has
been paid for out of a potential.
-/

namespace Framework

variable {σ α R : Type*} [AddCommMonoid R] [PartialOrder R] [IsOrderedAddMonoid R]
variable {step : σ → α → Option σ} {guard : σ → α → Prop}

theorem runSteps_kept {Inv : σ → Prop} (hs : ∀ s a s', Inv s → step s a = some s' → Inv s') {s s' : σ} {as : List α}
    (h0 : Inv s) (hr : runSteps step s as = some s') : Inv s' := by
  induction as generalizing s with
  | nil =>
    obtain rfl := Option.some.inj hr
    exact h0
  | cons a as ih =>
    obtain ⟨t, ht, hr⟩ := runSteps_cons.mp hr
    exact ih (hs s a t h0 ht) hr

/-- The steps of a wait, each of which it allows and pays for. -/
theorem Guarded.awaits (Waits Done : σ → Prop) (allowed : α → Prop) (due : σ → R) (cost gain : α → R)
    (hdone : ∀ s a s', Done s → step s a = some s' → Done s')
    (hstep : ∀ s a s', Waits s → guard s a → step s a = some s' →
      Done s' ∨ (Waits s' ∧ allowed a ∧ due s' + cost a ≤ due s + gain a))
    {s s' : σ} {as : List α} (h : Waits s) (hg : Guarded step guard s as) (hr : runSteps step s as = some s') :
    Done s' ∨ (Waits s' ∧ (∀ a ∈ as, allowed a) ∧ due s' + (as.map cost).sum ≤ due s + (as.map gain).sum) := by
  induction as generalizing s with
  | nil =>
    obtain rfl := Option.some.inj hr
    exact Or.inr ⟨h, by simp, le_rfl⟩
  | cons a as ih =>
    obtain ⟨t, ht, hrest⟩ := runSteps_cons.mp hr
    rcases hstep s a t h hg.1 ht with hcome | ⟨hwaits, hallowed, hpaid⟩
    · exact Or.inl (runSteps_kept hdone hcome hrest)
    · rcases ih hwaits (hg.2 t ht) hrest with hcome | ⟨hwaits', hall, hsum⟩
      · exact Or.inl hcome
      · refine Or.inr ⟨hwaits', ?_, ?_⟩
        · intro b hb
          rcases List.mem_cons.mp hb with rfl | hb
          · exact hallowed
          · exact hall b hb
        · simp only [List.map_cons, List.sum_cons]
          calc due s' + (cost a + (as.map cost).sum) = (due s' + (as.map cost).sum) + cost a := by
                rw [add_comm (cost a), add_assoc]
            _ ≤ (due t + (as.map gain).sum) + cost a := add_le_add_left hsum _
            _ = (due t + cost a) + (as.map gain).sum := by rw [add_right_comm]
            _ ≤ (due s + gain a) + (as.map gain).sum := add_le_add_left hpaid _
            _ = due s + (gain a + (as.map gain).sum) := add_assoc _ _ _

end Framework
