import Mathlib.Algebra.BigOperators.Group.List.Basic
import Mathlib.Data.List.Dedup

/-!
# Sums by group

The rows of a `GROUP BY`, each group under its key: what the groups add up to is what the rows add up to, for any choice
of the groups.
-/

namespace Framework

variable {ρ κ R : Type*} [DecidableEq κ] [AddCommMonoid R]

theorem sum_filter_split {p q : ρ → Bool} (h : ∀ r, p r → q r = false) (f : ρ → R) (rows : List ρ) :
    ((rows.filter fun r => p r || q r).map f).sum = ((rows.filter p).map f).sum + ((rows.filter q).map f).sum := by
  induction rows with
  | nil => simp
  | cons r rows ih =>
    by_cases hp : p r = true
    · simp [hp, h r hp, ih, add_assoc]
    · by_cases hq : q r = true
      · simp [hp, hq, ih, add_left_comm]
      · simp [hp, hq, ih]

theorem sum_groups (key : ρ → κ) (f : ρ → R) (rows : List ρ) {keys : List κ} (hkeys : keys.Nodup) :
    (keys.map fun k => ((rows.filter fun r => key r = k).map f).sum).sum =
      ((rows.filter fun r => key r ∈ keys).map f).sum := by
  induction keys with
  | nil => simp
  | cons k keys ih =>
    obtain ⟨hk, hrest⟩ := List.nodup_cons.mp hkeys
    have hsplit : ∀ r, decide (key r = k) = true → decide (key r ∈ keys) = false := by
      intro r hr
      simpa [of_decide_eq_true hr] using hk
    rw [List.map_cons, List.sum_cons, ih hrest, ← sum_filter_split hsplit]
    simp [← Bool.decide_or]

/-- All the groups of the rows whose keys are chosen. -/
theorem sum_chosen_groups (key : ρ → κ) (f : ρ → R) (chosen : κ → Bool) (rows : List ρ) :
    (((rows.map key).dedup.filter chosen).map fun k => ((rows.filter fun r => key r = k).map f).sum).sum =
      ((rows.filter fun r => chosen (key r)).map f).sum := by
  rw [sum_groups key f rows ((List.nodup_dedup _).filter chosen)]
  congr 2
  apply List.filter_congr
  intro r hr
  have hmem : key r ∈ rows.map key := List.mem_map_of_mem hr
  simpa [List.mem_filter] using fun _ => ⟨r, hr, rfl⟩

end Framework
