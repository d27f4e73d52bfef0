import Mathlib.Analysis.Real.Sqrt
import Mathlib.Tactic.Positivity
import Mathlib.Tactic.Linarith

/-!
# Cosine thresholds without square roots

The cosine of two rational vectors is irrational in general, but whether it clears a
rational floor is decidable: the comparison is squared after a sign split.
-/

namespace Framework

/-- The dot product; surplus components of the longer vector are ignored. -/
def dot (a b : List ℚ) : ℚ :=
  (List.zipWith (· * ·) a b).sum

/-- Decides `floor ≤ x / √n` for a positive `n`. -/
def leDivSqrt (floor x n : ℚ) : Bool :=
  if floor ≤ 0 then decide (0 ≤ x ∨ x * x ≤ floor * floor * n)
  else decide (0 ≤ x ∧ floor * floor * n ≤ x * x)

noncomputable def cosine (a b : List ℚ) : ℝ :=
  (dot a b : ℝ) / (√(dot a a : ℝ) * √(dot b b : ℝ))

theorem dot_self_nonneg (a : List ℚ) : 0 ≤ dot a a := by
  induction a with
  | nil => simp [dot]
  | cons x a ih =>
    simp only [dot, List.zipWith_cons_cons, List.sum_cons] at ih ⊢
    nlinarith [mul_self_nonneg x]

theorem leDivSqrt_iff {floor x n : ℚ} (hn : 0 < n) :
    leDivSqrt floor x n = true ↔ (floor : ℝ) ≤ (x : ℝ) / √(n : ℝ) := by
  have hr : (0 : ℝ) < n := by exact_mod_cast hn
  have hs : 0 < √(n : ℝ) := Real.sqrt_pos.mpr hr
  have hsq : √(n : ℝ) * √(n : ℝ) = n := Real.mul_self_sqrt hr.le
  have hprod : ((floor : ℝ) * √(n : ℝ)) * ((floor : ℝ) * √(n : ℝ)) = floor * floor * n := by
    rw [mul_mul_mul_comm, hsq]
  rw [le_div_iff₀ hs, leDivSqrt]
  by_cases hf : floor ≤ 0
  · have hf' : (floor : ℝ) * √(n : ℝ) ≤ 0 :=
      mul_nonpos_of_nonpos_of_nonneg (by exact_mod_cast hf) hs.le
    rw [if_pos hf, decide_eq_true_eq]
    constructor
    · rintro (hx | hx)
      · exact hf'.trans (by exact_mod_cast hx)
      · by_contra hlt
        have hx' : (x : ℝ) * x ≤ floor * floor * n := by exact_mod_cast hx
        nlinarith
    · intro h
      by_cases hx : 0 ≤ x
      · exact Or.inl hx
      · have hx' : (x : ℝ) < 0 := by exact_mod_cast not_le.mp hx
        have hle : (x : ℝ) * x ≤ floor * floor * n := by nlinarith
        exact Or.inr (by exact_mod_cast hle)
  · have hf' : 0 < (floor : ℝ) * √(n : ℝ) :=
      mul_pos (by exact_mod_cast not_le.mp hf) hs
    rw [if_neg hf, decide_eq_true_eq]
    constructor
    · rintro ⟨hx, hle⟩
      have hx' : (0 : ℝ) ≤ x := by exact_mod_cast hx
      have hle' : (floor : ℝ) * floor * n ≤ x * x := by exact_mod_cast hle
      by_contra hlt
      nlinarith
    · intro h
      have hle : (floor : ℝ) * floor * n ≤ x * x := by nlinarith
      exact ⟨by exact_mod_cast hf'.le.trans h, by exact_mod_cast hle⟩

/-- For vectors of nonzero length the threshold test is the comparison with the cosine. -/
theorem leDivSqrt_cosine (floor : ℚ) {a b : List ℚ} (ha : dot a a ≠ 0) (hb : dot b b ≠ 0) :
    leDivSqrt floor (dot a b) (dot a a * dot b b) = true ↔ (floor : ℝ) ≤ cosine a b := by
  have ha' : 0 < dot a a := lt_of_le_of_ne (dot_self_nonneg a) (Ne.symm ha)
  have hb' : 0 < dot b b := lt_of_le_of_ne (dot_self_nonneg b) (Ne.symm hb)
  have hmul : √((dot a a * dot b b : ℚ) : ℝ) = √(dot a a : ℝ) * √(dot b b : ℝ) := by
    rw [Rat.cast_mul, Real.sqrt_mul (by exact_mod_cast ha'.le)]
  rw [leDivSqrt_iff (mul_pos ha' hb'), hmul, cosine]

theorem cosine_of_zero {a b : List ℚ} (h : dot a a = 0 ∨ dot b b = 0) : cosine a b = 0 := by
  rcases h with h | h
  · simp [cosine, h]
  · simp [cosine, h]

end Framework
