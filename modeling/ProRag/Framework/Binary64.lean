import Mathlib.Data.Nat.Log
import Mathlib.Tactic.Ring

/-!
# Natural numbers as binary64

A natural number as the nearest binary64 value, ties to even.
-/

namespace Framework

/-- What is below the last of the 53 significant bits of a number. -/
def ulpExponent (n : Nat) : Nat := n.log2 - 52

/-- The nearest binary64 value; `none` is infinity. -/
@[irreducible] def toBinary64 (n : Nat) : Option Nat :=
  let ulp := 2 ^ ulpExponent n
  let low := n / ulp * ulp
  let rest := n % ulp
  let nearest := if ulp < 2 * rest ∨ (2 * rest = ulp ∧ n / ulp % 2 = 1) then low + ulp else low
  if nearest < 2 ^ 1024 then some nearest else none

/-- A number that binary64 has. -/
@[irreducible] def InBinary64 (n : Nat) : Prop := n % 2 ^ ulpExponent n = 0 ∧ n < 2 ^ 1024

theorem toBinary64_eq_self_iff (n : Nat) : toBinary64 n = some n ↔ InBinary64 n := by
  have hpos : 0 < 2 ^ ulpExponent n := Nat.two_pow_pos _
  have hsplit : n / 2 ^ ulpExponent n * 2 ^ ulpExponent n + n % 2 ^ ulpExponent n = n := Nat.div_add_mod' _ _
  have hrest : n % 2 ^ ulpExponent n < 2 ^ ulpExponent n := Nat.mod_lt _ hpos
  unfold toBinary64 InBinary64
  dsimp only
  generalize 2 ^ ulpExponent n = ulp at *
  generalize 2 ^ 1024 = bound
  generalize hlow : n / ulp * ulp = low at *
  generalize hr : n % ulp = rest at *
  by_cases hup : ulp < 2 * rest ∨ (2 * rest = ulp ∧ n / ulp % 2 = 1)
  · rw [if_pos hup]
    constructor
    · intro h
      have hnearest : low + ulp = n := by
        split at h
        · exact Option.some.inj h
        · cases h
      omega
    · intro ⟨hzero, _⟩
      omega
  · rw [if_neg hup]
    constructor
    · intro h
      split at h
      · have hnearest : low = n := Option.some.inj h
        omega
      · cases h
    · intro ⟨hzero, hfits⟩
      have hself : low = n := by omega
      rw [hself, if_pos hfits]

end Framework
