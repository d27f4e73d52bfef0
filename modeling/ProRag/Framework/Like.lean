import Mathlib.Data.List.Infix

/-!
# `LIKE`

The pattern language of SQL: a percent sign for any text, an underscore for any character, and a backslash in front of a
character that stands for itself.
-/

namespace Framework

/-- `s LIKE p`, for a pattern that does not end in a backslash. -/
def like : List Char → List Char → Bool
  | [], s => s.isEmpty
  | '%' :: p, s => s.tails.any (like p)
  | '\\' :: c :: p, s =>
    match s with
    | [] => false
    | x :: s => decide (c = x) && like p s
  | c :: p, s =>
    match s with
    | [] => false
    | x :: s => (decide (c = '_') || decide (c = x)) && like p s

/-- A text that stands for itself in a pattern. -/
def PlainPattern (q : List Char) : Prop := ∀ c ∈ q, c ≠ '%' ∧ c ≠ '_' ∧ c ≠ '\\'

instance (q : List Char) : Decidable (PlainPattern q) :=
  inferInstanceAs (Decidable (∀ c ∈ q, c ≠ '%' ∧ c ≠ '_' ∧ c ≠ '\\'))

variable {p q s : List Char}

theorem like_any : like ('%' :: p) s = true ↔ ∃ t, t <:+ s ∧ like p t = true := by
  simp [like]

theorem like_char {c x : Char} (hc : c ≠ '%' ∧ c ≠ '_' ∧ c ≠ '\\') :
    like (c :: p) (x :: s) = (decide (c = x) && like p s) := by
  rw [like]
  · simp [hc.2.1]
  · exact fun h => hc.1 h
  · exact fun _ _ h _ => hc.2.2 h

theorem like_char_nil {c : Char} (hc : c ≠ '%' ∧ c ≠ '_' ∧ c ≠ '\\') : like (c :: p) [] = false := by
  rw [like]
  · exact fun h => hc.1 h
  · exact fun _ _ h _ => hc.2.2 h

theorem like_plain (hq : PlainPattern q) : like (q ++ p) s = true ↔ ∃ t, s = q ++ t ∧ like p t = true := by
  induction q generalizing s with
  | nil => simp
  | cons c q ih =>
    obtain ⟨hc, hrest⟩ := List.forall_mem_cons.mp hq
    cases s with
    | nil => simp [like_char_nil hc]
    | cons x s =>
      rw [List.cons_append, like_char hc, Bool.and_eq_true, decide_eq_true_eq, ih hrest]
      constructor
      · rintro ⟨rfl, t, rfl, ht⟩
        exact ⟨t, rfl, ht⟩
      · rintro ⟨t, heq, ht⟩
        obtain ⟨rfl, rfl⟩ := List.cons.inj heq
        exact ⟨rfl, t, rfl, ht⟩

/-- `LIKE '%q%'`, for a plain `q`. -/
theorem like_infix (hq : PlainPattern q) : like ('%' :: q ++ ['%']) s = true ↔ q <:+: s := by
  rw [List.cons_append, like_any]
  simp only [like_plain hq, like_any]
  constructor
  · rintro ⟨_, ⟨before, rfl⟩, after, rfl, _⟩
    exact ⟨before, after, by simp⟩
  · rintro ⟨before, after, rfl⟩
    exact ⟨q ++ after, ⟨before, by simp⟩, after, rfl, [], List.nil_suffix, rfl⟩

end Framework
