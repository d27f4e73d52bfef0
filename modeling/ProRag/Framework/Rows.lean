import Mathlib.Data.List.Basic
import Mathlib.Data.List.Nodup
import Mathlib.Tactic.Basic

/-!
# Keyed row lists

A table is the list of its rows and a unique column is a key without repetition.
The statements below are the few SQL forms a program issues against one table,
with what each of them does to membership, to keyed lookup and to the constraint.
-/

namespace Framework

variable {ρ κ : Type*} [DecidableEq κ]

/-- A unique constraint on the column `key`. -/
def UniqueOn (key : ρ → κ) (rows : List ρ) : Prop :=
  (rows.map key).Nodup

instance (key : ρ → κ) (rows : List ρ) : Decidable (UniqueOn key rows) :=
  inferInstanceAs (Decidable (rows.map key).Nodup)

/-- `SELECT … WHERE key = k`, read as one row or none. -/
def selectOne (key : ρ → κ) (k : κ) (rows : List ρ) : Option ρ :=
  rows.find? fun r => key r = k

/-- `UPDATE … SET … WHERE p`. -/
def updateWhere (p : ρ → Bool) (f : ρ → ρ) (rows : List ρ) : List ρ :=
  rows.map fun r => if p r then f r else r

/-- `DELETE … WHERE p`. -/
def deleteWhere (p : ρ → Bool) (rows : List ρ) : List ρ :=
  rows.filter fun r => !p r

theorem selectOne_updateWhere {key : ρ → κ} {k : κ} {f : ρ → ρ} (hf : ∀ r, key r = k → key (f r) = k) (rows : List ρ) :
    selectOne key k (updateWhere (fun r => decide (key r = k)) f rows) = (selectOne key k rows).map f := by
  induction rows with
  | nil => rfl
  | cons r rows ih =>
    by_cases hr : key r = k
    · simp [selectOne, updateWhere, hr, hf r hr]
    · simpa [selectOne, updateWhere, hr] using ih

theorem mem_deleteWhere {p : ρ → Bool} {rows : List ρ} {r : ρ} :
    r ∈ deleteWhere p rows ↔ r ∈ rows ∧ p r = false := by
  simp [deleteWhere]

theorem mem_updateWhere {p : ρ → Bool} {f : ρ → ρ} {rows : List ρ} {r : ρ} :
    r ∈ updateWhere p f rows ↔ ∃ a ∈ rows, (if p a then f a else a) = r := by
  simp [updateWhere]

theorem updateWhere_last {p : ρ → Bool} {f : ρ → ρ} {rows : List ρ} {r : ρ} (hrows : ∀ a ∈ rows, p a = false)
    (hr : p r = true) : updateWhere p f (rows ++ [r]) = rows ++ [f r] := by
  have hsame : rows.map (fun a => if p a then f a else a) = rows := by
    refine (List.map_congr_left fun a ha => ?_).trans (List.map_id _)
    simp [hrows a ha]
  simp [updateWhere, hsame, hr]

omit [DecidableEq κ] in
theorem UniqueOn.eq_of_key {key : ρ → κ} {rows : List ρ} (hu : UniqueOn key rows) {a b : ρ}
    (ha : a ∈ rows) (hb : b ∈ rows) (hk : key a = key b) : a = b :=
  List.inj_on_of_nodup_map hu ha hb hk

theorem selectOne_eq_some {key : ρ → κ} {k : κ} {rows : List ρ} (hu : UniqueOn key rows) {r : ρ} :
    selectOne key k rows = some r ↔ r ∈ rows ∧ key r = k := by
  constructor
  · intro h
    exact ⟨List.mem_of_find?_eq_some h, by simpa using List.find?_some h⟩
  · rintro ⟨hr, rfl⟩
    cases h : selectOne key (key r) rows with
    | none => simpa using List.find?_eq_none.mp h r hr
    | some a =>
      have hk : key a = key r := by simpa using List.find?_some h
      rw [hu.eq_of_key (List.mem_of_find?_eq_some h) hr hk]

theorem selectOne_mem {key : ρ → κ} {k : κ} {rows : List ρ} {r : ρ}
    (h : selectOne key k rows = some r) : r ∈ rows ∧ key r = k :=
  ⟨List.mem_of_find?_eq_some h, by simpa using List.find?_some h⟩

theorem selectOne_eq_none {key : ρ → κ} {k : κ} {rows : List ρ} :
    selectOne key k rows = none ↔ ∀ r ∈ rows, key r ≠ k := by
  simp [selectOne, List.find?_eq_none]

omit [DecidableEq κ] in
theorem UniqueOn.deleteWhere {key : ρ → κ} {rows : List ρ} (hu : UniqueOn key rows)
    (p : ρ → Bool) : UniqueOn key (deleteWhere p rows) :=
  List.Nodup.sublist (List.Sublist.map key List.filter_sublist) hu

omit [DecidableEq κ] in
theorem map_updateWhere {key : ρ → κ} {p : ρ → Bool} {f : ρ → ρ} (hf : ∀ r, p r → key (f r) = key r)
    (rows : List ρ) : (updateWhere p f rows).map key = rows.map key := by
  simp only [updateWhere, List.map_map]
  apply List.map_congr_left
  intro r _
  by_cases hp : p r
  · simp [hp, hf r hp]
  · simp [hp]

theorem selectOne_updateWhere_keep {key : ρ → κ} {p : ρ → Bool} {f : ρ → ρ} (hf : ∀ r, p r → key (f r) = key r) (k : κ)
    (rows : List ρ) : selectOne key k (updateWhere p f rows) = (selectOne key k rows).map fun r => if p r then f r else r := by
  rw [selectOne, selectOne, updateWhere, List.find?_map]
  congr 1
  congr 1
  funext r
  by_cases hp : p r
  · simp [hp, hf r hp]
  · simp [hp]

omit [DecidableEq κ] in
theorem UniqueOn.updateWhere {key : ρ → κ} {rows : List ρ} (hu : UniqueOn key rows)
    {p : ρ → Bool} {f : ρ → ρ} (hf : ∀ r, p r → key (f r) = key r) :
    UniqueOn key (updateWhere p f rows) := by
  rw [UniqueOn, map_updateWhere hf]
  exact hu

omit [DecidableEq κ] in
theorem UniqueOn.insert {key : ρ → κ} {rows : List ρ} (hu : UniqueOn key rows) {r : ρ}
    (hr : ∀ a ∈ rows, key a ≠ key r) : UniqueOn key (rows ++ [r]) := by
  rw [UniqueOn, List.map_append, List.nodup_append]
  refine ⟨hu, by simp, ?_⟩
  intro a ha b hb
  obtain ⟨x, hx, rfl⟩ := List.mem_map.mp ha
  simp only [List.map_cons, List.map_nil, List.mem_singleton] at hb
  subst hb
  exact hr x hx

/-- Get-or-create on a unique column: the row with `r`'s key is replaced, else `r` is added. -/
def upsert (key : ρ → κ) (r : ρ) (rows : List ρ) : List ρ :=
  match selectOne key (key r) rows with
  | some _ => updateWhere (fun a => decide (key a = key r)) (fun _ => r) rows
  | none => rows ++ [r]

theorem mem_upsert {key : ρ → κ} {r a : ρ} {rows : List ρ} :
    a ∈ upsert key r rows ↔ a = r ∨ (a ∈ rows ∧ key a ≠ key r) := by
  unfold upsert
  cases h : selectOne key (key r) rows with
  | none =>
    have hn := selectOne_eq_none.mp h
    simp only [List.mem_append, List.mem_singleton]
    constructor
    · rintro (ha | rfl)
      · exact Or.inr ⟨ha, hn a ha⟩
      · exact Or.inl rfl
    · rintro (rfl | ⟨ha, _⟩)
      · exact Or.inr rfl
      · exact Or.inl ha
  | some b =>
    obtain ⟨hb, hk⟩ := selectOne_mem h
    rw [mem_updateWhere]
    constructor
    · rintro ⟨c, hc, rfl⟩
      by_cases hck : key c = key r
      · simp [hck]
      · exact Or.inr ⟨by simpa [hck] using hc, by simp [hck]⟩
    · rintro (rfl | ⟨ha, hka⟩)
      · exact ⟨b, hb, by simp [hk]⟩
      · exact ⟨a, ha, by simp [hka]⟩

theorem UniqueOn.upsert {key : ρ → κ} {rows : List ρ} (hu : UniqueOn key rows) (r : ρ) :
    UniqueOn key (upsert key r rows) := by
  unfold Framework.upsert
  cases h : selectOne key (key r) rows with
  | none => exact hu.insert (selectOne_eq_none.mp h)
  | some b => exact hu.updateWhere fun a ha => by simpa using (of_decide_eq_true ha).symm

/-! Rows of other keys are the same with and without the rows of the keys `p`. -/

section Without

variable {key : ρ → κ} {p : κ → Bool} {r : ρ} {rows : List ρ}

theorem selectOne_without {k : κ} (hk : p k = false) :
    selectOne key k (deleteWhere (fun a => p (key a)) rows) = selectOne key k rows := by
  unfold selectOne deleteWhere
  rw [List.find?_filter]
  congr 1
  funext a
  by_cases ha : key a = k
  · simp [ha, hk]
  · simp [ha]

omit [DecidableEq κ] in
theorem updateWhere_without {q : ρ → Bool} {f : ρ → ρ} (hf : ∀ a, q a → key (f a) = key a) :
    deleteWhere (fun a => p (key a)) (updateWhere q f rows) = updateWhere q f (deleteWhere (fun a => p (key a)) rows) := by
  unfold deleteWhere updateWhere
  rw [List.filter_map]
  congr 1
  apply List.filter_congr
  intro a _
  by_cases ha : q a
  · simp [ha, hf a ha]
  · simp [ha]

theorem upsert_without (hr : p (key r) = false) :
    deleteWhere (fun a => p (key a)) (upsert key r rows) = upsert key r (deleteWhere (fun a => p (key a)) rows) := by
  unfold upsert
  rw [selectOne_without hr]
  split
  · apply updateWhere_without
    intro a ha
    exact (of_decide_eq_true ha).symm
  · simp [deleteWhere, hr]

theorem upsert_dropped (hr : p (key r) = true) :
    deleteWhere (fun a => p (key a)) (upsert key r rows) = deleteWhere (fun a => p (key a)) rows := by
  unfold upsert
  split
  · rw [updateWhere_without fun a ha => (of_decide_eq_true ha).symm]
    unfold updateWhere
    conv_rhs => rw [← List.map_id (deleteWhere (fun a => p (key a)) rows)]
    apply List.map_congr_left
    intro a ha
    have hkept := (mem_deleteWhere.mp ha).2
    rw [if_neg]
    · rfl
    · intro heq
      rw [of_decide_eq_true heq, hr] at hkept
      cases hkept
  · simp [deleteWhere, hr]

end Without

end Framework
