import Mathlib.Algebra.BigOperators.Group.List.Basic
import Mathlib.Data.List.Induction
import ProRag.Framework.Query

/-!
# Keyed tallies

Amounts are given to rows one after the other.  The first row of a key opens an entry, and later amounts of
the key are added to it in place.
-/

namespace Framework

variable {ρ κ M : Type*} [DecidableEq κ] (key : ρ → κ)

def firsts : List ρ → List ρ
  | [] => []
  | r :: rows => r :: (firsts rows).filter fun a => key a ≠ key r

section

variable [AddCommMonoid M]

def total (k : κ) (given : List (ρ × M)) : M :=
  (given.map fun o => if key o.1 = k then o.2 else 0).sum

/-- One amount. -/
def addTo (entries : List (ρ × M)) (o : ρ × M) : List (ρ × M) :=
  match selectOne (fun e : ρ × M => key e.1) (key o.1) entries with
  | none => entries ++ [o]
  | some _ => updateWhere (fun e => key e.1 = key o.1) (fun e => (e.1, e.2 + o.2)) entries

end

variable {key}

theorem mem_of_mem_firsts {rows : List ρ} {a : ρ} (h : a ∈ firsts key rows) : a ∈ rows := by
  induction rows with
  | nil => exact h
  | cons r rows ih =>
    simp only [firsts, List.mem_cons, List.mem_filter] at h
    rcases h with rfl | ⟨h, _⟩
    · simp
    · simp [ih h]

theorem exists_mem_firsts {rows : List ρ} {k : κ} : (∃ a ∈ firsts key rows, key a = k) ↔ ∃ a ∈ rows, key a = k := by
  induction rows with
  | nil => rfl
  | cons r rows ih =>
    by_cases hr : key r = k
    · simp [firsts, hr]
    · constructor
      · intro h
        obtain ⟨a, ha, hk⟩ := h
        exact ⟨a, mem_of_mem_firsts ha, hk⟩
      · intro h
        obtain ⟨a, ha, hk⟩ := h
        have hmem : a ∈ rows := by
          rcases List.mem_cons.mp ha with rfl | ha
          · exact absurd hk hr
          · exact ha
        obtain ⟨b, hb, hbk⟩ := ih.mpr ⟨a, hmem, hk⟩
        have hne : key b ≠ key r := hbk.trans_ne (Ne.symm hr)
        exact ⟨b, by simp [firsts, hb, hne], hbk⟩

theorem firsts_unique (rows : List ρ) : UniqueOn key (firsts key rows) := by
  induction rows with
  | nil => simp [firsts, UniqueOn]
  | cons r rows ih =>
    simp only [firsts, UniqueOn, List.map_cons, List.nodup_cons]
    constructor
    · simp
    · exact List.Nodup.sublist (List.filter_sublist.map key) ih

theorem selectOne_firsts {rows : List ρ} {a : ρ} (h : a ∈ firsts key rows) : selectOne key (key a) rows = some a := by
  induction rows with
  | nil => cases h
  | cons r rows ih =>
    simp only [firsts, List.mem_cons, List.mem_filter, decide_eq_true_eq] at h
    rcases h with rfl | ⟨h, hne⟩
    · simp [selectOne]
    · have hne' : key r ≠ key a := Ne.symm hne
      simpa [selectOne, hne'] using ih h

theorem firsts_order (rows : List ρ) :
    (firsts key rows).Pairwise fun a b => (rows.map key).idxOf (key a) < (rows.map key).idxOf (key b) := by
  induction rows with
  | nil => exact List.Pairwise.nil
  | cons r rows ih =>
    simp only [firsts, List.map_cons]
    apply List.Pairwise.cons
    · intro b hb
      have hne : key b ≠ key r := by simpa using (List.mem_filter.mp hb).2
      rw [List.idxOf_cons_self, List.idxOf_cons_ne _ (Ne.symm hne)]
      omega
    · rw [List.pairwise_filter]
      apply ih.imp
      intro a b hlt ha hb
      have ha' : key a ≠ key r := by simpa using ha
      have hb' : key b ≠ key r := by simpa using hb
      rw [List.idxOf_cons_ne _ (Ne.symm ha'), List.idxOf_cons_ne _ (Ne.symm hb')]
      omega

theorem firsts_concat (rows : List ρ) (r : ρ) :
    firsts key (rows ++ [r]) = if ∃ a ∈ rows, key a = key r then firsts key rows else firsts key rows ++ [r] := by
  induction rows with
  | nil => simp [firsts]
  | cons b rows ih =>
    simp only [List.cons_append, firsts, ih]
    by_cases hold : ∃ a ∈ rows, key a = key r
    · have hold' : ∃ a ∈ b :: rows, key a = key r := by
        obtain ⟨a, ha, hk⟩ := hold
        exact ⟨a, List.mem_cons_of_mem _ ha, hk⟩
      rw [if_pos hold, if_pos hold']
    · rw [if_neg hold, List.filter_append]
      by_cases hb : key b = key r
      · have hold' : ∃ a ∈ b :: rows, key a = key r := ⟨b, List.mem_cons_self, hb⟩
        rw [if_pos hold']
        simp [hb]
      · have hnew : ¬∃ a ∈ b :: rows, key a = key r := by
          intro h
          obtain ⟨a, ha, hk⟩ := h
          rcases List.mem_cons.mp ha with rfl | ha
          · exact hb hk
          · exact hold ⟨a, ha, hk⟩
        rw [if_neg hnew]
        simp [Ne.symm hb]

variable [AddCommMonoid M]

@[simp] theorem total_concat (k : κ) (given : List (ρ × M)) (o : ρ × M) :
    total key k (given ++ [o]) = total key k given + if key o.1 = k then o.2 else 0 := by
  simp [total]

theorem total_new {k : κ} {given : List (ρ × M)} (h : ∀ o ∈ given, key o.1 ≠ k) : total key k given = 0 := by
  apply List.sum_eq_zero
  intro x hx
  obtain ⟨o, ho, rfl⟩ := List.mem_map.mp hx
  simp [h o ho]

/-- The entries are the first rows of the keys, each with what its key has been given. -/
theorem foldl_addTo (given : List (ρ × M)) :
    given.foldl (addTo key) [] = (firsts key (given.map Prod.fst)).map fun r => (r, total key (key r) given) := by
  induction given using List.reverseRecOn with
  | nil => rfl
  | append_singleton given o ih =>
    rw [List.foldl_concat, ih, List.map_append, List.map_singleton, firsts_concat]
    have hrows : ∀ k, (∃ a ∈ given.map Prod.fst, key a = k) ↔ ∃ p ∈ given, key p.1 = k := by simp
    by_cases hold : ∃ a ∈ given.map Prod.fst, key a = key o.1
    · obtain ⟨a, ha, hak⟩ := exists_mem_firsts.mpr hold
      have hfound : selectOne (fun e : ρ × M => key e.1) (key o.1)
          ((firsts key (given.map Prod.fst)).map fun r => (r, total key (key r) given)) ≠ none := by
        intro hnone
        exact selectOne_eq_none.mp hnone (a, total key (key a) given) (List.mem_map_of_mem ha) hak
      obtain ⟨e, he⟩ := Option.ne_none_iff_exists'.mp hfound
      rw [if_pos hold]
      simp only [addTo, he, updateWhere, List.map_map]
      apply List.map_congr_left
      intro r _
      by_cases hr : key r = key o.1
      · simp [hr]
      · simp [hr, Ne.symm hr]
    · have hnone : selectOne (fun e : ρ × M => key e.1) (key o.1)
          ((firsts key (given.map Prod.fst)).map fun r => (r, total key (key r) given)) = none := by
        apply selectOne_eq_none.mpr
        intro e he hk
        obtain ⟨r, hr, rfl⟩ := List.mem_map.mp he
        exact hold ⟨r, mem_of_mem_firsts hr, hk⟩
      have hzero : total key (key o.1) given = 0 := by
        apply total_new
        intro p hp hk
        exact hold ((hrows _).mpr ⟨p, hp, hk⟩)
      rw [if_neg hold]
      simp only [addTo, hnone, List.map_append, List.map_singleton, total_concat, hzero]
      congr 1
      · apply List.map_congr_left
        intro r hr
        have hne : key o.1 ≠ key r := fun h => hold ⟨r, mem_of_mem_firsts hr, h.symm⟩
        simp [hne]
      · simp

end Framework
