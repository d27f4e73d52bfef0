import Mathlib.Data.List.Sort
import Mathlib.Data.List.Dedup
import ProRag.Framework.Rows

/-!
# Conditions and ordered selections

The conditions of a query take three values, `none` being unknown, and a row is selected when its
condition is true.  An ordered selection sorts by a score and, among equals, by a key of the row.
-/

namespace Framework

abbrev SqlBool := Option Bool

namespace SqlBool

def and : SqlBool → SqlBool → SqlBool
  | some false, _ | _, some false => some false
  | some true, some true => some true
  | _, _ => none

def or : SqlBool → SqlBool → SqlBool
  | some true, _ | _, some true => some true
  | some false, some false => some false
  | _, _ => none

variable {α : Type*} [DecidableEq α]

/-- `x = a`, unknown for a null `x`. -/
def eq (x : Option α) (a : α) : SqlBool :=
  x.map fun b => decide (b = a)

/-- `x IN (…)` over values that are not null: false for no values, else unknown for a null `x`. -/
def isIn (x : Option α) (as : List α) : SqlBool :=
  if as = [] then some false else x.map fun b => decide (b ∈ as)

def holds (c : SqlBool) : Bool :=
  c = some true

@[simp] theorem holds_some (b : Bool) : holds (some b) = b := by
  cases b with
  | _ => rfl

@[simp] theorem holds_and (a b : SqlBool) : (a.and b).holds = (a.holds && b.holds) := by
  rcases a with _ | _ | _ <;> rcases b with _ | _ | _ <;> rfl

@[simp] theorem holds_or (a b : SqlBool) : (a.or b).holds = (a.holds || b.holds) := by
  rcases a with _ | _ | _ <;> rcases b with _ | _ | _ <;> rfl

@[simp] theorem holds_eq (x : Option α) (a : α) : (eq x a).holds = decide (x = some a) := by
  cases x with
  | none => rfl
  | some b => simp [eq]

@[simp] theorem holds_isIn (x : Option α) (as : List α) : (isIn x as).holds = decide (∃ a ∈ as, x = some a) := by
  unfold isIn
  split
  · rename_i h
    subst h
    simp
  · cases x with
    | none => simp [holds]
    | some b => simp

end SqlBool

variable {ρ κ : Type*} {β : Type*} [LinearOrder β] [LinearOrder κ]

/-- The order of `ORDER BY score DESC`, ties broken by the key. -/
def Precedes (score : ρ → β) (key : ρ → κ) (a b : ρ) : Prop :=
  score b < score a ∨ (score a = score b ∧ key a ≤ key b)

instance (score : ρ → β) (key : ρ → κ) : DecidableRel (Precedes score key) := fun a b =>
  inferInstanceAs (Decidable (score b < score a ∨ (score a = score b ∧ key a ≤ key b)))

def orderByDesc (score : ρ → β) (key : ρ → κ) (rows : List ρ) : List ρ :=
  rows.insertionSort (Precedes score key)

instance precedes_total (score : ρ → β) (key : ρ → κ) : Std.Total (Precedes score key) where
  total a b := by
    rcases lt_trichotomy (score a) (score b) with h | h | h
    · exact Or.inr (Or.inl h)
    · rcases le_total (key a) (key b) with hk | hk
      · exact Or.inl (Or.inr ⟨h, hk⟩)
      · exact Or.inr (Or.inr ⟨h.symm, hk⟩)
    · exact Or.inl (Or.inl h)

instance precedes_trans (score : ρ → β) (key : ρ → κ) : IsTrans ρ (Precedes score key) where
  trans a b c := by
    rintro (hab | ⟨hab, kab⟩) (hbc | ⟨hbc, kbc⟩)
    · exact Or.inl (hbc.trans hab)
    · exact Or.inl (hbc ▸ hab)
    · exact Or.inl (hab ▸ hbc)
    · exact Or.inr ⟨hab.trans hbc, kab.trans kbc⟩

theorem mem_orderByDesc {score : ρ → β} {key : ρ → κ} {rows : List ρ} {r : ρ} :
    r ∈ orderByDesc score key rows ↔ r ∈ rows :=
  List.mem_insertionSort _

theorem orderByDesc_congr {score : ρ → β} {key : ρ → κ} {rows rows' : List ρ}
    (hkey : ∀ a ∈ rows, ∀ b ∈ rows, key a = key b → a = b) (h : rows.Perm rows') :
    orderByDesc score key rows = orderByDesc score key rows' := by
  have hperm : (orderByDesc score key rows).Perm (orderByDesc score key rows') :=
    (List.perm_insertionSort _ rows).trans (h.trans (List.perm_insertionSort _ rows').symm)
  refine hperm.eq_of_pairwise ?_ (List.pairwise_insertionSort _ rows) (List.pairwise_insertionSort _ rows')
  intro a b ha hb hab hba
  have ha' : a ∈ rows := mem_orderByDesc.mp ha
  have hb' : b ∈ rows := h.mem_iff.mpr (mem_orderByDesc.mp hb)
  have hk : key a = key b := by
    rcases hab with hab | ⟨hab, kab⟩
    · rcases hba with hba | ⟨hba, _⟩
      · exact absurd hab (lt_asymm hba)
      · exact absurd hba hab.ne
    · rcases hba with hba | ⟨_, kba⟩
      · exact absurd hab hba.ne
      · exact le_antisymm kab kba
  exact hkey a ha' b hb' hk

/-- A sort by descending score that keeps the order of equal scores. -/
structure StablyRanked (score : ρ → β) (rows ranked : List ρ) : Prop where
  perm : ranked.Perm rows
  descending : ranked.Pairwise fun a b => score b ≤ score a
  stable : ∀ s, ranked.filter (fun r => score r = s) = rows.filter fun r => score r = s

def rankBy (score : ρ → β) (rows : List ρ) : List ρ :=
  rows.insertionSort fun a b => score b ≤ score a

instance descending_total (score : ρ → β) : Std.Total fun a b : ρ => score b ≤ score a where
  total a b := le_total (score b) (score a)

instance descending_trans (score : ρ → β) : IsTrans ρ fun a b => score b ≤ score a where
  trans _ _ _ hab hbc := le_trans hbc hab

theorem rankBy_stable (score : ρ → β) (rows : List ρ) : StablyRanked score rows (rankBy score rows) where
  perm := List.perm_insertionSort _ rows
  descending := List.pairwise_insertionSort _ rows
  stable := by
    intro s
    have hequal : (rows.filter fun r => score r = s).Pairwise fun a b => score b ≤ score a := by
      apply List.pairwise_of_forall_mem_list
      intro a ha b hb
      have hsa : score a = s := of_decide_eq_true (List.mem_filter.mp ha).2
      have hsb : score b = s := of_decide_eq_true (List.mem_filter.mp hb).2
      exact (hsb.trans hsa.symm).le
    have hsub := (List.sublist_insertionSort hequal List.filter_sublist).filter fun r => score r = s
    rw [List.filter_filter] at hsub
    simp only [Bool.and_self] at hsub
    exact (hsub.eq_of_length ((List.perm_insertionSort _ rows).filter _).length_eq.symm).symm

theorem StablyRanked.ordered {score : ρ → β} {rows ranked : List ρ} (h : StablyRanked score rows ranked) {R : ρ → ρ → Prop}
    (hrows : rows.Pairwise R) : ranked.Pairwise fun a b => score b < score a ∨ (score a = score b ∧ R a b) := by
  apply List.pairwise_iff_forall_sublist.mpr
  intro a b hab
  rcases (List.pairwise_iff_forall_sublist.mp h.descending hab).lt_or_eq with hlt | heq
  · exact Or.inl hlt
  · have hboth : [a, b].filter (fun r => score r = score a) = [a, b] := by simp [heq]
    have hsub := hab.filter fun r => decide (score r = score a)
    rw [hboth, h.stable] at hsub
    exact Or.inr ⟨heq.symm, List.pairwise_iff_forall_sublist.mp hrows (hsub.trans List.filter_sublist)⟩

/-- `v` has fewer than `k` values above it, and with those that equal it at least `k`. -/
structure NthLargest (values : List β) (k : Nat) (v : β) : Prop where
  above : (values.filter fun a => v < a).length < k
  notBelow : k ≤ (values.filter fun a => v ≤ a).length

theorem NthLargest.unique {values : List β} {k : Nat} {v w : β} (hv : NthLargest values k v) (hw : NthLargest values k w) :
    v = w := by
  have hle : ∀ a b, NthLargest values k a → NthLargest values k b → b ≤ a := by
    intro a b ha hb
    by_contra hlt
    have hsub : (values.filter fun x => b ≤ x).Sublist (values.filter fun x => a < x) := by
      apply List.monotone_filter_right
      intro x hx
      have hx' : b ≤ x := by simpa using hx
      simpa using (not_le.mp hlt).trans_le hx'
    have hlength := hsub.length_le
    have habove := ha.above
    have hnotBelow := hb.notBelow
    omega
  exact le_antisymm (hle w v hw hv) (hle v w hv hw)

theorem nthLargest_split {values front back : List β} {v : β} (hperm : (front ++ v :: back).Perm values)
    (hfront : ∀ a ∈ front, v ≤ a) (hback : ∀ a ∈ back, a ≤ v) : NthLargest values (front.length + 1) v := by
  constructor
  · have hnone : back.filter (fun a => v < a) = [] := by
      apply List.filter_eq_nil_iff.mpr
      intro a ha
      simpa using hback a ha
    have hlength := List.length_filter_le (fun a => decide (v < a)) front
    rw [← (hperm.filter _).length_eq, List.filter_append, List.length_append]
    simp only [lt_irrefl, decide_false, Bool.false_eq_true, not_false_eq_true, List.filter_cons_of_neg, hnone,
      List.length_nil]
    omega
  · have hall : front.filter (fun a => v ≤ a) = front := by
      apply List.filter_eq_self.mpr
      intro a ha
      simpa using hfront a ha
    rw [← (hperm.filter _).length_eq, List.filter_append, List.length_append, hall]
    simp only [le_refl, decide_true, List.filter_cons_of_pos, List.length_cons]
    omega

theorem nthLargest_getElem {values sorted : List β} (hperm : sorted.Perm values) (hsorted : sorted.Pairwise fun a b => b ≤ a)
    (k : Nat) (hk : k < sorted.length) : NthLargest values (k + 1) sorted[k] := by
  have hcut : sorted = sorted.take k ++ sorted[k] :: sorted.drop (k + 1) := by
    rw [← List.drop_eq_getElem_cons hk, List.take_append_drop]
  have hlength : (sorted.take k).length = k := by simp [hk.le]
  have hparts := hsorted
  rw [hcut, List.pairwise_append] at hparts
  obtain ⟨_, hbehind, hfront⟩ := hparts
  have hsplit := nthLargest_split (hcut ▸ hperm) (fun a ha => hfront a ha _ List.mem_cons_self)
    (List.pairwise_cons.mp hbehind).1
  rwa [hlength] at hsplit

end Framework
