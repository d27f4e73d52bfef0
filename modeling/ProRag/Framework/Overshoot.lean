import Mathlib.Algebra.Order.BigOperators.Group.List
import Mathlib.Algebra.Order.Monoid.Unbundled.Pow
import ProRag.Framework.Pool

/-!
# Spending behind a check

Processes charge a common ledger.  A gated one looks at the ledger once and makes its charges afterwards, in as many
instalments as it likes, while the others do the same; the rest charge without a look.  A cap that is checked in this way
can be overshot by what is in flight when it is reached, and by no more.
-/

namespace Framework

variable {ι ρ R : Type*}

structure Ledger (ρ : Type*) where
  rows : List ρ
  ungated : List ρ

inductive Spender (ι ρ : Type*)
  | arriving (i : ι)
  | owing (rest : List ρ)
  | ungated (rest : List ρ)

inductive SpendMove
  | check
  | charge (n : Nat)

def spendEnter : ι ⊕ List ρ → Spender ι ρ := Sum.elim .arriving .ungated

/-- `bill rows i` is what `i` will charge if it looks at `rows`. -/
def spendAct (bill : List ρ → ι → List ρ) (ledger : Ledger ρ) (_others : List (Spender ι ρ)) :
    Spender ι ρ → SpendMove → Option (Ledger ρ × Spender ι ρ)
  | .arriving i, .check => some (ledger, .owing (bill ledger.rows i))
  | .owing rest, .charge n => some (⟨ledger.rows ++ rest.take n, ledger.ungated⟩, .owing (rest.drop n))
  | .ungated rest, .charge n =>
    some (⟨ledger.rows ++ rest.take n, ledger.ungated ++ rest.take n⟩, .ungated (rest.drop n))
  | _, _ => none

section

variable [AddCommMonoid R]

def worth (weight : ρ → R) (rows : List ρ) : R := (rows.map weight).sum

@[simp] theorem worth_nil (weight : ρ → R) : worth weight [] = 0 := rfl

@[simp] theorem worth_append (weight : ρ → R) (a b : List ρ) :
    worth weight (a ++ b) = worth weight a + worth weight b := by
  simp [worth]

theorem worth_take_add_drop (weight : ρ → R) (n : Nat) (rows : List ρ) :
    worth weight (rows.take n) + worth weight (rows.drop n) = worth weight rows := by
  rw [← worth_append, List.take_append_drop]

/-- What a process has still to charge behind its check. -/
def Spender.owed (weight : ρ → R) : Spender ι ρ → R
  | .owing rest => worth weight rest
  | _ => 0

@[simp] theorem Spender.owed_arriving (weight : ρ → R) (i : ι) : (Spender.arriving i : Spender ι ρ).owed weight = 0 := rfl

@[simp] theorem Spender.owed_owing (weight : ρ → R) (rest : List ρ) :
    (Spender.owing rest : Spender ι ρ).owed weight = worth weight rest := rfl

@[simp] theorem Spender.owed_ungated (weight : ρ → R) (rest : List ρ) :
    (Spender.ungated rest : Spender ι ρ).owed weight = 0 := rfl

end

variable [AddCommMonoid R] [LinearOrder R]

def Spender.owes (weight : ρ → R) (p : Spender ι ρ) : Bool := decide (0 < p.owed weight)

/-- A process whose bill has a worth has one of at most `c`, and looks while fewer than `k` others owe something. -/
def spendGuard (weight : ρ → R) (priced : ρ → Prop) (bill : List ρ → ι → List ρ) (allowed : ι → Prop) (k : Nat) (c : R)
    (ledger : Ledger ρ) (others : List (Spender ι ρ)) : Spender ι ρ → SpendMove → Prop
  | .arriving i, .check => allowed i ∧
      (0 < worth weight (bill ledger.rows i) →
        worth weight (bill ledger.rows i) ≤ c ∧ others.countP (Spender.owes weight) < k)
  | .ungated rest, .charge _ => ∀ r ∈ rest, priced r
  | _, _ => True

/-- What is charged and owed together, past the ungated charges. -/
structure Bounded (weight : ρ → R) (priced : ρ → Prop) (c bound : R) (ledger : Ledger ρ) (procs : List (Spender ι ρ)) :
    Prop where
  rows : ∀ r ∈ ledger.rows, priced r
  rest : ∀ rest, .owing rest ∈ procs → ∀ r ∈ rest, priced r
  owed : ∀ p ∈ procs, p.owes weight → p.owed weight ≤ c
  total : worth weight ledger.rows + (procs.map (Spender.owed weight)).sum ≤ bound + worth weight ledger.ungated
  ungated : 0 ≤ worth weight ledger.ungated

variable {weight : ρ → R} {priced : ρ → Prop} {bill : List ρ → ι → List ρ} {allowed : ι → Prop} {k : Nat}
  {c cap bound : R} {ledger : Ledger ρ} {others procs : List (Spender ι ρ)}

theorem Bounded.perm {procs' : List (Spender ι ρ)} (hperm : procs.Perm procs')
    (h : Bounded weight priced c bound ledger procs) : Bounded weight priced c bound ledger procs' where
  rows := h.rows
  rest rest hmem := h.rest rest (hperm.mem_iff.mpr hmem)
  owed p hp := h.owed p (hperm.mem_iff.mpr hp)
  total := by
    rw [← (hperm.map _).sum_eq]
    exact h.total
  ungated := h.ungated

variable [IsOrderedAddMonoid R]

theorem worth_nonneg (hweight : ∀ r, priced r → 0 ≤ weight r) {rows : List ρ} (h : ∀ r ∈ rows, priced r) :
    0 ≤ worth weight rows := by
  apply List.sum_nonneg
  simpa using fun r hr => hweight r (h r hr)

theorem sum_owed_le (h : ∀ p ∈ procs, p.owes weight → p.owed weight ≤ c) :
    (procs.map (Spender.owed weight)).sum ≤ procs.countP (Spender.owes weight) • c := by
  induction procs with
  | nil => simp
  | cons p procs ih =>
    have hrest := ih fun q hq => h q (List.mem_cons_of_mem p hq)
    rw [List.map_cons, List.sum_cons, List.countP_cons]
    by_cases howes : p.owes weight = true
    · simp only [howes, ↓reduceIte, succ_nsmul]
      rw [add_comm]
      exact add_le_add hrest (h p List.mem_cons_self howes)
    · have hnone : p.owed weight ≤ 0 := by simpa [Spender.owes] using howes
      simpa [howes] using add_le_add hnone hrest

theorem owed_nonneg (hweight : ∀ r, priced r → 0 ≤ weight r)
    (h : ∀ rest, .owing rest ∈ procs → ∀ r ∈ rest, priced r) : 0 ≤ (procs.map (Spender.owed weight)).sum := by
  apply List.sum_nonneg
  simp only [List.mem_map, forall_exists_index, and_imp, forall_apply_eq_imp_iff₂]
  intro p hp
  cases p with
  | owing rest => exact worth_nonneg hweight (h rest hp)
  | _ => exact le_rfl

theorem Bounded.check (hweight : ∀ r, priced r → 0 ≤ weight r) (hbill : ∀ rows i, ∀ r ∈ bill rows i, priced r)
    (hgate : ∀ rows i, allowed i → (∀ r ∈ rows, priced r) → 0 < worth weight (bill rows i) → worth weight rows ≤ cap)
    (hcap : cap + k • c ≤ bound) {i : ι}
    (h : Bounded weight priced c bound ledger (.arriving i :: others))
    (hg : spendGuard weight priced bill allowed k c ledger others (.arriving i) .check) :
    Bounded weight priced c bound ledger (.owing (bill ledger.rows i) :: others) where
  rows := h.rows
  rest := by
    intro rest hmem
    rcases List.mem_cons.mp hmem with heq | hmem
    · cases heq
      exact hbill ledger.rows i
    · exact h.rest rest (List.mem_cons_of_mem _ hmem)
  owed := by
    intro p hp howes
    rcases List.mem_cons.mp hp with rfl | hp
    · exact (hg.2 (of_decide_eq_true howes)).1
    · exact h.owed p (List.mem_cons_of_mem _ hp) howes
  total := by
    have htotal := h.total
    simp only [List.map_cons, List.sum_cons, Spender.owed_arriving, Spender.owed_owing, zero_add] at htotal ⊢
    rcases (worth_nonneg hweight (hbill ledger.rows i)).eq_or_lt with hzero | hpos
    · simpa [← hzero] using htotal
    · obtain ⟨hle, hcount⟩ := hg.2 hpos
      have howed := sum_owed_le fun p hp => h.owed p (List.mem_cons_of_mem _ hp)
      have hroom : worth weight (bill ledger.rows i) + (others.map (Spender.owed weight)).sum ≤ k • c := calc
        _ ≤ c + others.countP (Spender.owes weight) • c := add_le_add hle howed
        _ = (others.countP (Spender.owes weight) + 1) • c := by rw [succ_nsmul, add_comm]
        _ ≤ k • c := nsmul_le_nsmul_left (hpos.le.trans hle) hcount
      calc
        _ ≤ cap + k • c := add_le_add (hgate ledger.rows i hg.1 h.rows hpos) hroom
        _ ≤ bound := hcap
        _ ≤ bound + worth weight ledger.ungated := le_add_of_nonneg_right h.ungated
  ungated := h.ungated

theorem Bounded.charge (hweight : ∀ r, priced r → 0 ≤ weight r) {rest : List ρ} (n : Nat)
    (h : Bounded weight priced c bound ledger (.owing rest :: others)) :
    Bounded weight priced c bound ⟨ledger.rows ++ rest.take n, ledger.ungated⟩ (.owing (rest.drop n) :: others) where
  rows := by
    intro r hr
    rcases List.mem_append.mp hr with hr | hr
    · exact h.rows r hr
    · exact h.rest rest List.mem_cons_self r (List.mem_of_mem_take hr)
  rest := by
    intro rest' hmem r hr
    rcases List.mem_cons.mp hmem with heq | hmem
    · cases heq
      exact h.rest rest List.mem_cons_self r (List.mem_of_mem_drop hr)
    · exact h.rest rest' (List.mem_cons_of_mem _ hmem) r hr
  owed := by
    intro p hp howes
    rcases List.mem_cons.mp hp with rfl | hp
    · have hsplit := worth_take_add_drop weight n rest
      have htake : 0 ≤ worth weight (rest.take n) :=
        worth_nonneg hweight fun r hr => h.rest rest List.mem_cons_self r (List.mem_of_mem_take hr)
      have hle : worth weight (rest.drop n) ≤ worth weight rest := hsplit ▸ le_add_of_nonneg_left htake
      have hbefore : (Spender.owing rest : Spender ι ρ).owes weight = true :=
        decide_eq_true ((of_decide_eq_true howes).trans_le hle)
      exact hle.trans (h.owed _ List.mem_cons_self hbefore)
    · exact h.owed p (List.mem_cons_of_mem _ hp) howes
  total := by
    have htotal := h.total
    simp only [List.map_cons, List.sum_cons, Spender.owed_owing, ← worth_take_add_drop weight n rest] at htotal
    simpa [add_assoc] using htotal
  ungated := h.ungated

theorem Bounded.chargeUngated (hweight : ∀ r, priced r → 0 ≤ weight r) {rest : List ρ} (n : Nat) (hrest : ∀ r ∈ rest, priced r)
    (h : Bounded weight priced c bound ledger (.ungated rest :: others)) :
    Bounded weight priced c bound ⟨ledger.rows ++ rest.take n, ledger.ungated ++ rest.take n⟩
      (.ungated (rest.drop n) :: others) where
  rows := by
    intro r hr
    rcases List.mem_append.mp hr with hr | hr
    · exact h.rows r hr
    · exact hrest r (List.mem_of_mem_take hr)
  rest := by
    intro rest' hmem
    rcases List.mem_cons.mp hmem with heq | hmem
    · cases heq
    · exact h.rest rest' (List.mem_cons_of_mem _ hmem)
  owed := by
    intro p hp howes
    rcases List.mem_cons.mp hp with rfl | hp
    · simp [Spender.owes] at howes
    · exact h.owed p (List.mem_cons_of_mem _ hp) howes
  total := by
    have htotal := h.total
    simp only [List.map_cons, List.sum_cons, Spender.owed_ungated, zero_add, worth_append] at htotal ⊢
    rw [add_right_comm, ← add_assoc]
    exact add_le_add htotal le_rfl
  ungated := by
    rw [worth_append]
    exact add_nonneg h.ungated (worth_nonneg hweight fun r hr => hrest r (List.mem_of_mem_take hr))

/-- In every run that begins with nobody at work, the charges stay below what there was or the cap with `k` bills on
top, but for the charges that nobody checks. -/
theorem Reaches.overshoot (hweight : ∀ r, priced r → 0 ≤ weight r) (hbill : ∀ rows i, ∀ r ∈ bill rows i, priced r)
    (hgate : ∀ rows i, allowed i → (∀ r ∈ rows, priced r) → 0 < worth weight (bill rows i) → worth weight rows ≤ cap)
    {rows : List ρ} (hrows : ∀ r ∈ rows, priced r) {s : Pool (Ledger ρ) (Spender ι ρ)}
    (h : Reaches (poolStep spendEnter (spendAct bill)) (poolGuard (spendGuard weight priced bill allowed k c))
      (· = ⟨⟨rows, []⟩, []⟩) s) :
    worth weight s.shared.rows ≤ max (worth weight rows) (cap + k • c) + worth weight s.shared.ungated := by
  have hinv : Bounded weight priced c (max (worth weight rows) (cap + k • c)) s.shared s.procs := by
    apply h.poolAll
    · exact fun _ _ _ hperm hs => hs.perm hperm
    · rintro _ rfl
      exact ⟨hrows, by simp, by simp, by simp, le_rfl⟩
    · intro ledger procs i hs
      refine ⟨hs.rows, ?_, ?_, ?_, hs.ungated⟩
      · intro rest hmem
        cases i with
        | _ => exact hs.rest rest (by simpa [spendEnter] using hmem)
      · intro p hp howes
        rcases List.mem_cons.mp hp with rfl | hp
        · cases i with
          | _ => simp [spendEnter, Spender.owes] at howes
        · exact hs.owed p hp howes
      · cases i with
        | _ => simpa [spendEnter] using hs.total
    · intro ledger others p m ledger' p' hs hg hact
      cases p with
      | arriving i =>
        cases m with
        | check =>
          cases hact
          exact hs.check hweight hbill hgate (le_max_right _ _) hg
        | charge n => cases hact
      | owing rest =>
        cases m with
        | check => cases hact
        | charge n =>
          cases hact
          exact hs.charge hweight n
      | ungated rest =>
        cases m with
        | check => cases hact
        | charge n =>
          cases hact
          exact hs.chargeUngated hweight n hg
  exact (le_add_of_nonneg_right (owed_nonneg hweight hinv.rest)).trans hinv.total

end Framework
