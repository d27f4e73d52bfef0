import Mathlib.Data.List.Perm.Basic
import ProRag.Framework.Runs

/-!
# Pools of processes over shared state

Any number of processes, each with its own local state, take turns on one shared state.  A move
of one process may look at the others, as a lock or a unique index does.
-/

namespace Framework

variable {σ κ ι μ : Type*}

structure Pool (σ κ : Type*) where
  shared : σ
  procs : List κ

inductive PoolOp (ι μ : Type*)
  | spawn (i : ι)
  | move (pid : Nat) (m : μ)

/-- `enter` is where a process begins; `act s others k m` is the move `m` of a process at `k`. -/
def poolStep (enter : ι → κ) (act : σ → List κ → κ → μ → Option (σ × κ)) (s : Pool σ κ) :
    PoolOp ι μ → Option (Pool σ κ)
  | .spawn i => some ⟨s.shared, s.procs ++ [enter i]⟩
  | .move pid m =>
    match s.procs[pid]? with
    | none => none
    | some k => (act s.shared (s.procs.eraseIdx pid) k m).map fun r => ⟨r.1, s.procs.set pid r.2⟩

/-- A condition on moves, as a guard of the pool's runs. -/
def poolGuard (guard : σ → List κ → κ → μ → Prop) (s : Pool σ κ) : PoolOp ι μ → Prop
  | .spawn _ => True
  | .move pid m => ∀ k, s.procs[pid]? = some k → guard s.shared (s.procs.eraseIdx pid) k m

instance (guard : σ → List κ → κ → μ → Prop) [∀ s others k m, Decidable (guard s others k m)] (s : Pool σ κ) :
    (op : PoolOp ι μ) → Decidable (poolGuard guard s op)
  | .spawn _ => isTrue trivial
  | .move pid m =>
    match h : s.procs[pid]? with
    | none => isTrue fun k hk => by rw [h] at hk; cases hk
    | some k => decidable_of_iff (guard s.shared (s.procs.eraseIdx pid) k m)
        ⟨fun hg k' hk => Option.some.inj (h.symm.trans hk) ▸ hg, fun hg => hg k h⟩

/-- An invariant of the shared state and of each process against it. -/
structure PoolInv (Shared : σ → Prop) (Local : σ → κ → Prop) (s : Pool σ κ) : Prop where
  shared : Shared s.shared
  procs : ∀ k ∈ s.procs, Local s.shared k

theorem mem_of_mem_eraseIdx {l : List κ} {pid : Nat} {k : κ} (h : k ∈ l.eraseIdx pid) : k ∈ l :=
  (List.eraseIdx_sublist l pid).subset h

theorem mem_set_iff {l : List κ} {pid : Nat} {k0 k' k : κ} (h0 : l[pid]? = some k0) :
    k ∈ l.set pid k' ↔ k = k' ∨ k ∈ l.eraseIdx pid := by
  induction l generalizing pid with
  | nil => simp at h0
  | cons a as ih =>
    cases pid with
    | zero => simp
    | succ n =>
      have h1 : as[n]? = some k0 := by simpa using h0
      simp only [List.set_cons_succ, List.eraseIdx_cons_succ, List.mem_cons]
      rw [ih h1]
      tauto

variable {enter : ι → κ} {act : σ → List κ → κ → μ → Option (σ × κ)}
  {guard : σ → List κ → κ → μ → Prop} {init : Pool σ κ → Prop}
  {Shared : σ → Prop} {Local : σ → κ → Prop}

/-- A move keeps the invariant when it keeps the shared part, establishes the mover's part and does
not disturb the other processes. -/
theorem poolInv_step (henter : ∀ s i, Shared s → Local s (enter i))
    (hact : ∀ s others k m s' k', Shared s → (∀ k0 ∈ others, Local s k0) → Local s k → guard s others k m →
      act s others k m = some (s', k') → Shared s' ∧ Local s' k' ∧ ∀ k0 ∈ others, Local s' k0)
    {s s' : Pool σ κ} {op : PoolOp ι μ} (h : PoolInv Shared Local s) (hg : poolGuard guard s op)
    (hs : poolStep enter act s op = some s') : PoolInv Shared Local s' := by
  cases op with
  | spawn i =>
    obtain rfl := Option.some.inj hs
    refine ⟨h.shared, ?_⟩
    intro k hk
    rcases List.mem_append.mp hk with hk | hk
    · exact h.procs k hk
    · obtain rfl := List.mem_singleton.mp hk
      exact henter s.shared i h.shared
  | move pid m =>
    simp only [poolStep] at hs
    split at hs
    · cases hs
    · rename_i k hk
      obtain ⟨⟨t, k'⟩, hr, rfl⟩ := Option.map_eq_some_iff.mp hs
      have hothers : ∀ k0 ∈ s.procs.eraseIdx pid, Local s.shared k0 := fun k0 h0 =>
        h.procs k0 (mem_of_mem_eraseIdx h0)
      have hmover : Local s.shared k := h.procs k (List.mem_of_getElem? hk)
      obtain ⟨hshared, hk', hrest⟩ := hact _ _ _ _ _ _ h.shared hothers hmover (hg k hk) hr
      refine ⟨hshared, ?_⟩
      intro k0 h0
      rcases (mem_set_iff hk).mp h0 with rfl | h0
      · exact hk'
      · exact hrest k0 h0

/-- The run rule of pools. -/
theorem Reaches.poolInv (h0 : ∀ s, init s → PoolInv Shared Local s)
    (henter : ∀ s i, Shared s → Local s (enter i))
    (hact : ∀ s others k m s' k', Shared s → (∀ k0 ∈ others, Local s k0) → Local s k → guard s others k m →
      act s others k m = some (s', k') → Shared s' ∧ Local s' k' ∧ ∀ k0 ∈ others, Local s' k0)
    {s : Pool σ κ} (h : Reaches (poolStep enter act) (poolGuard guard) init s) : PoolInv Shared Local s :=
  h.invariant _ h0 fun _ _ _ hinv hg hs => poolInv_step henter hact hinv hg hs

theorem perm_cons_eraseIdx {l : List κ} {pid : Nat} {k : κ} (h : l[pid]? = some k) :
    l.Perm (k :: l.eraseIdx pid) := by
  obtain ⟨hlt, rfl⟩ := List.getElem?_eq_some_iff.mp h
  exact (List.getElem_cons_eraseIdx_perm hlt).symm

/-- The run rule for an invariant of the shared state and all processes at once, in no particular order. -/
theorem Reaches.poolAll {Inv : σ → List κ → Prop} (hperm : ∀ s l l', l.Perm l' → Inv s l → Inv s l')
    (h0 : ∀ s, init s → Inv s.shared s.procs) (henter : ∀ s l i, Inv s l → Inv s (enter i :: l))
    (hact : ∀ s others k m s' k', Inv s (k :: others) → guard s others k m → act s others k m = some (s', k') →
      Inv s' (k' :: others))
    {s : Pool σ κ} (h : Reaches (poolStep enter act) (poolGuard guard) init s) : Inv s.shared s.procs := by
  apply h.invariant (fun s => Inv s.shared s.procs) h0
  intro s op s' hinv hg hs
  cases op with
  | spawn i =>
    obtain rfl := Option.some.inj hs
    exact hperm _ _ _ (List.perm_append_singleton (enter i) s.procs).symm (henter _ _ i hinv)
  | move pid m =>
    simp only [poolStep] at hs
    split at hs
    · cases hs
    · rename_i k hk
      obtain ⟨⟨t, k'⟩, hr, rfl⟩ := Option.map_eq_some_iff.mp hs
      have hlt : pid < s.procs.length := (List.getElem?_eq_some_iff.mp hk).1
      have hmoved := hact _ _ _ _ _ _ (hperm _ _ _ (perm_cons_eraseIdx hk) hinv) (hg k hk) hr
      exact hperm _ _ _ (List.set_perm_cons_eraseIdx hlt k').symm hmoved

end Framework
