import Mathlib.Data.List.Basic
import Mathlib.Data.List.Chain

/-!
# Windows and runs of a list

Windows that overlap, and the longest runs of elements with one key.
-/

namespace Framework

variable {α κ : Type*}

/-- Windows of `size` elements whose starts are `step` places apart. -/
structure Stride where
  size : Nat
  step : Nat
  step_pos : 0 < step
  step_le : step ≤ size

/-- One list after the other, all but the first without their first `n` elements. -/
def rejoin (n : Nat) : List (List α) → List α
  | [] => []
  | w :: ws => w ++ ws.flatMap fun w => w.drop n

/-- The windows of a list: they cover it, each reaches beyond the one before, and they join to the list. -/
structure WindowsOf (size step : Nat) (xs : List α) (ws : List (List α)) : Prop where
  window : ∀ k w, ws[k]? = some w → w = (xs.drop (k * step)).take size
  bounded : ∀ w ∈ ws, w ≠ [] ∧ w.length ≤ size
  covers : ∀ j, j < xs.length → ∃ k w, ws[k]? = some w ∧ k * step ≤ j ∧ j < k * step + w.length
  advances : ∀ k w w', ws[k]? = some w → ws[k + 1]? = some w' → k * step + w.length < (k + 1) * step + w'.length
  joined : rejoin (size - step) ws = xs

namespace Stride

/-- The starts from place `i` on; the window of the last is the first that reaches the end. -/
def starts (s : Stride) (n i : Nat) : List Nat :=
  if i < n then i :: if n ≤ i + s.size then [] else s.starts n (i + s.step) else []
termination_by n - i
decreasing_by
  have hstep := s.step_pos
  omega

def windowAt (s : Stride) (xs : List α) (i : Nat) : List α := (xs.drop i).take s.size

def windows (s : Stride) (xs : List α) : List (List α) := (s.starts xs.length 0).map (s.windowAt xs)

variable {s : Stride} {n i : Nat} {xs : List α}

theorem starts_end (h : n ≤ i) : s.starts n i = [] := by
  rw [starts, if_neg (by omega)]

theorem starts_last (h : i < n) (hlast : n ≤ i + s.size) : s.starts n i = [i] := by
  rw [starts, if_pos h, if_pos hlast]

theorem starts_next (h : i + s.size < n) : s.starts n i = i :: s.starts n (i + s.step) := by
  rw [starts, if_pos (by omega), if_neg (by omega)]

theorem starts_place {k j : Nat} (h : (s.starts n i)[k]? = some j) : j = i + k * s.step ∧ j < n := by
  induction k generalizing i with
  | zero =>
    rw [starts] at h
    split at h
    · rename_i hi
      rw [List.getElem?_cons_zero, Option.some.injEq] at h
      omega
    · cases h
  | succ k ih =>
    rw [starts] at h
    split at h
    · rw [List.getElem?_cons_succ] at h
      split at h
      · cases h
      · have hj := ih h
        rw [Nat.succ_mul]
        omega
    · cases h

theorem starts_inner {k j j' : Nat} (h : (s.starts n i)[k]? = some j) (hnext : (s.starts n i)[k + 1]? = some j') :
    j + s.size < n := by
  induction k generalizing i with
  | zero =>
    rw [starts] at h hnext
    split at h
    · rw [if_pos (by assumption), List.getElem?_cons_succ] at hnext
      rw [List.getElem?_cons_zero, Option.some.injEq] at h
      split at hnext
      · cases hnext
      · omega
    · cases h
  | succ k ih =>
    rw [starts] at h hnext
    split at h
    · rw [if_pos (by assumption), List.getElem?_cons_succ] at hnext
      rw [List.getElem?_cons_succ] at h
      split at h
      · cases h
      · rw [if_neg (by assumption)] at hnext
        exact ih h hnext
    · cases h

theorem starts_covers {p : Nat} (hi : i ≤ p) (hp : p < n) : ∃ k j : Nat, (s.starts n i)[k]? = some j ∧ j ≤ p ∧ p < j + s.size := by
  induction hsize : n - i using Nat.strong_induction_on generalizing i with
  | _ d ih =>
    by_cases hin : p < i + s.size
    · refine ⟨0, i, ?_, hi, hin⟩
      rw [starts, if_pos (by omega)]
      rfl
    · have hstep := s.step_pos
      have hle := s.step_le
      obtain ⟨k, j, hj, hplace⟩ := ih (n - (i + s.step)) (by omega) (by omega) rfl
      refine ⟨k + 1, j, ?_, hplace⟩
      rw [starts_next (by omega), List.getElem?_cons_succ]
      exact hj

@[simp] theorem windowAt_length (s : Stride) (xs : List α) (i : Nat) :
    (s.windowAt xs i).length = min s.size (xs.length - i) := by simp [windowAt]

theorem rejoin_drop {m : Nat} {w : List α} {ws : List (List α)} (h : m ≤ w.length) :
    ((w :: ws).flatMap fun w => w.drop m) = (rejoin m (w :: ws)).drop m := by
  rw [rejoin, List.drop_append_of_le_length h, List.flatMap_cons]

/-- The windows from a place on join to what stands from there on. -/
theorem rejoin_windows (s : Stride) (xs : List α) (i : Nat) :
    rejoin (s.size - s.step) ((s.starts xs.length i).map (s.windowAt xs)) = xs.drop i := by
  induction hsize : xs.length - i using Nat.strong_induction_on generalizing i with
  | _ d ih =>
    by_cases hi : i < xs.length
    · by_cases hlast : xs.length ≤ i + s.size
      · rw [starts_last hi hlast]
        simp only [List.map_cons, List.map_nil, rejoin, List.flatMap_nil, List.append_nil, windowAt]
        exact List.take_of_length_le (by rw [List.length_drop]; omega)
      · have hstep := s.step_pos
        have hle := s.step_le
        have hrest := ih (xs.length - (i + s.step)) (by omega) (i + s.step) rfl
        rw [starts_next (by omega), List.map_cons, rejoin]
        have hhead : ∃ later, s.starts xs.length (i + s.step) = (i + s.step) :: later := by
          rw [starts, if_pos (by omega)]
          exact ⟨_, rfl⟩
        obtain ⟨later, hlater⟩ := hhead
        rw [hlater, List.map_cons] at hrest ⊢
        have hoverlap : s.size - s.step ≤ (s.windowAt xs (i + s.step)).length := by
          rw [windowAt_length]
          omega
        rw [rejoin_drop hoverlap, hrest, List.drop_drop]
        have hplace : i + s.step + (s.size - s.step) = i + s.size := by omega
        rw [hplace, windowAt, ← List.drop_drop, List.take_append_drop]
    · rw [starts_end (by omega), List.drop_of_length_le (by omega)]
      rfl

theorem windows_windowsOf (s : Stride) (xs : List α) : WindowsOf s.size s.step xs (s.windows xs) := by
  have hwindow : ∀ k w, (s.windows xs)[k]? = some w → k * s.step < xs.length ∧ w = s.windowAt xs (k * s.step) := by
    intro k w h
    rw [windows, List.getElem?_map, Option.map_eq_some_iff] at h
    obtain ⟨j, hj, rfl⟩ := h
    obtain ⟨rfl, hlt⟩ := starts_place hj
    rw [Nat.zero_add] at hlt ⊢
    exact ⟨hlt, rfl⟩
  have hstep := s.step_pos
  have hle := s.step_le
  constructor
  · intro k w h
    exact (hwindow k w h).2
  · intro w hw
    obtain ⟨k, hk⟩ := List.mem_iff_getElem?.mp hw
    obtain ⟨hlt, rfl⟩ := hwindow k w hk
    have hlength := windowAt_length s xs (k * s.step)
    constructor
    · apply List.ne_nil_of_length_pos
      omega
    · omega
  · intro j hj
    obtain ⟨k, i, hi, hplace⟩ := starts_covers (s := s) (Nat.zero_le j) hj
    obtain ⟨rfl, _⟩ := starts_place hi
    rw [Nat.zero_add] at hi hplace
    refine ⟨k, s.windowAt xs (k * s.step), ?_, hplace.1, ?_⟩
    · rw [windows, List.getElem?_map, hi]
      rfl
    · rw [windowAt_length]
      omega
  · intro k w w' h hnext
    have hinner : k * s.step + s.size < xs.length := by
      have hboth := hwindow k w h
      rw [windows, List.getElem?_map, Option.map_eq_some_iff] at h hnext
      obtain ⟨j, hj, _⟩ := h
      obtain ⟨j', hj', _⟩ := hnext
      have hplace := (starts_place hj).1
      have hin := starts_inner hj hj'
      omega
    rw [(hwindow k w h).2, (hwindow (k + 1) w' hnext).2, windowAt_length, windowAt_length, Nat.succ_mul]
    omega
  · rw [windows, rejoin_windows, List.drop_zero]

end Stride

theorem WindowsOf.exists_mem_iff {size step : Nat} {xs : List α} {ws : List (List α)} (h : WindowsOf size step xs ws) {x : α} :
    (∃ w ∈ ws, x ∈ w) ↔ x ∈ xs := by
  constructor
  · intro hx
    obtain ⟨w, hw, hmem⟩ := hx
    obtain ⟨k, hk⟩ := List.mem_iff_getElem?.mp hw
    rw [h.window k w hk] at hmem
    exact List.mem_of_mem_drop (List.mem_of_mem_take hmem)
  · intro hx
    obtain ⟨j, hj⟩ := List.mem_iff_getElem?.mp hx
    obtain ⟨hlt, _⟩ := List.getElem?_eq_some_iff.mp hj
    obtain ⟨k, w, hk, hfrom, hto⟩ := h.covers j hlt
    have hw := h.window k w hk
    have hlength : w.length ≤ size := (h.bounded w (List.mem_of_getElem? hk)).2
    refine ⟨w, List.mem_of_getElem? hk, List.mem_iff_getElem?.mpr ⟨j - k * step, ?_⟩⟩
    rw [hw, List.getElem?_take, if_pos (by omega), List.getElem?_drop, Nat.add_sub_cancel' hfrom, hj]

theorem WindowsOf.map {β : Type*} {size step : Nat} {xs : List α} {ws : List (List α)} (h : WindowsOf size step xs ws) (f : α → β) :
    WindowsOf size step (xs.map f) (ws.map fun w => w.map f) := by
  have hback : ∀ (k : Nat) (v : List β), (ws.map fun w => w.map f)[k]? = some v → ∃ w, ws[k]? = some w ∧ v = w.map f := by
    intro k v hv
    rw [List.getElem?_map, Option.map_eq_some_iff] at hv
    obtain ⟨w, hw, rfl⟩ := hv
    exact ⟨w, hw, rfl⟩
  constructor
  · intro k v hv
    obtain ⟨w, hw, rfl⟩ := hback k v hv
    rw [h.window k w hw, List.map_take, List.map_drop]
  · intro v hv
    obtain ⟨w, hw, rfl⟩ := List.mem_map.mp hv
    have hbound := h.bounded w hw
    simpa using hbound
  · intro j hj
    rw [List.length_map] at hj
    obtain ⟨k, w, hw, hplace⟩ := h.covers j hj
    refine ⟨k, w.map f, ?_, ?_⟩
    · rw [List.getElem?_map, hw]
      rfl
    · simpa using hplace
  · intro k v v' hv hv'
    obtain ⟨w, hw, rfl⟩ := hback k v hv
    obtain ⟨w', hw', rfl⟩ := hback (k + 1) v' hv'
    simpa using h.advances k w w' hw hw'
  · have hrejoin : ∀ n, rejoin n (ws.map fun w => w.map f) = (rejoin n ws).map f := by
      intro n
      cases ws with
      | nil => rfl
      | cons w ws => simp [rejoin, List.flatMap_map, List.map_flatMap]
    rw [hrejoin, h.joined]

/-! ## Runs -/

structure MaximalRuns (key : α → κ) (xs : List α) (runs : List (List α)) : Prop where
  joined : runs.flatten = xs
  nonempty : [] ∉ runs
  alike : ∀ run ∈ runs, ∀ a ∈ run, ∀ b ∈ run, key a = key b
  apart : runs.IsChain fun run next => ∀ a ∈ run, ∀ b ∈ next, key a ≠ key b

namespace MaximalRuns

variable {key : α → κ} {xs run : List α} {runs : List (List α)} {a b : α}

theorem nil (key : α → κ) : MaximalRuns key [] [] := by
  constructor
  · rfl
  · simp
  · simp
  · exact List.isChain_nil

theorem prolong (h : MaximalRuns key xs (runs ++ [run])) (hb : b ∈ run) (hkey : key a = key b) :
    MaximalRuns key (xs ++ [a]) (runs ++ [run ++ [a]]) := by
  have hrun : ∀ c ∈ run ++ [a], key c = key b := by
    intro c hc
    rcases List.mem_append.mp hc with hmem | hlast
    · exact h.alike run (by simp) c hmem b hb
    · rw [List.mem_singleton.mp hlast, hkey]
  constructor
  · rw [← h.joined]
    simp
  · have hne := h.nonempty
    simp only [List.mem_append, not_or] at hne
    simp [hne.1]
  · intro r hr c hc d hd
    rcases List.mem_append.mp hr with hmem | hlast
    · exact h.alike r (List.mem_append_left _ hmem) c hc d hd
    · rw [List.mem_singleton.mp hlast] at hc hd
      rw [hrun c hc, hrun d hd]
  · have hapart := h.apart
    rw [List.isChain_append] at hapart ⊢
    refine ⟨hapart.1, List.isChain_singleton _, ?_⟩
    intro r hr next hnext c hc d hd
    simp only [List.head?_cons, Option.mem_some_iff] at hnext
    subst hnext
    rw [hrun d hd]
    exact hapart.2.2 r hr run (by simp) c hc b hb

theorem start (h : MaximalRuns key xs (runs ++ [run])) (hb : b ∈ run) (hkey : key a ≠ key b) :
    MaximalRuns key (xs ++ [a]) (runs ++ [run] ++ [[a]]) := by
  constructor
  · rw [← h.joined]
    simp
  · have hne := h.nonempty
    simp only [List.mem_append, List.mem_singleton, not_or] at hne ⊢
    exact ⟨hne, by simp⟩
  · intro r hr c hc d hd
    rcases List.mem_append.mp hr with hmem | hlast
    · exact h.alike r hmem c hc d hd
    · rw [List.mem_singleton.mp hlast] at hc hd
      rw [List.mem_singleton.mp hc, List.mem_singleton.mp hd]
  · rw [List.isChain_append]
    refine ⟨h.apart, List.isChain_singleton _, ?_⟩
    intro r hr next hnext c hc d hd
    simp only [List.getLast?_concat, Option.mem_some_iff] at hr
    simp only [List.head?_cons, Option.mem_some_iff] at hnext
    subst hr hnext
    rw [List.mem_singleton.mp hd, h.alike run (by simp) c hc b hb]
    exact fun heq => hkey heq.symm

theorem single (a : α) : MaximalRuns key [a] [[a]] := by
  constructor
  · rfl
  · simp
  · simp
  · exact List.isChain_singleton _

end MaximalRuns

end Framework
