import Mathlib.Data.List.Basic
import ProRag.Framework.Runs

/-!
# Optimistic updates

A client applies each operation to its own value at once and sends it to a server.  The server serves the requests
in any order, or fails one without effect, and a client that learns of a failure goes back to the value it had
when that operation was made.
-/

namespace Framework

variable {σ α β : Type*}

/-- A request is on its way, was served or failed, and its answer is on the way or was received. -/
inductive CallPhase
  | sent | applied | failed | confirmed | reverted
deriving DecidableEq

structure Call (α β : Type*) where
  op : β
  was : α
  phase : CallPhase
deriving DecidableEq

/-- The value the client shows, the state of the server, and all requests in the order of their making. -/
structure Optimistic (σ α β : Type*) where
  shown : α
  server : σ
  calls : List (Call α β)

inductive OptimisticOp (β : Type*)
  | make (op : β)
  | serve (i : Nat) (ok : Bool)
  | answer (i : Nat)

/-- `apply` is what the client does with an operation, `serve` what the server does. -/
def optimisticStep (apply : α → β → α) (serve : σ → β → σ) (w : Optimistic σ α β) :
    OptimisticOp β → Option (Optimistic σ α β)
  | .make op => some { w with shown := apply w.shown op, calls := w.calls ++ [⟨op, w.shown, .sent⟩] }
  | .serve i ok =>
    match w.calls[i]? with
    | some ⟨op, was, .sent⟩ =>
      if ok then some { w with server := serve w.server op, calls := w.calls.set i ⟨op, was, .applied⟩ }
      else some { w with calls := w.calls.set i ⟨op, was, .failed⟩ }
    | _ => none
  | .answer i =>
    match w.calls[i]? with
    | some ⟨op, was, .applied⟩ => some { w with calls := w.calls.set i ⟨op, was, .confirmed⟩ }
    | some ⟨op, was, .failed⟩ => some { w with shown := was, calls := w.calls.set i ⟨op, was, .reverted⟩ }
    | _ => none

/-- No request is in flight. -/
def Optimistic.Idle (w : Optimistic σ α β) : Prop :=
  ∀ c ∈ w.calls, c.phase = .confirmed ∨ c.phase = .reverted

/-- A served request overtakes only requests that `swaps` allows, and the client learns of a failure when
everything made later has failed and is reverted. -/
def Orderly (swaps : β → β → Prop) (w : Optimistic σ α β) : OptimisticOp β → Prop
  | .make _ => True
  | .serve i ok => ok = true → ∀ c ∈ w.calls[i]?, ∀ d ∈ w.calls.take i, d.phase = .sent → swaps d.op c.op
  | .answer i => ∀ c ∈ w.calls[i]?, c.phase = .failed → ∀ d ∈ w.calls.drop (i + 1), d.phase = .reverted

instance (swaps : β → β → Prop) [DecidableRel swaps] (w : Optimistic σ α β) :
    (op : OptimisticOp β) → Decidable (Orderly swaps w op)
  | .make _ => isTrue trivial
  | .serve i ok => inferInstanceAs (Decidable (ok = true → ∀ c ∈ w.calls[i]?, ∀ d ∈ w.calls.take i,
      d.phase = .sent → swaps d.op c.op))
  | .answer i => inferInstanceAs (Decidable (∀ c ∈ w.calls[i]?, c.phase = .failed → ∀ d ∈ w.calls.drop (i + 1),
      d.phase = .reverted))

/-- The client still shows the effect of a request. -/
def Call.live (c : Call α β) : Bool := c.phase ≠ .reverted

def Call.served (c : Call α β) : Bool := c.phase = .applied ∨ c.phase = .confirmed

section Folding

variable (apply : α → β → α)

/-- The requests that `p` picks, applied in the order of their making. -/
def applyCalls (p : Call α β → Bool) (x : α) (calls : List (Call α β)) : α :=
  (calls.filter p).foldl (fun x c => apply x c.op) x

/-- Each request that is still shown was made at the value that the ones shown before it give. -/
def Snapshots (x : α) : List (Call α β) → Prop
  | [] => True
  | c :: rest => (c.live → c.was = x) ∧ Snapshots (applyCalls apply Call.live x [c]) rest

variable {apply} {p : Call α β → Bool} {x : α} {as bs : List (Call α β)} {c c' : Call α β}

theorem applyCalls_append : applyCalls apply p x (as ++ bs) = applyCalls apply p (applyCalls apply p x as) bs := by
  simp [applyCalls]

theorem applyCalls_pos (hc : p c) : applyCalls apply p x (c :: bs) = applyCalls apply p (apply x c.op) bs := by
  simp [applyCalls, hc]

theorem applyCalls_neg (hc : p c = false) : applyCalls apply p x (c :: bs) = applyCalls apply p x bs := by
  simp [applyCalls, hc]

theorem applyCalls_none (h : ∀ c ∈ as, ¬ p c) : applyCalls apply p x as = x := by
  have hnil : as.filter p = [] := List.filter_eq_nil_iff.mpr fun c hc => by simpa using h c hc
  simp [applyCalls, hnil]

theorem applyCalls_replace (hop : c'.op = c.op) (hp : p c' = p c) :
    applyCalls apply p x (as ++ c' :: bs) = applyCalls apply p x (as ++ c :: bs) := by
  cases hc : p c with
  | true => rw [applyCalls_append, applyCalls_append, applyCalls_pos hc, applyCalls_pos (hp.trans hc), hop]
  | false =>
    rw [applyCalls_append, applyCalls_append, applyCalls_neg hc, applyCalls_neg (hp.trans hc)]

theorem applyCalls_comm (b : β) (h : ∀ c ∈ bs, p c → ∀ y, apply (apply y b) c.op = apply (apply y c.op) b) :
    applyCalls apply p (apply x b) bs = apply (applyCalls apply p x bs) b := by
  induction bs generalizing x with
  | nil => rfl
  | cons c bs ih =>
    have hrest : ∀ d ∈ bs, p d → ∀ y, apply (apply y b) d.op = apply (apply y d.op) b := fun d hd =>
      h d (List.mem_cons_of_mem c hd)
    cases hc : p c with
    | true => rw [applyCalls_pos hc, applyCalls_pos hc, h c (by simp) hc, ih hrest]
    | false => rw [applyCalls_neg hc, applyCalls_neg hc, ih hrest]

theorem snapshots_append :
    Snapshots apply x (as ++ bs) ↔ Snapshots apply x as ∧ Snapshots apply (applyCalls apply Call.live x as) bs := by
  induction as generalizing x with
  | nil => simp [Snapshots, applyCalls]
  | cons a as ih =>
    have hstep : applyCalls apply Call.live x (a :: as) =
        applyCalls apply Call.live (applyCalls apply Call.live x [a]) as := by
      rw [← applyCalls_append, List.singleton_append]
    rw [List.cons_append, Snapshots, Snapshots, ih, hstep, and_assoc]

theorem snapshots_dead (h : ∀ c ∈ as, ¬ c.live) : Snapshots apply x as := by
  induction as generalizing x with
  | nil => trivial
  | cons a as ih =>
    exact ⟨fun ha => absurd ha (h a (by simp)), ih fun c hc => h c (List.mem_cons_of_mem a hc)⟩

theorem Snapshots.replace (h : Snapshots apply x (as ++ c :: bs)) (hop : c'.op = c.op) (hwas : c'.was = c.was)
    (hlive : c'.live = c.live) : Snapshots apply x (as ++ c' :: bs) := by
  rw [snapshots_append] at h ⊢
  obtain ⟨has, hc, hbs⟩ := h
  refine ⟨has, ?_, ?_⟩
  · rw [hlive, hwas]
    exact hc
  · have hsame : ∀ y, applyCalls apply Call.live y [c'] = applyCalls apply Call.live y [c] := fun y =>
      @applyCalls_replace _ _ apply Call.live y [] [] c c' hop hlive
    rw [hsame]
    exact hbs

end Folding

section Runs

variable {apply : α → β → α} {serve : σ → β → σ} {view : σ → α} {swaps : β → β → Prop}

/-- What orderly runs keep, from a client and a server that agree on `x`. -/
structure OptimisticInv (apply : α → β → α) (view : σ → α) (swaps : β → β → Prop) (x : α) (w : Optimistic σ α β) :
    Prop where
  snapshots : Snapshots apply x w.calls
  shown : w.shown = applyCalls apply Call.live x w.calls
  server : view w.server = applyCalls apply Call.served x w.calls
  overtaken : w.calls.Pairwise fun d c => d.phase = .sent → c.served → swaps d.op c.op

theorem getElem?_split {l : List α} {i : Nat} {c : α} (h : l[i]? = some c) :
    l = l.take i ++ c :: l.drop (i + 1) ∧ ∀ c', l.set i c' = l.take i ++ c' :: l.drop (i + 1) := by
  obtain ⟨hlt, rfl⟩ := List.getElem?_eq_some_iff.mp h
  constructor
  · simp
  · intro c'
    exact List.set_eq_take_append_cons_drop.trans (if_pos hlt)

theorem pairwise_replace {r : β → β → Prop} {as bs : List β} {c c' : β} (h : (as ++ c :: bs).Pairwise r)
    (hbefore : ∀ d ∈ as, r d c → r d c') (hafter : ∀ d ∈ bs, r c d → r c' d) : (as ++ c' :: bs).Pairwise r := by
  rw [List.pairwise_append, List.pairwise_cons] at h ⊢
  obtain ⟨has, ⟨hc, hbs⟩, hcross⟩ := h
  refine ⟨has, ⟨fun d hd => hafter d hd (hc d hd), hbs⟩, ?_⟩
  intro d hd e he
  rcases List.mem_cons.mp he with rfl | he
  · exact hbefore d hd (hcross d hd c (by simp))
  · exact hcross d hd e (List.mem_cons_of_mem c he)

section Step

variable {x : α} {w : Optimistic σ α β} {before after : List (Call α β)} {op : β} {was : α}

theorem OptimisticInv.rephase {phase phase' : CallPhase} (h : OptimisticInv apply view swaps x w)
    (hcalls : w.calls = before ++ ⟨op, was, phase⟩ :: after)
    (hlive : (⟨op, was, phase'⟩ : Call α β).live = (⟨op, was, phase⟩ : Call α β).live)
    (hserved : (⟨op, was, phase'⟩ : Call α β).served = (⟨op, was, phase⟩ : Call α β).served)
    (hsent : phase' ≠ .sent) :
    OptimisticInv apply view swaps x { w with calls := before ++ ⟨op, was, phase'⟩ :: after } where
  snapshots := by
    have hsnap := h.snapshots
    rw [hcalls] at hsnap
    exact hsnap.replace rfl rfl hlive
  shown := by
    rw [h.shown, hcalls]
    symm
    exact applyCalls_replace rfl hlive
  server := by
    rw [h.server, hcalls]
    symm
    exact applyCalls_replace rfl hserved
  overtaken := by
    have hovertaken := h.overtaken
    rw [hcalls] at hovertaken
    apply pairwise_replace hovertaken
    · intro d _ hd hdsent hc
      exact hd hdsent (hserved ▸ hc)
    · intro d _ _ hc
      exact absurd hc hsent

theorem OptimisticInv.make (h : OptimisticInv apply view swaps x w) (op : β) :
    OptimisticInv apply view swaps x
      { w with shown := apply w.shown op, calls := w.calls ++ [⟨op, w.shown, .sent⟩] } where
  snapshots := snapshots_append.mpr ⟨h.snapshots, fun _ => h.shown, trivial⟩
  shown := by
    rw [applyCalls_append, ← h.shown]
    rfl
  server := by
    rw [applyCalls_append, ← h.server]
    rfl
  overtaken := by
    rw [List.pairwise_append]
    refine ⟨h.overtaken, List.pairwise_singleton _ _, ?_⟩
    intro d _ c hc _ hserved
    obtain rfl := List.mem_singleton.mp hc
    cases hserved

theorem OptimisticInv.served (hserve : ∀ s b, view (serve s b) = apply (view s) b)
    (hswaps : ∀ d c, swaps d c → ∀ y, apply (apply y d) c = apply (apply y c) d)
    (h : OptimisticInv apply view swaps x w) (hcalls : w.calls = before ++ ⟨op, was, .sent⟩ :: after)
    (horder : ∀ d ∈ before, d.phase = .sent → swaps d.op op) :
    OptimisticInv apply view swaps x
      { w with server := serve w.server op, calls := before ++ ⟨op, was, .applied⟩ :: after } where
  snapshots := by
    have hsnap := h.snapshots
    rw [hcalls] at hsnap
    exact hsnap.replace rfl rfl rfl
  shown := by
    rw [h.shown, hcalls]
    symm
    exact applyCalls_replace rfl rfl
  server := by
    have hovertaken := h.overtaken
    rw [hcalls, List.pairwise_append, List.pairwise_cons] at hovertaken
    have hlater : ∀ c ∈ after, c.served → ∀ y, apply (apply y op) c.op = apply (apply y c.op) op := fun c hc hs =>
      hswaps op c.op (hovertaken.2.1.1 c hc rfl hs)
    rw [hserve, h.server, hcalls, applyCalls_append, applyCalls_append, applyCalls_neg rfl, applyCalls_pos rfl]
    exact (applyCalls_comm op hlater).symm
  overtaken := by
    have hovertaken := h.overtaken
    rw [hcalls] at hovertaken
    apply pairwise_replace hovertaken
    · intro d hd _ hsent _
      exact horder d hd hsent
    · intro d _ _ hc
      cases hc

theorem OptimisticInv.revert (h : OptimisticInv apply view swaps x w)
    (hcalls : w.calls = before ++ ⟨op, was, .failed⟩ :: after) (hlast : ∀ d ∈ after, d.phase = .reverted) :
    OptimisticInv apply view swaps x
      { w with shown := was, calls := before ++ ⟨op, was, .reverted⟩ :: after } := by
  have hsnap := h.snapshots
  rw [hcalls, snapshots_append] at hsnap
  obtain ⟨hbefore, hwas, -⟩ := hsnap
  have hdead : ∀ d ∈ (⟨op, was, .reverted⟩ : Call α β) :: after, ¬ d.live := by
    intro d hd
    rcases List.mem_cons.mp hd with rfl | hd
    · simp [Call.live]
    · simp [Call.live, hlast d hd]
  constructor
  · exact snapshots_append.mpr ⟨hbefore, snapshots_dead hdead⟩
  · rw [applyCalls_append, applyCalls_none hdead]
    exact hwas rfl
  · rw [h.server, hcalls]
    symm
    exact applyCalls_replace rfl rfl
  · have hovertaken := h.overtaken
    rw [hcalls] at hovertaken
    apply pairwise_replace hovertaken
    · intro d _ hd hdsent hc
      cases hc
    · intro d _ _ hc
      cases hc

end Step

theorem optimisticStep_inv {x : α} (hserve : ∀ s b, view (serve s b) = apply (view s) b)
    (hswaps : ∀ d c, swaps d c → ∀ y, apply (apply y d) c = apply (apply y c) d) {w w' : Optimistic σ α β}
    {op : OptimisticOp β} (h : OptimisticInv apply view swaps x w) (hg : Orderly swaps w op)
    (hs : optimisticStep apply serve w op = some w') : OptimisticInv apply view swaps x w' := by
  cases op with
  | make op =>
    obtain rfl := Option.some.inj hs
    exact h.make op
  | serve i ok =>
    simp only [optimisticStep] at hs
    split at hs
    · rename_i op was hi
      obtain ⟨hcalls, hset⟩ := getElem?_split hi
      cases ok with
      | true =>
        obtain rfl := Option.some.inj hs
        rw [hset]
        exact h.served hserve hswaps hcalls fun d hd hsent => hg rfl _ hi d hd hsent
      | false =>
        obtain rfl := Option.some.inj hs
        rw [hset]
        exact h.rephase hcalls rfl rfl (by simp)
    · cases hs
  | answer i =>
    simp only [optimisticStep] at hs
    split at hs
    · rename_i op was hi
      obtain ⟨hcalls, hset⟩ := getElem?_split hi
      obtain rfl := Option.some.inj hs
      rw [hset]
      exact h.rephase hcalls rfl rfl (by simp)
    · rename_i op was hi
      obtain ⟨hcalls, hset⟩ := getElem?_split hi
      obtain rfl := Option.some.inj hs
      rw [hset]
      exact h.revert hcalls fun d hd => hg _ hi rfl d hd
    · cases hs

/-- With no request in flight, what the client still shows is what the server applied. -/
theorem OptimisticInv.agree {x : α} {w : Optimistic σ α β} (h : OptimisticInv apply view swaps x w) (hidle : w.Idle) :
    w.shown = view w.server := by
  rw [h.shown, h.server]
  have hsame : w.calls.filter Call.live = w.calls.filter Call.served := by
    apply List.filter_congr
    intro c hc
    rcases hidle c hc with hphase | hphase
    · simp [Call.live, Call.served, hphase]
    · simp [Call.live, Call.served, hphase]
  simp [applyCalls, hsame]

/-- In orderly runs from agreement, client and server agree whenever no request is in flight. -/
theorem optimistic_agree (hserve : ∀ s b, view (serve s b) = apply (view s) b)
    (hswaps : ∀ d c, swaps d c → ∀ y, apply (apply y d) c = apply (apply y c) d) {w : Optimistic σ α β}
    (h : Reaches (optimisticStep apply serve) (Orderly swaps) (fun w => w.calls = [] ∧ w.shown = view w.server) w)
    (hidle : w.Idle) : w.shown = view w.server := by
  have hinv : ∃ x, OptimisticInv apply view swaps x w := by
    refine h.invariant (fun w => ∃ x, OptimisticInv apply view swaps x w) ?_ ?_
    · intro w ⟨hcalls, hshown⟩
      refine ⟨w.shown, ?_, ?_, ?_, ?_⟩
      · rw [hcalls]
        trivial
      · rw [hcalls]
        rfl
      · rw [hcalls]
        exact hshown.symm
      · rw [hcalls]
        exact List.Pairwise.nil
    · intro w op w' ⟨x, hinv⟩ hg hs
      exact ⟨x, optimisticStep_inv hserve hswaps hinv hg hs⟩
  obtain ⟨x, hinv⟩ := hinv
  exact hinv.agree hidle

end Runs

end Framework
