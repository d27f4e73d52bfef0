import Mathlib.Algebra.Order.Group.Nat
import ProRag.Framework.UnitOfWork

/-!
# What a unit of work has still to commit

A computation that adds the rows of all it logs, and never has many of them uncommitted: `before` bounds the uncommitted
rows that it begins with, `after` those it returns with, and `failed` those it raises with.
-/

namespace Framework

variable {ρ κ ε α β : Type} {row : κ → List ρ} {before middle after failed : Nat}

/-- A sequence returns just when its parts do. -/
theorem Tx.bind_eq_ok {t : Tx ρ κ ε α} {f : α → Tx ρ κ ε β} {u u' : Uow ρ κ} {b : β} :
    (t >>= f) u = (.ok b, u') ↔ ∃ a v, t u = (.ok a, v) ∧ f a v = (.ok b, u') := by
  rw [Tx.bind_apply]
  cases hrun : t u with
  | mk result v =>
    cases result with
    | ok a => simp
    | error e => simp

/-- The rows of everything in the log have been added. -/
def Uow.Booked (row : κ → List ρ) (u : Uow ρ κ) : Prop := u.committed ++ u.staged = u.log.flatMap row

def arrearsBound (after failed : Nat) : Except ε α → Nat
  | .ok _ => after
  | .error _ => failed

def Arrears (row : κ → List ρ) (before after failed : Nat) (t : Tx ρ κ ε α) : Prop :=
  ∀ u, u.Booked row → u.staged.length ≤ before →
    (t u).2.Booked row ∧ (t u).2.staged.length ≤ arrearsBound after failed (t u).1

theorem Arrears.pure (a : α) : Arrears row before before failed (Pure.pure a : Tx ρ κ ε α) := fun _ hu hle => ⟨hu, hle⟩

theorem Arrears.await (r : Except ε α) (h : before ≤ failed) : Arrears row before before failed (Tx.await r) := by
  intro u hu hle
  refine ⟨hu, ?_⟩
  cases r with
  | ok a => exact hle
  | error e => exact hle.trans h

theorem Arrears.mono {before' after' failed' : Nat} {t : Tx ρ κ ε α} (ht : Arrears row before after failed t)
    (hb : before' ≤ before) (ha : after ≤ after') (hf : failed ≤ failed') : Arrears row before' after' failed' t := by
  intro u hu hle
  obtain ⟨hbooked, hbound⟩ := ht u hu (hle.trans hb)
  refine ⟨hbooked, hbound.trans ?_⟩
  cases (t u).1 with
  | ok a => exact ha
  | error e => exact hf

theorem Arrears.of_stages {t : Tx ρ κ ε α} {r : Except ε α} {l : List κ} {n : Nat} (ht : Stages row t r l)
    (hl : (l.flatMap row).length ≤ n) (hf : before + n ≤ failed) : Arrears row before (before + n) failed t := by
  intro u hu hle
  rw [ht u]
  constructor
  · simp only [Uow.Booked, Uow.stage, List.flatMap_append] at hu ⊢
    rw [← List.append_assoc, hu]
  · have hlen : (u.stage row l).staged.length ≤ before + n := by
      simp only [Uow.stage, List.length_append]
      omega
    cases r with
    | ok a => exact hlen
    | error e => exact hlen.trans hf

theorem Uow.Booked.flush {u : Uow ρ κ} (h : u.Booked row) : u.flush.Booked row := by
  simpa [Uow.flush, Uow.Booked] using h

theorem Arrears.commit (c : CommitOutcome ε) (h : before ≤ failed) : Arrears row before 0 failed (Tx.commit c) := by
  intro u hu hle
  cases c with
  | raised exc => exact ⟨hu, hle.trans h⟩
  | _ => exact ⟨hu.flush, Nat.zero_le _⟩

theorem Arrears.bind {t : Tx ρ κ ε α} {f : α → Tx ρ κ ε β} (ht : Arrears row before middle failed t)
    (hf : ∀ a, Arrears row middle after failed (f a)) : Arrears row before after failed (t >>= f) := by
  intro u hu hle
  have hleft := ht u hu hle
  rw [Tx.bind_apply]
  cases hrun : t u with
  | mk result u' =>
    rw [hrun] at hleft
    cases result with
    | ok a => exact hf a u' hleft.1 hleft.2
    | error e => exact hleft

theorem Arrears.tryCatch {t : Tx ρ κ ε α} {caught : ε → Bool} {handler : ε → Tx ρ κ ε α}
    (ht : Arrears row before after failed t) (hh : ∀ e, Arrears row failed after failed (handler e)) :
    Arrears row before after failed (Tx.tryCatch caught t handler) := by
  intro u hu hle
  have hbody := ht u hu hle
  rw [Tx.tryCatch]
  cases hrun : t u with
  | mk result u' =>
    rw [hrun] at hbody
    cases result with
    | ok a => exact hbody
    | error e =>
      by_cases hcaught : caught e = true
      · simpa [hcaught] using hh e u' hbody.1 hbody.2
      · simpa [hcaught] using hbody

/-- A request on an empty session commits what it has logged but for the last few rows, and for none when it returns. -/
theorem Arrears.request {t : Tx ρ κ ε α} (ht : Arrears row 0 0 failed t) : ∃ lost, lost.length ≤ failed ∧
    (t.request []).committed ++ lost = (t.request []).log.flatMap row ∧ ∀ a, (t ⟨[], [], []⟩).1 = .ok a → lost = [] := by
  obtain ⟨hbooked, hbound⟩ := ht ⟨[], [], []⟩ rfl le_rfl
  refine ⟨(t ⟨[], [], []⟩).2.staged, ?_, hbooked, ?_⟩
  · apply hbound.trans
    cases (t ⟨[], [], []⟩).1 with
    | ok a => exact Nat.zero_le failed
    | error e => exact le_rfl
  · intro a ha
    rw [ha] at hbound
    exact List.length_eq_zero_iff.mp (Nat.le_zero.mp hbound)

end Framework
