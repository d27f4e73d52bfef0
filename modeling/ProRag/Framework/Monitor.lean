import ProRag.Framework.UnitOfWork

/-!
# Monitored logs

A monitor reads a log from left to right and refuses an event that is out of turn.  `Monitored` says of a computation,
as a triple does, from which states of the monitor it may start and to which of them its log leads: one way when it
returns, another when it raises.
-/

namespace Framework

variable {ρ κ ε α β S : Type} {next : S → κ → Option S}

def monitor (next : S → κ → Option S) (s : S) (log : List κ) : Option S := log.foldlM next s

@[simp] theorem monitor_nil (s : S) : monitor next s [] = some s := rfl

theorem monitor_cons (s : S) (e : κ) (log : List κ) :
    monitor next s (e :: log) = (next s e).bind fun s => monitor next s log := rfl

theorem monitor_append (s : S) (log more : List κ) :
    monitor next s (log ++ more) = (monitor next s log).bind fun s => monitor next s more := List.foldlM_append

theorem monitor_snoc {s t : S} {log : List κ} (h : monitor next s log = some t) (e : κ) :
    monitor next s (log ++ [e]) = next t e := by
  rw [monitor_append, h]
  simp [monitor]

theorem monitor_passed {s : S} {log : List κ} (h : ∀ e ∈ log, next s e = some s) : monitor next s log = some s := by
  induction log with
  | nil => rfl
  | cons e log ih =>
    simp only [List.forall_mem_cons] at h
    rw [monitor_cons, h.1]
    exact ih h.2

def Outcome (good : α → S → Prop) (bad : ε → S → Prop) : Except ε α → S → Prop
  | .ok a => good a
  | .error e => bad e

def Monitored (next : S → κ → Option S) (pre : S → Prop) (t : Tx ρ κ ε α) (good : α → S → Prop) (bad : ε → S → Prop) :
    Prop :=
  ∀ s u, pre s → ∃ log s', (t u).2.log = u.log ++ log ∧ monitor next s log = some s' ∧ Outcome good bad (t u).1 s'

section

variable {pre : S → Prop} {good : α → S → Prop} {bad bad' : ε → S → Prop}

theorem Monitored.of_log {t : Tx ρ κ ε α} {r : Except ε α} {log : List κ}
    (ht : ∀ u, (t u).1 = r ∧ (t u).2.log = u.log ++ log)
    (h : ∀ s, pre s → ∃ s', monitor next s log = some s' ∧ Outcome good bad r s') : Monitored next pre t good bad := by
  intro s u hs
  obtain ⟨hresult, hlog⟩ := ht u
  obtain ⟨s', hrun, hend⟩ := h s hs
  exact ⟨log, s', hlog, hrun, by rwa [hresult]⟩

theorem Monitored.silent {t : Tx ρ κ ε α} {r : Except ε α} (ht : ∀ u, (t u).1 = r ∧ (t u).2.log = u.log)
    (h : ∀ s, pre s → Outcome good bad r s) : Monitored next pre t good bad := by
  have hlog : ∀ u, (t u).1 = r ∧ (t u).2.log = u.log ++ [] := by simpa using ht
  exact Monitored.of_log hlog fun s hs => ⟨s, rfl, h s hs⟩

theorem Monitored.pure {a : α} (h : ∀ s, pre s → good a s) : Monitored next pre (Pure.pure a : Tx ρ κ ε α) good bad :=
  Monitored.silent (fun _ => ⟨rfl, rfl⟩) h

theorem Monitored.await {r : Except ε α} (h : ∀ s, pre s → Outcome good bad r s) :
    Monitored next pre (Tx.await r : Tx ρ κ ε α) good bad :=
  Monitored.silent (fun _ => ⟨rfl, rfl⟩) h

theorem Monitored.commit {c : CommitOutcome ε} {good : Unit → S → Prop} (h : ∀ s, pre s → Outcome good bad c.answer s) :
    Monitored next pre (Tx.commit c : Tx ρ κ ε Unit) good bad := by
  apply Monitored.silent _ h
  intro u
  cases c with
  | _ => exact ⟨rfl, rfl⟩

theorem Monitored.add {x : ρ} {good : Unit → S → Prop} (h : ∀ s, pre s → good () s) :
    Monitored next pre (Tx.add x : Tx ρ κ ε Unit) good bad :=
  Monitored.silent (fun _ => ⟨rfl, rfl⟩) h

theorem Monitored.recordAll {log : List κ} {good : Unit → S → Prop}
    (h : ∀ s, pre s → ∃ s', monitor next s log = some s' ∧ good () s') :
    Monitored next pre (Tx.recordAll log : Tx ρ κ ε Unit) good bad :=
  Monitored.of_log (fun _ => ⟨rfl, rfl⟩) h

theorem Monitored.bind {middle : α → S → Prop} {good : β → S → Prop} {t : Tx ρ κ ε α} {f : α → Tx ρ κ ε β}
    (ht : Monitored next pre t middle bad) (hf : ∀ a, Monitored next (middle a) (f a) good bad) :
    Monitored next pre (t >>= f) good bad := by
  intro s u hs
  obtain ⟨log, s', hlog, hrun, hend⟩ := ht s u hs
  rw [Tx.bind_apply]
  cases htu : t u with
  | mk result u' =>
    rw [htu] at hlog hend
    cases result with
    | error e => exact ⟨log, s', hlog, hrun, hend⟩
    | ok a =>
      obtain ⟨more, s'', hmore, hrun', hend'⟩ := hf a s' u' hend
      refine ⟨log ++ more, s'', ?_, ?_, hend'⟩
      · rw [hmore, hlog, List.append_assoc]
      · rw [monitor_append, hrun]
        exact hrun'

theorem Monitored.tryCatch {caught : ε → Bool} {t : Tx ρ κ ε α} {handler : ε → Tx ρ κ ε α}
    (ht : Monitored next pre t good bad)
    (hh : ∀ e, caught e = true → Monitored next (bad e) (handler e) good bad')
    (hpass : ∀ e s, caught e = false → bad e s → bad' e s) :
    Monitored next pre (Tx.tryCatch caught t handler) good bad' := by
  intro s u hs
  obtain ⟨log, s', hlog, hrun, hend⟩ := ht s u hs
  cases htu : t u with
  | mk result u' =>
    rw [htu] at hlog hend
    cases result with
    | ok a =>
      have hsame : Tx.tryCatch caught t handler u = (.ok a, u') := by simp [Tx.tryCatch, htu]
      rw [hsame]
      exact ⟨log, s', hlog, hrun, hend⟩
    | error e =>
      cases hcaught : caught e with
      | false =>
        have hsame : Tx.tryCatch caught t handler u = (.error e, u') := by simp [Tx.tryCatch, htu, hcaught]
        rw [hsame]
        exact ⟨log, s', hlog, hrun, hpass e s' hcaught hend⟩
      | true =>
        have hhandled : Tx.tryCatch caught t handler u = handler e u' := by simp [Tx.tryCatch, htu, hcaught]
        obtain ⟨more, s'', hmore, hrun', hend'⟩ := hh e hcaught s' u' hend
        rw [hhandled]
        refine ⟨log ++ more, s'', ?_, ?_, hend'⟩
        · rw [hmore, hlog, List.append_assoc]
        · rw [monitor_append, hrun]
          exact hrun'

theorem Monitored.request {t : Tx ρ κ ε α} (ht : Monitored next pre t good bad) (committed : List ρ) {s : S} (hs : pre s) :
    ∃ s', monitor next s (t.request committed).log = some s' ∧ Outcome good bad (t ⟨committed, [], []⟩).1 s' := by
  obtain ⟨log, s', hlog, hrun, hend⟩ := ht s ⟨committed, [], []⟩ hs
  exact ⟨s', by rw [Tx.request, hlog]; exact hrun, hend⟩

end

end Framework
