import ProRag.Framework.UnitOfWork

/-!
# Transactions over a database

A session runs its statements in one transaction: it sees what it has written, and the committed
database changes at the commit alone.  A statement that the server refuses aborts the transaction, and
a COMMIT of an aborted transaction is a ROLLBACK that raises nothing.  A flush that fails leaves the
session unusable until it is rolled back.  Beside the database, a computation may change what lies
outside of it, which no rollback undoes.
-/

namespace Framework

variable {σ τ ε α β : Type}

inductive TxState
  | live
  | aborted
  | unusable
deriving DecidableEq, Repr

structure Conn (σ τ : Type) where
  committed : σ
  view : σ
  state : TxState
  outside : τ

def Sql (σ τ ε α : Type) := Conn σ τ → Except ε α × Conn σ τ

/-- A session that has just begun. -/
def Conn.fresh (db : σ) (outside : τ) : Conn σ τ := ⟨db, db, .live, outside⟩

/-- No transaction is open: the session sees what is committed. -/
def Conn.AtRest (c : Conn σ τ) : Prop := c = Conn.fresh c.committed c.outside

namespace Sql

def bind (t : Sql σ τ ε α) (f : α → Sql σ τ ε β) : Sql σ τ ε β := fun c =>
  match t c with
  | (.ok a, c') => f a c'
  | (.error e, c') => (.error e, c')

instance : Monad (Sql σ τ ε) where
  pure a := fun c => (.ok a, c)
  bind := bind

/-- A call that leaves the session alone and returns or raises. -/
def await (r : Except ε α) : Sql σ τ ε α := fun c => (r, c)

/-- A statement: the transaction goes to `onFail` when the server or a constraint refuses it. -/
def statement (refusal : TxState → ε) (onFail : TxState) (fails : Option ε) (f : σ → Except ε (α × σ)) :
    Sql σ τ ε α := fun c =>
  match c.state with
  | .live =>
    match fails with
    | some e => (.error e, { c with state := onFail })
    | none =>
      match f c.view with
      | .ok (a, view) => (.ok a, { c with view := view })
      | .error e => (.error e, { c with state := onFail })
  | state => (.error (refusal state), c)

def commit (refusal : TxState → ε) (out : CommitOutcome ε) : Sql σ τ ε Unit := fun c =>
  match c.state with
  | .live => if out.lands then (out.answer, { c with committed := c.view }) else (out.answer, { c with state := .aborted })
  | .aborted => (out.answer, { c with view := c.committed, state := .live })
  | .unusable => (.error (refusal .unusable), c)

def rollback : Sql σ τ ε Unit := fun c => (.ok (), { c with view := c.committed, state := .live })

/-- What other sessions commit meanwhile. -/
def elsewhere (f : σ → σ) : Sql σ τ ε Unit := fun c => (.ok (), { c with committed := f c.committed })

def effect (f : τ → τ) : Sql σ τ ε Unit := fun c => (.ok (), { c with outside := f c.outside })

/-- A statement that writes nothing and does not fail by itself. -/
def select (refusal : TxState → ε) (f : σ → α) : Sql σ τ ε α := statement refusal .aborted none fun s => .ok (f s, s)

/-- `[await t for t in ts]`. -/
def collect : List (Sql σ τ ε α) → Sql σ τ ε (List α)
  | [] => pure []
  | t :: ts => t >>= fun a => collect ts >>= fun as => pure (a :: as)

/-- `try: t except …: handler`, for the exceptions that are caught. -/
def tryCatch (caught : ε → Bool) (t : Sql σ τ ε α) (handler : ε → Sql σ τ ε α) : Sql σ τ ε α := fun c =>
  match t c with
  | (.ok a, c') => (.ok a, c')
  | (.error e, c') => if caught e then handler e c' else (.error e, c')

end Sql

/-- Nothing is committed and nothing outside changes. -/
def Pending (t : Sql σ τ ε α) : Prop :=
  ∀ c, (t c).2.committed = c.committed ∧ (t c).2.outside = c.outside

variable {refusal : TxState → ε} {onFail : TxState} {fails : Option ε} {f : σ → Except ε (α × σ)} {c c' : Conn σ τ}

theorem Sql.bind_eq_ok {t : Sql σ τ ε α} {g : α → Sql σ τ ε β} {b : β} :
    (t >>= g) c = (.ok b, c') ↔ ∃ a c1, t c = (.ok a, c1) ∧ g a c1 = (.ok b, c') := by
  change Sql.bind t g c = _ ↔ _
  unfold Sql.bind
  cases t c with
  | mk r c1 =>
    cases r with
    | ok a => simp
    | error e => simp

theorem Sql.bind_of_ok {t : Sql σ τ ε α} {g : α → Sql σ τ ε β} {a : α} (h : t c = (.ok a, c')) :
    (t >>= g) c = g a c' := by
  change Sql.bind t g c = _
  unfold Sql.bind
  rw [h]

theorem Sql.bind_of_error {t : Sql σ τ ε α} {g : α → Sql σ τ ε β} {e : ε} (h : t c = (.error e, c')) :
    (t >>= g) c = (.error e, c') := by
  change Sql.bind t g c = _
  unfold Sql.bind
  rw [h]

theorem Sql.await_ok_bind {a : α} {g : α → Sql σ τ ε β} : (Sql.await (.ok a) >>= g) = g a := rfl

theorem Sql.bind_eq_error {t : Sql σ τ ε α} {g : α → Sql σ τ ε β} {e : ε} :
    (t >>= g) c = (.error e, c') ↔
      t c = (.error e, c') ∨ ∃ a c1, t c = (.ok a, c1) ∧ g a c1 = (.error e, c') := by
  change Sql.bind t g c = _ ↔ _
  unfold Sql.bind
  cases t c with
  | mk r c1 =>
    cases r with
    | ok a => simp
    | error e => simp

theorem Sql.statement_eq_ok {a : α} :
    Sql.statement refusal onFail fails f c = (.ok a, c') ↔
      c.state = .live ∧ fails = none ∧ ∃ view, f c.view = .ok (a, view) ∧ c' = { c with view := view } := by
  unfold Sql.statement
  cases c.state with
  | live =>
    cases fails with
    | some e => simp
    | none =>
      cases f c.view with
      | ok r =>
        simp only [Prod.mk.injEq, Except.ok.injEq, true_and]
        constructor
        · intro h
          obtain ⟨ha, hc⟩ := h
          exact ⟨r.2, by rw [← ha], hc.symm⟩
        · intro h
          obtain ⟨view, hr, hc⟩ := h
          rw [hr]
          exact ⟨rfl, hc.symm⟩
      | error e => simp
  | aborted => simp
  | unusable => simp

theorem Sql.statement_of_ok {a : α} {view : σ} (hlive : c.state = .live) (hf : f c.view = .ok (a, view)) :
    (Sql.statement refusal onFail none f : Sql σ τ ε α) c = (.ok a, { c with view := view }) :=
  Sql.statement_eq_ok.mpr ⟨hlive, rfl, view, hf, rfl⟩

theorem Sql.select_live {g : σ → α} (hlive : c.state = .live) :
    (Sql.select refusal g : Sql σ τ ε α) c = (.ok (g c.view), c) := Sql.statement_of_ok hlive rfl

theorem Sql.select_refused {g : σ → α} (hdead : c.state ≠ .live) :
    ∃ e, (Sql.select refusal g : Sql σ τ ε α) c = (.error e, c) := by
  unfold Sql.select Sql.statement
  cases hstate : c.state with
  | live => exact absurd hstate hdead
  | aborted => exact ⟨refusal .aborted, rfl⟩
  | unusable => exact ⟨refusal .unusable, rfl⟩

/-- A transaction is not alive behind a statement that has raised. -/
theorem Sql.statement_raised {e : ε} (hfail : onFail ≠ .live)
    (h : (Sql.statement refusal onFail fails f : Sql σ τ ε α) c = (.error e, c')) : c'.state ≠ .live := by
  unfold Sql.statement at h
  cases hstate : c.state with
  | live =>
    simp only [hstate] at h
    split at h
    · obtain rfl := (Prod.mk.inj h).2
      exact hfail
    · split at h
      · cases h
      · obtain rfl := (Prod.mk.inj h).2
        exact hfail
  | aborted =>
    simp only [hstate] at h
    obtain rfl := (Prod.mk.inj h).2
    simp [hstate]
  | unusable =>
    simp only [hstate] at h
    obtain rfl := (Prod.mk.inj h).2
    simp [hstate]

theorem Sql.commit_durable (hlive : c.state = .live) :
    (Sql.commit refusal .durable : Sql σ τ ε Unit) c = (.ok (), { c with committed := c.view }) := by
  unfold Sql.commit
  simp only [hlive]
  rfl

theorem Sql.commit_live {out : CommitOutcome ε} (hlive : c.state = .live)
    (h : (Sql.commit refusal out : Sql σ τ ε Unit) c = (.ok (), c')) : c'.committed = c.view := by
  unfold Sql.commit at h
  simp only [hlive] at h
  cases out with
  | durable =>
    obtain rfl := (Prod.mk.inj h).2
    rfl
  | unacknowledged exc => cases (Prod.mk.inj h).1
  | raised exc => cases (Prod.mk.inj h).1

theorem Sql.commit_raised {out : CommitOutcome ε} {e : ε}
    (h : (Sql.commit refusal out : Sql σ τ ε Unit) c = (.error e, c')) :
    c'.committed = c.committed ∨ c.state = .live ∧ c'.committed = c.view := by
  unfold Sql.commit at h
  cases hstate : c.state with
  | live =>
    simp only [hstate] at h
    split at h
    · obtain rfl := (Prod.mk.inj h).2
      exact Or.inr ⟨rfl, rfl⟩
    · obtain rfl := (Prod.mk.inj h).2
      exact Or.inl rfl
  | aborted =>
    simp only [hstate] at h
    obtain rfl := (Prod.mk.inj h).2
    exact Or.inl rfl
  | unusable =>
    simp only [hstate] at h
    obtain rfl := (Prod.mk.inj h).2
    exact Or.inl rfl

theorem Sql.commit_outside (refusal : TxState → ε) (out : CommitOutcome ε) (c : Conn σ τ) :
    (Sql.commit refusal out c).2.outside = c.outside := by
  unfold Sql.commit
  cases c.state with
  | live => by_cases hlands : out.lands = true <;> simp [hlands]
  | aborted => rfl
  | unusable => rfl

theorem Sql.commit_committed (refusal : TxState → ε) (out : CommitOutcome ε) (c : Conn σ τ) :
    (Sql.commit refusal out c).2.committed = if c.state = .live ∧ out.lands = true then c.view else c.committed := by
  unfold Sql.commit
  cases hstate : c.state with
  | live => by_cases hlands : out.lands = true <;> simp [hlands]
  | aborted => simp
  | unusable => simp

theorem Sql.commit_atRest {a : Unit} {out : CommitOutcome ε} (h : (Sql.commit refusal out c).1 = .ok a) :
    (Sql.commit refusal out c).2.AtRest := by
  unfold Sql.commit at h
  unfold Conn.AtRest Sql.commit
  cases hstate : c.state with
  | live =>
    simp only [hstate] at h ⊢
    cases out with
    | durable => simp [CommitOutcome.lands, Conn.fresh]
    | unacknowledged exc => cases h
    | raised exc => cases h
  | aborted => rfl
  | unusable =>
    simp only [hstate] at h
    cases h

theorem Sql.commit_idle (refusal : TxState → ε) (out : CommitOutcome ε) (h : c.AtRest) :
    (Sql.commit refusal out c).2.committed = c.committed := by
  have hview : c.view = c.committed := congrArg Conn.view h
  rw [Sql.commit_committed, hview]
  exact ite_self _

theorem Sql.commit_pure (refusal : TxState → ε) (out : CommitOutcome ε) (a : α) (c : Conn σ τ) :
    ((Sql.commit refusal out >>= fun _ => pure a : Sql σ τ ε α) c).2 = (Sql.commit refusal out c).2 ∧
      ∀ b, ((Sql.commit refusal out >>= fun _ => pure a : Sql σ τ ε α) c).1 = .ok b →
        (Sql.commit refusal out c).1 = .ok () := by
  cases hcommit : (Sql.commit refusal out c : Except ε Unit × Conn σ τ) with
  | mk r c1 =>
    cases r with
    | error e =>
      rw [Sql.bind_of_error hcommit]
      refine ⟨rfl, fun b h => ?_⟩
      cases h
    | ok u =>
      rw [Sql.bind_of_ok hcommit]
      exact ⟨rfl, fun b h => rfl⟩

theorem Pending.pure (a : α) : Pending (pure a : Sql σ τ ε α) := fun _ => ⟨rfl, rfl⟩

theorem Pending.await (r : Except ε α) : Pending (Sql.await r : Sql σ τ ε α) := fun _ => ⟨rfl, rfl⟩

theorem Pending.statement : Pending (Sql.statement refusal onFail fails f : Sql σ τ ε α) := by
  intro c
  unfold Sql.statement
  cases c.state with
  | live =>
    cases fails with
    | some e => exact ⟨rfl, rfl⟩
    | none =>
      cases f c.view with
      | ok r => exact ⟨rfl, rfl⟩
      | error e => exact ⟨rfl, rfl⟩
  | aborted => exact ⟨rfl, rfl⟩
  | unusable => exact ⟨rfl, rfl⟩

theorem Pending.bind {t : Sql σ τ ε α} {g : α → Sql σ τ ε β} (ht : Pending t) (hg : ∀ a, Pending (g a)) :
    Pending (t >>= g) := by
  intro c
  have hc := ht c
  cases h : t c with
  | mk r c1 =>
    rw [h] at hc
    cases r with
    | ok a =>
      rw [Sql.bind_of_ok h]
      have h1 := hg a c1
      exact ⟨h1.1.trans hc.1, h1.2.trans hc.2⟩
    | error e =>
      rw [Sql.bind_of_error h]
      exact hc

theorem Pending.tryCatch {caught : ε → Bool} {t : Sql σ τ ε α} {handler : ε → Sql σ τ ε α} (ht : Pending t)
    (hh : ∀ e, Pending (handler e)) : Pending (Sql.tryCatch caught t handler) := by
  intro c
  have hc := ht c
  unfold Sql.tryCatch
  cases h : t c with
  | mk r c1 =>
    rw [h] at hc
    cases r with
    | ok a => exact hc
    | error e =>
      by_cases he : caught e = true
      · have h1 := hh e c1
        simp only [he, ↓reduceIte]
        exact ⟨h1.1.trans hc.1, h1.2.trans hc.2⟩
      · simp only [he]
        exact hc

/-- From the connections of `I` a computation answers as `r` does, back in `I`, or it raises as `r` does. -/
def EndsAs (I : Conn σ τ → Prop) (t : Sql σ τ ε α) (r : Except ε α) : Prop :=
  ∀ c, I c → (∃ a c', r = .ok a ∧ t c = (.ok a, c') ∧ I c') ∨ ∃ e e' c', r = .error e ∧ t c = (.error e', c')

section

variable {I : Conn σ τ → Prop}

theorem EndsAs.pure (a : α) : EndsAs I (pure a : Sql σ τ ε α) (.ok a) :=
  fun c hc => Or.inl ⟨a, c, rfl, rfl, hc⟩

theorem EndsAs.await (r : Except ε α) : EndsAs I (Sql.await r : Sql σ τ ε α) r := by
  intro c hc
  cases r with
  | ok a => exact Or.inl ⟨a, c, rfl, rfl, hc⟩
  | error e => exact Or.inr ⟨e, e, c, rfl, rfl⟩

theorem EndsAs.select {f : σ → α} {a : α} (h : ∀ c, I c → c.state = .live ∧ f c.view = a) :
    EndsAs I (Sql.select refusal f : Sql σ τ ε α) (.ok a) := by
  intro c hc
  obtain ⟨hlive, rfl⟩ := h c hc
  exact Or.inl ⟨f c.view, c, rfl, Sql.select_live hlive, hc⟩

theorem EndsAs.answer {t : Sql σ τ ε α} {r : Except ε α} {a : α} (ht : EndsAs I t r) (hr : r = .ok a) (hc : I c) :
    ∃ c', t c = (.ok a, c') ∧ I c' := by
  rcases ht c hc with hok | hraised
  · obtain ⟨a', c', ha, hrun, hc'⟩ := hok
    cases hr.symm.trans ha
    exact ⟨c', hrun, hc'⟩
  · obtain ⟨_, _, _, he, _⟩ := hraised
    cases hr.symm.trans he

theorem EndsAs.eq_ok {t : Sql σ τ ε α} {r : Except ε α} {a : α} (ht : EndsAs I t r) (hc : I c) (h : (t c).1 = .ok a) :
    r = .ok a := by
  rcases ht c hc with hok | hraised
  · obtain ⟨a', c', hr, hrun, _⟩ := hok
    rw [hrun] at h
    exact hr.trans h
  · obtain ⟨_, _, _, _, hrun⟩ := hraised
    rw [hrun] at h
    cases h

/-- Which exception is raised does not matter. -/
theorem EndsAs.of_toOption_eq {t : Sql σ τ ε α} {r r' : Except ε α} (ht : EndsAs I t r) (h : r.toOption = r'.toOption) :
    EndsAs I t r' := by
  intro c hc
  rcases ht c hc with hok | hraised
  · obtain ⟨a, c', rfl, hrun, hc'⟩ := hok
    cases r' with
    | ok a' =>
      obtain rfl : a = a' := Option.some.inj h
      exact Or.inl ⟨a, c', rfl, hrun, hc'⟩
    | error e => cases h
  · obtain ⟨e, e', c', rfl, hrun⟩ := hraised
    cases r' with
    | ok a' => cases h
    | error e'' => exact Or.inr ⟨e'', e', c', rfl, hrun⟩

theorem EndsAs.bind {t : Sql σ τ ε α} {r : Except ε α} {g : α → Sql σ τ ε β} {f : α → Except ε β} (ht : EndsAs I t r)
    (hg : ∀ a, EndsAs I (g a) (f a)) : EndsAs I (t >>= g) (r >>= f) := by
  intro c hc
  rcases ht c hc with hok | hraised
  · obtain ⟨a, c1, rfl, hrun, hc1⟩ := hok
    rw [Sql.bind_of_ok hrun]
    exact hg a c1 hc1
  · obtain ⟨e, e', c1, rfl, hrun⟩ := hraised
    exact Or.inr ⟨e, e', c1, rfl, Sql.bind_of_error hrun⟩

theorem EndsAs.ok_bind {t : Sql σ τ ε α} {a : α} {g : α → Sql σ τ ε β} {r : Except ε β} (ht : EndsAs I t (.ok a))
    (hg : EndsAs I (g a) r) : EndsAs I (t >>= g) r := by
  intro c hc
  obtain ⟨c1, hrun, hc1⟩ := ht.answer rfl hc
  rw [Sql.bind_of_ok hrun]
  exact hg c1 hc1

theorem EndsAs.collect {γ : Type} {xs : List γ} {t : γ → Sql σ τ ε α} {r : γ → Except ε α}
    (h : ∀ x ∈ xs, EndsAs I (t x) (r x)) : EndsAs I (Sql.collect (xs.map t)) (xs.mapM r) := by
  induction xs with
  | nil => exact EndsAs.pure []
  | cons x xs ih =>
    simp only [List.forall_mem_cons] at h
    rw [List.mapM_cons]
    apply EndsAs.bind h.1
    intro a
    apply EndsAs.bind (ih h.2)
    intro as
    exact EndsAs.pure (a :: as)

end

end Framework
