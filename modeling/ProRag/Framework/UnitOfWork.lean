import Mathlib.Data.List.Perm.Basic
import ProRag.Framework.Results

/-!
# Units of work

A request works on a session: rows are added to it and become durable when it commits, and what it
holds uncommitted at the end is gone.  Beside the rows, the state logs what has happened outside;
`row` says which rows an event of the log should leave.  A transaction here is a computation that
may raise and that keeps the state it reached.
-/

namespace Framework

variable {ρ κ ε α β : Type}

structure Uow (ρ κ : Type) where
  committed : List ρ
  staged : List ρ
  log : List κ

def Tx (ρ κ ε α : Type) := Uow ρ κ → Except ε α × Uow ρ κ

/-- A commit makes its rows durable, or raises without; its acknowledgement may also be lost. -/
inductive CommitOutcome (ε : Type)
  | durable
  | unacknowledged (exc : ε)
  | raised (exc : ε)

def CommitOutcome.lands : CommitOutcome ε → Bool
  | .raised _ => false
  | _ => true

def CommitOutcome.answer : CommitOutcome ε → Except ε Unit
  | .durable => .ok ()
  | .unacknowledged exc | .raised exc => .error exc

/-- The state after `l` has happened and its rows have been added. -/
def Uow.stage (row : κ → List ρ) (l : List κ) (u : Uow ρ κ) : Uow ρ κ :=
  ⟨u.committed, u.staged ++ l.flatMap row, u.log ++ l⟩

def Uow.flush (u : Uow ρ κ) : Uow ρ κ :=
  ⟨u.committed ++ u.staged, [], u.log⟩

namespace Tx

def bind (t : Tx ρ κ ε α) (f : α → Tx ρ κ ε β) : Tx ρ κ ε β := fun u =>
  match t u with
  | (.ok a, u') => f a u'
  | (.error e, u') => (.error e, u')

instance : Monad (Tx ρ κ ε) where
  pure a := fun u => (.ok a, u)
  bind := bind

/-- A call that leaves the session alone and returns or raises. -/
def await (r : Except ε α) : Tx ρ κ ε α := fun u => (r, u)

def record (c : κ) : Tx ρ κ ε Unit := fun u => (.ok (), { u with log := u.log ++ [c] })

def recordAll (l : List κ) : Tx ρ κ ε Unit := fun u => (.ok (), { u with log := u.log ++ l })

def add (r : ρ) : Tx ρ κ ε Unit := fun u => (.ok (), { u with staged := u.staged ++ [r] })

def commit (c : CommitOutcome ε) : Tx ρ κ ε Unit := fun u =>
  (c.answer, if c.lands then u.flush else u)

def rollback : Tx ρ κ ε Unit := fun u => (.ok (), { u with staged := [] })

/-- `try: t except …: handler`, for the exceptions that are caught. -/
def tryCatch (caught : ε → Bool) (t : Tx ρ κ ε α) (handler : ε → Tx ρ κ ε α) : Tx ρ κ ε α := fun u =>
  match t u with
  | (.ok a, u') => (.ok a, u')
  | (.error e, u') => if caught e then handler e u' else (.error e, u')

/-- `t`, and what happens behind it however it ends. -/
def ensuring (t : Tx ρ κ ε α) (after : Tx ρ κ ε Unit) : Tx ρ κ ε α := fun u => ((t u).1, (after (t u).2).2)

/-- The session of a request, from its opening to its close. -/
def request (t : Tx ρ κ ε α) (committed : List ρ) : Uow ρ κ :=
  { (t ⟨committed, [], []⟩).2 with staged := [] }

end Tx

/-- `t` ends with `r` after adding the rows of `l`, and neither commits nor rolls back. -/
def Stages (row : κ → List ρ) (t : Tx ρ κ ε α) (r : Except ε α) (l : List κ) : Prop :=
  ∀ u, t u = (r, u.stage row l)

/-- What a computation logs behind a result it may not have. -/
def logAfter (r : Except ε α) (l : α → List κ) : List κ :=
  match r with
  | .ok a => l a
  | .error _ => []

/-- A result whose exceptions, where they are caught, are handled. -/
def recovering (caught : ε → Bool) (r : Except ε α) (handler : ε → Except ε α) : Except ε α :=
  match r with
  | .ok a => .ok a
  | .error e => if caught e then handler e else .error e

def logCaught (caught : ε → Bool) (r : Except ε α) (l : ε → List κ) : List κ :=
  match r with
  | .ok _ => []
  | .error e => if caught e then l e else []

variable {row : κ → List ρ} {t : Tx ρ κ ε α} {r : Except ε α} {l : List κ}

@[simp] theorem Uow.stage_nil (u : Uow ρ κ) : u.stage row [] = u := by
  simp [Uow.stage]

@[simp] theorem Uow.stage_stage (u : Uow ρ κ) (l l' : List κ) : (u.stage row l).stage row l' = u.stage row (l ++ l') := by
  simp [Uow.stage]

@[simp] theorem logAfter_nil (r : Except ε α) : logAfter r (fun _ => ([] : List κ)) = [] := by
  cases r with
  | _ => rfl

theorem Tx.bind_apply (t : Tx ρ κ ε α) (f : α → Tx ρ κ ε β) (u : Uow ρ κ) :
    (t >>= f) u = match t u with
      | (.ok a, u') => f a u'
      | (.error e, u') => (.error e, u') := rfl

theorem Tx.bind_assoc {γ : Type} (t : Tx ρ κ ε α) (f : α → Tx ρ κ ε β) (g : β → Tx ρ κ ε γ) :
    (t >>= f >>= g) = (t >>= fun a => f a >>= g) := by
  funext u
  simp only [Tx.bind_apply]
  cases t u with
  | mk r u' =>
    cases r with
    | _ => rfl

theorem Stages.pure (a : α) : Stages row (Pure.pure a : Tx ρ κ ε α) (.ok a) [] := by
  intro u
  rw [Uow.stage_nil]
  rfl

theorem Stages.await (r : Except ε α) : Stages row (Tx.await r : Tx ρ κ ε α) r [] := by
  intro u
  rw [Uow.stage_nil]
  rfl

theorem Stages.recordAll (hl : l.flatMap row = []) : Stages row (Tx.recordAll l : Tx ρ κ ε Unit) (.ok ()) l := by
  intro u
  unfold Uow.stage
  rw [hl, List.append_nil]
  rfl

theorem Stages.bind {f : α → Tx ρ κ ε β} {g : α → Except ε β} {k : α → List κ} (ht : Stages row t r l)
    (hf : ∀ a, Stages row (f a) (g a) (k a)) : Stages row (t >>= f) (r >>= g) (l ++ logAfter r k) := by
  intro u
  rw [Tx.bind_apply, ht u]
  cases r with
  | ok a =>
    show f a _ = _
    rw [hf a, Uow.stage_stage]
    rfl
  | error e => simp [logAfter, Bind.bind, Except.bind]

theorem Stages.bind_quiet {f : α → Tx ρ κ ε β} {g : α → Except ε β} (ht : Stages row t r l)
    (hf : ∀ a, Stages row (f a) (g a) []) : Stages row (t >>= f) (r >>= g) l := by
  have h := ht.bind hf
  rw [logAfter_nil, List.append_nil] at h
  exact h

theorem Stages.await_bind {f : α → Tx ρ κ ε β} {g : α → Except ε β} {k : α → List κ}
    (hf : ∀ a, Stages row (f a) (g a) (k a)) : Stages row (Tx.await r >>= f) (r >>= g) (logAfter r k) := by
  have h := (Stages.await r).bind hf
  rw [List.nil_append] at h
  exact h

theorem Stages.tryCatch (caught : ε → Bool) {handler : ε → Tx ρ κ ε α} {g : ε → Except ε α} {k : ε → List κ}
    (ht : Stages row t r l) (hh : ∀ e, Stages row (handler e) (g e) (k e)) :
    Stages row (Tx.tryCatch caught t handler) (recovering caught r g) (l ++ logCaught caught r k) := by
  intro u
  unfold Tx.tryCatch
  rw [ht u]
  cases r with
  | ok a => simp [recovering, logCaught]
  | error e =>
    by_cases h : caught e = true
    · simp only [recovering, logCaught, h, ↓reduceIte]
      rw [hh e, Uow.stage_stage]
    · simp [recovering, logCaught, h]

theorem Stages.tryCatch_quiet (caught : ε → Bool) {handler : ε → Tx ρ κ ε α} {g : ε → Except ε α}
    (ht : Stages row t r l) (hh : ∀ e, Stages row (handler e) (g e) []) :
    Stages row (Tx.tryCatch caught t handler) (recovering caught r g) l := by
  have h := ht.tryCatch caught hh
  have hnil : logCaught caught r (fun _ => ([] : List κ)) = [] := by
    cases r with
    | ok a => rfl
    | error e => simp [logCaught]
  rw [hnil, List.append_nil] at h
  exact h

/-- `t` leaves only rows of some kind behind, committed or not. -/
def AddsOnly (kind : ρ → Prop) (t : Tx ρ κ ε α) : Prop :=
  ∀ u : Uow ρ κ, (∀ x ∈ u.committed ++ u.staged, kind x) → ∀ x ∈ (t u).2.committed ++ (t u).2.staged, kind x

section

variable {kind : ρ → Prop}

theorem AddsOnly.of_stages (ht : Stages row t r l) (hl : ∀ x ∈ l.flatMap row, kind x) : AddsOnly kind t := by
  intro u hu x hx
  rw [ht u] at hx
  simp only [Uow.stage, ← List.append_assoc] at hx
  rcases List.mem_append.mp hx with hx | hx
  · exact hu x hx
  · exact hl x hx

theorem AddsOnly.pure (a : α) : AddsOnly kind (Pure.pure a : Tx ρ κ ε α) := fun _ hu => hu

theorem AddsOnly.await (r : Except ε α) : AddsOnly kind (Tx.await r : Tx ρ κ ε α) := fun _ hu => hu

theorem AddsOnly.recordAll (l : List κ) : AddsOnly kind (Tx.recordAll l : Tx ρ κ ε Unit) := fun _ hu => hu

theorem AddsOnly.add {x : ρ} (hx : kind x) : AddsOnly kind (Tx.add x : Tx ρ κ ε Unit) := by
  intro u hu y hy
  simp only [Tx.add, ← List.append_assoc] at hy
  rcases List.mem_append.mp hy with hy | hy
  · exact hu y hy
  · obtain rfl := List.mem_singleton.mp hy
    exact hx

theorem AddsOnly.commit (c : CommitOutcome ε) : AddsOnly kind (Tx.commit c : Tx ρ κ ε Unit) := by
  intro u hu x hx
  unfold Tx.commit at hx
  by_cases hc : c.lands = true
  · simp only [hc, ↓reduceIte, Uow.flush, List.append_nil] at hx
    exact hu x hx
  · simp only [hc] at hx
    exact hu x hx

theorem AddsOnly.bind {f : α → Tx ρ κ ε β} (ht : AddsOnly kind t) (hf : ∀ a, AddsOnly kind (f a)) :
    AddsOnly kind (t >>= f) := by
  intro u hu
  rw [Tx.bind_apply]
  have hleft := ht u hu
  cases hrun : t u with
  | mk result u' =>
    rw [hrun] at hleft
    cases result with
    | ok a => exact hf a u' hleft
    | error e => exact hleft

theorem AddsOnly.tryCatch {caught : ε → Bool} {handler : ε → Tx ρ κ ε α} (ht : AddsOnly kind t)
    (hh : ∀ e, AddsOnly kind (handler e)) : AddsOnly kind (Tx.tryCatch caught t handler) := by
  intro u hu
  unfold Tx.tryCatch
  have hbody := ht u hu
  cases hrun : t u with
  | mk result u' =>
    rw [hrun] at hbody
    cases result with
    | ok a => exact hbody
    | error e =>
      by_cases hcaught : caught e = true
      · simp only [hcaught, ↓reduceIte]
        exact hh e u' hbody
      · simp only [hcaught]
        exact hbody

theorem AddsOnly.request (ht : AddsOnly kind t) : ∀ x ∈ (t.request []).committed, kind x := by
  intro x hx
  exact ht ⟨[], [], []⟩ (fun _ h => by cases h) x (List.mem_append_left _ hx)

end

theorem append_eq_iff_of_sublist {a a' b b' : List ρ} (ha : a.Sublist a') (hb : b.Sublist b') :
    a ++ b = a' ++ b' ↔ a = a' ∧ b = b' := by
  constructor
  · intro h
    have hlen : (a ++ b).length = (a' ++ b').length := congrArg List.length h
    have hla : a.length ≤ a'.length := ha.length_le
    have hlb : b.length ≤ b'.length := hb.length_le
    rw [List.length_append, List.length_append] at hlen
    exact ⟨ha.eq_of_length (by omega), hb.eq_of_length (by omega)⟩
  · intro h
    rw [h.1, h.2]

theorem kept_sublist (p : Bool) (l : List ρ) : (if p then l else []).Sublist l := by
  cases p with
  | true => exact List.Sublist.refl l
  | false => exact List.nil_sublist l

theorem kept_eq_iff (p : Bool) (l : List ρ) : (if p then l else []) = l ↔ l = [] ∨ p = true := by
  cases p with
  | true => simp
  | false => simp [eq_comm]

/-- Exactly the rows of what is logged are new among the committed ones. -/
def Accounted (row : κ → List ρ) (committed : List ρ) (u : Uow ρ κ) : Prop :=
  ∃ gained, u.committed = committed ++ gained ∧ gained.Perm (u.log.flatMap row)

/-- From an empty session, `t` commits some of the rows of what it logs, or these and more, and exactly
these just when `durable`. -/
def Settles (row : κ → List ρ) (t : Tx ρ κ ε α) (durable : Prop) : Prop :=
  ∀ committed before, ∃ gained log, (gained.Sublist (log.flatMap row) ∨ (log.flatMap row).Sublist gained) ∧
    { (t ⟨committed, [], before⟩).2 with staged := [] } = ⟨committed ++ gained, [], before ++ log⟩ ∧
    (gained = log.flatMap row ↔ durable)

theorem Settles.accounted_iff {durable : Prop} (h : Settles row t durable) (committed : List ρ) :
    Accounted row committed (t.request committed) ↔ durable := by
  obtain ⟨gained, log, hsub, hrun, hiff⟩ := h committed []
  unfold Tx.request
  rw [hrun, ← hiff, List.nil_append]
  constructor
  · intro hacc
    obtain ⟨gained', heq, hperm⟩ := hacc
    obtain rfl : gained = gained' := List.append_cancel_left heq
    have hlen : gained.length = (log.flatMap row).length := hperm.length_eq
    rcases hsub with hsub | hsub
    · exact hsub.eq_of_length hlen
    · exact (hsub.eq_of_length hlen.symm).symm
  · intro heq
    exact ⟨gained, rfl, heq ▸ List.Perm.refl _⟩

theorem Settles.congr {durable durable' : Prop} (h : Settles row t durable) (hiff : durable ↔ durable') :
    Settles row t durable' := by
  rw [← hiff]
  exact h

theorem Settles.of_stages (ht : Stages row t r l) : Settles row t (l.flatMap row = []) := by
  intro committed before
  refine ⟨[], l, Or.inl (List.nil_sublist _), ?_, eq_comm⟩
  rw [ht]
  simp [Uow.stage]

theorem Settles.pure (a : α) : Settles row (Pure.pure a : Tx ρ κ ε α) True :=
  (Settles.of_stages (Stages.pure a)).congr (by simp)

theorem Settles.await_bind {f : α → Tx ρ κ ε β} {durable : α → Prop} (hf : ∀ a, Settles row (f a) (durable a)) :
    Settles row (Tx.await r >>= f) (∀ a, r = .ok a → durable a) := by
  cases r with
  | ok a => exact (hf a).congr ⟨fun h a' ha => Except.ok.inj ha ▸ h, fun h => h a rfl⟩
  | error e =>
    have hraise : Stages row (Tx.await (.error e) >>= f) (.error e : Except ε β) [] := by
      intro u
      rw [Uow.stage_nil]
      rfl
    refine (Settles.of_stages hraise).congr ⟨fun _ a ha => ?_, fun _ => rfl⟩
    cases ha

theorem Settles.commit_bind {c : CommitOutcome ε} {f : α → Tx ρ κ ε β} {durable : α → Prop} (ht : Stages row t r l)
    (hf : ∀ a, Settles row (f a) (durable a)) :
    Settles row (t >>= fun a => Tx.commit c >>= fun _ => f a)
      ((l.flatMap row = [] ∨ (r.isOk = true ∧ c.lands = true)) ∧ ∀ a, r = .ok a → c.answer = .ok () → durable a) := by
  intro committed before
  cases r with
  | error e =>
    refine ⟨[], l, Or.inl (List.nil_sublist _), ?_, ?_⟩
    · rw [Tx.bind_apply, ht]
      simp [Uow.stage]
    · constructor
      · intro hnil
        refine ⟨Or.inl hnil.symm, fun a ha => ?_⟩
        cases ha
      · intro hdurable
        rcases hdurable.1 with hnil | ⟨hok, _⟩
        · exact hnil.symm
        · cases hok
  | ok a =>
    have hstaged : (t >>= fun a => Tx.commit c >>= fun _ => f a) ⟨committed, [], before⟩ =
        (Tx.commit c >>= fun _ => f a) ⟨committed, l.flatMap row, before ++ l⟩ := by
      rw [Tx.bind_apply, ht]
      rfl
    rw [hstaged]
    cases c with
    | durable =>
      obtain ⟨gained, log, hsub, hrun, hiff⟩ := hf a (committed ++ l.flatMap row) (before ++ l)
      refine ⟨l.flatMap row ++ gained, l ++ log, ?_, ?_, ?_⟩
      · rw [List.flatMap_append]
        exact hsub.imp (fun h => (List.Sublist.refl _).append h) fun h => (List.Sublist.refl _).append h
      · rw [← List.append_assoc, ← List.append_assoc]
        exact hrun
      · rw [List.flatMap_append, List.append_cancel_left_eq, hiff]
        constructor
        · intro h
          exact ⟨Or.inr ⟨rfl, rfl⟩, fun a' ha _ => Except.ok.inj ha ▸ h⟩
        · intro h
          exact h.2 a rfl rfl
    | unacknowledged e =>
      refine ⟨l.flatMap row, l, Or.inl (List.Sublist.refl _), rfl, ?_⟩
      constructor
      · intro _
        refine ⟨Or.inr ⟨rfl, rfl⟩, fun a' _ h => ?_⟩
        cases h
      · intro _
        rfl
    | raised e =>
      refine ⟨[], l, Or.inl (List.nil_sublist _), ?_, ?_⟩
      · rw [List.append_nil]
        rfl
      · constructor
        · intro hnil
          refine ⟨Or.inl hnil.symm, fun a' _ h => ?_⟩
          cases h
        · intro hdurable
          rcases hdurable.1 with hnil | ⟨_, hlands⟩
          · exact hnil.symm
          · cases hlands

theorem Settles.record_bind {f : Unit → Tx ρ κ ε β} {durable : Prop} (hl : l.flatMap row = [])
    (hf : Settles row (f ()) durable) : Settles row (Tx.recordAll l >>= f) durable := by
  intro committed before
  obtain ⟨gained, log, hsub, hrun, hiff⟩ := hf committed (before ++ l)
  have hrows : (l ++ log).flatMap row = log.flatMap row := by rw [List.flatMap_append, hl, List.nil_append]
  refine ⟨gained, l ++ log, ?_, ?_, ?_⟩
  · rw [hrows]
    exact hsub
  · rw [← List.append_assoc]
    exact hrun
  · rw [hrows]
    exact hiff

theorem Settles.tryCatch_record {t : Tx ρ κ ε Unit} {durable : Prop} (caught : ε → Bool) (ht : Settles row t durable)
    (hl : l.flatMap row = []) : Settles row (Tx.tryCatch caught t fun _ => Tx.recordAll l) durable := by
  intro committed before
  obtain ⟨gained, log, hsub, hrun, hiff⟩ := ht committed before
  unfold Tx.tryCatch
  cases hend : t ⟨committed, [], before⟩ with
  | mk result u =>
    rw [hend] at hrun
    cases result with
    | ok _ => exact ⟨gained, log, hsub, hrun, hiff⟩
    | error e =>
      by_cases hcaught : caught e = true
      · have hrows : (log ++ l).flatMap row = log.flatMap row := by rw [List.flatMap_append, hl, List.append_nil]
        refine ⟨gained, log ++ l, ?_, ?_, ?_⟩
        · rw [hrows]
          exact hsub
        · simp only [hcaught, ↓reduceIte]
          have hcommitted : u.committed = committed ++ gained := congrArg Uow.committed hrun
          have hlog : u.log = before ++ log := congrArg Uow.log hrun
          show (⟨u.committed, [], u.log ++ l⟩ : Uow ρ κ) = _
          rw [hcommitted, hlog, List.append_assoc]
        · rw [hrows]
          exact hiff
      · simp only [hcaught]
        exact ⟨gained, log, hsub, hrun, hiff⟩

end Framework
