import Mathlib.Data.List.Induction
import ProRag.Framework.Rows

/-!
# Issued and revoked tokens

A log of tokens, each issued with a grant and perhaps revoked later, and the table in which a service keeps them:
one row for each token, which a revocation turns off and nothing removes.
-/

namespace Framework

variable {τ γ ρ : Type*}

inductive TokenEvent (τ γ : Type*)
  | issued (token : τ) (grant : γ)
  | revoked (token : τ)

/-- The token is issued with the grant, and not revoked behind that. -/
def LiveToken (log : List (TokenEvent τ γ)) (token : τ) (grant : γ) : Prop :=
  ∃ before after, log = before ++ .issued token grant :: after ∧ .revoked token ∉ after

def issuedTokens (log : List (TokenEvent τ γ)) : List τ := log.filterMap fun e => match e with
  | .issued token _ => some token
  | .revoked _ => none

variable {log log' : List (TokenEvent τ γ)} {token t : τ} {grant g : γ}

theorem not_liveToken_nil : ¬ LiveToken ([] : List (TokenEvent τ γ)) token grant := by
  rintro ⟨before, after, h, _⟩
  simp at h

theorem issuedTokens_append (log log' : List (TokenEvent τ γ)) :
    issuedTokens (log ++ log') = issuedTokens log ++ issuedTokens log' := List.filterMap_append

theorem LiveToken.mem_issuedTokens (h : LiveToken log token grant) : token ∈ issuedTokens log := by
  obtain ⟨before, after, rfl, _⟩ := h
  simp [issuedTokens]

theorem mem_issuedTokens (h : .issued token grant ∈ log) : token ∈ issuedTokens log :=
  List.mem_filterMap.mpr ⟨_, h, rfl⟩

theorem grant_unique (honce : (issuedTokens log).Nodup) (h : .issued token grant ∈ log) (h' : .issued token g ∈ log) :
    grant = g := by
  induction log with
  | nil => simp at h
  | cons e log ih =>
    have hlater : ∀ {t g}, e = .issued t g → (issuedTokens (e :: log)).Nodup → t ∉ issuedTokens log := by
      rintro t g rfl hnodup
      exact (List.nodup_cons.mp hnodup).1
    rcases List.mem_cons.mp h with rfl | hmem
    · rcases List.mem_cons.mp h' with heq | hmem'
      · exact (TokenEvent.issued.inj heq).2.symm
      · exact absurd (mem_issuedTokens hmem') (hlater rfl honce)
    · rcases List.mem_cons.mp h' with rfl | hmem'
      · exact absurd (mem_issuedTokens hmem) (hlater rfl honce)
      · apply ih _ hmem hmem'
        cases e with
        | issued t g => exact (List.nodup_cons.mp honce).2
        | revoked t => exact honce

theorem liveToken_snoc (e : TokenEvent τ γ) :
    LiveToken (log ++ [e]) token grant ↔ e = .issued token grant ∨ (LiveToken log token grant ∧ e ≠ .revoked token) := by
  constructor
  · rintro ⟨before, after, h, hafter⟩
    rcases List.eq_nil_or_concat after with rfl | ⟨rest, x, rfl⟩
    · exact Or.inl (List.append_singleton_inj.mp h).2
    · rw [List.concat_eq_append, ← List.cons_append, ← List.append_assoc] at h
      obtain ⟨rfl, rfl⟩ := List.append_singleton_inj.mp h
      simp only [List.concat_eq_append, List.mem_append, List.mem_singleton, not_or] at hafter
      exact Or.inr ⟨⟨before, rest, rfl, hafter.1⟩, Ne.symm hafter.2⟩
  · rintro (rfl | ⟨⟨before, after, rfl, hafter⟩, he⟩)
    · exact ⟨log, [], rfl, by simp⟩
    · exact ⟨before, after ++ [e], by simp, by simp [hafter, Ne.symm he]⟩

theorem liveToken_issue : LiveToken (log ++ [.issued t g]) token grant ↔
    (t = token ∧ g = grant) ∨ LiveToken log token grant := by
  simp [liveToken_snoc]

theorem liveToken_revoke : LiveToken (log ++ [.revoked t]) token grant ↔ LiveToken log token grant ∧ t ≠ token := by
  simp [liveToken_snoc]

/-- A token that is issued once and then revoked is never live again. -/
theorem not_liveToken_of_revoked (honce : (issuedTokens (log ++ .revoked token :: log')).Nodup)
    (hissued : token ∈ issuedTokens log) : ¬ LiveToken (log ++ .revoked token :: log') token grant := by
  have hlater : token ∉ issuedTokens log' := by
    intro h
    rw [issuedTokens_append] at honce
    exact (List.nodup_append.mp honce).2.2 token hissued token h rfl
  intro hlive
  induction log' using List.reverseRecOn with
  | nil => exact (liveToken_revoke.mp hlive).2 rfl
  | append_singleton rest e ih =>
    rw [← List.cons_append, ← List.append_assoc] at hlive honce
    rw [issuedTokens_append, List.mem_append, not_or] at hlater
    rcases (liveToken_snoc e).mp hlive with rfl | ⟨hlive, _⟩
    · simp [issuedTokens] at hlater
    · rw [issuedTokens_append] at honce
      exact ih (List.nodup_append.mp honce).1 hlater.1 hlive

/-! The table. -/

section

variable (key : ρ → τ) (active : ρ → Bool) (grantOf : ρ → γ)

/-- The rows are those of the tokens issued, and the active ones those of the live tokens. -/
structure Recorded (log : List (TokenEvent τ γ)) (rows : List ρ) : Prop where
  keys : rows.map key = issuedTokens log
  unique : UniqueOn key rows
  live : ∀ token grant, LiveToken log token grant ↔ ∃ r ∈ rows, key r = token ∧ grantOf r = grant ∧ active r = true

variable {key active grantOf} {rows : List ρ}

theorem Recorded.nil : Recorded key active grantOf [] [] where
  keys := rfl
  unique := List.nodup_nil
  live token grant := by simp [not_liveToken_nil]

theorem Recorded.issued_nodup (h : Recorded key active grantOf log rows) : (issuedTokens log).Nodup := by
  rw [← h.keys]
  exact h.unique

theorem Recorded.issue (h : Recorded key active grantOf log rows) {r : ρ} (hnew : ∀ a ∈ rows, key a ≠ key r)
    (hactive : active r = true) :
    Recorded key active grantOf (log ++ [.issued (key r) (grantOf r)]) (rows ++ [r]) where
  keys := by
    rw [List.map_append, issuedTokens_append, h.keys]
    rfl
  unique := h.unique.insert hnew
  live token grant := by
    rw [liveToken_issue, h.live]
    constructor
    · rintro (⟨hkey, hgrant⟩ | ⟨a, ha, hrow⟩)
      · exact ⟨r, by simp, hkey, hgrant, hactive⟩
      · exact ⟨a, List.mem_append_left _ ha, hrow⟩
    · rintro ⟨a, ha, hkey, hgrant, hrow⟩
      rcases List.mem_append.mp ha with ha | ha
      · exact Or.inr ⟨a, ha, hkey, hgrant, hrow⟩
      · obtain rfl := List.mem_singleton.mp ha
        exact Or.inl ⟨hkey, hgrant⟩

theorem Recorded.revoke (h : Recorded key active grantOf log rows) {p : ρ → Bool} {f : ρ → ρ}
    (hp : ∀ r, p r = true ↔ key r = token ∧ active r = true) (hkey : ∀ r, key (f r) = key r)
    (hoff : ∀ r, active (f r) = false) :
    Recorded key active grantOf (log ++ [.revoked token]) (updateWhere p f rows) where
  keys := by
    rw [map_updateWhere fun r _ => hkey r, issuedTokens_append, h.keys]
    simp [issuedTokens]
  unique := h.unique.updateWhere fun r _ => hkey r
  live t grant := by
    rw [liveToken_revoke, h.live]
    constructor
    · rintro ⟨⟨r, hr, hkr, hgrant, hrow⟩, hne⟩
      have hkeep : ¬ p r = true := by
        intro hpr
        exact hne (((hp r).mp hpr).1.symm.trans hkr)
      exact ⟨r, mem_updateWhere.mpr ⟨r, hr, if_neg hkeep⟩, hkr, hgrant, hrow⟩
    · rintro ⟨r', hr', hkr, hgrant, hrow⟩
      obtain ⟨r, hr, rfl⟩ := mem_updateWhere.mp hr'
      by_cases hpr : p r = true
      · rw [if_pos hpr, hoff r] at hrow
        cases hrow
      · rw [if_neg hpr] at hkr hgrant hrow
        refine ⟨⟨r, hr, hkr, hgrant, hrow⟩, ?_⟩
        rintro rfl
        exact hpr ((hp r).mpr ⟨hkr, hrow⟩)

theorem Recorded.find_iff [DecidableEq τ] (h : Recorded key active grantOf log rows) :
    (∃ r, selectOne key token rows = some r ∧ active r = true ∧ grantOf r = grant) ↔ LiveToken log token grant := by
  rw [h.live]
  constructor
  · rintro ⟨r, hsel, hrow, hgrant⟩
    obtain ⟨hr, hkey⟩ := selectOne_mem hsel
    exact ⟨r, hr, hkey, hgrant, hrow⟩
  · rintro ⟨r, hr, hkey, hgrant, hrow⟩
    exact ⟨r, (selectOne_eq_some h.unique).mpr ⟨hr, hkey⟩, hrow, hgrant⟩

end

end Framework
