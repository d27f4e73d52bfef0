import ProRag.Admin.Rules

/-!
# Revocation by deletion

`delete_rule` removes the grants that its `DELETE` sees.  An ingest grants from the rules it read
earlier, and nothing in `document_acl.source` points back to `access_rules`.
-/

namespace ProRag

open Framework

variable (settings : Settings) (half : ℚ → ℚ) (embed : String → Embedding)

/-- A deleted rule has no grants. -/
def RevokedForGood (w : RuleWorld) : Prop :=
  ∀ r ∈ w.revoked, ∀ a ∈ w.db.documentAcl, a.source ≠ .rule r

/-- The rules whose grants the next commit of the handler publishes. -/
def publishedRules (w : RuleWorld) : RuleCall → List Uuid
  | .admitting _ rows rules => (matchedRules settings.ruleSimilarityFloor rows.chunks rules).map AccessRule.id
  | .confirmCommitting rule _ granted =>
    if granted ≠ [] ∧ ∃ a ∈ w.db.accessRules, a.id = rule.id then [rule.id] else []
  | _ => []

/-- The rule whose visible grants the handler has deleted without having committed. -/
def RuleCall.revoking : RuleCall → Option Uuid
  | .deleteCommitting rule _ => some rule.id
  | _ => none

/-- A commit publishes no grant of a rule that is deleted or being deleted past its `DELETE`. -/
def GrantsLiveRules (w : RuleWorld) (others : List RuleCall) (k : RuleCall) : RuleMove → Prop
  | .raise _ => True
  | .advance _ => ∀ r ∈ publishedRules settings w k, r ∉ w.revoked ∧ ∀ k0 ∈ others, k0.revoking ≠ some r

instance (w : RuleWorld) (others : List RuleCall) (k : RuleCall) :
    (m : RuleMove) → Decidable (GrantsLiveRules settings w others k m)
  | .raise _ => isTrue trivial
  | .advance _ => inferInstanceAs (Decidable (∀ r ∈ publishedRules settings w k,
      r ∉ w.revoked ∧ ∀ k0 ∈ others, k0.revoking ≠ some r))

/-- The rows a deletion is about to remove are all the committed grants of its rule. -/
def VictimsCover (w : RuleWorld) : RuleCall → Prop
  | .deleteCommitting rule victims => ∀ a ∈ w.db.documentAcl, a.source = .rule rule.id → a.id ∈ victims
  | _ => True

variable {settings} {half} {embed} {w w' : RuleWorld} {others : List RuleCall} {k : RuleCall}

theorem VictimsCover.keep (h : VictimsCover w k)
    (hnew : ∀ a ∈ w'.db.documentAcl, a ∈ w.db.documentAcl ∨ ∀ r, k.revoking = some r → a.source ≠ .rule r) :
    VictimsCover w' k := by
  cases k with
  | deleteCommitting rule victims =>
    intro a ha hsource
    rcases hnew a ha with hold | hother
    · exact h a hold hsource
    · exact absurd hsource (hother rule.id rfl)
  | _ => trivial

theorem publishing_kept {t : Timestamp} {db : Db} (hw : RevokedForGood w) (hothers : ∀ k0 ∈ others, VictimsCover w k0)
    (hguard : GrantsLiveRules settings w others k (.advance t))
    (hnew : ∀ a ∈ db.documentAcl, a ∈ w.db.documentAcl ∨
      ∃ r ∈ publishedRules settings w k, a.source = .rule r) :
    RevokedForGood { w with db := db } ∧ ∀ k0 ∈ others, VictimsCover { w with db := db } k0 := by
  constructor
  · intro r hr a ha hsource
    rcases hnew a ha with hold | ⟨r', hr', hsource'⟩
    · exact hw r hr a hold hsource
    · obtain rfl := AclSource.rule.inj (hsource.symm.trans hsource')
      exact (hguard r hr').1 hr
  · intro k0 h0
    apply (hothers k0 h0).keep
    intro a ha
    rcases hnew a ha with hold | ⟨r', hr', hsource'⟩
    · exact Or.inl hold
    · refine Or.inr fun r hrev hsource => ?_
      obtain rfl := AclSource.rule.inj (hsource.symm.trans hsource')
      exact (hguard r hr').2 k0 h0 hrev

theorem ruleAct_revocation {m : RuleMove} {k' : RuleCall} (hw : RevokedForGood w)
    (hothers : ∀ k0 ∈ others, VictimsCover w k0) (hk : VictimsCover w k)
    (hguard : GrantsLiveRules settings w others k m)
    (hs : ruleAct settings half embed w others k m = some (w', k')) :
    RevokedForGood w' ∧ VictimsCover w' k' ∧ ∀ k0 ∈ others, VictimsCover w' k0 := by
  cases ruleAct_transition settings half embed hs with
  | ends | readsRules | patchLoads | patchChecks | confirmLoads | embeds | searches | inserts | deleteLoads =>
    exact ⟨hw, trivial, hothers⟩
  | creates | patches =>
    exact ⟨hw, trivial, fun k0 h0 => (hothers k0 h0).keep fun a ha => Or.inl ha⟩
  | @admits doc rows rules t hfresh =>
    have hnew : ∀ a ∈ (admitDocument settings.ruleSimilarityFloor doc rows rules w.db).documentAcl,
        a ∈ w.db.documentAcl ∨ ∃ r ∈ publishedRules settings w (.admitting doc rows rules), a.source = .rule r := by
      intro a ha
      rcases mem_admitDocument ha with hold | ⟨r, hr, _, _, _, hsource⟩
      · exact Or.inl hold
      · exact Or.inr ⟨r.id, List.mem_map_of_mem hr, hsource⟩
    obtain ⟨hshared, hrest⟩ := publishing_kept hw hothers hguard hnew
    exact ⟨hshared, trivial, hrest⟩
  | @confirms rule query granted t hrow =>
    have hnew : ∀ a ∈ (grantAll rule granted (w.db.updateRule rule.id (confirmColumns query t))).documentAcl,
        a ∈ w.db.documentAcl ∨
          ∃ r ∈ publishedRules settings w (.confirmCommitting rule query granted), a.source = .rule r := by
      intro a ha
      rcases mem_grantAll ha with hold | ⟨hdoc, _, _, hsource⟩
      · exact Or.inl hold
      · have hpub : publishedRules settings w (.confirmCommitting rule query granted) = [rule.id] :=
          if_pos ⟨List.ne_nil_of_mem hdoc, hrow⟩
        exact Or.inr ⟨rule.id, by rw [hpub]; exact List.mem_singleton_self _, hsource⟩
    obtain ⟨hshared, hrest⟩ := publishing_kept hw hothers hguard hnew
    exact ⟨hshared, trivial, hrest⟩
  | @revokes rule t =>
    refine ⟨hw, ?_, hothers⟩
    intro a ha hsource
    exact List.mem_map_of_mem (List.mem_filter.mpr ⟨ha, decide_eq_true hsource⟩)
  | @deletes rule victims t =>
    have hold : ∀ a ∈ (w.db.deleteRule rule.id victims).documentAcl, a ∈ w.db.documentAcl ∧ a.id ∉ victims := by
      intro a ha
      simpa using mem_deleteWhere.mp ha
    refine ⟨?_, trivial, fun k0 h0 => (hothers k0 h0).keep fun a ha => Or.inl (hold a ha).1⟩
    intro r hr a ha hsource
    obtain ⟨hmem, hkept⟩ := hold a ha
    rcases List.mem_cons.mp hr with rfl | hr
    · exact hkept (hk a hmem hsource)
    · exact hw r hr a hmem hsource

/-- In a run whose commits publish no grant of a deleted rule, deletion revokes for good. -/
theorem deleteRule_revokes {s : RulePool}
    (hs : Reaches (ruleStep settings half embed) (poolGuard (GrantsLiveRules settings)) (RulesStart settings) s) :
    RevokedForGood s.shared := by
  have hinv : PoolInv RevokedForGood VictimsCover s := by
    refine Reaches.poolInv ?_ ?_ ?_ hs
    · intro s h
      refine ⟨fun r hr => ?_, fun k hk => ?_⟩
      · rw [h.revoked] at hr
        cases hr
      · rw [h.procs] at hk
        cases hk
    · intro w i _
      cases i with
      | _ => trivial
    · intro w others k m w' k' hw hothers hk hguard hact
      exact ruleAct_revocation hw hothers hk hguard hact
  exact hinv.shared

/-- An ingest that commits a match of a deleted rule leaves a grant of it. -/
theorem admitDocument_breaks {doc : Document} {rows : IngestRows} {rules : List AccessRule} {t : Timestamp} {r : Uuid}
    (hr : r ∈ w.revoked) (hpub : r ∈ publishedRules settings w (.admitting doc rows rules))
    (hs : ruleAct settings half embed w others (.admitting doc rows rules) (.advance t) = some (w', .finished (.ok ()))) :
    ¬ RevokedForGood w' := by
  have hw : w' = { w with db := admitDocument settings.ruleSimilarityFloor doc rows rules w.db } := by
    simp only [ruleAct] at hs
    split at hs
    · cases hs
    · cases hs
      rfl
  obtain ⟨rule, hmatched, rfl⟩ := List.mem_map.mp hpub
  have hgrant : (admitDocument settings.ruleSimilarityFloor doc rows rules w.db).hasRuleGrant doc.id rule.groupId rule.id = true :=
    admitDocument_hasRuleGrant hmatched
  obtain ⟨a, ha, _, _, _, hsource⟩ := hasRuleGrant_iff.mp hgrant
  intro h
  rw [hw] at h
  exact h rule.id hr a ha hsource

/-- Rule 7 is created, confirmed over an ingested document and deleted. -/
def confirmedThenDeleted : List (PoolOp RuleRequest RuleMove) :=
  [.spawn (.create 7 "finance" "quarterly reports" 1), .move 0 (.advance 0),
    .spawn (.ingest reportDocument reportRows), .move 1 (.advance 1), .move 1 (.advance 1),
    .spawn (.confirm 7), .move 2 (.advance 2), .move 2 (.advance 2), .move 2 (.advance 2), .move 2 (.advance 2),
    .move 2 (.advance 2),
    .spawn (.delete 7), .move 3 (.advance 3), .move 3 (.advance 3), .move 3 (.advance 3)]

theorem deleteRule_revokes_confirmed :
    ∃ s, runSteps (ruleStep planeSettings id topicEmbed) twoGroups confirmedThenDeleted = some s ∧
      7 ∈ s.shared.revoked ∧ RevokedForGood s.shared := by
  have hguard : Guarded (ruleStep planeSettings id topicEmbed) (poolGuard (GrantsLiveRules planeSettings)) twoGroups
      confirmedThenDeleted := by decide +kernel
  have hrun : (runSteps (ruleStep planeSettings id topicEmbed) twoGroups confirmedThenDeleted).any
      (fun s => 7 ∈ s.shared.revoked) = true := by decide +kernel
  obtain ⟨s, hs, hrevoked⟩ := (Option.any_eq_true _ _).mp hrun
  have hstart : Reaches (ruleStep planeSettings id topicEmbed) (poolGuard (GrantsLiveRules planeSettings))
      (RulesStart planeSettings) twoGroups := .start twoGroups_start
  exact ⟨s, hs, of_decide_eq_true hrevoked, deleteRule_revokes (hstart.runSteps hguard hs)⟩

/-- An ingest reads the confirmed rule 7, which is deleted before the ingest commits. -/
def deletedUnderIngest : List (PoolOp RuleRequest RuleMove) :=
  [.spawn (.create 7 "finance" "quarterly reports" 1), .move 0 (.advance 0),
    .spawn (.confirm 7), .move 1 (.advance 1), .move 1 (.advance 1), .move 1 (.advance 1), .move 1 (.advance 1),
    .move 1 (.advance 1),
    .spawn (.ingest reportDocument reportRows), .move 2 (.advance 2),
    .spawn (.delete 7), .move 3 (.advance 3), .move 3 (.advance 3), .move 3 (.advance 3),
    .move 2 (.advance 4)]

theorem ingest_outlives_deleteRule :
    RulesStart planeSettings twoGroups ∧
    ∃ s, runSteps (ruleStep planeSettings id topicEmbed) twoGroups deletedUnderIngest = some s ∧
      ¬ RevokedForGood s.shared := by
  have hrun : (runSteps (ruleStep planeSettings id topicEmbed) twoGroups deletedUnderIngest).any
      (fun s => 7 ∈ s.shared.revoked ∧ ∃ a ∈ s.shared.db.documentAcl, a.source = .rule 7) = true := by decide +kernel
  obtain ⟨s, hs, hleak⟩ := (Option.any_eq_true _ _).mp hrun
  obtain ⟨hrevoked, a, ha, hsource⟩ := of_decide_eq_true hleak
  exact ⟨twoGroups_start, s, hs, fun h => h 7 hrevoked a ha hsource⟩

end ProRag
