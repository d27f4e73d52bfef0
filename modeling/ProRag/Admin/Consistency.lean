import ProRag.Admin.Rules

/-!
# Rules and their memberships

`confirm_rule` embeds and grants from the row it has loaded and writes back other columns than
`update_rule`, which looks at the state of the rule only when it loads it.
-/

namespace ProRag

open Framework

variable (embed : String → Embedding)

/-- A confirmed rule carries the embedding of its text, and grants name the group of their rule. -/
structure RulesConsistent (db : Db) : Prop where
  confirmed : ∀ r ∈ db.accessRules, r.state = .confirmed → r.queryEmbedding = some (embed r.nlQuery)
  grants : ∀ a ∈ db.documentAcl, ∀ r ∈ db.accessRules, a.source = .rule r.id → a.principalId = some r.groupId

/-- The rule that a `confirm_rule` has loaded. -/
def RuleCall.confirming : RuleCall → Option Uuid
  | .confirmEmbedding rule => some rule.id
  | .confirmSearching rule _ => some rule.id
  | .confirmInserting rule _ _ => some rule.id
  | .confirmCommitting rule _ _ => some rule.id
  | _ => none

/-- The rule to which the next commit of the handler writes a new text or a new group. -/
def RuleCall.redefining : RuleCall → Option Uuid
  | .patchWriting rule body =>
    if body.setsNull ∨ (changedColumns rule body).nlQuery = none ∧ (changedColumns rule body).groupId = none then none
    else some rule.id
  | _ => none

/-- A text or a group is written to a rule that is still a draft and that no `confirm_rule` holds. -/
def PatchesFreeDraft (w : RuleWorld) (others : List RuleCall) (k : RuleCall) : RuleMove → Prop
  | .raise _ => True
  | .advance _ => ∀ r ∈ k.redefining,
    (∀ a ∈ w.db.accessRules, a.id = r → a.state = .draft) ∧ ∀ k0 ∈ others, k0.confirming ≠ some r

instance (w : RuleWorld) (others : List RuleCall) (k : RuleCall) : (m : RuleMove) → Decidable (PatchesFreeDraft w others k m)
  | .raise _ => isTrue trivial
  | .advance _ => inferInstanceAs (Decidable (∀ r ∈ k.redefining,
      (∀ a ∈ w.db.accessRules, a.id = r → a.state = .draft) ∧ ∀ k0 ∈ others, k0.confirming ≠ some r))

/-- Ids are drawn once, grants exist for confirmed rules only, and the columns agree. -/
structure RulesOk (w : RuleWorld) : Prop where
  unique : UniqueOn AccessRule.id w.db.accessRules
  drawn : ∀ r ∈ w.db.accessRules, r.id ∈ w.created
  confirmed : ∀ r ∈ w.db.accessRules, r.state = .confirmed → r.queryEmbedding = some (embed r.nlQuery)
  sources : ∀ a ∈ w.db.documentAcl, ∀ r, a.source = .rule r → r ∈ w.created
  grants : ∀ a ∈ w.db.documentAcl, ∀ r ∈ w.db.accessRules, a.source = .rule r.id →
    r.state = .confirmed ∧ a.principalId = some r.groupId

/-- A draft that `confirm_rule` holds still has its text and its group. -/
structure CopyOk (w : RuleWorld) (rule : AccessRule) : Prop where
  drawn : rule.id ∈ w.created
  row : ∀ r ∈ w.db.accessRules, r.id = rule.id → r.nlQuery = rule.nlQuery ∧ r.groupId = rule.groupId

/-- A confirmed rule that an ingest holds is still confirmed, with its text and its group. -/
structure SnapshotOk (w : RuleWorld) (rule : AccessRule) : Prop where
  drawn : rule.id ∈ w.created
  row : ∀ r ∈ w.db.accessRules, r.id = rule.id →
    r.state = .confirmed ∧ r.nlQuery = rule.nlQuery ∧ r.groupId = rule.groupId

def HandlerOk (w : RuleWorld) : RuleCall → Prop
  | .admitting _ _ rules => ∀ rule ∈ rules, SnapshotOk w rule
  | .confirmEmbedding rule => CopyOk w rule
  | .confirmSearching rule query => CopyOk w rule ∧ query = embed rule.nlQuery
  | .confirmInserting rule query _ => CopyOk w rule ∧ query = embed rule.nlQuery
  | .confirmCommitting rule query _ => CopyOk w rule ∧ query = embed rule.nlQuery
  | _ => True

variable {settings : Settings} {half : ℚ → ℚ} {embed} {w w' : RuleWorld} {others : List RuleCall} {k : RuleCall}

/-- What a commit may do to a row that other handlers hold: nothing to its text and its group, or
anything to a draft that none of them confirms. -/
def RowKept (k : RuleCall) (r r' : AccessRule) : Prop :=
  r.id = r'.id ∧ (r.nlQuery = r'.nlQuery ∧ r.groupId = r'.groupId ∧ (r.state = .confirmed → r'.state = .confirmed) ∨
    r.state = .draft ∧ k.confirming ≠ some r.id)

theorem SnapshotOk.keep {rule : AccessRule} (h : SnapshotOk w rule) (hcreated : ∀ r ∈ w.created, r ∈ w'.created)
    (hrows : ∀ r' ∈ w'.db.accessRules, r'.id ∈ w.created → ∃ r ∈ w.db.accessRules, RowKept k r r') :
    SnapshotOk w' rule := by
  refine ⟨hcreated _ h.drawn, ?_⟩
  intro r' hr' hid
  obtain ⟨r, hr, hrid, hcols⟩ := hrows r' hr' (by rw [hid]; exact h.drawn)
  obtain ⟨hstate, hquery, hgroup⟩ := h.row r hr (hrid.trans hid)
  rcases hcols with ⟨hq, hg, hs⟩ | ⟨hdraft, _⟩
  · exact ⟨hs hstate, hq.symm.trans hquery, hg.symm.trans hgroup⟩
  · rw [hstate] at hdraft
    cases hdraft

theorem CopyOk.keep {rule : AccessRule} (h : CopyOk w rule) (hk : k.confirming = some rule.id)
    (hcreated : ∀ r ∈ w.created, r ∈ w'.created)
    (hrows : ∀ r' ∈ w'.db.accessRules, r'.id ∈ w.created → ∃ r ∈ w.db.accessRules, RowKept k r r') :
    CopyOk w' rule := by
  refine ⟨hcreated _ h.drawn, ?_⟩
  intro r' hr' hid
  obtain ⟨r, hr, hrid, hcols⟩ := hrows r' hr' (by rw [hid]; exact h.drawn)
  obtain ⟨hquery, hgroup⟩ := h.row r hr (hrid.trans hid)
  rcases hcols with ⟨hq, hg, _⟩ | ⟨_, hother⟩
  · exact ⟨hq.symm.trans hquery, hg.symm.trans hgroup⟩
  · rw [hrid, hid] at hother
    exact absurd hk hother

theorem HandlerOk.keep (h : HandlerOk embed w k) (hcreated : ∀ r ∈ w.created, r ∈ w'.created)
    (hrows : ∀ r' ∈ w'.db.accessRules, r'.id ∈ w.created → ∃ r ∈ w.db.accessRules, RowKept k r r') :
    HandlerOk embed w' k := by
  cases k with
  | admitting doc rows rules => exact fun rule hrule => (h rule hrule).keep hcreated hrows
  | confirmEmbedding rule => exact CopyOk.keep h rfl hcreated hrows
  | confirmSearching rule query => exact ⟨h.1.keep rfl hcreated hrows, h.2⟩
  | confirmInserting rule query docIds => exact ⟨h.1.keep rfl hcreated hrows, h.2⟩
  | confirmCommitting rule query granted => exact ⟨h.1.keep rfl hcreated hrows, h.2⟩
  | _ => trivial

theorem RowKept.refl (k : RuleCall) (r : AccessRule) : RowKept k r r :=
  ⟨rfl, Or.inl ⟨rfl, rfl, id⟩⟩

theorem RulesOk.copy (h : RulesOk embed w) {rule : AccessRule} (hrule : rule ∈ w.db.accessRules) : CopyOk w rule := by
  refine ⟨h.drawn rule hrule, ?_⟩
  intro r hr hid
  obtain rfl := h.unique.eq_of_key hr hrule hid
  exact ⟨rfl, rfl⟩

theorem RulesOk.snapshot (h : RulesOk embed w) {rule : AccessRule} (hrule : rule ∈ w.db.confirmedRules) :
    SnapshotOk w rule := by
  obtain ⟨hmem, hcols⟩ := List.mem_filter.mp hrule
  obtain ⟨hstate, _⟩ := of_decide_eq_true hcols
  refine ⟨h.drawn rule hmem, ?_⟩
  intro r hr hid
  obtain rfl := h.unique.eq_of_key hr hmem hid
  exact ⟨hstate, rfl, rfl⟩

/-- A row that a `PATCH` leaves: its text and its group are the old ones, or it is a free draft. -/
theorem patched_row {rule : AccessRule} {body : AccessRuleUpdate} {t : Timestamp} (hnull : body.setsNull = false)
    (hguard : PatchesFreeDraft w others (.patchWriting rule body) (.advance t)) {r' : AccessRule}
    (hr' : r' ∈ (w.db.updateRule rule.id (changedColumns rule body).apply).accessRules) :
    ∃ r ∈ w.db.accessRules, r.id = r'.id ∧ r.state = r'.state ∧ r.queryEmbedding = r'.queryEmbedding ∧
      (r.nlQuery = r'.nlQuery ∧ r.groupId = r'.groupId ∨
        r.state = .draft ∧ ∀ k0 ∈ others, k0.confirming ≠ some r.id) := by
  obtain ⟨r, hr, rfl⟩ := mem_updateWhere.mp hr'
  refine ⟨r, hr, ?_⟩
  by_cases hid : r.id = rule.id
  · rw [if_pos (decide_eq_true hid)]
    refine ⟨rfl, rfl, rfl, ?_⟩
    by_cases hcols : (changedColumns rule body).nlQuery = none ∧ (changedColumns rule body).groupId = none
    · exact Or.inl (by simp [RuleColumns.apply, hcols])
    · have hredef : (RuleCall.patchWriting rule body).redefining = some rule.id := by
        simp [RuleCall.redefining, hnull, hcols]
      obtain ⟨hdraft, hfree⟩ := hguard rule.id hredef
      rw [hid]
      exact Or.inr ⟨hdraft r hr hid, hfree⟩
  · rw [if_neg (by simpa using hid)]
    exact ⟨rfl, rfl, rfl, Or.inl ⟨rfl, rfl⟩⟩

theorem RulesOk.patch (h : RulesOk embed w) {rule : AccessRule} {body : AccessRuleUpdate} {t : Timestamp}
    (hnull : body.setsNull = false) (hguard : PatchesFreeDraft w others (.patchWriting rule body) (.advance t)) :
    RulesOk embed { w with db := w.db.updateRule rule.id (changedColumns rule body).apply } where
  unique := h.unique.updateWhere fun _ _ => rfl
  drawn := by
    intro r' hr'
    obtain ⟨r, hr, hid, _⟩ := patched_row hnull hguard hr'
    rw [← hid]
    exact h.drawn r hr
  confirmed := by
    intro r' hr' hstate
    obtain ⟨r, hr, _, hs, hq, hcols⟩ := patched_row hnull hguard hr'
    have hconfirmed : r.state = .confirmed := hs.trans hstate
    rcases hcols with ⟨hnl, _⟩ | ⟨hdraft, _⟩
    · rw [← hq, ← hnl]
      exact h.confirmed r hr hconfirmed
    · rw [hconfirmed] at hdraft
      cases hdraft
  sources := h.sources
  grants := by
    intro a ha r' hr' hsource
    obtain ⟨r, hr, hid, hs, _, hcols⟩ := patched_row hnull hguard hr'
    obtain ⟨hconfirmed, hgroup⟩ := h.grants a ha r hr (by rw [hid]; exact hsource)
    rcases hcols with ⟨_, hg⟩ | ⟨hdraft, _⟩
    · exact ⟨hs.symm.trans hconfirmed, by rw [← hg]; exact hgroup⟩
    · rw [hconfirmed] at hdraft
      cases hdraft

theorem RulesOk.addGrants (h : RulesOk embed w) {db : Db} (hrules : db.accessRules = w.db.accessRules)
    (hnew : ∀ a ∈ db.documentAcl, a ∈ w.db.documentAcl ∨ ∃ rule : AccessRule, SnapshotOk w rule ∧
      a.principalId = some rule.groupId ∧ a.source = .rule rule.id) :
    RulesOk embed { w with db := db } where
  unique := by
    rw [hrules]
    exact h.unique
  drawn := by
    rw [hrules]
    exact h.drawn
  confirmed := by
    rw [hrules]
    exact h.confirmed
  sources := by
    intro a ha r hsource
    rcases hnew a ha with hold | ⟨rule, hrule, _, hsource'⟩
    · exact h.sources a hold r hsource
    · obtain rfl := AclSource.rule.inj (hsource.symm.trans hsource')
      exact hrule.drawn
  grants := by
    intro a ha r hr hsource
    rw [hrules] at hr
    rcases hnew a ha with hold | ⟨rule, hrule, hgroup, hsource'⟩
    · exact h.grants a hold r hr hsource
    · have hid : r.id = rule.id := AclSource.rule.inj (hsource.symm.trans hsource')
      obtain ⟨hstate, _, hg⟩ := hrule.row r hr hid
      exact ⟨hstate, by rw [hg]; exact hgroup⟩

theorem RulesOk.confirm (h : RulesOk embed w) {rule : AccessRule} (hcopy : CopyOk w rule) (now : Timestamp) :
    RulesOk embed { w with db := w.db.updateRule rule.id (confirmColumns (embed rule.nlQuery) now) } ∧
      SnapshotOk { w with db := w.db.updateRule rule.id (confirmColumns (embed rule.nlQuery) now) } rule := by
  have hrows : ∀ r' ∈ (w.db.updateRule rule.id (confirmColumns (embed rule.nlQuery) now)).accessRules,
      ∃ r ∈ w.db.accessRules, r.id = r'.id ∧ r.groupId = r'.groupId ∧ r.nlQuery = r'.nlQuery ∧
        (r' = r ∧ r.id ≠ rule.id ∨ r'.state = .confirmed ∧ r'.queryEmbedding = some (embed r'.nlQuery)) := by
    intro r' hr'
    obtain ⟨r, hr, rfl⟩ := mem_updateWhere.mp hr'
    refine ⟨r, hr, ?_⟩
    by_cases hid : r.id = rule.id
    · rw [if_pos (decide_eq_true hid)]
      refine ⟨rfl, rfl, rfl, Or.inr ⟨rfl, ?_⟩⟩
      rw [← (hcopy.row r hr hid).1]
      rfl
    · rw [if_neg (by simpa using hid)]
      exact ⟨rfl, rfl, rfl, Or.inl ⟨rfl, hid⟩⟩
  refine ⟨⟨h.unique.updateWhere fun _ _ => rfl, ?_, ?_, h.sources, ?_⟩, hcopy.drawn, ?_⟩
  · intro r' hr'
    obtain ⟨r, hr, hid, _⟩ := hrows r' hr'
    rw [← hid]
    exact h.drawn r hr
  · intro r' hr' hstate
    obtain ⟨r, hr, _, _, _, hcols⟩ := hrows r' hr'
    rcases hcols with ⟨rfl, _⟩ | ⟨_, hquery⟩
    · exact h.confirmed _ hr hstate
    · exact hquery
  · intro a ha r' hr' hsource
    obtain ⟨r, hr, hid, hg, _, hcols⟩ := hrows r' hr'
    obtain ⟨hconfirmed, hgroup⟩ := h.grants a ha r hr (by rw [hid]; exact hsource)
    rw [← hg]
    rcases hcols with ⟨rfl, _⟩ | ⟨hstate, _⟩
    · exact ⟨hconfirmed, hgroup⟩
    · exact ⟨hstate, hgroup⟩
  · intro r' hr' hid'
    obtain ⟨r, hr, hid, hg, hq, hcols⟩ := hrows r' hr'
    obtain ⟨hquery, hgroup⟩ := hcopy.row r hr (hid.trans hid')
    rcases hcols with ⟨rfl, hne⟩ | ⟨hstate, _⟩
    · exact absurd hid' hne
    · exact ⟨hstate, hq.symm.trans hquery, hg.symm.trans hgroup⟩

theorem RulesOk.create (h : RulesOk embed w) {rule : AccessRule} (hid : rule.id ∉ w.created)
    (hdraft : rule.state = .draft) :
    RulesOk embed { w with
      db := { w.db with accessRules := w.db.accessRules ++ [rule] }
      created := rule.id :: w.created } where
  unique := by
    refine h.unique.insert fun r hr heq => hid ?_
    rw [← heq]
    exact h.drawn r hr
  drawn := by
    intro r hr
    rcases List.mem_append.mp hr with hr | hr
    · exact List.mem_cons_of_mem _ (h.drawn r hr)
    · obtain rfl := List.mem_singleton.mp hr
      exact List.mem_cons_self
  confirmed := by
    intro r hr hstate
    rcases List.mem_append.mp hr with hr | hr
    · exact h.confirmed r hr hstate
    · obtain rfl := List.mem_singleton.mp hr
      rw [hdraft] at hstate
      cases hstate
  sources := fun a ha r hsource => List.mem_cons_of_mem _ (h.sources a ha r hsource)
  grants := by
    intro a ha r hr hsource
    rcases List.mem_append.mp hr with hr | hr
    · exact h.grants a ha r hr hsource
    · obtain rfl := List.mem_singleton.mp hr
      exact absurd (h.sources a ha _ hsource) hid

/-- What one move must leave behind. -/
def MoveOk (embed : String → Embedding) (others : List RuleCall) (w : RuleWorld) (k : RuleCall) : Prop :=
  RulesOk embed w ∧ HandlerOk embed w k ∧ ∀ k0 ∈ others, HandlerOk embed w k0

theorem ruleAct_consistent {m : RuleMove} {k' : RuleCall} (hw : RulesOk embed w)
    (hothers : ∀ k0 ∈ others, HandlerOk embed w k0) (hk : HandlerOk embed w k)
    (hguard : PatchesFreeDraft w others k m) (hs : ruleAct settings half embed w others k m = some (w', k')) :
    MoveOk embed others w' k' := by
  cases ruleAct_transition settings half embed hs with
  | ends | patchLoads | patchChecks | deleteLoads | revokes => exact ⟨hw, trivial, hothers⟩
  | readsRules => exact ⟨hw, fun rule hrule => hw.snapshot hrule, hothers⟩
  | confirmLoads t hrule => exact ⟨hw, hw.copy hrule, hothers⟩
  | embeds => exact ⟨hw, ⟨hk, rfl⟩, hothers⟩
  | searches => exact ⟨hw, hk, hothers⟩
  | inserts => exact ⟨hw, hk, hothers⟩
  | @admits doc rows rules t hfresh =>
    refine ⟨?_, trivial, fun k0 h0 => (hothers k0 h0).keep (fun r hr => hr) fun r hr _ => ?_⟩
    · apply hw.addGrants (admitDocument_accessRules ..)
      intro a ha
      rcases mem_admitDocument ha with hold | ⟨r, hr, _, _, hgroup, hsource⟩
      · exact Or.inl hold
      · have hsnap : SnapshotOk w r := hk r ((matchedRules_sublist _ _ _).subset hr)
        exact Or.inr ⟨r, hsnap, hgroup, hsource⟩
    · rw [admitDocument_accessRules] at hr
      exact ⟨r, hr, .refl k0 r⟩
  | @creates id name nlQuery groupId t hid =>
    refine ⟨hw.create hid rfl, trivial, fun k0 h0 => (hothers k0 h0).keep
      (fun r hr => List.mem_cons_of_mem _ hr) fun r hr hdrawn => ?_⟩
    rcases List.mem_append.mp hr with hr | hr
    · exact ⟨r, hr, .refl k0 r⟩
    · obtain rfl := List.mem_singleton.mp hr
      exact absurd hdrawn hid
  | @patches rule body t hnull =>
    refine ⟨hw.patch hnull hguard, trivial, fun k0 h0 => (hothers k0 h0).keep (fun r hr => hr) fun r' hr' _ => ?_⟩
    obtain ⟨r, hr, hid, hstate, _, hcols⟩ := patched_row hnull hguard hr'
    rcases hcols with ⟨hnl, hgroup⟩ | ⟨hdraft, hfree⟩
    · exact ⟨r, hr, hid, Or.inl ⟨hnl, hgroup, hstate.symm.trans⟩⟩
    · exact ⟨r, hr, hid, Or.inr ⟨hdraft, hfree k0 h0⟩⟩
  | @confirms rule query granted now hrow =>
    obtain ⟨hcopy, rfl⟩ := hk
    obtain ⟨hrules, hsnap⟩ := hw.confirm hcopy now
    refine ⟨?_, trivial, fun k0 h0 => (hothers k0 h0).keep (fun r hr => hr) fun r' hr' _ => ?_⟩
    · apply hrules.addGrants (grantAll_accessRules ..)
      intro a ha
      rcases mem_grantAll ha with hold | ⟨_, _, hgroup, hsource⟩
      · exact Or.inl hold
      · exact Or.inr ⟨rule, hsnap, hgroup, hsource⟩
    · rw [grantAll_accessRules] at hr'
      obtain ⟨r, hr, rfl⟩ := mem_updateWhere.mp hr'
      refine ⟨r, hr, ?_⟩
      split
      · exact ⟨rfl, Or.inl ⟨rfl, rfl, fun _ => rfl⟩⟩
      · exact .refl k0 r
  | @deletes rule victims t =>
    have hold : ∀ r ∈ (w.db.deleteRule rule.id victims).accessRules, r ∈ w.db.accessRules := fun r hr =>
      (mem_deleteWhere.mp hr).1
    have hacl : ∀ a ∈ (w.db.deleteRule rule.id victims).documentAcl, a ∈ w.db.documentAcl := fun a ha =>
      (mem_deleteWhere.mp ha).1
    refine ⟨⟨hw.unique.deleteWhere _, fun r hr => hw.drawn r (hold r hr), fun r hr => hw.confirmed r (hold r hr),
      fun a ha => hw.sources a (hacl a ha), fun a ha r hr => hw.grants a (hacl a ha) r (hold r hr)⟩, trivial, ?_⟩
    intro k0 h0
    exact (hothers k0 h0).keep (fun r hr => hr) fun r hr _ => ⟨r, hold r hr, .refl k0 r⟩

theorem RulesOk.start {s : RulePool} (h : RulesStart settings s) : RulesOk embed s.shared where
  unique := by
    rw [UniqueOn, h.rules]
    exact List.nodup_nil
  drawn := by
    intro r hr
    rw [h.rules] at hr
    cases hr
  confirmed := by
    intro r hr
    rw [h.rules] at hr
    cases hr
  sources := fun a ha r hsource => absurd hsource (h.grants a ha r)
  grants := fun a ha r _ hsource => absurd hsource (h.grants a ha r.id)

/-- In a run whose `PATCH`es change only free drafts, every rule agrees with its embedding and its grants. -/
theorem rules_stay_consistent {s : RulePool}
    (hs : Reaches (ruleStep settings half embed) (poolGuard PatchesFreeDraft) (RulesStart settings) s) :
    RulesConsistent embed s.shared.db := by
  have hinv : PoolInv (RulesOk embed) (HandlerOk embed) s := by
    refine Reaches.poolInv ?_ ?_ ?_ hs
    · intro s h
      refine ⟨.start h, fun k hk => ?_⟩
      rw [h.procs] at hk
      cases hk
    · intro w i _
      cases i with
      | _ => trivial
    · intro w others k m w' k' hw hothers hk hguard hact
      exact ruleAct_consistent hw hothers hk hguard hact
  exact ⟨hinv.shared.confirmed, fun a ha r hr hsource => (hinv.shared.grants a ha r hr hsource).2⟩

/-- A rule is edited as a draft, then confirmed over an ingested document. -/
def patchedThenConfirmed : List (PoolOp RuleRequest RuleMove) :=
  [.spawn (.create 7 "finance" "payroll" 1), .move 0 (.advance 0),
    .spawn (.ingest reportDocument reportRows), .move 1 (.advance 1), .move 1 (.advance 1),
    .spawn (.update 7 ⟨none, some (some "quarterly reports"), some (some 2)⟩), .move 2 (.advance 2),
    .move 2 (.advance 2), .move 2 (.advance 2),
    .spawn (.confirm 7), .move 3 (.advance 3), .move 3 (.advance 3), .move 3 (.advance 3), .move 3 (.advance 3),
    .move 3 (.advance 3)]

theorem rules_stay_consistent_patched :
    ∃ s, runSteps (ruleStep planeSettings id topicEmbed) twoGroups patchedThenConfirmed = some s ∧
      s.shared.db.hasRuleGrant 3 2 7 ∧ RulesConsistent topicEmbed s.shared.db := by
  have hguard : Guarded (ruleStep planeSettings id topicEmbed) (poolGuard PatchesFreeDraft) twoGroups
      patchedThenConfirmed := by decide +kernel
  have hrun : (runSteps (ruleStep planeSettings id topicEmbed) twoGroups patchedThenConfirmed).any
      (fun s => s.shared.db.hasRuleGrant 3 2 7) = true := by decide +kernel
  obtain ⟨s, hs, hgrant⟩ := (Option.any_eq_true _ _).mp hrun
  have hstart : Reaches (ruleStep planeSettings id topicEmbed) (poolGuard PatchesFreeDraft)
      (RulesStart planeSettings) twoGroups := .start twoGroups_start
  exact ⟨s, hs, hgrant, rules_stay_consistent (hstart.runSteps hguard hs)⟩

/-- A `PATCH` commits a new text and a new group while `confirm_rule` awaits the embedding of the old text. -/
def patchedUnderConfirm : List (PoolOp RuleRequest RuleMove) :=
  [.spawn (.create 7 "finance" "quarterly reports" 1), .move 0 (.advance 0),
    .spawn (.ingest reportDocument reportRows), .move 1 (.advance 1), .move 1 (.advance 1),
    .spawn (.confirm 7), .move 2 (.advance 2),
    .spawn (.update 7 ⟨none, some (some "payroll"), some (some 2)⟩), .move 3 (.advance 3), .move 3 (.advance 3),
    .move 3 (.advance 3),
    .move 2 (.advance 4), .move 2 (.advance 4), .move 2 (.advance 4), .move 2 (.advance 4)]

theorem patch_under_confirm_splits :
    RulesStart planeSettings twoGroups ∧
    ∃ s, runSteps (ruleStep planeSettings id topicEmbed) twoGroups patchedUnderConfirm = some s ∧
      (∃ r ∈ s.shared.db.accessRules, r.state = .confirmed ∧ r.queryEmbedding ≠ some (topicEmbed r.nlQuery)) ∧
      (∃ a ∈ s.shared.db.documentAcl, ∃ r ∈ s.shared.db.accessRules, a.source = .rule r.id ∧
        a.principalId ≠ some r.groupId) ∧
      ¬ RulesConsistent topicEmbed s.shared.db := by
  have hrun : (runSteps (ruleStep planeSettings id topicEmbed) twoGroups patchedUnderConfirm).any (fun s =>
      (∃ r ∈ s.shared.db.accessRules, r.state = .confirmed ∧ r.queryEmbedding ≠ some (topicEmbed r.nlQuery)) ∧
      ∃ a ∈ s.shared.db.documentAcl, ∃ r ∈ s.shared.db.accessRules, a.source = .rule r.id ∧
        a.principalId ≠ some r.groupId) = true := by decide +kernel
  obtain ⟨s, hs, hsplit⟩ := (Option.any_eq_true _ _).mp hrun
  obtain ⟨⟨r, hr, hstate, hquery⟩, hgrant⟩ := of_decide_eq_true hsplit
  exact ⟨twoGroups_start, s, hs, ⟨r, hr, hstate, hquery⟩, hgrant,
    fun h => hquery (h.confirmed r hr hstate)⟩

end ProRag
