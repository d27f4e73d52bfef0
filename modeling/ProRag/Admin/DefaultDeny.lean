import ProRag.Admin.Admission

/-!
# Default deny

A grant is there only while the rule that has written it is, and only the two writers of confirmed rules
insert any.
-/

namespace ProRag

open Framework

/-- Which handler a call belongs to. -/
inductive RuleFamily
  | create | patch | confirm | delete

inductive RuleEffect (settings : Settings) (half : ℚ → ℚ) (w : RuleWorld) : RuleFamily → RuleWorld → Prop
  | nothing (f : RuleFamily) : RuleEffect settings half w f w
  | creates (id : Uuid) (name nlQuery : String) (groupId : Uuid) (hid : id ∉ w.created) :
    RuleEffect settings half w .create { w with
      db := { w.db with accessRules := w.db.accessRules ++ [⟨id, name, nlQuery, groupId, .draft, none, none⟩] }
      created := id :: w.created }
  | patches (rule : AccessRule) (body : AccessRuleUpdate) (hrule : rule ∈ w.db.accessRules) (hdraft : rule.state = .draft) :
    RuleEffect settings half w .patch { w with db := w.db.updateRule rule.id (changedColumns rule body).apply }
  | confirms (rule : AccessRule) (query : Embedding) (granted : List Uuid) (now : Timestamp)
    (hrule : rule ∈ w.db.accessRules) (hdraft : rule.state = .draft)
    (hgranted : ∀ d ∈ granted, ∃ c ∈ w.db.chunks, c.docId = d ∧
      Cleared (distanceOperand settings half) settings.ruleSimilarityFloor c.embedding query) :
    RuleEffect settings half w .confirm
      { w with db := grantAll rule granted (w.db.updateRule rule.id (confirmColumns query now)) }
  | deletes (rule : AccessRule) (victims : List Nat) (hrule : rule ∈ w.db.accessRules)
    (hvictims : ∀ a ∈ w.db.documentAcl, a.source = .rule rule.id → a.id ∈ victims) :
    RuleEffect settings half w .delete
      { w with db := w.db.deleteRule rule.id victims, revoked := rule.id :: w.revoked }

variable {settings : Settings} {half : ℚ → ℚ} {embed : String → Embedding} {operand : Embedding → Embedding}
  {w w' : RuleWorld} {k k' : RuleCall} {m : RuleMove} {f : RuleFamily}

/-- Every grant goes back to a confirmed rule that still has the group of the grant, and that has written it for
a document with a chunk that cleared the floor. -/
structure RightsOk (operand : Embedding → Embedding) (w : AccessWorld) : Prop where
  ruleIds : UniqueOn AccessRule.id w.db.accessRules
  created : ∀ r ∈ w.db.accessRules, r.id ∈ w.created
  acl : w.db.AclOk
  grants : ∀ a ∈ w.db.documentAcl, ∃ r ∈ w.db.accessRules, r.state = .confirmed ∧
    ∃ floor, (a, floor) ∈ w.written ∧ GrantedBy operand floor w.db a r

/-- Every confirmed rule has been confirmed by a request that passed `require_admin`. -/
def ConfirmedByAdmin (settings : Settings) (w : AccessWorld) : Prop :=
  ∀ r ∈ w.db.accessRules, r.state = .confirmed →
    ∃ principal, (r.id, principal) ∈ w.confirmations ∧ requireAdmin settings principal = .ok ()

variable {a : AccessWorld} {db : Db} {floor : ℚ}

theorem mem_commit_written {acl : DocumentAcl} (hacl : acl ∈ db.documentAcl) (hnew : acl ∉ a.db.documentAcl) :
    (acl, floor) ∈ (a.commit db floor).written := by
  apply List.mem_append_right
  exact List.mem_map.mpr ⟨acl, List.mem_filter.mpr ⟨hacl, decide_eq_true hnew⟩, rfl⟩

theorem RightsOk.admits (h : RightsOk operand a) (hadmits : Admits floor a.db db) :
    RightsOk operand (a.commit db floor) := by
  refine ⟨?_, ?_, hadmits.ok h.acl, fun acl hacl => ?_⟩
  · exact hadmits.rules ▸ h.ruleIds
  · exact hadmits.rules ▸ h.created
  · have hrules : (a.commit db floor).db.accessRules = a.db.accessRules := hadmits.rules
    rw [hrules]
    rcases hadmits.grants acl hacl with ⟨hold, hkept⟩ | ⟨hid, r, hr, hconfirmed, hgranted⟩
    · obtain ⟨r, hr, hconfirmed, floor0, hwritten, hgranted⟩ := h.grants acl hold
      exact ⟨r, hr, hconfirmed, floor0, List.mem_append_left _ hwritten, hgranted.keep hkept⟩
    · refine ⟨r, hr, hconfirmed, floor, mem_commit_written hacl ?_, hgranted operand⟩
      intro hold
      have hbelow := h.acl.below acl hold
      omega

theorem RightsOk.not_draft (h : RightsOk operand a) {rule r : AccessRule} (hrule : rule ∈ a.db.accessRules)
    (hdraft : rule.state = .draft) (hr : r ∈ a.db.accessRules) (hconfirmed : r.state = .confirmed) : r.id ≠ rule.id := by
  intro hid
  obtain rfl := h.ruleIds.eq_of_key hr hrule hid
  rw [hdraft] at hconfirmed
  cases hconfirmed

theorem updateRule_created {created : List Uuid} {id : Uuid} {g : AccessRule → AccessRule} (hg : ∀ r, (g r).id = r.id)
    (h : ∀ r ∈ db.accessRules, r.id ∈ created) : ∀ r ∈ (db.updateRule id g).accessRules, r.id ∈ created := by
  intro r hr
  obtain ⟨r0, hr0, rfl⟩ := mem_updateWhere.mp hr
  split
  · rw [hg]
    exact h r0 hr0
  · exact h r0 hr0

theorem updateRule_keeps {r rule : AccessRule} {g : AccessRule → AccessRule} (hr : r ∈ db.accessRules)
    (hid : r.id ≠ rule.id) : r ∈ (db.updateRule rule.id g).accessRules :=
  mem_updateWhere.mpr ⟨r, hr, by simp [hid]⟩

theorem RightsOk.effect {w : RuleWorld} (h : RightsOk (distanceOperand settings half) a)
    (heffect : RuleEffect settings half ⟨a.db, a.created, []⟩ f w) :
    RightsOk (distanceOperand settings half) { a.commit w.db settings.ruleSimilarityFloor with created := w.created } := by
  cases heffect with
  | nothing =>
    refine ⟨h.ruleIds, h.created, h.acl, fun acl hacl => ?_⟩
    obtain ⟨r, hr, hconfirmed, floor0, hwritten, hgranted⟩ := h.grants acl hacl
    exact ⟨r, hr, hconfirmed, floor0, List.mem_append_left _ hwritten, hgranted⟩
  | creates id name nlQuery groupId hid =>
    refine ⟨?_, ?_, ⟨h.acl.unique, h.acl.below⟩, fun acl hacl => ?_⟩
    · apply h.ruleIds.insert
      intro r hr heq
      have hsame : r.id = id := heq
      exact hid (hsame ▸ h.created r hr)
    · intro r hr
      rcases List.mem_append.mp hr with hr | hr
      · exact List.mem_cons_of_mem _ (h.created r hr)
      · obtain rfl := List.mem_singleton.mp hr
        exact List.mem_cons_self
    · obtain ⟨r, hr, hconfirmed, floor0, hwritten, hgranted⟩ := h.grants acl hacl
      exact ⟨r, List.mem_append_left _ hr, hconfirmed, floor0, List.mem_append_left _ hwritten, hgranted⟩
  | patches rule body hrule hdraft =>
    refine ⟨h.ruleIds.updateWhere fun r _ => rfl, ?_, ⟨h.acl.unique, h.acl.below⟩, fun acl hacl => ?_⟩
    · apply updateRule_created _ h.created
      exact fun _ => rfl
    · obtain ⟨r, hr, hconfirmed, floor0, hwritten, hgranted⟩ := h.grants acl hacl
      exact ⟨r, updateRule_keeps hr (h.not_draft hrule hdraft hr hconfirmed), hconfirmed, floor0,
        List.mem_append_left _ hwritten, hgranted⟩
  | confirms rule query granted now hrule hdraft hgranted =>
    have hgrown := AclGrown.confirm rule granted (confirmColumns query now) a.db
    refine ⟨?_, ?_, hgrown.ok h.acl, fun acl hacl => ?_⟩
    · have hkept : UniqueOn AccessRule.id (a.db.updateRule rule.id (confirmColumns query now)).accessRules :=
        h.ruleIds.updateWhere fun r _ => rfl
      simpa using hkept
    · have hcreated : ∀ r ∈ (a.db.updateRule rule.id (confirmColumns query now)).accessRules, r.id ∈ a.created :=
        updateRule_created (fun _ => rfl) h.created
      simpa using hcreated
    · have hchunks : (grantAll rule granted (a.db.updateRule rule.id (confirmColumns query now))).chunks = a.db.chunks :=
        grantAll_chunks _ _ _
      by_cases hold : acl ∈ a.db.documentAcl
      · obtain ⟨r, hr, hconfirmed, floor0, hwritten, hgranted⟩ := h.grants acl hold
        refine ⟨r, ?_, hconfirmed, floor0, List.mem_append_left _ hwritten, hgranted.keep fun c hc _ => ?_⟩
        · simpa using updateRule_keeps hr (h.not_draft hrule hdraft hr hconfirmed)
        · rw [AccessWorld.commit_db, hchunks]
          exact hc
      · rcases mem_grantAll hacl with hacl' | ⟨hdoc, htype, hprincipal, hsource⟩
        · exact absurd hacl' hold
        · obtain ⟨c, hc, hchunk, hclear⟩ := hgranted acl.docId hdoc
          refine ⟨confirmColumns query now rule, ?_, rfl, settings.ruleSimilarityFloor, mem_commit_written hacl hold, htype, hprincipal,
            hsource, query, rfl, c, ?_, hchunk, hclear⟩
          · have hrow : confirmColumns query now rule ∈
                (a.db.updateRule rule.id (confirmColumns query now)).accessRules :=
              mem_updateWhere.mpr ⟨rule, hrule, by simp⟩
            simpa using hrow
          · rw [AccessWorld.commit_db, hchunks]
            exact hc
  | deletes rule victims hrule hvictims =>
    refine ⟨h.ruleIds.deleteWhere _, ?_, ⟨h.acl.unique.deleteWhere _, ?_⟩, fun acl hacl => ?_⟩
    · intro r hr
      exact h.created r (mem_deleteWhere.mp hr).1
    · intro acl hacl
      exact h.acl.below acl (mem_deleteWhere.mp hacl).1
    · obtain ⟨hold, hvictim⟩ := mem_deleteWhere.mp hacl
      obtain ⟨r, hr, hconfirmed, floor0, hwritten, htype, hprincipal, hsource, hclear⟩ := h.grants acl hold
      refine ⟨r, mem_deleteWhere.mpr ⟨hr, ?_⟩, hconfirmed, floor0, List.mem_append_left _ hwritten, htype, hprincipal,
        hsource, hclear⟩
      apply decide_eq_false
      intro hid
      rw [hid] at hsource
      have hmem := hvictims acl hold hsource
      exact of_decide_eq_false hvictim hmem

theorem RuleEffect.confirmed {w : RuleWorld} (heffect : RuleEffect settings half ⟨a.db, a.created, []⟩ f w) (hf : f ≠ .confirm)
    {r : AccessRule} (hr : r ∈ w.db.accessRules) (hconfirmed : r.state = .confirmed) :
    ∃ r0 ∈ a.db.accessRules, r0.id = r.id ∧ r0.state = .confirmed := by
  cases heffect with
  | nothing => exact ⟨r, hr, rfl, hconfirmed⟩
  | creates id name nlQuery groupId hid =>
    rcases List.mem_append.mp hr with hr | hr
    · exact ⟨r, hr, rfl, hconfirmed⟩
    · obtain rfl := List.mem_singleton.mp hr
      cases hconfirmed
  | patches rule body hrule hdraft =>
    obtain ⟨r0, hr0, rfl⟩ := mem_updateWhere.mp hr
    refine ⟨r0, hr0, ?_⟩
    split at hconfirmed
    · exact ⟨by split <;> rfl, hconfirmed⟩
    · exact ⟨by split <;> rfl, hconfirmed⟩
  | confirms => exact absurd rfl hf
  | deletes rule victims hrule hvictims => exact ⟨r, (mem_deleteWhere.mp hr).1, rfl, hconfirmed⟩

section Step

variable {sha256Hex : Bytes → String} {hashKey : String → String} {verifyPassword : String → String → Bool}
  {principal : Option User} {moves : List RuleMove} {a' : AccessWorld}

theorem RightsOk.congr (h : RightsOk operand a) (hrights : db.rights = a.db.rights) :
    RightsOk operand { a with db := db } := by
  obtain ⟨hrules, hacl, hseq, hchunks⟩ : db.accessRules = a.db.accessRules ∧ db.documentAcl = a.db.documentAcl ∧
      db.aclSeq = a.db.aclSeq ∧ db.chunks = a.db.chunks := by simpa [Db.rights] using hrights
  refine ⟨?_, ?_, (AclGrown.of_eq hacl hseq).ok h.acl, ?_⟩
  · exact hrules ▸ h.ruleIds
  · exact hrules ▸ h.created
  · intro acl hmem
    obtain ⟨r, hr, hconfirmed, floor0, hwritten, hgranted⟩ := h.grants acl (hacl ▸ hmem)
    exact ⟨r, hrules ▸ hr, hconfirmed, floor0, hwritten, hgranted.keep fun c hc _ => hchunks ▸ hc⟩

theorem ConfirmedByAdmin.congr (h : ConfirmedByAdmin settings a) (hrules : db.accessRules = a.db.accessRules) :
    ConfirmedByAdmin settings { a with db := db } := by
  intro r hr hconfirmed
  have hr' : r ∈ a.db.accessRules := hrules ▸ hr
  exact h r hr' hconfirmed

/-- A user who is no admin sees a document, in the routes and the retrieval alike. -/
def Sees (db : Db) (u : User) (d : Uuid) : Prop :=
  visibleDocGuard db (some u) d = true

/-- The rule that opens a document to a user: confirmed by an admin, of a group that the user is a member of,
and with a grant that it wrote over a chunk of the document that cleared the floor of the moment. -/
def OpenedBy (settings : Settings) (half : ℚ → ℚ) (w : AccessWorld) (u : User) (d : Uuid) (r : AccessRule) : Prop :=
  r.state = .confirmed ∧
    (∃ principal, (r.id, principal) ∈ w.confirmations ∧ requireAdmin settings principal = .ok ()) ∧
    (⟨u.id, r.groupId⟩ : UserGroup) ∈ w.db.userGroups ∧
    ∃ acl floor, (acl, floor) ∈ w.written ∧ acl.docId = d ∧ GrantedBy (distanceOperand settings half) floor w.db acl r

theorem RightsOk.opened (h : RightsOk (distanceOperand settings half) a) (hconfirmed : ConfirmedByAdmin settings a)
    {u : User} (hadmin : u.isAdmin = false) {d : Uuid} (hsees : Sees a.db u d) :
    ∃ r ∈ a.db.accessRules, OpenedBy settings half a u d r := by
  obtain ⟨_, acl, hacl, hdoc, hprincipal⟩ := (visibleDocGuard_iff hadmin).mp hsees
  obtain ⟨r, hr, hstate, floor, hwritten, htype, hgroup, hgranted⟩ := h.grants acl hacl
  rcases hprincipal with heveryone | ⟨huser, _⟩ | ⟨_, g, hmember, hg⟩
  · rw [htype] at heveryone
    cases heveryone
  · rw [htype] at huser
    cases huser
  · obtain rfl := Option.some.inj (hgroup.symm.trans hg)
    exact ⟨r, hr, hstate, hconfirmed r hr hstate, hmember, acl, floor, hwritten, hdoc, htype, hgroup, hgranted⟩

end Step

/-! Rule 7 opens the quarterly reports to the group that the identity provider names for user 5. -/

end ProRag
