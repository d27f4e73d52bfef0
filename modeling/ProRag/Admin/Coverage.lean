import ProRag.Admin.Consistency

/-!
# Coverage of confirmed rules

`confirm_rule` searches the committed documents, an ingest compares itself with the committed
rules.  Either may look before the other commits.
-/

namespace ProRag

open Framework

variable (settings : Settings) (half : ℚ → ℚ) (embed : String → Embedding)

/-- `d` is ready and a chunk of it has the similarity that the rules ask for. -/
def Matches (db : Db) (query : Embedding) (d : Document) : Prop :=
  d.status = .ready ∧
    ∃ c ∈ db.chunks, c.docId = d.id ∧ (settings.ruleSimilarityFloor : ℝ) ≤ cosine c.embedding query

/-- Every confirmed rule grants its group every document that matches it. -/
def RulesCover (db : Db) : Prop :=
  ∀ r ∈ db.accessRules, r.state = .confirmed → ∀ query, r.queryEmbedding = some query →
    ∀ d ∈ db.documents, Matches settings db query d → db.hasRuleGrant d.id r.groupId r.id = true

/-- The rule and the query of a `confirm_rule` past its candidate search. -/
def RuleCall.searched : RuleCall → Option (Uuid × Embedding)
  | .confirmInserting rule query _ => some (rule.id, query)
  | .confirmCommitting rule query _ => some (rule.id, query)
  | _ => none

/-- The rules whose candidates have been searched: the confirmed ones and those that others confirm. -/
def searchedRules (db : Db) (others : List RuleCall) : List (Uuid × Embedding) :=
  db.accessRules.filterMap (fun r => if r.state = .confirmed then r.queryEmbedding.map (r.id, ·) else none) ++
    (others.filterMap RuleCall.searched).filter fun p => db.accessRules.any fun r => r.id = p.1

/-- The rows an ingest is about to commit, with the rules it has read. -/
def RuleCall.admitting? : RuleCall → Option (IngestRows × List AccessRule)
  | .admitting _ rows rules => some (rows, rules)
  | _ => none

/-- An ingest that commits has read every rule that matches it and will not be searched again. -/
def ReadsSearchedRules (w : RuleWorld) (others : List RuleCall) (k : RuleCall) : RuleMove → Prop
  | .raise _ => True
  | .advance _ => ∀ a ∈ k.admitting?, ∀ p ∈ searchedRules w.db others,
    anyChunkClears settings.ruleSimilarityFloor p.2 a.1.chunks = some true → p.1 ∈ a.2.map AccessRule.id

instance (w : RuleWorld) (others : List RuleCall) (k : RuleCall) :
    (m : RuleMove) → Decidable (ReadsSearchedRules settings w others k m)
  | .raise _ => isTrue trivial
  | .advance _ => inferInstanceAs (Decidable (∀ a ∈ k.admitting?, ∀ p ∈ searchedRules w.db others,
      anyChunkClears settings.ruleSimilarityFloor p.2 a.1.chunks = some true → p.1 ∈ a.2.map AccessRule.id))

/-- The query that the handler is about to search with. -/
def RuleCall.searching : RuleCall → Option Embedding
  | .confirmSearching _ query => some query
  | _ => none

/-- A search compares as `_distance_expr` does, and in doing so it loses no ready document of which a chunk clears the
floor as it is. -/
def SearchLosesNone (w : RuleWorld) (k : RuleCall) : RuleMove → Prop
  | .raise _ => True
  | .advance _ => ∀ query ∈ k.searching, ∀ d ∈ w.db.documents, d.status = .ready →
    (∃ c ∈ w.db.chunks, c.docId = d.id ∧ cosineSimilarityGe settings.ruleSimilarityFloor c.embedding query = some true) →
    ∃ c ∈ w.db.chunks, c.docId = d.id ∧ similarityGeSql settings.ruleSimilarityFloor
      (distanceOperand settings half c.embedding) (distanceOperand settings half query) = true

instance (w : RuleWorld) (k : RuleCall) : (m : RuleMove) → Decidable (SearchLosesNone settings half w k m)
  | .raise _ => isTrue trivial
  | .advance _ => inferInstanceAs (Decidable (∀ query ∈ k.searching, ∀ d ∈ w.db.documents, d.status = .ready →
    (∃ c ∈ w.db.chunks, c.docId = d.id ∧ cosineSimilarityGe settings.ruleSimilarityFloor c.embedding query = some true) →
    ∃ c ∈ w.db.chunks, c.docId = d.id ∧ similarityGeSql settings.ruleSimilarityFloor
      (distanceOperand settings half c.embedding) (distanceOperand settings half query) = true))

/-- The conditions on ingests and on searches, and the one under which rules keep their text and their group. -/
def CoveringMove (w : RuleWorld) (others : List RuleCall) (k : RuleCall) (m : RuleMove) : Prop :=
  PatchesFreeDraft w others k m ∧ ReadsSearchedRules settings w others k m ∧ SearchLosesNone settings half w k m

instance (w : RuleWorld) (others : List RuleCall) (k : RuleCall) (m : RuleMove) :
    Decidable (CoveringMove settings half w others k m) :=
  inferInstanceAs (Decidable (_ ∧ _ ∧ _))

/-- Chunks have owners and one dimension, and what matches a confirmed rule is granted. -/
structure CoverOk (w : RuleWorld) : Prop where
  dims : ∀ c ∈ w.db.chunks, c.embedding.length = settings.embedDim
  owners : ∀ c ∈ w.db.chunks, ∃ d ∈ w.db.documents, d.id = c.docId
  queries : ∀ r ∈ w.db.accessRules, r.state = .confirmed → (embed r.nlQuery).length = settings.embedDim
  acl : w.db.AclOk
  covered : ∀ r ∈ w.db.accessRules, r.state = .confirmed → ∀ d ∈ w.db.documents,
    Matches settings w.db (embed r.nlQuery) d → w.db.hasRuleGrant d.id r.groupId r.id = true

/-- While the rule of a `confirm_rule` exists, a match of its query is on its list or granted. -/
structure ListCovers (w : RuleWorld) (rule : AccessRule) (query : Embedding) (docIds : List Uuid) : Prop where
  dim : query.length = settings.embedDim
  listed : (∃ r ∈ w.db.accessRules, r.id = rule.id) → ∀ d ∈ w.db.documents, Matches settings w.db query d →
    d.id ∈ docIds ∨ w.db.hasRuleGrant d.id rule.groupId rule.id = true

/-- The rows a deletion is about to remove are grants of its rule. -/
structure VictimsOwn (w : RuleWorld) (rule : AccessRule) (victims : List Nat) : Prop where
  own : ∀ a ∈ w.db.documentAcl, a.id ∈ victims → a.source = .rule rule.id
  below : ∀ v ∈ victims, v < w.db.aclSeq

def CallCovers (w : RuleWorld) : RuleCall → Prop
  | .admitting _ rows rules => (∀ c ∈ rows.chunks, c.embedding.length = settings.embedDim) ∧
    ∀ rule ∈ rules, rule.queryEmbedding = some (embed rule.nlQuery) ∧
      (embed rule.nlQuery).length = settings.embedDim
  | .confirmInserting rule query docIds => ListCovers settings w rule query docIds
  | .confirmCommitting rule query granted => ListCovers settings w rule query granted
  | .deleteCommitting rule victims => VictimsOwn w rule victims
  | _ => True

variable {settings} {half} {embed} {w w' : RuleWorld} {others : List RuleCall} {k : RuleCall}

theorem similarityGeSql_of_ge {floor : ℚ} {a b : Embedding} (h : cosineSimilarityGe floor a b = some true) :
    similarityGeSql floor a b = true := by
  unfold cosineSimilarityGe at h
  unfold similarityGeSql
  split at h
  · cases h
  · split
    · rfl
    · rename_i hzero
      simpa [hzero] using h

/-- Up to 2000 dimensions a search compares the vectors as they are. -/
theorem searchLosesNone_of_le (hdim : settings.embedDim ≤ 2000) (m : RuleMove) : SearchLosesNone settings half w k m := by
  cases m with
  | raise exc => trivial
  | advance t =>
    rintro query _ d _ _ ⟨c, hc, hdoc, hclear⟩
    refine ⟨c, hc, hdoc, ?_⟩
    simpa [distanceOperand, Nat.not_lt.mpr hdim] using similarityGeSql_of_ge hclear

theorem Matches.candidate {rule : AccessRule} {query : Embedding} {t : Timestamp} {d : Document}
    (hd : d ∈ w.db.documents) (hdims : ∀ c ∈ w.db.chunks, c.embedding.length = query.length)
    (hsearch : SearchLosesNone settings half w (.confirmSearching rule query) (.advance t))
    (h : Matches settings w.db query d) :
    d.id ∈ ruleCandidates (distanceOperand settings half) settings.ruleSimilarityFloor query w.db := by
  obtain ⟨hready, c, hc, hdoc, hsim⟩ := h
  have hclear := (cosineSimilarityGe_iff settings.ruleSimilarityFloor (hdims c hc)).mpr hsim
  obtain ⟨c', hc', hdoc', hsql⟩ := hsearch query rfl d hd hready ⟨c, hc, hdoc, hclear⟩
  refine List.mem_map_of_mem (List.mem_filter.mpr ⟨hd, decide_eq_true ⟨hready, ?_⟩⟩)
  exact List.any_eq_true.mpr ⟨c', hc', decide_eq_true ⟨hdoc', hsql⟩⟩

theorem VictimsOwn.keep {rule : AccessRule} {victims : List Nat} (h : VictimsOwn w rule victims)
    (hseq : w.db.aclSeq ≤ w'.db.aclSeq)
    (hfresh : ∀ a ∈ w'.db.documentAcl, a ∈ w.db.documentAcl ∨ w.db.aclSeq ≤ a.id) : VictimsOwn w' rule victims := by
  refine ⟨fun a ha hvictim => ?_, fun v hv => (h.below v hv).trans_le hseq⟩
  rcases hfresh a ha with hold | hid
  · exact h.own a hold hvictim
  · exact absurd (h.below a.id hvictim) (Nat.not_lt.mpr hid)

theorem CallCovers.keep (h : CallCovers settings embed w k) (hk : HandlerOk embed w k)
    (hdocs : w'.db.documents = w.db.documents) (hchunks : w'.db.chunks = w.db.chunks)
    (hrows : ∀ r' ∈ w'.db.accessRules, r'.id ∈ w.created → ∃ r ∈ w.db.accessRules, r.id = r'.id)
    (hgrants : ∀ r' ∈ w'.db.accessRules, ∀ d g, w.db.hasRuleGrant d g r'.id = true → w'.db.hasRuleGrant d g r'.id = true)
    (hseq : w.db.aclSeq ≤ w'.db.aclSeq)
    (hfresh : ∀ a ∈ w'.db.documentAcl, a ∈ w.db.documentAcl ∨ w.db.aclSeq ≤ a.id) : CallCovers settings embed w' k := by
  have hlist : ∀ (rule : AccessRule) (query : Embedding) (docIds : List Uuid), CopyOk w rule →
      ListCovers settings w rule query docIds → ListCovers settings w' rule query docIds := by
    intro rule query docIds hcopy hlist
    refine ⟨hlist.dim, ?_⟩
    rintro ⟨r', hr', hid⟩ d hd hm
    obtain ⟨r, hr, hrid⟩ := hrows r' hr' (by rw [hid]; exact hcopy.drawn)
    rw [hdocs] at hd
    have hm' : Matches settings w.db query d := by
      unfold Matches at hm ⊢
      rw [← hchunks]
      exact hm
    rcases hlist.listed ⟨r, hr, hrid.trans hid⟩ d hd hm' with hin | hgrant
    · exact Or.inl hin
    · rw [← hid] at hgrant ⊢
      exact Or.inr (hgrants r' hr' d.id rule.groupId hgrant)
  cases k with
  | admitting doc rows rules => exact h
  | confirmInserting rule query docIds => exact hlist rule query docIds hk.1 h
  | confirmCommitting rule query granted => exact hlist rule query granted hk.1 h
  | deleteCommitting rule victims => exact VictimsOwn.keep h hseq hfresh
  | _ => trivial

section Ingest

variable {doc : Document} {rows : IngestRows} {rules : List AccessRule}

theorem Matches.admitted (hw : CoverOk settings embed w) (hfresh : ∀ d ∈ w.db.documents, d.id ≠ doc.id ∧ d.sha256 ≠ doc.sha256)
    {query : Embedding} {d : Document}
    (hd : d ∈ (admitDocument settings.ruleSimilarityFloor doc rows rules w.db).documents)
    (h : Matches settings (admitDocument settings.ruleSimilarityFloor doc rows rules w.db) query d) :
    (d ∈ w.db.documents ∧ Matches settings w.db query d) ∨
      (d.id = doc.id ∧ ∃ c ∈ rows.chunks, (settings.ruleSimilarityFloor : ℝ) ≤ cosine c.embedding query) := by
  obtain ⟨hready, c, hc, hdoc, hsim⟩ := h
  rw [admitDocument_documents] at hd
  rw [admitDocument_chunks] at hc
  rcases List.mem_append.mp hd with hd | hd
  · rcases List.mem_append.mp hc with hc | hc
    · exact Or.inl ⟨hd, hready, c, hc, hdoc, hsim⟩
    · obtain ⟨c0, _, rfl⟩ := List.mem_map.mp hc
      exact absurd hdoc.symm (hfresh d hd).1
  · obtain rfl := List.mem_singleton.mp hd
    rcases List.mem_append.mp hc with hc | hc
    · obtain ⟨d0, hd0, hid⟩ := hw.owners c hc
      exact absurd (hid.trans hdoc) (hfresh d0 hd0).1
    · obtain ⟨c0, hc0, rfl⟩ := List.mem_map.mp hc
      exact Or.inr ⟨rfl, c0, hc0, hsim⟩

theorem admitDocument_grants {t : Timestamp} (hguard : ReadsSearchedRules settings w others (.admitting doc rows rules) (.advance t))
    (hsnap : HandlerOk embed w (.admitting doc rows rules)) (hk : CallCovers settings embed w (.admitting doc rows rules))
    {r : AccessRule} (hr : r ∈ w.db.accessRules) (hsearched : (r.id, embed r.nlQuery) ∈ searchedRules w.db others)
    (hdim : (embed r.nlQuery).length = settings.embedDim)
    (hmatch : ∃ c ∈ rows.chunks, (settings.ruleSimilarityFloor : ℝ) ≤ cosine c.embedding (embed r.nlQuery)) :
    (admitDocument settings.ruleSimilarityFloor doc rows rules w.db).hasRuleGrant doc.id r.groupId r.id = true := by
  obtain ⟨hchunks, hrules⟩ := hk
  have hclear : anyChunkClears settings.ruleSimilarityFloor (embed r.nlQuery) rows.chunks = some true :=
    (anyChunkClears_iff fun c hc => (hchunks c hc).trans hdim.symm).mpr hmatch
  obtain ⟨rule, hrule, hrid⟩ := List.mem_map.mp (hguard _ rfl _ hsearched hclear)
  have hid : rule.id = r.id := hrid
  obtain ⟨_, hquery, hgroup⟩ := (hsnap rule hrule).row r hr hid.symm
  have hembedding : rule.queryEmbedding = some (embed r.nlQuery) := by
    rw [hquery]
    exact (hrules rule hrule).1
  have hmatched : rule ∈ matchedRules settings.ruleSimilarityFloor rows.chunks rules := by
    refine mem_matchedRules ?_ hrule hembedding hclear
    intro rule' hrule' q hq c hc
    obtain ⟨hq', hlen⟩ := hrules rule' hrule'
    obtain rfl := Option.some.inj (hq'.symm.trans hq)
    exact (hchunks c hc).trans hlen.symm
  rw [hgroup, ← hid]
  exact admitDocument_hasRuleGrant hmatched

theorem mem_searchedRules_of_confirmed (hrules : RulesOk embed w) {r : AccessRule} (hr : r ∈ w.db.accessRules)
    (hstate : r.state = .confirmed) : (r.id, embed r.nlQuery) ∈ searchedRules w.db others := by
  refine List.mem_append_left _ (List.mem_filterMap.mpr ⟨r, hr, ?_⟩)
  rw [if_pos hstate, hrules.confirmed r hr hstate]
  rfl

theorem mem_searchedRules_of_searched {r : AccessRule} (hr : r ∈ w.db.accessRules) {query : Embedding} (h0 : k ∈ others)
    (hk : k.searched = some (r.id, query)) : (r.id, query) ∈ searchedRules w.db others := by
  have hmem : (r.id, query) ∈ others.filterMap RuleCall.searched := List.mem_filterMap.mpr ⟨k, h0, hk⟩
  exact List.mem_append_right _ (List.mem_filter.mpr ⟨hmem, List.any_eq_true.mpr ⟨r, hr, decide_eq_true rfl⟩⟩)

theorem CoverOk.admitDocument {t : Timestamp} (hw : CoverOk settings embed w) (hrules : RulesOk embed w)
    (hfresh : ∀ d ∈ w.db.documents, d.id ≠ doc.id ∧ d.sha256 ≠ doc.sha256)
    (hguard : ReadsSearchedRules settings w others (.admitting doc rows rules) (.advance t))
    (hsnap : HandlerOk embed w (.admitting doc rows rules)) (hk : CallCovers settings embed w (.admitting doc rows rules)) :
    CoverOk settings embed { w with db := admitDocument settings.ruleSimilarityFloor doc rows rules w.db } where
  dims := by
    intro c hc
    rw [admitDocument_chunks] at hc
    rcases List.mem_append.mp hc with hc | hc
    · exact hw.dims c hc
    · obtain ⟨c0, hc0, rfl⟩ := List.mem_map.mp hc
      exact hk.1 c0 hc0
  owners := by
    intro c hc
    rw [admitDocument_chunks] at hc
    rw [admitDocument_documents]
    rcases List.mem_append.mp hc with hc | hc
    · obtain ⟨d, hd, hid⟩ := hw.owners c hc
      exact ⟨d, List.mem_append_left _ hd, hid⟩
    · obtain ⟨c0, hc0, rfl⟩ := List.mem_map.mp hc
      exact ⟨_, List.mem_append_right _ (List.mem_singleton_self _), rfl⟩
  queries := by
    rw [admitDocument_accessRules]
    exact hw.queries
  acl := (AclGrown.admitDocument ..).ok hw.acl
  covered := by
    intro r hr hstate d hd hm
    rw [admitDocument_accessRules] at hr
    rcases hm.admitted hw hfresh hd with ⟨hd, hm⟩ | ⟨hid, hmatch⟩
    · exact (AclGrown.admitDocument ..).hasRuleGrant (hw.covered r hr hstate d hd hm)
    · rw [hid]
      exact admitDocument_grants hguard hsnap hk hr (mem_searchedRules_of_confirmed hrules hr hstate)
        (hw.queries r hr hstate) hmatch

theorem CallCovers.admitDocument {t : Timestamp} (hw : CoverOk settings embed w)
    (hfresh : ∀ d ∈ w.db.documents, d.id ≠ doc.id ∧ d.sha256 ≠ doc.sha256)
    (hguard : ReadsSearchedRules settings w others (.admitting doc rows rules) (.advance t))
    (hsnap : HandlerOk embed w (.admitting doc rows rules)) (hk : CallCovers settings embed w (.admitting doc rows rules))
    {k0 : RuleCall} (h0 : k0 ∈ others) (hcopy : HandlerOk embed w k0) (h : CallCovers settings embed w k0) :
    CallCovers settings embed { w with db := admitDocument settings.ruleSimilarityFloor doc rows rules w.db } k0 := by
  have hgrown : AclGrown w.db (ProRag.admitDocument settings.ruleSimilarityFloor doc rows rules w.db) := .admitDocument ..
  have hlist : ∀ (rule : AccessRule) (query : Embedding) (docIds : List Uuid),
      k0.searched = some (rule.id, query) → CopyOk w rule → query = embed rule.nlQuery →
      ListCovers settings w rule query docIds →
      ListCovers settings { w with db := ProRag.admitDocument settings.ruleSimilarityFloor doc rows rules w.db }
        rule query docIds := by
    intro rule query docIds hsearched hcopy hquery hlist
    refine ⟨hlist.dim, ?_⟩
    rintro ⟨r, hr, hid⟩ d hd hm
    rw [admitDocument_accessRules] at hr
    rcases hm.admitted hw hfresh hd with ⟨hd, hm⟩ | ⟨hdoc, hmatch⟩
    · rcases hlist.listed ⟨r, hr, hid⟩ d hd hm with hin | hgrant
      · exact Or.inl hin
      · exact Or.inr (hgrown.hasRuleGrant hgrant)
    · obtain ⟨hnl, hgroup⟩ := hcopy.row r hr hid
      have hq : query = embed r.nlQuery := by rw [hquery, hnl]
      subst hq
      rw [← hid] at hsearched
      rw [hdoc, ← hid, ← hgroup]
      exact Or.inr (admitDocument_grants hguard hsnap hk hr (mem_searchedRules_of_searched hr h0 hsearched)
        hlist.dim hmatch)
  cases k0 with
  | admitting doc' rows' rules' => exact h
  | confirmInserting rule query docIds => exact hlist rule query docIds rfl hcopy.1 hcopy.2 h
  | confirmCommitting rule query granted => exact hlist rule query granted rfl hcopy.1 hcopy.2 h
  | deleteCommitting rule victims => exact VictimsOwn.keep h hgrown.seq hgrown.fresh
  | _ => trivial

end Ingest

theorem CoverOk.confirm (hw : CoverOk settings embed w) {rule : AccessRule} {granted : List Uuid} {now : Timestamp}
    (hcopy : CopyOk w rule) (hlist : ListCovers settings w rule (embed rule.nlQuery) granted) :
    CoverOk settings embed { w with
      db := grantAll rule granted (w.db.updateRule rule.id (confirmColumns (embed rule.nlQuery) now)) } := by
  have hgrown : AclGrown w.db (grantAll rule granted (w.db.updateRule rule.id (confirmColumns (embed rule.nlQuery) now))) :=
    .confirm ..
  have hrows : ∀ r' ∈ (w.db.updateRule rule.id (confirmColumns (embed rule.nlQuery) now)).accessRules,
      ∃ r ∈ w.db.accessRules, r.id = r'.id ∧ r.nlQuery = r'.nlQuery ∧ r.groupId = r'.groupId ∧
        (r.id = rule.id ∨ r.state = r'.state) := by
    intro r' hr'
    obtain ⟨r, hr, rfl⟩ := mem_updateWhere.mp hr'
    refine ⟨r, hr, ?_⟩
    by_cases hid : r.id = rule.id
    · rw [if_pos (decide_eq_true hid)]
      exact ⟨rfl, rfl, rfl, Or.inl hid⟩
    · rw [if_neg (by simpa using hid)]
      exact ⟨rfl, rfl, rfl, Or.inr rfl⟩
  refine ⟨?_, ?_, ?_, hgrown.ok hw.acl, ?_⟩
  · rw [grantAll_chunks]
    exact hw.dims
  · rw [grantAll_chunks, grantAll_documents]
    exact hw.owners
  · intro r' hr' hstate
    rw [grantAll_accessRules] at hr'
    obtain ⟨r, hr, _, hnl, _, hid | hs⟩ := hrows r' hr'
    · rw [← hnl, (hcopy.row r hr hid).1]
      exact hlist.dim
    · rw [← hnl]
      exact hw.queries r hr (hs.trans hstate)
  · intro r' hr' hstate d hd hm
    rw [grantAll_accessRules] at hr'
    rw [grantAll_documents] at hd
    have hm' : Matches settings w.db (embed r'.nlQuery) d := by
      unfold Matches at hm ⊢
      rw [grantAll_chunks] at hm
      exact hm
    obtain ⟨r, hr, hrid, hnl, hgroup, hid | hs⟩ := hrows r' hr'
    · obtain ⟨hquery, hg⟩ := hcopy.row r hr hid
      rw [← hnl, hquery] at hm'
      rw [← hrid, ← hgroup, hid, hg]
      rcases hlist.listed ⟨r, hr, hid⟩ d hd hm' with hin | hgrant
      · exact grantAll_hasRuleGrant hin
      · exact hgrown.hasRuleGrant hgrant
    · rw [← hnl] at hm'
      rw [← hrid, ← hgroup]
      exact hgrown.hasRuleGrant (hw.covered r hr (hs.trans hstate) d hd hm')

theorem deleteRule_keeps_grants {rule : AccessRule} {victims : List Nat} (h : VictimsOwn w rule victims)
    {r : AccessRule} (hr : r ∈ (w.db.deleteRule rule.id victims).accessRules) {d g : Uuid}
    (hgrant : w.db.hasRuleGrant d g r.id = true) : (w.db.deleteRule rule.id victims).hasRuleGrant d g r.id = true := by
  obtain ⟨a, ha, hdoc, htype, hgroup, hsource⟩ := hasRuleGrant_iff.mp hgrant
  have hstays : a.id ∉ victims := by
    intro hvictim
    have hid : r.id = rule.id := AclSource.rule.inj (hsource.symm.trans (h.own a ha hvictim))
    simpa [hid] using (mem_deleteWhere.mp hr).2
  have hkept : a ∈ (w.db.deleteRule rule.id victims).documentAcl := mem_deleteWhere.mpr ⟨ha, decide_eq_false hstays⟩
  exact hasRuleGrant_iff.mpr ⟨a, hkept, hdoc, htype, hgroup, hsource⟩

theorem CoverOk.delete (hw : CoverOk settings embed w) {rule : AccessRule} {victims : List Nat} {revoked : List Uuid}
    (h : VictimsOwn w rule victims) :
    CoverOk settings embed ⟨w.db.deleteRule rule.id victims, w.created, revoked⟩ where
  dims := hw.dims
  owners := hw.owners
  queries := fun r hr => hw.queries r (mem_deleteWhere.mp hr).1
  acl := ⟨hw.acl.unique.deleteWhere _, fun a ha => hw.acl.below a (mem_deleteWhere.mp ha).1⟩
  covered := fun r hr hstate d hd hm =>
    deleteRule_keeps_grants h hr (hw.covered r (mem_deleteWhere.mp hr).1 hstate d hd hm)

theorem CoverOk.keep (hw : CoverOk settings embed w) {rules : List AccessRule} {created : List Uuid}
    (hrows : ∀ r' ∈ rules, r'.state = .confirmed → ∃ r ∈ w.db.accessRules, r.state = .confirmed ∧ r.id = r'.id ∧
      r.nlQuery = r'.nlQuery ∧ r.groupId = r'.groupId) :
    CoverOk settings embed ⟨{ w.db with accessRules := rules }, created, w.revoked⟩ where
  dims := hw.dims
  owners := hw.owners
  queries := by
    intro r' hr' hstate
    obtain ⟨r, hr, hs, _, hnl, _⟩ := hrows r' hr' hstate
    rw [← hnl]
    exact hw.queries r hr hs
  acl := ⟨hw.acl.unique, hw.acl.below⟩
  covered := by
    intro r' hr' hstate d hd hm
    obtain ⟨r, hr, hs, hid, hnl, hgroup⟩ := hrows r' hr' hstate
    rw [← hid, ← hgroup]
    rw [← hnl] at hm
    exact hw.covered r hr hs d hd hm

theorem ruleAct_covers {m : RuleMove} {k' : RuleCall} (hrules : RulesOk embed w) (hw : CoverOk settings embed w)
    (hcopies : ∀ k0 ∈ others, HandlerOk embed w k0) (hothers : ∀ k0 ∈ others, CallCovers settings embed w k0)
    (hcopy : HandlerOk embed w k) (hk : CallCovers settings embed w k) (hguard : CoveringMove settings half w others k m)
    (hs : ruleAct settings half embed w others k m = some (w', k')) :
    CoverOk settings embed w' ∧ CallCovers settings embed w' k' ∧ ∀ k0 ∈ others, CallCovers settings embed w' k0 := by
  cases ruleAct_transition settings half embed hs with
  | ends | patchLoads | patchChecks | confirmLoads | embeds | deleteLoads => exact ⟨hw, trivial, hothers⟩
  | readsRules t hdims =>
    refine ⟨hw, ⟨hdims, fun rule hrule => ?_⟩, hothers⟩
    obtain ⟨hmem, hcols⟩ := List.mem_filter.mp hrule
    obtain ⟨hstate, _⟩ := of_decide_eq_true hcols
    exact ⟨hrules.confirmed rule hmem hstate, hw.queries rule hmem hstate⟩
  | searches t hdim =>
    have hdims : ∀ c ∈ w.db.chunks, c.embedding.length = _ := fun c hc => (hw.dims c hc).trans hdim.symm
    exact ⟨hw, ⟨hdim, fun _ d hd hm => Or.inl (hm.candidate hd hdims hguard.2.2)⟩, hothers⟩
  | @inserts rule query docIds t =>
    refine ⟨hw, ⟨hk.dim, fun hrow d hd hm => ?_⟩, hothers⟩
    rcases hk.listed hrow d hd hm with hin | hgrant
    · cases hgrant : w.db.hasRuleGrant d.id rule.groupId rule.id with
      | true => exact Or.inr rfl
      | false => exact Or.inl (List.mem_filter.mpr ⟨hin, by rw [hgrant]; rfl⟩)
    · exact Or.inr hgrant
  | @revokes rule t =>
    refine ⟨hw, ⟨fun a ha hvictim => ?_, fun v hv => ?_⟩, hothers⟩
    · obtain ⟨b, hb, hid⟩ := List.mem_map.mp hvictim
      obtain ⟨hb, hsource⟩ := List.mem_filter.mp hb
      obtain rfl := hw.acl.unique.eq_of_key hb ha hid
      exact of_decide_eq_true hsource
    · obtain ⟨b, hb, rfl⟩ := List.mem_map.mp hv
      exact hw.acl.below b (List.mem_filter.mp hb).1
  | admits t hfresh =>
    exact ⟨hw.admitDocument hrules hfresh hguard.2.1 hcopy hk, trivial, fun k0 h0 =>
      .admitDocument hw hfresh hguard.2.1 hcopy hk h0 (hcopies k0 h0) (hothers k0 h0)⟩
  | @creates id name nlQuery groupId t hid =>
    have hrows : ∀ r' ∈ w.db.accessRules ++ [⟨id, name, nlQuery, groupId, .draft, none, none⟩],
        r' ∈ w.db.accessRules ∨ r' = ⟨id, name, nlQuery, groupId, .draft, none, none⟩ := by
      simp
    refine ⟨hw.keep fun r' hr' hstate => ?_, trivial, fun k0 h0 => (hothers k0 h0).keep (hcopies k0 h0) rfl rfl
      (fun r' hr' hdrawn => ?_) (fun _ _ _ _ hg => hg) le_rfl fun a ha => Or.inl ha⟩
    · rcases hrows r' hr' with hr | rfl
      · exact ⟨r', hr, hstate, rfl, rfl, rfl⟩
      · cases hstate
    · rcases hrows r' hr' with hr | rfl
      · exact ⟨r', hr, rfl⟩
      · exact absurd hdrawn hid
  | @patches rule body t hnull =>
    refine ⟨hw.keep fun r' hr' hstate => ?_, trivial, fun k0 h0 => (hothers k0 h0).keep (hcopies k0 h0) rfl rfl
      (fun r' hr' _ => ?_) (fun _ _ _ _ hg => hg) le_rfl fun a ha => Or.inl ha⟩
    · obtain ⟨r, hr, hid, hs, _, hcols⟩ := patched_row hnull hguard.1 hr'
      have hconfirmed : r.state = .confirmed := hs.trans hstate
      rcases hcols with ⟨hnl, hgroup⟩ | ⟨hdraft, _⟩
      · exact ⟨r, hr, hconfirmed, hid, hnl, hgroup⟩
      · rw [hconfirmed] at hdraft
        cases hdraft
    · obtain ⟨r, hr, hid, _⟩ := patched_row hnull hguard.1 hr'
      exact ⟨r, hr, hid⟩
  | @confirms rule query granted now hrow =>
    obtain ⟨hcopy, rfl⟩ := hcopy
    have hgrown : AclGrown w.db
        (grantAll rule granted (w.db.updateRule rule.id (confirmColumns (embed rule.nlQuery) now))) :=
      .confirm ..
    refine ⟨hw.confirm hcopy hk, trivial, fun k0 h0 => (hothers k0 h0).keep (hcopies k0 h0)
      (grantAll_documents ..) (grantAll_chunks ..) (fun r' hr' _ => ?_) (fun _ _ _ _ hg => hgrown.hasRuleGrant hg)
      hgrown.seq hgrown.fresh⟩
    rw [grantAll_accessRules] at hr'
    obtain ⟨r, hr, rfl⟩ := mem_updateWhere.mp hr'
    refine ⟨r, hr, ?_⟩
    split
    · rfl
    · rfl
  | @deletes rule victims t =>
    exact ⟨hw.delete hk, trivial, fun k0 h0 => (hothers k0 h0).keep (hcopies k0 h0) rfl rfl
      (fun r' hr' _ => ⟨r', (mem_deleteWhere.mp hr').1, rfl⟩) (fun r' hr' _ _ hg => deleteRule_keeps_grants hk hr' hg)
      le_rfl fun a ha => Or.inl (mem_deleteWhere.mp ha).1⟩

theorem RulesOk.embeddings (h : RulesOk embed w) {r : AccessRule} (hr : r ∈ w.db.accessRules)
    (hstate : r.state = .confirmed) {query : Embedding} (hq : r.queryEmbedding = some query) : query = embed r.nlQuery :=
  Option.some.inj (hq.symm.trans (h.confirmed r hr hstate))

/-- In a run whose ingests have read the searched rules they match, and whose searches lose no match, confirmed rules
cover their matches. -/
theorem rules_cover_matches {s : RulePool}
    (hs : Reaches (ruleStep settings half embed) (poolGuard (CoveringMove settings half)) (RulesStart settings) s) :
    RulesCover settings s.shared.db := by
  have hinv : PoolInv (fun w => RulesOk embed w ∧ CoverOk settings embed w)
      (fun w k => HandlerOk embed w k ∧ CallCovers settings embed w k) s := by
    refine Reaches.poolInv ?_ ?_ ?_ hs
    · intro s h
      refine ⟨⟨.start h, ?_⟩, fun k hk => ?_⟩
      · refine ⟨fun c hc => (h.chunks c hc).1, fun c hc => (h.chunks c hc).2, ?_, h.acl, ?_⟩
        · intro r hr
          rw [h.rules] at hr
          cases hr
        · intro r hr
          rw [h.rules] at hr
          cases hr
      · rw [h.procs] at hk
        cases hk
    · intro w i _
      cases i with
      | _ => exact ⟨trivial, trivial⟩
    · intro w others k m w' k' hw hothers hk hguard hact
      have hcopies : ∀ k0 ∈ others, HandlerOk embed w k0 := fun k0 h0 => (hothers k0 h0).1
      obtain ⟨hrules, hcopy, hcopies'⟩ := ruleAct_consistent hw.1 hcopies hk.1 hguard.1 hact
      obtain ⟨hcover, hlist, hlists⟩ := ruleAct_covers hw.1 hw.2 hcopies (fun k0 h0 => (hothers k0 h0).2)
        hk.1 hk.2 hguard hact
      exact ⟨⟨hrules, hcover⟩, ⟨hcopy, hlist⟩, fun k0 h0 => ⟨hcopies' k0 h0, hlists k0 h0⟩⟩
  obtain ⟨hrules, hcover⟩ := hinv.shared
  intro r hr hstate query hq d hd hm
  obtain rfl := hrules.embeddings hr hstate hq
  exact hcover.covered r hr hstate d hd hm

def memoDocument : Document :=
  newDocument "77aa" "memo.txt" "default" ⟨4, "text/plain", [], [], []⟩

/-- One document before the confirmation and one after it. -/
def confirmedBetween : List (PoolOp RuleRequest RuleMove) :=
  [.spawn (.create 7 "finance" "quarterly reports" 1), .move 0 (.advance 0),
    .spawn (.ingest reportDocument reportRows), .move 1 (.advance 1), .move 1 (.advance 1),
    .spawn (.confirm 7), .move 2 (.advance 2), .move 2 (.advance 2), .move 2 (.advance 2), .move 2 (.advance 2),
    .move 2 (.advance 2),
    .spawn (.ingest memoDocument reportRows), .move 3 (.advance 3), .move 3 (.advance 3)]

theorem rules_cover_matches_between :
    ∃ s, runSteps (ruleStep planeSettings id topicEmbed) twoGroups confirmedBetween = some s ∧
      s.shared.db.hasRuleGrant 3 1 7 ∧ s.shared.db.hasRuleGrant 4 1 7 ∧ RulesCover planeSettings s.shared.db := by
  have hguard : Guarded (ruleStep planeSettings id topicEmbed) (poolGuard (CoveringMove planeSettings id)) twoGroups
      confirmedBetween := by decide +kernel
  have hrun : (runSteps (ruleStep planeSettings id topicEmbed) twoGroups confirmedBetween).any
      (fun s => s.shared.db.hasRuleGrant 3 1 7 ∧ s.shared.db.hasRuleGrant 4 1 7) = true := by decide +kernel
  obtain ⟨s, hs, hgrants⟩ := (Option.any_eq_true _ _).mp hrun
  obtain ⟨hreport, hmemo⟩ := of_decide_eq_true hgrants
  have hstart : Reaches (ruleStep planeSettings id topicEmbed) (poolGuard (CoveringMove planeSettings id))
      (RulesStart planeSettings) twoGroups := .start twoGroups_start
  exact ⟨s, hs, hreport, hmemo, rules_cover_matches (hstart.runSteps hguard hs)⟩

/-- A confirmation runs while an ingest is between its look at the rules and its commit. -/
def confirmedUnderIngest : List (PoolOp RuleRequest RuleMove) :=
  [.spawn (.create 7 "finance" "quarterly reports" 1), .move 0 (.advance 0),
    .spawn (.ingest reportDocument reportRows), .move 1 (.advance 1),
    .spawn (.confirm 7), .move 2 (.advance 2), .move 2 (.advance 2), .move 2 (.advance 2), .move 2 (.advance 2),
    .move 2 (.advance 2),
    .move 1 (.advance 3)]

def RuleCall.succeeded : RuleCall → Bool
  | .finished (.ok _) => true
  | _ => false

theorem confirm_misses_ingest :
    RulesStart planeSettings twoGroups ∧
    ∃ s, runSteps (ruleStep planeSettings id topicEmbed) twoGroups confirmedUnderIngest = some s ∧
      (∀ k ∈ s.procs, k.succeeded = true) ∧ ¬ RulesCover planeSettings s.shared.db := by
  have hrun : (runSteps (ruleStep planeSettings id topicEmbed) twoGroups confirmedUnderIngest).any (fun s =>
      (∀ k ∈ s.procs, k.succeeded = true) ∧
      ∃ r ∈ s.shared.db.accessRules, r.state = .confirmed ∧ r.queryEmbedding = some [1, 0] ∧
        ∃ d ∈ s.shared.db.documents, d.status = .ready ∧ s.shared.db.hasRuleGrant d.id r.groupId r.id = false ∧
          ∃ c ∈ s.shared.db.chunks, c.docId = d.id ∧ c.embedding = [1, 0]) = true := by decide +kernel
  obtain ⟨s, hs, hmiss⟩ := (Option.any_eq_true _ _).mp hrun
  obtain ⟨hdone, r, hr, hstate, hquery, d, hd, hready, hgrant, c, hc, hdoc, hembedding⟩ := of_decide_eq_true hmiss
  have hsim : (planeSettings.ruleSimilarityFloor : ℝ) ≤ cosine c.embedding [1, 0] := by
    rw [hembedding]
    exact (cosineSimilarityGe_iff planeSettings.ruleSimilarityFloor rfl).mp (by decide +kernel)
  refine ⟨twoGroups_start, s, hs, hdone, fun hcover => ?_⟩
  have hgranted := hcover r hr hstate [1, 0] hquery d hd ⟨hready, c, hc, hdoc, hsim⟩
  rw [hgrant] at hgranted
  cases hgranted

end ProRag
