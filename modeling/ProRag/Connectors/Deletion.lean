import ProRag.Connectors.Settled

/-!
# What the deletion loop of a sweep does

The loop deletes the documents its keys linked when it began, marks the items of those keys
deleted, and through the foreign key takes the link of every other item of such a document.
-/

namespace ProRag

open Framework

/-- An item after the deletion loop over `keys`, where `link` is what the keys linked before it. -/
def sweptItem (c : Uuid) (link : String → Option Uuid) (keys : List String) (i : ConnectorItem) :
    ConnectorItem :=
  { i with
    status := if i.connectorId = c ∧ i.externalId ∈ keys then .deleted else i.status
    docId := i.docId.filter fun d => ¬ (i.connectorId = c ∧ i.externalId ∈ keys) ∧ ∀ k ∈ keys, link k ≠ some d }

variable {c : Uuid} {link : String → Option Uuid}

theorem sweptItem_docId (keys : List String) (i : ConnectorItem) (d : Uuid) :
    (sweptItem c link keys i).docId = some d ↔ i.docId = some d ∧
      ¬ (i.connectorId = c ∧ i.externalId ∈ keys) ∧ ∀ k ∈ keys, link k ≠ some d := by
  simp only [sweptItem, Option.filter_eq_some_iff, decide_eq_true_eq]

/-- Two rows of one object that differ in status and link at most. -/
def SameObject (i j : ConnectorItem) : Prop :=
  j = { i with status := j.status, docId := j.docId }

theorem SameObject.trans {i j l : ConnectorItem} (hij : SameObject i j) (hjl : SameObject j l) :
    SameObject i l := by
  unfold SameObject at *
  rw [hjl, hij]

theorem unlink_same (d : Uuid) (i : ConnectorItem) : SameObject i (i.unlink d) ∧ (i.unlink d).status = i.status := by
  unfold SameObject ConnectorItem.unlink
  split <;> exact ⟨rfl, rfl⟩

theorem eq_sweptItem {keys : List String} {i j : ConnectorItem}
    (hrest : SameObject i j)
    (hstatus : j.status = if i.connectorId = c ∧ i.externalId ∈ keys then .deleted else i.status)
    (hdoc : ∀ d, j.docId = some d ↔ i.docId = some d ∧
      ¬ (i.connectorId = c ∧ i.externalId ∈ keys) ∧ ∀ k ∈ keys, link k ≠ some d) :
    j = sweptItem c link keys i := by
  have hdocId : j.docId = (sweptItem c link keys i).docId := by
    apply Option.ext
    intro d
    rw [hdoc d, sweptItem_docId]
  rw [hrest, hstatus, hdocId]
  rfl

theorem sweptItem_nil (i : ConnectorItem) : sweptItem c link [] i = i := by
  symm
  apply eq_sweptItem
  · exact rfl
  · simp
  · simp

theorem sweptItem_cons (k : String) (keys : List String) (i : ConnectorItem) :
    sweptItem c link keys (sweptItem c link [k] i) = sweptItem c link (k :: keys) i := by
  apply eq_sweptItem
  · exact rfl
  · by_cases hk : i.connectorId = c ∧ i.externalId = k
    · simp [sweptItem, hk]
    · by_cases hks : i.connectorId = c ∧ i.externalId ∈ keys
      · simp [sweptItem, hks]
      · have hcons : ¬ (i.connectorId = c ∧ (i.externalId = k ∨ i.externalId ∈ keys)) := by tauto
        simp [sweptItem, hk, hks, hcons]
  · intro d
    have hcols : (sweptItem c link [k] i).connectorId = i.connectorId ∧
        (sweptItem c link [k] i).externalId = i.externalId := ⟨rfl, rfl⟩
    rw [sweptItem_docId, sweptItem_docId, hcols.1, hcols.2]
    simp only [List.mem_cons, List.not_mem_nil, or_false, forall_eq, forall_eq_or_imp]
    tauto

theorem sweepKey_documents (db : Db) (k : String) :
    (sweepKey c link db k).documents = deleteWhere (fun r => link k = some r.id) db.documents := by
  unfold sweepKey
  cases hl : link k with
  | none => simp [deleteWhere]
  | some d =>
    cases hd : db.document? d with
    | none =>
      have hne := selectOne_eq_none.mp hd
      simp only [Option.bind_some, hd, Option.some.injEq]
      refine (List.filter_eq_self.mpr ?_).symm
      intro r hr
      have := hne r hr
      simp only [Bool.not_eq_eq_eq_not, Bool.not_true, decide_eq_false_iff_not]
      exact fun h => this h.symm
    | some doc =>
      obtain ⟨_, hid⟩ := selectOne_mem hd
      simp [hd, hid, eq_comm]

theorem mark_eq_sweptItem {k : String} {i j : ConnectorItem} (hsame : SameObject i j)
    (hstatus : j.status = i.status)
    (hdoc : ∀ d, j.docId = some d ↔ i.docId = some d ∧ link k ≠ some d) :
    (if decide (j.key = (c, k)) = true then { j with status := .deleted, docId := none } else j) =
      sweptItem c link [k] i := by
  have hkey : j.key = (c, k) ↔ i.connectorId = c ∧ i.externalId = k := by
    rw [hsame]
    simp [ConnectorItem.key]
  by_cases hk : i.connectorId = c ∧ i.externalId = k
  · rw [if_pos (by simpa using hkey.mpr hk)]
    apply eq_sweptItem
    · exact hsame.trans rfl
    · simp [hk]
    · simp [hk]
  · rw [if_neg (by simpa using fun he => hk (hkey.mp he))]
    apply eq_sweptItem hsame
    · simp [hk, hstatus]
    · intro d
      rw [hdoc d]
      simp [hk]

theorem sweepKey_items {db : Db} (h : db.CorpusOk) (k : String) :
    (sweepKey c link db k).connectorItems = db.connectorItems.map (sweptItem c link [k]) := by
  unfold sweepKey
  cases hb : (link k).bind db.document? with
  | none =>
    simp only [updateWhere]
    apply List.map_congr_left
    intro i hi
    have hdoc : ∀ d, i.docId = some d ↔ i.docId = some d ∧ link k ≠ some d := by
      intro d
      constructor
      · intro hd
        refine ⟨hd, fun hl => ?_⟩
        obtain ⟨doc, hdoc, hid⟩ := h.itemDoc i hi d hd
        have hnone : db.document? d = none := by simpa [hl] using hb
        exact selectOne_eq_none.mp hnone doc hdoc hid
      · exact And.left
    have hsame : SameObject i i := rfl
    exact mark_eq_sweptItem hsame rfl hdoc
  | some doc =>
    obtain ⟨d, hl, hd⟩ := Option.bind_eq_some_iff.mp hb
    obtain ⟨_, rfl⟩ := selectOne_mem hd
    simp only [updateWhere, Db.deleteDocument_connectorItems, List.map_map]
    apply List.map_congr_left
    intro i _
    obtain ⟨hsame, hstatus⟩ := unlink_same doc.id i
    apply mark_eq_sweptItem hsame hstatus
    intro e
    rw [ConnectorItem.unlink_docId, hl, ne_comm]
    simp [eq_comm]

variable (c link) in
theorem sweepKey_ok {db : Db} (h : db.CorpusOk) (k : String) : (sweepKey c link db k).CorpusOk := by
  have hdel : ∀ doc : Document, (db.deleteDocument doc.id).CorpusOk := fun doc => h.deleteDocument _
  have hmark : ∀ db1 : Db, db1.CorpusOk → ({ db1 with
      connectorItems := updateWhere (fun i => i.key = (c, k))
        (fun i => { i with status := .deleted, docId := none }) db1.connectorItems } : Db).CorpusOk := by
    intro db1 h1
    refine ⟨h1.docId, h1.docSha, h1.itemKey.updateWhere fun i _ => rfl, ?_⟩
    intro i hi d hd
    obtain ⟨j, hj, rfl⟩ := mem_updateWhere.mp hi
    split at hd
    · cases hd
    · exact h1.itemDoc j hj d hd
  unfold sweepKey
  split
  · exact hmark _ (hdel _)
  · exact hmark _ h

variable (c link) in
theorem sweepKeys_spec {db : Db} (h : db.CorpusOk) (keys : List String) :
    (keys.foldl (sweepKey c link) db).CorpusOk ∧
      (keys.foldl (sweepKey c link) db).connectorItems = db.connectorItems.map (sweptItem c link keys) ∧
      ∀ doc, doc ∈ (keys.foldl (sweepKey c link) db).documents ↔
        doc ∈ db.documents ∧ ∀ k ∈ keys, link k ≠ some doc.id := by
  induction keys generalizing db with
  | nil =>
    refine ⟨h, ?_, ?_⟩
    · have : (sweptItem c link [] : ConnectorItem → ConnectorItem) = id := funext fun i => sweptItem_nil i
      simp [this]
    · simp
  | cons k keys ih =>
    obtain ⟨hok, hitems, hdocs⟩ := ih (sweepKey_ok c link h k)
    refine ⟨hok, ?_, ?_⟩
    · rw [List.foldl_cons, hitems, sweepKey_items h, List.map_map]
      apply List.map_congr_left
      intro i _
      exact sweptItem_cons k keys i
    · intro doc
      rw [List.foldl_cons, hdocs, sweepKey_documents, mem_deleteWhere]
      simp [and_assoc]

theorem mem_deletedKeys {env : SyncEnv} {remote : List RemoteObject} {db : Db} {k : String} :
    k ∈ deletedKeys env c remote db ↔
      ∃ i ∈ db.connectorItems, i.key = (c, k) ∧ k ∉ remote.map RemoteObject.key ∧ i.status ≠ .deleted := by
  unfold deletedKeys findDeleted Db.knownStatus
  rw [(env.setOrder_perm _).mem_iff]
  simp only [List.mem_map, List.mem_filter, decide_eq_true_eq]
  constructor
  · rintro ⟨p, ⟨⟨i, ⟨hi, hc⟩, rfl⟩, hnot, hst⟩, rfl⟩
    exact ⟨i, hi, by simp [ConnectorItem.key, hc], hnot, hst⟩
  · rintro ⟨i, hi, hk, hnot, hst⟩
    obtain ⟨hc, rfl⟩ := Prod.mk.inj hk
    exact ⟨(i.externalId, i.status), ⟨⟨i, ⟨hi, hc⟩, rfl⟩, hnot, hst⟩, rfl⟩

theorem docIdByKey_eq {db : Db} (h : db.CorpusOk) {i : ConnectorItem} (hi : i ∈ db.connectorItems) {k : String}
    (hk : i.key = (c, k)) : db.docIdByKey c k = i.docId := by
  have hsel : selectOne ConnectorItem.key (c, k) db.connectorItems = some i :=
    (selectOne_eq_some h.itemKey).mpr ⟨hi, hk⟩
  simp [Db.docIdByKey, hsel]

end ProRag
