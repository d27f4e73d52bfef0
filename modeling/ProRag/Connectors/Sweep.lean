import ProRag.Connectors.Corpus

/-!
# Full sweeps and live documents

A document is live after the listing phase of a sweep when a listed key of the connector links
it, a non-deleted item of another connector does, or an upload was answered with it.
-/

namespace ProRag

open Framework

/-- Items that stand for an existing source while connector `c` is swept. -/
def LiveItem (c : Uuid) (remote : List RemoteObject) (i : ConnectorItem) : Prop :=
  (i.connectorId = c ∧ i.externalId ∈ remote.map RemoteObject.key) ∨ (i.connectorId ≠ c ∧ i.status ≠ .deleted)

/-- `d` is a document with a live source. -/
def LiveDocument (c : Uuid) (remote : List RemoteObject) (uploads : List Uuid) (db : Db) (d : Uuid) : Prop :=
  (∃ doc ∈ db.documents, doc.id = d) ∧
    ((∃ i ∈ db.connectorItems, LiveItem c remote i ∧ i.docId = some d) ∨ d ∈ uploads)

/-- The sweep deletes no document that is live after its listing phase, and the live items keep
their link. -/
def KeepsLiveDocuments (sha256Hex : Bytes → String) (env : SyncEnv) (row : Connector) (bucket : BucketListing)
    (s : Corpus) : Prop :=
  let listed := (processObjects sha256Hex env row.id row.collection bucket.objects s.db).2
  let swept := (fullSweep sha256Hex env row bucket s.db).2
  ∀ d, LiveDocument row.id bucket.objects s.uploads listed d →
    (∃ doc ∈ swept.documents, doc.id = d) ∧
    ∀ i ∈ listed.connectorItems, LiveItem row.id bucket.objects i → i.docId = some d →
      ∃ j ∈ swept.connectorItems, j.key = i.key ∧ j.docId = some d

/-- The sources of `doc` other than the missing keys, read off the state before the sweep. -/
structure OtherSource (sha256Hex : Bytes → String) (env : SyncEnv) (c : Uuid) (remote : List RemoteObject)
    (s : Corpus) (doc : Document) : Prop where
  source : doc.id ∈ s.uploads ∨
    (∃ j ∈ s.db.connectorItems, j.connectorId ≠ c ∧ j.status ≠ .deleted ∧ j.docId = some doc.id) ∨
    (∃ obj, PassedOver c s.db remote obj ∧ ∃ j ∈ s.db.connectorItems, j.key = (c, obj.key) ∧
      j.docId = some doc.id) ∨
    (∃ obj, Attempted c s.db remote obj ∧ eligible env.settings obj = true ∧
      ∃ data, env.fetch obj = .ok data ∧ sha256Hex data = doc.sha256)

/-- The run raises before it deletes, or no missing key's item links a document with another source. -/
def SweepSafe (sha256Hex : Bytes → String) (env : SyncEnv) (c : Uuid) (remote : List RemoteObject)
    (s : Corpus) : Prop :=
  ¬ ItemWritesSucceed sha256Hex env c remote s.db ∨
    ∀ i ∈ s.db.connectorItems, i.connectorId = c → i.externalId ∉ remote.map RemoteObject.key →
      i.status ≠ .deleted → ∀ doc ∈ s.db.documents, i.docId = some doc.id →
        ¬ OtherSource sha256Hex env c remote s doc

section Listed

variable {sha256Hex : Bytes → String} {env : SyncEnv} {c : Uuid} {remote : List RemoteObject} {report : SyncReport}
  {db db1 : Db}

/-- After the listing phase a listed key links `doc` when it did before and was passed over, or when
its bytes are those of `doc`. -/
theorem ListingSettled.links_iff (hl : ListingSettled sha256Hex env c remote report db db1) (h : db.CorpusOk)
    {doc : Document} (hdoc : doc ∈ db.documents) :
    (∃ i ∈ db1.connectorItems, itemsAt c remote i ∧ i.docId = some doc.id) ↔
      (∃ obj, PassedOver c db remote obj ∧ ∃ j ∈ db.connectorItems, j.key = (c, obj.key) ∧
        j.docId = some doc.id) ∨
      (∃ obj, Attempted c db remote obj ∧ eligible env.settings obj = true ∧
        ∃ data, env.fetch obj = .ok data ∧ sha256Hex data = doc.sha256) := by
  have hok := hl.frame.ok
  have hdoc1 := hl.frame.documents doc hdoc
  constructor
  · rintro ⟨i, hi, ⟨hc, hkey⟩, hd⟩
    obtain ⟨obj, hobj, hok'⟩ := List.mem_map.mp hkey
    have hik : i.key = (c, obj.key) := Prod.ext hc hok'.symm
    by_cases hcls : classify (db.knownIdentity c) obj = .unchanged
    · obtain ⟨j, hj, hjk, _, _, hj1⟩ := hl.passedOver obj ⟨hobj, hcls⟩
      have hij := hok.itemKey.eq_of_key hi hj1 (hik.trans hjk.symm)
      exact Or.inl ⟨obj, ⟨hobj, hcls⟩, j, hj, hjk, by rw [hij] at hd; exact hd⟩
    · obtain ⟨o, hset, _⟩ := hl.attempted obj ⟨hobj, hcls⟩
      have hij := hok.itemKey.eq_of_key hi hset.item hik
      have ho : o.docId = some doc.id := by
        rw [hij] at hd
        exact hd
      cases o with
      | skipped why => cases ho
      | error exc => cases ho
      | synced d =>
        obtain rfl : d = doc.id := Option.some.inj ho
        obtain ⟨hel, data, hf, doc', hdoc', hid, hsha⟩ := hset.holds
        have heq := hok.docId.eq_of_key hdoc' hdoc1 hid
        exact Or.inr ⟨obj, ⟨hobj, hcls⟩, hel, data, hf, by rw [← hsha, heq]⟩
  · rintro (⟨obj, hp, j, hj, hjk, hd⟩ | ⟨obj, hatt, hel, data, hf, hsha⟩)
    · obtain ⟨i, hi, hik, _, _, hi1⟩ := hl.passedOver obj hp
      have hij := h.itemKey.eq_of_key hi hj (hik.trans hjk.symm)
      have hc : i.connectorId = c := congrArg Prod.fst hik
      have hkey : i.externalId = obj.key := congrArg Prod.snd hik
      refine ⟨_, hi1, ⟨hc, ?_⟩, by rw [hij]; exact hd⟩
      exact List.mem_map.mpr ⟨obj, hp.1, hkey.symm⟩
    · obtain ⟨o, hset, _⟩ := hl.attempted obj hatt
      have hholds := hset.holds
      cases o with
      | skipped why => simp [ObjectOutcome.Holds, hel] at hholds
      | error exc => exact absurd hsha.symm (hholds.2 data hf doc hdoc)
      | synced d =>
        obtain ⟨_, data', hf', doc', hdoc', hid, hsha'⟩ := hholds
        obtain rfl : data = data' := Except.ok.inj (hf.symm.trans hf')
        have heq := hok.docSha.eq_of_key hdoc' hdoc1 (hsha'.trans hsha)
        refine ⟨_, hset.item, ⟨rfl, List.mem_map.mpr ⟨obj, hatt.1, rfl⟩⟩, ?_⟩
        have hd : d = doc.id := by rw [← hid, heq]
        rw [hd]
        rfl

theorem ListingSettled.other_items (hl : ListingSettled sha256Hex env c remote report db db1) {i : ConnectorItem}
    (hi : ¬ itemsAt c remote i) : i ∈ db1.connectorItems ↔ i ∈ db.connectorItems :=
  hl.frame.items i hi

theorem ListingSettled.live_iff (hl : ListingSettled sha256Hex env c remote report db db1) (h : db.CorpusOk)
    {uploads : List Uuid} {doc : Document} (hdoc : doc ∈ db.documents) :
    LiveDocument c remote uploads db1 doc.id ↔ OtherSource sha256Hex env c remote ⟨db, uploads⟩ doc := by
  have hlinks := hl.links_iff h hdoc
  have hother : ∀ i : ConnectorItem, i.connectorId ≠ c → ¬ itemsAt c remote i := fun i hne hi => hne hi.1
  constructor
  · rintro ⟨_, ⟨i, hi, hlive | ⟨hne, hst⟩, hd⟩ | hup⟩
    · exact ⟨Or.inr (Or.inr (hlinks.mp ⟨i, hi, hlive, hd⟩))⟩
    · exact ⟨Or.inr (Or.inl ⟨i, (hl.other_items (hother i hne)).mp hi, hne, hst, hd⟩)⟩
    · exact ⟨Or.inl hup⟩
  · rintro ⟨hup | ⟨j, hj, hne, hst, hd⟩ | hlisted⟩
    · exact ⟨⟨doc, hl.frame.documents doc hdoc, rfl⟩, Or.inr hup⟩
    · refine ⟨⟨doc, hl.frame.documents doc hdoc, rfl⟩, Or.inl ⟨j, ?_, Or.inr ⟨hne, hst⟩, hd⟩⟩
      exact (hl.other_items (hother j hne)).mpr hj
    · obtain ⟨i, hi, hat, hd⟩ := hlinks.mpr hlisted
      exact ⟨⟨doc, hl.frame.documents doc hdoc, rfl⟩, Or.inl ⟨i, hi, Or.inl hat, hd⟩⟩

/-- The documents the deletion loop takes are those linked by items of missing keys. -/
theorem ListingSettled.doomed_iff (hl : ListingSettled sha256Hex env c remote report db db1) {d : Uuid} :
    (∃ k ∈ deletedKeys env c remote db1, db1.docIdByKey c k = some d) ↔
      ∃ i ∈ db.connectorItems, i.connectorId = c ∧ i.externalId ∉ remote.map RemoteObject.key ∧
        i.status ≠ .deleted ∧ i.docId = some d := by
  constructor
  · rintro ⟨k, hk, hd⟩
    obtain ⟨i, hi, hik, hnot, hst⟩ := mem_deletedKeys.mp hk
    rw [docIdByKey_eq hl.frame.ok hi hik] at hd
    obtain ⟨hc, rfl⟩ := Prod.mk.inj hik
    exact ⟨i, (hl.other_items fun hat => hnot hat.2).mp hi, hc, hnot, hst, hd⟩
  · rintro ⟨i, hi, hc, hnot, hst, hd⟩
    have hi1 := (hl.other_items fun hat => hnot hat.2).mpr hi
    have hik : i.key = (c, i.externalId) := Prod.ext hc rfl
    refine ⟨i.externalId, mem_deletedKeys.mpr ⟨i, hi1, hik, hnot, hst⟩, ?_⟩
    rw [docIdByKey_eq hl.frame.ok hi1 hik]
    exact hd

end Listed

/-- In every state a run reaches, a sweep keeps the live documents exactly when it is safe. -/
theorem fullSweep_keepsLive_iff {sha256Hex : Bytes → String} {s : Corpus}
    (hs : CorpusReachable sha256Hex unguarded s) (env : SyncEnv) (row : Connector) (bucket : BucketListing) :
    KeepsLiveDocuments sha256Hex env row bucket s ↔ SweepSafe sha256Hex env row.id bucket.objects s := by
  have h := hs.ok
  have hreturns := processObjects_returns_iff sha256Hex env row.id row.collection bucket.objects s.db
  generalize hp : processObjects sha256Hex env row.id row.collection bucket.objects s.db = r at hreturns
  obtain ⟨res, db1⟩ := r
  cases res with
  | error exc =>
    have hkeeps : KeepsLiveDocuments sha256Hex env row bucket s := by
      simp only [KeepsLiveDocuments, hp, fullSweep_error hp]
      intro d hlive
      exact ⟨hlive.1, fun i hi _ hd => ⟨i, hi, rfl, hd⟩⟩
    have hraised : ¬ ItemWritesSucceed sha256Hex env row.id bucket.objects s.db := by simpa using hreturns
    exact iff_of_true hkeeps (Or.inl hraised)
  | ok report =>
    have hl := processObjects_ok h bucket.distinct hp
    have hwrites : ItemWritesSucceed sha256Hex env row.id bucket.objects s.db := by simpa using hreturns
    obtain ⟨hdocs, hitems⟩ := fullSweep_ok hp
    obtain ⟨_, hsitems, hsdocs⟩ := sweepKeys_spec row.id (db1.docIdByKey row.id) hl.frame.ok
      (deletedKeys env row.id bucket.objects db1)
    simp only [KeepsLiveDocuments, SweepSafe, hp, hdocs, hitems, sweepDeleted, hwrites, not_true_eq_false, false_or]
    constructor
    · intro hkeep i hi hc hnot hst doc hdoc hd hother
      have hlive := (hl.live_iff h hdoc).mpr hother
      obtain ⟨⟨doc', hdoc', hid⟩, _⟩ := hkeep doc.id hlive
      obtain ⟨k, hk, hkd⟩ := hl.doomed_iff.mpr ⟨i, hi, hc, hnot, hst, hd⟩
      exact ((hsdocs doc').mp hdoc').2 k hk (by rw [hid]; exact hkd)
    · intro hsafe d hlive
      have hfree : ∀ k ∈ deletedKeys env row.id bucket.objects db1, db1.docIdByKey row.id k ≠ some d := by
        intro k hk hkd
        obtain ⟨i, hi, hc, hnot, hst, hd⟩ := hl.doomed_iff.mp ⟨k, hk, hkd⟩
        obtain ⟨doc, hdoc, rfl⟩ := h.itemDoc i hi d hd
        exact hsafe i hi hc hnot hst doc hdoc hd ((hl.live_iff h hdoc).mp hlive)
      obtain ⟨doc, hdoc, rfl⟩ := hlive.1
      refine ⟨⟨doc, (hsdocs doc).mpr ⟨hdoc, hfree⟩, rfl⟩, ?_⟩
      intro i hi hli hd
      refine ⟨sweptItem row.id (db1.docIdByKey row.id) (deletedKeys env row.id bucket.objects db1) i, ?_, rfl, ?_⟩
      · rw [hsitems]
        exact List.mem_map_of_mem hi
      · refine (sweptItem_docId _ _ _).mpr ⟨hd, ?_, hfree⟩
        rintro ⟨hc, hk⟩
        obtain ⟨_, _, _, hnot, _⟩ := mem_deletedKeys.mp hk
        rcases hli with ⟨_, hin⟩ | ⟨hne, _⟩
        · exact hnot hin
        · exact hne hc

/-- One connector, swept once over `a.txt`. -/
def sweptOnce : Corpus :=
  (runSteps (corpusStep abcDigest) Corpus.empty
    [.createConnector 1 "default", .sweep 1 abcEnv (abcBucket "a.txt")]).getD Corpus.empty

theorem sweptOnce_reachable : CorpusReachable abcDigest unguarded sweptOnce := by
  have hrun : runSteps (corpusStep abcDigest) Corpus.empty
      [.createConnector 1 "default", .sweep 1 abcEnv (abcBucket "a.txt")] = some sweptOnce := rfl
  exact reaches_of_runSteps rfl hrun

theorem fullSweep_keepsLive_iff_renamed :
    KeepsLiveDocuments abcDigest abcEnv ⟨1, "default", some 0, some 0⟩ (abcBucket "b.txt") sweptOnce ↔
      SweepSafe abcDigest abcEnv 1 (abcBucket "b.txt").objects sweptOnce :=
  fullSweep_keepsLive_iff sweptOnce_reachable abcEnv ⟨1, "default", some 0, some 0⟩ (abcBucket "b.txt")

/-- The object is renamed to `b.txt`; the next sweep deletes its document. -/
theorem fullSweep_deletes_renamed :
    CorpusReachable abcDigest unguarded sweptOnce ∧
      ¬ KeepsLiveDocuments abcDigest abcEnv ⟨1, "default", some 0, some 0⟩ (abcBucket "b.txt") sweptOnce := by
  refine ⟨sweptOnce_reachable, fun hkeep => ?_⟩
  have hlive : LiveDocument 1 (abcBucket "b.txt").objects sweptOnce.uploads
      (processObjects abcDigest abcEnv 1 "default" (abcBucket "b.txt").objects sweptOnce.db).2 7 := by
    unfold LiveDocument LiveItem
    decide
  have hgone : (fullSweep abcDigest abcEnv ⟨1, "default", some 0, some 0⟩ (abcBucket "b.txt")
      sweptOnce.db).2.documents = [] := by decide
  obtain ⟨⟨doc, hdoc, _⟩, _⟩ := hkeep 7 hlive
  rw [hgone] at hdoc
  cases hdoc

end ProRag
