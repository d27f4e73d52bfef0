import ProRag.Ingest.Moves

/-!
# Uploads of the same bytes agree on one row

The unique digest makes one insert win; the others find its row before or after they try theirs.
-/

namespace ProRag

open Framework

variable (sha256Hex : Bytes → String)

/-- The pool of the uploads of `data`, each under its own file name and collection. -/
def sameBytesStep (data : Bytes) (s : IngestPool) (op : PoolOp (String × String) IngestMove) : Option IngestPool :=
  poolStep (fun p => .selecting ⟨data, p.1, p.2⟩) (ingestAct sha256Hex) s op

/-- No rule check has swallowed an error of the database, which turns the COMMIT into a ROLLBACK. -/
def CommitsHold (_ : BlobWorld) (_ : List IngestCall) (_ : IngestCall) (m : IngestMove) : Prop :=
  m ≠ .commitRolledBack

instance (w : BlobWorld) (others : List IngestCall) (k : IngestCall) (m : IngestMove) :
    Decidable (CommitsHold w others k m) := by
  cases m with
  | commitRolledBack => exact isFalse fun h => h rfl
  | _ => exact isTrue nofun

def IngestCall.refersTo : IngestCall → Option Uuid
  | .selected _ (some e) => some e.id
  | .rechecked _ _ (some e) => some e.id
  | .done (.ok resp) => some resp.docId
  | _ => none

theorem IngestCall.refersTo_selected (u : Upload) (found : Option Document) :
    (IngestCall.selected u found).refersTo = found.map Document.id := by cases found <;> rfl

theorem IngestCall.refersTo_rechecked (u : Upload) (exc : PyError) (found : Option Document) :
    (IngestCall.rechecked u exc found).refersTo = found.map Document.id := by cases found <;> rfl

def IngestCall.hasDigest (digest : String) : IngestCall → Prop
  | .selecting u | .selected u _ | .parsing u | .conflicted u | .failed u _ | .rechecked u _ _ => sha256Hex u.data = digest
  | .flushing u doc | .storing u doc => sha256Hex u.data = digest ∧ doc.sha256 = digest
  | .done _ => True

/-- Answered `ready`, and not as a duplicate. -/
def IngestCall.isWinner : IngestCall → Bool
  | .done (.ok resp) => decide (resp.status = .ready) && resp.duplicateOf.isNone
  | _ => false

/-- At most one row, to which every answer points, and at most one winner. -/
structure DedupAgreed (digest : String) (s : IngestPool) : Prop where
  oneRow : ∀ d ∈ s.shared.documents, ∀ d' ∈ s.shared.documents, d.sha256 = digest → d'.sha256 = digest → d = d'
  sameRow : ∀ resp, .done (.ok resp) ∈ s.procs → ∃ d ∈ s.shared.documents, d.sha256 = digest ∧ d.id = resp.docId
  oneWinner : s.procs.countP IngestCall.isWinner ≤ 1

/-- What the runs keep; `found` says that the digest had a row at the start. -/
structure DedupKept (digest : String) (found : Prop) (w : BlobWorld) (calls : List IngestCall) : Prop where
  unique : RowsUnique w calls
  digests : ∀ k ∈ calls, k.hasDigest sha256Hex digest
  refers : ∀ k ∈ calls, ∀ id, k.refersTo = some id → ∃ d ∈ w.documents, d.sha256 = digest ∧ d.id = id
  oneWinner : calls.countP IngestCall.isWinner ≤ 1
  winner : ¬ found → (∃ d ∈ w.documents, d.sha256 = digest) → calls.countP IngestCall.isWinner = 1

variable {sha256Hex} {digest : String} {found : Prop} {w w' : BlobWorld} {others : List IngestCall}
  {k k' : IngestCall} {m : IngestMove}

theorem ingestAct_moving (hs : ingestAct sha256Hex w others k m = some (w', k')) : k.isWinner = false := by
  cases k with
  | done r => cases hs
  | _ => rfl

theorem winner_refers (hk : k.isWinner = true) : ∃ id, k.refersTo = some id := by
  cases k with
  | done r =>
    cases r with
    | ok resp => exact ⟨resp.docId, rfl⟩
    | error exc => cases hk
  | _ => cases hk

theorem IngestMoves.hasDigest (h : IngestMoves sha256Hex w k m k') (hk : k.hasDigest sha256Hex digest) :
    k'.hasDigest sha256Hex digest := by
  cases h with
  | selects u => exact hk
  | finds u e => trivial
  | raises => trivial
  | awaits u _ hpre =>
    rcases hpre with rfl | rfl
    · exact hk
    · exact hk
  | parses u _ id mime hpre =>
    rcases hpre with rfl | rfl
    · exact ⟨hk, hk⟩
    · exact ⟨hk, hk⟩
  | conflicts u doc => exact hk.1
  | resolves u e he => trivial
  | loses u doc => trivial
  | fails u doc exc => exact hk.1
  | rechecks u exc => exact hk

theorem IngestMoves.refers (h : IngestMoves sha256Hex w k m k') (hguard : CommitsHold w others k m)
    (hdigest : k.hasDigest sha256Hex digest)
    (hk : ∀ id, k.refersTo = some id → ∃ d ∈ w.documents, d.sha256 = digest ∧ d.id = id) :
    ∀ id, k'.refersTo = some id → ∃ d ∈ w.documents, d.sha256 = digest ∧ d.id = id := by
  have hselected : ∀ (u : Upload) (e : Document), sha256Hex u.data = digest →
      selectOne Document.sha256 (sha256Hex u.data) w.documents = some e → e ∈ w.documents ∧ e.sha256 = digest := by
    intro u e hu he
    rw [← hu]
    exact selectOne_mem he
  intro id hid
  cases h with
  | selects u =>
    rw [IngestCall.refersTo_selected] at hid
    obtain ⟨e, he, rfl⟩ := Option.map_eq_some_iff.mp hid
    obtain ⟨hmem, hsha⟩ := hselected u e hdigest he
    exact ⟨e, hmem, hsha, rfl⟩
  | finds u e =>
    obtain rfl := Option.some.inj hid
    exact hk e.id rfl
  | resolves u e he =>
    obtain rfl := Option.some.inj hid
    obtain ⟨hmem, hsha⟩ := hselected u e hdigest he
    exact ⟨e, hmem, hsha, rfl⟩
  | loses u doc => exact absurd rfl hguard
  | rechecks u exc =>
    rw [IngestCall.refersTo_rechecked] at hid
    obtain ⟨e, he, rfl⟩ := Option.map_eq_some_iff.mp hid
    obtain ⟨hmem, hsha⟩ := hselected u e hdigest he
    exact ⟨e, hmem, hsha, rfl⟩
  | _ => cases hid

theorem IngestMoves.not_winner (h : IngestMoves sha256Hex w k m k') (hguard : CommitsHold w others k m) :
    k'.isWinner = false := by
  cases h with
  | loses u doc => exact absurd rfl hguard
  | finds u e => exact Bool.and_false _
  | resolves u e he => exact Bool.and_false _
  | _ => rfl

theorem countP_quiet (hk : k.isWinner = false) (hk' : k'.isWinner = false) :
    (k' :: others).countP IngestCall.isWinner = (k :: others).countP IngestCall.isWinner := by
  rw [List.countP_cons_of_neg (by simp [hk']), List.countP_cons_of_neg (by simp [hk])]

theorem RowsUnique.inserting {u : Upload} {doc : Document} (h : RowsUnique w (.storing u doc :: others)) :
    ∀ d ∈ w.documents, d.sha256 ≠ doc.sha256 := by
  intro d hd heq
  have hnodup := h.sha256
  unfold UniqueOn at hnodup
  rw [List.map_append] at hnodup
  have hdisjoint := (List.nodup_append.mp hnodup).2.2
  apply hdisjoint d.sha256 (List.mem_map_of_mem hd) doc.sha256 _ heq
  exact List.mem_map.mpr ⟨doc, mem_inserted.mpr ⟨u, List.mem_cons_self⟩, rfl⟩

theorem markFailed_row {marked id : Uuid} {exc : PyError} :
    (∃ d ∈ (markFailed marked exc w).documents, d.sha256 = digest ∧ d.id = id) ↔
      ∃ d ∈ w.documents, d.sha256 = digest ∧ d.id = id := by
  have hkeys : (markFailed marked exc w).documents.map (fun d => (d.sha256, d.id)) =
      w.documents.map fun d => (d.sha256, d.id) := by
    apply map_updateWhere
    intro d _
    rfl
  have hmem : ∀ docs : List Document, (∃ d ∈ docs, d.sha256 = digest ∧ d.id = id) ↔
      (digest, id) ∈ docs.map fun d => (d.sha256, d.id) := by
    intro docs
    simp [List.mem_map]
  rw [hmem, hmem, hkeys]

theorem ingestAct_dedupKept (h : DedupKept sha256Hex digest found w (k :: others)) (hguard : CommitsHold w others k m)
    (hs : ingestAct sha256Hex w others k m = some (w', k')) : DedupKept sha256Hex digest found w' (k' :: others) := by
  have hunique := ingestAct_rowsUnique h.unique hs
  have hmoving := ingestAct_moving hs
  have hdigest := h.digests k List.mem_cons_self
  have hrefers := h.refers k List.mem_cons_self
  rcases ingestAct_cases hs with ⟨hrows, hmoves⟩ | ⟨u, doc, rfl, _, rfl, rfl, _⟩ | ⟨u, doc, rfl, _, rfl, hrows⟩ |
    ⟨u, exc, e, rfl, _, rfl, rfl⟩
  · have hcount : (k' :: others).countP IngestCall.isWinner = (k :: others).countP IngestCall.isWinner :=
      countP_quiet hmoving (hmoves.not_winner hguard)
    refine ⟨hunique, fun c hc => ?_, fun c hc id hid => ?_, by rw [hcount]; exact h.oneWinner, fun hnew hrow => ?_⟩
    · rcases List.mem_cons.mp hc with rfl | hc
      · exact hmoves.hasDigest hdigest
      · exact h.digests c (List.mem_cons_of_mem _ hc)
    · rw [hrows]
      rcases List.mem_cons.mp hc with rfl | hc
      · exact hmoves.refers hguard hdigest hrefers id hid
      · exact h.refers c (List.mem_cons_of_mem _ hc) id hid
    · rw [hcount]
      rw [hrows] at hrow
      exact h.winner hnew hrow
  · have hcount : (IngestCall.storing u doc :: others).countP IngestCall.isWinner =
        (IngestCall.flushing u doc :: others).countP IngestCall.isWinner := countP_quiet rfl rfl
    refine ⟨hunique, fun c hc => ?_, fun c hc id hid => ?_, by rw [hcount]; exact h.oneWinner, ?_⟩
    · rcases List.mem_cons.mp hc with rfl | hc
      · exact hdigest
      · exact h.digests c (List.mem_cons_of_mem _ hc)
    · rcases List.mem_cons.mp hc with rfl | hc
      · cases hid
      · exact h.refers c (List.mem_cons_of_mem _ hc) id hid
    · rw [hcount]
      exact h.winner
  · -- the digest had no row before, so no call has answered with one
    have hnone : others.countP IngestCall.isWinner = 0 := by
      apply List.countP_eq_zero.mpr
      intro c hc hwin
      obtain ⟨id, hid⟩ := winner_refers hwin
      obtain ⟨d, hd, hsha, _⟩ := h.refers c (List.mem_cons_of_mem _ hc) id hid
      exact h.unique.inserting d hd (hsha.trans hdigest.2.symm)
    have hone : (IngestCall.done (.ok ⟨doc.id, .ready, none⟩) :: others).countP IngestCall.isWinner = 1 := by
      rw [List.countP_cons_of_pos (by rfl), hnone]
    refine ⟨hunique, fun c hc => ?_, fun c hc id hid => ?_, by rw [hone], fun _ _ => hone⟩
    · rcases List.mem_cons.mp hc with rfl | hc
      · trivial
      · exact h.digests c (List.mem_cons_of_mem _ hc)
    · rw [hrows]
      rcases List.mem_cons.mp hc with rfl | hc
      · obtain rfl := Option.some.inj hid
        exact ⟨_, List.mem_append_right _ List.mem_cons_self, hdigest.2, rfl⟩
      · obtain ⟨d, hd, hrow⟩ := h.refers c (List.mem_cons_of_mem _ hc) id hid
        exact ⟨d, List.mem_append_left _ hd, hrow⟩
  · have hcount : (IngestCall.done (.ok ⟨e.id, .failed, none⟩) :: others).countP IngestCall.isWinner =
        (IngestCall.rechecked u exc (some e) :: others).countP IngestCall.isWinner := countP_quiet rfl rfl
    refine ⟨hunique, fun c hc => ?_, fun c hc id hid => ?_, by rw [hcount]; exact h.oneWinner, fun hnew hrow => ?_⟩
    · rcases List.mem_cons.mp hc with rfl | hc
      · trivial
      · exact h.digests c (List.mem_cons_of_mem _ hc)
    · apply markFailed_row.mpr
      rcases List.mem_cons.mp hc with rfl | hc
      · obtain rfl := Option.some.inj hid
        exact hrefers e.id rfl
      · exact h.refers c (List.mem_cons_of_mem _ hc) id hid
    · rw [hcount]
      obtain ⟨d, hd, hsha⟩ := hrow
      obtain ⟨d', hd', hsha', _⟩ := markFailed_row.mp ⟨d, hd, hsha, rfl⟩
      exact h.winner hnew ⟨d', hd', hsha'⟩

theorem DedupKept.agreed {s : IngestPool} (h : DedupKept sha256Hex digest found s.shared s.procs) : DedupAgreed digest s := by
  have hsha : UniqueOn Document.sha256 s.shared.documents :=
    List.Nodup.sublist ((List.sublist_append_left _ _).map _) h.unique.sha256
  refine ⟨fun d hd d' hd' hdig hdig' => ?_, fun resp hresp => ?_, h.oneWinner⟩
  · exact hsha.eq_of_key hd hd' (hdig.trans hdig'.symm)
  · exact h.refers _ hresp resp.docId rfl

/-- A call that has answered `ready` has a row, so where the digest had none at the start a winner has made it. -/
theorem DedupKept.exactlyOne {s : IngestPool} (h : DedupKept sha256Hex digest found s.shared s.procs) (hnew : ¬ found)
    {resp : IngestResponse} (hresp : .done (.ok resp) ∈ s.procs) : s.procs.countP IngestCall.isWinner = 1 := by
  obtain ⟨d, hd, hsha, _⟩ := h.refers _ hresp resp.docId rfl
  exact h.winner hnew ⟨d, hd, hsha⟩

/-- Uploads of the same bytes agree, in every run in which a COMMIT commits. -/
theorem same_bytes_agree {data : Bytes} {s0 s : IngestPool} (h0 : RowsStart s0)
    (hs : Reaches (sameBytesStep sha256Hex data) (poolGuard CommitsHold) (· = s0) s) :
    DedupAgreed (sha256Hex data) s ∧
      ((∀ d ∈ s0.shared.documents, d.sha256 ≠ sha256Hex data) → (∀ k ∈ s.procs, ∃ r, k = .done r) →
        (∃ resp, .done (.ok resp) ∈ s.procs ∧ resp.status = .ready) → s.procs.countP IngestCall.isWinner = 1) := by
  have hinv : DedupKept sha256Hex (sha256Hex data) (∃ d ∈ s0.shared.documents, d.sha256 = sha256Hex data)
      s.shared s.procs := by
    apply Reaches.poolAll _ _ _ _ hs
    · intro w l l' hp hl
      refine ⟨hl.unique.perm hp, fun k hk => hl.digests k (hp.mem_iff.mpr hk),
        fun k hk => hl.refers k (hp.mem_iff.mpr hk), ?_, ?_⟩
      · rw [← hp.countP_eq]
        exact hl.oneWinner
      · rw [← hp.countP_eq]
        exact hl.winner
    · intro s hs
      subst hs
      obtain ⟨hprocs, _⟩ := id h0
      refine ⟨h0.unique, fun k hk => ?_, fun k hk => ?_, ?_, fun hnew hrow => absurd hrow hnew⟩
      · rw [hprocs] at hk
        cases hk
      · rw [hprocs] at hk
        cases hk
      · rw [hprocs]
        exact Nat.zero_le 1
    · intro w l p hl
      refine ⟨⟨hl.unique.sha256, hl.unique.id⟩, fun k hk => ?_, fun k hk id hid => ?_, hl.oneWinner, hl.winner⟩
      · rcases List.mem_cons.mp hk with rfl | hk
        · rfl
        · exact hl.digests k hk
      · rcases List.mem_cons.mp hk with rfl | hk
        · cases hid
        · exact hl.refers k hk id hid
    · intro w others k m w' k' hl hguard hact
      exact ingestAct_dedupKept hl hguard hact
  refine ⟨hinv.agreed, fun hnew _ hready => ?_⟩
  obtain ⟨resp, hresp, _⟩ := hready
  refine hinv.exactlyOne (fun hfound => ?_) hresp
  obtain ⟨d, hd, hsha⟩ := hfound
  exact hnew d hd hsha

/-- Two uploads that race to the insert, under two names: the second one waits, meets the row and answers with it. -/
def pngRaced : List (PoolOp (String × String) IngestMove) :=
  [.spawn ("scan.png", "default"), .spawn ("copy.png", "finance"), .move 0 .read, .move 1 .read,
    .move 0 (.parse (.parsed 9 "image/png")), .move 1 (.parse (.parsed 10 "image/png")), .move 0 .flush,
    .move 0 .commit, .move 1 .flush, .move 1 .read]

theorem same_bytes_agree_raced :
    ∃ s, runSteps (sameBytesStep pngDigest pngUpload.data) emptyPool pngRaced = some s ∧
      s.procs.map IngestCall.refersTo = [some 9, some 9] ∧ DedupAgreed (pngDigest pngUpload.data) s ∧
      s.procs.countP IngestCall.isWinner = 1 := by
  have hguard : Guarded (sameBytesStep pngDigest pngUpload.data) (poolGuard CommitsHold) emptyPool pngRaced := by
    decide
  have hstart : Reaches (sameBytesStep pngDigest pngUpload.data) (poolGuard CommitsHold) (· = emptyPool) emptyPool :=
    .start rfl
  have hrun : ∃ s, runSteps (sameBytesStep pngDigest pngUpload.data) emptyPool pngRaced = some s ∧
      s.procs = [.done (.ok ⟨9, .ready, none⟩), .done (.ok ⟨9, .ready, some 9⟩)] := ⟨_, rfl, rfl⟩
  obtain ⟨s, hrun, hprocs⟩ := hrun
  obtain ⟨hagreed, hone⟩ := same_bytes_agree emptyPool_rows (hstart.runSteps hguard hrun)
  refine ⟨s, hrun, by rw [hprocs]; rfl, hagreed, hone nofun ?_ ?_⟩
  · intro k hk
    rw [hprocs] at hk
    rcases List.mem_pair.mp hk with rfl | rfl
    · exact ⟨_, rfl⟩
    · exact ⟨_, rfl⟩
  · rw [hprocs]
    exact ⟨_, List.mem_cons_self, rfl⟩

/-- The first upload's COMMIT rolls back after a rule check that met an error; a second upload makes the row. -/
def pngLost : List (PoolOp (String × String) IngestMove) :=
  [.spawn ("scan.png", "default"), .spawn ("copy.png", "finance"), .move 0 .read, .move 1 .read,
    .move 0 (.parse (.parsed 9 "image/png")), .move 1 (.parse (.parsed 10 "image/png")), .move 0 .flush,
    .move 0 .commitRolledBack, .move 1 .flush, .move 1 .commit]

theorem lost_commit_disagrees :
    ∃ s, RowsStart emptyPool ∧ Reaches (sameBytesStep pngDigest pngUpload.data) unguarded (· = emptyPool) s ∧
      ¬ DedupAgreed (pngDigest pngUpload.data) s := by
  have hrun : ∃ s, runSteps (sameBytesStep pngDigest pngUpload.data) emptyPool pngLost = some s ∧
      s.procs.countP IngestCall.isWinner = 2 := ⟨_, rfl, rfl⟩
  obtain ⟨s, hrun, hwinners⟩ := hrun
  refine ⟨s, emptyPool_rows, reaches_of_runSteps rfl hrun, fun hagreed => ?_⟩
  have hone := hagreed.oneWinner
  omega

end ProRag
