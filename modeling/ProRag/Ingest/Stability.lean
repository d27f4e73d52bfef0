import ProRag.Ingest.Moves

/-!
# A ready row stays ready

The handler of a failed ingest looks the row of its digest up again after its rollback, and marks what it finds.
-/

namespace ProRag

open Framework

variable (sha256Hex : Bytes → String)

/-- No ready row of its digest is committed when a failed call looks the row up again. -/
def RechecksUnready (w : BlobWorld) (_ : List IngestCall) (k : IngestCall) (m : IngestMove) : Prop :=
  ∀ u exc, k = .failed u exc → m = .read → ∀ d ∈ w.documents, d.sha256 = sha256Hex u.data → d.status ≠ .ready

/-- A call about to mark a row has found one that is not ready. -/
def MarksUnready (w : BlobWorld) (k : IngestCall) : Prop :=
  ∀ u exc e, k = .rechecked u exc (some e) → ∃ d ∈ w.documents, d.id = e.id ∧ d.status ≠ .ready

variable {sha256Hex} {w w' : BlobWorld} {others : List IngestCall} {k k' : IngestCall} {m : IngestMove}

theorem ingestAct_unready (hs : ingestAct sha256Hex w others k m = some (w', k')) {id : Uuid}
    (h : ∃ d ∈ w.documents, d.id = id ∧ d.status ≠ .ready) : ∃ d ∈ w'.documents, d.id = id ∧ d.status ≠ .ready := by
  obtain ⟨d, hd, hid, hstatus⟩ := h
  rcases ingestAct_cases hs with ⟨hrows, _⟩ | ⟨u, doc, _, _, _, rfl, _⟩ | ⟨u, doc, _, _, _, hrows⟩ |
    ⟨u, exc, e, _, _, _, rfl⟩
  · exact ⟨d, hrows ▸ hd, hid, hstatus⟩
  · exact ⟨d, hd, hid, hstatus⟩
  · exact ⟨d, hrows ▸ List.mem_append_left _ hd, hid, hstatus⟩
  · by_cases hmark : d.id = e.id
    · refine ⟨{ d with status := .failed, error := some (failureText exc) }, ?_, hid, ?_⟩
      · exact mem_updateWhere.mpr ⟨d, hd, if_pos (decide_eq_true hmark)⟩
      · intro hcontra
        cases hcontra
    · refine ⟨d, ?_, hid, hstatus⟩
      exact mem_updateWhere.mpr ⟨d, hd, if_neg (by simp [hmark])⟩

/-- What the runs below keep. -/
structure Stable (w : BlobWorld) (calls : List IngestCall) : Prop where
  unique : RowsUnique w calls
  marks : ∀ k ∈ calls, MarksUnready w k

theorem ingestAct_stable (h : Stable w (k :: others)) (hguard : RechecksUnready sha256Hex w others k m)
    (hs : ingestAct sha256Hex w others k m = some (w', k')) : Stable w' (k' :: others) := by
  refine ⟨ingestAct_rowsUnique h.unique hs, fun c hc => ?_⟩
  rcases List.mem_cons.mp hc with rfl | hc
  · intro u exc e hk'
    rcases ingestAct_cases hs with ⟨hrows, hmoves⟩ | ⟨u', doc, _, _, rfl, _⟩ | ⟨u', doc, _, _, rfl, _⟩ |
      ⟨u', exc', e', _, _, rfl, _⟩
    · cases hmoves with
      | rechecks u' exc' =>
        obtain ⟨rfl, rfl, hfound⟩ : u' = u ∧ exc' = exc ∧ selectOne Document.sha256 (sha256Hex u'.data) w.documents = some e := by
          simpa using hk'
        obtain ⟨he, hsha⟩ := selectOne_mem hfound
        exact ⟨e, hrows ▸ he, rfl, hguard u' exc' rfl rfl e he hsha⟩
      | _ => cases hk'
    · cases hk'
    · cases hk'
    · cases hk'
  · intro u exc e hk
    exact ingestAct_unready hs (h.marks c (List.mem_cons_of_mem _ hc) u exc e hk)

theorem ingestAct_keepsReady (h : Stable w (k :: others)) (hs : ingestAct sha256Hex w others k m = some (w', k'))
    {d : Document} (hd : d ∈ w.documents) (hready : d.status = .ready) : d ∈ w'.documents := by
  rcases ingestAct_cases hs with ⟨hrows, _⟩ | ⟨u, doc, _, _, _, rfl, _⟩ | ⟨u, doc, _, _, _, hrows⟩ |
    ⟨u, exc, e, rfl, _, _, rfl⟩
  · rw [hrows]
    exact hd
  · exact hd
  · rw [hrows]
    exact List.mem_append_left _ hd
  · obtain ⟨d', hd', hid, hstatus⟩ := h.marks _ List.mem_cons_self u exc e rfl
    have hother : d.id ≠ e.id := by
      intro heq
      have hids : UniqueOn Document.id w.documents :=
        List.Nodup.sublist ((List.sublist_append_left _ _).map _) h.unique.id
      obtain rfl : d = d' := hids.eq_of_key hd hd' (heq.trans hid.symm)
      exact hstatus hready
    exact mem_updateWhere.mpr ⟨d, hd, if_neg (by simp [hother])⟩

theorem stable_reached {s : IngestPool}
    (h : Reaches (ingestStep sha256Hex) (poolGuard (RechecksUnready sha256Hex)) RowsStart s) : Stable s.shared s.procs := by
  apply Reaches.poolAll _ _ _ _ h
  · intro w l l' hp hl
    exact ⟨hl.unique.perm hp, fun k hk => hl.marks k (hp.mem_iff.mpr hk)⟩
  · intro s hs
    refine ⟨hs.unique, fun k hk => ?_⟩
    rw [hs.1] at hk
    cases hk
  · intro w l u hl
    refine ⟨⟨hl.unique.sha256, hl.unique.id⟩, fun k hk => ?_⟩
    rcases List.mem_cons.mp hk with rfl | hk
    · intro u' exc e hcontra
      cases hcontra
    · exact hl.marks k hk
  · intro w others k m w' k' hl hguard hs
    exact ingestAct_stable hl hguard hs

/-- In a run whose failed calls look up no ready row, every row that has become ready stays as it is. -/
theorem ready_rows_stay {s s' : IngestPool} {ops : List (PoolOp Upload IngestMove)}
    (hs : Reaches (ingestStep sha256Hex) (poolGuard (RechecksUnready sha256Hex)) RowsStart s)
    (hguard : Guarded (ingestStep sha256Hex) (poolGuard (RechecksUnready sha256Hex)) s ops)
    (hrun : runSteps (ingestStep sha256Hex) s ops = some s') :
    ∀ d ∈ s.shared.documents, d.status = .ready → d ∈ s'.shared.documents := by
  induction ops generalizing s with
  | nil =>
    obtain rfl := Option.some.inj hrun
    exact fun d hd _ => hd
  | cons op ops ih =>
    obtain ⟨t, hstep, hrest⟩ := runSteps_cons.mp hrun
    intro d hd hready
    have hkept : d ∈ t.shared.documents := by
      cases op with
      | spawn u =>
        obtain rfl := Option.some.inj hstep
        exact hd
      | move pid m =>
        have hact := hstep
        simp only [ingestStep, poolStep] at hact
        split at hact
        · cases hact
        · rename_i k hk
          obtain ⟨⟨w', k'⟩, hr, rfl⟩ := Option.map_eq_some_iff.mp hact
          have hstable := stable_reached hs
          have hfront : Stable s.shared (k :: s.procs.eraseIdx pid) :=
            ⟨hstable.unique.perm (perm_cons_eraseIdx hk), fun c hc =>
              hstable.marks c ((perm_cons_eraseIdx hk).mem_iff.mpr hc)⟩
          exact ingestAct_keepsReady hfront hr hd hready
    exact ih (.next hs hguard.1 hstep) (hguard.2 t hstep) hrest d hkept hready

/-- A failed call that finds a ready row goes on to mark it. -/
theorem recheck_breaks {u : Upload} {exc : PyError} {e : Document} (he : e ∈ w.documents) (hready : e.status = .ready)
    (hids : UniqueOn Document.id w.documents) : ∃ w' k', ingestAct sha256Hex w others (.rechecked u exc (some e)) .finish =
      some (w', k') ∧ e ∉ w'.documents := by
  refine ⟨_, _, rfl, fun hmem => ?_⟩
  obtain ⟨d, hd, heq⟩ := mem_updateWhere.mp hmem
  have hid : d.id = e.id := by
    by_cases h : d.id = e.id
    · exact h
    · rw [if_neg (by simp [h])] at heq
      rw [heq]
  obtain rfl := hids.eq_of_key hd he hid
  rw [if_pos (by simp)] at heq
  rw [← heq] at hready
  cases hready

/-- A second upload of the committed bytes finds the row and answers with it. -/
def pngAgain : List (PoolOp Upload IngestMove) :=
  [.spawn pngUpload, .move 1 .read, .move 1 .finish]

def IngestCall.isFailed : IngestCall → Bool
  | .failed _ _ => true
  | _ => false

theorem unfailed_guard {s : IngestPool} {op : PoolOp Upload IngestMove} (h : s.procs.any IngestCall.isFailed = false) :
    poolGuard (RechecksUnready sha256Hex) s op := by
  cases op with
  | spawn u => trivial
  | move pid m =>
    intro k hk u exc hfailed
    have hnot := List.any_eq_false.mp h k (List.mem_of_getElem? hk)
    exact absurd (by rw [hfailed]; rfl) hnot

theorem ready_rows_stay_committed :
    ∃ s s', runSteps (ingestStep pngDigest) emptyPool pngCommitted = some s ∧
      runSteps (ingestStep pngDigest) s pngAgain = some s' ∧ (∃ d ∈ s.shared.documents, d.status = .ready) ∧
      ∀ d ∈ s.shared.documents, d.status = .ready → d ∈ s'.shared.documents := by
  have hfirst : Guarded (ingestStep pngDigest) (poolGuard (RechecksUnready pngDigest)) emptyPool pngCommitted :=
    .cons trivial rfl (.cons (unfailed_guard rfl) rfl (.cons (unfailed_guard rfl) rfl
      (.cons (unfailed_guard rfl) rfl (.cons (unfailed_guard rfl) rfl trivial))))
  have hstart : Reaches (ingestStep pngDigest) (poolGuard (RechecksUnready pngDigest)) RowsStart emptyPool :=
    .start emptyPool_rows
  refine ⟨_, _, rfl, rfl, ⟨_, List.mem_cons_self, rfl⟩, ?_⟩
  refine ready_rows_stay (hstart.runSteps hfirst rfl) (?_ : Guarded _ _ _ pngAgain) rfl
  exact .cons trivial rfl (.cons (unfailed_guard rfl) rfl (.cons (unfailed_guard rfl) rfl trivial))

/-- Two uploads of one image: the first fails after its insert, and rolls back; the second inserts and commits;
the first looks its digest up. -/
def pngFailsLate : List (PoolOp Upload IngestMove) :=
  [.spawn pngUpload, .spawn pngUpload, .move 0 .read, .move 1 .read, .move 0 (.parse (.parsed 9 "image/png")),
    .move 1 (.parse (.parsed 10 "image/png")), .move 0 .flush, .move 0 (.fail ⟨"ReadTimeout", ""⟩), .move 1 .flush,
    .move 1 .commit]

theorem failed_call_marks_ready_row :
    ∃ s s', Reaches (ingestStep pngDigest) unguarded RowsStart s ∧
      runSteps (ingestStep pngDigest) s [.move 0 .read, .move 0 .finish] = some s' ∧
      ∃ d ∈ s.shared.documents, d.status = .ready ∧ d ∉ s'.shared.documents := by
  have hrun : ∃ s, runSteps (ingestStep pngDigest) emptyPool pngFailsLate = some s ∧
      ∃ s', runSteps (ingestStep pngDigest) s [.move 0 .read, .move 0 .finish] = some s' ∧
        s.shared.documents = [{ pngUpload.document pngDigest 10 "image/png" with status := .ready }] ∧
        s'.shared.documents.map Document.status = [.failed] := ⟨_, rfl, _, rfl, rfl, rfl⟩
  obtain ⟨s, hs, s', hs', hready, hfailed⟩ := hrun
  refine ⟨s, s', reaches_of_runSteps emptyPool_rows hs, hs', _, by rw [hready]; exact List.mem_cons_self, rfl, ?_⟩
  intro hmem
  have hstatus : DocStatus.ready ∈ s'.shared.documents.map Document.status := List.mem_map.mpr ⟨_, hmem, rfl⟩
  rw [hfailed] at hstatus
  exact absurd hstatus (by decide)

end ProRag
