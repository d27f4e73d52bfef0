import ProRag.Ingest.Contents
import ProRag.Ingest.Embedding
import ProRag.Ingest.RuleCheck

/-!
# The embeddings of the stored chunks

The texts of an upload are embedded in batches that end in any order, and the vectors are dealt out to chunks that
are built elsewhere.
-/

namespace ProRag

open Framework

/-- `max(1, settings.embed_batch_size)`. -/
def batchSize (settings : Settings) : Nat := max 1 settings.embedBatchSize

/-- `batches[i]`. -/
def batchAt (settings : Settings) (texts : List String) (i : Nat) : List String :=
  (texts.drop (i * batchSize settings)).take (batchSize settings)

/-- Every batch ends once, in some order, and an answer has one vector for each text of its batch. -/
structure ProviderBatches (settings : Settings) (provider : String → Embedding) (texts : List String)
    (attempt : EmbedAttempt) : Prop where
  order : (attempt.batches.map Prod.fst).Perm (List.range (batchCount settings texts))
  vectors : ∀ i resp vecs, (i, Except.ok resp) ∈ attempt.batches → resp.content = .ok vecs →
    vecs = (batchAt settings texts i).map provider

/-- The chunks of one upload: the prose and then the artifacts of the tables, numbered from 0, each with the vector
of the text that is stored with it. -/
structure Aligned (floats : FloatText) (provider : String → Embedding) (file : ParsedFile) (docId : Uuid)
    (chunks : List Chunk) : Prop where
  shown : chunks.map (fun c => (c.kind, c.text)) =
    file.prose.map (fun c => (ChunkKind.prose, c.text)) ++ (file.artifacts floats).map fun a => (a.kind, a.text)
  ord : chunks.map Chunk.ord = List.range chunks.length
  docId : ∀ c ∈ chunks, c.docId = docId
  embedText : chunks.map Chunk.embedText = file.texts floats
  embedding : ∀ c ∈ chunks, c.embedding = provider c.embedText

variable {settings : Settings} {completionCost : CompletionCost} {provider : String → Embedding} {texts : List String}
  {attempt : EmbedAttempt}

/-! ## The batches -/

theorem batchSize_pos (settings : Settings) : 0 < batchSize settings := by
  unfold batchSize
  omega

theorem batchResults_vectors {batches : List (Nat × LlmOutcome (List Embedding))} {results : List (Nat × List Embedding)}
    (hvectors : ∀ i resp vecs, (i, Except.ok resp) ∈ batches → resp.content = .ok vecs →
      vecs = (batchAt settings texts i).map provider)
    (h : batchResults batches = .ok results) :
    results.map Prod.fst = batches.map Prod.fst ∧ ∀ r ∈ results, r.2 = (batchAt settings texts r.1).map provider := by
  induction batches generalizing results with
  | nil =>
    cases h
    simp
  | cons b rest ih =>
    obtain ⟨vecs, hanswer, h⟩ := bind_eq_ok.mp h
    obtain ⟨resp, hresp, hvecs⟩ := bind_eq_ok.mp hanswer
    obtain ⟨later, hlater, h⟩ := bind_eq_ok.mp h
    cases h
    have hb : (b.1, Except.ok resp) ∈ b :: rest := by
      rw [← hresp]
      exact List.mem_cons_self
    obtain ⟨hkeys, hlaterVectors⟩ := ih (fun i r v hmem => hvectors i r v (List.mem_cons_of_mem b hmem)) hlater
    constructor
    · rw [List.map_cons, List.map_cons, hkeys]
    · intro r hr
      rcases List.mem_cons.mp hr with rfl | hmem
      · exact hvectors b.1 resp vecs hb hvecs
      · exact hlaterVectors r hmem

theorem batches_cover : (List.range (batchCount settings texts)).flatMap (batchAt settings texts) = texts := by
  have hcount : texts.length ≤ batchCount settings texts * batchSize settings := by
    have hdiv := Nat.lt_div_mul_add (batchSize_pos settings) (a := texts.length + batchSize settings - 1)
    have hpos := batchSize_pos settings
    change texts.length ≤ (texts.length + batchSize settings - 1) / batchSize settings * batchSize settings
    omega
  exact (take_windows texts (batchSize settings) (batchCount settings texts)).trans (List.take_of_length_le hcount)

theorem EmbedAttempt.result_eq (hbatches : ProviderBatches settings provider texts attempt) {vecs : List Embedding}
    (h : attempt.result settings texts = .ok vecs) : vecs = texts.map provider := by
  unfold EmbedAttempt.result at h
  split at h
  · rename_i hnil
    cases h
    simp [hnil]
  · obtain ⟨results, hresults, h⟩ := bind_eq_ok.mp h
    obtain ⟨_, _, h⟩ := bind_eq_ok.mp h
    cases h
    obtain ⟨hkeys, hvectors⟩ := batchResults_vectors hbatches.vectors hresults
    have horder : (results.map Prod.fst).Perm (List.range (batchCount settings texts)) := hkeys ▸ hbatches.order
    have hlookup : ∀ i ∈ List.range (batchCount settings texts),
        (results.lookup i).getD [] = (batchAt settings texts i).map provider := by
      intro i hi
      obtain ⟨r, hr, rfl⟩ := List.mem_map.mp (horder.mem_iff.mpr hi)
      rw [lookup_of_mem (horder.nodup_iff.mpr List.nodup_range) hr]
      exact hvectors r hr
    rw [List.flatMap_congr hlookup, ← List.map_flatMap, batches_cover]

/-- `embed_texts_batched` is the map of the provider over the texts. -/
theorem embedTextsBatched_eq (hbatches : ProviderBatches settings provider texts attempt) (u : Uow Usage RequestEvent)
    {vecs : List Embedding} (h : (embedTextsBatched settings completionCost texts attempt u).1 = .ok vecs) :
    vecs = texts.map provider := by
  rw [embedTextsBatched_stages texts attempt u] at h
  exact attempt.result_eq hbatches h

theorem batchResults_returns {batches : List (Nat × LlmOutcome (List Embedding))}
    (h : ∀ b ∈ batches, ∃ resp vecs, b.2 = .ok resp ∧ resp.content = .ok vecs) :
    ∃ results, batchResults batches = .ok results := by
  induction batches with
  | nil => exact ⟨[], rfl⟩
  | cons b rest ih =>
    obtain ⟨resp, vecs, hresp, hvecs⟩ := h b List.mem_cons_self
    obtain ⟨later, hlater⟩ := ih fun b' hb' => h b' (List.mem_cons_of_mem b hb')
    refine ⟨(b.1, vecs) :: later, ?_⟩
    rw [batchResults, hresp, ok_bind, hvecs, ok_bind, hlater, ok_bind]

theorem EmbedAttempt.result_returns
    (h : ∀ b ∈ attempt.batches, ∃ resp vecs, b.2 = .ok resp ∧ resp.content = .ok vecs) (hrun : attempt.interrupted = .ok ()) :
    ∃ vecs, attempt.result settings texts = .ok vecs := by
  unfold EmbedAttempt.result
  split
  · exact ⟨[], rfl⟩
  · obtain ⟨results, hresults⟩ := batchResults_returns h
    rw [hresults, ok_bind, hrun, ok_bind]
    exact ⟨_, rfl⟩

/-! ## The chunks -/

section

variable {env : IngestEnv} {floats : FloatText} {file : ParsedFile} {keys : RowKeys} {docId : Uuid}

theorem embedded_attempt {vecs : List Embedding} (h : env.embedded settings = .ok vecs) :
    ∃ k, (env.attempts k).result settings env.texts = .ok vecs := by
  have hattempt : ∀ left attempt, env.embedResult settings left attempt = .ok vecs →
      ∃ k, (env.attempts k).result settings env.texts = .ok vecs := by
    intro left
    induction left with
    | zero =>
      intro attempt h
      cases h
    | succ left ih =>
      intro attempt h
      unfold IngestEnv.embedResult recovering at h
      split at h
      · rename_i vecs' hresult
        cases h
        exact ⟨attempt, hresult⟩
      · split at h
        · simp only at h
          split at h
          · cases h
          · obtain ⟨_, _, h⟩ := bind_eq_ok.mp h
            exact ih (attempt + 1) h
        · cases h
  unfold IngestEnv.embedded recovering at h
  split at h
  · rename_i vecs' hresult
    cases h
    exact hattempt 3 0 hresult
  · split at h
    · cases h
    · cases h

theorem zipStrict_eq {chunks : List Chunk} {embeddings : List Embedding} {pairs : List (Chunk × Embedding)}
    (h : zipStrict chunks embeddings = .ok pairs) : chunks.length = embeddings.length ∧ pairs = chunks.zip embeddings := by
  unfold zipStrict at h
  split at h
  · cases h
  · split at h
    · cases h
    · cases h
      exact ⟨by omega, rfl⟩

theorem newChunks_eq {prose tables chunks : List Chunk} {embeddings : List Embedding}
    (h : newChunks docId prose tables embeddings = .ok chunks) :
    (prose ++ tables).length = embeddings.length ∧ chunks = embedChunks docId 0 ((prose ++ tables).zip embeddings) := by
  obtain ⟨ps, hps, h⟩ := bind_eq_ok.mp h
  obtain ⟨ts, hts, h⟩ := bind_eq_ok.mp h
  obtain rfl := Except.ok.inj h
  obtain ⟨hprose, rfl⟩ := zipStrict_eq hps
  obtain ⟨htables, rfl⟩ := zipStrict_eq hts
  have hlength : (prose ++ tables).length = embeddings.length := by
    rw [List.length_append, htables, List.length_drop]
    rw [List.length_take] at hprose
    omega
  refine ⟨hlength, ?_⟩
  have hsplit : (prose ++ tables).zip embeddings =
      prose.zip (embeddings.take prose.length) ++ tables.zip (embeddings.drop prose.length) := by
    conv_lhs => rw [← List.take_append_drop prose.length embeddings]
    exact List.zip_append hprose
  have hfirst : (prose.zip (embeddings.take prose.length)).length = prose.length := by
    rw [List.length_zip]
    omega
  rw [hsplit]
  unfold embedChunks
  rw [List.zipIdx_append, List.map_append, hfirst, Nat.zero_add]
  congr 1
  have hshift := @List.map_snd_add_zipIdx_eq_zipIdx _ (tables.zip (embeddings.drop prose.length)) prose.length 0
  rw [Nat.add_zero] at hshift
  rw [← hshift, List.map_map]
  apply List.map_congr_left
  intro p _
  simp [Nat.add_comm]

theorem zipStrict_of_length {chunks : List Chunk} {embeddings : List Embedding} (h : chunks.length = embeddings.length) :
    zipStrict chunks embeddings = .ok (chunks.zip embeddings) := by
  unfold zipStrict
  rw [if_neg (by omega), if_neg (by omega)]

theorem newChunks_of_length {prose tables : List Chunk} {embeddings : List Embedding}
    (h : prose.length + tables.length = embeddings.length) : ∃ chunks, newChunks docId prose tables embeddings = .ok chunks := by
  have hprose : prose.length = (embeddings.take prose.length).length := by
    rw [List.length_take]
    omega
  have htables : tables.length = (embeddings.drop prose.length).length := by
    rw [List.length_drop]
    omega
  unfold newChunks
  rw [zipStrict_of_length hprose, ok_bind, zipStrict_of_length htables, ok_bind]
  exact ⟨_, rfl⟩

theorem newChunks_length {prose tables chunks : List Chunk} {embeddings : List Embedding}
    (h : newChunks docId prose tables embeddings = .ok chunks) : chunks.length = prose.length + tables.length := by
  obtain ⟨hlength, rfl⟩ := newChunks_eq h
  rw [embedChunks, List.length_map, List.length_zipIdx, List.length_zip, ← hlength, min_self, List.length_append]

theorem newChunks_aligned (huniform : file.Uniform) {chunks : List Chunk}
    (h : newChunks docId (file.proseRows keys docId) ((file.tableRows floats keys docId).flatMap ParsedTable.chunks)
      ((file.texts floats).map provider) = .ok chunks) : Aligned floats provider file docId chunks := by
  obtain ⟨hlength, rfl⟩ := newChunks_eq h
  generalize hrows : file.proseRows keys docId ++ (file.tableRows floats keys docId).flatMap ParsedTable.chunks = rows at hlength ⊢
  have htexts : rows.map Chunk.embedText = file.texts floats := by
    rw [← hrows]
    exact contents_embedText huniform
  have hsame : ∀ {α : Type} (f g : Chunk → α), (∀ (c : Chunk) (ord : Nat) (e : Embedding),
      f { c with docId := docId, ord := ord, embedding := e } = g c) →
      (embedChunks docId 0 (rows.zip ((file.texts floats).map provider))).map f = rows.map g := by
    intro α f g hf
    rw [embedChunks, List.map_map]
    calc _ = (rows.zip ((file.texts floats).map provider)).map (g ∘ Prod.fst) := by
          apply zipIdx_map_eq
          intro p _
          exact hf p.1.1 _ p.1.2
      _ = rows.map g := by rw [← List.map_map, List.map_fst_zip (by omega)]
  constructor
  · rw [hsame (fun c => (c.kind, c.text)) (fun c => (c.kind, c.text)) fun _ _ _ => rfl, ← hrows, List.map_append,
      proseRows_shown]
    congr 1
    have htables := congrArg (List.map fun shown : ChunkKind × String × String => (shown.1, shown.2.1))
      (tableRows_chunks floats file keys docId)
    rw [List.map_map, List.map_map] at htables
    exact htables
  · rw [embedChunks, List.map_map, List.length_map, List.length_zipIdx, List.range_eq_range', ← List.zipIdx_map_snd]
    apply List.map_congr_left
    intro p _
    simp
  · exact embedChunks_docId
  · rw [hsame Chunk.embedText Chunk.embedText fun _ _ _ => rfl]
    exact htexts
  · intro c hc
    obtain ⟨p, hp, rfl⟩ := List.mem_map.mp hc
    have hpair := List.fst_mem_of_mem_zipIdx hp
    rw [← htexts, List.map_map, ← List.map_prod_left_eq_zip] at hpair
    obtain ⟨row, _, hrow⟩ := List.mem_map.mp hpair
    simp [← hrow]

end

/-- With a provider that answers every text by its vector, `embed_texts_batched` is the map over the texts, and the
chunks of an upload that is ready carry the vectors of their own texts. -/
theorem embeddings_stay_aligned (sha256Hex : Bytes → String) (settings : Settings) (completionCost : CompletionCost)
    (floats : FloatText) (provider : String → Embedding) :
    (∀ (texts : List String) (attempt : EmbedAttempt), ProviderBatches settings provider texts attempt →
      (∀ b ∈ attempt.batches, ∃ resp vecs, b.2 = .ok resp ∧ resp.content = .ok vecs) → attempt.interrupted = .ok () →
      ∀ u, (embedTextsBatched settings completionCost texts attempt u).1 = .ok (texts.map provider)) ∧
    ∀ (faults : IngestFaults) (env : IngestEnv) (content : FileContent) (file : ParsedFile) (keys : RowKeys) (u : Upload)
      (docId : Uuid) (mime : String) (db : Db) (blobs : Blobs) (resp : IngestResponse) (c : Conn Db Blobs),
      parseFile settings floats content = .ok file →
      (∀ k, ProviderBatches settings provider (file.texts floats) (env.attempts k)) →
      ingestSession sha256Hex settings
        { faults with embedded := { env with texts := file.texts floats }.embedded settings } u
        (file.contents floats keys docId mime) (Conn.fresh db blobs) = (.ok resp, c) →
      resp.status = .ready → resp.duplicateOf = none →
      c.committed = db ∨ ∃ chunks, c.committed.chunks = db.chunks ++ chunks ∧ Aligned floats provider file docId chunks := by
  constructor
  · intro texts attempt hbatches hanswered hrun u
    obtain ⟨vecs, hresult⟩ := attempt.result_returns hanswered hrun
    rw [embedTextsBatched_stages texts attempt u, hresult, attempt.result_eq hbatches hresult]
  · intro faults env content file keys u docId mime db blobs resp c hfile hbatches hrun hstatus hnew
    rcases (ready_stored hrun hstatus hnew).2 with hlost | ⟨embeddings, chunks, hembedded, hchunks, _, hcommitted⟩
    · exact .inl hlost
    · right
      obtain ⟨k, hresult⟩ := embedded_attempt hembedded
      rw [(env.attempts k).result_eq (hbatches k) hresult] at hchunks
      refine ⟨chunks, ?_, newChunks_aligned (parseFile_uniform hfile) hchunks⟩
      rw [hcommitted, applyConfirmedRules_frame]
      rfl

/-- A page with a paragraph and a table. -/
def exitsPage : FileContent :=
  .docling (some { numPages := some 1, items := [
    { label := "text".toList, typeName := "TextItem".toList, text := some "Exits".toList, prov := some ⟨1, none⟩ },
    { label := "table".toList, typeName := "TableItem".toList, text := none, prov := some ⟨1, none⟩,
      frame := some ⟨stringYear.columns noFloats, stringYear.toDict⟩ }] }) []

def exitsFile : ParsedFile where
  prose := [.element ⟨0, "Exits".toList, "Exits".toList, [], 1, 1, none, 1⟩]
  tables := [stringYear.parsed noFloats none (some 1) none]
  usedStructuredChunking := true

def lengthVector (text : String) : Embedding := [(text.length : ℚ)]

/-- Three texts in batches of one, of which the last is answered first. -/
def exitsAttempt : EmbedAttempt where
  batches := [2, 0, 1].map fun i =>
    (i, .ok ⟨none, .ok ((batchAt { embedBatchSize := 1 } (exitsFile.texts noFloats) i).map lengthVector)⟩)
  stragglers := []
  interrupted := .ok ()

def exitsEnv : IngestEnv where
  opening := .ok none
  docId := 9
  storeTables := .ok ()
  texts := []
  attempts := fun _ => exitsAttempt
  slept := fun _ => .ok ()
  timedOut := false
  stragglers := fun _ => []
  storing := .ok ()
  aborted := false
  commit := .durable
  recheck := .ok none
  failureCommit := .durable

theorem exitsPage_parsed : parseFile { embedBatchSize := 1 } noFloats exitsPage = .ok exitsFile := by
  have hloop : chunkGroupFrom 700 100 (elementStream [⟨"Exits".toList, 1, [], none⟩]) 0 0 =
      some [⟨0, "Exits".toList, "Exits".toList, [], 1, 1, none, 1⟩] := by
    rw [chunkGroupFrom]
    rfl
  have hchunks : chunkElements [⟨"Exits".toList, 1, [], none⟩] 700 100 =
      some [⟨0, "Exits".toList, "Exits".toList, [], 1, 1, none, 1⟩] := by
    change chunkGroups 700 100 [[⟨"Exits".toList, 1, [], none⟩]] 0 = _
    simp only [chunkGroups, hloop]
    rfl
  exact @parseFile_docling { embedBatchSize := 1 } noFloats _ [] ⟨[⟨"Exits".toList, 1, [], none⟩], exitsFile.tables, some 1⟩
    _ rfl hchunks

theorem embeddings_stay_aligned_exits :
    ∃ chunks, (ingestSession pngDigest { embedBatchSize := 1 }
        { timedOutFaults with
          embedded := { exitsEnv with texts := exitsFile.texts noFloats }.embedded { embedBatchSize := 1 } }
        pngUpload (exitsFile.contents noFloats ⟨id, id, id, id⟩ 9 "application/pdf")
        (Conn.fresh Db.empty fun _ => none)).2.committed.chunks = Db.empty.chunks ++ chunks ∧
      Aligned noFloats lengthVector exitsFile 9 chunks := by
  have hbatches : ∀ k, ProviderBatches { embedBatchSize := 1 } lengthVector (exitsFile.texts noFloats) (exitsEnv.attempts k) := by
    intro k
    constructor
    · change ([2, 0, 1] : List Nat).Perm (List.range 3)
      decide
    · intro i resp vecs hmem hvecs
      obtain ⟨j, _, heq⟩ := List.mem_map.mp hmem
      cases heq
      cases hvecs
      rfl
  have haligned := (embeddings_stay_aligned pngDigest { embedBatchSize := 1 } (fun _ _ _ => .ok none) noFloats lengthVector).2
    timedOutFaults exitsEnv exitsPage exitsFile ⟨id, id, id, id⟩ pngUpload 9 "application/pdf" Db.empty (fun _ => none)
    ⟨9, .ready, none⟩ _ exitsPage_parsed hbatches (Prod.ext rfl rfl) rfl rfl
  refine haligned.resolve_left ?_
  intro hlost
  have hdocuments := congrArg (fun db : Db => db.documents.length) hlost
  cases hdocuments

end ProRag
