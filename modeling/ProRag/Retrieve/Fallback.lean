import ProRag.Ingest.Session
import ProRag.Retrieve.Fusion
import ProRag.Retrieve.Noninterference

/-!
# The arms on one session

`gather_hits` runs its arms one after the other in one transaction.  `keyword_search` catches a BM25 query
that fails and runs the full-text search in the same transaction, whatever state the failure has left it in.
-/

namespace ProRag

open Framework

/-- What a failing BM25 query raises, and the state of the transaction behind it. -/
structure Bm25Fault where
  exc : PyError
  leaves : TxState

/-- The exception is caught and the transaction is still alive. -/
def Bm25Fault.Harmless (f : Bm25Fault) : Prop := f.exc.isException = true ∧ f.leaves = .live

/-- A session, beside the probe's result in `_BM25_AVAILABLE`. -/
abbrev SearchTx := Sql Db (Option Bool) PyError

section

variable (settings : Settings) (scorer : Scorer)

/-- `_bm25_available(session)`. -/
def bm25AvailableOn : SearchTx Bool := fun c =>
  match c.outside with
  | some available => (.ok available, c)
  | none => (Sql.select sessionRefusal (fun _ => scorer.bm25Available) >>= fun available =>
      Sql.effect (fun _ => some available) >>= fun _ => pure available : SearchTx Bool) c

def vectorSearchOn (queryEmbedding : Embedding) (k : Nat) (user : Option User) : SearchTx (List Hit) :=
  Sql.select sessionRefusal fun db => vectorSearch scorer db queryEmbedding k user

def bm25SearchOn (fault : Option Bm25Fault) (query : String) (k : Nat) (user : Option User) : SearchTx (List Hit) :=
  Sql.statement sessionRefusal (fault.elim .aborted Bm25Fault.leaves) (fault.map Bm25Fault.exc) fun db =>
    .ok (bm25Search scorer db query k user, db)

def ftsSearchOn (query : String) (k : Nat) (user : Option User) : SearchTx (List Hit) :=
  Sql.select sessionRefusal fun db => ftsSearch scorer db query k user

/-- `keyword_search(session, query, k, user)`. -/
def keywordSearchOn (fault : Option Bm25Fault) (query : String) (k : Nat) (user : Option User) : SearchTx (List Hit) :=
  bm25AvailableOn scorer >>= fun available =>
    if available then
      Sql.tryCatch PyError.isException (bm25SearchOn scorer fault query k user) fun _ => ftsSearchOn scorer query k user
    else ftsSearchOn scorer query k user

def structuredSearchOn (query : String) (k : Nat) (user : Option User) : SearchTx (List Hit) :=
  Sql.select sessionRefusal fun db => structuredSearch scorer db query k [] user

/-- `gather_hits(session, plan_result, embeddings, user)`; `faults` says how the BM25 query of each keyword search ends. -/
def gatherHitsOn (faults : Nat → Option Bm25Fault) (plan : QueryPlan) (embeddings : List Embedding) (user : Option User) :
    SearchTx Gathered :=
  let queries := [plan.queries.1, plan.queries.2]
  Sql.collect (embeddings.map fun e => vectorSearchOn scorer e settings.rerankTopN user) >>= fun vectorLists =>
    Sql.collect (queries.zipIdx.map fun q => keywordSearchOn scorer (faults q.2) q.1 settings.rerankTopN user) >>= fun ftsLists =>
      (if plan.mode = .table then Sql.collect (queries.map fun q => structuredSearchOn scorer q settings.rerankTopN user)
        else pure []) >>= fun structuredLists =>
        let weights := List.replicate vectorLists.length 1 ++ List.replicate ftsLists.length 1 ++
          List.replicate structuredLists.length settings.structuredWeight
        Sql.await (rrfFuse (vectorLists ++ ftsLists ++ structuredLists) weights) >>= fun fused =>
          pure ⟨queries, vectorLists, ftsLists, structuredLists, fused⟩

end

/-- A live transaction over `db`, with the index known or found to be `available`. -/
structure Searching (scorer : Scorer) (db : Db) (available : Bool) (c : Conn Db (Option Bool)) : Prop where
  live : c.state = .live
  view : c.view = db
  cached : c.outside.getD scorer.bm25Available = available

/-- How a keyword search ends, in a live transaction. -/
def keywordOutcome (scorer : Scorer) (db : Db) (available : Bool) (fault : Option Bm25Fault) (query : String) (k : Nat)
    (user : Option User) : Except PyError (List Hit) :=
  match available, fault with
  | false, _ => .ok (ftsSearch scorer db query k user)
  | true, none => .ok (bm25Search scorer db query k user)
  | true, some f =>
    if f.exc.isException = true ∧ f.leaves = .live then .ok (ftsSearch scorer db query k user) else .error f.exc

variable {settings : Settings} {scorer : Scorer} {db : Db} {available : Bool} {faults : Nat → Option Bm25Fault}
  {plan : QueryPlan} {embeddings : List Embedding} {user : Option User}

theorem select_ends {α : Type} (f : Db → α) :
    EndsAs (Searching scorer db available) (Sql.select sessionRefusal f : SearchTx α) (.ok (f db)) := by
  apply EndsAs.select
  intro c hc
  exact ⟨hc.live, by rw [hc.view]⟩

theorem bm25AvailableOn_ends : EndsAs (Searching scorer db available) (bm25AvailableOn scorer) (.ok available) := by
  intro c hc
  left
  have hcached := hc.cached
  cases houtside : c.outside with
  | some known =>
    rw [houtside] at hcached
    obtain rfl : known = available := hcached
    refine ⟨known, c, rfl, ?_, hc⟩
    simp [bm25AvailableOn, houtside]
  | none =>
    rw [houtside] at hcached
    obtain rfl : scorer.bm25Available = available := hcached
    refine ⟨_, { c with outside := some scorer.bm25Available }, rfl, ?_, hc.live, hc.view, rfl⟩
    simp only [bm25AvailableOn, houtside]
    exact Sql.bind_of_ok (Sql.select_live hc.live)

theorem keywordSearchOn_ends (fault : Option Bm25Fault) (query : String) (k : Nat) (user : Option User) :
    EndsAs (Searching scorer db available) (keywordSearchOn scorer fault query k user)
      (keywordOutcome scorer db available fault query k user) := by
  apply EndsAs.ok_bind bm25AvailableOn_ends
  cases available with
  | false =>
    simp only [Bool.false_eq_true, ↓reduceIte]
    exact select_ends fun db => ftsSearch scorer db query k user
  | true =>
    intro c hc
    cases fault with
    | none =>
      have hbm25 : bm25SearchOn scorer none query k user c = (.ok (bm25Search scorer db query k user), c) :=
        Sql.statement_of_ok hc.live (by rw [hc.view])
      refine Or.inl ⟨_, c, rfl, ?_, hc⟩
      simp only [↓reduceIte, Sql.tryCatch, hbm25]
    | some f =>
      have hbm25 : bm25SearchOn scorer (some f) query k user c = (.error f.exc, { c with state := f.leaves }) := by
        unfold bm25SearchOn Sql.statement
        simp [hc.live]
      simp only [keywordOutcome, ↓reduceIte, Sql.tryCatch, hbm25]
      by_cases hcaught : f.exc.isException = true
      · by_cases halive : f.leaves = .live
        · have hsame : { c with state := f.leaves } = c := by rw [halive, ← hc.live]
          have hfts : ftsSearchOn scorer query k user c = (.ok (ftsSearch scorer db query k user), c) := by
            rw [← hc.view]
            exact Sql.select_live hc.live
          refine Or.inl ⟨_, c, if_pos ⟨hcaught, halive⟩, ?_, hc⟩
          rw [if_pos hcaught, hsame, hfts]
        · obtain ⟨e, hrefused⟩ := @Sql.select_refused Db (Option Bool) PyError (List Hit) sessionRefusal
            { c with state := f.leaves } (fun db => ftsSearch scorer db query k user) halive
          refine Or.inr ⟨f.exc, e, { c with state := f.leaves }, if_neg fun h => halive h.2, ?_⟩
          rw [if_pos hcaught]
          exact hrefused
      · refine Or.inr ⟨f.exc, f.exc, { c with state := f.leaves }, if_neg fun h => hcaught h.1, ?_⟩
        rw [if_neg hcaught]

/-- What `gather_hits` makes of the outcomes of its keyword searches. -/
def gatherFrom (settings : Settings) (scorer : Scorer) (db : Db) (plan : QueryPlan) (embeddings : List Embedding)
    (user : Option User) (keyword : String × Nat → Except PyError (List Hit)) : Except PyError Gathered :=
  let queries := [plan.queries.1, plan.queries.2]
  let vectorLists := embeddings.map fun e => vectorSearch scorer db e settings.rerankTopN user
  (queries.zipIdx.mapM keyword) >>= fun ftsLists =>
    let structuredLists :=
      if plan.mode = .table then queries.map fun q => structuredSearch scorer db q settings.rerankTopN [] user else []
    let weights := List.replicate vectorLists.length 1 ++ List.replicate ftsLists.length 1 ++
      List.replicate structuredLists.length settings.structuredWeight
    rrfFuse (vectorLists ++ ftsLists ++ structuredLists) weights >>= fun fused =>
      .ok ⟨queries, vectorLists, ftsLists, structuredLists, fused⟩

theorem mapM_pure {α β : Type} (f : α → β) (xs : List α) :
    (xs.mapM fun x => (.ok (f x) : Except PyError β)) = .ok (xs.map f) := by
  induction xs with
  | nil => rfl
  | cons x xs ih =>
    rw [List.mapM_cons, ih]
    rfl

theorem gatherHitsOn_ends {keyword : String × Nat → Except PyError (List Hit)}
    (hkeyword : ∀ q ∈ [plan.queries.1, plan.queries.2].zipIdx, EndsAs (Searching scorer db available)
      (keywordSearchOn scorer (faults q.2) q.1 settings.rerankTopN user) (keyword q)) :
    EndsAs (Searching scorer db available) (gatherHitsOn settings scorer faults plan embeddings user)
      (gatherFrom settings scorer db plan embeddings user keyword) := by
  have hvector : EndsAs (Searching scorer db available)
      (Sql.collect (embeddings.map fun e => vectorSearchOn scorer e settings.rerankTopN user))
      (.ok (embeddings.map fun e => vectorSearch scorer db e settings.rerankTopN user)) := by
    rw [← mapM_pure]
    apply EndsAs.collect
    intro e _
    exact select_ends _
  have hstructured : EndsAs (Searching scorer db available)
      (if plan.mode = .table then Sql.collect ([plan.queries.1, plan.queries.2].map fun q =>
          structuredSearchOn scorer q settings.rerankTopN user)
        else pure [])
      (.ok (if plan.mode = .table then [plan.queries.1, plan.queries.2].map fun q =>
          structuredSearch scorer db q settings.rerankTopN [] user
        else [])) := by
    split
    · rw [← mapM_pure]
      apply EndsAs.collect
      intro q _
      exact select_ends _
    · exact EndsAs.pure []
  apply EndsAs.ok_bind hvector
  apply EndsAs.bind (EndsAs.collect hkeyword)
  intro ftsLists
  apply EndsAs.ok_bind hstructured
  apply EndsAs.bind (EndsAs.await _)
  intro fused
  exact EndsAs.pure _

/-- The two ways in which a BM25 query of `keywordSearch` fails. -/
def Bm25Fault.kind (f : Bm25Fault) : Bm25Failure :=
  if f.leaves = .live then .client else .server

/-- On a session, `gather_hits` ends as `gatherHits` does. -/
theorem gatherHitsOn_refines
    (hkind : ∀ q ∈ [plan.queries.1, plan.queries.2].zipIdx, scorer.bm25Fails q.1 = (faults q.2).map Bm25Fault.kind)
    (hcaught : ∀ i f, faults i = some f → f.exc.isException = true) :
    EndsAs (Searching scorer db scorer.bm25Available) (gatherHitsOn settings scorer faults plan embeddings user)
      (gatherHits settings scorer db plan embeddings user) := by
  have hgather : gatherHits settings scorer db plan embeddings user =
      gatherFrom settings scorer db plan embeddings user fun q => keywordSearch scorer db q.1 settings.rerankTopN user := rfl
  rw [hgather]
  apply gatherHitsOn_ends
  intro q hq
  apply (keywordSearchOn_ends (faults q.2) q.1 settings.rerankTopN user).of_toOption_eq
  have hq := hkind q hq
  unfold keywordOutcome keywordSearch
  cases scorer.bm25Available with
  | false => rfl
  | true =>
    cases hfault : faults q.2 with
    | none => simp [hq, hfault]
    | some f =>
      have hexc := hcaught q.2 f hfault
      by_cases halive : f.leaves = .live
      · simp [hq, hfault, hexc, halive, Bm25Fault.kind]
      · simp [hq, hfault, halive, Bm25Fault.kind, Except.toOption]

/-- Every BM25 query that fails is answered as the full-text search is on a fresh transaction, and every arm goes through. -/
structure FallsBack (settings : Settings) (scorer : Scorer) (faults : Nat → Option Bm25Fault) (plan : QueryPlan)
    (embeddings : List Embedding) (user : Option User) (c : Conn Db (Option Bool)) : Prop where
  keyword : ∀ q ∈ [plan.queries.1, plan.queries.2].zipIdx, ∀ f, faults q.2 = some f → ∀ k,
    (keywordSearchOn scorer (some f) q.1 k user c).1 = (ftsSearchOn scorer q.1 k user c).1
  arms : ∃ gathered, (gatherHitsOn settings scorer faults plan embeddings user c).1 = .ok gathered ∧
    ∀ q ∈ [plan.queries.1, plan.queries.2].zipIdx, ∀ f, faults q.2 = some f → ∃ hits,
      gathered.ftsLists[q.2]? = some hits ∧ (ftsSearchOn scorer q.1 settings.rerankTopN user c).1 = .ok hits

theorem searching_fresh (scorer : Scorer) (db : Db) (cache : Option Bool) :
    Searching scorer db (cache.getD scorer.bm25Available) (Conn.fresh db cache) := ⟨rfl, rfl, rfl⟩

theorem keywordOutcome_eq_ok {f : Bm25Fault} {query : String} {k : Nat} {hits : List Hit} :
    keywordOutcome scorer db available (some f) query k user = .ok hits ↔
      hits = ftsSearch scorer db query k user ∧ (available = true → f.Harmless) := by
  cases available with
  | false => simp [keywordOutcome, eq_comm]
  | true =>
    simp only [keywordOutcome, Bm25Fault.Harmless, true_imp_iff]
    split
    · rename_i hharmless
      simp [hharmless, eq_comm]
    · rename_i hharmful
      simp [hharmful]

theorem keywordOutcome_answers {fault : Option Bm25Fault} (h : available = true → ∀ f, fault = some f → f.Harmless)
    (query : String) (k : Nat) : ∃ hits, keywordOutcome scorer db available fault query k user = .ok hits := by
  cases fault with
  | none => cases available <;> exact ⟨_, rfl⟩
  | some f => exact ⟨_, keywordOutcome_eq_ok.mpr ⟨rfl, fun ha => h ha f rfl⟩⟩

theorem gatherFrom_answers {keyword : String × Nat → Except PyError (List Hit)}
    (h : ∀ q ∈ [plan.queries.1, plan.queries.2].zipIdx, ∃ hits, keyword q = .ok hits) :
    ∃ gathered, gatherFrom settings scorer db plan embeddings user keyword = .ok gathered ∧
      ∀ q ∈ [plan.queries.1, plan.queries.2].zipIdx, ∃ hits, gathered.ftsLists[q.2]? = some hits ∧ keyword q = .ok hits := by
  simp only [List.zipIdx_cons, List.zipIdx_nil, List.forall_mem_cons] at h ⊢
  obtain ⟨⟨first, hfirst⟩, ⟨second, hsecond⟩, _⟩ := h
  have hlists : [plan.queries.1, plan.queries.2].zipIdx.mapM keyword = .ok [first, second] := by
    simp only [List.zipIdx_cons, List.zipIdx_nil, List.mapM_cons, List.mapM_nil, hfirst, hsecond, ok_bind]
    rfl
  unfold gatherFrom
  simp only [hlists, ok_bind]
  rw [rrfFuse_eq]
  · exact ⟨_, rfl, ⟨first, rfl, hfirst⟩, ⟨second, rfl, hsecond⟩, nofun⟩
  · simp [Nat.add_assoc]

/-- The fallback answers when the failure is caught and leaves the transaction alive, and only then. -/
theorem bm25_falls_back_iff (settings : Settings) (scorer : Scorer) (faults : Nat → Option Bm25Fault) (plan : QueryPlan)
    (embeddings : List Embedding) (user : Option User) (db : Db) (cache : Option Bool) :
    FallsBack settings scorer faults plan embeddings user (Conn.fresh db cache) ↔
      (cache.getD scorer.bm25Available = true → ∀ i < 2, ∀ f, faults i = some f → f.Harmless) := by
  have hstart := searching_fresh scorer db cache
  constructor
  · intro h havailable i hi f hf
    have hquery : ∃ query, (query, i) ∈ [plan.queries.1, plan.queries.2].zipIdx := by
      have hi : i = 0 ∨ i = 1 := by omega
      rcases hi with rfl | rfl
      · exact ⟨plan.queries.1, by simp⟩
      · exact ⟨plan.queries.2, by simp⟩
    obtain ⟨query, hquery⟩ := hquery
    have hsame := h.keyword (query, i) hquery f hf settings.rerankTopN
    have houtcome := (keywordSearchOn_ends (some f) query settings.rerankTopN user).eq_ok hstart hsame
    exact (keywordOutcome_eq_ok.mp houtcome).2 havailable
  · intro h
    have hharmless : ∀ q ∈ [plan.queries.1, plan.queries.2].zipIdx,
        cache.getD scorer.bm25Available = true → ∀ f, faults q.2 = some f → f.Harmless := by
      intro q hq havailable
      exact h havailable q.2 (by simpa using List.snd_lt_of_mem_zipIdx hq)
    constructor
    · intro q hq f hf k
      have houtcome := (@keywordOutcome_eq_ok scorer db (cache.getD scorer.bm25Available) user f q.1 k _).mpr
        ⟨rfl, fun havailable => hharmless q hq havailable f hf⟩
      obtain ⟨c', hrun, _⟩ := (keywordSearchOn_ends (some f) q.1 k user).answer houtcome hstart
      rw [hrun]
      rfl
    · obtain ⟨gathered, hgathered, hlists⟩ := @gatherFrom_answers settings scorer db plan embeddings user
        (fun q => keywordOutcome scorer db (cache.getD scorer.bm25Available) (faults q.2) q.1 settings.rerankTopN user)
        fun q hq => keywordOutcome_answers (hharmless q hq) q.1 settings.rerankTopN
      have hends := @gatherHitsOn_ends settings scorer db (cache.getD scorer.bm25Available) faults plan embeddings user _
        fun q _ => keywordSearchOn_ends (faults q.2) q.1 settings.rerankTopN user
      obtain ⟨c', hrun, _⟩ := hends.answer hgathered hstart
      refine ⟨gathered, by rw [hrun], ?_⟩
      intro q hq f hf
      obtain ⟨hits, hlist, houtcome⟩ := hlists q hq
      rw [hf] at houtcome
      refine ⟨hits, hlist, ?_⟩
      rw [(keywordOutcome_eq_ok.mp houtcome).1]
      rfl

def indexScorer : Scorer := { lengthScorer with bm25Available := true }

/-- A query that the index cannot parse. -/
def parseFault : Bm25Fault := ⟨⟨"InternalError", "could not parse query"⟩, .aborted⟩

theorem keywordSearchOn_refused :
    (keywordSearchOn indexScorer (some parseFault) "drill (exit" 50 none (Conn.fresh publicNote none)).1 =
        .error ⟨"DBAPIError", "InFailedSQLTransactionError"⟩ ∧
      (ftsSearchOn indexScorer "drill (exit" 50 none (Conn.fresh publicNote none)).1.toOption.map (List.map Hit.chunkId) =
        some [1] ∧
      ¬ FallsBack {} indexScorer (fun _ => some parseFault) ⟨true, ("drill (exit", "muster"), .default⟩ [[]] none
        (Conn.fresh publicNote none) := by
  refine ⟨rfl, by decide +kernel, fun h => ?_⟩
  obtain ⟨gathered, hgathered, _⟩ := h.arms
  cases hgathered

end ProRag
