import ProRag.Retrieve.Noninterference
import ProRag.Retrieve.Printings
import ProRag.Retrieve.Router

/-!
# `GET /search` beside `retrieve`

Both run the same planner, arms, fusion and reranker; the arguments they give to the crop differ in one.
-/

namespace ProRag

open Framework

/-- The settings with other values for the crop's arguments but the cap. -/
def Settings.withCrop (settings : Settings) (minDocs maxDocs : Nat) (scoreFloor : ℚ) (tokenBudget : Nat) : Settings :=
  { settings with
    cropMinDocs := minDocs
    cropMaxDocs := maxDocs
    cropScoreFloor := scoreFloor
    cropTokenBudget := tokenBudget }

variable {settings : Settings} {normalizeTitle : String → String}

theorem cropContext_caps (p : CropParams) {cap : Nat} {hits : List Hit}
    (h : (hitKeys normalizeTitle).CapsAgree p.maxChunksPerDoc cap (sortByScore hits)) :
    cropContext normalizeTitle p hits = cropContext normalizeTitle { p with maxChunksPerDoc := cap } hits := by
  have hkept : (hitKeys normalizeTitle).deduped p.maxChunksPerDoc hits = (hitKeys normalizeTitle).deduped cap hits := h.scan
  rw [cropContext_eq_crop, cropContext_eq_crop]
  exact congrArg (fun kept => (hitKeys normalizeTitle).budgeted p.minDocs p.tokenBudget 0 0
    ((hitKeys normalizeTitle).clamp p.args ((hitKeys normalizeTitle).pool p.args kept))) hkept

theorem searchCrop_iff (settings : Settings) (normalizeTitle : String → String) (hits : List Hit) :
    (∀ minDocs maxDocs scoreFloor tokenBudget,
      cropContext normalizeTitle (settings.withCrop minDocs maxDocs scoreFloor tokenBudget).searchCropParams hits =
        cropContext normalizeTitle (settings.withCrop minDocs maxDocs scoreFloor tokenBudget).cropParams hits) ↔
      (hitKeys normalizeTitle).CapsAgree 3 settings.cropMaxChunksPerDoc (sortByScore hits) := by
  constructor
  · intro h
    have hall := h (hits.length + 1) 0 0 0
    rw [cropContext_eq_crop, cropContext_eq_crop, CropKeys.crop_deduped _ _ (Nat.lt_succ_self _),
      CropKeys.crop_deduped _ _ (Nat.lt_succ_self _)] at hall
    exact CropKeys.capsAgree_iff.mpr hall
  · intro h minDocs maxDocs scoreFloor tokenBudget
    exact cropContext_caps (settings.withCrop minDocs maxDocs scoreFloor tokenBudget).searchCropParams h

section

variable {completionCost : CompletionCost} {env : RetrievalEnv} {message q : String} {k : Int} {user : Option User}
  {plan : QueryPlan} {gathered : Gathered}

def rerankedHits (settings : Settings) (env : QueryEnv) (plan : QueryPlan) (gathered : Gathered) : List Hit :=
  rerank settings env.rerankApi plan.queries.1 (gathered.fused.take settings.rerankTopN)

theorem search_answer (hgathered : env.toQueryEnv.gathered settings q user = .ok (plan, gathered))
    (u : Uow Usage RequestEvent) : (search settings completionCost env.toQueryEnv q k user u).1 =
      .ok (searchResponse settings env.toQueryEnv k plan gathered) := by
  unfold search
  rw [Tx.bind_apply, planAndGather_stages u, hgathered]
  rfl

theorem retrieve_answer (hrefined : env.refined settings message = .ok q)
    (hgathered : env.toQueryEnv.gathered settings q user = .ok (plan, gathered)) (hcommit : env.commit.answer = .ok ())
    (u : Uow Usage RequestEvent) : (retrieve settings completionCost env message user u).1 =
      .ok (cropContext env.normalizeTitle settings.cropParams (rerankedHits settings env.toQueryEnv plan gathered), q) := by
  have hfound : env.found settings message user = .ok ((plan, gathered), q) := by
    unfold RetrievalEnv.found
    rw [hrefined]
    change (env.toQueryEnv.gathered settings q user >>= fun g => .ok (g, q)) = _
    rw [hgathered]
    rfl
  rw [retrieve_spec]
  change env.retrieved settings message user = _
  unfold RetrievalEnv.retrieved
  rw [hfound, hcommit]
  rfl

end

/-- The two surfaces show the same, whatever the other arguments of the crop, exactly when no printing among the
reranked hits has more chunks than either of the two caps admits, or the setting is the default that the crop has. -/
theorem search_shows_retrieved_iff (settings : Settings) (completionCost : CompletionCost) (env : RetrievalEnv) (q : String)
    (k : Int) (user : Option User) (u u' : Uow Usage RequestEvent) {plan : QueryPlan} {gathered : Gathered}
    (hrefined : env.refined settings q = .ok q)
    (hgathered : env.toQueryEnv.gathered settings q user = .ok (plan, gathered)) (hcommit : env.commit.answer = .ok ()) :
    (∀ minDocs maxDocs scoreFloor tokenBudget, ∃ resp,
      (search (settings.withCrop minDocs maxDocs scoreFloor tokenBudget) completionCost env.toQueryEnv q k user u).1 = .ok resp ∧
        (retrieve (settings.withCrop minDocs maxDocs scoreFloor tokenBudget) completionCost env q user u').1 =
          .ok (resp.cropped, q)) ↔
      (hitKeys env.normalizeTitle).CapsAgree 3 settings.cropMaxChunksPerDoc
        (sortByScore (rerankedHits settings env.toQueryEnv plan gathered)) := by
  rw [← searchCrop_iff]
  have hrefined' : ∀ minDocs maxDocs scoreFloor tokenBudget,
      env.refined (settings.withCrop minDocs maxDocs scoreFloor tokenBudget) q = .ok q := fun _ _ _ _ => hrefined
  have hgathered' : ∀ minDocs maxDocs scoreFloor tokenBudget,
      env.toQueryEnv.gathered (settings.withCrop minDocs maxDocs scoreFloor tokenBudget) q user = .ok (plan, gathered) :=
    fun _ _ _ _ => hgathered
  have hsearch : ∀ minDocs maxDocs scoreFloor tokenBudget,
      (search (settings.withCrop minDocs maxDocs scoreFloor tokenBudget) completionCost env.toQueryEnv q k user u).1 =
        .ok (searchResponse (settings.withCrop minDocs maxDocs scoreFloor tokenBudget) env.toQueryEnv k plan gathered) :=
    fun minDocs maxDocs scoreFloor tokenBudget => search_answer (hgathered' minDocs maxDocs scoreFloor tokenBudget) u
  have hretrieve : ∀ minDocs maxDocs scoreFloor tokenBudget,
      (retrieve (settings.withCrop minDocs maxDocs scoreFloor tokenBudget) completionCost env q user u').1 =
        .ok (cropContext env.normalizeTitle (settings.withCrop minDocs maxDocs scoreFloor tokenBudget).cropParams
          (rerankedHits settings env.toQueryEnv plan gathered), q) :=
    fun minDocs maxDocs scoreFloor tokenBudget =>
      retrieve_answer (hrefined' minDocs maxDocs scoreFloor tokenBudget) (hgathered' minDocs maxDocs scoreFloor tokenBudget)
        hcommit u'
  constructor
  · intro h minDocs maxDocs scoreFloor tokenBudget
    obtain ⟨resp, hresp, hhits⟩ := h minDocs maxDocs scoreFloor tokenBudget
    rw [hsearch] at hresp
    rw [hretrieve] at hhits
    cases hresp
    exact (Prod.mk.inj (Except.ok.inj hhits)).1.symm
  · intro h minDocs maxDocs scoreFloor tokenBudget
    refine ⟨_, hsearch minDocs maxDocs scoreFloor tokenBudget, ?_⟩
    rw [hretrieve, ← h]
    rfl

/-- A manual of four paragraphs, longer and longer. -/
def manual : Db :=
  let rows : IngestRows := ⟨3, "text/plain", [paragraph 1 "muster", paragraph 2 "at noon", paragraph 3 "fire drill",
    paragraph 4 "fire drills"], [], []⟩
  Db.empty.storeDocument (newDocument "5e1f" "manual.txt" "default" rows) rows

/-- Planner and prefill time out, and the reranker is down. -/
def manualSearch : RetrievalEnv where
  planner := .error ⟨"Timeout", ""⟩
  json := ⟨fun _ => .error ⟨"JSONDecodeError", ""⟩, fun _ => ""⟩
  embed := .ok ⟨some (8, 0), .ok [[]]⟩
  database := .ok (lengthScorer, manual)
  rerankApi := fun _ _ => none
  normalizeTitle := id
  reranking := .ok ()
  prefill := .error ⟨"Timeout", ""⟩
  commit := .durable

def emptyUow : Uow Usage RequestEvent := ⟨[], [], []⟩

theorem search_shows_retrieved_manual :
    manualSearch.refined {} "fire drill" = .ok "fire drill" ∧ ∀ minDocs maxDocs scoreFloor tokenBudget, ∃ resp,
      (search (Settings.withCrop {} minDocs maxDocs scoreFloor tokenBudget) (fun _ _ _ => .ok none) manualSearch.toQueryEnv
        "fire drill" 5 none emptyUow).1 = .ok resp ∧
      (retrieve (Settings.withCrop {} minDocs maxDocs scoreFloor tokenBudget) (fun _ _ _ => .ok none) manualSearch
        "fire drill" none emptyUow).1 = .ok (resp.cropped, "fire drill") := by
  have hgathered : ∃ g, manualSearch.toQueryEnv.gathered {} "fire drill" none = .ok g := ⟨_, rfl⟩
  obtain ⟨⟨plan, gathered⟩, hgathered⟩ := hgathered
  exact ⟨rfl, (search_shows_retrieved_iff {} (fun _ _ _ => .ok none) manualSearch "fire drill" 5 none emptyUow emptyUow rfl
    hgathered rfl).mpr (Or.inl rfl)⟩

/-- With a cap of one chunk the chat gets one, and the debug endpoint shows three. -/
theorem search_shows_more :
    ((search { cropMaxChunksPerDoc := 1 } (fun _ _ _ => .ok none) manualSearch.toQueryEnv "fire drill" 5 none
      emptyUow).1.toOption.map fun resp => resp.cropped.map Hit.chunkId) = some [4, 3, 2] ∧
    ((retrieve { cropMaxChunksPerDoc := 1 } (fun _ _ _ => .ok none) manualSearch "fire drill" none
      emptyUow).1.toOption.map fun r => (r.1.map Hit.chunkId, r.2)) = some ([4], "fire drill") := by
  decide +kernel

end ProRag
