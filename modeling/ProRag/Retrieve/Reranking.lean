import Mathlib.Data.List.GetD
import ProRag.Framework.Results
import ProRag.Retrieve.Fusion

/-!
# What the reranker returns

The flatness guard, and `_rerank_api` over any body the provider may answer with.
-/

namespace ProRag

open Framework

section

variable {settings : Settings} {hits guarded : List Hit} {inputScores : List ℚ}

theorem flatGuard_eq_some (h : flatGuard settings hits inputScores = some guarded) :
    guarded = (hits.zip (inputScores.insertionSort fun a b => b ≤ a)).map fun p => { p.1 with score := p.2 } := by
  simp only [flatGuard] at h
  split at h
  · split at h
    · exact (Option.some.inj h).symm
    · cases h
  · cases h

theorem flatGuard_isSome (hlen : hits.length = inputScores.length) :
    (flatGuard settings hits inputScores).isSome ↔ 2 ≤ hits.length ∧ ∃ hi lo, NthLargest inputScores 1 hi ∧
      NthLargest inputScores (min 5 hits.length) lo ∧ hi - lo < settings.rerankFlatSpread := by
  generalize hordered : inputScores.insertionSort (fun a b => b ≤ a) = ordered
  have hperm : ordered.Perm inputScores := hordered ▸ List.perm_insertionSort _ inputScores
  have hsorted : ordered.Pairwise fun a b => b ≤ a := hordered ▸ List.pairwise_insertionSort _ inputScores
  have hlength : ordered.length = hits.length := hperm.length_eq.trans hlen.symm
  simp only [flatGuard, hordered]
  by_cases htwo : 2 ≤ hits.length
  · have hfirst : 0 < ordered.length := by omega
    have hlast : min 5 hits.length - 1 < ordered.length := by omega
    have hhead : (ordered.take 5).head? = some ordered[0] := by
      rw [List.head?_take, if_neg (by omega), List.head?_eq_getElem?, List.getElem?_eq_getElem hfirst]
    have hend : (ordered.take 5).getLast? = some ordered[min 5 hits.length - 1] := by
      rw [List.getLast?_eq_getElem?, List.length_take, hlength, List.getElem?_take_of_lt (by omega),
        List.getElem?_eq_getElem hlast]
    have hhi : NthLargest inputScores 1 ordered[0] := nthLargest_getElem hperm hsorted 0 hfirst
    have hlo : NthLargest inputScores (min 5 hits.length) ordered[min 5 hits.length - 1] := by
      have h := nthLargest_getElem hperm hsorted (min 5 hits.length - 1) hlast
      rwa [show min 5 hits.length - 1 + 1 = min 5 hits.length by omega] at h
    have htop : 2 ≤ (ordered.take 5).length := by
      rw [List.length_take]
      omega
    rw [hhead, hend]
    simp only [htop, htwo, true_and]
    constructor
    · intro h
      refine ⟨_, _, hhi, hlo, ?_⟩
      by_contra hspread
      rw [if_neg hspread] at h
      cases h
    · intro h
      obtain ⟨hi, lo, hhi', hlo', hspread⟩ := h
      rw [hhi'.unique hhi, hlo'.unique hlo] at hspread
      rw [if_pos hspread]
      rfl
  · have htop : ¬2 ≤ (ordered.take 5).length := by
      rw [List.length_take]
      omega
    simp only [htop, htwo, false_and, if_false, iff_false]
    split
    · simp
    · simp

theorem flatGuard_scores (hlen : hits.length = inputScores.length) (h : flatGuard settings hits inputScores = some guarded) :
    guarded.map Hit.score = inputScores.insertionSort fun a b => b ≤ a := by
  have hlength : (inputScores.insertionSort fun a b => b ≤ a).length ≤ hits.length := by
    rw [List.length_insertionSort]
    exact hlen.ge
  rw [flatGuard_eq_some h, List.map_map]
  exact List.map_snd_zip hlength

theorem flatGuard_fields (hlen : hits.length = inputScores.length) (h : flatGuard settings hits inputScores = some guarded) :
    List.Forall₂ (fun g hit => g = { hit with score := g.score }) guarded hits := by
  have hlength : hits.length = (inputScores.insertionSort fun a b => b ≤ a).length := by
    rw [List.length_insertionSort, hlen]
  rw [flatGuard_eq_some h]
  generalize inputScores.insertionSort (fun a b => b ≤ a) = ordered at hlength
  clear h hlen
  induction hits generalizing ordered with
  | nil => exact List.Forall₂.nil
  | cons hit hits ih =>
    cases ordered with
    | nil => cases hlength
    | cons s ordered => exact List.Forall₂.cons rfl (ih ordered (Nat.succ.inj hlength))

theorem sortByScore_guarded (hlen : hits.length = inputScores.length) (h : flatGuard settings hits inputScores = some guarded) :
    sortByScore guarded = guarded := by
  apply List.Pairwise.insertionSort_eq
  have hsorted : (guarded.map Hit.score).Pairwise fun a b => b ≤ a := by
    rw [flatGuard_scores hlen h]
    exact List.pairwise_insertionSort _ inputScores
  exact List.pairwise_map.mp hsorted

end

/-- The flatness guard, and the crop's sort behind it. -/
theorem flatGuard_meets (settings : Settings) (hits : List Hit) (inputScores : List ℚ) (hlen : hits.length = inputScores.length) :
    ((flatGuard settings hits inputScores).isSome ↔ 2 ≤ hits.length ∧ ∃ hi lo, NthLargest inputScores 1 hi ∧
      NthLargest inputScores (min 5 hits.length) lo ∧ hi - lo < settings.rerankFlatSpread) ∧
    ∀ guarded, flatGuard settings hits inputScores = some guarded →
      (guarded.map Hit.score).Perm inputScores ∧
      List.Forall₂ (fun g hit => g = { hit with score := g.score }) guarded hits ∧ sortByScore guarded = guarded := by
  constructor
  · exact flatGuard_isSome hlen
  · intro guarded h
    have hscores : (guarded.map Hit.score).Perm inputScores := by
      rw [flatGuard_scores hlen h]
      exact List.perm_insertionSort _ inputScores
    exact ⟨hscores, flatGuard_fields hlen h, sortByScore_guarded hlen h⟩

/-- Two hits whose scores tell them apart too little. -/
def flatPair : List Hit :=
  [{ chunkId := 4, docId := 1, text := "drill", page := none, bbox := none, kind := none, title := "drill.txt", score := 2 / 61 },
    { chunkId := 7, docId := 1, text := "siren", page := none, bbox := none, kind := none, title := "drill.txt", score := 1 / 61 }]

theorem flatGuard_meets_pair :
    [(1 : ℚ) / 100, 2 / 100].length = 2 ∧ ∀ guarded, flatGuard {} flatPair [1 / 100, 2 / 100] = some guarded →
      (guarded.map Hit.score).Perm [1 / 100, 2 / 100] ∧
      List.Forall₂ (fun g hit => g = { hit with score := g.score }) guarded flatPair ∧ sortByScore guarded = guarded :=
  ⟨rfl, (flatGuard_meets {} flatPair [1 / 100, 2 / 100] rfl).2⟩

section

variable (float : PyValue → Option ℚ)

/-- An entry of `valid`, read. -/
def readEntry (r : PyValue) : Except PyError RerankResult :=
  r.item "relevance_score" >>= toFloat float >>= fun score => r.item "index" >>= PyValue.asIndex >>= fun i => .ok ⟨i, score⟩

/-- The entries of a body that name one of `n` hits, or what reading them raises. -/
def namedBy (n : Nat) (body : PyValue) : Except PyError (List RerankResult) :=
  resultsOf body >>= PyValue.iter >>= validResults n >>= fun valid => valid.mapM (readEntry float)

/-- The score of each hit: the last one it is given, or zero. -/
def givenScores (n : Nat) (named : List RerankResult) : List ℚ :=
  named.foldl (fun scores r => scores.set r.index.toNat r.relevanceScore) (List.replicate n 0)

/-- No hit is named twice, or the guard fires on the scores. -/
def NamesOnce (settings : Settings) (hits : List Hit) (named : List RerankResult) : Prop :=
  (named.map RerankResult.index).Nodup ∨ (flatGuard settings hits (givenScores hits.length named)).isSome

/-- A list of chunks of the input, none of them twice, sorted by score unless it is the input. -/
structure Reranks (hits out : List Hit) : Prop where
  once : UniqueOn Hit.chunkId out
  fromInput : ∀ h ∈ out, ∃ hit ∈ hits, hit.chunkId = h.chunkId
  sorted : out = hits ∨ out.Pairwise fun a b => b.score ≤ a.score

variable {float}

theorem setScore_eq (scores : List ℚ) (r : PyValue) : setScore float scores r =
    (readEntry float r >>= fun e => .ok (scores.set e.index.toNat e.relevanceScore)) := by
  unfold setScore readEntry
  cases r.item "relevance_score" >>= toFloat float with
  | error e => rfl
  | ok score =>
    change (r.item "index" >>= PyValue.asIndex >>= _) = (r.item "index" >>= PyValue.asIndex >>= _) >>= _
    cases r.item "index" >>= PyValue.asIndex with
    | _ => rfl

theorem foldlM_setScore (valid : List PyValue) (scores : List ℚ) : valid.foldlM (setScore float) scores =
    (valid.mapM (readEntry float) >>= fun named =>
      .ok (named.foldl (fun scores r => scores.set r.index.toNat r.relevanceScore) scores)) := by
  induction valid generalizing scores with
  | nil => rfl
  | cons r valid ih =>
    rw [List.foldlM_cons, List.mapM_cons, setScore_eq]
    cases readEntry float r with
    | error e => rfl
    | ok e =>
      change valid.foldlM (setScore float) (scores.set e.index.toNat e.relevanceScore) = _
      rw [ih]
      cases valid.mapM (readEntry float) with
      | _ => rfl

theorem validResults_index {n : Nat} {items valid : List PyValue} (h : validResults n items = .ok valid) {r : PyValue}
    (hr : r ∈ valid) : ∃ index, r.get "index" = .ok index ∧ (index.getD (.int (-1))).inRange n = .ok true := by
  induction items generalizing valid with
  | nil =>
    cases h
    cases hr
  | cons a items ih =>
    obtain ⟨index, hindex, h⟩ := bind_eq_ok.mp h
    obtain ⟨inside, hinside, h⟩ := bind_eq_ok.mp h
    obtain ⟨rest, hrest, h⟩ := bind_eq_ok.mp h
    cases inside with
    | false =>
      cases h
      exact ih hrest hr
    | true =>
      cases h
      rcases List.mem_cons.mp hr with rfl | hr
      · exact ⟨index, hindex, hinside⟩
      · exact ih hrest hr

theorem asIndex_inRange {n : Nat} {v : PyValue} (h : v.inRange n = .ok true) {i : Int} (hi : v.asIndex = .ok i) :
    0 ≤ i ∧ i < n := by
  cases v with
  | bool b =>
    have hlt : b.toNat < n := by simpa [PyValue.inRange] using h
    cases hi
    omega
  | int j =>
    cases hi
    simpa [PyValue.inRange] using h
  | _ => cases hi

theorem readEntry_index {n : Nat} {items valid : List PyValue} (h : validResults n items = .ok valid) {r : PyValue}
    (hr : r ∈ valid) {e : RerankResult} (he : readEntry float r = .ok e) : 0 ≤ e.index ∧ e.index < n := by
  obtain ⟨index, hindex, hinside⟩ := validResults_index h hr
  obtain ⟨score, _, he⟩ := bind_eq_ok.mp he
  obtain ⟨i, hi, he⟩ := bind_eq_ok.mp he
  obtain ⟨v, hv, hi⟩ := bind_eq_ok.mp hi
  cases he
  simp only [PyValue.item, hindex] at hv
  cases index with
  | none => cases hv
  | some w =>
    cases hv
    exact asIndex_inRange hinside hi

theorem scoredHit_eq {hits : List Hit} {r : PyValue} {e : RerankResult} (he : readEntry float r = .ok e) {hit : Hit}
    (hhit : hits[e.index.toNat]? = some hit) : scoredHit float hits r = .ok { hit with score := e.relevanceScore } := by
  obtain ⟨score, hscore, he⟩ := bind_eq_ok.mp he
  obtain ⟨i, hi, he⟩ := bind_eq_ok.mp he
  cases he
  simp only [scoredHit, hi, ok_bind, hhit, hscore]

theorem mapM_scoredHit {hits : List Hit} {valid : List PyValue} {named : List RerankResult}
    (h : List.Forall₂ (fun r e => readEntry float r = .ok e) valid named)
    (hin : ∀ e ∈ named, 0 ≤ e.index ∧ e.index < (hits.length : Int)) :
    valid.mapM (scoredHit float hits) = .ok (named.filterMap fun r =>
      hits[r.index.toNat]?.map fun h => { h with score := r.relevanceScore }) := by
  induction h with
  | nil => rfl
  | @cons r e valid named he _ ih =>
    obtain ⟨hlow, hhigh⟩ := hin e List.mem_cons_self
    have hlt : e.index.toNat < hits.length := by omega
    have hhit := List.getElem?_eq_getElem hlt
    rw [List.mapM_cons, scoredHit_eq he hhit, ih fun e' he' => hin e' (List.mem_cons_of_mem _ he'), List.filterMap_cons, hhit]
    rfl

theorem namedBy_index {n : Nat} {body : PyValue} {named : List RerankResult} (h : namedBy float n body = .ok named) :
    ∀ e ∈ named, 0 ≤ e.index ∧ e.index < n := by
  obtain ⟨valid, hvalid, h⟩ := bind_eq_ok.mp h
  obtain ⟨items, _, hvalid⟩ := bind_eq_ok.mp hvalid
  intro e he
  obtain ⟨r, hr, hread⟩ := mem_of_mapM h he
  exact readEntry_index hvalid hr hread

theorem readRerank_eq (settings : Settings) (query : String) (hits : List Hit) (body : PyValue) :
    readRerank float settings hits body =
      (namedBy float hits.length body >>= fun named => .ok (rerankWith settings (fun _ _ => some named) query hits)) := by
  unfold readRerank namedBy
  cases hvalid : resultsOf body >>= PyValue.iter >>= validResults hits.length with
  | error e => rfl
  | ok valid =>
    have hcases : ∀ named, valid.mapM (readEntry float) = .ok named → ∀ e ∈ named, 0 ≤ e.index ∧ e.index < (hits.length : Int) := by
      intro named hnamed
      refine namedBy_index (show namedBy float hits.length body = .ok named from ?_)
      unfold namedBy
      rw [hvalid]
      exact hnamed
    change (if valid.isEmpty then _ else _) = (valid.mapM (readEntry float) >>= _)
    cases hnamed : valid.mapM (readEntry float) with
    | error e =>
      cases valid with
      | nil => cases hnamed
      | cons r valid =>
        rw [foldlM_setScore, hnamed]
        rfl
    | ok named =>
      have hread := mapM_eq_ok hnamed
      have hin := hcases named hnamed
      have hfilter : named.filter (fun r => 0 ≤ r.index ∧ r.index < (hits.length : Int)) = named := by
        apply List.filter_eq_self.mpr
        intro e he
        simpa using hin e he
      have hempty : valid.isEmpty = named.isEmpty := by
        cases hread with
        | _ => rfl
      change _ = Except.ok (rerankWith settings (fun _ _ => some named) query hits)
      simp only [rerankWith, hfilter, ← hempty]
      rw [foldlM_setScore, hnamed, mapM_scoredHit hread hin]
      cases valid.isEmpty with
      | true => rfl
      | false =>
        simp only [Bool.false_eq_true, if_false, ok_bind]
        cases flatGuard settings hits (named.foldl (fun scores r => scores.set r.index.toNat r.relevanceScore)
          (List.replicate hits.length 0)) with
        | _ => rfl

/-- What is raised is an `Exception`. -/
def RaisesExceptions {α : Type} (x : Except PyError α) : Prop :=
  ∀ exc, x = .error exc → exc.isException = true

theorem RaisesExceptions.ok {α : Type} (a : α) : RaisesExceptions (.ok a) := by
  intro exc h
  cases h

theorem RaisesExceptions.error {α : Type} {name : String} (h : name ≠ "CancelledError") (text : String) :
    RaisesExceptions (.error ⟨name, text⟩ : Except PyError α) := by
  intro exc hexc
  cases hexc
  simp [PyError.isException, h]

theorem RaisesExceptions.bind {α β : Type} {x : Except PyError α} {f : α → Except PyError β} (hx : RaisesExceptions x)
    (hf : ∀ a, x = .ok a → RaisesExceptions (f a)) : RaisesExceptions (x >>= f) := by
  intro exc h
  cases x with
  | error e =>
    obtain rfl : e = exc := Except.error.inj h
    exact hx e rfl
  | ok a => exact hf a rfl exc h

theorem PyValue.get_raises (key : String) (v : PyValue) : RaisesExceptions (v.get key) := by
  cases v with
  | dict fields => exact RaisesExceptions.ok _
  | _ => exact RaisesExceptions.error (by decide) _

theorem PyValue.item_raises (key : String) (v : PyValue) : RaisesExceptions (v.item key) := by
  apply (PyValue.get_raises key v).bind
  intro found _
  cases found with
  | none => exact RaisesExceptions.error (by decide) _
  | some w => exact RaisesExceptions.ok _

theorem PyValue.iter_raises (v : PyValue) : RaisesExceptions v.iter := by
  cases v with
  | str s => exact RaisesExceptions.ok _
  | list items => exact RaisesExceptions.ok _
  | dict fields => exact RaisesExceptions.ok _
  | _ => exact RaisesExceptions.error (by decide) _

theorem PyValue.inRange_raises (n : Nat) (v : PyValue) : RaisesExceptions (v.inRange n) := by
  cases v with
  | bool b => exact RaisesExceptions.ok _
  | int i => exact RaisesExceptions.ok _
  | float x =>
    cases x with
    | _ => exact RaisesExceptions.ok _
  | _ => exact RaisesExceptions.error (by decide) _

theorem PyValue.asIndex_raises (v : PyValue) : RaisesExceptions v.asIndex := by
  cases v with
  | bool b => exact RaisesExceptions.ok _
  | int i => exact RaisesExceptions.ok _
  | _ => exact RaisesExceptions.error (by decide) _

theorem toFloat_raises (v : PyValue) : RaisesExceptions (toFloat float v) := by
  unfold toFloat
  cases float v with
  | none => exact RaisesExceptions.error (by decide) _
  | some x => exact RaisesExceptions.ok _

theorem resultsOf_raises (body : PyValue) : RaisesExceptions (resultsOf body) := by
  apply (PyValue.get_raises _ body).bind
  intro results _
  cases results with
  | none => exact RaisesExceptions.ok _
  | some v =>
    cases hv : v.truthy with
    | true =>
      simp only [hv, if_true]
      exact RaisesExceptions.ok v
    | false =>
      simp only [hv, Bool.false_eq_true, if_false]
      exact RaisesExceptions.ok _

theorem validResults_raises (n : Nat) (items : List PyValue) : RaisesExceptions (validResults n items) := by
  induction items with
  | nil => exact RaisesExceptions.ok _
  | cons r items ih =>
    apply (PyValue.get_raises _ r).bind
    intro index _
    apply (PyValue.inRange_raises n _).bind
    intro valid _
    apply ih.bind
    intro rest _
    exact RaisesExceptions.ok _

theorem readEntry_raises (r : PyValue) : RaisesExceptions (readEntry float r) := by
  apply ((PyValue.item_raises _ r).bind fun v _ => toFloat_raises v).bind
  intro score _
  apply ((PyValue.item_raises _ r).bind fun v _ => PyValue.asIndex_raises v).bind
  intro i _
  exact RaisesExceptions.ok _

theorem mapM_readEntry_raises (valid : List PyValue) : RaisesExceptions (valid.mapM (readEntry float)) := by
  induction valid with
  | nil => exact RaisesExceptions.ok _
  | cons r valid ih =>
    rw [List.mapM_cons]
    apply (readEntry_raises r).bind
    intro e _
    apply ih.bind
    intro rest _
    exact RaisesExceptions.ok _

theorem namedBy_raises (n : Nat) (body : PyValue) : RaisesExceptions (namedBy float n body) := by
  apply (((resultsOf_raises body).bind fun v _ => PyValue.iter_raises v).bind fun items _ => validResults_raises n items).bind
  intro valid _
  exact mapM_readEntry_raises valid

/-- With a key, the reranker is that of the entries its body names; without one, or where the body cannot be
read, the hits are left as they are. -/
theorem rerankApi_eq (settings : Settings) (hasKey : Bool) (body : PyValue) (query : String) (hits : List Hit) :
    rerankApi float settings hasKey (.ok body) hits = .ok
      (if hasKey then rerankWith settings (fun _ _ => (namedBy float hits.length body).toOption) query hits else hits) := by
  unfold rerankApi
  cases hasKey with
  | false => rfl
  | true =>
    simp only [if_true, ok_bind, readRerank_eq settings query]
    cases hnamed : namedBy float hits.length body with
    | ok named => rfl
    | error exc =>
      have hexc := namedBy_raises hits.length body exc hnamed
      simp only [error_bind, hexc, if_true]
      rfl

theorem scored_chunkIds {hits : List Hit} {named : List RerankResult}
    (hin : ∀ e ∈ named, 0 ≤ e.index ∧ e.index < (hits.length : Int)) :
    (named.filterMap fun r => hits[r.index.toNat]?.map fun h => { h with score := r.relevanceScore }).map Hit.chunkId =
      (named.map RerankResult.index).map fun i => (hits.map Hit.chunkId).getD i.toNat 0 := by
  induction named with
  | nil => rfl
  | cons e named ih =>
    obtain ⟨hlow, hhigh⟩ := hin e List.mem_cons_self
    have hlt : e.index.toNat < hits.length := by omega
    have hhit := List.getElem?_eq_getElem hlt
    rw [List.filterMap_cons, hhit]
    simp only [Option.map_some, List.map_cons, ih fun e' he' => hin e' (List.mem_cons_of_mem _ he')]
    rw [List.getD_eq_getElem _ _ (by simpa using hlt), List.getElem_map]

theorem scored_unique {hits : List Hit} (hdistinct : UniqueOn Hit.chunkId hits) {named : List RerankResult}
    (hin : ∀ e ∈ named, 0 ≤ e.index ∧ e.index < (hits.length : Int)) :
    UniqueOn Hit.chunkId (named.filterMap fun r => hits[r.index.toNat]?.map fun h => { h with score := r.relevanceScore }) ↔
      (named.map RerankResult.index).Nodup := by
  unfold UniqueOn
  rw [scored_chunkIds hin]
  constructor
  · exact List.Nodup.of_map _
  · intro hnodup
    apply hnodup.map_on
    intro i hi j hj heq
    obtain ⟨e, he, rfl⟩ := List.mem_map.mp hi
    obtain ⟨e', he', rfl⟩ := List.mem_map.mp hj
    obtain ⟨hlow, hhigh⟩ := hin e he
    obtain ⟨hlow', hhigh'⟩ := hin e' he'
    have hlt : e.index.toNat < (hits.map Hit.chunkId).length := by simp; omega
    have hlt' : e'.index.toNat < (hits.map Hit.chunkId).length := by simp; omega
    rw [List.getD_eq_getElem _ _ hlt, List.getD_eq_getElem _ _ hlt'] at heq
    have hsame := hdistinct.getElem_inj_iff.mp heq
    omega

theorem guarded_reranks {settings : Settings} {hits guarded : List Hit} {inputScores : List ℚ}
    (hlen : hits.length = inputScores.length) (hdistinct : UniqueOn Hit.chunkId hits)
    (h : flatGuard settings hits inputScores = some guarded) : Reranks hits guarded := by
  have hids : guarded.map Hit.chunkId = hits.map Hit.chunkId := by
    have hfields := flatGuard_fields hlen h
    clear h hdistinct hlen
    induction hfields with
    | nil => rfl
    | @cons g hit guarded hits heq _ ih => rw [List.map_cons, List.map_cons, heq, ih]
  constructor
  case once =>
    unfold UniqueOn
    rw [hids]
    exact hdistinct
  case fromInput =>
    intro g hg
    have hmem : g.chunkId ∈ hits.map Hit.chunkId := hids ▸ List.mem_map_of_mem hg
    exact List.mem_map.mp hmem
  case sorted =>
    right
    rw [← sortByScore_guarded hlen h]
    exact (sortByScore_stable guarded).descending

theorem givenScores_length (n : Nat) (named : List RerankResult) : (givenScores n named).length = n := by
  have hkeeps : ∀ scores : List ℚ,
      (named.foldl (fun scores r => scores.set r.index.toNat r.relevanceScore) scores).length = scores.length := by
    induction named with
    | nil => exact fun _ => rfl
    | cons e named ih =>
      intro scores
      rw [List.foldl_cons, ih, List.length_set]
  unfold givenScores
  rw [hkeeps, List.length_replicate]

theorem Reranks.unchanged {hits : List Hit} (hdistinct : UniqueOn Hit.chunkId hits) : Reranks hits hits where
  once := hdistinct
  fromInput := fun h hh => ⟨h, hh, rfl⟩
  sorted := Or.inl rfl

theorem rerankWith_named {settings : Settings} {query : String} {hits : List Hit} {named : List RerankResult}
    (hin : ∀ e ∈ named, 0 ≤ e.index ∧ e.index < (hits.length : Int)) :
    rerankWith settings (fun _ _ => some named) query hits =
      if named.isEmpty then hits
      else match flatGuard settings hits (givenScores hits.length named) with
        | some guarded => guarded
        | none => sortByScore (named.filterMap fun r =>
          hits[r.index.toNat]?.map fun h => { h with score := r.relevanceScore }) := by
  have hfilter : named.filter (fun r => 0 ≤ r.index ∧ r.index < (hits.length : Int)) = named := by
    apply List.filter_eq_self.mpr
    intro e he
    simpa using hin e he
  simp only [rerankWith, hfilter]
  rfl

theorem scored_reranks {hits : List Hit} {named : List RerankResult}
    (hunique : UniqueOn Hit.chunkId (named.filterMap fun r =>
      hits[r.index.toNat]?.map fun h => { h with score := r.relevanceScore })) :
    Reranks hits (sortByScore (named.filterMap fun r =>
      hits[r.index.toNat]?.map fun h => { h with score := r.relevanceScore })) := by
  have hstable := sortByScore_stable (named.filterMap fun r =>
    hits[r.index.toNat]?.map fun h : Hit => { h with score := r.relevanceScore })
  constructor
  case once => exact (hstable.perm.map Hit.chunkId).nodup_iff.mpr hunique
  case fromInput =>
    intro x hx
    obtain ⟨e, _, hmap⟩ := List.mem_filterMap.mp (hstable.perm.mem_iff.mp hx)
    obtain ⟨hit, hhit, rfl⟩ := Option.map_eq_some_iff.mp hmap
    exact ⟨hit, List.mem_of_getElem? hhit, rfl⟩
  case sorted => exact Or.inr hstable.descending

theorem rerankWith_reranks_iff {settings : Settings} {query : String} {hits : List Hit} (hdistinct : UniqueOn Hit.chunkId hits)
    {named : List RerankResult} (hin : ∀ e ∈ named, 0 ≤ e.index ∧ e.index < (hits.length : Int)) :
    Reranks hits (rerankWith settings (fun _ _ => some named) query hits) ↔ NamesOnce settings hits named := by
  rw [rerankWith_named hin]
  unfold NamesOnce
  cases hempty : named.isEmpty with
  | true =>
    rw [List.isEmpty_iff.mp hempty]
    simp [Reranks.unchanged hdistinct]
  | false =>
    cases hguard : flatGuard settings hits (givenScores hits.length named) with
    | some guarded =>
      have hguarded := guarded_reranks (givenScores_length hits.length named).symm hdistinct hguard
      simp [hguarded]
    | none =>
      have hunique := scored_unique hdistinct hin
      simp only [Bool.false_eq_true, if_false, Option.isSome_none, or_false]
      constructor
      · intro h
        exact hunique.mp (((sortByScore_stable _).perm.map Hit.chunkId).nodup_iff.mp h.once)
      · intro h
        exact scored_reranks (hunique.mpr h)

/-- Whatever the body, the reranker raises nothing and neither duplicates nor invents a chunk, exactly when the
body names no hit twice, or its scores are flat, or it is not read at all. -/
theorem rerankApi_reranks_iff (float : PyValue → Option ℚ) (settings : Settings) (hasKey : Bool) (body : PyValue)
    (hits : List Hit) (hdistinct : UniqueOn Hit.chunkId hits) :
    (∃ out, rerankApi float settings hasKey (.ok body) hits = .ok out ∧ Reranks hits out) ↔
      (hasKey = true → ∀ named, namedBy float hits.length body = .ok named → NamesOnce settings hits named) := by
  rw [rerankApi_eq settings hasKey body "" hits]
  cases hasKey with
  | false => simp [Reranks.unchanged hdistinct]
  | true =>
    cases hnamed : namedBy float hits.length body with
    | error exc => simp [rerankWith, Except.toOption, Reranks.unchanged hdistinct]
    | ok named =>
      have hiff : Reranks hits (rerankWith settings (fun _ _ => some named) "" hits) ↔ NamesOnce settings hits named :=
        rerankWith_reranks_iff hdistinct (namedBy_index hnamed)
      simp only [if_true, Except.ok.injEq, exists_eq_left', forall_const, forall_eq', Except.toOption]
      exact hiff

end

/-- `float` of a number. -/
def floatOfNumber : PyValue → Option ℚ
  | .bool b => some b.toNat
  | .int n => some n
  | .float x => x
  | _ => none

/-- `{"index": index, "relevance_score": score}`. -/
def resultEntry (index : Int) (score : ℚ) : PyValue :=
  .dict [("index", .int index), ("relevance_score", .float (some score))]

/-- A body whose second result is out of range, as the test has it, and one that names a hit twice. -/
def skippingBody : PyValue := .dict [("results", .list [resultEntry 1 (9 / 10), resultEntry 7 (5 / 10)])]

def repeatingBody : PyValue :=
  .dict [("results", .list [resultEntry 1 (9 / 10), resultEntry 1 (8 / 10), resultEntry 0 (1 / 10)])]

theorem rerankApi_reranks_skipping :
    ∃ out, rerankApi floatOfNumber {} true (.ok skippingBody) flatPair = .ok out ∧ Reranks flatPair out := by
  have hdistinct : UniqueOn Hit.chunkId flatPair := by decide
  apply (rerankApi_reranks_iff floatOfNumber {} true skippingBody flatPair hdistinct).mpr
  intro _ named hnamed
  have hread : namedBy floatOfNumber flatPair.length skippingBody = .ok [⟨1, 9 / 10⟩] := rfl
  rw [hread] at hnamed
  cases hnamed
  exact Or.inl (by decide)

/-- The hit that is named twice is returned twice. -/
theorem rerankApi_duplicates : UniqueOn Hit.chunkId flatPair ∧
    ¬∃ out, rerankApi floatOfNumber {} true (.ok repeatingBody) flatPair = .ok out ∧ Reranks flatPair out := by
  have hids : (rerankApi floatOfNumber {} true (.ok repeatingBody) flatPair).toOption.map (List.map Hit.chunkId) =
      some [7, 7, 4] := by decide +kernel
  constructor
  · decide
  · intro h
    obtain ⟨out, hout, hreranks⟩ := h
    rw [hout] at hids
    have hids : out.map Hit.chunkId = [7, 7, 4] := Option.some.inj hids
    have honce := hreranks.once
    unfold UniqueOn at honce
    rw [hids] at honce
    exact absurd honce (by decide)

end ProRag
