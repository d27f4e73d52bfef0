import ProRag.Retrieve.Fuse

/-!
# Reranking

The provider is a function of the query and the texts; everything around its answer is modelled.
-/

namespace ProRag

/-- An entry of the provider's `results`. -/
structure RerankResult where
  index : Int
  relevanceScore : ℚ

/-- The provider's answer; `none` is any failure, a missing key included. -/
abbrev RerankApi := String → List String → Option (List RerankResult)

/-- `_flat_guard(hits, input_scores)`. -/
def flatGuard (settings : Settings) (hits : List Hit) (inputScores : List ℚ) : Option (List Hit) :=
  let ordered := inputScores.insertionSort fun a b => b ≤ a
  let top := ordered.take 5
  match top.head?, top.getLast? with
  | some hi, some lo =>
    if 2 ≤ top.length ∧ hi - lo < settings.rerankFlatSpread then
      some ((hits.zip ordered).map fun p => { p.1 with score := p.2 })
    else none
  | _, _ => none

/-- `_rerank_api(query, hits)`. -/
def rerankWith (settings : Settings) (api : RerankApi) (query : String) (hits : List Hit) : List Hit :=
  match api query (hits.map Hit.text) with
  | none => hits
  | some results =>
    let valid := results.filter fun r => 0 ≤ r.index ∧ r.index < (hits.length : Int)
    if valid.isEmpty then hits
    else
      let inputScores := valid.foldl (fun scores r => scores.set r.index.toNat r.relevanceScore)
        (List.replicate hits.length 0)
      match flatGuard settings hits inputScores with
      | some guarded => guarded
      | none => sortByScore (valid.filterMap fun r =>
          hits[r.index.toNat]?.map fun h => { h with score := r.relevanceScore })

/-- `rerank(query, hits)`. -/
def rerank (settings : Settings) (api : RerankApi) (query : String) (hits : List Hit) : List Hit :=
  if settings.rerankEnabled = false ∨ hits = [] then hits else rerankWith settings api query hits

/-- What the JSON of a response decodes to.  A float may be no number at all. -/
inductive PyValue
  | null
  | bool (b : Bool)
  | int (n : Int)
  | float (x : Option ℚ)
  | str (s : String)
  | list (items : List PyValue)
  | dict (fields : List (String × PyValue))

namespace PyValue

/-- `bool(value)`. -/
def truthy : PyValue → Bool
  | null => false
  | bool b => b
  | int n => n ≠ 0
  | float x => x ≠ some 0
  | str s => s ≠ ""
  | list items => !items.isEmpty
  | dict fields => !fields.isEmpty

/-- `value.get(key)`. -/
def get (key : String) : PyValue → Except PyError (Option PyValue)
  | dict fields => .ok (fields.lookup key)
  | _ => .error ⟨"AttributeError", "object has no attribute 'get'"⟩

/-- `value[key]`, of a value that has `get`. -/
def item (key : String) (value : PyValue) : Except PyError PyValue :=
  value.get key >>= fun found => match found with
    | none => .error ⟨"KeyError", key⟩
    | some v => .ok v

/-- `iter(value)`. -/
def iter : PyValue → Except PyError (List PyValue)
  | list items => .ok items
  | dict fields => .ok (fields.map fun f => str f.1)
  | str s => .ok (s.toList.map fun c => str (String.singleton c))
  | _ => .error ⟨"TypeError", "object is not iterable"⟩

/-- `0 <= value < n`. -/
def inRange (n : Nat) : PyValue → Except PyError Bool
  | bool b => .ok (b.toNat < n)
  | int i => .ok (0 ≤ i ∧ i < n)
  | float none => .ok false
  | float (some x) => .ok (0 ≤ x ∧ x < n)
  | _ => .error ⟨"TypeError", "'<=' not supported between these instances"⟩

/-- The place that `value` names in a list, if it may index one. -/
def asIndex : PyValue → Except PyError Int
  | bool b => .ok b.toNat
  | int i => .ok i
  | _ => .error ⟨"TypeError", "list indices must be integers or slices"⟩

end PyValue

section

variable (float : PyValue → Option ℚ)

/-- `float(value)`, of which the parameter gives the finite results. -/
def toFloat (value : PyValue) : Except PyError ℚ :=
  match float value with
  | none => .error ⟨"ValueError", "could not convert to float"⟩
  | some x => .ok x

/-- `resp.json().get("results") or []`. -/
def resultsOf (body : PyValue) : Except PyError PyValue :=
  body.get "results" >>= fun results => match results with
    | none => .ok (.list [])
    | some v => if v.truthy then .ok v else .ok (.list [])

/-- `valid`. -/
def validResults (n : Nat) : List PyValue → Except PyError (List PyValue)
  | [] => .ok []
  | r :: rs => r.get "index" >>= fun index => (index.getD (.int (-1))).inRange n >>= fun valid =>
    validResults n rs >>= fun rest => .ok (if valid then r :: rest else rest)

/-- `input_scores[r["index"]] = float(r["relevance_score"])`, for an index in range. -/
def setScore (scores : List ℚ) (r : PyValue) : Except PyError (List ℚ) :=
  r.item "relevance_score" >>= toFloat float >>= fun score => r.item "index" >>= PyValue.asIndex >>= fun i =>
    .ok (scores.set i.toNat score)

/-- `{**hits[r["index"]], "score": float(r["relevance_score"])}`. -/
def scoredHit (hits : List Hit) (r : PyValue) : Except PyError Hit :=
  r.item "index" >>= PyValue.asIndex >>= fun i => match hits[i.toNat]? with
    | none => .error ⟨"IndexError", "list index out of range"⟩
    | some hit => r.item "relevance_score" >>= toFloat float >>= fun score => .ok { hit with score := score }

/-- `_rerank_api` from the decoded body on, inside its `try`. -/
def readRerank (settings : Settings) (hits : List Hit) (body : PyValue) : Except PyError (List Hit) :=
  resultsOf body >>= PyValue.iter >>= validResults hits.length >>= fun valid =>
    if valid.isEmpty then .ok hits
    else valid.foldlM (setScore float) (List.replicate hits.length 0) >>= fun inputScores =>
      match flatGuard settings hits inputScores with
      | some guarded => .ok guarded
      | none => valid.mapM (scoredHit float hits) >>= fun scored => .ok (sortByScore scored)

/-- `_rerank_api(query, hits)`; `reply` is the body, or what the call raises. -/
def rerankApi (settings : Settings) (hasKey : Bool) (reply : Except PyError PyValue) (hits : List Hit) :
    Except PyError (List Hit) :=
  if hasKey then
    match reply >>= readRerank float settings hits with
    | .ok reranked => .ok reranked
    | .error exc => if exc.isException then .ok hits else .error exc
  else .ok hits

end

end ProRag
