import ProRag.Operations.Retrieval

/-!
# Reading the planner and the prefill agent

What `plan` and `prefill` make of the text a model answers with.  `json.loads` and `str` are
parameters.
-/

namespace ProRag

/-- What `json.loads` gives; a float is its `repr`. -/
inductive Json
  | null
  | bool (b : Bool)
  | int (n : Int)
  | float (repr : String)
  | str (s : String)
  | arr (items : List Json)
  | obj (fields : List (String × Json))

structure PyJson where
  loads : String → Except PyError Json
  str : Json → String

/-- `bool(value)`. -/
def Json.truthy : Json → Bool
  | .null => false
  | .bool b => b
  | .int n => n ≠ 0
  | .float repr => repr ≠ "0.0" && repr ≠ "-0.0"
  | .str s => s ≠ ""
  | .arr items => !items.isEmpty
  | .obj fields => !fields.isEmpty

/-- `text.strip()`. -/
def pyStrip (text : String) : String :=
  String.ofList ((text.toList.dropWhile isPySpace).reverse.dropWhile isPySpace).reverse

/-- `not text.strip()`. -/
def isBlank (text : String) : Bool := text.toList.all isPySpace

/-- What stands between the code fences, where a stripped text has them. -/
def fenced? (text : List Char) : Option (List Char) :=
  let fence := "```".toList
  if fence.isPrefixOf text then
    let rest := text.drop 3
    let rest := if "json".toList.isPrefixOf rest then rest.drop 4 else rest
    if fence.isSuffixOf rest then some (rest.take (rest.length - 3)) else none
  else none

/-- `_extract_json(raw)`, which is also `_parse(raw)` of the prefill agent.  A message without content is `None`. -/
def extractJson (json : PyJson) (raw : Option String) : Except PyError Json :=
  match raw with
  | none => .error ⟨"AttributeError", "'NoneType' object has no attribute 'strip'"⟩
  | some raw =>
    let text := pyStrip raw
    match fenced? text.toList with
    | some body => json.loads (pyStrip (String.ofList body))
    | none => json.loads text

/-- `_fallback(query)`. -/
def QueryPlan.fallback (query : String) : QueryPlan := ⟨true, (query, query), .default⟩

/-- `plan` behind its planner call. -/
def readPlan (json : PyJson) (query : String) (raw : Option String) : Except PyError QueryPlan :=
  match extractJson json raw with
  | .error exc =>
    if exc.name = "JSONDecodeError" ∨ exc.name = "TypeError" then .ok (.fallback query) else .error exc
  | .ok (.obj data) =>
    match data.lookup "queries" with
    | some (.arr (first :: rest)) =>
      .ok {
        searchNeeded := ((data.lookup "search_needed").map Json.truthy).getD true
        queries := (json.str first, json.str (rest.head?.getD first))
        mode := match data.lookup "mode" with
          | some (.str "table") => .table
          | _ => .default }
    | _ => .ok (.fallback query)
  | .ok _ => .ok (.fallback query)

/-- `prefill` behind its call, inside the `try`. -/
def readPrefill (json : PyJson) (query : String) (raw : Option String) : Except PyError String :=
  extractJson json raw >>= fun data =>
    match data with
    | .obj fields =>
      match fields.lookup "cleaned" with
      | none => .error ⟨"KeyError", "'cleaned'"⟩
      | some (.str cleaned) =>
        if isBlank cleaned then .ok query
        else if ((fields.lookup "changed").map Json.truthy).getD false then .ok cleaned
        else .ok query
      | some _ => .ok query
    | _ => .error ⟨"TypeError", "not a dict"⟩

end ProRag
