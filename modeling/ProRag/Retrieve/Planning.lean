import ProRag.Framework.JsonText
import ProRag.Llm.Pipeline

/-!
# When the planner's answer fails the request

`plan` takes a planner call that fails, and text that is no JSON, for no plan.  What `json.loads` raises on
text that is too large for it, and what `_extract_json` raises without any text, it lets through.
-/

namespace ProRag

open Framework

/-- The interpreter as `json.loads` depends on it: how deep it still can go, and how it writes floats and values. -/
structure Interpreter where
  maxDepth : Nat
  floatRepr : List Char → String
  str : Json → String

/-- `sys.int_info.default_max_str_digits`. -/
def maxStrDigits : Nat := 4300

/-- `d[key] = value`. -/
def setKey {α : Type} (d : List (String × α)) (key : String) (value : α) : List (String × α) :=
  if d.any fun e => e.1 = key then d.map fun e => if e.1 = key then (key, value) else e else d ++ [(key, value)]

def jsonBuilder (floatRepr : List Char → String) : JsonBuilder Json where
  null := .null
  bool := .bool
  int := .int
  float literal := .float (floatRepr literal)
  str cs := .str (String.ofList cs)
  arr := .arr
  obj members := .obj (members.foldl (fun d m => setKey d (String.ofList m.1) m.2) [])

/-- What the interpreter raises there. -/
def raisedAt (maxDepth : Nat) : JsonMark → Option PyError
  | .enter depth => if maxDepth < depth then some ⟨"RecursionError", "maximum recursion depth exceeded"⟩ else none
  | .int digits =>
    if maxStrDigits < digits then some ⟨"ValueError", "Exceeds the limit (4300 digits) for integer string conversion"⟩
    else none

def IsReadable (maxDepth : Nat) : JsonMark → Prop
  | .enter depth => depth ≤ maxDepth
  | .int digits => digits ≤ maxStrDigits

def jsonDecodeError : PyError := ⟨"JSONDecodeError", "Expecting value"⟩

namespace Interpreter

variable (py : Interpreter)

/-- `json.loads(text)`. -/
def loads (text : String) : Except PyError Json :=
  let scanned := JsonText.read (jsonBuilder py.floatRepr) text.toList
  match scanned.marks.findSome? (raisedAt py.maxDepth) with
  | some exc => .error exc
  | none =>
    match scanned.result with
    | some (value, rest) => if JsonText.skipSpace rest = [] then .ok value else .error jsonDecodeError
    | none => .error jsonDecodeError

def json : PyJson := ⟨py.loads, py.str⟩

theorem json_loads : py.json.loads = py.loads := rfl

/-- As far as it is JSON, the text nests no deeper than the interpreter goes and has no longer integers than it reads. -/
def WithinLimits (text : String) : Prop :=
  ∀ mark ∈ (JsonText.read (jsonBuilder py.floatRepr) text.toList).marks, IsReadable py.maxDepth mark

end Interpreter

/-- The text `_extract_json` reads. -/
def jsonText (raw : String) : String :=
  match fenced? (pyStrip raw).toList with
  | some body => pyStrip (String.ofList body)
  | none => pyStrip raw

theorem extractJson_some (json : PyJson) (raw : String) : extractJson json (some raw) = json.loads (jsonText raw) := by
  simp only [extractJson, jsonText]
  cases fenced? (pyStrip raw).toList with
  | some body => simp only
  | none => simp only

variable {py : Interpreter}

theorem raisedAt_eq_none (maxDepth : Nat) (mark : JsonMark) :
    raisedAt maxDepth mark = none ↔ IsReadable maxDepth mark := by
  cases mark with
  | enter depth => simp [raisedAt, IsReadable]
  | int digits => simp [raisedAt, IsReadable]

theorem raisedAt_uncaught {maxDepth : Nat} {mark : JsonMark} {exc : PyError} (h : raisedAt maxDepth mark = some exc) :
    ¬(exc.name = "JSONDecodeError" ∨ exc.name = "TypeError") := by
  have hrecursion : ¬("RecursionError" = "JSONDecodeError" ∨ "RecursionError" = "TypeError") := by decide
  have hvalue : ¬("ValueError" = "JSONDecodeError" ∨ "ValueError" = "TypeError") := by decide
  cases mark with
  | enter depth =>
    simp only [raisedAt, Option.ite_none_right_eq_some, Option.some.injEq] at h
    rw [← h.2]
    exact hrecursion
  | int digits =>
    simp only [raisedAt, Option.ite_none_right_eq_some, Option.some.injEq] at h
    rw [← h.2]
    exact hvalue

/-- Text within the limits is a value or no JSON; other text raises what `plan` does not catch. -/
theorem loads_cases (py : Interpreter) (text : String) :
    (py.WithinLimits text ∧ ((∃ value, py.loads text = .ok value) ∨ py.loads text = .error jsonDecodeError)) ∨
      (¬ py.WithinLimits text ∧ ∃ mark exc, raisedAt py.maxDepth mark = some exc ∧ py.loads text = .error exc) := by
  have hlimits : py.WithinLimits text ↔
      (JsonText.read (jsonBuilder py.floatRepr) text.toList).marks.findSome? (raisedAt py.maxDepth) = none := by
    rw [List.findSome?_eq_none_iff]
    apply forall₂_congr
    intro mark _
    exact (raisedAt_eq_none py.maxDepth mark).symm
  cases hmarks : (JsonText.read (jsonBuilder py.floatRepr) text.toList).marks.findSome? (raisedAt py.maxDepth) with
  | some exc =>
    right
    obtain ⟨mark, _, hraised⟩ := List.exists_of_findSome?_eq_some hmarks
    refine ⟨?_, mark, exc, hraised, ?_⟩
    · rw [hlimits, hmarks]
      exact Option.some_ne_none exc
    · simp only [Interpreter.loads, hmarks]
  | none =>
    left
    refine ⟨hlimits.mpr hmarks, ?_⟩
    simp only [Interpreter.loads, hmarks]
    split
    · split
      · exact .inl ⟨_, rfl⟩
      · exact .inr rfl
    · exact .inr rfl

theorem readPlan_of_value {json : PyJson} {query : String} {raw : Option String} {value : Json}
    (h : extractJson json raw = .ok value) : ∃ p, readPlan json query raw = .ok p := by
  simp only [readPlan, h]
  cases value with
  | obj data =>
    simp only
    split
    · exact ⟨_, rfl⟩
    · exact ⟨_, rfl⟩
  | _ => exact ⟨_, rfl⟩

theorem readPlan_of_error {json : PyJson} {query : String} {raw : Option String} {exc : PyError}
    (h : extractJson json raw = .error exc) :
    readPlan json query raw =
      if exc.name = "JSONDecodeError" ∨ exc.name = "TypeError" then .ok (.fallback query) else .error exc := by
  simp only [readPlan, h]

theorem readPlan_returns_iff (py : Interpreter) (query : String) (raw : Option String) :
    (∃ p, readPlan py.json query raw = .ok p) ↔ ∃ text, raw = some text ∧ py.WithinLimits (jsonText text) := by
  have hattribute : ¬("AttributeError" = "JSONDecodeError" ∨ "AttributeError" = "TypeError") := by decide
  cases raw with
  | none =>
    have h : extractJson py.json none = .error ⟨"AttributeError", "'NoneType' object has no attribute 'strip'"⟩ := by
      simp only [extractJson]
    rw [readPlan_of_error h, if_neg hattribute]
    simp
  | some raw =>
    have htext := extractJson_some py.json raw
    rw [py.json_loads] at htext
    simp only [Option.some.injEq, exists_eq_left']
    rcases loads_cases py (jsonText raw) with ⟨hlimits, hloads⟩ | ⟨hlimits, mark, exc, hraised, hloads⟩
    · refine iff_of_true ?_ hlimits
      rcases hloads with ⟨value, hloads⟩ | hloads
      · exact readPlan_of_value (htext.trans hloads)
      · rw [readPlan_of_error (htext.trans hloads), if_pos (.inl rfl)]
        exact ⟨_, rfl⟩
    · refine iff_of_false ?_ hlimits
      rw [readPlan_of_error (htext.trans hloads), if_neg (raisedAt_uncaught hraised)]
      simp

section

variable (settings : Settings) (completionCost : CompletionCost) (env : QueryEnv) (query : String) (userId : Option Uuid)
  (py : Interpreter)

/-- The text of the planner's message, or that there is none, or what its call raised. -/
def QueryEnv.answered : Except PyError (Option String) := env.planner >>= LlmResponse.content

/-- A plan comes back exactly where the planner fails with an exception or answers with text within the limits. -/
theorem plan_returns_iff (u : Uow Usage RequestEvent) :
    (∃ p, (plan settings completionCost { env with json := py.json } query userId u).1 = .ok p) ↔
      (∃ exc, env.answered = .error exc ∧ exc.isException = true) ∨
        ∃ text, env.answered = .ok (some text) ∧ py.WithinLimits (jsonText text) := by
  rw [plan_stages u]
  simp only [QueryEnv.planned]
  change (∃ p, (recovering PyError.isException (env.answered >>= fun raw => .ok (some raw)) _ >>= _) = _) ↔ _
  cases env.answered with
  | error exc =>
    rw [error_bind]
    cases hcaught : exc.isException with
    | true => simp [recovering, hcaught, ok_bind, QueryEnv.readPlan]
    | false => simp [recovering, hcaught, error_bind]
  | ok raw =>
    simp only [ok_bind, recovering, QueryEnv.readPlan, readPlan_returns_iff]
    simp

theorem plan_of_no_content (hplanner : env.answered = .ok none) (u : Uow Usage RequestEvent) :
    (plan settings completionCost { env with json := py.json } query userId u).1 =
      .error ⟨"AttributeError", "'NoneType' object has no attribute 'strip'"⟩ := by
  have hattribute : ¬("AttributeError" = "JSONDecodeError" ∨ "AttributeError" = "TypeError") := by decide
  have hnone : extractJson py.json none = .error ⟨"AttributeError", "'NoneType' object has no attribute 'strip'"⟩ := by
    simp only [extractJson]
  rw [plan_stages u]
  simp only [QueryEnv.planned]
  change (recovering PyError.isException (env.answered >>= fun raw => .ok (some raw)) _ >>= _) = _
  rw [hplanner, ok_bind]
  change ProRag.readPlan py.json query none = _
  rw [readPlan_of_error hnone, if_neg hattribute]

end

/-- A planner whose message has no content. -/
def silentPlanner (py : Interpreter) : QueryEnv where
  planner := .ok ⟨some (120, 0), .ok none⟩
  json := py.json
  embed := .ok ⟨none, .ok []⟩
  database := .error ⟨"DBAPIError", "no database"⟩
  rerankApi _ _ := none
  normalizeTitle := id
  reranking := .ok ()

theorem silent_planner_raises :
    (plan {} (fun _ _ _ => .ok none) (silentPlanner ⟨1000, String.ofList, fun _ => "{}"⟩) "hi" none ⟨[], [], []⟩).1 =
      .error ⟨"AttributeError", "'NoneType' object has no attribute 'strip'"⟩ :=
  plan_of_no_content {} _ (silentPlanner ⟨1000, String.ofList, fun _ => "{}"⟩) "hi" none _ rfl _

end ProRag
