import ProRag.Admin.Groups
import ProRag.Admin.Rules
import ProRag.Auth.Disabled
import ProRag.Connectors.Corpus
import ProRag.Retrieve.Visibility

/-!
# Runs over access rights

Every operation that writes documents, rules, grants, groups or memberships, one after the other, from
the empty database on.
-/

namespace ProRag

open Framework

/-- The database; the rule ids drawn so far; who has confirmed which rule; and the floor that was in force
when a grant was written. -/
structure AccessWorld where
  db : Db
  created : List Uuid
  confirmations : List (Uuid × Option User)
  written : List (DocumentAcl × ℚ)

def AccessWorld.empty : AccessWorld := ⟨Db.empty, [], [], []⟩

/-- A handler that runs alone, through the given moves. -/
def runHandler (settings : Settings) (half : ℚ → ℚ) (embed : String → Embedding) :
    RuleWorld → RuleCall → List RuleMove → RuleWorld
  | w, _, [] => w
  | w, k, m :: ms =>
    match ruleAct settings half embed w [] k m with
    | none => w
    | some (w', k') => runHandler settings half embed w' k' ms

/-- The floor of the settings an operation on the corpus runs under. -/
def CorpusOp.floor : CorpusOp → ℚ
  | .upload settings _ _ _ _ => settings.ruleSimilarityFloor
  | .sync _ env _ => env.settings.ruleSimilarityFloor
  | .sweep _ env _ => env.settings.ruleSimilarityFloor
  | .reingest settings _ _ _ => settings.ruleSimilarityFloor
  | _ => 0

def newGrants (db db' : Db) : List DocumentAcl :=
  db'.documentAcl.filter fun a => a ∉ db.documentAcl

section

variable (sha256Hex : Bytes → String) (hashKey : String → String) (verifyPassword : String → String → Bool)
  (settings : Settings) (half : ℚ → ℚ)

def AccessWorld.commit (w : AccessWorld) (db : Db) (floor : ℚ) : AccessWorld :=
  { w with db := db, written := w.written ++ (newGrants w.db db).map (·, floor) }

@[simp] theorem AccessWorld.commit_db (w : AccessWorld) (db : Db) (floor : ℚ) : (w.commit db floor).db = db := rfl

end

/-- `1 - (a <=> b) >= floor`, computed exactly: the similarity to a zero vector is `NaN`, which Postgres ranks above
every number. -/
def ClearsFloor (floor : ℚ) (a b : Embedding) : Prop :=
  dot a a = 0 ∨ dot b b = 0 ∨ (floor : ℝ) ≤ cosine a b

/-- A comparison of the code: an ingest takes the vectors as they are, a search their operands in SQL. -/
def Cleared (operand : Embedding → Embedding) (floor : ℚ) (a b : Embedding) : Prop :=
  ClearsFloor floor a b ∨ ClearsFloor floor (operand a) (operand b)

variable {floor : ℚ} {a b : Embedding}

theorem similarityGeSql_iff : similarityGeSql floor a b = true ↔ ClearsFloor floor a b := by
  unfold similarityGeSql ClearsFloor
  by_cases hzero : dot a a = 0 ∨ dot b b = 0
  · rw [if_pos hzero]
    tauto
  · rw [if_neg hzero]
    obtain ⟨ha, hb⟩ := not_or.mp hzero
    rw [leDivSqrt_cosine floor ha hb]
    tauto

def Db.rights (db : Db) : List AccessRule × List DocumentAcl × Nat × List Chunk :=
  (db.accessRules, db.documentAcl, db.aclSeq, db.chunks)

section Account

variable {hashKey : String → String} {verifyPassword : String → String → Bool} {settings : Settings} {db db' : Db}

end Account

end ProRag
