import ProRag.Retrieve.Fuse

/-!
# The adaptive crop
-/

namespace ProRag

/-- The keyword arguments of `crop_context`. -/
structure CropParams where
  minDocs : Nat := 3
  maxDocs : Nat := 12
  maxChunksPerDoc : Nat := 3
  scoreFloor : ℚ := 2 / 100
  tokenBudget : Nat := 6000
  minChars : Nat := 150

/-- The printing that holds a title, and how many of its chunks are kept. -/
structure TitleSlot where
  title : String
  winner : Hit
  taken : Nat

structure Deduped where
  kept : List Hit
  slots : List TitleSlot

/-- The whitespace at which `str.split` cuts. -/
def isPySpace (c : Char) : Bool :=
  let n := c.toNat
  (9 ≤ n && n ≤ 13) || (28 ≤ n && n ≤ 32) || n = 133 || n = 160 || n = 5760 || (8192 ≤ n && n ≤ 8202) ||
    n = 8232 || n = 8233 || n = 8239 || n = 8287 || n = 12288

/-- `len(text.split())`; `inWord` says whether the last character belonged to a word. -/
def countWords : Bool → List Char → Nat
  | _, [] => 0
  | inWord, c :: cs =>
    if isPySpace c then countWords false cs
    else if inWord then countWords true cs
    else countWords true cs + 1

variable (normalizeTitle : String → String)

/-- `h.get("title_norm") or normalize_title(h.get("title"))`. -/
def Hit.titleKey (h : Hit) : String :=
  match h.titleNorm with
  | none => normalizeTitle h.title
  | some t => if t = "" then normalizeTitle h.title else t

/-- One turn of the loop that drops older printings and surplus chunks. -/
def dedupeHit (maxChunksPerDoc : Nat) (s : Deduped) (h : Hit) : Deduped :=
  let title := h.titleKey normalizeTitle
  match s.slots.find? fun slot => slot.title = title with
  | none => ⟨s.kept ++ [h], s.slots ++ [⟨title, h, 1⟩]⟩
  | some slot =>
    let newer := match h.docDate, slot.winner.docDate with
      | some hd, some wd => decide (wd < hd)
      | _, _ => false
    if newer then
      ⟨s.kept.filter (fun x => x.titleKey normalizeTitle ≠ title) ++ [h],
        s.slots.map fun x => if x.title = title then ⟨title, h, 1⟩ else x⟩
    else if h.docId = slot.winner.docId ∧ slot.taken < maxChunksPerDoc then
      ⟨s.kept ++ [h], s.slots.map fun x => if x.title = title then { x with taken := x.taken + 1 } else x⟩
    else s

/-- `h.get("token_count") or len(text.split())`. -/
def Hit.tokens (h : Hit) : Nat :=
  match h.tokenCount with
  | some (n + 1) => n + 1
  | _ => countWords false h.text.toList

/-- The token budget, which the first `minDocs` hits do not observe. -/
def withinBudget (minDocs budget : Nat) : Nat → Nat → List Hit → List Hit
  | _, _, [] => []
  | i, total, h :: hs =>
    if minDocs ≤ i ∧ budget < total + h.tokens then []
    else h :: withinBudget minDocs budget (i + 1) (total + h.tokens) hs

/-- `crop_context(hits, …)`. -/
def cropContext (p : CropParams) (hits : List Hit) : List Hit :=
  let deduped := ((sortByScore hits).foldl (dedupeHit normalizeTitle p.maxChunksPerDoc) ⟨[], []⟩).kept
  let substantial := deduped.filter fun h => p.minChars ≤ h.text.length
  let pool := if p.minDocs ≤ substantial.length then substantial else deduped
  let kept := pool.filter fun h => p.scoreFloor ≤ h.score
  let kept := if kept.length < p.minDocs then pool.take p.minDocs
    else if p.maxDocs < kept.length then kept.take p.maxDocs else kept
  withinBudget p.minDocs p.tokenBudget 0 0 kept

end ProRag
