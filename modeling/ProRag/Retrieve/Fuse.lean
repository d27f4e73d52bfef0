import ProRag.Retrieve.Arms

/-!
# Reciprocal rank fusion
-/

namespace ProRag

open Framework

def rrfK : Nat := 60

/-- One hit at a rank of a list: it adds to the entry of its chunk, or opens it. -/
def fuseHit (fused : List Hit) (hit : Hit) (contribution : ℚ) : List Hit :=
  match selectOne Hit.chunkId hit.chunkId fused with
  | none => fused ++ [{ hit with score := contribution }]
  | some _ => updateWhere (fun h => h.chunkId = hit.chunkId) (fun h => { h with score := h.score + contribution }) fused

/-- One ranked list; `rank` counts from 1. -/
def fuseList (weight : ℚ) : Nat → List Hit → List Hit → List Hit
  | _, [], fused => fused
  | rank, hit :: hits, fused => fuseList weight (rank + 1) hits (fuseHit fused hit (weight / (rrfK + rank)))

/-- `sorted(hits, key=score, reverse=True)`, which is stable. -/
def sortByScore (hits : List Hit) : List Hit :=
  hits.insertionSort fun a b => b.score ≤ a.score

/-- `rrf_fuse(ranked_lists, weights)`. -/
def rrfFuse (rankedLists : List (List Hit)) (weights : List ℚ) : Except PyError (List Hit) :=
  if rankedLists.length ≠ weights.length then .error ⟨"ValueError", "zip() arguments have different lengths"⟩
  else .ok (sortByScore ((rankedLists.zip weights).foldl (fun fused p => fuseList p.2 1 p.1 fused) []))

end ProRag
