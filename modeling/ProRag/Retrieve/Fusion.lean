import ProRag.Framework.Tally
import ProRag.Operations.Retrieval

/-!
# What the fusion computes

The nested loops of `rrf_fuse` are a keyed tally over all occurrences, sorted stably by score.
-/

namespace ProRag

open Framework

/-- The occurrences of a list from a rank on, each with what it contributes. -/
def occurrencesFrom (weight : ℚ) (rank : Nat) (hits : List Hit) : List (Hit × ℚ) :=
  (hits.zipIdx rank).map fun o => (o.1, weight / (rrfK + o.2))

/-- The occurrences of all lists, in the order of the scan. -/
def occurrences (rankedLists : List (List Hit)) (weights : List ℚ) : List (Hit × ℚ) :=
  (rankedLists.zip weights).flatMap fun p => occurrencesFrom p.2 1 p.1

/-- The sum of `weight / (60 + rank)` over every occurrence of a chunk. -/
def rrfScore (rankedLists : List (List Hit)) (weights : List ℚ) (chunkId : Nat) : ℚ :=
  ((rankedLists.zip weights).map fun p =>
    ((p.1.zipIdx 1).map fun o => if o.1.chunkId = chunkId then p.2 / (60 + o.2) else 0).sum).sum

structure Fuses (rankedLists : List (List Hit)) (weights : List ℚ) (fused : List Hit) : Prop where
  once : ∀ chunkId, (fused.map Hit.chunkId).count chunkId =
    if chunkId ∈ rankedLists.flatten.map Hit.chunkId then 1 else 0
  score : ∀ h ∈ fused, h.score = rrfScore rankedLists weights h.chunkId
  fields : ∀ h ∈ fused, ∃ first, selectOne Hit.chunkId h.chunkId rankedLists.flatten = some first ∧
    h = { first with score := h.score }
  ranked : fused.Pairwise fun a b => b.score < a.score ∨ (a.score = b.score ∧
    (rankedLists.flatten.map Hit.chunkId).idxOf a.chunkId < (rankedLists.flatten.map Hit.chunkId).idxOf b.chunkId)

/-- `chunk_id -> score`. -/
def scoreOf (fused : List Hit) (chunkId : Nat) : Option ℚ :=
  (selectOne Hit.chunkId chunkId fused).map Hit.score

/-- An entry of the dictionary. -/
def fusedHit (e : Hit × ℚ) : Hit := { e.1 with score := e.2 }

theorem sortByScore_stable (hits : List Hit) : StablyRanked Hit.score hits (sortByScore hits) :=
  rankBy_stable Hit.score hits

theorem selectOne_fusedHit (chunkId : Nat) (entries : List (Hit × ℚ)) :
    selectOne Hit.chunkId chunkId (entries.map fusedHit) =
      (selectOne (fun e : Hit × ℚ => e.1.chunkId) chunkId entries).map fusedHit := by
  simp only [selectOne, List.find?_map]
  rfl

theorem fuseHit_addTo (entries : List (Hit × ℚ)) (hit : Hit) (contribution : ℚ) :
    fuseHit (entries.map fusedHit) hit contribution = (addTo Hit.chunkId entries (hit, contribution)).map fusedHit := by
  unfold fuseHit addTo
  rw [selectOne_fusedHit]
  cases selectOne (fun e : Hit × ℚ => e.1.chunkId) hit.chunkId entries with
  | none => simp [fusedHit]
  | some e =>
    simp only [Option.map_some, updateWhere, List.map_map]
    apply List.map_congr_left
    intro e _
    by_cases hid : e.1.chunkId = hit.chunkId
    · simp [fusedHit, hid]
    · simp [fusedHit, hid]

theorem fuseList_addTo (weight : ℚ) (rank : Nat) (hits : List Hit) (entries : List (Hit × ℚ)) :
    fuseList weight rank hits (entries.map fusedHit) =
      ((occurrencesFrom weight rank hits).foldl (addTo Hit.chunkId) entries).map fusedHit := by
  induction hits generalizing rank entries with
  | nil => rfl
  | cons hit hits ih =>
    rw [fuseList, fuseHit_addTo, ih]
    rfl

theorem foldl_fuseList (lists : List (List Hit × ℚ)) (entries : List (Hit × ℚ)) :
    lists.foldl (fun fused p => fuseList p.2 1 p.1 fused) (entries.map fusedHit) =
      ((lists.flatMap fun p => occurrencesFrom p.2 1 p.1).foldl (addTo Hit.chunkId) entries).map fusedHit := by
  induction lists generalizing entries with
  | nil => rfl
  | cons p lists ih =>
    rw [List.foldl_cons, fuseList_addTo, ih, List.flatMap_cons, List.foldl_append]

section

variable {rankedLists : List (List Hit)} {weights : List ℚ}

theorem occurrences_hits (hlen : rankedLists.length = weights.length) :
    (occurrences rankedLists weights).map Prod.fst = rankedLists.flatten := by
  have hlist : ∀ p : List Hit × ℚ, (occurrencesFrom p.2 1 p.1).map Prod.fst = p.1 := by
    intro p
    simp [occurrencesFrom, Function.comp_def]
  rw [occurrences, List.map_flatMap]
  simp only [hlist]
  rw [List.flatMap_def, List.map_fst_zip hlen.le]

theorem total_occurrences (chunkId : Nat) :
    total Hit.chunkId chunkId (occurrences rankedLists weights) = rrfScore rankedLists weights chunkId := by
  simp only [total, occurrences, occurrencesFrom, rrfScore, rrfK, List.flatMap_def, List.map_flatten, List.sum_flatten,
    List.map_map, Function.comp_def, Nat.cast_ofNat]

/-- The dictionary: the first hit of each chunk, with the score of the chunk. -/
theorem rrfFuse_eq (hlen : rankedLists.length = weights.length) :
    rrfFuse rankedLists weights = .ok (sortByScore ((firsts Hit.chunkId rankedLists.flatten).map fun h =>
      { h with score := rrfScore rankedLists weights h.chunkId })) := by
  have hfold := foldl_fuseList (rankedLists.zip weights) []
  have htally := @foldl_addTo Hit Nat ℚ _ Hit.chunkId _ (occurrences rankedLists weights)
  rw [occurrences_hits hlen] at htally
  rw [rrfFuse, if_neg (not_not.mpr hlen)]
  rw [← occurrences, htally, List.map_map, List.map_nil] at hfold
  rw [hfold]
  simp only [Function.comp_def, fusedHit, total_occurrences]

theorem fuses_sorted :
    Fuses rankedLists weights (sortByScore ((firsts Hit.chunkId rankedLists.flatten).map fun h =>
      { h with score := rrfScore rankedLists weights h.chunkId })) := by
  generalize hentries : ((firsts Hit.chunkId rankedLists.flatten).map fun h : Hit =>
    { h with score := rrfScore rankedLists weights h.chunkId }) = entries
  have hstable := sortByScore_stable entries
  have hmem : ∀ h ∈ sortByScore entries, ∃ first ∈ firsts Hit.chunkId rankedLists.flatten,
      h = { first with score := rrfScore rankedLists weights first.chunkId } := by
    intro h hh
    have hin : h ∈ entries := hstable.perm.mem_iff.mp hh
    rw [← hentries] at hin
    obtain ⟨first, hfirst, heq⟩ := List.mem_map.mp hin
    exact ⟨first, hfirst, heq.symm⟩
  have hids : entries.map Hit.chunkId = (firsts Hit.chunkId rankedLists.flatten).map Hit.chunkId := by
    rw [← hentries, List.map_map]
    rfl
  constructor
  case once =>
    intro chunkId
    have hnodup : (entries.map Hit.chunkId).Nodup := by
      rw [hids]
      exact firsts_unique _
    rw [(hstable.perm.map Hit.chunkId).count_eq, hnodup.count, hids]
    have hiff : chunkId ∈ (firsts Hit.chunkId rankedLists.flatten).map Hit.chunkId ↔
        chunkId ∈ rankedLists.flatten.map Hit.chunkId := by
      rw [List.mem_map, List.mem_map]
      exact exists_mem_firsts
    simp only [hiff]
  case score =>
    intro h hh
    obtain ⟨first, _, rfl⟩ := hmem h hh
    rfl
  case fields =>
    intro h hh
    obtain ⟨first, hfirst, rfl⟩ := hmem h hh
    exact ⟨first, selectOne_firsts hfirst, rfl⟩
  case ranked =>
    apply hstable.ordered
    rw [← hentries, List.pairwise_map]
    exact firsts_order _

theorem rrfScore_perm {rankedLists' : List (List Hit)} {weights' : List ℚ}
    (hperm : (rankedLists'.zip weights').Perm (rankedLists.zip weights)) (chunkId : Nat) :
    rrfScore rankedLists' weights' chunkId = rrfScore rankedLists weights chunkId :=
  (hperm.map _).sum_eq

theorem Fuses.scoreOf_eq {fused : List Hit} (h : Fuses rankedLists weights fused) (chunkId : Nat) :
    scoreOf fused chunkId =
      if chunkId ∈ rankedLists.flatten.map Hit.chunkId then some (rrfScore rankedLists weights chunkId) else none := by
  have honce := h.once chunkId
  unfold scoreOf
  cases hfind : selectOne Hit.chunkId chunkId fused with
  | none =>
    have hcount : (fused.map Hit.chunkId).count chunkId = 0 := by
      apply List.count_eq_zero.mpr
      intro hmem
      obtain ⟨x, hx, hid⟩ := List.mem_map.mp hmem
      exact selectOne_eq_none.mp hfind x hx hid
    split at honce
    · omega
    · rename_i habsent
      rw [if_neg habsent, Option.map_none]
  | some x =>
    obtain ⟨hx, rfl⟩ := selectOne_mem hfind
    have hcount : 0 < (fused.map Hit.chunkId).count x.chunkId := List.count_pos_iff.mpr (List.mem_map_of_mem hx)
    split at honce
    · rename_i hpresent
      rw [if_pos hpresent, Option.map_some, h.score x hx]
    · omega

end

theorem gatherHits_fuses {settings : Settings} {scorer : Scorer} {db : Db} {plan : QueryPlan} {embeddings : List Embedding}
    {user : Option User} {g : Gathered} (h : gatherHits settings scorer db plan embeddings user = .ok g) :
    Fuses (g.vectorLists ++ g.ftsLists ++ g.structuredLists)
      (List.replicate g.vectorLists.length 1 ++ List.replicate g.ftsLists.length 1 ++
        List.replicate g.structuredLists.length settings.structuredWeight) g.fused := by
  obtain ⟨ftsLists, _, h⟩ := bind_eq_ok.mp h
  obtain ⟨fused, hfused, h⟩ := bind_eq_ok.mp h
  cases h
  rw [rrfFuse_eq (by simp [Nat.add_assoc])] at hfused
  cases hfused
  exact fuses_sorted

/-- The fusion meets its definition, and no order of the lists changes the score of a chunk. -/
theorem rrfFuse_meets (rankedLists : List (List Hit)) (weights : List ℚ) (hlen : rankedLists.length = weights.length) :
    ∃ fused, rrfFuse rankedLists weights = .ok fused ∧ Fuses rankedLists weights fused ∧
      ∀ rankedLists' weights', rankedLists'.length = weights'.length →
        (rankedLists'.zip weights').Perm (rankedLists.zip weights) →
          ∃ fused', rrfFuse rankedLists' weights' = .ok fused' ∧ ∀ chunkId, scoreOf fused' chunkId = scoreOf fused chunkId := by
  refine ⟨_, rrfFuse_eq hlen, fuses_sorted, ?_⟩
  intro rankedLists' weights' hlen' hperm
  refine ⟨_, rrfFuse_eq hlen', fun chunkId => ?_⟩
  have hlists : rankedLists'.Perm rankedLists := by
    have hfst := hperm.map Prod.fst
    rwa [List.map_fst_zip hlen'.le, List.map_fst_zip hlen.le] at hfst
  have hmem : chunkId ∈ rankedLists'.flatten.map Hit.chunkId ↔ chunkId ∈ rankedLists.flatten.map Hit.chunkId :=
    (hlists.flatten.map Hit.chunkId).mem_iff
  rw [fuses_sorted.scoreOf_eq, fuses_sorted.scoreOf_eq, rrfScore_perm hperm]
  simp only [hmem]

/-- A hit at a rank of a list. -/
def rankedHit (chunkId : Nat) (title : String) : Hit :=
  { chunkId := chunkId, docId := 1, text := "drill", page := none, bbox := none, kind := none, title := title, score := 0 }

theorem rrfFuse_meets_twice :
    [[rankedHit 4 "a", rankedHit 7 "b", rankedHit 4 "c"], [rankedHit 7 "d"]].length = [(1 : ℚ), 12 / 10].length ∧
      ∃ fused, rrfFuse [[rankedHit 4 "a", rankedHit 7 "b", rankedHit 4 "c"], [rankedHit 7 "d"]] [1, 12 / 10] = .ok fused ∧
        Fuses [[rankedHit 4 "a", rankedHit 7 "b", rankedHit 4 "c"], [rankedHit 7 "d"]] [1, 12 / 10] fused := by
  obtain ⟨fused, hfused, hfuses, _⟩ :=
    rrfFuse_meets [[rankedHit 4 "a", rankedHit 7 "b", rankedHit 4 "c"], [rankedHit 7 "d"]] [1, 12 / 10] rfl
  exact ⟨rfl, fused, hfused, hfuses⟩

end ProRag
