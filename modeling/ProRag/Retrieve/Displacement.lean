import Mathlib.Algebra.Order.BigOperators.Group.List
import ProRag.Retrieve.Printings

/-!
# A short chunk among the hits

The dedup runs before the filter on the length of the text, so a chunk that the filter drops has had its turn.
-/

namespace ProRag

open Framework

namespace CropKeys

variable {α ι δ : Type*} [DecidableEq ι] [LinearOrder δ] (keys : CropKeys α ι δ) (args : CropArgs)

/-- `len(text) >= min_chars`. -/
def isLong (h : α) : Bool := args.minChars ≤ (keys.text h).length

/-- A ranked hit with its place, which tells equal hits apart. -/
def placed : CropKeys (α × Nat) ι δ := keys.comap Prod.fst

/-- The substantial chunks kept of one title, from its ranked hits. -/
def longOf (title : String) (ranked : List (α × Nat)) : List (α × Nat) :=
  (keys.placed.admitted args.maxChunksPerDoc (keys.placed.ofTitle title ranked)).filter (keys.placed.isLong args)

/-- Between the hits above it and those below it, `s` leaves its title the same substantial chunks. -/
def Undisturbed (above : List α) (s : α) (below : List α) : Prop :=
  keys.longOf args (keys.titleKey s) ((above ++ s :: below).zipIdx) =
    keys.longOf args (keys.titleKey s) (above.zipIdx ++ below.zipIdx (above.length + 1))

/-- Whatever the other arguments, where both lists have enough substantial chunks the crop is the same. -/
def Unaffected (hits hits' : List α) : Prop :=
  ∀ minDocs maxDocs scoreFloor tokenBudget, minDocs ≤ (keys.substantial args hits).length →
    minDocs ≤ (keys.substantial args hits').length →
      keys.crop ⟨minDocs, maxDocs, args.maxChunksPerDoc, scoreFloor, tokenBudget, args.minChars⟩ hits' =
        keys.crop ⟨minDocs, maxDocs, args.maxChunksPerDoc, scoreFloor, tokenBudget, args.minChars⟩ hits

variable {keys args}

theorem crop_substantial {hits : List α} (h : args.minDocs ≤ (keys.substantial args hits).length) :
    keys.crop args hits = keys.budgeted args.minDocs args.tokenBudget 0 0 (keys.clamp args (keys.substantial args hits)) := by
  have hpool : keys.pool args (keys.deduped args.maxChunksPerDoc hits) = keys.substantial args hits := if_pos h
  rw [← hpool]
  rfl

theorem substantial_placed (ranked : List (α × Nat)) :
    (keys.scan args.maxChunksPerDoc (ranked.map Prod.fst)).deduped.filter (keys.isLong args) =
      ((keys.placed.scan args.maxChunksPerDoc ranked).deduped.filter (keys.placed.isLong args)).map Prod.fst := by
  rw [scan_comap, forget, List.filter_map]
  rfl

variable {above below : List α} {s : α}

theorem places_with (above below : List α) (s : α) : (above ++ s :: below).zipIdx =
    above.zipIdx ++ (s, above.length) :: below.zipIdx (above.length + 1) := by
  simp [List.zipIdx_append]

theorem places_without (above below : List α) :
    (above.zipIdx ++ below.zipIdx (above.length + 1)).map Prod.fst = above ++ below := by
  simp

theorem longOf_other {title : String} (hne : keys.titleKey s ≠ title) :
    keys.longOf args title ((above ++ s :: below).zipIdx) =
      keys.longOf args title (above.zipIdx ++ below.zipIdx (above.length + 1)) := by
  have hne' : keys.placed.titleKey (s, above.length) ≠ title := hne
  have hcons : keys.placed.ofTitle title ((s, above.length) :: below.zipIdx (above.length + 1)) =
      keys.placed.ofTitle title (below.zipIdx (above.length + 1)) := by
    simp [ofTitle, hne']
  unfold longOf
  rw [places_with, ofTitle_append, hcons, ← ofTitle_append]

theorem Undisturbed.substantial (h : Undisturbed keys args above s below) :
    (keys.scan args.maxChunksPerDoc (above ++ s :: below)).deduped.filter (keys.isLong args) =
      (keys.scan args.maxChunksPerDoc (above ++ below)).deduped.filter (keys.isLong args) := by
  have hwith : ((above ++ s :: below).zipIdx).map Prod.fst = above ++ s :: below := by simp
  rw [← hwith, ← places_without above below, substantial_placed, substantial_placed]
  congr 1
  apply scan_filter_eq (keys.placed.isLong args) (zipIdx_nodup (above ++ s :: below) 0) List.filter_sublist
  · rw [places_with]
    exact List.filter_sublist.trans ((List.Sublist.refl _).append (List.sublist_cons_self _ _))
  · intro title
    by_cases htitle : keys.titleKey s = title
    · rw [← htitle]
      exact h
    · exact longOf_other htitle

omit [DecidableEq ι] [LinearOrder δ] in
theorem budgeted_all (hits : List α) (tokenBudget : ℤ) (i : Nat) (total : ℤ)
    (h : total + (hits.map fun x => max 0 (keys.tokens x)).sum ≤ tokenBudget) :
    keys.budgeted 0 tokenBudget i total hits = hits := by
  induction hits generalizing i total with
  | nil => rfl
  | cons x hits ih =>
    rw [List.map_cons, List.sum_cons] at h
    have hrest : 0 ≤ (hits.map fun x => max 0 (keys.tokens x)).sum := by
      apply List.sum_nonneg
      intro t ht
      obtain ⟨y, _, rfl⟩ := List.mem_map.mp ht
      exact le_max_left 0 _
    have hx : keys.tokens x ≤ max 0 (keys.tokens x) := le_max_right 0 _
    have hfits : ¬(0 ≤ i ∧ tokenBudget < total + keys.tokens x) := by omega
    unfold budgeted
    rw [if_neg hfits, ih (i + 1) (total + keys.tokens x) (by omega)]

omit [DecidableEq ι] [LinearOrder δ] in
theorem exists_floor (score : α → ℚ) (hits : List α) : ∃ scoreFloor, ∀ h ∈ hits, scoreFloor ≤ score h := by
  induction hits with
  | nil => exact ⟨0, fun h hh => by cases hh⟩
  | cons x hits ih =>
    obtain ⟨scoreFloor, hfloor⟩ := ih
    refine ⟨min (score x) scoreFloor, fun h hh => ?_⟩
    rcases List.mem_cons.mp hh with rfl | hh
    · exact min_le_left _ _
    · exact (min_le_right _ _).trans (hfloor h hh)

theorem substantial_sublist (hits : List α) : (keys.substantial args hits).Sublist (rankBy keys.score hits) :=
  List.filter_sublist.trans (scan_sublist keys _ _)

theorem crop_uncut (hits : List α) {scoreFloor : ℚ} {maxDocs : Nat} {tokenBudget : ℤ} (hfloor : ∀ h ∈ hits, scoreFloor ≤ keys.score h)
    (hmax : hits.length ≤ maxDocs) (hbudget : (hits.map fun x => max 0 (keys.tokens x)).sum ≤ tokenBudget) :
    keys.crop ⟨0, maxDocs, args.maxChunksPerDoc, scoreFloor, tokenBudget, args.minChars⟩ hits = keys.substantial args hits := by
  have hranked : (rankBy keys.score hits).Perm hits := (rankBy_stable keys.score hits).perm
  have hsub : (keys.substantial args hits).Sublist (rankBy keys.score hits) := substantial_sublist hits
  have hkept : (keys.substantial args hits).filter (fun h => scoreFloor ≤ keys.score h) = keys.substantial args hits := by
    apply List.filter_eq_self.mpr
    intro h hh
    simpa using hfloor h (hranked.mem_iff.mp (hsub.subset hh))
  have hlength : ¬maxDocs < (keys.substantial args hits).length := by
    have hle := hsub.length_le
    rw [hranked.length_eq] at hle
    omega
  have hclamp : keys.clamp ⟨0, maxDocs, args.maxChunksPerDoc, scoreFloor, tokenBudget, args.minChars⟩
      (keys.substantial args hits) = keys.substantial args hits := by
    simp only [clamp, hkept, Nat.not_lt_zero, if_false, hlength]
  have hsum : ((keys.substantial args hits).map fun x => max 0 (keys.tokens x)).sum ≤ tokenBudget := by
    have hle := List.Sublist.sum_le_sum (hsub.map fun x => max 0 (keys.tokens x)) (by
      intro t ht
      obtain ⟨y, _, rfl⟩ := List.mem_map.mp ht
      exact le_max_left 0 _)
    rw [(hranked.map _).sum_eq] at hle
    exact hle.trans hbudget
  have hcrop := @crop_substantial _ _ _ _ _ keys
    ⟨0, maxDocs, args.maxChunksPerDoc, scoreFloor, tokenBudget, args.minChars⟩ hits (Nat.zero_le _)
  have hsame : keys.substantial ⟨0, maxDocs, args.maxChunksPerDoc, scoreFloor, tokenBudget, args.minChars⟩ hits =
      keys.substantial args hits := rfl
  rw [hcrop, hsame, hclamp]
  exact budgeted_all _ tokenBudget 0 0 (by omega)

theorem Unaffected.substantial {hits hits' : List α} (h : Unaffected keys args hits hits') (hsub : hits.Sublist hits') :
    keys.substantial args hits' = keys.substantial args hits := by
  obtain ⟨scoreFloor, hfloor⟩ := exists_floor keys.score hits'
  have hbudget : (hits.map fun x => max 0 (keys.tokens x)).sum ≤ (hits'.map fun x => max 0 (keys.tokens x)).sum := by
    apply List.Sublist.sum_le_sum (hsub.map _)
    intro t ht
    obtain ⟨y, _, rfl⟩ := List.mem_map.mp ht
    exact le_max_left 0 _
  have hsame := h 0 hits'.length scoreFloor (hits'.map fun x => max 0 (keys.tokens x)).sum (Nat.zero_le _) (Nat.zero_le _)
  rw [crop_uncut hits' hfloor le_rfl le_rfl,
    crop_uncut hits (fun x hx => hfloor x (hsub.subset hx)) hsub.length_le hbudget] at hsame
  exact hsame

omit [DecidableEq ι] [LinearOrder δ] in
theorem placed_eq {all a b : List (α × Nat)} (hall : (all.map Prod.fst).Nodup) (ha : a ⊆ all) (hb : b ⊆ all)
    (h : a.map Prod.fst = b.map Prod.fst) : a = b := by
  induction a generalizing b with
  | nil => exact (List.map_eq_nil_iff.mp h.symm).symm
  | cons x a ih =>
    cases b with
    | nil => cases h
    | cons y b =>
      rw [List.map_cons, List.map_cons] at h
      obtain ⟨hxy, h⟩ := List.cons.inj h
      rw [List.inj_on_of_nodup_map hall (ha List.mem_cons_self) (hb List.mem_cons_self) hxy,
        ih (fun z hz => ha (List.mem_cons_of_mem _ hz)) (fun z hz => hb (List.mem_cons_of_mem _ hz)) h]

theorem longOf_scan (title : String) (ranked : List (α × Nat)) : keys.longOf args title ranked =
    keys.placed.ofTitle title ((keys.placed.scan args.maxChunksPerDoc ranked).deduped.filter (keys.placed.isLong args)) := by
  rw [longOf, ← (scan_keeps keys.placed args.maxChunksPerDoc ranked).kept]
  simp only [ofTitle, List.filter_filter]
  apply List.filter_congr
  intro x _
  exact Bool.and_comm _ _

theorem undisturbed_of_substantial (hdistinct : (above ++ s :: below).Nodup)
    (h : (keys.scan args.maxChunksPerDoc (above ++ s :: below)).deduped.filter (keys.isLong args) =
      (keys.scan args.maxChunksPerDoc (above ++ below)).deduped.filter (keys.isLong args)) :
    Undisturbed keys args above s below := by
  have hwith : ((above ++ s :: below).zipIdx).map Prod.fst = above ++ s :: below := by simp
  have hsub : (above.zipIdx ++ below.zipIdx (above.length + 1)).Sublist ((above ++ s :: below).zipIdx) := by
    rw [places_with]
    exact (List.Sublist.refl _).append (List.sublist_cons_self _ _)
  rw [← hwith, ← places_without above below, substantial_placed, substantial_placed] at h
  have hplaced := placed_eq (by rw [hwith]; exact hdistinct)
    (List.filter_sublist.trans (scan_sublist keys.placed _ _)).subset
    ((List.filter_sublist.trans (scan_sublist keys.placed _ _)).trans hsub).subset h
  unfold Undisturbed
  rw [longOf_scan, longOf_scan, hplaced]

/-- A hit that leaves its own title undisturbed leaves the crop as it is, whatever its score and its date; and of
different hits no other does. -/
theorem crop_further_hit (keys : CropKeys α ι δ) (args : CropArgs) (front back : List α) (s : α) :
    ∃ above below, rankBy keys.score (front ++ back) = above ++ below ∧
      rankBy keys.score (front ++ s :: back) = above ++ s :: below ∧
      (Undisturbed keys args above s below → Unaffected keys args (front ++ back) (front ++ s :: back)) ∧
      ((front ++ s :: back).Nodup → Unaffected keys args (front ++ back) (front ++ s :: back) →
        Undisturbed keys args above s below) := by
  obtain ⟨above, below, hwithout, hwith⟩ := rankBy_insert keys.score front back s
  have hlong : keys.substantial args (front ++ s :: back) =
      (keys.scan args.maxChunksPerDoc (above ++ s :: below)).deduped.filter (keys.isLong args) := by
    rw [← hwith]
    rfl
  have hlong' : keys.substantial args (front ++ back) =
      (keys.scan args.maxChunksPerDoc (above ++ below)).deduped.filter (keys.isLong args) := by
    rw [← hwithout]
    rfl
  refine ⟨above, below, hwithout, hwith, ?_, ?_⟩
  · intro hundisturbed minDocs maxDocs scoreFloor tokenBudget hmin hmin'
    have hsame : keys.substantial args (front ++ s :: back) = keys.substantial args (front ++ back) := by
      rw [hlong, hlong', hundisturbed.substantial]
    have hcrop := @crop_substantial _ _ _ _ _ keys
      ⟨minDocs, maxDocs, args.maxChunksPerDoc, scoreFloor, tokenBudget, args.minChars⟩ _ hmin
    have hcrop' := @crop_substantial _ _ _ _ _ keys
      ⟨minDocs, maxDocs, args.maxChunksPerDoc, scoreFloor, tokenBudget, args.minChars⟩ _ hmin'
    rw [hcrop, hcrop']
    exact congrArg (fun l => keys.budgeted minDocs tokenBudget 0 0
      (keys.clamp ⟨minDocs, maxDocs, args.maxChunksPerDoc, scoreFloor, tokenBudget, args.minChars⟩ l)) hsame
  · intro hdistinct hunaffected
    have hranked : (above ++ s :: below).Nodup := by
      rw [← hwith]
      exact (rankBy_stable keys.score (front ++ s :: back)).perm.nodup_iff.mpr hdistinct
    apply undisturbed_of_substantial hranked
    rw [← hlong, ← hlong']
    exact hunaffected.substantial ((List.Sublist.refl _).append (List.sublist_cons_self _ _))

/-- A page number and three sections of a manual, and a note; none of them with a date. -/
def sections : CropKeys Nat Nat Nat where
  text := fun h => if h = 0 then "p. 4" else "drill"
  score := fun h => 1 / (h + 1)
  titleKey := fun h => if h = 4 then "note" else "manual"
  docId := fun h => if h = 4 then some 8 else some 7
  docDate := fun _ => none
  tokenCount := fun _ => some 10

/-- The page number takes the place of the third section. -/
theorem crop_pageNumber_displaces :
    (sections.text 0).length < 5 ∧ (∀ h ∈ [1, 2, 3, 4], sections.docId h = sections.docId 0 → sections.docDate h = sections.docDate 0) ∧
      3 ≤ (sections.substantial ⟨3, 12, 3, 2 / 100, 6000, 5⟩ [1, 2, 3, 4]).length ∧
      3 ≤ (sections.substantial ⟨3, 12, 3, 2 / 100, 6000, 5⟩ [0, 1, 2, 3, 4]).length ∧
      sections.crop ⟨3, 12, 3, 2 / 100, 6000, 5⟩ [1, 2, 3, 4] = [1, 2, 3, 4] ∧
      sections.crop ⟨3, 12, 3, 2 / 100, 6000, 5⟩ [0, 1, 2, 3, 4] = [1, 2, 4] := by
  decide +kernel

end CropKeys

end ProRag
