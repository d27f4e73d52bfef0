import ProRag.Retrieve.Crop

/-!
# What the crop keeps

`crop_context` on hits that may lack any key but their text and score, and the specification it meets.
-/

namespace ProRag

open Framework

/-- The keys `crop_context` reads of a hit.  A value that is false counts as absent. -/
structure CropKeys (α ι δ : Type*) where
  text : α → String
  score : α → ℚ
  titleKey : α → String
  docId : α → Option ι
  docDate : α → Option δ
  tokenCount : α → Option ℤ

/-- The keyword arguments, of which the budget may be negative. -/
structure CropArgs where
  minDocs : Nat
  maxDocs : Nat
  maxChunksPerDoc : Nat
  scoreFloor : ℚ
  tokenBudget : ℤ
  minChars : Nat

/-- `deduped`, and `winner_by_title` with `taken_by_title`. -/
structure CropScan (α : Type*) where
  deduped : List α
  slot : String → Option (α × Nat)

namespace CropKeys

variable {α ι δ : Type*} (keys : CropKeys α ι δ)

def ofTitle (title : String) (hits : List α) : List α := hits.filter fun h => keys.titleKey h = title

section

variable {keys}

@[simp] theorem ofTitle_append (title : String) (l l' : List α) :
    keys.ofTitle title (l ++ l') = keys.ofTitle title l ++ keys.ofTitle title l' := List.filter_append ..

theorem ofTitle_same (h : α) : keys.ofTitle (keys.titleKey h) [h] = [h] := by
  simp [ofTitle]

theorem ofTitle_other {title : String} {h : α} (hne : keys.titleKey h ≠ title) : keys.ofTitle title [h] = [] := by
  simp [ofTitle, hne]

theorem ofTitle_without (title : String) (l : List α) :
    keys.ofTitle title (l.filter fun x => keys.titleKey x ≠ title) = [] := by
  simp [ofTitle, List.filter_filter]

theorem ofTitle_kept {title other : String} (hne : other ≠ title) (l : List α) :
    keys.ofTitle other (l.filter fun x => keys.titleKey x ≠ title) = keys.ofTitle other l := by
  unfold ofTitle
  rw [List.filter_filter]
  apply List.filter_congr
  intro x _
  by_cases hx : keys.titleKey x = other
  · simp [hx, hne]
  · simp [hx]

theorem mem_ofTitle {title : String} {l : List α} {h : α} : h ∈ keys.ofTitle title l ↔ h ∈ l ∧ keys.titleKey h = title := by
  simp [ofTitle]

theorem ofTitle_sublist {l l' : List α} (hsub : l.Sublist l') (title : String) :
    (keys.ofTitle title l).Sublist (keys.ofTitle title l') :=
  hsub.filter _

end

section

variable [DecidableEq ι] [LinearOrder δ]

/-- `h_date and w_date and h_date > w_date`. -/
def newer (h winner : α) : Bool :=
  match keys.docDate h, keys.docDate winner with
  | some hd, some wd => decide (wd < hd)
  | _, _ => false

/-- `h.get("doc_id") and h.get("doc_id") == winner.get("doc_id")`. -/
def samePrinting (h winner : α) : Bool :=
  (keys.docId h).isSome && keys.docId h = keys.docId winner

def scanHit (maxChunksPerDoc : Nat) (s : CropScan α) (h : α) : CropScan α :=
  let title := keys.titleKey h
  match s.slot title with
  | none => ⟨s.deduped ++ [h], Function.update s.slot title (some (h, 1))⟩
  | some (winner, taken) =>
    if keys.newer h winner then
      ⟨s.deduped.filter (fun x => keys.titleKey x ≠ title) ++ [h], Function.update s.slot title (some (h, 1))⟩
    else if keys.samePrinting h winner ∧ taken < maxChunksPerDoc then
      ⟨s.deduped ++ [h], Function.update s.slot title (some (winner, taken + 1))⟩
    else s

/-- `h.get("token_count") or len(h.get("text", "").split())`. -/
def tokens (h : α) : ℤ :=
  match keys.tokenCount h with
  | none => countWords false (keys.text h).toList
  | some n => if n = 0 then countWords false (keys.text h).toList else n

/-- The loop of the token budget. -/
def budgeted (minDocs : Nat) (tokenBudget : ℤ) : Nat → ℤ → List α → List α
  | _, _, [] => []
  | i, total, h :: hs =>
    if minDocs ≤ i ∧ tokenBudget < total + keys.tokens h then []
    else h :: budgeted minDocs tokenBudget (i + 1) (total + keys.tokens h) hs

/-- `kept`, behind the floor, the backfill and the cap. -/
def clamp (args : CropArgs) (pool : List α) : List α :=
  let kept := pool.filter fun h => args.scoreFloor ≤ keys.score h
  if kept.length < args.minDocs then pool.take args.minDocs
  else if args.maxDocs < kept.length then kept.take args.maxDocs else kept

/-- The hits with enough text, where there are enough of them. -/
def pool (args : CropArgs) (deduped : List α) : List α :=
  let substantial := deduped.filter fun h => args.minChars ≤ (keys.text h).length
  if args.minDocs ≤ substantial.length then substantial else deduped

/-- `crop_context(hits, …)`. -/
def crop (args : CropArgs) (hits : List α) : List α :=
  let scan := (rankBy keys.score hits).foldl (keys.scanHit args.maxChunksPerDoc) ⟨[], fun _ => none⟩
  keys.budgeted args.minDocs args.tokenBudget 0 0 (keys.clamp args (keys.pool args scan.deduped))

structure Meets (args : CropArgs) (hits result : List α) : Prop where
  ranked : ∃ ranked, StablyRanked keys.score hits ranked ∧ result.Sublist ranked
  atMost : result.length ≤ args.maxDocs
  atLeast : min args.minDocs (hits.map keys.titleKey).dedup.length ≤ result.length
  perTitle : ∀ title, (keys.ofTitle title result).length ≤ args.maxChunksPerDoc
  onePrinting : ∀ title, 1 < (keys.ofTitle title result).length →
    ∃ d, ∀ h ∈ keys.ofTitle title result, keys.docId h = some d
  newest : ∀ date : ι → δ, (∀ h ∈ hits, ∃ t, keys.docDate h = some t ∧ ∀ d, keys.docId h = some d → t = date d) →
    ∀ h ∈ result, ∀ t, keys.docDate h = some t → ∀ other ∈ hits, keys.titleKey other = keys.titleKey h →
      ∀ t', keys.docDate other = some t' → t' ≤ t
  belowFloor : (∃ h ∈ result, keys.score h < args.scoreFloor) → result.length ≤ args.minDocs
  withinBudget : args.minDocs < result.length → (result.map keys.tokens).sum ≤ args.tokenBudget

end

section

variable {keys} {seen : List α} {s : CropScan α} {maxChunksPerDoc : Nat}

/-- The hits scanned so far, the hits kept of them, and the slots agree. -/
structure ScanOk (keys : CropKeys α ι δ) (maxChunksPerDoc : Nat) (seen : List α) (s : CropScan α) : Prop where
  sublist : s.deduped.Sublist seen
  empty : ∀ title, s.slot title = none → ∀ h ∈ seen, keys.titleKey h ≠ title
  holder : ∀ title winner taken, s.slot title = some (winner, taken) →
    winner ∈ s.deduped ∧ keys.titleKey winner = title
  counted : ∀ title winner taken, s.slot title = some (winner, taken) →
    (keys.ofTitle title s.deduped).length = taken ∧ taken ≤ maxChunksPerDoc
  printing : ∀ title winner taken, s.slot title = some (winner, taken) →
    (∀ h ∈ s.deduped, keys.titleKey h = title → keys.docId h = keys.docId winner) ∧
      (1 < taken → (keys.docId winner).isSome)

theorem slot_update {slot : String → Option (α × Nat)} {key title : String} {p q : α × Nat}
    (hslot : Function.update slot key (some p) title = some q) : (title = key ∧ p = q) ∨ (title ≠ key ∧ slot title = some q) := by
  rw [Function.update_apply] at hslot
  split at hslot
  · rename_i htitle
    exact Or.inl ⟨htitle, Option.some.inj hslot⟩
  · rename_i htitle
    exact Or.inr ⟨htitle, hslot⟩

theorem slot_update_none {slot : String → Option (α × Nat)} {key title : String} {p : α × Nat}
    (hslot : Function.update slot key (some p) title = none) : title ≠ key ∧ slot title = none := by
  rw [Function.update_apply] at hslot
  split at hslot
  · cases hslot
  · rename_i htitle
    exact ⟨htitle, hslot⟩

theorem ScanOk.start (maxChunksPerDoc : Nat) : ScanOk keys maxChunksPerDoc [] ⟨[], fun _ => none⟩ where
  sublist := List.Sublist.refl _
  empty := by simp
  holder := by simp
  counted := by simp
  printing := by simp

theorem ScanOk.empty_update (hok : ScanOk keys maxChunksPerDoc seen s) (h : α) (p : α × Nat) (title : String)
    (hnone : Function.update s.slot (keys.titleKey h) (some p) title = none) (x : α) (hx : x ∈ seen ++ [h]) :
    keys.titleKey x ≠ title := by
  obtain ⟨htitle, hslot⟩ := slot_update_none hnone
  rcases List.mem_append.mp hx with hx | hx
  · exact hok.empty title hslot x hx
  · rw [List.mem_singleton.mp hx]
    exact Ne.symm htitle

theorem ScanOk.takes (hpos : 1 ≤ maxChunksPerDoc) (hok : ScanOk keys maxChunksPerDoc seen s) (h : α) {kept : List α}
    (hsub : kept.Sublist s.deduped) (hown : keys.ofTitle (keys.titleKey h) kept = [])
    (hothers : ∀ title, title ≠ keys.titleKey h → keys.ofTitle title kept = keys.ofTitle title s.deduped) :
    ScanOk keys maxChunksPerDoc (seen ++ [h])
      ⟨kept ++ [h], Function.update s.slot (keys.titleKey h) (some (h, 1))⟩ where
  sublist := (hsub.trans hok.sublist).append (List.Sublist.refl _)
  empty := hok.empty_update h (h, 1)
  holder := by
    intro title winner taken hslot
    rcases slot_update hslot with ⟨rfl, hnew⟩ | ⟨htitle, hslot⟩
    · obtain ⟨rfl, rfl⟩ := Prod.mk.inj hnew
      exact ⟨by simp, rfl⟩
    · obtain ⟨hmem, hkey⟩ := hok.holder title winner taken hslot
      have hkept : winner ∈ keys.ofTitle title kept := hothers title htitle ▸ mem_ofTitle.mpr ⟨hmem, hkey⟩
      exact ⟨List.mem_append_left _ (mem_ofTitle.mp hkept).1, hkey⟩
  counted := by
    intro title winner taken hslot
    rw [ofTitle_append]
    rcases slot_update hslot with ⟨rfl, hnew⟩ | ⟨htitle, hslot⟩
    · obtain ⟨rfl, rfl⟩ := Prod.mk.inj hnew
      rw [hown, ofTitle_same]
      exact ⟨rfl, hpos⟩
    · rw [hothers title htitle, ofTitle_other (Ne.symm htitle), List.append_nil]
      exact hok.counted title winner taken hslot
  printing := by
    intro title winner taken hslot
    rcases slot_update hslot with ⟨rfl, hnew⟩ | ⟨htitle, hslot⟩
    · obtain ⟨rfl, rfl⟩ := Prod.mk.inj hnew
      refine ⟨fun x hx hkey => ?_, fun hmany => absurd hmany (lt_irrefl 1)⟩
      rcases List.mem_append.mp hx with hx | hx
      · have hnone : x ∈ keys.ofTitle (keys.titleKey h) kept := mem_ofTitle.mpr ⟨hx, hkey⟩
        rw [hown] at hnone
        cases hnone
      · rw [List.mem_singleton.mp hx]
    · obtain ⟨hsame, hsome⟩ := hok.printing title winner taken hslot
      refine ⟨fun x hx hkey => ?_, hsome⟩
      rcases List.mem_append.mp hx with hx | hx
      · exact hsame x (hsub.subset hx) hkey
      · rw [List.mem_singleton.mp hx] at hkey
        exact absurd hkey.symm htitle

theorem ScanOk.drops (hok : ScanOk keys maxChunksPerDoc seen s) {h winner : α} {taken : Nat}
    (hslot : s.slot (keys.titleKey h) = some (winner, taken)) : ScanOk keys maxChunksPerDoc (seen ++ [h]) s where
  sublist := hok.sublist.trans (List.sublist_append_left _ _)
  empty := by
    intro title hnone x hx
    rcases List.mem_append.mp hx with hx | hx
    · exact hok.empty title hnone x hx
    · obtain rfl := List.mem_singleton.mp hx
      rintro rfl
      rw [hslot] at hnone
      cases hnone
  holder := hok.holder
  counted := hok.counted
  printing := hok.printing

section

variable [LinearOrder δ]

/-- No hit of a title is newer than the winner it ends with. -/
def WinnersNewest (keys : CropKeys α ι δ) (seen : List α) (s : CropScan α) : Prop :=
  ∀ title winner taken, s.slot title = some (winner, taken) → ∀ h ∈ seen, keys.titleKey h = title →
    ∀ t t', keys.docDate h = some t → keys.docDate winner = some t' → t ≤ t'

theorem newer_iff {h winner : α} : keys.newer h winner = true ↔
    ∃ t t', keys.docDate h = some t ∧ keys.docDate winner = some t' ∧ t' < t := by
  unfold newer
  cases keys.docDate h with
  | none => simp
  | some t =>
    cases keys.docDate winner with
    | none => simp
    | some t' => simp

theorem not_newer {h winner : α} (hold : keys.newer h winner = false) {t t' : δ} (ht : keys.docDate h = some t)
    (ht' : keys.docDate winner = some t') : t ≤ t' := by
  by_contra hlt
  have hnew : keys.newer h winner = true := newer_iff.mpr ⟨t, t', ht, ht', not_le.mp hlt⟩
  rw [hold] at hnew
  cases hnew

theorem WinnersNewest.stays (hnewest : WinnersNewest keys seen s) {h winner : α} {taken taken' : Nat}
    (hheld : s.slot (keys.titleKey h) = some (winner, taken)) (hold : keys.newer h winner = false) {title : String}
    {winner' : α} (hslot : s.slot title = some (winner', taken')) :
    ∀ x ∈ seen ++ [h], keys.titleKey x = title → ∀ t t', keys.docDate x = some t → keys.docDate winner' = some t' → t ≤ t' := by
  intro x hx hkey t t' ht ht'
  rcases List.mem_append.mp hx with hx | hx
  · exact hnewest title winner' taken' hslot x hx hkey t t' ht ht'
  · obtain rfl := List.mem_singleton.mp hx
    rw [← hkey, hheld] at hslot
    obtain ⟨rfl, _⟩ := Prod.mk.inj (Option.some.inj hslot)
    exact not_newer hold ht ht'

theorem WinnersNewest.takes (hnewest : WinnersNewest keys seen s) {h : α} {kept : List α}
    (hbest : ∀ x ∈ seen, keys.titleKey x = keys.titleKey h → ∀ t t', keys.docDate x = some t → keys.docDate h = some t' → t ≤ t') :
    WinnersNewest keys (seen ++ [h]) ⟨kept, Function.update s.slot (keys.titleKey h) (some (h, 1))⟩ := by
  intro title winner taken hslot x hx hkey t t' ht ht'
  rcases slot_update hslot with ⟨rfl, hnew⟩ | ⟨htitle, hslot⟩
  · obtain ⟨rfl, _⟩ := Prod.mk.inj hnew
    rcases List.mem_append.mp hx with hx | hx
    · exact hbest x hx hkey t t' ht ht'
    · rw [List.mem_singleton.mp hx, ht'] at ht
      exact (Option.some.inj ht).ge
  · rcases List.mem_append.mp hx with hx | hx
    · exact hnewest title winner taken hslot x hx hkey t t' ht ht'
    · rw [List.mem_singleton.mp hx] at hkey
      exact absurd hkey.symm htitle

end

variable [DecidableEq ι]

theorem samePrinting_iff {h winner : α} :
    keys.samePrinting h winner = true ↔ keys.docId h = keys.docId winner ∧ (keys.docId winner).isSome := by
  unfold samePrinting
  rw [Bool.and_eq_true, decide_eq_true_eq]
  constructor
  · intro hs
    exact ⟨hs.2, hs.2 ▸ hs.1⟩
  · intro hs
    exact ⟨hs.1 ▸ hs.2, hs.1⟩

theorem ScanOk.joins (hok : ScanOk keys maxChunksPerDoc seen s) {h winner : α} {taken : Nat}
    (hheld : s.slot (keys.titleKey h) = some (winner, taken)) (hsame : keys.samePrinting h winner = true)
    (hroom : taken < maxChunksPerDoc) : ScanOk keys maxChunksPerDoc (seen ++ [h])
      ⟨s.deduped ++ [h], Function.update s.slot (keys.titleKey h) (some (winner, taken + 1))⟩ where
  sublist := hok.sublist.append (List.Sublist.refl _)
  empty := hok.empty_update h (winner, taken + 1)
  holder := by
    intro title winner' taken' hslot
    have hbefore : ∃ k, s.slot title = some (winner', k) := by
      rcases slot_update hslot with ⟨rfl, hnew⟩ | ⟨_, hslot⟩
      · obtain ⟨rfl, _⟩ := Prod.mk.inj hnew
        exact ⟨taken, hheld⟩
      · exact ⟨taken', hslot⟩
    obtain ⟨k, hk⟩ := hbefore
    obtain ⟨hmem, hkey⟩ := hok.holder title winner' k hk
    exact ⟨List.mem_append_left _ hmem, hkey⟩
  counted := by
    intro title winner' taken' hslot
    rw [ofTitle_append]
    rcases slot_update hslot with ⟨rfl, hnew⟩ | ⟨htitle, hslot⟩
    · obtain ⟨rfl, rfl⟩ := Prod.mk.inj hnew
      rw [ofTitle_same, List.length_append, (hok.counted _ _ _ hheld).1]
      exact ⟨rfl, hroom⟩
    · rw [ofTitle_other (Ne.symm htitle), List.append_nil]
      exact hok.counted title winner' taken' hslot
  printing := by
    obtain ⟨hdoc, hsome⟩ := samePrinting_iff.mp hsame
    intro title winner' taken' hslot
    rcases slot_update hslot with ⟨rfl, hnew⟩ | ⟨htitle, hslot⟩
    · obtain ⟨rfl, rfl⟩ := Prod.mk.inj hnew
      refine ⟨fun x hx hkey => ?_, fun _ => hsome⟩
      rcases List.mem_append.mp hx with hx | hx
      · exact (hok.printing _ _ _ hheld).1 x hx hkey
      · rw [List.mem_singleton.mp hx, hdoc]
    · obtain ⟨hprint, hmany⟩ := hok.printing title winner' taken' hslot
      refine ⟨fun x hx hkey => ?_, hmany⟩
      rcases List.mem_append.mp hx with hx | hx
      · exact hprint x hx hkey
      · rw [List.mem_singleton.mp hx] at hkey
        exact absurd hkey.symm htitle

variable [LinearOrder δ]

/-- What one hit does: it opens a slot, takes one over, joins one, or is dropped. -/
theorem scanHit_cases (keys : CropKeys α ι δ) (maxChunksPerDoc : Nat) (s : CropScan α) (h : α) :
    (s.slot (keys.titleKey h) = none ∧ keys.scanHit maxChunksPerDoc s h =
      ⟨s.deduped ++ [h], Function.update s.slot (keys.titleKey h) (some (h, 1))⟩) ∨
    (∃ winner taken, s.slot (keys.titleKey h) = some (winner, taken) ∧
      ((keys.newer h winner = true ∧ keys.scanHit maxChunksPerDoc s h =
        ⟨s.deduped.filter (fun x => keys.titleKey x ≠ keys.titleKey h) ++ [h],
          Function.update s.slot (keys.titleKey h) (some (h, 1))⟩) ∨
      (keys.newer h winner = false ∧ keys.samePrinting h winner = true ∧ taken < maxChunksPerDoc ∧
        keys.scanHit maxChunksPerDoc s h =
          ⟨s.deduped ++ [h], Function.update s.slot (keys.titleKey h) (some (winner, taken + 1))⟩) ∨
      (keys.newer h winner = false ∧ keys.scanHit maxChunksPerDoc s h = s))) := by
  cases hslot : s.slot (keys.titleKey h) with
  | none => exact Or.inl ⟨rfl, by simp [scanHit, hslot]⟩
  | some p =>
    obtain ⟨winner, taken⟩ := p
    refine Or.inr ⟨winner, taken, rfl, ?_⟩
    cases hnewer : keys.newer h winner with
    | true => exact Or.inl ⟨rfl, by simp [scanHit, hslot, hnewer]⟩
    | false =>
      right
      by_cases hjoin : keys.samePrinting h winner = true ∧ taken < maxChunksPerDoc
      · exact Or.inl ⟨rfl, hjoin.1, hjoin.2, by simp [scanHit, hslot, hnewer, hjoin]⟩
      · exact Or.inr ⟨rfl, by simp [scanHit, hslot, hnewer, hjoin]⟩

theorem scanHit_ok (hpos : 1 ≤ maxChunksPerDoc) (hok : ScanOk keys maxChunksPerDoc seen s) (h : α) :
    ScanOk keys maxChunksPerDoc (seen ++ [h]) (keys.scanHit maxChunksPerDoc s h) := by
  rcases scanHit_cases keys maxChunksPerDoc s h with ⟨hnone, hstep⟩ | ⟨winner, taken, hslot, hcase⟩
  · rw [hstep]
    apply hok.takes hpos h (List.Sublist.refl _)
    · apply List.eq_nil_iff_forall_not_mem.mpr
      intro x hx
      obtain ⟨hmem, hkey⟩ := mem_ofTitle.mp hx
      exact hok.empty _ hnone x (hok.sublist.subset hmem) hkey
    · exact fun _ _ => rfl
  · rcases hcase with ⟨_, hstep⟩ | ⟨_, hsame, hroom, hstep⟩ | ⟨_, hstep⟩
    · rw [hstep]
      apply hok.takes hpos h List.filter_sublist
      · exact ofTitle_without _ _
      · exact fun title hne => ofTitle_kept hne _
    · rw [hstep]
      exact hok.joins hslot hsame hroom
    · rw [hstep]
      exact hok.drops hslot

theorem scan_ok (hpos : 1 ≤ maxChunksPerDoc) (hok : ScanOk keys maxChunksPerDoc seen s) (hits : List α) :
    ScanOk keys maxChunksPerDoc (seen ++ hits) (hits.foldl (keys.scanHit maxChunksPerDoc) s) := by
  induction hits generalizing seen s with
  | nil => rwa [List.append_nil]
  | cons h hits ih =>
    have hnext := ih (scanHit_ok hpos hok h)
    rwa [List.append_assoc] at hnext

theorem scanHit_newest (hok : ScanOk keys maxChunksPerDoc seen s) (hnewest : WinnersNewest keys seen s) (h : α) :
    WinnersNewest keys (seen ++ [h]) (keys.scanHit maxChunksPerDoc s h) := by
  rcases scanHit_cases keys maxChunksPerDoc s h with ⟨hnone, hstep⟩ | ⟨winner, taken, hheld, hcase⟩
  · rw [hstep]
    apply hnewest.takes
    intro x hx hkey
    exact absurd hkey (hok.empty _ hnone x hx)
  · rcases hcase with ⟨hnew, hstep⟩ | ⟨hold, _, _, hstep⟩ | ⟨hold, hstep⟩
    · rw [hstep]
      obtain ⟨d, w, hd, hw, hlt⟩ := newer_iff.mp hnew
      apply hnewest.takes
      intro x hx hkey t t' ht ht'
      obtain rfl := Option.some.inj (hd.symm.trans ht')
      exact (hnewest _ winner taken hheld x hx hkey t w ht hw).trans hlt.le
    · rw [hstep]
      intro title winner' taken' hslot
      rcases slot_update hslot with ⟨rfl, hsame⟩ | ⟨_, hslot⟩
      · obtain ⟨rfl, _⟩ := Prod.mk.inj hsame
        exact hnewest.stays hheld hold hheld
      · exact hnewest.stays hheld hold hslot
    · rw [hstep]
      intro title winner' taken' hslot
      exact hnewest.stays hheld hold hslot

theorem scan_newest (hpos : 1 ≤ maxChunksPerDoc) (hok : ScanOk keys maxChunksPerDoc seen s)
    (hnewest : WinnersNewest keys seen s) (hits : List α) :
    WinnersNewest keys (seen ++ hits) (hits.foldl (keys.scanHit maxChunksPerDoc) s) := by
  induction hits generalizing seen s with
  | nil => rwa [List.append_nil]
  | cons h hits ih =>
    have hnext := ih (scanHit_ok hpos hok h) (scanHit_newest hok hnewest h)
    rwa [List.append_assoc] at hnext

end

section

variable {keys} {seen : List α} {s : CropScan α} {maxChunksPerDoc : Nat}

theorem ScanOk.held (hok : ScanOk keys maxChunksPerDoc seen s) {h : α} (hmem : h ∈ seen) :
    ∃ winner taken, s.slot (keys.titleKey h) = some (winner, taken) := by
  cases hslot : s.slot (keys.titleKey h) with
  | none => exact absurd rfl (hok.empty _ hslot h hmem)
  | some p => exact ⟨p.1, p.2, rfl⟩

theorem ScanOk.titles (hok : ScanOk keys maxChunksPerDoc seen s) :
    (seen.map keys.titleKey).dedup.length ≤ s.deduped.length := by
  have hsub : (seen.map keys.titleKey).dedup ⊆ s.deduped.map keys.titleKey := by
    intro title htitle
    obtain ⟨h, hmem, rfl⟩ := List.mem_map.mp (List.mem_dedup.mp htitle)
    obtain ⟨winner, taken, hslot⟩ := hok.held hmem
    obtain ⟨hwinner, hkey⟩ := hok.holder _ winner taken hslot
    exact List.mem_map.mpr ⟨winner, hwinner, hkey⟩
  have hlength := (List.subperm_of_subset (List.nodup_dedup _) hsub).length_le
  rwa [List.length_map] at hlength

theorem ScanOk.date_eq (hok : ScanOk keys maxChunksPerDoc seen s) {date : ι → δ}
    (hdates : ∀ h ∈ seen, ∃ t, keys.docDate h = some t ∧ ∀ d, keys.docId h = some d → t = date d) {h winner : α}
    {taken : Nat} (hmem : h ∈ s.deduped) (hslot : s.slot (keys.titleKey h) = some (winner, taken)) :
    keys.docDate h = keys.docDate winner := by
  obtain ⟨hwinner, hkey⟩ := hok.holder _ winner taken hslot
  obtain ⟨hsame, hmany⟩ := hok.printing _ winner taken hslot
  have hcount := (hok.counted _ winner taken hslot).1
  have hh : h ∈ keys.ofTitle (keys.titleKey h) s.deduped := mem_ofTitle.mpr ⟨hmem, rfl⟩
  have hw : winner ∈ keys.ofTitle (keys.titleKey h) s.deduped := mem_ofTitle.mpr ⟨hwinner, hkey⟩
  by_cases htaken : 1 < taken
  · obtain ⟨d, hd⟩ := Option.isSome_iff_exists.mp (hmany htaken)
    obtain ⟨t, ht, hdate⟩ := hdates h (hok.sublist.subset hmem)
    obtain ⟨t', ht', hdate'⟩ := hdates winner (hok.sublist.subset hwinner)
    rw [ht, ht', hdate d ((hsame h hmem rfl).trans hd), hdate' d hd]
  · cases hlist : keys.ofTitle (keys.titleKey h) s.deduped with
    | nil =>
      rw [hlist] at hh
      cases hh
    | cons x rest =>
      rw [hlist, List.length_cons] at hcount
      have hnone : rest = [] := List.eq_nil_of_length_eq_zero (by omega)
      rw [hlist, hnone] at hh hw
      rw [List.mem_singleton.mp hh, List.mem_singleton.mp hw]

end

section

variable {keys} (args : CropArgs) (l : List α)

theorem pool_sublist : (keys.pool args l).Sublist l := by
  unfold pool
  dsimp only
  split
  · exact List.filter_sublist
  · exact List.Sublist.refl _

theorem pool_length : min args.minDocs l.length ≤ (keys.pool args l).length := by
  unfold pool
  dsimp only
  split
  · omega
  · omega

theorem clamp_sublist : (keys.clamp args l).Sublist l := by
  unfold clamp
  dsimp only
  split
  · exact List.take_sublist _ _
  · split
    · exact (List.take_sublist _ _).trans List.filter_sublist
    · exact List.filter_sublist

theorem clamp_length (hmax : args.minDocs ≤ args.maxDocs) :
    (keys.clamp args l).length ≤ args.maxDocs ∧ min args.minDocs l.length ≤ (keys.clamp args l).length := by
  unfold clamp
  dsimp only
  split
  · rw [List.length_take]
    omega
  · split
    · rw [List.length_take]
      omega
    · omega

theorem clamp_floor {h : α} (hmem : h ∈ keys.clamp args l) (hlow : keys.score h < args.scoreFloor) :
    (keys.clamp args l).length ≤ args.minDocs := by
  unfold clamp at hmem ⊢
  dsimp only at hmem ⊢
  split at hmem
  · rw [if_pos ‹_›, List.length_take]
    exact min_le_left _ _
  · have hkept : h ∈ l.filter fun h => args.scoreFloor ≤ keys.score h := by
      split at hmem
      · exact List.mem_of_mem_take hmem
      · exact hmem
    have hhigh : args.scoreFloor ≤ keys.score h := of_decide_eq_true (List.mem_filter.mp hkept).2
    exact absurd hlow (not_lt.mpr hhigh)

variable {l} (minDocs : Nat) (tokenBudget : ℤ)

theorem budgeted_prefix (i : Nat) (total : ℤ) (l : List α) : keys.budgeted minDocs tokenBudget i total l <+: l := by
  induction l generalizing i total with
  | nil => exact List.prefix_rfl
  | cons h l ih =>
    unfold budgeted
    split
    · exact List.nil_prefix
    · exact (List.cons_prefix_cons).mpr ⟨rfl, ih _ _⟩

theorem budgeted_length (i : Nat) (total : ℤ) (l : List α) :
    min (minDocs - i) l.length ≤ (keys.budgeted minDocs tokenBudget i total l).length := by
  induction l generalizing i total with
  | nil => simp
  | cons h l ih =>
    unfold budgeted
    split
    · simp only [List.length_nil]
      omega
    · have hrest := ih (i + 1) (total + keys.tokens h)
      simp only [List.length_cons]
      omega

theorem budgeted_sum (i : Nat) (total : ℤ) (l : List α) (hne : keys.budgeted minDocs tokenBudget i total l ≠ [])
    (hlong : minDocs < i + (keys.budgeted minDocs tokenBudget i total l).length) :
    total + ((keys.budgeted minDocs tokenBudget i total l).map keys.tokens).sum ≤ tokenBudget := by
  induction l generalizing i total with
  | nil => exact absurd rfl hne
  | cons h l ih =>
    unfold budgeted at hne hlong ⊢
    split at hne
    · exact absurd rfl hne
    · rename_i hfits
      rw [if_neg hfits] at hlong ⊢
      rw [List.map_cons, List.sum_cons, ← add_assoc]
      by_cases hend : keys.budgeted minDocs tokenBudget (i + 1) (total + keys.tokens h) l = []
      · rw [hend] at hlong ⊢
        simp only [List.length_cons, List.length_nil] at hlong
        have hchecked : ¬ tokenBudget < total + keys.tokens h := fun hover => hfits ⟨by omega, hover⟩
        simpa using not_lt.mp hchecked
      · apply ih _ _ hend
        rw [List.length_cons] at hlong
        omega

end

/-- The crop meets its specification. -/
theorem crop_meets [DecidableEq ι] [LinearOrder δ] (keys : CropKeys α ι δ) (args : CropArgs)
    (hmax : args.minDocs ≤ args.maxDocs) (hchunks : 1 ≤ args.maxChunksPerDoc) (hits : List α) :
    keys.Meets args hits (keys.crop args hits) := by
  let ranked := rankBy keys.score hits
  have hstable : StablyRanked keys.score hits ranked := rankBy_stable keys.score hits
  let scan := ranked.foldl (keys.scanHit args.maxChunksPerDoc) ⟨[], fun _ => none⟩
  have hok : ScanOk keys args.maxChunksPerDoc ranked scan := scan_ok hchunks (ScanOk.start _) ranked
  have hnewest : WinnersNewest keys ranked scan :=
    scan_newest hchunks (ScanOk.start _) (fun _ _ _ h => by cases h) ranked
  let pool := keys.pool args scan.deduped
  let kept := keys.clamp args pool
  have hcrop : keys.crop args hits = keys.budgeted args.minDocs args.tokenBudget 0 0 kept := rfl
  have hcropped : keys.crop args hits <+: kept := budgeted_prefix _ _ _ _ _
  have hdeduped : (keys.crop args hits).Sublist scan.deduped :=
    hcropped.sublist.trans ((clamp_sublist args pool).trans (pool_sublist args scan.deduped))
  have htitle : ∀ title h, h ∈ keys.ofTitle title (keys.crop args hits) → ∃ winner taken,
      scan.slot title = some (winner, taken) ∧ h ∈ scan.deduped ∧ keys.titleKey h = title := by
    intro title h hmem
    obtain ⟨hcropped, rfl⟩ := mem_ofTitle.mp hmem
    obtain ⟨winner, taken, hslot⟩ := hok.held (hok.sublist.subset (hdeduped.subset hcropped))
    exact ⟨winner, taken, hslot, hdeduped.subset hcropped, rfl⟩
  have hcount : ∀ title, (keys.ofTitle title (keys.crop args hits)).length ≤ (keys.ofTitle title scan.deduped).length :=
    fun title => (ofTitle_sublist hdeduped title).length_le
  constructor
  case ranked => exact ⟨ranked, hstable, hdeduped.trans hok.sublist⟩
  case atMost => exact hcropped.length_le.trans (clamp_length args pool hmax).1
  case atLeast =>
    have htitles := hok.titles
    rw [(hstable.perm.map keys.titleKey).dedup.length_eq] at htitles
    have hpool : min args.minDocs scan.deduped.length ≤ pool.length := pool_length args scan.deduped
    have hkept : min args.minDocs pool.length ≤ kept.length := (clamp_length args pool hmax).2
    have hbudget := @budgeted_length _ _ _ keys args.minDocs args.tokenBudget 0 0 kept
    rw [← hcrop] at hbudget
    omega
  case perTitle =>
    intro title
    cases hlist : keys.ofTitle title (keys.crop args hits) with
    | nil => simp
    | cons h rest =>
      obtain ⟨winner, taken, hslot, _⟩ := htitle title h (hlist ▸ List.mem_cons_self)
      obtain ⟨hlength, hcap⟩ := hok.counted title winner taken hslot
      rw [← hlist]
      exact ((hcount title).trans_eq hlength).trans hcap
  case onePrinting =>
    intro title hmany
    obtain ⟨h, hmem⟩ := List.exists_mem_of_length_pos (Nat.lt_of_succ_lt hmany)
    obtain ⟨winner, taken, hslot, _⟩ := htitle title h hmem
    obtain ⟨hsame, hsome⟩ := hok.printing title winner taken hslot
    have htaken : 1 < taken := (hok.counted title winner taken hslot).1 ▸ hmany.trans_le (hcount title)
    obtain ⟨d, hd⟩ := Option.isSome_iff_exists.mp (hsome htaken)
    refine ⟨d, fun x hx => ?_⟩
    obtain ⟨_, _, _, hx, hkey⟩ := htitle title x hx
    rw [hsame x hx hkey, hd]
  case newest =>
    intro date hdates h hmem t ht other hother hkey t' ht'
    have hdates' : ∀ x ∈ ranked, ∃ t, keys.docDate x = some t ∧ ∀ d, keys.docId x = some d → t = date d :=
      fun x hx => hdates x (hstable.perm.mem_iff.mp hx)
    obtain ⟨winner, taken, hslot⟩ := hok.held (hok.sublist.subset (hdeduped.subset hmem))
    have hwinner := hok.date_eq hdates' (hdeduped.subset hmem) hslot
    exact hnewest _ winner taken hslot other (hstable.perm.mem_iff.mpr hother) hkey t' t ht' (hwinner ▸ ht)
  case belowFloor =>
    rintro ⟨h, hmem, hlow⟩
    exact hcropped.length_le.trans (clamp_floor args pool (hcropped.subset hmem) hlow)
  case withinBudget =>
    intro hlong
    have hne : keys.crop args hits ≠ [] := List.ne_nil_of_length_pos (by omega)
    rw [hcrop] at hne hlong ⊢
    have hsum := budgeted_sum args.minDocs args.tokenBudget 0 0 kept hne (by omega)
    rwa [zero_add] at hsum

/-- An older printing of a manual, a newer one in two chunks, and a note with neither date nor id. -/
def twoPrintings : CropKeys Nat Nat Nat where
  text := fun _ => "drill"
  score := fun h => 1 / (h + 1)
  titleKey := fun h => if h = 3 then "note" else "manual"
  docId := fun h => if h = 3 then none else if h = 0 then some 7 else some 8
  docDate := fun h => if h = 3 then none else if h = 0 then some 2020 else some 2023
  tokenCount := fun _ => some 10

theorem crop_meets_twoPrintings :
    twoPrintings.crop ⟨1, 2, 3, 1 / 10, 20, 150⟩ [2, 0, 3, 1] = [1, 2] ∧
      twoPrintings.Meets ⟨1, 2, 3, 1 / 10, 20, 150⟩ [2, 0, 3, 1] (twoPrintings.crop ⟨1, 2, 3, 1 / 10, 20, 150⟩ [2, 0, 3, 1]) :=
  ⟨by decide +kernel, crop_meets twoPrintings ⟨1, 2, 3, 1 / 10, 20, 150⟩ (by decide) (by decide) [2, 0, 3, 1]⟩

end CropKeys

section

variable (normalizeTitle : String → String)

def hitKeys : CropKeys Hit Uuid Timestamp where
  text := Hit.text
  score := Hit.score
  titleKey := Hit.titleKey normalizeTitle
  docId := fun h => some h.docId
  docDate := Hit.docDate
  tokenCount := fun h => h.tokenCount.map Nat.cast

def CropParams.args (p : CropParams) : CropArgs where
  minDocs := p.minDocs
  maxDocs := p.maxDocs
  maxChunksPerDoc := p.maxChunksPerDoc
  scoreFloor := p.scoreFloor
  tokenBudget := p.tokenBudget
  minChars := p.minChars

def TitleSlot.held (slot : TitleSlot) : Hit × Nat := (slot.winner, slot.taken)

/-- The slots as a dictionary. -/
def slotOf (slots : List TitleSlot) (title : String) : Option (Hit × Nat) :=
  (slots.find? fun slot => slot.title = title).map TitleSlot.held

def Deduped.scan (s : Deduped) : CropScan Hit := ⟨s.kept, slotOf s.slots⟩

variable {normalizeTitle}

theorem slotOf_opened {slots : List TitleSlot} {title : String} (hnone : slots.find? (fun x => x.title = title) = none)
    (h : Hit) : slotOf (slots ++ [⟨title, h, 1⟩]) = Function.update (slotOf slots) title (some (h, 1)) := by
  funext t
  unfold slotOf
  rw [Function.update_apply, List.find?_append]
  by_cases ht : t = title
  · subst ht
    simp [hnone, TitleSlot.held]
  · simp [ht, Ne.symm ht]

theorem slotOf_replaced {slots : List TitleSlot} {slot : TitleSlot} {title : String}
    (hsome : slots.find? (fun x => x.title = title) = some slot) {f : TitleSlot → TitleSlot}
    (htitle : ∀ x, x.title = title → (f x).title = title) :
    slotOf (slots.map fun x => if x.title = title then f x else x) =
      Function.update (slotOf slots) title (some (f slot).held) := by
  funext t
  have hkeeps : ((fun x : TitleSlot => decide (x.title = t)) ∘ fun x => if x.title = title then f x else x) =
      fun x => decide (x.title = t) := by
    funext x
    by_cases hx : x.title = title
    · simp [hx, htitle x hx]
    · simp [hx]
  unfold slotOf
  rw [Function.update_apply, List.find?_map, hkeeps]
  by_cases ht : t = title
  · have hslot : slot.title = title := by simpa using List.find?_some hsome
    subst ht
    simp [hsome, hslot]
  · cases hfind : slots.find? fun x => x.title = t with
    | none => simp [ht]
    | some x =>
      have hx : x.title = t := by simpa using List.find?_some hfind
      simp [ht, hx]

theorem dedupeHit_scan (maxChunksPerDoc : Nat) (s : Deduped) (h : Hit) :
    (dedupeHit normalizeTitle maxChunksPerDoc s h).scan = (hitKeys normalizeTitle).scanHit maxChunksPerDoc s.scan h := by
  have hkey : (hitKeys normalizeTitle).titleKey h = h.titleKey normalizeTitle := rfl
  unfold dedupeHit CropKeys.scanHit
  rw [hkey]
  cases hfind : s.slots.find? fun slot => slot.title = h.titleKey normalizeTitle with
  | none =>
    have hslot : s.scan.slot (h.titleKey normalizeTitle) = none := by simp [Deduped.scan, slotOf, hfind]
    simp only [hfind, hslot]
    exact congrArg (CropScan.mk _) (slotOf_opened hfind h)
  | some slot =>
    have hslot : s.scan.slot (h.titleKey normalizeTitle) = some (slot.winner, slot.taken) := by
      simp [Deduped.scan, slotOf, hfind, TitleSlot.held]
    have hsame : (hitKeys normalizeTitle).samePrinting h slot.winner = decide (h.docId = slot.winner.docId) := by
      simp [CropKeys.samePrinting, hitKeys]
    simp only [hfind, hslot, hsame, decide_eq_true_eq]
    rw [apply_ite Deduped.scan, apply_ite Deduped.scan]
    refine if_congr ?_ ?_ (if_congr Iff.rfl ?_ rfl)
    · simp only [CropKeys.newer, hitKeys]
      cases h.docDate with
      | none => rfl
      | some hd =>
        cases slot.winner.docDate with
        | none => rfl
        | some wd => simp only [decide_eq_true_eq]
    · exact congrArg (CropScan.mk _) (slotOf_replaced hfind fun x _ => rfl)
    · exact congrArg (CropScan.mk _) (slotOf_replaced hfind fun x hx => hx)

theorem hitKeys_tokens (h : Hit) : (hitKeys normalizeTitle).tokens h = h.tokens := by
  simp only [CropKeys.tokens, Hit.tokens, hitKeys]
  cases h.tokenCount with
  | none => rfl
  | some n =>
    cases n with
    | zero => rfl
    | succ n =>
      have hne : ((n + 1 : Nat) : ℤ) ≠ 0 := by omega
      simp only [Option.map_some, hne, ↓reduceIte]

theorem withinBudget_eq (minDocs budget i total : Nat) (l : List Hit) :
    withinBudget minDocs budget i total l = (hitKeys normalizeTitle).budgeted minDocs budget i total l := by
  induction l generalizing i total with
  | nil => rfl
  | cons h l ih =>
    unfold withinBudget CropKeys.budgeted
    rw [hitKeys_tokens, ih]
    have hover : budget < total + h.tokens ↔ (budget : ℤ) < total + h.tokens := by omega
    simp only [hover, Nat.cast_add]

/-- The crop of the pipeline is the crop of its hits' keys. -/
theorem cropContext_eq_crop (p : CropParams) (hits : List Hit) :
    cropContext normalizeTitle p hits = (hitKeys normalizeTitle).crop p.args hits := by
  have hscan : ∀ (l : List Hit) (s : Deduped), (l.foldl (dedupeHit normalizeTitle p.maxChunksPerDoc) s).scan =
      l.foldl ((hitKeys normalizeTitle).scanHit p.maxChunksPerDoc) s.scan := by
    intro l
    induction l with
    | nil => exact fun s => rfl
    | cons h l ih =>
      intro s
      rw [List.foldl_cons, List.foldl_cons, ih, dedupeHit_scan]
  have hkept := congrArg CropScan.deduped (hscan (sortByScore hits) ⟨[], []⟩)
  unfold cropContext CropKeys.crop
  rw [withinBudget_eq]
  exact congrArg (fun l => (hitKeys normalizeTitle).budgeted p.minDocs p.tokenBudget 0 0
    ((hitKeys normalizeTitle).clamp p.args ((hitKeys normalizeTitle).pool p.args l))) hkept

theorem cropContext_meets (p : CropParams) (hmax : p.minDocs ≤ p.maxDocs) (hchunks : 1 ≤ p.maxChunksPerDoc)
    (hits : List Hit) : (hitKeys normalizeTitle).Meets p.args hits (cropContext normalizeTitle p hits) := by
  rw [cropContext_eq_crop]
  exact CropKeys.crop_meets _ p.args hmax hchunks hits

end

end ProRag
