import Mathlib.Data.List.Induction
import ProRag.Retrieve.Cropping

/-!
# The printing that holds a title

What the dedup of `crop_context` keeps of each title, in the order of rank, and when two runs of it keep
the same hits.
-/

namespace ProRag

open Framework

namespace CropKeys

variable {α β ι δ : Type*}

def comap (keys : CropKeys α ι δ) (f : β → α) : CropKeys β ι δ where
  text := fun h => keys.text (f h)
  score := fun h => keys.score (f h)
  titleKey := fun h => keys.titleKey (f h)
  docId := fun h => keys.docId (f h)
  docDate := fun h => keys.docDate (f h)
  tokenCount := fun h => keys.tokenCount (f h)

variable [DecidableEq ι] [LinearOrder δ] (keys : CropKeys α ι δ)

/-- The hit that holds a title, and those below it: the best-ranked hit, until a strictly newer one supersedes it. -/
def supersede (held : List α) (h : α) : List α :=
  match held with
  | [] => [h]
  | winner :: _ => if keys.newer h winner then [h] else held ++ [h]

/-- The hits of one title, best first, from the one that holds the title on. -/
def held (hits : List α) : List α := hits.foldl keys.supersede []

/-- Those of them that are chunks of the printing that holds the title. -/
def printing (hits : List α) : List α :=
  match keys.held hits with
  | [] => []
  | winner :: rest => winner :: rest.filter fun h => keys.samePrinting h winner

/-- The chunks that the cap admits.  The first is never counted out. -/
def admitted (maxChunksPerDoc : Nat) (hits : List α) : List α :=
  (keys.printing hits).take (max 1 maxChunksPerDoc)

def scan (maxChunksPerDoc : Nat) (ranked : List α) : CropScan α :=
  ranked.foldl (keys.scanHit maxChunksPerDoc) ⟨[], fun _ => none⟩

/-- The hits that the dedup keeps, and those of them with enough text. -/
def deduped (maxChunksPerDoc : Nat) (hits : List α) : List α :=
  (keys.scan maxChunksPerDoc (rankBy keys.score hits)).deduped

theorem crop_sublist (keys : CropKeys α ι δ) (args : CropArgs) (hits : List α) :
    (keys.crop args hits).Sublist (keys.deduped args.maxChunksPerDoc hits) := by
  have hbudgeted : keys.crop args hits <+: keys.clamp args (keys.pool args (keys.deduped args.maxChunksPerDoc hits)) :=
    budgeted_prefix _ _ _ _ _
  exact hbudgeted.sublist.trans ((clamp_sublist _ _).trans (pool_sublist _ _))

def substantial (args : CropArgs) (hits : List α) : List α :=
  (keys.deduped args.maxChunksPerDoc hits).filter fun h => args.minChars ≤ (keys.text h).length

section

variable {keys}

omit [DecidableEq ι] in
theorem held_concat (hits : List α) (h : α) : keys.held (hits ++ [h]) = keys.supersede (keys.held hits) h :=
  List.foldl_concat ..

theorem printing_older {hits rest : List α} {h winner : α} (hheld : keys.held hits = winner :: rest)
    (hnewer : keys.newer h winner = false) : keys.printing (hits ++ [h]) =
      if keys.samePrinting h winner then keys.printing hits ++ [h] else keys.printing hits := by
  cases hsame : keys.samePrinting h winner with
  | _ => simp [printing, held_concat, supersede, hheld, hnewer, hsame]

omit [DecidableEq ι] in
theorem held_older {hits rest : List α} {h winner : α} (hheld : keys.held hits = winner :: rest)
    (hnewer : keys.newer h winner = false) : keys.held (hits ++ [h]) = winner :: (rest ++ [h]) := by
  simp [held_concat, supersede, hheld, hnewer]

end

/-- The slots and the kept hits of a scan, title by title. -/
structure KeepsPrintings (maxChunksPerDoc : Nat) (seen : List α) (s : CropScan α) : Prop where
  kept : ∀ title, keys.ofTitle title s.deduped = keys.admitted maxChunksPerDoc (keys.ofTitle title seen)
  slot : ∀ title, s.slot title = (keys.held (keys.ofTitle title seen)).head?.map fun winner =>
    (winner, (keys.admitted maxChunksPerDoc (keys.ofTitle title seen)).length)

variable {keys} {maxChunksPerDoc : Nat} {seen : List α} {s : CropScan α}

theorem KeepsPrintings.of_title (hok : KeepsPrintings keys maxChunksPerDoc seen s) {h : α} {s' : CropScan α}
    (hothers : ∀ title, keys.titleKey h ≠ title →
      keys.ofTitle title s'.deduped = keys.ofTitle title s.deduped ∧ s'.slot title = s.slot title)
    (hkept : keys.ofTitle (keys.titleKey h) s'.deduped =
      keys.admitted maxChunksPerDoc (keys.ofTitle (keys.titleKey h) seen ++ [h]))
    (hslot : s'.slot (keys.titleKey h) = (keys.held (keys.ofTitle (keys.titleKey h) seen ++ [h])).head?.map fun winner =>
      (winner, (keys.admitted maxChunksPerDoc (keys.ofTitle (keys.titleKey h) seen ++ [h])).length)) :
    KeepsPrintings keys maxChunksPerDoc (seen ++ [h]) s' := by
  constructor
  case kept =>
    intro title
    rw [ofTitle_append]
    by_cases htitle : keys.titleKey h = title
    · subst htitle
      rw [ofTitle_same]
      exact hkept
    · rw [ofTitle_other htitle, List.append_nil, (hothers title htitle).1]
      exact hok.kept title
  case slot =>
    intro title
    rw [ofTitle_append]
    by_cases htitle : keys.titleKey h = title
    · subst htitle
      rw [ofTitle_same]
      exact hslot
    · rw [ofTitle_other htitle, List.append_nil, (hothers title htitle).2]
      exact hok.slot title

theorem KeepsPrintings.takes (hok : KeepsPrintings keys maxChunksPerDoc seen s) (h : α) {kept : List α}
    (hown : keys.ofTitle (keys.titleKey h) kept = [])
    (hothers : ∀ title, title ≠ keys.titleKey h → keys.ofTitle title kept = keys.ofTitle title s.deduped)
    (hheld : keys.held (keys.ofTitle (keys.titleKey h) seen ++ [h]) = [h]) :
    KeepsPrintings keys maxChunksPerDoc (seen ++ [h])
      ⟨kept ++ [h], Function.update s.slot (keys.titleKey h) (some (h, 1))⟩ := by
  have hadmitted : keys.admitted maxChunksPerDoc (keys.ofTitle (keys.titleKey h) seen ++ [h]) = [h] := by
    rw [admitted, printing, hheld]
    exact List.take_of_length_le (le_max_left 1 maxChunksPerDoc)
  apply hok.of_title
  · intro title hne
    constructor
    · rw [ofTitle_append, ofTitle_other hne, List.append_nil, hothers title (Ne.symm hne)]
    · exact Function.update_of_ne (Ne.symm hne) _ _
  · rw [hadmitted, ofTitle_append, hown, ofTitle_same, List.nil_append]
  · simp [hadmitted, hheld]

theorem admitted_joins {own rest : List α} {h winner : α} (hheld : keys.held own = winner :: rest)
    (hnewer : keys.newer h winner = false) (hsame : keys.samePrinting h winner = true)
    (hroom : (keys.admitted maxChunksPerDoc own).length < maxChunksPerDoc) :
    keys.admitted maxChunksPerDoc (own ++ [h]) = keys.admitted maxChunksPerDoc own ++ [h] := by
  have hlength : (keys.admitted maxChunksPerDoc own).length = min (max 1 maxChunksPerDoc) (keys.printing own).length :=
    List.length_take
  rw [admitted, admitted, printing_older hheld hnewer, if_pos hsame, List.take_of_length_le (l := keys.printing own) (by omega),
    List.take_of_length_le]
  rw [List.length_append, List.length_singleton]
  omega

theorem admitted_stays {own rest : List α} {h winner : α} (hheld : keys.held own = winner :: rest)
    (hnewer : keys.newer h winner = false)
    (hout : ¬(keys.samePrinting h winner = true ∧ (keys.admitted maxChunksPerDoc own).length < maxChunksPerDoc)) :
    keys.admitted maxChunksPerDoc (own ++ [h]) = keys.admitted maxChunksPerDoc own := by
  have hlength : (keys.admitted maxChunksPerDoc own).length = min (max 1 maxChunksPerDoc) (keys.printing own).length :=
    List.length_take
  have hpos : 0 < (keys.printing own).length := by simp [printing, hheld]
  rw [admitted, admitted, printing_older hheld hnewer]
  split
  · rename_i hsame
    have hfull : maxChunksPerDoc ≤ (keys.admitted maxChunksPerDoc own).length := not_lt.mp fun hlt => hout ⟨hsame, hlt⟩
    rw [List.take_append_of_le_length]
    omega
  · rfl

theorem scanHit_keeps (hok : KeepsPrintings keys maxChunksPerDoc seen s) (h : α) :
    KeepsPrintings keys maxChunksPerDoc (seen ++ [h]) (keys.scanHit maxChunksPerDoc s h) := by
  have hslot := hok.slot (keys.titleKey h)
  cases hheld : keys.held (keys.ofTitle (keys.titleKey h) seen) with
  | nil =>
    rw [hheld] at hslot
    have hstep : keys.scanHit maxChunksPerDoc s h =
        ⟨s.deduped ++ [h], Function.update s.slot (keys.titleKey h) (some (h, 1))⟩ := by
      simp [scanHit, hslot]
    have hnone : keys.ofTitle (keys.titleKey h) s.deduped = [] := by
      simp [hok.kept, admitted, printing, hheld]
    rw [hstep]
    exact hok.takes h hnone (fun _ _ => rfl) (by rw [held_concat, hheld, supersede])
  | cons winner rest =>
    rw [hheld] at hslot
    simp only [List.head?_cons, Option.map_some] at hslot
    cases hnewer : keys.newer h winner with
    | true =>
      have hstep : keys.scanHit maxChunksPerDoc s h =
          ⟨s.deduped.filter (fun x => keys.titleKey x ≠ keys.titleKey h) ++ [h],
            Function.update s.slot (keys.titleKey h) (some (h, 1))⟩ := by
        simp [scanHit, hslot, hnewer]
      rw [hstep]
      apply hok.takes h (ofTitle_without _ _) (fun title hne => ofTitle_kept hne _)
      rw [held_concat, hheld, supersede, if_pos hnewer]
    | false =>
      have hold := held_older hheld hnewer
      by_cases hjoin : keys.samePrinting h winner = true ∧
          (keys.admitted maxChunksPerDoc (keys.ofTitle (keys.titleKey h) seen)).length < maxChunksPerDoc
      · have hadmitted := admitted_joins hheld hnewer hjoin.1 hjoin.2
        have hstep : keys.scanHit maxChunksPerDoc s h = ⟨s.deduped ++ [h], Function.update s.slot (keys.titleKey h)
            (some (winner, (keys.admitted maxChunksPerDoc (keys.ofTitle (keys.titleKey h) seen)).length + 1))⟩ := by
          simp [scanHit, hslot, hnewer, hjoin.1, hjoin.2]
        rw [hstep]
        apply hok.of_title
        · intro title hne
          constructor
          · rw [ofTitle_append, ofTitle_other hne, List.append_nil]
          · exact Function.update_of_ne (Ne.symm hne) _ _
        · rw [ofTitle_append, ofTitle_same, hok.kept, hadmitted]
        · simp [hadmitted, hold]
      · have hadmitted := admitted_stays hheld hnewer hjoin
        have hstep : keys.scanHit maxChunksPerDoc s h = s := by
          simp [scanHit, hslot, hnewer, hjoin]
        rw [hstep]
        apply hok.of_title
        · exact fun title _ => ⟨rfl, rfl⟩
        · rw [hadmitted, hok.kept]
        · simp [hadmitted, hold, hslot]

theorem scan_keeps (keys : CropKeys α ι δ) (maxChunksPerDoc : Nat) (ranked : List α) :
    KeepsPrintings keys maxChunksPerDoc ranked (keys.scan maxChunksPerDoc ranked) := by
  induction ranked using List.reverseRecOn with
  | nil => exact ⟨fun title => by simp [scan, ofTitle, admitted, printing, held], fun title => rfl⟩
  | append_singleton ranked h ih =>
    unfold scan
    rw [List.foldl_concat]
    exact scanHit_keeps ih h

theorem scan_sublist (keys : CropKeys α ι δ) (maxChunksPerDoc : Nat) (ranked : List α) :
    (keys.scan maxChunksPerDoc ranked).deduped.Sublist ranked := by
  induction ranked using List.reverseRecOn with
  | nil => exact List.Sublist.refl _
  | append_singleton ranked h ih =>
    unfold scan at ih ⊢
    rw [List.foldl_concat]
    rcases scanHit_cases keys maxChunksPerDoc (ranked.foldl (keys.scanHit maxChunksPerDoc) ⟨[], fun _ => none⟩) h with
      ⟨_, hstep⟩ | ⟨_, _, _, ⟨_, hstep⟩ | ⟨_, _, _, hstep⟩ | ⟨_, hstep⟩⟩
    · rw [hstep]
      exact ih.append (List.Sublist.refl _)
    · rw [hstep]
      exact (List.filter_sublist.trans ih).append (List.Sublist.refl _)
    · rw [hstep]
      exact ih.append (List.Sublist.refl _)
    · rw [hstep]
      exact ih.trans (List.sublist_append_left _ _)

def forget (f : β → α) (s : CropScan β) : CropScan α :=
  ⟨s.deduped.map f, fun title => (s.slot title).map fun p => (f p.1, p.2)⟩

theorem forget_update (f : β → α) (deduped : List β) (slot : String → Option (β × Nat)) (title : String) (h : β) (taken : Nat) :
    forget f ⟨deduped, Function.update slot title (some (h, taken))⟩ =
      ⟨deduped.map f, Function.update (fun title => (slot title).map fun p => (f p.1, p.2)) title (some (f h, taken))⟩ := by
  unfold forget
  congr 1
  funext t
  dsimp only
  by_cases ht : t = title
  · subst ht
    rw [Function.update_self, Function.update_self]
    rfl
  · rw [Function.update_of_ne ht, Function.update_of_ne ht]

theorem scanHit_comap (keys : CropKeys α ι δ) (f : β → α) (maxChunksPerDoc : Nat) (s : CropScan β) (h : β) :
    keys.scanHit maxChunksPerDoc (forget f s) (f h) = forget f ((keys.comap f).scanHit maxChunksPerDoc s h) := by
  have hfilter : (s.deduped.map f).filter (fun x => keys.titleKey x ≠ keys.titleKey (f h)) =
      (s.deduped.filter fun x => keys.titleKey (f x) ≠ keys.titleKey (f h)).map f := by
    rw [List.filter_map]
    rfl
  cases hslot : s.slot (keys.titleKey (f h)) with
  | none =>
    have hslot' : (forget f s).slot (keys.titleKey (f h)) = none := by simp [forget, hslot]
    simp only [scanHit, comap, hslot, hslot', forget_update, List.map_append, List.map_singleton]
    rfl
  | some p =>
    have hslot' : (forget f s).slot (keys.titleKey (f h)) = some (f p.1, p.2) := by simp [forget, hslot]
    have hnewer : (keys.comap f).newer h p.1 = keys.newer (f h) (f p.1) := rfl
    have hsame : (keys.comap f).samePrinting h p.1 = keys.samePrinting (f h) (f p.1) := rfl
    have htitle : (keys.comap f).titleKey h = keys.titleKey (f h) := rfl
    simp only [scanHit, htitle, hslot, hslot', hnewer, hsame]
    rw [apply_ite (forget f), apply_ite (forget f), forget_update, forget_update, List.map_append, List.map_append,
      List.map_singleton]
    refine if_congr Iff.rfl ?_ rfl
    congr 2

theorem scan_comap (keys : CropKeys α ι δ) (f : β → α) (maxChunksPerDoc : Nat) (ranked : List β) :
    keys.scan maxChunksPerDoc (ranked.map f) = forget f ((keys.comap f).scan maxChunksPerDoc ranked) := by
  induction ranked using List.reverseRecOn with
  | nil => rfl
  | append_singleton ranked h ih =>
    unfold scan at ih ⊢
    rw [List.map_append, List.map_singleton, List.foldl_concat, List.foldl_concat, ih, scanHit_comap]

omit [DecidableEq ι] [LinearOrder δ] in
theorem selections_eq {l a b : List α} (hl : l.Nodup) (ha : a.Sublist l) (hb : b.Sublist l) (h : ∀ x, x ∈ a ↔ x ∈ b) : a = b := by
  induction l generalizing a b with
  | nil => rw [List.sublist_nil.mp ha, List.sublist_nil.mp hb]
  | cons y l ih =>
    obtain ⟨hy, hl⟩ := List.nodup_cons.mp hl
    have hnot : ∀ c : List α, c.Sublist l → y ∉ c := fun c hc hmem => hy (hc.subset hmem)
    cases ha with
    | cons _ ha =>
      cases hb with
      | cons _ hb => exact ih hl ha hb h
      | cons_cons _ hb => exact absurd ((h y).mpr List.mem_cons_self) (hnot a ha)
    | cons_cons _ ha =>
      cases hb with
      | cons _ hb => exact absurd ((h y).mp List.mem_cons_self) (hnot b hb)
      | @cons_cons b _ _ hb =>
        congr 1
        apply ih hl ha hb
        intro x
        constructor
        · intro hx
          rcases List.mem_cons.mp ((h x).mp (List.mem_cons_of_mem _ hx)) with rfl | hx'
          · exact absurd hx (hnot _ ha)
          · exact hx'
        · intro hx
          rcases List.mem_cons.mp ((h x).mpr (List.mem_cons_of_mem _ hx)) with rfl | hx'
          · exact absurd hx (hnot _ hb)
          · exact hx'

theorem scan_filter_eq {cap cap' : Nat} {ranked ranked' all : List α} (p : α → Bool) (hall : all.Nodup)
    (hranked : (ranked.filter p).Sublist all) (hranked' : (ranked'.filter p).Sublist all)
    (h : ∀ title, (keys.admitted cap (keys.ofTitle title ranked)).filter p =
      (keys.admitted cap' (keys.ofTitle title ranked')).filter p) :
    (keys.scan cap ranked).deduped.filter p = (keys.scan cap' ranked').deduped.filter p := by
  have hmem : ∀ (c : Nat) (l : List α) (x : α), x ∈ (keys.scan c l).deduped.filter p ↔
      x ∈ (keys.admitted c (keys.ofTitle (keys.titleKey x) l)).filter p := by
    intro c l x
    rw [← (scan_keeps keys c l).kept, List.mem_filter, List.mem_filter, mem_ofTitle]
    simp
  apply selections_eq hall
  · exact ((scan_sublist keys cap ranked).filter p).trans hranked
  · exact ((scan_sublist keys cap' ranked').filter p).trans hranked'
  · intro x
    rw [hmem, hmem, h]

section

omit [DecidableEq ι] [LinearOrder δ]

variable (score : α → ℚ)

theorem orderedInsert_split (h : α) (l : List α) : ∃ above below, l = above ++ below ∧
    l.orderedInsert (fun a b => score b ≤ score a) h = above ++ h :: below := by
  induction l with
  | nil => exact ⟨[], [], rfl, rfl⟩
  | cons x l ih =>
    by_cases hle : score x ≤ score h
    · exact ⟨[], x :: l, rfl, by simp [hle]⟩
    · obtain ⟨above, below, hl, hins⟩ := ih
      refine ⟨x :: above, below, by rw [hl, List.cons_append], ?_⟩
      rw [List.orderedInsert_cons, if_neg hle, hins, List.cons_append]

theorem orderedInsert_both (s h : α) (above below : List α) (hsorted : (above ++ s :: below).Pairwise fun a b => score b ≤ score a) :
    ∃ above' below', (above ++ below).orderedInsert (fun a b => score b ≤ score a) h = above' ++ below' ∧
      (above ++ s :: below).orderedInsert (fun a b => score b ≤ score a) h = above' ++ s :: below' := by
  induction above with
  | nil =>
    by_cases hle : score s ≤ score h
    · refine ⟨[h], below, ?_, by simp [hle]⟩
      cases below with
      | nil => rfl
      | cons x below =>
        have hx : score x ≤ score s := (List.pairwise_cons.mp hsorted).1 x List.mem_cons_self
        simp [hx.trans hle]
    · exact ⟨[], below.orderedInsert (fun a b => score b ≤ score a) h, rfl, by simp [hle]⟩
  | cons x above ih =>
    by_cases hle : score x ≤ score h
    · exact ⟨h :: x :: above, below, by simp [hle], by simp [hle]⟩
    · obtain ⟨above', below', hwithout, hwith⟩ := ih (List.pairwise_cons.mp hsorted).2
      refine ⟨x :: above', below', ?_, ?_⟩
      · rw [List.cons_append, List.orderedInsert_cons, if_neg hle, hwithout, List.cons_append]
      · rw [List.cons_append, List.orderedInsert_cons, if_neg hle, hwith, List.cons_append]

theorem rankBy_insert (front back : List α) (s : α) : ∃ above below,
    rankBy score (front ++ back) = above ++ below ∧ rankBy score (front ++ s :: back) = above ++ s :: below := by
  induction front with
  | nil => exact orderedInsert_split score s (rankBy score back)
  | cons h front ih =>
    obtain ⟨above, below, hwithout, hwith⟩ := ih
    have hsorted : (above ++ s :: below).Pairwise fun a b => score b ≤ score a := by
      rw [← hwith]
      exact (rankBy_stable score (front ++ s :: back)).descending
    obtain ⟨above', below', hwithout', hwith'⟩ := orderedInsert_both score s h above below hsorted
    refine ⟨above', below', ?_, ?_⟩
    · rw [← hwithout', ← hwithout]
      rfl
    · rw [← hwith', ← hwith]
      rfl

end

omit [DecidableEq ι] in
theorem held_undated {hits : List α} (h : ∀ x ∈ hits, keys.docDate x = none) : keys.held hits = hits := by
  induction hits using List.reverseRecOn with
  | nil => rfl
  | append_singleton hits x ih =>
    rw [held_concat, ih fun y hy => h y (List.mem_append_left _ hy)]
    have hx : keys.docDate x = none := h x (List.mem_append_right _ (List.mem_singleton_self x))
    cases hits with
    | nil => rfl
    | cons winner rest => simp [supersede, newer, hx]

omit [DecidableEq ι] [LinearOrder δ] in
theorem budgeted_exempt (minDocs : Nat) (tokenBudget : ℤ) (i : Nat) (total : ℤ) (hits : List α) (h : i + hits.length ≤ minDocs) :
    keys.budgeted minDocs tokenBudget i total hits = hits := by
  induction hits generalizing i total with
  | nil => rfl
  | cons x hits ih =>
    rw [List.length_cons] at h
    have hfits : ¬(minDocs ≤ i ∧ tokenBudget < total + keys.tokens x) := by omega
    unfold budgeted
    rw [if_neg hfits, ih (i + 1) _ (by omega)]

theorem crop_deduped (keys : CropKeys α ι δ) (args : CropArgs) {hits : List α} (h : hits.length < args.minDocs) :
    keys.crop args hits = keys.deduped args.maxChunksPerDoc hits := by
  have hlength : (keys.deduped args.maxChunksPerDoc hits).length < args.minDocs := by
    have hle := (scan_sublist keys args.maxChunksPerDoc (rankBy keys.score hits)).length_le
    rw [(rankBy_stable keys.score hits).perm.length_eq] at hle
    exact hle.trans_lt h
  have hlong := List.length_filter_le (fun x => decide (args.minChars ≤ (keys.text x).length)) (keys.deduped args.maxChunksPerDoc hits)
  have hpool : keys.pool args (keys.deduped args.maxChunksPerDoc hits) = keys.deduped args.maxChunksPerDoc hits := by
    simp only [pool]
    rw [if_neg (by omega)]
  have hkept := List.length_filter_le (fun x => decide (args.scoreFloor ≤ keys.score x)) (keys.deduped args.maxChunksPerDoc hits)
  have hclamp : keys.clamp args (keys.deduped args.maxChunksPerDoc hits) = keys.deduped args.maxChunksPerDoc hits := by
    simp only [clamp]
    rw [if_pos (by omega), List.take_of_length_le hlength.le]
  change keys.budgeted args.minDocs args.tokenBudget 0 0
    (keys.clamp args (keys.pool args (keys.deduped args.maxChunksPerDoc hits))) = _
  rw [hpool, hclamp, budgeted_exempt _ _ _ _ _ (by omega)]

omit [DecidableEq ι] [LinearOrder δ] in
theorem zipIdx_nodup (l : List α) (n : Nat) : (l.zipIdx n).Nodup := by
  apply List.Nodup.of_map Prod.snd
  rw [List.zipIdx_map_snd]
  exact List.nodup_range'

omit [DecidableEq ι] [LinearOrder δ] in
theorem ofTitle_comap (keys : CropKeys α ι δ) (f : β → α) (title : String) (hits : List β) :
    ((keys.comap f).ofTitle title hits).map f = keys.ofTitle title (hits.map f) := by
  unfold ofTitle
  rw [List.filter_map]
  rfl

theorem admitted_comap (keys : CropKeys α ι δ) (f : β → α) (cap : Nat) (title : String) (ranked : List β) :
    ((keys.comap f).admitted cap ((keys.comap f).ofTitle title ranked)).map f =
      keys.admitted cap (keys.ofTitle title (ranked.map f)) := by
  rw [← (scan_keeps (keys.comap f) cap ranked).kept, ← (scan_keeps keys cap (ranked.map f)).kept, ofTitle_comap, scan_comap]
  rfl

theorem admitted_length (keys : CropKeys α ι δ) (cap : Nat) (hits : List α) :
    (keys.admitted cap hits).length = min (max 1 cap) (keys.printing hits).length := List.length_take

theorem printing_comap (keys : CropKeys α ι δ) (f : β → α) (title : String) (ranked : List β) :
    ((keys.comap f).printing ((keys.comap f).ofTitle title ranked)).length =
      (keys.printing (keys.ofTitle title (ranked.map f))).length := by
  generalize ha : ((keys.comap f).printing ((keys.comap f).ofTitle title ranked)).length = a
  generalize hb : (keys.printing (keys.ofTitle title (ranked.map f))).length = b
  have hlength := congrArg List.length (admitted_comap keys f (a + b) title ranked)
  rw [List.length_map, admitted_length, admitted_length, ha, hb] at hlength
  omega

/-- No title tells the two caps apart: they are the same cap, or no printing has more chunks than either admits. -/
def CapsAgree (keys : CropKeys α ι δ) (cap cap' : Nat) (ranked : List α) : Prop :=
  max 1 cap = max 1 cap' ∨ ∀ title, (keys.printing (keys.ofTitle title ranked)).length ≤ min (max 1 cap) (max 1 cap')

theorem CapsAgree.scan {cap cap' : Nat} {ranked : List α} (h : CapsAgree keys cap cap' ranked) :
    (keys.scan cap ranked).deduped = (keys.scan cap' ranked).deduped := by
  have hplaces : ranked.zipIdx.map Prod.fst = ranked := by simp
  have hadmitted : ∀ title, (keys.comap Prod.fst).admitted cap ((keys.comap Prod.fst).ofTitle title ranked.zipIdx) =
      (keys.comap Prod.fst).admitted cap' ((keys.comap Prod.fst).ofTitle title ranked.zipIdx) := by
    intro title
    unfold admitted
    rcases h with hcap | hfew
    · rw [hcap]
    · have hlength := printing_comap keys Prod.fst title ranked.zipIdx
      have hle := hfew title
      rw [hplaces] at hlength
      rw [List.take_of_length_le (by omega), List.take_of_length_le (by omega)]
  have hsame := scan_filter_eq (fun _ => true) (zipIdx_nodup ranked 0) List.filter_sublist List.filter_sublist
    fun title => congrArg (List.filter fun _ => true) (hadmitted title)
  rw [List.filter_true, List.filter_true] at hsame
  rw [← hplaces, scan_comap, scan_comap, forget, forget, hsame]

theorem capsAgree_iff {cap cap' : Nat} {ranked : List α} :
    CapsAgree keys cap cap' ranked ↔ (keys.scan cap ranked).deduped = (keys.scan cap' ranked).deduped := by
  constructor
  · exact CapsAgree.scan
  · intro h
    have hlength : ∀ title, min (max 1 cap) (keys.printing (keys.ofTitle title ranked)).length =
        min (max 1 cap') (keys.printing (keys.ofTitle title ranked)).length := by
      intro title
      rw [← admitted_length, ← admitted_length, ← (scan_keeps keys cap ranked).kept, ← (scan_keeps keys cap' ranked).kept, h]
    by_cases hcap : max 1 cap = max 1 cap'
    · exact Or.inl hcap
    · right
      intro title
      have htitle := hlength title
      omega

end CropKeys

end ProRag
