import Mathlib.Data.List.Forall2
import Mathlib.Data.List.TakeWhile
import ProRag.Web.Markdown

/-!
# Where the blocks stand

Every turn of the parser takes lines off the front of those that remain, so each block has a range of lines.
-/

namespace ProRag

/-- A block shows the lines of its range. -/
def Renders : Block → List Text → Prop
  | .paragraph lines, range => lines = range
  | .code _ code, range => ∃ opening inner closing, range = opening :: (inner ++ closing) ∧
      (fenceRe (jsTrim opening)).isSome ∧ code = joinLines inner ∧ (∀ l ∈ inner, closesFence l = false) ∧
      (closing = [] ∨ ∃ l, closing = [l] ∧ closesFence l = true)
  | .heading level text, range => ∃ line, range = [line] ∧ headingRe (jsTrim line) = some (level, text)
  | .list _ items, range =>
      List.Forall₂ (fun line item => ∃ marker, listItemRe (jsTrim line) = some (marker, item)) range items
  | .table header rows, range => ∃ first others, range = first :: others ∧ header = tableCells first ∧
      rows = (others.drop 1).map tableCells ∧ ∀ second, others.head? = some second → isTableSeparator (some second) = true

/-- The blocks of lines: between their ranges all lines are blank. -/
inductive LaidOut : List Text → List Block → Prop
  | done : LaidOut [] []
  | blank {line : Text} {rest : List Text} {blocks : List Block} (hblank : jsTrim line = []) (hrest : LaidOut rest blocks) :
      LaidOut (line :: rest) blocks
  | block {range rest : List Text} {b : Block} {blocks : List Block} (hne : range ≠ []) (hshow : Renders b range)
      (hrest : LaidOut rest blocks) : LaidOut (range ++ rest) (b :: blocks)

/-- Ranges of lines, from the first to before the second place, for the blocks of a text. -/
structure RangesOf (lines : List Text) (blocks : List Block) (ranges : List (Nat × Nat)) : Prop where
  rendered : List.Forall₂ (fun block (range : Nat × Nat) => range.1 < range.2 ∧ range.2 ≤ lines.length ∧
    Renders block ((lines.drop range.1).take (range.2 - range.1))) blocks ranges
  increasing : ranges.Pairwise fun range next => range.2 ≤ next.1
  blank : ∀ i line, lines[i]? = some line → (∀ range ∈ ranges, i < range.1 ∨ range.2 ≤ i) → jsTrim line = []

section

variable {line : Text} {rest after lines : List Text} {made : Option Block} {block : Block} {blocks : List Block}
  {ranges : List (Nat × Nat)}

/-! ## What a turn takes -/

theorem collectParagraph_append (lines : List Text) : (collectParagraph lines).1 ++ (collectParagraph lines).2 = lines := by
  induction lines with
  | nil => rfl
  | cons line rest ih =>
    unfold collectParagraph
    split
    · rfl
    · simp [ih]

theorem dropWhile_first {α : Type*} {p : α → Bool} {xs others : List α} {x : α} (h : xs.dropWhile p = x :: others) : p x = false := by
  have hhead := List.head?_dropWhile_not p xs
  rw [h] at hhead
  simpa using hhead

theorem fence_range (rest : List Text) : ∃ inner closing,
    rest = inner ++ closing ++ (rest.dropWhile fun l => !closesFence l).drop 1 ∧
    inner = rest.takeWhile (fun l => !closesFence l) ∧ (∀ l ∈ inner, closesFence l = false) ∧
    (closing = [] ∨ ∃ l, closing = [l] ∧ closesFence l = true) := by
  have hsplit := List.takeWhile_append_dropWhile (p := fun l => !closesFence l) (l := rest)
  have hinner : ∀ l ∈ rest.takeWhile (fun l => !closesFence l), closesFence l = false := by
    intro l hl
    simpa using List.mem_takeWhile_imp hl
  cases hafter : rest.dropWhile fun l => !closesFence l with
  | nil =>
    rw [hafter, List.append_nil] at hsplit
    exact ⟨_, [], by simp [hsplit], rfl, hinner, Or.inl rfl⟩
  | cons l others =>
    rw [hafter] at hsplit
    exact ⟨_, [l], by simp [hsplit], rfl, hinner, Or.inr ⟨l, rfl, by simpa using dropWhile_first hafter⟩⟩

theorem items_range (lines : List Text) (h : ∀ l ∈ lines, isItemLine l = true) :
    List.Forall₂ (fun line item => ∃ marker, listItemRe (jsTrim line) = some (marker, item)) lines
      (lines.filterMap fun l => (listItemRe (jsTrim l)).map Prod.snd) := by
  induction lines with
  | nil => exact List.Forall₂.nil
  | cons line rest ih =>
    have hline := h line List.mem_cons_self
    obtain ⟨item, hitem⟩ := Option.isSome_iff_exists.mp hline
    rw [List.filterMap_cons_some (by rw [hitem]; rfl)]
    exact List.Forall₂.cons ⟨item.1, hitem⟩ (ih fun l hl => h l (List.mem_cons_of_mem _ hl))

theorem stepOf_range (h : StepOf line rest made after) : ∃ others, rest = others ++ after ∧
    (made = none → others = [] ∧ jsTrim line = []) ∧ ∀ block, made = some block → Renders block (line :: others) := by
  cases h with
  | blank hblank => exact ⟨[], rfl, fun _ => ⟨rfl, hblank⟩, fun block hblock => absurd hblock (by simp)⟩
  | fence lang hfence =>
    obtain ⟨inner, closing, hrest, hinner, hopen, hclosing⟩ := fence_range rest
    refine ⟨inner ++ closing, hrest, fun hnone => absurd hnone (by simp), fun block hblock => ?_⟩
    obtain rfl := Option.some.inj hblock
    exact ⟨line, inner, closing, rfl, by simp [hfence], by rw [hinner], hopen, hclosing⟩
  | heading heading hheading =>
    refine ⟨[], rfl, fun hnone => absurd hnone (by simp), fun block hblock => ?_⟩
    obtain rfl := Option.some.inj hblock
    exact ⟨line, rfl, hheading⟩
  | table hrow hnext =>
    refine ⟨rest.takeWhile isRowLine, List.takeWhile_append_dropWhile.symm, fun hnone => absurd hnone (by simp), fun block hblock => ?_⟩
    obtain rfl := Option.some.inj hblock
    refine ⟨line, rest.takeWhile isRowLine, rfl, rfl, rfl, ?_⟩
    intro second hsecond
    cases rest with
    | nil => cases hsecond
    | cons next others =>
      rw [List.takeWhile_cons] at hsecond
      split at hsecond
      · obtain rfl := Option.some.inj hsecond
        exact hnext
      · cases hsecond
  | list item hitem =>
    have hline : isItemLine line = true := by simp [isItemLine, hitem]
    refine ⟨rest.takeWhile isItemLine, List.takeWhile_append_dropWhile.symm, fun hnone => absurd hnone (by simp), fun block hblock => ?_⟩
    obtain rfl := Option.some.inj hblock
    apply items_range
    intro l hl
    rcases List.mem_cons.mp hl with rfl | hmem
    · exact hline
    · exact List.mem_takeWhile_imp hmem
  | paragraph hprose =>
    refine ⟨(collectParagraph rest).1, (collectParagraph_append rest).symm, fun hnone => absurd hnone (by simp), fun block hblock => ?_⟩
    obtain rfl := Option.some.inj hblock
    rfl

/-- Each turn takes a line, so there are no more turns than lines. -/
theorem parseLoop_laidOut (turns : Nat) (lines : List Text) (h : lines.length ≤ turns) :
    ∃ blocks, parseLoop turns lines = some blocks ∧ LaidOut lines blocks := by
  induction turns generalizing lines with
  | zero =>
    have hnil : lines = [] := List.eq_nil_of_length_eq_zero (by omega)
    subst hnil
    exact ⟨[], rfl, LaidOut.done⟩
  | succ turns ih =>
    cases lines with
    | nil => exact ⟨[], rfl, LaidOut.done⟩
    | cons line rest =>
      obtain ⟨others, hrest, hblank, hshow⟩ := stepOf_range (parseStep_of line rest)
      have hlength := congrArg List.length hrest
      rw [List.length_append] at hlength
      rw [List.length_cons] at h
      obtain ⟨later, hlater, hlaid⟩ := ih (parseStep line rest).2 (by omega)
      refine ⟨(parseStep line rest).1.toList ++ later, by rw [parseLoop, hlater, Option.map_some], ?_⟩
      cases hmade : (parseStep line rest).1 with
      | none =>
        obtain ⟨hnone, htrim⟩ := hblank hmade
        rw [hnone, List.nil_append] at hrest
        rw [← hrest] at hlaid
        exact LaidOut.blank htrim hlaid
      | some block =>
        have hblock := LaidOut.block (List.cons_ne_nil line others) (hshow block hmade) hlaid
        rw [List.cons_append, ← hrest] at hblock
        exact hblock

/-! ## Ranges -/

/-- A range, with `n` lines more before it. -/
def shiftRange (n : Nat) (range : Nat × Nat) : Nat × Nat := (range.1 + n, range.2 + n)

theorem RangesOf.shifted (h : RangesOf lines blocks ranges) (front : List Text) :
    List.Forall₂ (fun block (range : Nat × Nat) => range.1 < range.2 ∧ range.2 ≤ (front ++ lines).length ∧
      Renders block (((front ++ lines).drop range.1).take (range.2 - range.1))) blocks (ranges.map (shiftRange front.length)) := by
  rw [List.forall₂_map_right_iff]
  apply h.rendered.imp
  intro block range hrange
  have hdrop : (front ++ lines).drop (range.1 + front.length) = lines.drop range.1 := by
    rw [Nat.add_comm, List.drop_append]
    simp
  have hsize : range.2 + front.length - (range.1 + front.length) = range.2 - range.1 := by omega
  simp only [shiftRange, hdrop, hsize, List.length_append]
  exact ⟨by omega, by omega, hrange.2.2⟩

theorem RangesOf.shifted_increasing (h : RangesOf lines blocks ranges) (n : Nat) :
    (ranges.map (shiftRange n)).Pairwise fun range next => range.2 ≤ next.1 := by
  rw [List.pairwise_map]
  apply h.increasing.imp
  intro range next hle
  simp only [shiftRange]
  omega

theorem RangesOf.shifted_blank (h : RangesOf lines blocks ranges) (front : List Text) (i : Nat)
    (hi : (front ++ lines)[i]? = some line) (hfront : front.length ≤ i)
    (hout : ∀ range ∈ ranges.map (shiftRange front.length), i < range.1 ∨ range.2 ≤ i) : jsTrim line = [] := by
  rw [List.getElem?_append_right hfront] at hi
  apply h.blank _ _ hi
  intro range hrange
  have hshift := hout _ (List.mem_map_of_mem hrange)
  simp only [shiftRange] at hshift
  omega

theorem laidOut_ranges (h : LaidOut lines blocks) : ∃ ranges, RangesOf lines blocks ranges := by
  induction h with
  | done => exact ⟨[], List.Forall₂.nil, List.Pairwise.nil, fun i line hi _ => by simp at hi⟩
  | @blank line rest blocks hblank _ ih =>
    obtain ⟨ranges, hranges⟩ := ih
    refine ⟨ranges.map (shiftRange 1), hranges.shifted [line], hranges.shifted_increasing 1, ?_⟩
    intro i other hi hout
    cases i with
    | zero =>
      obtain rfl := Option.some.inj hi
      exact hblank
    | succ i => exact hranges.shifted_blank [line] (i + 1) hi (by simp) hout
  | @block range rest b blocks hne hshow _ ih =>
    obtain ⟨ranges, hranges⟩ := ih
    have hpos := List.length_pos_of_ne_nil hne
    refine ⟨(0, range.length) :: ranges.map (shiftRange range.length), ?_, ?_, ?_⟩
    · apply List.Forall₂.cons
      · refine ⟨hpos, by simp, ?_⟩
        simpa using hshow
      · exact hranges.shifted range
    · rw [List.pairwise_cons]
      constructor
      · intro next hnext
        obtain ⟨r, _, rfl⟩ := List.mem_map.mp hnext
        simp [shiftRange]
      · exact hranges.shifted_increasing range.length
    · intro i line hi hout
      have hfirst := hout (0, range.length) List.mem_cons_self
      apply hranges.shifted_blank range i hi
      · simp only at hfirst
        omega
      · intro r hr
        exact hout r (List.mem_cons_of_mem _ hr)

/-- The parse ends, and its blocks have ranges of lines with nothing but blank lines between them. -/
theorem parseBlocks_ranges (text : Text) :
    ∃ blocks ranges, parseBlocks text = some blocks ∧ RangesOf (splitLines text) blocks ranges := by
  obtain ⟨blocks, hblocks, hlaid⟩ := parseLoop_laidOut (splitLines text).length (splitLines text) (Nat.le_refl _)
  obtain ⟨ranges, hranges⟩ := laidOut_ranges hlaid
  exact ⟨blocks, ranges, hblocks, hranges⟩

end

end ProRag
