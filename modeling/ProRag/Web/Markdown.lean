import ProRag.Framework.Regex
import ProRag.Web.Citations

/-!
# The blocks of an answer

`parseBlocks` goes through the lines of a text; a turn of its loop skips a blank line or makes a block of the lines at
its place.
-/

namespace ProRag

open Framework

inductive Block
  | paragraph (lines : List Text)
  | code (lang code : Text)
  | list (ordered : Bool) (items : List Text)
  | table (header : List Text) (rows : List (List Text))
  | heading (level : Nat) (text : Text)
deriving DecidableEq

/-- `text.split(/\n/)`. -/
def splitLines (text : Text) : List Text := text.splitOn '\n'

/-- `codeLines.join("\n")`. -/
def joinLines (lines : List Text) : Text := ['\n'].intercalate lines

/-- `[\w+-]`. -/
def isLangChar (c : Char) : Bool :=
  ('a' ≤ c && c ≤ 'z') || ('A' ≤ c && c ≤ 'Z') || isJsDigit c || c = '_' || c = '+' || c = '-'

/-- What `.` does not match. -/
def isLineTerminator (c : Char) : Bool := c = '\n' || c = '\r' || c.toNat = 0x2028 || c.toNat = 0x2029

/-- `FENCE_RE`, `^```([\w+-]*)\s*$`. -/
def fenceRe (text : Text) : Option Text :=
  let rest := text.drop 3
  if text.take 3 = "```".toList ∧ (rest.dropWhile isLangChar).all isJsSpace then some (rest.takeWhile isLangChar) else none

/-- `CLOSE_FENCE_RE`, `^```\s*$`. -/
def closeFenceRe (text : Text) : Bool := text.take 3 = "```".toList && (text.drop 3).all isJsSpace

/-- `\s+(.*)$`; the spaces take all they can, and what they leave has to be on one line. -/
def spacesThenRest (text : Text) : Option Text :=
  if text.takeWhile isJsSpace = [] then none
  else if (text.dropWhile isJsSpace).any isLineTerminator then none
  else some (text.dropWhile isJsSpace)

/-- `HEADING_RE`, `^(#{1,3})\s+(.*)$`. -/
def headingRe (text : Text) : Option (Nat × Text) :=
  let hashes := (text.takeWhile fun c => c = '#').length
  if 1 ≤ hashes ∧ hashes ≤ 3 then (spacesThenRest (text.drop hashes)).map fun rest => (hashes, rest) else none

/-- `LIST_ITEM_RE`, `^([-*]|\d+\.)\s+(.*)$`. -/
def listItemRe (text : Text) : Option (Text × Text) :=
  let digits := text.takeWhile isJsDigit
  match text.drop digits.length with
  | c :: rest =>
    if (digits = [] ∧ (c = '-' ∨ c = '*')) ∨ (digits ≠ [] ∧ c = '.') then
      (spacesThenRest rest).map fun body => (digits ++ [c], body)
    else none
  | [] => none

/-- `TABLE_ROW_RE`, `^\|`. -/
def tableRowRe (text : Text) : Bool := text.head? = some '|'

/-- `[\s:|-]`. -/
def isSeparatorChar (c : Char) : Bool := isJsSpace c || c = ':' || c = '|' || c = '-'

/-- `\|?[\s:|-]*-\s*[\s:|-]*\|?`. -/
def separatorRe : Regex Char := .concat
  [.opt (.char fun c => c = '|'), .star (.char isSeparatorChar), .char fun c => c = '-', .star (.char isJsSpace),
    .star (.char isSeparatorChar), .opt (.char fun c => c = '|')]

/-- `/\d/.test(marker)`. -/
def isNumbered (marker : Text) : Bool := marker.any isJsDigit

/-- `isTableSeparator(line)`; the pattern has to reach from the first character to the last. -/
def isTableSeparator : Option Text → Bool
  | none => false
  | some line => line ≠ [] && (separatorRe.run ⟨none, jsTrim line⟩).any fun stop => stop.rest.isEmpty

/-- `replace(/^\||\|$/g, "")`. -/
def stripPipes (text : Text) : Text :=
  let inner := if text.head? = some '|' then text.drop 1 else text
  if inner.getLast? = some '|' then inner.dropLast else inner

def tableCells (line : Text) : List Text := ((stripPipes (jsTrim line)).splitOn '|').map jsTrim

/-- The condition on which the paragraph branch stops, by the line and the next one. -/
def breaksParagraph (line : Text) (next : Option Text) : Bool :=
  let l := jsTrim line
  l = [] || (fenceRe l).isSome || (headingRe l).isSome || (tableRowRe l && isTableSeparator next) || (listItemRe l).isSome

/-- The loop of the paragraph branch: the lines it takes, and those it leaves. -/
def collectParagraph : List Text → List Text × List Text
  | [] => ([], [])
  | line :: rest =>
    if breaksParagraph line rest.head? then ([], line :: rest)
    else
      let more := collectParagraph rest
      (line :: more.1, more.2)

def isItemLine (line : Text) : Bool := (listItemRe (jsTrim line)).isSome

def isRowLine (line : Text) : Bool := tableRowRe (jsTrim line)

def closesFence (line : Text) : Bool := closeFenceRe (jsTrim line)

/-- One turn of the loop of `parseBlocks`, at `line` with `rest` behind it: the block it makes, if it does, and the lines
that remain. -/
def parseStep (line : Text) (rest : List Text) : Option Block × List Text :=
  let trimmed := jsTrim line
  if trimmed = [] then (none, rest)
  else
    match fenceRe trimmed with
    | some lang =>
      let codeLines := rest.takeWhile fun l => !closesFence l
      (some (.code (if lang = [] then "code".toList else lang) (joinLines codeLines)),
        (rest.dropWhile fun l => !closesFence l).drop 1)
    | none =>
      match headingRe trimmed with
      | some heading => (some (.heading heading.1 heading.2), rest)
      | none =>
        if tableRowRe trimmed && isTableSeparator rest.head? then
          let rawRows := ((line :: rest).takeWhile isRowLine).map tableCells
          (some (.table (rawRows.head?.getD []) (rawRows.drop 2)), (line :: rest).dropWhile isRowLine)
        else
          match listItemRe trimmed with
          | some item =>
            let items := ((line :: rest).takeWhile isItemLine).filterMap fun l => (listItemRe (jsTrim l)).map Prod.snd
            (some (.list (isNumbered item.1) items), (line :: rest).dropWhile isItemLine)
          | none => (some (.paragraph (collectParagraph (line :: rest)).1), (collectParagraph (line :: rest)).2)

/-- The loop of `parseBlocks`, for as many turns as are allowed. -/
def parseLoop : Nat → List Text → Option (List Block)
  | _, [] => some []
  | 0, _ :: _ => none
  | turns + 1, line :: rest =>
    (parseLoop turns (parseStep line rest).2).map fun blocks => (parseStep line rest).1.toList ++ blocks

/-- `parseBlocks(text)`; `none` is a loop that takes more turns than there are lines. -/
def parseBlocks (text : Text) : Option (List Block) := parseLoop (splitLines text).length (splitLines text)

section

variable {line text : Text} {rest : List Text}

/-! ## The first character tells the branches apart -/

theorem fenceRe_first {lang : Text} (h : fenceRe text = some lang) : text.head? = "```".toList.head? := by
  unfold fenceRe at h
  simp only at h
  split at h
  · rename_i hfence
    rw [← hfence.1]
    cases text with
    | nil => rfl
    | cons c text => rfl
  · cases h

theorem headingRe_first {heading : Nat × Text} (h : headingRe text = some heading) : text.head? = some '#' := by
  unfold headingRe at h
  simp only at h
  split at h
  · rename_i hhashes
    cases text with
    | nil => simp at hhashes
    | cons c text =>
      by_cases hc : c = '#'
      · rw [hc]
        rfl
      · simp [hc] at hhashes
  · cases h

theorem listItemRe_first {item : Text × Text} (h : listItemRe text = some item) :
    ∃ c, text.head? = some c ∧ (isJsDigit c = true ∨ c = '-' ∨ c = '*') := by
  cases text with
  | nil => cases h
  | cons c text =>
    apply Exists.intro c
    refine ⟨rfl, ?_⟩
    cases hdigit : isJsDigit c with
    | true => exact Or.inl rfl
    | false =>
      right
      simp only [listItemRe, List.takeWhile_cons, hdigit, Bool.false_eq_true, if_false, List.length_nil, List.drop_zero] at h
      split at h
      · rename_i hmarker
        simpa using hmarker
      · cases h

theorem item_other {item : Text × Text} (h : listItemRe text = some item) :
    text ≠ [] ∧ fenceRe text = none ∧ headingRe text = none ∧ tableRowRe text = false := by
  obtain ⟨c, hfirst, hc⟩ := listItemRe_first h
  have hother : ∀ d, isJsDigit d = false → d ≠ '-' → d ≠ '*' → text.head? ≠ some d := by
    intro d hdigit hdash hstar hhead
    rw [hfirst] at hhead
    obtain rfl := Option.some.inj hhead
    rcases hc with hc | rfl | rfl
    · rw [hdigit] at hc
      cases hc
    · exact hdash rfl
    · exact hstar rfl
  refine ⟨?_, ?_, ?_, ?_⟩
  · rintro rfl
    cases hfirst
  · rw [Option.eq_none_iff_forall_ne_some]
    intro lang hlang
    exact hother _ (by decide) (by decide) (by decide) (fenceRe_first hlang)
  · rw [Option.eq_none_iff_forall_ne_some]
    intro heading hheading
    exact hother _ (by decide) (by decide) (by decide) (headingRe_first hheading)
  · have hbar := hother '|' (by decide) (by decide) (by decide)
    simpa [tableRowRe] using hbar

theorem row_other (h : tableRowRe text = true) : text ≠ [] ∧ fenceRe text = none ∧ headingRe text = none := by
  have hfirst : text.head? = some '|' := by simpa [tableRowRe] using h
  refine ⟨?_, ?_, ?_⟩
  · rintro rfl
    cases hfirst
  · rw [Option.eq_none_iff_forall_ne_some]
    intro lang hlang
    rw [fenceRe_first hlang] at hfirst
    cases hfirst
  · rw [Option.eq_none_iff_forall_ne_some]
    intro heading hheading
    rw [headingRe_first hheading] at hfirst
    cases hfirst

/-! ## What each branch does -/

theorem parseStep_blank (h : jsTrim line = []) (rest : List Text) : parseStep line rest = (none, rest) := by
  simp only [parseStep, h, if_true]

theorem fence_other {lang : Text} (h : fenceRe text = some lang) : text ≠ [] := by
  rintro rfl
  have hfirst := fenceRe_first h
  cases hfirst

theorem heading_other {heading : Nat × Text} (h : headingRe text = some heading) : text ≠ [] ∧ fenceRe text = none := by
  have hfirst := headingRe_first h
  refine ⟨?_, ?_⟩
  · rintro rfl
    cases hfirst
  · rw [Option.eq_none_iff_forall_ne_some]
    intro lang hlang
    rw [fenceRe_first hlang] at hfirst
    cases hfirst

theorem parseStep_fence {lang : Text} (h : fenceRe (jsTrim line) = some lang) (rest : List Text) : parseStep line rest =
    (some (.code (if lang = [] then "code".toList else lang) (joinLines (rest.takeWhile fun l => !closesFence l))),
      (rest.dropWhile fun l => !closesFence l).drop 1) := by
  simp only [parseStep, fence_other h, h, if_false]

theorem parseStep_heading {heading : Nat × Text} (h : headingRe (jsTrim line) = some heading) (rest : List Text) :
    parseStep line rest = (some (.heading heading.1 heading.2), rest) := by
  obtain ⟨hne, hfence⟩ := heading_other h
  simp only [parseStep, hne, hfence, h, if_false]

theorem parseStep_table (hrow : isRowLine line = true) (hnext : isTableSeparator rest.head? = true) : parseStep line rest =
    (some (.table (tableCells line) (((rest.takeWhile isRowLine).drop 1).map tableCells)), rest.dropWhile isRowLine) := by
  obtain ⟨hne, hfence, hheading⟩ := row_other hrow
  have htrim : tableRowRe (jsTrim line) = true := hrow
  simp only [parseStep, hne, hfence, hheading, htrim, hnext, Bool.and_self, if_true, if_false, List.dropWhile_cons_of_pos hrow,
    List.takeWhile_cons_of_pos hrow, List.map_cons, List.head?_cons, Option.getD_some, List.drop_succ_cons, List.map_drop]

theorem parseStep_list {item : Text × Text} (h : listItemRe (jsTrim line) = some item) (rest : List Text) : parseStep line rest =
    (some (.list (isNumbered item.1) ((line :: rest.takeWhile isItemLine).filterMap fun l => (listItemRe (jsTrim l)).map Prod.snd)),
      rest.dropWhile isItemLine) := by
  obtain ⟨hne, hfence, hheading, hrow⟩ := item_other h
  have hline : isItemLine line = true := by simp [isItemLine, h]
  simp only [parseStep, hne, hfence, hheading, hrow, h, Bool.false_and, Bool.false_eq_true, if_false,
    List.dropWhile_cons_of_pos hline, List.takeWhile_cons_of_pos hline]

theorem parseStep_paragraph (h : breaksParagraph line rest.head? = false) :
    parseStep line rest = (some (.paragraph (line :: (collectParagraph rest).1)), (collectParagraph rest).2) := by
  have hbreak := h
  simp only [breaksParagraph, Bool.or_eq_false_iff, decide_eq_false_iff_not, Option.isSome_eq_false_iff, Option.isNone_iff_eq_none]
    at hbreak
  obtain ⟨⟨⟨⟨hne, hfence⟩, hheading⟩, htable⟩, hitem⟩ := hbreak
  simp only [parseStep, hne, hfence, hheading, htable, hitem, Bool.false_eq_true, if_false, collectParagraph, h]

inductive StepOf (line : Text) (rest : List Text) : Option Block → List Text → Prop
  | blank (hblank : jsTrim line = []) : StepOf line rest none rest
  | fence (lang : Text) (hfence : fenceRe (jsTrim line) = some lang) :
      StepOf line rest (some (.code (if lang = [] then "code".toList else lang) (joinLines (rest.takeWhile fun l => !closesFence l))))
        ((rest.dropWhile fun l => !closesFence l).drop 1)
  | heading (heading : Nat × Text) (hheading : headingRe (jsTrim line) = some heading) :
      StepOf line rest (some (.heading heading.1 heading.2)) rest
  | table (hrow : isRowLine line = true) (hnext : isTableSeparator rest.head? = true) :
      StepOf line rest (some (.table (tableCells line) (((rest.takeWhile isRowLine).drop 1).map tableCells))) (rest.dropWhile isRowLine)
  | list (item : Text × Text) (hitem : listItemRe (jsTrim line) = some item) :
      StepOf line rest
        (some (.list (isNumbered item.1)
          ((line :: rest.takeWhile isItemLine).filterMap fun l => (listItemRe (jsTrim l)).map Prod.snd)))
        (rest.dropWhile isItemLine)
  | paragraph (hprose : breaksParagraph line rest.head? = false) :
      StepOf line rest (some (.paragraph (line :: (collectParagraph rest).1))) (collectParagraph rest).2

theorem parseStep_of (line : Text) (rest : List Text) : StepOf line rest (parseStep line rest).1 (parseStep line rest).2 := by
  cases hbreak : breaksParagraph line rest.head? with
  | false =>
    rw [parseStep_paragraph hbreak]
    exact StepOf.paragraph hbreak
  | true =>
    simp only [breaksParagraph, Bool.or_eq_true, decide_eq_true_eq, Bool.and_eq_true, Option.isSome_iff_exists] at hbreak
    rcases hbreak with (((hblank | ⟨lang, hfence⟩) | ⟨heading, hheading⟩) | ⟨hrow, hnext⟩) | ⟨item, hitem⟩
    · rw [parseStep_blank hblank]
      exact StepOf.blank hblank
    · rw [parseStep_fence hfence]
      exact StepOf.fence lang hfence
    · rw [parseStep_heading hheading]
      exact StepOf.heading heading hheading
    · rw [parseStep_table hrow hnext]
      exact StepOf.table hrow hnext
    · rw [parseStep_list hitem]
      exact StepOf.list item hitem

end

end ProRag
