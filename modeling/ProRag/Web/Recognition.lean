import ProRag.Web.Layout

/-!
# Lists and tables

A list takes every line with a marker, and a table the lines with a bar: whether these are the lines of one list or one
table is not asked again.
-/

namespace ProRag

/-- The lines that remain at some turn of the loop. -/
inductive Visits (lines : List Text) : List Text → Prop
  | start : Visits lines lines
  | turn {line : Text} {rest : List Text} (h : Visits lines (line :: rest)) : Visits lines (parseStep line rest).2

/-- The list or table that a turn makes is whole: the items have the kind of marker of their list, and the table has its
separator for its second line, and no other among its rows. -/
structure WholeAt (line : Text) (rest : List Text) : Prop where
  list : ∀ ordered items, (parseStep line rest).1 = some (.list ordered items) →
    ∀ others, rest = others ++ (parseStep line rest).2 →
    ∀ l ∈ line :: others, ∃ marker body, listItemRe (jsTrim l) = some (marker, body) ∧ isNumbered marker = ordered
  table : ∀ header rows, (parseStep line rest).1 = some (.table header rows) →
    ∀ others, rest = others ++ (parseStep line rest).2 →
    ∃ separator more, others = separator :: more ∧ isTableSeparator (some separator) = true ∧
      ∀ row ∈ more, isTableSeparator (some row) = false

/-- The items behind an item have its kind of marker; the separator behind a header has a bar in front, and no other
separator is among the rows behind it. -/
structure AlikeAt (line : Text) (rest : List Text) : Prop where
  items : ∀ marker body, listItemRe (jsTrim line) = some (marker, body) → ∀ l ∈ rest.takeWhile isItemLine,
    ∀ marker' body', listItemRe (jsTrim l) = some (marker', body') → isNumbered marker' = isNumbered marker
  rows : isRowLine line = true → isTableSeparator rest.head? = true → ∃ separator more, rest = separator :: more ∧
    isRowLine separator = true ∧ ∀ row ∈ more.takeWhile isRowLine, isTableSeparator (some row) = false

section

variable {line text : Text} {rest lines here : List Text} {block : Block} {blocks : List Block}

/-! ## What the branches take -/

theorem list_of_parseStep {ordered : Bool} {items : List Text} (h : (parseStep line rest).1 = some (.list ordered items)) :
    ∃ marker body, listItemRe (jsTrim line) = some (marker, body) ∧ isNumbered marker = ordered ∧
      (parseStep line rest).2 = rest.dropWhile isItemLine := by
  have hstep := parseStep_of line rest
  rw [h] at hstep
  generalize (parseStep line rest).2 = after at hstep ⊢
  cases hstep with
  | list item hitem => exact ⟨item.1, item.2, hitem, rfl, rfl⟩

theorem table_of_parseStep {header : List Text} {rows : List (List Text)} (h : (parseStep line rest).1 = some (.table header rows)) :
    isRowLine line = true ∧ isTableSeparator rest.head? = true ∧ (parseStep line rest).2 = rest.dropWhile isRowLine := by
  have hstep := parseStep_of line rest
  rw [h] at hstep
  generalize (parseStep line rest).2 = after at hstep ⊢
  cases hstep with
  | table hrow hnext => exact ⟨hrow, hnext, rfl⟩

theorem taken_of_dropWhile {p : Text → Bool} {others : List Text} (h : rest = others ++ rest.dropWhile p) :
    others = rest.takeWhile p := by
  have hsplit := List.takeWhile_append_dropWhile (p := p) (l := rest)
  have hsame : others ++ rest.dropWhile p = rest.takeWhile p ++ rest.dropWhile p := by
    rw [← h, hsplit]
  exact List.append_cancel_right hsame

theorem wholeAt_iff (line : Text) (rest : List Text) : WholeAt line rest ↔ AlikeAt line rest := by
  constructor
  · intro hwhole
    constructor
    · intro marker body hitem l hl marker' body' hl'
      have hstep := parseStep_list hitem rest
      have hmade := congrArg Prod.fst hstep
      have hafter := congrArg Prod.snd hstep
      obtain ⟨m, b, hm, hkind⟩ := hwhole.list _ _ hmade (rest.takeWhile isItemLine) (by rw [hafter]; simp) l
        (List.mem_cons_of_mem _ hl)
      rw [hl', Option.some.injEq, Prod.mk.injEq] at hm
      rw [hm.1]
      exact hkind
    · intro hrow hnext
      have hstep := parseStep_table hrow hnext
      have hmade := congrArg Prod.fst hstep
      have hafter := congrArg Prod.snd hstep
      obtain ⟨separator, more, hothers, _, hmore⟩ := hwhole.table _ _ hmade (rest.takeWhile isRowLine) (by rw [hafter]; simp)
      cases rest with
      | nil => cases hothers
      | cons next others =>
        rw [List.takeWhile_cons] at hothers
        split at hothers
        · rename_i hbar
          obtain ⟨rfl, rfl⟩ := List.cons.inj hothers
          exact ⟨_, _, rfl, hbar, hmore⟩
        · cases hothers
  · intro halike
    constructor
    · intro ordered items hmade others hothers l hl
      obtain ⟨marker, body, hitem, hkind, hafter⟩ := list_of_parseStep hmade
      rw [hafter] at hothers
      rcases List.mem_cons.mp hl with rfl | hmem
      · exact ⟨marker, body, hitem, hkind⟩
      · rw [taken_of_dropWhile hothers] at hmem
        have hline : isItemLine l = true := List.mem_takeWhile_imp hmem
        obtain ⟨item, hl'⟩ := Option.isSome_iff_exists.mp hline
        exact ⟨item.1, item.2, hl', hkind ▸ halike.items marker body hitem l hmem item.1 item.2 hl'⟩
    · intro header rows hmade others hothers
      obtain ⟨hrow, hnext, hafter⟩ := table_of_parseStep hmade
      rw [hafter] at hothers
      obtain ⟨separator, more, rfl, hbar, hmore⟩ := halike.rows hrow hnext
      refine ⟨separator, more.takeWhile isRowLine, ?_, hnext, hmore⟩
      rw [taken_of_dropWhile hothers, List.takeWhile_cons_of_pos hbar]

/-! ## All turns -/

theorem visits_cons (h : Visits (line :: rest) here) : here = line :: rest ∨ Visits (parseStep line rest).2 here := by
  induction h with
  | start => exact Or.inl rfl
  | turn _ ih =>
    right
    rcases ih with heq | hlater
    · obtain ⟨rfl, rfl⟩ := List.cons.inj heq
      exact Visits.start
    · exact Visits.turn hlater

theorem visits_later (h : Visits (parseStep line rest).2 here) : Visits (line :: rest) here := by
  induction h with
  | start => exact Visits.turn Visits.start
  | turn _ ih => exact Visits.turn ih

theorem visits_nil (h : Visits [] here) : here = [] := by
  induction h with
  | start => rfl
  | turn _ ih => cases ih

theorem mem_nil_visits (block : Block) : block ∈ ([] : List Block) ↔
    ∃ line rest, Visits [] (line :: rest) ∧ (parseStep line rest).1 = some block := by
  constructor
  · intro hmem
    cases hmem
  · rintro ⟨line, rest, hreach, _⟩
    cases visits_nil hreach

theorem mem_parseLoop {turns : Nat} (h : parseLoop turns lines = some blocks) (block : Block) :
    block ∈ blocks ↔ ∃ line rest, Visits lines (line :: rest) ∧ (parseStep line rest).1 = some block := by
  induction turns generalizing lines blocks with
  | zero =>
    cases lines with
    | nil =>
      obtain rfl := Option.some.inj h
      exact mem_nil_visits block
    | cons line rest => cases h
  | succ turns ih =>
    cases lines with
    | nil =>
      obtain rfl := Option.some.inj h
      exact mem_nil_visits block
    | cons line rest =>
      obtain ⟨later, hlater, rfl⟩ := Option.map_eq_some_iff.mp h
      rw [List.mem_append, Option.mem_toList, ih hlater]
      constructor
      · rintro (hmade | ⟨line', rest', hreach, hmade⟩)
        · exact ⟨line, rest, Visits.start, hmade⟩
        · exact ⟨line', rest', visits_later hreach, hmade⟩
      · rintro ⟨line', rest', hreach, hmade⟩
        rcases visits_cons hreach with heq | hreach'
        · obtain ⟨rfl, rfl⟩ := List.cons.inj heq
          exact Or.inl hmade
        · exact Or.inr ⟨line', rest', hreach', hmade⟩

/-- Lists and tables are whole just where at each turn the items and the rows that follow one another are alike. -/
theorem parseBlocks_whole_iff (text : Text) : ∃ blocks, parseBlocks text = some blocks ∧
    (∀ block, block ∈ blocks ↔ ∃ line rest, Visits (splitLines text) (line :: rest) ∧ (parseStep line rest).1 = some block) ∧
    ((∀ line rest, Visits (splitLines text) (line :: rest) → WholeAt line rest) ↔
      ∀ line rest, Visits (splitLines text) (line :: rest) → AlikeAt line rest) := by
  obtain ⟨blocks, hblocks, _⟩ := parseLoop_laidOut (splitLines text).length (splitLines text) (Nat.le_refl _)
  refine ⟨blocks, hblocks, mem_parseLoop hblocks, ?_⟩
  constructor
  · intro h line rest hreach
    exact (wholeAt_iff line rest).mp (h line rest hreach)
  · intro h line rest hreach
    exact (wholeAt_iff line rest).mpr (h line rest hreach)

/-- A numbered item in a list of bullets, and a separator that is a paragraph. -/
theorem mixed_not_whole :
    (parseBlocks "- a\n1. b".toList = some [.list false ["a".toList, "b".toList]] ∧
      ¬ WholeAt "- a".toList ["1. b".toList]) ∧
    parseBlocks "| a |\n--- | ---".toList = some [.table ["a".toList] [], .paragraph ["--- | ---".toList]] ∧
      ¬ WholeAt "| a |".toList ["--- | ---".toList] := by
  refine ⟨⟨by decide, fun hwhole => ?_⟩, by decide, fun hwhole => ?_⟩
  · obtain ⟨marker, body, hitem, hkind⟩ := hwhole.list false ["a".toList, "b".toList] (by decide) ["1. b".toList] (by decide)
      "1. b".toList (by simp)
    obtain rfl : "1.".toList = marker := congrArg Prod.fst (Option.some.inj hitem)
    cases hkind
  · obtain ⟨separator, more, hothers, _⟩ := hwhole.table ["a".toList] [] (by decide) [] (by decide)
    cases hothers

end

end ProRag
