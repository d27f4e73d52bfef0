import Mathlib.Data.List.TakeWhile
import ProRag.Web.Layout

/-!
# A text that grows

Behind a line break nothing that comes changes a block but the last.
-/

namespace ProRag

inductive Parses : List Text → List Block → Prop
  | done : Parses [] []
  | turn {line : Text} {rest : List Text} {blocks : List Block} (h : Parses (parseStep line rest).2 blocks) :
      Parses (line :: rest) ((parseStep line rest).1.toList ++ blocks)

section

variable {line : Text} {rest front more lines : List Text} {blocks before after : List Block} {made : Option Block}

theorem parseLoop_parses {turns : Nat} (h : parseLoop turns lines = some blocks) : Parses lines blocks := by
  induction turns generalizing lines blocks with
  | zero =>
    cases lines with
    | nil =>
      obtain rfl := Option.some.inj h
      exact Parses.done
    | cons line rest => cases h
  | succ turns ih =>
    cases lines with
    | nil =>
      obtain rfl := Option.some.inj h
      exact Parses.done
    | cons line rest =>
      obtain ⟨later, hlater, rfl⟩ := Option.map_eq_some_iff.mp h
      exact Parses.turn (ih hlater)

theorem parses_cons (h : Parses (line :: rest) blocks) :
    ∃ later, blocks = (parseStep line rest).1.toList ++ later ∧ Parses (parseStep line rest).2 later := by
  cases h with
  | turn hlater => exact ⟨_, rfl, hlater⟩

theorem parses_blank (h : Parses [[]] blocks) : blocks = [] := by
  obtain ⟨later, rfl, hlater⟩ := parses_cons h
  have hstep : parseStep [] [] = (none, []) := parseStep_blank rfl []
  rw [hstep] at hlater
  cases hlater
  rfl

theorem parses_nil (h : Parses [] blocks) : blocks = [] := by
  cases h
  rfl

/-- What a turn takes lies in the front, with an empty line behind it as with other lines, or the front is used up. -/
inductive StaysIn (line : Text) (front more : List Text) : Prop
  | inside (made : Option Block) (rest : List Text) (hshorter : rest.length ≤ front.length)
      (hstep : ∀ tail, tail = [[]] ∨ tail = more → parseStep line (front ++ tail) = (made, rest ++ tail))
  | usedUp (h : (parseStep line (front ++ [[]])).2 = [] ∨ (parseStep line (front ++ [[]])).2 = [[]])

theorem takeWhile_front {p : Text → Bool} {stop : Text} (hstop : stop ∈ front) (hp : p stop = false) (tail : List Text) :
    (front ++ tail).takeWhile p = front.takeWhile p ∧ (front ++ tail).dropWhile p = front.dropWhile p ++ tail ∧
      0 < (front.dropWhile p).length := by
  have hne : ¬ ∀ l ∈ front, p l = true := by
    intro hall
    rw [hall stop hstop] at hp
    cases hp
  have hdrop : front.dropWhile p ≠ [] := fun hnil => hne (List.dropWhile_eq_nil_iff.mp hnil)
  have hsplit := List.takeWhile_append_dropWhile (p := p) (l := front)
  refine ⟨?_, ?_, List.length_pos_of_ne_nil hdrop⟩
  · rw [List.takeWhile_append, if_neg]
    intro hlength
    apply hdrop
    apply List.eq_nil_of_length_eq_zero
    have hlengths := congrArg List.length hsplit
    rw [List.length_append] at hlengths
    omega
  · rw [List.dropWhile_append, if_neg]
    simpa using hdrop

theorem run_front (p : Text → Bool) (front : List Text) :
    (∀ tail, (front ++ tail).takeWhile p = front.takeWhile p ∧ (front ++ tail).dropWhile p = front.dropWhile p ++ tail ∧
      0 < (front.dropWhile p).length) ∨ ∀ l ∈ front, p l = true := by
  by_cases h : ∃ stop ∈ front, p stop = false
  · obtain ⟨stop, hstop, hp⟩ := h
    exact Or.inl (takeWhile_front hstop hp)
  · right
    intro l hl
    by_contra hl'
    exact h ⟨l, hl, Bool.eq_false_of_not_eq_true hl'⟩

theorem dropWhile_all {p : Text → Bool} (h : ∀ l ∈ front, p l = true) (hblank : p [] = false) :
    (front ++ [[]]).dropWhile p = [[]] := by
  rw [List.dropWhile_append_of_pos h]
  simp [hblank]

theorem drop_length_le {p : Text → Bool} (front : List Text) : (front.dropWhile p).length ≤ front.length :=
  (List.dropWhile_suffix p).length_le

theorem breaksParagraph_blank (h : breaksParagraph line (some []) = true) (next : Option Text) : breaksParagraph line next = true := by
  have hnone : isTableSeparator (some []) = false := rfl
  simp only [breaksParagraph, hnone, Bool.and_false, Bool.or_false] at h
  simp only [breaksParagraph, Bool.or_eq_true] at h ⊢
  tauto

theorem collectParagraph_front (front more : List Text) :
    (∃ taken rest, rest.length ≤ front.length ∧ collectParagraph (front ++ [[]]) = (taken, rest ++ [[]]) ∧
      collectParagraph (front ++ more) = (taken, rest ++ more)) ∨
    (collectParagraph (front ++ [[]])).2 = [[]] := by
  induction front with
  | nil => exact Or.inr rfl
  | cons line front ih =>
    cases front with
    | nil =>
      cases hbreak : breaksParagraph line (some []) with
      | true =>
        left
        refine ⟨[], [line], by simp, ?_, ?_⟩
        · simp [collectParagraph, hbreak]
        · simp [collectParagraph, breaksParagraph_blank hbreak]
      | false =>
        right
        have hblank : breaksParagraph [] none = true := rfl
        simp [collectParagraph, hbreak, hblank]
    | cons next front =>
      cases hbreak : breaksParagraph line (some next) with
      | true =>
        left
        refine ⟨[], line :: next :: front, by simp, ?_, ?_⟩
        · simp [collectParagraph, hbreak]
        · simp [collectParagraph, hbreak]
      | false =>
        have hstep : ∀ tail, collectParagraph (line :: next :: front ++ tail) =
            (line :: (collectParagraph (next :: front ++ tail)).1, (collectParagraph (next :: front ++ tail)).2) := by
          intro tail
          rw [List.cons_append, collectParagraph]
          simp [hbreak]
        rcases ih with ⟨taken, rest, hlength, hblank, hmore⟩ | hused
        · left
          refine ⟨line :: taken, rest, ?_, ?_, ?_⟩
          · rw [List.length_cons]
            omega
          · rw [hstep, hblank]
          · rw [hstep, hmore]
        · right
          rw [hstep]
          exact hused

/-- A turn does the same with any lines behind the front, unless it uses up the front. -/
theorem parseStep_front (line : Text) (front more : List Text) : StaysIn line front more := by
  have hstep := parseStep_of line (front ++ [[]])
  generalize (parseStep line (front ++ [[]])).1 = made at hstep
  generalize (parseStep line (front ++ [[]])).2 = after at hstep
  cases hstep with
  | blank hblank => exact StaysIn.inside none front (Nat.le_refl _) fun tail _ => parseStep_blank hblank (front ++ tail)
  | fence lang hfence =>
    rcases run_front (fun l => !closesFence l) front with hstops | hall
    · have hlength := drop_length_le (p := fun l => !closesFence l) front
      let made := Block.code (if lang = [] then "code".toList else lang) (joinLines (front.takeWhile fun l => !closesFence l))
      refine StaysIn.inside (some made) ((front.dropWhile fun l => !closesFence l).drop 1) ?_ fun tail _ => ?_
      · rw [List.length_drop]
        omega
      · obtain ⟨htake, hdrop, hpos⟩ := hstops tail
        rw [parseStep_fence hfence, htake, hdrop, List.drop_append_of_le_length hpos]
    · apply StaysIn.usedUp
      left
      rw [parseStep_fence hfence, List.dropWhile_append_of_pos hall]
      rfl
  | heading heading hheading =>
    exact StaysIn.inside _ front (Nat.le_refl _) fun tail _ => parseStep_heading hheading (front ++ tail)
  | table hrow hnext =>
    cases front with
    | nil => cases hnext
    | cons next front =>
      have hnext' : ∀ tail, isTableSeparator (next :: front ++ tail).head? = true := fun _ => hnext
      rcases run_front isRowLine (next :: front) with hstops | hall
      · let made := Block.table (tableCells line) ((((next :: front).takeWhile isRowLine).drop 1).map tableCells)
        refine StaysIn.inside (some made) ((next :: front).dropWhile isRowLine) (drop_length_le _) fun tail _ => ?_
        obtain ⟨htake, hdrop, _⟩ := hstops tail
        rw [parseStep_table hrow (hnext' tail), htake, hdrop]
      · apply StaysIn.usedUp
        right
        rw [parseStep_table hrow (hnext' [[]])]
        exact dropWhile_all hall rfl
  | list item hitem =>
    rcases run_front isItemLine front with hstops | hall
    · let items := (line :: front.takeWhile isItemLine).filterMap fun l => (listItemRe (jsTrim l)).map Prod.snd
      refine StaysIn.inside (some (.list (isNumbered item.1) items)) (front.dropWhile isItemLine) (drop_length_le _) fun tail _ => ?_
      obtain ⟨htake, hdrop, _⟩ := hstops tail
      rw [parseStep_list hitem, htake, hdrop]
    · apply StaysIn.usedUp
      right
      rw [parseStep_list hitem]
      exact dropWhile_all hall rfl
  | paragraph hprose =>
    cases front with
    | nil =>
      apply StaysIn.usedUp
      right
      rw [parseStep_paragraph hprose]
      rfl
    | cons next front =>
      have hprose' : ∀ tail, breaksParagraph line (next :: front ++ tail).head? = false := fun _ => hprose
      rcases collectParagraph_front (next :: front) more with ⟨taken, rest, hlength, hblank, hmore⟩ | hused
      · refine StaysIn.inside (some (.paragraph (line :: taken))) rest hlength fun tail htail => ?_
        rw [parseStep_paragraph (hprose' tail)]
        rcases htail with rfl | rfl
        · rw [hblank]
        · rw [hmore]
      · apply StaysIn.usedUp
        right
        rw [parseStep_paragraph (hprose' [[]])]
        exact hused

/-- All blocks but the last before an empty line stay whatever lines come instead of it. -/
theorem parses_front (hbefore : Parses (front ++ [[]]) before) (hafter : Parses (front ++ more) after) : before.dropLast <+: after := by
  induction hsize : front.length using Nat.strong_induction_on generalizing front before after with
  | _ n ih =>
    cases front with
    | nil =>
      rw [parses_blank hbefore]
      exact List.nil_prefix
    | cons line front =>
      rw [List.cons_append] at hbefore hafter
      obtain ⟨later, rfl, hlater⟩ := parses_cons hbefore
      rcases parseStep_front line front more with ⟨made, rest, hshorter, hstep⟩ | hused
      · obtain ⟨later', rfl, hlater'⟩ := parses_cons hafter
        rw [hstep [[]] (Or.inl rfl)] at hlater ⊢
        rw [hstep more (Or.inr rfl)] at hlater' ⊢
        have hprefix := ih rest.length (by rw [List.length_cons] at hsize; omega) hlater hlater' rfl
        cases hnil : later with
        | nil =>
          cases made with
          | none => exact List.nil_prefix
          | some block => exact List.nil_prefix
        | cons block blocks =>
          rw [← hnil, List.dropLast_append_of_ne_nil (by rw [hnil]; simp)]
          exact (List.prefix_append_right_inj _).mpr hprefix
      · have hnil : later = [] := by
          rcases hused with hend | hend
          · rw [hend] at hlater
            exact parses_nil hlater
          · rw [hend] at hlater
            exact parses_blank hlater
        rw [hnil, List.append_nil]
        cases (parseStep line (front ++ [[]])).1 with
        | none => exact List.nil_prefix
        | some block => exact List.nil_prefix

theorem splitLines_append (text more : Text) : splitLines (text ++ '\n' :: more) = splitLines text ++ splitLines more := by
  unfold splitLines
  exact List.splitOnP_append_cons text more (by decide)

/-- Of a text that ends with a line break all blocks but the last are those of any text that goes on. -/
theorem parseBlocks_grows (text more : Text) : ∃ before after, parseBlocks (text ++ ['\n']) = some before ∧
    parseBlocks (text ++ ['\n'] ++ more) = some after ∧ before.dropLast <+: after := by
  obtain ⟨before, hbefore, _⟩ := parseLoop_laidOut (splitLines (text ++ ['\n'])).length _ (Nat.le_refl _)
  obtain ⟨after, hafter, _⟩ := parseLoop_laidOut (splitLines (text ++ ['\n'] ++ more)).length _ (Nat.le_refl _)
  refine ⟨before, after, hbefore, hafter, ?_⟩
  have hparses := parseLoop_parses hbefore
  have hparses' := parseLoop_parses hafter
  rw [splitLines_append] at hparses
  rw [List.append_assoc, List.singleton_append, splitLines_append] at hparses'
  exact parses_front hparses hparses'

end

end ProRag
