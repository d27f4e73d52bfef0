import Mathlib.Data.List.DropRight
import ProRag.Chat.Shown

/-!
# However the text is cut

What a guard lets out of a text does not depend on the pieces in which the text comes.
-/

namespace ProRag

/-- `feed` for one piece after the other. -/
def TokenGuard.feedAll (g : TokenGuard) : List Text → Text × TokenGuard
  | [] => ([], g)
  | piece :: pieces =>
    let now := g.feed piece
    let later := now.2.feedAll pieces
    (now.1 ++ later.1, later.2)

/-- All that a new guard returns, up to its `flush`. -/
def guardedText (whitespaceLimit : Nat) (pieces : List Text) : Text :=
  let fed := ({ whitespaceLimit := whitespaceLimit } : TokenGuard).feedAll pieces
  fed.1 ++ fed.2.flush.1

/-- `n` characters from place `i` on are whitespace. -/
def SpacesAt (n : Nat) (text : Text) (i : Nat) : Prop := ∀ k, k < n → ∃ c, text[i + k]? = some c ∧ isPySpace c = true

def FirstSpacesAt (n : Nat) (text : Text) (i : Nat) : Prop := SpacesAt n text i ∧ ∀ j, j < i → ¬ SpacesAt n text j

def currentLine (text : Text) : Text := text.rtakeWhile fun c => c ≠ '\n'

/-- The guard holds the line if it is a table row, from its bar on, and nothing else. -/
def HoldsRow (pending line : Text) : Prop :=
  (pending ≠ [] ↔ startsTableRow line = true) ∧ (pending ≠ [] → pending = line.dropWhile isPySpace)

section

variable {limit : Nat} {spaces text front : Text} {ch : Char}

theorem TokenGuard.feedAll_eq (g : TokenGuard) (pieces : List Text) : g.feedAll pieces = g.feed pieces.flatten := by
  induction pieces generalizing g with
  | nil => rfl
  | cons piece pieces ih => rw [List.flatten_cons, TokenGuard.feed_append, TokenGuard.feedAll, ih]

theorem spacesAt_behind (hch : isPySpace ch = false) (hlen : spaces.length < limit) (i : Nat) :
    SpacesAt limit (spaces ++ ch :: text) i ↔ ∃ k, i = spaces.length + 1 + k ∧ SpacesAt limit text k := by
  have hplace : ∀ k, (spaces ++ ch :: text)[spaces.length + 1 + k]? = text[k]? := by
    intro k
    rw [List.getElem?_append_right (by omega)]
    have hk : spaces.length + 1 + k - spaces.length = k + 1 := by omega
    rw [hk, List.getElem?_cons_succ]
  constructor
  · intro h
    have hi : spaces.length + 1 ≤ i := by
      by_contra hi
      obtain ⟨c, hc, hspace⟩ := h (spaces.length - i) (by omega)
      have hplace : i + (spaces.length - i) = spaces.length := by omega
      rw [hplace] at hc
      simp only [List.getElem?_append_right (Nat.le_refl _), Nat.sub_self, List.getElem?_cons_zero, Option.some.injEq] at hc
      rw [← hc, hch] at hspace
      cases hspace
    apply Exists.intro (i - (spaces.length + 1))
    constructor
    · omega
    · intro j hj
      obtain ⟨c, hc, hspace⟩ := h j hj
      have hsplit : i + j = spaces.length + 1 + (i - (spaces.length + 1) + j) := by omega
      rw [hsplit, hplace] at hc
      exact ⟨c, hc, hspace⟩
  · rintro ⟨k, rfl, h⟩ j hj
    rw [Nat.add_assoc, hplace]
    exact h j hj

theorem spacesAt_front (hspaces : ∀ c ∈ spaces, isPySpace c = true) (hlen : limit ≤ spaces.length) :
    SpacesAt limit (spaces ++ text) 0 := by
  intro k hk
  have hkn : k < spaces.length := by omega
  apply Exists.intro spaces[k]
  constructor
  · rw [Nat.zero_add, List.getElem?_append_left hkn, List.getElem?_eq_getElem hkn]
  · exact hspaces _ (List.getElem_mem hkn)

theorem runAfter_space (hch : isPySpace ch = true) (n : Nat) : runAfter n ch = n + 1 := by simp [runAfter, hch]

theorem runAfter_other (hch : isPySpace ch = false) (n : Nat) : runAfter n ch = 0 := by simp [runAfter, hch]

theorem all_space_append (hspaces : ∀ c ∈ spaces, isPySpace c = true) (hch : isPySpace ch = true) :
    ∀ c ∈ spaces ++ [ch], isPySpace c = true := by
  intro c hc
  rcases List.mem_append.mp hc with hmem | hlast
  · exact hspaces c hmem
  · rw [List.mem_singleton.mp hlast]
    exact hch

/-- A runaway ends with the last of the first `limit` spaces in a row; `spaces` are those before the text. -/
theorem runaway_some (hspaces : ∀ c ∈ spaces, isPySpace c = true) (hlen : spaces.length < limit)
    (h : runaway limit spaces.length text = some front) :
    ∃ i, FirstSpacesAt limit (spaces ++ text) i ∧ spaces ++ front = (spaces ++ text).take (i + limit) := by
  induction text generalizing spaces front with
  | nil => cases h
  | cons ch text ih =>
    have hassoc : spaces ++ ch :: text = spaces ++ [ch] ++ text := by simp
    unfold runaway at h
    cases hch : isPySpace ch with
    | true =>
      rw [runAfter_space hch] at h
      split at h
      · obtain rfl := Option.some.inj h
        have hsize : (spaces ++ [ch]).length = 0 + limit := by simp; omega
        refine ⟨0, ⟨?_, fun j hj => absurd hj (Nat.not_lt_zero j)⟩, ?_⟩
        · rw [hassoc]
          exact spacesAt_front (all_space_append hspaces hch) (by omega)
        · rw [hassoc, ← hsize, List.take_left]
      · rename_i hlimit
        obtain ⟨later, hlater, rfl⟩ := Option.map_eq_some_iff.mp h
        have hsize : (spaces ++ [ch]).length = spaces.length + 1 := by simp
        obtain ⟨i, hfirst, htake⟩ := ih (all_space_append hspaces hch) (by omega) (hsize ▸ hlater)
        refine ⟨i, ?_, ?_⟩
        · rw [hassoc]
          exact hfirst
        · rw [hassoc, ← htake]
          simp
    | false =>
      rw [runAfter_other hch, if_neg (by omega)] at h
      obtain ⟨later, hlater, rfl⟩ := Option.map_eq_some_iff.mp h
      obtain ⟨i, ⟨hat, hnone⟩, htake⟩ := ih (fun c hc => absurd hc List.not_mem_nil) (by simp; omega) hlater
      simp only [List.nil_append] at hat htake hnone
      refine ⟨spaces.length + 1 + i, ⟨(spacesAt_behind hch hlen _).mpr ⟨i, rfl, hat⟩, ?_⟩, ?_⟩
      · intro j hj hbefore
        obtain ⟨k, rfl, hk⟩ := (spacesAt_behind hch hlen j).mp hbefore
        exact hnone k (by omega) hk
      · have hplace : spaces.length + 1 + i + limit = (spaces ++ [ch]).length + (i + limit) := by simp; omega
        rw [hplace, hassoc, List.take_length_add_append, ← htake]
        simp

theorem runaway_none (hspaces : ∀ c ∈ spaces, isPySpace c = true) (hlen : spaces.length < limit)
    (h : runaway limit spaces.length text = none) (i : Nat) : ¬ SpacesAt limit (spaces ++ text) i := by
  induction text generalizing spaces i with
  | nil =>
    intro hat
    obtain ⟨c, hc, _⟩ := hat (limit - 1) (by omega)
    have hplace : (spaces ++ [])[i + (limit - 1)]? = none := List.getElem?_eq_none (by simp; omega)
    rw [hplace] at hc
    cases hc
  | cons ch text ih =>
    unfold runaway at h
    split at h
    · cases h
    · rename_i hlimit
      rw [Option.map_eq_none_iff] at h
      cases hch : isPySpace ch with
      | true =>
        rw [runAfter_space hch] at h hlimit
        have hassoc : spaces ++ ch :: text = spaces ++ [ch] ++ text := by simp
        have hsize : (spaces ++ [ch]).length = spaces.length + 1 := by simp
        rw [hassoc]
        exact ih (all_space_append hspaces hch) (by omega) (hsize ▸ h) i
      | false =>
        rw [runAfter_other hch] at h
        intro hat
        obtain ⟨k, _, hk⟩ := (spacesAt_behind hch hlen i).mp hat
        exact ih (fun c hc => absurd hc List.not_mem_nil) (by simp; omega) h k hk

theorem guardedText_eq (limit : Nat) (pieces : List Text) : guardedText limit pieces =
    (({ whitespaceLimit := limit } : TokenGuard).feed pieces.flatten).1 ++
      (({ whitespaceLimit := limit } : TokenGuard).feed pieces.flatten).2.pending := by
  simp only [guardedText, TokenGuard.feedAll_eq, TokenGuard.flush]

/-- The text comes out whole, or up to its first run of whitespace that is too long, with the notice. -/
theorem guardedText_of_text (limit : Nat) (hlimit : 1 ≤ limit) (pieces : List Text) :
    ((∀ i, ¬ SpacesAt limit pieces.flatten i) → guardedText limit pieces = pieces.flatten) ∧
    (∀ i, FirstSpacesAt limit pieces.flatten i →
      guardedText limit pieces = pieces.flatten.take (i + limit) ++ truncationNotice) ∧
    ∀ cut : List Text, cut.flatten = pieces.flatten → guardedText limit cut = guardedText limit pieces := by
  have hnone : ∀ c ∈ ([] : Text), isPySpace c = true := fun c hc => absurd hc List.not_mem_nil
  rw [guardedText_eq]
  refine ⟨?_, ?_, ?_⟩
  · intro hfree
    cases hrun : runaway limit 0 pieces.flatten with
    | none => exact TokenGuard.feed_conserves _ _ (TokenGuard.feed_open rfl hrun)
    | some front =>
      obtain ⟨i, hat, _⟩ := runaway_some hnone hlimit hrun
      exact absurd hat.1 (hfree i)
  · intro i hfirst
    cases hrun : runaway limit 0 pieces.flatten with
    | none => exact absurd hfirst.1 (runaway_none hnone hlimit hrun i)
    | some front =>
      obtain ⟨j, hat, htake⟩ := runaway_some hnone hlimit hrun
      have hij : i = j := by
        rcases Nat.lt_trichotomy i j with hlt | heq | hgt
        · exact absurd hfirst.1 (hat.2 i hlt)
        · exact heq
        · exact absurd hat.1 (hfirst.2 j hgt)
      obtain ⟨hsent, hpending, _⟩ := @TokenGuard.feed_runaway { whitespaceLimit := limit } pieces.flatten rfl front hrun
      rw [hsent, hpending, hij, ← List.nil_append pieces.flatten, ← htake]
      simp
  · intro cut hcut
    rw [guardedText_eq, hcut]

theorem guardedText_of_text_two : (guardedText 2 ["a ".toList, " b".toList] = "a  ".toList ++ truncationNotice) ∧
    guardedText 2 ["a".toList, " b".toList] = "a b".toList := by
  have hfirst : FirstSpacesAt 2 ["a ".toList, " b".toList].flatten 1 := by
    constructor
    · intro k hk
      rcases (by omega : k = 0 ∨ k = 1) with rfl | rfl
      · exact ⟨' ', by decide, by decide⟩
      · exact ⟨' ', by decide, by decide⟩
    · intro j hj hat
      obtain ⟨c, hc, hspace⟩ := hat 0 (by omega)
      obtain rfl : j = 0 := by omega
      obtain rfl : 'a' = c := Option.some.inj hc
      cases hspace
  have hfree : ∀ i, ¬ SpacesAt 2 ["a".toList, " b".toList].flatten i := by
    intro i hat
    obtain ⟨c, hc, hspace⟩ := hat 0 (by omega)
    obtain ⟨d, hd, hnext⟩ := hat 1 (by omega)
    rcases i with _ | _ | i
    · obtain rfl : 'a' = c := Option.some.inj hc
      cases hspace
    · obtain rfl : 'b' = d := Option.some.inj hd
      cases hnext
    · cases hd
  exact ⟨(guardedText_of_text 2 (by decide) ["a ".toList, " b".toList]).2.1 1 hfirst,
    (guardedText_of_text 2 (by decide) ["a".toList, " b".toList]).1 hfree⟩

/-! ## What is held -/

theorem currentLine_append (text : Text) (ch : Char) :
    currentLine (text ++ [ch]) = if ch = '\n' then [] else currentLine text ++ [ch] := by
  unfold currentLine
  rw [List.rtakeWhile_concat]
  by_cases hch : ch = '\n'
  · simp [hch]
  · simp [hch]

/-- The open row starts at the first bar of the line, wherever that stands. -/
theorem openRow_eq (text : Text) : openRow text = (currentLine text).dropWhile fun c => c ≠ '|' := by
  induction text using List.reverseRecOn with
  | nil => rfl
  | append_singleton text ch ih =>
    rw [openRow_append, currentLine_append, rowAfter, ih]
    by_cases hch : ch = '\n'
    · simp [hch]
    · rw [if_neg hch, List.dropWhile_append]
      cases hrow : (currentLine text).dropWhile fun c => decide (c ≠ '|') with
      | nil =>
        by_cases hbar : ch = '|'
        · simp [hbar]
        · simp [hbar]
      | cons c row => simp [hch]

theorem startsTableRow_cons_space {line : Text} (hch : isPySpace ch = true) : startsTableRow (ch :: line) = startsTableRow line := by
  simp [startsTableRow, hch]

theorem startsTableRow_cons_other {line : Text} (hch : isPySpace ch = false) :
    startsTableRow (ch :: line) = true ↔ ch = '|' := by
  simp [startsTableRow, hch]

theorem not_bar_of_space (hch : isPySpace ch = true) : ch ≠ '|' := by
  rintro rfl
  have hbar : isPySpace '|' = false := by decide
  rw [hbar] at hch
  cases hch

theorem dropWhile_row {line : Text} (h : startsTableRow line = true) :
    (line.dropWhile fun c => c ≠ '|') = line.dropWhile isPySpace := by
  induction line with
  | nil => cases h
  | cons ch line ih =>
    cases hch : isPySpace ch with
    | true =>
      rw [startsTableRow_cons_space hch] at h
      have hbar := not_bar_of_space hch
      simp only [ne_eq, hbar, not_false_eq_true, decide_true, List.dropWhile_cons_of_pos, hch]
      exact ih h
    | false =>
      obtain rfl := (startsTableRow_cons_other hch).mp h
      simp [hch]

theorem bar_of_row {line : Text} (h : startsTableRow line = true) : '|' ∈ line := by
  have hhead : (line.dropWhile isPySpace).head? = some '|' := by simpa [startsTableRow] using h
  exact (List.dropWhile_suffix isPySpace).subset (List.mem_of_head? hhead)

theorem dropWhile_bar_nil (line : Text) : (line.dropWhile fun c => c ≠ '|') = [] ↔ '|' ∉ line := by
  rw [List.dropWhile_eq_nil_iff]
  constructor
  · intro h hmem
    simpa using h '|' hmem
  · intro h c hc
    have hne : c ≠ '|' := by
      rintro rfl
      exact h hc
    simp [hne]

theorem holdsRow_iff (line : Text) :
    HoldsRow (line.dropWhile fun c => c ≠ '|') line ↔ startsTableRow line = true ∨ '|' ∉ line := by
  constructor
  · intro h
    by_cases hbar : '|' ∈ line
    · left
      apply h.1.mp
      intro hnil
      exact (dropWhile_bar_nil line).mp hnil hbar
    · exact Or.inr hbar
  · intro h
    rcases h with hrow | hbar
    · rw [dropWhile_row hrow]
      refine ⟨⟨fun _ => hrow, fun _ hnil => ?_⟩, fun _ => rfl⟩
      rw [← dropWhile_row hrow] at hnil
      exact (dropWhile_bar_nil line).mp hnil (bar_of_row hrow)
    · rw [(dropWhile_bar_nil line).mpr hbar]
      refine ⟨⟨fun h => absurd rfl h, fun hrow => absurd (bar_of_row hrow) hbar⟩, fun h => absurd rfl h⟩

/-- The guard holds a table row and nothing else just where the first bar of the line stands in front of it. -/
theorem feedAll_holds_row_iff (limit : Nat) (pieces : List Text)
    (hopen : (({ whitespaceLimit := limit } : TokenGuard).feedAll pieces).2.done = false) :
    HoldsRow (({ whitespaceLimit := limit } : TokenGuard).feedAll pieces).2.pending (currentLine pieces.flatten) ↔
      startsTableRow (currentLine pieces.flatten) = true ∨ '|' ∉ currentLine pieces.flatten := by
  rw [TokenGuard.feedAll_eq] at hopen ⊢
  rw [feed_row pieces.flatten hopen, openRow_eq]
  exact holdsRow_iff (currentLine pieces.flatten)

theorem feedAll_holds_row_iff_row : HoldsRow (({} : TokenGuard).feedAll [" |".toList, "a".toList]).2.pending " |a".toList :=
  (feedAll_holds_row_iff whitespaceRunawayLimit [" |".toList, "a".toList] rfl).mpr (Or.inl (by decide))

/-- `a | b` is held from its bar on. -/
theorem feedAll_holds_prose : (({} : TokenGuard).feedAll ["a | b".toList]).2.done = false ∧
    ¬ HoldsRow (({} : TokenGuard).feedAll ["a | b".toList]).2.pending (currentLine ["a | b".toList].flatten) := by
  refine ⟨by decide, fun h => ?_⟩
  have hrow := h.1.mp (by decide)
  have hprose : startsTableRow (currentLine ["a | b".toList].flatten) = false := by decide
  rw [hprose] at hrow
  cases hrow

end

end ProRag
