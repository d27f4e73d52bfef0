import ProRag.Chat.Stream

/-!
# What the guard holds back

`TokenGuard` sends what it is fed, in order: what has gone out and what is held make up the text.
-/

namespace ProRag

/-- The whitespace at the end of a text, with a character more. -/
def runAfter (wsRun : Nat) (ch : Char) : Nat := if isPySpace ch then wsRun + 1 else 0

/-- The text up to the end of its first run of whitespace that reaches the limit, behind `wsRun` of it. -/
def runaway (whitespaceLimit : Nat) : Nat → Text → Option Text
  | _, [] => none
  | wsRun, ch :: text =>
    if whitespaceLimit ≤ runAfter wsRun ch then some [ch]
    else (runaway whitespaceLimit (runAfter wsRun ch) text).map fun front => ch :: front

def untilRunaway (text : Text) : Text := (runaway whitespaceRunawayLimit 0 text).getD text

section

variable {limit wsRun : Nat} {text front : Text}

theorem runaway_prefix (h : runaway limit wsRun text = some front) : front <+: text := by
  induction text generalizing wsRun front with
  | nil => cases h
  | cons ch text ih =>
    unfold runaway at h
    split at h
    · obtain rfl := Option.some.inj h
      exact ⟨text, rfl⟩
    · obtain ⟨later, hlater, rfl⟩ := Option.map_eq_some_iff.mp h
      exact List.cons_prefix_cons.mpr ⟨rfl, ih hlater⟩

theorem runaway_append (h : runaway limit wsRun text = some front) (more : Text) :
    runaway limit wsRun (front ++ more) = some front := by
  induction text generalizing wsRun front with
  | nil => cases h
  | cons ch text ih =>
    unfold runaway at h
    split at h
    · rename_i hlimit
      obtain rfl := Option.some.inj h
      simp [runaway, hlimit]
    · rename_i hlimit
      obtain ⟨later, hlater, rfl⟩ := Option.map_eq_some_iff.mp h
      simp [runaway, hlimit, ih hlater]

theorem runaway_none_front {more : Text} (h : runaway limit wsRun (text ++ more) = none) : runaway limit wsRun text = none := by
  induction text generalizing wsRun with
  | nil => rfl
  | cons ch text ih =>
    rw [List.cons_append] at h
    unfold runaway at h ⊢
    split at h
    · cases h
    · rename_i hlimit
      rw [Option.map_eq_none_iff] at h
      simp [hlimit, ih h]

end

namespace TokenGuard

variable {g : TokenGuard} {text more : Text} {ch : Char}

@[simp] theorem feed_nil (g : TokenGuard) : g.feed [] = ([], g) := rfl

theorem feed_done (hdone : g.done = true) (text : Text) : g.feed text = ([], g) := by
  cases text with
  | nil => rfl
  | cons ch text => simp only [feed, hdone, ↓reduceIte]

theorem feed_cons (hdone : g.done = false) (ch : Char) (text : Text) :
    g.feed (ch :: text) = ((g.feedChar ch).1 ++ ((g.feedChar ch).2.feed text).1, ((g.feedChar ch).2.feed text).2) := by
  simp [feed, hdone]

theorem feedChar_cases (g : TokenGuard) (ch : Char) :
    (∃ wsRun, g.feedChar ch = (g.pending ++ [ch] ++ truncationNotice, { g with pending := [], wsRun := wsRun, done := true })) ∨
    (∃ wsRun, g.feedChar ch = (g.pending ++ [ch], { g with pending := [], wsRun := wsRun })) ∨
    (∃ wsRun, g.feedChar ch = ([], { g with pending := g.pending ++ [ch], wsRun := wsRun })) := by
  let wsRun := if isPySpace ch then g.wsRun + 1 else 0
  by_cases htrip : g.whitespaceLimit ≤ wsRun
  · left
    exact ⟨wsRun, if_pos htrip⟩
  · right
    by_cases hline : ch = '\n' ∨ startsTableRow (g.pending ++ [ch]) = false
    · left
      exact ⟨wsRun, (if_neg htrip).trans (if_pos hline)⟩
    · right
      exact ⟨wsRun, (if_neg htrip).trans (if_neg hline)⟩

/-- The guard does not see where the text was cut. -/
theorem feed_append (g : TokenGuard) (text more : Text) :
    g.feed (text ++ more) = ((g.feed text).1 ++ ((g.feed text).2.feed more).1, ((g.feed text).2.feed more).2) := by
  induction text generalizing g with
  | nil => simp
  | cons ch text ih =>
    cases hdone : g.done with
    | true => rw [feed_done hdone, feed_done hdone, feed_done hdone, List.append_nil]
    | false =>
      rw [List.cons_append, feed_cons hdone, feed_cons hdone, ih]
      simp only [List.append_assoc]

theorem feed_keeps_done (hdone : g.done = true) (text : Text) : (g.feed text).2.done = true := by
  rw [feed_done hdone]
  exact hdone

/-- What has been sent and what is held are what was held and what came. -/
theorem feed_conserves (g : TokenGuard) (text : Text) (hopen : (g.feed text).2.done = false) :
    (g.feed text).1 ++ (g.feed text).2.pending = g.pending ++ text := by
  induction text generalizing g with
  | nil => simp
  | cons ch text ih =>
    cases hdone : g.done with
    | true =>
      rw [feed_keeps_done hdone] at hopen
      cases hopen
    | false =>
      rw [feed_cons hdone] at hopen ⊢
      have hrest := ih _ hopen
      rcases feedChar_cases g ch with ⟨wsRun, hch⟩ | ⟨wsRun, hch⟩ | ⟨wsRun, hch⟩
      · rw [hch] at hopen
        rw [feed_keeps_done rfl] at hopen
        cases hopen
      · rw [hch] at hrest ⊢
        rw [List.append_assoc, hrest]
        simp
      · rw [hch] at hrest ⊢
        rw [List.append_assoc, hrest]
        simp

theorem feedChar_trips (h : g.whitespaceLimit ≤ runAfter g.wsRun ch) : g.feedChar ch =
    (g.pending ++ [ch] ++ truncationNotice, { g with pending := [], wsRun := runAfter g.wsRun ch, done := true }) := if_pos h

theorem feedChar_open (h : ¬ g.whitespaceLimit ≤ runAfter g.wsRun ch) : ∃ sent pending,
    g.feedChar ch = (sent, { g with pending := pending, wsRun := runAfter g.wsRun ch }) ∧ sent ++ pending = g.pending ++ [ch] := by
  by_cases hline : ch = '\n' ∨ startsTableRow (g.pending ++ [ch]) = false
  · exact ⟨g.pending ++ [ch], [], (if_neg h).trans (if_pos hline), List.append_nil _⟩
  · exact ⟨[], g.pending ++ [ch], (if_neg h).trans (if_neg hline), rfl⟩

theorem feedChar_holds (hopen : (g.feedChar ch).2.done = false) : (g.feedChar ch).2.pending =
    if ch = '\n' ∨ startsTableRow (g.pending ++ [ch]) = false then [] else g.pending ++ [ch] := by
  by_cases hlimit : g.whitespaceLimit ≤ runAfter g.wsRun ch
  · rw [feedChar_trips hlimit] at hopen
    cases hopen
  · have hch : g.feedChar ch = if ch = '\n' ∨ startsTableRow (g.pending ++ [ch]) = false then _ else _ := if_neg hlimit
    rw [hch]
    split
    · rfl
    · rfl

theorem feed_runaway (hdone : g.done = false) {front : Text} (h : runaway g.whitespaceLimit g.wsRun text = some front) :
    (g.feed text).1 = g.pending ++ front ++ truncationNotice ∧ (g.feed text).2.pending = [] ∧ (g.feed text).2.done = true := by
  induction text generalizing g front with
  | nil => cases h
  | cons ch text ih =>
    rw [feed_cons hdone]
    unfold runaway at h
    split at h
    · rename_i hlimit
      obtain rfl := Option.some.inj h
      rw [feedChar_trips hlimit, feed_done rfl]
      simp
    · rename_i hlimit
      obtain ⟨later, hlater, rfl⟩ := Option.map_eq_some_iff.mp h
      obtain ⟨sent, pending, hch, hkept⟩ := feedChar_open hlimit
      have hrest := @ih { g with pending := pending, wsRun := runAfter g.wsRun ch } hdone _ hlater
      rw [hch]
      simp only [hrest, and_self, and_true]
      rw [← List.append_assoc, ← List.append_assoc, hkept]
      simp

theorem feed_open (hdone : g.done = false) (h : runaway g.whitespaceLimit g.wsRun text = none) : (g.feed text).2.done = false := by
  induction text generalizing g with
  | nil => exact hdone
  | cons ch text ih =>
    rw [feed_cons hdone]
    unfold runaway at h
    split at h
    · cases h
    · rename_i hlimit
      rw [Option.map_eq_none_iff] at h
      obtain ⟨sent, pending, hch, _⟩ := feedChar_open hlimit
      rw [hch]
      exact @ih { g with pending := pending, wsRun := runAfter g.wsRun ch } hdone h

theorem feed_sends (g : TokenGuard) (text : Text) : (g.feed text).1 = [] ∨ g.pending.length < (g.feed text).1.length := by
  induction text generalizing g with
  | nil => exact Or.inl rfl
  | cons ch text ih =>
    cases hdone : g.done with
    | true => exact Or.inl (by rw [feed_done hdone])
    | false =>
      rw [feed_cons hdone]
      rcases feedChar_cases g ch with ⟨wsRun, hch⟩ | ⟨wsRun, hch⟩ | ⟨wsRun, hch⟩
      · right
        rw [hch]
        simp only [List.length_append, List.length_singleton]
        omega
      · right
        rw [hch]
        simp only [List.length_append, List.length_singleton]
        omega
      · rcases ih (g.feedChar ch).2 with hnone | hsome
        · left
          rw [hnone, hch]
          rfl
        · right
          rw [hch] at hsome ⊢
          simp only [List.length_append, List.length_singleton, List.length_nil] at hsome ⊢
          omega

theorem feed_holds (hdone : g.done = false) (text : Text) (hsent : (g.feed text).1 = []) :
    (g.feed text).2.pending = g.pending ++ text ∧ (g.feed text).2.done = false := by
  have hopen : (g.feed text).2.done = false := by
    induction text generalizing g with
    | nil => exact hdone
    | cons ch text ih =>
      rw [feed_cons hdone] at hsent ⊢
      obtain ⟨hch, hrest⟩ := List.append_eq_nil_iff.mp hsent
      rcases feedChar_cases g ch with ⟨wsRun, h⟩ | ⟨wsRun, h⟩ | ⟨wsRun, h⟩
      · rw [h] at hch
        simp at hch
      · rw [h] at hrest ⊢
        exact ih hdone hrest
      · rw [h] at hrest ⊢
        exact ih hdone hrest
  have htext := feed_conserves g text hopen
  rw [hsent, List.nil_append] at htext
  exact ⟨htext, hopen⟩

theorem feed_grows (hdone : g.done = false) (hne : text ≠ []) :
    g.pending.length < ((g.feed text).1 ++ (g.feed text).2.pending).length := by
  cases hopen : (g.feed text).2.done with
  | false =>
    rw [feed_conserves g text hopen, List.length_append]
    have hpos : 0 < text.length := List.length_pos_of_ne_nil hne
    omega
  | true =>
    rcases feed_sends g text with hnone | hsome
    · have hheld := (feed_holds hdone text hnone).2
      rw [hopen] at hheld
      cases hheld
    · rw [List.length_append]
      omega

end TokenGuard

end ProRag
