import ProRag.Chat.Citations
import ProRag.Framework.Regex
import ProRag.Retrieve.Crop

/-!
# The normal form of a title
-/

namespace ProRag

open Framework Regex

/-- A letter under `re.IGNORECASE`, as the lowercase letter of a pattern that it matches. -/
def ignoreCase (c : Char) : Char :=
  if c.toNat = 0x130 ∨ c.toNat = 0x131 then 'i'
  else if c.toNat = 0x17f then 's'
  else if c.toNat = 0x212a then 'k'
  else c.toLower

/-- `[a-z]` under `re.IGNORECASE`. -/
def isLatin (c : Char) : Bool :=
  'a' ≤ ignoreCase c && ignoreCase c ≤ 'z'

/-- The tables of the interpreter's string type that are used here. -/
structure CharTables where
  isAlpha : Char → Bool
  isWord : Char → Bool
  toLower : Char → List Char
  isCased : Char → Bool
  isCaseIgnorable : Char → Bool
  latin_alpha : ∀ c, isLatin c → isAlpha c
  alpha_word : ∀ c, isAlpha c → isWord c
  digit_word : ∀ c, isPyDigit c → isWord c
  digit_not_alpha : ∀ c, isPyDigit c → isAlpha c = false
  space_not_word : ∀ c, isPySpace c → isWord c = false
  mark_not_word : ∀ c ∈ "-.()[]/".toList, isWord c = false
  lower_ne_nil : ∀ c, toLower c ≠ []
  lower_not_space : ∀ c, isAlpha c → ' ' ∉ toLower c
  lower_digit : ∀ c, isPyDigit c → c ≠ 'Σ' ∧ toLower c = [c]
  lower_sep : ∀ c ∈ " -".toList, toLower c = [c] ∧ isCased c = false ∧ isCaseIgnorable c = false

variable (tables : CharTables)

/-- A literal part of a pattern. -/
def lit (word : String) : Regex Char := concat (word.toList.map fun l => char fun c => ignoreCase c = l)

def oneChar (l : Char) : Regex Char := char fun c => c = l

def digits (lo : Nat) (hi : Option Nat) : Regex Char := maxRepeat lo hi (char isPyDigit)

def months : List String := ["jan", "feb", "mar", "apr", "may", "jun", "jul", "aug", "sep", "oct", "nov", "dec"]

def revisionBranch : Regex Char :=
  concat [opt (oneChar '('), boundary tables.isWord, lit "rev", opt (lit "ision"), opt (oneChar '.'), star (char isPySpace),
    digits 1 none, opt (char isLatin), opt (oneChar ')')]

def versionBranch : Regex Char :=
  concat [opt (oneChar '('), boundary tables.isWord, lit "v", opt (oneChar '.'), star (char isPySpace), digits 1 none,
    star (concat [oneChar '.', digits 1 none]), opt (oneChar ')')]

def isoDateBranch : Regex Char :=
  concat [opt (oneChar '('), digits 4 (some 4), oneChar '-', digits 2 (some 2), oneChar '-', digits 2 (some 2), opt (oneChar ')')]

def slashDateBranch : Regex Char :=
  concat [opt (oneChar '('), digits 1 (some 2), oneChar '/', digits 1 (some 2), oneChar '/', digits 2 (some 4), opt (oneChar ')')]

def monthBranch : Regex Char :=
  concat [opt (oneChar '('), oneOf (months.map lit), star (char isLatin), opt (char fun c => c = '-' || isPySpace c),
    digits 2 (some 4), opt (oneChar ')')]

/-- `_REV_NOISE` -/
def revNoise : Regex Char :=
  alt (revisionBranch tables) (alt (versionBranch tables) (alt isoDateBranch (alt slashDateBranch monthBranch)))

/-- `re.sub(r"[()\[\]]", " ", t)`. -/
def dropBrackets (t : List Char) : List Char :=
  t.map fun c => if c ∈ ['(', ')', '[', ']'] then ' ' else c

/-- `re.sub(r"\s+", " ", t)`; `inSpace` says whether the last character was a space. -/
def joinSpaces : Bool → List Char → List Char
  | _, [] => []
  | inSpace, c :: cs =>
    if isPySpace c then if inSpace then joinSpaces true cs else ' ' :: joinSpaces true cs
    else c :: joinSpaces false cs

/-- `t.strip()`. -/
def stripSpaces (t : List Char) : List Char :=
  ((t.dropWhile isPySpace).reverse.dropWhile isPySpace).reverse

/-- The capital sigma at the end of a word has a form of its own; `before` is read backwards. -/
def isFinalSigma (before after : List Char) : Bool :=
  (before.dropWhile tables.isCaseIgnorable).head?.any tables.isCased &&
    !(after.dropWhile tables.isCaseIgnorable).head?.any tables.isCased

def lowerChar (before : List Char) (c : Char) (after : List Char) : List Char :=
  if c = 'Σ' then [if isFinalSigma tables before after then 'ς' else 'σ'] else tables.toLower c

def lowerFrom : List Char → List Char → List Char
  | _, [] => []
  | before, c :: cs => lowerChar tables before c cs ++ lowerFrom (c :: before) cs

/-- `t.lower()`. -/
def lower (t : List Char) : List Char := lowerFrom tables [] t

/-- `normalize_title(title)`. -/
def normalizeTitle (title : String) : String :=
  if title = "" then ""
  else
    let t := (revNoise tables).erase title.toList
    let t := dropBrackets t
    String.ofList (lower tables (stripSpaces (joinSpaces false t)))

/-! ## Where noise can begin -/

def isRevisionWord (u : List Char) : Bool :=
  u.map ignoreCase = "rev".toList || u.map ignoreCase = "revision".toList

def isVersionWord (u : List Char) : Bool :=
  u.map ignoreCase = "v".toList

/-- An abbreviation of a month and any further Latin letters. -/
def isMonthWord (u : List Char) : Bool :=
  u.all isLatin && months.any fun month => (u.map ignoreCase).take 3 = month.toList

/-- What stands before the first month of a word. -/
def beforeMonth : List Char → List Char
  | [] => []
  | c :: cs => if isMonthWord (c :: cs) then [] else c :: beforeMonth cs

/-- What remains of a word that a number follows. -/
def wordStem (w : List Char) : List Char :=
  if isRevisionWord w || isVersionWord w then [] else beforeMonth w

/-- A word that is no revision word and of which no end is taken for a month. -/
def KeepsWord (w : List Char) : Prop :=
  isRevisionWord w = false ∧ isVersionWord w = false ∧ ∀ u, u <:+ w → isMonthWord u = false

/-- `w` stands in `t` between word boundaries. -/
def IsWholeWord (w t : List Char) : Prop :=
  ∃ a b, t = a ++ w ++ b ∧ a.getLast?.any tables.isWord = false ∧ b.head?.any tables.isWord = false

def Alphabetic (w : List Char) : Prop :=
  w ≠ [] ∧ ∀ c ∈ w, tables.isAlpha c

def Numeric (d : List Char) : Prop :=
  (2 ≤ d.length ∧ d.length ≤ 4) ∧ ∀ c ∈ d, isPyDigit c

variable {tables} {m t u v w d : List Char} {b : Option Char} {s : Char}

theorem CharTables.digit_not_space (tables : CharTables) {c : Char} (h : isPyDigit c) : isPySpace c = false := by
  by_contra hspace
  have hword := tables.digit_word c h
  rw [tables.space_not_word c (by simpa using hspace)] at hword
  cases hword

theorem CharTables.alpha_not_space (tables : CharTables) {c : Char} (h : tables.isAlpha c) : isPySpace c = false := by
  by_contra hspace
  have hword := tables.alpha_word c h
  rw [tables.space_not_word c (by simpa using hspace)] at hword
  cases hword

theorem CharTables.not_alpha (tables : CharTables) {c : Char} (h : tables.isWord c = false) : tables.isAlpha c = false := by
  by_contra halpha
  rw [tables.alpha_word c (by simpa using halpha)] at h
  cases h

theorem CharTables.not_digit (tables : CharTables) {c : Char} (h : tables.isWord c = false) : isPyDigit c = false := by
  by_contra hdigit
  rw [tables.digit_word c (by simpa using hdigit)] at h
  cases h

theorem CharTables.sep_not_word (tables : CharTables) (h : s ∈ " -".toList) : tables.isWord s = false := by
  have hs : s = ' ' ∨ s = '-' := by simpa using h
  rcases hs with rfl | rfl
  · exact tables.space_not_word ' ' (by decide)
  · exact tables.mark_not_word '-' (by decide)

theorem lit_language {word : String} (h : (lit word).Language m) : m.map ignoreCase = word.toList := by
  unfold lit at h
  generalize word.toList = letters at h ⊢
  induction letters generalizing m with
  | nil =>
    rw [(language_concat_nil m).mp h]
    rfl
  | cons l ls ih =>
    obtain ⟨_, rest, ⟨c, hc, rfl⟩, hrest, rfl⟩ := h
    simpa using ⟨by simpa using hc, ih hrest⟩

theorem First.lit {word : String} (h : m.map ignoreCase = word.toList) : First (lit word) b m t := by
  unfold ProRag.lit
  generalize word.toList = letters at h ⊢
  induction letters generalizing b m with
  | nil =>
    rw [List.map_eq_nil_iff.mp h]
    exact First.nil
  | cons l ls ih =>
    cases m with
    | nil => cases h
    | cons c m =>
      obtain ⟨hc, hm⟩ := List.cons.inj h
      exact First.cons (m := [c]) (First.char (by simpa using hc)) (ih hm)

theorem run_skip_open {rs : List (Regex Char)} (ht : t.head? ≠ some '(') :
    (concat (opt (oneChar '(') :: rs)).run ⟨b, t⟩ = (concat rs).run ⟨b, t⟩ := by
  have hopen : (opt (oneChar '(')).run ⟨b, t⟩ = [⟨b, t⟩] := by
    cases t with
    | nil => simp [opt, run_maxRepeat, times, greedy]
    | cons c t =>
      have hc : c ≠ '(' := by simpa using ht
      simp [opt, run_maxRepeat, times, greedy, oneChar, hc]
  rw [run_concat_cons, hopen]
  simp

/-- The words of the pattern are letters with `P` and then a character that is no letter. -/
def StartsWith (tables : CharTables) (P : List Char → Prop) (r : Regex Char) : Prop :=
  ∀ m, r.Language m → ∃ x c y, m = x ++ c :: y ∧ P x ∧ (∀ a ∈ x, isLatin a) ∧ tables.isAlpha c = false

theorem letters_unique (hu : ∀ c ∈ u, tables.isAlpha c) (hv : ∀ c ∈ v, tables.isAlpha c) {c c' : Char} {x y : List Char}
    (hc : tables.isAlpha c = false) (hc' : tables.isAlpha c' = false) (h : u ++ c :: x = v ++ c' :: y) : u = v := by
  have hletters := congrArg (List.takeWhile tables.isAlpha) h
  rw [List.takeWhile_append_of_pos hu, List.takeWhile_append_of_pos hv] at hletters
  simpa [hc, hc'] using hletters

theorem StartsWith.run_eq_nil {P : List Char → Prop} {r : Regex Char} (hr : StartsWith tables P r) (hu : ∀ c ∈ u, tables.isAlpha c)
    (hs : tables.isAlpha s = false) (hP : ¬P u) : r.run ⟨b, u ++ s :: d⟩ = [] := by
  apply Regex.run_eq_nil
  rintro m hm ⟨rest, hrest⟩
  obtain ⟨x, c, y, rfl, hx, hlatin, hc⟩ := hr m hm
  rw [List.append_assoc] at hrest
  have hux : x = u := letters_unique (fun a ha => tables.latin_alpha a (hlatin a ha)) hu hc hs hrest
  exact hP (hux ▸ hx)

theorem number_head (tables : CharTables) {rs : List (Regex Char)}
    (h : (concat (opt (oneChar '.') :: star (char isPySpace) :: digits 1 none :: rs)).Language m) :
    ∃ c y, m = c :: y ∧ tables.isAlpha c = false := by
  obtain ⟨dot, _, hdot, ⟨spaces, _, hspaces, ⟨number, rest, hnumber, _, rfl⟩, rfl⟩, rfl⟩ := h
  obtain ⟨hnumber, hlength⟩ := language_repeat_char hnumber
  rcases language_opt hdot with rfl | ⟨c, hc, rfl⟩
  · cases spaces with
    | cons c spaces =>
      have hc := (language_repeat_char hspaces).1 c List.mem_cons_self
      exact ⟨c, _, rfl, tables.not_alpha (tables.space_not_word c hc)⟩
    | nil =>
      cases number with
      | nil => simp at hlength
      | cons c number => exact ⟨c, _, rfl, tables.digit_not_alpha c (hnumber c List.mem_cons_self)⟩
  · have hdot : c = '.' := by simpa using hc
    subst hdot
    exact ⟨'.', _, rfl, tables.not_alpha (tables.mark_not_word '.' (by decide))⟩

theorem latin_of_map {word : String} (hword : word.toList.all fun l => 'a' ≤ l && l ≤ 'z') (h : m.map ignoreCase = word.toList) :
    ∀ a ∈ m, isLatin a := by
  intro a ha
  have hl : ignoreCase a ∈ word.toList := by
    rw [← h]
    exact List.mem_map_of_mem ha
  exact List.all_eq_true.mp hword _ hl

theorem revision_words (tables : CharTables) : StartsWith tables (fun x => isRevisionWord x)
    (concat [boundary tables.isWord, lit "rev", opt (lit "ision"), opt (oneChar '.'), star (char isPySpace), digits 1 none,
      opt (char isLatin), opt (oneChar ')')]) := by
  rintro m ⟨_, _, rfl, ⟨rev, _, hrev, ⟨ision, rest, hision, hrest, rfl⟩, rfl⟩, rfl⟩
  obtain ⟨c, y, rfl, hc⟩ := number_head tables hrest
  have hrev := lit_language hrev
  have hlatin := latin_of_map (by decide) hrev
  rcases language_opt hision with rfl | hision
  · exact ⟨rev, c, y, by simp, by simp [isRevisionWord, hrev], hlatin, hc⟩
  · have hision := lit_language hision
    refine ⟨rev ++ ision, c, y, by simp, by simp [isRevisionWord, hrev, hision], ?_, hc⟩
    intro a ha
    exact (List.mem_append.mp ha).elim (hlatin a) (latin_of_map (by decide) hision a)

theorem version_words (tables : CharTables) : StartsWith tables (fun x => isVersionWord x)
    (concat [boundary tables.isWord, lit "v", opt (oneChar '.'), star (char isPySpace), digits 1 none,
      star (concat [oneChar '.', digits 1 none]), opt (oneChar ')')]) := by
  rintro m ⟨_, _, rfl, ⟨v, rest, hv, hrest, rfl⟩, rfl⟩
  obtain ⟨c, y, rfl, hc⟩ := number_head tables hrest
  have hv := lit_language hv
  exact ⟨v, c, y, by simp, by simp [isVersionWord, hv], latin_of_map (by decide) hv, hc⟩

theorem digits_words (tables : CharTables) (lo : Nat) (hi : Option Nat) (rs : List (Regex Char)) :
    StartsWith tables (fun x => x = []) (concat (digits (lo + 1) hi :: rs)) := by
  rintro m ⟨number, rest, hnumber, _, rfl⟩
  obtain ⟨hnumber, hlength⟩ := language_repeat_char hnumber
  cases number with
  | nil => simp at hlength
  | cons c number => exact ⟨[], c, number ++ rest, rfl, rfl, by simp, tables.digit_not_alpha c (hnumber c List.mem_cons_self)⟩

theorem months_length : ∀ month ∈ months, month.toList.length = 3 := by
  decide

theorem months_latin : ∀ month ∈ months, month.toList.all fun l => 'a' ≤ l && l ≤ 'z' := by
  decide

theorem month_words (tables : CharTables) : StartsWith tables (fun x => isMonthWord x)
    (concat [oneOf (months.map lit), star (char isLatin), opt (char fun c => c = '-' || isPySpace c), digits 2 (some 4),
      opt (oneChar ')')]) := by
  rintro m ⟨month, _, hmonth, ⟨letters, _, hletters, ⟨sep, rest, hsep, hrest, rfl⟩, rfl⟩, rfl⟩
  obtain ⟨r, hr, hmonth⟩ := language_oneOf hmonth
  obtain ⟨word, hword, rfl⟩ := List.mem_map.mp hr
  have hmonth := lit_language hmonth
  have hletters := (language_repeat_char hletters).1
  have hlatin : ∀ a ∈ month ++ letters, isLatin a := by
    intro a ha
    exact (List.mem_append.mp ha).elim (latin_of_map (months_latin word hword) hmonth a) (hletters a)
  have hword : isMonthWord (month ++ letters) := by
    have htake : ((month ++ letters).map ignoreCase).take 3 = word.toList := by
      rw [List.map_append, hmonth, ← months_length word hword, List.take_left]
    simp only [isMonthWord, Bool.and_eq_true, List.all_eq_true, List.any_eq_true, decide_eq_true_eq]
    exact ⟨hlatin, word, hword, htake⟩
  obtain ⟨_, c, y, rfl, rfl, _, hc⟩ := digits_words tables 1 (some 4) [opt (oneChar ')')] rest hrest
  rcases language_opt hsep with rfl | ⟨a, ha, rfl⟩
  · exact ⟨month ++ letters, c, y, by simp, hword, hlatin, hc⟩
  · refine ⟨month ++ letters, a, c :: y, by simp, hword, hlatin, ?_⟩
    have ha : a = '-' ∨ isPySpace a := by simpa using ha
    rcases ha with rfl | ha
    · exact tables.not_alpha (tables.mark_not_word '-' (by decide))
    · exact tables.not_alpha (tables.space_not_word a ha)

theorem head_not_open (hu : ∀ c ∈ u, tables.isAlpha c) (hopen : s ≠ '(') :
    (u ++ s :: d).head? ≠ some '(' := by
  cases u with
  | nil => simpa using hopen
  | cons c u =>
    have hc := hu c List.mem_cons_self
    have hmark := tables.not_alpha (tables.mark_not_word '(' (by decide))
    intro h
    have hcopen : c = '(' := by simpa using h
    rw [hcopen, hmark] at hc
    cases hc

theorem sep_not_open (h : s ∈ " -".toList) : s ≠ '(' := by
  have hs : s = ' ' ∨ s = '-' := by simpa using h
  rcases hs with rfl | rfl <;> decide

section

variable (hu : ∀ c ∈ u, tables.isAlpha c) (hs : s ∈ " -".toList)

include hu hs

theorem revisionBranch_none (h : isRevisionWord u = false) : (revisionBranch tables).run ⟨b, u ++ s :: d⟩ = [] := by
  have hword := tables.sep_not_word hs
  rw [revisionBranch, run_skip_open (head_not_open hu (sep_not_open hs))]
  exact (revision_words tables).run_eq_nil hu (tables.not_alpha hword) (by simp [h])

theorem versionBranch_none (h : isVersionWord u = false) : (versionBranch tables).run ⟨b, u ++ s :: d⟩ = [] := by
  have hword := tables.sep_not_word hs
  rw [versionBranch, run_skip_open (head_not_open hu (sep_not_open hs))]
  exact (version_words tables).run_eq_nil hu (tables.not_alpha hword) (by simp [h])

theorem monthBranch_none (h : isMonthWord u = false) : monthBranch.run ⟨b, u ++ s :: d⟩ = [] := by
  have hword := tables.sep_not_word hs
  rw [monthBranch, run_skip_open (head_not_open hu (sep_not_open hs))]
  exact (month_words tables).run_eq_nil hu (tables.not_alpha hword) (by simp [h])

theorem dateBranches_none (hne : u ≠ []) :
    isoDateBranch.run ⟨b, u ++ s :: d⟩ = [] ∧ slashDateBranch.run ⟨b, u ++ s :: d⟩ = [] := by
  have hword := tables.sep_not_word hs
  rw [isoDateBranch, slashDateBranch, run_skip_open (head_not_open hu (sep_not_open hs)),
    run_skip_open (head_not_open hu (sep_not_open hs))]
  exact ⟨(digits_words tables 3 (some 4) _).run_eq_nil hu (tables.not_alpha hword) hne,
    (digits_words tables 0 (some 2) _).run_eq_nil hu (tables.not_alpha hword) hne⟩

omit hs in
theorem boundary_inside {a : Char} (ha : tables.isAlpha a) (hne : u ≠ []) (rs : List (Regex Char)) :
    (concat (boundary tables.isWord :: rs)).run ⟨some a, u ++ s :: d⟩ = [] := by
  cases u with
  | nil => exact absurd rfl hne
  | cons c u =>
    have hc := tables.alpha_word c (hu c List.mem_cons_self)
    simp [run, tables.alpha_word a ha, hc]

theorem revNoise_inside {a : Char} (ha : tables.isAlpha a) (hne : u ≠ []) (h : isMonthWord u = false) :
    (revNoise tables).run ⟨some a, u ++ s :: d⟩ = [] := by
  have hopen := head_not_open (d := d) hu (sep_not_open hs)
  have hrevision : (revisionBranch tables).run ⟨some a, u ++ s :: d⟩ = [] := by
    rw [revisionBranch, run_skip_open hopen, boundary_inside hu ha hne]
  have hversion : (versionBranch tables).run ⟨some a, u ++ s :: d⟩ = [] := by
    rw [versionBranch, run_skip_open hopen, boundary_inside hu ha hne]
  obtain ⟨hiso, hslash⟩ := dateBranches_none (b := some a) (d := d) hu hs hne
  simp [revNoise, hrevision, hversion, hiso, hslash, monthBranch_none hu hs h]

theorem revNoise_word (hne : u ≠ []) (hrevision : isRevisionWord u = false) (hversion : isVersionWord u = false)
    (hmonth : isMonthWord u = false) : (revNoise tables).run ⟨b, u ++ s :: d⟩ = [] := by
  obtain ⟨hiso, hslash⟩ := dateBranches_none (b := b) (d := d) hu hs hne
  simp [revNoise, revisionBranch_none hu hs hrevision, versionBranch_none hu hs hversion, hiso, hslash,
    monthBranch_none hu hs hmonth]

end

theorem StartsWith.head {P : List Char → Prop} {r : Regex Char} (hr : StartsWith tables P r) (hP : ¬P [])
    (ht : ∀ c ∈ t.head?, tables.isAlpha c = false) : r.run ⟨b, t⟩ = [] := by
  apply Regex.run_eq_nil
  rintro m hm ⟨rest, rfl⟩
  obtain ⟨x, c, y, rfl, hx, hlatin, -⟩ := hr m hm
  cases x with
  | nil => exact hP hx
  | cons a x =>
    have ha := ht a (by simp)
    rw [tables.latin_alpha a (hlatin a List.mem_cons_self)] at ha
    cases ha

theorem run_digits {r : Regex Char} (hr : ∀ m, r.Language m → ∃ c ∈ m, isPyDigit c = false) (hd : ∀ c ∈ d, isPyDigit c) :
    r.run ⟨b, d⟩ = [] := by
  apply Regex.run_eq_nil
  intro m hm hbegins
  obtain ⟨c, hc, hdigit⟩ := hr m hm
  rw [hd c (hbegins.subset hc)] at hdigit
  cases hdigit

theorem digits_then {lo : Nat} {hi : Option Nat} {l : Char} (rs : List (Regex Char)) (hl : isPyDigit l = false) :
    ∀ m, (concat (digits lo hi :: oneChar l :: rs)).Language m → ∃ c ∈ m, isPyDigit c = false := by
  rintro m ⟨number, _, _, ⟨_, rest, ⟨c, hc, rfl⟩, _, rfl⟩, rfl⟩
  have hcl : c = l := by simpa using hc
  exact ⟨c, by simp, hcl ▸ hl⟩

theorem revNoise_dates (hopen : t.head? ≠ some '(') (ht : ∀ c ∈ t.head?, tables.isAlpha c = false)
    (hiso : (concat [digits 4 (some 4), oneChar '-', digits 2 (some 2), oneChar '-', digits 2 (some 2),
      opt (oneChar ')')]).run ⟨b, t⟩ = [])
    (hslash : (concat [digits 1 (some 2), oneChar '/', digits 1 (some 2), oneChar '/', digits 2 (some 4),
      opt (oneChar ')')]).run ⟨b, t⟩ = []) : (revNoise tables).run ⟨b, t⟩ = [] := by
  have hrevision := (revision_words tables).head (b := b) (by decide) ht
  have hversion := (version_words tables).head (b := b) (by decide) ht
  have hmonth := (month_words tables).head (b := b) (by decide) ht
  rw [← run_skip_open hopen] at hrevision hversion hmonth hiso hslash
  simp [revNoise, revisionBranch, versionBranch, isoDateBranch, slashDateBranch, monthBranch, hrevision, hversion, hmonth, hiso,
    hslash]

theorem revNoise_digits (hd : ∀ c ∈ d, isPyDigit c) : (revNoise tables).run ⟨b, d⟩ = [] := by
  have hhead : ∀ c ∈ d.head?, tables.isAlpha c = false :=
    fun c hc => tables.digit_not_alpha c (hd c (List.mem_of_mem_head? hc))
  have hopen : d.head? ≠ some '(' := by
    intro h
    exact absurd (hd '(' (List.mem_of_mem_head? h)) (by decide)
  exact revNoise_dates hopen hhead (run_digits (digits_then _ (by decide)) hd) (run_digits (digits_then _ (by decide)) hd)

theorem revNoise_sep (hs : s ∈ " -".toList) : (revNoise tables).run ⟨b, s :: d⟩ = [] := by
  have hword := tables.sep_not_word hs
  have hdigit : ∀ (lo : Nat) (hi : Option Nat) (rs : List (Regex Char)),
      (concat (digits (lo + 1) hi :: rs)).run ⟨b, s :: d⟩ = [] := by
    intro lo hi rs
    apply Regex.run_eq_nil
    rintro m ⟨number, rest, hnumber, _, rfl⟩ ⟨tail, htail⟩
    obtain ⟨hnumber, hlength⟩ := language_repeat_char hnumber
    cases number with
    | nil => simp at hlength
    | cons c number =>
      have hc := hnumber c List.mem_cons_self
      rw [(List.cons.inj htail).1, tables.not_digit hword] at hc
      cases hc
  exact revNoise_dates (by simpa using sep_not_open hs) (by simpa using tables.not_alpha hword) (hdigit 3 _ _) (hdigit 0 _ _)

/-! ## What is kept of a word and a number -/

theorem lastOf_alpha {a : Char} (ha : tables.isAlpha a) (hu : ∀ c ∈ u, tables.isAlpha c) :
    ∃ c, lastOf (some a) u = some c ∧ tables.isAlpha c := by
  induction u generalizing a with
  | nil => exact ⟨a, rfl, ha⟩
  | cons c u ih => exact ih (hu c List.mem_cons_self) (fun x hx => hu x (List.mem_cons_of_mem _ hx))

/-- No match begins in letters that are no revision word and contain no month. -/
theorem revNoise_kept {a : List Char} (hw : ∀ c ∈ a ++ u, tables.isAlpha c) (hs : s ∈ " -".toList) (hne : u ≠ [])
    (hrevision : isRevisionWord (a ++ u) = false) (hversion : isVersionWord (a ++ u) = false)
    (hmonth : isMonthWord u = false) : (revNoise tables).run ⟨lastOf none a, u ++ s :: d⟩ = [] := by
  have hu : ∀ c ∈ u, tables.isAlpha c := fun c hc => hw c (List.mem_append_right _ hc)
  cases a with
  | nil => exact revNoise_word hu hs hne hrevision hversion hmonth
  | cons x a =>
    obtain ⟨c, hlast, hc⟩ := lastOf_alpha (hw x (by simp)) (u := a) (fun y hy => hw y (by simp [hy]))
    rw [lastOf_cons, hlast]
    exact revNoise_inside hu hs hc hne hmonth

theorem erase_kept (hw : Alphabetic tables w) (hs : s ∈ " -".toList) (hd : Numeric d) (hkeeps : KeepsWord w) :
    (revNoise tables).erase (w ++ s :: d) = w ++ s :: d := by
  obtain ⟨hrevision, hversion, hmonth⟩ := hkeeps
  have hnone : ∀ a u, w ++ s :: d = a ++ u → u ≠ [] → (revNoise tables).run ⟨lastOf none a, u ++ []⟩ = [] := by
    intro a u hsplit hne
    rw [List.append_nil]
    rcases List.append_eq_append_iff.mp hsplit with ⟨a', rfl, hrest⟩ | ⟨u', rfl, rfl⟩
    · cases a' with
      | nil =>
        rw [List.nil_append] at hrest
        rw [← hrest]
        exact revNoise_sep hs
      | cons c a' =>
        have hdigits := (List.cons.inj hrest).2
        apply revNoise_digits
        intro c hc
        exact hd.2 c (by rw [hdigits]; exact List.mem_append_right _ hc)
    · cases u' with
      | nil => exact revNoise_sep hs
      | cons c u' => exact revNoise_kept hw.2 hs (List.cons_ne_nil _ _) hrevision hversion (hmonth _ (List.suffix_append _ _))
  have herase := eraseFrom_kept hnone
  rw [List.append_nil, eraseFrom_nil, List.append_nil] at herase
  exact herase

theorem beforeMonth_split (w : List Char) : (beforeMonth w = w ∧ ∀ u, u <:+ w → isMonthWord u = false) ∨
    ∃ u, w = beforeMonth w ++ u ∧ isMonthWord u ∧ ∀ v, v <:+ w → u.length < v.length → isMonthWord v = false := by
  induction w with
  | nil =>
    left
    refine ⟨rfl, fun u hu => ?_⟩
    rw [List.suffix_nil.mp hu]
    rfl
  | cons c w ih =>
    rw [beforeMonth]
    split
    · rename_i hmonth
      refine Or.inr ⟨c :: w, rfl, hmonth, fun v hv hlt => ?_⟩
      exact absurd hv.length_le (by omega)
    · rename_i hmonth
      rcases ih with ⟨hsame, hnone⟩ | ⟨u, hsplit, hu, hfirst⟩
      · refine Or.inl ⟨by rw [hsame], fun u hu => ?_⟩
        rcases List.suffix_cons_iff.mp hu with rfl | hu
        · simpa using hmonth
        · exact hnone u hu
      · refine Or.inr ⟨u, by rw [List.cons_append, ← hsplit], hu, fun v hv hlt => ?_⟩
        rcases List.suffix_cons_iff.mp hv with rfl | hv
        · simpa using hmonth
        · exact hfirst v hv hlt

theorem monthWord_ne_nil (h : isMonthWord u) : u ≠ [] := by
  rintro rfl
  revert h
  decide

theorem revision_not_months : ∀ v ∈ ["rev", "revision", "v"], ∀ month ∈ months, v.toList.take 3 ≠ month.toList := by
  decide

theorem monthWord_not_revision (h : isMonthWord u) : isRevisionWord u = false ∧ isVersionWord u = false := by
  simp only [isMonthWord, Bool.and_eq_true, List.all_eq_true, List.any_eq_true, decide_eq_true_eq] at h
  obtain ⟨-, month, hmonth, htake⟩ := h
  have hother : ∀ v ∈ ["rev", "revision", "v"], u.map ignoreCase ≠ v.toList := by
    intro v hv hmap
    rw [hmap] at htake
    exact revision_not_months v hv month hmonth htake
  have hrev := decide_eq_false (hother "rev" (by simp))
  have hrevision := decide_eq_false (hother "revision" (by simp))
  exact ⟨by rw [isRevisionWord, hrev, hrevision, Bool.or_false], decide_eq_false (hother "v" (by simp))⟩

theorem beforeMonth_none (h : beforeMonth w = w) : ∀ u, u <:+ w → isMonthWord u = false := by
  rcases beforeMonth_split w with ⟨_, hnone⟩ | ⟨u, hsplit, hu, _⟩
  · exact hnone
  · rw [h, List.self_eq_append_right] at hsplit
    exact absurd hsplit (monthWord_ne_nil hu)

theorem digits_first (hd : Numeric d) : First (digits 2 (some 4)) b d [] :=
  First.repeatChar hd.2 hd.1.1 (fun n hn => by cases hn; exact hd.1.2) rfl

theorem First.oneOf_lit {words : List String} (hlength : ∀ w ∈ words, w.toList.length = m.length)
    (hm : ∃ w ∈ words, m.map ignoreCase = w.toList) : First (oneOf (words.map ProRag.lit)) b m t := by
  induction words with
  | nil =>
    obtain ⟨w, hw, _⟩ := hm
    cases hw
  | cons w words ih =>
    by_cases hword : m.map ignoreCase = w.toList
    · exact First.altLeft (First.lit hword)
    · apply First.altRight
      · apply Regex.run_eq_nil
        rintro m' hm' ⟨rest, hrest⟩
        have hmap := lit_language hm'
        have hsame : m'.length = m.length := by
          rw [← hlength w List.mem_cons_self, ← hmap, List.length_map]
        rw [(List.append_inj hrest hsame).1] at hmap
        exact hword hmap
      · apply ih (fun v hv => hlength v (List.mem_cons_of_mem _ hv))
        obtain ⟨v, hv, hmap⟩ := hm
        rcases List.mem_cons.mp hv with rfl | hv
        · exact absurd hmap hword
        · exact ⟨v, hv, hmap⟩

theorem First.noOpen (ht : t.head? ≠ some '(') : First (opt (oneChar '(')) b [] t := by
  apply First.optSkipped
  cases t with
  | nil => rfl
  | cons c t =>
    have hc : c ≠ '(' := by simpa using ht
    simp [oneChar, hc]

theorem monthBranch_first (hu : isMonthWord u) (hd : Numeric d) (halpha : ∀ c ∈ u, tables.isAlpha c) :
    First monthBranch b (u ++ ' ' :: d) [] := by
  simp only [isMonthWord, Bool.and_eq_true, List.all_eq_true, List.any_eq_true, decide_eq_true_eq] at hu
  obtain ⟨hlatin, month, hmonth, htake⟩ := hu
  have hlength : (u.take 3).length = 3 := by
    have hthree := months_length month hmonth
    rwa [← htake, ← List.map_take, List.length_map] at hthree
  have hopen : (u ++ ' ' :: d).head? ≠ some '(' := head_not_open halpha (by decide)
  have hsplit : u ++ ' ' :: d = u.take 3 ++ (u.drop 3 ++ ([' '] ++ (d ++ []))) := by
    rw [← List.append_assoc, List.take_append_drop, List.append_nil, List.singleton_append]
  have hspace : isLatin ' ' = false := by decide
  unfold monthBranch
  apply First.skip (First.noOpen (by simpa using hopen))
  rw [hsplit]
  apply First.cons
  · apply First.oneOf_lit
    · intro w hw
      rw [months_length w hw, hlength]
    · exact ⟨month, hmonth, by rw [List.map_take]; exact htake⟩
  apply First.cons
  · exact First.repeatChar (fun x hx => hlatin x (List.mem_of_mem_drop hx)) (Nat.zero_le _) (by simp) (by simpa using hspace)
  apply First.cons
  · exact First.optTaken (First.char (by decide)) (List.cons_ne_nil _ _)
  apply First.cons
  · exact digits_first hd
  apply First.skip (First.optSkipped rfl) First.nil

theorem number_first (tables : CharTables) {rs : List (Regex Char)} (hd : Numeric d) (hrs : ∀ b, First (concat rs) b [] []) :
    First (concat (opt (oneChar '.') :: star (char isPySpace) :: digits 1 none :: rs)) b (' ' :: d) [] := by
  have hhead : d.head?.any isPySpace = false := by
    cases d with
    | nil => rfl
    | cons c d => simpa using tables.digit_not_space (hd.2 c List.mem_cons_self)
  have hsplit : ' ' :: d = [' '] ++ (d ++ []) := by simp
  apply First.skip (First.optSkipped (by simp [oneChar]))
  rw [hsplit]
  apply First.cons
  · exact First.repeatChar (List.all_eq_true.mp (by decide)) (Nat.zero_le _) (by simp) (by simpa using hhead)
  apply First.cons
  · exact First.repeatChar hd.2 (le_trans (by decide) hd.1.1) (by simp) rfl
  exact hrs _

theorem word_first {rs : List (Regex Char)} (hne : u ≠ []) (halpha : ∀ c ∈ u, tables.isAlpha c)
    (h : First (concat rs) none (u ++ ' ' :: d) []) :
    First (concat (opt (oneChar '(') :: boundary tables.isWord :: rs)) none (u ++ ' ' :: d) [] := by
  have hopen : (u ++ ' ' :: d).head? ≠ some '(' := head_not_open halpha (by decide)
  have hboundary : none.any tables.isWord ≠ (u ++ ' ' :: d).head?.any tables.isWord := by
    cases u with
    | nil => exact absurd rfl hne
    | cons c u => simp [tables.alpha_word c (halpha c List.mem_cons_self)]
  apply First.skip (First.noOpen (by simpa using hopen))
  exact First.skip (First.boundary (by simpa using hboundary)) h

theorem revisionBranch_first (hu : isRevisionWord u) (hd : Numeric d) (halpha : ∀ c ∈ u, tables.isAlpha c) :
    First (revisionBranch tables) none (u ++ ' ' :: d) [] := by
  have hend : ∀ b, First (concat [opt (char isLatin), opt (oneChar ')')]) b [] [] :=
    fun b => First.skip (First.optSkipped rfl) (First.skip (First.optSkipped rfl) First.nil)
  have hne : u ≠ [] := by
    rintro rfl
    revert hu
    decide
  unfold revisionBranch
  apply word_first hne halpha
  rcases Bool.or_eq_true_iff.mp hu with hrev | hrevision
  · apply First.cons (First.lit (of_decide_eq_true hrev))
    apply First.skip (First.optSkipped (Regex.run_eq_nil _)) (number_first tables hd hend)
    rintro m hm ⟨rest, hrest⟩
    have hmap := lit_language hm
    cases m with
    | nil => exact absurd hmap (by decide)
    | cons c m =>
      have hc := (List.cons.inj hrest).1
      subst hc
      exact absurd (List.cons.inj hmap).1 (by decide)
  · have hmap : u.map ignoreCase = "revision".toList := of_decide_eq_true hrevision
    have hrev : (u.take 3).map ignoreCase = "rev".toList := by
      rw [List.map_take, hmap]
      decide
    have hision : (u.drop 3).map ignoreCase = "ision".toList := by
      rw [List.map_drop, hmap]
      decide
    have hsplit : u ++ ' ' :: d = u.take 3 ++ (u.drop 3 ++ ' ' :: d) := by
      rw [← List.append_assoc, List.take_append_drop]
    have hdrop : u.drop 3 ≠ [] := by
      intro h
      rw [h] at hision
      exact absurd hision (by decide)
    rw [hsplit]
    apply First.cons (First.lit hrev)
    exact First.cons (First.optTaken (First.lit hision) hdrop) (number_first tables hd hend)

theorem versionBranch_first (hu : isVersionWord u) (hd : Numeric d) (halpha : ∀ c ∈ u, tables.isAlpha c) :
    First (versionBranch tables) none (u ++ ' ' :: d) [] := by
  have hend : ∀ b, First (concat [star (concat [oneChar '.', digits 1 none]), opt (oneChar ')')]) b [] [] :=
    fun b => First.skip First.starEnd (First.skip (First.optSkipped rfl) First.nil)
  have hne : u ≠ [] := by
    rintro rfl
    revert hu
    decide
  unfold versionBranch
  apply word_first hne halpha
  exact First.cons (First.lit (of_decide_eq_true hu)) (number_first tables hd hend)

theorem erase_stem (hw : Alphabetic tables w) (hd : Numeric d) (h : ¬KeepsWord w) :
    (revNoise tables).erase (w ++ ' ' :: d) = wordStem w := by
  have hsep : ' ' ∈ " -".toList := by decide
  unfold wordStem
  by_cases hrevision : isRevisionWord w
  · rw [if_pos (by simp [hrevision])]
    exact (First.altLeft (revisionBranch_first hrevision hd hw.2)).eraseFrom (by simp)
  by_cases hversion : isVersionWord w
  · rw [if_pos (by simp [hversion])]
    apply First.eraseFrom (First.altRight _ (First.altLeft (versionBranch_first hversion hd hw.2))) (by simp)
    rw [List.append_nil]
    exact revisionBranch_none hw.2 hsep (by simpa using hrevision)
  rw [if_neg (by simp [hrevision, hversion])]
  rcases beforeMonth_split w with ⟨_, hnone⟩ | ⟨u, hsplit, hu, hfirst⟩
  · exact absurd ⟨by simpa using hrevision, by simpa using hversion, hnone⟩ h
  have halpha : ∀ c ∈ u, tables.isAlpha c := by
    intro c hc
    exact hw.2 c (by rw [hsplit]; exact List.mem_append_right _ hc)
  have hmonth : First (revNoise tables) (lastOf none (beforeMonth w)) (u ++ ' ' :: d) [] := by
    obtain ⟨hiso, hslash⟩ := dateBranches_none (b := lastOf none (beforeMonth w)) (d := d) halpha hsep (monthWord_ne_nil hu)
    apply First.altRight
    · rw [List.append_nil]
      exact revisionBranch_none halpha hsep (monthWord_not_revision hu).1
    apply First.altRight
    · rw [List.append_nil]
      exact versionBranch_none halpha hsep (monthWord_not_revision hu).2
    apply First.altRight (by rw [List.append_nil]; exact hiso)
    apply First.altRight (by rw [List.append_nil]; exact hslash)
    exact monthBranch_first hu hd halpha
  have hkept : ∀ a v, beforeMonth w = a ++ v → v ≠ [] →
      (revNoise tables).run ⟨lastOf none a, v ++ (u ++ ' ' :: d)⟩ = [] := by
    intro a v hstem hne
    have hword : w = a ++ (v ++ u) := by rw [hsplit, hstem, List.append_assoc]
    rw [← List.append_assoc]
    refine revNoise_kept (by rw [← hword]; exact hw.2) hsep (by simp [hne]) (by rw [← hword]; simpa using hrevision)
      (by rw [← hword]; simpa using hversion) (hfirst (v ++ u) ⟨a, hword.symm⟩ ?_)
    have hpos := List.length_pos_iff.mpr hne
    simp only [List.length_append]
    omega
  have hwhole : w ++ ' ' :: d = beforeMonth w ++ (u ++ ' ' :: d) := by
    rw [← List.append_assoc, ← hsplit]
  unfold Regex.erase
  rw [hwhole, eraseFrom_kept hkept, hmonth.eraseFrom (by simp), List.append_nil]

end ProRag
