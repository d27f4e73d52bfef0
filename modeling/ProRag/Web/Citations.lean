import ProRag.Framework.Binary64
import ProRag.Chat.Markers
import ProRag.Web.Sse

/-!
# Citation markers in the browser

The page cuts an answer at its markers with one regular expression, under the `\d`, `\s` and case folding of
JavaScript, and reads the number of each as a double.  No character of a marker is outside the basic plane, so the
texts are lists of characters here too.
-/

namespace ProRag

open Framework

/-- `\d`. -/
def isJsDigit (c : Char) : Bool := '0' ≤ c && c ≤ '9'

/-- A letter under the flag `i`; without the flag `u` a letter beyond ASCII is not folded to one of ASCII. -/
def jsLetter (lower upper : Char) (c : Char) : Bool := c = lower || c = upper

/-- `source\s+` in front of the digits. -/
def jsSource : Text → Option (Text × Nat)
  | s :: o :: u :: r :: c :: e :: rest =>
    if jsLetter 's' 'S' s && jsLetter 'o' 'O' o && jsLetter 'u' 'U' u && jsLetter 'r' 'R' r && jsLetter 'c' 'C' c &&
        jsLetter 'e' 'E' e && !(rest.takeWhile isJsSpace).isEmpty then
      runThen isJsDigit ']' (7 + (rest.takeWhile isJsSpace).length) (rest.dropWhile isJsSpace)
    else none
  | _ => none

/-- `s` in front of the digits. -/
def jsShort : Text → Option (Text × Nat)
  | s :: rest => if jsLetter 's' 'S' s then runThen isJsDigit ']' 2 rest else none
  | _ => none

/-- `MARKER_SOURCE`, `(\(S\d+\)|\[(?:source\s+|s)?\d+\])`. -/
def markerSource : Matcher Char Text
  | '(' :: s :: rest => if jsLetter 's' 'S' s then runThen isJsDigit ')' 2 rest else none
  | '[' :: rest => jsSource rest <|> jsShort rest <|> runThen isJsDigit ']' 1 rest
  | _ => none

/-- `splitOnCitations(text)`; the regular expression is one capture group, so `split` keeps the matches. -/
def splitOnCitations (text : Text) : List Text :=
  (splitCaptured markerSource 0 [] text).filter fun piece => piece ≠ []

/-- `isCitationMarker(part)`. -/
def isCitationMarker (part : Text) : Bool := isWhole markerSource part

def decimalValue (digits : Text) : Nat := digits.foldl (fun n c => 10 * n + (digitValue c).getD 0) 0

/-- `marker.match(/\d+/)[0]`. -/
def firstDigits (marker : Text) : Text := (marker.dropWhile fun c => !isJsDigit c).takeWhile isJsDigit

/-- `markerIndex(marker)`. -/
def markerIndex (marker : Text) : Option Nat := toBinary64 (decimalValue (firstDigits marker))

/-- The indices that the client extracts from an answer. -/
def clientIndices (text : Text) : List (Option Nat) :=
  ((splitOnCitations text).filter isCitationMarker).map markerIndex

/-- The indices of the canonical markers of the normalized answer. -/
def serverIndices (text : Text) : List (Option Nat) :=
  (citationMarks text).map fun digits => some (decimalValue digits)

/-- The ASCII characters of a marker besides its digits. -/
def asciiMarks : List Char := "()[]sSoOuUrRcCeE".toList

section Dialect

variable (letter : Char → Char → Char → Bool) (space digit : Char → Bool)

/-- The heads of a marker, by how a dialect of regular expressions reads a letter without case, `\s` and `\d`. -/
def shortHead (opener : Char) (h : Text) : Prop := ∃ s, letter 's' 'S' s = true ∧ h = [opener, s]

def longHead (h : Text) : Prop :=
  ∃ s o u r c e spaces, letter 's' 'S' s = true ∧ letter 'o' 'O' o = true ∧ letter 'u' 'U' u = true ∧
    letter 'r' 'R' r = true ∧ letter 'c' 'C' c = true ∧ letter 'e' 'E' e = true ∧ spaces ≠ [] ∧
    (∀ x ∈ spaces, space x = true) ∧ h = '[' :: s :: o :: u :: r :: c :: e :: spaces

/-- `(S1)`, `[source 1]`, `[s1]` and `[1]`. -/
def dialectForm (h digits : Text) (close : Char) : Prop :=
  ((close = ')' ∧ shortHead letter '(' h) ∨
    (close = ']' ∧ (longHead letter space h ∨ shortHead letter '[' h ∨ h = ['[']))) ∧
  digits ≠ [] ∧ ∀ c ∈ digits, digit c = true

variable {letter space digit} {h digits : Text} {close : Char}

theorem dialectForm_chars {P : Char → Prop} (hascii : ∀ x ∈ asciiMarks, P x)
    (hletter : ∀ lower ∈ asciiMarks, ∀ upper ∈ asciiMarks, ∀ x, letter lower upper x = true → P x)
    (hspace : ∀ x, space x = true → P x) (hdigit : ∀ x, digit x = true → P x)
    (hf : dialectForm letter space digit h digits close) : ∀ x ∈ h ++ digits ++ [close], P x := by
  intro x hx
  obtain ⟨hh, -, hdigits⟩ := hf
  have hshort : ∀ opener ∈ asciiMarks, shortHead letter opener h → x ∈ h → P x := by
    intro opener hopener hshort hmem
    obtain ⟨s, hs, hhead⟩ := hshort
    rw [hhead] at hmem
    simp only [List.mem_cons, List.not_mem_nil, or_false] at hmem
    rcases hmem with rfl | rfl
    · exact hascii _ hopener
    · exact hletter 's' (by decide) 'S' (by decide) _ hs
  have hlong : longHead letter space h → x ∈ h → P x := by
    intro hlong hmem
    obtain ⟨s, o, u, r, c, e, spaces, hs, ho, hu, hr, hc, he, _, hspaces, hhead⟩ := hlong
    rw [hhead] at hmem
    simp only [List.mem_cons] at hmem
    rcases hmem with rfl | rfl | rfl | rfl | rfl | rfl | rfl | hmem
    · exact hascii _ (by decide)
    · exact hletter 's' (by decide) 'S' (by decide) _ hs
    · exact hletter 'o' (by decide) 'O' (by decide) _ ho
    · exact hletter 'u' (by decide) 'U' (by decide) _ hu
    · exact hletter 'r' (by decide) 'R' (by decide) _ hr
    · exact hletter 'c' (by decide) 'C' (by decide) _ hc
    · exact hletter 'e' (by decide) 'E' (by decide) _ he
    · exact hspace x (hspaces x hmem)
  simp only [List.mem_append, List.mem_singleton] at hx
  rcases hx with (hx | hx) | rfl
  · rcases hh with ⟨_, hparen⟩ | ⟨_, hsource | hsquare | rfl⟩
    · exact hshort '(' (by decide) hparen hx
    · exact hlong hsource hx
    · exact hshort '[' (by decide) hsquare hx
    · rw [List.mem_singleton.mp hx]
      exact hascii _ (by decide)
  · exact hdigit x (hdigits x hx)
  · rcases hh with ⟨rfl, _⟩ | ⟨rfl, _⟩
    · exact hascii _ (by decide)
    · exact hascii _ (by decide)

theorem dialectForm_mono {letter' : Char → Char → Char → Bool} {space' digit' : Char → Bool}
    (hf : dialectForm letter space digit h digits close)
    (hletter : ∀ x ∈ h, ∀ lower upper, letter lower upper x = true → letter' lower upper x = true)
    (hspace : ∀ x ∈ h, space x = true → space' x = true) (hdigit : ∀ x ∈ digits, digit x = true → digit' x = true) :
    dialectForm letter' space' digit' h digits close := by
  obtain ⟨hh, hne, hdigits⟩ := hf
  have hshort : ∀ opener, shortHead letter opener h → shortHead letter' opener h := by
    intro opener ⟨s, hs, hhead⟩
    exact ⟨s, hletter s (by simp [hhead]) _ _ hs, hhead⟩
  refine ⟨?_, hne, fun c hc => hdigit c hc (hdigits c hc)⟩
  rcases hh with ⟨hclose, hparen⟩ | ⟨hclose, hsource | hsquare | hbare⟩
  · exact Or.inl ⟨hclose, hshort _ hparen⟩
  · obtain ⟨s, o, u, r, c, e, spaces, hs, ho, hu, hr, hc, he, hne', hspaces, hhead⟩ := hsource
    have hin : ∀ x ∈ [s, o, u, r, c, e] ++ spaces, x ∈ h := by
      intro x hx
      rw [hhead]
      exact List.mem_cons_of_mem _ hx
    refine Or.inr ⟨hclose, Or.inl ⟨s, o, u, r, c, e, spaces, ?_, ?_, ?_, ?_, ?_, ?_, hne', ?_, hhead⟩⟩
    · exact hletter s (hin s (by simp)) _ _ hs
    · exact hletter o (hin o (by simp)) _ _ ho
    · exact hletter u (hin u (by simp)) _ _ hu
    · exact hletter r (hin r (by simp)) _ _ hr
    · exact hletter c (hin c (by simp)) _ _ hc
    · exact hletter e (hin e (by simp)) _ _ he
    · intro x hx
      exact hspace x (hin x (by simp [hx])) (hspaces x hx)
  · exact Or.inr ⟨hclose, Or.inr (Or.inl (hshort _ hsquare))⟩
  · exact Or.inr ⟨hclose, Or.inr (Or.inr hbare)⟩

end Dialect

def clientForm : Text → Text → Char → Prop := dialectForm jsLetter isJsSpace isJsDigit

def serverForm : Text → Text → Char → Prop := dialectForm caseless isPySpace isPyDigit

/-- A character that `\d`, `\s` or `(?i)s` takes in Python alone. -/
def pythonOnly (c : Char) : Bool :=
  c = Char.ofNat 0x17f || (isPySpace c && !isJsSpace c) || (isPyDigit c && !isJsDigit c)

/-- A character that `\s` takes in JavaScript alone. -/
def javascriptOnly (c : Char) : Bool := isJsSpace c && !isPySpace c

theorem isJsDigit_python {c : Char} (hc : isJsDigit c = true) : isPyDigit c = true := by
  unfold isJsDigit at hc
  simp only [Bool.and_eq_true, decide_eq_true_eq] at hc
  have hlow : 48 ≤ c.toNat := hc.1
  have hhigh : c.toNat ≤ 57 := hc.2
  have hfound : (decimalZeros.find? fun z => z ≤ c.toNat && c.toNat < z + 10) = some 0x30 := by
    rw [decimalZeros, List.find?_cons_of_pos]
    simp only [Bool.and_eq_true, decide_eq_true_eq]
    omega
  simp [isPyDigit, digitValue, hfound]

theorem jsSpace_plain {c : Char} (hc : isJsSpace c = true) : ¬ isOpener c ∧ isPyDigit c = false := by
  by_cases hpy : isPySpace c = true
  · exact space_plain hpy
  · have hcode : c.toNat = 65279 := by
      unfold isJsSpace at hc
      unfold isPySpace at hpy
      simp only [Bool.or_eq_true, Bool.and_eq_true, decide_eq_true_eq] at hc hpy
      omega
    have heq : c = Char.ofNat 65279 := by rw [← hcode, Char.ofNat_toNat]
    rw [heq]
    unfold isOpener
    decide

theorem jsLetter_caseless {lower upper c : Char} (h : jsLetter lower upper c = true) : caseless lower upper c = true := by
  unfold caseless
  unfold jsLetter at h
  rw [h, Bool.true_or]

theorem caseless_jsLetter {lower upper c : Char} (h : caseless lower upper c = true) (hc : pythonOnly c = false) :
    jsLetter lower upper c = true := by
  unfold pythonOnly at hc
  simp only [Bool.or_eq_false_iff, decide_eq_false_iff_not] at hc
  unfold caseless at h
  simpa [jsLetter, hc.1.1] using h

theorem dialectForm_marker {letter : Char → Char → Char → Bool} {space digit : Char → Bool}
    (hletter : ∀ lower upper c, letter lower upper c = true → caseless lower upper c = true)
    (hspace : ∀ x, space x = true → ¬ isOpener x ∧ isPyDigit x = false)
    (hdigit : ∀ x, digit x = true → isPyDigit x = true) : MarkerForm (dialectForm letter space digit) where
  head := by
    intro h digits close hf
    have hshort : ∀ opener, shortHead letter opener h → sHead opener h := fun opener ⟨s, hs, hhead⟩ =>
      ⟨s, hletter _ _ _ hs, hhead⟩
    rcases hf.1 with ⟨_, hparen⟩ | ⟨_, hsource | hsquare | hbare⟩
    · exact sHead_isHead (Or.inl rfl) (hshort _ hparen)
    · obtain ⟨s, o, u, r, c, e, spaces, hs, ho, hu, hr, hc, he, _, hspaces, rfl⟩ := hsource
      refine isHead_of_plain (Or.inr rfl) fun x hx => ?_
      simp only [List.mem_cons] at hx
      rcases hx with rfl | rfl | rfl | rfl | rfl | rfl | hx
      · exact letter_plain (caseless_letter (by decide) (by decide) (hletter _ _ _ hs))
      · exact letter_plain (caseless_letter (by decide) (by decide) (hletter _ _ _ ho))
      · exact letter_plain (caseless_letter (by decide) (by decide) (hletter _ _ _ hu))
      · exact letter_plain (caseless_letter (by decide) (by decide) (hletter _ _ _ hr))
      · exact letter_plain (caseless_letter (by decide) (by decide) (hletter _ _ _ hc))
      · exact letter_plain (caseless_letter (by decide) (by decide) (hletter _ _ _ he))
      · exact hspace x (hspaces x hx)
    · exact sHead_isHead (Or.inr rfl) (hshort _ hsquare)
    · exact bareHead_isHead hbare
  digits_ne := fun hf => hf.2.1
  digits := fun hf c hc => hdigit c (hf.2.2 c hc)
  close := by
    intro h digits close hf
    rcases hf.1 with ⟨rfl, _⟩ | ⟨rfl, _⟩
    · exact ⟨by decide, by unfold isOpener; decide⟩
    · exact ⟨by decide, by unfold isOpener; decide⟩

theorem clientForm_marker : MarkerForm clientForm :=
  dialectForm_marker (fun _ _ _ => jsLetter_caseless) (fun _ => jsSpace_plain) fun _ => isJsDigit_python

theorem serverForm_marker : MarkerForm serverForm :=
  dialectForm_marker (fun _ _ _ hc => hc) (fun _ => space_plain) fun _ hc => hc

theorem serverForm_iff (text : Text) (m : Text × Nat) : (∃ p ∈ deviationPatterns, p text = some m) ↔
    ∃ h digits close rest, serverForm h digits close ∧ text = h ++ digits ++ close :: rest ∧
      m = (digits, h.length + digits.length + 1) := by
  constructor
  · intro hmatch
    obtain ⟨p, hp, hm⟩ := hmatch
    simp only [deviationPatterns, List.mem_cons, List.not_mem_nil, or_false] at hp
    rcases hp with rfl | rfl | rfl | rfl
    · obtain ⟨h, digits, rest, hh, hne, hdigits, hrest⟩ := (parenMarker_shaped text m).mp hm
      exact ⟨h, digits, ')', rest, ⟨Or.inl ⟨rfl, hh⟩, hne, hdigits⟩, hrest⟩
    · obtain ⟨h, digits, rest, hh, hne, hdigits, hrest⟩ := (squareMarker_shaped text m).mp hm
      exact ⟨h, digits, ']', rest, ⟨Or.inr ⟨rfl, Or.inr (Or.inl hh)⟩, hne, hdigits⟩, hrest⟩
    · obtain ⟨h, digits, rest, hh, hne, hdigits, hrest⟩ := (sourceMarker_shaped text m).mp hm
      exact ⟨h, digits, ']', rest, ⟨Or.inr ⟨rfl, Or.inl hh⟩, hne, hdigits⟩, hrest⟩
    · obtain ⟨h, digits, rest, hh, hne, hdigits, hrest⟩ := (bareMarker_shaped text m).mp hm
      exact ⟨h, digits, ']', rest, ⟨Or.inr ⟨rfl, Or.inr (Or.inr hh)⟩, hne, hdigits⟩, hrest⟩
  · intro hform
    obtain ⟨h, digits, close, rest, ⟨hh, hne, hdigits⟩, hrest⟩ := hform
    rcases hh with ⟨rfl, hparen⟩ | ⟨rfl, hsource | hsquare | hbare⟩
    · exact ⟨parenMarker, by simp [deviationPatterns],
        (parenMarker_shaped text m).mpr ⟨h, digits, rest, hparen, hne, hdigits, hrest⟩⟩
    · exact ⟨sourceMarker, by simp [deviationPatterns],
        (sourceMarker_shaped text m).mpr ⟨h, digits, rest, hsource, hne, hdigits, hrest⟩⟩
    · exact ⟨squareMarker, by simp [deviationPatterns],
        (squareMarker_shaped text m).mpr ⟨h, digits, rest, hsquare, hne, hdigits, hrest⟩⟩
    · exact ⟨bareMarker, by simp [deviationPatterns],
        (bareMarker_shaped text m).mpr ⟨h, digits, rest, hbare, hne, hdigits, hrest⟩⟩

section

variable {m : Text × Nat}

theorem shape_of_runThen {close : Char} (hclose : isJsDigit close = false) (h rest : Text) :
    runThen isJsDigit close h.length rest = some m ↔ ∃ digits rest', (digits ≠ [] ∧ ∀ c ∈ digits, isJsDigit c = true) ∧
      h ++ rest = h ++ digits ++ close :: rest' ∧ m = (digits, h.length + digits.length + 1) := by
  rw [runThen_iff hclose]
  simp only [List.append_assoc, List.append_cancel_left_eq, and_assoc]

theorem jsSource_form {rest : Text} (hm : jsSource rest = some m) : ∃ h digits rest', longHead jsLetter isJsSpace h ∧
    (digits ≠ [] ∧ ∀ c ∈ digits, isJsDigit c = true) ∧ '[' :: rest = h ++ digits ++ ']' :: rest' ∧
    m = (digits, h.length + digits.length + 1) := by
  unfold jsSource at hm
  split at hm
  · rename_i s o u r c e rest
    split at hm
    · rename_i hletters
      simp only [Bool.and_eq_true, Bool.not_eq_true', List.isEmpty_eq_false_iff] at hletters
      obtain ⟨⟨⟨⟨⟨⟨hs, ho⟩, hu⟩, hr⟩, hc⟩, he⟩, hspaces⟩ := hletters
      have hlen : 7 + (rest.takeWhile isJsSpace).length =
          ('[' :: s :: o :: u :: r :: c :: e :: rest.takeWhile isJsSpace).length := by
        simp only [List.length_cons]
        omega
      rw [hlen] at hm
      obtain ⟨digits, rest', hdigits, htext, rfl⟩ := (shape_of_runThen (by decide) _ _).mp hm
      refine ⟨_, digits, rest', ⟨s, o, u, r, c, e, _, hs, ho, hu, hr, hc, he, hspaces,
        List.all_eq_true.mp List.all_takeWhile, rfl⟩, hdigits, ?_, rfl⟩
      rw [← htext]
      simp [List.takeWhile_append_dropWhile]
    · cases hm
  · cases hm

theorem jsShort_form {rest : Text} (hm : jsShort rest = some m) : ∃ h digits rest', shortHead jsLetter '[' h ∧
    (digits ≠ [] ∧ ∀ c ∈ digits, isJsDigit c = true) ∧ '[' :: rest = h ++ digits ++ ']' :: rest' ∧
    m = (digits, h.length + digits.length + 1) := by
  unfold jsShort at hm
  split at hm
  · rename_i s rest
    split at hm
    · rename_i hs
      obtain ⟨digits, rest', h⟩ := (shape_of_runThen (by decide) ['[', s] rest).mp hm
      exact ⟨['[', s], digits, rest', ⟨s, hs, rfl⟩, h⟩
    · cases hm
  · cases hm

theorem markerSource_form {text : Text} (hm : markerSource text = some m) : ∃ h digits close rest,
    clientForm h digits close ∧ text = h ++ digits ++ close :: rest ∧ m = (digits, h.length + digits.length + 1) := by
  unfold markerSource at hm
  split at hm
  · rename_i s rest
    split at hm
    · rename_i hs
      obtain ⟨digits, rest', hdigits, h⟩ := (shape_of_runThen (by decide) ['(', s] rest).mp hm
      exact ⟨['(', s], digits, ')', rest', ⟨Or.inl ⟨rfl, s, hs, rfl⟩, hdigits⟩, h⟩
    · cases hm
  · rename_i rest
    cases hsource : jsSource rest with
    | some m' =>
      rw [hsource] at hm
      obtain rfl : m' = m := Option.some.inj hm
      obtain ⟨h, digits, rest', hh, hdigits, htext⟩ := jsSource_form hsource
      exact ⟨h, digits, ']', rest', ⟨Or.inr ⟨rfl, Or.inl hh⟩, hdigits⟩, htext⟩
    | none =>
      cases hshort : jsShort rest with
      | some m' =>
        rw [hsource, hshort] at hm
        obtain rfl : m' = m := Option.some.inj hm
        obtain ⟨h, digits, rest', hh, hdigits, htext⟩ := jsShort_form hshort
        exact ⟨h, digits, ']', rest', ⟨Or.inr ⟨rfl, Or.inr (Or.inl hh)⟩, hdigits⟩, htext⟩
      | none =>
        rw [hsource, hshort] at hm
        obtain ⟨digits, rest', hdigits, h⟩ := (shape_of_runThen (by decide) ['['] rest).mp hm
        exact ⟨['['], digits, ']', rest', ⟨Or.inr ⟨rfl, Or.inr (Or.inr rfl)⟩, hdigits⟩, h⟩
  · cases hm

theorem orElse_isSome {α : Type} (x : Option α) {y : Option α} (hy : ∃ m, y = some m) : ∃ m, (x <|> y) = some m := by
  cases x with
  | some m => exact ⟨m, rfl⟩
  | none => exact hy

/-- A client marker is matched; that the match is this one follows from `MarkerForm.unique`. -/
theorem markerSource_isSome {h digits rest : Text} {close : Char} (hf : clientForm h digits close) :
    ∃ m, markerSource (h ++ digits ++ close :: rest) = some m := by
  obtain ⟨hh, hne, hdigits⟩ := hf
  have hrun : ∀ (close : Char) (n : Nat), isJsDigit close = false →
      runThen isJsDigit close n (digits ++ close :: rest) = some (digits, n + digits.length + 1) :=
    fun close n hclose => (runThen_iff hclose n _ _).mpr ⟨digits, rest, hne, hdigits, rfl, rfl⟩
  rcases hh with ⟨rfl, s, hs, rfl⟩ | ⟨rfl, hsource | ⟨s, hs, rfl⟩ | rfl⟩
  · refine ⟨_, (if_pos hs).trans (hrun ')' 2 (by decide))⟩
  · obtain ⟨s, o, u, r, c, e, spaces, hs, ho, hu, hr, hc, he, hne', hspaces, rfl⟩ := hsource
    have hdigit : ∀ d ds, digits = d :: ds → isJsSpace d = false := by
      intro d ds hd
      cases hspace : isJsSpace d with
      | false => rfl
      | true =>
        have hno := (jsSpace_plain hspace).2
        rw [isJsDigit_python (hdigits d (by rw [hd]; exact List.mem_cons_self))] at hno
        cases hno
    have htake : (spaces ++ (digits ++ ']' :: rest)).takeWhile isJsSpace = spaces := by
      rw [List.takeWhile_append_of_pos hspaces]
      cases digits with
      | nil => exact absurd rfl hne
      | cons d ds => simp [hdigit d ds rfl]
    have hdrop : (spaces ++ (digits ++ ']' :: rest)).dropWhile isJsSpace = digits ++ ']' :: rest := by
      rw [List.dropWhile_append_of_pos hspaces]
      cases digits with
      | nil => exact absurd rfl hne
      | cons d ds => simp [hdigit d ds rfl]
    have hfound : jsSource (s :: o :: u :: r :: c :: e :: (spaces ++ (digits ++ ']' :: rest))) =
        some (digits, 7 + spaces.length + digits.length + 1) := by
      unfold jsSource
      simp only [hs, ho, hu, hr, hc, he, htake, hdrop, Bool.true_and, Bool.not_eq_true', List.isEmpty_eq_false_iff, hne',
        ↓reduceIte, not_false_eq_true, ne_eq]
      exact hrun ']' _ (by decide)
    refine ⟨(digits, 7 + spaces.length + digits.length + 1), ?_⟩
    have htext : '[' :: s :: o :: u :: r :: c :: e :: spaces ++ digits ++ ']' :: rest =
        '[' :: s :: o :: u :: r :: c :: e :: (spaces ++ (digits ++ ']' :: rest)) := by
      simp
    rw [htext, markerSource, hfound]
    rfl
  · have hfound : jsShort (s :: (digits ++ ']' :: rest)) = some (digits, 2 + digits.length + 1) :=
      (if_pos hs).trans (hrun ']' 2 (by decide))
    have htail : ∃ m, (jsShort (s :: (digits ++ ']' :: rest)) <|> runThen isJsDigit ']' 1 (s :: (digits ++ ']' :: rest))) =
        some m := ⟨_, by rw [hfound]; rfl⟩
    exact orElse_isSome _ htail
  · exact orElse_isSome _ (orElse_isSome _ ⟨_, hrun ']' 1 (by decide)⟩)

theorem markerSource_formed : FormedBy clientForm markerSource := by
  intro text m
  constructor
  · exact markerSource_form
  · intro ⟨h, digits, close, rest, hf, htext, hm⟩
    obtain ⟨m', hm'⟩ := @markerSource_isSome _ _ rest _ hf
    obtain ⟨h', digits', close', rest', hf', htext', rfl⟩ := markerSource_form hm'
    obtain ⟨rfl, rfl, -, -⟩ := clientForm_marker.unique clientForm_marker hf hf' htext'
    rw [htext, hm, hm']

theorem markerSource_bracketed : Bracketed isOpener markerSource := markerSource_formed.bracketed clientForm_marker

theorem firstDigits_marker {text : Text} (hm : markerSource text = some m) :
    firstDigits (text.take m.2) = m.1 := by
  obtain ⟨h, digits, close, rest, hf, rfl, rfl⟩ := markerSource_form hm
  have hlen : h.length + digits.length + 1 = (h ++ digits ++ [close]).length := by
    simp only [List.length_append, List.length_cons, List.length_nil]
  have htake : (h ++ digits ++ close :: rest).take (h.length + digits.length + 1) = h ++ digits ++ [close] := by
    have hsplit : h ++ digits ++ close :: rest = (h ++ digits ++ [close]) ++ rest := by simp
    rw [hlen, hsplit, List.take_left]
  have hhead : ∀ x ∈ h, (!isJsDigit x) = true := by
    intro x hx
    obtain ⟨_, _, _, _, _, hno⟩ := clientForm_marker.head hf
    cases hd : isJsDigit x with
    | false => rfl
    | true =>
      have hpy := isJsDigit_python hd
      rw [hno x hx] at hpy
      cases hpy
  have hclose : isJsDigit close = false := by
    rcases hf.1 with ⟨rfl, _⟩ | ⟨rfl, _⟩
    · decide
    · decide
  rw [htake, firstDigits, List.append_assoc, List.dropWhile_append_of_pos hhead]
  cases digits with
  | nil => exact absurd rfl hf.2.1
  | cons d ds =>
    have hd : isJsDigit d = true := hf.2.2 d List.mem_cons_self
    rw [List.cons_append, List.dropWhile_cons_of_neg (by simp [hd]), ← List.cons_append]
    exact (takeWhile_run hf.2.2 hclose []).1

theorem clientIndices_eq (text : Text) :
    clientIndices text = (captures markerSource text).map fun digits => toBinary64 (decimalValue digits) := by
  have hsplit : ((splitCaptured markerSource 0 [] text).filter (isWhole markerSource)).map firstDigits =
      captures markerSource text :=
    splitCaptured_whole markerSource_bracketed (fun text m hm => firstDigits_marker hm) text (Or.inl rfl)
  have hpieces : ∀ pieces : List Text, (pieces.filter fun piece => piece ≠ []).filter isCitationMarker =
      pieces.filter (isWhole markerSource) := by
    intro pieces
    rw [List.filter_filter]
    apply List.filter_congr
    intro piece _
    cases piece with
    | nil => rfl
    | cons c cs => simp [isCitationMarker]
  have hindex : markerIndex = (fun digits => toBinary64 (decimalValue digits)) ∘ firstDigits := by
    funext marker
    simp only [markerIndex, Function.comp_apply]
  rw [clientIndices, splitOnCitations, hpieces, ← hsplit, List.map_map, hindex]

end

/-- A marker that one side takes whole. -/
def ServerMarker (marker digits : Text) : Prop := ∃ p ∈ deviationPatterns, p marker = some (digits, marker.length)

/-- Each marker of the server is written in characters that JavaScript takes alike, with a number that a double has,
and each marker of the client in characters that Python takes. -/
def PlainMarkers (text : Text) : Prop :=
  ∀ before marker after, text = before ++ marker ++ after →
    (∀ digits, ServerMarker marker digits → (∀ c ∈ marker, pythonOnly c = false) ∧ InBinary64 (decimalValue digits)) ∧
    (isCitationMarker marker = true → ∀ c ∈ marker, javascriptOnly c = false)

def Agree (text : Text) : Prop := clientIndices text = serverIndices text

theorem PlainMarkers.of_append {a b : Text} (h : PlainMarkers (a ++ b)) : PlainMarkers a := by
  intro before marker after heq
  exact h before marker (after ++ b) (by rw [heq, List.append_assoc])

theorem serverIndices_append (a : Text) {rest : Text} (hrest : AtOpener isOpener rest) :
    serverIndices (a ++ rest) = serverIndices a ++ serverIndices rest := by
  have hmarks : citationMarks (a ++ rest) = citationMarks a ++ citationMarks rest := citationMarkup.marks_append a hrest
  rw [serverIndices, hmarks, List.map_append]
  rfl

theorem clientIndices_append (a : Text) {rest : Text} (hrest : AtOpener isOpener rest) :
    clientIndices (a ++ rest) = clientIndices a ++ clientIndices rest := by
  have hmarks : captures markerSource (a ++ rest) = captures markerSource a ++ captures markerSource rest :=
    scan_append markerSource_bracketed hrest a (Nat.zero_le _)
  rw [clientIndices_eq, hmarks, List.map_append, ← clientIndices_eq, ← clientIndices_eq]

theorem clientIndices_free {text : Text} (hfree : ∀ x ∈ text, ¬ isOpener x) : clientIndices text = [] := by
  rw [clientIndices_eq, captures, scan_free markerSource_bracketed hfree 0]
  simp

theorem clientIndices_chunk (c : Char) {body : Text} (hfree : ∀ x ∈ body, ¬ isOpener x) :
    clientIndices (c :: body) = ((markerSource (c :: body)).map fun m => toBinary64 (decimalValue m.1)).toList := by
  rw [clientIndices_eq, captures, scan_chunk markerSource_bracketed c hfree]
  cases markerSource (c :: body) with
  | none => simp
  | some m => simp

theorem serverIndices_chunk (c : Char) {body : Text} (hfree : ∀ x ∈ body, ¬ isOpener x) :
    serverIndices (c :: body) =
      ((deviationPatterns.findSome? fun p => p (c :: body)).map fun m => some (decimalValue m.1)).toList := by
  have hmarks : citationMarks (c :: body) =
      ((deviationPatterns.findSome? fun p => p (c :: body)).map Prod.fst).toList := citationMarkup.marks_chunk c hfree
  rw [serverIndices, hmarks]
  cases deviationPatterns.findSome? fun p => p (c :: body) with
  | none => rfl
  | some m => rfl

theorem ServerMarker.iff {marker digits : Text} : ServerMarker marker digits ↔
    ∃ h close, serverForm h digits close ∧ marker = h ++ digits ++ [close] := by
  constructor
  · intro hm
    obtain ⟨h, digits', close, rest, hf, hmarker, hcapture⟩ := (serverForm_iff _ _).mp hm
    obtain ⟨rfl, hlen⟩ := Prod.mk.inj hcapture
    have hrest : rest = [] := by
      rw [hmarker] at hlen
      simp only [List.length_append, List.length_cons] at hlen
      exact List.length_eq_zero_iff.mp (by omega)
    exact ⟨h, close, hf, by rw [hmarker, hrest]⟩
  · intro ⟨h, close, hf, hmarker⟩
    refine (serverForm_iff _ _).mpr ⟨h, digits, close, [], hf, hmarker, ?_⟩
    rw [hmarker]
    simp only [List.length_append, List.length_cons, List.length_nil]

theorem isCitationMarker_iff {marker : Text} : isCitationMarker marker = true ↔
    ∃ h digits close, clientForm h digits close ∧ marker = h ++ digits ++ [close] := by
  unfold isCitationMarker isWhole
  rw [Option.any_eq_true]
  constructor
  · intro ⟨m, hm, hlen⟩
    obtain ⟨h, digits, close, rest, hf, hmarker, rfl⟩ := markerSource_form hm
    have hrest : rest = [] := by
      rw [hmarker] at hlen
      simp only [List.length_append, List.length_cons, decide_eq_true_eq] at hlen
      exact List.length_eq_zero_iff.mp (by omega)
    exact ⟨h, digits, close, hf, by rw [hmarker, hrest]⟩
  · intro ⟨h, digits, close, hf, hmarker⟩
    refine ⟨_, (markerSource_formed _ _).mpr ⟨h, digits, close, [], hf, hmarker, rfl⟩, ?_⟩
    rw [hmarker]
    simp only [List.length_append, List.length_cons, List.length_nil, decide_eq_true_eq]

theorem jsLetter_ascii {lower upper c : Char} (hlower : lower ∈ asciiMarks) (hupper : upper ∈ asciiMarks)
    (h : jsLetter lower upper c = true) : c ∈ asciiMarks := by
  unfold jsLetter at h
  simp only [Bool.or_eq_true, decide_eq_true_eq] at h
  rcases h with rfl | rfl
  · exact hlower
  · exact hupper

section Forms

variable {h digits : Text} {close : Char}

theorem clientForm_of_server (hf : serverForm h digits close)
    (hplain : ∀ x ∈ h ++ digits ++ [close], pythonOnly x = false) : clientForm h digits close := by
  have hparts : ∀ x ∈ h ++ digits ++ [close], x ≠ Char.ofNat 0x17f ∧ (isPySpace x = true → isJsSpace x = true) ∧
      (isPyDigit x = true → isJsDigit x = true) := by
    intro x hx
    have hpy := hplain x hx
    simp only [pythonOnly, Bool.or_eq_false_iff, decide_eq_false_iff_not, Bool.and_eq_false_iff, Bool.not_eq_false'] at hpy
    obtain ⟨⟨hlong, hspace⟩, hdigit⟩ := hpy
    exact ⟨hlong, fun h => hspace.resolve_left (by simp [h]), fun h => hdigit.resolve_left (by simp [h])⟩
  apply dialectForm_mono hf
  · intro x hx lower upper hletter
    exact caseless_jsLetter hletter (hplain x (by simp [hx]))
  · intro x hx
    exact (hparts x (by simp [hx])).2.1
  · intro x hx
    exact (hparts x (by simp [hx])).2.2

theorem serverForm_of_client (hf : clientForm h digits close)
    (hplain : ∀ x ∈ h ++ digits ++ [close], javascriptOnly x = false) : serverForm h digits close := by
  apply dialectForm_mono hf
  · intro x _ lower upper hletter
    exact jsLetter_caseless hletter
  · intro x hx hspace
    have hjs := hplain x (by simp [hx])
    simpa [javascriptOnly, hspace] using hjs
  · intro x _ hdigit
    exact isJsDigit_python hdigit

theorem clientForm_plain (hf : clientForm h digits close) : ∀ x ∈ h ++ digits ++ [close], pythonOnly x = false := by
  have hascii : ∀ x ∈ asciiMarks, pythonOnly x = false := by
    have hall : asciiMarks.all (fun x => !pythonOnly x) = true := by decide
    intro x hx
    simpa using List.all_eq_true.mp hall x hx
  apply dialectForm_chars hascii _ _ _ hf
  · intro lower hlower upper hupper x hletter
    exact hascii x (jsLetter_ascii hlower hupper hletter)
  · intro x hspace
    have hlong : x ≠ Char.ofNat 0x17f := by
      rintro rfl
      revert hspace
      decide
    simp [pythonOnly, hlong, hspace, (jsSpace_plain hspace).2]
  · intro x hdigit
    have hlong : x ≠ Char.ofNat 0x17f := by
      rintro rfl
      revert hdigit
      decide
    have hspace : isPySpace x = false := by
      cases hs : isPySpace x with
      | false => rfl
      | true =>
        have hno := space_not_digit hs
        rw [isJsDigit_python hdigit] at hno
        cases hno
    simp [pythonOnly, hlong, hdigit, hspace]

theorem serverForm_plain (hf : serverForm h digits close) : ∀ x ∈ h ++ digits ++ [close], javascriptOnly x = false := by
  have hascii : ∀ x ∈ asciiMarks, javascriptOnly x = false := by
    have hall : asciiMarks.all (fun x => !javascriptOnly x) = true := by decide
    intro x hx
    simpa using List.all_eq_true.mp hall x hx
  apply dialectForm_chars hascii _ _ _ hf
  · intro lower hlower upper hupper x hletter
    rcases caseless_cases hletter with rfl | rfl | rfl
    · exact hascii _ hlower
    · exact hascii _ hupper
    · decide
  · intro x hspace
    simp [javascriptOnly, hspace]
  · intro x hdigit
    cases hs : isJsSpace x with
    | false => simp [javascriptOnly, hs]
    | true =>
      have hno := (jsSpace_plain hs).2
      rw [hdigit] at hno
      cases hno

theorem MarkerForm.chunk {form : Text → Text → Char → Prop} (hform : MarkerForm form) (hf : form h digits close) :
    ∃ c body, h ++ digits ++ [close] = c :: body ∧ isOpener c ∧ ∀ x ∈ body, ¬ isOpener x := by
  obtain ⟨c, cs, rfl, hopen, hcs, _⟩ := hform.head hf
  refine ⟨c, cs ++ digits ++ [close], rfl, hopen, fun x hx => ?_⟩
  simp only [List.mem_append, List.mem_singleton] at hx
  rcases hx with (hx | hx) | rfl
  · exact hcs x hx
  · exact digit_not_opener (hform.digits hf x hx)
  · exact (hform.close hf).2

end Forms

theorem serverIndices_marker {marker digits : Text} (hm : ServerMarker marker digits) :
    serverIndices marker = [some (decimalValue digits)] := by
  obtain ⟨h, close, hf, rfl⟩ := ServerMarker.iff.mp hm
  obtain ⟨c, body, hmarker, _, hfree⟩ := serverForm_marker.chunk hf
  obtain ⟨p, hp, hpm⟩ := hm
  rw [hmarker] at hpm ⊢
  rw [serverIndices_chunk c hfree]
  cases hfound : deviationPatterns.findSome? fun p => p (c :: body) with
  | none =>
    rw [List.findSome?_eq_none_iff] at hfound
    rw [hfound p hp] at hpm
    cases hpm
  | some m =>
    obtain ⟨p', hp', hpm'⟩ := List.exists_of_findSome?_eq_some hfound
    obtain rfl := citationMarkup.agree p' hp' p hp _ _ _ hpm' hpm
    rfl

theorem clientIndices_marker {h digits : Text} {close : Char} (hf : clientForm h digits close) :
    clientIndices (h ++ digits ++ [close]) = [toBinary64 (decimalValue digits)] := by
  obtain ⟨c, body, hmarker, _, hfree⟩ := clientForm_marker.chunk hf
  have hfound : markerSource (h ++ digits ++ [close]) = some (digits, h.length + digits.length + 1) :=
    (markerSource_formed _ _).mpr ⟨h, digits, close, [], hf, rfl, rfl⟩
  rw [hmarker] at hfound ⊢
  rw [clientIndices_chunk c hfree, hfound]
  rfl

theorem PlainMarkers.suffix {a b : Text} (h : PlainMarkers (a ++ b)) : PlainMarkers b := by
  intro before marker after heq
  exact h (a ++ before) marker after (by rw [heq]; simp)

theorem PlainMarkers.chunk {text : Text} (h : PlainMarkers text) :
    (markerSource text).map (fun m => toBinary64 (decimalValue m.1)) =
      (deviationPatterns.findSome? fun p => p text).map fun m => some (decimalValue m.1) := by
  have hcut : ∀ {head digits rest : Text} {close : Char}, text = head ++ digits ++ close :: rest →
      text = [] ++ (head ++ digits ++ [close]) ++ rest := fun htext => by rw [htext]; simp
  cases hfound : deviationPatterns.findSome? fun p => p text with
  | some m =>
    obtain ⟨head, digits, close, rest, hf, htext, rfl⟩ :=
      (serverForm_iff text m).mp (List.exists_of_findSome?_eq_some hfound)
    obtain ⟨hchars, hnumber⟩ := (h _ _ _ (hcut htext)).1 digits (ServerMarker.iff.mpr ⟨head, close, hf, rfl⟩)
    have hclient := (markerSource_formed text _).mpr ⟨head, digits, close, rest, clientForm_of_server hf hchars, htext, rfl⟩
    rw [hclient, Option.map_some, Option.map_some, (toBinary64_eq_self_iff _).mpr hnumber]
  | none =>
    cases hm : markerSource text with
    | none => rfl
    | some m =>
      exfalso
      obtain ⟨head, digits, close, rest, hf, htext, rfl⟩ := markerSource_form hm
      have hchars := (h _ _ _ (hcut htext)).2 (isCitationMarker_iff.mpr ⟨head, digits, close, hf, rfl⟩)
      obtain ⟨p, hp, hpm⟩ := (serverForm_iff text _).mpr
        ⟨head, digits, close, rest, serverForm_of_client hf hchars, htext, rfl⟩
      rw [List.findSome?_eq_none_iff] at hfound
      rw [hfound p hp] at hpm
      cases hpm

theorem serverIndices_free {text : Text} (hfree : ∀ x ∈ text, ¬ isOpener x) : serverIndices text = [] := by
  have hmarks : citationMarks text = [] := citationMarkup.marks_free hfree
  rw [serverIndices, hmarks]
  rfl

theorem agree_of_plain {text : Text} (h : PlainMarkers text) : Agree text := by
  induction text using opener_induction isOpener with
  | free text hfree => rw [Agree, clientIndices_free hfree, serverIndices_free hfree]
  | last a c body hopen hfree ih =>
    have hbefore : Agree a := ih h.of_append
    have hopener : AtOpener isOpener (c :: body) := hopen
    rw [Agree, clientIndices_append a hopener, serverIndices_append a hopener, hbefore, clientIndices_chunk c hfree,
      serverIndices_chunk c hfree, h.suffix.chunk]

theorem Agree.marker {before marker : Text} (hopen : AtOpener isOpener marker) (hbefore : Agree before)
    (hwith : Agree (before ++ marker)) : Agree marker := by
  rw [Agree, clientIndices_append before hopen, serverIndices_append before hopen, hbefore] at hwith
  exact List.append_cancel_left hwith

theorem plain_of_agree {text : Text} (h : ∀ k, Agree (text.take k)) : PlainMarkers text := by
  intro before marker after htext
  have hbefore : Agree before := by
    have htake := h before.length
    rwa [htext, List.append_assoc, List.take_left] at htake
  have hwith : Agree (before ++ marker) := by
    have htake := h (before ++ marker).length
    rwa [htext, List.take_left] at htake
  constructor
  · intro digits hserver
    obtain ⟨head, close, hf, rfl⟩ := ServerMarker.iff.mp hserver
    obtain ⟨c, body, hmarker, hopen, hfree⟩ := serverForm_marker.chunk hf
    have hagree : Agree (head ++ digits ++ [close]) := hbefore.marker (by rw [hmarker]; exact hopen) hwith
    have hone : clientIndices (head ++ digits ++ [close]) = [some (decimalValue digits)] :=
      hagree.trans (serverIndices_marker hserver)
    rw [hmarker, clientIndices_chunk c hfree, ← hmarker] at hone
    cases hm : markerSource (head ++ digits ++ [close]) with
    | none =>
      rw [hm] at hone
      cases hone
    | some m =>
      obtain ⟨head', digits', close', rest', hf', heq, rfl⟩ := markerSource_form hm
      obtain ⟨rfl, rfl, rfl, -⟩ := serverForm_marker.unique clientForm_marker hf hf' heq
      rw [hm] at hone
      exact ⟨clientForm_plain hf', (toBinary64_eq_self_iff _).mp (List.head_eq_of_cons_eq hone)⟩
  · intro hclient
    obtain ⟨head, digits, close, hf, rfl⟩ := isCitationMarker_iff.mp hclient
    obtain ⟨c, body, hmarker, hopen, hfree⟩ := clientForm_marker.chunk hf
    have hagree : Agree (head ++ digits ++ [close]) := hbefore.marker (by rw [hmarker]; exact hopen) hwith
    have hone : serverIndices (head ++ digits ++ [close]) = [toBinary64 (decimalValue digits)] :=
      hagree.symm.trans (clientIndices_marker hf)
    rw [hmarker, serverIndices_chunk c hfree, ← hmarker] at hone
    cases hm : deviationPatterns.findSome? fun p => p (head ++ digits ++ [close]) with
    | none =>
      rw [hm] at hone
      cases hone
    | some m =>
      obtain ⟨head', digits', close', rest', hf', heq, rfl⟩ :=
        (serverForm_iff _ _).mp (List.exists_of_findSome?_eq_some hm)
      obtain ⟨rfl, rfl, rfl, -⟩ := clientForm_marker.unique serverForm_marker hf hf' heq
      exact serverForm_plain hf'

/-- Client and server read the same indices from an answer whose markers are plain, and from an answer and all that
is streamed of it exactly then. -/
theorem citations_agree_iff (text : Text) :
    (PlainMarkers text → clientIndices text = serverIndices text) ∧
    ((∀ k, clientIndices (text.take k) = serverIndices (text.take k)) ↔ PlainMarkers text) := by
  refine ⟨agree_of_plain, plain_of_agree, fun h k => ?_⟩
  have hplain : PlainMarkers (text.take k ++ text.drop k) := by
    rw [List.take_append_drop]
    exact h
  exact agree_of_plain hplain.of_append

/-- `[S1]` with the Arabic digit one. -/
theorem citations_disagree : clientIndices ['[', 'S', Char.ofNat 0x661, ']'] ≠
    serverIndices ['[', 'S', Char.ofNat 0x661, ']'] := by
  decide

end ProRag
