import ProRag.Chat.Citations

/-!
# The markers of an answer

The four patterns of `normalize_citations` and the canonical one are a head, digits and a closing
bracket.  A text is marked with the same numbers however it goes on.
-/

namespace ProRag

open Framework

/-- `(` and `[`. -/
def isOpener (c : Char) : Prop := c = '(' ∨ c = '['

/-- The matches of a pattern: one of its heads, digits and the closing bracket. -/
def Shaped (p : Matcher Char Text) (head : Text → Prop) (close : Char) : Prop :=
  ∀ text m, p text = some m ↔ ∃ h digits rest, head h ∧ digits ≠ [] ∧ (∀ c ∈ digits, isPyDigit c = true) ∧
    text = h ++ digits ++ close :: rest ∧ m = (digits, h.length + digits.length + 1)

/-- A head opens a marker, and holds no digit. -/
def IsHead (h : Text) : Prop :=
  ∃ c cs, h = c :: cs ∧ isOpener c ∧ (∀ x ∈ cs, ¬ isOpener x) ∧ ∀ x ∈ h, isPyDigit x = false

theorem digit_not_opener {c : Char} (hc : isPyDigit c = true) : ¬ isOpener c := by
  intro h
  rcases h with rfl | rfl
  · revert hc
    decide
  · revert hc
    decide

/-- The run of a character class and the closing character, behind a head of some length. -/
def runThen (digit : Char → Bool) (close : Char) (head : Nat) (text : Text) : Option (Text × Nat) :=
  let digits := text.takeWhile digit
  match digits, text.dropWhile digit with
  | _ :: _, c :: _ => if c = close then some (digits, head + digits.length + 1) else none
  | _, _ => none

section

variable {digit : Char → Bool} {close : Char}

theorem takeWhile_run {digits : Text} (hdigits : ∀ c ∈ digits, digit c = true) (hclose : digit close = false)
    (rest : Text) : (digits ++ close :: rest).takeWhile digit = digits ∧
      (digits ++ close :: rest).dropWhile digit = close :: rest := by
  constructor
  · rw [List.takeWhile_append_of_pos hdigits]
    simp [hclose]
  · rw [List.dropWhile_append_of_pos hdigits]
    simp [hclose]

theorem runThen_iff (hclose : digit close = false) (n : Nat) (text : Text) (m : Text × Nat) :
    runThen digit close n text = some m ↔ ∃ digits rest, digits ≠ [] ∧ (∀ c ∈ digits, digit c = true) ∧
      text = digits ++ close :: rest ∧ m = (digits, n + digits.length + 1) := by
  constructor
  · intro h
    unfold runThen at h
    have hsplit : text.takeWhile digit ++ text.dropWhile digit = text := List.takeWhile_append_dropWhile
    have hall : ∀ c ∈ text.takeWhile digit, digit c = true := List.all_eq_true.mp List.all_takeWhile
    dsimp only at h
    split at h
    · rename_i c ds c' rest hdigits hrest
      split at h
      · rename_i hc
        subst hc
        refine ⟨text.takeWhile digit, rest, ?_, hall, ?_, (Option.some.inj h).symm⟩
        · rw [hdigits]
          exact List.cons_ne_nil _ _
        · rw [← hrest]
          exact hsplit.symm
      · cases h
    · cases h
  · rintro ⟨digits, rest, hne, hdigits, rfl, rfl⟩
    obtain ⟨htake, hdrop⟩ := takeWhile_run hdigits hclose rest
    unfold runThen
    rw [htake, hdrop]
    cases digits with
    | nil => exact absurd rfl hne
    | cons d ds => simp

end

/-- The forms of a marker: a head, digits and a closing character. -/
structure MarkerForm (form : Text → Text → Char → Prop) : Prop where
  head : ∀ {h digits close}, form h digits close → IsHead h
  digits_ne : ∀ {h digits close}, form h digits close → digits ≠ []
  digits : ∀ {h digits close}, form h digits close → ∀ c ∈ digits, isPyDigit c = true
  close : ∀ {h digits close}, form h digits close → isPyDigit close = false ∧ ¬ isOpener close

/-- A pattern matches the forms, and captures the digits. -/
def FormedBy (form : Text → Text → Char → Prop) (p : Matcher Char Text) : Prop :=
  ∀ text m, p text = some m ↔ ∃ h digits close rest, form h digits close ∧
    text = h ++ digits ++ close :: rest ∧ m = (digits, h.length + digits.length + 1)

theorem head_eq {h digits : Text} (hh : IsHead h) (hne : digits ≠ [])
    (hdigits : ∀ c ∈ digits, isPyDigit c = true) (rest : Text) :
    (h ++ digits ++ rest).takeWhile (fun c => !isPyDigit c) = h := by
  obtain ⟨_, _, _, _, _, hnodigit⟩ := hh
  have hall : ∀ x ∈ h, (!isPyDigit x) = true := by
    intro x hx
    simp [hnodigit x hx]
  rw [List.append_assoc, List.takeWhile_append_of_pos hall]
  cases digits with
  | nil => exact absurd rfl hne
  | cons d ds => simp [hdigits d List.mem_cons_self]

theorem MarkerForm.unique {form form' : Text → Text → Char → Prop} (hform : MarkerForm form) (hform' : MarkerForm form')
    {h digits rest h' digits' rest' : Text} {close close' : Char} (hf : form h digits close)
    (hf' : form' h' digits' close') (heq : h ++ digits ++ close :: rest = h' ++ digits' ++ close' :: rest') :
    h = h' ∧ digits = digits' ∧ close = close' ∧ rest = rest' := by
  have hheads : h = h' := by
    rw [← head_eq (hform.head hf) (hform.digits_ne hf) (hform.digits hf) (close :: rest), heq,
      head_eq (hform'.head hf') (hform'.digits_ne hf') (hform'.digits hf') (close' :: rest')]
  subst hheads
  rw [List.append_assoc, List.append_assoc] at heq
  have htail : digits ++ close :: rest = digits' ++ close' :: rest' := List.append_cancel_left heq
  have hrun := takeWhile_run (hform.digits hf) (hform.close hf).1 rest
  have hrun' := takeWhile_run (hform'.digits hf') (hform'.close hf').1 rest'
  have hdigits : digits = digits' := by rw [← hrun.1, htail, hrun'.1]
  have hclose : close :: rest = close' :: rest' := by rw [← hrun.2, htail, hrun'.2]
  exact ⟨rfl, hdigits, List.head_eq_of_cons_eq hclose, List.tail_eq_of_cons_eq hclose⟩

theorem FormedBy.agree {form form' : Text → Text → Char → Prop} {p p' : Matcher Char Text} (hp : FormedBy form p)
    (hp' : FormedBy form' p') (hform : MarkerForm form) (hform' : MarkerForm form') {text : Text} {m m' : Text × Nat}
    (hm : p text = some m) (hm' : p' text = some m') : m = m' := by
  obtain ⟨h, digits, close, rest, hf, htext, rfl⟩ := (hp text m).mp hm
  obtain ⟨h', digits', close', rest', hf', htext', rfl⟩ := (hp' text m').mp hm'
  obtain ⟨rfl, rfl, -, -⟩ := hform.unique hform' hf hf' (htext.symm.trans htext')
  rfl

theorem FormedBy.bracketed {form : Text → Text → Char → Prop} {p : Matcher Char Text} (hp : FormedBy form p)
    (hform : MarkerForm form) : Bracketed isOpener p where
  opens := by
    intro text m hm
    obtain ⟨h, digits, close, rest, hf, rfl, rfl⟩ := (hp text m).mp hm
    obtain ⟨c, cs, rfl, hopen, hcs, _⟩ := hform.head hf
    refine ⟨c, cs ++ digits ++ close :: rest, rfl, hopen, fun x hx => ?_⟩
    have htake : (cs ++ digits ++ close :: rest).take (cs.length + digits.length + 1) = cs ++ digits ++ [close] := by
      have hlen : cs.length + digits.length + 1 = (cs ++ digits ++ [close]).length := by
        simp only [List.length_append, List.length_cons, List.length_nil]
      have hsplit : cs ++ digits ++ close :: rest = (cs ++ digits ++ [close]) ++ rest := by simp
      rw [hlen, hsplit, List.take_left]
    have hx' : x ∈ cs ++ digits ++ [close] := by
      rw [← htake]
      have hlen : (c :: cs).length + digits.length + 1 - 1 = cs.length + digits.length + 1 := by
        simp only [List.length_cons]
        omega
      rw [hlen] at hx
      exact hx
    simp only [List.mem_append, List.mem_singleton] at hx'
    rcases hx' with (hx' | hx') | rfl
    · exact hcs x hx'
    · exact digit_not_opener (hform.digits hf x hx')
    · exact (hform.close hf).2
  bounds := by
    intro text m hm
    obtain ⟨h, digits, close, rest, _, rfl, rfl⟩ := (hp text m).mp hm
    simp only [List.length_append, List.length_cons]
    omega
  continues := by
    intro text m more hm
    obtain ⟨h, digits, close, rest, hf, rfl, rfl⟩ := (hp text m).mp hm
    exact (hp _ _).mpr ⟨h, digits, close, rest ++ more, hf, by simp, rfl⟩
  shrinks := by
    intro text rest m hm hlen
    obtain ⟨h, digits, close, rest', hf, htext, rfl⟩ := (hp _ m).mp hm
    have hpre : h ++ digits ++ [close] <+: text := by
      have hlong : h ++ digits ++ [close] <+: text ++ rest := ⟨rest', by rw [htext]; simp⟩
      refine List.prefix_of_prefix_length_le hlong (List.prefix_append text rest) ?_
      simp only [List.length_append, List.length_cons, List.length_nil]
      exact hlen
    obtain ⟨tail, rfl⟩ := hpre
    exact (hp _ _).mpr ⟨h, digits, close, tail, hf, by simp, rfl⟩

def shapeForm (head : Text → Prop) (close : Char) (h digits : Text) (c : Char) : Prop :=
  head h ∧ digits ≠ [] ∧ (∀ c ∈ digits, isPyDigit c = true) ∧ c = close

theorem shapeForm_marker {head : Text → Prop} {close : Char} (hhead : ∀ h, head h → IsHead h)
    (hclose : isPyDigit close = false ∧ ¬ isOpener close) : MarkerForm (shapeForm head close) where
  head := fun hf => hhead _ hf.1
  digits_ne := fun hf => hf.2.1
  digits := fun hf => hf.2.2.1
  close := fun hf => hf.2.2.2 ▸ hclose

theorem Shaped.formed {p : Matcher Char Text} {head : Text → Prop} {close : Char} (hp : Shaped p head close) :
    FormedBy (shapeForm head close) p := by
  intro text m
  rw [hp text m]
  constructor
  · intro ⟨h, digits, rest, hh, hne, hdigits, htext, hm⟩
    exact ⟨h, digits, close, rest, ⟨hh, hne, hdigits, rfl⟩, htext, hm⟩
  · intro ⟨h, digits, c, rest, ⟨hh, hne, hdigits, hc⟩, htext, hm⟩
    subst hc
    exact ⟨h, digits, rest, hh, hne, hdigits, htext, hm⟩

theorem space_not_digit {c : Char} (hc : isPySpace c = true) : isPyDigit c = false := by
  have hcodes : ∀ z ∈ decimalZeros, ∀ i ∈ List.range 10, isPySpace (Char.ofNat (z + i)) = false := by decide +kernel
  cases hd : isPyDigit c with
  | false => rfl
  | true =>
    exfalso
    unfold isPyDigit digitValue at hd
    rw [Option.isSome_map] at hd
    obtain ⟨z, hz⟩ := Option.isSome_iff_exists.mp hd
    have hmem : z ∈ decimalZeros := List.mem_of_find?_eq_some hz
    have hrange := List.find?_some hz
    simp only [Bool.and_eq_true, decide_eq_true_eq] at hrange
    have hcode := hcodes z hmem (c.toNat - z) (List.mem_range.mpr (by omega))
    have hsum : z + (c.toNat - z) = c.toNat := by omega
    rw [hsum, Char.ofNat_toNat, hc] at hcode
    cases hcode

theorem caseless_cases {lower upper c : Char} (h : caseless lower upper c = true) :
    c = lower ∨ c = upper ∨ c = Char.ofNat 0x17f := by
  unfold caseless at h
  simp only [Bool.or_eq_true, Bool.and_eq_true, decide_eq_true_eq] at h
  rcases h with (h | h) | ⟨_, h⟩
  · exact Or.inl h
  · exact Or.inr (Or.inl h)
  · exact Or.inr (Or.inr h)

/-- The letters of `source`, in both cases. -/
def markerLetters : List Char := "sSoOuUrRcCeE".toList ++ [Char.ofNat 0x17f]

theorem letter_plain {c : Char} (hc : c ∈ markerLetters) : ¬ isOpener c ∧ isPyDigit c = false := by
  have hall : markerLetters.all (fun x => decide (x ≠ '(' ∧ x ≠ '[' ∧ isPyDigit x = false)) = true := by decide
  obtain ⟨h1, h2, h3⟩ := of_decide_eq_true (List.all_eq_true.mp hall c hc)
  exact ⟨fun h => h.elim h1 h2, h3⟩

theorem caseless_letter {lower upper c : Char} (hlower : lower ∈ markerLetters) (hupper : upper ∈ markerLetters)
    (h : caseless lower upper c = true) : c ∈ markerLetters := by
  rcases caseless_cases h with rfl | rfl | rfl
  · exact hlower
  · exact hupper
  · decide

def sHead (opener : Char) (h : Text) : Prop := ∃ s, caseless 's' 'S' s = true ∧ h = [opener, s]

def sourceHead (h : Text) : Prop :=
  ∃ s o u r c e spaces, caseless 's' 'S' s = true ∧ caseless 'o' 'O' o = true ∧ caseless 'u' 'U' u = true ∧
    caseless 'r' 'R' r = true ∧ caseless 'c' 'C' c = true ∧ caseless 'e' 'E' e = true ∧ spaces ≠ [] ∧
    (∀ x ∈ spaces, isPySpace x = true) ∧ h = '[' :: s :: o :: u :: r :: c :: e :: spaces

theorem isHead_of_plain {c : Char} {cs : Text} (hopen : isOpener c) (hcs : ∀ x ∈ cs, ¬ isOpener x ∧ isPyDigit x = false) :
    IsHead (c :: cs) := by
  refine ⟨c, cs, rfl, hopen, fun x hx => (hcs x hx).1, fun x hx => ?_⟩
  rcases List.mem_cons.mp hx with rfl | hx
  · rcases hopen with rfl | rfl
    · decide
    · decide
  · exact (hcs x hx).2

theorem sHead_isHead {opener : Char} (hopen : isOpener opener) {h : Text} (hh : sHead opener h) : IsHead h := by
  obtain ⟨s, hs, rfl⟩ := hh
  refine isHead_of_plain hopen fun x hx => ?_
  obtain rfl : x = s := List.mem_singleton.mp hx
  exact letter_plain (caseless_letter (by decide) (by decide) hs)

theorem space_plain {c : Char} (hc : isPySpace c = true) : ¬ isOpener c ∧ isPyDigit c = false := by
  refine ⟨fun h => ?_, space_not_digit hc⟩
  rcases h with rfl | rfl
  · revert hc
    decide
  · revert hc
    decide

theorem sourceHead_isHead {h : Text} (hh : sourceHead h) : IsHead h := by
  obtain ⟨s, o, u, r, c, e, spaces, hs, ho, hu, hr, hc, he, _, hspaces, rfl⟩ := hh
  refine isHead_of_plain (Or.inr rfl) fun x hx => ?_
  simp only [List.mem_cons] at hx
  rcases hx with rfl | rfl | rfl | rfl | rfl | rfl | hx
  · exact letter_plain (caseless_letter (by decide) (by decide) hs)
  · exact letter_plain (caseless_letter (by decide) (by decide) ho)
  · exact letter_plain (caseless_letter (by decide) (by decide) hu)
  · exact letter_plain (caseless_letter (by decide) (by decide) hr)
  · exact letter_plain (caseless_letter (by decide) (by decide) hc)
  · exact letter_plain (caseless_letter (by decide) (by decide) he)
  · exact space_plain (hspaces x hx)

theorem bareHead_isHead {h : Text} (hh : h = ['[']) : IsHead h := by
  subst hh
  exact isHead_of_plain (Or.inr rfl) fun x hx => absurd hx List.not_mem_nil

theorem canonicalHead_isHead {h : Text} (hh : h = ['[', 'S']) : IsHead h :=
  sHead_isHead (Or.inr rfl) ⟨'S', by decide, hh⟩

section

variable {text : Text} {m : Text × Nat}

theorem shape_of_digitsThen {close : Char} (hclose : isPyDigit close = false) (h rest : Text) :
    digitsThen close h.length rest = some m ↔ ∃ digits rest', digits ≠ [] ∧ (∀ c ∈ digits, isPyDigit c = true) ∧
      h ++ rest = h ++ digits ++ close :: rest' ∧ m = (digits, h.length + digits.length + 1) := by
  rw [show digitsThen close h.length rest = runThen isPyDigit close h.length rest from rfl, runThen_iff hclose]
  simp only [List.append_assoc, List.append_cancel_left_eq]

theorem parenMarker_shaped : Shaped parenMarker (sHead '(') ')' := by
  intro text m
  constructor
  · intro hm
    unfold parenMarker at hm
    split at hm
    · rename_i s rest
      split at hm
      · rename_i hs
        obtain ⟨digits, rest', h⟩ := (shape_of_digitsThen (by decide) ['(', s] rest).mp hm
        exact ⟨['(', s], digits, rest', ⟨s, hs, rfl⟩, h⟩
      · cases hm
    · cases hm
  · intro h
    obtain ⟨h, digits, rest, ⟨s, hs, rfl⟩, hrest⟩ := h
    obtain ⟨hne, hdigits, rfl, rfl⟩ := hrest
    show (if caseless 's' 'S' s then digitsThen ')' 2 (digits ++ ')' :: rest) else none) = _
    rw [if_pos hs]
    exact (shape_of_digitsThen (by decide) ['(', s] _).mpr ⟨digits, rest, hne, hdigits, rfl, rfl⟩

theorem squareMarker_shaped : Shaped squareMarker (sHead '[') ']' := by
  intro text m
  constructor
  · intro hm
    unfold squareMarker at hm
    split at hm
    · rename_i s rest
      split at hm
      · rename_i hs
        obtain ⟨digits, rest', h⟩ := (shape_of_digitsThen (by decide) ['[', s] rest).mp hm
        exact ⟨['[', s], digits, rest', ⟨s, hs, rfl⟩, h⟩
      · cases hm
    · cases hm
  · intro h
    obtain ⟨h, digits, rest, ⟨s, hs, rfl⟩, hrest⟩ := h
    obtain ⟨hne, hdigits, rfl, rfl⟩ := hrest
    show (if caseless 's' 'S' s then digitsThen ']' 2 (digits ++ ']' :: rest) else none) = _
    rw [if_pos hs]
    exact (shape_of_digitsThen (by decide) ['[', s] _).mpr ⟨digits, rest, hne, hdigits, rfl, rfl⟩

theorem bareMarker_shaped : Shaped bareMarker (fun h => h = ['[']) ']' := by
  intro text m
  constructor
  · intro hm
    unfold bareMarker at hm
    split at hm
    · rename_i rest
      obtain ⟨digits, rest', h⟩ := (shape_of_digitsThen (by decide) ['['] rest).mp hm
      exact ⟨['['], digits, rest', rfl, h⟩
    · cases hm
  · intro h
    obtain ⟨h, digits, rest, rfl, hne, hdigits, rfl, rfl⟩ := h
    exact (shape_of_digitsThen (by decide) ['['] _).mpr ⟨digits, rest, hne, hdigits, rfl, rfl⟩

theorem canonicalMarker_shaped : Shaped canonicalMarker (fun h => h = ['[', 'S']) ']' := by
  intro text m
  constructor
  · intro hm
    unfold canonicalMarker at hm
    split at hm
    · rename_i rest
      obtain ⟨digits, rest', h⟩ := (shape_of_digitsThen (by decide) ['[', 'S'] rest).mp hm
      exact ⟨['[', 'S'], digits, rest', rfl, h⟩
    · cases hm
  · intro h
    obtain ⟨h, digits, rest, rfl, hne, hdigits, rfl, rfl⟩ := h
    exact (shape_of_digitsThen (by decide) ['[', 'S'] _).mpr ⟨digits, rest, hne, hdigits, rfl, rfl⟩

theorem sourceMarker_shaped : Shaped sourceMarker sourceHead ']' := by
  intro text m
  constructor
  · intro hm
    unfold sourceMarker at hm
    split at hm
    · rename_i s o u r c e rest
      split at hm
      · rename_i hletters
        simp only [Bool.and_eq_true, Bool.not_eq_true', List.isEmpty_eq_false_iff] at hletters
        obtain ⟨⟨⟨⟨⟨⟨hs, ho⟩, hu⟩, hr⟩, hc⟩, he⟩, hspaces⟩ := hletters
        have hlen : 7 + (rest.takeWhile isPySpace).length =
            ('[' :: s :: o :: u :: r :: c :: e :: rest.takeWhile isPySpace).length := by
          simp only [List.length_cons]
          omega
        rw [hlen] at hm
        obtain ⟨digits, rest', hne, hdigits, htext, rfl⟩ := (shape_of_digitsThen (by decide) _ _).mp hm
        refine ⟨_, digits, rest', ⟨s, o, u, r, c, e, _, hs, ho, hu, hr, hc, he, hspaces,
          List.all_eq_true.mp List.all_takeWhile, rfl⟩, hne, hdigits, ?_, rfl⟩
        rw [← htext]
        simp [List.takeWhile_append_dropWhile]
      · cases hm
    · cases hm
  · intro h
    obtain ⟨h, digits, rest, ⟨s, o, u, r, c, e, spaces, hs, ho, hu, hr, hc, he, hne', hspaces, rfl⟩, hrest⟩ := h
    obtain ⟨hne, hdigits, rfl, rfl⟩ := hrest
    have hdigit : ∀ d ds, digits = d :: ds → isPySpace d = false := by
      intro d ds hd
      cases hspace : isPySpace d with
      | false => rfl
      | true =>
        have hno := space_not_digit hspace
        rw [hdigits d (by rw [hd]; exact List.mem_cons_self)] at hno
        cases hno
    have htake : (spaces ++ (digits ++ ']' :: rest)).takeWhile isPySpace = spaces := by
      rw [List.takeWhile_append_of_pos hspaces]
      cases digits with
      | nil => exact absurd rfl hne
      | cons d ds => simp [hdigit d ds rfl]
    have hdrop : (spaces ++ (digits ++ ']' :: rest)).dropWhile isPySpace = digits ++ ']' :: rest := by
      rw [List.dropWhile_append_of_pos hspaces]
      cases digits with
      | nil => exact absurd rfl hne
      | cons d ds => simp [hdigit d ds rfl]
    have htext : '[' :: s :: o :: u :: r :: c :: e :: spaces ++ digits ++ ']' :: rest =
        '[' :: s :: o :: u :: r :: c :: e :: (spaces ++ (digits ++ ']' :: rest)) := by
      simp
    have hlen : 7 + spaces.length = ('[' :: s :: o :: u :: r :: c :: e :: spaces).length := by
      simp only [List.length_cons]
      omega
    rw [htext]
    unfold sourceMarker
    simp only [hs, ho, hu, hr, hc, he, htake, hdrop, Bool.true_and, Bool.not_eq_true', List.isEmpty_eq_false_iff, hne',
      ↓reduceIte, not_false_eq_true, ne_eq]
    rw [hlen]
    exact (shape_of_digitsThen (by decide) _ _).mpr ⟨digits, rest, hne, hdigits, by simp, rfl⟩

end

theorem deviation_formed {p : Matcher Char Text} (hp : p ∈ deviationPatterns) :
    ∃ form, FormedBy form p ∧ MarkerForm form := by
  have hparen : isPyDigit ')' = false ∧ ¬ isOpener ')' := ⟨by decide, by unfold isOpener; decide⟩
  have hsquare : isPyDigit ']' = false ∧ ¬ isOpener ']' := ⟨by decide, by unfold isOpener; decide⟩
  simp only [deviationPatterns, List.mem_cons, List.not_mem_nil, or_false] at hp
  rcases hp with rfl | rfl | rfl | rfl
  · exact ⟨_, parenMarker_shaped.formed, shapeForm_marker (fun h hh => sHead_isHead (Or.inl rfl) hh) hparen⟩
  · exact ⟨_, squareMarker_shaped.formed, shapeForm_marker (fun h hh => sHead_isHead (Or.inr rfl) hh) hsquare⟩
  · exact ⟨_, sourceMarker_shaped.formed, shapeForm_marker (fun h hh => sourceHead_isHead hh) hsquare⟩
  · exact ⟨_, bareMarker_shaped.formed, shapeForm_marker (fun h hh => bareHead_isHead hh) hsquare⟩

theorem canonical_form : MarkerForm (shapeForm (fun h => h = ['[', 'S']) ']') :=
  shapeForm_marker (fun h hh => canonicalHead_isHead hh) ⟨by decide, by unfold isOpener; decide⟩

theorem deviation_captures {p : Matcher Char Text} (hp : p ∈ deviationPatterns) {text : Text} {m : Text × Nat}
    (hm : p text = some m) : m.1 ≠ [] ∧ ∀ c ∈ m.1, isPyDigit c = true := by
  obtain ⟨form, hformed, hform⟩ := deviation_formed hp
  obtain ⟨h, digits, close, rest, hf, _, rfl⟩ := (hformed text m).mp hm
  exact ⟨hform.digits_ne hf, hform.digits hf⟩

/-- The markers of `normalize_citations`. -/
def citationMarkup : Markup Char Text where
  opener := isOpener
  patterns := deviationPatterns
  canonical := canonicalMarker
  render := canonicalForm
  bracketed := by
    intro p hp
    obtain ⟨form, hformed, hform⟩ := deviation_formed hp
    exact hformed.bracketed hform
  agree := by
    intro p hp p' hp' text m m' hm hm'
    obtain ⟨form, hformed, hform⟩ := deviation_formed hp
    obtain ⟨form', hformed', hform'⟩ := deviation_formed hp'
    exact hformed.agree hformed' hform hform' hm hm'
  canonical_bracketed := canonicalMarker_shaped.formed.bracketed canonical_form
  canonical_matches := by
    intro text m hm
    obtain ⟨h, digits, rest, rfl, hrest⟩ := (canonicalMarker_shaped text m).mp hm
    exact ⟨squareMarker, by simp [deviationPatterns],
      (squareMarker_shaped text m).mpr ⟨_, digits, rest, ⟨'S', by decide, rfl⟩, hrest⟩⟩
  render_opens := by
    intro p hp text m hm
    obtain ⟨hne, hdigits⟩ := deviation_captures hp hm
    refine ⟨'[', 'S' :: (m.1 ++ [']']), rfl, Or.inr rfl, fun y hy => ?_⟩
    simp only [List.mem_cons, List.mem_append, List.not_mem_nil, or_false] at hy
    rcases hy with rfl | hy | rfl
    · exact (letter_plain (by decide)).1
    · exact digit_not_opener (hdigits y hy)
    · unfold isOpener
      decide
  render_canonical := by
    intro p hp text m hm tail
    obtain ⟨hne, hdigits⟩ := deviation_captures hp hm
    refine (canonicalMarker_shaped _ _).mpr ⟨['[', 'S'], m.1, tail, rfl, hne, hdigits, ?_, ?_⟩
    · simp [canonicalForm]
    · simp only [canonicalForm, List.length_cons, List.length_append, List.length_nil, Prod.mk.injEq, true_and]
      omega

/-- A longer text is normalized to another one: a marker behind `[S` is rendered as it stands. -/
theorem normalizeCitations_longer {text more : Text} (h : normalizeCitations (text ++ more) = normalizeCitations text) :
    more = [] := by
  refine citationMarkup.normalize_longer ?_ h
  intro p hp c body b m hm hlong tail heq
  obtain ⟨form, hformed, hform⟩ := deviation_formed hp
  obtain ⟨h, digits, close, rest, hf, htext, rfl⟩ := (hformed _ m).mp hm
  have hrendered : canonicalForm digits ++ tail = c :: body := heq
  have hwhole : h ++ digits ++ close :: rest = ['[', 'S'] ++ digits ++ ']' :: (tail ++ b) := by
    rw [← htext, ← List.cons_append, ← hrendered]
    simp [canonicalForm]
  have hhead : h = ['[', 'S'] := by
    rw [← head_eq (hform.head hf) (hform.digits_ne hf) (hform.digits hf) (close :: rest), hwhole,
      head_eq (canonicalHead_isHead rfl) (hform.digits_ne hf) (hform.digits hf)]
  have hlength := congrArg List.length hrendered
  simp only [canonicalForm, List.length_append, List.length_cons, List.length_nil] at hlength
  simp only [hhead, List.length_cons, List.length_nil] at hlong
  omega

/-- The digits of the markers of a text, in order. -/
def citationMarks (text : Text) : List Text := captures canonicalMarker (normalizeCitations text)

theorem citationMarks_prefix (text more : Text) : citationMarks text <+: citationMarks (text ++ more) :=
  citationMarkup.marks_prefix text more

end ProRag
