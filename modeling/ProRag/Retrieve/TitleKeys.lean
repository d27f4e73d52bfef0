import ProRag.Chat.Markers
import ProRag.Retrieve.Titles

/-!
# Titles of a word and a number

What the normal form keeps of them, and when the crop takes two of them for printings of one document.
-/

namespace ProRag

open Framework Regex

variable {tables : CharTables} {t u w d : List Char} {s : Char}

/-! ## The rest of the normal form -/

theorem CharTables.word_not_bracket (tables : CharTables) {c : Char} (h : tables.isWord c) : c ∉ ['(', ')', '[', ']'] := by
  intro hc
  have hmark : c ∈ "-.()[]/".toList := by
    simp only [List.mem_cons, List.not_mem_nil, or_false] at hc
    rcases hc with rfl | rfl | rfl | rfl <;> decide
  rw [tables.mark_not_word c hmark] at h
  cases h

theorem dropBrackets_plain (h : ∀ c ∈ t, c ∉ ['(', ')', '[', ']']) : dropBrackets t = t := by
  unfold dropBrackets
  induction t with
  | nil => rfl
  | cons c t ih => rw [List.map_cons, if_neg (h c List.mem_cons_self), ih fun x hx => h x (List.mem_cons_of_mem _ hx)]

theorem joinSpaces_word {inSpace : Bool} (hne : u ≠ []) (hu : ∀ c ∈ u, isPySpace c = false) :
    joinSpaces inSpace (u ++ t) = u ++ joinSpaces false t := by
  induction u generalizing inSpace with
  | nil => exact absurd rfl hne
  | cons c u ih =>
    have hc := hu c List.mem_cons_self
    cases u with
    | nil => simp [joinSpaces, hc]
    | cons a u =>
      have hrest := @ih false (List.cons_ne_nil a u) fun x hx => hu x (List.mem_cons_of_mem _ hx)
      rw [List.cons_append, joinSpaces, hc, if_neg Bool.false_ne_true, hrest]
      rfl

theorem stripSpaces_plain (hhead : ∀ c ∈ t.head?, isPySpace c = false) (hlast : ∀ c ∈ t.getLast?, isPySpace c = false) :
    stripSpaces t = t := by
  have hdrop : ∀ l : List Char, (∀ c ∈ l.head?, isPySpace c = false) → l.dropWhile isPySpace = l := by
    intro l hl
    cases l with
    | nil => rfl
    | cons c l => simp [hl c rfl]
  rw [stripSpaces, hdrop t hhead, hdrop t.reverse (by simpa using hlast), List.reverse_reverse]

theorem finalSigma_sep (hs : s ∈ " -".toList) (before after rest : List Char) :
    isFinalSigma tables before (after ++ s :: rest) = isFinalSigma tables before after := by
  obtain ⟨-, hcased, hignorable⟩ := tables.lower_sep s hs
  have hafter : ((after ++ s :: rest).dropWhile tables.isCaseIgnorable).head?.any tables.isCased =
      (after.dropWhile tables.isCaseIgnorable).head?.any tables.isCased := by
    induction after with
    | nil => simp [hcased, hignorable]
    | cons c after ih =>
      rw [List.cons_append, List.dropWhile_cons, List.dropWhile_cons]
      split
      · exact ih
      · rfl
  rw [isFinalSigma, isFinalSigma, hafter]

theorem lowerFrom_sep (hs : s ∈ " -".toList) (before rest : List Char) :
    lowerFrom tables before (w ++ s :: rest) = lowerFrom tables before w ++ lowerFrom tables (w.reverse ++ before) (s :: rest) := by
  induction w generalizing before with
  | nil => rfl
  | cons c w ih => simp [lowerFrom, lowerChar, finalSigma_sep hs, ih]

theorem lowerFrom_number (hd : ∀ c ∈ d, isPyDigit c) (before : List Char) : lowerFrom tables before d = d := by
  induction d generalizing before with
  | nil => rfl
  | cons c d ih =>
    obtain ⟨hsigma, hlower⟩ := tables.lower_digit c (hd c List.mem_cons_self)
    simp [lowerFrom, lowerChar, hsigma, hlower, ih fun x hx => hd x (List.mem_cons_of_mem _ hx)]

theorem lower_kept (hs : s ∈ " -".toList) (hd : ∀ c ∈ d, isPyDigit c) :
    lower tables (w ++ s :: d) = lower tables w ++ s :: d := by
  have hsigma : s ≠ 'Σ' := by
    have hs : s = ' ' ∨ s = '-' := by simpa using hs
    rcases hs with rfl | rfl <;> decide
  rw [lower, lowerFrom_sep hs]
  simp [lower, lowerFrom, lowerChar, hsigma, (tables.lower_sep s hs).1, lowerFrom_number hd]

/-- A letter is at least as long in lower case. -/
def lowerWidth (tables : CharTables) (c : Char) : Nat :=
  if c = 'Σ' then 1 else (tables.toLower c).length

theorem lowerWidth_pos (c : Char) : 0 < lowerWidth tables c := by
  unfold lowerWidth
  split
  · decide
  · exact List.length_pos_iff.mpr (tables.lower_ne_nil c)

theorem lowerChar_length (before after : List Char) (c : Char) :
    (lowerChar tables before c after).length = lowerWidth tables c := by
  unfold lowerChar lowerWidth
  split <;> rfl

theorem lowerFrom_shorter (h : u ≠ []) (before : List Char) :
    (lowerFrom tables before t).length < (lowerFrom tables before (t ++ u)).length := by
  induction t generalizing before with
  | nil =>
    cases u with
    | nil => exact absurd rfl h
    | cons c u =>
      have hc : 0 < lowerWidth tables c := lowerWidth_pos c
      simp only [List.nil_append, lowerFrom, List.length_nil, List.length_append, lowerChar_length]
      omega
  | cons c t ih =>
    have hrest := ih (c :: before)
    simp only [List.cons_append, lowerFrom, List.length_append, lowerChar_length]
    omega

theorem lower_not_space (hw : ∀ c ∈ w, tables.isAlpha c) (before : List Char) : ' ' ∉ lowerFrom tables before w := by
  induction w generalizing before with
  | nil => simp [lowerFrom]
  | cons c w ih =>
    have hc : ' ' ∉ lowerChar tables before c w := by
      unfold lowerChar
      split
      · split <;> decide
      · exact tables.lower_not_space c (hw c List.mem_cons_self)
    simp [lowerFrom, hc, ih fun x hx => hw x (List.mem_cons_of_mem _ hx)]

theorem joinSpaces_kept (hw : w ≠ []) (hwspace : ∀ c ∈ w, isPySpace c = false) (hs : s ∈ " -".toList)
    (hd : d ≠ []) (hdspace : ∀ c ∈ d, isPySpace c = false) : joinSpaces false (w ++ s :: d) = w ++ s :: d := by
  have hnumber : ∀ inSpace, joinSpaces inSpace d = d := by
    intro inSpace
    have hjoin : joinSpaces inSpace (d ++ []) = d ++ joinSpaces false [] := joinSpaces_word hd hdspace
    rw [List.append_nil] at hjoin
    rw [hjoin, joinSpaces, List.append_nil]
  have hsep : s = ' ' ∨ s = '-' := by simpa using hs
  rw [joinSpaces_word hw hwspace]
  rcases hsep with rfl | rfl
  · have hspace : isPySpace ' ' = true := by decide
    simp [joinSpaces, hspace, hnumber]
  · have hspace : isPySpace '-' = false := by decide
    simp [joinSpaces, hspace, hnumber]

theorem numeric_ne_nil (hd : Numeric d) : d ≠ [] := by
  rintro rfl
  exact absurd hd.1.1 (by decide)

theorem normalizeTitle_eq (hne : t ≠ []) : (normalizeTitle tables (String.ofList t)).toList =
    lower tables (stripSpaces (joinSpaces false (dropBrackets ((revNoise tables).erase t)))) := by
  have htitle : String.ofList t ≠ "" := by
    intro h
    apply hne
    rw [← String.toList_ofList (l := t), h]
    rfl
  simp only [normalizeTitle, if_neg htitle, String.toList_ofList]

theorem normalizeTitle_kept (hw : Alphabetic tables w) (hs : s ∈ " -".toList) (hd : Numeric d) (hkeeps : KeepsWord w) :
    (normalizeTitle tables (String.ofList (w ++ s :: d))).toList = lower tables w ++ s :: d := by
  have hwspace : ∀ c ∈ w, isPySpace c = false := fun c hc => tables.alpha_not_space (hw.2 c hc)
  have hdspace : ∀ c ∈ d, isPySpace c = false := fun c hc => tables.digit_not_space (hd.2 c hc)
  have hplain : ∀ c ∈ w ++ s :: d, c ∉ ['(', ')', '[', ']'] := by
    intro c hc
    rcases List.mem_append.mp hc with hc | hc
    · exact tables.word_not_bracket (tables.alpha_word c (hw.2 c hc))
    · rcases List.mem_cons.mp hc with rfl | hc
      · have hsep : c = ' ' ∨ c = '-' := by simpa using hs
        rcases hsep with rfl | rfl <;> decide
      · exact tables.word_not_bracket (tables.digit_word c (hd.2 c hc))
  have hstrip : stripSpaces (w ++ s :: d) = w ++ s :: d := by
    apply stripSpaces_plain
    · intro c hc
      rw [List.head?_append_of_ne_nil _ hw.1] at hc
      exact hwspace c (List.mem_of_mem_head? hc)
    · intro c hc
      rw [List.getLast?_append_of_ne_nil _ (List.cons_ne_nil _ _), List.getLast?_cons_of_ne_nil (numeric_ne_nil hd)] at hc
      exact hdspace c (List.mem_of_mem_getLast? hc)
  rw [normalizeTitle_eq (by simp), erase_kept hw hs hd hkeeps, dropBrackets_plain hplain,
    joinSpaces_kept hw.1 hwspace hs (numeric_ne_nil hd) hdspace, hstrip, lower_kept hs hd.2]

theorem beforeMonth_start (w : List Char) : beforeMonth w <+: w := by
  rcases beforeMonth_split w with ⟨hsame, _⟩ | ⟨u, hsplit, _, _⟩
  · exact ⟨[], by rw [hsame, List.append_nil]⟩
  · exact ⟨u, hsplit.symm⟩

theorem wordStem_letters (hw : Alphabetic tables w) : ∀ c ∈ wordStem w, tables.isAlpha c := by
  intro c hc
  unfold wordStem at hc
  split at hc
  · cases hc
  · exact hw.2 c ((beforeMonth_start w).subset hc)

theorem normalizeTitle_stem (hw : Alphabetic tables w) (hd : Numeric d) (h : ¬KeepsWord w) :
    (normalizeTitle tables (String.ofList (w ++ ' ' :: d))).toList = lower tables (wordStem w) := by
  have hletters := wordStem_letters hw
  have hspace : ∀ c ∈ wordStem w, isPySpace c = false := fun c hc => tables.alpha_not_space (hletters c hc)
  have hplain : ∀ c ∈ wordStem w, c ∉ ['(', ')', '[', ']'] :=
    fun c hc => tables.word_not_bracket (tables.alpha_word c (hletters c hc))
  have hjoin : joinSpaces false (wordStem w) = wordStem w := by
    by_cases hne : wordStem w = []
    · rw [hne, joinSpaces]
    · have hword : joinSpaces false (wordStem w ++ []) = wordStem w ++ joinSpaces false [] := joinSpaces_word hne hspace
      rwa [List.append_nil, joinSpaces, List.append_nil] at hword
  have hstrip : stripSpaces (wordStem w) = wordStem w :=
    stripSpaces_plain (fun c hc => hspace c (List.mem_of_mem_head? hc)) fun c hc => hspace c (List.mem_of_mem_getLast? hc)
  rw [normalizeTitle_eq (by simp), erase_stem hw hd h, dropBrackets_plain hplain, hjoin, hstrip]

theorem wordStem_proper (hw : Alphabetic tables w) (h : ¬KeepsWord w) : ∃ u, w = wordStem w ++ u ∧ u ≠ [] := by
  unfold wordStem
  split
  · exact ⟨w, rfl, hw.1⟩
  · rename_i hword
    rw [Bool.or_eq_true, not_or, Bool.not_eq_true, Bool.not_eq_true] at hword
    rcases beforeMonth_split w with ⟨_, hnone⟩ | ⟨u, hsplit, hu, _⟩
    · exact absurd ⟨hword.1, hword.2, hnone⟩ h
    · exact ⟨u, hsplit, monthWord_ne_nil hu⟩

theorem wholeWord_iff (hw : Alphabetic tables w) (hd : Numeric d) :
    (IsWholeWord tables (lower tables w) (normalizeTitle tables (String.ofList (w ++ ' ' :: d))).toList ∧
      IsWholeWord tables (lower tables w) (normalizeTitle tables (String.ofList (w ++ '-' :: d))).toList) ↔ KeepsWord w := by
  constructor
  · intro h
    by_contra hloses
    obtain ⟨a, c, hsplit, _, _⟩ := h.1
    obtain ⟨u, hword, hne⟩ := wordStem_proper hw hloses
    have hshort : (lower tables (wordStem w)).length < (lower tables (wordStem w ++ u)).length := lowerFrom_shorter hne []
    rw [normalizeTitle_stem hw hd hloses] at hsplit
    rw [← hword, hsplit, List.length_append, List.length_append] at hshort
    omega
  · intro hkeeps
    have hwhole : ∀ s ∈ " -".toList,
        IsWholeWord tables (lower tables w) (normalizeTitle tables (String.ofList (w ++ s :: d))).toList := by
      intro s hs
      rw [normalizeTitle_kept hw hs hd hkeeps]
      exact ⟨[], s :: d, by simp, rfl, by simpa using tables.sep_not_word hs⟩
    exact ⟨hwhole ' ' (by decide), hwhole '-' (by decide)⟩

theorem sameNorm_iff {w' d' : List Char} (hw : Alphabetic tables w) (hd : Numeric d) (hw' : Alphabetic tables w') (hd' : Numeric d')
    (hdiffer : lower tables w ≠ lower tables w') :
    normalizeTitle tables (String.ofList (w ++ ' ' :: d)) = normalizeTitle tables (String.ofList (w' ++ ' ' :: d')) ↔
      ¬KeepsWord w ∧ ¬KeepsWord w' ∧ lower tables (wordStem w) = lower tables (wordStem w') := by
  have hsep : ' ' ∈ " -".toList := by decide
  have hstem : ∀ {w : List Char}, Alphabetic tables w → ' ' ∉ lower tables (wordStem w) :=
    fun hw => lower_not_space (wordStem_letters hw) []
  rw [← String.toList_inj]
  by_cases hkeeps : KeepsWord w
  · by_cases hkeeps' : KeepsWord w'
    · rw [normalizeTitle_kept hw hsep hd hkeeps, normalizeTitle_kept hw' hsep hd' hkeeps']
      apply iff_of_false _ (by simp [hkeeps])
      intro h
      have hbefore := congrArg (List.takeWhile fun c => c ≠ ' ') h
      have hplain : ∀ {w : List Char}, Alphabetic tables w → ∀ c ∈ lower tables w, decide (c ≠ ' ') := by
        intro w hw c hc
        apply decide_eq_true
        rintro rfl
        exact lower_not_space hw.2 [] hc
      rw [List.takeWhile_append_of_pos (hplain hw), List.takeWhile_append_of_pos (hplain hw')] at hbefore
      exact hdiffer (by simpa using hbefore)
    · rw [normalizeTitle_kept hw hsep hd hkeeps, normalizeTitle_stem hw' hd' hkeeps']
      apply iff_of_false _ (by simp [hkeeps])
      intro h
      apply hstem hw'
      rw [← h]
      simp
  · by_cases hkeeps' : KeepsWord w'
    · rw [normalizeTitle_stem hw hd hkeeps, normalizeTitle_kept hw' hsep hd' hkeeps']
      apply iff_of_false _ (by simp [hkeeps'])
      intro h
      apply hstem hw
      rw [h]
      simp
    · rw [normalizeTitle_stem hw hd hkeeps, normalizeTitle_stem hw' hd' hkeeps']
      simp [hkeeps, hkeeps']

/-- A hit of a document with this file name, with or without the stored column. -/
def Titled (tables : CharTables) (h : Hit) (title : List Char) : Prop :=
  h.title = String.ofList title ∧ (h.titleNorm = none ∨ h.titleNorm = some (normalizeTitle tables h.title))

theorem Titled.titleKey {h : Hit} (ht : Titled tables h t) :
    h.titleKey (normalizeTitle tables) = normalizeTitle tables (String.ofList t) := by
  obtain ⟨htitle, hnone | hsome⟩ := ht
  · simp [Hit.titleKey, hnone, htitle]
  · simp only [Hit.titleKey, hsome, htitle]
    split <;> simp_all

/-- The words that a following number leaves whole are those that are no revision word and end in no month; and titles of two
different words get one normal form, and one key in the crop, exactly when neither is such a word and their stems agree. -/
theorem normalizeTitle_keeps_iff (tables : CharTables) :
    (∀ w d, Alphabetic tables w → Numeric d →
      ((IsWholeWord tables (lower tables w) (normalizeTitle tables (String.ofList (w ++ ' ' :: d))).toList ∧
        IsWholeWord tables (lower tables w) (normalizeTitle tables (String.ofList (w ++ '-' :: d))).toList) ↔ KeepsWord w)) ∧
    ∀ w w' d d', Alphabetic tables w → Alphabetic tables w' → Numeric d → Numeric d' → lower tables w ≠ lower tables w' →
      (normalizeTitle tables (String.ofList (w ++ ' ' :: d)) ≠ normalizeTitle tables (String.ofList (w' ++ ' ' :: d')) ↔
        KeepsWord w ∨ KeepsWord w' ∨ lower tables (wordStem w) ≠ lower tables (wordStem w')) ∧
      ∀ h h' : Hit, Titled tables h (w ++ ' ' :: d) → Titled tables h' (w' ++ ' ' :: d') →
        (h.titleKey (normalizeTitle tables) ≠ h'.titleKey (normalizeTitle tables) ↔
          KeepsWord w ∨ KeepsWord w' ∨ lower tables (wordStem w) ≠ lower tables (wordStem w')) := by
  refine ⟨fun w d hw hd => wholeWord_iff hw hd, ?_⟩
  intro w w' d d' hw hw' hd hd' hdiffer
  have hnorm : normalizeTitle tables (String.ofList (w ++ ' ' :: d)) ≠ normalizeTitle tables (String.ofList (w' ++ ' ' :: d')) ↔
      KeepsWord w ∨ KeepsWord w' ∨ lower tables (wordStem w) ≠ lower tables (wordStem w') := by
    rw [Ne, sameNorm_iff hw hd hw' hd' hdiffer]
    tauto
  refine ⟨hnorm, fun h h' ht ht' => ?_⟩
  rw [ht.titleKey, ht'.titleKey]
  exact hnorm

theorem isLatin_code {c : Char} (h : isLatin c) : (65 ≤ c.toNat ∧ c.toNat ≤ 90) ∨ (97 ≤ c.toNat ∧ c.toNat ≤ 122) ∨
    c.toNat = 0x130 ∨ c.toNat = 0x131 ∨ c.toNat = 0x17f ∨ c.toNat = 0x212a := by
  simp only [isLatin, ignoreCase] at h
  split at h
  · omega
  split at h
  · omega
  split at h
  · omega
  rw [Bool.and_eq_true, decide_eq_true_eq, decide_eq_true_eq] at h
  unfold Char.toLower at h
  split at h
  · rename_i hupper
    exact Or.inl hupper
  · exact Or.inr (Or.inl h)

theorem isPyDigit_code {c : Char} (h : isPyDigit c) : ∃ z ∈ decimalZeros, z ≤ c.toNat ∧ c.toNat < z + 10 := by
  simp only [isPyDigit, digitValue, Option.isSome_map, List.find?_isSome] at h
  obtain ⟨z, hz, hrange⟩ := h
  exact ⟨z, hz, by simpa using hrange⟩

theorem decimalZeros_apart : ∀ z ∈ decimalZeros, z = 0x30 ∨ (0x660 ≤ z ∧ (z + 10 ≤ 0x1680 ∨ (0x1681 ≤ z ∧ z + 10 ≤ 0x2000) ∨
    0x3001 ≤ z)) := by
  decide

theorem isPySpace_code {c : Char} (h : isPySpace c) : c.toNat ≤ 32 ∨ c.toNat = 133 ∨ c.toNat = 160 ∨ c.toNat = 0x1680 ∨
    (0x2000 ≤ c.toNat ∧ c.toNat ≤ 0x205f) ∨ c.toNat = 0x3000 := by
  simp only [isPySpace, Bool.or_eq_true, Bool.and_eq_true, decide_eq_true_eq] at h
  omega

theorem digit_not_latin {c : Char} (h : isPyDigit c) : isLatin c = false := by
  by_contra hlatin
  obtain ⟨z, hz, hrange⟩ := isPyDigit_code h
  have hapart := decimalZeros_apart z hz
  have hcode := isLatin_code (by simpa using hlatin)
  omega

theorem space_not_latin {c : Char} (h : isPySpace c) : isLatin c = false := by
  by_contra hlatin
  have hspace := isPySpace_code h
  have hcode := isLatin_code (by simpa using hlatin)
  omega

theorem char_ne {c l : Char} (h : c.toNat ≠ l.toNat) : c ≠ l :=
  fun hcl => h (congrArg Char.toNat hcl)

theorem toLower_code (c : Char) : c.toLower.toNat = if 65 ≤ c.toNat ∧ c.toNat ≤ 90 then c.toNat + 32 else c.toNat := by
  unfold Char.toLower
  split
  · rename_i hupper
    have hcode : 65 ≤ c.toNat ∧ c.toNat ≤ 90 := hupper
    have hadd : (c.val + ('a'.val - 'A'.val)).toNat = (c.val.toNat + 32) % 2 ^ 32 := UInt32.toNat_add _ _
    rw [if_pos hcode]
    change (c.val + ('a'.val - 'A'.val)).toNat = c.toNat + 32
    rw [hadd]
    change (c.toNat + 32) % 2 ^ 32 = c.toNat + 32
    omega
  · rename_i hupper
    exact (if_neg hupper).symm

/-- Lower case outside the capital dotted I is one character. -/
def latinLower (c : Char) : List Char :=
  if c.toNat = 0x130 then ['i', Char.ofNat 0x307] else if c.toNat = 0x212a then ['k'] else [c.toLower]

def isLatinWord (c : Char) : Bool :=
  isLatin c || isPyDigit c || c = '_'

theorem latinMarks : "-.()[]/".toList.all fun c => !isLatinWord c := by
  decide

theorem latinSeps : " -".toList.all fun c => latinLower c = [c] && !isLatin c && !"'.:^".toList.contains c := by
  decide

/-- The letters `a` to `z` and the other characters that a pattern takes for one of them. -/
def latinTables : CharTables where
  isAlpha := isLatin
  isWord := isLatinWord
  toLower := latinLower
  isCased := isLatin
  isCaseIgnorable := fun c => "'.:^".toList.contains c
  latin_alpha := fun c h => h
  alpha_word := fun c h => by simp [isLatinWord, h]
  digit_word := fun c h => by simp [isLatinWord, h]
  digit_not_alpha := fun c h => digit_not_latin h
  space_not_word := by
    intro c h
    have hcode := isPySpace_code h
    have hline : c ≠ '_' := char_ne (by simp only [Char.reduceToNat]; omega)
    simp [isLatinWord, space_not_latin h, space_not_digit h, hline]
  mark_not_word := fun c hc => by simpa using List.all_eq_true.mp latinMarks c hc
  lower_ne_nil := by
    intro c
    unfold latinLower
    split
    · simp
    · split <;> simp
  lower_not_space := by
    intro c h
    have hcode := isLatin_code h
    unfold latinLower
    split
    · decide
    split
    · decide
    · have hlower := toLower_code c
      intro hspace
      rw [List.mem_singleton] at hspace
      rw [← hspace] at hlower
      have hcodeSpace : ' '.toNat = 32 := rfl
      split at hlower <;> omega
  lower_digit := by
    intro c h
    obtain ⟨z, hz, hrange⟩ := isPyDigit_code h
    have hapart := decimalZeros_apart z hz
    refine ⟨char_ne (by simp only [Char.reduceToNat]; omega), ?_⟩
    have hlower := toLower_code c
    rw [if_neg (by omega)] at hlower
    rw [latinLower, if_neg (by omega), if_neg (by omega), Char.toNat_inj.mp hlower]
  lower_sep := fun c hc => by simpa [and_assoc] using List.all_eq_true.mp latinSeps c hc

/-- A vessel keeps its name beside its number, and two vessels stay apart. -/
theorem normalizeTitle_keeps_vessel :
    IsWholeWord latinTables (lower latinTables "Vessel".toList)
      (normalizeTitle latinTables (String.ofList ("Vessel".toList ++ ' ' :: "12".toList))).toList ∧
    normalizeTitle latinTables (String.ofList ("Vessel".toList ++ ' ' :: "12".toList)) ≠
      normalizeTitle latinTables (String.ofList ("Barge".toList ++ ' ' :: "12".toList)) := by
  have hvessel : Alphabetic latinTables "Vessel".toList := ⟨by decide, List.all_eq_true.mp (by decide)⟩
  have hbarge : Alphabetic latinTables "Barge".toList := ⟨by decide, List.all_eq_true.mp (by decide)⟩
  have hnumber : Numeric "12".toList := ⟨by decide, List.all_eq_true.mp (by decide)⟩
  have hkeeps : KeepsWord "Vessel".toList := ⟨by decide, by decide, beforeMonth_none (by decide)⟩
  obtain ⟨hwhole, hdiffer⟩ := normalizeTitle_keeps_iff latinTables
  exact ⟨((hwhole _ _ hvessel hnumber).mpr hkeeps).1,
    (hdiffer _ _ _ _ hvessel hbarge hnumber hnumber (by decide)).1.mpr (Or.inl hkeeps)⟩

def reportHit (docId : Uuid) (title : String) : Hit :=
  { chunkId := 1
    docId := docId
    text := "The quarter in review."
    page := none
    bbox := none
    kind := none
    title := title
    score := 1 / 2 }

/-- "Mar" and "may" are taken for months wherever they stand: a summary loses its end, and two reports share the empty title, so
that the crop keeps one of them. -/
theorem normalizeTitle_drops_ends :
    (¬IsWholeWord latinTables (lower latinTables "Summary".toList) (normalizeTitle latinTables "Summary 2021").toList) ∧
      normalizeTitle latinTables "Marketing 2021" = normalizeTitle latinTables "Maybe 2022" ∧
      cropContext (normalizeTitle latinTables) {} [reportHit 7 "Marketing 2021", reportHit 3 "Maybe 2022"] =
        [reportHit 7 "Marketing 2021"] := by
  refine ⟨?_, by decide +kernel, by decide +kernel⟩
  have hshort : (lower latinTables "Summary".toList).length = 7 ∧
      (normalizeTitle latinTables "Summary 2021").toList.length = 3 := by
    decide +kernel
  rintro ⟨a, b, hsplit, _, _⟩
  have hlength := congrArg List.length hsplit
  simp only [List.length_append] at hlength
  omega

end ProRag
