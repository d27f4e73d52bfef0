import Mathlib.Data.List.Chain
import ProRag.Framework.Regex
import ProRag.Web.Citations
import ProRag.Web.Typewriter

/-!
# The inline markup of an answer

A line of an answer is cut at its citation markers, and `tokenizeInline` runs one global regular expression over each
piece.  The expression is shared by all calls, and its `lastIndex` with it.  The typewriter may stop inside a surrogate
pair, so that the lines are code units.
-/

namespace ProRag

open Framework

def codeMark : JsString := jsLiteral "`"

def boldMark : JsString := jsLiteral "**"

def italicMark : JsString := jsLiteral "*"

inductive InlineToken
  | text (content : JsString)
  | code (content : JsString)
  | bold (content : JsString)
  | italic (content : JsString)
deriving DecidableEq

namespace InlineToken

def content : InlineToken → JsString
  | text c | code c | bold c | italic c => c

def isText : InlineToken → Bool
  | text _ => true
  | _ => false

def source : InlineToken → JsString
  | text c => c
  | code c => codeMark ++ c ++ codeMark
  | bold c => boldMark ++ c ++ boldMark
  | italic c => italicMark ++ c ++ italicMark

@[simp]
theorem source_text (c : JsString) : (text c).source = c := rfl

theorem source_ne_nil {t : InlineToken} (h : t.content ≠ []) : t.source ≠ [] := by
  cases t with
  | text c => exact h
  | code c => simp [source, codeMark, jsLiteral]
  | bold c => simp [source, boldMark, jsLiteral]
  | italic c => simp [source, italicMark, jsLiteral]

end InlineToken

/-- An opening delimiter, characters of a class, and the closing one. -/
def delimited (delimiter : JsString) (inner : UInt16 → Bool) : Regex UInt16 :=
  .concat (delimiter.map (fun d => .char fun c => c = d) ++ [.maxRepeat 1 none (.char inner)] ++
    delimiter.map fun d => .char fun c => c = d)

/-- Code: a run without a backtick. -/
def codeRe : Regex UInt16 := delimited codeMark fun c => c ∉ codeMark

/-- `\*\*[^*]+\*\*` -/
def boldRe : Regex UInt16 := delimited boldMark fun c => c ∉ italicMark

/-- `\*[^*\n]+\*` -/
def italicRe : Regex UInt16 := delimited italicMark fun c => c ∉ jsLiteral "*\n"

/-- `INLINE_RE`. -/
def inlineRe : Regex UInt16 := .oneOf [codeRe, boldRe, italicRe]

/-- `tok.slice(n, -n)`. -/
def sliceInner (n : Nat) (tok : JsString) : JsString := (tok.take (tok.length - n)).drop n

def inlineToken (tok : JsString) : InlineToken :=
  if tok.head? = codeMark.head? then .code (sliceInner 1 tok)
  else if tok.take 2 = boldMark then .bold (sliceInner 2 tok)
  else .italic (sliceInner 1 tok)

/-- The variables of the loop, and the `lastIndex` of the expression. -/
structure InlineLoop where
  tokens : List InlineToken := []
  last : Nat := 0
  lastIndex : Nat

/-- One turn of the loop of `tokenizeInline`; `none` is its end. -/
def inlineTurn (text : JsString) (st : InlineLoop) : Option InlineLoop :=
  (inlineRe.exec text st.lastIndex).map fun m =>
    { tokens := st.tokens ++ (if st.last < m.index then [.text ((text.take m.index).drop st.last)] else []) ++
        [inlineToken m.text]
      last := m.index + m.text.length
      lastIndex := m.index + m.text.length }

/-- The loop, in at most so many calls of `exec`; a search that finds nothing sets `lastIndex` back. -/
def inlineLoop : Nat → JsString → InlineLoop → Option InlineLoop
  | 0, _, _ => none
  | fuel + 1, text, st =>
    match inlineTurn text st with
    | some st' => inlineLoop fuel text st'
    | none => some { st with lastIndex := 0 }

/-- `tokenizeInline(text)`: the tokens, and where the expression is left. -/
def tokenizeInline (fuel : Nat) (text : JsString) (lastIndex : Nat) : Option (List InlineToken × Nat) :=
  (inlineLoop fuel text { lastIndex := lastIndex }).map fun st =>
    (st.tokens ++ (if st.last < text.length then [.text (text.drop st.last)] else []), st.lastIndex)

/-- The tokens of a text: none is empty, no two texts touch, and with their delimiters they are the text. -/
structure Lossless (text : JsString) (tokens : List InlineToken) : Prop where
  source : tokens.flatMap InlineToken.source = text
  nonempty : ∀ t ∈ tokens, t.content ≠ []
  apart : tokens.IsChain fun a b => ¬ (a.isText = true ∧ b.isText = true)

/-- What the loop has made of the text so far. -/
structure TokenizedSo (text : JsString) (st : InlineLoop) : Prop where
  le : st.last ≤ text.length
  tokens : Lossless (text.take st.last) st.tokens
  closed : ∀ t ∈ st.tokens.getLast?, t.isText = false

/-- What a code unit is to a regular expression without the flag `u`; half of a surrogate pair is in no class of the
markers. -/
def unitChar (unit : UInt16) : Char :=
  if 0xd800 ≤ unit ∧ unit ≤ 0xdfff then Char.ofNat 0xfffd else Char.ofNat unit.toNat

/-- `splitOnCitations(text)`, of code units. -/
def JsString.splitOnCitations (text : JsString) : List JsString :=
  (splitCaptured (markerSource.through unitChar) 0 [] text).filter fun piece => piece ≠ []

variable {text : JsString} {st st' : InlineLoop}

/-! ## Matches -/

theorem language_literal (d : JsString) (rs : List (Regex UInt16)) (m : JsString) :
    (Regex.concat (d.map (fun x => .char fun c => decide (c = x)) ++ rs)).Language m ↔
      ∃ rest, (Regex.concat rs).Language rest ∧ m = d ++ rest := by
  induction d generalizing m with
  | nil => simp
  | cons x d ih =>
    rw [List.map_cons, List.cons_append, Regex.language_concat_cons]
    constructor
    · intro h
      obtain ⟨a, b, ⟨y, hy, rfl⟩, hb, rfl⟩ := h
      obtain ⟨rest, hrest, rfl⟩ := (ih b).mp hb
      obtain rfl : y = x := by simpa using hy
      exact ⟨rest, hrest, rfl⟩
    · intro h
      obtain ⟨rest, hrest, rfl⟩ := h
      exact ⟨[x], d ++ rest, ⟨x, by simp, rfl⟩, (ih _).mpr ⟨rest, hrest, rfl⟩, rfl⟩

theorem language_delimited {d m : JsString} {inner : UInt16 → Bool} (h : (delimited d inner).Language m) :
    ∃ content, content ≠ [] ∧ (∀ x ∈ content, inner x = true) ∧ m = d ++ content ++ d := by
  unfold delimited at h
  rw [List.append_assoc] at h
  obtain ⟨rest, hrest, rfl⟩ := (language_literal d _ m).mp h
  rw [List.singleton_append, Regex.language_concat_cons] at hrest
  obtain ⟨content, close, hcontent, hclose, rfl⟩ := hrest
  obtain ⟨hinner, hpos⟩ := Regex.language_repeat_char hcontent
  have hdelimiter := (language_literal d [] close).mp (by simpa using hclose)
  obtain ⟨tail, htail, rfl⟩ := hdelimiter
  obtain rfl : tail = [] := htail
  exact ⟨content, List.length_pos_iff.mp hpos, hinner, by simp⟩

theorem sliceInner_delimited (d content : JsString) : sliceInner d.length (d ++ content ++ d) = content := by
  unfold sliceInner
  have hlength : (d ++ content ++ d).length - d.length = (d ++ content).length := by
    simp only [List.length_append]
    omega
  rw [hlength, List.take_left, List.drop_left]

theorem inlineToken_match {tok : JsString} (h : inlineRe.Language tok) :
    (inlineToken tok).source = tok ∧ (inlineToken tok).content ≠ [] ∧ (inlineToken tok).isText = false := by
  obtain ⟨r, hr, hmatch⟩ := Regex.language_oneOf h
  simp only [List.mem_cons, List.not_mem_nil, or_false] at hr
  rcases hr with rfl | rfl | rfl
  · obtain ⟨content, hne, _, rfl⟩ := language_delimited hmatch
    have htoken : inlineToken (codeMark ++ content ++ codeMark) = .code content := by
      have hinner := sliceInner_delimited codeMark content
      have hhead : (codeMark ++ content ++ codeMark).head? = codeMark.head? := rfl
      rw [inlineToken, if_pos hhead]
      exact congrArg InlineToken.code hinner
    rw [htoken]
    exact ⟨rfl, hne, rfl⟩
  · obtain ⟨content, hne, _, rfl⟩ := language_delimited hmatch
    have htoken : inlineToken (boldMark ++ content ++ boldMark) = .bold content := by
      have hinner := sliceInner_delimited boldMark content
      have hstars : (boldMark ++ content ++ boldMark).take 2 = boldMark := rfl
      have hcode : (boldMark ++ content ++ boldMark).head? ≠ codeMark.head? := by simp [boldMark, codeMark, jsLiteral]
      rw [inlineToken, if_neg hcode, if_pos hstars]
      exact congrArg InlineToken.bold hinner
    rw [htoken]
    exact ⟨rfl, hne, rfl⟩
  · obtain ⟨content, hne, hclass, rfl⟩ := language_delimited hmatch
    have htoken : inlineToken (italicMark ++ content ++ italicMark) = .italic content := by
      have hinner := sliceInner_delimited italicMark content
      have hstar : (italicMark ++ content ++ italicMark).take 2 ≠ boldMark := by
        cases content with
        | nil => exact absurd rfl hne
        | cons x content =>
          have hx := hclass x List.mem_cons_self
          have hnot : x ≠ 42 := by
            rintro rfl
            exact absurd hx (by decide)
          simpa [italicMark, boldMark, jsLiteral] using hnot
      have hcode : (italicMark ++ content ++ italicMark).head? ≠ codeMark.head? := by simp [italicMark, codeMark, jsLiteral]
      rw [inlineToken, if_neg hcode, if_neg hstar]
      exact congrArg InlineToken.italic hinner
    rw [htoken]
    exact ⟨rfl, hne, rfl⟩

/-! ## The loop -/

theorem lossless_nil : Lossless [] [] where
  source := rfl
  nonempty := by simp
  apart := List.isChain_nil

theorem Lossless.snoc {tokens : List InlineToken} {t : InlineToken} (h : Lossless text tokens) (hne : t.content ≠ [])
    (hapart : t.isText = true → ∀ a ∈ tokens.getLast?, a.isText = false) : Lossless (text ++ t.source) (tokens ++ [t]) where
  source := by simp [h.source]
  nonempty := by
    intro b hb
    rcases List.mem_append.mp hb with hmem | hlast
    · exact h.nonempty b hmem
    · rw [List.mem_singleton.mp hlast]
      exact hne
  apart := by
    rw [List.isChain_append]
    refine ⟨h.apart, List.isChain_singleton _, fun a ha b hb htexts => ?_⟩
    obtain rfl : t = b := by simpa using hb
    simp [hapart htexts.2 a ha] at htexts

theorem take_of_drop {n : Nat} {skipped found rest : JsString} (hn : n ≤ text.length)
    (hdrop : text.drop n = skipped ++ found ++ rest) :
    text.take (n + skipped.length + found.length) = text.take n ++ skipped ++ found ∧
      (text.take (n + skipped.length)).drop n = skipped ∧ n + skipped.length + found.length ≤ text.length := by
  have hfront : (text.take n).length = n := List.length_take_of_le hn
  have htext : text = text.take n ++ skipped ++ found ++ rest := by
    calc text = text.take n ++ text.drop n := (List.take_append_drop _ _).symm
      _ = text.take n ++ skipped ++ found ++ rest := by rw [hdrop]; simp
  have hplace : n + skipped.length = (text.take n ++ skipped).length := by rw [List.length_append, hfront]
  have hbehind : n + skipped.length + found.length = (text.take n ++ skipped ++ found).length := by
    rw [List.length_append, hplace]
  refine ⟨?_, ?_, ?_⟩
  · conv_lhs => rw [htext, hbehind]
    exact List.take_left
  · have htake : text.take (n + skipped.length) = text.take n ++ skipped := by
      conv_lhs => rw [htext, List.append_assoc, hplace]
      exact List.take_left
    rw [htake]
    exact List.drop_left' hfront
  · have hlength := congrArg List.length htext
    rw [List.length_append, ← hbehind] at hlength
    omega

theorem inlineTurn_tokenized (h : TokenizedSo text st) (hsame : st.lastIndex = st.last)
    (hturn : inlineTurn text st = some st') : TokenizedSo text st' ∧ st'.lastIndex = st'.last ∧ st.last < st'.last := by
  obtain ⟨m, hm, rfl⟩ := Option.map_eq_some_iff.mp hturn
  obtain ⟨hword, skipped, rest, hdrop, hindex⟩ := Regex.exec_found hm
  obtain ⟨hsource, hcontent, hmarkup⟩ := inlineToken_match hword
  rw [hsame] at hdrop hindex
  obtain ⟨htake, hbefore, hle⟩ := take_of_drop h.le hdrop
  rw [← hindex] at htake hbefore hle
  have hpos : 0 < m.text.length := by
    rw [← hsource]
    exact List.length_pos_iff.mpr (InlineToken.source_ne_nil hcontent)
  refine ⟨?_, rfl, by simp only; omega⟩
  by_cases hskip : skipped = []
  · have hnone : ¬ st.last < m.index := by
      rw [hindex, hskip]
      simp
    simp only [if_neg hnone, List.append_nil]
    constructor
    · exact hle
    · have htoken := h.tokens.snoc hcontent fun htext => by simp [hmarkup] at htext
      rwa [hsource, ← List.append_nil (text.take st.last), ← hskip, ← htake] at htoken
    · simp [hmarkup]
  · have hsome : st.last < m.index := by
      have hlength := List.length_pos_iff.mpr hskip
      omega
    simp only [if_pos hsome, hbefore]
    constructor
    · exact hle
    · have hskipped := h.tokens.snoc (show (InlineToken.text skipped).content ≠ [] from hskip) fun _ => h.closed
      have htoken := hskipped.snoc hcontent fun htext => by simp [hmarkup] at htext
      rwa [hsource, InlineToken.source_text, ← htake] at htoken
    · simp [hmarkup]

/-- The loop ends, whatever the bound on its calls is as long as it is beyond the length of the text. -/
theorem inlineLoop_ends (h : TokenizedSo text st) (hsame : st.lastIndex = st.last) :
    ∃ ended, TokenizedSo text ended ∧ ended.lastIndex = 0 ∧
      ∀ fuel, text.length - st.last < fuel → inlineLoop fuel text st = some ended := by
  induction hleft : text.length - st.last using Nat.strongRecOn generalizing st with
  | ind n ih =>
    cases hturn : inlineTurn text st with
    | none =>
      refine ⟨{ st with lastIndex := 0 }, ⟨h.le, h.tokens, h.closed⟩, rfl, fun fuel hfuel => ?_⟩
      obtain ⟨k, rfl⟩ : ∃ k, fuel = k + 1 := ⟨fuel - 1, by omega⟩
      simp only [inlineLoop, hturn]
    | some st' =>
      obtain ⟨hnext, hsame', hadvance⟩ := inlineTurn_tokenized h hsame hturn
      have hle := hnext.le
      obtain ⟨ended, htokenized, hreset, hrun⟩ := ih (text.length - st'.last) (by omega) hnext hsame' rfl
      refine ⟨ended, htokenized, hreset, fun fuel hfuel => ?_⟩
      obtain ⟨k, rfl⟩ : ∃ k, fuel = k + 1 := ⟨fuel - 1, by omega⟩
      simp only [inlineLoop, hturn]
      exact hrun k (by omega)

theorem tokenizeInline_lossless (text : JsString) :
    ∃ tokens, Lossless text tokens ∧ ∀ fuel, text.length < fuel → tokenizeInline fuel text 0 = some (tokens, 0) := by
  have hstart : TokenizedSo text { lastIndex := 0 } := by
    constructor
    · exact Nat.zero_le _
    · exact lossless_nil
    · simp
  obtain ⟨ended, htokenized, hreset, hrun⟩ := inlineLoop_ends hstart rfl
  refine ⟨ended.tokens ++ (if ended.last < text.length then [.text (text.drop ended.last)] else []), ?_, ?_⟩
  · have hle := htokenized.le
    have htokens := htokenized.tokens
    by_cases hrest : ended.last < text.length
    · rw [if_pos hrest]
      have hne : (InlineToken.text (text.drop ended.last)).content ≠ [] := by simpa [InlineToken.content] using hrest
      have hwhole := htokens.snoc hne fun _ => htokenized.closed
      rwa [InlineToken.source_text, List.take_append_drop] at hwhole
    · rw [if_neg hrest, List.append_nil]
      rwa [List.take_of_length_le (by omega)] at htokens
  · intro fuel hfuel
    simp only [tokenizeInline, hrun fuel (by simpa using hfuel), Option.map_some, hreset]

theorem splitOnCitations_flatten (text : JsString) : (JsString.splitOnCitations text).flatten = text := by
  unfold JsString.splitOnCitations
  rw [List.flatten_filter_ne_nil]
  simpa using splitCaptured_flatten (markerSource_bracketed.through unitChar) text [] 0

theorem splitOnCitations_units (text : JsString) :
    (JsString.splitOnCitations text).map (List.map unitChar) = splitOnCitations (text.map unitChar) := by
  have hthrough := splitCaptured_through unitChar markerSource text [] 0
  rw [List.map_nil] at hthrough
  rw [splitOnCitations, ← hthrough, List.filter_map, JsString.splitOnCitations]
  congr 1
  apply List.filter_congr
  simp

/-- Nothing of an answer is lost on the way to its pieces and their tokens, and both loops end. -/
theorem inline_splitting_lossless (text : JsString) :
    (JsString.splitOnCitations text).flatten = text ∧ (∀ piece ∈ JsString.splitOnCitations text, piece ≠ []) ∧
      ∀ piece : JsString, ∃ tokens, Lossless piece tokens ∧
        ∀ fuel, piece.length < fuel → tokenizeInline fuel piece 0 = some (tokens, 0) := by
  refine ⟨splitOnCitations_flatten text, ?_, tokenizeInline_lossless⟩
  intro piece hpiece
  simpa using (List.mem_filter.mp hpiece).2

example : (tokenizeInline 9 (jsLiteral "a *b* **c** *d") 0).map Prod.fst = some
    [.text (jsLiteral "a "), .italic (jsLiteral "b"), .text (jsLiteral " "), .bold (jsLiteral "c"),
      .text (jsLiteral " *d")] := by decide

end ProRag
