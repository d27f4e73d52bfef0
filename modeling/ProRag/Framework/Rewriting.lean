import Mathlib.Data.List.Basic

/-!
# Rewriting markers in a text

A matcher says what it captures at the head of a text and how much of it it takes; a scan applies it
from left to right, without overlaps.  Where every match starts at an opener and holds no other, a
text may be cut in front of any opener, and several passes over it are one.
-/

namespace Framework

variable {α β γ : Type*}

abbrev Matcher (α β : Type*) := List α → Option (β × Nat)

/-- One scan; the number counts what is left of the last match. -/
def scan (p : Matcher α β) (hit : β → List γ) (miss : α → List γ) : Nat → List α → List γ
  | _, [] => []
  | k + 1, _ :: cs => scan p hit miss k cs
  | 0, c :: cs =>
    match p (c :: cs) with
    | some m => hit m.1 ++ scan p hit miss (m.2 - 1) cs
    | none => miss c ++ scan p hit miss 0 cs

/-- Every match, replaced. -/
def rewriteAll (p : Matcher α β) (render : β → List α) (text : List α) : List α :=
  scan p render (fun c => [c]) 0 text

/-- What every match captures. -/
def captures (p : Matcher α β) (text : List α) : List β :=
  scan p (fun b => [b]) (fun _ => []) 0 text

/-- The pieces of a text between the matches, and the matches.  The number counts what is left of the last match. -/
def splitCaptured (p : Matcher α β) : Nat → List α → List α → List (List α)
  | _, piece, [] => [piece]
  | k + 1, piece, _ :: cs => splitCaptured p k piece cs
  | 0, piece, c :: cs =>
    match p (c :: cs) with
    | some m => piece :: (c :: cs).take m.2 :: splitCaptured p (m.2 - 1) [] cs
    | none => splitCaptured p 0 (piece ++ [c]) cs

def isWhole (p : Matcher α β) (text : List α) : Bool := (p text).any fun m => m.2 = text.length

/-- A matcher of texts of another alphabet, by how it sees their characters. -/
def Matcher.through (view : α → γ) (p : Matcher γ β) : Matcher α β := fun text => p (text.map view)

/-- A match starts at an opener, holds no other, and depends only on what it takes. -/
structure Bracketed (opener : α → Prop) (p : Matcher α β) : Prop where
  opens : ∀ {text m}, p text = some m → ∃ c cs, text = c :: cs ∧ opener c ∧ ∀ x ∈ cs.take (m.2 - 1), ¬ opener x
  bounds : ∀ {text m}, p text = some m → 0 < m.2 ∧ m.2 ≤ text.length
  continues : ∀ {text m} rest, p text = some m → p (text ++ rest) = some m
  shrinks : ∀ {text rest m}, p (text ++ rest) = some m → m.2 ≤ text.length → p text = some m

/-- A text that is empty or begins with an opener. -/
def AtOpener (opener : α → Prop) : List α → Prop
  | [] => True
  | c :: _ => opener c

section

variable {opener : α → Prop} {p : Matcher α β} {hit : β → List γ} {miss : α → List γ}

theorem Bracketed.none_of_not (hp : Bracketed opener p) {c : α} (cs : List α) (hc : ¬ opener c) : p (c :: cs) = none := by
  cases h : p (c :: cs) with
  | none => rfl
  | some m =>
    obtain ⟨c', cs', heq, hopen, _⟩ := hp.opens h
    cases heq
    exact absurd hopen hc

theorem Bracketed.before_opener (hp : Bracketed opener p) {c : α} {a rest : List α} {m : β × Nat}
    (hrest : AtOpener opener rest) (h : p (c :: a ++ rest) = some m) : m.2 ≤ (c :: a).length := by
  cases rest with
  | nil =>
    have hlen := (hp.bounds h).2
    rw [List.append_nil] at hlen
    exact hlen
  | cons r rs =>
    obtain ⟨c', cs', heq, _, hinner⟩ := hp.opens h
    cases heq
    by_contra hlong
    have hlt : a.length < m.2 - 1 := by
      simp only [List.length_cons] at hlong
      omega
    have hmem : r ∈ (a ++ r :: rs).take (m.2 - 1) := by
      rw [List.take_append, List.mem_append]
      refine Or.inr ?_
      obtain ⟨k, hk⟩ : ∃ k, m.2 - 1 - a.length = k + 1 := ⟨m.2 - 1 - a.length - 1, by omega⟩
      rw [hk]
      exact List.mem_cons_self
    exact hinner r hmem hrest

theorem scan_append (hp : Bracketed opener p) {rest : List α} (hrest : AtOpener opener rest) (a : List α) {k : Nat}
    (hk : k ≤ a.length) : scan p hit miss k (a ++ rest) = scan p hit miss k a ++ scan p hit miss 0 rest := by
  induction a generalizing k with
  | nil =>
    obtain rfl : k = 0 := Nat.le_zero.mp hk
    rfl
  | cons c cs ih =>
    cases k with
    | succ k => exact ih (Nat.le_of_succ_le_succ hk)
    | zero =>
      cases hm : p (c :: cs) with
      | some m =>
        have hlong : p (c :: (cs ++ rest)) = some m := hp.continues rest hm
        have hlen : m.2 - 1 ≤ cs.length := by
          have := (hp.bounds hm).2
          simp only [List.length_cons] at this
          omega
        simp only [List.cons_append, scan, hm, hlong, ih hlen, List.append_assoc]
      | none =>
        have hlong : p (c :: (cs ++ rest)) = none := by
          cases h : p (c :: (cs ++ rest)) with
          | none => rfl
          | some m =>
            have hlen := hp.before_opener (a := cs) hrest h
            have hshort : p (c :: cs) = some m := hp.shrinks h hlen
            rw [hshort] at hm
            cases hm
        simp only [List.cons_append, scan, hm, hlong, ih (Nat.zero_le _), List.append_assoc]

theorem scan_free (hp : Bracketed opener p) {text : List α} (hfree : ∀ x ∈ text, ¬ opener x) (k : Nat) :
    scan p hit miss k text = (text.drop k).flatMap miss := by
  induction text generalizing k with
  | nil => simp [scan]
  | cons c cs ih =>
    have hcs : ∀ x ∈ cs, ¬ opener x := fun x hx => hfree x (List.mem_cons_of_mem c hx)
    cases k with
    | succ k => exact ih hcs k
    | zero =>
      have hnone : p (c :: cs) = none := hp.none_of_not cs (hfree c List.mem_cons_self)
      simp only [scan, hnone, ih hcs 0, List.drop_zero, List.flatMap_cons]

theorem scan_chunk (hp : Bracketed opener p) (c : α) {body : List α} (hfree : ∀ x ∈ body, ¬ opener x) :
    scan p hit miss 0 (c :: body) = match p (c :: body) with
      | some m => hit m.1 ++ (body.drop (m.2 - 1)).flatMap miss
      | none => miss c ++ body.flatMap miss := by
  cases hm : p (c :: body) with
  | some m => simp only [scan, hm, scan_free hp hfree]
  | none => simp only [scan, hm, scan_free hp hfree, List.drop_zero]

theorem Bracketed.whole_take (hp : Bracketed opener p) {text : List α} {m : β × Nat} (hm : p text = some m) :
    p (text.take m.2) = some m ∧ (text.take m.2).length = m.2 := by
  have hlen : (text.take m.2).length = m.2 := List.length_take_of_le (hp.bounds hm).2
  have hcut : p (text.take m.2 ++ text.drop m.2) = some m := by
    rw [List.take_append_drop]
    exact hm
  exact ⟨hp.shrinks hcut (Nat.le_of_eq hlen.symm), hlen⟩

theorem Bracketed.not_whole (hp : Bracketed opener p) {piece : List α} (rest : List α) (h : piece = [] ∨ p (piece ++ rest) = none) :
    isWhole p piece = false := by
  cases hm : p piece with
  | none => simp [isWhole, hm]
  | some m =>
    rcases h with rfl | hnone
    · obtain ⟨c, cs, heq, _⟩ := hp.opens hm
      cases heq
    · rw [hp.continues rest hm] at hnone
      cases hnone

theorem splitCaptured_flatten (hp : Bracketed opener p) (text : List α) (piece : List α) (k : Nat) :
    (splitCaptured p k piece text).flatten = piece ++ text.drop k := by
  induction text generalizing piece k with
  | nil => simp [splitCaptured]
  | cons c cs ih =>
    cases k with
    | succ k => exact ih piece k
    | zero =>
      cases hm : p (c :: cs) with
      | none => simp [splitCaptured, hm, ih]
      | some m =>
        obtain ⟨n, hn⟩ : ∃ n, m.2 = n + 1 := ⟨m.2 - 1, by have hpos := (hp.bounds hm).1; omega⟩
        simp [splitCaptured, hm, ih, hn]

theorem splitCaptured_whole (hp : Bracketed opener p) {index : List α → β}
    (hindex : ∀ text m, p text = some m → index (text.take m.2) = m.1) (text : List α) {piece : List α} {k : Nat}
    (hpiece : piece = [] ∨ (k = 0 ∧ p (piece ++ text) = none)) :
    ((splitCaptured p k piece text).filter (isWhole p)).map index = scan p (fun b => [b]) (fun _ => []) k text := by
  have hnot : isWhole p piece = false := hp.not_whole text (hpiece.imp id And.right)
  induction text generalizing piece k with
  | nil =>
    cases k with
    | zero => simp [splitCaptured, scan, hnot]
    | succ k => simp [splitCaptured, scan, hnot]
  | cons c cs ih =>
    cases k with
    | succ k =>
      obtain rfl : piece = [] := hpiece.resolve_right fun h => Nat.succ_ne_zero k h.1
      exact ih (Or.inl rfl) hnot
    | zero =>
      cases hm : p (c :: cs) with
      | some m =>
        obtain ⟨htake, hlen⟩ := hp.whole_take hm
        have hwhole : isWhole p ((c :: cs).take m.2) = true := by simp [isWhole, htake, hlen]
        have hrest : ((splitCaptured p (m.2 - 1) [] cs).filter (isWhole p)).map index =
            scan p (fun b => [b]) (fun _ => []) (m.2 - 1) cs := ih (Or.inl rfl) (hp.not_whole [] (Or.inl rfl))
        simp only [splitCaptured, scan, hm, List.filter_cons, hnot, hwhole, Bool.false_eq_true, if_false, if_true,
          List.map_cons, hindex _ m hm, hrest, List.singleton_append]
      | none =>
        have hnone : p (piece ++ [c] ++ cs) = none := by
          rw [List.append_assoc]
          rcases hpiece with rfl | ⟨_, hnone⟩
          · exact hm
          · exact hnone
        have hrest := ih (Or.inr ⟨rfl, hnone⟩) (hp.not_whole cs (Or.inr hnone))
        simp only [splitCaptured, scan, hm, hrest, List.nil_append]

theorem Bracketed.through {opener : γ → Prop} {p : Matcher γ β} (hp : Bracketed opener p) (view : α → γ) :
    Bracketed (fun c => opener (view c)) (p.through view) where
  opens := by
    intro text m hm
    obtain ⟨c', cs', htext, hopen, hinner⟩ := hp.opens hm
    cases text with
    | nil => cases htext
    | cons c cs =>
      simp only [List.map_cons, List.cons.injEq] at htext
      obtain ⟨rfl, rfl⟩ := htext
      refine ⟨c, cs, rfl, hopen, fun x hx => hinner (view x) ?_⟩
      rw [← List.map_take]
      exact List.mem_map_of_mem hx
  bounds := by
    intro text m hm
    simpa using hp.bounds hm
  continues := by
    intro text m rest hm
    simpa [Matcher.through] using hp.continues (rest.map view) hm
  shrinks := by
    intro text rest m hm hlen
    have happend : p (text.map view ++ rest.map view) = some m := by simpa [Matcher.through] using hm
    exact hp.shrinks happend (by simpa using hlen)

theorem splitCaptured_through (view : α → γ) (p : Matcher γ β) (text piece : List α) (k : Nat) :
    (splitCaptured (p.through view) k piece text).map (List.map view) =
      splitCaptured p k (piece.map view) (text.map view) := by
  induction text generalizing piece k with
  | nil => simp [splitCaptured]
  | cons c cs ih =>
    cases k with
    | succ k => simpa [splitCaptured] using ih piece k
    | zero =>
      have hthrough : p.through view (c :: cs) = p (view c :: cs.map view) := rfl
      cases hm : p (view c :: cs.map view) with
      | none => simp [splitCaptured, hthrough, hm, ih]
      | some m => simp [splitCaptured, hthrough, hm, ih]

theorem free_or_last (opener : α → Prop) (text : List α) : (∀ x ∈ text, ¬ opener x) ∨
    ∃ a c body, text = a ++ c :: body ∧ opener c ∧ ∀ x ∈ body, ¬ opener x := by
  induction text with
  | nil => exact Or.inl fun x hx => absurd hx List.not_mem_nil
  | cons c cs ih =>
    rcases ih with hfree | ⟨a, c', body, rfl, hopen, hfree⟩
    · by_cases hc : opener c
      · exact Or.inr ⟨[], c, cs, rfl, hc, hfree⟩
      · refine Or.inl fun x hx => ?_
        rcases List.mem_cons.mp hx with rfl | hx
        · exact hc
        · exact hfree x hx
    · exact Or.inr ⟨c :: a, c', body, rfl, hopen, hfree⟩

/-- A text is taken apart at its openers, the last one first. -/
theorem opener_induction (opener : α → Prop) {P : List α → Prop} (free : ∀ text, (∀ x ∈ text, ¬ opener x) → P text)
    (last : ∀ a c body, opener c → (∀ x ∈ body, ¬ opener x) → P a → P (a ++ c :: body)) (text : List α) : P text := by
  induction hlen : text.length using Nat.strongRecOn generalizing text with
  | ind n ih =>
    rcases free_or_last opener text with hfree | ⟨a, c, body, rfl, hopen, hfree⟩
    · exact free text hfree
    · apply last a c body hopen hfree
      apply ih a.length _ a rfl
      simp only [List.length_append, List.length_cons] at hlen
      omega

theorem free_prefix (opener : α → Prop) (text : List α) :
    ∃ a rest, text = a ++ rest ∧ (∀ x ∈ a, ¬ opener x) ∧ AtOpener opener rest := by
  induction text with
  | nil => exact ⟨[], [], rfl, fun x hx => absurd hx List.not_mem_nil, trivial⟩
  | cons c cs ih =>
    by_cases hc : opener c
    · exact ⟨[], c :: cs, rfl, fun x hx => absurd hx List.not_mem_nil, hc⟩
    · obtain ⟨a, rest, rfl, hfree, hrest⟩ := ih
      refine ⟨c :: a, rest, rfl, fun x hx => ?_, hrest⟩
      rcases List.mem_cons.mp hx with rfl | hx
      · exact hc
      · exact hfree x hx

end

/-! ## Pieces -/

/-- A piece of a text: a character, or a match with what it captures. -/
inductive Piece (α β : Type*)
  | plain (c : α)
  | found (text : List α) (capture : β)

def Piece.source : Piece α β → List α
  | .plain c => [c]
  | .found text _ => text

def Piece.rendered (render : β → List α) : Piece α β → List α
  | .plain c => [c]
  | .found _ capture => render capture

/-- The whole text is a match, with this capture. -/
def Captures (p : Matcher α β) (text : List α) (capture : β) : Prop := p text = some (capture, text.length)

/-- A text in pieces: its matches, wherever they stand, and the characters beside them. -/
structure Pieces (p : Matcher α β) (text : List α) (pieces : List (Piece α β)) : Prop where
  source : pieces.flatMap Piece.source = text
  captures : ∀ found capture, Piece.found found capture ∈ pieces → Captures p found capture
  complete : ∀ before found capture after, text = before ++ found ++ after → Captures p found capture →
    ∃ left right, pieces = left ++ .found found capture :: right ∧ left.flatMap Piece.source = before

/-- The pieces of a text that may have a match at its head and has no other. -/
def headPieces (p : Matcher α β) (text : List α) : List (Piece α β) :=
  match p text with
  | some m => .found (text.take m.2) m.1 :: (text.drop m.2).map Piece.plain
  | none => text.map Piece.plain

section Pieces

variable {opener : α → Prop} {p : Matcher α β} {found before after text : List α} {capture : β}

theorem Bracketed.captures_chunk (hp : Bracketed opener p) (h : Captures p found capture) :
    ∃ c cs, found = c :: cs ∧ opener c ∧ ∀ x ∈ cs, ¬ opener x := by
  obtain ⟨c, cs, rfl, hopen, hinner⟩ := hp.opens h
  refine ⟨c, cs, rfl, hopen, fun x hx => hinner x ?_⟩
  rwa [List.length_cons, Nat.add_sub_cancel, List.take_length]

theorem flatMap_source_plain (text : List α) : (text.map (Piece.plain (β := β))).flatMap Piece.source = text := by
  simp [List.flatMap_map, Piece.source]

theorem flatMap_rendered_plain (render : β → List α) (text : List α) :
    (text.map Piece.plain).flatMap (Piece.rendered render) = text := by
  simp [List.flatMap_map, Piece.rendered]

theorem Pieces.plain (hp : Bracketed opener p) (hfree : ∀ x ∈ text, ¬ opener x) : Pieces p text (text.map Piece.plain) where
  source := flatMap_source_plain text
  captures := by simp
  complete := by
    intro before found capture after htext hfound
    obtain ⟨c, cs, rfl, hopen, _⟩ := hp.captures_chunk hfound
    exact absurd hopen (hfree c (by simp [htext]))

theorem Bracketed.captures_of_append (hp : Bracketed opener p) (h : Captures p found capture) :
    p (found ++ after) = some (capture, found.length) := hp.continues after h

theorem Pieces.chunk (hp : Bracketed opener p) {c : α} {body : List α} (hfree : ∀ x ∈ body, ¬ opener x) :
    Pieces p (c :: body) (headPieces p (c :: body)) := by
  have hhead : ∀ before found capture after, c :: body = before ++ found ++ after → Captures p found capture →
      before = [] ∧ p (c :: body) = some (capture, found.length) := by
    intro before found capture after htext hfound
    cases before with
    | nil =>
      rw [htext]
      exact ⟨rfl, hp.captures_of_append hfound⟩
    | cons x before =>
      obtain ⟨c', cs, rfl, hopen, _⟩ := hp.captures_chunk hfound
      have hbody := (List.cons.inj htext).2
      exact absurd hopen (hfree c' (by simp [hbody]))
  unfold headPieces
  cases hm : p (c :: body) with
  | none =>
    constructor
    · exact flatMap_source_plain _
    · simp
    · intro before found capture after htext hfound
      rw [(hhead before found capture after htext hfound).2] at hm
      cases hm
  | some m =>
    obtain ⟨htake, hlength⟩ := hp.whole_take hm
    constructor
    · rw [List.flatMap_cons, flatMap_source_plain]
      exact List.take_append_drop _ _
    · intro found capture hmem
      simp only [List.mem_cons, Piece.found.injEq, List.mem_map, reduceCtorEq, and_false, exists_false, or_false] at hmem
      obtain ⟨rfl, rfl⟩ := hmem
      rw [Captures, hlength]
      exact htake
    · intro before found capture after htext hfound
      obtain ⟨rfl, hsame⟩ := hhead before found capture after htext hfound
      obtain rfl := Option.some.inj (hm.symm.trans hsame)
      have htaken : (c :: body).take found.length = found := by
        rw [htext]
        simp
      refine ⟨[], ((c :: body).drop found.length).map Piece.plain, ?_, rfl⟩
      simp only [htaken, List.nil_append]

theorem Pieces.append (hp : Bracketed opener p) {a rest : List α} {left right : List (Piece α β)} (hrest : AtOpener opener rest)
    (ha : Pieces p a left) (hr : Pieces p rest right) : Pieces p (a ++ rest) (left ++ right) where
  source := by rw [List.flatMap_append, ha.source, hr.source]
  captures := by
    intro found capture hmem
    rcases List.mem_append.mp hmem with hmem | hmem
    · exact ha.captures found capture hmem
    · exact hr.captures found capture hmem
  complete := by
    intro before found capture after htext hfound
    obtain ⟨c, cs, rfl, hopen, hcs⟩ := hp.captures_chunk hfound
    have hbehind : ∀ middle, before = a ++ middle → rest = middle ++ ((c :: cs) ++ after) →
        ∃ left' right', left ++ right = left' ++ .found (c :: cs) capture :: right' ∧ left'.flatMap Piece.source = before := by
      intro middle hbefore hmiddle
      rw [← List.append_assoc] at hmiddle
      obtain ⟨left', right', rfl, hleft⟩ := hr.complete middle (c :: cs) capture after hmiddle hfound
      exact ⟨left ++ left', right', by simp, by rw [List.flatMap_append, ha.source, hleft, hbefore]⟩
    rw [List.append_assoc, List.append_eq_append_iff] at htext
    rcases htext with ⟨middle, hbefore, hmiddle⟩ | ⟨middle, hmiddle, hcut⟩
    · exact hbehind middle hbefore hmiddle
    · rcases List.append_eq_append_iff.mp hcut with ⟨tail, hinside, _⟩ | ⟨tail, hinside, htail⟩
      · have hfront : a = before ++ (c :: cs) ++ tail := by rw [hmiddle, hinside, List.append_assoc]
        obtain ⟨left', right', rfl, hleft⟩ := ha.complete before (c :: cs) capture tail hfront hfound
        exact ⟨left', right' ++ right, by simp, hleft⟩
      · cases middle with
        | nil =>
          refine hbehind [] (by simpa using hmiddle.symm) ?_
          rw [htail, hinside]
          rfl
        | cons x middle =>
          cases tail with
          | nil =>
            have hfront : a = before ++ (c :: cs) ++ [] := by rw [hmiddle, hinside]; simp
            obtain ⟨left', right', rfl, hleft⟩ := ha.complete before (c :: cs) capture [] hfront hfound
            exact ⟨left', right' ++ right, by simp, hleft⟩
          | cons y tail =>
            rw [htail] at hrest
            have hmem : y ∈ cs := by
              rw [(List.cons.inj hinside).2]
              simp
            exact absurd hrest (hcs y hmem)

theorem exists_pieces (hp : Bracketed opener p) (render : β → List α) (text : List α) :
    ∃ pieces, Pieces p text pieces ∧ rewriteAll p render text = pieces.flatMap (Piece.rendered render) := by
  induction text using opener_induction opener with
  | free text hfree =>
    refine ⟨_, Pieces.plain hp hfree, ?_⟩
    rw [rewriteAll, scan_free hp hfree, List.flatMap_map]
    rfl
  | last a c body hopen hfree ih =>
    obtain ⟨left, hleft, hrendered⟩ := ih
    refine ⟨_, hleft.append hp hopen (Pieces.chunk hp hfree), ?_⟩
    have hrest : AtOpener opener (c :: body) := hopen
    have hcut : rewriteAll p render (a ++ c :: body) = rewriteAll p render a ++ rewriteAll p render (c :: body) :=
      scan_append hp hrest a (Nat.zero_le _)
    rw [hcut, hrendered, List.flatMap_append, List.append_cancel_left_eq, rewriteAll, scan_chunk hp c hfree]
    unfold headPieces
    cases hm : p (c :: body) with
    | none =>
      rw [flatMap_rendered_plain]
      simp
    | some m =>
      obtain ⟨n, hn⟩ : ∃ n, m.2 = n + 1 := ⟨m.2 - 1, by have hpos := (hp.bounds hm).1; omega⟩
      rw [List.flatMap_cons, flatMap_rendered_plain]
      simp [Piece.rendered, hn]

end Pieces

/-- Patterns that are rewritten, one pass after the other, into a canonical form. -/
structure Markup (α β : Type*) where
  opener : α → Prop
  patterns : List (Matcher α β)
  canonical : Matcher α β
  render : β → List α
  bracketed : ∀ p ∈ patterns, Bracketed opener p
  agree : ∀ p ∈ patterns, ∀ p' ∈ patterns, ∀ text m m', p text = some m → p' text = some m' → m = m'
  canonical_bracketed : Bracketed opener canonical
  canonical_matches : ∀ text m, canonical text = some m → ∃ p ∈ patterns, p text = some m
  render_opens : ∀ p ∈ patterns, ∀ text m, p text = some m →
    ∃ x xs, render m.1 = x :: xs ∧ opener x ∧ ∀ y ∈ xs, ¬ opener y
  render_canonical : ∀ p ∈ patterns, ∀ text m, p text = some m →
    ∀ tail, canonical (render m.1 ++ tail) = some (m.1, (render m.1).length)

namespace Markup

variable (M : Markup α β)

def passes (patterns : List (Matcher α β)) (text : List α) : List α :=
  patterns.foldl (fun text p => rewriteAll p M.render text) text

/-- All passes. -/
def normalize (text : List α) : List α := M.passes M.patterns text

def marks (text : List α) : List β := captures M.canonical (M.normalize text)

variable {M}

theorem rewriteAll_append {p : Matcher α β} (hp : p ∈ M.patterns) (a : List α) {rest : List α}
    (hrest : AtOpener M.opener rest) :
    rewriteAll p M.render (a ++ rest) = rewriteAll p M.render a ++ rewriteAll p M.render rest :=
  scan_append (M.bracketed p hp) hrest a (Nat.zero_le _)

theorem rewriteAll_free {p : Matcher α β} (hp : p ∈ M.patterns) {text : List α}
    (hfree : ∀ x ∈ text, ¬ M.opener x) : rewriteAll p M.render text = text := by
  unfold rewriteAll
  rw [scan_free (M.bracketed p hp) hfree 0]
  simp

theorem rewriteAll_chunk {p : Matcher α β} (hp : p ∈ M.patterns) (c : α) {body : List α}
    (hfree : ∀ x ∈ body, ¬ M.opener x) :
    rewriteAll p M.render (c :: body) = match p (c :: body) with
      | some m => M.render m.1 ++ body.drop (m.2 - 1)
      | none => c :: body := by
  unfold rewriteAll
  rw [scan_chunk (M.bracketed p hp) c hfree]
  cases p (c :: body) with
  | some m => simp
  | none => simp

theorem rewriteAll_atOpener {p : Matcher α β} (hp : p ∈ M.patterns) {text : List α}
    (htext : AtOpener M.opener text) : AtOpener M.opener (rewriteAll p M.render text) := by
  cases text with
  | nil => trivial
  | cons c cs =>
    unfold rewriteAll scan
    cases hm : p (c :: cs) with
    | none => exact htext
    | some m =>
      obtain ⟨x, xs, hrender, hopen, _⟩ := M.render_opens p hp _ m hm
      simp only [hrender]
      exact hopen

theorem passes_append {ps : List (Matcher α β)} (hps : ∀ p ∈ ps, p ∈ M.patterns) (a : List α) {rest : List α}
    (hrest : AtOpener M.opener rest) : M.passes ps (a ++ rest) = M.passes ps a ++ M.passes ps rest := by
  induction ps generalizing a rest with
  | nil => rfl
  | cons p ps ih =>
    have hp : p ∈ M.patterns := hps p List.mem_cons_self
    show M.passes ps (rewriteAll p M.render (a ++ rest)) = _
    rw [rewriteAll_append hp a hrest]
    exact ih (fun p' hp' => hps p' (List.mem_cons_of_mem p hp')) _ (rewriteAll_atOpener hp hrest)

theorem passes_free {ps : List (Matcher α β)} (hps : ∀ p ∈ ps, p ∈ M.patterns) {text : List α}
    (hfree : ∀ x ∈ text, ¬ M.opener x) : M.passes ps text = text := by
  induction ps with
  | nil => rfl
  | cons p ps ih =>
    show M.passes ps (rewriteAll p M.render text) = _
    rw [rewriteAll_free (hps p List.mem_cons_self) hfree]
    exact ih fun p' hp' => hps p' (List.mem_cons_of_mem p hp')

theorem passes_rendered {ps : List (Matcher α β)} (hps : ∀ p ∈ ps, p ∈ M.patterns) {p : Matcher α β}
    (hp : p ∈ M.patterns) {text : List α} {m : β × Nat} (hm : p text = some m) {tail : List α}
    (hfree : ∀ x ∈ tail, ¬ M.opener x) : M.passes ps (M.render m.1 ++ tail) = M.render m.1 ++ tail := by
  obtain ⟨x, xs, hrender, _, hxs⟩ := M.render_opens p hp text m hm
  obtain ⟨p2, hp2, hcanon⟩ := M.canonical_matches _ _ (M.render_canonical p hp text m hm tail)
  have hbody : ∀ y ∈ xs ++ tail, ¬ M.opener y := by
    intro y hy
    rcases List.mem_append.mp hy with hy | hy
    · exact hxs y hy
    · exact hfree y hy
  induction ps with
  | nil => rfl
  | cons p' ps ih =>
    have hp' : p' ∈ M.patterns := hps p' List.mem_cons_self
    have hsame : rewriteAll p' M.render (M.render m.1 ++ tail) = M.render m.1 ++ tail := by
      have htext : M.render m.1 ++ tail = x :: (xs ++ tail) := by rw [hrender]; rfl
      rw [htext, rewriteAll_chunk hp' x hbody, ← htext]
      cases hm' : p' (M.render m.1 ++ tail) with
      | none => rfl
      | some m' =>
        have heq : m' = (m.1, (M.render m.1).length) := M.agree p' hp' p2 hp2 _ _ _ hm' hcanon
        subst heq
        simp [hrender]
    show M.passes ps (rewriteAll p' M.render (M.render m.1 ++ tail)) = _
    rw [hsame]
    exact ih fun p'' hp'' => hps p'' (List.mem_cons_of_mem p' hp'')

theorem passes_chunk {ps : List (Matcher α β)} (hps : ∀ p ∈ ps, p ∈ M.patterns) (c : α) {body : List α}
    (hfree : ∀ x ∈ body, ¬ M.opener x) :
    M.passes ps (c :: body) = match ps.findSome? (fun p => p (c :: body)) with
      | some m => M.render m.1 ++ body.drop (m.2 - 1)
      | none => c :: body := by
  induction ps with
  | nil => rfl
  | cons p ps ih =>
    have hp : p ∈ M.patterns := hps p List.mem_cons_self
    have hrest : ∀ p' ∈ ps, p' ∈ M.patterns := fun p' hp' => hps p' (List.mem_cons_of_mem p hp')
    show M.passes ps (rewriteAll p M.render (c :: body)) = _
    rw [rewriteAll_chunk hp c hfree, List.findSome?_cons]
    cases hm : p (c :: body) with
    | none => exact ih hrest
    | some m =>
      exact passes_rendered hrest hp hm fun x hx => hfree x (List.mem_of_mem_drop hx)

theorem normalize_append (a : List α) {rest : List α} (hrest : AtOpener M.opener rest) :
    M.normalize (a ++ rest) = M.normalize a ++ M.normalize rest :=
  passes_append (fun _ hp => hp) a hrest

/-- The patterns as one: the first that matches. -/
def first (M : Markup α β) : Matcher α β := fun text => M.patterns.findSome? fun p => p text

theorem first_eq_some {text : List α} {m : β × Nat} : M.first text = some m ↔ ∃ p ∈ M.patterns, p text = some m := by
  constructor
  · intro h
    exact List.exists_of_findSome?_eq_some h
  · intro h
    obtain ⟨p, hp, hm⟩ := h
    cases hfirst : M.first text with
    | none =>
      rw [first, List.findSome?_eq_none_iff] at hfirst
      rw [hfirst p hp] at hm
      cases hm
    | some m' =>
      obtain ⟨p', hp', hm'⟩ := List.exists_of_findSome?_eq_some hfirst
      rw [M.agree p hp p' hp' text m m' hm hm']

theorem first_bracketed (M : Markup α β) : Bracketed M.opener M.first where
  opens := by
    intro text m hm
    obtain ⟨p, hp, hpm⟩ := first_eq_some.mp hm
    exact (M.bracketed p hp).opens hpm
  bounds := by
    intro text m hm
    obtain ⟨p, hp, hpm⟩ := first_eq_some.mp hm
    exact (M.bracketed p hp).bounds hpm
  continues := by
    intro text m rest hm
    obtain ⟨p, hp, hpm⟩ := first_eq_some.mp hm
    exact first_eq_some.mpr ⟨p, hp, (M.bracketed p hp).continues rest hpm⟩
  shrinks := by
    intro text rest m hm hlen
    obtain ⟨p, hp, hpm⟩ := first_eq_some.mp hm
    exact first_eq_some.mpr ⟨p, hp, (M.bracketed p hp).shrinks hpm hlen⟩

/-- The passes, one after the other, are one pass of all patterns. -/
theorem normalize_eq_rewriteAll (text : List α) : M.normalize text = rewriteAll M.first M.render text := by
  induction text using opener_induction M.opener with
  | free text hfree =>
    rw [normalize, passes_free (fun _ hp => hp) hfree, rewriteAll, scan_free M.first_bracketed hfree]
    simp
  | last a c body hopen hfree ih =>
    have hrest : AtOpener M.opener (c :: body) := hopen
    have hcut : rewriteAll M.first M.render (a ++ c :: body) =
        rewriteAll M.first M.render a ++ rewriteAll M.first M.render (c :: body) :=
      scan_append M.first_bracketed hrest a (Nat.zero_le _)
    rw [normalize_append a hrest, hcut, ih, List.append_cancel_left_eq, normalize, passes_chunk (fun _ hp => hp) c hfree,
      rewriteAll, scan_chunk M.first_bracketed c hfree, first]
    cases M.patterns.findSome? fun p => p (c :: body) with
    | none => simp
    | some m => simp

theorem normalize_pieces (text : List α) : ∃ pieces, Pieces M.first text pieces ∧
    M.normalize text = pieces.flatMap (Piece.rendered M.render) := by
  rw [normalize_eq_rewriteAll]
  exact exists_pieces M.first_bracketed M.render text

theorem passes_eq_nil {ps : List (Matcher α β)} (hps : ∀ p ∈ ps, p ∈ M.patterns) {text : List α}
    (h : M.passes ps text = []) : text = [] := by
  induction ps generalizing text with
  | nil => exact h
  | cons p ps ih =>
    have hnone : rewriteAll p M.render text = [] := ih (fun p' hp' => hps p' (List.mem_cons_of_mem p hp')) h
    cases text with
    | nil => rfl
    | cons c cs =>
      unfold rewriteAll scan at hnone
      cases hm : p (c :: cs) with
      | none => simp [hm] at hnone
      | some m =>
        obtain ⟨x, xs, hrender, _⟩ := M.render_opens p (hps p List.mem_cons_self) _ m hm
        simp [hm, hrender] at hnone

/-- Where no marker that a text cuts is rendered as the text goes, more text shows. -/
theorem normalize_longer {text more : List α}
    (hcut : ∀ p ∈ M.patterns, ∀ c body b m, p (c :: (body ++ b)) = some m → (c :: body).length < m.2 →
      ∀ tail, M.render m.1 ++ tail ≠ c :: body)
    (h : M.normalize (text ++ more) = M.normalize text) : more = [] := by
  obtain ⟨b, rest, rfl, hb, hrest⟩ := free_prefix M.opener more
  have hnone : ∀ tail : List α, tail ++ b ++ M.normalize rest = tail → b ++ rest = [] := by
    intro tail htail
    rw [List.append_assoc, List.append_right_eq_self, List.append_eq_nil_iff] at htail
    have hrest' : rest = [] := passes_eq_nil (fun _ hp => hp) htail.2
    simp [htail.1, hrest']
  rw [← List.append_assoc, normalize_append _ hrest] at h
  rcases free_or_last M.opener text with hfree | ⟨a, c, body, rfl, hopen, hfree⟩
  · apply hnone text
    have hlong : ∀ x ∈ text ++ b, ¬ M.opener x := by
      intro x hx
      rcases List.mem_append.mp hx with hx | hx
      · exact hfree x hx
      · exact hb x hx
    unfold normalize at h ⊢
    rw [passes_free (fun _ hp => hp) hlong, passes_free (fun _ hp => hp) hfree] at h
    exact h
  · have hlong : ∀ x ∈ body ++ b, ¬ M.opener x := by
      intro x hx
      rcases List.mem_append.mp hx with hx | hx
      · exact hfree x hx
      · exact hb x hx
    have hchunk : a ++ c :: body ++ b = a ++ c :: (body ++ b) := by simp
    have hwhole : M.normalize (a ++ c :: (body ++ b)) = M.normalize a ++ M.normalize (c :: (body ++ b)) := normalize_append a hopen
    have hfront : M.normalize (a ++ c :: body) = M.normalize a ++ M.normalize (c :: body) := normalize_append a hopen
    rw [hchunk, hwhole, hfront, List.append_assoc, List.append_cancel_left_eq] at h
    have hshort := passes_chunk (M := M) (fun _ hp => hp) c hfree
    have hlonger := passes_chunk (M := M) (fun _ hp => hp) c hlong
    unfold normalize at h
    rw [hshort, hlonger] at h
    cases hm : M.patterns.findSome? (fun p => p (c :: body)) with
    | some m =>
      obtain ⟨p, hp, hpm⟩ := List.exists_of_findSome?_eq_some hm
      have hgoes : p (c :: (body ++ b)) = some m := (M.bracketed p hp).continues b hpm
      have hbound : m.2 - 1 ≤ body.length := by
        have hlen := ((M.bracketed p hp).bounds hpm).2
        simp only [List.length_cons] at hlen
        omega
      cases hm' : M.patterns.findSome? (fun p => p (c :: (body ++ b))) with
      | none =>
        rw [List.findSome?_eq_none_iff.mp hm' p hp] at hgoes
        cases hgoes
      | some m' =>
        obtain ⟨p', hp', hpm'⟩ := List.exists_of_findSome?_eq_some hm'
        obtain rfl := M.agree p hp p' hp' _ _ _ hgoes hpm'
        simp only [hm, hm', List.drop_append_of_le_length hbound] at h
        rw [← List.append_assoc (M.render m.1)] at h
        exact hnone _ h
    | none =>
      cases hm' : M.patterns.findSome? (fun p => p (c :: (body ++ b))) with
      | none =>
        simp only [hm, hm'] at h
        exact hnone (c :: body) h
      | some m =>
        obtain ⟨p, hp, hpm⟩ := List.exists_of_findSome?_eq_some hm'
        simp only [hm, hm', List.append_assoc] at h
        have hlong : (c :: body).length < m.2 := by
          by_contra hshort
          have hgoes : p (c :: body ++ b) = some m := hpm
          have hfound : p (c :: body) = some m := (M.bracketed p hp).shrinks hgoes (Nat.le_of_not_lt hshort)
          rw [List.findSome?_eq_none_iff.mp hm p hp] at hfound
          cases hfound
        exact absurd h (hcut p hp c body b m hpm hlong _)

theorem normalize_atOpener {text : List α} (htext : AtOpener M.opener text) :
    AtOpener M.opener (M.normalize text) := by
  have hall : ∀ ps : List (Matcher α β), (∀ p ∈ ps, p ∈ M.patterns) → ∀ text, AtOpener M.opener text →
      AtOpener M.opener (M.passes ps text) := by
    intro ps
    induction ps with
    | nil => exact fun _ _ h => h
    | cons p ps ih =>
      intro hps text htext
      exact ih (fun p' hp' => hps p' (List.mem_cons_of_mem p hp')) _
        (rewriteAll_atOpener (hps p List.mem_cons_self) htext)
  exact hall M.patterns (fun _ hp => hp) text htext

theorem normalize_idempotent (text : List α) : M.normalize (M.normalize text) = M.normalize text := by
  induction text using opener_induction M.opener with
  | free text hfree =>
    have hsame : M.normalize text = text := passes_free (fun _ hp => hp) hfree
    rw [hsame, hsame]
  | last a c body hopen hfree ih =>
    have hrest : AtOpener M.opener (c :: body) := hopen
    rw [normalize_append a hrest, normalize_append _ (normalize_atOpener hrest), ih, List.append_cancel_left_eq]
    have hchunk := passes_chunk (M := M) (fun _ hp => hp) c hfree
    rw [← normalize] at hchunk
    cases hm : M.patterns.findSome? fun p => p (c :: body) with
    | none =>
      rw [hm] at hchunk
      rw [hchunk, hchunk]
    | some m =>
      rw [hm] at hchunk
      obtain ⟨p, hp, hpm⟩ := List.exists_of_findSome?_eq_some hm
      rw [hchunk]
      exact passes_rendered (fun _ hp => hp) hp hpm fun x hx => hfree x (List.mem_of_mem_drop hx)

theorem marks_append (a : List α) {rest : List α} (hrest : AtOpener M.opener rest) :
    M.marks (a ++ rest) = M.marks a ++ M.marks rest := by
  unfold marks
  rw [normalize_append a hrest]
  exact scan_append M.canonical_bracketed (normalize_atOpener hrest) _ (Nat.zero_le _)

theorem marks_free {text : List α} (hfree : ∀ x ∈ text, ¬ M.opener x) : M.marks text = [] := by
  unfold marks normalize captures
  rw [passes_free (fun _ hp => hp) hfree, scan_free M.canonical_bracketed hfree 0]
  simp

theorem marks_chunk (c : α) {body : List α} (hfree : ∀ x ∈ body, ¬ M.opener x) :
    M.marks (c :: body) = ((M.patterns.findSome? fun p => p (c :: body)).map Prod.fst).toList := by
  unfold marks normalize
  rw [passes_chunk (fun _ hp => hp) c hfree]
  cases hm : M.patterns.findSome? (fun p => p (c :: body)) with
  | none =>
    have hnone : M.canonical (c :: body) = none := by
      cases h : M.canonical (c :: body) with
      | none => rfl
      | some m =>
        obtain ⟨p, hp, hpm⟩ := M.canonical_matches _ m h
        rw [List.findSome?_eq_none_iff] at hm
        rw [hm p hp] at hpm
        cases hpm
    show captures M.canonical (c :: body) = []
    unfold captures
    rw [scan_chunk M.canonical_bracketed c hfree, hnone]
    simp
  | some m =>
    obtain ⟨p, hp, hpm⟩ := List.exists_of_findSome?_eq_some hm
    obtain ⟨x, xs, hrender, _, hxs⟩ := M.render_opens p hp _ m hpm
    have hcanon := M.render_canonical p hp _ m hpm (body.drop (m.2 - 1))
    have hbody : ∀ y ∈ xs ++ body.drop (m.2 - 1), ¬ M.opener y := by
      intro y hy
      rcases List.mem_append.mp hy with hy | hy
      · exact hxs y hy
      · exact hfree y (List.mem_of_mem_drop hy)
    have htext : M.render m.1 ++ body.drop (m.2 - 1) = x :: (xs ++ body.drop (m.2 - 1)) := by rw [hrender]; rfl
    show captures M.canonical (M.render m.1 ++ body.drop (m.2 - 1)) = [m.1]
    unfold captures
    rw [htext] at hcanon ⊢
    rw [scan_chunk M.canonical_bracketed x hbody, hcanon]
    simp

theorem marks_prefix (text more : List α) : M.marks text <+: M.marks (text ++ more) := by
  rcases free_or_last M.opener text with hfree | ⟨a, c, body, rfl, hopen, hfree⟩
  · rw [marks_free hfree]
    exact List.nil_prefix
  · obtain ⟨b, rest, rfl, hb, hrest⟩ := free_prefix M.opener more
    have hfree' : ∀ x ∈ body ++ b, ¬ M.opener x := by
      intro x hx
      rcases List.mem_append.mp hx with hx | hx
      · exact hfree x hx
      · exact hb x hx
    have hsplit : a ++ c :: body ++ (b ++ rest) = (a ++ c :: (body ++ b)) ++ rest := by simp
    have hgoes : M.marks (c :: body) <+: M.marks (c :: (body ++ b)) := by
      rw [marks_chunk c hfree, marks_chunk c hfree']
      cases hm : M.patterns.findSome? (fun p => p (c :: body)) with
      | none => exact List.nil_prefix
      | some m =>
        obtain ⟨p, hp, hpm⟩ := List.exists_of_findSome?_eq_some hm
        have hlong : p (c :: (body ++ b)) = some m := (M.bracketed p hp).continues b hpm
        cases hm' : M.patterns.findSome? (fun p => p (c :: (body ++ b))) with
        | none =>
          rw [List.findSome?_eq_none_iff] at hm'
          rw [hm' p hp] at hlong
          cases hlong
        | some m' =>
          obtain ⟨p', hp', hpm'⟩ := List.exists_of_findSome?_eq_some hm'
          obtain rfl := M.agree p hp p' hp' _ _ _ hlong hpm'
          exact List.prefix_refl _
    have hbefore : M.marks (a ++ c :: body) = M.marks a ++ M.marks (c :: body) := marks_append a hopen
    have hafter : M.marks (a ++ c :: (body ++ b)) = M.marks a ++ M.marks (c :: (body ++ b)) := marks_append a hopen
    rw [hsplit, marks_append _ hrest, hbefore, hafter, List.append_assoc]
    exact (List.prefix_append_right_inj _).mpr (hgoes.trans (List.prefix_append _ _))

end Markup

end Framework
