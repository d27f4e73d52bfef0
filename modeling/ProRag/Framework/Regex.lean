import Mathlib.Data.List.Basic

/-!
# Backtracking regular expressions

A pattern that is tried at a place of a text gives the places where it can stop, in the order in which a
backtracking matcher tries them; the first is the match.
-/

namespace Framework

/-- The character before a place, and what follows. -/
structure TextPos (α : Type*) where
  before : Option α
  rest : List α

variable {α : Type*}

/-- The last character of `m`, or `b` when there is none. -/
def lastOf : Option α → List α → Option α
  | b, [] => b
  | _, c :: m => lastOf (some c) m

@[simp] theorem lastOf_nil (b : Option α) : lastOf b [] = b := rfl

@[simp] theorem lastOf_cons (b : Option α) (c : α) (m : List α) : lastOf b (c :: m) = lastOf (some c) m := rfl

@[simp] theorem lastOf_append (b : Option α) (m m' : List α) : lastOf b (m ++ m') = lastOf (lastOf b m) m' := by
  induction m generalizing b with
  | nil => simp
  | cons c m ih => simp [ih]

inductive Regex (α : Type*)
  | empty
  | char (p : α → Bool)
  | boundary (isWord : α → Bool)
  | seq (r s : Regex α)
  | alt (r s : Regex α)
  | maxRepeat (lo : Nat) (hi : Option Nat) (r : Regex α)

namespace Regex

def times (f : TextPos α → List (TextPos α)) : Nat → TextPos α → List (TextPos α)
  | 0, p => [p]
  | n + 1, p => (f p).flatMap (times f n)

/-- As often as possible first; a turn that consumes nothing is not taken. -/
def greedy (f : TextPos α → List (TextPos α)) : Nat → TextPos α → List (TextPos α)
  | 0, p => [p]
  | n + 1, p => ((f p).filter fun q => q.rest.length < p.rest.length).flatMap (greedy f n) ++ [p]

def run : Regex α → TextPos α → List (TextPos α)
  | empty, p => [p]
  | char c, p =>
    match p.rest with
    | [] => []
    | x :: xs => if c x then [⟨some x, xs⟩] else []
  | boundary isWord, p => if p.before.any isWord ≠ p.rest.head?.any isWord then [p] else []
  | seq r s, p => (run r p).flatMap (run s)
  | alt r s, p => run r p ++ run s p
  | maxRepeat lo hi r, p =>
    (times (run r) lo p).flatMap fun q => greedy (run r) (hi.elim q.rest.length fun n => n - lo) q

/-- `r?` -/
def opt (r : Regex α) : Regex α := maxRepeat 0 (some 1) r

/-- `r*` -/
def star (r : Regex α) : Regex α := maxRepeat 0 none r

def concat (rs : List (Regex α)) : Regex α := rs.foldr seq empty

def oneOf (rs : List (Regex α)) : Regex α := rs.foldr alt (char fun _ => false)

/-- A match: where it begins, and what it takes. -/
structure Match (α : Type*) where
  index : Nat
  text : List α

/-- The first place from `i` on at which the pattern matches. -/
def searchFrom (r : Regex α) : Nat → Option α → List α → Option (Match α)
  | i, b, [] => (r.run ⟨b, []⟩).head?.map fun _ => ⟨i, []⟩
  | i, b, c :: cs =>
    match (r.run ⟨b, c :: cs⟩).head? with
    | some q => some ⟨i, (c :: cs).take ((c :: cs).length - q.rest.length)⟩
    | none => searchFrom r (i + 1) (some c) cs

/-- `pattern.exec(text)` of a global pattern. -/
def exec (r : Regex α) (text : List α) (lastIndex : Nat) : Option (Match α) :=
  if text.length < lastIndex then none
  else searchFrom r lastIndex (text.take lastIndex).getLast? (text.drop lastIndex)

/-- What remains when every match is replaced by nothing; `skip` characters are still part of the last match. -/
def eraseFrom (r : Regex α) : Nat → Option α → List α → List α
  | _, _, [] => []
  | skip + 1, _, c :: cs => eraseFrom r skip (some c) cs
  | 0, b, c :: cs =>
    match (r.run ⟨b, c :: cs⟩).head? with
    | none => c :: eraseFrom r 0 (some c) cs
    | some q =>
      if q.rest.length ≤ cs.length then eraseFrom r (cs.length - q.rest.length) (some c) cs
      else c :: eraseFrom r 0 (some c) cs

/-- `pattern.sub("", text)`. -/
def erase (r : Regex α) (text : List α) : List α := eraseFrom r 0 none text

@[simp] theorem run_empty (p : TextPos α) : run empty p = [p] := rfl

@[simp] theorem run_char_nil (c : α → Bool) (b : Option α) : run (char c) ⟨b, []⟩ = [] := rfl

@[simp] theorem run_char_cons (c : α → Bool) (b : Option α) (x : α) (xs : List α) :
    run (char c) ⟨b, x :: xs⟩ = if c x then [⟨some x, xs⟩] else [] := rfl

@[simp] theorem run_seq (r s : Regex α) (p : TextPos α) : run (seq r s) p = (run r p).flatMap (run s) := rfl

@[simp] theorem run_alt (r s : Regex α) (p : TextPos α) : run (alt r s) p = run r p ++ run s p := rfl

theorem run_maxRepeat (lo : Nat) (hi : Option Nat) (r : Regex α) (p : TextPos α) : run (maxRepeat lo hi r) p =
    (times r.run lo p).flatMap fun q => greedy r.run (hi.elim q.rest.length fun n => n - lo) q := rfl

@[simp] theorem run_concat_nil (p : TextPos α) : run (concat []) p = [p] := rfl

@[simp] theorem run_concat_cons (r : Regex α) (rs : List (Regex α)) (p : TextPos α) :
    run (concat (r :: rs)) p = (run r p).flatMap (run (concat rs)) := rfl

/-! ## The words of a pattern -/

/-- The words a pattern can match; the boundary's condition on the surroundings is left out. -/
def Language : Regex α → List α → Prop
  | empty, m => m = []
  | char c, m => ∃ x, c x ∧ m = [x]
  | boundary _, m => m = []
  | seq r s, m => ∃ a b, Language r a ∧ Language s b ∧ m = a ++ b
  | alt r s, m => Language r m ∨ Language s m
  | maxRepeat lo hi r, m =>
    ∃ ms : List (List α), (∀ a ∈ ms, Language r a) ∧ lo ≤ ms.length ∧ (∀ n, hi = some n → ms.length ≤ max lo n) ∧ m = ms.flatten

variable {f : TextPos α → List (TextPos α)} {L : List α → Prop}

/-- A step between places that consumes a word of `L`. -/
def Consumes (f : TextPos α → List (TextPos α)) (L : List α → Prop) : Prop :=
  ∀ p, ∀ q ∈ f p, ∃ m, L m ∧ p.rest = m ++ q.rest

theorem Consumes.times (h : Consumes f L) (n : Nat) :
    Consumes (Regex.times f n) fun m => ∃ ms : List (List α), (∀ a ∈ ms, L a) ∧ ms.length = n ∧ m = ms.flatten := by
  induction n with
  | zero =>
    intro p q hq
    rw [List.mem_singleton.mp hq]
    exact ⟨[], ⟨[], by simp⟩, rfl⟩
  | succ n ih =>
    intro p q hq
    obtain ⟨p', hp', hq⟩ := List.mem_flatMap.mp hq
    obtain ⟨m, hm, hrest⟩ := h p p' hp'
    obtain ⟨_, ⟨ms, hms, hlength, rfl⟩, hrest'⟩ := ih p' q hq
    exact ⟨m ++ ms.flatten, ⟨m :: ms, by simpa using ⟨hm, hms⟩, by simp [hlength], by simp⟩, by simp [hrest, hrest']⟩

theorem Consumes.greedy (h : Consumes f L) (n : Nat) :
    Consumes (Regex.greedy f n) fun m => ∃ ms : List (List α), (∀ a ∈ ms, L a) ∧ ms.length ≤ n ∧ m = ms.flatten := by
  induction n with
  | zero =>
    intro p q hq
    rw [List.mem_singleton.mp hq]
    exact ⟨[], ⟨[], by simp⟩, rfl⟩
  | succ n ih =>
    intro p q hq
    rcases List.mem_append.mp hq with hq | hq
    · obtain ⟨p', hp', hq⟩ := List.mem_flatMap.mp hq
      obtain ⟨m, hm, hrest⟩ := h p p' (List.mem_of_mem_filter hp')
      obtain ⟨_, ⟨ms, hms, hlength, rfl⟩, hrest'⟩ := ih p' q hq
      exact ⟨m ++ ms.flatten, ⟨m :: ms, by simpa using ⟨hm, hms⟩, by simp [hlength], by simp⟩, by simp [hrest, hrest']⟩
    · rw [List.mem_singleton.mp hq]
      exact ⟨[], ⟨[], by simp⟩, rfl⟩

/-- The matcher stops only where a word of the pattern ends. -/
theorem run_consumes (r : Regex α) : Consumes r.run r.Language := by
  induction r with
  | empty =>
    intro p q hq
    rw [List.mem_singleton.mp hq]
    exact ⟨[], rfl, rfl⟩
  | char c =>
    rintro ⟨b, _ | ⟨x, xs⟩⟩ q hq
    · simp at hq
    · rw [run_char_cons] at hq
      split at hq
      · rename_i hx
        rw [List.mem_singleton.mp hq]
        exact ⟨[x], ⟨x, hx, rfl⟩, rfl⟩
      · simp at hq
  | boundary isWord =>
    intro p q hq
    have hp : q = p := by
      simp only [run] at hq
      split at hq <;> simp_all
    rw [hp]
    exact ⟨[], rfl, rfl⟩
  | seq r s ihr ihs =>
    intro p q hq
    obtain ⟨p', hp', hq⟩ := List.mem_flatMap.mp hq
    obtain ⟨a, ha, hrest⟩ := ihr p p' hp'
    obtain ⟨b, hb, hrest'⟩ := ihs p' q hq
    exact ⟨a ++ b, ⟨a, b, ha, hb, rfl⟩, by simp [hrest, hrest']⟩
  | alt r s ihr ihs =>
    intro p q hq
    rcases List.mem_append.mp hq with hq | hq
    · obtain ⟨m, hm, hrest⟩ := ihr p q hq
      exact ⟨m, Or.inl hm, hrest⟩
    · obtain ⟨m, hm, hrest⟩ := ihs p q hq
      exact ⟨m, Or.inr hm, hrest⟩
  | maxRepeat lo hi r ih =>
    intro p q hq
    obtain ⟨p', hp', hq⟩ := List.mem_flatMap.mp hq
    obtain ⟨_, ⟨ms, hms, hlength, rfl⟩, hrest⟩ := Consumes.times ih lo p p' hp'
    obtain ⟨_, ⟨ms', hms', hlength', rfl⟩, hrest'⟩ := Consumes.greedy ih _ p' q hq
    refine ⟨(ms ++ ms').flatten, ⟨ms ++ ms', ?_, ?_, ?_, rfl⟩, by simp [hrest, hrest']⟩
    · intro a ha
      exact (List.mem_append.mp ha).elim (hms a) (hms' a)
    · simp [hlength]
    · intro n hn
      subst hn
      simp only [Option.elim] at hlength'
      simp only [List.length_append, hlength]
      omega

theorem run_eq_nil {r : Regex α} {b : Option α} {text : List α} (h : ∀ m, r.Language m → ¬m <+: text) : r.run ⟨b, text⟩ = [] := by
  apply List.eq_nil_iff_forall_not_mem.mpr
  intro q hq
  obtain ⟨m, hm, hrest⟩ := run_consumes r _ q hq
  exact h m hm ⟨q.rest, hrest.symm⟩

@[simp] theorem language_concat_nil (m : List α) : (concat []).Language m ↔ m = [] := Iff.rfl

@[simp] theorem language_concat_cons (r : Regex α) (rs : List (Regex α)) (m : List α) :
    (concat (r :: rs)).Language m ↔ ∃ a b, r.Language a ∧ (concat rs).Language b ∧ m = a ++ b := Iff.rfl

@[simp] theorem language_char (c : α → Bool) (m : List α) : (char c).Language m ↔ ∃ x, c x ∧ m = [x] := Iff.rfl

@[simp] theorem language_boundary (isWord : α → Bool) (m : List α) : (boundary isWord).Language m ↔ m = [] := Iff.rfl

@[simp] theorem language_alt (r s : Regex α) (m : List α) : (alt r s).Language m ↔ r.Language m ∨ s.Language m := Iff.rfl

theorem language_oneOf {rs : List (Regex α)} {m : List α} (h : (oneOf rs).Language m) : ∃ r ∈ rs, r.Language m := by
  induction rs with
  | nil =>
    obtain ⟨x, hx, _⟩ := h
    cases hx
  | cons r rs ih =>
    rcases h with h | h
    · exact ⟨r, List.mem_cons_self, h⟩
    · obtain ⟨s, hs, hm⟩ := ih h
      exact ⟨s, List.mem_cons_of_mem _ hs, hm⟩

theorem language_opt {r : Regex α} {m : List α} (h : (opt r).Language m) : m = [] ∨ r.Language m := by
  obtain ⟨ms, hms, _, hhi, rfl⟩ := h
  have hlength := hhi 1 rfl
  match ms with
  | [] => exact Or.inl rfl
  | [a] => exact Or.inr (by simpa using hms a List.mem_cons_self)
  | _ :: _ :: _ => simp at hlength

theorem language_repeat_char {lo : Nat} {hi : Option Nat} {c : α → Bool} {m : List α}
    (h : (maxRepeat lo hi (char c)).Language m) : (∀ x ∈ m, c x) ∧ lo ≤ m.length := by
  obtain ⟨ms, hms, hlo, _, rfl⟩ := h
  constructor
  · intro x hx
    obtain ⟨a, ha, hx⟩ := List.mem_flatten.mp hx
    obtain ⟨y, hy, rfl⟩ := hms a ha
    rwa [List.mem_singleton.mp hx]
  · have hone : ms.map List.length = List.replicate ms.length 1 := by
      apply List.map_eq_replicate_iff.mpr
      intro a ha
      obtain ⟨y, _, rfl⟩ := hms a ha
      rfl
    rw [List.length_flatten, hone]
    simpa using hlo

/-! ## Searching -/

theorem searchFrom_found {r : Regex α} {i : Nat} {b : Option α} {text : List α} {m : Match α}
    (h : searchFrom r i b text = some m) :
    r.Language m.text ∧ ∃ skipped rest, text = skipped ++ m.text ++ rest ∧ m.index = i + skipped.length := by
  induction text generalizing i b with
  | nil =>
    obtain ⟨q, hq, rfl⟩ := Option.map_eq_some_iff.mp h
    obtain ⟨word, hword, hrest⟩ := run_consumes r _ q (List.mem_of_mem_head? hq)
    obtain rfl := (List.append_eq_nil_iff.mp hrest.symm).1
    exact ⟨hword, [], [], rfl, rfl⟩
  | cons c cs ih =>
    unfold searchFrom at h
    cases hrun : (r.run ⟨b, c :: cs⟩).head? with
    | some q =>
      simp only [hrun, Option.some.injEq] at h
      subst h
      obtain ⟨word, hword, hrest⟩ := run_consumes r _ q (List.mem_of_mem_head? hrun)
      have hrest' : c :: cs = word ++ q.rest := hrest
      have htaken : (c :: cs).take ((c :: cs).length - q.rest.length) = word := by
        rw [hrest', List.length_append, Nat.add_sub_cancel, List.take_left]
      rw [htaken]
      exact ⟨hword, [], q.rest, hrest', rfl⟩
    | none =>
      simp only [hrun] at h
      obtain ⟨hword, skipped, rest, rfl, hindex⟩ := ih h
      refine ⟨hword, c :: skipped, rest, rfl, ?_⟩
      rw [hindex, List.length_cons]
      omega

theorem exec_found {r : Regex α} {text : List α} {lastIndex : Nat} {m : Match α} (h : r.exec text lastIndex = some m) :
    r.Language m.text ∧ ∃ skipped rest, text.drop lastIndex = skipped ++ m.text ++ rest ∧
      m.index = lastIndex + skipped.length := by
  unfold exec at h
  split at h
  · cases h
  · exact searchFrom_found h

/-! ## The first match -/

/-- Before `t`, the pattern first matches `m`. -/
def First (r : Regex α) (b : Option α) (m t : List α) : Prop :=
  (r.run ⟨b, m ++ t⟩).head? = some ⟨lastOf b m, t⟩

theorem head?_flatMap_of {β γ : Type*} {l : List β} {g : β → List γ} {x : β} {y : γ} (hx : l.head? = some x)
    (hy : (g x).head? = some y) : (l.flatMap g).head? = some y := by
  cases l with
  | nil => cases hx
  | cons z l =>
    cases hx
    simp [hy]

variable {r s : Regex α} {rs : List (Regex α)} {b : Option α} {m m' t : List α}

theorem First.nil : First (concat []) b [] t := rfl

theorem First.cons (h : First r b m (m' ++ t)) (h' : First (concat rs) (lastOf b m) m' t) :
    First (concat (r :: rs)) b (m ++ m') t := by
  unfold First at h h' ⊢
  rw [run_concat_cons, List.append_assoc, lastOf_append]
  exact head?_flatMap_of h h'

theorem First.skip (h : First r b [] (m ++ t)) (h' : First (concat rs) b m t) : First (concat (r :: rs)) b m t :=
  h.cons h'

theorem First.char {c : α → Bool} {x : α} (h : c x) : First (char c) b [x] t := by
  simp [First, h]

theorem First.boundary {isWord : α → Bool} (h : b.any isWord ≠ t.head?.any isWord) : First (boundary isWord) b [] t := by
  simp [First, run, h]

theorem First.altLeft (h : First r b m t) : First (alt r s) b m t := by
  unfold First at h ⊢
  simp [h]

theorem First.altRight (hr : r.run ⟨b, m ++ t⟩ = []) (h : First s b m t) : First (alt r s) b m t := by
  unfold First at h ⊢
  simp [hr, h]

theorem times_char {c : α → Bool} (n : Nat) (hm : ∀ x ∈ m, c x) (hn : m.length = n) :
    times (Regex.char c).run n ⟨b, m ++ t⟩ = [⟨lastOf b m, t⟩] := by
  induction m generalizing n b with
  | nil =>
    subst hn
    rfl
  | cons x m ih =>
    subst hn
    have hx : c x := hm x List.mem_cons_self
    simp [times, hx, ih m.length (fun y hy => hm y (List.mem_cons_of_mem _ hy))]

theorem greedy_char {c : α → Bool} (n : Nat) (hm : ∀ x ∈ m, c x) (hn : m.length ≤ n)
    (hstop : m.length = n ∨ t.head?.any c = false) :
    (greedy (Regex.char c).run n ⟨b, m ++ t⟩).head? = some ⟨lastOf b m, t⟩ := by
  induction m generalizing n b with
  | nil =>
    cases n with
    | zero => rfl
    | succ n =>
      cases t with
      | nil => simp [greedy]
      | cons y t =>
        have hy : c y = false := by simpa using hstop
        simp [greedy, hy]
  | cons x m ih =>
    cases n with
    | zero => simp at hn
    | succ n =>
      have hx : c x := hm x List.mem_cons_self
      have hrest := ih (b := some x) n (fun y hy => hm y (List.mem_cons_of_mem _ hy)) (by simpa using hn) (by simpa using hstop)
      simp [greedy, hx, hrest]

theorem First.repeatChar {c : α → Bool} {lo : Nat} {hi : Option Nat} (hm : ∀ x ∈ m, c x) (hlo : lo ≤ m.length)
    (hhi : ∀ n, hi = some n → m.length ≤ n) (hstop : t.head?.any c = false) : First (maxRepeat lo hi (.char c)) b m t := by
  have hfirst : times (Regex.char c).run lo ⟨b, m ++ t⟩ = [⟨lastOf b (m.take lo), m.drop lo ++ t⟩] := by
    have hsplit : m ++ t = m.take lo ++ (m.drop lo ++ t) := by
      rw [← List.append_assoc, List.take_append_drop]
    rw [hsplit]
    exact times_char lo (fun x hx => hm x (List.mem_of_mem_take hx)) (List.length_take_of_le hlo)
  have hlast : lastOf (lastOf b (m.take lo)) (m.drop lo) = lastOf b m := by
    rw [← lastOf_append, List.take_append_drop]
  rw [First, run_maxRepeat, hfirst, List.flatMap_singleton, ← hlast]
  apply greedy_char _ (fun x hx => hm x (List.mem_of_mem_drop hx)) _ (Or.inr hstop)
  cases hi with
  | none => simp
  | some n =>
    have hle := hhi n rfl
    simp only [Option.elim, List.length_drop]
    omega

theorem First.optTaken (h : First r b m t) (hm : m ≠ []) : First (opt r) b m t := by
  unfold First at h ⊢
  cases hrun : r.run ⟨b, m ++ t⟩ with
  | nil =>
    rw [hrun] at h
    cases h
  | cons q qs =>
    rw [hrun] at h
    cases h
    have hpos := List.length_pos_iff.mpr hm
    simp [opt, run, times, greedy, hrun, hpos]

theorem First.optSkipped (h : r.run ⟨b, t⟩ = []) : First (opt r) b [] t := by
  simp [First, opt, run, times, greedy, h]

theorem First.starEnd : First (star r) b [] [] := by
  simp [First, star, run, times, greedy]

/-! ## Erasing the matches -/

@[simp] theorem eraseFrom_nil (skip : Nat) (b : Option α) : eraseFrom r skip b [] = [] := by
  cases skip with
  | _ => rfl

theorem eraseFrom_all (skip : Nat) (text : List α) (h : text.length ≤ skip) : eraseFrom r skip b text = [] := by
  induction text generalizing skip b with
  | nil => simp
  | cons c cs ih =>
    cases skip with
    | zero => simp at h
    | succ skip => exact ih skip (by simpa using h)

theorem eraseFrom_kept (h : ∀ a u, m = a ++ u → u ≠ [] → r.run ⟨lastOf b a, u ++ t⟩ = []) :
    eraseFrom r 0 b (m ++ t) = m ++ eraseFrom r 0 (lastOf b m) t := by
  induction m generalizing b with
  | nil => rfl
  | cons c m ih =>
    have hnone : r.run ⟨b, c :: (m ++ t)⟩ = [] := h [] (c :: m) rfl (List.cons_ne_nil _ _)
    have hrest := ih (b := some c) fun a u hm hu => h (c :: a) u (by rw [hm]; rfl) hu
    simp [eraseFrom, hnone, hrest]

theorem First.eraseFrom (h : First r b m []) (hm : m ≠ []) : Regex.eraseFrom r 0 b m = [] := by
  unfold First at h
  rw [List.append_nil] at h
  cases m with
  | nil => exact absurd rfl hm
  | cons c m => simp [Regex.eraseFrom, h, eraseFrom_all]

end Regex

end Framework
