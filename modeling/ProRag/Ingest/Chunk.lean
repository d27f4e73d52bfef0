import ProRag.Framework.Windows
import ProRag.Chat.Citations

/-!
# Chunking by pages

The words of all pages are one stream, and the chunks are windows of it.
-/

namespace ProRag

open Framework

/-- `text.split()`. -/
def pySplit (text : Text) : List Text := (text.splitOnP isPySpace).filter fun w => w ≠ []

/-- `" ".join(words)`. -/
def joinWords (words : List Text) : Text := [' '].intercalate words

/-- `max(target_tokens - overlap_tokens, 1)`. -/
def chunkStep (targetTokens overlapTokens : Nat) : Nat := max (targetTokens - overlapTokens) 1

/-- `Chunk` of `chunk.py`. -/
structure PagesChunk where
  ord : Nat
  text : Text
  pageStart : Nat
  pageEnd : Nat
  tokenCount : Nat

def pageStream (pages : List Text) : List (Text × Nat) :=
  (pages.zipIdx 1).flatMap fun page => (pySplit page.1).map fun word => (word, page.2)

def pagesChunk (ord : Nat) (first : Text × Nat) (rest : List (Text × Nat)) : PagesChunk where
  ord := ord
  text := joinWords ((first :: rest).map Prod.fst)
  pageStart := first.2
  pageEnd := ((first :: rest).getLast (List.cons_ne_nil first rest)).2
  tokenCount := (first :: rest).length

theorem chunkStep_pos (targetTokens overlapTokens : Nat) : 0 < chunkStep targetTokens overlapTokens := by
  unfold chunkStep
  omega

/-- The loop of `chunk_pages`, from `i` and `ord_` on. -/
def chunkPagesFrom (targetTokens overlapTokens : Nat) (stream : List (Text × Nat)) (i ord : Nat) : List PagesChunk :=
  if i < stream.length then
    match (stream.drop i).take targetTokens with
    | [] => []
    | first :: rest =>
      pagesChunk ord first rest ::
        if stream.length ≤ i + targetTokens then []
        else chunkPagesFrom targetTokens overlapTokens stream (i + chunkStep targetTokens overlapTokens) (ord + 1)
  else []
termination_by stream.length - i
decreasing_by
  have hstep := chunkStep_pos targetTokens overlapTokens
  omega

/-- `chunk_pages(pages, target_tokens, overlap_tokens)`. -/
def chunkPages (pages : List Text) (targetTokens overlapTokens : Nat) : List PagesChunk :=
  if pageStream pages = [] then [] else chunkPagesFrom targetTokens overlapTokens (pageStream pages) 0 0

/-- The chunk of a window, where the window is not empty. -/
def cutAt {α γ : Type*} (make : Nat → α → List α → γ) (ord : Nat) : List α → Option γ
  | [] => none
  | first :: rest => some (make ord first rest)

/-- The chunks are those of the windows from place `i` on, numbered from `ord`. -/
def IsCut {α γ : Type*} (s : Stride) (make : Nat → α → List α → γ) (stream : List α) (i ord : Nat) (chunks : List γ) : Prop :=
  ∀ k, chunks[k]? = (s.starts stream.length i)[k]?.bind fun j => cutAt make (ord + k) (s.windowAt stream j)

/-- What a chunk has of the stream it is cut from. -/
structure PagesChunkOf (stream : List (Text × Nat)) (size step k : Nat) (c : PagesChunk) : Prop where
  ord : c.ord = k
  text : c.text = joinWords (((stream.drop (k * step)).take size).map Prod.fst)
  tokenCount : c.tokenCount = (pySplit c.text).length
  pageStart : ∃ word, stream[k * step]? = some (word, c.pageStart)
  pageEnd : ∃ word, stream[k * step + c.tokenCount - 1]? = some (word, c.pageEnd)
  pages : ∀ j, k * step ≤ j → j < k * step + c.tokenCount → ∀ word page, stream[j]? = some (word, page) →
    c.pageStart ≤ page ∧ page ≤ c.pageEnd

section

/-! ## Words -/

theorem pySplit_word {text word : Text} (h : word ∈ pySplit text) : word ≠ [] ∧ ∀ c ∈ word, isPySpace c = false := by
  obtain ⟨hmem, hne⟩ := List.mem_filter.mp h
  refine ⟨by simpa using hne, ?_⟩
  clear h hne
  induction text generalizing word with
  | nil =>
    rw [List.splitOnP_nil, List.mem_singleton] at hmem
    simp [hmem]
  | cons ch text ih =>
    rw [List.splitOnP_cons_eq_if_modifyHead] at hmem
    split at hmem
    · rcases List.mem_cons.mp hmem with rfl | hmem
      · simp
      · exact ih hmem
    · rename_i hch
      rw [Bool.not_eq_true] at hch
      obtain ⟨first, others, hsplit⟩ := List.exists_cons_of_ne_nil (List.splitOnP_ne_nil isPySpace text)
      rw [hsplit] at hmem ih
      rw [List.modifyHead_cons, List.mem_cons] at hmem
      rcases hmem with rfl | hmem
      · intro c hc
        rcases List.mem_cons.mp hc with rfl | hc
        · exact hch
        · exact ih List.mem_cons_self c hc
      · exact ih (List.mem_cons_of_mem _ hmem)

theorem pySplit_single {word : Text} (hne : word ≠ []) (hword : ∀ c ∈ word, isPySpace c = false) : pySplit word = [word] := by
  rw [pySplit, List.splitOnP_eq_singleton hword]
  simp [hne]

theorem pySplit_break {ch : Char} (hspace : isPySpace ch = true) (text more : Text) :
    pySplit (text ++ ch :: more) = pySplit text ++ pySplit more := by
  rw [pySplit, List.splitOnP_append_cons text more hspace, List.filter_append]
  rfl

theorem pySplit_space (text more : Text) : pySplit (text ++ ' ' :: more) = pySplit text ++ pySplit more :=
  pySplit_break (by decide) text more

theorem pySplit_cons_space {ch : Char} (hspace : isPySpace ch = true) (text : Text) : pySplit (ch :: text) = pySplit text :=
  pySplit_break hspace [] text

theorem pySplit_ne_nil {text : Text} : pySplit text ≠ [] ↔ ∃ c ∈ text, isPySpace c = false := by
  induction text with
  | nil => simp [pySplit]
  | cons ch text ih =>
    cases hch : isPySpace ch with
    | true => simp [pySplit_cons_space hch, hch, ih]
    | false =>
      obtain ⟨first, others, hsplit⟩ := List.exists_cons_of_ne_nil (List.splitOnP_ne_nil isPySpace text)
      rw [pySplit, List.splitOnP_cons_eq_if_modifyHead, hch, hsplit]
      simp [hch]

theorem pySplit_joinWords {words : List Text} (h : ∀ word ∈ words, word ≠ [] ∧ ∀ c ∈ word, isPySpace c = false) :
    pySplit (joinWords words) = words := by
  induction words with
  | nil => rfl
  | cons word words ih =>
    obtain ⟨hne, hword⟩ := h word List.mem_cons_self
    have hrest := ih fun w hw => h w (List.mem_cons_of_mem _ hw)
    cases words with
    | nil =>
      rw [joinWords, List.intercalate_singleton]
      exact pySplit_single hne hword
    | cons next words =>
      rw [joinWords, List.intercalate_cons_cons, List.append_assoc, List.singleton_append, pySplit_space,
        pySplit_single hne hword]
      rw [joinWords] at hrest
      rw [hrest]
      rfl

/-! ## Cuts of a stream -/

variable {α β γ : Type*} {targetTokens overlapTokens : Nat}

def chunkStride (targetTokens overlapTokens : Nat) (htarget : 1 ≤ targetTokens) : Stride where
  size := targetTokens
  step := chunkStep targetTokens overlapTokens
  step_pos := chunkStep_pos targetTokens overlapTokens
  step_le := by unfold chunkStep; omega

section Cut

variable {s : Stride} {make : Nat → α → List α → γ} {stream rest : List α} {first : α} {i ord size : Nat} {chunks : List γ}

theorem window_place (h : (stream.drop i).take size = first :: rest) :
    ∀ k, k < rest.length + 1 → stream[i + k]? = (first :: rest)[k]? := by
  intro k hk
  have hsize : (first :: rest).length ≤ size := by
    rw [← h, List.length_take]
    exact Nat.min_le_left _ _
  rw [List.length_cons] at hsize
  rw [← h, List.getElem?_take, if_pos (by omega), List.getElem?_drop]

theorem window_last (h : (stream.drop i).take size = first :: rest) :
    stream[i + (first :: rest).length - 1]? = some ((first :: rest).getLast (List.cons_ne_nil first rest)) := by
  have hplace : i + (first :: rest).length - 1 = i + rest.length := by
    rw [List.length_cons]
    omega
  rw [hplace, window_place h rest.length (by omega), ← List.getLast?_eq_some_getLast, List.getLast?_eq_getElem?]
  rfl

theorem window_cons (s : Stride) (h : i < stream.length) : ∃ first rest, s.windowAt stream i = first :: rest := by
  have hstep := s.step_pos
  have hle := s.step_le
  apply List.exists_cons_of_length_pos
  rw [Stride.windowAt_length]
  omega

theorem IsCut.done (h : stream.length ≤ i) : IsCut s make stream i ord [] := by
  intro k
  rw [Stride.starts_end h]
  rfl

theorem IsCut.last (h : i < stream.length) (hlast : stream.length ≤ i + s.size) (hwindow : s.windowAt stream i = first :: rest) :
    IsCut s make stream i ord [make ord first rest] := by
  intro k
  rw [Stride.starts_last h hlast]
  cases k with
  | zero =>
    simp only [List.getElem?_cons_zero, Option.bind_some, hwindow]
    rfl
  | succ k => rfl

theorem IsCut.next (h : i + s.size < stream.length) (hwindow : s.windowAt stream i = first :: rest)
    (hcut : IsCut s make stream (i + s.step) (ord + 1) chunks) : IsCut s make stream i ord (make ord first rest :: chunks) := by
  intro k
  rw [Stride.starts_next h]
  cases k with
  | zero =>
    simp only [List.getElem?_cons_zero, Option.bind_some, hwindow]
    rfl
  | succ k =>
    simp only [List.getElem?_cons_succ]
    rw [hcut k, Nat.add_assoc, Nat.add_comm 1 k]

/-- A loop that makes one chunk of each window cuts the stream. -/
theorem IsCut.of_loop (loop : Nat → Nat → Option (List γ)) (hdone : ∀ i ord, stream.length ≤ i → loop i ord = some [])
    (hlast : ∀ i ord first rest, i < stream.length → stream.length ≤ i + s.size →
      s.windowAt stream i = first :: rest → loop i ord = some [make ord first rest])
    (hnext : ∀ i ord first rest, i + s.size < stream.length → s.windowAt stream i = first :: rest →
      loop i ord = (loop (i + s.step) (ord + 1)).map fun chunks => make ord first rest :: chunks)
    (i ord : Nat) : ∃ chunks, loop i ord = some chunks ∧ IsCut s make stream i ord chunks := by
  induction hsize : stream.length - i using Nat.strong_induction_on generalizing i ord with
  | _ d ih =>
    by_cases hi : i < stream.length
    · obtain ⟨first, rest, hwindow⟩ := window_cons s hi
      by_cases hend : stream.length ≤ i + s.size
      · exact ⟨_, hlast i ord first rest hi hend hwindow, IsCut.last hi hend hwindow⟩
      · have hstep := s.step_pos
        obtain ⟨later, hlater, hcut⟩ := ih (stream.length - (i + s.step)) (by omega) (i + s.step) (ord + 1) rfl
        have hmore : i + s.size < stream.length := Nat.lt_of_not_le hend
        have hloop := hnext i ord first rest hmore hwindow
        rw [hlater, Option.map_some] at hloop
        exact ⟨_, hloop, IsCut.next hmore hwindow hcut⟩
    · have hend : stream.length ≤ i := Nat.le_of_not_lt hi
      exact ⟨[], hdone i ord hend, IsCut.done hend⟩

theorem IsCut.chunk (h : IsCut s make stream 0 ord chunks) {k : Nat} {c : γ} (hc : chunks[k]? = some c) :
    ∃ first rest, (stream.drop (k * s.step)).take s.size = first :: rest ∧ c = make (ord + k) first rest := by
  rw [h k, Option.bind_eq_some_iff] at hc
  obtain ⟨j, hj, hmake⟩ := hc
  obtain ⟨rfl, hlt⟩ := Stride.starts_place hj
  rw [Nat.zero_add] at hmake hlt
  obtain ⟨first, rest, hwindow⟩ := window_cons s hlt
  rw [hwindow] at hmake
  exact ⟨first, rest, hwindow, (Option.some.inj hmake).symm⟩

theorem IsCut.map {δ : Type*} {f : γ → δ} {g : List α → δ} (h : IsCut s make stream 0 ord chunks)
    (hmake : ∀ ord first rest, f (make ord first rest) = g (first :: rest)) : chunks.map f = (s.windows stream).map g := by
  apply List.ext_getElem?
  intro k
  rw [List.getElem?_map, h k, Stride.windows, List.getElem?_map, List.getElem?_map]
  cases hj : (s.starts stream.length 0)[k]? with
  | none => rfl
  | some j =>
    obtain ⟨first, rest, hwindow⟩ := window_cons s (Stride.starts_place hj).2
    simp only [Option.bind_some, Option.map_some, hwindow]
    rw [cutAt, Option.map_some, hmake]

end Cut

theorem IsCut.texts {s : Stride} {make : Nat → Text × β → List (Text × β) → γ} {stream : List (Text × β)} {ord : Nat}
    {chunks : List γ} {text : γ → Text} (h : IsCut s make stream 0 ord chunks)
    (hmake : ∀ ord first rest, text (make ord first rest) = joinWords ((first :: rest).map Prod.fst))
    (hwords : ∀ p ∈ stream, p.1 ≠ [] ∧ ∀ c ∈ p.1, isPySpace c = false) :
    WindowsOf s.size s.step (stream.map Prod.fst) (chunks.map fun c => pySplit (text c)) := by
  have hwindows := h.map (f := text) (g := fun window => joinWords (window.map Prod.fst)) hmake
  have hsplit : (chunks.map fun c => pySplit (text c)) = (s.windows stream).map fun window => window.map Prod.fst := by
    have htexts : (chunks.map fun c => pySplit (text c)) = (chunks.map text).map pySplit := by
      rw [List.map_map]
      rfl
    rw [htexts, hwindows, List.map_map]
    apply List.map_congr_left
    intro window hwindow
    apply pySplit_joinWords
    intro word hword
    obtain ⟨p, hp, rfl⟩ := List.mem_map.mp hword
    obtain ⟨i, _, rfl⟩ := List.mem_map.mp hwindow
    exact hwords p (List.mem_of_mem_drop (List.mem_of_mem_take hp))
  rw [hsplit]
  exact (s.windows_windowsOf stream).map Prod.fst

/-! ## Pages -/

theorem pageStream_word {pages : List Text} {p : Text × Nat} (h : p ∈ pageStream pages) :
    p.1 ≠ [] ∧ ∀ c ∈ p.1, isPySpace c = false := by
  obtain ⟨page, _, hp⟩ := List.mem_flatMap.mp h
  obtain ⟨word, hword, rfl⟩ := List.mem_map.mp hp
  exact pySplit_word hword

theorem pageStream_sorted (pages : List Text) : (pageStream pages).Pairwise fun p q => p.2 ≤ q.2 := by
  rw [pageStream, List.pairwise_flatMap]
  constructor
  · intro page _
    rw [List.pairwise_map]
    exact List.pairwise_of_forall fun _ _ => Nat.le_refl _
  · have hplaces : (pages.zipIdx 1).Pairwise fun p q => p.2 ≤ q.2 := by
      have hsorted : ((pages.zipIdx 1).map Prod.snd).Pairwise fun a b => a ≤ b := by
        rw [List.zipIdx_map_snd]
        exact List.pairwise_le_range'
      exact List.pairwise_map.mp hsorted
    apply hplaces.imp
    intro p q hle x hx y hy
    obtain ⟨_, _, rfl⟩ := List.mem_map.mp hx
    obtain ⟨_, _, rfl⟩ := List.mem_map.mp hy
    exact hle

theorem chunkPagesFrom_cut (htarget : 1 ≤ targetTokens) (stream : List (Text × Nat)) (i ord : Nat) :
    IsCut (chunkStride targetTokens overlapTokens htarget) pagesChunk stream i ord
      (chunkPagesFrom targetTokens overlapTokens stream i ord) := by
  have hloop : ∃ chunks, some (chunkPagesFrom targetTokens overlapTokens stream i ord) = some chunks ∧
      IsCut (chunkStride targetTokens overlapTokens htarget) pagesChunk stream i ord chunks := by
    apply IsCut.of_loop fun i ord => some (chunkPagesFrom targetTokens overlapTokens stream i ord)
    · intro i ord hend
      rw [chunkPagesFrom, if_neg (Nat.not_lt.mpr hend)]
    · intro i ord first rest hi hend hwindow
      have hsplit : (stream.drop i).take targetTokens = first :: rest := hwindow
      have hend' : stream.length ≤ i + targetTokens := hend
      rw [chunkPagesFrom, if_pos hi, hsplit]
      simp only [if_pos hend']
    · intro i ord first rest hmore hwindow
      have hsplit : (stream.drop i).take targetTokens = first :: rest := hwindow
      have hmore' : i + targetTokens < stream.length := hmore
      rw [chunkPagesFrom, if_pos (by omega), hsplit]
      simp only [if_neg (Nat.not_le.mpr hmore')]
      rfl
  obtain ⟨chunks, hchunks, hcut⟩ := hloop
  obtain rfl := Option.some.inj hchunks
  exact hcut

theorem chunkPages_cut (htarget : 1 ≤ targetTokens) (overlapTokens : Nat) (pages : List Text) :
    IsCut (chunkStride targetTokens overlapTokens htarget) pagesChunk (pageStream pages) 0 0
      (chunkPages pages targetTokens overlapTokens) := by
  unfold chunkPages
  split
  · rename_i hnil
    apply IsCut.done
    rw [hnil]
    exact Nat.le_refl _
  · exact chunkPagesFrom_cut htarget _ 0 0

theorem pagesChunk_of {stream rest : List (Text × Nat)} {first : Text × Nat} {size step k : Nat}
    (hsorted : stream.Pairwise fun p q => p.2 ≤ q.2) (hwords : ∀ p ∈ stream, p.1 ≠ [] ∧ ∀ c ∈ p.1, isPySpace c = false)
    (hwindow : (stream.drop (k * step)).take size = first :: rest) :
    PagesChunkOf stream size step k (pagesChunk k first rest) := by
  have hsub : ∀ p ∈ first :: rest, p ∈ stream := by
    intro p hp
    rw [← hwindow] at hp
    exact List.mem_of_mem_drop (List.mem_of_mem_take hp)
  have hsplit : pySplit (pagesChunk k first rest).text = (first :: rest).map Prod.fst := by
    apply pySplit_joinWords
    intro word hword
    obtain ⟨p, hp, rfl⟩ := List.mem_map.mp hword
    exact hwords p (hsub p hp)
  have hfirst : stream[k * step]? = some first := by
    have h := window_place hwindow 0 (by omega)
    simpa using h
  have hlast := window_last hwindow
  constructor
  · rfl
  · rw [hwindow]
    rfl
  · rw [hsplit, List.length_map]
    rfl
  · exact ⟨first.1, hfirst⟩
  · exact ⟨_, hlast⟩
  · intro j hfrom hto word page hj
    have hle : ∀ (a b : Nat) (p q : Text × Nat), a ≤ b → stream[a]? = some p → stream[b]? = some q → p.2 ≤ q.2 := by
      intro a b p q hab hp hq
      obtain ⟨ha, rfl⟩ := List.getElem?_eq_some_iff.mp hp
      obtain ⟨hb, rfl⟩ := List.getElem?_eq_some_iff.mp hq
      rcases Nat.eq_or_lt_of_le hab with rfl | hlt
      · exact Nat.le_refl _
      · exact List.pairwise_iff_getElem.mp hsorted a b ha hb hlt
    have hcount : (pagesChunk k first rest).tokenCount = (first :: rest).length := rfl
    rw [hcount] at hto
    exact ⟨hle _ _ _ _ hfrom hfirst hj, hle _ _ _ _ (by omega) hj hlast⟩

/-- The chunks of the pages cover their words. -/
theorem chunkPages_windows (pages : List Text) (targetTokens overlapTokens : Nat) (htarget : 1 ≤ targetTokens) :
    WindowsOf targetTokens (max (targetTokens - overlapTokens) 1) ((pageStream pages).map Prod.fst)
      ((chunkPages pages targetTokens overlapTokens).map fun c => pySplit c.text) ∧
    ∀ k c, (chunkPages pages targetTokens overlapTokens)[k]? = some c →
      PagesChunkOf (pageStream pages) targetTokens (max (targetTokens - overlapTokens) 1) k c := by
  have hcut := chunkPages_cut htarget overlapTokens pages
  have hwords : ∀ p ∈ pageStream pages, p.1 ≠ [] ∧ ∀ c ∈ p.1, isPySpace c = false := fun p hp => pageStream_word hp
  constructor
  · exact hcut.texts (fun _ _ _ => rfl) hwords
  · intro k c hc
    obtain ⟨first, rest, hwindow, rfl⟩ := hcut.chunk hc
    rw [Nat.zero_add]
    exact pagesChunk_of (pageStream_sorted pages) hwords hwindow

theorem chunkPages_windows_two : WindowsOf 2 (max (2 - 3) 1) ((pageStream ["a b".toList, [], "c".toList]).map Prod.fst)
      ((chunkPages ["a b".toList, [], "c".toList] 2 3).map fun c => pySplit c.text) ∧
    ∀ k c, (chunkPages ["a b".toList, [], "c".toList] 2 3)[k]? = some c →
      PagesChunkOf (pageStream ["a b".toList, [], "c".toList]) 2 (max (2 - 3) 1) k c :=
  chunkPages_windows ["a b".toList, [], "c".toList] 2 3 (by decide)

end

end ProRag
