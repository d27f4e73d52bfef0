import ProRag.Ingest.Concurrent

/-!
# What a move does to the rows

Four kinds of moves: a row is flushed, a row is committed, a row is marked failed, or the rows stay.
Committed rows and flushed ones never share a digest or an id.
-/

namespace ProRag

open Framework

variable (sha256Hex : Bytes → String)

inductive IngestMoves (w : BlobWorld) : IngestCall → IngestMove → IngestCall → Prop
  | selects (u : Upload) :
    IngestMoves w (.selecting u) .read (.selected u (selectOne Document.sha256 (sha256Hex u.data) w.documents))
  | finds (u : Upload) (e : Document) : IngestMoves w (.selected u (some e)) .finish (.done (duplicateOf e))
  | raises (k : IngestCall) (m : IngestMove) (exc : PyError) : IngestMoves w k m (.done (.error exc))
  | awaits {k : IngestCall} (u : Upload) (m : IngestMove) (hk : k = .selected u none ∨ k = .parsing u) :
    IngestMoves w k m (.parsing u)
  | parses {k : IngestCall} (u : Upload) (m : IngestMove) (id : Uuid) (mime : String)
    (hk : k = .selected u none ∨ k = .parsing u) : IngestMoves w k m (.flushing u (u.document sha256Hex id mime))
  | conflicts (u : Upload) (doc : Document) : IngestMoves w (.flushing u doc) .flush (.conflicted u)
  | resolves (u : Upload) (e : Document) (he : selectOne Document.sha256 (sha256Hex u.data) w.documents = some e) :
    IngestMoves w (.conflicted u) .read (.done (duplicateOf e))
  | loses (u : Upload) (doc : Document) :
    IngestMoves w (.storing u doc) .commitRolledBack (.done (.ok ⟨doc.id, .ready, none⟩))
  | fails (u : Upload) (doc : Document) (exc : PyError) : IngestMoves w (.storing u doc) (.fail exc) (.failed u exc)
  | rechecks (u : Upload) (exc : PyError) : IngestMoves w (.failed u exc) .read
      (.rechecked u exc (selectOne Document.sha256 (sha256Hex u.data) w.documents))

def IngestCall.inserted : IngestCall → Option Document
  | .storing _ doc => some doc
  | _ => none

/-- The committed rows and those of open transactions have distinct digests and ids. -/
structure RowsUnique (w : BlobWorld) (calls : List IngestCall) : Prop where
  sha256 : UniqueOn Document.sha256 (w.documents ++ calls.filterMap IngestCall.inserted)
  id : UniqueOn Document.id (w.documents ++ calls.filterMap IngestCall.inserted)

/-- Committed rows under their unique constraints, and no call in flight. -/
def RowsStart (s : IngestPool) : Prop :=
  s.procs = [] ∧ UniqueOn Document.sha256 s.shared.documents ∧ UniqueOn Document.id s.shared.documents

variable {sha256Hex} {w w' : BlobWorld} {others : List IngestCall} {k k' : IngestCall} {m : IngestMove}

theorem parseBlock_moves {u : Upload} {outcome : ParseOutcome} (w0 : BlobWorld) (hw0 : w0.documents = w.documents)
    (hk : k = .selected u none ∨ k = .parsing u) (hs : parseBlock sha256Hex w0 u outcome = (w', k')) :
    w'.documents = w.documents ∧ IngestMoves sha256Hex w k m k' := by
  cases outcome with
  | awaitsOcr =>
    cases hs
    exact ⟨hw0, .awaits u m hk⟩
  | parsed id mime =>
    cases hs
    exact ⟨hw0, .parses u m id mime hk⟩
  | _ =>
    cases hs
    exact ⟨hw0, .raises k m _⟩

/-- Every move of `ingest_bytes`, by what it does to the rows. -/
theorem ingestAct_cases (hs : ingestAct sha256Hex w others k m = some (w', k')) :
    (w'.documents = w.documents ∧ IngestMoves sha256Hex w k m k') ∨
    (∃ u doc, k = .flushing u doc ∧ m = .flush ∧ k' = .storing u doc ∧ w' = w ∧
      (∀ c ∈ others, c.holds doc = false) ∧ ∀ d ∈ w.documents, d.sha256 ≠ doc.sha256 ∧ d.id ≠ doc.id) ∨
    (∃ u doc, k = .storing u doc ∧ m = .commit ∧ k' = .done (.ok ⟨doc.id, .ready, none⟩) ∧
      w'.documents = w.documents ++ [{ doc with status := .ready }]) ∨
    (∃ u exc e, k = .rechecked u exc (some e) ∧ m = .finish ∧ k' = .done (.ok ⟨e.id, .failed, none⟩) ∧
      w' = markFailed e.id exc w) := by
  unfold ingestAct at hs
  split at hs
  case h_1 u =>
    cases hs
    exact Or.inl ⟨rfl, .selects u⟩
  case h_2 u e =>
    cases hs
    exact Or.inl ⟨rfl, .finds u e⟩
  case h_3 detail =>
    cases hs
    exact Or.inl ⟨rfl, .raises _ _ _⟩
  case h_4 u outcome => 
    have hblock := Option.some.inj hs
    exact Or.inl (parseBlock_moves _ (by rfl) (Or.inl rfl) hblock)
  case h_5 u outcome => exact Or.inl (parseBlock_moves w rfl (Or.inr rfl) (Option.some.inj hs))
  case h_6 u doc =>
    split at hs
    · cases hs
    · rename_i hfree
      split at hs
      · cases hs
        exact Or.inl ⟨rfl, .conflicts u doc⟩
      · rename_i hnew
        cases hs
        refine Or.inr (Or.inl ⟨u, doc, rfl, rfl, rfl, rfl, ?_, ?_⟩)
        · intro c hc
          by_contra hholds
          exact hfree (List.any_eq_true.mpr ⟨c, hc, Bool.not_eq_false _ ▸ hholds⟩)
        · intro d hd
          have hclash : ¬ (d.sha256 = doc.sha256 ∨ d.id = doc.id) := fun h =>
            hnew (List.any_eq_true.mpr ⟨d, hd, decide_eq_true h⟩)
          exact not_or.mp hclash
  case h_7 exc =>
    cases hs
    exact Or.inl ⟨rfl, .raises _ _ _⟩
  case h_8 u =>
    split at hs
    · rename_i e he
      cases hs
      exact Or.inl ⟨rfl, .resolves u e he⟩
    · cases hs
      exact Or.inl ⟨rfl, .raises _ _ _⟩
  case h_9 u doc =>
    cases hs
    exact Or.inr (Or.inr (Or.inl ⟨u, doc, rfl, rfl, rfl, rfl⟩))
  case h_10 u doc =>
    cases hs
    exact Or.inl ⟨rfl, .loses u doc⟩
  case h_11 u doc exc =>
    cases hs
    exact Or.inl ⟨rfl, .fails u doc exc⟩
  case h_12 u exc =>
    cases hs
    exact Or.inl ⟨rfl, .rechecks u exc⟩
  case h_13 u exc e =>
    cases hs
    exact Or.inr (Or.inr (Or.inr ⟨u, exc, e, rfl, rfl, rfl, rfl⟩))
  case h_14 exc =>
    cases hs
    exact Or.inl ⟨rfl, .raises _ _ _⟩
  case h_15 u exc =>
    cases hs
    exact Or.inl ⟨rfl, .raises _ _ _⟩
  case h_16 => cases hs

theorem IngestMoves.inserted_none (h : IngestMoves sha256Hex w k m k') : k'.inserted = none := by
  cases h with
  | _ => rfl

theorem UniqueOn.perm {κ : Type} {key : Document → κ} {l l' : List Document} (h : UniqueOn key l) (hp : l.Perm l') :
    UniqueOn key l' := (hp.map key).nodup_iff.mp h

theorem RowsUnique.perm {l l' : List IngestCall} (hp : l.Perm l') (h : RowsUnique w l) : RowsUnique w l' := by
  have hrows := (hp.filterMap IngestCall.inserted).append_left w.documents
  exact ⟨UniqueOn.perm h.sha256 hrows, UniqueOn.perm h.id hrows⟩

theorem RowsStart.unique {s : IngestPool} (h : RowsStart s) : RowsUnique s.shared s.procs := by
  obtain ⟨hprocs, hsha, hid⟩ := h
  rw [hprocs]
  constructor
  · simpa using hsha
  · simpa using hid

theorem emptyPool_rows : RowsStart emptyPool := ⟨rfl, List.nodup_nil, List.nodup_nil⟩

theorem RowsUnique.quiet (h : RowsUnique w (k :: others)) (hrows : w'.documents = w.documents) (hk' : k'.inserted = none) :
    RowsUnique w' (k' :: others) := by
  have hsub : (w'.documents ++ (k' :: others).filterMap IngestCall.inserted).Sublist
      (w.documents ++ (k :: others).filterMap IngestCall.inserted) := by
    rw [hrows, List.filterMap_cons_none hk']
    apply List.Sublist.append_left
    cases hk : k.inserted with
    | none => rw [List.filterMap_cons_none hk]
    | some doc =>
      rw [List.filterMap_cons_some hk]
      exact List.sublist_cons_self doc _
  exact ⟨List.Nodup.sublist (hsub.map _) h.sha256, List.Nodup.sublist (hsub.map _) h.id⟩

theorem mem_inserted {doc : Document} : doc ∈ others.filterMap IngestCall.inserted ↔ ∃ u, .storing u doc ∈ others := by
  rw [List.mem_filterMap]
  constructor
  · intro h
    obtain ⟨c, hc, hdoc⟩ := h
    cases c with
    | storing u d =>
      obtain rfl := Option.some.inj hdoc
      exact ⟨u, hc⟩
    | _ => cases hdoc
  · intro h
    obtain ⟨u, hu⟩ := h
    exact ⟨_, hu, rfl⟩

theorem ingestAct_rowsUnique (h : RowsUnique w (k :: others)) (hs : ingestAct sha256Hex w others k m = some (w', k')) :
    RowsUnique w' (k' :: others) := by
  rcases ingestAct_cases hs with ⟨hrows, hmoves⟩ | ⟨u, doc, rfl, _, rfl, rfl, hfree, hnew⟩ |
    ⟨u, doc, rfl, _, rfl, hrows⟩ | ⟨u, exc, e, rfl, _, rfl, rfl⟩
  · exact h.quiet hrows hmoves.inserted_none
  · have hother : ∀ d ∈ w'.documents ++ others.filterMap IngestCall.inserted, d.sha256 ≠ doc.sha256 ∧ d.id ≠ doc.id := by
      intro d hd
      rcases List.mem_append.mp hd with hd | hd
      · exact hnew d hd
      · obtain ⟨u', hu'⟩ := mem_inserted.mp hd
        have hheld := hfree _ hu'
        simpa [IngestCall.holds] using hheld
    have hmid : (doc :: (w'.documents ++ others.filterMap IngestCall.inserted)).Perm
        (w'.documents ++ (.storing u doc :: others).filterMap IngestCall.inserted) := List.perm_middle.symm
    constructor
    · apply UniqueOn.perm _ hmid
      exact List.nodup_cons.mpr ⟨fun hmem => by
        obtain ⟨d, hd, heq⟩ := List.mem_map.mp hmem
        exact (hother d hd).1 heq, h.sha256⟩
    · apply UniqueOn.perm _ hmid
      exact List.nodup_cons.mpr ⟨fun hmem => by
        obtain ⟨d, hd, heq⟩ := List.mem_map.mp hmem
        exact (hother d hd).2 heq, h.id⟩
  · have hsame : ∀ {κ : Type} (key : Document → κ), key { doc with status := .ready } = key doc →
        UniqueOn key (w.documents ++ (.storing u doc :: others).filterMap IngestCall.inserted) →
        UniqueOn key (w'.documents ++ (.done (.ok ⟨doc.id, .ready, none⟩) :: others).filterMap IngestCall.inserted) := by
      intro κ key hkey hu
      have hdone : (IngestCall.done (.ok ⟨doc.id, .ready, none⟩) :: others).filterMap IngestCall.inserted =
          others.filterMap IngestCall.inserted := rfl
      have hstored : (IngestCall.storing u doc :: others).filterMap IngestCall.inserted =
          doc :: others.filterMap IngestCall.inserted := rfl
      unfold UniqueOn at hu ⊢
      rw [hrows, hdone]
      rw [hstored] at hu
      simpa [hkey] using hu
    exact ⟨hsame Document.sha256 rfl h.sha256, hsame Document.id rfl h.id⟩
  · have hsame : ∀ {κ : Type} (key : Document → κ),
        (∀ d : Document, key { d with status := .failed, error := some (failureText exc) } = key d) →
        UniqueOn key (w.documents ++ (.rechecked u exc (some e) :: others).filterMap IngestCall.inserted) →
        UniqueOn key ((markFailed e.id exc w).documents ++
          (.done (.ok ⟨e.id, .failed, none⟩) :: others).filterMap IngestCall.inserted) := by
      intro κ key hkey hu
      unfold UniqueOn at hu ⊢
      rw [List.map_append] at hu ⊢
      unfold markFailed
      rw [map_updateWhere fun d _ => hkey d]
      exact hu
    exact ⟨hsame Document.sha256 (fun _ => rfl) h.sha256, hsame Document.id (fun _ => rfl) h.id⟩

end ProRag
