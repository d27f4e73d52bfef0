import ProRag.Web.Citations

/-!
# What `normalize_citations` changes

The four patterns are rewritten one after the other, each in the text that the one before has left.
-/

namespace ProRag

open Framework

/-- `(S1)`, `[s1]`, `[source 1]` or `[1]`, with these digits; a letter may be of either case, or a long s. -/
def DeviationMarker (marker digits : Text) : Prop :=
  ∃ head close, serverForm head digits close ∧ marker = head ++ digits ++ [close]

/-- A text in pieces: its deviation markers, wherever they stand, and the characters beside them. -/
structure MarkerPieces (text : Text) (pieces : List (Piece Char Text)) : Prop where
  source : pieces.flatMap Piece.source = text
  markers : ∀ marker digits, Piece.found marker digits ∈ pieces → DeviationMarker marker digits
  complete : ∀ before marker digits after, text = before ++ marker ++ after → DeviationMarker marker digits →
    ∃ left right, pieces = left ++ .found marker digits :: right ∧ left.flatMap Piece.source = before

theorem captures_deviationMarker {marker digits : Text} :
    Captures citationMarkup.first marker digits ↔ DeviationMarker marker digits := by
  unfold Captures
  rw [Markup.first_eq_some]
  exact ServerMarker.iff

theorem markerPieces_iff {text : Text} {pieces : List (Piece Char Text)} :
    MarkerPieces text pieces ↔ Pieces citationMarkup.first text pieces := by
  constructor
  · intro h
    constructor
    · exact h.source
    · intro found capture hmem
      exact captures_deviationMarker.mpr (h.markers found capture hmem)
    · intro before found capture after htext hfound
      exact h.complete before found capture after htext (captures_deviationMarker.mp hfound)
  · intro h
    constructor
    · exact h.source
    · intro marker digits hmem
      exact captures_deviationMarker.mp (h.captures marker digits hmem)
    · intro before marker digits after htext hmarker
      exact h.complete before marker digits after htext (captures_deviationMarker.mpr hmarker)

/-- `normalize_citations` changes nothing twice, and it renders each marker in place and keeps each other character. -/
theorem normalizeCitations_replaces_markers (text : Text) :
    normalizeCitations (normalizeCitations text) = normalizeCitations text ∧
      ∃ pieces, MarkerPieces text pieces ∧ normalizeCitations text = pieces.flatMap (Piece.rendered canonicalForm) := by
  constructor
  · exact citationMarkup.normalize_idempotent text
  · obtain ⟨pieces, hpieces, hnormalized⟩ := citationMarkup.normalize_pieces text
    exact ⟨pieces, markerPieces_iff.mpr hpieces, hnormalized⟩

/-- Markers that touch, nest or break off. -/
example : normalizeCitations "[[1](S2)][source \t3][s4 [Source 5][SS6]".toList =
    "[[S1][S2]][S3][s4 [S5][SS6]".toList := by decide

end ProRag
