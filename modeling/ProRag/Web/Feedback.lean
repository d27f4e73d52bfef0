import ProRag.Framework.Optimistic
import ProRag.Models

/-!
# Likes and dislikes

`POST /feedback` toggles the stored rating of a message.  The page toggles the rating it shows when the button is
clicked, and puts back what it showed before the click when the request fails.
-/

namespace ProRag

open Framework

inductive Rating
  | up | down
deriving DecidableEq, Repr

structure FeedbackRequest where
  messageId : Uuid
  rating : Rating
  comment : Option String

structure Feedback where
  messageId : Uuid
  rating : Rating
  comment : Option String
deriving DecidableEq

/-- The `feedback` table, one row for a message. -/
structure FeedbackTable where
  rows : List Feedback
  distinct : UniqueOn Feedback.messageId rows

/-- The rows after `POST /feedback`, and the rating of its response. -/
def feedbackRows (req : FeedbackRequest) (rows : List Feedback) : List Feedback × Option Rating :=
  match selectOne Feedback.messageId req.messageId rows with
  | some existing =>
    if existing.rating = req.rating then (deleteWhere (fun r => r.messageId = existing.messageId) rows, none)
    else
      (updateWhere (fun r => r.messageId = existing.messageId)
        (fun r => { r with rating := req.rating, comment := req.comment }) rows, some req.rating)
  | none => (rows ++ [⟨req.messageId, req.rating, req.comment⟩], some req.rating)

theorem feedbackRows_distinct {req : FeedbackRequest} {rows : List Feedback} (h : UniqueOn Feedback.messageId rows) :
    UniqueOn Feedback.messageId (feedbackRows req rows).1 := by
  unfold feedbackRows
  split
  · split
    · exact h.deleteWhere _
    · exact h.updateWhere fun _ _ => rfl
  · rename_i hnone
    exact h.insert fun r hr => selectOne_eq_none.mp hnone r hr

/-- `feedback(req, session)`. -/
def feedback (req : FeedbackRequest) (table : FeedbackTable) : FeedbackTable where
  rows := (feedbackRows req table.rows).1
  distinct := feedbackRows_distinct table.distinct

/-- The rating that the server stores for a message. -/
def storedRating (messageId : Uuid) (table : FeedbackTable) : Option Rating :=
  (selectOne Feedback.messageId messageId table.rows).map Feedback.rating

/-- The `next` of `submitFeedback`. -/
def toggleRating (was : Option Rating) (rating : Rating) : Option Rating :=
  if was = some rating then none else some rating

theorem storedRating_feedback (req : FeedbackRequest) (table : FeedbackTable) :
    storedRating req.messageId (feedback req table) = toggleRating (storedRating req.messageId table) req.rating := by
  cases hsel : selectOne Feedback.messageId req.messageId table.rows with
  | none =>
    have hnone := selectOne_eq_none.mp hsel
    have hinserted : selectOne Feedback.messageId req.messageId
        (table.rows ++ [⟨req.messageId, req.rating, req.comment⟩]) = some ⟨req.messageId, req.rating, req.comment⟩ :=
      (selectOne_eq_some (table.distinct.insert fun r hr => hnone r hr)).mpr ⟨by simp, rfl⟩
    simp [storedRating, feedback, feedbackRows, hsel, hinserted, toggleRating]
  | some existing =>
    obtain ⟨-, hid⟩ := selectOne_mem hsel
    by_cases hrating : existing.rating = req.rating
    · have hgone : selectOne Feedback.messageId req.messageId
          (deleteWhere (fun r => r.messageId = existing.messageId) table.rows) = none :=
        selectOne_eq_none.mpr fun r hr hk => by simpa [hid, hk] using (mem_deleteWhere.mp hr).2
      simp [storedRating, feedback, feedbackRows, hsel, hrating, hgone, toggleRating]
    · have hswitched : selectOne Feedback.messageId req.messageId (updateWhere (fun r => r.messageId = req.messageId)
          (fun r => { r with rating := req.rating, comment := req.comment }) table.rows) =
            (selectOne Feedback.messageId req.messageId table.rows).map
              fun r => { r with rating := req.rating, comment := req.comment } := by
        apply selectOne_updateWhere
        exact fun _ hr => hr
      simp [storedRating, feedback, feedbackRows, hsel, hrating, hid, hswitched, toggleRating]

/-- One message: what the page shows, the table, and the requests of the clicks on it. -/
abbrev FeedbackWorld := Optimistic FeedbackTable (Option Rating) Rating

/-- `submitFeedback` on a click, and `POST /feedback` in any order; the request carries no comment. -/
def feedbackStep (messageId : Uuid) : FeedbackWorld → OptimisticOp Rating → Option FeedbackWorld :=
  optimisticStep toggleRating fun table rating => feedback ⟨messageId, rating, none⟩ table

/-- No click yet, and the page shows what is stored. -/
def FeedbackStart (messageId : Uuid) (w : FeedbackWorld) : Prop :=
  w.calls = [] ∧ w.shown = storedRating messageId w.server

/-- The server serves the clicks in order, up to clicks on the same button, and a failed one is answered when every
later one has failed and was answered. -/
def FeedbackInOrder : FeedbackWorld → OptimisticOp Rating → Prop := Orderly fun d c => d = c

/-- In every run in that order, the page shows what is stored whenever no request is in flight. -/
theorem feedback_agrees {messageId : Uuid} {w : FeedbackWorld}
    (h : Reaches (feedbackStep messageId) FeedbackInOrder (FeedbackStart messageId) w) (hidle : w.Idle) :
    w.shown = storedRating messageId w.server := by
  have hserve : ∀ table rating, storedRating messageId (feedback ⟨messageId, rating, none⟩ table) =
      toggleRating (storedRating messageId table) rating := fun table rating =>
    storedRating_feedback ⟨messageId, rating, none⟩ table
  exact optimistic_agree hserve (fun d c hdc y => by rw [hdc]) h hidle

/-- A message without a rating. -/
def unrated : FeedbackWorld where
  shown := none
  server := ⟨[], List.nodup_nil⟩
  calls := []

theorem unrated_start : FeedbackStart 7 unrated := ⟨rfl, rfl⟩

/-- A like and a dislike in flight at once; the dislike fails. -/
def likedKept : FeedbackWorld where
  shown := some .up
  server := ⟨[⟨7, .up, none⟩], List.nodup_singleton _⟩
  calls := [⟨.up, none, .confirmed⟩, ⟨.down, some .up, .reverted⟩]

theorem feedback_agrees_liked : likedKept.shown = storedRating 7 likedKept.server := by
  have hrun : runSteps (feedbackStep 7) unrated
      [.make .up, .make .down, .serve 0 true, .serve 1 false, .answer 1, .answer 0] = some likedKept := rfl
  have horder : Guarded (feedbackStep 7) FeedbackInOrder unrated
      [.make .up, .make .down, .serve 0 true, .serve 1 false, .answer 1, .answer 0] := by
    unfold FeedbackInOrder
    decide
  have hidle : likedKept.Idle := by
    unfold Optimistic.Idle
    decide
  exact feedback_agrees ((Reaches.start unrated_start).runSteps horder hrun) hidle

/-- A like fails after the dislike that followed it was stored, and takes the dislike off the page. -/
def dislikeHidden : FeedbackWorld where
  shown := none
  server := ⟨[⟨7, .down, none⟩], List.nodup_singleton _⟩
  calls := [⟨.up, none, .reverted⟩, ⟨.down, some .up, .confirmed⟩]

/-- A dislike is stored before the like that it followed. -/
def likeStored : FeedbackWorld where
  shown := some .down
  server := ⟨[⟨7, .up, none⟩], List.nodup_singleton _⟩
  calls := [⟨.up, none, .confirmed⟩, ⟨.down, some .up, .confirmed⟩]

theorem feedback_disagrees :
    (Reaches (feedbackStep 7) unguarded (FeedbackStart 7) dislikeHidden ∧ dislikeHidden.Idle ∧
      dislikeHidden.shown ≠ storedRating 7 dislikeHidden.server) ∧
    Reaches (feedbackStep 7) unguarded (FeedbackStart 7) likeStored ∧ likeStored.Idle ∧
      likeStored.shown ≠ storedRating 7 likeStored.server := by
  have hhidden : runSteps (feedbackStep 7) unrated
      [.make .up, .make .down, .serve 0 false, .serve 1 true, .answer 1, .answer 0] = some dislikeHidden := rfl
  have hstored : runSteps (feedbackStep 7) unrated
      [.make .up, .make .down, .serve 1 true, .serve 0 true, .answer 1, .answer 0] = some likeStored := rfl
  refine ⟨⟨reaches_of_runSteps unrated_start hhidden, ?_, by decide⟩,
    reaches_of_runSteps unrated_start hstored, ?_, by decide⟩
  · unfold Optimistic.Idle
    decide
  · unfold Optimistic.Idle
    decide

end ProRag
