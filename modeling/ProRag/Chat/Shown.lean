import ProRag.Chat.Heartbeat
import ProRag.Llm.Durable

/-!
# What is shown and what is stored

The loop of `/chat/stream` collects the raw answer beside the text that its guard lets out.  When the two agree, at
every way out of the loop.
-/

namespace ProRag

open Framework

def storedExchanges (events : List RequestEvent) : List Exchange := events.filterMap fun e => match e with
  | .stored e => some e
  | _ => none

def Exchange.answers (e : Exchange) : List String := (e.messages.filter fun m => m.role = .assistant).map Message.content

/-- The answer text of the token frames; only the notice stands behind a runaway. -/
def shownText (frames : List Frame) : Text := untilRunaway (tokenText frames)

/-- A number that a marker of the text has. -/
def Marked (text : Text) (n : Nat) : Prop := ∃ digits ∈ citationMarks text, pyInt digits = .ok n

/-- A request stores the answer it has sent, and cites what stands in it. -/
structure ShownIsStored (events : List RequestEvent) : Prop where
  stored : ∀ e ∈ storedExchanges events, e.answers = [String.ofList (normalizeCitations (shownText (sentFrames events)))]
  cited : ∀ n ∈ citationNumbers (sentFrames events), Marked (shownText (sentFrames events)) n

def StreamEnd.raised : StreamEnd → Bool
  | .exhausted => false
  | .raises _ => true

/-- The items the loop takes in, and whether it is left by an exception. -/
def heard (waits : Nat → ℚ) (gone : List Frame → Bool) (ending : StreamEnd) :
    Nat → List StreamItem → StreamState → List StreamItem × Bool
  | i, [], st => ([], if heartbeatIntervalSeconds ≤ waits i then gone (st.frames ++ [.comment]) else ending.raised)
  | i, item :: items, st =>
    if heartbeatIntervalSeconds ≤ waits i then ([], gone (st.frames ++ [.comment]))
    else
      let next := st.step item
      if gone next.1.frames || !next.2.isOk then ([item], true)
      else if next.1.guard.done then ([item], false)
      else
        let later := heard waits gone ending (i + 1) items next.1
        (item :: later.1, later.2)

def StreamEnv.heard (env : StreamEnv) (before : List Frame) : List StreamItem × Bool :=
  ProRag.heard env.waits env.gone env.ending 0 (env.chunks.flatMap ProviderChunk.items) { frames := before }

def rowAfter (row : Text) (ch : Char) : Text := if ch = '\n' ∨ (row = [] ∧ ch ≠ '|') then [] else row ++ [ch]

/-- The table row at the end of a text: from the first bar behind its last line break. -/
def openRow (text : Text) : Text := text.foldl rowAfter []

/-- What goes out of a text: all up to a runaway, but for an open row where an exception leaves the loop. -/
def outgoing (text : Text) (raised : Bool) : Text :=
  if raised ∧ runaway whitespaceRunawayLimit 0 text = none then text.take (text.length - (openRow text).length)
  else untilRunaway text

/-- A number of a marker that has been read, behind one of the items. -/
def NumberRead (items : List StreamItem) (n : Nat) : Prop :=
  ∃ front, front <+: items ∧ Readable (answerText front) ∧ Marked (answerText front) n

/-- No delta of a stored answer goes on behind a runaway, and the numbers that are read stand in what goes out. -/
structure AnswerShown (env : StreamEnv) (req : ChatRequest) (before : List Frame) : Prop where
  whole : env.writes req before = true → untilRunaway (answerText (env.heard before).1) = answerText (env.heard before).1
  marked : ∀ n, NumberRead (env.heard before).1 n → Marked (outgoing (answerText (env.heard before).1) (env.heard before).2) n

section

theorem untilRunaway_prefix (text : Text) : untilRunaway text <+: text := by
  unfold untilRunaway
  cases h : runaway whitespaceRunawayLimit 0 text with
  | none => exact List.prefix_rfl
  | some front => exact runaway_prefix h

theorem runaway_untilRunaway {text front : Text} (h : runaway whitespaceRunawayLimit 0 text = some front) (more : Text) :
    untilRunaway (front ++ more) = front := by
  simp [untilRunaway, runaway_append h more]

theorem openRow_append (text : Text) (ch : Char) : openRow (text ++ [ch]) = rowAfter (openRow text) ch := by
  simp [openRow]

theorem openRow_bar (text : Text) : openRow text = [] ∨ (openRow text).head? = some '|' := by
  induction text using List.reverseRecOn with
  | nil => exact Or.inl rfl
  | append_singleton text ch ih =>
    rw [openRow_append]
    unfold rowAfter
    split
    · exact Or.inl rfl
    · rename_i hline
      right
      rcases ih with hnone | hbar
      · rw [hnone] at hline ⊢
        simp only [true_and, not_or, not_not] at hline
        rw [hline.2]
        rfl
      · rw [List.head?_append, hbar]
        rfl

theorem startsTableRow_append {row : Text} (h : row = [] ∨ row.head? = some '|') (ch : Char) :
    startsTableRow (row ++ [ch]) = false ↔ row = [] ∧ ch ≠ '|' := by
  have hbar : isPySpace '|' = false := by decide
  rcases h with rfl | hrow
  · by_cases hspace : isPySpace ch = true
    · have hne : ch ≠ '|' := by
        rintro rfl
        rw [hbar] at hspace
        cases hspace
      simp [startsTableRow, hspace, hne]
    · simp [startsTableRow, hspace]
  · cases row with
    | nil => cases hrow
    | cons c cs =>
      obtain rfl := Option.some.inj hrow
      simp [startsTableRow, hbar]

theorem feed_row {limit : Nat} (text : Text) (hopen : (({ whitespaceLimit := limit } : TokenGuard).feed text).2.done = false) :
    (({ whitespaceLimit := limit } : TokenGuard).feed text).2.pending = openRow text := by
  induction text using List.reverseRecOn with
  | nil => rfl
  | append_singleton text ch ih =>
    rw [TokenGuard.feed_append] at hopen ⊢
    have hbefore : (({ whitespaceLimit := limit } : TokenGuard).feed text).2.done = false := by
      by_contra hdone
      rw [TokenGuard.feed_keeps_done (Bool.not_eq_false _ ▸ hdone)] at hopen
      cases hopen
    have hrow := ih hbefore
    generalize (({ whitespaceLimit := limit } : TokenGuard).feed text).2 = g at hopen hbefore hrow ⊢
    rw [TokenGuard.feed_cons hbefore, TokenGuard.feed_nil] at hopen ⊢
    rw [TokenGuard.feedChar_holds hopen, openRow_append, ← hrow]
    simp only [rowAfter, startsTableRow_append (hrow ▸ openRow_bar text) ch]

theorem take_front {front row text : Text} (h : front ++ row = text) : text.take (text.length - row.length) = front := by
  subst h
  simp

/-- What the guard lets out of a text, and what it holds where the loop is not left by an exception, the notice aside. -/
theorem shown_outgoing (text : Text) (raised : Bool) :
    untilRunaway ((({} : TokenGuard).feed text).1 ++ if raised then [] else (({} : TokenGuard).feed text).2.pending) =
      outgoing text raised := by
  cases hrun : runaway whitespaceRunawayLimit 0 text with
  | some front =>
    obtain ⟨hsent, hpending, _⟩ := @TokenGuard.feed_runaway {} text rfl front hrun
    have htail : (if raised then [] else (({} : TokenGuard).feed text).2.pending) = [] := by
      rw [hpending, ite_self]
    rw [htail, hsent, List.append_nil, List.append_assoc]
    have hshown := runaway_untilRunaway hrun truncationNotice
    simp [outgoing, hrun, untilRunaway] at hshown ⊢
    exact hshown
  | none =>
    have hopen : (({} : TokenGuard).feed text).2.done = false := @TokenGuard.feed_open {} text rfl hrun
    have hall : (({} : TokenGuard).feed text).1 ++ (({} : TokenGuard).feed text).2.pending = text :=
      TokenGuard.feed_conserves {} text hopen
    have hsame : ∀ front, runaway whitespaceRunawayLimit 0 front = none → untilRunaway front = front := by
      intro front h
      rw [untilRunaway, h]
      rfl
    cases raised with
    | false =>
      simp only [Bool.false_eq_true, if_false, hall, outgoing, false_and]
    | true =>
      have hfront : runaway whitespaceRunawayLimit 0 (({} : TokenGuard).feed text).1 = none := by
        rw [← hall] at hrun
        exact runaway_none_front hrun
      have htake : text.take (text.length - (openRow text).length) = (({} : TokenGuard).feed text).1 := by
        rw [← feed_row text hopen]
        exact take_front hall
      simp only [if_true, List.append_nil, hsame _ hfront, outgoing, hrun, and_self, htake]

theorem citeMarks_mem {marks : List Text} {seen cited : List Nat} (h : citeMarks seen marks = .ok cited) (n : Nat) :
    n ∈ cited ↔ n ∈ seen ∨ ∃ digits ∈ marks, pyInt digits = .ok n := by
  induction marks generalizing seen with
  | nil =>
    obtain rfl := Except.ok.inj h
    simp
  | cons digits marks ih =>
    unfold citeMarks at h ih
    rw [List.foldlM_cons] at h
    cases hm : pyInt digits with
    | error exc =>
      rw [hm] at h
      cases h
    | ok m =>
      rw [hm] at h
      have hset : n ∈ setDefault seen m ↔ n ∈ seen ∨ n = m := by
        unfold setDefault
        split
        · rename_i hmem
          refine ⟨Or.inl, fun hn => hn.elim id fun heq => heq ▸ hmem⟩
        · simp
      have hfirst : pyInt digits = .ok n ↔ n = m := by
        rw [hm, Except.ok.injEq, eq_comm]
      rw [ih h, hset, or_assoc, List.exists_mem_cons_iff, hfirst]

theorem extract_mem {text : Text} {cited : List Nat} (h : extractCitedIndices (normalizeCitations text) = .ok cited) (n : Nat) :
    n ∈ cited ↔ Marked text n := by
  rw [extract_eq] at h
  rw [citeMarks_mem h]
  simp [Marked]

theorem readable_of_extract {text : Text} {cited : List Nat}
    (h : extractCitedIndices (normalizeCitations text) = .ok cited) : Readable text := by
  have hmarks : ∀ (marks : List Text) (seen : List Nat), citeMarks seen marks = .ok cited →
      ∀ digits ∈ marks, digits.length ≤ 4300 := by
    intro marks
    induction marks with
    | nil =>
      intro seen _ digits hmem
      cases hmem
    | cons digits marks ih =>
      intro seen h
      unfold citeMarks at h ih
      rw [List.foldlM_cons] at h
      by_cases hlong : 4300 < digits.length
      · simp [pyInt, hlong, bind, Except.bind] at h
      · intro d hd
        rcases List.mem_cons.mp hd with rfl | hd
        · exact Nat.le_of_not_lt hlong
        · obtain ⟨m, hm⟩ : ∃ m, pyInt digits = .ok m := ⟨_, if_neg hlong⟩
          rw [hm] at h
          exact ih _ h d hd
  exact hmarks _ [] h

theorem Marked.append {text : Text} {n : Nat} (h : Marked text n) (more : Text) : Marked (text ++ more) n := by
  obtain ⟨digits, hdigits, hn⟩ := h
  have hlead := citationMarks_prefix text more
  exact ⟨digits, hlead.subset hdigits, hn⟩

/-- What the loop has collected and what its guard has let out of it. -/
structure Collects (st : StreamState) (text : Text) : Prop where
  raw : st.rawAnswer = text
  guard : st.guard = (({} : TokenGuard).feed text).2
  tokens : tokenText st.frames = (({} : TokenGuard).feed text).1

theorem step_raw (st : StreamState) (item : StreamItem) : (st.step item).1.rawAnswer = st.rawAnswer ++ answerText [item] := by
  cases item with
  | usage promptTokens completionTokens => exact (List.append_nil _).symm
  | thinking delta => exact (List.append_nil _).symm
  | answer delta =>
    have htext : answerText [.answer delta] = delta := by simp [answerText]
    simp only [StreamState.step, htext]
    split
    · rfl
    · rename_i cited _
      obtain ⟨new, hnew⟩ := foldl_cite { st with rawAnswer := st.rawAnswer ++ delta, guard := (st.guard.feed delta).2, frames := st.frames ++ if (st.guard.feed delta).1 = [] then [] else [Frame.token (st.guard.feed delta).1] } cited
      rw [hnew]

theorem Collects.step {st : StreamState} {text : Text} (h : Collects st text) (item : StreamItem) :
    Collects (st.step item).1 (text ++ answerText [item]) := by
  obtain ⟨sent, hframes, _, htoken, hguard, _⟩ := step_spec st item
  constructor
  · rw [step_raw, h.raw]
  · rw [hguard, h.guard, TokenGuard.feed_append]
  · rw [hframes, tokenText_append, h.tokens, htoken, h.guard, TokenGuard.feed_append]

theorem step_cited {st : StreamState} {text : Text} (h : Collects st text) (hcites : Cites st) (item : StreamItem) :
    ((st.step item).2 = .ok () ∧ Cites (st.step item).1) ∨
    ((∃ exc, (st.step item).2 = .error exc) ∧ ¬ Readable (text ++ answerText [item]) ∧
      citationNumbers (st.step item).1.frames = citationNumbers st.frames) := by
  by_cases hread : Readable (text ++ answerText [item])
  · left
    rw [← h.raw] at hread
    obtain ⟨st', hstep, hcites', _⟩ := step_cites hcites item hread
    rw [hstep]
    exact ⟨rfl, hcites'⟩
  · right
    have hbefore : Readable text := h.raw ▸ readable_of_extract hcites.seen
    cases item with
    | usage promptTokens completionTokens => exact absurd (by simpa [answerText] using hbefore) hread
    | thinking delta => exact absurd (by simpa [answerText] using hbefore) hread
    | answer delta =>
      have htext : answerText [.answer delta] = delta := by simp [answerText]
      rw [htext, ← h.raw] at hread
      cases hextract : extractCitedIndices (normalizeCitations (st.rawAnswer ++ delta)) with
      | ok cited => exact absurd (readable_of_extract hextract) hread
      | error exc =>
        rw [htext, ← h.raw]
        simp only [StreamState.step, hextract, citationNumbers_append]
        refine ⟨⟨exc, rfl⟩, hread, ?_⟩
        split
        · exact List.append_nil _
        · exact List.append_nil _

def ReadBehind (text : Text) (items : List StreamItem) (n : Nat) : Prop :=
  ∃ front, front <+: items ∧ Readable (text ++ answerText front) ∧ Marked (text ++ answerText front) n

theorem answerText_nil : answerText [] = [] := rfl

theorem readBehind_nil {text : Text} (hread : Readable text) (n : Nat) : ReadBehind text [] n ↔ Marked text n := by
  constructor
  · intro ⟨front, hfront, _, hmarked⟩
    obtain rfl := List.prefix_nil.mp hfront
    rwa [answerText_nil, List.append_nil] at hmarked
  · intro hmarked
    exact ⟨[], List.prefix_rfl, by rwa [answerText_nil, List.append_nil], by rwa [answerText_nil, List.append_nil]⟩

theorem readBehind_cons {text : Text} (hread : Readable text) (item : StreamItem) (items : List StreamItem) (n : Nat) :
    ReadBehind text (item :: items) n ↔ Marked text n ∨ ReadBehind (text ++ answerText [item]) items n := by
  have hcons : ∀ front, text ++ answerText (item :: front) = text ++ answerText [item] ++ answerText front := by
    intro front
    rw [answerText_cons, List.append_assoc]
  constructor
  · intro ⟨front, hfront, hread', hmarked⟩
    cases front with
    | nil => exact Or.inl (by rwa [answerText_nil, List.append_nil] at hmarked)
    | cons x front =>
      obtain ⟨rfl, hrest⟩ := List.cons_prefix_cons.mp hfront
      rw [hcons] at hread' hmarked
      exact Or.inr ⟨front, hrest, hread', hmarked⟩
  · intro h
    rcases h with hmarked | ⟨front, hfront, hread', hmarked⟩
    · exact ⟨[], List.nil_prefix, by rwa [answerText_nil, List.append_nil], by rwa [answerText_nil, List.append_nil]⟩
    · rw [← hcons] at hread' hmarked
      exact ⟨item :: front, List.cons_prefix_cons.mpr ⟨rfl, hfront⟩, hread', hmarked⟩

theorem readBehind_unreadable {text : Text} (hread : Readable text) {item : StreamItem}
    (hno : ¬ Readable (text ++ answerText [item])) (n : Nat) : ReadBehind text [item] n ↔ Marked text n := by
  rw [readBehind_cons hread]
  constructor
  · intro h
    refine h.resolve_right fun ⟨front, hfront, hread', _⟩ => hno ?_
    exact hread'.of_append
  · exact Or.inl

theorem readBehind_readable {text : Text} {item : StreamItem} (hread : Readable (text ++ answerText [item])) (n : Nat) :
    ReadBehind text [item] n ↔ Marked (text ++ answerText [item]) n := by
  rw [readBehind_cons hread.of_append, readBehind_nil hread]
  exact ⟨fun h => h.elim (fun hmarked => hmarked.append _) id, Or.inr⟩

/-- The loop, at its end: what has been collected and shown of the items it has taken in, and what has been cited. -/
structure Ends (read : StreamState × StreamStop) (text : Text) (taken : List StreamItem × Bool) : Prop where
  collects : Collects read.1 (text ++ answerText taken.1)
  raises : read.2.result.isOk = !taken.2
  cites : ∀ n, n ∈ citationNumbers read.1.frames ↔ ReadBehind text taken.1 n

theorem Collects.comment {st : StreamState} {text : Text} (h : Collects st text) :
    Collects { st with frames := st.frames ++ [.comment] } text := by
  refine ⟨h.raw, h.guard, ?_⟩
  rw [tokenText_append, h.tokens]
  exact List.append_nil _

theorem Collects.ends {st : StreamState} {text : Text} (h : Collects st text) (hcites : Cites st) {st' : StreamState}
    (hst : Collects st' text) (hframes : citationNumbers st'.frames = citationNumbers st.frames) {stop : StreamStop}
    {raised : Bool} (hstop : stop.result.isOk = !raised) : Ends (st', stop) text ([], raised) := by
  have hread : Readable text := h.raw ▸ readable_of_extract hcites.seen
  refine ⟨by rwa [answerText_nil, List.append_nil], hstop, fun n => ?_⟩
  rw [readBehind_nil hread, hframes, hcites.sent, extract_mem (h.raw ▸ hcites.seen)]

theorem Collects.silent {st : StreamState} {text : Text} (h : Collects st text) (hcites : Cites st) (left : Bool) :
    Ends (if left then ({ st with frames := st.frames ++ [.comment] }, .raised disconnected)
      else ({ st with frames := st.frames ++ [.comment] }, .silent)) text ([], left) := by
  have hcomment : citationNumbers (st.frames ++ [.comment]) = citationNumbers st.frames := by
    rw [citationNumbers_append]
    exact List.append_nil _
  cases left with
  | true => exact h.ends hcites h.comment hcomment rfl
  | false => exact h.ends hcites h.comment hcomment rfl

theorem readStream_ends (waits : Nat → ℚ) (gone : List Frame → Bool) (ending : StreamEnd) (i : Nat) (items : List StreamItem)
    {st : StreamState} {text : Text} (h : Collects st text) (hcites : Cites st) :
    Ends (readStream waits gone ending i items st) text (heard waits gone ending i items st) := by
  induction items generalizing i st text with
  | nil =>
    unfold readStream heard
    by_cases hlong : heartbeatIntervalSeconds ≤ waits i
    · simp only [if_pos hlong]
      exact h.silent hcites _
    · simp only [if_neg hlong]
      cases ending with
      | exhausted => exact h.ends hcites h rfl rfl
      | raises exc => exact h.ends hcites h rfl rfl
  | cons item items ih =>
    unfold readStream heard
    by_cases hlong : heartbeatIntervalSeconds ≤ waits i
    · simp only [if_pos hlong]
      exact h.silent hcites _
    · simp only [if_neg hlong]
      have hread : Readable text := h.raw ▸ readable_of_extract hcites.seen
      have hnext := h.step item
      have hone : text ++ answerText [item] ++ answerText [] = text ++ answerText [item] := List.append_nil _
      rcases step_cited h hcites item with ⟨hok, hcites'⟩ | ⟨⟨exc, herror⟩, hno, hsame⟩
      · have hseen := hcites'.seen
        rw [hnext.raw] at hseen
        have hread' : Readable (text ++ answerText [item]) := readable_of_extract hseen
        have hnumbers : ∀ n, n ∈ citationNumbers (st.step item).1.frames ↔ ReadBehind text [item] n := by
          intro n
          rw [readBehind_readable hread', hcites'.sent, extract_mem hseen]
        simp only [hok, Except.isOk, Except.toBool, Bool.not_true, Bool.or_false]
        by_cases hgone : gone (st.step item).1.frames = true
        · simp only [hgone, if_true]
          exact ⟨hnext, rfl, hnumbers⟩
        · simp only [hgone, Bool.false_eq_true, if_false]
          by_cases hdone : (st.step item).1.guard.done = true
          · simp only [hdone, if_true]
            exact ⟨hnext, rfl, hnumbers⟩
          · simp only [hdone, Bool.false_eq_true, if_false]
            obtain ⟨hcollects, hraises, hcited⟩ := ih (i + 1) hnext hcites'
            refine ⟨?_, hraises, fun n => ?_⟩
            · rw [answerText_cons, ← List.append_assoc]
              exact hcollects
            · rw [hcited, readBehind_cons hread]
              refine ⟨Or.inr, fun h => h.elim (fun hmarked => ?_) id⟩
              refine ⟨[], List.nil_prefix, ?_, ?_⟩
              · rwa [hone]
              · rw [hone]
                exact hmarked.append _
      · have hnumbers : ∀ n, n ∈ citationNumbers (st.step item).1.frames ↔ ReadBehind text [item] n := by
          intro n
          rw [readBehind_unreadable hread hno, hsame, hcites.sent, extract_mem (h.raw ▸ hcites.seen)]
        simp only [herror, Except.isOk, Except.toBool, Bool.not_false, Bool.or_true, if_true]
        split
        · exact ⟨hnext, rfl, hnumbers⟩
        · exact ⟨hnext, rfl, hnumbers⟩

end

section

variable {settings : Settings} {completionCost : CompletionCost} {env : StreamEnv} {req : ChatRequest} {user : Option User}

/-- What follows the loop, for a client that may go. -/
def StreamEnv.ended (env : StreamEnv) (req : ChatRequest) (hits : List Hit) (read : StreamState × StreamStop) :
    List RequestEvent :=
  match read.2.result with
  | .error exc => errorEvents exc
  | .ok _ => (tailFrames read.1).map .sent ++
      if env.gone (read.1.frames ++ tailFrames read.1) then []
      else (if env.persist.stores req.chatId then [.stored (env.exchange req hits read.1)] else []) ++
        lastEvents read.1.citedSeen (env.persist.persisted req.chatId)

def caughtEvents : Except PyError Unit → List RequestEvent
  | .error exc => errorEvents exc
  | .ok _ => []

theorem send_apply (gone : List Frame → Bool) (before frames : List Frame) (u : Uow Usage RequestEvent) :
    send gone before frames u = (if gone (before ++ frames) then .error disconnected else .ok (),
      { u with log := u.log ++ frames.map .sent }) := rfl

@[simp] theorem caught_left (left : Prop) [Decidable left] :
    caughtEvents (if left then .error disconnected else .ok ()) = [] := by
  split
  · rfl
  · rfl

theorem caught_log (t : RequestTx Unit) (u : Uow Usage RequestEvent) :
    (Tx.tryCatch PyError.isException t (fun _ => Tx.recordAll [.sent (.error streamError), .sent .done]) u).2.log =
      (t u).2.log ++ caughtEvents (t u).1 := by
  unfold Tx.tryCatch
  cases t u with
  | mk r u' =>
    cases r with
    | ok _ => exact (List.append_nil _).symm
    | error exc =>
      by_cases hcaught : exc.isException = true
      · simp [hcaught, caughtEvents, errorEvents, Tx.recordAll]
      · simp [hcaught, caughtEvents, errorEvents]

theorem finishStream_log (r : List Hit × String) (read : StreamState × StreamStop) (hresult : read.2.result = .ok ())
    (u : Uow Usage RequestEvent) :
    (finishStream settings completionCost req user env r read.1 u).2.log ++
      caughtEvents (finishStream settings completionCost req user env r read.1 u).1 =
        u.log ++ env.ended req r.1 read := by
  unfold finishStream StreamEnv.ended
  rw [Tx.bind_apply, send_apply, hresult]
  cases hgone : env.gone (read.1.frames ++ tailFrames read.1) with
  | true => simp [caughtEvents, errorEvents, disconnected, PyError.isException]
  | false =>
    simp only [Bool.false_eq_true, if_false]
    rw [Tx.bind_apply]
    simp only [trackUsage, Tx.add]
    rw [Tx.bind_apply, persistExchange_run]
    cases hpersisted : env.persist.persisted req.chatId with
    | error exc =>
      cases env.persist.stores req.chatId with
      | true => simp [caughtEvents, lastEvents, StreamEnv.exchange]
      | false => simp [caughtEvents, lastEvents]
    | ok ids =>
      simp only [send_apply, caught_left]
      cases env.persist.stores req.chatId with
      | true => simp [lastEvents, StreamEnv.exchange]
      | false => simp [lastEvents]

/-- Events that tell nothing of an answer. -/
structure Unsaid (events : List RequestEvent) : Prop where
  tokens : tokenText (sentFrames events) = []
  numbers : citationNumbers (sentFrames events) = []
  exchanges : storedExchanges events = []

theorem storedExchanges_append (l l' : List RequestEvent) :
    storedExchanges (l ++ l') = storedExchanges l ++ storedExchanges l' := List.filterMap_append

theorem storedExchanges_sent (frames : List Frame) : storedExchanges (frames.map .sent) = [] := by
  apply List.filterMap_eq_nil_iff.mpr
  intro e he
  obtain ⟨f, _, rfl⟩ := List.mem_map.mp he
  rfl

theorem Unsaid.append {l l' : List RequestEvent} (h : Unsaid l) (h' : Unsaid l') : Unsaid (l ++ l') := by
  constructor
  · rw [sentFrames_append, tokenText_append, h.tokens, h'.tokens]
    rfl
  · rw [sentFrames_append, citationNumbers_append, h.numbers, h'.numbers]
    rfl
  · rw [storedExchanges_append, h.exchanges, h'.exchanges]
    rfl

theorem Unsaid.shown {events : List RequestEvent} (h : Unsaid events) : ShownIsStored events := by
  constructor
  · rw [h.exchanges]
    intro e he
    cases he
  · rw [h.numbers]
    intro n hn
    cases hn

theorem unsaid_sent {frames : List Frame} (htokens : tokenText frames = []) (hnumbers : citationNumbers frames = []) :
    Unsaid (frames.map .sent) :=
  ⟨by rwa [sentFrames_sent], by rwa [sentFrames_sent], storedExchanges_sent frames⟩

theorem unsaid_errors (exc : PyError) : Unsaid (errorEvents exc) := by
  unfold errorEvents
  split
  · exact @unsaid_sent [.error streamError, .done] rfl rfl
  · exact ⟨rfl, rfl, rfl⟩

theorem unsaid_last (cited : List Nat) (e : Except PyError (Uuid × Uuid)) : Unsaid (lastEvents cited e) := by
  cases e with
  | ok ids => exact @unsaid_sent [.metaInfo ids.2 ids.1 cited, .done] rfl rfl
  | error exc => exact unsaid_errors exc

theorem unsaid_calls {events : List RequestEvent} (h : OnlyCalls events) : Unsaid events := by
  have hnone := h.unseen.1
  refine ⟨by rw [hnone]; rfl, by rw [hnone]; rfl, ?_⟩
  apply List.filterMap_eq_nil_iff.mpr
  intro e he
  obtain ⟨c, rfl⟩ := h e he
  rfl

theorem unsaid_opening (warning : Option String) (r : List Hit × String) :
    tokenText (openingFrames req warning r) = [] ∧ citationNumbers (openingFrames req warning r) = [] := by
  unfold openingFrames
  cases warning with
  | none =>
    split
    · exact ⟨rfl, rfl⟩
    · exact ⟨rfl, rfl⟩
  | some w =>
    split
    · exact ⟨rfl, rfl⟩
    · exact ⟨rfl, rfl⟩

theorem chatStream_caught {warning : Option String} (hbudget : env.budget = .ok warning) (hthere : env.gone [.retry] = false)
    (usage : List Usage) : ((chatStream settings completionCost req user env).request usage).log =
      (streamFrames settings completionCost req user env warning ⟨usage, [], [.sent .retry]⟩).2.log ++
        caughtEvents (streamFrames settings completionCost req user env warning ⟨usage, [], [.sent .retry]⟩).1 := by
  unfold Tx.request chatStream
  rw [Tx.bind_apply, hbudget]
  simp only [Tx.await]
  rw [Tx.bind_apply, send_apply]
  simp only [List.nil_append, hthere, Bool.false_eq_true, if_false]
  exact caught_log _ _

theorem chatStream_unanswered (h : ∀ warning r, env.budget = .ok warning → env.gone [.retry] = false →
    env.retrieval.retrieved settings req.message user = .ok r → env.gone (.retry :: openingFrames req warning r) = true)
    (usage : List Usage) : Unsaid ((chatStream settings completionCost req user env).request usage).log := by
  have hretry : Unsaid [.sent .retry] := ⟨rfl, rfl, rfl⟩
  have hcalls := unsaid_calls (retrieval_calls settings env.retrieval req.message user)
  cases hbudget : env.budget with
  | error exc =>
    unfold Tx.request chatStream
    rw [Tx.bind_apply, hbudget]
    exact ⟨rfl, rfl, rfl⟩
  | ok warning =>
    cases hthere : env.gone [.retry] with
    | true =>
      unfold Tx.request chatStream
      rw [Tx.bind_apply, hbudget]
      simp only [Tx.await]
      rw [Tx.bind_apply, send_apply]
      simp only [List.nil_append, hthere, if_true]
      exact hretry
    | false =>
      rw [chatStream_caught hbudget hthere]
      unfold streamFrames
      rw [Tx.bind_apply, retrieve_spec]
      have hstaged : ∀ (lands : Bool) (u : Uow Usage RequestEvent), (if lands then u.flush else u).log = u.log := by
        intro lands u
        cases lands with
        | _ => rfl
      cases hr : env.retrieval.retrieved settings req.message user with
      | error exc =>
        simp only [hstaged]
        exact (hretry.append hcalls).append (unsaid_errors exc)
      | ok r =>
        have hgone := h warning r hbudget hthere hr
        simp only
        rw [Tx.bind_apply, send_apply]
        simp only [List.singleton_append, hgone, if_true, hstaged]
        obtain ⟨htokens, hnumbers⟩ := @unsaid_opening req warning r
        exact ((hretry.append hcalls).append (unsaid_sent htokens hnumbers)).append (unsaid_errors disconnected)

theorem chatStream_answered {warning : Option String} {r : List Hit × String} (hbudget : env.budget = .ok warning)
    (hthere : env.gone [.retry] = false) (hr : env.retrieval.retrieved settings req.message user = .ok r) {before : List Frame}
    (hbefore : before = .retry :: openingFrames req warning r) (hopen : env.gone before = false) (usage : List Usage) :
    ∃ quiet, Unsaid quiet ∧ ((chatStream settings completionCost req user env).request usage).log =
      quiet ++ env.events settings user r before ++ env.ended req r.1 (env.read before) := by
  have hcalls := unsaid_calls (retrieval_calls settings env.retrieval req.message user)
  obtain ⟨htokens, hnumbers⟩ := @unsaid_opening req warning r
  have hretry : Unsaid [.sent .retry] := ⟨rfl, rfl, rfl⟩
  refine ⟨_, (hretry.append hcalls).append (unsaid_sent htokens hnumbers), ?_⟩
  subst hbefore
  rw [chatStream_caught hbudget hthere]
  unfold streamFrames
  rw [Tx.bind_apply, retrieve_spec, hr, retrieved_lands hr]
  simp only [if_true]
  rw [Tx.bind_apply, send_apply]
  simp only [List.singleton_append, hopen, Bool.false_eq_true, if_false]
  rw [Tx.bind_apply]
  simp only [Tx.recordAll]
  rw [Tx.bind_apply]
  cases hresult : (env.read (.retry :: openingFrames req warning r)).2.result with
  | error exc =>
    simp only [Tx.await]
    unfold StreamEnv.ended
    simp only [hresult]
    rfl
  | ok _ =>
    simp only [Tx.await]
    rw [finishStream_log _ _ hresult]
    rfl

theorem readStream_grows (waits : Nat → ℚ) (gone : List Frame → Bool) (ending : StreamEnd) (i : Nat) (items : List StreamItem)
    (st : StreamState) : st.frames <+: (readStream waits gone ending i items st).1.frames := by
  have hcomment : st.frames <+: st.frames ++ [.comment] := List.prefix_append _ _
  induction items generalizing i st with
  | nil =>
    unfold readStream
    split
    · dsimp only
      split
      · exact hcomment
      · exact hcomment
    · split
      · exact List.prefix_rfl
      · exact List.prefix_rfl
  | cons item items ih =>
    obtain ⟨sent, hsent, _⟩ := step_spec st item
    have hstep : st.frames <+: (st.step item).1.frames := ⟨sent, hsent.symm⟩
    unfold readStream
    split
    · dsimp only
      split
      · exact hcomment
      · exact hcomment
    · dsimp only
      split
      · exact hstep
      · split
        · exact hstep
        · split
          · exact hstep
          · exact hstep.trans (ih (i + 1) (st.step item).1 (List.prefix_append _ _))

theorem ended_spec {before : List Frame} {raised : Bool} (hraises : (env.read before).2.result.isOk = !raised)
    (hits : List Hit) :
    tokenText (sentFrames (env.ended req hits (env.read before))) =
        (if raised then [] else (env.read before).1.guard.pending) ∧
      citationNumbers (sentFrames (env.ended req hits (env.read before))) = [] ∧
      storedExchanges (env.ended req hits (env.read before)) =
        if env.writes req before then [env.exchange req hits (env.read before).1] else [] := by
  unfold StreamEnv.ended StreamEnv.writes
  cases hresult : (env.read before).2.result with
  | error exc =>
    rw [hresult] at hraises
    cases raised with
    | false => cases hraises
    | true =>
      have hnone := unsaid_errors exc
      exact ⟨hnone.tokens, hnone.numbers, hnone.exchanges⟩
  | ok _ =>
    rw [hresult] at hraises
    cases raised with
    | true => cases hraises
    | false =>
      have htail : tokenText (tailFrames (env.read before).1) = (env.read before).1.guard.pending ∧
          citationNumbers (tailFrames (env.read before).1) = [] := by
        unfold tailFrames TokenGuard.flush
        split
        · rename_i hnone
          exact ⟨hnone.symm, rfl⟩
        · exact ⟨List.append_nil _, rfl⟩
      have hlast := unsaid_last (env.read before).1.citedSeen (env.persist.persisted req.chatId)
      cases hgone : env.gone ((env.read before).1.frames ++ tailFrames (env.read before).1) with
      | true =>
        simp only [if_true, List.append_nil, sentFrames_sent, storedExchanges_sent]
        exact ⟨htail.1, htail.2, rfl⟩
      | false =>
        cases env.persist.stores req.chatId with
        | true =>
          have hstored : sentFrames [.stored (env.exchange req hits (env.read before).1)] = [] := rfl
          simp only [Bool.false_eq_true, if_false, if_true, sentFrames_append, tokenText_append, citationNumbers_append,
            storedExchanges_append, sentFrames_sent, storedExchanges_sent, hstored, htail, hlast.tokens, hlast.numbers,
            hlast.exchanges]
          exact ⟨List.append_nil _, rfl, rfl⟩
        | false =>
          simp only [Bool.false_eq_true, if_false, sentFrames_append, tokenText_append, citationNumbers_append,
            storedExchanges_append, sentFrames_sent, storedExchanges_sent, htail, hlast.tokens, hlast.numbers,
            hlast.exchanges, List.nil_append]
          exact ⟨List.append_nil _, trivial, rfl⟩

theorem untilRunaway_of_normal {text : Text} (h : normalizeCitations text = normalizeCitations (untilRunaway text)) :
    untilRunaway text = text := by
  obtain ⟨rest, hrest⟩ := untilRunaway_prefix text
  have hlonger : normalizeCitations (untilRunaway text ++ rest) = normalizeCitations (untilRunaway text) := by
    rw [hrest]
    exact h
  have hnone : rest = [] := normalizeCitations_longer hlonger
  rw [hnone, List.append_nil] at hrest
  exact hrest

theorem answered_shown_iff {warning : Option String} {r : List Hit × String} (hbudget : env.budget = .ok warning)
    (hthere : env.gone [.retry] = false) (hr : env.retrieval.retrieved settings req.message user = .ok r) {before : List Frame}
    (hbefore : before = .retry :: openingFrames req warning r) (hopen : env.gone before = false) (usage : List Usage) :
    ShownIsStored ((chatStream settings completionCost req user env).request usage).log ↔ AnswerShown env req before := by
  obtain ⟨quiet, hquiet, hlog⟩ := @chatStream_answered settings completionCost env req user _ _ hbudget hthere hr _ hbefore hopen usage
  have hfirst : tokenText before = [] ∧ citationNumbers before = [] := by
    subst hbefore
    exact @unsaid_opening req warning r
  have hends : Ends (env.read before) [] (env.heard before) :=
    readStream_ends env.waits env.gone env.ending 0 _ ⟨rfl, rfl, hfirst.1⟩ ⟨rfl, hfirst.2⟩
  obtain ⟨more, hmore⟩ : before <+: (env.read before).1.frames := readStream_grows _ _ _ _ _ { frames := before }
  obtain ⟨hcollects, hraises, hcited⟩ := hends
  rw [List.nil_append] at hcollects
  obtain ⟨htail, hnumbers, hexchanges⟩ := @ended_spec env req before _ hraises r.1
  have hevents : sentFrames (env.events settings user r before) = more ∧
      storedExchanges (env.events settings user r before) = [] := by
    have hcall : ∀ c, sentFrames [.call c] = [] ∧ storedExchanges [.call c] = [] := fun c => ⟨rfl, rfl⟩
    unfold StreamEnv.events
    simp only [← hmore, List.drop_left, sentFrames_append, storedExchanges_append, sentFrames_sent, storedExchanges_sent, hcall,
      List.append_nil, and_self]
  have htokens := hcollects.tokens
  rw [← hmore, tokenText_append, hfirst.1, List.nil_append] at htokens
  have hshown : shownText (sentFrames ((chatStream settings completionCost req user env).request usage).log) =
      outgoing (answerText (env.heard before).1) (env.heard before).2 := by
    rw [← shown_outgoing, shownText, hlog]
    simp only [sentFrames_append, tokenText_append, hquiet.tokens, hevents.1, htokens, htail, hcollects.guard, List.nil_append]
  have hcitations : ∀ n, n ∈ citationNumbers (sentFrames ((chatStream settings completionCost req user env).request usage).log) ↔
      NumberRead (env.heard before).1 n := by
    intro n
    have hread := hcited n
    rw [← hmore, citationNumbers_append, hfirst.2, List.nil_append] at hread
    rw [hlog]
    simp only [sentFrames_append, citationNumbers_append, hquiet.numbers, hevents.1, hnumbers, List.nil_append, List.append_nil]
    exact hread
  have hstored : storedExchanges ((chatStream settings completionCost req user env).request usage).log =
      if env.writes req before then [env.exchange req r.1 (env.read before).1] else [] := by
    rw [hlog]
    simp only [storedExchanges_append, hquiet.exchanges, hevents.2, hexchanges, List.nil_append]
  have hanswers : (env.exchange req r.1 (env.read before).1).answers =
      [String.ofList (normalizeCitations (answerText (env.heard before).1))] := by
    rw [← hcollects.raw]
    rfl
  have hwhole : env.writes req before = true → (env.heard before).2 = false := by
    intro hwrites
    unfold StreamEnv.writes at hwrites
    simp only [hraises, Bool.and_eq_true, Bool.not_eq_true'] at hwrites
    exact hwrites.1.1
  constructor
  · intro h
    refine ⟨fun hwrites => ?_, fun n hn => ?_⟩
    · have hsame := h.stored (env.exchange req r.1 (env.read before).1) (by simp [hstored, hwrites])
      have hleft := hwhole hwrites
      rw [hanswers, hshown, hleft] at hsame
      simp only [List.cons.injEq, and_true, outgoing, Bool.false_eq_true, false_and, if_false] at hsame
      apply untilRunaway_of_normal
      have hchars := congrArg String.toList hsame
      rwa [String.toList_ofList, String.toList_ofList] at hchars
    · have hmarked := h.cited n ((hcitations n).mpr hn)
      rwa [hshown] at hmarked
  · intro h
    constructor
    · intro e he
      rw [hstored] at he
      split at he
      · rename_i hwrites
        have hleft := hwhole hwrites
        obtain rfl := List.mem_singleton.mp he
        rw [hanswers, hshown, hleft]
        simp only [outgoing, Bool.false_eq_true, false_and, if_false, h.whole hwrites]
      · cases he
    · intro n hn
      rw [hshown]
      exact h.marked n ((hcitations n).mp hn)

/-- `/chat/stream` shows what it stores, and cites what it shows, just where the text it hears goes out: no delta of a
stored answer goes on behind a runaway of whitespace, and each number it reads stands in front of the cut or of the row
that an exception leaves open. -/
theorem shown_is_stored_iff (settings : Settings) (completionCost : CompletionCost) (req : ChatRequest) (user : Option User)
    (env : StreamEnv) (usage : List Usage) :
    ShownIsStored ((chatStream settings completionCost req user env).request usage).log ↔
      ∀ warning r, env.budget = .ok warning → env.gone [.retry] = false →
        env.retrieval.retrieved settings req.message user = .ok r →
          env.gone (.retry :: openingFrames req warning r) = false →
            AnswerShown env req (.retry :: openingFrames req warning r) := by
  by_cases hunanswered : ∀ warning r, env.budget = .ok warning → env.gone [.retry] = false →
    env.retrieval.retrieved settings req.message user = .ok r → env.gone (.retry :: openingFrames req warning r) = true
  · refine iff_of_true (chatStream_unanswered hunanswered usage).shown fun warning r hbudget hthere hr hopen => ?_
    rw [hunanswered warning r hbudget hthere hr] at hopen
    cases hopen
  · push Not at hunanswered
    obtain ⟨warning, r, hbudget, hthere, hr, hgone⟩ := hunanswered
    rw [answered_shown_iff hbudget hthere hr rfl (Bool.eq_false_of_not_eq_true hgone) usage]
    constructor
    · intro h warning' r' hbudget' _ hr' _
      obtain rfl : warning = warning' := Except.ok.inj (hbudget.symm.trans hbudget')
      obtain rfl : r = r' := Except.ok.inj (hr.symm.trans hr')
      exact h
    · intro h
      exact h warning r hbudget hthere hr (Bool.eq_false_of_not_eq_true hgone)

end

/-- The answer runs away in the middle of its only delta. -/
def runawayStream : StreamEnv :=
  { noteStream with chunks := [⟨none, some (none, some ("At noon [s1].".toList ++ List.replicate 200 ' ' ++ "[s2]".toList))⟩] }

/-- The rest of the delta is stored and cited, and never shown. -/
theorem runawayStream_hidden :
    ¬ ShownIsStored ((chatStream {} (fun _ _ _ => .ok none) noteRequest none runawayStream).request []).log := by
  intro h
  have hcited : 2 ∈ citationNumbers (sentFrames
      ((chatStream {} (fun _ _ _ => .ok none) noteRequest none runawayStream).request []).log) := by decide +kernel
  have hmarks : citationMarks (shownText (sentFrames
      ((chatStream {} (fun _ _ _ => .ok none) noteRequest none runawayStream).request []).log)) = [['1']] := by decide +kernel
  obtain ⟨digits, hdigits, hnumber⟩ := h.cited 2 hcited
  rw [hmarks] at hdigits
  obtain rfl := List.mem_singleton.mp hdigits
  have hone : pyInt ['1'] = .ok 1 := rfl
  cases hone.symm.trans hnumber

end ProRag
