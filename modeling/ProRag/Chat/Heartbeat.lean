import ProRag.Chat.Agreement

/-!
# The heartbeat and the answer

A wait of the heartbeat interval cancels the generator it waits for, and the stream ends there as if the
answer were complete.  What this changes, and when it changes nothing.
-/

namespace ProRag

open Framework

/-- What the client and the database see: no calls and no comments. -/
def visibleEvents (events : List RequestEvent) : List RequestEvent := events.filter fun e => match e with
  | .call _ | .sent .comment => false
  | _ => true

/-- The stream sends and stores what it does when no wait reaches the interval. -/
def HeartbeatTransparent (settings : Settings) (completionCost : CompletionCost) (req : ChatRequest) (user : Option User)
    (env : StreamEnv) (usage : List Usage) : Prop :=
  ∀ quiet : Nat → ℚ, (∀ i, quiet i < heartbeatIntervalSeconds) →
    let slow := (chatStream settings completionCost req user env).request usage
    let fast := (chatStream settings completionCost req user { env with waits := quiet }).request usage
    slow.committed = fast.committed ∧ visibleEvents slow.log = visibleEvents fast.log

/-- The state and the items that remain at the first wait that reaches the interval, where the loop comes to one. -/
def firstGap (waits : Nat → ℚ) : Nat → List StreamItem → StreamState → Option (StreamState × List StreamItem)
  | i, [], st => if heartbeatIntervalSeconds ≤ waits i then some (st, []) else none
  | i, item :: items, st =>
    if heartbeatIntervalSeconds ≤ waits i then some (st, item :: items)
    else match st.step item with
      | (_, .error _) => none
      | (next, .ok _) => if next.guard.done then none else firstGap waits (i + 1) items next

def usageAfter (usage : Option (Nat × Nat)) (items : List StreamItem) : Option (Nat × Nat) :=
  items.foldl (fun usage item => match item with
    | .usage promptTokens completionTokens => some (promptTokens, completionTokens)
    | _ => usage) usage

/-- A marker too long to read comes up before a frame has been sent. -/
def StreamState.failsUnseen (st : StreamState) : List StreamItem → Bool
  | [] => false
  | item :: items => match st.step item with
    | (next, .error _) => next.frames = st.frames
    | (next, .ok _) => next.frames = st.frames && next.failsUnseen items

/-- The rest of the answer makes no difference: it has no text and the exchange, where it is stored, costs
the same; or nothing is stored and nothing held, and the rest fails before it shows. -/
def GapHarmless (settings : Settings) (user : Option User) (req : ChatRequest) (env : StreamEnv) (r : List Hit × String)
    (st : StreamState) (rest : List StreamItem) : Prop :=
  (answerText rest = [] ∧ (env.persist.stores req.chatId = true →
    env.completion settings user r st = env.completion settings user r { st with usage := usageAfter st.usage rest })) ∨
  (env.persist.stores req.chatId = false ∧ (∃ exc, env.persist.persisted req.chatId = .error exc ∧ exc.isException = true) ∧
    st.guard.pending = [] ∧ st.failsUnseen rest = true)

def StreamState.consume (st : StreamState) : List StreamItem → StreamState × StreamStop
  | [] => (st, .exhausted)
  | item :: items => match st.step item with
    | (next, .error exc) => (next, .raised exc)
    | (next, .ok _) => if next.guard.done then (next, .guarded) else next.consume items

section

variable {gone : List Frame → Bool}

theorem readStream_quiet (hstay : ∀ frames, gone frames = false) {quiet : Nat → ℚ}
    (hquiet : ∀ i, quiet i < heartbeatIntervalSeconds) (i : Nat) (items : List StreamItem) (st : StreamState) :
    readStream quiet gone .exhausted i items st = st.consume items := by
  induction items generalizing i st with
  | nil => simp [readStream, StreamState.consume, not_le.mpr (hquiet i)]
  | cons item items ih =>
    cases hstep : st.step item with
    | mk next result =>
      cases result with
      | error exc => simp [readStream, StreamState.consume, not_le.mpr (hquiet i), hstay, hstep]
      | ok _ => simp [readStream, StreamState.consume, not_le.mpr (hquiet i), hstay, hstep, ih]

theorem readStream_noGap (hstay : ∀ frames, gone frames = false) {waits : Nat → ℚ} {i : Nat} {items : List StreamItem}
    {st : StreamState} (h : firstGap waits i items st = none) :
    readStream waits gone .exhausted i items st = st.consume items := by
  induction items generalizing i st with
  | nil =>
    by_cases hlong : heartbeatIntervalSeconds ≤ waits i
    · simp [firstGap, hlong] at h
    · simp [readStream, StreamState.consume, hlong]
  | cons item items ih =>
    by_cases hlong : heartbeatIntervalSeconds ≤ waits i
    · simp [firstGap, hlong] at h
    · cases hstep : st.step item with
      | mk next result =>
        cases result with
        | error exc => simp [readStream, StreamState.consume, hlong, hstay, hstep]
        | ok _ =>
          by_cases hdone : next.guard.done = true
          · simp [readStream, StreamState.consume, hlong, hstay, hstep, hdone]
          · simp only [firstGap, hlong, hstep, hdone, ↓reduceIte] at h
            simp [readStream, StreamState.consume, hlong, hstay, hstep, hdone, ih h]

theorem readStream_gap (hstay : ∀ frames, gone frames = false) {waits : Nat → ℚ} {i : Nat} {items : List StreamItem}
    {st cut : StreamState} {rest : List StreamItem} (hopen : st.guard.done = false)
    (h : firstGap waits i items st = some (cut, rest)) :
    readStream waits gone .exhausted i items st = ({ cut with frames := cut.frames ++ [.comment] }, .silent) ∧
      st.consume items = cut.consume rest ∧ cut.guard.done = false ∧ rest <:+ items := by
  induction items generalizing i st with
  | nil =>
    by_cases hlong : heartbeatIntervalSeconds ≤ waits i
    · simp only [firstGap, hlong, ↓reduceIte, Option.some.injEq, Prod.mk.injEq] at h
      obtain ⟨rfl, rfl⟩ := h
      exact ⟨readStream_silent hstay .exhausted hlong [] st, rfl, hopen, List.suffix_rfl⟩
    · simp [firstGap, hlong] at h
  | cons item items ih =>
    by_cases hlong : heartbeatIntervalSeconds ≤ waits i
    · simp only [firstGap, hlong, ↓reduceIte, Option.some.injEq, Prod.mk.injEq] at h
      obtain ⟨rfl, rfl⟩ := h
      exact ⟨readStream_silent hstay .exhausted hlong _ st, rfl, hopen, List.suffix_rfl⟩
    · cases hstep : st.step item with
      | mk next result =>
        cases result with
        | error exc => simp [firstGap, hlong, hstep] at h
        | ok _ =>
          by_cases hdone : next.guard.done = true
          · simp [firstGap, hlong, hstep, hdone] at h
          · simp only [firstGap, hlong, hstep, hdone, ↓reduceIte] at h
            obtain ⟨hread, hconsume, hcut, hrest⟩ := ih (Bool.eq_false_of_not_eq_true hdone) h
            refine ⟨?_, ?_, hcut, hrest.trans (List.suffix_cons item items)⟩
            · simp [readStream, hlong, hstay, hstep, hdone, hread]
            · simp [StreamState.consume, hstep, hdone, hconsume]

end

def tokenText (frames : List Frame) : Text := frames.flatMap fun f => match f with
  | .token t => t
  | _ => []

theorem tokenText_append (l l' : List Frame) : tokenText (l ++ l') = tokenText l ++ tokenText l' := List.flatMap_append

theorem extract_raises {text : Text} {exc : PyError} (h : extractCitedIndices text = .error exc) : exc.isException = true := by
  have hmarks : ∀ (marks : List Text) (seen : List Nat), citeMarks seen marks = .error exc → exc.isException = true := by
    intro marks
    induction marks with
    | nil =>
      intro seen h
      cases h
    | cons digits marks ih =>
      intro seen h
      by_cases hlong : 4300 < digits.length
      · have hraise : citeMarks seen (digits :: marks) =
            .error ⟨"ValueError", "Exceeds the limit (4300 digits) for integer string conversion"⟩ := by
          simp [citeMarks, pyInt, hlong, bind, Except.bind]
        obtain rfl := Except.error.inj (hraise.symm.trans h)
        decide
      · obtain ⟨n, hn⟩ : ∃ n, pyInt digits = .ok n := ⟨_, if_neg hlong⟩
        apply ih (setDefault seen n)
        rw [← h]
        unfold citeMarks
        rw [List.foldlM_cons, hn]
        rfl
  exact hmarks _ [] h

theorem foldl_cite (st : StreamState) (cited : List Nat) : ∃ new, cited.foldl StreamState.cite st =
    { st with citedSeen := st.citedSeen ++ new, frames := st.frames ++ new.map .citation } := by
  induction cited generalizing st with
  | nil => exact ⟨[], by simp⟩
  | cons n cited ih =>
    by_cases hn : n ∈ st.citedSeen
    · have hcite : st.cite n = st := if_pos hn
      rw [List.foldl_cons, hcite]
      exact ih st
    · have hcite : st.cite n = { st with citedSeen := st.citedSeen ++ [n], frames := st.frames ++ [.citation n] } := if_neg hn
      obtain ⟨new, hnew⟩ := ih { st with citedSeen := st.citedSeen ++ [n], frames := st.frames ++ [.citation n] }
      refine ⟨n :: new, ?_⟩
      rw [List.foldl_cons, hcite, hnew]
      simp

theorem step_spec (st : StreamState) (item : StreamItem) : ∃ sent, (st.step item).1.frames = st.frames ++ sent ∧
    .comment ∉ sent ∧ tokenText sent = (st.guard.feed (answerText [item])).1 ∧
    (st.step item).1.guard = (st.guard.feed (answerText [item])).2 ∧
    ∀ exc, (st.step item).2 = .error exc → exc.isException = true := by
  cases item with
  | usage promptTokens completionTokens =>
    refine ⟨[], (List.append_nil _).symm, List.not_mem_nil, rfl, rfl, fun exc h => ?_⟩
    cases h
  | thinking delta =>
    refine ⟨[], (List.append_nil _).symm, List.not_mem_nil, rfl, rfl, fun exc h => ?_⟩
    cases h
  | answer delta =>
    have htext : answerText [.answer delta] = delta := by simp [answerText]
    rw [htext]
    let fed := st.guard.feed delta
    let sent := if fed.1 = [] then [] else [Frame.token fed.1]
    let mid : StreamState := { st with rawAnswer := st.rawAnswer ++ delta, guard := fed.2, frames := st.frames ++ sent }
    have hplain : .comment ∉ sent := by
      show Frame.comment ∉ (if fed.1 = [] then [] else [Frame.token fed.1])
      split
      · simp
      · simp
    have htoken : tokenText sent = fed.1 := by
      show tokenText (if fed.1 = [] then [] else [Frame.token fed.1]) = fed.1
      by_cases h : fed.1 = []
      · simp [h, tokenText]
      · simp [h, tokenText]
    cases hextract : extractCitedIndices (normalizeCitations (st.rawAnswer ++ delta)) with
    | error exc =>
      have hstep : st.step (.answer delta) = (mid, .error exc) := by
        simp only [StreamState.step]
        rw [hextract]
      rw [hstep]
      refine ⟨sent, rfl, hplain, htoken, rfl, fun exc' h => ?_⟩
      obtain rfl := Except.error.inj h
      exact extract_raises hextract
    | ok cited =>
      have hstep : st.step (.answer delta) = (cited.foldl StreamState.cite mid, .ok ()) := by
        simp only [StreamState.step]
        rw [hextract]
      obtain ⟨new, hnew⟩ := foldl_cite mid cited
      rw [hstep, hnew]
      refine ⟨sent ++ new.map .citation, ?_, ?_, ?_, rfl, fun exc h => ?_⟩
      · simp [mid]
      · simp [hplain]
      · have hcited : tokenText (new.map .citation) = [] := by simp [tokenText]
        rw [tokenText_append, hcited, List.append_nil]
        exact htoken
      · cases h

/-- What the loop sends is longer than what was held, once a frame of text goes out or the text is at its end. -/
theorem consume_spec (st : StreamState) (items : List StreamItem) (hopen : st.guard.done = false) :
    ∃ sent, (st.consume items).1.frames = st.frames ++ sent ∧ .comment ∉ sent ∧
      (tokenText sent = [] ∨ st.guard.pending.length < (tokenText sent).length) ∧
      st.guard.pending.length ≤ (tokenText sent ++ (st.consume items).1.guard.pending).length ∧
      ((st.consume items).2.result = .ok () → answerText items ≠ [] →
        st.guard.pending.length < (tokenText sent ++ (st.consume items).1.guard.pending).length) ∧
      ∀ exc, (st.consume items).2 = .raised exc → exc.isException = true := by
  induction items generalizing st with
  | nil =>
    refine ⟨[], (List.append_nil _).symm, List.not_mem_nil, Or.inl rfl, le_refl _, fun _ h => absurd rfl h, fun exc h => ?_⟩
    cases h
  | cons item items ih =>
    obtain ⟨sent, hframes, hplain, htoken, hguard, hraise⟩ := step_spec st item
    have hsends := st.guard.feed_sends (answerText [item])
    have hgrows : answerText [item] ≠ [] →
        st.guard.pending.length < (tokenText sent ++ (st.step item).1.guard.pending).length := by
      intro hne
      rw [htoken, hguard]
      exact TokenGuard.feed_grows hopen hne
    have hkeeps : st.guard.pending.length ≤ (tokenText sent ++ (st.step item).1.guard.pending).length := by
      by_cases hne : answerText [item] = []
      · rw [htoken, hguard, hne, TokenGuard.feed_nil]
        simp
      · exact (hgrows hne).le
    rw [← htoken] at hsends
    cases hstep : st.step item with
    | mk next result =>
      rw [hstep] at hframes hguard hraise hgrows hkeeps
      simp only at hframes hguard hraise hgrows hkeeps
      cases result with
      | error exc =>
        have hrun : st.consume (item :: items) = (next, .raised exc) := by simp [StreamState.consume, hstep]
        rw [hrun]
        refine ⟨sent, hframes, hplain, hsends, hkeeps, fun h => ?_, fun exc' h => ?_⟩
        · cases h
        · obtain rfl := StreamStop.raised.inj h
          exact hraise exc rfl
      | ok _ =>
        by_cases hdone : next.guard.done = true
        · have hrun : st.consume (item :: items) = (next, .guarded) := by simp [StreamState.consume, hstep, hdone]
          rw [hrun]
          refine ⟨sent, hframes, hplain, hsends, hkeeps, fun _ _ => ?_, fun exc h => ?_⟩
          · apply hgrows
            intro hnone
            rw [hguard, hnone, TokenGuard.feed_nil, hopen] at hdone
            cases hdone
          · cases h
        · have hrun : st.consume (item :: items) = next.consume items := by simp [StreamState.consume, hstep, hdone]
          obtain ⟨more, hmore, hplain', hsends', hkeeps', hgrows', hraise'⟩ := ih next (Bool.eq_false_of_not_eq_true hdone)
          rw [hrun]
          refine ⟨sent ++ more, ?_, ?_, ?_, ?_, ?_, hraise'⟩
          · rw [hmore, hframes, List.append_assoc]
          · simp [hplain, hplain']
          · rw [tokenText_append, List.length_append]
            rcases hsends with hnone | hsome
            · rw [hnone] at hkeeps ⊢
              simp only [List.nil_append, List.length_nil, Nat.zero_add] at hkeeps ⊢
              rcases hsends' with hnone' | hsome'
              · exact Or.inl hnone'
              · exact Or.inr (by omega)
            · exact Or.inr (by omega)
          · simp only [tokenText_append, List.length_append] at hkeeps hkeeps' ⊢
            omega
          · intro hresult hne
            have hlater := hgrows' hresult
            rw [answerText_cons] at hne
            simp only [tokenText_append, List.length_append] at hgrows hkeeps hkeeps' hlater ⊢
            by_cases hfirst : answerText [item] = []
            · rw [hfirst, List.nil_append] at hne
              have hstrict := hlater hne
              omega
            · have hstrict := hgrows hfirst
              omega

theorem failsUnseen_iff (st : StreamState) (items : List StreamItem) (hopen : st.guard.done = false) :
    st.failsUnseen items = true ↔
      (∃ exc, (st.consume items).2 = .raised exc) ∧ (st.consume items).1.frames = st.frames := by
  induction items generalizing st with
  | nil => simp [StreamState.failsUnseen, StreamState.consume]
  | cons item items ih =>
    obtain ⟨sent, hframes, _, htoken, hguard, _⟩ := step_spec st item
    cases hstep : st.step item with
    | mk next result =>
      rw [hstep] at hframes hguard
      simp only at hframes hguard
      cases result with
      | error exc => simp [StreamState.failsUnseen, StreamState.consume, hstep]
      | ok _ =>
        by_cases hdone : next.guard.done = true
        · have hnew : next.frames ≠ st.frames := by
            intro heq
            rw [hframes, List.append_right_eq_self] at heq
            rw [heq] at htoken
            have hheld := (TokenGuard.feed_holds hopen (answerText [item]) htoken.symm).2
            rw [← hguard, hdone] at hheld
            cases hheld
          simp [StreamState.failsUnseen, StreamState.consume, hstep, hdone, hnew]
        · have hnext := ih next (Bool.eq_false_of_not_eq_true hdone)
          obtain ⟨more, hmore, _⟩ := consume_spec next items (Bool.eq_false_of_not_eq_true hdone)
          simp only [StreamState.failsUnseen, StreamState.consume, hstep, hdone, Bool.and_eq_true, decide_eq_true_eq,
            Bool.false_eq_true, ↓reduceIte, hnext]
          rw [hmore, hframes]
          simp only [List.append_assoc, List.append_cancel_left_eq, List.append_right_eq_self, List.append_eq_nil_iff]
          exact and_left_comm

theorem firstGap_frames {waits : Nat → ℚ} {i : Nat} {items : List StreamItem} {st cut : StreamState}
    {rest : List StreamItem} (h : firstGap waits i items st = some (cut, rest)) : st.frames <+: cut.frames := by
  induction items generalizing i st with
  | nil =>
    by_cases hlong : heartbeatIntervalSeconds ≤ waits i
    · simp only [firstGap, hlong, ↓reduceIte, Option.some.injEq, Prod.mk.injEq] at h
      rw [h.1]
    · simp [firstGap, hlong] at h
  | cons item items ih =>
    by_cases hlong : heartbeatIntervalSeconds ≤ waits i
    · simp only [firstGap, hlong, ↓reduceIte, Option.some.injEq, Prod.mk.injEq] at h
      rw [h.1]
    · obtain ⟨sent, hframes, _⟩ := step_spec st item
      cases hstep : st.step item with
      | mk next result =>
        rw [hstep] at hframes
        cases result with
        | error exc => simp [firstGap, hlong, hstep] at h
        | ok _ =>
          by_cases hdone : next.guard.done = true
          · simp [firstGap, hlong, hstep, hdone] at h
          · simp only [firstGap, hlong, hstep, hdone, ↓reduceIte] at h
            exact (show st.frames <+: next.frames from ⟨sent, hframes.symm⟩).trans (ih h)

theorem consume_textless (st : StreamState) (items : List StreamItem) (hopen : st.guard.done = false)
    (hdeltas : .answer [] ∉ items) (htext : answerText items = []) :
    st.consume items = ({ st with usage := usageAfter st.usage items }, .exhausted) := by
  induction items generalizing st with
  | nil => rfl
  | cons item items ih =>
    rw [answerText_cons, List.append_eq_nil_iff] at htext
    have hdeltas' : .answer [] ∉ items := fun h => hdeltas (List.mem_cons_of_mem _ h)
    cases item with
    | usage promptTokens completionTokens =>
      have hnext := ih { st with usage := some (promptTokens, completionTokens) } hopen hdeltas' htext.2
      simp only [StreamState.consume, StreamState.step, hopen, Bool.false_eq_true, ↓reduceIte, hnext]
      rfl
    | thinking delta =>
      have hnext := ih st hopen hdeltas' htext.2
      simp only [StreamState.consume, StreamState.step, hopen, Bool.false_eq_true, ↓reduceIte, hnext]
      rfl
    | answer delta =>
      have hnil : delta = [] := by simpa [answerText] using htext.1
      exact absurd (hnil ▸ List.mem_cons_self) hdeltas

theorem items_nonempty (chunks : List ProviderChunk) : .answer [] ∉ chunks.flatMap ProviderChunk.items := by
  intro h
  obtain ⟨chunk, _, h⟩ := List.mem_flatMap.mp h
  unfold ProviderChunk.items at h
  rcases List.mem_append.mp h with h | h
  · obtain ⟨u, _, hu⟩ := List.mem_map.mp h
    cases hu
  · split at h
    · cases h
    · rcases List.mem_append.mp h with h | h
      · obtain ⟨d, _, hd⟩ := List.mem_map.mp h
        cases hd
      · obtain ⟨d, hmem, hd⟩ := List.mem_map.mp h
        have hne : d ≠ [] := of_decide_eq_true (List.mem_filter.mp hmem).2
        exact hne (StreamItem.answer.inj hd)

section

variable {settings : Settings} {completionCost : CompletionCost} {req : ChatRequest} {user : Option User} {env : StreamEnv}

theorem lastEvents_tokenless (cited : List Nat) (e : Except PyError (Uuid × Uuid)) :
    tokenText (sentFrames (lastEvents cited e)) = [] ∧ visibleEvents (lastEvents cited e) = lastEvents cited e := by
  cases e with
  | ok ids => exact ⟨rfl, rfl⟩
  | error exc =>
    by_cases h : exc.isException = true
    · simp [lastEvents, errorEvents, h, sentFrames, tokenText, visibleEvents]
    · simp [lastEvents, errorEvents, h, sentFrames, tokenText, visibleEvents]

theorem closing_tokens (hits : List Hit) {read : StreamState × StreamStop} (hresult : read.2.result = .ok ()) :
    tokenText (sentFrames (env.closing req hits read)) = read.1.guard.pending := by
  have htail : tokenText (tailFrames read.1) = read.1.guard.pending := by
    by_cases h : read.1.guard.pending = []
    · simp [tailFrames, TokenGuard.flush, h, tokenText]
    · simp [tailFrames, TokenGuard.flush, h, tokenText]
  have hlast := (lastEvents_tokenless read.1.citedSeen (env.persist.persisted req.chatId)).1
  unfold StreamEnv.closing
  rw [hresult]
  simp only [sentFrames_append, tokenText_append, sentFrames_sent, htail, hlast, List.append_nil]
  cases env.persist.stores req.chatId with
  | true => simp [sentFrames, tokenText]
  | false => simp [sentFrames, tokenText]

theorem visibleEvents_append (l l' : List RequestEvent) : visibleEvents (l ++ l') = visibleEvents l ++ visibleEvents l' :=
  List.filter_append ..

theorem visible_sent {frames : List Frame} (h : .comment ∉ frames) : visibleEvents (frames.map .sent) = frames.map .sent := by
  apply List.filter_eq_self.mpr
  intro e he
  obtain ⟨f, hf, rfl⟩ := List.mem_map.mp he
  cases f with
  | comment => exact absurd hf h
  | _ => rfl

theorem closing_visible (hits : List Hit) (read : StreamState × StreamStop) :
    visibleEvents (env.closing req hits read) = env.closing req hits read := by
  have htail : .comment ∉ tailFrames read.1 := by
    by_cases h : read.1.guard.flush.1 = []
    · simp [tailFrames, h]
    · simp [tailFrames, h]
  unfold StreamEnv.closing
  cases read.2.result with
  | error exc => exact (lastEvents_tokenless [] (.error exc)).2
  | ok _ =>
    simp only [visibleEvents_append, visible_sent htail, (lastEvents_tokenless _ _).2]
    cases env.persist.stores req.chatId with
    | true => rfl
    | false => rfl

theorem persisted_error {env : PersistEnv} {given : Option Uuid} (h : env.stores given = false) :
    ∃ exc, env.persisted given = .error exc := by
  unfold PersistEnv.stores at h
  unfold PersistEnv.persisted
  cases hchat : env.chat given with
  | error e => exact ⟨e, rfl⟩
  | ok chatId =>
    rw [hchat] at h
    cases hflush : env.flush given chatId with
    | error e => exact ⟨e, by simp [bind, Except.bind, hflush]⟩
    | ok _ =>
      cases hcommit : env.commit with
      | raised e => exact ⟨e, by simp [bind, Except.bind, hflush, CommitOutcome.answer]⟩
      | durable => simp [bind, Except.bind, hflush, hcommit, CommitOutcome.lands, Except.isOk, Except.toBool] at h
      | unacknowledged e => simp [bind, Except.bind, hflush, hcommit, CommitOutcome.lands, Except.isOk, Except.toBool] at h

def StreamEnv.written (settings : Settings) (completionCost : CompletionCost) (req : ChatRequest) (user : Option User)
    (env : StreamEnv) (r : List Hit × String) (read : StreamState × StreamStop) : List Usage :=
  if read.2.result.isOk && env.persist.stores req.chatId then
    [usageRow settings completionCost (env.completion settings user r read.1)] else []

theorem usageRow_inj {c c' : Completion} (h : usageRow settings completionCost c = usageRow settings completionCost c') :
    c = c' := by
  have hmodel : c.model = c'.model := congrArg Usage.model h
  have hprompt : c.promptTokens = c'.promptTokens := congrArg Usage.promptTokens h
  have hcompletion : c.completionTokens = c'.completionTokens := congrArg Usage.completionTokens h
  have huser : c.userId = c'.userId := congrArg Usage.userId h
  cases c
  cases c'
  simp_all

/-- The cut stream and the whole one write and show the same. -/
def ClosesAlike (settings : Settings) (completionCost : CompletionCost) (req : ChatRequest) (user : Option User)
    (env : StreamEnv) (r : List Hit × String) (cut : StreamState) (rest : List StreamItem) (sent : List Frame) : Prop :=
  env.written settings completionCost req user r (cut, .silent) =
      env.written settings completionCost req user r (cut.consume rest) ∧
    env.closing req r.1 (cut, .silent) = sent.map .sent ++ env.closing req r.1 (cut.consume rest)

theorem closing_textless_iff (r : List Hit × String) {cut : StreamState} {rest : List StreamItem}
    (hopen : cut.guard.done = false) (hdeltas : .answer [] ∉ rest) {sent : List Frame}
    (hsent : (cut.consume rest).1.frames = cut.frames ++ sent) (htext : answerText rest = []) :
    ClosesAlike settings completionCost req user env r cut rest sent ↔ GapHarmless settings user req env r cut rest := by
  have hrun := consume_textless cut rest hopen hdeltas htext
  have hnone : sent = [] := by
    rw [hrun] at hsent
    exact List.append_right_eq_self.mp hsent.symm
  have hunseen : ¬ cut.failsUnseen rest = true := by
    rw [failsUnseen_iff cut rest hopen, hrun]
    simp
  unfold GapHarmless ClosesAlike
  rw [hrun, hnone]
  constructor
  · intro h
    left
    refine ⟨htext, fun hstores => ?_⟩
    have hrows := h.1
    simp only [StreamEnv.written, StreamStop.result, hstores, Except.isOk, Except.toBool, Bool.and_self, ↓reduceIte,
      List.cons.injEq, and_true] at hrows
    exact usageRow_inj hrows
  · intro h
    rcases h with ⟨_, husage⟩ | ⟨_, _, _, hbad⟩
    · refine ⟨?_, rfl⟩
      simp only [StreamEnv.written, StreamStop.result, Except.isOk, Except.toBool, Bool.true_and]
      by_cases hstores : env.persist.stores req.chatId = true
      · simp only [hstores, ↓reduceIte, husage hstores]
      · simp only [hstores]
        rfl
    · exact absurd hbad hunseen

theorem gapHarmless_text_iff (r : List Hit × String) {cut : StreamState} {rest : List StreamItem}
    (htext : answerText rest ≠ []) : GapHarmless settings user req env r cut rest ↔ env.persist.stores req.chatId = false ∧
      (∃ exc, env.persist.persisted req.chatId = .error exc ∧ exc.isException = true) ∧ cut.guard.pending = [] ∧
        cut.failsUnseen rest = true := by
  unfold GapHarmless
  constructor
  · intro h
    exact h.resolve_left fun hleft => htext hleft.1
  · intro h
    exact Or.inr h

theorem closing_unstored (hits : List Hit) (cut : StreamState) {exc : PyError}
    (hstores : env.persist.stores req.chatId = false) (hpersisted : env.persist.persisted req.chatId = .error exc) :
    env.closing req hits (cut, .silent) = (tailFrames cut).map .sent ++ errorEvents exc := by
  simp [StreamEnv.closing, StreamStop.result, hstores, hpersisted, lastEvents]

theorem unstored_caught {cut : StreamState} {sent : List Frame} {exc : PyError}
    (h : (tailFrames cut).map RequestEvent.sent ++ errorEvents exc =
      sent.map .sent ++ [.sent (.error streamError), .sent .done]) : exc.isException = true := by
  by_contra hnot
  have hlength := congrArg List.length h
  have htail : (tailFrames cut).length ≤ 1 := by
    by_cases hp : cut.guard.flush.1 = []
    · simp [tailFrames, hp]
    · simp [tailFrames, hp]
  simp only [errorEvents, hnot, List.length_append, List.length_map, List.length_cons, List.length_nil] at hlength
  simp only [↓reduceIte, List.length_nil] at hlength
  omega

theorem closing_raised_iff (r : List Hit × String) {cut : StreamState} {rest : List StreamItem}
    (hopen : cut.guard.done = false) {sent : List Frame} (hsent : (cut.consume rest).1.frames = cut.frames ++ sent)
    (htext : answerText rest ≠ []) {exc : PyError} (hraised : (cut.consume rest).2 = .raised exc) :
    ClosesAlike settings completionCost req user env r cut rest sent ↔ GapHarmless settings user req env r cut rest := by
  obtain ⟨sent', hsent', _, hlonger, _, _, hraise⟩ := consume_spec cut rest hopen
  obtain rfl : sent = sent' := List.append_cancel_left (hsent.symm.trans hsent')
  have hfails := failsUnseen_iff cut rest hopen
  have hstop : (cut.consume rest).2.result = .error exc := by rw [hraised]; rfl
  have hwhole : env.closing req r.1 (cut.consume rest) = [.sent (.error streamError), .sent .done] := by
    unfold StreamEnv.closing
    rw [hstop]
    exact if_pos (hraise exc hraised)
  rw [gapHarmless_text_iff r htext]
  unfold ClosesAlike
  rw [hwhole]
  constructor
  · intro h
    have hstores : env.persist.stores req.chatId = false := by
      cases hstores : env.persist.stores req.chatId with
      | false => rfl
      | true =>
        have hrows := h.1
        have hsilentOk : StreamStop.silent.result = .ok () := rfl
        simp [StreamEnv.written, hsilentOk, hstop, hstores, Except.isOk, Except.toBool] at hrows
    obtain ⟨exc', hpersisted⟩ := persisted_error hstores
    have hends := h.2
    rw [closing_unstored r.1 cut hstores hpersisted] at hends
    have hcaught := unstored_caught hends
    have htail : tailFrames cut = sent := by
      simp only [errorEvents, hcaught, ↓reduceIte, List.append_cancel_right_eq] at hends
      have hframes := congrArg sentFrames hends
      rwa [sentFrames_sent, sentFrames_sent] at hframes
    have hheld : cut.guard.pending = [] := by
      by_contra hne
      have hone : tailFrames cut = [.token cut.guard.pending] := if_neg hne
      rw [← htail, hone] at hlonger
      simp [tokenText, hne] at hlonger
    refine ⟨hstores, ⟨exc', hpersisted, hcaught⟩, hheld, hfails.mpr ⟨⟨exc, hraised⟩, ?_⟩⟩
    have hnone : tailFrames cut = [] := if_pos hheld
    rw [hsent, ← htail, hnone, List.append_nil]
  · intro h
    obtain ⟨hstores, ⟨exc', hpersisted, hcaught⟩, hheld, hunseen⟩ := h
    have hnone : sent = [] := by
      have hframes := (hfails.mp hunseen).2
      rw [hsent] at hframes
      exact List.append_right_eq_self.mp hframes
    have htail : tailFrames cut = [] := if_pos hheld
    constructor
    · simp [StreamEnv.written, hstores]
    · rw [closing_unstored r.1 cut hstores hpersisted]
      simp [htail, hnone, errorEvents, hcaught]

/-- A cut stream closes like the whole one just where the gap is harmless. -/
theorem closing_iff (r : List Hit × String) {cut : StreamState} {rest : List StreamItem} (hopen : cut.guard.done = false)
    (hdeltas : .answer [] ∉ rest) {sent : List Frame} (hsent : (cut.consume rest).1.frames = cut.frames ++ sent) :
    ClosesAlike settings completionCost req user env r cut rest sent ↔ GapHarmless settings user req env r cut rest := by
  by_cases htext : answerText rest = []
  · exact closing_textless_iff r hopen hdeltas hsent htext
  · cases hstop : (cut.consume rest).2 with
    | raised exc => exact closing_raised_iff r hopen hsent htext hstop
    | _ =>
      have hresult : (cut.consume rest).2.result = .ok () := by rw [hstop]; rfl
      obtain ⟨sent', hsent', _, _, _, hgrows, _⟩ := consume_spec cut rest hopen
      obtain rfl : sent = sent' := List.append_cancel_left (hsent.symm.trans hsent')
      have hmore := hgrows hresult htext
      have hsilent : tokenText (sentFrames (env.closing req r.1 (cut, .silent))) = cut.guard.pending := closing_tokens r.1 rfl
      have hwhole : tokenText (sentFrames (env.closing req r.1 (cut.consume rest))) = (cut.consume rest).1.guard.pending :=
        closing_tokens r.1 hresult
      rw [gapHarmless_text_iff r htext]
      constructor
      · intro h
        have htokens := congrArg (fun events => (tokenText (sentFrames events)).length) h.2
        simp only [sentFrames_append, tokenText_append, sentFrames_sent, hsilent, hwhole] at htokens
        omega
      · intro h
        obtain ⟨⟨exc, hraised⟩, _⟩ := (failsUnseen_iff cut rest hopen).mp h.2.2.2
        rw [hraised] at hstop
        cases hstop

theorem chatStream_unread (quiet : Nat → ℚ) (usage : List Usage)
    (h : ∀ warning r, env.budget = .ok warning → env.retrieval.retrieved settings req.message user ≠ .ok r) :
    (chatStream settings completionCost req user env).request usage =
      (chatStream settings completionCost req user { env with waits := quiet }).request usage := by
  cases hbudget : env.budget with
  | error e =>
    unfold Tx.request chatStream
    rw [Tx.bind_apply, Tx.bind_apply]
    simp only [hbudget]
    rfl
  | ok warning =>
    have hframes : streamFrames settings completionCost req user env =
        streamFrames settings completionCost req user { env with waits := quiet } := by
      funext warning' u
      unfold streamFrames
      rw [Tx.bind_apply, Tx.bind_apply, retrieve_spec]
      cases hr : env.retrieval.retrieved settings req.message user with
      | ok r => exact absurd hr (h warning r hbudget)
      | error e => rfl
    have hall : chatStream settings completionCost req user env =
        chatStream settings completionCost req user { env with waits := quiet } := by
      unfold chatStream
      rw [hframes]
    rw [← hbudget]
    exact congrArg (fun t => t.request usage) hall

theorem chatStream_visible (hstay : ∀ frames, env.gone frames = false) {warning : Option String} {r : List Hit × String}
    (hbudget : env.budget = .ok warning) (hr : env.retrieval.retrieved settings req.message user = .ok r)
    (usage : List Usage) :
    let before := .retry :: openingFrames req warning r
    let run := (chatStream settings completionCost req user env).request usage
    run.committed = usage ++ ((env.retrieval.events settings req.message user).flatMap (usageRows settings completionCost) ++
      env.written settings completionCost req user r (env.read before)) ∧
    visibleEvents run.log = visibleEvents ([.sent .retry] ++ env.retrieval.events settings req.message user ++
        (openingFrames req warning r).map .sent) ++
      (visibleEvents (((env.read before).1.frames.drop before.length).map .sent) ++
        env.closing req r.1 (env.read before)) := by
  have hrun := @chatStream_attended settings completionCost env req user hstay _ _ hbudget hr usage
  simp only [hrun]
  refine ⟨rfl, ?_⟩
  simp only [visibleEvents_append, closing_visible, StreamEnv.events]
  have hcall : ∀ c, visibleEvents [.call c] = [] := fun c => rfl
  simp only [hcall, List.append_nil, List.append_assoc]

/-- A stream that has retrieved is indifferent to the delays just where its loop shows and stores what the whole answer
does. -/
theorem transparent_read_iff (hstay : ∀ frames, env.gone frames = false) (hending : env.ending = .exhausted)
    {warning : Option String} {r : List Hit × String} (hbudget : env.budget = .ok warning)
    (hr : env.retrieval.retrieved settings req.message user = .ok r) {before : List Frame}
    (hbefore : .retry :: openingFrames req warning r = before) {whole : StreamState × StreamStop}
    (hwhole : StreamState.consume { frames := before } (env.chunks.flatMap ProviderChunk.items) = whole)
    (usage : List Usage) :
    HeartbeatTransparent settings completionCost req user env usage ↔
      env.written settings completionCost req user r (env.read before) = env.written settings completionCost req user r whole ∧
      visibleEvents (((env.read before).1.frames.drop before.length).map .sent) ++ env.closing req r.1 (env.read before) =
        visibleEvents ((whole.1.frames.drop before.length).map .sent) ++ env.closing req r.1 whole := by
  subst hbefore
  obtain ⟨hrows, hevents⟩ := @chatStream_visible settings completionCost req user env hstay _ _ hbudget hr usage
  let shared := visibleEvents ([.sent .retry] ++ env.retrieval.events settings req.message user ++
    (openingFrames req warning r).map .sent)
  let paid := (env.retrieval.events settings req.message user).flatMap (usageRows settings completionCost)
  have hquiet : ∀ quiet : Nat → ℚ, (∀ i, quiet i < heartbeatIntervalSeconds) →
      ((chatStream settings completionCost req user { env with waits := quiet }).request usage).committed =
        usage ++ (paid ++ env.written settings completionCost req user r whole) ∧
      visibleEvents ((chatStream settings completionCost req user { env with waits := quiet }).request usage).log =
        shared ++ (visibleEvents ((whole.1.frames.drop (Frame.retry :: openingFrames req warning r).length).map .sent) ++
          env.closing req r.1 whole) := by
    intro quiet hquiet
    have hread : StreamEnv.read { env with waits := quiet } (.retry :: openingFrames req warning r) = whole := by
      unfold StreamEnv.read
      simp only [hending]
      rw [readStream_quiet hstay hquiet 0 _ _]
      exact hwhole
    have h := @chatStream_visible settings completionCost req user { env with waits := quiet } hstay _ _ hbudget hr usage
    simp only at h
    rw [hread] at h
    exact h
  unfold HeartbeatTransparent
  simp only [hrows, hevents]
  constructor
  · intro h
    have hzero : ∀ i : Nat, (fun _ => 0 : Nat → ℚ) i < heartbeatIntervalSeconds := by
      intro i
      show (0 : ℚ) < 15
      decide +kernel
    obtain ⟨hcommitted, hvisible⟩ := h (fun _ => 0) hzero
    rw [(hquiet _ hzero).1] at hcommitted
    rw [(hquiet _ hzero).2] at hvisible
    exact ⟨List.append_cancel_left (List.append_cancel_left hcommitted), List.append_cancel_left hvisible⟩
  · intro h quiet hshort
    rw [(hquiet quiet hshort).1, (hquiet quiet hshort).2, h.1, h.2]
    exact ⟨rfl, rfl⟩

theorem read_gap_iff (hstay : ∀ frames, env.gone frames = false) (hending : env.ending = .exhausted) (r : List Hit × String)
    {before : List Frame} {cut : StreamState} {rest : List StreamItem}
    (hgap : firstGap env.waits 0 (env.chunks.flatMap ProviderChunk.items) { frames := before } = some (cut, rest)) :
    (env.written settings completionCost req user r (env.read before) =
        env.written settings completionCost req user r
          (StreamState.consume { frames := before } (env.chunks.flatMap ProviderChunk.items)) ∧
      visibleEvents (((env.read before).1.frames.drop before.length).map .sent) ++ env.closing req r.1 (env.read before) =
        visibleEvents (((StreamState.consume { frames := before } (env.chunks.flatMap ProviderChunk.items)).1.frames.drop
          before.length).map .sent) ++
          env.closing req r.1 (StreamState.consume { frames := before } (env.chunks.flatMap ProviderChunk.items))) ↔
      GapHarmless settings user req env r cut rest := by
  obtain ⟨hcutRead, hwhole, hopen, hsuffix⟩ := readStream_gap hstay rfl hgap
  have hdeltas : .answer [] ∉ rest := fun hmem => items_nonempty env.chunks (hsuffix.subset hmem)
  obtain ⟨sent, hsent, hplain, _⟩ := consume_spec cut rest hopen
  have hread : env.read before =
      readStream env.waits env.gone .exhausted 0 (env.chunks.flatMap ProviderChunk.items) { frames := before } := by
    unfold StreamEnv.read
    rw [hending]
  have hlength : before.length ≤ cut.frames.length := (firstGap_frames hgap).length_le
  have hdrop : ∀ more : List Frame, visibleEvents (((cut.frames ++ more).drop before.length).map .sent) =
      visibleEvents ((cut.frames.drop before.length).map .sent) ++ visibleEvents (more.map .sent) := by
    intro more
    rw [List.drop_append_of_le_length hlength, List.map_append, visibleEvents_append]
  have hcomment : visibleEvents ([Frame.comment].map .sent) = [] := rfl
  rw [hread, hcutRead, hwhole, hsent]
  simp only [hdrop, hcomment, visible_sent hplain, List.append_nil, List.append_assoc, List.append_cancel_left_eq]
  exact closing_iff r hopen hdeltas hsent

/-- `/chat/stream` is indifferent to the delays just where the first wait that reaches the interval, if the loop
comes to one, leaves a rest that makes no difference. -/
theorem heartbeat_transparent_iff (hstay : ∀ frames, env.gone frames = false) (hending : env.ending = .exhausted)
    (usage : List Usage) :
    HeartbeatTransparent settings completionCost req user env usage ↔
      ∀ warning r, env.budget = .ok warning → env.retrieval.retrieved settings req.message user = .ok r →
        ∀ cut rest, firstGap env.waits 0 (env.chunks.flatMap ProviderChunk.items)
          { frames := .retry :: openingFrames req warning r } = some (cut, rest) →
            GapHarmless settings user req env r cut rest := by
  by_cases hunread : ∀ warning r, env.budget = .ok warning → env.retrieval.retrieved settings req.message user ≠ .ok r
  · constructor
    · intro _ warning r hbudget hr
      exact absurd hr (hunread warning r hbudget)
    · intro _ quiet _
      rw [chatStream_unread quiet usage hunread]
      exact ⟨rfl, rfl⟩
  · push Not at hunread
    obtain ⟨warning, r, hbudget, hr⟩ := hunread
    rw [transparent_read_iff hstay hending hbudget hr rfl rfl usage]
    cases hgap : firstGap env.waits 0 (env.chunks.flatMap ProviderChunk.items)
        { frames := .retry :: openingFrames req warning r } with
    | none =>
      have hread : env.read (.retry :: openingFrames req warning r) = readStream env.waits env.gone .exhausted 0
          (env.chunks.flatMap ProviderChunk.items) { frames := .retry :: openingFrames req warning r } := by
        unfold StreamEnv.read
        rw [hending]
      rw [hread, readStream_noGap hstay hgap]
      refine iff_of_true ⟨rfl, rfl⟩ fun warning' r' hbudget' hr' cut rest hcut => ?_
      obtain rfl : warning = warning' := Except.ok.inj (hbudget.symm.trans hbudget')
      obtain rfl : r = r' := Except.ok.inj (hr.symm.trans hr')
      rw [hgap] at hcut
      cases hcut
    | some p =>
      obtain ⟨cut, rest⟩ := p
      rw [read_gap_iff hstay hending r hgap]
      constructor
      · intro h warning' r' hbudget' hr' cut' rest' hgap'
        obtain rfl : warning = warning' := Except.ok.inj (hbudget.symm.trans hbudget')
        obtain rfl : r = r' := Except.ok.inj (hr.symm.trans hr')
        obtain ⟨rfl, rfl⟩ := Prod.mk.inj (Option.some.inj (hgap.symm.trans hgap'))
        exact h
      · intro h
        exact h warning r hbudget hr cut rest hgap

end

def pausedStream : StreamEnv := { noteStream with waits := fun i => if i = 1 then 15 else 1 }

/-- Without the pause the note is cited, with it nothing is. -/
theorem pausedStream_cut : ¬ HeartbeatTransparent {} (fun _ _ _ => .ok none) noteRequest none pausedStream [] := by
  intro h
  have hquiet : ∀ i, (fun _ => 1 : Nat → ℚ) i < heartbeatIntervalSeconds := by
    intro i
    show (1 : ℚ) < 15
    decide +kernel
  have hsame := congrArg (fun events => citationNumbers (sentFrames events)) (h (fun _ => 1) hquiet).2
  have hcut : citationNumbers (sentFrames (visibleEvents
      ((chatStream {} (fun _ _ _ => .ok none) noteRequest none pausedStream).request []).log)) = [] := by decide +kernel
  have hwhole : citationNumbers (sentFrames (visibleEvents
      ((chatStream {} (fun _ _ _ => .ok none) noteRequest none { pausedStream with waits := fun _ => 1 }).request []).log)) =
        [1, 7] := by decide +kernel
  have hclash : ([] : List Nat) = [1, 7] := hcut.symm.trans (hsame.trans hwhole)
  cases hclash

def lingeringStream : StreamEnv := { noteStream with waits := fun i => if i = 3 then 20 else 1 }

theorem heartbeat_transparent_iff_end :
    HeartbeatTransparent {} (fun _ _ _ => .ok none) noteRequest none lingeringStream [] := by
  apply (heartbeat_transparent_iff (fun _ => rfl) rfl []).mpr
  intro warning r hbudget hr cut rest hgap
  obtain rfl : none = warning := Except.ok.inj hbudget
  have hend : (lingeringStream.retrieval.retrieved {} noteRequest.message none).toOption.map (fun r =>
      (firstGap lingeringStream.waits 0 (lingeringStream.chunks.flatMap ProviderChunk.items)
        { frames := .retry :: openingFrames noteRequest none r }).map Prod.snd) = some (some []) := by decide +kernel
  rw [hr] at hend
  have hrest : (firstGap _ _ _ _).map Prod.snd = some [] := Option.some.inj hend
  rw [hgap] at hrest
  obtain rfl : rest = [] := Option.some.inj hrest
  left
  exact ⟨rfl, fun _ => rfl⟩

end ProRag
