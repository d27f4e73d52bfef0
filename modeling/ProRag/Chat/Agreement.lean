import ProRag.Chat.Reading
import ProRag.Retrieve.Noninterference

/-!
# Citations, streamed and at once

The citation frames of a stream are the markers of the text it has read, and both chat endpoints store
the same citations for the same hits and answer.
-/

namespace ProRag

open Framework

def citationNumbers (frames : List Frame) : List Nat := frames.filterMap fun f => match f with
  | .citation n => some n
  | _ => none

def sentFrames (events : List RequestEvent) : List Frame := events.filterMap fun e => match e with
  | .sent f => some f
  | _ => none

def storedCitations (events : List RequestEvent) : List Citation := events.flatMap fun e => match e with
  | .stored e => e.citations
  | _ => []

def answerText (items : List StreamItem) : Text := items.flatMap fun item => match item with
  | .answer delta => delta
  | _ => []

def StreamEnv.answerText (env : StreamEnv) : Text := ProRag.answerText (env.chunks.flatMap ProviderChunk.items)

/-- Markers that `int` reads. -/
def Readable (text : Text) : Prop := ∀ digits ∈ citationMarks text, digits.length ≤ 4300

/-- One row for each cited hit, and no other. -/
structure CitesExactly (messageId : Uuid) (hits : List Hit) (cited : List Nat) (rows : List Citation) : Prop where
  once : (rows.map Citation.n).Nodup
  rows : ∀ c, c ∈ rows ↔ c.n ∈ cited ∧ 1 ≤ c.n ∧
    ∃ hit, hits[c.n - 1]? = some hit ∧ c = ⟨messageId, c.n, hit.docId, hit.page, hit.bbox⟩

/-- The numbers behind some others, from the digits of more markers. -/
def citeMarks (seen : List Nat) (marks : List Text) : Except PyError (List Nat) :=
  marks.foldlM (fun seen digits => pyInt digits >>= fun n => .ok (setDefault seen n)) seen

theorem extract_eq (text : Text) : extractCitedIndices (normalizeCitations text) = citeMarks [] (citationMarks text) := rfl

theorem nodup_setDefault {seen : List Nat} (h : seen.Nodup) (n : Nat) : (setDefault seen n).Nodup := by
  unfold setDefault
  split
  · exact h
  · rename_i hn
    exact List.nodup_append.mpr ⟨h, List.nodup_singleton n, fun a ha b hb => by
      rintro rfl
      exact hn (List.mem_singleton.mp hb ▸ ha)⟩

theorem citeMarks_ok {marks : List Text} (hmarks : ∀ digits ∈ marks, digits.length ≤ 4300) (seen : List Nat)
    (hseen : seen.Nodup) : ∃ more, citeMarks seen marks = .ok (seen ++ more) ∧ (seen ++ more).Nodup := by
  induction marks generalizing seen with
  | nil => exact ⟨[], by rw [List.append_nil]; rfl, by rwa [List.append_nil]⟩
  | cons digits marks ih =>
    have hshort : ¬ 4300 < digits.length := not_lt.mpr (hmarks digits List.mem_cons_self)
    obtain ⟨n, hn⟩ : ∃ n, pyInt digits = .ok n := ⟨_, if_neg hshort⟩
    have hstep : citeMarks seen (digits :: marks) = citeMarks (setDefault seen n) marks := by
      unfold citeMarks
      rw [List.foldlM_cons, hn]
      rfl
    obtain ⟨more, hmore, hnodup⟩ := ih (fun d hd => hmarks d (List.mem_cons_of_mem _ hd)) _ (nodup_setDefault hseen n)
    by_cases hmem : n ∈ seen
    · rw [setDefault, if_pos hmem] at hmore hnodup
      rw [hstep, setDefault, if_pos hmem]
      exact ⟨more, hmore, hnodup⟩
    · rw [setDefault, if_neg hmem, List.append_assoc] at hmore hnodup
      rw [hstep, setDefault, if_neg hmem]
      exact ⟨n :: more, hmore, hnodup⟩

theorem extract_ok {text : Text} (h : Readable text) :
    ∃ cited, extractCitedIndices (normalizeCitations text) = .ok cited ∧ cited.Nodup := by
  obtain ⟨more, hmore, hnodup⟩ := citeMarks_ok h [] List.nodup_nil
  exact ⟨more, hmore, hnodup⟩

theorem Readable.of_append {text more : Text} (h : Readable (text ++ more)) : Readable text := by
  intro digits hd
  have hlead := citationMarks_prefix text more
  exact h digits (hlead.subset hd)

theorem extract_append {text more : Text} (h : Readable (text ++ more)) {cited : List Nat}
    (hcited : extractCitedIndices (normalizeCitations text) = .ok cited) :
    ∃ new, extractCitedIndices (normalizeCitations (text ++ more)) = .ok (cited ++ new) ∧ (cited ++ new).Nodup := by
  obtain ⟨marks, hmarks⟩ := citationMarks_prefix text more
  have hnodup : cited.Nodup := by
    obtain ⟨cited', hcited', hnodup⟩ := extract_ok h.of_append
    rw [hcited'] at hcited
    exact Except.ok.inj hcited ▸ hnodup
  obtain ⟨new, hnew, hall⟩ := @citeMarks_ok marks
    (fun d hd => h d (hmarks ▸ List.mem_append_right _ hd)) cited hnodup
  refine ⟨new, ?_, hall⟩
  rw [extract_eq] at hcited ⊢
  rw [← hmarks]
  unfold citeMarks at hcited hnew ⊢
  rw [List.foldlM_append, hcited]
  exact hnew

theorem cite_new (st : StreamState) (new : List Nat) (hnodup : (st.citedSeen ++ new).Nodup) :
    new.foldl StreamState.cite st =
      { st with citedSeen := st.citedSeen ++ new, frames := st.frames ++ new.map .citation } := by
  induction new generalizing st with
  | nil => simp
  | cons n new ih =>
    have hn : n ∉ st.citedSeen := fun hmem =>
      (List.nodup_append.mp hnodup).2.2 n hmem n List.mem_cons_self rfl
    have hcite : st.cite n = { st with citedSeen := st.citedSeen ++ [n], frames := st.frames ++ [.citation n] } := if_neg hn
    rw [List.foldl_cons, hcite, ih _ (by simpa using hnodup)]
    simp

theorem cite_seen (st : StreamState) {seen : List Nat} (hseen : ∀ n ∈ seen, n ∈ st.citedSeen) :
    seen.foldl StreamState.cite st = st := by
  induction seen with
  | nil => rfl
  | cons n seen ih =>
    have hcite : st.cite n = st := if_pos (hseen n List.mem_cons_self)
    rw [List.foldl_cons, hcite]
    exact ih fun m hm => hseen m (List.mem_cons_of_mem _ hm)

/-- What the loop has sent and seen belongs to the text it has read. -/
structure Cites (st : StreamState) : Prop where
  seen : extractCitedIndices (normalizeCitations st.rawAnswer) = .ok st.citedSeen
  sent : citationNumbers st.frames = st.citedSeen

theorem citationNumbers_append (l l' : List Frame) : citationNumbers (l ++ l') = citationNumbers l ++ citationNumbers l' :=
  List.filterMap_append

theorem citationNumbers_eq_nil {frames : List Frame} (h : ∀ n, Frame.citation n ∉ frames) : citationNumbers frames = [] := by
  apply List.filterMap_eq_nil_iff.mpr
  intro f hf
  cases f with
  | citation n => exact absurd hf (h n)
  | _ => rfl

theorem citationNumbers_citations (l : List Nat) : citationNumbers (l.map .citation) = l := by
  unfold citationNumbers
  rw [List.filterMap_map]
  exact List.filterMap_some

theorem step_answer {st : StreamState} (h : Cites st) (delta : Text) (hread : Readable (st.rawAnswer ++ delta)) :
    ∃ st', st.step (.answer delta) = (st', .ok ()) ∧ Cites st' ∧ st'.rawAnswer = st.rawAnswer ++ delta ∧
      st'.guard = (st.guard.feed delta).2 ∧ st.frames <+: st'.frames := by
  obtain ⟨new, hnew, hnodup⟩ := extract_append hread h.seen
  let fed := st.guard.feed delta
  let sent := if fed.1 = [] then [] else [Frame.token fed.1]
  let mid : StreamState := { st with rawAnswer := st.rawAnswer ++ delta, guard := fed.2, frames := st.frames ++ sent }
  have hstep : st.step (.answer delta) = ((st.citedSeen ++ new).foldl StreamState.cite mid, .ok ()) := by
    simp only [StreamState.step]
    rw [hnew]
  have hfold : (st.citedSeen ++ new).foldl StreamState.cite mid =
      { mid with citedSeen := st.citedSeen ++ new, frames := mid.frames ++ new.map .citation } := by
    rw [List.foldl_append, cite_seen mid fun n hn => hn]
    exact cite_new mid new hnodup
  have hsent : citationNumbers sent = [] := by
    apply citationNumbers_eq_nil
    intro n
    by_cases hfed : fed.1 = [] <;> simp [sent, hfed]
  rw [hfold] at hstep
  refine ⟨_, hstep, ⟨hnew, ?_⟩, rfl, rfl, ?_⟩
  · rw [citationNumbers_append, citationNumbers_append, hsent, h.sent, citationNumbers_citations, List.append_nil]
  · exact ⟨sent ++ new.map .citation, by rw [← List.append_assoc]⟩

theorem answerText_cons (item : StreamItem) (items : List StreamItem) :
    answerText (item :: items) = answerText [item] ++ answerText items := by
  unfold answerText
  simp

theorem step_cites {st : StreamState} (h : Cites st) (item : StreamItem)
    (hread : Readable (st.rawAnswer ++ answerText [item])) : ∃ st', st.step item = (st', .ok ()) ∧ Cites st' ∧
      st'.rawAnswer = st.rawAnswer ++ answerText [item] ∧ st'.guard = (st.guard.feed (answerText [item])).2 ∧
      st.frames <+: st'.frames := by
  cases item with
  | usage promptTokens completionTokens =>
    refine ⟨{ st with usage := some (promptTokens, completionTokens) }, rfl, ⟨h.seen, h.sent⟩, ?_, rfl, List.prefix_rfl⟩
    exact (List.append_nil _).symm
  | thinking delta => exact ⟨st, rfl, h, (List.append_nil _).symm, rfl, List.prefix_rfl⟩
  | answer delta =>
    have htext : answerText [.answer delta] = delta := by simp [answerText]
    rw [htext] at hread ⊢
    exact step_answer h delta hread

theorem readStream_silent {gone : List Frame → Bool} (hstay : ∀ frames, gone frames = false) {waits : Nat → ℚ}
    (ending : StreamEnd) {i : Nat} (hlong : heartbeatIntervalSeconds ≤ waits i) (items : List StreamItem)
    (st : StreamState) : readStream waits gone ending i items st =
      ({ st with frames := st.frames ++ [.comment] }, .silent) := by
  cases items with
  | nil => simp [readStream, hlong, hstay]
  | cons item rest => simp [readStream, hlong, hstay]

theorem readStream_cites {gone : List Frame → Bool} (hstay : ∀ frames, gone frames = false) (waits : Nat → ℚ)
    (i : Nat) (items : List StreamItem) (st : StreamState) (h : Cites st)
    (hread : Readable (st.rawAnswer ++ answerText items)) (hguard : (st.guard.feed (answerText items)).2.done = false) :
    let read := readStream waits gone .exhausted i items st
    read.2.result = .ok () ∧ Cites read.1 ∧ st.frames <+: read.1.frames ∧
      (∃ received, received <+: answerText items ∧ read.1.rawAnswer = st.rawAnswer ++ received) ∧
      ((∀ j, waits j < heartbeatIntervalSeconds) → read.1.rawAnswer = st.rawAnswer ++ answerText items) := by
  induction items generalizing i st with
  | nil =>
    by_cases hlong : heartbeatIntervalSeconds ≤ waits i
    · simp only [readStream_silent hstay .exhausted hlong]
      refine ⟨rfl, ⟨h.seen, ?_⟩, ⟨[.comment], rfl⟩, ⟨[], List.prefix_rfl, (List.append_nil _).symm⟩, ?_⟩
      · rw [citationNumbers_append, h.sent]
        exact List.append_nil _
      · intro _
        exact (List.append_nil _).symm
    · have hrun : readStream waits gone .exhausted i [] st = (st, .exhausted) := by
        simp [readStream, hlong]
      simp only [hrun]
      exact ⟨rfl, h, List.prefix_rfl, ⟨[], List.prefix_rfl, (List.append_nil _).symm⟩, fun _ => (List.append_nil _).symm⟩
  | cons item rest ih =>
    rw [answerText_cons] at hread hguard ⊢
    by_cases hlong : heartbeatIntervalSeconds ≤ waits i
    · simp only [readStream_silent hstay .exhausted hlong]
      refine ⟨rfl, ⟨h.seen, ?_⟩, ⟨[.comment], rfl⟩, ⟨[], List.nil_prefix, (List.append_nil _).symm⟩, ?_⟩
      · rw [citationNumbers_append, h.sent]
        exact List.append_nil _
      · intro hshort
        exact absurd (hshort i) (not_lt.mpr hlong)
    · rw [← List.append_assoc] at hread
      rw [TokenGuard.feed_append] at hguard
      obtain ⟨st', hstep, hcites, hraw, hfed, hframes⟩ := step_cites h item hread.of_append
      rw [← hfed] at hguard
      have hopen : st'.guard.done = false := by
        by_contra hdone
        rw [TokenGuard.feed_keeps_done (Bool.not_eq_false _ ▸ hdone)] at hguard
        cases hguard
      have hrun : readStream waits gone .exhausted i (item :: rest) st =
          readStream waits gone .exhausted (i + 1) rest st' := by
        simp [readStream, hlong, hstep, hstay, hopen]
      rw [← hraw] at hread
      obtain ⟨hresult, hend, hgrow, ⟨received, hreceived, hpart⟩, hall⟩ := ih (i + 1) st' hcites hread hguard
      simp only [hrun]
      refine ⟨hresult, hend, hframes.trans hgrow, ⟨answerText [item] ++ received, ?_, ?_⟩, ?_⟩
      · exact (List.prefix_append_right_inj _).mpr hreceived
      · rw [hpart, hraw, List.append_assoc]
      · intro hshort
        rw [hall hshort, hraw, List.append_assoc]

theorem mem_allSources {hits : List Hit} {s : Source} :
    s ∈ allSources hits ↔ 1 ≤ s.n ∧ ∃ hit, hits[s.n - 1]? = some hit ∧ s = toSource s.n hit := by
  unfold allSources
  rw [List.mem_map]
  constructor
  · intro h
    obtain ⟨⟨hit, i⟩, hmem, rfl⟩ := h
    rw [List.mem_zipIdx_iff_getElem?] at hmem
    exact ⟨Nat.le_add_left 1 i, hit, hmem, rfl⟩
  · intro h
    obtain ⟨hpos, hit, hhit, hs⟩ := h
    refine ⟨(hit, s.n - 1), List.mem_zipIdx_iff_getElem?.mpr hhit, ?_⟩
    show toSource (s.n - 1 + 1) hit = s
    rw [Nat.sub_add_cancel hpos]
    exact hs.symm

theorem streamed_cites (messageId : Uuid) (hits : List Hit) (cited : List Nat) :
    CitesExactly messageId hits cited (((allSources hits).filter fun s => s.n ∈ cited).map (citationOf messageId)) := by
  constructor
  · have hall : ((allSources hits).map Source.n).Nodup := by
      have hns : (allSources hits).map Source.n = (hits.zipIdx.map Prod.snd).map (· + 1) := by
        unfold allSources
        rw [List.map_map, List.map_map]
        rfl
      rw [hns, List.zipIdx_map_snd]
      exact List.Nodup.map (fun a b hab => Nat.succ.inj hab) List.nodup_range'
    have hsub : (((allSources hits).filter fun s => s.n ∈ cited).map Source.n).Sublist ((allSources hits).map Source.n) :=
      List.filter_sublist.map _
    rw [List.map_map]
    exact hsub.nodup hall
  · intro c
    rw [List.mem_map]
    constructor
    · intro h
      obtain ⟨s, hs, rfl⟩ := h
      rw [List.mem_filter, mem_allSources] at hs
      obtain ⟨⟨hpos, hit, hhit, hsource⟩, hcited⟩ := hs
      refine ⟨of_decide_eq_true hcited, hpos, hit, hhit, ?_⟩
      rw [hsource]
      rfl
    · intro h
      obtain ⟨hcited, hpos, hit, hhit, hc⟩ := h
      refine ⟨toSource c.n hit, ?_, hc.symm⟩
      rw [List.mem_filter, mem_allSources]
      exact ⟨⟨hpos, hit, hhit, rfl⟩, decide_eq_true hcited⟩

theorem chat_log {env : ChatEnv} {warning : Option String} {r : List Hit × String} {resp : LlmResponse (Option String)}
    {rawAnswer : Option String} {normalized : Text} {sources : List Source} (hbudget : env.budget = .ok warning)
    (hr : env.retrieval.retrieved settings req.message user = .ok r) (hanswer : env.answer = .ok resp)
    (hcontent : resp.content = .ok rawAnswer) (hcite : citeAnswer rawAnswer r.1 = .ok (normalized, sources))
    (hstores : env.persist.stores req.chatId = true) (usage : List Usage) :
    ((chat settings completionCost req user env).request usage).log =
      env.retrieval.events settings req.message user ++ [callOf .answer settings.answerModel (idOf user) env.answer] ++
        [.stored (env.persist.exchange req.chatId (req.chatId.getD env.persist.newChatId) req.message
          (String.ofList normalized) sources)] := by
  have hanswered : ∀ u : Uow Usage RequestEvent, answer settings completionCost (idOf user) env.answer u =
      (.ok rawAnswer,
        u.stage (usageRows settings completionCost) [callOf .answer settings.answerModel (idOf user) env.answer]) := by
    intro u
    rw [hanswer, ← hcontent]
    exact trackedCall_stages .answer settings.answerModel (idOf user) (.ok resp) u
  unfold Tx.request chat
  rw [Tx.bind_apply, hbudget]
  simp only [Tx.await]
  rw [Tx.bind_apply, retrieve_spec, hr, retrieved_lands hr]
  simp only [↓reduceIte]
  rw [Tx.bind_apply, hanswered]
  simp only
  rw [Tx.bind_apply, hcite]
  simp only [Tx.await]
  rw [Tx.bind_apply, persistExchange_run, hstores]
  cases env.persist.persisted req.chatId with
  | error exc => rfl
  | ok ids => rfl

theorem resolved_cites (messageId : Uuid) (hits : List Hit) {cited : List Nat} (hcited : cited.Nodup) :
    CitesExactly messageId hits cited
      (((cited.filterMap fun n => if 1 ≤ n then hits[n - 1]?.map fun hit => (n, hit) else none).map
        fun r => toSource r.1 r.2).map (citationOf messageId)) := by
  have hmem : ∀ r : Nat × Hit, (r ∈ cited.filterMap fun n => if 1 ≤ n then hits[n - 1]?.map fun hit => (n, hit) else none) ↔
      r.1 ∈ cited ∧ 1 ≤ r.1 ∧ hits[r.1 - 1]? = some r.2 := by
    intro r
    rw [List.mem_filterMap]
    constructor
    · intro h
      obtain ⟨n, hn, hr⟩ := h
      split at hr
      · rename_i hpos
        obtain ⟨hit, hhit, rfl⟩ := Option.map_eq_some_iff.mp hr
        exact ⟨hn, hpos, hhit⟩
      · cases hr
    · intro h
      refine ⟨r.1, h.1, ?_⟩
      rw [if_pos h.2.1, h.2.2]
      rfl
  constructor
  · have hsub : ∀ l : List Nat, ((l.filterMap fun n => if 1 ≤ n then hits[n - 1]?.map fun hit => (n, hit) else none).map
        Prod.fst).Sublist l := by
      intro l
      induction l with
      | nil => exact List.Sublist.refl _
      | cons n l ih =>
        rw [List.filterMap_cons]
        split
        · exact ih.cons n
        · rename_i r hr
          have hfst : r.1 = n := by
            split at hr
            · obtain ⟨hit, _, rfl⟩ := Option.map_eq_some_iff.mp hr
              rfl
            · cases hr
          rw [List.map_cons, hfst]
          exact ih.cons_cons n
    rw [List.map_map, List.map_map]
    exact (hsub cited).nodup hcited
  · intro c
    rw [List.map_map, List.mem_map]
    constructor
    · intro h
      obtain ⟨r, hr, rfl⟩ := h
      obtain ⟨hn, hpos, hhit⟩ := (hmem r).mp hr
      exact ⟨hn, hpos, r.2, hhit, rfl⟩
    · intro h
      obtain ⟨hn, hpos, hit, hhit, hc⟩ := h
      exact ⟨(c.n, hit), (hmem _).mpr ⟨hn, hpos, hhit⟩, hc.symm⟩

/-- Events that are calls. -/
def OnlyCalls (events : List RequestEvent) : Prop := ∀ e ∈ events, ∃ c, e = .call c

theorem callOf_call {α : Type} (kind : CallKind) (model : String) (userId : Option Uuid) (out : LlmOutcome α) :
    ∃ c, callOf kind model userId out = .call c := by
  cases out with
  | _ => exact ⟨_, rfl⟩

theorem retrieval_calls (settings : Settings) (env : RetrievalEnv) (message : String) (user : Option User) :
    OnlyCalls (env.events settings message user) := by
  have hembed : ∃ c, embedCall settings (idOf user) env.embed = .call c := by
    unfold embedCall
    split
    · exact ⟨_, rfl⟩
    · exact callOf_call ..
  have hquery : ∀ cleaned, OnlyCalls (env.toQueryEnv.events settings cleaned (idOf user)) := by
    intro cleaned e he
    rcases List.mem_cons.mp he with rfl | he
    · exact callOf_call ..
    · cases hplan : env.toQueryEnv.planned cleaned with
      | error exc =>
        rw [hplan] at he
        cases he
      | ok plan =>
        rw [hplan] at he
        obtain rfl := List.mem_singleton.mp he
        exact hembed
  intro e he
  rcases List.mem_append.mp he with he | he
  · unfold RetrievalEnv.prefillEvents at he
    split at he
    · cases he
    · obtain rfl := List.mem_singleton.mp he
      exact callOf_call ..
  · cases hrefined : env.refined settings message with
    | error exc =>
      rw [hrefined] at he
      cases he
    | ok cleaned =>
      rw [hrefined] at he
      exact hquery cleaned e he

theorem OnlyCalls.unseen {events : List RequestEvent} (h : OnlyCalls events) :
    sentFrames events = [] ∧ storedCitations events = [] := by
  constructor
  · apply List.filterMap_eq_nil_iff.mpr
    intro e he
    obtain ⟨c, rfl⟩ := h e he
    rfl
  · apply List.flatMap_eq_nil_iff.mpr
    intro e he
    obtain ⟨c, rfl⟩ := h e he
    rfl

theorem sentFrames_append (l l' : List RequestEvent) : sentFrames (l ++ l') = sentFrames l ++ sentFrames l' :=
  List.filterMap_append

theorem storedCitations_append (l l' : List RequestEvent) :
    storedCitations (l ++ l') = storedCitations l ++ storedCitations l' := List.flatMap_append

@[simp] theorem sentFrames_sent (frames : List Frame) : sentFrames (frames.map .sent) = frames := by
  unfold sentFrames
  rw [List.filterMap_map]
  exact List.filterMap_some

@[simp] theorem storedCitations_sent (frames : List Frame) : storedCitations (frames.map .sent) = [] := by
  apply List.flatMap_eq_nil_iff.mpr
  intro e he
  obtain ⟨f, _, rfl⟩ := List.mem_map.mp he
  rfl

variable {settings : Settings} {completionCost : CompletionCost} {req : ChatRequest} {user : Option User}

theorem lastEvents_uncited (cited : List Nat) (e : Except PyError (Uuid × Uuid)) :
    citationNumbers (sentFrames (lastEvents cited e)) = [] ∧ storedCitations (lastEvents cited e) = [] := by
  cases e with
  | ok ids => exact ⟨rfl, rfl⟩
  | error exc =>
    simp only [lastEvents, errorEvents]
    by_cases h : exc.isException = true
    · simp [h, sentFrames, storedCitations, citationNumbers]
    · simp [h, sentFrames, storedCitations, citationNumbers]

theorem openingFrames_uncited (req : ChatRequest) (warning : Option String) (r : List Hit × String) :
    citationNumbers (openingFrames req warning r) = [] := by
  apply citationNumbers_eq_nil
  intro n
  by_cases hcleaned : r.2 = req.message <;> simp [openingFrames, hcleaned]

theorem tailFrames_uncited (st : StreamState) : citationNumbers (tailFrames st) = [] := by
  apply citationNumbers_eq_nil
  intro n
  by_cases hflush : st.guard.flush.1 = [] <;> simp [tailFrames, hflush]

theorem closing_cites {env : StreamEnv} {hits : List Hit} {read : StreamState × StreamStop}
    (hresult : read.2.result = .ok ()) (hstores : env.persist.stores req.chatId = true) :
    citationNumbers (sentFrames (env.closing req hits read)) = [] ∧
      storedCitations (env.closing req hits read) = (env.exchange req hits read.1).citations := by
  obtain ⟨hendFrames, hendRows⟩ := lastEvents_uncited read.1.citedSeen (env.persist.persisted req.chatId)
  unfold StreamEnv.closing
  rw [hresult, hstores]
  constructor
  · simp only [sentFrames_append, citationNumbers_append, sentFrames_sent, tailFrames_uncited, hendFrames]
    rfl
  · simp only [storedCitations_append, storedCitations_sent, hendRows]
    simp [storedCitations]

theorem chatStream_cites {env : StreamEnv} (hstay : ∀ frames, env.gone frames = false) (hending : env.ending = .exhausted)
    {warning : Option String} {r : List Hit × String} (hbudget : env.budget = .ok warning)
    (hr : env.retrieval.retrieved settings req.message user = .ok r) (hread : Readable env.answerText)
    (hguard : (({} : TokenGuard).feed env.answerText).2.done = false) (hstores : env.persist.stores req.chatId = true)
    (usage : List Usage) :
    ∃ received cited, received <+: env.answerText ∧
      ((∀ i, env.waits i < heartbeatIntervalSeconds) → received = env.answerText) ∧
      extractCitedIndices (normalizeCitations received) = .ok cited ∧ cited.Nodup ∧
      citationNumbers (sentFrames ((chatStream settings completionCost req user env).request usage).log) = cited ∧
      CitesExactly env.persist.assistantMessageId r.1 cited
        (storedCitations ((chatStream settings completionCost req user env).request usage).log) := by
  let before := .retry :: openingFrames req warning r
  have hbefore : citationNumbers before = [] := openingFrames_uncited req warning r
  have hstart : Cites { frames := before } := ⟨rfl, hbefore⟩
  obtain ⟨hresult, hcites, hgrow, ⟨received, hreceived, hpart⟩, hall⟩ :=
    readStream_cites hstay env.waits 0 (env.chunks.flatMap ProviderChunk.items) { frames := before } hstart hread hguard
  have hloop : readStream env.waits env.gone .exhausted 0 (env.chunks.flatMap ProviderChunk.items) { frames := before } =
      env.read before := by
    unfold StreamEnv.read
    rw [hending]
  simp only [hloop] at hresult hcites hgrow hpart hall
  simp only [List.nil_append] at hpart hall
  obtain ⟨more, hmore⟩ := hgrow
  have hdrop : citationNumbers ((env.read before).1.frames.drop before.length) = (env.read before).1.citedSeen := by
    rw [← hcites.sent, ← hmore, List.drop_left, citationNumbers_append, hbefore, List.nil_append]
  have hcited := hcites.seen
  rw [hpart] at hcited
  have hnodup : (env.read before).1.citedSeen.Nodup := by
    obtain ⟨rest, hrest⟩ := hreceived
    have hshort : Readable (received ++ rest) := by
      rw [hrest]
      exact hread
    obtain ⟨cited, hok, hnodup⟩ := extract_ok hshort.of_append
    rw [hcited] at hok
    exact Except.ok.inj hok ▸ hnodup
  obtain ⟨hnoFrames, hnoRows⟩ := (retrieval_calls settings env.retrieval req.message user).unseen
  obtain ⟨call, hlog⟩ : ∃ call, ((chatStream settings completionCost req user env).request usage).log =
      [.sent .retry] ++ env.retrieval.events settings req.message user ++ (openingFrames req warning r).map .sent ++
        (((env.read before).1.frames.drop before.length).map .sent ++ [.call call]) ++
          env.closing req r.1 (env.read before) :=
    ⟨_, congrArg Uow.log (chatStream_attended hstay hbudget hr usage)⟩
  obtain ⟨hnoMore, hrows⟩ := @closing_cites req env r.1 (env.read before) hresult hstores
  refine ⟨received, (env.read before).1.citedSeen, hreceived, ?_, hcited, hnodup, ?_, ?_⟩
  · intro hshort
    exact hpart.symm.trans (hall hshort)
  · rw [hlog]
    simp only [sentFrames_append, citationNumbers_append, sentFrames_sent, hnoFrames, hnoMore, openingFrames_uncited, hdrop]
    simp [sentFrames, citationNumbers]
  · rw [hlog]
    simp only [storedCitations_append, storedCitations_sent, hnoRows, hrows]
    exact streamed_cites env.persist.assistantMessageId r.1 (env.read before).1.citedSeen

theorem chat_cites {env : ChatEnv} {warning : Option String} {r : List Hit × String} {resp : LlmResponse (Option String)}
    {received : Text} {cited : List Nat} (hbudget : env.budget = .ok warning)
    (hr : env.retrieval.retrieved settings req.message user = .ok r) (hanswer : env.answer = .ok resp)
    (hcontent : resp.content = .ok (some (String.ofList received)))
    (hcited : extractCitedIndices (normalizeCitations received) = .ok cited) (hnodup : cited.Nodup)
    (hstores : env.persist.stores req.chatId = true) (usage : List Usage) :
    CitesExactly env.persist.assistantMessageId r.1 cited
      (storedCitations ((chat settings completionCost req user env).request usage).log) := by
  obtain ⟨hnoFrames, hnoRows⟩ := (retrieval_calls settings env.retrieval req.message user).unseen
  let resolved := cited.filterMap fun n => if 1 ≤ n then r.1[n - 1]?.map fun hit => (n, hit) else none
  have hcite : citeAnswer (some (String.ofList received)) r.1 =
      .ok (normalizeCitations received, resolved.map fun p => toSource p.1 p.2) := by
    unfold citeAnswer
    simp only [String.toList_ofList]
    unfold resolveCitations
    rw [hcited]
    rfl
  rw [chat_log hbudget hr hanswer hcontent hcite hstores usage]
  have hrows := resolved_cites env.persist.assistantMessageId r.1 hnodup
  obtain ⟨c, hcall⟩ := callOf_call .answer settings.answerModel (idOf user) env.answer
  simp only [storedCitations_append, hnoRows, hcall]
  simpa [storedCitations, PersistEnv.exchange] using hrows

/-- The citation frames of a stream are the markers of the answer, however it is cut into deltas, and both
endpoints store the same citations.  An answer that a long wait cuts short counts as far as it has come. -/
theorem citations_agree (env : StreamEnv) (hstay : ∀ frames, env.gone frames = false)
    (hending : env.ending = .exhausted) {warning : Option String} {r : List Hit × String}
    (hbudget : env.budget = .ok warning) (hr : env.retrieval.retrieved settings req.message user = .ok r)
    (hread : Readable env.answerText) (hguard : (({} : TokenGuard).feed env.answerText).2.done = false)
    (hstores : env.persist.stores req.chatId = true) (usage : List Usage) :
    ∃ received cited, received <+: env.answerText ∧
      ((∀ i, env.waits i < heartbeatIntervalSeconds) → received = env.answerText) ∧
      extractCitedIndices (normalizeCitations received) = .ok cited ∧ cited.Nodup ∧
      citationNumbers (sentFrames ((chatStream settings completionCost req user env).request usage).log) = cited ∧
      CitesExactly env.persist.assistantMessageId r.1 cited
        (storedCitations ((chatStream settings completionCost req user env).request usage).log) ∧
      ∀ (once : ChatEnv) (onceReq : ChatRequest) (onceUser : Option User) (onceUsage : List Usage)
        (onceWarning : Option String) (cleaned : String) (resp : LlmResponse (Option String)),
        once.budget = .ok onceWarning → once.retrieval.retrieved settings onceReq.message onceUser = .ok (r.1, cleaned) →
        once.answer = .ok resp → resp.content = .ok (some (String.ofList received)) →
        once.persist.stores onceReq.chatId = true →
        CitesExactly once.persist.assistantMessageId r.1 cited
          (storedCitations ((chat settings completionCost onceReq onceUser once).request onceUsage).log) := by
  obtain ⟨received, cited, hreceived, hall, hcited, hnodup, hsent, hrows⟩ :=
    chatStream_cites hstay hending hbudget hr hread hguard hstores usage
  refine ⟨received, cited, hreceived, hall, hcited, hnodup, hsent, hrows, ?_⟩
  intro once onceReq onceUser onceUsage onceWarning cleaned resp hbudget' hr' hanswer hcontent hstores'
  exact chat_cites hbudget' hr' hanswer hcontent hcited hnodup hstores' onceUsage

/-- A stream over the public note; its marker is cut by a delta. -/
def noteStream : StreamEnv where
  budget := .ok none
  retrieval :=
    { planner := .error ⟨"Timeout", ""⟩
      json := ⟨fun _ => .error ⟨"JSONDecodeError", ""⟩, fun _ => ""⟩
      embed := .ok ⟨some (8, 0), .ok [[]]⟩
      database := .ok (lengthScorer, publicNote)
      rerankApi := fun _ _ => none
      normalizeTitle := id
      reranking := .ok ()
      prefill := .error ⟨"Timeout", ""⟩
      commit := .durable }
  chunks := [⟨none, some (none, some "At noon [s".toList)⟩, ⟨none, some (none, some "1], not [s7].".toList)⟩, ⟨some (40, 9), none⟩]
  waits := fun _ => 1
  ending := .exhausted
  gone := fun _ => false
  estimateTokens := fun _ text => text.length
  persist := ⟨[], 11, 12, 13, .ok (), .ok (), .durable⟩

def noteRequest : ChatRequest := ⟨"fire drill", none⟩

theorem citations_agree_split : ∃ r, noteStream.retrieval.retrieved {} noteRequest.message none = .ok r ∧
    r.1.map Hit.docId = [3] ∧
    citationNumbers (sentFrames ((chatStream {} (fun _ _ _ => .ok none) noteRequest none noteStream).request []).log) =
      [1, 7] ∧
    CitesExactly 13 r.1 [1, 7]
      (storedCitations ((chatStream {} (fun _ _ _ => .ok none) noteRequest none noteStream).request []).log) := by
  have hhits : (noteStream.retrieval.retrieved {} noteRequest.message none).toOption.map (fun r => r.1.map Hit.docId) =
      some [3] := by decide +kernel
  obtain ⟨r, hr⟩ : ∃ r, noteStream.retrieval.retrieved {} noteRequest.message none = .ok r := by
    cases h : noteStream.retrieval.retrieved {} noteRequest.message none with
    | ok r => exact ⟨r, rfl⟩
    | error e =>
      rw [h] at hhits
      cases hhits
  rw [hr] at hhits
  have hread : Readable noteStream.answerText := by
    intro digits hd
    have hlengths : (citationMarks noteStream.answerText).all (fun digits => digits.length ≤ 4300) = true := by
      decide +kernel
    exact of_decide_eq_true (List.all_eq_true.mp hlengths digits hd)
  have hcut : (({} : TokenGuard).feed noteStream.answerText).2.done = false := by decide +kernel
  have hquiet : ∀ i, noteStream.waits i < heartbeatIntervalSeconds := by
    intro i
    show (1 : ℚ) < 15
    decide +kernel
  obtain ⟨received, cited, _, hall, hcited, _, hsent, hrows, _⟩ :=
    citations_agree noteStream (fun _ => rfl) rfl rfl hr hread hcut rfl []
  rw [hall hquiet] at hcited
  have hvalue : extractCitedIndices (normalizeCitations noteStream.answerText) = .ok [1, 7] := by rfl
  obtain rfl : [1, 7] = cited := Except.ok.inj (hvalue.symm.trans hcited)
  exact ⟨r, hr, Option.some.inj hhits, hsent, hrows⟩

end ProRag
