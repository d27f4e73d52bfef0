import ProRag.Chat.Agreement
import ProRag.Framework.Monitor

/-!
# The protocol of `/chat/stream`

A dialogue is what a listener to a stream and to the database knows of one request.  It says which frame may come next
and which exchange may be stored, and every request keeps to it.
-/

namespace ProRag

open Framework

/-- How far a stream has come. -/
inductive StreamStage
  | opened | greeted | sourced | prefilled | answering | reported | failed | ended
deriving DecidableEq, Repr

namespace StreamStage

/-- Behind the sources, and before the report. -/
def answers : StreamStage → Bool
  | .sourced | .prefilled | .answering => true
  | _ => false

def mayFail (stage : StreamStage) : Bool := stage = .greeted || stage.answers

def permits (stage : StreamStage) : Frame → Bool
  | .retry => stage = .opened
  | .sources _ => stage = .greeted
  | .prefill _ => stage = .sourced
  | .budget _ => stage = .sourced || stage = .prefilled
  | .token _ | .citation _ | .comment | .metaInfo .. => stage.answers
  | .error _ => stage.mayFail
  | .done => stage = .reported || stage = .failed

def behind : Frame → StreamStage
  | .retry => .greeted
  | .sources _ => .sourced
  | .prefill _ => .prefilled
  | .budget _ | .token _ | .citation _ | .comment => .answering
  | .metaInfo .. => .reported
  | .error _ => .failed
  | .done => .ended

end StreamStage

/-- What has been heard of a request. -/
structure Dialogue where
  stage : StreamStage := .opened
  sources : List Source := []
  cited : List Nat := []
  exchange : Option Exchange := none
deriving DecidableEq

namespace Dialogue

def citedSources (d : Dialogue) : List Source := d.sources.filter fun s => s.n ∈ d.cited

/-- The exchange is the question and an answer, in the chat that was asked for or a new one, with the citations that have
been sent. -/
def Records (req : ChatRequest) (d : Dialogue) (e : Exchange) : Prop :=
  ∃ asked answered, e.messages = [asked, answered] ∧ asked.role = .user ∧ asked.content = req.message ∧
    answered.role = .assistant ∧ asked.chatId = answered.chatId ∧
    e.newChat = (if req.chatId.isSome then none else some answered.chatId) ∧
    (∀ chatId, req.chatId = some chatId → answered.chatId = chatId) ∧
    e.citations = d.citedSources.map (citationOf answered.id)

/-- The report names the answer that is stored, and repeats the citations. -/
def Reports (d : Dialogue) (messageId chatId : Uuid) (cited : List Nat) : Prop :=
  cited = d.cited ∧ ∃ e ∈ d.exchange, ∃ m ∈ e.messages, m.role = .assistant ∧ m.id = messageId ∧ m.chatId = chatId

instance (d : Dialogue) (messageId chatId : Uuid) (cited : List Nat) : Decidable (d.Reports messageId chatId cited) :=
  inferInstanceAs (Decidable (_ ∧ _))

instance (req : ChatRequest) (d : Dialogue) (e : Exchange) : Decidable (d.Records req e) :=
  decidable_of_iff (∃ asked ∈ e.messages.head?, ∃ answered ∈ e.messages.getLast?, e.messages = [asked, answered] ∧
      asked.role = .user ∧ asked.content = req.message ∧ answered.role = .assistant ∧ asked.chatId = answered.chatId ∧
      e.newChat = (if req.chatId.isSome then none else some answered.chatId) ∧
      (∀ chatId ∈ req.chatId, answered.chatId = chatId) ∧ e.citations = d.citedSources.map (citationOf answered.id)) (by
    constructor
    · rintro ⟨asked, _, answered, _, h⟩
      exact ⟨asked, answered, h⟩
    · rintro ⟨asked, answered, hmessages, h⟩
      exact ⟨asked, by simp [hmessages], answered, by simp [hmessages], hmessages, h⟩)

def hear (d : Dialogue) : Frame → Dialogue
  | .sources sources => { d with stage := .sourced, sources := sources }
  | .citation n => { d with stage := .answering, cited := d.cited ++ [n] }
  | f => { d with stage := StreamStage.behind f }

/-- A number is cited once, nothing is added to an answer that is stored, and the report is true. -/
def holds (d : Dialogue) : Frame → Bool
  | .citation n => n ∉ d.cited ∧ d.exchange = none
  | .token _ | .comment => d.exchange = none
  | .metaInfo messageId chatId cited => d.Reports messageId chatId cited
  | _ => true

def next (req : ChatRequest) (d : Dialogue) : RequestEvent → Option Dialogue
  | .call _ => some d
  | .sent f => if d.stage.permits f && d.holds f then some (d.hear f) else none
  | .stored e =>
    if d.stage.answers ∧ d.exchange = none ∧ d.Records req e then some { d with exchange := some e } else none

end Dialogue

/-- An answer is under way: what has been cited and what the sources are. -/
structure Answering (sources : List Source) (cited : List Nat) (d : Dialogue) : Prop where
  stage : d.stage.answers = true
  sources : d.sources = sources
  cited : d.cited = cited
  exchange : d.exchange = none

variable {req : ChatRequest} {d d0 : Dialogue} {sources : List Source} {cited : List Nat}

theorem Dialogue.next_sent {f : Frame} (hstage : d.stage.permits f = true) (hholds : d.holds f = true) :
    d.next req (.sent f) = some (d.hear f) := by
  simp [Dialogue.next, hstage, hholds]

/-- The loop has sent some frames, and the dialogue goes on. -/
def Telling (req : ChatRequest) (d0 : Dialogue) (sources : List Source) (before : List Frame) (st : StreamState) : Prop :=
  ∃ sent d, st.frames = before ++ sent ∧ monitor (Dialogue.next req) d0 (sent.map .sent) = some d ∧
    Answering sources st.citedSeen d

section

variable {before : List Frame} {st : StreamState}

theorem Telling.send (h : Telling req d0 sources before st) {f : Frame} (hf : (∃ t, f = .token t) ∨ f = .comment) :
    Telling req d0 sources before { st with frames := st.frames ++ [f] } := by
  obtain ⟨sent, d, hframes, hrun, hd⟩ := h
  refine ⟨sent ++ [f], { d with stage := .answering }, by simp [hframes], ?_, ⟨rfl, hd.sources, hd.cited, hd.exchange⟩⟩
  rw [List.map_append]
  apply (monitor_snoc hrun _).trans
  rcases hf with ⟨t, rfl⟩ | rfl
  · exact Dialogue.next_sent hd.stage (by simp [Dialogue.holds, hd.exchange])
  · exact Dialogue.next_sent hd.stage (by simp [Dialogue.holds, hd.exchange])

theorem Telling.cite (h : Telling req d0 sources before st) (n : Nat) : Telling req d0 sources before (st.cite n) := by
  unfold StreamState.cite
  split
  · exact h
  · rename_i hnew
    obtain ⟨sent, d, hframes, hrun, hd⟩ := h
    refine ⟨sent ++ [.citation n], d.hear (.citation n), by simp [hframes], ?_, ⟨rfl, hd.sources, ?_, hd.exchange⟩⟩
    · rw [List.map_append]
      apply (monitor_snoc hrun _).trans
      exact Dialogue.next_sent hd.stage (by simpa [Dialogue.holds, hd.cited, hd.exchange] using hnew)
    · simp [Dialogue.hear, hd.cited]

theorem Telling.cites (h : Telling req d0 sources before st) (cited : List Nat) :
    Telling req d0 sources before (cited.foldl StreamState.cite st) := by
  induction cited generalizing st with
  | nil => exact h
  | cons n cited ih => exact ih (h.cite n)

theorem Telling.step (h : Telling req d0 sources before st) (item : StreamItem) :
    Telling req d0 sources before (st.step item).1 := by
  cases item with
  | usage promptTokens completionTokens => exact h
  | thinking delta => exact h
  | answer delta =>
    have hsent : Telling req d0 sources before { st with
        rawAnswer := st.rawAnswer ++ delta
        guard := (st.guard.feed delta).2
        frames := st.frames ++ if (st.guard.feed delta).1 = [] then [] else [.token (st.guard.feed delta).1] } := by
      by_cases hnone : (st.guard.feed delta).1 = []
      · simpa [hnone, Telling] using h
      · simpa [hnone, Telling] using h.send (Or.inl ⟨(st.guard.feed delta).1, rfl⟩)
    simp only [StreamState.step]
    split
    · exact hsent
    · exact hsent.cites _

theorem Telling.read (h : Telling req d0 sources before st) (waits : Nat → ℚ) (gone : List Frame → Bool)
    (ending : StreamEnd) (i : Nat) (items : List StreamItem) : Telling req d0 sources before (readStream waits gone ending i items st).1 := by
  have hwait := h.send (Or.inr rfl)
  induction items generalizing i st with
  | nil =>
    simp only [readStream]
    split
    · split
      · exact hwait
      · exact hwait
    · split
      · exact h
      · exact h
  | cons item items ih =>
    simp only [readStream]
    split
    · split
      · exact hwait
      · exact hwait
    · have hnext := h.step item
      split
      · exact hnext
      · split
        · exact hnext
        · split
          · exact hnext
          · exact ih hnext _ (hnext.send (Or.inr rfl))

end

/-- An exception that is caught has left a stream that may still fail. -/
def Failable (e : PyError) (d : Dialogue) : Prop := e.isException = true → d.stage.mayFail = true

theorem StreamStage.mayFail_of_answers {stage : StreamStage} (h : stage.answers = true) : stage.mayFail = true := by
  simp [StreamStage.mayFail, h]

section

variable {pre : Dialogue → Prop} {gone : List Frame → Bool} {before frames : List Frame}

theorem send_monitored {good : Unit → Dialogue → Prop} {bad : PyError → Dialogue → Prop} (hgone : ∀ d, bad disconnected d)
    (h : ∀ d, pre d → ∃ d', monitor (Dialogue.next req) d (frames.map .sent) = some d' ∧ good () d') :
    Monitored (Dialogue.next req) pre (send gone before frames) good bad := by
  refine (Monitored.recordAll h).bind fun _ => Monitored.await fun d hd => ?_
  split
  · exact hgone d
  · exact hd

theorem disconnected_failable (d : Dialogue) : Failable disconnected d := by
  intro hcaught
  cases hcaught

theorem retrieve_monitored (settings : Settings) (completionCost : CompletionCost) (env : RetrievalEnv) (message : String)
    (user : Option User) (hpre : ∀ d, pre d → d.stage.mayFail = true) :
    Monitored (Dialogue.next req) pre (retrieve settings completionCost env message user) (fun _ d => pre d) Failable := by
  have hlog : ∀ u, (retrieve settings completionCost env message user u).1 = env.retrieved settings message user ∧
      (retrieve settings completionCost env message user u).2.log = u.log ++ env.events settings message user := by
    intro u
    rw [retrieve_spec u]
    cases env.lands settings message user <;> exact ⟨rfl, rfl⟩
  apply Monitored.of_log hlog
  intro d hd
  have hpassed : ∀ e ∈ env.events settings message user, d.next req e = some d := by
    intro e he
    obtain ⟨c, rfl⟩ := retrieval_calls settings env message user e he
    rfl
  refine ⟨d, monitor_passed hpassed, ?_⟩
  cases env.retrieved settings message user with
  | ok r => exact hd
  | error e => exact fun _ => hpre d hd

theorem persistExchange_monitored (env : PersistEnv) (answerText : String) {citedSources : List Source}
    (hcited : ∀ d, Answering sources cited d → d.citedSources = citedSources) :
    Monitored (Dialogue.next req) (Answering sources cited)
      (persistExchange env req.chatId req.message answerText citedSources)
      (fun ids d => d.stage.answers = true ∧ d.Reports ids.2 ids.1 cited) Failable := by
  have hfail : ∀ {e : PyError} {d : Dialogue}, d.stage.answers = true → Failable e d :=
    fun h _ => StreamStage.mayFail_of_answers h
  have hopened : Monitored (Dialogue.next req) (Answering sources cited)
      (Tx.await (env.chat req.chatId >>= fun chatId => env.flush req.chatId chatId >>= fun _ => .ok chatId) : RequestTx Uuid)
      (fun chatId d => env.chat req.chatId = .ok chatId ∧ Answering sources cited d) Failable := by
    apply Monitored.await
    intro d hd
    cases hchat : env.chat req.chatId with
    | error e => exact hfail hd.stage
    | ok chatId =>
      cases hflush : env.flush req.chatId chatId with
      | error e => simpa [hflush, bind, Except.bind, Outcome] using hfail hd.stage
      | ok _ => simpa [hflush, bind, Except.bind, Outcome] using hd
  apply hopened.bind
  intro chatId
  have hstored : Monitored (Dialogue.next req) (fun d => env.chat req.chatId = .ok chatId ∧ Answering sources cited d)
      (Tx.recordAll (if env.commit.lands then
        [.stored (env.exchange req.chatId chatId req.message answerText citedSources)] else []) : RequestTx Unit)
      (fun _ d => d.stage.answers = true ∧
        (env.commit.lands = true → d.Reports env.assistantMessageId chatId cited)) Failable := by
    apply Monitored.recordAll
    rintro d ⟨hchat, hd⟩
    cases hlands : env.commit.lands with
    | false => exact ⟨d, rfl, hd.stage, by simp⟩
    | true =>
      let e := env.exchange req.chatId chatId req.message answerText citedSources
      have hrecords : d.Records req e := by
        refine ⟨_, _, rfl, rfl, rfl, rfl, rfl, rfl, ?_, ?_⟩
        · intro given hgiven
          rw [hgiven] at hchat
          exact (Except.ok.inj hchat).symm
        · rw [hcited d hd]
          rfl
      let reply : Message := ⟨env.assistantMessageId, chatId, .assistant, answerText⟩
      have hreply : reply ∈ e.messages := by simp [e, reply, PersistEnv.exchange]
      refine ⟨{ d with exchange := some e }, ?_, hd.stage, fun _ => ⟨hd.cited.symm, e, rfl, reply, hreply, rfl, rfl, rfl⟩⟩
      simp [monitor_cons, Dialogue.next, hd.stage, hd.exchange, hrecords, e]
  apply hstored.bind
  intro _
  have hcommitted : Monitored (Dialogue.next req)
      (fun d => d.stage.answers = true ∧ (env.commit.lands = true → d.Reports env.assistantMessageId chatId cited))
      (Tx.commit env.commit : RequestTx Unit)
      (fun _ d => d.stage.answers = true ∧ d.Reports env.assistantMessageId chatId cited) Failable := by
    apply Monitored.commit
    rintro d ⟨hstage, hreports⟩
    cases hcommit : env.commit with
    | durable => exact ⟨hstage, hreports (by rw [hcommit]; rfl)⟩
    | unacknowledged e => exact hfail hstage
    | raised e => exact hfail hstage
  exact hcommitted.bind fun _ => Monitored.pure fun d hd => hd

end

section

variable {settings : Settings} {completionCost : CompletionCost} {user : Option User} {env : StreamEnv}

theorem opening_heard (warning : Option String) (r : List Hit × String) (hstage : d.stage = .greeted)
    (hcited : d.cited = []) (hexchange : d.exchange = none) :
    ∃ d', monitor (Dialogue.next req) d ((openingFrames req warning r).map .sent) = some d' ∧
      Answering (allSources r.1) [] d' := by
  unfold openingFrames
  by_cases hsame : r.2 = req.message
  · cases warning with
    | none =>
      refine ⟨d.hear (.sources (allSources r.1)), ?_, ⟨rfl, rfl, hcited, hexchange⟩⟩
      simp [hsame, monitor_cons, Dialogue.next, Dialogue.holds, StreamStage.permits, hstage]
    | some text =>
      refine ⟨(d.hear (.sources (allSources r.1))).hear (.budget text), ?_, ⟨rfl, rfl, hcited, hexchange⟩⟩
      simp [hsame, monitor_cons, Dialogue.next, Dialogue.holds, StreamStage.permits, hstage, Dialogue.hear]
  · cases warning with
    | none =>
      refine ⟨(d.hear (.sources (allSources r.1))).hear (.prefill r.2), ?_, ⟨rfl, rfl, hcited, hexchange⟩⟩
      simp [hsame, monitor_cons, Dialogue.next, Dialogue.holds, StreamStage.permits, hstage, Dialogue.hear]
    | some text =>
      refine ⟨((d.hear (.sources (allSources r.1))).hear (.prefill r.2)).hear (.budget text), ?_, ⟨rfl, rfl, hcited, hexchange⟩⟩
      simp [hsame, monitor_cons, Dialogue.next, Dialogue.holds, StreamStage.permits, hstage, Dialogue.hear, StreamStage.behind]

theorem finishStream_monitored (r : List Hit × String) (st : StreamState) :
    Monitored (Dialogue.next req) (Answering (allSources r.1) st.citedSeen)
      (finishStream settings completionCost req user env r st) (fun _ d => d.stage = .ended) Failable := by
  have htail : Monitored (Dialogue.next req) (Answering (allSources r.1) st.citedSeen)
      (send env.gone st.frames (tailFrames st)) (fun _ => Answering (allSources r.1) st.citedSeen) Failable := by
    apply send_monitored disconnected_failable
    intro d hd
    unfold tailFrames
    split
    · exact ⟨d, rfl, hd⟩
    · refine ⟨{ d with stage := .answering }, ?_, ⟨rfl, hd.sources, hd.cited, hd.exchange⟩⟩
      simp [monitor_cons, Dialogue.next, Dialogue.holds, StreamStage.permits, hd.stage, hd.exchange, Dialogue.hear,
        StreamStage.behind]
  have hreport : ∀ ids : Uuid × Uuid, Monitored (Dialogue.next req)
      (fun d => d.stage.answers = true ∧ d.Reports ids.2 ids.1 st.citedSeen)
      (send env.gone (st.frames ++ tailFrames st) [.metaInfo ids.2 ids.1 st.citedSeen, .done])
      (fun _ d => d.stage = .ended) Failable := by
    intro ids
    apply send_monitored disconnected_failable
    rintro d ⟨hstage, hreports⟩
    refine ⟨{ d with stage := .ended }, ?_, rfl⟩
    simp [monitor_cons, Dialogue.next, Dialogue.holds, StreamStage.permits, hstage, hreports, Dialogue.hear, StreamStage.behind]
  have htracked : Monitored (Dialogue.next req) (Answering (allSources r.1) st.citedSeen)
      (trackUsage settings completionCost (env.completion settings user r st))
      (fun _ => Answering (allSources r.1) st.citedSeen) Failable := Monitored.add fun d hd => hd
  apply htail.bind
  intro _
  apply htracked.bind
  intro _
  refine (persistExchange_monitored env.persist _ fun d hd => ?_).bind hreport
  rw [Dialogue.citedSources, hd.sources, hd.cited]

theorem streamFrames_monitored (warning : Option String) : Monitored (Dialogue.next req)
    (fun d => d.stage = .greeted ∧ d.cited = [] ∧ d.exchange = none)
    (streamFrames settings completionCost req user env warning) (fun _ d => d.stage = .ended) Failable := by
  apply (retrieve_monitored settings completionCost env.retrieval req.message user _).bind
  · intro r
    have hopening : Monitored (Dialogue.next req) (fun d => d.stage = .greeted ∧ d.cited = [] ∧ d.exchange = none)
        (send env.gone [.retry] (openingFrames req warning r)) (fun _ => Answering (allSources r.1) []) Failable :=
      send_monitored disconnected_failable fun d hd => opening_heard warning r hd.1 hd.2.1 hd.2.2
    apply hopening.bind
    intro _
    let before := .retry :: openingFrames req warning r
    have hread : Monitored (Dialogue.next req) (Answering (allSources r.1) [])
        (Tx.recordAll (env.events settings user r before) : RequestTx Unit)
        (fun _ => Answering (allSources r.1) (env.read before).1.citedSeen) Failable := by
      apply Monitored.recordAll
      intro d hd
      have hstart : Telling req d (allSources r.1) before { frames := before } := ⟨[], d, by simp, rfl, hd⟩
      obtain ⟨sent, d', hframes, hrun, hd'⟩ := hstart.read env.waits env.gone env.ending 0 (env.chunks.flatMap ProviderChunk.items)
      refine ⟨d', ?_, hd'⟩
      have hdrop : (env.read before).1.frames.drop before.length = sent := by
        rw [StreamEnv.read, hframes, List.drop_left]
      simp only [StreamEnv.events, hdrop]
      exact monitor_snoc hrun _
    apply hread.bind
    intro _
    have hpassed : Monitored (Dialogue.next req) (Answering (allSources r.1) (env.read before).1.citedSeen)
        (Tx.await (env.read before).2.result : RequestTx Unit)
        (fun _ => Answering (allSources r.1) (env.read before).1.citedSeen) Failable := by
      apply Monitored.await
      intro d hd
      cases (env.read before).2.result with
      | ok _ => exact hd
      | error e => exact fun _ => StreamStage.mayFail_of_answers hd.stage
    exact hpassed.bind fun _ => finishStream_monitored r _
  · rintro d ⟨hstage, _⟩
    simp [StreamStage.mayFail, hstage]

/-- Every request to `/chat/stream`, however its providers, the database and the client behave, keeps to the protocol:
its frames and the exchange it stores come in turn, and the stream ends with `done`, unless the request is refused or
cancelled. -/
theorem stream_keeps_protocol (settings : Settings) (completionCost : CompletionCost) (req : ChatRequest) (user : Option User)
    (env : StreamEnv) (usage : List Usage) :
    ∃ d, monitor (Dialogue.next req) {} ((chatStream settings completionCost req user env).request usage).log = some d ∧
      (∀ a, (chatStream settings completionCost req user env ⟨usage, [], []⟩).1 = .ok a → d.stage = .ended) ∧
      ∀ e, (chatStream settings completionCost req user env ⟨usage, [], []⟩).1 = .error e →
        (env.budget = .error e ∧ d = {}) ∨ e.isException = false := by
  let refused (e : PyError) (d : Dialogue) : Prop := (env.budget = .error e ∧ d = {}) ∨ e.isException = false
  have hbudget : Monitored (Dialogue.next req) (fun d => d = {}) (Tx.await env.budget : RequestTx (Option String))
      (fun _ d => d = {}) refused := by
    apply Monitored.await
    rintro d rfl
    cases hgate : env.budget with
    | ok warning => exact rfl
    | error e => exact Or.inl ⟨hgate, rfl⟩
  have hgreeting : Monitored (Dialogue.next req) (fun d => d = {}) (send env.gone [] [.retry])
      (fun _ d => d.stage = .greeted ∧ d.cited = [] ∧ d.exchange = none) refused := by
    apply send_monitored fun d => Or.inr rfl
    rintro d rfl
    exact ⟨{ stage := .greeted }, rfl, rfl, rfl, rfl⟩
  have hstream : ∀ warning, Monitored (Dialogue.next req) (fun d => d.stage = .greeted ∧ d.cited = [] ∧ d.exchange = none)
      (Tx.tryCatch PyError.isException (streamFrames settings completionCost req user env warning) fun _ =>
        Tx.recordAll [.sent (.error streamError), .sent .done])
      (fun _ d => d.stage = .ended) refused := by
    intro warning
    apply (streamFrames_monitored warning).tryCatch
    · intro e hcaught
      apply Monitored.recordAll
      intro d hfailable
      refine ⟨{ d with stage := .ended }, ?_, rfl⟩
      simp [monitor_cons, Dialogue.next, Dialogue.holds, StreamStage.permits, hfailable hcaught, Dialogue.hear,
        StreamStage.behind]
    · exact fun e d hpass _ => Or.inr hpass
  have hrequest : Monitored (Dialogue.next req) (fun d => d = {}) (chatStream settings completionCost req user env)
      (fun _ d => d.stage = .ended) refused := hbudget.bind fun warning => hgreeting.bind fun _ => hstream warning
  obtain ⟨d, hlog, hend⟩ := hrequest.request usage rfl
  refine ⟨d, hlog, fun a ha => ?_, fun e he => ?_⟩
  · rw [ha] at hend
    exact hend
  · rw [he] at hend
    exact hend

end

end ProRag
