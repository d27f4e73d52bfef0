import ProRag.Chat.Protocol
import ProRag.Web.Typewriter

/-!
# From the server to the page

What the frames of a stream leave in the message of the page, and that it is what the server has stored.
-/

namespace ProRag

open Framework

def jsUnits (c : Char) : JsString :=
  if c.toNat < 0x10000 then [c.toNat.toUInt16]
  else [(0xd800 + (c.toNat - 0x10000) / 0x400).toUInt16, (0xdc00 + (c.toNat - 0x10000) % 0x400).toUInt16]

def jsText (text : Text) : JsString := text.flatMap jsUnits

/-- The event that a frame is to `streamSse`; the retry hint and the comments are none. -/
def clientFrame : Frame → Option ClientFrame
  | .retry | .comment => none
  | .sources sources => some (.sources sources)
  | .prefill cleaned => some (.prefill (jsText cleaned.toList))
  | .token t => some (.token (jsText t))
  | .citation n => some (.citation n)
  | .metaInfo messageId chatId _ => some (.metaInfo chatId (some messageId))
  | .error message => some (.error (jsText message.toList))
  | .budget _ | .done => some .other

/-- What the frames of one answer say. -/
structure Reception where
  sources : List Source := []
  citedNs : List Nat := []
  messageId : Option Uuid := none
  chatId : Option Uuid := none
  refined : Option JsString := none

def Reception.read (r : Reception) : ClientFrame → Reception
  | .sources sources => { r with sources := sources }
  | .citation n => { r with citedNs := if n ∈ r.citedNs then r.citedNs else r.citedNs ++ [n] }
  | .metaInfo chatId messageId => { r with chatId := some chatId, messageId := messageId.orElse fun _ => r.messageId }
  | .prefill cleaned => { r with refined := some cleaned }
  | .token _ | .error _ | .other => r

def received (frames : List ClientFrame) : Reception := frames.foldl Reception.read {}

/-- The message shows what the frames say, whatever the typewriter and the timers do. -/
structure Shows (w : Watched) (m : ChatMessage) : Prop where
  sources : m.sources = (received w.frames).sources
  ranked : m.thinkingMeta.topSources = ChatPage.rankSources (received w.frames).sources
  citedNs : m.citedNs = (received w.frames).citedNs
  messageId : m.messageId = (received w.frames).messageId
  refined : m.thinkingMeta.refinedPrompt = (received w.frames).refined

/-- What the frames leave in the page. -/
structure PageRecords (w : Watched) : Prop where
  message : ∀ m, w.page.message = some m → Shows w m
  citedNs : w.page.citedNs = (received w.frames).citedNs
  chatId : ∀ chatId, (received w.frames).chatId = some chatId → w.page.chatId = some chatId

theorem received_snoc (frames : List ClientFrame) (f : ClientFrame) :
    received (frames ++ [f]) = (received frames).read f := by
  simp [received]

section

variable {fl : ℚ → ℚ} {w : Watched} {page : ChatPage}

theorem PageRecords.patched (h : PageRecords w) {w' : Watched} (fn : ChatMessage → ChatMessage)
    (hmessage : w'.page.message = w.page.message.map fn)
    (hfn : ∀ m, (fn m).sources = m.sources ∧ (fn m).thinkingMeta.topSources = m.thinkingMeta.topSources ∧
      (fn m).citedNs = m.citedNs ∧ (fn m).messageId = m.messageId ∧
      (fn m).thinkingMeta.refinedPrompt = m.thinkingMeta.refinedPrompt)
    (hcited : w'.page.citedNs = w.page.citedNs) (hchat : w'.page.chatId = w.page.chatId)
    (hframes : received w'.frames = received w.frames) : PageRecords w' where
  message m' hm' := by
    rw [hmessage] at hm'
    obtain ⟨m, hm, rfl⟩ := Option.map_eq_some_iff.mp hm'
    obtain ⟨hsources, hranked, hcitedNs, hmessageId, hrefined⟩ := hfn m
    have hshows := h.message m hm
    constructor
    · rw [hsources, hframes, hshows.sources]
    · rw [hranked, hframes, hshows.ranked]
    · rw [hcitedNs, hframes, hshows.citedNs]
    · rw [hmessageId, hframes, hshows.messageId]
    · rw [hrefined, hframes, hshows.refined]
  citedNs := by rw [hcited, hframes, h.citedNs]
  chatId chatId hid := by
    rw [hchat]
    exact h.chatId chatId (hframes ▸ hid)

theorem PageRecords.kept (h : PageRecords w) (page : ChatPage) (content : ChatMessage → JsString)
    (status : ChatMessage → MessageStatus)
    (hmessage : page.message = w.page.message.map fun m => { m with content := content m, status := status m })
    (hcited : page.citedNs = w.page.citedNs) (hchat : page.chatId = w.page.chatId) (closed : Bool) :
    PageRecords ⟨page, w.frames, closed⟩ :=
  h.patched (fun m => { m with content := content m, status := status m }) hmessage (fun _ => ⟨rfl, rfl, rfl, rfl, rfl⟩)
    hcited hchat rfl

theorem PageRecords.same (h : PageRecords w) (page : ChatPage) (hmessage : page.message = w.page.message)
    (hcited : page.citedNs = w.page.citedNs) (hchat : page.chatId = w.page.chatId) (closed : Bool) :
    PageRecords ⟨page, w.frames, closed⟩ :=
  h.kept page ChatMessage.content ChatMessage.status (by simp [hmessage]) hcited hchat closed

theorem PageRecords.complete (h : PageRecords w) (closed : Bool) : PageRecords ⟨w.page.complete, w.frames, closed⟩ :=
  h.kept w.page.complete
    (fun _ => if w.page.raw = [] then jsLiteral "No answer was returned for that question." else w.page.raw)
    (fun _ => if w.page.raw = [] then .error else .done) rfl rfl rfl closed

theorem PageRecords.failStream (h : PageRecords w) (failure : StreamFailure) :
    PageRecords ⟨w.page.failStream failure, w.frames, w.closed⟩ := by
  let content (failure : StreamFailure) (_ : ChatMessage) := ChatPage.failureContent w.page.raw failure
  cases failure with
  | aborted => exact h.kept (w.page.failStream .aborted) (content .aborted) (fun _ => .done) rfl rfl rfl w.closed
  | stalled => exact h.kept (w.page.failStream .stalled) (content .stalled) (fun _ => .error) rfl rfl rfl w.closed
  | transport => exact h.kept (w.page.failStream .transport) (content .transport) (fun _ => .error) rfl rfl rfl w.closed

theorem PageRecords.drain (h : PageRecords w) (ts : ℚ) : PageRecords ⟨w.page.drain fl ts, w.frames, w.closed⟩ := by
  unfold ChatPage.drain
  split
  · exact h.same { w.page with raf := false, lastTs := 0, waiting := false } rfl rfl rfl w.closed
  · let content := sliceTo w.page.target ⌊w.page.reveal fl ts⌋
    exact h.kept { w.page.patch fun m => { m with content := content, status := .streaming } with
      lastTs := ts, shown := w.page.reveal fl ts, raf := true } (fun _ => content) (fun _ => .streaming) rfl rfl rfl w.closed

theorem PageRecords.timer (h : PageRecords w) (fn : ThinkingMeta → ThinkingMeta)
    (hfn : ∀ thinking, (fn thinking).topSources = thinking.topSources ∧ (fn thinking).refinedPrompt = thinking.refinedPrompt)
    (timer : Bool) : PageRecords ⟨{ w.page with rerankTimer := timer }.patchThinking fn, w.frames, w.closed⟩ := by
  exact h.patched (fun m => { m with thinkingMeta := fn m.thinkingMeta }) rfl
    (fun m => ⟨rfl, (hfn _).1, rfl, rfl, (hfn _).2⟩) rfl rfl rfl

theorem PageRecords.frame (h : PageRecords w) (f : ClientFrame) :
    PageRecords ⟨w.page.onFrame f, w.frames ++ [f], w.closed⟩ := by
  have hread := received_snoc w.frames f
  cases f with
  | sources sources =>
    refine ⟨fun m hm => ?_, ?_, fun chatId hid => ?_⟩
    · simp only [ChatPage.onFrame, ChatPage.patchThinking, ChatPage.patch, Option.map_map] at hm
      obtain ⟨m0, hm0, rfl⟩ := Option.map_eq_some_iff.mp hm
      have hshows := h.message m0 hm0
      constructor
      · rw [hread]
        rfl
      · rw [hread]
        rfl
      · rw [hread]
        exact hshows.citedNs
      · rw [hread]
        exact hshows.messageId
      · rw [hread]
        exact hshows.refined
    · rw [hread]
      exact h.citedNs
    · rw [hread] at hid
      exact h.chatId chatId hid
  | token t =>
    have hpush : ∀ page : ChatPage, (page.pushText t).message = page.message ∧ (page.pushText t).citedNs = page.citedNs ∧
        (page.pushText t).chatId = page.chatId := by
      intro page
      unfold ChatPage.pushText
      cases page.raf <;> exact ⟨rfl, rfl, rfl⟩
    obtain ⟨hmessage, hcited, hchat⟩ := hpush { w.page with raw := w.page.raw ++ t }
    refine h.patched
      (fun m => { m with thinkingMeta := { m.thinkingMeta with currentPhase := max m.thinkingMeta.currentPhase 3 } })
      ?_ (fun _ => ⟨rfl, rfl, rfl, rfl, rfl⟩) hcited hchat hread
    simp [ChatPage.onFrame, ChatPage.patchThinking, ChatPage.patch, hmessage]
  | prefill cleaned =>
    refine ⟨fun m hm => ?_, ?_, fun chatId hid => ?_⟩
    · obtain ⟨m0, hm0, rfl⟩ := Option.map_eq_some_iff.mp hm
      have hshows := h.message m0 hm0
      constructor
      · rw [hread]
        exact hshows.sources
      · rw [hread]
        exact hshows.ranked
      · rw [hread]
        exact hshows.citedNs
      · rw [hread]
        exact hshows.messageId
      · rw [hread]
        rfl
    · rw [hread]
      exact h.citedNs
    · rw [hread] at hid
      exact h.chatId chatId hid
  | citation n =>
    refine ⟨fun m hm => ?_, ?_, fun chatId hid => ?_⟩
    · obtain ⟨m0, hm0, rfl⟩ := Option.map_eq_some_iff.mp hm
      have hshows := h.message m0 hm0
      constructor
      · rw [hread]
        exact hshows.sources
      · rw [hread]
        exact hshows.ranked
      · simp [hread, Reception.read, h.citedNs]
      · rw [hread]
        exact hshows.messageId
      · rw [hread]
        exact hshows.refined
    · simp [hread, ChatPage.onFrame, ChatPage.patch, Reception.read, h.citedNs]
    · rw [hread] at hid
      exact h.chatId chatId hid
  | metaInfo chatId messageId =>
    refine ⟨fun m hm => ?_, ?_, fun chatId' hid => ?_⟩
    · obtain ⟨m0, hm0, rfl⟩ := Option.map_eq_some_iff.mp hm
      have hshows := h.message m0 hm0
      constructor
      · rw [hread]
        exact hshows.sources
      · rw [hread]
        exact hshows.ranked
      · rw [hread]
        exact hshows.citedNs
      · simp [hread, Reception.read, hshows.messageId]
      · rw [hread]
        exact hshows.refined
    · rw [hread]
      exact h.citedNs
    · rw [hread] at hid
      exact hid
  | error message =>
    exact h.patched (fun m => { m with status := .error, content := message }) rfl (fun _ => ⟨rfl, rfl, rfl, rfl, rfl⟩)
      rfl rfl hread
  | other => exact h.patched id (by simp [ChatPage.onFrame]) (fun _ => ⟨rfl, rfl, rfl, rfl, rfl⟩) rfl rfl hread

theorem watchStep_records (h : PageRecords w) {a : PageEvent} {w' : Watched} (hstep : watchStep fl w a = some w') :
    PageRecords w' := by
  obtain ⟨page', hpage, rfl⟩ := Option.map_eq_some_iff.mp hstep
  cases a with
  | send =>
    simp only [ChatPage.step] at hpage
    split at hpage
    · obtain rfl := Option.some.inj hpage
      refine ⟨fun m hm => ?_, rfl, fun _ hid => by cases hid⟩
      obtain rfl := Option.some.inj hm
      exact ⟨rfl, rfl, rfl, rfl, rfl⟩
    · cases hpage
  | frame f =>
    simp only [ChatPage.step] at hpage
    split at hpage
    · obtain rfl := Option.some.inj hpage
      exact h.frame f
    · cases hpage
  | animate ts =>
    simp only [ChatPage.step] at hpage
    split at hpage
    · have hdrain : PageRecords ⟨w.page.drain fl ts, w.frames, w.closed⟩ := h.drain ts
      obtain rfl := Option.some.inj hpage
      split
      · exact hdrain.complete w.closed
      · exact hdrain
    · cases hpage
  | tick elapsedMs =>
    simp only [ChatPage.step] at hpage
    split at hpage
    · obtain rfl := Option.some.inj hpage
      exact h.timer (fun thinking => { thinking with elapsedMs := elapsedMs }) (fun _ => ⟨rfl, rfl⟩) w.page.rerankTimer
    · cases hpage
  | rerank =>
    simp only [ChatPage.step] at hpage
    split at hpage
    · obtain rfl := Option.some.inj hpage
      exact h.timer (fun thinking => { thinking with currentPhase := max thinking.currentPhase 2 })
        (fun _ => ⟨rfl, rfl⟩) false
    · cases hpage
  | stop =>
    simp only [ChatPage.step] at hpage
    obtain rfl := Option.some.inj hpage
    show PageRecords ⟨_, w.frames, w.closed⟩
    split
    · exact h.failStream .aborted
    · exact h
  | close =>
    simp only [ChatPage.step] at hpage
    split at hpage
    · obtain rfl := Option.some.inj hpage
      show PageRecords ⟨w.page.closeStream, w.frames, true⟩
      unfold ChatPage.closeStream
      split
      · exact h.same w.page.finishTypewriter.endSend rfl rfl rfl true
      · split
        · exact h.complete true
        · exact h.same { w.page with phase := .revealing, waiting := true } rfl rfl rfl true
    · cases hpage
  | fail failure =>
    simp only [ChatPage.step] at hpage
    split at hpage
    · obtain rfl := Option.some.inj hpage
      exact h.failStream failure
    · cases hpage

theorem page_records (h : Reaches (watchStep fl) unguarded Opened w) : PageRecords w := by
  refine h.invariant PageRecords ?_ fun w a w' hw _ hs => watchStep_records hw hs
  rintro _ rfl
  refine ⟨fun m hm => ?_, rfl, fun chatId hid => ?_⟩
  · cases hm
  · cases hid

end

section

variable {req : ChatRequest} {log : List RequestEvent} {d : Dialogue} {r : Reception}

/-- The listener that the page is knows what the dialogue knows, and a report is about an exchange of the log. -/
structure Heard (req : ChatRequest) (log : List RequestEvent) (d : Dialogue) (r : Reception) : Prop where
  sources : r.sources = d.sources
  citedNs : r.citedNs = d.cited
  early : d.stage = .opened ∨ d.stage = .greeted → d.exchange = none
  stored : ∀ e, d.exchange = some e → .stored e ∈ log ∧ d.Records req e
  reported : ∀ id, r.messageId = some id → ∃ chatId, r.chatId = some chatId ∧
    ∃ e ∈ d.exchange, ∃ m ∈ e.messages, m.role = .assistant ∧ m.id = id ∧ m.chatId = chatId

def Reception.hear (r : Reception) (f : Frame) : Reception :=
  match clientFrame f with
  | none => r
  | some f => r.read f

theorem Heard.frame (h : Heard req log d r) {f : Frame} (hstage : d.stage.permits f = true) (hholds : d.holds f = true) :
    Heard req (log ++ [.sent f]) (d.hear f) (r.hear f) := by
  have hlog : ∀ e, .stored e ∈ log → .stored e ∈ log ++ [.sent f] := fun e he => List.mem_append_left _ he
  have hplain : ∀ stage r', (stage = .opened ∨ stage = .greeted → d.exchange = none) → r'.sources = r.sources →
      r'.citedNs = r.citedNs → (∀ id, r'.messageId = some id → ∃ chatId, r'.chatId = some chatId ∧
        ∃ e ∈ d.exchange, ∃ m ∈ e.messages, m.role = .assistant ∧ m.id = id ∧ m.chatId = chatId) →
      Heard req (log ++ [.sent f]) { d with stage := stage } r' := by
    intro stage r' hearly hsources hcited hreported
    refine ⟨hsources.trans h.sources, hcited.trans h.citedNs, hearly, fun e he => ?_, hreported⟩
    obtain ⟨hmem, hrecords⟩ := h.stored e he
    exact ⟨hlog e hmem, hrecords⟩
  cases f with
  | sources sources =>
    have hgreeted : d.stage = .greeted := by simpa [StreamStage.permits] using hstage
    have hnone := h.early (Or.inr hgreeted)
    refine ⟨rfl, h.citedNs, fun _ => hnone, fun e he => ?_, h.reported⟩
    cases hnone.symm.trans he
  | citation n =>
    obtain ⟨hnew, hnone⟩ : n ∉ d.cited ∧ d.exchange = none := by simpa [Dialogue.holds] using hholds
    refine ⟨h.sources, ?_, fun _ => hnone, fun e he => ?_, h.reported⟩
    · simp [Reception.hear, clientFrame, Reception.read, Dialogue.hear, h.citedNs, hnew]
    · cases hnone.symm.trans he
  | metaInfo messageId chatId cited =>
    have hreports : d.Reports messageId chatId cited := by simpa [Dialogue.holds] using hholds
    apply hplain .reported
    · simp
    · rfl
    · rfl
    · intro id hid
      obtain rfl : messageId = id := by simpa [Reception.hear, clientFrame, Reception.read] using hid
      exact ⟨chatId, rfl, hreports.2⟩
  | retry =>
    have hopened : d.stage = .opened := by simpa [StreamStage.permits] using hstage
    exact hplain .greeted r (fun _ => h.early (Or.inl hopened)) rfl rfl h.reported
  | prefill cleaned => exact hplain .prefilled _ (by simp) rfl rfl h.reported
  | budget warning => exact hplain .answering _ (by simp) rfl rfl h.reported
  | token t => exact hplain .answering _ (by simp) rfl rfl h.reported
  | comment => exact hplain .answering _ (by simp) rfl rfl h.reported
  | error message => exact hplain .failed _ (by simp) rfl rfl h.reported
  | done => exact hplain .ended _ (by simp) rfl rfl h.reported

theorem received_hear (frames : List Frame) (f : Frame) :
    received ((frames ++ [f]).filterMap clientFrame) = (received (frames.filterMap clientFrame)).hear f := by
  rw [List.filterMap_append]
  cases hf : clientFrame f with
  | none => simp [hf, Reception.hear]
  | some f' => simp [hf, Reception.hear, received_snoc]

/-- A listener to a log that keeps to the protocol. -/
theorem heard_of_log (h : monitor (Dialogue.next req) {} log = some d) :
    Heard req log d (received ((sentFrames log).filterMap clientFrame)) := by
  induction log using List.reverseRecOn generalizing d with
  | nil =>
    obtain rfl := Option.some.inj h
    refine ⟨rfl, rfl, fun _ => rfl, fun e he => ?_, fun id hid => ?_⟩
    · cases he
    · cases hid
  | append_singleton log event ih =>
    rw [monitor_append] at h
    obtain ⟨d0, hlog, hevent⟩ := Option.bind_eq_some_iff.mp h
    have h0 := ih hlog
    have hnext : d0.next req event = some d := by simpa [monitor_cons] using hevent
    cases event with
    | call c =>
      obtain rfl := Option.some.inj hnext
      simp only [sentFrames, List.filterMap_append, List.filterMap_cons, List.filterMap_nil, List.append_nil] at h0 ⊢
      exact { h0 with stored := fun e he => ⟨List.mem_append_left _ (h0.stored e he).1, (h0.stored e he).2⟩ }
    | stored e =>
      simp only [Dialogue.next] at hnext
      split at hnext
      · rename_i hallowed
        obtain rfl := Option.some.inj hnext
        simp only [sentFrames, List.filterMap_append, List.filterMap_cons, List.filterMap_nil, List.append_nil] at h0 ⊢
        refine ⟨h0.sources, h0.citedNs, fun hearly => ?_, fun e' he' => ?_, fun id hid => ?_⟩
        · rcases hearly with hstage | hstage
          · simp [show d0.stage = _ from hstage, StreamStage.answers] at hallowed
          · simp [show d0.stage = _ from hstage, StreamStage.answers] at hallowed
        · obtain rfl := Option.some.inj he'
          exact ⟨by simp, hallowed.2.2⟩
        · obtain ⟨_, _, e', he', _⟩ := h0.reported id hid
          cases hallowed.2.1.symm.trans he'
      · cases hnext
    | sent f =>
      simp only [Dialogue.next] at hnext
      split at hnext
      · rename_i hallowed
        obtain rfl := Option.some.inj hnext
        rw [Bool.and_eq_true] at hallowed
        have hframes : sentFrames (log ++ [.sent f]) = sentFrames log ++ [f] := by rw [sentFrames_append]; rfl
        rw [hframes, received_hear]
        exact h0.frame hallowed.1 hallowed.2
      · cases hnext

end

/-- A message that names an answer names one that the server has stored for the question, in the chat that the page goes
on with, and shows exactly the citations that are stored: in every run of the page, however far the stream has come. -/
theorem named_answer_stored {fl : ℚ → ℚ} {w : Watched} (h : Reaches (watchStep fl) unguarded Opened w) {m : ChatMessage}
    (hm : w.page.message = some m) (settings : Settings) (completionCost : CompletionCost) (req : ChatRequest)
    (user : Option User) (env : StreamEnv) (usage : List Usage) {frames : List Frame}
    (hsent : frames <+: sentFrames ((chatStream settings completionCost req user env).request usage).log)
    (hframes : w.frames = frames.filterMap clientFrame) {id : Uuid} (hid : m.messageId = some id) :
    ∃ e, .stored e ∈ ((chatStream settings completionCost req user env).request usage).log ∧
      ∃ asked answered, e.messages = [asked, answered] ∧ asked.content = req.message ∧ answered.id = id ∧
        w.page.chatId = some answered.chatId ∧
        e.citations = (m.sources.filter fun s => s.n ∈ m.citedNs).map (citationOf id) := by
  obtain ⟨dEnd, hprotocol, _⟩ := stream_keeps_protocol settings completionCost req user env usage
  obtain ⟨part, ⟨rest, hrest⟩, rfl⟩ := List.prefix_filterMap_iff.mp hsent
  obtain ⟨d, hpart⟩ : ∃ d, monitor (Dialogue.next req) {} part = some d := by
    rw [← hrest, monitor_append] at hprotocol
    obtain ⟨d, hd, _⟩ := Option.bind_eq_some_iff.mp hprotocol
    exact ⟨d, hd⟩
  have hheard := heard_of_log hpart
  have hrecords := page_records h
  have hshows := hrecords.message m hm
  have hreception : received w.frames = received ((sentFrames part).filterMap clientFrame) := congrArg received hframes
  obtain ⟨chatId, hchat, e, he, answer, hanswer, hrole, rfl, rfl⟩ :=
    hheard.reported id (by rw [← hreception, ← hshows.messageId, hid])
  obtain ⟨hstored, asked, answered, hmessages, hasked, hcontent, _, _, _, _, hcitations⟩ := hheard.stored e he
  have hsame : answer = answered := by
    rw [hmessages] at hanswer
    rcases List.mem_pair.mp hanswer with rfl | rfl
    · rw [hasked] at hrole
      cases hrole
    · rfl
  subst hsame
  refine ⟨e, ?_, asked, answer, hmessages, hcontent, rfl, ?_, ?_⟩
  · rw [← hrest]
    exact List.mem_append_left _ hstored
  · exact hrecords.chatId _ (by rw [hreception, hchat])
  · rw [hcitations, Dialogue.citedSources, hshows.sources, hshows.citedNs, hreception, hheard.sources, hheard.citedNs]

/-- What the server does with a question about the public note. -/
def noteLog : List RequestEvent := ((chatStream {} (fun _ _ _ => .ok none) noteRequest none noteStream).request []).log

theorem named_answer_stored_note : ∃ w m, runSteps (watchStep id) openedPage
      (.send :: ((sentFrames noteLog).filterMap clientFrame).map .frame) = some w ∧ w.page.message = some m ∧
    ∃ e, .stored e ∈ noteLog ∧ ∃ asked answered, e.messages = [asked, answered] ∧ asked.content = "fire drill" ∧
      answered.id = 13 ∧ w.page.chatId = some answered.chatId ∧
      e.citations = (m.sources.filter fun s => s.n ∈ m.citedNs).map (citationOf 13) := by
  have hend : (runSteps (watchStep id) openedPage (.send :: ((sentFrames noteLog).filterMap clientFrame).map .frame)).map
      (fun w => (decide (w.frames = (sentFrames noteLog).filterMap clientFrame), w.page.message.bind ChatMessage.messageId)) =
      some (true, some 13) := by decide +kernel
  obtain ⟨w, hrun, hw⟩ := Option.map_eq_some_iff.mp hend
  simp only [Prod.mk.injEq, decide_eq_true_eq] at hw
  obtain ⟨hframes, hnamed⟩ := hw
  obtain ⟨m, hm, hid⟩ := Option.bind_eq_some_iff.mp hnamed
  have hreach : Reaches (watchStep id) unguarded Opened w := reaches_of_runSteps rfl hrun
  exact ⟨w, m, hrun, hm,
    named_answer_stored hreach hm {} (fun _ _ _ => .ok none) noteRequest none noteStream [] List.prefix_rfl hframes hid⟩

end ProRag
