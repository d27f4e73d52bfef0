import Mathlib.Data.Rat.Floor
import ProRag.Framework.Runs
import ProRag.Operations.Retrieval

/-!
# The message of a streamed answer

The page writes the answer that it receives into one message, from two sides: the frames of the stream patch it, and a
queued animation frame reveals the text that has come so far.
-/

namespace ProRag

open Framework

/-- A string, by its code units. -/
abbrev JsString := List UInt16

/-- A literal of the basic plane. -/
def jsLiteral (s : String) : JsString := s.toList.map fun c => c.toNat.toUInt16

/-- `target.slice(0, end)`. -/
def sliceTo (target : JsString) (stop : ℤ) : JsString :=
  if stop < 0 then target.take (target.length + stop).toNat else target.take stop.toNat

inductive MessageStatus
  | thinking | streaming | done | error
deriving DecidableEq, Repr

structure ThinkingMeta where
  currentPhase : Nat
  topSources : List Source
  elapsedMs : ℤ
  refinedPrompt : Option JsString
deriving DecidableEq

/-- The assistant's `ChatMessage`. -/
structure ChatMessage where
  content : JsString
  status : MessageStatus
  sources : List Source
  citedNs : List Nat
  messageId : Option Uuid
  thinkingMeta : ThinkingMeta
deriving DecidableEq

/-- A frame, as `sendMessage` reads it. -/
inductive ClientFrame
  | sources (sources : List Source)
  | token (t : JsString)
  | prefill (cleaned : JsString)
  | citation (n : Nat)
  | error (message : JsString)
  | metaInfo (chatId : Uuid) (messageId : Option Uuid)
  | other
deriving DecidableEq

/-- Where `sendMessage` is: reading the stream, or waiting for the typewriter. -/
inductive SendPhase
  | idle | streaming | revealing
deriving DecidableEq, Repr

/-- The last message, the variables of its `sendMessage`, the refs and the timers.  `raf` says that an animation
frame is queued, `waiting` that a resolver is set. -/
structure ChatPage where
  phase : SendPhase := .idle
  message : Option ChatMessage := none
  raw : JsString := []
  citedNs : List Nat := []
  failed : Bool := false
  target : JsString := []
  shown : ℚ := 0
  lastTs : ℚ := 0
  raf : Bool := false
  waiting : Bool := false
  chatId : Option Uuid := none
  elapsedTimer : Bool := false
  rerankTimer : Bool := false
deriving DecidableEq

/-- How `streamSse` throws. -/
inductive StreamFailure
  | aborted | stalled | transport

inductive PageEvent
  | send
  | frame (f : ClientFrame)
  | animate (ts : ℚ)
  | tick (elapsedMs : ℤ)
  | rerank
  | stop
  | close
  | fail (failure : StreamFailure)

namespace ChatPage

/-- `patch(fn)`. -/
def patch (page : ChatPage) (fn : ChatMessage → ChatMessage) : ChatPage := { page with message := page.message.map fn }

/-- `patchThinking(id, fn)`. -/
def patchThinking (page : ChatPage) (fn : ThinkingMeta → ThinkingMeta) : ChatPage :=
  page.patch fun m => { m with thinkingMeta := fn m.thinkingMeta }

/-- `pushText(t)`. -/
def pushText (page : ChatPage) (t : JsString) : ChatPage :=
  let page := { page with target := page.target ++ t }
  if page.raf then page else { page with lastTs := 0, raf := true }

/-- `finishTypewriter()`. -/
def finishTypewriter (page : ChatPage) : ChatPage :=
  { page with raf := false, lastTs := 0, shown := page.target.length, waiting := false }

/-- The first part of `sendMessage`. -/
def startSend (page : ChatPage) : ChatPage :=
  { page with
    phase := .streaming
    message := some ⟨jsLiteral "Reading your documents", .thinking, [], [], none, ⟨0, [], 0, none⟩⟩
    raw := []
    citedNs := []
    failed := false
    target := []
    shown := 0
    elapsedTimer := true }

/-- The `finally` of `sendMessage`. -/
def endSend (page : ChatPage) : ChatPage := { page with phase := .idle, elapsedTimer := false, rerankTimer := false }

def rankSources (sources : List Source) : List Source := (sources.insertionSort fun a b => b.score ≤ a.score).take 5

/-- The callback of `streamSse`. -/
def onFrame (page : ChatPage) : ClientFrame → ChatPage
  | .sources sources =>
    { (page.patch fun m => { m with sources := sources }).patchThinking
        fun thinking => { thinking with topSources := rankSources sources, currentPhase := 1 } with rerankTimer := true }
  | .token t =>
    (pushText { page with raw := page.raw ++ t } t).patchThinking
      fun thinking => { thinking with currentPhase := max thinking.currentPhase 3 }
  | .prefill cleaned => page.patchThinking fun thinking => { thinking with refinedPrompt := some cleaned }
  | .citation n =>
    let citedNs := if n ∈ page.citedNs then page.citedNs else page.citedNs ++ [n]
    { page with citedNs := citedNs }.patch fun m => { m with citedNs := citedNs }
  | .error message => { page with failed := true }.patch fun m => { m with status := .error, content := message }
  | .metaInfo chatId messageId =>
    { page with chatId := some chatId }.patch fun m => { m with messageId := messageId.orElse fun _ => m.messageId }
  | .other => page

/-- The end of `sendMessage` behind the typewriter. -/
def complete (page : ChatPage) : ChatPage :=
  (page.patch fun m => { m with
    content := if page.raw = [] then jsLiteral "No answer was returned for that question." else page.raw
    status := if page.raw = [] then .error else .done }).endSend

/-- `streamSse` returns; with text still hidden, `waitForTypewriter` sets its resolver. -/
def closeStream (page : ChatPage) : ChatPage :=
  if page.failed then page.finishTypewriter.endSend
  else if (page.target.length : ℚ) ≤ page.shown then page.complete
  else { page with phase := .revealing, waiting := true }

/-- The content of a message whose stream has thrown. -/
def failureContent (raw : JsString) : StreamFailure → JsString
  | .aborted => if raw = [] then jsLiteral "Stopped." else raw
  | .stalled => jsLiteral "The connection went quiet. Try asking again."
  | .transport => jsLiteral "Something went wrong. Try asking again."

/-- The `catch` of `sendMessage`. -/
def failStream (page : ChatPage) (failure : StreamFailure) : ChatPage :=
  (page.finishTypewriter.patch fun m => { m with
    status := match failure with
      | .aborted => .done
      | _ => .error
    content := failureContent page.raw failure }).endSend

section

variable (fl : ℚ → ℚ)

/-- The characters that an animation frame shows, of doubles that `fl` rounds. -/
def reveal (page : ChatPage) (ts : ℚ) : ℚ :=
  let length : ℚ := page.target.length
  let dt := if page.lastTs = 0 then 0 else min (fl (fl (ts - page.lastTs) / 1000)) (1 / 4)
  let backlog := fl (length - page.shown)
  let ramp := min 1 (fl (max 0 (length - 400) / (2500 - 400)))
  let cps := fl (20 + fl (ramp * (110 - 20)))
  let cps := if 1500 < backlog then max cps (fl (backlog / 4)) else cps
  let cps := min cps 400
  min length (fl (page.shown + fl (cps * dt)))

/-- `drain(ts)`. -/
def drain (page : ChatPage) (ts : ℚ) : ChatPage :=
  if (page.target.length : ℚ) ≤ page.shown then { page with raf := false, lastTs := 0, waiting := false }
  else
    let next := page.reveal fl ts
    { page.patch fun m => { m with content := sliceTo page.target ⌊next⌋, status := .streaming } with
      lastTs := ts, shown := next, raf := true }

/-- One event; a resolver that is called lets `sendMessage` go on. -/
def step (page : ChatPage) : PageEvent → Option ChatPage
  | .send => if page.phase = .idle then some page.startSend else none
  | .frame f => if page.phase = .streaming then some (page.onFrame f) else none
  | .animate ts =>
    if page.raf then
      let next := page.drain fl ts
      some (if page.waiting && !next.waiting then next.complete else next)
    else none
  | .tick elapsedMs =>
    if page.elapsedTimer then some (page.patchThinking fun thinking => { thinking with elapsedMs := elapsedMs }) else none
  | .rerank =>
    if page.rerankTimer then
      some ({ page with rerankTimer := false }.patchThinking
        fun thinking => { thinking with currentPhase := max thinking.currentPhase 2 })
    else none
  | .stop => some (if page.phase = .streaming then page.failStream .aborted else page)
  | .close => if page.phase = .streaming then some page.closeStream else none
  | .fail failure => if page.phase = .streaming then some (page.failStream failure) else none

end

end ChatPage

/-- A page, the frames that its last `sendMessage` has received, and whether the stream closed normally. -/
structure Watched where
  page : ChatPage
  frames : List ClientFrame
  closed : Bool

/-- What has been received behind an event. -/
def Watched.observe (w : Watched) (page : ChatPage) : PageEvent → Watched
  | .send => ⟨page, [], false⟩
  | .frame f => ⟨page, w.frames ++ [f], w.closed⟩
  | .close => ⟨page, w.frames, true⟩
  | _ => ⟨page, w.frames, w.closed⟩

def watchStep (fl : ℚ → ℚ) (w : Watched) (a : PageEvent) : Option Watched :=
  (w.page.step fl a).map fun page => w.observe page a

/-- A page that has just been opened. -/
def Opened (w : Watched) : Prop := w = ⟨{}, [], false⟩

def tokenTexts (frames : List ClientFrame) : List JsString := frames.filterMap fun f => match f with
  | .token t => some t
  | _ => none

/-- The message of the last `error` frame. -/
def lastError (frames : List ClientFrame) : Option JsString := (frames.filterMap fun f => match f with
  | .error message => some message
  | _ => none).getLast?

structure SendSettled (w : Watched) (m : ChatMessage) : Prop where
  ended : m.status = .done ∨ m.status = .error
  failed : w.closed = true → ∀ message, lastError w.frames = some message → m.content = message ∧ m.status = .error
  answered : w.closed = true → lastError w.frames = none → tokenTexts w.frames ≠ [] →
    m.content = (tokenTexts w.frames).flatten ∧ m.status = .done

/-- Behind an `error` frame no animation frame reveals anything, and a stream without one closes with text in its
tokens, if it has any tokens. -/
def Undisturbed (w : Watched) : PageEvent → Prop
  | .animate _ => w.page.failed = true → (w.page.target.length : ℚ) ≤ w.page.shown
  | .close => w.page.failed = false → tokenTexts w.frames ≠ [] → w.page.raw ≠ []
  | _ => True

instance (w : Watched) : (a : PageEvent) → Decidable (Undisturbed w a)
  | .animate _ => inferInstanceAs (Decidable (w.page.failed = true → (w.page.target.length : ℚ) ≤ w.page.shown))
  | .close => inferInstanceAs (Decidable (w.page.failed = false → tokenTexts w.frames ≠ [] → w.page.raw ≠ []))
  | .send | .frame _ | .tick _ | .rerank | .stop | .fail _ => isTrue trivial

theorem tokenTexts_append (l l' : List ClientFrame) : tokenTexts (l ++ l') = tokenTexts l ++ tokenTexts l' :=
  List.filterMap_append

theorem lastError_other {f : ClientFrame} (hf : ∀ message, f ≠ .error message) (l : List ClientFrame) :
    lastError (l ++ [f]) = lastError l := by
  unfold lastError
  rw [List.filterMap_append]
  cases f with
  | error message => exact absurd rfl (hf message)
  | _ => simp

theorem lastError_error (message : JsString) (l : List ClientFrame) : lastError (l ++ [.error message]) = some message := by
  simp [lastError]

/-- The page of a send that reads its stream shows its last error. -/
structure Reading (w : Watched) : Prop where
  unclosed : w.closed = false
  resolver : w.page.waiting = false
  error : ∀ m, w.page.message = some m → ∀ message, lastError w.frames = some message →
    m.content = message ∧ m.status = .error

/-- The page of a send that waits for its typewriter. -/
structure Revealing (w : Watched) : Prop where
  closed : w.closed = true
  answered : w.page.failed = false
  text : tokenTexts w.frames ≠ [] → w.page.raw ≠ []

/-- Nothing is left behind a send that can change its message. -/
structure Idle (page : ChatPage) : Prop where
  phase : page.phase = .idle
  resolver : page.waiting = false
  typed : page.raf = true → (page.target.length : ℚ) ≤ page.shown
  elapsed : page.elapsedTimer = false
  rerank : page.rerankTimer = false

/-- What holds of the page along its runs. -/
structure PageInv (w : Watched) : Prop where
  raw : w.page.raw = (tokenTexts w.frames).flatten
  failed : w.page.failed = (lastError w.frames).isSome
  reading : w.page.phase = .streaming → Reading w
  revealing : w.page.phase = .revealing → Revealing w
  idle : w.page.phase = .idle → Idle w.page ∧ ∀ m, w.page.message = some m → SendSettled w m

section

variable {fl : ℚ → ℚ} {w : Watched} {page page' : ChatPage}

theorem Idle.step (h : Idle page) {a : PageEvent} (ha : a ≠ .send) (hstep : page.step fl a = some page') :
    Idle page' ∧ page'.message = page.message ∧ page'.raw = page.raw ∧ page'.failed = page.failed := by
  have hphase : page.phase ≠ .streaming := by simp [h.phase]
  cases a with
  | send => exact absurd rfl ha
  | frame f => simp [ChatPage.step, hphase] at hstep
  | close => simp [ChatPage.step, hphase] at hstep
  | fail failure => simp [ChatPage.step, hphase] at hstep
  | tick elapsedMs => simp [ChatPage.step, h.elapsed] at hstep
  | rerank => simp [ChatPage.step, h.rerank] at hstep
  | stop =>
    simp only [ChatPage.step, hphase, if_false, Option.some.injEq] at hstep
    subst hstep
    exact ⟨h, rfl, rfl, rfl⟩
  | animate ts =>
    by_cases hraf : page.raf = true
    · simp only [ChatPage.step, hraf, if_true, h.resolver, Bool.false_and, Bool.false_eq_true, if_false,
        Option.some.injEq] at hstep
      subst hstep
      rw [ChatPage.drain, if_pos (h.typed hraf)]
      exact ⟨⟨h.phase, rfl, fun hno => absurd hno Bool.false_ne_true, h.elapsed, h.rerank⟩, rfl, rfl, rfl⟩
    · simp [ChatPage.step, hraf] at hstep

theorem PageInv.of_reading (hphase : w.page.phase = .streaming) (hraw : w.page.raw = (tokenTexts w.frames).flatten)
    (hfailed : w.page.failed = (lastError w.frames).isSome) (h : Reading w) : PageInv w := by
  refine ⟨hraw, hfailed, fun _ => h, ?_, ?_⟩
  · simp [hphase]
  · simp [hphase]

theorem PageInv.of_revealing (hphase : w.page.phase = .revealing) (hraw : w.page.raw = (tokenTexts w.frames).flatten)
    (hfailed : w.page.failed = (lastError w.frames).isSome) (h : Revealing w) : PageInv w := by
  refine ⟨hraw, hfailed, ?_, fun _ => h, ?_⟩
  · simp [hphase]
  · simp [hphase]

theorem PageInv.of_idle (hraw : w.page.raw = (tokenTexts w.frames).flatten)
    (hfailed : w.page.failed = (lastError w.frames).isSome) (h : Idle w.page)
    (hsettled : ∀ m, w.page.message = some m → SendSettled w m) : PageInv w := by
  refine ⟨hraw, hfailed, ?_, ?_, fun _ => ⟨h, hsettled⟩⟩
  · simp [h.phase]
  · simp [h.phase]

theorem PageInv.patched (h : PageInv w) (hrunning : w.page.phase ≠ .idle) {w' : Watched} (fn : ChatMessage → ChatMessage)
    (hmessage : w'.page.message = w.page.message.map fn)
    (hfn : ∀ m, (fn m).content = m.content ∧ (fn m).status = m.status) (hphase : w'.page.phase = w.page.phase)
    (hraw : w'.page.raw = (tokenTexts w'.frames).flatten) (hfailed : w'.page.failed = w.page.failed)
    (hresolver : w'.page.waiting = w.page.waiting) (herror : lastError w'.frames = lastError w.frames)
    (hclosed : w'.closed = w.closed) (hrevealing : w.page.phase = .revealing → w'.frames = w.frames) : PageInv w' := by
  have hfailed' : w'.page.failed = (lastError w'.frames).isSome := by rw [hfailed, herror, h.failed]
  cases hp : w.page.phase with
  | idle => exact absurd hp hrunning
  | streaming =>
    have hread := h.reading hp
    refine .of_reading (hphase.trans hp) hraw hfailed' ⟨by rw [hclosed, hread.unclosed], by rw [hresolver, hread.resolver], ?_⟩
    intro m hm message hlast
    rw [hmessage] at hm
    obtain ⟨m0, hm0, rfl⟩ := Option.map_eq_some_iff.mp hm
    rw [(hfn m0).1, (hfn m0).2]
    exact hread.error m0 hm0 message (herror ▸ hlast)
  | revealing =>
    have hold := h.revealing hp
    refine .of_revealing (hphase.trans hp) hraw hfailed' ⟨by rw [hclosed, hold.closed], by rw [hfailed, hold.answered], ?_⟩
    rw [hraw, hrevealing hp, ← h.raw]
    exact hold.text

theorem pushText_page (page : ChatPage) (t : JsString) : (page.pushText t).phase = page.phase ∧
    (page.pushText t).message = page.message ∧ (page.pushText t).raw = page.raw ∧
    (page.pushText t).failed = page.failed ∧ (page.pushText t).waiting = page.waiting := by
  cases hraf : page.raf with
  | true => simp [ChatPage.pushText, hraf]
  | false => simp [ChatPage.pushText, hraf]

theorem onFrame_inv (h : PageInv w) (hphase : w.page.phase = .streaming) (f : ClientFrame) :
    PageInv (w.observe (w.page.onFrame f) (.frame f)) := by
  have hrunning : w.page.phase ≠ .idle := by simp [hphase]
  have hno : w.page.phase = .revealing → w.frames ++ [f] = w.frames := by simp [hphase]
  have hplain : tokenTexts [f] = [] → w.page.raw = (tokenTexts (w.frames ++ [f])).flatten := by
    intro hnone
    rw [tokenTexts_append, hnone, List.append_nil, h.raw]
  cases f with
  | sources sources =>
    exact h.patched hrunning (fun m => { m with
        sources := sources
        thinkingMeta := { m.thinkingMeta with topSources := ChatPage.rankSources sources, currentPhase := 1 } })
      (Option.map_map _ _ _) (fun m => ⟨rfl, rfl⟩) rfl (hplain rfl) rfl rfl (lastError_other (by simp) _) rfl hno
  | token t =>
    obtain ⟨hp, hmessage, hraw, hfailed, hresolver⟩ := pushText_page { w.page with raw := w.page.raw ++ t } t
    refine h.patched hrunning (fun m => { m with
        thinkingMeta := { m.thinkingMeta with currentPhase := max m.thinkingMeta.currentPhase 3 } })
      (congrArg (Option.map _) hmessage) (fun m => ⟨rfl, rfl⟩) hp ?_ hfailed hresolver (lastError_other (by simp) _) rfl hno
    refine hraw.trans ?_
    show w.page.raw ++ t = (tokenTexts (w.frames ++ [.token t])).flatten
    rw [tokenTexts_append, h.raw]
    simp [tokenTexts]
  | prefill cleaned =>
    exact h.patched hrunning (fun m => { m with thinkingMeta := { m.thinkingMeta with refinedPrompt := some cleaned } })
      rfl (fun m => ⟨rfl, rfl⟩) rfl (hplain rfl) rfl rfl (lastError_other (by simp) _) rfl hno
  | citation n =>
    exact h.patched hrunning (fun m => { m with citedNs := _ })
      rfl (fun m => ⟨rfl, rfl⟩) rfl (hplain rfl) rfl rfl (lastError_other (by simp) _) rfl hno
  | metaInfo chatId messageId =>
    exact h.patched hrunning (fun m => { m with messageId := messageId.orElse fun _ => m.messageId })
      rfl (fun m => ⟨rfl, rfl⟩) rfl (hplain rfl) rfl rfl (lastError_other (by simp) _) rfl hno
  | other =>
    exact h.patched hrunning id (by simp [Watched.observe, ChatPage.onFrame]) (fun m => ⟨rfl, rfl⟩) rfl (hplain rfl) rfl rfl
      (lastError_other (by simp) _) rfl hno
  | error message =>
    refine .of_reading hphase (hplain rfl) ?_ ⟨(h.reading hphase).unclosed, (h.reading hphase).resolver, ?_⟩
    · show true = (lastError (w.frames ++ [.error message])).isSome
      rw [lastError_error]
      rfl
    · intro m hm text hlast
      obtain ⟨m0, hm0, rfl⟩ := Option.map_eq_some_iff.mp hm
      have hlast' : lastError (w.frames ++ [.error message]) = some text := hlast
      rw [lastError_error] at hlast'
      exact ⟨Option.some.inj hlast', rfl⟩

theorem complete_inv {frames : List ClientFrame} (closed : Bool) (hraw : page.raw = (tokenTexts frames).flatten)
    (hfailed : page.failed = (lastError frames).isSome) (hanswered : page.failed = false)
    (htext : tokenTexts frames ≠ [] → page.raw ≠ []) (hresolver : page.waiting = false)
    (htyped : page.raf = true → (page.target.length : ℚ) ≤ page.shown) : PageInv ⟨page.complete, frames, closed⟩ := by
  have hnone : lastError frames = none := by
    rw [hanswered] at hfailed
    exact Option.isSome_eq_false_iff.mp hfailed.symm |> Option.isNone_iff_eq_none.mp
  refine .of_idle hraw hfailed ⟨rfl, hresolver, htyped, rfl, rfl⟩ ?_
  intro m hm
  obtain ⟨m0, _, rfl⟩ := Option.map_eq_some_iff.mp hm
  refine ⟨?_, fun _ message hlast => ?_, fun _ _ htokens => ?_⟩
  · by_cases hempty : page.raw = []
    · simp [hempty]
    · simp [hempty]
  · have hclash : none = some message := hnone.symm.trans hlast
    cases hclash
  · exact ⟨(if_neg (htext htokens)).trans hraw, if_neg (htext htokens)⟩

theorem failStream_inv {frames : List ClientFrame} (hraw : page.raw = (tokenTexts frames).flatten)
    (hfailed : page.failed = (lastError frames).isSome) (failure : StreamFailure) :
    PageInv ⟨page.failStream failure, frames, false⟩ := by
  refine .of_idle hraw hfailed ⟨rfl, rfl, by simp [ChatPage.failStream, ChatPage.finishTypewriter, ChatPage.patch, ChatPage.endSend], rfl, rfl⟩ ?_
  intro m hm
  obtain ⟨m0, _, rfl⟩ := Option.map_eq_some_iff.mp hm
  refine ⟨?_, by simp, by simp⟩
  cases failure with
  | aborted => exact Or.inl rfl
  | stalled => exact Or.inr rfl
  | transport => exact Or.inr rfl

theorem closeStream_inv (h : PageInv w) (hphase : w.page.phase = .streaming) (hguard : Undisturbed w .close) :
    PageInv (w.observe w.page.closeStream .close) := by
  have hread := h.reading hphase
  show PageInv ⟨w.page.closeStream, w.frames, true⟩
  by_cases hfailed : w.page.failed = true
  · rw [ChatPage.closeStream, if_pos hfailed]
    refine .of_idle h.raw h.failed ⟨rfl, rfl, by simp [ChatPage.finishTypewriter, ChatPage.endSend], rfl, rfl⟩ ?_
    intro m hm
    obtain ⟨message, hlast⟩ := Option.isSome_iff_exists.mp (h.failed.symm.trans hfailed)
    refine ⟨Or.inr (hread.error m hm message hlast).2, fun _ => hread.error m hm, fun _ hnone => ?_⟩
    have hclash : some message = none := hlast.symm.trans hnone
    cases hclash
  · rw [ChatPage.closeStream, if_neg hfailed]
    have hanswered : w.page.failed = false := Bool.eq_false_of_not_eq_true hfailed
    by_cases hshown : (w.page.target.length : ℚ) ≤ w.page.shown
    · rw [if_pos hshown]
      exact complete_inv true h.raw h.failed hanswered (hguard hanswered) hread.resolver fun _ => hshown
    · rw [if_neg hshown]
      exact .of_revealing rfl h.raw h.failed ⟨rfl, hanswered, hguard hanswered⟩

theorem animate_inv (h : PageInv w) (hrunning : w.page.phase ≠ .idle) {ts : ℚ} (hguard : Undisturbed w (.animate ts))
    (hstep : w.page.step fl (.animate ts) = some page') : PageInv ⟨page', w.frames, w.closed⟩ := by
  by_cases hraf : w.page.raf = true
  · simp only [ChatPage.step, hraf, if_true, Option.some.injEq] at hstep
    subst hstep
    by_cases hshown : (w.page.target.length : ℚ) ≤ w.page.shown
    · have hdrain : w.page.drain fl ts = { w.page with raf := false, lastTs := 0, waiting := false } := if_pos hshown
      rw [hdrain]
      cases hp : w.page.phase with
      | idle => exact absurd hp hrunning
      | streaming =>
        have hresolver := (h.reading hp).resolver
        simp only [hresolver, Bool.false_and, Bool.false_eq_true, if_false]
        exact h.patched hrunning id (by simp) (fun m => ⟨rfl, rfl⟩) rfl h.raw rfl hresolver.symm rfl rfl fun _ => rfl
      | revealing =>
        have hreveal := h.revealing hp
        cases hwaiting : w.page.waiting with
        | true =>
          simp only [Bool.not_false, Bool.and_self, if_true]
          exact complete_inv w.closed h.raw h.failed hreveal.answered hreveal.text rfl fun hno => absurd hno Bool.false_ne_true
        | false =>
          simp only [Bool.false_and, Bool.false_eq_true, if_false]
          exact h.patched hrunning id (by simp) (fun m => ⟨rfl, rfl⟩) rfl h.raw rfl hwaiting.symm rfl rfl fun _ => rfl
    · have hanswered : w.page.failed = false := by
        by_contra hfailed
        exact hshown (hguard (Bool.eq_true_of_not_eq_false hfailed))
      have hnone : lastError w.frames = none := by
        have hsome := h.failed
        rw [hanswered] at hsome
        exact Option.isNone_iff_eq_none.mp (Option.isSome_eq_false_iff.mp hsome.symm)
      have hwaiting : (w.page.drain fl ts).waiting = w.page.waiting := by
        rw [ChatPage.drain, if_neg hshown]
        rfl
      rw [hwaiting, Bool.and_not_self, if_neg Bool.false_ne_true, ChatPage.drain, if_neg hshown]
      cases hp : w.page.phase with
      | idle => exact absurd hp hrunning
      | streaming =>
        refine .of_reading hp h.raw h.failed ⟨(h.reading hp).unclosed, (h.reading hp).resolver, fun m _ message hlast => ?_⟩
        have hclash : none = some message := hnone.symm.trans hlast
        cases hclash
      | revealing => exact .of_revealing hp h.raw h.failed ⟨(h.revealing hp).closed, hanswered, (h.revealing hp).text⟩
  · simp [ChatPage.step, hraf] at hstep

theorem timer_inv (h : PageInv w) (hrunning : w.page.phase ≠ .idle) (timer : Bool) (fn : ThinkingMeta → ThinkingMeta) :
    PageInv ⟨{ w.page with rerankTimer := timer }.patchThinking fn, w.frames, w.closed⟩ :=
  h.patched hrunning (fun m => { m with thinkingMeta := fn m.thinkingMeta }) rfl (fun _ => ⟨rfl, rfl⟩) rfl h.raw rfl rfl rfl rfl
    fun _ => rfl

theorem PageInv.idle_step (h : PageInv w) (hidle : w.page.phase = .idle) {a : PageEvent} (ha : a ≠ .send) {w' : Watched}
    (hstep : watchStep fl w a = some w') : PageInv w' ∧ w'.page.phase = .idle ∧ w'.page.message = w.page.message := by
  obtain ⟨page', hpage, rfl⟩ := Option.map_eq_some_iff.mp hstep
  obtain ⟨hquiet, hsettled⟩ := h.idle hidle
  obtain ⟨hquiet', hmessage, hraw, hfailed⟩ := hquiet.step ha hpage
  have hsame : PageInv ⟨page', w.frames, w.closed⟩ := by
    refine .of_idle (hraw.trans h.raw) (hfailed.trans h.failed) hquiet' fun m hm => ?_
    obtain ⟨hended, hclosed, hanswered⟩ := hsettled m (hmessage.symm.trans hm)
    exact ⟨hended, hclosed, hanswered⟩
  cases a with
  | send => exact absurd rfl ha
  | frame f => simp [ChatPage.step, hidle] at hpage
  | close => simp [ChatPage.step, hidle] at hpage
  | fail failure => simp [ChatPage.step, hidle] at hpage
  | animate ts => exact ⟨hsame, hquiet'.phase, hmessage⟩
  | tick elapsedMs => exact ⟨hsame, hquiet'.phase, hmessage⟩
  | rerank => exact ⟨hsame, hquiet'.phase, hmessage⟩
  | stop => exact ⟨hsame, hquiet'.phase, hmessage⟩

/-- Every undisturbed event keeps what holds of the page. -/
theorem watchStep_inv (h : PageInv w) {a : PageEvent} (hguard : Undisturbed w a) {w' : Watched}
    (hstep : watchStep fl w a = some w') : PageInv w' := by
  by_cases hidle : w.page.phase = .idle
  · by_cases hsend : a = .send
    · subst hsend
      simp only [watchStep, ChatPage.step, hidle, if_true, Option.map_some, Option.some.injEq] at hstep
      subst hstep
      refine .of_reading rfl rfl rfl ⟨rfl, (h.idle hidle).1.resolver, fun m _ message hlast => ?_⟩
      cases hlast
    · exact (h.idle_step hidle hsend hstep).1
  · obtain ⟨page', hpage, rfl⟩ := Option.map_eq_some_iff.mp hstep
    cases a with
    | send => simp [ChatPage.step, hidle] at hpage
    | frame f =>
      by_cases hphase : w.page.phase = .streaming
      · simp only [ChatPage.step, hphase, if_true, Option.some.injEq] at hpage
        subst hpage
        exact onFrame_inv h hphase f
      · simp [ChatPage.step, hphase] at hpage
    | animate ts => exact animate_inv h hidle hguard hpage
    | tick elapsedMs =>
      by_cases htimer : w.page.elapsedTimer = true
      · simp only [ChatPage.step, htimer, if_true, Option.some.injEq] at hpage
        subst hpage
        exact timer_inv h hidle w.page.rerankTimer _
      · simp [ChatPage.step, htimer] at hpage
    | rerank =>
      by_cases htimer : w.page.rerankTimer = true
      · simp only [ChatPage.step, htimer, if_true, Option.some.injEq] at hpage
        subst hpage
        exact timer_inv h hidle false _
      · simp [ChatPage.step, htimer] at hpage
    | stop =>
      by_cases hphase : w.page.phase = .streaming
      · simp only [ChatPage.step, hphase, if_true, Option.some.injEq] at hpage
        subst hpage
        have hunclosed := (h.reading hphase).unclosed
        show PageInv ⟨_, w.frames, w.closed⟩
        rw [hunclosed]
        exact failStream_inv h.raw h.failed .aborted
      · simp only [ChatPage.step, hphase, if_false, Option.some.injEq] at hpage
        subst hpage
        exact h
    | close =>
      by_cases hphase : w.page.phase = .streaming
      · simp only [ChatPage.step, hphase, if_true, Option.some.injEq] at hpage
        subst hpage
        exact closeStream_inv h hphase hguard
      · simp [ChatPage.step, hphase] at hpage
    | fail failure =>
      by_cases hphase : w.page.phase = .streaming
      · simp only [ChatPage.step, hphase, if_true, Option.some.injEq] at hpage
        subst hpage
        have hunclosed := (h.reading hphase).unclosed
        show PageInv ⟨_, w.frames, w.closed⟩
        rw [hunclosed]
        exact failStream_inv h.raw h.failed failure
      · simp [ChatPage.step, hphase] at hpage

theorem message_kept (h : PageInv w) (hidle : w.page.phase = .idle) {events : List PageEvent} (hevents : .send ∉ events)
    {w' : Watched} (hrun : runSteps (watchStep fl) w events = some w') :
    w'.page.message = w.page.message := by
  induction events generalizing w with
  | nil =>
    obtain rfl := Option.some.inj hrun
    rfl
  | cons a events ih =>
    obtain ⟨next, hnext, hrest⟩ := runSteps_cons.mp hrun
    have ha : a ≠ .send := fun heq => hevents (heq ▸ List.mem_cons_self)
    obtain ⟨hinv, hphase, hmessage⟩ := h.idle_step hidle ha hnext
    rw [ih hinv hphase (fun hmem => hevents (List.mem_cons_of_mem a hmem)) hrest, hmessage]

end

/-- In every run without a disturbance, the message of a send that has finished is as its frames say, and stays so
until the next send. -/
theorem message_settled {fl : ℚ → ℚ} {w : Watched} (h : Reaches (watchStep fl) Undisturbed Opened w) {m : ChatMessage}
    (hfinished : w.page.phase = .idle) (hm : w.page.message = some m) :
    SendSettled w m ∧ ∀ events w', .send ∉ events → runSteps (watchStep fl) w events = some w' →
      w'.page.message = some m := by
  have hinv : PageInv w := by
    refine h.invariant PageInv ?_ fun w a w' hw hguard hstep => watchStep_inv hw hguard hstep
    rintro _ rfl
    exact .of_idle rfl rfl ⟨rfl, rfl, by simp, rfl, rfl⟩ (by simp)
  refine ⟨(hinv.idle hfinished).2 m hm, fun events w' hevents hrun => ?_⟩
  rw [message_kept hinv hfinished hevents hrun, hm]

def openedPage : Watched := ⟨{}, [], false⟩

/-- An answer of two letters, shown by the second animation frame. -/
def typedRun : List PageEvent :=
  [.send, .frame (.token (jsLiteral "Hi")), .animate 16, .animate 1016, .frame .other, .close]

theorem message_settled_typed : ∃ w m, runSteps (watchStep id) openedPage typedRun = some w ∧ w.page.message = some m ∧
    m.content = jsLiteral "Hi" ∧ m.status = .done := by
  have hend : (runSteps (watchStep id) openedPage typedRun).map (fun w => (w.page.phase, w.closed, w.frames, w.page.message.isSome)) =
      some (.idle, true, [.token (jsLiteral "Hi"), .other], true) := by decide +kernel
  obtain ⟨w, hrun, hw⟩ := Option.map_eq_some_iff.mp hend
  simp only [Prod.mk.injEq] at hw
  obtain ⟨hfinished, hclosed, hframes, hsome⟩ := hw
  obtain ⟨m, hm⟩ := Option.isSome_iff_exists.mp hsome
  have hguard : Guarded (watchStep id) Undisturbed openedPage typedRun := by decide +kernel
  have hreach : Reaches (watchStep id) Undisturbed Opened w := (Reaches.start (show Opened openedPage from rfl)).runSteps hguard hrun
  have hsettled := (message_settled hreach hfinished hm).1.answered hclosed
  rw [hframes] at hsettled
  exact ⟨w, m, hrun, hm, hsettled rfl (List.cons_ne_nil _ _)⟩

/-- An error behind some text that is not shown yet. -/
def failingRun : List PageEvent :=
  [.send, .frame (.token (jsLiteral "Hi")), .animate 16, .frame (.error (jsLiteral "No answer")), .animate 32, .frame .other, .close]

/-- The animation frame behind the error hides it, and the message stays `streaming`. -/
theorem message_overwritten : ∃ w m, Reaches (watchStep id) unguarded Opened w ∧ w.page.phase = .idle ∧
    w.page.message = some m ∧ ¬ SendSettled w m := by
  have hend : (runSteps (watchStep id) openedPage failingRun).map (fun w => (w.page.phase, w.page.message.map ChatMessage.status)) =
      some (.idle, some .streaming) := by decide +kernel
  obtain ⟨w, hrun, hw⟩ := Option.map_eq_some_iff.mp hend
  simp only [Prod.mk.injEq] at hw
  obtain ⟨m, hm, hstatus⟩ := Option.map_eq_some_iff.mp hw.2
  refine ⟨w, m, reaches_of_runSteps rfl hrun, hw.1, hm, fun h => ?_⟩
  rcases h.ended with hdone | herror
  · cases hstatus.symm.trans hdone
  · cases hstatus.symm.trans herror

end ProRag
