import ProRag.Chat.Guard
import ProRag.Chat.Markers
import ProRag.Chat.Router

/-!
# A stream that is read to its end

The whole course of `/chat/stream` and of `/chat` for a client that stays.
-/

namespace ProRag

open Framework

/-- What `persist_exchange` returns. -/
def PersistEnv.persisted (env : PersistEnv) (given : Option Uuid) : Except PyError (Uuid × Uuid) :=
  env.chat given >>= fun chatId => env.flush given chatId >>= fun _ => env.commit.answer >>= fun _ =>
    .ok (chatId, env.assistantMessageId)

def errorEvents (exc : PyError) : List RequestEvent :=
  if exc.isException then [.sent (.error streamError), .sent .done] else []

def lastEvents (cited : List Nat) : Except PyError (Uuid × Uuid) → List RequestEvent
  | .error exc => errorEvents exc
  | .ok ids => [.sent (.metaInfo ids.2 ids.1 cited), .sent .done]

def StreamEnv.exchange (env : StreamEnv) (req : ChatRequest) (hits : List Hit) (st : StreamState) : Exchange :=
  env.persist.exchange req.chatId (req.chatId.getD env.persist.newChatId) req.message
    (String.ofList (normalizeCitations st.rawAnswer)) ((allSources hits).filter fun s => s.n ∈ st.citedSeen)

/-- What follows the loop. -/
def StreamEnv.closing (env : StreamEnv) (req : ChatRequest) (hits : List Hit) (read : StreamState × StreamStop) :
    List RequestEvent :=
  match read.2.result with
  | .error exc => errorEvents exc
  | .ok _ =>
    (tailFrames read.1).map .sent ++
      (if env.persist.stores req.chatId then [.stored (env.exchange req hits read.1)] else []) ++
        lastEvents read.1.citedSeen (env.persist.persisted req.chatId)

section

variable {settings : Settings} {completionCost : CompletionCost}

theorem persistExchange_run (env : PersistEnv) (given : Option Uuid) (userMessage answerText : String)
    (citedSources : List Source) (u : Uow Usage RequestEvent) :
    persistExchange env given userMessage answerText citedSources u = (env.persisted given,
      if env.stores given then { u.flush with log := u.log ++ [.stored (env.exchange given (given.getD env.newChatId)
        userMessage answerText citedSources)] } else u) := by
  have hchat : ∀ chatId, env.chat given = .ok chatId → given.getD env.newChatId = chatId := by
    intro chatId h
    cases given with
    | some id => exact Except.ok.inj h
    | none =>
      unfold PersistEnv.chat at h
      cases hf : env.flushChat with
      | error e =>
        rw [hf] at h
        cases h
      | ok _ =>
        rw [hf] at h
        exact Except.ok.inj h
  unfold persistExchange PersistEnv.persisted PersistEnv.stores
  cases htarget : env.chat given with
  | error e => rfl
  | ok chatId =>
    rw [hchat chatId htarget]
    have hopen : (Except.ok chatId >>= fun id => env.flush given id >>= fun _ => Except.ok id) =
        env.flush given chatId >>= fun _ => Except.ok chatId := rfl
    have hstores : (Except.ok chatId >>= fun id => env.flush given id) = env.flush given chatId := rfl
    have hpersisted : (Except.ok chatId >>= fun id => env.flush given id >>= fun _ => env.commit.answer >>= fun _ =>
        Except.ok (id, env.assistantMessageId)) =
        env.flush given chatId >>= fun _ => env.commit.answer >>= fun _ => .ok (chatId, env.assistantMessageId) := rfl
    rw [hopen, hstores, hpersisted]
    cases env.flush given chatId with
    | error e => rfl
    | ok _ =>
      cases env.commit with
      | durable => rfl
      | unacknowledged e => rfl
      | raised e =>
        show (_, { u with log := u.log ++ [] }) = _
        rw [List.append_nil]
        rfl

theorem send_attended {gone : List Frame → Bool} (hstay : ∀ frames, gone frames = false) (before frames : List Frame)
    (u : Uow Usage RequestEvent) : send gone before frames u = (.ok (), { u with log := u.log ++ frames.map .sent }) := by
  unfold send
  rw [hstay]
  rfl

variable {env : StreamEnv} {req : ChatRequest} {user : Option User}

theorem finishStream_attended (hstay : ∀ frames, env.gone frames = false) (r : List Hit × String) (st : StreamState)
    (u : Uow Usage RequestEvent) :
    finishStream settings completionCost req user env r st u =
      let u' : Uow Usage RequestEvent := ⟨u.committed, u.staged ++ [usageRow settings completionCost (env.completion settings user r st)],
        u.log ++ (tailFrames st).map .sent⟩
      let v := if env.persist.stores req.chatId then
        { u'.flush with log := u'.log ++ [.stored (env.exchange req r.1 st)] } else u'
      match env.persist.persisted req.chatId with
      | .error exc => (.error exc, v)
      | .ok ids => (.ok (), { v with log := v.log ++ [.sent (.metaInfo ids.2 ids.1 st.citedSeen), .sent .done] }) := by
  unfold finishStream
  rw [Tx.bind_apply, send_attended hstay]
  simp only
  rw [Tx.bind_apply]
  simp only [trackUsage, Tx.add]
  rw [Tx.bind_apply, persistExchange_run]
  cases env.persist.persisted req.chatId with
  | error exc => rfl
  | ok ids =>
    simp only
    rw [send_attended hstay]
    rfl

theorem chatStream_attended (hstay : ∀ frames, env.gone frames = false) {warning : Option String} {r : List Hit × String}
    (hbudget : env.budget = .ok warning) (hr : env.retrieval.retrieved settings req.message user = .ok r)
    (usage : List Usage) :
    (chatStream settings completionCost req user env).request usage =
      let before := .retry :: openingFrames req warning r
      let read := env.read before
      ⟨usage ++ ((env.retrieval.events settings req.message user).flatMap (usageRows settings completionCost) ++
          if read.2.result.isOk && env.persist.stores req.chatId then
            [usageRow settings completionCost (env.completion settings user r read.1)] else []), [],
        [.sent .retry] ++ env.retrieval.events settings req.message user ++ (openingFrames req warning r).map .sent ++
          env.events settings user r before ++ env.closing req r.1 read⟩ := by
  let before := .retry :: openingFrames req warning r
  let read := env.read before
  let rows := (env.retrieval.events settings req.message user).flatMap (usageRows settings completionCost)
  let log := [.sent .retry] ++ env.retrieval.events settings req.message user ++
    (openingFrames req warning r).map .sent ++ env.events settings user r before
  let u : Uow Usage RequestEvent := ⟨usage ++ rows, [], log⟩
  have hframes : streamFrames settings completionCost req user env warning ⟨usage, [], [.sent .retry]⟩ =
      (Tx.await read.2.result >>= fun _ => finishStream settings completionCost req user env r read.1) u := by
    unfold streamFrames
    rw [Tx.bind_apply, retrieve_spec, hr, retrieved_lands hr]
    simp only
    rw [Tx.bind_apply, send_attended hstay]
    rfl
  have hrequest : (chatStream settings completionCost req user env).request usage =
      { (Tx.tryCatch PyError.isException (streamFrames settings completionCost req user env warning)
        (fun _ => Tx.recordAll [.sent (.error streamError), .sent .done]) ⟨usage, [], [.sent .retry]⟩).2 with staged := [] } := by
    unfold Tx.request chatStream
    rw [Tx.bind_apply, hbudget]
    show { ((send env.gone [] [.retry] >>= _) ⟨usage, [], []⟩ : _ × Uow Usage RequestEvent).2 with staged := [] } = _
    rw [Tx.bind_apply, send_attended hstay]
    rfl
  have hfailed : ∀ (exc : PyError) (v : Uow Usage RequestEvent),
      (if exc.isException then Tx.recordAll [.sent (.error streamError), .sent .done] v else (.error exc, v) :
        Except PyError Unit × Uow Usage RequestEvent).2 = { v with log := v.log ++ errorEvents exc } := by
    intro exc v
    unfold errorEvents
    split
    · rfl
    · simp
  rw [hrequest]
  unfold Tx.tryCatch StreamEnv.closing
  rw [hframes, Tx.bind_apply]
  show _ = (⟨usage ++ (rows ++ if read.2.result.isOk && env.persist.stores req.chatId then _ else []), [],
    log ++ match read.2.result with | .error exc => errorEvents exc | .ok _ => _⟩ : Uow Usage RequestEvent)
  cases hresult : read.2.result with
  | error exc =>
    simp only [Tx.await]
    rw [hfailed]
    simp [u, Except.isOk, Except.toBool]
  | ok _ =>
    simp only [Tx.await]
    rw [finishStream_attended hstay]
    cases hpersisted : env.persist.persisted req.chatId with
    | error exc =>
      simp only
      rw [hfailed]
      cases env.persist.stores req.chatId with
      | true => simp [u, read, before, Uow.flush, lastEvents, Except.isOk, Except.toBool]
      | false => simp [u, read, before, lastEvents, Except.isOk, Except.toBool]
    | ok ids =>
      cases env.persist.stores req.chatId with
      | true => simp [u, read, before, Uow.flush, lastEvents, Except.isOk, Except.toBool]
      | false => simp [u, read, before, lastEvents, Except.isOk, Except.toBool]

end

end ProRag
