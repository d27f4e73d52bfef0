import ProRag.Admin.Preview
import ProRag.Chat.Router
import ProRag.Ingest.Embedding
import ProRag.Retrieve.Router

/-!
# Durable costs

A cost is staged when a call returns and becomes durable only where a later step commits.  For each
endpoint: the condition, on what the request meets, under which the committed rows are exactly those of the
completions that returned.
-/

namespace ProRag

open Framework

/-- A request that may reach the models. -/
inductive LlmRequest
  | chat (env : ChatEnv) (req : ChatRequest) (user : Option User)
  | chatStream (env : StreamEnv) (req : ChatRequest) (user : Option User)
  | search (env : QueryEnv) (q : String) (k : Int) (user : Option User)
  | previewRule (env : PreviewEnv)
  | ingest (env : IngestEnv)

def tracked (events : List RequestEvent) : List Completion := events.flatMap RequestEvent.completions

section

variable (settings : Settings) (completionCost : CompletionCost)

/-- The session of a request, run over the committed rows of `usage`. -/
def LlmRequest.run (usage : List Usage) : LlmRequest → Uow Usage RequestEvent
  | .chat env req user => (ProRag.chat settings completionCost req user env).request usage
  | .chatStream env req user => (ProRag.chatStream settings completionCost req user env).request usage
  | .search env q k user => (ProRag.search settings completionCost env q k user).request usage
  | .previewRule env => (ProRag.previewRule settings completionCost env).request usage
  | .ingest env => (ingestUpload settings completionCost env).request usage

def ChatEnv.cited (env : ChatEnv) (hits : List Hit) : Except PyError (Text × List Source) :=
  env.answer >>= LlmResponse.content >>= fun rawAnswer => citeAnswer rawAnswer hits

/-- `/chat` keeps its costs: `retrieve` commits what it has, and so does the exchange behind an answer. -/
def ChatEnv.Durable (env : ChatEnv) (req : ChatRequest) (user : Option User) : Prop :=
  env.budget.isOk = true →
    (tracked (env.retrieval.events settings req.message user) = [] ∨ env.retrieval.lands settings req.message user = true) ∧
    ∀ r, env.retrieval.retrieved settings req.message user = .ok r → env.answer.isOk = true →
      (env.cited r.1).isOk = true ∧ env.persist.stores req.chatId = true

/-- The exchange of a stream, and with it the cost of the answer, becomes durable. -/
def StreamEnv.writes (env : StreamEnv) (req : ChatRequest) (before : List Frame) : Bool :=
  (env.read before).2.result.isOk && !env.gone ((env.read before).1.frames ++ tailFrames (env.read before).1) &&
    env.persist.stores req.chatId

/-- `/chat/stream` keeps its costs: it writes just what has returned. -/
def StreamEnv.Durable (env : StreamEnv) (req : ChatRequest) (user : Option User) : Prop :=
  ∀ warning, env.budget = .ok warning → env.gone [.retry] = false →
    (tracked (env.retrieval.events settings req.message user) = [] ∨ env.retrieval.lands settings req.message user = true) ∧
    ∀ r, env.retrieval.retrieved settings req.message user = .ok r →
      env.gone (.retry :: openingFrames req warning r) = false →
        env.writes req (.retry :: openingFrames req warning r) =
          (env.read (.retry :: openingFrames req warning r)).2.returns

def IngestEnv.commits (env : IngestEnv) : Bool :=
  (env.stored settings).isOk && !env.aborted && env.commit.lands

def IngestEnv.exception (env : IngestEnv) : Option PyError :=
  match env.stored settings >>= fun _ => if env.aborted then .ok () else env.commit.answer with
  | .ok _ => none
  | .error exc => if exc.isException then some exc else none

/-- The calls that return between the rollback and the commit of the handler. -/
def IngestEnv.recordEvents (env : IngestEnv) : List RequestEvent :=
  lateEvents settings (env.stragglers .rechecking) ++
    match env.recheck with
    | .ok (some _) => lateEvents settings (env.stragglers .recording)
    | _ => []

def IngestEnv.records (env : IngestEnv) : Bool :=
  match env.recheck with
  | .ok (some _) => env.failureCommit.lands
  | _ => false

/-- `/ingest` keeps its costs: no batch that has returned is rolled back or left. -/
def IngestEnv.Durable (env : IngestEnv) : Prop :=
  env.opening = .ok none →
    (tracked (env.storeEvents settings) = [] ∨ env.commits settings = true) ∧
    ((env.exception settings).isSome = true → tracked (lateEvents settings (env.stragglers .rollingBack)) = [] ∧
      (tracked (env.recordEvents settings) = [] ∨ env.records = true)) ∧
    tracked (lateEvents settings (env.stragglers .closing)) = []

def LlmRequest.Durable : LlmRequest → Prop
  | .chat env req user => env.Durable settings req user
  | .chatStream env req user => env.Durable settings req user
  | .search env q _ _ => tracked (env.events settings q none) = []
  | .previewRule env => tracked (env.events settings) = []
  | .ingest env => env.Durable settings

end

section

variable {settings : Settings} {completionCost : CompletionCost}

theorem rows_eq (events : List RequestEvent) :
    events.flatMap (usageRows settings completionCost) = (tracked events).map (usageRow settings completionCost) := by
  unfold tracked usageRows
  rw [List.map_flatMap]

@[simp] theorem rows_eq_nil (events : List RequestEvent) :
    events.flatMap (usageRows settings completionCost) = [] ↔ tracked events = [] := by
  rw [rows_eq, List.map_eq_nil_iff]

@[simp] theorem tracked_append (l l' : List RequestEvent) : tracked (l ++ l') = tracked l ++ tracked l' :=
  List.flatMap_append

theorem search_settles (env : QueryEnv) (q : String) (k : Int) (user : Option User) :
    Settles (usageRows settings completionCost) (search settings completionCost env q k user)
      (tracked (env.events settings q none) = []) := by
  have hplan : Stages (usageRows settings completionCost) (planAndGather settings completionCost env q user none)
      (env.gathered settings q user) (env.events settings q none) := planAndGather_stages
  have hstages := hplan.bind_quiet fun g => Stages.pure (searchResponse settings env k g.1 g.2)
  exact (Settles.of_stages hstages).congr (rows_eq_nil _)

theorem previewRule_settles (env : PreviewEnv) :
    Settles (usageRows settings completionCost) (previewRule settings completionCost env)
      (tracked (env.events settings) = []) := by
  have hstaged : ∃ r, Stages (usageRows settings completionCost) (previewRule settings completionCost env) r
      (env.events settings) := previewRule_stages env
  obtain ⟨r, hstages⟩ := hstaged
  exact (Settles.of_stages hstages).congr (rows_eq_nil _)

theorem settles_retrieve {α : Type} (env : RetrievalEnv) (message : String) (user : Option User)
    {k : List Hit × String → RequestTx α} {durable : List Hit × String → Prop}
    (hk : ∀ r, Settles (usageRows settings completionCost) (k r) (durable r)) :
    Settles (usageRows settings completionCost) (retrieve settings completionCost env message user >>= k)
      ((tracked (env.events settings message user) = [] ∨ env.lands settings message user = true) ∧
        ∀ r, env.retrieved settings message user = .ok r → durable r) := by
  have hshape : retrieve settings completionCost env message user >>= k =
      (refine settings completionCost env message user >>= fun cleaned =>
        planAndGather settings completionCost env.toQueryEnv cleaned user (idOf user) >>= fun g => pure (g, cleaned)) >>=
      fun r => Tx.commit env.commit >>= fun _ =>
        k (rankHits settings env.rerankApi env.normalizeTitle r.1.1 r.1.2, r.2) := by
    unfold retrieve
    rw [Tx.bind_assoc]
    refine congrArg _ (funext fun r => ?_)
    rw [Tx.bind_assoc]
    rfl
  rw [hshape]
  refine (Settles.commit_bind found_stages fun r => hk _).congr ?_
  rw [rows_eq_nil]
  unfold RetrievalEnv.lands RetrievalEnv.retrieved
  rw [Bool.and_eq_true]
  refine and_congr_right fun _ => ?_
  constructor
  · intro h r hr
    obtain ⟨found, hfound, hr⟩ := bind_eq_ok.mp hr
    obtain ⟨_, hcommit, hr⟩ := bind_eq_ok.mp hr
    cases hr
    exact h found hfound hcommit
  · intro h found hfound hcommit
    refine h _ ?_
    rw [hfound, hcommit]
    rfl

theorem settles_persist {α β : Type} {t : RequestTx α} {r : Except PyError α} {l : List RequestEvent}
    (ht : Stages (usageRows settings completionCost) t r l) (env : PersistEnv) (given : Option Uuid) (message : String)
    (text : α → String) (sources : α → List Source) (k : α → Uuid × Uuid → β) :
    Settles (usageRows settings completionCost)
      (t >>= fun a => persistExchange env given message (text a) (sources a) >>= fun ids => pure (k a ids))
      (tracked l = [] ∨ (r.isOk = true ∧ env.stores given = true)) := by
  let target : Except PyError Uuid := env.chat given >>= fun chatId => env.flush given chatId >>= fun _ => .ok chatId
  let stored (a : α) (chatId : Uuid) : List RequestEvent :=
    if env.commit.lands then [.stored (env.exchange given chatId message (text a) (sources a))] else []
  have hopen : ∀ a, Stages (usageRows settings completionCost)
      (Tx.await target >>= fun chatId => Tx.recordAll (stored a chatId) >>= fun _ => pure (a, chatId))
      (target >>= fun chatId => .ok (a, chatId)) (logAfter target (stored a)) := by
    intro a
    refine Stages.await_bind fun chatId => ?_
    have hnone : (stored a chatId).flatMap (usageRows settings completionCost) = [] := by
      rw [rows_eq_nil]
      show tracked (if env.commit.lands then _ else _) = []
      split <;> rfl
    exact (Stages.recordAll hnone).bind_quiet fun _ => Stages.pure (a, chatId)
  have hshape : (t >>= fun a => persistExchange env given message (text a) (sources a) >>= fun ids => pure (k a ids)) =
      (t >>= fun a => Tx.await target >>= fun chatId => Tx.recordAll (stored a chatId) >>= fun _ => pure (a, chatId)) >>=
      fun p => Tx.commit env.commit >>= fun _ => pure (k p.1 (p.2, env.assistantMessageId)) := by
    rw [Tx.bind_assoc]
    refine congrArg _ (funext fun a => ?_)
    unfold persistExchange
    simp only [Tx.bind_assoc]
    rfl
  rw [hshape]
  refine (Settles.commit_bind (ht.bind hopen) fun p => Settles.pure _).congr ?_
  rw [rows_eq_nil, tracked_append]
  have hlog : tracked (logAfter r fun a => logAfter target (stored a)) = [] := by
    cases r with
    | error e => rfl
    | ok a =>
      cases target with
      | error e => rfl
      | ok chatId =>
        show tracked (if env.commit.lands then _ else _) = []
        split <;> rfl
  rw [hlog, List.append_nil]
  have htarget : (env.chat given >>= fun chatId => env.flush given chatId).isOk = target.isOk := by
    show _ = (env.chat given >>= fun chatId => env.flush given chatId >>= fun _ => Except.ok chatId).isOk
    cases hchat : env.chat given with
    | error e => rfl
    | ok chatId =>
      show (env.flush given chatId).isOk = (env.flush given chatId >>= fun _ => Except.ok chatId).isOk
      cases env.flush given chatId with
      | _ => rfl
  have hstores : env.stores given = true ↔ target.isOk = true ∧ env.commit.lands = true := by
    unfold PersistEnv.stores
    rw [Bool.and_eq_true, htarget]
  have hresult : (r >>= fun a => target >>= fun chatId => Except.ok (a, chatId)).isOk = (r.isOk && target.isOk) := by
    cases r with
    | error e => rfl
    | ok a =>
      show (target >>= fun chatId => Except.ok (a, chatId)).isOk = target.isOk
      cases target with
      | _ => rfl
  rw [hstores, hresult, Bool.and_eq_true]
  constructor
  · intro h
    exact h.1.imp id fun hok => ⟨hok.1.1, hok.1.2, hok.2⟩
  · intro h
    exact ⟨h.imp id fun hok => ⟨⟨hok.1, hok.2.1⟩, hok.2.2⟩, fun _ _ _ => trivial⟩

theorem chat_settles (env : ChatEnv) (req : ChatRequest) (user : Option User) :
    Settles (usageRows settings completionCost) (chat settings completionCost req user env) (env.Durable settings req user) := by
  have hanswer : ∀ warning (r : List Hit × String), Settles (usageRows settings completionCost)
      (answer settings completionCost (idOf user) env.answer >>= fun rawAnswer =>
        Tx.await (citeAnswer rawAnswer r.1) >>= fun cited =>
          persistExchange env.persist req.chatId req.message (String.ofList cited.1) cited.2 >>= fun ids =>
            (pure ⟨String.ofList cited.1, cited.2, ids.2, warning⟩ : RequestTx ChatResponse))
      (env.answer.isOk = true → (env.cited r.1).isOk = true ∧ env.persist.stores req.chatId = true) := by
    intro warning r
    have hcite : Stages (usageRows settings completionCost)
        (answer settings completionCost (idOf user) env.answer >>= fun rawAnswer => Tx.await (citeAnswer rawAnswer r.1))
        (env.cited r.1) [callOf .answer settings.answerModel (idOf user) env.answer] :=
      (trackedCall_stages .answer settings.answerModel (idOf user) env.answer).bind_quiet fun raw => Stages.await _
    have hpersist := settles_persist hcite env.persist req.chatId req.message (fun cited => String.ofList cited.1)
      Prod.snd fun cited ids => (⟨String.ofList cited.1, cited.2, ids.2, warning⟩ : ChatResponse)
    rw [Tx.bind_assoc] at hpersist
    refine hpersist.congr ?_
    cases env.answer with
    | error e =>
      refine ⟨fun _ h => ?_, fun _ => Or.inl rfl⟩
      cases h
    | ok resp =>
      constructor
      · intro h _
        exact h.resolve_left (List.cons_ne_nil _ _)
      · intro h
        exact Or.inr (h rfl)
  have hchat := Settles.await_bind (r := env.budget) fun warning =>
    settles_retrieve env.retrieval req.message user (hanswer warning)
  refine hchat.congr ?_
  unfold ChatEnv.Durable
  cases env.budget with
  | error e =>
    refine ⟨fun _ h => ?_, fun _ _ h => ?_⟩
    · cases h
    · cases h
  | ok warning =>
    constructor
    · intro h _
      exact h warning rfl
    · intro h _ _
      exact h rfl

theorem sent_untracked (frames : List Frame) : tracked (frames.map .sent) = [] := by
  unfold tracked
  induction frames with
  | nil => rfl
  | cons f fs ih => exact ih

theorem send_after {α : Type} (t : RequestTx α) (gone : List Frame → Bool) (before : List Frame) (frames : α → List Frame)
    (u : Uow Usage RequestEvent) : ∃ extra, tracked extra = [] ∧
      ((t >>= fun a => send gone before (frames a)) u).2 = { (t u).2 with log := (t u).2.log ++ extra } := by
  rw [Tx.bind_apply]
  cases t u with
  | mk r u' =>
    cases r with
    | error e => exact ⟨[], rfl, by rw [List.append_nil]⟩
    | ok a => exact ⟨(frames a).map .sent, sent_untracked _, rfl⟩

theorem send_settles {α : Type} (gone : List Frame → Bool) (before frames : List Frame) {f : Unit → RequestTx α}
    {durable : Prop} (hf : ∀ x, Settles (usageRows settings completionCost) (f x) durable) :
    Settles (usageRows settings completionCost) (send gone before frames >>= f)
      (gone (before ++ frames) = false → durable) := by
  unfold send
  rw [Tx.bind_assoc]
  have hawait := Settles.await_bind (r := if gone (before ++ frames) then .error disconnected else .ok ()) hf
  refine (Settles.record_bind ((rows_eq_nil _).mpr (sent_untracked frames)) hawait).congr ?_
  cases gone (before ++ frames) with
  | true =>
    refine ⟨fun _ h => ?_, fun _ _ h => ?_⟩
    · cases h
    · cases h
  | false => exact ⟨fun h _ => h () rfl, fun h _ _ => h rfl⟩

theorem returns_of_error {stop : StreamStop} {e : PyError} (h : stop.result = .error e) : stop.returns = false := by
  cases stop with
  | raised exc => rfl
  | _ => cases h

theorem events_rows (user : Option User) (env : StreamEnv) (r : List Hit × String) (before : List Frame)
    {extra : List RequestEvent} (hextra : tracked extra = []) :
    (env.events settings user r before ++ extra).flatMap (usageRows settings completionCost) =
      if (env.read before).2.returns then
        [usageRow settings completionCost (env.completion settings user r (env.read before).1)]
      else [] := by
  have hevents : tracked (env.events settings user r before) =
      if (env.read before).2.returns then [env.completion settings user r (env.read before).1] else [] := by
    unfold StreamEnv.events
    rw [tracked_append, sent_untracked, List.nil_append]
    show (if (env.read before).2.returns then some _ else none).toList ++ [] = _
    cases (env.read before).2.returns with
    | _ => rfl
  rw [rows_eq, tracked_append, hextra, List.append_nil, hevents]
  cases (env.read before).2.returns with
  | _ => rfl

theorem finishStream_spec (req : ChatRequest) (user : Option User) (env : StreamEnv) (r : List Hit × String)
    (st : StreamState) (u : Uow Usage RequestEvent) :
    (env.gone (st.frames ++ tailFrames st) = true ∧ finishStream settings completionCost req user env r st u =
      (.error disconnected, { u with log := u.log ++ (tailFrames st).map .sent })) ∨
    (env.gone (st.frames ++ tailFrames st) = false ∧ ∃ extra, tracked extra = [] ∧
      ((env.persist.stores req.chatId = true ∧ (finishStream settings completionCost req user env r st u).2 =
          ⟨u.committed ++ (u.staged ++ [usageRow settings completionCost (env.completion settings user r st)]), [],
            u.log ++ ((tailFrames st).map .sent ++ extra)⟩) ∨
        (env.persist.stores req.chatId = false ∧ (finishStream settings completionCost req user env r st u).2 =
          ⟨u.committed, u.staged ++ [usageRow settings completionCost (env.completion settings user r st)],
            u.log ++ ((tailFrames st).map .sent ++ extra)⟩))) := by
  cases hgone : env.gone (st.frames ++ tailFrames st) with
  | true =>
    left
    refine ⟨rfl, ?_⟩
    unfold finishStream send
    rw [hgone]
    rfl
  | false =>
    right
    let u' : Uow Usage RequestEvent := ⟨u.committed,
      u.staged ++ [usageRow settings completionCost (env.completion settings user r st)], u.log ++ (tailFrames st).map .sent⟩
    let persist := persistExchange env.persist req.chatId req.message
      (String.ofList (normalizeCitations st.rawAnswer)) ((allSources r.1).filter fun s => s.n ∈ st.citedSeen)
    have hrun : finishStream settings completionCost req user env r st u =
        (persist >>= fun ids => send env.gone (st.frames ++ tailFrames st)
          [.metaInfo ids.2 ids.1 st.citedSeen, .done]) u' := by
      unfold finishStream
      rw [Tx.bind_apply]
      unfold send
      rw [hgone]
      rfl
    obtain ⟨extra, hextra, hsent⟩ := send_after persist env.gone (st.frames ++ tailFrames st)
      (fun ids => [.metaInfo ids.2 ids.1 st.citedSeen, .done]) u'
    rw [hrun, hsent]
    rcases persistExchange_spec u' with ⟨hstores, chatId, _, hpersist⟩ | ⟨hstores, hpersist⟩
    · refine ⟨rfl, .stored (env.persist.exchange req.chatId chatId req.message (String.ofList (normalizeCitations st.rawAnswer))
        ((allSources r.1).filter fun s => s.n ∈ st.citedSeen)) :: extra, hextra, Or.inl ⟨hstores, ?_⟩⟩
      rw [hpersist]
      simp [Uow.flush, u']
    · refine ⟨rfl, extra, hextra, Or.inr ⟨hstores, ?_⟩⟩
      rw [hpersist]
      simp [u']

/-- The cost of a streamed answer is written just where its exchange is. -/
theorem finishStream_settles (req : ChatRequest) (user : Option User) (env : StreamEnv) (r : List Hit × String)
    (before : List Frame) : Settles (usageRows settings completionCost)
      (Tx.recordAll (env.events settings user r before) >>= fun _ => Tx.await (env.read before).2.result >>= fun _ =>
        finishStream settings completionCost req user env r (env.read before).1)
      (env.writes req before = (env.read before).2.returns) := by
  intro committed before'
  have htail : tracked ((tailFrames (env.read before).1).map .sent) = [] := sent_untracked _
  cases hstop : (env.read before).2.result with
  | error e =>
    have hwrites : env.writes req before = false := by
      unfold StreamEnv.writes
      rw [hstop]
      rfl
    refine ⟨[], env.events settings user r before ++ [], Or.inl (List.nil_sublist _), ?_, ?_⟩
    · rw [List.append_nil, List.append_nil]
      rfl
    · rw [events_rows user env r before rfl, hwrites, returns_of_error hstop]
      simp
  | ok _ =>
    have hrun : (Tx.recordAll (env.events settings user r before) >>= fun _ => Tx.await (.ok ()) >>= fun _ =>
        finishStream settings completionCost req user env r (env.read before).1 : RequestTx Unit) ⟨committed, [], before'⟩ =
          finishStream settings completionCost req user env r (env.read before).1
            ⟨committed, [], before' ++ env.events settings user r before⟩ := rfl
    rw [hrun]
    rcases finishStream_spec req user env r (env.read before).1
      ⟨committed, [], before' ++ env.events settings user r before⟩ with ⟨hgone, hends⟩ | ⟨hgone, extra, hextra, hends⟩
    · have hwrites : env.writes req before = false := by
        unfold StreamEnv.writes
        rw [hgone]
        simp
      refine ⟨[], env.events settings user r before ++ (tailFrames (env.read before).1).map .sent,
        Or.inl (List.nil_sublist _), ?_, ?_⟩
      · rw [hends, List.append_nil, List.append_assoc]
      · rw [events_rows user env r before htail, hwrites]
        cases (env.read before).2.returns with
        | _ => simp
    · have hwrites : env.writes req before = env.persist.stores req.chatId := by
        unfold StreamEnv.writes
        rw [hstop, hgone]
        rfl
      have hmore : tracked ((tailFrames (env.read before).1).map .sent ++ extra) = [] := by
        rw [tracked_append, htail, hextra]
        rfl
      rcases hends with ⟨hstores, hends⟩ | ⟨hstores, hends⟩
      · refine ⟨[usageRow settings completionCost (env.completion settings user r (env.read before).1)],
          env.events settings user r before ++ ((tailFrames (env.read before).1).map .sent ++ extra), ?_, ?_, ?_⟩
        · rw [events_rows user env r before hmore]
          cases (env.read before).2.returns with
          | true => exact Or.inl (List.Sublist.refl _)
          | false => exact Or.inr (List.nil_sublist _)
        · rw [hends]
          simp
        · rw [events_rows user env r before hmore, hwrites, hstores]
          cases (env.read before).2.returns with
          | _ => simp
      · refine ⟨[], env.events settings user r before ++ ((tailFrames (env.read before).1).map .sent ++ extra),
          Or.inl (List.nil_sublist _), ?_, ?_⟩
        · rw [hends]
          simp
        · rw [events_rows user env r before hmore, hwrites, hstores]
          cases (env.read before).2.returns with
          | _ => simp

theorem chatStream_settles (env : StreamEnv) (req : ChatRequest) (user : Option User) :
    Settles (usageRows settings completionCost) (chatStream settings completionCost req user env)
      (env.Durable settings req user) := by
  have hfinish : ∀ warning (r : List Hit × String), Settles (usageRows settings completionCost)
      (send env.gone [.retry] (openingFrames req warning r) >>= fun _ =>
        Tx.recordAll (env.events settings user r (.retry :: openingFrames req warning r)) >>= fun _ =>
          Tx.await (env.read (.retry :: openingFrames req warning r)).2.result >>= fun _ =>
            finishStream settings completionCost req user env r (env.read (.retry :: openingFrames req warning r)).1)
      (env.gone (.retry :: openingFrames req warning r) = false →
        env.writes req (.retry :: openingFrames req warning r) =
          (env.read (.retry :: openingFrames req warning r)).2.returns) := fun warning r =>
    send_settles env.gone [.retry] (openingFrames req warning r) fun _ => finishStream_settles req user env r _
  have hframes := fun warning => settles_retrieve env.retrieval req.message user (hfinish warning)
  have hcaught := fun warning => (hframes warning).tryCatch_record PyError.isException
    ((rows_eq_nil _).mpr (sent_untracked [.error streamError, .done]))
  have hall := Settles.await_bind (r := env.budget) fun warning =>
    send_settles env.gone [] [.retry] fun _ => hcaught warning
  exact hall

end

end ProRag
