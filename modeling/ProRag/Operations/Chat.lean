import ProRag.Llm.Calls

/-!
# Chat persistence

`persist_exchange`, the writer of both chat endpoints.
-/

namespace ProRag

open Framework

/-- What `persist_exchange` meets: the chats there are, the fresh ids, and how its flushes and its
commit end. -/
structure PersistEnv where
  chats : List Uuid
  newChatId : Uuid
  userMessageId : Uuid
  assistantMessageId : Uuid
  flushChat : Except PyError Unit
  flushMessages : Except PyError Unit
  commit : CommitOutcome PyError

/-- The chat of the exchange, a new one where the request names none. -/
def PersistEnv.chat (env : PersistEnv) : Option Uuid → Except PyError Uuid
  | none => env.flushChat.map fun _ => env.newChatId
  | some chatId => .ok chatId

/-- The flush of the messages, which refer to their chat. -/
def PersistEnv.flush (env : PersistEnv) (given : Option Uuid) (chatId : Uuid) : Except PyError Unit :=
  if given.isSome ∧ chatId ∉ env.chats then .error ⟨"IntegrityError", "messages_chat_id_fkey"⟩ else env.flushMessages

def citationOf (messageId : Uuid) (s : Source) : Citation := ⟨messageId, s.n, s.docId, s.page, s.bbox⟩

def PersistEnv.exchange (env : PersistEnv) (given : Option Uuid) (chatId : Uuid) (userMessage answerText : String)
    (citedSources : List Source) : Exchange where
  newChat := if given.isSome then none else some chatId
  messages := [⟨env.userMessageId, chatId, .user, userMessage⟩, ⟨env.assistantMessageId, chatId, .assistant, answerText⟩]
  citations := citedSources.map (citationOf env.assistantMessageId)

/-- `persist_exchange(session, chat_id, user_message, answer_text, cited_sources)`. -/
def persistExchange (env : PersistEnv) (given : Option Uuid) (userMessage answerText : String)
    (citedSources : List Source) : RequestTx (Uuid × Uuid) :=
  Tx.await (env.chat given >>= fun chatId => env.flush given chatId >>= fun _ => .ok chatId) >>= fun chatId =>
    Tx.recordAll (if env.commit.lands then [.stored (env.exchange given chatId userMessage answerText citedSources)] else []) >>=
      fun _ => Tx.commit env.commit >>= fun _ => pure (chatId, env.assistantMessageId)

def PersistEnv.stores (env : PersistEnv) (given : Option Uuid) : Bool :=
  (env.chat given >>= fun chatId => env.flush given chatId).isOk && env.commit.lands

variable {env : PersistEnv} {given : Option Uuid} {userMessage answerText : String} {citedSources : List Source}

/-- An exchange that becomes durable takes with it what was staged, and one that does not changes nothing. -/
theorem persistExchange_spec (u : Uow Usage RequestEvent) :
    (env.stores given = true ∧ ∃ chatId, env.chat given = .ok chatId ∧
      (persistExchange env given userMessage answerText citedSources u).2 = { u.flush with
        log := u.log ++ [.stored (env.exchange given chatId userMessage answerText citedSources)] }) ∨
    (env.stores given = false ∧ (persistExchange env given userMessage answerText citedSources u).2 = u) := by
  unfold persistExchange PersistEnv.stores
  cases hchat : env.chat given with
  | error e => exact Or.inr ⟨rfl, rfl⟩
  | ok chatId =>
    have hopen : (Except.ok chatId >>= fun id => env.flush given id >>= fun _ => Except.ok id) =
        env.flush given chatId >>= fun _ => Except.ok chatId := rfl
    have hstores : (Except.ok chatId >>= fun id => env.flush given id) = env.flush given chatId := rfl
    rw [hopen, hstores]
    cases env.flush given chatId with
    | error e => exact Or.inr ⟨rfl, rfl⟩
    | ok _ =>
      cases hcommit : env.commit with
      | durable => exact Or.inl ⟨rfl, chatId, rfl, rfl⟩
      | unacknowledged e => exact Or.inl ⟨rfl, chatId, rfl, rfl⟩
      | raised e =>
        refine Or.inr ⟨rfl, ?_⟩
        show { u with log := u.log ++ [] } = u
        rw [List.append_nil]

end ProRag
