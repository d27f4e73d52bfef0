import ProRag.Chat.Citations

/-!
# The answer stream

`TokenGuard`, the frames of `/chat/stream`, and the loop that reads the answer.
-/

namespace ProRag

def whitespaceRunawayLimit : Nat := 200

def heartbeatIntervalSeconds : ℚ := 15

/-- `TRUNCATION_NOTICE`. -/
def truncationNotice : Text := "\n\n_[response truncated: repeated whitespace]_".toList

structure TokenGuard where
  whitespaceLimit : Nat := whitespaceRunawayLimit
  pending : Text := []
  wsRun : Nat := 0
  done : Bool := false
deriving DecidableEq

/-- `pending.lstrip().startswith("|")`. -/
def startsTableRow (pending : Text) : Bool := (pending.dropWhile isPySpace).head? = some '|'

namespace TokenGuard

/-- One turn of the loop of `feed`. -/
def feedChar (g : TokenGuard) (ch : Char) : Text × TokenGuard :=
  let pending := g.pending ++ [ch]
  let wsRun := if isPySpace ch then g.wsRun + 1 else 0
  if g.whitespaceLimit ≤ wsRun then
    (pending ++ truncationNotice, { g with pending := [], wsRun := wsRun, done := true })
  else if ch = '\n' ∨ startsTableRow pending = false then
    (pending, { g with pending := [], wsRun := wsRun })
  else ([], { g with pending := pending, wsRun := wsRun })

/-- `feed(token)`. -/
def feed (g : TokenGuard) : Text → Text × TokenGuard
  | [] => ([], g)
  | ch :: token =>
    if g.done then ([], g)
    else
      let now := g.feedChar ch
      let later := now.2.feed token
      (now.1 ++ later.1, later.2)

/-- `flush()`. -/
def flush (g : TokenGuard) : Text × TokenGuard := (g.pending, { g with pending := [] })

end TokenGuard

/-- The frames `/chat/stream` sends. -/
inductive Frame
  | retry
  | comment
  | sources (sources : List Source)
  | prefill (cleaned : String)
  | budget (warning : String)
  | token (t : Text)
  | citation (n : Nat)
  | metaInfo (messageId chatId : Uuid) (cited : List Nat)
  | error (message : String)
  | done
deriving DecidableEq

/-- A chunk of the provider's stream: its usage, and the delta of its first choice. -/
structure ProviderChunk where
  usage : Option (Nat × Nat)
  delta : Option (Option Text × Option Text)
deriving DecidableEq

/-- What `answer_stream` yields. -/
inductive StreamItem
  | usage (promptTokens completionTokens : Nat)
  | thinking (delta : Text)
  | answer (delta : Text)
deriving DecidableEq

/-- A text that is there and not empty. -/
def nonEmpty (text : Option Text) : List Text := text.toList.filter fun t => t ≠ []

/-- The body of `answer_stream`'s loop: a delta holds a reasoning and a content. -/
def ProviderChunk.items (chunk : ProviderChunk) : List StreamItem :=
  (chunk.usage.toList.map fun u => .usage u.1 u.2) ++
    match chunk.delta with
    | none => []
    | some (reasoning, content) => (nonEmpty reasoning).map .thinking ++ (nonEmpty content).map .answer

/-- How the provider's stream ends. -/
inductive StreamEnd
  | exhausted
  | raises (exc : PyError)

/-- Why the loop was left: the stream ended, the guard cut it, a wait ran into the heartbeat, or an
exception came up. -/
inductive StreamStop
  | exhausted
  | guarded
  | silent
  | raised (exc : PyError)

/-- The variables of `_stream_frames`, and the frames it has sent. -/
structure StreamState where
  rawAnswer : Text := []
  guard : TokenGuard := {}
  citedSeen : List Nat := []
  usage : Option (Nat × Nat) := none
  frames : List Frame
deriving DecidableEq

/-- A cited number that has not been seen yet is sent. -/
def StreamState.cite (st : StreamState) (n : Nat) : StreamState :=
  if n ∈ st.citedSeen then st
  else { st with citedSeen := st.citedSeen ++ [n], frames := st.frames ++ [.citation n] }

/-- One item of the stream; the token goes out before the markers are read. -/
def StreamState.step (st : StreamState) : StreamItem → StreamState × Except PyError Unit
  | .usage promptTokens completionTokens => ({ st with usage := some (promptTokens, completionTokens) }, .ok ())
  | .thinking _ => (st, .ok ())
  | .answer delta =>
    let rawAnswer := st.rawAnswer ++ delta
    let fed := st.guard.feed delta
    let sent := if fed.1 = [] then [] else [Frame.token fed.1]
    let st := { st with rawAnswer := rawAnswer, guard := fed.2, frames := st.frames ++ sent }
    match extractCitedIndices (normalizeCitations rawAnswer) with
    | .error exc => (st, .error exc)
    | .ok cited => (cited.foldl StreamState.cite st, .ok ())

def disconnected : PyError := ⟨"CancelledError", ""⟩

/-- The loop over the stream.  A wait of the heartbeat interval cancels the generator it waits for, so
that the next `__anext__` finds it at its end.  `gone` says for the frames sent whether the client is still there. -/
def readStream (waits : Nat → ℚ) (gone : List Frame → Bool) (ending : StreamEnd) :
    Nat → List StreamItem → StreamState → StreamState × StreamStop
  | i, [], st =>
    if heartbeatIntervalSeconds ≤ waits i then
      let st := { st with frames := st.frames ++ [.comment] }
      if gone st.frames then (st, .raised disconnected) else (st, .silent)
    else match ending with
      | .exhausted => (st, .exhausted)
      | .raises exc => (st, .raised exc)
  | i, item :: items, st =>
    if heartbeatIntervalSeconds ≤ waits i then
      let st := { st with frames := st.frames ++ [.comment] }
      if gone st.frames then (st, .raised disconnected) else (st, .silent)
    else
      let next := st.step item
      if gone next.1.frames then (next.1, .raised disconnected)
      else match next.2 with
        | .error exc => (next.1, .raised exc)
        | .ok _ =>
          if next.1.guard.done then (next.1, .guarded)
          else readStream waits gone ending (i + 1) items next.1

end ProRag
