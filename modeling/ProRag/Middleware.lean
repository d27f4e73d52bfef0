import Mathlib.Data.List.Infix
import ProRag.Models

/-!
# The compressing middleware

`GZipSkipSSEMiddleware`: the messages an application sends for one response, and those that reach the server.
-/

namespace ProRag

/-- A header; the bytes of its name and value are the characters of Latin-1. -/
abbrev Header := String × String

/-- What a middleware reads of `scope`. -/
structure Scope where
  type : String
  headers : List Header
deriving DecidableEq, Repr

/-- An ASGI message: a dictionary, whose keys may be absent. -/
structure AsgiMessage where
  type : Option String := none
  status : Option Nat := none
  headers : Option (List Header) := none
  body : Option Bytes := none
  moreBody : Option Bool := none
deriving DecidableEq, Repr

/-- `next((v for k, v in headers if k == name), b"")`. -/
def firstHeader (name : String) (headers : List Header) : String :=
  ((headers.find? fun h => h.1 = name).map Prod.snd).getD ""

/-- `k.lower() == name`. -/
def lowerIs (name k : String) : Bool :=
  k.toList.map Char.toLower = name.toList

def Header.named (name : String) (h : Header) : Bool := lowerIs name h.1

/-- `b"gzip" in accept_encoding`, of an HTTP request. -/
def Scope.compresses (scope : Scope) : Bool :=
  scope.type = "http" ∧ "gzip".toList <:+: (firstHeader "accept-encoding" scope.headers).toList

/-- `content_type.startswith(b"text/event-stream")`. -/
def AsgiMessage.skips (start : AsgiMessage) : Bool :=
  "text/event-stream".toList.isPrefixOf (firstHeader "content-type" (start.headers.getD [])).toList

/-- The variables of `send_wrapper`; `start_message` starts as the empty dictionary. -/
structure GzipState where
  startMessage : AsgiMessage := {}
  bodyChunks : List Bytes := []
  skip : Bool := false

/-- The headers other than `content-length`. -/
def otherHeaders (headers : List Header) : List Header :=
  headers.filter fun h => !h.named "content-length"

variable (minimumSize : Nat) (compress : Bytes → Bytes)

/-- The two messages that are sent once the body is complete. -/
def assembled (start : AsgiMessage) (content : Bytes) : List AsgiMessage :=
  let headers := otherHeaders (start.headers.getD [])
  let (body, headers) :=
    if minimumSize ≤ content.length then (compress content, headers ++ [("content-encoding", "gzip")])
    else (content, headers)
  [{ start with headers := some (headers ++ [("content-length", toString body.length)]) },
    { type := some "http.response.body", body := some body, moreBody := some false }]

/-- `send_wrapper(message)`, with what it sends. -/
def sendWrapper (st : GzipState) (message : AsgiMessage) : GzipState × List AsgiMessage :=
  if message.type = some "http.response.start" then
    if message.skips then ({ st with skip := true }, [message]) else ({ st with startMessage := message }, [])
  else if st.skip then (st, [message])
  else
    let st := { st with bodyChunks := st.bodyChunks ++ [message.body.getD []] }
    if message.moreBody.getD false then (st, []) else (st, assembled minimumSize compress st.startMessage st.bodyChunks.flatten)

def sendAll (st : GzipState) : List AsgiMessage → List AsgiMessage
  | [] => []
  | m :: ms => (sendWrapper minimumSize compress st m).2 ++ sendAll (sendWrapper minimumSize compress st m).1 ms

/-- `__call__(scope, receive, send)`: what is sent when the application sends `messages`. -/
def gzipSkipSse (scope : Scope) (messages : List AsgiMessage) : List AsgiMessage :=
  if scope.compresses then sendAll minimumSize compress {} messages else messages

/-- A complete response: one start, then body messages of which only the last has no more to come. -/
structure Response where
  start : AsgiMessage
  chunks : List AsgiMessage
  last : AsgiMessage
  startType : start.type = some "http.response.start"
  chunkType : ∀ m ∈ chunks, m.type = some "http.response.body" ∧ m.moreBody.getD false = true
  lastType : last.type = some "http.response.body" ∧ last.moreBody.getD false = false

def Response.messages (r : Response) : List AsgiMessage := r.start :: (r.chunks ++ [r.last])

def bodyBytes (messages : List AsgiMessage) : Bytes :=
  (messages.map fun m => m.body.getD []).flatten

def Response.content (r : Response) : Bytes := bodyBytes (r.chunks ++ [r.last])

variable {minimumSize compress}

theorem sendWrapper_skipped {st : GzipState} {m : AsgiMessage} (hskip : st.skip = true)
    (htype : m.type = some "http.response.body") : sendWrapper minimumSize compress st m = (st, [m]) := by
  simp [sendWrapper, htype, hskip]

theorem sendAll_skipped {st : GzipState} {ms : List AsgiMessage} (hskip : st.skip = true)
    (htype : ∀ m ∈ ms, m.type = some "http.response.body") : sendAll minimumSize compress st ms = ms := by
  induction ms with
  | nil => rfl
  | cons m ms ih =>
    rw [sendAll, sendWrapper_skipped hskip (htype m (by simp)), ih fun a ha => htype a (List.mem_cons_of_mem m ha)]
    rfl

theorem sendAll_held {st : GzipState} {ms : List AsgiMessage} {last : AsgiMessage} (hskip : st.skip = false)
    (hchunks : ∀ m ∈ ms, m.type = some "http.response.body" ∧ m.moreBody.getD false = true)
    (hlast : last.type = some "http.response.body" ∧ last.moreBody.getD false = false) :
    sendAll minimumSize compress st (ms ++ [last]) =
      assembled minimumSize compress st.startMessage (st.bodyChunks.flatten ++ bodyBytes (ms ++ [last])) := by
  induction ms generalizing st with
  | nil =>
    simp [sendAll, sendWrapper, hlast.1, hlast.2, hskip, bodyBytes]
  | cons m ms ih =>
    have hm := hchunks m (by simp)
    have hstep : sendWrapper minimumSize compress st m =
        ({ st with bodyChunks := st.bodyChunks ++ [m.body.getD []] }, []) := by
      simp [sendWrapper, hm.1, hm.2, hskip]
    have hrest := @ih { st with bodyChunks := st.bodyChunks ++ [m.body.getD []] } hskip
      fun a ha => hchunks a (List.mem_cons_of_mem m ha)
    rw [List.cons_append, sendAll, hstep, hrest]
    simp [bodyBytes]

theorem gzipSkipSse_eq (scope : Scope) (r : Response) : gzipSkipSse minimumSize compress scope r.messages =
    if scope.compresses ∧ ¬ r.start.skips then assembled minimumSize compress r.start r.content else r.messages := by
  rw [gzipSkipSse]
  cases hscope : scope.compresses with
  | false => simp
  | true =>
    rw [if_pos rfl, Response.messages, sendAll]
    cases hskips : r.start.skips with
    | true =>
      have htype : ∀ m ∈ r.chunks ++ [r.last], m.type = some "http.response.body" := by
        intro m hm
        rcases List.mem_append.mp hm with hm | hm
        · exact (r.chunkType m hm).1
        · rw [List.mem_singleton.mp hm]
          exact r.lastType.1
      have hstep : sendWrapper minimumSize compress {} r.start = ({ skip := true }, [r.start]) := by
        simp [sendWrapper, r.startType, hskips]
      rw [hstep, sendAll_skipped rfl htype]
      simp
    | false =>
      have hstep : sendWrapper minimumSize compress {} r.start = ({ startMessage := r.start }, []) := by
        simp [sendWrapper, r.startType, hskips]
      rw [hstep, sendAll_held rfl r.chunkType r.lastType]
      simp [Response.content]

/-! What a transparent middleware sends. -/

def headersNamed (name : String) (m : AsgiMessage) : List Header :=
  (m.headers.getD []).filter fun h => h.named name

/-- The response has a content encoding already, or it is a part of a file. -/
def Response.fixed (r : Response) : Bool :=
  headersNamed "content-encoding" r.start ≠ [] ∨
    (r.start.status = some 206 ∧ headersNamed "content-range" r.start ≠ [])

/-- Undoing an added content encoding. -/
def decodeAdded (decompress : Bytes → Option Bytes) (added : Option String) (body : Bytes) : Option Bytes :=
  match added with
  | none => some body
  | some encoding => if encoding = "gzip" then decompress body else none

/-- One start and one final body message: the body decodes to the response's, the other headers are kept in
order, and the only `content-length` is the length of the body. -/
structure SentWhole (decompress : Bytes → Option Bytes) (r : Response) (start last : AsgiMessage)
    (added : Option String) : Prop where
  startType : start.type = some "http.response.start"
  status : start.status = r.start.status
  lastType : last.type = some "http.response.body"
  final : last.moreBody.getD false = false
  decodes : decodeAdded decompress added (last.body.getD []) = some r.content
  others : otherHeaders (start.headers.getD []) =
    otherHeaders (r.start.headers.getD []) ++ added.toList.map fun encoding => ("content-encoding", encoding)
  length : (headersNamed "content-length" start).map Prod.snd = [toString (last.body.getD []).length]

/-- What is promised of the messages `sent` for a response: `accepts` says that the client accepts gzip, `stream`
that the response is an event stream. -/
structure Transparent (decompress : Bytes → Option Bytes) (accepts stream : Bool) (r : Response)
    (sent : List AsgiMessage) : Prop where
  unchanged : (accepts = false ∨ stream = true) → sent = r.messages
  whole : accepts = true → stream = false → ∃ start last added, sent = [start, last] ∧
    SentWhole decompress r start last added
  kept : r.fixed = true → ∃ start bodies, sent = start :: bodies ∧ bodyBytes bodies = r.content ∧
    headersNamed "content-encoding" start = headersNamed "content-encoding" r.start

/-- A response that is one body message under the only and right `content-length`. -/
def Response.whole (r : Response) : Prop :=
  r.chunks = [] ∧ (headersNamed "content-length" r.start).map Prod.snd = [toString r.content.length]

/-- A response that is already what the middleware makes of a short one. -/
structure Response.Canonical (minimumSize : Nat) (r : Response) : Prop where
  short : r.content.length < minimumSize
  single : r.chunks = []
  headers : r.start.headers =
    some (otherHeaders (r.start.headers.getD []) ++ [("content-length", toString r.content.length)])
  last : r.last = { type := some "http.response.body", body := some r.content, moreBody := some false }

variable {decompress : Bytes → Option Bytes} {r : Response}

private theorem named_length (v : String) : Header.named "content-length" ("content-length", v) = true := by
  have h : lowerIs "content-length" "content-length" = true := by decide
  exact h

private theorem named_encoding (v : String) : Header.named "content-length" ("content-encoding", v) = false := by
  have h : lowerIs "content-length" "content-encoding" = false := by decide
  exact h

private theorem length_named_encoding (v : String) : Header.named "content-encoding" ("content-length", v) = false := by
  have h : lowerIs "content-encoding" "content-length" = false := by decide
  exact h

private theorem encoding_named (v : String) : Header.named "content-encoding" ("content-encoding", v) = true := by
  have h : lowerIs "content-encoding" "content-encoding" = true := by decide
  exact h

private theorem lengths_otherHeaders (headers : List Header) :
    (otherHeaders headers).filter (fun h => h.named "content-length") = [] := by
  simp [otherHeaders, List.filter_filter]

private theorem encodings_otherHeaders (headers : List Header) :
    (otherHeaders headers).filter (fun h => h.named "content-encoding") = headers.filter fun h => h.named "content-encoding" := by
  rw [otherHeaders, List.filter_filter]
  apply List.filter_congr
  intro h _
  cases hname : h.named "content-encoding" with
  | false => simp
  | true =>
    have hne : h.named "content-length" = false := by
      rw [Header.named, lowerIs, of_decide_eq_true hname]
      decide
    simp [hne]

theorem assembled_whole (hgzip : ∀ b, decompress (compress b) = some b) : ∃ start last added,
    assembled minimumSize compress r.start r.content = [start, last] ∧ SentWhole decompress r start last added := by
  by_cases hlen : minimumSize ≤ r.content.length
  · refine ⟨_, _, some "gzip", by rw [assembled, if_pos hlen], ?_⟩
    constructor
    · exact r.startType
    · rfl
    · rfl
    · rfl
    · simp [decodeAdded, hgzip]
    · simp [otherHeaders, List.filter_filter, named_length, named_encoding]
    · simp [headersNamed, lengths_otherHeaders, named_length, named_encoding]
  · refine ⟨_, _, none, by rw [assembled, if_neg hlen], ?_⟩
    constructor
    · exact r.startType
    · rfl
    · rfl
    · rfl
    · simp [decodeAdded]
    · simp [otherHeaders, List.filter_filter, named_length]
    · simp [headersNamed, lengths_otherHeaders, named_length]

/-- The assembled body is the original one, under the original encodings, exactly when it is short. -/
theorem assembled_keeps_iff : (∃ start bodies, assembled minimumSize compress r.start r.content = start :: bodies ∧
      bodyBytes bodies = r.content ∧
      headersNamed "content-encoding" start = headersNamed "content-encoding" r.start) ↔
    r.content.length < minimumSize := by
  by_cases hlen : minimumSize ≤ r.content.length
  · rw [assembled, if_pos hlen]
    constructor
    · rintro ⟨start, bodies, hsent, _, hsame⟩
      rw [← (List.cons.inj hsent).1] at hsame
      have hcount := congrArg List.length hsame
      simp [headersNamed, encodings_otherHeaders, length_named_encoding, encoding_named] at hcount
    · intro h
      omega
  · rw [assembled, if_neg hlen]
    constructor
    · intro _
      omega
    · intro _
      refine ⟨_, _, rfl, by simp [bodyBytes], ?_⟩
      simp [headersNamed, encodings_otherHeaders, length_named_encoding]

theorem messages_keep : ∃ start bodies, r.messages = start :: bodies ∧ bodyBytes bodies = r.content ∧
    headersNamed "content-encoding" start = headersNamed "content-encoding" r.start :=
  ⟨r.start, _, rfl, rfl, rfl⟩

theorem messages_whole_iff : (∃ start last added, r.messages = [start, last] ∧
    SentWhole decompress r start last added) ↔ r.whole := by
  constructor
  · rintro ⟨start, last, added, hsent, hwhole⟩
    have hstart : r.start = start := (List.cons.inj hsent).1
    have hbodies : r.chunks ++ [r.last] = [] ++ [last] := (List.cons.inj hsent).2
    obtain ⟨hchunks, hlast⟩ := List.append_inj' hbodies rfl
    have hbody : last.body.getD [] = r.content := by
      rw [Response.content, hchunks, hlast]
      simp [bodyBytes]
    refine ⟨hchunks, ?_⟩
    rw [hstart, hwhole.length, hbody]
  · rintro ⟨hchunks, hlength⟩
    have hbody : r.last.body.getD [] = r.content := by
      simp [Response.content, hchunks, bodyBytes]
    refine ⟨r.start, r.last, none, by simp [Response.messages, hchunks], ?_⟩
    constructor
    · exact r.startType
    · rfl
    · exact r.lastType.1
    · exact r.lastType.2
    · simp [decodeAdded, hbody]
    · simp
    · rw [hlength, hbody]

theorem assembled_eq_messages_iff :
    assembled minimumSize compress r.start r.content = r.messages ↔ r.Canonical minimumSize := by
  by_cases hlen : minimumSize ≤ r.content.length
  · constructor
    · intro h
      rw [assembled, if_pos hlen] at h
      have hheaders := congrArg AsgiMessage.headers (List.cons.inj h).1
      have hothers := congrArg (fun hs => otherHeaders (hs.getD [])) hheaders
      have hcount := congrArg List.length hothers
      simp [otherHeaders, List.filter_filter, named_length, named_encoding] at hcount
    · intro h
      have hshort := h.short
      omega
  · rw [assembled, if_neg hlen]
    constructor
    · intro h
      have hbodies : [] ++ [_] = r.chunks ++ [r.last] := (List.cons.inj h).2
      obtain ⟨hchunks, hlast⟩ := List.append_inj' hbodies rfl
      constructor
      · omega
      · exact hchunks.symm
      · exact (congrArg AsgiMessage.headers (List.cons.inj h).1).symm
      · exact (List.cons.inj hlast).1.symm
    · intro h
      rw [Response.messages, h.single, h.last, List.nil_append]
      have hstart := h.headers
      simp only [← hstart]

theorem transparent_unread_iff {accepts stream : Bool} {sent : List AsgiMessage}
    (hreading : ¬ (accepts = true ∧ stream = false)) :
    Transparent decompress accepts stream r sent ↔ sent = r.messages := by
  constructor
  · intro h
    apply h.unchanged
    cases accepts <;> cases stream <;> simp at hreading ⊢
  · rintro rfl
    constructor
    · intro _
      rfl
    · intro haccepts hstream
      exact absurd ⟨haccepts, hstream⟩ hreading
    · intro _
      exact messages_keep

theorem transparent_assembled_iff (hgzip : ∀ b, decompress (compress b) = some b) :
    Transparent decompress true false r (assembled minimumSize compress r.start r.content) ↔
      r.fixed = false ∨ r.content.length < minimumSize := by
  constructor
  · intro h
    cases hfixed : r.fixed with
    | false => exact Or.inl rfl
    | true => exact Or.inr (assembled_keeps_iff.mp (h.kept hfixed))
  · intro h
    constructor
    · simp
    · intro _ _
      exact assembled_whole hgzip
    · intro hfixed
      apply assembled_keeps_iff.mpr
      rcases h with h | h
      · rw [hfixed] at h
        cases h
      · exact h

theorem transparent_messages_iff : Transparent decompress true false r r.messages ↔ r.whole := by
  constructor
  · intro h
    exact messages_whole_iff.mp (h.whole rfl rfl)
  · intro h
    constructor
    · simp
    · intro _ _
      exact messages_whole_iff.mpr h
    · intro _
      exact messages_keep

/-- Whatever is meant by a client that accepts gzip and by an event stream: the middleware keeps its promises
exactly when its own two tests agree and a response with a fixed encoding is short, or when the tests disagree and
the response looks the same either way. -/
theorem gzip_transparent_iff (hgzip : ∀ b, decompress (compress b) = some b) (scope : Scope) (r : Response)
    (accepts stream : Bool) :
    Transparent decompress accepts stream r (gzipSkipSse minimumSize compress scope r.messages) ↔
      if accepts = true ∧ stream = false then
        if scope.compresses ∧ ¬ r.start.skips then r.fixed = false ∨ r.content.length < minimumSize else r.whole
      else ¬ (scope.compresses ∧ ¬ r.start.skips) ∨ r.Canonical minimumSize := by
  rw [gzipSkipSse_eq]
  by_cases hreading : accepts = true ∧ stream = false
  · obtain ⟨rfl, rfl⟩ := hreading
    rw [if_pos (And.intro rfl rfl)]
    split
    · exact transparent_assembled_iff hgzip
    · exact transparent_messages_iff
  · rw [if_neg hreading, transparent_unread_iff hreading]
    split
    · rename_i htests
      rw [assembled_eq_messages_iff]
      constructor
      · exact Or.inr
      · intro h
        exact h.resolve_left (not_not_intro htests)
    · rename_i htests
      exact iff_of_true rfl (Or.inl htests)

/-- A request of a browser. -/
def browserScope : Scope := ⟨"http", [("host", "prorag"), ("accept-encoding", "gzip, deflate, br")]⟩

/-- A response in two chunks. -/
def pingResponse : Response where
  start := { type := some "http.response.start", status := some 200, headers := some [("content-type", "text/plain")] }
  chunks := [{ type := some "http.response.body", body := some [112, 105], moreBody := some true }]
  last := { type := some "http.response.body", body := some [110, 103] }
  startType := rfl
  chunkType := by simp
  lastType := ⟨rfl, rfl⟩

theorem gzip_transparent_iff_ping :
    Transparent (fun b => some (b.drop 2)) true false pingResponse
        (gzipSkipSse 500 (fun b => 31 :: 139 :: b) browserScope pingResponse.messages) ↔
      if true = true ∧ false = false then
        if browserScope.compresses ∧ ¬ pingResponse.start.skips then
          pingResponse.fixed = false ∨ pingResponse.content.length < 500 else pingResponse.whole
      else ¬ (browserScope.compresses ∧ ¬ pingResponse.start.skips) ∨ pingResponse.Canonical 500 := by
  refine gzip_transparent_iff ?_ browserScope pingResponse true false
  intro b
  rfl

/-- The first 500 bytes of a stored file, as `get_original` answers a `Range` request. -/
def rangeResponse : Response where
  start := { type := some "http.response.start", status := some 206, headers := some [("content-type", "application/pdf"),
    ("content-range", "bytes 0-499/1000"), ("content-length", "500")] }
  chunks := []
  last := { type := some "http.response.body", body := some (List.replicate 500 37), moreBody := some false }
  startType := rfl
  chunkType := by simp
  lastType := ⟨rfl, rfl⟩

/-- The bytes of a range are compressed, whatever the compressor makes of them. -/
theorem range_is_encoded : ¬ ∃ compress decompress,
    Transparent decompress true false rangeResponse (gzipSkipSse 500 compress browserScope rangeResponse.messages) := by
  rintro ⟨compress, decompress, h⟩
  have htests : browserScope.compresses ∧ ¬ rangeResponse.start.skips := by decide
  have hfixed : rangeResponse.fixed = true := by decide
  have hkept := h.kept hfixed
  rw [gzipSkipSse_eq, if_pos htests] at hkept
  have hlong : ¬ rangeResponse.content.length < 500 := by decide +kernel
  exact hlong (assembled_keeps_iff.mp hkept)

end ProRag
