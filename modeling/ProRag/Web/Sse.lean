import ProRag.Chat.Sse
import ProRag.Framework.Utf8

/-!
# The client of `/chat/stream`

`parseFrame` and the loop of `streamSse`, and what comes through of the frames the server sends.
-/

namespace ProRag

open Framework

/-- The white space and the line terminators that `trim` strips. -/
def isJsSpace (c : Char) : Bool :=
  let n := c.toNat
  (9 ≤ n && n ≤ 13) || n = 32 || n = 160 || n = 5760 || (8192 ≤ n && n ≤ 8202) || n = 8232 || n = 8233 || n = 8239 ||
    n = 8287 || n = 12288 || n = 65279

/-- `s.trim()`. -/
def jsTrim (s : Text) : Text := ((s.dropWhile isJsSpace).reverse.dropWhile isJsSpace).reverse

/-- A name the server gives to an event. -/
structure EventName where
  text : Text
  oneLine : '\n' ∉ text
  trimmed : jsTrim text = text

/-- A comment of one line. -/
structure CommentText where
  text : Text
  oneLine : '\n' ∉ text

/-- What the server sends. -/
inductive ServerFrame
  | retry (ms : Int)
  | comment (text : CommentText)
  | event (name : EventName) (data : JsonData)

def ServerFrame.text : ServerFrame → Text
  | .retry ms => sseRetry ms
  | .comment text => sseComment text.text
  | .event name data => sseEvent name.text data

/-- `SseFrame`. -/
structure SseFrame where
  event : Text
  data : JsonValue

/-- `parsed.data !== null`. -/
def SseFrame.hasData (frame : SseFrame) : Bool :=
  match frame.data with
  | .null => false
  | _ => true

def ServerFrame.event? : ServerFrame → Option SseFrame
  | .retry _ | .comment _ => none
  | .event name data => some ⟨name.text, data.value⟩

section

variable (parse : Text → Option JsonValue)

/-- One line of a frame; `parse` is `JSON.parse`, which raises where it gives nothing. -/
def parseLine (frame : SseFrame) (line : Text) : SseFrame :=
  if "event:".toList <+: line then { frame with event := jsTrim (line.drop 6) }
  else if "data:".toList <+: line then
    match parse (jsTrim (line.drop 5)) with
    | some data => { frame with data := data }
    | none => frame
  else frame

/-- `parseFrame(frame)`. -/
def parseFrame (frame : Text) : SseFrame :=
  (frame.splitOn '\n').foldl (parseLine parse) ⟨"message".toList, .null⟩

/-- The buffer up to its first blank line, and behind it. -/
def cutFrame : Text → Option (Text × Text)
  | [] => none
  | [_] => none
  | c :: d :: rest =>
    if c = '\n' ∧ d = '\n' then some ([], rest)
    else (cutFrame (d :: rest)).map fun p => (c :: p.1, p.2)

theorem cutFrame_shorter {buf frame rest : Text} (h : cutFrame buf = some (frame, rest)) : rest.length < buf.length := by
  induction buf using cutFrame.induct generalizing frame with
  | case1 => cases h
  | case2 c => cases h
  | case3 c d tail hblank =>
    rw [cutFrame, if_pos hblank] at h
    obtain ⟨_, rfl⟩ := Prod.mk.inj (Option.some.inj h)
    simp only [List.length_cons]
    omega
  | case4 c d tail hblank ih =>
    rw [cutFrame, if_neg hblank] at h
    obtain ⟨p, hp, heq⟩ := Option.map_eq_some_iff.mp h
    obtain ⟨_, rfl⟩ := Prod.mk.inj heq
    exact (ih hp).trans (Nat.lt_succ_self _)

/-- The frames of a buffer, and what is left of it. -/
def cutFrames (buf : Text) : List Text × Text :=
  match _hcut : cutFrame buf with
  | none => ([], buf)
  | some (frame, rest) =>
    let more := cutFrames rest
    (frame :: more.1, more.2)
termination_by buf.length
decreasing_by exact cutFrame_shorter _hcut

/-- The variables of `streamSse`, and the frames `onFrame` has got. -/
structure SseReader where
  decoder : Utf8Decoder := {}
  buf : Text := []
  delivered : List SseFrame := []

/-- One chunk of the network: the frames it completes go to `onFrame`, unless they have no data. -/
def SseReader.read (r : SseReader) (chunk : List UInt8) : SseReader :=
  let decoded := r.decoder.decode chunk
  let cut := cutFrames (r.buf ++ decoded.1)
  let parsed := cut.1.map (parseFrame parse)
  { decoder := decoded.2
    buf := cut.2
    delivered := r.delivered ++ parsed.filter SseFrame.hasData }

/-- `streamSse`, over the chunks of a body that ends. -/
def streamSse (chunks : List (List UInt8)) : List SseFrame := (chunks.foldl (SseReader.read parse) {}).delivered

end

theorem cutFrame_append {buf frame rest : Text} (h : cutFrame buf = some (frame, rest)) (more : Text) :
    cutFrame (buf ++ more) = some (frame, rest ++ more) := by
  induction buf using cutFrame.induct generalizing frame with
  | case1 => cases h
  | case2 c => cases h
  | case3 c d tail hblank =>
    rw [cutFrame, if_pos hblank] at h
    obtain ⟨rfl, rfl⟩ := Prod.mk.inj (Option.some.inj h)
    rw [List.cons_append, List.cons_append, cutFrame, if_pos hblank]
  | case4 c d tail hblank ih =>
    rw [cutFrame, if_neg hblank] at h
    obtain ⟨p, hp, heq⟩ := Option.map_eq_some_iff.mp h
    obtain ⟨rfl, rfl⟩ := Prod.mk.inj heq
    have hmore := ih hp
    rw [List.cons_append] at hmore
    rw [List.cons_append, List.cons_append, cutFrame, if_neg hblank, hmore]
    rfl

theorem cutFrames_none {buf : Text} (h : cutFrame buf = none) : cutFrames buf = ([], buf) := by
  rw [cutFrames]
  split
  · rfl
  · rename_i hsome
    rw [h] at hsome
    cases hsome

theorem cutFrames_some {buf frame rest : Text} (h : cutFrame buf = some (frame, rest)) :
    cutFrames buf = (frame :: (cutFrames rest).1, (cutFrames rest).2) := by
  rw [cutFrames]
  split
  · rename_i hnone
    rw [h] at hnone
    cases hnone
  · rename_i hsome
    rw [h] at hsome
    obtain ⟨rfl, rfl⟩ := Prod.mk.inj (Option.some.inj hsome)
    rfl

/-- The frames do not depend on where the text was cut. -/
theorem cutFrames_append (buf more : Text) : cutFrames (buf ++ more) =
    ((cutFrames buf).1 ++ (cutFrames ((cutFrames buf).2 ++ more)).1, (cutFrames ((cutFrames buf).2 ++ more)).2) := by
  induction buf using cutFrames.induct with
  | case1 buf hnone => simp [cutFrames_none hnone]
  | case2 buf frame rest hsome ih =>
    rw [cutFrames_some hsome, cutFrames_some (cutFrame_append hsome more), ih]
    rfl

theorem cutFrames_rest (buf : Text) : cutFrames (cutFrames buf).2 = ([], (cutFrames buf).2) := by
  induction buf using cutFrames.induct with
  | case1 buf hnone =>
    rw [cutFrames_none hnone]
    exact cutFrames_none hnone
  | case2 buf frame rest hsome ih =>
    rw [cutFrames_some hsome]
    exact ih

theorem cutFrame_cons {c d : Char} (h : ¬ (c = '\n' ∧ d = '\n')) (rest : Text) :
    cutFrame (c :: d :: rest) = (cutFrame (d :: rest)).map fun p => (c :: p.1, p.2) := by
  rw [cutFrame, if_neg h]

theorem cutFrame_line {line : Text} (hline : '\n' ∉ line) {d : Char} {buf rest frame : Text}
    (hbuf : cutFrame (d :: buf) = some (frame, rest)) :
    cutFrame (line ++ d :: buf) = some (line ++ frame, rest) := by
  induction line with
  | nil => exact hbuf
  | cons c line ih =>
    have hc : c ≠ '\n' := fun h => hline (h ▸ List.mem_cons_self)
    have hnext := ih fun h => hline (List.mem_cons_of_mem c h)
    cases line with
    | nil =>
      rw [List.nil_append] at hnext
      show cutFrame (c :: d :: buf) = _
      rw [cutFrame_cons (fun h => hc h.1), hbuf]
      rfl
    | cons e line =>
      rw [List.cons_append] at hnext
      show cutFrame (c :: e :: (line ++ d :: buf)) = _
      rw [cutFrame_cons (fun h => hc h.1), hnext]
      rfl

theorem cutFrame_one {line : Text} (hline : '\n' ∉ line) (rest : Text) :
    cutFrame (line ++ '\n' :: '\n' :: rest) = some (line, rest) := by
  have hblank : cutFrame ('\n' :: '\n' :: rest) = some ([], rest) := by rw [cutFrame, if_pos ⟨rfl, rfl⟩]
  rw [cutFrame_line hline hblank, List.append_nil]

theorem cutFrame_two {first second : Text} {c : Char} (hfirst : '\n' ∉ first) (hsecond : '\n' ∉ c :: second) (rest : Text) :
    cutFrame (first ++ '\n' :: ((c :: second) ++ '\n' :: '\n' :: rest)) = some (first ++ '\n' :: c :: second, rest) := by
  have hc : c ≠ '\n' := fun h => hsecond (h ▸ List.mem_cons_self)
  have htail : cutFrame ('\n' :: ((c :: second) ++ '\n' :: '\n' :: rest)) = some ('\n' :: c :: second, rest) := by
    rw [List.cons_append, cutFrame_cons (fun h => hc h.2), ← List.cons_append, cutFrame_one hsecond rest]
    rfl
  exact cutFrame_line hfirst htail

theorem splitOn_one {line : Text} (hline : '\n' ∉ line) : line.splitOn '\n' = [line] := by
  apply List.splitOnP_eq_singleton
  intro x hx
  exact beq_false_of_ne fun h => hline (h ▸ hx)

theorem splitOn_two {first second : Text} (hfirst : '\n' ∉ first) (hsecond : '\n' ∉ second) :
    (first ++ '\n' :: second).splitOn '\n' = [first, second] := by
  have hplain : ∀ x ∈ first, (x == '\n') = false := fun x hx => beq_false_of_ne fun h => hfirst (h ▸ hx)
  rw [List.splitOn_eq_splitOnP, List.splitOnP_append_cons_of_forall_mem hplain '\n' rfl]
  exact congrArg (List.cons first) (splitOn_one hsecond)

theorem jsTrim_space (s : Text) : jsTrim (' ' :: s) = jsTrim s := rfl

theorem jsTrim_plain {first last : Char} (inner : Text) (hfirst : isJsSpace first = false) (hlast : isJsSpace last = false) :
    jsTrim (first :: (inner ++ [last])) = first :: (inner ++ [last]) := by
  simp [jsTrim, hfirst, hlast]

section

variable {parse : Text → Option JsonValue}

theorem read_chunks (chunks : List (List UInt8)) (r : SseReader) (hidle : cutFrames r.buf = ([], r.buf)) :
    (chunks.foldl (SseReader.read parse) r).delivered = r.delivered ++
      ((cutFrames (r.buf ++ (r.decoder.decode chunks.flatten).1)).1.map (parseFrame parse)).filter SseFrame.hasData := by
  induction chunks generalizing r with
  | nil => simp [Utf8Decoder.decode, hidle]
  | cons chunk chunks ih =>
    rw [List.foldl_cons, ih _ (cutFrames_rest _), List.flatten_cons, Utf8Decoder.decode_append, ← List.append_assoc,
      cutFrames_append (r.buf ++ (r.decoder.decode chunk).1)]
    simp [SseReader.read]

theorem parseLine_other {c : Char} (he : c ≠ 'e') (hd : c ≠ 'd') (line : Text) (frame : SseFrame) :
    parseLine parse frame (c :: line) = frame := by
  have hevent : ¬ "event:".toList <+: c :: line := fun h => he (List.cons_prefix_cons.mp h).1.symm
  have hdata : ¬ "data:".toList <+: c :: line := fun h => hd (List.cons_prefix_cons.mp h).1.symm
  rw [parseLine, if_neg hevent, if_neg hdata]

theorem parseLine_event (name : EventName) (frame : SseFrame) :
    parseLine parse frame ("event: ".toList ++ name.text) = { frame with event := name.text } := by
  have hevent : "event:".toList <+: "event: ".toList ++ name.text := ⟨' ' :: name.text, rfl⟩
  have hdrop : ("event: ".toList ++ name.text).drop 6 = ' ' :: name.text := rfl
  rw [parseLine, if_pos hevent, hdrop, jsTrim_space, name.trimmed]

theorem parseLine_data (data : JsonData) (hparse : parse data.value.dumps = some data.value) (frame : SseFrame) :
    parseLine parse frame ("data: ".toList ++ data.value.dumps) = { frame with data := data.value } := by
  obtain ⟨first, inner, last, hdumps, hfirst, hlast⟩ := data.dumps_bracketed
  have hplain : ['[', '{', ']', '}'].all (fun c => !isJsSpace c) = true := by decide
  have hbracket : ∀ c, c ∈ ['[', '{'] ∨ c ∈ [']', '}'] → isJsSpace c = false := by
    intro c hc
    have hmem : c ∈ ['[', '{', ']', '}'] := by
      simp only [List.mem_cons] at hc ⊢
      tauto
    exact Bool.eq_false_of_not_eq_true (by simpa using List.all_eq_true.mp hplain c hmem)
  have htrim : jsTrim data.value.dumps = data.value.dumps := by
    rw [hdumps]
    exact jsTrim_plain inner (hbracket first (Or.inl hfirst)) (hbracket last (Or.inr hlast))
  have hevent : ¬ "event:".toList <+: "data: ".toList ++ data.value.dumps := by
    intro h
    have hletter : 'e' = 'd' := (List.cons_prefix_cons.mp h).1
    revert hletter
    decide
  have hdata : "data:".toList <+: "data: ".toList ++ data.value.dumps := ⟨' ' :: data.value.dumps, rfl⟩
  have hdrop : ("data: ".toList ++ data.value.dumps).drop 5 = ' ' :: data.value.dumps := rfl
  rw [parseLine, if_neg hevent, if_pos hdata, hdrop, jsTrim_space, htrim, hparse]

theorem data_value_hasData (name : Text) (data : JsonData) : (SseFrame.mk name data.value).hasData = true := by
  cases data with
  | array items => rfl
  | object fields => rfl

theorem frame_parsed (f : ServerFrame) (hparse : ∀ name data, f = .event name data → parse data.value.dumps = some data.value) :
    ∃ body, (∀ rest, cutFrame (f.text ++ rest) = some (body, rest)) ∧
      [parseFrame parse body].filter SseFrame.hasData = f.event?.toList := by
  cases f with
  | retry ms =>
    have hline : '\n' ∉ "retry: ".toList ++ (toString ms).toList := by
      rw [List.mem_append]
      exact not_or.mpr ⟨by decide, retry_oneLine ms⟩
    have htext : ∀ rest, (ServerFrame.retry ms).text ++ rest =
        "retry: ".toList ++ (toString ms).toList ++ '\n' :: '\n' :: rest := fun rest => List.append_assoc _ ['\n', '\n'] rest
    refine ⟨"retry: ".toList ++ (toString ms).toList, fun rest => ?_, ?_⟩
    · rw [htext]
      exact cutFrame_one hline rest
    · have hparsed : parseFrame parse ("retry: ".toList ++ (toString ms).toList) = ⟨"message".toList, .null⟩ := by
        rw [parseFrame, splitOn_one hline]
        exact @parseLine_other parse 'r' (by decide) (by decide) ("etry: ".toList ++ (toString ms).toList) _
      rw [hparsed]
      rfl
  | comment text =>
    have hline : '\n' ∉ ": ".toList ++ text.text := by
      rw [List.mem_append]
      exact not_or.mpr ⟨by decide, text.oneLine⟩
    have htext : ∀ rest, (ServerFrame.comment text).text ++ rest = ": ".toList ++ text.text ++ '\n' :: '\n' :: rest :=
      fun rest => List.append_assoc _ ['\n', '\n'] rest
    refine ⟨": ".toList ++ text.text, fun rest => ?_, ?_⟩
    · rw [htext]
      exact cutFrame_one hline rest
    · have hparsed : parseFrame parse (": ".toList ++ text.text) = ⟨"message".toList, .null⟩ := by
        rw [parseFrame, splitOn_one hline]
        exact @parseLine_other parse ':' (by decide) (by decide) (' ' :: text.text) _
      rw [hparsed]
      rfl
  | event name data =>
    have hfirst : '\n' ∉ "event: ".toList ++ name.text := by
      rw [List.mem_append]
      exact not_or.mpr ⟨by decide, name.oneLine⟩
    have hsecond : '\n' ∉ "data: ".toList ++ data.value.dumps := by
      rw [List.mem_append]
      exact not_or.mpr ⟨by decide, printable_oneLine data.value.dumps_printable⟩
    have htext : ∀ rest, (ServerFrame.event name data).text ++ rest = ("event: ".toList ++ name.text) ++
        '\n' :: (("data: ".toList ++ data.value.dumps) ++ '\n' :: '\n' :: rest) := by
      have hjoin : ∀ a b c rest : Text, (((a ++ '\n' :: b) ++ c) ++ ['\n', '\n']) ++ rest =
          a ++ '\n' :: ((b ++ c) ++ '\n' :: '\n' :: rest) := fun a b c rest => by simp
      exact hjoin ("event: ".toList ++ name.text) "data: ".toList data.value.dumps
    refine ⟨("event: ".toList ++ name.text) ++ '\n' :: ("data: ".toList ++ data.value.dumps), fun rest => ?_, ?_⟩
    · rw [htext]
      exact cutFrame_two hfirst hsecond rest
    · have hparsed : parseFrame parse (("event: ".toList ++ name.text) ++ '\n' :: ("data: ".toList ++ data.value.dumps)) =
          ⟨name.text, data.value⟩ := by
        rw [parseFrame, splitOn_two hfirst hsecond, List.foldl_cons, List.foldl_cons, parseLine_event,
          parseLine_data data (hparse name data rfl)]
        rfl
      rw [hparsed, List.filter_cons_of_pos (data_value_hasData name.text data)]
      rfl

/-- The frames of the server, cut from the whole text and parsed. -/
theorem frames_parsed (frames : List ServerFrame)
    (hparse : ∀ name data, .event name data ∈ frames → parse data.value.dumps = some data.value) :
    ((cutFrames (frames.flatMap ServerFrame.text)).1.map (parseFrame parse)).filter SseFrame.hasData =
      frames.filterMap ServerFrame.event? := by
  induction frames with
  | nil =>
    have hnone : cutFrame [] = none := rfl
    rw [List.flatMap_nil, cutFrames_none hnone]
    rfl
  | cons f frames ih =>
    obtain ⟨body, hcut, hparsed⟩ := frame_parsed f fun name data hf => hparse name data (hf ▸ List.mem_cons_self)
    have hrest := ih fun name data hmem => hparse name data (List.mem_cons_of_mem f hmem)
    rw [List.flatMap_cons, cutFrames_some (hcut _), List.map_cons, ← List.singleton_append, List.filter_append, hparsed,
      hrest, List.filterMap_cons]
    cases f.event? with
    | none => rfl
    | some e => rfl

end

/-- However the bytes of the server's frames are cut, the client gets its events, each once and in order. -/
theorem streamSse_delivers (parse : Text → Option JsonValue) (frames : List ServerFrame)
    (hparse : ∀ name data, .event name data ∈ frames → parse data.value.dumps = some data.value)
    (chunks : List (List UInt8)) (hcut : chunks.flatten = utf8Bytes (frames.flatMap ServerFrame.text)) :
    streamSse parse chunks = frames.filterMap ServerFrame.event? := by
  have hmark : (frames.flatMap ServerFrame.text).head? ≠ some Utf8Decoder.byteOrderMark := by
    have hletters : 'r' ≠ Utf8Decoder.byteOrderMark ∧ ':' ≠ Utf8Decoder.byteOrderMark ∧ 'e' ≠ Utf8Decoder.byteOrderMark := by
      decide
    cases frames with
    | nil => simp
    | cons f frames =>
      cases f with
      | retry ms => exact fun h => hletters.1 (Option.some.inj h)
      | comment text => exact fun h => hletters.2.1 (Option.some.inj h)
      | event name data => exact fun h => hletters.2.2 (Option.some.inj h)
  have hidle : cutFrames ({} : SseReader).buf = ([], ({} : SseReader).buf) := cutFrames_none rfl
  unfold streamSse
  rw [read_chunks chunks {} hidle, hcut, Utf8Decoder.decode_stream _ hmark]
  exact frames_parsed frames hparse

def tokenName : EventName where
  text := "token".toList
  oneLine := by decide
  trimmed := by decide

def tokenData : JsonData := .object [("t".toList, .string "caf\u00e9".toList)]

def tokenFrames : List ServerFrame := [.retry 3000, .comment ⟨"ping".toList, by decide⟩, .event tokenName tokenData]

def tokenParse (text : Text) : Option JsonValue := if text = tokenData.value.dumps then some tokenData.value else none

/-- The bytes cut inside the blank line behind the comment, and again inside the data. -/
theorem streamSse_delivers_token :
    let bytes := utf8Bytes (tokenFrames.flatMap ServerFrame.text)
    streamSse tokenParse [bytes.take 20, (bytes.drop 20).take 30, (bytes.drop 20).drop 30] =
      [⟨"token".toList, tokenData.value⟩] := by
  intro bytes
  refine streamSse_delivers tokenParse tokenFrames ?_ _ ?_
  · intro name data hmem
    have hevent : ServerFrame.event name data = .event tokenName tokenData := by
      simpa [tokenFrames] using hmem
    obtain ⟨_, rfl⟩ := ServerFrame.event.inj hevent
    exact if_pos rfl
  · rw [List.flatten_cons, List.flatten_cons, List.flatten_singleton, List.take_append_drop, List.take_append_drop]

end ProRag
