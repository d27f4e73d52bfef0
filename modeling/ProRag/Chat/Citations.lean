import ProRag.Framework.Rewriting
import ProRag.Operations.Retrieval

/-!
# Citations

`normalize_citations` and what is read from its result.  Texts are lists of characters; `\d` and
`\s` are the decimal digits and the whitespace of Unicode, and `(?i)s` is also the long s.
-/

namespace ProRag

open Framework

abbrev Text := List Char

/-- The zeros of the decimal digits; the other nine follow each. -/
def decimalZeros : List Nat :=
  [0x30, 0x660, 0x6f0, 0x7c0, 0x966, 0x9e6, 0xa66, 0xae6, 0xb66, 0xbe6, 0xc66, 0xce6, 0xd66, 0xde6, 0xe50, 0xed0,
    0xf20, 0x1040, 0x1090, 0x17e0, 0x1810, 0x1946, 0x19d0, 0x1a80, 0x1a90, 0x1b50, 0x1bb0, 0x1c40, 0x1c50, 0xa620,
    0xa8d0, 0xa900, 0xa9d0, 0xa9f0, 0xaa50, 0xabf0, 0xff10, 0x104a0, 0x10d30, 0x11066, 0x110f0, 0x11136, 0x111d0,
    0x112f0, 0x11450, 0x114d0, 0x11650, 0x116c0, 0x11730, 0x118e0, 0x11950, 0x11c50, 0x11d50, 0x11da0, 0x11f50,
    0x16a60, 0x16ac0, 0x16b50, 0x1d7ce, 0x1d7d8, 0x1d7e2, 0x1d7ec, 0x1d7f6, 0x1e140, 0x1e2f0, 0x1e4f0, 0x1e950,
    0x1fbf0]

def digitValue (c : Char) : Option Nat :=
  (decimalZeros.find? fun z => z ≤ c.toNat && c.toNat < z + 10).map fun z => c.toNat - z

/-- `\d`. -/
def isPyDigit (c : Char) : Bool := (digitValue c).isSome

/-- `(\d+)` and the closing bracket, behind a head of some length. -/
def digitsThen (close : Char) (head : Nat) (text : Text) : Option (Text × Nat) :=
  let digits := text.takeWhile isPyDigit
  match digits, text.dropWhile isPyDigit with
  | _ :: _, c :: _ => if c = close then some (digits, head + digits.length + 1) else none
  | _, _ => none

/-- A letter under `re.IGNORECASE`. -/
def caseless (lower upper : Char) (c : Char) : Bool :=
  c = lower || c = upper || (lower = 's' && c = Char.ofNat 0x17f)

/-- `\(S(\d+)\)`, ignoring case. -/
def parenMarker : Matcher Char Text
  | '(' :: s :: rest => if caseless 's' 'S' s then digitsThen ')' 2 rest else none
  | _ => none

/-- `\[s(\d+)\]`, ignoring case. -/
def squareMarker : Matcher Char Text
  | '[' :: s :: rest => if caseless 's' 'S' s then digitsThen ']' 2 rest else none
  | _ => none

/-- `\[source\s+(\d+)\]`, ignoring case. -/
def sourceMarker : Matcher Char Text
  | '[' :: s :: o :: u :: r :: c :: e :: rest =>
    if caseless 's' 'S' s && caseless 'o' 'O' o && caseless 'u' 'U' u && caseless 'r' 'R' r && caseless 'c' 'C' c &&
        caseless 'e' 'E' e && !(rest.takeWhile isPySpace).isEmpty then
      digitsThen ']' (7 + (rest.takeWhile isPySpace).length) (rest.dropWhile isPySpace)
    else none
  | _ => none

/-- `\[(\d+)\]`. -/
def bareMarker : Matcher Char Text
  | '[' :: rest => digitsThen ']' 1 rest
  | _ => none

/-- `_CANONICAL`, `\[S(\d+)\]`. -/
def canonicalMarker : Matcher Char Text
  | '[' :: 'S' :: rest => digitsThen ']' 2 rest
  | _ => none

/-- `_DEVIATION_PATTERNS`. -/
def deviationPatterns : List (Matcher Char Text) := [parenMarker, squareMarker, sourceMarker, bareMarker]

/-- `f"[S{digits}]"`. -/
def canonicalForm (digits : Text) : Text := '[' :: 'S' :: (digits ++ [']'])

/-- `normalize_citations(text)`. -/
def normalizeCitations (text : Text) : Text :=
  deviationPatterns.foldl (fun normalized pattern => rewriteAll pattern canonicalForm normalized) text

/-- `int(digits)`, which refuses more than 4300 digits. -/
def pyInt (digits : Text) : Except PyError Nat :=
  if 4300 < digits.length then
    .error ⟨"ValueError", "Exceeds the limit (4300 digits) for integer string conversion"⟩
  else .ok (digits.foldl (fun n c => 10 * n + (digitValue c).getD 0) 0)

/-- `seen.setdefault(n, None)`. -/
def setDefault (seen : List Nat) (n : Nat) : List Nat := if n ∈ seen then seen else seen ++ [n]

/-- `extract_cited_indices(normalized_text)`. -/
def extractCitedIndices (normalizedText : Text) : Except PyError (List Nat) :=
  (captures canonicalMarker normalizedText).foldlM
    (fun seen digits => pyInt digits >>= fun n => .ok (setDefault seen n)) []

/-- `resolve_citations(normalized_text, chunks)`: the cited hits, with their numbers. -/
def resolveCitations (normalizedText : Text) (chunks : List Hit) : Except PyError (List (Nat × Hit)) :=
  extractCitedIndices normalizedText >>= fun cited =>
    .ok (cited.filterMap fun n => if 1 ≤ n then chunks[n - 1]?.map fun hit => (n, hit) else none)

/-- `build_context_block(chunks)`. -/
def buildContextBlock (chunks : List Hit) : String :=
  "\n\n".intercalate (chunks.zipIdx.map fun p =>
    "[S" ++ toString (p.2 + 1) ++ "] " ++ p.1.title ++
      (match p.1.page with | some page => " — p." ++ toString page | none => "") ++ "\n" ++ p.1.text)

/-- `build_prompt(message, hits)`. -/
def buildPrompt (message : String) (hits : List Hit) : String :=
  "Context:\n" ++ buildContextBlock hits ++ "\n\nQuestion: " ++ message

end ProRag
