import ProRag.Chat.Citations

/-!
# Server-sent events

The frames of `/chat/stream` as text, with `json.dumps` for their data.
-/

namespace ProRag

structure NumberLiteral where
  text : Text
  plain : ∀ c ∈ text, c ∈ "0123456789+-.eE".toList

/-- The values of JSON. -/
inductive JsonValue
  | null
  | bool (b : Bool)
  | number (literal : NumberLiteral)
  | string (s : Text)
  | array (items : List JsonValue)
  | object (fields : List (Text × JsonValue))

def hexDigit (n : Nat) : Char := "0123456789abcdef".toList.getD n '0'

/-- `\uXXXX`. -/
def unicodeEscape (n : Nat) : Text :=
  ['\\', 'u', hexDigit (n / 4096 % 16), hexDigit (n / 256 % 16), hexDigit (n / 16 % 16), hexDigit (n % 16)]

/-- A character of a string under `ensure_ascii`; those beyond the first plane are two surrogates. -/
def escapeChar (c : Char) : Text :=
  if c = '"' then ['\\', '"']
  else if c = '\\' then ['\\', '\\']
  else if c = '\n' then ['\\', 'n']
  else if c = '\r' then ['\\', 'r']
  else if c = '\t' then ['\\', 't']
  else if c = Char.ofNat 8 then ['\\', 'b']
  else if c = Char.ofNat 12 then ['\\', 'f']
  else if 0x20 ≤ c.toNat ∧ c.toNat ≤ 0x7e then [c]
  else if c.toNat ≤ 0xffff then unicodeEscape c.toNat
  else unicodeEscape (0xd800 + (c.toNat - 0x10000) / 0x400) ++ unicodeEscape (0xdc00 + (c.toNat - 0x10000) % 0x400)

def dumpString (s : Text) : Text := '"' :: (s.flatMap escapeChar ++ ['"'])

mutual

/-- `json.dumps(value)`. -/
def JsonValue.dumps : JsonValue → Text
  | .null => "null".toList
  | .bool b => if b then "true".toList else "false".toList
  | .number literal => literal.text
  | .string s => dumpString s
  | .array items => '[' :: (dumpItems items ++ [']'])
  | .object fields => '{' :: (dumpFields fields ++ ['}'])

def dumpItems : List JsonValue → Text
  | [] => []
  | [v] => v.dumps
  | v :: w :: vs => v.dumps ++ ", ".toList ++ dumpItems (w :: vs)

def dumpFields : List (Text × JsonValue) → Text
  | [] => []
  | [(k, v)] => dumpString k ++ ": ".toList ++ v.dumps
  | (k, v) :: f :: fs => dumpString k ++ ": ".toList ++ v.dumps ++ ", ".toList ++ dumpFields (f :: fs)

end

/-- An object or an array. -/
inductive JsonData
  | array (items : List JsonValue)
  | object (fields : List (Text × JsonValue))

def JsonData.value : JsonData → JsonValue
  | .array items => .array items
  | .object fields => .object fields

/-- `sse_event(event, data)`. -/
def sseEvent (event : Text) (data : JsonData) : Text :=
  "event: ".toList ++ event ++ "\ndata: ".toList ++ data.value.dumps ++ "\n\n".toList

/-- `sse_retry(ms)`. -/
def sseRetry (ms : Int := 3000) : Text := "retry: ".toList ++ (toString ms).toList ++ "\n\n".toList

/-- `sse_comment(text)`. -/
def sseComment (text : Text := "ping".toList) : Text := ": ".toList ++ text ++ "\n\n".toList

/-- Printable ASCII. -/
def isPrintableAscii (c : Char) : Prop := 0x20 ≤ c.toNat ∧ c.toNat ≤ 0x7e

instance (c : Char) : Decidable (isPrintableAscii c) := inferInstanceAs (Decidable (_ ∧ _))

theorem hexDigit_printable {n : Nat} (hn : n < 16) : isPrintableAscii (hexDigit n) := by
  have hall : ∀ m < 16, isPrintableAscii (hexDigit m) := by decide
  exact hall n hn

theorem unicodeEscape_printable (n : Nat) {c : Char} (hc : c ∈ unicodeEscape n) : isPrintableAscii c := by
  have hplain : isPrintableAscii '\\' ∧ isPrintableAscii 'u' := by decide
  simp only [unicodeEscape, List.mem_cons, List.not_mem_nil, or_false] at hc
  rcases hc with rfl | rfl | rfl | rfl | rfl | rfl
  · exact hplain.1
  · exact hplain.2
  all_goals exact hexDigit_printable (Nat.mod_lt _ (by decide))

theorem mem_printable {text : Text} (h : text.all (fun c => decide (isPrintableAscii c)) = true) {c : Char} (hc : c ∈ text) :
    isPrintableAscii c :=
  of_decide_eq_true (List.all_eq_true.mp h c hc)

theorem escapeChar_printable (x : Char) {c : Char} (hc : c ∈ escapeChar x) : isPrintableAscii c := by
  unfold escapeChar at hc
  iterate 7
    split at hc
    · exact mem_printable (by decide) hc
  split at hc
  · rename_i hplain
    rw [List.mem_singleton.mp hc]
    exact hplain
  · split at hc
    · exact unicodeEscape_printable _ hc
    · rcases List.mem_append.mp hc with hc | hc
      · exact unicodeEscape_printable _ hc
      · exact unicodeEscape_printable _ hc

theorem dumpString_printable (s : Text) : ∀ c ∈ dumpString s, isPrintableAscii c := by
  intro c hc
  have hquote : isPrintableAscii '"' := by decide
  simp only [dumpString, List.mem_cons, List.mem_append, List.mem_flatMap, List.not_mem_nil, or_false] at hc
  rcases hc with rfl | ⟨x, _, hc⟩ | rfl
  · exact hquote
  · exact escapeChar_printable x hc
  · exact hquote

mutual

theorem JsonValue.dumps_printable (v : JsonValue) : ∀ c ∈ v.dumps, isPrintableAscii c := by
  intro c hc
  cases v with
  | null => exact mem_printable (by decide) hc
  | bool b =>
    cases b with
    | true => exact mem_printable (by decide) hc
    | false => exact mem_printable (by decide) hc
  | number literal => exact @mem_printable "0123456789+-.eE".toList (by decide) c (literal.plain c hc)
  | string s => exact dumpString_printable s c hc
  | array items =>
    have hbrackets : isPrintableAscii '[' ∧ isPrintableAscii ']' := by decide
    simp only [JsonValue.dumps, List.mem_cons, List.mem_append, List.not_mem_nil, or_false] at hc
    rcases hc with rfl | hc | rfl
    · exact hbrackets.1
    · exact dumpItems_printable items c hc
    · exact hbrackets.2
  | object fields =>
    have hbraces : isPrintableAscii '{' ∧ isPrintableAscii '}' := by decide
    simp only [JsonValue.dumps, List.mem_cons, List.mem_append, List.not_mem_nil, or_false] at hc
    rcases hc with rfl | hc | rfl
    · exact hbraces.1
    · exact dumpFields_printable fields c hc
    · exact hbraces.2

theorem dumpItems_printable (items : List JsonValue) : ∀ c ∈ dumpItems items, isPrintableAscii c := by
  intro c hc
  cases items with
  | nil => cases hc
  | cons v vs =>
    cases vs with
    | nil => exact JsonValue.dumps_printable v c hc
    | cons w ws =>
      rcases List.mem_append.mp hc with hc | hc
      · rcases List.mem_append.mp hc with hc | hc
        · exact JsonValue.dumps_printable v c hc
        · exact mem_printable (by decide) hc
      · exact dumpItems_printable (w :: ws) c hc

theorem dumpFields_printable (fields : List (Text × JsonValue)) : ∀ c ∈ dumpFields fields, isPrintableAscii c := by
  intro c hc
  cases fields with
  | nil => cases hc
  | cons kv fs =>
    obtain ⟨k, v⟩ := kv
    have hfield : ∀ c ∈ dumpString k ++ ": ".toList ++ v.dumps, isPrintableAscii c := by
      intro c hc
      rcases List.mem_append.mp hc with hc | hc
      · rcases List.mem_append.mp hc with hc | hc
        · exact dumpString_printable k c hc
        · exact mem_printable (by decide) hc
      · exact JsonValue.dumps_printable v c hc
    cases fs with
    | nil => exact hfield c hc
    | cons f fs =>
      rcases List.mem_append.mp hc with hc | hc
      · rcases List.mem_append.mp hc with hc | hc
        · exact hfield c hc
        · exact mem_printable (by decide) hc
      · exact dumpFields_printable (f :: fs) c hc

end

theorem printable_oneLine {text : Text} (h : ∀ c ∈ text, isPrintableAscii c) : '\n' ∉ text := by
  intro hmem
  have hbad : ¬ isPrintableAscii '\n' := by decide
  exact hbad (h _ hmem)

theorem retry_oneLine (ms : Int) : '\n' ∉ (toString ms).toList := by
  have hnat : ∀ n : Nat, '\n' ∉ (Nat.repr n).toList := by
    intro n hmem
    rw [Nat.toList_repr] at hmem
    have hdigit := Nat.isDigit_of_mem_toDigits (by decide) (by decide) hmem
    revert hdigit
    decide
  cases ms with
  | ofNat n => exact hnat n
  | negSucc n =>
    show '\n' ∉ ("-" ++ Nat.repr (n + 1)).toList
    rw [String.toList_append]
    intro hmem
    rcases List.mem_append.mp hmem with h | h
    · revert h
      decide
    · exact hnat _ h

theorem JsonData.dumps_bracketed (data : JsonData) :
    ∃ first inner last, data.value.dumps = first :: (inner ++ [last]) ∧ first ∈ ['[', '{'] ∧ last ∈ [']', '}'] := by
  cases data with
  | array items => exact ⟨'[', dumpItems items, ']', by simp [JsonData.value, JsonValue.dumps], by decide, by decide⟩
  | object fields => exact ⟨'{', dumpFields fields, '}', by simp [JsonData.value, JsonValue.dumps], by decide, by decide⟩

end ProRag
