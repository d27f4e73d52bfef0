import Mathlib.Data.List.Basic

/-!
# Reading JSON text

A scanner in the manner of a reader that goes over the text once: it marks where it enters an array or an
object and where it reads an integer, so that a reader with limits is this one with its marks looked at.
Text that is no JSON ends the scan; the marks before that place remain.
-/

namespace Framework

/-- How values are made of what is read; a float comes as its literal. -/
structure JsonBuilder (V : Type) where
  null : V
  bool : Bool → V
  int : Int → V
  float : List Char → V
  str : List Char → V
  arr : List V → V
  obj : List (List Char × V) → V

inductive JsonMark
  | enter (depth : Nat)
  | int (digits : Nat)
deriving DecidableEq, Repr

/-- A scan: its marks, and what has been read with the text behind it, where the text has been well formed. -/
structure Scanned (α : Type) where
  marks : List JsonMark
  result : Option (α × List Char)

namespace JsonText

def isSpace (c : Char) : Bool := c = ' ' || c = '\t' || c = '\n' || c = '\r'

def skipSpace (cs : List Char) : List Char := cs.dropWhile isSpace

def hexValue? (c : Char) : Option Nat :=
  if '0' ≤ c ∧ c ≤ '9' then some (c.toNat - '0'.toNat)
  else if 'a' ≤ c ∧ c ≤ 'f' then some (c.toNat - 'a'.toNat + 10)
  else if 'A' ≤ c ∧ c ≤ 'F' then some (c.toNat - 'A'.toNat + 10)
  else none

def hex4? (a b c d : Char) : Option Nat :=
  match hexValue? a, hexValue? b, hexValue? c, hexValue? d with
  | some a, some b, some c, some d => some (((a * 16 + b) * 16 + c) * 16 + d)
  | _, _, _, _ => none

def escape? : Char → Option Nat
  | '"' => some 34
  | '\\' => some 92
  | '/' => some 47
  | 'b' => some 8
  | 'f' => some 12
  | 'n' => some 10
  | 'r' => some 13
  | 't' => some 9
  | _ => none

/-- The code units of a string behind its opening quote, and the text behind the closing one. -/
def scanString : List Char → Option (List Nat × List Char)
  | [] => none
  | '"' :: rest => some ([], rest)
  | '\\' :: 'u' :: a :: b :: c :: d :: rest =>
    match hex4? a b c d, scanString rest with
    | some unit, some (units, rest) => some (unit :: units, rest)
    | _, _ => none
  | '\\' :: c :: rest =>
    match escape? c, scanString rest with
    | some unit, some (units, rest) => some (unit :: units, rest)
    | _, _ => none
  | c :: rest =>
    if c.toNat < 32 then none
    else match scanString rest with
      | some (units, rest) => some (c.toNat :: units, rest)
      | none => none

/-- A surrogate pair is one character; a surrogate alone has none in `Char` and reads as a replacement character. -/
def joinSurrogates : List Nat → List Char
  | [] => []
  | [unit] => [if 0xd800 ≤ unit ∧ unit ≤ 0xdfff then Char.ofNat 0xfffd else Char.ofNat unit]
  | high :: low :: units =>
    if 0xd800 ≤ high ∧ high ≤ 0xdbff ∧ 0xdc00 ≤ low ∧ low ≤ 0xdfff then
      Char.ofNat (0x10000 + (high - 0xd800) * 1024 + (low - 0xdc00)) :: joinSurrogates units
    else
      (if 0xd800 ≤ high ∧ high ≤ 0xdfff then Char.ofNat 0xfffd else Char.ofNat high) ::
        joinSurrogates (low :: units)

/-- `-?(0|[1-9][0-9]*)`. -/
def scanInteger (cs : List Char) : List Char :=
  let sign := if cs.head? = some '-' then ['-'] else []
  match cs.drop sign.length with
  | '0' :: _ => sign ++ ['0']
  | rest =>
    let digits := rest.takeWhile Char.isDigit
    if digits = [] then [] else sign ++ digits

/-- `(\.[0-9]+)?`. -/
def scanFraction : List Char → List Char
  | '.' :: rest =>
    let digits := rest.takeWhile Char.isDigit
    if digits = [] then [] else '.' :: digits
  | _ => []

/-- `([eE][-+]?[0-9]+)?`. -/
def scanExponent : List Char → List Char
  | e :: rest =>
    let sign := (rest.take 1).filter fun c => c = '+' || c = '-'
    let digits := (rest.drop sign.length).takeWhile Char.isDigit
    if (e = 'e' ∨ e = 'E') ∧ digits ≠ [] then e :: sign ++ digits else []
  | [] => []

def intValue (literal : List Char) : Int :=
  let value := (literal.filter Char.isDigit).foldl (fun n c => 10 * n + (c.toNat - '0'.toNat)) 0
  if literal.head? = some '-' then -(value : Int) else value

section

variable {V : Type} (b : JsonBuilder V)

/-- A number: its marks, its value and the length of its literal. -/
def scanNumber (cs : List Char) : Option (List JsonMark × V × Nat) :=
  let whole := scanInteger cs
  if whole = [] then none
  else
    let fraction := scanFraction (cs.drop whole.length)
    let exponent := scanExponent (cs.drop (whole.length + fraction.length))
    if fraction = [] ∧ exponent = [] then
      some ([.int (whole.filter Char.isDigit).length], b.int (intValue whole), whole.length)
    else
      let literal := whole ++ fraction ++ exponent
      some ([], b.float literal, literal.length)

/-- The constants, with those that JSON itself does not have. -/
def constants : List (List Char × V) :=
  [("null".toList, b.null), ("true".toList, b.bool true), ("false".toList, b.bool false),
    ("NaN".toList, b.float "NaN".toList), ("Infinity".toList, b.float "Infinity".toList),
    ("-Infinity".toList, b.float "-Infinity".toList)]

/-- A value that is no array and no object. -/
def scanScalar (cs : List Char) : Scanned V :=
  match cs with
  | '"' :: rest => ⟨[], (scanString rest).map fun r => (b.str (joinSurrogates r.1), r.2)⟩
  | _ =>
    match (constants b).find? fun c => c.1.isPrefixOf cs with
    | some c => ⟨[], some (c.2, cs.drop c.1.length)⟩
    | none =>
      match scanNumber b cs with
      | some (marks, v, length) => ⟨marks, some (v, cs.drop length)⟩
      | none => ⟨[], none⟩

/-- What is being read: a value, or what is left of an array or an object that has been opened. -/
inductive Task (V : Type)
  | value
  | items (acc : List V)
  | members (acc : List (List Char × V))

/-- What stands behind an item: the bracket that closes, or a comma. -/
def closing (bracket : Char) (cs : List Char) : Option (Bool × List Char) :=
  match skipSpace cs with
  | c :: rest =>
    if c = bracket then some (true, rest)
    else if c = ',' then some (false, skipSpace rest)
    else none
  | [] => none

/-- The key of a member and the text of its value. -/
def scanKey : List Char → Option (List Char × List Char)
  | '"' :: rest =>
    match scanString rest with
    | some (units, rest) =>
      match skipSpace rest with
      | ':' :: rest => some (joinSurrogates units, skipSpace rest)
      | _ => none
    | none => none
  | _ => none

/-- `next` behind `first`, where that has read something. -/
def andThen {α β : Type} (first : Scanned α) (next : α → List Char → Option (Scanned β)) : Option (Scanned β) :=
  match first.result with
  | some (a, rest) => (next a rest).map fun s => ⟨first.marks ++ s.marks, s.result⟩
  | none => some ⟨first.marks, none⟩

/-- Behind the bracket that opens: the one that closes, or what is inside. -/
def opened {α : Type} (bracket : Char) (depth : Nat) (empty : α) (inner : List Char → Option (Scanned α))
    (cs : List Char) : Option (Scanned α) :=
  let cs := skipSpace cs
  if cs.head? = some bracket then some ⟨[.enter depth], some (empty, cs.tail)⟩
  else andThen ⟨[.enter depth], some ((), cs)⟩ fun _ => inner

/-- Behind an item. -/
def behind {α β : Type} (bracket : Char) (finish : α → β) (next : α → List Char → Option (Scanned β)) (a : α)
    (cs : List Char) : Option (Scanned β) :=
  match closing bracket cs with
  | some (true, rest) => some ⟨[], some (finish a, rest)⟩
  | some (false, rest) => next a rest
  | none => some ⟨[], none⟩

/-- The scan at a depth; `none` when the fuel runs out. -/
def scan : Nat → Nat → Task V → List Char → Option (Scanned V)
  | 0, _, _, _ => none
  | fuel + 1, depth, .value, cs =>
    match cs with
    | '[' :: rest => opened ']' (depth + 1) (b.arr []) (scan fuel (depth + 1) (.items [])) rest
    | '\x7b' :: rest => opened '\x7d' (depth + 1) (b.obj []) (scan fuel (depth + 1) (.members [])) rest
    | _ => some (scanScalar b cs)
  | fuel + 1, depth, .items acc, cs =>
    scan fuel depth .value cs >>= fun first =>
      andThen first (behind ']' (fun v => b.arr (acc ++ [v])) fun v => scan fuel depth (.items (acc ++ [v])))
  | fuel + 1, depth, .members acc, cs =>
    match scanKey cs with
    | none => some ⟨[], none⟩
    | some (key, rest) =>
      scan fuel depth .value rest >>= fun first =>
        andThen first (behind '\x7d' (fun v => b.obj (acc ++ [(key, v)])) fun v =>
          scan fuel depth (.members (acc ++ [(key, v)])))

end

def Task.weight {V : Type} : Task V → Nat
  | .value => 0
  | _ => 1

variable {V : Type} {b : JsonBuilder V}

theorem skipSpace_length (cs : List Char) : (skipSpace cs).length ≤ cs.length :=
  (List.dropWhile_suffix isSpace).length_le

theorem scanString_length {cs rest : List Char} {units : List Nat} (h : scanString cs = some (units, rest)) :
    rest.length < cs.length := by
  fun_induction scanString cs generalizing units rest with
  | case1 => cases h
  | case2 rest' =>
    cases h
    simp
  | case3 a b c d rest' unit units' rest'' htail hunit ih =>
    cases h
    have hshorter := ih htail
    simp only [List.length_cons]
    omega
  | case4 => cases h
  | case5 c rest' hno unit units' rest'' htail hunit ih =>
    cases h
    have hshorter := ih htail
    simp only [List.length_cons]
    omega
  | case6 => cases h
  | case7 => cases h
  | case8 c rest' hquote hunicode hescape hprintable units' rest'' htail ih =>
    cases h
    have hshorter := ih htail
    simp only [List.length_cons]
    omega
  | case9 => cases h

theorem scanInteger_nil : scanInteger [] = [] := by
  simp [scanInteger]

theorem scanNumber_length {cs : List Char} {marks : List JsonMark} {v : V} {n : Nat}
    (h : scanNumber b cs = some (marks, v, n)) : 0 < n ∧ cs ≠ [] := by
  unfold scanNumber at h
  have hcs : scanInteger cs ≠ [] → cs ≠ [] := by
    intro hne hnil
    rw [hnil, scanInteger_nil] at hne
    exact hne rfl
  by_cases hwhole : scanInteger cs = []
  · simp [hwhole] at h
  · have hpos := List.length_pos_of_ne_nil hwhole
    simp only [hwhole, if_false] at h
    split at h
    · cases h
      exact ⟨hpos, hcs hwhole⟩
    · cases h
      refine ⟨?_, hcs hwhole⟩
      simp only [List.length_append]
      omega

theorem scanScalar_length {cs rest : List Char} {v : V} (h : (scanScalar b cs).result = some (v, rest)) :
    rest.length < cs.length := by
  have hdrop : ∀ n, 0 < n → cs ≠ [] → (cs.drop n).length < cs.length := by
    intro n hn hcs
    have := List.length_pos_of_ne_nil hcs
    simp only [List.length_drop]
    omega
  unfold scanScalar at h
  split at h
  · rename_i rest'
    obtain ⟨r, hr, heq⟩ := Option.map_eq_some_iff.mp h
    cases heq
    have := scanString_length hr
    simp only [List.length_cons]
    omega
  · split at h
    · rename_i c hc
      cases h
      have hmem := List.mem_of_find?_eq_some hc
      have hword := List.find?_some hc
      have hlong : 0 < c.1.length := by
        simp only [constants, List.mem_cons, List.not_mem_nil, or_false] at hmem
        rcases hmem with rfl | rfl | rfl | rfl | rfl | rfl <;> simp
      refine hdrop _ hlong fun hnil => ?_
      rw [hnil, List.isPrefixOf_iff_prefix, List.prefix_nil] at hword
      rw [hword] at hlong
      exact absurd hlong (by decide)
    · split at h
      · rename_i marks v' n hn
        cases h
        exact hdrop n (scanNumber_length hn).1 (scanNumber_length hn).2
      · cases h

theorem closing_length {bracket : Char} {cs rest : List Char} {done : Bool}
    (h : closing bracket cs = some (done, rest)) : rest.length < cs.length := by
  have hskip := skipSpace_length cs
  unfold closing at h
  split at h
  · rename_i c tail heq
    rw [heq, List.length_cons] at hskip
    have htail := skipSpace_length tail
    split at h
    · cases h
      omega
    · split at h
      · cases h
        omega
      · cases h
  · cases h

theorem scanKey_length {cs rest key : List Char} (h : scanKey cs = some (key, rest)) : rest.length < cs.length := by
  unfold scanKey at h
  split at h
  · split at h
    · rename_i tail units rest' htail
      have hstring := scanString_length htail
      have hskip := skipSpace_length rest'
      split at h
      · rename_i value heq
        cases h
        have hvalue := skipSpace_length value
        rw [heq, List.length_cons] at hskip
        simp only [List.length_cons]
        omega
      · cases h
    · cases h
  · cases h

/-- What has been read leaves less than `n` characters. -/
def Leaves {α : Type} (s : Scanned α) (n : Nat) : Prop :=
  ∀ a rest, s.result = some (a, rest) → rest.length < n

theorem andThen_leaves {α β : Type} {first : Scanned α} {next : α → List Char → Option (Scanned β)} {m n : Nat}
    (hfirst : Leaves first m) (hnext : ∀ a rest, rest.length < m → ∃ s, next a rest = some s ∧ Leaves s n) :
    ∃ s, andThen first next = some s ∧ Leaves s n := by
  unfold andThen
  cases hresult : first.result with
  | none =>
    refine ⟨_, rfl, ?_⟩
    intro a rest h
    cases h
  | some r =>
    obtain ⟨s, hs, hleaves⟩ := hnext r.1 r.2 (hfirst r.1 r.2 hresult)
    refine ⟨⟨first.marks ++ s.marks, s.result⟩, ?_, hleaves⟩
    simp only [hs, Option.map_some]

theorem opened_leaves {α : Type} {bracket : Char} {depth n : Nat} {empty : α} {inner : List Char → Option (Scanned α)}
    {cs : List Char} (hcs : cs.length < n)
    (hinner : ∀ rest, rest.length ≤ cs.length → ∃ s, inner rest = some s ∧ Leaves s n) :
    ∃ s, opened bracket depth empty inner cs = some s ∧ Leaves s n := by
  have hskip := skipSpace_length cs
  unfold opened
  by_cases hhead : (skipSpace cs).head? = some bracket
  · refine ⟨_, if_pos hhead, ?_⟩
    intro a rest h
    cases h
    simp only [List.length_tail]
    omega
  · rw [if_neg hhead]
    apply andThen_leaves (m := cs.length + 1)
    · intro _ rest h
      cases h
      omega
    · intro _ rest hrest
      exact hinner rest (by omega)

theorem behind_leaves {α β : Type} {bracket : Char} {finish : α → β} {next : α → List Char → Option (Scanned β)} {n : Nat}
    {a : α} {cs : List Char} (hcs : cs.length ≤ n)
    (hnext : ∀ rest, rest.length < cs.length → ∃ s, next a rest = some s ∧ Leaves s n) :
    ∃ s, behind bracket finish next a cs = some s ∧ Leaves s n := by
  unfold behind
  split
  · rename_i rest hclosing
    have hshort := closing_length hclosing
    refine ⟨_, rfl, ?_⟩
    intro b rest' h
    cases h
    omega
  · rename_i rest hclosing
    exact hnext rest (closing_length hclosing)
  · refine ⟨_, rfl, ?_⟩
    intro b rest h
    cases h

/-- With two turns for each character the fuel does not run out. -/
theorem scan_leaves (b : JsonBuilder V) (fuel depth : Nat) (task : Task V) (cs : List Char)
    (hfuel : 2 * cs.length + task.weight < fuel) :
    ∃ s, scan b fuel depth task cs = some s ∧ Leaves s cs.length := by
  -- what is opened, or stands behind an item, is shorter; a value that begins an item is not, and weighs less
  induction fuel generalizing depth task cs with
  | zero => omega
  | succ fuel ih =>
    have hshorter : ∀ (n depth : Nat) (task : Task V) (rest : List Char), rest.length < n →
        2 * rest.length + task.weight < fuel → ∃ s, scan b fuel depth task rest = some s ∧ Leaves s n := by
      intro n depth task rest hrest hfuel
      obtain ⟨s, hs, hleaves⟩ := ih depth task rest hfuel
      refine ⟨s, hs, ?_⟩
      intro a rest' h
      have := hleaves a rest' h
      omega
    cases task with
    | value =>
      simp only [Task.weight] at hfuel
      unfold scan
      split
      · simp only [List.length_cons] at hfuel ⊢
        apply opened_leaves (Nat.lt_succ_self _)
        intro rest hrest
        exact hshorter _ _ _ rest (by omega) (by simp only [Task.weight]; omega)
      · simp only [List.length_cons] at hfuel ⊢
        apply opened_leaves (Nat.lt_succ_self _)
        intro rest hrest
        exact hshorter _ _ _ rest (by omega) (by simp only [Task.weight]; omega)
      · refine ⟨_, rfl, ?_⟩
        intro a rest h
        exact scanScalar_length h
    | items acc =>
      simp only [Task.weight] at hfuel
      obtain ⟨first, hfirst, hleaves⟩ := ih depth .value cs (by simp only [Task.weight]; omega)
      simp only [scan, hfirst, Option.bind_eq_bind, Option.bind_some]
      apply andThen_leaves hleaves
      intro v rest hrest
      apply behind_leaves (by omega)
      intro rest' hrest'
      exact hshorter _ _ _ rest' (by omega) (by simp only [Task.weight]; omega)
    | members acc =>
      simp only [Task.weight] at hfuel
      unfold scan
      split
      · refine ⟨_, rfl, ?_⟩
        intro a rest h
        cases h
      · rename_i key value hkey
        have hvalue := scanKey_length hkey
        obtain ⟨first, hfirst, hleaves⟩ := ih depth .value value (by simp only [Task.weight]; omega)
        simp only [hfirst, Option.bind_eq_bind, Option.bind_some]
        apply andThen_leaves hleaves
        intro v rest hrest
        apply behind_leaves (by omega)
        intro rest' hrest'
        exact hshorter _ _ _ rest' (by omega) (by simp only [Task.weight]; omega)

theorem scan_isSome (b : JsonBuilder V) (cs : List Char) :
    (scan b (2 * cs.length + 1) 0 .value cs).isSome := by
  obtain ⟨s, hs, _⟩ := scan_leaves b (2 * cs.length + 1) 0 .value cs (by simp [Task.weight])
  rw [hs]
  rfl

/-- The scan of a whole text, from its first character that is no space. -/
def read (b : JsonBuilder V) (text : List Char) : Scanned V :=
  (scan b (2 * (skipSpace text).length + 1) 0 .value (skipSpace text)).get (scan_isSome b (skipSpace text))

end JsonText

end Framework
