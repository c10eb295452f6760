import ComposeBastion.Js.Bytes
import Mathlib.Algebra.Order.Field.Rat

namespace ComposeBastion.Js

/-!
# JSON

`JSON.parse` on text, and the part of `JSON.stringify` that writes flat objects.

* `Json.parse` — the grammar of RFC 8259, with `fuel` for the nesting; its start is longer than
  any nesting the text can have;
* `numberEquals` — whether the number a literal denotes, rounded to a double, is an integer;
* `quote`, `renderObject` — the text of a string and of an object whose values are rendered
  already;
* `parse_renderObject` — an object with plain keys and strings is read back as it was written.

A lone surrogate escape becomes U+FFFD here: text is a list of Unicode scalar values, and no
string the services compare contains either.
-/

/-- A parsed value.  The members of an object stand in the order of the text. -/
inductive Json
  | null
  | bool (value : Bool)
  | number (value : ℚ)
  | string (value : List Char)
  | array (elements : List Json)
  | object (members : List (List Char × Json))

namespace Json

/-- A property of an object; of two members with one name the later counts. -/
def get (name : String) : Json → Option Json
  | object members => (members.reverse.find? fun member => member.1 = name.toList).map (·.2)
  | _ => none

/-! ### Lexical parts -/

/-- The white space of JSON. -/
def isSpace (c : Char) : Bool := c == ' ' || c == '\t' || c == '\n' || c == '\r'

/-- The text without leading white space. -/
def skipSpace (text : List Char) : List Char := text.dropWhile isSpace

/-- The value of a hexadecimal digit. -/
def hexValue (c : Char) : Option ℕ :=
  if '0' ≤ c ∧ c ≤ '9' then some (c.toNat - '0'.toNat)
  else if 'a' ≤ c ∧ c ≤ 'f' then some (c.toNat - 'a'.toNat + 10)
  else if 'A' ≤ c ∧ c ≤ 'F' then some (c.toNat - 'A'.toNat + 10)
  else none

/-- The UTF-16 code unit of four hexadecimal digits. -/
def codeUnit (a b c d : Char) : Option ℕ :=
  match hexValue a, hexValue b, hexValue c, hexValue d with
  | some a, some b, some c, some d => some (((a * 16 + b) * 16 + c) * 16 + d)
  | _, _, _, _ => none

/-- The character of a one-letter escape. -/
def escapedChar : Char → Option Char
  | '"' => some '"'
  | '\\' => some '\\'
  | '/' => some '/'
  | 'b' => some '\x08'
  | 'f' => some '\x0c'
  | 'n' => some '\n'
  | 'r' => some '\r'
  | 't' => some '\t'
  | _ => none

/-- `c` in front of a parsed string. -/
def consChar (c : Char) (r : Option (List Char × List Char)) : Option (List Char × List Char) :=
  r.map fun p => (c :: p.1, p.2)

/-- The rest of a string after its opening quote. -/
def parseString : List Char → Option (List Char × List Char)
  | [] => none
  | '"' :: rest => some ([], rest)
  | '\\' :: 'u' :: a :: b :: c :: d :: '\\' :: 'u' :: a' :: b' :: c' :: d' :: rest =>
    match codeUnit a b c d, codeUnit a' b' c' d' with
    | some high, some low =>
      if 0xD800 ≤ high ∧ high < 0xDC00 ∧ 0xDC00 ≤ low ∧ low < 0xE000 then
        consChar (Char.ofNat (0x10000 + (high - 0xD800) * 0x400 + (low - 0xDC00)))
          (parseString rest)
      else consChar (if 0xD800 ≤ high ∧ high < 0xE000 then '\uFFFD' else Char.ofNat high)
        (parseString ('\\' :: 'u' :: a' :: b' :: c' :: d' :: rest))
    | _, _ => none
  | '\\' :: 'u' :: a :: b :: c :: d :: rest =>
    match codeUnit a b c d with
    | some unit =>
      consChar (if 0xD800 ≤ unit ∧ unit < 0xE000 then '\uFFFD' else Char.ofNat unit)
        (parseString rest)
    | none => none
  | '\\' :: c :: rest =>
    match escapedChar c with
    | some e => consChar e (parseString rest)
    | none => none
  | '\\' :: [] => none
  | c :: rest => if c.toNat < 0x20 then none else consChar c (parseString rest)

/-- The number a sequence of digits denotes. -/
def natOfDigits (digits : List Char) : ℕ :=
  digits.foldl (fun n c => n * 10 + (c.toNat - '0'.toNat)) 0

/-- The exponent of a number literal, `0` when there is none. -/
def parseExponent : List Char → Option (ℤ × List Char)
  | e :: rest =>
    if e = 'e' ∨ e = 'E' then
      let (sign, digits) : ℤ × List Char := match rest with
        | '-' :: r => (-1, r)
        | '+' :: r => (1, r)
        | r => (1, r)
      let ds := digits.takeWhile Char.isDigit
      if ds = [] then none else some (sign * natOfDigits ds, digits.dropWhile Char.isDigit)
    else some (0, e :: rest)
  | [] => some (0, [])

/-- The fraction of a number literal, empty when there is none. -/
def parseFraction : List Char → Option (List Char × List Char)
  | '.' :: rest =>
    let ds := rest.takeWhile Char.isDigit
    if ds = [] then none else some (ds, rest.dropWhile Char.isDigit)
  | rest => some ([], rest)

/-- A number literal. -/
def parseNumber (text : List Char) : Option (ℚ × List Char) :=
  let (sign, digits) : ℚ × List Char := match text with
    | '-' :: r => (-1, r)
    | r => (1, r)
  let ds := digits.takeWhile Char.isDigit
  if ds = [] ∨ (ds.head? = some '0' ∧ ds.length ≠ 1) then none
  else match parseFraction (digits.dropWhile Char.isDigit) with
    | none => none
    | some (fs, rest) =>
      match parseExponent rest with
      | none => none
      | some (e, rest) =>
        some (sign * natOfDigits (ds ++ fs) * (10 : ℚ) ^ (e - fs.length), rest)

/-- The literal `name`, standing for `value`. -/
def parseLiteral (name : String) (value : Json) (text : List Char) : Option (Json × List Char) :=
  if name.toList.isPrefixOf text then some (value, text.drop name.toList.length) else none

/-! ### Values -/

mutual

/-- A value, with leading white space. -/
def parseValue : ℕ → List Char → Option (Json × List Char)
  | 0, _ => none
  | fuel + 1, text =>
    match skipSpace text with
    | '"' :: rest => (parseString rest).map fun p => (.string p.1, p.2)
    | '{' :: rest =>
      match skipSpace rest with
      | '}' :: rest => some (.object [], rest)
      | rest => (parseMembers fuel rest).map fun p => (.object p.1, p.2)
    | '[' :: rest =>
      match skipSpace rest with
      | ']' :: rest => some (.array [], rest)
      | rest => (parseElements fuel rest).map fun p => (.array p.1, p.2)
    | 't' :: rest => parseLiteral "true" (.bool true) ('t' :: rest)
    | 'f' :: rest => parseLiteral "false" (.bool false) ('f' :: rest)
    | 'n' :: rest => parseLiteral "null" .null ('n' :: rest)
    | text => (parseNumber text).map fun p => (.number p.1, p.2)

/-- The elements of an array, to its closing bracket. -/
def parseElements : ℕ → List Char → Option (List Json × List Char)
  | 0, _ => none
  | fuel + 1, text =>
    match parseValue fuel text with
    | none => none
    | some (value, rest) =>
      match skipSpace rest with
      | ',' :: rest => (parseElements fuel rest).map fun p => (value :: p.1, p.2)
      | ']' :: rest => some ([value], rest)
      | _ => none

/-- The members of an object, to its closing brace. -/
def parseMembers : ℕ → List Char → Option (List (List Char × Json) × List Char)
  | 0, _ => none
  | fuel + 1, text =>
    match skipSpace text with
    | '"' :: rest =>
      match parseString rest with
      | none => none
      | some (name, rest) =>
        match skipSpace rest with
        | ':' :: rest =>
          match parseValue fuel rest with
          | none => none
          | some (value, rest) =>
            match skipSpace rest with
            | ',' :: rest => (parseMembers fuel rest).map fun p => ((name, value) :: p.1, p.2)
            | '}' :: rest => some ([(name, value)], rest)
            | _ => none
        | _ => none
    | _ => none

end

/-- `JSON.parse`; `none` is a `SyntaxError`. -/
def parse (text : List Char) : Option Json :=
  match parseValue (text.length + 1) text with
  | some (value, rest) => if skipSpace rest = [] then some value else none
  | none => none

end Json

/-- Whether the double nearest to `value` is `n`, for `0 < n < 2 ^ 52`.  The doubles next to `n`
    are one unit in the last place away, below a power of two half of it, and a tie goes to `n`,
    whose last place is even. -/
def numberEquals (value : ℚ) (n : ℕ) : Bool :=
  let scale : ℚ := 2 ^ (54 - Nat.log2 n)
  (n * scale - (if n = 2 ^ Nat.log2 n then 1 else 2) ≤ value * scale)
    && (value * scale ≤ n * scale + 2)

/-! ### Writing objects -/

/-- The escape of a character in a JSON string. -/
def escapeChar (c : Char) : List Char :=
  if c = '"' then ['\\', '"']
  else if c = '\\' then ['\\', '\\']
  else if c = '\x08' then ['\\', 'b']
  else if c = '\x0c' then ['\\', 'f']
  else if c = '\n' then ['\\', 'n']
  else if c = '\r' then ['\\', 'r']
  else if c = '\t' then ['\\', 't']
  else if c.toNat < 0x20 then
    ['\\', 'u', '0', '0', hexDigit (c.toNat / 16), hexDigit (c.toNat % 16)]
  else [c]

/-- `JSON.stringify` of a string. -/
def quote (text : List Char) : List Char := '"' :: (text.flatMap escapeChar ++ ['"'])

/-- The members of an object, for values that are rendered already. -/
def renderMembers : List (List Char × List Char) → List Char
  | [] => []
  | [member] => quote member.1 ++ ':' :: member.2
  | member :: members => quote member.1 ++ ':' :: (member.2 ++ ',' :: renderMembers members)

/-- `JSON.stringify` of an object, for values that are rendered already. -/
def renderObject (members : List (List Char × List Char)) : List Char :=
  '{' :: (renderMembers members ++ ['}'])

/-! ### Reading back what was written -/

theorem escapeChar_of_isPlain {c : Char} (h : isPlain c = true) : escapeChar c = [c] := by
  simp only [isPlain, Bool.and_eq_true, decide_eq_true_eq, bne_iff_ne] at h
  obtain ⟨⟨⟨hlow, _⟩, hquote⟩, hslash⟩ := h
  -- the characters with an escape of their own are control characters
  have hcontrol : ∀ d : Char, d.toNat < 0x20 → c ≠ d := by
    rintro d hd rfl
    omega
  rw [escapeChar, if_neg hquote, if_neg hslash, if_neg (hcontrol _ (by decide)),
    if_neg (hcontrol _ (by decide)), if_neg (hcontrol _ (by decide)),
    if_neg (hcontrol _ (by decide)), if_neg (hcontrol _ (by decide)), if_neg (by omega)]

theorem flatMap_escapeChar {text : List Char} (h : ∀ c ∈ text, isPlain c = true) :
    text.flatMap escapeChar = text := by
  induction text with
  | nil => rfl
  | cons c text ih =>
    rw [List.flatMap_cons, escapeChar_of_isPlain (h c List.mem_cons_self),
      ih fun d hd => h d (List.mem_cons_of_mem c hd), List.singleton_append]

namespace Json

theorem parseString_cons {c : Char} (hquote : c ≠ '"') (hslash : c ≠ '\\')
    (hlow : ¬ c.toNat < 0x20) (rest : List Char) :
    parseString (c :: rest) = consChar c (parseString rest) := by
  rw [parseString.eq_def]
  split
  · rename_i heq; cases heq
  · rename_i heq; cases heq; exact absurd rfl hquote
  · rename_i heq; cases heq; exact absurd rfl hslash
  · rename_i heq; cases heq; exact absurd rfl hslash
  · rename_i heq; cases heq; exact absurd rfl hslash
  · rename_i heq; cases heq; exact absurd rfl hslash
  · rename_i heq
    cases heq
    rw [if_neg hlow]

/-- A plain string is read up to its closing quote. -/
theorem parseString_plain {text : List Char} (h : ∀ c ∈ text, isPlain c = true)
    (rest : List Char) : parseString (text ++ '"' :: rest) = some (text, rest) := by
  induction text with
  | nil => rfl
  | cons c text ih =>
    have hc := h c List.mem_cons_self
    simp only [isPlain, Bool.and_eq_true, decide_eq_true_eq, bne_iff_ne] at hc
    rw [List.cons_append, parseString_cons hc.1.2 hc.2 (by omega),
      ih fun d hd => h d (List.mem_cons_of_mem c hd)]
    rfl

theorem quote_append {text : List Char} (h : ∀ c ∈ text, isPlain c = true) (rest : List Char) :
    quote text ++ rest = '"' :: (text ++ '"' :: rest) := by
  rw [quote, flatMap_escapeChar h, List.cons_append, List.append_assoc, List.singleton_append]

/-- `text` is read as `value` in front of what can follow a member of an object. -/
def ReadsAs (text : List Char) (value : Json) : Prop :=
  ∀ fuel rest, rest.head? = some ',' ∨ rest.head? = some '}' →
    parseValue (fuel + 1) (text ++ rest) = some (value, rest)

theorem readsAs_quote {text : List Char} (h : ∀ c ∈ text, isPlain c = true) :
    ReadsAs (quote text) (.string text) := by
  intro fuel rest _
  rw [quote_append h, parseValue]
  show ((parseString (text ++ '"' :: rest)).map fun p => (Json.string p.1, p.2)) = _
  rw [parseString_plain h]
  rfl

/-- A member with a plain name and a value that reads back. -/
structure RenderedMember where
  name : List Char
  text : List Char
  value : Json
  name_plain : ∀ c ∈ name, isPlain c = true
  reads : ReadsAs text value

/-- The name and the text of a member. -/
def RenderedMember.rendered (member : RenderedMember) : List Char × List Char :=
  (member.name, member.text)

theorem skipSpace_cons {c : Char} (h : isSpace c = false) (rest : List Char) :
    skipSpace (c :: rest) = c :: rest := by
  rw [skipSpace, List.dropWhile_cons_of_neg (by rw [h]; decide)]

/-- The last member, up to the closing brace. -/
theorem parseMembers_last (member : RenderedMember) (fuel : ℕ) (rest : List Char) :
    parseMembers (fuel + 2) (quote member.name ++ ':' :: (member.text ++ '}' :: rest))
      = some ([(member.name, member.value)], rest) := by
  have hvalue := member.reads fuel ('}' :: rest) (Or.inr rfl)
  rw [quote_append member.name_plain, parseMembers, skipSpace_cons (by decide)]
  simp only [parseString_plain member.name_plain, skipSpace_cons (by decide : isSpace ':' = false),
    hvalue, skipSpace_cons (by decide : isSpace '}' = false)]

/-- A member in front of others. -/
theorem parseMembers_next (member : RenderedMember) (fuel : ℕ) (rest : List Char) :
    parseMembers (fuel + 2) (quote member.name ++ ':' :: (member.text ++ ',' :: rest))
      = (parseMembers (fuel + 1) rest).map fun p => ((member.name, member.value) :: p.1, p.2) := by
  have hvalue := member.reads fuel (',' :: rest) (Or.inl rfl)
  rw [quote_append member.name_plain, parseMembers, skipSpace_cons (by decide)]
  simp only [parseString_plain member.name_plain, skipSpace_cons (by decide : isSpace ':' = false),
    hvalue, skipSpace_cons (by decide : isSpace ',' = false)]

theorem parseMembers_render (member : RenderedMember) (members : List RenderedMember)
    (fuel : ℕ) (rest : List Char) :
    parseMembers (members.length + fuel + 2)
        (renderMembers ((member :: members).map RenderedMember.rendered) ++ '}' :: rest)
      = some ((member :: members).map fun m => (m.name, m.value), rest) := by
  induction members generalizing member with
  | nil =>
    show parseMembers (0 + fuel + 2) ((quote member.name ++ ':' :: member.text) ++ '}' :: rest) = _
    rw [Nat.zero_add, List.append_assoc, List.cons_append, parseMembers_last]
    rfl
  | cons next members ih =>
    show parseMembers (members.length + 1 + fuel + 2) ((quote member.name ++ ':' :: (member.text
      ++ ',' :: renderMembers ((next :: members).map RenderedMember.rendered))) ++ '}' :: rest) = _
    rw [List.append_assoc, List.cons_append, List.append_assoc, List.cons_append,
      parseMembers_next, show members.length + 1 + fuel + 1 = members.length + fuel + 2 by omega,
      ih next]
    rfl

/-- **An object reads back.** -/
theorem parse_renderObject (member : RenderedMember) (members : List RenderedMember) :
    parse (renderObject ((member :: members).map RenderedMember.rendered))
      = some (.object ((member :: members).map fun m => (m.name, m.value))) := by
  have hlength : ∀ (member : RenderedMember) (members : List RenderedMember), members.length + 2
      ≤ (renderMembers ((member :: members).map RenderedMember.rendered)).length + 1 := by
    intro member members
    induction members generalizing member with
    | nil => simp [renderMembers, quote, RenderedMember.rendered]
    | cons next members ih =>
      have hnext := ih next
      simp only [List.map_cons, renderMembers, RenderedMember.rendered, quote, List.length_append,
        List.length_cons] at hnext ⊢
      omega
  obtain ⟨fuel, hfuel⟩ : ∃ fuel, (renderMembers ((member :: members).map
      RenderedMember.rendered) ++ ['}']).length + 1 = members.length + fuel + 2 := by
    refine ⟨(renderMembers ((member :: members).map RenderedMember.rendered)).length
      - members.length, ?_⟩
    have := hlength member members
    rw [List.length_append, List.length_singleton]
    omega
  -- the text starts with the quote of the first name, so the object is not empty
  obtain ⟨tail, htail⟩ : ∃ tail, renderMembers ((member :: members).map RenderedMember.rendered)
      ++ ['}'] = '"' :: tail := by
    cases members with
    | nil => exact ⟨_, rfl⟩
    | cons next members => exact ⟨_, rfl⟩
  have hmembers := parseMembers_render member members fuel []
  rw [htail] at hmembers hfuel
  rw [parse, renderObject, htail, List.length_cons, hfuel, parseValue,
    skipSpace_cons (by decide)]
  simp only [skipSpace_cons (by decide : isSpace '"' = false)]
  show (match (parseMembers (members.length + fuel + 2) ('"' :: tail)).map
      fun p => (Json.object p.1, p.2) with
    | some (value, rest) => if skipSpace rest = [] then some value else none
    | none => none) = _
  rw [hmembers]
  rfl

end Json

end ComposeBastion.Js
