import ComposeBastion.Js.Text
import ComposeBastion.Js.Record
import ComposeBastion.Lib.OrderedMap
import ComposeBastion.Lib.Rewriting

namespace ComposeBastion

open Rewriting

/-!
# Deployment environments

`services/deploymentEnvironment.ts`: the dotenv texts of a deployment and the maps they stand
for.

* `parseDeploymentEnvironment` — the map of a text: one entry, comment or blank line after the
  other, later entries over earlier ones, values interpolated unless they are single-quoted;
* `serializeDeploymentEnvironment` — the canonical text of a map, every value single-quoted;
* `interpolateDeploymentEnvironment` — the two replacements that resolve variables.

A text is the list of its characters.  The parser goes through the rest of the text; every
round of its loop takes a character, so that the length of the text is fuel enough
(`parseFrom_fuel`).
-/

/-- The variables of a deployment, in the order of their first entry. -/
abbrev Environment := OrderedMap (List Char) (List Char)

/-! ### Names -/

/-- `[A-Za-z_]`. -/
def isNameStart (c : Char) : Bool :=
  ('A' ≤ c && c ≤ 'Z') || ('a' ≤ c && c ≤ 'z') || c == '_'

/-- `[A-Za-z0-9_]`. -/
def isNameChar (c : Char) : Bool := isNameStart c || ('0' ≤ c && c ≤ '9')

/-- `/^[A-Za-z_][A-Za-z0-9_]*/`: the longest name the text starts with, and the rest. -/
def matchName : List Char → Option (List Char × List Char)
  | [] => none
  | c :: rest =>
    if isNameStart c then some (c :: rest.takeWhile isNameChar, rest.dropWhile isNameChar)
    else none

/-- `/^[A-Za-z_][A-Za-z0-9_]*$/`. -/
def isName : List Char → Bool
  | [] => false
  | c :: rest => isNameStart c && rest.all isNameChar

/-! ### Interpolation -/

/-- The operators of `${NAME<operator>operand}`. -/
inductive InterpolationOperator
  | colonDash | dash | colonPlus | plus | colonQuestion | question
  deriving DecidableEq, Repr

/-- `:?[-+?]`. -/
def matchOperator : List Char → Option (InterpolationOperator × List Char)
  | ':' :: '-' :: rest => some (.colonDash, rest)
  | '-' :: rest => some (.dash, rest)
  | ':' :: '+' :: rest => some (.colonPlus, rest)
  | '+' :: rest => some (.plus, rest)
  | ':' :: '?' :: rest => some (.colonQuestion, rest)
  | '?' :: rest => some (.question, rest)
  | _ => none

/-- What `${…}` refers to: the name, and the operator with its operand. -/
structure BracedVariable where
  key : List Char
  operation : Option (InterpolationOperator × List Char)
  deriving DecidableEq, Repr

/-- `/^\$\{([A-Za-z_][A-Za-z0-9_]*)(?:(:?[-+?])([^}]*))?\}/`: the variable and the length of
    the match. -/
def matchBraced : List Char → Option (BracedVariable × ℕ)
  | '$' :: '{' :: text =>
    match matchName text with
    | none => none
    | some (key, rest) =>
      match rest with
      | '}' :: _ => some (⟨key, none⟩, key.length + 3)
      | _ =>
        match matchOperator rest with
        | none => none
        | some (operator, rest') =>
          let operand := rest'.takeWhile (· ≠ '}')
          if rest'.dropWhile (· ≠ '}') = [] then none
          else some (⟨key, some (operator, operand)⟩,
            key.length + (rest.length - rest'.length) + operand.length + 3)
  | _ => none

/-- `/^\$([A-Za-z_][A-Za-z0-9_]*)/`: the name. -/
def matchPlain : List Char → Option (List Char)
  | '$' :: text => (matchName text).map Prod.fst
  | _ => none

/-- `Required deployment environment variable ${key} is missing.` -/
def missingVariableMessage (key : List Char) : String :=
  "Required deployment environment variable " ++ String.ofList key ++ " is missing."

/-- What a braced variable stands for. -/
def resolveBraced (environment : Environment) (braced : BracedVariable) :
    Except String (List Char) :=
  let present := environment.get braced.key
  let current := present.getD []
  match braced.operation with
  | none => .ok current
  | some (.colonDash, operand) => .ok (if current ≠ [] then current else operand)
  | some (.dash, operand) => .ok (if present.isSome then current else operand)
  | some (.colonPlus, operand) => .ok (if current ≠ [] then operand else [])
  | some (.plus, operand) => .ok (if present.isSome then operand else [])
  | some (.colonQuestion, _) =>
    if current ≠ [] then .ok current else .error (missingVariableMessage braced.key)
  | some (.question, _) =>
    if present.isSome then .ok current else .error (missingVariableMessage braced.key)

/-- The first replacement of `interpolateOnce`. -/
def bracedRule (environment : Environment) (text : List Char) :
    Option (Except String (List Char) × ℕ) :=
  (matchBraced text).map fun found => (resolveBraced environment found.1, found.2)

/-- The second replacement of `interpolateOnce`. -/
def plainRule (environment : Environment) (text : List Char) : Option (List Char × ℕ) :=
  (matchPlain text).map fun key => ((environment.get key).getD [], key.length + 1)

/-- `interpolateOnce`. -/
def interpolateOnce (input : List Char) (environment : Environment) : Except String (List Char) :=
  (replaceAllM (bracedRule environment) input).map (replaceAll (plainRule environment))

/-- `text.replaceAll(old, new)`, for a text `old` that is not empty. -/
def literalRule (old new : List Char) (text : List Char) : Option (List Char × ℕ) :=
  if old.isPrefixOf text then some (new, old.length) else none

/-- The text that stands for `$$` while variables are resolved. -/
def escapedDollar : List Char := "\x00COMPOSEBASTION_DOLLAR\x00".toList

/-- `interpolateDeploymentEnvironment`. -/
def interpolateDeploymentEnvironment (input : List Char) (environment : Environment) :
    Except String (List Char) :=
  (interpolateOnce (replaceAll (literalRule ['$', '$'] escapedDollar) input) environment).map
    (replaceAll (literalRule escapedDollar ['$']))

/-! ### Parsing -/

/-- `skipToNextLine`: the text behind the next line feed. -/
def skipToNextLine (text : List Char) : List Char := (text.dropWhile (· ≠ '\n')).drop 1

/-- A blank or a tabulator. -/
def isBlank (c : Char) : Bool := c == ' ' || c == '\t'

/-- `decodeDoubleQuotedCharacter`. -/
def decodeDoubleQuotedCharacter (c : Char) : List Char :=
  if c = 'n' then ['\n']
  else if c = 'r' then ['\r']
  else if c = 't' then ['\t']
  else if c = '\\' then ['\\']
  else if c = '"' then ['"']
  else if c = '$' then ['$', '$']
  else ['\\', c]

/-- The value of a single-quoted text, and the rest behind the closing quote. -/
def readSingleQuoted : List Char → List Char × List Char
  | [] => ([], [])
  | '\'' :: rest => ([], rest)
  | '\\' :: '\'' :: rest => let (value, rest) := readSingleQuoted rest; ('\'' :: value, rest)
  | '\\' :: '\\' :: rest => let (value, rest) := readSingleQuoted rest; ('\\' :: value, rest)
  | c :: rest => let (value, rest) := readSingleQuoted rest; (c :: value, rest)

/-- The value of a double-quoted text, and the rest behind the closing quote. -/
def readDoubleQuoted : List Char → List Char × List Char
  | [] => ([], [])
  | '"' :: rest => ([], rest)
  | '\\' :: c :: rest =>
    let (value, rest) := readDoubleQuoted rest
    (decodeDoubleQuotedCharacter c ++ value, rest)
  | c :: rest => let (value, rest) := readDoubleQuoted rest; (c :: value, rest)

/-- `raw.replace(/\r$/, "")`. -/
def stripCarriageReturn (raw : List Char) : List Char :=
  if raw.getLast? = some '\r' then raw.dropLast else raw

/-- The text before the first `/\s#/`. -/
def stripComment : List Char → List Char
  | [] => []
  | c :: rest => if Js.isWhiteSpace c ∧ rest.head? = some '#' then [] else c :: stripComment rest

/-- The value of an entry: the text, whether it is interpolated, and the rest of the input. -/
def readValue (text : List Char) : List Char × Bool × List Char :=
  match text with
  | '\'' :: rest =>
    let (parsed, rest) := readSingleQuoted rest
    (parsed, false, skipToNextLine rest)
  | '"' :: rest =>
    let (parsed, rest) := readDoubleQuoted rest
    (parsed, true, skipToNextLine rest)
  | _ =>
    let raw := stripCarriageReturn (text.takeWhile (· ≠ '\n'))
    (Js.trimChars (stripComment raw), true, skipToNextLine text)

/-- `export` with a blank behind it is passed over. -/
def skipExport (text : List Char) : List Char :=
  if "export".toList.isPrefixOf text ∧ ((text.drop 6).head?.any isBlank) then
    (text.drop 6).dropWhile isBlank
  else text

/-- An entry `NAME = value` at the head of the text; other lines are passed over. -/
def parseEntry (result : Environment) (text : List Char) :
    Except String (Environment × List Char) :=
  match matchName text with
  | none => .ok (result, skipToNextLine text)
  | some (key, rest) =>
    match rest.dropWhile isBlank with
    | '=' :: rest =>
      let (parsed, interpolate, rest) := readValue (rest.dropWhile isBlank)
      if interpolate then
        (interpolateDeploymentEnvironment parsed result).map fun value =>
          (result.set key value, rest)
      else .ok (result.set key parsed, rest)
    | rest => .ok (result, skipToNextLine rest)

/-- One round of the loop of `parseDeploymentEnvironment`. -/
def parseRound (result : Environment) (text : List Char) :
    Except String (Environment × List Char) :=
  match text.dropWhile fun c => isBlank c || c == '\r' with
  | '\n' :: rest => .ok (result, rest)
  | '#' :: rest => .ok (result, skipToNextLine rest)
  | text => parseEntry result (skipExport text)

/-- The loop, for at most `fuel` rounds. -/
def parseFrom : ℕ → Environment → List Char → Except String Environment
  | 0, result, _ => .ok result
  | _ + 1, result, [] => .ok result
  | fuel + 1, result, text =>
    match parseRound result text with
    | .error e => .error e
    | .ok (result, rest) => parseFrom fuel result rest

/-- `parseDeploymentEnvironment`. -/
def parseDeploymentEnvironment (value : List Char) : Except String Environment :=
  parseFrom value.length ∅ value

/-! ### Serialising -/

/-- `value.replace(/[\\']/g, (character) => "\\" + character)`. -/
def escapeValue (value : List Char) : List Char :=
  value.flatMap fun c => if c = '\\' ∨ c = '\'' then ['\\', c] else [c]

/-- One line of the canonical text. -/
def serializeEntry (entry : List Char × List Char) : List Char :=
  entry.1 ++ '=' :: '\'' :: (escapeValue entry.2 ++ ['\''])

/-- `serializeDeploymentEnvironment`. -/
def serializeDeploymentEnvironment (values : Environment) : List Char :=
  ['\n'].intercalate (values.entries.map serializeEntry)

end ComposeBastion
