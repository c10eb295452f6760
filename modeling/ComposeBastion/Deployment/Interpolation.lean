import ComposeBastion.Deployment.EnvironmentCodec
import Mathlib.Data.List.TakeWhile

namespace ComposeBastion

open Rewriting

/-!
# Interpolation in one pass

`interpolateDeploymentEnvironment` resolves a template by four replacements over the whole
text: `$$` becomes a placeholder, braced variables are resolved, plain variables are resolved,
and the placeholder becomes `$`.  The reference reads the template once, from left to right,
into pieces (`pieces`) and puts the text of every piece into the output (`interpolateOnePass`).

The two agree as long as no replacement finds anything in what an earlier one inserted:

* `Reads` — how a template falls into pieces;
* `replaceBraced_escapeDollars`, `replacePlain_middle`, `unescapeDollars_final` — the passes of
  the code, piece by piece;
* `Undisturbed` — the inserted texts start no plain variable, end up behind no plain variable
  as more of its name, are no operands with `$$`, and make up no placeholder;
* `interpolate_undisturbed` — then the code is the reference.
-/

/-! ### The reference -/

/-- What a template is made of. -/
inductive Piece
  | dollar
  | braced (reference : BracedVariable)
  | plain (key : List Char)
  | char (c : Char)
  deriving DecidableEq, Repr

/-- The piece at the head of a template, and its length. -/
def readPiece : List Char → Option (Piece × ℕ)
  | [] => none
  | '$' :: '$' :: _ => some (.dollar, 2)
  | c :: text =>
    match matchBraced (c :: text) with
    | some (reference, taken) => some (.braced reference, taken)
    | none =>
      match matchPlain (c :: text) with
      | some key => some (.plain key, key.length + 1)
      | none => some (.char c, 1)

/-- The pieces of a template, from left to right. -/
def pieces (template : List Char) : List Piece := matchAll readPiece template

/-- What Compose puts in the place of a variable, by whether it is set and has a text: its value;
    a default where it is unset (`-`) or without a text (`:-`); an alternative where it is not; and
    a failure where a required variable is missing. -/
def composeValue (key : List Char) :
    Option (List Char) → Option (InterpolationOperator × List Char) → Except String (List Char)
  | none, none => .ok []
  | some value, none => .ok value
  | none, some (.dash, operand) | none, some (.colonDash, operand) => .ok operand
  | some [], some (.colonDash, operand) => .ok operand
  | some value, some (.dash, _) | some value, some (.colonDash, _) => .ok value
  | none, some (.plus, _) | none, some (.colonPlus, _) => .ok []
  | some [], some (.colonPlus, _) => .ok []
  | some _, some (.plus, operand) | some _, some (.colonPlus, operand) => .ok operand
  | none, some (.question, _) | none, some (.colonQuestion, _) =>
    .error (missingVariableMessage key)
  | some [], some (.colonQuestion, _) => .error (missingVariableMessage key)
  | some value, some (.question, _) | some value, some (.colonQuestion, _) => .ok value

/-- The code resolves a variable as Compose does. -/
theorem resolveBraced_eq (environment : Environment) (reference : BracedVariable) :
    resolveBraced environment reference =
      composeValue reference.key (environment.get reference.key) reference.operation := by
  obtain ⟨key, operation⟩ := reference
  rcases operation with _ | ⟨operator, operand⟩
  · cases hget : environment.get key <;> simp [resolveBraced, composeValue, hget]
  · rcases hget : environment.get key with _ | (_ | ⟨c, value⟩) <;> cases operator <;>
      simp [resolveBraced, composeValue, hget]

/-- What a piece stands for. -/
def Piece.resolve (environment : Environment) : Piece → Except String (List Char)
  | .dollar => .ok ['$']
  | .braced reference =>
    composeValue reference.key (environment.get reference.key) reference.operation
  | .plain key => .ok ((environment.get key).getD [])
  | .char c => .ok [c]

/-- The pieces with what they stand for, or the failure of the first that fails. -/
def resolvePieces (environment : Environment) :
    List Piece → Except String (List (Piece × List Char))
  | [] => .ok []
  | piece :: rest =>
    match piece.resolve environment with
    | .error e => .error e
    | .ok text => (resolvePieces environment rest).map ((piece, text) :: ·)

/-- The reference: the template is read once and every text is put out as it is. -/
def interpolateOnePass (template : List Char) (environment : Environment) :
    Except String (List Char) :=
  (resolvePieces environment (pieces template)).map (List.flatMap Prod.snd)

/-! ### Where the passes of the code leave the inserted texts alone -/

/-- The operand a braced variable stands for, if it stands for its operand. -/
def usedOperand (environment : Environment) (reference : BracedVariable) : List Char :=
  let present := environment.get reference.key
  match reference.operation with
  | some (.colonDash, operand) => if present.getD [] ≠ [] then [] else operand
  | some (.dash, operand) => if present.isSome then [] else operand
  | some (.colonPlus, operand) => if present.getD [] ≠ [] then operand else []
  | some (.plus, operand) => if present.isSome then operand else []
  | _ => []

/-- The text between the replacement of braced and that of plain variables. -/
def middleText (resolved : List (Piece × List Char)) : List Char :=
  resolved.flatMap fun entry =>
    match entry.1 with
    | .dollar => escapedDollar
    | .plain key => '$' :: key
    | _ => entry.2

/-- The text in front of the last replacement. -/
def finalText (resolved : List (Piece × List Char)) : List Char :=
  resolved.flatMap fun entry => if entry.1 = .dollar then escapedDollar else entry.2

/-- No pass finds anything in the text of `entry` that an earlier pass has inserted, with
    `rest` behind it. -/
def UndisturbedPiece (environment : Environment) (entry : Piece × List Char)
    (rest : List (Piece × List Char)) : Prop :=
  match entry.1 with
  | .dollar => True
  | .braced reference =>
    Misses (literalRule ['$', '$'] escapedDollar) (usedOperand environment reference) [] ∧
      Misses matchPlain entry.2 (middleText rest) ∧
      Misses (literalRule escapedDollar ['$']) entry.2 (finalText rest)
  | .plain _ =>
    (middleText rest).head?.all (fun c => !isNameChar c) = true ∧
      Misses (literalRule escapedDollar ['$']) entry.2 (finalText rest)
  | .char _ => Misses (literalRule escapedDollar ['$']) entry.2 (finalText rest)

/-- No pass finds anything in what an earlier pass has inserted. -/
def Undisturbed (environment : Environment) : List (Piece × List Char) → Prop
  | [] => True
  | entry :: rest => UndisturbedPiece environment entry rest ∧ Undisturbed environment rest

instance UndisturbedPiece.decidable (environment : Environment) :
    ∀ entry rest, Decidable (UndisturbedPiece environment entry rest)
  | (.dollar, _), _ => inferInstanceAs (Decidable True)
  | (.braced _, _), _ => inferInstanceAs (Decidable (_ ∧ _ ∧ _))
  | (.plain _, _), _ => inferInstanceAs (Decidable (_ ∧ _))
  | (.char _, _), _ => Misses.decidable _ _ _

instance Undisturbed.decidable (environment : Environment) :
    ∀ resolved, Decidable (Undisturbed environment resolved)
  | [] => inferInstanceAs (Decidable True)
  | _ :: rest =>
    have := Undisturbed.decidable environment rest
    inferInstanceAs (Decidable (_ ∧ _))

/-! ### Reading a piece -/

/-- The text of an operator. -/
def InterpolationOperator.text : InterpolationOperator → List Char
  | .colonDash => [':', '-']
  | .dash => ['-']
  | .colonPlus => [':', '+']
  | .plus => ['+']
  | .colonQuestion => [':', '?']
  | .question => ['?']

/-- The text of an operator with its operand. -/
def operationText : Option (InterpolationOperator × List Char) → List Char
  | none => []
  | some (operator, operand) => operator.text ++ operand

/-- The text a braced variable is read from. -/
def BracedVariable.source (reference : BracedVariable) : List Char :=
  '$' :: '{' :: (reference.key ++ operationText reference.operation ++ ['}'])

/-- What the pattern of braced variables demands of the parts. -/
def BracedVariable.WellFormed (reference : BracedVariable) : Prop :=
  isName reference.key = true ∧ ∀ operation ∈ reference.operation, '}' ∉ operation.2

theorem matchOperator_text (operator : InterpolationOperator) (rest : List Char) :
    matchOperator (operator.text ++ rest) = some (operator, rest) := by
  cases operator <;> rfl

theorem matchOperator_eq_some {text rest : List Char} {operator : InterpolationOperator}
    (h : matchOperator text = some (operator, rest)) : text = operator.text ++ rest := by
  unfold matchOperator at h
  split at h <;> cases h <;> rfl

theorem takeWhile_operand {operand : List Char} (h : '}' ∉ operand) (rest : List Char) :
    (operand ++ '}' :: rest).takeWhile (· ≠ '}') = operand ∧
      (operand ++ '}' :: rest).dropWhile (· ≠ '}') = '}' :: rest := by
  have hall : ∀ c ∈ operand, (decide (c ≠ '}')) = true := by
    intro c hc
    exact decide_eq_true fun heq => h (heq ▸ hc)
  constructor
  · rw [List.takeWhile_append_of_pos hall, List.takeWhile_cons_of_neg (by decide),
      List.append_nil]
  · rw [List.dropWhile_append_of_pos hall, List.dropWhile_cons_of_neg (by decide)]

theorem notMem_operand (text : List Char) : '}' ∉ text.takeWhile (· ≠ '}') := by
  intro hmem
  have hall := List.all_eq_true.mp (List.all_takeWhile (p := (· ≠ '}')) (l := text)) _ hmem
  simp at hall

theorem eq_operand_append {text : List Char} (h : text.dropWhile (· ≠ '}') ≠ []) :
    ∃ tail, text = text.takeWhile (· ≠ '}') ++ '}' :: tail := by
  induction text with
  | nil => exact absurd rfl h
  | cons c text ih =>
    by_cases hc : c = '}'
    · exact ⟨text, by simp [hc]⟩
    · rw [List.dropWhile_cons_of_pos (by simpa using hc)] at h
      obtain ⟨tail, htail⟩ := ih h
      refine ⟨tail, ?_⟩
      rw [List.takeWhile_cons_of_pos (by simpa using hc), List.cons_append, ← htail]

theorem matchBraced_source {reference : BracedVariable} (h : reference.WellFormed)
    (rest : List Char) :
    matchBraced (reference.source ++ rest) = some (reference, reference.source.length) := by
  obtain ⟨key, operation⟩ := reference
  obtain ⟨hkey, hoperand⟩ := h
  cases operation with
  | none =>
    have hname : matchName (key ++ '}' :: rest) = some (key, '}' :: rest) :=
      matchName_append hkey (by rintro c ⟨⟩; decide)
    simp [BracedVariable.source, operationText, matchBraced, hname]
  | some operation =>
    obtain ⟨operator, operand⟩ := operation
    have hclosed : '}' ∉ operand := hoperand _ rfl
    obtain ⟨htake, hdrop⟩ := takeWhile_operand hclosed rest
    have hname : matchName (key ++ (operator.text ++ (operand ++ '}' :: rest))) =
        some (key, operator.text ++ (operand ++ '}' :: rest)) := by
      refine matchName_append hkey fun c hc => ?_
      cases operator <;> cases hc <;> decide
    have hread := matchOperator_text operator (operand ++ '}' :: rest)
    simp only [BracedVariable.source, operationText, List.cons_append, List.append_assoc,
      List.nil_append, matchBraced, hname]
    cases operator <;>
    · simp only [InterpolationOperator.text, List.cons_append, List.nil_append] at hread ⊢
      simp only [hread, htake, hdrop]
      simp
      omega

theorem matchBraced_eq_some {text : List Char} {reference : BracedVariable} {taken : ℕ}
    (h : matchBraced text = some (reference, taken)) :
    reference.WellFormed ∧ ∃ rest, text = reference.source ++ rest := by
  unfold matchBraced at h
  split at h
  · rename_i text
    split at h
    · cases h
    · rename_i key rest hname
      obtain ⟨rfl, hkey⟩ := matchName_eq_some hname
      split at h
      · rename_i rest
        cases h
        refine ⟨⟨hkey, by simp⟩, rest, ?_⟩
        simp [BracedVariable.source, operationText]
      · split at h
        · cases h
        · rename_i operator rest' hoperator
          cases matchOperator_eq_some hoperator
          by_cases hdrop : rest'.dropWhile (· ≠ '}') = []
          · simp only [hdrop, if_true] at h
            cases h
          · obtain ⟨tail, hsplit⟩ := eq_operand_append hdrop
            simp only [hdrop, if_false, Option.some.injEq, Prod.mk.injEq] at h
            obtain ⟨rfl, -⟩ := h
            refine ⟨⟨hkey, ?_⟩, tail, ?_⟩
            · rintro operation ⟨⟩
              exact notMem_operand rest'
            · simp only [BracedVariable.source, operationText, List.cons_append,
                List.append_assoc, List.nil_append]
              rw [← hsplit]
  · cases h

/-- A `$` that starts no piece of its own: the rest goes on with none of `$`, a name and the
    rest of a braced variable. -/
def PlainDollar (rest : List Char) : Prop :=
  rest.head? ≠ some '$' ∧ matchBraced ('$' :: rest) = none ∧ matchName rest = none

/-- How a template falls into pieces. -/
inductive Reads : List Char → List Piece → Prop
  | nil : Reads [] []
  | dollar {rest : List Char} {found : List Piece} :
      Reads rest found → Reads ('$' :: '$' :: rest) (.dollar :: found)
  | braced {reference : BracedVariable} {rest : List Char} {found : List Piece} :
      reference.WellFormed → Reads rest found →
        Reads (reference.source ++ rest) (.braced reference :: found)
  | plain {key rest : List Char} {found : List Piece} :
      isName key = true → Reads rest found → Reads ('$' :: (key ++ rest)) (.plain key :: found)
  | char {c : Char} {rest : List Char} {found : List Piece} :
      (c = '$' → PlainDollar rest) → Reads rest found → Reads (c :: rest) (.char c :: found)

theorem matchPlain_eq_some {text key : List Char} (h : matchPlain text = some key) :
    isName key = true ∧ ∃ rest, text = '$' :: (key ++ rest) := by
  unfold matchPlain at h
  split at h
  · rename_i text
    obtain ⟨⟨name, rest⟩, hname, rfl⟩ := Option.map_eq_some_iff.mp h
    obtain ⟨rfl, hkey⟩ := matchName_eq_some hname
    exact ⟨hkey, rest, rfl⟩
  · cases h

theorem readPiece_single {c : Char} {text : List Char}
    (hdollar : ¬ (c = '$' ∧ text.head? = some '$')) :
    readPiece (c :: text) =
      match matchBraced (c :: text) with
      | some (reference, taken) => some (.braced reference, taken)
      | none =>
        match matchPlain (c :: text) with
        | some key => some (.plain key, key.length + 1)
        | none => some (.char c, 1) := by
  unfold readPiece
  split
  · rename_i h
    cases h
  · rename_i h
    cases h
    exact absurd ⟨rfl, rfl⟩ hdollar
  · rename_i h
    cases h
    rfl

/-- The pieces of a template are what it falls into. -/
theorem reads_pieces (template : List Char) : Reads template (pieces template) := by
  -- every piece takes a character, so the induction is on the length of the template
  induction hlength : template.length using Nat.strongRecOn generalizing template with
  | ind length ih =>
    have hrest : ∀ (pattern rest : List Char), template = pattern ++ rest → pattern ≠ [] →
        Reads rest (pieces rest) := by
      intro pattern rest heq hne
      have hpos := List.length_pos_iff.mpr hne
      have hsum : template.length = pattern.length + rest.length := by
        rw [heq, List.length_append]
      exact ih rest.length (by omega) rest rfl
    cases template with
    | nil => exact .nil
    | cons c text =>
      by_cases hdollar : c = '$' ∧ text.head? = some '$'
      · obtain ⟨rfl, hhead⟩ := hdollar
        obtain ⟨rest, rfl⟩ : ∃ rest, text = '$' :: rest := by
          cases text with
          | nil => cases hhead
          | cons d rest => exact ⟨rest, by cases hhead; rfl⟩
        rw [pieces, show '$' :: '$' :: rest = ['$', '$'] ++ rest from rfl,
          matchAll_match (by simp) rfl]
        exact .dollar (hrest ['$', '$'] rest rfl (by simp))
      · have hread := readPiece_single hdollar
        cases hbraced : matchBraced (c :: text) with
        | some found =>
          obtain ⟨reference, taken⟩ := found
          obtain ⟨hwell, rest, heq⟩ := matchBraced_eq_some hbraced
          rw [heq, matchBraced_source hwell] at hbraced
          simp only [heq, matchBraced_source hwell rest] at hread
          have hne : reference.source ≠ [] := by simp [BracedVariable.source]
          rw [heq, pieces, matchAll_match hne hread]
          exact .braced hwell (hrest _ rest heq hne)
        | none =>
          cases hplain : matchPlain (c :: text) with
          | some key =>
            obtain ⟨hkey, rest, heq⟩ := matchPlain_eq_some hplain
            simp only [hbraced, hplain] at hread
            rw [heq, ← List.cons_append] at hread ⊢
            rw [pieces, matchAll_match (by simp) hread]
            exact .plain hkey (hrest ('$' :: key) rest heq (by simp))
          | none =>
            simp only [hbraced, hplain] at hread
            rw [show c :: text = [c] ++ text from rfl] at hread ⊢
            rw [pieces, matchAll_match (by simp) hread]
            refine .char ?_ (hrest [c] text rfl (by simp))
            rintro rfl
            refine ⟨fun hhead => hdollar ⟨rfl, hhead⟩, hbraced, ?_⟩
            simpa [matchPlain] using hplain

/-! ### The first pass: `$$` becomes the placeholder -/

/-- The first replacement of `interpolateDeploymentEnvironment`. -/
def escapeDollars (text : List Char) : List Char :=
  replaceAll (literalRule ['$', '$'] escapedDollar) text

theorem escapedDollar_eq_cons :
    escapedDollar = '\x00' :: "COMPOSEBASTION_DOLLAR\x00".toList := by
  decide +kernel

/-- A text is taken apart from the left, pairs of `$` first. -/
theorem dollar_induction {motive : List Char → Prop} (nil : motive [])
    (dollar : ∀ rest, motive rest → motive ('$' :: '$' :: rest))
    (cons : ∀ c rest, ¬ (c = '$' ∧ rest.head? = some '$') → motive rest → motive (c :: rest))
    (text : List Char) : motive text := by
  induction hlength : text.length using Nat.strongRecOn generalizing text with
  | ind length ih =>
    cases text with
    | nil => exact nil
    | cons c rest =>
      by_cases hpair : c = '$' ∧ rest.head? = some '$'
      · obtain ⟨rfl, hhead⟩ := hpair
        cases rest with
        | nil => cases hhead
        | cons d rest =>
          cases hhead
          exact dollar rest (ih rest.length (by simp at hlength; omega) rest rfl)
      · exact cons c rest hpair (ih rest.length (by simp at hlength; omega) rest rfl)

@[simp] theorem escapeDollars_nil : escapeDollars [] = [] := rfl

theorem escapeDollars_dollar (rest : List Char) :
    escapeDollars ('$' :: '$' :: rest) = escapedDollar ++ escapeDollars rest := by
  have hne : ['$', '$'] ≠ [] := by simp
  exact replaceAll_match hne rfl

theorem escapeDollars_cons {c : Char} {rest : List Char}
    (h : ¬ (c = '$' ∧ rest.head? = some '$')) :
    escapeDollars (c :: rest) = c :: escapeDollars rest := by
  apply replaceAll_cons
  rw [literalRule, if_neg]
  intro hfront
  obtain ⟨tail, htail⟩ := List.isPrefixOf_iff_prefix.mp hfront
  simp only [List.cons_append, List.nil_append, List.cons.injEq] at htail
  exact h ⟨htail.1.symm, by rw [← htail.2]; rfl⟩

theorem escapeDollars_append {text : List Char} (h : '$' ∉ text) (rest : List Char) :
    escapeDollars (text ++ rest) = text ++ escapeDollars rest := by
  induction text with
  | nil => rfl
  | cons c text ih =>
    rw [List.mem_cons, not_or] at h
    rw [List.cons_append, escapeDollars_cons (fun hpair => h.1 hpair.1.symm), ih h.2,
      List.cons_append]

/-- No pair of `$` reaches over a brace. -/
theorem escapeDollars_append_brace (text rest : List Char) :
    escapeDollars (text ++ '}' :: rest) = escapeDollars text ++ '}' :: escapeDollars rest := by
  induction text using dollar_induction with
  | nil => exact escapeDollars_cons (by simp)
  | dollar text ih =>
    rw [List.cons_append, List.cons_append, escapeDollars_dollar, escapeDollars_dollar, ih,
      List.append_assoc]
  | cons c text hpair ih =>
    have hpair' : ¬ (c = '$' ∧ (text ++ '}' :: rest).head? = some '$') := by
      rintro ⟨hc, hhead⟩
      cases text with
      | nil => simp at hhead
      | cons d text => exact hpair ⟨hc, hhead⟩
    rw [List.cons_append, escapeDollars_cons hpair', escapeDollars_cons hpair, ih,
      List.cons_append]

theorem brace_mem_escapeDollars {text : List Char} : '}' ∈ escapeDollars text ↔ '}' ∈ text := by
  induction text using dollar_induction with
  | nil => rw [escapeDollars_nil]
  | dollar text ih =>
    have hplaceholder : '}' ∉ escapedDollar := by decide +kernel
    simp only [escapeDollars_dollar, List.mem_append, List.mem_cons, ih, hplaceholder]
    simp
  | cons c text hpair ih => rw [escapeDollars_cons hpair, List.mem_cons, List.mem_cons, ih]

/-- What the first pass put out without a placeholder was there before. -/
theorem eq_append_of_escapeDollars {text found rest : List Char} (hnul : '\x00' ∉ found)
    (h : escapeDollars text = found ++ rest) :
    ∃ tail, text = found ++ tail ∧ escapeDollars tail = rest := by
  induction found generalizing text with
  | nil => exact ⟨text, rfl, h⟩
  | cons c found ih =>
    rw [List.mem_cons, not_or] at hnul
    cases text using dollar_induction with
    | nil => cases h
    | dollar text =>
      rw [escapeDollars_dollar, escapedDollar_eq_cons, List.cons_append, List.cons_append] at h
      exact absurd (List.cons.inj h).1 hnul.1
    | cons d text hpair =>
      rw [escapeDollars_cons hpair, List.cons_append] at h
      obtain ⟨rfl, htext⟩ := List.cons.inj h
      obtain ⟨tail, rfl, htail⟩ := ih hnul.2 htext
      exact ⟨tail, rfl, htail⟩

/-- The braced variable after the first pass: the placeholder stands in its operand too. -/
def BracedVariable.escaped (reference : BracedVariable) : BracedVariable :=
  { reference with
    operation := reference.operation.map fun operation =>
      (operation.1, escapeDollars operation.2) }

theorem BracedVariable.WellFormed.escaped {reference : BracedVariable}
    (h : reference.WellFormed) : reference.escaped.WellFormed := by
  refine ⟨h.1, fun operation hmem => ?_⟩
  obtain ⟨before, hbefore, rfl⟩ := Option.map_eq_some_iff.mp (Option.mem_def.mp hmem)
  exact fun hbrace => h.2 before hbefore (brace_mem_escapeDollars.mp hbrace)

theorem dollar_notMem_of_isName {key : List Char} (h : isName key = true) : '$' ∉ key := by
  intro hmem
  exact ne_of_isNameChar (isNameChar_of_isName h _ hmem) (by decide) rfl

theorem nul_notMem_of_isName {key : List Char} (h : isName key = true) : '\x00' ∉ key := by
  intro hmem
  exact ne_of_isNameChar (isNameChar_of_isName h _ hmem) (by decide) rfl

theorem escapeDollars_source {reference : BracedVariable} (h : reference.WellFormed)
    (rest : List Char) :
    escapeDollars (reference.source ++ rest) =
      reference.escaped.source ++ escapeDollars rest := by
  obtain ⟨key, operation⟩ := reference
  have hkey : '$' ∉ key := dollar_notMem_of_isName h.1
  rw [BracedVariable.source, BracedVariable.source, List.cons_append,
    escapeDollars_cons (by simp), List.cons_append, escapeDollars_cons (by simp)]
  simp only [BracedVariable.escaped, List.append_assoc, List.cons_append, List.nil_append]
  rw [escapeDollars_append hkey]
  cases operation with
  | none =>
    simp only [operationText, Option.map_none, List.nil_append]
    rw [escapeDollars_cons (by simp)]
  | some operation =>
    obtain ⟨operator, operand⟩ := operation
    have hoperator : '$' ∉ operator.text := by cases operator <;> decide
    simp only [operationText, Option.map_some, List.append_assoc]
    rw [escapeDollars_append hoperator, escapeDollars_append_brace]

/-- The first pass makes no braced variable out of a text that is none. -/
theorem matchBraced_escapeDollars {rest : List Char} (h : PlainDollar rest) :
    matchBraced ('$' :: escapeDollars rest) = none := by
  rw [Option.eq_none_iff_forall_ne_some]
  rintro ⟨⟨key, operation⟩, taken⟩ hfound
  obtain ⟨⟨hkey, -⟩, tail, heq⟩ := matchBraced_eq_some hfound
  have hnul : '\x00' ∉ key := nul_notMem_of_isName hkey
  rw [BracedVariable.source, List.cons_append, List.cons.injEq] at heq
  -- the name and the operator were there before the pass, and so was the closing brace
  have hsome : ∃ reference : BracedVariable, ∃ tail, reference.WellFormed ∧
      '$' :: rest = reference.source ++ tail := by
    cases operation with
    | none =>
      have hfield : escapeDollars rest = ('{' :: (key ++ ['}'])) ++ tail := by
        rw [heq.2]
        simp [operationText]
      obtain ⟨tail', hrest, -⟩ := eq_append_of_escapeDollars (by simp [hnul]) hfield
      refine ⟨⟨key, none⟩, tail', ⟨hkey, by simp⟩, ?_⟩
      rw [hrest]
      simp [BracedVariable.source, operationText]
    | some operation =>
      obtain ⟨operator, operand⟩ := operation
      have hoperator : '\x00' ∉ operator.text := by cases operator <;> decide
      have hfield : escapeDollars rest =
          ('{' :: (key ++ operator.text)) ++ (operand ++ '}' :: tail) := by
        rw [heq.2]
        simp [operationText]
      obtain ⟨tail', hrest, htail⟩ :=
        eq_append_of_escapeDollars (by simp [hnul, hoperator]) hfield
      have hbrace : '}' ∈ tail' := by
        rw [← brace_mem_escapeDollars, htail]
        simp
      have hdrop : tail'.dropWhile (· ≠ '}') ≠ [] := by
        intro hnil
        rw [List.dropWhile_eq_nil_iff] at hnil
        simpa using hnil '}' hbrace
      obtain ⟨tail'', hsplit⟩ := eq_operand_append hdrop
      refine ⟨⟨key, some (operator, tail'.takeWhile (· ≠ '}'))⟩, tail'', ⟨hkey, ?_⟩, ?_⟩
      · rintro _ ⟨⟩
        exact notMem_operand tail'
      · rw [hrest, BracedVariable.source, operationText]
        simp only [List.cons_append, List.append_assoc, List.nil_append]
        rw [← hsplit]
  obtain ⟨reference, tail', hwell, hsource⟩ := hsome
  have hnone := h.2.1
  rw [hsource, matchBraced_source hwell] at hnone
  cases hnone

/-! ### The second pass: braced variables -/

section

variable {environment : Environment}

/-- The first pass changes nothing where it finds nothing. -/
theorem escapeDollars_eq_self {text : List Char}
    (h : Misses (literalRule ['$', '$'] escapedDollar) text []) : escapeDollars text = text := by
  have hkept := replaceAll_append h
  rwa [List.append_nil, replaceAll_nil, List.append_nil] at hkept

/-- A variable that is missing is missing with any operand. -/
theorem resolveBraced_escaped_error {reference : BracedVariable} {e : String}
    (h : resolveBraced environment reference = .error e) :
    resolveBraced environment reference.escaped = .error e := by
  obtain ⟨key, operation⟩ := reference
  rcases operation with _ | ⟨operator, operand⟩
  · exact h
  · cases operator <;> first | exact h | cases h

/-- A resolved variable is resolved with any operand, and to the same text unless it stands for
    an operand with `$$`. -/
theorem resolveBraced_escaped_ok {reference : BracedVariable} {text : List Char}
    (h : resolveBraced environment reference = .ok text) :
    ∃ text', resolveBraced environment reference.escaped = .ok text' ∧
      (escapeDollars (usedOperand environment reference) = usedOperand environment reference →
        text' = text) := by
  obtain ⟨key, operation⟩ := reference
  rcases operation with _ | ⟨operator, operand⟩
  · exact ⟨text, h, fun _ => rfl⟩
  · cases operator with
    | colonQuestion => exact ⟨text, h, fun _ => rfl⟩
    | question => exact ⟨text, h, fun _ => rfl⟩
    | _ =>
      cases h
      refine ⟨_, rfl, fun hused => ?_⟩
      simp only [usedOperand, BracedVariable.escaped] at hused ⊢
      split at hused <;> simp_all

theorem bracedRule_none {c : Char} (hc : c ≠ '$') (text : List Char) :
    bracedRule environment (c :: text) = none := by
  unfold bracedRule matchBraced
  split
  · rename_i heq
    exact absurd (List.cons.inj heq).1 hc
  · rfl

theorem misses_bracedRule {text : List Char} (h : '$' ∉ text) (rest : List Char) :
    Misses (bracedRule environment) text rest :=
  misses_of_forall (p := (· = '$')) (fun _ text hc => bracedRule_none hc text)
    (fun _ hc heq => h (heq ▸ hc))

/-- The text after the first two passes. -/
def replaceBraced (environment : Environment) (template : List Char) :
    Except String (List Char) :=
  replaceAllM (bracedRule environment) (escapeDollars template)

theorem dollar_notMem_escapedDollar : '$' ∉ escapedDollar := by decide +kernel

theorem replaceBraced_dollar (rest : List Char) :
    replaceBraced environment ('$' :: '$' :: rest) =
      (replaceBraced environment rest).map (escapedDollar ++ ·) := by
  rw [replaceBraced, escapeDollars_dollar,
    replaceAllM_append (misses_bracedRule dollar_notMem_escapedDollar _)]
  rfl

theorem replaceBraced_braced {reference : BracedVariable} (h : reference.WellFormed)
    (rest : List Char) :
    replaceBraced environment (reference.source ++ rest) =
      match resolveBraced environment reference.escaped with
      | .error e => .error e
      | .ok text => (replaceBraced environment rest).map (text ++ ·) := by
  have hne : reference.escaped.source ≠ [] := by simp [BracedVariable.source]
  have hrule : bracedRule environment (reference.escaped.source ++ escapeDollars rest) =
      some (resolveBraced environment reference.escaped, reference.escaped.source.length) := by
    rw [bracedRule, matchBraced_source h.escaped]
    rfl
  rw [replaceBraced, escapeDollars_source h]
  cases hresolve : resolveBraced environment reference.escaped with
  | error e =>
    rw [hresolve] at hrule
    exact replaceAllM_match_error hne hrule
  | ok text =>
    rw [hresolve] at hrule
    exact replaceAllM_match hne hrule

theorem replaceBraced_plain {key : List Char} (hkey : isName key = true) (rest : List Char) :
    replaceBraced environment ('$' :: (key ++ rest)) =
      (replaceBraced environment rest).map ('$' :: key ++ ·) := by
  have hdollar := dollar_notMem_of_isName hkey
  obtain ⟨c, key, rfl⟩ := List.exists_cons_of_ne_nil (l := key) (by rintro rfl; cases hkey)
  have hc : isNameChar c = true := isNameChar_of_isName hkey c List.mem_cons_self
  rw [replaceBraced, escapeDollars_cons, escapeDollars_append hdollar]
  · show replaceAllM (bracedRule environment) (('$' :: c :: key) ++ escapeDollars rest) = _
    rw [replaceAllM_append]
    · rfl
    · refine ⟨?_, misses_bracedRule hdollar _⟩
      have hbrace : c ≠ '{' := ne_of_isNameChar hc (by decide)
      simp [bracedRule, matchBraced, hbrace]
  · rintro ⟨-, hhead⟩
    exact ne_of_isNameChar hc (by decide) (Option.some.inj hhead)

theorem replaceBraced_char {c : Char} {rest : List Char} (h : c = '$' → PlainDollar rest) :
    replaceBraced environment (c :: rest) =
      (replaceBraced environment rest).map (c :: ·) := by
  rw [replaceBraced, escapeDollars_cons (fun hpair => (h hpair.1).1 hpair.2)]
  apply replaceAllM_cons
  by_cases hc : c = '$'
  · subst hc
    rw [bracedRule, matchBraced_escapeDollars (h rfl)]
    rfl
  · exact bracedRule_none hc _

theorem resolvePieces_cons_error {piece : Piece} {found : List Piece} {e : String}
    (h : resolvePieces environment (piece :: found) = .error e) :
    piece.resolve environment = .error e ∨
      ∃ text, piece.resolve environment = .ok text ∧
        resolvePieces environment found = .error e := by
  rw [resolvePieces] at h
  split at h
  · rename_i hpiece
    cases h
    exact .inl hpiece
  · rename_i text hpiece
    refine .inr ⟨text, hpiece, ?_⟩
    cases hrest : resolvePieces environment found with
    | error e' => rw [hrest] at h; cases h; rfl
    | ok resolved => rw [hrest] at h; cases h

theorem resolvePieces_cons_ok {piece : Piece} {found : List Piece}
    {resolved : List (Piece × List Char)}
    (h : resolvePieces environment (piece :: found) = .ok resolved) :
    ∃ text rest, piece.resolve environment = .ok text ∧
      resolvePieces environment found = .ok rest ∧ resolved = (piece, text) :: rest := by
  rw [resolvePieces] at h
  split at h
  · cases h
  · rename_i text hpiece
    cases hrest : resolvePieces environment found with
    | error e => rw [hrest] at h; cases h
    | ok rest => rw [hrest] at h; cases h; exact ⟨text, rest, hpiece, rfl, rfl⟩

/-- The code fails where the reference fails, with the same message. -/
theorem replaceBraced_error {template : List Char} {found : List Piece} {e : String}
    (h : Reads template found) (hresolved : resolvePieces environment found = .error e) :
    replaceBraced environment template = .error e := by
  induction h with
  | nil => cases hresolved
  | dollar _ ih =>
    obtain hpiece | ⟨text, -, hrest⟩ := resolvePieces_cons_error hresolved
    · cases hpiece
    · rw [replaceBraced_dollar, ih hrest]
      rfl
  | braced hwell _ ih =>
    rw [replaceBraced_braced hwell]
    obtain hpiece | ⟨text, hpiece, hrest⟩ := resolvePieces_cons_error hresolved
    · rw [resolveBraced_escaped_error ((resolveBraced_eq _ _).trans hpiece)]
    · obtain ⟨text', htext', -⟩ := resolveBraced_escaped_ok ((resolveBraced_eq _ _).trans hpiece)
      rw [htext', ih hrest]
      rfl
  | plain hkey _ ih =>
    obtain hpiece | ⟨text, -, hrest⟩ := resolvePieces_cons_error hresolved
    · cases hpiece
    · rw [replaceBraced_plain hkey, ih hrest]
      rfl
  | char hc _ ih =>
    obtain hpiece | ⟨text, -, hrest⟩ := resolvePieces_cons_error hresolved
    · cases hpiece
    · rw [replaceBraced_char hc, ih hrest]
      rfl

/-- After the second pass every piece but the plain variables is what it stands for. -/
theorem replaceBraced_ok {template : List Char} {found : List Piece}
    {resolved : List (Piece × List Char)} (h : Reads template found)
    (hresolved : resolvePieces environment found = .ok resolved)
    (hundisturbed : Undisturbed environment resolved) :
    replaceBraced environment template = .ok (middleText resolved) := by
  induction h generalizing resolved with
  | nil => cases hresolved; rfl
  | dollar _ ih =>
    obtain ⟨text, rest, -, hrest, rfl⟩ := resolvePieces_cons_ok hresolved
    rw [replaceBraced_dollar, ih hrest hundisturbed.2]
    rfl
  | braced hwell _ ih =>
    obtain ⟨text, rest, hpiece, hrest, rfl⟩ := resolvePieces_cons_ok hresolved
    obtain ⟨text', htext', heq⟩ := resolveBraced_escaped_ok ((resolveBraced_eq _ _).trans hpiece)
    obtain rfl := heq (escapeDollars_eq_self hundisturbed.1.1)
    rw [replaceBraced_braced hwell, htext', ih hrest hundisturbed.2]
    rfl
  | plain hkey _ ih =>
    obtain ⟨text, rest, -, hrest, rfl⟩ := resolvePieces_cons_ok hresolved
    rw [replaceBraced_plain hkey, ih hrest hundisturbed.2]
    rfl
  | char hc _ ih =>
    obtain ⟨text, rest, hpiece, hrest, rfl⟩ := resolvePieces_cons_ok hresolved
    cases hpiece
    rw [replaceBraced_char hc, ih hrest hundisturbed.2]
    rfl

/-! ### The third pass: plain variables -/

theorem matchPlain_none {c : Char} (hc : c ≠ '$') (text : List Char) :
    matchPlain (c :: text) = none := by
  unfold matchPlain
  split
  · rename_i heq
    exact absurd (List.cons.inj heq).1 hc
  · rfl

theorem misses_plainRule {text rest : List Char} (h : Misses matchPlain text rest) :
    Misses (plainRule environment) text rest :=
  h.map fun text hnone => by rw [plainRule, hnone]; rfl

theorem misses_matchPlain {text : List Char} (h : '$' ∉ text) (rest : List Char) :
    Misses matchPlain text rest :=
  misses_of_forall (p := (· = '$')) (fun _ text hc => matchPlain_none hc text)
    (fun _ hc heq => h (heq ▸ hc))

theorem reads_cons {c : Char} {rest : List Char} {found : List Piece}
    (h : Reads (c :: rest) found) (hc : c ≠ '$') : ∃ found', found = .char c :: found' := by
  generalize htemplate : c :: rest = template at h
  cases h with
  | nil => cases htemplate
  | dollar => exact absurd (List.cons.inj htemplate).1 hc
  | braced => exact absurd (List.cons.inj htemplate).1 hc
  | plain => exact absurd (List.cons.inj htemplate).1 hc
  | char => cases htemplate; exact ⟨_, rfl⟩

/-- A `$` that is no variable in the template is none after the second pass. -/
theorem matchPlain_middleText {rest : List Char} {found : List Piece}
    {resolved : List (Piece × List Char)} (hplain : PlainDollar rest) (h : Reads rest found)
    (hresolved : resolvePieces environment found = .ok resolved) :
    matchPlain ('$' :: middleText resolved) = none := by
  obtain ⟨hhead, -, hname⟩ := hplain
  cases rest with
  | nil =>
    generalize htemplate : ([] : List Char) = template at h
    cases h <;> cases htemplate
    cases hresolved
    rfl
  | cons c rest =>
    have hc : c ≠ '$' := by
      rintro rfl
      exact hhead rfl
    obtain ⟨found', rfl⟩ := reads_cons h hc
    obtain ⟨text, tail, hpiece, -, rfl⟩ := resolvePieces_cons_ok hresolved
    cases hpiece
    have hstart : isNameStart c = false := by
      rw [matchName] at hname
      by_contra hstart
      rw [if_pos (by simpa using hstart)] at hname
      cases hname
    show (matchName (c :: middleText tail)).map Prod.fst = none
    rw [matchName, hstart]
    rfl

/-- The third pass resolves the plain variables of the template and nothing else. -/
theorem replacePlain_middleText {template : List Char} {found : List Piece}
    {resolved : List (Piece × List Char)} (h : Reads template found)
    (hresolved : resolvePieces environment found = .ok resolved)
    (hundisturbed : Undisturbed environment resolved) :
    replaceAll (plainRule environment) (middleText resolved) = finalText resolved := by
  induction h generalizing resolved with
  | nil => cases hresolved; rfl
  | dollar _ ih =>
    obtain ⟨text, rest, -, hrest, rfl⟩ := resolvePieces_cons_ok hresolved
    have hmiss := misses_matchPlain dollar_notMem_escapedDollar (middleText rest)
    show replaceAll _ (escapedDollar ++ middleText rest) = _
    rw [replaceAll_append (misses_plainRule hmiss), ih hrest hundisturbed.2]
    rfl
  | braced _ _ ih =>
    obtain ⟨text, rest, -, hrest, rfl⟩ := resolvePieces_cons_ok hresolved
    have hmiss : Misses matchPlain text (middleText rest) := hundisturbed.1.2.1
    show replaceAll _ (text ++ middleText rest) = _
    rw [replaceAll_append (misses_plainRule hmiss), ih hrest hundisturbed.2]
    rfl
  | @plain key _ _ hkey _ ih =>
    obtain ⟨text, rest, hpiece, hrest, rfl⟩ := resolvePieces_cons_ok hresolved
    cases hpiece
    have hbehind : ∀ c ∈ (middleText rest).head?, isNameChar c = false := by
      intro c hc
      simpa [Option.mem_def.mp hc] using hundisturbed.1.1
    have hrule : plainRule environment (('$' :: key) ++ middleText rest) =
        some ((environment.get key).getD [], ('$' :: key).length) := by
      rw [plainRule, List.cons_append, matchPlain, matchName_append hkey hbehind]
      rfl
    show replaceAll _ (('$' :: key) ++ middleText rest) = _
    rw [replaceAll_match (by simp) hrule, ih hrest hundisturbed.2]
    rfl
  | @char c _ _ hc hreads ih =>
    obtain ⟨text, rest, hpiece, hrest, rfl⟩ := resolvePieces_cons_ok hresolved
    cases hpiece
    have hnone : matchPlain (c :: middleText rest) = none := by
      by_cases hdollar : c = '$'
      · subst hdollar
        exact matchPlain_middleText (hc rfl) hreads hrest
      · exact matchPlain_none hdollar _
    show replaceAll _ (c :: middleText rest) = _
    rw [replaceAll_cons (by rw [plainRule, hnone]; rfl), ih hrest hundisturbed.2]
    rfl

/-! ### The last pass: the placeholder becomes `$` -/

/-- The last pass finds the placeholders of the first and no others. -/
theorem unescapeDollars_finalText {template : List Char} {found : List Piece}
    {resolved : List (Piece × List Char)} (h : Reads template found)
    (hresolved : resolvePieces environment found = .ok resolved)
    (hundisturbed : Undisturbed environment resolved) :
    replaceAll (literalRule escapedDollar ['$']) (finalText resolved) =
      resolved.flatMap Prod.snd := by
  induction h generalizing resolved with
  | nil => cases hresolved; rfl
  | dollar _ ih =>
    obtain ⟨text, rest, hpiece, hrest, rfl⟩ := resolvePieces_cons_ok hresolved
    cases hpiece
    have hrule : literalRule escapedDollar ['$'] (escapedDollar ++ finalText rest) =
        some (['$'], escapedDollar.length) := by
      rw [literalRule, if_pos (List.isPrefixOf_iff_prefix.mpr (List.prefix_append _ _))]
    show replaceAll _ (escapedDollar ++ finalText rest) = _
    rw [replaceAll_match (by decide +kernel) hrule, ih hrest hundisturbed.2]
    rfl
  | braced _ _ ih =>
    obtain ⟨text, rest, -, hrest, rfl⟩ := resolvePieces_cons_ok hresolved
    show replaceAll _ (text ++ finalText rest) = _
    rw [replaceAll_append hundisturbed.1.2.2, ih hrest hundisturbed.2]
    rfl
  | plain _ _ ih =>
    obtain ⟨text, rest, -, hrest, rfl⟩ := resolvePieces_cons_ok hresolved
    show replaceAll _ (text ++ finalText rest) = _
    rw [replaceAll_append hundisturbed.1.2, ih hrest hundisturbed.2]
    rfl
  | char _ _ ih =>
    obtain ⟨text, rest, -, hrest, rfl⟩ := resolvePieces_cons_ok hresolved
    show replaceAll _ (text ++ finalText rest) = _
    rw [replaceAll_append hundisturbed.1, ih hrest hundisturbed.2]
    rfl

end

/-! ### The code against the reference -/

theorem interpolate_eq_passes (template : List Char) (environment : Environment) :
    interpolateDeploymentEnvironment template environment =
      ((replaceBraced environment template).map (replaceAll (plainRule environment))).map
        (replaceAll (literalRule escapedDollar ['$'])) := rfl

/-- **One pass.**  Where no replacement finds anything in what an earlier one has inserted, the
    four replacements of the code are one pass over the template. -/
theorem interpolate_undisturbed (template : List Char) (environment : Environment)
    (h : ∀ resolved, resolvePieces environment (pieces template) = .ok resolved →
      Undisturbed environment resolved) :
    interpolateDeploymentEnvironment template environment =
      interpolateOnePass template environment := by
  have hreads := reads_pieces template
  rw [interpolate_eq_passes, interpolateOnePass]
  cases hresolved : resolvePieces environment (pieces template) with
  | error e =>
    rw [replaceBraced_error hreads hresolved]
    rfl
  | ok resolved =>
    have hundisturbed := h resolved hresolved
    rw [replaceBraced_ok hreads hresolved hundisturbed]
    show Except.ok (replaceAll _ (replaceAll _ (middleText resolved))) = _
    rw [replacePlain_middleText hreads hresolved hundisturbed,
      unescapeDollars_finalText hreads hresolved hundisturbed]
    rfl

/-- The environment `HOST=db`, `PRICE='5$'`. -/
def hostAndPrice : Environment :=
  ((∅ : Environment).set "HOST".toList "db".toList).set "PRICE".toList "5$".toList

/-- `$HOST:${PORT:-5432} $$1 ${PRICE}`. -/
def hostAndPriceTemplate : List Char :=
  "$HOST:$\x7bPORT:-5432\x7d $$1 $\x7bPRICE\x7d".toList

/-- It is `db:5432 $1 5$`, for the code and for the reference. -/
theorem interpolate_host_and_price :
    interpolateDeploymentEnvironment hostAndPriceTemplate hostAndPrice =
        interpolateOnePass hostAndPriceTemplate hostAndPrice ∧
      interpolateOnePass hostAndPriceTemplate hostAndPrice =
        .ok "db:5432 $1 5$".toList := by
  have hundisturbed : ((resolvePieces hostAndPrice (pieces hostAndPriceTemplate)).toOption.all
      fun resolved => decide (Undisturbed hostAndPrice resolved)) = true := by decide +kernel
  refine ⟨interpolate_undisturbed _ _ fun resolved hresolved => ?_, by decide +kernel⟩
  rw [hresolved] at hundisturbed
  exact of_decide_eq_true hundisturbed

/-- The environment `PASSWORD='pa$word'`. -/
def dollarPassword : Environment := (∅ : Environment).set "PASSWORD".toList "pa$word".toList

/-- `postgres://app:${PASSWORD}@db`. -/
def databaseTemplate : List Char := "postgres://app:$\x7bPASSWORD\x7d@db".toList

/-- The password is put in by the pass for braced variables and read again by the pass for
    plain ones, which finds `$word` in it. -/
theorem inserted_password_is_rescanned :
    interpolateDeploymentEnvironment databaseTemplate dollarPassword =
        .ok "postgres://app:pa@db".toList ∧
      interpolateOnePass databaseTemplate dollarPassword =
        .ok "postgres://app:pa$word@db".toList ∧
      ¬ ∀ (template : List Char) (environment : Environment),
        interpolateDeploymentEnvironment template environment =
          interpolateOnePass template environment := by
  have hcode : interpolateDeploymentEnvironment databaseTemplate dollarPassword =
      .ok "postgres://app:pa@db".toList := by decide +kernel
  have hreference : interpolateOnePass databaseTemplate dollarPassword =
      .ok "postgres://app:pa$word@db".toList := by decide +kernel
  refine ⟨hcode, hreference, fun hall => ?_⟩
  have heq := hall databaseTemplate dollarPassword
  rw [hcode, hreference] at heq
  exact absurd (Except.ok.inj heq) (by decide +kernel)

end ComposeBastion
