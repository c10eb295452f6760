import Mathlib.Data.List.Forall2

/-!
# Words of a shell command

The field splitting of a POSIX shell, for a simple command without expansions.  `words` gives
the arguments of the command, or nothing where the text has an unquoted character that would
start an expansion, an operator, a pattern or a comment, or a quotation that is not closed.

* `quote` — a text between single quotes, every single quote in it closed, escaped and opened
  again;
* `Renders` — a text that stands for one word;
* `words_intercalate` — texts with blanks between them are the words they stand for.
-/

namespace ShellWords

/-- A blank between words. -/
def isBlank (c : Char) : Bool := c == ' ' || c == '\t'

/-- An unquoted character with a meaning of its own. -/
def isSpecial (c : Char) : Bool := "\n|&;<>()$`*?[]#~=%!\x7b\x7d".toList.contains c

/-- A character that stands for itself outside of quotes. -/
def isOrdinary (c : Char) : Bool :=
  !isBlank c && !isSpecial c && c != '\'' && c != '"' && c != '\\'

/-- Where the reader is. -/
inductive Mode
  | unquoted | single | double
  deriving DecidableEq, Repr

/-- The words of the text, behind `word`, which has been read of a word that goes on. -/
def wordsFrom : Mode → Option (List Char) → List Char → Option (List (List Char))
  | .unquoted, word, [] => some word.toList
  | _, _, [] => none
  | .unquoted, word, '\\' :: c :: rest =>
    if c = '\n' then wordsFrom .unquoted word rest
    else wordsFrom .unquoted (some (word.getD [] ++ [c])) rest
  | .unquoted, word, c :: rest =>
    if c = '\'' then wordsFrom .single (some (word.getD [])) rest
    else if c = '"' then wordsFrom .double (some (word.getD [])) rest
    else if isBlank c then
      (wordsFrom .unquoted none rest).map (word.toList ++ ·)
    else if isOrdinary c then wordsFrom .unquoted (some (word.getD [] ++ [c])) rest
    else none
  | .single, word, c :: rest =>
    if c = '\'' then wordsFrom .unquoted word rest
    else wordsFrom .single (some (word.getD [] ++ [c])) rest
  | .double, word, '\\' :: c :: rest =>
    if c = '$' ∨ c = '`' ∨ c = '"' ∨ c = '\\' then
      wordsFrom .double (some (word.getD [] ++ [c])) rest
    else if c = '\n' then wordsFrom .double word rest
    else wordsFrom .double (some (word.getD [] ++ ['\\', c])) rest
  | .double, word, c :: rest =>
    if c = '"' then wordsFrom .unquoted word rest
    else if c = '$' ∨ c = '`' ∨ c = '\\' then none
    else wordsFrom .double (some (word.getD [] ++ [c])) rest

/-- The words of a command. -/
def words (text : List Char) : Option (List (List Char)) := wordsFrom .unquoted none text

/-- The inner part of `quote`. -/
def quoteContent (value : List Char) : List Char :=
  value.flatMap fun c => if c = '\'' then ['\'', '\\', '\'', '\''] else [c]

/-- A text between single quotes. -/
def quote (value : List Char) : List Char := '\'' :: (quoteContent value ++ ['\''])

/-- A text that stands for one word. -/
inductive Renders : List Char → List Char → Prop
  | quoted (value : List Char) : Renders (quote value) value
  | plain {word : List Char} : word ≠ [] → (∀ c ∈ word, isOrdinary c = true) → Renders word word

theorem quoteContent_cons (c : Char) (value : List Char) :
    quoteContent (c :: value) =
      (if c = '\'' then ['\'', '\\', '\'', '\''] else [c]) ++ quoteContent value :=
  List.flatMap_cons

/-- Between the quotes every character stands for itself. -/
theorem wordsFrom_quoteContent (value word rest : List Char) :
    wordsFrom .single (some word) (quoteContent value ++ '\'' :: rest) =
      wordsFrom .unquoted (some (word ++ value)) rest := by
  induction value generalizing word with
  | nil => simp [quoteContent, wordsFrom]
  | cons c value ih =>
    rw [quoteContent_cons]
    by_cases hc : c = '\''
    · subst hc
      -- the quote is closed, the character escaped, and the quote opened again
      have hstep : wordsFrom .single (some word)
          ('\'' :: '\\' :: '\'' :: '\'' :: (quoteContent value ++ '\'' :: rest)) =
            wordsFrom .single (some (word ++ ['\''])) (quoteContent value ++ '\'' :: rest) := by
        simp [wordsFrom]
      simp only [if_true, List.cons_append, List.nil_append]
      rw [hstep, ih, List.append_assoc, List.singleton_append]
    · simp only [hc, if_false, List.cons_append, List.nil_append, wordsFrom, Option.getD_some]
      rw [ih, List.append_assoc, List.singleton_append]

theorem wordsFrom_quote (value rest : List Char) :
    wordsFrom .unquoted none (quote value ++ rest) = wordsFrom .unquoted (some value) rest := by
  have hopen : wordsFrom .unquoted none (quote value ++ rest) =
      wordsFrom .single (some []) (quoteContent value ++ '\'' :: rest) := by
    simp [quote, wordsFrom]
  rw [hopen, wordsFrom_quoteContent, List.nil_append]

theorem isOrdinary_facts {c : Char} (h : isOrdinary c = true) :
    c ≠ '\'' ∧ c ≠ '"' ∧ c ≠ '\\' ∧ isBlank c = false := by
  simp only [isOrdinary, Bool.and_eq_true, bne_iff_ne, Bool.not_eq_true'] at h
  exact ⟨h.1.1.2, h.1.2, h.2, h.1.1.1.1⟩

theorem wordsFrom_ordinary {c : Char} (h : isOrdinary c = true) (word : Option (List Char))
    (rest : List Char) :
    wordsFrom .unquoted word (c :: rest) =
      wordsFrom .unquoted (some (word.getD [] ++ [c])) rest := by
  obtain ⟨hsingle, hdouble, hslash, hblank⟩ := isOrdinary_facts h
  rw [wordsFrom.eq_def]
  split
  all_goals simp_all

theorem wordsFrom_plain {plain : List Char} (h : ∀ c ∈ plain, isOrdinary c = true)
    (word : Option (List Char)) (hword : word ≠ none ∨ plain ≠ []) (rest : List Char) :
    wordsFrom .unquoted word (plain ++ rest) =
      wordsFrom .unquoted (some (word.getD [] ++ plain)) rest := by
  induction plain generalizing word with
  | nil =>
    cases word with
    | none => simp at hword
    | some word => simp
  | cons c plain ih =>
    rw [List.cons_append, wordsFrom_ordinary (h c List.mem_cons_self),
      ih (fun d hd => h d (List.mem_cons_of_mem c hd)) _ (.inl (by simp))]
    simp

/-- A rendered word is read as a word. -/
theorem wordsFrom_renders {text value : List Char} (h : Renders text value) (rest : List Char) :
    wordsFrom .unquoted none (text ++ rest) = wordsFrom .unquoted (some value) rest := by
  cases h with
  | quoted => exact wordsFrom_quote value rest
  | plain hne hplain => exact wordsFrom_plain hplain none (.inr hne) rest

/-- **Splitting.**  Rendered words with blanks between them are the words. -/
theorem words_intercalate {texts values : List (List Char)}
    (h : List.Forall₂ Renders texts values) : words ([' '].intercalate texts) = some values := by
  unfold words
  induction h with
  | nil => rfl
  | @cons text value texts values hhead htail ih =>
    cases htail with
    | nil =>
      rw [List.intercalate_singleton, ← List.append_nil text, wordsFrom_renders hhead]
      rfl
    | @cons next _ rest _ hnext hrest =>
      have hblank : ∀ tail, wordsFrom .unquoted (some value) (' ' :: tail) =
          (wordsFrom .unquoted none tail).map (value :: ·) := by
        intro tail
        simp [wordsFrom, isBlank]
      rw [List.intercalate_cons_cons, List.append_assoc, wordsFrom_renders hhead,
        List.singleton_append, hblank, ih]
      rfl

end ShellWords
