import ComposeBastion.Recovery.StandaloneClone

namespace ComposeBastion

open Js

/-!
# The command parser of the agent

`security.ts` of the agent: a command arrives as one line of shell text and is executed without
a shell, so the agent takes it apart into words itself.

* `tokenize` — words and operators; nothing for what it does not support;
* `parsePermittedDockerCommand` — `docker …`, optionally behind `cd … &&`, `DOCKER_HOST=…` or a
  piped password;
* `tokenizeWord_shQuote` — a quoted argument is read to its end, whatever is in it;
* `parse_quoted_arguments` — the arguments of a quoted command, if none of them is empty.

An argument that is empty has no word: the reader gives up where a word ends without a
character, which only happens behind an empty quotation.
-/

/-! ### Tokens -/

/-- `ShellToken`. -/
inductive ShellToken
  | word (value : List Char)
  | op (value : List Char)
  deriving DecidableEq, Repr

def isOperatorStart (c : Char) : Bool := [';', '|', '&', '<', '>', '(', ')'].contains c

/-- Where the loop over the characters of a word is; in an escaped state it takes the character
    behind a backslash. -/
inductive QuoteState
  | unquoted | escaped | single | double | doubleEscaped
  deriving DecidableEq, Repr

/-- The inner loop of `tokenize`: the rest of a word behind `value`, and the text behind it. -/
def tokenizeWord : QuoteState → List Char → List Char → Option (List Char × List Char)
  | state, value, [] => if state = .unquoted then some (value, []) else none
  | .unquoted, value, c :: rest =>
    if isWhiteSpace c || isOperatorStart c then some (value, c :: rest)
    else if c = '\'' then tokenizeWord .single value rest
    else if c = '"' then tokenizeWord .double value rest
    else if c = '`' ∨ (c = '$' ∧ rest.head? = some '(') then none
    else if c = '\\' ∧ rest ≠ [] then tokenizeWord .escaped value rest
    else tokenizeWord .unquoted (value ++ [c]) rest
  | .escaped, value, c :: rest => tokenizeWord .unquoted (value ++ [c]) rest
  | .single, value, c :: rest =>
    if c = '\'' then tokenizeWord .unquoted value rest
    else tokenizeWord .single (value ++ [c]) rest
  | .double, value, c :: rest =>
    if c = '"' then tokenizeWord .unquoted value rest
    else if c = '`' ∨ (c = '$' ∧ rest.head? = some '(') then none
    else if c = '\\' ∧ rest ≠ [] then tokenizeWord .doubleEscaped value rest
    else tokenizeWord .double (value ++ [c]) rest
  | .doubleEscaped, value, c :: rest => tokenizeWord .double (value ++ [c]) rest

/-- An operator at the head of the text, and the text behind it. -/
def readOperator : List Char → Option (List Char × List Char)
  | '&' :: '&' :: rest => some (['&', '&'], rest)
  | '|' :: '|' :: rest => some (['|', '|'], rest)
  | c :: rest => if isOperatorStart c then some ([c], rest) else none
  | [] => none

/-- The outer loop of `tokenize`, for at most `fuel` rounds. -/
def tokenizeFrom : ℕ → List Char → Option (List ShellToken)
  | 0, _ => some []
  | fuel + 1, text =>
    let text := text.dropWhile isWhiteSpace
    if text = [] then some []
    else
      match readOperator text with
      | some (value, rest) => (tokenizeFrom fuel rest).map (.op value :: ·)
      | none =>
        match tokenizeWord .unquoted [] text with
        | none => none
        | some (value, rest) =>
          if value = [] then none else (tokenizeFrom fuel rest).map (.word value :: ·)

/-- `tokenize`; every round takes a character. -/
def tokenize (command : List Char) : Option (List ShellToken) :=
  tokenizeFrom command.length command

/-! ### Commands -/

/-- `ParsedDockerCommand`. -/
structure ParsedDockerCommand where
  args : List (List Char)
  cwd : Option (List Char)
  dockerHost : Option (List Char)
  stdin : Option (List Char)
  deriving DecidableEq, Repr

def ShellToken.value? : ShellToken → Option (List Char)
  | .word value => some value
  | .op _ => none

/-- The words of a list of tokens without operators. -/
def wordsOnly (tokens : List ShellToken) : Option (List (List Char)) :=
  tokens.mapM ShellToken.value?

/-- `DOCKER_HOST=`. -/
def dockerHostPrefix : List Char := "DOCKER_HOST=".toList

/-- `docker` with its arguments. -/
def dockerArguments (tokens : List ShellToken) (cwd dockerHost : Option (List Char)) :
    Option ParsedDockerCommand :=
  match wordsOnly tokens with
  | some (command :: args) =>
    if command = "docker".toList ∧ args ≠ [] then some ⟨args, cwd, dockerHost, none⟩ else none
  | _ => none

def parseDockerInvocation (tokens : List ShellToken) (cwd : Option (List Char)) :
    Option ParsedDockerCommand :=
  match tokens with
  | .word first :: remaining =>
    if dockerHostPrefix.isPrefixOf first then
      let dockerHost := first.drop dockerHostPrefix.length
      if dockerHost = [] then none else dockerArguments remaining cwd (some dockerHost)
    else dockerArguments tokens cwd none
  | _ => dockerArguments tokens cwd none

def parseDockerLoginPipe (tokens : List ShellToken) (cwd : Option (List Char)) :
    Option ParsedDockerCommand :=
  match tokens with
  | .word printf :: .word format :: .word secret :: .op pipe :: rest =>
    if printf = "printf".toList ∧ format = "%s".toList ∧ pipe = ['|'] then
      match wordsOnly rest with
      | some (command :: args) =>
        if command = "docker".toList ∧ args.head? = some "login".toList ∧
            args.contains "--password-stdin".toList then
          some ⟨args, cwd, none, some secret⟩
        else none
      | _ => none
    else none
  | _ => none

def parsePermittedDockerCommand (command : List Char) : Option ParsedDockerCommand :=
  match tokenize (trimChars command) with
  | none => none
  | some [] => none
  | some tokens =>
    match tokens with
    | .word first :: .word directory :: .op conjunction :: remaining =>
      if first = "cd".toList ∧ conjunction = ['&', '&'] then
        if directory = [] then none
        else (parseDockerLoginPipe remaining (some directory)).or
          (parseDockerInvocation remaining (some directory))
      else (parseDockerLoginPipe tokens none).or (parseDockerInvocation tokens none)
    | _ => (parseDockerLoginPipe tokens none).or (parseDockerInvocation tokens none)

/-- `isPermittedDockerCommand`. -/
def isPermittedDockerCommand (command : List Char) : Bool :=
  (parsePermittedDockerCommand command).isSome

/-! ### The rounds end -/

theorem length_readOperator {text value rest : List Char}
    (h : readOperator text = some (value, rest)) : rest.length < text.length := by
  unfold readOperator at h
  split at h
  · cases h; simp only [List.length_cons]; omega
  · cases h; simp only [List.length_cons]; omega
  · split at h
    · cases h; simp only [List.length_cons]; omega
    · cases h
  · cases h

/-- A word takes at least as many characters as it has. -/
theorem length_tokenizeWord {state : QuoteState} {value text word rest : List Char}
    (h : tokenizeWord state value text = some (word, rest)) :
    word.length + rest.length ≤ value.length + text.length := by
  induction hlength : text.length using Nat.strongRecOn generalizing state value text with
  | ind n ih =>
    -- a turn goes on with a shorter text, behind the value or behind one more character of it
    have hsame : ∀ {state' : QuoteState} {text' : List Char}, text'.length < n →
        tokenizeWord state' value text' = some (word, rest) →
        word.length + rest.length ≤ value.length + n := by
      intro state' text' hlt h'
      have := ih text'.length hlt h' rfl
      omega
    have hmore : ∀ {state' : QuoteState} {c : Char} {text' : List Char}, text'.length < n →
        tokenizeWord state' (value ++ [c]) text' = some (word, rest) →
        word.length + rest.length ≤ value.length + n := by
      intro state' c text' hlt h'
      have := ih text'.length hlt h' rfl
      rw [List.length_append, List.length_singleton] at this
      omega
    cases text with
    | nil =>
      rw [tokenizeWord] at h
      split at h
      · cases h; omega
      · cases h
    | cons c text =>
      have hlt : text.length < n := by rw [← hlength, List.length_cons]; omega
      cases state with
      | unquoted =>
        rw [tokenizeWord] at h
        split_ifs at h
        · cases h; omega
        · exact hsame hlt h
        · exact hsame hlt h
        · exact hsame hlt h
        · exact hmore hlt h
      | escaped => rw [tokenizeWord] at h; exact hmore hlt h
      | single =>
        rw [tokenizeWord] at h
        split_ifs at h
        · exact hsame hlt h
        · exact hmore hlt h
      | double =>
        rw [tokenizeWord] at h
        split_ifs at h
        · exact hsame hlt h
        · exact hsame hlt h
        · exact hmore hlt h
      | doubleEscaped => rw [tokenizeWord] at h; exact hmore hlt h

/-- The length of the text is fuel enough. -/
theorem tokenizeFrom_fuel {fuel fuel' : ℕ} {text : List Char} (h : text.length ≤ fuel)
    (h' : text.length ≤ fuel') : tokenizeFrom fuel text = tokenizeFrom fuel' text := by
  induction fuel generalizing fuel' text with
  | zero =>
    have hnil : text = [] := List.length_eq_zero_iff.mp (Nat.le_zero.mp h)
    subst hnil
    cases fuel' <;> rfl
  | succ fuel ih =>
    cases fuel' with
    | zero =>
      have hnil : text = [] := List.length_eq_zero_iff.mp (Nat.le_zero.mp h')
      subst hnil
      rfl
    | succ fuel' =>
      have hdrop : (text.dropWhile isWhiteSpace).length ≤ text.length :=
        (List.dropWhile_sublist _).length_le
      rw [tokenizeFrom, tokenizeFrom]
      generalize text.dropWhile isWhiteSpace = text' at hdrop
      by_cases hnil : text' = []
      · rw [if_pos hnil, if_pos hnil]
      · rw [if_neg hnil, if_neg hnil]
        cases hop : readOperator text' with
        | some found =>
          obtain ⟨value, rest⟩ := found
          have hlt := length_readOperator hop
          simp only
          rw [ih (by omega) (by omega : rest.length ≤ fuel')]
        | none =>
          cases hword : tokenizeWord .unquoted [] text' with
          | none => rfl
          | some found =>
            obtain ⟨value, rest⟩ := found
            simp only
            by_cases hvalue : value = []
            · rw [if_pos hvalue, if_pos hvalue]
            · have hlt := length_tokenizeWord hword
              have hpos := List.length_pos_iff.mpr hvalue
              rw [List.length_nil] at hlt
              rw [if_neg hvalue, if_neg hvalue, ih (by omega) (by omega : rest.length ≤ fuel')]

/-! ### Quoted arguments -/

theorem tokenizeWord_close (value rest : List Char) :
    tokenizeWord .single value ('\'' :: rest) = tokenizeWord .unquoted value rest := by
  rw [tokenizeWord, if_pos rfl]

theorem tokenizeWord_kept {c : Char} (hc : c ≠ '\'') (value rest : List Char) :
    tokenizeWord .single value (c :: rest) = tokenizeWord .single (value ++ [c]) rest := by
  rw [tokenizeWord, if_neg hc]

theorem quote_facts : isWhiteSpace '\'' = false ∧ isOperatorStart '\'' = false := by decide

theorem backslash_facts : isWhiteSpace '\\' = false ∧ isOperatorStart '\\' = false := by decide

theorem tokenizeWord_escaped (c : Char) (value rest : List Char) :
    tokenizeWord .unquoted value ('\\' :: c :: rest) =
      tokenizeWord .unquoted (value ++ [c]) rest := by
  rw [tokenizeWord, backslash_facts.1, backslash_facts.2]
  simp only [Bool.or_self, Bool.false_eq_true, if_false, reduceCtorEq, Char.reduceEq, false_and,
    or_self, ne_eq, not_false_eq_true, and_self, if_true]
  rw [tokenizeWord]

theorem tokenizeWord_open (value rest : List Char) :
    tokenizeWord .unquoted value ('\'' :: rest) = tokenizeWord .single value rest := by
  rw [tokenizeWord, quote_facts.1, quote_facts.2]
  simp

/-- A word ends at a blank. -/
theorem tokenizeWord_end {c : Char} (hc : isWhiteSpace c = true) (value rest : List Char) :
    tokenizeWord .unquoted value (c :: rest) = some (value, c :: rest) := by
  rw [tokenizeWord, hc]
  simp

/-- Between single quotes every character stands for itself. -/
theorem tokenizeWord_quoteContent (argument value rest : List Char) :
    tokenizeWord .single value (ShellWords.quoteContent argument ++ '\'' :: rest) =
      tokenizeWord .unquoted (value ++ argument) rest := by
  induction argument generalizing value with
  | nil =>
    rw [List.append_nil]
    exact tokenizeWord_close value rest
  | cons c argument ih =>
    rw [ShellWords.quoteContent_cons, List.append_cons value c argument]
    by_cases hc : c = '\''
    · -- the quote is closed, the character escaped, and the quote opened again
      subst hc
      rw [if_pos rfl]
      show tokenizeWord .single value
        ('\'' :: '\\' :: '\'' :: '\'' :: (ShellWords.quoteContent argument ++ '\'' :: rest)) = _
      rw [tokenizeWord_close, tokenizeWord_escaped, tokenizeWord_open, ih]
    · rw [if_neg hc]
      show tokenizeWord .single value (c :: (ShellWords.quoteContent argument ++ '\'' :: rest)) = _
      rw [tokenizeWord_kept hc, ih]

theorem quote_append (argument rest : List Char) :
    ShellWords.quote argument ++ rest =
      '\'' :: (ShellWords.quoteContent argument ++ '\'' :: rest) := by
  rw [ShellWords.quote, List.cons_append, List.append_assoc, List.singleton_append]

/-- A quoted argument is read to its closing quote. -/
theorem tokenizeWord_shQuote (argument rest : List Char)
    (hrest : ∀ c ∈ rest.head?, isWhiteSpace c = true) :
    tokenizeWord .unquoted [] (ShellWords.quote argument ++ rest) = some (argument, rest) := by
  rw [quote_append, tokenizeWord_open, tokenizeWord_quoteContent, List.nil_append]
  cases rest with
  | nil => rw [tokenizeWord, if_pos rfl]
  | cons c rest => exact tokenizeWord_end (hrest c rfl) argument rest

/-- The quoted arguments with a blank before each. -/
def quotedArguments (args : List (List Char)) : List Char :=
  args.flatMap fun argument => ' ' :: ShellWords.quote argument

theorem head?_quotedArguments (args : List (List Char)) :
    ∀ c ∈ (quotedArguments args).head?, isWhiteSpace c = true := by
  cases args with
  | nil => intro c hc; cases hc
  | cons argument args => rintro c ⟨⟩; decide

/-- The quoted arguments are the words, if none of them is empty. -/
theorem tokenizeFrom_quotedArguments (args : List (List Char)) {fuel : ℕ}
    (h : args.length ≤ fuel) :
    tokenizeFrom fuel (quotedArguments args) =
      if [] ∈ args then none else some (args.map .word) := by
  induction args generalizing fuel with
  | nil => cases fuel <;> rfl
  | cons argument args ih =>
    cases fuel with
    | zero => exact absurd h (by simp)
    | succ fuel =>
      rw [List.length_cons] at h
      have hdrop : (quotedArguments (argument :: args)).dropWhile isWhiteSpace =
          ShellWords.quote argument ++ quotedArguments args := by
        show (' ' :: (ShellWords.quote argument ++ quotedArguments args)).dropWhile _ = _
        rw [List.dropWhile_cons_of_pos (by decide), quote_append,
          List.dropWhile_cons_of_neg (by decide)]
      have hne : ShellWords.quote argument ++ quotedArguments args ≠ [] := by
        rw [quote_append]
        exact List.cons_ne_nil _ _
      have hop : readOperator (ShellWords.quote argument ++ quotedArguments args) = none := by
        rw [quote_append, readOperator, quote_facts.2]
        · rfl
        · intro rest heq
          exact absurd heq (by decide)
        · intro rest heq
          exact absurd heq (by decide)
      rw [tokenizeFrom]
      simp only [hdrop, if_neg hne, hop,
        tokenizeWord_shQuote argument _ (head?_quotedArguments args)]
      rw [ih (Nat.le_of_succ_le_succ h)]
      by_cases hnil : argument = []
      · rw [if_pos hnil, if_pos (by rw [hnil]; exact List.mem_cons_self)]
      · rw [if_neg hnil]
        by_cases hmem : [] ∈ args
        · rw [if_pos hmem, if_pos (List.mem_cons_of_mem _ hmem)]
          rfl
        · rw [if_neg hmem, if_neg (by simp [hmem, Ne.symm hnil])]
          rfl

/-! ### The command of a quoted argument list -/

/-- `docker ` and the quoted arguments with single blanks between them. -/
def dockerCommandLine (args : List (List Char)) : List Char :=
  "docker ".toList ++ [' '].intercalate (args.map ShellWords.quote)

theorem dockerCommandLine_eq {args : List (List Char)} (hne : args ≠ []) :
    dockerCommandLine args = "docker".toList ++ quotedArguments args := by
  have hjoin : ' ' :: [' '].intercalate (args.map ShellWords.quote) = quotedArguments args := by
    induction args with
    | nil => exact absurd rfl hne
    | cons argument args ih =>
      cases args with
      | nil =>
        rw [List.map_cons, List.map_nil, List.intercalate_singleton, quotedArguments,
          List.flatMap_singleton]
      | cons next args =>
        have hrest := ih (List.cons_ne_nil _ _)
        rw [List.map_cons, List.map_cons] at *
        rw [List.intercalate_cons_cons, List.append_assoc, List.singleton_append, hrest]
        rfl
  rw [← hjoin]
  rfl

theorem quotedArguments_last {args : List (List Char)} (hne : args ≠ []) :
    ∃ front, quotedArguments args = front ++ ['\''] := by
  induction args with
  | nil => exact absurd rfl hne
  | cons argument args ih =>
    cases args with
    | nil => exact ⟨' ' :: '\'' :: ShellWords.quoteContent argument, by
        simp [quotedArguments, ShellWords.quote]⟩
    | cons next args =>
      obtain ⟨front, hfront⟩ := ih (List.cons_ne_nil _ _)
      refine ⟨' ' :: ShellWords.quote argument ++ front, ?_⟩
      rw [List.append_assoc, ← hfront]
      rfl

/-- The command line has no white space at its ends. -/
theorem trimChars_dockerCommandLine {args : List (List Char)} (hne : args ≠ []) :
    trimChars (dockerCommandLine args) = dockerCommandLine args := by
  obtain ⟨front, hfront⟩ := quotedArguments_last hne
  rw [dockerCommandLine_eq hne, trimChars]
  have hfirst : ("docker".toList ++ quotedArguments args).dropWhile isWhiteSpace =
      "docker".toList ++ quotedArguments args :=
    List.dropWhile_cons_of_neg (by decide)
  have hlast : ("docker".toList ++ quotedArguments args).reverse.dropWhile isWhiteSpace =
      ("docker".toList ++ quotedArguments args).reverse := by
    rw [hfront, ← List.append_assoc, List.reverse_append, List.reverse_singleton,
      List.singleton_append]
    exact List.dropWhile_cons_of_neg (by decide)
  rw [hfirst, hlast, List.reverse_reverse]

/-- The first word of the command line is `docker`. -/
theorem tokenizeWord_docker (args : List (List Char)) :
    tokenizeWord .unquoted [] ("docker".toList ++ quotedArguments args) =
      some ("docker".toList, quotedArguments args) := by
  have hplain : ∀ c ∈ "docker".toList, isWhiteSpace c = false ∧ isOperatorStart c = false ∧
      c ≠ '\'' ∧ c ≠ '"' ∧ c ≠ '`' ∧ c ≠ '$' ∧ c ≠ '\\' :=
    List.forall_iff_forall_mem.mp (by decide)
  have hword : ∀ word value : List Char, (∀ c ∈ word, c ∈ "docker".toList) →
      tokenizeWord .unquoted value (word ++ quotedArguments args) =
        tokenizeWord .unquoted (value ++ word) (quotedArguments args) := by
    intro word
    induction word with
    | nil => intro value _; rw [List.nil_append, List.append_nil]
    | cons c word ih =>
      intro value hmem
      obtain ⟨hspace, hop, hsingle, hdouble, htick, hdollar, hslash⟩ :=
        hplain c (hmem c List.mem_cons_self)
      rw [List.cons_append, tokenizeWord, hspace, hop, List.append_cons value c word,
        ← ih (value ++ [c]) fun d hd => hmem d (List.mem_cons_of_mem c hd)]
      simp [hsingle, hdouble, htick, hdollar, hslash]
  rw [hword _ _ fun _ hc => hc, List.nil_append]
  cases hargs : quotedArguments args with
  | nil => rw [tokenizeWord, if_pos rfl]
  | cons c rest =>
    have hhead := head?_quotedArguments args
    rw [hargs] at hhead
    exact tokenizeWord_end (hhead c rfl) _ _

theorem length_quotedArguments (args : List (List Char)) :
    args.length ≤ (quotedArguments args).length := by
  induction args with
  | nil => exact Nat.zero_le _
  | cons argument args ih =>
    show args.length + 1 ≤ (' ' :: ShellWords.quote argument ++ quotedArguments args).length
    rw [List.cons_append, List.length_cons, List.length_append]
    omega

theorem tokenize_dockerCommandLine {args : List (List Char)} (hne : args ≠ []) :
    tokenize (dockerCommandLine args) =
      if [] ∈ args then none else some (.word "docker".toList :: args.map .word) := by
  have hlength := length_quotedArguments args
  have hop : readOperator ("docker".toList ++ quotedArguments args) = none := by
    rw [show "docker".toList ++ quotedArguments args =
      'd' :: ("ocker".toList ++ quotedArguments args) from rfl, readOperator]
    · rfl
    · intro rest heq
      exact absurd heq (by decide)
    · intro rest heq
      exact absurd heq (by decide)
  have hdrop : ("docker".toList ++ quotedArguments args).dropWhile isWhiteSpace =
      "docker".toList ++ quotedArguments args := List.dropWhile_cons_of_neg (by decide)
  have hnil : "docker".toList ++ quotedArguments args ≠ [] := List.cons_ne_nil _ _
  rw [dockerCommandLine_eq hne, tokenize, List.length_append,
    show "docker".toList.length + (quotedArguments args).length =
      (5 + (quotedArguments args).length) + 1 from by
        rw [show "docker".toList.length = 6 from rfl]; omega,
    tokenizeFrom]
  simp only [hdrop, if_neg hnil, hop, tokenizeWord_docker]
  rw [if_neg (by decide), tokenizeFrom_quotedArguments args (by omega)]
  by_cases hmem : [] ∈ args
  · rw [if_pos hmem, if_pos hmem]
    rfl
  · rw [if_neg hmem, if_neg hmem]
    rfl

theorem wordsOnly_map (words : List (List Char)) : wordsOnly (words.map .word) = some words := by
  rw [wordsOnly]
  induction words with
  | nil => rfl
  | cons word words ih =>
    rw [List.map_cons, List.mapM_cons, ih]
    rfl

/-- Words alone are no login with a piped password. -/
theorem parseDockerLoginPipe_words (words : List (List Char)) (cwd : Option (List Char)) :
    parseDockerLoginPipe (words.map .word) cwd = none := by
  rcases words with _ | ⟨a, _ | ⟨b, _ | ⟨c, _ | ⟨d, words⟩⟩⟩⟩ <;> rfl

theorem dockerArguments_words {args : List (List Char)} (hne : args ≠ [])
    (cwd dockerHost : Option (List Char)) :
    dockerArguments (.word "docker".toList :: args.map .word) cwd dockerHost =
      some ⟨args, cwd, dockerHost, none⟩ := by
  rw [dockerArguments, ← List.map_cons, wordsOnly_map]
  exact if_pos ⟨rfl, hne⟩

theorem parse_dockerCommandLine {args : List (List Char)} (hne : args ≠ []) :
    parsePermittedDockerCommand (dockerCommandLine args) =
      if [] ∈ args then none else some ⟨args, none, none, none⟩ := by
  have hprefix : dockerHostPrefix.isPrefixOf "docker".toList = false := by decide
  rw [parsePermittedDockerCommand, trimChars_dockerCommandLine hne,
    tokenize_dockerCommandLine hne]
  by_cases hmem : [] ∈ args
  · rw [if_pos hmem, if_pos hmem]
  · rw [if_neg hmem, if_neg hmem]
    have hlogin := parseDockerLoginPipe_words ("docker".toList :: args) none
    have hinvoke : parseDockerInvocation (.word "docker".toList :: args.map .word) none =
        some ⟨args, none, none, none⟩ := by
      rw [parseDockerInvocation, hprefix]
      exact dockerArguments_words hne none none
    rw [List.map_cons] at hlogin
    -- the third token is a word, so that there is no `cd … &&`
    rcases args with _ | ⟨a, _ | ⟨b, args⟩⟩
    · exact absurd rfl hne
    · exact (congrArg (Option.or · _) hlogin).trans hinvoke
    · exact (congrArg (Option.or · _) hlogin).trans hinvoke

/-- The command the API builds of an argument list. -/
def quotedDockerCommand (args : List String) : String :=
  "docker " ++ " ".intercalate (args.map shQuote)

theorem toList_quotedDockerCommand (args : List String) :
    (quotedDockerCommand args).toList = dockerCommandLine (args.map String.toList) := by
  have hmap : (args.map shQuote).map String.toList =
      (args.map String.toList).map ShellWords.quote := by
    rw [List.map_map, List.map_map]
    exact List.map_congr_left fun value _ => toList_shQuote value
  rw [quotedDockerCommand, String.toList_append, String.toList_intercalate, hmap]
  rfl

/-- **The tokenizer inverts the quoting.**  A command of quoted arguments has exactly these
    arguments on the agent, as it has in a POSIX shell, if there are any and none of them is
    empty; a command with an empty argument is rejected by the agent. -/
theorem parse_quoted_arguments (args : List String) :
    ShellWords.words (quotedDockerCommand args).toList =
        some ("docker".toList :: args.map String.toList) ∧
      parsePermittedDockerCommand (quotedDockerCommand args).toList =
        if args = [] ∨ "" ∈ args then none
        else some ⟨args.map String.toList, none, none, none⟩ := by
  rw [toList_quotedDockerCommand]
  constructor
  · have hdocker : ShellWords.Renders "docker".toList "docker".toList :=
      .plain (by decide) (List.all_eq_true.mp (by decide))
    have hargs : List.Forall₂ ShellWords.Renders
        ((args.map String.toList).map ShellWords.quote) (args.map String.toList) := by
      generalize args.map String.toList = words
      induction words with
      | nil => exact .nil
      | cons word words ih => exact .cons (.quoted word) ih
    cases args with
    | nil => decide
    | cons argument args => exact ShellWords.words_intercalate (.cons hdocker hargs)
  · by_cases hne : args = []
    · subst hne
      decide
    · have hmem : ([] : List Char) ∈ args.map String.toList ↔ "" ∈ args := by
        simp
      rw [parse_dockerCommandLine (by simpa using hne)]
      simp only [hmem, hne, false_or]

/-- `docker inspect ''` has an argument under a shell and is rejected by the agent. -/
theorem empty_argument_rejected :
    ShellWords.words (quotedDockerCommand ["inspect", ""]).toList =
        some ["docker".toList, "inspect".toList, []] ∧
      parsePermittedDockerCommand (quotedDockerCommand ["inspect", ""]).toList = none ∧
      ¬ ∀ args : List String, args ≠ [] →
        parsePermittedDockerCommand (quotedDockerCommand args).toList =
          some ⟨args.map String.toList, none, none, none⟩ := by
  have hnone : parsePermittedDockerCommand (quotedDockerCommand ["inspect", ""]).toList =
      none := by decide +kernel
  refine ⟨by decide +kernel, hnone, fun hall => ?_⟩
  have hsome := hall ["inspect", ""] (by simp)
  rw [hnone] at hsome
  cases hsome

end ComposeBastion
