import ComposeBastion.Lib.Rewriting
import Mathlib.Algebra.Group.Nat.Even
import Mathlib.Data.List.Infix

/-!
# Replacing lists through placeholders

Several lists are replaced by one marker.  So that no replacement reads what an earlier one
has put out, every occurrence of the `k`-th list becomes a placeholder first, the `k`-th word
between two delimiters, and all placeholders become the marker at the end.

* `Symbol`, `mark` — what the replacement should do: occurrences become marks, which are no
  elements of the text;
* `display` — the text with the placeholders of the marks, the first of which are markers
  already;
* `Apart`, `NoSteal` — nothing replaced occurs in the word of a placeholder, and nothing but a
  placeholder looks like one;
* `reveal_conceal` — then the replacement through placeholders does what it should;
* `shown`, `InMarker` — the text with the marker for all marks, and what lies in a marker of it;
* `onlyInMarkers_iff` — when a word of the shown text always does;
* `conditions_of_notMem` — without `Apart` and `NoSteal` a delimiter is left behind.
-/

namespace Placeholders

open Rewriting

/-- The words of the placeholders, what stands around them, and the marker. -/
structure Scheme (α : Type*) where
  delimiter : α
  word : ℕ → List α
  /-- The first element of the marker. -/
  sign : α
  /-- The other elements of the marker. -/
  signTail : List α
  delimiter_notMem_word : ∀ k, delimiter ∉ word k
  word_injective : ∀ j k, word j = word k → j = k
  /-- No word ends in another. -/
  word_suffix : ∀ j k front, word j = front ++ word k → front = []
  sign_notMem_word : ∀ k, sign ∉ word k
  delimiter_notMem_marker : delimiter ∉ sign :: signTail

/-- A text in which occurrences have been marked. -/
inductive Symbol (α : Type*)
  | keep (a : α)
  | mark (k : ℕ)
  deriving DecidableEq

variable {α : Type*} (s : Scheme α)

namespace Scheme

/-- What stands for a mark until the end. -/
def placeholder (k : ℕ) : List α := s.delimiter :: (s.word k ++ [s.delimiter])

/-- What stands for a mark at the end. -/
def marker : List α := s.sign :: s.signTail

/-- A symbol, when the marks below `n` are markers already. -/
def displaySymbol (n : ℕ) : Symbol α → List α
  | .keep a => [a]
  | .mark k => if k < n then s.marker else s.placeholder k

/-- The text, when the marks below `n` are markers already. -/
def display (n : ℕ) (marked : List (Symbol α)) : List α := marked.flatMap (s.displaySymbol n)

/-- The text goes on with `field` and a delimiter, when the marks below `k` are markers. -/
def Closes (k : ℕ) : List α → List (Symbol α) → Prop
  | [], .mark b :: _ => k ≤ b
  | [], .keep a :: _ => a = s.delimiter
  | w :: field, .keep a :: marked => a = w ∧ Closes k field marked
  | _, _ => False

/-- When the marks below `k` are markers, the `k`-th placeholder starts at the marks `k` only. -/
def NoSteal (k : ℕ) : List (Symbol α) → Prop
  | [] => True
  | .keep a :: marked => (a = s.delimiter → ¬ s.Closes k (s.word k) marked) ∧ NoSteal k marked
  | .mark b :: marked => (k < b → ¬ s.Closes k (s.word k) marked) ∧ NoSteal k marked

instance Closes.decidable [DecidableEq α] (k : ℕ) :
    ∀ field marked, Decidable (s.Closes k field marked)
  | [], .mark b :: _ => inferInstanceAs (Decidable (k ≤ b))
  | [], .keep a :: _ => inferInstanceAs (Decidable (a = s.delimiter))
  | w :: field, .keep a :: marked =>
    have := Closes.decidable k field marked
    inferInstanceAs (Decidable (a = w ∧ _))
  | [], [] => inferInstanceAs (Decidable False)
  | _ :: _, [] => inferInstanceAs (Decidable False)
  | _ :: _, .mark _ :: _ => inferInstanceAs (Decidable False)

instance NoSteal.decidable [DecidableEq α] (k : ℕ) :
    ∀ marked, Decidable (s.NoSteal k marked)
  | [] => inferInstanceAs (Decidable True)
  | .keep _ :: marked =>
    have := NoSteal.decidable k marked
    inferInstanceAs (Decidable ((_ → ¬ _) ∧ _))
  | .mark _ :: marked =>
    have := NoSteal.decidable k marked
    inferInstanceAs (Decidable ((_ → ¬ _) ∧ _))

end Scheme

/-- The text with the marker for all its marks. -/
def shown (marker : List α) (marked : List (Symbol α)) : List α :=
  marked.flatMap fun
    | .keep a => [a]
    | .mark _ => marker

/-- In the text with markers, the `length` elements behind the first `start` all belong to one
    marker. -/
def InMarker (marker : List α) (marked : List (Symbol α)) (start length : ℕ) : Prop :=
  ∃ before k after, marked = before ++ .mark k :: after ∧
    (shown marker before).length ≤ start ∧
    start + length ≤ (shown marker before).length + marker.length

/-- The word stands in the text with markers only where all of it belongs to one marker. -/
def OnlyInMarkers (marker word : List α) (marked : List (Symbol α)) : Prop :=
  ∀ front back, shown marker marked = front ++ (word ++ back) →
    InMarker marker marked front.length word.length

/-- The word cannot be put together from kept elements and pieces of markers: it starts at no kept
    element, and where it starts in a marker it ends in this marker. -/
def Seamless (marker word : List α) : List (Symbol α) → Prop
  | [] => True
  | .keep a :: marked => ¬ word <+: a :: shown marker marked ∧ Seamless marker word marked
  | .mark _ :: marked =>
    (∀ n < marker.length, word <+: marker.drop n ++ shown marker marked →
      n + word.length ≤ marker.length) ∧ Seamless marker word marked

instance Seamless.decidable [DecidableEq α] (marker word : List α) :
    ∀ marked, Decidable (Seamless marker word marked)
  | [] => inferInstanceAs (Decidable True)
  | .keep a :: marked =>
    have := Seamless.decidable marker word marked
    inferInstanceAs (Decidable (¬ word <+: a :: shown marker marked ∧ _))
  | .mark _ :: marked =>
    have := Seamless.decidable marker word marked
    inferInstanceAs (Decidable ((∀ n < marker.length, _ → _) ∧ _))

/-- The elements that are no marks. -/
def kept (marked : List (Symbol α)) : List α :=
  marked.filterMap fun
    | .keep a => some a
    | .mark _ => none

variable [DecidableEq α]

/-- The replacement of one list by its placeholder. -/
def concealOne (job : ℕ × List α) (text : List α) : List α :=
  replaceAll (literal job.2 (s.placeholder job.1)) text

/-- The replacement of one list after the other by its placeholder. -/
def conceal (jobs : List (ℕ × List α)) (text : List α) : List α :=
  jobs.foldl (fun text job => concealOne s job text) text

/-- The replacement of the `k`-th placeholder by the marker. -/
def revealOne (k : ℕ) (text : List α) : List α :=
  replaceAll (literal (s.placeholder k) s.marker) text

/-- The replacement of the first `n` placeholders by the marker. -/
def reveal (n : ℕ) (text : List α) : List α :=
  (List.range n).foldl (fun text k => revealOne s k text) text

/-- The occurrences of one list, marked. -/
def markOne (job : ℕ × List α) (marked : List (Symbol α)) : List (Symbol α) :=
  replaceAll (literal (job.2.map .keep) [.mark job.1]) marked

/-- The occurrences of one list after the other, marked. -/
def markAll (jobs : List (ℕ × List α)) (marked : List (Symbol α)) : List (Symbol α) :=
  jobs.foldl (fun marked job => markOne job marked) marked

/-- When its turn comes, no list occurs in the word of a placeholder that stands in the text. -/
def Apart : List (ℕ × List α) → List (Symbol α) → Prop
  | [], _ => True
  | job :: jobs, marked =>
    (∀ k, .mark k ∈ marked → ¬ job.2 <:+: s.word k) ∧ Apart jobs (markOne job marked)

/-! ### Marking -/

section Marking

variable {s}

theorem markOne_length_one {word : List α} {k : ℕ} (text : List (Symbol α)) (new : List (Symbol α))
    (taken : ℕ) (h : literal (word.map .keep) [.mark k] text = some (new, taken)) :
    new = [.mark k] := literal_eq_some h

/-- A run of kept elements in a marked text was one before. -/
theorem infix_of_infix_markOne {job : ℕ × List α} {marked : List (Symbol α)} {word : List α}
    (h : word.map .keep <:+: markOne job marked) : word.map .keep <:+: marked := by
  obtain ⟨front, back, heq⟩ := h
  rw [List.append_assoc] at heq
  obtain ⟨before, after, rfl, hafter⟩ := exists_split_of_replaceAll
    (fun text new taken hfound => by rw [markOne_length_one _ _ _ hfound]; rfl) heq.symm
  obtain ⟨tail, rfl, -⟩ := eq_append_of_replaceAll (m := .mark job.1)
    (fun text new taken hfound => by rw [markOne_length_one _ _ _ hfound]; rfl)
    (by simp) hafter
  exact ⟨before, tail, by rw [List.append_assoc]⟩

/-- No occurrence is left where all have been marked. -/
theorem not_infix_markOne {job : ℕ × List α} (hne : job.2 ≠ []) (marked : List (Symbol α)) :
    ¬ job.2.map .keep <:+: markOne job marked := by
  rintro ⟨front, back, heq⟩
  rw [List.append_assoc] at heq
  obtain ⟨before, after, rfl, hafter⟩ := exists_split_of_replaceAll
    (fun text new taken hfound => by rw [markOne_length_one _ _ _ hfound]; rfl) heq.symm
  obtain ⟨tail, rfl, -⟩ := eq_append_of_replaceAll (m := .mark job.1)
    (fun text new taken hfound => by rw [markOne_length_one _ _ _ hfound]; rfl)
    (by simp) hafter
  rw [replaceAll_literal_append (by simpa using hne)] at hafter
  obtain ⟨a, word, hword⟩ := List.exists_cons_of_ne_nil hne
  rw [hword] at hafter
  cases hafter

theorem infix_of_infix_markAll {jobs : List (ℕ × List α)} {marked : List (Symbol α)}
    {word : List α} (h : word.map .keep <:+: markAll jobs marked) :
    word.map .keep <:+: marked := by
  induction jobs generalizing marked with
  | nil => exact h
  | cons job jobs ih => exact infix_of_infix_markOne (ih h)

/-- **Completeness of the marking.**  No list of the jobs is left between the marks. -/
theorem not_infix_markAll {jobs : List (ℕ × List α)} (hne : ∀ job ∈ jobs, job.2 ≠ [])
    {marked : List (Symbol α)} : ∀ job ∈ jobs, ¬ job.2.map .keep <:+: markAll jobs marked := by
  induction jobs generalizing marked with
  | nil => exact fun job hjob => absurd hjob List.not_mem_nil
  | cons first jobs ih =>
    intro job hjob hocc
    rcases List.mem_cons.mp hjob with rfl | hjob
    · exact not_infix_markOne (hne job List.mem_cons_self) marked (infix_of_infix_markAll hocc)
    · exact ih (fun job hjob => hne job (List.mem_cons_of_mem _ hjob)) job hjob hocc

/-- The marks a pass leaves are those that were there and its own. -/
theorem mem_markOne {job : ℕ × List α} (hne : job.2 ≠ []) {marked : List (Symbol α)} {k : ℕ}
    (h : .mark k ∈ markOne job marked) : .mark k ∈ marked ∨ k = job.1 := by
  have hne' : job.2.map Symbol.keep ≠ [] := by simpa using hne
  unfold markOne at h
  induction marked using literal_induction hne' with
  | nil => cases h
  | found rest ih =>
    rw [replaceAll_literal_append hne', List.singleton_append, List.mem_cons] at h
    rcases h with heq | h
    · cases heq
      exact .inr rfl
    · exact (ih h).imp (List.mem_append_right _) id
  | cons a rest hno ih =>
    rw [replaceAll_literal_cons hno, List.mem_cons] at h
    rcases h with rfl | h
    · exact .inl List.mem_cons_self
    · exact (ih h).imp (List.mem_cons_of_mem _) id

/-- A kept element was there before. -/
theorem mem_of_keep_mem_markOne {job : ℕ × List α} {marked : List (Symbol α)} {a : α}
    (h : .keep a ∈ markOne job marked) : .keep a ∈ marked := by
  have hocc : [a].map Symbol.keep <:+: markOne job marked := by
    obtain ⟨front, back, heq⟩ := List.append_of_mem h
    exact ⟨front, back, by rw [heq]; simp⟩
  exact (infix_of_infix_markOne hocc).subset (by simp)

theorem keep_notMem_markAll {jobs : List (ℕ × List α)} {marked : List (Symbol α)} {a : α}
    (h : Symbol.keep a ∉ marked) : .keep a ∉ markAll jobs marked := by
  induction jobs generalizing marked with
  | nil => exact h
  | cons job jobs ih => exact ih fun hmem => h (mem_of_keep_mem_markOne hmem)

end Marking

/-! ### Concealing -/

section Concealing

variable {s}

omit [DecidableEq α] in
@[simp] theorem display_nil (n : ℕ) : s.display n [] = [] := rfl

omit [DecidableEq α] in
@[simp] theorem display_cons (n : ℕ) (symbol : Symbol α) (marked : List (Symbol α)) :
    s.display n (symbol :: marked) = s.displaySymbol n symbol ++ s.display n marked := rfl

omit [DecidableEq α] in
theorem display_append (n : ℕ) (front back : List (Symbol α)) :
    s.display n (front ++ back) = s.display n front ++ s.display n back :=
  List.flatMap_append

omit [DecidableEq α] in
theorem display_keep (n : ℕ) (text : List α) : s.display n (text.map .keep) = text := by
  induction text with
  | nil => rfl
  | cons a text ih => rw [List.map_cons, display_cons, ih]; rfl

omit [DecidableEq α] in
/-- A list without the delimiter starts the concealed text where it starts the marked one. -/
theorem prefix_display {word : List α} (hd : s.delimiter ∉ word) {marked : List (Symbol α)} :
    word <+: s.display 0 marked ↔ word.map .keep <+: marked := by
  induction word generalizing marked with
  | nil => simp
  | cons w word ih =>
    rw [List.mem_cons, not_or] at hd
    cases marked with
    | nil => simp
    | cons symbol marked =>
      cases symbol with
      | keep a =>
        rw [display_cons, Scheme.displaySymbol, List.singleton_append, List.cons_prefix_cons,
          List.map_cons, List.cons_prefix_cons, ih hd.2, Symbol.keep.injEq]
      | mark k =>
        rw [display_cons, List.map_cons, List.cons_prefix_cons]
        simp only [Scheme.displaySymbol, Nat.not_lt_zero, if_false, Scheme.placeholder,
          List.cons_append, List.cons_prefix_cons, reduceCtorEq, false_and, iff_false, not_and]
        exact fun heq => absurd heq.symm hd.1

/-- A list without the delimiter does not start in a field that does not hold it. -/
theorem misses_field {word new : List α} (hne : word ≠ []) (hd : s.delimiter ∉ word)
    {field : List α} (hno : ¬ word <:+: field) (rest : List α) :
    Misses (literal word new) (field ++ [s.delimiter]) rest := by
  induction field with
  | nil => exact ⟨literal_eq_none.mpr (not_prefix_separator hne hd rest), trivial⟩
  | cons a field ih =>
    refine ⟨literal_eq_none.mpr fun hfront => hno ?_, ih fun hocc => hno ?_⟩
    · have hfront' : word <+: (a :: field) ++ s.delimiter :: rest := by
        rw [List.append_cons]
        exact hfront
      exact ((prefix_append_separator hd).mp hfront').isInfix
    · exact hocc.trans (List.suffix_cons a field).isInfix

theorem misses_placeholder {word new : List α} (hne : word ≠ []) (hd : s.delimiter ∉ word)
    {k : ℕ} (hno : ¬ word <:+: s.word k) (rest : List α) :
    Misses (literal word new) (s.placeholder k) rest := by
  exact ⟨literal_eq_none.mpr (not_prefix_separator hne hd _), misses_field hne hd hno rest⟩

/-- One replacement by placeholders is one marking. -/
theorem concealOne_display {job : ℕ × List α} (hne : job.2 ≠ []) (hd : s.delimiter ∉ job.2)
    {marked : List (Symbol α)} (hapart : ∀ k, .mark k ∈ marked → ¬ job.2 <:+: s.word k) :
    concealOne s job (s.display 0 marked) = s.display 0 (markOne job marked) := by
  have hne' : job.2.map Symbol.keep ≠ [] := by simpa using hne
  unfold concealOne markOne
  induction marked using literal_induction hne' with
  | nil => rfl
  | found rest ih =>
    have hrest := ih fun k hk => hapart k (List.mem_append_right _ hk)
    rw [display_append, display_keep, replaceAll_literal_append hne, hrest,
      replaceAll_literal_append hne']
    rfl
  | cons symbol rest hno ih =>
    have hrest := ih fun k hk => hapart k (List.mem_cons_of_mem _ hk)
    rw [replaceAll_literal_cons hno]
    cases symbol with
    | keep a =>
      have hno' : ¬ job.2 <+: a :: s.display 0 rest := fun hfront =>
        hno ((prefix_display hd).mp hfront)
      rw [display_cons, Scheme.displaySymbol, List.singleton_append,
        replaceAll_literal_cons hno', hrest]
      rfl
    | mark k =>
      have hmiss : Misses (literal job.2 (s.placeholder job.1)) (s.placeholder k)
          (s.display 0 rest) :=
        misses_placeholder hne hd (hapart k List.mem_cons_self) _
      rw [display_cons]
      show replaceAll _ (s.placeholder k ++ s.display 0 rest) = _
      rw [replaceAll_append hmiss, hrest]
      rfl

theorem conceal_display {jobs : List (ℕ × List α)}
    (hjobs : ∀ job ∈ jobs, job.2 ≠ [] ∧ s.delimiter ∉ job.2) {marked : List (Symbol α)}
    (hapart : Apart s jobs marked) :
    conceal s jobs (s.display 0 marked) = s.display 0 (markAll jobs marked) := by
  induction jobs generalizing marked with
  | nil => rfl
  | cons job jobs ih =>
    obtain ⟨hne, hd⟩ := hjobs job List.mem_cons_self
    show conceal s jobs (concealOne s job (s.display 0 marked)) = _
    rw [concealOne_display hne hd hapart.1,
      ih (fun job hjob => hjobs job (List.mem_cons_of_mem _ hjob)) hapart.2]
    rfl

end Concealing

/-! ### Revealing -/

section Revealing

variable {s}

omit [DecidableEq α] in
theorem sign_ne_delimiter : s.delimiter ≠ s.sign := by
  intro heq
  exact s.delimiter_notMem_marker (heq ▸ List.mem_cons_self)

omit [DecidableEq α] in
theorem placeholder_append (k : ℕ) (rest : List α) :
    s.placeholder k ++ rest = s.delimiter :: (s.word k ++ s.delimiter :: rest) := by
  rw [Scheme.placeholder, List.cons_append, List.append_assoc, List.singleton_append]

omit [DecidableEq α] in
/-- No delimiter stands behind a word where a marker does. -/
theorem word_sign_ne_word_delimiter {b j : ℕ} {left right : List α}
    (h : s.word b ++ (s.sign :: left) = s.word j ++ s.delimiter :: right) : False := by
  rcases List.append_eq_append_iff.mp h with ⟨between, hword, hrest⟩ | ⟨between, hword, hrest⟩
  · rcases between with _ | ⟨a, between⟩
    · exact sign_ne_delimiter (List.cons.inj hrest).1.symm
    · obtain ⟨rfl, -⟩ := List.cons.inj hrest
      exact s.sign_notMem_word j (by simp [hword])
  · rcases between with _ | ⟨a, between⟩
    · exact sign_ne_delimiter (List.cons.inj hrest).1
    · obtain ⟨heq, -⟩ := List.cons.inj hrest
      exact s.delimiter_notMem_word b (by simp [hword, heq])

omit [DecidableEq α] in
/-- Where the displayed text goes on with a field and a delimiter. -/
theorem field_prefix_display {k : ℕ} {field : List α} (hd : s.delimiter ∉ field)
    (hsign : s.sign ∉ field) {marked : List (Symbol α)} :
    field ++ [s.delimiter] <+: s.display k marked ↔ s.Closes k field marked := by
  induction field generalizing marked with
  | nil =>
    rcases marked with _ | ⟨a | b, marked⟩
    · simp [Scheme.Closes]
    · simp [Scheme.displaySymbol, Scheme.Closes, List.cons_prefix_cons, eq_comm]
    · by_cases hb : b < k
      · simp [Scheme.displaySymbol, Scheme.Closes, hb, Scheme.marker, List.cons_prefix_cons,
          sign_ne_delimiter]
      · simp [Scheme.displaySymbol, Scheme.Closes, hb, Scheme.placeholder,
          List.cons_prefix_cons, Nat.le_of_not_lt hb]
  | cons w field ih =>
    rw [List.mem_cons, not_or] at hd hsign
    rcases marked with _ | ⟨a | b, marked⟩
    · simp [Scheme.Closes]
    · rw [display_cons, Scheme.displaySymbol, List.singleton_append, List.cons_append,
        List.cons_prefix_cons, ih hd.2 hsign.2, Scheme.Closes, eq_comm]
    · by_cases hb : b < k
      · simp [Scheme.displaySymbol, Scheme.Closes, hb, Scheme.marker, List.cons_prefix_cons,
          Ne.symm hsign.1]
      · simp [Scheme.displaySymbol, Scheme.Closes, hb, Scheme.placeholder,
          List.cons_prefix_cons, Ne.symm hd.1]

omit [DecidableEq α] in
/-- Where a placeholder starts at a delimiter. -/
theorem placeholder_prefix_cons {k : ℕ} {marked : List (Symbol α)} :
    s.placeholder k <+: s.delimiter :: s.display k marked ↔ s.Closes k (s.word k) marked := by
  rw [Scheme.placeholder, List.cons_prefix_cons,
    field_prefix_display (s.delimiter_notMem_word k) (s.sign_notMem_word k)]
  exact ⟨fun h => h.2, fun h => ⟨rfl, h⟩⟩

/-- A placeholder starts at delimiters only. -/
theorem misses_of_notMem {k : ℕ} {text : List α} (hd : s.delimiter ∉ text) (rest : List α) :
    Misses (literal (s.placeholder k) s.marker) text rest := by
  refine misses_of_forall (p := (· = s.delimiter)) (fun a text ha => ?_)
    (fun a ha heq => hd (heq ▸ ha))
  refine literal_eq_none.mpr fun hfront => ha ?_
  exact (List.cons_prefix_cons.mp hfront).1.symm

omit [DecidableEq α] in
/-- Two words with delimiters behind them are one word. -/
theorem word_eq_of_append {j k : ℕ} {left right : List α}
    (h : s.word j ++ s.delimiter :: left = s.word k ++ s.delimiter :: right) :
    j = k ∧ left = right := by
  obtain ⟨heq, hrest⟩ := append_separator_inj (s.delimiter_notMem_word j)
    (s.delimiter_notMem_word k) h
  exact ⟨s.word_injective j k heq, hrest⟩

/-- Another placeholder is no `k`-th one, up to its last delimiter. -/
theorem misses_other {k b : ℕ} (hne : k ≠ b) (rest : List α) :
    Misses (literal (s.placeholder k) s.marker) (s.delimiter :: s.word b)
      (s.delimiter :: rest) := by
  refine ⟨literal_eq_none.mpr ?_, misses_of_notMem (s.delimiter_notMem_word b) _⟩
  rintro ⟨tail, htail⟩
  rw [Scheme.placeholder, List.cons_append, List.append_assoc, List.singleton_append] at htail
  exact hne (word_eq_of_append (List.cons.inj htail).2).1

/-- Without stolen delimiters, one pass turns the marks `k` into markers. -/
theorem revealOne_display {k : ℕ} {marked : List (Symbol α)} (h : s.NoSteal k marked) :
    revealOne s k (s.display k marked) = s.display (k + 1) marked := by
  unfold revealOne
  induction marked with
  | nil => rfl
  | cons symbol marked ih =>
    cases symbol with
    | keep a =>
      have hrest := ih h.2
      have hno : ¬ s.placeholder k <+: a :: s.display k marked := by
        intro hfront
        have ha : a = s.delimiter := (List.cons_prefix_cons.mp hfront).1.symm
        rw [ha, placeholder_prefix_cons] at hfront
        exact h.1 ha hfront
      rw [display_cons, Scheme.displaySymbol, List.singleton_append,
        replaceAll_literal_cons hno, hrest]
      rfl
    | mark b =>
      have hrest := ih h.2
      have hmarker : s.delimiter ∉ s.marker := s.delimiter_notMem_marker
      have hne : s.placeholder b ≠ [] := List.cons_ne_nil _ _
      rw [display_cons, display_cons, Scheme.displaySymbol, Scheme.displaySymbol]
      rcases Nat.lt_trichotomy b k with hlt | rfl | hgt
      · rw [if_pos hlt, if_pos (Nat.lt_succ_of_lt hlt),
          replaceAll_append (misses_of_notMem hmarker _), hrest]
      · rw [if_neg (Nat.lt_irrefl b), if_pos (Nat.lt_succ_self b),
          replaceAll_literal_append hne, hrest]
      · have hclose : ¬ s.placeholder k <+: s.delimiter :: s.display k marked :=
          fun hfront => h.1 hgt (placeholder_prefix_cons.mp hfront)
        rw [if_neg (by omega), if_neg (by omega)]
        rw [placeholder_append, placeholder_append, ← List.cons_append,
          replaceAll_append (misses_other (by omega) _), replaceAll_literal_cons hclose, hrest]
        rfl

theorem reveal_succ (n : ℕ) (text : List α) :
    reveal s (n + 1) text = revealOne s n (reveal s n text) := by
  rw [reveal, List.range_succ, List.foldl_append]
  rfl

theorem reveal_display {n : ℕ} {marked : List (Symbol α)}
    (h : ∀ k < n, s.NoSteal k marked) :
    reveal s n (s.display 0 marked) = s.display n marked := by
  induction n with
  | zero => rfl
  | succ n ih =>
    rw [reveal_succ, ih fun k hk => h k (Nat.lt_succ_of_lt hk),
      revealOne_display (h n (Nat.lt_succ_self n))]

/-- **The replacement through placeholders.**  Where the lists stay out of the words of the
    placeholders and nothing but a placeholder looks like one, every occurrence becomes a
    marker and nothing else changes. -/
theorem reveal_conceal {jobs : List (ℕ × List α)} {n : ℕ} {text : List α}
    (hjobs : ∀ job ∈ jobs, job.2 ≠ [] ∧ s.delimiter ∉ job.2)
    (hapart : Apart s jobs (text.map .keep))
    (hsteal : ∀ k < n, s.NoSteal k (markAll jobs (text.map .keep))) :
    reveal s n (conceal s jobs text) = s.display n (markAll jobs (text.map .keep)) := by
  have hconceal := conceal_display hjobs hapart
  rw [display_keep] at hconceal
  rw [hconceal, reveal_display hsteal]

end Revealing

/-! ### The output and its markers -/

section Shown

omit [DecidableEq α]

variable {s} {marker : List α}

@[simp] theorem shown_nil : shown marker [] = [] := rfl

@[simp] theorem shown_keep (a : α) (marked : List (Symbol α)) :
    shown marker (.keep a :: marked) = a :: shown marker marked := rfl

@[simp] theorem shown_mark (k : ℕ) (marked : List (Symbol α)) :
    shown marker (.mark k :: marked) = marker ++ shown marker marked := rfl

/-- What is displayed when all marks are markers. -/
theorem display_eq_shown {n : ℕ} {marked : List (Symbol α)}
    (h : ∀ k, Symbol.mark k ∈ marked → k < n) : s.display n marked = shown s.marker marked := by
  induction marked with
  | nil => rfl
  | cons symbol marked ih =>
    have hrest := ih fun k hk => h k (List.mem_cons_of_mem _ hk)
    rw [display_cons, hrest]
    cases symbol with
    | keep a => rfl
    | mark k => rw [Scheme.displaySymbol, if_pos (h k List.mem_cons_self), shown_mark]

/-- What is shown was kept or belongs to a marker. -/
theorem mem_shown {a : α} {marked : List (Symbol α)} (h : a ∈ shown marker marked) :
    a ∈ kept marked ∨ a ∈ marker := by
  obtain ⟨symbol, hsymbol, ha⟩ := List.mem_flatMap.mp h
  cases symbol with
  | keep b =>
    obtain rfl := List.mem_singleton.mp ha
    exact .inl (List.mem_filterMap.mpr ⟨.keep a, hsymbol, rfl⟩)
  | mark k => exact .inr ha

theorem map_kept (marked : List (Symbol α)) : List.Sublist ((kept marked).map .keep) marked := by
  induction marked with
  | nil => exact List.Sublist.refl _
  | cons symbol marked ih =>
    cases symbol with
    | keep a => exact ih.cons_cons _
    | mark k => exact ih.cons _

theorem not_inMarker_keep {a : α} {marked : List (Symbol α)} {length : ℕ} :
    ¬ InMarker marker (.keep a :: marked) 0 length := by
  rintro ⟨before, k, after, heq, hlow, -⟩
  rcases before with _ | ⟨symbol, before⟩
  · cases heq
  · obtain ⟨rfl, -⟩ := List.cons.inj heq
    rw [shown_keep, List.length_cons] at hlow
    omega

/-- Behind a kept element. -/
theorem inMarker_keep {a : α} {marked : List (Symbol α)} {start length : ℕ} :
    InMarker marker (.keep a :: marked) (start + 1) length ↔
      InMarker marker marked start length := by
  constructor
  · rintro ⟨before, k, after, heq, hlow, hhigh⟩
    rcases before with _ | ⟨symbol, before⟩
    · cases heq
    · obtain ⟨rfl, rfl⟩ := List.cons.inj heq
      rw [shown_keep, List.length_cons] at hlow hhigh
      exact ⟨before, k, after, rfl, by omega, by omega⟩
  · rintro ⟨before, k, after, rfl, hlow, hhigh⟩
    refine ⟨.keep a :: before, k, after, rfl, ?_, ?_⟩ <;>
      rw [shown_keep, List.length_cons] <;> omega

/-- In the first marker. -/
theorem inMarker_first {k : ℕ} {marked : List (Symbol α)} {start length : ℕ}
    (hstart : start < marker.length) :
    InMarker marker (.mark k :: marked) start length ↔ start + length ≤ marker.length := by
  constructor
  · rintro ⟨before, j, after, heq, hlow, hhigh⟩
    rcases before with _ | ⟨symbol, before⟩
    · rwa [shown_nil, List.length_nil, Nat.zero_add] at hhigh
    · obtain ⟨rfl, -⟩ := List.cons.inj heq
      rw [shown_mark, List.length_append] at hlow
      omega
  · intro hlength
    refine ⟨[], k, marked, rfl, Nat.zero_le _, ?_⟩
    rwa [shown_nil, List.length_nil, Nat.zero_add]

/-- Behind the first marker. -/
theorem inMarker_mark {k : ℕ} {marked : List (Symbol α)} {start length : ℕ} (hpos : 0 < length) :
    InMarker marker (.mark k :: marked) (marker.length + start) length ↔
      InMarker marker marked start length := by
  constructor
  · rintro ⟨before, j, after, heq, hlow, hhigh⟩
    rcases before with _ | ⟨symbol, before⟩
    · rw [shown_nil, List.length_nil] at hhigh
      omega
    · obtain ⟨rfl, rfl⟩ := List.cons.inj heq
      rw [shown_mark, List.length_append] at hlow hhigh
      exact ⟨before, j, after, rfl, by omega, by omega⟩
  · rintro ⟨before, j, after, rfl, hlow, hhigh⟩
    refine ⟨.mark k :: before, j, after, rfl, ?_, ?_⟩ <;>
      rw [shown_mark, List.length_append] <;> omega

/-- Where a text behind a marker is split: in the marker, or behind it. -/
theorem marker_append_cases {front back rest : List α} (h : marker ++ rest = front ++ back) :
    (front.length < marker.length ∧ back = marker.drop front.length ++ rest) ∨
      ∃ front', front = marker ++ front' ∧ rest = front' ++ back := by
  rcases Nat.lt_or_ge front.length marker.length with hlt | hge
  · have hdrop := congrArg (List.drop front.length) h
    rw [List.drop_append_of_le_length hlt.le, List.drop_left] at hdrop
    exact .inl ⟨hlt, hdrop.symm⟩
  · obtain ⟨front', rfl⟩ := List.prefix_of_prefix_length_le ⟨rest, h⟩ (List.prefix_append _ _) hge
    rw [List.append_assoc, List.append_cancel_left_eq] at h
    exact .inr ⟨front', rfl, h⟩

/-- **The edges of the markers.**  A word stands only in markers exactly when it cannot be put
    together from kept elements and pieces of markers. -/
theorem onlyInMarkers_iff {word : List α} (hne : word ≠ []) {marked : List (Symbol α)} :
    OnlyInMarkers marker word marked ↔ Seamless marker word marked := by
  have hpos : 0 < word.length := List.length_pos_iff.mpr hne
  induction marked with
  | nil =>
    refine ⟨fun _ => trivial, fun _ front back heq => ?_⟩
    have hnil := List.append_eq_nil_iff.mp heq.symm
    exact absurd (List.append_eq_nil_iff.mp hnil.2).1 hne
  | cons symbol marked ih =>
    cases symbol with
    | keep a =>
      simp only [Seamless, ← ih]
      constructor
      · intro h
        refine ⟨fun ⟨back, hback⟩ => ?_, fun front back heq => ?_⟩
        · exact not_inMarker_keep (h [] back (by rw [shown_keep, List.nil_append, hback]))
        · exact inMarker_keep.mp (h (a :: front) back (by
            rw [shown_keep, heq, List.cons_append]))
      · rintro ⟨hstart, hrest⟩ front back heq
        rcases front with _ | ⟨b, front⟩
        · exact absurd ⟨back, heq.symm⟩ hstart
        · exact inMarker_keep.mpr (hrest front back (List.cons.inj heq).2)
    | mark k =>
      simp only [Seamless, ← ih]
      constructor
      · intro h
        refine ⟨fun n hn ⟨back, hback⟩ => ?_, fun front back heq => ?_⟩
        · have hin := h (marker.take n) back (by
            rw [shown_mark, hback, ← List.append_assoc, List.take_append_drop])
          rw [List.length_take_of_le hn.le] at hin
          exact (inMarker_first hn).mp hin
        · have hin := h (marker ++ front) back (by rw [shown_mark, heq, List.append_assoc])
          rw [List.length_append] at hin
          exact (inMarker_mark hpos).mp hin
      · rintro ⟨hstart, hrest⟩ front back heq
        rcases marker_append_cases heq with ⟨hlt, hdrop⟩ | ⟨front', rfl, hshown⟩
        · exact (inMarker_first hlt).mpr (hstart front.length hlt ⟨back, hdrop⟩)
        · rw [List.length_append]
          exact (inMarker_mark hpos).mpr (hrest front' back hshown)

section Sign

variable {sign : α} {signTail : List α}

/-- A list without the first element of the marker starts the shown text where it starts the
    marked one. -/
theorem prefix_of_prefix_shown {word : List α} (hsign : sign ∉ word) {marked : List (Symbol α)}
    (h : word <+: shown (sign :: signTail) marked) : word.map .keep <+: marked := by
  induction word generalizing marked with
  | nil => exact List.nil_prefix
  | cons w word ih =>
    rw [List.mem_cons, not_or] at hsign
    rcases marked with _ | ⟨a | k, marked⟩
    · rw [shown_nil, List.prefix_nil] at h
      cases h
    · rw [shown_keep, List.cons_prefix_cons] at h
      rw [List.map_cons, List.cons_prefix_cons, h.1]
      exact ⟨rfl, ih hsign.2 h.2⟩
    · rw [shown_mark, List.cons_append, List.cons_prefix_cons] at h
      exact absurd h.1.symm hsign.1

/-- A marker in the shown text stands for a mark, or was in the text. -/
theorem marker_in_shown (hsign : sign ∉ signTail) {marked : List (Symbol α)} {front back : List α}
    (h : shown (sign :: signTail) marked = front ++ (sign :: signTail ++ back)) :
    InMarker (sign :: signTail) marked front.length (sign :: signTail).length ∨
      (sign :: signTail).map .keep <:+: marked := by
  induction marked generalizing front with
  | nil =>
    have hnil := List.append_eq_nil_iff.mp h.symm
    cases hnil.2
  | cons symbol marked ih =>
    have hwithin : ∀ {word : List (Symbol α)}, word <:+: marked → word <:+: symbol :: marked :=
      fun hword => hword.trans (List.suffix_cons symbol marked).isInfix
    cases symbol with
    | keep a =>
      rcases front with _ | ⟨b, front⟩
      · obtain ⟨rfl, htail⟩ := List.cons.inj h
        have hstart := prefix_of_prefix_shown hsign ⟨back, htail.symm⟩
        exact .inr (List.cons_prefix_cons.mpr ⟨rfl, hstart⟩).isInfix
      · exact (ih (List.cons.inj h).2).imp inMarker_keep.mpr hwithin
    | mark k =>
      rcases marker_append_cases h with ⟨hlt, hdrop⟩ | ⟨front', rfl, hshown⟩
      · rcases hfront : front.length with _ | n
        · exact .inl ((inMarker_first (Nat.succ_pos _)).mpr (Nat.zero_add _).le)
        · -- the first element of the marker stands nowhere else in it
          rw [hfront, List.drop_succ_cons] at hdrop
          rw [hfront, List.length_cons] at hlt
          obtain ⟨b, tail, htail⟩ :=
            List.exists_cons_of_length_pos (l := signTail.drop n) (by rw [List.length_drop]; omega)
          rw [htail, List.cons_append, List.cons_append] at hdrop
          obtain ⟨rfl, -⟩ := List.cons.inj hdrop
          have hmem : sign ∈ signTail.drop n := htail ▸ List.mem_cons_self
          exact absurd (List.mem_of_mem_drop hmem) hsign
      · rw [List.length_append]
        exact (ih hshown).imp (inMarker_mark (Nat.succ_pos _)).mpr hwithin

/-- A word that is not left between the marks lies in a marker, when it does so for other marks
    that show the same text. -/
theorem inMarker_of_shown (hsign : sign ∉ signTail) {marked marked' : List (Symbol α)}
    (heq : shown (sign :: signTail) marked = shown (sign :: signTail) marked') {word : List α}
    (hnot : ¬ word.map .keep <:+: marked) {front back : List α}
    (hword : shown (sign :: signTail) marked = front ++ (word ++ back))
    (h : InMarker (sign :: signTail) marked' front.length word.length) :
    InMarker (sign :: signTail) marked front.length word.length := by
  obtain ⟨before, k, after, rfl, hlow, hhigh⟩ := h
  have hsplit : shown (sign :: signTail) marked = shown (sign :: signTail) before ++
      (sign :: signTail ++ shown (sign :: signTail) after) := by
    rw [heq, shown, List.flatMap_append]
    rfl
  rcases marker_in_shown hsign hsplit with ⟨before', j, after', hmarked, hlow', hhigh'⟩ | hocc
  · exact ⟨before', j, after', hmarked, by omega, by omega⟩
  · -- the word is a piece of a marker that was in the text
    rw [hsplit] at hword
    obtain ⟨left, rfl⟩ := List.prefix_of_prefix_length_le ⟨_, rfl⟩ ⟨_, hword.symm⟩ hlow
    rw [List.append_assoc, List.append_cancel_left_eq, ← List.append_assoc] at hword
    rw [List.length_append] at hhigh
    have hpiece : left ++ word <+: sign :: signTail := by
      refine List.prefix_of_prefix_length_le ⟨back, hword.symm⟩ (List.prefix_append _ _) ?_
      rw [List.length_append]
      omega
    have hwithin : word <:+: sign :: signTail :=
      (List.suffix_append left word).isInfix.trans hpiece.isInfix
    exact absurd ((hwithin.map _).trans hocc) hnot

end Sign

end Shown

section Kept

theorem sublist_of_markOne {job : ℕ × List α} (hne : job.2 ≠ []) {marked : List (Symbol α)}
    {kept : List α} (h : List.Sublist (kept.map .keep) (markOne job marked)) :
    List.Sublist (kept.map .keep) marked := by
  have hne' : job.2.map Symbol.keep ≠ [] := by simpa using hne
  unfold markOne at h
  induction marked using literal_induction hne' generalizing kept with
  | nil => exact h
  | found rest ih =>
    rw [replaceAll_literal_append hne', List.singleton_append] at h
    refine (ih ?_).trans (List.sublist_append_right _ _)
    rcases List.sublist_cons_iff.mp h with hrest | ⟨tail, heq, -⟩
    · exact hrest
    · cases kept <;> cases heq
  | cons a rest hno ih =>
    rw [replaceAll_literal_cons hno] at h
    rcases List.sublist_cons_iff.mp h with hrest | ⟨tail, heq, htail⟩
    · exact (ih hrest).cons _
    · cases kept with
      | nil => exact List.nil_sublist _
      | cons b kept =>
        obtain ⟨rfl, rfl⟩ := List.cons.inj heq
        exact (ih htail).cons_cons _

/-- What is kept was in the text, in the same order. -/
theorem sublist_of_markAll {jobs : List (ℕ × List α)} (hne : ∀ job ∈ jobs, job.2 ≠ [])
    {marked : List (Symbol α)} {kept : List α}
    (h : List.Sublist (kept.map .keep) (markAll jobs marked)) :
    List.Sublist (kept.map .keep) marked := by
  induction jobs generalizing marked with
  | nil => exact h
  | cons job jobs ih =>
    have hrest := ih (fun job hjob => hne job (List.mem_cons_of_mem _ hjob)) h
    exact sublist_of_markOne (hne job List.mem_cons_self) hrest

theorem kept_sublist {jobs : List (ℕ × List α)} (hne : ∀ job ∈ jobs, job.2 ≠ [])
    (text : List α) : List.Sublist (kept (markAll jobs (text.map .keep))) text := by
  have hkept := sublist_of_markAll hne (map_kept (markAll jobs (text.map .keep)))
  rw [List.sublist_map_iff] at hkept
  obtain ⟨rest, hsublist, heq⟩ := hkept
  rw [List.map_injective_iff.mpr (fun a b hab => Symbol.keep.inj hab) heq]
  exact hsublist

/-- The marks are those of the jobs. -/
theorem mem_markAll {jobs : List (ℕ × List α)} (hne : ∀ job ∈ jobs, job.2 ≠ [])
    {marked : List (Symbol α)} {k : ℕ} (h : .mark k ∈ markAll jobs marked) :
    .mark k ∈ marked ∨ ∃ job ∈ jobs, k = job.1 := by
  induction jobs generalizing marked with
  | nil => exact .inl h
  | cons job jobs ih =>
    rcases ih (fun job hjob => hne job (List.mem_cons_of_mem _ hjob)) h with hmem | ⟨job', hmem⟩
    · rcases mem_markOne (hne job List.mem_cons_self) hmem with hmem | rfl
      · exact .inl hmem
      · exact .inr ⟨job, List.mem_cons_self, rfl⟩
    · exact .inr ⟨job', List.mem_cons_of_mem _ hmem.1, hmem.2⟩

end Kept

/-! ### What is left behind otherwise

A text whose delimiters all belong to placeholders is `Balanced`.  A text that is not balanced
stays so, and ends with a delimiter in it. -/

/-- The delimiters of the text are those of placeholders. -/
inductive Balanced : List α → Prop
  | nil : Balanced []
  | keep {a : α} {text : List α} : a ≠ s.delimiter → Balanced text → Balanced (a :: text)
  | block (k : ℕ) {text : List α} : Balanced text → Balanced (s.placeholder k ++ text)

section Leftovers

variable {s}

omit [DecidableEq α]

theorem balanced_cons {a : α} (ha : a ≠ s.delimiter) {text : List α} :
    Balanced s (a :: text) ↔ Balanced s text := by
  refine ⟨fun h => ?_, Balanced.keep ha⟩
  generalize htext : a :: text = whole at h
  cases h with
  | nil => cases htext
  | keep _ h => cases htext; exact h
  | block k => exact absurd (List.cons.inj htext).1 ha

theorem balanced_delimiter {text : List α} (h : Balanced s (s.delimiter :: text)) :
    ∃ k rest, text = s.word k ++ s.delimiter :: rest ∧ Balanced s rest := by
  generalize hwhole : s.delimiter :: text = whole at h
  cases h with
  | nil => cases hwhole
  | keep ha => exact absurd (List.cons.inj hwhole).1.symm ha
  | @block k rest h =>
    rw [placeholder_append] at hwhole
    exact ⟨k, rest, (List.cons.inj hwhole).2, h⟩

theorem balanced_append {front : List α} (hfront : s.delimiter ∉ front) {text : List α} :
    Balanced s (front ++ text) ↔ Balanced s text := by
  induction front with
  | nil => rfl
  | cons a front ih =>
    rw [List.mem_cons, not_or] at hfront
    rw [List.cons_append, balanced_cons (Ne.symm hfront.1), ih hfront.2]

theorem balanced_placeholder {k : ℕ} {text : List α} :
    Balanced s (s.placeholder k ++ text) ↔ Balanced s text := by
  refine ⟨fun h => ?_, Balanced.block k⟩
  rw [placeholder_append] at h
  obtain ⟨j, rest, heq, hrest⟩ := balanced_delimiter h
  rwa [(word_eq_of_append heq).2]

theorem balanced_of_notMem {text : List α} (h : s.delimiter ∉ text) : Balanced s text := by
  rw [← List.append_nil text, balanced_append h]
  exact .nil

variable [DecidableEq α]

theorem revealOne_head (k : ℕ) (text new : List α) (taken : ℕ)
    (h : literal (s.placeholder k) s.marker text = some (new, taken)) :
    new.head? = some s.sign := by
  rw [literal_eq_some h]
  rfl

/-- A text that is not balanced stays so when placeholders are revealed. -/
theorem balanced_of_revealOne {k : ℕ} {text : List α} (h : Balanced s (revealOne s k text)) :
    Balanced s text := by
  have hne : s.placeholder k ≠ [] := List.cons_ne_nil _ _
  have hmarker : s.delimiter ∉ s.marker := s.delimiter_notMem_marker
  unfold revealOne at h
  induction hlength : text.length using Nat.strongRecOn generalizing text with
  | ind length ih =>
    cases text with
    | nil => exact .nil
    | cons a rest =>
      by_cases hfront : s.placeholder k <+: a :: rest
      · obtain ⟨tail, htail⟩ := hfront
        rw [← htail] at h hlength ⊢
        rw [replaceAll_literal_append hne, balanced_append hmarker] at h
        rw [balanced_placeholder]
        refine ih tail.length ?_ h rfl
        have hpos := List.length_pos_iff.mpr hne
        rw [List.length_append] at hlength
        omega
      · rw [replaceAll_literal_cons hfront] at h
        rw [List.length_cons] at hlength
        by_cases ha : a = s.delimiter
        · subst ha
          -- the word behind the delimiter was there before, and so was the delimiter behind it
          obtain ⟨j, after, hword, hafter⟩ := balanced_delimiter h
          have hsign : s.sign ∉ s.word j ++ [s.delimiter] := by
            simp [s.sign_notMem_word j, Ne.symm sign_ne_delimiter]
          rw [← List.singleton_append, ← List.append_assoc] at hword
          obtain ⟨tail, rfl, hreplaced⟩ :=
            eq_append_of_replaceAll (revealOne_head k) hsign hword
          rw [← hreplaced] at hafter
          have hshorter : tail.length < length := by
            rw [List.length_append] at hlength
            omega
          exact .block j (ih tail.length hshorter hafter rfl)
        · rw [balanced_cons ha] at h ⊢
          exact ih rest.length (by omega) h rfl

theorem balanced_of_reveal {n : ℕ} {text : List α} (h : Balanced s (reveal s n text)) :
    Balanced s text := by
  induction n with
  | zero => exact h
  | succ n ih =>
    rw [reveal_succ] at h
    exact ih (balanced_of_revealOne h)

/-- Where a pass leaves a balanced text it has stolen nothing. -/
theorem noSteal_of_balanced {k : ℕ} {marked : List (Symbol α)}
    (hkeep : Symbol.keep s.delimiter ∉ marked)
    (h : Balanced s (revealOne s k (s.display k marked))) : s.NoSteal k marked := by
  have hne : s.placeholder k ≠ [] := List.cons_ne_nil _ _
  have hmarker : s.delimiter ∉ s.marker := s.delimiter_notMem_marker
  unfold revealOne at h
  induction marked with
  | nil => exact trivial
  | cons symbol marked ih =>
    rw [List.mem_cons, not_or] at hkeep
    cases symbol with
    | keep a =>
      have ha : a ≠ s.delimiter := fun heq => hkeep.1 (by rw [heq])
      have hno : ¬ s.placeholder k <+: a :: s.display k marked := fun hfront =>
        ha (List.cons_prefix_cons.mp hfront).1.symm
      rw [display_cons, Scheme.displaySymbol, List.singleton_append,
        replaceAll_literal_cons hno, balanced_cons ha] at h
      exact ⟨fun heq => absurd heq ha, ih hkeep.2 h⟩
    | mark b =>
      rw [display_cons, Scheme.displaySymbol] at h
      rcases Nat.lt_trichotomy b k with hlt | rfl | hgt
      · rw [if_pos hlt, replaceAll_append (misses_of_notMem hmarker _),
          balanced_append hmarker] at h
        exact ⟨fun hgt => absurd hgt (by omega), ih hkeep.2 h⟩
      · rw [if_neg (Nat.lt_irrefl b), replaceAll_literal_append hne,
          balanced_append hmarker] at h
        exact ⟨fun hgt => absurd hgt (by omega), ih hkeep.2 h⟩
      · rw [if_neg (by omega), placeholder_append, ← List.cons_append,
          replaceAll_append (misses_other (by omega) _)] at h
        have hclose : ¬ s.Closes k (s.word k) marked := by
          intro hcloses
          obtain ⟨tail, htail⟩ := placeholder_prefix_cons.mpr hcloses
          rw [← htail, replaceAll_literal_append hne] at h
          -- a marker stands where the word of a placeholder should end
          obtain ⟨j, rest, hword, -⟩ := balanced_delimiter h
          exact word_sign_ne_word_delimiter hword
        refine ⟨fun _ => hclose, ih hkeep.2 ?_⟩
        have hno : ¬ s.placeholder k <+: s.delimiter :: s.display k marked := fun hfront =>
          hclose (placeholder_prefix_cons.mp hfront)
        rw [replaceAll_literal_cons hno, List.cons_append, ← placeholder_append,
          balanced_placeholder] at h
        exact h

/-- **Necessity of `NoSteal`.** -/
theorem noSteal_of_reveal {n : ℕ} {marked : List (Symbol α)}
    (hkeep : Symbol.keep s.delimiter ∉ marked)
    (h : Balanced s (reveal s n (s.display 0 marked))) : ∀ k < n, s.NoSteal k marked := by
  induction n with
  | zero => exact fun k hk => absurd hk (Nat.not_lt_zero k)
  | succ n ih =>
    rw [reveal_succ] at h
    have hbelow := ih (balanced_of_revealOne h)
    rw [reveal_display hbelow] at h
    intro k hk
    rcases Nat.lt_succ_iff_lt_or_eq.mp hk with hlt | rfl
    · exact hbelow k hlt
    · exact noSteal_of_balanced hkeep h

end Leftovers

/-! ### Placeholders that have been broken up -/

/-- A delimiter that should open a placeholder has the rest of a word behind it that is cut off
    at the front. -/
def Broken (text : List α) : Prop :=
  ∃ front field back, text = front ++ s.delimiter :: (field ++ s.delimiter :: back) ∧
    Even (front.count s.delimiter) ∧ ∃ k cut, cut ≠ [] ∧ s.word k = cut ++ field

section Breaking

variable {s}

theorem Broken.not_balanced {text : List α} (h : Broken s text) : ¬ Balanced s text := by
  intro hbalanced
  obtain ⟨front, field, back, heq, heven, k, cut, hcut, hword⟩ := h
  have hfield : s.delimiter ∉ field := fun hmem =>
    s.delimiter_notMem_word k (hword ▸ List.mem_append_right _ hmem)
  induction hbalanced generalizing front with
  | nil => exact absurd heq.symm (by simp)
  | @keep a text ha _ ih =>
    cases front with
    | nil => exact ha (List.cons.inj heq).1
    | cons b front =>
      obtain ⟨rfl, htext⟩ := List.cons.inj heq
      rw [List.count_cons_of_ne ha] at heven
      exact ih front htext heven
  | @block j text _ ih =>
    rw [placeholder_append] at heq
    cases front with
    | nil =>
      obtain ⟨hfield', -⟩ := append_separator_inj (s.delimiter_notMem_word j) hfield
        (List.cons.inj heq).2
      exact hcut (s.word_suffix k j cut (by rw [hword, hfield']))
    | cons b front =>
      obtain ⟨rfl, hrest⟩ := List.cons.inj heq
      rw [show front.append _ = front ++ _ from rfl] at hrest
      -- the front goes on past the closing delimiter of the block
      have hmem : s.delimiter ∈ front := by
        by_contra hnot
        rw [List.count_cons_self, List.count_eq_zero_of_not_mem hnot] at heven
        exact absurd heven (by decide)
      obtain ⟨first, front', rfl, hfirst⟩ := List.eq_append_cons_of_mem hmem
      rw [List.append_assoc, List.cons_append] at hrest
      obtain ⟨-, htext⟩ := append_separator_inj (s.delimiter_notMem_word j) hfirst hrest
      refine ih front' htext ?_
      rw [List.count_cons_self, List.count_append, List.count_cons_self,
        List.count_eq_zero_of_not_mem hfirst] at heven
      simpa [Nat.even_add_one] using heven

theorem count_placeholder (k : ℕ) : (s.placeholder k).count s.delimiter = 2 := by
  rw [Scheme.placeholder, List.count_cons_self, List.count_append,
    List.count_eq_zero_of_not_mem (s.delimiter_notMem_word k), List.count_singleton_self]

/-- Concealing adds delimiters in pairs. -/
theorem even_count_concealOne {job : ℕ × List α} (hne : job.2 ≠ []) (hd : s.delimiter ∉ job.2)
    {text : List α} (h : Even (text.count s.delimiter)) :
    Even ((concealOne s job text).count s.delimiter) := by
  have hparity : ∀ text : List α, (concealOne s job text).count s.delimiter % 2 =
      text.count s.delimiter % 2 := by
    intro text
    unfold concealOne
    induction text using literal_induction hne with
    | nil => rfl
    | found rest ih =>
      rw [replaceAll_literal_append hne, List.count_append, List.count_append,
        count_placeholder, List.count_eq_zero_of_not_mem hd]
      omega
    | cons a rest hno ih =>
      rw [replaceAll_literal_cons hno, List.count_cons, List.count_cons]
      omega
  rw [Nat.even_iff] at h ⊢
  rw [hparity, h]

/-- What concealing leaves of a field behind the last occurrence. -/
theorem concealOne_field {job : ℕ × List α} (hne : job.2 ≠ []) {field : List α}
    (hfield : s.delimiter ∉ field) (h : job.2 <:+: field) :
    ∃ front rest cut, concealOne s job field = front ++ s.delimiter :: rest ∧
      ¬ Even (front.count s.delimiter) ∧ cut ≠ [] ∧ field = cut ++ rest := by
  unfold concealOne
  induction field using literal_induction hne with
  | nil => exact absurd (List.infix_nil.mp h) hne
  | found field ih =>
    have hrest : s.delimiter ∉ field := fun hmem => hfield (List.mem_append_right _ hmem)
    rw [replaceAll_literal_append hne]
    by_cases hocc : job.2 <:+: field
    · obtain ⟨front, rest, cut, hreplaced, hodd, hcut, rfl⟩ := ih hrest hocc
      refine ⟨s.placeholder job.1 ++ front, rest, job.2 ++ cut, ?_, ?_, by simp [hcut], ?_⟩
      · rw [hreplaced, List.append_assoc]
      · rw [List.count_append, count_placeholder]
        exact fun heven => hodd ((Nat.even_add.mp heven).mp ⟨1, rfl⟩)
      · rw [List.append_assoc]
    · refine ⟨s.delimiter :: s.word job.1, field, job.2, ?_, ?_, hne, rfl⟩
      · rw [replaceAll_literal_eq_self hocc, placeholder_append, List.cons_append]
      · rw [List.count_cons_self, List.count_eq_zero_of_not_mem (s.delimiter_notMem_word _)]
        decide
  | cons a field hno ih =>
    rw [List.mem_cons, not_or] at hfield
    have hocc : job.2 <:+: field := by
      rcases List.infix_cons_iff.mp h with hfront | hocc
      · exact absurd hfront hno
      · exact hocc
    obtain ⟨front, rest, cut, hreplaced, hodd, hcut, rfl⟩ := ih hfield.2 hocc
    refine ⟨a :: front, rest, a :: cut, ?_, ?_, by simp, rfl⟩
    · rw [replaceAll_literal_cons hno, hreplaced, List.cons_append]
    · rwa [List.count_cons_of_ne (Ne.symm hfield.1)]

/-- Concealing goes on by itself in the fields between delimiters. -/
theorem concealOne_separator {job : ℕ × List α} (hne : job.2 ≠ []) (hd : s.delimiter ∉ job.2)
    (text rest : List α) :
    concealOne s job (text ++ s.delimiter :: rest) =
      concealOne s job text ++ s.delimiter :: concealOne s job rest :=
  replaceAll_literal_separator hne hd text rest

/-- An occurrence in the word of a placeholder breaks it up, and what is broken up stays so. -/
theorem broken_concealOne {job : ℕ × List α} (hne : job.2 ≠ []) (hd : s.delimiter ∉ job.2)
    {front field back : List α} (heven : Even (front.count s.delimiter)) {k : ℕ}
    {cut : List α} (hword : s.word k = cut ++ field) (hcut : cut ≠ [] ∨ job.2 <:+: field) :
    Broken s (concealOne s job (front ++ s.delimiter :: (field ++ s.delimiter :: back))) := by
  have hfield : s.delimiter ∉ field := fun hmem =>
    s.delimiter_notMem_word k (hword ▸ List.mem_append_right _ hmem)
  have hfront := even_count_concealOne hne hd heven
  rw [concealOne_separator hne hd, concealOne_separator hne hd]
  by_cases hocc : job.2 <:+: field
  · obtain ⟨before, rest, cut', hreplaced, hodd, hcut', rfl⟩ :=
      concealOne_field hne hfield hocc
    refine ⟨concealOne s job front ++ s.delimiter :: before, rest, concealOne s job back, ?_, ?_,
      k, cut ++ cut', by simp [hcut'], by rw [hword, List.append_assoc]⟩
    · rw [hreplaced, List.append_assoc, List.append_assoc, List.cons_append, List.cons_append]
    · rw [List.count_append, List.count_cons_self, Nat.even_add, Nat.even_add_one]
      exact iff_of_true hfront hodd
  · refine ⟨concealOne s job front, field, concealOne s job back, ?_, hfront, k, cut,
      hcut.resolve_right hocc, hword⟩
    rw [concealOne, concealOne, concealOne, replaceAll_literal_eq_self hocc]

theorem Broken.conceal {jobs : List (ℕ × List α)}
    (hjobs : ∀ job ∈ jobs, job.2 ≠ [] ∧ s.delimiter ∉ job.2) {text : List α}
    (h : Broken s text) : Broken s (conceal s jobs text) := by
  induction jobs generalizing text with
  | nil => exact h
  | cons job jobs ih =>
    obtain ⟨hne, hd⟩ := hjobs job List.mem_cons_self
    obtain ⟨front, field, back, rfl, heven, k, cut, hcut, hword⟩ := h
    exact ih (fun job hjob => hjobs job (List.mem_cons_of_mem _ hjob))
      (broken_concealOne hne hd heven hword (.inl hcut))

/-- The delimiters of a displayed text are those of its marks. -/
theorem even_count_display {marked : List (Symbol α)}
    (hkeep : Symbol.keep s.delimiter ∉ marked) :
    Even ((s.display 0 marked).count s.delimiter) := by
  induction marked with
  | nil => exact Even.zero
  | cons symbol marked ih =>
    rw [List.mem_cons, not_or] at hkeep
    rw [display_cons, List.count_append]
    cases symbol with
    | keep a =>
      have ha : a ≠ s.delimiter := fun heq => hkeep.1 (by rw [heq])
      have hzero : (s.displaySymbol 0 (.keep a)).count s.delimiter = 0 :=
        List.count_eq_zero_of_not_mem (by simpa [Scheme.displaySymbol] using Ne.symm ha)
      rw [hzero, Nat.zero_add]
      exact ih hkeep.2
    | mark k =>
      have htwo : (s.displaySymbol 0 (.mark k)).count s.delimiter = 2 := count_placeholder k
      rw [htwo, Nat.even_add]
      exact iff_of_true ⟨1, rfl⟩ (ih hkeep.2)

/-- **Necessity of `Apart`.** -/
theorem apart_of_balanced {jobs : List (ℕ × List α)}
    (hjobs : ∀ job ∈ jobs, job.2 ≠ [] ∧ s.delimiter ∉ job.2) {marked : List (Symbol α)}
    (hkeep : Symbol.keep s.delimiter ∉ marked)
    (h : Balanced s (conceal s jobs (s.display 0 marked))) : Apart s jobs marked := by
  induction jobs generalizing marked with
  | nil => exact trivial
  | cons job jobs ih =>
    obtain ⟨hne, hd⟩ := hjobs job List.mem_cons_self
    have hjobs' := fun job hjob => hjobs job (List.mem_cons_of_mem _ hjob)
    have hapart : ∀ k, .mark k ∈ marked → ¬ job.2 <:+: s.word k := by
      intro k hk hocc
      obtain ⟨before, after, rfl⟩ := List.append_of_mem hk
      have heven : Even ((s.display 0 before).count s.delimiter) :=
        even_count_display fun hmem => hkeep (List.mem_append_left _ hmem)
      have hdisplay : s.display 0 (before ++ .mark k :: after) =
          s.display 0 before ++ s.delimiter :: (s.word k ++ s.delimiter :: s.display 0 after) := by
        rw [display_append, display_cons, ← placeholder_append]
        rfl
      have hbroken : Broken s (concealOne s job (s.display 0 (before ++ .mark k :: after))) := by
        rw [hdisplay]
        exact broken_concealOne hne hd heven (List.nil_append _).symm (.inr hocc)
      exact (hbroken.conceal hjobs').not_balanced h
    refine ⟨hapart, ih hjobs' (fun hmem => hkeep (mem_of_keep_mem_markOne hmem)) ?_⟩
    rw [← concealOne_display hne hd hapart]
    exact h

/-- **Necessity.**  A text without a delimiter has none at the end only if the lists stay out
    of the words of the placeholders and nothing but a placeholder looks like one. -/
theorem conditions_of_notMem {jobs : List (ℕ × List α)} {n : ℕ} {text : List α}
    (hjobs : ∀ job ∈ jobs, job.2 ≠ [] ∧ s.delimiter ∉ job.2) (htext : s.delimiter ∉ text)
    (h : s.delimiter ∉ reveal s n (conceal s jobs text)) :
    Apart s jobs (text.map .keep) ∧
      ∀ k < n, s.NoSteal k (markAll jobs (text.map .keep)) := by
  have hkeep : Symbol.keep s.delimiter ∉ text.map .keep := by simpa using htext
  have hbalanced := balanced_of_reveal (balanced_of_notMem h)
  have hapart : Apart s jobs (text.map .keep) := by
    apply apart_of_balanced hjobs hkeep
    rwa [display_keep]
  refine ⟨hapart, noSteal_of_reveal (keep_notMem_markAll hkeep) ?_⟩
  have hconceal := conceal_display hjobs hapart
  rw [display_keep] at hconceal
  rw [← hconceal]
  exact balanced_of_notMem h

end Breaking

end Placeholders
