import Mathlib.Data.List.Basic

/-!
# Replacing every match of a pattern

`replaceAll rule` goes through a list once, from left to right.  Where `rule` matches the rest
of the list it gives the replacement and how many elements the match takes; the replacement is
output and the scan goes on behind the match, so that no replacement is scanned again.  This
is `String.prototype.replace` with a global pattern.

`replaceAllM` is the same scan for a replacement that is computed and may fail: the first
failing match is the failure of the whole.  `matchAll` collects what the matches find.
-/

namespace Rewriting

variable {α : Type*} {ε : Type*}

/-- The scan behind `skip` elements that belong to the last match. -/
def replaceFrom (rule : List α → Option (List α × ℕ)) : ℕ → List α → List α
  | _, [] => []
  | skip + 1, _ :: rest => replaceFrom rule skip rest
  | 0, a :: rest =>
    match rule (a :: rest) with
    | some (new, taken) => new ++ replaceFrom rule (taken - 1) rest
    | none => a :: replaceFrom rule 0 rest

/-- Every match of `rule` replaced. -/
def replaceAll (rule : List α → Option (List α × ℕ)) (text : List α) : List α :=
  replaceFrom rule 0 text

/-- The scan of `replaceAllM` behind `skip` elements of the last match. -/
def replaceFromM (rule : List α → Option (Except ε (List α) × ℕ)) :
    ℕ → List α → Except ε (List α)
  | _, [] => .ok []
  | skip + 1, _ :: rest => replaceFromM rule skip rest
  | 0, a :: rest =>
    match rule (a :: rest) with
    | some (new, taken) =>
      match new with
      | .error e => .error e
      | .ok new => (replaceFromM rule (taken - 1) rest).map (new ++ ·)
    | none => (replaceFromM rule 0 rest).map (a :: ·)

/-- Every match of `rule` replaced, or the failure of the first match that fails. -/
def replaceAllM (rule : List α → Option (Except ε (List α) × ℕ)) (text : List α) :
    Except ε (List α) :=
  replaceFromM rule 0 text

/-- The scan of `matchAll` behind `skip` elements of the last match. -/
def matchesFrom {β : Type*} (rule : List α → Option (β × ℕ)) : ℕ → List α → List β
  | _, [] => []
  | skip + 1, _ :: rest => matchesFrom rule skip rest
  | 0, a :: rest =>
    match rule (a :: rest) with
    | some (found, taken) => found :: matchesFrom rule (taken - 1) rest
    | none => matchesFrom rule 0 rest

/-- What every match of `rule` finds, in order. -/
def matchAll {β : Type*} (rule : List α → Option (β × ℕ)) (text : List α) : List β :=
  matchesFrom rule 0 text

/-- The rule that replaces the list `old` by the list `new`. -/
def literal [DecidableEq α] (old new text : List α) : Option (List α × ℕ) :=
  if old.isPrefixOf text then some (new, old.length) else none

/-- No match of `rule` starts in the first text while the second stands behind it. -/
def Misses {β : Type*} (rule : List α → Option β) : List α → List α → Prop
  | [], _ => True
  | a :: text, rest => rule (a :: (text ++ rest)) = none ∧ Misses rule text rest

instance Misses.decidable {β : Type*} [DecidableEq β] (rule : List α → Option β) :
    ∀ text rest, Decidable (Misses rule text rest)
  | [], _ => inferInstanceAs (Decidable True)
  | _ :: text, rest =>
    have := Misses.decidable rule text rest
    inferInstanceAs (Decidable (_ ∧ _))

section

variable {β : Type*} {rule : List α → Option β} {rest : List α}

/-- A rule that finds something where another does misses what the other misses. -/
theorem Misses.map {γ : Type*} {rule' : List α → Option γ}
    (himp : ∀ text, rule text = none → rule' text = none) {text : List α}
    (h : Misses rule text rest) : Misses rule' text rest := by
  induction text with
  | nil => exact trivial
  | cons a text ih => exact ⟨himp _ h.1, ih h.2⟩

/-- A rule that reads the first element misses a text without the elements it starts with. -/
theorem misses_of_forall {p : α → Prop} (hrule : ∀ a text, ¬ p a → rule (a :: text) = none)
    {text : List α} (h : ∀ a ∈ text, ¬ p a) : Misses rule text rest := by
  induction text with
  | nil => exact trivial
  | cons a text ih =>
    refine ⟨hrule a _ (h a List.mem_cons_self), ih fun b hb => ?_⟩
    exact h b (List.mem_cons_of_mem a hb)

end

theorem matchesFrom_eq_drop {β : Type*} {rule : List α → Option (β × ℕ)} (skip : ℕ)
    (text : List α) : matchesFrom rule skip text = matchAll rule (text.drop skip) := by
  induction text generalizing skip with
  | nil => cases skip <;> rfl
  | cons a rest ih =>
    cases skip with
    | zero => rfl
    | succ skip => rw [matchesFrom, ih, List.drop_succ_cons]

@[simp] theorem matchAll_nil {β : Type*} {rule : List α → Option (β × ℕ)} :
    matchAll rule [] = [] := rfl

/-- A match is found and passed over. -/
theorem matchAll_match {β : Type*} {rule : List α → Option (β × ℕ)} {pattern rest : List α}
    {found : β} (hne : pattern ≠ [])
    (h : rule (pattern ++ rest) = some (found, pattern.length)) :
    matchAll rule (pattern ++ rest) = found :: matchAll rule rest := by
  cases pattern with
  | nil => exact absurd rfl hne
  | cons a pattern =>
    rw [List.cons_append] at h ⊢
    rw [matchAll, matchesFrom, h]
    show found :: matchesFrom rule ((pattern.length + 1) - 1) (pattern ++ rest) = _
    rw [matchesFrom_eq_drop, Nat.add_sub_cancel, List.drop_left]

section

variable {rule : List α → Option (List α × ℕ)}

theorem replaceFrom_eq_drop (skip : ℕ) (text : List α) :
    replaceFrom rule skip text = replaceAll rule (text.drop skip) := by
  induction text generalizing skip with
  | nil => cases skip <;> rfl
  | cons a rest ih =>
    cases skip with
    | zero => rfl
    | succ skip => rw [replaceFrom, ih, List.drop_succ_cons]

@[simp] theorem replaceAll_nil : replaceAll rule [] = [] := rfl

/-- Where nothing matches the element is kept. -/
theorem replaceAll_cons {a : α} {rest : List α} (h : rule (a :: rest) = none) :
    replaceAll rule (a :: rest) = a :: replaceAll rule rest := by
  rw [replaceAll, replaceFrom, h]
  rfl

theorem replaceAll_some {a : α} {rest new : List α} {taken : ℕ}
    (h : rule (a :: rest) = some (new, taken)) :
    replaceAll rule (a :: rest) = new ++ replaceAll rule (rest.drop (taken - 1)) := by
  rw [replaceAll, replaceFrom, h]
  exact congrArg (new ++ ·) (replaceFrom_eq_drop _ _)

/-- Where no match starts the text is kept. -/
theorem replaceAll_append {text rest : List α} (h : Misses rule text rest) :
    replaceAll rule (text ++ rest) = text ++ replaceAll rule rest := by
  induction text with
  | nil => rfl
  | cons a text ih =>
    obtain ⟨hhead, htail⟩ := h
    rw [List.cons_append, replaceAll_cons hhead, ih htail, List.cons_append]

/-- A match is replaced and passed over. -/
theorem replaceAll_match {pattern rest new : List α} (hne : pattern ≠ [])
    (h : rule (pattern ++ rest) = some (new, pattern.length)) :
    replaceAll rule (pattern ++ rest) = new ++ replaceAll rule rest := by
  cases pattern with
  | nil => exact absurd rfl hne
  | cons a pattern =>
    rw [List.cons_append] at h ⊢
    rw [replaceAll, replaceFrom, h]
    show new ++ replaceFrom rule ((pattern.length + 1) - 1) (pattern ++ rest) = _
    rw [replaceFrom_eq_drop, Nat.add_sub_cancel, List.drop_left]

/-- What is put out without the element every replacement starts with was there before. -/
theorem eq_append_of_replaceAll {m : α}
    (hrule : ∀ text new taken, rule text = some (new, taken) → new.head? = some m)
    {text found rest : List α} (hm : m ∉ found) (h : replaceAll rule text = found ++ rest) :
    ∃ tail, text = found ++ tail ∧ replaceAll rule tail = rest := by
  induction found generalizing text with
  | nil => exact ⟨text, rfl, h⟩
  | cons c found ih =>
    rw [List.mem_cons, not_or] at hm
    cases text with
    | nil => cases h
    | cons a text =>
      cases hfound : rule (a :: text) with
      | some match' =>
        obtain ⟨new, taken⟩ := match'
        have hhead := hrule _ _ _ hfound
        rw [replaceAll_some hfound] at h
        cases new with
        | nil => cases hhead
        | cons n new =>
          cases hhead
          exact absurd (List.cons.inj h).1 hm.1
      | none =>
        rw [replaceAll_cons hfound, List.cons_append] at h
        obtain ⟨rfl, htext⟩ := List.cons.inj h
        obtain ⟨tail, rfl, htail⟩ := ih hm.2 htext
        exact ⟨tail, rfl, htail⟩

/-- Replacements of one element leave no other places to cut the output than those of the
    text. -/
theorem exists_split_of_replaceAll
    (hrule : ∀ text new taken, rule text = some (new, taken) → new.length = 1)
    {text front back : List α} (h : replaceAll rule text = front ++ back) :
    ∃ before after, text = before ++ after ∧ replaceAll rule after = back := by
  induction hlength : text.length using Nat.strongRecOn generalizing text front with
  | ind length ih =>
    cases front with
    | nil => exact ⟨[], text, rfl, h⟩
    | cons c front =>
      cases text with
      | nil => cases h
      | cons a text =>
        cases hfound : rule (a :: text) with
        | some match' =>
          obtain ⟨new, taken⟩ := match'
          obtain ⟨n, rfl⟩ := List.length_eq_one_iff.mp (hrule _ _ _ hfound)
          rw [replaceAll_some hfound] at h
          have htail := (List.cons.inj h).2
          obtain ⟨before, after, hsplit, hafter⟩ :=
            ih (text.drop (taken - 1)).length (by simp at hlength ⊢; omega) htail rfl
          refine ⟨a :: (text.take (taken - 1) ++ before), after, ?_, hafter⟩
          rw [List.cons_append, List.append_assoc, ← hsplit, List.take_append_drop]
        | none =>
          rw [replaceAll_cons hfound] at h
          have htail := (List.cons.inj h).2
          obtain ⟨before, after, rfl, hafter⟩ :=
            ih text.length (by simp at hlength; omega) htail rfl
          exact ⟨a :: before, after, rfl, hafter⟩

end

/-! ### Replacing a list -/

section

variable [DecidableEq α] {old new : List α}

theorem literal_append (rest : List α) :
    literal old new (old ++ rest) = some (new, old.length) := by
  rw [literal, if_pos (List.isPrefixOf_iff_prefix.mpr (List.prefix_append _ _))]

theorem literal_eq_none {text : List α} : literal old new text = none ↔ ¬ old <+: text := by
  rw [literal, ← List.isPrefixOf_iff_prefix]
  split
  · rename_i h
    exact ⟨fun heq => (by cases heq), fun hn => absurd h hn⟩
  · rename_i h
    exact ⟨fun _ => h, fun _ => rfl⟩

theorem literal_eq_some {text found : List α} {taken : ℕ}
    (h : literal old new text = some (found, taken)) : found = new := by
  rw [literal] at h
  split at h
  · cases h; rfl
  · cases h

theorem replaceAll_literal_append (hne : old ≠ []) (rest : List α) :
    replaceAll (literal old new) (old ++ rest) = new ++ replaceAll (literal old new) rest :=
  replaceAll_match hne (literal_append rest)

theorem replaceAll_literal_cons {a : α} {rest : List α} (h : ¬ old <+: a :: rest) :
    replaceAll (literal old new) (a :: rest) = a :: replaceAll (literal old new) rest :=
  replaceAll_cons (literal_eq_none.mpr h)

/-- A text is taken apart from the left the way the replacement of `old` reads it. -/
theorem literal_induction (hne : old ≠ []) {motive : List α → Prop} (nil : motive [])
    (found : ∀ rest, motive rest → motive (old ++ rest))
    (cons : ∀ a rest, ¬ old <+: a :: rest → motive rest → motive (a :: rest))
    (text : List α) : motive text := by
  induction hlength : text.length using Nat.strongRecOn generalizing text with
  | ind length ih =>
    cases text with
    | nil => exact nil
    | cons a rest =>
      by_cases hfront : old <+: a :: rest
      · obtain ⟨tail, htail⟩ := hfront
        have hpos := List.length_pos_iff.mpr hne
        have hsum : length = old.length + tail.length := by
          rw [← hlength, ← htail, List.length_append]
        rw [← htail]
        exact found tail (ih tail.length (by omega) tail rfl)
      · exact cons a rest hfront (ih rest.length (by simp at hlength; omega) rest rfl)

/-- A text without `old` is left alone. -/
theorem replaceAll_literal_eq_self {text : List α} (h : ¬ old <:+: text) :
    replaceAll (literal old new) text = text := by
  induction text with
  | nil => rfl
  | cons a text ih =>
    have hhead : ¬ old <+: a :: text := fun hfront => h hfront.isInfix
    have htail : ¬ old <:+: text := fun hocc => h (hocc.trans (List.suffix_cons a text).isInfix)
    rw [replaceAll_literal_cons hhead, ih htail]

omit [DecidableEq α] in
/-- A list without the separator is found on one side of it. -/
theorem prefix_append_separator {d : α} (hd : d ∉ old) {text rest : List α} :
    old <+: text ++ d :: rest ↔ old <+: text := by
  refine ⟨fun h => ?_, fun h => h.trans (List.prefix_append _ _)⟩
  induction old generalizing text with
  | nil => exact List.nil_prefix
  | cons a old ih =>
    rw [List.mem_cons, not_or] at hd
    cases text with
    | nil =>
      rw [List.nil_append, List.cons_prefix_cons] at h
      exact absurd h.1.symm hd.1
    | cons b text =>
      rw [List.cons_append, List.cons_prefix_cons] at h
      rw [List.cons_prefix_cons]
      exact ⟨h.1, ih hd.2 h.2⟩

omit [DecidableEq α] in
/-- A list without the separator does not start at it. -/
theorem not_prefix_separator {d : α} (hne : old ≠ []) (hd : d ∉ old) (rest : List α) :
    ¬ old <+: d :: rest := by
  intro hfront
  cases old with
  | nil => exact hne rfl
  | cons a old =>
    rw [List.cons_prefix_cons] at hfront
    exact hd (hfront.1 ▸ List.mem_cons_self)

omit [DecidableEq α] in
/-- A text is cut at its first separator in one way. -/
theorem append_separator_inj {d : α} {left left' right right' : List α} (hleft : d ∉ left)
    (hleft' : d ∉ left') (h : left ++ d :: right = left' ++ d :: right') :
    left = left' ∧ right = right' := by
  induction left generalizing left' with
  | nil =>
    cases left' with
    | nil => exact ⟨rfl, (List.cons.inj h).2⟩
    | cons a left' => exact absurd (List.cons.inj h).1 fun heq => hleft' (heq ▸ List.mem_cons_self)
  | cons a left ih =>
    rw [List.mem_cons, not_or] at hleft
    cases left' with
    | nil => exact absurd (List.cons.inj h).1.symm hleft.1
    | cons b left' =>
      rw [List.mem_cons, not_or] at hleft'
      obtain ⟨rfl, htail⟩ := List.cons.inj h
      obtain ⟨rfl, hright⟩ := ih hleft.2 hleft'.2 htail
      exact ⟨rfl, hright⟩

/-- The replacement of a list without the separator goes on by itself on both sides. -/
theorem replaceAll_literal_separator {d : α} (hne : old ≠ []) (hd : d ∉ old)
    (text rest : List α) :
    replaceAll (literal old new) (text ++ d :: rest) =
      replaceAll (literal old new) text ++ d :: replaceAll (literal old new) rest := by
  induction text using literal_induction hne with
  | nil => exact replaceAll_literal_cons (not_prefix_separator hne hd rest)
  | found text ih =>
    rw [List.append_assoc, replaceAll_literal_append hne, ih, replaceAll_literal_append hne,
      List.append_assoc]
  | cons a text hno ih =>
    have hno' : ¬ old <+: a :: (text ++ d :: rest) := by
      rw [← List.cons_append, prefix_append_separator hd]
      exact hno
    rw [List.cons_append, replaceAll_literal_cons hno', ih, replaceAll_literal_cons hno,
      List.cons_append]

end

section

variable {rule : List α → Option (Except ε (List α) × ℕ)}

theorem replaceFromM_eq_drop (skip : ℕ) (text : List α) :
    replaceFromM rule skip text = replaceAllM rule (text.drop skip) := by
  induction text generalizing skip with
  | nil => cases skip <;> rfl
  | cons a rest ih =>
    cases skip with
    | zero => rfl
    | succ skip => rw [replaceFromM, ih, List.drop_succ_cons]

@[simp] theorem replaceAllM_nil : replaceAllM rule [] = .ok [] := rfl

theorem replaceAllM_cons {a : α} {rest : List α} (h : rule (a :: rest) = none) :
    replaceAllM rule (a :: rest) = (replaceAllM rule rest).map (a :: ·) := by
  rw [replaceAllM, replaceFromM, h]
  rfl

theorem replaceAllM_append {text rest : List α} (h : Misses rule text rest) :
    replaceAllM rule (text ++ rest) = (replaceAllM rule rest).map (text ++ ·) := by
  induction text with
  | nil => cases hrest : replaceAllM rule rest <;> simp [hrest, Except.map]
  | cons a text ih =>
    obtain ⟨hhead, htail⟩ := h
    rw [List.cons_append, replaceAllM_cons hhead, ih htail]
    cases replaceAllM rule rest <;> rfl

theorem replaceAllM_match {pattern rest new : List α} (hne : pattern ≠ [])
    (h : rule (pattern ++ rest) = some (.ok new, pattern.length)) :
    replaceAllM rule (pattern ++ rest) = (replaceAllM rule rest).map (new ++ ·) := by
  cases pattern with
  | nil => exact absurd rfl hne
  | cons a pattern =>
    rw [List.cons_append] at h ⊢
    rw [replaceAllM, replaceFromM, h]
    show (replaceFromM rule ((pattern.length + 1) - 1) (pattern ++ rest)).map (new ++ ·) = _
    rw [replaceFromM_eq_drop, Nat.add_sub_cancel, List.drop_left]

theorem replaceAllM_match_error {pattern rest : List α} {e : ε} (hne : pattern ≠ [])
    (h : rule (pattern ++ rest) = some (.error e, pattern.length)) :
    replaceAllM rule (pattern ++ rest) = .error e := by
  cases pattern with
  | nil => exact absurd rfl hne
  | cons a pattern =>
    rw [List.cons_append] at h ⊢
    rw [replaceAllM, replaceFromM, h]

end

end Rewriting
