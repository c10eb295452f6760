import ComposeBastion.Js.CodeUnits
import ComposeBastion.Lib.Placeholders
import Mathlib.Data.List.Sort

namespace ComposeBastion

open Rewriting Placeholders Js

/-!
# Redacting secrets in texts

`redactSensitiveValues` of `services/deploymentEnvironment.ts`: every secret, longest first, is
replaced in its raw, URI-encoded and JSON-escaped form by a placeholder of its own, and at the
end every placeholder by `[REDACTED]`.

* `redactSensitiveValues` — the code;
* `secretScheme` — its placeholders as a scheme;
* `CleanlyRedacted` — what the output should be: the text with markers for pieces of it, and
  every secret that still stands in it inside one of these markers;
* `Concealable` — every secret can be encoded, no secret occurs in the word of a placeholder that
  stands in the text when its turn comes, and no piece of the text between two placeholders
  looks like one;
* `Redactable` — besides, no secret can be put together from the text and the markers;
* `redaction_clean` — then the output is clean, and for a text without NUL only then.
-/

/-! ### The code -/

/-- `COMPOSEBASTION_SECRET_${index}`. -/
def secretWord (index : ℕ) : CodeUnits :=
  units "COMPOSEBASTION_SECRET_" ++ (Nat.toDigits 10 index).map unit

/-- The placeholder of a secret: the word between two NUL characters. -/
def secretPlaceholder (index : ℕ) : CodeUnits := 0 :: (secretWord index ++ [0])

/-- `[REDACTED]`. -/
def redactedMarker : CodeUnits := units "[REDACTED]"

/-- `[...new Set(sensitiveValues)].filter(Boolean)`, longest first. -/
def redactionOrder (sensitiveValues : List CodeUnits) : List CodeUnits :=
  (sensitiveValues.eraseDups.filter (· ≠ [])).insertionSort
    fun left right => right.length ≤ left.length

/-- The forms in which a secret is replaced. -/
def secretVariants (value : CodeUnits) : Except String (List CodeUnits) :=
  (encodeURIComponent value).map fun encoded => [value, encoded, jsonContent value].eraseDups

/-- The inner loop: the forms of one secret. -/
def replaceVariants (index : ℕ) (variants : List CodeUnits) (result : CodeUnits) : CodeUnits :=
  variants.foldl (fun result variant =>
    if variant = [] then result
    else replaceAll (literal variant (secretPlaceholder index)) result) result

/-- The outer loop: the secrets from `index` on. -/
def replaceValues : ℕ → List CodeUnits → CodeUnits → Except String CodeUnits
  | _, [], result => .ok result
  | index, value :: rest, result =>
    match secretVariants value with
    | .error e => .error e
    | .ok variants => replaceValues (index + 1) rest (replaceVariants index variants result)

/-- The last loop: the placeholders become the marker. -/
def replacePlaceholders (count : ℕ) (result : CodeUnits) : CodeUnits :=
  (List.range count).foldl (fun result index =>
    replaceAll (literal (secretPlaceholder index) redactedMarker) result) result

/-- `redactSensitiveValues`. -/
def redactSensitiveValues (text : CodeUnits) (sensitiveValues : List CodeUnits) :
    Except String CodeUnits :=
  let replacements := redactionOrder sensitiveValues
  (replaceValues 0 replacements text).map (replacePlaceholders replacements.length)

/-! ### What redaction is for -/

/-- A form in which a secret must not be shown. -/
def SecretForm (value form : CodeUnits) : Prop :=
  form = value ∨ encodeURIComponent value = .ok form ∨ form = jsonContent value

/-- The output is the text with markers for pieces of it, and a form of a secret stands in it only
    where all of it belongs to one of these markers. -/
def CleanlyRedacted (text : CodeUnits) (sensitiveValues : List CodeUnits) (out : CodeUnits) :
    Prop :=
  ∃ marked : List (Symbol UInt16), out = shown redactedMarker marked ∧
    List.Sublist (kept marked) text ∧
    ∀ value ∈ sensitiveValues, ∀ form, SecretForm value form →
      OnlyInMarkers redactedMarker form marked

/-! ### The placeholders -/

theorem unit_digit {index : ℕ} {c : Char} (h : c ∈ Nat.toDigits 10 index) :
    unit c ∈ units "0123456789" ∧ Char.ofNat (unit c).toNat = c := by
  have hdigit : c.isDigit = true := Nat.isDigit_of_mem_toDigits (by decide) (by decide) h
  simp only [Char.isDigit, Bool.and_eq_true, decide_eq_true_eq] at hdigit
  have hlow : 48 ≤ c.toNat := hdigit.1
  have hhigh : c.toNat ≤ 57 := hdigit.2
  have hunits : ∀ n < 58, 48 ≤ n → UInt16.ofNat n ∈ units "0123456789" := by decide +kernel
  refine ⟨hunits _ (by omega) hlow, ?_⟩
  rw [unit, UInt16.toNat_ofNat', Nat.mod_eq_of_lt (by omega), Char.ofNat_toNat]

theorem mem_secretWord {index : ℕ} {u : UInt16} (h : u ∈ secretWord index) :
    u ∈ units "COMPOSEBASTION_SECRET_0123456789" := by
  rw [show units "COMPOSEBASTION_SECRET_0123456789" =
    units "COMPOSEBASTION_SECRET_" ++ units "0123456789" from by decide +kernel]
  rcases List.mem_append.mp h with h | h
  · exact List.mem_append_left _ h
  · obtain ⟨c, hc, rfl⟩ := List.mem_map.mp h
    exact List.mem_append_right _ (unit_digit hc).1

theorem secretWord_injective (j k : ℕ) (h : secretWord j = secretWord k) : j = k := by
  have hdigits := congrArg (List.map fun u : UInt16 => Char.ofNat u.toNat)
    (List.append_cancel_left h)
  rw [List.map_map, List.map_map] at hdigits
  have hback : ∀ index, (Nat.toDigits 10 index).map
      ((fun u : UInt16 => Char.ofNat u.toNat) ∘ unit) = Nat.toDigits 10 index := by
    intro index
    calc (Nat.toDigits 10 index).map ((fun u : UInt16 => Char.ofNat u.toNat) ∘ unit)
        = (Nat.toDigits 10 index).map id := List.map_congr_left fun c hc => (unit_digit hc).2
      _ = Nat.toDigits 10 index := List.map_id _
  rw [hback, hback] at hdigits
  rw [← Nat.ofDigitChars_ten_toDigits (n := j), hdigits, Nat.ofDigitChars_ten_toDigits]

/-- No word ends in another: its third letter stands nowhere else. -/
theorem secretWord_suffix (j k : ℕ) (front : CodeUnits)
    (h : secretWord j = front ++ secretWord k) : front = [] := by
  have hword : ∀ index, secretWord index = unit 'C' :: unit 'O' :: unit 'M' ::
      (units "POSEBASTION_SECRET_" ++ (Nat.toDigits 10 index).map unit) := fun index => rfl
  have hm : unit 'M' ∉ units "POSEBASTION_SECRET_" ++ (Nat.toDigits 10 j).map unit := by
    rw [List.mem_append, not_or]
    refine ⟨by decide +kernel, fun hmem => ?_⟩
    obtain ⟨c, hc, heq⟩ := List.mem_map.mp hmem
    have hdigit := (unit_digit hc).1
    rw [heq] at hdigit
    exact absurd hdigit (by decide +kernel)
  rw [hword, hword] at h
  rcases front with _ | ⟨a, _ | ⟨b, _ | ⟨c, front⟩⟩⟩
  · rfl
  · exact absurd (List.cons.inj (List.cons.inj h).2).1 (by decide)
  · exact absurd (List.cons.inj (List.cons.inj (List.cons.inj h).2).2).1 (by decide)
  · have htail := (List.cons.inj (List.cons.inj (List.cons.inj h).2).2).2
    exact absurd (by rw [htail]; simp) hm

/-- The placeholders of `redactSensitiveValues`. -/
def secretScheme : Scheme UInt16 where
  delimiter := 0
  word := secretWord
  sign := unit '['
  signTail := units "REDACTED]"
  delimiter_notMem_word _ h := absurd (mem_secretWord h) (by decide +kernel)
  word_injective := secretWord_injective
  word_suffix := secretWord_suffix
  sign_notMem_word _ h := absurd (mem_secretWord h) (by decide +kernel)
  delimiter_notMem_marker := by decide +kernel

/-! ### The loops as jobs -/

/-- The replacements of the loops, in order: the forms of every secret with its index. -/
def redactionJobs : ℕ → List CodeUnits → List (ℕ × CodeUnits)
  | _, [] => []
  | index, value :: rest =>
    ((secretVariants value).toOption.getD []).map (fun variant => (index, variant)) ++
      redactionJobs (index + 1) rest

/-- The text with the secrets marked. -/
def markedText (text : CodeUnits) (sensitiveValues : List CodeUnits) : List (Symbol UInt16) :=
  markAll (redactionJobs 0 (redactionOrder sensitiveValues)) (text.map .keep)

/-- Every secret can be encoded; when its turn comes no form of a secret occurs in the word of
    a placeholder that stands in the text; and no piece of the text between two placeholders is
    the word of a third. -/
structure Concealable (text : CodeUnits) (sensitiveValues : List CodeUnits) : Prop where
  wellFormed : ∀ value ∈ sensitiveValues, codePoints value ≠ none
  apart : Apart secretScheme (redactionJobs 0 (redactionOrder sensitiveValues))
    (text.map .keep)
  noSteal : ∀ index < (redactionOrder sensitiveValues).length,
    secretScheme.NoSteal index (markedText text sensitiveValues)

/-- The secrets can be concealed, and where each place of a secret is shown as a marker no form of
    a secret can be put together from kept characters and pieces of markers. -/
structure Redactable (text : CodeUnits) (sensitiveValues : List CodeUnits) : Prop
    extends Concealable text sensitiveValues where
  seamless : ∀ value ∈ sensitiveValues, ∀ form, SecretForm value form →
    Seamless redactedMarker form (markedText text sensitiveValues)

theorem mem_redactionOrder {sensitiveValues : List CodeUnits} {value : CodeUnits} :
    value ∈ redactionOrder sensitiveValues ↔ value ∈ sensitiveValues ∧ value ≠ [] := by
  rw [redactionOrder, List.mem_insertionSort, List.mem_filter, List.mem_eraseDups,
    decide_eq_true_iff]

theorem secretVariants_ok {value : CodeUnits} (h : codePoints value ≠ none) :
    ∃ encoded, encodeURIComponent value = .ok encoded ∧
      secretVariants value = .ok [value, encoded, jsonContent value].eraseDups := by
  unfold secretVariants encodeURIComponent
  cases hpoints : codePoints value with
  | none => exact absurd hpoints h
  | some points => exact ⟨_, rfl, rfl⟩

theorem mem_secretVariants {value form : CodeUnits} (h : codePoints value ≠ none) :
    form ∈ (secretVariants value).toOption.getD [] ↔ SecretForm value form := by
  obtain ⟨encoded, hencoded, hvariants⟩ := secretVariants_ok h
  rw [hvariants, SecretForm, hencoded]
  show form ∈ [value, encoded, jsonContent value].eraseDups ↔ _
  rw [List.mem_eraseDups, Except.ok.injEq]
  simp only [List.mem_cons, List.not_mem_nil, or_false, eq_comm (a := encoded)]

/-- No form of a secret is empty or has a NUL character. -/
theorem SecretForm.plain {value form : CodeUnits} (hne : value ≠ []) (hnul : 0 ∉ value)
    (h : SecretForm value form) : form ≠ [] ∧ 0 ∉ form := by
  rcases h with rfl | hencoded | rfl
  · exact ⟨hne, hnul⟩
  · refine ⟨?_, zero_notMem_encodeURIComponent hencoded⟩
    rcases encodeURIComponent_cases hencoded with rfl | hmem
    · exact hne
    · exact List.ne_nil_of_mem hmem
  · refine ⟨?_, zero_notMem_jsonContent value⟩
    rcases jsonContent_cases value with heq | hmem
    · rwa [heq]
    · exact List.ne_nil_of_mem hmem

theorem mem_redactionJobs {index : ℕ} {values : List CodeUnits} {job : ℕ × CodeUnits}
    (h : job ∈ redactionJobs index values) :
    index ≤ job.1 ∧ job.1 < index + values.length ∧
      ∃ value ∈ values, job.2 ∈ (secretVariants value).toOption.getD [] := by
  induction values generalizing index with
  | nil => cases h
  | cons value rest ih =>
    rcases List.mem_append.mp h with h | h
    · obtain ⟨variant, hvariant, rfl⟩ := List.mem_map.mp h
      exact ⟨Nat.le_refl _, by simp, value, List.mem_cons_self, hvariant⟩
    · obtain ⟨hlow, hhigh, value', hvalue', hmem⟩ := ih h
      refine ⟨by omega, ?_, value', List.mem_cons_of_mem _ hvalue', hmem⟩
      rw [List.length_cons]
      omega

theorem redactionJobs_mem {index : ℕ} {values : List CodeUnits} {value form : CodeUnits}
    (hvalue : value ∈ values) (hform : form ∈ (secretVariants value).toOption.getD []) :
    ∃ job ∈ redactionJobs index values, job.2 = form := by
  induction values generalizing index with
  | nil => cases hvalue
  | cons first rest ih =>
    rcases List.mem_cons.mp hvalue with rfl | hvalue
    · exact ⟨(index, form), List.mem_append_left _ (List.mem_map_of_mem hform), rfl⟩
    · obtain ⟨job, hjob, heq⟩ := @ih (index + 1) hvalue
      exact ⟨job, List.mem_append_right _ hjob, heq⟩

/-- The inner loop is a run of jobs. -/
theorem replaceVariants_eq {index : ℕ} {variants : List CodeUnits}
    (hne : ∀ variant ∈ variants, variant ≠ []) (result : CodeUnits) :
    replaceVariants index variants result =
      conceal secretScheme (variants.map fun variant => (index, variant)) result := by
  induction variants generalizing result with
  | nil => rfl
  | cons variant rest ih =>
    have hvariant := hne variant List.mem_cons_self
    rw [List.map_cons]
    show replaceVariants index rest (if variant = [] then result else _) = _
    rw [if_neg hvariant, ih fun v hv => hne v (List.mem_cons_of_mem _ hv)]
    rfl

/-- The outer loop is a run of jobs, if every secret can be encoded. -/
theorem replaceValues_eq {index : ℕ} {values : List CodeUnits}
    (hvalues : ∀ value ∈ values, value ≠ [] ∧ 0 ∉ value ∧ codePoints value ≠ none)
    (result : CodeUnits) :
    replaceValues index values result =
      .ok (conceal secretScheme (redactionJobs index values) result) := by
  induction values generalizing index result with
  | nil => rfl
  | cons value rest ih =>
    obtain ⟨hne, hnul, hpoints⟩ := hvalues value List.mem_cons_self
    obtain ⟨encoded, -, hvariants⟩ := secretVariants_ok hpoints
    have hplain : ∀ variant ∈ [value, encoded, jsonContent value].eraseDups, variant ≠ [] := by
      intro variant hmem
      have hform : SecretForm value variant := by
        rw [← mem_secretVariants hpoints, hvariants]
        exact hmem
      exact (hform.plain hne hnul).1
    rw [replaceValues, redactionJobs, hvariants]
    show replaceValues (index + 1) rest (replaceVariants index _ result) = _
    rw [ih fun value hvalue => hvalues value (List.mem_cons_of_mem _ hvalue),
      replaceVariants_eq hplain]
    show _ = Except.ok (conceal secretScheme (_ ++ _) result)
    rw [conceal, conceal, conceal, List.foldl_append]
    rfl

/-- The loop fails at a secret that cannot be encoded. -/
theorem wellFormed_of_replaceValues {index : ℕ} {values : List CodeUnits}
    {result out : CodeUnits} (h : replaceValues index values result = .ok out) :
    ∀ value ∈ values, codePoints value ≠ none := by
  induction values generalizing index result with
  | nil => exact fun value hvalue => absurd hvalue List.not_mem_nil
  | cons first rest ih =>
    rw [replaceValues] at h
    split at h
    · cases h
    · rename_i variants hvariants
      intro value hvalue
      rcases List.mem_cons.mp hvalue with rfl | hvalue
      · intro hnone
        rw [secretVariants, encodeURIComponent, hnone] at hvariants
        cases hvariants
      · exact ih h value hvalue

/-! ### When the output is clean -/

section

variable {text : CodeUnits} {sensitiveValues : List CodeUnits}

/-- The jobs of well-formed secrets are lists without the delimiter. -/
theorem redactionJobs_plain (hsecrets : ∀ value ∈ sensitiveValues, value ≠ [] ∧ 0 ∉ value)
    (hwell : ∀ value ∈ sensitiveValues, codePoints value ≠ none) :
    ∀ job ∈ redactionJobs 0 (redactionOrder sensitiveValues),
      job.2 ≠ [] ∧ secretScheme.delimiter ∉ job.2 := by
  intro job hjob
  obtain ⟨-, -, value, hvalue, hform⟩ := mem_redactionJobs hjob
  have hmem := (mem_redactionOrder.mp hvalue).1
  obtain ⟨hne, hnul⟩ := hsecrets value hmem
  exact ((mem_secretVariants (hwell value hmem)).mp hform).plain hne hnul

theorem redactSensitiveValues_eq (hsecrets : ∀ value ∈ sensitiveValues, value ≠ [] ∧ 0 ∉ value)
    (hwell : ∀ value ∈ sensitiveValues, codePoints value ≠ none) :
    redactSensitiveValues text sensitiveValues =
      .ok (reveal secretScheme (redactionOrder sensitiveValues).length
        (conceal secretScheme (redactionJobs 0 (redactionOrder sensitiveValues)) text)) := by
  have hvalues : ∀ value ∈ redactionOrder sensitiveValues,
      value ≠ [] ∧ 0 ∉ value ∧ codePoints value ≠ none := by
    intro value hvalue
    have hmem := (mem_redactionOrder.mp hvalue).1
    exact ⟨(hsecrets value hmem).1, (hsecrets value hmem).2, hwell value hmem⟩
  rw [redactSensitiveValues, replaceValues_eq hvalues]
  rfl

/-- A marker at every secret, nothing else changed. -/
theorem Concealable.redacts (hsecrets : ∀ value ∈ sensitiveValues, value ≠ [] ∧ 0 ∉ value)
    (h : Concealable text sensitiveValues) :
    redactSensitiveValues text sensitiveValues =
      .ok (shown redactedMarker (markedText text sensitiveValues)) := by
  have hjobs := redactionJobs_plain hsecrets h.wellFormed
  have hmarks : ∀ k, Symbol.mark k ∈ markedText text sensitiveValues →
      k < (redactionOrder sensitiveValues).length := by
    intro k hk
    rcases mem_markAll (fun job hjob => (hjobs job hjob).1) hk with hmem | ⟨job, hjob, rfl⟩
    · simp at hmem
    · have hbound := (mem_redactionJobs hjob).2.1
      rwa [Nat.zero_add] at hbound
  rw [redactSensitiveValues_eq hsecrets h.wellFormed, reveal_conceal hjobs h.apart h.noSteal]
  exact congrArg Except.ok (display_eq_shown hmarks)

/-- No form of a secret is left between the marks. -/
theorem Concealable.not_left (hsecrets : ∀ value ∈ sensitiveValues, value ≠ [] ∧ 0 ∉ value)
    (h : Concealable text sensitiveValues) {value form : CodeUnits}
    (hvalue : value ∈ sensitiveValues) (hform : SecretForm value form) :
    ¬ form.map .keep <:+: markedText text sensitiveValues := by
  have hmem := (mem_secretVariants (h.wellFormed value hvalue)).mpr hform
  have horder := mem_redactionOrder.mpr ⟨hvalue, (hsecrets value hvalue).1⟩
  obtain ⟨job, hjob, rfl⟩ := @redactionJobs_mem 0 _ _ _ horder hmem
  exact not_infix_markAll (fun job hjob => (redactionJobs_plain hsecrets h.wellFormed job hjob).1)
    job hjob

theorem Redactable.clean (hsecrets : ∀ value ∈ sensitiveValues, value ≠ [] ∧ 0 ∉ value)
    (h : Redactable text sensitiveValues) :
    CleanlyRedacted text sensitiveValues
      (shown redactedMarker (markedText text sensitiveValues)) := by
  have hjobs := redactionJobs_plain hsecrets h.wellFormed
  refine ⟨_, rfl, kept_sublist (fun job hjob => (hjobs job hjob).1) text, ?_⟩
  intro value hvalue form hform
  have hne : form ≠ [] := (hform.plain (hsecrets value hvalue).1 (hsecrets value hvalue).2).1
  exact (onlyInMarkers_iff hne).mpr (h.seamless value hvalue form hform)

/-- A clean output without placeholders has no secret across the edge of a marker. -/
theorem Concealable.redactable (hsecrets : ∀ value ∈ sensitiveValues, value ≠ [] ∧ 0 ∉ value)
    (h : Concealable text sensitiveValues)
    (hclean : CleanlyRedacted text sensitiveValues
      (shown redactedMarker (markedText text sensitiveValues))) :
    Redactable text sensitiveValues := by
  refine ⟨h, fun value hvalue form hform => ?_⟩
  obtain ⟨marked, heq, -, honly⟩ := hclean
  have hne : form ≠ [] := (hform.plain (hsecrets value hvalue).1 (hsecrets value hvalue).2).1
  refine (onlyInMarkers_iff hne).mp fun front back hword => ?_
  exact inMarker_of_shown (by decide +kernel) heq (h.not_left hsecrets hvalue hform) hword
    (honly value hvalue form hform front back (heq ▸ hword))

/-- A clean output has no NUL character that the text does not have. -/
theorem CleanlyRedacted.zero_notMem {out : CodeUnits}
    (h : CleanlyRedacted text sensitiveValues out) (htext : 0 ∉ text) : 0 ∉ out := by
  obtain ⟨marked, rfl, hsublist, -⟩ := h
  intro hmem
  rcases mem_shown hmem with hkept | hmarker
  · exact htext (hsublist.subset hkept)
  · exact absurd hmarker (by decide +kernel)

/-- A text without NUL characters ends without them only if its secrets can be concealed. -/
theorem concealable_of_zero_notMem
    (hsecrets : ∀ value ∈ sensitiveValues, value ≠ [] ∧ 0 ∉ value) (htext : 0 ∉ text)
    {out : CodeUnits} (h : redactSensitiveValues text sensitiveValues = .ok out)
    (hout : 0 ∉ out) : Concealable text sensitiveValues := by
  have hwell : ∀ value ∈ sensitiveValues, codePoints value ≠ none := by
    intro value hvalue
    cases hreplace : replaceValues 0 (redactionOrder sensitiveValues) text with
    | error e =>
      rw [redactSensitiveValues, hreplace] at h
      cases h
    | ok result =>
      have horder := mem_redactionOrder.mpr ⟨hvalue, (hsecrets value hvalue).1⟩
      exact wellFormed_of_replaceValues hreplace value horder
  rw [redactSensitiveValues_eq hsecrets hwell] at h
  cases h
  obtain ⟨hapart, hsteal⟩ :=
    conditions_of_notMem (redactionJobs_plain hsecrets hwell) htext hout
  exact ⟨hwell, hapart, hsteal⟩

end

end ComposeBastion
