import ComposeBastion.Deployment.Environment

namespace ComposeBastion

/-!
# The environment codec

`serializeDeploymentEnvironment` and `parseDeploymentEnvironment` are inverse to each other on
the maps a deployment can have.

* `parseRound_lt`, `parseFrom_fuel` — every round takes a character, so the fuel never runs out;
* `parseRound_serializeEntry` — one line of the canonical text is one round, whatever the value;
* `parse_keys` — the keys of a parsed map are names;
* `parse_serialize_round_trip` — the round trip.
-/

/-! ### The loop ends -/

theorem length_dropWhile_le (p : Char → Bool) (text : List Char) :
    (text.dropWhile p).length ≤ text.length :=
  (List.dropWhile_sublist p).length_le

theorem length_skipToNextLine_le (text : List Char) :
    (skipToNextLine text).length ≤ text.length - 1 := by
  have h := length_dropWhile_le (· ≠ '\n') text
  rw [skipToNextLine, List.length_drop]
  omega

theorem length_readSingleQuoted_le (text : List Char) :
    (readSingleQuoted text).2.length ≤ text.length := by
  fun_induction readSingleQuoted text <;> simp_all <;> omega

theorem length_readDoubleQuoted_le (text : List Char) :
    (readDoubleQuoted text).2.length ≤ text.length := by
  fun_induction readDoubleQuoted text <;> simp_all <;> omega

theorem length_readValue_le (text : List Char) : (readValue text).2.2.length ≤ text.length := by
  unfold readValue
  split
  · rename_i rest
    have hread := length_readSingleQuoted_le rest
    have hskip := length_skipToNextLine_le (readSingleQuoted rest).2
    rw [List.length_cons]
    show (skipToNextLine (readSingleQuoted rest).2).length ≤ _
    omega
  · rename_i rest
    have hread := length_readDoubleQuoted_le rest
    have hskip := length_skipToNextLine_le (readDoubleQuoted rest).2
    rw [List.length_cons]
    show (skipToNextLine (readDoubleQuoted rest).2).length ≤ _
    omega
  · have hskip := length_skipToNextLine_le text
    show (skipToNextLine text).length ≤ _
    omega

theorem matchName_eq_some {text key rest : List Char} (h : matchName text = some (key, rest)) :
    text = key ++ rest ∧ isName key = true := by
  cases text with
  | nil => cases h
  | cons c tail =>
    rw [matchName] at h
    split at h
    · rename_i hc
      cases h
      refine ⟨by rw [List.cons_append, List.takeWhile_append_dropWhile], ?_⟩
      rw [isName, hc, Bool.true_and]
      exact List.all_takeWhile
    · cases h

/-- An entry takes a character of a text that is not empty. -/
theorem length_parseEntry {result result' : Environment} {text rest : List Char}
    (h : parseEntry result text = .ok (result', rest)) : rest.length ≤ text.length - 1 := by
  have hskip := length_skipToNextLine_le
  unfold parseEntry at h
  split at h
  · cases h
    exact hskip text
  · rename_i key after hname
    have htext : text.length = key.length + after.length := by
      rw [(matchName_eq_some hname).1, List.length_append]
    have hkey : 0 < key.length := by
      have hvalid := (matchName_eq_some hname).2
      cases key with
      | nil => cases hvalid
      | cons c key => simp
    have hblank := length_dropWhile_le isBlank after
    split at h
    · rename_i value hvalue
      rw [hvalue, List.length_cons] at hblank
      have hread := length_readValue_le (value.dropWhile isBlank)
      have hdrop := length_dropWhile_le isBlank value
      dsimp only at h
      have hrest : rest = (readValue (value.dropWhile isBlank)).2.2 := by
        split at h
        · cases hvalue : interpolateDeploymentEnvironment
              (readValue (value.dropWhile isBlank)).1 result with
          | error e => rw [hvalue] at h; cases h
          | ok resolved => rw [hvalue] at h; cases h; rfl
        · cases h; rfl
      rw [hrest]
      omega
    · cases h
      have hnext := hskip (after.dropWhile isBlank)
      omega

theorem length_skipExport_le (text : List Char) : (skipExport text).length ≤ text.length := by
  unfold skipExport
  split
  · have h := length_dropWhile_le isBlank (text.drop 6)
    rw [List.length_drop] at h
    omega
  · exact Nat.le_refl _

/-- Every round takes a character. -/
theorem parseRound_lt {result result' : Environment} {text rest : List Char} (hne : text ≠ [])
    (h : parseRound result text = .ok (result', rest)) : rest.length < text.length := by
  have hpos := List.length_pos_iff.mpr hne
  have hblank := length_dropWhile_le (fun c => isBlank c || c == '\r') text
  unfold parseRound at h
  split at h
  · rename_i heq
    cases h
    rw [heq, List.length_cons] at hblank
    omega
  · rename_i tail heq
    cases h
    rw [heq, List.length_cons] at hblank
    have hskip := length_skipToNextLine_le tail
    omega
  · have hentry := length_parseEntry h
    have hexport := length_skipExport_le (text.dropWhile fun c => isBlank c || c == '\r')
    omega

/-- Any two amounts of fuel that reach the end of the text do the same. -/
theorem parseFrom_fuel {fuel fuel' : ℕ} {result : Environment} {text : List Char}
    (h : text.length ≤ fuel) (h' : text.length ≤ fuel') :
    parseFrom fuel result text = parseFrom fuel' result text := by
  induction fuel generalizing fuel' result text with
  | zero =>
    rw [List.length_eq_zero_iff.mp (Nat.le_zero.mp h)]
    cases fuel' <;> rfl
  | succ fuel ih =>
    cases text with
    | nil => cases fuel' <;> rfl
    | cons c rest =>
      cases fuel' with
      | zero => cases h'
      | succ fuel' =>
        unfold parseFrom
        cases hround : parseRound result (c :: rest) with
        | error e => rfl
        | ok next =>
          have hlt := parseRound_lt (List.cons_ne_nil c rest) hround
          exact ih (by omega) (by omega)

/-- One round, and the rest of the text with its own fuel. -/
theorem parseFrom_round {result result' : Environment} {text rest : List Char} (hne : text ≠ [])
    (h : parseRound result text = .ok (result', rest)) :
    parseFrom text.length result text = parseFrom rest.length result' rest := by
  have hlt := parseRound_lt hne h
  cases text with
  | nil => exact absurd rfl hne
  | cons c tail =>
    rw [List.length_cons] at hlt ⊢
    rw [parseFrom, h]
    · exact parseFrom_fuel (by omega) (Nat.le_refl _)
    · exact List.cons_ne_nil c tail

/-! ### One line of the canonical text -/

theorem readSingleQuoted_escapeValue (value rest : List Char) :
    readSingleQuoted (escapeValue value ++ '\'' :: rest) = (value, rest) := by
  induction value with
  | nil => rfl
  | cons c value ih =>
    have hcons : escapeValue (c :: value) ++ '\'' :: rest
        = (if c = '\\' ∨ c = '\'' then ['\\', c] else [c])
          ++ (escapeValue value ++ '\'' :: rest) := by
      simp [escapeValue]
    rw [hcons]
    by_cases hslash : c = '\\'
    · subst hslash
      simp [readSingleQuoted, ih]
    · by_cases hquote : c = '\''
      · subst hquote
        simp [readSingleQuoted, ih]
      · simp [readSingleQuoted, hslash, hquote, ih]

/-- A name is matched up to the first character that cannot continue it. -/
theorem matchName_append {key rest : List Char} (hkey : isName key = true)
    (hrest : ∀ c ∈ rest.head?, isNameChar c = false) :
    matchName (key ++ rest) = some (key, rest) := by
  cases key with
  | nil => cases hkey
  | cons c key =>
    simp only [isName, Bool.and_eq_true] at hkey
    obtain ⟨hstart, hchars⟩ := hkey
    have hall : ∀ d ∈ key, isNameChar d = true := List.all_eq_true.mp hchars
    have htake : rest.takeWhile isNameChar = [] := by
      cases rest with
      | nil => rfl
      | cons d rest => rw [List.takeWhile_cons_of_neg (by simp [hrest d rfl])]
    rw [List.cons_append, matchName, if_pos hstart,
      List.takeWhile_append_of_pos hall, List.dropWhile_append_of_pos hall, htake,
      List.append_nil, Js.dropWhile_eq_self hrest]

/-- A character of a name is none of the characters that are not. -/
theorem ne_of_isNameChar {c d : Char} (hc : isNameChar c = true) (hd : isNameChar d = false) :
    c ≠ d := by
  rintro rfl
  rw [hc] at hd
  cases hd

theorem isBlank_of_isNameChar {c : Char} (h : isNameChar c = true) : isBlank c = false := by
  rw [isBlank, Bool.or_eq_false_iff, beq_eq_false_iff_ne, beq_eq_false_iff_ne]
  exact ⟨ne_of_isNameChar h (by decide), ne_of_isNameChar h (by decide)⟩

theorem isNameChar_of_isName {key : List Char} (hkey : isName key = true) :
    ∀ c ∈ key, isNameChar c = true := by
  cases key with
  | nil => cases hkey
  | cons c key =>
    simp only [isName, Bool.and_eq_true, List.all_eq_true] at hkey
    intro d hd
    rcases List.mem_cons.mp hd with rfl | hd
    · simp [isNameChar, hkey.1]
    · exact hkey.2 d hd

/-- A name with `=` behind it is not `export` with a blank behind it. -/
theorem skipExport_name {key : List Char} (hkey : isName key = true) (rest : List Char) :
    skipExport (key ++ '=' :: rest) = key ++ '=' :: rest := by
  unfold skipExport
  rw [if_neg]
  rintro ⟨hexport, hblank⟩
  have hchars := isNameChar_of_isName hkey
  obtain ⟨t, ht⟩ := List.isPrefixOf_iff_prefix.mp hexport
  rw [List.head?_drop, Option.any_eq_true] at hblank
  obtain ⟨d, hd, hblank⟩ := hblank
  rcases Nat.lt_trichotomy key.length 6 with hshort | hequal | hlong
  · -- the `=` would be a letter of `export`
    have hlast : ("export".toList ++ t)[key.length]? = some '=' := by
      rw [ht, List.getElem?_append_right (Nat.le_refl _), Nat.sub_self]
      rfl
    rw [List.getElem?_append_left hshort] at hlast
    exact absurd (List.mem_of_getElem? hlast) (by decide)
  · rw [← hequal, List.getElem?_append_right (Nat.le_refl _), Nat.sub_self] at hd
    cases hd
    exact absurd hblank (by decide)
  · rw [List.getElem?_append_left hlong] at hd
    rw [isBlank_of_isNameChar (hchars d (List.mem_of_getElem? hd))] at hblank
    cases hblank

/-- One line of the canonical text is one round of the parser. -/
theorem parseRound_serializeEntry (result : Environment) {key : List Char} (value tail : List Char)
    (hkey : isName key = true) :
    parseRound result (serializeEntry (key, value) ++ tail)
      = .ok (result.set key value, skipToNextLine tail) := by
  have htext : serializeEntry (key, value) ++ tail
      = key ++ '=' :: '\'' :: (escapeValue value ++ '\'' :: tail) := by
    simp [serializeEntry]
  have hentry : parseEntry result (key ++ '=' :: '\'' :: (escapeValue value ++ '\'' :: tail))
      = .ok (result.set key value, skipToNextLine tail) := by
    rw [parseEntry, matchName_append hkey (by rintro c ⟨⟩; decide)]
    simp [isBlank, readValue, readSingleQuoted_escapeValue]
  rw [htext]
  obtain ⟨c, rest, hcons⟩ : ∃ c rest, key = c :: rest := by
    cases key with
    | nil => cases hkey
    | cons c rest => exact ⟨c, rest, rfl⟩
  have hc : isNameChar c = true := isNameChar_of_isName hkey c (by simp [hcons])
  have hskip : (key ++ '=' :: '\'' :: (escapeValue value ++ '\'' :: tail)).dropWhile
      (fun c => isBlank c || c == '\r') = key ++ '=' :: '\'' :: (escapeValue value ++ '\'' :: tail) := by
    apply Js.dropWhile_eq_self
    rw [hcons]
    rintro d ⟨⟩
    rw [isBlank_of_isNameChar hc, Bool.false_or, beq_eq_false_iff_ne]
    exact ne_of_isNameChar hc (by decide)
  have hexport := skipExport_name hkey ('\'' :: (escapeValue value ++ '\'' :: tail))
  rw [parseRound, hskip]
  split
  · rename_i heq
    rw [hcons] at heq
    exact absurd (List.cons.inj heq).1 (ne_of_isNameChar hc (by decide))
  · rename_i heq
    rw [hcons] at heq
    exact absurd (List.cons.inj heq).1 (ne_of_isNameChar hc (by decide))
  · rw [hexport, hentry]

/-! ### The whole text -/

/-- Parsing the canonical lines sets the entries one after the other. -/
theorem parseFrom_serialize {entries : List (List Char × List Char)}
    (hkeys : ∀ entry ∈ entries, isName entry.1 = true) (result : Environment) :
    parseFrom (['\n'].intercalate (entries.map serializeEntry)).length result
        (['\n'].intercalate (entries.map serializeEntry))
      = .ok (entries.foldl (fun result entry => result.set entry.1 entry.2) result) := by
  induction entries generalizing result with
  | nil => rfl
  | cons entry entries ih =>
    obtain ⟨key, value⟩ := entry
    have hkey : isName key = true := hkeys (key, value) List.mem_cons_self
    have hne : ∀ tail, serializeEntry (key, value) ++ tail ≠ [] := by
      intro tail
      simp [serializeEntry]
    rw [List.foldl_cons, ← ih (fun entry hentry => hkeys entry (List.mem_cons_of_mem _ hentry))]
    cases entries with
    | nil =>
      have hround := parseRound_serializeEntry result value [] hkey
      rw [List.append_nil] at hround
      simpa [skipToNextLine] using parseFrom_round (by simpa using hne []) hround
    | cons next entries =>
      have hround := parseRound_serializeEntry result value
        ('\n' :: ['\n'].intercalate ((next :: entries).map serializeEntry)) hkey
      have hparse := parseFrom_round (hne _) hround
      simpa [skipToNextLine] using hparse

/-- **Parsing what was serialised.** -/
theorem parse_serialize {values : Environment} (hkeys : ∀ key ∈ values.keys, isName key = true) :
    parseDeploymentEnvironment (serializeDeploymentEnvironment values) = .ok values := by
  have hentries : ∀ entry ∈ values.entries, isName entry.1 = true := fun entry hentry =>
    hkeys entry.1 (List.mem_map_of_mem hentry)
  have h := parseFrom_serialize hentries ∅
  rw [OrderedMap.foldl_set_entries] at h
  exact h

/-! ### The keys of a parsed map -/

/-- Every key of the map is a name. -/
def NamedKeys (values : Environment) : Prop := ∀ key ∈ values.keys, isName key = true

theorem NamedKeys.set {values : Environment} (h : NamedKeys values) {key : List Char}
    (hkey : isName key = true) (value : List Char) : NamedKeys (values.set key value) := by
  intro k hk
  rcases OrderedMap.mem_keys_set.mp hk with rfl | hk
  · exact hkey
  · exact h k hk

theorem NamedKeys.parseEntry {result result' : Environment} {text rest : List Char}
    (h : NamedKeys result) (hparse : parseEntry result text = .ok (result', rest)) :
    NamedKeys result' := by
  unfold ComposeBastion.parseEntry at hparse
  split at hparse
  · cases hparse
    exact h
  · rename_i key after hname
    have hkey := (matchName_eq_some hname).2
    split at hparse
    · rename_i value _
      dsimp only at hparse
      split at hparse
      · cases hvalue : interpolateDeploymentEnvironment
            (readValue (value.dropWhile isBlank)).1 result with
        | error e => rw [hvalue] at hparse; cases hparse
        | ok resolved =>
          rw [hvalue] at hparse
          cases hparse
          exact h.set hkey resolved
      · cases hparse
        exact h.set hkey _
    · cases hparse
      exact h

theorem NamedKeys.parseRound {result result' : Environment} {text rest : List Char}
    (h : NamedKeys result) (hparse : parseRound result text = .ok (result', rest)) :
    NamedKeys result' := by
  unfold ComposeBastion.parseRound at hparse
  split at hparse
  · cases hparse; exact h
  · cases hparse; exact h
  · exact h.parseEntry hparse

theorem NamedKeys.parseFrom {fuel : ℕ} {result values : Environment} {text : List Char}
    (h : NamedKeys result) (hparse : parseFrom fuel result text = .ok values) :
    NamedKeys values := by
  induction fuel generalizing result text with
  | zero => cases hparse; exact h
  | succ fuel ih =>
    cases text with
    | nil => cases hparse; exact h
    | cons c rest =>
      unfold ComposeBastion.parseFrom at hparse
      cases hround : ComposeBastion.parseRound result (c :: rest) with
      | error e => rw [hround] at hparse; cases hparse
      | ok next =>
        rw [hround] at hparse
        exact ih (h.parseRound hround) hparse

theorem parse_keys {text : List Char} {values : Environment}
    (h : parseDeploymentEnvironment text = .ok values) : NamedKeys values := by
  have hempty : NamedKeys ∅ := fun _ hk => by cases hk
  exact hempty.parseFrom h

/-- **Environment round trip.**  Parsing the canonical text of a map whose keys are names
    gives the map back, entries in order; hence serialising a parsed text and parsing it again
    changes nothing. -/
theorem parse_serialize_round_trip :
    (∀ values : Environment, (∀ key ∈ values.keys, isName key = true) →
      parseDeploymentEnvironment (serializeDeploymentEnvironment values) = .ok values)
    ∧ (∀ (text : List Char) (values : Environment),
      parseDeploymentEnvironment text = .ok values →
        parseDeploymentEnvironment (serializeDeploymentEnvironment values) = .ok values) :=
  ⟨fun _ hkeys => parse_serialize hkeys, fun _ _ h => parse_serialize (parse_keys h)⟩

example : parseDeploymentEnvironment "A=1 # one\nexport B = \"$A\\$2\"\nC='it\\'s'".toList
    = .ok ⟨[("A".toList, "1".toList), ("B".toList, "1$2".toList), ("C".toList, "it's".toList)],
      by decide⟩ := by
  decide +kernel

end ComposeBastion
