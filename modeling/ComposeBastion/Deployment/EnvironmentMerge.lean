import ComposeBastion.Deployment.EnvironmentCodec
import Mathlib.Data.List.Sort
import Mathlib.Data.List.Infix

namespace ComposeBastion

open Rewriting

/-!
# Redacted environments and their way back

`services/deployments.ts` shows the environment of an analysis with its secrets blanked
(`mapAnalysis`) and merges what the user sends back into the stored one (`queueDeployment`).
A blank value of a secret means that the stored value is kept.

What counts as secret is computed twice: for the response from the saved variables and the
names of the stored keys, for the merge from the saved variables and the variables of the
Compose file.  `keepsSecrets_iff` says when the two agree well enough: every blanked key with
a value must be secret for the merge as well.
-/

/-! ### Variables -/

/-- The alternatives of `SENSITIVE_ENVIRONMENT_NAME`, each `[_-]?` written out. -/
def sensitiveEnvironmentNames : List String :=
  ["password", "passwd", "secret", "token", "apikey", "api_key", "api-key", "privatekey",
    "private_key", "private-key", "credential", "auth", "databaseurl", "database_url",
    "database-url", "dsn", "connectionstring", "connection_string", "connection-string"]

/-- `SECRET_NAME.test(key)`. -/
def isSecretName (key : List Char) : Bool :=
  sensitiveEnvironmentNames.any fun name => name.toList <:+: key.map Char.toLower

/-- `Variable["source"]`. -/
inductive VariableSource
  | compose | exampleEnv | image | user
  deriving DecidableEq, Repr

/-- `Variable`. -/
structure DeploymentVariable where
  key : List Char
  value : List Char
  defaultValue : Option (List Char)
  required : Bool
  secret : Bool
  source : VariableSource
  deriving DecidableEq, Repr

/-- `parseEnvText`. -/
def parseEnvText (value : List Char) (source : VariableSource) :
    Except String (OrderedMap (List Char) DeploymentVariable) :=
  (parseDeploymentEnvironment value).map fun values =>
    values.entries.foldl (fun result entry =>
      let secret := isSecretName entry.1
      result.set entry.1
        { key := entry.1
          value := if secret then [] else entry.2
          defaultValue := if secret ∨ entry.2 = [] then none else some entry.2
          required := secret || entry.2.isEmpty
          secret := secret
          source := source }) ∅

/-- `/\$\{([A-Za-z_][A-Za-z0-9_]*)(?:(:?[-?])([^}]*))?\}/`: as `matchBraced`, without `+`. -/
def matchComposeVariable (text : List Char) : Option (BracedVariable × ℕ) :=
  match matchBraced text with
  | some (⟨_, some (.colonPlus, _)⟩, _) => none
  | some (⟨_, some (.plus, _)⟩, _) => none
  | found => found

/-- The variables a Compose file refers to. -/
def composeVariables (composeYaml : List Char) : List BracedVariable :=
  matchAll matchComposeVariable composeYaml

/-- The body of the loop of `extractDeploymentVariables`. -/
def composeVariable (existing : Option DeploymentVariable) (found : BracedVariable) :
    DeploymentVariable :=
  let secret := isSecretName found.key
  let default' : Option (List Char) := match found.operation with
    | some (.colonDash, operand) => some operand
    | some (.dash, operand) => some operand
    | _ => none
  let asks := match found.operation with
    | some (.colonQuestion, _) => true
    | some (.question, _) => true
    | _ => false
  let defaultValue := if secret then none else default'.or (existing.bind (·.defaultValue))
  let value := ((existing.map (·.value)).getD [])
  { key := found.key
    value := if secret then [] else if value ≠ [] then value else defaultValue.getD []
    defaultValue := defaultValue
    required := secret || asks || (default'.isNone && value.isEmpty)
    secret := secret
    source := .compose }

section

variable (localeLe : List Char → List Char → Bool)

/-- `extractDeploymentVariables`; `localeLe` is the order of `localeCompare`. -/
def extractDeploymentVariables (composeYaml exampleEnv : List Char) :
    Except String (List DeploymentVariable) :=
  (parseEnvText exampleEnv .exampleEnv).map fun examples =>
    let vars := (composeVariables composeYaml).foldl (fun vars found =>
      vars.set found.key (composeVariable (vars.get found.key) found)) examples
    (vars.entries.map Prod.snd).insertionSort fun left right =>
      localeLe left.key right.key = true

/-- The `variables` of `queueDeployment`: those of the Compose file over the saved ones. -/
def queuedVariables (saved : List DeploymentVariable) (composeYaml : List Char) :
    Except String (List DeploymentVariable) :=
  (extractDeploymentVariables localeLe composeYaml []).map fun fresh =>
    let byKey := (saved ++ fresh).foldl (fun byKey v => byKey.set v.key v)
      (∅ : OrderedMap (List Char) DeploymentVariable)
    byKey.entries.map Prod.snd

end

/-! ### Redacting and merging -/

/-- The keys of the variables that are marked secret. -/
def secretKeys (vars : List DeploymentVariable) : List (List Char) :=
  (vars.filter (·.secret)).map (·.key)

/-- The `secretKeys` of `mapAnalysis`. -/
def redactedKeys (saved : List DeploymentVariable) (stored : Environment) : List (List Char) :=
  secretKeys saved ++ stored.keys.filter isSecretName

/-- The values with the secret keys blanked. -/
def blankKeys (keys : List (List Char)) (values : Environment) : Environment :=
  keys.foldl (fun values key => if (values.get key).isSome then values.set key [] else values) values

/-- `sanitizeEnvForResponse`. -/
def sanitizeEnvForResponse (value : List Char) (keys : List (List Char)) :
    Except String (List Char) :=
  (parseDeploymentEnvironment value).map fun values =>
    serializeDeploymentEnvironment (blankKeys keys values)

/-- The body of the loop of `mergeRequestedEnv`. -/
def mergeEntry (secrets : List (List Char)) (merged : Environment) (entry : List Char × List Char) :
    Environment :=
  if secrets.contains entry.1 ∧ entry.2 = [] ∧ (merged.get entry.1).getD [] ≠ [] then merged
  else merged.set entry.1 entry.2

/-- `mergeRequestedEnv`. -/
def mergeRequestedEnv (storedEnv requestedEnv : List Char) (vars : List DeploymentVariable) :
    Except String (List Char) := do
  let merged ← parseDeploymentEnvironment storedEnv
  let requested ← parseDeploymentEnvironment requestedEnv
  return serializeDeploymentEnvironment
    (requested.entries.foldl (mergeEntry (secretKeys vars)) merged)


/-! ### Keeping secrets -/

/-- Sending the redacted environment back keeps what is stored.

* `unedited` — the redacted text itself merges to the stored map;
* `edited` — in whatever text is sent, a redacted key that is blank or missing keeps its value. -/
structure KeepsSecrets (storedEnv : List Char) (saved : List DeploymentVariable)
    (stored : Environment) (vars : List DeploymentVariable) : Prop where
  unedited : ∃ redacted merged,
    sanitizeEnvForResponse storedEnv (redactedKeys saved stored) = .ok redacted
      ∧ mergeRequestedEnv storedEnv redacted vars = .ok merged
      ∧ parseDeploymentEnvironment merged = .ok stored
  edited : ∀ requestedEnv requested, parseDeploymentEnvironment requestedEnv = .ok requested →
    ∀ key ∈ redactedKeys saved stored, ∀ value, stored.get key = some value →
      (requested.get key = none ∨ requested.get key = some []) →
      ∃ merged values, mergeRequestedEnv storedEnv requestedEnv vars = .ok merged
        ∧ parseDeploymentEnvironment merged = .ok values ∧ values.get key = some value

/-- Whether the merge takes a key as secret: a key the Compose file refers to by its name, any
    other key by the last saved variable with this key. -/
def mergeTakesAsSecret (saved : List DeploymentVariable) (composeYaml key : List Char) : Bool :=
  if ((composeVariables composeYaml).map (·.key)).contains key then isSecretName key
  else (saved.reverse.find? (·.key = key)).any (·.secret)

/-! ### Blanking -/

theorem keys_blankKeys (keys : List (List Char)) (values : Environment) :
    (blankKeys keys values).keys = values.keys := by
  unfold blankKeys
  induction keys generalizing values with
  | nil => rfl
  | cons key keys ih =>
    rw [List.foldl_cons, ih]
    split
    · rename_i hsome
      obtain ⟨value, hvalue⟩ := Option.isSome_iff_exists.mp hsome
      exact OrderedMap.keys_set_of_mem
        (List.mem_map.mpr ⟨_, OrderedMap.get_eq_some_iff.mp hvalue, rfl⟩)
    · rfl

theorem get_blankKeys (keys : List (List Char)) (values : Environment) (key : List Char) :
    (blankKeys keys values).get key
      = (values.get key).map fun value => if key ∈ keys then [] else value := by
  unfold blankKeys
  induction keys generalizing values with
  | nil => simp
  | cons first keys ih =>
    rw [List.foldl_cons, ih]
    by_cases hkey : key = first
    · subst hkey
      cases hget : values.get key with
      | none => simp [hget]
      | some value => simp
    · have hmem : key ∈ first :: keys ↔ key ∈ keys := by simp [hkey]
      have hget : (if (values.get first).isSome then values.set first [] else values).get key
          = values.get key := by
        split
        · exact OrderedMap.get_set_of_ne hkey
        · rfl
      simp only [hmem, hget]

/-! ### Merging -/

theorem mergeEntry_get_of_ne {secrets : List (List Char)} {merged : Environment}
    {entry : List Char × List Char} {key : List Char} (h : key ≠ entry.1) :
    (mergeEntry secrets merged entry).get key = merged.get key := by
  unfold mergeEntry
  split
  · rfl
  · exact OrderedMap.get_set_of_ne h

/-- What the merge makes of a stored and a requested value of one key. -/
def mergedValue (secrets : List (List Char)) (key : List Char) (old : Option (List Char))
    (new : List Char) : Option (List Char) :=
  if secrets.contains key ∧ new = [] ∧ old.getD [] ≠ [] then old else some new

theorem mergeEntry_get_self (secrets : List (List Char)) (merged : Environment)
    (entry : List Char × List Char) :
    (mergeEntry secrets merged entry).get entry.1
      = mergedValue secrets entry.1 (merged.get entry.1) entry.2 := by
  unfold mergeEntry mergedValue
  split
  · rfl
  · exact OrderedMap.get_set_self merged entry.1 entry.2

/-- What the merge leaves under one key: the requested value, unless that is the blank of a
    secret that has a value. -/
theorem get_foldl_mergeEntry {secrets : List (List Char)} (key : List Char)
    {entries : List (List Char × List Char)} (hnodup : (entries.map Prod.fst).Nodup)
    (merged : Environment) :
    (entries.foldl (mergeEntry secrets) merged).get key
      = match (entries.find? fun entry => entry.1 = key) with
        | none => merged.get key
        | some entry => mergedValue secrets key (merged.get key) entry.2 := by
  induction entries generalizing merged with
  | nil => rfl
  | cons entry entries ih =>
    rw [List.map_cons, List.nodup_cons] at hnodup
    rw [List.foldl_cons, ih hnodup.2]
    by_cases hkey : entry.1 = key
    · have hnone : (entries.find? fun entry => entry.1 = key) = none := by
        rw [List.find?_eq_none]
        intro other hother heq
        rw [decide_eq_true_eq] at heq
        exact hnodup.1 (hkey ▸ heq ▸ List.mem_map_of_mem hother)
      subst hkey
      rw [hnone, List.find?_cons_of_pos (by simp)]
      exact mergeEntry_get_self secrets merged entry
    · rw [List.find?_cons_of_neg (by simpa using hkey), mergeEntry_get_of_ne (Ne.symm hkey)]

/-- The merge of a whole map, key by key. -/
theorem get_merge (secrets : List (List Char)) (merged requested : Environment) (key : List Char) :
    (requested.entries.foldl (mergeEntry secrets) merged).get key
      = match requested.get key with
        | none => merged.get key
        | some new => mergedValue secrets key (merged.get key) new := by
  have hget : requested.get key
      = (requested.entries.find? fun entry => entry.1 = key).map Prod.snd := rfl
  rw [get_foldl_mergeEntry key requested.nodup, hget]
  cases requested.entries.find? fun entry => entry.1 = key <;> rfl

theorem namedKeys_merge {secrets : List (List Char)} {merged requested : Environment}
    (hmerged : NamedKeys merged) (hrequested : NamedKeys requested) :
    NamedKeys (requested.entries.foldl (mergeEntry secrets) merged) := by
  refine List.foldlRecOn _ _ hmerged fun values hvalues entry hentry => ?_
  unfold mergeEntry
  split
  · exact hvalues
  · exact hvalues.set (hrequested entry.1 (List.mem_map_of_mem hentry)) entry.2

theorem mergeRequestedEnv_ok {storedEnv requestedEnv : List Char} {stored requested : Environment}
    (hstored : parseDeploymentEnvironment storedEnv = .ok stored)
    (hrequested : parseDeploymentEnvironment requestedEnv = .ok requested)
    (vars : List DeploymentVariable) :
    mergeRequestedEnv storedEnv requestedEnv vars
        = .ok (serializeDeploymentEnvironment
          (requested.entries.foldl (mergeEntry (secretKeys vars)) stored))
      ∧ parseDeploymentEnvironment (serializeDeploymentEnvironment
          (requested.entries.foldl (mergeEntry (secretKeys vars)) stored))
        = .ok (requested.entries.foldl (mergeEntry (secretKeys vars)) stored) := by
  refine ⟨?_, parse_serialize (namedKeys_merge (parse_keys hstored) (parse_keys hrequested))⟩
  rw [mergeRequestedEnv, hstored, hrequested]
  rfl

/-- The redacted text parses to the blanked map. -/
theorem parse_sanitized {storedEnv : List Char} {stored : Environment}
    (hstored : parseDeploymentEnvironment storedEnv = .ok stored) (keys : List (List Char)) :
    sanitizeEnvForResponse storedEnv keys
        = .ok (serializeDeploymentEnvironment (blankKeys keys stored))
      ∧ parseDeploymentEnvironment (serializeDeploymentEnvironment (blankKeys keys stored))
        = .ok (blankKeys keys stored) := by
  refine ⟨by rw [sanitizeEnvForResponse, hstored]; rfl, parse_serialize ?_⟩
  rw [keys_blankKeys]
  exact parse_keys hstored

/-- Merging the blanked map back changes nothing when every blanked value is a secret of the
    merge. -/
theorem merge_blankKeys {keys secrets : List (List Char)} {stored : Environment}
    (h : ∀ key value, stored.get key = some value → value ≠ [] → key ∈ keys → key ∈ secrets) :
    (blankKeys keys stored).entries.foldl (mergeEntry secrets) stored = stored := by
  refine List.foldlRecOn (motive := fun values : Environment => values = stored) _ _ rfl
    fun values hvalues entry hentry => ?_
  subst hvalues
  have hblank := OrderedMap.get_eq_some_iff.mpr hentry
  rw [get_blankKeys] at hblank
  obtain ⟨value, hvalue, hnew⟩ := Option.map_eq_some_iff.mp hblank
  unfold mergeEntry
  split
  · rfl
  · rename_i hset
    rw [hvalue, Option.getD_some] at hset
    apply OrderedMap.set_eq_self
    rw [hvalue, ← hnew]
    split
    · -- a blanked key that is set was blank before
      rename_i hmem
      rw [if_pos hmem] at hnew
      by_contra hne
      have hvalue_ne : value ≠ [] := fun h => hne (by rw [h])
      exact hset ⟨List.contains_iff_mem.mpr (h entry.1 value hvalue hvalue_ne hmem), hnew.symm,
        hvalue_ne⟩
    · rfl

/-! ### The secrets of the merge -/

/-- The map of the variables of a Compose file. -/
def composeVariableMap (composeYaml : List Char) : OrderedMap (List Char) DeploymentVariable :=
  (composeVariables composeYaml).foldl (fun vars found =>
    vars.set found.key (composeVariable (vars.get found.key) found)) ∅

/-- Every entry is under its own key, and secret when its name is. -/
theorem composeVariableMap_entry {composeYaml : List Char}
    {entry : List Char × DeploymentVariable} (h : entry ∈ (composeVariableMap composeYaml).entries) :
    entry.2.key = entry.1 ∧ entry.2.secret = isSecretName entry.1 := by
  revert entry
  refine List.foldlRecOn (motive := fun vars : OrderedMap (List Char) DeploymentVariable =>
    ∀ {entry : List Char × DeploymentVariable}, entry ∈ vars.entries →
      entry.2.key = entry.1 ∧ entry.2.secret = isSecretName entry.1) _ _ ?_ ?_
  · intro entry hentry
    cases hentry
  · intro vars hvars found _ entry hentry
    rcases OrderedMap.mem_set.mp hentry with rfl | ⟨hold, -⟩
    · exact ⟨rfl, rfl⟩
    · exact hvars hold

theorem mem_keys_composeVariableMap {composeYaml key : List Char} :
    key ∈ (composeVariableMap composeYaml).keys
      ↔ key ∈ (composeVariables composeYaml).map (·.key) := by
  have hfold : ∀ (found : List BracedVariable) (vars : OrderedMap (List Char) DeploymentVariable),
      key ∈ (found.foldl (fun vars found =>
        vars.set found.key (composeVariable (vars.get found.key) found)) vars).keys
        ↔ key ∈ found.map (·.key) ∨ key ∈ vars.keys := by
    intro found
    induction found with
    | nil => simp
    | cons first found ih =>
      intro vars
      rw [List.foldl_cons, ih, OrderedMap.mem_keys_set, List.map_cons, List.mem_cons]
      tauto
  rw [composeVariableMap, hfold]
  exact or_iff_left (by simp [OrderedMap.keys])

section

variable {localeLe : List Char → List Char → Bool}

/-- The variables of the queue are the last ones of each key: Compose over saved. -/
theorem mem_secretKeys_queuedVariables {saved vars : List DeploymentVariable}
    {composeYaml : List Char} (h : queuedVariables localeLe saved composeYaml = .ok vars)
    (key : List Char) :
    key ∈ secretKeys vars ↔ mergeTakesAsSecret saved composeYaml key = true := by
  obtain ⟨fresh, hfresh, hvars⟩ : ∃ fresh : List DeploymentVariable,
      (∀ v, v ∈ fresh ↔ v ∈ (composeVariableMap composeYaml).entries.map Prod.snd)
        ∧ vars = ((saved ++ fresh).foldl (fun byKey v => byKey.set v.key v)
          (∅ : OrderedMap (List Char) DeploymentVariable)).entries.map Prod.snd := by
    cases h
    exact ⟨_, fun v => List.mem_insertionSort _, rfl⟩
  generalize hbyKey : (saved ++ fresh).foldl (fun byKey v => byKey.set v.key v)
    (∅ : OrderedMap (List Char) DeploymentVariable) = byKey at hvars
  -- an entry of the map is under its own key
  have hown : ∀ entry ∈ byKey.entries, entry.2.key = entry.1 := by
    rw [← hbyKey]
    refine List.foldlRecOn (motive := fun byKey : OrderedMap (List Char) DeploymentVariable =>
      ∀ entry ∈ byKey.entries, entry.2.key = entry.1) _ _ ?_ ?_
    · intro entry hentry
      cases hentry
    · intro byKey hown v _ entry hentry
      rcases OrderedMap.mem_set.mp hentry with rfl | ⟨hold, -⟩
      · rfl
      · exact hown entry hold
  have hsecret : key ∈ secretKeys vars ↔ (byKey.get key).any (·.secret) = true := by
    rw [hvars, secretKeys, Option.any_eq_true]
    simp only [List.mem_map, List.mem_filter]
    constructor
    · rintro ⟨v, ⟨⟨entry, hentry, rfl⟩, hv⟩, rfl⟩
      refine ⟨entry.2, OrderedMap.get_eq_some_iff.mpr ?_, hv⟩
      rw [hown entry hentry]
      exact hentry
    · rintro ⟨v, hget, hv⟩
      have hentry := OrderedMap.get_eq_some_iff.mp hget
      exact ⟨v, ⟨⟨(key, v), hentry, rfl⟩, hv⟩, hown _ hentry⟩
  have hget : byKey.get key
      = ((saved ++ fresh).reverse.find? fun v => v.key = key) := by
    have hlast := OrderedMap.get_foldl_set (fun v : DeploymentVariable => v.key) (fun v => v)
      (saved ++ fresh) ∅ key
    rw [← hbyKey, hlast]
    simp [OrderedMap.get]
  rw [hsecret, hget, List.reverse_append, List.find?_append, mergeTakesAsSecret]
  by_cases hmem : key ∈ (composeVariables composeYaml).map (·.key)
  · rw [if_pos (List.contains_iff_mem.mpr hmem)]
    rw [← mem_keys_composeVariableMap, OrderedMap.keys, List.mem_map] at hmem
    obtain ⟨entry, hentry, rfl⟩ := hmem
    cases hfind : fresh.reverse.find? fun v => v.key = entry.1 with
    | none =>
      rw [List.find?_eq_none] at hfind
      have hnot := hfind entry.2 (List.mem_reverse.mpr
        ((hfresh _).mpr (List.mem_map_of_mem hentry)))
      exact absurd (composeVariableMap_entry hentry).1 (by simpa using hnot)
    | some v =>
      have hv := List.mem_reverse.mp (List.mem_of_find?_eq_some hfind)
      obtain ⟨other, hother, rfl⟩ := List.mem_map.mp ((hfresh v).mp hv)
      have hkey : other.2.key = entry.1 := by simpa using List.find?_some hfind
      have hspec := composeVariableMap_entry hother
      rw [Option.some_or, Option.any_some, hspec.2, ← hspec.1, hkey]
  · rw [if_neg fun h => hmem (List.contains_iff_mem.mp h)]
    have hnone : (fresh.reverse.find? fun v => v.key = key) = none := by
      rw [List.find?_eq_none]
      intro v hv hkey
      rw [decide_eq_true_eq] at hkey
      obtain ⟨entry, hentry, rfl⟩ := List.mem_map.mp ((hfresh v).mp (List.mem_reverse.mp hv))
      apply hmem
      rw [← mem_keys_composeVariableMap, ← hkey, (composeVariableMap_entry hentry).1]
      exact List.mem_map_of_mem hentry
    rw [hnone, Option.none_or]

/-- Nothing is lost exactly when every redacted key with a value is a secret of the merge. -/
theorem keepsSecrets_iff {storedEnv : List Char} {stored : Environment}
    (hstored : parseDeploymentEnvironment storedEnv = .ok stored)
    {saved vars : List DeploymentVariable} {composeYaml : List Char}
    (hvars : queuedVariables localeLe saved composeYaml = .ok vars) :
    KeepsSecrets storedEnv saved stored vars ↔
      ∀ key ∈ redactedKeys saved stored, ∀ value, stored.get key = some value → value ≠ [] →
        mergeTakesAsSecret saved composeYaml key = true := by
  obtain ⟨hsanitized, hredacted⟩ := parse_sanitized hstored (redactedKeys saved stored)
  obtain ⟨hmerge, hparse⟩ := mergeRequestedEnv_ok hstored hredacted vars
  constructor
  · intro hkeeps key hkey value hvalue hne
    -- the redacted text has a blank under the key, which the merge must not take over
    obtain ⟨redacted, merged, hok, hok', hsame⟩ := hkeeps.unedited
    obtain rfl : _ = redacted := Except.ok.inj (hsanitized.symm.trans hok)
    obtain rfl : _ = merged := Except.ok.inj (hmerge.symm.trans hok')
    have hmap := Except.ok.inj (hparse.symm.trans hsame)
    have hget := get_merge (secretKeys vars) stored
      (blankKeys (redactedKeys saved stored) stored) key
    rw [hmap, get_blankKeys, hvalue, Option.map_some, if_pos hkey] at hget
    by_contra hnot
    rw [← mem_secretKeys_queuedVariables hvars] at hnot
    simp only [mergedValue, List.contains_iff_mem, hnot, false_and, if_false,
      Option.some.injEq] at hget
    exact hne hget
  · intro hsecret
    refine ⟨⟨_, _, hsanitized, hmerge, ?_⟩, ?_⟩
    · rw [hparse, merge_blankKeys]
      intro key value hvalue hne hkey
      exact (mem_secretKeys_queuedVariables hvars key).mpr (hsecret key hkey value hvalue hne)
    · intro requestedEnv requested hrequested key hkey value hvalue hrequest
      obtain ⟨hmerge, hparse⟩ := mergeRequestedEnv_ok hstored hrequested vars
      refine ⟨_, _, hmerge, hparse, ?_⟩
      rw [get_merge]
      rcases hrequest with hnone | hblank
      · rw [hnone]
        exact hvalue
      · rw [hblank, hvalue]
        by_cases hne : value = []
        · simp [mergedValue, hne]
        · have hmem := (mem_secretKeys_queuedVariables hvars key).mpr
            (hsecret key hkey value hvalue hne)
          simp [mergedValue, hmem, hne]

end

/-- **Sending the redacted environment back.**  For every stored text that parses, the queue has
    its variables, and with these nothing is lost exactly when every redacted key with a value
    is a key the merge takes as secret. -/
theorem queue_keeps_secrets_iff (localeLe : List Char → List Char → Bool) {storedEnv : List Char}
    {stored : Environment} (hstored : parseDeploymentEnvironment storedEnv = .ok stored)
    (saved : List DeploymentVariable) (composeYaml : List Char) :
    ∃ vars, queuedVariables localeLe saved composeYaml = .ok vars
      ∧ (KeepsSecrets storedEnv saved stored vars ↔
        ∀ key ∈ redactedKeys saved stored, ∀ value, stored.get key = some value → value ≠ [] →
          mergeTakesAsSecret saved composeYaml key = true) :=
  ⟨_, rfl, keepsSecrets_iff hstored rfl⟩

/-- An environment with one password. -/
def onePassword : Environment := ⟨[("DB_PASSWORD".toList, "hunter2".toList)], by decide⟩

/-- A stored password that neither the saved variables nor the Compose file know of. -/
theorem forgotten_password_is_lost :
    parseDeploymentEnvironment "DB_PASSWORD=hunter2".toList
        = .ok onePassword
      ∧ queuedVariables (fun _ _ => true) [] "services:".toList = .ok []
      ∧ ¬ KeepsSecrets "DB_PASSWORD=hunter2".toList []
          onePassword [] := by
  refine ⟨by decide +kernel, by decide +kernel, ?_⟩
  rintro ⟨⟨redacted, merged, hredacted, hmerged, hparse⟩, -⟩
  have hblank : sanitizeEnvForResponse "DB_PASSWORD=hunter2".toList
      (redactedKeys [] onePassword)
        = .ok "DB_PASSWORD=''".toList := by decide +kernel
  obtain rfl := Except.ok.inj (hblank.symm.trans hredacted)
  have hlost : mergeRequestedEnv "DB_PASSWORD=hunter2".toList "DB_PASSWORD=''".toList []
      = .ok "DB_PASSWORD=''".toList := by decide +kernel
  obtain rfl := Except.ok.inj (hlost.symm.trans hmerged)
  revert hparse
  decide +kernel

/-- The same password survives when the Compose file refers to it. -/
theorem referenced_password_is_kept :
    ∃ vars, queuedVariables (fun _ _ => true) [] "image: a:${DB_PASSWORD}".toList = .ok vars
      ∧ KeepsSecrets "DB_PASSWORD=hunter2".toList []
        onePassword vars := by
  obtain ⟨vars, hvars, hiff⟩ := queue_keeps_secrets_iff (fun _ _ => true)
    (by decide +kernel : parseDeploymentEnvironment "DB_PASSWORD=hunter2".toList
      = .ok onePassword)
    [] "image: a:${DB_PASSWORD}".toList
  refine ⟨vars, hvars, hiff.mpr fun key hkey value _ _ => ?_⟩
  have hkeys : redactedKeys [] onePassword = ["DB_PASSWORD".toList] := by decide +kernel
  rw [hkeys, List.mem_singleton] at hkey
  subst hkey
  decide +kernel

end ComposeBastion
