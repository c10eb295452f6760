import ComposeBastion.Recovery.BindMountDepth
import ComposeBastion.Recovery.ComposeIsolation

namespace ComposeBastion

open Js

/-!
# Services without hidden entries

The check of a clone is right about a service of which it sees what Compose sees.  Whether it sees
all of a captured document can be told from the document and the plan: no service inherits what the
check looks for, and no text of a path or a name is read without the blanks around it.

* `WrittenDocument`, `PlainPlan` — such documents and plans;
* `plainFolder_of_resolve` — host folders are replaced by plain ones;
* `plainVolume_remapServiceVolume` — so a volume that is read alike still is after remapping;
* `writtenService_remapService`, `writtenService_labels` — the rewriting of a service hides nothing.
-/

/-! ### Documents and plans -/

/-- The parts by which a service comes to storage or to networks, itself or through another. -/
def attachmentKeys : List String :=
  ["volumes", "networks", "network_mode", "volumes_from", "extends"]

/-- A service whose volumes are taken over is one of the document. -/
def FromService : Yaml → Prop
  | .scalar _ value => startsWith value.text "container:" = false
  | .reference _ => False
  | _ => True

instance : (node : Yaml) → Decidable (FromService node)
  | .scalar _ _ => inferInstanceAs (Decidable (_ = false))
  | .map .. => inferInstanceAs (Decidable True)
  | .seq .. => inferInstanceAs (Decidable True)
  | .reference _ => inferInstanceAs (Decidable False)

def FromServices : Yaml → Prop
  | .seq _ items => ∀ item ∈ items, FromService item
  | .reference _ => False
  | _ => True

instance : (node : Yaml) → Decidable (FromServices node)
  | .scalar .. => inferInstanceAs (Decidable True)
  | .map .. => inferInstanceAs (Decidable True)
  | .seq _ items => inferInstanceAs (Decidable (∀ item ∈ items, FromService item))
  | .reference _ => inferInstanceAs (Decidable False)

/-- The volumes of a service are read alike. -/
def PlainVolumes : Yaml → Prop
  | .seq _ items => ∀ item ∈ items, PlainVolume item
  | _ => True

instance : (node : Yaml) → Decidable (PlainVolumes node)
  | .scalar .. => inferInstanceAs (Decidable True)
  | .map .. => inferInstanceAs (Decidable True)
  | .seq _ items => inferInstanceAs (Decidable (∀ item ∈ items, PlainVolume item))
  | .reference _ => inferInstanceAs (Decidable True)

/-- The networks of a service are read alike; a mapping of them has entries, and no alias names
    it. -/
def PlainNetworks (named : List String) : Yaml → Prop
  | .seq _ items => ∀ item ∈ items, PlainName item
  | .map anchor items =>
    (∀ name ∈ named, anchor ≠ some name) ∧ items ≠ [] ∧ ∀ item ∈ items, PlainName item.1
  | _ => True

instance (named : List String) : (node : Yaml) → Decidable (PlainNetworks named node)
  | .scalar .. => inferInstanceAs (Decidable True)
  | .map _ items =>
    inferInstanceAs (Decidable ((∀ name ∈ named, _) ∧ items ≠ [] ∧ ∀ item ∈ items, _))
  | .seq _ items => inferInstanceAs (Decidable (∀ item ∈ items, PlainName item))
  | .reference _ => inferInstanceAs (Decidable True)

/-- What is written under a key of a service: nothing that is merged adds one of the
    `attachmentKeys`, and those that are there are read alike. -/
def ServicePart (named : List String) (key : String) (value : Yaml) : Prop :=
  if key = "<<" then value.addsNone attachmentKeys named = true
  else if key = "extends" then False
  else if key = "network_mode" then value.isAlias = false
  else if key = "volumes_from" then FromServices value
  else if key = "volumes" then PlainVolumes value
  else if key = "networks" then PlainNetworks named value
  else True

instance (named : List String) (key : String) (value : Yaml) :
    Decidable (ServicePart named key value) := by
  unfold ServicePart
  infer_instance

/-- A part of a secret or of a configuration: it is no file of the host. -/
def NoFilePart (key : String) (_ : Yaml) : Prop := key ≠ "<<" ∧ key ≠ "file"

instance (key : String) (value : Yaml) : Decidable (NoFilePart key value) :=
  inferInstanceAs (Decidable (_ ∧ _))

/-- One of the secrets or of the configurations. -/
def NoFileDefinition (key : String) (definition : Yaml) : Prop :=
  key ≠ "<<" ∧ definition.isAlias = false ∧ Written NoFilePart definition

instance (key : String) (definition : Yaml) : Decidable (NoFileDefinition key definition) :=
  inferInstanceAs (Decidable (_ ∧ _ ∧ _))

/-- What is written under the name of a service. -/
def ServiceEntry (named : List String) (name : String) (service : Yaml) : Prop :=
  name ≠ "<<" ∧ Written (ServicePart named) service

instance (named : List String) (name : String) (service : Yaml) :
    Decidable (ServiceEntry named name service) := inferInstanceAs (Decidable (_ ∧ _))

/-- What is written under a key of the document. -/
def DocumentPart (named : List String) (key : String) (value : Yaml) : Prop :=
  if key = "<<" then False
  else if key = "include" then False
  else if key = "services" then Written (ServiceEntry named) value
  else if key = "volumes" then TidySection attachmentKeys named value
  else if key = "networks" then TidySection attachmentKeys named value
  else if key = "secrets" then value.isAlias = false ∧ Written NoFileDefinition value
  else if key = "configs" then value.isAlias = false ∧ Written NoFileDefinition value
  else True

instance (named : List String) (key : String) (value : Yaml) :
    Decidable (DocumentPart named key value) := by
  unfold DocumentPart
  infer_instance

/-- **A document without hidden entries.**  The aliases that a service merges have names among
    `named`, and what has one of them as its anchor adds none of the `attachmentKeys`. -/
structure WrittenDocument (named : List String) (document : Yaml) : Prop where
  tidy : TidySection attachmentKeys named document
  parts : Written (DocumentPart named) document

/-- **A plan with plain texts.**  No blank ends a name in the host folders and in the paths that are
    looked up among them, and the networks have plain names. -/
structure PlainPlan (plan : ComposeClonePlan) : Prop where
  cwd : noBlankEnds plan.cwd.toList = true
  targets : ∀ target ∈ plan.bindMap.values, IsTarget target ∧ noBlankEnds target.toList = true
  sources : ∀ containers, plan.containers = some containers → ∀ container ∈ containers,
    ∀ mount ∈ container.bindMounts, noBlankEnds mount.1.toList = true
  networks : ∀ name ∈ plan.networkMap.values, trim name = name ∧ name ≠ "<<"

/-! ### Host folders -/

/-- A folder of the host, or what stands in its place: read without the blanks around it, and not
    relative to the document. -/
def PlainFolder (folder : String) : Prop :=
  PlainText folder ∧ startsWith folder "." = false

instance (folder : String) : Decidable (PlainFolder folder) := inferInstanceAs (Decidable (_ ∧ _))

theorem plainFolder_of_absolute {folder : String} (habsolute : folder.toList.head? = some '/')
    (h : noBlankEnds folder.toList = true) : PlainFolder folder := by
  refine ⟨⟨?_, h⟩, ?_⟩
  · rw [habsolute]
    rfl
  · rw [← Bool.not_eq_true]
    intro hdot
    obtain ⟨rest, hrest⟩ := List.isPrefixOf_iff_prefix.mp hdot
    rw [← hrest] at habsolute
    exact absurd (Option.some.inj habsolute) (by decide)

/-- The part of a plain folder before a colon is a plain source. -/
theorem PlainFolder.head {folder : String} (h : PlainFolder folder) :
    PlainSource (String.ofList (folder.toList.takeWhile (· ≠ ':'))) := by
  have hprefix := List.takeWhile_prefix (p := (· ≠ ':')) (l := folder.toList)
  refine ⟨⟨?_, ?_⟩, ?_⟩
  · rw [String.toList_ofList]
    have hhead := h.1.1
    cases hfront : folder.toList.takeWhile (· ≠ ':') with
    | nil => rfl
    | cons c front =>
      rw [hfront] at hprefix
      obtain ⟨back, hback⟩ := hprefix
      rw [← hback] at hhead
      exact hhead
  · rw [String.toList_ofList]
    exact noBlankEnds_takeWhile h.1.2
  · intro hdot
    simp only [startsWith, List.isPrefixOf_iff_prefix, String.toList_ofList] at hdot
    have habsurd := List.isPrefixOf_iff_prefix.mpr (hdot.trans hprefix)
    rw [← startsWith, h.2] at habsurd
    cases habsurd

theorem plainFolder_of_inherited {key value : String} (h : Record.inherited key = some value) :
    PlainFolder value := by
  have hfunctions : ∀ key ∈ ["__defineGetter__", "__defineSetter__", "__lookupGetter__",
      "__lookupSetter__", "hasOwnProperty", "isPrototypeOf", "propertyIsEnumerable",
      "toLocaleString", "toString", "valueOf"],
      PlainFolder ("function " ++ key ++ "() { [native code] }") := by decide +kernel
  unfold Record.inherited at h
  split at h
  · rw [← Option.some.inj h]
    decide +kernel
  · split at h
    · rw [← Option.some.inj h]
      decide +kernel
    · split at h
      next hmem =>
        rw [← Option.some.inj h]
        exact hfunctions key hmem
      · cases h

/-- The names of a mount have no blanks that the mount does not have. -/
theorem noBlankEnds_bindMountPathAliases {source : String}
    (h : noBlankEnds source.toList = true) :
    ∀ name ∈ bindMountPathAliases source, noBlankEnds name.toList = true := by
  have hdrop : ∀ (n : ℕ) (text : String), noBlankEnds text.toList = true →
      noBlankEnds (dropChars n text).toList = true := by
    intro n text htext
    rw [dropChars, String.toList_ofList]
    exact noBlankEnds_drop n htext
  have hnormalize : noBlankEnds (posixNormalize (forwardSlashes source)).toList = true := by
    rw [posixNormalize, String.toList_ofList]
    exact noBlankEnds_normalizeChars ((noBlankEnds_forwardSlashes source).trans h)
  have hnormalized : noBlankEnds (normalizeBindMountPath source).toList = true := by
    unfold normalizeBindMountPath
    simp only
    split
    · exact hnormalize
    · split
      · decide
      · exact noBlankEnds_stripTrailingSlashes hnormalize
  have hfirst : ∀ name ∈ (if startsWith (normalizeBindMountPath source) "/host_mnt/" then
      [normalizeBindMountPath source, dropChars 9 (normalizeBindMountPath source)]
      else [normalizeBindMountPath source]), noBlankEnds name.toList = true := by
    generalize normalizeBindMountPath source = normalized at hnormalized
    by_cases hmount : startsWith normalized "/host_mnt/" = true
    · rw [if_pos hmount, List.forall_mem_cons, List.forall_mem_singleton]
      exact ⟨hnormalized, hdrop 9 normalized hnormalized⟩
    · rw [if_neg hmount, List.forall_mem_singleton]
      exact hnormalized
  intro name hname
  unfold bindMountPathAliases at hname
  simp only [List.mem_eraseDups] at hname
  rcases List.mem_append.mp hname with hname | hname
  · exact hfirst name hname
  · obtain ⟨full, hfull, rfl⟩ := List.mem_map.mp hname
    exact hdrop 8 full (hfirst full (List.mem_filter.mp hfull).1)

/-- The folder that a path below a target is replaced by. -/
theorem plainFolder_extendedTarget {target : String} {rest : List (List Char)}
    (htarget : IsTarget target) (hends : noBlankEnds target.toList = true)
    (hrest : ∀ name ∈ rest, noBlankEnds name = true) :
    PlainFolder (extendedTarget target rest) := by
  unfold extendedTarget
  split
  · exact plainFolder_of_absolute htarget.head hends
  · refine plainFolder_of_absolute (by rw [String.toList_ofList]; rfl) ?_
    rw [String.toList_ofList, absoluteText]
    refine (noBlankEnds_slash [] _).trans ?_
    rw [show noBlankEnds [] = true from rfl, Bool.true_and, noBlankEnds_intercalate]
    intro name hname
    rcases List.mem_append.mp hname with hname | hname
    · exact noBlankEnds_iff.mp hends name hname
    · exact hrest name hname

theorem noBlankEnds_of_foundAbove {cwd artifactSource source : String} {rest : List (List Char)}
    (hcwd : noBlankEnds cwd.toList = true) (hsource : noBlankEnds source.toList = true)
    (h : FoundAbove cwd artifactSource source rest) : ∀ name ∈ rest, noBlankEnds name = true := by
  obtain ⟨hdown, artifactAlias, -, sourceAlias, hmem, hfound⟩ := h
  by_cases hempty : rest = []
  · simp [hempty]
  · rw [if_neg hempty] at hfound
    obtain ⟨rest', -, hdown', hsuffix, htext⟩ :=
      leadsDown_of_containedRelativePath hfound (relativeText_ne_empty hdown hempty)
    have hsame : rest = rest' := by
      rw [← segments_relativeText hdown, htext, segments_relativeText hdown']
    have halias : noBlankEnds (posixNormalize sourceAlias).toList = true := by
      rw [posixNormalize, String.toList_ofList]
      exact noBlankEnds_normalizeChars (noBlankEnds_bindMountPathAliases hsource _ hmem)
    intro name hname
    exact noBlankEnds_posixResolve hcwd halias name (hsuffix.subset (hsame ▸ hname))

/-- **Host folders** are replaced by plain ones. -/
theorem plainFolder_of_resolve {plan : ComposeClonePlan} {source folder : String}
    (hplain : PlainPlan plan) (hsource : noBlankEnds source.toList = true)
    (h : resolveRestoredBindMountPath plan.cwd source plan.bindMap = .ok (some folder)) :
    PlainFolder folder := by
  have hvalue : ∀ target ∈ plan.bindMap.values, PlainFolder target := fun target htarget =>
    plainFolder_of_absolute (hplain.targets target htarget).1.head (hplain.targets target htarget).2
  have hbest : ∀ {candidates : List BindMountMatch} {found : String},
      uniqueBestBindMountMatch candidates source = .ok (some found) →
        ∃ m ∈ candidates, m.replacement = found := by
    intro candidates found hfound
    rcases uniqueBestBindMountMatch_cases candidates source with
      ⟨-, hresult⟩ | ⟨m, hm, -, hresult⟩ | ⟨-, -, -, -, -, error, hresult⟩
    · rw [hresult] at hfound
      cases hfound
    · rw [hresult] at hfound
      exact ⟨m, hm.1, Option.some.inj (Except.ok.inj hfound)⟩
    · rw [hresult] at hfound
      cases hfound
  unfold resolveRestoredBindMountPath at h
  split at h
  · -- the very path, or a name that every object has
    have hlookup := Except.ok.inj h
    cases hget : plan.bindMap.get source with
    | some target =>
      rw [Record.lookup_of_get hget] at hlookup
      rw [← Option.some.inj hlookup]
      exact hvalue target (Record.mem_values_of_get hget)
    | none =>
      rw [Record.lookup_of_get_eq_none hget] at hlookup
      exact plainFolder_of_inherited hlookup
  · split at h
    · cases h
    next aliasMatch halias =>
      split at h
      · -- another name of a captured folder
        rw [Except.ok.inj h] at halias
        obtain ⟨m, hm, rfl⟩ := hbest halias
        exact hvalue _ (mem_values_of_aliasMatches hm)
      · -- a captured folder above: its target, and the names between the two
        obtain ⟨m, hm, rfl⟩ := hbest h
        obtain ⟨entry, hentry, rest, -, hfound, rfl⟩ :=
          (mem_parentMatches fun target htarget => (hplain.targets target htarget).1).mp hm
        have htarget := hplain.targets entry.2 (List.mem_map_of_mem hentry)
        exact plainFolder_extendedTarget htarget.1 htarget.2
          (noBlankEnds_of_foundAbove hplain.cwd hsource hfound)

/-- The folders by service and destination are plain ones. -/
def PlainMounts (mounts : ServiceBindMounts) : Prop :=
  ∀ entry ∈ mounts, ∀ mount ∈ entry.2, PlainFolder mount.2

theorem mem_setEntry {α : Type} {key : String} {value : α} {entries : List (String × α)}
    {entry : String × α} (h : entry ∈ setEntry key value entries) :
    entry = (key, value) ∨ entry ∈ entries := by
  induction entries with
  | nil => exact .inl (List.mem_singleton.mp h)
  | cons first rest ih =>
    rw [setEntry] at h
    split at h
    · exact (List.mem_cons.mp h).imp id (List.mem_cons_of_mem first)
    · rcases List.mem_cons.mp h with rfl | h
      · exact .inr List.mem_cons_self
      · exact (ih h).imp id (List.mem_cons_of_mem first)

theorem mem_of_lookup {α : Type} {key : String} {value : α} {entries : List (String × α)}
    (h : entries.lookup key = some value) : (key, value) ∈ entries := by
  obtain ⟨front, back, rfl, -⟩ := List.lookup_eq_some_iff.mp h
  simp

theorem PlainMounts.destinations {mounts : ServiceBindMounts} (h : PlainMounts mounts)
    (service : String) : ∀ mount ∈ (mounts.lookup service).getD [], PlainFolder mount.2 := by
  cases hlookup : mounts.lookup service with
  | none => simp
  | some destinations => exact h _ (mem_of_lookup hlookup)

theorem plainMounts_addServiceBindMount {plan : ComposeClonePlan} {container : ComposeContainer}
    {mounts mounts' : ServiceBindMounts} {bind : String × String} (hplain : PlainPlan plan)
    (hsource : noBlankEnds bind.1.toList = true) (h : PlainMounts mounts)
    (hadd : addServiceBindMount plan.cwd plan.bindMap container mounts bind = .ok mounts') :
    PlainMounts mounts' := by
  unfold addServiceBindMount at hadd
  simp only at hadd
  split at hadd
  · cases hadd
  split at hadd
  · cases hadd
  obtain ⟨resolved, hresolved, hadd⟩ := bind_eq_ok.mp hadd
  split at hadd
  · cases hadd
  next replacement =>
    split at hadd
    · cases hadd
    · rw [← Except.ok.inj hadd]
      have hfolder := plainFolder_of_resolve hplain hsource hresolved
      intro entry hentry mount hmount
      rcases mem_setEntry hentry with rfl | hentry
      · rcases mem_setEntry hmount with rfl | hmount
        · exact hfolder
        · exact h.destinations _ mount hmount
      · exact h entry hentry mount hmount

/-- The mounts of the containers are replaced by plain folders. -/
theorem plainMounts_build {plan : ComposeClonePlan} {containers : List ComposeContainer}
    {mounts : ServiceBindMounts} (hplain : PlainPlan plan)
    (hcontainers : plan.containers = some containers)
    (h : buildComposeServiceBindMounts plan.cwd containers plan.bindMap = .ok mounts) :
    PlainMounts mounts := by
  have hempty : PlainMounts [] := fun entry hentry => absurd hentry List.not_mem_nil
  refine foldlM_ok (fun mounts hmounts container hcontainer mounts' hfold => ?_) hempty h
  refine foldlM_ok (fun mounts hmounts bind hbind mounts' hadd => ?_) hmounts hfold
  exact plainMounts_addServiceBindMount hplain
    (hplain.sources containers hcontainers container hcontainer bind hbind) hmounts hadd

/-! ### The volumes of a service -/

theorem lookedUp_text (value : String) : (lookedUp value).text = value := by
  unfold lookedUp
  split <;> rfl

/-- A scalar stays one. -/
theorem keepsTidy_setScalarString {keys named : List String} (value : String) (node : Yaml) :
    KeepsTidy keys named node (setScalarString value node) := by
  cases node with
  | scalar anchor old => exact ⟨fun _ => rfl, fun _ => rfl⟩
  | map anchor items => exact .refl _
  | seq anchor items => exact .refl _
  | reference name => exact .refl _

theorem prefix_of_lastIndexOf {marker text : List Char} {index : ℕ}
    (h : lastIndexOf marker text = some index) : marker <+: text.drop index := by
  induction text generalizing index with
  | nil =>
    rw [lastIndexOf] at h
    split at h
    next hempty =>
      rw [hempty]
      exact List.nil_prefix
    · cases h
  | cons c rest ih =>
    rw [lastIndexOf] at h
    split at h
    next i hrest =>
      rw [← Option.some.inj h, List.drop_succ_cons]
      exact ih hrest
    · split at h
      next hstart =>
        rw [← Option.some.inj h, List.drop_zero]
        exact List.isPrefixOf_iff_prefix.mp hstart
      · cases h

theorem head_splitOn {text first : List Char} {rest : List (List Char)}
    (h : text.splitOn ':' = first :: rest) : first = text.takeWhile (· ≠ ':') := by
  induction text generalizing first rest with
  | nil =>
    rw [List.splitOn_nil] at h
    exact (List.cons.inj h).1.symm
  | cons c text ih =>
    rw [List.splitOn_cons_eq_if_modifyHead] at h
    by_cases hc : c = ':'
    · rw [if_pos (by simpa using hc)] at h
      rw [List.takeWhile_cons_of_neg (by simpa using hc)]
      exact (List.cons.inj h).1.symm
    · rw [if_neg (by simpa using hc)] at h
      obtain ⟨head, tail, hsplit⟩ := List.exists_cons_of_ne_nil (List.splitOn_ne_nil ':' text)
      rw [hsplit, List.modifyHead_cons] at h
      rw [List.takeWhile_cons_of_pos (by simpa using hc), ← ih hsplit]
      exact (List.cons.inj h).1.symm

/-- A volume whose source was replaced by a plain folder has a plain source. -/
theorem plainVolume_of_folder {anchor : Option String} {folder value : String} {tail : List Char}
    (h : PlainFolder folder) (hvalue : value.toList = folder.toList ++ ':' :: tail) :
    PlainVolume (.scalar anchor (.string value)) := by
  have hhead : value.toList.takeWhile (· ≠ ':') = folder.toList.takeWhile (· ≠ ':') := by
    rw [hvalue, List.takeWhile_append]
    split
    next heq => simpa using (List.takeWhile_prefix _).eq_of_length heq |>.symm
    · rfl
  simp only [PlainVolume, Scalar.text, hhead]
  exact h.head

theorem remapDestination_eq {value destination folder text : String}
    (h : remapDestination value destination folder = some text) :
    ∃ tail, text.toList = folder.toList ++ ':' :: tail := by
  have hmarker : (":" ++ destination).toList = ':' :: destination.toList := by simp
  unfold remapDestination at h
  simp only at h
  split at h
  · refine ⟨destination.toList, ?_⟩
    rw [← Option.some.inj h, String.toList_append, hmarker]
  · split at h
    next index hindex =>
      split at h
      · obtain ⟨back, hback⟩ := prefix_of_lastIndexOf hindex
        refine ⟨destination.toList ++ ':' :: back, ?_⟩
        rw [← Option.some.inj h, String.toList_append, String.toList_ofList, ← hback,
          String.toList_append, hmarker]
        simp
      · cases h
    · cases h

theorem plainVolumePart_setScalarString {folder : String} {value : Yaml} (h : PlainFolder folder)
    (hvalue : PlainVolumePart "source" value) :
    PlainVolumePart "source" (setScalarString folder value) := by
  refine ⟨hvalue.1, fun heq => absurd heq (by decide), fun _ => ?_⟩
  cases value with
  | scalar anchor old =>
    change PlainText (lookedUp folder).text
    rw [lookedUp_text]
    exact h.1
  | map anchor items => exact hvalue.2.2 rfl
  | seq anchor items => exact hvalue.2.2 rfl
  | reference name => exact hvalue.2.2 rfl

section Volumes

variable {plan : ComposeClonePlan} (hplain : PlainPlan plan)
  {destinations : List (String × String)}
  (hdestinations : ∀ mount ∈ destinations, PlainFolder mount.2)
include hplain

/-- **Volumes in the short form** keep a plain source. -/
theorem plainVolume_remapVolumeString {anchor : Option String} {raw value : String}
    (h : PlainVolume (.scalar anchor (.string raw)))
    (hremap : remapVolumeString plan.cwd raw plan.bindMap = .ok value) :
    PlainVolume (.scalar anchor (.string value)) := by
  unfold remapVolumeString at hremap
  split at hremap
  next source part parts hparts =>
    obtain ⟨replacement, hresolve, hvalue⟩ := bind_eq_ok.mp hremap
    rw [← Except.ok.inj hvalue]
    split
    next htruthy =>
      obtain ⟨folder, rfl, -⟩ := truthy_iff.mp htruthy
      have hsource : PlainSource source := by
        obtain ⟨first, rest, hsplit⟩ :=
          List.exists_cons_of_ne_nil (List.splitOn_ne_nil ':' raw.toList)
        rw [colonParts, hsplit, List.map_cons] at hparts
        rw [← (List.cons.inj hparts).1, head_splitOn hsplit]
        exact h
      have hfolder := plainFolder_of_resolve hplain hsource.1.2 hresolve
      have htext : (":".intercalate (folder :: part :: parts)).toList =
          folder.toList ++ ':' :: (":".intercalate (part :: parts)).toList := by
        rw [String.intercalate_cons_cons, String.toList_append, String.toList_append]
        simp
      exact plainVolume_of_folder hfolder htext
    · exact h
  · rw [← Except.ok.inj hremap]
    exact h

include hdestinations

/-- **Volumes in the long form**: a plain folder takes the place of the source, if anything does. -/
theorem remapLongVolume_cases {item item' : Yaml} {found : Option String}
    (h : Written PlainVolumePart item)
    (hremap : remapLongVolume plan.cwd plan.bindMap destinations item = .ok (item', found)) :
    item' = item ∨
      ∃ folder, PlainFolder folder ∧ item' = item.modify "source" (setScalarString folder) := by
  unfold remapLongVolume at hremap
  simp only at hremap
  obtain ⟨replacement, hreplacement, hresult⟩ := bind_eq_ok.mp hremap
  have hitem := congrArg Prod.fst (Except.ok.inj hresult)
  simp only at hitem
  rw [← hitem]
  split
  next htruthy =>
    right
    obtain ⟨folder, rfl, -⟩ := truthy_iff.mp htruthy
    refine ⟨folder, ?_, rfl⟩
    split at hreplacement
    · -- another type than `bind`: nothing is replaced
      cases Except.ok.inj hreplacement
    · split at hreplacement
      next destination hdestination =>
        obtain rfl := Option.some.inj (Except.ok.inj hreplacement)
        split at hdestination
        · obtain ⟨key, -, hlookup⟩ := Option.bind_eq_some_iff.mp hdestination
          exact hdestinations _ (mem_of_lookup hlookup)
        · cases hdestination
      · split at hreplacement
        next hsource =>
          obtain ⟨source, hscalar, -⟩ := truthy_iff.mp hsource
          rw [hscalar, Option.getD_some] at hreplacement
          have hplainSource : PlainText source := by
            unfold scalarString at hscalar
            split at hscalar
            next anchor value hget =>
              rw [← Option.some.inj hscalar]
              exact (h.part_of_get hget).2.2 rfl
            · cases hscalar
          exact plainFolder_of_resolve hplain hplainSource.2 hreplacement
        · cases Except.ok.inj hreplacement
  · exact .inl rfl

/-- **A volume** that was read alike is read alike afterwards. -/
theorem plainVolume_remapServiceVolume {item item' : Yaml} {found : Option String}
    (h : PlainVolume item)
    (hremap : remapServiceVolume plan.cwd plan.bindMap destinations item = .ok (item', found)) :
    PlainVolume item' ∧ ∀ keys named, KeepsTidy keys named item item' := by
  unfold remapServiceVolume at hremap
  split at hremap
  next anchor raw =>
    have hscalar : ∀ value, ∀ keys named,
        KeepsTidy keys named (.scalar anchor (.string raw)) (.scalar anchor (.string value)) :=
      fun value keys named => ⟨fun _ => rfl, fun _ => rfl⟩
    split at hremap
    · obtain ⟨rfl, -⟩ := Prod.mk.inj (Except.ok.inj hremap)
      exact ⟨h, fun keys named => .refl _⟩
    · split at hremap
      next value destination hfound =>
        -- the destination decides: the folder of the manifest's mount takes the place of the source
        obtain ⟨rfl, -⟩ := Prod.mk.inj (Except.ok.inj hremap)
        obtain ⟨mount, hmount, hmap⟩ := List.exists_of_findSome?_eq_some hfound
        obtain ⟨text, htext, heq⟩ := Option.map_eq_some_iff.mp hmap
        obtain ⟨rfl, -⟩ := Prod.mk.inj heq
        obtain ⟨tail, htail⟩ := remapDestination_eq htext
        have hfolder := hdestinations mount (List.mem_insertionSort _ |>.mp hmount)
        exact ⟨plainVolume_of_folder hfolder htail, hscalar text⟩
      · -- the source decides
        obtain ⟨value, hvalue, hresult⟩ := bind_eq_ok.mp hremap
        obtain ⟨rfl, -⟩ := Prod.mk.inj (Except.ok.inj hresult)
        exact ⟨plainVolume_remapVolumeString hplain h hvalue, hscalar value⟩
  next anchor items _ =>
    rcases remapLongVolume_cases hplain hdestinations h hremap with rfl | ⟨folder, hfolder, rfl⟩
    · exact ⟨h, fun keys named => .refl _⟩
    · exact ⟨Written.modify h fun item hitem hisKey =>
          plainVolumePart_setScalarString hfolder (Written.part_of_isKey h hitem hisKey),
        fun keys named => .modify (keepsTidy_setScalarString folder) _⟩
  · obtain ⟨rfl, -⟩ := Prod.mk.inj (Except.ok.inj hremap)
    exact ⟨h, fun keys named => .refl _⟩

end Volumes

/-! ### A service -/

/-- What a plan maps, with the mounts of its containers. -/
def ComposeClonePlan.mappings (plan : ComposeClonePlan) (mounts : ServiceBindMounts) :
    ComposeMappings :=
  ⟨plan.volumeMap, plan.bindMap, mounts, plan.portRemap, plan.networkMap, plan.cloneNetworks⟩

/-- A service without hidden entries, in a tidy document. -/
structure WrittenService (named : List String) (service : Yaml) : Prop where
  tidy : service.tidy attachmentKeys named = true
  parts : Written (ServicePart named) service

section Services

variable {named : List String} {service : Yaml}

theorem WrittenService.modify (h : WrittenService named service) {key : String} {f : Yaml → Yaml}
    (hkey : key ≠ "<<")
    (hf : ∀ value, value.tidy attachmentKeys named = true → ServicePart named key value →
      (f value).tidy attachmentKeys named = true ∧ ServicePart named key (f value)) :
    WrittenService named (service.modify key f) := by
  have hvalue : ∀ item ∈ service.entries, item.1.isKey key = true →
      (f item.2).tidy attachmentKeys named = true ∧ ServicePart named key (f item.2) :=
    fun item hitem hisKey => hf item.2 (tidyEntry_of_tidy h.tidy item hitem).2
      (h.parts.part_of_isKey hitem hisKey)
  exact ⟨tidy_modify h.tidy hkey fun item hitem hisKey => (hvalue item hitem hisKey).1,
    h.parts.modify fun item hitem hisKey => (hvalue item hitem hisKey).2⟩

theorem forall₂_of_remapItems {ε : Type} {f : Yaml → Except ε (Yaml × Option String)}
    {items : List Yaml} {r : List Yaml × List String} (h : remapItems f items = .ok r) :
    List.Forall₂ (fun item item' => ∃ found, f item = .ok (item', found)) items r.1 := by
  induction items generalizing r with
  | nil =>
    rw [← Except.ok.inj h]
    exact .nil
  | cons item rest ih =>
    obtain ⟨first, hfirst, h⟩ := bind_eq_ok.mp h
    obtain ⟨others, hothers, h⟩ := bind_eq_ok.mp h
    rw [← Except.ok.inj h]
    exact .cons ⟨first.2, hfirst⟩ (ih hothers)

/-- The volumes of a service are read alike afterwards. -/
theorem plainVolumes_remapServiceVolumes {plan : ComposeClonePlan} {mounts : ServiceBindMounts}
    (hplain : PlainPlan plan) (hmounts : PlainMounts mounts) {name : String} {node : Yaml}
    {r : Yaml × List String} (h : PlainVolumes node)
    (hremap : remapServiceVolumes plan.cwd (plan.mappings mounts) name node = .ok r) :
    PlainVolumes r.1 ∧ KeepsTidy attachmentKeys named node r.1 := by
  unfold remapServiceVolumes at hremap
  split at hremap
  next anchor items =>
    obtain ⟨remapped, hremapped, hresult⟩ := bind_eq_ok.mp hremap
    rw [← Except.ok.inj hresult]
    have hitems := forall₂_of_remapItems hremapped
    have hkept : ∀ item' ∈ remapped.1, ∃ item ∈ items, PlainVolume item' ∧
        KeepsTidy attachmentKeys named item item' := by
      intro item' hitem'
      obtain ⟨item, hitem, found, hfound⟩ := exists_left hitems hitem'
      obtain ⟨hvolume, hkeeps⟩ := plainVolume_remapServiceVolume hplain (hmounts.destinations name)
        (h item hitem) hfound
      exact ⟨item, hitem, hvolume, hkeeps _ _⟩
    constructor
    · intro item' hitem'
      obtain ⟨-, -, hvolume, -⟩ := hkept item' hitem'
      exact hvolume
    · refine .seq fun item' hitem' => ?_
      obtain ⟨item, hitem, -, hkeeps⟩ := hkept item' hitem'
      exact ⟨item, hitem, hkeeps⟩
  · rw [← Except.ok.inj hremap]
    exact ⟨h, .refl _⟩

theorem keepsTidy_remapServicePort {keys : List String} (portRemap : Record) (item : Yaml) :
    KeepsTidy keys named item (remapServicePort portRemap item) := by
  unfold remapServicePort
  split
  · split
    · exact .refl _
    · exact ⟨fun _ => rfl, fun _ => rfl⟩
  · refine .modify (fun published => ?_) _
    split
    · split
      · exact ⟨fun _ => rfl, fun _ => rfl⟩
      · exact .refl _
    · exact .refl _
  · exact .refl _

/-- A network of the plan has a plain name, and so has what every object has. -/
theorem plainName_lookedUp {plan : ComposeClonePlan} (hplain : PlainPlan plan)
    {anchor : Option String} {name : String} (h : truthy (plan.networkMap.lookup name) = true) :
    PlainName (.scalar anchor (lookedUp ((plan.networkMap.lookup name).getD ""))) := by
  obtain ⟨target, htarget, -⟩ := truthy_iff.mp h
  rw [htarget, Option.getD_some]
  simp only [PlainName, lookedUp_text]
  cases hget : plan.networkMap.get name with
  | some value =>
    rw [Record.lookup_of_get hget] at htarget
    rw [← Option.some.inj htarget]
    exact hplain.networks value (Record.mem_values_of_get hget)
  | none =>
    -- the name of a property of every object
    rw [Record.lookup_of_get_eq_none hget] at htarget
    refine ⟨(plainFolder_of_inherited htarget).1.trim_eq, ?_⟩
    rintro rfl
    rcases Record.head?_of_inherited htarget with hhead | hhead <;>
      exact absurd hhead (by decide)

theorem plainName_remapServiceNetwork {plan : ComposeClonePlan} (hplain : PlainPlan plan)
    {item : Yaml} (h : PlainName item) : PlainName (remapServiceNetwork plan.networkMap item) := by
  unfold remapServiceNetwork
  split
  · split
    next hfound =>
      rw [Bool.and_eq_true] at hfound
      exact plainName_lookedUp hplain hfound.2
    · exact h
  · exact h

theorem keepsTidy_remapServiceNetwork {keys : List String} (networks : Record) (item : Yaml) :
    KeepsTidy keys named item (remapServiceNetwork networks item) := by
  unfold remapServiceNetwork
  split
  · split
    · exact ⟨fun _ => rfl, fun _ => rfl⟩
    · exact .refl _
  · exact .refl _

theorem plainName_remapServiceNetworkEntry {plan : ComposeClonePlan} (hplain : PlainPlan plan)
    {item : Yaml × Yaml} (h : PlainName item.1) :
    PlainName (remapServiceNetworkEntry plan.networkMap plan.cloneNetworks item).1 := by
  unfold remapServiceNetworkEntry
  split
  · simp only
    split
    next hfound => exact plainName_lookedUp hplain hfound
    · exact h
  · exact h

theorem tidyEntry_remapServiceNetworkEntry {plan : ComposeClonePlan} {item : Yaml × Yaml}
    (h : TidyEntry attachmentKeys named item) : TidyEntry attachmentKeys named
      (remapServiceNetworkEntry plan.networkMap plan.cloneNetworks item) := by
  unfold remapServiceNetworkEntry
  split
  · refine ⟨?_, ?_⟩
    · simp only
      split
      · rfl
      · exact h.1
    · simp only
      split
      · exact (((KeepsTidy.delete _ _).trans (.delete _ _)).trans (.delete _ _)).tidy h.2
      · exact h.2
  · exact h

theorem plainNetworks_remapSeq {plan : ComposeClonePlan} (hplain : PlainPlan plan)
    {anchor : Option String} {items : List Yaml}
    (htidy : (Yaml.seq anchor items).tidy attachmentKeys named = true)
    (h : PlainNetworks named (.seq anchor items)) :
    (Yaml.seq anchor (items.map (remapServiceNetwork plan.networkMap))).tidy attachmentKeys named =
        true ∧
      PlainNetworks named (.seq anchor (items.map (remapServiceNetwork plan.networkMap))) := by
  constructor
  · refine (KeepsTidy.seq fun item' hitem' => ?_).tidy htidy
    obtain ⟨item, hitem, rfl⟩ := List.mem_map.mp hitem'
    exact ⟨item, hitem, keepsTidy_remapServiceNetwork plan.networkMap item⟩
  · intro item' hitem'
    obtain ⟨item, hitem, rfl⟩ := List.mem_map.mp hitem'
    exact plainName_remapServiceNetwork hplain (h item hitem)

theorem plainNetworks_remapMap {plan : ComposeClonePlan} (hplain : PlainPlan plan)
    {anchor : Option String} {items : List (Yaml × Yaml)}
    (htidy : (Yaml.map anchor items).tidy attachmentKeys named = true)
    (h : PlainNetworks named (.map anchor items)) :
    (Yaml.map anchor (items.map (remapServiceNetworkEntry plan.networkMap plan.cloneNetworks))).tidy
        attachmentKeys named = true ∧
      PlainNetworks named (.map anchor
        (items.map (remapServiceNetworkEntry plan.networkMap plan.cloneNetworks))) := by
  obtain ⟨hunnamed, hne, hnames⟩ := h
  constructor
  · refine tidy_map_iff.mpr ⟨?_, fun item' hitem' => ?_⟩
    · rintro ⟨name, hname, heq⟩
      exact absurd heq (hunnamed name hname)
    · obtain ⟨item, hitem, rfl⟩ := List.mem_map.mp hitem'
      exact tidyEntry_remapServiceNetworkEntry ((tidy_map_iff.mp htidy).2 item hitem)
  · refine ⟨hunnamed, by simpa using hne, fun item' hitem' => ?_⟩
    obtain ⟨item, hitem, rfl⟩ := List.mem_map.mp hitem'
    exact plainName_remapServiceNetworkEntry hplain (hnames item hitem)

/-- **The ports and the networks of a service.** -/
theorem writtenService_remapServiceAttachments {plan : ComposeClonePlan} (hplain : PlainPlan plan)
    {mounts : ServiceBindMounts} (h : WrittenService named service) :
    WrittenService named (remapServiceAttachments (plan.mappings mounts) service) := by
  have hports : WrittenService named (service.modify "ports" fun ports => match ports with
      | .seq anchor items => .seq anchor (items.map (remapServicePort plan.portRemap))
      | _ => ports) := by
    refine h.modify (by decide) fun ports htidy _ => ⟨?_, trivial⟩
    split
    · refine (KeepsTidy.seq fun item' hitem' => ?_).tidy htidy
      obtain ⟨item, hitem, rfl⟩ := List.mem_map.mp hitem'
      exact ⟨item, hitem, keepsTidy_remapServicePort plan.portRemap item⟩
    · exact htidy
  refine hports.modify (by decide) fun networks htidy hpart => ?_
  split
  · exact plainNetworks_remapSeq hplain htidy hpart
  · exact plainNetworks_remapMap hplain htidy hpart
  · exact ⟨htidy, hpart⟩

/-- **A service** keeps its name, and has no hidden entries afterwards. -/
theorem writtenService_remapService {plan : ComposeClonePlan} {mounts : ServiceBindMounts}
    (hplain : PlainPlan plan) (hmounts : PlainMounts mounts) {item : Yaml × Yaml}
    {r : (Yaml × Yaml) × List (String × String)} (h : WrittenService named item.2)
    (hremap : remapService plan.cwd (plan.mappings mounts) item = .ok r) :
    r.1.1 = item.1 ∧ WrittenService named r.1.2 := by
  unfold remapService at hremap
  split at hremap
  · obtain ⟨volumes, hvolumes, hresult⟩ := bind_eq_ok.mp hremap
    rw [← Except.ok.inj hresult]
    refine ⟨rfl, writtenService_remapServiceAttachments hplain ?_⟩
    split at hvolumes
    next node hget =>
      cases hremapped : remapServiceVolumes plan.cwd (plan.mappings mounts) (Yaml.keyText item.1)
          node with
      | error message =>
        rw [hremapped] at hvolumes
        cases hvolumes
      | ok remapped =>
        rw [hremapped] at hvolumes
        rw [← Except.ok.inj hvolumes]
        obtain ⟨hpart, hkeeps⟩ := plainVolumes_remapServiceVolumes hplain hmounts
          (h.parts.part_of_get hget) hremapped
        exact h.modify (by decide) fun _ _ _ => ⟨hkeeps.tidy (tidy_of_get h.tidy hget), hpart⟩
    · rw [← Except.ok.inj hvolumes]
      exact h
  · rw [← Except.ok.inj hremap]
    exact ⟨rfl, h⟩

/-- The services of a document may change to others without hidden entries. -/
theorem writtenServices_of_items {anchor : Option String} {items items' : List (Yaml × Yaml)}
    (htidy : (Yaml.map anchor items).tidy attachmentKeys named = true)
    (h : Written (ServiceEntry named) (.map anchor items))
    (hitems : (∀ item ∈ items, WrittenService named item.2) → ∀ item' ∈ items', ∃ item ∈ items,
      item'.1 = item.1 ∧ WrittenService named item'.2) :
    (Yaml.map anchor items').tidy attachmentKeys named = true ∧
      Written (ServiceEntry named) (.map anchor items') := by
  have hservice := hitems fun item hitem =>
    ⟨(tidyEntry_of_tidy htidy item hitem).2, (h item hitem).2.2⟩
  constructor
  · refine tidy_map_iff.mpr ⟨fun hnamed item' hitem' => ?_, fun item' hitem' => ?_⟩
    · -- the names of the services stay, and none is `<<`
      obtain ⟨item, hitem, hname, -⟩ := hservice item' hitem'
      have hentry := (tidy_map_iff.mp htidy).1 hnamed item hitem
      refine ⟨hname ▸ hentry.literal, hname ▸ hentry.other, fun hmerge => ?_⟩
      rw [hname] at hmerge
      exact absurd rfl (h.part_of_isKey hitem hmerge).1
    · obtain ⟨item, hitem, hname, hwritten⟩ := hservice item' hitem'
      exact ⟨hname ▸ (tidyEntry_of_tidy htidy item hitem).1, hwritten.tidy⟩
  · intro item' hitem'
    obtain ⟨item, hitem, hname, hwritten⟩ := hservice item' hitem'
    rw [hname]
    exact ⟨(h item hitem).1, (h item hitem).2.1, hwritten.parts⟩

theorem writtenServices_remapServices {plan : ComposeClonePlan} {mounts : ServiceBindMounts}
    (hplain : PlainPlan plan) (hmounts : PlainMounts mounts) {items : List (Yaml × Yaml)}
    {r : List (Yaml × Yaml) × List (String × String)}
    (hremap : remapServices plan.cwd (plan.mappings mounts) items = .ok r)
    (h : ∀ item ∈ items, WrittenService named item.2) :
    ∀ item' ∈ r.1, ∃ item ∈ items, item'.1 = item.1 ∧ WrittenService named item'.2 := by
  induction items generalizing r with
  | nil =>
    rw [← Except.ok.inj hremap]
    simp
  | cons item rest ih =>
    obtain ⟨first, hfirst, hremap⟩ := bind_eq_ok.mp hremap
    obtain ⟨others, hothers, hremap⟩ := bind_eq_ok.mp hremap
    obtain ⟨hitem, hrest⟩ := List.forall_mem_cons.mp h
    rw [← Except.ok.inj hremap]
    intro item' hitem'
    rcases List.mem_cons.mp hitem' with rfl | hitem'
    · exact ⟨item, List.mem_cons_self, writtenService_remapService hplain hmounts hitem hfirst⟩
    · obtain ⟨old, hold, hkept⟩ := ih hothers hrest item' hitem'
      exact ⟨old, List.mem_cons_of_mem _ hold, hkept⟩

theorem tidy_textObject (entries : List (String × String)) :
    (textObject entries).tidy attachmentKeys named = true := by
  refine tidy_object fun item hitem => ?_
  obtain ⟨entry, -, rfl⟩ := List.mem_map.mp hitem
  rfl

theorem keepsTidy_labels (ownership : RestoreOwnership) (node : Yaml) :
    KeepsTidy attachmentKeys named node (setComposeRestoreOwnershipLabels ownership node) := by
  have hset : ∀ entries, KeepsTidy attachmentKeys named node
      (node.set "labels" (textObject entries)) := fun entries =>
    .set (by decide) (tidy_textObject entries) (fun heq => absurd heq (by decide)) node
  unfold setComposeRestoreOwnershipLabels
  split
  · refine .modify (fun labels => .foldl (fun entry hentry value => .setScalar ?_ value) labels)
      node
    rcases List.mem_pair.mp hentry with rfl | rfl <;> simp only <;> decide
  · exact hset _
  · exact hset _

/-- **The labels** of an attempt are no parts that the check looks for. -/
theorem writtenService_labels (h : WrittenService named service) (ownership : RestoreOwnership) :
    WrittenService named (setComposeRestoreOwnershipLabels ownership service) := by
  refine ⟨(keepsTidy_labels ownership service).tidy h.tidy, ?_⟩
  have hset : ∀ entries, Written (ServicePart named) (service.set "labels" (textObject entries)) :=
    fun entries => h.parts.set trivial
  unfold setComposeRestoreOwnershipLabels
  split
  · exact h.parts.modify fun _ _ _ => trivial
  · exact hset _
  · exact hset _

end Services

end ComposeBastion
