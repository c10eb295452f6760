import ComposeBastion.Js.Paths
import ComposeBastion.Js.YamlMerge
import ComposeBastion.Recovery.ComposeClone

namespace ComposeBastion

open Js

/-!
# Isolation of Compose clones

Compose reads a document with its aliases resolved and the entries under `<<` merged in; the check
of `assertComposeCloneResourcesOwned` looks at the literal entries of each service.

* `serviceMounts`, `logicalNetwork` — the storage and the networks of a service, as Compose reads
  them;
* `ComposeIsolated` — all of it belongs to the plan;
* `SeenService` — a service of which the check sees what Compose sees;
* `seen_isolated` — the check is right about those.
-/

/-! ### What Compose reads -/

/-- Where Compose runs: the name and the directory of the project, and the home directory; what it
    makes of a document with the files that are included, and of a service with the one it
    extends. -/
structure ComposeContext where
  project : String
  directory : String
  home : String
  including : Tree → Tree
  extending : Tree → Tree → Tree
  including_none : ∀ root, root.get "include" = none → including root = root
  extending_none : ∀ root service, service.get "extends" = none → extending root service = service

/-- Storage that a service uses. -/
inductive ComposeMount where
  | volume (name : String)
  | bind (path : String)
  | anonymous
  | container (name : String)
  | other (type : String)
  deriving DecidableEq, Repr

/-- A host path as Compose resolves it. -/
def hostPath (context : ComposeContext) (source : String) : String :=
  if isAbsolute source then posixNormalize source
  else if startsWith source "~" then posixNormalize (context.home ++ dropChars 1 source)
  else posixNormalize (context.directory ++ "/" ++ source)

/-- The definition says that the resource exists already. -/
def externalDefinition (definition : Tree) : Bool :=
  match definition.get "external" with
  | some (.scalar value) => value = .bool true || value.text.toList.map Char.toLower = "true".toList
  | _ => false

/-- The name that a volume or a network has in the engine: nothing, if it is not defined. -/
def engineName (context : ComposeContext) (definitions : Option Tree) (key : String) :
    Option String :=
  match definitions.bind (·.get key) with
  | none => none
  | some definition =>
    match ((definition.get "name").bind Tree.text).filter (trim · ≠ "") with
    | some name => some (trim name)
    | none => some (if externalDefinition definition then key else context.project ++ "_" ++ key)

/-- A source that Compose takes for a path. -/
def isFilePath (source : String) : Bool :=
  startsWith source "." || startsWith source "/" || startsWith source "~"

/-- A volume by its key; one that is not defined makes Compose refuse the document. -/
def volumeMountsOf (context : ComposeContext) (topVolumes : Option Tree) (key : String) :
    List ComposeMount :=
  ((engineName context topVolumes key).map .volume).toList

/-- A volume of a service in the short form `source:target:mode`. -/
def shortMounts (context : ComposeContext) (topVolumes : Option Tree) (value : String) :
    List ComposeMount :=
  if !value.toList.contains ':' then [.anonymous]
  else
    let source := String.ofList (value.toList.takeWhile (· ≠ ':'))
    if isFilePath source then [.bind (hostPath context source)]
    else volumeMountsOf context topVolumes source

/-- A volume of a service in the long form. -/
def longMounts (context : ComposeContext) (topVolumes : Option Tree) (item : Tree) :
    List ComposeMount :=
  let type := String.ofList ((trim (((item.get "type").bind Tree.text).getD "volume")).toList.map
    Char.toLower)
  let source := ((item.get "source").bind Tree.text).filter (· ≠ "")
  if type = "tmpfs" then []
  else if type = "bind" then (source.map fun source => .bind (hostPath context source)).toList
  else if type = "volume" || type = "" then
    match source with
    | some source => volumeMountsOf context topVolumes source
    | none => [.anonymous]
  else [.other type]

/-- A volume of a service. -/
def itemMounts (context : ComposeContext) (topVolumes : Option Tree) : Tree → List ComposeMount
  | .scalar value => shortMounts context topVolumes value.text
  | .map items => longMounts context topVolumes (.map items)
  | .seq _ => []

/-- `volumes_from` a container that is not part of the document. -/
def volumesFrom (value : Tree) : List ComposeMount :=
  match value.text with
  | some text => if startsWith text "container:" then [.container (dropChars 10 text)] else []
  | none => []

/-- A file of the host that a secret or a configuration of the service is mounted from. -/
def fileMounts (context : ComposeContext) (definitions : Option Tree) (item : Tree) :
    List ComposeMount :=
  let key := match item with
    | .scalar value => some value.text
    | _ => (item.get "source").bind Tree.text
  let file := (key.bind fun key => definitions.bind (·.get key)).bind fun definition =>
    (definition.get "file").bind Tree.text
  (file.map fun file => .bind (hostPath context file)).toList

/-- The storage of a service. -/
def serviceMounts (context : ComposeContext) (root service : Tree) : List ComposeMount :=
  (Tree.items (service.get "volumes")).flatMap (itemMounts context (root.get "volumes")) ++
    (Tree.items (service.get "volumes_from")).flatMap volumesFrom ++
    (Tree.items (service.get "secrets")).flatMap (fileMounts context (root.get "secrets")) ++
    (Tree.items (service.get "configs")).flatMap (fileMounts context (root.get "configs"))

/-- The logical names of the networks of a service without a network mode. -/
def logicalNetwork (networks : Option Tree) (name : String) : Prop :=
  match networks with
  | some (.seq (first :: rest)) => ∃ item ∈ first :: rest, item.text = some name
  | some (.map (first :: rest)) => name ≠ "<<" ∧ ((Js.Tree.map (first :: rest)).get name).isSome
  | _ => name = "default"

/-! ### Isolation -/

/-- The mount belongs to the plan. -/
def MountOwned (plan : ComposeClonePlan) : ComposeMount → Prop
  | .volume name => name ∈ plan.volumeMap.values
  | .bind path => ∃ folder ∈ plan.bindMap.values, isPathInside (posixNormalize folder) path = true
  | _ => False

/-- The networks of the service belong to the plan, or its network mode is a built-in one or that of
    another service. -/
def NetworksOwned (context : ComposeContext) (plan : ComposeClonePlan) (root service : Tree) : Prop :=
  match (((service.get "network_mode").bind Tree.text).map trim).filter (· ≠ "") with
  | some mode => mode ∈ builtinNetworks ∨ startsWith mode "service:" = true ∨
      mode ∈ plan.networkMap.values
  | none => ∀ name, logicalNetwork (service.get "networks") name →
      ∀ engine, engineName context (root.get "networks") name = some engine →
        engine ∈ plan.networkMap.values

/-- The service touches nothing but what the plan has made for it. -/
def ServiceIsolated (context : ComposeContext) (plan : ComposeClonePlan) (root service : Tree) :
    Prop :=
  (∀ mount ∈ serviceMounts context root service, MountOwned plan mount) ∧
    NetworksOwned context plan root service

/-- Every service does, with all that it extends and that the document includes. -/
def ComposeIsolated (context : ComposeContext) (plan : ComposeClonePlan) (root : Tree) : Prop :=
  ∀ services, (context.including root).get "services" = some services → ∀ name service,
    services.get name = some service →
      ServiceIsolated context plan (context.including root)
        (context.extending (context.including root) service)

/-! ### What the check sees -/

/-- An entry that is not literally there is not inherited either. -/
def NotInherited (node : Yaml) (tree : Tree) (key : String) : Prop :=
  node.get key = none → tree.get key = none

/-- The entry is not an alias. -/
def NotAlias (node : Yaml) (key : String) : Prop :=
  ∀ value, node.get key = some value → value.isAlias = false

/-- No blank is in front of the text, or at the end of a name in it. -/
def PlainText (text : String) : Prop :=
  text.toList.head?.all (!isWhiteSpace ·) = true ∧ noBlankEnds text.toList = true

instance (text : String) : Decidable (PlainText text) := inferInstanceAs (Decidable (_ ∧ _))

theorem PlainText.trim_eq {text : String} (h : PlainText text) : trim text = text := by
  have hhead : ∀ c ∈ text.toList.head?, isWhiteSpace c = false := by
    intro c hc
    have hfirst := h.1
    rw [hc] at hfirst
    simpa using hfirst
  rw [trim, trimChars_of_noBlankEnds h.2 hhead, String.ofList_toList]

/-- The check reads the source of a mount as Compose does: without blanks around it, and as a path
    if Compose does. -/
def PlainSource (source : String) : Prop :=
  PlainText source ∧
    (startsWith source "." = true → startsWith source "./" = true ∨ startsWith source "../" = true)

instance (source : String) : Decidable (PlainSource source) :=
  inferInstanceAs (Decidable (_ ∧ (_ → _)))

/-- A scalar that is read without the blanks around it. -/
def PlainScalar : Yaml → Prop
  | .scalar _ value => PlainText value.text
  | .reference _ => False
  | _ => True

instance : (node : Yaml) → Decidable (PlainScalar node)
  | .scalar _ value => inferInstanceAs (Decidable (PlainText value.text))
  | .reference _ => inferInstanceAs (Decidable False)
  | .map .. => inferInstanceAs (Decidable True)
  | .seq .. => inferInstanceAs (Decidable True)

/-- What the check reads of a volume in the long form. -/
def PlainVolumePart (key : String) (value : Yaml) : Prop :=
  key ≠ "<<" ∧ (key = "type" → value.isAlias = false) ∧ (key = "source" → PlainScalar value)

instance (key : String) (value : Yaml) : Decidable (PlainVolumePart key value) :=
  inferInstanceAs (Decidable (_ ∧ (_ → _) ∧ (_ → _)))

/-- The check reads a volume of a service as Compose does. -/
def PlainVolume : Yaml → Prop
  | .scalar _ value => PlainSource (String.ofList (value.text.toList.takeWhile (· ≠ ':')))
  | .map anchor items => Written PlainVolumePart (.map anchor items)
  | _ => True

instance : (node : Yaml) → Decidable (PlainVolume node)
  | .scalar _ value =>
    inferInstanceAs (Decidable (PlainSource (String.ofList (value.text.toList.takeWhile (· ≠ ':')))))
  | .map anchor items => inferInstanceAs (Decidable (Written PlainVolumePart (.map anchor items)))
  | .seq .. => inferInstanceAs (Decidable True)
  | .reference _ => inferInstanceAs (Decidable True)

/-- The check reads the name of a network as Compose does. -/
def PlainName : Yaml → Prop
  | .scalar _ value => trim value.text = value.text ∧ value.text ≠ "<<"
  | _ => True

instance : (node : Yaml) → Decidable (PlainName node)
  | .scalar _ _ => inferInstanceAs (Decidable (_ ∧ _))
  | .map .. => inferInstanceAs (Decidable True)
  | .seq .. => inferInstanceAs (Decidable True)
  | .reference _ => inferInstanceAs (Decidable True)

/-- Of this service the check sees what Compose sees: it inherits neither volumes nor networks, and
    has no storage that the check does not look at. -/
structure SeenService (node : Yaml) (tree : Tree) : Prop where
  resolves : Resolves node tree
  volumes : NotInherited node tree "volumes"
  networks : NotInherited node tree "networks"
  networkMode : NotInherited node tree "network_mode"
  networkModeAlias : NotAlias node "network_mode"
  volumesFrom : (Tree.items (tree.get "volumes_from")).flatMap volumesFrom = []
  plainVolumes : ∀ anchor items, node.get "volumes" = some (.seq anchor items) →
    ∀ item ∈ items, PlainVolume item
  someNetwork : ∀ anchor, node.get "networks" ≠ some (.map anchor [])
  plainSeq : ∀ anchor items, node.get "networks" = some (.seq anchor items) →
    ∀ item ∈ items, PlainName item
  plainMap : ∀ anchor items, node.get "networks" = some (.map anchor items) →
    ∀ item ∈ items, PlainName item.1

/-! ### The check is right about what it sees -/

/-- A scalar that is neither inherited nor an alias is read alike. -/
theorem yamlScalarString_eq {node : Yaml} {tree : Tree} {key : String} (h : Resolves node tree)
    (hinherited : NotInherited node tree key) (halias : NotAlias node key) :
    yamlScalarString (node.get key) = (tree.get key).bind Tree.text := by
  cases hget : node.get key with
  | none =>
    rw [hinherited hget]
    rfl
  | some value =>
    obtain ⟨t, ht, hvalue⟩ := h.get_eq_some hget
    rw [ht]
    cases value with
    | scalar anchor value =>
      rw [hvalue.scalar]
      rfl
    | map anchor items =>
      obtain ⟨trees, rfl, -⟩ := hvalue.map
      rfl
    | seq anchor items =>
      obtain ⟨trees, rfl, -⟩ := hvalue.seq
      rfl
    | reference name => cases halias _ hget

/-- A scalar that the check has found, Compose finds. -/
theorem text_of_trimmedScalar {node : Yaml} {tree : Tree} {key value : String}
    (h : Resolves node tree) (hscalar : trimmedScalar (node.get key) = some value) :
    ∃ text, (tree.get key).bind Tree.text = some text ∧ trim text = value ∧ value ≠ "" := by
  obtain ⟨hmap, hne⟩ := Option.filter_eq_some_iff.mp hscalar
  obtain ⟨text, htext, rfl⟩ := Option.map_eq_some_iff.mp hmap
  cases hget : node.get key with
  | none =>
    rw [hget] at htext
    cases htext
  | some found =>
    rw [hget] at htext
    obtain ⟨t, ht, hvalue⟩ := h.get_eq_some hget
    cases found with
    | scalar anchor scalar =>
      obtain rfl := Option.some.inj htext
      refine ⟨scalar.text, ?_, rfl, by simpa using hne⟩
      rw [ht, hvalue.scalar]
      rfl
    | map anchor items => cases htext
    | seq anchor items => cases htext
    | reference name => cases htext

/-- A resource that the check has found to be owned has an owned name in the engine. -/
theorem engineName_owned {context : ComposeContext} {document : Yaml} {root : Tree}
    {part key engine : String} {owned : List String} (h : Resolves document root)
    (hdefined : definedAsOwned (document.get part) key owned = true)
    (hengine : engineName context (root.get part) key = some engine) : engine ∈ owned := by
  unfold definedAsOwned at hdefined
  split at hdefined
  next name external hdefinition =>
    rw [Bool.and_eq_true, List.contains_iff_mem] at hdefined
    unfold composeResourceDefinition at hdefinition
    split at hdefinition
    next anchor items hget =>
      obtain ⟨definitions, hdefinitions, hdef⟩ := Option.bind_eq_some_iff.mp hget
      obtain ⟨tdefinitions, htdefinitions, hresolves⟩ := h.get_eq_some hdefinitions
      obtain ⟨tdef, htdef, hresolvesDef⟩ := hresolves.get_eq_some hdef
      have hname := (Prod.mk.inj (Option.some.inj hdefinition)).1
      obtain ⟨text, htext, htrim, hne⟩ := text_of_trimmedScalar hresolvesDef hname
      have hfilter : ((tdef.get "name").bind Tree.text).filter (trim · ≠ "") = some text := by
        rw [htext]
        exact Option.filter_eq_some_iff.mpr ⟨rfl, by simpa [htrim] using hne⟩
      simp only [engineName, htdefinitions, Option.bind_some, htdef, hfilter] at hengine
      rw [← Option.some.inj hengine, htrim]
      exact hdefined.2
    · cases hdefinition
  · cases hdefined

/-- A plain scalar has no blanks around it where Compose reads it. -/
theorem PlainScalar.trim_eq {node : Yaml} {tree : Tree} {text : String} (h : PlainScalar node)
    (hresolves : Resolves node tree) (htext : tree.text = some text) : trim text = text := by
  cases node with
  | scalar anchor value =>
    rw [hresolves.scalar] at htext
    rw [← Option.some.inj htext]
    exact PlainText.trim_eq h
  | map anchor items =>
    obtain ⟨trees, rfl, -⟩ := hresolves.map
    cases htext
  | seq anchor items =>
    obtain ⟨trees, rfl, -⟩ := hresolves.seq
    cases htext
  | reference name => exact h.elim

section Seen

variable {context : ComposeContext} {plan : ComposeClonePlan} {document : Yaml} {root : Tree}
  {service : String}

/-- What the check compares with, for a plan. -/
abbrev ComposeClonePlan.owned (plan : ComposeClonePlan) : OwnedResources :=
  ⟨plan.volumeMap.values, plan.bindMap.values, plan.networkMap.values⟩

/-- A volume that the check has accepted belongs to the plan. -/
theorem volume_owned {key : String} (h : Resolves document root)
    (hcheck : assertComposeVolumeReferenceOwned service (document.get "volumes") plan.owned
      (some key) .volume = .ok ()) :
    ∀ mount ∈ volumeMountsOf context (root.get "volumes") key, MountOwned plan mount := by
  intro mount hmount
  obtain ⟨engine, hengine, rfl⟩ := Option.map_eq_some_iff.mp (Option.mem_toList.mp hmount)
  simp only [assertComposeVolumeReferenceOwned] at hcheck
  split at hcheck
  next hdefined => exact engineName_owned h hdefined hengine
  · cases hcheck

/-- A host folder that the check has accepted belongs to the plan. -/
theorem bind_owned {source : String} (hcheck : assertComposeVolumeReferenceOwned service
      (document.get "volumes") plan.owned (some source) .bind = .ok ()) :
    MountOwned plan (.bind (hostPath context source)) := by
  simp only [assertComposeVolumeReferenceOwned] at hcheck
  split at hcheck
  next howned =>
    rw [isOwnedRestoredPath, Bool.and_eq_true] at howned
    obtain ⟨folder, hfolder, hinside⟩ := List.any_eq_true.mp howned.2
    refine ⟨folder, hfolder, ?_⟩
    rw [hostPath, if_pos howned.1]
    exact hinside
  · cases hcheck

/-- For a plain source, the check and Compose agree on what is a path. -/
theorem isFilePath_iff {source : String} (h : PlainSource source) :
    isFilePath source = (startsWith source "/" || startsWith source "./" ||
      startsWith source "../" || startsWith source "~") := by
  have hdot : ∀ rest, startsWith source ("." ++ rest) = true → startsWith source "." = true := by
    intro rest hrest
    unfold startsWith at hrest ⊢
    rw [List.isPrefixOf_iff_prefix] at hrest ⊢
    rw [String.toList_append] at hrest
    exact (List.prefix_append _ _).trans hrest
  rw [Bool.eq_iff_iff]
  simp only [isFilePath, Bool.or_eq_true]
  constructor
  · rintro ((h1 | h1) | h1)
    · rcases h.2 h1 with h2 | h2 <;> simp [h2]
    · simp [h1]
    · simp [h1]
  · rintro (((h1 | h1) | h1) | h1)
    · simp [h1]
    · simp [hdot "/" h1]
    · simp [hdot "./" h1]
    · simp [h1]

/-- The type of a volume as the check and as Compose compute it from the same text. -/
theorem mountType_cases (text : Option String) :
    String.ofList ((trim (text.getD "volume")).toList.map Char.toLower) =
        String.ofList ((((text.map trim).filter (· ≠ "")).getD "volume").toList.map Char.toLower) ∨
      (String.ofList ((trim (text.getD "volume")).toList.map Char.toLower) = "" ∧
        String.ofList ((((text.map trim).filter (· ≠ "")).getD "volume").toList.map Char.toLower) =
          "volume") := by
  cases text with
  | none =>
    left
    have htrim : trim "volume" = "volume" := by decide +kernel
    rw [Option.getD_none, htrim]
    rfl
  | some text =>
    by_cases hempty : trim text = ""
    · right
      rw [Option.getD_some, Option.map_some, hempty]
      exact ⟨rfl, by decide⟩
    · left
      rw [Option.getD_some, Option.map_some, Option.filter_eq_some_iff.mpr ⟨rfl, by simpa using hempty⟩,
        Option.getD_some]

/-- The source of a volume in the long form. -/
theorem longSource_eq {item : Yaml} {tree : Tree} {source : String} (hitem : Resolves item tree)
    (hplain : ∀ source, (tree.get "source").bind Tree.text = some source → trim source = source)
    (hsource : trimmedScalar (item.get "source") = some source) :
    ((tree.get "source").bind Tree.text).filter (· ≠ "") = some source := by
  obtain ⟨text, htext, htrim, hne⟩ := text_of_trimmedScalar hitem hsource
  have hsame : text = source := (hplain text htext).symm.trans htrim
  rw [htext, hsame]
  exact Option.filter_eq_some_iff.mpr ⟨rfl, by simpa using hne⟩

/-- A check that succeeds was given a source. -/
theorem exists_source {topVolumes : Option Yaml} {owned : OwnedResources} {source : Option String}
    {kind : MountKind}
    (hcheck : assertComposeVolumeReferenceOwned service topVolumes owned source kind = .ok ()) :
    ∃ text, source = some text := by
  cases source with
  | none => cases hcheck
  | some text => exact ⟨text, rfl⟩

/-- A volume in the long form that the check sees and accepts belongs to the plan. -/
theorem longMounts_owned {item : Yaml} {tree : Tree} (h : Resolves document root)
    (hitem : Resolves item tree) (htype : NotInherited item tree "type")
    (halias : NotAlias item "type")
    (hplain : ∀ source, (tree.get "source").bind Tree.text = some source → trim source = source)
    (hmap : item.isMap = true)
    (hcheck : assertComposeVolumeOwned service (document.get "volumes") plan.owned item = .ok ()) :
    ∀ mount ∈ longMounts context (root.get "volumes") tree, MountOwned plan mount := by
  cases item with
  | map anchor items =>
    have htypes := mountType_cases ((tree.get "type").bind Tree.text)
    have hchecked : trimmedScalar ((Yaml.map anchor items).get "type") =
        (((tree.get "type").bind Tree.text).map trim).filter (· ≠ "") := by
      rw [trimmedScalar, yamlScalarString_eq hitem htype halias]
    simp only [assertComposeVolumeOwned, hchecked] at hcheck
    simp only [longMounts]
    -- the two types agree, up to a blank one
    generalize String.ofList ((trim (((tree.get "type").bind Tree.text).getD "volume")).toList.map
      Char.toLower) = read at htypes ⊢
    generalize String.ofList ((((((tree.get "type").bind Tree.text).map trim).filter
      (· ≠ "")).getD "volume").toList.map Char.toLower) = checked at htypes hcheck
    by_cases htmpfs : checked = "tmpfs"
    · subst htmpfs
      rcases htypes with rfl | ⟨-, hvolume⟩
      · simp
      · exact absurd hvolume (by decide)
    rw [if_neg htmpfs] at hcheck
    by_cases hbind : checked = "bind"
    · subst hbind
      rcases htypes with rfl | ⟨-, hvolume⟩
      · rw [if_pos rfl] at hcheck
        obtain ⟨source, hsource⟩ := exists_source hcheck
        rw [hsource] at hcheck
        rw [if_neg (show ¬ "bind" = "tmpfs" by decide), if_pos rfl,
          longSource_eq hitem hplain hsource]
        intro mount hmount
        rw [List.mem_singleton.mp hmount]
        exact bind_owned hcheck
      · exact absurd hvolume (by decide)
    rw [if_neg hbind] at hcheck
    by_cases hvolume : checked = "volume"
    · subst hvolume
      rw [if_pos rfl] at hcheck
      obtain ⟨source, hsource⟩ := exists_source hcheck
      rw [hsource] at hcheck
      have hread : read = "volume" ∨ read = "" := htypes.imp id And.left
      have hnot : read ≠ "tmpfs" ∧ read ≠ "bind" := by
        rcases hread with rfl | rfl <;> decide
      have hor : (decide (read = "volume") || decide (read = "")) = true := by
        rcases hread with rfl | rfl <;> decide
      rw [if_neg hnot.1, if_neg hnot.2, if_pos hor, longSource_eq hitem hplain hsource]
      exact volume_owned h hcheck
    · rw [if_neg hvolume] at hcheck
      cases hcheck
  | scalar anchor value => cases hmap
  | seq anchor items => cases hmap
  | reference name => cases hmap

/-- **Volumes.** A volume that the check sees and accepts belongs to the plan. -/
theorem itemMounts_owned {item : Yaml} {tree : Tree} (h : Resolves document root)
    (hitem : Resolves item tree) (hplain : PlainVolume item)
    (hcheck : assertComposeVolumeOwned service (document.get "volumes") plan.owned item = .ok ()) :
    ∀ mount ∈ itemMounts context (root.get "volumes") tree, MountOwned plan mount := by
  cases item with
  | scalar anchor value =>
    rw [hitem.scalar]
    simp only [PlainVolume] at hplain
    simp only [assertComposeVolumeOwned, shortComposeVolumeSource] at hcheck
    simp only [itemMounts, shortMounts]
    split at hcheck
    · cases hcheck
    next hcolon =>
      rw [if_neg hcolon]
      rw [hplain.1.trim_eq, ← isFilePath_iff hplain] at hcheck
      split at hcheck
      · cases hcheck
      next hne =>
        split
        next hpath =>
          rw [if_pos hpath] at hcheck
          intro mount hmount
          rw [List.mem_singleton.mp hmount]
          exact bind_owned hcheck
        next hname =>
          rw [if_neg hname] at hcheck
          exact volume_owned h hcheck
  | map anchor items =>
    obtain ⟨trees, rfl, -⟩ := hitem.map
    have hliteral : ∀ item ∈ items, LiteralKey item :=
      Written.literalKey hplain fun value hmerge => hmerge.1 rfl
    simp only [itemMounts]
    refine longMounts_owned h hitem (fun hget => ?_) (fun value hget => ?_) (fun source hsource => ?_)
      rfl hcheck
    · by_contra hne
      obtain ⟨t, ht⟩ := Option.ne_none_iff_exists'.mp hne
      obtain ⟨entry, hentry, hisKey, -⟩ := hitem.exists_entry rfl hliteral ht
      rw [Yaml.isKey_eq_false_of_get hget entry hentry] at hisKey
      cases hisKey
    · exact (Written.part_of_get hplain hget).2.1 rfl
    · obtain ⟨t, ht, htext⟩ := Option.bind_eq_some_iff.mp hsource
      obtain ⟨entry, hentry, hisKey, hresolves⟩ := hitem.exists_entry rfl hliteral ht
      have hscalar := (Written.part_of_isKey hplain hentry hisKey).2.2 rfl
      exact hscalar.trim_eq hresolves htext
  | seq anchor items => cases hcheck
  | reference name => cases hcheck

/-- A network that the check has accepted belongs to the plan. -/
theorem network_owned {name engine : String} (h : Resolves document root)
    (hcheck : assertComposeNetworkReferenceOwned service (document.get "networks") plan.owned name =
      .ok ())
    (hengine : engineName context (root.get "networks") name = some engine) :
    engine ∈ plan.networkMap.values := by
  unfold assertComposeNetworkReferenceOwned at hcheck
  split at hcheck
  next hdefined => exact engineName_owned h hdefined hengine
  · cases hcheck

/-- The check of a plain name is the check of what Compose reads. -/
theorem networkReference_of_plain {name : Yaml} {tree : Tree} {topNetworks : Option Yaml}
    {owned : OwnedResources} (hname : Resolves name tree) (hplain : PlainName name)
    (hcheck : assertComposeNetworkOwned service topNetworks owned name = .ok ()) :
    ∃ value : Scalar, tree = .scalar value ∧ value.text ≠ "<<" ∧
      assertComposeNetworkReferenceOwned service topNetworks owned value.text = .ok () := by
  cases name with
  | scalar anchor value =>
    simp only [PlainName] at hplain
    refine ⟨value, hname.scalar, hplain.2, ?_⟩
    unfold assertComposeNetworkOwned at hcheck
    split at hcheck
    next logicalName htrimmed =>
      have htext : logicalName = value.text := by
        obtain ⟨hmap, -⟩ := Option.filter_eq_some_iff.mp htrimmed
        obtain ⟨text, htext, rfl⟩ := Option.map_eq_some_iff.mp hmap
        obtain rfl := Option.some.inj htext
        exact hplain.1
      rw [← htext]
      exact hcheck
    · cases hcheck
  | map anchor items => cases hcheck
  | seq anchor items => cases hcheck
  | reference name => cases hcheck

/-- **Networks.** The networks of a seen service that the check accepts belong to the plan. -/
theorem networksOwned_of_seen {node : Yaml} {tree : Tree} (h : Resolves document root)
    (hseen : SeenService node tree)
    (hcheck : assertComposeServiceNetworksOwned service node (document.get "networks") plan.owned =
      .ok ()) : NetworksOwned context plan root tree := by
  have hmode : trimmedScalar (node.get "network_mode") =
      (((tree.get "network_mode").bind Tree.text).map trim).filter (· ≠ "") := by
    rw [trimmedScalar,
      yamlScalarString_eq hseen.resolves hseen.networkMode hseen.networkModeAlias]
  unfold assertComposeServiceNetworksOwned at hcheck
  unfold NetworksOwned
  rw [hmode] at hcheck
  split
  next mode hsome =>
    simp only [hsome] at hcheck
    split at hcheck
    next hallowed =>
      rw [Bool.or_eq_true, List.contains_iff_mem] at hallowed
      exact hallowed.imp id Or.inl
    · cases hcheck
  next hnone =>
    simp only [hnone] at hcheck
    intro name hlogical engine hengine
    cases hget : node.get "networks" with
    | none =>
      rw [hget] at hcheck
      rw [hseen.networks hget] at hlogical
      rw [show name = "default" from hlogical] at hengine
      exact network_owned h hcheck hengine
    | some networks =>
      obtain ⟨t, ht, hnetworks⟩ := hseen.resolves.get_eq_some hget
      rw [hget] at hcheck
      rw [ht] at hlogical
      cases networks with
      | seq anchor items =>
        obtain ⟨trees, rfl, hitems⟩ := hnetworks.seq
        cases hitems with
        | nil =>
          rw [show name = "default" from hlogical] at hengine
          exact network_owned h hcheck hengine
        | @cons item tree items trees hitem hrest =>
          obtain ⟨found, hfound, htext⟩ := hlogical
          obtain ⟨source, hsource, hresolves⟩ := exists_left (.cons hitem hrest) hfound
          obtain ⟨value, rfl, -, hreference⟩ := networkReference_of_plain hresolves
            (hseen.plainSeq anchor _ hget source hsource) (forM_ok hcheck source hsource)
          rw [← Option.some.inj htext] at hengine
          exact network_owned h hreference hengine
      | map anchor items =>
        obtain ⟨trees, rfl, -, hitems⟩ := hnetworks.map
        have hread : ∀ item ∈ trees, ∃ value : Scalar, item.1 = .scalar value ∧ value.text ≠ "<<" ∧
            assertComposeNetworkReferenceOwned service (document.get "networks") plan.owned
              value.text = .ok () := by
          intro item hitem
          obtain ⟨source, hsource, hresolves, -⟩ := exists_left hitems hitem
          exact networkReference_of_plain hresolves (hseen.plainMap anchor _ hget source hsource)
            (forM_ok hcheck source hsource)
        cases trees with
        | nil =>
          cases hitems
          exact absurd hget (hseen.someNetwork anchor)
        | cons first rest =>
          obtain ⟨-, hin⟩ := hlogical
          -- nothing is inherited, so the network is a key of the mapping itself
          have hinherited : Tree.inherited name (first :: rest) = none := by
            refine Tree.inherited_eq_none fun item hitem hmerge => ?_
            obtain ⟨value, hkey, hne, -⟩ := hread item hitem
            rw [hkey] at hmerge
            exact hne (Tree.text_of_string hmerge)
          rw [Js.Tree.get, hinherited, Option.or_none] at hin
          obtain ⟨found, hfound⟩ := Option.isSome_iff_exists.mp hin
          obtain ⟨item, hitem, -⟩ := Option.map_eq_some_iff.mp hfound
          obtain ⟨value, hkey, -, hreference⟩ := hread item (List.mem_of_find?_eq_some hitem)
          have hstring : item.1.string = some name := by simpa using List.find?_some hitem
          rw [hkey] at hstring
          rw [← Tree.text_of_string hstring] at hengine
          exact network_owned h hreference hengine
      | scalar anchor value => cases hcheck
      | reference name => cases hcheck

/-- **The check is right about what it sees.** -/
theorem seen_isolated {anchor : Option String} {items : List (Yaml × Yaml)} {item : Yaml × Yaml}
    {tree : Tree} (h : Resolves document root)
    (hservices : document.get "services" = some (.map anchor items)) (hitem : item ∈ items)
    (hseen : SeenService item.2 tree)
    (hfiles : ∀ part ∈ ["secrets", "configs"], ∀ read, fileMounts context (root.get part) read = [])
    (hcheck : assertComposeCloneResourcesOwned plan.volumeMap plan.bindMap plan.networkMap document =
      .ok ()) : ServiceIsolated context plan root tree := by
  unfold assertComposeCloneResourcesOwned at hcheck
  split at hcheck
  · cases hcheck
  rw [hservices] at hcheck
  have hservice := forM_ok hcheck item hitem
  unfold assertComposeServiceOwned at hservice
  simp only at hservice
  split at hservice
  · cases hservice
  obtain ⟨u, hvolumes, hnetworks⟩ := bind_eq_ok.mp hservice
  refine ⟨?_, networksOwned_of_seen h hseen hnetworks⟩
  have hnone : ∀ part ∈ ["secrets", "configs"], ∀ reads : List Tree,
      reads.flatMap (fileMounts context (root.get part)) = [] := fun part hpart reads =>
    List.flatMap_eq_nil_iff.mpr fun read _ => hfiles part hpart read
  intro mount hmount
  simp only [serviceMounts, hseen.volumesFrom, hnone "secrets" (by simp), hnone "configs" (by simp),
    List.append_nil] at hmount
  obtain ⟨read, hread, hmount⟩ := List.mem_flatMap.mp hmount
  unfold assertComposeServiceVolumesOwned at hvolumes
  split at hvolumes
  next hget =>
    rw [hseen.volumes hget] at hread
    cases hread
  next volumesAnchor volumes hget =>
    obtain ⟨t, ht, hresolves⟩ := hseen.resolves.get_eq_some hget
    obtain ⟨trees, rfl, hvolumeItems⟩ := hresolves.seq
    rw [ht] at hread
    obtain ⟨source, hsource, hresolved⟩ := exists_left hvolumeItems hread
    exact itemMounts_owned h hresolved (hseen.plainVolumes _ _ hget source hsource)
      (forM_ok hvolumes source hsource) mount hmount
  · cases hvolumes

end Seen

end ComposeBastion
