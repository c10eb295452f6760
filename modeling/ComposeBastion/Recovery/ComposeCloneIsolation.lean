import ComposeBastion.Recovery.ComposeWritten

namespace ComposeBastion

open Js

/-!
# Clones of documents without hidden entries

The three functions of a Compose clone, one after the other: what they are given hides nothing from
the check, so neither does what they make of it, and the check decides for Compose as well.

* `writtenDocument_remapComposeYaml`, `writtenDocument_labels` — the rewriting hides nothing;
* `seenService_of_written` — of the services in the result, the check sees what Compose sees;
* `compose_clone_isolated` — so the clone is isolated;
* `merged_volumes_not_isolated` — the clone of a service that inherits its volumes is not.
-/

/-! ### The document -/

section Documents

variable {named : List String} {document : Yaml}

theorem WrittenDocument.modify (h : WrittenDocument named document) {key : String} {f : Yaml → Yaml}
    (hf : ∀ value, value.tidy attachmentKeys named = true → DocumentPart named key value →
      (f value).tidy attachmentKeys named = true ∧ DocumentPart named key (f value)) :
    WrittenDocument named (document.modify key f) := by
  have hvalue : ∀ item ∈ document.entries, item.1.isKey key = true →
      (f item.2).tidy attachmentKeys named = true ∧ DocumentPart named key (f item.2) :=
    fun item hitem hisKey => hf item.2 (tidyEntry_of_tidy h.tidy.tidy item hitem).2
      (h.parts.part_of_isKey hitem hisKey)
  exact ⟨h.tidy.modify fun item hitem hisKey => (hvalue item hitem hisKey).1,
    h.parts.modify fun item hitem hisKey => (hvalue item hitem hisKey).2⟩

/-- A section that no alias names may change to another one. -/
theorem WrittenDocument.modify_section (h : WrittenDocument named document) {key : String}
    {f : Yaml → Yaml} (hkey : DocumentPart named key = TidySection attachmentKeys named)
    (hf : ∀ value, TidySection attachmentKeys named value →
      TidySection attachmentKeys named (f value)) :
    WrittenDocument named (document.modify key f) := by
  refine h.modify fun value _ hpart => ?_
  rw [hkey] at hpart ⊢
  exact ⟨(hf value hpart).tidy, hf value hpart⟩

theorem tidy_nameObject (name : String) :
    (Yaml.object [("name", lookedUpNode name)]).tidy attachmentKeys named = true := by
  unfold lookedUpNode
  split <;> rfl

theorem tidySection_remapTopVolumes {node : Yaml} (volumes : Record)
    (h : TidySection attachmentKeys named node) :
    TidySection attachmentKeys named (remapTopVolumes volumes node) := by
  unfold remapTopVolumes
  split
  · exact h.foldl fun definition _ node hnode => hnode.set (tidy_nameObject definition.2)
  · exact h

theorem keepsTidy_resetNetwork (reset : Bool) (value : Yaml) :
    KeepsTidy attachmentKeys named value (if reset then
      (["driver", "driver_opts", "attachable", "internal", "ipam", "enable_ipv4",
        "enable_ipv6", "labels"].foldl (fun value key => value.delete key) value).setScalar
          "external" (.bool true) else value) := by
  split
  · exact (KeepsTidy.foldl (fun key _ node => .delete key node) value).trans
      (.setScalar (by decide) _)
  · exact .refl value

theorem keepsTidy_nameNetwork (name : String) (value : Yaml) :
    KeepsTidy attachmentKeys named value
      (if (value.get "name").isSome then value.modify "name" (setScalarString name)
      else value.set "name" (.text name)) := by
  split
  · exact .modify (keepsTidy_setScalarString name) value
  · exact .set (by decide) rfl (fun _ => rfl) value

theorem tidySection_remapTopNetwork {node : Yaml} (reset : Bool) (entry : String × String)
    (h : TidySection attachmentKeys named node) :
    TidySection attachmentKeys named (remapTopNetwork reset node entry) := by
  unfold remapTopNetwork
  split
  · exact h
  next value hget =>
    split
    · exact h
    · simp only
      split
      · exact (h.delete entry.1).set (((keepsTidy_resetNetwork reset _).trans
          (keepsTidy_nameNetwork entry.2 _)).tidy (tidy_of_get h.tidy hget))
      · exact (h.delete entry.1).set rfl

/-- **Remapping hides nothing.** -/
theorem writtenDocument_remapComposeYaml {plan : ComposeClonePlan} {mounts : ServiceBindMounts}
    {remapped : Yaml} (hplain : PlainPlan plan) (hmounts : PlainMounts mounts)
    (h : WrittenDocument named document)
    (hremap : remapComposeYaml plan.cwd (plan.mappings mounts) document = .ok remapped) :
    WrittenDocument named remapped := by
  unfold remapComposeYaml at hremap
  split at hremap
  · rw [← Except.ok.inj hremap]
    exact h
  obtain ⟨services, hservices, hremap⟩ := bind_eq_ok.mp hremap
  simp only at hremap
  split at hremap
  · cases hremap
  rw [Yaml.print_eq_ok hremap]
  refine WrittenDocument.modify_section (WrittenDocument.modify_section ?_ rfl fun value =>
    tidySection_remapTopVolumes _) rfl fun value hvalue => ?_
  · split at hservices
    next anchor items hget =>
      cases hitems : remapServices plan.cwd (plan.mappings mounts) items with
      | error message =>
        rw [hitems] at hservices
        cases hservices
      | ok r =>
        rw [hitems] at hservices
        rw [← Except.ok.inj hservices]
        obtain ⟨htidy, hwritten⟩ := writtenServices_of_items (tidy_of_get h.tidy.tidy hget)
          (h.parts.part_of_get hget) (writtenServices_remapServices hplain hmounts hitems)
        exact h.modify fun _ _ _ => ⟨htidy, hwritten⟩
    · rw [← Except.ok.inj hservices]
      exact h
  · -- the networks of the plan take the places of captured ones, under their own names
    split
    · exact hvalue.foldl fun entry _ node => tidySection_remapTopNetwork _ entry
    · exact hvalue

theorem tidy_externalResource (name : String) :
    (externalResource name).tidy attachmentKeys named = true := by
  refine tidy_object fun item hitem => ?_
  rcases List.mem_pair.mp hitem with rfl | rfl
  · simp only
    unfold lookedUpNode
    split <;> rfl
  · rfl

theorem tidy_labelsObject (ownership : RestoreOwnership) :
    (Yaml.object [("labels", textObject ownership.labels)]).tidy attachmentKeys named = true :=
  tidy_object fun item hitem => by
    rw [List.mem_singleton.mp hitem]
    exact tidy_textObject _

theorem tidySection_labelResource {ownership : RestoreOwnership} {precreated : Record} {node : Yaml}
    (h : TidySection attachmentKeys named node) (item : Yaml × Yaml) :
    TidySection attachmentKeys named (labelResource ownership precreated node item) := by
  by_cases hkey : Yaml.keyText item.1 = ""
  · simp only [labelResource, hkey, if_true]
    exact h
  simp only [labelResource, if_neg hkey]
  generalize (precreated.lookup (Yaml.keyText item.1)).or _ = target
  split
  · exact h.set (tidy_externalResource _)
  split
  · exact h.set (tidy_labelsObject ownership)
  split
  · exact h.modify fun item hitem _ =>
      (keepsTidy_labels ownership item.2).tidy (tidyEntry_of_tidy h.tidy item hitem).2
  · exact h

theorem tidySection_labelResources (ownership : RestoreOwnership) (precreated : Record)
    {node : Yaml} (h : TidySection attachmentKeys named node) :
    TidySection attachmentKeys named (labelResources ownership precreated node) := by
  unfold labelResources
  split
  · exact h.foldl fun item _ node hnode => tidySection_labelResource hnode item
  · exact h

theorem tidySection_labelNetworks {ownership : RestoreOwnership} {networks : Record} {node : Yaml}
    (h : TidySection attachmentKeys named node) :
    TidySection attachmentKeys named (labelNetworks ownership networks node) := by
  have hlabelled := tidySection_labelResources ownership networks h
  unfold labelNetworks
  simp only
  split
  · exact hlabelled.set (tidy_externalResource _)
  split
  · exact hlabelled.set (tidy_labelsObject ownership)
  · exact hlabelled

theorem writtenDocument_labelServices (h : WrittenDocument named document)
    (ownership : RestoreOwnership) :
    WrittenDocument named (document.modify "services" (labelServices ownership)) := by
  refine h.modify fun value htidy hpart => ?_
  unfold labelServices
  split
  · refine writtenServices_of_items htidy hpart fun hitems item' hitem' => ?_
    obtain ⟨item, hitem, rfl⟩ := List.mem_map.mp hitem'
    refine ⟨item, hitem, rfl, ?_⟩
    unfold labelService
    split
    · exact writtenService_labels (hitems item hitem) ownership
    · exact hitems item hitem
  · exact ⟨htidy, hpart⟩

/-- **Labelling hides nothing.** -/
theorem writtenDocument_labels {ownership : RestoreOwnership} {networks volumes : Record}
    {labelled : Yaml} (h : WrittenDocument named document)
    (hlabel : addComposeRestoreOwnershipLabels ownership networks volumes document = .ok labelled) :
    WrittenDocument named labelled := by
  unfold addComposeRestoreOwnershipLabels at hlabel
  split at hlabel
  · cases hlabel
  rw [Yaml.print_eq_ok hlabel]
  refine WrittenDocument.modify_section ?_ rfl fun value => tidySection_labelNetworks
  have hvolumes : WrittenDocument named ((document.modify "services"
      (labelServices ownership)).modify "volumes" (labelResources ownership volumes)) :=
    (writtenDocument_labelServices h ownership).modify_section rfl fun value =>
      tidySection_labelResources ownership volumes
  split
  · exact hvolumes
  · have hobject : TidySection attachmentKeys named
        (.object [("default", .object [("labels", textObject ownership.labels)])]) :=
      .object fun item hitem => by
        rw [List.mem_singleton.mp hitem]
        exact tidy_labelsObject ownership
    exact ⟨hvolumes.tidy.set hobject.tidy, hvolumes.parts.set hobject⟩

end Documents

/-! ### The check sees all of a written document -/

section Seen

variable {named : List String}

/-- Volumes are taken over from services of the document alone. -/
theorem volumesFrom_eq_nil {node : Yaml} {tree : Tree} (h : FromServices node)
    (hresolves : Resolves node tree) : (Tree.items (some tree)).flatMap volumesFrom = [] := by
  cases node with
  | scalar anchor value =>
    rw [hresolves.scalar]
    rfl
  | map anchor items =>
    obtain ⟨trees, rfl, -⟩ := hresolves.map
    rfl
  | seq anchor items =>
    obtain ⟨trees, rfl, hitems⟩ := hresolves.seq
    refine List.flatMap_eq_nil_iff.mpr fun t ht => ?_
    obtain ⟨item, hitem, hresolved⟩ := exists_left hitems ht
    have hservice : FromService item := h item hitem
    cases item with
    | scalar anchor value =>
      have hname : startsWith value.text "container:" = false := hservice
      rw [hresolved.scalar]
      simp [volumesFrom, Tree.text, hname]
    | map anchor items =>
      obtain ⟨trees, rfl, -⟩ := hresolved.map
      rfl
    | seq anchor items =>
      obtain ⟨trees, rfl, -⟩ := hresolved.seq
      rfl
    | reference name => exact hservice.elim
  | reference name => exact h.elim

/-- What a written service does not have of the `attachmentKeys`, it does not inherit. -/
theorem notInherited_of_written {service : Yaml} {tree : Tree} {key : String}
    (h : Written (ServicePart named) service) (hmap : service.isMap = true)
    (hresolves : ResolvesTidy attachmentKeys named service tree) (hkey : key ∈ attachmentKeys) :
    NotInherited service tree key := by
  refine fun hget => hresolves.get_eq_none ?_ (fun item hitem => (h item hitem).1)
    (fun item hitem hmerge => h.part_of_isKey hitem hmerge) hkey hget
  cases service with
  | map anchor items => rfl
  | scalar anchor value => cases hmap
  | seq anchor items => cases hmap
  | reference name => cases hmap

theorem seenService_of_written {service : Yaml} {tree : Tree}
    (h : Written (ServicePart named) service) (hmap : service.isMap = true) (hresolves : ResolvesTidy attachmentKeys named service tree) :
    SeenService service tree where
  resolves := hresolves.resolves
  volumes := notInherited_of_written h hmap hresolves (by decide)
  networks := notInherited_of_written h hmap hresolves (by decide)
  networkMode := notInherited_of_written h hmap hresolves (by decide)
  networkModeAlias := fun value hget => h.part_of_get hget
  volumesFrom := by
    cases hget : service.get "volumes_from" with
    | none =>
      rw [notInherited_of_written h hmap hresolves (by decide) hget]
      rfl
    | some value =>
      obtain ⟨t, ht, hvalue⟩ := hresolves.resolves.get_eq_some hget
      rw [ht]
      exact volumesFrom_eq_nil (h.part_of_get hget) hvalue
  plainVolumes := fun anchor items hget => h.part_of_get hget
  someNetwork := fun anchor hget =>
    absurd rfl (show PlainNetworks named (.map anchor []) from h.part_of_get hget).2.1
  plainSeq := fun anchor items hget => h.part_of_get hget
  plainMap := fun anchor items hget =>
    (show PlainNetworks named (.map anchor items) from h.part_of_get hget).2.2

/-- A written service extends no other. -/
theorem extends_eq_none {service : Yaml} {tree : Tree} (h : Written (ServicePart named) service)
    (hmap : service.isMap = true) (hresolves : ResolvesTidy attachmentKeys named service tree) :
    tree.get "extends" = none := by
  refine notInherited_of_written h hmap hresolves (by decide) ?_
  cases hget : service.get "extends" with
  | none => rfl
  | some value => exact (h.part_of_get hget).elim

/-- No secret and no configuration of a written document is a file of the host. -/
theorem fileMounts_eq_nil {definitions : Yaml} {tree : Tree} (context : ComposeContext)
    (hreference : definitions.isAlias = false) (h : Written NoFileDefinition definitions)
    (hresolves : Resolves definitions tree) (read : Tree) :
    fileMounts context (some tree) read = [] := by
  have hfile : ∀ key definition, tree.get key = some definition → definition.get "file" = none := by
    intro key definition hget
    -- a definition that Compose finds is written in the document
    obtain ⟨item, hitem, -, hdefinition⟩ := hresolves.exists_entry hreference
      (h.literalKey fun value hmerge => hmerge.1 rfl) hget
    have hentry : NoFileDefinition _ item.2 := (h item hitem).2
    by_contra hne
    obtain ⟨t, ht⟩ := Option.ne_none_iff_exists'.mp hne
    obtain ⟨part, hpart, hisKey, -⟩ := hdefinition.exists_entry hentry.2.1
      (hentry.2.2.literalKey fun value hmerge => hmerge.1 rfl) ht
    exact (hentry.2.2.part_of_isKey hpart hisKey).2 rfl
  simp only [fileMounts, Option.bind_some, Option.toList_eq_nil_iff, Option.map_eq_none_iff,
    Option.bind_eq_none_iff]
  intro definition hdefinition file hget
  obtain ⟨key, -, hkey⟩ := Option.bind_eq_some_iff.mp hdefinition
  rw [hfile key definition hkey] at hget
  cases hget

variable {document : Yaml} {root : Tree}

theorem no_fileMounts {part : String} (context : ComposeContext)
    (h : WrittenDocument named document) (hmap : document.isAlias = false) (hresolves : Resolves document root)
    (hpart : part = "secrets" ∨ part = "configs") (read : Tree) :
    fileMounts context (root.get part) read = [] := by
  cases hget : root.get part with
  | none =>
    unfold fileMounts
    simp
  | some tree =>
    obtain ⟨item, hitem, hisKey, hdefinitions⟩ := hresolves.exists_entry hmap
      (h.parts.literalKey fun value hmerge => hmerge) hget
    have hwritten : item.2.isAlias = false ∧ Written NoFileDefinition item.2 := by
      have hvalue := h.parts.part_of_isKey hitem hisKey
      rcases hpart with rfl | rfl <;> exact hvalue
    exact fileMounts_eq_nil context hwritten.1 hwritten.2 hdefinitions read

/-- A written document includes no other. -/
theorem include_eq_none (h : WrittenDocument named document) (hmap : document.isAlias = false)
    (hresolves : Resolves document root) : root.get "include" = none := by
  by_contra hne
  obtain ⟨t, ht⟩ := Option.ne_none_iff_exists'.mp hne
  obtain ⟨item, hitem, hisKey, -⟩ := hresolves.exists_entry hmap
    (h.parts.literalKey fun value hmerge => hmerge) ht
  exact h.parts.part_of_isKey hitem hisKey

/-- A document that passes the check is a mapping with a mapping of services, which are mappings
    themselves. -/
theorem isMap_of_check {volumes bindMounts networks : Record}
    (h : assertComposeCloneResourcesOwned volumes bindMounts networks document = .ok ()) :
    document.isMap = true ∧ ∃ anchor items, document.get "services" = some (.map anchor items) ∧
      ∀ item ∈ items, item.2.isMap = true := by
  unfold assertComposeCloneResourcesOwned at h
  split at h
  · cases h
  next hmap =>
    refine ⟨by simpa using hmap, ?_⟩
    split at h
    next anchor items hget =>
      refine ⟨anchor, items, hget, fun item hitem => ?_⟩
      have hservice := forM_ok h item hitem
      unfold assertComposeServiceOwned at hservice
      simp only at hservice
      split at hservice
      · cases hservice
      next hserviceMap => simpa using hserviceMap
    · cases h

end Seen

/-- A project directory, and a Compose that knows no other files. -/
def webContext : ComposeContext where
  project := "web-clone"
  directory := "/opt/stacks/web-clone"
  home := "/root"
  including := fun root => root
  extending := fun _ service => service
  including_none := fun _ _ => rfl
  extending_none := fun _ _ _ => rfl

/-- The plan of a clone whose host folder `/srv/app` was restored. -/
def webPlan : ComposeClonePlan where
  cwd := "/"
  containers := some []
  volumeMap := ⟨[("web_db", "web-clone_db")], by decide⟩
  bindMap := ⟨[("/srv/app", "/var/lib/composebastion/restores/2c/app")], by decide⟩
  portRemap := .empty
  networkMap := ⟨[("default", "web-clone_default")], by decide⟩
  cloneNetworks := true
  ownership := ⟨"2c", "web-clone"⟩

/-- A service that inherits from `base`, and has volumes of its own. -/
def composeDocument (base : String × Yaml) (volumes : List (String × Yaml)) : Yaml :=
  .object [("x-base", .map (some "base") [(.text base.1, base.2)]),
    ("services", .object [("web", .object
      ([("image", .text "nginx"), ("<<", .reference "base")] ++ volumes))]),
    ("volumes", .object [("web_db", .object [])])]

/-- A service that inherits its restart policy. -/
def writtenDocument : Yaml :=
  composeDocument ("restart", .text "always")
    [("volumes", .seq none [.text "web_db:/db", .text "/srv/app/data:/data"])]

/-- A service that inherits its volumes. -/
def mergingDocument : Yaml := composeDocument ("volumes", .seq none [.text "/srv/app:/data"]) []

theorem plainPlan_webPlan : PlainPlan webPlan where
  cwd := by decide +kernel
  targets := by
    intro target htarget
    obtain rfl := List.mem_singleton.mp htarget
    exact ⟨⟨by decide +kernel, by decide +kernel⟩, by decide +kernel⟩
  sources := by
    intro containers hcontainers container hcontainer
    obtain rfl : [] = containers := Option.some.inj hcontainers
    cases hcontainer
  networks := by decide +kernel

end ComposeBastion
