import ComposeBastion.Js.Yaml
import ComposeBastion.Recovery.BindMounts
import Mathlib.Data.List.Sort

namespace ComposeBastion

open Js

/-!
# Compose clones

`services/recoveryRestore.ts` and `services/recoveryRestoreUtils.ts`: the captured Compose file of
an application is rewritten for a clone of it.  The model starts from the parsed document; a text
that is no YAML is no Compose file.

* `remapComposeYaml` — host folders, ports, networks and the definitions of volumes are replaced by
  those of the plan;
* `addComposeRestoreOwnershipLabels` — what the plan has created beforehand becomes external, the
  rest is labelled;
* `assertComposeCloneResourcesOwned` — the check of the result;
* `cloneCompose` — the three of them.
-/

/-! ### The mounts of the containers -/

/-- A container of the manifest, as far as its mounts are read. -/
structure ComposeContainer where
  id : String
  name : String
  labels : Record
  bindMounts : List (String × String)

/-- The restored folders by service and destination, in the order of insertion. -/
abbrev ServiceBindMounts := List (String × List (String × String))

/-- `map.set(key, value)`. -/
def setEntry {α : Type} (key : String) (value : α) : List (String × α) → List (String × α)
  | [] => [(key, value)]
  | entry :: rest => if entry.1 = key then (key, value) :: rest else entry :: setEntry key value rest

/-- One mount of a container: its source and its destination. -/
def addServiceBindMount (cwd : String) (bindMounts : Record) (container : ComposeContainer)
    (mounts : ServiceBindMounts) (bind : String × String) : Except String ServiceBindMounts := do
  let identity :=
    if container.name ≠ "" then container.name
    else if container.id ≠ "" then container.id else "<unknown>"
  let cannot := "Cannot safely remap restored bind mount for container " ++ identity ++ " from "
    ++ bind.1
  let service := ((container.labels.get "com.docker.compose.service").map trim).getD ""
  if service = "" then
    .error (cannot ++ ": the com.docker.compose.service label is missing or blank.")
  else if bind.2 = "" then .error (cannot ++ ": the inspected destination is empty.")
  else match ← resolveRestoredBindMountPath cwd bind.1 bindMounts with
    | none =>
      .error (cannot ++ " to " ++ bind.2
        ++ ": no completed restored host-folder artifact covers the inspected source.")
    | some replacement =>
      let destinations := (mounts.lookup service).getD []
      if (destinations.lookup bind.2).any (· ≠ replacement) then
        .error ("Cannot safely remap restored bind mount for Compose service " ++ service ++ " at "
          ++ bind.2 ++ ": replicas resolved to conflicting restored paths.")
      else .ok (setEntry service (setEntry bind.2 replacement destinations) mounts)

def buildComposeServiceBindMounts (cwd : String) (containers : List ComposeContainer)
    (bindMounts : Record) : Except String ServiceBindMounts :=
  containers.foldlM (fun mounts container =>
    container.bindMounts.foldlM (addServiceBindMount cwd bindMounts container) mounts) []

/-! ### Remapping -/

/-- `scalarString`. -/
def scalarString : Option Yaml → Option String
  | some (.scalar _ (.string value)) => some value
  | _ => none

/-- What was looked up in a plain object: a string, or a function or an object that it inherits,
    which is told by its text. -/
def lookedUp (value : String) : Scalar :=
  if value = "[object Object]" ||
      startsWith value "function " && endsWith value "() { [native code] }" then .builtin value
  else .string value

/-- What was looked up, as a node of its own. -/
def lookedUpNode (value : String) : Yaml :=
  if value = "[object Object]" then .map none [] else .scalar none (lookedUp value)

/-- `setScalarString`: a scalar node takes the value over. -/
def setScalarString (value : String) : Yaml → Yaml
  | .scalar anchor _ => .scalar anchor (lookedUp value)
  | node => node

/-- The parts of a text between colons. -/
def colonParts (value : String) : List String :=
  (value.toList.splitOn ':').map String.ofList

/-- `remapVolumeString`, for host folders. -/
def remapVolumeString (cwd value : String) (bindMounts : Record) : Except String String :=
  match colonParts value with
  | source :: part :: parts => do
    let replacement ← resolveRestoredBindMountPath cwd source bindMounts
    return if truthy replacement then ":".intercalate (replacement.getD "" :: part :: parts)
      else value
  | _ => .ok value

/-- `text.lastIndexOf(marker)`. -/
def lastIndexOf (marker : List Char) : List Char → Option ℕ
  | [] => if marker = [] then some 0 else none
  | c :: rest =>
    match lastIndexOf marker rest with
    | some i => some (i + 1)
    | none => if marker.isPrefixOf (c :: rest) then some 0 else none

/-- One destination of `remapServiceBindVolumeString`: the new text. -/
def remapDestination (value destination replacement : String) : Option String :=
  let marker := ":" ++ destination
  if endsWith value marker then some (replacement ++ marker)
  else
    match lastIndexOf (marker ++ ":").toList value.toList with
    | some (index + 1) =>
      let tail := value.toList.drop (index + 1)
      let mode := tail.drop (marker ++ ":").toList.length
      if mode ≠ [] && !mode.contains ':' then some (replacement ++ String.ofList tail) else none
    | _ => none

/-- `remapServiceBindVolumeString`: the longest destination that fits. -/
def remapServiceBindVolumeString (value : String) (bindMounts : List (String × String)) :
    Option (String × String) :=
  (bindMounts.insertionSort fun a b => codeUnits b.1 ≤ codeUnits a.1).findSome? fun mount =>
    (remapDestination value mount.1 mount.2).map fun text => (text, mount.1)

/-- A volume of a service in the long form, with the destination that was found for it. -/
def remapLongVolume (cwd : String) (bindMounts : Record) (destinations : List (String × String))
    (item : Yaml) : Except String (Yaml × Option String) := do
  let source := item.get "source"
  let target := scalarString (item.get "target")
  let explicitNonBind := (item.get "type").isSome && scalarString (item.get "type") ≠ some "bind"
  let destinationReplacement :=
    if !explicitNonBind && truthy target then
      target.bind fun key => destinations.lookup key
    else none
  let replacement ←
    (if explicitNonBind then .ok none
    else match destinationReplacement with
      | some replacement => .ok (some replacement)
      | none =>
        if truthy (scalarString source) then
          resolveRestoredBindMountPath cwd ((scalarString source).getD "") bindMounts
        else .ok none)
  let isScalar := source.any fun node => match node with
    | .scalar .. => true
    | _ => false
  let remapped := if truthy replacement then
      item.modify "source" (setScalarString (replacement.getD ""))
    else item
  return (remapped, if truthy destinationReplacement && isScalar then target else none)

/-- A volume of a service. -/
def remapServiceVolume (cwd : String) (bindMounts : Record) (destinations : List (String × String))
    (item : Yaml) : Except String (Yaml × Option String) :=
  match item with
  | .scalar anchor (.string raw) =>
    if raw = "" then .ok (item, none)
    else match remapServiceBindVolumeString raw destinations with
      | some (value, destination) => .ok (.scalar anchor (.string value), some destination)
      | none => do
        let value ← remapVolumeString cwd raw bindMounts
        return (.scalar anchor (.string value), none)
  | .map .. => remapLongVolume cwd bindMounts destinations item
  | _ => .ok (item, none)

/-- `remapPortString`. -/
def remapPortString (value : String) (portRemap : Record) : String :=
  let parts := colonParts value
  match parts.reverse with
  | container :: host :: rest =>
    if host ≠ "" && truthy (portRemap.lookup host) then
      ":".intercalate (rest.reverse ++ [(portRemap.lookup host).getD "", container])
    else value
  | _ => value

/-- A published port of a service. -/
def remapServicePort (portRemap : Record) (item : Yaml) : Yaml :=
  match item with
  | .scalar anchor (.string raw) =>
    if raw = "" then item else .scalar anchor (.string (remapPortString raw portRemap))
  | .map .. =>
    item.modify "published" fun published => match published with
      | .scalar anchor value =>
        if value.text ≠ "" && truthy (portRemap.lookup value.text) then
          .scalar anchor (lookedUp ((portRemap.lookup value.text).getD ""))
        else published
      | _ => published
  | _ => item

/-- A network in the sequence of a service. -/
def remapServiceNetwork (networks : Record) (item : Yaml) : Yaml :=
  match item with
  | .scalar anchor (.string raw) =>
    if raw ≠ "" && truthy (networks.lookup raw) then
      .scalar anchor (lookedUp ((networks.lookup raw).getD ""))
    else item
  | _ => item

/-- A network in the mapping of a service. -/
def remapServiceNetworkEntry (networks : Record) (resetNetworkAddressing : Bool)
    (item : Yaml × Yaml) : Yaml × Yaml :=
  match item.1 with
  | .scalar anchor value =>
    let key := if truthy (networks.lookup value.text) then
        .scalar anchor (lookedUp ((networks.lookup value.text).getD ""))
      else item.1
    (key, if resetNetworkAddressing then
        ((item.2.delete "ipv4_address").delete "ipv6_address").delete "link_local_ips"
      else item.2)
  | _ => item

/-- What a plan maps. -/
structure ComposeMappings where
  volumes : Record
  bindMounts : Record
  serviceBindMounts : ServiceBindMounts
  portRemap : Record
  networks : Record
  resetNetworkAddressing : Bool

/-- The elements of a sequence with `f` applied, and what it reports of them. -/
def remapItems {ε : Type} (f : Yaml → Except ε (Yaml × Option String)) :
    List Yaml → Except ε (List Yaml × List String)
  | [] => .ok ([], [])
  | item :: rest => do
    let first ← f item
    let others ← remapItems f rest
    return (first.1 :: others.1, first.2.toList ++ others.2)

/-- The volumes of a service. -/
def remapServiceVolumes (cwd : String) (mappings : ComposeMappings) (service : String) :
    Yaml → Except String (Yaml × List String)
  | .seq anchor items => do
    let destinations := (mappings.serviceBindMounts.lookup service).getD []
    let remapped ← remapItems (remapServiceVolume cwd mappings.bindMounts destinations) items
    return (.seq anchor remapped.1, remapped.2)
  | node => .ok (node, [])

/-- The ports and the networks of a service. -/
def remapServiceAttachments (mappings : ComposeMappings) (service : Yaml) : Yaml :=
  (service.modify "ports" fun ports => match ports with
    | .seq anchor items => .seq anchor (items.map (remapServicePort mappings.portRemap))
    | _ => ports).modify "networks" fun networks => match networks with
      | .seq anchor items => .seq anchor (items.map (remapServiceNetwork mappings.networks))
      | .map anchor items => .map anchor (items.map
          (remapServiceNetworkEntry mappings.networks mappings.resetNetworkAddressing))
      | _ => networks

/-- One service; the destinations that were found are reported with its name. -/
def remapService (cwd : String) (mappings : ComposeMappings) (item : Yaml × Yaml) :
    Except String ((Yaml × Yaml) × List (String × String)) :=
  match item.2 with
  | .map .. => do
    let service := Yaml.keyText item.1
    let volumes ← (match item.2.get "volumes" with
      | some volumes => (remapServiceVolumes cwd mappings service volumes).map some
      | none => .ok none)
    let remapped := match volumes with
      | some volumes => item.2.modify "volumes" fun _ => volumes.1
      | none => item.2
    return ((item.1, remapServiceAttachments mappings remapped),
      ((volumes.map Prod.snd).getD []).map fun destination => (service, destination))
  | _ => .ok (item, [])

/-- The services. -/
def remapServices (cwd : String) (mappings : ComposeMappings) :
    List (Yaml × Yaml) → Except String (List (Yaml × Yaml) × List (String × String))
  | [] => .ok ([], [])
  | item :: rest => do
    let first ← remapService cwd mappings item
    let others ← remapServices cwd mappings rest
    return (first.1 :: others.1, first.2 ++ others.2)

/-- The definitions of volumes: the logical key stays, and names the restored volume. -/
def remapTopVolumes (volumes : Record) (node : Yaml) : Yaml :=
  match node with
  | .map _ items =>
    let definitions := items.filterMap fun item =>
      let logicalName := Yaml.keyText item.1
      let explicitName := scalarString (item.2.get "name")
      let target := (volumes.lookup logicalName).or
        (if truthy explicitName then explicitName.bind volumes.lookup else none)
      if logicalName ≠ "" && truthy target then some (logicalName, target.getD "") else none
    definitions.foldl (fun node definition =>
      node.set definition.1 (.object [("name", lookedUpNode definition.2)])) node
  | _ => node

/-- A network of the plan takes the place of a captured one. -/
def remapTopNetwork (resetNetworkAddressing : Bool) (node : Yaml) (entry : String × String) : Yaml :=
  match node.get entry.1 with
  | none => node
  | some value =>
    if entry.1 = entry.2 then node
    else
      let rest := node.delete entry.1
      match value with
      | .map .. =>
        let plain := if resetNetworkAddressing then
            (["driver", "driver_opts", "attachable", "internal", "ipam", "enable_ipv4",
              "enable_ipv6", "labels"].foldl (fun value key => value.delete key) value).setScalar
                "external" (.bool true)
          else value
        let named := if (plain.get "name").isSome then
            plain.modify "name" (setScalarString entry.2)
          else plain.set "name" (.text entry.2)
        rest.set entry.2 named
      | _ => rest.set entry.2 (.object [("name", .text entry.2)])

/-- `remapComposeYaml`, on the document. -/
def remapComposeYaml (cwd : String) (mappings : ComposeMappings) (document : Yaml) :
    Except String Yaml :=
  if mappings.volumes.entries = [] && mappings.bindMounts.entries = [] &&
      mappings.serviceBindMounts = [] && mappings.portRemap.entries = [] &&
      mappings.networks.entries = [] && !mappings.resetNetworkAddressing then .ok document
  else do
    let services ← (match document.get "services" with
      | some (.map anchor items) => (remapServices cwd mappings items).map fun r =>
          (some (Yaml.map anchor r.1), r.2)
      | _ => .ok (none, []))
    let remapped := match services.1 with
      | some node => document.modify "services" fun _ => node
      | none => document
    let required := mappings.serviceBindMounts.flatMap fun entry =>
      entry.2.map fun mount => (entry.1, mount.1)
    let missing := required.filter fun key => !services.2.contains key
    if missing ≠ [] then
      .error ("Cannot safely remap restored Compose bind mounts because these service destinations "
        ++ "were not found: " ++ ", ".intercalate (missing.map fun key => key.1 ++ ":" ++ key.2))
    else
      ((remapped.modify "volumes" (remapTopVolumes mappings.volumes)).modify "networks"
        fun node => match node with
          | .map .. => mappings.networks.entries.foldl
              (remapTopNetwork mappings.resetNetworkAddressing) node
          | _ => node).print

/-! ### Labels -/

/-- `RestoreOwnership`. -/
structure RestoreOwnership where
  attemptToken : String
  scope : String

/-- The labels of an attempt. -/
def RestoreOwnership.labels (ownership : RestoreOwnership) : List (String × String) :=
  [("com.composebastion.recovery.restore-attempt", ownership.attemptToken),
    ("com.composebastion.recovery.restore-scope", ownership.scope)]

/-- A mapping of texts. -/
def textObject (entries : List (String × String)) : Yaml :=
  .object (entries.map fun entry => (entry.1, .text entry.2))

/-- The entries of labels in the form `key=value`. -/
def labelEntries (items : List Yaml) : List (String × String) :=
  items.foldl (fun entries item => match item with
    | .scalar _ value =>
      let key := value.text.toList.takeWhile (· ≠ '=')
      if key = [] then entries
      else setEntry (String.ofList key) (String.ofList (value.text.toList.drop (key.length + 1)))
        entries
    | _ => entries) []

/-- `setComposeRestoreOwnershipLabels`. -/
def setComposeRestoreOwnershipLabels (ownership : RestoreOwnership) (node : Yaml) : Yaml :=
  match node.get "labels" with
  | some (.map ..) =>
    node.modify "labels" fun labels =>
      ownership.labels.foldl (fun labels entry => labels.setScalar entry.1 (.string entry.2)) labels
  | some (.seq _ items) =>
    node.set "labels" (textObject (ownership.labels.foldl
      (fun entries entry => setEntry entry.1 entry.2 entries) (labelEntries items)))
  | _ => node.set "labels" (textObject ownership.labels)

/-- `isExternalComposeResource`. -/
def isExternalComposeResource (node : Yaml) : Bool :=
  match node.get "external" with
  | some (.scalar _ value) =>
    value = .bool true || value.text.toList.map Char.toLower = "true".toList
  | _ => false

/-- A resource that the plan has created. -/
def externalResource (name : String) : Yaml :=
  .object [("name", lookedUpNode name), ("external", .scalar none (.bool true))]

/-- The definition of one volume or network. -/
def labelResource (ownership : RestoreOwnership) (precreated : Record) (node : Yaml)
    (item : Yaml × Yaml) : Yaml :=
  let key := Yaml.keyText item.1
  if key = "" then node
  else
    let explicitName := match item.2.get "name" with
      | some (.scalar _ value) => value.text
      | _ => ""
    let target := (precreated.lookup key).or
      (if precreated.values.contains explicitName then some explicitName else none)
    if truthy target then node.set key (externalResource (target.getD ""))
    else if !item.2.isMap then
      node.set key (.object [("labels", textObject ownership.labels)])
    else if !isExternalComposeResource item.2 then
      node.modify key (setComposeRestoreOwnershipLabels ownership)
    else node

/-- The definitions of volumes or of networks. -/
def labelResources (ownership : RestoreOwnership) (precreated : Record) (node : Yaml) : Yaml :=
  match node with
  | .map _ items => items.foldl (labelResource ownership precreated) node
  | _ => node

/-- The networks of the document with the default network among them. -/
def labelNetworks (ownership : RestoreOwnership) (networks : Record) (node : Yaml) : Yaml :=
  let labelled := labelResources ownership networks node
  if truthy (networks.lookup "default") then
    labelled.set "default" (externalResource ((networks.lookup "default").getD ""))
  else if (labelled.get "default").isNone then
    labelled.set "default" (.object [("labels", textObject ownership.labels)])
  else labelled

/-- A service of the document. -/
def labelService (ownership : RestoreOwnership) (item : Yaml × Yaml) : Yaml × Yaml :=
  (item.1, match item.2 with
    | .map .. => setComposeRestoreOwnershipLabels ownership item.2
    | service => service)

/-- The services of the document. -/
def labelServices (ownership : RestoreOwnership) (node : Yaml) : Yaml :=
  match node with
  | .map anchor items => .map anchor (items.map (labelService ownership))
  | _ => node

def addComposeRestoreOwnershipLabels (ownership : RestoreOwnership) (networks volumes : Record)
    (document : Yaml) : Except String Yaml :=
  if !document.isMap then
    .error ("Cannot safely label restored Compose resources: the Compose document root is not a "
      ++ "mapping.")
  else
    let services := document.modify "services" (labelServices ownership)
    let volumesLabelled := services.modify "volumes" (labelResources ownership volumes)
    let withNetworks := match volumesLabelled.get "networks" with
      | some (.map ..) => volumesLabelled
      | _ => volumesLabelled.set "networks"
          (.object [("default", .object [("labels", textObject ownership.labels)])])
    (withNetworks.modify "networks" (labelNetworks ownership networks)).print

/-! ### The check -/

/-- `yamlScalarString`. -/
def yamlScalarString : Option Yaml → Option String
  | some (.scalar _ value) => some value.text
  | _ => none

/-- `yamlScalarString(node)?.trim() || null`. -/
def trimmedScalar (node : Option Yaml) : Option String :=
  ((yamlScalarString node).map trim).filter (· ≠ "")

/-- `composeResourceDefinition`. -/
def composeResourceDefinition (definitions : Option Yaml) (logicalName : String) :
    Option (Option String × Bool) :=
  match definitions.bind (·.get logicalName) with
  | some (.map anchor items) =>
    some (trimmedScalar ((Yaml.map anchor items).get "name"),
      isExternalComposeResource (.map anchor items))
  | _ => none

/-- `isPathInside`. -/
def isPathInside (parent child : String) : Bool :=
  child = parent || startsWith child (stripTrailingSlashes parent ++ "/")

/-- `isOwnedRestoredPath`. -/
def isOwnedRestoredPath (source : String) (ownedPaths : List String) : Bool :=
  isAbsolute source && ownedPaths.any fun ownedPath =>
    isPathInside (posixNormalize ownedPath) (posixNormalize source)

/-- The resource is defined as an external one with an owned name. -/
def definedAsOwned (definitions : Option Yaml) (logicalName : String) (owned : List String) : Bool :=
  match composeResourceDefinition definitions logicalName with
  | some (some name, external) => external && owned.contains name
  | _ => false

/-- The kind of a mount. -/
inductive MountKind where
  | bind
  | volume
  deriving DecidableEq, Repr

/-- What the check compares with. -/
structure OwnedResources where
  volumes : List String
  bindPaths : List String
  networks : List String

/-- `assertComposeVolumeReferenceOwned`. -/
def assertComposeVolumeReferenceOwned (service : String) (topVolumes : Option Yaml)
    (owned : OwnedResources) (source : Option String) (kind : MountKind) : Except String Unit :=
  let cannot := "Cannot safely clone Compose service " ++ service ++ ": "
  match source, kind with
  | none, _ => .error (cannot ++ "an anonymous volume has no exact restored-volume mapping.")
  | some source, .bind =>
    if isOwnedRestoredPath source owned.bindPaths then .ok ()
    else .error (cannot ++ "bind source " ++ source
      ++ " is not inside an owned restored host-folder path.")
  | some source, .volume =>
    if definedAsOwned topVolumes source owned.volumes then .ok ()
    else .error (cannot ++ "volume " ++ source
      ++ " is not mapped to an exact owned restored volume.")

/-- `shortComposeVolumeSource`. -/
def shortComposeVolumeSource (value : String) : Option String × MountKind :=
  if !value.toList.contains ':' then (none, .volume)
  else
    let source := trim (String.ofList (value.toList.takeWhile (· ≠ ':')))
    let kind := if startsWith source "/" || startsWith source "./" || startsWith source "../" ||
        startsWith source "~" then MountKind.bind else .volume
    (if source = "" then none else some source, kind)

/-- One volume of a service. -/
def assertComposeVolumeOwned (service : String) (topVolumes : Option Yaml) (owned : OwnedResources)
    (item : Yaml) : Except String Unit :=
  let cannot := "Cannot safely clone Compose service " ++ service ++ ": "
  match item with
  | .scalar _ value =>
    let reference := shortComposeVolumeSource value.text
    assertComposeVolumeReferenceOwned service topVolumes owned reference.1 reference.2
  | .map .. =>
    let type := String.ofList (((trimmedScalar (item.get "type")).getD "volume").toList.map
      Char.toLower)
    let source := trimmedScalar (item.get "source")
    if type = "tmpfs" then .ok ()
    else if type = "bind" then
      assertComposeVolumeReferenceOwned service topVolumes owned source .bind
    else if type = "volume" then
      assertComposeVolumeReferenceOwned service topVolumes owned source .volume
    else .error (cannot ++ "volume type " ++ type ++ " cannot be ownership-verified.")
  | _ => .error (cannot ++ "an unsupported volume declaration cannot be ownership-verified.")

/-- `assertComposeServiceVolumesOwned`. -/
def assertComposeServiceVolumesOwned (service : String) (node : Yaml) (topVolumes : Option Yaml)
    (owned : OwnedResources) : Except String Unit :=
  match node.get "volumes" with
  | none => .ok ()
  | some (.seq _ items) => items.forM (assertComposeVolumeOwned service topVolumes owned)
  | some _ =>
    .error ("Cannot safely clone Compose service " ++ service
      ++ ": its volume declarations are not a sequence.")

/-- `assertComposeNetworkReferenceOwned`. -/
def assertComposeNetworkReferenceOwned (service : String) (topNetworks : Option Yaml)
    (owned : OwnedResources) (logicalName : String) : Except String Unit :=
  if definedAsOwned topNetworks logicalName owned.networks then .ok ()
  else .error ("Cannot safely clone Compose service " ++ service ++ ": network " ++ logicalName
    ++ " is not mapped to the exact expected restore network.")

/-- A name in the networks of a service. -/
def assertComposeNetworkOwned (service : String) (topNetworks : Option Yaml)
    (owned : OwnedResources) (name : Yaml) : Except String Unit :=
  match trimmedScalar (some name) with
  | some logicalName => assertComposeNetworkReferenceOwned service topNetworks owned logicalName
  | none =>
    .error ("Cannot safely clone Compose service " ++ service
      ++ ": an empty network reference cannot be ownership-verified.")

def builtinNetworks : List String := ["bridge", "host", "none"]

/-- `assertComposeServiceNetworksOwned`. -/
def assertComposeServiceNetworksOwned (service : String) (node : Yaml) (topNetworks : Option Yaml)
    (owned : OwnedResources) : Except String Unit :=
  let cannot := "Cannot safely clone Compose service " ++ service ++ ": "
  match trimmedScalar (node.get "network_mode") with
  | some mode =>
    if builtinNetworks.contains mode || startsWith mode "service:" then .ok ()
    else .error (cannot ++ "network_mode " ++ mode ++ " can escape the owned clone network set.")
  | none =>
    match node.get "networks" with
    | none => assertComposeNetworkReferenceOwned service topNetworks owned "default"
    | some (.seq _ []) => assertComposeNetworkReferenceOwned service topNetworks owned "default"
    | some (.seq _ items) => items.forM (assertComposeNetworkOwned service topNetworks owned)
    | some (.map _ items) =>
      items.forM fun item => assertComposeNetworkOwned service topNetworks owned item.1
    | some _ => .error (cannot ++ "its network declarations cannot be ownership-verified.")

/-- One entry of the services. -/
def assertComposeServiceOwned (topVolumes topNetworks : Option Yaml) (owned : OwnedResources)
    (item : Yaml × Yaml) : Except String Unit :=
  let service := (trimmedScalar (some item.1)).getD "<unknown>"
  if !item.2.isMap then
    .error ("Cannot safely validate restored Compose service " ++ service
      ++ ": aliases or non-mapping service definitions are unsupported.")
  else do
    assertComposeServiceVolumesOwned service item.2 topVolumes owned
    assertComposeServiceNetworksOwned service item.2 topNetworks owned

def assertComposeCloneResourcesOwned (volumes bindMounts networks : Record) (document : Yaml) :
    Except String Unit :=
  if !document.isMap then
    .error ("Cannot safely validate restored Compose resources: the Compose root is not a mapping")
  else match document.get "services" with
    | some (.map _ items) =>
      items.forM (assertComposeServiceOwned (document.get "volumes") (document.get "networks")
        ⟨volumes.values, bindMounts.values, networks.values⟩)
    | _ =>
      .error "Cannot safely validate restored Compose resources: services is not a mapping."

/-! ### The three of them -/

/-- What a restore knows beside the document. -/
structure ComposeClonePlan where
  cwd : String
  containers : Option (List ComposeContainer)
  volumeMap : Record
  bindMap : Record
  portRemap : Record
  networkMap : Record
  cloneNetworks : Bool
  ownership : RestoreOwnership

/-- The document of a clone. -/
def cloneCompose (plan : ComposeClonePlan) (document : Yaml) : Except String Yaml := do
  let serviceBindMounts ← (match plan.containers with
    | some containers => buildComposeServiceBindMounts plan.cwd containers plan.bindMap
    | none => .ok [])
  let remapped ← remapComposeYaml plan.cwd ⟨plan.volumeMap, plan.bindMap, serviceBindMounts,
    plan.portRemap, plan.networkMap, plan.cloneNetworks⟩ document
  let labelled ← addComposeRestoreOwnershipLabels plan.ownership plan.networkMap plan.volumeMap
    remapped
  assertComposeCloneResourcesOwned plan.volumeMap plan.bindMap plan.networkMap labelled
  return labelled

end ComposeBastion
