import ComposeBastion.Js.Text

namespace ComposeBastion

/-!
# Docker action requests

The discriminated union `dockerActionSchema`: one constructor of `ActionPayload` for each
`type` literal, with the payload fields that admission, single flight and retry read.
`JobType` is the union of the literals themselves, and `DockerActionRequest` pairs a payload
with the requested `hostId` as the caller spelled it: `idSchema` accepts upper and lower
case.
-/

/-- A UUID or other identifier, as text. -/
abbrev Id := String

/-- `idSchema`, that is `z.string().uuid()`: five groups of hexadecimal digits. -/
def isUuid (id : Id) : Bool :=
  id.toList.length == 36 && id.toList.zipIdx.all fun (c, i) =>
    if i ∈ [8, 13, 18, 23] then c == '-'
    else ('0' ≤ c && c ≤ '9') || ('a' ≤ c && c ≤ 'f') || ('A' ≤ c && c ≤ 'F')

/-- No character of a UUID is white space. -/
theorem isWhiteSpace_of_isUuid {id : Id} (h : isUuid id = true) :
    ∀ c ∈ id.toList, Js.isWhiteSpace c = false := by
  intro c hc
  obtain ⟨i, hi, rfl⟩ := List.getElem_of_mem hc
  simp only [isUuid, Bool.and_eq_true, List.all_eq_true] at h
  have hchar := h.2 (id.toList[i], i) (by simp [List.mem_zipIdx_iff_getElem?, hi])
  generalize id.toList[i] = c at hchar
  dsimp only at hchar
  split at hchar
  · rw [beq_iff_eq.mp hchar]; decide
  · -- the three ranges of digits start after the blank and end before U+0080
    simp only [Bool.or_eq_true, Bool.and_eq_true, decide_eq_true_eq, Char.le_def,
      UInt32.le_iff_toNat_le] at hchar
    have hlow : 0x30 ≤ c.toNat ∧ c.toNat ≤ 0x66 := by
      show 0x30 ≤ c.val.toNat ∧ c.val.toNat ≤ 0x66
      have h0 : ('0' : Char).val.toNat = 0x30 := rfl
      have h9 : ('9' : Char).val.toNat = 0x39 := rfl
      have ha : ('a' : Char).val.toNat = 0x61 := rfl
      have hf : ('f' : Char).val.toNat = 0x66 := rfl
      have hA : ('A' : Char).val.toNat = 0x41 := rfl
      have hF : ('F' : Char).val.toNat = 0x46 := rfl
      omega
    simp only [Js.isWhiteSpace, Bool.or_eq_false_iff, Bool.and_eq_false_iff,
      decide_eq_false_iff_not, beq_eq_false_iff_ne]
    omega

/-- Trimming a UUID changes nothing. -/
theorem trim_of_isUuid {id : Id} (h : isUuid id = true) : Js.trim id = id :=
  Js.trim_eq_self (isWhiteSpace_of_isUuid h)

theorem ne_empty_of_isUuid {id : Id} (h : isUuid id = true) : id ≠ "" := by
  rintro rfl
  exact absurd h (by decide)

/-- `operation_jobs.type`: the `type` literals of `dockerActionSchema`. -/
inductive JobType
  | hostCheck | hostSync | hostMkdir
  | gitClone | gitPull | gitTestRemote | gitCloneDeploy
  | deployAnalyze | deployExecute | hostConfigureRegistryTrust
  | containerRun | containerClone | containerStart | containerStop | containerRestart
  | containerRename | containerUpdate | containerRemove
  | imagePull | imageRemove | imagePrune | imageCleanup
  | networkCreate | networkRemove | networkPrune
  | volumeCreate | volumeRemove | volumePrune
  | volumeBackup | volumeRestore | volumeClone | hostPathBackup | hostPathRestore
  | backupVerify | backupDrill
  | recoveryCreate | recoveryCapture | recoveryVerify | recoveryRestore | migrationExecute
  | composeDeployPath | composeWriteDeployPath | composeDeploy | composeStop | composeRemove
  | registryLogin | systemSelfUpdate
  deriving DecidableEq, Repr

/-- `imageCleanupTargetSchema`. -/
structure ImageCleanupTarget where
  imageId : String
  reference : Option String
  deriving DecidableEq, Repr

/-- The payloads of `dockerActionSchema`, one constructor for each `type`. -/
inductive ActionPayload
  | hostCheck
  | hostSync
  | hostMkdir (path : String)
  | gitClone (directory : String)
  | gitPull (directory : String)
  | gitTestRemote
  | gitCloneDeploy (directory projectName : String)
  | deployAnalyze (analysisId : Id)
  | deployExecute (analysisId : Id)
  | hostConfigureRegistryTrust (registry : String)
  | containerRun (image : String) (name network : Option String) (volumes : List String)
  | containerClone (targetHostId : Id) (containerId : String) (targetName : Option String)
  | containerStart (containerId : String)
  | containerStop (containerId : String)
  | containerRestart (containerId : String)
  | containerRename (containerId name : String)
  | containerUpdate (containerId : String) (targetImage : Option String)
  | containerRemove (containerId : String)
  | imagePull (image : String)
  | imageRemove (imageId : String)
  | imagePrune
  | imageCleanup (targets : List ImageCleanupTarget)
  | networkCreate (name : String)
  | networkRemove (networkId : String)
  | networkPrune
  | volumeCreate (name : String)
  | volumeRemove (volumeName : String)
  | volumePrune
  | volumeBackup (backupId : Id) (volumeName : String)
  | volumeRestore (backupId : Id) (targetVolumeName : String)
  | volumeClone (backupId : Option Id) (targetHostId : Id)
      (sourceVolumeName targetVolumeName : String)
  | hostPathBackup (backupId : Id) (sourcePath : String)
  | hostPathRestore (backupId : Id) (targetPath : String)
  | backupVerify (backupId : Id)
  | backupDrill (backupId : Id)
  | recoveryCreate (recoveryPointId : Id)
  | recoveryCapture (recoveryPointId : Id)
  | recoveryVerify (recoveryPointId : Id)
  | recoveryRestore (recoveryPointId : Id) (drill : Bool)
  | migrationExecute (migrationRunId : Id)
  | composeDeployPath (workingDir projectName : String)
  | composeWriteDeployPath (workingDir projectName : String)
  | composeDeploy (stackId : Id)
  | composeStop (stackId : Id)
  | composeRemove (stackId : Id)
  | registryLogin (registryId : Id)
  | systemSelfUpdate
  deriving DecidableEq, Repr

namespace ActionPayload

/-- The discriminant `type` of a payload. -/
def type : ActionPayload → JobType
  | hostCheck => .hostCheck
  | hostSync => .hostSync
  | hostMkdir _ => .hostMkdir
  | gitClone _ => .gitClone
  | gitPull _ => .gitPull
  | gitTestRemote => .gitTestRemote
  | gitCloneDeploy _ _ => .gitCloneDeploy
  | deployAnalyze _ => .deployAnalyze
  | deployExecute _ => .deployExecute
  | hostConfigureRegistryTrust _ => .hostConfigureRegistryTrust
  | containerRun _ _ _ _ => .containerRun
  | containerClone _ _ _ => .containerClone
  | containerStart _ => .containerStart
  | containerStop _ => .containerStop
  | containerRestart _ => .containerRestart
  | containerRename _ _ => .containerRename
  | containerUpdate _ _ => .containerUpdate
  | containerRemove _ => .containerRemove
  | imagePull _ => .imagePull
  | imageRemove _ => .imageRemove
  | imagePrune => .imagePrune
  | imageCleanup _ => .imageCleanup
  | networkCreate _ => .networkCreate
  | networkRemove _ => .networkRemove
  | networkPrune => .networkPrune
  | volumeCreate _ => .volumeCreate
  | volumeRemove _ => .volumeRemove
  | volumePrune => .volumePrune
  | volumeBackup _ _ => .volumeBackup
  | volumeRestore _ _ => .volumeRestore
  | volumeClone _ _ _ _ => .volumeClone
  | hostPathBackup _ _ => .hostPathBackup
  | hostPathRestore _ _ => .hostPathRestore
  | backupVerify _ => .backupVerify
  | backupDrill _ => .backupDrill
  | recoveryCreate _ => .recoveryCreate
  | recoveryCapture _ => .recoveryCapture
  | recoveryVerify _ => .recoveryVerify
  | recoveryRestore _ _ => .recoveryRestore
  | migrationExecute _ => .migrationExecute
  | composeDeployPath _ _ => .composeDeployPath
  | composeWriteDeployPath _ _ => .composeWriteDeployPath
  | composeDeploy _ => .composeDeploy
  | composeStop _ => .composeStop
  | composeRemove _ => .composeRemove
  | registryLogin _ => .registryLogin
  | systemSelfUpdate => .systemSelfUpdate

/-- `payload->>'targetHostId'`: the second host of the two clone actions. -/
def targetHostId : ActionPayload → Option Id
  | containerClone host _ _ => some host
  | volumeClone _ host _ _ => some host
  | _ => none

end ActionPayload

/-- `DockerActionRequest`: an action `dockerActionSchema` has parsed, so that its host ids are
    UUIDs, spelled as the caller spelled them. -/
structure DockerActionRequest where
  hostId : Id
  payload : ActionPayload
  hostId_isUuid : isUuid hostId = true
  targetHostId_isUuid : payload.targetHostId.all isUuid = true
  deriving DecidableEq, Repr

/-- The `type` of a request. -/
def DockerActionRequest.type (action : DockerActionRequest) : JobType := action.payload.type

end ComposeBastion
