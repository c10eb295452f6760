import ComposeBastion.Backup.TargetNormal

namespace ComposeBastion

open Js

/-!
# Where a target keeps an object

A backup names its object by a key.  Where that object is read depends on the row of the target at
the time of the reading, so a target that is referenced must not be changed in a way that moves its
objects.  `services/backupTargetLifecycle.ts` compares an identity that it computes from the row;
`toWorkerBackupTarget` and `buildRcloneObjectPath` compute the place.

* `storagePlace` — the place of a key, as the worker computes it;
* `backupTargetStorageIdentity` — what is compared while there are references;
* `backupTargetOrphanCleanupBinding` — what is compared while there are orphans;
* `storagePlace_eq_of_identity` — rows of equal identity keep every key at the same place.
-/

/-! ### Texts -/

/-- `nullableText`. -/
def nullableText (value : Option String) : Option String := value.filter (· ≠ "")

/-- `cleanRemotePath`: the path without slashes around it. -/
def cleanRemotePath (path : String) : String :=
  stripTrailingSlashes (String.ofList (path.toList.dropWhile (· = '/')))

/-- `text.replace(/\r\n/g, "\n")`. -/
def unixLines : List Char → List Char
  | [] => []
  | '\r' :: '\n' :: rest => '\n' :: unixLines rest
  | c :: rest => c :: unixLines rest

/-- `text.replace(/\r\n/g, "\n").trimEnd()`. -/
def normalizedText (text : String) : String :=
  String.ofList ((unixLines text.toList).reverse.dropWhile isWhiteSpace).reverse

/-- `normalizedRemotePath`. -/
def normalizedRemotePath (value : Option String) : Option String :=
  (nullableText value).map cleanRemotePath

/-! ### The binding of orphan cleanup -/

/-- What the cleanup of an orphan is done with; `σ` is how secrets are told apart. -/
structure CleanupBinding (σ : Type) where
  kind : TargetKind
  config : TargetConfig
  provider : Option RcloneProvider
  remotePath : Option String
  accessKeyId : Option String
  secretAccessKey : Option σ
  genericConfig : Option σ
  genericCredentials : Option σ
  deriving DecidableEq

/-- `backupTargetOrphanCleanupBinding`: secrets are compared as they are stored. -/
def backupTargetOrphanCleanupBinding (row : BackupTargetRow) : CleanupBinding String where
  kind := row.kind
  config := row.config
  provider := row.provider
  remotePath := nullableText row.remotePath
  accessKeyId := nullableText row.accessKeyId
  secretAccessKey := nullableText row.secretAccessKeyEncrypted
  genericConfig := nullableText row.genericConfigEncrypted
  genericCredentials := nullableText row.genericCredentialsEncrypted

/-- The same binding with other secrets. -/
def CleanupBinding.map {σ τ : Type} (f : σ → τ) (binding : CleanupBinding σ) : CleanupBinding τ where
  kind := binding.kind
  config := binding.config
  provider := binding.provider
  remotePath := binding.remotePath
  accessKeyId := binding.accessKeyId
  secretAccessKey := binding.secretAccessKey.map f
  genericConfig := binding.genericConfig.map f
  genericCredentials := binding.genericCredentials.map f

section Runtime

variable [TargetRuntime]

/-- A decrypted secret; nothing is known of one that does not decrypt. -/
def decrypted (secret : String) : Option String := (decryptSecret secret).toOption

/-- The storage configuration and the credentials of a target. -/
def storageBinding (row : BackupTargetRow) : CleanupBinding (Option String) :=
  (backupTargetOrphanCleanupBinding row).map decrypted

/-! ### The identity of storage -/

/-- `normalizedS3Endpoint`. -/
def normalizedS3Endpoint (value : Option String) : Option String :=
  (nullableText value).map fun endpoint =>
    match parseUrl endpoint with
    | some url => url.endpoint
    | none => stripTrailingSlashes endpoint

/-- `normalizedRcloneConfig`. -/
def normalizedRcloneConfig (row : BackupTargetRow) : Except String (Option String) :=
  match nullableText row.genericConfigEncrypted with
  | none => .ok none
  | some secret => do
    let text ← decryptSecret secret
    return some (normalizedText text)

/-- What `backupTargetStorageIdentity` returns. -/
inductive StorageIdentity where
  | «local»
  | s3 (endpoint bucket keyPrefix : Option String)
  | rclone (provider : Option RcloneProvider) (remoteName remotePath : Option String)
      (providerConfig : TargetConfig) (importedConfig : Option String)
  deriving DecidableEq

omit [TargetRuntime] in
/-- The settings of a share that tell where it is. -/
def SmbConfig.storage (smb : SmbConfig) : SmbConfig :=
  { smb with domain := .absent, username := .absent }

omit [TargetRuntime] in
/-- `providerConfig`. -/
def TargetConfig.providerConfig (config : TargetConfig) : TargetConfig :=
  { config with
      provider := .absent
      remoteName := .absent
      remotePath := .absent
      smb := config.smb.map SmbConfig.storage }

/-- `backupTargetStorageIdentity`. -/
def backupTargetStorageIdentity (row : BackupTargetRow) : Except String StorageIdentity :=
  match row.kind with
  | .local => .ok .local
  | .s3 =>
    .ok (.s3 (normalizedS3Endpoint row.config.endpoint.toOption)
      (nullableText row.config.bucket.toOption)
      (normalizedRemotePath row.config.keyPrefix.toOption))
  | .rclone => do
    let imported ← normalizedRcloneConfig row
    return .rclone row.storedProvider (nullableText row.config.remoteName.toOption)
      (normalizedRemotePath (row.remotePath.or row.config.remotePath.toOption))
      row.config.providerConfig imported

/-! ### The place of a key -/

/-- `WorkerBackupTarget.rclone` with the settings of the share. -/
structure RcloneTarget where
  provider : RcloneProvider
  remoteName : String
  remotePath : String
  configText : Option String
  smb : Option SmbConfig

omit [TargetRuntime] in
/-- The settings of the share that the worker uses, and the path in it. -/
def smbTarget (row : BackupTargetRow) (smb : SmbConfig) : Except String (SmbConfig × String) :=
  let message := "SMB target path does not match its configured share and subpath"
  let stored := row.remotePath.toList ++ row.config.remotePath.toOption.toList
  match emptyToNull smb.server.toOption, smb.share.toOption with
  | none, _ => .error "SMB server is required"
  | some _, none => .error "SMB share must be a string"
  | some _, some share => do
    let share ← requireSafe smbShareIssue share
    let configured ← requireSafeSmbSubPath smb.subPath.toOption
    if stored.any fun path => stored.any (· ≠ path) then
      .error "SMB target has conflicting stored paths"
    else do
      -- a path that was stored before subpaths were settings of their own
      let subPath ← (match configured, stored.head? with
        | none, some path =>
          if path = "" || path = share then .ok none
          else if startsWith path (share ++ "/") then
            requireSafeSmbSubPath (some (dropChars (share ++ "/").length path))
          else .error message
        | _, _ => .ok configured)
      if stored.any (· ≠ buildSmbRemotePath share subPath) then .error message
      else
        return ({ smb with
          subPath := match configured, subPath with
            | none, some path => .value path
            | _, _ => smb.subPath }, buildSmbRemotePath share subPath)

/-- The rclone part of `toWorkerBackupTarget`, without the credentials. -/
def rcloneTarget (row : BackupTargetRow) : Except String RcloneTarget :=
  if row.provider.any fun provider => row.config.provider.toOption.any (· ≠ provider) then
    .error "Stored rclone provider does not match config.provider"
  else do
    let provider := row.storedProvider.getD .custom
    let remoteName ← requireSafe rcloneRemoteNameIssue
      (row.config.remoteName.toOption.getD "composebastion")
    if provider = .smb then
      if truthy row.genericConfigEncrypted then
        .error "SMB targets do not accept imported rclone config"
      else match row.config.smb with
        | none => .error "SMB target is missing its connection settings"
        | some smb => do
          let target ← smbTarget row smb
          return ⟨provider, remoteName, target.2, none, some target.1⟩
    else
      let remotePath := (row.remotePath.or row.config.remotePath.toOption).getD ""
      match nullableText row.genericConfigEncrypted with
      | none => return ⟨provider, remoteName, remotePath, none, row.config.smb⟩
      | some secret => do
        let text ← decryptSecret secret
        return ⟨provider, remoteName, remotePath, some text, row.config.smb⟩

/-- `assertRcloneTargetConfinement`, for the settings of a share. -/
def assertRcloneTargetConfinement (target : RcloneTarget) : Except String Unit := do
  let _ ← requireSafe rcloneRemoteNameIssue target.remoteName
  if target.provider ≠ .smb then return ()
  else if target.configText.isSome then .error "SMB targets cannot use an imported rclone config"
  else match target.smb with
    | none => .error "SMB connection settings are missing"
    | some smb =>
      if (emptyToNull smb.server.toOption).isNone then .error "SMB server is required"
      else match smb.share.toOption with
        | none => .error "SMB share must be a string"
        | some share => do
          let _ ← requireSafe smbShareIssue share
          let _ ← requireSafe smbSubPathIssue (smb.subPath.toOption.getD "")
          if target.remotePath ≠ buildSmbRemotePath share smb.subPath.toOption then
            .error "SMB remote path does not match its configured share and subpath"
          else return ()

/-- `buildRcloneObjectPath`. -/
def buildRcloneObjectPath (target : RcloneTarget) (objectKey : String) : Except String String := do
  assertRcloneTargetConfinement target
  if target.provider = .smb then
    if objectKey = "" then .error "SMB object key is required"
    else do
      let objectKey ← requireSafe smbSubPathIssue objectKey
      return target.remoteName ++ ":" ++ target.remotePath ++ "/" ++ objectKey
  else
    let parts := [cleanRemotePath target.remotePath, cleanRemotePath objectKey].filter (· ≠ "")
    return target.remoteName ++ ":" ++ "/".intercalate parts

/-- `parseS3Config`, as far as it tells the place of an object. -/
def parseS3Config (config : TargetConfig) : Except String (String × String) :=
  match nullableText config.endpoint.toOption, nullableText config.bucket.toOption with
  | some endpoint, some bucket => .ok (endpoint, bucket)
  | _, _ => .error "S3 backup target is missing endpoint or bucket"

/-- Where an object is read: for rclone the remote, as its name, the server of the share and the
    imported configuration up to line endings and trailing blanks, and the path. -/
inductive StoragePlace where
  | «local»
  | s3 (endpoint bucket : String)
  | rclone (remoteName : String) (server : Field String) (port : Field ℕ)
      (importedConfig : Option String) (path : String)
  deriving DecidableEq

/-- The place of a key under the row of its target. -/
def storagePlace (row : BackupTargetRow) (objectKey : String) : Except String StoragePlace :=
  match row.kind with
  | .local => .ok .local
  | .s3 => do
    let location ← parseS3Config row.config
    return .s3 location.1 location.2
  | .rclone => do
    let target ← rcloneTarget row
    let path ← buildRcloneObjectPath target objectKey
    return .rclone target.remoteName ((target.smb.map (·.server)).getD .absent)
      ((target.smb.map (·.port)).getD .absent) (target.configText.map normalizedText) path

/-! ### Equal identities, equal places -/

omit [TargetRuntime] in
@[simp] theorem nullableText_of_ne {text : String} (h : text ≠ "") :
    nullableText (some text) = some text := by
  simp [nullableText, h]

omit [TargetRuntime] in
@[simp] theorem nullableText_empty : nullableText (some "") = none := rfl

/-- For an endpoint that the schema has rewritten, the identity has the endpoint itself. -/
theorem normalizedS3Endpoint_eq {endpoint : String} (h : IsS3Endpoint endpoint) :
    normalizedS3Endpoint (some endpoint) = nullableText (some endpoint) := by
  obtain ⟨url, hurl, hendpoint⟩ := h.parse
  by_cases hempty : endpoint = ""
  · rw [hempty]
    rfl
  · simp [normalizedS3Endpoint, hempty, hurl, hendpoint]

omit [TargetRuntime] in
/-- Paths of one identity are the same path in the remote. -/
theorem cleanRemotePath_eq_of_normalized {path path' : String}
    (h : normalizedRemotePath (some path) = normalizedRemotePath (some path')) :
    cleanRemotePath path = cleanRemotePath path' := by
  unfold normalizedRemotePath at h
  by_cases hempty : path = "" <;> by_cases hempty' : path' = ""
  · rw [hempty, hempty']
  · simp [hempty, hempty'] at h
  · simp [hempty, hempty'] at h
  · simpa [hempty, hempty'] using h

theorem ne_empty_of_safeName {name : String} (h : rcloneRemoteNameIssue name = none) :
    name ≠ "" := by
  rintro rfl
  simp [rcloneRemoteNameIssue, codeUnits] at h

section Rclone

variable {row : BackupTargetRow} {provider : RcloneProvider} {remoteName remotePath : String}

omit [TargetRuntime] in
theorem BackupTargetRow.storedProvider_eq (h : row.provider = some provider) :
    row.storedProvider = some provider := by
  simp [BackupTargetRow.storedProvider, h]

/-- The imported configuration of a row, as it is stored. -/
def importedText (row : BackupTargetRow) : Except String (Option String) :=
  match nullableText row.genericConfigEncrypted with
  | none => .ok none
  | some secret => (decryptSecret secret).map some

theorem normalizedRcloneConfig_eq (row : BackupTargetRow) :
    normalizedRcloneConfig row = (importedText row).map (Option.map normalizedText) := by
  unfold normalizedRcloneConfig importedText
  split
  · rfl
  next secret _ => cases decryptSecret secret <;> rfl

/-- The worker's view of a target whose configuration was imported. -/
theorem rcloneTarget_imported (h : row.RcloneNormal provider remoteName remotePath)
    (hother : provider ≠ .smb) :
    rcloneTarget row = (importedText row).map fun text =>
      ⟨provider, remoteName, remotePath, text, row.config.smb⟩ := by
  have hsafe : requireSafe rcloneRemoteNameIssue remoteName = .ok remoteName :=
    requireSafe_eq_ok.mpr ⟨h.safeName, rfl⟩
  simp only [rcloneTarget, BackupTargetRow.storedProvider_eq h.provider_eq, h.provider_eq,
    h.configProvider, h.configName, h.path, Field.toOption_value, Option.any_some, Option.getD_some,
    Option.some_or, ne_eq, not_true_eq_false, decide_false, Bool.false_eq_true, if_false, hother,
    hsafe, ok_bind, importedText]
  cases nullableText row.genericConfigEncrypted with
  | none => rfl
  | some secret =>
    show (decryptSecret secret >>= fun text => (.ok _ : Except String RcloneTarget)) =
      ((decryptSecret secret).map some).map _
    cases decryptSecret secret <;> rfl

omit [TargetRuntime] in
/-- The stored path of a normal share is the one its settings give. -/
theorem smbTarget_normal {smb : SmbConfig} (hpath : row.remotePath = some remotePath)
    (hconfig : row.config.remotePath = .value remotePath) (h : smb.Normal remotePath) :
    smbTarget row smb = .ok (smb, remotePath) := by
  obtain ⟨server, hserver, hempty⟩ := h.server
  obtain ⟨share, hshare, hissue, hbuilt⟩ := h.share
  have hsafe : requireSafe smbShareIssue share = .ok share := requireSafe_eq_ok.mpr ⟨hissue, rfl⟩
  simp only [smbTarget, hserver, hempty, hshare, Field.toOption_value, hsafe, h.subPath, hpath,
    hconfig, Option.toList_some, List.singleton_append, ok_bind]
  cases hsub : smb.subPath.toOption with
  | none =>
    have hshared : remotePath = share := by
      rw [hbuilt, hsub]
      rfl
    subst hshared
    simp only [buildSmbRemotePath, ok_bind, decide_true, Bool.or_true, if_true, List.any_cons,
      List.any_nil, ne_eq, not_true_eq_false, decide_false, Bool.or_false, Bool.false_eq_true,
      if_false, List.head?_cons, ← hserver, ← hshare]
    rfl
  | some subPath =>
    rw [hsub] at hbuilt
    simp only [← hbuilt, ok_bind, List.any_cons, List.any_nil, ne_eq, not_true_eq_false,
      decide_false, Bool.or_false, Bool.false_eq_true, if_false, ← hserver, ← hshare]
    rfl

/-- The worker's view of a share. -/
theorem rcloneTarget_smb {smb : SmbConfig} (h : row.RcloneNormal .smb remoteName remotePath)
    (hsmb : row.config.smb = some smb) :
    rcloneTarget row = .ok ⟨.smb, remoteName, remotePath, none, some smb⟩ := by
  obtain ⟨hgeneric, stored, hstored, hnormal⟩ := h.smb rfl
  obtain rfl : stored = smb := Option.some.inj (hstored.symm.trans hsmb)
  have hsafe : requireSafe rcloneRemoteNameIssue remoteName = .ok remoteName :=
    requireSafe_eq_ok.mpr ⟨h.safeName, rfl⟩
  simp only [rcloneTarget, BackupTargetRow.storedProvider_eq h.provider_eq, h.provider_eq,
    h.configProvider, h.configName, Field.toOption_value, Option.any_some, Option.getD_some,
    ne_eq, not_true_eq_false, decide_false, Bool.false_eq_true, if_false, if_true, hsafe, ok_bind,
    hgeneric, truthy, Option.any_none, hsmb, smbTarget_normal h.path h.configPath hnormal]
  rfl

/-- A share passes its own check. -/
theorem assertRcloneTargetConfinement_smb {smb : SmbConfig}
    (hname : rcloneRemoteNameIssue remoteName = none) (h : smb.Normal remotePath) :
    assertRcloneTargetConfinement ⟨.smb, remoteName, remotePath, none, some smb⟩ = .ok () := by
  obtain ⟨server, hserver, hempty⟩ := h.server
  obtain ⟨share, hshare, hissue, hbuilt⟩ := h.share
  have hsafeName : requireSafe rcloneRemoteNameIssue remoteName = .ok remoteName :=
    requireSafe_eq_ok.mpr ⟨hname, rfl⟩
  have hsafe : requireSafe smbShareIssue share = .ok share := requireSafe_eq_ok.mpr ⟨hissue, rfl⟩
  have hsub : requireSafe smbSubPathIssue (smb.subPath.toOption.getD "") =
      .ok (smb.subPath.toOption.getD "") := by
    have hstored := h.subPath
    cases hsub : smb.subPath.toOption with
    | none => rfl
    | some subPath =>
      rw [hsub] at hstored
      exact requireSafe_eq_ok.mpr ⟨(requireSafeSmbSubPath_eq_some hstored).2, rfl⟩
  simp only [assertRcloneTargetConfinement, hsafeName, ok_bind, ne_eq, not_true_eq_false, if_false,
    Option.isSome_none, Bool.false_eq_true, hserver, Field.toOption_value, hempty,
    Option.isNone_some, hshare, hsafe, hsub, ← hbuilt]
  rfl

/-- The place of a key in a share. -/
theorem storagePlace_smb {smb : SmbConfig} (hkind : row.kind = .rclone)
    (h : row.RcloneNormal .smb remoteName remotePath) (hsmb : row.config.smb = some smb)
    (objectKey : String) :
    storagePlace row objectKey =
      (if objectKey = "" then .error "SMB object key is required"
        else requireSafe smbSubPathIssue objectKey).map fun key =>
          .rclone remoteName smb.server smb.port none
            (remoteName ++ ":" ++ remotePath ++ "/" ++ key) := by
  obtain ⟨-, stored, hstored, hnormal⟩ := h.smb rfl
  obtain rfl : stored = smb := Option.some.inj (hstored.symm.trans hsmb)
  simp only [storagePlace, hkind, rcloneTarget_smb h hsmb, ok_bind, buildRcloneObjectPath,
    assertRcloneTargetConfinement_smb h.safeName hnormal, if_true]
  split
  · rfl
  · cases requireSafe smbSubPathIssue objectKey <;> rfl

/-- The place of a key under an imported configuration. -/
theorem storagePlace_imported (hkind : row.kind = .rclone)
    (h : row.RcloneNormal provider remoteName remotePath) (hother : provider ≠ .smb)
    (objectKey : String) :
    storagePlace row objectKey = (importedText row).map fun text =>
      .rclone remoteName ((row.config.smb.map (·.server)).getD .absent)
        ((row.config.smb.map (·.port)).getD .absent) (text.map normalizedText)
        (remoteName ++ ":" ++ "/".intercalate
          ([cleanRemotePath remotePath, cleanRemotePath objectKey].filter (· ≠ ""))) := by
  have hsafe : requireSafe rcloneRemoteNameIssue remoteName = .ok remoteName :=
    requireSafe_eq_ok.mpr ⟨h.safeName, rfl⟩
  simp only [storagePlace, hkind, rcloneTarget_imported h hother]
  cases importedText row with
  | error message => rfl
  | ok text =>
    simp only [Except.map, ok_bind, buildRcloneObjectPath, assertRcloneTargetConfinement, hsafe,
      hother, ne_eq, not_false_eq_true, if_true, if_false]
    rfl

end Rclone

/-! ### Reading an identity back -/

section Identity

variable {row row' : BackupTargetRow}

theorem kind_of_identity_local (h : backupTargetStorageIdentity row = .ok .local) :
    row.kind = .local := by
  cases hkind : row.kind with
  | «local» => rfl
  | s3 =>
    simp only [backupTargetStorageIdentity, hkind] at h
    cases h
  | rclone =>
    simp only [backupTargetStorageIdentity, hkind] at h
    obtain ⟨imported, -, h⟩ := bind_eq_ok.mp h
    cases h

theorem of_identity_s3 {endpoint bucket keyPrefix : Option String}
    (h : backupTargetStorageIdentity row = .ok (.s3 endpoint bucket keyPrefix)) :
    row.kind = .s3 ∧ normalizedS3Endpoint row.config.endpoint.toOption = endpoint ∧
      nullableText row.config.bucket.toOption = bucket := by
  cases hkind : row.kind with
  | «local» =>
    simp only [backupTargetStorageIdentity, hkind] at h
    cases h
  | s3 =>
    simp only [backupTargetStorageIdentity, hkind] at h
    obtain ⟨hendpoint, hbucket, -⟩ := StorageIdentity.s3.inj (Except.ok.inj h)
    exact ⟨rfl, hendpoint, hbucket⟩
  | rclone =>
    simp only [backupTargetStorageIdentity, hkind] at h
    obtain ⟨imported, -, h⟩ := bind_eq_ok.mp h
    cases h

/-- What the identity of an rclone target tells of a normal row. -/
structure RcloneIdentity (row : BackupTargetRow) (provider : RcloneProvider)
    (remoteName remotePath : String) (storedName path : Option String) (config : TargetConfig)
    (imported : Option String) : Prop where
  name : nullableText (some remoteName) = storedName
  path_eq : normalizedRemotePath (some remotePath) = path
  config_eq : row.config.providerConfig = config
  imported_eq : ∃ text, importedText row = .ok text ∧ text.map normalizedText = imported

theorem of_identity_rclone {stored : Option RcloneProvider} {storedName path imported : Option String}
    {config : TargetConfig} (hnormal : row.Normal)
    (h : backupTargetStorageIdentity row = .ok (.rclone stored storedName path config imported)) :
    row.kind = .rclone ∧ ∃ provider remoteName remotePath,
      row.RcloneNormal provider remoteName remotePath ∧ stored = some provider ∧
        RcloneIdentity row provider remoteName remotePath storedName path config imported := by
  cases hkind : row.kind with
  | «local» =>
    simp only [backupTargetStorageIdentity, hkind] at h
    cases h
  | s3 =>
    simp only [backupTargetStorageIdentity, hkind] at h
    cases h
  | rclone =>
    simp only [BackupTargetRow.Normal, hkind] at hnormal
    simp only [backupTargetStorageIdentity, hkind] at h
    obtain ⟨provider, remoteName, remotePath, hrow⟩ := hnormal
    obtain ⟨text, htext, h⟩ := bind_eq_ok.mp h
    obtain ⟨hprovider, hname, hpath, hconfig, rfl⟩ := StorageIdentity.rclone.inj (Except.ok.inj h)
    rw [BackupTargetRow.storedProvider_eq hrow.provider_eq] at hprovider
    rw [hrow.configName] at hname
    rw [hrow.path] at hpath
    refine ⟨rfl, provider, remoteName, remotePath, hrow, hprovider.symm, hname, hpath, hconfig, ?_⟩
    rw [normalizedRcloneConfig_eq] at htext
    cases himported : importedText row with
    | error message =>
      rw [himported] at htext
      cases htext
    | ok text =>
      rw [himported] at htext
      exact ⟨text, rfl, Except.ok.inj htext⟩

omit [TargetRuntime] in
/-- Configurations of one identity agree on everything that locates a share. -/
theorem smb_storage_eq (h : row.config.providerConfig = row'.config.providerConfig) :
    row.config.smb.map SmbConfig.storage = row'.config.smb.map SmbConfig.storage :=
  congrArg TargetConfig.smb h

/-- Normal S3 targets of one identity have one endpoint and one bucket. -/
theorem parseS3Config_eq_of_identity (h : row.config.S3Normal) (h' : row'.config.S3Normal)
    (hendpoint : normalizedS3Endpoint row.config.endpoint.toOption =
      normalizedS3Endpoint row'.config.endpoint.toOption)
    (hbucket : nullableText row.config.bucket.toOption = nullableText row'.config.bucket.toOption) :
    parseS3Config row.config = parseS3Config row'.config := by
  obtain ⟨endpoint, hstored, hschema⟩ := h.endpoint
  obtain ⟨endpoint', hstored', hschema'⟩ := h'.endpoint
  rw [hstored, hstored', Field.toOption_value, Field.toOption_value, normalizedS3Endpoint_eq hschema,
    normalizedS3Endpoint_eq hschema'] at hendpoint
  unfold parseS3Config
  rw [hstored, hstored', Field.toOption_value, Field.toOption_value, hendpoint, hbucket]

/-- Normal rclone targets of one identity keep every key at the same place. -/
theorem storagePlace_eq_of_rcloneIdentity {provider : RcloneProvider}
    {remoteName remoteName' remotePath remotePath' : String} {storedName path imported : Option String}
    {config : TargetConfig} (hkind : row.kind = .rclone) (hkind' : row'.kind = .rclone)
    (hrow : row.RcloneNormal provider remoteName remotePath)
    (hrow' : row'.RcloneNormal provider remoteName' remotePath')
    (h : RcloneIdentity row provider remoteName remotePath storedName path config imported)
    (h' : RcloneIdentity row' provider remoteName' remotePath' storedName path config imported)
    (objectKey : String) : storagePlace row objectKey = storagePlace row' objectKey := by
  have hname : remoteName = remoteName' := by
    have hsame := h.name.trans h'.name.symm
    rw [nullableText_of_ne (ne_empty_of_safeName hrow.safeName),
      nullableText_of_ne (ne_empty_of_safeName hrow'.safeName)] at hsame
    exact Option.some.inj hsame
  have hsmb := smb_storage_eq (h.config_eq.trans h'.config_eq.symm)
  subst hname
  by_cases hprovider : provider = .smb
  · -- a share: the path is made of settings that are part of the identity
    subst hprovider
    obtain ⟨-, smb, hstored, hnormal⟩ := hrow.smb rfl
    obtain ⟨-, smb', hstored', hnormal'⟩ := hrow'.smb rfl
    rw [hstored, hstored', Option.map_some, Option.map_some] at hsmb
    have hstorage := Option.some.inj hsmb
    obtain ⟨hserver, hshare, hsubPath, hport⟩ : smb.server = smb'.server ∧ smb.share = smb'.share ∧
        smb.subPath = smb'.subPath ∧ smb.port = smb'.port := by
      simpa [SmbConfig.storage] using hstorage
    obtain ⟨share, hvalue, -, hbuilt⟩ := hnormal.share
    obtain ⟨share', hvalue', -, hbuilt'⟩ := hnormal'.share
    obtain rfl : share = share' := Field.value.inj (hvalue.symm.trans (hshare.trans hvalue'))
    have hpath : remotePath = remotePath' := by rw [hbuilt, hbuilt', hsubPath]
    rw [storagePlace_smb hkind hrow hstored, storagePlace_smb hkind' hrow' hstored', hserver, hport,
      hpath]
  · -- an imported configuration: the path counts without the slashes around it
    obtain ⟨text, htext, himported⟩ := h.imported_eq
    obtain ⟨text', htext', himported'⟩ := h'.imported_eq
    have hpath := cleanRemotePath_eq_of_normalized (h.path_eq.trans h'.path_eq.symm)
    have hserver : row.config.smb.map (·.server) = row'.config.smb.map (·.server) := by
      have hmapped := congrArg (Option.map SmbConfig.server) hsmb
      rwa [Option.map_map, Option.map_map] at hmapped
    have hport : row.config.smb.map (·.port) = row'.config.smb.map (·.port) := by
      have hmapped := congrArg (Option.map SmbConfig.port) hsmb
      rwa [Option.map_map, Option.map_map] at hmapped
    rw [storagePlace_imported hkind hrow hprovider, storagePlace_imported hkind' hrow' hprovider,
      htext, htext', Except.map, Except.map, himported, himported', hpath, hserver, hport]

/-- **Identity fixes the place.** Two rows of the shape that is stored, with equal identities, keep
    the object of every key at the same place. -/
theorem storagePlace_eq_of_identity {identity : StorageIdentity} (h : row.Normal) (h' : row'.Normal)
    (hidentity : backupTargetStorageIdentity row = .ok identity)
    (hidentity' : backupTargetStorageIdentity row' = .ok identity) (objectKey : String) :
    storagePlace row objectKey = storagePlace row' objectKey := by
  cases identity with
  | «local» =>
    rw [storagePlace, storagePlace, kind_of_identity_local hidentity,
      kind_of_identity_local hidentity']
  | s3 endpoint bucket keyPrefix =>
    obtain ⟨hkind, hendpoint, hbucket⟩ := of_identity_s3 hidentity
    obtain ⟨hkind', hendpoint', hbucket'⟩ := of_identity_s3 hidentity'
    simp only [BackupTargetRow.Normal, hkind] at h
    simp only [BackupTargetRow.Normal, hkind'] at h'
    have hparsed := parseS3Config_eq_of_identity h h' (hendpoint.trans hendpoint'.symm)
      (hbucket.trans hbucket'.symm)
    simp only [storagePlace, hkind, hkind', hparsed]
  | rclone stored storedName path config imported =>
    obtain ⟨hkind, provider, remoteName, remotePath, hrow, rfl, hread⟩ :=
      of_identity_rclone h hidentity
    obtain ⟨hkind', provider', remoteName', remotePath', hrow', hsame, hread'⟩ :=
      of_identity_rclone h' hidentity'
    obtain rfl := Option.some.inj hsame
    exact storagePlace_eq_of_rcloneIdentity hkind hkind' hrow hrow' hread hread' objectKey

end Identity

end Runtime

end ComposeBastion
