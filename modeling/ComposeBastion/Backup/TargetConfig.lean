import ComposeBastion.Js.Record
import ComposeBastion.Js.Json

namespace ComposeBastion

open Js

/-!
# Backup targets

`services/recoveryBackupTargets.ts` with the schemas of `packages/shared/src/recoveryCenter.ts`:
the rows of `backup_targets` and the two functions that make them, one from the input of a
creation and one from a stored row and the input of an update.

* `TargetRuntime` — URL parsing, the Unicode tables and the secret cipher, as parameters;
* `TargetConfig`, `BackupTargetRow` — the stored JSON object and its row;
* `normalizeBackupTargetCreate`, `normalizeBackupTargetUpdate` — a new row, and the change of a
  stored one.
-/

/-! ### The runtime -/

/-- The parts of a parsed URL that are read. -/
structure Url where
  protocol : String
  hostname : String
  username : String
  password : String
  search : String
  hash : String
  origin : String
  pathname : String
  deriving DecidableEq, Repr

namespace Url

/-- The scheme is one of the two that S3 is spoken over. -/
def isHttp (url : Url) : Bool := url.protocol = "http:" || url.protocol = "https:"

/-- The origin and the path without the slashes at its end. -/
def endpoint (url : Url) : String :=
  url.origin ++ if url.pathname = "/" then "" else stripTrailingSlashes url.pathname

end Url

/-- What the functions use of Node: `new URL`, the classes `\p{L}` and `\p{N}`, and the secret
    cipher of the application under its own key.  The two laws are those of the URL standard: the
    scheme does not depend on blanks around the text, and what is written out of a parsed http URL
    parses to the same place. -/
class TargetRuntime where
  parseUrl : String → Option Url
  letterOrNumber : Char → Bool
  encryptSecret : ℕ → String → String
  decryptSecret : String → Except String String
  parseUrl_trim : ∀ {value url trimmed}, parseUrl value = some url →
    parseUrl (trim value) = some trimmed → trimmed.protocol = url.protocol
  parseUrl_endpoint : ∀ {value url}, parseUrl value = some url → url.isHttp = true →
    ∃ again, parseUrl url.endpoint = some again ∧ again.endpoint = url.endpoint

export TargetRuntime (parseUrl letterOrNumber encryptSecret decryptSecret)

/-! ### Stored configuration -/

/-- A property of a JSON object: it may be missing, or `null`. -/
inductive Field (α : Type) where
  | absent
  | null
  | value (a : α)
  deriving DecidableEq, Repr

namespace Field

variable {α : Type}

/-- `object.key ?? null`. -/
def toOption : Field α → Option α
  | .value a => some a
  | _ => none

/-- The object has the property. -/
def own : Field α → Bool
  | .absent => false
  | _ => true

/-- The property holds this value, or `null`. -/
def ofOption : Option α → Field α
  | some a => .value a
  | none => .null

/-- The property, or else that of the object spread before it. -/
def orElse : Field α → Field α → Field α
  | .absent, before => before
  | field, _ => field

/-- A property that is left out where there is nothing to say. -/
def ofDefined : Option α → Field α
  | some a => .value a
  | none => .absent

/-- `field === undefined ? old : field`. -/
def overwrite : Field α → Option α → Option α
  | .absent, old => old
  | field, _ => field.toOption

@[simp] theorem toOption_value (a : α) : (Field.value a).toOption = some a := rfl

@[simp] theorem toOption_ofOption (a : Option α) : (ofOption a).toOption = a := by
  cases a <;> rfl

end Field

/-- `kind` of a backup target. -/
inductive TargetKind where
  | «local»
  | s3
  | rclone
  deriving DecidableEq, Repr

/-- `rcloneProviderSchema`. -/
inductive RcloneProvider where
  | smb
  | drive
  | onedrive
  | iclouddrive
  | webdav
  | sftp
  | custom
  deriving DecidableEq, Repr

/-- `localCachePolicySchema`. -/
inductive CachePolicy where
  | keep
  | remoteOnly
  deriving DecidableEq, Repr

/-- `config.smb`. -/
structure SmbConfig where
  server : Field String
  share : Field String
  subPath : Field String
  domain : Field String
  username : Field String
  port : Field ℕ
  deriving DecidableEq, Repr

/-- `config`: the public settings of a target.  `keyPrefix` is the property `prefix`. -/
structure TargetConfig where
  endpoint : Field String
  bucket : Field String
  region : Field String
  keyPrefix : Field String
  pathStyle : Field Bool
  forcePathStyle : Field Bool
  provider : Field RcloneProvider
  remoteName : Field String
  remotePath : Field String
  smb : Option SmbConfig
  deriving DecidableEq, Repr

namespace TargetConfig

/-- `{}`. -/
def empty : TargetConfig :=
  ⟨.absent, .absent, .absent, .absent, .absent, .absent, .absent, .absent, .absent, none⟩

/-- `{ ...before, ...after }`. -/
def spread (before after : TargetConfig) : TargetConfig where
  endpoint := after.endpoint.orElse before.endpoint
  bucket := after.bucket.orElse before.bucket
  region := after.region.orElse before.region
  keyPrefix := after.keyPrefix.orElse before.keyPrefix
  pathStyle := after.pathStyle.orElse before.pathStyle
  forcePathStyle := after.forcePathStyle.orElse before.forcePathStyle
  provider := after.provider.orElse before.provider
  remoteName := after.remoteName.orElse before.remoteName
  remotePath := after.remotePath.orElse before.remotePath
  smb := after.smb.or before.smb

end TargetConfig

/-- `publicBackupTargetConfig`: the settings that belong to the kind. -/
def publicBackupTargetConfig : TargetKind → TargetConfig → TargetConfig
  | .s3, source =>
    { source with provider := .absent, remoteName := .absent, remotePath := .absent, smb := none }
  | .rclone, source =>
    { TargetConfig.empty with
        provider := source.provider
        remoteName := source.remoteName
        remotePath := source.remotePath
        smb := source.smb }
  | .local, _ => .empty

/-- A row of `backup_targets`, without the result of its last health check. -/
structure BackupTargetRow where
  id : String
  name : String
  kind : TargetKind
  enabled : Bool
  config : TargetConfig
  accessKeyId : Option String
  secretAccessKeyEncrypted : Option String
  provider : Option RcloneProvider
  remotePath : Option String
  localCachePolicy : CachePolicy
  genericConfigEncrypted : Option String
  genericCredentialsEncrypted : Option String
  deriving DecidableEq, Repr

/-! ### Safe names -/

/-- `containsAsciiControlCharacter`. -/
def containsAsciiControlCharacter (value : String) : Bool :=
  value.toList.any fun c => c.toNat ≤ 0x1f || c.toNat = 0x7f

/-- `smbShareIssue`. -/
def smbShareIssue (value : String) : Option String :=
  if codeUnits value < 1 || codeUnits value > 255 then
    some "SMB share must be between 1 and 255 characters"
  else if value ≠ trim value then
    some "SMB share must not start or end with whitespace"
  else if value = "." || value = ".." || containsAsciiControlCharacter value ||
      value.toList.any fun c => [':', '/', '\\'].contains c then
    some "SMB share must be a single safe share name"
  else
    none

/-- `smbSubPathIssue`. -/
def smbSubPathIssue (value : String) : Option String :=
  if codeUnits value > 512 then
    some "SMB subpath must not exceed 512 characters"
  else if value = "" then
    none
  else if value ≠ trim value then
    some "SMB subpath must not start or end with whitespace"
  else if containsAsciiControlCharacter value ||
      value.toList.any fun c => [':', '\\'].contains c then
    some "SMB subpath contains a reserved character"
  else if (value.toList.splitOn '/').any fun segment =>
      segment = [] || segment = ['.'] || segment = ['.', '.'] || segment ≠ trimChars segment then
    some "SMB subpath must contain only relative path segments"
  else
    none

/-- `requireSafeRcloneRemoteName` and `requireSafeSmbShare`: the value, unless there is an issue
    with it. -/
def requireSafe (issue : String → Option String) (value : String) : Except String String :=
  match issue value with
  | some message => .error message
  | none => .ok value

/-- `requireSafeSmbSubPath`. -/
def requireSafeSmbSubPath (value : Option String) : Except String (Option String) :=
  match value.filter (· ≠ "") with
  | none => .ok none
  | some subPath => (requireSafe smbSubPathIssue subPath).map some

/-- `buildSmbRemotePath`. -/
def buildSmbRemotePath (share : String) (subPath : Option String) : String :=
  match subPath with
  | some subPath => if subPath = "" then share else share ++ "/" ++ subPath
  | none => share

/-- `emptyToNull`. -/
def emptyToNull (value : Option String) : Option String := (value.map trim).filter (· ≠ "")

theorem requireSafe_eq_ok {issue : String → Option String} {value safe : String} :
    requireSafe issue value = .ok safe ↔ issue value = none ∧ value = safe := by
  unfold requireSafe
  split
  next message h => simp [h]
  next h => simp [h]

theorem issue_of_requireSafe {issue : String → Option String} {value safe : String}
    (h : requireSafe issue value = .ok safe) : issue safe = none := by
  obtain ⟨hissue, rfl⟩ := requireSafe_eq_ok.mp h
  exact hissue

theorem requireSafeSmbSubPath_eq_some {value : Option String} {subPath : String}
    (h : requireSafeSmbSubPath value = .ok (some subPath)) :
    subPath ≠ "" ∧ smbSubPathIssue subPath = none := by
  unfold requireSafeSmbSubPath at h
  split at h
  · cases h
  next path hpath =>
    cases hsafe : requireSafe smbSubPathIssue path with
    | error message =>
      rw [hsafe] at h
      cases h
    | ok safe =>
      obtain ⟨hissue, rfl⟩ := requireSafe_eq_ok.mp hsafe
      rw [hsafe] at h
      obtain rfl := Option.some.inj (Except.ok.inj h)
      exact ⟨by simpa using (Option.filter_eq_some_iff.mp hpath).2, hissue⟩

/-- A subpath that was accepted is accepted again. -/
theorem requireSafeSmbSubPath_idem {value subPath : Option String}
    (h : requireSafeSmbSubPath value = .ok subPath) : requireSafeSmbSubPath subPath = .ok subPath := by
  cases subPath with
  | none => rfl
  | some subPath =>
    obtain ⟨hne, hissue⟩ := requireSafeSmbSubPath_eq_some h
    simp [requireSafeSmbSubPath, Option.filter, hne, requireSafe, hissue, Except.map]

/-- A text that is left stays as it is. -/
theorem emptyToNull_idem {value : Option String} {text : String} (h : emptyToNull value = some text) :
    emptyToNull (some text) = some text := by
  obtain ⟨hmap, hne⟩ := Option.filter_eq_some_iff.mp h
  obtain ⟨raw, -, rfl⟩ := Option.map_eq_some_iff.mp hmap
  simp only [emptyToNull, Option.map_some, trim_idem]
  exact Option.filter_eq_some_iff.mpr ⟨rfl, hne⟩

section Runtime

variable [TargetRuntime]

/-! ### Schemas -/

/-- `s3EndpointSchema`. -/
def s3EndpointSchema (value : String) : Option String :=
  match parseUrl value with
  | none => none
  | some url =>
    if url.isHttp && url.hostname ≠ "" && url.username = "" && url.password = "" &&
        url.search = "" && url.hash = "" && !value.toList.contains '?' &&
        !value.toList.contains '#' then
      (parseUrl (trim value)).map Url.endpoint
    else
      none

/-- The text is an endpoint that the schema has accepted and rewritten. -/
def IsS3Endpoint (endpoint : String) : Prop := ∃ value, s3EndpointSchema value = some endpoint

/-- An endpoint in parsed input. -/
abbrev S3Endpoint := { endpoint : String // IsS3Endpoint endpoint }

/-- A bucket in parsed input: `z.string().min(1)`. -/
abbrev Bucket := { bucket : String // bucket ≠ "" }

/-- An accepted endpoint parses, to itself. -/
theorem IsS3Endpoint.parse {endpoint : String} (h : IsS3Endpoint endpoint) :
    ∃ url, parseUrl endpoint = some url ∧ url.endpoint = endpoint := by
  obtain ⟨value, h⟩ := h
  unfold s3EndpointSchema at h
  split at h
  · cases h
  next url hurl =>
    split at h
    next haccepted =>
      obtain ⟨trimmed, htrimmed, rfl⟩ := Option.map_eq_some_iff.mp h
      have hhttp : url.isHttp = true := by
        simp only [Bool.and_eq_true] at haccepted
        exact haccepted.1.1.1.1.1.1.1
      have hsame := TargetRuntime.parseUrl_trim hurl htrimmed
      exact TargetRuntime.parseUrl_endpoint htrimmed (by rwa [Url.isHttp, hsame])
    · cases h

/-- `rcloneRemoteNameIssue`. -/
def rcloneRemoteNameIssue (value : String) : Option String :=
  if codeUnits value < 1 || codeUnits value > 120 then
    some "Rclone remote name must be between 1 and 120 characters"
  else if startsWith value "-" || startsWith value " " then
    some "Rclone remote name must not start with a hyphen or space"
  else if endsWith value " " then
    some "Rclone remote name must not end with a space"
  else if !value.toList.all fun c => letterOrNumber c || ['_', '.', '+', '@', ' ', '-'].contains c then
    some "Rclone remote name may contain only letters, numbers, spaces, _, -, ., +, and @"
  else
    none

/-! ### Input -/

/-- The settings of an SMB share in parsed input. -/
structure SmbInput where
  server : Option String
  share : Option String
  subPath : Option String
  domain : Option String
  username : Option String
  password : Option String
  port : Option ℕ

/-- No settings. -/
def SmbInput.empty : SmbInput := ⟨none, none, none, none, none, none, none⟩

/-- `backupTargetRcloneConfigSchema`. -/
structure RcloneConfigInput where
  provider : RcloneProvider
  remotePath : Option String
  remoteName : Option String
  rcloneConfig : Option String
  smb : Option SmbInput

/-- `backupTargetS3ConfigSchema`. -/
structure S3ConfigInput where
  endpoint : S3Endpoint
  bucket : Bucket
  region : Option String
  keyPrefix : Option String
  pathStyle : Bool
  forcePathStyle : Option Bool

/-- The location of an S3 target in the input of a creation: at the top of the object, or in its
    `config`. -/
inductive S3Location where
  | flat (endpoint : S3Endpoint) (bucket : Bucket) (region keyPrefix : Option String)
      (forcePathStyle : Bool) (config : Option S3ConfigInput)
  | nested (config : S3ConfigInput)

/-- The settings of an rclone target in the input of a creation. -/
structure RcloneCreateInput where
  provider : Option RcloneProvider
  remotePath : Option String
  remoteName : Option String
  rcloneConfig : Option String
  flat : SmbInput
  config : Option RcloneConfigInput

/-- `backupTargetCreateSchema`, by the kind of the target. -/
inductive BackupTargetSettings where
  | «local»
  | s3 (location : S3Location) (accessKeyId secretAccessKey : Option String)
  | rclone (input : RcloneCreateInput)

/-- The parsed input of a creation. -/
structure BackupTargetCreate where
  name : String
  enabled : Bool
  localCachePolicy : CachePolicy
  settings : BackupTargetSettings

/-- `config` in the input of an update. -/
inductive UpdateConfig where
  | s3 (config : S3ConfigInput)
  | rclone (config : RcloneConfigInput)
  | empty

/-- `backupTargetUpdateSchema`. -/
structure BackupTargetUpdate where
  name : Option String
  enabled : Option Bool
  endpoint : Option S3Endpoint
  bucket : Option Bucket
  region : Field String
  keyPrefix : Field String
  forcePathStyle : Option Bool
  config : Option UpdateConfig
  accessKeyId : Field String
  secretAccessKey : Field String
  provider : Field RcloneProvider
  remotePath : Field String
  remoteName : Field String
  rcloneConfig : Field String
  localCachePolicy : Option CachePolicy
  server : Field String
  share : Field String
  subPath : Field String
  domain : Field String
  username : Field String
  password : Field String
  port : Field ℕ

/-! ### Creation -/

/-- `s3ConfigFromFlat`. -/
def s3ConfigFromFlat (endpoint bucket : String) (region keyPrefix : Option String)
    (forcePathStyle : Option Bool) : TargetConfig :=
  { TargetConfig.empty with
      endpoint := .value endpoint
      bucket := .value bucket
      region := .ofOption region
      keyPrefix := .ofOption keyPrefix
      forcePathStyle := .value (forcePathStyle.getD false) }

/-- The `config` of a new S3 target. -/
def S3Location.config : S3Location → TargetConfig
  | .flat endpoint bucket region keyPrefix forcePathStyle config =>
    s3ConfigFromFlat endpoint bucket (region.or (config.bind (·.region)))
      (keyPrefix.or (config.bind (·.keyPrefix))) (some forcePathStyle)
  | .nested config =>
    s3ConfigFromFlat config.endpoint config.bucket config.region config.keyPrefix
      (some config.pathStyle)

/-- The name in the first `[section]` of an rclone configuration, from the start of a line. -/
def firstSection : Bool → List Char → Option (List Char)
  | _, [] => none
  | lineStart, c :: rest =>
    let name := match (c :: rest).dropWhile isWhiteSpace with
      | '[' :: tail => if (tail.takeWhile (· ≠ ']')) ≠ [] && tail.contains ']' then
          some (tail.takeWhile (· ≠ ']')) else none
      | _ => none
    if lineStart && name.isSome then name
    else firstSection (['\n', '\r', '\u2028', '\u2029'].contains c) rest

/-- `parseFirstRcloneRemote`. -/
def parseFirstRcloneRemote (configText : Option String) : Option String :=
  configText.bind fun text =>
    ((firstSection true text.toList).map fun name => trim (String.ofList name)).filter (· ≠ "")

/-- `JSON.stringify({ password })`. -/
def passwordJson (password : String) : String :=
  String.ofList (renderObject [("password".toList, quote password.toList)])

/-- `rcloneConfigFromFlat`. -/
def rcloneConfigFromFlat (provider : RcloneProvider) (remotePath remoteName rcloneConfig : Option String)
    (smb : SmbInput) : Except String TargetConfig := do
  let remoteName ← requireSafe rcloneRemoteNameIssue (((emptyToNull remoteName).or
    (if provider = .smb then none else parseFirstRcloneRemote rcloneConfig)).getD "composebastion")
  let config : TargetConfig :=
    { TargetConfig.empty with
        provider := .value provider
        remoteName := .value remoteName
        remotePath := .value ((emptyToNull remotePath).getD "composebastion") }
  if provider = .smb then
    match emptyToNull smb.server, emptyToNull smb.share with
    | none, _ => .error "SMB server is required"
    | some _, none => .error "SMB share is required"
    | some server, some share => do
      let share ← requireSafe smbShareIssue share
      let subPath ← requireSafeSmbSubPath (emptyToNull smb.subPath)
      return { config with
        remotePath := .value (buildSmbRemotePath share subPath)
        smb := some {
          server := .value server
          share := .value share
          subPath := .ofOption subPath
          domain := .ofOption (emptyToNull smb.domain)
          username := .ofOption (emptyToNull smb.username)
          port := .ofOption smb.port } }
  else
    return config

/-- The settings of a share, those at the top of the object first. -/
def SmbInput.orElse (flat nested : SmbInput) : SmbInput where
  server := flat.server.or nested.server
  share := flat.share.or nested.share
  subPath := flat.subPath.or nested.subPath
  domain := flat.domain.or nested.domain
  username := flat.username.or nested.username
  password := flat.password.or nested.password
  port := flat.port.or nested.port

/-- `normalizeBackupTargetCreate`, for the row with this id; the ciphertexts are made with the
    nonces `configIv` and `secretIv`. -/
def normalizeBackupTargetCreate (id : String) (configIv secretIv : ℕ) (input : BackupTargetCreate) :
    Except String BackupTargetRow :=
  match input.settings with
  | .local =>
    .ok ⟨id, input.name, .local, input.enabled, .empty, none, none, none, none, .keep, none, none⟩
  | .rclone rclone => do
    let nested := rclone.config.map (·.provider)
    if rclone.provider.isSome && nested.isSome && rclone.provider ≠ nested then
      .error "Rclone provider must match config.provider"
    else match rclone.provider.or nested with
      | none => .error "rclone backup targets require a provider"
      | some provider => do
        let rcloneConfig := rclone.rcloneConfig.or (rclone.config.bind (·.rcloneConfig))
        let smb := rclone.flat.orElse ((rclone.config.bind (·.smb)).getD .empty)
        let config ← rcloneConfigFromFlat provider
          (rclone.remotePath.or (rclone.config.bind (·.remotePath)))
          (rclone.remoteName.or (rclone.config.bind (·.remoteName))) rcloneConfig smb
        return {
          id := id
          name := input.name
          kind := .rclone
          enabled := input.enabled
          config := config
          accessKeyId := none
          secretAccessKeyEncrypted := none
          provider := some provider
          remotePath := some (config.remotePath.toOption.getD "")
          localCachePolicy := input.localCachePolicy
          genericConfigEncrypted :=
            if provider = .smb then none
            else (rcloneConfig.filter (· ≠ "")).map (encryptSecret configIv)
          genericCredentialsEncrypted :=
            (smb.password.filter (· ≠ "")).map fun password =>
              encryptSecret secretIv (passwordJson password) }
  | .s3 location accessKeyId secretAccessKey =>
    match accessKeyId.filter (· ≠ ""), secretAccessKey.filter (· ≠ "") with
    | some accessKeyId, some secretAccessKey =>
      .ok ⟨id, input.name, .s3, input.enabled, location.config, some accessKeyId,
        some (encryptSecret secretIv secretAccessKey), none, none, input.localCachePolicy, none,
        none⟩
    | _, _ => .error "S3 backup targets require accessKeyId and secretAccessKey"

/-! ### Updates -/

/-- `config` of an update as a configuration object, without its secrets. -/
def UpdateConfig.toConfig : UpdateConfig → TargetConfig
  | .s3 config =>
    { TargetConfig.empty with
        endpoint := .value config.endpoint
        bucket := .value config.bucket
        region := .ofDefined config.region
        keyPrefix := .ofDefined config.keyPrefix
        pathStyle := .value config.pathStyle
        forcePathStyle := .ofDefined config.forcePathStyle }
  | .rclone config =>
    { TargetConfig.empty with
        provider := .value config.provider
        remoteName := .ofDefined config.remoteName
        remotePath := .ofDefined config.remotePath
        smb := config.smb.map fun smb => {
          server := .ofDefined smb.server
          share := .ofDefined smb.share
          subPath := .ofDefined smb.subPath
          domain := .ofDefined smb.domain
          username := .ofDefined smb.username
          port := .ofDefined smb.port } }
  | .empty => .empty

/-- The properties of `config` in the input of an update. -/
def UpdateConfig.keys : UpdateConfig → List String
  | .s3 config =>
    ["endpoint", "bucket"] ++ (if config.region.isSome then ["region"] else []) ++
      (if config.keyPrefix.isSome then ["prefix"] else []) ++ ["pathStyle"] ++
      (if config.forcePathStyle.isSome then ["forcePathStyle"] else [])
  | .rclone config =>
    ["provider"] ++ (if config.remotePath.isSome then ["remotePath"] else []) ++
      (if config.remoteName.isSome then ["remoteName"] else []) ++
      (if config.rcloneConfig.isSome then ["rcloneConfig"] else []) ++
      (if config.smb.isSome then ["smb"] else [])
  | .empty => []

/-- The top-level properties of an update that only S3 targets have, and whether they are given. -/
def BackupTargetUpdate.s3Keys (input : BackupTargetUpdate) : List (String × Bool) :=
  [("endpoint", input.endpoint.isSome), ("bucket", input.bucket.isSome),
    ("region", input.region.own), ("prefix", input.keyPrefix.own),
    ("forcePathStyle", input.forcePathStyle.isSome), ("accessKeyId", input.accessKeyId.own),
    ("secretAccessKey", input.secretAccessKey.own)]

/-- The same for rclone targets. -/
def BackupTargetUpdate.rcloneKeys (input : BackupTargetUpdate) : List (String × Bool) :=
  [("provider", input.provider.own), ("remotePath", input.remotePath.own),
    ("remoteName", input.remoteName.own), ("rcloneConfig", input.rcloneConfig.own),
    ("server", input.server.own), ("share", input.share.own), ("subPath", input.subPath.own),
    ("domain", input.domain.own), ("username", input.username.own),
    ("password", input.password.own), ("port", input.port.own)]

/-- The name of a kind in messages. -/
def TargetKind.name : TargetKind → String
  | .local => "local"
  | .s3 => "s3"
  | .rclone => "rclone"

/-- `rejectIncompatibleBackupTargetFields`. -/
def rejectIncompatibleBackupTargetFields (kind : TargetKind) (input : BackupTargetUpdate) :
    Except String Unit :=
  let incompatibleTopLevel := match kind with
    | .s3 => input.rcloneKeys
    | .rclone => input.s3Keys
    | .local => input.s3Keys ++ input.rcloneKeys
  let keys := (input.config.map UpdateConfig.keys).getD []
  let incompatibleConfig := match kind with
    | .s3 => ["provider", "remoteName", "remotePath", "rcloneConfig", "smb"]
    | .rclone => ["endpoint", "bucket", "region", "prefix", "pathStyle", "forcePathStyle"]
    | .local => keys
  match incompatibleTopLevel.find? (·.2), incompatibleConfig.find? (keys.contains ·) with
  | some key, _ => .error (key.1 ++ " is not valid for " ++ kind.name ++ " backup targets")
  | none, some key =>
    .error ("config." ++ key ++ " is not valid for " ++ kind.name ++ " backup targets")
  | none, none => .ok ()

/-- `Partial<BackupTargetRowInput>`. -/
structure BackupTargetPatch where
  name : Option String
  enabled : Option Bool
  config : Option TargetConfig
  accessKeyId : Field String
  secretAccessKeyEncrypted : Field String
  provider : Option RcloneProvider
  remotePath : Option String
  localCachePolicy : CachePolicy
  genericConfigEncrypted : Field String
  genericCredentialsEncrypted : Field String

/-- The configuration of an S3 target after an update. -/
def nextS3Config (current : TargetConfig) (input : BackupTargetUpdate) : TargetConfig :=
  let merged := (publicBackupTargetConfig .s3 current).spread
    (publicBackupTargetConfig .s3 ((input.config.map UpdateConfig.toConfig).getD .empty))
  { merged with
      endpoint := (Field.ofDefined (input.endpoint.map (·.1))).orElse merged.endpoint
      bucket := (Field.ofDefined (input.bucket.map (·.1))).orElse merged.bucket
      region := input.region.orElse merged.region
      keyPrefix := input.keyPrefix.orElse merged.keyPrefix
      forcePathStyle := (Field.ofDefined input.forcePathStyle).orElse merged.forcePathStyle }

/-- The part of an update that is about an rclone target. -/
structure RclonePatch where
  config : TargetConfig
  remotePath : String
  genericConfig : Option String
  genericCredentials : Option String

/-- `smbValue`: a setting of the share, from the top of the input, from its `config`, or kept. -/
def smbValue {α : Type} (top : Field α) (nested : Option α) (kept : Field α) : Field α :=
  top.orElse ((Field.ofDefined nested).orElse kept)

/-- A setting that is written when it has a value, was given, or was there before. -/
def shapedSmbField {α : Type} (value : Option α) (top : Field α) (nested : Option α)
    (kept : Field α) : Field α :=
  if value.isSome || top.own || nested.isSome || kept.own then .ofOption value else .absent

/-- The nested settings of the input of an update, where it has any. -/
def BackupTargetUpdate.nested (input : BackupTargetUpdate) : Option RcloneConfigInput :=
  match input.config with
  | some (.rclone config) => some config
  | _ => none

/-- The branch of an update for the provider `smb`; `kept` are the stored settings of a share that
    stays one. -/
def nextSmb (current : BackupTargetRow) (input : BackupTargetUpdate) (providerChanged : Bool)
    (kept : SmbConfig) (secretIv : ℕ) : Except String RclonePatch := do
  let nested := (input.nested.bind (·.smb)).getD .empty
  match emptyToNull (smbValue input.server nested.server kept.server).toOption,
      emptyToNull (smbValue input.share nested.share kept.share).toOption with
  | none, _ => .error "SMB server is required"
  | some _, none => .error "SMB share is required"
  | some server, some share => do
    let share ← requireSafe smbShareIssue share
    let subPath ← requireSafeSmbSubPath
      (emptyToNull (smbValue input.subPath nested.subPath kept.subPath).toOption)
    let port := (smbValue input.port nested.port kept.port).toOption
    if port.any fun port => port < 1 || port > 65535 then
      .error "SMB port must be between 1 and 65535"
    else do
      let requestedName := input.remoteName.orElse (.ofDefined (input.nested.bind (·.remoteName)))
      let remoteName ← requireSafe rcloneRemoteNameIssue (((emptyToNull requestedName.toOption).or
        (if providerChanged then none else emptyToNull current.config.remoteName.toOption)).getD
          "composebastion")
      let remotePath := buildSmbRemotePath share subPath
      return {
        config := { TargetConfig.empty with
          provider := .value .smb
          remoteName := .value remoteName
          remotePath := .value remotePath
          smb := some {
            server := .value server
            share := .value share
            subPath := shapedSmbField subPath input.subPath nested.subPath kept.subPath
            domain := shapedSmbField
              (emptyToNull (smbValue input.domain nested.domain kept.domain).toOption)
              input.domain nested.domain kept.domain
            username := shapedSmbField
              (emptyToNull (smbValue input.username nested.username kept.username).toOption)
              input.username nested.username kept.username
            port := shapedSmbField port input.port nested.port kept.port } }
        remotePath := remotePath
        -- an imported configuration is incompatible with the SMB builder
        genericConfig := none
        genericCredentials :=
          match input.password.orElse (.ofDefined nested.password) with
          | .absent => if providerChanged then none else current.genericCredentialsEncrypted
          | .null => none
          | .value password => some (encryptSecret secretIv (passwordJson password)) }

/-- The branch of an update for the other providers, whose configuration is imported. -/
def nextImported (current : BackupTargetRow) (input : BackupTargetUpdate)
    (provider : RcloneProvider) (providerChanged : Bool) (configIv : ℕ) :
    Except String RclonePatch := do
  let update := input.rcloneConfig.orElse (.ofDefined (input.nested.bind (·.rcloneConfig)))
  let blank := (update.toOption.filter (trim · ≠ "")).isNone
  if providerChanged && blank then
    .error "A new imported rclone config is required when changing providers"
  else if update.own && blank then
    .error "Imported rclone providers require a non-empty rclone config"
  else do
    let requestedName := input.remoteName.orElse (.ofDefined (input.nested.bind (·.remoteName)))
    let requestedPath := input.remotePath.orElse (.ofDefined (input.nested.bind (·.remotePath)))
    let remoteName ← requireSafe rcloneRemoteNameIssue (((emptyToNull requestedName.toOption).or
      ((if providerChanged then parseFirstRcloneRemote update.toOption
        else emptyToNull current.config.remoteName.toOption).or
          (parseFirstRcloneRemote update.toOption))).getD "composebastion")
    let remotePath := ((emptyToNull requestedPath.toOption).or
      (if providerChanged then none
        else emptyToNull (current.remotePath.or current.config.remotePath.toOption))).getD
          "composebastion"
    return {
      config := { TargetConfig.empty with
        provider := .value provider
        remoteName := .value remoteName
        remotePath := .value remotePath }
      remotePath := remotePath
      genericConfig := match update.toOption with
        | some text => some (encryptSecret configIv text)
        | none => current.genericConfigEncrypted
      genericCredentials := none }

/-- The provider of a stored target. -/
def BackupTargetRow.storedProvider (row : BackupTargetRow) : Option RcloneProvider :=
  row.provider.or row.config.provider.toOption

/-- The provider that an update asks for, or the stored one. -/
def nextProvider (current : BackupTargetRow) (input : BackupTargetUpdate) :
    Except String RcloneProvider :=
  let nested := input.nested.map (·.provider)
  match input.provider with
  | .null =>
    if nested.isSome then .error "Rclone provider must match config.provider"
    else .error "rclone backup targets require a provider"
  | .value provider =>
    if nested.any (· ≠ provider) then .error "Rclone provider must match config.provider"
    else .ok provider
  | .absent =>
    match nested.or current.storedProvider with
    | some provider => .ok provider
    | none => .error "rclone backup targets require a provider"

/-- The part of an update that is about an rclone target, with the provider it will have. -/
def nextRclone (current : BackupTargetRow) (input : BackupTargetUpdate) (configIv secretIv : ℕ) :
    Except String (RcloneProvider × RclonePatch) := do
  let provider ← nextProvider current input
  let providerChanged := some provider ≠ current.storedProvider
  let kept : SmbConfig := match current.storedProvider, current.config.smb with
    | some .smb, some smb => smb
    | _, _ => ⟨.absent, .absent, .absent, .absent, .absent, .absent⟩
  let patch ← (if provider = .smb then nextSmb current input providerChanged kept secretIv
    else nextImported current input provider providerChanged configIv)
  return (provider, patch)

/-- `normalizeBackupTargetUpdate`. -/
def normalizeBackupTargetUpdate (current : BackupTargetRow) (input : BackupTargetUpdate)
    (configIv secretIv : ℕ) : Except String BackupTargetPatch := do
  rejectIncompatibleBackupTargetFields current.kind input
  if current.kind = .local && input.localCachePolicy = some .remoteOnly then
    .error "Local backup targets always keep artifacts in the manager backup directory"
  else do
    let secret : Field String := match input.secretAccessKey with
      | .absent => .absent
      | .null => .null
      | .value secret =>
        if secret = "" then .ofOption current.secretAccessKeyEncrypted
        else .value (encryptSecret secretIv secret)
    let policy := input.localCachePolicy.getD current.localCachePolicy
    match current.kind with
    | .local =>
      return ⟨input.name, input.enabled, some .empty, input.accessKeyId, secret, none, none, .keep,
        .absent, .absent⟩
    | .s3 =>
      let config := nextS3Config current.config input
      return ⟨input.name, input.enabled, if config = .empty then none else some config,
        input.accessKeyId, secret, none, none, policy, .absent, .absent⟩
    | .rclone => do
      let (provider, patch) ← nextRclone current input configIv secretIv
      return ⟨input.name, input.enabled, some patch.config, input.accessKeyId, secret,
        some provider, some patch.remotePath, policy, .ofOption patch.genericConfig,
        .ofOption patch.genericCredentials⟩

/-- The row that `updateBackupTarget` writes for a patch. -/
def BackupTargetPatch.apply (patch : BackupTargetPatch) (row : BackupTargetRow) : BackupTargetRow :=
  { row with
      name := patch.name.getD row.name
      enabled := patch.enabled.getD row.enabled
      config := patch.config.getD row.config
      accessKeyId := patch.accessKeyId.overwrite row.accessKeyId
      secretAccessKeyEncrypted :=
        patch.secretAccessKeyEncrypted.overwrite row.secretAccessKeyEncrypted
      provider := patch.provider.or row.provider
      remotePath := patch.remotePath.or row.remotePath
      localCachePolicy := patch.localCachePolicy
      genericConfigEncrypted := patch.genericConfigEncrypted.overwrite row.genericConfigEncrypted
      genericCredentialsEncrypted :=
        patch.genericCredentialsEncrypted.overwrite row.genericCredentialsEncrypted }

/-- An update that is about the credentials of an S3 target, or enables it. -/
def BackupTargetPatch.changesS3CredentialState (patch : BackupTargetPatch) : Bool :=
  patch.accessKeyId.own || patch.secretAccessKeyEncrypted.own || patch.enabled = some true

/-- The last check of `updateBackupTarget` before it writes. -/
def checkS3Credentials (row : BackupTargetRow) (patch : BackupTargetPatch) : Except String Unit :=
  let next := patch.apply row
  if row.kind = .s3 && patch.changesS3CredentialState && next.enabled &&
      (!truthy next.accessKeyId || !truthy next.secretAccessKeyEncrypted) then
    .error "Enabled S3 backup targets require both access-key credentials"
  else
    .ok ()

end Runtime

end ComposeBastion
