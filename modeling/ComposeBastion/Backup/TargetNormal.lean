import ComposeBastion.Backup.TargetConfig

namespace ComposeBastion

open Js

/-!
# The rows of backup targets

Every row of `backup_targets` is written by a creation, an import or an update.  The rows they
write have one shape, and an update of a row of that shape writes another.

* `BackupTargetRow.Normal` — the shape: an S3 endpoint as the schema rewrites it, and for an rclone
  target columns, configuration and share that agree;
* `normalizeBackupTargetCreate_normal` — a new row has it;
* `nextTarget_normal` — an updated row has it.
-/

/-! ### Normal rows -/

/-- The settings of a share that belong to the stored path. -/
structure SmbConfig.Normal (smb : SmbConfig) (remotePath : String) : Prop where
  server : ∃ server, smb.server = .value server ∧ emptyToNull (some server) = some server
  share : ∃ share, smb.share = .value share ∧ smbShareIssue share = none ∧
    remotePath = buildSmbRemotePath share smb.subPath.toOption
  subPath : requireSafeSmbSubPath smb.subPath.toOption = .ok smb.subPath.toOption

section Runtime

variable [TargetRuntime]

/-- A stored S3 configuration. -/
structure TargetConfig.S3Normal (config : TargetConfig) : Prop where
  endpoint : ∃ endpoint, config.endpoint = .value endpoint ∧ IsS3Endpoint endpoint
  bucket : ∃ bucket, config.bucket = .value bucket ∧ bucket ≠ ""

/-- The columns and the configuration of an rclone target agree. -/
structure BackupTargetRow.RcloneNormal (row : BackupTargetRow) (provider : RcloneProvider)
    (remoteName remotePath : String) : Prop where
  provider_eq : row.provider = some provider
  configProvider : row.config.provider = .value provider
  configName : row.config.remoteName = .value remoteName
  safeName : rcloneRemoteNameIssue remoteName = none
  path : row.remotePath = some remotePath
  configPath : row.config.remotePath = .value remotePath
  smb : provider = .smb → row.genericConfigEncrypted = none ∧
    ∃ smb, row.config.smb = some smb ∧ smb.Normal remotePath

/-- The shape of the rows that creations and updates make. -/
def BackupTargetRow.Normal (row : BackupTargetRow) : Prop :=
  match row.kind with
  | .local => True
  | .s3 => row.config.S3Normal
  | .rclone => ∃ provider remoteName remotePath, row.RcloneNormal provider remoteName remotePath

theorem S3Location.config_normal (location : S3Location) : location.config.S3Normal := by
  cases location with
  | flat endpoint bucket region keyPrefix forcePathStyle config =>
    exact ⟨⟨endpoint.1, rfl, endpoint.2⟩, ⟨bucket.1, rfl, bucket.2⟩⟩
  | nested config =>
    exact ⟨⟨config.endpoint.1, rfl, config.endpoint.2⟩, ⟨config.bucket.1, rfl, config.bucket.2⟩⟩

/-- What `rcloneConfigFromFlat` makes, for the row it becomes part of. -/
theorem rcloneConfigFromFlat_spec {provider : RcloneProvider}
    {remotePath remoteName rcloneConfig : Option String} {smb : SmbInput} {config : TargetConfig}
    (h : rcloneConfigFromFlat provider remotePath remoteName rcloneConfig smb = .ok config) :
    ∃ name path, config.provider = .value provider ∧ config.remoteName = .value name ∧
      rcloneRemoteNameIssue name = none ∧ config.remotePath = .value path ∧
      (provider = .smb → ∃ stored, config.smb = some stored ∧ stored.Normal path) := by
  unfold rcloneConfigFromFlat at h
  obtain ⟨name, hname, h⟩ := bind_eq_ok.mp h
  have hsafe := issue_of_requireSafe hname
  split at h
  next hsmb =>
    split at h
    · cases h
    · cases h
    next server share hserver hshare =>
      obtain ⟨safeShare, hshare, h⟩ := bind_eq_ok.mp h
      obtain ⟨subPath, hsub, h⟩ := bind_eq_ok.mp h
      obtain ⟨hissue, rfl⟩ := requireSafe_eq_ok.mp hshare
      obtain rfl := Except.ok.inj h
      refine ⟨_, _, rfl, rfl, hsafe, rfl, fun _ => ⟨_, rfl, ?_⟩⟩
      exact ⟨⟨server, rfl, emptyToNull_idem hserver⟩,
        ⟨share, rfl, hissue, by rw [Field.toOption_ofOption]⟩, by
          rw [Field.toOption_ofOption]
          exact requireSafeSmbSubPath_idem hsub⟩
  next hother =>
    obtain rfl := Except.ok.inj h
    exact ⟨_, _, rfl, rfl, hsafe, rfl, fun hsmb => absurd hsmb hother⟩

/-- **Creation.** The row of a new target is normal. -/
theorem normalizeBackupTargetCreate_normal {id : String} {configIv secretIv : ℕ}
    {input : BackupTargetCreate} {row : BackupTargetRow}
    (h : normalizeBackupTargetCreate id configIv secretIv input = .ok row) :
    row.id = id ∧ row.Normal := by
  unfold normalizeBackupTargetCreate at h
  split at h
  · obtain rfl := Except.ok.inj h
    exact ⟨rfl, trivial⟩
  next rclone _ =>
    simp only at h
    split at h
    · cases h
    split at h
    · cases h
    next provider _ =>
      obtain ⟨config, hconfig, h⟩ := bind_eq_ok.mp h
      obtain ⟨name, path, hprovider, hname, hsafe, hpath, hsmb⟩ := rcloneConfigFromFlat_spec hconfig
      obtain rfl := Except.ok.inj h
      refine ⟨rfl, provider, name, path, rfl, hprovider, hname, hsafe, ?_, hpath, ?_⟩
      · show some (config.remotePath.toOption.getD "") = some path
        rw [hpath]
        rfl
      · intro hprovider
        exact ⟨if_pos hprovider, hsmb hprovider⟩
  next location _ _ _ =>
    split at h
    · obtain rfl := Except.ok.inj h
      exact ⟨rfl, location.config_normal⟩
    · cases h

/-! ### Updates keep rows normal -/

omit [TargetRuntime] in
/-- A setting of which every source is known to hold a good value holds one. -/
theorem orElse_good {α : Type} {P : α → Prop} {given : Option α} {before : Field α}
    (hgiven : ∀ a, given = some a → P a) (hbefore : ∃ a, before = .value a ∧ P a) :
    ∃ a, (Field.ofDefined given).orElse before = .value a ∧ P a := by
  cases given with
  | none => exact hbefore
  | some a => exact ⟨a, rfl, hgiven a rfl⟩

theorem nextS3Config_normal {current : TargetConfig} (h : current.S3Normal)
    (input : BackupTargetUpdate) : (nextS3Config current input).S3Normal := by
  refine ⟨orElse_good ?_ ?_, orElse_good ?_ ?_⟩
  · intro endpoint hgiven
    obtain ⟨given, -, rfl⟩ := Option.map_eq_some_iff.mp hgiven
    exact given.2
  · cases hconfig : input.config with
    | none => exact h.endpoint
    | some config =>
      cases config with
      | s3 config => exact ⟨_, rfl, config.endpoint.2⟩
      | rclone config => exact h.endpoint
      | empty => exact h.endpoint
  · intro bucket hgiven
    obtain ⟨given, -, rfl⟩ := Option.map_eq_some_iff.mp hgiven
    exact given.2
  · cases hconfig : input.config with
    | none => exact h.bucket
    | some config =>
      cases config with
      | s3 config => exact ⟨_, rfl, config.bucket.2⟩
      | rclone config => exact h.bucket
      | empty => exact h.bucket

omit [TargetRuntime] in
/-- A shaped setting has the value it was shaped from. -/
theorem toOption_shapedSmbField {α : Type} (value : Option α) (top : Field α) (nested : Option α)
    (kept : Field α) : (shapedSmbField value top nested kept).toOption = value := by
  unfold shapedSmbField
  split
  · rw [Field.toOption_ofOption]
  next h =>
    cases value with
    | none => rfl
    | some a => simp at h

/-- What an update makes of the rclone part of a row. -/
structure RclonePatch.Normal (patch : RclonePatch) (provider : RcloneProvider) (name : String) :
    Prop where
  provider_eq : patch.config.provider = .value provider
  name_eq : patch.config.remoteName = .value name
  safeName : rcloneRemoteNameIssue name = none
  path : patch.config.remotePath = .value patch.remotePath
  smb : provider = .smb → patch.genericConfig = none ∧
    ∃ smb, patch.config.smb = some smb ∧ smb.Normal patch.remotePath

theorem nextSmb_normal {current : BackupTargetRow} {input : BackupTargetUpdate}
    {providerChanged : Bool} {kept : SmbConfig} {secretIv : ℕ} {patch : RclonePatch}
    (h : nextSmb current input providerChanged kept secretIv = .ok patch) :
    ∃ name, patch.Normal .smb name := by
  unfold nextSmb at h
  simp only at h
  split at h
  · cases h
  · cases h
  next server share hserver hshare =>
    obtain ⟨safeShare, hshare, h⟩ := bind_eq_ok.mp h
    obtain ⟨subPath, hsub, h⟩ := bind_eq_ok.mp h
    obtain ⟨hissue, rfl⟩ := requireSafe_eq_ok.mp hshare
    split at h
    · cases h
    obtain ⟨name, hname, h⟩ := bind_eq_ok.mp h
    have hsafe := issue_of_requireSafe hname
    obtain rfl := Except.ok.inj h
    refine ⟨_, rfl, rfl, hsafe, rfl, fun _ => ⟨rfl, _, rfl, ?_⟩⟩
    exact ⟨⟨server, rfl, emptyToNull_idem hserver⟩,
      ⟨share, rfl, hissue, by rw [toOption_shapedSmbField]⟩, by
        rw [toOption_shapedSmbField]
        exact requireSafeSmbSubPath_idem hsub⟩

theorem nextImported_normal {current : BackupTargetRow} {input : BackupTargetUpdate}
    {provider : RcloneProvider} {providerChanged : Bool} {configIv : ℕ} {patch : RclonePatch}
    (hother : provider ≠ .smb)
    (h : nextImported current input provider providerChanged configIv = .ok patch) :
    ∃ name, patch.Normal provider name := by
  unfold nextImported at h
  simp only at h
  split at h
  · cases h
  split at h
  · cases h
  obtain ⟨name, hname, h⟩ := bind_eq_ok.mp h
  have hsafe := issue_of_requireSafe hname
  obtain rfl := Except.ok.inj h
  exact ⟨_, rfl, rfl, hsafe, rfl, fun hsmb => absurd hsmb hother⟩

theorem nextRclone_normal {current : BackupTargetRow} {input : BackupTargetUpdate}
    {configIv secretIv : ℕ} {provider : RcloneProvider} {patch : RclonePatch}
    (h : nextRclone current input configIv secretIv = .ok (provider, patch)) :
    ∃ name, patch.Normal provider name := by
  unfold nextRclone at h
  obtain ⟨chosen, -, h⟩ := bind_eq_ok.mp h
  obtain ⟨made, hmade, h⟩ := bind_eq_ok.mp h
  obtain ⟨rfl, rfl⟩ := Prod.mk.inj (Except.ok.inj h)
  split at hmade
  next hsmb =>
    subst hsmb
    exact nextSmb_normal hmade
  next hother => exact nextImported_normal hother hmade

/-- **Updates.** The row that an update writes is normal, of the same id and kind. -/
theorem nextTarget_normal {current : BackupTargetRow} {input : BackupTargetUpdate}
    {configIv secretIv : ℕ} {patch : BackupTargetPatch} (hcurrent : current.Normal)
    (h : normalizeBackupTargetUpdate current input configIv secretIv = .ok patch) :
    (patch.apply current).id = current.id ∧ (patch.apply current).Normal := by
  refine ⟨rfl, ?_⟩
  unfold normalizeBackupTargetUpdate at h
  obtain ⟨-, -, h⟩ := bind_eq_ok.mp h
  split at h
  · cases h
  unfold BackupTargetRow.Normal at hcurrent ⊢
  show match current.kind with
    | .local => True
    | .s3 => (patch.apply current).config.S3Normal
    | .rclone => ∃ provider remoteName remotePath,
        (patch.apply current).RcloneNormal provider remoteName remotePath
  cases hkind : current.kind with
  | «local» => trivial
  | s3 =>
    rw [hkind] at h hcurrent
    obtain rfl := Except.ok.inj h
    show (Option.getD (if _ then none else some _) current.config).S3Normal
    split
    · exact hcurrent
    · exact nextS3Config_normal hcurrent input
  | rclone =>
    rw [hkind] at h hcurrent
    obtain ⟨⟨provider, made⟩, hmade, h⟩ := bind_eq_ok.mp h
    obtain ⟨name, hmade⟩ := nextRclone_normal hmade
    obtain rfl := Except.ok.inj h
    refine ⟨provider, name, made.remotePath, rfl, hmade.provider_eq, hmade.name_eq,
      hmade.safeName, rfl, hmade.path, ?_⟩
    intro hsmb
    obtain ⟨hgeneric, smb, hconfig, hnormal⟩ := hmade.smb hsmb
    refine ⟨?_, smb, hconfig, hnormal⟩
    show (Field.ofOption made.genericConfig).overwrite current.genericConfigEncrypted = none
    rw [hgeneric]
    rfl

end Runtime

end ComposeBastion
