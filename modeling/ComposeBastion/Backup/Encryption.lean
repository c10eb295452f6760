import ComposeBastion.Js.Json
import ComposeBastion.Lib.Transducer

namespace ComposeBastion

open Js Transducer

/-!
# Backup encryption

`services/backupEncryption.ts`: an artifact is a header, which names the key and carries a random
nonce, followed by frames of at most 64 KiB of plaintext, each sealed with AES-256-GCM under its
own initialisation vector and, as associated data, the header, the nonce, the frame's index and
whether it is the last.

* `NodeCrypto` — what the module takes from `node:crypto`;
* `parseBackupEncryptionKeyring`, `headerBytes`, `parseHeader`, `encryptFrame`, `decryptFrame`;
* `BackupEncryptTransform.machine`, `BackupEncryptTransform.run` — the encrypting stream;
* `BackupDecryptTransform.machine`, `BackupDecryptTransform.run` — the decrypting stream.
-/

/-! ### Cryptography -/

/-- The functions of `node:crypto` the module calls.  A GCM ciphertext is as long as the
    plaintext, and its tag has 16 bytes. -/
structure NodeCrypto where
  sha256 : List UInt8 → List UInt8
  gcmEncrypt : (key iv aad plaintext : List UInt8) → List UInt8 × List UInt8
  gcmDecrypt : (key iv aad ciphertext tag : List UInt8) → Option (List UInt8)
  length_ciphertext : ∀ key iv aad plaintext,
    (gcmEncrypt key iv aad plaintext).1.length = plaintext.length
  length_tag : ∀ key iv aad plaintext, (gcmEncrypt key iv aad plaintext).2.length = 16

/-- What `randomBytes(n)` draws. -/
abbrev RandomBytes (n : ℕ) := { bytes : List UInt8 // bytes.length = n }

def MAGIC : List UInt8 := utf8Encode "DMBKENC1".toList

def CHUNK_SIZE : ℕ := 64 * 1024

def MAX_FRAME_SIZE : ℕ := 16 * 1024 * 1024

def IV_BYTES : ℕ := 12

def TAG_BYTES : ℕ := 16

def ARTIFACT_NONCE_BYTES : ℕ := 16

def FRAME_METADATA_BYTES : ℕ := 4 + 4 + 1 + IV_BYTES + TAG_BYTES

/-- A character of `KEY_ID_PATTERN`. -/
def isKeyIdChar (c : Char) : Bool :=
  ('a' ≤ c && c ≤ 'z') || ('A' ≤ c && c ≤ 'Z') || ('0' ≤ c && c ≤ '9')
    || c == '_' || c == '.' || c == '-'

/-- `KEY_ID_PATTERN.test`. -/
def isKeyId (id : List Char) : Bool := id ≠ [] && id.length ≤ 64 && id.all isKeyIdChar

/-! ### Keyrings -/

/-- `BackupEncryptionKey`; its fingerprint is computed from the key. -/
structure BackupEncryptionKey where
  id : List Char
  key : List UInt8
  deriving DecidableEq

section

variable (crypto : NodeCrypto)

/-- `keyFingerprint`. -/
def keyFingerprint (key : List UInt8) : List Char := (hex (crypto.sha256 key)).take 16

/-- `key.fingerprint`. -/
def BackupEncryptionKey.fingerprint (key : BackupEncryptionKey) : List Char :=
  keyFingerprint crypto key.key

/-- The `length` of a string: its UTF-16 code units. -/
def utf16Length (text : List Char) : ℕ :=
  (text.map fun c => if c.toNat < 0x10000 then 1 else 2).sum

/-- `configuredKey`. -/
def configuredKey (entry : List Char) : Except String BackupEncryptionKey :=
  let front := entry.takeWhile (· ≠ ':')
  if front = [] ∨ front.length = entry.length then
    .error "BACKUP_ENCRYPTION_KEYS entries must use keyId:secret"
  else
    let id := trimChars front
    let secret := entry.drop (front.length + 1)
    if isKeyId id = false then
      .error "BACKUP_ENCRYPTION_KEYS key ids may only contain letters, digits, '_', '.', '-' and be at most 64 characters"
    else if utf16Length secret < 32 then
      .error ("Backup encryption key " ++ String.ofList id ++ " must be at least 32 characters")
    else .ok ⟨id, crypto.sha256 (utf8Encode secret)⟩

/-- Every configured key, or the first error. -/
def configuredKeys : List (List Char) → Except String (List BackupEncryptionKey)
  | [] => .ok []
  | entry :: entries =>
    match configuredKey crypto entry with
    | .error e => .error e
    | .ok key => (configuredKeys entries).map (key :: ·)

/-- The error of the loop over the keys, which stops at a key that is among those seen. -/
def duplicateKey : (seen : List BackupEncryptionKey) → List BackupEncryptionKey → Option String
  | _, [] => none
  | seen, key :: keys =>
    if key.id ∈ seen.map (·.id) then
      some ("Duplicate backup encryption key id " ++ String.ofList key.id)
    else if key.fingerprint crypto ∈ seen.map (·.fingerprint crypto) then
      some ("Duplicate backup encryption key fingerprint "
        ++ String.ofList (key.fingerprint crypto))
    else duplicateKey (key :: seen) keys

/-- `BackupEncryptionKeyring`: keys with distinct ids and fingerprints, one of them active. -/
structure BackupEncryptionKeyring where
  keys : List BackupEncryptionKey
  activeKey : BackupEncryptionKey
  activeKey_mem : activeKey ∈ keys
  ids_nodup : (keys.map (·.id)).Nodup
  fingerprints_nodup : (keys.map (·.fingerprint crypto)).Nodup
  isKeyId_of_mem : ∀ key ∈ keys, isKeyId key.id = true

variable {crypto}

/-- `keysById.get`. -/
def BackupEncryptionKeyring.keysById (keyring : BackupEncryptionKeyring crypto) (id : List Char) :
    Option BackupEncryptionKey :=
  keyring.keys.find? fun key => key.id = id

/-- `keysByFingerprint.get`. -/
def BackupEncryptionKeyring.keysByFingerprint (keyring : BackupEncryptionKeyring crypto)
    (fingerprint : List Char) : Option BackupEncryptionKey :=
  keyring.keys.find? fun key => key.fingerprint crypto = fingerprint

/-- The loop passes over keys that are distinct, and none of which was seen before. -/
theorem nodup_of_duplicateKey {β : Type*} [DecidableEq β] (f : BackupEncryptionKey → β)
    (hf : ∀ seen key keys, duplicateKey crypto seen (key :: keys) = none →
      f key ∉ seen.map f ∧ duplicateKey crypto (key :: seen) keys = none)
    {seen keys : List BackupEncryptionKey} (h : duplicateKey crypto seen keys = none) :
    (keys.map f).Nodup ∧ ∀ key ∈ keys, f key ∉ seen.map f := by
  induction keys generalizing seen with
  | nil => exact ⟨List.nodup_nil, fun _ hk => by cases hk⟩
  | cons key keys ih =>
    obtain ⟨hfresh, hrest⟩ := hf seen key keys h
    obtain ⟨hnodup, hnew⟩ := ih hrest
    refine ⟨List.nodup_cons.mpr ⟨fun hmem => ?_, hnodup⟩, fun k hk => ?_⟩
    · obtain ⟨k, hk, heq⟩ := List.mem_map.mp hmem
      exact hnew k hk (by rw [heq]; exact List.mem_cons_self)
    · rcases List.mem_cons.mp hk with rfl | hk
      · exact hfresh
      · exact fun hmem => hnew k hk (List.mem_cons_of_mem _ hmem)

theorem duplicateKey_cons {seen keys : List BackupEncryptionKey} {key : BackupEncryptionKey}
    (h : duplicateKey crypto seen (key :: keys) = none) :
    key.id ∉ seen.map (·.id) ∧ key.fingerprint crypto ∉ seen.map (·.fingerprint crypto)
      ∧ duplicateKey crypto (key :: seen) keys = none := by
  rw [duplicateKey] at h
  split at h
  · cases h
  · rename_i hid
    split at h
    · cases h
    · rename_i hfingerprint
      exact ⟨hid, hfingerprint, h⟩

theorem isKeyId_of_configuredKey {entry : List Char} {key : BackupEncryptionKey}
    (h : configuredKey crypto entry = .ok key) : isKeyId key.id = true := by
  simp only [configuredKey] at h
  split at h
  · cases h
  · split at h
    · cases h
    · rename_i hid
      split at h
      · cases h
      · cases h
        simpa using hid

theorem isKeyId_of_configuredKeys {entries : List (List Char)} {keys : List BackupEncryptionKey}
    (h : configuredKeys crypto entries = .ok keys) : ∀ key ∈ keys, isKeyId key.id = true := by
  induction entries generalizing keys with
  | nil => cases h; exact fun _ hk => by cases hk
  | cons entry entries ih =>
    rw [configuredKeys] at h
    split at h
    · cases h
    · rename_i key hkey
      cases hrest : configuredKeys crypto entries with
      | error e => rw [hrest] at h; cases h
      | ok rest =>
        rw [hrest] at h
        cases h
        intro k hk
        rcases List.mem_cons.mp hk with rfl | hk
        · exact isKeyId_of_configuredKey hkey
        · exact ih hrest k hk

/-- The entries of `BACKUP_ENCRYPTION_KEYS`. -/
def keyEntries (configured : List Char) : List (List Char) :=
  ((configured.splitOn ',').map trimChars).filter (· ≠ [])

/-- `input.activeKeyId?.trim() || "app_secret"`. -/
def activeKeyId (requested : Option (List Char)) : List Char :=
  let id := trimChars (requested.getD [])
  if id = [] then "app_secret".toList else id

/-- `parseBackupEncryptionKeyring`. -/
def parseBackupEncryptionKeyring (appSecretKey : List UInt8) (configured : List Char)
    (requested : Option (List Char)) : Except String (BackupEncryptionKeyring crypto) :=
  match hkeys : configuredKeys crypto (keyEntries configured) with
  | .error e => .error e
  | .ok configuredKeys =>
    match hduplicate : duplicateKey crypto [] (⟨"app_secret".toList, appSecretKey⟩
        :: configuredKeys) with
    | some message => .error message
    | none =>
      if isKeyId (activeKeyId requested) = false then
        .error "BACKUP_ENCRYPTION_ACTIVE_KEY_ID may only contain letters, digits, '_', '.', '-' and be at most 64 characters"
      else
        match hactive : (⟨"app_secret".toList, appSecretKey⟩ :: configuredKeys).find?
            fun key => key.id = activeKeyId requested with
        | none => .error ("BACKUP_ENCRYPTION_ACTIVE_KEY_ID "
            ++ String.ofList (activeKeyId requested) ++ " is not configured")
        | some activeKey => .ok
            { keys := ⟨"app_secret".toList, appSecretKey⟩ :: configuredKeys
              activeKey := activeKey
              activeKey_mem := List.mem_of_find?_eq_some hactive
              ids_nodup := (nodup_of_duplicateKey (·.id) (fun _ _ _ h =>
                ⟨(duplicateKey_cons h).1, (duplicateKey_cons h).2.2⟩) hduplicate).1
              fingerprints_nodup := (nodup_of_duplicateKey (·.fingerprint crypto) (fun _ _ _ h =>
                (duplicateKey_cons h).2) hduplicate).1
              isKeyId_of_mem := fun key hkey => by
                rcases List.mem_cons.mp hkey with rfl | hkey
                · exact (by decide : isKeyId "app_secret".toList = true)
                · exact isKeyId_of_configuredKeys hkeys key hkey }

end

section

variable (crypto : NodeCrypto)

/-! ### Headers -/

/-- The members of a header of version 3 in the order `JSON.stringify` writes them. -/
def headerMembers (key : BackupEncryptionKey) (artifactNonce : List UInt8) :
    List (List Char × List Char) :=
  [("version".toList, "3".toList),
    ("algorithm".toList, quote "aes-256-gcm-chunked".toList),
    ("keySource".toList, quote "keyring".toList),
    ("keyId".toList, quote key.id),
    ("keyFingerprint".toList, quote (key.fingerprint crypto)),
    ("chunkSize".toList, "65536".toList),
    ("artifactNonce".toList, quote (base64urlEncode artifactNonce))]

/-- `Buffer.from(JSON.stringify(header), "utf8")`. -/
def headerJson (key : BackupEncryptionKey) (artifactNonce : List UInt8) : List UInt8 :=
  utf8Encode (renderObject (headerMembers crypto key artifactNonce))

/-- `headerBytes`.  A header is far shorter than `writeUInt32BE` allows. -/
def headerBytes (key : BackupEncryptionKey) (artifactNonce : List UInt8) : List UInt8 :=
  MAGIC ++ uint32BE (headerJson crypto key artifactNonce).length
    ++ headerJson crypto key artifactNonce

/-- What `parseHeader` returns: the key, and the artifact nonce of a header of version 3. -/
structure ParsedHeader where
  key : BackupEncryptionKey
  artifactNonce : Option (List UInt8)

/-- `parsed[name] === text`. -/
def Json.isString (parsed : Json) (name text : String) : Bool :=
  match parsed.get name with
  | some (.string value) => value == text.toList
  | _ => false

/-- `parsed[name] === n`. -/
def Json.isNumber (parsed : Json) (name : String) (n : ℕ) : Bool :=
  match parsed.get name with
  | some (.number value) => numberEquals value n
  | _ => false

/-- The text of a property that is a string. -/
def Json.stringOf (parsed : Json) (name : String) : Option (List Char) :=
  match parsed.get name with
  | some (.string value) => some value
  | _ => none

variable {crypto}

/-- `parseHeader` for `version === 2`. -/
def parseHeaderV2 (parsed : Json) (keyring : BackupEncryptionKeyring crypto) :
    Except String ParsedHeader :=
  if !Json.isString parsed "keySource" "app_secret" || !Json.isNumber parsed "chunkSize" CHUNK_SIZE then
    .error "Unsupported encrypted backup format"
  else match (Json.stringOf parsed "keyFingerprint").bind keyring.keysByFingerprint with
    | none => .error "Encrypted backup was encrypted with a different APP_SECRET or unavailable backup encryption key. Restore, verify, or download requires the original key material."
    | some key => .ok ⟨key, none⟩

/-- `parseHeader` for `version === 3`.  An id that is not a string is in no keyring. -/
def parseHeaderV3 (parsed : Json) (keyring : BackupEncryptionKeyring crypto) :
    Except String ParsedHeader :=
  match Json.stringOf parsed "keyId", Json.stringOf parsed "artifactNonce" with
  | some keyId, some nonce =>
    if !Json.isString parsed "keySource" "keyring" || !Json.isNumber parsed "chunkSize" CHUNK_SIZE
        || !isKeyId keyId then
      .error "Unsupported encrypted backup format"
    else match keyring.keysById keyId with
      | none => .error ("Encrypted backup requires backup encryption key " ++ String.ofList keyId
          ++ ". Configure BACKUP_ENCRYPTION_KEYS or restore the original APP_SECRET.")
      | some key =>
        if Json.stringOf parsed "keyFingerprint" ≠ some (key.fingerprint crypto) then
          if keyId = "app_secret".toList then
            .error "Encrypted backup was encrypted with a different APP_SECRET. Restore, verify, or download requires the original APP_SECRET."
          else .error ("Encrypted backup key " ++ String.ofList keyId
            ++ " fingerprint mismatch. Check BACKUP_ENCRYPTION_KEYS.")
        else if (base64urlDecode nonce).length ≠ ARTIFACT_NONCE_BYTES then
          .error "Encrypted backup artifact nonce is invalid"
        else .ok ⟨key, some (base64urlDecode nonce)⟩
  | _, _ => .error "Unsupported encrypted backup format"

/-- `parseHeader`. -/
def parseHeader (raw : List UInt8) (keyring : BackupEncryptionKeyring crypto) :
    Except String ParsedHeader :=
  match Json.parse (utf8Decode raw) with
  | none => .error "SyntaxError"
  | some parsed =>
    if Json.isString parsed "algorithm" "aes-256-gcm-chunked" then
      if Json.isNumber parsed "version" 2 then parseHeaderV2 parsed keyring
      else if Json.isNumber parsed "version" 3 then parseHeaderV3 parsed keyring
      else .error "Unsupported encrypted backup format"
    else .error "Unsupported encrypted backup format"

/-! ### Frames -/

/-- The flag byte of a frame. -/
def flagByte (finalFrame : Bool) : UInt8 := if finalFrame then 1 else 0

/-- `frameMarker`. -/
def frameMarker (index : ℕ) (finalFrame : Bool) : Except String (List UInt8) :=
  (writeUInt32BE index).map (· ++ [flagByte finalFrame])

/-- `frameAadV3`. -/
def frameAadV3 (headerRaw artifactNonce : List UInt8) (index : ℕ) (finalFrame : Bool) :
    Except String (List UInt8) :=
  (frameMarker index finalFrame).map (headerRaw ++ artifactNonce ++ ·)

/-- `frameAad`: frames of version 2 are bound to their place only. -/
def frameAad (header : ParsedHeader) (headerRaw : List UInt8) (index : ℕ) (finalFrame : Bool) :
    Except String (List UInt8) :=
  match header.artifactNonce with
  | none => frameMarker index finalFrame
  | some artifactNonce => frameAadV3 headerRaw artifactNonce index finalFrame

/-- The bytes of a frame. -/
def frameBytes (index : ℕ) (finalFrame : Bool) (iv tag ciphertext : List UInt8) : List UInt8 :=
  uint32BE ciphertext.length ++ uint32BE index ++ [flagByte finalFrame] ++ iv ++ tag ++ ciphertext

variable (crypto) in
/-- `decryptFrame`. -/
def decryptFrame (iv tag ciphertext : List UInt8) (index : ℕ) (finalFrame : Bool)
    (header : ParsedHeader) (headerRaw : List UInt8) : Except String (List UInt8) :=
  (frameAad header headerRaw index finalFrame).bind fun aad =>
    match crypto.gcmDecrypt header.key.key iv aad ciphertext tag with
    | none => .error "Unsupported state or unable to authenticate data"
    | some plaintext => .ok plaintext

/-! ### The encrypting transform -/

variable (crypto)

/-- A `BackupEncryptTransform`: its key and what it draws at random, the initialisation vector
    of each frame by its index. -/
structure BackupEncryptTransform where
  key : BackupEncryptionKey
  artifactNonce : RandomBytes ARTIFACT_NONCE_BYTES
  ivs : ℕ → RandomBytes IV_BYTES

/-- A frame that was pushed: what it holds and its bytes. -/
structure PushedFrame where
  index : ℕ
  finalFrame : Bool
  plaintext : List UInt8
  bytes : List UInt8

namespace BackupEncryptTransform

variable (t : BackupEncryptTransform)

/-- `this.headerRaw`, pushed in front of the first frame. -/
def headerRaw : List UInt8 := headerBytes crypto t.key t.artifactNonce.1

/-- `encryptFrame`. -/
def encryptFrame (plaintext : List UInt8) (index : ℕ) (finalFrame : Bool) :
    Except String (List UInt8) :=
  (frameAadV3 (t.headerRaw crypto) t.artifactNonce.1 index finalFrame).bind fun aad =>
    let sealed := crypto.gcmEncrypt t.key.key (t.ivs index).1 aad plaintext
    (writeUInt32BE sealed.1.length).bind fun length =>
      (writeUInt32BE index).map fun frameIndex =>
        length ++ frameIndex ++ [flagByte finalFrame] ++ (t.ivs index).1 ++ sealed.2 ++ sealed.1

/-- `pushFrame`. -/
def pushFrame (plaintext : List UInt8) (index : ℕ) (finalFrame : Bool) :
    Except String PushedFrame :=
  (t.encryptFrame crypto plaintext index finalFrame).map fun bytes =>
    ⟨index, finalFrame, plaintext, bytes⟩

/-- The body of the loop of `_transform`, in the state `this.frameIndex`. -/
def step (frameIndex : ℕ) (buffer : List UInt8) : Step ℕ UInt8 PushedFrame String :=
  if CHUNK_SIZE < buffer.length then
    match t.pushFrame crypto (buffer.take CHUNK_SIZE) frameIndex false with
    | .ok frame => .emit (frameIndex + 1) [frame] (buffer.drop CHUNK_SIZE)
    | .error e => .fail e
  else .more

/-- The writes, as a transducer. -/
def machine : Machine ℕ UInt8 PushedFrame String where
  step := t.step crypto
  progress := by
    intro index buffer index' out rest h
    unfold step at h
    split at h
    · rename_i hlength
      split at h
      · cases h
        rw [List.length_drop]
        have : 0 < CHUNK_SIZE := by decide
        omega
      · cases h
    · cases h
  step_append := by
    intro index buffer h c
    by_cases hlength : CHUNK_SIZE < buffer.length
    · simp only [step]
      rw [if_pos (by rw [List.length_append]; omega), if_pos hlength,
        List.take_append_of_le_length hlength.le, List.drop_append_of_le_length hlength.le]
      cases t.pushFrame crypto (buffer.take CHUNK_SIZE) index false with
      | ok frame => rfl
      | error e => rfl
    · exact absurd (if_neg hlength) h

/-- `_flush`: the rest of the buffer is the final frame. -/
def flush (p : Pending ℕ UInt8) : Outcome PushedFrame String Unit :=
  match t.pushFrame crypto p.buffer p.state true with
  | .ok frame => ⟨[frame], .ok ()⟩
  | .error e => ⟨[], .error e⟩

/-- The frames pushed for these writes, and for the end of the input when it has come. -/
def run (chunks : List (List UInt8)) (ended : Bool) : Outcome PushedFrame String Unit :=
  ((t.machine crypto).feed ⟨0, []⟩ chunks).andThen fun p =>
    if ended then t.flush crypto p else ⟨[], .ok ()⟩

/-- The bytes of a stream: the header and the frames. -/
def stream (frames : List PushedFrame) : List UInt8 :=
  t.headerRaw crypto ++ frames.flatMap (·.bytes)

end BackupEncryptTransform

/-! ### The decrypting transform -/

/-- The fields of a `BackupDecryptTransform`. -/
structure DecryptState where
  header : Option (ParsedHeader × List UInt8)
  expectedFrameIndex : ℕ
  finalFrameSeen : Bool

/-- The state before the first byte. -/
def DecryptState.initial : DecryptState := ⟨none, 0, false⟩

namespace BackupDecryptTransform

variable (keyring : BackupEncryptionKeyring crypto)

variable {crypto} in
/-- The first part of `drainFrames`: the header. -/
def headerStep (s : DecryptState) (buffer : List UInt8) : Step DecryptState UInt8 UInt8 String :=
  if buffer.length < MAGIC.length + 4 then .more
  else if buffer.take MAGIC.length ≠ MAGIC then .fail "Encrypted backup header is invalid"
  else
    let headerLength := readUInt32BE (buffer.drop MAGIC.length)
    if MAX_FRAME_SIZE < headerLength then .fail "Encrypted backup header is too large"
    else
      let headerEnd := MAGIC.length + 4 + headerLength
      if buffer.length < headerEnd then .more
      else match parseHeader ((buffer.take headerEnd).drop (MAGIC.length + 4)) keyring with
        | .error e => .fail e
        | .ok header =>
          .emit { s with header := some (header, buffer.take headerEnd) } [] (buffer.drop headerEnd)

/-- One round of the loop of `drainFrames`. -/
def frameStep (s : DecryptState) (header : ParsedHeader) (headerRaw buffer : List UInt8) :
    Step DecryptState UInt8 UInt8 String :=
  if buffer.length < 4 then .more
  else if s.finalFrameSeen then .fail "Encrypted backup contains data after its final frame"
  else
    let ciphertextLength := readUInt32BE buffer
    if MAX_FRAME_SIZE < ciphertextLength then .fail "Encrypted backup frame is too large"
    else
      let frameLength := FRAME_METADATA_BYTES + ciphertextLength
      if buffer.length < frameLength then .more
      else
        let frameIndex := readUInt32BE (buffer.drop 4)
        let flag := buffer.getD 8 0
        if flag ≠ 0 ∧ flag ≠ 1 then .fail "Encrypted backup frame flag is invalid"
        else if frameIndex ≠ s.expectedFrameIndex then
          .fail "Encrypted backup frame order is invalid"
        else
          let iv := (buffer.drop 9).take IV_BYTES
          let tag := (buffer.drop (9 + IV_BYTES)).take TAG_BYTES
          let ciphertext := (buffer.drop FRAME_METADATA_BYTES).take ciphertextLength
          match decryptFrame crypto iv tag ciphertext frameIndex (flag == 1) header headerRaw with
          | .error e => .fail e
          | .ok plaintext =>
            .emit { s with expectedFrameIndex := s.expectedFrameIndex + 1
                           finalFrameSeen := flag == 1 } plaintext (buffer.drop frameLength)

variable {crypto}

/-- `drainFrames`, one unit at a time. -/
def step (s : DecryptState) (buffer : List UInt8) : Step DecryptState UInt8 UInt8 String :=
  match s.header with
  | none => headerStep keyring s buffer
  | some (header, headerRaw) => frameStep crypto s header headerRaw buffer

theorem headerStep_append {s : DecryptState} {buffer : List UInt8}
    (h : headerStep keyring s buffer ≠ .more) (c : List UInt8) :
    headerStep keyring s (buffer ++ c) = (headerStep keyring s buffer).append c := by
  have hmagic : MAGIC.length = 8 := by decide
  unfold headerStep at h ⊢
  by_cases hshort : buffer.length < MAGIC.length + 4
  · exact absurd (if_pos hshort) h
  rw [if_neg hshort] at h ⊢
  rw [if_neg (by rw [List.length_append]; omega), List.take_append_of_le_length (by omega)]
  by_cases hwrong : buffer.take MAGIC.length ≠ MAGIC
  · rw [if_pos hwrong, if_pos hwrong]; rfl
  rw [if_neg hwrong] at h ⊢
  rw [if_neg hwrong]
  -- the length field is inside the buffer
  have hread : readUInt32BE ((buffer ++ c).drop MAGIC.length)
      = readUInt32BE (buffer.drop MAGIC.length) := by
    rw [List.drop_append_of_le_length (by omega),
      readUInt32BE_append (by rw [List.length_drop]; omega)]
  dsimp only at h ⊢
  rw [hread]
  by_cases hlarge : MAX_FRAME_SIZE < readUInt32BE (buffer.drop MAGIC.length)
  · rw [if_pos hlarge, if_pos hlarge]; rfl
  rw [if_neg hlarge] at h ⊢
  rw [if_neg hlarge]
  by_cases hpartial : buffer.length < MAGIC.length + 4 + readUInt32BE (buffer.drop MAGIC.length)
  · exact absurd (if_pos hpartial) h
  rw [if_neg hpartial, if_neg (by rw [List.length_append]; omega),
    List.take_append_of_le_length (by omega), List.drop_append_of_le_length (by omega)]
  cases parseHeader ((buffer.take (MAGIC.length + 4 + readUInt32BE (buffer.drop MAGIC.length))).drop
    (MAGIC.length + 4)) keyring with
  | error e => rfl
  | ok header => rfl

theorem frameStep_append {s : DecryptState} {header : ParsedHeader} {headerRaw buffer : List UInt8}
    (h : frameStep crypto s header headerRaw buffer ≠ .more) (c : List UInt8) :
    frameStep crypto s header headerRaw (buffer ++ c)
      = (frameStep crypto s header headerRaw buffer).append c := by
  unfold frameStep at h ⊢
  by_cases hshort : buffer.length < 4
  · exact absurd (if_pos hshort) h
  rw [if_neg hshort] at h ⊢
  rw [if_neg (by rw [List.length_append]; omega)]
  by_cases hfinal : s.finalFrameSeen = true
  · rw [if_pos hfinal, if_pos hfinal]; rfl
  rw [if_neg hfinal] at h ⊢
  rw [if_neg hfinal]
  dsimp only at h ⊢
  rw [readUInt32BE_append (by omega)]
  by_cases hlarge : MAX_FRAME_SIZE < readUInt32BE buffer
  · rw [if_pos hlarge, if_pos hlarge]; rfl
  rw [if_neg hlarge] at h ⊢
  rw [if_neg hlarge]
  by_cases hpartial : buffer.length < FRAME_METADATA_BYTES + readUInt32BE buffer
  · exact absurd (if_pos hpartial) h
  have hmetadata : FRAME_METADATA_BYTES = 37 := by decide
  have hiv : IV_BYTES = 12 := rfl
  have htag : TAG_BYTES = 16 := rfl
  -- every field of the frame is inside the buffer
  have hfield : ∀ start length, start + length ≤ buffer.length →
      ((buffer ++ c).drop start).take length = (buffer.drop start).take length := by
    intro start length hinside
    rw [List.drop_append_of_le_length (by omega),
      List.take_append_of_le_length (by rw [List.length_drop]; omega)]
  have hflag : (buffer ++ c).getD 8 0 = buffer.getD 8 0 := by
    rw [List.getD_eq_getElem?_getD, List.getElem?_append_left (by omega),
      List.getD_eq_getElem?_getD]
  have hindex : readUInt32BE ((buffer ++ c).drop 4) = readUInt32BE (buffer.drop 4) := by
    rw [List.drop_append_of_le_length (by omega),
      readUInt32BE_append (by rw [List.length_drop]; omega)]
  rw [if_neg hpartial, if_neg (by rw [List.length_append]; omega), hflag, hindex,
    hfield 9 IV_BYTES (by omega), hfield (9 + IV_BYTES) TAG_BYTES (by omega),
    hfield FRAME_METADATA_BYTES _ (by omega), List.drop_append_of_le_length (by omega)]
  by_cases hbadFlag : buffer.getD 8 0 ≠ 0 ∧ buffer.getD 8 0 ≠ 1
  · rw [if_pos hbadFlag, if_pos hbadFlag]; rfl
  rw [if_neg hbadFlag, if_neg hbadFlag]
  by_cases horder : readUInt32BE (buffer.drop 4) ≠ s.expectedFrameIndex
  · rw [if_pos horder, if_pos horder]; rfl
  rw [if_neg horder, if_neg horder]
  split <;> rfl

/-- The writes, as a transducer. -/
def machine : Machine DecryptState UInt8 UInt8 String where
  step := step keyring
  progress := by
    intro s buffer s' out rest h
    have hmagic : MAGIC.length = 8 := by decide
    have hmetadata : FRAME_METADATA_BYTES = 37 := by decide
    unfold step headerStep frameStep at h
    dsimp only at h
    repeat' split at h
    all_goals cases h
    all_goals rw [List.length_drop]; omega
  step_append := by
    intro s buffer h c
    unfold step at h ⊢
    cases hheader : s.header with
    | none =>
      rw [hheader] at h
      exact headerStep_append keyring h c
    | some header =>
      rw [hheader] at h
      exact frameStep_append h c

/-- `_flush`. -/
def flush (p : Pending DecryptState UInt8) : Outcome UInt8 String Unit :=
  ((machine keyring).drain p).andThen fun p =>
    if p.state.header.isNone then ⟨[], .error "Encrypted backup is missing its header"⟩
    else if p.buffer ≠ [] then ⟨[], .error "Encrypted backup ended with a partial frame"⟩
    else if !p.state.finalFrameSeen then
      ⟨[], .error "Encrypted backup ended before its final frame"⟩
    else ⟨[], .ok ()⟩

/-- What the transform puts out for these writes, and whether it finishes cleanly. -/
def run (chunks : List (List UInt8)) : Outcome UInt8 String Unit :=
  ((machine keyring).feed ⟨DecryptState.initial, []⟩ chunks).andThen (flush keyring)

end BackupDecryptTransform

end

end ComposeBastion
