import ComposeBastion.Backup.RoundTrip

namespace ComposeBastion

open Js Transducer

/-!
# Artifacts of version 2

`BackupEncryptTransform` writes version 3 only, but artifacts of version 2, which older versions
have written, are still read.  Their frames are sealed with the index and the final flag alone as
associated data: a frame of version 2 is bound to its key and its place, and to no artifact.

* `LegacyFrame` — a frame that an older version has sealed;
* `LegacyStream` — a header of version 2 with such frames behind it, each in its place;
* `run_legacyStream` — that is read, whatever artifacts the frames are from.
-/

section

variable (crypto : NodeCrypto)

/-- A frame of version 2.  Its index fits into its field. -/
structure LegacyFrame where
  key : List UInt8
  index : ℕ
  finalFrame : Bool
  iv : RandomBytes IV_BYTES
  plaintext : List UInt8
  index_lt : index < 2 ^ 32

namespace LegacyFrame

variable (f : LegacyFrame)

/-- Its associated data, `frameMarker`. -/
def aad : List UInt8 := uint32BE f.index ++ [flagByte f.finalFrame]

/-- The ciphertext and tag of a frame. -/
def sealed : List UInt8 × List UInt8 := crypto.gcmEncrypt f.key f.iv.1 f.aad f.plaintext

def bytes : List UInt8 :=
  frameBytes f.index f.finalFrame f.iv.1 (f.sealed crypto).2 (f.sealed crypto).1

/-- Decryption inverts the encryption of the frame. -/
def Opens : Prop :=
  crypto.gcmDecrypt f.key f.iv.1 f.aad (f.sealed crypto).1 (f.sealed crypto).2 = some f.plaintext

theorem frameMarker_eq : frameMarker f.index f.finalFrame = .ok f.aad := by
  rw [frameMarker, writeUInt32BE, if_pos f.index_lt]
  rfl

variable {crypto f} in
theorem openFrame {key : BackupEncryptionKey} (hkey : f.key = key.key) (headerRaw : List UInt8)
    (hopens : f.Opens crypto) (hlength : f.plaintext.length ≤ MAX_FRAME_SIZE) :
    BackupDecryptTransform.OpenFrame crypto (⟨key, none⟩, headerRaw) f.index f.finalFrame
      (f.bytes crypto) f.plaintext := by
  refine ⟨f.index_lt, f.iv.1, (f.sealed crypto).2, (f.sealed crypto).1, f.iv.2,
    crypto.length_tag _ _ _ _, ?_, rfl, ?_⟩
  · rw [sealed, crypto.length_ciphertext]
    exact hlength
  · have haad : frameAad ⟨key, none⟩ headerRaw f.index f.finalFrame = .ok f.aad := f.frameMarker_eq
    rw [decryptFrame, haad, Except.bind]
    dsimp only
    rw [← hkey, hopens]

end LegacyFrame

/-- Frames under one key, each in its place from `index` on; the last of them is final, and no
    other. -/
inductive InPlace (key : List UInt8) : ℕ → List LegacyFrame → Prop
  | last {f : LegacyFrame} (hkey : f.key = key) (hfinal : f.finalFrame = true) :
      InPlace key f.index [f]
  | next {f : LegacyFrame} {frames : List LegacyFrame} (hkey : f.key = key)
      (hfinal : f.finalFrame = false) (hrest : InPlace key (f.index + 1) frames) :
      InPlace key f.index (f :: frames)

variable {crypto} in
/-- The stream begins with a header of version 2 for the key. -/
def LegacyHeader (keyring : BackupEncryptionKeyring crypto) (bytes : List UInt8)
    (key : BackupEncryptionKey) (rest : List UInt8) : Prop :=
  ∃ json, json.length ≤ MAX_FRAME_SIZE ∧ bytes = wireHeader json ++ rest
    ∧ parseHeader json keyring = .ok ⟨key, none⟩

variable {crypto} in
/-- A header of version 2, and behind it frames of version 2 in their places. -/
structure LegacyStream (keyring : BackupEncryptionKeyring crypto) (legacy : Set LegacyFrame)
    (key : BackupEncryptionKey) (frames : List LegacyFrame) (bytes : List UInt8) : Prop where
  header : LegacyHeader keyring bytes key (frames.flatMap (·.bytes crypto))
  inPlace : InPlace key.key 0 frames
  sealed : ∀ f ∈ frames, f ∈ legacy

/-! ### Streams of version 2 are read -/

variable {crypto}

theorem openFrames_of_inPlace {key : BackupEncryptionKey} (headerRaw : List UInt8) {index : ℕ}
    {frames : List LegacyFrame} (h : InPlace key.key index frames)
    (hopens : ∀ f ∈ frames, f.Opens crypto)
    (hlength : ∀ f ∈ frames, f.plaintext.length ≤ MAX_FRAME_SIZE) :
    BackupDecryptTransform.OpenFrames crypto (⟨key, none⟩, headerRaw) index
      (frames.flatMap (·.bytes crypto)) (frames.flatMap (·.plaintext)) := by
  induction h with
  | @last f hkey hfinal =>
    have hframe := LegacyFrame.openFrame hkey headerRaw (hopens f List.mem_cons_self)
      (hlength f List.mem_cons_self)
    rw [hfinal] at hframe
    simp only [List.flatMap_cons, List.flatMap_nil, List.append_nil]
    exact .last hframe
  | @next f frames hkey hfinal _ ih =>
    have hframe := LegacyFrame.openFrame hkey headerRaw (hopens f List.mem_cons_self)
      (hlength f List.mem_cons_self)
    rw [hfinal] at hframe
    simp only [List.flatMap_cons]
    exact .next hframe (ih (fun g hg => hopens g (List.mem_cons_of_mem _ hg))
      fun g hg => hlength g (List.mem_cons_of_mem _ hg))

/-- **Frames of version 2 in their places are read**, also when they are from several artifacts. -/
theorem run_legacyStream {keyring : BackupEncryptionKeyring crypto} {legacy : Set LegacyFrame}
    {key : BackupEncryptionKey} {frames : List LegacyFrame} {chunks : List (List UInt8)}
    (h : LegacyStream keyring legacy key frames chunks.flatten)
    (hopens : ∀ f ∈ frames, f.Opens crypto)
    (hlength : ∀ f ∈ frames, f.plaintext.length ≤ MAX_FRAME_SIZE) :
    BackupDecryptTransform.run keyring chunks = ⟨frames.flatMap (·.plaintext), .ok ()⟩ := by
  obtain ⟨json, hjson, hbytes, hparse⟩ := h.header
  exact BackupDecryptTransform.run_openFrames keyring hjson hparse
    (openFrames_of_inPlace _ h.inPlace hopens hlength) hbytes

/-! ### The header of version 2 -/

variable (crypto)

/-- The members of a header of version 2 with their values. -/
def renderedLegacyHeader (key : BackupEncryptionKey) : List Json.RenderedMember :=
  [versionMember "2" 2 readsAs_two, algorithmMember,
    keySourceMember "app_secret".toList (isPlain_of_all (by decide)),
    keyFingerprintMember crypto key, chunkSizeMember]

/-- The JSON text of a header of version 2. -/
def legacyHeaderJson (key : BackupEncryptionKey) : List UInt8 :=
  utf8Encode (renderObject ((renderedLegacyHeader crypto key).map Json.RenderedMember.rendered))

variable {crypto}

theorem parseHeader_legacyHeaderJson {keyring : BackupEncryptionKeyring crypto}
    {key : BackupEncryptionKey}
    (hkey : keyring.keysByFingerprint (key.fingerprint crypto) = some key) :
    parseHeader (legacyHeaderJson crypto key) keyring = .ok ⟨key, none⟩ := by
  have htwo : numberEquals (2 : ℕ) 2 = true := by decide +kernel
  have hchunk : numberEquals (65536 : ℕ) CHUNK_SIZE = true := by decide +kernel
  have hparse : Json.parse (utf8Decode (legacyHeaderJson crypto key)) = some (.object
      [("version".toList, .number (2 : ℕ)), ("algorithm".toList, .string "aes-256-gcm-chunked".toList),
        ("keySource".toList, .string "app_secret".toList),
        ("keyFingerprint".toList, .string (key.fingerprint crypto)),
        ("chunkSize".toList, .number (65536 : ℕ))]) := by
    rw [legacyHeaderJson, utf8Decode_utf8Encode, renderedLegacyHeader, Json.parse_renderObject]
    rfl
  rw [parseHeader, hparse]
  show (if numberEquals (2 : ℕ) 2 then _ else _) = _
  rw [htwo, if_pos rfl]
  show (if (!true || !numberEquals (65536 : ℕ) CHUNK_SIZE) then _ else _) = _
  rw [hchunk, if_neg (by decide)]
  have hname : Json.stringOf (.object [("version".toList, .number (2 : ℕ)),
      ("algorithm".toList, .string "aes-256-gcm-chunked".toList),
      ("keySource".toList, .string "app_secret".toList),
      ("keyFingerprint".toList, .string (key.fingerprint crypto)),
      ("chunkSize".toList, .number (65536 : ℕ))]) "keyFingerprint"
        = some (key.fingerprint crypto) := rfl
  rw [hname, Option.bind_some, hkey]

end

end ComposeBastion
