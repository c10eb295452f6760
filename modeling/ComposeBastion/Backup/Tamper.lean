import ComposeBastion.Backup.Legacy

namespace ComposeBastion

open Js Transducer

/-!
# Backup streams cannot be forged

An idealised AES-GCM opens only what was sealed: the frames of the encrypting transforms, the frames
that older versions have sealed, and what is sealed without associated data.  A stream of version 3
that is accepted is then the stream of one encrypting transform, whole: the associated data of a
frame fixes the header and the nonce, the nonce fixes the artifact, the index fixes the place, and
the final flag fixes the end.  A stream of version 2 is one of frames of version 2 in their places.

* `Session` — an encrypting transform with the writes it was given;
* `Sealed`, `Unforgeable` — the calls that seal, and the idealisation;
* `frameStep_inv`, `headerStep_inv` — what the decrypting transform has checked about a frame and
  a header it takes off the buffer;
* `drain_session`, `drain_legacy` — the frames it accepts are those of one session, or frames of
  version 2, in order and to the end.
-/

section

variable (crypto : NodeCrypto)

/-! ### Sessions -/

/-- An encrypting transform, the writes it was given, and whether its input has ended. -/
structure Session where
  transform : BackupEncryptTransform
  writes : List (List UInt8)
  ended : Bool

namespace Session

/-- The frames a session has pushed, also when it failed or is not over. -/
def frames (s : Session) : List PushedFrame := (s.transform.run crypto s.writes s.ended).output

/-- The session has written a complete stream. -/
def Complete (s : Session) : Prop :=
  s.ended = true ∧ (s.transform.run crypto s.writes s.ended).result = .ok ()

/-- The bytes a session has put out. -/
def bytes (s : Session) : List UInt8 := s.transform.stream crypto (s.frames crypto)

/-- What the session was given to encrypt. -/
def plaintext (s : Session) : List UInt8 := s.writes.flatten

end Session

/-- The calls of AES-256-GCM that seal: the frames of the sessions, the frames of version 2 that
    older versions have sealed, and calls that set no associated data (`encryptSecret` and
    `encryptConfigPayload` in `services/crypto.ts`). -/
inductive Sealed (sessions : Set Session) (legacy : Set LegacyFrame) :
    (key iv aad plaintext : List UInt8) → Prop
  | frame {s : Session} (hs : s ∈ sessions) {f : PushedFrame} (hf : f ∈ s.frames crypto) :
      Sealed sessions legacy s.transform.key.key (s.transform.ivs f.index).1
        (s.transform.aad crypto f.index f.finalFrame) f.plaintext
  | legacy {f : LegacyFrame} (hf : f ∈ legacy) :
      Sealed sessions legacy f.key f.iv.1 f.aad f.plaintext
  | noAad (key iv plaintext : List UInt8) : Sealed sessions legacy key iv [] plaintext

/-- Decryption succeeds only on what encryption has produced under the same key, initialisation
    vector and associated data, and gives back what was encrypted. -/
def NodeCrypto.Unforgeable (sessions : Set Session) (legacy : Set LegacyFrame) : Prop :=
  ∀ key iv aad ciphertext tag plaintext,
    crypto.gcmDecrypt key iv aad ciphertext tag = some plaintext →
      Sealed crypto sessions legacy key iv aad plaintext
        ∧ crypto.gcmEncrypt key iv aad plaintext = (ciphertext, tag)

/-- No two sessions have drawn the same artifact nonce. -/
def FreshNonces (sessions : Set Session) : Prop :=
  ∀ s ∈ sessions, ∀ s' ∈ sessions,
    s.transform.artifactNonce = s'.transform.artifactNonce → s = s'

/-! ### What a session has pushed -/

namespace BackupEncryptTransform

variable {crypto} {t : BackupEncryptTransform}

variable (crypto t) in
/-- Frames that are not final, one after the other from `index` on. -/
def Blocks (index : ℕ) (frames : List PushedFrame) : Prop :=
  ∀ k f, frames[k]? = some f →
    f = t.frame crypto f.plaintext (index + k) false ∧ index + k < 2 ^ 32

theorem blocks_nil (index : ℕ) : Blocks crypto t index [] := by
  intro k f hf
  simp at hf

theorem blocks_cons {index : ℕ} {block : List UInt8} {frames : List PushedFrame}
    (hindex : index < 2 ^ 32) (h : Blocks crypto t (index + 1) frames) :
    Blocks crypto t index (t.frame crypto block index false :: frames) := by
  intro k f hf
  cases k with
  | zero =>
    cases hf
    exact ⟨rfl, hindex⟩
  | succ k =>
    have hframe := h k f hf
    rwa [show index + 1 + k = index + (k + 1) by omega] at hframe

/-- A frame that was pushed is the frame of its plaintext. -/
theorem eq_frame_of_pushFrame {plaintext : List UInt8} {index : ℕ} {finalFrame : Bool}
    {f : PushedFrame} (hlength : plaintext.length ≤ CHUNK_SIZE)
    (h : t.pushFrame crypto plaintext index finalFrame = .ok f) :
    f = t.frame crypto plaintext index finalFrame ∧ index < 2 ^ 32 := by
  by_cases hindex : index < 2 ^ 32
  · rw [pushFrame_of_lt hlength hindex] at h
    cases h
    exact ⟨rfl, hindex⟩
  · obtain ⟨e, hfail⟩ := @pushFrame_of_not_lt crypto t plaintext index finalFrame hindex
    rw [hfail] at h
    cases h

/-- Draining pushes blocks, and their plaintexts are what it took off the buffer. -/
theorem drain_blocks (p : Pending ℕ UInt8) :
    Blocks crypto t p.state ((t.machine crypto).drain p).output
      ∧ ∀ q, ((t.machine crypto).drain p).result = .ok q →
        q.state = p.state + ((t.machine crypto).drain p).output.length
          ∧ p.buffer = ((t.machine crypto).drain p).output.flatMap (·.plaintext) ++ q.buffer := by
  refine Machine.drain_induction (motive := fun p r => Blocks crypto t p.state r.output
    ∧ ∀ q, r.result = .ok q → q.state = p.state + r.output.length
      ∧ p.buffer = r.output.flatMap (·.plaintext) ++ q.buffer) ?_ ?_ ?_ p
  · intro p _
    refine ⟨blocks_nil _, fun q hq => ?_⟩
    cases hq
    exact ⟨rfl, rfl⟩
  · intro p e _
    exact ⟨blocks_nil _, fun q hq => by cases hq⟩
  · intro p s o rest hemit ih
    generalize (t.machine crypto).drain ⟨s, rest⟩ = r at ih ⊢
    -- the unit is one block
    have hstep : t.step crypto p.state p.buffer = .emit s o rest := hemit
    rw [step] at hstep
    split at hstep
    · rename_i hlong
      split at hstep
      · rename_i f hpush
        cases hstep
        obtain ⟨rfl, hindex⟩ := eq_frame_of_pushFrame (List.length_take_le _ _) hpush
        obtain ⟨hblocks, hdone⟩ := ih
        refine ⟨blocks_cons hindex hblocks, fun q hq => ?_⟩
        obtain ⟨hstate, hbuffer⟩ := hdone q hq
        refine ⟨?_, ?_⟩
        · rw [hstate]
          show p.state + 1 + r.output.length = p.state + (r.output.length + 1)
          omega
        · show p.buffer = p.buffer.take CHUNK_SIZE ++ r.output.flatMap (·.plaintext) ++ q.buffer
          rw [List.append_assoc, ← hbuffer, List.take_append_drop]
      · cases hstep
    · cases hstep

theorem length_buffer_of_settled {p : Pending ℕ UInt8} (h : (t.machine crypto).Settled p) :
    p.buffer.length ≤ CHUNK_SIZE := by
  by_contra hlong
  have hstep : t.step crypto p.state p.buffer = .more := h
  rw [step, if_pos (by omega)] at hstep
  split at hstep <;> cases hstep

/-- **What a session has pushed**: blocks, and behind them a final frame when it is complete. -/
theorem run_frames (writes : List (List UInt8)) (ended : Bool) :
    ∃ blocks, Blocks crypto t 0 blocks ∧ ((t.run crypto writes ended).output = blocks
      ∨ ended = true ∧ blocks.length < 2 ^ 32 ∧ ∃ rest, t.run crypto writes ended
          = ⟨blocks ++ [t.frame crypto rest blocks.length true], .ok ()⟩
        ∧ writes.flatten = blocks.flatMap (·.plaintext) ++ rest) := by
  have hfeed : (t.machine crypto).feed ⟨0, []⟩ writes
      = (t.machine crypto).drain ⟨0, writes.flatten⟩ := Machine.feed_eq_drain settled_initial writes
  obtain ⟨hblocks, hdone⟩ := @drain_blocks crypto t ⟨0, writes.flatten⟩
  have hsettled := @Machine.settled_of_drain _ _ _ _ (t.machine crypto) ⟨0, writes.flatten⟩
  rw [run, hfeed]
  generalize (t.machine crypto).drain ⟨0, writes.flatten⟩ = r at hblocks hdone hsettled ⊢
  obtain ⟨blocks, result⟩ := r
  refine ⟨blocks, hblocks, ?_⟩
  cases result with
  | error e => exact Or.inl rfl
  | ok q =>
    rw [Outcome.andThen_ok]
    cases ended with
    | false => exact Or.inl (List.append_nil _)
    | true =>
      obtain ⟨hstate, hbuffer⟩ := hdone q rfl
      rw [if_pos rfl, flush]
      cases hpush : t.pushFrame crypto q.buffer q.state true with
      | error e => exact Or.inl (List.append_nil _)
      | ok f =>
        obtain ⟨rfl, hindex⟩ :=
          eq_frame_of_pushFrame (length_buffer_of_settled (hsettled q rfl)) hpush
        have hcount : q.state = blocks.length := hstate.trans (Nat.zero_add _)
        refine Or.inr ⟨rfl, hcount ▸ hindex, q.buffer, ?_, hbuffer⟩
        rw [hcount, Outcome.after]

end BackupEncryptTransform

namespace Session

variable {crypto}

/-- A frame of a session stands at its index, and it is the frame of its plaintext.  A final frame
    is the last of a complete session. -/
theorem frame_at {s : Session} {f : PushedFrame} (h : f ∈ s.frames crypto) :
    (s.frames crypto)[f.index]? = some f
      ∧ f = s.transform.frame crypto f.plaintext f.index f.finalFrame ∧ f.index < 2 ^ 32
      ∧ (f.finalFrame = true → s.Complete crypto ∧ (s.frames crypto).length = f.index + 1
        ∧ s.plaintext = (s.frames crypto).flatMap (·.plaintext)) := by
  obtain ⟨blocks, hblocks, hrun⟩ := @BackupEncryptTransform.run_frames crypto s.transform s.writes
    s.ended
  -- a block stands at its index, wherever the list goes on
  have hblock : ∀ tail, f ∈ blocks → (blocks ++ tail)[f.index]? = some f
      ∧ f = s.transform.frame crypto f.plaintext f.index f.finalFrame ∧ f.index < 2 ^ 32
      ∧ f.finalFrame = false := by
    intro tail hf
    obtain ⟨k, hk, hget⟩ := List.getElem_of_mem hf
    have hsome : blocks[k]? = some f := by rw [List.getElem?_eq_getElem hk, hget]
    obtain ⟨hframe, hbound⟩ := hblocks k f hsome
    rw [Nat.zero_add] at hframe hbound
    have hindex : f.index = k := by rw [hframe]; rfl
    have hfinal : f.finalFrame = false := by rw [hframe]; rfl
    refine ⟨?_, ?_, hindex ▸ hbound, hfinal⟩
    · rw [hindex, List.getElem?_append_left hk, hsome]
    · rw [hindex, hfinal]
      exact hframe
  rcases hrun with houtput | ⟨hended, hbound, rest, hrun, hplain⟩
  · have hframes : s.frames crypto = blocks := houtput
    rw [hframes] at h ⊢
    obtain ⟨hget, hframe, hindex, hfinal⟩ := hblock [] h
    rw [List.append_nil] at hget
    exact ⟨hget, hframe, hindex, fun htrue => by rw [hfinal] at htrue; cases htrue⟩
  · have hframes : s.frames crypto
        = blocks ++ [s.transform.frame crypto rest blocks.length true] := by
      rw [frames, hrun]
    rw [hframes] at h ⊢
    rcases List.mem_append.mp h with hf | hf
    · obtain ⟨hget, hframe, hindex, hfinal⟩ := hblock [_] hf
      exact ⟨hget, hframe, hindex, fun htrue => by rw [hfinal] at htrue; cases htrue⟩
    · -- the final frame
      rw [List.mem_singleton] at hf
      subst hf
      refine ⟨?_, rfl, hbound, fun _ => ⟨⟨hended, by rw [hrun]⟩, ?_, ?_⟩⟩
      · show (blocks ++ [_])[blocks.length]? = _
        rw [List.getElem?_append_right le_rfl, Nat.sub_self]
        rfl
      · rw [List.length_append]
        rfl
      · rw [plaintext, hplain, List.flatMap_append]
        show _ = _ ++ (rest ++ [])
        rw [List.append_nil]

end Session

/-! ### What the decrypting transform has checked -/

namespace BackupDecryptTransform

variable {crypto}

/-- A frame that was taken off the buffer has the expected index and opens. -/
theorem frameStep_inv {s s' : DecryptState} {header : ParsedHeader × List UInt8}
    {buffer out rest : List UInt8}
    (h : frameStep crypto s header.1 header.2 buffer = .emit s' out rest) :
    s.finalFrameSeen = false ∧ ∃ finalFrame bytes, buffer = bytes ++ rest
      ∧ OpenFrame crypto header s.expectedFrameIndex finalFrame bytes out
      ∧ s' = ⟨s.header, s.expectedFrameIndex + 1, finalFrame⟩ := by
  have hmetadata : FRAME_METADATA_BYTES = 37 := by decide
  unfold frameStep at h
  split at h
  · cases h
  rename_i hshort
  split at h
  · cases h
  rename_i hfinal
  dsimp only at h
  split at h
  · cases h
  split at h
  · cases h
  rename_i hlarge hpartial
  split at h
  · cases h
  rename_i hflag
  split at h
  · cases h
  rename_i horder
  split at h
  · cases h
  rename_i plaintext hdecrypt
  cases h
  have hindex : readUInt32BE (buffer.drop 4) = s.expectedFrameIndex := not_not.mp horder
  have hbit : flagByte (buffer.getD 8 0 == 1) = buffer.getD 8 0 := by
    by_cases hone : buffer.getD 8 0 = 1
    · rw [hone]; rfl
    · have hzero : buffer.getD 8 0 = 0 := by
        by_contra hne
        exact hflag ⟨hne, hone⟩
      rw [hzero]; rfl
  -- the buffer, field by field
  have hcut : ∀ start length, buffer.drop start
      = (buffer.drop start).take length ++ buffer.drop (start + length) := by
    intro start length
    rw [← List.drop_drop, List.take_append_drop]
  have hciphertext : ((buffer.drop FRAME_METADATA_BYTES).take (readUInt32BE buffer)).length
      = readUInt32BE buffer := by
    rw [List.length_take_of_le (by rw [List.length_drop]; omega)]
  have hflagField : (buffer.drop 8).take 1 = [buffer.getD 8 0] := by
    have hinside : 8 < buffer.length := by omega
    rw [List.drop_eq_getElem_cons hinside, List.getD_eq_getElem?_getD,
      List.getElem?_eq_getElem hinside]
    rfl
  have hbuffer : buffer = buffer.take 4 ++ ((buffer.drop 4).take 4 ++ ((buffer.drop 8).take 1
      ++ ((buffer.drop 9).take IV_BYTES ++ ((buffer.drop (9 + IV_BYTES)).take TAG_BYTES
        ++ ((buffer.drop FRAME_METADATA_BYTES).take (readUInt32BE buffer)
          ++ buffer.drop (FRAME_METADATA_BYTES + readUInt32BE buffer)))))) := by
    rw [← hcut FRAME_METADATA_BYTES, show FRAME_METADATA_BYTES = 9 + IV_BYTES + TAG_BYTES by decide,
      ← hcut (9 + IV_BYTES), ← hcut 9, ← hcut 8 1, ← hcut 4 4, List.take_append_drop]
  have hivBytes : IV_BYTES = 12 := rfl
  have htagBytes : TAG_BYTES = 16 := rfl
  refine ⟨by simpa using hfinal, buffer.getD 8 0 == 1,
    frameBytes s.expectedFrameIndex (buffer.getD 8 0 == 1) ((buffer.drop 9).take IV_BYTES)
      ((buffer.drop (9 + IV_BYTES)).take TAG_BYTES)
      ((buffer.drop FRAME_METADATA_BYTES).take (readUInt32BE buffer)), ?_,
    ⟨by rw [← hindex]; exact readUInt32BE_lt _, _, _, _, ?_, ?_, ?_, rfl, ?_⟩, rfl⟩
  · rw [frameBytes, hciphertext, hbit, ← hindex, ← take_four (by omega),
      ← take_four (by rw [List.length_drop]; omega), ← hflagField]
    simpa only [List.append_assoc] using hbuffer
  · rw [List.length_take_of_le (by rw [List.length_drop]; omega)]
  · rw [List.length_take_of_le (by rw [List.length_drop]; omega)]
  · rw [hciphertext]
    omega
  · rw [← hindex]
    exact hdecrypt

/-- A header that parses names a key of the keyring, and its nonce has 16 bytes. -/
theorem parseHeader_inv {keyring : BackupEncryptionKeyring crypto} {raw : List UInt8}
    {header : ParsedHeader} (h : parseHeader raw keyring = .ok header) :
    header.key ∈ keyring.keys
      ∧ ∀ nonce, header.artifactNonce = some nonce → nonce.length = ARTIFACT_NONCE_BYTES := by
  unfold parseHeader at h
  split at h
  · cases h
  rename_i parsed _
  split at h
  · split at h
    · -- version 2: the key by its fingerprint, and no nonce
      rw [parseHeaderV2] at h
      split at h
      · cases h
      split at h
      · cases h
      rename_i key hkey
      cases h
      obtain ⟨fingerprint, _, hfind⟩ := Option.bind_eq_some_iff.mp hkey
      exact ⟨List.mem_of_find?_eq_some hfind, fun nonce hnonce => by cases hnonce⟩
    · split at h
      · rw [parseHeaderV3] at h
        split at h
        · rename_i keyId nonce _ _
          split at h
          · cases h
          split at h
          · cases h
          rename_i key hkey
          split at h
          · split at h <;> cases h
          split at h
          · cases h
          rename_i hlength
          cases h
          refine ⟨List.mem_of_find?_eq_some hkey, fun nonce hnonce => ?_⟩
          cases hnonce
          exact not_not.mp hlength
        · cases h
      · cases h
  · cases h

/-- A header that was taken off the buffer parses. -/
theorem headerStep_inv {keyring : BackupEncryptionKeyring crypto} {s s' : DecryptState}
    {buffer out rest : List UInt8} (h : headerStep keyring s buffer = .emit s' out rest) :
    ∃ header json, json.length ≤ MAX_FRAME_SIZE ∧ buffer = wireHeader json ++ rest
      ∧ parseHeader json keyring = .ok header ∧ out = []
      ∧ s' = ⟨some (header, wireHeader json), s.expectedFrameIndex, s.finalFrameSeen⟩ := by
  have hmagic : MAGIC.length = 8 := by decide
  unfold headerStep at h
  split at h
  · cases h
  rename_i hshort
  split at h
  · cases h
  rename_i hstart
  dsimp only at h
  split at h
  · cases h
  rename_i hlarge
  split at h
  · cases h
  rename_i hpartial
  split at h
  · cases h
  rename_i header hparse
  cases h
  -- the text between the length field and the first frame
  obtain ⟨json, hjson⟩ : ∃ json, (buffer.take (MAGIC.length + 4
      + readUInt32BE (buffer.drop MAGIC.length))).drop (MAGIC.length + 4) = json := ⟨_, rfl⟩
  have hlength : json.length = readUInt32BE (buffer.drop MAGIC.length) := by
    rw [← hjson, List.length_drop, List.length_take_of_le (by omega)]
    omega
  have hraw : buffer.take (MAGIC.length + 4 + readUInt32BE (buffer.drop MAGIC.length))
      = wireHeader json := by
    have hbody : (buffer.drop (MAGIC.length + 4)).take (readUInt32BE (buffer.drop MAGIC.length))
        = json := by
      rw [← hjson, List.drop_take, Nat.add_sub_cancel_left]
    have hfield : (buffer.drop MAGIC.length).take 4 = uint32BE json.length := by
      rw [take_four (by rw [List.length_drop]; omega), hlength]
    rw [List.take_add, List.take_add, hbody, hfield, not_not.mp hstart, wireHeader]
  rw [hjson] at hparse
  refine ⟨header, json, by omega, ?_, hparse, rfl, ?_⟩
  · rw [← hraw, List.take_append_drop]
  · rw [hraw]

/-! ### Accepted frames were pushed -/

/-- The parts of the associated data can be told apart from its end. -/
theorem aad_inj {raw raw' nonce nonce' marker marker' : List UInt8}
    (hnonce : nonce.length = nonce'.length) (hmarker : marker.length = marker'.length)
    (h : raw ++ nonce ++ marker = raw' ++ nonce' ++ marker') :
    raw = raw' ∧ nonce = nonce' ∧ marker = marker' := by
  obtain ⟨hfront, hback⟩ := List.append_inj' h hmarker
  obtain ⟨hraw, hmid⟩ := List.append_inj' hfront hnonce
  exact ⟨hraw, hmid, hback⟩

theorem length_marker (index index' : ℕ) (finalFrame finalFrame' : Bool) :
    (uint32BE index ++ [flagByte finalFrame]).length
      = (uint32BE index' ++ [flagByte finalFrame']).length := rfl

theorem marker_inj {index index' : ℕ} {finalFrame finalFrame' : Bool} (hindex : index < 2 ^ 32)
    (hindex' : index' < 2 ^ 32)
    (h : uint32BE index ++ [flagByte finalFrame] = uint32BE index' ++ [flagByte finalFrame']) :
    index = index' ∧ finalFrame = finalFrame' := by
  obtain ⟨hnumber, hflag⟩ := List.append_inj' h rfl
  refine ⟨uint32BE_inj hindex hindex' hnumber, ?_⟩
  cases finalFrame <;> cases finalFrame' <;> simp_all [flagByte]

/-- What an accepted header has in common with a session. -/
def Matches (header : ParsedHeader × List UInt8) (s : Session) : Prop :=
  header.2 = s.transform.headerRaw crypto
    ∧ header.1.artifactNonce = some s.transform.artifactNonce.1
    ∧ header.1.key.key = s.transform.key.key

variable {sessions : Set Session} {legacy : Set LegacyFrame}

theorem frameMarker_of_lt {index : ℕ} (finalFrame : Bool) (hindex : index < 2 ^ 32) :
    frameMarker index finalFrame = .ok (uint32BE index ++ [flagByte finalFrame]) := by
  rw [frameMarker, writeUInt32BE, if_pos hindex]
  rfl

theorem length_legacyAad (f : LegacyFrame) : f.aad.length = 5 := rfl

/-- Associated data of a session is longer than the mark of a place. -/
theorem length_aad (t : BackupEncryptTransform) (index : ℕ) (finalFrame : Bool) :
    21 ≤ (t.aad crypto index finalFrame).length := by
  rw [BackupEncryptTransform.aad, List.length_append, List.length_append, t.artifactNonce.2]
  show 21 ≤ _ + 16 + 5
  omega

/-- **A frame that opens was pushed**, by a session with this header, at this index and with this
    flag; its bytes are the bytes that were pushed. -/
theorem exists_frame_of_openFrame (hideal : crypto.Unforgeable sessions legacy)
    {key : BackupEncryptionKey} {nonce headerRaw : List UInt8}
    (hnonce : nonce.length = ARTIFACT_NONCE_BYTES) {bytes out : List UInt8} {index : ℕ}
    {finalFrame : Bool}
    (h : OpenFrame crypto (⟨key, some nonce⟩, headerRaw) index finalFrame bytes out) :
    ∃ s ∈ sessions, @Matches crypto (⟨key, some nonce⟩, headerRaw) s ∧ ∃ f ∈ s.frames crypto,
      f.index = index ∧ f.finalFrame = finalFrame ∧ f.plaintext = out ∧ f.bytes = bytes := by
  obtain ⟨hindex, iv, tag, ciphertext, -, -, -, rfl, h⟩ := h
  simp only [decryptFrame, frameAad, frameAadV3, frameMarker_of_lt finalFrame hindex, Except.map,
    Except.bind] at h
  split at h
  · cases h
  rename_i opened hopened
  cases h
  obtain ⟨hsealed, hencrypt⟩ := hideal _ _ _ _ _ _ hopened
  generalize haad : headerRaw ++ nonce ++ (uint32BE index ++ [flagByte finalFrame]) = aad
    at hsealed hencrypt
  generalize hkey : key.key = gcmKey at hsealed hencrypt
  cases hsealed with
  | noAad => simp [uint32BE] at haad
  | legacy hf =>
    -- a mark alone is shorter than the nonce with a mark
    have hlength := congrArg List.length haad
    rw [List.length_append, List.length_append, hnonce, length_legacyAad] at hlength
    have hbytes : ARTIFACT_NONCE_BYTES = 16 := rfl
    omega
  | @frame s hs f hf =>
    obtain ⟨_, hframe, hbound, _⟩ := Session.frame_at hf
    obtain ⟨hraw, hnonceEq, hmarkerEq⟩ := aad_inj (hnonce.trans s.transform.artifactNonce.2.symm)
      (length_marker _ _ _ _) (by rw [haad, BackupEncryptTransform.aad])
    obtain ⟨hindexEq, hfinalEq⟩ := marker_inj hindex hbound hmarkerEq
    refine ⟨s, hs, ⟨hraw, by rw [hnonceEq], hkey⟩, f, hf, hindexEq.symm, hfinalEq.symm, rfl, ?_⟩
    have hsealedFrame : s.transform.sealedFrame crypto f.plaintext f.index f.finalFrame
        = (ciphertext, tag) := hencrypt
    rw [hframe, BackupEncryptTransform.frame, hsealedFrame, hindexEq, hfinalEq]

/-- **A frame that opens under a header of version 2 was sealed** by an older version, under the
    key of the header, at this index and with this flag. -/
theorem exists_legacy_of_openFrame (hideal : crypto.Unforgeable sessions legacy)
    {key : BackupEncryptionKey} {headerRaw bytes out : List UInt8} {index : ℕ} {finalFrame : Bool}
    (h : OpenFrame crypto (⟨key, none⟩, headerRaw) index finalFrame bytes out) :
    ∃ f ∈ legacy, f.key = key.key ∧ f.index = index ∧ f.finalFrame = finalFrame
      ∧ f.plaintext = out ∧ f.bytes crypto = bytes := by
  obtain ⟨hindex, iv, tag, ciphertext, -, -, -, rfl, h⟩ := h
  simp only [decryptFrame, frameAad, frameMarker_of_lt finalFrame hindex, Except.bind] at h
  split at h
  · cases h
  rename_i opened hopened
  cases h
  obtain ⟨hsealed, hencrypt⟩ := hideal _ _ _ _ _ _ hopened
  generalize haad : uint32BE index ++ [flagByte finalFrame] = aad at hsealed hencrypt
  generalize hkey : key.key = gcmKey at hsealed hencrypt
  have hlength : aad.length = 5 := by rw [← haad]; rfl
  cases hsealed with
  | noAad => cases hlength
  | @frame s hs f hf =>
    have hlong := @length_aad crypto s.transform f.index f.finalFrame
    omega
  | @legacy f hf =>
    obtain ⟨hindexEq, hfinalEq⟩ := marker_inj hindex f.index_lt haad
    have hsealedFrame : f.sealed crypto = (ciphertext, tag) := hencrypt
    refine ⟨f, hf, rfl, hindexEq.symm, hfinalEq.symm, rfl, ?_⟩
    rw [LegacyFrame.bytes, hsealedFrame, hindexEq, hfinalEq]

/-- **The frames that open under a header of version 3 are those of one session**, from the index
    they begin at to its final frame. -/
theorem session_of_openFrames (hideal : crypto.Unforgeable sessions legacy)
    (hfresh : FreshNonces sessions) {key : BackupEncryptionKey} {nonce headerRaw : List UInt8}
    (hnonce : nonce.length = ARTIFACT_NONCE_BYTES) {index : ℕ} {bytes plaintext : List UInt8}
    (h : OpenFrames crypto (⟨key, some nonce⟩, headerRaw) index bytes plaintext) :
    ∃ s ∈ sessions, s.Complete crypto ∧ @Matches crypto (⟨key, some nonce⟩, headerRaw) s
      ∧ bytes = ((s.frames crypto).drop index).flatMap (·.bytes)
      ∧ plaintext = ((s.frames crypto).drop index).flatMap (·.plaintext)
      ∧ s.plaintext = (s.frames crypto).flatMap (·.plaintext) := by
  have hdrop : ∀ {s : Session} {f : PushedFrame} {index : ℕ}, f ∈ s.frames crypto →
      f.index = index → (s.frames crypto).drop index = f :: (s.frames crypto).drop (index + 1) := by
    intro s f index hf hindex
    obtain ⟨hget, -⟩ := Session.frame_at hf
    rw [hindex] at hget
    obtain ⟨hlt, hat⟩ := List.getElem?_eq_some_iff.mp hget
    rw [List.drop_eq_getElem_cons hlt, hat]
  induction h with
  | @last index bytes plaintext hframe =>
    obtain ⟨s, hs, hmatch, f, hf, hindex, hfinal, rfl, rfl⟩ :=
      exists_frame_of_openFrame hideal hnonce hframe
    -- the final frame: nothing follows in the session
    obtain ⟨-, -, -, hlast⟩ := Session.frame_at hf
    obtain ⟨hcomplete, hlength, hplain⟩ := hlast hfinal
    have hend : (s.frames crypto).drop (index + 1) = [] :=
      List.drop_eq_nil_of_le (by rw [hlength, hindex])
    refine ⟨s, hs, hcomplete, hmatch, ?_, ?_, hplain⟩
    · rw [hdrop hf hindex, hend]
      simp
    · rw [hdrop hf hindex, hend]
      simp
  | @next index bytes plaintext rest output hframe _ ih =>
    obtain ⟨s, hs, hmatch, f, hf, hindex, -, rfl, rfl⟩ :=
      exists_frame_of_openFrame hideal hnonce hframe
    obtain ⟨s₁, hs₁, hcomplete, hmatch₁, hrest, hout, hplain⟩ := ih
    -- one nonce, one session
    have hsame : s = s₁ := hfresh s hs s₁ hs₁
      (Subtype.ext (Option.some.inj (hmatch.2.1.symm.trans hmatch₁.2.1)))
    subst hsame
    refine ⟨s, hs, hcomplete, hmatch, ?_, ?_, hplain⟩
    · rw [hdrop hf hindex, List.flatMap_cons, hrest]
    · rw [hdrop hf hindex, List.flatMap_cons, hout]

/-- **The frames that open under a header of version 2 are of version 2**, in their places. -/
theorem legacy_of_openFrames (hideal : crypto.Unforgeable sessions legacy)
    {key : BackupEncryptionKey} {headerRaw : List UInt8} {index : ℕ} {bytes plaintext : List UInt8}
    (h : OpenFrames crypto (⟨key, none⟩, headerRaw) index bytes plaintext) :
    ∃ frames, InPlace key.key index frames ∧ (∀ f ∈ frames, f ∈ legacy)
      ∧ bytes = frames.flatMap (·.bytes crypto) ∧ plaintext = frames.flatMap (·.plaintext) := by
  induction h with
  | last hframe =>
    obtain ⟨f, hf, hkey, rfl, hfinal, rfl, rfl⟩ := exists_legacy_of_openFrame hideal hframe
    refine ⟨[f], .last hkey hfinal, ?_, by simp, by simp⟩
    intro g hg
    rwa [List.mem_singleton.mp hg]
  | next hframe _ ih =>
    obtain ⟨f, hf, hkey, rfl, hfinal, rfl, rfl⟩ := exists_legacy_of_openFrame hideal hframe
    obtain ⟨frames, hplace, hlegacy, rfl, rfl⟩ := ih
    exact ⟨f :: frames, .next hkey hfinal hplace, List.forall_mem_cons.mpr ⟨hf, hlegacy⟩,
      rfl, rfl⟩

variable (keyring : BackupEncryptionKeyring crypto)

/-- Nothing is taken off the buffer behind the final frame. -/
theorem drain_final {p q : Pending DecryptState UInt8} {header : ParsedHeader × List UInt8}
    {index : ℕ} (hstate : p.state = ⟨some header, index, true⟩)
    (h : ((machine keyring).drain p).result = .ok q) :
    ((machine keyring).drain p).output = [] ∧ q = p := by
  cases hstep : (machine keyring).step p.state p.buffer with
  | more =>
    rw [Machine.drain_of_more hstep] at h ⊢
    cases h
    exact ⟨rfl, rfl⟩
  | fail e =>
    rw [Machine.drain_of_fail hstep] at h
    cases h
  | emit s out rest =>
    rw [hstate] at hstep
    obtain ⟨hfinal, _⟩ := frameStep_inv hstep
    cases hfinal

/-- **What is taken off the buffer up to the final frame opens.** -/
theorem openFrames_of_drain {header : ParsedHeader × List UInt8}
    (p : Pending DecryptState UInt8) : ∀ {index : ℕ} {q : Pending DecryptState UInt8},
      p.state = ⟨some header, index, false⟩ → ((machine keyring).drain p).result = .ok q →
      q.state.finalFrameSeen = true → q.buffer = [] →
      OpenFrames crypto header index p.buffer ((machine keyring).drain p).output := by
  refine Machine.drain_induction (motive := fun p r => ∀ {index : ℕ}
    {q : Pending DecryptState UInt8}, p.state = ⟨some header, index, false⟩ → r.result = .ok q →
    q.state.finalFrameSeen = true → q.buffer = [] →
    OpenFrames crypto header index p.buffer r.output) ?_ ?_ ?_ p
  · intro p _ index q hstate hq hfinal _
    cases hq
    rw [hstate] at hfinal
    cases hfinal
  · intro p e _ index q _ hq
    cases hq
  · intro p s' out rest hemit ih index q hstate hq hfinal hempty
    rw [hstate] at hemit
    obtain ⟨-, finalFrame, bytes, hbuffer, hframe, rfl⟩ := frameStep_inv hemit
    rw [hbuffer]
    cases finalFrame with
    | true =>
      obtain ⟨hnone, rfl⟩ := drain_final keyring rfl hq
      have hnothing : rest = [] := hempty
      show OpenFrames crypto header index (bytes ++ rest) (out ++ _)
      rw [hnone, hnothing, List.append_nil, List.append_nil]
      exact .last hframe
    | false => exact .next hframe (ih rfl hq hfinal hempty)

/-! ### Whole streams -/

/-- What the transform has seen when it finishes cleanly. -/
theorem drain_of_run_ok {chunks : List (List UInt8)} {output : List UInt8}
    (h : run keyring chunks = ⟨output, .ok ()⟩) :
    ∃ header index, (machine keyring).drain ⟨DecryptState.initial, chunks.flatten⟩
      = ⟨output, .ok ⟨⟨some header, index, true⟩, []⟩⟩ := by
  rw [run_eq_drain] at h
  have hsettled := @Machine.settled_of_drain _ _ _ _ (machine keyring)
    ⟨DecryptState.initial, chunks.flatten⟩
  generalize (machine keyring).drain ⟨DecryptState.initial, chunks.flatten⟩ = r at h hsettled ⊢
  obtain ⟨out, result⟩ := r
  cases result with
  | error e => cases h
  | ok q =>
    obtain ⟨⟨header, index, final⟩, buffer⟩ := q
    rw [Outcome.andThen_ok, flush, Machine.drain_of_more (hsettled _ rfl), Outcome.andThen_ok,
      Outcome.after_nil] at h
    split at h
    · cases h
    rename_i hheader
    split at h
    · cases h
    rename_i hbuffer
    split at h
    · cases h
    rename_i hfinal
    obtain ⟨header, rfl⟩ := Option.ne_none_iff_exists'.mp (by simpa using hheader)
    have hout : out ++ [] = output := congrArg Outcome.output h
    rw [List.append_nil] at hout
    refine ⟨header, index, ?_⟩
    rw [hout, show buffer = [] by simpa using hbuffer, show final = true by simpa using hfinal]

/-- **An accepted stream** is a header that parses with frames that open behind it. -/
theorem openFrames_of_run_ok {chunks : List (List UInt8)} {output : List UInt8}
    (h : run keyring chunks = ⟨output, .ok ()⟩) :
    ∃ header json body, json.length ≤ MAX_FRAME_SIZE ∧ parseHeader json keyring = .ok header
      ∧ chunks.flatten = wireHeader json ++ body
      ∧ OpenFrames crypto (header, wireHeader json) 0 body output := by
  obtain ⟨header', index, hdrain⟩ := drain_of_run_ok keyring h
  cases hstep : (machine keyring).step DecryptState.initial chunks.flatten with
  | more =>
    have hnone := Machine.drain_of_more (p := ⟨DecryptState.initial, chunks.flatten⟩) hstep
    rw [hnone] at hdrain
    cases hdrain
  | fail e =>
    have hfail := Machine.drain_of_fail (p := ⟨DecryptState.initial, chunks.flatten⟩) hstep
    rw [hfail] at hdrain
    cases hdrain
  | emit s' out body =>
    have hemit := Machine.drain_of_emit (p := ⟨DecryptState.initial, chunks.flatten⟩) hstep
    rw [step_initial] at hstep
    obtain ⟨header, json, hjson, hflatten, hparse, rfl, rfl⟩ := headerStep_inv hstep
    rw [hemit, Outcome.after_nil] at hdrain
    have hopen := openFrames_of_drain keyring
      ⟨⟨some (header, wireHeader json), 0, false⟩, body⟩ rfl (congrArg Outcome.result hdrain) rfl rfl
    refine ⟨header, json, body, hjson, hparse, hflatten, ?_⟩
    rwa [show output = _ from (congrArg Outcome.output hdrain).symm]

/-- No stream that is accepted goes on as another one. -/
theorem accepted_start_eq {chunks chunks' : List (List UInt8)} {output output' : List UInt8}
    (h : run keyring chunks = ⟨output, .ok ()⟩) (h' : run keyring chunks' = ⟨output', .ok ()⟩)
    (hstart : chunks.flatten <+: chunks'.flatten) : chunks.flatten = chunks'.flatten := by
  obtain ⟨rest, hrest⟩ := hstart
  obtain ⟨header, index, hdrain⟩ := drain_of_run_ok keyring h
  obtain ⟨header', index', hdrain'⟩ := drain_of_run_ok keyring h'
  have hon := (machine keyring).drain_append ⟨DecryptState.initial, chunks.flatten⟩ rest
  rw [hdrain, Outcome.andThen_ok] at hon
  dsimp only at hon
  rw [hrest, hdrain', List.nil_append] at hon
  obtain ⟨-, hend⟩ := drain_final keyring (p := ⟨⟨some header, index, true⟩, rest⟩) rfl
    (congrArg Outcome.result hon).symm
  have hnothing : rest = [] := (congrArg Pending.buffer hend).symm
  rw [← hrest, hnothing, List.append_nil]

end BackupDecryptTransform

variable {crypto} {sessions : Set Session} {legacy : Set LegacyFrame}

open BackupDecryptTransform

/-- The bytes are the whole stream of a complete session, under a key of the keyring. -/
structure SessionStream (keyring : BackupEncryptionKeyring crypto) (sessions : Set Session)
    (s : Session) (bytes : List UInt8) : Prop where
  mem : s ∈ sessions
  complete : s.Complete crypto
  key : ∃ key ∈ keyring.keys, key.key = s.transform.key.key
  bytes_eq : bytes = s.bytes crypto

/-- The header that is read off a stream that begins like the stream of a session. -/
theorem header_of_prefix (keyring : BackupEncryptionKeyring crypto) {s : Session}
    (hkey : s.transform.key ∈ keyring.keys) {bytes rest : List UInt8}
    {header : ParsedHeader × List UInt8}
    (hstart : bytes <+: s.bytes crypto ∨ s.transform.headerRaw crypto <+: bytes)
    (h : (machine keyring).step DecryptState.initial bytes = .emit ⟨some header, 0, false⟩ [] rest) :
    header.1.artifactNonce = some s.transform.artifactNonce.1 := by
  have hread : ∀ tail, (machine keyring).step DecryptState.initial
      (s.transform.headerRaw crypto ++ tail)
        = .emit ⟨some (headerOf crypto s.transform), 0, false⟩ [] tail := by
    intro tail
    rw [step_initial, BackupEncryptTransform.headerRaw,
      headerStep_headerBytes s.transform.artifactNonce (keyring.keysById_of_mem hkey), headerOf,
      BackupEncryptTransform.headerRaw]
    rfl
  rcases hstart with ⟨tail, htail⟩ | ⟨tail, htail⟩
  · -- a header once read is not taken back
    have hwhole := Machine.emit_append h tail
    rw [htail, Session.bytes, BackupEncryptTransform.stream, hread] at hwhole
    obtain ⟨hstate, _⟩ := Step.emit.injEq .. ▸ hwhole
    cases hstate
    rfl
  · rw [← htail, hread] at h
    cases h
    rfl

/-- An accepted stream is that of a session with the nonce of its header, or one of version 2. -/
theorem accepted_cases (hideal : crypto.Unforgeable sessions legacy)
    (hfresh : FreshNonces sessions) (keyring : BackupEncryptionKeyring crypto)
    {chunks : List (List UInt8)} {output : List UInt8}
    (h : run keyring chunks = ⟨output, .ok ()⟩) :
    ∃ header body, (machine keyring).step DecryptState.initial chunks.flatten
        = .emit ⟨some header, 0, false⟩ [] body
      ∧ ((∃ s, SessionStream keyring sessions s chunks.flatten ∧ output = s.plaintext
          ∧ header.1.artifactNonce = some s.transform.artifactNonce.1)
        ∨ ∃ key frames, LegacyStream keyring legacy key frames chunks.flatten
          ∧ output = frames.flatMap (·.plaintext) ∧ header.1.artifactNonce = none) := by
  obtain ⟨⟨key, nonce⟩, json, body, hjson, hparse, hflatten, hopen⟩ :=
    openFrames_of_run_ok keyring h
  obtain ⟨hkey, hnonce⟩ := parseHeader_inv hparse
  refine ⟨(⟨key, nonce⟩, wireHeader json), body, ?_, ?_⟩
  · rw [step_initial, hflatten]
    exact headerStep_wireHeader hjson hparse _ _
  cases nonce with
  | some nonce =>
    obtain ⟨s, hs, hcomplete, hmatch, hbytes, hout, hplain⟩ :=
      session_of_openFrames hideal hfresh (hnonce nonce rfl) hopen
    refine Or.inl ⟨s, ⟨hs, hcomplete, ⟨key, hkey, hmatch.2.2⟩, ?_⟩, ?_, hmatch.2.1⟩
    · have hraw : wireHeader json = s.transform.headerRaw crypto := hmatch.1
      rw [hflatten, hraw, hbytes]
      rfl
    · rw [hplain, hout]
      rfl
  | none =>
    obtain ⟨frames, hplace, hlegacy, hbytes, hout⟩ := legacy_of_openFrames hideal hopen
    refine Or.inr ⟨key, frames, ⟨⟨json, hjson, ?_, hparse⟩, hplace, hlegacy⟩, hout, rfl⟩
    rw [hflatten, hbytes]

/-- **Tampering is rejected.**  Under an AES-GCM that opens only what was sealed, and with artifact
    nonces that do not repeat, the decrypting transform accepts a stream, in whatever chunks it
    arrives, only if it is the whole stream of a complete session under a key of the keyring, or a
    header of version 2 with frames of version 2 in their places; what it puts out is then the
    plaintext of the session, or of these frames, and everything else ends in an error.
    In particular nothing but its own stream is accepted of what is cut off from the stream of a
    session or put together behind its header, and no accepted stream of either version is cut off
    from another one. -/
theorem tampered_stream_rejected (hideal : crypto.Unforgeable sessions legacy)
    (hfresh : FreshNonces sessions) (keyring : BackupEncryptionKeyring crypto)
    (chunks : List (List UInt8)) :
    ((¬ ∃ s, SessionStream keyring sessions s chunks.flatten) →
        (¬ ∃ key frames, LegacyStream keyring legacy key frames chunks.flatten) →
        ∃ e, (run keyring chunks).result = .error e)
      ∧ (∀ output, run keyring chunks = ⟨output, .ok ()⟩ →
        (∃ s, SessionStream keyring sessions s chunks.flatten ∧ output = s.plaintext)
          ∨ ∃ key frames, LegacyStream keyring legacy key frames chunks.flatten
            ∧ output = frames.flatMap (·.plaintext))
      ∧ (∀ s ∈ sessions, s.transform.key ∈ keyring.keys →
        chunks.flatten <+: s.bytes crypto ∨ s.transform.headerRaw crypto <+: chunks.flatten →
        chunks.flatten ≠ s.bytes crypto → ∃ e, (run keyring chunks).result = .error e)
      ∧ ∀ (whole : List (List UInt8)) output, run keyring whole = ⟨output, .ok ()⟩ →
        chunks.flatten <+: whole.flatten ∨ whole.flatten <+: chunks.flatten →
        chunks.flatten ≠ whole.flatten → ∃ e, (run keyring chunks).result = .error e := by
  cases hrun : run keyring chunks with
  | mk output result =>
    cases result with
    | error e =>
      exact ⟨fun _ _ => ⟨e, rfl⟩, fun output hok => (by cases hok), fun _ _ _ _ _ => ⟨e, rfl⟩,
        fun _ _ _ _ _ => ⟨e, rfl⟩⟩
    | ok _ =>
      obtain ⟨header, body, hstep, hcases⟩ := accepted_cases hideal hfresh keyring hrun
      refine ⟨fun hnone hlegacy => ?_, fun output' hok => ?_, fun s hs hkey hstart hother => ?_,
        fun whole output' hwhole hstart hother => ?_⟩
      · rcases hcases with ⟨s, hs, -, -⟩ | ⟨key, frames, hframes, -, -⟩
        · exact absurd ⟨s, hs⟩ hnone
        · exact absurd ⟨key, frames, hframes⟩ hlegacy
      · cases hok
        rcases hcases with ⟨s, hs, hout, -⟩ | ⟨key, frames, hframes, hout, -⟩
        · exact Or.inl ⟨s, hs, hout⟩
        · exact Or.inr ⟨key, frames, hframes, hout⟩
      · have hnonce := header_of_prefix keyring hkey hstart hstep
        rcases hcases with ⟨s', hs', -, hnonce'⟩ | ⟨-, -, -, -, hnonce'⟩
        · have hsame : s' = s := hfresh s' hs'.mem s hs
            (Subtype.ext (Option.some.inj (hnonce'.symm.trans hnonce)))
          exact absurd (hsame ▸ hs'.bytes_eq) hother
        · rw [hnonce'] at hnonce
          cases hnonce
      · rcases hstart with hstart | hstart
        · exact absurd (accepted_start_eq keyring hrun hwhole hstart) hother
        · exact absurd (accepted_start_eq keyring hwhole hrun hstart).symm hother

/-! ### Two archives, and one of version 2 -/

theorem run_of_short (t : BackupEncryptTransform) {writes : List (List UInt8)}
    (h : writes.flatten.length ≤ CHUNK_SIZE) :
    t.run crypto writes true = ⟨[t.frame crypto writes.flatten 0 true], .ok ()⟩ := by
  have hsettled : (t.machine crypto).Settled ⟨0, writes.flatten⟩ := if_neg (not_lt.mpr h)
  rw [BackupEncryptTransform.run_eq_drain, Machine.drain_of_more hsettled, Outcome.andThen_ok,
    Outcome.after_nil, BackupEncryptTransform.flush,
    BackupEncryptTransform.pushFrame_of_lt h (Nat.two_pow_pos 32)]

theorem length_frame (t : BackupEncryptTransform) (plaintext : List UInt8) (index : ℕ)
    (finalFrame : Bool) :
    (t.frame crypto plaintext index finalFrame).bytes.length = 37 + plaintext.length := by
  have hiv : (t.ivs index).1.length = 12 := (t.ivs index).2
  have htag : (t.sealedFrame crypto plaintext index finalFrame).2.length = 16 :=
    crypto.length_tag _ _ _ _
  have hciphertext : (t.sealedFrame crypto plaintext index finalFrame).1.length
      = plaintext.length := crypto.length_ciphertext _ _ _ _
  simp only [BackupEncryptTransform.frame, frameBytes, List.length_append, length_uint32BE,
    List.length_singleton, hiv, htag, hciphertext]

def otherText : List UInt8 := utf8Encode "another archive".toList

/-- A second artifact under the same key. -/
def otherTransform : BackupEncryptTransform where
  key := archiveKey
  artifactNonce := ⟨countedBytes 0x20 16, by decide⟩
  ivs _ := ⟨countedBytes 0x50 12, by decide⟩

/-- An artifact of version 2 under the same key, which is one frame. -/
def legacyArchive : LegacyFrame where
  key := archiveKey.key
  index := 0
  finalFrame := true
  iv := ⟨countedBytes 0x60 12, by decide⟩
  plaintext := utf8Encode "legacy encrypted backup".toList
  index_lt := by decide

/-- A call of AES-256-GCM under `archiveKey`, and what it gives. -/
structure ArchiveCall where
  iv : List UInt8
  aad : List UInt8
  plaintext : List UInt8
  ciphertext : List UInt8
  tag : List UInt8

def archiveCalls : List ArchiveCall :=
  [⟨countedBytes 0x40 12, archiveTransform.aad archiveCrypto 0 true, archiveText,
      archiveCiphertext, archiveTag⟩,
    ⟨countedBytes 0x50 12, otherTransform.aad archiveCrypto 0 true, otherText,
      [0xf3, 0x49, 0x59, 0x00, 0x8c, 0x35, 0xcb, 0xc6, 0x3d, 0xc4, 0x5e, 0x0d, 0xa4, 0x97, 0xe6],
      [0x4f, 0xc7, 0x8a, 0x79, 0x07, 0xba, 0x8b, 0xfc, 0xd5, 0x1f, 0x5b, 0x69, 0xa4, 0x7d, 0xae,
        0x96]⟩,
    ⟨countedBytes 0x60 12, legacyArchive.aad, legacyArchive.plaintext,
      [0x86, 0xbe, 0xfc, 0x34, 0xd8, 0x39, 0xa3, 0x0a, 0x12, 0x75, 0x8b, 0x52, 0x02, 0xf9, 0xa4,
        0x27, 0x06, 0x17, 0xe8, 0xea, 0xef, 0x11, 0x42],
      [0x69, 0xa5, 0x65, 0xb4, 0xa1, 0xba, 0x4d, 0x2c, 0x2b, 0xb8, 0x82, 0xbc, 0x38, 0xdf, 0x87,
        0xf2]⟩]

theorem archiveCalls_lengths : ∀ call ∈ archiveCalls,
    call.ciphertext.length = call.plaintext.length ∧ call.tag.length = 16 := by
  decide

/-- AES-256-GCM that opens nothing but what these calls have given. -/
def idealCrypto : NodeCrypto where
  sha256 _ := archiveDigest
  gcmEncrypt _ _ _ plaintext :=
    match archiveCalls.find? (·.plaintext = plaintext) with
    | some call => (call.ciphertext, call.tag)
    | none => (plaintext, List.replicate 16 0)
  gcmDecrypt key iv aad ciphertext tag :=
    if key = archiveKey.key then
      (archiveCalls.find? fun call =>
        call.iv = iv ∧ call.aad = aad ∧ call.ciphertext = ciphertext ∧ call.tag = tag).map
          (·.plaintext)
    else none
  length_ciphertext _ _ _ plaintext := by
    split
    · rename_i call hcall
      have hplaintext : call.plaintext = plaintext := by simpa using List.find?_some hcall
      rw [← hplaintext]
      exact (archiveCalls_lengths call (List.mem_of_find?_eq_some hcall)).1
    · rfl
  length_tag _ _ _ plaintext := by
    split
    · rename_i call hcall
      exact (archiveCalls_lengths call (List.mem_of_find?_eq_some hcall)).2
    · rfl

/-- The archive, written in two pieces. -/
def archiveSession : Session :=
  ⟨archiveTransform, ["important ", "archive"].map fun text => utf8Encode text.toList, true⟩

def otherSession : Session := ⟨otherTransform, [otherText], true⟩

theorem frames_archiveSession :
    archiveSession.frames idealCrypto = [archiveTransform.frame idealCrypto archiveText 0 true] := by
  rw [Session.frames, archiveSession, run_of_short archiveTransform (by decide)]
  rfl

theorem frames_otherSession :
    otherSession.frames idealCrypto = [otherTransform.frame idealCrypto otherText 0 true] := by
  rw [Session.frames, otherSession, run_of_short otherTransform (by decide)]
  rfl

theorem idealCrypto_unforgeable :
    idealCrypto.Unforgeable {archiveSession, otherSession} {legacyArchive} := by
  have hsealed : ∀ call ∈ archiveCalls,
      Sealed idealCrypto {archiveSession, otherSession} {legacyArchive} archiveKey.key call.iv
          call.aad call.plaintext
        ∧ idealCrypto.gcmEncrypt archiveKey.key call.iv call.aad call.plaintext
          = (call.ciphertext, call.tag) := by
    intro call hcall
    simp only [archiveCalls, List.mem_cons, List.not_mem_nil, or_false] at hcall
    rcases hcall with rfl | rfl | rfl
    · refine ⟨?_, rfl⟩
      exact @Sealed.frame idealCrypto _ _ archiveSession (Or.inl rfl)
        (archiveTransform.frame idealCrypto archiveText 0 true)
        (by rw [frames_archiveSession]; exact List.mem_singleton_self _)
    · refine ⟨?_, rfl⟩
      exact @Sealed.frame idealCrypto _ _ otherSession (Or.inr rfl)
        (otherTransform.frame idealCrypto otherText 0 true)
        (by rw [frames_otherSession]; exact List.mem_singleton_self _)
    · exact ⟨@Sealed.legacy idealCrypto _ _ legacyArchive rfl, rfl⟩
  intro key iv aad ciphertext tag plaintext h
  simp only [idealCrypto] at h
  split at h
  · rename_i hkey
    obtain ⟨call, hcall, rfl⟩ := Option.map_eq_some_iff.mp h
    have hmatches := List.find?_some hcall
    simp only [decide_eq_true_eq] at hmatches
    obtain ⟨rfl, rfl, rfl, rfl⟩ := hmatches
    rw [hkey]
    exact hsealed call (List.mem_of_find?_eq_some hcall)
  · cases h

theorem archives_freshNonces : FreshNonces {archiveSession, otherSession} := by
  have hdistinct : archiveTransform.artifactNonce ≠ otherTransform.artifactNonce := by decide
  rintro s (rfl | rfl) s' (rfl | rfl) hnonce
  · rfl
  · exact absurd hnonce hdistinct
  · exact absurd hnonce.symm hdistinct
  · rfl

/-- The stream of `legacyArchive`. -/
def legacyBytes : List UInt8 :=
  wireHeader (legacyHeaderJson idealCrypto archiveKey) ++ legacyArchive.bytes idealCrypto

/-- The artifact of version 2 is accepted, and no encrypting transform writes it. -/
theorem legacy_archive_accepted :
    idealCrypto.Unforgeable {archiveSession, otherSession} {legacyArchive}
      ∧ FreshNonces {archiveSession, otherSession}
      ∧ run (archiveKeyring idealCrypto) [legacyBytes] = ⟨legacyArchive.plaintext, .ok ()⟩
      ∧ ∀ s : Session, s.bytes idealCrypto ≠ legacyBytes := by
  refine ⟨idealCrypto_unforgeable, archives_freshNonces, ?_, ?_⟩
  · have hfingerprint : (archiveKeyring idealCrypto).keysByFingerprint
        (archiveKey.fingerprint idealCrypto) = some archiveKey := by decide
    have hstream : LegacyStream (archiveKeyring idealCrypto) {legacyArchive} archiveKey
        [legacyArchive] [legacyBytes].flatten :=
      ⟨⟨legacyHeaderJson idealCrypto archiveKey, by decide +kernel, by simp [legacyBytes],
        parseHeader_legacyHeaderJson hfingerprint⟩,
        @InPlace.last archiveKey.key legacyArchive rfl rfl, fun f hf => by simpa using hf⟩
    have hrun := run_legacyStream hstream
      (by
        intro f hf
        rw [List.mem_singleton.mp hf, LegacyFrame.Opens]
        decide +kernel)
      (by
        intro f hf
        rw [List.mem_singleton.mp hf]
        decide)
    simpa using hrun
  · -- the digit of the version
    intro s heq
    have hthree : (s.bytes idealCrypto)[23]? = some 0x33 := rfl
    have htwo : legacyBytes[23]? = some 0x32 := by decide +kernel
    rw [heq, htwo] at hthree
    cases hthree

/-- Rejected are the archive without its last byte, however it arrives, and the frame of the other
    artifact behind the header of the archive. -/
theorem spliced_archive_rejected :
    (∃ e, (run (archiveKeyring idealCrypto)
        ((archiveSession.bytes idealCrypto).dropLast.map fun byte => [byte])).result = .error e)
      ∧ ∃ e, (run (archiveKeyring idealCrypto) [archiveTransform.headerRaw idealCrypto,
        (otherTransform.frame idealCrypto otherText 0 true).bytes]).result = .error e := by
  have hbytes : archiveSession.bytes idealCrypto = archiveTransform.headerRaw idealCrypto
      ++ (archiveTransform.frame idealCrypto archiveText 0 true).bytes := by
    rw [Session.bytes, frames_archiveSession]
    show _ ++ (_ ++ []) = _
    rw [List.append_nil]
    rfl
  constructor
  · refine (tampered_stream_rejected idealCrypto_unforgeable archives_freshNonces
      (archiveKeyring idealCrypto) _).2.2.1 archiveSession (Or.inl rfl)
      (List.mem_singleton_self _) ?_ ?_
    · rw [← List.flatMap_def, List.flatMap_singleton']
      exact Or.inl (List.dropLast_prefix _)
    · rw [← List.flatMap_def, List.flatMap_singleton']
      intro heq
      have hlength := congrArg List.length heq
      rw [List.length_dropLast, hbytes, List.length_append, length_frame] at hlength
      omega
  · refine (tampered_stream_rejected idealCrypto_unforgeable archives_freshNonces
      (archiveKeyring idealCrypto) _).2.2.1 archiveSession (Or.inl rfl)
      (List.mem_singleton_self _) (Or.inr ⟨_, rfl⟩) ?_
    intro heq
    have hlength := congrArg List.length heq
    have hother : otherText.length = 15 := by decide
    have harchive : archiveText.length = 17 := by decide
    simp only [List.flatten_cons, List.flatten_nil, List.append_nil, hbytes, List.length_append,
      length_frame, hother, harchive] at hlength
    omega

end

end ComposeBastion
