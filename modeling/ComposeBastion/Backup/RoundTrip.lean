import ComposeBastion.Backup.Header

namespace ComposeBastion

open Js Transducer

/-!
# Backup encryption round trip

However the plaintext is cut into writes and however the ciphertext is cut again, the decrypting
transform puts out the plaintext.

* `Frames` — the frames of a plaintext: full blocks, then the rest as the final frame;
* `run_eq_frames` — the encrypting transform pushes the frames of the concatenated writes, as long
  as the index of a frame fits into 32 bits;
* `drain_openFrames` — the decrypting transform takes frames that open off its buffer, and
  `openFrames_of_frames` — these do;
* `run_eq_run_of_flatten_eq` — neither depends on the chunks.
-/

section

variable (crypto : NodeCrypto)

/-- `gcmDecrypt` inverts `gcmEncrypt` for equal key, initialisation vector and associated data. -/
def NodeCrypto.Inverts : Prop :=
  ∀ key iv aad plaintext, crypto.gcmDecrypt key iv aad
    (crypto.gcmEncrypt key iv aad plaintext).1 (crypto.gcmEncrypt key iv aad plaintext).2
      = some plaintext

/-! ### One frame -/

namespace BackupEncryptTransform

variable (t : BackupEncryptTransform)

/-- The associated data of a frame. -/
def aad (index : ℕ) (finalFrame : Bool) : List UInt8 :=
  t.headerRaw crypto ++ t.artifactNonce.1 ++ (uint32BE index ++ [flagByte finalFrame])

/-- The ciphertext and tag of a frame. -/
def sealedFrame (plaintext : List UInt8) (index : ℕ) (finalFrame : Bool) :
    List UInt8 × List UInt8 :=
  crypto.gcmEncrypt t.key.key (t.ivs index).1 (t.aad crypto index finalFrame) plaintext

/-- The frame of a plaintext at an index. -/
def frame (plaintext : List UInt8) (index : ℕ) (finalFrame : Bool) : PushedFrame :=
  ⟨index, finalFrame, plaintext, frameBytes index finalFrame (t.ivs index).1
    (t.sealedFrame crypto plaintext index finalFrame).2
    (t.sealedFrame crypto plaintext index finalFrame).1⟩

variable {crypto t}

theorem length_ciphertext (plaintext : List UInt8) (index : ℕ) (finalFrame : Bool) :
    (t.sealedFrame crypto plaintext index finalFrame).1.length = plaintext.length :=
  crypto.length_ciphertext _ _ _ _

/-- A frame is pushed when its index fits into 32 bits. -/
theorem pushFrame_of_lt {plaintext : List UInt8} {index : ℕ} {finalFrame : Bool}
    (hlength : plaintext.length ≤ CHUNK_SIZE) (hindex : index < 2 ^ 32) :
    t.pushFrame crypto plaintext index finalFrame
      = .ok (t.frame crypto plaintext index finalFrame) := by
  have hchunk : CHUNK_SIZE = 65536 := by decide
  have haad : frameAadV3 (t.headerRaw crypto) t.artifactNonce.1 index finalFrame
      = .ok (t.aad crypto index finalFrame) := by
    rw [frameAadV3, frameMarker, writeUInt32BE, if_pos hindex]
    rfl
  have hsealed : writeUInt32BE (t.sealedFrame crypto plaintext index finalFrame).1.length
      = .ok (uint32BE (t.sealedFrame crypto plaintext index finalFrame).1.length) := by
    rw [writeUInt32BE, if_pos (by rw [length_ciphertext]; omega)]
  have hwrite : writeUInt32BE index = .ok (uint32BE index) := if_pos hindex
  rw [pushFrame, encryptFrame, haad]
  show ((writeUInt32BE (t.sealedFrame crypto plaintext index finalFrame).1.length).bind fun length =>
    (writeUInt32BE index).map fun frameIndex => _).map _ = _
  rw [hsealed, hwrite]
  rfl

theorem pushFrame_of_not_lt {plaintext : List UInt8} {index : ℕ} {finalFrame : Bool}
    (hindex : ¬ index < 2 ^ 32) :
    ∃ e, t.pushFrame crypto plaintext index finalFrame = .error e := by
  refine ⟨"The value of \"value\" is out of range.", ?_⟩
  rw [pushFrame, encryptFrame, frameAadV3, frameMarker, writeUInt32BE, if_neg hindex]
  rfl

/-! ### The frames of a plaintext -/

variable (crypto t) in
/-- The frames of a plaintext from `index` on: blocks of `CHUNK_SIZE` bytes while more follows,
    then the rest as the final frame. -/
inductive Frames : ℕ → List UInt8 → List PushedFrame → Prop
  | last {index : ℕ} {plaintext : List UInt8} (hlength : plaintext.length ≤ CHUNK_SIZE)
      (hindex : index < 2 ^ 32) :
      Frames index plaintext [t.frame crypto plaintext index true]
  | next {index : ℕ} {block rest : List UInt8} {frames : List PushedFrame}
      (hblock : block.length = CHUNK_SIZE) (hindex : index < 2 ^ 32)
      (hrest : Frames (index + 1) rest frames) :
      Frames index (block ++ rest) (t.frame crypto block index false :: frames)

/-- Draining and flushing a plaintext whose frames have an index each pushes its frames. -/
theorem drain_flush_frames (n : ℕ) : ∀ {index : ℕ} {plaintext : List UInt8},
    plaintext.length = n → index * CHUNK_SIZE + plaintext.length ≤ 2 ^ 48 →
    (index = 0 ∨ plaintext ≠ []) →
    ∃ frames, ((t.machine crypto).drain ⟨index, plaintext⟩).andThen (t.flush crypto)
      = ⟨frames, .ok ()⟩ ∧ Frames crypto t index plaintext frames := by
  have hchunk : CHUNK_SIZE = 65536 := by decide
  induction n using Nat.strongRecOn with
  | ind n ih =>
    intro index plaintext hn htotal hstart
    have hindex : index < 2 ^ 32 := by
      rcases hstart with rfl | hne
      · decide
      · have hpos := List.length_pos_iff.mpr hne
        rw [hchunk] at htotal
        omega
    by_cases hlong : CHUNK_SIZE < plaintext.length
    · -- one full block, and there is more
      have hstep : (t.machine crypto).step index plaintext = .emit (index + 1)
          [t.frame crypto (plaintext.take CHUNK_SIZE) index false] (plaintext.drop CHUNK_SIZE) := by
        show t.step crypto index plaintext = _
        rw [step, if_pos hlong, pushFrame_of_lt (List.length_take_le _ _) hindex]
      have hrest : (plaintext.drop CHUNK_SIZE).length = plaintext.length - CHUNK_SIZE :=
        List.length_drop
      have hsame : (index + 1) * CHUNK_SIZE + (plaintext.drop CHUNK_SIZE).length
          = index * CHUNK_SIZE + plaintext.length := by
        rw [hrest, Nat.succ_mul]
        omega
      obtain ⟨frames, hrun, hframes⟩ := @ih (plaintext.drop CHUNK_SIZE).length
        (by rw [hrest]; omega) (index + 1) (plaintext.drop CHUNK_SIZE) rfl
        (by rw [hsame]; exact htotal)
        (Or.inr (List.ne_nil_of_length_pos (by rw [hrest]; omega)))
      refine ⟨t.frame crypto (plaintext.take CHUNK_SIZE) index false :: frames, ?_, ?_⟩
      · rw [Machine.drain_of_emit hstep, Outcome.after_andThen, hrun]
        rfl
      · have hsplit := Frames.next (List.length_take_of_le hlong.le) hindex hframes
        rwa [List.take_append_drop] at hsplit
    · have hsettled : (t.machine crypto).Settled ⟨index, plaintext⟩ := if_neg hlong
      refine ⟨[t.frame crypto plaintext index true], ?_, .last (by omega) hindex⟩
      rw [Machine.drain_of_more hsettled, Outcome.andThen_ok, Outcome.after_nil, flush,
        pushFrame_of_lt (by show plaintext.length ≤ CHUNK_SIZE; omega) hindex]

/-- A plaintext that is too long runs out of frame indices. -/
theorem drain_flush_error (n : ℕ) : ∀ {index : ℕ} {plaintext : List UInt8},
    plaintext.length = n → index ≤ 2 ^ 32 → 2 ^ 48 < index * CHUNK_SIZE + plaintext.length →
    ∃ e, (((t.machine crypto).drain ⟨index, plaintext⟩).andThen (t.flush crypto)).result
      = .error e := by
  have hchunk : CHUNK_SIZE = 65536 := by decide
  induction n using Nat.strongRecOn with
  | ind n ih =>
    intro index plaintext hn hindex htotal
    by_cases hlast : index = 2 ^ 32
    · obtain ⟨e, hfail⟩ := @pushFrame_of_not_lt crypto t plaintext index true (by omega)
      by_cases hlong : CHUNK_SIZE < plaintext.length
      · obtain ⟨e, hfail⟩ := @pushFrame_of_not_lt crypto t (plaintext.take CHUNK_SIZE) index false
          (by omega)
        have hstep : (t.machine crypto).step index plaintext = .fail e := by
          show t.step crypto index plaintext = _
          rw [step, if_pos hlong, hfail]
        refine ⟨e, ?_⟩
        rw [Machine.drain_of_fail hstep]
        rfl
      · have hsettled : (t.machine crypto).Settled ⟨index, plaintext⟩ := if_neg hlong
        refine ⟨e, ?_⟩
        rw [Machine.drain_of_more hsettled, Outcome.andThen_ok, Outcome.after_nil, flush, hfail]
    · -- there is an index left, and more than one block to go
      have hlong : CHUNK_SIZE < plaintext.length := by
        rw [hchunk] at htotal ⊢
        omega
      have hstep : (t.machine crypto).step index plaintext = .emit (index + 1)
          [t.frame crypto (plaintext.take CHUNK_SIZE) index false] (plaintext.drop CHUNK_SIZE) := by
        show t.step crypto index plaintext = _
        rw [step, if_pos hlong, pushFrame_of_lt (List.length_take_le _ _) (by omega)]
      have hrest : (plaintext.drop CHUNK_SIZE).length = plaintext.length - CHUNK_SIZE :=
        List.length_drop
      have hsame : (index + 1) * CHUNK_SIZE + (plaintext.drop CHUNK_SIZE).length
          = index * CHUNK_SIZE + plaintext.length := by
        rw [hrest, Nat.succ_mul]
        omega
      rw [Machine.drain_of_emit hstep, Outcome.after_andThen]
      exact @ih (plaintext.drop CHUNK_SIZE).length (by rw [hrest]; omega) (index + 1)
        (plaintext.drop CHUNK_SIZE) rfl (by omega) (by rw [hsame]; exact htotal)

theorem settled_initial : (t.machine crypto).Settled ⟨0, []⟩ := by
  show t.step crypto 0 [] = .more
  rw [step, if_neg (by decide)]

/-- The encrypting transform does not depend on how the plaintext is cut into writes. -/
theorem run_eq_drain (chunks : List (List UInt8)) :
    t.run crypto chunks true
      = ((t.machine crypto).drain ⟨0, chunks.flatten⟩).andThen (t.flush crypto) := by
  rw [run, Machine.feed_eq_drain settled_initial]
  rfl

/-- **What the encrypting transform pushes.** -/
theorem run_eq_frames {chunks : List (List UInt8)} (h : chunks.flatten.length ≤ 2 ^ 48) :
    ∃ frames, t.run crypto chunks true = ⟨frames, .ok ()⟩
      ∧ Frames crypto t 0 chunks.flatten frames := by
  rw [run_eq_drain]
  exact drain_flush_frames _ rfl (by rw [Nat.zero_mul, Nat.zero_add]; exact h) (Or.inl rfl)

theorem run_error_of_long {chunks : List (List UInt8)} (h : 2 ^ 48 < chunks.flatten.length) :
    ∃ e, (t.run crypto chunks true).result = .error e := by
  rw [run_eq_drain]
  exact drain_flush_error _ rfl (Nat.zero_le _) (by rw [Nat.zero_mul, Nat.zero_add]; exact h)

end BackupEncryptTransform

/-! ### Taking frames off a buffer -/

namespace BackupDecryptTransform

variable {crypto}

/-- A frame in front of the buffer is taken off and opened. -/
theorem frameStep_frameBytes {s : DecryptState} (header : ParsedHeader) (headerRaw : List UInt8)
    {index : ℕ} {finalFrame : Bool} {iv tag ciphertext : List UInt8} (rest : List UInt8)
    (hfinal : s.finalFrameSeen = false) (hexpected : s.expectedFrameIndex = index)
    (hindex : index < 2 ^ 32) (hlength : ciphertext.length ≤ MAX_FRAME_SIZE)
    (hiv : iv.length = IV_BYTES) (htag : tag.length = TAG_BYTES) :
    frameStep crypto s header headerRaw (frameBytes index finalFrame iv tag ciphertext ++ rest)
      = match decryptFrame crypto iv tag ciphertext index finalFrame header headerRaw with
        | .error e => .fail e
        | .ok plaintext => .emit ⟨s.header, index + 1, finalFrame⟩ plaintext rest := by
  have hmax : MAX_FRAME_SIZE = 16777216 := by decide
  have hmetadata : FRAME_METADATA_BYTES = 37 := by decide
  have hivBytes : IV_BYTES = 12 := rfl
  have htagBytes : TAG_BYTES = 16 := rfl
  have hbytes : (frameBytes index finalFrame iv tag ciphertext).length
      = FRAME_METADATA_BYTES + ciphertext.length := by
    simp only [frameBytes, List.length_append, length_uint32BE, List.length_singleton]
    omega
  -- the first nine bytes are spelled out, the fields behind them are appended
  have htail : (frameBytes index finalFrame iv tag ciphertext ++ rest).drop 9
      = iv ++ (tag ++ (ciphertext ++ rest)) := by
    simp only [frameBytes, List.append_assoc]
    rfl
  have hread : readUInt32BE (frameBytes index finalFrame iv tag ciphertext ++ rest)
      = ciphertext.length := by
    simp only [frameBytes, List.append_assoc]
    exact readUInt32BE_uint32BE (by omega) _
  have hframeIndex : readUInt32BE
      ((frameBytes index finalFrame iv tag ciphertext ++ rest).drop 4) = index := by
    have hdrop : (frameBytes index finalFrame iv tag ciphertext ++ rest).drop 4 = uint32BE index
        ++ ([flagByte finalFrame] ++ (iv ++ (tag ++ (ciphertext ++ rest)))) := by
      simp only [frameBytes, List.append_assoc]
      rfl
    rw [hdrop, readUInt32BE_uint32BE hindex]
  have hflag : (frameBytes index finalFrame iv tag ciphertext ++ rest).getD 8 0
      = flagByte finalFrame := by
    simp only [frameBytes, List.append_assoc]
    rfl
  have hivField : ((frameBytes index finalFrame iv tag ciphertext ++ rest).drop 9).take IV_BYTES
      = iv := by
    rw [htail, List.take_left' hiv]
  have htagField : ((frameBytes index finalFrame iv tag ciphertext ++ rest).drop
      (9 + IV_BYTES)).take TAG_BYTES = tag := by
    rw [← List.drop_drop, htail, List.drop_left' hiv, List.take_left' htag]
  have hcipherField : ((frameBytes index finalFrame iv tag ciphertext ++ rest).drop
      FRAME_METADATA_BYTES).take ciphertext.length = ciphertext := by
    rw [show FRAME_METADATA_BYTES = 9 + IV_BYTES + TAG_BYTES by decide, ← List.drop_drop,
      ← List.drop_drop, htail, List.drop_left' hiv, List.drop_left' htag, List.take_left]
  have hrest : (frameBytes index finalFrame iv tag ciphertext ++ rest).drop
      (FRAME_METADATA_BYTES + ciphertext.length) = rest := by
    rw [← hbytes, List.drop_left]
  have hvalid : ¬ (flagByte finalFrame ≠ 0 ∧ flagByte finalFrame ≠ 1) := by
    cases finalFrame <;> decide
  have hbit : (flagByte finalFrame == 1) = finalFrame := by cases finalFrame <;> rfl
  unfold frameStep
  rw [if_neg (by rw [List.length_append, hbytes]; omega), if_neg (by rw [hfinal]; decide)]
  dsimp only
  rewrite [hread, if_neg (by omega), if_neg (by rw [List.length_append, hbytes]; omega), hflag,
    if_neg hvalid, hframeIndex, hexpected, if_neg (fun h => h rfl), hivField, htagField,
    hcipherField, hbit, hrest]
  rfl

/-- The header of a stream, as the decrypting transform keeps it. -/
def headerOf (crypto : NodeCrypto) (t : BackupEncryptTransform) : ParsedHeader × List UInt8 :=
  (⟨t.key, some t.artifactNonce.1⟩, t.headerRaw crypto)

theorem decryptFrame_frame (hinverts : crypto.Inverts) (t : BackupEncryptTransform)
    (plaintext : List UInt8) {index : ℕ} (finalFrame : Bool) (hindex : index < 2 ^ 32) :
    decryptFrame crypto (t.ivs index).1 (t.sealedFrame crypto plaintext index finalFrame).2
      (t.sealedFrame crypto plaintext index finalFrame).1 index finalFrame
      ⟨t.key, some t.artifactNonce.1⟩ (t.headerRaw crypto) = .ok plaintext := by
  have haad : frameAad ⟨t.key, some t.artifactNonce.1⟩ (t.headerRaw crypto) index finalFrame
      = .ok (t.aad crypto index finalFrame) := by
    show frameAadV3 (t.headerRaw crypto) t.artifactNonce.1 index finalFrame = _
    rw [frameAadV3, frameMarker, writeUInt32BE, if_pos hindex]
    rfl
  rw [decryptFrame, haad, Except.bind]
  dsimp only
  rw [BackupEncryptTransform.sealedFrame, hinverts]

variable (keyring : BackupEncryptionKeyring crypto)

theorem step_of_header (header : ParsedHeader × List UInt8) (index : ℕ) (final : Bool)
    (buffer : List UInt8) : (machine keyring).step ⟨some header, index, final⟩ buffer
      = frameStep crypto ⟨some header, index, final⟩ header.1 header.2 buffer := rfl

/-- Nothing is left to do on an empty buffer. -/
theorem settled_nil (header : ParsedHeader × List UInt8) (index : ℕ) (final : Bool) :
    (machine keyring).Settled ⟨⟨some header, index, final⟩, []⟩ := by
  rw [Machine.Settled, step_of_header, frameStep, if_pos (by decide : ([] : List UInt8).length < 4)]

variable (crypto) in
/-- A frame that opens under a header, at an index and with a flag. -/
structure OpenFrame (header : ParsedHeader × List UInt8) (index : ℕ) (finalFrame : Bool)
    (bytes plaintext : List UInt8) : Prop where
  index_lt : index < 2 ^ 32
  opens : ∃ iv tag ciphertext, iv.length = IV_BYTES ∧ tag.length = TAG_BYTES
    ∧ ciphertext.length ≤ MAX_FRAME_SIZE
    ∧ bytes = frameBytes index finalFrame iv tag ciphertext
    ∧ decryptFrame crypto iv tag ciphertext index finalFrame header.1 header.2 = .ok plaintext

variable (crypto) in
/-- Frames that open one after the other from `index` on, the last of them and no other final. -/
inductive OpenFrames (header : ParsedHeader × List UInt8) :
    ℕ → (bytes plaintext : List UInt8) → Prop
  | last {index : ℕ} {bytes plaintext : List UInt8}
      (hframe : OpenFrame crypto header index true bytes plaintext) :
      OpenFrames header index bytes plaintext
  | next {index : ℕ} {bytes plaintext rest output : List UInt8}
      (hframe : OpenFrame crypto header index false bytes plaintext)
      (hrest : OpenFrames header (index + 1) rest output) :
      OpenFrames header index (bytes ++ rest) (plaintext ++ output)

theorem OpenFrame.step {header : ParsedHeader × List UInt8} {index : ℕ} {finalFrame : Bool}
    {bytes plaintext : List UInt8} (h : OpenFrame crypto header index finalFrame bytes plaintext)
    (rest : List UInt8) :
    (machine keyring).step ⟨some header, index, false⟩ (bytes ++ rest)
      = .emit ⟨some header, index + 1, finalFrame⟩ plaintext rest := by
  obtain ⟨iv, tag, ciphertext, hiv, htag, hlength, rfl, hopen⟩ := h.opens
  rw [step_of_header]
  refine Eq.trans (frameStep_frameBytes _ _ rest rfl rfl h.index_lt hlength hiv htag) ?_
  rw [hopen]

/-- **The decrypting transform takes frames that open off the buffer**, up to the final one. -/
theorem drain_openFrames {header : ParsedHeader × List UInt8} {index : ℕ}
    {bytes plaintext : List UInt8} (h : OpenFrames crypto header index bytes plaintext) :
    ∃ next, (machine keyring).drain ⟨⟨some header, index, false⟩, bytes⟩
      = ⟨plaintext, .ok ⟨⟨some header, next, true⟩, []⟩⟩ := by
  induction h with
  | @last index bytes plaintext hframe =>
    have hlast := hframe.step keyring []
    rw [List.append_nil] at hlast
    refine ⟨index + 1, ?_⟩
    rw [Machine.drain_of_emit hlast, Machine.drain_of_more (settled_nil keyring _ _ _)]
    simp [Outcome.after]
  | @next index bytes plaintext rest output hframe _ ih =>
    obtain ⟨next, hdrain⟩ := ih
    refine ⟨next, ?_⟩
    rw [Machine.drain_of_emit (hframe.step keyring rest), hdrain]
    rfl

/-- The frames of a plaintext open. -/
theorem openFrames_of_frames (hinverts : crypto.Inverts) {t : BackupEncryptTransform} {index : ℕ}
    {plaintext : List UInt8} {frames : List PushedFrame}
    (h : t.Frames crypto index plaintext frames) :
    OpenFrames crypto (headerOf crypto t) index (frames.flatMap (·.bytes)) plaintext := by
  have hopen : ∀ {plaintext : List UInt8} {index : ℕ} (finalFrame : Bool),
      plaintext.length ≤ CHUNK_SIZE → index < 2 ^ 32 →
      OpenFrame crypto (headerOf crypto t) index finalFrame
        (t.frame crypto plaintext index finalFrame).bytes plaintext := by
    intro plaintext index finalFrame hlength hindex
    refine ⟨hindex, _, _, _, (t.ivs index).2, crypto.length_tag _ _ _ _, ?_, rfl,
      decryptFrame_frame hinverts t plaintext finalFrame hindex⟩
    rw [BackupEncryptTransform.length_ciphertext]
    exact hlength.trans (by decide)
  induction h with
  | last hlength hindex =>
    rw [List.flatMap_cons, List.flatMap_nil, List.append_nil]
    exact .last (hopen true hlength hindex)
  | next hblock hindex _ ih =>
    rw [List.flatMap_cons]
    exact .next (hopen false hblock.le hindex) ih

/-! ### Whole streams -/

theorem step_initial (buffer : List UInt8) :
    (machine keyring).step DecryptState.initial buffer
      = headerStep keyring DecryptState.initial buffer := rfl

theorem settled_initial : (machine keyring).Settled ⟨DecryptState.initial, []⟩ := by
  rw [Machine.Settled, step_initial, headerStep, if_pos (by decide)]

/-- The decrypting transform reads the concatenation of its chunks. -/
theorem run_eq_drain (chunks : List (List UInt8)) :
    run keyring chunks
      = ((machine keyring).drain ⟨DecryptState.initial, chunks.flatten⟩).andThen
        (flush keyring) := by
  rw [run, Machine.feed_eq_drain (settled_initial keyring)]
  rfl

theorem run_eq_run_of_flatten_eq {chunks chunks' : List (List UInt8)}
    (h : chunks.flatten = chunks'.flatten) : run keyring chunks = run keyring chunks' := by
  rw [run_eq_drain, run_eq_drain, h]

/-- A header that parses with frames that open behind it is a whole stream. -/
theorem run_openFrames {header : ParsedHeader} {json body plaintext : List UInt8}
    (hjson : json.length ≤ MAX_FRAME_SIZE) (hparse : parseHeader json keyring = .ok header)
    (hbody : OpenFrames crypto (header, wireHeader json) 0 body plaintext)
    {chunks : List (List UInt8)} (hchunks : chunks.flatten = wireHeader json ++ body) :
    run keyring chunks = ⟨plaintext, .ok ()⟩ := by
  obtain ⟨next, hdrain⟩ := drain_openFrames keyring hbody
  have hheader : (machine keyring).step DecryptState.initial (wireHeader json ++ body)
      = .emit ⟨some (header, wireHeader json), 0, false⟩ [] body :=
    headerStep_wireHeader hjson hparse _ _
  have hwhole : (machine keyring).drain ⟨DecryptState.initial, wireHeader json ++ body⟩
      = ⟨plaintext, .ok ⟨⟨some (header, wireHeader json), next, true⟩, []⟩⟩ := by
    refine Eq.trans (Machine.drain_of_emit hheader) ?_
    rw [hdrain, Outcome.after_nil]
  have hflush : flush keyring ⟨⟨some (header, wireHeader json), next, true⟩, []⟩
      = ⟨[], .ok ()⟩ := by
    rw [flush, Machine.drain_of_more (settled_nil keyring _ _ _), Outcome.andThen_ok]
    rfl
  rw [run_eq_drain, hchunks, hwhole, Outcome.andThen_ok, hflush, Outcome.after, List.append_nil]

/-- A complete stream is decrypted to its plaintext. -/
theorem run_stream (hinverts : crypto.Inverts) {t : BackupEncryptTransform}
    (hkey : keyring.keysById t.key.id = some t.key) {plaintext : List UInt8}
    {frames : List PushedFrame} (hframes : t.Frames crypto 0 plaintext frames)
    {chunks : List (List UInt8)} (hchunks : chunks.flatten = t.stream crypto frames) :
    run keyring chunks = ⟨plaintext, .ok ()⟩ := by
  have hid : isKeyId t.key.id = true :=
    keyring.isKeyId_of_mem t.key (List.mem_of_find?_eq_some hkey)
  have hjson : (headerJson crypto t.key t.artifactNonce.1).length ≤ MAX_FRAME_SIZE :=
    (length_headerJson_le t.key t.artifactNonce hid).trans (by decide)
  exact run_openFrames keyring hjson (parseHeader_headerJson t.artifactNonce hkey)
    (openFrames_of_frames hinverts hframes) hchunks

end BackupDecryptTransform

variable {crypto}

/-- A keyring finds each of its keys by its id. -/
theorem BackupEncryptionKeyring.keysById_of_mem {keyring : BackupEncryptionKeyring crypto}
    {key : BackupEncryptionKey} (h : key ∈ keyring.keys) :
    keyring.keysById key.id = some key := by
  have hfind : ∀ {keys : List BackupEncryptionKey}, (keys.map (·.id)).Nodup → key ∈ keys →
      keys.find? (fun k => k.id = key.id) = some key := by
    intro keys hnodup hmem
    induction keys with
    | nil => cases hmem
    | cons k keys ih =>
      obtain ⟨hfresh, hrest⟩ := List.nodup_cons.mp hnodup
      rcases List.mem_cons.mp hmem with rfl | hmem
      · rw [List.find?_cons_of_pos (by simp)]
      · have hne : k.id ≠ key.id := by
          intro heq
          exact hfresh (List.mem_map.mpr ⟨key, hmem, heq.symm⟩)
        rw [List.find?_cons_of_neg (by simpa using hne)]
        exact ih hrest hmem
  exact hfind keyring.ids_nodup h

/-- **Round trip.**  A plaintext of at most `2 ^ 48` bytes, in whatever writes it arrives, is
    encrypted, and its ciphertext, in whatever chunks it arrives, is decrypted to it by every
    keyring that holds the key.  What the decrypting transform does depends on the concatenation
    of its chunks only. -/
theorem backup_round_trip (hinverts : crypto.Inverts) (t : BackupEncryptTransform)
    (keyring : BackupEncryptionKeyring crypto) (hkey : t.key ∈ keyring.keys)
    (writes : List (List UInt8)) (hlength : writes.flatten.length ≤ 2 ^ 48) :
    (∃ frames, t.run crypto writes true = ⟨frames, .ok ()⟩
        ∧ ∀ chunks : List (List UInt8), chunks.flatten = t.stream crypto frames →
          BackupDecryptTransform.run keyring chunks = ⟨writes.flatten, .ok ()⟩)
      ∧ ∀ chunks chunks' : List (List UInt8), chunks.flatten = chunks'.flatten →
        BackupDecryptTransform.run keyring chunks = BackupDecryptTransform.run keyring chunks' := by
  refine ⟨?_, fun _ _ => BackupDecryptTransform.run_eq_run_of_flatten_eq keyring⟩
  obtain ⟨frames, hrun, hframes⟩ := @BackupEncryptTransform.run_eq_frames crypto t writes hlength
  exact ⟨frames, hrun, fun chunks =>
    BackupDecryptTransform.run_stream keyring hinverts (keyring.keysById_of_mem hkey) hframes⟩

/-! ### An archive -/

def archiveText : List UInt8 := utf8Encode "important archive".toList

def archiveCiphertext : List UInt8 := [0x8b, 0xd4, 0xde, 0x4c, 0x54, 0x48, 0xe6, 0x6d, 0xb9, 0xe4,
  0x76, 0x44, 0xf8, 0x0c, 0x7a, 0x2d, 0x1c]

def archiveTag : List UInt8 := [0x3f, 0xfb, 0xc2, 0x9c, 0xc8, 0x31, 0x07, 0x35, 0xc3, 0x76, 0x4c,
  0x6d, 0x09, 0x23, 0x67, 0xd0]

/-- SHA-256 of `archiveKey`. -/
def archiveDigest : List UInt8 := [0x63, 0x0d, 0xcd, 0x29, 0x66, 0xc4, 0x33, 0x66, 0x91, 0x12, 0x54,
  0x48, 0xbb, 0xb2, 0x5b, 0x4f, 0xf4, 0x12, 0xa4, 0x9c, 0x73, 0x2d, 0xb2, 0xc8, 0xab, 0xc1, 0xb8,
  0x58, 0x1b, 0xd7, 0x10, 0xdd]

/-- AES-256-GCM on the one frame of `archiveTransform`; other input is passed on as it is. -/
def archiveCrypto : NodeCrypto where
  sha256 _ := archiveDigest
  gcmEncrypt _ _ _ plaintext :=
    if plaintext = archiveText then (archiveCiphertext, archiveTag)
    else (plaintext, List.replicate 16 0)
  gcmDecrypt _ _ _ ciphertext tag :=
    if tag = archiveTag then if ciphertext = archiveCiphertext then some archiveText else none
    else if tag = List.replicate 16 0 then some ciphertext else none
  length_ciphertext _ _ _ plaintext := by
    split
    · rename_i htext
      rw [htext]
      decide
    · rfl
  length_tag _ _ _ plaintext := by
    split <;> rfl

/-- The bytes from `start` on. -/
def countedBytes (start length : ℕ) : List UInt8 :=
  (List.range length).map fun i => UInt8.ofNat (start + i)

/-- The bytes 0 to 31 as the application's secret. -/
def archiveKey : BackupEncryptionKey := ⟨"app_secret".toList, countedBytes 0 32⟩

def archiveTransform : BackupEncryptTransform where
  key := archiveKey
  artifactNonce := ⟨countedBytes 0x10 16, by decide⟩
  ivs _ := ⟨countedBytes 0x40 12, by decide⟩

/-- The keyring with the application's key alone. -/
def archiveKeyring (crypto : NodeCrypto) : BackupEncryptionKeyring crypto where
  keys := [archiveKey]
  activeKey := archiveKey
  activeKey_mem := List.mem_singleton_self _
  ids_nodup := List.nodup_singleton _
  fingerprints_nodup := List.nodup_singleton _
  isKeyId_of_mem := by
    intro key hkey
    rw [List.mem_singleton.mp hkey]
    decide

theorem archiveCrypto_inverts : archiveCrypto.Inverts := by
  intro key iv aad plaintext
  have hother : List.replicate 16 0 ≠ archiveTag := by decide
  by_cases htext : plaintext = archiveText
  · simp [archiveCrypto, htext]
  · simp only [archiveCrypto, if_neg htext, if_neg hother, if_true]

/-- A plaintext of `2 ^ 48 + 1` bytes is not encrypted. -/
theorem zeros_not_encrypted :
    archiveCrypto.Inverts ∧ archiveTransform.key ∈ (archiveKeyring archiveCrypto).keys
      ∧ ¬ ∃ frames, archiveTransform.run archiveCrypto [List.replicate (2 ^ 48 + 1) 0] true
        = ⟨frames, .ok ()⟩ := by
  refine ⟨archiveCrypto_inverts, List.mem_singleton_self _, ?_⟩
  rintro ⟨frames, hrun⟩
  obtain ⟨e, herror⟩ := @BackupEncryptTransform.run_error_of_long archiveCrypto archiveTransform
    [List.replicate (2 ^ 48 + 1) 0] (by rw [List.flatten_singleton, List.length_replicate]; omega)
  rw [hrun] at herror
  cases herror

/-- The archive, written in three pieces, arrives byte by byte. -/
theorem archive_round_trip :
    ∃ frames, archiveTransform.run archiveCrypto
        (["import", "", "ant archive"].map fun text => utf8Encode text.toList) true
        = ⟨frames, .ok ()⟩
      ∧ BackupDecryptTransform.run (archiveKeyring archiveCrypto)
          ((archiveTransform.stream archiveCrypto frames).map fun byte => [byte])
        = ⟨archiveText, .ok ()⟩ := by
  obtain ⟨⟨frames, hrun, hread⟩, -⟩ := backup_round_trip archiveCrypto_inverts archiveTransform
    (archiveKeyring archiveCrypto) (List.mem_singleton_self _)
    (["import", "", "ant archive"].map fun text => utf8Encode text.toList) (by decide)
  refine ⟨frames, hrun, ?_⟩
  rw [hread _ (by rw [← List.flatMap_def, List.flatMap_singleton'])]
  have htext : (["import", "", "ant archive"].map fun text => utf8Encode text.toList).flatten
      = archiveText := by decide
  rw [htext]

end

end ComposeBastion
