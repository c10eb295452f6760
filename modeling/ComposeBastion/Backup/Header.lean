import ComposeBastion.Backup.Encryption
import Mathlib.Tactic.NormNum

namespace ComposeBastion

open Js Transducer

/-!
# The header of an encrypted backup reads back

`parseHeader` accepts what `headerBytes` writes, for every keyring that holds the key under its
id (`parseHeader_headerJson`), and `headerStep` takes exactly the header off the front of a
stream (`headerStep_headerBytes`).
-/

/-! ### The values of a header -/

/-- A text that reads as a number in front of a comma and of a brace. -/
theorem readsAs_number {text : List Char} {n : ℕ}
    (h : ∀ c ∈ [',', '}'], ∀ fuel tail, Json.parseValue (fuel + 1) (text ++ c :: tail)
      = some (.number (1 * (n : ℚ) * 10 ^ ((0 : ℤ) - (0 : ℕ))), c :: tail)) :
    Json.ReadsAs text (.number n) := by
  intro fuel rest hrest
  cases rest with
  | nil => simp at hrest
  | cons c tail =>
    rw [h c (by simpa using hrest)]
    norm_num

theorem readsAs_two : Json.ReadsAs "2".toList (.number (2 : ℕ)) := by
  refine readsAs_number fun c hc fuel tail => ?_
  simp only [List.mem_cons, List.not_mem_nil, or_false] at hc
  rcases hc with rfl | rfl <;> rfl

theorem readsAs_three : Json.ReadsAs "3".toList (.number (3 : ℕ)) := by
  refine readsAs_number fun c hc fuel tail => ?_
  simp only [List.mem_cons, List.not_mem_nil, or_false] at hc
  rcases hc with rfl | rfl <;> rfl

theorem readsAs_chunkSize : Json.ReadsAs "65536".toList (.number (65536 : ℕ)) := by
  refine readsAs_number fun c hc fuel tail => ?_
  simp only [List.mem_cons, List.not_mem_nil, or_false] at hc
  rcases hc with rfl | rfl <;> rfl

theorem isPlain_of_isKeyId {id : List Char} (h : isKeyId id = true) :
    ∀ c ∈ id, isPlain c = true := by
  intro c hc
  simp only [isKeyId, Bool.and_eq_true, List.all_eq_true] at h
  have hchar := h.2 c hc
  simp only [isKeyIdChar, Bool.or_eq_true, Bool.and_eq_true, decide_eq_true_eq, beq_iff_eq,
    Char.le_def, UInt32.le_iff_toNat_le] at hchar
  have plain_of_range : 0x30 ≤ c.toNat → c.toNat ≤ 0x7a → c ≠ '\\' → isPlain c = true := by
    intro hlow hhigh hslash
    have hquote : c ≠ '"' := by
      rintro rfl
      exact absurd hlow (by decide)
    simp only [isPlain, Bool.and_eq_true, decide_eq_true_eq, bne_iff_ne]
    exact ⟨⟨⟨by omega, by omega⟩, hquote⟩, hslash⟩
  have ha : ('a' : Char).val.toNat = 0x61 := rfl
  have hz : ('z' : Char).val.toNat = 0x7a := rfl
  have hA : ('A' : Char).val.toNat = 0x41 := rfl
  have hZ : ('Z' : Char).val.toNat = 0x5a := rfl
  have h0 : ('0' : Char).val.toNat = 0x30 := rfl
  have h9 : ('9' : Char).val.toNat = 0x39 := rfl
  have hval : c.val.toNat = c.toNat := rfl
  rcases hchar with ((((hlower | hupper) | hdigit) | rfl) | rfl) | rfl
  · refine plain_of_range (by omega) (by omega) ?_
    rintro rfl
    exact absurd hlower (by decide)
  · refine plain_of_range (by omega) (by omega) ?_
    rintro rfl
    exact absurd hupper (by decide)
  · refine plain_of_range (by omega) (by omega) ?_
    rintro rfl
    exact absurd hdigit (by decide)
  · decide
  · decide
  · decide

section

variable {crypto : NodeCrypto}

theorem isPlain_fingerprint (key : BackupEncryptionKey) :
    ∀ c ∈ key.fingerprint crypto, isPlain c = true := fun c hc =>
  isPlain_hex _ c (List.mem_of_mem_take hc)

/-! ### Parsing -/

/-- A text whose characters are checked one by one. -/
theorem isPlain_of_all {text : List Char} (h : text.all isPlain = true) :
    ∀ c ∈ text, isPlain c = true :=
  List.all_eq_true.mp h

/-- A member whose value is a plain string. -/
def stringMember (name : String) (text : List Char) (hname : name.toList.all isPlain = true)
    (htext : ∀ c ∈ text, isPlain c = true) : Json.RenderedMember :=
  ⟨name.toList, quote text, .string text, List.all_eq_true.mp hname, Json.readsAs_quote htext⟩

/-- The version of a header. -/
def versionMember (text : String) (version : ℕ) (h : Json.ReadsAs text.toList (.number version)) :
    Json.RenderedMember :=
  ⟨"version".toList, text.toList, .number version, isPlain_of_all (by decide), h⟩

def algorithmMember : Json.RenderedMember :=
  stringMember "algorithm" "aes-256-gcm-chunked".toList (by decide) (isPlain_of_all (by decide))

def keySourceMember (source : List Char) (h : ∀ c ∈ source, isPlain c = true) :
    Json.RenderedMember :=
  stringMember "keySource" source (by decide) h

variable (crypto) in
def keyFingerprintMember (key : BackupEncryptionKey) : Json.RenderedMember :=
  stringMember "keyFingerprint" (key.fingerprint crypto) (by decide) (isPlain_fingerprint key)

def chunkSizeMember : Json.RenderedMember :=
  ⟨"chunkSize".toList, "65536".toList, .number (65536 : ℕ), isPlain_of_all (by decide),
    readsAs_chunkSize⟩

variable (crypto) in
/-- The members of a header with their values. -/
def renderedHeader (key : BackupEncryptionKey) (artifactNonce : List UInt8)
    (hkey : isKeyId key.id = true) : List Json.RenderedMember :=
  [versionMember "3" 3 readsAs_three, algorithmMember,
    keySourceMember "keyring".toList (isPlain_of_all (by decide)),
    stringMember "keyId" key.id (by decide) (isPlain_of_isKeyId hkey),
    keyFingerprintMember crypto key, chunkSizeMember,
    stringMember "artifactNonce" (base64urlEncode artifactNonce) (by decide)
      (isPlain_base64url artifactNonce)]

theorem isAscii_of_isPlain {c : Char} (h : isPlain c = true) : c.toNat < 0x80 := by
  simp only [isPlain, Bool.and_eq_true, decide_eq_true_eq] at h
  omega

theorem isAscii_quote {text : List Char} (h : ∀ c ∈ text, isPlain c = true) :
    ∀ c ∈ quote text, c.toNat < 0x80 := by
  intro c hc
  rw [quote, flatMap_escapeChar h] at hc
  simp only [List.mem_cons, List.mem_append, List.not_mem_nil, or_false] at hc
  rcases hc with rfl | hc | rfl
  · decide
  · exact isAscii_of_isPlain (h c hc)
  · decide

theorem isAscii_renderObject {members : List (List Char × List Char)}
    (h : ∀ m ∈ members, (∀ c ∈ m.1, isPlain c = true) ∧ ∀ c ∈ m.2, c.toNat < 0x80) :
    ∀ c ∈ renderObject members, c.toNat < 0x80 := by
  have hmembers : ∀ c ∈ renderMembers members, c.toNat < 0x80 := by
    induction members with
    | nil => exact fun c hc => by cases hc
    | cons member members ih =>
      have hrest := ih fun m hm => h m (List.mem_cons_of_mem _ hm)
      obtain ⟨hname, htext⟩ := h member List.mem_cons_self
      intro c hc
      have hparts : c ∈ quote member.1 ∨ c = ':' ∨ c ∈ member.2 ∨ c = ','
          ∨ c ∈ renderMembers members := by
        cases members with
        | nil =>
          rw [renderMembers, List.mem_append, List.mem_cons] at hc
          rcases hc with hq | hcolon | ht
          · exact Or.inl hq
          · exact Or.inr (Or.inl hcolon)
          · exact Or.inr (Or.inr (Or.inl ht))
        | cons next members =>
          have hc : c ∈ quote member.1 ++ ':' :: (member.2 ++ ',' :: renderMembers (next :: members)) :=
            hc
          rw [List.mem_append, List.mem_cons, List.mem_append, List.mem_cons] at hc
          rcases hc with hq | hcolon | ht | hcomma | hr
          · exact Or.inl hq
          · exact Or.inr (Or.inl hcolon)
          · exact Or.inr (Or.inr (Or.inl ht))
          · exact Or.inr (Or.inr (Or.inr (Or.inl hcomma)))
          · exact Or.inr (Or.inr (Or.inr (Or.inr hr)))
      rcases hparts with hq | rfl | ht | rfl | hr
      · exact isAscii_quote hname c hq
      · decide
      · exact htext c ht
      · decide
      · exact hrest c hr
  intro c hc
  simp only [renderObject, List.mem_cons, List.mem_append, List.not_mem_nil, or_false] at hc
  rcases hc with rfl | hc | rfl
  · decide
  · exact hmembers c hc
  · decide

theorem isAscii_of_all {text : List Char} (h : text.all (fun c => c.toNat < 0x80) = true) :
    ∀ c ∈ text, c.toNat < 0x80 := by
  intro c hc
  exact of_decide_eq_true (List.all_eq_true.mp h c hc)

theorem isAscii_header (key : BackupEncryptionKey) (artifactNonce : List UInt8)
    (hkey : isKeyId key.id = true) :
    ∀ c ∈ renderObject (headerMembers crypto key artifactNonce), c.toNat < 0x80 := by
  refine isAscii_renderObject fun m hm => ?_
  simp only [headerMembers, List.mem_cons, List.not_mem_nil, or_false] at hm
  rcases hm with rfl | rfl | rfl | rfl | rfl | rfl | rfl
  · exact ⟨isPlain_of_all (by decide), isAscii_of_all (by decide)⟩
  · exact ⟨isPlain_of_all (by decide), isAscii_quote (isPlain_of_all (by decide))⟩
  · exact ⟨isPlain_of_all (by decide), isAscii_quote (isPlain_of_all (by decide))⟩
  · have hname : "keyId".toList.all isPlain = true := by decide
    exact ⟨isPlain_of_all hname, isAscii_quote (isPlain_of_isKeyId hkey)⟩
  · have hname : "keyFingerprint".toList.all isPlain = true := by decide
    exact ⟨isPlain_of_all hname, isAscii_quote (isPlain_fingerprint key)⟩
  · exact ⟨isPlain_of_all (by decide), isAscii_of_all (by decide)⟩
  · have hname : "artifactNonce".toList.all isPlain = true := by decide
    exact ⟨isPlain_of_all hname, isAscii_quote (isPlain_base64url artifactNonce)⟩

/-- The object a header is parsed to. -/
theorem parse_headerJson (key : BackupEncryptionKey) (artifactNonce : List UInt8)
    (hkey : isKeyId key.id = true) :
    Json.parse (utf8Decode (headerJson crypto key artifactNonce)) = some (.object
      [("version".toList, .number 3), ("algorithm".toList, .string "aes-256-gcm-chunked".toList),
        ("keySource".toList, .string "keyring".toList), ("keyId".toList, .string key.id),
        ("keyFingerprint".toList, .string (key.fingerprint crypto)),
        ("chunkSize".toList, .number 65536),
        ("artifactNonce".toList, .string (base64urlEncode artifactNonce))]) := by
  rw [headerJson, utf8Decode_utf8Encode]
  have hmembers : headerMembers crypto key artifactNonce
      = (renderedHeader crypto key artifactNonce hkey).map Json.RenderedMember.rendered := rfl
  rw [hmembers, renderedHeader, Json.parse_renderObject]
  rfl

/-- **The header reads back.** -/
theorem parseHeader_headerJson {keyring : BackupEncryptionKeyring crypto}
    {key : BackupEncryptionKey} (artifactNonce : RandomBytes ARTIFACT_NONCE_BYTES)
    (hkey : keyring.keysById key.id = some key) :
    parseHeader (headerJson crypto key artifactNonce.1) keyring
      = .ok ⟨key, some artifactNonce.1⟩ := by
  have hid : isKeyId key.id = true :=
    keyring.isKeyId_of_mem key (List.mem_of_find?_eq_some hkey)
  have htwo : numberEquals 3 2 = false := by decide +kernel
  have hthree : numberEquals 3 3 = true := by decide +kernel
  have hchunk : numberEquals 65536 CHUNK_SIZE = true := by decide +kernel
  have hnonce : (base64urlDecode (base64urlEncode artifactNonce.1)).length
      = ARTIFACT_NONCE_BYTES := by
    rw [base64urlDecode_encode]
    exact artifactNonce.2
  rw [parseHeader, parse_headerJson key artifactNonce.1 hid]
  show (if numberEquals 3 2 then _ else if numberEquals 3 3 then _ else _) = _
  rw [htwo, hthree]
  show (if (!true || !numberEquals 65536 CHUNK_SIZE || !isKeyId key.id) then _ else _) = _
  rw [hchunk, hid, if_neg (by decide), hkey]
  show (if some (key.fingerprint crypto) ≠ some (key.fingerprint crypto) then _ else _) = _
  rw [if_neg (fun h => h rfl), if_neg (fun h => h hnonce), base64urlDecode_encode]

/-! ### On the wire -/

/-- A header is short: its key id has at most 64 characters and its fingerprint 16. -/
theorem length_headerJson_le (key : BackupEncryptionKey)
    (artifactNonce : RandomBytes ARTIFACT_NONCE_BYTES) (hkey : isKeyId key.id = true) :
    (headerJson crypto key artifactNonce.1).length ≤ 400 := by
  have hid : key.id.length ≤ 64 := by
    simp only [isKeyId, Bool.and_eq_true, decide_eq_true_eq] at hkey
    exact hkey.1.2
  have hfingerprint : (key.fingerprint crypto).length ≤ 16 := List.length_take_le _ _
  have hnonce : (base64urlEncode artifactNonce.1).length ≤ 32 := by
    have hsextets := length_sextets_le artifactNonce.1
    have hbytes : artifactNonce.1.length = 16 := artifactNonce.2
    rw [base64urlEncode, List.length_map]
    omega
  rw [headerJson, length_utf8Encode (isAscii_header key artifactNonce.1 hkey)]
  simp only [renderObject, headerMembers, renderMembers, quote, List.length_cons,
    List.length_append, List.length_nil, flatMap_escapeChar (isPlain_of_isKeyId hkey),
    flatMap_escapeChar (isPlain_fingerprint key),
    flatMap_escapeChar (isPlain_base64url artifactNonce.1)]
  have hconstants : ("version".toList.flatMap escapeChar).length = 7
      ∧ ("algorithm".toList.flatMap escapeChar).length = 9
      ∧ ("aes-256-gcm-chunked".toList.flatMap escapeChar).length = 19
      ∧ ("keySource".toList.flatMap escapeChar).length = 9
      ∧ ("keyring".toList.flatMap escapeChar).length = 7
      ∧ ("keyId".toList.flatMap escapeChar).length = 5
      ∧ ("keyFingerprint".toList.flatMap escapeChar).length = 14
      ∧ ("chunkSize".toList.flatMap escapeChar).length = 9
      ∧ ("artifactNonce".toList.flatMap escapeChar).length = 13
      ∧ "3".toList.length = 1 ∧ "65536".toList.length = 5 := by decide
  omega

/-- A header on the wire: `MAGIC`, the length of its JSON text and the text. -/
def wireHeader (json : List UInt8) : List UInt8 := MAGIC ++ uint32BE json.length ++ json

theorem length_wireHeader (json : List UInt8) :
    (wireHeader json).length = MAGIC.length + 4 + json.length := by
  rw [wireHeader, List.length_append, List.length_append, length_uint32BE]

/-- The decrypting transform takes a header that parses off the front of a stream. -/
theorem headerStep_wireHeader {keyring : BackupEncryptionKeyring crypto} {json : List UInt8}
    {header : ParsedHeader} (hjson : json.length ≤ MAX_FRAME_SIZE)
    (hparse : parseHeader json keyring = .ok header) (s : DecryptState) (rest : List UInt8) :
    BackupDecryptTransform.headerStep keyring s (wireHeader json ++ rest)
      = .emit ⟨some (header, wireHeader json), s.expectedFrameIndex, s.finalFrameSeen⟩ [] rest := by
  have hmagic : MAGIC.length = 8 := by decide
  have hmax : MAX_FRAME_SIZE = 16777216 := by decide
  have hlength := length_wireHeader json
  -- the fields of the header, one after the other
  have hbuffer : wireHeader json ++ rest = MAGIC ++ (uint32BE json.length ++ (json ++ rest)) := by
    rw [wireHeader, List.append_assoc, List.append_assoc]
  have htake : (wireHeader json ++ rest).take MAGIC.length = MAGIC := by
    rw [hbuffer, List.take_left]
  have hread : readUInt32BE ((wireHeader json ++ rest).drop MAGIC.length) = json.length := by
    rw [hbuffer, List.drop_left, readUInt32BE_uint32BE (by omega)]
  have hraw : (wireHeader json ++ rest).take (MAGIC.length + 4 + json.length)
      = wireHeader json := by
    rw [← hlength, List.take_left]
  have hbody : (wireHeader json).drop (MAGIC.length + 4) = json := by
    rw [wireHeader, List.drop_left' (by rw [List.length_append, length_uint32BE])]
  have hrest : (wireHeader json ++ rest).drop (MAGIC.length + 4 + json.length) = rest := by
    rw [← hlength, List.drop_left]
  unfold BackupDecryptTransform.headerStep
  rw [if_neg (by rw [List.length_append, hlength]; omega), if_neg (fun h => h htake)]
  dsimp only
  rw [hread, if_neg (by omega), if_neg (by rw [List.length_append, hlength]; omega), hraw, hbody,
    hparse, hrest]

/-- The decrypting transform takes the header off the front of a stream. -/
theorem headerStep_headerBytes {keyring : BackupEncryptionKeyring crypto}
    {key : BackupEncryptionKey} (artifactNonce : RandomBytes ARTIFACT_NONCE_BYTES)
    (hkey : keyring.keysById key.id = some key) (s : DecryptState) (rest : List UInt8) :
    BackupDecryptTransform.headerStep keyring s (headerBytes crypto key artifactNonce.1 ++ rest)
      = .emit ⟨some (⟨key, some artifactNonce.1⟩, headerBytes crypto key artifactNonce.1),
          s.expectedFrameIndex, s.finalFrameSeen⟩ [] rest := by
  have hid : isKeyId key.id = true :=
    keyring.isKeyId_of_mem key (List.mem_of_find?_eq_some hkey)
  have hjson : (headerJson crypto key artifactNonce.1).length ≤ 400 :=
    length_headerJson_le key artifactNonce hid
  have hmax : MAX_FRAME_SIZE = 16777216 := by decide
  exact headerStep_wireHeader (by omega) (parseHeader_headerJson artifactNonce hkey) s rest

end

end ComposeBastion
