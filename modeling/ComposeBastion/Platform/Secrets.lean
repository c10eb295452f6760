import ComposeBastion.Backup.Encryption

namespace ComposeBastion.Secrets

open Js

/-!
# Encrypted secrets

`encryptSecret` and `decryptSecret` of `services/crypto.ts`: a value sealed with AES-256-GCM
under the application's key, as four fields with `:` between them.

* `decryptSecret_encryptSecret_iff` — a value reads back exactly when it is not empty: the
  ciphertext of the empty value is an empty field, which the format test refuses;
* `sealed_of_decryptSecret` — what is read was given to `encryptSecret`, however the text around
  the three encoded fields was put together.
-/

section

variable (crypto : NodeCrypto)

/-- `VERSION`. -/
def secretVersion : List Char := "v1".toList

/-- A call of `encryptSecret`: the application's key, the vector it draws and the value. -/
structure SecretCall where
  appSecretKey : List UInt8
  iv : RandomBytes 12
  value : List Char

/-- The ciphertext and the tag of a call. -/
def SecretCall.sealed (call : SecretCall) : List UInt8 × List UInt8 :=
  crypto.gcmEncrypt call.appSecretKey call.iv.1 [] (utf8Encode call.value)

/-- `encryptSecret`. -/
def encryptSecret (call : SecretCall) : List Char :=
  [':'].intercalate [secretVersion, base64urlEncode call.iv.1,
    base64urlEncode (call.sealed crypto).2, base64urlEncode (call.sealed crypto).1]

/-- `decryptSecret`.  Fields behind the fourth are not looked at. -/
def decryptSecret (appSecretKey : List UInt8) (value : List Char) : Except String (List Char) :=
  match value.splitOn ':' with
  | version :: ivEncoded :: tagEncoded :: ciphertextEncoded :: _ =>
    if version ≠ secretVersion ∨ ivEncoded = [] ∨ tagEncoded = [] ∨ ciphertextEncoded = [] then
      .error "Unsupported encrypted secret format"
    else
      match crypto.gcmDecrypt appSecretKey (base64urlDecode ivEncoded) []
          (base64urlDecode ciphertextEncoded) (base64urlDecode tagEncoded) with
      | some plaintext => .ok (utf8Decode plaintext)
      | none => .error "Unsupported state or unable to authenticate data"
  | _ => .error "Unsupported encrypted secret format"

/-! ### The cipher -/

/-- Decryption inverts the encryptions of these calls. -/
def InvertsOn (calls : Set SecretCall) : Prop :=
  ∀ call ∈ calls, crypto.gcmDecrypt call.appSecretKey call.iv.1 [] (call.sealed crypto).1
    (call.sealed crypto).2 = some (utf8Encode call.value)

/-- Decryption accepts nothing but the vector, ciphertext and tag of one of these calls. -/
def AcceptsOnly (calls : Set SecretCall) : Prop :=
  ∀ key iv ciphertext tag plaintext, crypto.gcmDecrypt key iv [] ciphertext tag = some plaintext →
    ∃ call ∈ calls, call.appSecretKey = key ∧ call.iv.1 = iv
      ∧ call.sealed crypto = (ciphertext, tag)

/-! ### The fields -/

variable {crypto}

theorem colon_not_mem_base64url (bytes : List UInt8) : ':' ∉ base64urlEncode bytes := by
  have hchars : ∀ v < 64, base64urlChar v ≠ ':' := by decide +kernel
  intro hmem
  obtain ⟨v, hv, hcolon⟩ := List.mem_map.mp hmem
  exact hchars v (sextets_lt bytes v hv) hcolon

theorem base64urlEncode_eq_nil {bytes : List UInt8} : base64urlEncode bytes = [] ↔ bytes = [] := by
  constructor
  · intro h
    rw [← base64urlDecode_encode bytes, h]
    rfl
  · rintro rfl
    rfl

/-- The fields of an encrypted value. -/
theorem splitOn_encryptSecret (call : SecretCall) :
    (encryptSecret crypto call).splitOn ':' = [secretVersion, base64urlEncode call.iv.1,
      base64urlEncode (call.sealed crypto).2, base64urlEncode (call.sealed crypto).1] := by
  apply List.splitOn_intercalate
  · intro field hfield
    simp only [List.mem_cons, List.not_mem_nil, or_false] at hfield
    rcases hfield with rfl | rfl | rfl | rfl
    · decide
    · exact colon_not_mem_base64url _
    · exact colon_not_mem_base64url _
    · exact colon_not_mem_base64url _
  · exact List.cons_ne_nil _ _

theorem utf8Encode_eq_nil {text : List Char} : utf8Encode text = [] ↔ text = [] := by
  constructor
  · intro h
    rw [← utf8Decode_utf8Encode text, h]
    rfl
  · rintro rfl
    rfl

/-- The ciphertext field is empty exactly for the empty value. -/
theorem sealed_eq_nil_iff (call : SecretCall) :
    base64urlEncode (call.sealed crypto).1 = [] ↔ call.value = [] := by
  rw [base64urlEncode_eq_nil, ← List.length_eq_zero_iff, SecretCall.sealed,
    crypto.length_ciphertext, List.length_eq_zero_iff, utf8Encode_eq_nil]

theorem decryptSecret_encryptSecret_iff {calls : Set SecretCall} (hinverts : InvertsOn crypto calls)
    {call : SecretCall} (hcall : call ∈ calls) :
    decryptSecret crypto call.appSecretKey (encryptSecret crypto call) = .ok call.value
      ↔ call.value ≠ [] := by
  have hiv : base64urlEncode call.iv.1 ≠ [] := by
    rw [Ne, base64urlEncode_eq_nil, ← List.length_eq_zero_iff, call.iv.2]
    decide
  have htag : base64urlEncode (call.sealed crypto).2 ≠ [] := by
    rw [Ne, base64urlEncode_eq_nil, ← List.length_eq_zero_iff, SecretCall.sealed,
      crypto.length_tag]
    decide
  rw [decryptSecret, splitOn_encryptSecret]
  dsimp only
  by_cases hempty : call.value = []
  · rw [if_pos (Or.inr (Or.inr (Or.inr ((sealed_eq_nil_iff call).mpr hempty))))]
    exact ⟨fun h => (by cases h), fun h => absurd hempty h⟩
  · have hciphertext : base64urlEncode (call.sealed crypto).1 ≠ [] := fun h =>
      hempty ((sealed_eq_nil_iff call).mp h)
    rw [if_neg (by simp [hiv, htag, hciphertext]), base64urlDecode_encode,
      base64urlDecode_encode, base64urlDecode_encode, hinverts call hcall]
    dsimp only
    rw [utf8Decode_utf8Encode]
    exact ⟨fun _ => hempty, fun _ => rfl⟩

/-- A value that is read was sealed by one of the calls. -/
theorem sealed_of_decryptSecret {calls : Set SecretCall} (hinverts : InvertsOn crypto calls)
    (hideal : AcceptsOnly crypto calls) {key : List UInt8} {text value : List Char}
    (h : decryptSecret crypto key text = .ok value) :
    ∃ call ∈ calls, call.appSecretKey = key ∧ call.value = value := by
  unfold decryptSecret at h
  split at h
  · split at h
    · cases h
    · split at h
      · rename_i plaintext hplaintext
        obtain ⟨call, hcall, rfl, hiv, hsealed⟩ := hideal _ _ _ _ _ hplaintext
        have hopened := hinverts call hcall
        rw [hsealed, hiv, hplaintext] at hopened
        refine ⟨call, hcall, rfl, ?_⟩
        rw [← Except.ok.inj h, Option.some.inj hopened, utf8Decode_utf8Encode]
      · cases h
  · cases h

end

/-- **Secret codec.**  Of the values `encryptSecret` was given, those that are not empty read
    back and the empty one does not; and nothing else is ever read. -/
theorem secret_codec (crypto : NodeCrypto) (calls : Set SecretCall)
    (hinverts : InvertsOn crypto calls) :
    (∀ call ∈ calls,
      decryptSecret crypto call.appSecretKey (encryptSecret crypto call) = .ok call.value
        ↔ call.value ≠ [])
    ∧ (AcceptsOnly crypto calls → ∀ key text value, decryptSecret crypto key text = .ok value →
      ∃ call ∈ calls, call.appSecretKey = key ∧ call.value = value) :=
  ⟨fun _ hcall => decryptSecret_encryptSecret_iff hinverts hcall,
    fun hideal _ _ _ h => sealed_of_decryptSecret hinverts hideal h⟩

/-! ### A cipher that has sealed two values -/

/-- The empty value under the zero key and the zero vector. -/
def emptySecret : SecretCall := ⟨List.replicate 32 0, ⟨List.replicate 12 0, by decide⟩, []⟩

/-- The value `a` under the zero key and the zero vector. -/
def letterSecret : SecretCall := { emptySecret with value := ['a'] }

/-- AES-256-GCM under the zero key and the zero vector on these two values, with the tags it
    gives them; it opens nothing else. -/
def twoSecretsCrypto : NodeCrypto where
  sha256 _ := []
  gcmEncrypt _ _ _ plaintext :=
    if plaintext = [0x61] then
      ([0xaf], [0x52, 0xec, 0x6f, 0x61, 0xd5, 0xf1, 0x34, 0xc6, 0x1c, 0x06, 0x49, 0x06, 0x85, 0xe4,
        0x58, 0x4b])
    else (plaintext, [0x53, 0x0f, 0x8a, 0xfb, 0xc7, 0x45, 0x36, 0xb9, 0xa9, 0x63, 0xb4, 0xf1, 0xc4,
      0xcb, 0x73, 0x8b])
  gcmDecrypt key iv aad ciphertext tag :=
    if key = List.replicate 32 0 ∧ iv = List.replicate 12 0 ∧ aad = [] then
      if ciphertext = [0xaf] ∧ tag = [0x52, 0xec, 0x6f, 0x61, 0xd5, 0xf1, 0x34, 0xc6, 0x1c, 0x06,
          0x49, 0x06, 0x85, 0xe4, 0x58, 0x4b] then some [0x61]
      else if ciphertext = [] ∧ tag = [0x53, 0x0f, 0x8a, 0xfb, 0xc7, 0x45, 0x36, 0xb9, 0xa9, 0x63,
          0xb4, 0xf1, 0xc4, 0xcb, 0x73, 0x8b] then some []
      else none
    else none
  length_ciphertext _ _ _ plaintext := by
    split
    · rename_i h
      rw [h]
      rfl
    · rfl
  length_tag _ _ _ plaintext := by
    split <;> rfl

/-- The empty value does not read back. -/
theorem empty_secret_not_read :
    decryptSecret twoSecretsCrypto emptySecret.appSecretKey
      (encryptSecret twoSecretsCrypto emptySecret) ≠ .ok emptySecret.value := by
  decide +kernel

theorem two_secrets_codec :
    InvertsOn twoSecretsCrypto {emptySecret, letterSecret}
      ∧ AcceptsOnly twoSecretsCrypto {emptySecret, letterSecret}
      ∧ decryptSecret twoSecretsCrypto letterSecret.appSecretKey
        (encryptSecret twoSecretsCrypto letterSecret) = .ok ['a']
      ∧ ∀ key text value, decryptSecret twoSecretsCrypto key text = .ok value →
        value = [] ∨ value = ['a'] := by
  have hinverts : InvertsOn twoSecretsCrypto {emptySecret, letterSecret} := by
    rintro call (rfl | rfl)
    · decide +kernel
    · decide +kernel
  have hideal : AcceptsOnly twoSecretsCrypto {emptySecret, letterSecret} := by
    intro key iv ciphertext tag plaintext h
    simp only [twoSecretsCrypto] at h
    split at h
    · rename_i hcall
      obtain ⟨rfl, rfl, -⟩ := hcall
      split at h
      · rename_i hletter
        refine ⟨letterSecret, Or.inr rfl, rfl, rfl, ?_⟩
        rw [hletter.1, hletter.2]
        decide +kernel
      · split at h
        · rename_i hempty
          refine ⟨emptySecret, Or.inl rfl, rfl, rfl, ?_⟩
          rw [hempty.1, hempty.2]
          decide +kernel
        · cases h
    · cases h
  obtain ⟨hround, hread⟩ := secret_codec twoSecretsCrypto {emptySecret, letterSecret} hinverts
  refine ⟨hinverts, hideal, (hround letterSecret (Or.inr rfl)).mpr (by decide), ?_⟩
  intro key text value h
  obtain ⟨call, rfl | rfl, -, rfl⟩ := hread hideal key text value h
  · exact Or.inl rfl
  · exact Or.inr rfl

end ComposeBastion.Secrets
