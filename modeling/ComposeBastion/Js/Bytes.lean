import ComposeBastion.Js.Text
import Mathlib

namespace ComposeBastion.Js

/-!
# Buffers

The operations of Node's `Buffer` that the services use, on lists of bytes.

* `uint32BE`, `readUInt32BE` — four bytes, most significant first;
* `utf8Decode` — `toString("utf8")`, which replaces what is not UTF-8 by U+FFFD;
* `base64urlEncode`, `base64urlDecode` — the alphabet of RFC 4648 §5 without padding; decoding
  looks at the low byte of each code unit, ends at `=` and skips what is in neither alphabet;
* `hex` — lower-case hexadecimal digits.
-/

/-! ### Big-endian integers -/

/-- The four bytes of `n < 2 ^ 32`. -/
def uint32BE (n : ℕ) : List UInt8 :=
  [UInt8.ofNat (n / 2 ^ 24), UInt8.ofNat (n / 2 ^ 16), UInt8.ofNat (n / 2 ^ 8), UInt8.ofNat n]

/-- `writeUInt32BE`, which throws on a value out of range. -/
def writeUInt32BE (n : ℕ) : Except String (List UInt8) :=
  if n < 2 ^ 32 then .ok (uint32BE n)
  else .error "The value of \"value\" is out of range."

/-- `readUInt32BE(0)` of a buffer with at least four bytes. -/
def readUInt32BE : List UInt8 → ℕ
  | a :: b :: c :: d :: _ =>
      a.toNat * 2 ^ 24 + b.toNat * 2 ^ 16 + c.toNat * 2 ^ 8 + d.toNat
  | _ => 0

@[simp] theorem length_uint32BE (n : ℕ) : (uint32BE n).length = 4 := rfl

theorem readUInt32BE_uint32BE {n : ℕ} (h : n < 2 ^ 32) (rest : List UInt8) :
    readUInt32BE (uint32BE n ++ rest) = n := by
  simp only [uint32BE, List.cons_append, List.nil_append, readUInt32BE, UInt8.toNat_ofNat']
  omega

theorem uint32BE_readUInt32BE {a b c d : UInt8} (rest : List UInt8) :
    uint32BE (readUInt32BE (a :: b :: c :: d :: rest)) = [a, b, c, d] := by
  have ha := a.toNat_lt
  have hb := b.toNat_lt
  have hc := c.toNat_lt
  have hd := d.toNat_lt
  simp only [uint32BE, readUInt32BE, List.cons.injEq, ← UInt8.toNat_inj, UInt8.toNat_ofNat',
    and_true]
  omega

theorem readUInt32BE_lt (bytes : List UInt8) : readUInt32BE bytes < 2 ^ 32 := by
  unfold readUInt32BE
  split
  · rename_i a b c d rest
    have ha := a.toNat_lt
    have hb := b.toNat_lt
    have hc := c.toNat_lt
    have hd := d.toNat_lt
    omega
  · omega

/-- Reading looks at the first four bytes only. -/
theorem readUInt32BE_append {bytes : List UInt8} (h : 4 ≤ bytes.length) (rest : List UInt8) :
    readUInt32BE (bytes ++ rest) = readUInt32BE bytes := by
  match bytes, h with
  | a :: b :: c :: d :: tail, _ => rfl

/-- Four bytes are the bytes of the integer they spell. -/
theorem take_four {bytes : List UInt8} (h : 4 ≤ bytes.length) :
    bytes.take 4 = uint32BE (readUInt32BE bytes) := by
  match bytes, h with
  | a :: b :: c :: d :: tail, _ => rw [uint32BE_readUInt32BE]; rfl

theorem uint32BE_inj {m n : ℕ} (hm : m < 2 ^ 32) (hn : n < 2 ^ 32)
    (h : uint32BE m = uint32BE n) : m = n := by
  rw [← readUInt32BE_uint32BE hm [], ← readUInt32BE_uint32BE hn [], h]

/-! ### UTF-8 -/

/-- `Buffer.from(text, "utf8")`. -/
def utf8Encode (text : List Char) : List UInt8 := text.flatMap String.utf8EncodeChar

/-- A continuation byte. -/
def isContinuation (b : UInt8) : Bool := 0x80 ≤ b && b ≤ 0xBF

/-- The range of the second byte after the leading byte `lead`. -/
def isSecond (lead b : UInt8) : Bool :=
  isContinuation b && (lead != 0xE0 || 0xA0 ≤ b) && (lead != 0xED || b ≤ 0x9F)
    && (lead != 0xF0 || 0x90 ≤ b) && (lead != 0xF4 || b ≤ 0x8F)

/-- The six bits of a continuation byte below `high`. -/
def continued (high : ℕ) (b : UInt8) : ℕ := high * 64 + b.toNat % 64

/-- `toString("utf8")`: a sequence that breaks off counts as one U+FFFD. -/
def utf8Decode : List UInt8 → List Char
  | [] => []
  | a :: rest =>
    if a < 0x80 then Char.ofNat a.toNat :: utf8Decode rest
    else if 0xC2 ≤ a && a ≤ 0xDF then
      match rest with
      | b :: rest' =>
        if isContinuation b then Char.ofNat (continued (a.toNat % 32) b) :: utf8Decode rest'
        else '\uFFFD' :: utf8Decode (b :: rest')
      | [] => ['\uFFFD']
    else if 0xE0 ≤ a && a ≤ 0xEF then
      match rest with
      | b :: c :: rest' =>
        if isSecond a b then
          if isContinuation c then
            Char.ofNat (continued (continued (a.toNat % 16) b) c) :: utf8Decode rest'
          else '\uFFFD' :: utf8Decode (c :: rest')
        else '\uFFFD' :: utf8Decode (b :: c :: rest')
      | [b] => if isSecond a b then ['\uFFFD'] else '\uFFFD' :: utf8Decode [b]
      | [] => ['\uFFFD']
    else if 0xF0 ≤ a && a ≤ 0xF4 then
      match rest with
      | b :: c :: d :: rest' =>
        if isSecond a b then
          if isContinuation c then
            if isContinuation d then
              Char.ofNat (continued (continued (continued (a.toNat % 8) b) c) d)
                :: utf8Decode rest'
            else '\uFFFD' :: utf8Decode (d :: rest')
          else '\uFFFD' :: utf8Decode (c :: d :: rest')
        else '\uFFFD' :: utf8Decode (b :: c :: d :: rest')
      | [b, c] =>
        if isSecond a b then
          if isContinuation c then ['\uFFFD'] else '\uFFFD' :: utf8Decode [c]
        else '\uFFFD' :: utf8Decode [b, c]
      | [b] => if isSecond a b then ['\uFFFD'] else '\uFFFD' :: utf8Decode [b]
      | [] => ['\uFFFD']
    else '\uFFFD' :: utf8Decode rest

/-- An ASCII character is one byte. -/
theorem utf8EncodeChar_of_ascii {c : Char} (h : c.toNat < 0x80) :
    String.utf8EncodeChar c = [UInt8.ofNat c.toNat] := by
  have hsmall : ¬ 0x7f < c.toNat := by omega
  simp [String.utf8EncodeChar, hsmall]

theorem toNat_byte {n : ℕ} (h : n < 256) : (UInt8.ofNat n).toNat = n := by
  rw [UInt8.toNat_ofNat']
  exact Nat.mod_eq_of_lt h

/-- A sequence of one byte. -/
theorem utf8Decode_one {v : ℕ} (h : v < 0x80) (rest : List UInt8) :
    utf8Decode (UInt8.ofNat v :: rest) = Char.ofNat v :: utf8Decode rest := by
  have hbyte : UInt8.ofNat v < 0x80 := by
    rw [UInt8.lt_iff_toNat_lt, toNat_byte (by omega)]
    exact h
  rw [utf8Decode.eq_def]
  dsimp only
  rw [if_pos hbyte, toNat_byte (by omega)]

/-- A sequence of two bytes. -/
theorem utf8Decode_two {v : ℕ} (h : 0x80 ≤ v) (h' : v ≤ 0x7ff) (rest : List UInt8) :
    utf8Decode (UInt8.ofNat (v / 64 % 32 + 192) :: UInt8.ofNat (v % 64 + 128) :: rest)
      = Char.ofNat v :: utf8Decode rest := by
  have hsum : (v / 64 % 32 + 192) % 32 * 64 + (v % 64 + 128) % 64 = v := by omega
  rw [utf8Decode.eq_def]
  simp only [isContinuation, continued, UInt8.lt_iff_toNat_lt, UInt8.le_iff_toNat_le,
    toNat_byte (show v / 64 % 32 + 192 < 256 by omega),
    toNat_byte (show v % 64 + 128 < 256 by omega), UInt8.reduceToNat, Bool.and_eq_true,
    decide_eq_true_eq]
  rw [if_neg (by omega), if_pos (by omega), if_pos (by omega), hsum]

/-- A sequence of three bytes; the second byte shows that it is no surrogate. -/
theorem utf8Decode_three {v : ℕ} (h : 0x800 ≤ v) (h' : v ≤ 0xffff)
    (hscalar : v < 0xD800 ∨ 0xDFFF < v) (rest : List UInt8) :
    utf8Decode (UInt8.ofNat (v / 4096 % 16 + 224) :: UInt8.ofNat (v / 64 % 64 + 128)
        :: UInt8.ofNat (v % 64 + 128) :: rest)
      = Char.ofNat v :: utf8Decode rest := by
  have hsum : ((v / 4096 % 16 + 224) % 16 * 64 + (v / 64 % 64 + 128) % 64) * 64
      + (v % 64 + 128) % 64 = v := by omega
  rw [utf8Decode.eq_def]
  simp only [isSecond, isContinuation, continued, UInt8.lt_iff_toNat_lt, UInt8.le_iff_toNat_le,
    toNat_byte (show v / 4096 % 16 + 224 < 256 by omega),
    toNat_byte (show v / 64 % 64 + 128 < 256 by omega),
    toNat_byte (show v % 64 + 128 < 256 by omega), UInt8.reduceToNat, Bool.and_eq_true,
    Bool.or_eq_true, bne_iff_ne, ne_eq, ← UInt8.toNat_inj, decide_eq_true_eq]
  rw [if_neg (by omega), if_neg (by omega), if_pos (by omega), if_pos (by omega),
    if_pos (by omega), hsum]

/-- A sequence of four bytes. -/
theorem utf8Decode_four {v : ℕ} (h : 0x10000 ≤ v) (h' : v < 0x110000) (rest : List UInt8) :
    utf8Decode (UInt8.ofNat (v / 262144 % 8 + 240) :: UInt8.ofNat (v / 4096 % 64 + 128)
        :: UInt8.ofNat (v / 64 % 64 + 128) :: UInt8.ofNat (v % 64 + 128) :: rest)
      = Char.ofNat v :: utf8Decode rest := by
  have hsum : (((v / 262144 % 8 + 240) % 8 * 64 + (v / 4096 % 64 + 128) % 64) * 64
      + (v / 64 % 64 + 128) % 64) * 64 + (v % 64 + 128) % 64 = v := by omega
  rw [utf8Decode.eq_def]
  simp only [isSecond, isContinuation, continued, UInt8.lt_iff_toNat_lt, UInt8.le_iff_toNat_le,
    toNat_byte (show v / 262144 % 8 + 240 < 256 by omega),
    toNat_byte (show v / 4096 % 64 + 128 < 256 by omega),
    toNat_byte (show v / 64 % 64 + 128 < 256 by omega),
    toNat_byte (show v % 64 + 128 < 256 by omega), UInt8.reduceToNat, Bool.and_eq_true,
    Bool.or_eq_true, bne_iff_ne, ne_eq, ← UInt8.toNat_inj, decide_eq_true_eq]
  rw [if_neg (by omega), if_neg (by omega), if_neg (by omega), if_pos (by omega),
    if_pos (by omega), if_pos (by omega), if_pos (by omega), hsum]

/-- A character is a scalar value: no surrogate, and below U+110000. -/
theorem scalar_range (c : Char) :
    c.toNat < 0xD800 ∨ (0xDFFF < c.toNat ∧ c.toNat < 0x110000) := by
  have h := c.valid
  simpa [UInt32.isValidChar, Nat.isValidChar] using h

theorem utf8Decode_utf8EncodeChar (c : Char) (rest : List UInt8) :
    utf8Decode (String.utf8EncodeChar c ++ rest) = c :: utf8Decode rest := by
  have hscalar := scalar_range c
  have hval : c.val.toNat = c.toNat := rfl
  have hback : Char.ofNat c.toNat = c := Char.ofNat_toNat c
  by_cases h1 : c.toNat ≤ 0x7f
  · rw [utf8EncodeChar_of_ascii (by omega), List.singleton_append,
      utf8Decode_one (by omega), hback]
  by_cases h2 : c.toNat ≤ 0x7ff
  · simp only [String.utf8EncodeChar, hval, h1, h2, if_false, if_true, List.cons_append,
      List.nil_append]
    rw [utf8Decode_two (by omega) h2, hback]
  by_cases h3 : c.toNat ≤ 0xffff
  · simp only [String.utf8EncodeChar, hval, h1, h2, h3, if_false, if_true, List.cons_append,
      List.nil_append]
    rw [utf8Decode_three (by omega) h3 (by omega), hback]
  · simp only [String.utf8EncodeChar, hval, h1, h2, h3, if_false, List.cons_append,
      List.nil_append]
    rw [utf8Decode_four (by omega) (by omega), hback]

/-- Text is read back as it was written. -/
theorem utf8Decode_utf8Encode (text : List Char) : utf8Decode (utf8Encode text) = text := by
  induction text with
  | nil => rfl
  | cons c text ih =>
    show utf8Decode (String.utf8EncodeChar c ++ utf8Encode text) = c :: text
    rw [utf8Decode_utf8EncodeChar, ih]

theorem length_utf8Encode {text : List Char} (h : ∀ c ∈ text, c.toNat < 0x80) :
    (utf8Encode text).length = text.length := by
  induction text with
  | nil => rfl
  | cons c text ih =>
    show (String.utf8EncodeChar c ++ utf8Encode text).length = _
    rw [utf8EncodeChar_of_ascii (h c List.mem_cons_self), List.singleton_append, List.length_cons,
      ih fun d hd => h d (List.mem_cons_of_mem c hd), List.length_cons]

/-! ### Base64url -/

/-- The alphabet of RFC 4648 §5. -/
def base64urlAlphabet : List Char :=
  "ABCDEFGHIJKLMNOPQRSTUVWXYZabcdefghijklmnopqrstuvwxyz0123456789-_".toList

/-- The character of a sextet. -/
def base64urlChar (v : ℕ) : Char := base64urlAlphabet.getD v 'A'

/-- The sextet of a character; `+` and `/` of the standard alphabet are read as well. -/
def base64Value (c : Char) : Option ℕ :=
  if c = '+' then some 62 else if c = '/' then some 63 else base64urlAlphabet.idxOf? c

/-- The sextets of a byte sequence. -/
def sextets : List UInt8 → List ℕ
  | a :: b :: c :: rest =>
      a.toNat / 4 :: (a.toNat % 4 * 16 + b.toNat / 16) :: (b.toNat % 16 * 4 + c.toNat / 64)
        :: c.toNat % 64 :: sextets rest
  | [a, b] => [a.toNat / 4, a.toNat % 4 * 16 + b.toNat / 16, b.toNat % 16 * 4]
  | [a] => [a.toNat / 4, a.toNat % 4 * 16]
  | [] => []

/-- The bytes of a sequence of sextets; bits that do not fill a byte are dropped. -/
def bytesOfSextets : List ℕ → List UInt8
  | u :: v :: w :: x :: rest =>
      UInt8.ofNat (u * 4 + v / 16) :: UInt8.ofNat (v % 16 * 16 + w / 4)
        :: UInt8.ofNat (w % 4 * 64 + x) :: bytesOfSextets rest
  | [u, v, w] => [UInt8.ofNat (u * 4 + v / 16), UInt8.ofNat (v % 16 * 16 + w / 4)]
  | [u, v] => [UInt8.ofNat (u * 4 + v / 16)]
  | _ => []

/-- `toString("base64url")`. -/
def base64urlEncode (bytes : List UInt8) : List Char := (sextets bytes).map base64urlChar

/-- The low byte of each UTF-16 code unit of a character. -/
def lowBytes (c : Char) : List Char :=
  let units := if c.toNat < 0x10000 then [c.toNat]
    else [0xD800 + (c.toNat - 0x10000) / 0x400, 0xDC00 + (c.toNat - 0x10000) % 0x400]
  units.map fun u => Char.ofNat (u % 256)

/-- `Buffer.from(text, "base64url")`.  The decoder reads the text byte by byte, whatever the code
    units above 255 stand for. -/
def base64urlDecode (text : List Char) : List UInt8 :=
  bytesOfSextets (((text.flatMap lowBytes).takeWhile (· ≠ '=')).filterMap base64Value)

theorem sextets_lt (bytes : List UInt8) : ∀ v ∈ sextets bytes, v < 64 := by
  fun_induction sextets bytes with
  | case1 a b c rest ih =>
    have ha := a.toNat_lt
    have hb := b.toNat_lt
    have hc := c.toNat_lt
    intro v hv
    simp only [List.mem_cons] at hv
    rcases hv with rfl | rfl | rfl | rfl | hv
    · omega
    · omega
    · omega
    · omega
    · exact ih v hv
  | case2 a b =>
    have ha := a.toNat_lt
    have hb := b.toNat_lt
    intro v hv
    simp only [List.mem_cons, List.not_mem_nil, or_false] at hv
    omega
  | case3 a =>
    have ha := a.toNat_lt
    intro v hv
    simp only [List.mem_cons, List.not_mem_nil, or_false] at hv
    omega
  | case4 => intro v hv; cases hv

theorem length_sextets_le (bytes : List UInt8) : (sextets bytes).length ≤ 2 * bytes.length := by
  fun_induction sextets bytes with
  | case1 a b c rest ih => simp only [List.length_cons]; omega
  | case2 a b => simp
  | case3 a => simp
  | case4 => simp

theorem bytesOfSextets_sextets (bytes : List UInt8) : bytesOfSextets (sextets bytes) = bytes := by
  fun_induction sextets bytes with
  | case1 a b c rest ih =>
    have ha := a.toNat_lt
    have hb := b.toNat_lt
    have hc := c.toNat_lt
    simp only [bytesOfSextets, ih, List.cons.injEq, ← UInt8.toNat_inj, UInt8.toNat_ofNat',
      and_true]
    omega
  | case2 a b =>
    have ha := a.toNat_lt
    have hb := b.toNat_lt
    simp only [bytesOfSextets, List.cons.injEq, ← UInt8.toNat_inj, UInt8.toNat_ofNat', and_true]
    omega
  | case3 a =>
    have ha := a.toNat_lt
    simp only [bytesOfSextets, List.cons.injEq, ← UInt8.toNat_inj, UInt8.toNat_ofNat', and_true]
    omega
  | case4 => rfl

/-- Every character of the alphabet stands for its sextet. -/
theorem base64Value_char : ∀ v < 64, base64Value (base64urlChar v) = some v := by
  decide +kernel

/-- A character of the alphabet is one byte, and no padding. -/
theorem lowBytes_char : ∀ v < 64,
    lowBytes (base64urlChar v) = [base64urlChar v] ∧ base64urlChar v ≠ '=' := by
  decide +kernel

theorem base64urlDecode_encode (bytes : List UInt8) :
    base64urlDecode (base64urlEncode bytes) = bytes := by
  have hchars : ∀ c ∈ base64urlEncode bytes, lowBytes c = [c] ∧ c ≠ '=' := by
    intro c hc
    obtain ⟨v, hv, rfl⟩ := List.mem_map.mp hc
    exact lowBytes_char v (sextets_lt bytes v hv)
  have hread : (base64urlEncode bytes).flatMap lowBytes = base64urlEncode bytes := by
    rw [List.flatMap_congr fun c hc => (hchars c hc).1, List.flatMap_singleton']
  have hwhole : (base64urlEncode bytes).takeWhile (· ≠ '=') = base64urlEncode bytes :=
    List.takeWhile_eq_self_iff.mpr fun c hc => decide_eq_true (hchars c hc).2
  have hvalues : ((sextets bytes).map base64urlChar).filterMap base64Value = sextets bytes := by
    rw [List.filterMap_map]
    have hsome : ∀ v ∈ sextets bytes, (base64Value ∘ base64urlChar) v = some v :=
      fun v hv => base64Value_char v (sextets_lt bytes v hv)
    rw [List.filterMap_congr hsome]
    exact List.filterMap_some
  rw [base64urlDecode, hread, hwhole, base64urlEncode, hvalues, bytesOfSextets_sextets]

/-- Padding ends the text, `+` stands for `-`, and U+0151 is read as `Q`. -/
example : base64urlDecode "QQ==QQ".toList = [0x41]
    ∧ base64urlDecode "+-/_".toList = [0xFB, 0xEF, 0xFF]
    ∧ base64urlDecode "\u0151Q".toList = [0x41] := by
  decide +kernel

/-- What a JSON string holds as it is: printable ASCII other than quote and backslash. -/
def isPlain (c : Char) : Bool :=
  0x20 ≤ c.toNat && c.toNat < 0x7f && c != '"' && c != '\\'

theorem isPlain_base64url (bytes : List UInt8) : ∀ c ∈ base64urlEncode bytes, isPlain c = true := by
  have hplain : ∀ v < 64, isPlain (base64urlChar v) = true := by decide +kernel
  intro c hc
  obtain ⟨v, hv, rfl⟩ := List.mem_map.mp hc
  exact hplain v (sextets_lt bytes v hv)

/-! ### Hexadecimal digits -/

/-- The lower-case digit of a value below 16. -/
def hexDigit (v : ℕ) : Char := "0123456789abcdef".toList.getD v '0'

/-- `digest("hex")`. -/
def hex (bytes : List UInt8) : List Char :=
  bytes.flatMap fun b => [hexDigit (b.toNat / 16), hexDigit (b.toNat % 16)]

theorem isPlain_hex (bytes : List UInt8) : ∀ c ∈ hex bytes, isPlain c = true := by
  have hplain : ∀ v < 16, isPlain (hexDigit v) = true := by decide +kernel
  intro c hc
  obtain ⟨b, _, hb⟩ := List.mem_flatMap.mp hc
  have hlt := b.toNat_lt
  simp only [List.mem_cons, List.not_mem_nil, or_false] at hb
  rcases hb with rfl | rfl
  · exact hplain _ (by omega)
  · exact hplain _ (by omega)

end ComposeBastion.Js
