import ComposeBastion.Js.Json
import ComposeBastion.Js.Text

namespace ComposeBastion.Js

open Json (hexValue)

/-!
# Internet addresses in text

`net.isIP` of Node: four decimal numbers, or up to eight groups of hexadecimal digits with at
most one `::`, of which the last two may be written as four decimal numbers, and a zone.

* `Ipv4`, `readIpv4` — dotted addresses;
* `Ipv6Text` — the parts of an IPv6 address in text, with the words that they stand for;
* `readIpv6`, `isIP` — what `net.isIP` accepts;
* `readIpv6_eq_some` — what is read is the text of the parts;
* `readIpv6_lower` — letter case makes no difference.
-/

/-! ### Dotted addresses -/

/-- The four octets of an IPv4 address. -/
structure Ipv4 where
  a : Fin 256
  b : Fin 256
  c : Fin 256
  d : Fin 256
  deriving DecidableEq

/-- The value of decimal digits. -/
def decimalValue (digits : List Char) : ℕ :=
  digits.foldl (fun n c => n * 10 + (c.toNat - '0'.toNat)) 0

/-- `25[0-5]|2[0-4]\d|1\d\d|[1-9]\d|\d`. -/
def octetOf (text : List Char) : Option (Fin 256) :=
  if text ≠ [] ∧ text.all Char.isDigit ∧ text.length ≤ 3
      ∧ (text.head? = some '0' → text.length = 1) then
    if h : decimalValue text < 256 then some ⟨decimalValue text, h⟩ else none
  else none

def readIpv4 (text : List Char) : Option Ipv4 :=
  match text.splitOn '.' with
  | [a, b, c, d] =>
    match octetOf a, octetOf b, octetOf c, octetOf d with
    | some a, some b, some c, some d => some ⟨a, b, c, d⟩
    | _, _, _, _ => none
  | _ => none

/-! ### Groups and words -/

/-- `[0-9a-fA-F]{1,4}`. -/
def IsGroup (text : List Char) : Prop :=
  text ≠ [] ∧ text.length ≤ 4 ∧ ∀ c ∈ text, (hexValue c).isSome = true

instance (text : List Char) : Decidable (IsGroup text) :=
  decidable_of_iff (text ≠ [] ∧ text.length ≤ 4 ∧ text.all (fun c => (hexValue c).isSome) = true)
    (by rw [IsGroup, List.all_eq_true])

/-- The value of hexadecimal digits. -/
def hexNumber (digits : List Char) : ℕ :=
  digits.foldl (fun n c => n * 16 + (hexValue c).getD 0) 0

/-- The words that a part of an address stands for: two for a dotted address. -/
def partWords (part : List Char) : List ℕ :=
  match readIpv4 part with
  | some ip => [ip.a * 256 + ip.b, ip.c * 256 + ip.d]
  | none => [hexNumber part]

/-- Groups, of which the last may be a dotted address. -/
def TailParts (parts : List (List Char)) : Prop :=
  (∀ part ∈ parts.dropLast, IsGroup part)
    ∧ ∀ part ∈ parts.getLast?, IsGroup part ∨ readIpv4 part ≠ none

instance (parts : List (List Char)) : Decidable (TailParts parts) :=
  inferInstanceAs (Decidable (_ ∧ ∀ _ ∈ _, _))

/-- `[0-9a-zA-Z-.:]`. -/
def isZoneChar (c : Char) : Bool := c.isAlphanum || c = '-' || c = '.' || c = ':'

def IsZone (zone : List Char) : Prop := zone ≠ [] ∧ ∀ c ∈ zone, isZoneChar c = true

instance (zone : List Char) : Decidable (IsZone zone) :=
  decidable_of_iff (zone ≠ [] ∧ zone.all isZoneChar = true) (by rw [IsZone, List.all_eq_true])

/-- An IPv6 address in text: the parts before `::` and those after it, when it is there, and the
    zone. -/
structure Ipv6Text where
  left : List (List Char)
  right : Option (List (List Char))
  zone : Option (List Char)
  deriving DecidableEq

namespace Ipv6Text

def LeftValid (left : List (List Char)) : Prop :=
  TailParts left ∧ (left.flatMap partWords).length = 8

def BothValid (left right : List (List Char)) : Prop :=
  (∀ part ∈ left, IsGroup part) ∧ TailParts right
    ∧ (left.flatMap partWords).length + (right.flatMap partWords).length ≤ 7

instance (left : List (List Char)) : Decidable (LeftValid left) :=
  inferInstanceAs (Decidable (_ ∧ _))

instance (left right : List (List Char)) : Decidable (BothValid left right) :=
  inferInstanceAs (Decidable ((∀ _ ∈ _, _) ∧ _ ∧ _))

/-- Without `::` there are eight words, and with it there is room for one at least. -/
def PartsValid (text : Ipv6Text) : Prop :=
  match text.right with
  | none => LeftValid text.left
  | some right => BothValid text.left right

instance : (text : Ipv6Text) → Decidable text.PartsValid
  | ⟨left, none, _⟩ => inferInstanceAs (Decidable (LeftValid left))
  | ⟨left, some right, _⟩ => inferInstanceAs (Decidable (BothValid left right))

def Valid (text : Ipv6Text) : Prop :=
  text.PartsValid ∧ ∀ zone ∈ text.zone, IsZone zone

instance (text : Ipv6Text) : Decidable text.Valid := inferInstanceAs (Decidable (_ ∧ ∀ _ ∈ _, _))

/-- The words of the address: `::` stands for those that are missing. -/
def words (text : Ipv6Text) : List ℕ :=
  match text.right with
  | none => text.left.flatMap partWords
  | some right =>
    text.left.flatMap partWords
      ++ List.replicate
        (8 - (text.left.flatMap partWords).length - (right.flatMap partWords).length) 0
      ++ right.flatMap partWords

end Ipv6Text

/-! ### Reading -/

/-- `text.split("::")`. -/
def splitDoubleColons : List Char → List (List Char)
  | [] => [[]]
  | [c] => [[c]]
  | c :: d :: rest =>
    if c = ':' ∧ d = ':' then [] :: splitDoubleColons rest
    else (splitDoubleColons (d :: rest)).modifyHead (c :: ·)

/-- `text ? text.split(":") : []`. -/
def colonParts (text : List Char) : List (List Char) :=
  if text = [] then [] else text.splitOn ':'

/-- The text after the first `%`. -/
def zoneOf : List Char → Option (List Char)
  | [] => none
  | c :: rest => if c = '%' then some rest else zoneOf rest

/-- The parts of a text that may be an IPv6 address. -/
def ipv6Parts (text : List Char) : Option Ipv6Text :=
  match splitDoubleColons (text.takeWhile (· ≠ '%')) with
  | [left] => some ⟨colonParts left, none, zoneOf text⟩
  | [left, right] => some ⟨colonParts left, some (colonParts right), zoneOf text⟩
  | _ => none

def readIpv6 (text : List Char) : Option Ipv6Text := (ipv6Parts text).filter (·.Valid)

/-- `net.isIP`. -/
def isIP (text : String) : ℕ :=
  if (readIpv4 text.toList).isSome then 4
  else if (readIpv6 text.toList).isSome then 6 else 0

/-! ### The text of an address -/

/-- Parts with colons between them. -/
abbrev joinParts (parts : List (List Char)) : List Char := [':'].intercalate parts

def rightChars : Option (List (List Char)) → List Char
  | none => []
  | some right => ':' :: ':' :: joinParts right

def zoneChars : Option (List Char) → List Char
  | none => []
  | some zone => '%' :: zone

/-- The text of an IPv6 address. -/
def Ipv6Text.chars (text : Ipv6Text) : List Char :=
  joinParts text.left ++ rightChars text.right ++ zoneChars text.zone

theorem splitDoubleColons_ne_nil (text : List Char) : splitDoubleColons text ≠ [] := by
  induction text using splitDoubleColons.induct with
  | case1 => simp [splitDoubleColons]
  | case2 c => simp [splitDoubleColons]
  | case3 c d rest h ih => simp [splitDoubleColons, h]
  | case4 c d rest h ih =>
    rw [splitDoubleColons, if_neg h]
    intro hnil
    exact ih (List.modifyHead_eq_nil_iff.mp hnil)

theorem intercalate_modifyHead {separator : List Char} (c : Char) {parts : List (List Char)}
    (h : parts ≠ []) :
    separator.intercalate (parts.modifyHead (c :: ·)) = c :: separator.intercalate parts := by
  obtain ⟨first, rest, rfl⟩ := List.exists_cons_of_ne_nil h
  cases rest with
  | nil => rfl
  | cons next rest => rfl

theorem intercalate_splitDoubleColons (text : List Char) :
    [':', ':'].intercalate (splitDoubleColons text) = text := by
  induction text using splitDoubleColons.induct with
  | case1 => rfl
  | case2 c => rfl
  | case3 c d rest h ih =>
    rw [splitDoubleColons, if_pos h, h.1, h.2,
      List.intercalate_cons_of_ne_nil (splitDoubleColons_ne_nil rest), ih]
    rfl
  | case4 c d rest h ih =>
    rw [splitDoubleColons, if_neg h, intercalate_modifyHead c (splitDoubleColons_ne_nil _), ih]

theorem joinParts_colonParts (text : List Char) : joinParts (colonParts text) = text := by
  unfold colonParts
  by_cases hempty : text = []
  · rw [if_pos hempty, hempty]
    rfl
  · rw [if_neg hempty, joinParts, List.intercalate_splitOn]

theorem takeWhile_append_zoneChars (text : List Char) :
    text.takeWhile (· ≠ '%') ++ zoneChars (zoneOf text) = text := by
  induction text with
  | nil => rfl
  | cons c text ih =>
    by_cases hc : c = '%'
    · subst hc
      rfl
    · rw [List.takeWhile_cons_of_pos (by simp [hc]), zoneOf, if_neg hc, List.cons_append, ih]

/-- A text is that of its parts. -/
theorem chars_of_ipv6Parts {text : List Char} {parts : Ipv6Text} (h : ipv6Parts text = some parts) :
    parts.chars = text := by
  have hbody := intercalate_splitDoubleColons (text.takeWhile (· ≠ '%'))
  have hzone := takeWhile_append_zoneChars text
  unfold ipv6Parts at h
  split at h
  · rename_i left heq
    cases h
    rw [heq, List.intercalate_singleton] at hbody
    rw [← hbody] at hzone
    simpa [Ipv6Text.chars, rightChars, joinParts_colonParts] using hzone
  · rename_i left right heq
    cases h
    rw [heq] at hbody
    rw [← hbody] at hzone
    simpa [Ipv6Text.chars, rightChars, joinParts_colonParts] using hzone
  · cases h

/-! ### Characters -/

theorem toLower_eq_of_not_isUpper {c : Char} (h : c.isUpper = false) : c.toLower = c := by
  unfold Char.toLower
  rw [dif_neg]
  intro hc
  have hupper : c.isUpper = true := by
    simp only [Char.isUpper, decide_eq_true_eq]
    exact hc
  rw [hupper] at h
  cases h

/-- The lower-case letter of an upper-case one. -/
theorem toNat_toLower_of_isUpper {c : Char} (h : c.isUpper = true) :
    65 ≤ c.toNat ∧ c.toNat ≤ 90 ∧ c.toLower.toNat = c.toNat + 32 := by
  simp only [Char.isUpper, decide_eq_true_eq] at h
  have hA : 65 ≤ c.val.toNat := UInt32.le_iff_toNat_le.mp h.1
  have hZ : c.val.toNat ≤ 90 := UInt32.le_iff_toNat_le.mp h.2
  refine ⟨hA, hZ, ?_⟩
  unfold Char.toLower
  rw [dif_pos ⟨h.1, h.2⟩]
  have hdiff : ('a'.val - 'A'.val).toNat = 32 := rfl
  show (c.val + ('a'.val - 'A'.val)).toNat = c.val.toNat + 32
  rw [UInt32.toNat_add, hdiff]
  omega

theorem hexValue_toLower (c : Char) : hexValue c.toLower = hexValue c := by
  cases hupper : c.isUpper with
  | false => rw [toLower_eq_of_not_isUpper hupper]
  | true =>
    obtain ⟨hlow, hhigh, hlower⟩ := toNat_toLower_of_isUpper hupper
    simp only [hexValue, Char.le_def, UInt32.le_iff_toNat_le]
    have hval : c.toLower.val.toNat = c.val.toNat + 32 := hlower
    have hlow' : 65 ≤ c.val.toNat := hlow
    have hhigh' : c.val.toNat ≤ 90 := hhigh
    simp only [hval, show ('0' : Char).val.toNat = 48 from rfl,
      show ('9' : Char).val.toNat = 57 from rfl, show ('a' : Char).val.toNat = 97 from rfl,
      show ('f' : Char).val.toNat = 102 from rfl, show ('A' : Char).val.toNat = 65 from rfl,
      show ('F' : Char).val.toNat = 70 from rfl]
    by_cases hf : c.val.toNat ≤ 70
    · rw [if_neg (by omega), if_pos (by omega), if_neg (by omega), if_neg (by omega),
        if_pos (by omega)]
      congr 1
      have hn : c.toLower.toNat = c.toNat + 32 := hlower
      have ha : ('a' : Char).toNat = 97 := rfl
      have hA : ('A' : Char).toNat = 65 := rfl
      omega
    · rw [if_neg (by omega), if_neg (by omega), if_neg (by omega), if_neg (by omega),
        if_neg (by omega), if_neg (by omega)]

theorem isAlphanum_of_isHex {c : Char} (h : (hexValue c).isSome = true) : c.isAlphanum = true := by
  simp only [hexValue, Char.le_def, UInt32.le_iff_toNat_le] at h
  simp only [Char.isAlphanum, Char.isAlpha, Char.isUpper, Char.isLower, Char.isDigit,
    Bool.or_eq_true, Bool.and_eq_true, decide_eq_true_eq, ge_iff_le, UInt32.le_iff_toNat_le]
  split_ifs at h with h1 h2 h3
  · exact .inr h1
  · exact .inl (.inr ⟨h2.1, h2.2.trans (by decide)⟩)
  · exact .inl (.inl ⟨h3.1, h3.2.trans (by decide)⟩)
  · cases h

theorem isLower_toLower_of_isUpper {c : Char} (h : c.isUpper = true) :
    c.toLower.isLower = true := by
  obtain ⟨hlow, hhigh, hlower⟩ := toNat_toLower_of_isUpper h
  have hval : c.toLower.val.toNat = c.toNat + 32 := hlower
  simp only [Char.isLower, Bool.and_eq_true, decide_eq_true_eq, ge_iff_le, UInt32.le_iff_toNat_le]
  exact ⟨by show 97 ≤ _; omega, by show _ ≤ 122; omega⟩

/-- A character that is no letter is not that of a letter. -/
theorem toLower_eq_of_isLower_eq_false {c : Char} (h : c.toLower.isLower = false) :
    c.toLower = c := by
  cases hupper : c.isUpper with
  | false => exact toLower_eq_of_not_isUpper hupper
  | true =>
    rw [isLower_toLower_of_isUpper hupper] at h
    cases h

theorem isZoneChar_toLower (c : Char) (h : isZoneChar c = true) : isZoneChar c.toLower = true := by
  cases hupper : c.isUpper with
  | false => rwa [toLower_eq_of_not_isUpper hupper]
  | true => simp [isZoneChar, Char.isAlphanum, Char.isAlpha, isLower_toLower_of_isUpper hupper]

/-- A character of the text of an address. -/
def isAddressTextChar (c : Char) : Bool := isZoneChar c || c = '%'

/-- The text of an address has ASCII characters only, and no white space. -/
theorem isAddressTextChar_facts {c : Char} (h : isAddressTextChar c = true) :
    c.toNat < 128 ∧ isWhiteSpace c = false := by
  have hcases : c.isAlphanum = true ∨ c = '-' ∨ c = '.' ∨ c = ':' ∨ c = '%' := by
    simpa [isAddressTextChar, isZoneChar, or_assoc] using h
  rcases hcases with halnum | rfl | rfl | rfl | rfl
  · simp only [Char.isAlphanum, Char.isAlpha, Char.isUpper, Char.isLower, Char.isDigit,
      Bool.or_eq_true, Bool.and_eq_true, decide_eq_true_eq, ge_iff_le,
      UInt32.le_iff_toNat_le] at halnum
    have hrange : 48 ≤ c.toNat ∧ c.toNat ≤ 122 := by
      show 48 ≤ c.val.toNat ∧ c.val.toNat ≤ 122
      rcases halnum with (⟨hA, hZ⟩ | ⟨ha, hz⟩) | ⟨h0, h9⟩
      · exact ⟨le_trans (by decide) hA, hZ.trans (by decide)⟩
      · exact ⟨le_trans (by decide) ha, hz.trans (by decide)⟩
      · exact ⟨h0, h9.trans (by decide)⟩
    refine ⟨by omega, ?_⟩
    simp only [isWhiteSpace, Bool.or_eq_false_iff, Bool.and_eq_false_iff,
      decide_eq_false_iff_not, beq_eq_false_iff_ne]
    omega
  all_goals decide

/-! ### Dotted addresses in text -/

theorem octetOf_facts {text : List Char} {n : Fin 256} (h : octetOf text = some n) :
    text ≠ [] ∧ ∀ c ∈ text, c.isDigit = true := by
  unfold octetOf at h
  split at h
  · rename_i hform
    exact ⟨hform.1, List.all_eq_true.mp hform.2.1⟩
  · cases h

theorem separator_notMem_of_isDigit {separator : Char} {text : List Char}
    (hseparator : separator.isDigit = false) (h : ∀ c ∈ text, c.isDigit = true) :
    separator ∉ text := by
  intro hmem
  rw [h separator hmem] at hseparator
  cases hseparator

/-- The text of four octets. -/
theorem readIpv4_eq_some {text : List Char} {ip : Ipv4} :
    readIpv4 text = some ip ↔ ∃ a b c d, text = ['.'].intercalate [a, b, c, d]
      ∧ octetOf a = some ip.a ∧ octetOf b = some ip.b ∧ octetOf c = some ip.c
      ∧ octetOf d = some ip.d := by
  constructor
  · intro h
    have htext : ['.'].intercalate (text.splitOn '.') = text := List.intercalate_splitOn '.'
    unfold readIpv4 at h
    split at h
    · rename_i a b c d heq
      split at h
      · rename_i oa ob oc od ha hb hc hd
        cases h
        exact ⟨a, b, c, d, by rw [← htext, heq], ha, hb, hc, hd⟩
      · cases h
    · cases h
  · rintro ⟨a, b, c, d, rfl, ha, hb, hc, hd⟩
    have hdot : ∀ {part n}, octetOf part = some n → '.' ∉ part := fun hpart =>
      separator_notMem_of_isDigit rfl (octetOf_facts hpart).2
    have hsplit : (['.'].intercalate [a, b, c, d]).splitOn '.' = [a, b, c, d] := by
      apply List.splitOn_intercalate
      · simp [hdot ha, hdot hb, hdot hc, hdot hd]
      · simp
    simp only [readIpv4, hsplit, ha, hb, hc, hd]

theorem readIpv4_facts {text : List Char} {ip : Ipv4} (h : readIpv4 text = some ip) :
    text ≠ [] ∧ '.' ∈ text ∧ ∀ c ∈ text, c.isDigit = true ∨ c = '.' := by
  obtain ⟨a, b, c, d, rfl, ha, hb, hc, hd⟩ := readIpv4_eq_some.mp h
  refine ⟨?_, ?_, ?_⟩
  · simp [List.intercalate_cons_cons]
  · simp [List.intercalate_cons_cons]
  · intro x hx
    simp only [List.intercalate_cons_cons, List.intercalate_singleton, List.mem_append,
      List.mem_singleton] at hx
    rcases hx with ((hx | hx) | (hx | hx) | (hx | hx) | hx)
    · exact .inl ((octetOf_facts ha).2 x hx)
    · exact .inr hx
    · exact .inl ((octetOf_facts hb).2 x hx)
    · exact .inr hx
    · exact .inl ((octetOf_facts hc).2 x hx)
    · exact .inr hx
    · exact .inl ((octetOf_facts hd).2 x hx)

/-! ### Parts -/

/-- A text between two colons. -/
def IsPart (part : List Char) : Prop := part ≠ [] ∧ ':' ∉ part

theorem IsGroup.isPart {part : List Char} (h : IsGroup part) : IsPart part := by
  refine ⟨h.1, fun hcolon => ?_⟩
  have hhex := h.2.2 ':' hcolon
  cases hhex

theorem IsGroup.readIpv4_eq_none {part : List Char} (h : IsGroup part) : readIpv4 part = none := by
  cases hread : readIpv4 part with
  | none => rfl
  | some ip =>
    have hhex := h.2.2 '.' (readIpv4_facts hread).2.1
    cases hhex

theorem isPart_of_readIpv4 {part : List Char} {ip : Ipv4} (h : readIpv4 part = some ip) :
    IsPart part := by
  obtain ⟨hne, -, hchars⟩ := readIpv4_facts h
  refine ⟨hne, fun hcolon => ?_⟩
  rcases hchars ':' hcolon with hdigit | hdot
  · cases hdigit
  · cases hdot

/-- A group or a dotted address. -/
def IsAddressPart (part : List Char) : Prop := IsGroup part ∨ ∃ ip, readIpv4 part = some ip

theorem IsAddressPart.isPart {part : List Char} (h : IsAddressPart part) : IsPart part := by
  rcases h with hgroup | ⟨ip, hread⟩
  · exact hgroup.isPart
  · exact isPart_of_readIpv4 hread

theorem IsAddressPart.char {part : List Char} (h : IsAddressPart part) :
    ∀ c ∈ part, isZoneChar c = true := by
  intro c hc
  rcases h with hgroup | ⟨ip, hread⟩
  · simp [isZoneChar, isAlphanum_of_isHex (hgroup.2.2 c hc)]
  · rcases (readIpv4_facts hread).2.2 c hc with hdigit | rfl
    · simp [isZoneChar, Char.isAlphanum, hdigit]
    · rfl

theorem percent_notMem_of_isZoneChar {text : List Char} (h : ∀ c ∈ text, isZoneChar c = true) :
    '%' ∉ text := by
  intro hmem
  have hzone := h '%' hmem
  cases hzone

theorem TailParts.isAddressPart {parts : List (List Char)} (h : TailParts parts) :
    ∀ part ∈ parts, IsAddressPart part := by
  intro part hpart
  rcases List.eq_nil_or_concat parts with rfl | ⟨init, last, rfl⟩
  · cases hpart
  · rw [List.concat_eq_append] at h hpart
    obtain ⟨hinit, hlast⟩ := h
    rw [List.dropLast_concat] at hinit
    rw [List.getLast?_concat] at hlast
    rcases List.mem_append.mp hpart with hmem | hmem
    · exact .inl (hinit part hmem)
    · rw [List.mem_singleton.mp hmem]
      exact (hlast last rfl).imp_right Option.ne_none_iff_exists'.mp

/-- The parts on both sides of `::`. -/
def Ipv6Text.parts (text : Ipv6Text) : List (List Char) := text.left ++ text.right.getD []

theorem Ipv6Text.PartsValid.isAddressPart {text : Ipv6Text} (h : text.PartsValid) :
    ∀ part ∈ text.parts, IsAddressPart part := by
  obtain ⟨left, right, zone⟩ := text
  intro part hpart
  cases right with
  | none =>
    rw [Ipv6Text.parts, Option.getD_none, List.append_nil] at hpart
    exact TailParts.isAddressPart h.1 part hpart
  | some right =>
    rcases List.mem_append.mp hpart with hmem | hmem
    · exact .inl (h.1 part hmem)
    · exact TailParts.isAddressPart h.2.1 part hmem

/-! ### Splitting -/

theorem splitDoubleColons_cons {c : Char} (h : c ≠ ':') (rest : List Char) :
    splitDoubleColons (c :: rest) = (splitDoubleColons rest).modifyHead (c :: ·) := by
  cases rest with
  | nil => rfl
  | cons d rest => rw [splitDoubleColons, if_neg fun hc => h hc.1]

theorem splitDoubleColons_colon {rest : List Char} (h : rest.head? ≠ some ':') :
    splitDoubleColons (':' :: rest) = (splitDoubleColons rest).modifyHead (':' :: ·) := by
  cases rest with
  | nil => rfl
  | cons d rest => rw [splitDoubleColons, if_neg fun hd => h (congrArg some hd.2)]

theorem splitDoubleColons_append {part : List Char} (h : ':' ∉ part) (rest : List Char) :
    splitDoubleColons (part ++ rest) = (splitDoubleColons rest).modifyHead (part ++ ·) := by
  induction part with
  | nil =>
    rw [List.nil_append]
    cases splitDoubleColons rest <;> rfl
  | cons c part ih =>
    rw [List.cons_append, splitDoubleColons_cons fun hc => h (by simp [hc]),
      ih fun hmem => h (List.mem_cons_of_mem c hmem), List.modifyHead_modifyHead]
    rfl

theorem head?_joinParts_append {part : List Char} (h : IsPart part) (parts : List (List Char))
    (rest : List Char) : (joinParts (part :: parts) ++ rest).head? ≠ some ':' := by
  obtain ⟨hne, hcolon⟩ := h
  obtain ⟨c, part, rfl⟩ := List.exists_cons_of_ne_nil hne
  intro hhead
  have hc : c = ':' := by
    cases parts <;> simpa [joinParts, List.intercalate_cons_cons] using hhead
  exact hcolon (by simp [hc])

theorem splitDoubleColons_joinParts {parts : List (List Char)} (h : ∀ part ∈ parts, IsPart part)
    (rest : List Char) :
    splitDoubleColons (joinParts parts ++ rest)
      = (splitDoubleColons rest).modifyHead (joinParts parts ++ ·) := by
  induction parts with
  | nil => exact splitDoubleColons_append List.not_mem_nil rest
  | cons part parts ih =>
    have hpart := h part List.mem_cons_self
    cases parts with
    | nil => exact splitDoubleColons_append (by simpa using hpart.2) rest
    | cons next parts =>
      have hrest : ∀ part ∈ next :: parts, IsPart part :=
        fun part hmem => h part (List.mem_cons_of_mem _ hmem)
      have hnext := hrest next List.mem_cons_self
      rw [joinParts, List.intercalate_cons_cons, List.append_assoc, List.append_assoc,
        splitDoubleColons_append hpart.2, List.singleton_append,
        splitDoubleColons_colon (head?_joinParts_append hnext parts rest), ih hrest,
        List.modifyHead_modifyHead, List.modifyHead_modifyHead]
      congr 1
      funext first
      simp

theorem splitDoubleColons_left {left : List (List Char)} (hleft : ∀ part ∈ left, IsPart part) :
    splitDoubleColons (joinParts left) = [joinParts left] := by
  have hsplit := splitDoubleColons_joinParts hleft []
  rw [List.append_nil] at hsplit
  rw [hsplit]
  simp [splitDoubleColons]

theorem splitDoubleColons_both {left right : List (List Char)}
    (hleft : ∀ part ∈ left, IsPart part) (hright : ∀ part ∈ right, IsPart part) :
    splitDoubleColons (joinParts left ++ rightChars (some right))
      = [joinParts left, joinParts right] := by
  rw [splitDoubleColons_joinParts hleft, rightChars, splitDoubleColons, if_pos ⟨rfl, rfl⟩,
    splitDoubleColons_left hright]
  simp

theorem colonParts_joinParts {parts : List (List Char)} (h : ∀ part ∈ parts, IsPart part) :
    colonParts (joinParts parts) = parts := by
  cases parts with
  | nil => rfl
  | cons part rest =>
    have hne : joinParts (part :: rest) ≠ [] := by
      obtain ⟨c, chars, hchars⟩ := List.exists_cons_of_ne_nil (h part List.mem_cons_self).1
      cases rest <;> simp [joinParts, List.intercalate_cons_cons, hchars]
    rw [colonParts, if_neg hne, joinParts,
      List.splitOn_intercalate ':' (fun part hpart => (h part hpart).2) (List.cons_ne_nil _ _)]

/-! ### Reading back -/

theorem zoneOf_append {body : List Char} (h : '%' ∉ body) (zone : Option (List Char)) :
    zoneOf (body ++ zoneChars zone) = zone
      ∧ (body ++ zoneChars zone).takeWhile (· ≠ '%') = body := by
  induction body with
  | nil => cases zone <;> simp [zoneChars, zoneOf]
  | cons c body ih =>
    have hc : c ≠ '%' := fun heq => h (by simp [heq])
    obtain ⟨hzone, htake⟩ := ih fun hmem => h (List.mem_cons_of_mem c hmem)
    rw [List.cons_append, zoneOf, if_neg hc, List.takeWhile_cons_of_pos (by simp [hc]), htake]
    exact ⟨hzone, rfl⟩

theorem mem_joinParts {parts : List (List Char)} {c : Char} (h : c ∈ joinParts parts) :
    c = ':' ∨ ∃ part ∈ parts, c ∈ part := by
  induction parts with
  | nil => cases h
  | cons part parts ih =>
    cases parts with
    | nil => exact .inr ⟨part, List.mem_cons_self, by simpa using h⟩
    | cons next parts =>
      rw [joinParts, List.intercalate_cons_cons, List.append_assoc] at h
      rcases List.mem_append.mp h with hmem | hmem
      · exact .inr ⟨part, List.mem_cons_self, hmem⟩
      · rcases List.mem_append.mp hmem with hcolon | hmem
        · exact .inl (List.mem_singleton.mp hcolon)
        · exact (ih hmem).imp_right fun ⟨p, hp, hc⟩ => ⟨p, List.mem_cons_of_mem _ hp, hc⟩

/-- The characters before the zone. -/
theorem isZoneChar_body {text : Ipv6Text} (h : ∀ part ∈ text.parts, IsAddressPart part) :
    ∀ c ∈ joinParts text.left ++ rightChars text.right, isZoneChar c = true := by
  obtain ⟨left, right, zone⟩ := text
  have hjoin : ∀ {parts : List (List Char)} {c : Char}, (∀ part ∈ parts, IsAddressPart part) →
      c ∈ joinParts parts → isZoneChar c = true := by
    intro parts c hparts hc
    rcases mem_joinParts hc with rfl | ⟨part, hpart, hc⟩
    · rfl
    · exact (hparts part hpart).char c hc
  intro c hc
  rcases List.mem_append.mp hc with hmem | hmem
  · exact hjoin (fun part hpart => h part (List.mem_append_left _ hpart)) hmem
  · cases right with
    | none => cases hmem
    | some right =>
      simp only [rightChars, List.mem_cons] at hmem
      rcases hmem with rfl | rfl | hmem
      · rfl
      · rfl
      · exact hjoin (fun part hpart => h part (List.mem_append_right _ hpart)) hmem

/-- The text of an address is read as that address. -/
theorem ipv6Parts_chars {text : Ipv6Text} (h : ∀ part ∈ text.parts, IsAddressPart part) :
    ipv6Parts text.chars = some text := by
  have hbody := percent_notMem_of_isZoneChar (isZoneChar_body h)
  obtain ⟨left, right, zone⟩ := text
  have hleft : ∀ part ∈ left, IsPart part :=
    fun part hpart => (h part (List.mem_append_left _ hpart)).isPart
  obtain ⟨hzone, htake⟩ := zoneOf_append hbody zone
  rw [Ipv6Text.chars, ipv6Parts, hzone, htake]
  cases right with
  | none =>
    rw [rightChars, List.append_nil, splitDoubleColons_left hleft]
    simp only [colonParts_joinParts hleft]
  | some right =>
    have hright : ∀ part ∈ right, IsPart part :=
      fun part hpart => (h part (List.mem_append_right _ hpart)).isPart
    rw [splitDoubleColons_both hleft hright]
    simp only [colonParts_joinParts hleft, colonParts_joinParts hright]

theorem readIpv6_eq_some {text : List Char} {parts : Ipv6Text} :
    readIpv6 text = some parts ↔ parts.Valid ∧ parts.chars = text := by
  constructor
  · intro h
    obtain ⟨hparts, hvalid⟩ := Option.filter_eq_some_iff.mp h
    exact ⟨of_decide_eq_true hvalid, chars_of_ipv6Parts hparts⟩
  · rintro ⟨hvalid, rfl⟩
    rw [readIpv6, ipv6Parts_chars hvalid.1.isAddressPart, Option.filter_some, if_pos]
    exact decide_eq_true hvalid

/-! ### Letter case -/

abbrev lower (text : List Char) : List Char := text.map Char.toLower

/-- `toLowerCase` on ASCII text. -/
class AsciiCaseMapping extends CaseMapping where
  toLowerCase_ascii : ∀ text : String, (∀ c ∈ text.toList, c.toNat < 128) →
    toLowerCase text = String.ofList (lower text.toList)

@[reducible] def asciiLowerCase : AsciiCaseMapping :=
  { asciiCaseMapping with toLowerCase_ascii := fun _ _ => rfl }

def Ipv6Text.lower (text : Ipv6Text) : Ipv6Text :=
  ⟨text.left.map Js.lower, text.right.map (·.map Js.lower), text.zone.map Js.lower⟩

theorem mem_of_mem_lower {c : Char} {text : List Char} (hc : c.isLower = false)
    (h : c ∈ lower text) : c ∈ text := by
  obtain ⟨d, hd, rfl⟩ := List.mem_map.mp h
  rwa [toLower_eq_of_isLower_eq_false hc]

theorem isLower_of_readIpv4 {text : List Char} {ip : Ipv4} (h : readIpv4 text = some ip) :
    ∀ c ∈ text, c.isLower = false ∧ c.isUpper = false := by
  intro c hc
  rcases (readIpv4_facts h).2.2 c hc with hdigit | rfl
  · simp only [Char.isDigit, Bool.and_eq_true, decide_eq_true_eq, UInt32.le_iff_toNat_le] at hdigit
    have h9 : c.val.toNat ≤ 57 := hdigit.2
    constructor
    · simp only [Char.isLower, Bool.and_eq_false_iff, decide_eq_false_iff_not, ge_iff_le,
        UInt32.le_iff_toNat_le]
      refine .inl fun hlow => ?_
      have ha : 97 ≤ c.val.toNat := hlow
      omega
    · simp only [Char.isUpper, decide_eq_false_iff_not, ge_iff_le, UInt32.le_iff_toNat_le]
      intro hupper
      have hA : 65 ≤ c.val.toNat := hupper.1
      omega
  · exact ⟨rfl, rfl⟩

theorem lower_of_readIpv4 {text : List Char} {ip : Ipv4} (h : readIpv4 text = some ip) :
    lower text = text := by
  conv_rhs => rw [← List.map_id text]
  exact List.map_congr_left fun c hc => toLower_eq_of_not_isUpper (isLower_of_readIpv4 h c hc).2

theorem readIpv4_of_lower {text : List Char} {ip : Ipv4} (h : readIpv4 (lower text) = some ip) :
    readIpv4 text = some ip := by
  have hsame : lower text = text := by
    conv_rhs => rw [← List.map_id text]
    apply List.map_congr_left
    intro c hc
    exact toLower_eq_of_isLower_eq_false
      (isLower_of_readIpv4 h c.toLower (List.mem_map_of_mem hc)).1
  rwa [hsame] at h

theorem IsGroup.lower {part : List Char} (h : IsGroup part) : IsGroup (lower part) := by
  obtain ⟨hne, hlength, hhex⟩ := h
  refine ⟨by simpa using hne, by simpa using hlength, ?_⟩
  intro c hc
  obtain ⟨d, hd, rfl⟩ := List.mem_map.mp hc
  rw [hexValue_toLower]
  exact hhex d hd

theorem hexNumber_lower (digits : List Char) : hexNumber (lower digits) = hexNumber digits := by
  simp only [hexNumber, List.foldl_map, hexValue_toLower]

theorem IsAddressPart.lower {part : List Char} (h : IsAddressPart part) :
    IsAddressPart (lower part) ∧ partWords (Js.lower part) = partWords part := by
  rcases h with hgroup | ⟨ip, hread⟩
  · refine ⟨.inl hgroup.lower, ?_⟩
    rw [partWords, partWords, hgroup.readIpv4_eq_none, hgroup.lower.readIpv4_eq_none]
    simp only [hexNumber_lower]
  · rw [lower_of_readIpv4 hread]
    exact ⟨.inr ⟨ip, hread⟩, rfl⟩

theorem flatMap_partWords_lower {parts : List (List Char)}
    (h : ∀ part ∈ parts, IsAddressPart part) :
    (parts.map lower).flatMap partWords = parts.flatMap partWords := by
  rw [List.flatMap_map]
  exact List.flatMap_congr fun part hpart => (h part hpart).lower.2

theorem TailParts.lower {parts : List (List Char)} (h : TailParts parts) :
    TailParts (parts.map Js.lower) := by
  rcases List.eq_nil_or_concat parts with rfl | ⟨init, last, rfl⟩
  · exact h
  · rw [List.concat_eq_append] at h ⊢
    obtain ⟨hinit, hlast⟩ := h
    rw [List.dropLast_concat] at hinit
    rw [List.getLast?_concat] at hlast
    rw [List.map_append, List.map_singleton]
    constructor
    · rw [List.dropLast_concat]
      intro part hpart
      obtain ⟨original, horiginal, rfl⟩ := List.mem_map.mp hpart
      exact (hinit original horiginal).lower
    · rw [List.getLast?_concat]
      rintro part ⟨⟩
      rcases hlast last rfl with hgroup | hread
      · exact .inl hgroup.lower
      · obtain ⟨ip, hip⟩ := Option.ne_none_iff_exists'.mp hread
        exact .inr (by rwa [lower_of_readIpv4 hip])

theorem lower_joinParts (parts : List (List Char)) :
    lower (joinParts parts) = joinParts (parts.map lower) := by
  induction parts with
  | nil => rfl
  | cons part parts ih =>
    cases parts with
    | nil => simp [joinParts]
    | cons next parts =>
      simp only [joinParts, List.map_cons, List.intercalate_cons_cons, lower,
        List.map_append] at ih ⊢
      rw [ih]
      rfl

theorem Ipv6Text.chars_lower (text : Ipv6Text) : text.lower.chars = Js.lower text.chars := by
  obtain ⟨left, right, zone⟩ := text
  have hright : rightChars (right.map (·.map Js.lower)) = Js.lower (rightChars right) := by
    cases right with
    | none => rfl
    | some right =>
      rw [Option.map_some, rightChars, rightChars, ← lower_joinParts]
      rfl
  have hzone : zoneChars (zone.map Js.lower) = Js.lower (zoneChars zone) := by
    cases zone <;> rfl
  show joinParts (left.map Js.lower) ++ rightChars (right.map (·.map Js.lower))
    ++ zoneChars (zone.map Js.lower) = _
  rw [hright, hzone, ← lower_joinParts, Ipv6Text.chars, Js.lower, Js.lower, Js.lower, Js.lower,
    List.map_append, List.map_append]

theorem Ipv6Text.Valid.lower {text : Ipv6Text} (h : text.Valid) :
    text.lower.Valid ∧ text.lower.words = text.words := by
  obtain ⟨hparts, hzone⟩ := h
  have haddress := hparts.isAddressPart
  obtain ⟨left, right, zone⟩ := text
  have hleft : (left.map Js.lower).flatMap partWords = left.flatMap partWords :=
    flatMap_partWords_lower fun part hpart => haddress part (List.mem_append_left _ hpart)
  have hzone' : ∀ z ∈ zone.map Js.lower, IsZone z := by
    intro z hz
    obtain ⟨original, horiginal, rfl⟩ := Option.mem_map.mp hz
    refine ⟨by simpa using (hzone original horiginal).1, ?_⟩
    intro c hc
    obtain ⟨d, hd, rfl⟩ := List.mem_map.mp hc
    exact isZoneChar_toLower d ((hzone original horiginal).2 d hd)
  cases right with
  | none =>
    refine ⟨⟨⟨TailParts.lower hparts.1, ?_⟩, hzone'⟩, hleft⟩
    show ((left.map Js.lower).flatMap partWords).length = 8
    rw [hleft]
    exact hparts.2
  | some right =>
    have hright : (right.map Js.lower).flatMap partWords = right.flatMap partWords :=
      flatMap_partWords_lower fun part hpart => haddress part (List.mem_append_right _ hpart)
    obtain ⟨hgroups, htail, hlength⟩ := hparts
    refine ⟨⟨⟨?_, TailParts.lower htail, ?_⟩, hzone'⟩, ?_⟩
    · intro part hpart
      obtain ⟨original, horiginal, rfl⟩ := List.mem_map.mp hpart
      exact (hgroups original horiginal).lower
    · show ((left.map Js.lower).flatMap partWords).length
        + ((right.map Js.lower).flatMap partWords).length ≤ 7
      rw [hleft, hright]
      exact hlength
    · simp only [Ipv6Text.words, Ipv6Text.lower, Option.map_some, hleft, hright]

/-- An address in other letters is the same address. -/
theorem readIpv6_lower {text : List Char} {parts : Ipv6Text} (h : readIpv6 text = some parts) :
    readIpv6 (lower text) = some parts.lower := by
  obtain ⟨hvalid, rfl⟩ := readIpv6_eq_some.mp h
  exact readIpv6_eq_some.mpr ⟨hvalid.lower.1, parts.chars_lower⟩

/-! ### Words -/

theorem hexValue_lt {c : Char} {n : ℕ} (h : hexValue c = some n) : n < 16 := by
  simp only [hexValue, Char.le_def, UInt32.le_iff_toNat_le] at h
  have hc : c.toNat = c.val.toNat := rfl
  split_ifs at h with h1 h2 h3
  · cases h
    have h9 : c.val.toNat ≤ 57 := h1.2
    have h0 : ('0' : Char).toNat = 48 := rfl
    omega
  · cases h
    have hf : c.val.toNat ≤ 102 := h2.2
    have ha : ('a' : Char).toNat = 97 := rfl
    omega
  · cases h
    have hF : c.val.toNat ≤ 70 := h3.2
    have hA : ('A' : Char).toNat = 65 := rfl
    omega

theorem hexNumber_concat (digits : List Char) (c : Char) :
    hexNumber (digits ++ [c]) = hexNumber digits * 16 + (hexValue c).getD 0 := by
  simp [hexNumber, List.foldl_append]

theorem hexNumber_lt (digits : List Char) : hexNumber digits < 16 ^ digits.length := by
  induction digits using List.reverseRecOn with
  | nil => decide
  | append_singleton digits c ih =>
    have hdigit : (hexValue c).getD 0 < 16 := by
      cases hc : hexValue c with
      | none => decide
      | some n => exact hexValue_lt hc
    rw [hexNumber_concat, List.length_append, List.length_singleton, pow_succ]
    omega

theorem partWords_lt {part : List Char} (h : IsAddressPart part) :
    ∀ word ∈ partWords part, word < 65536 := by
  intro word hword
  rcases h with hgroup | ⟨ip, hread⟩
  · rw [partWords, hgroup.readIpv4_eq_none, List.mem_singleton] at hword
    rw [hword]
    calc hexNumber part < 16 ^ part.length := hexNumber_lt part
      _ ≤ 16 ^ 4 := Nat.pow_le_pow_right (by decide) hgroup.2.1
  · rw [partWords, hread] at hword
    simp only [List.mem_cons, List.not_mem_nil, or_false] at hword
    rcases hword with rfl | rfl
    · omega
    · omega

/-- An address has eight words of sixteen bits. -/
theorem Ipv6Text.PartsValid.words {text : Ipv6Text} (h : text.PartsValid) :
    text.words.length = 8 ∧ ∀ word ∈ text.words, word < 65536 := by
  have haddress := h.isAddressPart
  obtain ⟨left, right, zone⟩ := text
  have hpart : ∀ {parts : List (List Char)} {word}, (∀ part ∈ parts, IsAddressPart part) →
      word ∈ parts.flatMap partWords → word < 65536 := by
    intro parts word hparts hword
    obtain ⟨part, hmem, hword⟩ := List.mem_flatMap.mp hword
    exact partWords_lt (hparts part hmem) word hword
  have hleft : ∀ part ∈ left, IsAddressPart part :=
    fun part hpart => haddress part (List.mem_append_left _ hpart)
  cases right with
  | none => exact ⟨h.2, fun word hword => hpart hleft hword⟩
  | some right =>
    have hright : ∀ part ∈ right, IsAddressPart part :=
      fun part hpart => haddress part (List.mem_append_right _ hpart)
    have hlength : (left.flatMap partWords).length + (right.flatMap partWords).length ≤ 7 := h.2.2
    refine ⟨?_, fun word hword => ?_⟩
    · simp only [Ipv6Text.words, List.length_append, List.length_replicate]
      omega
    · rcases List.mem_append.mp hword with hmem | hmem
      · rcases List.mem_append.mp hmem with hmem | hmem
        · exact hpart hleft hmem
        · rw [List.eq_of_mem_replicate hmem]
          decide
      · exact hpart hright hmem

/-! ### Addresses -/

/-- The text of four octets. -/
def Ipv4.chars (ip : Ipv4) : List Char :=
  ['.'].intercalate
    [Nat.toDigits 10 ip.a, Nat.toDigits 10 ip.b, Nat.toDigits 10 ip.c, Nat.toDigits 10 ip.d]

theorem octetOf_toDigits : ∀ n : Fin 256, octetOf (Nat.toDigits 10 n) = some n := by
  decide +kernel

theorem readIpv4_chars (ip : Ipv4) : readIpv4 ip.chars = some ip :=
  readIpv4_eq_some.mpr ⟨_, _, _, _, rfl, octetOf_toDigits ip.a, octetOf_toDigits ip.b,
    octetOf_toDigits ip.c, octetOf_toDigits ip.d⟩

theorem hexValue_digitChar : ∀ n : Fin 16, hexValue (Nat.digitChar n) = some n.val := by
  decide +kernel

theorem hexNumber_toDigits (n : ℕ) :
    hexNumber (Nat.toDigits 16 n) = n
      ∧ ∀ c ∈ Nat.toDigits 16 n, (hexValue c).isSome = true := by
  induction n using Nat.strongRecOn with
  | ind n ih =>
    rw [Nat.toDigits_eq_if (by decide)]
    split
    · rename_i hlt
      have hvalue := hexValue_digitChar ⟨n, hlt⟩
      simp only at hvalue
      refine ⟨by simp [hexNumber, hvalue], ?_⟩
      intro c hc
      rw [List.mem_singleton.mp hc, hvalue]
      rfl
    · rename_i hge
      obtain ⟨hnumber, hhex⟩ := ih (n / 16) (by omega)
      have hvalue := hexValue_digitChar ⟨n % 16, Nat.mod_lt n (by decide)⟩
      simp only at hvalue
      constructor
      · rw [hexNumber_concat, hnumber, hvalue, Option.getD_some]
        omega
      · intro c hc
        rcases List.mem_append.mp hc with hmem | hmem
        · exact hhex c hmem
        · rw [List.mem_singleton.mp hmem, hvalue]
          rfl

/-- A word in hexadecimal digits is a group. -/
theorem isGroup_toDigits {n : ℕ} (h : n < 65536) : IsGroup (Nat.toDigits 16 n) :=
  ⟨Nat.toDigits_ne_nil, (Nat.length_toDigits_le_iff (by decide) (by decide)).mpr h,
    (hexNumber_toDigits n).2⟩

/-- The bits of an address. -/
inductive Address where
  | v4 (bits : BitVec 32)
  | v6 (bits : BitVec 128)
  deriving DecidableEq

/-- The number that words of sixteen bits stand for. -/
def wordsNumber (words : List ℕ) : ℕ := words.foldl (· * 65536 + ·) 0

/-- The number that four octets stand for. -/
def Ipv4.number (ip : Ipv4) : ℕ := ((ip.a * 256 + ip.b) * 256 + ip.c) * 256 + ip.d

def Ipv4.bits (ip : Ipv4) : BitVec 32 := BitVec.ofNat 32 ip.number

theorem Ipv4.toNat_bits (ip : Ipv4) : ip.bits.toNat = ip.number := by
  rw [Ipv4.bits, BitVec.toNat_ofNat, Ipv4.number]
  omega

/-- The address that a text stands for. -/
def addressOf (text : String) : Option Address :=
  match readIpv4 text.toList, readIpv6 text.toList with
  | some ip, _ => some (.v4 ip.bits)
  | none, some parts => some (.v6 (BitVec.ofNat 128 (wordsNumber parts.words)))
  | none, none => none

theorem isIP_ne_zero_iff (text : String) : isIP text ≠ 0 ↔ (addressOf text).isSome = true := by
  unfold isIP addressOf
  cases readIpv4 text.toList with
  | some ip => simp
  | none => cases readIpv6 text.toList <;> simp

end ComposeBastion.Js
