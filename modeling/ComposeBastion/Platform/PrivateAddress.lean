import Mathlib.Data.Nat.Bitwise
import Mathlib.Tactic.Positivity
import ComposeBastion.Js.Net

namespace ComposeBastion.Ssrf

open Js

open Json (hexValue)

/-!
# Private addresses

`isPrivateIp` of `services/ssrf.ts`: whether an address in text is one that a request of the
application must not go to.  An IPv6 address is taken apart by `parseIpv6Words`.

* `parseIpv6Words`, `isPrivateIp` — the code;
* `Cidr`, `IsPrivate` — the blocks of addresses that it aims at;
* `parseIpv6Words_chars` — the words of a text are those of its address;
* `isPrivateIp_iff` — the code's answer is that of the blocks.
-/

/-! ### `parseInt` -/

def signOf : List Char → ℤ × List Char
  | '-' :: rest => (-1, rest)
  | '+' :: rest => (1, rest)
  | text => (1, text)

def skipHexPrefix : List Char → List Char
  | '0' :: 'x' :: rest => rest
  | '0' :: 'X' :: rest => rest
  | text => text

/-- `Number.parseInt(text, 16)`, with `none` for `NaN`. -/
def parseInt16 (text : List Char) : Option ℤ :=
  let signed := signOf (text.dropWhile isWhiteSpace)
  let digits := (skipHexPrefix signed.2).takeWhile fun c => (hexValue c).isSome
  if digits = [] then none else some (signed.1 * hexNumber digits)

/-! ### `parseIpv6Words` -/

/-- The text before the last colon, and the text after it. -/
def splitLastColon : List Char → Option (List Char × List Char)
  | [] => none
  | c :: rest =>
    match splitLastColon rest with
    | some (before, after) => some (c :: before, after)
    | none => if c = ':' then some ([], rest) else none

/-- `((high << 8) | low).toString(16)`. -/
def hexWord (high low : Fin 256) : List Char := Nat.toDigits 16 (high.val <<< 8 ||| low.val)

/-- The text with a dotted tail written as two words. -/
def hexTail (input : List Char) : Option (List Char) :=
  if '.' ∈ input then
    match splitLastColon input with
    | none => none
    | some (before, ipv4) =>
      match readIpv4 ipv4 with
      | none => none
      | some ip => some (before ++ ':' :: (hexWord ip.a ip.b ++ ':' :: hexWord ip.c ip.d))
  else some input

/-- `Number.parseInt(word || "0", 16)`. -/
def wordNumber (word : List Char) : Option ℤ := parseInt16 (if word = [] then ['0'] else word)

/-- `Number.isInteger(word) && word >= 0 && word <= 0xffff`. -/
def checkedWord : Option ℤ → Option ℕ
  | none => none
  | some n => if 0 ≤ n ∧ n ≤ 0xffff then some n.toNat else none

def checkedWords (words : List (Option ℤ)) : Option (List ℕ) :=
  if words.length = 8 then words.mapM checkedWord else none

def parseIpv6Words (input : List Char) : Option (List ℕ) :=
  match hexTail input with
  | none => none
  | some value =>
    let halves := splitDoubleColons value
    if 2 < halves.length then none
    else
      let left := colonParts (halves.headD [])
      let right := if halves.length = 2 then colonParts (halves.getD 1 []) else []
      let missing : ℤ := 8 - left.length - right.length
      if halves.length = 1 ∧ missing ≠ 0 ∨ halves.length = 2 ∧ missing < 1 then none
      else checkedWords ((left ++ List.replicate missing.toNat ['0'] ++ right).map wordNumber)

/-! ### `isPrivateIp` -/

def isPrivateIpv4 (a b c : ℕ) : Bool :=
  if a = 0 ∨ a = 10 ∨ a = 127 then true
  else if a = 100 ∧ 64 ≤ b ∧ b ≤ 127 then true
  else if a = 169 ∧ b = 254 then true
  else if a = 172 ∧ 16 ≤ b ∧ b ≤ 31 then true
  else if a = 192 ∧ b = 168 then true
  else if a = 192 ∧ b = 0 ∧ (c = 0 ∨ c = 2) then true
  else if a = 192 ∧ b = 31 ∧ c = 196 then true
  else if a = 192 ∧ b = 52 ∧ c = 193 then true
  else if a = 192 ∧ b = 88 ∧ c = 99 then true
  else if a = 192 ∧ b = 175 ∧ c = 48 then true
  else if a = 198 ∧ (b = 18 ∨ b = 19) then true
  else if a = 198 ∧ b = 51 ∧ c = 100 then true
  else if a = 203 ∧ b = 0 ∧ c = 113 then true
  else decide (224 ≤ a)

/-- `${high >> 8}.${high & 0xff}.${low >> 8}.${low & 0xff}`. -/
def embeddedIpv4 (high low : ℕ) : String :=
  String.ofList (['.'].intercalate
    [Nat.toDigits 10 (high >>> 8), Nat.toDigits 10 (high &&& 0xff),
      Nat.toDigits 10 (low >>> 8), Nat.toDigits 10 (low &&& 0xff)])

/-- The answer for an IPv6 address; `self` is the function itself, for the address embedded. -/
def isPrivateWords (self : String → Bool) (words : List ℕ) : Bool :=
  let word := fun i => words.getD i 0
  let firstFiveZero := (words.take 5).all (· = 0)
  let firstSixZero := firstFiveZero && word 5 = 0
  if firstSixZero || (firstFiveZero && word 5 = 0xffff) then self (embeddedIpv4 (word 6) (word 7))
  else if (words.take 4).all (· = 0) ∧ word 4 = 0xffff ∧ word 5 = 0 then true
  else if word 0 &&& 0xe000 ≠ 0x2000 then true
  else if word 0 = 0x2001 ∧ word 1 &&& 0xfe00 = 0 then true
  else if word 0 = 0x2001 ∧ word 1 = 0x0db8 then true
  else if word 0 = 0x2002 then true
  else if word 0 = 0x3ffe then true
  else if word 0 = 0x3fff ∧ word 1 &&& 0xf000 = 0 then true
  else false

section

variable [CaseMapping]

/-- One call of `isPrivateIp`, which calls `self`. -/
def isPrivateIpCall (self : String → Bool) (ip : String) : Bool :=
  let ipL := trim (toLowerCase ip)
  match readIpv4 ipL.toList with
  | some ip => isPrivateIpv4 ip.a ip.b ip.c
  | none =>
    if isIP ipL ≠ 6 then true
    else
      match parseIpv6Words ipL.toList with
      | none => true
      | some words => isPrivateWords self words

/-- The address that is embedded is an IPv4 address, whose call makes no other. -/
def isPrivateIp (ip : String) : Bool := isPrivateIpCall (isPrivateIpCall fun _ => true) ip

end

/-! ### Blocks of addresses -/

/-- The addresses that begin with the first `length` bits of `base`. -/
structure Cidr (w : ℕ) where
  base : BitVec w
  length : ℕ

def Cidr.Contains {w : ℕ} (block : Cidr w) (address : BitVec w) : Prop :=
  address >>> (w - block.length) = block.base >>> (w - block.length)

instance {w : ℕ} (block : Cidr w) (address : BitVec w) : Decidable (block.Contains address) :=
  inferInstanceAs (Decidable (_ = _))

def ipv4Block (a b c d : Fin 256) (length : ℕ) : Cidr 32 := ⟨Ipv4.bits ⟨a, b, c, d⟩, length⟩

def ipv6Block (words : List ℕ) (length : ℕ) : Cidr 128 :=
  ⟨BitVec.ofNat 128 (wordsNumber words), length⟩

/-- The special-purpose, private, shared, documentation, multicast and reserved blocks. -/
def privateIpv4Blocks : List (Cidr 32) :=
  [ipv4Block 0 0 0 0 8, ipv4Block 10 0 0 0 8, ipv4Block 127 0 0 0 8, ipv4Block 100 64 0 0 10,
    ipv4Block 169 254 0 0 16, ipv4Block 172 16 0 0 12, ipv4Block 192 168 0 0 16,
    ipv4Block 192 0 0 0 24, ipv4Block 192 0 2 0 24, ipv4Block 192 31 196 0 24,
    ipv4Block 192 52 193 0 24, ipv4Block 192 88 99 0 24, ipv4Block 192 175 48 0 24,
    ipv4Block 198 18 0 0 15, ipv4Block 198 51 100 0 24, ipv4Block 203 0 113 0 24,
    ipv4Block 224 0 0 0 3]

/-- `::/96` and `::ffff:0:0/96`. -/
def embeddingBlocks : List (Cidr 128) :=
  [ipv6Block [0, 0, 0, 0, 0, 0, 0, 0] 96, ipv6Block [0, 0, 0, 0, 0, 0xffff, 0, 0] 96]

/-- `2000::/3`. -/
def globalUnicast : Cidr 128 := ipv6Block [0x2000, 0, 0, 0, 0, 0, 0, 0] 3

/-- The blocks inside `2000::/3` that are not globally routable: protocol assignments,
    documentation, 6to4, 6bone and documentation. -/
def specialBlocks : List (Cidr 128) :=
  [ipv6Block [0x2001, 0, 0, 0, 0, 0, 0, 0] 23, ipv6Block [0x2001, 0x0db8, 0, 0, 0, 0, 0, 0] 32,
    ipv6Block [0x2002, 0, 0, 0, 0, 0, 0, 0] 16, ipv6Block [0x3ffe, 0, 0, 0, 0, 0, 0, 0] 16,
    ipv6Block [0x3fff, 0, 0, 0, 0, 0, 0, 0] 20]

def InBlocks {w : ℕ} (blocks : List (Cidr w)) (address : BitVec w) : Prop :=
  ∃ block ∈ blocks, block.Contains address

instance {w : ℕ} (blocks : List (Cidr w)) (address : BitVec w) :
    Decidable (InBlocks blocks address) :=
  inferInstanceAs (Decidable (∃ block ∈ blocks, _))

/-- An IPv4-compatible or IPv4-mapped address is private when its last 32 bits are; any other
    IPv6 address is, unless it is globally routable unicast. -/
def IsPrivate : Address → Prop
  | .v4 bits => InBlocks privateIpv4Blocks bits
  | .v6 bits =>
    if InBlocks embeddingBlocks bits then InBlocks privateIpv4Blocks (bits.setWidth 32)
    else ¬ globalUnicast.Contains bits ∨ InBlocks specialBlocks bits

instance : (address : Address) → Decidable (IsPrivate address)
  | .v4 bits => inferInstanceAs (Decidable (InBlocks privateIpv4Blocks bits))
  | .v6 bits => inferInstanceAs (Decidable (if InBlocks embeddingBlocks bits then
      InBlocks privateIpv4Blocks (bits.setWidth 32)
      else ¬ globalUnicast.Contains bits ∨ InBlocks specialBlocks bits))

/-! ### Numbers in text -/

theorem isSome_hexValue_facts {c : Char} (h : (hexValue c).isSome = true) :
    isWhiteSpace c = false ∧ c ≠ '-' ∧ c ≠ '+' ∧ c ≠ 'x' ∧ c ≠ 'X' := by
  refine ⟨(isAddressTextChar_facts ?_).2, ?_, ?_, ?_, ?_⟩
  · simp [isAddressTextChar, isZoneChar, isAlphanum_of_isHex h]
  all_goals
    rintro rfl
    cases h

theorem signOf_of_ne {c : Char} (hminus : c ≠ '-') (hplus : c ≠ '+') (rest : List Char) :
    signOf (c :: rest) = (1, c :: rest) := by
  unfold signOf
  split
  · rename_i heq
    exact absurd (List.cons.inj heq).1 hminus
  · rename_i heq
    exact absurd (List.cons.inj heq).1 hplus
  · rfl

theorem skipHexPrefix_of_ne {c : Char} {rest : List Char}
    (h : ∀ d ∈ rest.head?, d ≠ 'x' ∧ d ≠ 'X') :
    skipHexPrefix (c :: rest) = c :: rest := by
  unfold skipHexPrefix
  split
  · rename_i heq
    obtain ⟨-, rfl⟩ := List.cons.inj heq
    exact absurd rfl (h 'x' rfl).1
  · rename_i heq
    obtain ⟨-, rfl⟩ := List.cons.inj heq
    exact absurd rfl (h 'X' rfl).2
  · rfl

/-- A group is read up to what follows it. -/
theorem parseInt16_append {group rest : List Char} (hgroup : IsGroup group)
    (hrest : ∀ c ∈ rest.head?, c = '%') :
    parseInt16 (group ++ rest) = some (hexNumber group : ℤ) := by
  obtain ⟨hne, -, hhex⟩ := hgroup
  obtain ⟨c, digits, rfl⟩ := List.exists_cons_of_ne_nil hne
  obtain ⟨hspace, hminus, hplus, -, -⟩ := isSome_hexValue_facts (hhex c List.mem_cons_self)
  have hdrop : (c :: digits ++ rest).dropWhile isWhiteSpace = c :: digits ++ rest :=
    dropWhile_eq_self (by rintro d ⟨⟩; exact hspace)
  have hprefix : skipHexPrefix (c :: (digits ++ rest)) = c :: (digits ++ rest) := by
    apply skipHexPrefix_of_ne
    intro d hd
    cases digits with
    | nil =>
      rw [hrest d hd]
      decide
    | cons e digits =>
      cases hd
      obtain ⟨-, -, -, hx, hX⟩ := isSome_hexValue_facts (hhex d (by simp))
      exact ⟨hx, hX⟩
  have hstop : rest.takeWhile (fun c => (hexValue c).isSome) = [] := by
    cases rest with
    | nil => rfl
    | cons d rest =>
      rw [hrest d rfl]
      rfl
  have hdigits :
      (c :: (digits ++ rest)).takeWhile (fun c => (hexValue c).isSome) = c :: digits := by
    rw [← List.cons_append, List.takeWhile_append_of_pos hhex, hstop, List.append_nil]
  simp only [parseInt16, hdrop]
  rw [List.cons_append, signOf_of_ne hminus hplus, hprefix, hdigits]
  simp

/-- A part that `parseIpv6Words` reads as a word. -/
def ReadsAs (part : List Char) (word : ℕ) : Prop :=
  IsPart part ∧ parseInt16 part = some (word : ℤ) ∧ word ≤ 0xffff

theorem hexNumber_le {group : List Char} (h : IsGroup group) : hexNumber group ≤ 0xffff := by
  have hlt : hexNumber group < 16 ^ 4 :=
    (hexNumber_lt group).trans_le (Nat.pow_le_pow_right (by decide) h.2.1)
  omega

theorem readsAs_group {group : List Char} (h : IsGroup group) :
    ReadsAs group (hexNumber group) := by
  have hparse : parseInt16 (group ++ []) = _ := parseInt16_append h (by simp)
  rw [List.append_nil] at hparse
  exact ⟨h.isPart, hparse, hexNumber_le h⟩

/-- A zone after a group is not read, when it has no colon. -/
theorem readsAs_zone {group : List Char} {zone : Option (List Char)} (h : IsGroup group)
    (hzone : ∀ z ∈ zone, ':' ∉ z) : ReadsAs (group ++ zoneChars zone) (hexNumber group) := by
  refine ⟨⟨by simp [h.1], ?_⟩, parseInt16_append h ?_, hexNumber_le h⟩
  · cases zone with
    | none => simpa [zoneChars] using h.isPart.2
    | some z => simpa [zoneChars] using ⟨h.isPart.2, hzone z rfl⟩
  · cases zone with
    | none => simp [zoneChars]
    | some z => simp [zoneChars]

theorem partWords_of_isGroup {group : List Char} (h : IsGroup group) :
    partWords group = [hexNumber group] := by
  rw [partWords, h.readIpv4_eq_none]

theorem readsAs_groups {groups : List (List Char)} (h : ∀ group ∈ groups, IsGroup group) :
    List.Forall₂ ReadsAs groups (groups.flatMap partWords) := by
  induction groups with
  | nil => exact .nil
  | cons group groups ih =>
    rw [List.flatMap_cons, partWords_of_isGroup (h group List.mem_cons_self)]
    exact .cons (readsAs_group (h group List.mem_cons_self))
      (ih fun g hg => h g (List.mem_cons_of_mem _ hg))

/-! ### Splitting at the last colon -/

theorem splitLastColon_part {part : List Char} (h : ':' ∉ part) : splitLastColon part = none := by
  induction part with
  | nil => rfl
  | cons c part ih =>
    rw [splitLastColon, ih fun hmem => h (List.mem_cons_of_mem c hmem)]
    exact if_neg fun hc => h (by simp [hc])

theorem splitLastColon_append {part : List Char} (h : ':' ∉ part) (before : List Char) :
    splitLastColon (before ++ ':' :: part) = some (before, part) := by
  induction before with
  | nil =>
    rw [List.nil_append, splitLastColon, splitLastColon_part h]
    exact if_pos rfl
  | cons c before ih => rw [List.cons_append, splitLastColon, ih]

theorem joinParts_concat {parts : List (List Char)} (h : parts ≠ []) (part : List Char) :
    joinParts (parts ++ [part]) = joinParts parts ++ ':' :: part := by
  induction parts with
  | nil => exact absurd rfl h
  | cons first parts ih =>
    cases parts with
    | nil => simp [joinParts, List.intercalate_cons_cons]
    | cons next parts =>
      have hrest := ih (List.cons_ne_nil _ _)
      simp only [joinParts, List.cons_append, List.intercalate_cons_cons] at hrest ⊢
      rw [hrest]
      simp

theorem joinParts_last_append (parts : List (List Char)) (part zone : List Char) :
    joinParts (parts ++ [part]) ++ zone = joinParts (parts ++ [part ++ zone]) := by
  by_cases hparts : parts = []
  · subst hparts
    simp [joinParts]
  · rw [joinParts_concat hparts, joinParts_concat hparts]
    simp

/-! ### The words of a text -/

/-- The part that a zone follows. -/
def lastPart (text : Ipv6Text) : Option (List Char) := (text.right.getD text.left).getLast?

/-- The zone, when there is one, follows a group and has neither a dot nor a colon. -/
def ZoneAfterGroup (text : Ipv6Text) : Prop :=
  ∀ zone ∈ text.zone, '.' ∉ zone ∧ ':' ∉ zone ∧ ∃ group, lastPart text = some group ∧ IsGroup group

theorem hexWord_facts (high low : Fin 256) :
    IsGroup (hexWord high low) ∧ hexNumber (hexWord high low) = high * 256 + low := by
  have hor : high.val <<< 8 ||| low.val = high * 256 + low := by
    rw [← Nat.shiftLeft_add_eq_or_of_lt low.isLt, Nat.shiftLeft_eq]
  rw [hexWord, hor]
  exact ⟨isGroup_toDigits (by omega), (hexNumber_toDigits _).1⟩

theorem dot_notMem_joinParts {groups : List (List Char)} (h : ∀ group ∈ groups, IsGroup group) :
    '.' ∉ joinParts groups := by
  intro hmem
  rcases mem_joinParts hmem with hcolon | ⟨group, hgroup, hdot⟩
  · cases hcolon
  · have hhex := (h group hgroup).2.2 '.' hdot
    cases hhex

/-- A dotted address at the end is written as two groups. -/
theorem hexTail_dotted {part : List Char} {ip : Ipv4} (h : readIpv4 part = some ip)
    (before : List Char) :
    hexTail (before ++ ':' :: part)
      = some (before ++ ':' :: (hexWord ip.a ip.b ++ ':' :: hexWord ip.c ip.d)) := by
  have hdot : '.' ∈ before ++ ':' :: part := by
    simp [(readIpv4_facts h).2.1]
  simp only [hexTail, if_pos hdot, splitLastColon_append (isPart_of_readIpv4 h).2 before, h]

theorem readsAs_dotted {groups : List (List Char)} {part : List Char} {ip : Ipv4}
    (hgroups : ∀ group ∈ groups, IsGroup group) (h : readIpv4 part = some ip) :
    List.Forall₂ ReadsAs (groups ++ [hexWord ip.a ip.b, hexWord ip.c ip.d])
      ((groups ++ [part]).flatMap partWords) := by
  have hwords :
      partWords part = [hexNumber (hexWord ip.a ip.b), hexNumber (hexWord ip.c ip.d)] := by
    rw [partWords, h, (hexWord_facts ip.a ip.b).2, (hexWord_facts ip.c ip.d).2]
  rw [List.flatMap_append, List.flatMap_singleton, hwords]
  exact List.rel_append (readsAs_groups hgroups)
    (.cons (readsAs_group (hexWord_facts ip.a ip.b).1)
      (.cons (readsAs_group (hexWord_facts ip.c ip.d).1) .nil))

theorem readsAs_last {groups : List (List Char)} {group : List Char} {zone : Option (List Char)}
    (hgroups : ∀ group ∈ groups, IsGroup group) (h : IsGroup group)
    (hzone : ∀ z ∈ zone, ':' ∉ z) :
    List.Forall₂ ReadsAs (groups ++ [group ++ zoneChars zone])
      ((groups ++ [group]).flatMap partWords) := by
  rw [List.flatMap_append, List.flatMap_singleton, partWords_of_isGroup h]
  exact List.rel_append (readsAs_groups hgroups) (.cons (readsAs_zone h hzone) .nil)

/-- The last parts of a text, after what is before them, are read as their words: a dotted address
    needs a colon in front. -/
theorem hexTail_append (before : List Char) {tail : List (List Char)} {zone : Option (List Char)}
    (htail : TailParts tail) (hdot : '.' ∉ before)
    (hcolon : 2 ≤ tail.length ∧ before = [] ∨ ∃ start, before = start ++ [':'])
    (hzone : ∀ z ∈ zone, '.' ∉ z ∧ ':' ∉ z ∧ ∃ group, tail.getLast? = some group ∧ IsGroup group) :
    ∃ parts, hexTail (before ++ joinParts tail ++ zoneChars zone) = some (before ++ joinParts parts)
      ∧ List.Forall₂ ReadsAs parts (tail.flatMap partWords) := by
  rcases List.eq_nil_or_concat tail with rfl | ⟨init, last, rfl⟩
  · cases zone with
    | none =>
      refine ⟨[], ?_, .nil⟩
      simp [hexTail, hdot, joinParts, zoneChars]
    | some z =>
      obtain ⟨-, -, group, hnone, -⟩ := hzone z rfl
      cases hnone
  rw [List.concat_eq_append] at htail hzone hcolon ⊢
  obtain ⟨hinit, hlast⟩ := htail
  rw [List.dropLast_concat] at hinit
  rw [List.getLast?_concat] at hlast hzone
  rcases hlast last rfl with hgroup | hread
  · refine ⟨init ++ [last ++ zoneChars zone], ?_, readsAs_last hinit hgroup fun z hz =>
      (hzone z hz).2.1⟩
    have hnodot : '.' ∉ before ++ joinParts (init ++ [last]) ++ zoneChars zone := by
      have hparts : '.' ∉ joinParts (init ++ [last]) := by
        apply dot_notMem_joinParts
        intro group hmem
        rcases List.mem_append.mp hmem with hmem | hmem
        · exact hinit group hmem
        · rw [List.mem_singleton.mp hmem]
          exact hgroup
      cases zone with
      | none => simp [hdot, hparts, zoneChars]
      | some z => simp [hdot, hparts, zoneChars, (hzone z rfl).1]
    rw [hexTail, if_neg hnodot, List.append_assoc, joinParts_last_append]
  · obtain ⟨ip, hip⟩ := Option.ne_none_iff_exists'.mp hread
    have hnone : zone = none := by
      cases zone with
      | none => rfl
      | some z =>
        obtain ⟨-, -, group, hsome, hgroup⟩ := hzone z rfl
        cases hsome
        rw [hgroup.readIpv4_eq_none] at hip
        cases hip
    subst hnone
    refine ⟨init ++ [hexWord ip.a ip.b, hexWord ip.c ip.d], ?_, readsAs_dotted hinit hip⟩
    have hwords : joinParts (init ++ [hexWord ip.a ip.b, hexWord ip.c ip.d])
        = joinParts (init ++ [hexWord ip.a ip.b]) ++ ':' :: hexWord ip.c ip.d := by
      rw [← joinParts_concat (by simp), List.append_assoc]
      rfl
    rw [hwords, zoneChars, List.append_nil]
    by_cases hempty : init = []
    · subst hempty
      rcases hcolon with ⟨hlength, -⟩ | ⟨start, rfl⟩
      · simp at hlength
      · have htail := hexTail_dotted hip start
        simpa [joinParts] using htail
    · have htail := hexTail_dotted hip (before ++ joinParts init)
      rw [joinParts_concat hempty, joinParts_concat hempty]
      simpa using htail

theorem wordNumber_of_readsAs {part : List Char} {word : ℕ} (h : ReadsAs part word) :
    checkedWord (wordNumber part) = some word := by
  obtain ⟨⟨hne, -⟩, hparse, hle⟩ := h
  rw [wordNumber, if_neg hne, hparse, checkedWord, if_pos (by omega)]
  simp

theorem mapM_checkedWord {parts : List (List Char)} {words : List ℕ}
    (h : List.Forall₂ ReadsAs parts words) :
    (parts.map wordNumber).mapM checkedWord = some words := by
  induction h with
  | nil => rfl
  | cons hpart hrest ih =>
    rw [List.map_cons, List.mapM_cons, wordNumber_of_readsAs hpart, ih]
    rfl

theorem checkedWord_zero : checkedWord (wordNumber ['0']) = some 0 := by decide

theorem mapM_checkedWord_zeros (n : ℕ) :
    ((List.replicate n ['0']).map wordNumber).mapM checkedWord = some (List.replicate n 0) := by
  induction n with
  | zero => rfl
  | succ n ih =>
    rw [List.replicate_succ, List.map_cons, List.mapM_cons, checkedWord_zero, ih]
    rfl

theorem isPart_of_readsAs {parts : List (List Char)} {words : List ℕ}
    (h : List.Forall₂ ReadsAs parts words) : ∀ part ∈ parts, IsPart part :=
  ((List.forall₂_and_left parts words).mp h).1

theorem checkedWords_append {left right : List (List Char)} {leftWords rightWords : List ℕ}
    (hleft : List.Forall₂ ReadsAs left leftWords) (hright : List.Forall₂ ReadsAs right rightWords)
    (missing : ℕ) (hlength : leftWords.length + missing + rightWords.length = 8) :
    checkedWords ((left ++ List.replicate missing ['0'] ++ right).map wordNumber)
      = some (leftWords ++ List.replicate missing 0 ++ rightWords) := by
  have hparts : ((left ++ List.replicate missing ['0'] ++ right).map wordNumber).length = 8 := by
    simp [hleft.length_eq, hright.length_eq]
    omega
  rw [checkedWords, if_pos hparts, List.map_append, List.map_append, List.mapM_append,
    List.mapM_append, mapM_checkedWord hleft, mapM_checkedWord hright, mapM_checkedWord_zeros]
  rfl

/-- The words of the text of an address. -/
theorem parseIpv6Words_chars {text : Ipv6Text} (hvalid : text.Valid) (hzone : ZoneAfterGroup text) :
    parseIpv6Words text.chars = some text.words := by
  obtain ⟨hparts, -⟩ := hvalid
  obtain ⟨left, right, zone⟩ := text
  cases right with
  | none =>
    obtain ⟨htail, hlength⟩ := hparts
    have htwo : 2 ≤ left.length := by
      by_contra hlt
      cases left with
      | nil => simp at hlength
      | cons part rest =>
        cases rest with
        | nil =>
          have hpart : (partWords part).length ≤ 2 := by
            unfold partWords
            split <;> simp
          simp at hlength
          omega
        | cons next rest => simp at hlt
    obtain ⟨parts, hhex, hreads⟩ :=
      hexTail_append [] htail List.not_mem_nil (.inl ⟨htwo, rfl⟩) hzone
    have hcount := hreads.length_eq
    rw [hlength] at hcount
    have hwords := checkedWords_append hreads .nil 0 (by simpa using hlength)
    have hchars : Ipv6Text.chars ⟨left, none, zone⟩ = [] ++ joinParts left ++ zoneChars zone := by
      simp [Ipv6Text.chars, rightChars]
    rw [parseIpv6Words, hchars, hhex]
    simp only [List.nil_append, splitDoubleColons_left (isPart_of_readsAs hreads),
      List.length_singleton, List.headD_cons, colonParts_joinParts (isPart_of_readsAs hreads)]
    simpa [hcount, Ipv6Text.words] using hwords
  | some right =>
    have hgroups : ∀ group ∈ left, IsGroup group := hparts.1
    obtain ⟨-, htail, hlength⟩ := hparts
    have hleft := readsAs_groups hgroups
    have hdot : '.' ∉ joinParts left ++ [':', ':'] := by
      simp [dot_notMem_joinParts hgroups]
    obtain ⟨parts, hhex, hreads⟩ := hexTail_append (joinParts left ++ [':', ':']) htail hdot
      (.inr ⟨joinParts left ++ [':'], by simp⟩) hzone
    have hchars : Ipv6Text.chars ⟨left, some right, zone⟩
        = joinParts left ++ [':', ':'] ++ joinParts right ++ zoneChars zone := by
      simp [Ipv6Text.chars, rightChars]
    have hvalue : joinParts left ++ [':', ':'] ++ joinParts parts
        = joinParts left ++ rightChars (some parts) := by
      simp [rightChars]
    have hcount := hreads.length_eq
    have hcount' := hleft.length_eq
    change (left.flatMap partWords).length + (right.flatMap partWords).length ≤ 7 at hlength
    have hmissing : (8 - (left.length : ℤ) - (parts.length : ℤ)).toNat
        = 8 - (left.flatMap partWords).length - (right.flatMap partWords).length := by
      omega
    have hwords := checkedWords_append hleft hreads
      (8 - (left.flatMap partWords).length - (right.flatMap partWords).length) (by omega)
    rw [parseIpv6Words, hchars, hhex, hvalue]
    simp only [splitDoubleColons_both (isPart_of_readsAs hleft) (isPart_of_readsAs hreads),
      List.length_cons, List.length_nil, List.headD_cons, List.getD_cons_succ, List.getD_cons_zero,
      colonParts_joinParts (isPart_of_readsAs hleft),
      colonParts_joinParts (isPart_of_readsAs hreads),
      if_true, hmissing]
    rw [if_neg (by decide), if_neg (by omega)]
    exact hwords

/-! ### Blocks as numbers -/

theorem contains_iff {w : ℕ} (block : Cidr w) (address : BitVec w) :
    block.Contains address
      ↔ address.toNat / 2 ^ (w - block.length) = block.base.toNat / 2 ^ (w - block.length) := by
  rw [Cidr.Contains, ← BitVec.toNat_inj, BitVec.toNat_ushiftRight, BitVec.toNat_ushiftRight,
    Nat.shiftRight_eq_div_pow, Nat.shiftRight_eq_div_pow]

@[simp] theorem inBlocks_nil {w : ℕ} (address : BitVec w) : ¬ InBlocks [] address := by
  simp [InBlocks]

@[simp] theorem inBlocks_cons {w : ℕ} (block : Cidr w) (blocks : List (Cidr w))
    (address : BitVec w) :
    InBlocks (block :: blocks) address ↔ block.Contains address ∨ InBlocks blocks address := by
  simp [InBlocks]

theorem contains_ipv4Block (a b c d : Fin 256) (length : ℕ) (ip : Ipv4) :
    (ipv4Block a b c d length).Contains ip.bits
      ↔ ip.number / 2 ^ (32 - length) = (Ipv4.mk a b c d).number / 2 ^ (32 - length) := by
  simp only [contains_iff, ipv4Block, Ipv4.toNat_bits]


theorem isPrivateIpv4_eq_true (a b c : ℕ) : isPrivateIpv4 a b c = true ↔
    (a = 0 ∨ a = 10 ∨ a = 127) ∨ (a = 100 ∧ 64 ≤ b ∧ b ≤ 127) ∨ (a = 169 ∧ b = 254)
      ∨ (a = 172 ∧ 16 ≤ b ∧ b ≤ 31) ∨ (a = 192 ∧ b = 168) ∨ (a = 192 ∧ b = 0 ∧ (c = 0 ∨ c = 2))
      ∨ (a = 192 ∧ b = 31 ∧ c = 196) ∨ (a = 192 ∧ b = 52 ∧ c = 193) ∨ (a = 192 ∧ b = 88 ∧ c = 99)
      ∨ (a = 192 ∧ b = 175 ∧ c = 48) ∨ (a = 198 ∧ (b = 18 ∨ b = 19))
      ∨ (a = 198 ∧ b = 51 ∧ c = 100) ∨ (a = 203 ∧ b = 0 ∧ c = 113) ∨ 224 ≤ a := by
  simp only [isPrivateIpv4, Bool.if_true_left, Bool.or_eq_true, decide_eq_true_eq]

theorem isPrivateIpv4_iff (ip : Ipv4) :
    isPrivateIpv4 ip.a ip.b ip.c = true ↔ InBlocks privateIpv4Blocks ip.bits := by
  have h29 : ip.number / 2 ^ 29 = ip.a / 32 := by
    simp only [Ipv4.number]
    omega
  have h24 : ip.number / 2 ^ 24 = ip.a := by
    simp only [Ipv4.number]
    omega
  have h22 : ip.number / 2 ^ 22 = ip.a * 4 + ip.b / 64 := by
    simp only [Ipv4.number]
    omega
  have h20 : ip.number / 2 ^ 20 = ip.a * 16 + ip.b / 16 := by
    simp only [Ipv4.number]
    omega
  have h17 : ip.number / 2 ^ 17 = ip.a * 128 + ip.b / 2 := by
    simp only [Ipv4.number]
    omega
  have h16 : ip.number / 2 ^ 16 = ip.a * 256 + ip.b := by
    simp only [Ipv4.number]
    omega
  have h8 : ip.number / 2 ^ 8 = (ip.a * 256 + ip.b) * 256 + ip.c := by
    simp only [Ipv4.number]
    omega
  have ha := ip.a.isLt
  have hb := ip.b.isLt
  have hc := ip.c.isLt
  rw [isPrivateIpv4_eq_true]
  simp only [privateIpv4Blocks, inBlocks_cons, inBlocks_nil, contains_ipv4Block, or_false,
    Nat.reduceSub, h29, h24, h22, h20, h17, h16, h8, or_assoc]
  simp only [Ipv4.number, Fin.isValue, Fin.coe_ofNat_eq_mod, Nat.reduceMod, Nat.reduceMul,
    Nat.reduceAdd, Nat.reducePow, Nat.reduceDiv]
  generalize ip.a.val = a at *
  generalize ip.b.val = b at *
  generalize ip.c.val = c at *
  have h192 : a = 192 ∧ b = 0 ∧ (c = 0 ∨ c = 2)
      ↔ (a * 256 + b) * 256 + c = 12582912 ∨ (a * 256 + b) * 256 + c = 12582914 := by
    omega
  rw [h192, or_assoc]
  refine or_congr Iff.rfl <| or_congr Iff.rfl <| or_congr Iff.rfl <| or_congr ?_ <| or_congr ?_ <|
    or_congr ?_ <| or_congr ?_ <| or_congr Iff.rfl <| or_congr Iff.rfl <| or_congr ?_ <|
    or_congr ?_ <| or_congr ?_ <| or_congr ?_ <| or_congr ?_ <| or_congr ?_ <| or_congr ?_ ?_
  all_goals omega

/-! ### Masks -/

theorem and_shiftLeft (n m k : ℕ) : n &&& m <<< k = (n >>> k &&& m) <<< k := by
  apply Nat.eq_of_testBit_eq
  intro i
  simp only [Nat.testBit_and, Nat.testBit_shiftLeft, Nat.testBit_shiftRight]
  by_cases hi : k ≤ i
  · simp [hi]
  · simp [hi]

/-- A mask of the highest bits of a word. -/
theorem and_highBits {n : ℕ} (h : n < 65536) {m k : ℕ} (hk : 2 ^ m * 2 ^ k = 65536) :
    n &&& (2 ^ m - 1) <<< k = n / 2 ^ k * 2 ^ k := by
  have hlt : n / 2 ^ k < 2 ^ m := by
    rw [Nat.div_lt_iff_lt_mul (by positivity), hk]
    exact h
  rw [and_shiftLeft, Nat.shiftRight_eq_div_pow, Nat.and_two_pow_sub_one_eq_mod,
    Nat.mod_eq_of_lt hlt, Nat.shiftLeft_eq]

theorem globalUnicast_mask {n : ℕ} (h : n < 65536) : n &&& 0xe000 = 0x2000 ↔ n / 8192 = 1 := by
  have hmask : n &&& 0xe000 = n / 8192 * 8192 :=
    and_highBits h (show 2 ^ 3 * 2 ^ 13 = 65536 from rfl)
  rw [hmask]
  omega

theorem protocolAssignments_mask {n : ℕ} (h : n < 65536) : n &&& 0xfe00 = 0 ↔ n / 512 = 0 := by
  have hmask : n &&& 0xfe00 = n / 512 * 512 :=
    and_highBits h (show 2 ^ 7 * 2 ^ 9 = 65536 from rfl)
  rw [hmask]
  omega

theorem documentation_mask {n : ℕ} (h : n < 65536) : n &&& 0xf000 = 0 ↔ n / 4096 = 0 := by
  have hmask : n &&& 0xf000 = n / 4096 * 4096 :=
    and_highBits h (show 2 ^ 4 * 2 ^ 12 = 65536 from rfl)
  rw [hmask]
  omega

/-! ### The answer for words -/

theorem eight_words {words : List ℕ} (h : words.length = 8) :
    ∃ w₀ w₁ w₂ w₃ w₄ w₅ w₆ w₇, words = [w₀, w₁, w₂, w₃, w₄, w₅, w₆, w₇] := by
  rcases words with
    _ | ⟨w₀, _ | ⟨w₁, _ | ⟨w₂, _ | ⟨w₃, _ | ⟨w₄, _ | ⟨w₅, _ | ⟨w₆, _ | ⟨w₇, rest⟩⟩⟩⟩⟩⟩⟩⟩
  case cons.cons.cons.cons.cons.cons.cons.cons =>
    have hrest : rest = [] := by
      apply List.eq_nil_of_length_eq_zero
      simpa using h
    subst hrest
    exact ⟨w₀, w₁, w₂, w₃, w₄, w₅, w₆, w₇, rfl⟩
  all_goals simp at h

/-- The octets of the last two words. -/
def embeddedOctets (high low : ℕ) (hhigh : high < 65536) (hlow : low < 65536) : Ipv4 :=
  ⟨⟨high / 256, by omega⟩, ⟨high % 256, by omega⟩, ⟨low / 256, by omega⟩, ⟨low % 256, by omega⟩⟩

theorem embeddedIpv4_eq {high low : ℕ} (hhigh : high < 65536) (hlow : low < 65536) :
    embeddedIpv4 high low = String.ofList (embeddedOctets high low hhigh hlow).chars := by
  have hshift : ∀ n : ℕ, n >>> 8 = n / 256 := fun n => Nat.shiftRight_eq_div_pow n 8
  have hmask : ∀ n : ℕ, n &&& 0xff = n % 256 := fun n => Nat.and_two_pow_sub_one_eq_mod n 8
  simp only [embeddedIpv4, hshift, hmask]
  rfl

/-- Eight words of sixteen bits, as a number. -/
theorem wordsNumber_lt {words : List ℕ} (h : ∀ word ∈ words, word < 65536) :
    wordsNumber words < 65536 ^ words.length := by
  induction words using List.reverseRecOn with
  | nil => decide
  | append_singleton words word ih =>
    have hwords := ih fun w hw => h w (List.mem_append_left _ hw)
    have hword := h word (by simp)
    have hconcat : wordsNumber (words ++ [word]) = wordsNumber words * 65536 + word := by
      simp [wordsNumber, List.foldl_append]
    rw [hconcat, List.length_append, List.length_singleton, pow_succ]
    omega

/-- The answer of `isPrivateWords`, when the call for the embedded address gives `embedded`. -/
theorem isPrivateWords_eq_true {self : String → Bool} {w₀ w₁ w₂ w₃ w₄ w₅ w₆ w₇ : ℕ}
    (h₀ : w₀ < 65536) (h₁ : w₁ < 65536) :
    isPrivateWords self [w₀, w₁, w₂, w₃, w₄, w₅, w₆, w₇] = true ↔
      if (w₀ = 0 ∧ w₁ = 0 ∧ w₂ = 0 ∧ w₃ = 0 ∧ w₄ = 0) ∧ (w₅ = 0 ∨ w₅ = 0xffff) then
        self (embeddedIpv4 w₆ w₇) = true
      else w₀ / 8192 ≠ 1 ∨ w₀ = 0x2001 ∧ w₁ / 512 = 0 ∨ w₀ = 0x2001 ∧ w₁ = 0x0db8
        ∨ w₀ = 0x2002 ∨ w₀ = 0x3ffe ∨ w₀ = 0x3fff ∧ w₁ / 4096 = 0 := by
  unfold isPrivateWords
  simp only [List.getD_cons_zero, List.getD_cons_succ, List.take_succ_cons, List.take_zero,
    List.all_cons, List.all_nil, Bool.and_true, Bool.and_eq_true, Bool.or_eq_true,
    decide_eq_true_eq, globalUnicast_mask h₀, protocolAssignments_mask h₁, documentation_mask h₁,
    ne_eq]
  simp only [← and_or_left]
  by_cases hembedded : (w₀ = 0 ∧ w₁ = 0 ∧ w₂ = 0 ∧ w₃ = 0 ∧ w₄ = 0) ∧ (w₅ = 0 ∨ w₅ = 0xffff)
  · rw [if_pos hembedded, if_pos hembedded]
  · rw [if_neg hembedded, if_neg hembedded]
    by_cases htranslated : (w₀ = 0 ∧ w₁ = 0 ∧ w₂ = 0 ∧ w₃ = 0) ∧ w₄ = 0xffff ∧ w₅ = 0
    · have hzero : ¬ w₀ / 8192 = 1 := by omega
      rw [if_pos htranslated]
      simp only [hzero, not_false_eq_true, true_or]
    · rw [if_neg htranslated]
      simp only [Bool.if_true_left, Bool.or_eq_true, decide_eq_true_eq, Bool.false_eq_true,
        or_false]

/-! ### The blocks of words -/

theorem contains_ipv6Block {w₀ w₁ w₂ w₃ w₄ w₅ w₆ w₇ : ℕ}
    (h : ∀ word ∈ [w₀, w₁, w₂, w₃, w₄, w₅, w₆, w₇], word < 65536) {base : List ℕ}
    (hbase : wordsNumber base < 2 ^ 128) (length : ℕ) :
    (ipv6Block base length).Contains
        (BitVec.ofNat 128 (wordsNumber [w₀, w₁, w₂, w₃, w₄, w₅, w₆, w₇]))
      ↔ wordsNumber [w₀, w₁, w₂, w₃, w₄, w₅, w₆, w₇] / 2 ^ (128 - length)
        = wordsNumber base / 2 ^ (128 - length) := by
  have hlt : wordsNumber [w₀, w₁, w₂, w₃, w₄, w₅, w₆, w₇] < 2 ^ 128 :=
    calc wordsNumber [w₀, w₁, w₂, w₃, w₄, w₅, w₆, w₇] < 65536 ^ 8 := wordsNumber_lt h
      _ = 2 ^ 128 := by rw [show 65536 = 2 ^ 16 from rfl, ← pow_mul]
  simp only [contains_iff, ipv6Block, BitVec.toNat_ofNat, Nat.mod_eq_of_lt hlt,
    Nat.mod_eq_of_lt hbase]

/-- The code's tests on words are the blocks' tests on bits. -/
theorem isPrivateWords_iff {self : String → Bool} {words : List ℕ} (hlength : words.length = 8)
    (hwords : ∀ word ∈ words, word < 65536)
    (hself : ∀ ip : Ipv4, self (String.ofList ip.chars) = isPrivateIpv4 ip.a ip.b ip.c) :
    isPrivateWords self words = true
      ↔ IsPrivate (.v6 (BitVec.ofNat 128 (wordsNumber words))) := by
  obtain ⟨w₀, w₁, w₂, w₃, w₄, w₅, w₆, w₇, rfl⟩ := eight_words hlength
  have h₀ := hwords w₀ (by simp)
  have h₁ := hwords w₁ (by simp)
  have h₂ := hwords w₂ (by simp)
  have h₃ := hwords w₃ (by simp)
  have h₄ := hwords w₄ (by simp)
  have h₅ := hwords w₅ (by simp)
  have h₆ := hwords w₆ (by simp)
  have h₇ := hwords w₇ (by simp)
  have hnumber : wordsNumber [w₀, w₁, w₂, w₃, w₄, w₅, w₆, w₇]
      = ((((((w₀ * 65536 + w₁) * 65536 + w₂) * 65536 + w₃) * 65536 + w₄) * 65536 + w₅) * 65536
        + w₆) * 65536 + w₇ := by
    simp [wordsNumber]
  have hembedding : InBlocks embeddingBlocks
      (BitVec.ofNat 128 (wordsNumber [w₀, w₁, w₂, w₃, w₄, w₅, w₆, w₇]))
      ↔ (w₀ = 0 ∧ w₁ = 0 ∧ w₂ = 0 ∧ w₃ = 0 ∧ w₄ = 0) ∧ (w₅ = 0 ∨ w₅ = 0xffff) := by
    simp only [embeddingBlocks, inBlocks_cons, inBlocks_nil, or_false]
    rw [contains_ipv6Block hwords (by decide), contains_ipv6Block hwords (by decide), hnumber]
    simp only [wordsNumber, List.foldl_cons, List.foldl_nil, Nat.reduceSub]
    omega
  have hglobal : globalUnicast.Contains
      (BitVec.ofNat 128 (wordsNumber [w₀, w₁, w₂, w₃, w₄, w₅, w₆, w₇])) ↔ w₀ / 8192 = 1 := by
    rw [globalUnicast, contains_ipv6Block hwords (by decide), hnumber]
    simp only [wordsNumber, List.foldl_cons, List.foldl_nil, Nat.reduceSub]
    omega
  have hspecial : InBlocks specialBlocks
      (BitVec.ofNat 128 (wordsNumber [w₀, w₁, w₂, w₃, w₄, w₅, w₆, w₇]))
      ↔ w₀ = 0x2001 ∧ w₁ / 512 = 0 ∨ w₀ = 0x2001 ∧ w₁ = 0x0db8 ∨ w₀ = 0x2002 ∨ w₀ = 0x3ffe
        ∨ w₀ = 0x3fff ∧ w₁ / 4096 = 0 := by
    simp only [specialBlocks, inBlocks_cons, inBlocks_nil, or_false]
    rw [contains_ipv6Block hwords (by decide), contains_ipv6Block hwords (by decide),
      contains_ipv6Block hwords (by decide), contains_ipv6Block hwords (by decide),
      contains_ipv6Block hwords (by decide), hnumber]
    simp only [wordsNumber, List.foldl_cons, List.foldl_nil, Nat.reduceSub]
    refine or_congr ?_ <| or_congr ?_ <| or_congr ?_ <| or_congr ?_ ?_
    all_goals omega
  have hlast : (BitVec.ofNat 128 (wordsNumber [w₀, w₁, w₂, w₃, w₄, w₅, w₆, w₇])).setWidth 32
      = (embeddedOctets w₆ w₇ h₆ h₇).bits := by
    apply BitVec.eq_of_toNat_eq
    rw [Ipv4.toNat_bits, BitVec.toNat_setWidth, BitVec.toNat_ofNat, hnumber]
    simp only [Ipv4.number, embeddedOctets]
    omega
  rw [isPrivateWords_eq_true h₀ h₁, embeddedIpv4_eq h₆ h₇, hself, isPrivateIpv4_iff, ← hlast]
  simp only [IsPrivate, hembedding, hglobal, hspecial, ne_eq]

/-- Other blocks of addresses that carry an IPv4 address: translated addresses, NAT64, 6to4 and
    Teredo. -/
def otherEmbeddings : List (Cidr 128) :=
  [ipv6Block [0, 0, 0, 0, 0xffff, 0, 0, 0] 96, ipv6Block [0x64, 0xff9b, 0, 0, 0, 0, 0, 0] 96,
    ipv6Block [0x2002, 0, 0, 0, 0, 0, 0, 0] 16, ipv6Block [0x2001, 0, 0, 0, 0, 0, 0, 0] 32]

/-- They are private, whatever address they carry. -/
theorem isPrivate_of_otherEmbeddings {bits : BitVec 128} (h : InBlocks otherEmbeddings bits) :
    IsPrivate (.v6 bits) := by
  simp only [otherEmbeddings, inBlocks_cons, inBlocks_nil, or_false, contains_iff, ipv6Block,
    BitVec.toNat_ofNat, wordsNumber, List.foldl_cons, List.foldl_nil] at h
  simp only [IsPrivate, embeddingBlocks, globalUnicast, specialBlocks, inBlocks_cons, inBlocks_nil,
    or_false, contains_iff, ipv6Block, BitVec.toNat_ofNat, wordsNumber, List.foldl_cons,
    List.foldl_nil]
  rw [if_neg (by omega)]
  omega

/-! ### The answer for a text -/

/-- The zone of an IPv6 address in text is one that `parseIpv6Words` reads over. -/
def ZoneReadable (text : String) : Prop :=
  ∀ parts, readIpv6 text.toList = some parts → ZoneAfterGroup parts

theorem isAddressTextChar_of_readIpv4 {text : List Char} {ip : Ipv4} (h : readIpv4 text = some ip) :
    ∀ c ∈ text, isAddressTextChar c = true := by
  intro c hc
  rcases (readIpv4_facts h).2.2 c hc with hdigit | rfl
  · simp [isAddressTextChar, isZoneChar, Char.isAlphanum, hdigit]
  · rfl

theorem isAddressTextChar_of_readIpv6 {text : List Char} {parts : Ipv6Text}
    (h : readIpv6 text = some parts) : ∀ c ∈ text, isAddressTextChar c = true := by
  obtain ⟨⟨hparts, hzone⟩, rfl⟩ := readIpv6_eq_some.mp h
  intro c hc
  rw [isAddressTextChar, Bool.or_eq_true, decide_eq_true_eq]
  rcases List.mem_append.mp hc with hbody | htail
  · exact .inl (isZoneChar_body hparts.isAddressPart c hbody)
  · cases hread : parts.zone with
    | none =>
      rw [hread] at htail
      cases htail
    | some zone =>
      rw [hread] at htail
      rcases List.mem_cons.mp htail with hpercent | hmem
      · exact .inr hpercent
      · exact .inl ((hzone zone hread).2 c hmem)

theorem ZoneAfterGroup.lower {parts : Ipv6Text} (h : ZoneAfterGroup parts) :
    ZoneAfterGroup parts.lower := by
  obtain ⟨left, right, zone⟩ := parts
  intro z hz
  obtain ⟨original, horiginal, rfl⟩ := Option.mem_map.mp hz
  obtain ⟨hdot, hcolon, group, hlast, hgroup⟩ := h original horiginal
  refine ⟨?_, ?_, Js.lower group, ?_, hgroup.lower⟩
  · exact fun hmem => hdot (mem_of_mem_lower (by decide) hmem)
  · exact fun hmem => hcolon (mem_of_mem_lower (by decide) hmem)
  · cases right with
    | none =>
      simp only [lastPart, Ipv6Text.lower, Option.map_none, Option.getD_none] at hlast ⊢
      rw [List.getLast?_map, hlast, Option.map_some]
    | some right =>
      simp only [lastPart, Ipv6Text.lower, Option.map_some, Option.getD_some] at hlast ⊢
      rw [List.getLast?_map, hlast, Option.map_some]

section

variable [AsciiCaseMapping]

/-- Lower-casing and trimming the text of an address. -/
theorem trim_toLowerCase_address {text : String}
    (h : ∀ c ∈ text.toList, isAddressTextChar c = true) :
    trim (toLowerCase text) = String.ofList (lower text.toList) := by
  rw [AsciiCaseMapping.toLowerCase_ascii text fun c hc => (isAddressTextChar_facts (h c hc)).1]
  apply trim_eq_self
  intro c hc
  rw [String.toList_ofList] at hc
  obtain ⟨d, hd, rfl⟩ := List.mem_map.mp hc
  rw [isWhiteSpace_toLower]
  exact (isAddressTextChar_facts (h d hd)).2

/-- The call for an IPv4 address makes no other. -/
theorem isPrivateIpCall_ipv4 (self : String → Bool) {text : String} {ip : Ipv4}
    (h : readIpv4 text.toList = some ip) :
    isPrivateIpCall self text = isPrivateIpv4 ip.a ip.b ip.c := by
  rw [isPrivateIpCall, trim_toLowerCase_address (isAddressTextChar_of_readIpv4 h),
    lower_of_readIpv4 h, String.ofList_toList, h]

theorem isPrivateIpCall_chars (self : String → Bool) (ip : Ipv4) :
    isPrivateIpCall self (String.ofList ip.chars) = isPrivateIpv4 ip.a ip.b ip.c :=
  isPrivateIpCall_ipv4 self (by rw [String.toList_ofList, readIpv4_chars])

/-- The code's answer is that of the blocks, for every text of an address. -/
theorem isPrivateIp_iff {text : String} {address : Address} (h : addressOf text = some address)
    (hzone : ZoneReadable text) : isPrivateIp text = true ↔ IsPrivate address := by
  unfold addressOf at h
  cases hread : readIpv4 text.toList with
  | some ip =>
    rw [hread] at h
    cases h
    rw [isPrivateIp, isPrivateIpCall_ipv4 _ hread]
    exact isPrivateIpv4_iff ip
  | none =>
    rw [hread] at h
    cases hparts : readIpv6 text.toList with
    | none =>
      rw [hparts] at h
      cases h
    | some parts =>
      rw [hparts] at h
      cases h
      have hlower := readIpv6_lower hparts
      obtain ⟨hvalid, hchars⟩ := readIpv6_eq_some.mp hlower
      obtain ⟨hsource, -⟩ := readIpv6_eq_some.mp hparts
      have hwords : parseIpv6Words (lower text.toList) = some parts.words := by
        rw [← hchars, parseIpv6Words_chars hvalid (hzone parts hparts).lower, hsource.lower.2]
      have hnone : readIpv4 (lower text.toList) = none := by
        cases hip : readIpv4 (lower text.toList) with
        | none => rfl
        | some ip => rw [readIpv4_of_lower hip] at hread; cases hread
      obtain ⟨hlength, hlt⟩ := hsource.1.words
      have hcall : isPrivateIp text
          = isPrivateWords (isPrivateIpCall fun _ => true) parts.words := by
        simp only [isPrivateIp, isPrivateIpCall,
          trim_toLowerCase_address (isAddressTextChar_of_readIpv6 hparts), String.toList_ofList,
          hnone, isIP, hlower, hwords, Option.isSome_none, Option.isSome_some]
        rfl
      rw [hcall]
      exact isPrivateWords_iff hlength hlt (isPrivateIpCall_chars _)

/-- The answer for the text of an address depends on the address only.  It is that of the blocks,
    in which an address that carries an IPv4 address has the answer of that address when it is
    IPv4-compatible or IPv4-mapped, and is private otherwise. -/
theorem isPrivateIp_exact :
    (∀ text, isIP text ≠ 0 → ZoneReadable text →
      ∃ address, addressOf text = some address ∧ (isPrivateIp text = true ↔ IsPrivate address))
    ∧ ∀ bits, InBlocks otherEmbeddings bits → IsPrivate (.v6 bits) := by
  refine ⟨fun text hip hzone => ?_, fun bits => isPrivate_of_otherEmbeddings⟩
  obtain ⟨address, haddress⟩ := Option.isSome_iff_exists.mp ((isIP_ne_zero_iff text).mp hip)
  exact ⟨address, haddress, isPrivateIp_iff haddress hzone⟩

end

attribute [local instance] asciiLowerCase

theorem zoneReadable_mapped : ZoneReadable "::FFFF:8.8.8.8" := by
  intro parts h zone hzone
  have hnone : (readIpv6 "::FFFF:8.8.8.8".toList).map Ipv6Text.zone = some none := by
    decide +kernel
  rw [h, Option.map_some, Option.some_inj] at hnone
  rw [hnone] at hzone
  cases hzone

/-- A mapped public address, in upper case with a dotted tail. -/
theorem isPrivateIp_exact_mapped :
    (∃ address, addressOf "::FFFF:8.8.8.8" = some address
      ∧ (isPrivateIp "::FFFF:8.8.8.8" = true ↔ IsPrivate address))
    ∧ IsPrivate (.v6 (ipv6Block [0, 0, 0, 0, 0xffff, 0, 0x808, 0x808] 96).base) :=
  ⟨isPrivateIp_exact.1 "::FFFF:8.8.8.8" (by decide +kernel) zoneReadable_mapped,
    isPrivateIp_exact.2 _ (by decide +kernel)⟩

/-- `8.8.8.8` is public, but an address that carries it is private. -/
theorem translated_public_is_private :
    isIP "::ffff:0:8.8.8.8" = 6 ∧ isPrivateIp "::ffff:0:8.8.8.8" = true
    ∧ (∃ bits, addressOf "::ffff:0:8.8.8.8" = some (.v6 bits)
      ∧ InBlocks otherEmbeddings bits
      ∧ addressOf "8.8.8.8" = some (.v4 (bits.setWidth 32)))
    ∧ isPrivateIp "8.8.8.8" = false := by
  refine ⟨by decide +kernel, by decide +kernel, ?_, by decide +kernel⟩
  refine ⟨(ipv6Block [0, 0, 0, 0, 0xffff, 0, 0x808, 0x808] 96).base, ?_, ?_, ?_⟩
  all_goals decide +kernel

end ComposeBastion.Ssrf
