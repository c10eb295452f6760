import Mathlib.Data.List.Basic

namespace ComposeBastion.Js

/-!
# Strings as code units

A JavaScript string is a list of 16-bit code units, and a surrogate may stand in it without
its other half.  Where that matters a text is `CodeUnits`.

* `encodeURIComponent` — fails at a lone surrogate, escapes everything but the unreserved
  characters as UTF-8;
* `jsonContent` — `JSON.stringify(s).slice(1, -1)`.
-/

/-- A JavaScript string. -/
abbrev CodeUnits := List UInt16

/-- The code unit of a character of the basic plane. -/
def unit (c : Char) : UInt16 := UInt16.ofNat c.toNat

/-- The code units of a text of characters of the basic plane. -/
def units (s : String) : CodeUnits := s.toList.map unit

/-- `U+D800` to `U+DBFF`. -/
def isHighSurrogate (u : UInt16) : Bool := 0xD800 ≤ u && u ≤ 0xDBFF

/-- `U+DC00` to `U+DFFF`. -/
def isLowSurrogate (u : UInt16) : Bool := 0xDC00 ≤ u && u ≤ 0xDFFF

/-- A surrogate of either kind. -/
def isSurrogate (u : UInt16) : Bool := isHighSurrogate u || isLowSurrogate u

/-- The code point of a pair of surrogates. -/
def pairedCodePoint (u v : UInt16) : ℕ :=
  0x10000 + (u.toNat - 0xD800) * 0x400 + (v.toNat - 0xDC00)

/-- The code points of a text, if no surrogate stands alone. -/
def codePoints : CodeUnits → Option (List ℕ)
  | [] => some []
  | [u] => if isSurrogate u then none else some [u.toNat]
  | u :: v :: rest =>
    if isHighSurrogate u && isLowSurrogate v then
      (codePoints rest).map fun points => pairedCodePoint u v :: points
    else if isSurrogate u then none
    else (codePoints (v :: rest)).map fun points => u.toNat :: points

/-! ### `encodeURIComponent` -/

/-- The characters that `encodeURIComponent` keeps. -/
def unreserved : CodeUnits :=
  units "ABCDEFGHIJKLMNOPQRSTUVWXYZabcdefghijklmnopqrstuvwxyz0123456789-_.!~*'()"

/-- The UTF-8 form of a code point. -/
def utf8Octets (n : ℕ) : List ℕ :=
  if n < 0x80 then [n]
  else if n < 0x800 then [0xC0 + n / 0x40, 0x80 + n % 0x40]
  else if n < 0x10000 then [0xE0 + n / 0x1000, 0x80 + n / 0x40 % 0x40, 0x80 + n % 0x40]
  else [0xF0 + n / 0x40000, 0x80 + n / 0x1000 % 0x40, 0x80 + n / 0x40 % 0x40, 0x80 + n % 0x40]

/-- `%XX`. -/
def percentOctet (b : ℕ) : CodeUnits :=
  [unit '%', (units "0123456789ABCDEF").getD (b / 16 % 16) 48,
    (units "0123456789ABCDEF").getD (b % 16) 48]

/-- One code point, encoded. -/
def encodeCodePoint (n : ℕ) : CodeUnits :=
  if n < 0x80 ∧ UInt16.ofNat n ∈ unreserved then [UInt16.ofNat n]
  else (utf8Octets n).flatMap percentOctet

/-- `encodeURIComponent`. -/
def encodeURIComponent (text : CodeUnits) : Except String CodeUnits :=
  match codePoints text with
  | none => .error "URI malformed"
  | some points => .ok (points.flatMap encodeCodePoint)

/-! ### `JSON.stringify` -/

/-- `\uxxxx`. -/
def unicodeEscape (u : UInt16) : CodeUnits :=
  let digit (v : ℕ) := (units "0123456789abcdef").getD (v % 16) 48
  [unit '\\', unit 'u', digit (u.toNat / 0x1000), digit (u.toNat / 0x100),
    digit (u.toNat / 0x10), digit u.toNat]

/-- A code unit that is no half of a pair, in a JSON string. -/
def jsonUnit (u : UInt16) : CodeUnits :=
  if u = unit '"' then units "\\\""
  else if u = unit '\\' then units "\\\\"
  else if u = 0x08 then units "\\b"
  else if u = 0x0c then units "\\f"
  else if u = 0x0a then units "\\n"
  else if u = 0x0d then units "\\r"
  else if u = 0x09 then units "\\t"
  else if u < 0x20 || isSurrogate u then unicodeEscape u
  else [u]

/-- `JSON.stringify(text).slice(1, -1)`. -/
def jsonContent : CodeUnits → CodeUnits
  | [] => []
  | [u] => jsonUnit u
  | u :: v :: rest =>
    if isHighSurrogate u && isLowSurrogate v then u :: v :: jsonContent rest
    else jsonUnit u ++ jsonContent (v :: rest)

/-! ### What the encodings put out -/

theorem percentOctet_mem {b : ℕ} : unit '%' ∈ percentOctet b ∧ (0 : UInt16) ∉ percentOctet b := by
  have hdigit : ∀ v < 16, (0 : UInt16) ≠ (units "0123456789ABCDEF").getD v 48 := by
    decide +kernel
  have hzero : (0 : UInt16) ≠ unit '%' := by decide
  constructor
  · exact List.mem_cons_self
  · simp only [percentOctet, List.mem_cons, List.not_mem_nil, or_false, not_or]
    exact ⟨hzero, hdigit _ (Nat.mod_lt _ (by decide)), hdigit _ (Nat.mod_lt _ (by decide))⟩

theorem utf8Octets_ne_nil (n : ℕ) : utf8Octets n ≠ [] := by
  unfold utf8Octets
  split_ifs <;> simp

theorem encodeCodePoint_cases (n : ℕ) :
    (n < 0x80 ∧ encodeCodePoint n = [UInt16.ofNat n]) ∨ unit '%' ∈ encodeCodePoint n := by
  unfold encodeCodePoint
  split_ifs with h
  · exact .inl ⟨h.1, rfl⟩
  · obtain ⟨b, octets, hoctets⟩ := List.exists_cons_of_ne_nil (utf8Octets_ne_nil n)
    refine .inr ?_
    rw [hoctets, List.flatMap_cons]
    exact List.mem_append_left _ percentOctet_mem.1

theorem zero_notMem_encodeCodePoint (n : ℕ) : (0 : UInt16) ∉ encodeCodePoint n := by
  unfold encodeCodePoint
  split_ifs with h
  · have hzero : (0 : UInt16) ∉ unreserved := by decide +kernel
    intro hmem
    rw [List.mem_singleton] at hmem
    rw [← hmem] at h
    exact hzero h.2
  · intro hmem
    obtain ⟨b, -, hb⟩ := List.mem_flatMap.mp hmem
    exact percentOctet_mem.2 hb

theorem zero_notMem_encodeURIComponent {text encoded : CodeUnits}
    (h : encodeURIComponent text = .ok encoded) : (0 : UInt16) ∉ encoded := by
  unfold encodeURIComponent at h
  split at h
  · cases h
  · cases h
    intro hmem
    obtain ⟨n, -, hn⟩ := List.mem_flatMap.mp hmem
    exact zero_notMem_encodeCodePoint n hn

/-- A code point of two surrogates is escaped. -/
theorem percent_mem_pair (u v : UInt16) : unit '%' ∈ encodeCodePoint (pairedCodePoint u v) := by
  have hlarge : 0x10000 ≤ pairedCodePoint u v := by
    unfold pairedCodePoint
    exact Nat.le_trans (Nat.le_add_right _ _) (Nat.le_add_right _ _)
  exact (encodeCodePoint_cases _).resolve_left fun h => by omega

theorem encodeCodePoint_unit (u : UInt16) :
    encodeCodePoint u.toNat = [u] ∨ unit '%' ∈ encodeCodePoint u.toNat := by
  rcases encodeCodePoint_cases u.toNat with ⟨-, h⟩ | h
  · rw [UInt16.ofNat_toNat] at h
    exact .inl h
  · exact .inr h

/-- A text that is read to its code points is encoded to itself or with a `%`. -/
theorem flatMap_encodeCodePoint {text : CodeUnits} {points : List ℕ}
    (h : codePoints text = some points) :
    points.flatMap encodeCodePoint = text ∨ unit '%' ∈ points.flatMap encodeCodePoint := by
  induction text using codePoints.induct generalizing points with
  | case1 => cases h; exact .inl rfl
  | case2 u hu =>
    rw [codePoints, if_pos hu] at h
    cases h
  | case3 u hu =>
    rw [codePoints, if_neg hu] at h
    cases h
    rw [List.flatMap_singleton]
    exact encodeCodePoint_unit u
  | case4 u v rest hpair ih =>
    rw [codePoints, if_pos hpair] at h
    obtain ⟨tail, -, rfl⟩ := Option.map_eq_some_iff.mp h
    rw [List.flatMap_cons]
    exact .inr (List.mem_append_left _ (percent_mem_pair u v))
  | case5 u v rest hpair hu =>
    rw [codePoints, if_neg hpair, if_pos hu] at h
    cases h
  | case6 u v rest hpair hu ih =>
    rw [codePoints, if_neg hpair, if_neg hu] at h
    obtain ⟨tail, htail, rfl⟩ := Option.map_eq_some_iff.mp h
    rw [List.flatMap_cons]
    rcases encodeCodePoint_unit u with hhead | hhead
    · rw [hhead, List.singleton_append]
      exact (ih htail).imp (congrArg (u :: ·)) (List.mem_cons_of_mem _)
    · exact .inr (List.mem_append_left _ hhead)

/-- A text that `encodeURIComponent` changes has a `%` afterwards. -/
theorem encodeURIComponent_cases {text encoded : CodeUnits}
    (h : encodeURIComponent text = .ok encoded) : encoded = text ∨ unit '%' ∈ encoded := by
  unfold encodeURIComponent at h
  split at h
  · cases h
  · rename_i points hpoints
    cases h
    exact flatMap_encodeCodePoint hpoints

theorem jsonUnit_cases (u : UInt16) :
    jsonUnit u = [u] ∨ unit '\\' ∈ jsonUnit u := by
  unfold jsonUnit
  split_ifs
  all_goals first | exact .inl rfl | exact .inr List.mem_cons_self

theorem zero_notMem_jsonUnit (u : UInt16) : (0 : UInt16) ∉ jsonUnit u := by
  have hdigit : ∀ v < 16, (0 : UInt16) ≠ (units "0123456789abcdef").getD v 48 := by
    decide +kernel
  have hescape : (0 : UInt16) ∉ unicodeEscape u := by
    have hletter : (0 : UInt16) ≠ unit '\\' ∧ (0 : UInt16) ≠ unit 'u' := by decide
    simp only [unicodeEscape, List.mem_cons, List.not_mem_nil, or_false, not_or]
    exact ⟨hletter.1, hletter.2, hdigit _ (Nat.mod_lt _ (by decide)),
      hdigit _ (Nat.mod_lt _ (by decide)), hdigit _ (Nat.mod_lt _ (by decide)),
      hdigit _ (Nat.mod_lt _ (by decide))⟩
  unfold jsonUnit
  split_ifs with _ _ _ _ _ _ _ hcontrol
  on_goal 9 =>
    intro hmem
    rw [List.mem_singleton] at hmem
    rw [← hmem] at hcontrol
    exact hcontrol (by decide)
  on_goal 8 => exact hescape
  all_goals decide

theorem zero_ne_of_isHighSurrogate {u : UInt16} (h : isHighSurrogate u = true) : 0 ≠ u := by
  rintro rfl
  revert h
  decide

theorem zero_ne_of_isLowSurrogate {u : UInt16} (h : isLowSurrogate u = true) : 0 ≠ u := by
  rintro rfl
  revert h
  decide

theorem zero_notMem_jsonContent (text : CodeUnits) : (0 : UInt16) ∉ jsonContent text := by
  induction text using jsonContent.induct with
  | case1 => exact List.not_mem_nil
  | case2 u => exact zero_notMem_jsonUnit u
  | case3 u v rest hpair ih =>
    rw [jsonContent, if_pos hpair]
    rw [Bool.and_eq_true] at hpair
    simp only [List.mem_cons, not_or]
    exact ⟨zero_ne_of_isHighSurrogate hpair.1, zero_ne_of_isLowSurrogate hpair.2, ih⟩
  | case4 u v rest hpair ih =>
    rw [jsonContent, if_neg hpair, List.mem_append, not_or]
    exact ⟨zero_notMem_jsonUnit u, ih⟩

/-- A text that `JSON.stringify` changes has a backslash afterwards. -/
theorem jsonContent_cases (text : CodeUnits) :
    jsonContent text = text ∨ unit '\\' ∈ jsonContent text := by
  induction text using jsonContent.induct with
  | case1 => exact .inl rfl
  | case2 u => exact jsonUnit_cases u
  | case3 u v rest hpair ih =>
    rw [jsonContent, if_pos hpair]
    refine ih.imp (fun heq => by rw [heq]) fun hmem => ?_
    exact List.mem_cons_of_mem _ (List.mem_cons_of_mem _ hmem)
  | case4 u v rest hpair ih =>
    rw [jsonContent, if_neg hpair]
    rcases jsonUnit_cases u with hhead | hhead
    · rw [hhead, List.singleton_append]
      exact ih.imp (congrArg (u :: ·)) (List.mem_cons_of_mem _)
    · exact .inr (List.mem_append_left _ hhead)

end ComposeBastion.Js
