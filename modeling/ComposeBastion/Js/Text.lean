import Mathlib.Data.List.Basic

namespace ComposeBastion.Js

/-!
# JavaScript string functions

The `String.prototype` and `path.posix` functions the services call, on the character list
of a string.  `toLowerCase` needs the Unicode case tables, which Lean does not have; the
services rely on two facts about it only, and `CaseMapping` carries it together with these.
-/

/-- `s.startsWith(pre)`. -/
def startsWith (s pre : String) : Bool := pre.toList.isPrefixOf s.toList

/-- `s.endsWith(suf)`. -/
def endsWith (s suf : String) : Bool := suf.toList.isSuffixOf s.toList

/-- ECMAScript `WhiteSpace` and `LineTerminator`, which `trim` removes. -/
def isWhiteSpace (c : Char) : Bool :=
  let n := c.toNat
  (9 ≤ n && n ≤ 13) || n == 0x20 || n == 0xA0 || n == 0x1680 || (0x2000 ≤ n && n ≤ 0x200A)
    || n == 0x2028 || n == 0x2029 || n == 0x202F || n == 0x205F || n == 0x3000 || n == 0xFEFF

/-- The characters of `s.trim()`. -/
def trimChars (cs : List Char) : List Char :=
  ((cs.dropWhile isWhiteSpace).reverse.dropWhile isWhiteSpace).reverse

/-- `s.trim()`. -/
def trim (s : String) : String := String.ofList (trimChars s.toList)

/-- `String.prototype.toLowerCase`, with the two properties of Unicode lower-casing that
    normalising a name twice relies on. -/
class CaseMapping where
  toLowerCase : String → String
  toLowerCase_idem : ∀ s, toLowerCase (toLowerCase s) = toLowerCase s
  trim_toLowerCase : ∀ s, trim (toLowerCase (trim s)) = toLowerCase (trim s)

export CaseMapping (toLowerCase)

/-- One segment of `path.posix.normalize`'s scan; `stack` is the output so far, innermost
    segment first. -/
def normalizeSegment (allowAboveRoot : Bool) (stack : List (List Char)) (segment : List Char) :
    List (List Char) :=
  if segment = [] ∨ segment = ['.'] then stack
  else if segment = ['.', '.'] then
    match stack with
    | top :: rest => if top = ['.', '.'] then segment :: stack else rest
    | [] => if allowAboveRoot then [segment] else []
  else segment :: stack

/-- The characters of `path.posix.normalize(path)`. -/
def normalizeChars (path : List Char) : List Char :=
  let isAbsolute := path.head? == some '/'
  let trailingSeparator := path.getLast? == some '/'
  let segments := (path.splitOn '/').foldl (normalizeSegment (!isAbsolute)) []
  let body := ['/'].intercalate segments.reverse
  if path = [] then ['.']
  else if body = [] then
    if isAbsolute then ['/'] else if trailingSeparator then ['.', '/'] else ['.']
  else
    (if isAbsolute then ['/'] else []) ++ body ++ (if trailingSeparator then ['/'] else [])

/-- `path.posix.normalize(path)`. -/
def posixNormalize (path : String) : String := String.ofList (normalizeChars path.toList)

/-! ### Trimming -/

theorem dropWhile_eq_self {p : Char → Bool} {cs : List Char}
    (h : ∀ c ∈ cs.head?, p c = false) : cs.dropWhile p = cs := by
  cases cs with
  | nil => rfl
  | cons c cs =>
    have hc : p c = false := h c rfl
    simp [hc]

theorem head?_dropWhile {p : Char → Bool} (cs : List Char) :
    ∀ c ∈ (cs.dropWhile p).head?, p c = false := by
  induction cs with
  | nil => simp
  | cons c cs ih =>
    by_cases hc : p c = true
    · simpa [List.dropWhile_cons, hc] using ih
    · simp [hc]

/-- Trimming twice is trimming once. -/
theorem trimChars_idem (cs : List Char) : trimChars (trimChars cs) = trimChars cs := by
  unfold trimChars
  -- `mid` is `cs` without its leading white space; `out` has lost the trailing one as well.
  set mid := cs.dropWhile isWhiteSpace with hmid
  set out := mid.reverse.dropWhile isWhiteSpace with hout
  have hlast : out.dropWhile isWhiteSpace = out :=
    dropWhile_eq_self (head?_dropWhile mid.reverse)
  have hfirst : out.reverse.dropWhile isWhiteSpace = out.reverse := by
    apply dropWhile_eq_self
    intro c hc
    obtain ⟨lead, hlead⟩ : ∃ lead, mid.reverse = lead ++ out :=
      ⟨mid.reverse.takeWhile isWhiteSpace, (List.takeWhile_append_dropWhile).symm⟩
    have hmid_eq : mid = out.reverse ++ lead.reverse := by
      rw [← List.reverse_reverse mid, hlead, List.reverse_append]
    refine head?_dropWhile cs c ?_
    rw [← hmid, hmid_eq]
    cases hrev : out.reverse with
    | nil => simp [hrev] at hc
    | cons d ds => simpa [hrev] using hc
  rw [hfirst, List.reverse_reverse, hlast]

/-- A string without white space is trimmed. -/
theorem trim_eq_self {s : String} (h : ∀ c ∈ s.toList, isWhiteSpace c = false) :
    trim s = s := by
  have hfirst : s.toList.dropWhile isWhiteSpace = s.toList :=
    dropWhile_eq_self fun c hc => h c (List.mem_of_mem_head? hc)
  have hlast : s.toList.reverse.dropWhile isWhiteSpace = s.toList.reverse :=
    dropWhile_eq_self fun c hc => h c (List.mem_reverse.mp (List.mem_of_mem_head? hc))
  rw [trim, trimChars, hfirst, hlast, List.reverse_reverse, String.ofList_toList]

@[simp] theorem trim_idem (s : String) : trim (trim s) = trim s := by
  simp [trim, trimChars_idem]

/-! ### Lower case -/

theorem toLower_toLower (c : Char) : c.toLower.toLower = c.toLower := by
  unfold Char.toLower
  split
  · rename_i h
    rw [dif_neg]
    intro h'
    have hA := UInt32.le_iff_toNat_le.mp h.1
    have hZ := UInt32.le_iff_toNat_le.mp h.2
    have hle := UInt32.le_iff_toNat_le.mp h'.2
    have hA_eq : ('A' : Char).val.toNat = 65 := rfl
    have hZ_eq : ('Z' : Char).val.toNat = 90 := rfl
    have hshift : ('a'.val - 'A'.val).toNat = 32 := rfl
    rw [UInt32.toNat_add] at hle
    omega
  · rfl

theorem isWhiteSpace_toLower (c : Char) : isWhiteSpace c.toLower = isWhiteSpace c := by
  unfold Char.toLower
  split
  · rename_i h
    have hA := UInt32.le_iff_toNat_le.mp h.1
    have hZ := UInt32.le_iff_toNat_le.mp h.2
    have hA_eq : ('A' : Char).val.toNat = 65 := rfl
    have hZ_eq : ('Z' : Char).val.toNat = 90 := rfl
    have hletter : ∀ d : Char, 65 ≤ d.toNat → d.toNat ≤ 122 → isWhiteSpace d = false := by
      intro d hlow hhigh
      simp only [isWhiteSpace, Bool.or_eq_false_iff, Bool.and_eq_false_iff,
        decide_eq_false_iff_not, beq_eq_false_iff_ne]
      omega
    have hshift : (c.val + ('a'.val - 'A'.val)).toNat = c.val.toNat + 32 := by
      have hdiff : ('a'.val - 'A'.val).toNat = 32 := rfl
      rw [UInt32.toNat_add, hdiff]
      omega
    rw [hletter c (by show 65 ≤ c.val.toNat; omega) (by show c.val.toNat ≤ 122; omega)]
    refine hletter _ ?_ ?_
    · show 65 ≤ (c.val + ('a'.val - 'A'.val)).toNat; omega
    · show (c.val + ('a'.val - 'A'.val)).toNat ≤ 122; omega
  · rfl

theorem trimChars_map_toLower (cs : List Char) :
    trimChars (cs.map Char.toLower) = (trimChars cs).map Char.toLower := by
  have hspace : (isWhiteSpace ∘ Char.toLower) = isWhiteSpace :=
    funext isWhiteSpace_toLower
  simp only [trimChars, List.dropWhile_map, hspace, ← List.map_reverse]

/-- Lower-casing of ASCII text, where it agrees with `toLowerCase`. -/
@[reducible] def asciiCaseMapping : CaseMapping where
  toLowerCase s := String.ofList (s.toList.map Char.toLower)
  toLowerCase_idem s := by
    rw [String.toList_ofList, List.map_map]
    exact congrArg String.ofList (List.map_congr_left fun c _ => toLower_toLower c)
  trim_toLowerCase s := by simp [trim, trimChars_map_toLower, trimChars_idem]

end ComposeBastion.Js
