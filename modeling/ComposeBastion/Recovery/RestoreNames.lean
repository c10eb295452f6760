import ComposeBastion.Lib.OrderedMap
import ComposeBastion.Recovery.BindMounts

namespace ComposeBastion

open Js

/-!
# Names of restored resources

The names that `services/recoveryRestoreUtils.ts` and `services/recoveryManifest.ts` make of the
names of an application.  A text is cut and its characters are replaced in UTF-16 code units;
`unitChars` has a character of two units twice.

* `replaceUnsafe` — every unit that is no character of a name becomes `_`;
* `sanitizeDockerName` — so do runs of them, and the ends are cleared;
* `sameUnits_iff` — the texts that have the same safe form.
-/

/-! ### Code units -/

/-- `[a-zA-Z0-9_.-]`. -/
def isEngineNameChar (c : Char) : Bool := c.isAlphanum || c = '_' || c = '.' || c = '-'

def unitCount (c : Char) : ℕ := if c.toNat < 0x10000 then 1 else 2

/-- The code units of a text, each standing for its character. -/
def unitChars (cs : List Char) : List Char := cs.flatMap fun c => List.replicate (unitCount c) c

/-- `s.slice(0, n)`, of whole characters. -/
def takeUnits : ℕ → List Char → List Char
  | _, [] => []
  | n, c :: cs => if unitCount c ≤ n then c :: takeUnits (n - unitCount c) cs else []

/-- `[^a-zA-Z0-9_.-]` as `_`. -/
def safeUnit (c : Char) : Char := if isEngineNameChar c then c else '_'

/-- `s.replace(/[^a-zA-Z0-9_.-]/g, "_")`. -/
def replaceUnsafe (cs : List Char) : List Char := (unitChars cs).map safeUnit

/-- Two units with one safe form: they are equal, or both become `_`. -/
def SameUnit (c d : Char) : Prop :=
  c = d ∨ ((c = '_' ∨ isEngineNameChar c = false) ∧ (d = '_' ∨ isEngineNameChar d = false))

/-- Two texts agree in their first `n` units, up to what becomes `_`. -/
def SameUnits (n : ℕ) (cs ds : List Char) : Prop :=
  List.Forall₂ SameUnit ((unitChars cs).take n) ((unitChars ds).take n)

theorem safeUnit_eq_iff {c d : Char} : safeUnit c = safeUnit d ↔ SameUnit c d := by
  unfold safeUnit SameUnit
  by_cases hc : isEngineNameChar c = true
  · by_cases hd : isEngineNameChar d = true
    · simp only [hc, hd, if_true, Bool.true_eq_false, or_false]
      constructor
      · exact .inl
      · rintro (h | ⟨rfl, rfl⟩)
        · exact h
        · rfl
    · simp only [hc, hd, if_true, Bool.true_eq_false, or_false, or_true, and_true,
        Bool.false_eq_true, if_false]
      constructor
      · exact .inr
      · rintro (rfl | h)
        · exact absurd hc hd
        · exact h
  · by_cases hd : isEngineNameChar d = true
    · simp only [hc, hd, if_true, Bool.true_eq_false, or_false, or_true, true_and,
        Bool.false_eq_true, if_false]
      constructor
      · exact fun h => .inr h.symm
      · rintro (rfl | h)
        · exact absurd hd hc
        · exact h.symm
    · simp [hc, hd]

theorem map_eq_map_iff {α β : Type} {f : α → β} {xs ys : List α} :
    xs.map f = ys.map f ↔ List.Forall₂ (fun x y => f x = f y) xs ys := by
  rw [← List.forall₂_eq_eq_eq, List.forall₂_map_left_iff, List.forall₂_map_right_iff]

/-- The safe forms agree in their first `n` characters exactly when the texts do so. -/
theorem sameUnits_iff {n : ℕ} {cs ds : List Char} :
    (replaceUnsafe cs).take n = (replaceUnsafe ds).take n ↔ SameUnits n cs ds := by
  rw [replaceUnsafe, replaceUnsafe, ← List.map_take, ← List.map_take, map_eq_map_iff, SameUnits]
  simp only [safeUnit_eq_iff]

theorem unitChars_cons (c : Char) (cs : List Char) :
    unitChars (c :: cs) = List.replicate (unitCount c) c ++ unitChars cs :=
  List.flatMap_cons

theorem unitCount_pos (c : Char) : 0 < unitCount c := by
  unfold unitCount
  split <;> decide

theorem length_le_unitChars (cs : List Char) : cs.length ≤ (unitChars cs).length := by
  induction cs with
  | nil => exact Nat.zero_le _
  | cons c cs ih =>
    have := unitCount_pos c
    rw [unitChars_cons, List.length_append, List.length_replicate, List.length_cons]
    omega

theorem length_unitChars_takeUnits (n : ℕ) (cs : List Char) :
    (unitChars (takeUnits n cs)).length ≤ n := by
  induction cs generalizing n with
  | nil => exact Nat.zero_le _
  | cons c cs ih =>
    rw [takeUnits]
    split
    · next h =>
      have := ih (n - unitCount c)
      rw [unitChars_cons, List.length_append, List.length_replicate]
      omega
    · exact Nat.zero_le _

/-- A text of characters of one unit is its units. -/
theorem unitChars_of_forall {cs : List Char} (h : ∀ c ∈ cs, unitCount c = 1) :
    unitChars cs = cs := by
  induction cs with
  | nil => rfl
  | cons c cs ih =>
    rw [unitChars_cons, h c List.mem_cons_self, ih fun d hd => h d (List.mem_cons_of_mem c hd)]
    rfl

theorem unitCount_isEngineNameChar {c : Char} (h : isEngineNameChar c = true) : unitCount c = 1 := by
  refine if_pos ?_
  have halnum : c.isAlphanum = (decide (c.val ≥ 'A'.val ∧ c.val ≤ 'Z'.val)
      || (decide (c.val ≥ 'a'.val) && decide (c.val ≤ 'z'.val))
      || (decide (c.val ≥ '0'.val) && decide (c.val ≤ '9'.val))) := rfl
  rw [isEngineNameChar, halnum] at h
  simp only [Bool.or_eq_true, Bool.and_eq_true, decide_eq_true_eq, UInt32.le_iff_toNat_le,
    ge_iff_le] at h
  have hval : c.toNat = c.val.toNat := rfl
  rcases h with ((h | rfl) | rfl) | rfl
  · have hZ : 'Z'.val.toNat = 90 := rfl
    have hz : 'z'.val.toNat = 122 := rfl
    have h9 : '9'.val.toNat = 57 := rfl
    omega
  all_goals decide

/-! ### Docker names -/

/-- `s.replace(/[^a-zA-Z0-9][^a-zA-Z0-9_.-]*/g, "_")`; in a match the characters that are none of
    a name are passed over. -/
def replaceRuns : Bool → List Char → List Char
  | _, [] => []
  | inMatch, c :: cs =>
    if c.isAlphanum then c :: replaceRuns false cs
    else if inMatch && !isEngineNameChar c then replaceRuns true cs
    else '_' :: replaceRuns true cs

/-- `s.replace(/^_+|_+$/g, "")`. -/
def trimUnderscores (cs : List Char) : List Char :=
  ((cs.dropWhile (· = '_')).reverse.dropWhile (· = '_')).reverse

/-- The characters of `sanitizeDockerName`. -/
def sanitizeDockerChars (value : List Char) (maxLength : ℕ) : List Char :=
  let name := (trimUnderscores (replaceRuns false value)).take maxLength
  if name = [] then "restore".toList else name

def sanitizeDockerName (value : String) (maxLength : ℕ) : String :=
  String.ofList (sanitizeDockerChars value.toList maxLength)

/-- The first eight units of the id without its dashes. -/
def shortRestoreId (recoveryPointId : String) : List Char :=
  takeUnits 8 (recoveryPointId.toList.filter (· ≠ '-'))

/-- Every character that is no letter and no digit starts a match that is removed. -/
def buildCloneRestoreProjectName (originalProjectName recoveryPointId : String) : String :=
  let suffix := "-restore-".toList ++ shortRestoreId recoveryPointId
  let maxBase := max 1 (80 - (unitChars suffix).length)
  let letters := takeUnits maxBase
    ((originalProjectName.toList.filter Char.isAlphanum).map Char.toLower)
  let rest := (takeUnits maxBase originalProjectName.toList).filter fun c =>
    c.isLower || c.isDigit || c = '_' || c = '-'
  let base := if letters ≠ [] then letters else if rest ≠ [] then rest else "app".toList
  String.ofList (takeUnits 80 (base ++ suffix))

def buildCloneVolumeName (originalVolumeName restoreProjectName : String) : String :=
  let suffix := '_' :: sanitizeDockerChars originalVolumeName.toList 120
  String.ofList (sanitizeDockerChars restoreProjectName.toList (max 1 (255 - suffix.length))
    ++ suffix)

def composeVolumeNameFromEngineName (engineVolumeName : String)
    (sourceProjectName : Option String) : String :=
  if truthy sourceProjectName then
    let front := sourceProjectName.getD "" ++ "_"
    if startsWith engineVolumeName front ∧ engineVolumeName ≠ front then
      dropChars front.toList.length engineVolumeName
    else engineVolumeName
  else engineVolumeName

def buildComposeProjectVolumeName (projectName composeVolumeName : String) : String :=
  let name := (replaceUnsafe composeVolumeName.toList).take 120
  let suffix := '_' :: if name = [] then "data".toList else name
  let project := (replaceUnsafe projectName.toList).take (max 1 (255 - suffix.length))
  String.ofList ((if project = [] then "restore".toList else project) ++ suffix)

/-! ### Lengths -/

theorem length_replaceRuns (inMatch : Bool) (cs : List Char) :
    (replaceRuns inMatch cs).length ≤ cs.length := by
  induction cs generalizing inMatch with
  | nil => cases inMatch <;> exact Nat.le_refl _
  | cons c cs ih =>
    have hfalse := ih false
    have htrue := ih true
    rw [replaceRuns, List.length_cons]
    split
    · rw [List.length_cons]
      omega
    · split
      · omega
      · rw [List.length_cons]
        omega

theorem mem_replaceRuns {inMatch : Bool} {cs : List Char} {c : Char}
    (h : c ∈ replaceRuns inMatch cs) : isEngineNameChar c = true := by
  induction cs generalizing inMatch with
  | nil => cases inMatch <;> cases h
  | cons d cs ih =>
    rw [replaceRuns] at h
    by_cases hd : d.isAlphanum = true
    · rw [if_pos hd] at h
      rcases List.mem_cons.mp h with rfl | h
      · rw [isEngineNameChar, hd]
        rfl
      · exact ih h
    · rw [if_neg hd] at h
      by_cases hskip : (inMatch && !isEngineNameChar d) = true
      · rw [if_pos hskip] at h
        exact ih h
      · rw [if_neg hskip] at h
        rcases List.mem_cons.mp h with rfl | h
        · decide
        · exact ih h

theorem trimUnderscores_sublist (cs : List Char) : (trimUnderscores cs).Sublist cs := by
  rw [trimUnderscores, ← List.reverse_sublist, List.reverse_reverse]
  exact (List.dropWhile_sublist _).trans (List.reverse_sublist.mpr (List.dropWhile_sublist _))

/-- The sanitized name as it is before it is cut. -/
theorem sanitizeDockerChars_of_length {cs : List Char} {n m : ℕ} (hn : cs.length ≤ n)
    (hm : cs.length ≤ m) : sanitizeDockerChars cs n = sanitizeDockerChars cs m := by
  have hlength : (trimUnderscores (replaceRuns false cs)).length ≤ cs.length :=
    Nat.le_trans (trimUnderscores_sublist _).length_le (length_replaceRuns false cs)
  rw [sanitizeDockerChars, sanitizeDockerChars, List.take_of_length_le (by omega),
    List.take_of_length_le (by omega)]

theorem length_sanitizeDockerChars (cs : List Char) {n : ℕ} (h : 7 ≤ n) :
    (sanitizeDockerChars cs n).length ≤ n := by
  rw [sanitizeDockerChars]
  split
  · exact h
  · exact List.length_take_le _ _

theorem mem_sanitizeDockerChars {cs : List Char} {n : ℕ} {c : Char}
    (h : c ∈ sanitizeDockerChars cs n) : isEngineNameChar c = true := by
  rw [sanitizeDockerChars] at h
  split at h
  · have hall : "restore".toList.all isEngineNameChar = true := by decide
    exact List.all_eq_true.mp hall c h
  · exact mem_replaceRuns ((trimUnderscores_sublist _).subset (List.mem_of_mem_take h))

theorem length_unitChars_sanitize (cs : List Char) {n : ℕ} (h : 7 ≤ n) :
    (unitChars (sanitizeDockerChars cs n)).length ≤ n := by
  rw [unitChars_of_forall fun c hc => unitCount_isEngineNameChar (mem_sanitizeDockerChars hc)]
  exact length_sanitizeDockerChars cs h

/-- The name of a clone has at most 80 units. -/
theorem length_cloneRestoreProjectName (originalProjectName recoveryPointId : String) :
    (unitChars (buildCloneRestoreProjectName originalProjectName recoveryPointId).toList).length
      ≤ 80 := by
  rw [buildCloneRestoreProjectName, String.toList_ofList]
  exact length_unitChars_takeUnits 80 _

/-! ### Names of volumes in one namespace -/

/-- A namespace that is short enough is not cut for any volume. -/
theorem buildCloneVolumeName_eq {restoreProjectName : String}
    (h : (unitChars restoreProjectName.toList).length ≤ 80) (originalVolumeName : String) :
    (buildCloneVolumeName originalVolumeName restoreProjectName).toList =
      sanitizeDockerChars restoreProjectName.toList 80
        ++ '_' :: sanitizeDockerChars originalVolumeName.toList 120 := by
  have hlength := Nat.le_trans (length_le_unitChars restoreProjectName.toList) h
  have hsuffix := length_sanitizeDockerChars originalVolumeName.toList (n := 120) (by decide)
  rw [buildCloneVolumeName, String.toList_ofList]
  simp only [List.length_cons]
  rw [sanitizeDockerChars_of_length (m := 80) (by omega) hlength]

/-- `data` for an empty name. -/
def composeNameChars (composeVolumeName : String) : List Char :=
  let name := (replaceUnsafe composeVolumeName.toList).take 120
  if name = [] then "data".toList else name

theorem length_composeNameChars (composeVolumeName : String) :
    (composeNameChars composeVolumeName).length ≤ 120 := by
  rw [composeNameChars]
  split
  · decide
  · exact List.length_take_le _ _

theorem buildComposeProjectVolumeName_eq {projectName : String}
    (h : (unitChars projectName.toList).length ≤ 80) (composeVolumeName : String) :
    (buildComposeProjectVolumeName projectName composeVolumeName).toList =
      (if replaceUnsafe projectName.toList = [] then "restore".toList
        else replaceUnsafe projectName.toList) ++ '_' :: composeNameChars composeVolumeName := by
  have hsuffix := length_composeNameChars composeVolumeName
  have hlength : (replaceUnsafe projectName.toList).length ≤ 80 := by
    rwa [replaceUnsafe, List.length_map]
  rw [buildComposeProjectVolumeName, String.toList_ofList]
  simp only [← composeNameChars.eq_1, List.length_cons]
  rw [List.take_of_length_le (by omega)]

theorem replaceUnsafe_ne_nil {cs : List Char} (h : cs ≠ []) : replaceUnsafe cs ≠ [] := by
  rw [replaceUnsafe, Ne, List.map_eq_nil_iff, ← List.length_eq_zero_iff]
  have := length_le_unitChars cs
  have := List.length_pos_iff.mpr h
  omega

/-- The names of two volumes in a namespace are equal exactly when the texts agree so far. -/
theorem buildComposeProjectVolumeName_inj {projectName name name' : String}
    (h : (unitChars projectName.toList).length ≤ 80) (hname : name ≠ "") (hname' : name' ≠ "") :
    buildComposeProjectVolumeName projectName name =
        buildComposeProjectVolumeName projectName name' ↔
      SameUnits 120 name.toList name'.toList := by
  have hchars : ∀ {name : String}, name ≠ "" →
      composeNameChars name = (replaceUnsafe name.toList).take 120 := by
    intro name hname
    refine if_neg ?_
    rw [List.take_eq_nil_iff, not_or]
    exact ⟨by decide, replaceUnsafe_ne_nil (by simpa using hname)⟩
  rw [← String.toList_inj, buildComposeProjectVolumeName_eq h, buildComposeProjectVolumeName_eq h,
    List.append_cancel_left_eq, List.cons.injEq, hchars hname, hchars hname', sameUnits_iff]
  exact and_iff_right rfl

theorem buildCloneVolumeName_inj {restoreProjectName name name' : String}
    (h : (unitChars restoreProjectName.toList).length ≤ 80) :
    buildCloneVolumeName name restoreProjectName = buildCloneVolumeName name' restoreProjectName ↔
      sanitizeDockerName name 120 = sanitizeDockerName name' 120 := by
  rw [← String.toList_inj, buildCloneVolumeName_eq h, buildCloneVolumeName_eq h,
    List.append_cancel_left_eq, List.cons.injEq, sanitizeDockerName, sanitizeDockerName,
    ← String.toList_inj, String.toList_ofList, String.toList_ofList]
  exact and_iff_right rfl

end ComposeBastion
