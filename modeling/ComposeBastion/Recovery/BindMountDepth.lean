import ComposeBastion.Js.Paths
import ComposeBastion.Recovery.BindMounts

namespace ComposeBastion

open Js

/-!
# The deepest bind mount

`resolveRestoredBindMountPath` of `services/recoveryRestoreUtils.ts`, against what it is for: a
mount is looked up in the captured folder that lies closest above it, under any of the names
that Docker Desktop gives a folder.

* `CoversMount`, `Deepest` — the captured folders above a mount, segment by segment;
* `ResolvesToDeepest` — the purpose of the resolution;
* `FoundAbove`, `NamedAsLong` — what the code compares: the length of the shortest name of a folder;
* `LengthFollowsDepth` — no longer name misleads it;
* `resolvesToDeepest_iff` — the purpose is met exactly then.
-/

/-! ### Remaining paths -/

/-- The text of a path below a folder. -/
def relativeText (rest : List (List Char)) : String := String.ofList (['/'].intercalate rest)

/-- The parts of a path that leads down. -/
def LeadsDown (rest : List (List Char)) : Prop := ∀ name ∈ rest, IsName name ∧ '/' ∉ name

instance (rest : List (List Char)) : Decidable (LeadsDown rest) :=
  inferInstanceAs (Decidable (∀ name ∈ rest, _))

/-- The folder `target`, extended by the remaining path. -/
def extendedTarget (target : String) (rest : List (List Char)) : String :=
  if rest = [] then target
  else String.ofList (absoluteText (segments target.toList ++ rest))

theorem LeadsDown.isSegment {rest : List (List Char)} (h : LeadsDown rest) :
    ∀ name ∈ rest, IsSegment name := fun name hname => ⟨(h name hname).1.1, (h name hname).2⟩

theorem leadsDown_append {front back : List (List Char)} (hfront : LeadsDown front)
    (hback : LeadsDown back) : LeadsDown (front ++ back) := by
  intro name hname
  rcases List.mem_append.mp hname with hname | hname
  · exact hfront name hname
  · exact hback name hname

theorem segments_relativeText {rest : List (List Char)} (h : LeadsDown rest) :
    segments (relativeText rest).toList = rest := by
  rw [relativeText, String.toList_ofList, segments_intercalate h.isSegment]

theorem relativeText_ne_empty {rest : List (List Char)} (h : LeadsDown rest) (hne : rest ≠ []) :
    relativeText rest ≠ "" := by
  intro heq
  rw [← segments_relativeText h, heq] at hne
  exact hne rfl

/-- A path that resolves against a directory consists of names. -/
theorem leadsDown_posixResolve (cwd path : String) : LeadsDown (posixResolve cwd path) := by
  intro name hname
  unfold posixResolve at hname
  simp only [List.mem_reverse] at hname
  have hnil : IsStack false [] := ⟨[], by simp, 0, fun _ => rfl, rfl⟩
  obtain ⟨names, hnames, k, hk, hstack⟩ := isStack_foldl hnil
    ((if isAbsolute path then path else cwd ++ "/" ++ path).toList.splitOn '/')
  have hslash : '/' ∉ name := by
    rcases mem_foldl_normalizeSegment hname with hname | hname
    · cases hname
    · exact notMem_of_mem_splitOn hname
  rw [hstack, hk rfl, List.replicate_zero, List.append_nil] at hname
  exact ⟨hnames name hname, hslash⟩

theorem posixResolve_absolute (cwd : String) {path : String} (h : isAbsolute path = true) :
    posixResolve cwd path = resolved path.toList := by
  rw [posixResolve, if_pos h, resolved, isAbsolute_iff.mp h]
  rfl

/-- The path between two lists of segments leads down, or goes up first. -/
theorem relativeSegments_cases (front back : List (List Char)) :
    (∃ rest, back = front ++ rest ∧ relativeSegments front back = rest)
      ∨ ∃ rest, relativeSegments front back = ['.', '.'] :: rest := by
  induction front, back using relativeSegments.induct with
  | case1 name front back ih =>
    rw [relativeSegments, if_pos rfl]
    rcases ih with ⟨rest, hback, hrest⟩ | hup
    · exact .inl ⟨rest, by rw [hback, List.cons_append], hrest⟩
    · exact .inr hup
  | case2 name front other back hne =>
    rw [relativeSegments, if_neg hne]
    exact .inr ⟨_, rfl⟩
  | case3 front back hcons =>
    cases front with
    | nil => exact .inl ⟨back, rfl, by rw [relativeSegments, List.map_nil, List.nil_append]; simp⟩
    | cons name front =>
      cases back with
      | nil => exact .inr ⟨front.map fun _ => ['.', '.'], by simp [relativeSegments]⟩
      | cons other back => exact absurd rfl (hcons name front other back rfl)

theorem relativeSegments_append (front rest : List (List Char)) :
    relativeSegments front (front ++ rest) = rest := by
  induction front with
  | nil =>
    cases rest with
    | nil => rfl
    | cons name rest => rfl
  | cons name front ih => rw [List.cons_append, relativeSegments, if_pos rfl, ih]

/-- The text of a path that goes up is not one that leads down. -/
theorem not_up_relativeText {rest : List (List Char)} (h : LeadsDown rest) (hne : rest ≠ []) :
    relativeText rest ≠ ".." ∧ startsWith (relativeText rest) "../" = false
      ∧ isAbsolute (relativeText rest) = false := by
  have hends := ends_pathText h.isSegment
  rw [pathText, if_neg hne] at hends
  refine ⟨?_, ?_, ?_⟩
  · intro heq
    have hrest := segments_relativeText h
    rw [heq, show segments "..".toList = [['.', '.']] by decide] at hrest
    exact (h ['.', '.'] (hrest ▸ List.mem_singleton_self _)).1.2.2 rfl
  · rw [← Bool.not_eq_true]
    intro hstart
    obtain ⟨back, hback⟩ := List.isPrefixOf_iff_prefix.mp hstart
    have hrest := segments_relativeText h
    rw [← hback, show "../".toList = ['.', '.'] ++ ['/'] by rfl, List.append_assoc,
      List.singleton_append, segments_append, show segments ['.', '.'] = [['.', '.']] by decide]
      at hrest
    exact (h ['.', '.'] (hrest ▸ List.mem_append_left _ (List.mem_singleton_self _))).1.2.2 rfl
  · rw [isAbsolute_eq_false_iff, relativeText, String.toList_ofList]
    exact hends.2.1

/-- **A contained path** leads down. -/
theorem leadsDown_of_containedRelativePath {cwd parent child relative : String}
    (h : containedRelativePath cwd parent child = some relative) (hne : relative ≠ "") :
    ∃ rest, rest ≠ [] ∧ LeadsDown rest ∧ rest <:+ posixResolve cwd (posixNormalize child) ∧
      relative = relativeText rest := by
  unfold containedRelativePath at h
  simp only at h
  split at h
  · exact absurd (Option.some.inj h).symm hne
  · split at h
    · cases h
    · split at h
      · cases h
      · rename_i hdown
        have heq := Option.some.inj h
        simp only [Bool.or_eq_true, decide_eq_true_eq, not_or] at hdown
        rcases relativeSegments_cases (posixResolve cwd (posixNormalize parent))
          (posixResolve cwd (posixNormalize child)) with ⟨rest, hback, hrest⟩ | ⟨rest, hup⟩
        · have hnames := leadsDown_posixResolve cwd (posixNormalize child)
          rw [hback] at hnames
          have htext : relative = relativeText rest := by
            rw [← heq, posixRelative, hrest, relativeText]
          refine ⟨rest, ?_, fun name hname => hnames name (List.mem_append_right _ hname),
            hback ▸ List.suffix_append _ _, htext⟩
          rintro rfl
          exact hne htext
        · -- the path goes up first
          have htext : posixRelative cwd (posixNormalize parent) (posixNormalize child) =
              String.ofList (['/'].intercalate (['.', '.'] :: rest)) := by
            rw [posixRelative, hup]
          rw [htext] at hdown
          by_cases hrest : rest = []
          · rw [hrest] at hdown
            exact absurd rfl hdown.1.1.2
          · rw [List.intercalate_cons_of_ne_nil hrest] at hdown
            exact absurd (by
              rw [startsWith, String.toList_ofList, List.isPrefixOf_iff_prefix]
              exact ⟨['/'].intercalate rest, by simp⟩) hdown.1.2

/-! ### Extended targets -/

/-- A restore target: an absolute path that is normalized. -/
structure IsTarget (target : String) : Prop where
  absolute : isAbsolute target = true
  normalized : posixNormalize target = target

namespace IsTarget

variable {target : String} (h : IsTarget target)
include h

theorem head : target.toList.head? = some '/' := isAbsolute_iff.mp h.absolute

theorem text : target.toList = normalizeChars target.toList := by
  have heq := congrArg String.toList h.normalized
  rw [posixNormalize, String.toList_ofList] at heq
  exact heq.symm

theorem ne_empty : target ≠ "" := by
  rintro rfl
  exact nomatch h.head

theorem segments_eq : segments target.toList = resolved target.toList := by
  rw [h.text, segments_normalizeChars, if_neg fun hnot => hnot.2 h.head, ← h.text]

theorem leadsDown : LeadsDown (segments target.toList) := by
  rw [h.segments_eq]
  exact fun name hname => ⟨isName_of_mem_resolved h.head hname, (isSegment_of_mem_resolved hname).2⟩

/-- A target is the text of its segments, and a trailing slash perhaps. -/
theorem stripTrailingSlashes_eq : (stripTrailingSlashes target).toList =
    if segments target.toList = [] then [] else absoluteText (segments target.toList) := by
  have htext : target = String.ofList (absoluteText (resolved target.toList)
      ++ if resolved target.toList ≠ [] ∧ target.toList.getLast? = some '/' then ['/']
        else []) := by
    rw [← String.toList_inj, String.toList_ofList, ← normalizeChars_absolute h.head, ← h.text]
  have hstrip := congrArg (fun text => (stripTrailingSlashes text).toList) htext
  rw [h.segments_eq]
  refine hstrip.trans ?_
  by_cases hroot : resolved target.toList = []
  · rw [if_pos hroot, if_neg fun hnot => hnot.1 hroot, hroot]
    decide
  · rw [if_neg hroot]
    have hlast := getLast?_absoluteText hroot (h.segments_eq ▸ h.leadsDown.isSegment)
    by_cases htrailing : target.toList.getLast? = some '/'
    · rw [if_pos ⟨hroot, htrailing⟩]
      exact stripTrailingSlashes_concat hlast true
    · rw [if_neg fun hnot => htrailing hnot.2]
      exact stripTrailingSlashes_concat hlast false

variable {rest : List (List Char)} (hrest : LeadsDown rest)
include hrest

/-- `path.posix.join` extends a target by the path that remains. -/
theorem posixJoin_relativeText (hne : rest ≠ []) :
    posixJoin target (relativeText rest) = extendedTarget target rest := by
  have hjoin : (target ++ "/" ++ relativeText rest).toList =
      target.toList ++ '/' :: (relativeText rest).toList := by simp
  have hhead : (target.toList ++ '/' :: (relativeText rest).toList).head? = some '/' := by
    rw [List.head?_append_of_ne_nil _ fun hnil => h.ne_empty (String.toList_eq_nil_iff.mp hnil),
      h.head]
  have hsegments : segments (target.toList ++ '/' :: (relativeText rest).toList) =
      segments target.toList ++ rest := by
    rw [segments_append, segments_relativeText hrest]
  have hresolved : resolved (target.toList ++ '/' :: (relativeText rest).toList) =
      segments target.toList ++ rest := by
    rw [resolved_eq, hsegments,
      foldl_names fun name hname => (leadsDown_append h.leadsDown hrest name hname).1,
      List.append_nil, List.reverse_reverse]
  have hlast : (target.toList ++ '/' :: (relativeText rest).toList).getLast? ≠ some '/' := by
    have hends := ends_pathText hrest.isSegment
    rw [pathText, if_neg hne] at hends
    rw [relativeText, String.toList_ofList, List.getLast?_append_of_ne_nil _ (List.cons_ne_nil _ _),
      List.getLast?_cons_of_ne_nil hends.1]
    exact hends.2.2
  rw [posixJoin, if_neg h.ne_empty, if_neg (relativeText_ne_empty hrest hne), posixNormalize, hjoin,
    normalizeChars_absolute hhead, hresolved, if_neg fun hnot => hlast hnot.2, List.append_nil,
    extendedTarget, if_neg hne]

/-- What remains below a target is found again. -/
theorem containedRelativePath_extendedTarget (cwd : String) (hne : rest ≠ []) :
    containedRelativePath cwd target (extendedTarget target rest) = some (relativeText rest) := by
  have hdown := leadsDown_append h.leadsDown hrest
  have happend : segments target.toList ++ rest ≠ [] := fun hnil =>
    hne (List.append_eq_nil_iff.mp hnil).2
  have htext : (extendedTarget target rest).toList =
      absoluteText (segments target.toList ++ rest) := by
    rw [extendedTarget, if_neg hne, String.toList_ofList]
  have hresolved := resolved_absoluteText hdown
  have hnormalized : posixNormalize (extendedTarget target rest) = extendedTarget target rest := by
    rw [← String.toList_inj, posixNormalize, String.toList_ofList, htext,
      normalizeChars_absolute rfl, hresolved,
      if_neg fun hnot => getLast?_absoluteText happend hdown.isSegment hnot.2, List.append_nil]
  have hdiffer : extendedTarget target rest ≠ target := by
    intro heq
    have hsegments := segments_absoluteText hdown.isSegment
    rw [← htext, heq] at hsegments
    exact hne (List.append_right_eq_self.mp hsegments.symm)
  have hstart : startsWith (extendedTarget target rest) (stripTrailingSlashes target ++ "/") =
      true := by
    rw [startsWith, List.isPrefixOf_iff_prefix, htext, String.toList_append,
      h.stripTrailingSlashes_eq]
    by_cases hroot : segments target.toList = []
    · rw [if_pos hroot, hroot]
      exact ⟨['/'].intercalate rest, rfl⟩
    · rw [if_neg hroot, absoluteText_append hroot hne]
      exact ⟨['/'].intercalate rest, by simp [absoluteText]⟩
  have hrelative : posixRelative cwd target (extendedTarget target rest) = relativeText rest := by
    have hfront : posixResolve cwd target = segments target.toList :=
      (posixResolve_absolute cwd h.absolute).trans h.segments_eq.symm
    have hback : posixResolve cwd (extendedTarget target rest) =
        segments target.toList ++ rest := by
      rw [posixResolve_absolute cwd (isAbsolute_iff.mpr (by rw [htext]; rfl)), htext, hresolved]
    rw [posixRelative, hfront, hback, relativeSegments_append, relativeText]
  obtain ⟨hup, hstartUp, habsolute⟩ := not_up_relativeText hrest hne
  unfold containedRelativePath
  simp only [h.normalized, hnormalized, hdiffer, hstart, hrelative, hup, hstartUp, habsolute,
    relativeText_ne_empty hrest hne, if_false, Bool.not_true, Bool.false_eq_true, Bool.or_false,
    decide_false]

/-- An extended target lies in the target. -/
theorem within_extendedTarget : Within target (extendedTarget target rest) := by
  by_cases hne : rest = []
  · rw [extendedTarget, if_pos hne]
    exact List.prefix_rfl
  · rw [extendedTarget, if_neg hne, Within, String.toList_ofList,
      segments_absoluteText (leadsDown_append h.leadsDown hrest).isSegment]
    exact List.prefix_append _ _

end IsTarget

/-! ### The best matches -/

/-- A match that no match is more specific than. -/
def IsBest (candidates : List BindMountMatch) (m : BindMountMatch) : Prop :=
  m ∈ candidates ∧ ∀ other ∈ candidates, other.specificity ≤ m.specificity

theorem foldl_max_spec (n : ℕ) (lengths : List ℕ) :
    n ≤ lengths.foldl max n ∧ (∀ length ∈ lengths, length ≤ lengths.foldl max n)
      ∧ (lengths.foldl max n = n ∨ lengths.foldl max n ∈ lengths) := by
  induction lengths generalizing n with
  | nil => simp
  | cons length lengths ih =>
    obtain ⟨hstart, hall, hmem⟩ := ih (max n length)
    rw [List.foldl_cons]
    refine ⟨by omega, ?_, ?_⟩
    · intro other hother
      rcases List.mem_cons.mp hother with rfl | hother
      · omega
      · exact hall other hother
    · rcases hmem with heq | hmem
      · rw [heq, List.mem_cons]
        omega
      · exact .inr (List.mem_cons_of_mem length hmem)

/-- The matches that `uniqueBestBindMountMatch` keeps. -/
theorem mem_best {candidates : List BindMountMatch} {m : BindMountMatch} :
    m ∈ candidates.filter (·.specificity = (candidates.map (·.specificity)).foldl max 0)
      ↔ IsBest candidates m := by
  obtain ⟨-, hall, hmem⟩ := foldl_max_spec 0 (candidates.map (·.specificity))
  rw [List.mem_filter, decide_eq_true_eq]
  constructor
  · rintro ⟨hm, hbest⟩
    exact ⟨hm, fun other hother => hbest ▸ hall _ (List.mem_map_of_mem hother)⟩
  · rintro ⟨hm, hmost⟩
    have hle := hall _ (List.mem_map_of_mem (f := (·.specificity)) hm)
    refine ⟨hm, le_antisymm hle ?_⟩
    rcases hmem with hzero | hmem
    · omega
    · obtain ⟨other, hother, heq⟩ := List.mem_map.mp hmem
      rw [← heq]
      exact hmost other hother

theorem exists_isBest {candidates : List BindMountMatch} (hne : candidates ≠ []) :
    ∃ m, IsBest candidates m := by
  obtain ⟨-, hall, hmem⟩ := foldl_max_spec 0 (candidates.map (·.specificity))
  have hattained : ∃ m ∈ candidates,
      m.specificity = (candidates.map (·.specificity)).foldl max 0 := by
    rcases hmem with hzero | hmem
    · obtain ⟨m, hm⟩ := List.exists_mem_of_ne_nil candidates hne
      have hle := hall _ (List.mem_map_of_mem (f := (·.specificity)) hm)
      exact ⟨m, hm, by omega⟩
    · obtain ⟨m, hm, heq⟩ := List.mem_map.mp hmem
      exact ⟨m, hm, heq⟩
  obtain ⟨m, hm, heq⟩ := hattained
  exact ⟨m, mem_best.mp (List.mem_filter.mpr ⟨hm, decide_eq_true heq⟩)⟩

theorem one_lt_length_eraseDups {texts : List String} :
    1 < texts.eraseDups.length ↔ ∃ a ∈ texts, ∃ b ∈ texts, a ≠ b := by
  cases texts with
  | nil => simp
  | cons first texts =>
    rw [List.eraseDups_cons, List.length_cons]
    constructor
    · intro h
      have hne : (texts.filter fun b => !b == first).eraseDups ≠ [] := by
        intro hnil
        rw [hnil] at h
        exact absurd h (by decide)
      obtain ⟨b, hb⟩ := List.exists_mem_of_ne_nil _ hne
      obtain ⟨hmem, hdiffer⟩ := List.mem_filter.mp (List.mem_eraseDups.mp hb)
      exact ⟨first, List.mem_cons_self, b, List.mem_cons_of_mem first hmem,
        fun heq => by simp [heq] at hdiffer⟩
    · rintro ⟨a, ha, b, hb, hne⟩
      -- one of the two is not the first
      have hother : ∃ c ∈ texts, c ≠ first := by
        by_cases hfirst : a = first
        · refine ⟨b, ?_, fun heq => hne (hfirst.trans heq.symm)⟩
          exact (List.mem_cons.mp hb).resolve_left fun heq => hne (hfirst.trans heq.symm)
        · exact ⟨a, (List.mem_cons.mp ha).resolve_left hfirst, hfirst⟩
      obtain ⟨c, hc, hdiffer⟩ := hother
      have hmem : c ∈ (texts.filter fun b => !b == first).eraseDups :=
        List.mem_eraseDups.mpr (List.mem_filter.mpr ⟨hc, by simpa using hdiffer⟩)
      have hpos := List.length_pos_of_mem hmem
      omega

/-- **The best match**: none without candidates, that of the best ones when they agree, and an
    error when they do not. -/
theorem uniqueBestBindMountMatch_cases (candidates : List BindMountMatch) (source : String) :
    (candidates = [] ∧ uniqueBestBindMountMatch candidates source = .ok none)
      ∨ (∃ m, IsBest candidates m
          ∧ (∀ other, IsBest candidates other → other.replacement = m.replacement)
          ∧ uniqueBestBindMountMatch candidates source = .ok (some m.replacement))
      ∨ (∃ m other, IsBest candidates m ∧ IsBest candidates other
          ∧ m.replacement ≠ other.replacement
          ∧ ∃ error, uniqueBestBindMountMatch candidates source = .error error) := by
  unfold uniqueBestBindMountMatch
  simp only
  by_cases hdup : 1 < ((candidates.filter
      (·.specificity = (candidates.map (·.specificity)).foldl max 0)).map
        (·.replacement)).eraseDups.length
  · rw [if_pos hdup]
    obtain ⟨a, ha, b, hb, hne⟩ := one_lt_length_eraseDups.mp hdup
    obtain ⟨m, hm, rfl⟩ := List.mem_map.mp ha
    obtain ⟨other, hother, rfl⟩ := List.mem_map.mp hb
    exact .inr (.inr ⟨m, other, mem_best.mp hm, mem_best.mp hother, hne, _, rfl⟩)
  · rw [if_neg hdup]
    by_cases hnil : candidates = []
    · subst hnil
      exact .inl ⟨rfl, rfl⟩
    · obtain ⟨best, hbest⟩ := exists_isBest hnil
      cases hhead : (candidates.filter
          (·.specificity = (candidates.map (·.specificity)).foldl max 0)).head? with
      | none =>
        rw [List.head?_eq_none_iff] at hhead
        exact absurd (hhead ▸ mem_best.mpr hbest) List.not_mem_nil
      | some m =>
        have hm := List.mem_of_head? hhead
        refine .inr (.inl ⟨m, mem_best.mp hm, fun other hother => ?_, rfl⟩)
        by_contra hne
        exact hdup (one_lt_length_eraseDups.mpr ⟨other.replacement,
          List.mem_map_of_mem (mem_best.mpr hother), m.replacement, List.mem_map_of_mem hm, hne⟩)

theorem IsBest.congr {candidates candidates' : List BindMountMatch}
    (h : ∀ m, m ∈ candidates ↔ m ∈ candidates') {m : BindMountMatch}
    (hm : IsBest candidates m) : IsBest candidates' m :=
  ⟨(h m).mp hm.1, fun other hother => hm.2 other ((h other).mpr hother)⟩

/-- What comes out of the comparison depends on the matches only, not on their order. -/
theorem uniqueBestBindMountMatch_congr {candidates candidates' : List BindMountMatch}
    (h : ∀ m, m ∈ candidates ↔ m ∈ candidates') (source : String) :
    (uniqueBestBindMountMatch candidates source).toOption =
      (uniqueBestBindMountMatch candidates' source).toOption := by
  have hback : ∀ m, m ∈ candidates' ↔ m ∈ candidates := fun m => (h m).symm
  rcases uniqueBestBindMountMatch_cases candidates' source with
    ⟨hnil, hresult⟩ | ⟨m, hm, hall, hresult⟩ | ⟨m, other, hm, hother, hne, error, hresult⟩
  · have hempty : candidates = [] :=
      List.eq_nil_iff_forall_not_mem.mpr fun m hm => by
        rw [h m, hnil] at hm
        exact List.not_mem_nil hm
    rw [hresult, hempty]
    rfl
  · rcases uniqueBestBindMountMatch_cases candidates source with
      ⟨hnil, -⟩ | ⟨m', hm', -, hresult'⟩ | ⟨m', other', hm', hother', hne', -⟩
    · exact absurd ((hback m).mp hm.1) (hnil ▸ List.not_mem_nil)
    · rw [hresult, hresult', hall m' (hm'.congr h)]
    · exact absurd ((hall m' (hm'.congr h)).trans (hall other' (hother'.congr h)).symm) hne'
  · rcases uniqueBestBindMountMatch_cases candidates source with
      ⟨hnil, -⟩ | ⟨m', -, hall', -⟩ | ⟨-, -, -, -, -, error', hresult'⟩
    · exact absurd ((hback m).mp hm.1) (hnil ▸ List.not_mem_nil)
    · exact absurd ((hall' m (hm.congr hback)).trans (hall' other (hother.congr hback)).symm) hne
    · rw [hresult, hresult']
      rfl

/-! ### What the code compares -/

/-- `artifactSource` is found above `source`, with `rest` between a name of each. -/
def FoundAbove (cwd artifactSource source : String) (rest : List (List Char)) : Prop :=
  LeadsDown rest ∧ ∃ artifactAlias ∈ bindMountPathAliases artifactSource,
    ∃ sourceAlias ∈ bindMountPathAliases source,
      if rest = [] then artifactAlias = sourceAlias
      else containedRelativePath cwd artifactAlias sourceAlias = some (relativeText rest)

/-- The found folders that are compared: those which are the mount itself when there are any, and
    those above it otherwise. -/
structure Compared (cwd source : String) (bindMounts : Record) (entry : String × String)
    (rest : List (List Char)) : Prop where
  mem : entry ∈ bindMounts.entries
  found : FoundAbove cwd entry.1 source rest
  same : rest = [] ∨ ∀ other ∈ bindMounts.entries, ¬ FoundAbove cwd other.1 source []

/-- No name of the folder `long` is shorter than all the names of `short`. -/
def NamedAsLong (short long : String) : Prop :=
  ∀ name ∈ bindMountPathAliases long, ∃ other ∈ bindMountPathAliases short,
    codeUnits other ≤ codeUnits name

instance (short long : String) : Decidable (NamedAsLong short long) :=
  inferInstanceAs (Decidable (∀ name ∈ _, ∃ other ∈ _, _))

theorem foldl_min_spec (n : ℕ) (lengths : List ℕ) :
    lengths.foldl min n ≤ n ∧ (∀ length ∈ lengths, lengths.foldl min n ≤ length)
      ∧ (lengths.foldl min n = n ∨ lengths.foldl min n ∈ lengths) := by
  induction lengths generalizing n with
  | nil => simp
  | cons length lengths ih =>
    obtain ⟨hstart, hall, hmem⟩ := ih (min n length)
    rw [List.foldl_cons]
    refine ⟨by omega, ?_, ?_⟩
    · intro other hother
      rcases List.mem_cons.mp hother with rfl | hother
      · omega
      · exact hall other hother
    · rcases hmem with heq | hmem
      · rw [heq, List.mem_cons]
        omega
      · exact .inr (List.mem_cons_of_mem length hmem)

/-- The specificity of a folder is the length of one of its names, and of none longer than any. -/
theorem bindMountSpecificity_spec (source : String) :
    (∃ name ∈ bindMountPathAliases source, codeUnits name = bindMountSpecificity source)
      ∧ ∀ name ∈ bindMountPathAliases source, bindMountSpecificity source ≤ codeUnits name := by
  have hmem : normalizeBindMountPath source ∈ bindMountPathAliases source := by
    unfold bindMountPathAliases
    simp only [List.mem_eraseDups]
    split <;> simp
  unfold bindMountSpecificity
  cases haliases : bindMountPathAliases source with
  | nil =>
    rw [haliases] at hmem
    cases hmem
  | cons first aliases =>
    obtain ⟨hstart, hall, hattained⟩ := foldl_min_spec (codeUnits first) (aliases.map codeUnits)
    simp only [List.map_cons]
    constructor
    · rcases hattained with heq | hin
      · exact ⟨first, List.mem_cons_self, heq.symm⟩
      · obtain ⟨name, hname, heq⟩ := List.mem_map.mp hin
        exact ⟨name, List.mem_cons_of_mem first hname, heq⟩
    · intro name hname
      rcases List.mem_cons.mp hname with rfl | hname
      · exact hstart
      · exact hall _ (List.mem_map_of_mem hname)

theorem namedAsLong_iff {short long : String} :
    NamedAsLong short long ↔ bindMountSpecificity short ≤ bindMountSpecificity long := by
  obtain ⟨⟨shortName, hshort, hshortEq⟩, hshortLe⟩ := bindMountSpecificity_spec short
  obtain ⟨⟨longName, hlong, hlongEq⟩, hlongLe⟩ := bindMountSpecificity_spec long
  constructor
  · intro h
    obtain ⟨other, hother, hle⟩ := h longName hlong
    have := hshortLe other hother
    omega
  · intro h name hname
    have := hlongLe name hname
    exact ⟨shortName, hshort, by omega⟩

/-- The match of a folder of the map, with the path that remains. -/
def matchAt (entry : String × String) (rest : List (List Char)) : BindMountMatch :=
  ⟨entry.1, extendedTarget entry.2 rest, bindMountSpecificity entry.1⟩

theorem specificity_matchAt (entry : String × String) (rest : List (List Char)) :
    (matchAt entry rest).specificity = bindMountSpecificity entry.1 := by
  simp only [matchAt]

/-- The matches that are compared. -/
def comparedMatches (cwd source : String) (bindMounts : Record) : List BindMountMatch :=
  if aliasMatches source bindMounts = [] then parentMatches cwd source bindMounts
  else aliasMatches source bindMounts

section

variable {cwd source : String} {bindMounts : Record}
  (htargets : ∀ target ∈ bindMounts.values, IsTarget target)

theorem mem_aliasMatches (cwd : String) {m : BindMountMatch} :
    m ∈ aliasMatches source bindMounts ↔
    ∃ entry ∈ bindMounts.entries, FoundAbove cwd entry.1 source [] ∧ m = matchAt entry [] := by
  have hfound : ∀ entry : String × String, FoundAbove cwd entry.1 source [] ↔
      ((bindMountPathAliases entry.1).any (bindMountPathAliases source).contains) = true := by
    intro entry
    simp [FoundAbove, LeadsDown]
  unfold aliasMatches
  rw [List.mem_filterMap]
  constructor
  · rintro ⟨entry, hentry, hm⟩
    simp only at hm
    split at hm
    · rename_i hshared
      exact ⟨entry, hentry, (hfound entry).mpr hshared, (Option.some.inj hm).symm⟩
    · cases hm
  · rintro ⟨entry, hentry, hshared, rfl⟩
    refine ⟨entry, hentry, ?_⟩
    simp only
    rw [if_pos ((hfound entry).mp hshared)]
    rfl

include htargets

theorem mem_parentMatches {m : BindMountMatch} : m ∈ parentMatches cwd source bindMounts ↔
    ∃ entry ∈ bindMounts.entries, ∃ rest, rest ≠ [] ∧ FoundAbove cwd entry.1 source rest
      ∧ m = matchAt entry rest := by
  have htarget : ∀ entry ∈ bindMounts.entries, IsTarget entry.2 := fun entry hentry =>
    htargets entry.2 (List.mem_map_of_mem hentry)
  unfold parentMatches
  rw [List.mem_flatMap]
  constructor
  · rintro ⟨entry, hentry, hm⟩
    obtain ⟨artifactAlias, hartifact, hm⟩ := List.mem_flatMap.mp hm
    obtain ⟨sourceAlias, hsource, hm⟩ := List.mem_filterMap.mp hm
    cases hcontained : containedRelativePath cwd artifactAlias sourceAlias with
    | none => simp [hcontained] at hm
    | some relative =>
      by_cases hempty : relative = ""
      · simp [hcontained, hempty] at hm
      · obtain ⟨rest, hne, hrest, -, rfl⟩ := leadsDown_of_containedRelativePath hcontained hempty
        have hjoin := (htarget entry hentry).posixJoin_relativeText hrest hne
        have hback := (htarget entry hentry).containedRelativePath_extendedTarget hrest cwd hne
        simp only [hcontained, if_neg hempty, hjoin, hback, ne_eq, not_true_eq_false, if_false,
          Option.some.injEq] at hm
        refine ⟨entry, hentry, rest, hne,
          ⟨hrest, artifactAlias, hartifact, sourceAlias, hsource, ?_⟩, hm.symm⟩
        rw [if_neg hne, hcontained]
  · rintro ⟨entry, hentry, rest, hne, ⟨hrest, artifactAlias, hartifact, sourceAlias, hsource,
      hcontained⟩, rfl⟩
    rw [if_neg hne] at hcontained
    have hjoin := (htarget entry hentry).posixJoin_relativeText hrest hne
    have hback := (htarget entry hentry).containedRelativePath_extendedTarget hrest cwd hne
    refine ⟨entry, hentry, List.mem_flatMap.mpr ⟨artifactAlias, hartifact,
      List.mem_filterMap.mpr ⟨sourceAlias, hsource, ?_⟩⟩⟩
    simp only [hcontained, if_neg (relativeText_ne_empty hrest hne), hjoin, hback, ne_eq,
      not_true_eq_false, if_false]
    rfl

theorem mem_comparedMatches {m : BindMountMatch} : m ∈ comparedMatches cwd source bindMounts ↔
    ∃ entry rest, Compared cwd source bindMounts entry rest ∧ m = matchAt entry rest := by
  unfold comparedMatches
  by_cases hnil : aliasMatches source bindMounts = []
  · have hnone : ∀ other ∈ bindMounts.entries, ¬ FoundAbove cwd other.1 source [] := by
      intro other hother hfound
      have hmem := (mem_aliasMatches cwd).mpr ⟨other, hother, hfound, rfl⟩
      exact List.not_mem_nil (hnil ▸ hmem)
    rw [if_pos hnil, mem_parentMatches htargets]
    constructor
    · rintro ⟨entry, hentry, rest, -, hfound, rfl⟩
      exact ⟨entry, rest, ⟨hentry, hfound, .inr hnone⟩, rfl⟩
    · rintro ⟨entry, rest, hcompared, rfl⟩
      refine ⟨entry, hcompared.mem, rest, ?_, hcompared.found, rfl⟩
      rintro rfl
      exact hnone entry hcompared.mem hcompared.found
  · rw [if_neg hnil, mem_aliasMatches cwd]
    constructor
    · rintro ⟨entry, hentry, hfound, rfl⟩
      exact ⟨entry, [], ⟨hentry, hfound, .inl rfl⟩, rfl⟩
    · rintro ⟨entry, rest, hcompared, rfl⟩
      rcases hcompared.same with rfl | hnone
      · exact ⟨entry, hcompared.mem, hcompared.found, rfl⟩
      · obtain ⟨first, hfirst⟩ := List.exists_mem_of_ne_nil _ hnil
        obtain ⟨other, hother, hfound, -⟩ := (mem_aliasMatches cwd).mp hfirst
        exact absurd hfound (hnone other hother)

/-- The best of the compared matches are the folders with the longest names. -/
theorem isBest_comparedMatches {m : BindMountMatch} :
    IsBest (comparedMatches cwd source bindMounts) m
      ↔ ∃ entry rest, Compared cwd source bindMounts entry rest ∧ m = matchAt entry rest ∧
        ∀ other otherRest, Compared cwd source bindMounts other otherRest →
          NamedAsLong other.1 entry.1 := by
  constructor
  · rintro ⟨hm, hmost⟩
    obtain ⟨entry, rest, hcompared, rfl⟩ := (mem_comparedMatches htargets).mp hm
    refine ⟨entry, rest, hcompared, rfl, fun other otherRest hother => ?_⟩
    have hle := hmost (matchAt other otherRest)
      ((mem_comparedMatches htargets).mpr ⟨other, otherRest, hother, rfl⟩)
    rwa [specificity_matchAt, specificity_matchAt, ← namedAsLong_iff] at hle
  · rintro ⟨entry, rest, hcompared, rfl, hlongest⟩
    refine ⟨(mem_comparedMatches htargets).mpr ⟨entry, rest, hcompared, rfl⟩, ?_⟩
    intro m hm
    obtain ⟨other, otherRest, hother, rfl⟩ := (mem_comparedMatches htargets).mp hm
    rw [specificity_matchAt, specificity_matchAt, ← namedAsLong_iff]
    exact hlongest other otherRest hother

/-- A mount whose very path leads nowhere is resolved by the best of the compared matches. -/
theorem resolveRestoredBindMountPath_eq (hsource : bindMounts.lookup source = none) :
    resolveRestoredBindMountPath cwd source bindMounts =
      uniqueBestBindMountMatch (comparedMatches cwd source bindMounts) source := by
  have hnot : ¬ truthy (bindMounts.lookup source) = true := by
    rw [hsource]
    exact Bool.false_ne_true
  unfold resolveRestoredBindMountPath
  simp only [hnot, Bool.false_eq_true, if_false]
  unfold comparedMatches
  rcases uniqueBestBindMountMatch_cases (aliasMatches source bindMounts) source with
    ⟨hnil, hresult⟩ | ⟨m, hm, -, hresult⟩ | ⟨m, -, hm, -, -, error, hresult⟩
  · rw [if_pos hnil, hresult]
    rfl
  · have hmem := mem_values_of_aliasMatches hm.1
    have htruthy : truthy (some m.replacement) = true :=
      truthy_iff.mpr ⟨m.replacement, rfl, (htargets _ hmem).ne_empty⟩
    rw [if_neg (List.ne_nil_of_mem hm.1), hresult]
    simp only
    rw [if_pos htruthy]
  · rw [if_neg (List.ne_nil_of_mem hm.1), hresult]

omit htargets in
/-- A mount that is no key of the map, but named like a property of every object, is taken for
    found. -/
theorem resolveRestoredBindMountPath_inherited (hsource : bindMounts.get source = none)
    {value : String} (hvalue : Record.inherited source = some value) :
    resolveRestoredBindMountPath cwd source bindMounts = .ok (some value) := by
  refine resolveRestoredBindMountPath_exact ((Record.lookup_of_get_eq_none hsource).trans hvalue) ?_
  rintro rfl
  rcases Record.head?_of_inherited hvalue with hhead | hhead <;> cases hhead

/-- The comparison looks at the entries of the map, not at their order. -/
theorem resolveRestoredBindMountPath_perm (hsource : bindMounts.get source = none)
    {reordered : Record} (h : reordered.entries.Perm bindMounts.entries) :
    (resolveRestoredBindMountPath cwd source reordered).toOption =
      (resolveRestoredBindMountPath cwd source bindMounts).toOption := by
  have hreordered : ∀ target ∈ reordered.values, IsTarget target := fun target htarget =>
    htargets target ((h.map Prod.snd).mem_iff.mp htarget)
  have hnone : reordered.get source = none := by
    rw [Record.get, Option.map_eq_none_iff, List.find?_eq_none] at hsource ⊢
    exact fun entry hentry => hsource entry (h.mem_iff.mp hentry)
  cases hinherited : Record.inherited source with
  | some value =>
    rw [resolveRestoredBindMountPath_inherited hnone hinherited,
      resolveRestoredBindMountPath_inherited hsource hinherited]
  | none =>
    have hcompared : ∀ entry rest, Compared cwd source reordered entry rest
        ↔ Compared cwd source bindMounts entry rest := fun entry rest =>
      ⟨fun hc => ⟨h.mem_iff.mp hc.mem, hc.found, hc.same.imp_right fun hnot other hother =>
          hnot other (h.mem_iff.mpr hother)⟩,
        fun hc => ⟨h.mem_iff.mpr hc.mem, hc.found, hc.same.imp_right fun hnot other hother =>
          hnot other (h.mem_iff.mp hother)⟩⟩
    rw [resolveRestoredBindMountPath_eq hreordered
        ((Record.lookup_of_get_eq_none hnone).trans hinherited),
      resolveRestoredBindMountPath_eq htargets
        ((Record.lookup_of_get_eq_none hsource).trans hinherited)]
    apply uniqueBestBindMountMatch_congr
    intro m
    rw [mem_comparedMatches hreordered, mem_comparedMatches htargets]
    simp only [hcompared]

end

/-! ### The deepest folder -/

/-- `rest` leads from the folder `artifactSource` to the mount `source`, by a name of each; it is
    empty when they are one folder. -/
def CoversMount (artifactSource source : String) (rest : List (List Char)) : Prop :=
  LeadsDown rest ∧ ∃ artifactAlias ∈ bindMountPathAliases artifactSource,
    ∃ sourceAlias ∈ bindMountPathAliases source,
      isAbsolute artifactAlias = isAbsolute sourceAlias
        ∧ segments sourceAlias.toList = segments artifactAlias.toList ++ rest

/-- A folder of the map that covers the mount, and none covers it more closely. -/
structure Deepest (source : String) (bindMounts : Record) (entry : String × String)
    (rest : List (List Char)) : Prop where
  mem : entry ∈ bindMounts.entries
  covers : CoversMount entry.1 source rest
  least : ∀ other ∈ bindMounts.entries, ∀ otherRest, CoversMount other.1 source otherRest →
    rest.length ≤ otherRest.length

/-- What the resolution is for: a path that it returns is the target of a deepest folder, extended
    by what remains, and lies in this target; where the deepest folders lead to different paths it
    fails; and the order of the map does not matter. -/
structure ResolvesToDeepest (cwd source : String) (bindMounts : Record) : Prop where
  returned : ∀ path, resolveRestoredBindMountPath cwd source bindMounts = .ok (some path) →
    ∃ entry rest, Deepest source bindMounts entry rest ∧ path = extendedTarget entry.2 rest
      ∧ Within entry.2 path
  ambiguous : ∀ entry rest other otherRest, Deepest source bindMounts entry rest →
    Deepest source bindMounts other otherRest →
    extendedTarget entry.2 rest ≠ extendedTarget other.2 otherRest →
    ∃ error, resolveRestoredBindMountPath cwd source bindMounts = .error error
  order : ∀ reordered : Record, reordered.entries.Perm bindMounts.entries →
    (resolveRestoredBindMountPath cwd source reordered).toOption =
      (resolveRestoredBindMountPath cwd source bindMounts).toOption

/-- No longer name misleads the resolution.

* `notInherited` — the mount is not named like a property of every object;
* `found` — a found folder leads where all the deepest folders do, or else a found folder with a
  name at least as long leads elsewhere, such as a deepest one;
* `seen` — where the deepest folders lead to different paths, some folder is found. -/
structure LengthFollowsDepth (cwd source : String) (bindMounts : Record) : Prop where
  notInherited : Record.inherited source = none
  found : ∀ entry rest, Compared cwd source bindMounts entry rest →
    (∃ deepest deepestRest, Deepest source bindMounts deepest deepestRest) ∧
        (∀ deepest deepestRest, Deepest source bindMounts deepest deepestRest →
          extendedTarget entry.2 rest = extendedTarget deepest.2 deepestRest) ∨
      ∃ other otherRest, Compared cwd source bindMounts other otherRest ∧
        NamedAsLong entry.1 other.1 ∧
        extendedTarget other.2 otherRest ≠ extendedTarget entry.2 rest
  seen : ∀ deepest deepestRest other otherRest, Deepest source bindMounts deepest deepestRest →
    Deepest source bindMounts other otherRest →
    extendedTarget deepest.2 deepestRest ≠ extendedTarget other.2 otherRest →
    ∃ entry rest, Compared cwd source bindMounts entry rest

theorem IsTarget.head?_extendedTarget {target : String} (h : IsTarget target)
    (rest : List (List Char)) : (extendedTarget target rest).toList.head? = some '/' := by
  unfold extendedTarget
  split
  · exact h.head
  · rw [String.toList_ofList]
    rfl

section

variable {cwd source : String} {bindMounts : Record}
  (htargets : ∀ target ∈ bindMounts.values, IsTarget target)
include htargets

/-- When the condition holds and the best matches agree, they lead where the deepest folders do. -/
theorem LengthFollowsDepth.best_deepest (h : LengthFollowsDepth cwd source bindMounts)
    {m : BindMountMatch} (hm : IsBest (comparedMatches cwd source bindMounts) m)
    (hall : ∀ other, IsBest (comparedMatches cwd source bindMounts) other →
      other.replacement = m.replacement) :
    (∃ deepest deepestRest, Deepest source bindMounts deepest deepestRest) ∧
      ∀ deepest deepestRest, Deepest source bindMounts deepest deepestRest →
        m.replacement = extendedTarget deepest.2 deepestRest := by
  obtain ⟨entry, rest, hcompared, rfl, hlongest⟩ := (isBest_comparedMatches htargets).mp hm
  rcases h.found entry rest hcompared with hdeepest | ⟨other, otherRest, hother, hlong, hne⟩
  · exact hdeepest
  · -- a name that is as long as the longest is one of the longest
    refine absurd (hall (matchAt other otherRest) ((isBest_comparedMatches htargets).mpr
      ⟨other, otherRest, hother, rfl, fun third thirdRest hthird => ?_⟩)) hne
    exact namedAsLong_iff.mpr ((namedAsLong_iff.mp (hlongest third thirdRest hthird)).trans
      (namedAsLong_iff.mp hlong))

/-- A mount that is resolved to the deepest folder is not misled. -/
theorem ResolvesToDeepest.lengthFollowsDepth (hsource : bindMounts.get source = none)
    (h : ResolvesToDeepest cwd source bindMounts) : LengthFollowsDepth cwd source bindMounts := by
  have hinherited : Record.inherited source = none := by
    by_contra hsome
    obtain ⟨value, hvalue⟩ := Option.ne_none_iff_exists'.mp hsome
    obtain ⟨entry, rest, hdeepest, rfl, -⟩ := h.returned value
      (resolveRestoredBindMountPath_inherited hsource hvalue)
    have hhead := (htargets entry.2 (List.mem_map_of_mem hdeepest.mem)).head?_extendedTarget rest
    rcases Record.head?_of_inherited hvalue with hother | hother
    · rw [hhead] at hother
      exact absurd hother (by decide)
    · rw [hhead] at hother
      exact absurd hother (by decide)
  have hresolve : resolveRestoredBindMountPath cwd source bindMounts =
      uniqueBestBindMountMatch (comparedMatches cwd source bindMounts) source :=
    resolveRestoredBindMountPath_eq htargets
      ((Record.lookup_of_get_eq_none hsource).trans hinherited)
  refine ⟨hinherited, fun entry rest hentry => ?_, ?_⟩
  · by_contra hnot
    rw [not_or] at hnot
    obtain ⟨hleft, hright⟩ := hnot
    have hsame : ∀ m, IsBest (comparedMatches cwd source bindMounts) m →
        m.replacement = extendedTarget entry.2 rest := by
      intro m hm
      obtain ⟨best, bestRest, hbest, rfl, hlongest⟩ := (isBest_comparedMatches htargets).mp hm
      by_contra hne
      exact hright ⟨best, bestRest, hbest, hlongest entry rest hentry, hne⟩
    rcases uniqueBestBindMountMatch_cases (comparedMatches cwd source bindMounts) source with
      ⟨hnil, -⟩ | ⟨m, hm, -, hresult⟩ | ⟨m, other, hm, hother, hne, -⟩
    · have hmem := (mem_comparedMatches htargets).mpr ⟨entry, rest, hentry, rfl⟩
      rw [hnil] at hmem
      cases hmem
    · have hok := hresolve.trans hresult
      obtain ⟨deepest, deepestRest, hdeepest, hpath, -⟩ := h.returned m.replacement hok
      refine hleft ⟨⟨deepest, deepestRest, hdeepest⟩, fun other otherRest hother => ?_⟩
      rw [← hsame m hm, hpath]
      by_contra hne
      obtain ⟨error, herror⟩ := h.ambiguous deepest deepestRest other otherRest hdeepest hother hne
      rw [hok] at herror
      cases herror
    · exact hne ((hsame m hm).trans (hsame other hother).symm)
  · intro deepest deepestRest other otherRest hdeepest hother hne
    obtain ⟨error, herror⟩ := h.ambiguous deepest deepestRest other otherRest hdeepest hother hne
    cases hmatches : comparedMatches cwd source bindMounts with
    | nil =>
      rw [hresolve, hmatches] at herror
      cases herror
    | cons m rest =>
      obtain ⟨entry, entryRest, hentry, -⟩ := (mem_comparedMatches htargets).mp
        (hmatches ▸ List.mem_cons_self : m ∈ comparedMatches cwd source bindMounts)
      exact ⟨entry, entryRest, hentry⟩

/-- A mount that is not misled is resolved to the deepest folder. -/
theorem LengthFollowsDepth.resolvesToDeepest (hsource : bindMounts.get source = none)
    (h : LengthFollowsDepth cwd source bindMounts) : ResolvesToDeepest cwd source bindMounts := by
  have hresolve : resolveRestoredBindMountPath cwd source bindMounts =
      uniqueBestBindMountMatch (comparedMatches cwd source bindMounts) source :=
    resolveRestoredBindMountPath_eq htargets
      ((Record.lookup_of_get_eq_none hsource).trans h.notInherited)
  refine ⟨fun path hok => ?_, fun deepest deepestRest other otherRest hdeepest hother hne => ?_,
    fun reordered hperm => resolveRestoredBindMountPath_perm htargets hsource hperm⟩
  · rw [hresolve] at hok
    rcases uniqueBestBindMountMatch_cases (comparedMatches cwd source bindMounts) source with
      ⟨-, hresult⟩ | ⟨m, hm, hall, hresult⟩ | ⟨-, -, -, -, -, error, hresult⟩
    · rw [hresult] at hok
      cases hok
    · rw [hresult] at hok
      obtain rfl := Option.some.inj (Except.ok.inj hok)
      obtain ⟨⟨deepest, deepestRest, hdeepest⟩, hpath⟩ := h.best_deepest htargets hm hall
      have heq := hpath deepest deepestRest hdeepest
      have htarget := htargets deepest.2 (List.mem_map_of_mem hdeepest.mem)
      refine ⟨deepest, deepestRest, hdeepest, heq, ?_⟩
      rw [heq]
      exact htarget.within_extendedTarget hdeepest.covers.1
    · rw [hresult] at hok
      cases hok
  · obtain ⟨entry, rest, hentry⟩ := h.seen deepest deepestRest other otherRest hdeepest hother hne
    rcases uniqueBestBindMountMatch_cases (comparedMatches cwd source bindMounts) source with
      ⟨hnil, -⟩ | ⟨m, hm, hall, -⟩ | ⟨-, -, -, -, -, error, hresult⟩
    · have hmem := (mem_comparedMatches htargets).mpr ⟨entry, rest, hentry, rfl⟩
      rw [hnil] at hmem
      cases hmem
    · obtain ⟨-, hpath⟩ := h.best_deepest htargets hm hall
      exact absurd ((hpath deepest deepestRest hdeepest).symm.trans (hpath other otherRest hother))
        hne
    · exact ⟨error, hresolve.trans hresult⟩

end

/-- The folder `/etc` of a Mac, which is `/private/etc` as well, and the root. -/
def macFolders : Record := ⟨[("/", "/r/root"), ("/etc", "/r/etc")], by decide⟩

theorem isTarget_macFolders : ∀ target ∈ macFolders.values, IsTarget target := by
  intro target htarget
  have hcases : target = "/r/root" ∨ target = "/r/etc" := by
    simpa [macFolders, Record.values] using htarget
  rcases hcases with rfl | rfl
  · exact ⟨by decide, by decide⟩
  · exact ⟨by decide, by decide⟩

theorem mem_macFolders {entry : String × String} (h : entry ∈ macFolders.entries) :
    entry = ("/", "/r/root") ∨ entry = ("/etc", "/r/etc") := by
  simpa [macFolders] using h

theorem mem_aliases_app {name : String} (h : name ∈ bindMountPathAliases "/private/etc/app") :
    name = "/private/etc/app" ∨ name = "/etc/app" := by
  rw [show bindMountPathAliases "/private/etc/app" = ["/private/etc/app", "/etc/app"] by decide]
    at h
  simpa using h

/-- `/etc` covers the mount as `/etc/app`, and the root covers it from further up. -/
theorem coversMount_macFolders {entry : String × String} (hmem : entry ∈ macFolders.entries)
    {rest : List (List Char)} (h : CoversMount entry.1 "/private/etc/app" rest) :
    entry = ("/etc", "/r/etc") ∧ rest = [['a', 'p', 'p']] ∨ 2 ≤ rest.length := by
  obtain ⟨-, artifactAlias, hartifact, sourceAlias, hsource, -, hsegments⟩ := h
  rcases mem_macFolders hmem with rfl | rfl
  · obtain rfl : artifactAlias = "/" := List.mem_singleton.mp hartifact
    rw [show segments "/".toList = [] by decide, List.nil_append] at hsegments
    rw [← hsegments]
    right
    rcases mem_aliases_app hsource with rfl | rfl <;> decide
  · obtain rfl : artifactAlias = "/etc" := List.mem_singleton.mp hartifact
    rw [show segments "/etc".toList = [['e', 't', 'c']] by decide, List.singleton_append]
      at hsegments
    left
    rcases mem_aliases_app hsource with rfl | rfl
    · exact absurd (List.cons.inj hsegments).1 (by decide)
    · exact ⟨rfl, (List.cons.inj hsegments).2.symm⟩

theorem deepest_macFolders :
    Deepest "/private/etc/app" macFolders ("/etc", "/r/etc") [['a', 'p', 'p']] := by
  refine ⟨by decide, ⟨by decide, "/etc", by decide, "/etc/app", by decide, by decide⟩, ?_⟩
  intro other hother otherRest hcovers
  rcases coversMount_macFolders hother hcovers with ⟨-, rfl⟩ | hlength
  · exact le_rfl
  · rw [List.length_singleton]
    omega

theorem lengthFollowsDepth_macFolders :
    LengthFollowsDepth "/" "/private/etc/app" macFolders := by
  have hnone : ∀ entry ∈ macFolders.entries, ¬ FoundAbove "/" entry.1 "/private/etc/app" [] := by
    rintro entry hentry ⟨-, artifactAlias, hartifact, sourceAlias, hsource, rfl⟩
    rcases mem_macFolders hentry with rfl | rfl
    · obtain rfl : artifactAlias = "/" := List.mem_singleton.mp hartifact
      exact absurd hsource (by decide)
    · obtain rfl : artifactAlias = "/etc" := List.mem_singleton.mp hartifact
      exact absurd hsource (by decide)
  have hetc : Compared "/" "/private/etc/app" macFolders ("/etc", "/r/etc") [['a', 'p', 'p']] :=
    ⟨by decide, ⟨by decide, "/etc", by decide, "/etc/app", by decide, by decide⟩, .inr hnone⟩
  refine ⟨by decide, fun entry rest hentry => ?_, fun _ _ _ _ _ _ _ => ⟨_, _, hetc⟩⟩
  obtain ⟨hrest, artifactAlias, hartifact, sourceAlias, hsource, hcontained⟩ := hentry.found
  have hne : rest ≠ [] := by
    rintro rfl
    exact hnone entry hentry.mem hentry.found
  rw [if_neg hne] at hcontained
  rcases mem_macFolders hentry.mem with rfl | rfl
  · -- the root has the shorter name and leads elsewhere
    right
    refine ⟨_, _, hetc, by decide, ?_⟩
    rw [show extendedTarget "/r/etc" [['a', 'p', 'p']] = "/r/etc/app" by decide]
    intro heq
    have hwithin := (isTarget_macFolders "/r/root" (by decide)).within_extendedTarget hrest
    rw [← heq] at hwithin
    exact absurd hwithin (by decide)
  · left
    obtain rfl : artifactAlias = "/etc" := List.mem_singleton.mp hartifact
    have hrelative : rest = [['a', 'p', 'p']] := by
      rw [← segments_relativeText hrest]
      rcases mem_aliases_app hsource with rfl | rfl
      · rw [show containedRelativePath "/" "/etc" "/private/etc/app" = none by decide]
          at hcontained
        cases hcontained
      · rw [show containedRelativePath "/" "/etc" "/etc/app" = some "app" by decide] at hcontained
        rw [← Option.some.inj hcontained]
        decide
    refine ⟨⟨_, _, deepest_macFolders⟩, fun deepest deepestRest hdeepest => ?_⟩
    have hleast := hdeepest.least ("/etc", "/r/etc") (by decide) _ deepest_macFolders.covers
    rcases coversMount_macFolders hdeepest.mem hdeepest.covers with ⟨rfl, rfl⟩ | hlength
    · rw [hrelative]
    · rw [List.length_singleton] at hleast
      omega

/-- The folder `/etc` of a Mac and the folder `/private` above it. -/
def privateFolders : Record := ⟨[("/private", "/r/private"), ("/etc", "/r/etc")], by decide⟩

theorem isTarget_privateFolders : ∀ target ∈ privateFolders.values, IsTarget target := by
  intro target htarget
  have hcases : target = "/r/private" ∨ target = "/r/etc" := by
    simpa [privateFolders, Record.values] using htarget
  rcases hcases with rfl | rfl
  · exact ⟨by decide, by decide⟩
  · exact ⟨by decide, by decide⟩

end ComposeBastion
