import ComposeBastion.Js.Record
import Mathlib.Data.List.Infix

namespace ComposeBastion.Js

/-!
# Segments of a path

What `path.posix.normalize` does to the segments of a path, which later proofs use in place of
its text.

* `segments` — the parts of a path between slashes that are not empty;
* `resolved` — the segments that the scan of `normalize` leaves;
* `segments_normalizeChars` — a normalized path has these segments;
* `normalizeChars_relative` — the text of a relative path that is normalized;
* `Within` — a path is a folder or lies in it, segment by segment;
* `noBlankEnds` — no name in a path ends with a blank.
-/

/-- The parts of a path that are not empty. -/
def segments (path : List Char) : List (List Char) := (path.splitOn '/').filter (· ≠ [])

/-- The segments of `path.posix.normalize(path)`. -/
def resolved (path : List Char) : List (List Char) :=
  ((path.splitOn '/').foldl (normalizeSegment (path.head? != some '/')) []).reverse

/-- A text that can stand between slashes. -/
def IsSegment (segment : List Char) : Prop := segment ≠ [] ∧ '/' ∉ segment

/-- `path` is the folder `parent` or lies in it. -/
def Within (parent path : String) : Prop := segments parent.toList <+: segments path.toList

instance (parent path : String) : Decidable (Within parent path) :=
  inferInstanceAs (Decidable (_ <+: _))

/-- `path` lies in the folder `parent`. -/
def StrictlyWithin (parent path : String) : Prop :=
  ∃ rest, rest ≠ [] ∧ segments path.toList = segments parent.toList ++ rest

/-! ### Segments -/

theorem segments_nil : segments [] = [] := rfl

theorem segments_append (front back : List Char) :
    segments (front ++ '/' :: back) = segments front ++ segments back := by
  rw [segments, List.splitOn_append_cons_self, List.filter_append]
  rfl

theorem segments_slash (back : List Char) : segments ('/' :: back) = segments back :=
  segments_append [] back

theorem segments_of_isSegment {segment : List Char} (h : IsSegment segment) :
    segments segment = [segment] := by
  rw [segments, List.splitOn_eq_singleton h.2, List.filter_cons_of_pos (by simpa using h.1),
    List.filter_nil]

/-- The segments of a text that is put together of segments. -/
theorem segments_intercalate {parts : List (List Char)} (h : ∀ part ∈ parts, IsSegment part) :
    segments (['/'].intercalate parts) = parts := by
  induction parts with
  | nil => rfl
  | cons part parts ih =>
    have hpart := segments_of_isSegment (h part List.mem_cons_self)
    have hparts := ih fun other hother => h other (List.mem_cons_of_mem part hother)
    cases parts with
    | nil => rw [List.intercalate_singleton, hpart]
    | cons next parts =>
      rw [List.intercalate_cons_cons, List.append_assoc, List.singleton_append, segments_append,
        hpart, hparts]
      rfl

theorem intercalate_append {front back : List (List Char)} (hfront : front ≠ [])
    (hback : back ≠ []) :
    ['/'].intercalate (front ++ back) =
      ['/'].intercalate front ++ '/' :: ['/'].intercalate back := by
  induction front with
  | nil => exact absurd rfl hfront
  | cons part front ih =>
    by_cases hrest : front = []
    · subst hrest
      rw [List.singleton_append, List.intercalate_cons_of_ne_nil hback,
        List.intercalate_singleton, List.append_assoc]
      rfl
    · rw [List.cons_append, List.intercalate_cons_of_ne_nil (by simp [hrest]), ih hrest,
        List.intercalate_cons_of_ne_nil hrest]
      simp only [List.append_assoc]

theorem notMem_of_mem_splitOn {separator : Char} {text part : List Char}
    (h : part ∈ text.splitOn separator) : separator ∉ part := by
  induction text generalizing part with
  | nil =>
    rw [List.splitOn_nil, List.mem_singleton] at h
    rw [h]
    exact List.not_mem_nil
  | cons c text ih =>
    rw [List.splitOn_cons_eq_if_modifyHead] at h
    by_cases hc : (c == separator) = true
    · rw [if_pos hc] at h
      rcases List.mem_cons.mp h with rfl | h
      · exact List.not_mem_nil
      · exact ih h
    · rw [if_neg hc] at h
      cases hsplit : text.splitOn separator with
      | nil => exact absurd hsplit (List.splitOn_ne_nil _ _)
      | cons first rest =>
        rw [hsplit, List.modifyHead_cons] at h
        rw [hsplit] at ih
        rcases List.mem_cons.mp h with rfl | h
        · rw [List.mem_cons, not_or]
          exact ⟨fun heq => hc (by rw [heq, beq_self_eq_true]), ih List.mem_cons_self⟩
        · exact ih (List.mem_cons_of_mem first h)

theorem isSegment_of_mem_segments {path segment : List Char} (h : segment ∈ segments path) :
    IsSegment segment := by
  obtain ⟨hmem, hne⟩ := List.mem_filter.mp h
  exact ⟨by simpa using hne, notMem_of_mem_splitOn hmem⟩

/-! ### The scan of `normalize` -/

/-- The scan passes over empty parts. -/
theorem foldl_normalizeSegment (allowAboveRoot : Bool) (stack : List (List Char))
    (parts : List (List Char)) :
    parts.foldl (normalizeSegment allowAboveRoot) stack =
      (parts.filter (· ≠ [])).foldl (normalizeSegment allowAboveRoot) stack := by
  induction parts generalizing stack with
  | nil => rfl
  | cons part parts ih =>
    by_cases hpart : part = []
    · subst hpart
      rw [List.filter_cons_of_neg (by simp), List.foldl_cons, ih]
      rfl
    · rw [List.filter_cons_of_pos (by simpa using hpart), List.foldl_cons, List.foldl_cons, ih]

theorem resolved_eq (path : List Char) :
    resolved path =
      ((segments path).foldl (normalizeSegment (path.head? != some '/')) []).reverse := by
  rw [resolved, foldl_normalizeSegment]
  rfl

/-- What is left of the scan is made of parts that were scanned. -/
theorem mem_foldl_normalizeSegment {allowAboveRoot : Bool} {stack parts : List (List Char)}
    {segment : List Char}
    (h : segment ∈ parts.foldl (normalizeSegment allowAboveRoot) stack) :
    segment ∈ stack ∨ segment ∈ parts := by
  induction parts generalizing stack with
  | nil => exact .inl h
  | cons part parts ih =>
    rcases ih h with hmem | hmem
    · have hstep : segment ∈ stack ∨ segment = part := by
        rw [normalizeSegment.eq_def] at hmem
        split at hmem
        · exact .inl hmem
        · split at hmem
          · split at hmem
            · split at hmem
              · exact (List.mem_cons.mp hmem).symm
              · exact .inl (List.mem_cons_of_mem _ hmem)
            · split at hmem
              · exact .inr (List.mem_singleton.mp hmem)
              · cases hmem
          · exact (List.mem_cons.mp hmem).symm
      rcases hstep with hstack | rfl
      · exact .inl hstack
      · exact .inr List.mem_cons_self
    · exact .inr (List.mem_cons_of_mem part hmem)

theorem isSegment_of_mem_resolved {path segment : List Char} (h : segment ∈ resolved path) :
    IsSegment segment := by
  rw [resolved_eq, List.mem_reverse] at h
  rcases mem_foldl_normalizeSegment h with h | h
  · cases h
  · exact isSegment_of_mem_segments h

/-- A segment that is neither `.` nor `..`. -/
def IsName (segment : List Char) : Prop :=
  segment ≠ [] ∧ segment ≠ ['.'] ∧ segment ≠ ['.', '.']

instance (segment : List Char) : Decidable (IsName segment) :=
  inferInstanceAs (Decidable (_ ∧ _ ∧ _))

theorem normalizeSegment_isName {segment : List Char} (h : IsName segment) (allowAboveRoot : Bool)
    (stack : List (List Char)) :
    normalizeSegment allowAboveRoot stack segment = segment :: stack := by
  rw [normalizeSegment.eq_def, if_neg (not_or.mpr ⟨h.1, h.2.1⟩), if_neg h.2.2]

/-- The stack of the scan: names above a number of `..`, of which an absolute path has none. -/
def IsStack (allowAboveRoot : Bool) (stack : List (List Char)) : Prop :=
  ∃ names, (∀ name ∈ names, IsName name) ∧
    ∃ k, (allowAboveRoot = false → k = 0) ∧ stack = names ++ List.replicate k ['.', '.']

theorem isStack_normalizeSegment {allowAboveRoot : Bool} {stack : List (List Char)}
    (h : IsStack allowAboveRoot stack) (segment : List Char) :
    IsStack allowAboveRoot (normalizeSegment allowAboveRoot stack segment) := by
  obtain ⟨names, hnames, k, hk, rfl⟩ := h
  unfold normalizeSegment
  by_cases hskip : segment = [] ∨ segment = ['.']
  · rw [if_pos hskip]
    exact ⟨names, hnames, k, hk, rfl⟩
  · rw [if_neg hskip]
    rw [not_or] at hskip
    by_cases hup : segment = ['.', '.']
    · rw [if_pos hup]
      cases names with
      | cons top names =>
        -- the name on top goes
        have htop := hnames top List.mem_cons_self
        simp only [List.cons_append, if_neg htop.2.2]
        exact ⟨names, fun name hname => hnames name (List.mem_cons_of_mem top hname), k, hk, rfl⟩
      | nil =>
        cases k with
        | zero =>
          simp only [List.nil_append, List.replicate_zero]
          by_cases hallow : allowAboveRoot = true
          · rw [if_pos hallow]
            exact ⟨[], by simp, 1, fun h => absurd (h.symm.trans hallow) (by decide), by rw [hup]; rfl⟩
          · rw [if_neg hallow]
            exact ⟨[], by simp, 0, fun _ => rfl, rfl⟩
        | succ k =>
          simp only [List.nil_append, List.replicate_succ, if_true]
          refine ⟨[], by simp, k + 2, fun h => absurd (hk h) (Nat.succ_ne_zero k), ?_⟩
          rw [hup]
          rfl
    · rw [if_neg hup]
      refine ⟨segment :: names, ?_, k, hk, rfl⟩
      intro name hname
      rcases List.mem_cons.mp hname with rfl | hname
      · exact ⟨hskip.1, hskip.2, hup⟩
      · exact hnames name hname

theorem isStack_foldl {allowAboveRoot : Bool} {stack : List (List Char)}
    (h : IsStack allowAboveRoot stack) (parts : List (List Char)) :
    IsStack allowAboveRoot (parts.foldl (normalizeSegment allowAboveRoot) stack) := by
  induction parts generalizing stack with
  | nil => exact h
  | cons part parts ih => exact ih (isStack_normalizeSegment h part)

/-- **The segments of a normalized path** are some `..`, none in an absolute path, and names. -/
theorem resolved_shape (path : List Char) :
    ∃ k names, resolved path = List.replicate k ['.', '.'] ++ names ∧
      (∀ name ∈ names, IsName name) ∧ (path.head? = some '/' → k = 0) := by
  have hnil : IsStack (path.head? != some '/') [] := ⟨[], by simp, 0, fun _ => rfl, rfl⟩
  obtain ⟨names, hnames, k, hk, hstack⟩ := isStack_foldl hnil (path.splitOn '/')
  refine ⟨k, names.reverse, ?_, fun name hname => hnames name (List.mem_reverse.mp hname), ?_⟩
  · rw [resolved, hstack, List.reverse_append, List.reverse_replicate]
  · intro habsolute
    exact hk (by rw [habsolute]; rfl)

/-- One more segment at the end of a path. -/
theorem resolved_append {path : List Char} (hpath : path ≠ []) {segment : List Char}
    (h : IsSegment segment) :
    resolved (path ++ '/' :: segment) =
      (normalizeSegment (path.head? != some '/') (resolved path).reverse segment).reverse := by
  have hhead : (path ++ '/' :: segment).head? = path.head? := by
    cases path with
    | nil => exact absurd rfl hpath
    | cons c path => rfl
  rw [resolved_eq, hhead, segments_append, segments_of_isSegment h, List.foldl_append,
    resolved_eq, List.reverse_reverse]
  rfl

/-- A trailing slash adds no segment. -/
theorem segments_concat_slash (path : List Char) : segments (path ++ ['/']) = segments path := by
  rw [segments_append, segments_nil, List.append_nil]

theorem segments_stripTrailingSlashes (path : String) :
    segments (stripTrailingSlashes path).toList = segments path.toList := by
  rw [stripTrailingSlashes, String.toList_ofList]
  generalize path.toList = cs
  induction cs using List.reverseRecOn with
  | nil => rfl
  | append_singleton cs c ih =>
    rw [List.reverse_append, List.reverse_singleton, List.singleton_append]
    by_cases hc : c = '/'
    · rw [hc, List.dropWhile_cons_of_pos (by decide), ih, segments_concat_slash]
    · rw [List.dropWhile_cons_of_neg (by simpa using hc), List.reverse_cons, List.reverse_reverse]

/-- `path.posix.dirname(path)`. -/
def posixDirname (path : String) : String :=
  -- the path from its end, without trailing slashes and its last part
  match (path.toList.reverse.dropWhile (· = '/')).dropWhile (· ≠ '/') with
  | [] => if isAbsolute path then "/" else "."
  | _ :: front =>
    if front = [] then "/"
    else if isAbsolute path ∧ front.length = 1 then "//"
    else String.ofList front.reverse

/-! ### Normalized paths -/

/-- `path.posix.join(...parts)`. -/
def posixJoinAll (parts : List String) : String :=
  posixNormalize ("/".intercalate (parts.filter (· ≠ "")))

theorem intercalate_pair (front back : String) :
    "/".intercalate [front, back] = front ++ "/" ++ back := by
  rw [← String.toList_inj]
  simp

/-- **The segments of a normalized path.**  They are what the scan leaves; a relative path of none
    is `.`. -/
theorem segments_normalizeChars (path : List Char) :
    segments (normalizeChars path) =
      if resolved path = [] ∧ path.head? ≠ some '/' then [['.']] else resolved path := by
  have hbody : segments (['/'].intercalate (resolved path)) = resolved path :=
    segments_intercalate fun segment h => isSegment_of_mem_resolved h
  have htrail : ∀ text : List Char, ∀ trailing : Bool,
      segments (text ++ if trailing then ['/'] else []) = segments text := by
    intro text trailing
    cases trailing with
    | false => simp
    | true => rw [if_pos rfl, segments_append, segments_nil, List.append_nil]
  have hdef : normalizeChars path =
      if path = [] then ['.']
      else if ['/'].intercalate (resolved path) = [] then
        if path.head? == some '/' then ['/']
        else if path.getLast? == some '/' then ['.', '/'] else ['.']
      else
        (if path.head? == some '/' then ['/'] else []) ++ ['/'].intercalate (resolved path)
          ++ (if path.getLast? == some '/' then ['/'] else []) := rfl
  have hdot : segments ['.'] = [['.']] := by decide
  rw [hdef]
  by_cases hpath : path = []
  · subst hpath
    decide
  · rw [if_neg hpath]
    by_cases hempty : ['/'].intercalate (resolved path) = []
    · have hresolved : resolved path = [] := by rw [← hbody, hempty, segments_nil]
      rw [if_pos hempty]
      by_cases habsolute : path.head? = some '/'
      · have hslash : (path.head? == some '/') = true := by rw [habsolute]; rfl
        rw [if_pos hslash, hresolved, habsolute]
        decide
      · have hslash : ¬ (path.head? == some '/') = true := by simpa using habsolute
        have hright : (if resolved path = [] ∧ path.head? ≠ some '/' then [['.']]
            else resolved path) = [['.']] := if_pos ⟨hresolved, habsolute⟩
        rw [if_neg hslash, hright]
        split
        · exact (htrail ['.'] true).trans hdot
        · exact hdot
    · have hresolved : resolved path ≠ [] := by
        intro heq
        rw [heq] at hempty
        exact hempty rfl
      have hright : (if resolved path = [] ∧ path.head? ≠ some '/' then [['.']]
          else resolved path) = resolved path := if_neg fun h => hresolved h.1
      rw [if_neg hempty, htrail, hright]
      split
      · exact (segments_slash _).trans hbody
      · exact hbody

/-! ### Relative paths -/

/-- The text of a relative path of these segments. -/
def pathText (names : List (List Char)) : List Char :=
  if names = [] then ['.'] else ['/'].intercalate names

/-- A text that neither starts nor ends with a slash. -/
theorem ends_pathText {names : List (List Char)} (h : ∀ name ∈ names, IsSegment name) :
    pathText names ≠ [] ∧ (pathText names).head? ≠ some '/' ∧
      (pathText names).getLast? ≠ some '/' := by
  have hsegment : ∀ {name : List Char}, IsSegment name →
      name ≠ [] ∧ name.head? ≠ some '/' ∧ name.getLast? ≠ some '/' := fun hname =>
    ⟨hname.1, fun hhead => hname.2 (List.mem_of_head? hhead),
      fun hlast => hname.2 (List.mem_of_getLast? hlast)⟩
  cases names with
  | nil => decide
  | cons name names =>
    rw [pathText, if_neg (List.cons_ne_nil _ _)]
    induction names generalizing name with
    | nil =>
      rw [List.intercalate_singleton]
      exact hsegment (h name List.mem_cons_self)
    | cons next names ih =>
      have hname := hsegment (h name List.mem_cons_self)
      have hrest := ih next fun other hother => h other (List.mem_cons_of_mem name hother)
      rw [List.intercalate_cons_cons, List.append_assoc, List.singleton_append]
      refine ⟨fun hnil => hname.1 (List.append_eq_nil_iff.mp hnil).1, ?_, ?_⟩
      · rw [List.head?_append_of_ne_nil _ hname.1]
        exact hname.2.1
      · rw [List.getLast?_append_of_ne_nil _ (List.cons_ne_nil _ _),
          List.getLast?_cons_of_ne_nil hrest.1]
        exact hrest.2.2

theorem normalizeChars_relative {path : List Char} (hpath : path ≠ [])
    (hrelative : path.head? ≠ some '/') :
    normalizeChars path =
      pathText (resolved path) ++ if path.getLast? = some '/' then ['/'] else [] := by
  have hslash : (path.head? == some '/') = false := beq_eq_false_iff_ne.mpr hrelative
  have hdef : normalizeChars path =
      if path = [] then ['.']
      else if ['/'].intercalate (resolved path) = [] then
        if path.head? == some '/' then ['/']
        else if path.getLast? == some '/' then ['.', '/'] else ['.']
      else
        (if path.head? == some '/' then ['/'] else []) ++ ['/'].intercalate (resolved path)
          ++ (if path.getLast? == some '/' then ['/'] else []) := rfl
  have hempty : ['/'].intercalate (resolved path) = [] ↔ resolved path = [] := by
    constructor
    · intro h
      rw [← segments_intercalate fun segment hmem => isSegment_of_mem_resolved hmem, h,
        segments_nil]
    · intro h
      rw [h]
      rfl
  simp only [hdef, if_neg hpath, hslash, hempty, pathText, beq_iff_eq]
  by_cases hresolved : resolved path = []
  · rw [if_pos hresolved, if_pos hresolved]
    by_cases hlast : path.getLast? = some '/' <;> simp [hlast]
  · rw [if_neg hresolved, if_neg hresolved]
    simp

/-- Names are pushed one by one. -/
theorem foldl_names {names : List (List Char)} (h : ∀ name ∈ names, IsName name)
    (allowAboveRoot : Bool) (stack : List (List Char)) :
    names.foldl (normalizeSegment allowAboveRoot) stack = names.reverse ++ stack := by
  induction names generalizing stack with
  | nil => rfl
  | cons name names ih =>
    rw [List.foldl_cons, normalizeSegment_isName (h name List.mem_cons_self),
      ih fun other hother => h other (List.mem_cons_of_mem name hother), List.reverse_cons,
      List.append_assoc]
    rfl

/-- Steps above the start of a relative path are kept. -/
theorem foldl_replicate_up (k m : ℕ) :
    (List.replicate k ['.', '.']).foldl (normalizeSegment true) (List.replicate m ['.', '.']) =
      List.replicate (m + k) ['.', '.'] := by
  induction k generalizing m with
  | zero => rfl
  | succ k ih =>
    have hstep : normalizeSegment true (List.replicate m ['.', '.']) ['.', '.'] =
        List.replicate (m + 1) ['.', '.'] := by
      cases m with
      | zero => rfl
      | succ m => rfl
    rw [List.replicate_succ, List.foldl_cons, hstep, ih, Nat.add_right_comm, Nat.add_assoc]

/-- Normalizing twice changes no segment. -/
theorem resolved_normalizeChars {path : List Char} (hpath : path ≠ [])
    (hrelative : path.head? ≠ some '/') : resolved (normalizeChars path) = resolved path := by
  have hends := ends_pathText fun name (h : name ∈ resolved path) => isSegment_of_mem_resolved h
  have hhead : ((normalizeChars path).head? != some '/') = true := by
    rw [normalizeChars_relative hpath hrelative, List.head?_append_of_ne_nil _ hends.1]
    exact bne_iff_ne.mpr hends.2.1
  rw [resolved_eq, hhead, segments_normalizeChars]
  obtain ⟨k, names, hresolved, hnames, -⟩ := resolved_shape path
  by_cases hempty : resolved path = []
  · rw [if_pos ⟨hempty, hrelative⟩, hempty]
    rfl
  · rw [if_neg fun h => hempty h.1, hresolved, List.foldl_append]
    have hup := foldl_replicate_up k 0
    rw [List.replicate_zero, Nat.zero_add] at hup
    rw [hup, foldl_names hnames, List.reverse_append, List.reverse_reverse, List.reverse_replicate]

theorem stripTrailingSlashes_concat {text : List Char} (hlast : text.getLast? ≠ some '/')
    (trailing : Bool) :
    (stripTrailingSlashes (String.ofList (text ++ if trailing then ['/'] else []))).toList =
      text := by
  have hkeep : (text.reverse.dropWhile (· = '/')).reverse = text := by
    cases hrev : text.reverse with
    | nil =>
      rw [List.reverse_eq_nil_iff.mp hrev]
      rfl
    | cons c cs =>
      have hc : c ≠ '/' := by
        intro heq
        rw [← List.head?_reverse, hrev, heq] at hlast
        exact hlast rfl
      rw [List.dropWhile_cons_of_neg (by simpa using hc), ← hrev, List.reverse_reverse]
  rw [stripTrailingSlashes, String.toList_ofList, String.toList_ofList]
  cases trailing with
  | false => simpa using hkeep
  | true =>
    rw [if_pos rfl, List.reverse_append, List.reverse_singleton, List.singleton_append,
      List.dropWhile_cons_of_pos (by decide), hkeep]

theorem stripTrailingSlashes_eq_self {path : String} (hlast : path.toList.getLast? ≠ some '/') :
    stripTrailingSlashes path = path := by
  have h := stripTrailingSlashes_concat hlast false
  rw [if_neg Bool.false_ne_true, List.append_nil, String.ofList_toList] at h
  exact String.toList_inj.mp h

theorem getLast?_stripTrailingSlashes (path : String) :
    (stripTrailingSlashes path).toList.getLast? ≠ some '/' := by
  rw [stripTrailingSlashes, String.toList_ofList, List.getLast?_reverse]
  intro hhead
  have hslash := @head?_dropWhile (· = '/') path.toList.reverse '/' hhead
  exact absurd hslash (by decide)

theorem isAbsolute_eq_false_iff {path : String} :
    isAbsolute path = false ↔ path.toList.head? ≠ some '/' := by
  rw [isAbsolute, startsWith]
  cases path.toList with
  | nil => decide
  | cons c cs =>
    rw [show "/".toList = ['/'] from rfl, List.isPrefixOf_cons_cons, List.isPrefixOf_nil_left,
      Bool.and_true, beq_eq_false_iff_ne, List.head?_cons]
    exact ⟨fun hne heq => hne (Option.some.inj heq).symm, fun hne heq => hne (heq ▸ rfl)⟩

/-- The directory of a relative path is relative. -/
theorem posixDirname_relative {path : String} (h : isAbsolute path = false) :
    (posixDirname path).toList ≠ [] ∧ (posixDirname path).toList.head? ≠ some '/' := by
  have hrelative := isAbsolute_eq_false_iff.mp h
  have hsuffix : (path.toList.reverse.dropWhile (· = '/')).dropWhile (· ≠ '/') <:+
      path.toList.reverse :=
    (List.dropWhile_suffix _).trans (List.dropWhile_suffix _)
  rw [posixDirname, h]
  cases hback : (path.toList.reverse.dropWhile (· = '/')).dropWhile (· ≠ '/') with
  | nil => decide
  | cons c front =>
    rw [hback] at hsuffix
    have hprefix : front.reverse ++ [c] <+: path.toList := by
      rw [← List.reverse_cons, ← List.reverse_reverse path.toList]
      exact List.reverse_prefix.mpr hsuffix
    obtain ⟨rest, hrest⟩ := hprefix
    have hc : c = '/' := by
      have hhead := head?_dropWhile (p := (· ≠ '/')) (path.toList.reverse.dropWhile (· = '/'))
      rw [hback] at hhead
      simpa using hhead c rfl
    have hfront : front ≠ [] := by
      intro heq
      rw [heq, hc] at hrest
      exact hrelative (by rw [← hrest]; rfl)
    have hreverse : front.reverse ≠ [] := fun heq => hfront (List.reverse_eq_nil_iff.mp heq)
    simp only [if_neg hfront, Bool.false_eq_true, false_and, if_false, String.toList_ofList]
    refine ⟨hreverse, ?_⟩
    rw [← hrest, List.append_assoc, List.head?_append_of_ne_nil _ hreverse] at hrelative
    exact hrelative

/-! ### Absolute paths -/

/-- The text of the absolute path of these segments. -/
def absoluteText (names : List (List Char)) : List Char := '/' :: ['/'].intercalate names

/-- `path` is absolute, not the root, and all its segments are names. -/
def IsProperPath (path : String) : Prop :=
  ∃ rest, path.toList = '/' :: rest ∧ ∀ segment ∈ rest.splitOn '/', IsName segment

theorem isAbsolute_iff {path : String} :
    isAbsolute path = true ↔ path.toList.head? = some '/' := by
  rw [← Bool.not_eq_false, isAbsolute_eq_false_iff, not_not]

theorem segments_absoluteText {names : List (List Char)} (h : ∀ name ∈ names, IsSegment name) :
    segments (absoluteText names) = names :=
  (segments_slash _).trans (segments_intercalate h)

/-- No segment of a normalized absolute path leads back. -/
theorem isName_of_mem_resolved {path : List Char} (habsolute : path.head? = some '/')
    {name : List Char} (h : name ∈ resolved path) : IsName name := by
  obtain ⟨k, names, hresolved, hnames, hzero⟩ := resolved_shape path
  rw [hresolved, hzero habsolute, List.replicate_zero, List.nil_append] at h
  exact hnames name h

/-- The scan of an absolute path of names keeps them all. -/
theorem resolved_absoluteText {names : List (List Char)}
    (h : ∀ name ∈ names, IsName name ∧ '/' ∉ name) : resolved (absoluteText names) = names := by
  rw [resolved_eq, segments_absoluteText fun name hname => ⟨(h name hname).1.1, (h name hname).2⟩,
    foldl_names fun name hname => (h name hname).1, List.append_nil, List.reverse_reverse]

/-- The last character of an absolute path of segments is not a slash. -/
theorem getLast?_absoluteText {names : List (List Char)} (hne : names ≠ [])
    (h : ∀ name ∈ names, IsSegment name) : (absoluteText names).getLast? ≠ some '/' := by
  have hends := ends_pathText h
  rw [pathText, if_neg hne] at hends
  rw [absoluteText, List.getLast?_cons_of_ne_nil hends.1]
  exact hends.2.2

theorem normalizeChars_absolute {path : List Char} (habsolute : path.head? = some '/') :
    normalizeChars path = absoluteText (resolved path)
      ++ if resolved path ≠ [] ∧ path.getLast? = some '/' then ['/'] else [] := by
  have hslash : (path.head? == some '/') = true := by rw [habsolute]; rfl
  have hpath : path ≠ [] := by
    rintro rfl
    exact nomatch habsolute
  have hdef : normalizeChars path =
      if path = [] then ['.']
      else if ['/'].intercalate (resolved path) = [] then
        if path.head? == some '/' then ['/']
        else if path.getLast? == some '/' then ['.', '/'] else ['.']
      else
        (if path.head? == some '/' then ['/'] else []) ++ ['/'].intercalate (resolved path)
          ++ (if path.getLast? == some '/' then ['/'] else []) := rfl
  have hempty : ['/'].intercalate (resolved path) = [] ↔ resolved path = [] := by
    constructor
    · intro h
      rw [← segments_intercalate fun segment hmem => isSegment_of_mem_resolved hmem, h,
        segments_nil]
    · intro h
      rw [h]
      rfl
  simp only [hdef, if_neg hpath, hslash, hempty, if_true, beq_iff_eq]
  by_cases hresolved : resolved path = []
  · rw [if_pos hresolved, hresolved, if_neg fun h => h.1 rfl]
    rfl
  · rw [if_neg hresolved]
    simp only [ne_eq, hresolved, not_false_eq_true, true_and, absoluteText]
    rfl

/-- A proper path is the text of its segments. -/
theorem isProperPath_iff {path : String} :
    IsProperPath path ↔ ∃ names, names ≠ [] ∧ (∀ name ∈ names, IsName name ∧ '/' ∉ name)
      ∧ path.toList = absoluteText names := by
  constructor
  · rintro ⟨rest, hpath, hnames⟩
    refine ⟨rest.splitOn '/', List.splitOn_ne_nil _ _, fun name hname =>
      ⟨hnames name hname, notMem_of_mem_splitOn hname⟩, ?_⟩
    rw [absoluteText, List.intercalate_splitOn, hpath]
  · rintro ⟨names, hne, hnames, hpath⟩
    refine ⟨['/'].intercalate names, hpath, ?_⟩
    rw [List.splitOn_intercalate '/' (fun name hname => (hnames name hname).2) hne]
    exact fun name hname => (hnames name hname).1

/-- A proper path is its text between segments. -/
theorem IsProperPath.segments_text {path : String} (h : IsProperPath path) :
    segments path.toList ≠ [] ∧ path.toList = absoluteText (segments path.toList)
      ∧ ∀ name ∈ segments path.toList, IsSegment name := by
  obtain ⟨names, hne, hnames, htext⟩ := isProperPath_iff.mp h
  have hsegments : ∀ name ∈ names, IsSegment name := fun name hname =>
    ⟨(hnames name hname).1.1, (hnames name hname).2⟩
  have hsame : segments path.toList = names := by rw [htext, segments_absoluteText hsegments]
  rw [hsame]
  exact ⟨hne, htext, hsegments⟩

theorem IsProperPath.stripTrailingSlashes_eq {path : String} (h : IsProperPath path) :
    stripTrailingSlashes path = path := by
  obtain ⟨hne, htext, hsegments⟩ := h.segments_text
  apply stripTrailingSlashes_eq_self
  rw [htext]
  exact getLast?_absoluteText hne hsegments

/-- A folder of names is a part of the text of what lies in it. -/
theorem absoluteText_append {front back : List (List Char)} (hfront : front ≠ [])
    (hback : back ≠ []) : absoluteText (front ++ back) = absoluteText front ++ absoluteText back := by
  rw [absoluteText, intercalate_append hfront hback]
  simp [absoluteText]

/-! ### Blanks in a path -/

/-- What stands between the names of a path. -/
def isPathSeparator (c : Char) : Bool := c = '/' || c = '\\' || c = ':'

/-- No blank stands at the end of a path or of a name in it. -/
def noBlankEnds : List Char → Bool
  | [] => true
  | c :: rest => (!isWhiteSpace c || rest.head?.any (!isPathSeparator ·)) && noBlankEnds rest

theorem noBlankEnds_append {separator : Char} (h : isPathSeparator separator = true)
    (front back : List Char) :
    noBlankEnds (front ++ separator :: back) = (noBlankEnds front && noBlankEnds back) := by
  have hblank : isWhiteSpace separator = false := by
    simp only [isPathSeparator, Bool.or_eq_true, decide_eq_true_eq] at h
    rcases h with (rfl | rfl) | rfl <;> decide
  induction front with
  | nil => simp [noBlankEnds, hblank]
  | cons c front ih =>
    rw [List.cons_append, noBlankEnds, noBlankEnds, ih, Bool.and_assoc]
    cases front with
    | nil => simp [h]
    | cons d front => rfl

theorem noBlankEnds_slash (front back : List Char) :
    noBlankEnds (front ++ '/' :: back) = (noBlankEnds front && noBlankEnds back) :=
  noBlankEnds_append (by decide) front back

theorem noBlankEnds_of_suffix {front back : List Char} (h : noBlankEnds (front ++ back) = true) :
    noBlankEnds back = true := by
  induction front with
  | nil => exact h
  | cons c front ih =>
    rw [List.cons_append, noBlankEnds, Bool.and_eq_true] at h
    exact ih h.2

theorem noBlankEnds_drop {path : List Char} (n : ℕ) (h : noBlankEnds path = true) :
    noBlankEnds (path.drop n) = true := by
  rw [← List.take_append_drop n path] at h
  exact noBlankEnds_of_suffix h

/-- The part of a path before a colon. -/
theorem noBlankEnds_takeWhile {path : List Char} (h : noBlankEnds path = true) :
    noBlankEnds (path.takeWhile (· ≠ ':')) = true := by
  rcases hback : path.dropWhile (· ≠ ':') with _ | ⟨c, back⟩
  · rwa [← List.takeWhile_append_dropWhile (p := (· ≠ ':')) (l := path), hback,
      List.append_nil] at h
  · have hcolon : c = ':' := by
      have hhead := head?_dropWhile (p := (· ≠ ':')) path c (by rw [hback]; rfl)
      simpa using hhead
    rw [← List.takeWhile_append_dropWhile (p := (· ≠ ':')) (l := path), hback, hcolon,
      noBlankEnds_append (by decide), Bool.and_eq_true] at h
    exact h.1

theorem getLast?_of_noBlankEnds {path : List Char} (h : noBlankEnds path = true) :
    ∀ c ∈ path.getLast?, isWhiteSpace c = false := by
  induction path with
  | nil => simp
  | cons c rest ih =>
    rw [noBlankEnds, Bool.and_eq_true] at h
    cases rest with
    | nil =>
      intro d hd
      obtain rfl : c = d := by simpa using hd
      simpa using h.1
    | cons next rest => exact fun d hd => ih h.2 d (by simpa using hd)

/-- A path without a blank in front, and none at its end, is trimmed. -/
theorem trimChars_of_noBlankEnds {path : List Char} (h : noBlankEnds path = true)
    (hhead : ∀ c ∈ path.head?, isWhiteSpace c = false) : trimChars path = path := by
  have hlast := getLast?_of_noBlankEnds h
  rw [← List.head?_reverse] at hlast
  rw [trimChars, dropWhile_eq_self hhead, dropWhile_eq_self hlast, List.reverse_reverse]

theorem noBlankEnds_intercalate {parts : List (List Char)} :
    noBlankEnds (['/'].intercalate parts) = true ↔ ∀ part ∈ parts, noBlankEnds part = true := by
  induction parts with
  | nil => simp [noBlankEnds]
  | cons part parts ih =>
    rw [List.forall_mem_cons]
    cases parts with
    | nil => simp
    | cons next parts =>
      rw [List.intercalate_cons_cons, List.append_assoc, List.singleton_append, noBlankEnds_slash,
        Bool.and_eq_true, ih]

/-- It is a matter of the segments of a path. -/
theorem noBlankEnds_iff {path : List Char} :
    noBlankEnds path = true ↔ ∀ segment ∈ segments path, noBlankEnds segment = true := by
  have hsplit : ['/'].intercalate (path.splitOn '/') = path := List.intercalate_splitOn '/'
  conv_lhs => rw [← hsplit, noBlankEnds_intercalate]
  constructor
  · exact fun h segment hsegment => h segment (List.mem_filter.mp hsegment).1
  · intro h part hpart
    by_cases hempty : part = []
    · rw [hempty]
      rfl
    · exact h part (List.mem_filter.mpr ⟨hpart, by simpa using hempty⟩)

theorem noBlankEnds_normalizeChars {path : List Char} (h : noBlankEnds path = true) :
    noBlankEnds (normalizeChars path) = true := by
  rw [noBlankEnds_iff] at h ⊢
  rw [segments_normalizeChars]
  intro segment hsegment
  split at hsegment
  · rw [List.mem_singleton.mp hsegment]
    decide
  · rw [resolved_eq, List.mem_reverse] at hsegment
    rcases mem_foldl_normalizeSegment hsegment with hsegment | hsegment
    · cases hsegment
    · exact h segment hsegment

theorem noBlankEnds_forwardSlashes (path : String) :
    noBlankEnds (forwardSlashes path).toList = noBlankEnds path.toList := by
  rw [forwardSlashes, String.toList_ofList]
  induction path.toList with
  | nil => rfl
  | cons c rest ih =>
    have hblank : isWhiteSpace (if c = '\\' then '/' else c) = isWhiteSpace c := by
      split
      next heq => rw [heq]; decide
      · rfl
    have hnext : (rest.map fun d => if d = '\\' then '/' else d).head?.any (!isPathSeparator ·) =
        rest.head?.any (!isPathSeparator ·) := by
      cases rest with
      | nil => rfl
      | cons d rest =>
        by_cases hd : d = '\\'
        · simp [hd, isPathSeparator]
        · simp [hd]
    rw [List.map_cons, noBlankEnds, noBlankEnds, ih, hblank, hnext]

theorem noBlankEnds_stripTrailingSlashes {path : String} (h : noBlankEnds path.toList = true) :
    noBlankEnds (stripTrailingSlashes path).toList = true := by
  rw [noBlankEnds_iff] at h ⊢
  rwa [segments_stripTrailingSlashes]

theorem noBlankEnds_posixResolve {cwd path : String} (hcwd : noBlankEnds cwd.toList = true)
    (hpath : noBlankEnds path.toList = true) :
    ∀ segment ∈ posixResolve cwd path, noBlankEnds segment = true := by
  have habsolute :
      noBlankEnds (if isAbsolute path then path else cwd ++ "/" ++ path).toList = true := by
    split
    · exact hpath
    · have htext : (cwd ++ "/" ++ path).toList = cwd.toList ++ '/' :: path.toList := by simp
      rw [htext, noBlankEnds_slash, hcwd, hpath]
      rfl
  intro segment hsegment
  unfold posixResolve at hsegment
  simp only [List.mem_reverse] at hsegment
  generalize (if isAbsolute path then path else cwd ++ "/" ++ path).toList = full at *
  have hsplit : ['/'].intercalate (full.splitOn '/') = full := List.intercalate_splitOn '/'
  rw [← hsplit, noBlankEnds_intercalate] at habsolute
  rcases mem_foldl_normalizeSegment hsegment with hsegment | hsegment
  · cases hsegment
  · exact habsolute segment hsegment

end ComposeBastion.Js
