import ComposeBastion.Docker.RegistryAuthority

namespace ComposeBastion

open Js

/-!
# Image references

`parseImageReference` and `registryBaseUrl` of `services/registryManifest.ts`.  A reference may
start with a registry and end in a tag and a digest; images of Docker Hub have several spellings.

* `parseImageReference` — the reader, over a parser of URLs;
* `ImageText` — a reference by its parts;
* `parse_chars`, `parse_ok` — the reader finds the parts of a text;
* `image_reference_iff` — when the canonical form is read again, and the spellings of an image of
  Docker Hub agree.
-/

/-! ### The reader -/

structure ParsedImageReference where
  registry : String
  repository : String
  tag : String
  digest : Option String
  reference : String
  canonical : String
  deriving DecidableEq, Repr

def invalidReference {α : Type} (message : String) : Except String α :=
  .error ("Invalid image reference: " ++ message)

def validateRegistryHost (parseUrl : String → Option UrlComponents) (value : String) :
    Except String String :=
  match normalizeRegistryAuthority parseUrl value with
  | .ok authority => .ok authority
  | .error _ => invalidReference "registry host is malformed"

def isComponentStart (c : Char) : Bool := c.isDigit || ('a' ≤ c && c ≤ 'z')

/-- `[._]`, `__` or `-+`. -/
def isNameSeparator (separator : List Char) : Bool :=
  separator = ['.'] || separator = ['_'] || separator = ['_', '_']
    || (separator ≠ [] && separator.all (· = '-'))

/-- What may follow a character of a name component, after the separators `separator`. -/
def isComponentRest : List Char → List Char → Bool
  | separator, [] => separator = []
  | separator, c :: cs =>
    if isComponentStart c then (separator = [] || isNameSeparator separator) && isComponentRest [] cs
    else (c = '.' || c = '_' || c = '-') && isComponentRest (separator ++ [c]) cs

/-- `/^[a-z0-9]+(?:(?:[._]|__|-+)[a-z0-9]+)*$/`. -/
def isComponent : List Char → Bool
  | [] => false
  | c :: cs => isComponentStart c && isComponentRest [] cs

def validateRepository (value : List Char) : Except String (List Char) :=
  if value = [] then invalidReference "repository is missing"
  else if (value.splitOn '/').all isComponent then .ok value
  else invalidReference "repository must contain lowercase OCI name components"

/-- `/^[\w][\w.-]{0,127}$/`. -/
def isTag (tag : List Char) : Bool :=
  tag.head?.any (fun c => c.isAlphanum || c = '_')
    && tag.all (fun c => isHostChar c || c = '_') && tag.length ≤ 128

/-- `/^sha256:[a-f0-9]{64}$/`. -/
def isDigest (digest : List Char) : Bool :=
  "sha256:".toList.isPrefixOf digest && digest.length = 71
    && (digest.drop 7).all fun c => c.isDigit || ('a' ≤ c && c ≤ 'f')

/-- `/[\u0000-\u001f\u007f\s\\?#]/`. -/
def isForbiddenInImage (c : Char) : Bool :=
  c.toNat ≤ 0x1f || c.toNat = 0x7f || isWhiteSpace c || c = '\\' || c = '?' || c = '#'

/-- What comes before the `@`, and the digest behind it. -/
def takeDigest (remainder : List Char) : List Char × Option (List Char) :=
  match remainder.takeWhile (· ≠ '@'), remainder.dropWhile (· ≠ '@') with
  | before@(_ :: _), _ :: digest => (before, some digest)
  | _, _ => (remainder, none)

/-- A first part that is taken for a registry. -/
def isRegistryHead (head : List Char) : Bool :=
  head.contains '.' || head.contains ':' || head = "localhost".toList

/-- The registry before the first slash, if it is one, and the rest. -/
def takeRegistry (remainder : List Char) : Option (List Char) × List Char :=
  match remainder.takeWhile (· ≠ '/'), remainder.dropWhile (· ≠ '/') with
  | head@(_ :: _), _ :: rest =>
    if isRegistryHead head then (some head, rest) else (none, remainder)
  | _, _ => (none, remainder)

/-- What comes before the last colon, and the tag behind it, if no slash follows. -/
def takeTag (remainder : List Char) : List Char × Option (List Char) :=
  match remainder.reverse.dropWhile (· ≠ ':') with
  | _ :: repository@(_ :: _) =>
    let tag := (remainder.reverse.takeWhile (· ≠ ':')).reverse
    if tag.contains '/' then (remainder, none) else (repository.reverse, some tag)
  | _ => (remainder, none)

/-- `registry-1.docker.io` where a reference names no registry. -/
def registryOf (parseUrl : String → Option UrlComponents) : Option (List Char) → Except String String
  | none => .ok "registry-1.docker.io"
  | some head => validateRegistryHost parseUrl (String.ofList head)

/-- The repository, in the namespace `library` if it has none on Docker Hub. -/
def normalizedRepository (registry : String) (repository : List Char) : List Char :=
  if registry = "registry-1.docker.io" && !repository.contains '/' then
    "library/".toList ++ repository
  else repository

/-- The result of the reader. -/
def imageResult (registry : String) (repository : List Char) (tag digest : Option (List Char)) :
    ParsedImageReference :=
  let repository := String.ofList (normalizedRepository registry repository)
  let tag := String.ofList (tag.getD "latest".toList)
  { registry, repository, tag
    digest := digest.map String.ofList
    reference := (digest.map String.ofList).getD tag
    canonical := match digest with
      | some digest => registry ++ "/" ++ repository ++ "@" ++ String.ofList digest
      | none => registry ++ "/" ++ repository ++ ":" ++ tag }

def parseImageReference (parseUrl : String → Option UrlComponents) (image : String) :
    Except String ParsedImageReference :=
  let remainder := trim image
  if remainder = "" || codeUnits remainder > 512 then
    invalidReference "value is missing or too long"
  else if remainder.toList.any isForbiddenInImage || includesText remainder "://" then
    invalidReference ("schemes, whitespace, control characters, query strings, fragments, and "
      ++ "backslashes are not allowed")
  else if remainder.toList.count '@' > 1 then
    invalidReference "multiple digests are not allowed"
  else
    let (remainder, digest) := takeDigest remainder.toList
    if digest.any fun digest => !isDigest digest then
      invalidReference "digest must be a complete lowercase sha256 value"
    else do
      let (head, remainder) := takeRegistry remainder
      let registry ← registryOf parseUrl head
      let (repository, tag) := takeTag remainder
      if !isTag (tag.getD "latest".toList) then invalidReference "tag is malformed"
      else
        let repository ← validateRepository repository
        if codeUnits (String.ofList (normalizedRepository registry repository)) > 255 then
          invalidReference "normalized repository is longer than 255 characters"
        else .ok (imageResult registry repository tag digest)

def registryBaseUrl (registry : String) (insecure : Bool) : String :=
  if registry = "docker.io" || registry = "registry-1.docker.io" || registry = "index.docker.io" then
    "https://registry-1.docker.io"
  else (if insecure then "http" else "https") ++ "://" ++ registry

/-! ### The parts of a reference -/

structure ImageText where
  host : Option (List Char)
  name : List Char
  tag : Option (List Char)
  digest : Option (List Char)

namespace ImageText

def hostChars (text : ImageText) : List Char :=
  match text.host with
  | none => []
  | some head => head ++ ['/']

def tagChars (text : ImageText) : List Char :=
  match text.tag with
  | none => []
  | some tag => ':' :: tag

def digestChars (text : ImageText) : List Char :=
  match text.digest with
  | none => []
  | some digest => '@' :: digest

/-- The reference as a text. -/
def chars (text : ImageText) : List Char :=
  text.hostChars ++ text.name ++ text.tagChars ++ text.digestChars

/-- Each part can be read. -/
structure Valid (text : ImageText) : Prop where
  host : ∀ head, text.host = some head →
    head ≠ [] ∧ isRegistryHead head = true ∧ ∀ c ∈ head, IsAuthorityChar c
  noHost : text.host = none → '/' ∈ text.name →
    isRegistryHead (text.name.takeWhile (· ≠ '/')) = false
  name : (text.name.splitOn '/').all isComponent = true
  tag : ∀ tag, text.tag = some tag → isTag tag = true
  digest : ∀ digest, text.digest = some digest → isDigest digest = true

end ImageText

/-! ### Characters of the parts -/

/-- A character of a component. -/
def isComponentChar (c : Char) : Bool := isHostChar c || c = '_'

theorem isComponentChar_of_isComponentStart {c : Char} (h : isComponentStart c = true) :
    isComponentChar c = true := by
  have halnum : c.isAlphanum = true := by
    simp only [isComponentStart, Bool.or_eq_true, Bool.and_eq_true, decide_eq_true_eq, Char.le_def] at h
    have hdef : c.isAlphanum = (decide (c.val ≥ 'A'.val ∧ c.val ≤ 'Z'.val)
        || (decide (c.val ≥ 'a'.val) && decide (c.val ≤ 'z'.val)) || c.isDigit) := rfl
    rw [hdef]
    simp only [Bool.or_eq_true, Bool.and_eq_true, decide_eq_true_eq]
    exact h.elim .inr fun hletter => .inl (.inr hletter)
  rw [isComponentChar, isHostChar, halnum]
  rfl

theorem mem_isComponentRest {separator cs : List Char} (h : isComponentRest separator cs = true) :
    ∀ c ∈ cs, isComponentChar c = true := by
  induction cs generalizing separator with
  | nil => simp
  | cons d cs ih =>
    rw [isComponentRest] at h
    intro c hc
    split at h
    · next hd =>
      rw [Bool.and_eq_true] at h
      rcases List.mem_cons.mp hc with rfl | hc
      · exact isComponentChar_of_isComponentStart hd
      · exact ih h.2 c hc
    · simp only [Bool.and_eq_true, Bool.or_eq_true, decide_eq_true_eq] at h
      rcases List.mem_cons.mp hc with rfl | hc
      · rcases h.1 with (rfl | rfl) | rfl <;> decide
      · exact ih h.2 c hc

theorem isComponent_chars {component : List Char} (h : isComponent component = true) :
    component ≠ [] ∧ ∀ c ∈ component, isComponentChar c = true := by
  cases component with
  | nil => cases h
  | cons d cs =>
    rw [isComponent, Bool.and_eq_true] at h
    refine ⟨List.cons_ne_nil _ _, fun c hc => ?_⟩
    rcases List.mem_cons.mp hc with rfl | hc
    · exact isComponentChar_of_isComponentStart h.1
    · exact mem_isComponentRest h.2 c hc

/-- A character of a reference: of a component, or one of the separators. -/
def IsImageChar (c : Char) : Prop := IsAuthorityChar c ∨ c = '_' ∨ c = '/' ∨ c = '@'

theorem isImageChar_facts {c : Char} (h : IsImageChar c) :
    isForbiddenInImage c = false ∧ isWhiteSpace c = false ∧ c.toNat < 0x80 := by
  rcases h with hauthority | rfl | rfl | rfl
  · obtain ⟨hspace, hdelimiter, hascii⟩ := isAuthorityChar_facts hauthority
    simp only [isAuthorityDelimiter, Bool.or_eq_false_iff, decide_eq_false_iff_not] at hdelimiter
    obtain ⟨⟨⟨⟨⟨⟨hlow, hdelete⟩, hback⟩, -⟩, hquestion⟩, hhash⟩, -⟩ := hdelimiter
    refine ⟨?_, hspace, hascii⟩
    simp only [isForbiddenInImage, hspace, Bool.or_eq_false_iff, decide_eq_false_iff_not]
    exact ⟨⟨⟨⟨⟨by omega, hdelete⟩, trivial⟩, hback⟩, hquestion⟩, hhash⟩
  · decide
  · decide
  · decide

theorem isImageChar_of_isComponentChar {c : Char} (h : isComponentChar c = true) :
    IsImageChar c := by
  rw [isComponentChar, Bool.or_eq_true, decide_eq_true_eq] at h
  exact h.elim (fun hhost => .inl (.inl hhost)) fun heq => .inr (.inl heq)

/-- A character of a component is no separator. -/
theorem ne_of_isComponentChar {c d : Char} (h : isComponentChar c = true)
    (hd : isComponentChar d = false) : c ≠ d := by
  rintro rfl
  rw [h] at hd
  cases hd

theorem isTag_chars {tag : List Char} (h : isTag tag = true) :
    tag ≠ [] ∧ (∀ c ∈ tag, isComponentChar c = true) ∧ tag.length ≤ 128 := by
  simp only [isTag, Bool.and_eq_true, decide_eq_true_eq, List.all_eq_true] at h
  obtain ⟨⟨hhead, hchars⟩, hlength⟩ := h
  refine ⟨?_, hchars, hlength⟩
  rintro rfl
  cases hhead

theorem isDigest_chars {digest : List Char} (h : isDigest digest = true) :
    (∀ c ∈ digest, isComponentChar c = true ∨ c = ':') ∧ digest.length = 71 := by
  simp only [isDigest, Bool.and_eq_true, decide_eq_true_eq, List.all_eq_true] at h
  obtain ⟨⟨hfront, hlength⟩, hhex⟩ := h
  refine ⟨fun c hc => ?_, hlength⟩
  obtain ⟨back, hback⟩ := List.isPrefixOf_iff_prefix.mp hfront
  rw [← hback, List.mem_append] at hc
  rcases hc with hc | hc
  · have halgorithm : "sha256:".toList.all (fun c => isComponentChar c || c = ':') = true := by
      decide
    simpa using List.all_eq_true.mp halgorithm c hc
  · refine .inl (isComponentChar_of_isComponentStart ?_)
    have hdrop : digest.drop 7 = back := by rw [← hback]; rfl
    have hchar := hhex c (by rw [hdrop]; exact hc)
    simp only [isComponentStart, Bool.or_eq_true, Bool.and_eq_true, decide_eq_true_eq] at hchar ⊢
    exact hchar.imp_right fun ⟨hlow, hhigh⟩ => ⟨hlow, Char.le_trans hhigh (by decide)⟩

/-! ### Reading the parts -/

section

variable {separator : Char} {front : List Char}

theorem takeWhile_separator (h : separator ∉ front) (back : List Char) :
    (front ++ separator :: back).takeWhile (· ≠ separator) = front ∧
      (front ++ separator :: back).dropWhile (· ≠ separator) = separator :: back := by
  have hfront : ∀ c ∈ front, (decide (c ≠ separator)) = true :=
    fun c hc => decide_eq_true fun heq => h (heq ▸ hc)
  rw [List.takeWhile_append_of_pos hfront, List.dropWhile_append_of_pos hfront,
    List.takeWhile_cons_of_neg (by simp), List.dropWhile_cons_of_neg (by simp), List.append_nil]
  exact ⟨rfl, rfl⟩

theorem takeWhile_of_mem (h : separator ∈ front) (back : List Char) :
    (front ++ back).takeWhile (· ≠ separator) = front.takeWhile (· ≠ separator) := by
  induction front with
  | nil => cases h
  | cons c front ih =>
    rw [List.cons_append]
    by_cases hc : c = separator
    · rw [List.takeWhile_cons_of_neg (by simpa using hc),
        List.takeWhile_cons_of_neg (by simpa using hc)]
    · rw [List.takeWhile_cons_of_pos (by simpa using hc),
        List.takeWhile_cons_of_pos (by simpa using hc),
        ih ((List.mem_cons.mp h).resolve_left fun heq => hc heq.symm)]

theorem takeWhile_no_separator (h : separator ∉ front) :
    front.takeWhile (· ≠ separator) = front ∧ front.dropWhile (· ≠ separator) = [] := by
  have hfront : ∀ c ∈ front, (decide (c ≠ separator)) = true :=
    fun c hc => decide_eq_true fun heq => h (heq ▸ hc)
  exact ⟨List.takeWhile_eq_self_iff.mpr hfront, List.dropWhile_eq_nil_iff.mpr hfront⟩

end

theorem takeDigest_append {body : List Char} (hne : body ≠ []) (h : '@' ∉ body)
    (digest : List Char) : takeDigest (body ++ '@' :: digest) = (body, some digest) := by
  rw [takeDigest, (takeWhile_separator h digest).1, (takeWhile_separator h digest).2]
  cases body with
  | nil => exact absurd rfl hne
  | cons c cs => rfl

theorem takeDigest_none {body : List Char} (h : '@' ∉ body) : takeDigest body = (body, none) := by
  rw [takeDigest, (takeWhile_no_separator h).2]
  cases body.takeWhile (· ≠ '@') <;> rfl

theorem takeRegistry_append {head : List Char} (hne : head ≠ []) (h : '/' ∉ head)
    (hregistry : isRegistryHead head = true) (rest : List Char) :
    takeRegistry (head ++ '/' :: rest) = (some head, rest) := by
  rw [takeRegistry, (takeWhile_separator h rest).1, (takeWhile_separator h rest).2]
  cases head with
  | nil => exact absurd rfl hne
  | cons c cs => exact if_pos hregistry

theorem takeRegistry_none {remainder : List Char}
    (h : '/' ∈ remainder → isRegistryHead (remainder.takeWhile (· ≠ '/')) = false) :
    takeRegistry remainder = (none, remainder) := by
  rw [takeRegistry]
  by_cases hslash : '/' ∈ remainder
  · split
    · exact if_neg (by
        rename_i hhead _
        rw [← hhead, h hslash]
        decide)
    · rfl
  · rw [(takeWhile_no_separator hslash).2]
    cases remainder.takeWhile (· ≠ '/') <;> rfl

theorem takeTag_append {name tag : List Char} (hname : name ≠ []) (hcolon : ':' ∉ tag)
    (hslash : '/' ∉ tag) : takeTag (name ++ ':' :: tag) = (name, some tag) := by
  have hreverse : (name ++ ':' :: tag).reverse = tag.reverse ++ ':' :: name.reverse := by
    rw [List.reverse_append, List.reverse_cons, List.append_assoc]
    rfl
  have hsplit := takeWhile_separator (fun h => hcolon (List.mem_reverse.mp h)) name.reverse
  rw [takeTag, hreverse, hsplit.1, hsplit.2]
  cases hrev : name.reverse with
  | nil => exact absurd (List.reverse_eq_nil_iff.mp hrev) hname
  | cons c cs =>
    have hcontains : tag.contains '/' = false := by simpa using hslash
    simp only [List.reverse_reverse, hcontains]
    rw [← hrev, List.reverse_reverse]
    rfl

theorem takeTag_none {name : List Char} (h : ':' ∉ name) : takeTag name = (name, none) := by
  rw [takeTag, (takeWhile_no_separator fun hmem => h (List.mem_reverse.mp hmem)).2]

theorem name_facts {name : List Char} (h : (name.splitOn '/').all isComponent = true) :
    name ≠ [] ∧ (∀ c ∈ name, c = '/' ∨ isComponentChar c = true) ∧ name.head? ≠ some '/' := by
  have hcomponent : ∀ part ∈ name.splitOn '/', isComponent part = true := List.all_eq_true.mp h
  have hempty : [] ∉ name.splitOn '/' := fun hmem => absurd (hcomponent [] hmem) (by decide)
  refine ⟨?_, fun c hc => ?_, fun hhead => ?_⟩
  · rintro rfl
    exact hempty (by decide)
  · rcases mem_splitOn '/' hc with heq | ⟨part, hpart, hc⟩
    · exact .inl heq
    · exact .inr ((isComponent_chars (hcomponent part hpart)).2 c hc)
  · cases name with
    | nil => cases hhead
    | cons c cs =>
      obtain rfl := Option.some.inj hhead
      rw [List.splitOn_cons_eq_if_modifyHead, if_pos (beq_self_eq_true _)] at hempty
      exact hempty List.mem_cons_self

namespace ImageText

variable {text : ImageText}

theorem notMem_name (h : text.Valid) {c : Char} (hc : isComponentChar c = false) (hslash : c ≠ '/') :
    c ∉ text.name := by
  intro hmem
  rcases (name_facts h.name).2.1 c hmem with heq | hchar
  · exact hslash heq
  · rw [hc] at hchar
    cases hchar

theorem notMem_tagChars (h : text.Valid) {c : Char} (hc : isComponentChar c = false)
    (hcolon : c ≠ ':') : c ∉ text.tagChars := by
  rw [tagChars]
  split
  · exact List.not_mem_nil
  · next tag htag =>
    intro hmem
    rcases List.mem_cons.mp hmem with heq | hmem
    · exact hcolon heq
    · exact ne_of_isComponentChar ((isTag_chars (h.tag tag htag)).2.1 c hmem) hc rfl

theorem notMem_digestChars (h : text.Valid) {c : Char} (hc : isComponentChar c = false)
    (hcolon : c ≠ ':') (hat : c ≠ '@') : c ∉ text.digestChars := by
  rw [digestChars]
  split
  · exact List.not_mem_nil
  · next digest hdigest =>
    intro hmem
    rcases List.mem_cons.mp hmem with heq | hmem
    · exact hat heq
    · rcases (isDigest_chars (h.digest digest hdigest)).1 c hmem with hchar | heq
      · exact ne_of_isComponentChar hchar hc rfl
      · exact hcolon heq

/-- An `@` stands before the digest only. -/
theorem notMem_body (h : text.Valid) : '@' ∉ text.hostChars ++ text.name ++ text.tagChars := by
  rw [List.mem_append, List.mem_append, not_or, not_or]
  refine ⟨⟨?_, notMem_name h (by decide) (by decide)⟩, notMem_tagChars h (by decide) (by decide)⟩
  rw [hostChars]
  split
  · exact List.not_mem_nil
  · next head hhead =>
    rw [List.mem_append, List.mem_singleton, not_or]
    refine ⟨fun hmem => ?_, by decide⟩
    exact absurd (isAuthorityChar_facts ((h.host head hhead).2.2 '@' hmem)).2.1 (by decide)

theorem notMem_head (h : text.Valid) {head : List Char} (hhead : text.host = some head) :
    '/' ∉ head := fun hmem =>
  absurd (isAuthorityChar_facts ((h.host head hhead).2.2 '/' hmem)).2.1 (by decide)

theorem isImageChar_chars (h : text.Valid) : ∀ c ∈ text.chars, IsImageChar c := by
  intro c hc
  simp only [chars, List.mem_append] at hc
  rcases hc with ((hc | hc) | hc) | hc
  · rw [hostChars] at hc
    split at hc
    · cases hc
    · next head hhead =>
      rcases List.mem_append.mp hc with hc | hc
      · exact .inl ((h.host head hhead).2.2 c hc)
      · exact .inr (.inr (.inl (List.mem_singleton.mp hc)))
  · rcases (name_facts h.name).2.1 c hc with rfl | hchar
    · exact .inr (.inr (.inl rfl))
    · exact isImageChar_of_isComponentChar hchar
  · rw [tagChars] at hc
    split at hc
    · cases hc
    · next tag htag =>
      rcases List.mem_cons.mp hc with rfl | hc
      · exact .inl (.inr (.inl rfl))
      · exact isImageChar_of_isComponentChar ((isTag_chars (h.tag tag htag)).2.1 c hc)
  · rw [digestChars] at hc
    split at hc
    · cases hc
    · next digest hdigest =>
      rcases List.mem_cons.mp hc with rfl | hc
      · exact .inr (.inr (.inr rfl))
      · rcases (isDigest_chars (h.digest digest hdigest)).1 c hc with hchar | rfl
        · exact isImageChar_of_isComponentChar hchar
        · exact .inl (.inr (.inl rfl))

/-- No scheme stands in front of the reference: behind a colon there is no slash, but for the
    one that ends the registry. -/
theorem not_scheme (h : text.Valid) (front back : List Char) :
    text.chars ≠ front ++ ':' :: '/' :: '/' :: back := by
  have hname : text.name ≠ [] := (name_facts h.name).1
  have hsuffix : '/' ∉ text.tagChars ++ text.digestChars := by
    rw [List.mem_append, not_or]
    exact ⟨notMem_tagChars h (by decide) (by decide),
      notMem_digestChars h (by decide) (by decide) (by decide)⟩
  have hbody : ∀ front back : List Char,
      text.name ++ (text.tagChars ++ text.digestChars) ≠ front ++ ':' :: '/' :: back := by
    intro front back heq
    rcases List.append_eq_append_iff.mp heq with ⟨rest, -, hrest⟩ | ⟨rest, hfront, hrest⟩
    · exact hsuffix (by rw [hrest]; simp)
    · cases rest with
      | nil => exact hsuffix (by rw [← List.nil_append (_ ++ _), ← hrest]; simp)
      | cons c rest =>
        have hc := (List.cons.inj hrest).1
        refine notMem_name h (c := ':') (by decide) (by decide) ?_
        rw [hfront, hc]
        simp
  intro heq
  rw [chars, hostChars] at heq
  split at heq
  · exact hbody front ('/' :: back) (by simpa using heq)
  · next head hhead =>
    have hslash := notMem_head h hhead
    have heq' : head ++ '/' :: (text.name ++ (text.tagChars ++ text.digestChars)) =
        front ++ ':' :: '/' :: '/' :: back := by simpa using heq
    rcases List.append_eq_append_iff.mp heq' with ⟨rest, -, hrest⟩ | ⟨rest, hfront, hrest⟩
    · cases rest with
      | nil => exact absurd (List.cons.inj hrest).1 (by decide)
      | cons c rest => exact hbody rest ('/' :: back) (List.cons.inj hrest).2
    · cases rest with
      | nil => exact absurd (List.cons.inj hrest).1 (by decide)
      | cons c rest =>
        have htail := (List.cons.inj hrest).2
        cases rest with
        | nil =>
          -- the name would start with a slash
          have hstart := (List.cons.inj htail).2
          refine (name_facts h.name).2.2 ?_
          rw [← List.head?_append_of_ne_nil _ hname, ← hstart]
          rfl
        | cons d rest =>
          refine hslash ?_
          rw [hfront, ← (List.cons.inj htail).1]
          simp

end ImageText

/-! ### The reader and the parts -/

/-- The last steps of the reader. -/
def referenceOf (registry : String) (text : ImageText) : Except String ParsedImageReference :=
  if codeUnits (String.ofList (normalizedRepository registry text.name)) > 255 then
    invalidReference "normalized repository is longer than 255 characters"
  else .ok (imageResult registry text.name text.tag text.digest)

theorem parse_long {parseUrl : String → Option UrlComponents} {image : String}
    (h : 512 < codeUnits (trim image)) :
    parseImageReference parseUrl image = invalidReference "value is missing or too long" := by
  rw [parseImageReference]
  exact if_pos (by simp [h])

/-- **The reader finds the parts** of a text that is not too long. -/
theorem parse_chars (parseUrl : String → Option UrlComponents) {image : String} {text : ImageText}
    (h : text.Valid) (himage : (trim image).toList = text.chars)
    (hlength : codeUnits (trim image) ≤ 512) :
    parseImageReference parseUrl image =
      registryOf parseUrl text.host >>= fun registry => referenceOf registry text := by
  have hname := name_facts h.name
  have hbody := ImageText.notMem_body h
  have hne : text.hostChars ++ text.name ++ text.tagChars ≠ [] := by
    rw [List.append_assoc]
    exact List.append_ne_nil_of_right_ne_nil _ (List.append_ne_nil_of_left_ne_nil hname.1 _)
  have hmissing : ¬ (decide (trim image = "") || decide (codeUnits (trim image) > 512)) = true := by
    rw [Bool.or_eq_true, decide_eq_true_eq, decide_eq_true_eq, not_or, ← String.toList_inj, himage,
      ImageText.chars]
    exact ⟨List.append_ne_nil_of_left_ne_nil hne _, by omega⟩
  have hallowed : ¬ ((trim image).toList.any isForbiddenInImage
      || includesText (trim image) "://") = true := by
    rw [Bool.or_eq_true, List.any_eq_true, includesText_iff, himage]
    rintro (⟨c, hc, hforbidden⟩ | ⟨front, back, heq⟩)
    · rw [(isImageChar_facts (ImageText.isImageChar_chars h c hc)).1] at hforbidden
      cases hforbidden
    · exact ImageText.not_scheme h front back (by rw [← heq]; simp)
  have hcount : ¬ (trim image).toList.count '@' > 1 := by
    rw [himage, ImageText.chars, List.count_append, List.count_eq_zero.mpr hbody,
      ImageText.digestChars]
    split
    · decide
    · next digest hdigest =>
      have hat : '@' ∉ digest := by
        intro hmem
        rcases (isDigest_chars (h.digest digest hdigest)).1 '@' hmem with hchar | heq
        · exact absurd hchar (by decide)
        · exact absurd heq (by decide)
      rw [List.count_cons_self, List.count_eq_zero.mpr hat]
      decide
  have hdigest : takeDigest text.chars =
      (text.hostChars ++ text.name ++ text.tagChars, text.digest) := by
    rw [ImageText.chars, ImageText.digestChars]
    cases text.digest with
    | none =>
      rw [List.append_nil]
      exact takeDigest_none hbody
    | some digest => exact takeDigest_append hne hbody digest
  have hslash : '/' ∉ text.tagChars := ImageText.notMem_tagChars h (by decide) (by decide)
  have hregistry : takeRegistry (text.hostChars ++ text.name ++ text.tagChars) =
      (text.host, text.name ++ text.tagChars) := by
    rw [ImageText.hostChars]
    cases hhost : text.host with
    | none =>
      rw [List.nil_append]
      refine takeRegistry_none fun hmem => ?_
      have hmem' : '/' ∈ text.name := (List.mem_append.mp hmem).resolve_right hslash
      rw [takeWhile_of_mem hmem']
      exact h.noHost hhost hmem'
    | some head =>
      obtain ⟨hheadNe, hregistryHead, -⟩ := h.host head hhost
      rw [List.append_assoc, List.append_assoc]
      exact takeRegistry_append hheadNe (ImageText.notMem_head h hhost) hregistryHead _
  have htag : takeTag (text.name ++ text.tagChars) = (text.name, text.tag) := by
    rw [ImageText.tagChars]
    cases htag : text.tag with
    | none =>
      rw [List.append_nil]
      exact takeTag_none (ImageText.notMem_name h (by decide) (by decide))
    | some tag =>
      have hchars := (isTag_chars (h.tag tag htag)).2.1
      exact takeTag_append hname.1
        (fun hmem => ne_of_isComponentChar (hchars _ hmem) (by decide) rfl)
        (fun hmem => ne_of_isComponentChar (hchars _ hmem) (by decide) rfl)
  have hisTag : isTag (text.tag.getD "latest".toList) = true := by
    cases htag : text.tag with
    | none => decide
    | some tag => exact h.tag tag htag
  have hisDigest : ¬ (text.digest.any fun digest => !isDigest digest) = true := by
    cases hdigest : text.digest with
    | none => decide
    | some digest => simp [h.digest digest hdigest]
  have hrepository : validateRepository text.name = .ok text.name := by
    rw [validateRepository, if_neg hname.1, if_pos h.name]
  rw [parseImageReference]
  dsimp only
  rw [if_neg hmissing, if_neg hallowed, if_neg hcount, himage, hdigest]
  dsimp only
  rw [if_neg hisDigest, hregistry]
  dsimp only
  rw [htag]
  dsimp only
  rw [hisTag, hrepository]
  rfl

/-- A text is what comes before the first separator, the separator, and what comes behind. -/
theorem eq_of_dropWhile {separator d : Char} {text back : List Char}
    (h : text.dropWhile (· ≠ separator) = d :: back) :
    text = text.takeWhile (· ≠ separator) ++ separator :: back := by
  have hd : d = separator := by
    have hhead := head?_dropWhile (p := (· ≠ separator)) text
    rw [h] at hhead
    simpa using hhead d rfl
  have hsplit : text.takeWhile (· ≠ separator) ++ text.dropWhile (· ≠ separator) = text :=
    List.takeWhile_append_dropWhile
  rw [h, hd] at hsplit
  exact hsplit.symm

theorem takeDigest_eq {remainder body : List Char} {digest : Option (List Char)}
    (h : takeDigest remainder = (body, digest)) :
    (∃ value, digest = some value ∧ remainder = body ++ '@' :: value) ∨
      digest = none ∧ remainder = body := by
  rw [takeDigest] at h
  split at h
  · next c cs d rest hfront hback =>
    obtain ⟨rfl, rfl⟩ := Prod.mk.inj h
    have hsplit := eq_of_dropWhile hback
    rw [hfront] at hsplit
    exact .inl ⟨rest, rfl, hsplit⟩
  · obtain ⟨rfl, rfl⟩ := Prod.mk.inj h
    exact .inr ⟨rfl, rfl⟩

theorem takeRegistry_eq {remainder rest : List Char} {host : Option (List Char)}
    (h : takeRegistry remainder = (host, rest)) :
    (∃ head, host = some head ∧ head ≠ [] ∧ isRegistryHead head = true ∧
      remainder = head ++ '/' :: rest) ∨
    (host = none ∧ remainder = rest ∧
      ('/' ∈ remainder → isRegistryHead (remainder.takeWhile (· ≠ '/')) = false)) := by
  rw [takeRegistry] at h
  split at h
  · next c cs d back hfront hback =>
    split at h
    · next hregistry =>
      obtain ⟨rfl, rfl⟩ := Prod.mk.inj h
      have hsplit := eq_of_dropWhile hback
      rw [hfront] at hsplit
      exact .inl ⟨c :: cs, rfl, List.cons_ne_nil _ _, hregistry, hsplit⟩
    · next hregistry =>
      obtain ⟨rfl, rfl⟩ := Prod.mk.inj h
      refine .inr ⟨rfl, rfl, fun _ => ?_⟩
      rw [hfront]
      exact Bool.eq_false_iff.mpr hregistry
  · next hnot =>
    obtain ⟨rfl, rfl⟩ := Prod.mk.inj h
    refine .inr ⟨rfl, rfl, fun hslash => ?_⟩
    cases hfront : remainder.takeWhile (· ≠ '/') with
    | nil => decide
    | cons c cs =>
      cases hback : remainder.dropWhile (· ≠ '/') with
      | nil =>
        have hall := List.dropWhile_eq_nil_iff.mp hback '/' hslash
        exact absurd hall (by decide)
      | cons d back => exact absurd hback (hnot c cs d back hfront)

theorem takeTag_eq {remainder name : List Char} {tag : Option (List Char)}
    (h : takeTag remainder = (name, tag)) :
    (∃ value, tag = some value ∧ remainder = name ++ ':' :: value) ∨
      tag = none ∧ remainder = name := by
  rw [takeTag] at h
  split at h
  · next d c cs hback =>
    dsimp only at h
    split at h
    · obtain ⟨rfl, rfl⟩ := Prod.mk.inj h
      exact .inr ⟨rfl, rfl⟩
    · obtain ⟨rfl, rfl⟩ := Prod.mk.inj h
      have hsplit := congrArg List.reverse (eq_of_dropWhile hback)
      rw [List.reverse_reverse, List.reverse_append, List.reverse_cons, List.append_assoc]
        at hsplit
      exact .inl ⟨_, rfl, hsplit⟩
  · obtain ⟨rfl, rfl⟩ := Prod.mk.inj h
    exact .inr ⟨rfl, rfl⟩

/-- The authority of a registry is made of its characters, and has none in front or behind. -/
theorem registryOf_chars {parser : UrlParser} {head : List Char} {registry : String}
    (hspace : ∀ c ∈ head, isWhiteSpace c = false)
    (h : registryOf parser.parseUrl (some head) = .ok registry) :
    normalizeRegistryAuthority parser.parseUrl (String.ofList head) = .ok registry ∧
      ∀ c ∈ head, IsAuthorityChar c := by
  have hnormalize : normalizeRegistryAuthority parser.parseUrl (String.ofList head) =
      .ok registry := by
    rw [registryOf, validateRegistryHost] at h
    split at h
    · next authority heq => rw [heq, Except.ok.inj h]
    · cases h
  have htrim : trim (String.ofList head) = String.ofList head :=
    trim_eq_self fun c hc => hspace c (by rwa [String.toList_ofList] at hc)
  obtain ⟨host, port, hostname, htext, hvalid, hauthority, -⟩ :=
    normalizeRegistryAuthority_ok hnormalize
  refine ⟨hnormalize, fun c hc => ?_⟩
  rw [htrim] at htext
  refine isAuthorityChar_authority hvalid hauthority.isPort c ?_
  rwa [← htext, String.toList_ofList]

/-- **What the reader accepts** is made of such parts. -/
theorem parse_ok {parser : UrlParser} {image : String} {result : ParsedImageReference}
    (h : parseImageReference parser.parseUrl image = .ok result) :
    ∃ text : ImageText, ∃ registry, text.Valid ∧ (trim image).toList = text.chars ∧
      codeUnits (trim image) ≤ 512 ∧ registryOf parser.parseUrl text.host = .ok registry ∧
      referenceOf registry text = .ok result := by
  rw [parseImageReference] at h
  dsimp only at h
  split at h
  · cases h
  next hmissing =>
  split at h
  · cases h
  next hallowed =>
  split at h
  · cases h
  rcases hdigest : takeDigest (trim image).toList with ⟨body, digest⟩
  rw [hdigest] at h
  dsimp only at h
  split at h
  · cases h
  next hisDigest =>
  rcases hregistry : takeRegistry body with ⟨host, remainder⟩
  rw [hregistry] at h
  dsimp only at h
  obtain ⟨registry, hhost, h⟩ := bind_eq_ok.mp h
  rcases htag : takeTag remainder with ⟨name, tag⟩
  rw [htag] at h
  dsimp only at h
  split at h
  · cases h
  next hisTag =>
  obtain ⟨repository, hrepository, hfinish⟩ := bind_eq_ok.mp h
  have hname : (name.splitOn '/').all isComponent = true ∧ repository = name := by
    rw [validateRepository] at hrepository
    split at hrepository
    · cases hrepository
    · split at hrepository
      · next hall => exact ⟨hall, (Except.ok.inj hrepository).symm⟩
      · cases hrepository
  obtain ⟨hname, rfl⟩ := hname
  have hremainder : remainder = (ImageText.mk host repository tag digest).name ++
      (ImageText.mk host repository tag digest).tagChars := by
    rcases takeTag_eq htag with ⟨value, rfl, heq⟩ | ⟨rfl, heq⟩
    · exact heq
    · rw [heq]
      exact (List.append_nil _).symm
  have hbody : body = (ImageText.mk host repository tag digest).hostChars ++ remainder := by
    rcases takeRegistry_eq hregistry with ⟨head, rfl, -, -, heq⟩ | ⟨rfl, heq, -⟩
    · rw [heq]
      exact (List.append_assoc head ['/'] remainder).symm
    · exact heq
  have hchars : (trim image).toList = (ImageText.mk host repository tag digest).chars := by
    rw [ImageText.chars, List.append_assoc _ _ (ImageText.tagChars _), ← hremainder, ← hbody]
    rcases takeDigest_eq hdigest with ⟨value, rfl, heq⟩ | ⟨rfl, heq⟩
    · exact heq
    · rw [heq]
      exact (List.append_nil _).symm
  have hlength : codeUnits (trim image) ≤ 512 := by
    rw [Bool.or_eq_true, decide_eq_true_eq, decide_eq_true_eq, not_or] at hmissing
    omega
  refine ⟨⟨host, repository, tag, digest⟩, registry, ⟨?_, ?_, hname, ?_, ?_⟩, hchars, hlength, hhost,
    hfinish⟩
  · rintro head rfl
    rcases takeRegistry_eq hregistry with ⟨_, hsome, hne, hhead, heq⟩ | ⟨hnone, -⟩
    · obtain rfl := Option.some.inj hsome
      refine ⟨hne, hhead, (registryOf_chars (fun c hc => ?_) hhost).2⟩
      -- the reference has no white space
      have hmem : c ∈ (trim image).toList := by
        rw [hchars]
        simp [ImageText.chars, ImageText.hostChars, hc]
      rw [Bool.or_eq_true, List.any_eq_true, not_or] at hallowed
      rw [← Bool.not_eq_true]
      exact fun hspace => hallowed.1 ⟨c, hmem, by simp [isForbiddenInImage, hspace]⟩
    · cases hnone
  · rintro rfl hslash
    rcases takeRegistry_eq hregistry with ⟨_, hsome, -⟩ | ⟨-, heq, hhead⟩
    · cases hsome
    · rw [heq, hremainder] at hhead
      have hfirst := hhead (List.mem_append_left _ hslash)
      rwa [takeWhile_of_mem hslash] at hfirst
  · rintro value rfl
    simpa using hisTag
  · rintro value rfl
    simpa using hisDigest

/-! ### The canonical form -/

theorem finish_ok {registry : String} {text : ImageText} {result : ParsedImageReference} :
    referenceOf registry text = .ok result ↔
      codeUnits (String.ofList (normalizedRepository registry text.name)) ≤ 255 ∧
        result = imageResult registry text.name text.tag text.digest := by
  rw [referenceOf]
  split
  · next hlong =>
    constructor
    · intro h
      cases h
    · rintro ⟨hshort, -⟩
      omega
  · next hshort =>
    constructor
    · intro h
      exact ⟨by omega, (Except.ok.inj h).symm⟩
    · rintro ⟨-, rfl⟩
      rfl

/-- A registry that is read again as itself. -/
structure IsRegistry (parser : UrlParser) (registry : String) : Prop where
  again : registryOf parser.parseUrl (some registry.toList) = .ok registry
  ne_nil : registry.toList ≠ []
  isHead : isRegistryHead registry.toList = true
  chars : ∀ c ∈ registry.toList, IsAuthorityChar c

theorem IsAuthority.isRegistry {parser : UrlParser} {hostname : String} {port : Option String}
    (h : IsAuthority parser hostname port)
    (hhead : isRegistryHead (hostname ++ portSuffix port).toList = true) :
    IsRegistry parser (hostname ++ portSuffix port) where
  again := by
    rw [registryOf, String.ofList_toList, validateRegistryHost, h.normalize]
  ne_nil := by
    intro hnil
    rw [hnil] at hhead
    cases hhead
  isHead := hhead
  chars := isAuthorityChar_authority h.valid h.isPort

theorem isAuthority_of_isPlainName {parser : UrlParser} {host : String}
    (h : isPlainName host = true) (hvalid : validateRegistryHostname host = .ok ()) :
    IsAuthority parser host none where
  valid := hvalid
  isPort := fun _ hport => by cases hport
  lower := lowerHost_of_isPlainName h
  length := (isPlainName_facts h).2
  parsed := by
    obtain ⟨url, hurl, hname⟩ := parser.https_name h
    refine ⟨url, ?_, hname⟩
    rw [portSuffix, String.append_empty]
    exact hurl

theorem isRegistry_of_isPlainName (parser : UrlParser) {host : String}
    (h : isPlainName host = true) (hvalid : validateRegistryHostname host = .ok ())
    (hhead : isRegistryHead host.toList = true) : IsRegistry parser host := by
  have hregistry := (@isAuthority_of_isPlainName parser host h hvalid).isRegistry
  rw [portSuffix, String.append_empty] at hregistry
  exact hregistry hhead

theorem isRegistry_hub (parser : UrlParser) : IsRegistry parser "registry-1.docker.io" :=
  isRegistry_of_isPlainName parser (by decide) (by decide) (by decide)

theorem startsWith_bracket {host : String} {cs : List Char} (h : host.toList = '[' :: cs) :
    startsWith host "[" = true := by
  rw [startsWith, h]
  rfl

/-- **The registry of a reference** is read again as itself. -/
theorem isRegistry_registryOf {parser : UrlParser} {text : ImageText} {registry : String}
    (h : text.Valid) (hregistry : registryOf parser.parseUrl text.host = .ok registry) :
    IsRegistry parser registry := by
  cases hhost : text.host with
  | none =>
    rw [hhost] at hregistry
    obtain rfl := Except.ok.inj hregistry
    exact isRegistry_hub parser
  | some head =>
    rw [hhost] at hregistry
    obtain ⟨-, hhead, hchars⟩ := h.host head hhost
    have hspace : ∀ c ∈ head, isWhiteSpace c = false :=
      fun c hc => (isAuthorityChar_facts (hchars c hc)).1
    have htrim : trim (String.ofList head) = String.ofList head :=
      trim_eq_self fun c hc => hspace c (by rwa [String.toList_ofList] at hc)
    obtain ⟨host, port, hostname, htext, hvalid, hauthority, heq, hbracketed, hdotted, hplain⟩ :=
      normalizeRegistryAuthority_ok (registryOf_chars hspace hregistry).1
    rw [htrim] at htext hplain
    rw [heq]
    refine hauthority.isRegistry ?_
    simp only [isRegistryHead, Bool.or_eq_true, List.contains_iff_mem, decide_eq_true_eq,
      or_assoc] at hhead ⊢
    cases port with
    | some port =>
      refine .inr (.inl ?_)
      rw [portSuffix, String.toList_append, String.toList_append]
      exact List.mem_append_right _ (List.mem_append_left _ List.mem_cons_self)
    | none =>
      rw [portSuffix, String.append_empty] at htext heq ⊢
      have hheadText : head = host.toList := by rw [← htext, String.toList_ofList]
      rw [hheadText] at hhead
      by_cases hstart : startsWith host "[" = true
      · have hopen := hbracketed hstart
        rcases validateRegistryHostname_cases hauthority.valid with ⟨_, hv6⟩ | ⟨-, hname⟩
        · exact .inr (.inl hv6.colon)
        · -- a name does not start with a bracket
          obtain ⟨back, hback⟩ := List.isPrefixOf_iff_prefix.mp hopen
          have hmem : '[' ∈ hostname.toList := by
            rw [← hback]
            exact List.mem_append_left _ List.mem_cons_self
          exact absurd (hname '[' hmem) (by decide)
      · rcases hhead with hdot | hcolon | hlocal
        · exact .inl (hdotted (Bool.eq_false_iff.mpr hstart) hdot)
        · rcases validateRegistryHostname_cases hvalid with ⟨_, hv6⟩ | ⟨-, hname⟩
          · exact absurd (startsWith_bracket hv6.text) hstart
          · exact absurd (hname ':' hcolon) (by decide)
        · have hlocalhost : String.ofList head = "localhost" := by
            rw [hheadText, hlocal]
            rfl
          have hsame := hplain (by rw [hlocalhost]; decide)
          rw [hlocalhost, heq] at hsame
          exact .inr (.inr (by rw [hsame]))

/-- The parts of the canonical form. -/
def canonicalText (registry : String) (text : ImageText) : ImageText where
  host := some registry.toList
  name := normalizedRepository registry text.name
  tag := if text.digest.isSome then none else some (text.tag.getD "latest".toList)
  digest := text.digest

theorem library_components {name : List Char} (h : (name.splitOn '/').all isComponent = true) :
    (("library/".toList ++ name).splitOn '/').all isComponent = true := by
  have hsplit : ("library/".toList ++ name).splitOn '/' = "library".toList :: name.splitOn '/' :=
    (List.splitOn_append_cons_self "library".toList name).trans (by
      rw [show List.splitOn '/' "library".toList = ["library".toList] by decide]
      rfl)
  rw [hsplit, List.all_cons, h]
  decide

theorem normalizedRepository_components {name : List Char} (registry : String)
    (h : (name.splitOn '/').all isComponent = true) :
    ((normalizedRepository registry name).splitOn '/').all isComponent = true := by
  rw [normalizedRepository]
  split
  · exact library_components h
  · exact h

/-- The canonical repository is in the namespace already. -/
theorem normalizedRepository_again (registry : String) (name : List Char) :
    normalizedRepository registry (normalizedRepository registry name) =
      normalizedRepository registry name := by
  by_cases hlibrary : (decide (registry = "registry-1.docker.io") && !name.contains '/') = true
  · have hcontains : ("library/".toList ++ name).contains '/' = true := by
      rw [List.contains_iff_mem]
      exact List.mem_append_left _ (by decide)
    rw [normalizedRepository, normalizedRepository, if_pos hlibrary, hcontains, Bool.not_true,
      Bool.and_false]
    rfl
  · simp only [normalizedRepository, if_neg hlibrary]

theorem canonicalText_valid {parser : UrlParser} {registry : String} {text : ImageText}
    (h : text.Valid) (hregistry : IsRegistry parser registry) :
    (canonicalText registry text).Valid where
  host := by
    intro head hhead
    obtain rfl := Option.some.inj hhead
    exact ⟨hregistry.ne_nil, hregistry.isHead, hregistry.chars⟩
  noHost hnone := by cases hnone
  name := normalizedRepository_components registry h.name
  tag := by
    intro tag htag
    dsimp only [canonicalText] at htag
    split at htag
    · cases htag
    · obtain rfl := Option.some.inj htag
      cases hsource : text.tag with
      | none => decide
      | some tag => exact h.tag tag hsource
  digest := h.digest

theorem canonical_chars (registry : String) (text : ImageText) :
    (imageResult registry text.name text.tag text.digest).canonical.toList =
      (canonicalText registry text).chars := by
  simp only [imageResult, ImageText.chars, ImageText.hostChars, ImageText.tagChars,
    ImageText.digestChars, canonicalText]
  cases text.digest with
  | none => simp [String.toList_append]
  | some digest => simp [String.toList_append]

/-- The canonical form is read as the parts it was made of. -/
theorem imageResult_canonicalText (registry : String) (text : ImageText) :
    let again := imageResult registry (canonicalText registry text).name
      (canonicalText registry text).tag (canonicalText registry text).digest
    let result := imageResult registry text.name text.tag text.digest
    again.registry = result.registry ∧ again.repository = result.repository ∧
      again.digest = result.digest ∧ again.reference = result.reference := by
  dsimp only [imageResult, canonicalText]
  rw [normalizedRepository_again]
  refine ⟨rfl, rfl, rfl, ?_⟩
  cases text.digest <;> rfl

/-- The canonical form is accepted, and names the same registry, repository, and tag or digest. -/
def Reparses (parser : UrlParser) (result : ParsedImageReference) : Prop :=
  ∃ again, parseImageReference parser.parseUrl result.canonical = .ok again ∧
    again.registry = result.registry ∧ again.repository = result.repository ∧
    again.digest = result.digest ∧ again.reference = result.reference

theorem trim_canonical {parser : UrlParser} {registry : String} {text : ImageText}
    (h : text.Valid) (hregistry : IsRegistry parser registry) :
    trim (imageResult registry text.name text.tag text.digest).canonical =
      (imageResult registry text.name text.tag text.digest).canonical := by
  refine trim_eq_self fun c hc => ?_
  rw [canonical_chars] at hc
  exact (isImageChar_facts (ImageText.isImageChar_chars (canonicalText_valid h hregistry) c hc)).2.1

/-- **The canonical form is read again** exactly when it is not too long. -/
theorem reparses_iff {parser : UrlParser} {registry : String} {text : ImageText}
    {result : ParsedImageReference} (h : text.Valid)
    (hregistry : IsRegistry parser registry) (hresult : referenceOf registry text = .ok result) :
    Reparses parser result ↔ codeUnits result.canonical ≤ 512 := by
  obtain ⟨hshort, rfl⟩ := finish_ok.mp hresult
  have htrim := trim_canonical h hregistry
  constructor
  · rintro ⟨again, hagain, -⟩
    by_contra hlong
    rw [parse_long (by rw [htrim]; omega)] at hagain
    cases hagain
  · intro hlength
    refine ⟨imageResult registry (canonicalText registry text).name
      (canonicalText registry text).tag (canonicalText registry text).digest, ?_,
      imageResult_canonicalText registry text⟩
    rw [parse_chars parser.parseUrl (canonicalText_valid h hregistry)
      (by rw [htrim, canonical_chars]) (by rw [htrim]; exact hlength)]
    show registryOf parser.parseUrl (some registry.toList) >>= _ = _
    rw [hregistry.again, ok_bind, finish_ok]
    refine ⟨?_, rfl⟩
    dsimp only [canonicalText]
    rwa [normalizedRepository_again]

/-- The length of a reference with its registry as it is normalized, the namespace `library` where
    it is left out on Docker Hub, and its digest, or else its tag. -/
def ImageText.writtenUnits (text : ImageText) (registry : String) : ℕ :=
  registry.toList.length + 1 + (normalizedRepository registry text.name).length + 1
    + (text.digest.getD (text.tag.getD "latest".toList)).length

theorem codeUnits_canonical {parser : UrlParser} {registry : String} {text : ImageText}
    (h : text.Valid) (hregistry : IsRegistry parser registry) :
    codeUnits (imageResult registry text.name text.tag text.digest).canonical =
      text.writtenUnits registry := by
  rw [codeUnits_ascii fun c hc => ?_, canonical_chars, ImageText.chars, ImageText.hostChars,
    ImageText.tagChars, ImageText.digestChars, canonicalText, ImageText.writtenUnits]
  · dsimp only
    cases text.digest with
    | none =>
      simp only [List.length_append, List.length_cons, List.length_nil, Option.isSome_none,
        Bool.false_eq_true, if_false, Option.getD_none]
      omega
    | some digest =>
      simp only [List.length_append, List.length_cons, List.length_nil, Option.isSome_some, if_true,
        Option.getD_some]
      omega
  · rw [canonical_chars] at hc
    exact (isImageChar_facts
      (ImageText.isImageChar_chars (canonicalText_valid h hregistry) c hc)).2.2

/-! ### Spellings of an image of Docker Hub -/

/-- No registry, or one of the names of Docker Hub. -/
def hubHosts : List (Option (List Char)) :=
  [none, some "docker.io".toList, some "index.docker.io".toList, some "registry-1.docker.io".toList]

/-- A name of one segment may stand in the namespace `library`. -/
def hubNames (name : List Char) : List (List Char) :=
  if name.contains '/' then [name] else [name, "library/".toList ++ name]

/-- An image of Docker Hub by its name, tag and digest. -/
def IsHubImage (text : ImageText) : Prop := text.Valid ∧ text.host = none

def hubSpelling (text : ImageText) (host : Option (List Char)) (name : List Char) : ImageText :=
  { text with host, name }

/-- The spellings of an image of Docker Hub. -/
def hubSpellings (text : ImageText) : List String :=
  hubHosts.flatMap fun host => (hubNames text.name).map fun name =>
    String.ofList (hubSpelling text host name).chars

def hubRegistry : Option (List Char) → String
  | none => "registry-1.docker.io"
  | some head => String.ofList head

theorem hubRegistry_facts (parser : UrlParser) {host : Option (List Char)} (h : host ∈ hubHosts) :
    registryOf parser.parseUrl host = .ok (hubRegistry host) ∧
      (∀ insecure, registryBaseUrl (hubRegistry host) insecure = "https://registry-1.docker.io") ∧
      ∀ head, host = some head →
        head ≠ [] ∧ isRegistryHead head = true ∧ ∀ c ∈ head, IsAuthorityChar c := by
  have hsome : ∀ {name : String}, IsRegistry parser name →
      (∀ insecure, registryBaseUrl name insecure = "https://registry-1.docker.io") →
      registryOf parser.parseUrl (some name.toList) = .ok (hubRegistry (some name.toList)) ∧
        (∀ insecure, registryBaseUrl (hubRegistry (some name.toList)) insecure =
          "https://registry-1.docker.io") ∧
        ∀ head, some name.toList = some head →
          head ≠ [] ∧ isRegistryHead head = true ∧ ∀ c ∈ head, IsAuthorityChar c := by
    intro name hname hbase
    rw [hubRegistry, String.ofList_toList]
    refine ⟨hname.again, hbase, fun head hhead => ?_⟩
    obtain rfl := Option.some.inj hhead
    exact ⟨hname.ne_nil, hname.isHead, hname.chars⟩
  simp only [hubHosts, List.mem_cons, List.not_mem_nil, or_false] at h
  rcases h with rfl | rfl | rfl | rfl
  · exact ⟨rfl, by decide, fun head hhead => by cases hhead⟩
  · exact hsome (isRegistry_of_isPlainName parser (by decide) (by decide) (by decide)) (by decide)
  · exact hsome (isRegistry_of_isPlainName parser (by decide) (by decide) (by decide)) (by decide)
  · exact hsome (isRegistry_hub parser) (by decide)

section

variable {parser : UrlParser} {text : ImageText} {host : Option (List Char)} {name : List Char}

theorem hubSpelling_valid (h : IsHubImage text) (hhost : host ∈ hubHosts)
    (hname : name ∈ hubNames text.name) (parser : UrlParser) :
    (hubSpelling text host name).Valid where
  host := (hubRegistry_facts parser hhost).2.2
  noHost := by
    rintro - hslash
    rw [hubNames] at hname
    split at hname
    · obtain rfl := List.mem_singleton.mp hname
      exact h.1.noHost h.2 hslash
    · next hone =>
      rcases List.mem_cons.mp hname with rfl | hname
      · exact h.1.noHost h.2 hslash
      · obtain rfl := List.mem_singleton.mp hname
        show isRegistryHead (("library".toList ++ '/' :: text.name).takeWhile (· ≠ '/')) = false
        rw [(takeWhile_separator (by decide) text.name).1]
        decide
  name := by
    rw [hubNames] at hname
    split at hname
    · obtain rfl := List.mem_singleton.mp hname
      exact h.1.name
    · rcases List.mem_cons.mp hname with rfl | hname
      · exact h.1.name
      · obtain rfl := List.mem_singleton.mp hname
        exact library_components h.1.name
  tag := h.1.tag
  digest := h.1.digest

theorem trim_hubSpelling (h : (hubSpelling text host name).Valid) :
    trim (String.ofList (hubSpelling text host name).chars) =
      String.ofList (hubSpelling text host name).chars := by
  refine trim_eq_self fun c hc => ?_
  rw [String.toList_ofList] at hc
  exact (isImageChar_facts (ImageText.isImageChar_chars h c hc)).2.1

/-- What is read of a spelling that is accepted. -/
theorem hubSpelling_ok {image : String} {result : ParsedImageReference} (h : IsHubImage text)
    (hhost : host ∈ hubHosts) (hname : name ∈ hubNames text.name)
    (himage : trim image = String.ofList (hubSpelling text host name).chars)
    (hresult : parseImageReference parser.parseUrl image = .ok result) :
    referenceOf (hubRegistry host) (hubSpelling text host name) = .ok result := by
  have hvalid := hubSpelling_valid h hhost hname parser
  have hlength : codeUnits (trim image) ≤ 512 := by
    by_contra hlong
    rw [parse_long (by omega)] at hresult
    cases hresult
  rw [parse_chars parser.parseUrl hvalid (by rw [himage, String.toList_ofList]) hlength] at hresult
  obtain ⟨registry, hregistry, hfinish⟩ := bind_eq_ok.mp hresult
  have hsame := (hubRegistry_facts parser hhost).1.symm.trans hregistry
  rwa [← Except.ok.inj hsame] at hfinish

theorem codeUnits_components {name : List Char}
    (h : (name.splitOn '/').all isComponent = true) :
    codeUnits (String.ofList name) = name.length := by
  rw [codeUnits_ascii fun c hc => ?_, String.toList_ofList]
  rw [String.toList_ofList] at hc
  rcases (name_facts h).2.1 c hc with rfl | hchar
  · decide
  · exact (isImageChar_facts (isImageChar_of_isComponentChar hchar)).2.2

/-- The name of an image has several segments, or is too long for the namespace `library`. -/
def NoLibraryName (name : List Char) : Prop := '/' ∈ name ∨ 247 < name.length

/-- Then its spellings that are accepted are read with this name. -/
theorem repository_of_noLibraryName {result : ParsedImageReference} (h : IsHubImage text)
    (hname : name ∈ hubNames text.name) (hlibrary : NoLibraryName text.name)
    (hresult : referenceOf (hubRegistry host) (hubSpelling text host name) = .ok result) :
    result.repository = String.ofList text.name := by
  obtain ⟨hshort, rfl⟩ := finish_ok.mp hresult
  have hmany : ∀ registry, ∀ name : List Char, '/' ∈ name →
      normalizedRepository registry name = name := by
    intro registry name hslash
    rw [normalizedRepository, List.contains_iff_mem.mpr hslash, Bool.not_true, Bool.and_false]
    rfl
  show String.ofList (normalizedRepository (hubRegistry host) name) = _
  change codeUnits (String.ofList (normalizedRepository (hubRegistry host) name)) ≤ 255 at hshort
  have hlong : '/' ∉ text.name →
      normalizedRepository (hubRegistry host) name ≠ "library/".toList ++ text.name := by
    intro hslash heq
    rw [heq, codeUnits_components (library_components h.1.name), List.length_append] at hshort
    have height : "library/".toList.length = 8 := rfl
    have hlength := hlibrary.resolve_left hslash
    omega
  rw [hubNames] at hname
  by_cases hslash : '/' ∈ text.name
  · rw [if_pos (List.contains_iff_mem.mpr hslash)] at hname
    rw [List.mem_singleton.mp hname, hmany _ _ hslash]
  · rw [if_neg (fun hcontains => hslash (List.contains_iff_mem.mp hcontains))] at hname
    rcases List.mem_cons.mp hname with rfl | hname
    · have hcases : normalizedRepository (hubRegistry host) text.name = "library/".toList ++ text.name ∨
          normalizedRepository (hubRegistry host) text.name = text.name := by
        rw [normalizedRepository]
        split
        · exact .inl rfl
        · exact .inr rfl
      rw [hcases.resolve_left (hlong hslash)]
    · obtain rfl := List.mem_singleton.mp hname
      exact absurd (hmany _ _ (List.mem_append_left _ (by decide))) (hlong hslash)

end

/-- The spellings of an image that are accepted resolve to one place. -/
def SpellingsAgree (parser : UrlParser) (image : String) (result : ParsedImageReference) : Prop :=
  ∀ text, IsHubImage text → trim image ∈ hubSpellings text →
    ∀ other ∈ hubSpellings text, ∀ result',
      parseImageReference parser.parseUrl other = .ok result' →
        result'.repository = result.repository ∧
          ∀ insecure, registryBaseUrl result'.registry insecure =
            registryBaseUrl result.registry insecure

/-- The reference is not too long when it is written in full. -/
def FitsInFull (parser : UrlParser) (image : String) : Prop :=
  ∀ (text : ImageText) (registry : String), text.Valid → (trim image).toList = text.chars →
    registryOf parser.parseUrl text.host = .ok registry → text.writtenUnits registry ≤ 512

/-- The reference is no spelling of an image of Docker Hub with a name of one short segment. -/
def NoLibraryImage (image : String) : Prop :=
  ∀ text, IsHubImage text → trim image ∈ hubSpellings text → NoLibraryName text.name

theorem mem_hubSpellings {text : ImageText} {image : String} :
    image ∈ hubSpellings text ↔ ∃ host ∈ hubHosts, ∃ name ∈ hubNames text.name,
      image = String.ofList (hubSpelling text host name).chars := by
  rw [hubSpellings, List.mem_flatMap]
  refine exists_congr fun host => and_congr_right fun _ => ?_
  rw [List.mem_map]
  exact exists_congr fun name => and_congr_right fun _ => eq_comm

theorem fitsInFull_iff {parser : UrlParser} {image registry : String} {text : ImageText}
    {result : ParsedImageReference} (h : text.Valid) (himage : (trim image).toList = text.chars)
    (hlength : codeUnits (trim image) ≤ 512)
    (hregistry : registryOf parser.parseUrl text.host = .ok registry)
    (hresult : referenceOf registry text = .ok result) :
    FitsInFull parser image ↔ codeUnits result.canonical ≤ 512 := by
  constructor
  · intro hfits
    obtain ⟨-, rfl⟩ := finish_ok.mp hresult
    rw [codeUnits_canonical h (isRegistry_registryOf h hregistry)]
    exact hfits text registry h himage hregistry
  · intro hshort text' registry' h' himage' hregistry'
    -- other parts of the same text give the same result
    have hparse := parse_chars parser.parseUrl h himage hlength
    rw [parse_chars parser.parseUrl h' himage' hlength, hregistry, hregistry', ok_bind, ok_bind,
      hresult] at hparse
    obtain ⟨-, rfl⟩ := finish_ok.mp hparse
    rwa [codeUnits_canonical h' (isRegistry_registryOf h' hregistry')] at hshort

/-- The two spellings of a short name of one segment that name `docker.io`. -/
theorem parse_library_spellings (parser : UrlParser) {text : ImageText} (h : IsHubImage text)
    (hname : ¬ NoLibraryName text.name) {name : List Char} (hmem : name ∈ hubNames text.name) :
    ∃ result, parseImageReference parser.parseUrl
      (String.ofList (hubSpelling text (some "docker.io".toList) name).chars) = .ok result ∧
        result.repository = String.ofList name := by
  have hhost : some "docker.io".toList ∈ hubHosts := by decide
  have hvalid := hubSpelling_valid h hhost hmem parser
  have htrim := trim_hubSpelling hvalid
  rw [NoLibraryName, not_or, Nat.not_lt] at hname
  have hlength : name.length ≤ 255 := by
    have height : "library/".toList.length = 8 := rfl
    rw [hubNames] at hmem
    split at hmem
    · rw [List.mem_singleton.mp hmem]
      omega
    · rcases List.mem_cons.mp hmem with rfl | hmem
      · omega
      · rw [List.mem_singleton.mp hmem, List.length_append]
        omega
  have htag : text.tagChars.length ≤ 129 := by
    rw [ImageText.tagChars]
    split
    · decide
    · next tag htag =>
      have := (isTag_chars (h.1.tag tag htag)).2.2
      rw [List.length_cons]
      omega
  have hdigest : text.digestChars.length ≤ 72 := by
    rw [ImageText.digestChars]
    split
    · decide
    · next digest hdigest =>
      rw [List.length_cons, (isDigest_chars (h.1.digest digest hdigest)).2]
  have hunits : codeUnits (trim (String.ofList
      (hubSpelling text (some "docker.io".toList) name).chars)) ≤ 512 := by
    rw [htrim, codeUnits_ascii fun c hc => ?_, String.toList_ofList]
    · have hten : ("docker.io".toList ++ ['/']).length = 10 := rfl
      show ("docker.io".toList ++ ['/'] ++ name ++ text.tagChars ++ text.digestChars).length ≤ 512
      rw [List.length_append, List.length_append, List.length_append, hten]
      omega
    · rw [String.toList_ofList] at hc
      exact (isImageChar_facts (ImageText.isImageChar_chars hvalid c hc)).2.2
  have hrepository : normalizedRepository "docker.io" name = name := by
    rw [normalizedRepository, decide_eq_false (by decide), Bool.false_and]
    rfl
  have hcomponents : (name.splitOn '/').all isComponent = true := hvalid.name
  refine ⟨imageResult "docker.io" name text.tag text.digest, ?_, ?_⟩
  · rw [parse_chars parser.parseUrl hvalid (by rw [htrim, String.toList_ofList]) hunits]
    show registryOf parser.parseUrl (some "docker.io".toList) >>= _ = _
    rw [(hubRegistry_facts parser hhost).1, ok_bind, finish_ok]
    refine ⟨?_, rfl⟩
    show codeUnits (String.ofList (normalizedRepository "docker.io" name)) ≤ 255
    rw [hrepository, codeUnits_components hcomponents]
    exact hlength
  · show String.ofList (normalizedRepository "docker.io" name) = _
    rw [hrepository]

theorem spellingsAgree_iff {parser : UrlParser} {image : String} {result : ParsedImageReference}
    (h : parseImageReference parser.parseUrl image = .ok result) :
    SpellingsAgree parser image result ↔ NoLibraryImage image := by
  constructor
  · intro hagree text htext himage
    by_contra hname
    have hslash : ¬ text.name.contains '/' = true := by
      rw [List.contains_iff_mem]
      exact fun hmem => hname (.inl hmem)
    have hmem : text.name ∈ hubNames text.name ∧
        "library/".toList ++ text.name ∈ hubNames text.name := by
      rw [hubNames, if_neg hslash]
      exact ⟨List.mem_cons_self, List.mem_cons_of_mem _ (List.mem_singleton_self _)⟩
    obtain ⟨result₁, hresult₁, hrepository₁⟩ :=
      parse_library_spellings parser htext hname hmem.1
    obtain ⟨result₂, hresult₂, hrepository₂⟩ :=
      parse_library_spellings parser htext hname hmem.2
    have hsame₁ := (hagree text htext himage _ (mem_hubSpellings.mpr
      ⟨_, by decide, _, hmem.1, rfl⟩) result₁ hresult₁).1
    have hsame₂ := (hagree text htext himage _ (mem_hubSpellings.mpr
      ⟨_, by decide, _, hmem.2, rfl⟩) result₂ hresult₂).1
    rw [← hsame₂, hrepository₁, hrepository₂] at hsame₁
    have hlength := congrArg (fun text => text.toList.length) hsame₁
    simp only [String.toList_ofList, List.length_append] at hlength
    have height : "library/".toList.length = 8 := rfl
    omega
  · intro hlibrary text htext himage other hother result' hresult'
    have hname := hlibrary text htext himage
    obtain ⟨host, hhost, name, hmem, himage⟩ := mem_hubSpellings.mp himage
    obtain ⟨host', hhost', name', hmem', rfl⟩ := mem_hubSpellings.mp hother
    have hfinish := hubSpelling_ok htext hhost hmem himage h
    have hfinish' := hubSpelling_ok htext hhost' hmem'
      (trim_hubSpelling (hubSpelling_valid htext hhost' hmem' parser)) hresult'
    rw [repository_of_noLibraryName htext hmem hname hfinish,
      repository_of_noLibraryName htext hmem' hname hfinish']
    refine ⟨rfl, fun insecure => ?_⟩
    obtain ⟨-, rfl⟩ := finish_ok.mp hfinish
    obtain ⟨-, rfl⟩ := finish_ok.mp hfinish'
    show registryBaseUrl (hubRegistry host') insecure = registryBaseUrl (hubRegistry host) insecure
    rw [(hubRegistry_facts parser hhost).2.1, (hubRegistry_facts parser hhost').2.1]

/-- **When references have one canonical place.**  The canonical form of a reference that is
    accepted is read again, and the spellings of its image on Docker Hub agree, if and only if it
    is not too long when it is written in full, and is no spelling of an image with a name of one
    segment that the namespace `library` is left out of. -/
theorem image_reference_iff (parser : UrlParser) (image : String) (result : ParsedImageReference)
    (h : parseImageReference parser.parseUrl image = .ok result) :
    Reparses parser result ∧ SpellingsAgree parser image result ↔
      FitsInFull parser image ∧ NoLibraryImage image := by
  obtain ⟨text, registry, htext, himage, hlength, hregistry, hresult⟩ := parse_ok h
  rw [reparses_iff htext (isRegistry_registryOf htext hregistry) hresult, spellingsAgree_iff h,
    fitsInFull_iff htext himage hlength hregistry hresult]

/-! ### A parser of plain names -/

/-- The host of `https://` and an authority. -/
def authorityHost (text : String) : String :=
  String.ofList ((text.toList.drop 8).takeWhile (· ≠ ':'))

def parsePlainName (text : String) : Option UrlComponents :=
  if isPlainName (authorityHost text) then
    some ⟨"https:", "", "", authorityHost text, "", "/", "", ""⟩
  else none

theorem authorityHost_plain {host : String} (hcolon : ':' ∉ host.toList) (port : Option String) :
    authorityHost ("https://" ++ (host ++ portSuffix port)) = host := by
  have hdrop : ("https://" ++ (host ++ portSuffix port)).toList.drop 8 =
      host.toList ++ (portSuffix port).toList := by
    rw [String.toList_append, String.toList_append]
    rfl
  rw [authorityHost, hdrop]
  cases port with
  | none =>
    rw [portSuffix, show "".toList = [] from rfl, List.append_nil,
      (takeWhile_no_separator hcolon).1, String.ofList_toList]
  | some port =>
    rw [portSuffix, String.toList_append]
    exact (congrArg String.ofList (takeWhile_separator hcolon port.toList).1).trans
      String.ofList_toList

/-- A host that is parsed is a plain name. -/
theorem authorityHost_of_parsePlainName {host : String} {port : Option String} {url : UrlComponents}
    (hvalid : validateRegistryHostname host = .ok ())
    (h : parsePlainName ("https://" ++ (host ++ portSuffix port)) = some url) :
    isPlainName host = true ∧ url = ⟨"https:", "", "", host, "", "/", "", ""⟩ := by
  rw [parsePlainName] at h
  split at h
  · next hplain =>
    obtain rfl := Option.some.inj h
    rcases validateRegistryHostname_cases hvalid with ⟨address, hbracketed⟩ | ⟨-, hchars⟩
    · -- an address in brackets is read up to its first colon, with a bracket
      have hopen : '[' ∈ (authorityHost ("https://" ++ (host ++ portSuffix port))).toList := by
        have hdrop : ("https://" ++ (host ++ portSuffix port)).toList.drop 8 =
            '[' :: (address ++ [']'] ++ (portSuffix port).toList) := by
          rw [String.toList_append, String.toList_append, hbracketed.text]
          rfl
        rw [authorityHost, String.toList_ofList, hdrop, List.takeWhile_cons_of_pos (by decide)]
        exact List.mem_cons_self
      exact absurd ((isPlainName_facts hplain).1 _ hopen).1 (by decide)
    · have hcolon : ':' ∉ host.toList := fun hmem => absurd (hchars _ hmem) (by decide)
      rw [authorityHost_plain hcolon] at hplain ⊢
      exact ⟨hplain, rfl⟩
  · cases h

theorem parsePlainName_plain {host : String} (h : isPlainName host = true) (port : Option String) :
    parsePlainName ("https://" ++ (host ++ portSuffix port)) =
      some ⟨"https:", "", "", host, "", "/", "", ""⟩ := by
  have hcolon : ':' ∉ host.toList := fun hmem =>
    absurd ((isPlainName_facts h).1 _ hmem).1 (by decide)
  rw [parsePlainName, authorityHost_plain hcolon, if_pos h]

/-- A parser that reads plain names only. -/
def plainUrlParser : UrlParser where
  parseUrl := parsePlainName
  https_url := by
    intro host port url hvalid _ h
    obtain ⟨hplain, rfl⟩ := authorityHost_of_parsePlainName hvalid h
    exact ⟨⟨rfl, rfl, rfl, rfl, rfl⟩, lowerHost_of_isPlainName hplain, (isPlainName_facts hplain).2,
      id, fun _ => id⟩
  https_again := by
    intro host port url hvalid _ h
    obtain ⟨hplain, rfl⟩ := authorityHost_of_parsePlainName hvalid h
    exact ⟨_, parsePlainName_plain hplain port, rfl⟩
  https_name := by
    intro host hplain
    have hparsed := parsePlainName_plain hplain none
    rw [portSuffix, String.append_empty] at hparsed
    exact ⟨_, hparsed, rfl⟩

/-- A reference to a registry that is not Docker Hub. -/
def appResult : ParsedImageReference :=
  ⟨"ghcr.io", "acme/app", "1.0", none, "1.0", "ghcr.io/acme/app:1.0"⟩

theorem app_reference_kept :
    Reparses plainUrlParser appResult ∧
      SpellingsAgree plainUrlParser "ghcr.io/acme/app:1.0" appResult := by
  have haccepted : parseImageReference plainUrlParser.parseUrl "ghcr.io/acme/app:1.0" =
      .ok appResult := by decide +kernel
  obtain ⟨text, registry, htext, himage, hlength, hregistry, hresult⟩ := parse_ok haccepted
  refine (image_reference_iff plainUrlParser "ghcr.io/acme/app:1.0" appResult haccepted).mpr
    ⟨(fitsInFull_iff htext himage hlength hregistry hresult).mpr (by decide), ?_⟩
  intro other hother hspelling
  -- a spelling of an image of Docker Hub names another registry
  obtain ⟨host, hhost, name, hname, himage⟩ := mem_hubSpellings.mp hspelling
  have hfinish := hubSpelling_ok hother hhost hname himage haccepted
  have hhub : "ghcr.io" = hubRegistry host := congrArg (·.registry) (finish_ok.mp hfinish).2
  have hbase := (hubRegistry_facts plainUrlParser hhost).2.1 false
  rw [← hhub] at hbase
  exact absurd hbase (by decide)

/-- `docker.io/nginx` is accepted, and is read as another image than `nginx`. -/
theorem docker_io_spelling_differs :
    parseImageReference plainUrlParser.parseUrl "docker.io/nginx" =
        .ok ⟨"docker.io", "nginx", "latest", none, "latest", "docker.io/nginx:latest"⟩ ∧
      parseImageReference plainUrlParser.parseUrl "nginx" =
        .ok ⟨"registry-1.docker.io", "library/nginx", "latest", none, "latest",
          "registry-1.docker.io/library/nginx:latest"⟩ ∧
      ¬ SpellingsAgree plainUrlParser "docker.io/nginx"
        ⟨"docker.io", "nginx", "latest", none, "latest", "docker.io/nginx:latest"⟩ := by
  refine ⟨by decide +kernel, by decide +kernel, fun hagree => ?_⟩
  have hvalid : IsHubImage ⟨none, "nginx".toList, none, none⟩ :=
    ⟨⟨nofun, fun _ h => absurd h (by decide), by decide, nofun, nofun⟩, rfl⟩
  have hrepository := (hagree _ hvalid (by decide +kernel) "nginx" (by decide +kernel)
    ⟨"registry-1.docker.io", "library/nginx", "latest", none, "latest",
      "registry-1.docker.io/library/nginx:latest"⟩ (by decide +kernel)).1
  exact absurd hrepository (by decide)

end ComposeBastion
