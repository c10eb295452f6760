import ComposeBastion.Js.Record
import ComposeBastion.Js.Url
import Mathlib.Data.List.Infix
import Mathlib.Data.List.TakeWhile

namespace ComposeBastion

open Js

/-!
# Authorities of registries

`normalizeRegistryAuthority` of `packages/shared/src/registry.ts`: the host and the port of a
registry, with the host as the URL parser writes it.

* `UrlParser` — the parser, with what is known of its hosts;
* `normalizeRegistryAuthority` — the function;
* `normalizeRegistryAuthority_again` — a normalized authority is left as it is.
-/

/-! ### Hosts -/

/-- `/^(?:0|[1-9][0-9]{0,2})$/`, and at most 255. -/
def isOctet (octet : List Char) : Bool :=
  octet = ['0'] || (octet.all Char.isDigit && octet.head?.any (· ≠ '0') && octet.length ≤ 3
    && octet.foldl (fun n c => 10 * n + (c.toNat - '0'.toNat)) 0 ≤ 255)

def isCanonicalIpv4 (value : String) : Bool :=
  let octets := value.toList.splitOn '.'
  octets.length = 4 && octets.all isOctet

/-- `/^[0-9.]+$/`. -/
def isDotted (value : String) : Bool :=
  value ≠ "" && value.toList.all fun c => c.isDigit || c = '.'

/-- `/^[a-z0-9](?:[a-z0-9-]{0,61}[a-z0-9])?$/i`. -/
def registryDomainLabel (label : List Char) : Bool :=
  label.length ≤ 63 && label.all (fun c => c.isAlphanum || c = '-')
    && label.head?.any Char.isAlphanum && label.getLast?.any Char.isAlphanum

def isHexDigit (c : Char) : Bool :=
  c.isDigit || ('a' ≤ c && c ≤ 'f') || ('A' ≤ c && c ≤ 'F')

/-- `/^\[[0-9a-f:.]+\]$/i`, and a colon. -/
def isBracketed (value : String) : Bool :=
  let address := value.toList.tail.dropLast
  value.toList = '[' :: (address ++ [']']) && address ≠ []
    && address.all (fun c => isHexDigit c || c = ':' || c = '.') && value.toList.contains ':'

def validateRegistryHostname (value : String) : Except String Unit :=
  if startsWith value "[" || endsWith value "]" then
    if isBracketed value then .ok ()
    else .error "Registry hostname must be a valid bracketed IPv6 address"
  else if isDotted value then
    if isCanonicalIpv4 value then .ok ()
    else .error "Registry hostname must be a valid IPv4 address"
  else if codeUnits value > 253 || endsWith value "." then
    .error "Registry hostname is too long or has a trailing dot"
  else if (value.toList.splitOn '.').all registryDomainLabel then .ok ()
  else .error "Registry hostname contains an invalid DNS label"

/-! ### Authorities -/

/-- `/[\u0000-\u0020\u007f\\/?#@]/`. -/
def isAuthorityDelimiter (c : Char) : Bool :=
  c.toNat ≤ 0x20 || c.toNat = 0x7f || c = '\\' || c = '/' || c = '?' || c = '#' || c = '@'

/-- `value.includes(part)`. -/
def includesText (value part : String) : Bool := value.toList.tails.any part.toList.isPrefixOf

/-- `(?::([0-9]+))?$`. -/
def readPort : List Char → Option (Option String)
  | [] => some none
  | c :: digits =>
    if c = ':' && digits ≠ [] && digits.all Char.isDigit then some (some (String.ofList digits))
    else none

/-- The host and the port of `value`. -/
def splitAuthority (value : String) : Except String (String × Option String) :=
  match value.toList with
  | '[' :: rest =>
    let address := rest.takeWhile (· ≠ ']')
    match rest.dropWhile (· ≠ ']'), address with
    | ']' :: port, _ :: _ =>
      match readPort port with
      | some port => .ok (String.ofList ('[' :: (address ++ [']'])), port)
      | none => .error "Registry IPv6 hosts must be bracketed and may include one numeric port"
    | _, _ => .error "Registry IPv6 hosts must be bracketed and may include one numeric port"
  | chars =>
    match chars.takeWhile (· ≠ ':'), readPort (chars.dropWhile (· ≠ ':')) with
    | host@(_ :: _), some port => .ok (String.ofList host, port)
    | _, _ => .error "Registry host may include one numeric port"

/-- `/^[1-9][0-9]{0,4}$/`, and at most 65535. -/
def isPortText (port : String) : Bool :=
  port.toList.all Char.isDigit && port.toList.head?.any (· ≠ '0') && port.length ≤ 5
    && port.toList.foldl (fun n c => 10 * n + (c.toNat - '0'.toNat)) 0 ≤ 65535

/-- `hostname.toLowerCase()`; a valid hostname is ASCII. -/
def lowerHost (hostname : String) : String := String.ofList (hostname.toList.map Char.toLower)

/-- `:port`, if there is one. -/
def portSuffix : Option String → String
  | none => ""
  | some port => ":" ++ port

def normalizeRegistryAuthority (parseUrl : String → Option UrlComponents) (input : String) :
    Except String String := do
  let value := trim input
  if value = "" || codeUnits value > 320 then
    .error "Registry host is missing or too long"
  else if value.toList.any isAuthorityDelimiter || includesText value "://" then
    .error "Registry host must contain only a hostname or IP address and an optional port"
  else
    let (rawHostname, rawPort) ← splitAuthority value
    if rawPort.any fun port => !isPortText port then
      .error "Registry port must be between 1 and 65535"
    else
      validateRegistryHostname rawHostname
      match parseUrl ("https://" ++ value) with
      | none => .error "Registry host is malformed"
      | some parsed =>
        if parsed.username ≠ "" || parsed.password ≠ "" || parsed.pathname ≠ "/"
            || parsed.search ≠ "" || parsed.hash ≠ "" then
          .error "Registry host is malformed"
        else if isDotted rawHostname && parsed.hostname ≠ rawHostname then
          .error "Registry IPv4 addresses must use canonical dotted-decimal notation"
        else
          validateRegistryHostname parsed.hostname
          .ok (lowerHost parsed.hostname ++ portSuffix rawPort)

/-! ### Valid hosts -/

/-- A character of a host name or an IPv4 address. -/
def isHostChar (c : Char) : Bool := c.isAlphanum || c = '-' || c = '.'

theorem mem_splitOn (separator : Char) {c : Char} {text : List Char} (h : c ∈ text) :
    c = separator ∨ ∃ part ∈ text.splitOn separator, c ∈ part := by
  induction text with
  | nil => cases h
  | cons d text ih =>
    rw [List.splitOn_cons_eq_if_modifyHead]
    by_cases hd : (d == separator) = true
    · rw [if_pos hd]
      rcases List.mem_cons.mp h with rfl | h
      · exact .inl (beq_iff_eq.mp hd)
      · exact (ih h).imp_right fun ⟨part, hpart, hc⟩ => ⟨part, List.mem_cons_of_mem _ hpart, hc⟩
    · rw [if_neg hd]
      cases hsplit : text.splitOn separator with
      | nil => exact absurd hsplit (List.splitOn_ne_nil _ _)
      | cons first rest =>
        rw [hsplit] at ih
        rw [List.modifyHead_cons]
        rcases List.mem_cons.mp h with rfl | h
        · exact .inr ⟨c :: first, List.mem_cons_self, List.mem_cons_self⟩
        · rcases ih h with heq | ⟨part, hpart, hc⟩
          · exact .inl heq
          · rcases List.mem_cons.mp hpart with rfl | hpart
            · exact .inr ⟨d :: part, List.mem_cons_self, List.mem_cons_of_mem d hc⟩
            · exact .inr ⟨part, List.mem_cons_of_mem _ hpart, hc⟩

/-- An IPv6 address in brackets, without them. -/
structure IsBracketedHost (value : String) (address : List Char) : Prop where
  text : value.toList = '[' :: (address ++ [']'])
  ne_nil : address ≠ []
  chars : ∀ c ∈ address, isHexDigit c = true ∨ c = ':' ∨ c = '.'
  colon : ':' ∈ value.toList

/-- **What a valid hostname is.** -/
theorem validateRegistryHostname_cases {value : String}
    (h : validateRegistryHostname value = .ok ()) :
    (∃ address, IsBracketedHost value address) ∨
      value.toList ≠ [] ∧ ∀ c ∈ value.toList, isHostChar c = true := by
  rw [validateRegistryHostname] at h
  split at h
  · split at h
    · next hbracketed =>
      simp only [isBracketed, Bool.and_eq_true, decide_eq_true_eq, List.all_eq_true,
        Bool.or_eq_true, List.contains_iff_mem, or_assoc] at hbracketed
      obtain ⟨⟨⟨htext, hne⟩, hchars⟩, hcolon⟩ := hbracketed
      exact .inl ⟨_, htext, hne, hchars, hcolon⟩
    · cases h
  · right
    split at h
    · next hdotted =>
      simp only [isDotted, Bool.and_eq_true, decide_eq_true_eq, List.all_eq_true,
        Bool.or_eq_true] at hdotted
      refine ⟨fun hnil => hdotted.1 (String.toList_inj.mp hnil), fun c hc => ?_⟩
      rcases hdotted.2 c hc with hdigit | rfl
      · simp [isHostChar, Char.isAlphanum, hdigit]
      · decide
    · split at h
      · cases h
      · split at h
        · next hlabels =>
          have hlabel : ∀ part ∈ value.toList.splitOn '.', registryDomainLabel part = true :=
            List.all_eq_true.mp hlabels
          constructor
          · intro hnil
            rw [hnil] at hlabel
            exact absurd (hlabel [] (by decide)) (by decide)
          · intro c hc
            rcases mem_splitOn '.' hc with rfl | ⟨part, hpart, hc⟩
            · decide
            · have hvalid := hlabel part hpart
              simp only [registryDomainLabel, Bool.and_eq_true, List.all_eq_true] at hvalid
              have hchar := hvalid.1.1.2 c hc
              rw [isHostChar, hchar, Bool.true_or]
        · cases h

/-! ### Reading an authority -/

theorem isPortText_digits {port : String} (h : isPortText port = true) :
    port.toList ≠ [] ∧ port.toList.all Char.isDigit = true ∧ port.length ≤ 5 := by
  simp only [isPortText, Bool.and_eq_true, decide_eq_true_eq] at h
  obtain ⟨⟨⟨hdigits, hhead⟩, hlength⟩, -⟩ := h
  refine ⟨fun hnil => ?_, hdigits, hlength⟩
  rw [hnil] at hhead
  cases hhead

/-- A port that may stand in an authority. -/
def IsPortOption (port : Option String) : Prop := ∀ text, port = some text → isPortText text = true

theorem readPort_portSuffix {port : Option String} (h : IsPortOption port) :
    readPort (portSuffix port).toList = some port := by
  cases port with
  | none => rfl
  | some text =>
    obtain ⟨hne, hdigits, -⟩ := isPortText_digits (h text rfl)
    rw [portSuffix, String.toList_append, show ":".toList = [':'] from rfl, List.singleton_append,
      readPort, decide_eq_true hne, hdigits, String.ofList_toList]
    rfl

theorem readPort_eq_some {chars : List Char} {port : Option String}
    (h : readPort chars = some port) : chars = (portSuffix port).toList := by
  cases chars with
  | nil =>
    obtain rfl := Option.some.inj h
    rfl
  | cons c digits =>
    rw [readPort] at h
    split at h
    · next hc =>
      simp only [Bool.and_eq_true, decide_eq_true_eq] at hc
      obtain rfl := Option.some.inj h
      rw [hc.1.1, portSuffix, String.toList_append]
      exact congrArg (':' :: ·) String.toList_ofList.symm
    · cases h

/-- The host and the port make up the authority. -/
theorem splitAuthority_ok {value host : String} {port : Option String}
    (h : splitAuthority value = .ok (host, port)) : value = host ++ portSuffix port := by
  have hinj : ∀ {front : List Char}, value.toList = front ++ (portSuffix port).toList →
      host = String.ofList front → value = host ++ portSuffix port := by
    intro front htext heq
    rw [← String.toList_inj, htext, String.toList_append, heq, String.toList_ofList]
  rw [splitAuthority] at h
  split at h
  · next rest hvalue =>
    dsimp only at h
    split at h
    · next portChars c address hrest haddress =>
      split at h
      · next port' hport =>
        obtain ⟨rfl, rfl⟩ := Prod.mk.inj (Except.ok.inj h)
        refine hinj ?_ rfl
        have hsplit : rest = rest.takeWhile (· ≠ ']') ++ ']' :: portChars := by
          rw [← hrest, List.takeWhile_append_dropWhile]
        rw [hvalue, ← readPort_eq_some hport, List.cons_append, List.append_assoc]
        exact congrArg ('[' :: ·) hsplit
      · cases h
    · cases h
  · split at h
    · next hostChars port' c rest hhost hport =>
      obtain ⟨rfl, rfl⟩ := Prod.mk.inj (Except.ok.inj h)
      refine hinj ?_ rfl
      rw [← readPort_eq_some hport, ← hhost, List.takeWhile_append_dropWhile]
    · cases h

/-- A valid host and a port are read as they are. -/
theorem splitAuthority_hostname {host : String} {port : Option String}
    (hhost : validateRegistryHostname host = .ok ()) (hport : IsPortOption port) :
    splitAuthority (host ++ portSuffix port) = .ok (host, port) := by
  rw [splitAuthority, String.toList_append]
  rcases validateRegistryHostname_cases hhost with ⟨address, hbracketed⟩ | ⟨hne, hchars⟩
  · have hclose : ∀ c ∈ address, (decide (c ≠ ']')) = true := by
      intro c hc
      rcases hbracketed.chars c hc with hhex | rfl | rfl
      · refine decide_eq_true fun heq => ?_
        rw [heq] at hhex
        exact absurd hhex (by decide)
      · decide
      · decide
    have htext : host.toList ++ (portSuffix port).toList =
        '[' :: (address ++ ']' :: (portSuffix port).toList) := by
      rw [hbracketed.text, List.cons_append, List.append_assoc]
      rfl
    rw [htext]
    simp only [List.takeWhile_append_of_pos hclose, List.dropWhile_append_of_pos hclose]
    rw [List.takeWhile_cons_of_neg (by decide), List.dropWhile_cons_of_neg (by decide),
      List.append_nil]
    cases haddress : address with
    | nil => exact absurd haddress hbracketed.ne_nil
    | cons c rest =>
      simp only [readPort_portSuffix hport]
      rw [← haddress, ← hbracketed.text, String.ofList_toList]
  · have hcolon : ∀ c ∈ host.toList, (decide (c ≠ ':')) = true := by
      intro c hc
      refine decide_eq_true fun heq => ?_
      have hchar := hchars c hc
      rw [heq] at hchar
      exact absurd hchar (by decide)
    have hopen : ∀ rest, host.toList ++ (portSuffix port).toList ≠ '[' :: rest := by
      intro rest heq
      cases hlist : host.toList with
      | nil => exact hne hlist
      | cons c cs =>
        rw [hlist] at heq
        have hchar := hchars c (by rw [hlist]; exact List.mem_cons_self)
        rw [(List.cons.inj heq).1] at hchar
        exact absurd hchar (by decide)
    have htail : (portSuffix port).toList.takeWhile (· ≠ ':') = [] ∧
        (portSuffix port).toList.dropWhile (· ≠ ':') = (portSuffix port).toList := by
      cases port with
      | none => exact ⟨rfl, rfl⟩
      | some text =>
        rw [portSuffix, String.toList_append]
        exact ⟨List.takeWhile_cons_of_neg (by decide), List.dropWhile_cons_of_neg (by decide)⟩
    split
    · next rest heq => exact absurd heq (hopen rest)
    · rw [List.takeWhile_append_of_pos hcolon, List.dropWhile_append_of_pos hcolon, htail.1,
        htail.2, List.append_nil, readPort_portSuffix hport]
      cases hlist : host.toList with
      | nil => exact absurd hlist hne
      | cons c cs =>
        simp only
        rw [← hlist, String.ofList_toList]

/-! ### Characters of an authority -/

theorem isAlphanum_toNat {c : Char} (h : c.isAlphanum = true) :
    (65 ≤ c.toNat ∧ c.toNat ≤ 90) ∨ (97 ≤ c.toNat ∧ c.toNat ≤ 122) ∨
      (48 ≤ c.toNat ∧ c.toNat ≤ 57) := by
  have halnum : c.isAlphanum = (decide (c.val ≥ 'A'.val ∧ c.val ≤ 'Z'.val)
      || (decide (c.val ≥ 'a'.val) && decide (c.val ≤ 'z'.val))
      || (decide (c.val ≥ '0'.val) && decide (c.val ≤ '9'.val))) := rfl
  rw [halnum] at h
  simp only [Bool.or_eq_true, Bool.and_eq_true, decide_eq_true_eq, UInt32.le_iff_toNat_le,
    ge_iff_le, or_assoc] at h
  exact h

/-- A character of a host, a colon or a bracket. -/
def IsAuthorityChar (c : Char) : Prop := isHostChar c = true ∨ c = ':' ∨ c = '[' ∨ c = ']'

theorem isAuthorityChar_facts {c : Char} (h : IsAuthorityChar c) :
    isWhiteSpace c = false ∧ isAuthorityDelimiter c = false ∧ c.toNat < 0x80 := by
  have hword : ∀ d : Char, (65 ≤ d.toNat ∧ d.toNat ≤ 90) ∨ (97 ≤ d.toNat ∧ d.toNat ≤ 122) ∨
      (48 ≤ d.toNat ∧ d.toNat ≤ 57) →
      isWhiteSpace d = false ∧ isAuthorityDelimiter d = false ∧ d.toNat < 0x80 := by
    intro d hd
    have hne : ∀ e : Char, e.toNat < 48 ∨ (57 < e.toNat ∧ e.toNat < 65) ∨
        (90 < e.toNat ∧ e.toNat < 97) → d ≠ e := by
      rintro e he rfl
      omega
    refine ⟨?_, ?_, by omega⟩
    · simp only [isWhiteSpace, Bool.or_eq_false_iff, Bool.and_eq_false_iff,
        decide_eq_false_iff_not, beq_eq_false_iff_ne]
      omega
    · simp only [isAuthorityDelimiter, Bool.or_eq_false_iff, decide_eq_false_iff_not]
      refine ⟨⟨⟨⟨⟨⟨by omega, by omega⟩, hne _ ?_⟩, hne _ ?_⟩, hne _ ?_⟩, hne _ ?_⟩, hne _ ?_⟩
      all_goals decide
  rcases h with hhost | rfl | rfl | rfl
  · simp only [isHostChar, Bool.or_eq_true, decide_eq_true_eq] at hhost
    rcases hhost with (halnum | rfl) | rfl
    · exact hword c (isAlphanum_toNat halnum)
    · decide
    · decide
  · decide
  · decide
  · decide

theorem isAlphanum_of_isHexDigit {c : Char} (h : isHexDigit c = true) : c.isAlphanum = true := by
  simp only [isHexDigit, Bool.or_eq_true, Bool.and_eq_true, decide_eq_true_eq, Char.le_def,
    UInt32.le_iff_toNat_le] at h
  have halnum : c.isAlphanum = (decide (c.val ≥ 'A'.val ∧ c.val ≤ 'Z'.val)
      || (decide (c.val ≥ 'a'.val) && decide (c.val ≤ 'z'.val)) || c.isDigit) := rfl
  have ha : 'a'.val.toNat = 97 ∧ 'f'.val.toNat = 102 ∧ 'z'.val.toNat = 122 := ⟨rfl, rfl, rfl⟩
  have hA : 'A'.val.toNat = 65 ∧ 'F'.val.toNat = 70 ∧ 'Z'.val.toNat = 90 := ⟨rfl, rfl, rfl⟩
  rw [halnum]
  simp only [Bool.or_eq_true, Bool.and_eq_true, decide_eq_true_eq, UInt32.le_iff_toNat_le,
    ge_iff_le]
  rcases h with (hdigit | hlower) | hupper
  · exact .inr hdigit
  · exact .inl (.inr ⟨by omega, by omega⟩)
  · exact .inl (.inl ⟨by omega, by omega⟩)

theorem isAuthorityChar_hostname {host : String} (h : validateRegistryHostname host = .ok ()) :
    ∀ c ∈ host.toList, IsAuthorityChar c := by
  intro c hc
  rcases validateRegistryHostname_cases h with ⟨address, hbracketed⟩ | ⟨-, hchars⟩
  · rw [hbracketed.text, List.mem_cons, List.mem_append, List.mem_singleton] at hc
    rcases hc with rfl | hc | rfl
    · exact .inr (.inr (.inl rfl))
    · rcases hbracketed.chars c hc with hhex | rfl | rfl
      · exact .inl (by rw [isHostChar, isAlphanum_of_isHexDigit hhex]; rfl)
      · exact .inr (.inl rfl)
      · exact .inl (by decide)
    · exact .inr (.inr (.inr rfl))
  · exact .inl (hchars c hc)

theorem isAuthorityChar_authority {host : String} {port : Option String}
    (hhost : validateRegistryHostname host = .ok ()) (hport : IsPortOption port) :
    ∀ c ∈ (host ++ portSuffix port).toList, IsAuthorityChar c := by
  intro c hc
  rw [String.toList_append, List.mem_append] at hc
  rcases hc with hc | hc
  · exact isAuthorityChar_hostname hhost c hc
  · cases port with
    | none => cases hc
    | some text =>
      have hdigits := List.all_eq_true.mp (isPortText_digits (hport text rfl)).2.1
      rw [portSuffix, String.toList_append, List.mem_append] at hc
      rcases hc with hc | hc
      · exact .inr (.inl (List.mem_singleton.mp hc))
      · refine .inl ?_
        rw [isHostChar, Char.isAlphanum, hdigits c hc, Bool.or_true]
        rfl

theorem codeUnits_ascii {text : String} (h : ∀ c ∈ text.toList, c.toNat < 0x80) :
    codeUnits text = text.toList.length := by
  have hfold : ∀ (cs : List Char) (n : ℕ), (∀ c ∈ cs, c.toNat < 0x80) →
      cs.foldl (fun n c => if c.toNat < 0x10000 then n + 1 else n + 2) n = n + cs.length := by
    intro cs
    induction cs with
    | nil => exact fun n _ => rfl
    | cons c cs ih =>
      intro n hcs
      have hc := hcs c List.mem_cons_self
      rw [List.foldl_cons, if_pos (by omega), ih _ fun d hd => hcs d (List.mem_cons_of_mem c hd),
        List.length_cons]
      omega
  rw [codeUnits, hfold _ 0 h, Nat.zero_add]

/-! ### The URL parser -/

/-- What the parser makes of `https://`, a valid host and a port: there are no other components,
    and the hostname is in lower case, of the same kind as the host. -/
structure HttpsUrl (host : String) (url : UrlComponents) : Prop where
  components : url.username = "" ∧ url.password = "" ∧ url.pathname = "/" ∧ url.search = "" ∧
    url.hash = ""
  lower : lowerHost url.hostname = url.hostname
  length : url.hostname.toList.length ≤ 253
  bracketed : startsWith host "[" = true → startsWith url.hostname "[" = true
  dotted : startsWith host "[" = false → '.' ∈ host.toList → '.' ∈ url.hostname.toList

/-- A name of lower-case labels that the parser has no reason to rewrite: none is encoded, and the
    last is not a number. -/
def isPlainName (host : String) : Bool :=
  let labels := host.toList.splitOn '.'
  labels.all (fun label => registryDomainLabel label && label.all (fun c => c.toLower = c)
    && !("xn--".toList.isPrefixOf label)) && labels.getLast?.any (·.head?.any Char.isAlpha)
    && host.toList.length ≤ 253

/-- `new URL`, with what is known of it on authorities. -/
structure UrlParser where
  parseUrl : String → Option UrlComponents
  https_url : ∀ {host : String} {port : Option String} {url : UrlComponents},
    validateRegistryHostname host = .ok () → IsPortOption port →
    parseUrl ("https://" ++ (host ++ portSuffix port)) = some url → HttpsUrl host url
  /-- The hostname of a URL is read as itself. -/
  https_again : ∀ {host : String} {port : Option String} {url : UrlComponents},
    validateRegistryHostname host = .ok () → IsPortOption port →
    parseUrl ("https://" ++ (host ++ portSuffix port)) = some url →
    ∃ again, parseUrl ("https://" ++ (url.hostname ++ portSuffix port)) = some again ∧
      again.hostname = url.hostname
  https_name : ∀ {host : String}, isPlainName host = true →
    ∃ url, parseUrl ("https://" ++ host) = some url ∧ url.hostname = host

/-! ### Normalized authorities -/

/-- A hostname that the parser leaves as it is, and a port. -/
structure IsAuthority (parser : UrlParser) (hostname : String) (port : Option String) : Prop where
  valid : validateRegistryHostname hostname = .ok ()
  isPort : IsPortOption port
  lower : lowerHost hostname = hostname
  length : hostname.toList.length ≤ 253
  parsed : ∃ url, parser.parseUrl ("https://" ++ (hostname ++ portSuffix port)) = some url ∧
    url.hostname = hostname

theorem isPlainName_facts {host : String} (h : isPlainName host = true) :
    (∀ c ∈ host.toList, isHostChar c = true ∧ c.toLower = c) ∧ host.toList.length ≤ 253 := by
  simp only [isPlainName, Bool.and_eq_true, List.all_eq_true, decide_eq_true_eq] at h
  obtain ⟨⟨hlabels, -⟩, hlength⟩ := h
  refine ⟨fun c hc => ?_, hlength⟩
  rcases mem_splitOn '.' hc with rfl | ⟨label, hlabel, hc⟩
  · decide
  · obtain ⟨⟨hvalid, hlower⟩, -⟩ := hlabels label hlabel
    simp only [registryDomainLabel, Bool.and_eq_true, List.all_eq_true] at hvalid
    refine ⟨?_, hlower c hc⟩
    rw [isHostChar, hvalid.1.1.2 c hc, Bool.true_or]

theorem lowerHost_of_isPlainName {host : String} (h : isPlainName host = true) :
    lowerHost host = host := by
  have hmap : host.toList.map Char.toLower = host.toList.map id :=
    List.map_congr_left fun c hc => ((isPlainName_facts h).1 c hc).2
  rw [lowerHost, hmap, List.map_id, String.ofList_toList]

theorem includesText_iff {value part : String} :
    includesText value part = true ↔ part.toList <:+: value.toList := by
  rw [includesText, List.any_eq_true]
  constructor
  · rintro ⟨tail, htail, hpart⟩
    exact (List.isPrefixOf_iff_prefix.mp hpart).isInfix.trans
      ((List.mem_tails _ _).mp htail).isInfix
  · rintro ⟨front, back, heq⟩
    refine ⟨part.toList ++ back, (List.mem_tails _ _).mpr ⟨front, by rw [← heq, List.append_assoc]⟩, ?_⟩
    exact List.isPrefixOf_iff_prefix.mpr (List.prefix_append _ _)

theorem normalizeRegistryAuthority_ok {parser : UrlParser} {input authority : String}
    (h : normalizeRegistryAuthority parser.parseUrl input = .ok authority) :
    ∃ host port hostname, trim input = host ++ portSuffix port ∧
      validateRegistryHostname host = .ok () ∧ IsAuthority parser hostname port ∧
      authority = hostname ++ portSuffix port ∧
      (startsWith host "[" = true → startsWith hostname "[" = true) ∧
      (startsWith host "[" = false → '.' ∈ host.toList → '.' ∈ hostname.toList) ∧
      (isPlainName (trim input) = true → authority = trim input) := by
  rw [normalizeRegistryAuthority] at h
  dsimp only at h
  split at h
  · cases h
  split at h
  · cases h
  obtain ⟨⟨host, port⟩, hsplit, h⟩ := bind_eq_ok.mp h
  dsimp only at h
  split at h
  · cases h
  next hport =>
  obtain ⟨⟨⟩, hhost, h⟩ := bind_eq_ok.mp h
  split at h
  · cases h
  next url hurl =>
  split at h
  · cases h
  split at h
  · cases h
  obtain ⟨⟨⟩, hhostname, h⟩ := bind_eq_ok.mp h
  have hvalue := splitAuthority_ok hsplit
  have hisPort : IsPortOption port := by
    intro text htext
    rw [htext] at hport
    simpa using hport
  have hurl' := hurl
  rw [hvalue] at hurl
  have hhttps := parser.https_url hhost hisPort hurl
  rw [hhttps.lower] at h
  obtain rfl := Except.ok.inj h
  refine ⟨host, port, url.hostname, hvalue, hhost,
    ⟨hhostname, hisPort, hhttps.lower, hhttps.length, parser.https_again hhost hisPort hurl⟩, rfl,
    hhttps.bracketed, hhttps.dotted, fun hplain => ?_⟩
  -- a plain name has no port, and is its own hostname
  obtain ⟨url', hurl'', hname⟩ := parser.https_name hplain
  obtain rfl := Option.some.inj (hurl'.symm.trans hurl'')
  cases port with
  | none =>
    rw [hname]
    simp [portSuffix]
  | some text =>
    have hcolon : ':' ∈ (trim input).toList := by
      rw [hvalue, portSuffix, String.toList_append, String.toList_append]
      exact List.mem_append_right _ (List.mem_append_left _ List.mem_cons_self)
    exact absurd ((isPlainName_facts hplain).1 ':' hcolon).1 (by decide)

/-- **A normalized authority is left as it is.** -/
theorem IsAuthority.normalize {parser : UrlParser} {hostname : String} {port : Option String}
    (h : IsAuthority parser hostname port) :
    normalizeRegistryAuthority parser.parseUrl (hostname ++ portSuffix port) =
      .ok (hostname ++ portSuffix port) := by
  have hchars := isAuthorityChar_authority h.valid h.isPort
  have htrim : trim (hostname ++ portSuffix port) = hostname ++ portSuffix port :=
    trim_eq_self fun c hc => (isAuthorityChar_facts (hchars c hc)).1
  have hne : hostname.toList ≠ [] := by
    rcases validateRegistryHostname_cases h.valid with ⟨address, hbracketed⟩ | ⟨hne, -⟩
    · rw [hbracketed.text]
      exact List.cons_ne_nil _ _
    · exact hne
  have hmissing : ¬ (decide (hostname ++ portSuffix port = "")
      || decide (codeUnits (hostname ++ portSuffix port) > 320)) = true := by
    have hport : (portSuffix port).toList.length ≤ 6 := by
      cases port with
      | none => decide
      | some text =>
        have hlength := (isPortText_digits (h.isPort text rfl)).2.2
        rw [← String.length_toList] at hlength
        rw [portSuffix, String.toList_append, List.length_append]
        have hone : ":".toList.length = 1 := rfl
        omega
    have hlength := h.length
    rw [codeUnits_ascii fun c hc => (isAuthorityChar_facts (hchars c hc)).2.2, Bool.or_eq_true,
      decide_eq_true_eq, decide_eq_true_eq, not_or, ← String.toList_inj, String.toList_append,
      List.length_append]
    exact ⟨List.append_ne_nil_of_left_ne_nil hne _, by omega⟩
  have hdelimiter : ∀ c ∈ (hostname ++ portSuffix port).toList, isAuthorityDelimiter c = false :=
    fun c hc => (isAuthorityChar_facts (hchars c hc)).2.1
  have hplain : ¬ ((hostname ++ portSuffix port).toList.any isAuthorityDelimiter
      || includesText (hostname ++ portSuffix port) "://") = true := by
    rw [Bool.or_eq_true, includesText_iff, List.any_eq_true]
    rintro (⟨c, hc, htrue⟩ | happears)
    · rw [hdelimiter c hc] at htrue
      cases htrue
    · exact absurd (hdelimiter '/' (happears.subset (by decide))) (by decide)
  obtain ⟨url, hurl, hname⟩ := h.parsed
  have hhttps := parser.https_url h.valid h.isPort hurl
  have hport : ¬ (port.any fun text => !isPortText text) = true := by
    cases port with
    | none => decide
    | some text => simp [h.isPort text rfl]
  rw [normalizeRegistryAuthority, htrim]
  dsimp only
  rw [if_neg hmissing, if_neg hplain, splitAuthority_hostname h.valid h.isPort, ok_bind]
  dsimp only
  rw [if_neg hport, h.valid, ok_bind, hurl]
  obtain ⟨husername, hpassword, hpathname, hsearch, hhash⟩ := hhttps.components
  dsimp only
  rw [if_neg (by simp [husername, hpassword, hpathname, hsearch, hhash]),
    if_neg (by simp [hname]), hname, h.valid, ok_bind, h.lower]

end ComposeBastion
