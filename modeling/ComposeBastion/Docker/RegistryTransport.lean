import ComposeBastion.Js.Record
import ComposeBastion.Js.Url
import ComposeBastion.Lib.Sessions
import ComposeBastion.Platform.PrivateAddress

namespace ComposeBastion.RegistryHttp

open Js Program Ssrf

/-!
# Guarded requests to registries

`services/registryHttp.ts`: an HTTP request to a registry, which resolves the host by itself,
refuses addresses of private networks, hands the request a lookup that is pinned to the address it
has looked at, and follows redirects.  Every wait is a request of a program: for the clock, the
name service and the server.

* `Query`, `Answer` — what is awaited;
* `defaultResolver`, `resolveRegistryRequestTarget` — addresses of a host, and the one chosen;
* `requestOnce`, `guardedRegistryRequest` — one request, and the loop over redirects;
* `Permitted` — what a request that is sent must have behind it;
* `guardedRegistryRequest_permitted` — all requests have, whatever the environment answers.
-/

/-! ### What is awaited -/

structure RegistryResolvedAddress where
  address : String
  family : ℕ
  deriving DecidableEq, Repr

/-- `registryTransportError`, or what is thrown below it. -/
structure TransportError where
  message : String
  code : String
  deriving DecidableEq, Repr

inductive RegistryMethod
  | get | head
  deriving DecidableEq, Repr

instance : DecidableEq Record := fun record record' =>
  decidable_of_iff (record.entries = record'.entries) (by cases record; cases record'; simp)

/-- `transport.request(url, …)`; `pinned` is what its `lookup` answers, to a connection that is
    opened for the request: one that was kept alive for the origin is used without asking it. -/
structure HttpRequest where
  url : UrlComponents
  method : RegistryMethod
  headers : Record
  pinned : RegistryResolvedAddress
  deriving DecidableEq

/-- A response as it arrives: its headers have lower-case names, and a repeated one is joined. -/
structure HttpReply where
  status : ℕ
  headers : Record
  chunks : List (List UInt8)

/-- A value of `tokenCache` in `services/registryManifest.ts`. -/
structure CachedToken where
  token : String
  expiresAt : ℚ
  deriving DecidableEq, Repr

inductive Query
  -- `Date.now()`
  | now
  -- `dns.lookup(hostname, { all: true, verbatim: true })`
  | lookup (hostname : String)
  | send (request : HttpRequest)
  -- `tokenCache.get` and `tokenCache.set`
  | cachedToken (cacheKey : String)
  | cacheToken (cacheKey : String) (entry : CachedToken)

abbrev Answer : Query → Type
  | .now => ℤ
  | .lookup _ => Except TransportError (List RegistryResolvedAddress)
  | .send _ => Except TransportError HttpReply
  | .cachedToken _ => Option CachedToken
  | .cacheToken _ _ => Unit

abbrev Client (α : Type) := Program Query Answer TransportError α

abbrev History := List (Event Query Answer)

def now : Client ℤ := .await .now .ret

def lookup (hostname : String) : Client (List RegistryResolvedAddress) :=
  .await (.lookup hostname) ofExcept

def send (request : HttpRequest) : Client HttpReply := .await (.send request) ofExcept

/-- The request that a program sends next. -/
def sending {ε α : Type} : Program Query Answer ε α → Option HttpRequest
  | .await (.send request) _ => some request
  | _ => none

theorem sending_eq_some {ε α : Type} {p : Program Query Answer ε α} {request : HttpRequest}
    (h : sending p = some request) : ∃ next, p = .await (.send request) next := by
  cases p with
  | ret a => cases h
  | throw e => cases h
  | await query next =>
    cases query with
    | send request' =>
      cases h
      exact ⟨next, rfl⟩
    | now => cases h
    | lookup hostname => cases h
    | cachedToken cacheKey => cases h
    | cacheToken cacheKey entry => cases h

/-! ### Resolvers -/

def IsLookup : Query → Prop
  | .lookup _ => True
  | _ => False

/-- `RegistryResolver`: it asks nothing but the name service. -/
structure RegistryResolver where
  run : String → Client (List RegistryResolvedAddress)
  asks : ∀ hostname, (run hostname).Issues IsLookup

/-- A host without the brackets of an IPv6 address. -/
def withoutBrackets (hostname : String) : String :=
  if startsWith hostname "[" && endsWith hostname "]" then
    String.ofList hostname.toList.tail.dropLast
  else hostname

def resolveHost (hostname : String) : Client (List RegistryResolvedAddress) :=
  let host := withoutBrackets hostname
  let directFamily := isIP host
  if directFamily = 4 ∨ directFamily = 6 then .ret [⟨host, directFamily⟩]
  else lookup host

def defaultResolver : RegistryResolver where
  run := resolveHost
  asks := by
    intro hostname
    unfold resolveHost
    dsimp only
    split
    · trivial
    · refine ⟨trivial, fun answer => ?_⟩
      cases answer <;> trivial

/-! ### Options and responses -/

structure RegistryRequestPolicy where
  trustedOrigins : List String := []
  allowInsecureCredentials : Bool := false
  allowPrivateResolvedAddresses : Bool := false

structure RegistryRequestOptions where
  method : RegistryMethod := .get
  headers : Record := .empty
  timeoutMs : ℤ := 20000
  maxBytes : ℕ := 8 * 1024 * 1024
  maxRedirects : ℕ := 3
  policy : RegistryRequestPolicy := {}
  resolve : RegistryResolver := defaultResolver

structure RegistryHttpResponse where
  status : ℕ
  body : List UInt8
  headers : Record

def RegistryHttpResponse.ok (response : RegistryHttpResponse) : Bool :=
  200 ≤ response.status && response.status < 300

/-- `new URL(text)` and `new URL(text, base)`. -/
structure UrlConstructor where
  absolute : String → Option UrlComponents
  relative : String → UrlComponents → Option UrlComponents

/-! ### Deadlines and bodies -/

def registryDeadlineError : TransportError :=
  ⟨"Registry request timed out", "REGISTRY_REQUEST_TIMEOUT"⟩

/-- `remainingDeadlineMs`, for its check. -/
def remainingDeadlineMs (deadlineAt : ℤ) : Client Unit := do
  let time ← now
  if deadlineAt - time ≤ 0 then .throw registryDeadlineError else .ret ()

theorem remainingDeadlineMs_holds {pre : History → Query → Prop} {Q : Unit → History → Prop}
    {deadlineAt : ℤ} {known : History} (hask : pre known .now)
    (h : ∀ time, time < deadlineAt → Q () (remember known .now time)) :
    (remainingDeadlineMs deadlineAt).Holds pre remember Q (fun _ _ => True) known := by
  refine holds_do.mpr ⟨hask, fun time => ?_⟩
  rw [holds_ret]
  split
  · trivial
  · rename_i hleft
    exact h time (by omega)

def responseTooLarge : TransportError :=
  ⟨"Registry response exceeded the allowed size", "REGISTRY_RESPONSE_TOO_LARGE"⟩

/-- `Number(response.headers["content-length"] ?? 0)`; the HTTP parser admits digits only. -/
def declaredLength (headers : Record) : ℕ :=
  let digits := ((headers.get "content-length").getD "0").toList
  if digits.all Char.isDigit then digits.foldl (fun n c => 10 * n + (c.toNat - '0'.toNat)) 0 else 0

/-- The `data` events, and the `end` event. -/
def readBody (maxBytes : ℕ) : List UInt8 → List (List UInt8) → Except TransportError (List UInt8)
  | body, [] => .ok body
  | body, chunk :: chunks =>
    if maxBytes < body.length + chunk.length then .error responseTooLarge
    else readBody maxBytes (body ++ chunk) chunks

def readResponse (options : RegistryRequestOptions) (reply : HttpReply) :
    Except TransportError RegistryHttpResponse :=
  if options.method ≠ .head ∧ options.maxBytes < declaredLength reply.headers then
    .error responseTooLarge
  else do
    let body ← readBody options.maxBytes [] reply.chunks
    .ok ⟨reply.status, body, reply.headers⟩

theorem readBody_ok {maxBytes : ℕ} {chunks : List (List UInt8)} {body result : List UInt8}
    (h : readBody maxBytes body chunks = .ok result) (hbody : body.length ≤ maxBytes) :
    result = body ++ chunks.flatten ∧ result.length ≤ maxBytes := by
  induction chunks generalizing body with
  | nil =>
    cases h
    exact ⟨(List.append_nil _).symm, hbody⟩
  | cons chunk chunks ih =>
    rw [readBody] at h
    split at h
    · cases h
    · rename_i hsize
      obtain ⟨hresult, hlength⟩ := ih h (by rw [List.length_append]; omega)
      exact ⟨by rw [hresult, List.flatten_cons, List.append_assoc], hlength⟩

theorem readResponse_ok {options : RegistryRequestOptions} {reply : HttpReply}
    {response : RegistryHttpResponse} (h : readResponse options reply = .ok response) :
    response = ⟨reply.status, reply.chunks.flatten, reply.headers⟩
      ∧ response.body.length ≤ options.maxBytes := by
  unfold readResponse at h
  split at h
  · cases h
  · obtain ⟨body, hbody, hresponse⟩ := bind_eq_ok.mp h
    cases hresponse
    obtain ⟨hflat, hlength⟩ := readBody_ok hbody (Nat.zero_le _)
    rw [List.nil_append] at hflat
    exact ⟨by rw [hflat], hlength⟩

/-! ### Redirects -/

def invalidUrl : TransportError := ⟨"Invalid URL", "ERR_INVALID_URL"⟩

/-- The location that a response redirects to. -/
def redirectLocation (response : RegistryHttpResponse) : Option String :=
  if response.status ∈ [301, 302, 303, 307, 308] then
    (response.headers.get "location").filter (· ≠ "")
  else none

def isSend : Event Query Answer → Bool
  | ⟨.send _, _⟩ => true
  | _ => false

theorem isSend_lookup {event : Event Query Answer} (h : IsLookup event.1) :
    isSend event = false := by
  obtain ⟨query, answer⟩ := event
  cases query <;> first | rfl | exact h.elim

theorem mem_filter_isSend {request : HttpRequest} {answer : Answer (.send request)}
    {events : History} :
    (⟨.send request, answer⟩ : Event Query Answer) ∈ events.filter isSend
      ↔ ⟨.send request, answer⟩ ∈ events := by
  simp [isSend]

section

variable [CaseMapping] (urls : UrlConstructor)

/-! ### Origins -/

/-- `url.host`. -/
def host (url : UrlComponents) : String :=
  if url.port = "" then url.hostname else url.hostname ++ ":" ++ url.port

/-- `url.origin`. -/
def origin (url : UrlComponents) : String :=
  if url.protocol ∈ ["http:", "https:", "ws:", "wss:", "ftp:"] then
    url.protocol ++ "//" ++ host url
  else if url.protocol = "blob:" then
    match urls.absolute url.pathname with
    | some inner =>
      if inner.protocol = "http:" ∨ inner.protocol = "https:" then
        inner.protocol ++ "//" ++ host inner
      else "null"
    | none => "null"
  else "null"

/-- `url.origin.toLowerCase()`. -/
def lowerOrigin (url : UrlComponents) : String := toLowerCase (origin urls url)

def normalizedOrigin (value : String) : String :=
  ((urls.absolute value).map (lowerOrigin urls)).getD ""

def isTrustedRegistryOrigin (url : UrlComponents) (policy : RegistryRequestPolicy) : Bool :=
  policy.trustedOrigins.any fun candidate => normalizedOrigin urls candidate = lowerOrigin urls url

/-! ### Headers -/

def isAuthorization (entry : String × String) : Bool := toLowerCase entry.1 = "authorization"

def hasAuthorization (headers : Record) : Bool := headers.entries.any isAuthorization

def withoutAuthorization (headers : Record) : Record where
  entries := headers.entries.filter fun entry => !isAuthorization entry
  nodup := headers.nodup.sublist (List.filter_sublist.map _)

theorem hasAuthorization_withoutAuthorization (headers : Record) :
    hasAuthorization (withoutAuthorization headers) = false := by
  rw [hasAuthorization, List.any_eq_false]
  intro entry hentry
  have hkept := (List.mem_filter.mp hentry).2
  simpa using hkept

theorem withoutAuthorization_again (headers : Record) :
    withoutAuthorization (withoutAuthorization headers) = withoutAuthorization headers := by
  unfold withoutAuthorization
  simp [List.filter_filter]

/-! ### One request -/

def resolveRegistryRequestTarget (url : UrlComponents) (policy : RegistryRequestPolicy)
    (resolve : RegistryResolver) : Client RegistryResolvedAddress :=
  if url.protocol ≠ "https:" ∧ url.protocol ≠ "http:" then
    .throw ⟨"Registry requests must use HTTP or HTTPS", "INVALID_REGISTRY_PROTOCOL"⟩
  else if url.username ≠ "" ∨ url.password ≠ "" then
    .throw ⟨"Registry request URLs must not contain credentials", "INVALID_REGISTRY_URL"⟩
  else do
    let addresses ← resolve.run url.hostname
    match addresses with
    | [] => .throw ⟨"Registry hostname did not resolve", "ENOTFOUND"⟩
    | first :: _ =>
      if addresses.any fun entry =>
          (entry.family ≠ 4 && entry.family ≠ 6) || isIP entry.address ≠ entry.family then
        .throw ⟨"Registry DNS returned an invalid address", "ENOTFOUND"⟩
      else if !isTrustedRegistryOrigin urls url policy && !policy.allowPrivateResolvedAddresses then
        match addresses.find? fun entry => isPrivateIp entry.address with
        | some blocked =>
          .throw ⟨"Registry hostname resolved to a blocked network address (" ++ blocked.address
            ++ ")", "PRIVATE_REGISTRY_ADDRESS"⟩
        | none => .ret first
      else .ret first

/-- The deadlines: `withinRegistryDeadline` reads the clock when the resolution has begun, and the
    answer of a resolution or a server that comes too late is an error. -/
def requestOnce (url : UrlComponents) (options : RegistryRequestOptions) (headers : Record)
    (deadlineAt : ℤ) : Client RegistryHttpResponse :=
  if hasAuthorization headers ∧ url.protocol ≠ "https:"
      ∧ ¬ (isTrustedRegistryOrigin urls url options.policy
        ∧ options.policy.allowInsecureCredentials) then
    .throw ⟨"Registry credentials require HTTPS unless the saved registry is explicitly insecure",
      "INSECURE_REGISTRY_CREDENTIALS"⟩
  else do
    remainingDeadlineMs deadlineAt
    let selected ← resolveRegistryRequestTarget urls url options.policy options.resolve
    remainingDeadlineMs deadlineAt
    let reply ← send ⟨url, options.method, headers, selected⟩
    ofExcept (readResponse options reply)

/-- The loop of `guardedRegistryRequest`, with the number of redirects that it may still follow. -/
def follow (options : RegistryRequestOptions) (deadlineAt : ℤ) :
    ℕ → UrlComponents → Record → Client RegistryHttpResponse
  | left, current, headers => do
    let response ← requestOnce urls current options headers deadlineAt
    match redirectLocation response with
    | none => .ret response
    | some location =>
      match left with
      | 0 => .throw ⟨"Registry redirected too many times", "REGISTRY_REDIRECT_LIMIT"⟩
      | left + 1 =>
        match urls.relative location current with
        | none => .throw invalidUrl
        | some next =>
          follow options deadlineAt left next
            (if lowerOrigin urls next ≠ lowerOrigin urls current then withoutAuthorization headers
              else headers)

def guardedRegistryRequest (options : RegistryRequestOptions) (url : UrlComponents) :
    Client RegistryHttpResponse := do
  let start ← now
  follow urls options (start + options.timeoutMs) options.maxRedirects url options.headers

/-! ### What a request has behind it -/

/-- An answer of the resolver for `url` that was checked, and the address taken from it. -/
structure Checked (url : UrlComponents) (policy : RegistryRequestPolicy)
    (addresses : List RegistryResolvedAddress) (selected : RegistryResolvedAddress) : Prop where
  scheme : url.protocol = "https:" ∨ url.protocol = "http:"
  bare : url.username = "" ∧ url.password = ""
  head : addresses.head? = some selected
  literal : ∀ entry ∈ addresses,
    (entry.family = 4 ∨ entry.family = 6) ∧ isIP entry.address = entry.family
  notPrivate : isTrustedRegistryOrigin urls url policy = true
    ∨ policy.allowPrivateResolvedAddresses = true
    ∨ ∀ entry ∈ addresses, isPrivateIp entry.address = false

/-- Credentials may go to `url`. -/
def MaySendCredentials (url : UrlComponents) (policy : RegistryRequestPolicy) : Prop :=
  url.protocol = "https:"
    ∨ (isTrustedRegistryOrigin urls url policy = true ∧ policy.allowInsecureCredentials = true)

/-- The host of `url` was resolved at the end of `history`, in time and for this request only. -/
def Resolved (options : RegistryRequestOptions) (url : UrlComponents) (deadlineAt : ℤ)
    (known history : History) (selected : RegistryResolvedAddress) : Prop :=
  ∃ checkedAt events addresses time,
    history = known ++ [⟨.now, checkedAt⟩] ++ events ++ [⟨.now, time⟩]
    ∧ (options.resolve.run url.hostname).Reaches events (.ret addresses)
    ∧ Checked urls url options.policy addresses selected ∧ time < deadlineAt

theorem resolveRegistryRequestTarget_holds {pre : History → Query → Prop} {url : UrlComponents}
    {policy : RegistryRequestPolicy} {resolve : RegistryResolver} {known : History}
    (hask : ∀ later query, known <+: later → IsLookup query → pre later query) :
    (resolveRegistryRequestTarget urls url policy resolve).Holds pre remember
      (fun selected later => ∃ events addresses, later = known ++ events
        ∧ (resolve.run url.hostname).Reaches events (.ret addresses)
        ∧ Checked urls url policy addresses selected)
      (fun _ _ => True) known := by
  unfold resolveRegistryRequestTarget
  split
  · trivial
  · rename_i hscheme
    split
    · trivial
    · rename_i hbare
      have hhttp : url.protocol = "https:" ∨ url.protocol = "http:" := by
        by_contra hother
        exact hscheme (not_or.mp hother)
      obtain ⟨hname, hpassword⟩ := not_or.mp hbare
      apply holds_do.mpr
      apply ((resolve.asks url.hostname).remembered hask).played.imp
      · rintro addresses later ⟨-, events, rfl, hrun⟩
        cases addresses with
        | nil => trivial
        | cons first others =>
          dsimp only
          split
          · trivial
          · rename_i hinvalid
            have hliteral : ∀ entry ∈ first :: others,
                (entry.family = 4 ∨ entry.family = 6) ∧ isIP entry.address = entry.family := by
              intro entry hentry
              have hvalid := List.any_eq_false.mp (Bool.eq_false_iff.mpr hinvalid) entry hentry
              simp only [Bool.or_eq_true, Bool.and_eq_true, decide_eq_true_eq] at hvalid
              omega
            split
            · rename_i hguarded
              split
              · trivial
              · rename_i hnone
                refine ⟨events, _, rfl, hrun, hhttp, ⟨not_not.mp hname, not_not.mp hpassword⟩, rfl,
                  hliteral, .inr (.inr fun entry hentry => ?_)⟩
                have hclear := List.find?_eq_none.mp hnone entry hentry
                simpa using hclear
            · rename_i hunguarded
              refine ⟨events, _, rfl, hrun, hhttp, ⟨not_not.mp hname, not_not.mp hpassword⟩, rfl,
                hliteral, ?_⟩
              simp only [Bool.and_eq_true, Bool.not_eq_true', not_and_or, Bool.not_eq_false]
                at hunguarded
              exact hunguarded.imp_right .inl
      · exact fun _ _ _ => trivial

/-- The request that `requestOnce` sends is resolved in time, and may carry its headers. -/
theorem requestOnce_holds {pre : History → Query → Prop} {url : UrlComponents}
    {options : RegistryRequestOptions} {headers : Record} {deadlineAt : ℤ} {known : History}
    (hask : ∀ later query, known <+: later → query = .now ∨ IsLookup query → pre later query)
    (hsend : ∀ history selected, Resolved urls options url deadlineAt known history selected →
      (hasAuthorization headers = true → MaySendCredentials urls url options.policy) →
      pre history (.send ⟨url, options.method, headers, selected⟩)) :
    (requestOnce urls url options headers deadlineAt).Holds pre remember
      (fun response later => ∃ history selected reply,
        Resolved urls options url deadlineAt known history selected
        ∧ later = history ++ [⟨.send ⟨url, options.method, headers, selected⟩, .ok reply⟩]
        ∧ readResponse options reply = .ok response)
      (fun _ _ => True) known := by
  unfold requestOnce
  split
  · trivial
  · rename_i hsecure
    have hmay : hasAuthorization headers = true → MaySendCredentials urls url options.policy := by
      intro hauthorization
      by_contra hnot
      rw [MaySendCredentials, not_or] at hnot
      exact hsecure ⟨hauthorization, hnot.1, hnot.2⟩
    apply holds_do.mpr
    apply remainingDeadlineMs_holds (hask _ _ List.prefix_rfl (.inl rfl))
    intro checkedAt _
    have hmore : known <+: remember known .now checkedAt := List.prefix_append _ _
    apply holds_do.mpr
    apply (resolveRegistryRequestTarget_holds urls fun later query hlater hquery =>
      hask later query (hmore.trans hlater) (.inr hquery)).imp
    · rintro selected later ⟨events, addresses, rfl, hrun, hchecked⟩
      apply holds_do.mpr
      apply remainingDeadlineMs_holds
        (hask _ _ (hmore.trans (List.prefix_append _ _)) (.inl rfl))
      intro time htime
      have hresolved : Resolved urls options url deadlineAt known
          (remember (remember known .now checkedAt ++ events) .now time) selected :=
        ⟨checkedAt, events, addresses, time, rfl, hrun, hchecked, htime⟩
      apply holds_do.mpr
      refine ⟨hsend _ _ hresolved hmay, fun answer => ?_⟩
      cases answer with
      | error e => trivial
      | ok reply =>
        cases hresponse : readResponse options reply with
        | error e =>
          show (ofExcept (readResponse options reply)).Holds _ _ _ _ _
          rw [hresponse]
          trivial
        | ok response =>
          show (ofExcept (readResponse options reply)).Holds _ _ _ _ _
          rw [hresponse]
          exact ⟨_, selected, reply, hresolved, rfl, hresponse⟩
    · exact fun _ _ _ => trivial

/-! ### Redirects, and what they may not do -/

/-- What a request that is sent has behind it, in the events of its call. -/
structure Permitted (options : RegistryRequestOptions) (first : UrlComponents) (events : History)
    (request : HttpRequest) : Prop where
  resolved : ∃ begun known, [⟨.now, begun⟩] <+: known
    ∧ Resolved urls options request.url (begun + options.timeoutMs) known events request.pinned
  method : request.method = options.method
  carries : request.headers = options.headers
    ∨ request.headers = withoutAuthorization options.headers
  credentials : hasAuthorization request.headers = true →
    lowerOrigin urls request.url = lowerOrigin urls first
    ∧ MaySendCredentials urls request.url options.policy
  lost : ∀ earlier answer, ⟨.send earlier, answer⟩ ∈ events →
    hasAuthorization request.headers = true → hasAuthorization earlier.headers = true
  hops : events.countP isSend ≤ options.maxRedirects

/-- What a call asks for. -/
def Asks (options : RegistryRequestOptions) (first : UrlComponents) (events : History) :
    Query → Prop
  | .now => True
  | .lookup _ => True
  | .send request => Permitted urls options first events request
  | .cachedToken _ => False
  | .cacheToken _ _ => False

/-- The response is the last that arrived, and its body is of the size allowed. -/
def Received (options : RegistryRequestOptions) (response : RegistryHttpResponse)
    (events : History) : Prop :=
  ∃ before request reply, events = before ++ [⟨.send request, .ok reply⟩]
    ∧ response = ⟨reply.status, reply.chunks.flatten, reply.headers⟩
    ∧ response.body.length ≤ options.maxBytes

/-- Where the loop stands, when it may still follow `left` redirects. -/
structure Following (options : RegistryRequestOptions) (first : UrlComponents) (begun : ℤ)
    (left : ℕ) (current : UrlComponents) (headers : Record) (known : History) : Prop where
  begins : [⟨.now, begun⟩] <+: known
  carries : (headers = options.headers ∧ lowerOrigin urls current = lowerOrigin urls first)
    ∨ headers = withoutAuthorization options.headers
  lost : ∀ earlier answer, ⟨.send earlier, answer⟩ ∈ known →
    hasAuthorization headers = true → hasAuthorization earlier.headers = true
  hops : known.countP isSend + left ≤ options.maxRedirects

variable {urls}

/-- Nothing is sent while a host is resolved. -/
theorem Resolved.sends {options : RegistryRequestOptions} {url : UrlComponents} {deadlineAt : ℤ}
    {known history : History} {selected : RegistryResolvedAddress}
    (h : Resolved urls options url deadlineAt known history selected) :
    history.filter isSend = known.filter isSend := by
  obtain ⟨checkedAt, events, addresses, time, rfl, hrun, -, -⟩ := h
  have hevents : events.filter isSend = [] := by
    rw [List.filter_eq_nil_iff]
    intro event hevent
    rw [isSend_lookup ((options.resolve.asks url.hostname).events hrun event hevent)]
    decide
  rw [List.filter_append, List.filter_append, List.filter_append, hevents]
  simp [isSend]

/-- A request that the loop sends is permitted where it stands. -/
theorem Following.permitted {options : RegistryRequestOptions} {first current : UrlComponents}
    {begun : ℤ} {left : ℕ} {headers : Record} {known history : History}
    {selected : RegistryResolvedAddress}
    (h : Following urls options first begun left current headers known)
    (hresolved : Resolved urls options current (begun + options.timeoutMs) known history selected)
    (hmay : hasAuthorization headers = true → MaySendCredentials urls current options.policy) :
    Permitted urls options first history ⟨current, options.method, headers, selected⟩ where
  resolved := ⟨begun, known, h.begins, hresolved⟩
  method := rfl
  carries := h.carries.imp_left And.left
  credentials := by
    intro hauthorization
    refine ⟨?_, hmay hauthorization⟩
    rcases h.carries with ⟨-, horigin⟩ | rfl
    · exact horigin
    · rw [hasAuthorization_withoutAuthorization] at hauthorization
      cases hauthorization
  lost := by
    intro earlier answer hearlier
    rw [← mem_filter_isSend, hresolved.sends, mem_filter_isSend] at hearlier
    exact h.lost earlier answer hearlier
  hops := by
    rw [List.countP_eq_length_filter, hresolved.sends, ← List.countP_eq_length_filter]
    exact (Nat.le_add_right _ _).trans h.hops

/-- The loop goes on with less: the credentials go when the origin changes. -/
theorem Following.next {options : RegistryRequestOptions} {first current next : UrlComponents}
    {begun : ℤ} {left : ℕ} {headers : Record} {known history : History}
    {selected : RegistryResolvedAddress} {reply : HttpReply}
    (h : Following urls options first begun (left + 1) current headers known)
    (hresolved : Resolved urls options current (begun + options.timeoutMs) known history selected) :
    Following urls options first begun left next
      (if lowerOrigin urls next ≠ lowerOrigin urls current then withoutAuthorization headers
        else headers)
      (history ++ [⟨.send ⟨current, options.method, headers, selected⟩, .ok reply⟩]) where
  begins := by
    obtain ⟨checkedAt, events, addresses, time, rfl, -⟩ := hresolved
    refine h.begins.trans ?_
    rw [List.append_assoc, List.append_assoc, List.append_assoc]
    exact List.prefix_append _ _
  carries := by
    by_cases horigin : lowerOrigin urls next ≠ lowerOrigin urls current
    · rw [if_pos horigin]
      rcases h.carries with ⟨rfl, -⟩ | rfl
      · exact .inr rfl
      · exact .inr (withoutAuthorization_again _)
    · rw [if_neg horigin, not_not.mp horigin]
      exact h.carries
  lost := by
    intro earlier answer hearlier hauthorization
    have hheaders : hasAuthorization headers = true := by
      by_contra hnone
      by_cases horigin : lowerOrigin urls next ≠ lowerOrigin urls current
      · rw [if_pos horigin, hasAuthorization_withoutAuthorization] at hauthorization
        cases hauthorization
      · rw [if_neg horigin] at hauthorization
        exact hnone hauthorization
    rcases List.mem_append.mp hearlier with hearlier | hearlier
    · rw [← mem_filter_isSend, hresolved.sends, mem_filter_isSend] at hearlier
      exact h.lost earlier answer hearlier hheaders
    · cases List.mem_singleton.mp hearlier
      exact hheaders
  hops := by
    have hhops := h.hops
    rw [List.countP_append, List.countP_eq_length_filter (l := history), hresolved.sends,
      ← List.countP_eq_length_filter]
    simp only [List.countP_cons, List.countP_nil, isSend, if_true]
    omega

theorem follow_holds {options : RegistryRequestOptions} {first : UrlComponents} {begun : ℤ}
    {left : ℕ} {current : UrlComponents} {headers : Record} {known : History}
    (h : Following urls options first begun left current headers known) :
    (follow urls options (begun + options.timeoutMs) left current headers).Holds
      (Asks urls options first) remember (Received options) (fun _ _ => True) known := by
  induction left generalizing current headers known with
  | zero =>
    rw [follow]
    apply holds_do.mpr
    apply (requestOnce_holds urls _ fun history selected hresolved hmay =>
      h.permitted hresolved hmay).imp
    · rintro response later ⟨history, selected, reply, hresolved, rfl, hresponse⟩
      cases redirectLocation response with
      | none => exact ⟨history, _, reply, rfl, readResponse_ok hresponse⟩
      | some location => trivial
    · exact fun _ _ _ => trivial
    · rintro later query - (rfl | hlookup)
      · trivial
      · cases query <;> trivial
  | succ left ih =>
    rw [follow]
    apply holds_do.mpr
    apply (requestOnce_holds urls _ fun history selected hresolved hmay =>
      h.permitted hresolved hmay).imp
    · rintro response later ⟨history, selected, reply, hresolved, rfl, hresponse⟩
      cases redirectLocation response with
      | none => exact ⟨history, _, reply, rfl, readResponse_ok hresponse⟩
      | some location =>
        cases hnext : urls.relative location current with
        | none =>
          simp only [hnext]
          trivial
        | some next =>
          simp only [hnext]
          exact ih (h.next hresolved)
    · exact fun _ _ _ => trivial
    · rintro later query - (rfl | hlookup)
      · trivial
      · cases query <;> trivial

theorem guardedRegistryRequest_holds (options : RegistryRequestOptions) (first : UrlComponents) :
    (guardedRegistryRequest urls options first).Holds (Asks urls options first) remember
      (Received options) (fun _ _ => True) [] := by
  refine holds_do.mpr ⟨trivial, fun begun => ?_⟩
  have hfollowing : Following urls options first begun options.maxRedirects first options.headers
      (remember [] .now begun) := {
    begins := List.prefix_rfl
    carries := .inl ⟨rfl, rfl⟩
    lost := fun earlier answer hearlier => absurd hearlier (by simp [remember])
    hops := by simp [remember, isSend]
  }
  exact follow_holds hfollowing

/-- **Guarded requests.**  Whatever the name service, the servers and the clock answer, each request
    that is sent carries a lookup pinned to an address that was resolved and checked for it, before
    the deadline, and the credentials go with the redirects of one origin only, once lost they do
    not come back, and no further than `maxRedirects` redirects.  The response is the last that
    arrived. -/
theorem guardedRegistryRequest_permitted (options : RegistryRequestOptions)
    (first : UrlComponents) {events : History} {rest : Client RegistryHttpResponse}
    (hrun : (guardedRegistryRequest urls options first).Reaches events rest) :
    (∀ request, sending rest = some request → Permitted urls options first events request)
    ∧ ∀ response, rest = .ret response → Received options response events := by
  have hrest := (guardedRegistryRequest_holds options first).reaches hrun
  constructor
  · intro request hsending
    obtain ⟨next, rfl⟩ := sending_eq_some hsending
    exact hrest.1
  · rintro response rfl
    exact hrest

end

/-! ### A redirect to another origin -/

/-- Two texts that are URLs. -/
def exampleUrls : UrlConstructor where
  absolute := fun text =>
    if text = "https://registry.example/v2/" then
      some ⟨"https:", "", "", "registry.example", "", "/v2/", "", ""⟩
    else none
  relative := fun text _ =>
    if text = "https://cdn.example/blob" then
      some ⟨"https:", "", "", "cdn.example", "", "/blob", "", ""⟩
    else none

def exampleOptions : RegistryRequestOptions where
  headers := ⟨[("Authorization", "Bearer t")], by decide⟩

def exampleFirst : UrlComponents := ⟨"https:", "", "", "registry.example", "", "/v2/", "", ""⟩

/-- The registry sends to another host. -/
def exampleReply (time : ℤ) : Reply Query Answer
  | .now => time
  | .lookup _ => .ok [⟨"8.8.8.8", 4⟩]
  | .send _ => .ok ⟨307, ⟨[("location", "https://cdn.example/blob")], by decide⟩, []⟩
  | .cachedToken _ => none
  | .cacheToken _ _ => ()

theorem guardedRegistryRequest_permitted_redirected :
    letI : CaseMapping := asciiCaseMapping
    Permitted exampleUrls exampleOptions exampleFirst
      ((guardedRegistryRequest exampleUrls exampleOptions exampleFirst).play
        [exampleReply 0, exampleReply 1, exampleReply 2, exampleReply 3, exampleReply 4,
          exampleReply 5, exampleReply 6, exampleReply 7])
      ⟨⟨"https:", "", "", "cdn.example", "", "/blob", "", ""⟩, .get, .empty, ⟨"8.8.8.8", 4⟩⟩ :=
  letI : CaseMapping := asciiCaseMapping
  (guardedRegistryRequest_permitted exampleOptions exampleFirst (reaches_played _ _)).1 _
    (by decide +kernel)

end ComposeBastion.RegistryHttp
