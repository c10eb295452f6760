import ComposeBastion.Docker.ImageReference
import ComposeBastion.Docker.RegistryTransport
import ComposeBastion.Js.Json
import ComposeBastion.Lib.OrderedMap
import Mathlib.Data.List.Dedup

namespace ComposeBastion.RegistryManifest

open Js Program RegistryHttp

/-!
# Lookups in registries

`services/registryManifest.ts`: the digest of an image and the tags of a repository, from a registry
that may ask for credentials.  A registry that answers 401 names a way to authorize; with a bearer
challenge a token is fetched from the authority that it names, and kept in a cache that all lookups
of the process share.

* `parseWwwAuthenticate`, `fetchBearerToken` — the challenge, and the token;
* `authorizedRegistryRequest` — the request, and its repetition with credentials;
* `fetchRegistryManifestDigest`, `fetchRegistryManifestDigests`, `fetchRegistryTags`;
* `Entitled` — where credentials come from, and where they may go;
* `registry_credentials_confined` — in every interleaving of lookups, they go nowhere else.
-/

/-! ### Errors -/

inductive RegistryLookupReason
  | invalid | privateAddress | notFound | unauthorized | rateLimited | network
  deriving DecidableEq, Repr

/-- A `RegistryLookupError`, or any other error. -/
inductive LookupFailure
  | lookup (message : String) (reason : RegistryLookupReason)
  | thrown (message : String)
  deriving DecidableEq, Repr

/-- The programs below are irreducible: proofs go through their lemmas. -/
abbrev Lookups (α : Type) := Program Query Answer LookupFailure α

def registryTransportFailure (error : TransportError) (fallbackMessage : String) : LookupFailure :=
  if error.code = "PRIVATE_REGISTRY_ADDRESS" then
    .lookup "Registry target resolves to a blocked network address" .privateAddress
  else .lookup fallbackMessage .network

/-! ### Credentials -/

structure RegistryLookupAuth where
  username : Option String
  password : Option String
  insecure : Bool
  trustedOrigin : Option String
  deriving DecidableEq, Repr

/-- `auth?.trustedOrigin ? [auth.trustedOrigin] : []`. -/
def trustedOrigins (auth : Option RegistryLookupAuth) : List String :=
  ((auth.bind RegistryLookupAuth.trustedOrigin).filter (· ≠ "")).toList

def requestPolicy (auth : Option RegistryLookupAuth) : RegistryRequestPolicy where
  trustedOrigins := trustedOrigins auth
  allowInsecureCredentials := auth.any RegistryLookupAuth.insecure && trustedOrigins auth ≠ []

/-- `auth?.username && auth.password`. -/
def storedCredentials (auth : Option RegistryLookupAuth) : Option (String × String) :=
  match (auth.bind RegistryLookupAuth.username).filter (· ≠ ""),
    (auth.bind RegistryLookupAuth.password).filter (· ≠ "") with
  | some username, some password => some (username, password)
  | _, _ => none

def base64Char (v : ℕ) : Char :=
  if v = 62 then '+' else if v = 63 then '/' else base64urlChar v

/-- `buffer.toString("base64")`. -/
def base64Encode (bytes : List UInt8) : String :=
  String.ofList ((sextets bytes).map base64Char ++ List.replicate ((3 - bytes.length % 3) % 3) '=')

def basicAuthHeader (username password : String) : String :=
  "Basic " ++ base64Encode (utf8Encode (username ++ ":" ++ password).toList)

/-! ### Challenges -/

structure AuthChallenge where
  scheme : String
  params : List (String × String)
  deriving DecidableEq, Repr

/-- `challenge.params[name]`; of two parameters with one name the later counts. -/
def AuthChallenge.param (challenge : AuthChallenge) (name : String) : Option String :=
  (challenge.params.reverse.find? fun param => param.1 = name).map Prod.snd

/-- `\w`. -/
def isWordChar (c : Char) : Bool := c.isAlphanum || c = '_'

section

variable [AsciiCaseMapping]

/-- The matches of `/(\w+)="([^"]*)"/g`. -/
def authParams : ℕ → List Char → List (String × String)
  | 0, _ => []
  | _, [] => []
  | fuel + 1, c :: rest =>
    if isWordChar c then
      match (c :: rest).dropWhile isWordChar with
      | '=' :: '"' :: value =>
        match value.dropWhile (· ≠ '"') with
        | _ :: after =>
          (toLowerCase (String.ofList ((c :: rest).takeWhile isWordChar)),
            String.ofList (value.takeWhile (· ≠ '"'))) :: authParams fuel after
        -- no quote closes the value
        | [] => authParams fuel value
      | after => authParams fuel after
    else authParams fuel rest

def parseWwwAuthenticate (header : Option String) : Option AuthChallenge :=
  match header.filter (· ≠ "") with
  | none => none
  | some header =>
    match header.toList.takeWhile (· ≠ ' '), header.toList.dropWhile (· ≠ ' ') with
    | scheme@(_ :: _), _ :: remainder =>
      some ⟨toLowerCase (trim (String.ofList scheme)), authParams remainder.length remainder⟩
    | _, _ => some ⟨toLowerCase (trim header), []⟩

/-! ### Tokens -/

/-- What the lookups use beyond their own code: URLs, the texts and numbers of JSON values that are
    neither, a digest and an order. -/
structure LookupServices where
  urls : UrlConstructor
  -- `url.searchParams.set(name, value)`
  withSearchParam : String → String → UrlComponents → UrlComponents
  -- a value in a template literal, and `Number(value)`, with `none` for `NaN`
  display : Json → String
  toNumber : Json → Option ℚ
  -- `createHash("sha256").update(body).digest("hex")`
  sha256 : List UInt8 → String
  -- `a.localeCompare(b, undefined, { numeric: true, sensitivity: "base" }) <= 0`
  tagLe : String → String → Bool

variable (services : LookupServices)

/-- `body.token ?? body.access_token`, if it is truthy. -/
def bearerToken (body : Json) : Option String :=
  let value := match body.get "token" with
    | none | some .null => body.get "access_token"
    | some value => some value
  match value with
  | none | some .null | some (.bool false) => none
  | some (.string text) => if text = [] then none else some (String.ofList text)
  | some (.number n) => if n = 0 then none else some (services.display (.number n))
  | some value => some (services.display value)

/-- `Number(body.expires_in) || 60`. -/
def expiresIn (body : Json) : ℚ :=
  let number := match body.get "expires_in" with
    | none => none
    | some (.number n) => some n
    | some value => services.toNumber value
  match number with
  | none => 60
  | some n => if n = 0 then 60 else n

def ttlSeconds (body : Json) : ℚ := min (max (expiresIn services body) 30) 300

def hasHttpScheme (realm : String) : Bool :=
  let lowered := lower realm.toList
  "http://".toList.isPrefixOf lowered || "https://".toList.isPrefixOf lowered

def setParam (name : String) (value : Option String) (url : UrlComponents) : UrlComponents :=
  match value.filter (· ≠ "") with
  | some value => services.withSearchParam name value url
  | none => url

/-- The URL of the authority that a challenge names. -/
def tokenUrl (challenge : AuthChallenge) : Except LookupFailure UrlComponents :=
  match (challenge.param "realm").filter hasHttpScheme with
  | none => .error (.lookup "Registry sent an unusable auth challenge" .unauthorized)
  | some realm =>
    match services.urls.absolute realm with
    | none => .error (.thrown "Invalid URL")
    | some url =>
      .ok (setParam services "scope" (challenge.param "scope")
        (setParam services "service" (challenge.param "service") url))

structure RequestInit where
  method : RegistryMethod := .get
  accept : String := ""
  maxBytes : ℕ

def requestHeaders (accept : String) (authorization : Option String) : Record where
  entries := (if accept = "" then [] else [("Accept", accept)])
    ++ authorization.toList.map fun value => ("Authorization", value)
  nodup := by
    split <;> cases authorization <;> simp

def lookupOptions (auth : Option RegistryLookupAuth) (init : RequestInit)
    (authorization : Option String) : RegistryRequestOptions where
  method := init.method
  headers := requestHeaders init.accept authorization
  timeoutMs := 20000
  maxBytes := init.maxBytes
  maxRedirects := 3
  policy := requestPolicy auth

/-- `await request(url, …)`, with its `catch`. -/
@[irreducible] def request (auth : Option RegistryLookupAuth) (init : RequestInit)
    (authorization : Option String) (url : UrlComponents) (fallbackMessage : String) : Lookups RegistryHttpResponse :=
  (guardedRegistryRequest services.urls (lookupOptions auth init authorization) url).tryCatch
    fun error => .throw (registryTransportFailure error fallbackMessage)

def clock : Lookups ℤ := .await .now .ret

def setCachedToken (cacheKey : String) (entry : CachedToken) : Lookups Unit :=
  .await (.cacheToken cacheKey entry) .ret

/-- The token in the cache, while it lasts. -/
@[irreducible] def getCachedToken (cacheKey : String) : Lookups (Option String) :=
  .await (.cachedToken cacheKey) fun
    | none => .ret none
    | some cached => do
      let time ← clock
      .ret (if (time : ℚ) < cached.expiresAt then some cached.token else none)

/-- What `fetchBearerToken` makes of the response. -/
def readToken (auth : Option RegistryLookupAuth) (response : RegistryHttpResponse) :
    Except LookupFailure (String × ℚ) :=
  if !response.ok then
    .error (.lookup ((if auth.isSome then "Registry rejected the stored credentials ("
      else "Registry requires authentication (") ++ toString response.status ++ ")") .unauthorized)
  else
    match Json.parse (utf8Decode response.body) with
    | none => .error (.lookup "Registry auth response was malformed" .unauthorized)
    | some .null => .error (.thrown "Cannot read properties of null (reading 'token')")
    | some body =>
      match bearerToken services body with
      | none => .error (.lookup "Registry auth response did not include a token" .unauthorized)
      | some token => .ok (token, ttlSeconds services body)

@[irreducible] def fetchBearerToken (challenge : AuthChallenge) (auth : Option RegistryLookupAuth)
    (cacheKey : String) : Lookups String := do
  let cached ← getCachedToken cacheKey
  match cached with
  | some token => .ret token
  | none => do
    let url ← ofExcept (tokenUrl services challenge)
    let response ← request services auth { maxBytes := 256 * 1024 }
      ((storedCredentials auth).map fun credentials => basicAuthHeader credentials.1 credentials.2)
      url ("Could not reach auth service " ++ url.hostname)
    let issued ← ofExcept (readToken services auth response)
    let time ← clock
    setCachedToken cacheKey ⟨issued.1, time + (issued.2 - 10) * 1000⟩
    .ret issued.1

/-! ### Requests that are repeated with credentials -/

/-- `${parsed.registry}|${parsed.repository}|${auth?.username ?? ""}`. -/
def tokenCacheKey (parsed : ParsedImageReference) (auth : Option RegistryLookupAuth) : String :=
  parsed.registry ++ "|" ++ (parsed.repository ++ "|"
    ++ (auth.bind RegistryLookupAuth.username).getD "")

@[irreducible] def authorizedRegistryRequest (url : UrlComponents) (parsed : ParsedImageReference)
    (auth : Option RegistryLookupAuth) (init : RequestInit) : Lookups RegistryHttpResponse := do
  let unreachable := "Could not reach registry " ++ parsed.registry
  let response ← request services auth init none url unreachable
  if response.status ≠ 401 then .ret response
  else
    match (parseWwwAuthenticate (response.headers.get "www-authenticate")).filter
        (·.scheme = "bearer") with
    | some challenge => do
      let token ← fetchBearerToken services challenge auth (tokenCacheKey parsed auth)
      request services auth init (some ("Bearer " ++ token)) url unreachable
    | none =>
      match storedCredentials auth with
      | some credentials =>
        request services auth init (some (basicAuthHeader credentials.1 credentials.2)) url
          unreachable
      | none => .ret response

/-! ### Digests and tags -/

def classifyManifestFailure (status : ℕ) (parsed : ParsedImageReference) (hasAuth : Bool) :
    LookupFailure :=
  if status = 404 then .lookup (parsed.canonical ++ " was not found in the registry") .notFound
  else if status = 401 ∨ status = 403 then
    .lookup (if hasAuth then parsed.registry ++ " rejected the stored credentials for "
      ++ parsed.repository else parsed.canonical ++ " is private or does not exist in the registry")
      .unauthorized
  else if status = 429 then
    .lookup (parsed.registry ++ " rate limit reached; try again later") .rateLimited
  else .lookup ("Registry lookup failed with HTTP " ++ toString status ++ " for "
    ++ parsed.canonical) .network

/-- `value?.trim()`, without its `sha256:`. -/
def normalizeDigest (value : Option String) : Option String :=
  ((value.map trim).filter (· ≠ "")).map fun digest =>
    if startsWith digest "sha256:" then dropChars 7 digest else digest

def uniqueDigests (values : List (Option String)) : List String :=
  (values.filterMap fun value => (normalizeDigest value).filter (· ≠ "")).reverse.dedup.reverse

/-- `encodeURIComponent`. -/
def encodeURIComponent (text : String) : String :=
  String.ofList (text.toList.flatMap fun c =>
    if c.isAlphanum || c ∈ ['-', '_', '.', '!', '~', '*', '\'', '(', ')'] then [c]
    else (utf8Encode [c]).flatMap fun byte => '%' :: (hex [byte]).map Char.toUpper)

def manifestAccept : String :=
  "application/vnd.docker.distribution.manifest.list.v2+json, "
    ++ "application/vnd.oci.image.index.v1+json, "
    ++ "application/vnd.docker.distribution.manifest.v2+json, "
    ++ "application/vnd.oci.image.manifest.v1+json"

def repositoryUrl (parsed : ParsedImageReference) (auth : Option RegistryLookupAuth) : String :=
  registryBaseUrl parsed.registry (auth.any RegistryLookupAuth.insecure) ++ "/v2/"
    ++ parsed.repository

def manifestUrl (parsed : ParsedImageReference) (auth : Option RegistryLookupAuth) : String :=
  repositoryUrl parsed auth ++ "/manifests/" ++ encodeURIComponent parsed.reference

/-- `parseImageReference` and the URL of the manifest, whose requests fail if it is none. -/
@[irreducible] def manifestTarget (imageReference : String) (auth : Option RegistryLookupAuth) :
    Except LookupFailure (ParsedImageReference × UrlComponents) :=
  match parseImageReference services.urls.absolute imageReference with
  | .error message => .error (.lookup message .invalid)
  | .ok parsed =>
    match services.urls.absolute (manifestUrl parsed auth) with
    | none => .error (registryTransportFailure invalidUrl ("Could not reach registry "
        ++ parsed.registry))
    | some url => .ok (parsed, url)

@[irreducible] def tagsTarget (imageReference : String) (auth : Option RegistryLookupAuth) :
    Except LookupFailure (ParsedImageReference × UrlComponents) :=
  match parseImageReference services.urls.absolute imageReference with
  | .error message => .error (.lookup message .invalid)
  | .ok parsed =>
    match services.urls.absolute (repositoryUrl parsed auth ++ "/tags/list") with
    | none => .error (.thrown "Invalid URL")
    | some url => .ok (parsed, services.withSearchParam "n" "100" url)

/-- A response that is not `ok` fails the lookup, unless its status is one of `allowed`. -/
def checkManifestResponse (allowed : List ℕ) (parsed : ParsedImageReference)
    (auth : Option RegistryLookupAuth) (response : RegistryHttpResponse) :
    Except LookupFailure Unit :=
  if response.ok || response.status ∈ allowed then .ok ()
  else .error (classifyManifestFailure response.status parsed auth.isSome)

/-- The digest in the header of a response that is `ok`. -/
def headerDigest (response : RegistryHttpResponse) : Option String :=
  normalizeDigest (response.headers.get "docker-content-digest")

@[irreducible] def fetchRegistryManifestDigest (imageReference : String)
    (auth : Option RegistryLookupAuth) : Lookups String := do
  let (parsed, url) ← ofExcept (manifestTarget services imageReference auth)
  let headResponse ← authorizedRegistryRequest services url parsed auth
    ⟨.head, manifestAccept, 0⟩
  ofExcept (checkManifestResponse [405, 501] parsed auth headResponse)
  match (headerDigest headResponse).filter fun digest => headResponse.ok && digest ≠ "" with
  | some digest => .ret digest
  | none => do
    let response ← authorizedRegistryRequest services url parsed auth
      ⟨.get, manifestAccept, 8 * 1024 * 1024⟩
    ofExcept (checkManifestResponse [] parsed auth response)
    match (headerDigest response).filter (· ≠ "") with
    | some digest => .ret digest
    | none => .ret (services.sha256 response.body)

structure RegistryManifestDigestResolution where
  digest : String
  equivalentDigests : List String
  childDigests : List String
  mediaType : Option String
  deriving DecidableEq, Repr

def manifestDigestOf : Json → Option String
  | .object members =>
    match (Json.object members).get "digest" with
    | some (.string digest) => some (String.ofList digest)
    | _ => none
  | _ => none

def manifestChildDigests (body : List UInt8) : List String :=
  match (Json.parse (utf8Decode body)).bind (Json.get "manifests") with
  | some (.array manifests) => uniqueDigests (manifests.map manifestDigestOf)
  | _ => []

/-- `content-type`, up to its parameters. -/
def mediaTypeOf (response : RegistryHttpResponse) : Option String :=
  (response.headers.get "content-type").map fun value =>
    toLowerCase (trim (String.ofList (value.toList.takeWhile (· ≠ ';'))))

@[irreducible] def fetchRegistryManifestDigests (imageReference : String)
    (auth : Option RegistryLookupAuth) (localDigest : Option String) : Lookups RegistryManifestDigestResolution := do
  let (parsed, url) ← ofExcept (manifestTarget services imageReference auth)
  let normalizedLocalDigest := (normalizeDigest localDigest).filter (· ≠ "")
  let headResponse ← authorizedRegistryRequest services url parsed auth
    ⟨.head, manifestAccept, 0⟩
  ofExcept (checkManifestResponse [405, 501] parsed auth headResponse)
  match (headerDigest headResponse).filter fun digest => headResponse.ok && digest ≠ ""
      && normalizedLocalDigest.all (· = digest) with
  | some digest => .ret ⟨digest, [digest], [], none⟩
  | none => do
    let response ← authorizedRegistryRequest services url parsed auth
      ⟨.get, manifestAccept, 8 * 1024 * 1024⟩
    ofExcept (checkManifestResponse [] parsed auth response)
    let bodyDigest := services.sha256 response.body
    let digest := (headerDigest response).getD bodyDigest
    let childDigests := manifestChildDigests response.body
    .ret ⟨digest, uniqueDigests (some digest :: headerDigest response :: some bodyDigest
      :: childDigests.map some), childDigests, mediaTypeOf response⟩

/-- The tags in the body of a response. -/
def readTags (body : List UInt8) : Except LookupFailure (List String) :=
  match Json.parse (utf8Decode body) with
  | none => .error (.lookup "Registry returned malformed tag data" .network)
  | some .null => .error (.thrown "Cannot read properties of null (reading 'tags')")
  | some value =>
    match value.get "tags" with
    | some (.array elements) =>
      let tags := elements.filterMap fun
        | .string tag => if trim (String.ofList tag) = "" then none else some (String.ofList tag)
        | _ => none
      .ok (tags.reverse.dedup.reverse.mergeSort services.tagLe)
    | _ => .ok []

@[irreducible] def fetchRegistryTags (imageReference : String) (auth : Option RegistryLookupAuth) :
    Lookups (List String) := do
  let (parsed, url) ← ofExcept (tagsTarget services imageReference auth)
  let response ← authorizedRegistryRequest services url parsed auth
    ⟨.get, "application/json", 1024 * 1024⟩
  ofExcept (checkManifestResponse [] parsed auth response)
  ofExcept (readTags services response.body)

/-! ### Lookups as callers -/

inductive LookupKind
  | manifestDigest
  | manifestDigests (localDigest : Option String)
  | tags
  deriving DecidableEq, Repr

structure Lookup where
  kind : LookupKind
  imageReference : String
  auth : Option RegistryLookupAuth
  deriving DecidableEq, Repr

inductive LookupResult
  | digest (digest : String)
  | digests (resolution : RegistryManifestDigestResolution)
  | tags (tags : List String)
  deriving DecidableEq, Repr

def Lookup.program (lookup : Lookup) : Lookups LookupResult :=
  match lookup.kind with
  | .manifestDigest => do
    let digest ← fetchRegistryManifestDigest services lookup.imageReference lookup.auth
    .ret (.digest digest)
  | .manifestDigests localDigest => do
    let resolution ← fetchRegistryManifestDigests services lookup.imageReference lookup.auth
      localDigest
    .ret (.digests resolution)
  | .tags => do
    let tags ← fetchRegistryTags services lookup.imageReference lookup.auth
    .ret (.tags tags)

/-- The image, and the URL in its registry. -/
def Lookup.target (lookup : Lookup) : Except LookupFailure (ParsedImageReference × UrlComponents) :=
  match lookup.kind with
  | .tags => tagsTarget services lookup.imageReference lookup.auth
  | _ => manifestTarget services lookup.imageReference lookup.auth

/-- `tokenCache`. -/
abbrev TokenCache := OrderedMap String CachedToken

def serve (tokenCache : TokenCache) : (query : Query) → Answer query → Answer query × TokenCache
  | .cachedToken cacheKey, _ => (tokenCache.get cacheKey, tokenCache)
  | .cacheToken cacheKey entry, _ => ((), tokenCache.set cacheKey entry)
  | .now, time => (time, tokenCache)
  | .lookup _, answer => (answer, tokenCache)
  | .send _, answer => (answer, tokenCache)

/-! ### Where credentials come from, and where they may go -/

/-- The origin of the registry of the image. -/
def OfRegistry (lookup : Lookup) (url : UrlComponents) : Prop :=
  ∃ parsed first, lookup.target services = .ok (parsed, first)
    ∧ lowerOrigin services.urls url = lowerOrigin services.urls first

/-- The origin of an authority that a response asks for a token of. -/
def OfRealm (events : History) (url : UrlComponents) : Prop :=
  ∃ asked reply challenge first, ⟨.send asked, .ok reply⟩ ∈ events ∧ reply.status = 401
    ∧ parseWwwAuthenticate (reply.headers.get "www-authenticate") = some challenge
    ∧ challenge.scheme = "bearer" ∧ tokenUrl services challenge = .ok first
    ∧ lowerOrigin services.urls url = lowerOrigin services.urls first

/-- A response that holds a token was received. -/
def Issued (events : History) (token : String) : Prop :=
  ∃ asked reply body, ⟨.send asked, .ok reply⟩ ∈ events
    ∧ Json.parse (utf8Decode reply.chunks.flatten) = some body
    ∧ bearerToken services body = some token

/-- The key under which the lookup uses the cache. -/
def Lookup.cacheKey (lookup : Lookup) : Option String :=
  match lookup.target services with
  | .ok (parsed, _) => some (tokenCacheKey parsed lookup.auth)
  | .error _ => none

/-- The credentials of the lookup itself, for its registry or an authority that was named to it. -/
def Stored (lookup : Lookup) (events : History) (value : String) (url : UrlComponents) : Prop :=
  (∃ username password, storedCredentials lookup.auth = some (username, password)
    ∧ value = basicAuthHeader username password)
  ∧ (OfRegistry services lookup url ∨ OfRealm services events url)

/-- A token was issued to the lookup, or found in the cache. -/
def Obtained (lookup : Lookup) (events : History) (token : String) : Prop :=
  Issued services events token
    ∨ ∃ cacheKey entry, ⟨.cachedToken cacheKey, some entry⟩ ∈ events
      ∧ lookup.cacheKey services = some cacheKey ∧ entry.token = token

/-- Such a token, for the registry. -/
def Token (lookup : Lookup) (events : History) (value : String) (url : UrlComponents) : Prop :=
  ∃ token, value = "Bearer " ++ token ∧ OfRegistry services lookup url
    ∧ Obtained services lookup events token

/-- A lookup may send `value` to `url` in what it knows. -/
def Entitled (lookup : Lookup) (events : History) (value : String) (url : UrlComponents) : Prop :=
  MaySendCredentials services.urls url (requestPolicy lookup.auth)
  ∧ (Stored services lookup events value url ∨ Token services lookup events value url)

/-- What a lookup asks for. -/
def LookupAsks (lookup : Lookup) (events : History) : Query → Prop
  | .now => True
  | .lookup _ => True
  | .send request => ∀ entry ∈ request.headers.entries, isAuthorization entry = true →
    Entitled services lookup events entry.2 request.url
  | .cachedToken cacheKey => lookup.cacheKey services = some cacheKey
  | .cacheToken cacheKey entry =>
    lookup.cacheKey services = some cacheKey ∧ Issued services events entry.token

/-- What a lookup has done stays true of it. -/
abbrev LookupHolds (lookup : Lookup) {α : Type} (p : Lookups α) (Q : α → History → Prop)
    (events : History) : Prop :=
  p.Holds (LookupAsks services lookup) remember Q (fun _ _ => True) events

end

section

variable {services : LookupServices}

theorem Obtained.later {lookup : Lookup} {events later : History} {token : String}
    (h : Obtained services lookup events token) (hlater : events <+: later) :
    Obtained services lookup later token := by
  rcases h with ⟨asked, reply, body, hreply, hbody, htoken⟩ | ⟨cacheKey, entry, hentry, hkey, heq⟩
  · exact .inl ⟨asked, reply, body, hlater.subset hreply, hbody, htoken⟩
  · exact .inr ⟨cacheKey, entry, hlater.subset hentry, hkey, heq⟩

theorem readToken_ok {auth : Option RegistryLookupAuth} {response : RegistryHttpResponse}
    {issued : String × ℚ} (h : readToken services auth response = .ok issued) :
    ∃ body, Json.parse (utf8Decode response.body) = some body
      ∧ bearerToken services body = some issued.1 := by
  unfold readToken at h
  split at h
  · cases h
  · split at h
    · cases h
    · cases h
    · rename_i body _ hbody
      split at h
      · cases h
      · rename_i token htoken
        cases h
        exact ⟨body, hbody, htoken⟩

/-! ### One cache for all lookups -/

theorem notMem_authority {parseUrl : String → Option UrlComponents} {input authority : String}
    (h : normalizeRegistryAuthority parseUrl input = .ok authority) : '|' ∉ authority.toList := by
  have hbar : ¬ IsAuthorityChar '|' := by
    have hhost : isHostChar '|' = false := by decide
    simp [IsAuthorityChar, hhost]
  unfold normalizeRegistryAuthority at h
  dsimp only at h
  split at h
  · cases h
  · split at h
    · cases h
    · obtain ⟨⟨rawHostname, rawPort⟩, -, h⟩ := bind_eq_ok.mp h
      dsimp only at h
      split at h
      · cases h
      · rename_i hport
        obtain ⟨-, -, h⟩ := bind_eq_ok.mp h
        split at h
        · cases h
        · split at h
          · cases h
          · split at h
            · cases h
            · obtain ⟨⟨⟩, hhostname, h⟩ := bind_eq_ok.mp h
              cases h
              have hisPort : IsPortOption rawPort := by
                intro text htext
                rw [htext] at hport
                simpa using hport
              have hchars := isAuthorityChar_authority hhostname hisPort
              intro hmem
              rw [String.toList_append, List.mem_append, lowerHost, String.toList_ofList] at hmem
              apply hbar
              apply hchars
              rw [String.toList_append, List.mem_append]
              exact hmem.imp_left (mem_of_mem_lower (by decide))

theorem notMem_registry {parseUrl : String → Option UrlComponents} {head : Option (List Char)}
    {registry : String} (h : registryOf parseUrl head = .ok registry) :
    '|' ∉ registry.toList := by
  cases head with
  | none =>
    cases h
    decide
  | some head =>
    rw [registryOf, validateRegistryHost] at h
    split at h
    · rename_i authority hauthority
      cases h
      exact notMem_authority hauthority
    · cases h

theorem notMem_repository {name repository : List Char} {registry : String}
    (h : validateRepository name = .ok repository) :
    '|' ∉ (String.ofList (normalizedRepository registry repository)).toList := by
  have hname : '|' ∉ repository := by
    unfold validateRepository at h
    split at h
    · cases h
    · split at h
      · rename_i hcomponents
        cases h
        intro hmem
        rcases (name_facts hcomponents).2.1 '|' hmem with heq | hchar
        · exact absurd heq (by decide)
        · exact absurd hchar (by decide)
      · cases h
  rw [String.toList_ofList, normalizedRepository]
  split
  · rw [List.mem_append]
    exact not_or.mpr ⟨by decide, hname⟩
  · exact hname

theorem notMem_parsed {parseUrl : String → Option UrlComponents} {image : String}
    {parsed : ParsedImageReference} (h : parseImageReference parseUrl image = .ok parsed) :
    '|' ∉ parsed.registry.toList ∧ '|' ∉ parsed.repository.toList := by
  unfold parseImageReference at h
  dsimp only at h
  split at h
  · cases h
  · split at h
    · cases h
    · split at h
      · cases h
      · split at h
        · cases h
        · obtain ⟨registry, hregistry, h⟩ := bind_eq_ok.mp h
          split at h
          · cases h
          · obtain ⟨repository, hrepository, h⟩ := bind_eq_ok.mp h
            split at h
            · cases h
            · cases h
              exact ⟨notMem_registry hregistry, notMem_repository hrepository⟩

theorem target_parsed {lookup : Lookup} {parsed : ParsedImageReference} {first : UrlComponents}
    (h : lookup.target services = .ok (parsed, first)) :
    parseImageReference services.urls.absolute lookup.imageReference = .ok parsed := by
  unfold Lookup.target at h
  split at h
  · unfold tagsTarget at h
    split at h
    · cases h
    · split at h
      · cases h
      · rename_i hparse _ _ _
        cases h
        exact hparse
  · unfold manifestTarget at h
    split at h
    · cases h
    · split at h
      · cases h
      · rename_i hparse _ _ _
        cases h
        exact hparse

/-- Lookups of one repository, for one user. -/
def SameAccount (services : LookupServices) (lookup other : Lookup) : Prop :=
  ∃ parsed first parsed' first', lookup.target services = .ok (parsed, first)
    ∧ other.target services = .ok (parsed', first')
    ∧ parsed.registry = parsed'.registry ∧ parsed.repository = parsed'.repository
    ∧ (lookup.auth.bind RegistryLookupAuth.username).getD ""
      = (other.auth.bind RegistryLookupAuth.username).getD ""

/-- A text is split in one way at its first separator. -/
theorem split_inj {separator : Char} {front front' back back' : List Char}
    (h : separator ∉ front) (h' : separator ∉ front')
    (heq : front ++ separator :: back = front' ++ separator :: back') :
    front = front' ∧ back = back' := by
  obtain ⟨hfront, hback⟩ := takeWhile_separator h back
  rw [heq, (takeWhile_separator h' back').1] at hfront
  rw [heq, (takeWhile_separator h' back').2] at hback
  exact ⟨hfront.symm, (List.cons.inj hback).2.symm⟩

/-- **The key of the cache tells accounts apart.** -/
theorem sameAccount_of_cacheKey {lookup other : Lookup} {cacheKey : String}
    (h : lookup.cacheKey services = some cacheKey)
    (h' : other.cacheKey services = some cacheKey) : SameAccount services lookup other := by
  unfold Lookup.cacheKey at h h'
  split at h
  · rename_i parsed first htarget
    split at h'
    · rename_i parsed' first' htarget'
      have hkey := congrArg String.toList (Option.some.inj (h.trans h'.symm))
      have hbar : "|".toList = ['|'] := rfl
      simp only [tokenCacheKey, String.toList_append, hbar, List.append_assoc, List.cons_append,
        List.nil_append] at hkey
      obtain ⟨hregistry, hrepository⟩ := notMem_parsed (target_parsed htarget)
      obtain ⟨hregistry', hrepository'⟩ := notMem_parsed (target_parsed htarget')
      obtain ⟨hfirst, hrest⟩ := split_inj hregistry hregistry' hkey
      obtain ⟨hsecond, hthird⟩ := split_inj hrepository hrepository' hrest
      exact ⟨parsed, first, parsed', first', htarget, htarget', String.toList_inj.mp hfirst,
        String.toList_inj.mp hsecond, String.toList_inj.mp hthird⟩
    · cases h'
  · cases h

/-- The events of all lookups that are as `lookup`. -/
def eventsOf (log : List (Lookup × Event Query Answer)) (lookup : Lookup) : History :=
  log.filterMap fun entry => if entry.1 = lookup then some entry.2 else none

theorem mem_eventsOf {log : List (Lookup × Event Query Answer)} {lookup : Lookup}
    {event : Event Query Answer} : event ∈ eventsOf log lookup ↔ (lookup, event) ∈ log := by
  unfold eventsOf
  rw [List.mem_filterMap]
  constructor
  · rintro ⟨⟨caller, event'⟩, hmem, heq⟩
    split at heq
    · rename_i hcaller
      cases heq
      exact hcaller ▸ hmem
    · cases heq
  · intro hmem
    exact ⟨_, hmem, if_pos rfl⟩

theorem Issued.mono {events later : History} {token : String}
    (h : Issued services events token) (hlater : events ⊆ later) : Issued services later token := by
  obtain ⟨asked, reply, body, hreply, hbody, htoken⟩ := h
  exact ⟨asked, reply, body, hlater hreply, hbody, htoken⟩

theorem eventsOf_append (log more : List (Lookup × Event Query Answer)) (lookup : Lookup) :
    eventsOf log lookup ⊆ eventsOf (log ++ more) lookup := by
  intro event hevent
  exact mem_eventsOf.mpr (List.mem_append_left _ (mem_eventsOf.mp hevent))

/-- A token was issued to a lookup that uses `cacheKey`. -/
def IssuedFor (services : LookupServices) (log : List (Lookup × Event Query Answer))
    (cacheKey token : String) : Prop :=
  ∃ other : Lookup, other.cacheKey services = some cacheKey
    ∧ Issued services (eventsOf log other) token

theorem IssuedFor.append {log : List (Lookup × Event Query Answer)} {cacheKey token : String}
    (h : IssuedFor services log cacheKey token) (more : List (Lookup × Event Query Answer)) :
    IssuedFor services (log ++ more) cacheKey token := by
  obtain ⟨other, hkey, hissued⟩ := h
  exact ⟨other, hkey, hissued.mono (eventsOf_append log more other)⟩

end

section

variable [AsciiCaseMapping] {services : LookupServices}

/-! ### What a lookup asks for -/

theorem isAuthorization_requestHeaders {accept : String} {authorization : Option String}
    {entry : String × String} (hentry : entry ∈ (requestHeaders accept authorization).entries)
    (h : isAuthorization entry = true) : authorization = some entry.2 := by
  have haccept : ∀ value, isAuthorization ("Accept", value) = false := by
    intro value
    have hascii : ("Accept".toList.all fun c => decide (c.toNat < 128)) = true := by decide
    show decide (toLowerCase "Accept" = "authorization") = false
    rw [AsciiCaseMapping.toLowerCase_ascii _ fun c hc =>
      of_decide_eq_true (List.all_eq_true.mp hascii c hc)]
    decide
  rcases List.mem_append.mp hentry with hentry | hentry
  · split at hentry
    · cases hentry
    · rw [List.mem_singleton.mp hentry, haccept] at h
      cases h
  · obtain ⟨value, hvalue, rfl⟩ := List.mem_map.mp hentry
    exact Option.mem_toList.mp hvalue

/-- A request with credentials that may go to the origin of its URL. -/
theorem request_holds {lookup : Lookup} {init : RequestInit} {authorization : Option String}
    {url : UrlComponents} {fallbackMessage : String} {start : History}
    (hcredentials : ∀ value events target, authorization = some value → start <+: events →
      lowerOrigin services.urls target = lowerOrigin services.urls url →
      MaySendCredentials services.urls target (requestPolicy lookup.auth) →
      Entitled services lookup events value target) :
    LookupHolds services lookup
      (request services lookup.auth init authorization url fallbackMessage)
      (fun response events => start <+: events ∧ ∃ asked reply,
        ⟨.send asked, .ok reply⟩ ∈ events
        ∧ response = ⟨reply.status, reply.chunks.flatten, reply.headers⟩)
      start := by
  unfold request
  apply holds_tryCatch.mpr
  let options := lookupOptions lookup.auth init authorization
  have hguarded : (guardedRegistryRequest services.urls options url).Holds
      (Asks services.urls options url) remember (Received options) (fun _ _ => True) [] :=
    guardedRegistryRequest_holds options url
  have hasks : ∀ known query,
      Asks services.urls options url known query →
      LookupAsks services lookup (start ++ known) query := by
    intro known query hquery
    cases query with
    | now => trivial
    | lookup hostname => trivial
    | cachedToken cacheKey => exact hquery.elim
    | cacheToken cacheKey entry => exact hquery.elim
    | send asked =>
      intro entry hentry hname
      have hheaders : entry ∈ (requestHeaders init.accept authorization).entries := by
        rcases hquery.carries with heq | heq
        · rwa [heq] at hentry
        · rw [heq] at hentry
          exact (List.mem_filter.mp hentry).1
      obtain ⟨horigin, hmay⟩ :=
        hquery.credentials (List.any_eq_true.mpr ⟨entry, hentry, hname⟩)
      exact hcredentials entry.2 _ asked.url (isAuthorization_requestHeaders hheaders hname)
        (List.prefix_append _ _) horigin hmay
  rw [← List.append_nil start]
  apply Holds.after
  apply (hguarded.weaken hasks).imp
  · rintro response known ⟨before, asked, reply, rfl, hresponse, -⟩
    refine ⟨by rw [List.append_nil]; exact List.prefix_append _ _, asked, reply, ?_, hresponse⟩
    exact List.mem_append_right _ (List.mem_append_right _ List.mem_cons_self)
  · exact fun _ _ _ => trivial

theorem getCachedToken_holds {lookup : Lookup} {cacheKey : String} {start : History}
    (hkey : lookup.cacheKey services = some cacheKey) :
    LookupHolds services lookup (getCachedToken cacheKey)
      (fun cached events => start <+: events ∧ ∀ token, cached = some token →
        ∃ entry, ⟨.cachedToken cacheKey, some entry⟩ ∈ events ∧ entry.token = token)
      start := by
  unfold getCachedToken
  refine ⟨hkey, fun answer => ?_⟩
  cases answer with
  | none => exact ⟨List.prefix_append _ _, fun token htoken => nomatch htoken⟩
  | some entry =>
    refine ⟨trivial, fun time => ⟨(List.prefix_append _ _).trans (List.prefix_append _ _), ?_⟩⟩
    intro token htoken
    refine ⟨entry, List.mem_append_left _ (List.mem_append_right _ List.mem_cons_self), ?_⟩
    split at htoken
    · exact Option.some.inj htoken
    · cases htoken

theorem fetchBearerToken_holds {lookup : Lookup} {parsed : ParsedImageReference}
    {first : UrlComponents} {challenge : AuthChallenge} {start : History}
    (htarget : lookup.target services = .ok (parsed, first))
    (hchallenge : ∃ asked reply, ⟨.send asked, .ok reply⟩ ∈ start ∧ reply.status = 401
      ∧ parseWwwAuthenticate (reply.headers.get "www-authenticate") = some challenge
      ∧ challenge.scheme = "bearer") :
    LookupHolds services lookup
      (fetchBearerToken services challenge lookup.auth (tokenCacheKey parsed lookup.auth))
      (fun token events => start <+: events ∧ Obtained services lookup events token) start := by
  have hkey : lookup.cacheKey services = some (tokenCacheKey parsed lookup.auth) := by
    rw [Lookup.cacheKey, htarget]
  unfold fetchBearerToken
  apply holds_do.mpr
  apply (getCachedToken_holds hkey).imp _ fun _ _ _ => trivial
  rintro cached events ⟨hpre, hcached⟩
  cases cached with
  | some token =>
    obtain ⟨entry, hentry, htoken⟩ := hcached token rfl
    exact ⟨hpre, .inr ⟨_, entry, hentry, hkey, htoken⟩⟩
  | none =>
    obtain ⟨asked, reply, hasked, hstatus, hparse, hscheme⟩ := hchallenge
    apply holds_do.mpr
    refine holds_ofExcept (fun url hurl => ?_) fun _ _ => trivial
    apply holds_do.mpr
    apply (request_holds ?_).imp _ fun _ _ _ => trivial
    · intro value later target hvalue hlater horigin hmay
      obtain ⟨credentials, hstored, rfl⟩ := Option.map_eq_some_iff.mp hvalue
      exact ⟨hmay, .inl ⟨⟨_, _, hstored, rfl⟩, .inr ⟨asked, reply, challenge, url,
        (hpre.trans hlater).subset hasked, hstatus, hparse, hscheme, hurl, horigin⟩⟩⟩
    · rintro response later ⟨hlater, asked', reply', hreply, rfl⟩
      apply holds_do.mpr
      refine holds_ofExcept (fun issued hissued => ?_) fun _ _ => trivial
      obtain ⟨body, hbody, htoken⟩ := readToken_ok hissued
      have hholds : Issued services later issued.1 := ⟨asked', reply', body, hreply, hbody, htoken⟩
      refine holds_do.mpr ⟨trivial, fun time => ?_⟩
      refine holds_do.mpr ⟨⟨hkey, ?_⟩, fun _ => ⟨?_, .inl ?_⟩⟩
      · exact ⟨asked', reply', body, List.mem_append_left _ hreply, hbody, htoken⟩
      · exact (hpre.trans hlater).trans
          ((List.prefix_append _ _).trans (List.prefix_append _ _))
      · exact ⟨asked', reply', body,
          List.mem_append_left _ (List.mem_append_left _ hreply), hbody, htoken⟩

theorem authorizedRegistryRequest_holds {lookup : Lookup} {parsed : ParsedImageReference}
    {url : UrlComponents} {init : RequestInit} {start : History}
    (htarget : lookup.target services = .ok (parsed, url)) :
    LookupHolds services lookup (authorizedRegistryRequest services url parsed lookup.auth init)
      (fun _ _ => True) start := by
  unfold authorizedRegistryRequest
  apply holds_do.mpr
  apply (request_holds (by rintro value _ _ ⟨⟩)).imp _ fun _ _ _ => trivial
  rintro response events ⟨hpre, asked, reply, hreply, rfl⟩
  dsimp only
  split
  · trivial
  · rename_i hstatus
    split
    · rename_i challenge hchallenge
      rw [Option.filter_eq_some_iff] at hchallenge
      apply holds_do.mpr
      apply (fetchBearerToken_holds htarget ⟨asked, reply, hreply, not_not.mp hstatus,
        hchallenge.1, of_decide_eq_true hchallenge.2⟩).imp _ fun _ _ _ => trivial
      rintro token later ⟨hlater, htoken⟩
      apply (request_holds ?_).imp (fun _ _ _ => trivial) fun _ _ _ => trivial
      rintro value last target hvalue hlast horigin hmay
      cases hvalue
      exact ⟨hmay, .inr ⟨token, rfl, ⟨parsed, url, htarget, horigin⟩, htoken.later hlast⟩⟩
    · split
      · rename_i credentials hstored
        apply (request_holds ?_).imp (fun _ _ _ => trivial) fun _ _ _ => trivial
        rintro value last target hvalue hlast horigin hmay
        cases hvalue
        exact ⟨hmay, .inl ⟨⟨_, _, hstored, rfl⟩, .inl ⟨parsed, url, htarget, horigin⟩⟩⟩
      · trivial

theorem fetchRegistryManifestDigest_holds {lookup : Lookup}
    (hkind : lookup.target services
      = manifestTarget services lookup.imageReference lookup.auth) :
    LookupHolds services lookup
      (fetchRegistryManifestDigest services lookup.imageReference lookup.auth)
      (fun _ _ => True) [] := by
  unfold fetchRegistryManifestDigest
  apply holds_do.mpr
  refine holds_ofExcept (fun target htarget => ?_) fun _ _ => trivial
  rw [← hkind] at htarget
  apply holds_do.mpr
  apply (authorizedRegistryRequest_holds htarget).imp _ fun _ _ _ => trivial
  rintro headResponse events -
  apply holds_do.mpr
  refine holds_ofExcept (fun _ _ => ?_) fun _ _ => trivial
  split
  · trivial
  · apply holds_do.mpr
    apply (authorizedRegistryRequest_holds htarget).imp _ fun _ _ _ => trivial
    rintro response later -
    apply holds_do.mpr
    refine holds_ofExcept (fun _ _ => ?_) fun _ _ => trivial
    split <;> trivial

theorem fetchRegistryManifestDigests_holds {lookup : Lookup} {localDigest : Option String}
    (hkind : lookup.target services
      = manifestTarget services lookup.imageReference lookup.auth) :
    LookupHolds services lookup
      (fetchRegistryManifestDigests services lookup.imageReference lookup.auth localDigest)
      (fun _ _ => True) [] := by
  unfold fetchRegistryManifestDigests
  apply holds_do.mpr
  refine holds_ofExcept (fun target htarget => ?_) fun _ _ => trivial
  rw [← hkind] at htarget
  apply holds_do.mpr
  apply (authorizedRegistryRequest_holds htarget).imp _ fun _ _ _ => trivial
  rintro headResponse events -
  apply holds_do.mpr
  refine holds_ofExcept (fun _ _ => ?_) fun _ _ => trivial
  split
  · trivial
  · apply holds_do.mpr
    apply (authorizedRegistryRequest_holds htarget).imp _ fun _ _ _ => trivial
    rintro response later -
    apply holds_do.mpr
    exact holds_ofExcept (fun _ _ => trivial) fun _ _ => trivial

theorem fetchRegistryTags_holds {lookup : Lookup}
    (hkind : lookup.target services = tagsTarget services lookup.imageReference lookup.auth) :
    LookupHolds services lookup (fetchRegistryTags services lookup.imageReference lookup.auth)
      (fun _ _ => True) [] := by
  unfold fetchRegistryTags
  apply holds_do.mpr
  refine holds_ofExcept (fun target htarget => ?_) fun _ _ => trivial
  rw [← hkind] at htarget
  apply holds_do.mpr
  apply (authorizedRegistryRequest_holds htarget).imp _ fun _ _ _ => trivial
  rintro response events -
  apply holds_do.mpr
  refine holds_ofExcept (fun _ _ => ?_) fun _ _ => trivial
  exact holds_ofExcept (fun _ _ => trivial) fun _ _ => trivial

/-- A lookup asks for nothing that it may not. -/
theorem Lookup.program_holds (lookup : Lookup) :
    LookupHolds services lookup (lookup.program services) (fun _ _ => True) [] := by
  unfold Lookup.program
  cases hkind : lookup.kind with
  | manifestDigest =>
    have htarget : lookup.target services
        = manifestTarget services lookup.imageReference lookup.auth := by
      rw [Lookup.target, hkind]
    dsimp only
    apply holds_do.mpr
    exact (fetchRegistryManifestDigest_holds htarget).imp (fun _ _ _ => trivial)
      fun _ _ _ => trivial
  | manifestDigests localDigest =>
    have htarget : lookup.target services
        = manifestTarget services lookup.imageReference lookup.auth := by
      rw [Lookup.target, hkind]
    dsimp only
    apply holds_do.mpr
    exact (fetchRegistryManifestDigests_holds htarget).imp (fun _ _ _ => trivial)
      fun _ _ _ => trivial
  | tags =>
    have htarget : lookup.target services
        = tagsTarget services lookup.imageReference lookup.auth := by
      rw [Lookup.target, hkind]
    dsimp only
    apply holds_do.mpr
    exact (fetchRegistryTags_holds htarget).imp (fun _ _ _ => trivial) fun _ _ _ => trivial

/-! ### All lookups at once -/

/-- What a request that is sent has behind it, in the events of all lookups. -/
def Confined (services : LookupServices) (before : List (Lookup × Event Query Answer))
    (lookup : Lookup) (request : HttpRequest) : Prop :=
  ∀ entry ∈ request.headers.entries, isAuthorization entry = true →
    MaySendCredentials services.urls request.url (requestPolicy lookup.auth)
    ∧ (Stored services lookup (eventsOf before lookup) entry.2 request.url
      ∨ ∃ token other, entry.2 = "Bearer " ++ token ∧ OfRegistry services lookup request.url
        ∧ SameAccount services lookup other ∧ Issued services (eventsOf before other) token)

/-- All requests that were sent are confined in what had happened before. -/
def CredentialsConfined (services : LookupServices) (log : List (Lookup × Event Query Answer)) :
    Prop :=
  ∀ before after lookup request answer,
    log = before ++ (lookup, ⟨.send request, answer⟩) :: after →
    Confined services before lookup request

/-- The cache holds tokens for whom they were issued, and so do the answers that it gave. -/
structure Kept (services : LookupServices) (tokenCache : TokenCache)
    (log : List (Lookup × Event Query Answer)) : Prop where
  cached : ∀ cacheKey entry, tokenCache.get cacheKey = some entry →
    IssuedFor services log cacheKey entry.token
  answered : ∀ lookup cacheKey entry, (lookup, ⟨.cachedToken cacheKey, some entry⟩) ∈ log →
    IssuedFor services log cacheKey entry.token
  sent : CredentialsConfined services log

theorem Kept.append {tokenCache tokenCache' : TokenCache}
    {log : List (Lookup × Event Query Answer)} {lookup : Lookup} {event : Event Query Answer}
    (h : Kept services tokenCache log)
    (hcached : ∀ cacheKey entry, tokenCache'.get cacheKey = some entry →
      IssuedFor services log cacheKey entry.token)
    (hanswered : ∀ cacheKey entry, event = ⟨.cachedToken cacheKey, some entry⟩ →
      IssuedFor services log cacheKey entry.token)
    (hsent : ∀ request answer, event = ⟨.send request, answer⟩ →
      Confined services log lookup request) :
    Kept services tokenCache' (log ++ [(lookup, event)]) where
  cached := fun cacheKey entry hget => (hcached cacheKey entry hget).append _
  answered := by
    intro lookup' cacheKey entry hmem
    rcases List.mem_append.mp hmem with hmem | hmem
    · exact (h.answered lookup' cacheKey entry hmem).append _
    · cases List.mem_singleton.mp hmem
      exact (hanswered cacheKey entry rfl).append _
  sent := by
    intro before after lookup' request answer heq
    rcases List.eq_nil_or_concat after with rfl | ⟨after, last, rfl⟩
    · obtain ⟨rfl, hlast⟩ := List.append_inj' heq rfl
      cases hlast
      exact hsent request answer rfl
    · rw [List.concat_eq_append, ← List.cons_append, ← List.append_assoc] at heq
      obtain ⟨hlog, -⟩ := List.append_inj' heq rfl
      exact h.sent before after lookup' request answer hlog

/-- What a lookup may send in what it knows, is confined in what has happened. -/
theorem Entitled.confined {tokenCache : TokenCache} {log : List (Lookup × Event Query Answer)}
    {lookup : Lookup} {history : History} {value : String} {url : UrlComponents}
    (h : Entitled services lookup history value url) (hkept : Kept services tokenCache log)
    (hhistory : ∀ event ∈ history, (lookup, event) ∈ log) :
    MaySendCredentials services.urls url (requestPolicy lookup.auth)
    ∧ (Stored services lookup (eventsOf log lookup) value url
      ∨ ∃ token other, value = "Bearer " ++ token ∧ OfRegistry services lookup url
        ∧ SameAccount services lookup other
        ∧ Issued services (eventsOf log other) token) := by
  have hevents : history ⊆ eventsOf log lookup :=
    fun event hevent => mem_eventsOf.mpr (hhistory event hevent)
  obtain ⟨hmay, hstored | ⟨token, hvalue, hregistry, hobtained⟩⟩ := h
  · refine ⟨hmay, .inl ⟨hstored.1, hstored.2.imp_right ?_⟩⟩
    rintro ⟨asked, reply, challenge, first, hreply, hrest⟩
    exact ⟨asked, reply, challenge, first, hevents hreply, hrest⟩
  · refine ⟨hmay, .inr ⟨token, ?_⟩⟩
    rcases hobtained with hissued | ⟨cacheKey, entry, hentry, hkey, rfl⟩
    · obtain ⟨parsed, first, htarget, -⟩ := id hregistry
      exact ⟨lookup, hvalue, hregistry, ⟨parsed, first, parsed, first, htarget, htarget, rfl, rfl,
        rfl⟩, hissued.mono hevents⟩
    · obtain ⟨other, hother, hissued⟩ := hkept.answered lookup cacheKey entry (hhistory _ hentry)
      exact ⟨other, hvalue, hregistry, sameAccount_of_cacheKey hkey hother, hissued⟩

/-- Every request of a lookup keeps the cache. -/
theorem Kept.serve {tokenCache : TokenCache} {log : List (Lookup × Event Query Answer)}
    {lookup : Lookup} {history : History} {query : Query} (h : Kept services tokenCache log)
    (hhistory : ∀ event ∈ history, (lookup, event) ∈ log)
    (hasks : LookupAsks services lookup history query) (reply : Answer query) :
    Kept services (serve tokenCache query reply).2
      (log ++ [(lookup, ⟨query, (serve tokenCache query reply).1⟩)]) := by
  cases query with
  | now =>
    apply h.append h.cached
    · intro _ _ heq
      cases heq
    · intro _ _ heq
      cases heq
  | lookup hostname =>
    apply h.append h.cached
    · intro _ _ heq
      cases heq
    · intro _ _ heq
      cases heq
  | send request =>
    apply h.append h.cached
    · intro _ _ heq
      cases heq
    · rintro _ _ ⟨⟩ entry hentry hname
      exact (hasks entry hentry hname).confined h hhistory
  | cachedToken cacheKey =>
    apply h.append h.cached
    · intro cacheKey' entry heq
      have hget : tokenCache.get cacheKey = some entry ∧ cacheKey = cacheKey' := by
        simp only [RegistryManifest.serve, Sigma.mk.injEq, Query.cachedToken.injEq] at heq
        obtain ⟨rfl, hanswer⟩ := heq
        exact ⟨eq_of_heq hanswer, rfl⟩
      obtain ⟨hget, rfl⟩ := hget
      exact h.cached cacheKey entry hget
    · intro _ _ heq
      cases heq
  | cacheToken cacheKey entry =>
    apply h.append
    · intro cacheKey' entry' hget
      by_cases hsame : cacheKey' = cacheKey
      · subst hsame
        have hentry : entry = entry' := by
          simpa [RegistryManifest.serve] using hget
        subst hentry
        obtain ⟨hkey, hissued⟩ := hasks
        exact ⟨lookup, hkey, hissued.mono fun event hevent =>
          mem_eventsOf.mpr (hhistory event hevent)⟩
      · exact h.cached cacheKey' entry' (by
          simpa [RegistryManifest.serve, OrderedMap.get_set_of_ne hsame] using hget)
    · intro _ _ heq
      cases heq
    · intro _ _ heq
      cases heq

variable (services)

/-- **Credentials of registries are confined.**  In every interleaving of lookups that share the
    cache of tokens, whatever registries, name services and authorities answer: a request carries
    credentials only over HTTPS, or to the origin of a registry that is stored as insecure; they are
    the ones stored for the lookup, sent to its registry or to an authority that asked it for a
    token, or a token that was issued to a lookup of the same repository and user, sent to its
    registry. -/
theorem registry_credentials_confined (ops : List (Sessions.Op Lookup Query Answer)) :
    CredentialsConfined services
      (Runs.exec (Sessions.step (Lookup.program services) serve) ⟨.empty, [], []⟩ ops).log := by
  have hinit : Kept services .empty [] := {
    cached := by
      intro cacheKey entry hget
      cases hget
    answered := by
      intro lookup cacheKey entry hmem
      cases hmem
    sent := fun before after lookup request answer heq => by
      cases before <;> cases heq
  }
  exact (Sessions.exec_invariant (fun lookup => lookup.program_holds)
    (fun lookup history query tokenCache log reply hkept hhistory hasks =>
      hkept.serve hhistory hasks reply) hinit ops).sent


end

end ComposeBastion.RegistryManifest
