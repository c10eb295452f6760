import ComposeBastion.Lib.Sessions
import ComposeBastion.Platform.Users

namespace ComposeBastion.Auth

open Js Program

/-!
# Logins and sessions

`services/auth.ts`, `services/loginAttempts.ts` and the routes over them: logins, the sessions they
open, and the requests that close sessions or change accounts.  A request is a program of its
statements; the statements of other requests come between two of them.  A transaction reads what is
committed, and what it writes is there for the others with its `COMMIT`.

* `AuthDb`, `Write`, `serve` — the tables, what a transaction may write, and the statements;
* `login`, `destroySession`, `readSession`, … — the functions of the source;
* `AuthCall.program` — a request to the server.
-/

/-! ### The tables -/

/-- A row of `sessions`. -/
structure SessionRow where
  id : Id
  userId : Id
  tokenHash : String
  expiresAt : ℤ
  deriving DecidableEq, Repr

/-- A row of `login_attempts`; `ip_address` is younger than the table. -/
structure LoginAttempt where
  identifier : String
  ipAddress : Option String
  success : Bool
  attemptedAt : ℤ
  deriving DecidableEq, Repr

structure AuthDb where
  users : Table UserRow UserRow.id
  sessions : Table SessionRow SessionRow.id
  attempts : List LoginAttempt

/-- What `mapAdmin` returns, without its times. -/
structure AdminUser where
  id : Id
  name : Option String
  username : Option String
  email : String
  role : UserRole
  isActive : Bool
  deriving DecidableEq, Repr

def mapAdmin (row : UserRow) : AdminUser where
  id := row.id
  name := row.name
  username := row.username
  email := row.email
  role := row.role
  isActive := row.isActive

/-- What the requests use beyond their own code. -/
structure AuthServices where
  -- `createHash("sha256").update(token).digest("hex")`
  sha256 : String → String
  -- `bcrypt.compare(password, hash)`
  compare : String → String → Bool
  -- `lower(…)` of the database
  lower : String → String

/-! ### Reading -/

structure LoginFailureSnapshot where
  ipFailures : ℕ
  identifierFailures : ℕ
  identifierDistinctIps : ℕ
  deriving DecidableEq, Repr

section

variable (services : AuthServices)

/-- `COALESCE(ip_address, 'unknown')`. -/
def LoginAttempt.address (attempt : LoginAttempt) : String := attempt.ipAddress.getD "unknown"

/-- The counts of `isLoginLocked`. -/
def AuthDb.loginFailures (db : AuthDb) (identifier ipAddress : String) (since : ℤ) :
    LoginFailureSnapshot :=
  let failures := db.attempts.filter fun attempt => !attempt.success && since ≤ attempt.attemptedAt
  let ofIdentifier := failures.filter fun attempt =>
    services.lower attempt.identifier = services.lower identifier
  { ipFailures := (failures.filter fun attempt => attempt.address = ipAddress).length
    identifierFailures := ofIdentifier.length
    identifierDistinctIps := (ofIdentifier.map LoginAttempt.address).dedup.length }

/-- `is_active = true AND (lower(email) = $1 OR lower(username) = $1)`. -/
def AnswersTo (identifier : String) (row : UserRow) : Bool :=
  row.isActive && (services.lower row.email = identifier
    || row.username.any fun username => services.lower username = identifier)

/-- The join of `readSession`. -/
def AuthDb.sessionUsers (db : AuthDb) (tokenHash : String) (now : ℤ) : List AdminUser :=
  (db.sessions.rows.filter fun row => row.tokenHash = tokenHash && now < row.expiresAt).filterMap
    fun row => ((db.users.find row.userId).filter UserRow.isActive).map mapAdmin

/-- `rows[0]` of a `SELECT` without an order: which of the rows comes first is open. -/
def firstRow {α : Type} [DecidableEq α] (choice : Option α) (rows : List α) : Option α :=
  if choice ∈ rows.map some then choice else rows.head?

/-- Which sessions a `DELETE` is about. -/
inductive SessionFilter
  -- `WHERE token_hash = $1`
  | token (tokenHash : String)
  -- `WHERE user_id = $1`
  | user (userId : Id)
  -- `WHERE id = $1 AND user_id = $2`
  | one (id userId : Id)
  deriving DecidableEq

def SessionFilter.covers : SessionFilter → SessionRow → Bool
  | .token tokenHash, row => row.tokenHash = tokenHash
  | .user userId, row => row.userId = uuidText userId
  | .one id userId, row => row.id = uuidText id && row.userId = uuidText userId

/-! ### Writing -/

/-- What a transaction writes. -/
inductive Write
  | insertUser (row : UserRow)
  -- `UPDATE admin_users SET … WHERE id = $1`, of all columns but `email`
  | setUser (row : UserRow)
  | deleteUser (id : Id)
  | insertSession (row : SessionRow)
  -- what a `DELETE FROM sessions` of the transaction has found
  | deleteSessions (ids : List Id)
  | recordAttempt (identifier ipAddress : String) (success : Bool)
  deriving DecidableEq

/-- `UPDATE admin_users SET name = $2, role = $3, is_active = $4, password_hash = $5,
    username = $6`. -/
def assigned (row old : UserRow) : UserRow where
  id := old.id
  name := row.name
  username := row.username
  email := old.email
  passwordHash := row.passwordHash
  role := row.role
  isActive := row.isActive

theorem assigned_id (row old : UserRow) : (assigned row old).id = old.id := rfl

/-- A write; the sessions of a user go with the row, and `now` is the default of a time. -/
def AuthDb.write (now : ℤ) (db : AuthDb) : Write → AuthDb
  | .insertUser row => { db with users := db.users.insert row }
  | .setUser row =>
    let isRow : UserRow → Bool := fun old => old.id = row.id
    { db with users := db.users.update isRow (assigned row) (assigned_id row) }
  | .deleteUser id =>
    { db with
      users := db.users.delete fun row => row.id = id
      sessions := db.sessions.delete fun row => row.userId = id }
  | .insertSession row => { db with sessions := db.sessions.insert row }
  | .deleteSessions ids => { db with sessions := db.sessions.delete fun row => row.id ∈ ids }
  | .recordAttempt identifier ipAddress success =>
    { db with attempts := db.attempts ++ [⟨identifier, some ipAddress, success, now⟩] }

/-- `UNIQUE ((lower(username)))`, for a user under an id. -/
def usernameFree (db : AuthDb) (row : UserRow) : Bool :=
  db.users.rows.all fun other => other.id = row.id || row.username.isNone
    || other.username.map services.lower ≠ row.username.map services.lower

/-- Whether the constraints of the tables admit a write. -/
def AuthDb.admits (db : AuthDb) : Write → Bool
  | .insertUser row => !db.users.hasKey row.id && usernameFree services db row
      && db.users.rows.all fun other => other.email ≠ row.email
  | .setUser row => usernameFree services db row
  | .insertSession row => !db.sessions.hasKey row.id && db.users.hasKey row.userId
      && db.sessions.rows.all fun other => other.tokenHash ≠ row.tokenHash
  | _ => true

def AuthDb.commit (now : ℤ) (db : AuthDb) (writes : List Write) : AuthDb :=
  writes.foldl (AuthDb.write now) db

/-- Whether they admit the writes of a transaction, one after the other. -/
def AuthDb.admitsAll (now : ℤ) : AuthDb → List Write → Bool
  | _, [] => true
  | db, write :: writes => db.admits services write && (db.write now write).admitsAll now writes

/-! ### Statements -/

/-- A statement or another call that a request waits for. -/
inductive AuthRequest
  -- `Date.now()`, `randomBytes(32).toString("base64url")` and `uuid()`
  | now
  | token
  | uuid
  | countUsers
  | loginFailures (identifier ipAddress : String) (since : ℤ)
  | activeUser (identifier : String)
  | session (tokenHash : String)
  | user (id : Id)
  | otherOwners (id : Id)
  -- in a transaction: what it finds is gone for the others with the `COMMIT`
  | deleteSessions (filter : SessionFilter)
  -- `COMMIT`, with all that the transaction has written; `none` is a statement that failed
  | commit (writes : List Write)
  -- `DELETE FROM sessions WHERE expires_at < now()`
  | deleteExpired

/-- The answers; the clock of the database stands with the statements that read it. -/
abbrev Answer : AuthRequest → Type
  | .now => ℤ
  | .token => String
  | .uuid => Id
  | .countUsers => ℕ
  | .loginFailures _ _ _ => LoginFailureSnapshot
  | .activeUser _ => Option UserRow
  | .session _ => ℤ × Option AdminUser
  | .user _ => Option UserRow
  | .otherOwners _ => ℕ
  | .deleteSessions _ => List SessionRow
  | .commit _ => Option ℤ
  | .deleteExpired => ℤ

/-- The database answers: clocks, random values, the order of rows and failures are open. -/
def serve (db : AuthDb) : (request : AuthRequest) → Answer request → Answer request × AuthDb
  | .now, time => (time, db)
  | .token, token => (token, db)
  | .uuid, id => (id, db)
  | .countUsers, _ => (db.users.rows.length, db)
  | .loginFailures identifier ipAddress since, _ =>
    (db.loginFailures services identifier ipAddress since, db)
  | .activeUser identifier, choice =>
    (firstRow choice (db.users.rows.filter (AnswersTo services identifier)), db)
  | .session tokenHash, (time, choice) =>
    ((time, firstRow choice (db.sessionUsers tokenHash time)), db)
  | .user id, _ => (db.users.find (uuidText id), db)
  | .otherOwners id, _ => (countActiveOwners ⟨db.users, []⟩ id, db)
  | .deleteSessions filter, _ => (db.sessions.rows.filter filter.covers, db)
  | .commit writes, reply =>
    match reply with
    | none => (none, db)
    | some time =>
      if db.admitsAll services time writes then (some time, db.commit time writes) else (none, db)
  | .deleteExpired, time =>
    (time, { db with sessions := db.sessions.delete fun row => row.expiresAt < time })

end

/-! ### Functions of the source -/

/-- An exception. -/
inductive AuthError
  | database
  -- an error with `statusCode: 409`
  | conflict (message : String)
  | invalid (message : String)
  deriving DecidableEq, Repr

abbrev Auths (α : Type) := Program AuthRequest Answer AuthError α

/-- The end of a transaction. -/
def commit (writes : List Write) : Auths Unit :=
  .await (.commit writes) fun
    | some _ => .ret ()
    | none => .throw .database

/-- A `DELETE FROM sessions` in a transaction. -/
def deleteSessions (filter : SessionFilter) : Auths (List SessionRow) :=
  .await (.deleteSessions filter) .ret

/-- What the transaction writes for it. -/
def deleted (rows : List SessionRow) : Write := .deleteSessions (rows.map SessionRow.id)

def sessionMs : ℤ := 7 * 24 * 60 * 60 * 1000

def windowMs : ℤ := 15 * 60 * 1000

def maxIpFailures : ℕ := 10

def maxIdentifierFailures : ℕ := 30

def minIdentifierLockIps : ℕ := 3

def unknownAccountPasswordHash : String :=
  "$2b$12$LQv3c1yqBWVHxkd0LHAkCOYz6Ttx1KnmK2w2S7tVY6B7cXWVCI0e."

def normalizeIpAddress (ipAddress : String) : String :=
  if trim ipAddress = "" then "unknown" else trim ipAddress

def isLoginLockedForSnapshot (snapshot : LoginFailureSnapshot) : Bool :=
  maxIpFailures ≤ snapshot.ipFailures
    || (maxIdentifierFailures ≤ snapshot.identifierFailures
      && minIdentifierLockIps ≤ snapshot.identifierDistinctIps)

/-- A presented cookie, if it is truthy. -/
def presented (token : Option String) : Option String := token.filter (· ≠ "")

variable [CaseMapping] (services : AuthServices)

/-- `identifier.trim().toLowerCase()`. -/
def normalizeIdentifier (identifier : String) : String := toLowerCase (trim identifier)

def isLoginLocked (identifier ipAddress : String) : Auths Bool :=
  .await .now fun time =>
    .await (.loginFailures (normalizeIdentifier identifier) (normalizeIpAddress ipAddress)
      (time - windowMs)) fun snapshot =>
    .ret (isLoginLockedForSnapshot snapshot)

def recordLoginAttempt (identifier ipAddress : String) (success : Bool) : Auths Unit :=
  commit [.recordAttempt (normalizeIdentifier identifier) (normalizeIpAddress ipAddress) success]

def verifyAdmin (identifier password : String) : Auths (Option AdminUser) :=
  .await (.activeUser (normalizeIdentifier identifier)) fun row =>
    -- an unknown account costs the same comparison
    let valid := services.compare password
      ((row.map UserRow.passwordHash).getD unknownAccountPasswordHash)
    .ret (if valid then row.map mapAdmin else none)

/-- `createLoginSession`, in a transaction that has written `earlier` before. -/
def createLoginSession (userId : Id) (earlier : List Write) : Auths (String × ℤ) :=
  .await .token fun token =>
    .await .now fun time =>
    .await .uuid fun id => do
    commit (earlier ++ [.insertSession ⟨id, userId, services.sha256 token, time + sessionMs⟩])
    .ret (token, time + sessionMs)

structure InitialAdminInput where
  email : Option String
  username : Option String
  name : Option String
  -- the hash of its password
  passwordHash : String

/-- `username?.trim().toLowerCase() || null`. -/
def InitialAdminInput.account (input : InitialAdminInput) : Option String :=
  (input.username.map fun username => toLowerCase (trim username)).filter (· ≠ "")

/-- The address of `prepareInitialAdmin`. -/
def InitialAdminInput.address (input : InitialAdminInput) : Option String :=
  match (input.email.map fun email => toLowerCase (trim email)).filter (· ≠ "") with
  | some email => some email
  | none => input.account.map (· ++ "@local.composebastion")

/-- The row of `insertInitialAdmin`. -/
def initialAdmin (input : InitialAdminInput) (email : String) (id : Id) : UserRow where
  id := id
  name := input.name
  username := input.account
  email := email
  passwordHash := input.passwordHash
  role := .owner
  isActive := true

def setupInitialAdmin (input : InitialAdminInput) : Auths (AdminUser × String × ℤ) :=
  match input.address with
  | none => .throw (.invalid "Username or email is required")
  | some email =>
    .await .countUsers fun count =>
      if 0 < count then .throw (.conflict "Initial admin already exists")
      else
        .await .uuid fun id => do
        let session ← createLoginSession services id [.insertUser (initialAdmin input email id)]
        .ret (mapAdmin (initialAdmin input email id), session)

def readSession (token : Option String) : Auths (Option AdminUser) :=
  match presented token with
  | none => .ret none
  | some token => .await (.session (services.sha256 token)) fun answer => .ret answer.2

def destroySession (token : Option String) : Auths Bool :=
  match presented token with
  | none => .ret false
  | some token => do
    let rows ← deleteSessions (.token (services.sha256 token))
    commit [deleted rows]
    .ret (rows ≠ [])

omit [CaseMapping] in
def destroyAllSessionsForUser (userId : Id) : Auths Unit := do
  let rows ← deleteSessions (.user userId)
  commit [deleted rows]
  .ret ()

/-- Whether a session was revoked, and whether it is the current one. -/
def revokeSessionForUser (sessionId userId : Id) (currentTokenHash : String) :
    Auths (Option Bool) := do
  let rows ← deleteSessions (.one sessionId userId)
  commit [deleted rows]
  .ret (((rows.head?.map SessionRow.tokenHash).filter (· ≠ "")).map (· = currentTokenHash))

/-! ### User management, statement by statement -/

def createUser (body : UserCreate) : Auths AdminUser :=
  .await .uuid fun id => do
  commit [.insertUser (createdUser id body)]
  .ret (mapAdmin (createdUser id body))

/-- The statements of `updateUser` that write. -/
def writeUser (id : Id) (row : UserRow) (body : UserUpdate) : Auths (Option AdminUser) :=
  if body.passwordHash.isSome ∨ (row.isActive = true ∧ nextActive row body = false) then do
    let rows ← deleteSessions (.user id)
    commit [.setUser (updatedUser body row), deleted rows]
    .ret (some (mapAdmin (updatedUser body row)))
  else do
    commit [.setUser (updatedUser body row)]
    .ret (some (mapAdmin (updatedUser body row)))

def updateUser (id : Id) (body : UserUpdate) (actorId : Option Id) : Auths (Option AdminUser) :=
  .await (.user id) fun
    | none => .ret none
    | some row =>
      match selfRefusal row body id actorId with
      | some message => .throw (.conflict message)
      | none =>
        if takesOwner row body then
          .await (.otherOwners id) fun count =>
            match lastOwnerRefusal row body count with
            | some message => .throw (.conflict message)
            | none => writeUser id row body
        else writeUser id row body

omit [CaseMapping] in
def deleteUser (id : Id) (actorId : Option Id) : Auths Bool :=
  .await (.user id) fun
    | none => .ret false
    | some row =>
      if actorId = some id then .throw (.conflict "You cannot delete your own account")
      else if row.activeOwner then
        .await (.otherOwners id) fun count =>
          if count = 0 then .throw (.conflict "Cannot delete the last active owner account")
          else do
            commit [.deleteUser (uuidText id)]
            .ret true
      else do
        commit [.deleteUser (uuidText id)]
        .ret true

/-! ### Requests to the server -/

/-- What the server answers. -/
inductive AuthReply
  | error (statusCode : ℕ) (message : String)
  -- `{ user }`, and whether the cookie is cleared
  | user (user : AdminUser) (clearsCookie : Bool)
  -- with the cookie, and how long it lasts
  | signedIn (user : AdminUser) (token : String) (expiresAt : ℤ)
  -- `{ ok: true }` to a user, and whether the cookie is cleared
  | ok (actor : Option AdminUser) (clearsCookie : Bool)
  deriving DecidableEq

/-- A request to the server, or a round of its cleanup. -/
inductive AuthCall
  | setup (input : InitialAdminInput)
  | login (identifier ipAddress password : String)
  | logout (token : Option String)
  | logoutAll (token : Option String)
  | revokeSession (token : Option String) (id : Id)
  -- any route behind `requireRole`
  | access (token : Option String) (roles : List UserRole)
  | createUser (token : Option String) (body : UserCreate)
  | updateUser (token : Option String) (id : Id) (body : UserUpdate)
  | deleteUser (token : Option String) (id : Id)
  | deleteExpired

def authRequired : AuthReply := .error 401 "Authentication required"

/-- `requireRole(roles)`, and then the route. -/
def requireRole (token : Option String) (roles : List UserRole)
    (route : AdminUser → Auths AuthReply) : Auths AuthReply := do
  let user ← readSession services token
  match user with
  | none => .ret authRequired
  | some user =>
    if user.role ∈ roles then route user else .ret (.error 403 "Insufficient permissions")

/-- The roles that manage users. -/
def ownerOrAdmin : List UserRole := [.owner, .admin]

def login (identifier ipAddress password : String) : Auths AuthReply := do
  let locked ← isLoginLocked identifier ipAddress
  if locked then .ret (.error 429 "Too many failed login attempts. Try again later.")
  else do
    let user ← verifyAdmin services identifier password
    match user with
    | none => do
      recordLoginAttempt identifier ipAddress false
      .ret (.error 401 "Invalid username/email or password")
    | some user => do
      recordLoginAttempt identifier ipAddress true
      let session ← createLoginSession services user.id []
      .ret (.signedIn user session.1 session.2)

def setup (input : InitialAdminInput) : Auths AuthReply := do
  let created ← setupInitialAdmin services input
  .ret (.signedIn created.1 created.2.1 created.2.2)

def logout (token : Option String) : Auths AuthReply := do
  let _ ← destroySession services token
  .ret (.ok none true)

def logoutAll (token : Option String) : Auths AuthReply := do
  let user ← readSession services token
  match user with
  | none => .ret authRequired
  | some user => do
    destroyAllSessionsForUser user.id
    .ret (.ok (some user) true)

def revokeSession (token : Option String) (id : Id) : Auths AuthReply := do
  let user ← readSession services token
  match user with
  | none => .ret authRequired
  | some user => do
    let revoked ← revokeSessionForUser id user.id
      (((presented token).map services.sha256).getD "")
    match revoked with
    | none => .ret (.error 404 "Session not found")
    | some wasCurrent => .ret (.ok (some user) wasCurrent)

def createUserRoute (body : UserCreate) : Auths AuthReply := do
  let user ← createUser body
  .ret (.user user false)

/-- The cookie goes with the old password of one's own account. -/
def updateUserRoute (id : Id) (body : UserUpdate) (actor : AdminUser) : Auths AuthReply := do
  let user ← updateUser id body (some actor.id)
  match user with
  | none => .ret (.error 404 "User not found")
  | some user => .ret (.user user (id = actor.id && body.passwordHash.isSome))

omit [CaseMapping] in
/-- A conflict becomes a reply here. -/
def deleteUserRoute (id : Id) (actor : AdminUser) : Auths AuthReply :=
  (deleteUser id (some actor.id)).attempt
    (fun
      | .conflict message => .ret (.error 409 message)
      | error => .throw error)
    fun
      | false => .ret (.error 404 "User not found")
      | true => .ret (.ok (some actor) false)

def AuthCall.program : AuthCall → Auths AuthReply
  | .setup input => Auth.setup services input
  | .login identifier ipAddress password => Auth.login services identifier ipAddress password
  | .logout token => Auth.logout services token
  | .logoutAll token => Auth.logoutAll services token
  | .revokeSession token id => Auth.revokeSession services token id
  | .access token roles => requireRole services token roles fun user => .ret (.user user false)
  | .createUser token body => requireRole services token ownerOrAdmin fun _ => createUserRoute body
  | .updateUser token id body => requireRole services token ownerOrAdmin (updateUserRoute id body)
  | .deleteUser token id => requireRole services token ownerOrAdmin (deleteUserRoute id)
  | .deleteExpired => .await .deleteExpired fun _ => .ret (.ok none false)

end ComposeBastion.Auth
