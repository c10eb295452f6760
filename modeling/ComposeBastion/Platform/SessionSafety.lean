import ComposeBastion.Platform.LoginSessions
import Mathlib.Data.List.Induction
import Mathlib.Data.Set.Basic

namespace ComposeBastion.Auth

open Js Program

/-!
# What stands behind a session

In every interleaving of requests to the server, with any clocks, random values, orders of rows and
failures of statements:

* `session_reads_accounted` — a session that is read was opened by a login, has not expired, and
  nothing that removes it has been committed since;
* `ended_sessions_stay_ended` — when a request that ends sessions is answered, the sessions that it
  is about and that were there when it came are gone for good;
* `writes_warranted` — what is written to accounts and sessions is written for someone entitled to
  it.
-/

abbrev History := List (Event AuthRequest Answer)

abbrev Log := List (AuthCall × Event AuthRequest Answer)

/-! ### The tables as what the log leaves -/

/-- What a request with its answer does to the tables. -/
def effect (db : AuthDb) : Event AuthRequest Answer → AuthDb
  | ⟨.commit writes, some time⟩ => db.commit time writes
  | ⟨.deleteExpired, time⟩ =>
    { db with sessions := db.sessions.delete fun row => row.expiresAt < time }
  | _ => db

theorem serve_effect (services : AuthServices) (db : AuthDb) (request : AuthRequest)
    (reply : Answer request) :
    (serve services db request reply).2
      = effect db ⟨request, (serve services db request reply).1⟩ := by
  cases request with
  | commit writes =>
    cases reply with
    | none => rfl
    | some time =>
      simp only [serve]
      split <;> rfl
  | _ => rfl

/-- The tables after what is logged. -/
def dbAfter (db : AuthDb) (log : Log) : AuthDb := Sessions.replay effect db log

def Write.Removes (row : SessionRow) : Write → Prop
  | .deleteUser id => row.userId = id
  | .deleteSessions ids => row.id ∈ ids
  | _ => False

/-- The event takes the session away. -/
def Removes (row : SessionRow) : Event AuthRequest Answer → Prop
  | ⟨.commit writes, some _⟩ => ∃ write ∈ writes, write.Removes row
  | ⟨.deleteExpired, time⟩ => row.expiresAt < time
  | _ => False

/-- The event brings the session. -/
def Inserts (row : SessionRow) (event : Event AuthRequest Answer) : Prop :=
  ∃ writes time, event = ⟨.commit writes, some time⟩ ∧ .insertSession row ∈ writes

theorem mem_write {db : AuthDb} {time : ℤ} {write : Write} {row : SessionRow}
    (h : row ∈ (db.write time write).sessions) :
    (row ∈ db.sessions ∧ ¬ write.Removes row) ∨ write = .insertSession row := by
  cases write with
  | insertUser _ => exact .inl ⟨h, id⟩
  | setUser _ => exact .inl ⟨h, id⟩
  | recordAttempt _ _ _ => exact .inl ⟨h, id⟩
  | deleteUser id =>
    obtain ⟨hmem, hnot⟩ := Table.mem_delete.mp h
    exact .inl ⟨hmem, decide_eq_false_iff_not.mp hnot⟩
  | deleteSessions ids =>
    obtain ⟨hmem, hnot⟩ := Table.mem_delete.mp h
    exact .inl ⟨hmem, decide_eq_false_iff_not.mp hnot⟩
  | insertSession row' =>
    rcases Table.mem_insert h with hmem | ⟨rfl, -⟩
    · exact .inl ⟨hmem, id⟩
    · exact .inr rfl

theorem mem_commit {db : AuthDb} {time : ℤ} {writes : List Write} {row : SessionRow}
    (h : row ∈ (db.commit time writes).sessions) :
    (row ∈ db.sessions ∧ ∀ write ∈ writes, ¬ write.Removes row)
      ∨ .insertSession row ∈ writes := by
  induction writes generalizing db with
  | nil => exact .inl ⟨h, fun write hwrite => absurd hwrite List.not_mem_nil⟩
  | cons write writes ih =>
    rcases ih h with ⟨hmem, hlater⟩ | hinsert
    · rcases mem_write hmem with ⟨hmem, hnot⟩ | rfl
      · exact .inl ⟨hmem, List.forall_mem_cons.mpr ⟨hnot, hlater⟩⟩
      · exact .inr List.mem_cons_self
    · exact .inr (List.mem_cons_of_mem _ hinsert)

theorem mem_effect {db : AuthDb} {event : Event AuthRequest Answer} {row : SessionRow}
    (h : row ∈ (effect db event).sessions) :
    (row ∈ db.sessions ∧ ¬ Removes row event) ∨ Inserts row event := by
  obtain ⟨request, answer⟩ := event
  cases request with
  | commit writes =>
    cases answer with
    | none => exact .inl ⟨h, id⟩
    | some time =>
      rcases mem_commit h with ⟨hmem, hnot⟩ | hinsert
      · refine .inl ⟨hmem, ?_⟩
        rintro ⟨write, hwrite, hremoves⟩
        exact hnot write hwrite hremoves
      · exact .inr ⟨writes, time, rfl, hinsert⟩
  | deleteExpired =>
    obtain ⟨hmem, hnot⟩ := Table.mem_delete.mp h
    exact .inl ⟨hmem, decide_eq_false_iff_not.mp hnot⟩
  | _ => exact .inl ⟨h, id⟩

/-- **Where a session comes from.**  It was there before the log, or an entry of the log brought it;
    since then none has taken it away. -/
theorem mem_dbAfter {db : AuthDb} {log : Log} {row : SessionRow}
    (h : row ∈ (dbAfter db log).sessions) :
    (row ∈ db.sessions ∧ ∀ entry ∈ log, ¬ Removes row entry.2)
      ∨ ∃ before issuer event after, log = before ++ (issuer, event) :: after
        ∧ Inserts row event ∧ ∀ entry ∈ after, ¬ Removes row entry.2 := by
  induction log using List.reverseRecOn with
  | nil => exact .inl ⟨h, fun entry hentry => absurd hentry List.not_mem_nil⟩
  | append_singleton log last ih =>
    rw [dbAfter, Sessions.replay_append] at h
    rcases mem_effect h with ⟨hmem, hnot⟩ | hinsert
    · rcases ih hmem with ⟨hmem, hlog⟩ | ⟨before, issuer, event, after, rfl, hinsert, hafter⟩
      · refine .inl ⟨hmem, fun entry hentry => ?_⟩
        rcases List.mem_append.mp hentry with hentry | hentry
        · exact hlog entry hentry
        · rwa [List.mem_singleton.mp hentry]
      · refine .inr ⟨before, issuer, event, after ++ [last], ?_, hinsert, fun entry hentry => ?_⟩
        · rw [List.append_assoc, List.cons_append]
        · rcases List.mem_append.mp hentry with hentry | hentry
          · exact hafter entry hentry
          · rwa [List.mem_singleton.mp hentry]
    · exact .inr ⟨log, last.1, last.2, [], rfl, hinsert,
        fun entry hentry => absurd hentry List.not_mem_nil⟩

/-! ### What a request may write -/

section

variable [CaseMapping] (services : AuthServices) (call : AuthCall)
  (known : Set (Event AuthRequest Answer))

/-- The session of the cookie was read, as one of this user. -/
def ReadAs (token : Option String) (user : AdminUser) : Prop :=
  ∃ text time, presented token = some text ∧ ⟨.session (services.sha256 text), (time, some user)⟩ ∈ known

/-- It was read as one of somebody who manages users. -/
def Manager (token : Option String) (user : AdminUser) : Prop :=
  ReadAs services known token user ∧ user.role ∈ ownerOrAdmin

/-- The token is a new one, and the session lasts for its days from a reading of the clock. -/
def Fresh (row : SessionRow) : Prop :=
  ∃ token time, ⟨.token, token⟩ ∈ known ∧ ⟨.now, time⟩ ∈ known
    ∧ row.tokenHash = services.sha256 token ∧ row.expiresAt = time + sessionMs

/-- A login that was not locked, with the password of an account that it found. -/
def OpenedByLogin (row : SessionRow) : Prop :=
  ∃ identifier ipAddress password account, call = .login identifier ipAddress password
    ∧ (∃ time snapshot, ⟨.now, time⟩ ∈ known
      ∧ ⟨.loginFailures (normalizeIdentifier identifier) (normalizeIpAddress ipAddress)
        (time - windowMs), snapshot⟩ ∈ known
      ∧ isLoginLockedForSnapshot snapshot = false)
    ∧ ⟨.activeUser (normalizeIdentifier identifier), some account⟩ ∈ known
    ∧ services.compare password account.passwordHash = true
    ∧ row.userId = account.id ∧ Fresh services known row

/-- The setup of an installation without users. -/
def OpenedBySetup (writes : List Write) (row : SessionRow) : Prop :=
  ∃ input email id, call = .setup input ∧ ⟨.countUsers, (0 : ℕ)⟩ ∈ known
    ∧ .insertUser (initialAdmin input email id) ∈ writes ∧ row.userId = id
    ∧ Fresh services known row

/-- Whose sessions a request may end. -/
def MayEnd : SessionFilter → Prop
  | .token tokenHash => ∃ token text, call = .logout token ∧ presented token = some text
      ∧ tokenHash = services.sha256 text
  | .user userId =>
    (∃ token user, call = .logoutAll token ∧ ReadAs services known token user ∧ userId = user.id)
      ∨ ∃ token body user, call = .updateUser token userId body ∧ Manager services known token user
  | .one id userId => ∃ token user, call = .revokeSession token id
      ∧ ReadAs services known token user ∧ userId = user.id

/-- What entitles a request to a write of a transaction. -/
def Warranted (writes : List Write) : Write → Prop
  | .insertUser row =>
    (∃ input email id, call = .setup input ∧ row = initialAdmin input email id
      ∧ ⟨.countUsers, (0 : ℕ)⟩ ∈ known)
      ∨ ∃ token body user id, call = .createUser token body ∧ row = createdUser id body
        ∧ Manager services known token user
  | .setUser row => ∃ token id body user old, call = .updateUser token id body
      ∧ Manager services known token user ∧ ⟨.user id, some old⟩ ∈ known
      ∧ row = updatedUser body old ∧ selfRefusal old body id (some user.id) = none
  | .deleteUser id => ∃ token id' user, call = .deleteUser token id' ∧ id = uuidText id'
      ∧ Manager services known token user ∧ user.id ≠ id'
  | .insertSession row =>
    OpenedByLogin services call known row ∨ OpenedBySetup services call known writes row
  | .deleteSessions ids => ∃ filter rows, MayEnd services call known filter
      ∧ ⟨.deleteSessions filter, rows⟩ ∈ known ∧ ids = rows.map SessionRow.id
  | .recordAttempt identifier ipAddress _ => ∃ identifier' ipAddress' password,
      call = .login identifier' ipAddress' password
      ∧ identifier = normalizeIdentifier identifier' ∧ ipAddress = normalizeIpAddress ipAddress'

/-- A commit is permitted when all its writes are warranted. -/
def Permitted : AuthRequest → Prop
  | .commit writes => ∀ write ∈ writes, Warranted services call known writes write
  | _ => True

end

/-! ### What an answer says -/

/-- The sessions that are to be gone when a request is answered so. -/
def ended [CaseMapping] (services : AuthServices) : AuthCall → AuthReply → Option SessionFilter
  | .logout token, _ => (presented token).map fun text => .token (services.sha256 text)
  | .logoutAll _, .ok (some user) _ => some (.user user.id)
  | .revokeSession _ id, .ok (some user) _ => some (.one id user.id)
  | .updateUser _ id body, .user _ _ => if body.passwordHash.isSome then some (.user id) else none
  | .deleteUser _ id, .ok _ _ => some (.user id)
  | _, _ => none

/-- They were deleted, and that was committed. -/
def Closed (filter : SessionFilter) (known : History) : Prop :=
  (∃ rows writes time,
    ([⟨.deleteSessions filter, rows⟩, ⟨.commit writes, some time⟩] : History).Sublist known
      ∧ deleted rows ∈ writes)
    ∨ ∃ id writes time, filter = .user id ∧ ⟨.commit writes, some time⟩ ∈ known
      ∧ .deleteUser (uuidText id) ∈ writes

/-! ### What the functions know -/

section

variable [CaseMapping] {services : AuthServices} {call : AuthCall} {history : History}

/-- What a request to the server knows is what has happened to it. -/
def Allowed (services : AuthServices) (call : AuthCall) (history : History) :
    AuthRequest → Prop :=
  Permitted services call {event | event ∈ history}

/-- In all runs of a program after `history`: each commit is permitted, and a value is returned in
    what `Q` says. -/
abbrev Ensures {α : Type} (services : AuthServices) (call : AuthCall) (history : History)
    (p : Auths α) (Q : α → History → Prop) : Prop :=
  p.Holds (Allowed services call) remember Q (fun _ _ => True) history

theorem Ensures.bind {α β : Type} {p : Auths α} {f : α → Auths β} {Q : α → History → Prop}
    {Q' : β → History → Prop} (h : Ensures services call history p Q)
    (hf : ∀ a known, Q a known → Ensures services call known (f a) Q') :
    Ensures services call history (p >>= f) Q' :=
  holds_do.mpr (h.imp hf fun _ _ herror => herror)

omit [CaseMapping] in
theorem mem_remembered {request : AuthRequest} {answer : Answer request} :
    (⟨request, answer⟩ : Event AuthRequest Answer) ∈ remember history request answer :=
  List.mem_append_right _ List.mem_cons_self

theorem commit_ensures {writes : List Write}
    (hwrites : ∀ write ∈ writes,
      Warranted services call {event | event ∈ history} writes write) :
    Ensures services call history (commit writes)
      fun _ known => ∃ time, known = history ++ [⟨.commit writes, some time⟩] := by
  refine ⟨hwrites, fun answer => ?_⟩
  cases answer with
  | none => trivial
  | some time => exact ⟨time, rfl⟩

theorem deleteSessions_ensures (filter : SessionFilter) :
    Ensures services call history (deleteSessions filter)
      fun rows known => known = history ++ [⟨.deleteSessions filter, rows⟩] :=
  ⟨trivial, fun _ => rfl⟩

theorem readSession_ensures (token : Option String) :
    Ensures services call history (readSession services token) fun user known =>
      history <+: known ∧ ∀ u, user = some u → ReadAs services {event | event ∈ known} token u := by
  rw [readSession]
  cases htoken : presented token with
  | none => exact ⟨List.prefix_rfl, fun u hu => by cases hu⟩
  | some text =>
    refine ⟨trivial, fun answer => ⟨List.prefix_append _ _, fun u hu => ?_⟩⟩
    refine ⟨text, answer.1, htoken, ?_⟩
    rw [← hu]
    exact mem_remembered

theorem isLoginLocked_ensures (identifier ipAddress : String) :
    Ensures services call history (isLoginLocked identifier ipAddress) fun locked known =>
      history <+: known ∧ (locked = false →
        ∃ time snapshot, ⟨.now, time⟩ ∈ known
          ∧ ⟨.loginFailures (normalizeIdentifier identifier) (normalizeIpAddress ipAddress)
            (time - windowMs), snapshot⟩ ∈ known
          ∧ isLoginLockedForSnapshot snapshot = false) := by
  refine ⟨trivial, fun time => ⟨trivial, fun snapshot => ⟨?_, fun hunlocked => ?_⟩⟩⟩
  · exact (List.prefix_append _ _).trans (List.prefix_append _ _)
  · exact ⟨time, snapshot, List.mem_append_left _ mem_remembered, mem_remembered, hunlocked⟩

theorem verifyAdmin_ensures (identifier password : String) :
    Ensures services call history (verifyAdmin services identifier password) fun user known =>
      history <+: known ∧ ∀ u, user = some u → ∃ account,
        ⟨.activeUser (normalizeIdentifier identifier), some account⟩ ∈ known
          ∧ services.compare password account.passwordHash = true ∧ u.id = account.id := by
  refine ⟨trivial, fun row => ⟨List.prefix_append _ _, fun u hu => ?_⟩⟩
  cases row with
  | none =>
    split at hu <;> cases hu
  | some account =>
    split at hu
    · rename_i hvalid
      cases hu
      exact ⟨account, mem_remembered, hvalid, rfl⟩
    · cases hu

/-- A new session is warranted when any session of the user with a new token is. -/
theorem createLoginSession_ensures {userId : Id} {earlier : List Write}
    (hwarranted : ∀ known row, history <+: known →
      Fresh services {event | event ∈ known} row → row.userId = userId →
      ∀ write ∈ earlier ++ [.insertSession row],
        Warranted services call {event | event ∈ known} (earlier ++ [.insertSession row]) write) :
    Ensures services call history (createLoginSession services userId earlier)
      fun _ _ => True := by
  refine ⟨trivial, fun token => ⟨trivial, fun time => ⟨trivial, fun id => ?_⟩⟩⟩
  refine Ensures.bind (commit_ensures ?_) fun _ _ _ => trivial
  have hknown : history
      <+: remember (remember (remember history .token token) .now time) .uuid id :=
    ((List.prefix_append _ _).trans (List.prefix_append _ _)).trans (List.prefix_append _ _)
  refine hwarranted _ _ hknown ⟨token, time, ?_, ?_, rfl, rfl⟩ rfl
  · exact List.mem_append_left _ (List.mem_append_left _ mem_remembered)
  · exact List.mem_append_left _ mem_remembered

omit [CaseMapping] in
theorem ReadAs.mono {known later : Set (Event AuthRequest Answer)} {token : Option String}
    {user : AdminUser} (h : ReadAs services known token user) (hmore : known ⊆ later) :
    ReadAs services later token user := by
  obtain ⟨text, time, htoken, hread⟩ := h
  exact ⟨text, time, htoken, hmore hread⟩

omit [CaseMapping] in
theorem Manager.mono {known later : Set (Event AuthRequest Answer)} {token : Option String}
    {user : AdminUser} (h : Manager services known token user) (hmore : known ⊆ later) :
    Manager services later token user :=
  ⟨h.1.mono hmore, h.2⟩

/-! ### What the requests do -/

theorem recordLoginAttempt_ensures {identifier ipAddress password : String} (success : Bool) :
    Ensures services (.login identifier ipAddress password) history
      (recordLoginAttempt identifier ipAddress success) fun _ known => history <+: known := by
  refine (commit_ensures ?_).imp ?_ fun _ _ herror => herror
  · intro write hwrite
    rw [List.mem_singleton.mp hwrite]
    exact ⟨identifier, ipAddress, password, rfl, rfl, rfl⟩
  · rintro _ known ⟨time, rfl⟩
    exact List.prefix_append _ _

theorem login_ensures (identifier ipAddress password : String) :
    Ensures services (.login identifier ipAddress password) []
      (login services identifier ipAddress password) fun _ _ => True := by
  refine (isLoginLocked_ensures identifier ipAddress).bind fun locked first hlocked => ?_
  cases locked with
  | true => trivial
  | false =>
    refine (verifyAdmin_ensures identifier password).bind fun user second hverified => ?_
    cases user with
    | none => exact (recordLoginAttempt_ensures false).bind fun _ _ _ => trivial
    | some user =>
      refine (recordLoginAttempt_ensures true).bind fun _ third hthird => ?_
      refine (createLoginSession_ensures ?_).bind fun _ _ _ => trivial
      intro known row hknown hfresh huser write hwrite
      rw [List.mem_singleton.mp hwrite]
      obtain ⟨time, snapshot, htime, hfailures, hunlocked⟩ := hlocked.2 rfl
      obtain ⟨account, hfound, hpassword, hid⟩ := hverified.2 user rfl
      have hsecond : second <+: known := hthird.trans hknown
      have hfirst : first <+: known := hverified.1.trans hsecond
      exact .inl ⟨identifier, ipAddress, password, account, rfl,
        ⟨time, snapshot, hfirst.subset htime, hfirst.subset hfailures, hunlocked⟩,
        hsecond.subset hfound, hpassword, huser.trans hid, hfresh⟩

theorem setup_ensures (input : InitialAdminInput) :
    Ensures services (.setup input) [] (setup services input) fun _ _ => True := by
  refine Ensures.bind (Q := fun _ _ => True) ?_ fun _ _ _ => trivial
  rw [setupInitialAdmin]
  cases input.address with
  | none => trivial
  | some email =>
    refine ⟨trivial, fun count => ?_⟩
    cases count with
    | succ count => trivial
    | zero =>
      refine ⟨trivial, fun id => ?_⟩
      refine (createLoginSession_ensures ?_).bind fun _ _ _ => trivial
      intro known row hknown hfresh huser write hwrite
      have hcount : (⟨.countUsers, (0 : ℕ)⟩ : Event AuthRequest Answer) ∈ known :=
        hknown.subset (List.mem_append_left _ mem_remembered)
      rcases List.mem_append.mp hwrite with hwrite | hwrite
      · rw [List.mem_singleton.mp hwrite]
        exact .inl ⟨input, email, id, rfl, rfl, hcount⟩
      · rw [List.mem_singleton.mp hwrite]
        exact .inr ⟨input, email, id, rfl, hcount, List.mem_cons_self, huser, hfresh⟩

omit [CaseMapping] in
theorem MayEnd.mono {known later : Set (Event AuthRequest Answer)} {filter : SessionFilter}
    (h : MayEnd services call known filter) (hmore : known ⊆ later) :
    MayEnd services call later filter := by
  cases filter with
  | token tokenHash => exact h
  | user userId =>
    rcases h with ⟨token, user, hcall, hread, hid⟩ | ⟨token, body, user, hcall, hmanager⟩
    · exact .inl ⟨token, user, hcall, hread.mono hmore, hid⟩
    · exact .inr ⟨token, body, user, hcall, hmanager.mono hmore⟩
  | one id userId =>
    obtain ⟨token, user, hcall, hread, hid⟩ := h
    exact ⟨token, user, hcall, hread.mono hmore, hid⟩

theorem deleted_warranted {filter : SessionFilter} {rows : List SessionRow} {writes : List Write}
    (hmay : MayEnd services call {event | event ∈ history} filter) :
    Warranted services call {event | event ∈ remember history (.deleteSessions filter) rows} writes
      (deleted rows) :=
  ⟨filter, rows, hmay.mono fun _ hevent => List.mem_append_left _ hevent, mem_remembered, rfl⟩

/-- A transaction that deletes sessions, with what it writes besides. -/
theorem closing_ensures {β : Type} {filter : SessionFilter} {writes : List SessionRow → List Write}
    {f : List SessionRow → Auths β} {Q : β → History → Prop}
    (hmay : MayEnd services call {event | event ∈ history} filter)
    (hdeleted : ∀ rows, deleted rows ∈ writes rows)
    (hwrites : ∀ rows known, history <+: known → ∀ write ∈ writes rows, write = deleted rows
      ∨ Warranted services call {event | event ∈ known} (writes rows) write)
    (hf : ∀ rows known, Closed filter known → Ensures services call known (f rows) Q) :
    Ensures services call history
      (deleteSessions filter >>= fun rows => commit (writes rows) >>= fun _ => f rows) Q := by
  refine (deleteSessions_ensures filter).bind ?_
  rintro rows _ rfl
  refine (commit_ensures fun write hwrite => ?_).bind ?_
  · rcases hwrites rows _ (List.prefix_append _ _) write hwrite with rfl | hwarranted
    · exact deleted_warranted hmay
    · exact hwarranted
  · rintro _ _ ⟨time, rfl⟩
    refine hf rows _ (.inl ⟨rows, writes rows, time, ?_, hdeleted rows⟩)
    rw [List.append_assoc]
    exact List.sublist_append_right _ _

theorem only_deleted {rows : List SessionRow} {known : History} :
    ∀ write ∈ [deleted rows], write = deleted rows
      ∨ Warranted services call {event | event ∈ known} [deleted rows] write :=
  fun _ hwrite => .inl (List.mem_singleton.mp hwrite)

/-- What a request knows when it is answered: the sessions that it is about are closed. -/
def Concluded (services : AuthServices) (call : AuthCall) (reply : AuthReply)
    (known : History) : Prop :=
  ∀ filter, ended services call reply = some filter → Closed filter known

theorem logout_ensures (token : Option String) :
    Ensures services (.logout token) [] (logout services token)
      (Concluded services (.logout token)) := by
  rw [logout, destroySession]
  cases htoken : presented token with
  | none =>
    intro filter hended
    rw [ended, htoken] at hended
    cases hended
  | some text =>
    have hclosed : Ensures services (.logout token) []
        (deleteSessions (.token (services.sha256 text)) >>= fun rows =>
          commit [deleted rows] >>= fun _ => .ret (decide (rows ≠ [])))
        fun _ known => Closed (.token (services.sha256 text)) known :=
      closing_ensures ⟨token, text, rfl, htoken, rfl⟩ (fun _ => List.mem_cons_self)
        (fun _ _ _ => only_deleted) fun _ _ hclosed => hclosed
    refine hclosed.bind fun _ known hknown filter hended => ?_
    rw [ended, htoken] at hended
    cases hended
    exact hknown

theorem logoutAll_ensures (token : Option String) :
    Ensures services (.logoutAll token) [] (logoutAll services token)
      (Concluded services (.logoutAll token)) := by
  refine (readSession_ensures token).bind fun user known hknown => ?_
  cases user with
  | none =>
    intro filter hended
    cases hended
  | some user =>
    have hmay : MayEnd services (.logoutAll token) {event | event ∈ known} (.user user.id) :=
      .inl ⟨token, user, rfl, hknown.2 user rfl, rfl⟩
    have hclosed : Ensures services (.logoutAll token) known (destroyAllSessionsForUser user.id)
        fun _ later => Closed (.user user.id) later :=
      closing_ensures hmay (fun _ => List.mem_cons_self) (fun _ _ _ => only_deleted)
        fun _ _ hclosed => hclosed
    refine hclosed.bind fun _ later hlater filter hended => ?_
    cases hended
    exact hlater

theorem revokeSession_ensures (token : Option String) (id : Id) :
    Ensures services (.revokeSession token id) [] (revokeSession services token id)
      (Concluded services (.revokeSession token id)) := by
  refine (readSession_ensures token).bind fun user known hknown => ?_
  cases user with
  | none =>
    intro filter hended
    cases hended
  | some user =>
    have hmay : MayEnd services (.revokeSession token id) {event | event ∈ known}
        (.one id user.id) :=
      ⟨token, user, rfl, hknown.2 user rfl, rfl⟩
    have hclosed : Ensures services (.revokeSession token id) known
        (revokeSessionForUser id user.id (((presented token).map services.sha256).getD ""))
        fun _ later => Closed (.one id user.id) later :=
      closing_ensures hmay (fun _ => List.mem_cons_self) (fun _ _ _ => only_deleted)
        fun _ _ hclosed => hclosed
    refine hclosed.bind fun revoked later hlater => ?_
    cases revoked with
    | none =>
      intro filter hended
      cases hended
    | some wasCurrent =>
      intro filter hended
      cases hended
      exact hlater

/-- A route for those who manage users. -/
theorem requireRole_ensures {token : Option String} {roles : List UserRole}
    {route : AdminUser → Auths AuthReply} {Q : AuthReply → History → Prop}
    (hrefused : ∀ statusCode message known, Q (.error statusCode message) known)
    (hroute : ∀ user known, ReadAs services {event | event ∈ known} token user →
      user.role ∈ roles → Ensures services call known (route user) Q) :
    Ensures services call [] (requireRole services token roles route) Q := by
  refine (readSession_ensures token).bind fun user known hknown => ?_
  cases user with
  | none => exact hrefused _ _ _
  | some user =>
    by_cases hrole : user.role ∈ roles
    · show Ensures services call known (if user.role ∈ roles then _ else _) Q
      rw [if_pos hrole]
      exact hroute user known (hknown.2 user rfl) hrole
    · show Ensures services call known (if user.role ∈ roles then _ else _) Q
      rw [if_neg hrole]
      exact hrefused _ _ _

theorem createUserRoute_ensures {token : Option String} {body : UserCreate} {user : AdminUser}
    (hmanager : Manager services {event | event ∈ history} token user) :
    Ensures services (.createUser token body) history (createUserRoute body)
      (Concluded services (.createUser token body)) := by
  refine Ensures.bind (Q := fun _ _ => True) ⟨trivial, fun id => ?_⟩ fun _ _ _ filter hended => ?_
  · refine (commit_ensures fun write hwrite => ?_).bind fun _ _ _ => trivial
    rw [List.mem_singleton.mp hwrite]
    exact .inr ⟨token, body, user, id, rfl, rfl,
      hmanager.mono fun _ hevent => List.mem_append_left _ hevent⟩
  · cases hended

/-- What `updateUser` writes for a manager, in what it has read. -/
theorem writeUser_ensures {token : Option String} {id : Id} {body : UserUpdate} {user : AdminUser}
    {old : UserRow} (hmanager : Manager services {event | event ∈ history} token user)
    (hold : ⟨.user id, some old⟩ ∈ history)
    (hself : selfRefusal old body id (some user.id) = none) :
    Ensures services (.updateUser token id body) history (writeUser id old body)
      fun _ known => body.passwordHash.isSome → Closed (.user id) known := by
  have hset : ∀ known writes, history <+: known → Warranted services (.updateUser token id body)
      {event | event ∈ known} writes (.setUser (updatedUser body old)) :=
    fun known writes hknown => ⟨token, id, body, user, old, rfl,
      hmanager.mono fun _ hevent => hknown.subset hevent, hknown.subset hold, rfl, hself⟩
  by_cases hends : body.passwordHash.isSome ∨ (old.isActive = true ∧ nextActive old body = false)
  · rw [writeUser, if_pos hends]
    refine closing_ensures (.inr ⟨token, body, user, rfl, hmanager⟩)
      (fun _ => List.mem_cons_of_mem _ List.mem_cons_self) ?_ fun _ _ hclosed _ => hclosed
    intro rows known hknown write hwrite
    rcases List.mem_cons.mp hwrite with rfl | hwrite
    · exact .inr (hset known _ hknown)
    · exact .inl (List.mem_singleton.mp hwrite)
  · rw [writeUser, if_neg hends]
    refine (commit_ensures fun write hwrite => ?_).bind fun _ _ _ hpassword =>
      absurd (.inl hpassword) hends
    rw [List.mem_singleton.mp hwrite]
    exact hset history _ List.prefix_rfl

theorem updateUser_ensures {token : Option String} {id : Id} {body : UserUpdate}
    {user : AdminUser} (hmanager : Manager services {event | event ∈ history} token user) :
    Ensures services (.updateUser token id body) history (updateUser id body (some user.id))
      fun updated known => updated.isSome → body.passwordHash.isSome → Closed (.user id) known := by
  refine ⟨trivial, fun row => ?_⟩
  cases row with
  | none => exact fun hsome => absurd hsome Bool.false_ne_true
  | some old =>
    have hmore : ∀ {known : History} {event}, event ∈ history ∨ event = ⟨.user id, some old⟩ →
        remember history (.user id) (some old) <+: known → event ∈ known := by
      rintro known event (hevent | rfl) hknown
      · exact hknown.subset (List.mem_append_left _ hevent)
      · exact hknown.subset mem_remembered
    have hwrite : ∀ known, remember history (.user id) (some old) <+: known →
        selfRefusal old body id (some user.id) = none →
        Ensures services (.updateUser token id body) known (writeUser id old body)
          fun updated known => updated.isSome → body.passwordHash.isSome →
            Closed (.user id) known := by
      intro known hknown hself
      refine (writeUser_ensures (hmanager.mono fun _ hevent => hmore (.inl hevent) hknown)
        (hmore (.inr rfl) hknown) hself).imp (fun _ _ hclosed _ => hclosed) fun _ _ herror => herror
    cases hself : selfRefusal old body id (some user.id) with
    | some message =>
      simp only [hself]
      trivial
    | none =>
      simp only [hself]
      by_cases htakes : takesOwner old body = true
      · rw [if_pos htakes]
        refine ⟨trivial, fun count => ?_⟩
        cases hlast : lastOwnerRefusal old body count with
        | some message =>
          simp only [hlast]
          trivial
        | none =>
          simp only [hlast]
          exact hwrite _ (List.prefix_append _ _) hself
      · rw [if_neg htakes]
        exact hwrite _ List.prefix_rfl hself

theorem updateUserRoute_ensures {token : Option String} {id : Id} {body : UserUpdate}
    {user : AdminUser} (hmanager : Manager services {event | event ∈ history} token user) :
    Ensures services (.updateUser token id body) history (updateUserRoute id body user)
      (Concluded services (.updateUser token id body)) := by
  refine (updateUser_ensures hmanager).bind fun updated known hknown => ?_
  cases updated with
  | none =>
    intro filter hended
    cases hended
  | some updated =>
    intro filter hended
    rw [ended] at hended
    split at hended
    · rename_i hpassword
      cases hended
      exact hknown rfl hpassword
    · cases hended

theorem deleteUser_ensures {token : Option String} {id : Id} {user : AdminUser}
    (hmanager : Manager services {event | event ∈ history} token user) :
    Ensures services (.deleteUser token id) history (deleteUser id (some user.id))
      fun removed known => removed = true → Closed (.user id) known := by
  refine ⟨trivial, fun row => ?_⟩
  cases row with
  | none => exact fun hremoved => absurd hremoved Bool.false_ne_true
  | some row =>
    by_cases hself : user.id = id
    · simp only [hself, if_true]
      trivial
    · have hremove : ∀ known : History, history <+: known →
          Ensures services (.deleteUser token id) known
            (commit [.deleteUser (uuidText id)] >>= fun _ => .ret true)
            fun removed known => removed = true → Closed (.user id) known := by
        intro known hknown
        refine (commit_ensures fun write hwrite => ?_).bind ?_
        · rw [List.mem_singleton.mp hwrite]
          exact ⟨token, id, user, rfl, rfl, hmanager.mono fun _ hevent => hknown.subset hevent,
            hself⟩
        · rintro _ _ ⟨time, rfl⟩ -
          exact .inr ⟨id, _, time, rfl, mem_remembered, List.mem_cons_self⟩
      simp only [Option.some.injEq, if_neg hself]
      by_cases howner : row.activeOwner = true
      · rw [if_pos howner]
        refine ⟨trivial, fun count => ?_⟩
        by_cases hlast : count = 0
        · simp only [hlast, if_true]
          trivial
        · simp only [hlast, if_false]
          exact hremove _ ((List.prefix_append _ _).trans (List.prefix_append _ _))
      · rw [if_neg howner]
        exact hremove _ (List.prefix_append _ _)

theorem deleteUserRoute_ensures {token : Option String} {id : Id} {user : AdminUser}
    (hmanager : Manager services {event | event ∈ history} token user) :
    Ensures services (.deleteUser token id) history (deleteUserRoute id user)
      (Concluded services (.deleteUser token id)) := by
  refine holds_attempt.mpr ((deleteUser_ensures hmanager).imp ?_ ?_)
  · intro removed known hknown
    cases removed with
    | false =>
      intro filter hended
      cases hended
    | true =>
      intro filter hended
      cases hended
      exact hknown rfl
  · intro error known _
    cases error with
    | conflict message =>
      intro filter hended
      cases hended
    | database => trivial
    | invalid message => trivial

/-- **Every request** commits what it is entitled to, and its answer says what it did. -/
theorem program_ensures (services : AuthServices) (call : AuthCall) :
    Ensures services call [] (call.program services) (Concluded services call) := by
  have hnothing : ∀ {p : Auths AuthReply}, (∀ reply, ended services call reply = none) →
      Ensures services call [] p (fun _ _ => True) →
      Ensures services call [] p (Concluded services call) := by
    intro p hnone h
    refine h.imp (fun reply _ _ filter hended => ?_) fun _ _ herror => herror
    rw [hnone reply] at hended
    cases hended
  cases call with
  | setup input => exact hnothing (fun _ => rfl) (setup_ensures input)
  | login identifier ipAddress password =>
    exact hnothing (fun _ => rfl) (login_ensures identifier ipAddress password)
  | logout token => exact logout_ensures token
  | logoutAll token => exact logoutAll_ensures token
  | revokeSession token id => exact revokeSession_ensures token id
  | access token roles =>
    exact hnothing (fun _ => rfl)
      (requireRole_ensures (fun _ _ _ => trivial) fun _ _ _ _ => trivial)
  | createUser token body =>
    refine requireRole_ensures (fun _ _ _ filter hended => ?_) fun user known hread hrole =>
      createUserRoute_ensures ⟨hread, hrole⟩
    cases hended
  | updateUser token id body =>
    refine requireRole_ensures (fun _ _ _ filter hended => ?_) fun user known hread hrole =>
      updateUserRoute_ensures ⟨hread, hrole⟩
    cases hended
  | deleteUser token id =>
    refine requireRole_ensures (fun _ _ _ filter hended => ?_) fun user known hread hrole =>
      deleteUserRoute_ensures ⟨hread, hrole⟩
    cases hended
  | deleteExpired =>
    refine ⟨trivial, fun _ filter hended => ?_⟩
    cases hended

end

/-! ### What a statement finds -/

theorem firstRow_mem {α : Type} [DecidableEq α] {choice : Option α} {rows : List α} {a : α}
    (h : firstRow choice rows = some a) : a ∈ rows := by
  rw [firstRow] at h
  split at h
  · rename_i hchoice
    rw [h] at hchoice
    obtain ⟨b, hb, hab⟩ := List.mem_map.mp hchoice
    cases hab
    exact hb
  · exact List.mem_of_head? h

theorem mem_sessionUsers {db : AuthDb} {tokenHash : String} {time : ℤ} {user : AdminUser}
    (h : user ∈ db.sessionUsers tokenHash time) :
    ∃ row ∈ db.sessions, row.tokenHash = tokenHash ∧ time < row.expiresAt
      ∧ ∃ account ∈ db.users, account.id = row.userId ∧ account.isActive = true
        ∧ mapAdmin account = user := by
  obtain ⟨row, hrow, huser⟩ := List.mem_filterMap.mp h
  obtain ⟨hmem, hcondition⟩ := List.mem_filter.mp hrow
  simp only [Bool.and_eq_true, decide_eq_true_eq] at hcondition
  obtain ⟨account, haccount, huser⟩ := Option.map_eq_some_iff.mp huser
  obtain ⟨hfind, hactive⟩ := Option.filter_eq_some_iff.mp haccount
  obtain ⟨haccount, hid⟩ := Table.find_eq_some.mp hfind
  exact ⟨row, hmem, hcondition.1, hcondition.2, account, haccount, hid, hactive, huser⟩

/-! ### Runs of the server -/

/-- Requests to the server at once, over one database. -/
abbrev Server : Type := Sessions AuthCall AuthRequest Answer AuthError AuthReply AuthDb

/-- The answer to a request, when there is one. -/
def Server.reply (server : Server) (request : ℕ) : Option AuthReply :=
  match server.running[request]? with
  | some (_, .ret reply) => some reply
  | _ => none

theorem Server.reply_eq {server : Server} {request : ℕ} {call : AuthCall} {p : Auths AuthReply}
    {reply : AuthReply} (hrunning : server.running[request]? = some (call, p))
    (h : server.reply request = some reply) : p = .ret reply := by
  rw [Server.reply, hrunning] at h
  cases p with
  | ret a =>
    cases h
    rfl
  | throw e => cases h
  | await request next => cases h

section

variable [CaseMapping] (services : AuthServices) (db : AuthDb)

/-- The server after some operations. -/
def run (ops : List (Sessions.Op AuthCall AuthRequest Answer)) : Server :=
  Runs.exec (Sessions.step (AuthCall.program services) (serve services)) ⟨db, [], []⟩ ops

variable {services db} {ops : List (Sessions.Op AuthCall AuthRequest Answer)}

theorem run_accounted : Sessions.Replayed (Allowed services) effect (serve services) db
    (run services db ops).store (run services db ops).log :=
  Sessions.exec_accounted
    (fun call => (program_ensures services call).imp (fun _ _ _ => trivial) fun _ _ _ => trivial)
    (serve_effect services) db ops

/-! ### Sessions that are read -/

/-- A login that was not locked by the failures on record, by an account that was active and whose
    password it was, with a new token. -/
def LoggedIn (services : AuthServices) (db : AuthDb) (log : Log) (issuer : AuthCall)
    (row : SessionRow) : Prop :=
  ∃ identifier ipAddress password, issuer = .login identifier ipAddress password
    ∧ (∃ before time after, (issuer, ⟨.now, time⟩) ∈ log
      ∧ log = before ++ (issuer, ⟨.loginFailures (normalizeIdentifier identifier)
        (normalizeIpAddress ipAddress) (time - windowMs),
        (dbAfter db before).loginFailures services (normalizeIdentifier identifier)
          (normalizeIpAddress ipAddress) (time - windowMs)⟩) :: after
      ∧ isLoginLockedForSnapshot ((dbAfter db before).loginFailures services
        (normalizeIdentifier identifier) (normalizeIpAddress ipAddress) (time - windowMs)) = false)
    ∧ (∃ before account after,
      log = before ++ (issuer, ⟨.activeUser (normalizeIdentifier identifier), some account⟩) :: after
      ∧ account ∈ (dbAfter db before).users
      ∧ AnswersTo services (normalizeIdentifier identifier) account = true
      ∧ services.compare password account.passwordHash = true ∧ row.userId = account.id)
    ∧ Fresh services {event | (issuer, event) ∈ log} row

/-- The session of a token is open, as one of this user: it has not expired, its account is active,
    and it was opened by a login or the setup and not taken away since. -/
def OpenSession (services : AuthServices) (db : AuthDb) (log : Log) (tokenHash : String) (time : ℤ)
    (user : AdminUser) : Prop :=
  ∃ row ∈ (dbAfter db log).sessions, row.tokenHash = tokenHash ∧ time < row.expiresAt
    ∧ (∃ account ∈ (dbAfter db log).users, account.id = row.userId ∧ account.isActive = true
      ∧ mapAdmin account = user)
    ∧ ∃ before issuer writes committed after,
      log = before ++ (issuer, ⟨.commit writes, some committed⟩) :: after
      ∧ .insertSession row ∈ writes ∧ (∀ entry ∈ after, ¬ Removes row entry.2)
      ∧ (LoggedIn services db before issuer row
        ∨ OpenedBySetup services issuer {event | (issuer, event) ∈ before} writes row)

/-- Every session that is read is open. -/
def SessionReadsAccounted (services : AuthServices) (db : AuthDb) (log : Log) : Prop :=
  ∀ before caller tokenHash time user after,
    log = before ++ (caller, ⟨.session tokenHash, (time, some user)⟩) :: after →
    OpenSession services db before tokenHash time user

omit [CaseMapping] in
theorem Fresh.mono {known later : Set (Event AuthRequest Answer)} {row : SessionRow}
    (h : Fresh services known row) (hmore : known ⊆ later) : Fresh services later row := by
  obtain ⟨token, time, htoken, htime, hrow⟩ := h
  exact ⟨token, time, hmore htoken, hmore htime, hrow⟩

/-- What a login knew when it opened a session was so. -/
theorem OpenedByLogin.loggedIn {issuer : AuthCall} {history : History} {before after : Log}
    {row : SessionRow} (h : OpenedByLogin services issuer {event | event ∈ history} row)
    (hhistory : ∀ event ∈ history, (issuer, event) ∈ before)
    (hlog : (run services db ops).log = before ++ after) :
    LoggedIn services db before issuer row := by
  obtain ⟨identifier, ipAddress, password, account, hcall, ⟨time, snapshot, htime, hfailures,
    hunlocked⟩, hfound, hpassword, huser, hfresh⟩ := h
  refine ⟨identifier, ipAddress, password, hcall, ?_, ?_,
    hfresh.mono fun event hevent => hhistory event hevent⟩
  · obtain ⟨first, rest, rfl⟩ := List.append_of_mem (hhistory _ hfailures)
    rw [List.append_assoc] at hlog
    obtain ⟨reply, hreply⟩ := (run_accounted.entries _ _ _ _ hlog).served
    have hsnapshot : snapshot = (dbAfter db first).loginFailures services
        (normalizeIdentifier identifier) (normalizeIpAddress ipAddress) (time - windowMs) := hreply
    subst hsnapshot
    exact ⟨first, time, rest, hhistory _ htime, rfl, hunlocked⟩
  · obtain ⟨first, rest, rfl⟩ := List.append_of_mem (hhistory _ hfound)
    rw [List.append_assoc] at hlog
    obtain ⟨reply, hreply⟩ := (run_accounted.entries _ _ _ _ hlog).served
    obtain ⟨hmem, hanswers⟩ := List.mem_filter.mp (firstRow_mem hreply.symm)
    exact ⟨first, account, rest, rfl, hmem, hanswers, hpassword, huser⟩

/-- **Sessions are accounted for.**  In every interleaving of requests to a server that begins
    without sessions, a request is taken to be of a user only by a session that has not expired, of
    an account that is active now.  That session was opened by a login, when the failures on record
    did not lock it, with the password that the account had, or by the setup; since its commit,
    no logout, revocation, change or deletion of the account that found it has been committed. -/
theorem session_reads_accounted (users : Table UserRow UserRow.id) (attempts : List LoginAttempt) :
    SessionReadsAccounted services ⟨users, ∅, attempts⟩
      (run services ⟨users, ∅, attempts⟩ ops).log := by
  intro before caller tokenHash time user after hlog
  obtain ⟨reply, hreply⟩ := (run_accounted.entries _ _ _ _ hlog).served
  obtain ⟨htime, hanswer⟩ : time = reply.1 ∧ some user = firstRow reply.2
      ((dbAfter ⟨users, ∅, attempts⟩ before).sessionUsers tokenHash reply.1) :=
    Prod.mk.inj hreply
  rw [← htime] at hanswer
  obtain ⟨row, hrow, htoken, htime, haccount⟩ := mem_sessionUsers (firstRow_mem hanswer.symm)
  refine ⟨row, hrow, htoken, htime, haccount, ?_⟩
  rcases mem_dbAfter hrow with ⟨hinitial, -⟩ | ⟨first, issuer, event, rest, rfl, hinserts, hrest⟩
  · exact absurd hinitial (Table.not_mem_empty row)
  · obtain ⟨writes, committed, rfl, hinsert⟩ := hinserts
    rw [List.append_assoc] at hlog
    obtain ⟨history, hallowed, hhistory⟩ := (run_accounted.entries _ _ _ _ hlog).allowed
    refine ⟨first, issuer, writes, committed, rest, rfl, hinsert, hrest, ?_⟩
    rcases hallowed _ hinsert with hlogin | hsetup
    · exact .inl (hlogin.loggedIn hhistory hlog)
    · obtain ⟨input, email, id, hcall, hcount, huser, hid, hfresh⟩ := hsetup
      exact .inr ⟨input, email, id, hcall, hhistory _ hcount, huser, hid,
        hfresh.mono fun event hevent => hhistory event hevent⟩

/-! ### Sessions that are ended -/

/-- A session that covers the filter is gone when what is found for the filter is deleted. -/
theorem mem_served_rows {before after : Log} {filter : SessionFilter} {rows : List SessionRow}
    {row : SessionRow}
    (hlog : (run services db ops).log = before ++ (call, ⟨.deleteSessions filter, rows⟩) :: after)
    (hrow : row ∈ (dbAfter db before).sessions) (hcovers : filter.covers row = true) :
    row.id ∈ rows.map SessionRow.id := by
  obtain ⟨reply, hreply⟩ := (run_accounted.entries _ _ _ _ hlog).served
  have hrows : rows = (dbAfter db before).sessions.rows.filter filter.covers := hreply
  rw [hrows]
  exact List.mem_map_of_mem (List.mem_filter.mpr ⟨hrow, hcovers⟩)

omit [CaseMapping] in
/-- When the log after some point takes a session away that may have been there, one that is there
    later was brought by it. -/
theorem inserted_since {log more : Log} {row : SessionRow}
    (h : row ∈ (dbAfter db (log ++ more)).sessions)
    (hremoved : row ∈ (dbAfter db log).sessions → ∃ entry ∈ more, Removes row entry.2) :
    ∃ entry ∈ more, Inserts row entry.2 := by
  rw [dbAfter, Sessions.replay_append] at h
  rcases mem_dbAfter h with ⟨hmem, hkept⟩ | ⟨before, issuer, event, after, rfl, hinserts, -⟩
  · obtain ⟨entry, hentry, hremoves⟩ := hremoved hmem
    exact absurd hremoves (hkept entry hentry)
  · exact ⟨(issuer, event), List.mem_append_right _ List.mem_cons_self, hinserts⟩

/-- **Ended sessions stay ended.**  A logout, the revocation of one session or of all, a change of
    the password or a deletion of the account was asked for after `ops`, and is answered by the time
    of `later`, whatever happens meanwhile and afterwards.  A session that it is about and that is
    open then has been opened since it was asked for. -/
theorem ended_sessions_stay_ended (later : List (Sessions.Op AuthCall AuthRequest Answer))
    (reply : AuthReply) (filter : SessionFilter) {row : SessionRow}
    (hreply : (run services db (ops ++ .start call :: later)).reply
      (run services db ops).running.length = some reply)
    (hended : ended services call reply = some filter)
    (hrow : row ∈ (run services db (ops ++ .start call :: later)).store.sessions)
    (hcovers : filter.covers row = true) :
    ∃ entry ∈ (run services db (ops ++ .start call :: later)).log.drop
      (run services db ops).log.length, Inserts row entry.2 := by
  have hstarted : (Sessions.step (AuthCall.program services) (serve services)
      (run services db ops) (.start call)).running[(run services db ops).running.length]?
        = some (call, call.program services) :=
    List.getElem?_concat_length
  have hfinish : run services db (ops ++ .start call :: later)
      = Runs.exec (Sessions.step (AuthCall.program services) (serve services))
        (Sessions.step (AuthCall.program services) (serve services) (run services db ops)
          (.start call)) later := by
    rw [run, Runs.exec_append, Runs.exec_cons]
    rfl
  obtain ⟨events, added, p, hlog, hrunning, hrun, hsub⟩ := Sessions.exec_session _ _ hstarted later
  rw [← hfinish] at hlog hrunning
  have hlog : (run services db (ops ++ .start call :: later)).log
      = (run services db ops).log ++ added := hlog
  obtain rfl := Server.reply_eq hrunning hreply
  have hclosed : Closed filter events := (program_ensures services call).returned hrun filter hended
  rw [hlog, List.drop_left]
  rw [run_accounted.store, hlog] at hrow
  rcases hclosed with ⟨rows, writes, time, hevents, hdeleted⟩ | ⟨id, writes, time, rfl, hcommit,
    hdeleted⟩
  · -- the sessions were found by a statement, and the commit came after it
    have hadded := (hevents.map (Prod.mk call)).trans hsub
    obtain ⟨first, rest, rfl, hfound, hrest⟩ := List.cons_sublist_iff.mp hadded
    obtain ⟨start, between, rfl⟩ := List.append_of_mem hfound
    have hsplit : (run services db ops).log
        ++ (start ++ (call, ⟨.deleteSessions filter, rows⟩) :: between ++ rest)
        = ((run services db ops).log ++ start)
          ++ (call, ⟨.deleteSessions filter, rows⟩) :: (between ++ rest) := by
      simp only [List.append_assoc, List.cons_append]
    rw [hsplit] at hlog hrow
    obtain ⟨entry, hentry, hinserts⟩ := inserted_since hrow fun hopen =>
      ⟨_, List.mem_cons_of_mem _ (List.mem_append_right _ (hrest.subset List.mem_cons_self)),
        deleted rows, hdeleted, mem_served_rows hlog hopen hcovers⟩
    refine ⟨entry, ?_, hinserts⟩
    rw [List.append_assoc, List.cons_append]
    exact List.mem_append_right _ hentry
  · -- they went with the account
    obtain ⟨start, rest, rfl⟩ :=
      List.append_of_mem (hsub.subset (List.mem_map_of_mem hcommit))
    have huser : row.userId = uuidText id := of_decide_eq_true hcovers
    rw [← List.append_assoc] at hrow
    obtain ⟨entry, hentry, hinserts⟩ := inserted_since hrow fun _ =>
      ⟨_, List.mem_cons_self, .deleteUser (uuidText id), hdeleted, huser⟩
    exact ⟨entry, List.mem_append_right _ hentry, hinserts⟩

end

section

attribute [local instance] asciiCaseMapping

def exampleServices : AuthServices where
  sha256 token :=
    if token = "token-1" then "3f08aace122ee2368432c1ca23a049bc640bafbf00fdf33a52429f38ba12dbf9"
    else if token = "token-2" then
      "0f6bffa9661cb5dd2f3f7b2929f33061f58a7ba7fdd689530b1a306f8ed8f3ec"
    else ""
  compare password passwordHash := password = "abc"
    && passwordHash = "$2a$06$If6bvum7DFjUnE9p2uDeDu0YHzrHM6tf.iqN8.yx.jNN1ILEf7h0i"
  lower text := String.ofList (text.toList.map Char.toLower)

def exampleUser : UserRow where
  id := "11111111-1111-4111-8111-111111111111"
  name := none
  username := some "ada"
  email := "ada@example.org"
  passwordHash := "$2a$06$If6bvum7DFjUnE9p2uDeDu0YHzrHM6tf.iqN8.yx.jNN1ILEf7h0i"
  role := .operator
  isActive := true

/-- The clocks and the random values of a request. -/
def exampleReply (time : ℤ) (token : String) (id : Id) : Reply AuthRequest Answer
  | .now => time
  | .token => token
  | .uuid => id
  | .countUsers => 0
  | .loginFailures _ _ _ => ⟨0, 0, 0⟩
  | .activeUser _ => none
  | .session _ => (time, none)
  | .user _ => none
  | .otherOwners _ => 0
  | .deleteSessions _ => []
  | .commit _ => some time
  | .deleteExpired => time

/-- A login, as the request of this number. -/
def exampleLogin (request : ℕ) (time : ℤ) (token : String) (id : Id) :
    List (Sessions.Op AuthCall AuthRequest Answer) :=
  .start (.login " Ada" "192.0.2.7" "abc")
    :: List.replicate 8 (.answer request (exampleReply time token id))

/-- After a logout everywhere the user logs in again: that session has been opened since. -/
theorem ended_sessions_stay_ended_again :
    ∃ entry ∈ (run exampleServices ⟨Table.empty.insert exampleUser, ∅, []⟩
        (exampleLogin 0 1000 "token-1" "33333333-3333-4333-8333-333333333333"
          ++ .start (.logoutAll (some "token-1"))
            :: (List.replicate 3 (.answer 1 (exampleReply 2000 "" ""))
              ++ exampleLogin 2 3000 "token-2" "44444444-4444-4444-8444-444444444444"))).log.drop
        (run exampleServices ⟨Table.empty.insert exampleUser, ∅, []⟩
          (exampleLogin 0 1000 "token-1" "33333333-3333-4333-8333-333333333333")).log.length,
      Inserts ⟨"44444444-4444-4444-8444-444444444444", exampleUser.id,
        "0f6bffa9661cb5dd2f3f7b2929f33061f58a7ba7fdd689530b1a306f8ed8f3ec", 604803000⟩ entry.2 :=
  ended_sessions_stay_ended _ (.ok (some (mapAdmin exampleUser)) true) (.user exampleUser.id)
    (by decide +kernel) rfl (Table.mem_rows.mp (by decide +kernel)) (by decide +kernel)

end

section

variable [CaseMapping] {services : AuthServices} {db : AuthDb} {call : AuthCall}
  {ops : List (Sessions.Op AuthCall AuthRequest Answer)}

/-! ### Writes -/

/-- Every write that is committed is warranted by what its request has seen before. -/
def WritesWarranted (services : AuthServices) (log : Log) : Prop :=
  ∀ before caller writes time after, log = before ++ (caller, ⟨.commit writes, some time⟩) :: after →
    ∀ write ∈ writes,
      Warranted services caller {event | (caller, event) ∈ before} writes write

theorem OpenedByLogin.mono {known later : Set (Event AuthRequest Answer)} {row : SessionRow}
    (h : OpenedByLogin services call known row) (hmore : known ⊆ later) :
    OpenedByLogin services call later row := by
  obtain ⟨identifier, ipAddress, password, account, hcall, ⟨time, snapshot, htime, hfailures,
    hunlocked⟩, hfound, hpassword, huser, hfresh⟩ := h
  exact ⟨identifier, ipAddress, password, account, hcall, ⟨time, snapshot, hmore htime,
    hmore hfailures, hunlocked⟩, hmore hfound, hpassword, huser, hfresh.mono hmore⟩

theorem OpenedBySetup.mono {known later : Set (Event AuthRequest Answer)} {writes : List Write}
    {row : SessionRow} (h : OpenedBySetup services call known writes row) (hmore : known ⊆ later) :
    OpenedBySetup services call later writes row := by
  obtain ⟨input, email, id, hcall, hcount, huser, hid, hfresh⟩ := h
  exact ⟨input, email, id, hcall, hmore hcount, huser, hid, hfresh.mono hmore⟩

theorem Warranted.mono {known later : Set (Event AuthRequest Answer)} {writes : List Write}
    {write : Write} (h : Warranted services call known writes write) (hmore : known ⊆ later) :
    Warranted services call later writes write := by
  cases write with
  | insertUser row =>
    rcases h with ⟨input, email, id, hcall, hrow, hcount⟩ | ⟨token, body, user, id, hcall, hrow, hm⟩
    · exact .inl ⟨input, email, id, hcall, hrow, hmore hcount⟩
    · exact .inr ⟨token, body, user, id, hcall, hrow, hm.mono hmore⟩
  | setUser row =>
    obtain ⟨token, id, body, user, old, hcall, hm, hold, hrow, hself⟩ := h
    exact ⟨token, id, body, user, old, hcall, hm.mono hmore, hmore hold, hrow, hself⟩
  | deleteUser id =>
    obtain ⟨token, id', user, hcall, hid, hm, hself⟩ := h
    exact ⟨token, id', user, hcall, hid, hm.mono hmore, hself⟩
  | insertSession row => exact h.imp (·.mono hmore) (·.mono hmore)
  | deleteSessions ids =>
    obtain ⟨filter, rows, hmay, hrows, hids⟩ := h
    exact ⟨filter, rows, hmay.mono hmore, hmore hrows, hids⟩
  | recordAttempt identifier ipAddress success => exact h

/-- The database answers with the account of the id that was asked for. -/
theorem id_of_served {before after : Log} {id : Id} {old : UserRow}
    (hlog : (run services db ops).log = before ++ (call, ⟨.user id, some old⟩) :: after) :
    old.id = uuidText id := by
  obtain ⟨reply, hreply⟩ := (run_accounted.entries _ _ _ _ hlog).served
  have hfind : some old = (dbAfter db before).users.find (uuidText id) := hreply
  exact (Table.find_eq_some.mp hfind.symm).2

/-- What `selfRefusal` says of an account that is changed by its own user. -/
theorem updatedUser_of_selfRefusal {id : Id} {body : UserUpdate} {old : UserRow}
    (h : selfRefusal old body id (some id) = none) :
    (updatedUser body old).role = old.role
      ∧ (old.isActive = true → (updatedUser body old).isActive = true) := by
  unfold selfRefusal at h
  split at h
  · cases h
  · rename_i hrole
    split at h
    · cases h
    · rename_i hactive
      simp only [true_and] at hrole hactive
      constructor
      · show nextRole old body = old.role
        cases hbody : body.role with
        | none => simp [nextRole, hbody]
        | some role =>
          have hsame : role = old.role := by
            by_contra hne
            exact hrole ⟨by simp [hbody], by simpa [hbody] using hne⟩
          simp [nextRole, hbody, hsame]
      · intro hold
        show nextActive old body = true
        cases hbody : body.isActive with
        | none => simpa [nextActive, hbody] using hold
        | some active =>
          cases active with
          | false => exact absurd hbody hactive
          | true => simp [nextActive, hbody]

/-- Requests that name an account in the spelling of the database spare the account that they were
    read as: it is not deleted, its role is not changed, and it is not disabled.  The functions
    compare texts, so the own id in upper case is refused nothing. -/
def OwnAccountSpared (services : AuthServices) (log : Log) : Prop :=
  ∀ before caller writes time after, log = before ++ (caller, ⟨.commit writes, some time⟩) :: after →
    (∀ token id, caller = .deleteUser token id → uuidText id = id →
      ∀ id', .deleteUser id' ∈ writes →
        ∃ user, Manager services {event | (caller, event) ∈ before} token user ∧ id' ≠ user.id)
    ∧ (∀ token id body, caller = .updateUser token id body → uuidText id = id →
      ∀ row, .setUser row ∈ writes →
        ∃ user old, Manager services {event | (caller, event) ∈ before} token user
          ∧ (caller, ⟨.user id, some old⟩) ∈ before ∧ row = updatedUser body old
          ∧ (row.id = user.id →
            row.role = old.role ∧ (old.isActive = true → row.isActive = true)))

/-- **Writes are warranted.**  In every interleaving of requests, accounts are created, changed and
    deleted only for somebody whose session was read as an owner's or an administrator's before, or
    by the setup that found none; the request names the own account neither for a deletion nor for
    a change of its role, as a text.  So the own account is spared by every request that spells
    the id as the database does.  Sessions are opened only as in `OpenedByLogin` and
    `OpenedBySetup`, and ended only by their token, by a request of their user, or with a change
    of the account. -/
theorem writes_warranted :
    WritesWarranted services (run services db ops).log
      ∧ OwnAccountSpared services (run services db ops).log := by
  have hwarranted : WritesWarranted services (run services db ops).log := by
    intro before caller writes time after hlog write hwrite
    obtain ⟨history, hallowed, hhistory⟩ := (run_accounted.entries _ _ _ _ hlog).allowed
    exact (hallowed write hwrite).mono fun event hevent => hhistory event hevent
  refine ⟨hwarranted, fun before caller writes time after hlog => ⟨?_, ?_⟩⟩
  · intro token id hcall hspelled id' hwrite
    obtain ⟨token', idOfPath, user, hcall', rfl, hmanager, hother⟩ :=
      hwarranted _ _ _ _ _ hlog _ hwrite
    cases hcall.symm.trans hcall'
    rw [hspelled]
    exact ⟨user, hmanager, hother.symm⟩
  · intro token id body hcall hspelled row hwrite
    obtain ⟨token', id', body', user, old, hcall', hmanager, hold, rfl, hself⟩ :=
      hwarranted _ _ _ _ _ hlog _ hwrite
    cases hcall.symm.trans hcall'
    refine ⟨user, old, hmanager, hold, rfl, fun hown => ?_⟩
    obtain ⟨start, rest, hbefore⟩ := List.append_of_mem hold
    rw [hbefore, List.append_assoc, List.cons_append] at hlog
    have howner : user.id = id := hown.symm.trans ((id_of_served hlog).trans hspelled)
    rw [howner] at hself
    exact updatedUser_of_selfRefusal hself

end

end ComposeBastion.Auth
