import ComposeBastion.Jobs.Model
import ComposeBastion.Lib.Serial

namespace ComposeBastion

open Serial

/-!
# User management

`services/users.ts`: `createUser`, `updateUser` and `deleteUser` are transactions that take
`OWNER_INVARIANT_LOCK_KEY` before anything else, and the latter two count the other active
owners before they take an owner away.

* `UserDb` — `admin_users`, and the users of `sessions`;
* `createUser`, `updateUser`, `deleteUser` — the transactions, statement by statement;
* `last_active_owner` — under every interleaving of their statements an active owner is left.
-/

/-! ### The tables -/

/-- `admin_users.role`. -/
inductive UserRole
  | owner | admin | operator | viewer
  deriving DecidableEq, Repr

/-- A row of `admin_users`. -/
structure UserRow where
  id : Id
  name : Option String
  username : Option String
  email : String
  passwordHash : String
  role : UserRole
  isActive : Bool
  deriving DecidableEq, Repr

/-- `role = 'owner' AND is_active = true`. -/
def UserRow.activeOwner (row : UserRow) : Bool := row.role = .owner && row.isActive

/-- `admin_users`, and `user_id` of each row of `sessions`. -/
structure UserDb where
  users : Table UserRow UserRow.id
  sessions : List Id

/-- `SELECT count(*) FROM admin_users WHERE role = 'owner' AND is_active = true AND id <> $1`. -/
def countActiveOwners (db : UserDb) (excludeUserId : Id) : ℕ :=
  (db.users.rows.filter fun row => row.activeOwner && row.id != uuidText excludeUserId).length

/-- `DELETE FROM sessions WHERE user_id = $1`. -/
def deleteSessions (id : Id) (db : UserDb) : UserDb :=
  { db with sessions := db.sessions.filter (· ≠ uuidText id) }

/-! ### Requests -/

/-- A body `userCreateSchema` accepts, with the hash of its password: an owner is not created. -/
structure UserCreate where
  name : Option String
  username : Option String
  email : String
  passwordHash : String
  role : { role : UserRole // role ≠ .owner }

/-- A body `userUpdateSchema` accepts, with the hash of its password. -/
structure UserUpdate where
  name : Option (Option String)
  username : Option (Option String)
  role : Option UserRole
  isActive : Option Bool
  passwordHash : Option String

section

variable [Js.CaseMapping]

/-- The row `createUser` inserts. -/
def createdUser (id : Id) (body : UserCreate) : UserRow where
  id := id
  name := body.name
  username := body.username.map Js.toLowerCase
  email := Js.toLowerCase body.email
  passwordHash := body.passwordHash
  role := body.role.1
  isActive := true

/-- `body.role ?? row.role`. -/
def nextRole (row : UserRow) (body : UserUpdate) : UserRole := body.role.getD row.role

/-- `body.isActive ?? row.is_active`. -/
def nextActive (row : UserRow) (body : UserUpdate) : Bool := body.isActive.getD row.isActive

/-- The assignments of `updateUser`. -/
def updatedUser (body : UserUpdate) (row : UserRow) : UserRow where
  id := row.id
  name := body.name.getD row.name
  username := match body.username with
    | none => row.username
    | some username => username.map Js.toLowerCase
  email := row.email
  passwordHash := body.passwordHash.getD row.passwordHash
  role := nextRole row body
  isActive := nextActive row body

/-- The refusal of a change to one's own account. -/
def selfRefusal (row : UserRow) (body : UserUpdate) (id : Id) (actorId : Option Id) :
    Option String :=
  if actorId = some id ∧ body.role.isSome ∧ body.role ≠ some row.role then
    some "You cannot change your own role"
  else if actorId = some id ∧ body.isActive = some false then
    some "You cannot disable your own account"
  else none

/-- Whether the update takes an active owner away. -/
def takesOwner (row : UserRow) (body : UserUpdate) : Bool :=
  row.activeOwner && !(nextRole row body = .owner && nextActive row body)

/-- The refusal of taking the last active owner away. -/
def lastOwnerRefusal (row : UserRow) (body : UserUpdate) (otherOwners : ℕ) : Option String :=
  if otherOwners = 0 then
    if nextRole row body ≠ .owner then some "Cannot demote the last active owner"
    else some "Cannot disable the last active owner"
  else none

/-! ### The transactions -/

/-- `createUser`; `accepted` says whether the database takes the row and the callback returns. -/
def createUser (id : Id) (body : UserCreate) (accepted : Bool) : Tx UserDb :=
  .write (fun db => { db with users := db.users.insert (createdUser id body) })
    (if accepted then .commit else .rollback)

theorem updatedUser_id (body : UserUpdate) (row : UserRow) : (updatedUser body row).id = row.id :=
  rfl

/-- `UPDATE admin_users … WHERE id = $1`. -/
def updateUserRow (id : Id) (body : UserUpdate) (db : UserDb) : UserDb :=
  ⟨db.users.update (fun r => r.id = uuidText id) (updatedUser body)
    (updatedUser_id body), db.sessions⟩

/-- The last statements of `updateUser`. -/
def writeUser (id : Id) (row : UserRow) (body : UserUpdate) (accepted : Bool) : Tx UserDb :=
  let finish : Tx UserDb := if accepted then .commit else .rollback
  .write (updateUserRow id body)
    (if body.passwordHash.isSome ∨ (row.isActive = true ∧ nextActive row body = false) then
      .write (deleteSessions id) finish
    else finish)

/-- `updateUser`. -/
def updateUser (id : Id) (body : UserUpdate) (actorId : Option Id) (accepted : Bool) : Tx UserDb :=
  .read fun db => match db.users.find (uuidText id) with
    | none => .commit
    | some row =>
      if (selfRefusal row body id actorId).isSome then .rollback
      else if takesOwner row body then
        .read fun db =>
          if (lastOwnerRefusal row body (countActiveOwners db id)).isSome then .rollback
          else writeUser id row body accepted
      else writeUser id row body accepted

/-- The last statements of `deleteUser`; the sessions of the user go with the row. -/
def removeUser (id : Id) (accepted : Bool) : Tx UserDb :=
  .write (fun db => deleteSessions id { db with users := db.users.delete fun r => r.id = uuidText id })
    (if accepted then .commit else .rollback)

/-- `deleteUser`. -/
def deleteUser (id : Id) (actorId : Option Id) (accepted : Bool) : Tx UserDb :=
  .read fun db => match db.users.find (uuidText id) with
    | none => .commit
    | some row =>
      -- "You cannot delete your own account"
      if actorId = some id then .rollback
      else if row.activeOwner then
        .read fun db =>
          -- "Cannot delete the last active owner account"
          if countActiveOwners db id = 0 then .rollback else removeUser id accepted
      else removeUser id accepted

/-- A user-management request. -/
inductive UserRequest
  | create (id : Id) (body : UserCreate) (accepted : Bool)
  | update (id : Id) (body : UserUpdate) (actorId : Option Id) (accepted : Bool)
  | delete (id : Id) (actorId : Option Id) (accepted : Bool)

/-- The transaction of a request, under the one lock. -/
def UserRequest.tx : UserRequest → Unit × Tx UserDb
  | create id body accepted => ((), createUser id body accepted)
  | update id body actorId accepted => ((), updateUser id body actorId accepted)
  | delete id actorId accepted => ((), deleteUser id actorId accepted)

/-! ### The owner invariant -/

omit [Js.CaseMapping]

/-- Some user is an active owner. -/
def HasActiveOwner (db : UserDb) : Prop := ∃ row ∈ db.users, row.activeOwner = true

instance (db : UserDb) : Decidable (HasActiveOwner db) :=
  inferInstanceAs (Decidable (∃ row ∈ db.users.rows, row.activeOwner = true))

/-- A positive count is an active owner under another id. -/
theorem exists_other_owner {db : UserDb} {id : Id} (h : countActiveOwners db id ≠ 0) :
    ∃ row ∈ db.users, row.activeOwner = true ∧ row.id ≠ uuidText id := by
  have hpos : 0 < countActiveOwners db id := Nat.pos_of_ne_zero h
  rw [countActiveOwners] at hpos
  obtain ⟨row, hrow⟩ := List.exists_mem_of_length_pos hpos
  obtain ⟨hmem, hpred⟩ := List.mem_filter.mp hrow
  rw [Bool.and_eq_true, bne_iff_ne] at hpred
  exact ⟨row, hmem, hpred.1, hpred.2⟩

variable [Js.CaseMapping]

omit [Js.CaseMapping] in
/-- Both ends of a transaction are accounted for: what it wrote, or what was there. -/
theorem run_finish (accepted : Bool) (base view : UserDb) :
    (if accepted then Tx.commit else Tx.rollback : Tx UserDb).run base view = view
      ∨ (if accepted then Tx.commit else Tx.rollback : Tx UserDb).run base view = base := by
  cases accepted
  · exact Or.inr rfl
  · exact Or.inl rfl

theorem mem_updateUserRow {id : Id} {body : UserUpdate} {db : UserDb} {row : UserRow} :
    row ∈ (updateUserRow id body db).users
      ↔ ∃ r ∈ db.users, (if r.id = uuidText id then updatedUser body r else r) = row := by
  refine Iff.trans (@Table.mem_update _ _ _ _ _ _ (updatedUser_id body) _) ?_
  simp only [decide_eq_true_eq]

/-- An update leaves an active owner when one stands under another id, or when the user does not
    stop being one. -/
theorem HasActiveOwner.writeUser {db : UserDb} (h : HasActiveOwner db) {id : Id} {row : UserRow}
    (hrow : db.users.find (uuidText id) = some row) {body : UserUpdate} (accepted : Bool)
    (hkeep : takesOwner row body = false
      ∨ ∃ r ∈ db.users, r.activeOwner = true ∧ r.id ≠ uuidText id) :
    HasActiveOwner ((writeUser id row body accepted).run db db) := by
  obtain ⟨hmem, hid⟩ := Table.find_eq_some.mp hrow
  have hupdated : HasActiveOwner (updateUserRow id body db) := by
    -- an owner under another id is not touched
    have hother : ∀ r ∈ db.users, r.activeOwner = true → r.id ≠ uuidText id →
        HasActiveOwner (updateUserRow id body db) := by
      intro r hr howner hne
      refine ⟨r, mem_updateUserRow.mpr ⟨r, hr, ?_⟩, howner⟩
      rw [if_neg hne]
    rcases hkeep with hkept | ⟨r, hr, howner, hne⟩
    · obtain ⟨r, hr, howner⟩ := h
      by_cases hsame : r.id = uuidText id
      · -- the user is the owner, and stays one
        have hrow' : r = row := Table.eq_of_key_eq hr hmem (hsame.trans hid.symm)
        subst hrow'
        refine ⟨updatedUser body r, mem_updateUserRow.mpr ⟨r, hr, ?_⟩, ?_⟩
        · rw [if_pos hsame]
        · simp only [takesOwner, howner, Bool.true_and, Bool.not_eq_false'] at hkept
          exact hkept
      · exact hother r hr howner hsame
    · exact hother r hr howner hne
  rw [ComposeBastion.writeUser]
  dsimp only [Tx.run]
  split
  · rcases run_finish accepted db (deleteSessions id (updateUserRow id body db)) with hrun | hrun
    · rw [Tx.run, hrun]
      exact hupdated
    · rw [Tx.run, hrun]
      exact h
  · rcases run_finish accepted db (updateUserRow id body db) with hrun | hrun
    · rw [hrun]
      exact hupdated
    · rw [hrun]
      exact h

omit [Js.CaseMapping] in
theorem HasActiveOwner.removeUser {db : UserDb} (h : HasActiveOwner db) {id : Id} (accepted : Bool)
    (hkeep : ∃ r ∈ db.users, r.activeOwner = true ∧ r.id ≠ uuidText id) :
    HasActiveOwner ((removeUser id accepted).run db db) := by
  rw [ComposeBastion.removeUser, Tx.run]
  rcases run_finish accepted db (deleteSessions id
      { db with users := db.users.delete fun r => r.id = uuidText id }) with hrun | hrun
  · rw [hrun]
    obtain ⟨r, hr, howner, hne⟩ := hkeep
    exact ⟨r, Table.mem_delete.mpr ⟨hr, by simpa using hne⟩, howner⟩
  · rw [hrun]
    exact h

/-- **Each transaction on its own** leaves an active owner. -/
theorem HasActiveOwner.apply {db : UserDb} (h : HasActiveOwner db) (request : UserRequest) :
    HasActiveOwner (request.tx.2.apply db) := by
  cases request with
  | create id body accepted =>
    show HasActiveOwner ((createUser id body accepted).run db db)
    rw [createUser, Tx.run]
    rcases run_finish accepted db { db with users := db.users.insert (createdUser id body) }
      with hrun | hrun
    · rw [hrun]
      obtain ⟨r, hr, howner⟩ := h
      exact ⟨r, Table.mem_insert_of_mem hr, howner⟩
    · rw [hrun]
      exact h
  | update id body actorId accepted =>
    show HasActiveOwner ((updateUser id body actorId accepted).run db db)
    rw [updateUser, Tx.run]
    split
    · exact h
    · rename_i row hrow
      split
      · exact h
      · split
        · rename_i htakes
          rw [Tx.run]
          split
          · exact h
          · rename_i hlast
            have hcount : countActiveOwners db id ≠ 0 := by
              intro hzero
              rw [hzero, lastOwnerRefusal, if_pos rfl] at hlast
              split at hlast <;> exact hlast rfl
            exact h.writeUser hrow accepted (Or.inr (exists_other_owner hcount))
        · rename_i htakes
          exact h.writeUser hrow accepted (Or.inl (by simpa using htakes))
  | delete id actorId accepted =>
    show HasActiveOwner ((deleteUser id actorId accepted).run db db)
    rw [deleteUser, Tx.run]
    split
    · exact h
    · rename_i row hrow
      split
      · exact h
      · split
        · rw [Tx.run]
          split
          · exact h
          · rename_i hcount
            exact h.removeUser accepted (exists_other_owner hcount)
        · rename_i hnot
          -- the user is no active owner, so one stands under another id
          obtain ⟨r, hr, howner⟩ := h
          refine HasActiveOwner.removeUser ⟨r, hr, howner⟩ accepted ⟨r, hr, howner, ?_⟩
          intro hsame
          obtain ⟨hmem, hid⟩ := Table.find_eq_some.mp hrow
          have hrow' : r = row := Table.eq_of_key_eq hr hmem (hsame.trans hid.symm)
          exact hnot (hrow' ▸ howner)

/-- **Last active owner.**  In every interleaving of the statements of any number of
    user-management transactions, with commits, rollbacks and lost connections anywhere, the
    committed users have an active owner if they had one in the beginning. -/
theorem last_active_owner (db : UserDb) (h : HasActiveOwner db) (ops : List (Op UserRequest)) :
    HasActiveOwner ((Runs.exec (Serial.step UserRequest.tx) (Serial.initial fun _ => db) ops).db
      ()) :=
  Serial.exec_invariant (I := fun _ => HasActiveOwner) (fun request _ hdb => hdb.apply request)
    (fun _ => h) ops ()

end

section

attribute [local instance] Js.asciiCaseMapping

/-- Two owners. -/
def twoOwners : UserDb where
  users := (Table.empty.insert
    ⟨"11111111-1111-4111-8111-111111111111", none, none, "a@example.org", "", .owner, true⟩).insert
    ⟨"22222222-2222-4222-8222-222222222222", none, none, "b@example.org", "", .owner, true⟩
  sessions := []

/-- A demotion. -/
def demotion : UserUpdate := ⟨none, none, some .admin, none, none⟩

/-- Each of two owners demotes the other: their statements are interleaved, and the second waits
    for the lock until the first has committed. -/
def mutualDemotion : List (Op UserRequest) :=
  [.start 0 (.update "11111111-1111-4111-8111-111111111111" demotion
      (some "22222222-2222-4222-8222-222222222222") true),
    .start 1 (.update "22222222-2222-4222-8222-222222222222" demotion
      (some "11111111-1111-4111-8111-111111111111") true),
    .acquire 0, .acquire 1, .statement 0, .statement 1, .statement 0, .statement 0, .statement 0,
    .acquire 1, .statement 1, .statement 1, .statement 1]

theorem mutualDemotion_leaves_owner :
    HasActiveOwner twoOwners ∧ HasActiveOwner
      ((Runs.exec (Serial.step UserRequest.tx) (Serial.initial fun _ => twoOwners)
        mutualDemotion).db ()) :=
  ⟨by decide +kernel, last_active_owner twoOwners (by decide +kernel) mutualDemotion⟩

end

end ComposeBastion
