import ComposeBastion.Lib.Table
import Mathlib.Data.Int.Basic

namespace DeletionClaim

/-!
# Deletion under a claim

A row whose deletion has effects outside the database is first claimed: a token is written into it,
then the effects take place, and then the row goes.  A second party may take a claim over that has
not been renewed for a while, by adding a reconciliation token to it.

* `Claim` — the keys of a claim; `Schema` — a kind of rows that can be claimed;
* `Deletion` — what a deleter remembers; `owns` — the claim of a row is the one it remembers;
* `take`, `takeOver`, `heartbeat`, `finish` — what deleters do to the table;
* `owns_of_finish` — only the owner of a claim removes its row.
-/

universe u v w

/-- The keys of a claim on a row. -/
structure Claim (τ : Type w) where
  token : Option τ
  claimedAt : Option ℤ
  reconciliationToken : Option τ
  reconciliationStartedAt : Option ℤ
  deriving DecidableEq, Repr

/-- No claim. -/
def Claim.empty {τ : Type w} : Claim τ := ⟨none, none, none, none⟩

/-- Rows that carry a claim. -/
structure Schema (ρ : Type u) (κ : Type v) (τ : Type w) where
  key : ρ → κ
  claim : ρ → Claim τ
  setClaim : Claim τ → ρ → ρ
  key_setClaim : ∀ c r, key (setClaim c r) = key r
  claim_setClaim : ∀ c r, claim (setClaim c r) = c

/-- What a deleter remembers of the claim it works under. -/
structure Deletion (κ : Type v) (τ : Type w) where
  key : κ
  token : τ
  reconciliationToken : Option τ
  deriving DecidableEq, Repr

section

variable {ρ : Type u} {κ : Type v} {τ : Type w} [DecidableEq κ] [DecidableEq τ]
variable (S : Schema ρ κ τ)

/-- The row carries the claim the deleter remembers. -/
def owns (d : Deletion κ τ) (r : ρ) : Bool :=
  decide (S.key r = d.key) && decide ((S.claim r).token = some d.token)
    && decide ((S.claim r).reconciliationToken = d.reconciliationToken)

/-- The claim of a row is set. -/
def assign (c : Claim τ → Claim τ) (r : ρ) : ρ := S.setClaim (c (S.claim r)) r

/-- A new claim on a row. -/
def take (t : Table ρ S.key) (k : κ) (token : τ) (now : ℤ) : Table ρ S.key :=
  t.update (fun r => decide (S.key r = k))
    (assign S fun c => { c with token := some token, claimedAt := some now })
    fun r => S.key_setClaim _ r

/-- A claim on a row goes on under a reconciliation token. -/
def takeOver (t : Table ρ S.key) (k : κ) (token reconciliationToken : τ) (now : ℤ) :
    Table ρ S.key :=
  t.update (fun r => decide (S.key r = k) && decide ((S.claim r).token = some token))
    (assign S fun c =>
      { c with
        claimedAt := some now
        reconciliationToken := some reconciliationToken
        reconciliationStartedAt := some now })
    fun r => S.key_setClaim _ r

/-- A deleter renews its claim. -/
def heartbeat (t : Table ρ S.key) (d : Deletion κ τ) (now : ℤ) : Table ρ S.key :=
  t.update (owns S d)
    (assign S fun c =>
      { c with
        claimedAt := some now
        reconciliationStartedAt :=
          if d.reconciliationToken.isSome then some now else c.reconciliationStartedAt })
    fun r => S.key_setClaim _ r

/-- A deleter removes the row it owns. -/
def finish (t : Table ρ S.key) (d : Deletion κ τ) : Table ρ S.key := t.delete (owns S d)

/-- A time stamp that is older than the quiescence interval. -/
def quiescent (quiescence now : ℤ) (stamp : Option ℤ) : Bool :=
  stamp.any fun at' => decide (at' ≤ now - quiescence)

/-- The claim of a row may be taken over. -/
def lapsed (quiescence now : ℤ) (r : ρ) : Bool :=
  (S.claim r).token.isSome && quiescent quiescence now (S.claim r).claimedAt
    && ((S.claim r).reconciliationToken.isNone
      || quiescent quiescence now (S.claim r).reconciliationStartedAt)

omit [DecidableEq τ] in
/-- The row that is claimed, and the others. -/
theorem find_take (t : Table ρ S.key) (k k' : κ) (token : τ) (now : ℤ) :
    (take S t k token now).find k' = (t.find k').map fun r =>
      if decide (S.key r = k) then
        assign S (fun c => { c with token := some token, claimedAt := some now }) r
      else r :=
  Table.find_update k'

omit [DecidableEq τ] in
theorem mem_take {t : Table ρ S.key} {k : κ} {token : τ} {now : ℤ} {r' : ρ} :
    r' ∈ take S t k token now ↔ ∃ r ∈ t, (if decide (S.key r = k) then
      assign S (fun c => { c with token := some token, claimedAt := some now }) r else r) = r' :=
  Table.mem_update

theorem mem_takeOver {t : Table ρ S.key} {k : κ} {token reconciliationToken : τ} {now : ℤ}
    {r' : ρ} : r' ∈ takeOver S t k token reconciliationToken now ↔
      ∃ r ∈ t, (if decide (S.key r = k) && decide ((S.claim r).token = some token) then
        assign S (fun c => { c with
          claimedAt := some now
          reconciliationToken := some reconciliationToken
          reconciliationStartedAt := some now }) r else r) = r' :=
  Table.mem_update

theorem mem_heartbeat {t : Table ρ S.key} {d : Deletion κ τ} {now : ℤ} {r' : ρ} :
    r' ∈ heartbeat S t d now ↔ ∃ r ∈ t, (if owns S d r then
      assign S (fun c => { c with
        claimedAt := some now
        reconciliationStartedAt :=
          if d.reconciliationToken.isSome then some now else c.reconciliationStartedAt }) r
      else r) = r' :=
  Table.mem_update

variable {S}

/-- **Only the owner removes a row.** -/
theorem owns_of_finish {t : Table ρ S.key} {d : Deletion κ τ} {r : ρ} (hr : r ∈ t)
    (h : (finish S t d).find (S.key r) = none) : owns S d r = true := by
  cases howns : owns S d r with
  | true => rfl
  | false => exact absurd rfl (Table.find_eq_none.mp h r (Table.mem_delete.mpr ⟨hr, howns⟩))

end

end DeletionClaim
