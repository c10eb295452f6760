import Mathlib.Data.List.Basic

namespace RowLocks

/-!
# Row locks

The row locks that transactions hold until they end.  A row may be held by any number of
transactions in the shared mode, or by one transaction in the exclusive mode; a request that
conflicts with another holder waits, that is, it is not granted.

* `Locks` — the locks held, with the proof that no two of them conflict.
* `Locks.acquire` — grants a request that conflicts with no other holder.
* `Locks.release` — the end of a transaction, with all its locks.
* `Locks.exclusive_alone` — who holds a row exclusively is its only holder.
-/

/-- The strength of a lock. -/
inductive Mode where
  | shared
  | exclusive
deriving DecidableEq, Repr

/-- A lock: the transaction that holds it, the row, and how strongly. -/
structure Hold (τ κ : Type*) where
  holder : τ
  row : κ
  mode : Mode

variable {τ κ : Type*}

/-- Two locks are compatible: they are on different rows, of one transaction, or both shared. -/
def Hold.Compatible (a b : Hold τ κ) : Prop :=
  a.row = b.row → a.holder = b.holder ∨ (a.mode = .shared ∧ b.mode = .shared)

instance [DecidableEq τ] [DecidableEq κ] (a b : Hold τ κ) : Decidable (a.Compatible b) :=
  inferInstanceAs (Decidable (_ → _))

theorem Hold.Compatible.symm {a b : Hold τ κ} (h : a.Compatible b) : b.Compatible a := by
  intro hrow
  rcases h hrow.symm with hholder | ⟨ha, hb⟩
  · exact Or.inl hholder.symm
  · exact Or.inr ⟨hb, ha⟩

theorem Hold.Compatible.refl (a : Hold τ κ) : a.Compatible a := fun _ => Or.inl rfl

/-- The locks held at one moment. -/
structure Locks (τ κ : Type*) where
  holds : List (Hold τ κ)
  compatible : ∀ a ∈ holds, ∀ b ∈ holds, a.Compatible b

namespace Locks

/-- Nobody holds anything. -/
def none : Locks τ κ := ⟨[], by simp⟩

/-- The transaction holds the row in this mode. -/
def Held (locks : Locks τ κ) (who : τ) (row : κ) (mode : Mode) : Prop :=
  (⟨who, row, mode⟩ : Hold τ κ) ∈ locks.holds

/-- **Exclusion.** Who holds a row exclusively is its only holder. -/
theorem exclusive_alone {locks : Locks τ κ} {who other : τ} {row : κ} {mode : Mode}
    (h : locks.Held who row .exclusive) (hother : locks.Held other row mode) : who = other := by
  rcases locks.compatible _ h _ hother rfl with hholder | ⟨hmode, -⟩
  · exact hholder
  · cases hmode

variable [DecidableEq τ] [DecidableEq κ]

/-- The request is granted, unless it conflicts with a lock that somebody holds. -/
def acquire (locks : Locks τ κ) (who : τ) (row : κ) (mode : Mode) : Option (Locks τ κ) :=
  if h : ∀ a ∈ locks.holds, a.Compatible ⟨who, row, mode⟩ then
    some ⟨⟨who, row, mode⟩ :: locks.holds, by
      intro a ha b hb
      rcases List.mem_cons.mp ha with rfl | ha
      · rcases List.mem_cons.mp hb with rfl | hb
        · exact .refl _
        · exact (h b hb).symm
      · rcases List.mem_cons.mp hb with rfl | hb
        · exact h a ha
        · exact locks.compatible a ha b hb⟩
  else
    .none

/-- The transaction has ended. -/
def release (locks : Locks τ κ) (who : τ) : Locks τ κ where
  holds := locks.holds.filter (·.holder ≠ who)
  compatible a ha b hb := locks.compatible a (List.mem_of_mem_filter ha) b
    (List.mem_of_mem_filter hb)

variable {locks locks' : Locks τ κ} {who other : τ} {row row' : κ} {mode mode' : Mode}

/-- A granted request adds exactly the lock asked for. -/
theorem held_acquire (h : locks.acquire who row mode = some locks') :
    locks'.Held other row' mode' ↔
      (other = who ∧ row' = row ∧ mode' = mode) ∨ locks.Held other row' mode' := by
  unfold acquire at h
  split at h
  · obtain rfl := Option.some.inj h
    simp [Held]
  · cases h

omit [DecidableEq κ] in
/-- The end of a transaction takes its locks, and no others. -/
theorem held_release :
    (locks.release who).Held other row mode ↔ locks.Held other row mode ∧ other ≠ who := by
  simp [Held, release]

end Locks

end RowLocks
