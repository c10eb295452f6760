import ComposeBastion.Lib.Runs
import Mathlib.Logic.Function.Basic

namespace Serial

/-!
# Transactions that begin with a lock

A database transaction is a tree of statements (`Tx`): it reads, it buffers writes, and it ends
in a commit or a rollback.  Every transaction takes the lock of a key before its first statement
and holds it to its end, as PostgreSQL holds an advisory transaction lock or a row lock; sessions
are otherwise interleaved statement by statement.

* `Tx.apply` — the whole transaction at once;
* `State`, `Op`, `step` — sessions that wait, run and commit under the locks of their keys;
* `exec_invariant` — what every transaction preserves when it is applied at once holds in every
  committed state of every interleaving;
* `exec_preorder` — the same for what relates two committed states.
-/

universe u v w

/-- A transaction over a database of type `σ`. -/
inductive Tx (σ : Type u) : Type u
  | commit
  | rollback
  | read (next : σ → Tx σ)
  | write (f : σ → σ) (next : Tx σ)

/-- What is committed in the end, from the committed state `base` and the transaction's own view
    of it. -/
def Tx.run {σ : Type u} : Tx σ → σ → σ → σ
  | commit, _, view => view
  | rollback, base, _ => base
  | read next, base, view => (next view).run base view
  | write f next, base, view => next.run base (f view)

/-- The whole transaction at once. -/
def Tx.apply {σ : Type u} (t : Tx σ) (s : σ) : σ := t.run s s

/-- Where a session stands: `rest` is what is left of `body`, and `pending` are its writes. -/
inductive Session (κ : Type v) (σ : Type u) : Type (max u v)
  | idle
  | waiting (key : κ) (body : Tx σ)
  | running (key : κ) (body rest : Tx σ) (pending : σ → σ)

/-- The committed state of each key, who holds its lock, and the sessions. -/
structure State (κ : Type v) (σ : Type u) where
  db : κ → σ
  lock : κ → Option ℕ
  session : ℕ → Session κ σ

/-- A step of session `i`. -/
inductive Op (ρ : Type w)
  | start (i : ℕ) (request : ρ)
  | acquire (i : ℕ)
  | statement (i : ℕ)
  | disconnect (i : ℕ)

/-- The state before the first request. -/
def initial {κ : Type v} {σ : Type u} (db : κ → σ) : State κ σ :=
  ⟨db, fun _ => none, fun _ => .idle⟩

section

variable {κ : Type v} {σ : Type u} {ρ : Type w} [DecidableEq κ] (tx : ρ → κ × Tx σ)

/-- The state with session `i` and its lock given back. -/
def release (s : State κ σ) (i : ℕ) (key : κ) (committed : σ) : State κ σ where
  db := Function.update s.db key committed
  lock := Function.update s.lock key none
  session := Function.update s.session i .idle

/-- The next statement of a transaction. -/
def runStatement (s : State κ σ) (i : ℕ) (key : κ) (body : Tx σ) (pending : σ → σ) :
    Tx σ → State κ σ
  | .commit => release s i key (pending (s.db key))
  | .rollback => release s i key (s.db key)
  | .read next =>
    { s with session :=
        Function.update s.session i (.running key body (next (pending (s.db key))) pending) }
  | .write f next =>
    { s with session := Function.update s.session i (.running key body next (f ∘ pending)) }

/-- One step.  A step that is not possible changes nothing. -/
def step (s : State κ σ) : Op ρ → State κ σ
  | .start i request =>
    match s.session i with
    | .idle =>
      { s with session :=
          Function.update s.session i (.waiting (tx request).1 (tx request).2) }
    | _ => s
  | .acquire i =>
    match s.session i with
    | .waiting key body =>
      if s.lock key = none then
        { s with
          lock := Function.update s.lock key (some i)
          session := Function.update s.session i (.running key body body id) }
      else s
    | _ => s
  | .statement i =>
    match s.session i with
    | .running key body rest pending => runStatement s i key body pending rest
    | _ => s
  | .disconnect i =>
    match s.session i with
    | .running key _ _ _ => release s i key (s.db key)
    | .waiting _ _ => { s with session := Function.update s.session i .idle }
    | .idle => s

/-! ### Serialisation -/

/-- A running transaction holds the lock of its key, and what is left of it ends where the whole
    transaction does on the committed state. -/
structure Inv (s : State κ σ) : Prop where
  waiting : ∀ i key body, s.session i = .waiting key body → ∃ request, tx request = (key, body)
  running : ∀ i key body rest pending, s.session i = .running key body rest pending →
    s.lock key = some i ∧ rest.run (s.db key) (pending (s.db key)) = body.apply (s.db key)
      ∧ ∃ request, tx request = (key, body)

variable {tx}

omit [DecidableEq κ] in
theorem inv_initial (db : κ → σ) : Inv tx (initial db) := by
  refine ⟨?_, ?_⟩
  · intro i key body h
    cases h
  · intro i key body rest pending h
    cases h

omit [DecidableEq κ] in
/-- One session moves; the locks and the committed states of the other running transactions stay
    as they are. -/
theorem Inv.move {s s' : State κ σ} (h : Inv tx s) {i : ℕ} {new : Session κ σ}
    (hsession : s'.session = Function.update s.session i new)
    (hothers : ∀ j key, j ≠ i → s.lock key = some j →
      s'.lock key = some j ∧ s'.db key = s.db key)
    (hwait : ∀ key body, new = .waiting key body → ∃ request, tx request = (key, body))
    (hrun : ∀ key body rest pending, new = .running key body rest pending →
      s'.lock key = some i ∧ rest.run (s'.db key) (pending (s'.db key)) = body.apply (s'.db key)
        ∧ ∃ request, tx request = (key, body)) : Inv tx s' := by
  refine ⟨fun j key body hj => ?_, fun j key body rest pending hj => ?_⟩
  · rw [hsession] at hj
    by_cases hji : j = i
    · subst hji
      rw [Function.update_self] at hj
      exact hwait key body hj
    · rw [Function.update_of_ne hji] at hj
      exact h.waiting j key body hj
  · rw [hsession] at hj
    by_cases hji : j = i
    · subst hji
      rw [Function.update_self] at hj
      exact hrun key body rest pending hj
    · rw [Function.update_of_ne hji] at hj
      obtain ⟨hlock, hrest, hrequest⟩ := h.running j key body rest pending hj
      obtain ⟨hlock', hdb⟩ := hothers j key hji hlock
      exact ⟨hlock', by rw [hdb]; exact hrest, hrequest⟩

/-- A session that stops running gives its lock back; nobody else ran under it. -/
theorem Inv.release {s : State κ σ} (h : Inv tx s) {i : ℕ} {key : κ} {body rest : Tx σ}
    {pending : σ → σ} (hrun : s.session i = .running key body rest pending) (committed : σ) :
    Inv tx (release s i key committed) := by
  obtain ⟨hlock, _, _⟩ := h.running i key body rest pending hrun
  refine h.move rfl (fun j key' hji hlock' => ?_) (fun _ _ hnew => ?_) (fun _ _ _ _ hnew => ?_)
  · have hkey : key' ≠ key := by
      rintro rfl
      rw [hlock] at hlock'
      exact hji (Option.some.inj hlock').symm
    refine ⟨?_, ?_⟩
    · show Function.update s.lock key none key' = some j
      rw [Function.update_of_ne hkey, hlock']
    · show Function.update s.db key committed key' = s.db key'
      rw [Function.update_of_ne hkey]
  · cases hnew
  · cases hnew

omit [DecidableEq κ] in
/-- A statement that does not end the transaction goes on towards the same end. -/
theorem Inv.advance {s : State κ σ} (h : Inv tx s) {i : ℕ} {key : κ} {body rest rest' : Tx σ}
    {pending pending' : σ → σ} (hrun : s.session i = .running key body rest pending)
    (hsame : rest'.run (s.db key) (pending' (s.db key)) = rest.run (s.db key) (pending (s.db key))) :
    Inv tx { s with session := Function.update s.session i (.running key body rest' pending') } := by
  obtain ⟨hlock, hrest, hrequest⟩ := h.running i key body rest pending hrun
  refine h.move rfl (fun j key' _ hlock' => ⟨hlock', rfl⟩) (fun _ _ hnew => ?_)
    (fun _ _ _ _ hnew => ?_)
  · cases hnew
  · cases hnew
    exact ⟨hlock, hsame.trans hrest, hrequest⟩

theorem Inv.step {s : State κ σ} (h : Inv tx s) (op : Op ρ) : Inv tx (step tx s op) := by
  cases op with
  | start i request =>
    simp only [Serial.step]
    split
    · refine h.move rfl (fun j key _ hlock => ⟨hlock, rfl⟩) (fun _ _ hnew => ?_)
        (fun _ _ _ _ hnew => ?_)
      · cases hnew
        exact ⟨request, rfl⟩
      · cases hnew
    · exact h
  | acquire i =>
    simp only [Serial.step]
    split
    · rename_i key body hwait
      split
      · rename_i hfree
        refine h.move rfl (fun j key' _ hlock => ⟨?_, rfl⟩) (fun _ _ hnew => ?_)
          (fun _ _ _ _ hnew => ?_)
        · -- the lock was free, so it is another key
          have hkey : key' ≠ key := by
            rintro rfl
            rw [hfree] at hlock
            cases hlock
          show Function.update s.lock key (some i) key' = some j
          rw [Function.update_of_ne hkey, hlock]
        · cases hnew
        · cases hnew
          exact ⟨Function.update_self .., rfl, h.waiting i key body hwait⟩
      · exact h
    · exact h
  | statement i =>
    simp only [Serial.step]
    split
    · rename_i key body rest pending hrun
      cases rest with
      | commit => exact h.release hrun _
      | rollback => exact h.release hrun _
      | read next => exact h.advance hrun rfl
      | write f next => exact h.advance hrun rfl
    · exact h
  | disconnect i =>
    simp only [Serial.step]
    split
    · rename_i key body rest pending hrun
      exact h.release hrun _
    · refine h.move rfl (fun j key' _ hlock => ⟨hlock, rfl⟩) (fun _ _ hnew => ?_)
        (fun _ _ _ _ hnew => ?_)
      · cases hnew
      · cases hnew
    · exact h

/-- **What a step commits.**  A step leaves the committed state of a key alone, or it commits a
    whole transaction on it. -/
theorem Inv.step_db {s : State κ σ} (h : Inv tx s) (op : Op ρ) (key : κ) :
    (Serial.step tx s op).db key = s.db key
      ∨ ∃ request, (tx request).1 = key
        ∧ (Serial.step tx s op).db key = (tx request).2.apply (s.db key) := by
  -- a transaction that is rolled back leaves the committed state alone
  have hback : ∀ i key', (Serial.release s i key' (s.db key')).db key = s.db key := by
    intro i key'
    show Function.update s.db key' (s.db key') key = s.db key
    rw [Function.update_eq_self]
  cases op with
  | start i request =>
    refine Or.inl ?_
    simp only [Serial.step]
    split <;> rfl
  | acquire i =>
    refine Or.inl ?_
    simp only [Serial.step]
    split
    · split <;> rfl
    · rfl
  | statement i =>
    simp only [Serial.step]
    split
    · rename_i key' body rest pending hrun
      obtain ⟨_, hrest, request, hrequest⟩ := h.running i key' body rest pending hrun
      cases rest with
      | commit =>
        by_cases hkey : key = key'
        · subst hkey
          refine Or.inr ⟨request, by rw [hrequest], ?_⟩
          rw [hrequest, ← hrest]
          show Function.update s.db key (pending (s.db key)) key = _
          rw [Function.update_self]
          rfl
        · refine Or.inl ?_
          show Function.update s.db key' _ key = _
          rw [Function.update_of_ne hkey]
      | rollback => exact Or.inl (hback i key')
      | read next => exact Or.inl rfl
      | write f next => exact Or.inl rfl
    · exact Or.inl rfl
  | disconnect i =>
    refine Or.inl ?_
    simp only [Serial.step]
    split
    · rename_i key' _ _ _ _
      exact hback i key'
    · rfl
    · rfl

/-- **Serial runs suffice.**  What each transaction preserves when it is applied at once holds of
    the committed state of every key after every interleaving. -/
theorem exec_invariant {I : κ → σ → Prop}
    (hI : ∀ request s, I (tx request).1 s → I (tx request).1 ((tx request).2.apply s))
    {db : κ → σ} (hdb : ∀ key, I key (db key)) (ops : List (Op ρ)) (key : κ) :
    I key ((Runs.exec (step tx) (initial db) ops).db key) := by
  have hrun : ∀ s : State κ σ, ∀ op : Op ρ, (Inv tx s ∧ ∀ key, I key (s.db key)) →
      Inv tx (step tx s op) ∧ ∀ key, I key ((step tx s op).db key) := by
    rintro s op ⟨hinv, hall⟩
    refine ⟨hinv.step op, fun key => ?_⟩
    rcases hinv.step_db op key with hsame | ⟨request, rfl, hcommit⟩
    · rw [hsame]
      exact hall key
    · rw [hcommit]
      exact hI request _ (hall _)
  exact (Runs.exec_invariant (I := fun s => Inv tx s ∧ ∀ key, I key (s.db key)) hrun
    ⟨inv_initial db, hdb⟩ ops).2 key

/-- **Serial runs suffice, for what happens between two states.**  A preorder that each transaction
    respects when it is applied at once relates the committed states of every key at any two points
    of every interleaving. -/
theorem exec_preorder {R : κ → σ → σ → Prop} (hrefl : ∀ key s, R key s s)
    (htrans : ∀ key s s' s'', R key s s' → R key s' s'' → R key s s'')
    (hR : ∀ request s, R (tx request).1 s ((tx request).2.apply s)) (db : κ → σ)
    (ops ops' : List (Op ρ)) (key : κ) :
    R key ((Runs.exec (step tx) (initial db) ops).db key)
      ((Runs.exec (step tx) (initial db) (ops ++ ops')).db key) := by
  have hinv : Inv tx (Runs.exec (step tx) (initial db) ops) :=
    Runs.exec_invariant (fun s op h => h.step op) (inv_initial db) ops
  rw [Runs.exec_append]
  generalize Runs.exec (step tx) (initial db) ops = start at hinv
  have hrun : ∀ s : State κ σ, ∀ op : Op ρ, (Inv tx s ∧ R key (start.db key) (s.db key)) →
      Inv tx (step tx s op) ∧ R key (start.db key) ((step tx s op).db key) := by
    rintro s op ⟨hs, hbefore⟩
    refine ⟨hs.step op, ?_⟩
    rcases hs.step_db op key with hsame | ⟨request, rfl, hcommit⟩
    · rwa [hsame]
    · rw [hcommit]
      exact htrans _ _ _ _ hbefore (hR request _)
  exact (Runs.exec_invariant (I := fun s => Inv tx s ∧ R key (start.db key) (s.db key)) hrun
    ⟨hinv, hrefl key _⟩ ops').2

end

end Serial
