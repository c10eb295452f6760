import Mathlib.Data.List.Basic

namespace Transducer

/-!
# Incremental transducers

A transducer reads its input in chunks, keeps what it cannot use yet in a buffer, and looks at
the front of that buffer for the next unit: there is none yet (`more`), it is wrong (`fail`),
or it is consumed and something is put out (`emit`).  A `Machine` is such a `step` whose answer,
once given, does not depend on what follows in the buffer.

* `Outcome` — what has been put out, and the state reached or the error that ended the run;
* `Machine.drain` — take units off the buffer until there is none;
* `Machine.feed` — append each chunk to the buffer and drain;
* `Machine.feed_eq_drain` — feeding chunks is draining their concatenation, so nothing but that
  concatenation matters;
* `Machine.drain_induction` — the induction rule over the units of an input that is drained.
-/

variable {σ β γ ε : Type*}

/-- What a transducer finds at the front of its buffer. -/
inductive Step (σ β γ ε : Type*)
  | more
  | fail (error : ε)
  | emit (state : σ) (output : List γ) (rest : List β)

/-- The step with `c` behind what is left. -/
def Step.append (c : List β) : Step σ β γ ε → Step σ β γ ε
  | more => more
  | fail e => fail e
  | emit s o rest => emit s o (rest ++ c)

/-- A transducer.  A unit is not empty, and neither a unit nor an error is taken back when more
    input arrives. -/
structure Machine (σ β γ ε : Type*) where
  step : σ → List β → Step σ β γ ε
  progress : ∀ {s b s' o rest}, step s b = .emit s' o rest → rest.length < b.length
  step_append : ∀ {s b}, step s b ≠ .more → ∀ c, step s (b ++ c) = (step s b).append c

/-- A state with the input that is not used yet. -/
structure Pending (σ β : Type*) where
  state : σ
  buffer : List β

/-! ### Outcomes -/

/-- What was put out, and how the run stands. -/
structure Outcome (γ ε α : Type*) where
  output : List γ
  result : Except ε α

namespace Outcome

variable {α α' : Type*}

/-- Put `o` out first. -/
def after (o : List γ) (r : Outcome γ ε α) : Outcome γ ε α := ⟨o ++ r.output, r.result⟩

/-- Go on with `f` unless the run has ended. -/
def andThen (r : Outcome γ ε α) (f : α → Outcome γ ε α') : Outcome γ ε α' :=
  match r.result with
  | .ok a => (f a).after r.output
  | .error e => ⟨r.output, .error e⟩

@[simp] theorem after_nil (r : Outcome γ ε α) : r.after [] = r := rfl

theorem after_after (o o' : List γ) (r : Outcome γ ε α) :
    (r.after o').after o = r.after (o ++ o') := by
  simp [after]

theorem andThen_ok (o : List γ) (a : α) (f : α → Outcome γ ε α') :
    andThen ⟨o, .ok a⟩ f = (f a).after o := rfl

theorem andThen_error (o : List γ) (e : ε) (f : α → Outcome γ ε α') :
    andThen ⟨o, .error e⟩ f = ⟨o, .error e⟩ := rfl

theorem after_andThen (o : List γ) (r : Outcome γ ε α) (f : α → Outcome γ ε α') :
    (r.after o).andThen f = (r.andThen f).after o := by
  obtain ⟨output, result⟩ := r
  cases result with
  | error e => rfl
  | ok a => exact (after_after o output (f a)).symm

end Outcome

namespace Machine

variable (m : Machine σ β γ ε)

/-! ### Draining the buffer -/

/-- At most `n` units off the buffer. -/
def drainLoop : ℕ → Pending σ β → Outcome γ ε (Pending σ β)
  | 0, p => ⟨[], .ok p⟩
  | n + 1, p =>
    match m.step p.state p.buffer with
    | .more => ⟨[], .ok p⟩
    | .fail e => ⟨[], .error e⟩
    | .emit s o rest => (drainLoop n ⟨s, rest⟩).after o

/-- Every unit off the buffer.  A unit is not empty, so the buffer's length bounds them. -/
def drain (p : Pending σ β) : Outcome γ ε (Pending σ β) :=
  m.drainLoop (p.buffer.length + 1) p

/-- The buffer holds no further unit. -/
def Settled (p : Pending σ β) : Prop := m.step p.state p.buffer = .more

variable {m}

/-- More fuel than the buffer has elements changes nothing. -/
theorem drainLoop_eq_drain {n : ℕ} {p : Pending σ β} (h : p.buffer.length < n) :
    m.drainLoop n p = m.drain p := by
  induction n using Nat.strongRecOn generalizing p with
  | ind n ih =>
    obtain ⟨n, rfl⟩ : ∃ k, n = k + 1 := ⟨n - 1, by omega⟩
    rw [drain, drainLoop, drainLoop]
    cases hstep : m.step p.state p.buffer with
    | more => rfl
    | fail e => rfl
    | emit s o rest =>
      have hshorter := m.progress hstep
      -- both loops go on from the same shorter buffer
      have hleft : m.drainLoop n ⟨s, rest⟩ = m.drain ⟨s, rest⟩ :=
        ih n (by omega) (by show rest.length < n; omega)
      have hright : m.drainLoop p.buffer.length ⟨s, rest⟩ = m.drain ⟨s, rest⟩ :=
        ih p.buffer.length h hshorter
      dsimp only
      rw [hleft, hright]

theorem emit_append {s s' : σ} {b rest : List β} {o : List γ} (h : m.step s b = .emit s' o rest)
    (c : List β) : m.step s (b ++ c) = .emit s' o (rest ++ c) := by
  rw [m.step_append (by rw [h]; simp) c, h]
  rfl

theorem fail_append {s : σ} {b : List β} {e : ε} (h : m.step s b = .fail e) (c : List β) :
    m.step s (b ++ c) = .fail e := by
  rw [m.step_append (by rw [h]; simp) c, h]
  rfl

theorem drain_of_more {p : Pending σ β} (h : m.Settled p) : m.drain p = ⟨[], .ok p⟩ := by
  have hstep : m.step p.state p.buffer = .more := h
  rw [drain, drainLoop, hstep]

theorem drain_of_fail {p : Pending σ β} {e : ε} (h : m.step p.state p.buffer = .fail e) :
    m.drain p = ⟨[], .error e⟩ := by
  rw [drain, drainLoop, h]

theorem drain_of_emit {p : Pending σ β} {s : σ} {o : List γ} {rest : List β}
    (h : m.step p.state p.buffer = .emit s o rest) :
    m.drain p = (m.drain ⟨s, rest⟩).after o := by
  rw [drain, drainLoop, h]
  dsimp only
  rw [drainLoop_eq_drain (m.progress h)]

/-- **Induction over the units of an input.**  What holds of a buffer without a unit, and is
    carried from the rest of the input to the input with one unit more, holds of every run. -/
theorem drain_induction {motive : Pending σ β → Outcome γ ε (Pending σ β) → Prop}
    (settled : ∀ p, m.Settled p → motive p ⟨[], .ok p⟩)
    (failed : ∀ p e, m.step p.state p.buffer = .fail e → motive p ⟨[], .error e⟩)
    (unit : ∀ p s o rest, m.step p.state p.buffer = .emit s o rest →
      motive ⟨s, rest⟩ (m.drain ⟨s, rest⟩) → motive p ((m.drain ⟨s, rest⟩).after o))
    (p : Pending σ β) : motive p (m.drain p) := by
  obtain ⟨n, hlen⟩ : ∃ n, p.buffer.length = n := ⟨_, rfl⟩
  induction n using Nat.strongRecOn generalizing p with
  | ind n ih =>
    cases hstep : m.step p.state p.buffer with
    | more =>
      rw [drain_of_more hstep]
      exact settled p hstep
    | fail e =>
      rw [drain_of_fail hstep]
      exact failed p e hstep
    | emit s o rest =>
      rw [drain_of_emit hstep]
      exact unit p s o rest hstep (ih rest.length (hlen ▸ m.progress hstep) ⟨s, rest⟩ rfl)

/-- Nothing is left to take after draining. -/
theorem settled_of_drain (p : Pending σ β) : ∀ q, (m.drain p).result = .ok q → m.Settled q := by
  refine drain_induction (motive := fun _ r => ∀ q, r.result = .ok q → m.Settled q) ?_ ?_ ?_ p
  · intro p hp q hq
    cases hq
    exact hp
  · intro p e _ q hq
    cases hq
  · intro p s o rest _ ih q hq
    exact ih q hq

/-- **Draining in two steps.**  What follows in the buffer can be appended after draining. -/
theorem drain_append (p : Pending σ β) (c : List β) :
    m.drain ⟨p.state, p.buffer ++ c⟩
      = (m.drain p).andThen fun q => m.drain ⟨q.state, q.buffer ++ c⟩ := by
  refine drain_induction (motive := fun p r => m.drain ⟨p.state, p.buffer ++ c⟩
    = r.andThen fun q => m.drain ⟨q.state, q.buffer ++ c⟩) ?_ ?_ ?_ p
  · intro p _
    rw [Outcome.andThen_ok, Outcome.after_nil]
  · intro p e hfail
    rw [Outcome.andThen_error, drain_of_fail (fail_append hfail c)]
  · intro p s o rest hemit ih
    rw [drain_of_emit (emit_append hemit c), ih, Outcome.after_andThen]

/-! ### Feeding chunks -/

variable (m)

/-- Write each chunk in turn: append it to the buffer and drain. -/
def feed : Pending σ β → List (List β) → Outcome γ ε (Pending σ β)
  | p, [] => ⟨[], .ok p⟩
  | p, chunk :: chunks =>
    (m.drain ⟨p.state, p.buffer ++ chunk⟩).andThen fun q => feed q chunks

variable {m}

/-- **Chunks do not matter.**  Feeding chunks is draining their concatenation. -/
theorem feed_eq_drain {p : Pending σ β} (hp : m.Settled p) (chunks : List (List β)) :
    m.feed p chunks = m.drain ⟨p.state, p.buffer ++ chunks.flatten⟩ := by
  induction chunks generalizing p with
  | nil =>
    rw [feed, List.flatten_nil, List.append_nil]
    exact (drain_of_more hp).symm
  | cons chunk chunks ih =>
    rw [feed, List.flatten_cons, ← List.append_assoc,
      drain_append ⟨p.state, p.buffer ++ chunk⟩ chunks.flatten]
    cases hdrain : m.drain ⟨p.state, p.buffer ++ chunk⟩ with
    | mk output result =>
      cases result with
      | error e => rfl
      | ok q =>
        have hq : m.Settled q := settled_of_drain ⟨p.state, p.buffer ++ chunk⟩ q (by rw [hdrain])
        rw [Outcome.andThen_ok, Outcome.andThen_ok, ih hq]

end Machine

end Transducer
