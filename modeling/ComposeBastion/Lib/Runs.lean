import Mathlib.Data.List.Basic
import Mathlib.Data.List.Nodup

namespace Runs

/-!
# Runs of a step function

A system whose interleavings are all nondeterminism is given by one total function
`step : σ → α → σ`: the operation `a` carries every choice the environment makes (which
party acts, with which arguments, at what time).  An interleaving is then a list of
operations, and "every reachable state" is "the end of every such list".

* `exec step s ops` — the state after the operations `ops`.
* `Meets step ok s ops` — every operation of the run meets `ok` in the state it acts on.
* `observe obs step s ops` — what an observer of each single step writes down on the way.
* `exec_invariant`, `exec_invariant_of_meets`, `observe_invariant` — the induction rules:
  what one step preserves, a whole run preserves.
* `exec_establishes` — what each operation of a run achieves, and later ones keep, holds of all
  its operations at the end.
-/

variable {σ α β : Type*} {step : σ → α → σ}

/-! ### Executing a list of operations -/

/-- The state reached from `s` by executing `ops` in order. -/
def exec (step : σ → α → σ) (s : σ) (ops : List α) : σ := ops.foldl step s

@[simp] theorem exec_nil (s : σ) : exec step s [] = s := rfl

@[simp] theorem exec_cons (s : σ) (a : α) (ops : List α) :
    exec step s (a :: ops) = exec step (step s a) ops := rfl

@[simp] theorem exec_append (s : σ) (ops ops' : List α) :
    exec step s (ops ++ ops') = exec step (exec step s ops) ops' :=
  List.foldl_append

/-- **Invariant rule.**  What every step preserves holds at the end of every run. -/
theorem exec_invariant {I : σ → Prop} (hstep : ∀ s a, I s → I (step s a)) {s : σ}
    (hs : I s) (ops : List α) : I (exec step s ops) := by
  induction ops generalizing s with
  | nil => exact hs
  | cons a ops ih => exact ih (hstep s a hs)

/-! ### Runs whose operations meet a condition -/

/-- Every operation of the run meets `ok` in the state it is executed in. -/
def Meets (step : σ → α → σ) (ok : σ → α → Prop) : σ → List α → Prop
  | _, [] => True
  | s, a :: ops => ok s a ∧ Meets step ok (step s a) ops

instance Meets.decidable {ok : σ → α → Prop} [∀ s a, Decidable (ok s a)] :
    ∀ (s : σ) (ops : List α), Decidable (Meets step ok s ops)
  | _, [] => isTrue trivial
  | s, a :: ops => @instDecidableAnd _ _ _ (Meets.decidable (step s a) ops)

/-- **Guarded invariant rule.**  A step that meets `ok` preserves `I`, so a run whose
    operations all meet `ok` does. -/
theorem exec_invariant_of_meets {I : σ → Prop} {ok : σ → α → Prop}
    (hstep : ∀ s a, ok s a → I s → I (step s a)) {s : σ} (hs : I s) {ops : List α}
    (hops : Meets step ok s ops) : I (exec step s ops) := by
  induction ops generalizing s with
  | nil => exact hs
  | cons a ops ih => exact ih (hstep s a hops.1 hs) hops.2

/-- **Achievement rule.**  In a run whose steps keep `I` and only move up in `le`, what each
    operation achieves is achieved of all of them at the end, when it is kept on the way up. -/
theorem exec_establishes {I : σ → Prop} {le : σ → σ → Prop} {done : σ → α → Prop} {ops : List α}
    (hrefl : ∀ s, le s s) (htrans : ∀ s s' s'', le s s' → le s' s'' → le s s'')
    (hkeep : ∀ s s' a, le s s' → done s a → done s' a)
    (hstep : ∀ s, ∀ a ∈ ops, I s → I (step s a) ∧ le s (step s a) ∧ done (step s a) a) {s : σ}
    (hs : I s) :
    I (exec step s ops) ∧ le s (exec step s ops) ∧ ∀ a ∈ ops, done (exec step s ops) a := by
  induction ops generalizing s with
  | nil => exact ⟨hs, hrefl s, fun a ha => absurd ha List.not_mem_nil⟩
  | cons a ops ih =>
    obtain ⟨hI, hle, hdone⟩ := hstep s a List.mem_cons_self hs
    obtain ⟨hI', hle', hdone'⟩ := ih (fun s b hb => hstep s b (List.mem_cons_of_mem a hb)) hI
    refine ⟨hI', htrans _ _ _ hle hle', fun b hb => ?_⟩
    rcases List.mem_cons.mp hb with rfl | hb
    · exact hkeep _ _ _ hle' hdone
    · exact hdone' b hb

theorem Meets.append_left {ok : σ → α → Prop} {s : σ} {ops ops' : List α}
    (h : Meets step ok s (ops ++ ops')) : Meets step ok s ops := by
  induction ops generalizing s with
  | nil => trivial
  | cons a ops ih => exact ⟨h.1, ih h.2⟩

theorem Meets.append_right {ok : σ → α → Prop} {s : σ} {ops ops' : List α}
    (h : Meets step ok s (ops ++ ops')) : Meets step ok (exec step s ops) ops' := by
  induction ops generalizing s with
  | nil => exact h
  | cons a ops ih => exact ih h.2

/-- Under an invariant of every step, a condition that implies another along a run does so at
    each of its steps. -/
theorem Meets.imp_of_invariant {I : σ → Prop} {ok ok' : σ → α → Prop}
    (hstep : ∀ s a, I s → I (step s a)) (himp : ∀ s a, I s → ok s a → ok' s a) {s : σ}
    (hs : I s) {ops : List α} (hops : Meets step ok s ops) : Meets step ok' s ops := by
  induction ops generalizing s with
  | nil => trivial
  | cons a ops ih => exact ⟨himp s a hs hops.1, ih (hstep s a hs) hops.2⟩

/-! ### Observing a run -/

/-- The concatenation of what `obs` sees of each step: the state before and after it. -/
def observe (obs : σ → α → σ → List β) (step : σ → α → σ) : σ → List α → List β
  | _, [] => []
  | s, a :: ops => obs s a (step s a) ++ observe obs step (step s a) ops

/-- **Observation rule.**  A relation between what has been observed so far and the current
    state that every step carries on holds at the end of every run. -/
theorem observe_invariant {obs : σ → α → σ → List β} {J : List β → σ → Prop}
    (hstep : ∀ seen s a, J seen s → J (seen ++ obs s a (step s a)) (step s a))
    {seen : List β} {s : σ} (hs : J seen s) (ops : List α) :
    J (seen ++ observe obs step s ops) (exec step s ops) := by
  induction ops generalizing seen s with
  | nil => simpa [observe] using hs
  | cons a ops ih =>
    rw [observe, ← List.append_assoc]
    exact ih (hstep seen s a hs)

/-! ### Append-only lists -/

/-- What is at an index of an appended list was there before, or is the new element. -/
theorem getElem?_concat_cases {α : Type*} {l : List α} {a x : α} {i : ℕ}
    (h : (l ++ [a])[i]? = some x) : l[i]? = some x ∨ (i = l.length ∧ a = x) := by
  by_cases hi : i < l.length
  · rw [List.getElem?_append_left hi] at h
    exact Or.inl h
  · have hlast : i = l.length := by
      have := (List.getElem?_eq_some_iff.mp h).1
      rw [List.length_append, List.length_singleton] at this
      omega
    rw [hlast, List.getElem?_concat_length] at h
    exact Or.inr ⟨hlast, Option.some.inj h⟩

end Runs
