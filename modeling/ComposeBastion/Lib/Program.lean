import Mathlib.Logic.Basic

/-!
# Programs that await

An asynchronous procedure seen from outside: it issues a request, waits, and goes on with the
answer.  What happens between a request and its answer is the environment's business, so a program
is the tree of its requests, with one branch for each answer.  It ends by returning a value or by
throwing.

* `Program ι ρ ε α` — requests `i : ι`, answered by `ρ i`; throws `ε`, returns `α`;
* `bind`, `attempt`, `tryCatch`, `settled` — sequencing and the ways to meet an exception;
* `Holds pre next p Q E` — every request of `p` meets `pre` in what is known when it is issued,
  whatever the answers are: `next` says what an answer adds to what is known;
* one rule for each way of building programs, and `Holds.imp`, the rule of consequence.

What is known (`κ`) must be about the program's own requests and answers: the environment changes
everything else between two of them.
-/

/-- A program: the tree of its requests. -/
inductive Program (ι : Type) (ρ : ι → Type) (ε α : Type)
  | ret (a : α)
  | throw (e : ε)
  | await (request : ι) (next : ρ request → Program ι ρ ε α)

namespace Program

variable {ι : Type} {ρ : ι → Type} {ε ε' α β κ : Type}

/-! ### Building programs -/

/-- `p`, and then `f` of what it returned. -/
def bind : Program ι ρ ε α → (α → Program ι ρ ε β) → Program ι ρ ε β
  | ret a, f => f a
  | throw e, _ => throw e
  | await request next, f => await request fun answer => (next answer).bind f

/-- `p`, and then `f` of what it returned or `handler` of what it threw: the handler does not see
    what `f` throws. -/
def attempt : Program ι ρ ε α → (ε → Program ι ρ ε' β) → (α → Program ι ρ ε' β) →
    Program ι ρ ε' β
  | ret a, _, f => f a
  | throw e, handler, _ => handler e
  | await request next, handler, f => await request fun answer => (next answer).attempt handler f

/-- `try p catch e => handler e`. -/
def tryCatch (p : Program ι ρ ε α) (handler : ε → Program ι ρ ε' α) : Program ι ρ ε' α :=
  p.attempt handler ret

/-- `p` with its outcome as a value. -/
def settled (p : Program ι ρ ε α) : Program ι ρ ε' (Except ε α) :=
  p.attempt (fun e => ret (.error e)) fun a => ret (.ok a)

/-- A settled outcome, taken up again. -/
def ofExcept : Except ε α → Program ι ρ ε α
  | .ok a => ret a
  | .error e => throw e

instance : Monad (Program ι ρ ε) where
  pure := ret
  bind := bind

/-! ### What every run of a program does -/

section Holds

variable (pre : κ → ι → Prop) (next : κ → (request : ι) → ρ request → κ)

/-- Every request is issued in a state of knowledge that meets `pre`, a value is returned in one
    that meets `Q` and an exception thrown in one that meets `E`. -/
def Holds : Program ι ρ ε α → (α → κ → Prop) → (ε → κ → Prop) → κ → Prop
  | ret a, Q, _, k => Q a k
  | throw e, _, E, k => E e k
  | await request cont, Q, E, k =>
    pre k request ∧ ∀ answer, (cont answer).Holds Q E (next k request answer)

variable {pre next}

@[simp] theorem holds_ret {a : α} {Q : α → κ → Prop} {E : ε → κ → Prop} {k : κ} :
    (ret a : Program ι ρ ε α).Holds pre next Q E k ↔ Q a k := Iff.rfl

@[simp] theorem holds_throw {e : ε} {Q : α → κ → Prop} {E : ε → κ → Prop} {k : κ} :
    (throw e : Program ι ρ ε α).Holds pre next Q E k ↔ E e k := Iff.rfl

theorem holds_await {request : ι} {cont : ρ request → Program ι ρ ε α} {Q : α → κ → Prop}
    {E : ε → κ → Prop} {k : κ} :
    (await request cont).Holds pre next Q E k ↔
      pre k request ∧ ∀ answer, (cont answer).Holds pre next Q E (next k request answer) := Iff.rfl

/-- **Consequence.** -/
theorem Holds.imp {p : Program ι ρ ε α} {Q Q' : α → κ → Prop} {E E' : ε → κ → Prop} {k : κ}
    (h : p.Holds pre next Q E k) (hQ : ∀ a k, Q a k → Q' a k) (hE : ∀ e k, E e k → E' e k) :
    p.Holds pre next Q' E' k := by
  induction p generalizing k with
  | ret a => exact hQ a k h
  | throw e => exact hE e k h
  | await request cont ih => exact ⟨h.1, fun answer => ih answer (h.2 answer)⟩

/-- **Sequencing with a handler.** -/
theorem holds_attempt {p : Program ι ρ ε α} {handler : ε → Program ι ρ ε' β}
    {f : α → Program ι ρ ε' β} {Q : β → κ → Prop} {E : ε' → κ → Prop} {k : κ} :
    (p.attempt handler f).Holds pre next Q E k ↔
      p.Holds pre next (fun a k => (f a).Holds pre next Q E k)
        (fun e k => (handler e).Holds pre next Q E k) k := by
  induction p generalizing k with
  | ret a => exact Iff.rfl
  | throw e => exact Iff.rfl
  | await request cont ih =>
    show _ ∧ _ ↔ _ ∧ _
    exact and_congr_right fun _ => forall_congr' fun answer => ih answer

/-- **Sequencing.** -/
theorem holds_bind {p : Program ι ρ ε α} {f : α → Program ι ρ ε β} {Q : β → κ → Prop}
    {E : ε → κ → Prop} {k : κ} :
    (p.bind f).Holds pre next Q E k ↔
      p.Holds pre next (fun a k => (f a).Holds pre next Q E k) E k := by
  induction p generalizing k with
  | ret a => exact Iff.rfl
  | throw e => exact Iff.rfl
  | await request cont ih =>
    show _ ∧ _ ↔ _ ∧ _
    exact and_congr_right fun _ => forall_congr' fun answer => ih answer

/-- Sequencing, in `do` notation. -/
theorem holds_do {p : Program ι ρ ε α} {f : α → Program ι ρ ε β} {Q : β → κ → Prop}
    {E : ε → κ → Prop} {k : κ} :
    (p >>= f).Holds pre next Q E k ↔
      p.Holds pre next (fun a k => (f a).Holds pre next Q E k) E k :=
  holds_bind

theorem holds_pure {a : α} {Q : α → κ → Prop} {E : ε → κ → Prop} {k : κ} :
    (pure a : Program ι ρ ε α).Holds pre next Q E k ↔ Q a k := Iff.rfl

/-- **Catching.** -/
theorem holds_tryCatch {p : Program ι ρ ε α} {handler : ε → Program ι ρ ε' α} {Q : α → κ → Prop}
    {E : ε' → κ → Prop} {k : κ} :
    (p.tryCatch handler).Holds pre next Q E k ↔
      p.Holds pre next Q (fun e k => (handler e).Holds pre next Q E k) k :=
  holds_attempt

/-- **Settling.** -/
theorem holds_settled {p : Program ι ρ ε α} {Q : Except ε α → κ → Prop} {E : ε' → κ → Prop} {k : κ} :
    (p.settled : Program ι ρ ε' (Except ε α)).Holds pre next Q E k ↔
      p.Holds pre next (fun a => Q (.ok a)) (fun e => Q (.error e)) k :=
  holds_attempt

end Holds

/-! ### Programs that issue only requests of a kind -/

/-- Every request of the program meets `ok`. -/
def Issues (ok : ι → Prop) (p : Program ι ρ ε α) : Prop :=
  p.Holds (fun (_ : Unit) => ok) (fun _ _ _ => ()) (fun _ _ => True) (fun _ _ => True) ()

theorem issues_await {ok : ι → Prop} {request : ι} {cont : ρ request → Program ι ρ ε α} :
    (await request cont).Issues ok ↔ ok request ∧ ∀ answer, (cont answer).Issues ok := Iff.rfl

theorem issues_attempt {ok : ι → Prop} {p : Program ι ρ ε α} {handler : ε → Program ι ρ ε' β}
    {f : α → Program ι ρ ε' β} (hp : p.Issues ok) (hhandler : ∀ e, (handler e).Issues ok)
    (hf : ∀ a, (f a).Issues ok) : (p.attempt handler f).Issues ok :=
  holds_attempt.mpr (hp.imp (fun a _ _ => hf a) fun e _ _ => hhandler e)

theorem issues_bind {ok : ι → Prop} {p : Program ι ρ ε α} {f : α → Program ι ρ ε β}
    (hp : p.Issues ok) (hf : ∀ a, (f a).Issues ok) : (p >>= f).Issues ok :=
  holds_do.mpr (hp.imp (fun a _ _ => hf a) fun _ _ _ => trivial)

/-- **Neutral programs.**  Requests that ask for nothing and teach nothing leave what is known as
    it is. -/
theorem Issues.holds {ok : ι → Prop} {pre : κ → ι → Prop}
    {next : κ → (request : ι) → ρ request → κ} {p : Program ι ρ ε α} (h : p.Issues ok) {k : κ}
    (hpre : ∀ request, ok request → pre k request)
    (hnext : ∀ request answer, ok request → next k request answer = k) :
    p.Holds pre next (fun _ k' => k' = k) (fun _ k' => k' = k) k := by
  induction p with
  | ret a => rfl
  | throw e => rfl
  | await request cont ih =>
    obtain ⟨hok, hcont⟩ := issues_await.mp h
    refine ⟨hpre request hok, fun answer => ?_⟩
    rw [hnext request answer hok]
    exact ih answer (hcont answer)

end Program
