import ComposeBastion.Lib.Program
import ComposeBastion.Lib.Runs

/-!
# Runs of programs that await

What a program of `Program` does against an environment that answers its requests.  One program
makes a run with the answers it gets in a row.  Several programs share a store, which takes part in
the answers, and every interleaving of their requests is a run.

* `Event`, `Reaches` — a request with its answer, and what a program is after some events;
* `play`, `played` — the same against an environment that replies to any request;
* `remember` — what a program knows that forgets nothing;
* `Holds.returned`, `Holds.played` — what `Holds` says of these runs;
* `Sessions`, `Sessions.step` — programs at once, over a store;
* `Sessions.exec_invariant` — an invariant of the store and the log that every request keeps holds
  in every interleaving;
* `Sessions.exec_session` — what one program does among the others;
* `Sessions.replay`, `Sessions.exec_accounted` — the store as what the log leaves, and where the
  entries of the log come from.
-/

namespace Program

variable {ι : Type} {ρ : ι → Type} {ε α β : Type}

/-! ### Runs of one program -/

/-- A request with its answer. -/
abbrev Event (ι : Type) (ρ : ι → Type) : Type := (request : ι) × ρ request

/-- With these events the program becomes `rest`. -/
def Reaches : Program ι ρ ε α → List (Event ι ρ) → Program ι ρ ε α → Prop
  | p, [], rest => p = rest
  | await request next, event :: events, rest =>
    ∃ answer, event = ⟨request, answer⟩ ∧ (next answer).Reaches events rest
  | ret _, _ :: _, _ => False
  | throw _, _ :: _, _ => False

theorem reaches_nil (p : Program ι ρ ε α) : p.Reaches [] p := by
  cases p <;> rfl

theorem Reaches.append {p middle rest : Program ι ρ ε α} {events more : List (Event ι ρ)}
    (h : p.Reaches events middle) (hmore : middle.Reaches more rest) :
    p.Reaches (events ++ more) rest := by
  induction events generalizing p with
  | nil =>
    have hmiddle : p = middle := by cases p <;> exact h
    exact hmiddle ▸ hmore
  | cons event events ih =>
    cases p with
    | ret a => exact h.elim
    | throw e => exact h.elim
    | await request next =>
      obtain ⟨answer, rfl, hrest⟩ := h
      exact ⟨answer, rfl, ih hrest⟩

/-- What an environment replies to the request that comes next, whichever it is. -/
abbrev Reply (ι : Type) (ρ : ι → Type) : Type := (request : ι) → ρ request

/-- The events of a program against an environment. -/
def play : Program ι ρ ε α → List (Reply ι ρ) → List (Event ι ρ)
  | await request next, reply :: replies =>
    ⟨request, reply request⟩ :: (next (reply request)).play replies
  | await _ _, [] => []
  | ret _, _ => []
  | throw _, _ => []

/-- What the program becomes. -/
def played : Program ι ρ ε α → List (Reply ι ρ) → Program ι ρ ε α
  | await request next, reply :: replies => (next (reply request)).played replies
  | await request next, [] => await request next
  | ret a, _ => ret a
  | throw e, _ => throw e

theorem reaches_played (p : Program ι ρ ε α) (replies : List (Reply ι ρ)) :
    p.Reaches (p.play replies) (p.played replies) := by
  induction p generalizing replies with
  | ret a => rfl
  | throw e => rfl
  | await request next ih =>
    cases replies with
    | nil => rfl
    | cons reply replies => exact ⟨reply request, rfl, ih (reply request) replies⟩

/-- What is known by a program that forgets nothing. -/
def remember (history : List (Event ι ρ)) (request : ι) (answer : ρ request) :
    List (Event ι ρ) :=
  history ++ [⟨request, answer⟩]

section

variable {pre : List (Event ι ρ) → ι → Prop} {Q : α → List (Event ι ρ) → Prop}
  {E : ε → List (Event ι ρ) → Prop}

/-- What holds of a program holds of what it becomes. -/
theorem Holds.reaches {p rest : Program ι ρ ε α} {history events : List (Event ι ρ)}
    (h : p.Holds pre remember Q E history) (hrun : p.Reaches events rest) :
    rest.Holds pre remember Q E (history ++ events) := by
  induction events generalizing p history with
  | nil =>
    rw [List.append_nil]
    cases p <;> exact hrun ▸ h
  | cons event events ih =>
    cases p with
    | ret a => exact hrun.elim
    | throw e => exact hrun.elim
    | await request next =>
      obtain ⟨answer, rfl, hrest⟩ := hrun
      have hnext := ih (h.2 answer) hrest
      rwa [remember, List.append_assoc] at hnext

/-- **Results.**  A value is returned in what the run has taught. -/
theorem Holds.returned {p : Program ι ρ ε α} {history events : List (Event ι ρ)} {a : α}
    (h : p.Holds pre remember Q E history) (hrun : p.Reaches events (ret a)) :
    Q a (history ++ events) :=
  h.reaches hrun

/-- **Runs in knowledge.**  What a program knows at its end is what it knew before, and the events
    of a run of it. -/
theorem Holds.played {p : Program ι ρ ε α} {history : List (Event ι ρ)}
    (h : p.Holds pre remember Q E history) :
    p.Holds pre remember
      (fun a known => Q a known ∧ ∃ events, known = history ++ events ∧ p.Reaches events (ret a))
      (fun e known => E e known ∧ ∃ events, known = history ++ events ∧ p.Reaches events (throw e))
      history := by
  induction p generalizing history with
  | ret a => exact ⟨h, [], (List.append_nil _).symm, rfl⟩
  | throw e => exact ⟨h, [], (List.append_nil _).symm, rfl⟩
  | await request next ih =>
    refine ⟨h.1, fun answer => ?_⟩
    apply (ih answer (h.2 answer)).imp
    · rintro a known ⟨hQ, events, rfl, hrun⟩
      exact ⟨hQ, ⟨request, answer⟩ :: events, by rw [remember, List.append_assoc]; rfl, answer,
        rfl, hrun⟩
    · rintro e known ⟨hE, events, rfl, hrun⟩
      exact ⟨hE, ⟨request, answer⟩ :: events, by rw [remember, List.append_assoc]; rfl, answer,
        rfl, hrun⟩

/-- A program that issues requests of a kind only may be run wherever these are allowed. -/
theorem Issues.remembered {ok : ι → Prop} {p : Program ι ρ ε α} (h : p.Issues ok)
    {history : List (Event ι ρ)}
    (hpre : ∀ known request, history <+: known → ok request → pre known request) :
    p.Holds pre remember (fun _ known => history <+: known) (fun _ known => history <+: known)
      history := by
  induction p generalizing history with
  | ret a => exact List.prefix_rfl
  | throw e => exact List.prefix_rfl
  | await request next ih =>
    obtain ⟨hok, hnext⟩ := issues_await.mp h
    refine ⟨hpre _ _ List.prefix_rfl hok, fun answer => ?_⟩
    have hmore : history <+: remember history request answer := List.prefix_append _ _
    apply (ih answer (hnext answer) fun known request' hknown =>
      hpre known request' (hmore.trans hknown)).imp
    · exact fun _ _ hknown => hmore.trans hknown
    · exact fun _ _ hknown => hmore.trans hknown

/-- Requests that meet a condition meet a weaker one. -/
theorem Holds.weaken {pre' : List (Event ι ρ) → ι → Prop} {p : Program ι ρ ε α}
    {history : List (Event ι ρ)} (h : p.Holds pre remember Q E history)
    (hpre : ∀ known request, pre known request → pre' known request) :
    p.Holds pre' remember Q E history := by
  induction p generalizing history with
  | ret a => exact h
  | throw e => exact h
  | await request next ih =>
    exact ⟨hpre _ _ h.1, fun answer => ih answer (h.2 answer)⟩

theorem holds_ofExcept {x : Except ε α} {history : List (Event ι ρ)}
    (hok : ∀ a, x = .ok a → Q a history) (herror : ∀ e, x = .error e → E e history) :
    (ofExcept x : Program ι ρ ε α).Holds pre remember Q E history := by
  cases x with
  | ok a => exact hok a rfl
  | error e => exact herror e rfl

/-- What holds of a program on its own holds of it after anything else. -/
theorem Holds.after {p : Program ι ρ ε α} {start events : List (Event ι ρ)}
    (h : p.Holds (fun known => pre (start ++ known)) remember (fun a known => Q a (start ++ known))
      (fun e known => E e (start ++ known)) events) :
    p.Holds pre remember Q E (start ++ events) := by
  induction p generalizing events with
  | ret a => exact h
  | throw e => exact h
  | await request next ih =>
    refine ⟨h.1, fun answer => ?_⟩
    have hnext := ih answer (h.2 answer)
    rwa [remember, ← List.append_assoc] at hnext

/-- The events of a program are of the kind of its requests. -/
theorem Issues.events {ok : ι → Prop} {p rest : Program ι ρ ε α} {events : List (Event ι ρ)}
    (h : p.Issues ok) (hrun : p.Reaches events rest) : ∀ event ∈ events, ok event.1 := by
  induction events generalizing p with
  | nil => exact fun event hevent => absurd hevent List.not_mem_nil
  | cons first events ih =>
    cases p with
    | ret a => exact hrun.elim
    | throw e => exact hrun.elim
    | await request next =>
      obtain ⟨hok, hnext⟩ := issues_await.mp h
      obtain ⟨answer, rfl, hrest⟩ := hrun
      intro event hevent
      rcases List.mem_cons.mp hevent with rfl | hevent
      · exact hok
      · exact ih (hnext answer) hrest event hevent

end

/-! ### Programs at once -/

/-- Programs at once: a store that they share, what is left of each program with the caller that
    started it, and all events in the order in which they happened. -/
structure Sessions (π ι : Type) (ρ : ι → Type) (ε α ω : Type) where
  store : ω
  running : List (π × Program ι ρ ε α)
  log : List (π × Event ι ρ)

/-- What happens next: a caller starts its program, or a program gets its answer. -/
inductive Sessions.Op (π ι : Type) (ρ : ι → Type)
  | start (caller : π)
  | answer (session : ℕ) (reply : Reply ι ρ)

namespace Sessions

variable {π ω : Type} (program : π → Program ι ρ ε α)
  (serve : ω → (request : ι) → ρ request → ρ request × ω)

/-- The store turns the reply of the environment into the answer, and may change. -/
def step (s : Sessions π ι ρ ε α ω) : Op π ι ρ → Sessions π ι ρ ε α ω
  | .start caller => { s with running := s.running ++ [(caller, program caller)] }
  | .answer session reply =>
    match s.running[session]? with
    | some (caller, .await request next) =>
      { store := (serve s.store request (reply request)).2
        running := s.running.set session (caller, next (serve s.store request (reply request)).1)
        log := s.log ++ [(caller, ⟨request, (serve s.store request (reply request)).1⟩)] }
    | _ => s

/-- What each program knows has happened, and what is left of it meets `pre`. -/
structure Inv (pre : π → List (Event ι ρ) → ι → Prop)
    (shared : ω → List (π × Event ι ρ) → Prop) (s : Sessions π ι ρ ε α ω) : Prop where
  shared : shared s.store s.log
  session : ∀ caller p, (caller, p) ∈ s.running → ∃ history,
    p.Holds (pre caller) remember (fun _ _ => True) (fun _ _ => True) history
    ∧ ∀ event ∈ history, (caller, event) ∈ s.log

variable {program serve} {pre : π → List (Event ι ρ) → ι → Prop}
  {shared : ω → List (π × Event ι ρ) → Prop}

theorem Inv.step
    (hprogram : ∀ caller, (program caller).Holds (pre caller) remember (fun _ _ => True)
      (fun _ _ => True) [])
    (hserve : ∀ caller history request store log reply, shared store log →
      (∀ event ∈ history, (caller, event) ∈ log) → pre caller history request →
      shared (serve store request reply).2
        (log ++ [(caller, ⟨request, (serve store request reply).1⟩)]))
    {s : Sessions π ι ρ ε α ω} (h : Inv pre shared s) (op : Op π ι ρ) :
    Inv pre shared (step program serve s op) := by
  cases op with
  | start caller =>
    refine ⟨h.shared, fun caller' p hmem => ?_⟩
    rcases List.mem_append.mp hmem with hmem | hmem
    · exact h.session caller' p hmem
    · cases List.mem_singleton.mp hmem
      exact ⟨[], hprogram caller, fun event hevent => absurd hevent List.not_mem_nil⟩
  | answer session reply =>
    cases hrunning : s.running[session]? with
    | none =>
      simp only [Sessions.step, hrunning]
      exact h
    | some entry =>
      obtain ⟨caller, p⟩ := entry
      cases p with
      | ret a =>
        simp only [Sessions.step, hrunning]
        exact h
      | throw e =>
        simp only [Sessions.step, hrunning]
        exact h
      | await request next =>
        simp only [Sessions.step, hrunning]
        obtain ⟨history, hholds, hhistory⟩ :=
          h.session caller _ (List.mem_of_getElem? hrunning)
        refine ⟨hserve caller history request s.store s.log _ h.shared hhistory hholds.1, ?_⟩
        intro caller' p hmem
        rcases List.mem_or_eq_of_mem_set hmem with hmem | heq
        · obtain ⟨history', hholds', hhistory'⟩ := h.session caller' p hmem
          exact ⟨history', hholds', fun event hevent =>
            List.mem_append_left _ (hhistory' event hevent)⟩
        · cases heq
          refine ⟨_, hholds.2 _, fun event hevent => ?_⟩
          rcases List.mem_append.mp hevent with hevent | hevent
          · exact List.mem_append_left _ (hhistory event hevent)
          · rw [List.mem_singleton.mp hevent]
            exact List.mem_append_right _ List.mem_cons_self

/-- **Invariant rule.**  What every request keeps, that a program may issue in what it knows, holds
    in every interleaving of any programs. -/
theorem exec_invariant
    (hprogram : ∀ caller, (program caller).Holds (pre caller) remember (fun _ _ => True)
      (fun _ _ => True) [])
    (hserve : ∀ caller history request store log reply, shared store log →
      (∀ event ∈ history, (caller, event) ∈ log) → pre caller history request →
      shared (serve store request reply).2
        (log ++ [(caller, ⟨request, (serve store request reply).1⟩)]))
    {store : ω} (hinit : shared store []) (ops : List (Op π ι ρ)) :
    shared (Runs.exec (step program serve) ⟨store, [], []⟩ ops).store
      (Runs.exec (step program serve) ⟨store, [], []⟩ ops).log := by
  have hstart : Inv pre shared (⟨store, [], []⟩ : Sessions π ι ρ ε α ω) :=
    ⟨hinit, fun caller p hmem => absurd hmem List.not_mem_nil⟩
  exact (Runs.exec_invariant (fun s op h => h.step hprogram hserve op) hstart ops).shared

/-! ### One program among others -/

section

variable (program serve)

/-- An operation moves a program on by what it adds to the log for it, if anything. -/
theorem step_session {s : Sessions π ι ρ ε α ω} {session : ℕ} {caller : π} {p : Program ι ρ ε α}
    (h : s.running[session]? = some (caller, p)) (op : Op π ι ρ) :
    ∃ events added p', (step program serve s op).log = s.log ++ added
      ∧ (step program serve s op).running[session]? = some (caller, p')
      ∧ p.Reaches events p' ∧ (events.map (Prod.mk caller)).Sublist added := by
  have hlength : session < s.running.length := (List.getElem?_eq_some_iff.mp h).1
  -- an operation on something else
  have hother : ∀ s' : Sessions π ι ρ ε α ω, ∀ added, s'.log = s.log ++ added →
      s'.running[session]? = some (caller, p) → ∃ events added p', s'.log = s.log ++ added
        ∧ s'.running[session]? = some (caller, p') ∧ p.Reaches events p'
        ∧ (events.map (Prod.mk caller)).Sublist added :=
    fun s' added hlog hrunning => ⟨[], added, p, hlog, hrunning, reaches_nil p, List.nil_sublist _⟩
  cases op with
  | start other =>
    apply hother (step program serve s (.start other)) [] (List.append_nil _).symm
    show (s.running ++ [(other, program other)])[session]? = some (caller, p)
    rw [List.getElem?_append_left hlength, h]
  | answer other reply =>
    cases hrunning : s.running[other]? with
    | none =>
      simp only [Sessions.step, hrunning]
      exact hother s [] (List.append_nil _).symm h
    | some entry =>
      obtain ⟨caller', q⟩ := entry
      cases q with
      | ret a =>
        simp only [Sessions.step, hrunning]
        exact hother s [] (List.append_nil _).symm h
      | throw e =>
        simp only [Sessions.step, hrunning]
        exact hother s [] (List.append_nil _).symm h
      | await request next =>
        by_cases heq : other = session
        · subst heq
          rw [h] at hrunning
          cases hrunning
          simp only [Sessions.step, h]
          refine ⟨[⟨request, (serve s.store request (reply request)).1⟩], _, _, rfl,
            List.getElem?_set_self hlength, ⟨_, rfl, reaches_nil _⟩, List.Sublist.refl _⟩
        · apply hother (step program serve s (.answer other reply))
            [(caller', ⟨request, (serve s.store request (reply request)).1⟩)]
          · simp only [Sessions.step, hrunning]
          · simp only [Sessions.step, hrunning]
            rw [List.getElem?_set_ne heq, h]

/-- **One program.**  Whatever the others do, a program makes a run of its own, whose events are in
    what is added to the log, in their order. -/
theorem exec_session {s : Sessions π ι ρ ε α ω} {session : ℕ} {caller : π} {p : Program ι ρ ε α}
    (h : s.running[session]? = some (caller, p)) (ops : List (Op π ι ρ)) :
    ∃ events added p', (Runs.exec (step program serve) s ops).log = s.log ++ added
      ∧ (Runs.exec (step program serve) s ops).running[session]? = some (caller, p')
      ∧ p.Reaches events p' ∧ (events.map (Prod.mk caller)).Sublist added := by
  induction ops generalizing s p with
  | nil => exact ⟨[], [], p, (List.append_nil _).symm, h, reaches_nil p, List.nil_sublist _⟩
  | cons op ops ih =>
    obtain ⟨events, added, p', hlog, hrunning, hrun, hsub⟩ := step_session program serve h op
    obtain ⟨events', added', p'', hlog', hrunning', hrun', hsub'⟩ := ih hrunning
    refine ⟨events ++ events', added ++ added', p'', ?_, hrunning', hrun.append hrun', ?_⟩
    · rw [Runs.exec_cons, hlog', hlog, List.append_assoc]
    · rw [List.map_append]
      exact hsub.append hsub'

end

/-! ### The store as what the log leaves -/

section

variable {effect : ω → Event ι ρ → ω}

/-- The store that events leave. -/
def replay (effect : ω → Event ι ρ → ω) (store : ω) (log : List (π × Event ι ρ)) : ω :=
  log.foldl (fun store entry => effect store entry.2) store

@[simp] theorem replay_nil (store : ω) : replay (π := π) effect store [] = store := rfl

@[simp] theorem replay_cons (store : ω) (entry : π × Event ι ρ) (log : List (π × Event ι ρ)) :
    replay effect store (entry :: log) = replay effect (effect store entry.2) log := rfl

@[simp] theorem replay_append (store : ω) (log more : List (π × Event ι ρ)) :
    replay effect store (log ++ more) = replay effect (replay effect store log) more :=
  List.foldl_append

/-- An entry of the log: its program was allowed to issue the request by what it knew, which is
    logged before, and the answer is of the store that the log before it leaves. -/
structure Accounted (pre : π → List (Event ι ρ) → ι → Prop) (effect : ω → Event ι ρ → ω)
    (serve : ω → (request : ι) → ρ request → ρ request × ω) (store : ω)
    (before : List (π × Event ι ρ)) (caller : π) (event : Event ι ρ) : Prop where
  allowed : ∃ history, pre caller history event.1 ∧ ∀ known ∈ history, (caller, known) ∈ before
  served : ∃ reply, event.2 = (serve (replay effect store before) event.1 reply).1

/-- The store is what the log leaves, and the entries of the log are accounted for. -/
structure Replayed (pre : π → List (Event ι ρ) → ι → Prop) (effect : ω → Event ι ρ → ω)
    (serve : ω → (request : ι) → ρ request → ρ request × ω) (start current : ω)
    (log : List (π × Event ι ρ)) : Prop where
  store : current = replay effect start log
  entries : ∀ before caller event after, log = before ++ (caller, event) :: after →
    Accounted pre effect serve start before caller event

theorem Replayed.answer
    (heffect : ∀ store request reply, (serve store request reply).2
      = effect store ⟨request, (serve store request reply).1⟩)
    {store current : ω} {log : List (π × Event ι ρ)}
    (h : Replayed pre effect serve store current log)
    {caller : π} {history : List (Event ι ρ)} {request : ι}
    (hhistory : ∀ event ∈ history, (caller, event) ∈ log) (hpre : pre caller history request)
    (reply : ρ request) :
    Replayed pre effect serve store (serve current request reply).2
      (log ++ [(caller, ⟨request, (serve current request reply).1⟩)]) := by
  obtain ⟨rfl, hlog⟩ := h
  refine ⟨?_, fun before caller' event after heq => ?_⟩
  · rw [replay_append, heffect]
    rfl
  · -- the entry is the new one, or one that was there
    rcases List.eq_nil_or_concat after with rfl | ⟨after, last, rfl⟩
    · obtain ⟨rfl, hlast⟩ := List.append_inj' heq rfl
      cases hlast
      exact ⟨⟨history, hpre, hhistory⟩, reply, rfl⟩
    · rw [List.concat_eq_append, ← List.cons_append, ← List.append_assoc] at heq
      exact hlog before caller' event after (List.append_inj' heq rfl).1

/-- **Account of a run.**  When every request has the effect that its answer shows, the store is
    what the log leaves, and every entry of the log is accounted for. -/
theorem exec_accounted
    (hprogram : ∀ caller, (program caller).Holds (pre caller) remember (fun _ _ => True)
      (fun _ _ => True) [])
    (heffect : ∀ store request reply, (serve store request reply).2
      = effect store ⟨request, (serve store request reply).1⟩)
    (store : ω) (ops : List (Op π ι ρ)) :
    Replayed pre effect serve store (Runs.exec (step program serve) ⟨store, [], []⟩ ops).store
      (Runs.exec (step program serve) ⟨store, [], []⟩ ops).log := by
  have hinit : Replayed pre effect serve store store [] := by
    refine ⟨rfl, fun before caller event after heq => ?_⟩
    cases before <;> cases heq
  exact exec_invariant hprogram
    (fun _ _ _ _ _ reply h hhistory hpre => h.answer heffect hhistory hpre reply) hinit ops

end

end Sessions

end Program
