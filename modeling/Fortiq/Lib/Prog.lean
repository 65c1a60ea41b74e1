/-
Programs over atomic actions on a shared state: a program returns, fails, or performs one action
and goes on with its result. `run` executes a program alone, `trace` lists the actions it performs
with the states they start from, and a `Pool` interleaves any number of programs action by action.
What one action preserves carries over to whole runs and to every interleaving, and running
programs one after the other is one of the interleavings.
-/
import Mathlib.Logic.Relation
import Mathlib.Tactic

/-- A program over the actions `A`, each with its type of results, failing with `ε`. -/
inductive Prog (A : Type) (Ret : A → Type) (ε α : Type) where
  | ret (a : α)
  | fail (e : ε)
  | act (a : A) (k : Ret a → Prog A Ret ε α)

namespace Prog

variable {A : Type} {Ret : A → Type} {ε α β σ : Type}

def bind : Prog A Ret ε α → (α → Prog A Ret ε β) → Prog A Ret ε β
  | ret a, f => f a
  | fail e, _ => fail e
  | act a k, f => act a fun r => bind (k r) f

instance : Monad (Prog A Ret ε) where
  pure := ret
  bind := bind

/-- A pure result, failing where it is an error; also what is left of a program that has run. -/
def ofExcept : Except ε α → Prog A Ret ε α
  | .ok a => ret a
  | .error e => fail e

/-- An absent value fails. -/
def ofOption (e : ε) : Option α → Prog A Ret ε α
  | some a => ret a
  | none => fail e

@[simp] theorem ret_bind (a : α) (f : α → Prog A Ret ε β) : (ret a : Prog A Ret ε α) >>= f = f a := rfl

@[simp] theorem pure_eq (a : α) : (pure a : Prog A Ret ε α) = ret a := rfl

@[simp] theorem fail_bind (e : ε) (f : α → Prog A Ret ε β) : (fail e : Prog A Ret ε α) >>= f = fail e := rfl

@[simp] theorem act_bind (a : A) (k : Ret a → Prog A Ret ε α) (f : α → Prog A Ret ε β) :
    act a k >>= f = act a fun r => k r >>= f := rfl

@[simp] theorem ofExcept_ok (a : α) : (ofExcept (.ok a) : Prog A Ret ε α) = ret a := rfl

@[simp] theorem ofExcept_error (e : ε) : (ofExcept (.error e) : Prog A Ret ε α) = fail e := rfl

@[simp] theorem ofOption_some (e : ε) (a : α) : (ofOption e (some a) : Prog A Ret ε α) = ret a := rfl

@[simp] theorem ofOption_none (e : ε) : (ofOption e none : Prog A Ret ε α) = fail e := rfl

/-- The program with its error as a result: `match call { Ok .. Err .. }`. -/
def attempt {ε' : Type} : Prog A Ret ε α → Prog A Ret ε' (Except ε α)
  | ret a => ret (.ok a)
  | fail e => ret (.error e)
  | act a k => act a fun r => attempt (k r)

/-- Every action the program can come to is in `P`. -/
def Every (P : A → Prop) : Prog A Ret ε α → Prop
  | ret _ => True
  | fail _ => True
  | act a k => P a ∧ ∀ r, Every P (k r)

theorem every_ofExcept {P : A → Prop} (r : Except ε α) : Every P (ofExcept r : Prog A Ret ε α) := by cases r <;> trivial

theorem every_ofOption {P : A → Prop} (e : ε) (o : Option α) : Every P (ofOption e o : Prog A Ret ε α) := by
  cases o <;> trivial

theorem Every.bind {P : A → Prop} {f : α → Prog A Ret ε β} (hf : ∀ a, Every P (f a)) :
    ∀ {p : Prog A Ret ε α}, Every P p → Every P (p >>= f)
  | ret a, _ => hf a
  | fail _, _ => trivial
  | act _ _, h => ⟨h.1, fun r => Every.bind hf (h.2 r)⟩

theorem Every.attempt {ε' : Type} {P : A → Prop} :
    ∀ {p : Prog A Ret ε α}, Every P p → Every P (attempt p : Prog A Ret ε' (Except ε α))
  | ret _, _ => trivial
  | fail _, _ => trivial
  | act _ _, h => ⟨h.1, fun r => Every.attempt (h.2 r)⟩

/-! ## Running one program -/

section Run

variable (sem : (a : A) → σ → Ret a × σ)

/-- The result of a program run alone, and the state it leaves. -/
def run : Prog A Ret ε α → σ → Except ε α × σ
  | ret a, s => (.ok a, s)
  | fail e, s => (.error e, s)
  | act a k, s => run (k (sem a s).1) (sem a s).2

/-- The actions a run performs, each with the state it starts from. -/
def trace : Prog A Ret ε α → σ → List (A × σ)
  | ret _, _ => []
  | fail _, _ => []
  | act a k, s => (a, s) :: trace (k (sem a s).1) (sem a s).2

@[simp] theorem run_ret (a : α) (s : σ) : (ret a : Prog A Ret ε α).run sem s = (.ok a, s) := rfl

@[simp] theorem run_fail (e : ε) (s : σ) : (fail e : Prog A Ret ε α).run sem s = (.error e, s) := rfl

@[simp] theorem run_act (a : A) (k : Ret a → Prog A Ret ε α) (s : σ) :
    (act a k).run sem s = (k (sem a s).1).run sem (sem a s).2 := rfl

@[simp] theorem run_ofExcept (r : Except ε α) (s : σ) : (ofExcept r : Prog A Ret ε α).run sem s = (r, s) := by
  cases r <;> rfl

/-- What follows a run: a program on its result, nothing on its error. -/
def andThen (f : α → Prog A Ret ε β) : Except ε α × σ → Except ε β × σ
  | (.ok a, s) => (f a).run sem s
  | (.error e, s) => (.error e, s)

@[simp] theorem andThen_ok (f : α → Prog A Ret ε β) (a : α) (s : σ) : andThen sem f (.ok a, s) = (f a).run sem s := rfl

@[simp] theorem andThen_error (f : α → Prog A Ret ε β) (e : ε) (s : σ) : andThen sem f (.error e, s) = (.error e, s) := rfl

theorem run_bind (f : α → Prog A Ret ε β) : ∀ (p : Prog A Ret ε α) (s : σ),
    (p >>= f).run sem s = andThen sem f (p.run sem s)
  | ret _, _ => rfl
  | fail _, _ => rfl
  | act a k, s => run_bind f (k (sem a s).1) (sem a s).2

variable {sem} in
theorem run_bind_ok {f : α → Prog A Ret ε β} {p : Prog A Ret ε α} {s s'' : σ} {b : β}
    (h : (p >>= f).run sem s = (.ok b, s'')) : ∃ a s', p.run sem s = (.ok a, s') ∧ (f a).run sem s' = (.ok b, s'') := by
  rw [run_bind] at h
  cases hp : p.run sem s with
  | mk r s' =>
    rw [hp] at h
    cases r with
    | error e => cases h
    | ok a => exact ⟨a, s', rfl, h⟩

/-- Mapping the result does not change the state. -/
theorem run_bind_ret (f : α → β) (p : Prog A Ret ε α) (s : σ) :
    ((p >>= fun a => ret (f a)).run sem s).2 = (p.run sem s).2 := by
  rw [run_bind]
  rcases p.run sem s with ⟨_ | a, s'⟩ <;> rfl

@[simp] theorem run_attempt {ε' : Type} : ∀ (p : Prog A Ret ε α) (s : σ),
    (attempt p : Prog A Ret ε' (Except ε α)).run sem s = (.ok (p.run sem s).1, (p.run sem s).2)
  | ret _, _ => rfl
  | fail _, _ => rfl
  | act a k, s => run_attempt (k (sem a s).1) (sem a s).2

/-- A program that cannot fail has a value. -/
def value (p : Prog A Ret Empty α) (s : σ) : α × σ :=
  match p.run sem s with
  | (.ok a, s') => (a, s')

theorem value_snd (p : Prog A Ret Empty α) (s : σ) : (p.value sem s).2 = (p.run sem s).2 := by
  rw [value]
  rcases p.run sem s with ⟨_ | a, s'⟩
  · contradiction
  · rfl

@[simp] theorem trace_ret (a : α) (s : σ) : (ret a : Prog A Ret ε α).trace sem s = [] := rfl

@[simp] theorem trace_fail (e : ε) (s : σ) : (fail e : Prog A Ret ε α).trace sem s = [] := rfl

@[simp] theorem trace_act (a : A) (k : Ret a → Prog A Ret ε α) (s : σ) :
    (act a k).trace sem s = (a, s) :: (k (sem a s).1).trace sem (sem a s).2 := rfl

variable {sem}

/-- The actions of the first part of a sequence are actions of the sequence. -/
theorem mem_trace_bind_left {f : α → Prog A Ret ε β} {x : A × σ} : ∀ {p : Prog A Ret ε α} {s : σ},
    x ∈ p.trace sem s → x ∈ (p >>= f).trace sem s
  | ret _, _, hx => by cases hx
  | fail _, _, hx => by cases hx
  | act _ _, _, hx => by
    rcases List.mem_cons.1 hx with rfl | hx
    · exact List.mem_cons_self ..
    · exact List.mem_cons_of_mem _ (mem_trace_bind_left hx)

/-- The actions of the second part of a sequence are actions of the sequence. -/
theorem mem_trace_bind {f : α → Prog A Ret ε β} {x : A × σ} {a : α} {s' : σ} : ∀ {p : Prog A Ret ε α} {s : σ},
    p.run sem s = (.ok a, s') → x ∈ (f a).trace sem s' → x ∈ (p >>= f).trace sem s
  | ret _, _, h, hx => by cases h; exact hx
  | fail _, _, h, _ => by cases h
  | act _ _, _, h, hx => List.mem_cons_of_mem _ (mem_trace_bind h hx)

theorem Every.trace {P : A → Prop} : ∀ {p : Prog A Ret ε α} {s : σ}, Every P p → ∀ x ∈ p.trace sem s, P x.1
  | ret _, _, _, _, hx => by cases hx
  | fail _, _, _, _, hx => by cases hx
  | act _ _, _, h, x, hx => by
    rcases List.mem_cons.1 hx with rfl | hx
    · exact h.1
    · exact Every.trace (h.2 _) x hx

/-- What every action of a run keeps, the run keeps; and what every action does between the state
before and the state after, composed, the run does. -/
theorem run_preserves (ok : A → σ → Prop) {I : σ → Prop} {R : σ → σ → Prop} (hrefl : ∀ s, R s s)
    (htrans : ∀ s t u, R s t → R t u → R s u) (hstep : ∀ a s, ok a s → I s → I (sem a s).2 ∧ R s (sem a s).2) :
    ∀ (p : Prog A Ret ε α) (s : σ), (∀ x ∈ p.trace sem s, ok x.1 x.2) → I s →
      I (p.run sem s).2 ∧ R s (p.run sem s).2
  | ret _, s, _, hi => ⟨hi, hrefl s⟩
  | fail _, s, _, hi => ⟨hi, hrefl s⟩
  | act a k, s, hok, hi => by
    rw [trace_act, List.forall_mem_cons] at hok
    obtain ⟨hi', hr⟩ := hstep a s hok.1 hi
    obtain ⟨hi'', hr'⟩ := run_preserves ok hrefl htrans hstep (k (sem a s).1) _ hok.2 hi'
    exact ⟨hi'', htrans _ _ _ hr hr'⟩

theorem run_invariant (ok : A → σ → Prop) {I : σ → Prop} (hstep : ∀ a s, ok a s → I s → I (sem a s).2)
    (p : Prog A Ret ε α) (s : σ) (hok : ∀ x ∈ p.trace sem s, ok x.1 x.2) (hi : I s) : I (p.run sem s).2 :=
  (run_preserves ok (R := fun _ _ => True) (fun _ => trivial) (fun _ _ _ _ _ => trivial)
    (fun a s ho hi => ⟨hstep a s ho hi, trivial⟩) p s hok hi).1

end Run

/-! ## Interleaving -/

/-- A shared state and the programs running on it. -/
structure Pool (σ A : Type) (Ret : A → Type) (ε α : Type) where
  state : σ
  threads : List (Prog A Ret ε α)

section Interleave

variable (sem : (a : A) → σ → Ret a × σ) (ok : A → σ → Prop) (calls : Set (Prog A Ret ε α))

/-- One scheduling step: a new call starts, or one thread performs its next action. -/
inductive Pool.Step : Pool σ A Ret ε α → Pool σ A Ret ε α → Prop
  | spawn {s : σ} {ts : List (Prog A Ret ε α)} (p : Prog A Ret ε α) (hp : p ∈ calls) : Step ⟨s, ts⟩ ⟨s, p :: ts⟩
  | act {s : σ} (l r : List (Prog A Ret ε α)) (a : A) (k : Ret a → Prog A Ret ε α) (ha : ok a s) :
      Step ⟨s, l ++ .act a k :: r⟩ ⟨(sem a s).2, l ++ k (sem a s).1 :: r⟩

/-- Any number of scheduling steps. -/
abbrev Pool.Steps : Pool σ A Ret ε α → Pool σ A Ret ε α → Prop := Relation.ReflTransGen (Pool.Step sem ok calls)

variable {sem ok calls}

/-- Running a program alone is an interleaving. -/
theorem Pool.steps_run : ∀ (p : Prog A Ret ε α) (s : σ) (l r : List (Prog A Ret ε α)),
    (∀ x ∈ p.trace sem s, ok x.1 x.2) →
    Pool.Steps sem ok calls ⟨s, l ++ p :: r⟩ ⟨(p.run sem s).2, l ++ ofExcept (p.run sem s).1 :: r⟩
  | ret _, _, _, _, _ => .refl
  | fail _, _, _, _, _ => .refl
  | .act a k, s, l, r, hok => by
    rw [trace_act, List.forall_mem_cons] at hok
    exact .head (.act l r a k hok.1) (steps_run (k (sem a s).1) _ l r hok.2)

/-- A synchronisation rule: if every action keeps `I` and the thread condition `W`, and leaves the
state synchronised or its own thread pending whenever it started so, then in every interleaving the
state is synchronised whenever no thread is pending. -/
theorem Pool.sync_of_not_pending (I Sync : σ → Prop) (W Pending : Prog A Ret ε α → Prop)
    (hcalls : ∀ p ∈ calls, W p)
    (hact : ∀ (a : A) (k : Ret a → Prog A Ret ε α) (s : σ), W (.act a k) → ok a s → I s →
      I (sem a s).2 ∧ W (k (sem a s).1) ∧
        (Sync s ∨ Pending (.act a k) → Sync (sem a s).2 ∨ Pending (k (sem a s).1)))
    {c c' : Pool σ A Ret ε α} (hsteps : Pool.Steps sem ok calls c c')
    (hI : I c.state) (hW : ∀ t ∈ c.threads, W t) (hS : Sync c.state ∨ ∃ t ∈ c.threads, Pending t) :
    I c'.state ∧ (∀ t ∈ c'.threads, W t) ∧ (Sync c'.state ∨ ∃ t ∈ c'.threads, Pending t) := by
  induction hsteps with
  | refl => exact ⟨hI, hW, hS⟩
  | tail _ hstep ih =>
    obtain ⟨hI, hW, hS⟩ := ih
    cases hstep with
    | spawn p hp =>
      refine ⟨hI, ?_, hS.imp_right fun ⟨t, ht, h⟩ => ⟨t, List.mem_cons_of_mem _ ht, h⟩⟩
      intro t ht
      rcases List.mem_cons.1 ht with rfl | ht
      · exact hcalls _ hp
      · exact hW t ht
    | @act s l r a k ha =>
      simp only [List.mem_append, List.mem_cons] at hW hS ⊢
      obtain ⟨hI', hW', hS'⟩ := hact a k s (hW _ (.inr (.inl rfl))) ha hI
      refine ⟨hI', ?_, ?_⟩
      · rintro t (ht | rfl | ht)
        · exact hW t (.inl ht)
        · exact hW'
        · exact hW t (.inr (.inr ht))
      · -- a pending thread other than the one that moved is still pending
        have hnext : Sync s ∨ Pending (.act a k) →
            Sync (sem a s).2 ∨ ∃ t, (t ∈ l ∨ t = k (sem a s).1 ∨ t ∈ r) ∧ Pending t :=
          fun h => (hS' h).imp_right fun hp => ⟨_, .inr (.inl rfl), hp⟩
        rcases hS with hs | ⟨t, ht | rfl | ht, hp⟩
        · exact hnext (.inl hs)
        · exact .inr ⟨t, .inl ht, hp⟩
        · exact hnext (.inr hp)
        · exact .inr ⟨t, .inr (.inr ht), hp⟩

end Interleave

end Prog
