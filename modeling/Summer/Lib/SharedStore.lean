/-
Programs side by side on a shared store.

A program reads and writes entries, runs jobs, and returns.  A read or a write may fail, and a
write that fails may have been made.  Calls of programs take turns, and the environment
changes the store between their steps.  A program is judged alone (`Prog.wp`), against every
reply that the invariant of the entries allows and on the trace of what it did.  What is
judged of every program holds of every call in every run (`kept_of_run`).
-/
import Mathlib.Logic.Function.Basic
import Summer.Lib.Run

namespace SharedStore

variable {K X J O R A : Type}

abbrev Store (K X : Type) := K → Option X

/-- A program with keys `K`, entries `X`, jobs `J` with outcomes `O`, and results `R`.  The reply
to a read is `none` when the read fails. -/
inductive Prog (K X J O R : Type)
  | ret (result : R)
  | get (key : K) (next : Option (Option X) → Prog K X J O R)
  | set (key : K) (entry : X) (ttl : Option Nat) (next : Bool → Prog K X J O R)
  | run (job : J) (next : O → Prog K X J O R)

inductive Effect (K X J : Type)
  | got (key : K) (reply : Option (Option X))
  | put (key : K) (entry : X)
  | ran (job : J)

/-- Every write that the program may make, whatever the replies are. -/
def Prog.Writes (allowed : K → X → Option Nat → Prop) : Prog K X J O R → Prop
  | .ret _ => True
  | .get _ next => ∀ reply, (next reply).Writes allowed
  | .set key entry ttl next => allowed key entry ttl ∧ ∀ done, (next done).Writes allowed
  | .run _ next => ∀ outcome, (next outcome).Writes allowed

theorem Prog.Writes.mono {allowed allowed' : K → X → Option Nat → Prop}
    {p : Prog K X J O R} (h : p.Writes allowed)
    (hsub : ∀ key entry ttl, allowed key entry ttl → allowed' key entry ttl) :
    p.Writes allowed' := by
  induction p with
  | ret result => trivial
  | get key next ih => exact fun reply => ih reply (h reply)
  | set key entry ttl next ih => exact ⟨hsub _ _ _ h.1, fun done => ih done (h.2 done)⟩
  | run job next ih => exact fun outcome => ih outcome (h outcome)

section
variable [DecidableEq K]

/-- A step of a program on the store, for jobs with a deterministic outcome. -/
inductive Act (outcome : J → O) :
    Store K X × Prog K X J O R → Effect K X J → Store K X × Prog K X J O R → Prop
  | get (store : Store K X) (key next) :
      Act outcome (store, .get key next) (.got key (some (store key)))
        (store, next (some (store key)))
  | getFails (store : Store K X) (key next) :
      Act outcome (store, .get key next) (.got key none) (store, next none)
  | set (store : Store K X) (key entry ttl next) :
      Act outcome (store, .set key entry ttl next) (.put key entry)
        (Function.update store key (some entry), next true)
  | setFails (store : Store K X) (key entry ttl next) :
      Act outcome (store, .set key entry ttl next) (.put key entry) (store, next false)
  | setUnanswered (store : Store K X) (key entry ttl next) :
      Act outcome (store, .set key entry ttl next) (.put key entry)
        (Function.update store key (some entry), next false)
  | run (store : Store K X) (job next) :
      Act outcome (store, .run job next) (.ran job) (store, next (outcome job))

/-- A call with its arguments, what it has done, and what is left of its program. -/
structure Thread (K X J O R A : Type) where
  args : A
  trace : List (Effect K X J)
  rest : Prog K X J O R

structure State (K X J O R A : Type) where
  store : Store K X
  calls : List (Thread K X J O R A)

inductive Move (K X J A : Type)
  | call (args : A)
  | act (effect : Effect K X J)
  | env

inductive Step (outcome : J → O) (program : A → Prog K X J O R)
    (env : Store K X → Store K X → Prop) :
    State K X J O R A → Move K X J A → State K X J O R A → Prop
  | call (s : State K X J O R A) (args : A) :
      Step outcome program env s (.call args)
        { s with calls := s.calls ++ [{ args := args, trace := [], rest := program args }] }
  | act {store store' : Store K X} {rest rest' : Prog K X J O R} {effect : Effect K X J}
      (before after : List (Thread K X J O R A)) (args : A) (trace : List (Effect K X J))
      (h : Act outcome (store, rest) effect (store', rest')) :
      Step outcome program env
        { store := store,
          calls := before ++ { args := args, trace := trace, rest := rest } :: after }
        (.act effect)
        { store := store',
          calls := before ++ { args := args, trace := trace ++ [effect], rest := rest' } :: after }
  | env {store store' : Store K X} (calls : List (Thread K X J O R A)) (h : env store store') :
      Step outcome program env { store := store, calls := calls } .env
        { store := store', calls := calls }

end

/-! ## What a program does on its own -/

/-- Every trace of the program meets `inv` and every result meets `post`, if the entries that
it reads are good ones; and those that it writes are. -/
def Prog.wp (outcome : J → O) (good : K → X → Prop) (inv : List (Effect K X J) → Prop)
    (post : List (Effect K X J) → R → Prop) : Prog K X J O R → List (Effect K X J) → Prop
  | .ret result, trace => inv trace ∧ post trace result
  | .get key next, trace =>
      inv trace ∧ ∀ reply, (∀ entry, reply = some (some entry) → good key entry) →
        (next reply).wp outcome good inv post (trace ++ [.got key reply])
  | .set key entry _ next, trace =>
      inv trace ∧ good key entry ∧
        ∀ done, (next done).wp outcome good inv post (trace ++ [.put key entry])
  | .run job next, trace =>
      inv trace ∧ (next (outcome job)).wp outcome good inv post (trace ++ [.ran job])

section
variable {outcome : J → O} {good : K → X → Prop}

theorem Prog.wp_inv {inv : List (Effect K X J) → Prop} {post : List (Effect K X J) → R → Prop}
    {p : Prog K X J O R} {trace : List (Effect K X J)} (h : p.wp outcome good inv post trace) :
    inv trace := by
  cases p with
  | ret result => exact h.1
  | get key next => exact h.1
  | set key entry ttl next => exact h.1
  | run job next => exact h.1

/-- The entries of the store are good ones. -/
def Good (good : K → X → Prop) (store : Store K X) : Prop :=
  ∀ key entry, store key = some entry → good key entry

variable [DecidableEq K]

theorem Good.update {store : Store K X} (h : Good good store) {key : K} {entry : X}
    (hentry : good key entry) : Good good (Function.update store key (some entry)) := by
  intro key' entry' hkey'
  by_cases heq : key' = key
  · subst heq
    rw [Function.update_self] at hkey'
    cases hkey'
    exact hentry
  · rw [Function.update_of_ne heq] at hkey'
    exact h key' entry' hkey'

theorem Good.erase {store : Store K X} (h : Good good store) (key : K) :
    Good good (Function.update store key none) := by
  intro key' entry' hkey'
  by_cases heq : key' = key
  · subst heq
    rw [Function.update_self] at hkey'
    cases hkey'
  · rw [Function.update_of_ne heq] at hkey'
    exact h key' entry' hkey'

theorem Act.wp {inv : List (Effect K X J) → Prop} {post : List (Effect K X J) → R → Prop}
    {store store' : Store K X} {p p' : Prog K X J O R} {effect : Effect K X J}
    (h : Act outcome (store, p) effect (store', p')) {trace : List (Effect K X J)}
    (hstore : Good good store) (hp : p.wp outcome good inv post trace) :
    Good good store' ∧ p'.wp outcome good inv post (trace ++ [effect]) := by
  cases h with
  | get _ key next =>
      exact ⟨hstore, hp.2 _ fun entry hentry => hstore key entry (Option.some.inj hentry)⟩
  | getFails _ key next => exact ⟨hstore, hp.2 _ fun entry hentry => by cases hentry⟩
  | set _ key entry ttl next => exact ⟨hstore.update hp.2.1, hp.2.2 _⟩
  | setFails _ key entry ttl next => exact ⟨hstore, hp.2.2 _⟩
  | setUnanswered _ key entry ttl next => exact ⟨hstore.update hp.2.1, hp.2.2 _⟩
  | run _ job next => exact ⟨hstore, hp.2⟩

/-! ## What calls do side by side -/

/-- The entries are good, and every call is as its program was judged. -/
structure Kept (outcome : J → O) (good : K → X → Prop) (inv : A → List (Effect K X J) → Prop)
    (post : A → List (Effect K X J) → R → Prop) (s : State K X J O R A) : Prop where
  store : Good good s.store
  calls : ∀ c ∈ s.calls, c.rest.wp outcome good (inv c.args) (post c.args) c.trace

variable {inv : A → List (Effect K X J) → Prop} {post : A → List (Effect K X J) → R → Prop}
  {program : A → Prog K X J O R} {env : Store K X → Store K X → Prop}

theorem Step.kept (hprogram : ∀ a, (program a).wp outcome good (inv a) (post a) [])
    (henv : ∀ store store', env store store' → Good good store → Good good store')
    {s t : State K X J O R A} {move : Move K X J A} (h : Step outcome program env s move t)
    (hs : Kept outcome good inv post s) : Kept outcome good inv post t := by
  obtain ⟨hstore, hcalls⟩ := hs
  cases h with
  | call _ args =>
      refine ⟨hstore, ?_⟩
      intro c hc
      rcases List.mem_append.mp hc with hc | hc
      · exact hcalls c hc
      · obtain rfl := List.mem_singleton.mp hc
        exact hprogram args
  | act before after args trace hact =>
      obtain ⟨hstore', hwp⟩ := hact.wp hstore
        (hcalls _ (List.mem_append_right _ List.mem_cons_self))
      refine ⟨hstore', ?_⟩
      intro c hc
      rcases List.mem_append.mp hc with hc | hc
      · exact hcalls c (List.mem_append_left _ hc)
      · rcases List.mem_cons.mp hc with rfl | hc
        · exact hwp
        · exact hcalls c (List.mem_append_right _ (List.mem_cons_of_mem _ hc))
  | env calls h => exact ⟨henv _ _ h hstore, hcalls⟩

theorem kept_of_run (hprogram : ∀ a, (program a).wp outcome good (inv a) (post a) [])
    (henv : ∀ store store', env store store' → Good good store → Good good store')
    {store : Store K X} (hstore : Good good store) {moves : List (Move K X J A)}
    {s : State K X J O R A}
    (h : Run (Step outcome program env) { store := store, calls := [] } moves s) :
    Kept outcome good inv post s :=
  h.invariant (fun _ _ _ hstep => hstep.kept hprogram henv)
    { store := hstore, calls := fun _ hc => absurd hc List.not_mem_nil }

/-- A call alone does what its program does. -/
theorem run_of_acts {acts : List (Effect K X J)} {start finish : Store K X × Prog K X J O R}
    (h : Run (Act outcome) start acts finish) (args : A) (trace : List (Effect K X J)) :
    Run (Step outcome program env)
      { store := start.1, calls := [{ args := args, trace := trace, rest := start.2 }] }
      (acts.map .act)
      { store := finish.1,
        calls := [{ args := args, trace := trace ++ acts, rest := finish.2 }] } := by
  induction h generalizing trace with
  | nil s =>
      rw [List.append_nil]
      exact .nil _
  | @cons s t u effect acts hstep _ ih =>
      have hrest := ih (trace ++ [effect])
      rw [List.append_assoc] at hrest
      exact .cons (.act [] [] args trace hstep) hrest

theorem run_of_call {acts : List (Effect K X J)} {store store' : Store K X} {args : A}
    {rest : Prog K X J O R} (h : Run (Act outcome) (store, program args) acts (store', rest)) :
    Run (Step outcome program env) { store := store, calls := [] }
      (.call args :: acts.map .act)
      { store := store', calls := [{ args := args, trace := acts, rest := rest }] } :=
  .cons (.call _ args) (run_of_acts h args [])

end

end SharedStore
