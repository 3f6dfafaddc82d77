/-
Threads that share values behind readers-writer locks.

A program takes a read or a write guard of a lock, which shows it the value, assigns through a
write guard, drops guards and returns.  A lock admits several readers or one writer, and nothing
is said about which of the threads that wait for it comes first.  Programs are judged alone.
When every program takes its locks in rank order, some call can always go on
(`exists_unblocked`), no call makes more steps than its program has (`turns_le`), and those
under way can all be finished (`can_finish_of_run`).
-/
import Mathlib.Algebra.BigOperators.Group.Finset.Basic
import Mathlib.Algebra.Order.BigOperators.Group.Finset
import Mathlib.Algebra.Order.Ring.Nat
import Mathlib.Logic.Function.Basic
import Summer.Lib.Run

namespace RwLock

variable {L T O R : Type}

/-- A program on locks `L` with values `V` and results `R`. -/
inductive Prog (V : L → Type) (R : Type)
  | ret (result : R)
  | read (l : L) (next : V l → Prog V R)
  | write (l : L) (next : V l → Prog V R)
  | assign (l : L) (v : V l) (next : Prog V R)
  | drop (l : L) (next : Prog V R)

inductive Guard
  | read
  | write
deriving DecidableEq, Repr

variable {V : L → Type}

/-- The call of an operation: what is left of its program, and the guards it holds. -/
structure Thread (V : L → Type) (O R : Type) where
  op : O
  rest : Prog V R
  guards : L → Option Guard

structure State (V : L → Type) (T O R : Type) where
  value : (l : L) → V l
  thread : T → Option (Thread V O R)

/-- A call, a step of a call, or a return. -/
inductive Label (T O R : Type)
  | call (t : T) (op : O)
  | turn (t : T)
  | ret (t : T) (op : O) (result : R)

namespace State

def start (value : (l : L) → V l) : State V T O R where
  value := value
  thread := fun _ => none

def Readable (s : State V T O R) (l : L) : Prop :=
  ∀ t th, s.thread t = some th → th.guards l ≠ some .write

def Free (s : State V T O R) (l : L) : Prop :=
  ∀ t th, s.thread t = some th → th.guards l = none

def put [DecidableEq T] (s : State V T O R) (t : T) (th : Option (Thread V O R)) :
    State V T O R :=
  { s with thread := Function.update s.thread t th }

end State

section
variable [DecidableEq L] [DecidableEq T]

inductive Step (program : O → Prog V R) : State V T O R → Label T O R → State V T O R → Prop
  | call {s : State V T O R} {t : T} (op : O) (h : s.thread t = none) :
      Step program s (.call t op)
        (s.put t (some { op := op, rest := program op, guards := fun _ => none }))
  | read {s : State V T O R} {t : T} {op : O} {guards : L → Option Guard} {l : L}
      {next : V l → Prog V R}
      (h : s.thread t = some { op := op, rest := .read l next, guards := guards })
      (hfree : s.Readable l) :
      Step program s (.turn t)
        (s.put t (some { op := op, rest := next (s.value l),
                         guards := Function.update guards l (some .read) }))
  | write {s : State V T O R} {t : T} {op : O} {guards : L → Option Guard} {l : L}
      {next : V l → Prog V R}
      (h : s.thread t = some { op := op, rest := .write l next, guards := guards })
      (hfree : s.Free l) :
      Step program s (.turn t)
        (s.put t (some { op := op, rest := next (s.value l),
                         guards := Function.update guards l (some .write) }))
  | assign {s : State V T O R} {t : T} {op : O} {guards : L → Option Guard} {l : L} {v : V l}
      {next : Prog V R}
      (h : s.thread t = some { op := op, rest := .assign l v next, guards := guards })
      (hguard : guards l = some .write) :
      Step program s (.turn t)
        ({ s with value := Function.update s.value l v }.put t
          (some { op := op, rest := next, guards := guards }))
  | drop {s : State V T O R} {t : T} {op : O} {guards : L → Option Guard} {l : L}
      {next : Prog V R}
      (h : s.thread t = some { op := op, rest := .drop l next, guards := guards }) :
      Step program s (.turn t)
        (s.put t (some { op := op, rest := next, guards := Function.update guards l none }))
  | ret {s : State V T O R} {t : T} {op : O} {guards : L → Option Guard} {result : R}
      (h : s.thread t = some { op := op, rest := .ret result, guards := guards }) :
      Step program s (.ret t op result) (s.put t none)

end

/-! ## Locks in order -/

/-- With these guards, the program takes every lock above all those it holds, assigns under
write guards only, and returns without a guard. -/
def Prog.Ordered [DecidableEq L] (rank : L → ℕ) : (L → Option Guard) → Prog V R → Prop
  | guards, .ret _ => ∀ l, guards l = none
  | guards, .read l next =>
      (∀ k, guards k ≠ none → rank k < rank l) ∧
        ∀ v, (next v).Ordered rank (Function.update guards l (some .read))
  | guards, .write l next =>
      (∀ k, guards k ≠ none → rank k < rank l) ∧
        ∀ v, (next v).Ordered rank (Function.update guards l (some .write))
  | guards, .assign l _ next => guards l = some .write ∧ next.Ordered rank guards
  | guards, .drop l next => next.Ordered rank (Function.update guards l none)

/-- The program returns within so many steps. -/
def Prog.Within : ℕ → Prog V R → Prop
  | _, .ret _ => True
  | n, .read _ next => 0 < n ∧ ∀ v, (next v).Within (n - 1)
  | n, .write _ next => 0 < n ∧ ∀ v, (next v).Within (n - 1)
  | n, .assign _ _ next => 0 < n ∧ next.Within (n - 1)
  | n, .drop _ next => 0 < n ∧ next.Within (n - 1)

/-- What the program computes when it is alone. -/
def Prog.eval [DecidableEq L] : Prog V R → ((l : L) → V l) → R × ((l : L) → V l)
  | .ret result, value => (result, value)
  | .read l next, value => (next (value l)).eval value
  | .write l next, value => (next (value l)).eval value
  | .assign l v next, value => next.eval (Function.update value l v)
  | .drop _ next, value => next.eval value

/-- The call waits for this lock. -/
def Thread.Waits (th : Thread V O R) (l : L) : Prop :=
  (∃ next, th.rest = .read l next) ∨ ∃ next, th.rest = .write l next

def Label.thread : Label T O R → T
  | .call t _ => t
  | .turn t => t
  | .ret t _ _ => t

def Label.turns [DecidableEq T] (t : T) : Label T O R → Bool
  | .turn u => decide (u = t)
  | _ => false

def Label.calls [DecidableEq T] (t : T) : Label T O R → Bool
  | .call u _ => decide (u = t)
  | _ => false

namespace State

variable [DecidableEq T]

@[simp] theorem put_self (s : State V T O R) (t : T) (th : Option (Thread V O R)) :
    (s.put t th).thread t = th := by
  unfold put
  exact Function.update_self ..

theorem put_ne (s : State V T O R) {t u : T} (h : u ≠ t) (th : Option (Thread V O R)) :
    (s.put t th).thread u = s.thread u := by
  unfold put
  exact Function.update_of_ne h ..

theorem put_alone {s : State V T O R} {t : T} (h : ∀ u, u ≠ t → s.thread u = none)
    (th : Option (Thread V O R)) (u : T) (hut : u ≠ t) : (s.put t th).thread u = none :=
  (s.put_ne hut th).trans (h u hut)

end State

theorem Prog.Within.mono {p : Prog V R} {m n : ℕ} (hp : p.Within m) (h : m ≤ n) : p.Within n := by
  induction p generalizing m n with
  | ret result => trivial
  | read l next ih => exact ⟨by have := hp.1; omega, fun v => ih v (hp.2 v) (by omega)⟩
  | write l next ih => exact ⟨by have := hp.1; omega, fun v => ih v (hp.2 v) (by omega)⟩
  | assign l v next ih => exact ⟨by have := hp.1; omega, ih hp.2 (by omega)⟩
  | drop l next ih => exact ⟨by have := hp.1; omega, ih hp.2 (by omega)⟩

variable {rank : L → ℕ} {bound : ℕ}

/-- A call that is alone can have every lock above those it holds. -/
theorem State.free_of_alone {s : State V T O R} {t : T} {th : Thread V O R}
    (ht : s.thread t = some th) (halone : ∀ u, u ≠ t → s.thread u = none) {l : L}
    (hl : ∀ k, th.guards k ≠ none → rank k < rank l) : s.Free l := by
  intro u uh hu
  by_cases hut : u = t
  · rw [hut, ht] at hu
    cases hu
    by_contra hheld
    exact lt_irrefl _ (hl l hheld)
  · rw [halone u hut] at hu
    cases hu

theorem State.Free.readable {s : State V T O R} {l : L} (h : s.Free l) : s.Readable l := by
  intro t th ht
  rw [h t th ht]
  exact fun h => nomatch h

section
variable [DecidableEq L]

/-- Taking and dropping leaves what was there. -/
theorem update_dropped {W : L → Type} {f : (l : L) → Option (W l)} {l : L} (h : f l = none)
    (w : Option (W l)) : Function.update (Function.update f l w) l none = f := by
  rw [Function.update_idem, ← h, Function.update_eq_self]

theorem Thread.Waits.rank_lt {th : Thread V O R} {l k : L} (h : th.Waits l)
    (hth : th.rest.Ordered rank th.guards) (hk : th.guards k ≠ none) : rank k < rank l := by
  rcases h with ⟨next, hrest⟩ | ⟨next, hrest⟩
  · rw [hrest] at hth
    exact hth.1 k hk
  · rw [hrest] at hth
    exact hth.1 k hk

/-- Every call is at a point of its program from which it takes locks in order. -/
def State.Ordered (rank : L → ℕ) (s : State V T O R) : Prop :=
  ∀ t th, s.thread t = some th → th.rest.Ordered rank th.guards

/-- Some call waits for no lock that is held. -/
theorem State.Ordered.exists_unblocked {s : State V T O R} (hs : s.Ordered rank)
    (hrank : ∀ l, rank l ≤ bound) {t : T} {th : Thread V O R} (ht : s.thread t = some th) :
    ∃ u uh, s.thread u = some uh ∧ ∀ l, uh.Waits l → s.Free l := by
  by_contra hall
  have hblocked : ∀ u uh, s.thread u = some uh → ∃ l, uh.Waits l ∧ ¬ s.Free l := by
    intro u uh hu
    by_contra hnone
    refine hall ⟨u, uh, hu, fun l hl => ?_⟩
    by_contra hfree
    exact hnone ⟨l, hl, hfree⟩
  -- Whoever holds the lock that is waited for waits for a lock above it.
  have hclimb : ∀ n, ∃ u uh l, s.thread u = some uh ∧ uh.Waits l ∧ ¬ s.Free l ∧ n ≤ rank l := by
    intro n
    induction n with
    | zero =>
      obtain ⟨l, hl, hfree⟩ := hblocked t th ht
      exact ⟨t, th, l, ht, hl, hfree, Nat.zero_le _⟩
    | succ n ih =>
      obtain ⟨u, uh, l, hu, hl, hfree, hn⟩ := ih
      obtain ⟨v, hfree⟩ := not_forall.mp hfree
      obtain ⟨vh, hfree⟩ := not_forall.mp hfree
      obtain ⟨hv, hheld⟩ := Classical.not_imp.mp hfree
      obtain ⟨k, hk, hkfree⟩ := hblocked v vh hv
      have hlt := hk.rank_lt (hs v vh hv) hheld
      exact ⟨v, vh, k, hv, hk, hkfree, by omega⟩
  obtain ⟨u, uh, l, _, _, _, hl⟩ := hclimb (bound + 1)
  have := hrank l
  omega

variable [DecidableEq T] {program : O → Prog V R}

theorem State.Ordered.put {s : State V T O R} (hs : s.Ordered rank) (t : T)
    {th : Option (Thread V O R)} (hth : ∀ x, th = some x → x.rest.Ordered rank x.guards) :
    (s.put t th).Ordered rank := by
  intro u uh hu
  by_cases hut : u = t
  · subst hut
    rw [State.put_self] at hu
    exact hth uh hu
  · rw [State.put_ne s hut] at hu
    exact hs u uh hu

theorem Step.ordered (hprogram : ∀ op, (program op).Ordered rank fun _ => none)
    {s s' : State V T O R} {a : Label T O R} (h : Step program s a s') (hs : s.Ordered rank) :
    s'.Ordered rank := by
  cases h with
  | call op h =>
    refine hs.put _ fun x hx => ?_
    cases hx
    exact hprogram op
  | read h hfree =>
    refine hs.put _ fun x hx => ?_
    cases hx
    exact (hs _ _ h).2 _
  | write h hfree =>
    refine hs.put _ fun x hx => ?_
    cases hx
    exact (hs _ _ h).2 _
  | @assign t op guards l v next h hguard =>
    have hs' : ({ s with value := Function.update s.value l v } : State V T O R).Ordered rank := hs
    refine hs'.put _ fun x hx => ?_
    cases hx
    exact (hs _ _ h).2
  | drop h =>
    have hdrop := hs _ _ h
    refine hs.put _ fun x hx => ?_
    cases hx
    exact hdrop
  | ret h =>
    refine hs.put _ fun x hx => ?_
    cases hx

/-- A call that is not blocked goes on: it returns, or makes a step. -/
theorem Step.of_unblocked (program : O → Prog V R) {s : State V T O R} (hs : s.Ordered rank)
    {u : T} {uh : Thread V O R} (hu : s.thread u = some uh) (hfree : ∀ l, uh.Waits l → s.Free l) :
    (∃ result, Step program s (.ret u uh.op result) (s.put u none)) ∨
      ∃ s' th', Step program s (.turn u) s' ∧ (∀ n, uh.rest.Within n → 0 < n ∧
        th'.rest.Within (n - 1)) ∧ s'.thread = (s.put u (some th')).thread := by
  obtain ⟨op, rest, guards⟩ := uh
  cases rest with
  | ret result => exact Or.inl ⟨result, .ret hu⟩
  | read l next =>
    have hl : s.Free l := hfree l (Or.inl ⟨next, rfl⟩)
    exact Or.inr ⟨_, _, .read hu hl.readable, fun n hn => ⟨hn.1, hn.2 _⟩, rfl⟩
  | write l next =>
    have hl : s.Free l := hfree l (Or.inr ⟨next, rfl⟩)
    exact Or.inr ⟨_, _, .write hu hl, fun n hn => ⟨hn.1, hn.2 _⟩, rfl⟩
  | assign l v next =>
    exact Or.inr ⟨_, { op := op, rest := next, guards := guards },
      .assign hu (hs _ _ hu).1, fun n hn => hn, rfl⟩
  | drop l next =>
    exact Or.inr ⟨_, { op := op, rest := next, guards := Function.update guards l none },
      .drop hu, fun n hn => hn, rfl⟩

/-- The calls under way are among `active`, and each returns within its budget. -/
def State.Bounded (s : State V T O R) (active : Finset T) (budget : T → ℕ) : Prop :=
  ∀ t th, s.thread t = some th → t ∈ active ∧ th.rest.Within (budget t)

section
variable {s s' : State V T O R} {active : Finset T} {budget : T → ℕ} {u : T}

omit [DecidableEq L] in
theorem State.Bounded.finished (h : s.Bounded active budget) (u : T) :
    (s.put u none).Bounded (active.erase u) budget := by
  intro v vh hv
  by_cases hvu : v = u
  · subst hvu
    rw [State.put_self] at hv
    cases hv
  · rw [State.put_ne s hvu] at hv
    obtain ⟨hv, hvh⟩ := h v vh hv
    exact ⟨Finset.mem_erase.mpr ⟨hvu, hv⟩, hvh⟩

omit [DecidableEq L] in
theorem State.Bounded.advanced (h : s.Bounded active budget) (hmem : u ∈ active)
    {th : Thread V O R} (hth : th.rest.Within (budget u - 1))
    (hthread : s'.thread = (s.put u (some th)).thread) :
    s'.Bounded active (Function.update budget u (budget u - 1)) := by
  intro v vh hv
  rw [hthread] at hv
  by_cases hvu : v = u
  · subst hvu
    rw [State.put_self, Option.some.injEq] at hv
    subst hv
    rw [Function.update_self]
    exact ⟨hmem, hth⟩
  · rw [State.put_ne s hvu] at hv
    rw [Function.update_of_ne hvu]
    exact h v vh hv

theorem sum_advanced_lt (hmem : u ∈ active) (hpos : 0 < budget u) :
    ∑ t ∈ active, (Function.update budget u (budget u - 1) t + 1) <
      ∑ t ∈ active, (budget t + 1) := by
  refine Finset.sum_lt_sum (fun v _ => ?_) ⟨u, hmem, ?_⟩
  · by_cases hvu : v = u
    · subst hvu
      rw [Function.update_self]
      omega
    · rw [Function.update_of_ne hvu]
  · rw [Function.update_self]
    omega

/-- A step that is no call comes first. -/
theorem Step.finish {a : Label T O R} (hstep : Step program s a s') (ha : ∀ t, a.calls t = false)
    (h : ∃ acts s'', Run (Step program) s' acts s'' ∧ (∀ t, s''.thread t = none) ∧
      ∀ a ∈ acts, ∀ t, a.calls t = false) :
    ∃ acts s'', Run (Step program) s acts s'' ∧ (∀ t, s''.thread t = none) ∧
      ∀ a ∈ acts, ∀ t, a.calls t = false := by
  obtain ⟨acts, s'', hrun, hidle, hcalls⟩ := h
  refine ⟨a :: acts, s'', .cons hstep hrun, hidle, fun a' ha' => ?_⟩
  rcases List.mem_cons.mp ha' with rfl | ha'
  · exact ha
  · exact hcalls a' ha'

end

theorem State.Ordered.can_finish (hprogram : ∀ op, (program op).Ordered rank fun _ => none)
    (hrank : ∀ l, rank l ≤ bound) (n : ℕ) {s : State V T O R} (hs : s.Ordered rank)
    {active : Finset T} {budget : T → ℕ} (hbounded : s.Bounded active budget)
    (hn : ∑ t ∈ active, (budget t + 1) ≤ n) :
    ∃ acts s', Run (Step program) s acts s' ∧ (∀ t, s'.thread t = none) ∧
      ∀ a ∈ acts, ∀ t, a.calls t = false := by
  induction n generalizing s active budget with
  | zero =>
    refine ⟨[], s, .nil s, fun t => ?_, fun a ha => absurd ha List.not_mem_nil⟩
    cases ht : s.thread t with
    | none => rfl
    | some th =>
      have hmem := (hbounded t th ht).1
      have hle := Finset.single_le_sum (f := fun t => budget t + 1)
        (fun _ _ => Nat.zero_le _) hmem
      omega
  | succ n ih =>
    by_cases hidle : ∀ t, s.thread t = none
    · exact ⟨[], s, .nil s, hidle, fun a ha => absurd ha List.not_mem_nil⟩
    · obtain ⟨t, ht⟩ := not_forall.mp hidle
      obtain ⟨th, ht⟩ := Option.ne_none_iff_exists'.mp ht
      obtain ⟨u, uh, hu, hfree⟩ := hs.exists_unblocked hrank ht
      obtain ⟨hmem, hwithin⟩ := hbounded u uh hu
      rcases Step.of_unblocked program hs hu hfree with
        ⟨result, hstep⟩ | ⟨s', th', hstep, hnext, hthread⟩
      · have hsum := Finset.add_sum_erase active (fun t => budget t + 1) hmem
        exact hstep.finish (fun _ => rfl)
          (ih (hstep.ordered hprogram hs) (hbounded.finished u) (by omega))
      · obtain ⟨hpos, hth'⟩ := hnext _ hwithin
        have hlt := sum_advanced_lt hmem hpos
        exact hstep.finish (fun _ => rfl)
          (ih (hstep.ordered hprogram hs) (hbounded.advanced hmem hth' hthread) (by omega))

/-! ## A call alone -/

theorem Prog.Ordered.alone {op : O} {p : Prog V R} {guards : L → Option Guard}
    (hp : p.Ordered rank guards) {s : State V T O R} {t : T}
    (ht : s.thread t = some { op := op, rest := p, guards := guards })
    (halone : ∀ u, u ≠ t → s.thread u = none) :
    ∃ n s', Run (Step program) s
        (List.replicate n (.turn t) ++ [.ret t op (p.eval s.value).1]) s' ∧
      (∀ u, s'.thread u = none) ∧ s'.value = (p.eval s.value).2 := by
  induction p generalizing guards s with
  | ret result =>
    refine ⟨0, _, .single (.ret ht), fun u => ?_, rfl⟩
    by_cases hut : u = t
    · rw [hut, State.put_self]
    · exact State.put_alone halone none u hut
  | read l next ih =>
    have hl : s.Free l := State.free_of_alone ht halone hp.1
    obtain ⟨n, s', hrun, hrest⟩ := ih (s.value l) (hp.2 _) (State.put_self s t _)
      (State.put_alone halone _)
    exact ⟨n + 1, s', .cons (.read ht hl.readable) hrun, hrest⟩
  | write l next ih =>
    have hl : s.Free l := State.free_of_alone ht halone hp.1
    obtain ⟨n, s', hrun, hrest⟩ := ih (s.value l) (hp.2 _) (State.put_self s t _)
      (State.put_alone halone _)
    exact ⟨n + 1, s', .cons (.write ht hl) hrun, hrest⟩
  | assign l v next ih =>
    obtain ⟨n, s', hrun, hrest⟩ := ih hp.2
      (State.put_self { s with value := Function.update s.value l v } t _)
      (State.put_alone (s := { s with value := Function.update s.value l v }) halone _)
    exact ⟨n + 1, s', .cons (.assign ht hp.1) hrun, hrest⟩
  | drop l next ih =>
    obtain ⟨n, s', hrun, hrest⟩ := ih hp (State.put_self s t _) (State.put_alone halone _)
    exact ⟨n + 1, s', .cons (.drop ht) hrun, hrest⟩

/-- Where no call is under way, one can be made that returns what its program computes. -/
theorem Step.call_alone (hprogram : ∀ op, (program op).Ordered rank fun _ => none)
    {s : State V T O R} (hs : ∀ u, s.thread u = none) (t : T) (op : O) :
    ∃ n s', Run (Step program) s (.call t op :: (List.replicate n (.turn t) ++
        [.ret t op ((program op).eval s.value).1])) s' ∧
      (∀ u, s'.thread u = none) ∧ s'.value = ((program op).eval s.value).2 := by
  obtain ⟨n, s', hrun, hrest⟩ := (hprogram op).alone (State.put_self s t _)
    (State.put_alone (fun u _ => hs u) _)
  exact ⟨n, s', .cons (.call op (hs t)) hrun, hrest⟩

/-! ## How far a call is -/

theorem Step.thread_of_ne {s s' : State V T O R} {a : Label T O R} (h : Step program s a s')
    {t : T} (ht : t ≠ a.thread) : s'.thread t = s.thread t := by
  cases h with
  | call op h => exact State.put_ne s ht _
  | read h hfree => exact State.put_ne s ht _
  | write h hfree => exact State.put_ne s ht _
  | assign h hguard => exact State.put_ne _ ht _
  | drop h => exact State.put_ne s ht _
  | ret h => exact State.put_ne s ht _

theorem Step.of_turn {s s' : State V T O R} {t : T} (h : Step program s (.turn t) s') :
    ∃ th th', s.thread t = some th ∧ s'.thread t = some th' ∧
      ∀ n, th.rest.Within n → 0 < n ∧ th'.rest.Within (n - 1) := by
  cases h with
  | read h hfree => exact ⟨_, _, h, State.put_self .., fun n hn => ⟨hn.1, hn.2 _⟩⟩
  | write h hfree => exact ⟨_, _, h, State.put_self .., fun n hn => ⟨hn.1, hn.2 _⟩⟩
  | assign h hguard => exact ⟨_, _, h, State.put_self .., fun n hn => hn⟩
  | drop h => exact ⟨_, _, h, State.put_self .., fun n hn => hn⟩

/-- A turn uses up one of the steps that its call has left, and a call brings new ones. -/
theorem Step.within {N : ℕ} (hprogram : ∀ op, (program op).Within N)
    {s s' : State V T O R} {a : Label T O R} (h : Step program s a s') {t : T} {n : ℕ}
    (hs : ∀ th, s.thread t = some th → th.rest.Within n) :
    ∃ m, (∀ th, s'.thread t = some th → th.rest.Within m) ∧
      m + (a.turns t).toNat ≤ n + N * (a.calls t).toNat := by
  by_cases hta : t = a.thread
  · subst hta
    cases a with
    | call t op =>
      refine ⟨n + N, fun th hth => ?_, by simp [Label.turns, Label.calls, Label.thread]⟩
      cases h with
      | call op h =>
        rw [Label.thread, State.put_self, Option.some.injEq] at hth
        subst hth
        exact (hprogram op).mono (by omega)
    | turn t =>
      obtain ⟨th, th', hth, hth', hnext⟩ := h.of_turn
      obtain ⟨hpos, hwithin⟩ := hnext n (hs th hth)
      refine ⟨n - 1, fun x hx => ?_, ?_⟩
      · rw [Label.thread, hth', Option.some.injEq] at hx
        subst hx
        exact hwithin
      · simp only [Label.turns, Label.calls, Label.thread, decide_true, Bool.toNat_true,
          Bool.toNat_false]
        omega
    | ret t op result =>
      refine ⟨n, fun th hth => ?_, by simp [Label.turns, Label.thread]⟩
      cases h with
      | ret h =>
        rw [Label.thread, State.put_self] at hth
        cases hth
  · refine ⟨n, fun th hth => hs th (by rwa [h.thread_of_ne hta] at hth), ?_⟩
    have hturns : a.turns t = false := by
      cases a with
      | call u op => rfl
      | turn u => exact decide_eq_false (Ne.symm hta)
      | ret u op result => rfl
    rw [hturns]
    exact Nat.le_add_right _ _

theorem turns_le {N : ℕ} (hprogram : ∀ op, (program op).Within N) {s s' : State V T O R}
    {acts : List (Label T O R)} (h : Run (Step program) s acts s') (t : T) {n : ℕ}
    (hs : ∀ th, s.thread t = some th → th.rest.Within n) :
    acts.countP (·.turns t) ≤ n + N * acts.countP (·.calls t) := by
  induction h generalizing n with
  | nil s => simp
  | @cons s u s' a acts hstep _ ih =>
    obtain ⟨m, hm, hle⟩ := hstep.within hprogram hs
    have hrest := ih hm
    have hcount : ∀ (p : Label T O R → Bool), (a :: acts).countP p =
        acts.countP p + (p a).toNat := by
      intro p
      rw [List.countP_cons]
      cases p a <;> rfl
    rw [hcount, hcount, Nat.mul_add]
    omega

/-- Whatever has happened, the calls under way can all return. -/
theorem can_finish_of_run {N : ℕ} (hprogram : ∀ op, (program op).Ordered rank fun _ => none)
    (hwithin : ∀ op, (program op).Within N) (hrank : ∀ l, rank l ≤ bound)
    {value : (l : L) → V l} {s : State V T O R} {acts : List (Label T O R)}
    (h : Run (Step program) (State.start value) acts s) :
    ∃ acts' s', Run (Step program) s acts' s' ∧ (∀ t, s'.thread t = none) ∧
      ∀ a ∈ acts', ∀ t, a.calls t = false := by
  have hordered : s.Ordered rank := h.invariant (fun _ _ _ hstep => hstep.ordered hprogram)
    (fun _ _ h => nomatch h)
  have hactive : ∃ active : Finset T, ∀ t th, s.thread t = some th → t ∈ active := by
    refine h.invariant (I := fun s => ∃ active : Finset T,
      ∀ t th, s.thread t = some th → t ∈ active) (fun s a s' hstep hs => ?_)
      ⟨∅, fun _ _ h => nomatch h⟩
    obtain ⟨active, hactive⟩ := hs
    refine ⟨insert a.thread active, fun t th ht => ?_⟩
    by_cases hta : t = a.thread
    · exact Finset.mem_insert.mpr (Or.inl hta)
    · rw [hstep.thread_of_ne hta] at ht
      exact Finset.mem_insert.mpr (Or.inr (hactive t th ht))
  obtain ⟨active, hactive⟩ := hactive
  have hbudget : ∀ t, ∃ n, ∀ th, s.thread t = some th → th.rest.Within n := by
    intro t
    refine h.invariant (I := fun s => ∃ n, ∀ th, s.thread t = some th → th.rest.Within n)
      (fun s a s' hstep hs => ?_) ⟨0, fun _ h => nomatch h⟩
    obtain ⟨n, hn⟩ := hs
    obtain ⟨m, hm, _⟩ := hstep.within hwithin hn
    exact ⟨m, hm⟩
  choose budget hbudget using hbudget
  exact hordered.can_finish hprogram hrank _
    (fun t th ht => ⟨hactive t th ht, hbudget t th ht⟩) (le_refl (∑ t ∈ active, (budget t + 1)))

end

end RwLock
