/-
Job firings and shutdown hooks (`summer-job/src/lib.rs`, `summer/src/app.rs`).

Four parties run side by side: `AppBuilder::schedule`, which joins the scheduled tasks and
then runs the hooks; the future of `JobPlugin::schedule`, one of these tasks; the task it
spawns to wait for the signal; and the cron scheduler in the background, which fires jobs
from `start()` until `shutdown()`.  A step is a move of one of them, so a run is an
interleaving of all four.

The future of `JobPlugin::schedule` returns as soon as `start()` has, so nothing makes the
hooks wait for the cron scheduler except another task that does (`hooksAfterCron_iff`).
-/
import Summer.App.Schedule
import Summer.Lib.Run

namespace Summer
namespace JobPlugin

/-- An application with `JobPlugin`.  `before` and `after` are the schedulers registered
before and after that of the plugin, `hooks` the shutdown hooks in the order they were
registered.  `mayEnd t stopped e`: the task `t` may end with `e`; `stopped` tells it
whether the job future has returned and the cron scheduler been shut down. -/
structure System (J T H : Type) where
  jobs : List J
  before : List T
  after : List T
  hooks : List H
  mayEnd : T → Bool → TaskEnd → Prop
  onShutdown : ShutdownPhase → Except AppError Unit
  hook : H → Except AppError String

/-- A join handle; that of a task other than the job future holds how the task has ended. -/
inductive Handle (T : Type)
  | job
  | task (t : T) (ended : Option TaskEnd)

/-- Where the future of `JobPlugin::schedule` stands. -/
inductive Future (J : Type)
  | adding (jobs : List J)
  | starting
  | returned (e : TaskEnd)

inductive Signal
  | unspawned
  | waiting
  | done
deriving DecidableEq, Repr

inductive Cron
  | idle
  | running
  | stopped
deriving DecidableEq, Repr

/-- Where `AppBuilder::schedule` stands; `handles` and `hooks` in the order they are
popped. -/
inductive Main (T H : Type)
  | joining (handles : List (Handle T))
  | hooks (rest : List H)
  | inHook (h : H) (rest : List H)
  | finished
  | failed (e : AppError)

structure State (J T H : Type) where
  main : Main T H
  future : Future J
  signal : Signal
  cron : Cron
  added : List J

/-- `join none` is the join of the job future. -/
inductive Act (J T H : Type)
  | addJob (j : J)
  | addJobFails
  | spawnSignal
  | start
  | startFails
  | shutdownCron
  | shutdownFails
  | fire (j : J)
  | endTask (t : T) (e : TaskEnd)
  | join (t : Option T)
  | publish (phase : ShutdownPhase)
  | beginHook (h : H)
  | endHook (h : H)

variable {J T H : Type}

namespace State

def returned (s : State J T H) : Bool :=
  match s.future with
  | .returned _ => true
  | _ => false

/-- The job future has returned and the cron scheduler is shut down. -/
def stopped (s : State J T H) : Bool := s.returned && decide (s.cron = .stopped)

end State

def init (sys : System J T H) : State J T H where
  main := .joining ((sys.before.map fun t => Handle.task t none) ++
    .job :: sys.after.map fun t => Handle.task t none).reverse
  future := .adding sys.jobs
  signal := .unspawned
  cron := .idle
  added := []

/-- `handle.await?` of an ended task. -/
def joined (rest : List (Handle T)) : TaskEnd → Main T H
  | .panicked => .failed .joinError
  | _ => .joining rest

/-- `?` on the result of a listener or a hook. -/
def next (main : Main T H) {α : Type} : Except AppError α → Main T H
  | .ok _ => main
  | .error e => .failed e

inductive Step (sys : System J T H) : State J T H → Act J T H → State J T H → Prop
  | addJob {s : State J T H} (j : J) (rest : List J) (hs : s.future = .adding (j :: rest)) :
      Step sys s (.addJob j) { s with future := .adding rest, added := s.added ++ [j] }
  | addJobFails {s : State J T H} (j : J) (rest : List J) (e : AppError)
      (hs : s.future = .adding (j :: rest)) :
      Step sys s .addJobFails { s with future := .returned (.err e) }
  | spawnSignal {s : State J T H} (hs : s.future = .adding []) :
      Step sys s .spawnSignal { s with future := .starting, signal := .waiting }
  | start {s : State J T H} (hs : s.future = .starting) :
      Step sys s .start
        { s with future := .returned (.ok "job schedule started"), cron := .running }
  | startFails {s : State J T H} (e : AppError) (hs : s.future = .starting) :
      Step sys s .startFails { s with future := .returned (.err e) }
  | shutdownCron {s : State J T H} (hs : s.signal = .waiting) :
      Step sys s .shutdownCron { s with signal := .done, cron := .stopped }
  | shutdownFails {s : State J T H} (hs : s.signal = .waiting) :
      Step sys s .shutdownFails { s with signal := .done }
  | fire {s : State J T H} (j : J) (hs : s.cron = .running) (hj : j ∈ s.added) :
      Step sys s (.fire j) s
  | endTask {s : State J T H} (pre post : List (Handle T)) (t : T) (e : TaskEnd)
      (hs : s.main = .joining (pre ++ .task t none :: post)) (he : sys.mayEnd t s.stopped e) :
      Step sys s (.endTask t e) { s with main := .joining (pre ++ .task t (some e) :: post) }
  | joinJob {s : State J T H} (rest : List (Handle T)) (e : TaskEnd)
      (hs : s.main = .joining (.job :: rest)) (he : s.future = .returned e) :
      Step sys s (.join none) { s with main := joined rest e }
  | joinTask {s : State J T H} (rest : List (Handle T)) (t : T) (e : TaskEnd)
      (hs : s.main = .joining (.task t (some e) :: rest)) :
      Step sys s (.join (some t)) { s with main := joined rest e }
  | publishBefore {s : State J T H} (hs : s.main = .joining []) :
      Step sys s (.publish .beforeHooks)
        { s with main := next (.hooks sys.hooks.reverse) (sys.onShutdown .beforeHooks) }
  | beginHook {s : State J T H} (h : H) (rest : List H) (hs : s.main = .hooks (h :: rest)) :
      Step sys s (.beginHook h) { s with main := .inHook h rest }
  | endHook {s : State J T H} (h : H) (rest : List H) (hs : s.main = .inHook h rest) :
      Step sys s (.endHook h) { s with main := next (.hooks rest) (sys.hook h) }
  | publishAfter {s : State J T H} (hs : s.main = .hooks []) :
      Step sys s (.publish .afterHooks)
        { s with main := next .finished (sys.onShutdown .afterHooks) }

/-- In every run no hook begins before the cron scheduler is shut down, and no job fires
once a hook has begun. -/
def HooksAfterCron (sys : System J T H) : Prop :=
  ∀ acts s, Run (Step sys) (init sys) acts s →
    (∀ h t, Step sys s (.beginHook h) t → s.cron = .stopped) ∧
      ∀ j t, Step sys s (.fire j) t → ∀ h, .beginHook h ∉ acts

/-- The task ends only after the job future has returned and the cron scheduler has been
shut down, unless it panics. -/
def Waits (sys : System J T H) (t : T) : Prop :=
  ∀ e, sys.mayEnd t false e → e = .panicked

/-! ## The run loop of the system is `AppBuilder::schedule` -/

/-- The closures of the builder: tasks (`none` is the job future) and hooks. -/
abbrev Closure (T H : Type) := Option T ⊕ H

def Handle.task? : Handle T → Option T
  | .job => none
  | .task t _ => some t

/-- What is still to be seen of `schedule` if nothing fails. -/
def Main.todo (hooks : List H) : Main T H → List (Event (Closure T H))
  | .joining handles =>
      (handles.map fun h => .joined (.inl h.task?)) ++ (.shutdown .beforeHooks ::
        ((hooks.reverse.map fun h => .hook (.inr h)) ++ [.shutdown .afterHooks]))
  | .hooks rest | .inHook _ rest =>
      (rest.map fun h => .hook (.inr h)) ++ [.shutdown .afterHooks]
  | .finished | .failed _ => []

def Main.hasFailed : Main T H → Prop
  | .failed _ => True
  | _ => False

def observe : Act J T H → List (Event (Closure T H))
  | .join t => [.joined (.inl t)]
  | .publish phase => [.shutdown phase]
  | .beginHook h => [.hook (.inr h)]
  | _ => []

def builder (sys : System J T H) : AppBuilder Unit Unit (Closure T H) where
  pluginRegistry := .empty
  components := ∅
  config := ()
  schedulers := (sys.before.map fun t => .inl (some t)) ++
    .inl none :: sys.after.map fun t => .inl (some t)
  shutdownHooks := sys.hooks.map .inr

theorem observe_step {sys : System J T H} {s t : State J T H} {a : Act J T H}
    (h : Step sys s a t) (ht : ¬ t.main.hasFailed) :
    ¬ s.main.hasFailed ∧ observe a ++ t.main.todo sys.hooks = s.main.todo sys.hooks := by
  cases h with
  | endTask pre post u e hm he =>
      rw [hm]
      refine ⟨id, ?_⟩
      simp only [observe, Main.todo, List.map_append, List.map_cons, Handle.task?,
        List.nil_append]
  | joinJob rest e hm he =>
      rw [hm]
      cases e with
      | panicked => exact absurd trivial ht
      | _ => exact ⟨id, rfl⟩
  | joinTask rest u e hm =>
      rw [hm]
      cases e with
      | panicked => exact absurd trivial ht
      | _ => exact ⟨id, rfl⟩
  | publishBefore hm =>
      rw [hm]
      revert ht
      cases sys.onShutdown .beforeHooks with
      | ok u => exact fun _ => ⟨id, rfl⟩
      | error e => exact fun ht => absurd trivial ht
  | beginHook h rest hm =>
      rw [hm]
      exact ⟨id, rfl⟩
  | endHook h rest hm =>
      rw [hm]
      revert ht
      cases sys.hook h with
      | ok u => exact fun _ => ⟨id, rfl⟩
      | error e => exact fun ht => absurd trivial ht
  | publishAfter hm =>
      rw [hm]
      revert ht
      cases sys.onShutdown .afterHooks with
      | ok u => exact fun _ => ⟨id, rfl⟩
      | error e => exact fun ht => absurd trivial ht
  | _ => exact ⟨ht, rfl⟩

theorem observe_run {sys : System J T H} {s t : State J T H} {acts : List (Act J T H)}
    (h : Run (Step sys) s acts t) (ht : ¬ t.main.hasFailed) :
    ¬ s.main.hasFailed ∧
      acts.flatMap observe ++ t.main.todo sys.hooks = s.main.todo sys.hooks := by
  induction h with
  | nil s => exact ⟨ht, rfl⟩
  | cons hstep _ ih =>
      have hrest := ih ht
      have hfirst := observe_step hstep hrest.1
      refine ⟨hfirst.1, ?_⟩
      rw [List.flatMap_cons, List.append_assoc, hrest.2, hfirst.2]

/-- A run that finishes shows what `schedule` shows when no task panics and no hook
fails. -/
theorem finished_trace {sys : System J T H} {s : State J T H} {acts : List (Act J T H)}
    (h : Run (Step sys) (init sys) acts s) (hs : s.main = .finished)
    {cl : Closures Unit Unit (Closure T H)}
    (hbuilt : cl.onAppBuilt (builder sys).buildApp = .ok ())
    (hshutdown : ∀ phase, cl.onShutdown (builder sys).buildApp phase = .ok ())
    (hok : AppBuilder.NothingFails cl (builder sys)) :
    (AppBuilder.schedule cl (builder sys)).trace =
      (builder sys).schedulers.map .spawned ++ acts.flatMap observe := by
  have hrun := (observe_run h (by rw [hs]; exact id)).2
  rw [hs, Main.todo, List.append_nil] at hrun
  rw [AppBuilder.schedule_trace_of_nothingFails hbuilt hshutdown hok, hrun,
    AppBuilder.fullTrace]
  simp [init, Main.todo, builder, Handle.task?, Function.comp_def]

/-! ## A task that waits protects the hooks -/

/-- `schedule` has not passed a handle that waits, or the cron scheduler is down for
good. -/
def Guarded (sys : System J T H) (s : State J T H) : Prop :=
  s.stopped = true ∨
    match s.main with
    | .joining handles => ∃ t ∈ sys.before ++ sys.after, Waits sys t ∧
        (Handle.task t none ∈ handles ∨ Handle.task t (some .panicked) ∈ handles)
    | .failed _ => True
    | _ => False

theorem stopped_iff {s : State J T H} :
    s.stopped = true ↔ (∃ e, s.future = .returned e) ∧ s.cron = .stopped := by
  unfold State.stopped State.returned
  cases s.future <;> simp

/-- Once the job future has returned, nothing starts the cron scheduler again. -/
theorem stopped_step {sys : System J T H} {s t : State J T H} {a : Act J T H}
    (h : Step sys s a t) (hs : s.stopped = true) : t.stopped = true := by
  obtain ⟨⟨e, hfuture⟩, hcron⟩ := stopped_iff.mp hs
  rw [stopped_iff]
  cases h with
  | addJob j rest hf => rw [hfuture] at hf; cases hf
  | addJobFails j rest e hf => rw [hfuture] at hf; cases hf
  | spawnSignal hf => rw [hfuture] at hf; cases hf
  | start hf => rw [hfuture] at hf; cases hf
  | startFails e hf => rw [hfuture] at hf; cases hf
  | shutdownCron hsig => exact ⟨⟨e, hfuture⟩, rfl⟩
  | _ => exact ⟨⟨e, hfuture⟩, hcron⟩

theorem guarded_init {sys : System J T H} {t : T} (ht : t ∈ sys.before ++ sys.after)
    (hw : Waits sys t) : Guarded sys (init sys) := by
  right
  show ∃ t ∈ sys.before ++ sys.after, _
  refine ⟨t, ht, hw, Or.inl ?_⟩
  rw [List.mem_reverse]
  rcases List.mem_append.mp ht with ht | ht
  · exact List.mem_append_left _ (List.mem_map_of_mem ht)
  · exact List.mem_append_right _ (List.mem_cons_of_mem _ (List.mem_map_of_mem ht))

theorem mem_replaced {α : Type*} {pre post : List α} {old new x : α} (h : x ∈ pre ++ old :: post) :
    x = old ∨ x ∈ pre ++ new :: post := by
  rcases List.mem_append.mp h with h | h
  · exact Or.inr (List.mem_append_left _ h)
  · rcases List.mem_cons.mp h with heq | h
    · exact Or.inl heq
    · exact Or.inr (List.mem_append_right _ (List.mem_cons_of_mem _ h))

/-- `schedule` joins a handle: if its task has panicked, `schedule` fails. -/
theorem guarded_joined {sys : System J T H} {s : State J T H} {handle : Handle T}
    {rest : List (Handle T)} {e : TaskEnd}
    (hwait : ∃ v ∈ sys.before ++ sys.after, Waits sys v ∧
      (Handle.task v none ∈ handle :: rest ∨ Handle.task v (some .panicked) ∈ handle :: rest))
    (hended : ∀ v, handle ≠ .task v none)
    (hpanicked : ∀ v, handle = .task v (some .panicked) → e = .panicked) :
    Guarded sys { s with main := joined rest e } := by
  right
  obtain ⟨v, hv, hw, hmem⟩ := hwait
  have hrest : e ≠ .panicked →
      Handle.task v none ∈ rest ∨ Handle.task v (some .panicked) ∈ rest := by
    intro hne
    rcases hmem with hmem | hmem
    · rcases List.mem_cons.mp hmem with heq | hmem
      · exact absurd heq.symm (hended v)
      · exact Or.inl hmem
    · rcases List.mem_cons.mp hmem with heq | hmem
      · exact absurd (hpanicked v heq.symm) hne
      · exact Or.inr hmem
  cases e with
  | panicked => trivial
  | _ => exact ⟨v, hv, hw, hrest (by nofun)⟩

theorem guarded_step {sys : System J T H} {s t : State J T H} {a : Act J T H}
    (h : Step sys s a t) (hs : Guarded sys s) : Guarded sys t := by
  rcases hs with hs | hs
  · exact Or.inl (stopped_step h hs)
  cases h with
  | addJob j rest hf => exact Or.inr hs
  | addJobFails j rest e hf => exact Or.inr hs
  | spawnSignal hf => exact Or.inr hs
  | start hf => exact Or.inr hs
  | startFails e hf => exact Or.inr hs
  | shutdownCron hsig => exact Or.inr hs
  | shutdownFails hsig => exact Or.inr hs
  | fire j hcron hj => exact Or.inr hs
  | endTask pre post u e hm he =>
      by_cases hstop : s.stopped = true
      · exact Or.inl hstop
      rw [Bool.not_eq_true] at hstop
      rw [hstop] at he
      rw [hm] at hs
      obtain ⟨v, hv, hw, hmem⟩ := hs
      refine Or.inr ⟨v, hv, hw, ?_⟩
      rcases hmem with hmem | hmem
      · rcases mem_replaced hmem with heq | hmem
        · -- the waiting task itself has ended, and not in time to have waited
          cases heq
          have hpanicked := hw e he
          subst hpanicked
          exact Or.inr (List.mem_append_right _ List.mem_cons_self)
        · exact Or.inl hmem
      · rcases mem_replaced hmem with heq | hmem
        · cases heq
        · exact Or.inr hmem
  | joinJob rest e hm he =>
      rw [hm] at hs
      exact guarded_joined hs (fun _ => by nofun) (fun _ heq => by cases heq)
  | joinTask rest u e hm =>
      rw [hm] at hs
      refine guarded_joined hs (fun _ => by nofun) ?_
      intro v heq
      cases heq
      rfl
  | publishBefore hm =>
      rw [hm] at hs
      obtain ⟨v, _, _, hmem⟩ := hs
      rcases hmem with hmem | hmem <;> exact absurd hmem List.not_mem_nil
  | beginHook h rest hm =>
      rw [hm] at hs
      exact absurd hs id
  | endHook h rest hm =>
      rw [hm] at hs
      exact absurd hs id
  | publishAfter hm =>
      rw [hm] at hs
      exact absurd hs id

theorem stopped_of_guarded {sys : System J T H} {s t : State J T H} {h : H}
    (hs : Guarded sys s) (hstep : Step sys s (.beginHook h) t) : s.stopped = true := by
  rcases hs with hs | hs
  · exact hs
  · cases hstep with
    | beginHook h rest hm =>
        rw [hm] at hs
        exact absurd hs id

/-- A hook in the run means that the cron scheduler is down from then on. -/
theorem stopped_after_hook {sys : System J T H} {s t : State J T H} {acts : List (Act J T H)}
    (hrun : Run (Step sys) s acts t) (hs : Guarded sys s) {h : H} (hmem : .beginHook h ∈ acts) :
    t.stopped = true := by
  induction hrun with
  | nil s => exact absurd hmem List.not_mem_nil
  | cons hstep hrest ih =>
      rcases List.mem_cons.mp hmem with heq | hmem
      · subst heq
        have hstop := stopped_step hstep (stopped_of_guarded hs hstep)
        exact hrest.invariant (I := fun s => s.stopped = true)
          (fun _ _ _ h h' => stopped_step h h') hstop
      · exact ih (guarded_step hstep hs) hmem

theorem hooksAfterCron_of_waits {sys : System J T H} {t : T} (ht : t ∈ sys.before ++ sys.after)
    (hw : Waits sys t) : HooksAfterCron sys := by
  intro acts s hrun
  have hguarded : Guarded sys s :=
    hrun.invariant (I := Guarded sys) (fun _ _ _ h h' => guarded_step h h') (guarded_init ht hw)
  constructor
  · intro h u hstep
    exact (stopped_iff.mp (stopped_of_guarded hguarded hstep)).2
  · intro j u hstep h hmem
    have hstop := stopped_after_hook hrun (guarded_init ht hw) hmem
    have hcron := (stopped_iff.mp hstop).2
    cases hstep with
    | fire j hrunning hj =>
        rw [hcron] at hrunning
        cases hrunning

/-! ## Runs without hooks -/

/-- No hook is left to run. -/
def NoHook (s : State J T H) : Prop :=
  match s.main with
  | .hooks (_ :: _) | .inHook _ _ => False
  | _ => True

theorem noHook_step {sys : System J T H}
    (hnone : sys.hooks = [] ∨ ∃ e, sys.onShutdown .beforeHooks = .error e)
    {s t : State J T H} {a : Act J T H} (h : Step sys s a t) (hs : NoHook s) : NoHook t := by
  cases h with
  | endTask pre post u e hm he => trivial
  | joinJob rest e hm he => cases e <;> trivial
  | joinTask rest u e hm => cases e <;> trivial
  | publishBefore hm =>
      show NoHook { s with main := next (.hooks sys.hooks.reverse) (sys.onShutdown .beforeHooks) }
      rcases hnone with hnil | ⟨e, he⟩
      · rw [hnil]
        cases sys.onShutdown .beforeHooks <;> trivial
      · rw [he]
        trivial
  | beginHook h rest hm =>
      unfold NoHook at hs
      rw [hm] at hs
      exact absurd hs id
  | endHook h rest hm =>
      unfold NoHook at hs
      rw [hm] at hs
      exact absurd hs id
  | publishAfter hm =>
      show NoHook { s with main := next .finished (sys.onShutdown .afterHooks) }
      cases sys.onShutdown .afterHooks <;> trivial
  | _ => exact hs

theorem no_beginHook {sys : System J T H} {s t : State J T H} {h : H} (hs : NoHook s)
    (hstep : Step sys s (.beginHook h) t) : False := by
  cases hstep with
  | beginHook h rest hm =>
      unfold NoHook at hs
      rw [hm] at hs
      exact hs

theorem beginHook_not_mem {sys : System J T H}
    (hnone : sys.hooks = [] ∨ ∃ e, sys.onShutdown .beforeHooks = .error e)
    {s t : State J T H} {acts : List (Act J T H)} (hrun : Run (Step sys) s acts t)
    (hs : NoHook s) (h : H) : .beginHook h ∉ acts := by
  induction hrun with
  | nil s => exact List.not_mem_nil
  | cons hstep _ ih =>
      intro hmem
      rcases List.mem_cons.mp hmem with heq | hmem
      · subst heq
        exact no_beginHook hs hstep
      · exact ih (noHook_step hnone hstep hs) hmem

theorem hooksAfterCron_of_noHook {sys : System J T H}
    (hnone : sys.hooks = [] ∨ ∃ e, sys.onShutdown .beforeHooks = .error e) :
    HooksAfterCron sys := by
  intro acts s hrun
  have hs : NoHook s :=
    hrun.invariant (I := NoHook) (fun _ _ _ h h' => noHook_step hnone h h') trivial
  exact ⟨fun h t hstep => (no_beginHook hs hstep).elim,
    fun _ _ _ h => beginHook_not_mem hnone hrun trivial h⟩

/-! ## A run in which the hooks do not wait -/

theorem run_addJobs {sys : System J T H} {jobs : List J} {s : State J T H}
    (hs : s.future = .adding jobs) :
    ∃ acts t, Run (Step sys) s acts t ∧ t.future = .adding [] ∧ t.main = s.main := by
  induction jobs generalizing s with
  | nil => exact ⟨[], s, .nil s, hs, rfl⟩
  | cons j rest ih =>
      have hstep : Step sys s (.addJob j)
          { s with future := .adding rest, added := s.added ++ [j] } := .addJob j rest hs
      obtain ⟨acts, t, hrun, hfuture, hmain⟩ :=
        @ih { s with future := .adding rest, added := s.added ++ [j] } rfl
      exact ⟨_, t, .cons hstep hrun, hfuture, hmain⟩

/-- The job future returns with the cron scheduler running. -/
theorem run_start (sys : System J T H) :
    ∃ acts t, Run (Step sys) (init sys) acts t ∧ t.main = (init sys).main ∧
      t.future = .returned (.ok "job schedule started") ∧ t.cron = .running := by
  obtain ⟨acts, s, hrun, hfuture, hmain⟩ := @run_addJobs J T H sys sys.jobs (init sys) rfl
  let s' : State J T H := { s with future := .starting, signal := .waiting }
  have hspawn : Step sys s .spawnSignal s' := .spawnSignal hfuture
  have hstart : Step sys s' .start
      { s' with future := .returned (.ok "job schedule started"), cron := .running } :=
    .start rfl
  exact ⟨_, _, (hrun.snoc hspawn).snoc hstart, hmain, rfl, rfl⟩

theorem joined_of_ne {rest : List (Handle T)} {e : TaskEnd} (he : e ≠ .panicked) :
    (joined rest e : Main T H) = .joining rest := by
  cases e with
  | panicked => exact absurd rfl he
  | _ => rfl

/-- The handles of a list of tasks none of which waits can all be joined while the cron
scheduler runs. -/
theorem run_joinAll {sys : System J T H} {handles : List (Handle T)} {s : State J T H}
    (hmain : s.main = .joining handles)
    (hhandles : ∀ h ∈ handles, h = .job ∨ ∃ t, h = .task t none ∧ ¬ Waits sys t)
    (hfuture : s.future = .returned (.ok "job schedule started")) (hcron : s.cron = .running) :
    ∃ acts t, Run (Step sys) s acts t ∧ t.main = .joining [] ∧ t.cron = .running := by
  induction handles generalizing s with
  | nil => exact ⟨[], s, .nil s, hmain, hcron⟩
  | cons h rest ih =>
      have hrest : ∀ h ∈ rest, h = .job ∨ ∃ t, h = .task t none ∧ ¬ Waits sys t :=
        fun h' h'mem => hhandles h' (List.mem_cons_of_mem _ h'mem)
      rcases hhandles h List.mem_cons_self with rfl | ⟨t, rfl, ht⟩
      · have hjoin : Step sys s (.join none) { s with main := .joining rest } :=
          .joinJob rest _ hmain hfuture
        obtain ⟨acts, u, hrun, hdone⟩ :=
          @ih { s with main := .joining rest } rfl hrest hfuture hcron
        exact ⟨_, u, .cons hjoin hrun, hdone⟩
      · unfold Waits at ht
        simp only [not_forall, exists_prop] at ht
        obtain ⟨e, hmay, hne⟩ := ht
        have hstop : s.stopped = false := by
          rw [← Bool.not_eq_true, stopped_iff, hcron]
          exact fun h => by cases h.2
        let s' : State J T H := { s with main := .joining (.task t (some e) :: rest) }
        have hend : Step sys s (.endTask t e) s' :=
          .endTask [] rest t e hmain (hstop ▸ hmay)
        have hjoin : Step sys s' (.join (some t)) { s' with main := joined rest e } :=
          .joinTask rest t e rfl
        obtain ⟨acts, u, hrun, hdone⟩ :=
          @ih { s' with main := joined rest e } (joined_of_ne hne) hrest hfuture hcron
        exact ⟨_, u, .cons hend (.cons hjoin hrun), hdone⟩

theorem not_hooksAfterCron {sys : System J T H} (hhooks : sys.hooks ≠ [])
    (hbefore : ∀ e, sys.onShutdown .beforeHooks ≠ .error e)
    (htasks : ∀ t ∈ sys.before ++ sys.after, ¬ Waits sys t) : ¬ HooksAfterCron sys := by
  intro hall
  obtain ⟨acts, s, hrun, hmain, hfuture, hcron⟩ := run_start sys
  have hhandles : ∀ h ∈ ((sys.before.map fun t => Handle.task t none) ++
      .job :: sys.after.map fun t => Handle.task t none).reverse,
      h = .job ∨ ∃ t, h = .task t none ∧ ¬ Waits sys t := by
    intro h hmem
    simp only [List.mem_reverse, List.mem_append, List.mem_cons, List.mem_map] at hmem
    rcases hmem with ⟨t, ht, rfl⟩ | rfl | ⟨t, ht, rfl⟩
    · exact Or.inr ⟨t, rfl, htasks t (List.mem_append_left _ ht)⟩
    · exact Or.inl rfl
    · exact Or.inr ⟨t, rfl, htasks t (List.mem_append_right _ ht)⟩
  obtain ⟨acts', u, hrun', hmain', hcron'⟩ := run_joinAll hmain hhandles hfuture hcron
  have hpublish : Step sys u (.publish .beforeHooks)
      { u with main := next (.hooks sys.hooks.reverse) (sys.onShutdown .beforeHooks) } :=
    .publishBefore hmain'
  have hnext : next (.hooks sys.hooks.reverse : Main T H) (sys.onShutdown .beforeHooks) =
      .hooks sys.hooks.reverse := by
    cases h : sys.onShutdown .beforeHooks with
    | ok u => rfl
    | error e => exact absurd h (hbefore e)
  rw [hnext] at hpublish
  obtain ⟨h, rest, hcons⟩ := List.exists_cons_of_ne_nil
    (mt List.reverse_eq_nil_iff.mp hhooks)
  have hbegin := (hall _ _ ((hrun.append hrun').snoc hpublish)).1 h _ (.beginHook h rest (by
    show Main.hooks sys.hooks.reverse = _
    rw [hcons]))
  rw [hcron'] at hbegin
  cases hbegin

/-- Hooks and jobs stay apart in every run exactly when no hook is registered, or the
listeners of `BeforeHooks` fail, or another task waits for the cron scheduler. -/
theorem hooksAfterCron_iff (sys : System J T H) :
    HooksAfterCron sys ↔
      sys.hooks = [] ∨ (∃ e, sys.onShutdown .beforeHooks = .error e) ∨
        ∃ t ∈ sys.before ++ sys.after, Waits sys t := by
  constructor
  · intro h
    by_contra hnot
    simp only [not_or, not_exists, not_and] at hnot
    exact not_hooksAfterCron hnot.1 hnot.2.1 hnot.2.2 h
  · rintro (hhooks | hbefore | ⟨t, ht, hw⟩)
    · exact hooksAfterCron_of_noHook (Or.inl hhooks)
    · exact hooksAfterCron_of_noHook (Or.inr hbefore)
    · exact hooksAfterCron_of_waits ht hw

namespace Sample

/-- `JobPlugin` and `SqlxPlugin`: one cron job, and a hook that closes the pool. -/
def readme : System String Empty String where
  jobs := ["cron_job"]
  before := []
  after := []
  hooks := ["close_db_connection"]
  mayEnd := fun _ _ _ => True
  onShutdown := fun _ => .ok ()
  hook := .ok

end Sample

/-- The pool is closed right after the start, and the cron job fires on a closed pool. -/
theorem readme_fires_after_hook :
    (∃ s, Run (Step Sample.readme) (init Sample.readme)
      [.addJob "cron_job", .spawnSignal, .start, .join none, .publish .beforeHooks,
        .beginHook "close_db_connection", .fire "cron_job"] s ∧ s.cron = .running) ∧
      ¬ HooksAfterCron Sample.readme := by
  have hrun : Run (Step Sample.readme) (init Sample.readme)
      [.addJob "cron_job", .spawnSignal, .start, .join none, .publish .beforeHooks] _ :=
    .cons (.addJob "cron_job" [] rfl) (.cons (.spawnSignal rfl) (.cons (.start rfl)
      (.cons (.joinJob [] _ rfl rfl) (.cons (.publishBefore rfl) (.nil _)))))
  have hhook := hrun.snoc (.beginHook "close_db_connection" [] rfl)
  refine ⟨⟨_, hhook.snoc (.fire "cron_job" rfl List.mem_cons_self), rfl⟩, fun hall => ?_⟩
  exact (hall _ _ hhook).2 "cron_job" _ (.fire "cron_job" rfl List.mem_cons_self)
    "close_db_connection" (by simp)

end JobPlugin
end Summer
