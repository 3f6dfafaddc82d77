/-
`AppBuilder::schedule` (`summer/src/app.rs`): the scheduled tasks, then the shutdown hooks.

The closures of tasks and hooks are opaque values; how they end is a parameter.  A stage is
a piece of the function with what can be observed of it and its result, and `?` is
`Stage.andThen`: what follows a stage runs only if the stage returned `Ok`.
-/
import Summer.App.Builder

namespace Summer

/-- How `handle.await` of a spawned task ends; a panic of the task is a `JoinError`. -/
inductive TaskEnd
  | ok (msg : String)
  | err (e : AppError)
  | panicked
deriving DecidableEq, Repr

inductive ShutdownPhase
  | beforeHooks
  | afterHooks
deriving DecidableEq, Repr

/-- The running application: what `build_app` takes out of the builder. -/
structure App (V C : Type) where
  components : AList (fun _ : TypeId => V)
  config : C

/-- What the closures and the event listeners do once the application is built. -/
structure Closures (V C T : Type) where
  task : App V C → T → TaskEnd
  hook : App V C → T → Except AppError String
  onAppBuilt : App V C → Except AppError Unit
  onShutdown : App V C → ShutdownPhase → Except AppError Unit

/-- What can be observed while `schedule` runs. -/
inductive Event (T : Type)
  | spawned (task : T)
  | joined (task : T)
  | shutdown (phase : ShutdownPhase)
  | hook (hook : T)
deriving DecidableEq, Repr

structure Stage (T : Type) where
  trace : List (Event T)
  result : Except AppError Unit

def Stage.andThen {T : Type} (a b : Stage T) : Stage T :=
  match a.result with
  | .ok () => { trace := a.trace ++ b.trace, result := b.result }
  | .error e => { trace := a.trace, result := .error e }

namespace Stage

variable {T : Type}

theorem andThen_ok {a b : Stage T} (h : a.result = .ok ()) :
    a.andThen b = { trace := a.trace ++ b.trace, result := b.result } := by
  unfold andThen
  rw [h]

theorem andThen_error {a b : Stage T} {e : AppError} (h : a.result = .error e) :
    a.andThen b = { trace := a.trace, result := .error e } := by
  unfold andThen
  rw [h]

theorem andThen_result_ok {a b : Stage T} :
    (a.andThen b).result = .ok () ↔ a.result = .ok () ∧ b.result = .ok () := by
  cases h : a.result with
  | ok u =>
      rw [andThen_ok h]
      simp only [true_and]
  | error e =>
      rw [andThen_error h]
      simp only [reduceCtorEq, false_and]

/-- An event that only the second stage can show is shown when the first one returns. -/
theorem mem_andThen {a b : Stage T} {ev : Event T} (hev : ev ∉ a.trace) :
    ev ∈ (a.andThen b).trace ↔ a.result = .ok () ∧ ev ∈ b.trace := by
  cases h : a.result with
  | ok u =>
      rw [andThen_ok h]
      simp only [List.mem_append, hev, false_or, true_and]
  | error e =>
      rw [andThen_error h]
      simp only [hev, reduceCtorEq, false_and]

end Stage

namespace AppBuilder

variable {V C T : Type}

def buildApp (builder : AppBuilder V C T) : App V C :=
  { components := builder.components, config := builder.config }

def spawnAll (schedulers : List T) : Stage T :=
  { trace := schedulers.map .spawned, result := .ok () }

/-- The handles in the order they are popped.  An `Err` of a task is logged; `?` is on the
`JoinError`. -/
def joinAll (cl : Closures V C T) (app : App V C) : List T → Stage T
  | [] => { trace := [], result := .ok () }
  | task :: handles =>
    Stage.andThen
      { trace := [.joined task],
        result :=
          match cl.task app task with
          | .panicked => .error .joinError
          | _ => .ok () }
      (joinAll cl app handles)

def publishShutdown (cl : Closures V C T) (app : App V C) (phase : ShutdownPhase) : Stage T :=
  { trace := [.shutdown phase], result := cl.onShutdown app phase }

/-- The hooks in the order they are popped. -/
def runHooks (cl : Closures V C T) (app : App V C) : List T → Stage T
  | [] => { trace := [], result := .ok () }
  | hook :: hooks =>
    Stage.andThen
      { trace := [.hook hook], result := (cl.hook app hook).map fun _ => () }
      (runHooks cl app hooks)

/-- `handles.pop()` and `shutdown_hooks.pop()` take the last element. -/
def schedule (cl : Closures V C T) (builder : AppBuilder V C T) : Stage T :=
  let app := builder.buildApp
  Stage.andThen { trace := [], result := cl.onAppBuilt app } <|
  Stage.andThen (spawnAll builder.schedulers) <|
  Stage.andThen (joinAll cl app builder.schedulers.reverse) <|
  Stage.andThen (publishShutdown cl app .beforeHooks) <|
  Stage.andThen (runHooks cl app builder.shutdownHooks.reverse) <|
  publishShutdown cl app .afterHooks

/-! ## What the loops show -/

theorem joinAll_result (cl : Closures V C T) (app : App V C) (handles : List T) :
    (joinAll cl app handles).result = .ok () ↔
      ∀ task ∈ handles, cl.task app task ≠ .panicked := by
  induction handles with
  | nil => simp only [joinAll, List.not_mem_nil, false_implies, implies_true]
  | cons task handles ih =>
      unfold joinAll
      rw [Stage.andThen_result_ok, ih, List.forall_mem_cons]
      apply and_congr_left
      intro _
      cases cl.task app task <;> simp

theorem joinAll_trace_of_ok {cl : Closures V C T} {app : App V C} {handles : List T}
    (h : (joinAll cl app handles).result = .ok ()) :
    (joinAll cl app handles).trace = handles.map .joined := by
  induction handles with
  | nil => rfl
  | cons task handles ih =>
      unfold joinAll at h ⊢
      have hparts := Stage.andThen_result_ok.mp h
      rw [Stage.andThen_ok hparts.1, ih hparts.2]
      rfl

theorem runHooks_result (cl : Closures V C T) (app : App V C) (hooks : List T) :
    (runHooks cl app hooks).result = .ok () ↔
      ∀ hook ∈ hooks, ∃ msg, cl.hook app hook = .ok msg := by
  induction hooks with
  | nil => simp only [runHooks, List.not_mem_nil, false_implies, implies_true]
  | cons hook hooks ih =>
      unfold runHooks
      rw [Stage.andThen_result_ok, ih, List.forall_mem_cons]
      apply and_congr_left
      intro _
      cases cl.hook app hook <;> simp [Except.map]

theorem runHooks_trace_of_ok {cl : Closures V C T} {app : App V C} {hooks : List T}
    (h : (runHooks cl app hooks).result = .ok ()) :
    (runHooks cl app hooks).trace = hooks.map .hook := by
  induction hooks with
  | nil => rfl
  | cons hook hooks ih =>
      unfold runHooks at h ⊢
      have hparts := Stage.andThen_result_ok.mp h
      rw [Stage.andThen_ok hparts.1, ih hparts.2]
      rfl

/-- Joining shows no shutdown event. -/
theorem shutdown_not_mem_joinAll (cl : Closures V C T) (app : App V C) (handles : List T)
    (phase : ShutdownPhase) : .shutdown phase ∉ (joinAll cl app handles).trace := by
  induction handles with
  | nil => exact List.not_mem_nil
  | cons task handles ih =>
      unfold joinAll
      rw [Stage.mem_andThen (by simp)]
      exact fun h => ih h.2

theorem shutdown_not_mem_runHooks (cl : Closures V C T) (app : App V C) (hooks : List T)
    (phase : ShutdownPhase) : .shutdown phase ∉ (runHooks cl app hooks).trace := by
  induction hooks with
  | nil => exact List.not_mem_nil
  | cons hook hooks ih =>
      unfold runHooks
      rw [Stage.mem_andThen (by simp)]
      exact fun h => ih h.2

/-! ## The whole function -/

/-- All tasks, then every hook once, last registered first, between the two events. -/
def fullTrace (builder : AppBuilder V C T) : List (Event T) :=
  builder.schedulers.map .spawned ++ (builder.schedulers.reverse.map .joined ++
    (.shutdown .beforeHooks :: (builder.shutdownHooks.reverse.map .hook ++
      [.shutdown .afterHooks])))

/-- No task panics and no hook returns an error. -/
def NothingFails (cl : Closures V C T) (builder : AppBuilder V C T) : Prop :=
  (∀ task ∈ builder.schedulers, cl.task builder.buildApp task ≠ .panicked) ∧
    ∀ hook ∈ builder.shutdownHooks, ∃ msg, cl.hook builder.buildApp hook = .ok msg

section
variable {cl : Closures V C T} {builder : AppBuilder V C T}
  (hbuilt : cl.onAppBuilt builder.buildApp = .ok ())
  (hshutdown : ∀ phase, cl.onShutdown builder.buildApp phase = .ok ())
include hbuilt hshutdown

theorem afterHooks_mem_schedule :
    .shutdown .afterHooks ∈ (schedule cl builder).trace ↔ NothingFails cl builder := by
  have hjoin := joinAll_result cl builder.buildApp builder.schedulers.reverse
  have hhooks := runHooks_result cl builder.buildApp builder.shutdownHooks.reverse
  simp only [List.mem_reverse] at hjoin hhooks
  unfold schedule NothingFails
  rw [Stage.andThen_ok hbuilt, List.nil_append, Stage.mem_andThen (by simp [spawnAll]),
    Stage.mem_andThen (shutdown_not_mem_joinAll _ _ _ _),
    Stage.mem_andThen (by simp [publishShutdown]),
    Stage.mem_andThen (shutdown_not_mem_runHooks _ _ _ _), hjoin, hhooks]
  simp only [spawnAll, publishShutdown, hshutdown, List.mem_singleton, and_true, true_and]

theorem schedule_trace_of_nothingFails (h : NothingFails cl builder) :
    (schedule cl builder).trace = builder.fullTrace := by
  have hjoin : (joinAll cl builder.buildApp builder.schedulers.reverse).result = .ok () := by
    rw [joinAll_result]
    intro task htask
    exact h.1 task (List.mem_reverse.mp htask)
  have hhooks : (runHooks cl builder.buildApp builder.shutdownHooks.reverse).result =
      .ok () := by
    rw [runHooks_result]
    intro hook hhook
    exact h.2 hook (List.mem_reverse.mp hhook)
  have hbefore : (publishShutdown cl builder.buildApp .beforeHooks).result = .ok () :=
    hshutdown .beforeHooks
  unfold schedule fullTrace
  rw [Stage.andThen_ok hbuilt, Stage.andThen_ok rfl, Stage.andThen_ok hjoin,
    Stage.andThen_ok hbefore, Stage.andThen_ok hhooks, joinAll_trace_of_ok hjoin,
    runHooks_trace_of_ok hhooks]
  rfl

/-- With listeners that succeed, `schedule` goes through all tasks, both events and every
hook exactly when no task panics and no hook fails. -/
theorem schedule_trace_iff :
    (schedule cl builder).trace = builder.fullTrace ↔ NothingFails cl builder := by
  constructor
  · intro h
    apply (afterHooks_mem_schedule hbuilt hshutdown).mp
    rw [h]
    simp only [fullTrace, List.mem_append, List.mem_cons, true_or, or_true]
  · exact schedule_trace_of_nothingFails hbuilt hshutdown

end

namespace Sample

/-- A web server task, a pool to close and an instance to deregister. -/
def served : AppBuilder Unit Unit String where
  pluginRegistry := .empty
  components := ∅
  config := ()
  schedulers := ["web"]
  shutdownHooks := ["close pool", "deregister"]

def closures (webEnd : TaskEnd) : Closures Unit Unit String where
  task := fun _ _ => webEnd
  hook := fun _ hook => .ok hook
  onAppBuilt := fun _ => .ok ()
  onShutdown := fun _ _ => .ok ()

end Sample

theorem schedule_trace_iff_sample :
    (schedule (Sample.closures (.ok "web schedule finished")) Sample.served).trace =
        Sample.served.fullTrace ↔
      NothingFails (Sample.closures (.ok "web schedule finished")) Sample.served :=
  schedule_trace_iff rfl fun _ => rfl

/-- One panicking task, and neither event is published nor any hook run. -/
theorem panicked_task_skips_hooks :
    (schedule (Sample.closures .panicked) Sample.served).trace =
        [.spawned "web", .joined "web"] ∧
      (schedule (Sample.closures .panicked) Sample.served).trace ≠ Sample.served.fullTrace :=
  ⟨by decide, by decide⟩

end AppBuilder
end Summer
