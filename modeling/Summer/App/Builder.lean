/-
The application builder (`summer/src/app.rs`): its state and the calls user code makes on
it.

`V` is the type of component values, `C` the configuration and `T` the closures kept as
schedulers and shutdown hooks.  User code enters as a `Program`, a parameter of every
definition that runs it; nothing is assumed of it here.
-/
import Mathlib.Data.List.AList
import Summer.App.Plugin

namespace Summer

/-- The panics of the builder, and those of user code. -/
inductive Panic
  | pluginAdded (name : String)
  | componentAdded (name : String)
  | cyclicDependency
  | user (text : String)
deriving DecidableEq, Repr

def Panic.message : Panic → String
  | .pluginAdded name =>
      "Error adding plugin " ++ name ++ ": plugin was already added in application"
  | .componentAdded name =>
      "Error adding component " ++ name ++ ": component was already added in application"
  | .cyclicDependency =>
      "Cyclic dependency detected or missing dependencies for some plugins"
  | .user text => text

/-- The errors of `AppError` that the modelled functions return or pass on. -/
inductive AppError
  | componentNotExist (name : String)
  | joinError
  | deserializeErr (configPrefix : String) (detail : String)
  | otherError (text : String)
deriving DecidableEq, Repr

/-- How a call that returns `Result` can end early. -/
inductive Abort
  | panic (p : Panic)
  | err (e : AppError)
deriving DecidableEq, Repr

/-- A computation that can only panic, run where errors are returned too. -/
def orPanic {α : Type} : Except Panic α → Except Abort α
  | .ok a => .ok a
  | .error p => .error (.panic p)

theorem bind_ok {ε α β : Type} {x : Except ε α} {f : α → Except ε β} {b : β} :
    x >>= f = .ok b ↔ ∃ a, x = .ok a ∧ f a = .ok b := by
  cases x with
  | error e => exact ⟨fun h => absurd h (by simp [bind, Except.bind]), fun ⟨_, h, _⟩ => by cases h⟩
  | ok a => exact ⟨fun h => ⟨a, rfl, h⟩, fun ⟨_, h, hf⟩ => by cases h; exact hf⟩

theorem orPanic_ok {α : Type} {x : Except Panic α} {a : α} : orPanic x = .ok a ↔ x = .ok a := by
  cases x <;> simp [orPanic]

structure AppBuilder (V C T : Type) where
  pluginRegistry : PluginRegistry
  components : AList (fun _ : TypeId => V)
  config : C
  schedulers : List T
  shutdownHooks : List T

/-- The code that uses the builder: the names of its types, the plugins it submits to the
inventory, and what its callbacks do.  `logPlugin` is `LogPlugin.immediately_build`;
`onConfigEvent` and `onPluginsBuilt` are the listeners of those two events. -/
structure Program (V C T : Type) where
  typeName : TypeId → String
  inventory : List Plugin
  build : Plugin → AppBuilder V C T → Except Panic (AppBuilder V C T)
  immediatelyBuild : Plugin → AppBuilder V C T → Except Panic (AppBuilder V C T)
  onConfigEvent : AppBuilder V C T → Except Abort (AppBuilder V C T)
  logPlugin : AppBuilder V C T → Except Panic (AppBuilder V C T)
  onPluginsBuilt : AppBuilder V C T → Except Abort (AppBuilder V C T)

namespace AppBuilder

variable {V C T : Type}

/-- The check and the insertion that both registration paths share. -/
def register (app : AppBuilder V C T) (r : PluginRef) : Except Panic (AppBuilder V C T) :=
  if h : app.pluginRegistry.containsKey r.name then
    .error (.pluginAdded r.name)
  else
    .ok { app with pluginRegistry := app.pluginRegistry.insert r h }

def addPlugin (prog : Program V C T) (app : AppBuilder V C T) (plugin : Plugin) :
    Except Panic (AppBuilder V C T) :=
  if plugin.immediately then
    prog.immediatelyBuild plugin app
  else
    app.register (PluginRef.new plugin)

/-- One turn of the loop of `add_auto_plugins`: here the name is checked before an
immediate plugin is built. -/
def addAutoPlugin (prog : Program V C T) (app : AppBuilder V C T) (plugin : Plugin) :
    Except Panic (AppBuilder V C T) :=
  if app.pluginRegistry.containsKey plugin.name then
    .error (.pluginAdded plugin.name)
  else if plugin.immediately then
    prog.immediatelyBuild plugin app
  else
    app.register (PluginRef.ofStatic plugin)

def addAutoPlugins (prog : Program V C T) (app : AppBuilder V C T) :
    Except Panic (AppBuilder V C T) :=
  prog.inventory.foldlM (addAutoPlugin prog) app

def isPluginAdded (prog : Program V C T) (app : AppBuilder V C T) (ty : TypeId) : Bool :=
  app.pluginRegistry.refs.any fun r =>
    decide (r.concreteTypeId = ty) || decide (r.name = prog.typeName ty)

def addScheduler (app : AppBuilder V C T) (scheduler : T) : AppBuilder V C T :=
  { app with schedulers := app.schedulers ++ [scheduler] }

def addShutdownHook (app : AppBuilder V C T) (hook : T) : AppBuilder V C T :=
  { app with shutdownHooks := app.shutdownHooks ++ [hook] }

def hasComponent (app : AppBuilder V C T) (ty : TypeId) : Prop := ty ∈ app.components

instance (app : AppBuilder V C T) (ty : TypeId) : Decidable (app.hasComponent ty) :=
  inferInstanceAs (Decidable (ty ∈ app.components))

def getComponent (app : AppBuilder V C T) (ty : TypeId) : Option V :=
  app.components.lookup ty

/-- `try_get_component` and `try_get_component_ref`; the error carries the type's name. -/
def tryGetComponent (typeName : TypeId → String) (app : AppBuilder V C T) (ty : TypeId) :
    Except AppError V :=
  match app.getComponent ty with
  | some c => .ok c
  | none => .error (.componentNotExist (typeName ty))

def addComponent (typeName : TypeId → String) (app : AppBuilder V C T) (ty : TypeId)
    (component : V) : Except Panic (AppBuilder V C T) :=
  if app.hasComponent ty then
    .error (.componentAdded (typeName ty))
  else
    .ok { app with components := app.components.insert ty component }

/-! ## What registering does -/

theorem register_ok {app app' : AppBuilder V C T} {r : PluginRef}
    (h : app.register r = .ok app') :
    ¬ app.pluginRegistry.containsKey r.name ∧
      app'.pluginRegistry.refs = app.pluginRegistry.refs ++ [r] := by
  by_cases hc : app.pluginRegistry.containsKey r.name
  · rw [register, dif_pos hc] at h
    exact absurd h (by simp)
  · rw [register, dif_neg hc, Except.ok.injEq] at h
    subst h
    exact ⟨hc, rfl⟩

theorem register_error {app : AppBuilder V C T} {r : PluginRef}
    (h : app.pluginRegistry.containsKey r.name) :
    app.register r = .error (.pluginAdded r.name) := by
  rw [register, dif_pos h]

theorem register_fresh (app : AppBuilder V C T) (r : PluginRef)
    (h : ¬ app.pluginRegistry.containsKey r.name) :
    ∃ app', app.register r = .ok app' := by
  rw [register, dif_neg h]
  exact ⟨_, rfl⟩

theorem getComponent_isSome {app : AppBuilder V C T} {ty : TypeId} :
    (app.getComponent ty).isSome ↔ app.hasComponent ty :=
  AList.lookup_isSome

theorem tryGetComponent_ok_iff {typeName : TypeId → String} {app : AppBuilder V C T}
    {ty : TypeId} {c : V} :
    app.tryGetComponent typeName ty = .ok c ↔ app.getComponent ty = some c := by
  unfold tryGetComponent
  cases app.getComponent ty with
  | none => simp
  | some c' => simp

theorem isPluginAdded_iff {prog : Program V C T} {app : AppBuilder V C T} {ty : TypeId} :
    app.isPluginAdded prog ty = true ↔
      ∃ r ∈ app.pluginRegistry.refs, r.concreteTypeId = ty ∨ r.name = prog.typeName ty := by
  simp only [isPluginAdded, List.any_eq_true, Bool.or_eq_true, decide_eq_true_eq]

end AppBuilder

end Summer
