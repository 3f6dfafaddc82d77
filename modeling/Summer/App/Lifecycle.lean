/-
The life of an `AppBuilder` as a transition system (`summer/src/app.rs`).

User code calls the builder before `build_plugins` and, while it runs, from the callbacks:
from `immediately_build` of inventory plugins, from the listeners of `ConfigEvent` and
`PluginsBuiltEvent`, and from `Plugin::build`.  A step is one such call or one move of
`build_plugins` between two calls, so every state a callback can see is a state of the
system.  What user code does is left open: in its turn it may make any call.

`added` and `built` record the plugins the builder was given and the plugins whose build
has run; the builder itself does not read them.
-/
import Summer.App.BuildPlugins
import Summer.Lib.Run

namespace Summer
namespace Lifecycle

open AppBuilder

variable {V C T : Type}

/-- How far `build_plugins` has come. -/
inductive Phase
  | setup
  /-- In `add_auto_plugins`, with these inventory entries to go. -/
  | auto (rest : List Plugin)
  /-- `ConfigEvent` and `LogPlugin`. -/
  | config
  /-- At the head of the `while` loop; `saved` is the registry taken out of the builder. -/
  | head (saved : PluginRegistry) (toRegister : List PluginRef) (registered : Finset String)
  /-- In the `for` loop, inside the build of `building` if there is one. -/
  | round (saved : PluginRegistry) (current nextRound : List PluginRef)
      (registered : Finset String) (progress : Bool) (building : Option PluginRef)
  /-- The registry is back; `PluginsBuiltEvent`. -/
  | built
  | returned
  | failed (e : AppError)
  | panicked (p : Panic)

namespace Phase

/-- User code may hold the builder.  In `add_auto_plugins` it does so inside
`immediately_build`; the model lets it call at any point there. -/
def userTurn : Phase → Prop
  | head _ _ _ | round _ _ _ _ _ none | panicked _ => False
  | _ => True

/-- The registry has not been taken yet. -/
def beforeLoop : Phase → Prop
  | setup | auto _ | config => True
  | _ => False

def looping : Phase → Prop
  | head _ _ _ | round _ _ _ _ _ _ => True
  | _ => False

/-- There is still a builder: no panic has unwound it. -/
def live : Phase → Prop
  | panicked _ => False
  | _ => True

end Phase

/-- A plugin the builder was given, and whether it came from the inventory. -/
structure Given where
  plugin : Plugin
  inventory : Bool
deriving DecidableEq, Repr

def Given.ref (g : Given) : PluginRef :=
  if g.inventory then PluginRef.ofStatic g.plugin else PluginRef.new g.plugin

@[simp] theorem Given.ref_plugin (g : Given) : g.ref.plugin = g.plugin := by
  unfold Given.ref
  split <;> rfl

structure State (V C T : Type) where
  app : AppBuilder V C T
  phase : Phase
  added : List Given
  built : List Plugin

namespace State

/-- A builder fresh from `AppBuilder::default`. -/
def init (app : AppBuilder V C T) : State V C T where
  app := { app with pluginRegistry := .empty }
  phase := .setup
  added := []
  built := []

def give (s : State V C T) (g : Given) : State V C T := { s with added := s.added ++ [g] }

def runs (s : State V C T) (p : Plugin) : State V C T := { s with built := s.built ++ [p] }

def goto (s : State V C T) (phase : Phase) : State V C T := { s with phase := phase }

end State

inductive Act
  /-- Any use of the builder that leaves the plugin registry alone. -/
  | touch
  | addPlugin (p : Plugin)
  | panic (text : String)
  | fail (e : AppError)
  | startBuild
  | addAuto (p : Plugin)
  | endAuto
  | takeRegistry
  | enterRound
  | startPlugin (r : PluginRef)
  | finishPlugin (r : PluginRef)
  | skipPlugin (r : PluginRef)
  | endRound
  | restoreRegistry
  | return
deriving DecidableEq, Repr

inductive Step (prog : Program V C T) (order : HashOrder) :
    State V C T → Act → State V C T → Prop
  | touch {s : State V C T} (app : AppBuilder V C T) (hu : s.phase.userTurn)
      (hreg : app.pluginRegistry = s.app.pluginRegistry) :
      Step prog order s .touch { s with app := app }
  | addImmediate {s : State V C T} (p : Plugin) (hu : s.phase.userTurn)
      (himm : p.immediately = true) :
      Step prog order s (.addPlugin p) ((s.give { plugin := p, inventory := false }).runs p)
  | addOrdinary {s : State V C T} (p : Plugin) (app : AppBuilder V C T) (hu : s.phase.userTurn)
      (himm : p.immediately = false) (hreg : s.app.register (PluginRef.new p) = .ok app) :
      Step prog order s (.addPlugin p)
        ({ s with app := app }.give { plugin := p, inventory := false })
  | addRejected {s : State V C T} (p : Plugin) (e : Panic) (hu : s.phase.userTurn)
      (himm : p.immediately = false) (hreg : s.app.register (PluginRef.new p) = .error e) :
      Step prog order s (.addPlugin p) (s.goto (.panicked e))
  | panic {s : State V C T} (text : String) (hu : s.phase.userTurn) :
      Step prog order s (.panic text) (s.goto (.panicked (.user text)))
  | failConfig {s : State V C T} (e : AppError) (hs : s.phase = .config) :
      Step prog order s (.fail e) (s.goto (.failed e))
  | failBuilt {s : State V C T} (e : AppError) (hs : s.phase = .built) :
      Step prog order s (.fail e) (s.goto (.failed e))
  | startBuild {s : State V C T} (hs : s.phase = .setup) :
      Step prog order s .startBuild (s.goto (.auto prog.inventory))
  | autoImmediate {s : State V C T} (p : Plugin) (rest : List Plugin)
      (hs : s.phase = .auto (p :: rest)) (hfree : ¬ s.app.pluginRegistry.containsKey p.name)
      (himm : p.immediately = true) :
      Step prog order s (.addAuto p)
        (((s.give { plugin := p, inventory := true }).runs p).goto (.auto rest))
  | autoOrdinary {s : State V C T} (p : Plugin) (rest : List Plugin) (app : AppBuilder V C T)
      (hs : s.phase = .auto (p :: rest)) (himm : p.immediately = false)
      (hreg : s.app.register (PluginRef.ofStatic p) = .ok app) :
      Step prog order s (.addAuto p)
        (({ s with app := app }.give { plugin := p, inventory := true }).goto (.auto rest))
  | autoRejected {s : State V C T} (p : Plugin) (rest : List Plugin)
      (hs : s.phase = .auto (p :: rest)) (htaken : s.app.pluginRegistry.containsKey p.name) :
      Step prog order s (.addAuto p) (s.goto (.panicked (.pluginAdded p.name)))
  | endAuto {s : State V C T} (hs : s.phase = .auto []) :
      Step prog order s .endAuto (s.goto .config)
  | takeRegistry {s : State V C T} (hs : s.phase = .config) :
      Step prog order s .takeRegistry
        ({ s with app := { s.app with pluginRegistry := .empty } }.goto
          (.head s.app.pluginRegistry (order.iter s.app.pluginRegistry) ∅))
  | enterRound {s : State V C T} (saved : PluginRegistry) (toRegister : List PluginRef)
      (registered : Finset String) (hs : s.phase = .head saved toRegister registered)
      (hne : toRegister ≠ []) :
      Step prog order s .enterRound (s.goto (.round saved toRegister [] registered false none))
  | startPlugin {s : State V C T} (saved : PluginRegistry) (r : PluginRef)
      (rest nextRound : List PluginRef) (registered : Finset String) (progress : Bool)
      (hs : s.phase = .round saved (r :: rest) nextRound registered progress none)
      (hready : ∀ dep ∈ r.dependencies, dep ∈ registered) :
      Step prog order s (.startPlugin r)
        (s.goto (.round saved rest nextRound registered progress (some r)))
  | finishPlugin {s : State V C T} (saved : PluginRegistry) (r : PluginRef)
      (current nextRound : List PluginRef) (registered : Finset String) (progress : Bool)
      (hs : s.phase = .round saved current nextRound registered progress (some r)) :
      Step prog order s (.finishPlugin r)
        ((s.runs r.plugin).goto
          (.round saved current nextRound (insert r.name registered) true none))
  | skipPlugin {s : State V C T} (saved : PluginRegistry) (r : PluginRef)
      (rest nextRound : List PluginRef) (registered : Finset String) (progress : Bool)
      (hs : s.phase = .round saved (r :: rest) nextRound registered progress none)
      (hwait : ¬ ∀ dep ∈ r.dependencies, dep ∈ registered) :
      Step prog order s (.skipPlugin r)
        (s.goto (.round saved rest (nextRound ++ [r]) registered progress none))
  | endRound {s : State V C T} (saved : PluginRegistry) (nextRound : List PluginRef)
      (registered : Finset String)
      (hs : s.phase = .round saved [] nextRound registered true none) :
      Step prog order s .endRound (s.goto (.head saved nextRound registered))
  | stuck {s : State V C T} (saved : PluginRegistry) (nextRound : List PluginRef)
      (registered : Finset String)
      (hs : s.phase = .round saved [] nextRound registered false none) :
      Step prog order s .endRound (s.goto (.panicked .cyclicDependency))
  | restoreRegistry {s : State V C T} (saved : PluginRegistry) (registered : Finset String)
      (hs : s.phase = .head saved [] registered) :
      Step prog order s .restoreRegistry
        ({ s with app := { s.app with pluginRegistry := saved } }.goto .built)
  | return {s : State V C T} (hs : s.phase = .built) :
      Step prog order s .return (s.goto .returned)

/-! ## The registry before the loop -/

def ordinary (added : List Given) : List Given :=
  added.filter fun g => !g.plugin.immediately

theorem mem_ordinary {added : List Given} {g : Given} :
    g ∈ ordinary added ↔ g ∈ added ∧ g.plugin.immediately = false := by
  simp only [ordinary, List.mem_filter, Bool.not_eq_true']

theorem ordinary_append_immediate {added : List Given} {g : Given}
    (h : g.plugin.immediately = true) : ordinary (added ++ [g]) = ordinary added := by
  simp only [ordinary, List.filter_append, List.filter_cons, h, Bool.not_true,
    Bool.false_eq_true, if_false, List.filter_nil, List.append_nil]

theorem ordinary_append {added : List Given} {g : Given}
    (h : g.plugin.immediately = false) : ordinary (added ++ [g]) = ordinary added ++ [g] := by
  simp only [ordinary, List.filter_append, List.filter_cons, h, Bool.not_false, if_true,
    List.filter_nil]

/-- The refs of the ordinary plugins, in the order they were given. -/
def givenRefs (added : List Given) : List PluginRef := (ordinary added).map Given.ref

theorem givenRefs_append_immediate {added : List Given} {g : Given}
    (h : g.plugin.immediately = true) : givenRefs (added ++ [g]) = givenRefs added := by
  rw [givenRefs, ordinary_append_immediate h, givenRefs]

theorem givenRefs_append {added : List Given} {g : Given}
    (h : g.plugin.immediately = false) :
    givenRefs (added ++ [g]) = givenRefs added ++ [g.ref] := by
  rw [givenRefs, ordinary_append h, List.map_append, List.map_singleton, givenRefs]

/-- Until the loop takes it, the registry holds the ordinary plugins and nothing else. -/
def Collected (s : State V C T) : Prop :=
  s.phase.beforeLoop → s.app.pluginRegistry.refs = givenRefs s.added

theorem collected_init (app : AppBuilder V C T) : Collected (State.init app) :=
  fun _ => rfl

theorem collected_step {prog : Program V C T} {order : HashOrder} {s t : State V C T} {a : Act}
    (h : Step prog order s a t) (hs : Collected s) : Collected t := by
  cases h with
  | touch app hu hreg =>
      intro ht
      rw [hreg]
      exact hs ht
  | addImmediate p hu himm =>
      intro ht
      exact (hs ht).trans (givenRefs_append_immediate himm).symm
  | addOrdinary p app hu himm hreg =>
      intro ht
      refine (register_ok hreg).2.trans ?_
      rw [hs ht]
      exact (givenRefs_append (g := ⟨p, false⟩) himm).symm
  | autoImmediate p rest hph hfree himm =>
      intro _
      refine (hs (by rw [hph]; trivial)).trans ?_
      exact (givenRefs_append_immediate (g := ⟨p, true⟩) himm).symm
  | autoOrdinary p rest app hph himm hreg =>
      intro _
      refine (register_ok hreg).2.trans ?_
      rw [hs (by rw [hph]; trivial)]
      exact (givenRefs_append (g := ⟨p, true⟩) himm).symm
  | startBuild hph => exact fun _ => hs (by rw [hph]; trivial)
  | endAuto hph => exact fun _ => hs (by rw [hph]; trivial)
  | _ => exact fun ht => absurd ht (by simp [State.goto, Phase.beforeLoop])

theorem collected_run {prog : Program V C T} {order : HashOrder} {app : AppBuilder V C T}
    {acts : List Act} {s : State V C T}
    (h : Run (Step prog order) (State.init app) acts s) : Collected s :=
  h.invariant (I := Collected) (fun _ _ _ => collected_step) (collected_init app)

end Lifecycle
end Summer
