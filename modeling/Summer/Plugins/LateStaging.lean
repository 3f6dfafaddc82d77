/-
Whether what is staged gets served, over all orders in which the plugins may be built.

`WebPlugin`, `StreamPlugin` and `XxlJobPlugin` depend on nothing, so another plugin may be
built before or after them.  A run of builds serves everything that was staged exactly when
no build after that of the plugin in question stages anything for it
(`servedOnce_iff_noneLate`).
-/
import Summer.Lib.Staging
import Summer.Plugins.Configurators

namespace Summer

variable {R K H C : Type}

/-- One build of a run, with the calls of user code in it. -/
structure BuildOf (R K H : Type) where
  plugin : PluginRef
  calls : List (Call R K H)

def BuildStep (env : Application R K H C) (app : Builder R K H C) (b : BuildOf R K H)
    (app' : Builder R K H C) : Prop :=
  env.build b.plugin.plugin app = .ok app' ∧ b.calls = env.callsIn b.plugin.plugin app

/-- The builder before any call. -/
def newBuilder (config : C) (registry : PluginRegistry) : Builder R K H C where
  pluginRegistry := registry
  components := ∅
  config := config
  schedulers := []
  shutdownHooks := []

/-- Each plugin of the run takes every item staged for it, once. -/
structure ServedOnce (before : List (Call R K H)) (builds : List (BuildOf R K H))
    (final : Builder R K H C) : Prop where
  routers : (∃ b ∈ builds, b.plugin.plugin = webPlugin) →
    final.served.Perm ((before ++ builds.flatMap BuildOf.calls).flatMap Call.routers)
  consumers : (∃ b ∈ builds, b.plugin.plugin = streamPlugin) →
    final.scheduled.Perm ((before ++ builds.flatMap BuildOf.calls).flatMap Call.consumers)
  handlers : (∃ b ∈ builds, b.plugin.plugin = xxlJobPlugin) →
    final.registered.Perm ((before ++ builds.flatMap BuildOf.calls).flatMap Call.handlers)

/-- No build after that of a plugin stages an item for it. -/
def NoneLate (builds : List (BuildOf R K H)) : Prop :=
  ∀ pre b post, builds = pre ++ b :: post → ∀ q ∈ post,
    (b.plugin.plugin = webPlugin → q.calls.flatMap Call.routers = []) ∧
    (b.plugin.plugin = streamPlugin → q.calls.flatMap Call.consumers = []) ∧
    (b.plugin.plugin = xxlJobPlugin → q.calls.flatMap Call.handlers = [])

/-! ## The three staging areas -/

/-- What one build changes. -/
theorem changes_build {env : Application R K H C} {app app' : Builder R K H C}
    {b : BuildOf R K H} (h : BuildStep env app b app') :
    Changes app app' (b.calls.flatMap Call.routers) (b.calls.flatMap Call.consumers)
      (b.calls.flatMap Call.handlers)
      (if b.plugin.plugin = webPlugin then app.routers else [])
      (if b.plugin.plugin = streamPlugin then app.consumers else [])
      (if b.plugin.plugin = xxlJobPlugin then app.xxlHandlers else []) := by
  obtain ⟨hbuild, hcalls⟩ := h
  rw [hcalls]
  unfold Application.build at hbuild
  unfold Application.callsIn
  by_cases hweb : b.plugin.plugin = webPlugin
  · rw [if_pos hweb] at hbuild
    rw [hweb]
    exact Application.changes_buildWeb hbuild
  · rw [if_neg hweb] at hbuild
    by_cases hstream : b.plugin.plugin = streamPlugin
    · rw [if_pos hstream] at hbuild
      rw [hstream]
      exact Application.changes_buildStream hbuild
    · rw [if_neg hstream] at hbuild
      by_cases hxxl : b.plugin.plugin = xxlJobPlugin
      · rw [if_pos hxxl] at hbuild
        rw [hxxl]
        exact Application.changes_buildXxlJob hbuild
      · rw [if_neg hxxl] at hbuild
        rw [if_neg hweb, if_neg hstream, if_neg hxxl,
          if_neg (not_or.mpr ⟨hweb, not_or.mpr ⟨hstream, hxxl⟩⟩)]
        exact Application.changes_applyAll hbuild

theorem calls_of_taking {env : Application R K H C} {app app' : Builder R K H C}
    {b : BuildOf R K H} (h : BuildStep env app b app')
    (hplugin : b.plugin.plugin = webPlugin ∨ b.plugin.plugin = streamPlugin ∨
      b.plugin.plugin = xxlJobPlugin) : b.calls = [] := by
  rw [h.2, Application.callsIn, if_pos hplugin]

def routerStaging (env : Application R K H C) : Staging (BuildStep env) R where
  pending := Builder.routers
  taken := Builder.served
  items := fun b => b.calls.flatMap Call.routers
  takes := fun b => b.plugin.plugin = webPlugin
  pending_step := fun h => (changes_build h).routers
  taken_take := fun h ht => by rw [(changes_build h).served, if_pos ht]
  taken_keep := fun h ht => by rw [(changes_build h).served, if_neg ht, List.append_nil]
  items_take := fun h ht => by rw [calls_of_taking h (.inl ht), List.flatMap_nil]

def consumerStaging (env : Application R K H C) : Staging (BuildStep env) K where
  pending := Builder.consumers
  taken := Builder.scheduled
  items := fun b => b.calls.flatMap Call.consumers
  takes := fun b => b.plugin.plugin = streamPlugin
  pending_step := fun h => (changes_build h).consumers
  taken_take := fun h ht => by rw [(changes_build h).scheduled, if_pos ht]
  taken_keep := fun h ht => by rw [(changes_build h).scheduled, if_neg ht, List.append_nil]
  items_take := fun h ht => by rw [calls_of_taking h (.inr (.inl ht)), List.flatMap_nil]

def handlerStaging (env : Application R K H C) : Staging (BuildStep env) (String × H) where
  pending := Builder.xxlHandlers
  taken := Builder.registered
  items := fun b => b.calls.flatMap Call.handlers
  takes := fun b => b.plugin.plugin = xxlJobPlugin
  pending_step := fun h => (changes_build h).handlers
  taken_take := fun h ht => by rw [(changes_build h).registered, if_pos ht]
  taken_keep := fun h ht => by rw [(changes_build h).registered, if_neg ht, List.append_nil]
  items_take := fun h ht => by rw [calls_of_taking h (.inr (.inr ht)), List.flatMap_nil]

/-- The builds of `buildAll` are a run. -/
theorem buildAll_iff_run {env : Application R K H C} {inventory : List Plugin}
    {app final : Builder R K H C} {built : List PluginRef} :
    AppBuilder.buildAll (env.program inventory) app built = .ok final ↔
      ∃ builds, builds.map BuildOf.plugin = built ∧ Run (BuildStep env) app builds final := by
  induction built generalizing app with
  | nil =>
      constructor
      · intro h
        cases h
        exact ⟨[], rfl, .nil _⟩
      · intro h
        obtain ⟨builds, hmap, hrun⟩ := h
        rw [List.map_eq_nil_iff] at hmap
        subst hmap
        cases hrun
        rfl
  | cons r rest ih =>
      rw [AppBuilder.buildAll, List.foldlM_cons, bind_ok]
      constructor
      · intro h
        obtain ⟨mid, hone, hrest⟩ := h
        obtain ⟨builds, rfl, hrun⟩ := ih.mp hrest
        exact ⟨{ plugin := r, calls := env.callsIn r.plugin app } :: builds, rfl,
          .cons ⟨hone, rfl⟩ hrun⟩
      · intro h
        obtain ⟨builds, hmap, hrun⟩ := h
        cases hrun with
        | nil => cases hmap
        | @cons _ mid _ b acts hstep hacts =>
            obtain ⟨rfl, rfl⟩ := List.cons.inj hmap
            exact ⟨mid, hstep.1, ih.mpr ⟨acts, rfl, hacts⟩⟩

/-- `build_plugins` ends as a run of the builds does, in an order that respects the
dependencies. -/
theorem buildRegistered_run {env : Application R K H C} {inventory : List Plugin}
    {order : HashOrder} {app final : Builder R K H C}
    (h : AppBuilder.buildRegistered (env.program inventory) order app = .ok final) :
    ∃ builds last, (builds.map BuildOf.plugin).Perm app.pluginRegistry.refs ∧
      AppBuilder.DependenciesFirst (builds.map BuildOf.plugin) ∧
      Run (BuildStep env) { app with pluginRegistry := .empty } builds last ∧
      final = { last with pluginRegistry := app.pluginRegistry } := by
  rw [AppBuilder.buildRegistered_eq] at h
  obtain ⟨last, hall, hlast⟩ := bind_ok.mp h
  obtain ⟨builds, hbuilds, hrun⟩ := buildAll_iff_run.mp hall
  split at hlast
  · next hleft =>
      have hperm := AppBuilder.pluginRules.rounds_perm ∅ (order.iter app.pluginRegistry)
      rw [hleft, List.append_nil] at hperm
      refine ⟨builds, last, ?_, ?_, hrun, (Except.ok.inj hlast).symm⟩
      · rw [hbuilds]
        exact hperm.trans (order.perm _)
      · rw [hbuilds]
        exact AppBuilder.fires_iff_dependenciesFirst.mp
          (AppBuilder.pluginRules.rounds_fires _ _)
  · cases hlast

/-! ## Runs over a registry -/

/-- A registry holds a plugin once. -/
theorem built_once {registry : PluginRegistry} {builds : List (BuildOf R K H)}
    (hperm : (builds.map BuildOf.plugin).Perm registry.refs) (plugin : Plugin) :
    ∀ pre b post, builds = pre ++ b :: post → b.plugin.plugin = plugin →
      (∀ q ∈ pre, ¬ q.plugin.plugin = plugin) ∧ ∀ q ∈ post, ¬ q.plugin.plugin = plugin := by
  intro pre b post hsplit hb
  have hnodup : ((builds.map BuildOf.plugin).map PluginRef.name).Nodup :=
    ((hperm.map PluginRef.name).nodup_iff).mpr registry.nodup
  rw [hsplit, List.map_append, List.map_append, List.map_cons, List.map_cons] at hnodup
  obtain ⟨_, htail, hcross⟩ := List.nodup_append.mp hnodup
  have hname : ∀ q : BuildOf R K H, q.plugin.plugin = plugin → q.plugin.name = b.plugin.name := by
    intro q hq
    unfold PluginRef.name
    rw [hq, hb]
  have hmem : ∀ {q : BuildOf R K H} {l : List (BuildOf R K H)}, q ∈ l →
      q.plugin.name ∈ (l.map BuildOf.plugin).map PluginRef.name := fun hq =>
    List.mem_map_of_mem (List.mem_map_of_mem hq)
  constructor
  · intro q hq hplugin
    exact hcross q.plugin.name (hmem hq) b.plugin.name List.mem_cons_self (hname q hplugin)
  · intro q hq hplugin
    exact (List.nodup_cons.mp htail).1 (hname q hplugin ▸ hmem hq)

/-- The lists at the start of `build_plugins` are those of the calls made before it. -/
theorem changes_before {env : Application R K H C} {config : C} {registry : PluginRegistry}
    {before : List (Call R K H)} {entry : Builder R K H C}
    (h : env.applyAll (newBuilder config registry) before = .ok entry) :
    Builder.routers { entry with pluginRegistry := .empty } = before.flatMap Call.routers ∧
      Builder.consumers { entry with pluginRegistry := .empty } = before.flatMap Call.consumers ∧
      Builder.xxlHandlers { entry with pluginRegistry := .empty } = before.flatMap Call.handlers ∧
      Builder.served { entry with pluginRegistry := .empty } = [] ∧
      Builder.scheduled { entry with pluginRegistry := .empty } = [] ∧
      Builder.registered { entry with pluginRegistry := .empty } = [] := by
  have hchanges := Application.changes_applyAll h
  exact ⟨hchanges.routers, hchanges.consumers, hchanges.handlers, hchanges.served,
    hchanges.scheduled, hchanges.registered⟩

/-- For every application, whatever is staged before `build_plugins` and in the builds, and
for every order of the builds: the items staged are all taken, each once, exactly when no
build stages an item for a plugin built before it. -/
theorem servedOnce_iff_noneLate (env : Application R K H C) (config : C)
    (registry : PluginRegistry) (before : List (Call R K H)) (entry final : Builder R K H C)
    (builds : List (BuildOf R K H))
    (hentry : env.applyAll (newBuilder config registry) before = .ok entry)
    (hperm : (builds.map BuildOf.plugin).Perm registry.refs)
    (hrun : Run (BuildStep env) { entry with pluginRegistry := .empty } builds final) :
    ServedOnce before builds final ↔ NoneLate builds := by
  obtain ⟨hrouters, hconsumers, hhandlers, hserved, hscheduled, hregistered⟩ :=
    changes_before hentry
  have hweb := (routerStaging env).taken_all_iff_noneAfter hrun (built_once hperm webPlugin)
  have hstream := (consumerStaging env).taken_all_iff_noneAfter hrun
    (built_once hperm streamPlugin)
  have hxxl := (handlerStaging env).taken_all_iff_noneAfter hrun (built_once hperm xxlJobPlugin)
  simp only [routerStaging, hrouters, hserved, List.nil_append] at hweb
  simp only [consumerStaging, hconsumers, hscheduled, List.nil_append] at hstream
  simp only [handlerStaging, hhandlers, hregistered, List.nil_append] at hxxl
  constructor
  · intro h pre b post hsplit q hq
    have h1 := h.routers
    have h2 := h.consumers
    have h3 := h.handlers
    rw [List.flatMap_append, List.flatMap_assoc] at h1 h2 h3
    exact ⟨fun hb => hweb.mp h1 pre b post hsplit hb q hq,
      fun hb => hstream.mp h2 pre b post hsplit hb q hq,
      fun hb => hxxl.mp h3 pre b post hsplit hb q hq⟩
  · intro h
    constructor
    · rw [List.flatMap_append, List.flatMap_assoc]
      exact hweb.mpr fun pre b post hsplit hb q hq => (h pre b post hsplit q hq).1 hb
    · rw [List.flatMap_append, List.flatMap_assoc]
      exact hstream.mpr fun pre b post hsplit hb q hq => (h pre b post hsplit q hq).2.1 hb
    · rw [List.flatMap_append, List.flatMap_assoc]
      exact hxxl.mpr fun pre b post hsplit hb q hq => (h pre b post hsplit q hq).2.2 hb

namespace Sample

/-- A plugin of the application that adds a router in its build. -/
def routesPlugin : Plugin where
  ty := .concrete 3
  name := "app::RoutesPlugin"
  dependencies := []
  immediately := false

def application : Application String String String Unit where
  typeName := fun _ => ""
  calls := fun plugin _ => if plugin = routesPlugin then [.addRouter "/users"] else []
  webConfig := fun _ => .ok ()
  openapi := false
  streamer := fun _ => .ok ()
  newInstance := fun _ _ => .ok ()
  xxlClient := fun _ => .ok ()
  xxlRegister := fun _ _ => .ok ()

def webAndRoutes : PluginRegistry where
  refs := [.new webPlugin, .new routesPlugin]
  nodup := by decide

def lateBuilds : List (BuildOf String String String) :=
  [{ plugin := .new webPlugin, calls := [] },
    { plugin := .new routesPlugin, calls := [.addRouter "/users"] }]

def earlyBuilds : List (BuildOf String String String) :=
  [{ plugin := .new routesPlugin, calls := [.addRouter "/users"] },
    { plugin := .new webPlugin, calls := [] }]

/-- A builder in the builds, with the web server's task and the components given. -/
def served (components : List (Component String String String)) :
    Builder String String String Unit where
  pluginRegistry := .empty
  components := components.foldl (fun l c => l.insert c.typeId c) ∅
  config := ()
  schedulers := [.other "web"]
  shutdownHooks := []

def lateFinal : Builder String String String Unit := served [.router [], .routers ["/users"]]

def earlyFinal : Builder String String String Unit :=
  served [.routers ["/users"], .router ["/users"]]

end Sample

theorem servedOnce_iff_noneLate_sample :
    ServedOnce [] Sample.earlyBuilds Sample.earlyFinal ↔ NoneLate Sample.earlyBuilds :=
  servedOnce_iff_noneLate Sample.application () Sample.webAndRoutes []
    (newBuilder () Sample.webAndRoutes) Sample.earlyFinal Sample.earlyBuilds rfl (by decide)
    (.cons ⟨rfl, rfl⟩ (.cons ⟨rfl, rfl⟩ (.nil _)))

/-- The two plugins in the two orders: the router is lost if `WebPlugin` is built first. -/
theorem router_of_later_plugin_lost :
    Run (BuildStep Sample.application) (newBuilder () .empty) Sample.earlyBuilds
        Sample.earlyFinal ∧ Builder.served Sample.earlyFinal = ["/users"] ∧
      AppBuilder.buildRegistered (Sample.application.program []) .insertion
          (newBuilder () Sample.webAndRoutes) =
        .ok { Sample.lateFinal with pluginRegistry := Sample.webAndRoutes } ∧
      Builder.served Sample.lateFinal = [] ∧
      ¬ ServedOnce [] Sample.lateBuilds Sample.lateFinal := by
  have hfires : AppBuilder.pluginRules.Fires ∅ Sample.webAndRoutes.refs :=
    ⟨AppBuilder.ready_iff.mpr nofun, AppBuilder.ready_iff.mpr nofun, trivial⟩
  have hrounds : AppBuilder.pluginRules.rounds ∅
      (HashOrder.insertion.iter (newBuilder () Sample.webAndRoutes :
        Builder String String String Unit).pluginRegistry) = (Sample.webAndRoutes.refs, []) :=
    AppBuilder.pluginRules.rounds_of_fires hfires
  refine ⟨.cons ⟨rfl, rfl⟩ (.cons ⟨rfl, rfl⟩ (.nil _)), rfl, ?_, rfl, fun h => ?_⟩
  · rw [AppBuilder.buildRegistered_eq, hrounds]
    rfl
  · have hperm := h.routers ⟨_, List.mem_cons_self, rfl⟩
    exact absurd hperm.length_eq (by decide)

end Summer
