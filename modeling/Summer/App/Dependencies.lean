/-
When `build_plugins` panics over dependencies.

The loop knows the names it has registered, and those are names of ordinary plugins only.
A plugin built at once never enters the registry, so a dependency on its name is never
met: the panic is raised for the plugins that cannot be built, and also for those that
need nothing but an immediate plugin (`panics_iff`).
-/
import Summer.App.Lifecycle

namespace Summer
namespace Lifecycle

open AppBuilder

variable {V C T : Type}

def ordinaryPlugins (added : List Given) : List Plugin := (ordinary added).map Given.plugin

theorem mem_ordinaryPlugins {added : List Given} {p : Plugin} :
    p ∈ ordinaryPlugins added ↔ ∃ g ∈ added, g.plugin.immediately = false ∧ g.plugin = p := by
  simp only [ordinaryPlugins, List.mem_map, mem_ordinary, and_assoc]

/-- Some ordinary plugin lies on a dependency cycle, or depends, perhaps through others,
on a name that no plugin was added under. -/
def Unbuildable (added : List Given) : Prop :=
  ∃ p ∈ ordinaryPlugins added,
    Relation.TransGen (DependsOn (ordinaryPlugins added)) p.name p.name ∨
      ∃ dep, Relation.TransGen (DependsOn (ordinaryPlugins added)) p.name dep ∧
        ∀ g ∈ added, g.plugin.name ≠ dep

/-- Some ordinary plugin depends on a name that only immediate plugins have. -/
def NeedsImmediate (added : List Given) : Prop :=
  ∃ p ∈ ordinaryPlugins added, ∃ dep ∈ p.dependencies,
    (∃ g ∈ added, g.plugin.name = dep) ∧ ∀ q ∈ ordinaryPlugins added, q.name ≠ dep

/-- The dependency that the end of a chain names directly. -/
theorem dependsOn_last {l : List Plugin} {a b : String}
    (h : Relation.TransGen (DependsOn l) a b) : ∃ p ∈ l, b ∈ p.dependencies := by
  cases h with
  | single h => exact h.imp fun p hp => ⟨hp.1, hp.2.2⟩
  | tail _ h => exact h.imp fun p hp => ⟨hp.1, hp.2.2⟩

theorem map_plugin_givenRefs (added : List Given) :
    (givenRefs added).map PluginRef.plugin = ordinaryPlugins added := by
  rw [givenRefs, List.map_map, ordinaryPlugins]
  exact List.map_congr_left fun g _ => g.ref_plugin

/-- At the start of the loop the panic is due exactly when an ordinary plugin is on a
cycle or depends on a name that no ordinary plugin has. -/
theorem panics_iff {prog : Program V C T} {order : HashOrder} {s : State V C T}
    (hcollected : Collected s) (hs : s.phase = .config)
    (hbuild : BuildsReturn prog { s.app with pluginRegistry := .empty }
      s.app.pluginRegistry.refs) :
    buildRegistered prog order s.app = .error .cyclicDependency ↔
      Unbuildable s.added ∨ NeedsImmediate s.added := by
  have hrefs : s.app.pluginRegistry.refs = givenRefs s.added :=
    hcollected (by rw [hs]; trivial)
  have hperm := order.perm s.app.pluginRegistry
  have hplugins : ∀ p, p ∈ (order.iter s.app.pluginRegistry).map PluginRef.plugin ↔
      p ∈ ordinaryPlugins s.added := by
    intro p
    rw [(hperm.map _).mem_iff, hrefs, map_plugin_givenRefs]
  have hmem : ∀ p, p ∈ ordinaryPlugins s.added ↔
      ∃ r ∈ order.iter s.app.pluginRegistry, r.plugin = p := fun p =>
    (hplugins p).symm.trans List.mem_map
  rw [buildRegistered_panics_iff hbuild, rounds_left_iff ((hperm.map _).nodup_iff.mpr
    s.app.pluginRegistry.nodup), dependsOn_congr hplugins]
  constructor
  · rintro (⟨r, hr, hcycle⟩ | ⟨r, hr, dep, hdep, hnobody⟩)
    · exact Or.inl ⟨r.plugin, (hmem _).mpr ⟨r, hr, rfl⟩, Or.inl hcycle⟩
    · have hp : r.plugin ∈ ordinaryPlugins s.added := (hmem _).mpr ⟨r, hr, rfl⟩
      by_cases hadded : ∃ g ∈ s.added, g.plugin.name = dep
      · refine Or.inr ⟨r.plugin, hp, dep, hdep, hadded, fun q hq hname => ?_⟩
        obtain ⟨q', hq', rfl⟩ := (hmem q).mp hq
        exact hnobody q' hq' hname
      · simp only [not_exists, not_and] at hadded
        exact Or.inl ⟨r.plugin, hp, Or.inr ⟨dep, .single ⟨r.plugin, hp, rfl, hdep⟩, hadded⟩⟩
  · -- a plugin that names a missing dependency itself blocks the loop
    have hmissing : ∀ p ∈ ordinaryPlugins s.added, ∀ dep ∈ p.dependencies,
        (∀ q ∈ ordinaryPlugins s.added, q.name ≠ dep) →
        ∃ r ∈ order.iter s.app.pluginRegistry, ∃ dep ∈ r.dependencies,
          ∀ q ∈ order.iter s.app.pluginRegistry, q.name ≠ dep := by
      intro p hp dep hdep hnobody
      obtain ⟨r, hr, rfl⟩ := (hmem p).mp hp
      exact ⟨r, hr, dep, hdep, fun q hq => hnobody q.plugin ((hmem _).mpr ⟨q, hq, rfl⟩)⟩
    rintro (⟨p, hp, hcycle | ⟨dep, hchain, hnobody⟩⟩ | ⟨p, hp, dep, hdep, _, hnobody⟩)
    · obtain ⟨r, hr, rfl⟩ := (hmem p).mp hp
      exact Or.inl ⟨r, hr, hcycle⟩
    · obtain ⟨q, hq, hdep⟩ := dependsOn_last hchain
      refine Or.inr (hmissing q hq dep hdep fun q' hq' hname => ?_)
      obtain ⟨g, hg, _, rfl⟩ := mem_ordinaryPlugins.mp hq'
      exact hnobody g hg hname
    · exact Or.inr (hmissing p hp dep hdep hnobody)

/-- After any calls, the panic is raised exactly for the unbuildable plugins if and only
if no ordinary plugin needs an immediate one, or the panic is due anyway. -/
theorem panics_iff_unbuildable_iff {prog : Program V C T} {order : HashOrder}
    {app : AppBuilder V C T} {acts : List Act} {s : State V C T}
    (hrun : Run (Step prog order) (State.init app) acts s) (hs : s.phase = .config)
    (hbuild : BuildsReturn prog { s.app with pluginRegistry := .empty }
      s.app.pluginRegistry.refs) :
    (buildRegistered prog order s.app = .error .cyclicDependency ↔ Unbuildable s.added) ↔
      (NeedsImmediate s.added → Unbuildable s.added) := by
  rw [panics_iff (collected_run hrun) hs hbuild, or_iff_left_iff_imp]

namespace Sample

def telemetryPlugin : Plugin where
  ty := .concrete 2
  name := "summer_opentelemetry::OpenTelemetryPlugin"
  dependencies := []
  immediately := true

def tracedPlugin : Plugin where
  ty := .concrete 3
  name := "app::TracedPlugin"
  dependencies := ["summer_opentelemetry::OpenTelemetryPlugin"]
  immediately := false

def program : Program Unit Unit String := { AppBuilder.Sample.program with inventory := [] }

/-- The builder at the start of the loop, after `add_plugin` of both plugins. -/
def entry : State Unit Unit String where
  app := { AppBuilder.Sample.app with
    pluginRegistry := { refs := [PluginRef.new tracedPlugin], nodup := List.nodup_singleton _ } }
  phase := .config
  added := [{ plugin := telemetryPlugin, inventory := false },
    { plugin := tracedPlugin, inventory := false }]
  built := [telemetryPlugin]

theorem entry_run (order : HashOrder) :
    Run (Step program order) (State.init AppBuilder.Sample.app)
      [.addPlugin telemetryPlugin, .addPlugin tracedPlugin, .startBuild, .endAuto] entry :=
  .cons (.addImmediate telemetryPlugin trivial rfl)
    (.cons (.addOrdinary tracedPlugin _ trivial rfl rfl)
      (.cons (.startBuild rfl) (.cons (.endAuto rfl) (.nil _))))

theorem buildsReturn_program (app : AppBuilder Unit Unit String) (l : List PluginRef) :
    BuildsReturn program app l :=
  buildsReturn_of_forall (fun p a => ⟨a.addScheduler p.name, rfl⟩) app l

theorem entry_needsImmediate : NeedsImmediate entry.added :=
  ⟨tracedPlugin, by decide, telemetryPlugin.name, by decide, by decide, by decide⟩

theorem entry_not_unbuildable : ¬ Unbuildable entry.added := by
  have honly : ∀ p ∈ ordinaryPlugins entry.added, ∀ dep ∈ p.dependencies,
      dep ≠ tracedPlugin.name ∧ p.name = tracedPlugin.name ∧
        ∃ g ∈ entry.added, g.plugin.name = dep := by decide
  rintro ⟨p, _, hcycle | ⟨dep, hchain, hnobody⟩⟩
  · refine Rules.not_transGen_self_of_rank
      (fun name => if name = tracedPlugin.name then 1 else 0) ?_ _ hcycle
    rintro name dep ⟨q, hq, rfl, hdep⟩
    obtain ⟨hne, heq, _⟩ := honly q hq dep hdep
    simp only [if_neg hne, if_pos heq, zero_lt_one]
  · obtain ⟨q, hq, hdep⟩ := dependsOn_last hchain
    obtain ⟨_, _, g, hg, hname⟩ := honly q hq dep hdep
    exact hnobody g hg hname

end Sample

theorem panics_iff_unbuildable_iff_sample :
    (buildRegistered Sample.program .insertion Sample.entry.app = .error .cyclicDependency ↔
        Unbuildable Sample.entry.added) ↔
      (NeedsImmediate Sample.entry.added → Unbuildable Sample.entry.added) :=
  panics_iff_unbuildable_iff (Sample.entry_run .insertion) rfl (Sample.buildsReturn_program _ _)

/-- A plugin that depends on a plugin added before it, and built at once, is refused. -/
theorem immediate_dependency_refused :
    Run (Step Sample.program .insertion) (State.init AppBuilder.Sample.app)
        [.addPlugin Sample.telemetryPlugin, .addPlugin Sample.tracedPlugin, .startBuild, .endAuto]
        Sample.entry ∧
      buildRegistered Sample.program .insertion Sample.entry.app = .error .cyclicDependency ∧
      ¬ Unbuildable Sample.entry.added :=
  ⟨Sample.entry_run .insertion,
    (panics_iff (collected_run (Sample.entry_run .insertion)) rfl
      (Sample.buildsReturn_program _ _)).mpr (Or.inr Sample.entry_needsImmediate),
    Sample.entry_not_unbuildable⟩

end Lifecycle
end Summer
