/-
`AppBuilder::build_plugins` (`summer/src/app.rs`): rounds over the plugins that are left,
each round building the plugins whose dependencies are registered already.

The rounds are those of `Rules.rounds` for the rules "a plugin needs the names it depends
on and gives its own name" (`buildLoop_eq`), so which plugins get built, and whether the
loop panics, follows from the library.
-/
import Summer.App.Builder
import Summer.Lib.Chaining

namespace Summer
namespace AppBuilder

variable {V C T : Type}

/-- The locals of one turn of the `while` loop, and the builder the callbacks change. -/
structure Round (V C T : Type) where
  app : AppBuilder V C T
  registered : Finset String
  progress : Bool
  nextRound : List PluginRef

/-- The body of the `for` loop. -/
def visit (prog : Program V C T) (r : Round V C T) (plugin : PluginRef) :
    Except Panic (Round V C T) :=
  if ∀ dep ∈ plugin.dependencies, dep ∈ r.registered then do
    let app ← prog.build plugin.plugin r.app
    return { app := app,
             registered := insert plugin.name r.registered,
             progress := true,
             nextRound := r.nextRound }
  else
    return { r with nextRound := r.nextRound ++ [plugin] }

def round (prog : Program V C T) (app : AppBuilder V C T) (registered : Finset String)
    (toRegister : List PluginRef) : Except Panic (Round V C T) :=
  toRegister.foldlM (visit prog)
    { app := app, registered := registered, progress := false, nextRound := [] }

/-- The builds of a list of plugins, one after the other. -/
def buildAll (prog : Program V C T) (app : AppBuilder V C T) (l : List PluginRef) :
    Except Panic (AppBuilder V C T) :=
  l.foldlM (fun app r => prog.build r.plugin app) app

/-- A plugin fires once the names it depends on are registered, and registers its own. -/
def pluginRules : Rules PluginRef String where
  needs := fun r => r.dependencies.toFinset
  gives := fun r => {r.name}

@[simp] theorem ready_iff {registered : Finset String} {r : PluginRef} :
    pluginRules.Ready registered r ↔ ∀ dep ∈ r.dependencies, dep ∈ registered := by
  simp only [Rules.Ready, pluginRules, Finset.subset_iff, List.mem_toFinset]

@[simp] theorem learn_eq (registered : Finset String) (r : PluginRef) :
    pluginRules.learn registered r = insert r.name registered := by
  rw [Rules.learn, pluginRules, Finset.insert_eq, Finset.union_comm]

/-- The `for` loop builds what a pass fires and keeps what the pass leaves. -/
theorem foldlM_visit (prog : Program V C T) (r : Round V C T) (l : List PluginRef) :
    l.foldlM (visit prog) r =
      (buildAll prog r.app (pluginRules.pass r.registered l).1).map fun app =>
        { app := app,
          registered := pluginRules.knows r.registered (pluginRules.pass r.registered l).1,
          progress := r.progress || !(pluginRules.pass r.registered l).1.isEmpty,
          nextRound := r.nextRound ++ (pluginRules.pass r.registered l).2 } := by
  induction l generalizing r with
  | nil =>
      simp only [List.foldlM_nil, Rules.pass, buildAll, Rules.knows_nil, List.isEmpty_nil,
        Bool.not_true, Bool.or_false, List.append_nil]
      rfl
  | cons p rest ih =>
      by_cases h : pluginRules.Ready r.registered p
      · simp only [List.foldlM_cons, Rules.pass, if_pos h, visit, if_pos (ready_iff.mp h),
          buildAll, learn_eq, Rules.knows_cons, List.isEmpty_cons, Bool.not_false, Bool.or_true]
        cases prog.build p.plugin r.app with
        | error e => rfl
        | ok app =>
            refine (ih _).trans ?_
            simp only [buildAll, Bool.true_or]
            rfl
      · simp only [List.foldlM_cons, Rules.pass, if_neg h, visit,
          if_neg (fun hall => h (ready_iff.mpr hall))]
        refine (ih _).trans ?_
        simp only [List.append_assoc, List.singleton_append]

theorem round_eq (prog : Program V C T) (app : AppBuilder V C T) (registered : Finset String)
    (toRegister : List PluginRef) :
    round prog app registered toRegister =
      (buildAll prog app (pluginRules.pass registered toRegister).1).map fun app =>
        { app := app,
          registered :=
            pluginRules.knows registered (pluginRules.pass registered toRegister).1,
          progress := !(pluginRules.pass registered toRegister).1.isEmpty,
          nextRound := (pluginRules.pass registered toRegister).2 } := by
  rw [round, foldlM_visit]
  simp only [Bool.false_or, List.nil_append]

/-- A round that makes progress leaves fewer plugins. -/
theorem round_progress {prog : Program V C T} {app : AppBuilder V C T}
    {registered : Finset String} {toRegister : List PluginRef} {r : Round V C T}
    (h : round prog app registered toRegister = .ok r) (hp : r.progress = true) :
    r.nextRound.length < toRegister.length := by
  rw [round_eq] at h
  cases hall : buildAll prog app (pluginRules.pass registered toRegister).1 with
  | error e =>
      rw [hall] at h
      exact absurd h (by simp [Except.map])
  | ok app' =>
      rw [hall, Except.map, Except.ok.injEq] at h
      subst h
      refine Rules.pass_left_lt _ fun hnil => ?_
      simp only [hnil, List.isEmpty_nil, Bool.not_true, Bool.false_eq_true] at hp

/-- The `while` loop. -/
def buildLoop (prog : Program V C T) (app : AppBuilder V C T) (registered : Finset String)
    (toRegister : List PluginRef) : Except Panic (AppBuilder V C T) :=
  if toRegister.isEmpty then
    .ok app
  else
    match _h : round prog app registered toRegister with
    | .error p => .error p
    | .ok r =>
      if _hp : r.progress = true then
        buildLoop prog r.app r.registered r.nextRound
      else
        .error .cyclicDependency
termination_by toRegister.length
decreasing_by exact round_progress _h _hp

/-- The loop of `build_plugins`, from taking the registry to putting it back. -/
def buildRegistered (prog : Program V C T) (order : HashOrder) (app : AppBuilder V C T) :
    Except Panic (AppBuilder V C T) := do
  let registry := app.pluginRegistry
  let app ← buildLoop prog { app with pluginRegistry := .empty } ∅ (order.iter registry)
  return { app with pluginRegistry := registry }

def buildPlugins (prog : Program V C T) (order : HashOrder) (app : AppBuilder V C T) :
    Except Abort (AppBuilder V C T) := do
  let app ← orPanic (app.addAutoPlugins prog)
  let app ← prog.onConfigEvent app
  let app ← orPanic (prog.logPlugin app)
  let app ← orPanic (buildRegistered prog order app)
  prog.onPluginsBuilt app

/-! ## The loop as rounds of rules -/

theorem buildAll_append (prog : Program V C T) (app : AppBuilder V C T)
    (l m : List PluginRef) :
    buildAll prog app (l ++ m) = (buildAll prog app l).bind fun app => buildAll prog app m := by
  rw [buildAll, List.foldlM_append]
  rfl

theorem buildLoop_nil (prog : Program V C T) (app : AppBuilder V C T)
    (registered : Finset String) : buildLoop prog app registered [] = .ok app := by
  rw [buildLoop, List.isEmpty_nil, if_pos rfl]

theorem buildLoop_cons (prog : Program V C T) (app : AppBuilder V C T)
    (registered : Finset String) {toRegister : List PluginRef} (hne : toRegister ≠ []) :
    buildLoop prog app registered toRegister =
      (round prog app registered toRegister).bind fun r =>
        if r.progress = true then buildLoop prog r.app r.registered r.nextRound
        else .error .cyclicDependency := by
  rw [buildLoop, if_neg (by simpa [List.isEmpty_iff] using hne)]
  cases round prog app registered toRegister with
  | error p => rfl
  | ok r =>
      by_cases hp : r.progress = true
      · simp only [Except.bind, dif_pos hp, if_pos hp]
      · simp only [Except.bind, dif_neg hp, if_neg hp]

/-- The loop builds the plugins that the rounds fire, in that order, and panics exactly
when the rounds leave one. -/
theorem buildLoop_eq (prog : Program V C T) (app : AppBuilder V C T)
    (registered : Finset String) (toRegister : List PluginRef) :
    buildLoop prog app registered toRegister =
      (buildAll prog app (pluginRules.rounds registered toRegister).1).bind fun app =>
        if (pluginRules.rounds registered toRegister).2 = [] then .ok app
        else .error .cyclicDependency := by
  induction registered, toRegister using pluginRules.rounds_induction generalizing app with
  | idle registered toRegister h =>
      rw [pluginRules.rounds_idle h]
      by_cases hne : toRegister = []
      · subst hne
        exact buildLoop_nil prog app registered
      · rw [buildLoop_cons prog app registered hne, round_eq, h]
        simp only [if_neg hne]
        rfl
  | step registered toRegister h ih =>
      have hne : toRegister ≠ [] := by
        rintro rfl
        exact h rfl
      rw [buildLoop_cons prog app registered hne, round_eq, pluginRules.rounds_step h,
        buildAll_append]
      cases buildAll prog app (pluginRules.pass registered toRegister).1 with
      | error p => rfl
      | ok app' =>
          have hp : (!(pluginRules.pass registered toRegister).1.isEmpty) = true := by
            simpa [List.isEmpty_iff] using h
          simp only [Except.map, Except.bind, if_pos hp]
          exact ih app'

theorem buildRegistered_eq (prog : Program V C T) (order : HashOrder) (app : AppBuilder V C T) :
    buildRegistered prog order app =
      (buildAll prog { app with pluginRegistry := .empty }
        (pluginRules.rounds ∅ (order.iter app.pluginRegistry)).1).bind fun app' =>
          if (pluginRules.rounds ∅ (order.iter app.pluginRegistry)).2 = [] then
            .ok { app' with pluginRegistry := app.pluginRegistry }
          else .error .cyclicDependency := by
  rw [buildRegistered, buildLoop_eq]
  cases buildAll prog { app with pluginRegistry := .empty }
      (pluginRules.rounds ∅ (order.iter app.pluginRegistry)).1 with
  | error p => rfl
  | ok app' =>
      by_cases h : (pluginRules.rounds ∅ (order.iter app.pluginRegistry)).2 = []
      · simp only [Except.bind, if_pos h]
        rfl
      · simp only [Except.bind, if_neg h]
        rfl

/-! ## Orders that respect dependencies -/

/-- Every plugin of the list comes after all the plugins it depends on. -/
def DependenciesFirst (l : List PluginRef) : Prop :=
  ∀ pre r post, l = pre ++ r :: post → ∀ dep ∈ r.dependencies, ∃ q ∈ pre, q.name = dep

/-- No build panics: whichever plugins have been built, each after those it depends on, the
build of the next one returns. -/
def BuildsReturn (prog : Program V C T) (app : AppBuilder V C T) (l : List PluginRef) : Prop :=
  ∀ pre r a, (pre ++ [r]).Subperm l → DependenciesFirst (pre ++ [r]) →
    buildAll prog app pre = .ok a → ∃ a', prog.build r.plugin a = .ok a'

theorem buildsReturn_of_forall {prog : Program V C T}
    (h : ∀ p a, ∃ a', prog.build p a = .ok a') (app : AppBuilder V C T) (l : List PluginRef) :
    BuildsReturn prog app l :=
  fun _ r a _ _ _ => h r.plugin a

theorem DependenciesFirst.init {l m : List PluginRef} (h : DependenciesFirst (l ++ m)) :
    DependenciesFirst l := by
  intro pre r post hl
  exact h pre r (post ++ m) (by rw [hl, List.append_assoc, List.cons_append])

theorem BuildsReturn.buildAll_ok {prog : Program V C T} {app : AppBuilder V C T}
    {l built : List PluginRef} (h : BuildsReturn prog app l) (hsub : built.Subperm l)
    (hfirst : DependenciesFirst built) : ∃ after, buildAll prog app built = .ok after := by
  induction built using List.reverseRecOn with
  | nil => exact ⟨app, rfl⟩
  | append_singleton pre r ih =>
      obtain ⟨a, ha⟩ := ih ((List.sublist_append_left pre [r]).subperm.trans hsub) hfirst.init
      obtain ⟨a', ha'⟩ := h pre r a hsub hfirst ha
      refine ⟨a', ?_⟩
      rw [buildAll_append, ha]
      show buildAll prog a [r] = .ok a'
      rw [buildAll, List.foldlM_cons, ha']
      rfl

theorem knows_empty_iff {l : List PluginRef} {name : String} :
    name ∈ pluginRules.knows ∅ l ↔ ∃ q ∈ l, q.name = name := by
  simp only [Rules.mem_knows, pluginRules, Finset.notMem_empty, false_or, Finset.mem_singleton,
    eq_comm]

theorem fires_iff_dependenciesFirst {l : List PluginRef} :
    pluginRules.Fires ∅ l ↔ DependenciesFirst l := by
  rw [Rules.fires_iff_split]
  simp only [DependenciesFirst, ready_iff, knows_empty_iff]

/-- Some plugin of the list is called `name` and depends on `dep`. -/
def DependsOn (l : List Plugin) (name dep : String) : Prop :=
  ∃ p ∈ l, p.name = name ∧ dep ∈ p.dependencies

theorem dependsOn_congr {l m : List Plugin} (h : ∀ p, p ∈ l ↔ p ∈ m) :
    DependsOn l = DependsOn m := by
  funext name dep
  exact propext (exists_congr fun p => and_congr_left fun _ => h p)

theorem dependsOn_of_waits {l : List PluginRef} {r q : PluginRef}
    (h : pluginRules.Waits ∅ l r q) : DependsOn (l.map PluginRef.plugin) r.name q.name := by
  obtain ⟨hr, _, dep, hdep, _, hq⟩ := h
  obtain rfl : dep = q.name := Finset.mem_singleton.mp hq
  exact ⟨r.plugin, List.mem_map_of_mem hr, rfl, List.mem_toFinset.mp hdep⟩

/-! ## Registering a list of plugins -/

theorem foldlM_register {app : AppBuilder V C T} {l : List PluginRef}
    (h : ((app.pluginRegistry.refs ++ l).map PluginRef.name).Nodup) :
    ∃ reg : PluginRegistry, reg.refs = app.pluginRegistry.refs ++ l ∧
      l.foldlM register app = .ok { app with pluginRegistry := reg } := by
  induction l generalizing app with
  | nil => exact ⟨app.pluginRegistry, by rw [List.append_nil], rfl⟩
  | cons r rest ih =>
      have hfresh : ¬ app.pluginRegistry.containsKey r.name := by
        rw [List.map_append, List.map_cons] at h
        intro hmem
        exact (List.nodup_append.mp h).2.2 r.name hmem r.name List.mem_cons_self rfl
      have hnodup : (((app.pluginRegistry.insert r hfresh).refs ++ rest).map
          PluginRef.name).Nodup := by
        rw [PluginRegistry.insert_refs, List.append_assoc, List.singleton_append]
        exact h
      let app' := { app with pluginRegistry := app.pluginRegistry.insert r hfresh }
      obtain ⟨reg, hrefs, hfold⟩ := @ih app' hnodup
      refine ⟨reg, ?_, ?_⟩
      · rw [hrefs, PluginRegistry.insert_refs, List.append_assoc, List.singleton_append]
      · rw [List.foldlM_cons, register, dif_neg hfresh]
        exact hfold

theorem foldlM_addPlugin {prog : Program V C T} {plugins : List Plugin}
    (h : ∀ p ∈ plugins, p.immediately = false) (app : AppBuilder V C T) :
    plugins.foldlM (addPlugin prog) app = (plugins.map PluginRef.new).foldlM register app := by
  induction plugins generalizing app with
  | nil => rfl
  | cons p rest ih =>
      have hp : addPlugin prog app p = app.register (PluginRef.new p) := by
        rw [addPlugin, h p List.mem_cons_self]
        rfl
      rw [List.foldlM_cons, List.map_cons, List.foldlM_cons, hp]
      exact bind_congr fun app' => ih (fun q hq => h q (List.mem_cons_of_mem _ hq)) app'

theorem addAutoPlugin_eq {prog : Program V C T} {p : Plugin} (h : p.immediately = false)
    (app : AppBuilder V C T) : addAutoPlugin prog app p = app.register (PluginRef.ofStatic p) := by
  by_cases hc : app.pluginRegistry.containsKey p.name
  · rw [addAutoPlugin, if_pos hc, register_error hc, PluginRef.ofStatic_name]
  · rw [addAutoPlugin, if_neg hc, h]
    rfl

theorem addAutoPlugins_eq {prog : Program V C T}
    (h : ∀ p ∈ prog.inventory, p.immediately = false) (app : AppBuilder V C T) :
    addAutoPlugins prog app = (prog.inventory.map PluginRef.ofStatic).foldlM register app := by
  rw [addAutoPlugins]
  generalize prog.inventory = plugins at h
  induction plugins generalizing app with
  | nil => rfl
  | cons p rest ih =>
      rw [List.foldlM_cons, List.map_cons, List.foldlM_cons,
        addAutoPlugin_eq (h p List.mem_cons_self)]
      exact bind_congr fun app' => ih app' fun q hq => h q (List.mem_cons_of_mem _ hq)

/-- Plugins that are not immediate and have distinct names all get registered, those of
the inventory last. -/
theorem addPlugins_registry {prog : Program V C T} {plugins : List Plugin}
    {app : AppBuilder V C T} (hempty : app.pluginRegistry = .empty)
    (himm : ∀ p ∈ plugins ++ prog.inventory, p.immediately = false)
    (hnames : ((plugins ++ prog.inventory).map Plugin.name).Nodup) :
    ∃ reg : PluginRegistry,
      reg.refs = plugins.map PluginRef.new ++ prog.inventory.map PluginRef.ofStatic ∧
      (plugins.foldlM (addPlugin prog) app).bind (addAutoPlugins prog) =
        .ok { app with pluginRegistry := reg } := by
  have hall : ((app.pluginRegistry.refs ++ (plugins.map PluginRef.new ++
      prog.inventory.map PluginRef.ofStatic)).map PluginRef.name).Nodup := by
    rw [hempty, PluginRegistry.empty_refs, List.nil_append, List.map_append, List.map_map,
      List.map_map]
    rw [List.map_append] at hnames
    exact hnames
  obtain ⟨reg, hrefs, hfold⟩ := foldlM_register hall
  refine ⟨reg, ?_, ?_⟩
  · rw [hrefs, hempty]
    rfl
  · rw [List.foldlM_append] at hfold
    rw [foldlM_addPlugin fun p hp => himm p (List.mem_append_left _ hp)]
    rw [← hfold]
    exact bind_congr fun app' =>
      addAutoPlugins_eq (fun p hp => himm p (List.mem_append_right _ hp)) app'

/-! ## Closed and acyclic sets of plugins -/

theorem oneGiver_of_nodup {l : List PluginRef} (h : (l.map PluginRef.name).Nodup) :
    pluginRules.OneGiver l := by
  intro r hr q hq name hn hn'
  obtain rfl : name = r.name := Finset.mem_singleton.mp hn
  exact List.inj_on_of_nodup_map h hr hq (Finset.mem_singleton.mp hn')

theorem waits_of_dependsOn {l : List PluginRef} (hnames : (l.map PluginRef.name).Nodup)
    {r q : PluginRef} (hr : r ∈ l) (hq : q ∈ l)
    (h : DependsOn (l.map PluginRef.plugin) r.name q.name) : pluginRules.Waits ∅ l r q := by
  obtain ⟨p, hp, hname, hdep⟩ := h
  obtain ⟨r', hr', rfl⟩ := List.mem_map.mp hp
  obtain rfl : r' = r := List.inj_on_of_nodup_map hnames hr' hr hname
  exact ⟨hr, hq, q.name, List.mem_toFinset.mpr hdep, Finset.notMem_empty _,
    Finset.mem_singleton.mpr rfl⟩

/-- A chain of dependencies between names of the list is a chain of waiting plugins. -/
theorem transGen_waits {l : List PluginRef} (hnames : (l.map PluginRef.name).Nodup)
    {r : PluginRef} (hr : r ∈ l) {name : String}
    (h : Relation.TransGen (DependsOn (l.map PluginRef.plugin)) r.name name) :
    ∀ q ∈ l, q.name = name → Relation.TransGen (pluginRules.Waits ∅ l) r q := by
  induction h with
  | single hdep =>
      rintro q hq rfl
      exact .single (waits_of_dependsOn hnames hr hq hdep)
  | tail _ hdep ih =>
      rintro q hq rfl
      obtain ⟨p, hp, rfl, _⟩ := id hdep
      obtain ⟨m, hm, rfl⟩ := List.mem_map.mp hp
      exact .tail (ih m hm rfl) (waits_of_dependsOn hnames hm hq hdep)

/-- The rounds leave a plugin exactly when a plugin is on a dependency cycle or depends on
a name that no plugin of the list has. -/
theorem rounds_left_iff {l : List PluginRef} (hnames : (l.map PluginRef.name).Nodup) :
    (pluginRules.rounds ∅ l).2 ≠ [] ↔
      (∃ r ∈ l, Relation.TransGen (DependsOn (l.map PluginRef.plugin)) r.name r.name) ∨
        ∃ r ∈ l, ∃ dep ∈ r.dependencies, ∀ q ∈ l, q.name ≠ dep := by
  have hcycle : ∀ r ∈ l, Relation.TransGen (pluginRules.Waits ∅ l) r r ↔
      Relation.TransGen (DependsOn (l.map PluginRef.plugin)) r.name r.name := fun r hr =>
    ⟨fun h => h.lift PluginRef.name fun _ _ => dependsOn_of_waits,
      fun h => transGen_waits hnames hr h r hr rfl⟩
  have hlacks : ∀ r, pluginRules.Lacks ∅ l r ↔
      ∃ dep ∈ r.dependencies, ∀ q ∈ l, q.name ≠ dep := by
    intro r
    simp only [Rules.Lacks, pluginRules, List.mem_toFinset, Finset.notMem_empty,
      not_false_eq_true, true_and, Finset.mem_singleton, ne_eq, eq_comm]
  rw [ne_eq, pluginRules.rounds_left_eq_nil_iff (oneGiver_of_nodup hnames), not_and_or]
  refine or_congr ?_ ?_
  · simp only [not_forall, not_not, exists_prop]
    exact exists_congr fun r => and_congr_right fun hr => hcycle r hr
  · simp only [not_forall, not_not, exists_prop]
    exact exists_congr fun r => and_congr_right fun _ => hlacks r

/-- What the rounds fire is part of the registry, each plugin after those it depends on. -/
theorem rounds_subperm (order : HashOrder) (reg : PluginRegistry) :
    (pluginRules.rounds ∅ (order.iter reg)).1.Subperm reg.refs := by
  have hperm := (pluginRules.rounds_perm ∅ (order.iter reg)).trans (order.perm reg)
  exact (List.sublist_append_left _ _).subperm.trans hperm.subperm

theorem buildRegistered_panics_iff {prog : Program V C T} {order : HashOrder}
    {app : AppBuilder V C T}
    (hbuild : BuildsReturn prog { app with pluginRegistry := .empty } app.pluginRegistry.refs) :
    buildRegistered prog order app = .error .cyclicDependency ↔
      (pluginRules.rounds ∅ (order.iter app.pluginRegistry)).2 ≠ [] := by
  obtain ⟨after, hafter⟩ := hbuild.buildAll_ok (rounds_subperm order app.pluginRegistry)
    (fires_iff_dependenciesFirst.mp (pluginRules.rounds_fires ∅ _))
  rw [buildRegistered_eq, hafter]
  by_cases h : (pluginRules.rounds ∅ (order.iter app.pluginRegistry)).2 = []
  · simp only [Except.bind, h, if_true, reduceCtorEq, ne_eq, not_true_eq_false]
  · simp only [Except.bind, h, if_false, ne_eq, not_false_eq_true]

namespace Sample

def redisPlugin : Plugin where
  ty := .concrete 0
  name := "summer_redis::RedisPlugin"
  dependencies := []
  immediately := false

def apalisPlugin : Plugin where
  ty := .concrete 1
  name := "summer_apalis::ApalisPlugin"
  dependencies := ["summer_redis::RedisPlugin"]
  immediately := false

/-- The inventory holds a plugin that depends on one added by hand, and a build notes the
plugin's name among the schedulers. -/
def program : Program Unit Unit String where
  typeName := fun _ => ""
  inventory := [apalisPlugin]
  build := fun p app => .ok (app.addScheduler p.name)
  immediatelyBuild := fun _ app => .ok app
  onConfigEvent := .ok
  logPlugin := .ok
  onPluginsBuilt := .ok

def app : AppBuilder Unit Unit String where
  pluginRegistry := .empty
  components := ∅
  config := ()
  schedulers := []
  shutdownHooks := []

end Sample

/-- With distinct names, every dependency registered and no dependency cycle, the loop
builds every plugin once, each after the plugins it depends on, and puts the registry
back, whatever the order of the registry. -/
theorem buildRegistered_of_acyclic (prog : Program V C T) (order : HashOrder)
    (plugins : List Plugin) (app : AppBuilder V C T) (hempty : app.pluginRegistry = .empty)
    (himm : ∀ p ∈ plugins ++ prog.inventory, p.immediately = false)
    (hnames : ((plugins ++ prog.inventory).map Plugin.name).Nodup)
    (hdeps : ∀ p ∈ plugins ++ prog.inventory, ∀ dep ∈ p.dependencies,
      ∃ q ∈ plugins ++ prog.inventory, q.name = dep)
    (hacyclic : ∀ name,
      ¬ Relation.TransGen (DependsOn (plugins ++ prog.inventory)) name name) :
    ∃ before, (plugins.foldlM (addPlugin prog) app).bind (addAutoPlugins prog) = .ok before ∧
      ∀ entry : AppBuilder V C T, entry.pluginRegistry = before.pluginRegistry →
        BuildsReturn prog { entry with pluginRegistry := .empty } entry.pluginRegistry.refs →
        ∃ built after,
          (built.map PluginRef.plugin).Perm (plugins ++ prog.inventory) ∧
          DependenciesFirst built ∧
          buildAll prog { entry with pluginRegistry := .empty } built = .ok after ∧
          buildRegistered prog order entry =
            .ok { after with pluginRegistry := before.pluginRegistry } := by
  obtain ⟨reg, hrefs, hadd⟩ := addPlugins_registry hempty himm hnames
  refine ⟨_, hadd, fun entry hentry hbuild => ?_⟩
  obtain rfl : entry.pluginRegistry = reg := hentry
  let l := order.iter entry.pluginRegistry
  have hperm : l.Perm entry.pluginRegistry.refs := order.perm _
  have hplugins : (entry.pluginRegistry.refs.map PluginRef.plugin) =
      plugins ++ prog.inventory := by
    rw [hrefs, List.map_append, List.map_map, List.map_map]
    exact congrArg₂ _ (List.map_id _) (List.map_id _)
  have hmem : ∀ p, p ∈ plugins ++ prog.inventory ↔ ∃ r ∈ l, r.plugin = p := by
    intro p
    rw [← hplugins, List.mem_map]
    exact exists_congr fun r => and_congr_left fun _ => hperm.mem_iff.symm
  have hleft : (pluginRules.rounds ∅ l).2 = [] := by
    by_contra hne
    rcases (rounds_left_iff ((hperm.map _).nodup_iff.mpr entry.pluginRegistry.nodup)).mp hne
      with ⟨r, _, hcycle⟩ | ⟨r, hr, dep, hdep, hnobody⟩
    · rw [dependsOn_congr fun p => List.mem_map.trans (hmem p).symm] at hcycle
      exact hacyclic r.name hcycle
    · obtain ⟨q, hq, hname⟩ := hdeps r.plugin ((hmem _).mpr ⟨r, hr, rfl⟩) dep hdep
      obtain ⟨q', hq', rfl⟩ := (hmem q).mp hq
      exact hnobody q' hq' hname
  have hfired : ((pluginRules.rounds ∅ l).1).Perm l := by
    have hrounds := pluginRules.rounds_perm ∅ l
    rwa [hleft, List.append_nil] at hrounds
  have hfirst : DependenciesFirst (pluginRules.rounds ∅ l).1 :=
    fires_iff_dependenciesFirst.mp (pluginRules.rounds_fires ∅ l)
  obtain ⟨after, hafter⟩ := hbuild.buildAll_ok (rounds_subperm order entry.pluginRegistry) hfirst
  refine ⟨(pluginRules.rounds ∅ l).1, after, ?_, hfirst, hafter, ?_⟩
  · rw [← hplugins]
    exact (hfired.trans hperm).map _
  · rw [buildRegistered_eq, hafter]
    exact if_pos hleft

theorem buildRegistered_of_acyclic_sample :
    ∃ before, ([Sample.redisPlugin].foldlM (addPlugin Sample.program) Sample.app).bind
        (addAutoPlugins Sample.program) = .ok before ∧
      ∀ entry : AppBuilder Unit Unit String, entry.pluginRegistry = before.pluginRegistry →
        ∃ built after,
          (built.map PluginRef.plugin).Perm [Sample.redisPlugin, Sample.apalisPlugin] ∧
          DependenciesFirst built ∧
          buildAll Sample.program { entry with pluginRegistry := .empty } built = .ok after ∧
          buildRegistered Sample.program .insertion entry =
            .ok { after with pluginRegistry := before.pluginRegistry } := by
  let rank : String → ℕ := fun name => if name = Sample.apalisPlugin.name then 1 else 0
  have hrank : ∀ p ∈ [Sample.redisPlugin] ++ Sample.program.inventory,
      ∀ dep ∈ p.dependencies, rank dep < rank p.name := by decide
  have hacyclic : ∀ name, ¬ Relation.TransGen
      (DependsOn ([Sample.redisPlugin] ++ Sample.program.inventory)) name name := by
    apply Rules.not_transGen_self_of_rank rank
    intro name dep hdep
    obtain ⟨p, hp, rfl, hmem⟩ := hdep
    exact hrank p hp dep hmem
  obtain ⟨before, hadd, hall⟩ := buildRegistered_of_acyclic Sample.program .insertion
    [Sample.redisPlugin] Sample.app rfl (by decide) (by decide) (by decide) hacyclic
  refine ⟨before, hadd, fun entry hentry => hall entry hentry ?_⟩
  exact buildsReturn_of_forall (fun p a => ⟨a.addScheduler p.name, rfl⟩) _ _

end AppBuilder
end Summer
