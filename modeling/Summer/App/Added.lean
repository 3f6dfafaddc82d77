/-
What becomes of the plugins a builder is given.

`build_plugins` takes the registry out of the builder while the build callbacks run and
writes the old one back afterwards.  As long as the callbacks add no ordinary plugin and
no name is shared with an immediate plugin, every plugin given is known in every state
and built when `build_plugins` returns (`keeps_run`).  `is_plugin_added` reads the registry
that is in the builder at the moment, under the types and names recorded there
(`isPluginAdded_iff_given`).
-/
import Summer.App.Lifecycle

namespace Summer
namespace Lifecycle

open AppBuilder

variable {V C T : Type}

/-- The registry with the plugins to build: the builder's own, or while the loop runs the
one `build_plugins` took. -/
def Phase.registry (own : PluginRegistry) : Phase → PluginRegistry
  | .head saved _ _ | .round saved _ _ _ _ _ => saved
  | _ => own

def State.registry (s : State V C T) : PluginRegistry := s.phase.registry s.app.pluginRegistry

/-- The plugin has been built or is held for building. -/
def State.Known (s : State V C T) (p : Plugin) : Prop :=
  p ∈ s.built ∨ ∃ r ∈ s.registry.refs, r.plugin = p

/-- The steps that keep every plugin known: ordinary plugins are added before the registry
is taken, plugins of one name are both ordinary, and no listener of `ConfigEvent` ends
`build_plugins` with its error.  An immediate plugin of the inventory may have the name of
an ordinary one, since `add_auto_plugins` checks it. -/
def Allowed (s : State V C T) : Act → Prop
  | .addPlugin p => (p.immediately = false → s.phase.beforeLoop) ∧
      ∀ g ∈ s.added, g.plugin.name = p.name →
        g.plugin.immediately = false ∧ p.immediately = false
  | .addAuto p => ∀ g ∈ s.added, g.plugin.name = p.name → g.plugin.immediately = false
  | .fail _ => s.phase ≠ .config
  | _ => True

/-- While the loop runs the builder's own registry is empty, and the plugins taken are
built or still to build. -/
structure InLoop (own : PluginRegistry) (built : List Plugin) (saved : PluginRegistry)
    (todo : List PluginRef) : Prop where
  own_empty : own.refs = []
  built_or_todo : ∀ r ∈ saved.refs, r.plugin ∈ built ∨ r ∈ todo
  todo_saved : ∀ r ∈ todo, r ∈ saved.refs

def Remaining (own : PluginRegistry) (built : List Plugin) : Phase → Prop
  | .head saved toRegister _ => InLoop own built saved toRegister
  | .round saved current nextRound _ _ building =>
      InLoop own built saved (building.toList ++ (current ++ nextRound))
  | .built | .returned | .failed _ => ∀ r ∈ own.refs, r.plugin ∈ built
  | _ => True

/-- The invariant of the allowed runs. -/
structure Keeps (s : State V C T) : Prop where
  names : (s.added.map fun g => g.plugin.name).Nodup
  immediate : ∀ g ∈ s.added, g.plugin.immediately = true → g.plugin ∈ s.built
  refs : s.phase.live → s.registry.refs = givenRefs s.added
  given : ∀ p ∈ s.built, ∃ g ∈ s.added, g.plugin = p
  remaining : Remaining s.app.pluginRegistry s.built s.phase

theorem mem_givenRefs {added : List Given} {r : PluginRef} :
    r ∈ givenRefs added ↔ ∃ g ∈ added, g.plugin.immediately = false ∧ g.ref = r := by
  simp only [givenRefs, List.mem_map, mem_ordinary, and_assoc]

/-- The plugins of a state that keeps them are exactly the known ones. -/
theorem Keeps.known_iff {s : State V C T} (h : Keeps s) (hlive : s.phase.live) {p : Plugin} :
    s.Known p ↔ ∃ g ∈ s.added, g.plugin = p := by
  constructor
  · rintro (hp | ⟨r, hr, rfl⟩)
    · exact h.given p hp
    · rw [h.refs hlive, mem_givenRefs] at hr
      obtain ⟨g, hg, _, rfl⟩ := hr
      exact ⟨g, hg, g.ref_plugin.symm⟩
  · rintro ⟨g, hg, rfl⟩
    cases himm : g.plugin.immediately with
    | true => exact Or.inl (h.immediate g hg himm)
    | false =>
        refine Or.inr ⟨g.ref, ?_, g.ref_plugin⟩
        rw [h.refs hlive]
        exact mem_givenRefs.mpr ⟨g, hg, himm, rfl⟩

theorem keeps_init (app : AppBuilder V C T) : Keeps (State.init app) where
  names := List.nodup_nil
  immediate := fun _ hg => absurd hg List.not_mem_nil
  refs := fun _ => rfl
  given := fun _ hp => absurd hp List.not_mem_nil
  remaining := trivial

/-! ## Steps -/

theorem names_give {added : List Given} {g : Given}
    (h : (added.map fun g => g.plugin.name).Nodup)
    (hfresh : ∀ g' ∈ added, g'.plugin.name ≠ g.plugin.name) :
    ((added ++ [g]).map fun g => g.plugin.name).Nodup := by
  rw [List.map_append, List.map_singleton, ← List.concat_eq_append]
  refine List.Nodup.concat (fun hmem => ?_) h
  obtain ⟨g', hg', hname⟩ := List.mem_map.mp hmem
  exact hfresh g' hg' hname

/-- A name that is not a key of the registry is no ordinary plugin's name. -/
theorem ordinary_fresh {own : PluginRegistry} {added : List Given}
    (hrefs : own.refs = givenRefs added) {name : String} (h : ¬ own.containsKey name) :
    ∀ g ∈ added, g.plugin.immediately = false → g.plugin.name ≠ name := by
  intro g hg himm hname
  refine h (PluginRegistry.containsKey_iff.mpr ⟨g.ref, ?_, ?_⟩)
  · rw [hrefs]
    exact mem_givenRefs.mpr ⟨g, hg, himm, rfl⟩
  · rw [PluginRef.name, g.ref_plugin, hname]

theorem Phase.registry_of_beforeLoop {own : PluginRegistry} {phase : Phase}
    (h : phase.beforeLoop) : phase.registry own = own := by
  cases phase <;> first | rfl | trivial

theorem remaining_of_beforeLoop {own : PluginRegistry} {built : List Plugin} {phase : Phase}
    (h : phase.beforeLoop) : Remaining own built phase := by
  cases phase <;> trivial

theorem InLoop.mono {own saved : PluginRegistry} {built built' : List Plugin}
    {todo todo' : List PluginRef} (h : InLoop own built saved todo) (hbuilt : built ⊆ built')
    (htodo : ∀ r, r ∈ todo' ↔ r ∈ todo) : InLoop own built' saved todo' where
  own_empty := h.own_empty
  built_or_todo := fun r hr =>
    (h.built_or_todo r hr).imp (fun hb => hbuilt hb) (fun ht => (htodo r).mpr ht)
  todo_saved := fun r hr => h.todo_saved r ((htodo r).mp hr)

theorem InLoop.build {own saved : PluginRegistry} {built : List Plugin} {r : PluginRef}
    {todo : List PluginRef} (h : InLoop own built saved (r :: todo)) :
    InLoop own (built ++ [r.plugin]) saved todo where
  own_empty := h.own_empty
  built_or_todo := by
    intro q hq
    rcases h.built_or_todo q hq with hb | ht
    · exact Or.inl (List.mem_append_left _ hb)
    · rcases List.mem_cons.mp ht with rfl | ht
      · exact Or.inl (List.mem_append_right _ (List.mem_singleton.mpr rfl))
      · exact Or.inr ht
  todo_saved := fun q hq => h.todo_saved q (List.mem_cons_of_mem _ hq)

theorem remaining_mono {own : PluginRegistry} {built built' : List Plugin} {phase : Phase}
    (h : Remaining own built phase) (hsub : built ⊆ built') : Remaining own built' phase := by
  cases phase with
  | head saved toRegister registered => exact InLoop.mono h hsub fun _ => Iff.rfl
  | round saved current nextRound registered progress building =>
      exact InLoop.mono h hsub fun _ => Iff.rfl
  | built => exact fun r hr => hsub (h r hr)
  | returned => exact fun r hr => hsub (h r hr)
  | failed e => exact fun r hr => hsub (h r hr)
  | _ => trivial

theorem Keeps.goto_beforeLoop {s : State V C T} (h : Keeps s) (hs : s.phase.beforeLoop)
    (phase : Phase) (hphase : phase.beforeLoop) : Keeps (s.goto phase) where
  names := h.names
  immediate := h.immediate
  refs := fun _ => by
    have hrefs := h.refs (by cases hp : s.phase <;> rw [hp] at hs <;> trivial)
    rw [State.registry, Phase.registry_of_beforeLoop hs] at hrefs
    rw [State.registry, State.goto, Phase.registry_of_beforeLoop hphase]
    exact hrefs
  given := h.given
  remaining := remaining_of_beforeLoop hphase

theorem Keeps.goto_panicked {s : State V C T} (h : Keeps s) (e : Panic) :
    Keeps (s.goto (.panicked e)) where
  names := h.names
  immediate := h.immediate
  refs := fun hlive => absurd hlive id
  given := h.given
  remaining := trivial

theorem Keeps.give_immediate {s : State V C T} (h : Keeps s) {g : Given}
    (himm : g.plugin.immediately = true)
    (hfresh : ∀ g' ∈ s.added, g'.plugin.name ≠ g.plugin.name) :
    Keeps ((s.give g).runs g.plugin) where
  names := names_give h.names hfresh
  immediate := by
    intro g' hg' himm'
    rcases List.mem_append.mp hg' with hg' | hg'
    · exact List.mem_append_left _ (h.immediate g' hg' himm')
    · obtain rfl := List.mem_singleton.mp hg'
      exact List.mem_append_right _ (List.mem_singleton.mpr rfl)
  refs := fun hlive => (h.refs hlive).trans (givenRefs_append_immediate himm).symm
  given := by
    intro p hp
    rcases List.mem_append.mp hp with hp | hp
    · obtain ⟨g', hg', rfl⟩ := h.given p hp
      exact ⟨g', List.mem_append_left _ hg', rfl⟩
    · exact ⟨g, List.mem_append_right _ (List.mem_singleton.mpr rfl),
        (List.mem_singleton.mp hp).symm⟩
  remaining := remaining_mono h.remaining (List.subset_append_left _ _)

theorem Keeps.give_ordinary {s : State V C T} (h : Keeps s) (hs : s.phase.beforeLoop) {g : Given}
    {app : AppBuilder V C T} (himm : g.plugin.immediately = false)
    (hreg : s.app.register g.ref = .ok app)
    (hfresh : ∀ g' ∈ s.added, g'.plugin.name = g.plugin.name → g'.plugin.immediately = false) :
    Keeps ({ s with app := app }.give g) := by
  have hlive : s.phase.live := by cases hp : s.phase <;> rw [hp] at hs <;> trivial
  obtain ⟨hnew, happ⟩ := register_ok hreg
  have hrefs : s.app.pluginRegistry.refs = givenRefs s.added := by
    have hrefs := h.refs hlive
    rwa [State.registry, Phase.registry_of_beforeLoop hs] at hrefs
  refine ⟨names_give h.names fun g' hg' hname => ?_, ?_, fun _ => ?_, ?_,
    remaining_of_beforeLoop hs⟩
  · refine ordinary_fresh hrefs hnew g' hg' (hfresh g' hg' hname) (hname.trans ?_)
    rw [PluginRef.name, g.ref_plugin]
  · intro g' hg' himm'
    rcases List.mem_append.mp hg' with hg' | hg'
    · exact h.immediate g' hg' himm'
    · obtain rfl := List.mem_singleton.mp hg'
      exact absurd himm' (by rw [himm]; exact Bool.false_ne_true)
  · rw [State.registry]
    refine (congrArg PluginRegistry.refs (Phase.registry_of_beforeLoop hs)).trans ?_
    refine happ.trans ?_
    rw [hrefs]
    exact (givenRefs_append himm).symm
  · intro p hp
    obtain ⟨g', hg', rfl⟩ := h.given p hp
    exact ⟨g', List.mem_append_left _ hg', rfl⟩

theorem Keeps.at_head {s : State V C T} (h : Keeps s) {saved : PluginRegistry}
    {toRegister : List PluginRef} {registered : Finset String}
    (hs : s.phase = .head saved toRegister registered) :
    saved.refs = givenRefs s.added ∧
      InLoop s.app.pluginRegistry s.built saved toRegister := by
  have hrefs := h.refs (by rw [hs]; trivial)
  have hrem := h.remaining
  rw [State.registry, hs] at hrefs
  rw [hs] at hrem
  exact ⟨hrefs, hrem⟩

theorem Keeps.at_round {s : State V C T} (h : Keeps s) {saved : PluginRegistry}
    {current nextRound : List PluginRef} {registered : Finset String} {progress : Bool}
    {building : Option PluginRef}
    (hs : s.phase = .round saved current nextRound registered progress building) :
    saved.refs = givenRefs s.added ∧
      InLoop s.app.pluginRegistry s.built saved
        (building.toList ++ (current ++ nextRound)) := by
  have hrefs := h.refs (by rw [hs]; trivial)
  have hrem := h.remaining
  rw [State.registry, hs] at hrefs
  rw [hs] at hrem
  exact ⟨hrefs, hrem⟩

theorem Keeps.at_built {s : State V C T} (h : Keeps s) (hs : s.phase = .built) :
    s.app.pluginRegistry.refs = givenRefs s.added ∧
      ∀ r ∈ s.app.pluginRegistry.refs, r.plugin ∈ s.built := by
  have hrefs := h.refs (by rw [hs]; trivial)
  have hrem := h.remaining
  rw [State.registry, hs] at hrefs
  rw [hs] at hrem
  exact ⟨hrefs, hrem⟩

theorem keeps_step {prog : Program V C T} {order : HashOrder} {s t : State V C T} {a : Act}
    (h : Run.Guarded (Step prog order) Allowed s a t) (hs : Keeps s) : Keeps t := by
  obtain ⟨hstep, hallowed⟩ := h
  cases hstep with
  | touch app hu hreg =>
      refine ⟨hs.names, hs.immediate, fun hlive => ?_, hs.given, ?_⟩
      · rw [State.registry, hreg]
        exact hs.refs hlive
      · rw [hreg]
        exact hs.remaining
  | addImmediate p hu himm =>
      refine hs.give_immediate himm fun g hg hname => ?_
      exact absurd (hallowed.2 g hg hname).2 (by rw [himm]; exact Bool.noConfusion)
  | addOrdinary p app hu himm hreg =>
      exact hs.give_ordinary (hallowed.1 himm) himm hreg fun g hg hname =>
        (hallowed.2 g hg hname).1
  | addRejected p e hu himm hreg => exact hs.goto_panicked e
  | panic text hu => exact hs.goto_panicked _
  | failConfig e hph => exact absurd hph hallowed
  | failBuilt e hph =>
      obtain ⟨hrefs, hrem⟩ := hs.at_built hph
      exact ⟨hs.names, hs.immediate, fun _ => hrefs, hs.given, hrem⟩
  | startBuild hph => exact hs.goto_beforeLoop (by rw [hph]; trivial) _ trivial
  | autoImmediate p rest hph hfree himm =>
      have hbefore : s.phase.beforeLoop := by rw [hph]; trivial
      have hrefs := hs.refs (by rw [hph]; trivial)
      rw [State.registry, Phase.registry_of_beforeLoop hbefore] at hrefs
      refine Keeps.goto_beforeLoop (s := (s.give ⟨p, true⟩).runs p)
        (hs.give_immediate (g := ⟨p, true⟩) himm fun g hg hname => ?_) hbefore
        (.auto rest) trivial
      exact ordinary_fresh hrefs hfree g hg (hallowed g hg hname) hname
  | autoOrdinary p rest app hph himm hreg =>
      have hbefore : s.phase.beforeLoop := by rw [hph]; trivial
      exact Keeps.goto_beforeLoop (s := { s with app := app }.give ⟨p, true⟩)
        (hs.give_ordinary (g := ⟨p, true⟩) hbefore himm hreg hallowed) hbefore
        (.auto rest) trivial
  | autoRejected p rest hph htaken => exact hs.goto_panicked _
  | endAuto hph => exact hs.goto_beforeLoop (by rw [hph]; trivial) _ trivial
  | takeRegistry hph =>
      have hrefs := hs.refs (by rw [hph]; trivial)
      rw [State.registry, hph] at hrefs
      exact ⟨hs.names, hs.immediate, fun _ => hrefs, hs.given, rfl,
        fun r hr => Or.inr ((order.perm _).mem_iff.mpr hr),
        fun r hr => (order.perm _).mem_iff.mp hr⟩
  | enterRound saved toRegister registered hph hne =>
      obtain ⟨hrefs, hloop⟩ := hs.at_head hph
      exact ⟨hs.names, hs.immediate, fun _ => hrefs, hs.given,
        hloop.mono (List.Subset.refl _) fun r => by simp⟩
  | startPlugin saved r rest nextRound registered progress hph hready =>
      obtain ⟨hrefs, hloop⟩ := hs.at_round hph
      exact ⟨hs.names, hs.immediate, fun _ => hrefs, hs.given, hloop⟩
  | finishPlugin saved r current nextRound registered progress hph =>
      obtain ⟨hrefs, hloop⟩ := hs.at_round hph
      refine ⟨hs.names, fun g hg himm => List.mem_append_left _ (hs.immediate g hg himm),
        fun _ => hrefs, fun p hp => ?_, hloop.build⟩
      rcases List.mem_append.mp hp with hp | hp
      · exact hs.given p hp
      · obtain rfl := List.mem_singleton.mp hp
        have hr := hloop.todo_saved r List.mem_cons_self
        rw [hrefs, mem_givenRefs] at hr
        obtain ⟨g, hg, _, rfl⟩ := hr
        exact ⟨g, hg, g.ref_plugin.symm⟩
  | skipPlugin saved r rest nextRound registered progress hph hwait =>
      obtain ⟨hrefs, hloop⟩ := hs.at_round hph
      exact ⟨hs.names, hs.immediate, fun _ => hrefs, hs.given,
        hloop.mono (List.Subset.refl _) fun q => by simp [or_comm, or_left_comm]⟩
  | endRound saved nextRound registered hph =>
      obtain ⟨hrefs, hloop⟩ := hs.at_round hph
      exact ⟨hs.names, hs.immediate, fun _ => hrefs, hs.given, hloop⟩
  | stuck saved nextRound registered hph => exact hs.goto_panicked _
  | restoreRegistry saved registered hph =>
      obtain ⟨hrefs, hloop⟩ := hs.at_head hph
      exact ⟨hs.names, hs.immediate, fun _ => hrefs, hs.given,
        fun r hr => (hloop.built_or_todo r hr).resolve_right List.not_mem_nil⟩
  | «return» hph =>
      obtain ⟨hrefs, hrem⟩ := hs.at_built hph
      exact ⟨hs.names, hs.immediate, fun _ => hrefs, hs.given, hrem⟩

/-- No step takes a plugin back. -/
theorem added_step {prog : Program V C T} {order : HashOrder} {s t : State V C T} {a : Act}
    (h : Step prog order s a t) : s.added ⊆ t.added := by
  cases h <;> first
    | exact List.Subset.refl _
    | exact List.subset_append_left _ _

theorem added_run {prog : Program V C T} {order : HashOrder} {s t : State V C T}
    {acts : List Act} (h : Run (Step prog order) s acts t) : s.added ⊆ t.added :=
  h.rel (r := fun s t => s.added ⊆ t.added) (fun _ => List.Subset.refl _)
    (fun _ _ _ => List.Subset.trans) fun _ _ _ => added_step

theorem keeps_run {prog : Program V C T} {order : HashOrder} {s t : State V C T}
    {acts : List Act} (h : Run (Run.Guarded (Step prog order) Allowed) s acts t)
    (hs : Keeps s) : Keeps t :=
  h.invariant (I := Keeps) (fun _ _ _ => keeps_step) hs

/-! ## Rejected names -/

/-- The plugin that a step hands to the builder. -/
def Act.plugin? : Act → Option Plugin
  | .addPlugin p | .addAuto p => some p
  | _ => none

theorem rejected_of_name_taken {prog : Program V C T} {order : HashOrder} {s t : State V C T}
    {a : Act} (hs : Keeps s) (h : Run.Guarded (Step prog order) Allowed s a t) {p : Plugin}
    (ha : a.plugin? = some p) (htaken : ∃ g ∈ s.added, g.plugin.name = p.name) :
    t = s.goto (.panicked (.pluginAdded p.name)) := by
  obtain ⟨hstep, hallowed⟩ := h
  obtain ⟨g, hg, hname⟩ := htaken
  have hown : s.phase.beforeLoop → s.app.pluginRegistry.refs = givenRefs s.added := by
    intro hbefore
    have hrefs := hs.refs (by cases hp : s.phase <;> rw [hp] at hbefore <;> trivial)
    rwa [State.registry, Phase.registry_of_beforeLoop hbefore] at hrefs
  cases hstep with
  | addImmediate q hu himm =>
      obtain rfl := Option.some.inj ha
      exact absurd (hallowed.2 g hg hname).2 (by rw [himm]; exact Bool.noConfusion)
  | addOrdinary q app hu himm hreg =>
      obtain rfl := Option.some.inj ha
      exact absurd hname (ordinary_fresh (hown (hallowed.1 himm)) (register_ok hreg).1 g hg
        (hallowed.2 g hg hname).1)
  | addRejected q e hu himm hreg =>
      obtain rfl := Option.some.inj ha
      by_cases hc : s.app.pluginRegistry.containsKey q.name
      · rw [register_error hc, Except.error.injEq] at hreg
        rw [← hreg, PluginRef.new_name]
      · obtain ⟨app', happ'⟩ := register_fresh s.app (PluginRef.new q) hc
        exact absurd (happ'.symm.trans hreg) (by simp)
  | autoImmediate q rest hph hfree himm =>
      obtain rfl := Option.some.inj ha
      exact absurd hname
        (ordinary_fresh (hown (by rw [hph]; trivial)) hfree g hg (hallowed g hg hname))
  | autoOrdinary q rest app hph himm hreg =>
      obtain rfl := Option.some.inj ha
      exact absurd hname (ordinary_fresh (hown (by rw [hph]; trivial)) (register_ok hreg).1 g hg
        (hallowed g hg hname))
  | autoRejected q rest hph htaken =>
      obtain rfl := Option.some.inj ha
      rfl
  | _ => exact absurd ha (by simp [Act.plugin?])

/-! ## Answers of `is_plugin_added` -/

/-- An entry of the registry does not show this plugin: it was built at once, or the loop
is running, or it came from the inventory under a name other than that of its type. -/
def Hidden (prog : Program V C T) (s : State V C T) (g : Given) : Prop :=
  g.plugin.immediately = true ∨ s.phase.looping ∨
    (g.ref.concreteTypeId ≠ g.plugin.ty ∧ g.plugin.name ≠ prog.typeName g.plugin.ty)

/-- The entry of this plugin is taken for one of the type `ty`, which it is not. -/
def Mistaken (prog : Program V C T) (s : State V C T) (ty : TypeId) (g : Given) : Prop :=
  g.plugin.immediately = false ∧ ¬ s.phase.looping ∧ g.plugin.ty ≠ ty ∧
    (g.ref.concreteTypeId = ty ∨ g.plugin.name = prog.typeName ty)

/-- `is_plugin_added` in terms of the plugins given. -/
theorem isPluginAdded_iff_given {prog : Program V C T} {s : State V C T} (h : Keeps s)
    (hlive : s.phase.live) {ty : TypeId} :
    s.app.isPluginAdded prog ty = true ↔
      ¬ s.phase.looping ∧ ∃ g ∈ s.added, g.plugin.immediately = false ∧
        (g.ref.concreteTypeId = ty ∨ g.plugin.name = prog.typeName ty) := by
  rw [isPluginAdded_iff]
  by_cases hloop : s.phase.looping
  · have hempty : s.app.pluginRegistry.refs = [] := by
      have hrem := h.remaining
      cases hph : s.phase with
      | head saved toRegister registered =>
          rw [hph] at hrem
          exact hrem.own_empty
      | round saved current nextRound registered progress building =>
          rw [hph] at hrem
          exact hrem.own_empty
      | _ => exact absurd hloop (by rw [hph]; exact id)
    simp only [hempty, List.not_mem_nil, false_and, exists_false, hloop, not_true_eq_false]
  · have hrefs : s.app.pluginRegistry.refs = givenRefs s.added := by
      refine Eq.trans ?_ (h.refs hlive)
      rw [State.registry]
      cases hph : s.phase <;> first | rfl | exact absurd (hph ▸ trivial) hloop
    simp only [hrefs, mem_givenRefs, hloop, not_false_eq_true, true_and]
    constructor
    · rintro ⟨_, ⟨g, hg, himm, rfl⟩, hmatch⟩
      rw [PluginRef.name, g.ref_plugin] at hmatch
      exact ⟨g, hg, himm, hmatch⟩
    · rintro ⟨g, hg, himm, hmatch⟩
      refine ⟨g.ref, ⟨g, hg, himm, rfl⟩, ?_⟩
      rw [PluginRef.name, g.ref_plugin]
      exact hmatch

theorem isPluginAdded_iff_added {prog : Program V C T} {s : State V C T} (h : Keeps s)
    (hlive : s.phase.live) {ty : TypeId}
    (hseen : ∀ g ∈ s.added, g.plugin.ty = ty → ¬ Hidden prog s g)
    (hothers : ∀ g ∈ s.added, ¬ Mistaken prog s ty g) :
    s.app.isPluginAdded prog ty = true ↔ ∃ g ∈ s.added, g.plugin.ty = ty := by
  rw [isPluginAdded_iff_given h hlive]
  constructor
  · rintro ⟨hloop, g, hg, himm, hmatch⟩
    by_contra hnone
    exact hothers g hg ⟨himm, hloop, fun hty => hnone ⟨g, hg, hty⟩, hmatch⟩
  · rintro ⟨g, hg, rfl⟩
    have hvisible := hseen g hg rfl
    simp only [Hidden, not_or, not_and_or, not_not, Bool.not_eq_true] at hvisible
    exact ⟨hvisible.2.1, g, hg, hvisible.1, hvisible.2.2⟩

/-- In every allowed run: the plugins added are known in every state, the known plugins
only grow, a taken name is rejected, every plugin added is built once `build_plugins` has
ended, and `is_plugin_added` is right about the types that no entry hides or mistakes. -/
theorem plugins_kept {prog : Program V C T} {order : HashOrder} {app : AppBuilder V C T}
    {acts : List Act} {s : State V C T}
    (hrun : Run (Run.Guarded (Step prog order) Allowed) (State.init app) acts s)
    (hlive : s.phase.live) :
    (∀ p, s.Known p ↔ ∃ g ∈ s.added, g.plugin = p) ∧
      (∀ acts' t, Run (Run.Guarded (Step prog order) Allowed) s acts' t → t.phase.live →
        ∀ p, s.Known p → t.Known p) ∧
      (∀ a t p, Run.Guarded (Step prog order) Allowed s a t → a.plugin? = some p →
        (∃ g ∈ s.added, g.plugin.name = p.name) →
        t = s.goto (.panicked (.pluginAdded p.name))) ∧
      ((s.phase = .returned ∨ ∃ e, s.phase = .failed e) →
        ∀ g ∈ s.added, g.plugin ∈ s.built) ∧
      ∀ ty, (∀ g ∈ s.added, g.plugin.ty = ty → ¬ Hidden prog s g) →
        (∀ g ∈ s.added, ¬ Mistaken prog s ty g) →
        (s.app.isPluginAdded prog ty = true ↔ ∃ g ∈ s.added, g.plugin.ty = ty) := by
  have hs : Keeps s := keeps_run hrun (keeps_init app)
  refine ⟨fun p => hs.known_iff hlive, fun acts' t hrun' hlive' p hp => ?_,
    fun a t p h ha htaken => rejected_of_name_taken hs h ha htaken, fun hended g hg => ?_,
    fun ty hseen hothers => isPluginAdded_iff_added hs hlive hseen hothers⟩
  · have ht := keeps_run hrun' hs
    obtain ⟨g, hg, rfl⟩ := (hs.known_iff hlive).mp hp
    exact (ht.known_iff hlive').mpr ⟨g, added_run hrun'.of_guarded hg, rfl⟩
  · rcases (hs.known_iff hlive).mpr ⟨g, hg, rfl⟩ with hb | ⟨r, hr, hrg⟩
    · exact hb
    · have hrem := hs.remaining
      rw [← hrg]
      rcases hended with hph | ⟨e, hph⟩
      · rw [hph] at hrem
        rw [State.registry, hph] at hr
        exact hrem r hr
      · rw [hph] at hrem
        rw [State.registry, hph] at hr
        exact hrem r hr

namespace Sample

/-- The builder when the sample program's two plugins are built. -/
def done : State Unit Unit String where
  app := { AppBuilder.Sample.app with
    pluginRegistry :=
      { refs := [PluginRef.new AppBuilder.Sample.redisPlugin,
          PluginRef.ofStatic AppBuilder.Sample.apalisPlugin],
        nodup := by decide } }
  phase := .returned
  added := [{ plugin := AppBuilder.Sample.redisPlugin, inventory := false },
    { plugin := AppBuilder.Sample.apalisPlugin, inventory := true }]
  built := [AppBuilder.Sample.redisPlugin, AppBuilder.Sample.apalisPlugin]

theorem done_run :
    Run (Run.Guarded (Step AppBuilder.Sample.program .insertion) Allowed)
      (State.init AppBuilder.Sample.app)
      [.addPlugin AppBuilder.Sample.redisPlugin, .startBuild,
        .addAuto AppBuilder.Sample.apalisPlugin, .endAuto, .takeRegistry, .enterRound,
        .startPlugin (PluginRef.new AppBuilder.Sample.redisPlugin),
        .finishPlugin (PluginRef.new AppBuilder.Sample.redisPlugin),
        .startPlugin (PluginRef.ofStatic AppBuilder.Sample.apalisPlugin),
        .finishPlugin (PluginRef.ofStatic AppBuilder.Sample.apalisPlugin),
        .endRound, .restoreRegistry, .return]
      done :=
  .cons ⟨.addOrdinary _ _ trivial rfl rfl, fun _ => trivial, by decide⟩
    (.cons ⟨.startBuild rfl, trivial⟩
    (.cons ⟨.autoOrdinary _ _ _ rfl rfl rfl, by unfold Allowed; decide⟩
    (.cons ⟨.endAuto rfl, trivial⟩
    (.cons ⟨.takeRegistry rfl, trivial⟩
    (.cons ⟨.enterRound _ _ _ rfl (List.cons_ne_nil _ _), trivial⟩
    (.cons ⟨.startPlugin _ _ _ _ _ _ rfl (by decide), trivial⟩
    (.cons ⟨.finishPlugin _ _ _ _ _ _ rfl, trivial⟩
    (.cons ⟨.startPlugin _ _ _ _ _ _ rfl (by decide), trivial⟩
    (.cons ⟨.finishPlugin _ _ _ _ _ _ rfl, trivial⟩
    (.cons ⟨.endRound _ _ _ rfl, trivial⟩
    (.cons ⟨.restoreRegistry _ _ rfl, trivial⟩
    (.cons ⟨.return rfl, trivial⟩ (.nil _)))))))))))))

def outerPlugin : Plugin where
  ty := .concrete 4
  name := "app::OuterPlugin"
  dependencies := []
  immediately := false

def innerPlugin : Plugin where
  ty := .concrete 5
  name := "app::InnerPlugin"
  dependencies := []
  immediately := false

/-- The build of the outer plugin adds the inner one. -/
def nestedProgram : Program Unit Unit String :=
  { AppBuilder.Sample.program with
    inventory := []
    build := fun p app =>
      if p = outerPlugin then addPlugin AppBuilder.Sample.program app innerPlugin
      else .ok (app.addScheduler p.name) }

/-- The builder when `build_plugins` has built the outer plugin. -/
def lost : State Unit Unit String where
  app := { AppBuilder.Sample.app with
    pluginRegistry := { refs := [PluginRef.new outerPlugin], nodup := List.nodup_singleton _ } }
  phase := .returned
  added := [{ plugin := outerPlugin, inventory := false },
    { plugin := innerPlugin, inventory := false }]
  built := [outerPlugin]

end Sample

theorem plugins_kept_sample :
    (∀ g ∈ Sample.done.added, g.plugin ∈ Sample.done.built) ∧
      (Sample.done.app.isPluginAdded AppBuilder.Sample.program (.concrete 0) = true ↔
        ∃ g ∈ Sample.done.added, g.plugin.ty = .concrete 0) := by
  have h := plugins_kept Sample.done_run trivial
  refine ⟨h.2.2.2.1 (Or.inl rfl), h.2.2.2.2 (.concrete 0) ?_ ?_⟩
  · simp [Sample.done, Hidden, Phase.looping, AppBuilder.Sample.redisPlugin,
      AppBuilder.Sample.apalisPlugin, Given.ref, PluginRef.new]
  · simp [Sample.done, Mistaken, Phase.looping, AppBuilder.Sample.redisPlugin,
      AppBuilder.Sample.apalisPlugin, AppBuilder.Sample.program, Given.ref, PluginRef.new,
      PluginRef.ofStatic]

/-- A plugin added by the build of another plugin is neither built nor known afterwards. -/
theorem plugin_added_in_build_lost :
    Run (Step Sample.nestedProgram .insertion) (State.init AppBuilder.Sample.app)
        [.addPlugin Sample.outerPlugin, .startBuild, .endAuto, .takeRegistry, .enterRound,
          .startPlugin (PluginRef.new Sample.outerPlugin), .addPlugin Sample.innerPlugin,
          .finishPlugin (PluginRef.new Sample.outerPlugin), .endRound, .restoreRegistry, .return]
        Sample.lost ∧
      Sample.lost.phase = .returned ∧
      (∃ g ∈ Sample.lost.added, g.plugin ∉ Sample.lost.built ∧
        Sample.lost.app.isPluginAdded Sample.nestedProgram g.plugin.ty = false) ∧
      buildRegistered Sample.nestedProgram .insertion Sample.lost.app = .ok Sample.lost.app := by
  refine ⟨.cons (.addOrdinary _ _ trivial rfl rfl) (.cons (.startBuild rfl)
    (.cons (.endAuto rfl) (.cons (.takeRegistry rfl)
    (.cons (.enterRound _ _ _ rfl (List.cons_ne_nil _ _))
    (.cons (.startPlugin _ _ _ _ _ _ rfl (by decide))
    (.cons (.addOrdinary _ _ trivial rfl rfl) (.cons (.finishPlugin _ _ _ _ _ _ rfl)
    (.cons (.endRound _ _ _ rfl) (.cons (.restoreRegistry _ _ rfl)
    (.cons (.return rfl) (.nil _))))))))))), rfl, ?_, ?_⟩
  · exact ⟨⟨Sample.innerPlugin, false⟩, by decide, by decide, by decide⟩
  · have hfires : pluginRules.Fires ∅ (HashOrder.insertion.iter Sample.lost.app.pluginRegistry) :=
      ⟨ready_iff.mpr (by decide), trivial⟩
    rw [buildRegistered_eq, pluginRules.rounds_of_fires hfires]
    rfl

end Lifecycle
end Summer
