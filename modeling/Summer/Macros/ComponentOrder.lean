/-
`build_plugins` over the plugins of `#[component]`.

Once names and types agree, waiting for a name is waiting for the producer of a type, so
the consumption relation being acyclic and closed makes the loop build every plugin.  A
build that has its producers before it finds the components it looks up, and adds a type
that nobody has added (`build_ok`).
-/
import Mathlib.Data.List.Perm.Basic
import Summer.Macros.ComponentPlugins

namespace Summer.Macros

open AppBuilder

variable {V C T : Type} {isIdent : String → Bool} {fs : List (ComponentFn V)}
  {gs : List (GeneratedPlugin isIdent V)}

/-! ## The order of the builds -/

theorem eq_of_name_eq (hnames : (gs.map fun g => g.plugin.name).Nodup)
    {g p : GeneratedPlugin isIdent V} (hg : g ∈ gs) (hp : p ∈ gs)
    (h : g.plugin.name = p.plugin.name) : g = p :=
  List.inj_on_of_nodup_map hnames hg hp h

/-- A name a plugin depends on stands for a type its function consumes. -/
theorem producer_of_dependency (h : Wired fs) (hgs : gs.map GeneratedPlugin.fn = fs)
    (hnamed : DependenciesNamed gs) {g : GeneratedPlugin isIdent V} (hg : g ∈ gs) {dep : String}
    (hdep : dep ∈ g.plugin.dependencies) :
    ∃ p ∈ gs, p.plugin.name = dep ∧ p.produced ∈ g.fn.consumed := by
  rw [g.plugin_dependencies h (mem_of_map_eq hgs hg)] at hdep
  obtain ⟨u, hu, rfl⟩ := List.mem_map.mp hdep
  obtain ⟨p, hp, hty, hident⟩ := (dependenciesNamed_iff h hgs).mp hnamed g hg u hu
  refine ⟨p, hp, ?_, ?_⟩
  · rw [p.plugin_name h (mem_of_map_eq hgs hp), createName_inj.mpr hident]
  · rw [hty]
    exact List.mem_map_of_mem hu

theorem dependency_of_consumed (h : Wired fs) (hgs : gs.map GeneratedPlugin.fn = fs)
    (hnamed : DependenciesNamed gs) {g : GeneratedPlugin isIdent V} (hg : g ∈ gs) {ty : TypeId}
    (hty : ty ∈ g.fn.consumed) :
    ∃ p ∈ gs, p.produced = ty ∧ p.plugin.name ∈ g.plugin.dependencies := by
  obtain ⟨u, hu, rfl⟩ := List.mem_map.mp hty
  obtain ⟨p, hp, hproduced, hident⟩ := (dependenciesNamed_iff h hgs).mp hnamed g hg u hu
  refine ⟨p, hp, hproduced, ?_⟩
  rw [g.plugin_dependencies h (mem_of_map_eq hgs hg), p.plugin_name h (mem_of_map_eq hgs hp),
    createName_inj.mpr hident]
  exact List.mem_map_of_mem hu

theorem consumes_of_dependsOn (h : Wired fs) (hgs : gs.map GeneratedPlugin.fn = fs)
    (hnamed : DependenciesNamed gs) {name dep : String}
    (hdep : DependsOn (gs.map GeneratedPlugin.plugin) name dep) :
    ∃ g ∈ gs, ∃ p ∈ gs, g.plugin.name = name ∧ p.plugin.name = dep ∧
      Consumes fs g.produced p.produced := by
  obtain ⟨q, hq, hname, hmem⟩ := hdep
  obtain ⟨g, hg, rfl⟩ := List.mem_map.mp hq
  obtain ⟨p, hp, hpname, hconsumed⟩ := producer_of_dependency h hgs hnamed hg hmem
  exact ⟨g, hg, p, hp, hname, hpname, g.fn, mem_of_map_eq hgs hg, g.produced_eq, hconsumed⟩

/-- A chain of dependencies between names is a chain of consumed types. -/
theorem transGen_consumes (h : Wired fs) (hgs : gs.map GeneratedPlugin.fn = fs)
    (hnames : (gs.map fun g => g.plugin.name).Nodup) (hnamed : DependenciesNamed gs)
    {name dep : String}
    (hchain : Relation.TransGen (DependsOn (gs.map GeneratedPlugin.plugin)) name dep) :
    ∃ g ∈ gs, ∃ p ∈ gs, g.plugin.name = name ∧ p.plugin.name = dep ∧
      Relation.TransGen (Consumes fs) g.produced p.produced := by
  induction hchain with
  | single hdep =>
      obtain ⟨g, hg, p, hp, hgname, hpname, hconsumes⟩ := consumes_of_dependsOn h hgs hnamed hdep
      exact ⟨g, hg, p, hp, hgname, hpname, .single hconsumes⟩
  | tail _ hdep ih =>
      obtain ⟨g, hg, p, hp, hgname, hpname, hsofar⟩ := ih
      obtain ⟨p', hp', q, hq, hp'name, hqname, hconsumes⟩ :=
        consumes_of_dependsOn h hgs hnamed hdep
      have heq : p' = p := eq_of_name_eq hnames hp' hp (hp'name.trans hpname.symm)
      subst heq
      exact ⟨g, hg, q, hq, hgname, hqname, .tail hsofar hconsumes⟩

/-- Whatever order the registry is iterated in, the rounds leave no plugin. -/
theorem rounds_left_nil (h : Wired fs) (hgs : gs.map GeneratedPlugin.fn = fs)
    (hnames : (gs.map fun g => g.plugin.name).Nodup) (hnamed : DependenciesNamed gs)
    {l : List PluginRef} (hl : l.Perm (gs.map GeneratedPlugin.ref)) :
    (pluginRules.rounds ∅ l).2 = [] := by
  have hlnames : (l.map PluginRef.name).Nodup := by
    rw [(hl.map _).nodup_iff, List.map_map]
    exact hnames
  have hmem : ∀ r, r ∈ l ↔ ∃ g ∈ gs, g.ref = r := by
    intro r
    rw [hl.mem_iff, List.mem_map]
  have hplugins : ∀ p, p ∈ l.map PluginRef.plugin ↔ p ∈ gs.map GeneratedPlugin.plugin := by
    intro p
    rw [(hl.map PluginRef.plugin).mem_iff, List.map_map]
    rfl
  by_contra hne
  rcases (rounds_left_iff hlnames).mp hne with ⟨r, _, hcycle⟩ | ⟨r, hr, dep, hdep, hnobody⟩
  · rw [dependsOn_congr hplugins] at hcycle
    obtain ⟨g, hg, p, hp, hgname, hpname, hchain⟩ :=
      transGen_consumes h hgs hnames hnamed hcycle
    have heq : g = p := eq_of_name_eq hnames hg hp (hgname.trans hpname.symm)
    subst heq
    exact h.acyclic g.produced hchain
  · obtain ⟨g, hg, rfl⟩ := (hmem r).mp hr
    obtain ⟨p, hp, hname, _⟩ := producer_of_dependency h hgs hnamed hg hdep
    exact hnobody p.ref ((hmem _).mpr ⟨p, hp, rfl⟩) hname

/-- The plugins the rounds fire, in their order: all of them, producers first. -/
theorem exists_built (h : Wired fs) (hgs : gs.map GeneratedPlugin.fn = fs)
    (hnames : (gs.map fun g => g.plugin.name).Nodup) (hnamed : DependenciesNamed gs)
    {l : List PluginRef} (hl : l.Perm (gs.map GeneratedPlugin.ref)) :
    ∃ built : List (GeneratedPlugin isIdent V), built.Perm gs ∧ ProducersFirst built ∧
      (pluginRules.rounds ∅ l).1 = built.map GeneratedPlugin.ref := by
  have hfired : (pluginRules.rounds ∅ l).1.Perm l := by
    have hperm := pluginRules.rounds_perm ∅ l
    rwa [rounds_left_nil h hgs hnames hnamed hl, List.append_nil] at hperm
  have hcomp := congrFun (congrFun (List.eq_map_comp_perm (@GeneratedPlugin.ref V isIdent))
    (pluginRules.rounds ∅ l).1) gs
  obtain ⟨built, hbuilt, hperm⟩ := hcomp.mpr (hfired.trans hl)
  refine ⟨built, hperm, ?_, hbuilt⟩
  have hfirst := fires_iff_dependenciesFirst.mp (pluginRules.rounds_fires ∅ l)
  intro pre g post hsplit ty hty
  have hmem : ∀ q ∈ built, q ∈ gs := fun q hq => hperm.subset hq
  have hpre : ∀ q ∈ pre, q ∈ built := fun q hq => hsplit ▸ List.mem_append_left _ hq
  have hg : g ∈ built := hsplit ▸ List.mem_append_right _ List.mem_cons_self
  obtain ⟨p, hp, hproduced, hdep⟩ := dependency_of_consumed h hgs hnamed (hmem g hg) hty
  have hrefs : (pluginRules.rounds ∅ l).1 =
      pre.map GeneratedPlugin.ref ++ g.ref :: post.map GeneratedPlugin.ref := by
    rw [hbuilt, hsplit, List.map_append, List.map_cons]
  obtain ⟨r, hr, hrname⟩ := hfirst _ _ _ hrefs _ hdep
  obtain ⟨q, hq, rfl⟩ := List.mem_map.mp hr
  have heq : q = p := eq_of_name_eq hnames (hmem q (hpre q hq)) hp hrname
  exact ⟨q, hq, heq ▸ hproduced⟩

/-! ## The builds -/

theorem mapM_ok {ε α β : Type} {f : α → Except ε β} {l : List α}
    (h : ∀ a ∈ l, ∃ b, f a = .ok b) : ∃ bs, l.mapM f = .ok bs := by
  induction l with
  | nil => exact ⟨[], rfl⟩
  | cons a rest ih =>
      obtain ⟨b, hb⟩ := h a List.mem_cons_self
      obtain ⟨bs, hbs⟩ := ih fun a' ha' => h a' (List.mem_cons_of_mem _ ha')
      refine ⟨b :: bs, ?_⟩
      rw [List.mapM_cons, hb, hbs]
      rfl

/-- A build whose lookups succeed adds the component and changes nothing else. -/
theorem build_ok (h : Wired fs) {rt : Runtime V C} {typeName : TypeId → String}
    {g : GeneratedPlugin isIdent V} (hg : g.fn ∈ fs) {app : AppBuilder V C T}
    (hreturns : g.Returns rt app.config) (hconsumed : ∀ ty ∈ g.fn.consumed, app.hasComponent ty)
    (hnew : ¬ app.hasComponent g.produced) :
    ∃ component, g.build rt typeName app =
      .ok { app with components := app.components.insert g.produced component } := by
  obtain ⟨hconfig, hcall⟩ := hreturns
  have hextract : ∀ x ∈ g.impl.extractions, ∃ v, g.extract rt app x = .ok v := by
    intro x hx
    cases x with
    | config pat ty =>
        obtain ⟨config, hget⟩ := hconfig pat ty hx
        refine ⟨config, ?_⟩
        rw [GeneratedPlugin.extract, hget]
    | component pat ty =>
        have hhas := hconsumed _ (g.consumed_of_extraction h hg hx)
        obtain ⟨component, hget⟩ := Option.isSome_iff_exists.mp (getComponent_isSome.mpr hhas)
        refine ⟨component, ?_⟩
        rw [GeneratedPlugin.extract, hget]
  obtain ⟨args, hargs⟩ := mapM_ok hextract
  obtain ⟨value, component, hvalue, hcomponent⟩ := hcall args
  refine ⟨component, ?_⟩
  rw [GeneratedPlugin.build, hargs]
  show (g.fn.call args >>= fun value => _) = _
  rw [hvalue]
  show (g.expect rt value >>= fun component => _) = _
  rw [hcomponent]
  show app.addComponent typeName g.produced component = _
  rw [addComponent, if_neg hnew]

/-- The application runs the build of the very function. -/
theorem program_build {rt : Runtime V C} {base : Program V C T}
    (hnames : (gs.map fun g => g.plugin.name).Nodup) {g : GeneratedPlugin isIdent V}
    (hg : g ∈ gs) (app : AppBuilder V C T) :
    (program rt base gs).build g.plugin app = g.build rt base.typeName app := by
  cases hfind : gs.find? fun p => decide (p.plugin = g.plugin) with
  | none =>
      have hnone := List.find?_eq_none.mp hfind g hg
      simp at hnone
  | some p =>
      have hplugin : p.plugin = g.plugin := by simpa using List.find?_some hfind
      have heq : p = g :=
        eq_of_name_eq hnames (List.mem_of_find?_eq_some hfind) hg (congrArg Plugin.name hplugin)
      simp only [program, hfind, heq]

theorem produced_nodup (h : Wired fs) (hgs : gs.map GeneratedPlugin.fn = fs) :
    (gs.map GeneratedPlugin.produced).Nodup := by
  have hdistinct := h.distinct
  rw [← hgs, List.map_map, List.map_congr_left fun g _ => g.produced_eq] at hdistinct
  refine List.Nodup.of_map some ?_
  rw [List.map_map]
  exact hdistinct

/-- In the middle of the builds: the components of `pre` are there, those of `rest` are not. -/
structure Halfway (app : AppBuilder V C T) (pre rest : List (GeneratedPlugin isIdent V)) :
    Prop where
  added : ∀ g ∈ pre, app.hasComponent g.produced
  missing : ∀ g ∈ rest, ¬ app.hasComponent g.produced

/-- One build moves its component over. -/
theorem Halfway.next {app : AppBuilder V C T} {pre rest : List (GeneratedPlugin isIdent V)}
    {g : GeneratedPlugin isIdent V} (h : Halfway app pre (g :: rest))
    (hlater : g.produced ∉ rest.map GeneratedPlugin.produced) (component : V) :
    Halfway { app with components := app.components.insert g.produced component }
      (pre ++ [g]) rest := by
  constructor
  · intro q hq
    rcases List.mem_append.mp hq with hq | hq
    · exact (AList.mem_insert _).mpr (Or.inr (h.added q hq))
    · rw [List.mem_singleton.mp hq]
      exact (AList.mem_insert _).mpr (Or.inl rfl)
  · intro q hq hhas
    rcases (AList.mem_insert _).mp hhas with heq | hold
    · exact hlater (heq ▸ List.mem_map_of_mem hq)
    · exact h.missing q (List.mem_cons_of_mem _ hq) hold

/-- The builds still to come succeed, given what the builds before have added. -/
theorem buildAll_built (h : Wired fs) (hgs : gs.map GeneratedPlugin.fn = fs)
    (hnames : (gs.map fun g => g.plugin.name).Nodup) {rt : Runtime V C} {base : Program V C T}
    {built : List (GeneratedPlugin isIdent V)} (hperm : built.Perm gs)
    (hfirst : ProducersFirst built) {pre rest : List (GeneratedPlugin isIdent V)}
    (hsplit : built = pre ++ rest) {app : AppBuilder V C T}
    (hreturns : ∀ g ∈ gs, g.Returns rt app.config) (hhalf : Halfway app pre rest) :
    ∃ after, buildAll (program rt base gs) app (rest.map GeneratedPlugin.ref) = .ok after ∧
      ∀ g ∈ gs, after.hasComponent g.produced := by
  induction rest generalizing pre app with
  | nil =>
      refine ⟨app, rfl, fun g hg => hhalf.added g ?_⟩
      rw [List.append_nil] at hsplit
      exact hsplit ▸ hperm.symm.subset hg
  | cons g rest ih =>
      have hg : g ∈ gs :=
        hperm.subset (hsplit ▸ List.mem_append_right _ List.mem_cons_self)
      have hconsumed : ∀ ty ∈ g.fn.consumed, app.hasComponent ty := by
        intro ty hty
        obtain ⟨p, hp, rfl⟩ := hfirst pre g rest hsplit ty hty
        exact hhalf.added p hp
      have hlater : g.produced ∉ rest.map GeneratedPlugin.produced := by
        have hnodup := ((hperm.map GeneratedPlugin.produced).nodup_iff).mpr
          (produced_nodup h hgs)
        rw [hsplit, List.map_append, List.map_cons] at hnodup
        exact (List.nodup_cons.mp (List.nodup_append.mp hnodup).2.1).1
      obtain ⟨component, hbuild⟩ := @build_ok V C T isIdent fs h rt base.typeName g
        (mem_of_map_eq hgs hg) app (hreturns g hg) hconsumed (hhalf.missing g List.mem_cons_self)
      have hsplit' : built = (pre ++ [g]) ++ rest := by
        rw [hsplit, List.append_assoc, List.singleton_append]
      obtain ⟨after, hafter, hall⟩ := @ih (pre ++ [g]) hsplit'
        { app with components := app.components.insert g.produced component } hreturns
        (hhalf.next hlater component)
      refine ⟨after, ?_, hall⟩
      rw [buildAll, List.map_cons, List.foldlM_cons]
      show ((program rt base gs).build g.plugin app >>= fun app => _) = _
      rw [program_build hnames hg, hbuild]
      exact hafter

/-- With distinct names and dependencies named after the producers, everything is built. -/
theorem buildsAll (h : Wired fs) (hgs : gs.map GeneratedPlugin.fn = fs)
    (hnames : (gs.map fun g => g.plugin.name).Nodup) (hnamed : DependenciesNamed gs)
    (rt : Runtime V C) (base : Program V C T) (order : HashOrder) (app : AppBuilder V C T)
    (hempty : app.pluginRegistry = .empty) : BuildsAll rt base order app gs := by
  obtain ⟨reg, hrefs, hadd⟩ := @addPlugins_registry V C T (program rt base gs) [] app hempty
    (by
      intro p hp
      obtain ⟨g, _, rfl⟩ := List.mem_map.mp hp
      rfl)
    (by
      show ((gs.map GeneratedPlugin.plugin).map Plugin.name).Nodup
      rw [List.map_map]
      exact hnames)
  have hregistry : reg.refs = gs.map GeneratedPlugin.ref := by
    rw [hrefs]
    show (gs.map GeneratedPlugin.plugin).map PluginRef.ofStatic = _
    rw [List.map_map]
    rfl
  refine ⟨{ app with pluginRegistry := reg }, hadd, fun entry hentry => ?_⟩
  have hperm : (order.iter entry.pluginRegistry).Perm (gs.map GeneratedPlugin.ref) := by
    rw [← hregistry, ← show entry.pluginRegistry = reg from hentry]
    exact order.perm _
  obtain ⟨built, hbuilt, hfirst, hrounds⟩ := exists_built h hgs hnames hnamed hperm
  have hrun : buildRegistered (program rt base gs) order entry =
      ((buildAll (program rt base gs) { entry with pluginRegistry := .empty }
        (built.map GeneratedPlugin.ref)).map
          fun after => { after with pluginRegistry := entry.pluginRegistry }) := by
    rw [buildRegistered_eq, hrounds, rounds_left_nil h hgs hnames hnamed hperm]
    simp only [if_true]
    cases buildAll (program rt base gs) { entry with pluginRegistry := .empty }
        (built.map GeneratedPlugin.ref) with
    | error p => rfl
    | ok after => rfl
  refine ⟨built, hbuilt, hfirst, hrun, fun hfresh hreturns => ?_⟩
  have hhalf : Halfway { entry with pluginRegistry := .empty } [] built :=
    ⟨fun _ hg => absurd hg List.not_mem_nil, fun g hg => hfresh g (hbuilt.subset hg)⟩
  obtain ⟨after, hafter, hall⟩ := @buildAll_built V C T isIdent fs gs h hgs hnames rt base built
    hbuilt hfirst [] built rfl { entry with pluginRegistry := .empty } hreturns hhalf
  refine ⟨{ after with pluginRegistry := entry.pluginRegistry }, ?_, hall⟩
  rw [hrun, hafter]
  rfl

/-- A consumed type written with an identifier no return type ends in keeps `build_plugins`
from returning. -/
theorem not_built_of_unknown (h : Wired fs) (hgs : gs.map GeneratedPlugin.fn = fs)
    {g : GeneratedPlugin isIdent V} (hg : g ∈ gs) {u : Ty} (hu : u ∈ g.fn.parameters)
    (hnobody : ∀ p ∈ gs, p.returnType.lastIdent ≠ u.lastIdent) {prog : Program V C T}
    {order : HashOrder} {app : AppBuilder V C T}
    (hrefs : app.pluginRegistry.refs = gs.map GeneratedPlugin.ref) (after : AppBuilder V C T) :
    buildRegistered prog order app ≠ .ok after := by
  intro hok
  have hperm := order.perm app.pluginRegistry
  have hleft : (pluginRules.rounds ∅ (order.iter app.pluginRegistry)).2 ≠ [] := by
    apply (rounds_left_iff ((hperm.map _).nodup_iff.mpr app.pluginRegistry.nodup)).mpr
    refine Or.inr ⟨g.ref, ?_, createName u, ?_, ?_⟩
    · rw [hperm.mem_iff, hrefs]
      exact List.mem_map_of_mem hg
    · show createName u ∈ g.plugin.dependencies
      rw [g.plugin_dependencies h (mem_of_map_eq hgs hg)]
      exact List.mem_map_of_mem hu
    · intro r hr hname
      rw [hperm.mem_iff, hrefs] at hr
      obtain ⟨p, hp, rfl⟩ := List.mem_map.mp hr
      have hpname : p.plugin.name = createName u := hname
      rw [p.plugin_name h (mem_of_map_eq hgs hp), createName_inj] at hpname
      exact hnobody p hp hpname
  rw [buildRegistered_eq] at hok
  obtain ⟨last, _, hlast⟩ := bind_ok.mp hok
  rw [if_neg hleft] at hlast
  cases hlast

/-- Functions that fit together by their types are built as they should be exactly when
their types are also written so that the names fit. -/
theorem sound_iff_nameable (h : Wired fs) (rt : Runtime V C) (base : Program V C T) :
    Sound isIdent rt base fs ↔ Nameable isIdent fs := by
  constructor
  · intro hsound
    obtain ⟨gs, hgs, hnames, hnamed, _⟩ := hsound
    refine ⟨?_, (names_nodup_iff h hgs).mp hnames, (named_iff_agree h hgs).mp hnamed⟩
    intro f hf ty hty
    rw [← hgs] at hf
    obtain ⟨g, hg, rfl⟩ := List.mem_map.mp hf
    rw [g.returnType_eq, Option.mem_def, Option.some.injEq] at hty
    subst hty
    exact (g.impl_eq h (mem_of_map_eq hgs hg)).1
  · intro hnameable
    obtain ⟨gs, hgs⟩ := exists_generated h hnameable.idents
    have hnames := (names_nodup_iff h hgs).mpr hnameable.distinct
    have hnamed := (named_iff_agree h hgs).mpr hnameable.agree
    exact ⟨gs, hgs, hnames, hnamed, fun order app hempty =>
      buildsAll h hgs hnames hnamed rt base order app hempty⟩

namespace ComponentSample

def plainTy (ident : String) : Ty := .path none false [.mk ident .none]

def genericTy (ident : String) (args : List String) : Ty :=
  .path none false [.mk ident (.angleBracketed (args.map fun arg => .type (plainTy arg)))]

/-- Everything is in one module, where a type denotes what its name says. -/
def denotes (ty : Ty) : TypeId :=
  .concrete (["TestDbConfig", "TestConnection", "ResultConnection", "TestRepository"].idxOf
    ty.lastIdent)

def createConnection (returnType : Ty) : ComponentFn Unit where
  attr := []
  sig := { ident := "create_connection",
           isAsync := false,
           inputs := [.typed [] "Config(config)" (genericTy "Config" ["TestDbConfig"])],
           output := .type returnType }
  denotes := denotes
  pluginType := .concrete 10
  call := fun _ => .ok ()

def createRepository (conn : String) : ComponentFn Unit where
  attr := []
  sig := { ident := "create_test_repository",
           isAsync := false,
           inputs := [.typed [] "Component(conn)" (genericTy "Component" [conn])],
           output := .type (plainTy "TestRepository") }
  denotes := denotes
  pluginType := .concrete 11
  call := fun _ => .ok ()

/-- `-> TestConnection`, and a repository over it. -/
def plainPair : List (ComponentFn Unit) :=
  [createConnection (plainTy "TestConnection"), createRepository "TestConnection"]

/-- `-> Result<ResultConnection, String>`, and a repository over `ResultConnection`. -/
def resultPair : List (ComponentFn Unit) :=
  [createConnection (genericTy "Result" ["ResultConnection", "String"]),
    createRepository "ResultConnection"]

/-- None of the names is raw. -/
def isWord (text : String) : Bool := decide ('#' ∉ text.toList)

def runtime : Runtime Unit Unit where
  getConfig := fun _ _ => .ok ()
  unwrap := .ok
  stringify := Ty.lastIdent
  debug := fun _ => ""

def rank : TypeId → ℕ
  | .concrete n => n
  | _ => 0

theorem wired_of_checks {fs : List (ComponentFn Unit)} (hattr : ∀ f ∈ fs, f.attr = [])
    (hvalid : ∀ f ∈ fs, validateFunctionSignature f.sig = .ok ())
    (hplain : ∀ f ∈ fs, ∀ arg ∈ f.sig.inputs, arg.plain)
    (hdistinct : (fs.map ComponentFn.produced).Nodup)
    (hclosed : ∀ f ∈ fs, ∀ ty ∈ f.consumed, ∃ g ∈ fs, g.produced = some ty)
    (hrank : ∀ f ∈ fs, ∀ ty ∈ f.produced.toList, ∀ dep ∈ f.consumed, rank dep < rank ty) :
    Wired fs where
  unnamed := fun f hf => by
    rw [hattr f hf]
    rfl
  valid := hvalid
  plain := hplain
  distinct := hdistinct
  closed := hclosed
  acyclic := by
    apply Rules.not_transGen_self_of_rank rank
    intro ty dep hconsumes
    obtain ⟨f, hf, hty, hdep⟩ := hconsumes
    exact hrank f hf ty (Option.mem_toList.mpr hty) dep hdep

theorem wired_plainPair : Wired plainPair := by
  apply wired_of_checks
  · decide
  · decide
  · simp [plainPair, createConnection, createRepository, FnArg.plain]
  · decide
  · decide
  · decide

theorem wired_resultPair : Wired resultPair := by
  apply wired_of_checks
  · decide
  · decide
  · simp [resultPair, createConnection, createRepository, FnArg.plain]
  · decide
  · decide
  · decide

end ComponentSample

theorem sound_iff_nameable_sample :
    Sound ComponentSample.isWord ComponentSample.runtime Sample.program
      ComponentSample.plainPair := by
  apply (sound_iff_nameable ComponentSample.wired_plainPair _ _).mpr
  constructor
  · decide
  · decide
  · decide

/-- The plugin behind `Result<ResultConnection, String>` is named after `Result`, the
repository depends on a name made from `ResultConnection`, and `build_plugins` never
returns. -/
theorem result_producer_not_found :
    Wired ComponentSample.resultPair ∧
      ¬ Sound ComponentSample.isWord ComponentSample.runtime Sample.program
        ComponentSample.resultPair ∧
      ∃ gs : List (GeneratedPlugin ComponentSample.isWord Unit),
        gs.map GeneratedPlugin.fn = ComponentSample.resultPair ∧
        gs.map (fun g => g.plugin.name) =
          ["__CreateResultPlugin", "__CreateTestRepositoryPlugin"] ∧
        gs.map (fun g => g.plugin.dependencies) = [[], ["__CreateResultConnectionPlugin"]] ∧
        ∀ (order : HashOrder) (entry after : AppBuilder Unit Unit String),
          entry.pluginRegistry.refs = gs.map GeneratedPlugin.ref →
          buildRegistered (program ComponentSample.runtime Sample.program gs) order entry ≠
            .ok after := by
  refine ⟨ComponentSample.wired_resultPair, ?_, ?_⟩
  · intro hsound
    obtain ⟨gs, hgs, _, hnamed, _⟩ := hsound
    have hagree := (named_iff_agree ComponentSample.wired_resultPair hgs).mp hnamed
      (ComponentSample.createRepository "ResultConnection")
      (List.mem_cons_of_mem _ List.mem_cons_self)
      (ComponentSample.plainTy "ResultConnection") List.mem_cons_self
      (ComponentSample.createConnection
        (ComponentSample.genericTy "Result" ["ResultConnection", "String"]))
      List.mem_cons_self rfl
    exact absurd hagree (by decide)
  · refine ⟨[⟨_, _, _, rfl, rfl⟩, ⟨_, _, _, rfl, rfl⟩], rfl, by decide, by decide, ?_⟩
    intro order entry after hrefs
    exact not_built_of_unknown ComponentSample.wired_resultPair rfl
      (List.mem_cons_of_mem _ List.mem_cons_self) List.mem_cons_self (by decide) hrefs after

end Summer.Macros
