/-
The plugins of `#[component]` in an application.

A function is given with the scope it stands in: which type each piece of syntax denotes
there, and what a call does.  Names are made from syntax and components are kept by type,
so whether a name finds the producer of a type is a question about both.
-/
import Summer.App.BuildPlugins
import Summer.Macros.Component

namespace Summer.Macros

open AppBuilder

variable {V C T : Type}

/-! ## Functions and what they produce and consume -/

/-- A function under `#[component]`.  `denotes` is the compiler's reading of the types
written in it, `pluginType` the type of the generated struct, and `call` what a call does,
awaited if the function is `async`. -/
structure ComponentFn (V : Type) where
  attr : TokenStream
  sig : Signature
  denotes : Ty → TypeId
  pluginType : TypeId
  call : List V → Except Panic V

/-- `T` for a return type `T`, and `T` for `Result<T, E>`. -/
def componentTypeOf (returnType : Ty) : Ty :=
  if isResultType returnType then (extractGenericType returnType).getD returnType else returnType

/-- `U` for a parameter of type `Component<U>`. -/
def FnArg.component : FnArg → Option Ty
  | .receiver => none
  | .typed _ _ ty => if isComponentType ty then extractGenericType ty else none

/-- The parameter has no `inject` attribute. -/
def FnArg.plain : FnArg → Prop
  | .receiver => True
  | .typed attrs _ _ => ∀ attr ∈ attrs, attr.path.isIdent "inject" = false

namespace ComponentFn

def returnType (f : ComponentFn V) : Option Ty := extractReturnType f.sig.output

def produced (f : ComponentFn V) : Option TypeId :=
  f.returnType.map fun ty => f.denotes (componentTypeOf ty)

/-- The types of the consumed components, as they are written. -/
def parameters (f : ComponentFn V) : List Ty := f.sig.inputs.filterMap FnArg.component

def consumed (f : ComponentFn V) : List TypeId := f.parameters.map f.denotes

end ComponentFn

/-- Some function produces `ty` and consumes `dep`. -/
def Consumes (fs : List (ComponentFn V)) (ty dep : TypeId) : Prop :=
  ∃ f ∈ fs, f.produced = some ty ∧ dep ∈ f.consumed

/-- Functions without custom names and explicit dependencies that the macro accepts and that
fit together by their types. -/
structure Wired (fs : List (ComponentFn V)) : Prop where
  unnamed : ∀ f ∈ fs, parseComponentAttrs f.attr = .ok { name := none }
  valid : ∀ f ∈ fs, validateFunctionSignature f.sig = .ok ()
  plain : ∀ f ∈ fs, ∀ arg ∈ f.sig.inputs, arg.plain
  distinct : (fs.map ComponentFn.produced).Nodup
  closed : ∀ f ∈ fs, ∀ ty ∈ f.consumed, ∃ g ∈ fs, g.produced = some ty
  acyclic : ∀ ty, ¬ Relation.TransGen (Consumes fs) ty ty

/-- What the names ask of the syntax: every return type names an identifier, no two return
types end in the same one, and a consumed type is written with the last identifier of the
return type of its producer. -/
structure Nameable (isIdent : String → Bool) (fs : List (ComponentFn V)) : Prop where
  idents : ∀ f ∈ fs, ∀ ty ∈ f.returnType, isIdent (createName ty) = true
  distinct : (fs.map fun f => f.returnType.map Ty.lastIdent).Nodup
  agree : ∀ f ∈ fs, ∀ u ∈ f.parameters, ∀ g ∈ fs, g.produced = some (f.denotes u) →
    g.returnType.map Ty.lastIdent = some u.lastIdent

/-! ## The generated plugins -/

/-- What the generated code calls outside the builder: the configuration, `expect` on a
value that is a `Result`, and the texts of panics. -/
structure Runtime (V C : Type) where
  getConfig : C → TypeId → Except AppError V
  unwrap : V → Except String V
  stringify : Ty → String
  debug : AppError → String

/-- A function together with its expansion. -/
structure GeneratedPlugin (isIdent : String → Bool) (V : Type) where
  fn : ComponentFn V
  returnType : Ty
  expansion : ComponentExpansion
  output : fn.sig.output = .type returnType
  expands : componentMacro isIdent fn.attr fn.sig = .ok expansion

namespace GeneratedPlugin

variable {isIdent : String → Bool}

def impl (g : GeneratedPlugin isIdent V) : PluginImpl := g.expansion.pluginImpl

def produced (g : GeneratedPlugin isIdent V) : TypeId :=
  g.fn.denotes (componentTypeOf g.returnType)

def plugin (g : GeneratedPlugin isIdent V) : Plugin where
  ty := g.fn.pluginType
  name := g.impl.name
  dependencies := g.impl.dependencies
  immediately := false

def ref (g : GeneratedPlugin isIdent V) : PluginRef := .ofStatic g.plugin

/-- The value one `let` of the generated `build` binds. -/
def extract (rt : Runtime V C) (g : GeneratedPlugin isIdent V) (app : AppBuilder V C T) :
    Extraction → Except Panic V
  | .config _ ty =>
    match rt.getConfig app.config (g.fn.denotes ty) with
    | .ok config => .ok config
    | .error e =>
      .error (.user ("Config " ++ rt.stringify ty ++ " not found: " ++ rt.debug e))
  | .component _ ty =>
    match app.getComponent (g.fn.denotes ty) with
    | some component => .ok component
    | none => .error (.user ("Component " ++ rt.stringify ty ++ " not found"))

/-- `expect` on the result of the call, where the macro generates one. -/
def expect (rt : Runtime V C) (g : GeneratedPlugin isIdent V) (value : V) : Except Panic V :=
  if g.impl.isResult then
    match rt.unwrap value with
    | .ok component => .ok component
    | .error e => .error (.user ("Failed to create component in " ++ g.impl.name ++ ": " ++ e))
  else
    .ok value

def build (rt : Runtime V C) (typeName : TypeId → String) (g : GeneratedPlugin isIdent V)
    (app : AppBuilder V C T) : Except Panic (AppBuilder V C T) := do
  let args ← g.impl.extractions.mapM (g.extract rt app)
  let value ← g.fn.call args
  let component ← g.expect rt value
  app.addComponent typeName g.produced component

/-- The configuration has what the function asks for, and its body neither panics nor
returns an error. -/
def Returns (rt : Runtime V C) (config : C) (g : GeneratedPlugin isIdent V) : Prop :=
  (∀ pat ty, .config pat ty ∈ g.impl.extractions →
    ∃ c, rt.getConfig config (g.fn.denotes ty) = .ok c) ∧
  ∀ args, ∃ value component, g.fn.call args = .ok value ∧ g.expect rt value = .ok component

end GeneratedPlugin

section

variable {isIdent : String → Bool}

/-- The application whose inventory is the generated plugins. -/
def program (rt : Runtime V C) (base : Program V C T) (gs : List (GeneratedPlugin isIdent V)) :
    Program V C T :=
  { base with
    inventory := gs.map GeneratedPlugin.plugin
    build := fun p app =>
      match gs.find? fun g => decide (g.plugin = p) with
      | some g => g.build rt base.typeName app
      | none => base.build p app }

/-- Every name in `dependencies()` is the name of the plugin that produces the consumed
type. -/
def DependenciesNamed (gs : List (GeneratedPlugin isIdent V)) : Prop :=
  ∀ g ∈ gs, List.Forall₂ (fun dep ty => ∃ p ∈ gs, p.produced = ty ∧ p.plugin.name = dep)
    g.plugin.dependencies g.fn.consumed

/-- Every plugin comes after the producers of its parameters. -/
def ProducersFirst (gs : List (GeneratedPlugin isIdent V)) : Prop :=
  ∀ pre g post, gs = pre ++ g :: post → ∀ ty ∈ g.fn.consumed, ∃ p ∈ pre, p.produced = ty

/-- `build_plugins` runs the build of every generated plugin once, producers first, and no
build panics unless a function or the configuration fails. -/
def BuildsAll (rt : Runtime V C) (base : Program V C T) (order : HashOrder)
    (app : AppBuilder V C T) (gs : List (GeneratedPlugin isIdent V)) : Prop :=
  ∃ before, addAutoPlugins (program rt base gs) app = .ok before ∧
    ∀ entry : AppBuilder V C T, entry.pluginRegistry = before.pluginRegistry →
      ∃ built, built.Perm gs ∧ ProducersFirst built ∧
        buildRegistered (program rt base gs) order entry =
          ((buildAll (program rt base gs) { entry with pluginRegistry := .empty }
            (built.map GeneratedPlugin.ref)).map
              fun after => { after with pluginRegistry := entry.pluginRegistry }) ∧
        ((∀ g ∈ gs, ¬ entry.hasComponent g.produced) →
          (∀ g ∈ gs, g.Returns rt entry.config) →
            ∃ after, buildRegistered (program rt base gs) order entry = .ok after ∧
              ∀ g ∈ gs, after.hasComponent g.produced)

end

/-- The functions expand to plugins with distinct names, their dependencies are the names of
the producers, and `build_plugins` builds them all. -/
def Sound (isIdent : String → Bool) (rt : Runtime V C) (base : Program V C T)
    (fs : List (ComponentFn V)) : Prop :=
  ∃ gs : List (GeneratedPlugin isIdent V), gs.map GeneratedPlugin.fn = fs ∧
    (gs.map fun g => g.plugin.name).Nodup ∧ DependenciesNamed gs ∧
      ∀ (order : HashOrder) (app : AppBuilder V C T), app.pluginRegistry = .empty →
        BuildsAll rt base order app gs

/-! ## What a generated plugin depends on -/

theorem extractInjectAttr_of_plain {attrs : List Attribute}
    (h : ∀ attr ∈ attrs, attr.path.isIdent "inject" = false) : extractInjectAttr attrs = none := by
  unfold extractInjectAttr
  rw [List.findSome?_eq_none_iff]
  intro attr hattr
  rw [h attr hattr, if_neg Bool.false_ne_true]

theorem analyzeParameter_of_plain {arg : FnArg} (h : arg.plain) :
    analyzeParameter arg = arg.component.map fun ty =>
      { componentType := ty, explicitPluginName := none,
        inferredPluginName := createName ty } := by
  cases arg with
  | receiver => rfl
  | typed attrs pat ty =>
      simp only [analyzeParameter, FnArg.component, extractInjectAttr_of_plain h]
      by_cases hc : isComponentType ty = true
      · rw [if_pos hc, if_pos hc]
        rfl
      · rw [if_neg hc, if_neg hc]
        rfl

theorem analyzeDependencies_of_plain {f : ComponentFn V} (h : ∀ arg ∈ f.sig.inputs, arg.plain) :
    analyzeDependencies f.sig = f.parameters.map fun ty =>
      { componentType := ty, explicitPluginName := none,
        inferredPluginName := createName ty } := by
  unfold analyzeDependencies ComponentFn.parameters
  rw [List.map_filterMap]
  exact List.filterMap_congr fun arg harg => analyzeParameter_of_plain (h arg harg)

namespace GeneratedPlugin

variable {isIdent : String → Bool} {fs : List (ComponentFn V)}

theorem returnType_eq (g : GeneratedPlugin isIdent V) : g.fn.returnType = some g.returnType := by
  rw [ComponentFn.returnType, g.output, extractReturnType]

theorem produced_eq (g : GeneratedPlugin isIdent V) : g.fn.produced = some g.produced := by
  rw [ComponentFn.produced, returnType_eq, Option.map_some, produced]

theorem impl_eq (h : Wired fs) (g : GeneratedPlugin isIdent V) (hg : g.fn ∈ fs) :
    isIdent (createName g.returnType) = true ∧
      g.impl = autoImpl g.fn.sig (analyzeDependencies g.fn.sig) g.returnType := by
  have hexpands := g.expands
  rw [componentMacro_eq (h.unnamed _ hg) (h.valid _ hg)] at hexpands
  obtain ⟨impl, himpl, hexpansion⟩ := bind_ok.mp hexpands
  obtain ⟨returnType, houtput, hident, rfl⟩ := generatePluginImpl_ok.mp himpl
  rw [g.output] at houtput
  cases houtput
  exact ⟨hident, (congrArg ComponentExpansion.pluginImpl (Except.ok.inj hexpansion)).symm⟩

theorem plugin_name (h : Wired fs) (g : GeneratedPlugin isIdent V) (hg : g.fn ∈ fs) :
    g.plugin.name = createName g.returnType := by
  rw [plugin, (g.impl_eq h hg).2, autoImpl]

theorem plugin_dependencies (h : Wired fs) (g : GeneratedPlugin isIdent V) (hg : g.fn ∈ fs) :
    g.plugin.dependencies = g.fn.parameters.map createName := by
  rw [plugin, (g.impl_eq h hg).2, autoImpl, analyzeDependencies_of_plain (h.plain _ hg)]
  simp only [List.map_map]
  rfl

/-- A generated `build` looks up consumed components only. -/
theorem consumed_of_extraction (h : Wired fs) (g : GeneratedPlugin isIdent V) (hg : g.fn ∈ fs)
    {pat : String} {ty : Ty} (hx : .component pat ty ∈ g.impl.extractions) :
    g.fn.denotes ty ∈ g.fn.consumed := by
  rw [(g.impl_eq h hg).2] at hx
  obtain ⟨dep, hdep, rfl⟩ := mem_generateParamExtractions hx
  rw [analyzeDependencies_of_plain (h.plain _ hg)] at hdep
  obtain ⟨u, hu, rfl⟩ := List.mem_map.mp hdep
  exact List.mem_map_of_mem hu

end GeneratedPlugin

/-! ## Names and types -/

section

variable {isIdent : String → Bool} {fs : List (ComponentFn V)}
  {gs : List (GeneratedPlugin isIdent V)}

/-- Every function expands if its return type names an identifier. -/
theorem exists_generated (h : Wired fs)
    (hident : ∀ f ∈ fs, ∀ ty ∈ f.returnType, isIdent (createName ty) = true) :
    ∃ gs : List (GeneratedPlugin isIdent V), gs.map GeneratedPlugin.fn = fs := by
  have hall : ∀ f ∈ fs, f ∈ Set.range (@GeneratedPlugin.fn isIdent V) := by
    intro f hf
    obtain ⟨returnType, houtput⟩ := output_of_valid (h.valid f hf)
    have hreturn : f.returnType = some returnType := by
      rw [ComponentFn.returnType, houtput, extractReturnType]
    have himpl := (@generatePluginImpl_ok isIdent _ (analyzeDependencies f.sig) _).mpr
      ⟨returnType, houtput, hident f hf returnType hreturn, rfl⟩
    have hexpand := @componentMacro_eq isIdent _ _ (h.unnamed f hf) (h.valid f hf)
    rw [himpl] at hexpand
    exact ⟨⟨f, returnType, _, houtput, hexpand⟩, rfl⟩
  have hrange : fs ∈ Set.range (List.map (@GeneratedPlugin.fn isIdent V)) := by
    rw [Set.range_list_map]
    exact hall
  exact hrange

theorem mem_of_map_eq (hgs : gs.map GeneratedPlugin.fn = fs) {g : GeneratedPlugin isIdent V}
    (hg : g ∈ gs) : g.fn ∈ fs :=
  hgs ▸ List.mem_map_of_mem hg

/-- Two names are equal exactly when the return types end in the same identifier. -/
theorem names_nodup_iff (h : Wired fs) (hgs : gs.map GeneratedPlugin.fn = fs) :
    (gs.map fun g => g.plugin.name).Nodup ↔
      (fs.map fun f => f.returnType.map Ty.lastIdent).Nodup := by
  have hnames : gs.map (fun g => g.plugin.name) =
      gs.map (fun g => createName g.returnType) :=
    List.map_congr_left fun g hg => g.plugin_name h (mem_of_map_eq hgs hg)
  have hidents : fs.map (fun f => f.returnType.map Ty.lastIdent) =
      gs.map (fun g => some g.returnType.lastIdent) := by
    rw [← hgs, List.map_map]
    exact List.map_congr_left fun g _ => by
      rw [Function.comp_apply, g.returnType_eq, Option.map_some]
  rw [hnames, hidents]
  simp only [List.Nodup, List.pairwise_map, ne_eq, createName_inj, Option.some.injEq]

/-- A consumed type is named after its producer exactly when the two are written with the
same last identifier. -/
theorem dependenciesNamed_iff (h : Wired fs) (hgs : gs.map GeneratedPlugin.fn = fs) :
    DependenciesNamed gs ↔
      ∀ g ∈ gs, ∀ u ∈ g.fn.parameters, ∃ p ∈ gs,
        p.produced = g.fn.denotes u ∧ p.returnType.lastIdent = u.lastIdent := by
  unfold DependenciesNamed
  refine forall_congr' fun g => forall_congr' fun hg => ?_
  rw [g.plugin_dependencies h (mem_of_map_eq hgs hg), ComponentFn.consumed,
    List.forall₂_map_left_iff, List.forall₂_map_right_iff, List.forall₂_same]
  refine forall_congr' fun u => forall_congr' fun _ => exists_congr fun p =>
    and_congr_right fun hp => and_congr_right fun _ => ?_
  rw [p.plugin_name h (mem_of_map_eq hgs hp), createName_inj]

/-- A type has one producer. -/
theorem produced_inj (h : Wired fs) (hgs : gs.map GeneratedPlugin.fn = fs)
    {g : GeneratedPlugin isIdent V} {f : ComponentFn V} (hg : g ∈ gs) (hf : f ∈ fs)
    (hproduced : f.produced = some g.produced) : g.fn = f :=
  List.inj_on_of_nodup_map h.distinct (mem_of_map_eq hgs hg) hf
    (by rw [hproduced, g.produced_eq])

theorem named_iff_agree (h : Wired fs) (hgs : gs.map GeneratedPlugin.fn = fs) :
    DependenciesNamed gs ↔
      ∀ f ∈ fs, ∀ u ∈ f.parameters, ∀ g ∈ fs, g.produced = some (f.denotes u) →
        g.returnType.map Ty.lastIdent = some u.lastIdent := by
  rw [dependenciesNamed_iff h hgs]
  constructor
  · intro hnamed f hf u hu q hq hproduced
    rw [← hgs] at hf
    obtain ⟨g, hg, rfl⟩ := List.mem_map.mp hf
    obtain ⟨p, hp, hty, hident⟩ := hnamed g hg u hu
    rw [← hty] at hproduced
    rw [← produced_inj h hgs hp hq hproduced, p.returnType_eq, Option.map_some, hident]
  · intro hagree g hg u hu
    have hmem := mem_of_map_eq hgs hg
    obtain ⟨f, hf, hproduced⟩ := h.closed g.fn hmem _ (List.mem_map_of_mem hu)
    have hident := hagree g.fn hmem u hu f hf hproduced
    rw [← hgs] at hf
    obtain ⟨p, hp, rfl⟩ := List.mem_map.mp hf
    rw [p.produced_eq] at hproduced
    rw [p.returnType_eq] at hident
    exact ⟨p, hp, Option.some.inj hproduced, Option.some.inj hident⟩

end

end Summer.Macros
