/-
Plugins and the plugin registry (`summer/src/plugin/mod.rs`).

A plugin is what the builder reads of a `dyn Plugin`: its concrete type and the values
of `name()`, `dependencies()` and `immediately()`.  What its `build` and
`immediately_build` do belongs to the program that uses the builder.
-/
import Mathlib.Data.List.Nodup
import Mathlib.Data.Finset.Lattice.Lemmas

namespace Summer

/-- `std::any::TypeId`.  `staticDynPlugin` is the type `&'static dyn Plugin`, which wraps
the plugins that come from the inventory, and `routesBuilder` is tonic's `RoutesBuilder`, the
component that collects the gRPC servers. -/
inductive TypeId
  | concrete (n : Nat)
  | staticDynPlugin
  | routesBuilder
deriving DecidableEq, Repr

structure Plugin where
  ty : TypeId
  name : String
  dependencies : List String
  immediately : Bool
deriving DecidableEq, Repr

/-- `PluginRef(Arc<dyn Plugin>)` with the answer of `concrete_type_id`. -/
structure PluginRef where
  plugin : Plugin
  concreteTypeId : TypeId
deriving DecidableEq, Repr

namespace PluginRef

/-- `PluginRef::new(plugin)` of a plugin passed by value. -/
def new (p : Plugin) : PluginRef := { plugin := p, concreteTypeId := p.ty }

/-- `PluginRef::new(*plugin)` of an inventory entry: the plugin behind the reference, seen
with the type of the reference. -/
def ofStatic (p : Plugin) : PluginRef := { plugin := p, concreteTypeId := .staticDynPlugin }

def name (r : PluginRef) : String := r.plugin.name

def dependencies (r : PluginRef) : List String := r.plugin.dependencies

@[simp] theorem new_plugin (p : Plugin) : (new p).plugin = p := rfl

@[simp] theorem ofStatic_plugin (p : Plugin) : (ofStatic p).plugin = p := rfl

@[simp] theorem new_name (p : Plugin) : (new p).name = p.name := rfl

@[simp] theorem ofStatic_name (p : Plugin) : (ofStatic p).name = p.name := rfl

end PluginRef

/-- `DashMap<String, PluginRef>`.  The builder stores every plugin under its own name, so
the entries are a list of plugins with distinct names. -/
structure PluginRegistry where
  refs : List PluginRef
  nodup : (refs.map PluginRef.name).Nodup
deriving DecidableEq

namespace PluginRegistry

def empty : PluginRegistry := { refs := [], nodup := List.nodup_nil }

def containsKey (reg : PluginRegistry) (name : String) : Prop :=
  name ∈ reg.refs.map PluginRef.name

instance (reg : PluginRegistry) (name : String) : Decidable (reg.containsKey name) :=
  inferInstanceAs (Decidable (name ∈ reg.refs.map PluginRef.name))

/-- `insert` under a key that is not taken, the only use the builder makes of it. -/
def insert (reg : PluginRegistry) (r : PluginRef) (h : ¬ reg.containsKey r.name) :
    PluginRegistry where
  refs := reg.refs ++ [r]
  nodup := by
    rw [List.map_append, List.map_singleton, ← List.concat_eq_append]
    exact List.Nodup.concat h reg.nodup

@[simp] theorem empty_refs : empty.refs = [] := rfl

@[simp] theorem insert_refs (reg : PluginRegistry) (r : PluginRef)
    (h : ¬ reg.containsKey r.name) : (reg.insert r h).refs = reg.refs ++ [r] := rfl

theorem containsKey_iff {reg : PluginRegistry} {name : String} :
    reg.containsKey name ↔ ∃ r ∈ reg.refs, r.name = name :=
  List.mem_map

end PluginRegistry

/-- The order in which iterating over the registry yields its entries.  A hash map
promises none, so it is any function that yields every entry once. -/
structure HashOrder where
  iter : PluginRegistry → List PluginRef
  perm : ∀ reg, (iter reg).Perm reg.refs

/-- The order of insertion. -/
def HashOrder.insertion : HashOrder where
  iter := PluginRegistry.refs
  perm := fun _ => List.Perm.refl _

end Summer
