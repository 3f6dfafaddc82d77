/-
The component registry (`summer/src/app.rs`, `summer/src/plugin/component.rs`) and the adders
of the plugins that grow a component in place (`summer-web/src/lib.rs`, `summer-job/src/lib.rs`,
`summer-stream/src/lib.rs` and `consumer.rs`).

A `DynComponentRef` is an `Arc<dyn Any>`: the address of a cell that knows the type of its
value.  The map has the address under a `TypeId`; nothing in it says that the cell there is of
that type, which every operation has to see to (`Typed`).
-/
import Summer.App.Schedule
import Summer.Lib.Cells

namespace Summer

/-- The types of components: those that an adder grows, and any others. -/
inductive ComponentTy
  | routers
  | routerLayers
  | jobs
  | consumers
  | eventBus
  | other (n : ℕ)
deriving DecidableEq, Repr

/-- What the components are made of. -/
structure ComponentTypes where
  Router : Type
  Job : Type
  Consumer : Type
  EventBus : Type
  Other : ℕ → Type

namespace ComponentTy

@[reducible] def Val (k : ComponentTypes) : ComponentTy → Type
  | .routers => List k.Router
  | .routerLayers => List (k.Router → k.Router)
  | .jobs => List k.Job
  | .consumers => List k.Consumer
  | .eventBus => k.EventBus
  | .other n => k.Other n

/-- `TypeId::of`. -/
def typeId : ComponentTy → TypeId
  | .routers => .concrete 0
  | .routerLayers => .concrete 1
  | .jobs => .concrete 2
  | .consumers => .concrete 3
  | .eventBus => .concrete 4
  | .other n => .concrete (n + 5)

theorem typeId_inj {t t' : ComponentTy} : t.typeId = t'.typeId ↔ t = t' := by
  constructor
  · intro h
    cases t <;> cases t' <;> simp only [typeId, TypeId.concrete.injEq] at h <;>
      first
        | rfl
        | omega
        | (congr 1; omega)
  · intro h
    rw [h]

/-- The types with an adder of their own. -/
def grows : ComponentTy → Bool
  | .routers | .routerLayers | .jobs | .consumers => true
  | .eventBus | .other _ => false

end ComponentTy

structure DynComponentRef where
  addr : ℕ
deriving DecidableEq, Repr

structure ComponentRef (t : ComponentTy) where
  addr : ℕ
deriving DecidableEq, Repr

/-- The map of a builder or of the application, with the memory that its references point to. -/
structure ComponentRegistry (k : ComponentTypes) where
  components : AList (fun _ : TypeId => DynComponentRef)
  cells : Cells (ComponentTy.Val k)

/-- The lookups of the trait, with `get_expect_component_ref` and `try_get_component_ref` for
their siblings that clone the value. -/
inductive Lookup
  | has
  | ref
  | value
  | expectRef
  | tryRef
deriving DecidableEq, Repr

/-- What an operation returns. -/
inductive Outcome (k : ComponentTypes)
  | done
  | panicked (p : Panic)
  | has (found : Bool)
  | ref (t : ComponentTy) (ref : Option (ComponentRef t))
  | value (t : ComponentTy) (value : Option (t.Val k))
  | error (e : AppError)

def Outcome.isPanic {k : ComponentTypes} : Outcome k → Bool
  | .panicked _ => true
  | _ => false

section
variable {k : ComponentTypes}

/-- `DynComponentRef::downcast`. -/
def DynComponentRef.downcast (cells : Cells (ComponentTy.Val k)) (ref : DynComponentRef)
    (t : ComponentTy) : Option (ComponentRef t) :=
  if (cells.read ref.addr t).isSome then some { addr := ref.addr } else none

/-! ## Lookups -/

namespace ComponentRegistry

def getComponentRef (reg : ComponentRegistry k) (t : ComponentTy) : Option (ComponentRef t) :=
  (reg.components.lookup t.typeId).bind fun ref => ref.downcast reg.cells t

def getComponent (reg : ComponentRegistry k) (t : ComponentTy) : Option (t.Val k) :=
  (reg.getComponentRef t).bind fun ref => reg.cells.read ref.addr t

def hasComponent (reg : ComponentRegistry k) (t : ComponentTy) : Prop := t.typeId ∈ reg.components

instance (reg : ComponentRegistry k) (t : ComponentTy) : Decidable (reg.hasComponent t) :=
  inferInstanceAs (Decidable (t.typeId ∈ reg.components))

def look (typeName : TypeId → String) (reg : ComponentRegistry k) (t : ComponentTy) :
    Lookup → Outcome k
  | .has => .has (decide (reg.hasComponent t))
  | .ref => .ref t (reg.getComponentRef t)
  | .value => .value t (reg.getComponent t)
  | .expectRef =>
    match reg.getComponentRef t with
    | some ref => .ref t (some ref)
    | none => .panicked (.user (typeName t.typeId ++ " component not exists in registry"))
  | .tryRef =>
    match reg.getComponentRef t with
    | some ref => .ref t (some ref)
    | none => .error (.componentNotExist (typeName t.typeId))

end ComponentRegistry

/-! ## The builder -/

/-- The operations on the components of a builder. -/
inductive ComponentOp (k : ComponentTypes)
  | addComponent (t : ComponentTy) (component : t.Val k)
  | addRouter (router : k.Router)
  | addRouterLayer (layer : k.Router → k.Router)
  | addJob (job : k.Job)
  | addJobs (newJobs : List k.Job)
  | addConsumer (newConsumers : List k.Consumer)
  | lookup (t : ComponentTy) (how : Lookup)

/-- The builder and the memory. -/
structure ComponentBuilder (k : ComponentTypes) (C T : Type) where
  app : AppBuilder DynComponentRef C T
  cells : Cells (ComponentTy.Val k)

/-- The built application and the memory. -/
structure ComponentApp (k : ComponentTypes) (C : Type) where
  app : App DynComponentRef C
  cells : Cells (ComponentTy.Val k)

def ComponentApp.registry {C : Type} (s : ComponentApp k C) : ComponentRegistry k :=
  { components := s.app.components, cells := s.cells }

/-- `Jobs::merge` and `Consumers::merge`. -/
def pushAll {α : Type} (items newItems : List α) : List α :=
  newItems.foldl (fun items item => items ++ [item]) items

namespace ComponentBuilder

variable {C T : Type} (typeName : TypeId → String)

def registry (s : ComponentBuilder k C T) : ComponentRegistry k :=
  { components := s.app.components, cells := s.cells }

def addComponent (s : ComponentBuilder k C T) (t : ComponentTy) (component : t.Val k) :
    ComponentBuilder k C T × Outcome k :=
  match s.app.addComponent typeName t.typeId { addr := s.cells.length } with
  | .error p => (s, .panicked p)
  | .ok app => ({ app := app, cells := s.cells ++ [⟨t, component⟩] }, .done)

/-- Writing through the raw pointer of a reference. -/
def grow (s : ComponentBuilder k C T) {t : ComponentTy} (ref : ComponentRef t)
    (f : t.Val k → t.Val k) : ComponentBuilder k C T :=
  { s with cells := s.cells.update ref.addr t f }

/-- The adders: the component is grown if there is one to refer to, or else added. -/
def growOrAdd (s : ComponentBuilder k C T) (t : ComponentTy) (f : t.Val k → t.Val k)
    (component : t.Val k) : ComponentBuilder k C T × Outcome k :=
  match s.registry.getComponentRef t with
  | some ref => (s.grow ref f, .done)
  | none => s.addComponent typeName t component

def addRouter (s : ComponentBuilder k C T) (router : k.Router) :
    ComponentBuilder k C T × Outcome k :=
  s.growOrAdd typeName .routers (fun routers => routers ++ [router]) [router]

def addRouterLayer (s : ComponentBuilder k C T) (layer : k.Router → k.Router) :
    ComponentBuilder k C T × Outcome k :=
  s.growOrAdd typeName .routerLayers (fun layers => layers ++ [layer]) [layer]

def addJob (s : ComponentBuilder k C T) (job : k.Job) : ComponentBuilder k C T × Outcome k :=
  s.growOrAdd typeName .jobs (fun jobs => jobs ++ [job]) [job]

def addJobs (s : ComponentBuilder k C T) (newJobs : List k.Job) :
    ComponentBuilder k C T × Outcome k :=
  s.growOrAdd typeName .jobs (fun jobs => pushAll jobs newJobs) newJobs

def addConsumer (s : ComponentBuilder k C T) (newConsumers : List k.Consumer) :
    ComponentBuilder k C T × Outcome k :=
  s.growOrAdd typeName .consumers (fun consumers => pushAll consumers newConsumers) newConsumers

def apply (s : ComponentBuilder k C T) : ComponentOp k → ComponentBuilder k C T × Outcome k
  | .addComponent t component => s.addComponent typeName t component
  | .addRouter router => s.addRouter typeName router
  | .addRouterLayer layer => s.addRouterLayer typeName layer
  | .addJob job => s.addJob typeName job
  | .addJobs newJobs => s.addJobs typeName newJobs
  | .addConsumer newConsumers => s.addConsumer typeName newConsumers
  | .lookup t how => (s, s.registry.look typeName t how)

/-- A run goes on after a panic, as it does where the panic is caught. -/
def run (s : ComponentBuilder k C T) (ops : List (ComponentOp k)) : ComponentBuilder k C T :=
  ops.foldl (fun s op => (s.apply typeName op).1) s

/-- The operations of a run that did not panic. -/
def accepted : ComponentBuilder k C T → List (ComponentOp k) → List (ComponentOp k)
  | _, [] => []
  | s, op :: rest =>
    (if (s.apply typeName op).2.isPanic then [] else [op]) ++ accepted (s.apply typeName op).1 rest

/-- `AppBuilder::default`, which adds the event bus. -/
def default (base : AppBuilder DynComponentRef C T) (bus : k.EventBus) : ComponentBuilder k C T :=
  (addComponent typeName { app := { base with components := ∅ }, cells := [] } .eventBus bus).1

/-- `build_app`: the map is moved, the components stay where they are. -/
def buildApp (s : ComponentBuilder k C T) : ComponentApp k C :=
  { app := s.app.buildApp, cells := s.cells }

end ComponentBuilder

end

/-! ## The invariant -/

namespace ComponentRegistry

variable {k : ComponentTypes} {reg : ComponentRegistry k} {t t' : ComponentTy}

/-- The cell under the id of a type holds a value of that type. -/
def Typed (reg : ComponentRegistry k) : Prop :=
  ∀ t ref, reg.components.lookup (ComponentTy.typeId t) = some ref →
    (reg.cells.read ref.addr t).isSome

theorem Typed.downcast (h : reg.Typed) {ref : DynComponentRef}
    (href : reg.components.lookup t.typeId = some ref) :
    ref.downcast reg.cells t = some { addr := ref.addr } :=
  if_pos (h t ref href)

theorem Typed.getComponentRef (h : reg.Typed) :
    reg.getComponentRef t =
      (reg.components.lookup t.typeId).map fun ref => { addr := ref.addr } := by
  unfold ComponentRegistry.getComponentRef
  cases href : reg.components.lookup t.typeId with
  | none => rfl
  | some ref => exact h.downcast href

/-- The key is there exactly if the downcast succeeds. -/
theorem Typed.has_iff_ref (h : reg.Typed) :
    reg.hasComponent t ↔ (reg.getComponentRef t).isSome := by
  rw [h.getComponentRef, Option.isSome_map, AList.lookup_isSome]
  rfl

theorem Typed.getComponent (h : reg.Typed) :
    reg.getComponent t =
      (reg.components.lookup t.typeId).bind fun ref => reg.cells.read ref.addr t := by
  unfold ComponentRegistry.getComponent
  rw [h.getComponentRef]
  cases reg.components.lookup t.typeId <;> rfl

theorem Typed.has_iff_value (h : reg.Typed) :
    reg.hasComponent t ↔ (reg.getComponent t).isSome := by
  unfold hasComponent
  rw [h.getComponent, ← AList.lookup_isSome]
  cases href : reg.components.lookup t.typeId with
  | none => rfl
  | some ref => exact (iff_of_true rfl (h t ref href))

end ComponentRegistry

end Summer
