/-
Services and the code `derive(Service)` generates for them (`summer-macros/src/inject.rs`).

`build` binds the fields in the order of their kinds and returns at the first lookup that
fails.  Function calls come last in that order, so a build that fails has called nothing
(`build_error_calls`), and it succeeds exactly when every lookup does (`build_ok_iff`).
The registrar of a gRPC service adds its server to the `RoutesBuilder` of the registry as well.
-/
import Mathlib.Data.List.Sort
import Summer.App.Builder

namespace Summer

/-- The kinds of a service's fields.  `PrototypeArg` is left out: only a prototype has such
fields, and a prototype has no registrar. -/
inductive InjectableType
  | option
  | component (optional : Bool) (ty : TypeId)
  | lazyComponent (ty : TypeId)
  | config (ty : TypeId)
  | componentRef (ty : TypeId)
  | configRef (ty : TypeId)
  | funcCall (func : ℕ)
deriving DecidableEq, Repr

def InjectableType.order : InjectableType → ℕ
  | .option => 0
  | .component _ _ => 1
  | .lazyComponent _ => 1
  | .config _ => 2
  | .componentRef _ => 3
  | .configRef _ => 4
  | .funcCall _ => 5

structure Injectable where
  fieldName : String
  ty : InjectableType
deriving DecidableEq, Repr

namespace Injectable

def before (f g : Injectable) : Prop := f.ty.order ≤ g.ty.order

instance : DecidableRel before := fun f g => inferInstanceAs (Decidable (f.ty.order ≤ g.ty.order))

instance : Std.Total before := ⟨fun f g => Nat.le_total f.ty.order g.ty.order⟩

instance : IsTrans Injectable before := ⟨fun _ _ _ => Nat.le_trans⟩

/-- The types of the components a field cannot do without. -/
def mandatory (f : Injectable) : List TypeId :=
  match f.ty with
  | .component false ty => [ty]
  | .componentRef ty => [ty]
  | _ => []

def configs (f : Injectable) : List TypeId :=
  match f.ty with
  | .config ty => [ty]
  | .configRef ty => [ty]
  | _ => []

def calls (f : Injectable) : List ℕ :=
  match f.ty with
  | .funcCall func => [func]
  | _ => []

end Injectable

/-- A service with a registrar: the struct that derives it, the server type of
`#[service(grpc = "..")]`, and its fields, sorted as `Service::new` does. -/
structure Service where
  id : ℕ
  grpc : Option ℕ
  fields : List Injectable
  sorted : fields.Pairwise Injectable.before
deriving DecidableEq

namespace Service

/-- `fields.sort_by_key(|f| f.ty.order())`, a stable sort. -/
def new (id : ℕ) (grpc : Option ℕ) (declared : List Injectable) : Service where
  id := id
  grpc := grpc
  fields := declared.insertionSort Injectable.before
  sorted := List.pairwise_insertionSort _ _

/-- The type of the service, which the crate that derives it declares itself. -/
def ty (s : Service) : TypeId := .concrete s.id

/-- The types of the components that the registrar adds. -/
def gives (s : Service) : List TypeId :=
  match s.grpc with
  | none => [s.ty]
  | some _ => [s.ty, .routesBuilder]

/-- The types of the components the service cannot be built without. -/
def mandatory (s : Service) : List TypeId := s.fields.flatMap Injectable.mandatory

def configs (s : Service) : List TypeId := s.fields.flatMap Injectable.configs

end Service

/-- A `ComponentRef` shares the component with the registry, so it is the entry it leads to. -/
inductive FieldValue (V : Type)
  | none
  | optional (component : Option V)
  | component (component : V)
  | lazy (ty : TypeId)
  | config (config : V)
  | componentRef (ty : TypeId)
  | configRef (config : V)
  | called (result : V)
deriving DecidableEq, Repr

abbrev Fields (V : Type) := List (String × FieldValue V)

/-- What the generated code calls besides the registry.  A function call may use the
fields bound before it, and is taken to give the same value whenever these are the same.
`builder` and `addService` are tonic's `Routes::builder()` and `RoutesBuilder::add_service`
with a server type and the service in it; `addService` is taken to return, as it does when no
server type is added twice. -/
structure Injection (V C : Type) where
  typeName : TypeId → String
  getConfig : C → TypeId → Except AppError V
  call : ℕ → Fields V → V
  construct : TypeId → Fields V → V
  builder : V
  addService : V → ℕ → V → V

namespace Service

variable {V C T : Type}

/-- The right side of the `let` of one field. -/
def bindField (inj : Injection V C) (app : AppBuilder V C T) (bound : Fields V) :
    InjectableType → Except AppError (FieldValue V)
  | .option => .ok .none
  | .component true ty => .ok (.optional (app.getComponent ty))
  | .component false ty => (app.tryGetComponent inj.typeName ty).map .component
  | .lazyComponent ty => .ok (.lazy ty)
  | .config ty => (inj.getConfig app.config ty).map .config
  | .componentRef ty => (app.tryGetComponent inj.typeName ty).map fun _ => .componentRef ty
  | .configRef ty => (inj.getConfig app.config ty).map .configRef
  | .funcCall func => .ok (.called (inj.call func bound))

/-- The fields bound so far and the functions called so far, up to the first `?` that
returns. -/
def bindFields (inj : Injection V C) (app : AppBuilder V C T) :
    Fields V → List Injectable → List ℕ × Except AppError (Fields V)
  | bound, [] => ([], .ok bound)
  | bound, f :: rest =>
    match bindField inj app bound f.ty with
    | .error e => ([], .error e)
    | .ok v =>
      let r := bindFields inj app (bound ++ [(f.fieldName, v)]) rest
      (f.calls ++ r.1, r.2)

def build (inj : Injection V C) (app : AppBuilder V C T) (s : Service) :
    List ℕ × Except AppError (Fields V) :=
  bindFields inj app [] s.fields

/-- What one attempt to install a service does: the builder afterwards, the functions
called, and the fields injected if it succeeded. -/
structure Attempt (V C T : Type) where
  app : AppBuilder V C T
  calls : List ℕ
  result : Except Abort (Fields V)

/-- `GrpcConfigurator::add_service`: the builder in the registry is changed in place, and a new
one is added if there is none. -/
def addService (inj : Injection V C) (app : AppBuilder V C T) (server : ℕ) (service : V) :
    AppBuilder V C T :=
  match app.getComponent .routesBuilder with
  | some routes =>
    { app with components :=
        app.components.insert .routesBuilder (inj.addService routes server service) }
  | none =>
    { app with components :=
        app.components.insert .routesBuilder (inj.addService inj.builder server service) }

/-- `app.add_component(Service::build(app)?)`, and for a gRPC service `add_service` of its server
after it. -/
def installService (inj : Injection V C) (app : AppBuilder V C T) (s : Service) :
    Attempt V C T :=
  match s.build inj app with
  | (calls, .error e) => { app := app, calls := calls, result := .error (.err e) }
  | (calls, .ok fields) =>
    let service := inj.construct s.ty fields
    match app.addComponent inj.typeName s.ty service with
    | .error p => { app := app, calls := calls, result := .error (.panic p) }
    | .ok app' =>
      match s.grpc with
      | none => { app := app', calls := calls, result := .ok fields }
      | some server =>
        { app := addService inj app' server service, calls := calls, result := .ok fields }

/-! ## When a build succeeds -/

/-- The lookups of a field succeed. -/
def Found (inj : Injection V C) (app : AppBuilder V C T) (f : Injectable) : Prop :=
  (∀ ty ∈ f.mandatory, app.hasComponent ty) ∧
    ∀ ty ∈ f.configs, ∃ c, inj.getConfig app.config ty = .ok c

theorem map_ok_iff {α β ε : Type} {x : Except ε α} {f : α → β} :
    (∃ b, x.map f = .ok b) ↔ ∃ a, x = .ok a := by
  cases x with
  | error e => simp [Except.map]
  | ok a => simp [Except.map]

theorem exists_tryGetComponent_iff {typeName : TypeId → String} {app : AppBuilder V C T}
    {ty : TypeId} : (∃ c, app.tryGetComponent typeName ty = .ok c) ↔ app.hasComponent ty := by
  rw [← AppBuilder.getComponent_isSome, Option.isSome_iff_exists]
  exact exists_congr fun c => AppBuilder.tryGetComponent_ok_iff

theorem bindField_ok_iff {inj : Injection V C} {app : AppBuilder V C T} {bound : Fields V}
    {f : Injectable} : (∃ v, bindField inj app bound f.ty = .ok v) ↔ Found inj app f := by
  unfold Found Injectable.mandatory Injectable.configs
  cases f.ty with
  | component optional ty =>
      cases optional with
      | true => simp [bindField]
      | false => simp [bindField, map_ok_iff, exists_tryGetComponent_iff]
  | componentRef ty => simp [bindField, map_ok_iff, exists_tryGetComponent_iff]
  | config ty => simp [bindField, map_ok_iff]
  | configRef ty => simp [bindField, map_ok_iff]
  | _ => simp [bindField]

theorem bindFields_ok_iff {inj : Injection V C} {app : AppBuilder V C T} {bound : Fields V}
    {fields : List Injectable} :
    (∃ v, (bindFields inj app bound fields).2 = .ok v) ↔ ∀ f ∈ fields, Found inj app f := by
  induction fields generalizing bound with
  | nil => simp [bindFields]
  | cons f rest ih =>
      rw [List.forall_mem_cons, ← @bindField_ok_iff V C T inj app bound f]
      unfold bindFields
      cases h : bindField inj app bound f.ty with
      | error e => simp
      | ok v =>
          simp only [Except.ok.injEq, exists_eq', true_and]
          exact ih

theorem build_ok_iff {inj : Injection V C} {app : AppBuilder V C T} {s : Service} :
    (∃ fields, (s.build inj app).2 = .ok fields) ↔ ∀ f ∈ s.fields, Found inj app f :=
  bindFields_ok_iff

/-- A field that comes as late as a function call looks nothing up. -/
theorem found_of_last {inj : Injection V C} {app : AppBuilder V C T} {f : Injectable}
    (h : 5 ≤ f.ty.order) : Found inj app f := by
  unfold Found Injectable.mandatory Injectable.configs
  cases hty : f.ty with
  | funcCall func => simp
  | _ =>
      rw [hty] at h
      simp only [InjectableType.order] at h
      omega

theorem bindFields_error_calls {inj : Injection V C} {app : AppBuilder V C T} {bound : Fields V}
    {fields : List Injectable} (hsorted : fields.Pairwise Injectable.before) {e : AppError}
    (h : (bindFields inj app bound fields).2 = .error e) :
    (bindFields inj app bound fields).1 = [] := by
  induction fields generalizing bound with
  | nil => rfl
  | cons f rest ih =>
      have hrest := List.pairwise_cons.mp hsorted
      unfold bindFields at h ⊢
      cases hf : bindField inj app bound f.ty with
      | error e' => rfl
      | ok v =>
          rw [hf] at h
          simp only at h ⊢
          by_cases hlast : 5 ≤ f.ty.order
          · -- after a function call only function calls are left, and they do not fail
            have hall : ∀ g ∈ rest, Found inj app g := fun g hg =>
              found_of_last (Nat.le_trans hlast (hrest.1 g hg))
            obtain ⟨fields, hok⟩ :=
              (@bindFields_ok_iff V C T inj app (bound ++ [(f.fieldName, v)]) rest).mpr hall
            rw [hok] at h
            cases h
          · have hcalls : f.calls = [] := by
              unfold Injectable.calls
              cases hty : f.ty with
              | funcCall func =>
                  rw [hty] at hlast
                  exact absurd (Nat.le_refl 5) hlast
              | _ => rfl
            rw [hcalls, List.nil_append]
            exact ih hrest.2 h

/-- A build that fails has called no function. -/
theorem build_error_calls {inj : Injection V C} {app : AppBuilder V C T} {s : Service}
    {e : AppError} (h : (s.build inj app).2 = .error e) : (s.build inj app).1 = [] :=
  bindFields_error_calls s.sorted h

/-! ## What a registrar adds -/

/-- The builder once the registrar has added what it gives. -/
def register (inj : Injection V C) (app : AppBuilder V C T) (s : Service) (service : V) :
    AppBuilder V C T :=
  let app' := { app with components := app.components.insert s.ty service }
  match s.grpc with
  | none => app'
  | some server => addService inj app' server service

theorem ty_ne_routesBuilder (s : Service) : s.ty ≠ .routesBuilder := TypeId.noConfusion

theorem mem_gives {s : Service} {ty : TypeId} :
    ty ∈ s.gives ↔ ty = s.ty ∨ ty = .routesBuilder ∧ s.grpc.isSome := by
  unfold gives
  cases s.grpc with
  | none => simp
  | some server => simp

theorem ty_mem_gives (s : Service) : s.ty ∈ s.gives := mem_gives.mpr (.inl rfl)

/-- A type other than `RoutesBuilder` is given by its own service only. -/
theorem mem_gives_of_ne {s : Service} {ty : TypeId} (h : ty ≠ .routesBuilder) :
    ty ∈ s.gives ↔ s.ty = ty := by
  rw [mem_gives, or_iff_left fun hroutes => h hroutes.1, eq_comm]

theorem ty_mem_gives_iff {q s : Service} : q.ty ∈ s.gives ↔ s.ty = q.ty :=
  mem_gives_of_ne q.ty_ne_routesBuilder

/-- The builder of the routes with one more server, a new one if there is none yet. -/
def addServer (inj : Injection V C) (routes : Option V) (server : ℕ × V) : Option V :=
  some (inj.addService (routes.getD inj.builder) server.1 server.2)

/-- Whether the builder is there or new, its entry then holds one more server. -/
theorem addService_eq {inj : Injection V C} {app : AppBuilder V C T} {server : ℕ} {service : V} :
    addService inj app server service =
      { app with
        components := app.components.insert .routesBuilder
          (inj.addService ((app.getComponent .routesBuilder).getD inj.builder) server
            service) } := by
  unfold addService
  cases app.getComponent .routesBuilder with
  | some routes => rfl
  | none => rfl

section
variable {inj : Injection V C} {app : AppBuilder V C T} {s : Service} {service : V}

@[simp] theorem config_register : (register inj app s service).config = app.config := by
  unfold register
  cases s.grpc with
  | none => rfl
  | some server => simp only [addService_eq]

@[simp] theorem shutdownHooks_register :
    (register inj app s service).shutdownHooks = app.shutdownHooks := by
  unfold register
  cases s.grpc with
  | none => rfl
  | some server => simp only [addService_eq]

theorem hasComponent_register {ty : TypeId} :
    (register inj app s service).hasComponent ty ↔ ty ∈ s.gives ∨ app.hasComponent ty := by
  unfold register gives AppBuilder.hasComponent
  cases s.grpc with
  | none => simp
  | some server =>
      simp only [addService_eq, AList.mem_insert, List.mem_cons, List.not_mem_nil,
        or_false]
      tauto

/-- A registrar leaves the entries of the types it does not give alone. -/
theorem getComponent_register_ne {ty : TypeId} (h : ty ∉ s.gives) :
    (register inj app s service).getComponent ty = app.getComponent ty := by
  simp only [mem_gives, not_or, not_and] at h
  unfold register AppBuilder.getComponent
  cases hgrpc : s.grpc with
  | none => exact AList.lookup_insert_ne h.1
  | some server =>
      have hroutes : ty ≠ .routesBuilder := fun heq => h.2 heq (by rw [hgrpc]; rfl)
      simp only [addService_eq, AList.lookup_insert_ne hroutes, AList.lookup_insert_ne h.1]

theorem getComponent_register_self :
    (register inj app s service).getComponent s.ty = some service := by
  unfold register AppBuilder.getComponent
  cases s.grpc with
  | none => exact AList.lookup_insert _
  | some server =>
      simp only [addService_eq, AList.lookup_insert_ne s.ty_ne_routesBuilder,
        AList.lookup_insert]

theorem getComponent_register_routes :
    (register inj app s service).getComponent .routesBuilder =
      match s.grpc with
      | none => app.getComponent .routesBuilder
      | some server => addServer inj (app.getComponent .routesBuilder) (server, service) := by
  have hne : TypeId.routesBuilder ≠ s.ty := s.ty_ne_routesBuilder.symm
  unfold register AppBuilder.getComponent
  cases s.grpc with
  | none => exact AList.lookup_insert_ne hne
  | some server =>
      simp only [addService_eq, AList.lookup_insert, addServer,
        AppBuilder.getComponent, AList.lookup_insert_ne hne]

end

/-! ## What an attempt does -/

theorem installService_build_error {inj : Injection V C} {app : AppBuilder V C T} {s : Service}
    {e : AppError} (h : (s.build inj app).2 = .error e) :
    s.installService inj app = { app := app, calls := [], result := .error (.err e) } := by
  have hcalls := build_error_calls h
  unfold installService
  cases hb : s.build inj app with
  | mk calls result =>
      rw [hb] at h hcalls
      simp only at h hcalls
      rw [h, hcalls]

theorem installService_ok {inj : Injection V C} {app : AppBuilder V C T} {s : Service}
    {fields : Fields V} (h : (s.build inj app).2 = .ok fields) (hfree : ¬ app.hasComponent s.ty) :
    s.installService inj app =
      { app := register inj app s (inj.construct s.ty fields),
        calls := (s.build inj app).1,
        result := .ok fields } := by
  unfold installService register
  cases hb : s.build inj app with
  | mk calls result =>
      rw [hb] at h
      simp only at h
      rw [h]
      simp only [AppBuilder.addComponent, if_neg hfree]
      cases s.grpc with
      | none => rfl
      | some server => rfl

theorem installService_panic {inj : Injection V C} {app : AppBuilder V C T} {s : Service}
    {fields : Fields V} (h : (s.build inj app).2 = .ok fields) (htaken : app.hasComponent s.ty) :
    s.installService inj app =
      { app := app,
        calls := (s.build inj app).1,
        result := .error (.panic (.componentAdded (inj.typeName s.ty))) } := by
  unfold installService
  cases hb : s.build inj app with
  | mk calls result =>
      rw [hb] at h
      simp only at h
      rw [h]
      simp only [AppBuilder.addComponent, if_pos htaken]

/-- An attempt that returns an error has changed nothing and called nothing. -/
theorem installService_err {inj : Injection V C} {app : AppBuilder V C T} {s : Service}
    {e : AppError} (h : (s.installService inj app).result = .error (.err e)) :
    (s.installService inj app).app = app ∧ (s.installService inj app).calls = [] ∧
      (s.build inj app).2 = .error e := by
  cases hb : (s.build inj app).2 with
  | error e' =>
      have hinstall := installService_build_error hb
      rw [hinstall] at h ⊢
      simp only [Except.error.injEq, Abort.err.injEq] at h
      exact ⟨rfl, rfl, by rw [h]⟩
  | ok fields =>
      by_cases htaken : app.hasComponent s.ty
      · rw [installService_panic hb htaken] at h
        cases h
      · rw [installService_ok hb htaken] at h
        cases h

end Service
end Summer
