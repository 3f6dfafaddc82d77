/-
Fields of the wrapper types `LazyComponent`, `ComponentRef` and `ConfigRef`, with and without an
`inject` attribute, and the installation of services that wait for each other through lazy fields.

The attribute of a field is looked at before its type, so that a wrapper with an attribute is
looked up like any other component (`computeType_of_attr`).
-/
import Summer.Inject.Installable
import Summer.Macros.Inject

namespace Summer.Macros

/-! ## Services that can be resolved -/

section
variable {V C T : Type}

/-- `s` waits for what `q` gives. -/
def NeedsService (services : List Service) (s q : Service) : Prop :=
  q ∈ services ∧ ∃ ty ∈ s.mandatory, ty ∈ q.gives

/-- No service waits for itself, and everything that no service gives is there. -/
structure Resolvable (inj : Injection V C) (app : AppBuilder V C T) (services : List Service) :
    Prop where
  acyclic : ∀ s ∈ services, ¬ Relation.TransGen (NeedsService services) s s
  available : ∀ s ∈ services, ∀ ty ∈ s.mandatory,
    app.hasComponent ty ∨ ∃ q ∈ services, ty ∈ q.gives
  configs : ∀ s ∈ services, ConfigsLoad inj app.config s
  distinct : (services.map Service.ty).Nodup
  free : ∀ s ∈ services, ¬ app.hasComponent s.ty

theorem Resolvable.installable {inj : Injection V C} {app : AppBuilder V C T}
    {services : List Service} (h : Resolvable inj app services) {s : Service} (hs : s ∈ services) :
    Installable inj app services s := by
  classical
  by_contra hnot
  -- each service that is not installable waits for another one
  have hnext : ∀ a ∈ services.filter (fun s => ¬ Installable inj app services s),
      ∃ b ∈ services.filter (fun s => ¬ Installable inj app services s),
        NeedsService services a b := by
    intro a ha
    obtain ⟨hmem, hstuck⟩ := List.mem_filter.mp ha
    have hstuck : ¬ Installable inj app services a := by simpa using hstuck
    have hmissing : ∃ ty ∈ a.mandatory, ¬ Available inj app services ty := by
      by_contra hall
      push Not at hall
      exact hstuck ⟨hmem, hall, h.configs a hmem⟩
    obtain ⟨ty, hty, hunavailable⟩ := hmissing
    rcases h.available a hmem ty hty with hhas | ⟨q, hq, hgives⟩
    · exact absurd (.present hhas) hunavailable
    · refine ⟨q, List.mem_filter.mpr ⟨hq, ?_⟩, hq, ty, hty, hgives⟩
      simp only [decide_eq_true_eq]
      intro hinst
      exact hunavailable (.service hq hinst.2.1 hinst.2.2 hgives)
  have hmem : s ∈ services.filter (fun s => ¬ Installable inj app services s) :=
    List.mem_filter.mpr ⟨hs, by simpa using hnot⟩
  obtain ⟨a, ha, hcycle⟩ := Rules.exists_cycle (List.ne_nil_of_mem hmem) hnext
  exact h.acyclic a (List.mem_filter.mp ha).1 hcycle

theorem Resolvable.installed {inj : Injection V C} {app : AppBuilder V C T}
    {services : List Service} (h : Resolvable inj app services) :
    ∃ out, autoInjectService inj app services = .ok out ∧ out.result = .ok () := by
  obtain ⟨out, hout, hinstalls⟩ := autoInjectService_installs (List.Perm.refl services)
    h.distinct fun s hs => h.free s hs.1
  exact ⟨out, hout, hinstalls.ok_iff.mpr fun s hs => h.installable hs⟩

end

/-! ## Wrapper types -/

section
variable {E : Type}

/-- The initialiser of a field by its type alone. -/
def wrapperType (ty : Ty) : Option (InjectableType E) :=
  match ty.typePath.bind fun path => path.segments.getLast? with
  | some (.mk typeName arguments) =>
    if typeName = "LazyComponent" then (getArgumentType arguments).toOption.map .lazyComponent
    else if typeName = "ComponentRef" then (getArgumentType arguments).toOption.map .componentRef
    else if typeName = "ConfigRef" then (getArgumentType arguments).toOption.map .configRef
    else none
  | none => none

def Field.injectAttr (field : Field) : Option Attribute :=
  field.attrs.find? fun attr => attr.path.isIdent "inject"

/-- `#[inject(component)]` or `#[inject(config)]`. -/
def Field.Marked (field : Field) : Prop :=
  field.injectAttr = some ⟨.list (.ident "inject") [.ident "component"]⟩ ∨
    field.injectAttr = some ⟨.list (.ident "inject") [.ident "config"]⟩

instance (field : Field) : Decidable field.Marked := inferInstanceAs (Decidable (_ ∨ _))

theorem except_map_ok {α β ε : Type} {x : Except ε α} {f : α → β} {b : β}
    (h : x.toOption.map f = some b) : x.map f = .ok b := by
  cases x with
  | error e => cases h
  | ok a =>
      cases h
      rfl

theorem computeType_of_none {syn : InjectSyn E} {field : Field} {w : InjectableType E}
    (hnone : field.injectAttr = none) (hwrapper : wrapperType field.ty = some w)
    (isPrototype : Bool) : computeType syn field isPrototype = .ok w := by
  unfold Field.injectAttr at hnone
  unfold wrapperType at hwrapper
  unfold computeType
  cases htype : field.ty.typePath with
  | none => simp [htype] at hwrapper
  | some ty =>
      rw [htype, Option.bind_some] at hwrapper
      simp only [hnone]
      cases hlast : ty.segments.getLast? with
      | none => simp [hlast] at hwrapper
      | some segment =>
          obtain ⟨typeName, arguments⟩ := segment
          rw [hlast] at hwrapper
          simp only at hwrapper ⊢
          split_ifs at hwrapper with hlazy hcomponent hconfig
          · rw [if_pos hlazy]
            exact except_map_ok hwrapper
          · rw [if_neg hlazy, if_pos hcomponent]
            exact except_map_ok hwrapper
          · rw [if_neg hlazy, if_neg hcomponent, if_pos hconfig]
            exact except_map_ok hwrapper

theorem wrapperType_cases {ty : Ty} {w : InjectableType E} (h : wrapperType ty = some w) :
    (∃ path, ty.typePath = some path) ∧
      ∃ path, w = .lazyComponent path ∨ w = .componentRef path ∨ w = .configRef path := by
  unfold wrapperType at h
  constructor
  · cases htype : ty.typePath with
    | none => simp [htype] at h
    | some path => exact ⟨path, rfl⟩
  · split at h
    · split_ifs at h
      · obtain ⟨path, _, rfl⟩ := Option.map_eq_some_iff.mp h
        exact ⟨path, .inl rfl⟩
      · obtain ⟨path, _, rfl⟩ := Option.map_eq_some_iff.mp h
        exact ⟨path, .inr (.inl rfl)⟩
      · obtain ⟨path, _, rfl⟩ := Option.map_eq_some_iff.mp h
        exact ⟨path, .inr (.inr rfl)⟩
    · cases h

theorem makeType_ne_wrapper {ty : Ty} {path : TypePath} {attr : InjectableAttr E}
    {w : InjectableType E} (h : wrapperType ty = some w) : attr.makeType path ≠ .ok w := by
  obtain ⟨_, target, hw⟩ := wrapperType_cases h
  cases attr with
  | config => rcases hw with rfl | rfl | rfl <;> simp [InjectableAttr.makeType]
  | funcCall call => rcases hw with rfl | rfl | rfl <;> simp [InjectableAttr.makeType]
  | component =>
      cases hlast : path.segments.getLast? with
      | none => simp [InjectableAttr.makeType, hlast]
      | some segment =>
          obtain ⟨ident, arguments⟩ := segment
          simp only [InjectableAttr.makeType, hlast]
          split_ifs
          · cases getArgumentType arguments <;> rcases hw with rfl | rfl | rfl <;> simp [Except.map]
          · rcases hw with rfl | rfl | rfl <;> simp

/-- No attribute gives the initialiser of a wrapper. -/
theorem computeType_of_attr {syn : InjectSyn E} {field : Field} {w : InjectableType E}
    {attr : Attribute} (hattr : field.injectAttr = some attr)
    (hwrapper : wrapperType field.ty = some w) (isPrototype : Bool) :
    computeType syn field isPrototype ≠ .ok w := by
  obtain ⟨⟨path, htype⟩, _⟩ := wrapperType_cases hwrapper
  unfold Field.injectAttr at hattr
  unfold computeType
  simp only [htype, hattr]
  split
  · split
    · exact makeType_ne_wrapper hwrapper
    · simp
  · simp

/-! ## From a declaration to a service -/

/-- A struct with `#[derive(Service)]`, and the type it declares. -/
structure Declaration where
  ident : String
  id : ℕ
  attrs : List Attribute
  fields : List Field

variable (typeId : TypePath → TypeId) (server : String → ℕ) (call : E → ℕ)

def InjectableType.resolve : InjectableType E → Option Summer.InjectableType
  | .option => some .option
  | .component optional path => some (.component optional (typeId path))
  | .lazyComponent path => some (.lazyComponent (typeId path))
  | .config path => some (.config (typeId path))
  | .componentRef path => some (.componentRef (typeId path))
  | .configRef path => some (.configRef (typeId path))
  | .funcCall func => some (.funcCall (call func))
  | .prototypeArg _ => none

def Injectable.resolve (field : Injectable E) : Option Summer.Injectable :=
  (field.ty.resolve typeId call).map fun ty => { fieldName := field.fieldName, ty := ty }

/-- The service that the generated code registers, if the struct compiles: none for a prototype.
The fields come sorted already. -/
def Declaration.compile (syn : InjectSyn E) (d : Declaration) : Option (List Service) :=
  match expandServiceDerive syn
      { ident := d.ident, attrs := d.attrs, data := .struct d.fields } with
  | .ok (.component _ fields) =>
    some [Service.new d.id none (fields.filterMap (Injectable.resolve typeId call))]
  | .ok (.grpc _ path fields) =>
    some [Service.new d.id (some (server path))
      (fields.filterMap (Injectable.resolve typeId call))]
  | .ok (.prototype _ _ _) => some []
  | .error _ => none

/-- The registrars of a program. -/
def registrars (syn : InjectSyn E) (decls : List Declaration) : Option (List Service) :=
  (decls.mapM (Declaration.compile typeId server call syn)).map List.flatten

/-- The field as it is meant: a wrapper without the attribute. -/
def Field.plain (E : Type) (field : Field) : Field :=
  if (@wrapperType E field.ty).isSome ∧ field.Marked then
    { field with attrs := field.attrs.filter fun attr => !attr.path.isIdent "inject" }
  else field

def Declaration.plain (E : Type) (d : Declaration) : Declaration :=
  { d with fields := d.fields.map (Field.plain E) }

end

theorem plain_eq_self {E : Type} {d : Declaration}
    (h : ∀ field ∈ d.fields, (@wrapperType E field.ty).isSome → ¬ field.Marked) :
    d.plain E = d := by
  have hfields : d.fields.map (Field.plain E) = d.fields := by
    rw [List.map_congr_left (g := id), List.map_id]
    intro field hfield
    unfold Field.plain
    rw [if_neg fun hmarked => h field hfield hmarked.1 hmarked.2]
    rfl
  unfold Declaration.plain
  rw [hfields]

section
variable {E V C T : Type}

/-- The attribute makes no difference to the wrappers, and whatever can be resolved without it is
installed. -/
structure AttributeOptional (syn : InjectSyn E) (typeId : TypePath → TypeId)
    (server : String → ℕ) (call : E → ℕ) (inj : Injection V C) (app : AppBuilder V C T)
    (decls : List Declaration) : Prop where
  wrappers : ∀ d ∈ decls, ∀ field ∈ d.fields, field.injectAttr = none ∨ field.Marked →
    ∀ w, wrapperType field.ty = some w →
      ∀ isPrototype, computeType syn field isPrototype = .ok w
  installs : ∀ meant,
      registrars typeId server call syn (decls.map (Declaration.plain E)) = some meant →
      Resolvable inj app meant →
    ∃ services out, registrars typeId server call syn decls = some services ∧
      autoInjectService inj app services = .ok out ∧ out.result = .ok ()

end

/-- For every set of declarations, whatever their other fields. -/
theorem attributeOptional_iff (E V C T : Type) (syn : InjectSyn E) (typeId : TypePath → TypeId)
    (server : String → ℕ) (call : E → ℕ) (inj : Injection V C) (app : AppBuilder V C T)
    (decls : List Declaration) :
    AttributeOptional syn typeId server call inj app decls ↔
      ∀ d ∈ decls, ∀ field ∈ d.fields, (@wrapperType E field.ty).isSome → ¬ field.Marked := by
  constructor
  · intro h d hd field hfield hwrapper hmarked
    obtain ⟨w, hw⟩ := Option.isSome_iff_exists.mp hwrapper
    have htype := h.wrappers d hd field hfield (.inr hmarked) w hw false
    rcases hmarked with hattr | hattr
    · exact computeType_of_attr hattr hw false htype
    · exact computeType_of_attr hattr hw false htype
  · intro h
    constructor
    · intro d hd field hfield hmarked w hw isPrototype
      rcases hmarked with hnone | hmarked
      · exact computeType_of_none hnone hw isPrototype
      · exact absurd hmarked (h d hd field hfield (by rw [hw]; rfl))
    · intro meant hmeant hresolvable
      rw [List.map_congr_left fun d hd => plain_eq_self (h d hd), List.map_id'] at hmeant
      obtain ⟨out, hout, hresult⟩ := hresolvable.installed
      exact ⟨meant, out, hmeant, hout, hresult⟩

namespace Sample

def lazyOther : Ty :=
  .path none false [.mk "LazyComponent"
    (.angleBracketed [.type (.path none false [.mk "OtherService" .none])])]

def userService : Ty := .path none false [.mk "UserService" .none]

/-- Two services that need each other, one of them through a lazy field with an attribute. -/
def circular : List Declaration :=
  [{ ident := "UserService",
     id := 1,
     attrs := [],
     fields := [⟨some "other_service",
      [⟨.list (.ident "inject") [.ident "component"]⟩], lazyOther⟩] },
   { ident := "OtherService",
     id := 2,
     attrs := [],
     fields := [⟨some "user_service",
      [⟨.list (.ident "inject") [.ident "component"]⟩], userService⟩] }]

end Sample

/-- The lazy field with `#[inject(component)]` is looked up as a component. -/
theorem lazy_field_looked_up :
    ¬ ∀ (E V C T : Type) (syn : InjectSyn E) (typeId : TypePath → TypeId) (server : String → ℕ)
      (call : E → ℕ) (inj : Injection V C) (app : AppBuilder V C T) (decls : List Declaration),
      AttributeOptional syn typeId server call inj app decls := by
  intro h
  have hoptional := h Unit ℕ Unit Unit Sample.injectSyn (fun _ => .concrete 0) (fun _ => 0)
    (fun _ => 0) Summer.Sample.injection Summer.Sample.registry Sample.circular
  have htype := hoptional.wrappers _ List.mem_cons_self _ List.mem_cons_self (.inr (.inl rfl)) _ rfl
    false
  exact computeType_of_attr rfl rfl false htype

end Summer.Macros
