/-
Which services `auto_inject_service` installs.

A service is installable when its configurations load and its mandatory components are
available, that is, present in the registry or given by an installable service, which gives
its own type and, under gRPC, the `RoutesBuilder`: the least set closed under installation.
Whatever the order of the registrars, the installable services are installed, each once and after
those it needs, and the call returns `Ok` exactly when every service is installable.
-/
import Summer.Inject.AutoInject

namespace Summer

variable {V C T : Type}

/-- In this order every service finds what it needs when its turn comes. -/
def InstallOrder (inj : Injection V C) (app : AppBuilder V C T) (order : List Service) : Prop :=
  ∀ pre s post, order = pre ++ s :: post →
    (∀ ty ∈ s.mandatory, app.hasComponent ty ∨ ∃ q ∈ pre, ty ∈ q.gives) ∧
      ConfigsLoad inj app.config s

/-- The least set of types that holds those in the registry and is closed under
installing a service. -/
inductive Available (inj : Injection V C) (app : AppBuilder V C T) (services : List Service) :
    TypeId → Prop
  | present {ty : TypeId} : app.hasComponent ty → Available inj app services ty
  | service {s : Service} {ty : TypeId} : s ∈ services →
      (∀ m ∈ s.mandatory, Available inj app services m) → ConfigsLoad inj app.config s →
      ty ∈ s.gives → Available inj app services ty

def Installable (inj : Injection V C) (app : AppBuilder V C T) (services : List Service)
    (s : Service) : Prop :=
  s ∈ services ∧ (∀ ty ∈ s.mandatory, Available inj app services ty) ∧ ConfigsLoad inj app.config s

/-! ## The same notions in terms of rules -/

section
variable {inj : Injection V C} {app : AppBuilder V C T}

theorem inr_not_mem_knows {l : List Service} {ty : TypeId} :
    Sum.inr ty ∉ (serviceRules inj app.config).knows (keys app) l := by
  rw [← keys_installAll]
  exact inr_not_mem_keys

theorem ready_knows_iff {l : List Service} {s : Service} :
    (serviceRules inj app.config).Ready ((serviceRules inj app.config).knows (keys app) l) s ↔
      (∀ ty ∈ s.mandatory, app.hasComponent ty ∨ ∃ q ∈ l, ty ∈ q.gives) ∧
        ConfigsLoad inj app.config s := by
  rw [service_ready_iff fun _ => inr_not_mem_knows]
  simp only [← keys_installAll, inl_mem_keys, hasComponent_installAll]

theorem fires_iff_installOrder {order : List Service} :
    (serviceRules inj app.config).Fires (keys app) order ↔ InstallOrder inj app order := by
  rw [Rules.fires_iff_split]
  simp only [InstallOrder, ready_knows_iff]

/-- Nothing gives a configuration that does not load. -/
theorem not_derives_inr {services : List Service} {ty : TypeId} :
    ¬ (serviceRules inj app.config).Derives (keys app) services (Sum.inr ty) := by
  intro h
  cases h with
  | known hmem => exact inr_not_mem_keys hmem
  | fire _ _ hgives => exact inr_not_mem_gives hgives

theorem derives_iff_available {services : List Service} {ty : TypeId} :
    (serviceRules inj app.config).Derives (keys app) services (Sum.inl ty) ↔
      Available inj app services ty := by
  constructor
  · intro h
    generalize hkey : Sum.inl ty = key at h
    induction h generalizing ty with
    | known hmem =>
        subst hkey
        exact .present (inl_mem_keys.mp hmem)
    | @fire s key hs hneeds hgives ih =>
        subst hkey
        refine .service hs (fun m hm => ih _ (mem_needs_inl.mpr hm) rfl) ?_
          (mem_serviceRules_gives.mp hgives)
        intro c hc
        by_contra hfails
        exact not_derives_inr (hneeds _ (mem_needs_inr.mpr ⟨hc, hfails⟩))
  · intro h
    induction h with
    | present hhas => exact .known (inl_mem_keys.mpr hhas)
    | @service s ty hs _ hconfigs hgives ih =>
        refine .fire hs ?_ (mem_serviceRules_gives.mpr hgives)
        intro key hkey
        cases key with
        | inl ty => exact ih ty (mem_needs_inl.mp hkey)
        | inr ty =>
            exact absurd (hconfigs ty (mem_needs_inr.mp hkey).1) (mem_needs_inr.mp hkey).2

theorem derivable_iff_installable {services : List Service} {s : Service} :
    (serviceRules inj app.config).Derivable (keys app) services s ↔
      Installable inj app services s := by
  refine and_congr_right fun hs => ?_
  constructor
  · intro h
    refine ⟨fun ty hty => derives_iff_available.mp (h _ (mem_needs_inl.mpr hty)), ?_⟩
    intro ty hty
    by_contra hfails
    exact not_derives_inr (h _ (mem_needs_inr.mpr ⟨hty, hfails⟩))
  · intro h key hkey
    cases key with
    | inl ty => exact derives_iff_available.mpr (h.1 ty (mem_needs_inl.mp hkey))
    | inr ty => exact absurd (h.2 ty (mem_needs_inr.mp hkey).1) (mem_needs_inr.mp hkey).2

end

/-! ## The result of the call -/

section
variable {inj : Injection V C} {app : AppBuilder V C T} {services : List Service}

theorem installable_perm {l : List Service} (hl : l.Perm services) {s : Service} :
    Installable inj app l s ↔ Installable inj app services s := by
  rw [← derivable_iff_installable, ← derivable_iff_installable]
  exact Rules.Derivable.congr hl

/-- Whatever a legal order installs is installable. -/
theorem InstallOrder.installable {order : List Service} (h : InstallOrder inj app order)
    (hsub : order ⊆ services) {s : Service} (hs : s ∈ order) : Installable inj app services s :=
  derivable_iff_installable.mp
    (Rules.derivable_of_fires _ (fires_iff_installOrder.mpr h) hsub s hs)

/-- What a call installs, and how it returns. -/
structure Installs (inj : Injection V C) (app : AppBuilder V C T) (services order : List Service)
    (out : Injected V C T) : Prop where
  legal : InstallOrder inj app order
  nodup : (order.map Service.ty).Nodup
  mem_iff : ∀ s, s ∈ order ↔ Installable inj app services s
  app_eq : out.app = installAll inj app order
  installed_eq : out.installed = installLog inj app order
  ok_iff : out.result = .ok () ↔ ∀ s ∈ services, Installable inj app services s
  err : ∀ e, out.result = .error e → ∃ s ∈ services, ¬ Installable inj app services s ∧
    (s.installService inj out.app).result = .error (.err e)

/-- The call installs the services that the rounds of rules fire, in that order. -/
theorem autoInjectService_installs {l : List Service} (hl : l.Perm services)
    (hnodup : (services.map Service.ty).Nodup)
    (hfree : ∀ s, Installable inj app services s → ¬ app.hasComponent s.ty) :
    ∃ out, autoInjectService inj app l = .ok out ∧
      Installs inj app services ((serviceRules inj app.config).rounds (keys app) l).1 out := by
  let R := serviceRules inj app.config
  have hperm := R.rounds_perm (keys app) l
  have hnodup' : (l.map Service.ty).Nodup := ((hl.map Service.ty).nodup_iff).mpr hnodup
  have hmem : ∀ s, s ∈ (R.rounds (keys app) l).1 ↔ Installable inj app services s := by
    intro s
    rw [R.mem_rounds_fired, derivable_iff_installable, installable_perm hl]
  have hleft : ∀ s, s ∈ (R.rounds (keys app) l).2 → s ∈ services ∧
      ¬ Installable inj app services s := by
    intro s hs
    have hsl : s ∈ l := hperm.subset (List.mem_append_right _ hs)
    refine ⟨hl.mem_iff.mp hsl, fun hinst => (R.mem_rounds_left hsl).mp hs ?_⟩
    exact derivable_iff_installable.mpr ((installable_perm hl).mpr hinst)
  obtain ⟨out, hout, hends⟩ := injectLoop_ok inj app.config (keys app) l app [] rfl rfl hnodup'
    fun s hs => hfree s ((hmem s).mp hs)
  refine ⟨out, hout, fires_iff_installOrder.mp (R.rounds_fires _ _), ?_, hmem, hends.app_eq,
    hends.installed_eq, ?_, ?_⟩
  · have hall := ((hperm.map Service.ty).nodup_iff).mpr hnodup'
    rw [List.map_append] at hall
    exact (List.nodup_append.mp hall).1
  · rw [hends.ok_iff]
    constructor
    · intro hnil s hs
      rw [hnil, List.append_nil] at hperm
      exact (hmem s).mp (hperm.mem_iff.mpr (hl.mem_iff.mpr hs))
    · intro hall
      exact List.eq_nil_iff_forall_not_mem.mpr fun s hs => (hleft s hs).2 (hall s (hleft s hs).1)
  · intro e he
    obtain ⟨s, hs, herr⟩ := hends.err e he
    exact ⟨s, (hleft s hs).1, (hleft s hs).2, herr⟩

theorem Installs.installed_map {order : List Service} {out : Injected V C T}
    (h : Installs inj app services order out) : out.installed.map Prod.fst = order := by
  rw [h.installed_eq, map_fst_installLog]

end

namespace Sample

def injection : Injection ℕ Unit where
  typeName := fun _ => "Component"
  getConfig := fun _ ty => if ty = .concrete 9 then .ok 9 else .error (.otherError "no config")
  call := fun func _ => func
  construct := fun _ fields => fields.length
  builder := 0
  addService := fun routes server service => routes + server + service + 1

/-- A service with a configuration and a function call, which comes last. -/
def databaseService : Service :=
  .new 1 none
    [{ fieldName := "created", ty := .funcCall 7 },
     { fieldName := "config", ty := .config (.concrete 9) }]

def userService : Service :=
  .new 2 none [{ fieldName := "db", ty := .component false (.concrete 1) }]

/-- A gRPC service. -/
def greeterService : Service :=
  .new 4 (some 0) [{ fieldName := "db", ty := .component false (.concrete 1) }]

/-- A service that looks at the gRPC servers. -/
def routesService : Service :=
  .new 5 none [{ fieldName := "routes", ty := .component false .routesBuilder }]

def registry : AppBuilder ℕ Unit Unit where
  pluginRegistry := .empty
  components := ∅
  config := ()
  schedulers := []
  shutdownHooks := []

end Sample

/-- For services of distinct types that are not in the registry, whatever their order. -/
theorem autoInjectService_spec (inj : Injection V C) (app : AppBuilder V C T)
    (services : List Service) (hnodup : (services.map Service.ty).Nodup)
    (hfree : ∀ s ∈ services, ¬ app.hasComponent s.ty) :
    ∃ out, autoInjectService inj app services = .ok out ∧
      (out.result = .ok () ↔ ∃ order, order.Perm services ∧ InstallOrder inj app order) ∧
      (out.result = .ok () → (out.installed.map Prod.fst).Perm services) ∧
      InstallOrder inj app (out.installed.map Prod.fst) ∧
      (out.installed.map Prod.fst).Nodup ∧
      (∀ s, s ∈ out.installed.map Prod.fst ↔ Installable inj app services s) ∧
      (∀ ty, out.app.hasComponent ty ↔
        app.hasComponent ty ∨ ∃ s, Installable inj app services s ∧ ty ∈ s.gives) ∧
      (∀ e, out.result = .error e → ∃ s ∈ services, ¬ Installable inj app services s ∧
        (s.installService inj out.app).result = .error (.err e)) ∧
      ∀ (a : AppBuilder V C T) (s : Service) (e : AppError),
        (s.installService inj a).result = .error (.err e) →
        (s.installService inj a).app = a ∧ (s.installService inj a).calls = [] := by
  obtain ⟨out, hout, h⟩ := @autoInjectService_installs _ _ _ inj app _ _
    (List.Perm.refl services) hnodup fun s hs => hfree s hs.1
  have hordered := List.Nodup.of_map _ h.nodup
  have hall : out.result = .ok () →
      (((serviceRules inj app.config).rounds (keys app) services).1).Perm services := by
    intro hok
    refine (List.perm_ext_iff_of_nodup hordered (List.Nodup.of_map _ hnodup)).mpr fun s => ?_
    exact (h.mem_iff s).trans ⟨And.left, h.ok_iff.mp hok s⟩
  refine ⟨out, hout, ?_, ?_, ?_, ?_, ?_, ?_, h.err, ?_⟩
  · constructor
    · intro hok
      exact ⟨_, hall hok, h.legal⟩
    · intro horder
      obtain ⟨order, hperm, hlegal⟩ := horder
      exact h.ok_iff.mpr fun s hs => hlegal.installable hperm.subset (hperm.mem_iff.mpr hs)
  · rw [h.installed_map]
    exact hall
  · rw [h.installed_map]
    exact h.legal
  · rw [h.installed_map]
    exact hordered
  · rw [h.installed_map]
    exact h.mem_iff
  · intro ty
    rw [h.app_eq, hasComponent_installAll]
    exact or_congr_right (exists_congr fun s => and_congr_left fun _ => h.mem_iff s)
  · intro a s e herr
    exact ⟨(Service.installService_err herr).1, (Service.installService_err herr).2.1⟩

/-- The service that looks at the gRPC servers comes first and is installed last. -/
theorem autoInjectService_spec_sample :
    ∃ out, autoInjectService Sample.injection Sample.registry
        [Sample.routesService, Sample.greeterService, Sample.userService,
          Sample.databaseService] = .ok out ∧
      out.result = .ok () ∧ out.app.hasComponent .routesBuilder := by
  let services :=
    [Sample.routesService, Sample.greeterService, Sample.userService, Sample.databaseService]
  obtain ⟨out, hout, hok, hperm, _, _, hinstalled, happ, _⟩ :=
    autoInjectService_spec Sample.injection Sample.registry services (by decide) (by decide)
  have hlegal : InstallOrder Sample.injection Sample.registry services.reverse := by
    refine fires_iff_installOrder.mp ⟨?_, ?_, ?_, ?_, trivial⟩
    all_goals decide
  have hresult := hok.mpr ⟨services.reverse, List.reverse_perm services, hlegal⟩
  have hgreeter : Sample.greeterService ∈ out.installed.map Prod.fst :=
    (hperm hresult).mem_iff.mpr (List.mem_cons_of_mem _ List.mem_cons_self)
  exact ⟨out, hout, hresult,
    (happ _).mpr (.inr ⟨Sample.greeterService, (hinstalled _).mp hgreeter, by decide⟩)⟩

end Summer
