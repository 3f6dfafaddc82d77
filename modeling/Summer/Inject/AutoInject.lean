/-
`auto_inject_service` (`summer/src/plugin/service.rs`): passes over the registrars that are
pending, until all services are installed or a pass installs none.

A service fires once its mandatory components are in the registry and its configurations
load, and it gives a component of its own type, and a gRPC service the `RoutesBuilder`, so a
pass over the registrars is a pass of rules (`injectPass_ok`) and the services installed are
the least set closed under installation (`autoInjectService_spec`).
-/
import Summer.Inject.Service
import Summer.Lib.Chaining

namespace Summer

variable {V C T : Type}

/-- The locals of the `while` loop in one pass. -/
structure Pass (V C T : Type) where
  app : AppBuilder V C T
  progressMade : Bool
  nextPending : List Service
  installed : List (Service × Fields V)

structure Injected (V C T : Type) where
  app : AppBuilder V C T
  installed : List (Service × Fields V)
  result : Except AppError Unit

/-- The body of the `for` loop. -/
def injectOne (inj : Injection V C) (r : Pass V C T) (registrar : Service) :
    Except Panic (Pass V C T) :=
  let attempt := registrar.installService inj r.app
  match attempt.result with
  | .ok fields =>
    .ok { app := attempt.app,
          progressMade := true,
          nextPending := r.nextPending,
          installed := r.installed ++ [(registrar, fields)] }
  | .error (.err _) =>
    .ok { r with app := attempt.app, nextPending := r.nextPending ++ [registrar] }
  | .error (.panic p) => .error p

def injectPass (inj : Injection V C) (app : AppBuilder V C T)
    (installed : List (Service × Fields V)) (pending : List Service) :
    Except Panic (Pass V C T) :=
  pending.foldlM (injectOne inj)
    { app := app, progressMade := false, nextPending := [], installed := installed }

/-- `return first.install_service(app)`. -/
def injectFirst (inj : Injection V C) (r : Pass V C T) (first : Service) :
    Except Panic (Injected V C T) :=
  let attempt := first.installService inj r.app
  match attempt.result with
  | .ok fields =>
    .ok { app := attempt.app, installed := r.installed ++ [(first, fields)], result := .ok () }
  | .error (.err e) =>
    .ok { app := attempt.app, installed := r.installed, result := .error e }
  | .error (.panic p) => .error p

/-- A registrar is installed, with progress, or stays pending. -/
theorem injectOne_length {inj : Injection V C} {r r' : Pass V C T} {s : Service}
    (h : injectOne inj r s = .ok r') :
    (r'.nextPending.length = r.nextPending.length ∧ r'.progressMade = true) ∨
      (r'.nextPending.length = r.nextPending.length + 1 ∧ r'.progressMade = r.progressMade) := by
  unfold injectOne at h
  cases hr : (s.installService inj r.app).result with
  | ok fields =>
      simp only [hr, Except.ok.injEq] at h
      subst h
      exact Or.inl ⟨rfl, rfl⟩
  | error a =>
      cases a with
      | panic p =>
          simp only [hr] at h
          cases h
      | err e =>
          simp only [hr, Except.ok.injEq] at h
          subst h
          exact Or.inr ⟨by simp, rfl⟩

theorem foldlM_injectOne_length {inj : Injection V C} {l : List Service} {r r' : Pass V C T}
    (h : l.foldlM (injectOne inj) r = .ok r') :
    r'.nextPending.length ≤ r.nextPending.length + l.length ∧
      (r'.progressMade = true → r.progressMade = true ∨
        r'.nextPending.length < r.nextPending.length + l.length) := by
  induction l generalizing r with
  | nil =>
      cases h
      exact ⟨Nat.le_refl _, Or.inl⟩
  | cons s rest ih =>
      rw [List.foldlM_cons, bind_ok] at h
      obtain ⟨r1, hone, hrest⟩ := h
      obtain ⟨hle, hprogress⟩ := ih hrest
      rw [List.length_cons]
      rcases injectOne_length hone with ⟨hlen, _⟩ | ⟨hlen, hsame⟩
      · exact ⟨by omega, fun _ => Or.inr (by omega)⟩
      · refine ⟨by omega, fun hp => ?_⟩
        rcases hprogress hp with hp | hlt
        · exact Or.inl (hsame ▸ hp)
        · exact Or.inr (by omega)

/-- The loop goes on with fewer registrars. -/
theorem injectPass_lt {inj : Injection V C} {app : AppBuilder V C T}
    {installed : List (Service × Fields V)} {pending : List Service} {r : Pass V C T}
    (hne : pending.isEmpty = false) (h : injectPass inj app installed pending = .ok r)
    (hgo : ¬ (r.progressMade = false ∧ r.nextPending.isEmpty = false)) :
    r.nextPending.length < pending.length := by
  have hpos : 0 < pending.length := by
    cases pending with
    | nil => cases hne
    | cons s rest => exact Nat.succ_pos _
  obtain ⟨_, hprogress⟩ := foldlM_injectOne_length h
  simp only [List.length_nil, Nat.zero_add, Bool.false_eq_true, false_or] at hprogress
  cases hp : r.progressMade with
  | true => exact hprogress hp
  | false =>
      have hnil : r.nextPending.isEmpty = true := by
        by_contra hn
        exact hgo ⟨hp, Bool.not_eq_true _ ▸ hn⟩
      rw [List.isEmpty_iff.mp hnil]
      exact hpos

def injectLoop (inj : Injection V C) (app : AppBuilder V C T)
    (installed : List (Service × Fields V)) (pending : List Service) :
    Except Panic (Injected V C T) :=
  match _hpending : pending.isEmpty with
  | true => .ok { app := app, installed := installed, result := .ok () }
  | false =>
    match _hpass : injectPass inj app installed pending with
    | .error p => .error p
    | .ok r =>
      if _hstop : r.progressMade = false ∧ r.nextPending.isEmpty = false then
        match r.nextPending with
        | first :: _ => injectFirst inj r first
        | [] => .ok { app := r.app, installed := r.installed, result := .ok () }
      else
        injectLoop inj r.app r.installed r.nextPending
termination_by pending.length
decreasing_by exact injectPass_lt _hpending _hpass _hstop

/-- The registrars in the order the inventory yields them. -/
def autoInjectService (inj : Injection V C) (app : AppBuilder V C T)
    (registrars : List Service) : Except Panic (Injected V C T) :=
  injectLoop inj app [] registrars

/-! ## Registrars as rules -/

/-- A component of the registry, or a configuration. -/
abbrev Key := TypeId ⊕ TypeId

def configFails (inj : Injection V C) (config : C) (ty : TypeId) : Bool :=
  match inj.getConfig config ty with
  | .ok _ => false
  | .error _ => true

/-- A service needs its mandatory components and those of its configurations that do not
load, which nothing gives. -/
def serviceRules (inj : Injection V C) (config : C) : Rules Service Key where
  needs := fun s => (s.mandatory.map Sum.inl ++
    (s.configs.filter (configFails inj config)).map Sum.inr).toFinset
  gives := fun s => (s.gives.map Sum.inl).toFinset

def keys (app : AppBuilder V C T) : Finset Key := (app.components.keys.map Sum.inl).toFinset

theorem inl_mem_keys {app : AppBuilder V C T} {ty : TypeId} :
    Sum.inl ty ∈ keys app ↔ app.hasComponent ty := by
  simp only [keys, List.mem_toFinset, List.mem_map, Sum.inl.injEq, exists_eq_right,
    AList.mem_keys, AppBuilder.hasComponent]

theorem inr_not_mem_keys {app : AppBuilder V C T} {ty : TypeId} : Sum.inr ty ∉ keys app := by
  simp only [keys, List.mem_toFinset, List.mem_map, reduceCtorEq, and_false, exists_false,
    not_false_eq_true]

theorem configFails_iff {inj : Injection V C} {config : C} {ty : TypeId} :
    configFails inj config ty = true ↔ ¬ ∃ c, inj.getConfig config ty = .ok c := by
  unfold configFails
  cases inj.getConfig config ty <;> simp

theorem mem_needs_inl {inj : Injection V C} {config : C} {s : Service} {ty : TypeId} :
    Sum.inl ty ∈ (serviceRules inj config).needs s ↔ ty ∈ s.mandatory := by
  simp only [serviceRules, List.mem_toFinset, List.mem_append, List.mem_map, Sum.inl.injEq,
    exists_eq_right, reduceCtorEq, and_false, exists_false, or_false]

theorem mem_needs_inr {inj : Injection V C} {config : C} {s : Service} {ty : TypeId} :
    Sum.inr ty ∈ (serviceRules inj config).needs s ↔
      ty ∈ s.configs ∧ ¬ ∃ c, inj.getConfig config ty = .ok c := by
  simp only [serviceRules, List.mem_toFinset, List.mem_append, List.mem_map, Sum.inr.injEq,
    exists_eq_right, reduceCtorEq, and_false, exists_false, false_or, List.mem_filter,
    configFails_iff]

theorem mem_serviceRules_gives {inj : Injection V C} {config : C} {s : Service} {ty : TypeId} :
    Sum.inl ty ∈ (serviceRules inj config).gives s ↔ ty ∈ s.gives := by
  simp only [serviceRules, List.mem_toFinset, List.mem_map, Sum.inl.injEq, exists_eq_right]

theorem inr_not_mem_gives {inj : Injection V C} {config : C} {s : Service} {ty : TypeId} :
    Sum.inr ty ∉ (serviceRules inj config).gives s := by
  simp only [serviceRules, List.mem_toFinset, List.mem_map, reduceCtorEq, and_false,
    exists_false, not_false_eq_true]

/-- The configurations of the service load. -/
def ConfigsLoad (inj : Injection V C) (config : C) (s : Service) : Prop :=
  ∀ ty ∈ s.configs, ∃ c, inj.getConfig config ty = .ok c

/-- Whether a service is ready shows in the component keys alone. -/
theorem service_ready_iff {inj : Injection V C} {config : C} {known : Finset Key} {s : Service}
    (hknown : ∀ ty, Sum.inr ty ∉ known) :
    (serviceRules inj config).Ready known s ↔
      (∀ ty ∈ s.mandatory, Sum.inl ty ∈ known) ∧ ConfigsLoad inj config s := by
  constructor
  · intro h
    refine ⟨fun ty hty => h (mem_needs_inl.mpr hty), fun ty hty => ?_⟩
    by_contra hfails
    exact hknown ty (h (mem_needs_inr.mpr ⟨hty, hfails⟩))
  · intro h key hkey
    cases key with
    | inl ty => exact h.1 ty (mem_needs_inl.mp hkey)
    | inr ty => exact absurd (h.2 ty (mem_needs_inr.mp hkey).1) (mem_needs_inr.mp hkey).2

theorem ready_iff_build {inj : Injection V C} {app : AppBuilder V C T} {s : Service} :
    (serviceRules inj app.config).Ready (keys app) s ↔
      ∃ fields, (s.build inj app).2 = .ok fields := by
  rw [service_ready_iff fun _ => inr_not_mem_keys, Service.build_ok_iff]
  simp only [ConfigsLoad, Service.mandatory, Service.configs, List.mem_flatMap, Service.Found,
    inl_mem_keys]
  constructor
  · intro h f hf
    exact ⟨fun ty hty => h.1 ty ⟨f, hf, hty⟩, fun ty hty => h.2 ty ⟨f, hf, hty⟩⟩
  · intro h
    constructor
    · intro ty hty
      obtain ⟨f, hf, hty⟩ := hty
      exact (h f hf).1 ty hty
    · intro ty hty
      obtain ⟨f, hf, hty⟩ := hty
      exact (h f hf).2 ty hty

/-! ## Installing a list of services -/

/-- The fields a build injects if it succeeds. -/
def fieldsOf (inj : Injection V C) (app : AppBuilder V C T) (s : Service) : Fields V :=
  match (s.build inj app).2 with
  | .ok fields => fields
  | .error _ => []

def install (inj : Injection V C) (app : AppBuilder V C T) (s : Service) : AppBuilder V C T :=
  s.register inj app (inj.construct s.ty (fieldsOf inj app s))

def installAll (inj : Injection V C) (app : AppBuilder V C T) (l : List Service) :
    AppBuilder V C T :=
  l.foldl (install inj) app

/-- The services of a list with the fields they are installed with. -/
def installLog (inj : Injection V C) : AppBuilder V C T → List Service →
    List (Service × Fields V)
  | _, [] => []
  | app, s :: rest => (s, fieldsOf inj app s) :: installLog inj (install inj app s) rest

theorem hasComponent_install {inj : Injection V C} {app : AppBuilder V C T} {s : Service}
    {ty : TypeId} : (install inj app s).hasComponent ty ↔ ty ∈ s.gives ∨ app.hasComponent ty :=
  Service.hasComponent_register

@[simp] theorem config_install {inj : Injection V C} {app : AppBuilder V C T} {s : Service} :
    (install inj app s).config = app.config :=
  Service.config_register

theorem keys_install {inj : Injection V C} {app : AppBuilder V C T} {s : Service} (config : C) :
    keys (install inj app s) = (serviceRules inj config).learn (keys app) s := by
  ext key
  rw [Rules.learn, Finset.mem_union]
  cases key with
  | inl ty =>
      simp only [inl_mem_keys, hasComponent_install, mem_serviceRules_gives, or_comm]
  | inr ty => simp only [inr_not_mem_keys, inr_not_mem_gives, or_self]

theorem keys_installAll {inj : Injection V C} {app : AppBuilder V C T} (config : C)
    (l : List Service) :
    keys (installAll inj app l) = (serviceRules inj config).knows (keys app) l := by
  induction l generalizing app with
  | nil => rfl
  | cons s rest ih =>
      rw [Rules.knows_cons, ← keys_install config]
      exact ih

theorem config_installAll (inj : Injection V C) (app : AppBuilder V C T) (l : List Service) :
    (installAll inj app l).config = app.config := by
  induction l generalizing app with
  | nil => rfl
  | cons s rest ih => exact (ih (install inj app s)).trans config_install

theorem hasComponent_installAll {inj : Injection V C} {app : AppBuilder V C T}
    {l : List Service} {ty : TypeId} :
    (installAll inj app l).hasComponent ty ↔ app.hasComponent ty ∨ ∃ s ∈ l, ty ∈ s.gives := by
  rw [← inl_mem_keys, keys_installAll app.config, Rules.mem_knows, inl_mem_keys]
  simp only [mem_serviceRules_gives]

theorem installAll_append (inj : Injection V C) (app : AppBuilder V C T) (l m : List Service) :
    installAll inj app (l ++ m) = installAll inj (installAll inj app l) m :=
  List.foldl_append

theorem installLog_append (inj : Injection V C) (app : AppBuilder V C T) (l m : List Service) :
    installLog inj app (l ++ m) =
      installLog inj app l ++ installLog inj (installAll inj app l) m := by
  induction l generalizing app with
  | nil => rfl
  | cons s rest ih =>
      simp only [List.cons_append, installLog, ih]
      rfl

theorem map_fst_installLog (inj : Injection V C) (app : AppBuilder V C T) (l : List Service) :
    (installLog inj app l).map Prod.fst = l := by
  induction l generalizing app with
  | nil => rfl
  | cons s rest ih => simp only [installLog, List.map_cons, ih]

/-! ## One pass -/

theorem injectOne_install {inj : Injection V C} {r : Pass V C T} {s : Service}
    (hready : (serviceRules inj r.app.config).Ready (keys r.app) s)
    (hfree : ¬ r.app.hasComponent s.ty) :
    injectOne inj r s =
      .ok { app := install inj r.app s,
            progressMade := true,
            nextPending := r.nextPending,
            installed := r.installed ++ [(s, fieldsOf inj r.app s)] } := by
  obtain ⟨fields, hbuild⟩ := ready_iff_build.mp hready
  have hfields : fieldsOf inj r.app s = fields := by rw [fieldsOf, hbuild]
  rw [injectOne, Service.installService_ok hbuild hfree, install, hfields]

theorem injectOne_wait {inj : Injection V C} {r : Pass V C T} {s : Service}
    (hwait : ¬ (serviceRules inj r.app.config).Ready (keys r.app) s) :
    injectOne inj r s = .ok { r with nextPending := r.nextPending ++ [s] } := by
  rw [ready_iff_build] at hwait
  cases hbuild : (s.build inj r.app).2 with
  | ok fields => exact absurd ⟨fields, hbuild⟩ hwait
  | error e => rw [injectOne, Service.installService_build_error hbuild]

theorem injectOne_taken {inj : Injection V C} {r : Pass V C T} {s : Service}
    (hready : (serviceRules inj r.app.config).Ready (keys r.app) s)
    (htaken : r.app.hasComponent s.ty) : ∃ p, injectOne inj r s = .error p := by
  obtain ⟨fields, hbuild⟩ := ready_iff_build.mp hready
  refine ⟨.componentAdded (inj.typeName s.ty), ?_⟩
  unfold injectOne
  simp only [Service.installService_panic hbuild htaken]

/-- A pass whose services find their types free installs what the rules fire and keeps
what they leave. -/
theorem injectPass_ok {inj : Injection V C} {l : List Service} (r : Pass V C T)
    (hnodup : (l.map Service.ty).Nodup)
    (hfree : ∀ s ∈ ((serviceRules inj r.app.config).pass (keys r.app) l).1,
      ¬ r.app.hasComponent s.ty) :
    l.foldlM (injectOne inj) r =
      .ok { app := installAll inj r.app
              ((serviceRules inj r.app.config).pass (keys r.app) l).1,
            progressMade := r.progressMade ||
              !((serviceRules inj r.app.config).pass (keys r.app) l).1.isEmpty,
            nextPending := r.nextPending ++
              ((serviceRules inj r.app.config).pass (keys r.app) l).2,
            installed := r.installed ++ installLog inj r.app
              ((serviceRules inj r.app.config).pass (keys r.app) l).1 } := by
  induction l generalizing r with
  | nil =>
      simp only [List.foldlM_nil, Rules.pass, installLog, List.isEmpty_nil, Bool.not_true,
        Bool.or_false, List.append_nil]
      rfl
  | cons s rest ih =>
      have hnodup' := List.nodup_cons.mp hnodup
      by_cases hready : (serviceRules inj r.app.config).Ready (keys r.app) s
      · simp only [Rules.pass, if_pos hready, List.foldlM_cons] at hfree ⊢
        rw [injectOne_install hready (hfree s List.mem_cons_self)]
        refine (ih _ hnodup'.2 ?_).trans ?_
        · intro q hq hhas
          simp only [config_install, keys_install r.app.config] at hq hhas hfree
          rcases hasComponent_install.mp hhas with hty | hhas
          · have hmem : q ∈ rest :=
              ((serviceRules inj r.app.config).pass_perm _ rest).subset
                (List.mem_append_left _ hq)
            rw [Service.ty_mem_gives_iff] at hty
            exact hnodup'.1 (hty ▸ List.mem_map_of_mem hmem)
          · exact hfree q (List.mem_cons_of_mem _ hq) hhas
        · simp only [config_install, keys_install r.app.config, Bool.true_or,
            List.isEmpty_cons, Bool.not_false, Bool.or_true, installLog, List.append_assoc,
            List.singleton_append]
          rfl
      · simp only [Rules.pass, if_neg hready, List.foldlM_cons] at hfree ⊢
        rw [injectOne_wait hready]
        refine (ih { r with nextPending := r.nextPending ++ [s] } hnodup'.2 hfree).trans ?_
        simp only [List.append_assoc, List.singleton_append]

/-- A pass that fires a service whose type is taken panics. -/
theorem injectPass_taken {inj : Injection V C} {l : List Service} (r : Pass V C T)
    (htaken : ∃ s ∈ ((serviceRules inj r.app.config).pass (keys r.app) l).1,
      r.app.hasComponent s.ty) : ∃ p, l.foldlM (injectOne inj) r = .error p := by
  induction l generalizing r with
  | nil =>
      obtain ⟨s, hs, _⟩ := htaken
      exact absurd hs List.not_mem_nil
  | cons s rest ih =>
      by_cases hready : (serviceRules inj r.app.config).Ready (keys r.app) s
      · by_cases hs : r.app.hasComponent s.ty
        · obtain ⟨p, hp⟩ := injectOne_taken hready hs
          exact ⟨p, by rw [List.foldlM_cons, hp]; rfl⟩
        · rw [List.foldlM_cons, injectOne_install hready hs]
          refine ih _ ?_
          simp only [Rules.pass, if_pos hready] at htaken
          obtain ⟨q, hq, hhas⟩ := htaken
          rcases List.mem_cons.mp hq with rfl | hq
          · exact absurd hhas hs
          · refine ⟨q, ?_, hasComponent_install.mpr (Or.inr hhas)⟩
            simp only [config_install, keys_install r.app.config]
            exact hq
      · rw [List.foldlM_cons, injectOne_wait hready]
        simp only [Rules.pass, if_neg hready] at htaken
        exact ih { r with nextPending := r.nextPending ++ [s] } htaken

/-! ## All passes -/

theorem injectLoop_nil (inj : Injection V C) (app : AppBuilder V C T)
    (installed : List (Service × Fields V)) :
    injectLoop inj app installed [] =
      .ok { app := app, installed := installed, result := .ok () } := by
  unfold injectLoop
  rfl

theorem injectLoop_cons (inj : Injection V C) (app : AppBuilder V C T)
    (installed : List (Service × Fields V)) {pending : List Service} (hne : pending ≠ []) :
    injectLoop inj app installed pending =
      (injectPass inj app installed pending).bind fun r =>
        if r.progressMade = false ∧ r.nextPending.isEmpty = false then
          match r.nextPending with
          | first :: _ => injectFirst inj r first
          | [] => .ok { app := r.app, installed := r.installed, result := .ok () }
        else injectLoop inj r.app r.installed r.nextPending := by
  have hfalse : pending.isEmpty = false := by
    cases pending with
    | nil => exact absurd rfl hne
    | cons s rest => rfl
  rw [injectLoop]
  split
  · next h =>
      rw [hfalse] at h
      cases h
  · cases injectPass inj app installed pending with
    | error p => rfl
    | ok r =>
        by_cases hstop : r.progressMade = false ∧ r.nextPending.isEmpty = false
        · simp only [Except.bind, dif_pos hstop, if_pos hstop]
        · simp only [Except.bind, dif_neg hstop, if_neg hstop]

theorem injectFirst_waiting {inj : Injection V C} {r : Pass V C T} {s : Service}
    (hwait : ¬ (serviceRules inj r.app.config).Ready (keys r.app) s) :
    ∃ e, (s.installService inj r.app).result = .error (.err e) ∧
      injectFirst inj r s =
        .ok { app := r.app, installed := r.installed, result := .error e } := by
  rw [ready_iff_build] at hwait
  cases hbuild : (s.build inj r.app).2 with
  | ok fields => exact absurd ⟨fields, hbuild⟩ hwait
  | error e =>
      refine ⟨e, ?_, ?_⟩
      · rw [Service.installService_build_error hbuild]
      · rw [injectFirst, Service.installService_build_error hbuild]

/-- A pass that fires nothing ends the loop with the error of the first registrar. -/
theorem injectLoop_idle {inj : Injection V C} {app : AppBuilder V C T}
    {before : List (Service × Fields V)} {s : Service} {rest : List Service}
    (hnodup : ((s :: rest).map Service.ty).Nodup)
    (hidle : ((serviceRules inj app.config).pass (keys app) (s :: rest)).1 = []) :
    ∃ e, (s.installService inj app).result = .error (.err e) ∧
      injectLoop inj app before (s :: rest) =
        .ok { app := app, installed := before, result := .error e } := by
  let r : Pass V C T :=
    { app := app, progressMade := false, nextPending := [], installed := before }
  obtain ⟨hleft, hwait⟩ := Rules.pass_idle _ hidle
  have hfree : ∀ q ∈ ((serviceRules inj r.app.config).pass (keys r.app) (s :: rest)).1,
      ¬ r.app.hasComponent q.ty := by
    intro q hq
    rw [hidle] at hq
    exact absurd hq List.not_mem_nil
  obtain ⟨e, herr, hfirst⟩ := @injectFirst_waiting V C T inj
    { r with nextPending := s :: rest } s (hwait s List.mem_cons_self)
  refine ⟨e, herr, ?_⟩
  rw [injectLoop_cons inj app before (List.cons_ne_nil s rest), injectPass,
    injectPass_ok r hnodup hfree]
  simp only [r, hidle, hleft, Except.bind, installAll, List.foldl_nil, installLog,
    List.append_nil, List.nil_append, List.isEmpty_nil, Bool.not_true, Bool.or_false,
    List.isEmpty_cons, and_self, if_true]
  exact hfirst

theorem injectLoop_step {inj : Injection V C} {app : AppBuilder V C T}
    {before : List (Service × Fields V)} {pending : List Service}
    (hnodup : (pending.map Service.ty).Nodup)
    (hfires : ((serviceRules inj app.config).pass (keys app) pending).1 ≠ [])
    (hfree : ∀ s ∈ ((serviceRules inj app.config).pass (keys app) pending).1,
      ¬ app.hasComponent s.ty) :
    injectLoop inj app before pending =
      injectLoop inj
        (installAll inj app ((serviceRules inj app.config).pass (keys app) pending).1)
        (before ++ installLog inj app ((serviceRules inj app.config).pass (keys app) pending).1)
        ((serviceRules inj app.config).pass (keys app) pending).2 := by
  let r : Pass V C T :=
    { app := app, progressMade := false, nextPending := [], installed := before }
  have hne : pending ≠ [] := by
    intro hnil
    subst hnil
    exact hfires rfl
  have hprogress :
      (!((serviceRules inj app.config).pass (keys app) pending).1.isEmpty) = true := by
    simpa [List.isEmpty_iff] using hfires
  rw [injectLoop_cons inj app before hne, injectPass, injectPass_ok r hnodup hfree]
  simp only [r, Except.bind, Bool.false_or, hprogress, Bool.true_eq_false, false_and, if_false,
    List.nil_append]

theorem injectLoop_taken {inj : Injection V C} {app : AppBuilder V C T}
    {before : List (Service × Fields V)} {pending : List Service}
    (htaken : ∃ s ∈ ((serviceRules inj app.config).pass (keys app) pending).1,
      app.hasComponent s.ty) : ∃ p, injectLoop inj app before pending = .error p := by
  have hne : pending ≠ [] := by
    intro hnil
    subst hnil
    obtain ⟨s, hs, _⟩ := htaken
    exact absurd hs List.not_mem_nil
  obtain ⟨p, hp⟩ := injectPass_taken
    { app := app, progressMade := false, nextPending := [], installed := before } htaken
  exact ⟨p, by rw [injectLoop_cons inj app before hne, injectPass, hp]; rfl⟩

/-- How the loop ends when no fired service finds its type taken: the services the rounds
fire are installed, in that order, and a service that is left is tried again for its
error. -/
structure EndsWith (inj : Injection V C) (app : AppBuilder V C T)
    (before : List (Service × Fields V)) (fired left : List Service) (out : Injected V C T) :
    Prop where
  app_eq : out.app = installAll inj app fired
  installed_eq : out.installed = before ++ installLog inj app fired
  ok_iff : out.result = .ok () ↔ left = []
  err : ∀ e, out.result = .error e →
    ∃ s ∈ left, (s.installService inj out.app).result = .error (.err e)

theorem injectLoop_ok (inj : Injection V C) (config : C) (known : Finset Key)
    (pending : List Service) (app : AppBuilder V C T) (before : List (Service × Fields V))
    (hconfig : app.config = config) (hknown : keys app = known)
    (hnodup : (pending.map Service.ty).Nodup)
    (hfree : ∀ s ∈ ((serviceRules inj config).rounds known pending).1,
      ¬ app.hasComponent s.ty) :
    ∃ out, injectLoop inj app before pending = .ok out ∧
      EndsWith inj app before ((serviceRules inj config).rounds known pending).1
        ((serviceRules inj config).rounds known pending).2 out := by
  induction known, pending using (serviceRules inj config).rounds_induction
    generalizing app before with
  | idle known pending hidle =>
      subst hconfig hknown
      rw [Rules.rounds_idle _ hidle]
      cases pending with
      | nil =>
          refine ⟨_, injectLoop_nil inj app before, rfl, (List.append_nil _).symm, by simp, ?_⟩
          intro e he
          cases he
      | cons s rest =>
          obtain ⟨e, herr, hloop⟩ := injectLoop_idle hnodup hidle
          refine ⟨_, hloop, rfl, (List.append_nil _).symm, by simp, ?_⟩
          intro e' he'
          simp only [Except.error.injEq] at he'
          exact ⟨s, List.mem_cons_self, he' ▸ herr⟩
  | step known pending hfires ih =>
      subst hconfig hknown
      rw [Rules.rounds_step _ hfires] at hfree ⊢
      have hfirst : ∀ s ∈ ((serviceRules inj app.config).pass (keys app) pending).1,
          ¬ app.hasComponent s.ty := fun s hs => hfree s (List.mem_append_left _ hs)
      have hperm := ((serviceRules inj app.config).pass_perm (keys app) pending).map Service.ty
      rw [List.map_append] at hperm
      have hsplit := List.nodup_append.mp (hperm.nodup_iff.mpr hnodup)
      obtain ⟨out, hloop, hends⟩ := ih
        (installAll inj app ((serviceRules inj app.config).pass (keys app) pending).1)
        (before ++ installLog inj app ((serviceRules inj app.config).pass (keys app) pending).1)
        (config_installAll inj app _) (keys_installAll app.config _) hsplit.2.1 (by
          intro s hs hhas
          rcases hasComponent_installAll.mp hhas with hhas | ⟨q, hq, hty⟩
          · exact hfree s (List.mem_append_right _ hs) hhas
          · have hs' : s ∈ ((serviceRules inj app.config).pass (keys app) pending).2 :=
              ((serviceRules inj app.config).rounds_perm _ _).subset (List.mem_append_left _ hs)
            exact hsplit.2.2 q.ty (List.mem_map_of_mem hq) s.ty (List.mem_map_of_mem hs')
              (Service.ty_mem_gives_iff.mp hty))
      refine ⟨out, (injectLoop_step hnodup hfires hfirst).trans hloop, ?_, ?_, hends.ok_iff,
        hends.err⟩
      · rw [hends.app_eq, installAll_append]
      · rw [hends.installed_eq, installLog_append, List.append_assoc]

/-- A fired service whose type is taken makes the loop panic. -/
theorem injectLoop_panics (inj : Injection V C) (config : C) (known : Finset Key)
    (pending : List Service) (app : AppBuilder V C T) (before : List (Service × Fields V))
    (hconfig : app.config = config) (hknown : keys app = known)
    (hnodup : (pending.map Service.ty).Nodup)
    (htaken : ∃ s ∈ ((serviceRules inj config).rounds known pending).1,
      app.hasComponent s.ty) : ∃ p, injectLoop inj app before pending = .error p := by
  induction known, pending using (serviceRules inj config).rounds_induction
    generalizing app before with
  | idle known pending hidle =>
      rw [Rules.rounds_idle _ hidle] at htaken
      obtain ⟨s, hs, _⟩ := htaken
      exact absurd hs List.not_mem_nil
  | step known pending hfires ih =>
      subst hconfig hknown
      by_cases hfirst : ∃ s ∈ ((serviceRules inj app.config).pass (keys app) pending).1,
          app.hasComponent s.ty
      · exact injectLoop_taken hfirst
      · simp only [not_exists, not_and] at hfirst
        rw [injectLoop_step hnodup hfires hfirst]
        rw [Rules.rounds_step _ hfires] at htaken
        obtain ⟨s, hs, hhas⟩ := htaken
        rcases List.mem_append.mp hs with hs | hs
        · exact absurd hhas (hfirst s hs)
        · have hperm :=
            ((serviceRules inj app.config).pass_perm (keys app) pending).map Service.ty
          rw [List.map_append] at hperm
          exact ih _ _ (config_installAll inj app _) (keys_installAll app.config _)
            (List.nodup_append.mp (hperm.nodup_iff.mpr hnodup)).2.1
            ⟨s, hs, hasComponent_installAll.mpr (Or.inl hhas)⟩

/-! ## The components of the installed services -/

/-- Each installed service is in the registry as it was built. -/
def Recorded (inj : Injection V C) (app : AppBuilder V C T)
    (installed : List (Service × Fields V)) : Prop :=
  ∀ x ∈ installed, app.components.lookup x.1.ty = some (inj.construct x.1.ty x.2)

theorem Recorded.snoc {inj : Injection V C} {app : AppBuilder V C T}
    {installed : List (Service × Fields V)} (h : Recorded inj app installed) {s : Service}
    {fields : Fields V} (hok : (s.installService inj app).result = .ok fields) :
    Recorded inj (s.installService inj app).app (installed ++ [(s, fields)]) := by
  cases hbuild : (s.build inj app).2 with
  | error e =>
      rw [Service.installService_build_error hbuild] at hok
      cases hok
  | ok fields' =>
      by_cases htaken : app.hasComponent s.ty
      · rw [Service.installService_panic hbuild htaken] at hok
        cases hok
      · rw [Service.installService_ok hbuild htaken] at hok ⊢
        cases hok
        intro x hx
        rcases List.mem_append.mp hx with hx | hx
        · have hne : x.1.ty ≠ s.ty := by
            intro heq
            have hsome := h x hx
            rw [heq, AList.lookup_eq_none.mpr htaken] at hsome
            cases hsome
          have hgives : x.1.ty ∉ s.gives := fun hmem =>
            hne (Service.ty_mem_gives_iff.mp hmem).symm
          exact (Service.getComponent_register_ne hgives).trans (h x hx)
        · rw [List.mem_singleton.mp hx]
          exact Service.getComponent_register_self

theorem Recorded.of_err {inj : Injection V C} {app : AppBuilder V C T}
    {installed : List (Service × Fields V)} (h : Recorded inj app installed) {s : Service}
    {e : AppError} (herr : (s.installService inj app).result = .error (.err e)) :
    Recorded inj (s.installService inj app).app installed := by
  rw [(Service.installService_err herr).1]
  exact h

theorem injectOne_recorded {inj : Injection V C} {r r' : Pass V C T} {s : Service}
    (h : injectOne inj r s = .ok r') (hr : Recorded inj r.app r.installed) :
    Recorded inj r'.app r'.installed ∧
      (∀ x ∈ r.installed, x ∈ r'.installed) ∧ (∀ q ∈ r.nextPending, q ∈ r'.nextPending) ∧
      (s ∈ r'.nextPending ∨ ∃ fields, (s, fields) ∈ r'.installed) := by
  unfold injectOne at h
  cases hresult : (s.installService inj r.app).result with
  | ok fields =>
      simp only [hresult, Except.ok.injEq] at h
      subst h
      exact ⟨hr.snoc hresult, fun x hx => List.mem_append_left _ hx, fun q hq => hq,
        Or.inr ⟨fields, List.mem_append_right _ (List.mem_singleton_self _)⟩⟩
  | error a =>
      cases a with
      | panic p =>
          simp only [hresult] at h
          cases h
      | err e =>
          simp only [hresult, Except.ok.injEq] at h
          subst h
          exact ⟨hr.of_err hresult, fun x hx => hx, fun q hq => List.mem_append_left _ hq,
            Or.inl (List.mem_append_right _ (List.mem_singleton_self _))⟩

theorem foldlM_injectOne_recorded {inj : Injection V C} {l : List Service} {r r' : Pass V C T}
    (h : l.foldlM (injectOne inj) r = .ok r') (hr : Recorded inj r.app r.installed) :
    Recorded inj r'.app r'.installed ∧
      (∀ x ∈ r.installed, x ∈ r'.installed) ∧ (∀ q ∈ r.nextPending, q ∈ r'.nextPending) ∧
      ∀ s ∈ l, s ∈ r'.nextPending ∨ ∃ fields, (s, fields) ∈ r'.installed := by
  induction l generalizing r with
  | nil =>
      cases h
      exact ⟨hr, fun x hx => hx, fun q hq => hq, fun s hs => absurd hs List.not_mem_nil⟩
  | cons s rest ih =>
      rw [List.foldlM_cons, bind_ok] at h
      obtain ⟨r1, hone, hrest⟩ := h
      obtain ⟨hr1, hinstalled, hpending, hs⟩ := injectOne_recorded hone hr
      obtain ⟨hr', hinstalled', hpending', hall⟩ := ih hrest hr1
      refine ⟨hr', fun x hx => hinstalled' x (hinstalled x hx),
        fun q hq => hpending' q (hpending q hq), fun q hq => ?_⟩
      rcases List.mem_cons.mp hq with rfl | hq
      · rcases hs with hs | ⟨fields, hs⟩
        · exact Or.inl (hpending' q hs)
        · exact Or.inr ⟨fields, hinstalled' _ hs⟩
      · exact hall q hq

/-- A pass without progress has left the registry and found an error for every service. -/
theorem foldlM_injectOne_idle {inj : Injection V C} {l : List Service} {r r' : Pass V C T}
    (h : l.foldlM (injectOne inj) r = .ok r') (hidle : r'.progressMade = false) :
    r.progressMade = false ∧ r'.app = r.app ∧ r'.nextPending = r.nextPending ++ l ∧
      ∀ s ∈ l, ∃ e, (s.installService inj r.app).result = .error (.err e) := by
  induction l generalizing r with
  | nil =>
      cases h
      exact ⟨hidle, rfl, (List.append_nil _).symm, fun s hs => absurd hs List.not_mem_nil⟩
  | cons s rest ih =>
      rw [List.foldlM_cons, bind_ok] at h
      obtain ⟨r1, hone, hrest⟩ := h
      obtain ⟨hidle1, happ, hpending, hall⟩ := ih hrest
      unfold injectOne at hone
      cases hresult : (s.installService inj r.app).result with
      | ok fields =>
          simp only [hresult, Except.ok.injEq] at hone
          subst hone
          cases hidle1
      | error a =>
          cases a with
          | panic p =>
              simp only [hresult] at hone
              cases hone
          | err e =>
              simp only [hresult, Except.ok.injEq] at hone
              subst hone
              have hsame := (Service.installService_err hresult).1
              simp only [hsame] at happ hall
              refine ⟨hidle1, happ, ?_, fun q hq => ?_⟩
              · rw [hpending, List.append_assoc, List.singleton_append]
              · rcases List.mem_cons.mp hq with rfl | hq
                · exact ⟨e, hresult⟩
                · exact hall q hq

/-- When the call returns `Ok`, every service is installed and in the registry as it was built. -/
theorem injectLoop_recorded {inj : Injection V C} {app : AppBuilder V C T}
    {before : List (Service × Fields V)} {pending : List Service} {out : Injected V C T}
    (h : injectLoop inj app before pending = .ok out) (hbefore : Recorded inj app before) :
    Recorded inj out.app out.installed ∧ (∀ x ∈ before, x ∈ out.installed) ∧
      (out.result = .ok () → ∀ s ∈ pending, ∃ fields, (s, fields) ∈ out.installed) := by
  induction hn : pending.length using Nat.strong_induction_on
    generalizing app before pending with
  | _ n ih =>
    by_cases hnil : pending = []
    · subst hnil
      rw [injectLoop_nil] at h
      cases h
      exact ⟨hbefore, fun x hx => hx, fun _ s hs => absurd hs List.not_mem_nil⟩
    · rw [injectLoop_cons inj app before hnil] at h
      cases hpass : injectPass inj app before pending with
      | error p =>
          rw [hpass] at h
          cases h
      | ok r =>
          rw [hpass] at h
          change (if _ then _ else _) = _ at h
          obtain ⟨hr, hinstalled, _, hall⟩ := foldlM_injectOne_recorded hpass hbefore
          by_cases hstop : r.progressMade = false ∧ r.nextPending.isEmpty = false
          · rw [if_pos hstop] at h
            cases hnext : r.nextPending with
            | nil =>
                rw [hnext] at hstop
                cases hstop.2
            | cons first rest =>
                -- the first service is tried again with the registry it just failed with
                obtain ⟨_, happ, hpending, herr⟩ := foldlM_injectOne_idle hpass hstop.1
                have hfirst : first ∈ pending := by
                  rw [← List.nil_append pending, ← hpending, hnext]
                  exact List.mem_cons_self
                obtain ⟨e, he⟩ := herr first hfirst
                simp only [hnext, injectFirst, happ, he, Except.ok.injEq] at h
                subst h
                refine ⟨?_, hinstalled, fun hok => nomatch hok⟩
                rw [happ] at hr
                exact hr.of_err he
          · rw [if_neg hstop] at h
            have hlt := injectPass_lt (by
              cases pending with
              | nil => exact absurd rfl hnil
              | cons s rest => rfl) hpass hstop
            obtain ⟨hout, hbefore', hall'⟩ := ih _ (hn ▸ hlt) h hr rfl
            refine ⟨hout, fun x hx => hbefore' x (hinstalled x hx), fun hok s hs => ?_⟩
            rcases hall s hs with hs | ⟨fields, hs⟩
            · exact hall' hok s hs
            · exact ⟨fields, hbefore' _ hs⟩

/-! ## What the call keeps -/

section
variable {inj : Injection V C} {I : AppBuilder V C T → Prop}
  (hI : ∀ app (s : Service), I app → I (s.installService inj app).app)
include hI

theorem foldlM_injectOne_keeps {l : List Service} {r r' : Pass V C T}
    (h : l.foldlM (injectOne inj) r = .ok r') (hr : I r.app) : I r'.app := by
  induction l generalizing r with
  | nil =>
      cases h
      exact hr
  | cons s rest ih =>
      rw [List.foldlM_cons, bind_ok] at h
      obtain ⟨r1, hone, hrest⟩ := h
      apply ih hrest
      have hnext := hI r.app s hr
      unfold injectOne at hone
      cases hresult : (s.installService inj r.app).result with
      | ok fields =>
          simp only [hresult, Except.ok.injEq] at hone
          exact hone ▸ hnext
      | error a =>
          cases a with
          | panic p =>
              simp only [hresult] at hone
              cases hone
          | err e =>
              simp only [hresult, Except.ok.injEq] at hone
              exact hone ▸ hnext

theorem injectFirst_keeps {r : Pass V C T} {first : Service} {out : Injected V C T}
    (h : injectFirst inj r first = .ok out) (hr : I r.app) : I out.app := by
  have hnext := hI r.app first hr
  unfold injectFirst at h
  cases hresult : (first.installService inj r.app).result with
  | ok fields =>
      simp only [hresult, Except.ok.injEq] at h
      exact h ▸ hnext
  | error a =>
      cases a with
      | panic p =>
          simp only [hresult] at h
          cases h
      | err e =>
          simp only [hresult, Except.ok.injEq] at h
          exact h ▸ hnext

/-- What every installation keeps, the call keeps. -/
theorem injectLoop_keeps {app : AppBuilder V C T} {installed : List (Service × Fields V)}
    {pending : List Service} {out : Injected V C T}
    (h : injectLoop inj app installed pending = .ok out) (happ : I app) : I out.app := by
  induction hn : pending.length using Nat.strong_induction_on
    generalizing app installed pending with
  | _ n ih =>
    by_cases hnil : pending = []
    · subst hnil
      rw [injectLoop_nil] at h
      cases h
      exact happ
    · rw [injectLoop_cons inj app installed hnil] at h
      cases hpass : injectPass inj app installed pending with
      | error p =>
          rw [hpass] at h
          cases h
      | ok r =>
          rw [hpass] at h
          change (if _ then _ else _) = _ at h
          have hr : I r.app := foldlM_injectOne_keeps hI hpass happ
          by_cases hstop : r.progressMade = false ∧ r.nextPending.isEmpty = false
          · rw [if_pos hstop] at h
            cases hnext : r.nextPending with
            | nil =>
                rw [hnext] at hstop
                cases hstop.2
            | cons first rest =>
                rw [hnext] at h
                exact injectFirst_keeps hI h hr
          · rw [if_neg hstop] at h
            have hlt := injectPass_lt (by
              cases pending with
              | nil => exact absurd rfl hnil
              | cons s rest => rfl) hpass hstop
            exact ih _ (hn ▸ hlt) h hr rfl

end

end Summer
