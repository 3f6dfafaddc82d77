/-
Whether the order of the registrars shows in what `auto_inject_service` does.

The services installed do not depend on the order, and neither does whether the call
panics or returns an error.  The fields injected do.  An optional component is looked up at
the moment the service is installed, and is `None` if its own service comes later; a copy of
the `RoutesBuilder` has the gRPC servers installed before.  The order leaves no trace exactly
when every optional component of an installable service is there from the start, or never, or
is needed to install the service, and when every other gRPC service comes before the service
with the copy in every order, or after it in every order (`orderIndependent_iff`).
-/
import Summer.Inject.Installable

namespace Summer

variable {V C T : Type}

/-- The types of the optional components of a service. -/
def Service.optionals (s : Service) : List TypeId :=
  s.fields.filterMap fun f =>
    match f.ty with
    | .component true ty => some ty
    | _ => none

/-- The types of the components that a service holds copies of. -/
def Service.copies (s : Service) : List TypeId :=
  s.fields.filterMap fun f =>
    match f.ty with
    | .component _ ty => some ty
    | _ => none

/-- Both calls panic, or both return with the same result up to the text of an error, with the
same services and fields, and with the same components, which the references among the fields
lead to. -/
def SameOutcome : Except Panic (Injected V C T) → Except Panic (Injected V C T) → Prop
  | .error _, .error _ => True
  | .ok out, .ok out' => (out.result = .ok () ↔ out'.result = .ok ()) ∧
      (∀ x, x ∈ out.installed ↔ x ∈ out'.installed) ∧
      ∀ ty, out.app.getComponent ty = out'.app.getComponent ty
  | _, _ => False

/-- An optional component that exists in the end has been injected. -/
def OptionalsFilled (out : Injected V C T) : Prop :=
  ∀ x ∈ out.installed, List.Forall₂
    (fun (f : Injectable) (v : String × FieldValue V) => ∀ ty, f.ty = .component true ty →
      out.app.hasComponent ty → ∃ c, v.2 = .optional (some c)) x.1.fields x.2

def OrderIndependent (inj : Injection V C) (app : AppBuilder V C T) (services : List Service) :
    Prop :=
  ∀ l, l.Perm services →
    (∀ l', l'.Perm services →
      SameOutcome (autoInjectService inj app l) (autoInjectService inj app l')) ∧
    ∀ out, autoInjectService inj app l = .ok out → OptionalsFilled out

/-- The service can be installed without a service that gives `ty`. -/
def InstallableWithout (inj : Injection V C) (app : AppBuilder V C T) (services : List Service)
    (ty : TypeId) (s : Service) : Prop :=
  (∀ m ∈ s.mandatory, Available inj app (services.filter fun q => decide (ty ∉ q.gives)) m) ∧
    ConfigsLoad inj app.config s

/-- The presence of an optional component is settled before the service is installed. -/
def Settled (inj : Injection V C) (app : AppBuilder V C T) (services : List Service)
    (s : Service) (ty : TypeId) : Prop :=
  app.hasComponent ty ∨ ¬ Available inj app services ty ∨
    ¬ InstallableWithout inj app services ty s

/-- One of the two services cannot be installed without the other. -/
def Ranked (inj : Injection V C) (app : AppBuilder V C T) (services : List Service)
    (s q : Service) : Prop :=
  ¬ InstallableWithout inj app services q.ty s ∨ ¬ InstallableWithout inj app services s.ty q

/-- The order cannot show in the fields of the service: its optional components are settled, and
if it holds a copy of the `RoutesBuilder`, so are the servers in it. -/
structure FieldsSettled (inj : Injection V C) (app : AppBuilder V C T) (services : List Service)
    (s : Service) : Prop where
  optionals : ∀ ty ∈ s.optionals, Settled inj app services s ty
  servers : .routesBuilder ∈ s.copies → ∀ q, Installable inj app services q → q.grpc.isSome →
    q ≠ s → Ranked inj app services s q

/-- tonic's builder of routes: the order in which servers are added makes no difference, and
each leaves it with one more. -/
structure RoutesLaws (inj : Injection V C) : Prop where
  comm : ∀ routes p v q w, inj.addService (inj.addService routes p v) q w =
    inj.addService (inj.addService routes q w) p v
  grows : ∃ size : V → ℕ, ∀ routes p v, size routes < size (inj.addService routes p v)

/-! ## What the fields depend on -/

theorem bindField_congr {inj : Injection V C} {app app' : AppBuilder V C T} {bound : Fields V}
    {f : Injectable} (hconfig : app.config = app'.config)
    (hmandatory : ∀ ty ∈ f.mandatory, app.hasComponent ty ∧ app'.hasComponent ty)
    (hcopies : ∀ optional ty, f.ty = .component optional ty →
      app.getComponent ty = app'.getComponent ty) :
    Service.bindField inj app bound f.ty = Service.bindField inj app' bound f.ty := by
  unfold Injectable.mandatory at hmandatory
  cases hty : f.ty with
  | component optional ty =>
      cases optional with
      | true => simp only [Service.bindField, hcopies true ty hty]
      | false =>
          simp only [Service.bindField, AppBuilder.tryGetComponent, hcopies false ty hty]
  | componentRef ty =>
      rw [hty] at hmandatory
      obtain ⟨hhas, hhas'⟩ := hmandatory ty List.mem_cons_self
      obtain ⟨c, hc⟩ := (@Service.exists_tryGetComponent_iff _ _ _ inj.typeName _ _).mpr hhas
      obtain ⟨c', hc'⟩ := (@Service.exists_tryGetComponent_iff _ _ _ inj.typeName _ _).mpr hhas'
      simp only [Service.bindField, hc, hc', Except.map]
  | config ty => simp only [Service.bindField, hconfig]
  | configRef ty => simp only [Service.bindField, hconfig]
  | _ => rfl

theorem bindFields_congr {inj : Injection V C} {app app' : AppBuilder V C T} {bound : Fields V}
    {fields : List Injectable} (hconfig : app.config = app'.config)
    (hmandatory : ∀ f ∈ fields, ∀ ty ∈ f.mandatory, app.hasComponent ty ∧ app'.hasComponent ty)
    (hcopies : ∀ f ∈ fields, ∀ optional ty, f.ty = .component optional ty →
      app.getComponent ty = app'.getComponent ty) :
    Service.bindFields inj app bound fields = Service.bindFields inj app' bound fields := by
  induction fields generalizing bound with
  | nil => rfl
  | cons f rest ih =>
      unfold Service.bindFields
      rw [bindField_congr hconfig (hmandatory f List.mem_cons_self) (hcopies f List.mem_cons_self)]
      cases Service.bindField inj app' bound f.ty with
      | error e => rfl
      | ok v =>
          simp only [@ih (bound ++ [(f.fieldName, v)])
            (fun g hg => hmandatory g (List.mem_cons_of_mem _ hg))
            (fun g hg => hcopies g (List.mem_cons_of_mem _ hg))]

theorem mem_optionals {s : Service} {ty : TypeId} :
    ty ∈ s.optionals ↔ ∃ f ∈ s.fields, f.ty = .component true ty := by
  simp only [Service.optionals, List.mem_filterMap]
  refine exists_congr fun f => and_congr_right fun _ => ?_
  cases f.ty with
  | component optional ty' => cases optional <;> simp
  | _ => simp

theorem mem_copies {s : Service} {ty : TypeId} :
    ty ∈ s.copies ↔ ∃ f ∈ s.fields, ∃ optional, f.ty = .component optional ty := by
  simp only [Service.copies, List.mem_filterMap]
  refine exists_congr fun f => and_congr_right fun _ => ?_
  cases f.ty with
  | component optional ty' => simp
  | _ => simp

/-- A copy that is not optional is mandatory. -/
theorem mem_copies_cases {s : Service} {ty : TypeId} (h : ty ∈ s.copies) :
    ty ∈ s.optionals ∨ ty ∈ s.mandatory := by
  obtain ⟨f, hf, optional, hty⟩ := mem_copies.mp h
  cases optional with
  | true => exact Or.inl (mem_optionals.mpr ⟨f, hf, hty⟩)
  | false =>
      refine Or.inr (List.mem_flatMap.mpr ⟨f, hf, ?_⟩)
      rw [Injectable.mandatory, hty]
      exact List.mem_cons_self

/-- The fields of a service depend on the components it copies, and on the presence of those
it refers to. -/
theorem fieldsOf_congr {inj : Injection V C} {app app' : AppBuilder V C T} {s : Service}
    (hconfig : app.config = app'.config)
    (hmandatory : ∀ ty ∈ s.mandatory, app.hasComponent ty ∧ app'.hasComponent ty)
    (hcopies : ∀ ty ∈ s.copies, app.getComponent ty = app'.getComponent ty) :
    fieldsOf inj app s = fieldsOf inj app' s := by
  have hbuild : s.build inj app = s.build inj app' := by
    refine bindFields_congr hconfig ?_ ?_
    · intro f hf ty hty
      exact hmandatory ty (List.mem_flatMap.mpr ⟨f, hf, hty⟩)
    · intro f hf optional ty hty
      exact hcopies ty (mem_copies.mpr ⟨f, hf, optional, hty⟩)
  rw [fieldsOf, fieldsOf, hbuild]

/-- The copy that a field holds, if it holds one. -/
def FieldValue.held : FieldValue V → Option V
  | .optional c => c
  | .component c => some c
  | _ => Option.none

/-- The field holds what the registry had when it was bound. -/
def Holds (app : AppBuilder V C T) (f : Injectable) (v : String × FieldValue V) : Prop :=
  (∀ ty, f.ty = .component true ty → v.2 = .optional (app.getComponent ty)) ∧
    ∀ optional ty, f.ty = .component optional ty → v.2.held = app.getComponent ty

theorem bindField_holds {inj : Injection V C} {app : AppBuilder V C T} {bound : Fields V}
    {f : Injectable} {v : FieldValue V} (h : Service.bindField inj app bound f.ty = .ok v) :
    Holds app f (f.fieldName, v) := by
  constructor
  · intro ty hty
    rw [hty] at h
    simp only [Service.bindField, Except.ok.injEq] at h
    exact h.symm
  · intro optional ty hty
    rw [hty] at h
    cases optional with
    | true =>
        simp only [Service.bindField, Except.ok.injEq] at h
        rw [← h]
        rfl
    | false =>
        rw [Service.bindField] at h
        cases hc : app.tryGetComponent inj.typeName ty with
        | error e =>
            rw [hc] at h
            cases h
        | ok c =>
            rw [hc] at h
            cases h
            exact (AppBuilder.tryGetComponent_ok_iff.mp hc).symm

theorem bindFields_holds {inj : Injection V C} {app : AppBuilder V C T}
    {bound fields : Fields V} {l : List Injectable}
    (h : (Service.bindFields inj app bound l).2 = .ok fields) :
    ∃ vs, fields = bound ++ vs ∧ List.Forall₂ (Holds app) l vs := by
  induction l generalizing bound with
  | nil =>
      simp only [Service.bindFields, Except.ok.injEq] at h
      exact ⟨[], by rw [← h, List.append_nil], .nil⟩
  | cons f rest ih =>
      unfold Service.bindFields at h
      cases hf : Service.bindField inj app bound f.ty with
      | error e =>
          rw [hf] at h
          cases h
      | ok v =>
          rw [hf] at h
          obtain ⟨vs, hvs, hall⟩ := ih h
          refine ⟨(f.fieldName, v) :: vs, ?_, .cons (bindField_holds hf) hall⟩
          rw [hvs, List.append_assoc, List.singleton_append]

/-! ## The log of an order -/

section
variable {inj : Injection V C} {app : AppBuilder V C T}

theorem mem_installLog {order : List Service} {x : Service × Fields V} :
    x ∈ installLog inj app order ↔ ∃ pre post, order = pre ++ x.1 :: post ∧
      x.2 = fieldsOf inj (installAll inj app pre) x.1 := by
  induction order generalizing app with
  | nil => simp [installLog]
  | cons s rest ih =>
      rw [installLog, List.mem_cons, ih]
      constructor
      · intro h
        rcases h with rfl | ⟨pre, post, hrest, hx⟩
        · exact ⟨[], rest, rfl, rfl⟩
        · exact ⟨s :: pre, post, by rw [hrest]; rfl, hx⟩
      · intro h
        obtain ⟨pre, post, hrest, hx⟩ := h
        cases pre with
        | nil =>
            obtain ⟨rfl, rfl⟩ := List.cons.inj hrest
            exact Or.inl (Prod.ext rfl hx)
        | cons q pre =>
            obtain ⟨rfl, htail⟩ := List.cons.inj hrest
            exact Or.inr ⟨pre, post, htail, hx⟩

theorem installLog_nodup {order : List Service} (hnodup : order.Nodup) :
    (installLog inj app order).Nodup :=
  List.Nodup.of_map Prod.fst (by rwa [map_fst_installLog])

/-- The fields of a legal order hold what the registry had at the time. -/
theorem fieldsOf_holds {order pre post : List Service} {s : Service}
    (hlegal : InstallOrder inj app order) (hsplit : order = pre ++ s :: post) :
    List.Forall₂ (Holds (installAll inj app pre)) s.fields
      (fieldsOf inj (installAll inj app pre) s) := by
  have hready : (serviceRules inj (installAll inj app pre).config).Ready
      (keys (installAll inj app pre)) s := by
    rw [config_installAll, keys_installAll app.config]
    exact ready_knows_iff.mpr (hlegal pre s post hsplit)
  obtain ⟨fields, hbuild⟩ := ready_iff_build.mp hready
  have hfields : fieldsOf inj (installAll inj app pre) s = fields := by rw [fieldsOf, hbuild]
  obtain ⟨vs, hvs, hall⟩ := bindFields_holds hbuild
  rw [hfields, hvs]
  exact hall

/-! ## Lookups while the services of a list are installed -/

theorem getComponent_installAll {l : List Service} {ty : TypeId} (h : ∀ s ∈ l, ty ∉ s.gives) :
    (installAll inj app l).getComponent ty = app.getComponent ty := by
  induction l generalizing app with
  | nil => rfl
  | cons s rest ih =>
      have hrest := @ih (install inj app s) fun q hq => h q (List.mem_cons_of_mem _ hq)
      exact hrest.trans (Service.getComponent_register_ne (h s List.mem_cons_self))

/-- A service of the log is in the registry as it was built. -/
theorem getComponent_of_mem_log {l : List Service} {x : Service × Fields V}
    (hnodup : (l.map Service.ty).Nodup) (hx : x ∈ installLog inj app l) :
    (installAll inj app l).getComponent x.1.ty = some (inj.construct x.1.ty x.2) := by
  obtain ⟨pre, post, rfl, hfields⟩ := mem_installLog.mp hx
  have hlater : ∀ s ∈ post, x.1.ty ∉ s.gives := by
    intro s hs hgives
    rw [List.map_append, List.map_cons] at hnodup
    have htail := (List.nodup_cons.mp (List.nodup_append.mp hnodup).2.1).1
    exact htail (Service.ty_mem_gives_iff.mp hgives ▸ List.mem_map_of_mem hs)
  have hsplit : pre ++ x.1 :: post = (pre ++ [x.1]) ++ post := by simp
  rw [hsplit, installAll_append, getComponent_installAll hlater, installAll_append, hfields]
  exact Service.getComponent_register_self

/-- The servers that the gRPC services of a log add. -/
def servers (inj : Injection V C) (log : List (Service × Fields V)) : List (ℕ × V) :=
  log.filterMap fun x => x.1.grpc.map fun server => (server, inj.construct x.1.ty x.2)

theorem getComponent_routes {l : List Service} :
    (installAll inj app l).getComponent .routesBuilder =
      (servers inj (installLog inj app l)).foldl (Service.addServer inj)
        (app.getComponent .routesBuilder) := by
  induction l generalizing app with
  | nil => rfl
  | cons s rest ih =>
      refine (@ih (install inj app s)).trans ?_
      rw [install, Service.getComponent_register_routes]
      cases hgrpc : s.grpc with
      | none =>
        simp only [installLog, servers, List.filterMap_cons, hgrpc, Option.map_none, install]
      | some server =>
          simp only [installLog, servers, List.filterMap_cons, hgrpc, Option.map_some,
            List.foldl_cons, install]

theorem RoutesLaws.foldl_eq (hlaws : RoutesLaws inj) {l m : List (ℕ × V)} (h : l.Perm m)
    (routes : Option V) :
    l.foldl (Service.addServer inj) routes = m.foldl (Service.addServer inj) routes := by
  refine h.foldl_eq' (fun x _ y _ routes => ?_) routes
  simp only [Service.addServer, Option.getD_some, hlaws.comm]

/-- A builder with more servers is another builder. -/
theorem RoutesLaws.foldl_ne (hlaws : RoutesLaws inj) {l : List (ℕ × V)} (hne : l ≠ [])
    (routes : Option V) : l.foldl (Service.addServer inj) routes ≠ routes := by
  obtain ⟨size, hgrows⟩ := hlaws.grows
  let count : Option V → ℕ := fun routes => (routes.map fun b => size b + 1).getD 0
  have hstep : ∀ (routes : Option V) x, count routes < count (Service.addServer inj routes x) := by
    intro routes x
    cases routes with
    | none => exact Nat.succ_pos _
    | some b => exact Nat.succ_lt_succ (hgrows b x.1 x.2)
  have hrun : ∀ (l : List (ℕ × V)) (routes : Option V),
      count routes ≤ count (l.foldl (Service.addServer inj) routes) := by
    intro l
    induction l with
    | nil => exact fun _ => Nat.le_refl _
    | cons x rest ih => exact fun routes => (hstep routes x).le.trans (ih _)
  cases l with
  | nil => exact absurd rfl hne
  | cons x rest =>
      intro heq
      have hle := hrun rest (Service.addServer inj routes x)
      rw [← List.foldl_cons, heq] at hle
      exact absurd (hstep routes x) (Nat.not_lt.mpr hle)

/-- A component is the same after two lists that install its givers from the same fields. -/
theorem getComponent_congr (hlaws : RoutesLaws inj) {l l' : List Service} {ty : TypeId}
    (hnodup : (l.map Service.ty).Nodup) (hnodup' : (l'.map Service.ty).Nodup)
    (hgivers : ∀ x : Service × Fields V, ty ∈ x.1.gives →
      (x ∈ installLog inj app l ↔ x ∈ installLog inj app l')) :
    (installAll inj app l).getComponent ty = (installAll inj app l').getComponent ty := by
  by_cases hroutes : ty = .routesBuilder
  · subst hroutes
    rw [getComponent_routes, getComponent_routes]
    apply hlaws.foldl_eq
    have hfilter : ∀ log : List (Service × Fields V), servers inj log =
        servers inj (log.filter fun x => decide (TypeId.routesBuilder ∈ x.1.gives)) := by
      intro log
      unfold servers
      rw [List.filterMap_filter]
      refine List.filterMap_congr fun x _ => ?_
      cases hgrpc : x.1.grpc with
      | none => simp
      | some server => simp [Service.mem_gives, hgrpc]
    rw [hfilter, hfilter (installLog inj app l')]
    refine List.Perm.filterMap _ ((List.perm_ext_iff_of_nodup ?_ ?_).mpr fun x => ?_)
    · exact (installLog_nodup (List.Nodup.of_map _ hnodup)).filter _
    · exact (installLog_nodup (List.Nodup.of_map _ hnodup')).filter _
    · simp only [List.mem_filter, decide_eq_true_eq]
      exact and_congr_left (hgivers x)
  · by_cases hgiven : ∃ x ∈ installLog inj app l, ty ∈ x.1.gives
    · obtain ⟨x, hx, hty⟩ := hgiven
      have hx' := (hgivers x hty).mp hx
      rw [Service.mem_gives_of_ne hroutes] at hty
      rw [← hty, getComponent_of_mem_log hnodup hx, getComponent_of_mem_log hnodup' hx']
    · have hnone : ∀ m : List Service,
          (∀ x, ty ∈ x.1.gives → (x ∈ installLog inj app l ↔ x ∈ installLog inj app m)) →
          (installAll inj app m).getComponent ty = app.getComponent ty := by
        intro m hm
        apply getComponent_installAll
        intro s hs hty
        rw [← map_fst_installLog inj app m] at hs
        obtain ⟨x, hx, rfl⟩ := List.mem_map.mp hs
        exact hgiven ⟨x, (hm x hty).mpr hx, hty⟩
      rw [hnone l fun _ _ => Iff.rfl, hnone l' hgivers]

theorem getComponent_eq_none {ty : TypeId} (h : ¬ app.hasComponent ty) :
    app.getComponent ty = none := by
  rw [← Option.not_isSome_iff_eq_none, AppBuilder.getComponent_isSome]
  exact h

end

/-! ## Two orders with the same givers -/

/-- Two legal orders of the same services. -/
structure SameServices (inj : Injection V C) (app : AppBuilder V C T)
    (order order' : List Service) : Prop where
  perm : order.Perm order'
  nodup : (order.map Service.ty).Nodup
  legal : InstallOrder inj app order
  legal' : InstallOrder inj app order'

/-- Whatever gives a component that a service copies comes before it in both orders, or in
neither. -/
def SameGivers (order order' : List Service) : Prop :=
  ∀ pre s post, order = pre ++ s :: post → ∀ pre' post', order' = pre' ++ s :: post' →
    ∀ ty ∈ s.copies, ∀ q : Service, ty ∈ q.gives → (q ∈ pre ↔ q ∈ pre')

section
variable {inj : Injection V C} {app : AppBuilder V C T} {order order' : List Service}

theorem SameServices.nodup' (hsame : SameServices inj app order order') :
    (order'.map Service.ty).Nodup :=
  (hsame.perm.map Service.ty).nodup_iff.mp hsame.nodup

/-- A service is installed with the same fields in both orders.  The induction is on the part of
the order before it, whose services are the same in the other order. -/
theorem SameServices.fieldsOf_eq (hlaws : RoutesLaws inj)
    (hsame : SameServices inj app order order') (hgivers : SameGivers order order')
    {pre post pre' post' : List Service} {s : Service} (horder : order = pre ++ s :: post)
    (horder' : order' = pre' ++ s :: post') :
    fieldsOf inj (installAll inj app pre) s = fieldsOf inj (installAll inj app pre') s := by
  induction hn : pre.length using Nat.strong_induction_on
    generalizing pre post pre' post' s with
  | _ n ih =>
    have hnodup : (pre.map Service.ty).Nodup := by
      have hall := hsame.nodup
      rw [horder, List.map_append] at hall
      exact (List.nodup_append.mp hall).1
    have hnodup' : (pre'.map Service.ty).Nodup := by
      have hall := hsame.nodup'
      rw [horder', List.map_append] at hall
      exact (List.nodup_append.mp hall).1
    -- the services before `s` in both orders have the same fields there
    have hbefore : ∀ {a b a' b' : List Service} {q : Service}, pre = a ++ q :: b →
        pre' = a' ++ q :: b' →
        fieldsOf inj (installAll inj app a) q = fieldsOf inj (installAll inj app a') q := by
      intro a b a' b' q hpre hpre'
      have hlt : a.length < n := by
        rw [← hn, hpre, List.length_append, List.length_cons]
        omega
      have hsplit : order = a ++ q :: (b ++ s :: post) := by
        rw [horder, hpre, List.append_assoc, List.cons_append]
      have hsplit' : order' = a' ++ q :: (b' ++ s :: post') := by
        rw [horder', hpre', List.append_assoc, List.cons_append]
      exact ih a.length hlt hsplit hsplit' rfl
    apply fieldsOf_congr
    · rw [config_installAll, config_installAll]
    · intro ty hty
      exact ⟨hasComponent_installAll.mpr ((hsame.legal pre s post horder).1 ty hty),
        hasComponent_installAll.mpr ((hsame.legal' pre' s post' horder').1 ty hty)⟩
    · intro ty hty
      apply getComponent_congr hlaws hnodup hnodup'
      intro x hx
      have hmem := hgivers pre s post horder pre' post' horder' ty hty x.1 hx
      constructor
      · intro hlog
        obtain ⟨a, b, hpre, hfields⟩ := mem_installLog.mp hlog
        obtain ⟨a', b', hpre'⟩ := List.append_of_mem (hmem.mp (by rw [hpre]; simp))
        exact mem_installLog.mpr ⟨a', b', hpre', hfields.trans (hbefore hpre hpre')⟩
      · intro hlog
        obtain ⟨a', b', hpre', hfields⟩ := mem_installLog.mp hlog
        obtain ⟨a, b, hpre⟩ := List.append_of_mem (hmem.mpr (by rw [hpre']; simp))
        exact mem_installLog.mpr ⟨a, b, hpre, hfields.trans (hbefore hpre hpre').symm⟩

theorem SameServices.mem_installLog_iff (hlaws : RoutesLaws inj)
    (hsame : SameServices inj app order order') (hgivers : SameGivers order order')
    {x : Service × Fields V} :
    x ∈ installLog inj app order ↔ x ∈ installLog inj app order' := by
  rw [mem_installLog, mem_installLog]
  constructor
  · intro h
    obtain ⟨pre, post, horder, hfields⟩ := h
    obtain ⟨pre', post', horder'⟩ :=
      List.append_of_mem (hsame.perm.mem_iff.mp (horder ▸ List.mem_append_cons_self))
    exact ⟨pre', post', horder',
      hfields.trans (hsame.fieldsOf_eq hlaws hgivers horder horder')⟩
  · intro h
    obtain ⟨pre', post', horder', hfields⟩ := h
    obtain ⟨pre, post, horder⟩ :=
      List.append_of_mem (hsame.perm.mem_iff.mpr (horder' ▸ List.mem_append_cons_self))
    exact ⟨pre, post, horder,
      hfields.trans (hsame.fieldsOf_eq hlaws hgivers horder horder').symm⟩

end

/-! ## When the givers are the same -/

section
variable {inj : Injection V C} {app : AppBuilder V C T} {services : List Service}

/-- The services of a legal order give available types. -/
theorem InstallOrder.available {order : List Service} (h : InstallOrder inj app order)
    (hsub : order ⊆ services) {s : Service} (hs : s ∈ order) {ty : TypeId} (hty : ty ∈ s.gives) :
    Available inj app services ty := by
  have hinst := h.installable hsub hs
  exact .service hinst.1 hinst.2.1 hinst.2.2 hty

theorem InstallOrder.left {order rest : List Service} (h : InstallOrder inj app (order ++ rest)) :
    InstallOrder inj app order := by
  rw [← fires_iff_installOrder] at h ⊢
  exact (Rules.fires_append _).mp h |>.1

/-- What comes before a service in a legal order holds a giver of every type it cannot be
installed without. -/
theorem InstallOrder.exists_giver {order pre post : List Service} {s : Service} {ty : TypeId}
    (h : InstallOrder inj app order) (hsub : order ⊆ services) (hsplit : order = pre ++ s :: post)
    (hwithout : ¬ InstallableWithout inj app services ty s) : ∃ q ∈ pre, ty ∈ q.gives := by
  by_contra hnone
  simp only [not_exists, not_and] at hnone
  have hsub' : pre ⊆ services.filter fun q => decide (ty ∉ q.gives) := fun q hq =>
    List.mem_filter.mpr
      ⟨hsub (hsplit ▸ List.mem_append_left _ hq), decide_eq_true (hnone q hq)⟩
  obtain ⟨hmandatory, hconfigs⟩ := h pre s post hsplit
  refine hwithout ⟨fun m hm => ?_, hconfigs⟩
  rcases hmandatory m hm with happ | ⟨q, hq, hgives⟩
  · exact .present happ
  · exact (hsplit ▸ h).left.available hsub' hq hgives

/-- What a call installs, when the fields of every service are settled. -/
structure Settles (inj : Injection V C) (app : AppBuilder V C T) (services order : List Service) :
    Prop where
  legal : InstallOrder inj app order
  nodup : (order.map Service.ty).Nodup
  mem_iff : ∀ s, s ∈ order ↔ Installable inj app services s
  free : ∀ s ∈ order, ¬ app.hasComponent s.ty
  settled : ∀ s ∈ order, FieldsSettled inj app services s

namespace Settles

variable {order : List Service}

theorem sub (h : Settles inj app services order) : order ⊆ services := fun s hs =>
  ((h.mem_iff s).mp hs).1

theorem eq_of_ty (h : Settles inj app services order) {s q : Service} (hs : s ∈ order)
    (hq : q ∈ order) (hty : s.ty = q.ty) : s = q :=
  List.inj_on_of_nodup_map h.nodup hs hq hty

/-- An optional component that exists in the end is there before the service is installed. -/
theorem optional_before (h : Settles inj app services order) {pre post : List Service}
    {s : Service} (hsplit : order = pre ++ s :: post) {ty : TypeId} (hty : ty ∈ s.optionals)
    (hhas : (installAll inj app order).hasComponent ty) :
    (installAll inj app pre).hasComponent ty := by
  have hs : s ∈ order := hsplit ▸ List.mem_append_cons_self
  rw [hasComponent_installAll] at hhas ⊢
  rcases (h.settled s hs).optionals ty hty with happ | havail | hwithout
  · exact Or.inl happ
  · refine absurd ?_ havail
    rcases hhas with happ | ⟨q, hq, hgives⟩
    · exact .present happ
    · exact h.legal.available h.sub hq hgives
  · exact Or.inr (h.legal.exists_giver h.sub hsplit hwithout)

/-- The giver of a copied component comes before the service that copies it. -/
theorem giver_before (h : Settles inj app services order) {pre post : List Service}
    {s q : Service} (hsplit : order = pre ++ s :: post) (hcopy : q.ty ∈ s.copies)
    (hq : q ∈ order) : q ∈ pre := by
  have hhas : (installAll inj app order).hasComponent q.ty :=
    hasComponent_installAll.mpr (Or.inr ⟨q, hq, q.ty_mem_gives⟩)
  have hpre : (installAll inj app pre).hasComponent q.ty := by
    rcases mem_copies_cases hcopy with hty | hty
    · exact h.optional_before hsplit hty hhas
    · exact hasComponent_installAll.mpr ((h.legal pre s post hsplit).1 q.ty hty)
  rcases hasComponent_installAll.mp hpre with happ | ⟨r, hr, hgives⟩
  · exact absurd happ (h.free q hq)
  · have hrorder : r ∈ order := hsplit ▸ List.mem_append_left _ hr
    rwa [← h.eq_of_ty hrorder hq (Service.ty_mem_gives_iff.mp hgives)]

theorem not_mem_before (h : Settles inj app services order) {pre post : List Service}
    {s : Service} (hsplit : order = pre ++ s :: post) : s ∉ pre := by
  have hnodup := List.Nodup.of_map _ h.nodup
  rw [hsplit] at hnodup
  exact fun hmem => (List.nodup_append.mp hnodup).2.2 s hmem s List.mem_cons_self rfl

/-- A service that another one cannot be installed without comes before it. -/
theorem before_of_needed (h : Settles inj app services order) {pre post : List Service}
    {s q : Service} (hsplit : order = pre ++ s :: post) (hq : q ∈ order)
    (hwithout : ¬ InstallableWithout inj app services q.ty s) : q ∈ pre := by
  obtain ⟨r, hr, hgives⟩ := h.legal.exists_giver h.sub hsplit hwithout
  have hrorder : r ∈ order := hsplit ▸ List.mem_append_left _ hr
  rwa [← h.eq_of_ty hrorder hq (Service.ty_mem_gives_iff.mp hgives)]

/-- A service that cannot be installed without a later one is not before it. -/
theorem not_before_of_needing (h : Settles inj app services order) {pre post : List Service}
    {s q : Service} (hsplit : order = pre ++ s :: post)
    (hwithout : ¬ InstallableWithout inj app services s.ty q) : q ∉ pre := by
  intro hq
  obtain ⟨a, b, hpre⟩ := List.append_of_mem hq
  have hs : s ∈ order := hsplit ▸ List.mem_append_cons_self
  have hsplit' : order = a ++ q :: (b ++ s :: post) := by
    rw [hsplit, hpre, List.append_assoc, List.cons_append]
  have hmem := h.before_of_needed hsplit' hs hwithout
  exact h.not_mem_before hsplit (hpre ▸ List.mem_append_left _ hmem)

/-- In two orders the services that a copy depends on come before it, or not, in the same way. -/
theorem sameGivers {order' : List Service} (h : Settles inj app services order)
    (h' : Settles inj app services order') (hperm : order.Perm order') :
    SameGivers order order' := by
  intro pre s post hsplit pre' post' hsplit' ty hty q hgives
  have hs : s ∈ order := hsplit ▸ List.mem_append_cons_self
  by_cases hq : q ∈ order
  · have hq' := hperm.mem_iff.mp hq
    rcases Service.mem_gives.mp hgives with rfl | ⟨rfl, hgrpc⟩
    · exact iff_of_true (h.giver_before hsplit hty hq) (h'.giver_before hsplit' hty hq')
    · by_cases heq : q = s
      · subst heq
        exact iff_of_false (h.not_mem_before hsplit) (h'.not_mem_before hsplit')
      · rcases (h.settled s hs).servers hty q ((h.mem_iff q).mp hq) hgrpc heq with hranked | hranked
        · exact iff_of_true (h.before_of_needed hsplit hq hranked)
            (h'.before_of_needed hsplit' hq' hranked)
        · exact iff_of_false (h.not_before_of_needing hsplit hranked)
            (h'.not_before_of_needing hsplit' hranked)
  · refine iff_of_false (fun hmem => hq (hsplit ▸ List.mem_append_left _ hmem)) fun hmem => hq ?_
    exact hperm.mem_iff.mpr (hsplit' ▸ List.mem_append_left _ hmem)

theorem sameServices {order' : List Service} (h : Settles inj app services order)
    (h' : Settles inj app services order') : SameServices inj app order order' where
  perm := (List.perm_ext_iff_of_nodup (List.Nodup.of_map _ h.nodup)
    (List.Nodup.of_map _ h'.nodup)).mpr fun s => (h.mem_iff s).trans (h'.mem_iff s).symm
  nodup := h.nodup
  legal := h.legal
  legal' := h'.legal

end Settles

theorem Installs.settles {out : Injected V C T} {order : List Service}
    (h : Installs inj app services order out)
    (hfree : ∀ s, Installable inj app services s → ¬ app.hasComponent s.ty)
    (hsettled : ∀ s, Installable inj app services s → FieldsSettled inj app services s) :
    Settles inj app services order where
  legal := h.legal
  nodup := h.nodup
  mem_iff := h.mem_iff
  free := fun s hs => hfree s ((h.mem_iff s).mp hs)
  settled := fun s hs => hsettled s ((h.mem_iff s).mp hs)

/-- When the fields are settled, two orders leave the same outcome. -/
theorem sameOutcome_of_settled (hlaws : RoutesLaws inj) {l l' : List Service}
    (hl : l.Perm services) (hl' : l'.Perm services) (hnodup : (services.map Service.ty).Nodup)
    (hfree : ∀ s, Installable inj app services s → ¬ app.hasComponent s.ty)
    (hsettled : ∀ s, Installable inj app services s → FieldsSettled inj app services s) :
    SameOutcome (autoInjectService inj app l) (autoInjectService inj app l') := by
  obtain ⟨out, hout, h⟩ := autoInjectService_installs hl hnodup hfree
  obtain ⟨out', hout', h'⟩ := autoInjectService_installs hl' hnodup hfree
  rw [hout, hout']
  have hs := h.settles hfree hsettled
  have hs' := h'.settles hfree hsettled
  have hsame := hs.sameServices hs'
  have hlog := fun x => hsame.mem_installLog_iff hlaws (hs.sameGivers hs' hsame.perm) (x := x)
  refine ⟨h.ok_iff.trans h'.ok_iff.symm, ?_, ?_⟩
  · rw [h.installed_eq, h'.installed_eq]
    exact hlog
  · intro ty
    rw [h.app_eq, h'.app_eq]
    exact getComponent_congr hlaws h.nodup h'.nodup fun x _ => hlog x

/-- When the fields are settled, each optional component that exists in the end is injected. -/
theorem optionalsFilled_of_settled {l : List Service} (hl : l.Perm services)
    (hnodup : (services.map Service.ty).Nodup)
    (hfree : ∀ s, Installable inj app services s → ¬ app.hasComponent s.ty)
    (hsettled : ∀ s, Installable inj app services s → FieldsSettled inj app services s)
    {out : Injected V C T} (hout : autoInjectService inj app l = .ok out) :
    OptionalsFilled out := by
  obtain ⟨out', hout', h⟩ := autoInjectService_installs hl hnodup hfree
  obtain rfl : out' = out := Except.ok.inj (hout'.symm.trans hout)
  intro x hx
  rw [h.installed_eq] at hx
  obtain ⟨pre, post, hsplit, hfields⟩ := mem_installLog.mp hx
  have hvalues := fieldsOf_holds h.legal hsplit
  rw [← hfields] at hvalues
  refine List.forall₂_iff_get.mpr ⟨hvalues.length_eq, fun i hi hi' ty hty hhas => ?_⟩
  have hvalue := ((List.forall₂_iff_get.mp hvalues).2 i hi hi').1 ty hty
  have hpre : (installAll inj app pre).hasComponent ty := by
    refine (h.settles hfree hsettled).optional_before hsplit ?_ (h.app_eq ▸ hhas)
    exact mem_optionals.mpr ⟨_, List.getElem_mem hi, hty⟩
  obtain ⟨c, hc⟩ := Option.isSome_iff_exists.mp (AppBuilder.getComponent_isSome.mpr hpre)
  exact ⟨c, by rw [hvalue, hc]⟩

end

/-! ## Orders that leave a trace -/

section
variable {inj : Injection V C} {app : AppBuilder V C T} {services : List Service}

/-- Services of the list can be brought to its front. -/
theorem exists_order_with {front : List Service} (hfront : front.Nodup)
    (hsub : front ⊆ services) : ∃ rest, (front ++ rest).Perm services := by
  obtain ⟨mid, hmid, hmidSub⟩ := hfront.subperm hsub
  obtain ⟨rest, hrest⟩ := hmidSub.exists_perm_append
  exact ⟨rest, (hrest.trans (hmid.append_right rest)).symm⟩

/-- A service that can be installed without `ty` is installed by a legal order of services that
do not give it. -/
theorem exists_order_without (hnodup : services.Nodup) {s : Service} {ty : TypeId}
    (hwithout : InstallableWithout inj app services ty s) :
    ∃ pre, (pre ++ [s]).Nodup ∧ pre ⊆ services ∧ (∀ q ∈ pre, ty ∉ q.gives) ∧
      InstallOrder inj app (pre ++ [s]) := by
  let R := serviceRules inj app.config
  let others := services.filter fun q => decide (ty ∉ q.gives)
  have hperm := R.rounds_perm (keys app) others
  have hothers : ∀ q ∈ (R.rounds (keys app) others).1, q ∈ others := fun q hq =>
    hperm.subset (List.mem_append_left _ hq)
  have hfired : ((R.rounds (keys app) others).1).Nodup :=
    (List.nodup_append.mp (hperm.nodup_iff.mpr (hnodup.filter _))).1
  have hpre : ∃ pre, pre <+: (R.rounds (keys app) others).1 ∧ s ∉ pre ∧
      R.Fires (keys app) (pre ++ [s]) := by
    by_cases hmem : s ∈ (R.rounds (keys app) others).1
    · obtain ⟨pre, post, hsplit⟩ := List.append_of_mem hmem
      have hfires := R.rounds_fires (keys app) others
      rw [hsplit] at hfired hfires ⊢
      refine ⟨pre, List.prefix_append pre _, ?_, ?_⟩
      · intro hin
        exact (List.nodup_append.mp hfired).2.2 s hin s List.mem_cons_self rfl
      · have hfires' := (R.fires_append).mp hfires
        exact (R.fires_append).mpr ⟨hfires'.1, hfires'.2.1, trivial⟩
    · refine ⟨_, List.prefix_refl _, hmem, (R.fires_append).mpr ⟨R.rounds_fires _ _, ?_, trivial⟩⟩
      refine (service_ready_iff fun _ => inr_not_mem_knows).mpr ⟨fun m hm => ?_, hwithout.2⟩
      exact R.mem_knows_rounds.mpr (derives_iff_available.mpr (hwithout.1 m hm))
  obtain ⟨pre, hinit, hnot, hfires⟩ := hpre
  have hsub : ∀ q ∈ pre, q ∈ others := fun q hq => hothers q (hinit.subset hq)
  refine ⟨pre, ?_, ?_, ?_, fires_iff_installOrder.mp hfires⟩
  · refine List.nodup_append.mpr ⟨hinit.sublist.nodup hfired, List.nodup_singleton s, ?_⟩
    intro q hq r hr heq
    rw [heq, List.mem_singleton.mp hr] at hq
    exact hnot hq
  · exact fun q hq => (List.mem_filter.mp (hsub q hq)).1
  · exact fun q hq => of_decide_eq_true (List.mem_filter.mp (hsub q hq)).2

/-- A call that starts with a legal order installs a service with what was there before it. -/
theorem exists_call (hnodup : (services.map Service.ty).Nodup)
    (hfree : ∀ s, Installable inj app services s → ¬ app.hasComponent s.ty)
    {pre : List Service} {s : Service} (hs : s ∈ services) (hfront : (pre ++ [s]).Nodup)
    (hsub : pre ⊆ services) (hlegal : InstallOrder inj app (pre ++ [s])) :
    ∃ l order out, l.Perm services ∧ autoInjectService inj app l = .ok out ∧
      Installs inj app services order out ∧
      (s, fieldsOf inj (installAll inj app pre) s) ∈ out.installed := by
  obtain ⟨rest, hperm⟩ := exists_order_with hfront
    (List.append_subset.mpr ⟨hsub, List.cons_subset.mpr ⟨hs, List.nil_subset _⟩⟩)
  obtain ⟨out, hout, hinstalls⟩ := autoInjectService_installs hperm hnodup hfree
  obtain ⟨more, hmore⟩ := (serviceRules inj app.config).rounds_append_of_fires (m := rest)
    (fires_iff_installOrder.mpr hlegal)
  refine ⟨_, _, out, hperm, hout, hinstalls, ?_⟩
  rw [hinstalls.installed_eq, hmore]
  exact mem_installLog.mpr ⟨pre, more, by simp, rfl⟩

/-- Some order installs a service before an optional component it could have had. -/
theorem exists_unfilled (hnodup : (services.map Service.ty).Nodup)
    (hfree : ∀ s, Installable inj app services s → ¬ app.hasComponent s.ty) {s : Service}
    {ty : TypeId} (hs : Installable inj app services s) (hty : ty ∈ s.optionals)
    (hsettled : ¬ Settled inj app services s ty) :
    ∃ l out, l.Perm services ∧ autoInjectService inj app l = .ok out ∧ ¬ OptionalsFilled out := by
  unfold Settled at hsettled
  simp only [not_or, not_not] at hsettled
  obtain ⟨happ, havail, hwithout⟩ := hsettled
  obtain ⟨pre, hfront, hsub, hpre, hlegal⟩ :=
    exists_order_without (List.Nodup.of_map _ hnodup) hwithout
  obtain ⟨l, order, out, hperm, hout, hinstalls, hlogged⟩ :=
    exists_call hnodup hfree hs.1 hfront hsub hlegal
  refine ⟨l, out, hperm, hout, fun hfilled => ?_⟩
  have hvalues := fieldsOf_holds hlegal (by rfl : pre ++ [s] = pre ++ s :: [])
  have hnone : (installAll inj app pre).getComponent ty = none := by
    apply getComponent_eq_none
    intro hhas
    rcases hasComponent_installAll.mp hhas with hhas | ⟨q, hq, hgives⟩
    · exact happ hhas
    · exact hpre q hq hgives
  have hhas : out.app.hasComponent ty := by
    rw [hinstalls.app_eq]
    cases havail with
    | present h => exact absurd h happ
    | service hq hmandatory hconfigs hgives =>
        exact hasComponent_installAll.mpr
          (Or.inr ⟨_, (hinstalls.mem_iff _).mpr ⟨hq, hmandatory, hconfigs⟩, hgives⟩)
  obtain ⟨f, hf, hfty⟩ := mem_optionals.mp hty
  obtain ⟨i, hi, rfl⟩ := List.getElem_of_mem hf
  obtain ⟨hlen, hfilledAt⟩ := List.forall₂_iff_get.mp (hfilled _ hlogged)
  obtain ⟨_, hvalueAt⟩ := List.forall₂_iff_get.mp hvalues
  obtain ⟨c, hc⟩ := hfilledAt i hi (hlen ▸ hi) ty hfty hhas
  have hvalue := (hvalueAt i hi (hlen ▸ hi)).1 ty hfty
  rw [hnone] at hvalue
  rw [hvalue] at hc
  cases hc

/-- The copy in a service is that of the registry when it was installed. -/
theorem getComponent_eq_of_fieldsOf_eq {pre pre' : List Service} {s : Service} {ty : TypeId}
    (hlegal : InstallOrder inj app (pre ++ [s])) (hlegal' : InstallOrder inj app (pre' ++ [s]))
    (hcopy : ty ∈ s.copies)
    (h : fieldsOf inj (installAll inj app pre) s = fieldsOf inj (installAll inj app pre') s) :
    (installAll inj app pre).getComponent ty = (installAll inj app pre').getComponent ty := by
  have hvalues := fieldsOf_holds hlegal (by rfl : pre ++ [s] = pre ++ s :: [])
  have hvalues' := fieldsOf_holds hlegal' (by rfl : pre' ++ [s] = pre' ++ s :: [])
  rw [← h] at hvalues'
  obtain ⟨f, hf, optional, hty⟩ := mem_copies.mp hcopy
  obtain ⟨i, hi, rfl⟩ := List.getElem_of_mem hf
  obtain ⟨hlen, hvalueAt⟩ := List.forall₂_iff_get.mp hvalues
  obtain ⟨_, hvalueAt'⟩ := List.forall₂_iff_get.mp hvalues'
  exact ((hvalueAt i hi (hlen ▸ hi)).2 optional ty hty).symm.trans
    ((hvalueAt' i hi (hlen ▸ hi)).2 optional ty hty)

/-- What a list does not hold yet of another one. -/
def beyond (pre l : List Service) : List Service := l.filter fun r => decide (r ∉ pre)

theorem mem_beyond {pre l : List Service} {r : Service} : r ∈ beyond pre l ↔ r ∈ l ∧ r ∉ pre := by
  simp only [beyond, List.mem_filter, decide_eq_true_eq]

/-- Between the services before one and that service there is room for another legal order. -/
theorem InstallOrder.insert_before {pre l : List Service} {s : Service}
    (h : InstallOrder inj app (pre ++ [s])) (hl : InstallOrder inj app l) :
    InstallOrder inj app ((pre ++ beyond pre l) ++ [s]) := by
  rw [← fires_iff_installOrder] at h hl ⊢
  have hfires := (Rules.fires_append _).mp h
  have hknown : keys app ⊆ (serviceRules inj app.config).knows (keys app) pre :=
    (serviceRules inj app.config).knows_subset (Finset.Subset.refl _) (List.nil_subset pre)
  have hbeyond := hl.filter (fun r => decide (r ∉ pre)) hknown fun r _ hr key hkey =>
    (Rules.mem_knows _).mpr (Or.inr ⟨r, by simpa using hr, hkey⟩)
  refine (Rules.fires_append _).mpr ⟨(Rules.fires_append _).mpr ⟨hfires.1, hbeyond⟩, ?_, trivial⟩
  exact Rules.Ready.mono hfires.2.1
    (Rules.knows_subset _ (Finset.Subset.refl _) (List.subset_append_left _ _))

theorem nodup_insert_before {pre l : List Service} {s : Service} (h : (pre ++ [s]).Nodup)
    (hl : l.Nodup) (hs : s ∉ l) : ((pre ++ beyond pre l) ++ [s]).Nodup := by
  obtain ⟨hpre, _, hspre⟩ := List.nodup_append.mp h
  refine List.nodup_append.mpr ⟨List.nodup_append.mpr ⟨hpre, hl.filter _, ?_⟩,
    List.nodup_singleton s, ?_⟩
  · intro r hr r' hr' heq
    exact (mem_beyond.mp hr').2 (heq ▸ hr)
  · intro r hr r' hr' heq
    rw [List.mem_singleton.mp hr'] at heq
    rcases List.mem_append.mp hr with hr | hr
    · exact hspre r hr s List.mem_cons_self heq
    · exact hs (heq ▸ (mem_beyond.mp hr).1)

theorem servers_ne_nil {l : List Service} {q : Service} (hq : q ∈ l) (hgrpc : q.grpc.isSome) :
    servers inj (installLog inj app l) ≠ [] := by
  rw [← map_fst_installLog inj app l] at hq
  obtain ⟨x, hx, rfl⟩ := List.mem_map.mp hq
  obtain ⟨server, hserver⟩ := Option.isSome_iff_exists.mp hgrpc
  apply @List.ne_nil_of_mem _ (server, inj.construct x.1.ty x.2)
  exact List.mem_filterMap.mpr ⟨x, hx, by rw [hserver]; rfl⟩

/-- Some order installs a copy of the routes before a gRPC service, and another one after it and
all that came before in the first. -/
theorem not_orderIndependent_of_copy (hlaws : RoutesLaws inj)
    (hnodup : (services.map Service.ty).Nodup)
    (hfree : ∀ s, Installable inj app services s → ¬ app.hasComponent s.ty) {s q : Service}
    (hs : s ∈ services) (hcopy : .routesBuilder ∈ s.copies) (hq : q ∈ services)
    (hgrpc : q.grpc.isSome) (hne : q ≠ s) (hranked : ¬ Ranked inj app services s q) :
    ¬ OrderIndependent inj app services := by
  unfold Ranked at hranked
  simp only [not_or, not_not] at hranked
  have hdistinct := List.Nodup.of_map _ hnodup
  obtain ⟨pre, hfront, hsub, hpre, hlegal⟩ := exists_order_without hdistinct hranked.1
  obtain ⟨preq, hfrontq, hsubq, hpreq, hlegalq⟩ := exists_order_without hdistinct hranked.2
  have hqmore : q ∈ beyond pre (preq ++ [q]) :=
    mem_beyond.mpr ⟨by simp, fun hmem => hpre q hmem q.ty_mem_gives⟩
  have hsq : s ∉ preq ++ [q] := by
    intro hmem
    rcases List.mem_append.mp hmem with hmem | hmem
    · exact hpreq s hmem s.ty_mem_gives
    · exact hne (List.mem_singleton.mp hmem).symm
  have hsub' : pre ++ beyond pre (preq ++ [q]) ⊆ services := by
    refine List.append_subset.mpr ⟨hsub, fun r hr => ?_⟩
    rcases List.mem_append.mp (mem_beyond.mp hr).1 with hr | hr
    · exact hsubq hr
    · rwa [List.mem_singleton.mp hr]
  have hlegal' := hlegal.insert_before hlegalq
  obtain ⟨l, order, out, hperm, hout, hinstalls, hlogged⟩ :=
    exists_call hnodup hfree hs hfront hsub hlegal
  obtain ⟨l', order', out', hperm', hout', hinstalls', hlogged'⟩ :=
    exists_call hnodup hfree hs (nodup_insert_before hfront hfrontq hsq) hsub' hlegal'
  intro hindependent
  have hsame := (hindependent l hperm).1 l' hperm'
  rw [hout, hout'] at hsame
  have hfields := List.inj_on_of_nodup_map
    (by rw [hinstalls'.installed_map]; exact List.Nodup.of_map _ hinstalls'.nodup)
    ((hsame.2.1 _).mp hlogged) hlogged' rfl
  have hroutes := getComponent_eq_of_fieldsOf_eq hlegal hlegal' hcopy (Prod.mk.inj hfields).2
  rw [installAll_append, @getComponent_routes _ _ _ _ (installAll inj app pre)] at hroutes
  exact hlaws.foldl_ne (servers_ne_nil hqmore hgrpc) _ hroutes.symm

/-- A call whose installable services find their types taken panics. -/
theorem autoInjectService_panics {l : List Service} (hl : l.Perm services)
    (hnodup : (services.map Service.ty).Nodup)
    (htaken : ∃ s, Installable inj app services s ∧ app.hasComponent s.ty) :
    ∃ p, autoInjectService inj app l = .error p := by
  apply injectLoop_panics inj app.config (keys app) l app [] rfl rfl
  · exact ((hl.map Service.ty).nodup_iff).mpr hnodup
  · obtain ⟨s, hs, hhas⟩ := htaken
    refine ⟨s, ?_, hhas⟩
    rw [Rules.mem_rounds_fired, derivable_iff_installable, installable_perm hl]
    exact hs

end

/-- Services of distinct types, as no type implements `Service` twice: the order leaves no
trace exactly when some installable service finds its type taken, which is a panic in every
order, or when the fields of the installable services are settled. -/
theorem orderIndependent_iff (inj : Injection V C) (hlaws : RoutesLaws inj)
    (app : AppBuilder V C T) (services : List Service)
    (hnodup : (services.map Service.ty).Nodup) :
    OrderIndependent inj app services ↔
      (∃ s, Installable inj app services s ∧ app.hasComponent s.ty) ∨
        ∀ s, Installable inj app services s → FieldsSettled inj app services s := by
  by_cases htaken : ∃ s, Installable inj app services s ∧ app.hasComponent s.ty
  · refine iff_of_true ?_ (Or.inl htaken)
    intro l hl
    obtain ⟨p, hp⟩ := autoInjectService_panics hl hnodup htaken
    constructor
    · intro l' hl'
      obtain ⟨p', hp'⟩ := autoInjectService_panics hl' hnodup htaken
      rw [hp, hp']
      trivial
    · intro out hout
      rw [hp] at hout
      cases hout
  · have hfree : ∀ s, Installable inj app services s → ¬ app.hasComponent s.ty :=
      fun s hs hhas => htaken ⟨s, hs, hhas⟩
    rw [or_iff_right htaken]
    constructor
    · intro h s hs
      constructor
      · intro ty hty
        by_contra hsettled
        obtain ⟨l, out, hl, hout, hunfilled⟩ := exists_unfilled hnodup hfree hs hty hsettled
        exact hunfilled ((h l hl).2 out hout)
      · intro hcopy q hq hgrpc hne
        by_contra hranked
        exact not_orderIndependent_of_copy hlaws hnodup hfree hs.1 hcopy hq.1 hgrpc hne hranked h
    · intro hsettled l hl
      exact ⟨fun l' hl' => sameOutcome_of_settled hlaws hl hl' hnodup hfree hsettled,
        fun out hout => optionalsFilled_of_settled hl hnodup hfree hsettled hout⟩

namespace Sample

/-- The optional component of `UserWithOptionalComponentService`. -/
def optionalUserService : Service :=
  .new 3 none [{ fieldName := "db", ty := .component true (.concrete 1) }]

theorem routesLaws : RoutesLaws injection where
  comm := fun routes p v q w => by simp only [injection]; omega
  grows := ⟨id, fun routes p v => by simp only [injection, id_eq]; omega⟩

theorem optionalUser_first :
    InstallOrder injection registry [optionalUserService, databaseService] :=
  fires_iff_installOrder.mp ⟨by decide, by decide, trivial⟩

theorem optionalUser_installable :
    Installable injection registry [optionalUserService, databaseService] optionalUserService :=
  optionalUser_first.installable (List.Subset.refl _) List.mem_cons_self

/-- Nothing but the order decides whether the user service comes before the database. -/
theorem optionalUser_unsettled :
    ¬ Settled injection registry [optionalUserService, databaseService] optionalUserService
      (.concrete 1) := by
  intro hsettled
  rcases hsettled with happ | havail | hwithout
  · exact absurd happ (by decide)
  · have hdatabase : databaseService ∈ [optionalUserService, databaseService] :=
      List.mem_cons_of_mem _ List.mem_cons_self
    exact havail (optionalUser_first.available (List.Subset.refl _) hdatabase (by decide))
  · have hsplit : [optionalUserService, databaseService] =
      [] ++ optionalUserService :: [databaseService] := rfl
    obtain ⟨q, hq, _⟩ := optionalUser_first.exists_giver (List.Subset.refl _) hsplit hwithout
    cases hq

def grpcServices : List Service := [routesService, greeterService, databaseService]

/-- The only service with a copy of the routes waits for the only gRPC service. -/
theorem grpcServices_settled {s : Service} (hs : s ∈ grpcServices) :
    FieldsSettled injection registry grpcServices s := by
  have hoptionals : ∀ s ∈ grpcServices, s.optionals = [] := by decide
  have hcopies : ∀ s ∈ grpcServices, .routesBuilder ∈ s.copies → s = routesService := by decide
  have hservers : ∀ q ∈ grpcServices, q.grpc.isSome → q = greeterService := by decide
  refine ⟨fun ty hty => ?_, fun hcopy q hq hgrpc hne => Or.inl fun hwithout => ?_⟩
  · rw [hoptionals s hs] at hty
    cases hty
  · obtain rfl := hcopies s hs hcopy
    obtain rfl := hservers q hq.1 hgrpc
    have hroutes := derives_iff_available.mpr (hwithout.1 .routesBuilder (by decide))
    have hknown : Sum.inl TypeId.routesBuilder ∈ ({Sum.inl (.concrete 1)} : Finset Key) :=
      hroutes.mem_of_closed (by decide) (by decide)
    exact absurd hknown (by decide)

end Sample

/-- The optional user service with its database, and a service that looks at the gRPC servers. -/
theorem orderIndependent_iff_sample :
    ¬ OrderIndependent Sample.injection Sample.registry
        [Sample.optionalUserService, Sample.databaseService] ∧
      OrderIndependent Sample.injection Sample.registry Sample.grpcServices := by
  constructor
  · rw [orderIndependent_iff Sample.injection Sample.routesLaws Sample.registry
      [Sample.optionalUserService, Sample.databaseService] (by decide)]
    intro h
    rcases h with ⟨s, _, hhas⟩ | hsettled
    · exact AList.notMem_empty _ hhas
    · exact Sample.optionalUser_unsettled
        ((hsettled _ Sample.optionalUser_installable).optionals _ (by decide))
  · rw [orderIndependent_iff Sample.injection Sample.routesLaws Sample.registry
      Sample.grpcServices (by decide)]
    exact Or.inr fun s hs => Sample.grpcServices_settled hs.1

/-- The service with the optional component may come before the component. -/
theorem optional_before_component :
    ¬ OrderIndependent Sample.injection Sample.registry
        [Sample.optionalUserService, Sample.databaseService] ∧
      ∃ l out, l.Perm [Sample.optionalUserService, Sample.databaseService] ∧
        autoInjectService Sample.injection Sample.registry l = .ok out ∧
        ¬ OptionalsFilled out := by
  obtain ⟨l, out, hl, hout, hunfilled⟩ := exists_unfilled (by decide)
    (fun _ _ => AList.notMem_empty _) Sample.optionalUser_installable (by decide)
    Sample.optionalUser_unsettled
  exact ⟨fun h => hunfilled ((h l hl).2 out hout), l, out, hl, hout, hunfilled⟩

end Summer
