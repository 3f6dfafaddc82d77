/-
What the component registry holds after any operations on the builder, and in the application
built from it.

On the value of a type every operation acts as `ComponentOp.effect` says, whatever the other
types hold (`getComponent_apply`).  From it follow the laws of a whole run
(`registry_laws`).
-/
import Mathlib.Data.List.Flatten
import Summer.App.Components

namespace Summer

variable {k : ComponentTypes} {C T : Type}

namespace ComponentOp

/-- The type that an operation adds to. -/
def target : ComponentOp k → Option ComponentTy
  | .addComponent t _ => some t
  | .addRouter _ => some .routers
  | .addRouterLayer _ => some .routerLayers
  | .addJob _ | .addJobs _ => some .jobs
  | .addConsumer _ => some .consumers
  | .lookup _ _ => none

/-- What an operation makes of the value of a type: a value is put where there is none, and
an adder appends to one that is there. -/
def effect (op : ComponentOp k) (t : ComponentTy) (current : Option (t.Val k)) :
    Option (t.Val k) :=
  match op, t, current with
  | .addComponent t' component, t, current =>
    if h : t' = t then current.or (some (h ▸ component)) else current
  | .addRouter router, .routers, current => some (current.getD [] ++ [router])
  | .addRouterLayer layer, .routerLayers, current => some (current.getD [] ++ [layer])
  | .addJob job, .jobs, current => some (current.getD [] ++ [job])
  | .addJobs newJobs, .jobs, current => some (current.getD [] ++ newJobs)
  | .addConsumer newConsumers, .consumers, current => some (current.getD [] ++ newConsumers)
  | _, _, current => current

/-! What an operation adds to each aggregate. -/

def routers : ComponentOp k → List k.Router
  | .addComponent .routers routers => routers
  | .addRouter router => [router]
  | _ => []

def routerLayers : ComponentOp k → List (k.Router → k.Router)
  | .addComponent .routerLayers layers => layers
  | .addRouterLayer layer => [layer]
  | _ => []

def jobs : ComponentOp k → List k.Job
  | .addComponent .jobs jobs => jobs
  | .addJob job => [job]
  | .addJobs newJobs => newJobs
  | _ => []

def consumers : ComponentOp k → List k.Consumer
  | .addComponent .consumers consumers => consumers
  | .addConsumer newConsumers => newConsumers
  | _ => []

end ComponentOp

theorem pushAll_eq {α : Type} (items newItems : List α) :
    pushAll items newItems = items ++ newItems := by
  unfold pushAll
  induction newItems generalizing items with
  | nil => rw [List.foldl_nil, List.append_nil]
  | cons item rest ih => rw [List.foldl_cons, ih, List.append_assoc, List.singleton_append]

namespace ComponentBuilder

variable {typeName : TypeId → String} {s : ComponentBuilder k C T}

/-! ## Adding and growing -/

theorem addComponent_taken {t : ComponentTy} (h : s.registry.hasComponent t)
    (component : t.Val k) :
    s.addComponent typeName t component = (s, .panicked (.componentAdded (typeName t.typeId))) := by
  have herror : s.app.addComponent typeName t.typeId { addr := s.cells.length } =
      .error (.componentAdded (typeName t.typeId)) := if_pos h
  unfold addComponent
  rw [herror]

theorem addComponent_free {t : ComponentTy} (h : ¬ s.registry.hasComponent t)
    (component : t.Val k) :
    s.addComponent typeName t component =
      ({ app := { s.app with
            components := s.app.components.insert t.typeId { addr := s.cells.length } }
         cells := s.cells ++ [⟨t, component⟩] }, .done) := by
  have hok : s.app.addComponent typeName t.typeId { addr := s.cells.length } =
      .ok { s.app with
        components := s.app.components.insert t.typeId { addr := s.cells.length } } := if_neg h
  unfold addComponent
  rw [hok]

theorem typed_addComponent (h : s.registry.Typed) (t : ComponentTy) (component : t.Val k) :
    (s.addComponent typeName t component).1.registry.Typed := by
  by_cases hhas : s.registry.hasComponent t
  · rw [addComponent_taken hhas]
    exact h
  · rw [addComponent_free hhas]
    intro t' ref href
    show ((s.cells ++ [⟨t, component⟩] : Cells (ComponentTy.Val k)).read ref.addr t').isSome
    by_cases ht : t' = t
    · subst ht
      rw [show ref = { addr := s.cells.length } from
        (Option.some.inj ((AList.lookup_insert _).symm.trans href)).symm, Cells.read_append_self]
      rfl
    · have hold : s.registry.components.lookup t'.typeId = some ref :=
        (AList.lookup_insert_ne (mt ComponentTy.typeId_inj.mp ht)).symm.trans href
      have hlt : ref.addr < s.cells.length := Cells.lt_of_read (h t' ref hold)
      rw [Cells.read_append hlt]
      exact h t' ref hold

theorem getComponent_addComponent_self (h : s.registry.Typed) {t : ComponentTy}
    (hfree : ¬ s.registry.hasComponent t) (component : t.Val k) :
    (s.addComponent typeName t component).1.registry.getComponent t = some component := by
  rw [(typed_addComponent h t component).getComponent, addComponent_free hfree]
  show ((s.app.components.insert t.typeId { addr := s.cells.length }).lookup t.typeId).bind _ = _
  rw [AList.lookup_insert, Option.bind_some]
  exact Cells.read_append_self s.cells t component

theorem getComponent_addComponent_ne (h : s.registry.Typed) {t t' : ComponentTy} (ht : t' ≠ t)
    (component : t.Val k) :
    (s.addComponent typeName t component).1.registry.getComponent t' =
      s.registry.getComponent t' := by
  by_cases hhas : s.registry.hasComponent t
  · rw [addComponent_taken hhas]
  · rw [(typed_addComponent h t component).getComponent, h.getComponent, addComponent_free hhas]
    show ((s.app.components.insert t.typeId { addr := s.cells.length }).lookup t'.typeId).bind _ = _
    rw [AList.lookup_insert_ne (mt ComponentTy.typeId_inj.mp ht)]
    show (s.registry.components.lookup t'.typeId).bind _ = _
    cases href : s.registry.components.lookup t'.typeId with
    | none => rfl
    | some ref => exact Cells.read_append (Cells.lt_of_read (h t' ref href)) _ _

theorem typed_grow (h : s.registry.Typed) {t : ComponentTy} (ref : ComponentRef t)
    (f : t.Val k → t.Val k) : (s.grow ref f).registry.Typed := by
  intro t' ref' href
  exact (Cells.isSome_read_update _ _ _ _ _ f).mpr (h t' ref' href)

/-- The reference leads to the one cell that the lookup of the type reads. -/
theorem getComponent_grow_self (h : s.registry.Typed) {t : ComponentTy} {ref : ComponentRef t}
    (href : s.registry.getComponentRef t = some ref) (f : t.Val k → t.Val k) :
    (s.grow ref f).registry.getComponent t = (s.registry.getComponent t).map f := by
  rw [(typed_grow h ref f).getComponent, h.getComponent]
  rw [h.getComponentRef, Option.map_eq_some_iff] at href
  obtain ⟨dyn, hdyn, rfl⟩ := href
  show (s.registry.components.lookup t.typeId).bind _ = _
  rw [hdyn, Option.bind_some, Option.bind_some]
  exact Cells.read_update_self s.cells dyn.addr t f

theorem getComponent_grow_ne (h : s.registry.Typed) {t t' : ComponentTy} (ht : t' ≠ t)
    (ref : ComponentRef t) (f : t.Val k → t.Val k) :
    (s.grow ref f).registry.getComponent t' = s.registry.getComponent t' := by
  rw [(typed_grow h ref f).getComponent, h.getComponent]
  show (s.registry.components.lookup t'.typeId).bind _ = _
  cases s.registry.components.lookup t'.typeId with
  | none => rfl
  | some dyn => exact Cells.read_update_ne s.cells ht f

/-- An adder never panics: what has no reference has no key. -/
theorem growOrAdd_done (h : s.registry.Typed) (t : ComponentTy) (f : t.Val k → t.Val k)
    (component : t.Val k) : (s.growOrAdd typeName t f component).2 = .done := by
  unfold growOrAdd
  cases href : s.registry.getComponentRef t with
  | some ref => rfl
  | none =>
      have hfree : ¬ s.registry.hasComponent t := by
        rw [h.has_iff_ref, href]
        exact Bool.false_ne_true
      simp only [addComponent_free hfree]

theorem typed_growOrAdd (h : s.registry.Typed) (t : ComponentTy) (f : t.Val k → t.Val k)
    (component : t.Val k) : (s.growOrAdd typeName t f component).1.registry.Typed := by
  unfold growOrAdd
  cases s.registry.getComponentRef t with
  | some ref => exact typed_grow h ref f
  | none => exact typed_addComponent h t component

theorem getComponent_growOrAdd_self (h : s.registry.Typed) (t : ComponentTy)
    (f : t.Val k → t.Val k) (component : t.Val k) :
    (s.growOrAdd typeName t f component).1.registry.getComponent t =
      some ((s.registry.getComponent t).elim component f) := by
  unfold growOrAdd
  cases href : s.registry.getComponentRef t with
  | some ref =>
      have hsome : (s.registry.getComponent t).isSome := by
        rw [← h.has_iff_value, h.has_iff_ref, href]
        rfl
      obtain ⟨v, hv⟩ := Option.isSome_iff_exists.mp hsome
      show (s.grow ref f).registry.getComponent t = _
      rw [getComponent_grow_self h href, hv]
      rfl
  | none =>
      have hfree : ¬ s.registry.hasComponent t := by
        rw [h.has_iff_ref, href]
        exact Bool.false_ne_true
      have hnone : s.registry.getComponent t = none := by
        rw [← Option.not_isSome_iff_eq_none, ← h.has_iff_value]
        exact hfree
      show (s.addComponent typeName t component).1.registry.getComponent t = _
      rw [getComponent_addComponent_self h hfree, hnone]
      rfl

theorem getComponent_growOrAdd_ne (h : s.registry.Typed) {t t' : ComponentTy} (ht : t' ≠ t)
    (f : t.Val k → t.Val k) (component : t.Val k) :
    (s.growOrAdd typeName t f component).1.registry.getComponent t' =
      s.registry.getComponent t' := by
  unfold growOrAdd
  cases s.registry.getComponentRef t with
  | some ref => exact getComponent_grow_ne h ht ref f
  | none => exact getComponent_addComponent_ne h ht component

/-! ## One operation -/

theorem typed_apply (h : s.registry.Typed) (op : ComponentOp k) :
    (s.apply typeName op).1.registry.Typed := by
  cases op with
  | addComponent t component => exact typed_addComponent h t component
  | addRouter router => exact typed_growOrAdd h _ _ _
  | addRouterLayer layer => exact typed_growOrAdd h _ _ _
  | addJob job => exact typed_growOrAdd h _ _ _
  | addJobs newJobs => exact typed_growOrAdd h _ _ _
  | addConsumer newConsumers => exact typed_growOrAdd h _ _ _
  | lookup t how => exact h

theorem effect_of_target_ne {op : ComponentOp k} {t : ComponentTy} (h : op.target ≠ some t)
    (current : Option (t.Val k)) : op.effect t current = current := by
  cases op with
  | addComponent t' component => exact dif_neg fun ht => h (congrArg some ht)
  | lookup t' how => rfl
  | _ => cases t <;> first | rfl | exact absurd rfl h

theorem effect_addComponent (t : ComponentTy) (component : t.Val k)
    (current : Option (t.Val k)) :
    (ComponentOp.addComponent t component).effect t current = current.or (some component) :=
  dif_pos rfl

theorem elim_push {α : Type} (current : Option (List α)) (items : List α) :
    current.elim items (fun l => l ++ items) = current.getD [] ++ items := by
  cases current <;> rfl

theorem elim_pushAll {α : Type} (current : Option (List α)) (items : List α) :
    current.elim items (fun l => pushAll l items) = current.getD [] ++ items := by
  cases current with
  | none => rfl
  | some l => exact pushAll_eq l items

/-- An adder acts on the value of its type as its effect says. -/
theorem getComponent_adder (h : s.registry.Typed) {op : ComponentOp k} {t : ComponentTy}
    {f : t.Val k → t.Val k} {component : t.Val k}
    (hop : s.apply typeName op = s.growOrAdd typeName t f component)
    (htarget : op.target = some t)
    (heffect : ∀ current, op.effect t current = some (current.elim component f))
    (t' : ComponentTy) :
    (s.apply typeName op).1.registry.getComponent t' =
      op.effect t' (s.registry.getComponent t') := by
  rw [hop]
  by_cases ht : t' = t
  · subst ht
    rw [heffect]
    exact getComponent_growOrAdd_self h t' f component
  · have hne : op.target ≠ some t' := fun heq => ht (Option.some.inj (heq.symm.trans htarget))
    rw [effect_of_target_ne hne]
    exact getComponent_growOrAdd_ne h ht f component

/-- The component added first stays. -/
theorem getComponent_addComponent (h : s.registry.Typed) {t : ComponentTy}
    (component : t.Val k) :
    (s.addComponent typeName t component).1.registry.getComponent t =
      (s.registry.getComponent t).or (some component) := by
  by_cases hhas : s.registry.hasComponent t
  · rw [addComponent_taken hhas]
    obtain ⟨v, hv⟩ := Option.isSome_iff_exists.mp (h.has_iff_value.mp hhas)
    rw [hv]
    rfl
  · rw [getComponent_addComponent_self h hhas]
    rw [h.has_iff_value, Option.not_isSome_iff_eq_none] at hhas
    rw [hhas]
    rfl

theorem getComponent_apply (h : s.registry.Typed) (op : ComponentOp k) (t : ComponentTy) :
    (s.apply typeName op).1.registry.getComponent t =
      op.effect t (s.registry.getComponent t) := by
  cases op with
  | addComponent t' component =>
      by_cases ht : t' = t
      · subst ht
        rw [effect_addComponent]
        exact getComponent_addComponent h component
      · have hne : (ComponentOp.addComponent t' component).target ≠ some t :=
          fun heq => ht (Option.some.inj heq)
        rw [effect_of_target_ne hne]
        exact getComponent_addComponent_ne h (Ne.symm ht) component
  | addRouter router =>
      have heffect : ∀ c, (ComponentOp.addRouter router).effect .routers c =
          some (c.elim [router] fun l => l ++ [router]) := fun c =>
        congrArg some (elim_push c [router]).symm
      exact getComponent_adder h rfl rfl heffect t
  | addRouterLayer layer =>
      have heffect : ∀ c, (ComponentOp.addRouterLayer layer).effect .routerLayers c =
          some (c.elim [layer] fun l => l ++ [layer]) := fun c =>
        congrArg some (elim_push c [layer]).symm
      exact getComponent_adder h rfl rfl heffect t
  | addJob job =>
      have heffect : ∀ c, (ComponentOp.addJob job).effect .jobs c =
          some (c.elim [job] fun l => l ++ [job]) := fun c =>
        congrArg some (elim_push c [job]).symm
      exact getComponent_adder h rfl rfl heffect t
  | addJobs newJobs =>
      have heffect : ∀ c, (ComponentOp.addJobs newJobs).effect .jobs c =
          some (c.elim newJobs fun l => pushAll l newJobs) := fun c =>
        congrArg some (elim_pushAll c newJobs).symm
      exact getComponent_adder h rfl rfl heffect t
  | addConsumer newConsumers =>
      have heffect : ∀ c, (ComponentOp.addConsumer newConsumers).effect .consumers c =
          some (c.elim newConsumers fun l => pushAll l newConsumers) := fun c =>
        congrArg some (elim_pushAll c newConsumers).symm
      exact getComponent_adder h rfl rfl heffect t
  | lookup t' how => rfl

/-- A reference to a component stays the one that the lookup returns. -/
theorem getComponentRef_apply (h : s.registry.Typed) (op : ComponentOp k) {t : ComponentTy}
    {ref : ComponentRef t} (href : s.registry.getComponentRef t = some ref) :
    (s.apply typeName op).1.registry.getComponentRef t = some ref := by
  rw [(typed_apply h op).getComponentRef]
  rw [h.getComponentRef, Option.map_eq_some_iff] at href
  obtain ⟨dyn, hdyn, rfl⟩ := href
  have hadd : ∀ (t' : ComponentTy) (component : t'.Val k),
      (s.addComponent typeName t' component).1.registry.components.lookup t.typeId = some dyn := by
    intro t' component
    by_cases hhas : s.registry.hasComponent t'
    · rw [addComponent_taken hhas]
      exact hdyn
    · rw [addComponent_free hhas]
      have hne : t.typeId ≠ t'.typeId := by
        intro heq
        apply hhas
        show t'.typeId ∈ s.registry.components
        rw [← heq, ← AList.lookup_isSome, hdyn]
        rfl
      exact (AList.lookup_insert_ne hne).trans hdyn
  have hgrow : ∀ (t' : ComponentTy) (f : t'.Val k → t'.Val k) (component : t'.Val k),
      (s.growOrAdd typeName t' f component).1.registry.components.lookup t.typeId = some dyn := by
    intro t' f component
    unfold growOrAdd
    cases s.registry.getComponentRef t' with
    | some ref => exact hdyn
    | none => exact hadd t' component
  have hlookup : (s.apply typeName op).1.registry.components.lookup t.typeId = some dyn := by
    cases op with
    | addComponent t' component => exact hadd t' component
    | lookup t' how => exact hdyn
    | _ => exact hgrow _ _ _
  rw [hlookup]
  rfl

/-- An operation that adds is refused only where there is a component already. -/
theorem isPanic_apply (h : s.registry.Typed) {op : ComponentOp k} {t : ComponentTy}
    (ht : op.target = some t) :
    (s.apply typeName op).2.isPanic = true ↔
      (∃ component, op = .addComponent t component) ∧ s.registry.hasComponent t := by
  cases op with
  | addComponent t' component =>
      obtain rfl := Option.some.inj ht
      show (s.addComponent typeName t' component).2.isPanic = true ↔ _
      by_cases hhas : s.registry.hasComponent t'
      · rw [addComponent_taken hhas]
        exact iff_of_true rfl ⟨⟨component, rfl⟩, hhas⟩
      · rw [addComponent_free hhas]
        exact iff_of_false Bool.false_ne_true fun hboth => hhas hboth.2
  | lookup t' how => cases ht
  | _ =>
      refine iff_of_false ?_ (fun hboth => absurd hboth.1 (by simp))
      show (growOrAdd typeName s _ _ _).2.isPanic ≠ true
      rw [growOrAdd_done h]
      exact Bool.false_ne_true

/-! ## Runs -/

theorem typed_run (h : s.registry.Typed) (ops : List (ComponentOp k)) :
    (s.run typeName ops).registry.Typed := by
  induction ops generalizing s with
  | nil => exact h
  | cons op rest ih => exact ih (typed_apply h op)

theorem getComponentRef_run (h : s.registry.Typed) {t : ComponentTy} {ref : ComponentRef t}
    (href : s.registry.getComponentRef t = some ref) (ops : List (ComponentOp k)) :
    (s.run typeName ops).registry.getComponentRef t = some ref := by
  induction ops generalizing s with
  | nil => exact href
  | cons op rest ih => exact ih (typed_apply h op) (getComponentRef_apply h op href)

theorem effect_of_not_grows (op : ComponentOp k) {t : ComponentTy} (ht : t.grows = false)
    (component : t.Val k) : op.effect t (some component) = some component := by
  cases op with
  | addComponent t' other =>
      by_cases hself : t' = t
      · subst hself
        exact effect_addComponent t' other (some component)
      · exact dif_neg hself
  | lookup t' how => rfl
  | _ => cases t <;> first | rfl | cases ht

theorem getComponent_run (h : s.registry.Typed) {t : ComponentTy} (ht : t.grows = false)
    {component : t.Val k} (hvalue : s.registry.getComponent t = some component)
    (ops : List (ComponentOp k)) :
    (s.run typeName ops).registry.getComponent t = some component := by
  induction ops generalizing s with
  | nil => exact hvalue
  | cons op rest ih =>
      refine ih (typed_apply h op) ?_
      rw [getComponent_apply h, hvalue]
      exact effect_of_not_grows op ht component

/-- What is there after an operation was there before, or has been added by it. -/
theorem hasComponent_apply (h : s.registry.Typed) (op : ComponentOp k) (t : ComponentTy) :
    (s.apply typeName op).1.registry.hasComponent t ↔
      s.registry.hasComponent t ∨
        ((s.apply typeName op).2.isPanic = false ∧ op.target = some t) := by
  rw [(typed_apply h op).has_iff_value, getComponent_apply h]
  by_cases htarget : op.target = some t
  · have hpanic := @isPanic_apply k C T typeName s h op t htarget
    by_cases hhas : s.registry.hasComponent t
    · refine iff_of_true ?_ (.inl hhas)
      obtain ⟨v, hv⟩ := Option.isSome_iff_exists.mp (h.has_iff_value.mp hhas)
      rw [hv]
      cases op with
      | addComponent t' component =>
          obtain rfl := Option.some.inj htarget
          rw [effect_addComponent]
          rfl
      | lookup t' how => rfl
      | _ =>
          obtain rfl := Option.some.inj htarget
          rfl
    · have hdone : (s.apply typeName op).2.isPanic = false := by
        rw [← Bool.not_eq_true, hpanic]
        exact fun hboth => hhas hboth.2
      refine iff_of_true ?_ (.inr ⟨hdone, htarget⟩)
      cases op with
      | addComponent t' component =>
          obtain rfl := Option.some.inj htarget
          rw [effect_addComponent]
          cases s.registry.getComponent t' <;> rfl
      | lookup t' how => cases htarget
      | _ =>
          obtain rfl := Option.some.inj htarget
          rfl
  · rw [effect_of_target_ne htarget, ← h.has_iff_value]
    exact (or_iff_left fun hboth => htarget hboth.2).symm

theorem hasComponent_run (h : s.registry.Typed) (ops : List (ComponentOp k)) (t : ComponentTy) :
    (s.run typeName ops).registry.hasComponent t ↔
      s.registry.hasComponent t ∨ ∃ op ∈ s.accepted typeName ops, op.target = some t := by
  induction ops generalizing s with
  | nil => exact (or_iff_left fun hnone => by simp [accepted] at hnone).symm
  | cons op rest ih =>
      have hrest := @ih (s.apply typeName op).1 (typed_apply h op)
      rw [show s.run typeName (op :: rest) = (s.apply typeName op).1.run typeName rest from rfl,
        hrest, hasComponent_apply h, accepted, or_assoc]
      refine or_congr_right ?_
      cases (s.apply typeName op).2.isPanic <;> simp

/-! ## Aggregates -/

/-- A component that adders append to: its items, and what each operation adds to them. -/
structure Aggregate (k : ComponentTypes) (t : ComponentTy) (α : Type) where
  view : t.Val k → List α
  items : ComponentOp k → List α
  items_add : ∀ component, items (.addComponent t component) = view component
  items_other : ∀ op, op.target ≠ some t → items op = []
  effect_view : ∀ op current, (∀ component, op ≠ .addComponent t component) → op.target = some t →
    (op.effect t current).elim [] view = current.elim [] view ++ items op

def Aggregate.routers : Aggregate k .routers k.Router where
  view := id
  items := ComponentOp.routers
  items_add := fun _ => rfl
  items_other := by
    intro op hop
    cases op with
    | addComponent t component => cases t <;> first | rfl | exact absurd rfl hop
    | addRouter router => exact absurd rfl hop
    | _ => rfl
  effect_view := by
    intro op current hop htarget
    cases op with
    | addComponent t component =>
        obtain rfl := Option.some.inj htarget
        exact absurd rfl (hop component)
    | addRouter router => cases current <;> rfl
    | _ => cases htarget

def Aggregate.routerLayers : Aggregate k .routerLayers (k.Router → k.Router) where
  view := id
  items := ComponentOp.routerLayers
  items_add := fun _ => rfl
  items_other := by
    intro op hop
    cases op with
    | addComponent t component => cases t <;> first | rfl | exact absurd rfl hop
    | addRouterLayer layer => exact absurd rfl hop
    | _ => rfl
  effect_view := by
    intro op current hop htarget
    cases op with
    | addComponent t component =>
        obtain rfl := Option.some.inj htarget
        exact absurd rfl (hop component)
    | addRouterLayer layer => cases current <;> rfl
    | _ => cases htarget

def Aggregate.jobs : Aggregate k .jobs k.Job where
  view := id
  items := ComponentOp.jobs
  items_add := fun _ => rfl
  items_other := by
    intro op hop
    cases op with
    | addComponent t component => cases t <;> first | rfl | exact absurd rfl hop
    | addJob job => exact absurd rfl hop
    | addJobs newJobs => exact absurd rfl hop
    | _ => rfl
  effect_view := by
    intro op current hop htarget
    cases op with
    | addComponent t component =>
        obtain rfl := Option.some.inj htarget
        exact absurd rfl (hop component)
    | addJob job => cases current <;> rfl
    | addJobs newJobs => cases current <;> rfl
    | _ => cases htarget

def Aggregate.consumers : Aggregate k .consumers k.Consumer where
  view := id
  items := ComponentOp.consumers
  items_add := fun _ => rfl
  items_other := by
    intro op hop
    cases op with
    | addComponent t component => cases t <;> first | rfl | exact absurd rfl hop
    | addConsumer newConsumers => exact absurd rfl hop
    | _ => rfl
  effect_view := by
    intro op current hop htarget
    cases op with
    | addComponent t component =>
        obtain rfl := Option.some.inj htarget
        exact absurd rfl (hop component)
    | addConsumer newConsumers => cases current <;> rfl
    | _ => cases htarget

namespace Aggregate

variable {α : Type} {t : ComponentTy} (agg : Aggregate k t α)

/-- The items there, none if there is no component. -/
def content (s : ComponentBuilder k C T) : List α :=
  (s.registry.getComponent t).elim [] agg.view

/-- An operation that goes through appends its items, one that panics nothing. -/
theorem content_apply (h : s.registry.Typed) (op : ComponentOp k) :
    agg.content (s.apply typeName op).1 =
      agg.content s ++ if (s.apply typeName op).2.isPanic then [] else agg.items op := by
  unfold content
  rw [getComponent_apply h]
  by_cases htarget : op.target = some t
  · have hpanic := @isPanic_apply k C T typeName s h op t htarget
    by_cases hop : ∃ component, op = .addComponent t component
    · obtain ⟨component, rfl⟩ := hop
      rw [effect_addComponent]
      by_cases hhas : s.registry.hasComponent t
      · rw [if_pos (hpanic.mpr ⟨⟨component, rfl⟩, hhas⟩), List.append_nil]
        obtain ⟨v, hv⟩ := Option.isSome_iff_exists.mp (h.has_iff_value.mp hhas)
        rw [hv]
        rfl
      · rw [if_neg (fun heq => hhas (hpanic.mp heq).2), agg.items_add]
        rw [h.has_iff_value, Option.not_isSome_iff_eq_none] at hhas
        rw [hhas]
        rfl
    · rw [if_neg (fun heq => hop (hpanic.mp heq).1)]
      exact agg.effect_view op _ (fun component heq => hop ⟨component, heq⟩) htarget
  · rw [effect_of_target_ne htarget, agg.items_other op htarget, ite_self, List.append_nil]

theorem content_run (h : s.registry.Typed) (ops : List (ComponentOp k)) :
    agg.content (s.run typeName ops) =
      agg.content s ++ (s.accepted typeName ops).flatMap agg.items := by
  induction ops generalizing s with
  | nil => exact (List.append_nil _).symm
  | cons op rest ih =>
      have hrest := @ih (s.apply typeName op).1 (typed_apply h op)
      rw [show s.run typeName (op :: rest) = (s.apply typeName op).1.run typeName rest from rfl,
        hrest, content_apply agg h, accepted, List.flatMap_append, List.append_assoc]
      cases (s.apply typeName op).2.isPanic <;> simp

end Aggregate

/-! ## The laws -/

/-- The registries that can be looked up after a run. -/
def registries (s : ComponentBuilder k C T) : List (ComponentRegistry k) :=
  [s.registry, s.buildApp.registry]

/-- What holds after a run of operations, in the builder and in the application built then. -/
structure RegistryLaws (typeName : TypeId → String) (start : ComponentBuilder k C T)
    (ops : List (ComponentOp k)) : Prop where
  typed : ∀ reg ∈ registries (start.run typeName ops), ∀ t ref,
    reg.components.lookup (ComponentTy.typeId t) = some ref →
      ∃ component, reg.cells[ref.addr]? = some ⟨t, component⟩
  has_iff : ∀ reg ∈ registries (start.run typeName ops), ∀ t,
    reg.hasComponent t ↔ (reg.getComponentRef t).isSome
  refused : ∀ t component, (start.run typeName ops).registry.hasComponent t →
    (start.run typeName ops).apply typeName (.addComponent t component) =
      (start.run typeName ops, .panicked (.componentAdded (typeName t.typeId)))
  returned : ∀ t component more, ¬ (start.run typeName ops).registry.hasComponent t →
    ∃ ref, ∀ reg ∈ registries
        (start.run typeName (ops ++ .addComponent t component :: more)),
      reg.getComponentRef t = some ref ∧
        (t.grows = false → reg.getComponent t = some component)
  added : ∀ t, (start.run typeName ops).registry.hasComponent t ↔
    start.registry.hasComponent t ∨ ∃ op ∈ start.accepted typeName ops, op.target = some t
  routers : ∀ reg ∈ registries (start.run typeName ops), (reg.getComponent .routers).getD [] =
    (start.accepted typeName ops).flatMap ComponentOp.routers
  routerLayers : ∀ reg ∈ registries (start.run typeName ops),
    (reg.getComponent .routerLayers).getD [] =
      (start.accepted typeName ops).flatMap ComponentOp.routerLayers
  jobs : ∀ reg ∈ registries (start.run typeName ops), (reg.getComponent .jobs).getD [] =
    (start.accepted typeName ops).flatMap ComponentOp.jobs
  consumers : ∀ reg ∈ registries (start.run typeName ops), (reg.getComponent .consumers).getD [] =
    (start.accepted typeName ops).flatMap ComponentOp.consumers

/-- `build_app` moves the map, so both are looked up alike. -/
theorem mem_registries {reg : ComponentRegistry k} (h : reg ∈ registries s) : reg = s.registry := by
  unfold registries at h
  rcases List.mem_cons.mp h with h | h
  · exact h
  · exact List.mem_singleton.mp h

theorem run_append (ops more : List (ComponentOp k)) :
    s.run typeName (ops ++ more) = (s.run typeName ops).run typeName more :=
  List.foldl_append

theorem typed_default (base : AppBuilder DynComponentRef C T) (bus : k.EventBus) :
    (default typeName base bus).registry.Typed := by
  refine typed_addComponent ?_ _ _
  intro t ref href
  cases href

theorem content_default {α : Type} {t : ComponentTy} (agg : Aggregate k t α) (ht : t.grows = true)
    (base : AppBuilder DynComponentRef C T) (bus : k.EventBus) :
    agg.content (default typeName base bus) = [] := by
  unfold Aggregate.content default
  rw [getComponent_addComponent_ne (by nofun) (by rintro rfl; cases ht)]
  rfl

theorem concat_of_content {t : ComponentTy} {α : Type} {base : AppBuilder DynComponentRef C T}
    {bus : k.EventBus} {ops : List (ComponentOp k)} (agg : Aggregate k t α) (ht : t.grows = true) :
    agg.content ((default typeName base bus).run typeName ops) =
      ((default typeName base bus).accepted typeName ops).flatMap agg.items := by
  rw [agg.content_run (typed_default base bus), content_default agg ht, List.nil_append]

theorem elim_id {α : Type} (current : Option (List α)) : current.elim [] id = current.getD [] := by
  cases current <;> rfl

/-- The component added is there, under a reference that stays. -/
theorem returned_of_free (h : s.registry.Typed) {t : ComponentTy}
    (hfree : ¬ s.registry.hasComponent t) (component : t.Val k) (more : List (ComponentOp k)) :
    ∃ ref,
      (s.run typeName (.addComponent t component :: more)).registry.getComponentRef t = some ref ∧
      (t.grows = false →
        (s.run typeName (.addComponent t component :: more)).registry.getComponent t =
          some component) := by
  have htyped := @typed_addComponent k C T typeName s h t component
  have hvalue := @getComponent_addComponent_self k C T typeName s h t hfree component
  have hsome : ((s.addComponent typeName t component).1.registry.getComponentRef t).isSome := by
    rw [← htyped.has_iff_ref, htyped.has_iff_value, hvalue]
    rfl
  obtain ⟨ref, href⟩ := Option.isSome_iff_exists.mp hsome
  exact ⟨ref, getComponentRef_run htyped href more,
    fun ht => getComponent_run htyped ht hvalue more⟩

/-- For every sequence of operations on a new builder: the laws of the registry hold, in the
builder and in the application built from it. -/
theorem registry_laws (typeName : TypeId → String) (base : AppBuilder DynComponentRef C T)
    (bus : k.EventBus) (ops : List (ComponentOp k)) :
    RegistryLaws typeName (default typeName base bus) ops := by
  have hstart := @typed_default k C T typeName base bus
  have htyped := @typed_run k C T typeName _ hstart ops
  constructor
  · intro reg hreg t ref href
    rw [mem_registries hreg] at href ⊢
    obtain ⟨component, hread⟩ := Option.isSome_iff_exists.mp (htyped t ref href)
    exact ⟨component, Cells.read_eq_some.mp hread⟩
  · intro reg hreg t
    rw [mem_registries hreg]
    exact htyped.has_iff_ref
  · intro t component hhas
    exact addComponent_taken hhas component
  · intro t component more hfree
    obtain ⟨ref, href, hvalue⟩ :=
      @returned_of_free k C T typeName _ htyped t hfree component more
    refine ⟨ref, fun reg hreg => ?_⟩
    rw [mem_registries hreg, run_append]
    exact ⟨href, hvalue⟩
  · exact hasComponent_run hstart ops
  · intro reg hreg
    rw [mem_registries hreg, ← elim_id]
    exact concat_of_content Aggregate.routers rfl
  · intro reg hreg
    rw [mem_registries hreg, ← elim_id]
    exact concat_of_content Aggregate.routerLayers rfl
  · intro reg hreg
    rw [mem_registries hreg, ← elim_id]
    exact concat_of_content Aggregate.jobs rfl
  · intro reg hreg
    rw [mem_registries hreg, ← elim_id]
    exact concat_of_content Aggregate.consumers rfl

end ComponentBuilder

end Summer
