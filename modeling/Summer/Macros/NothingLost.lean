/-
What the `middlewares` macro loses.

The routing attributes stripped are compared with what their macros register when they
stand alone, and the `middlewares` attributes stripped with the layers of the generated
code.  Nothing is lost exactly when the expansion fails or when every accepted route is a
bare one and no `middlewares` attribute with an expression goes unread
(`nothingLost_iff`).
-/
import Summer.Lib.Matching
import Summer.Macros.Middlewares

namespace Summer.Macros

variable {E : Type}

def functionsOf : Input → List ItemFn
  | .fn function => [function]
  | .mod module => (module.content.getD []).filterMap fun
    | .fn function => some function
    | .other _ => none
  | .other _ => []

/-- The attributes stripped, each with its function. -/
def stripped (input : Input) : List (ItemFn × Attribute) :=
  (functionsOf input).flatMap fun function =>
    (function.attrs.filter isRouteAttr).map fun attr => (function, attr)

/-- The expressions of a `middlewares` attribute. -/
def exprsOf (syn : Syn E) (attr : Attribute) : List E :=
  match attr.parseArgs (middlewareList syn) with
  | .ok middlewares => middlewares
  | .error _ => []

/-- The middlewares that the generated code applies to the routes of a function. -/
def layersRead (syn : Syn E) (args : TokenStream) (input : Input) (function : ItemFn) : List E :=
  match input with
  | .fn _ => (syn.parseExprs args).getD []
  | _ => ((function.attrs.filter isMiddlewares).take 1).flatMap (exprsOf syn)

/-- Those of the `middlewares` attributes that are stripped without being read. -/
def layersUnread (syn : Syn E) (input : Input) (function : ItemFn) : List E :=
  match input with
  | .fn _ => (function.attrs.filter isMiddlewares).flatMap (exprsOf syn)
  | _ => ((function.attrs.filter isMiddlewares).drop 1).flatMap (exprsOf syn)

/-- The middlewares due to the routes of a function: those of the `middlewares` attributes
stripped from it, and those of the macro itself where it is attached to the function. -/
def layersDue (syn : Syn E) (args : TokenStream) (input : Input) (function : ItemFn) : List E :=
  match input with
  | .fn _ => (syn.parseExprs args).getD [] ++
      (function.attrs.filter isMiddlewares).flatMap (exprsOf syn)
  | _ => (function.attrs.filter isMiddlewares).flatMap (exprsOf syn)

/-- A route with the middlewares due to it. -/
structure DueRoute (E : Type) where
  handler : String
  path : String
  methods : Finset Method
  layers : List E

/-- The same path with the same set of methods, behind all middlewares due. -/
structure Meets (due : DueRoute E) (registration : Registration E) : Prop where
  handler : registration.handler = due.handler
  path : registration.path = due.path
  methods : registration.methods.toFinset = due.methods.image Method.upper
  layers : due.layers.Subperm registration.layers

/-- The route that a stripped attribute registers when it stands alone. -/
def dueRoute (syn : Syn E) (args : TokenStream) (input : Input)
    (x : ItemFn × Attribute) : Option (DueRoute E) :=
  (acceptedRoute syn x.2).map fun route =>
    { handler := x.1.ident,
      path := route.1,
      methods := route.2,
      layers := layersDue syn args input x.1 }

/-- The expansion fails, or every stripped attribute that its macro accepts has a
registration of its own, and so has every route of a stripped `routes` or `api_routes`. -/
def NothingLost (syn : Syn E) (args : TokenStream) (input : Input) : Prop :=
  ∀ out, middlewaresInner syn args input = .ok out →
    (∃ kept, kept.Subperm out.registrations ∧
      List.Forall₂ Meets ((stripped input).filterMap (dueRoute syn args input)) kept) ∧
    ∀ x ∈ stripped input, routingMacro x.2 = some .many →
      ∀ collected, methodsArgs syn x.1.attrs = .ok collected → ∀ a ∈ collected,
        ∃ registration ∈ out.registrations,
          Meets { handler := x.1.ident, path := a.path, methods := a.methods,
                  layers := layersDue syn args input x.1 } registration

def StatusCodesFormed (syn : Syn E) (function : ItemFn) : Prop :=
  ∀ code ∈ (parseDocAttributes (Route.docAttributesOf function.attrs) function.ident).statusCodes,
    statusCodeFormed syn code = true

/-- The expansion succeeds, said of its input. -/
def Expands (syn : Syn E) (args : TokenStream) (input : Input) : Prop :=
  args ≠ [] ∧ (syn.parseExprs args).isSome ∧
    (∀ function ∈ functionsOf input, ∀ attr ∈ function.attrs, (bareRoute attr).isSome →
      isOpenapiAttr attr = true → StatusCodesFormed syn function) ∧
    match input with
    | .fn function => ∃ attr ∈ function.attrs, (bareRoute attr).isSome
    | .mod module => module.content ≠ none ∧ ∀ function ∈ functionsOf (.mod module),
        ∃ middlewares, extractFunctionMiddlewares syn function.attrs = .ok middlewares
    | .other _ => False

/-! ## Lists of fallible steps -/

theorem forall₂_of_mapM {ε α β : Type} {f : α → Except ε β} {l : List α} {out : List β}
    (h : l.mapM f = .ok out) : List.Forall₂ (fun x y => f x = .ok y) l out := by
  induction l generalizing out with
  | nil =>
      cases h
      exact .nil
  | cons x rest ih =>
      rw [List.mapM_cons] at h
      cases hx : f x with
      | error e =>
          rw [hx] at h
          cases h
      | ok y =>
          rw [hx] at h
          cases hrest : rest.mapM f with
          | error e =>
              rw [hrest] at h
              cases h
          | ok ys =>
              rw [hrest] at h
              cases h
              exact .cons hx (ih hrest)

theorem exists_mapM_iff {ε α β : Type} {f : α → Except ε β} {l : List α} :
    (∃ out, l.mapM f = .ok out) ↔ ∀ x ∈ l, ∃ y, f x = .ok y := by
  constructor
  · intro h x hx
    obtain ⟨out, hout⟩ := h
    obtain ⟨i, hi, rfl⟩ := List.getElem_of_mem hx
    obtain ⟨hlen, hall⟩ := List.forall₂_iff_get.mp (forall₂_of_mapM hout)
    exact ⟨_, hall i hi (hlen ▸ hi)⟩
  · intro h
    induction l with
    | nil => exact ⟨[], rfl⟩
    | cons x rest ih =>
        obtain ⟨y, hy⟩ := h x List.mem_cons_self
        obtain ⟨ys, hys⟩ := ih fun z hz => h z (List.mem_cons_of_mem _ hz)
        exact ⟨y :: ys, by rw [List.mapM_cons, hy, hys]; rfl⟩

/-! ## The registrations generated -/

def registrationOf (route : RouteInfo E) (layers : List E) : Registration E where
  path := route.path
  methods := route.methods
  handler := route.funcName
  layers := layers
  operations := if route.isOpenapi then operationBinders route else []

/-- The registration generated for a stripped attribute. -/
def generated (syn : Syn E) (args : TokenStream) (input : Input)
    (x : ItemFn × Attribute) : Option (Registration E) :=
  (processRouteAttribute x.2 x.1.ident (layersRead syn args input x.1)
    (Route.docAttributesOf x.1.attrs)).map fun route =>
      registrationOf route (layersRead syn args input x.1).reverse

theorem buildStatusCodeGen_ok_iff {syn : Syn E} {route : RouteInfo E} :
    buildStatusCodeGen syn route = .ok () ↔
      ∀ code ∈ (parseDocAttributes route.docAttributes route.funcName).statusCodes,
        statusCodeFormed syn code = true := by
  unfold buildStatusCodeGen
  cases hfind : (parseDocAttributes route.docAttributes route.funcName).statusCodes.find?
      (fun code => !statusCodeFormed syn code) with
  | none =>
      have hall := List.find?_eq_none.mp hfind
      simp only [true_iff]
      intro code hcode
      simpa using hall code hcode
  | some code =>
      have hbad := List.find?_some hfind
      have hmem := List.mem_of_find?_eq_some hfind
      have hnot : ¬ ∀ code ∈ (parseDocAttributes route.docAttributes route.funcName).statusCodes,
          statusCodeFormed syn code = true := by
        intro hall
        rw [hall code hmem] at hbad
        cases hbad
      simp only [hnot, iff_false]
      split <;> simp

theorem registrationWith_ok_iff {syn : Syn E} {route : RouteInfo E} {layers : List E}
    {registration : Registration E} :
    registrationWith syn route layers = .ok registration ↔
      (route.isOpenapi = true → buildStatusCodeGen syn route = .ok ()) ∧
        registration = registrationOf route layers := by
  unfold registrationWith registrationOf
  cases hopenapi : route.isOpenapi with
  | false => simp [eq_comm]
  | true =>
      cases hcodes : buildStatusCodeGen syn route with
      | error e => simp
      | ok u => simp [eq_comm]

theorem mapM_registrationWith {syn : Syn E} {layers : RouteInfo E → List E}
    {routes : List (RouteInfo E)} {out : List (Registration E)}
    (h : (routes.mapM fun route => registrationWith syn route (layers route)) = .ok out) :
    out = routes.map fun route => registrationOf route (layers route) := by
  have hall := (forall₂_of_mapM h).imp fun route registration hroute =>
    (registrationWith_ok_iff.mp hroute).2
  have hmap := List.forall₂_map_right_iff.mpr hall.flip
  rwa [List.forall₂_eq_eq_eq] at hmap

theorem isRouteAttr_of_bare {attr : Attribute} (h : (bareRoute attr).isSome) :
    isRouteAttr attr = true := by
  obtain ⟨r, hr⟩ := Option.isSome_iff_exists.mp h
  have hmethod := (bareRoute_eq_some.mp hr).1
  unfold attrToHttpMethod at hmethod
  obtain ⟨d, hd, _⟩ := Option.bind_eq_some_iff.mp hmethod
  exact Option.isSome_of_eq_some hd

theorem isRouteAttr_of_accepted {syn : Syn E} {attr : Attribute}
    (h : (acceptedRoute syn attr).isSome) : isRouteAttr attr = true := by
  cases hrouting : routingMacro attr with
  | some r => exact isRouteAttr_of_routingMacro hrouting
  | none =>
      unfold acceptedRoute at h
      rw [hrouting] at h
      cases h

theorem generated_isSome {syn : Syn E} {args : TokenStream} {input : Input}
    {x : ItemFn × Attribute} :
    (generated syn args input x).isSome = (bareRoute x.2).isSome := by
  unfold generated
  rw [processRouteAttribute_eq, Option.isSome_map, Option.isSome_map]

/-- What is none on other attributes can be collected before stripping. -/
theorem filterMap_stripped {β : Type} {f : ItemFn × Attribute → Option β} {input : Input}
    (hf : ∀ x, (f x).isSome → isRouteAttr x.2 = true) :
    (stripped input).filterMap f =
      (functionsOf input).flatMap fun function =>
        function.attrs.filterMap fun attr => f (function, attr) := by
  unfold stripped
  rw [List.filterMap_flatMap]
  congr 1
  funext function
  rw [List.filterMap_map, List.filterMap_filter]
  congr 1
  funext attr
  by_cases hroute : isRouteAttr attr = true
  · rw [if_pos hroute]
    rfl
  · rw [if_neg hroute]
    cases hx : f (function, attr) with
    | none => rfl
    | some b => exact absurd (hf _ (Option.isSome_of_eq_some hx)) hroute

theorem extractFunctionMiddlewares_ok {syn : Syn E} {attrs : List Attribute}
    {middlewares : List E} (h : extractFunctionMiddlewares syn attrs = .ok middlewares) :
    middlewares = ((attrs.filter isMiddlewares).take 1).flatMap (exprsOf syn) := by
  unfold extractFunctionMiddlewares at h
  rw [← List.head?_filter] at h
  cases hfilter : attrs.filter isMiddlewares with
  | nil =>
      rw [hfilter] at h
      cases h
      rfl
  | cons attr rest =>
      rw [hfilter] at h
      simp only [List.head?_cons] at h
      simp only [List.take_succ_cons, List.take_zero, List.flatMap_cons, List.flatMap_nil,
        List.append_nil, exprsOf, h]

/-- The routes that the attributes of a function yield in a module. -/
def routesOf (syn : Syn E) (module : ItemMod) (function : ItemFn) : List (RouteInfo E) :=
  function.attrs.filterMap fun attr =>
    processRouteAttribute attr function.ident (layersRead syn [] (.mod module) function)
      (Route.docAttributesOf function.attrs)

theorem collectItem_routes {syn : Syn E} {module : ItemMod} {function : ItemFn}
    {out : List (RouteInfo E) × Item} (h : collectItem syn (.fn function) = .ok out) :
    out.1 = routesOf syn module function := by
  cases hextract : extractFunctionMiddlewares syn function.attrs with
  | error e =>
      simp only [collectItem, hextract] at h
      cases h
  | ok middlewares =>
      simp only [collectItem, hextract, Except.ok.injEq] at h
      subst h
      have hread : middlewares = layersRead syn [] (.mod module) function :=
        extractFunctionMiddlewares_ok hextract
      simp only [extractAndFilterRouteAttrs, List.filterMap_filter, routesOf, ← hread]
      congr 1
      funext attr
      by_cases hroute : isRouteAttr attr = true
      · rw [if_pos hroute]
      · rw [if_neg hroute, processRouteAttribute_eq]
        cases hbare : bareRoute attr with
        | none => rfl
        | some r => exact absurd (isRouteAttr_of_bare (Option.isSome_of_eq_some hbare)) hroute

theorem collectItems_routes {syn : Syn E} {module : ItemMod} {items : List Item}
    {collected : List (List (RouteInfo E) × Item)}
    (h : List.Forall₂ (fun item out => collectItem syn item = .ok out) items collected) :
    collected.flatMap Prod.fst =
      (functionsOf (.mod { module with content := some items })).flatMap
        (routesOf syn module) := by
  induction h with
  | nil => rfl
  | @cons item out rest outs hitem _ ih =>
      rw [List.flatMap_cons, ih]
      cases item with
      | other text =>
          cases hitem
          rfl
      | fn function =>
          rw [@collectItem_routes E syn module function out hitem]
          rfl

/-! ## When the expansion succeeds, and with which registrations -/

theorem middlewaresInner_ok_iff {syn : Syn E} {args : TokenStream} {input : Input}
    {out : Expansion E} :
    middlewaresInner syn args input = .ok out ↔
      args ≠ [] ∧ ∃ middlewares, syn.parseExprs args = some middlewares ∧
        match input with
        | .fn function => handleFunctionMiddlewares syn middlewares function = .ok out
        | .mod module => handleModuleMiddlewares syn middlewares module = .ok out
        | .other _ => False := by
  unfold middlewaresInner
  cases args with
  | nil => simp
  | cons token rest =>
      cases hparse : syn.parseExprs (token :: rest) with
      | none => simp [parseAll, middlewareList, hparse]
      | some middlewares => cases input <;> simp [parseAll, middlewareList, hparse]

/-- The routes of the bare attributes of a function, for which OpenAPI code is generated
from the documentation of the function. -/
theorem registrationWith_collected {syn : Syn E} {function : ItemFn} {middlewares layers : List E}
    {attr : Attribute} {route : RouteInfo E}
    (h : processRouteAttribute attr function.ident middlewares
      (Route.docAttributesOf function.attrs) = some route) :
    (∃ registration, registrationWith syn route layers = .ok registration) ↔
      (isOpenapiAttr attr = true → StatusCodesFormed syn function) := by
  rw [processRouteAttribute_eq] at h
  obtain ⟨r, _, rfl⟩ := Option.map_eq_some_iff.mp h
  simp only [registrationWith_ok_iff, buildStatusCodeGen_ok_iff, exists_and_left, exists_eq,
    and_true, StatusCodesFormed]
  refine forall_congr' fun hopenapi => ?_
  rw [if_pos hopenapi]

theorem mem_routes_registers {syn : Syn E} {function : ItemFn} {middlewares : List E}
    {layers : RouteInfo E → List E} :
    (∀ route ∈ function.attrs.filterMap fun attr =>
        processRouteAttribute attr function.ident middlewares
          (Route.docAttributesOf function.attrs),
        ∃ registration, registrationWith syn route (layers route) = .ok registration) ↔
      ∀ attr ∈ function.attrs, (bareRoute attr).isSome → isOpenapiAttr attr = true →
        StatusCodesFormed syn function := by
  constructor
  · intro h attr hattr hbare
    obtain ⟨r, hr⟩ := Option.isSome_iff_exists.mp hbare
    have hroute := @processRouteAttribute_eq E attr function.ident middlewares
      (Route.docAttributesOf function.attrs)
    rw [hr, Option.map_some] at hroute
    exact (registrationWith_collected hroute).mp
      (h _ (List.mem_filterMap.mpr ⟨attr, hattr, hroute⟩))
  · intro h route hmem
    obtain ⟨attr, hattr, hroute⟩ := List.mem_filterMap.mp hmem
    refine (registrationWith_collected hroute).mpr (h attr hattr ?_)
    rw [processRouteAttribute_eq] at hroute
    obtain ⟨r, hr, _⟩ := Option.map_eq_some_iff.mp hroute
    exact Option.isSome_of_eq_some hr

theorem handleFunctionMiddlewares_ok {syn : Syn E} {middlewares : List E} {function : ItemFn}
    {out : Expansion E} (h : handleFunctionMiddlewares syn middlewares function = .ok out) :
    out.registrations = (extractRouteInfoFromFunction function).map
      fun route => registrationOf route middlewares.reverse := by
  unfold handleFunctionMiddlewares at h
  simp only at h
  split at h
  · cases h
  · cases hregister : (extractRouteInfoFromFunction function).mapM
        (generateFunctionRouteRegistration syn middlewares.reverse) with
    | error e =>
        rw [hregister] at h
        cases h
    | ok registrations =>
        rw [hregister] at h
        cases h
        exact mapM_registrationWith hregister

theorem extractRouteInfo_isEmpty {function : ItemFn} :
    (extractRouteInfoFromFunction (E := E) function).isEmpty = false ↔
      ∃ attr ∈ function.attrs, (bareRoute attr).isSome := by
  rw [Bool.eq_false_iff, ne_eq, List.isEmpty_iff, extractRouteInfoFromFunction,
    List.filterMap_eq_nil_iff]
  simp only [processRouteAttribute_eq, Option.map_eq_none_iff, not_forall, exists_prop,
    Option.isSome_iff_ne_none, ne_eq]

theorem exists_handleFunctionMiddlewares_iff {syn : Syn E} {middlewares : List E}
    {function : ItemFn} :
    (∃ out, handleFunctionMiddlewares syn middlewares function = .ok out) ↔
      (∀ attr ∈ function.attrs, (bareRoute attr).isSome → isOpenapiAttr attr = true →
        StatusCodesFormed syn function) ∧
      ∃ attr ∈ function.attrs, (bareRoute attr).isSome := by
  rw [← extractRouteInfo_isEmpty (E := E), ← @mem_routes_registers E syn function []
    (fun _ => middlewares.reverse)]
  unfold handleFunctionMiddlewares
  cases hempty : (extractRouteInfoFromFunction (E := E) function).isEmpty with
  | true =>
      simp only [hempty, if_true, reduceCtorEq, exists_false, Bool.true_eq_false, and_false]
  | false =>
      have hmapM := @exists_mapM_iff _ _ _
        (generateFunctionRouteRegistration syn middlewares.reverse)
        (extractRouteInfoFromFunction function)
      simp only [hempty, Bool.false_eq_true, if_false, and_true]
      refine Iff.trans ?_ hmapM
      cases (extractRouteInfoFromFunction function).mapM
          (generateFunctionRouteRegistration syn middlewares.reverse) with
      | error e => simp
      | ok registrations => simp

theorem handleModuleMiddlewares_ok {syn : Syn E} {middlewares : List E} {module : ItemMod}
    {out : Expansion E} (h : handleModuleMiddlewares syn middlewares module = .ok out) :
    out.registrations = ((functionsOf (.mod module)).flatMap (routesOf syn module)).map
      fun route => registrationOf route route.functionMiddlewares.reverse := by
  unfold handleModuleMiddlewares collectAndStripRouteInfo at h
  cases hcontent : module.content with
  | none =>
      simp only [hcontent, List.mapM_nil, pure, Except.pure, if_true] at h
      cases h
  | some items =>
      cases hcollect : items.mapM (collectItem syn) with
      | error e =>
          simp only [hcontent, hcollect] at h
          cases h
      | ok collected =>
          simp only [hcontent, hcollect, reduceCtorEq, if_false] at h
          have hroutes := @collectItems_routes E syn module items collected
            (forall₂_of_mapM hcollect)
          rw [← hcontent] at hroutes
          cases hregister : (collected.flatMap Prod.fst).mapM (generateRouteRegistration syn) with
          | error e =>
              rw [hregister] at h
              cases h
          | ok registrations =>
              rw [hregister] at h
              cases h
              rw [mapM_registrationWith hregister, hroutes]

theorem exists_collectItem_iff {syn : Syn E} {item : Item} :
    (∃ out, collectItem syn item = .ok out) ↔
      ∀ function, item = .fn function →
        ∃ middlewares, extractFunctionMiddlewares syn function.attrs = .ok middlewares := by
  cases item with
  | other text => simp [collectItem]
  | fn function =>
      simp only [collectItem, Item.fn.injEq, forall_eq']
      cases extractFunctionMiddlewares syn function.attrs with
      | error e => simp
      | ok middlewares => simp

theorem exists_collectItems_iff {syn : Syn E} {module : ItemMod} {items : List Item}
    (hcontent : module.content = some items) :
    (∃ collected, items.mapM (collectItem syn) = .ok collected) ↔
      ∀ function ∈ functionsOf (.mod module),
        ∃ middlewares, extractFunctionMiddlewares syn function.attrs = .ok middlewares := by
  have hmem : ∀ function, function ∈ functionsOf (.mod module) ↔ .fn function ∈ items := by
    intro function
    simp only [functionsOf, hcontent, Option.getD_some, List.mem_filterMap]
    constructor
    · intro h
      obtain ⟨item, hitem, heq⟩ := h
      cases item with
      | other text => cases heq
      | fn function' =>
          cases heq
          exact hitem
    · intro h
      exact ⟨_, h, rfl⟩
  rw [exists_mapM_iff]
  simp only [exists_collectItem_iff, hmem]
  constructor
  · intro h function hfunction
    exact h _ hfunction function rfl
  · intro h item hitem function heq
    exact h function (heq ▸ hitem)

theorem exists_handleModuleMiddlewares_iff {syn : Syn E} {middlewares : List E}
    {module : ItemMod} :
    (∃ out, handleModuleMiddlewares syn middlewares module = .ok out) ↔
      (∀ function ∈ functionsOf (.mod module), ∀ attr ∈ function.attrs,
        (bareRoute attr).isSome → isOpenapiAttr attr = true → StatusCodesFormed syn function) ∧
      module.content ≠ none ∧ ∀ function ∈ functionsOf (.mod module),
        ∃ middlewares, extractFunctionMiddlewares syn function.attrs = .ok middlewares := by
  unfold handleModuleMiddlewares collectAndStripRouteInfo
  cases hcontent : module.content with
  | none => simp [hcontent, pure, Except.pure]
  | some items =>
      have hcollects := @exists_collectItems_iff E syn module items hcontent
      cases hcollect : items.mapM (collectItem syn) with
      | error e =>
          simp only [hcollect, reduceCtorEq, exists_false, false_iff] at hcollects ⊢
          exact fun h => hcollects h.2.2
      | ok collected =>
          simp only [hcollect, Except.ok.injEq, exists_eq', true_iff] at hcollects
          have hroutes := @collectItems_routes E syn module items collected
            (forall₂_of_mapM hcollect)
          rw [← hcontent] at hroutes
          have hmapM := @exists_mapM_iff _ _ _ (generateRouteRegistration syn)
            (collected.flatMap Prod.fst)
          simp only [hcollect, ne_eq, reduceCtorEq, not_false_iff, true_and, if_false]
          rw [and_iff_left hcollects]
          refine Iff.trans ?_ (hmapM.trans ?_)
          · cases (collected.flatMap Prod.fst).mapM (generateRouteRegistration syn) with
            | error e => simp
            | ok registrations => simp
          · rw [hroutes]
            simp only [List.mem_flatMap, forall_exists_index, and_imp]
            constructor
            · intro h function hfunction
              exact mem_routes_registers.mp fun route hroute => h route function hfunction hroute
            · intro h route function hfunction hroute
              exact (@mem_routes_registers E syn function _
                fun route => route.functionMiddlewares.reverse).mpr (h function hfunction) route
                hroute

theorem expands_iff {syn : Syn E} {args : TokenStream} {input : Input} :
    (∃ out, middlewaresInner syn args input = .ok out) ↔ Expands syn args input := by
  simp only [middlewaresInner_ok_iff, Expands, exists_and_left]
  refine and_congr_right fun _ => ?_
  rw [Option.isSome_iff_exists]
  cases input with
  | other text => simp
  | fn function =>
      have hhandle := @exists_handleFunctionMiddlewares_iff E syn
      simp only [functionsOf, List.mem_singleton, forall_eq]
      rw [exists_comm]
      simp only [exists_and_left, hhandle]
      rw [exists_and_right]
  | mod module =>
      have hhandle := @exists_handleModuleMiddlewares_iff E syn
      rw [exists_comm]
      simp only [exists_and_left, hhandle]
      rw [exists_and_right]

/-- The registrations of an expansion are those of the bare attributes stripped. -/
theorem registrations_eq {syn : Syn E} {args : TokenStream} {input : Input} {out : Expansion E}
    (h : middlewaresInner syn args input = .ok out) :
    out.registrations = (stripped input).filterMap (generated syn args input) := by
  rw [filterMap_stripped fun x hx => isRouteAttr_of_bare (generated_isSome ▸ hx)]
  obtain ⟨_, middlewares, hparse, hhandle⟩ := middlewaresInner_ok_iff.mp h
  cases input with
  | other text => exact absurd hhandle not_false
  | mod module =>
      rw [handleModuleMiddlewares_ok hhandle, List.map_flatMap]
      congr 1
      funext function
      simp only [routesOf, List.map_filterMap]
      congr 1
      funext attr
      simp only [generated, processRouteAttribute_eq, Option.map_map, layersRead]
      rfl
  | fn function =>
      rw [handleFunctionMiddlewares_ok hhandle]
      simp only [functionsOf, List.flatMap_cons, List.flatMap_nil, List.append_nil,
        extractRouteInfoFromFunction, List.map_filterMap]
      congr 1
      funext attr
      simp only [generated, processRouteAttribute_eq, Option.map_map, layersRead, hparse,
        Option.getD_some]
      rfl

/-! ## Attributes against registrations -/

theorem layersDue_eq (syn : Syn E) (args : TokenStream) (input : Input) (function : ItemFn) :
    layersDue syn args input function =
      layersRead syn args input function ++ layersUnread syn input function := by
  cases input with
  | fn _ => rfl
  | _ =>
      simp only [layersDue, layersRead, layersUnread]
      rw [← List.flatMap_append, List.take_append_drop]

theorem generated_of_bare {syn : Syn E} {args : TokenStream} {input : Input}
    {x : ItemFn × Attribute} (h : (bareRoute x.2).isSome) :
    ∃ due registration, dueRoute syn args input x = some due ∧
      generated syn args input x = some registration ∧
      due.layers = layersDue syn args input x.1 ∧
      registration.layers = (layersRead syn args input x.1).reverse ∧
      registration.handler = due.handler ∧ registration.path = due.path ∧
      registration.methods.toFinset = due.methods.image Method.upper := by
  obtain ⟨r, hr⟩ := Option.isSome_iff_exists.mp h
  obtain ⟨m, hupper, haccepted⟩ := @acceptedRoute_of_bare E syn x.2 r.1 r.2 hr
  unfold dueRoute generated
  rw [haccepted, processRouteAttribute_eq, hr]
  refine ⟨_, _, rfl, rfl, rfl, rfl, rfl, rfl, ?_⟩
  simp only [registrationOf, List.toFinset_cons, List.toFinset_nil, insert_empty_eq,
    Finset.image_singleton, hupper]

theorem dueRoute_isSome {syn : Syn E} {args : TokenStream} {input : Input}
    {x : ItemFn × Attribute} :
    (dueRoute syn args input x).isSome = (acceptedRoute syn x.2).isSome := by
  unfold dueRoute
  rw [Option.isSome_map]

theorem mem_stripped {input : Input} {function : ItemFn} {attr : Attribute}
    (hfunction : function ∈ functionsOf input) (hattr : attr ∈ function.attrs)
    (hroute : isRouteAttr attr = true) : (function, attr) ∈ stripped input :=
  List.mem_flatMap.mpr ⟨function, hfunction,
    List.mem_map_of_mem (List.mem_filter.mpr ⟨hattr, hroute⟩)⟩

theorem of_mem_stripped {input : Input} {x : ItemFn × Attribute} (h : x ∈ stripped input) :
    x.1 ∈ functionsOf input ∧ x.2 ∈ x.1.attrs := by
  obtain ⟨function, hfunction, hx⟩ := List.mem_flatMap.mp h
  obtain ⟨attr, hattr, rfl⟩ := List.mem_map.mp hx
  exact ⟨hfunction, (List.mem_filter.mp hattr).1⟩

/-- A registration weighs at most what is due to its attribute. -/
theorem weight_generated_le {syn : Syn E} {args : TokenStream} {input : Input}
    (x : ItemFn × Attribute) :
    Matching.weight (fun r => 1 + r.layers.length) (generated syn args input x) ≤
      Matching.weight (fun d => 1 + d.layers.length) (dueRoute syn args input x) := by
  cases hbare : bareRoute x.2 with
  | none =>
      have hnone : generated syn args input x = none := by
        rw [← Option.not_isSome_iff_eq_none, generated_isSome, hbare]
        exact Bool.false_ne_true
      rw [hnone]
      exact Nat.zero_le _
  | some r =>
      obtain ⟨due, registration, hdue, hgenerated, hlayers, hread, _⟩ :=
        @generated_of_bare E syn args input x (Option.isSome_of_eq_some hbare)
      rw [hdue, hgenerated]
      simp only [Matching.weight, hlayers, hread, layersDue_eq, List.length_reverse,
        List.length_append]
      omega

/-- An attribute that `routes` collects is itself an accepted route. -/
theorem acceptedRoute_of_methodArgs {syn : Syn E} {attr : Attribute} {method : Method}
    (hpath : attr.path = .ident method.lower) {args : Args}
    (h : methodArgs syn (method, attr) = .ok args) :
    acceptedRoute syn attr = some (args.path, args.methods) := by
  have hrouting : routingMacro attr = some (.one (some method)) := by
    rw [@routingMacro_congr attr ⟨.path (.ident method.lower)⟩ hpath]
    cases method <;> decide
  unfold methodArgs at h
  cases hparse : attr.parseArgs (RouteArgs.parse syn) with
  | error e =>
      simp only [hparse] at h
      cases h
  | ok routeArgs =>
      simp only [hparse] at h
      obtain ⟨p, tokens, hcontent, htokens⟩ := Attribute.parseArgs_ok_iff.mp hparse
      have hmacroArgs : attr.macroArgs = some tokens := by
        unfold Attribute.macroArgs
        rw [hcontent]
      have haccepts : Args.ofTokens syn (some method) tokens = .ok args := by
        unfold Args.ofTokens
        rw [parseAll_ok_iff.mpr htokens]
        exact Args.checked_eq_new h
      unfold acceptedRoute
      simp only [hrouting, hmacroArgs, haccepts]

/-- What `routes` would register comes from the method attributes of the function. -/
theorem exists_attr_of_methodsArgs {syn : Syn E} {attrs : List Attribute} {collected : List Args}
    (h : methodsArgs syn attrs = .ok collected) {a : Args} (ha : a ∈ collected) :
    ∃ attr ∈ attrs, acceptedRoute syn attr = some (a.path, a.methods) := by
  unfold methodsArgs at h
  cases hmapM : (methodAttrs attrs).mapM (methodArgs syn) with
  | error e =>
      rw [hmapM] at h
      cases h
  | ok args =>
      have hcollected : args = collected := by
        rw [hmapM] at h
        cases args with
        | nil => cases h
        | cons first rest => exact Except.ok.inj h
      subst hcollected
      obtain ⟨i, hi, rfl⟩ := List.getElem_of_mem ha
      obtain ⟨hlen, hall⟩ := List.forall₂_iff_get.mp (forall₂_of_mapM hmapM)
      have hargs := hall i (hlen.symm ▸ hi) hi
      have hmem : (methodAttrs attrs).get ⟨i, hlen.symm ▸ hi⟩ ∈ methodAttrs attrs :=
        List.get_mem _ _
      obtain ⟨attr, hattr, hsome⟩ := List.mem_filterMap.mp hmem
      obtain ⟨method, hmethod, heq⟩ := Option.map_eq_some_iff.mp hsome
      rw [← heq] at hargs
      exact ⟨attr, hattr, acceptedRoute_of_methodArgs (Method.fromPath_eq_some hmethod) hargs⟩

/-- The attributes of the functions lose nothing in the generated code. -/
def Kept (syn : Syn E) (input : Input) : Prop :=
  ∀ function ∈ functionsOf input,
    (∀ attr ∈ function.attrs, (acceptedRoute syn attr).isSome → (bareRoute attr).isSome) ∧
    ((∃ attr ∈ function.attrs, (acceptedRoute syn attr).isSome) →
      layersUnread syn input function = [])

theorem generated_of_kept {syn : Syn E} {args : TokenStream} {input : Input}
    (hkept : Kept syn input) {x : ItemFn × Attribute} (hfunction : x.1 ∈ functionsOf input)
    (hattr : x.2 ∈ x.1.attrs) {due : DueRoute E} (hdue : dueRoute syn args input x = some due) :
    ∃ registration, generated syn args input x = some registration ∧ Meets due registration := by
  have haccepted : (acceptedRoute syn x.2).isSome := by
    rw [← @dueRoute_isSome E syn args input x, hdue]
    rfl
  obtain ⟨hbare, hunread⟩ := hkept x.1 hfunction
  obtain ⟨due', registration, hdue', hgenerated, hlayers, hread, hhandler, hpath, hmethods⟩ :=
    @generated_of_bare E syn args input x (hbare x.2 hattr haccepted)
  obtain rfl : due' = due := Option.some.inj (hdue'.symm.trans hdue)
  refine ⟨registration, hgenerated, hhandler, hpath, hmethods, ?_⟩
  rw [hlayers, hread, layersDue_eq, hunread ⟨x.2, hattr, haccepted⟩, List.append_nil]
  exact (List.reverse_perm _).symm.subperm

theorem kept_of_matched {syn : Syn E} {args : TokenStream} {input : Input}
    {kept : List (Registration E)}
    (hkept : kept.Subperm ((stripped input).filterMap (generated syn args input)))
    (hmatch : List.Forall₂ Meets ((stripped input).filterMap (dueRoute syn args input)) kept) :
    Kept syn input := by
  have hweights := Matching.weight_eq_of_matched (fun x _ => weight_generated_le x)
    (fun due registration (hmeets : Meets due registration) =>
      Nat.add_le_add_left hmeets.layers.length_le 1) hkept hmatch
  have hboth : ∀ function ∈ functionsOf input, ∀ attr ∈ function.attrs,
      (acceptedRoute syn attr).isSome →
        (bareRoute attr).isSome ∧ layersUnread syn input function = [] := by
    intro function hfunction attr hattr haccepted
    have hweight := hweights _ (mem_stripped hfunction hattr (isRouteAttr_of_accepted haccepted))
    have hbare : (bareRoute attr).isSome := by
      by_contra hnot
      rw [← @generated_isSome E syn args input (function, attr),
        Option.not_isSome_iff_eq_none] at hnot
      rw [← @dueRoute_isSome E syn args input (function, attr)] at haccepted
      obtain ⟨due, hdue⟩ := Option.isSome_iff_exists.mp haccepted
      rw [hnot, hdue] at hweight
      simp only [Matching.weight] at hweight
      omega
    refine ⟨hbare, ?_⟩
    obtain ⟨due, registration, hdue, hgenerated, hlayers, hread, _⟩ :=
      @generated_of_bare E syn args input (function, attr) hbare
    rw [hdue, hgenerated] at hweight
    simp only [Matching.weight, hlayers, hread, layersDue_eq, List.length_reverse,
      List.length_append] at hweight
    exact List.length_eq_zero_iff.mp (by omega)
  intro function hfunction
  refine ⟨fun attr hattr h => (hboth function hfunction attr hattr h).1, fun h => ?_⟩
  obtain ⟨attr, hattr, haccepted⟩ := h
  exact (hboth function hfunction attr hattr haccepted).2

/-- Nothing is lost exactly when the expansion fails or every accepted route is a bare one,
on a function without a `middlewares` expression that is not read. -/
theorem nothingLost_iff (syn : Syn E) (args : TokenStream) (input : Input) :
    NothingLost syn args input ↔ (Expands syn args input → Kept syn input) := by
  constructor
  · intro h hexpands
    obtain ⟨out, hout⟩ := expands_iff.mpr hexpands
    obtain ⟨⟨kept, hkept, hmatch⟩, _⟩ := h out hout
    rw [registrations_eq hout] at hkept
    exact kept_of_matched hkept hmatch
  · intro h out hout
    have hkept := h (expands_iff.mp ⟨out, hout⟩)
    rw [registrations_eq hout]
    constructor
    · refine ⟨_, List.Subperm.refl _, Matching.forall₂_filterMap fun x hx => ?_⟩
      obtain ⟨hfunction, hattr⟩ := of_mem_stripped hx
      cases hdue : dueRoute syn args input x with
      | some due =>
          obtain ⟨registration, hgenerated, hmeets⟩ :=
            generated_of_kept hkept hfunction hattr hdue
          rw [hgenerated]
          exact .some hmeets
      | none =>
          cases hgenerated : generated syn args input x with
          | none => exact .none
          | some registration =>
              have hbare : (bareRoute x.2).isSome := by
                rw [← @generated_isSome E syn args input x, hgenerated]
                rfl
              obtain ⟨due, _, hsome, _⟩ := @generated_of_bare E syn args input x hbare
              rw [hdue] at hsome
              cases hsome
    · intro x hx _ collected hcollected a ha
      obtain ⟨hfunction, _⟩ := of_mem_stripped hx
      obtain ⟨attr, hattr, haccepted⟩ := exists_attr_of_methodsArgs hcollected ha
      have hdue : dueRoute syn args input (x.1, attr) =
          some { handler := x.1.ident, path := a.path, methods := a.methods,
                 layers := layersDue syn args input x.1 } := by
        unfold dueRoute
        rw [haccepted]
        rfl
      obtain ⟨registration, hgenerated, hmeets⟩ :=
        @generated_of_kept E syn args input hkept (x.1, attr) hfunction hattr _ hdue
      have hroute := isRouteAttr_of_accepted (Option.isSome_of_eq_some haccepted)
      exact ⟨registration, List.mem_filterMap.mpr
        ⟨(x.1, attr), mem_stripped hfunction hattr hroute, hgenerated⟩, hmeets⟩

namespace Sample

/-- `syn` on lists of identifiers, and on options that are a name or a name with a string. -/
def syn : Syn String where
  parseExprs := fun tokens =>
    match tokens with
    | [] => some []
    | [.ident e] => some [e]
    | [.ident e, .punct ',', .ident f] => some [e, f]
    | _ => none
  parseMetas := fun tokens =>
    match tokens with
    | [] => some []
    | [.ident p] => some [.path (.ident p)]
    | [.ident p, .punct '=', .str value] => some [.nameValue (.ident p) (.str value)]
    | _ => none
  isExprPath := fun _ => true
  isPath := fun _ => true
  pathText := fun p => " :: ".intercalate p.segments

/-- `#[route("/users", method = "GET")]`. -/
def listUsers : ItemFn where
  ident := "list_users"
  attrs := [⟨.list (.ident "route")
    [.str "/users", .punct ',', .ident "method", .punct '=', .str "GET"]⟩]
  isAsync := true
  hasReturnType := true

/-- `#[post("/users")]` with two `middlewares` attributes. -/
def createUser : ItemFn where
  ident := "create_user"
  attrs := [⟨.list (.ident "post") [.str "/users"]⟩,
    ⟨.list (.ident "middlewares") [.ident "limit"]⟩,
    ⟨.list (.ident "middlewares") [.ident "audit"]⟩]
  isAsync := true
  hasReturnType := true

def users : Input :=
  .mod { ident := "users", attrs := [], content := some [.fn listUsers, .fn createUser] }

end Sample

/-- A route declared by `route` and the second `middlewares` attribute leave no trace. -/
theorem route_and_audit_lost :
    (∃ out, middlewaresInner Sample.syn [.ident "auth"] Sample.users = .ok out ∧
      out.registrations.map (fun r => (r.handler, r.path, r.methods, r.layers)) =
        [("create_user", "/users", ["POST"], ["limit"])]) ∧
      ¬ NothingLost Sample.syn [.ident "auth"] Sample.users := by
  refine ⟨⟨_, rfl, rfl⟩, fun h => ?_⟩
  obtain ⟨⟨kept, hkept, hmatch⟩, _⟩ := h _ rfl
  have hroutes : (acceptedRoute Sample.syn
      ⟨.list (.ident "route")
        [.str "/users", .punct ',', .ident "method", .punct '=', .str "GET"]⟩).isSome := rfl
  have hbare := (kept_of_matched hkept hmatch Sample.listUsers List.mem_cons_self).1 _
    List.mem_cons_self hroutes
  exact absurd hbare (by decide)

end Summer.Macros
