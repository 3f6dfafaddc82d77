/-
The ids of the operations that a program documents.

Each path and method of a handler gets a copy of the one metadata value that
`parse_doc_attributes` makes of its documentation (`summer-macros/src/route.rs` and
`summer-macros/src/middlewares.rs`), so the ids are those of the handlers, each as often as
the handler has operations.
-/
import Mathlib.Data.List.Nodup
import Summer.Macros.DocMetadata
import Summer.Macros.NothingLost

namespace Summer.Macros

/-! ## Lists without duplicates -/

theorem mem_flatMap_replicate {α β : Type} {l : List α} {n : α → ℕ} {f : α → β} {b : β} :
    b ∈ l.flatMap (fun a => List.replicate (n a) (f a)) ↔
      b ∈ (l.filter fun a => n a ≠ 0).map f := by
  simp only [List.mem_flatMap, List.mem_replicate, List.mem_map, List.mem_filter, decide_eq_true_eq,
    ne_eq]
  constructor
  · rintro ⟨a, ha, hn, rfl⟩
    exact ⟨a, ⟨ha, hn⟩, rfl⟩
  · rintro ⟨a, ⟨ha, hn⟩, rfl⟩
    exact ⟨a, ha, hn, rfl⟩

theorem nodup_flatMap_replicate {α β : Type} (l : List α) (n : α → ℕ) (f : α → β) :
    (l.flatMap fun a => List.replicate (n a) (f a)).Nodup ↔
      (∀ a ∈ l, n a ≤ 1) ∧ ((l.filter fun a => n a ≠ 0).map f).Nodup := by
  induction l with
  | nil => simp
  | cons a l ih =>
      rw [List.flatMap_cons, List.forall_mem_cons]
      rcases Nat.lt_or_ge 1 (n a) with hmany | hone
      · constructor
        · intro h
          have hreplicate := List.nodup_replicate.mp (List.nodup_append.mp h).1
          omega
        · intro h
          omega
      · rcases Nat.le_one_iff_eq_zero_or_eq_one.mp hone with hzero | hsingle
        · rw [hzero, List.replicate_zero, List.nil_append, ih,
            List.filter_cons_of_neg (by simp [hzero])]
          simp
        · rw [hsingle, List.replicate_one, List.singleton_append, List.nodup_cons, ih,
            List.filter_cons_of_pos (by simp [hsingle]), List.map_cons, List.nodup_cons,
            mem_flatMap_replicate]
          tauto

/-- Values with a default each are the values and the defaults in use. -/
theorem map_getD_perm {α β : Type} (e : α → Option β) (g : α → β) (l : List α) :
    (l.map fun a => (e a).getD (g a)).Perm
      (l.filterMap e ++ (l.filter fun a => (e a).isNone).map g) := by
  induction l with
  | nil => exact .refl _
  | cons a l ih =>
      cases ha : e a with
      | none =>
          rw [List.map_cons, ha, List.filterMap_cons_none ha,
            List.filter_cons_of_pos (by simp [ha]), List.map_cons]
          exact (ih.cons (g a)).trans List.perm_middle.symm
      | some v =>
          rw [List.map_cons, ha, List.filterMap_cons_some ha,
            List.filter_cons_of_neg (by simp [ha])]
          exact ih.cons v

theorem nodup_map_getD {α β : Type} {e : α → Option β} {l : List α} (h : (l.filterMap e).Nodup)
    (g : α → β) :
    (l.map fun a => (e a).getD (g a)).Nodup ↔
      ((l.filter fun a => (e a).isNone).map g).Nodup ∧
        ∀ a ∈ l, ∀ b ∈ l, e b = none → e a ≠ some (g b) := by
  rw [(map_getD_perm e g l).nodup_iff, List.nodup_append, and_iff_right h]
  apply and_congr_right
  intro _
  constructor
  · intro hdisjoint a ha b hb hnone hsome
    exact hdisjoint (g b) (List.mem_filterMap.mpr ⟨a, ha, hsome⟩) (g b)
      (List.mem_map.mpr ⟨b, List.mem_filter.mpr ⟨hb, by rw [hnone]; rfl⟩, rfl⟩) rfl
  · rintro hcross v hv _ hw rfl
    obtain ⟨a, ha, hsome⟩ := List.mem_filterMap.mp hv
    obtain ⟨b, hb, hdefault⟩ := List.mem_map.mp hw
    obtain ⟨hb, hnone⟩ := List.mem_filter.mp hb
    rw [← hdefault] at hsome
    exact hcross a ha b hb (Option.isNone_iff_eq_none.mp hnone) hsome

/-! ## The operations documented -/

structure Documented where
  path : String
  method : String
  operation : OperationMetadata

/-- The methods in some order; the set of the source has none. -/
def Args.methodList (args : Args) : List Method := Method.all.filter fun m => m ∈ args.methods

namespace Route

variable {E : Type}

/-- A code without a type and a variant, or whose type is not a path, is a panic. -/
def statusCodeGen (syn : Syn E) (r : Route) : Except MacroError Unit :=
  match (parseDocAttributes r.docAttributes r.name).statusCodes.find?
      fun code => !statusCodeFormed syn code with
  | none => .ok ()
  | some code =>
    let pathParts := Text.splitColons code
    if pathParts.length < 2 then
      .error (.message ("Invalid status_codes format: " ++ String.ofList code ++
        ". Expected format: TypeName::VariantName"))
    else
      .error (.message ("Invalid type path: " ++
        String.ofList (List.intercalate [':', ':'] pathParts.dropLast)))

/-- The operations of one routing attribute. -/
def operationBinder (r : Route) (args : Args) : List Documented :=
  args.methodList.map fun m =>
    { path := args.path,
      method := m.lower,
      operation := parseDocAttributes r.docAttributes r.name }

/-- What `to_tokens` documents for the router. -/
def documented (syn : Syn E) (r : Route) : Except MacroError (List Documented) :=
  if r.openapi then
    match r.statusCodeGen syn with
    | .error e => .error e
    | .ok () => .ok (r.args.flatMap r.operationBinder)
  else
    .ok []

end Route

/-- A use of one of the OpenAPI macros, or of `middlewares` with such attributes in it. -/
inductive Use
  | apiRoute (method : Option Method) (args : TokenStream) (function : ItemFn)
  | apiRoutes (function : ItemFn)
  | middlewares (args : TokenStream) (input : Input)

/-- The operations that the generated code documents, or the compile error. -/
def Use.documented {E : Type} (syn : Syn E) : Use → Except MacroError (List Documented)
  | apiRoute method args function =>
    match withMethod syn method args function true with
    | .error e => .error e
    | .ok r => r.documented syn
  | apiRoutes function =>
    match withMethods syn function true with
    | .error e => .error e
    | .ok r => r.documented syn
  | middlewares args input =>
    match middlewaresInner syn args input with
    | .error e => .error e
    | .ok out => .ok (out.registrations.flatMap fun registration =>
        registration.operations.map fun operation =>
          { path := registration.path, method := operation.1, operation := operation.2 })

def documentedIds (uses : List (List Documented)) : List (Option Text) :=
  uses.flatten.map fun documented => documented.operation.operationId

/-! ## Handlers -/

def idOf (doc : Text) : Option Text := argument Text.trim "@id " (Text.trim doc)

/-- The last `@id` among the attributes that are not taken for the summary. -/
def explicitId (attrs : List Attribute) : Option Text :=
  ((((docValues attrs).dropWhile fun doc => (Text.trim doc).isEmpty).tail).filterMap idOf).getLast?

/-- A handler with its documentation and the number of paths and methods that its OpenAPI
attributes give it. -/
structure Handler where
  name : String
  docs : List Attribute
  operations : ℕ

def Handler.ofFunction (function : ItemFn) (operations : ℕ) : Handler :=
  ⟨function.ident, Route.docAttributesOf function.attrs, operations⟩

def Route.operationCount (r : Route) : ℕ := (r.args.map fun args => args.methodList.length).sum

def operationCountOf : Except MacroError Route → ℕ
  | .ok r => r.operationCount
  | .error _ => 0

def Use.handlers {E : Type} (syn : Syn E) : Use → List Handler
  | apiRoute method args function =>
    [.ofFunction function (operationCountOf (withMethod syn method args function true))]
  | apiRoutes function =>
    [.ofFunction function (operationCountOf (withMethods syn function true))]
  | middlewares _ input => (functionsOf input).map fun function =>
    .ofFunction function
      (function.attrs.filter fun attr => isOpenapiAttr attr && (bareRoute attr).isSome).length

def Handler.id (h : Handler) : Text := (explicitId h.docs).getD h.name.toList

theorem filterMap_id_laterParts (doc : Text) :
    (laterParts doc).filterMap Part.id? = (idOf doc).toList := by
  have hread : (directive (Text.trim doc)).bind Part.id? = idOf doc := by
    apply bind_directive (by decide)
    simp [directives, Part.id?]
  rw [← hread]
  unfold laterParts
  cases directive (Text.trim doc) with
  | some p =>
      show [p].filterMap Part.id? = p.id?.toList
      cases h : p.id? with
      | none => rw [List.filterMap_cons_none h]; rfl
      | some v => rw [List.filterMap_cons_some h]; rfl
  | none =>
      show (if _ then _ else []).filterMap Part.id? = []
      split
      · rw [List.filterMap_map, List.filterMap_eq_nil_iff]
        exact fun _ _ => rfl
      · rfl

theorem filterMap_id_attributeParts (docs : List Text) :
    (attributeParts docs).flatten.filterMap Part.id? =
      ((docs.dropWhile fun doc => (Text.trim doc).isEmpty).tail).filterMap idOf := by
  induction docs with
  | nil => rfl
  | cons doc docs ih =>
      unfold attributeParts
      by_cases hblank : Text.trim doc = []
      · rw [if_pos hblank, List.dropWhile_cons_of_pos (by rw [hblank]; rfl)]
        exact ih
      · rw [if_neg hblank, List.dropWhile_cons_of_neg (by simpa using hblank), List.flatten_cons,
          List.filterMap_append, filterMap_summaryParts fun _ => rfl, List.nil_append,
          List.tail_cons]
        clear ih
        induction docs with
        | nil => rfl
        | cons d docs ih =>
            rw [List.map_cons, List.flatten_cons, List.filterMap_append, ih,
              filterMap_id_laterParts]
            cases h : idOf d with
            | none => rw [List.filterMap_cons_none h]; rfl
            | some v => rw [List.filterMap_cons_some h]; rfl

theorem operationId_eq (attrs : List Attribute) (fnName : String) :
    (parseDocAttributes attrs fnName).operationId =
      some ((explicitId attrs).getD fnName.toList) := by
  obtain ⟨s, hreflects, hparse⟩ := parseDocAttributes_reflects attrs fnName
  rw [hparse]
  show s.id = _
  rw [hreflects.id, filterMap_id_attributeParts]
  rfl

/-! ## The ids documented -/

section
variable {E : Type} {syn : Syn E}

theorem routeNew_ok {args : RouteArgs} {function : ItemFn} {method : Option Method}
    {openapi : Bool} {r : Route} (h : Route.new syn args function method openapi = .ok r) :
    r.name = function.ident ∧ r.docAttributes = Route.docAttributesOf function.attrs ∧
      r.openapi = openapi := by
  unfold Route.new at h
  split at h
  · cases h
  · split at h
    · cases h
    · split at h
      · cases h
      · cases h
        exact ⟨rfl, rfl, rfl⟩

theorem withMethod_ok {args : TokenStream} {function : ItemFn} {method : Option Method}
    {openapi : Bool} {r : Route} (h : withMethod syn method args function openapi = .ok r) :
    r.name = function.ident ∧ r.docAttributes = Route.docAttributesOf function.attrs ∧
      r.openapi = openapi := by
  unfold withMethod at h
  split at h
  · cases h
  · exact routeNew_ok h

/-- The attributes of methods are no documentation. -/
theorem docAttributesOf_filter (attrs : List Attribute) :
    Route.docAttributesOf (attrs.filter fun attr => (Method.fromPath attr.path).isNone) =
      Route.docAttributesOf attrs := by
  unfold Route.docAttributesOf
  rw [List.filter_filter]
  congr 1
  funext attr
  cases hdoc : attr.path.isIdent "doc" with
  | false => rfl
  | true =>
      rw [Path.isIdent_iff.mp hdoc]
      rfl

theorem withMethods_ok {function : ItemFn} {openapi : Bool} {r : Route}
    (h : withMethods syn function openapi = .ok r) :
    r.name = function.ident ∧ r.docAttributes = Route.docAttributesOf function.attrs ∧
      r.openapi = openapi := by
  unfold withMethods at h
  split at h
  · cases h
  · unfold Route.multiple at h
    split at h
    · cases h
    · cases h
      exact ⟨rfl, docAttributesOf_filter function.attrs, rfl⟩

theorem Route.documented_ids {r : Route} {docs : List Documented} (hopenapi : r.openapi = true)
    (h : r.documented syn = .ok docs) :
    docs.map (fun documented => documented.operation.operationId) =
      List.replicate r.operationCount
        (some ((explicitId r.docAttributes).getD r.name.toList)) := by
  unfold Route.documented at h
  rw [if_pos hopenapi] at h
  split at h
  · cases h
  · cases h
    unfold Route.operationCount
    induction r.args with
    | nil => rfl
    | cons args rest ih =>
        have hbinder : (r.operationBinder args).map (fun d => d.operation.operationId) =
            List.replicate args.methodList.length
              (some ((explicitId r.docAttributes).getD r.name.toList)) := by
          unfold Route.operationBinder
          rw [List.map_map, ← operationId_eq]
          exact List.map_const'
        rw [List.flatMap_cons, List.map_append, ih, hbinder, List.map_cons, List.sum_cons,
          List.replicate_append_replicate]

/-- The operations of one function under `middlewares`, one for each bare OpenAPI attribute. -/
theorem generated_ids {args : TokenStream} {input : Input} (function : ItemFn)
    (attrs : List Attribute) :
    (attrs.filterMap fun attr => generated syn args input (function, attr)).flatMap
        (fun registration => registration.operations.map fun operation => operation.2.operationId) =
      List.replicate
        (attrs.filter fun attr => isOpenapiAttr attr && (bareRoute attr).isSome).length
        (some ((explicitId (Route.docAttributesOf function.attrs)).getD
          function.ident.toList)) := by
  induction attrs with
  | nil => rfl
  | cons attr attrs ih =>
      cases hbare : bareRoute attr with
      | none =>
          have hnone : generated syn args input (function, attr) = none := by
            rw [← Option.not_isSome_iff_eq_none, generated_isSome, hbare]
            decide
          simp only [List.filterMap_cons, hnone]
          rw [ih, List.filter_cons_of_neg (by simp [hbare])]
      | some route =>
          have hsome : generated syn args input (function, attr) =
              some { path := route.1,
                     methods := [route.2],
                     handler := function.ident,
                     layers := (layersRead syn args input function).reverse,
                     operations := if isOpenapiAttr attr then
                       [(route.2.toLower, parseDocAttributes
                         (if isOpenapiAttr attr then Route.docAttributesOf function.attrs else [])
                         function.ident)] else [] } := by
            unfold generated
            rw [processRouteAttribute_eq, hbare]
            rfl
          simp only [List.filterMap_cons, hsome]
          rw [List.flatMap_cons, ih]
          cases hopenapi : isOpenapiAttr attr with
          | false =>
              rw [List.filter_cons_of_neg (by simp [hopenapi])]
              rfl
          | true =>
              rw [List.filter_cons_of_pos (by simp [hopenapi, hbare]), List.length_cons,
                List.replicate_succ, ← operationId_eq]
              rfl

theorem Use.documented_ids {use : Use} {docs : List Documented}
    (h : use.documented syn = .ok docs) :
    docs.map (fun documented => documented.operation.operationId) =
      (use.handlers syn).flatMap fun handler =>
        List.replicate handler.operations (some handler.id) := by
  cases use with
  | apiRoute method args function =>
      cases hroute : withMethod syn method args function true with
      | error e => simp [Use.documented, hroute] at h
      | ok r =>
          simp only [Use.documented, hroute] at h
          obtain ⟨hname, hdocs, hopenapi⟩ := withMethod_ok hroute
          rw [Route.documented_ids hopenapi h, hname, hdocs]
          simp only [Use.handlers, hroute, operationCountOf, List.flatMap_cons, List.flatMap_nil,
            List.append_nil]
          rfl
  | apiRoutes function =>
      cases hroute : withMethods syn function true with
      | error e => simp [Use.documented, hroute] at h
      | ok r =>
          simp only [Use.documented, hroute] at h
          obtain ⟨hname, hdocs, hopenapi⟩ := withMethods_ok hroute
          rw [Route.documented_ids hopenapi h, hname, hdocs]
          simp only [Use.handlers, hroute, operationCountOf, List.flatMap_cons, List.flatMap_nil,
            List.append_nil]
          rfl
  | middlewares args input =>
      cases hout : middlewaresInner syn args input with
      | error e => simp [Use.documented, hout] at h
      | ok out =>
          simp only [Use.documented, hout] at h
          cases h
          rw [registrations_eq hout,
            filterMap_stripped fun x hx => isRouteAttr_of_bare (generated_isSome ▸ hx),
            List.map_flatMap, List.flatMap_assoc]
          simp only [List.map_map, Use.handlers, List.flatMap_map]
          congr 1
          funext function
          exact generated_ids function function.attrs

theorem documentedIds_eq {program : List Use} {out : List (List Documented)}
    (h : program.mapM (Use.documented syn) = .ok out) :
    documentedIds out =
      (program.flatMap (Use.handlers syn)).flatMap fun handler =>
        List.replicate handler.operations (some handler.id) := by
  have hall := forall₂_of_mapM h
  clear h
  unfold documentedIds
  induction hall with
  | nil => rfl
  | cons huse _ ih =>
      rw [List.flatten_cons, List.map_append, ih, Use.documented_ids huse, List.flatMap_cons,
        List.flatMap_append]

/-! ## When the ids are distinct -/

/-- The handlers that document something. -/
def documenting (syn : Syn E) (program : List Use) : List Handler :=
  (program.flatMap (Use.handlers syn)).filter fun handler => handler.operations ≠ 0

/-- One operation for each handler, and no name where an id or another name is the same. -/
structure Separate (syn : Syn E) (program : List Use) : Prop where
  single : ∀ handler ∈ program.flatMap (Use.handlers syn), handler.operations ≤ 1
  names : (((documenting syn program).filter fun handler => (explicitId handler.docs).isNone).map
    fun handler => handler.name.toList).Nodup
  ids : ∀ handler ∈ documenting syn program, ∀ other ∈ documenting syn program,
    explicitId other.docs = none → explicitId handler.docs ≠ some other.name.toList

theorem documentedIds_nodup_iff {program : List Use} {out : List (List Documented)}
    (hexpands : program.mapM (Use.documented syn) = .ok out)
    (hexplicit : ((documenting syn program).filterMap fun handler =>
      explicitId handler.docs).Nodup) :
    (documentedIds out).Nodup ↔ Separate syn program := by
  have hids : ((documenting syn program).map fun handler => some handler.id).Nodup ↔
      ((documenting syn program).map Handler.id).Nodup := by
    have hsome : ((documenting syn program).map fun handler => some handler.id) =
        ((documenting syn program).map Handler.id).map some := by
      rw [List.map_map]
      rfl
    rw [hsome]
    exact List.nodup_map_iff (Option.some_injective _)
  rw [documentedIds_eq hexpands, nodup_flatMap_replicate]
  show _ ∧ ((documenting syn program).map fun handler => some handler.id).Nodup ↔ _
  rw [hids]
  have hnames := nodup_map_getD hexplicit fun handler => handler.name.toList
  constructor
  · rintro ⟨hsingle, hnodup⟩
    obtain ⟨hdistinct, hcross⟩ := hnames.mp hnodup
    exact ⟨hsingle, hdistinct, hcross⟩
  · rintro ⟨hsingle, hdistinct, hcross⟩
    exact ⟨hsingle, hnames.mpr ⟨hdistinct, hcross⟩⟩

end

namespace Sample

/-- `syn` on two options that are a name with a string. -/
def optionsSyn : Syn Unit where
  parseExprs := fun _ => some [()]
  parseMetas := fun tokens =>
    match tokens with
    | [.ident p, .punct '=', .str value, .punct ',', .ident q, .punct '=', .str value'] =>
      some [.nameValue (.ident p) (.str value), .nameValue (.ident q) (.str value')]
    | _ => none
  isExprPath := fun _ => true
  isPath := fun _ => true
  pathText := fun p => " :: ".intercalate p.segments

/-- `#[api_route("/todo", method = "GET", method = "HEAD")]`. -/
def getTodo : Use :=
  .apiRoute none
    [.str "/todo", .punct ',', .ident "method", .punct '=', .str "GET", .punct ',',
      .ident "method", .punct '=', .str "HEAD"]
    { ident := "get_todo", attrs := [], isAsync := true, hasReturnType := true }

/-- `#[get_api("/todos")]`, documented with an id in the second line. -/
def listTodos : Use :=
  .apiRoute (some .get) [.str "/todos"]
    { ident := "list",
      attrs := [⟨.nameValue (.ident "doc") (.str " All todos")⟩,
        ⟨.nameValue (.ident "doc") (.str " @id list_todos")⟩],
      isAsync := true,
      hasReturnType := true }

/-- `#[post_api("/todos")]` under `middlewares`. -/
def createTodo : Use :=
  .middlewares [.ident "auth"]
    (.fn { ident := "create_todo",
           attrs := [⟨.list (.ident "post_api") [.str "/todos"]⟩],
           isAsync := true,
           hasReturnType := true })

end Sample

theorem separate_todos :
    ∃ out, [Sample.listTodos, Sample.createTodo].mapM (Use.documented Sample.optionsSyn) = .ok out ∧
      (documentedIds out).Nodup := by
  refine ⟨_, rfl, ?_⟩
  apply (@documentedIds_nodup_iff Unit Sample.optionsSyn [Sample.listTodos, Sample.createTodo] _
    rfl (by decide)).mpr
  exact ⟨by decide, by decide, by decide⟩

/-- One handler with two methods documents two operations under its name. -/
theorem two_methods_one_id :
    ∃ out, [Sample.getTodo].mapM (Use.documented Sample.optionsSyn) = .ok out ∧
      ((documenting Sample.optionsSyn [Sample.getTodo]).filterMap fun handler =>
        explicitId handler.docs).Nodup ∧ ¬ (documentedIds out).Nodup := by
  refine ⟨_, rfl, by decide, by decide⟩

end Summer.Macros
