/-
`#[auto_config(..)]` (`summer-macros/src/auto.rs`): the calls it adds after `App::new()`.

The macro goes from a statement into the receiver of a method call, the base of an `await` and
the function of a call, and into nothing else.  An `App::new()` on the right of a `let`, under a
`?`, in a block or in an argument is left as it is (`nothingDropped_iff`).
-/
import Summer.Macros.Syntax

namespace Summer.Macros.Auto

/-- `ConfigArgs`. -/
structure ConfigArgs where
  route : Bool
  job : Bool
  pubsub : Bool
deriving DecidableEq, Repr

/-- The forms of an expression that the macro does not look into. -/
inductive Form
  | assign
  | block
  | question
  | branch
  | matching
  | closure
  | rest (text : String)
deriving DecidableEq, Repr

mutual

/-- `syn::Expr`.  Of a path the macro reads the identifiers of its segments.  An expression of
another form has its operands and the statements of its block. -/
inductive Expr
  | path (segments : List String)
  | call (func : Expr) (args : List Expr)
  | methodCall (receiver : Expr) (method : String) (args : List Expr)
  | await (base : Expr)
  | other (form : Form) (operands : List Expr) (block : List Stmt)

/-- `syn::Stmt`: a `let` with its initialiser and its `else`, an item with the statements in
it, an expression, or a macro whose tokens are not parsed. -/
inductive Stmt
  | binding (pat : String) (init : List Expr)
  | item (text : String) (body : List Stmt)
  | expr (expr : Expr) (semi : Bool)
  | tokens (text : String)

end

def configuratorExpected : MacroError :=
  .combine .syn (.message "invalid auto config, expected #[auto_config(Configurator)]")

/-- The loop of `ConfigArgs::parse`: it stops where a comma is missing. -/
def parseConfigurators : ConfigArgs → Parse ConfigArgs
  | args, [] => .ok (args, [])
  | args, .ident name :: rest =>
    if name ∈ keywords then .error configuratorExpected
    else
      let args : ConfigArgs :=
        { route := args.route || decide (name = "WebConfigurator")
          job := args.job || decide (name = "JobConfigurator")
          pubsub := args.pubsub || decide (name = "PubSubConfigurator") }
      match rest with
      | .punct ',' :: rest => parseConfigurators args rest
      | _ => .ok (args, rest)
  | _, _ :: _ => .error configuratorExpected

def ConfigArgs.parse : Parse ConfigArgs :=
  parseConfigurators { route := false, job := false, pubsub := false }

def isAppNewCall (segments : List String) : Bool := decide (segments = ["App", "new"])

def autoCall (crate function : String) : Expr := .call (.path [crate, "handler", function]) []

def addMethodCall (args : ConfigArgs) (call : Expr) : Expr :=
  let expr := call
  let expr :=
    if args.route then .methodCall expr "add_router" [autoCall "summer_web" "auto_router"] else expr
  let expr :=
    if args.job then .methodCall expr "add_jobs" [autoCall "summer_job" "auto_jobs"] else expr
  if args.pubsub then
    .call (.path ["summer_pubsub", "PubSubConfigurator", "add_consumer"])
      [expr, autoCall "summer_pubsub" "auto_consumers"]
  else expr

def processExpr (args : ConfigArgs) : Expr → Expr
  | .methodCall receiver method callArgs =>
    .methodCall (processExpr args receiver) method callArgs
  | .call func callArgs =>
    match processExpr args func with
    | .path segments =>
      if isAppNewCall segments then addMethodCall args (.call (.path segments) callArgs)
      else .call (.path segments) callArgs
    | func => .call func callArgs
  | .await base => .await (processExpr args base)
  | .path segments => .path segments
  | .other form operands block => .other form operands block

def processStmt (args : ConfigArgs) : Stmt → Stmt
  | .expr expr semi => .expr (processExpr args expr) semi
  | .binding pat init => .binding pat init
  | .item text body => .item text body
  | .tokens text => .tokens text

/-- `config`: the statements of the function, or the error reported where the arguments do not
parse.  A function that does not parse is an error too, `none`. -/
def config (tokens : TokenStream) : Option (List Stmt) → Except MacroError (List Stmt)
  | input =>
    match parseAll ConfigArgs.parse tokens with
    | .error e => .error e
    | .ok args =>
      match input with
      | none => .error .syn
      | some stmts => .ok (stmts.map (processStmt args))

/-! ## Every `App::new()` wrapped -/

/-- The configurators that are listed. -/
def requested (tokens : TokenStream) : ConfigArgs where
  route := decide (Token.ident "WebConfigurator" ∈ tokens)
  job := decide (Token.ident "JobConfigurator" ∈ tokens)
  pubsub := decide (Token.ident "PubSubConfigurator" ∈ tokens)

/-- Some configurator is. -/
def ConfigArgs.Any (args : ConfigArgs) : Prop :=
  args.route = true ∨ args.job = true ∨ args.pubsub = true

/-- The call `App::new()`. -/
def isAppNew : Expr → List Expr → Bool
  | .path segments, [] => isAppNewCall segments
  | _, _ => false

mutual

/-- The expression with the calls requested after each `App::new()`. -/
def wrapExpr (args : ConfigArgs) : Expr → Expr
  | .path segments => .path segments
  | .call func callArgs =>
    if isAppNew func callArgs then addMethodCall args (.call func callArgs)
    else .call (wrapExpr args func) (wrapExprs args callArgs)
  | .methodCall receiver method callArgs =>
    .methodCall (wrapExpr args receiver) method (wrapExprs args callArgs)
  | .await base => .await (wrapExpr args base)
  | .other form operands block => .other form (wrapExprs args operands) (wrapStmts args block)

def wrapExprs (args : ConfigArgs) : List Expr → List Expr
  | [] => []
  | expr :: rest => wrapExpr args expr :: wrapExprs args rest

def wrapStmt (args : ConfigArgs) : Stmt → Stmt
  | .binding pat init => .binding pat (wrapExprs args init)
  | .item text body => .item text (wrapStmts args body)
  | .expr expr semi => .expr (wrapExpr args expr) semi
  | .tokens text => .tokens text

def wrapStmts (args : ConfigArgs) : List Stmt → List Stmt
  | [] => []
  | stmt :: rest => wrapStmt args stmt :: wrapStmts args rest

end

mutual

/-- No `App::new()` anywhere in it. -/
def FreeExpr : Expr → Prop
  | .path _ => True
  | .call func callArgs => isAppNew func callArgs = false ∧ FreeExpr func ∧ FreeExprs callArgs
  | .methodCall receiver _ callArgs => FreeExpr receiver ∧ FreeExprs callArgs
  | .await base => FreeExpr base
  | .other _ operands block => FreeExprs operands ∧ FreeStmts block

def FreeExprs : List Expr → Prop
  | [] => True
  | expr :: rest => FreeExpr expr ∧ FreeExprs rest

def FreeStmt : Stmt → Prop
  | .binding _ init => FreeExprs init
  | .item _ body => FreeStmts body
  | .expr expr _ => FreeExpr expr
  | .tokens _ => True

def FreeStmts : List Stmt → Prop
  | [] => True
  | stmt :: rest => FreeStmt stmt ∧ FreeStmts rest

end

/-- The name in front of a call, if it is `App::new`. -/
def callsAppNew : Expr → Bool
  | .path segments => isAppNewCall segments
  | _ => false

/-- An `App::new()` stands at the head of the expression at most, under method calls, calls
and `await`s; and no other call of `App::new` stands there. -/
def HeadExpr : Expr → Prop
  | .path _ => True
  | .call func callArgs =>
    if callsAppNew func then callArgs = [] else HeadExpr func ∧ FreeExprs callArgs
  | .methodCall receiver _ callArgs => HeadExpr receiver ∧ FreeExprs callArgs
  | .await base => HeadExpr base
  | .other _ operands block => FreeExprs operands ∧ FreeStmts block

/-- The same of a statement that is an expression; in another one there is no `App::new()`. -/
def HeadStmt : Stmt → Prop
  | .expr expr _ => HeadExpr expr
  | stmt => FreeStmt stmt

/-- The expansion is an error, or all of the body with each `App::new()` followed by the calls
requested. -/
def NothingDropped (tokens : TokenStream) (stmts : List Stmt) : Prop :=
  ∀ out, config tokens (some stmts) = .ok out → out = wrapStmts (requested tokens) stmts

/-! ## The arguments -/

theorem requested_cons (token : Token) (rest : TokenStream) :
    requested (token :: rest) =
      { route := (requested rest).route || decide (token = .ident "WebConfigurator")
        job := (requested rest).job || decide (token = .ident "JobConfigurator")
        pubsub := (requested rest).pubsub || decide (token = .ident "PubSubConfigurator") } := by
  simp only [requested, List.mem_cons, Bool.decide_or, eq_comm, Bool.or_comm]

/-- A list that is read to its end is read as it was requested. -/
theorem parseConfigurators_ok {tokens : TokenStream} {args out : ConfigArgs}
    (h : parseConfigurators args tokens = .ok (out, [])) :
    out = { route := args.route || (requested tokens).route
            job := args.job || (requested tokens).job
            pubsub := args.pubsub || (requested tokens).pubsub } := by
  fun_induction parseConfigurators args tokens with
  | case1 args =>
      cases h
      simp [requested]
  | case2 => cases h
  | case3 args name hname args' rest ih =>
      rw [ih h, requested_cons, requested_cons]
      simp [args', Bool.or_assoc, Bool.or_comm]
  | case4 args name rest hname args' hrest =>
      obtain ⟨rfl, rfl⟩ := Prod.mk.inj (Except.ok.inj h)
      simp [args', requested, eq_comm]
  | case5 => cases h

theorem parse_ok {tokens : TokenStream} {args : ConfigArgs}
    (h : parseAll ConfigArgs.parse tokens = .ok args) : args = requested tokens := by
  have hparsed := parseConfigurators_ok (parseAll_ok_iff.mp h)
  rw [hparsed]
  simp

/-! ## The calls added -/

section
variable {args : ConfigArgs}

theorem addMethodCall_of_not_any (h : ¬ args.Any) (call : Expr) :
    addMethodCall args call = call := by
  simp only [ConfigArgs.Any, not_or, Bool.not_eq_true] at h
  obtain ⟨hroute, hjob, hpubsub⟩ := h
  simp [addMethodCall, hroute, hjob, hpubsub]

/-- What is requested makes another expression of a call of `App::new`. -/
theorem addMethodCall_ne (h : args.Any) {segments : List String}
    (happ : isAppNewCall segments = true) (callArgs callArgs' : List Expr) :
    addMethodCall args (.call (.path segments) callArgs) ≠ .call (.path segments) callArgs' := by
  obtain ⟨route, job, pubsub⟩ := args
  have hsegments : segments = ["App", "new"] := of_decide_eq_true happ
  subst hsegments
  cases pubsub with
  | true =>
      intro heq
      have hfunc := Expr.path.inj (Expr.call.inj heq).1
      exact absurd hfunc (by decide)
  | false =>
      cases job with
      | true => exact nofun
      | false =>
          cases route with
          | true => exact nofun
          | false => simp [ConfigArgs.Any] at h

theorem isAppNew_eq_true {func : Expr} {callArgs : List Expr}
    (h : isAppNew func callArgs = true) :
    ∃ segments, func = .path segments ∧ callArgs = [] ∧ isAppNewCall segments = true := by
  unfold isAppNew at h
  split at h
  · next segments => exact ⟨segments, rfl, rfl, h⟩
  · cases h

mutual

theorem wrapExpr_eq_self_iff (h : args.Any) : ∀ e : Expr, wrapExpr args e = e ↔ FreeExpr e
  | .path segments => by simp [wrapExpr, FreeExpr]
  | .call func callArgs => by
      cases happ : isAppNew func callArgs with
      | true =>
          obtain ⟨segments, rfl, rfl, hsegments⟩ := isAppNew_eq_true happ
          rw [wrapExpr, if_pos happ, FreeExpr, happ]
          exact iff_of_false (addMethodCall_ne h hsegments [] []) (by simp)
      | false =>
          rw [wrapExpr, happ, if_neg Bool.false_ne_true, Expr.call.injEq,
            wrapExpr_eq_self_iff h func, wrapExprs_eq_self_iff h callArgs, FreeExpr, happ]
          simp
  | .methodCall receiver method callArgs => by
      rw [wrapExpr, Expr.methodCall.injEq, wrapExpr_eq_self_iff h receiver,
        wrapExprs_eq_self_iff h callArgs, FreeExpr]
      simp
  | .await base => by
      rw [wrapExpr, Expr.await.injEq, wrapExpr_eq_self_iff h base, FreeExpr]
  | .other form operands block => by
      rw [wrapExpr, Expr.other.injEq, wrapExprs_eq_self_iff h operands,
        wrapStmts_eq_self_iff h block, FreeExpr]
      simp

theorem wrapExprs_eq_self_iff (h : args.Any) :
    ∀ es : List Expr, wrapExprs args es = es ↔ FreeExprs es
  | [] => by simp [wrapExprs, FreeExprs]
  | e :: rest => by
      rw [wrapExprs, List.cons.injEq, wrapExpr_eq_self_iff h e, wrapExprs_eq_self_iff h rest,
        FreeExprs]

theorem wrapStmt_eq_self_iff (h : args.Any) :
    ∀ stmt : Stmt, wrapStmt args stmt = stmt ↔ FreeStmt stmt
  | .binding pat init => by
      rw [wrapStmt, Stmt.binding.injEq, wrapExprs_eq_self_iff h init, FreeStmt]
      simp
  | .item text body => by
      rw [wrapStmt, Stmt.item.injEq, wrapStmts_eq_self_iff h body, FreeStmt]
      simp
  | .expr e semi => by
      rw [wrapStmt, Stmt.expr.injEq, wrapExpr_eq_self_iff h e, FreeStmt]
      simp
  | .tokens text => by simp [wrapStmt, FreeStmt]

theorem wrapStmts_eq_self_iff (h : args.Any) :
    ∀ stmts : List Stmt, wrapStmts args stmts = stmts ↔ FreeStmts stmts
  | [] => by simp [wrapStmts, FreeStmts]
  | stmt :: rest => by
      rw [wrapStmts, List.cons.injEq, wrapStmt_eq_self_iff h stmt, wrapStmts_eq_self_iff h rest,
        FreeStmts]

end

mutual

theorem wrapExpr_of_not_any (h : ¬ args.Any) : ∀ e : Expr, wrapExpr args e = e
  | .path segments => by rw [wrapExpr]
  | .call func callArgs => by
      rw [wrapExpr, addMethodCall_of_not_any h, wrapExpr_of_not_any h func,
        wrapExprs_of_not_any h callArgs, ite_self]
  | .methodCall receiver method callArgs => by
      rw [wrapExpr, wrapExpr_of_not_any h receiver, wrapExprs_of_not_any h callArgs]
  | .await base => by rw [wrapExpr, wrapExpr_of_not_any h base]
  | .other form operands block => by
      rw [wrapExpr, wrapExprs_of_not_any h operands, wrapStmts_of_not_any h block]

theorem wrapExprs_of_not_any (h : ¬ args.Any) : ∀ es : List Expr, wrapExprs args es = es
  | [] => by rw [wrapExprs]
  | e :: rest => by rw [wrapExprs, wrapExpr_of_not_any h e, wrapExprs_of_not_any h rest]

theorem wrapStmt_of_not_any (h : ¬ args.Any) : ∀ stmt : Stmt, wrapStmt args stmt = stmt
  | .binding pat init => by rw [wrapStmt, wrapExprs_of_not_any h init]
  | .item text body => by rw [wrapStmt, wrapStmts_of_not_any h body]
  | .expr e semi => by rw [wrapStmt, wrapExpr_of_not_any h e]
  | .tokens text => by rw [wrapStmt]

theorem wrapStmts_of_not_any (h : ¬ args.Any) : ∀ stmts : List Stmt, wrapStmts args stmts = stmts
  | [] => by rw [wrapStmts]
  | stmt :: rest => by rw [wrapStmts, wrapStmt_of_not_any h stmt, wrapStmts_of_not_any h rest]

end

/-! ## What the macro reaches -/

theorem addMethodCall_ne_path (func : Expr) (callArgs : List Expr) (segments : List String) :
    addMethodCall args (.call func callArgs) ≠ .path segments := by
  obtain ⟨route, job, pubsub⟩ := args
  cases route <;> cases job <;> cases pubsub <;> exact nofun

/-- Nothing but a path becomes a path. -/
theorem processExpr_ne_path {e : Expr} (h : ∀ segments, e ≠ .path segments)
    (segments : List String) : processExpr args e ≠ .path segments := by
  cases e with
  | path segments' => exact absurd rfl (h segments')
  | methodCall receiver method callArgs => exact nofun
  | await base => exact nofun
  | other form operands block => exact nofun
  | call func callArgs =>
      rw [processExpr]
      split
      · split
        · exact addMethodCall_ne_path _ _ _
        · exact nofun
      · exact nofun

/-- The call of a function that is not a name is not touched. -/
theorem processExpr_call {func : Expr} (h : ∀ segments, func ≠ .path segments)
    (callArgs : List Expr) :
    processExpr args (.call func callArgs) = .call (processExpr args func) callArgs := by
  rw [processExpr]
  split
  · next segments heq => exact absurd heq (processExpr_ne_path h segments)
  · rfl

theorem callsAppNew_ne_path {func : Expr} (h : ∀ segments, func ≠ .path segments) :
    callsAppNew func = false := by
  cases func with
  | path segments => exact absurd rfl (h segments)
  | _ => rfl

theorem isAppNew_ne_path {func : Expr} (h : ∀ segments, func ≠ .path segments)
    (callArgs : List Expr) : isAppNew func callArgs = false := by
  cases func with
  | path segments => exact absurd rfl (h segments)
  | _ => rfl

theorem processExpr_name (segments : List String) (callArgs : List Expr) :
    processExpr args (.call (.path segments) callArgs) =
      if isAppNewCall segments then addMethodCall args (.call (.path segments) callArgs)
      else .call (.path segments) callArgs := by
  rw [processExpr, processExpr]

theorem wrapExpr_name (segments : List String) (callArgs : List Expr) :
    wrapExpr args (.call (.path segments) callArgs) =
      if isAppNew (.path segments) callArgs then
        addMethodCall args (.call (.path segments) callArgs)
      else .call (.path segments) (wrapExprs args callArgs) := by
  rw [wrapExpr, wrapExpr]

/-- A call by name: one of `App::new` is wrapped whatever its arguments. -/
theorem processExpr_name_iff (h : args.Any) (segments : List String) (callArgs : List Expr) :
    processExpr args (.call (.path segments) callArgs) =
        wrapExpr args (.call (.path segments) callArgs) ↔
      HeadExpr (.call (.path segments) callArgs) := by
  rw [processExpr_name, wrapExpr_name, HeadExpr]
  cases happ : isAppNewCall segments with
  | true =>
      rw [if_pos rfl, if_pos (show callsAppNew (.path segments) = true from happ)]
      cases callArgs with
      | nil =>
          rw [if_pos (show isAppNew (.path segments) [] = true from happ)]
          exact iff_of_true rfl rfl
      | cons first rest =>
          rw [if_neg (show isAppNew (.path segments) (first :: rest) ≠ true from nofun)]
          exact iff_of_false (addMethodCall_ne h happ _ _) nofun
  | false =>
      have hnew : isAppNew (.path segments) callArgs = false := by
        cases callArgs with
        | nil => exact happ
        | cons => rfl
      rw [hnew, show callsAppNew (.path segments) = false from happ]
      simp only [Bool.false_eq_true, if_false, Expr.call.injEq, true_and, HeadExpr]
      rw [eq_comm, wrapExprs_eq_self_iff h]

/-- The macro wraps what stands at the head, and only that. -/
theorem processExpr_eq_wrap_iff (h : args.Any) :
    ∀ e : Expr, processExpr args e = wrapExpr args e ↔ HeadExpr e
  | .path segments => by simp [processExpr, wrapExpr, HeadExpr]
  | .methodCall receiver method callArgs => by
      rw [processExpr, wrapExpr, Expr.methodCall.injEq, processExpr_eq_wrap_iff h receiver,
        eq_comm (a := callArgs), wrapExprs_eq_self_iff h callArgs, HeadExpr]
      simp
  | .await base => by
      rw [processExpr, wrapExpr, Expr.await.injEq, processExpr_eq_wrap_iff h base, HeadExpr]
  | .other form operands block => by
      rw [processExpr, eq_comm, wrapExpr_eq_self_iff h, FreeExpr, HeadExpr]
  | .call func callArgs => by
      by_cases hpath : ∃ segments, func = .path segments
      · obtain ⟨segments, rfl⟩ := hpath
        exact processExpr_name_iff h segments callArgs
      · have hne : ∀ segments, func ≠ .path segments := fun segments heq => hpath ⟨segments, heq⟩
        rw [processExpr_call hne, wrapExpr, isAppNew_ne_path hne, HeadExpr, callsAppNew_ne_path hne]
        simp only [Bool.false_eq_true, if_false, Expr.call.injEq]
        rw [processExpr_eq_wrap_iff h func, eq_comm, wrapExprs_eq_self_iff h]

theorem processStmt_eq_wrap_iff (h : args.Any) (stmt : Stmt) :
    processStmt args stmt = wrapStmt args stmt ↔ HeadStmt stmt := by
  cases stmt with
  | expr e semi =>
      rw [processStmt, wrapStmt, Stmt.expr.injEq, processExpr_eq_wrap_iff h, HeadStmt]
      simp
  | binding pat init => exact eq_comm.trans (wrapStmt_eq_self_iff h _)
  | item text body => exact eq_comm.trans (wrapStmt_eq_self_iff h _)
  | tokens text => exact eq_comm.trans (wrapStmt_eq_self_iff h _)

theorem processStmts_eq_wrap_iff (h : args.Any) (stmts : List Stmt) :
    stmts.map (processStmt args) = wrapStmts args stmts ↔ ∀ stmt ∈ stmts, HeadStmt stmt := by
  induction stmts with
  | nil => simp [wrapStmts]
  | cons stmt rest ih =>
      rw [List.map_cons, wrapStmts, List.cons.injEq, processStmt_eq_wrap_iff h, ih,
        List.forall_mem_cons]

/-- With nothing requested the body stays as it is. -/
theorem processExpr_of_not_any (h : ¬ args.Any) : ∀ e : Expr, processExpr args e = e
  | .path segments => by rw [processExpr]
  | .methodCall receiver method callArgs => by rw [processExpr, processExpr_of_not_any h receiver]
  | .await base => by rw [processExpr, processExpr_of_not_any h base]
  | .other form operands block => by rw [processExpr]
  | .call func callArgs => by
      rw [processExpr, processExpr_of_not_any h func]
      split
      · rw [addMethodCall_of_not_any h, ite_self]
      · rfl

theorem processStmt_of_not_any (h : ¬ args.Any) (stmt : Stmt) : processStmt args stmt = stmt := by
  cases stmt with
  | expr e semi => rw [processStmt, processExpr_of_not_any h]
  | _ => rfl

end

/-- For every list of arguments and every body: the expansion is an error or wraps each
`App::new()`, exactly if the arguments do not parse, request nothing, or each `App::new()` is at
the head of a statement. -/
theorem nothingDropped_iff (tokens : TokenStream) (stmts : List Stmt) :
    NothingDropped tokens stmts ↔
      (∀ args, parseAll ConfigArgs.parse tokens ≠ .ok args) ∨ ¬ (requested tokens).Any ∨
        ∀ stmt ∈ stmts, HeadStmt stmt := by
  unfold NothingDropped config
  cases hparse : parseAll ConfigArgs.parse tokens with
  | error e => exact iff_of_true nofun (.inl nofun)
  | ok args =>
      obtain rfl := parse_ok hparse
      simp only [Except.ok.injEq, forall_eq']
      rw [or_iff_right (fun hnone => hnone _ rfl)]
      by_cases hany : (requested tokens).Any
      · rw [processStmts_eq_wrap_iff hany, or_iff_right (not_not_intro hany)]
      · refine iff_of_true ?_ (.inl hany)
        rw [wrapStmts_of_not_any hany, List.map_congr_left (g := id)
          (fun stmt _ => processStmt_of_not_any hany stmt), List.map_id]

namespace Sample

def appNew : Expr := .call (.path ["App", "new"]) []

/-- `let app = App::new(); app.run().await;`. -/
def boundApp : List Stmt :=
  [.binding "app" [appNew],
    .expr (.await (.methodCall (.path ["app"]) "run" [])) true]

/-- `App::new().run().await?;`. -/
def questionedApp : List Stmt :=
  [.expr (.other .question [.await (.methodCall appNew "run" [])] []) true]

end Sample

/-- Bound by a `let` or under a `?`, the application gets no routes, and nothing is reported. -/
theorem bound_app_without_routes :
    config [.ident "WebConfigurator"] (some Sample.boundApp) = .ok Sample.boundApp ∧
      ¬ NothingDropped [.ident "WebConfigurator"] Sample.boundApp ∧
      config [.ident "WebConfigurator"] (some Sample.questionedApp) = .ok Sample.questionedApp ∧
      ¬ NothingDropped [.ident "WebConfigurator"] Sample.questionedApp := by
  refine ⟨rfl, fun h => ?_, rfl, fun h => ?_⟩
  · have heq := h _ rfl
    cases heq
  · have heq := h _ rfl
    cases heq

end Summer.Macros.Auto
