/-
The `nest` macro (`summer-macros/src/nest.rs`), which prepends a path to the handlers of a
module.

The macro knows the routing attributes by a list of names of its own
(`hasAllowedMethodsInNest`).  The list has the eight methods and `route`, but not
`api_route` and the `_api` forms that `lib.rs` exports, and it has `ROUTE`, which is no
routing macro.  Here the list is compared with the exported macros (`isRoutingAttr`).
-/
import Summer.Macros.NothingLost

namespace Summer.Macros

variable {E : Type}

/-! ## The macro -/

/-- Every option after a comma of its own. -/
def optionTokens (metaTokens : Meta → TokenStream) (options : List Meta) : TokenStream :=
  options.flatMap fun option => .punct ',' :: metaTokens option

/-- The arguments of a route as `quote!` writes them. -/
def RouteArgs.toTokens (metaTokens : Meta → TokenStream) (args : RouteArgs) : TokenStream :=
  .str args.path :: optionTokens metaTokens args.options

def hasAllowedMethodsInNest (attr : Attribute) : Bool :=
  (Method.fromPath attr.path).isSome || attr.path.isIdent "route" || attr.path.isIdent "ROUTE"

def modifyAttributeWithNest (syn : Syn E) (metaTokens : Meta → TokenStream) (nestPath : String)
    (attr : Attribute) : Attribute :=
  match attr.parseArgs (RouteArgs.parse syn), attr.content with
  | .ok routeArgs, .list p _ =>
    if hasAllowedMethodsInNest attr then
      { content := .list p
          (RouteArgs.toTokens metaTokens { routeArgs with path := nestPath ++ routeArgs.path }) }
    else
      attr
  | _, _ => attr

def nestItem (syn : Syn E) (metaTokens : Meta → TokenStream) (nestPath : String) : Item → Item
  | .fn function =>
    .fn { function with
      attrs := function.attrs.map (modifyAttributeWithNest syn metaTokens nestPath) }
  | .other text => .other text

def nestModule (syn : Syn E) (metaTokens : Meta → TokenStream) (nestPath : String)
    (module : ItemMod) : ItemMod :=
  { module with
    content := module.content.map fun items => items.map (nestItem syn metaTokens nestPath) }

/-- `input` is what `syn` reads as the module below the attribute. -/
def withNestInner (syn : Syn E) (metaTokens : Meta → TokenStream) (args : TokenStream)
    (input : Option ItemMod) : Except MacroError ItemMod :=
  if args = [] then
    .error (.message "missing arguments for nest macro, expected: #[nest(\"/prefix\")]")
  else
    match parseAll litStr args with
    | .error _ =>
      .error (.message
        "argument to nest macro is not a string literal, expected: #[nest(\"/prefix\")]")
    | .ok nestPath =>
      if nestPath.toList.getLast? = some '/' then
        .error (.message ("nests should not have trailing slashes; " ++
          "see https://github.com/tokio-rs/axum/issues/714"))
      else
        match input with
        | none => .error (.message "#[nest] macro must be attached to a module")
        | some module => .ok (nestModule syn metaTokens nestPath module)

/-! ## What it is for -/

/-- The attribute names an exported macro that takes a path of its own. -/
def isRoutingAttr (attr : Attribute) : Bool :=
  routingMacros.any fun d => decide (d.2.1 ≠ .many) && attr.path.isIdent d.1

/-- A routing attribute with arguments gets the prefix and keeps its options; any other
attribute is left as it is. -/
def AttrNested (syn : Syn E) (nestPath : String) (attr attr' : Attribute) : Prop :=
  match isRoutingAttr attr, attr.parseArgs (RouteArgs.parse syn) with
  | true, .ok args =>
    attr'.path = attr.path ∧
      attr'.parseArgs (RouteArgs.parse syn) = .ok { args with path := nestPath ++ args.path }
  | _, _ => attr' = attr

inductive ItemNested (syn : Syn E) (nestPath : String) : Item → Item → Prop
  | fn (function : ItemFn) (attrs : List Attribute)
      (h : List.Forall₂ (AttrNested syn nestPath) function.attrs attrs) :
      ItemNested syn nestPath (.fn function) (.fn { function with attrs := attrs })
  | other (text : String) : ItemNested syn nestPath (.other text) (.other text)

/-- The module with the prefix on every handler directly in it. -/
def Nested (syn : Syn E) (nestPath : String) (module module' : ItemMod) : Prop :=
  module'.ident = module.ident ∧ module'.attrs = module.attrs ∧
    match module.content, module'.content with
    | some items, some items' => List.Forall₂ (ItemNested syn nestPath) items items'
    | none, none => True
    | _, _ => False

/-- The functions directly in a module. -/
def ItemMod.functions (module : ItemMod) : List ItemFn :=
  (module.content.getD []).filterMap fun item =>
    match item with
    | .fn function => some function
    | .other _ => none

/-- How `syn` prints what it has parsed: it parses to the same again, and it starts with the
path of the meta, so not with a literal. -/
structure Reprints (syn : Syn E) (metaTokens : Meta → TokenStream) : Prop where
  parse_again : ∀ tokens m rest, syn.parseMetas tokens = some (m :: rest) →
    syn.parseMetas (metaTokens m ++ optionTokens metaTokens rest) = some (m :: rest)
  no_literal : ∀ tokens m rest, syn.parseMetas tokens = some (m :: rest) →
    literalNext (metaTokens m) = false

/-! ## Names -/

/-- The exported macros that `nest` misses. -/
def apiNames : List String :=
  "api_route" :: Method.all.map fun m => m.lower ++ "_api"

theorem hasAllowedMethodsInNest_iff {attr : Attribute} :
    hasAllowedMethodsInNest attr = true ↔
      ∃ name ∈ "ROUTE" :: "route" :: Method.all.map Method.lower, attr.path = .ident name := by
  have hmethod : (Method.fromPath attr.path).isSome = true ↔
      ∃ name ∈ Method.all.map Method.lower, attr.path = .ident name := by
    unfold Method.fromPath
    rw [List.find?_isSome]
    constructor
    · intro h
      obtain ⟨m, hm, hident⟩ := h
      exact ⟨m.lower, List.mem_map_of_mem hm, Path.isIdent_iff.mp hident⟩
    · intro h
      obtain ⟨name, hname, hpath⟩ := h
      obtain ⟨m, hm, rfl⟩ := List.mem_map.mp hname
      exact ⟨m, hm, Path.isIdent_iff.mpr hpath⟩
  simp only [hasAllowedMethodsInNest, Bool.or_eq_true, hmethod, Path.isIdent_iff,
    List.exists_mem_cons_iff]
  constructor
  · intro h
    rcases h with (h | h) | h
    · exact .inr (.inr h)
    · exact .inr (.inl h)
    · exact .inl h
  · intro h
    rcases h with h | h | h
    · exact .inr h
    · exact .inl (.inr h)
    · exact .inl (.inl h)

theorem isRoutingAttr_iff {attr : Attribute} :
    isRoutingAttr attr = true ↔
      ∃ name ∈ "route" :: Method.all.map Method.lower ++ apiNames, attr.path = .ident name := by
  have hexported : ∀ d ∈ routingMacros, d.2.1 ≠ .many →
      d.1 ∈ "route" :: Method.all.map Method.lower ++ apiNames := by decide
  have hnames : ∀ name ∈ "route" :: Method.all.map Method.lower ++ apiNames,
      ∃ d ∈ routingMacros, d.2.1 ≠ .many ∧ d.1 = name := by decide
  unfold isRoutingAttr
  simp only [List.any_eq_true, Bool.and_eq_true, decide_eq_true_eq, Path.isIdent_iff]
  constructor
  · intro h
    obtain ⟨d, hd, hone, hpath⟩ := h
    exact ⟨d.1, hexported d hd hone, hpath⟩
  · intro h
    obtain ⟨name, hname, hpath⟩ := h
    obtain ⟨d, hd, hone, rfl⟩ := hnames name hname
    exact ⟨d, hd, hone, hpath⟩

/-- The routing attributes that `nest` does not look at are those with an `api` name. -/
theorem missed_iff {attr : Attribute} :
    isRoutingAttr attr = true ∧ hasAllowedMethodsInNest attr = false ↔
      ∃ name ∈ apiNames, attr.path = .ident name := by
  rw [← Bool.not_eq_true, isRoutingAttr_iff, hasAllowedMethodsInNest_iff]
  constructor
  · intro h
    obtain ⟨⟨name, hname, hpath⟩, hmissed⟩ := h
    rcases List.mem_append.mp hname with hallowed | hname
    · exact absurd ⟨name, List.mem_cons_of_mem _ hallowed, hpath⟩ hmissed
    · exact ⟨name, hname, hpath⟩
  · intro h
    obtain ⟨name, hname, hpath⟩ := h
    have happart : ∀ name ∈ apiNames, name ∉ "ROUTE" :: "route" :: Method.all.map Method.lower := by
      decide
    constructor
    · exact ⟨name, List.mem_append_right _ hname, hpath⟩
    · intro hallowed
      obtain ⟨name', hname', hpath'⟩ := hallowed
      rw [hpath, Path.ident_inj] at hpath'
      exact happart name hname (hpath' ▸ hname')

/-- The only name that `nest` looks at and that is no routing macro is `ROUTE`. -/
theorem foreign_iff {attr : Attribute} :
    isRoutingAttr attr = false ∧ hasAllowedMethodsInNest attr = true ↔
      attr.path = .ident "ROUTE" := by
  rw [← Bool.not_eq_true, isRoutingAttr_iff, hasAllowedMethodsInNest_iff]
  constructor
  · intro h
    obtain ⟨hforeign, name, hname, hpath⟩ := h
    rcases List.mem_cons.mp hname with rfl | hname
    · exact hpath
    · exact absurd ⟨name, List.mem_append_left _ hname, hpath⟩ hforeign
  · intro hpath
    have hnot : "ROUTE" ∉ "route" :: Method.all.map Method.lower ++ apiNames := by decide
    constructor
    · intro hrouting
      obtain ⟨name, hname, hpath'⟩ := hrouting
      rw [hpath, Path.ident_inj] at hpath'
      exact hnot (hpath' ▸ hname)
    · exact ⟨"ROUTE", List.mem_cons_self, hpath⟩

/-! ## Printing and parsing again -/

theorem RouteArgs.parse_options {syn : Syn E} {tokens : TokenStream} {args : RouteArgs}
    (h : RouteArgs.parse syn tokens = .ok (args, [])) :
    args.options = [] ∨ ∃ options, syn.parseMetas options = some args.options := by
  unfold RouteArgs.parse at h
  split at h
  · cases h
  · split at h
    · split at h
      · cases h
      · split at h
        · next hmetas =>
            cases h
            exact .inr ⟨_, hmetas⟩
        · cases h
    · cases h
      exact .inl rfl

theorem RouteArgs.parse_path {syn : Syn E} {tokens : TokenStream} {args : RouteArgs}
    (h : RouteArgs.parse syn tokens = .ok (args, [])) :
    ∃ rest, tokens = .str args.path :: rest := by
  unfold RouteArgs.parse at h
  cases tokens with
  | nil => cases h
  | cons token rest =>
      cases token with
      | str path =>
          have hpath : args.path = path := by
            simp only [litStr] at h
            grind
          exact ⟨rest, by rw [hpath]⟩
      | ident name => cases h
      | lit text => cases h
      | punct c => cases h
      | group content => cases h

theorem literalNext_append {first rest : TokenStream} (hfirst : literalNext first = false)
    (hrest : literalNext rest = false) : literalNext (first ++ rest) = false := by
  cases first with
  | nil => exact hrest
  | cons token first => cases token <;> first | rfl | cases hfirst

theorem literalNext_optionTokens (metaTokens : Meta → TokenStream) (options : List Meta) :
    literalNext (optionTokens metaTokens options) = false := by
  cases options with
  | nil => rfl
  | cons option rest => rfl

/-- Arguments that were parsed keep their options when they are printed with another path. -/
theorem Reprints.parse_toTokens {syn : Syn E} {metaTokens : Meta → TokenStream}
    (hprint : Reprints syn metaTokens) {tokens : TokenStream} {args : RouteArgs}
    (h : RouteArgs.parse syn tokens = .ok (args, [])) (path : String) :
    RouteArgs.parse syn (RouteArgs.toTokens metaTokens { args with path := path }) =
      .ok ({ args with path := path }, []) := by
  have hoptions := RouteArgs.parse_options h
  cases args with
  | mk oldPath options =>
      cases options with
      | nil => rfl
      | cons m rest =>
          rcases hoptions with hnil | ⟨source, hsource⟩
          · cases hnil
          have hliteral : literalNext (metaTokens m ++ optionTokens metaTokens rest) = false :=
            literalNext_append (hprint.no_literal source m rest hsource)
              (literalNext_optionTokens metaTokens rest)
          have hagain := hprint.parse_again source m rest hsource
          show RouteArgs.parse syn (.str path :: .punct ',' ::
            (metaTokens m ++ optionTokens metaTokens rest)) = _
          simp only [RouteArgs.parse, litStr, hliteral, hagain, Bool.false_eq_true, if_false]

/-! ## The rewritten attributes -/

section
variable {syn : Syn E} {metaTokens : Meta → TokenStream} {nestPath : String} {attr : Attribute}

theorem modify_of_error {e : MacroError} (h : attr.parseArgs (RouteArgs.parse syn) = .error e) :
    modifyAttributeWithNest syn metaTokens nestPath attr = attr := by
  unfold modifyAttributeWithNest
  rw [h]

theorem modify_of_not_allowed (h : hasAllowedMethodsInNest attr = false) :
    modifyAttributeWithNest syn metaTokens nestPath attr = attr := by
  unfold modifyAttributeWithNest
  split
  · rw [h]
    rfl
  · rfl

theorem modify_of_allowed {args : RouteArgs} (hallowed : hasAllowedMethodsInNest attr = true)
    (h : attr.parseArgs (RouteArgs.parse syn) = .ok args) :
    modifyAttributeWithNest syn metaTokens nestPath attr =
      { content := .list attr.path
          (RouteArgs.toTokens metaTokens { args with path := nestPath ++ args.path }) } := by
  obtain ⟨p, tokens, hcontent, _⟩ := Attribute.parseArgs_ok_iff.mp h
  have hpath : attr.path = p := by rw [Attribute.path, hcontent]; rfl
  unfold modifyAttributeWithNest
  rw [h, hcontent, hpath]
  simp only [hallowed, if_true]

/-- What the attributes of a handler must be like for `nest` to do what it is for: an
attribute with an `api` name keeps its path, and an attribute named `ROUTE` is rewritten. -/
def Recognised (syn : Syn E) (metaTokens : Meta → TokenStream) (nestPath : String)
    (attr : Attribute) : Prop :=
  ∀ args, attr.parseArgs (RouteArgs.parse syn) = .ok args →
    ((∃ name ∈ apiNames, attr.path = .ident name) → nestPath = "") ∧
      (attr.path = .ident "ROUTE" →
        nestPath = "" ∧ attr.macroArgs = some (RouteArgs.toTokens metaTokens args))

theorem recognised_of_name {name : String} (h : attr.path = .ident name)
    (hname : name ∉ "ROUTE" :: apiNames) : Recognised syn metaTokens nestPath attr := by
  intro args _
  constructor
  · intro hapi
    obtain ⟨name', hname', hpath⟩ := hapi
    rw [h, Path.ident_inj] at hpath
    exact absurd (List.mem_cons_of_mem _ (hpath ▸ hname')) hname
  · intro hpath
    rw [h, Path.ident_inj] at hpath
    exact absurd (hpath ▸ List.mem_cons_self) hname

theorem prepend_eq_self {nestPath path : String} : nestPath ++ path = path ↔ nestPath = "" := by
  constructor
  · intro h
    have hempty : nestPath ++ path = "" ++ path := by rw [h, String.empty_append]
    exact (String.append_left_inj path).mp hempty
  · intro h
    rw [h, String.empty_append]

theorem attrNested_of_routing {attr' : Attribute} {args : RouteArgs}
    (hrouting : isRoutingAttr attr = true)
    (hparse : attr.parseArgs (RouteArgs.parse syn) = .ok args) :
    AttrNested syn nestPath attr attr' ↔
      attr'.path = attr.path ∧
        attr'.parseArgs (RouteArgs.parse syn) =
          .ok { args with path := nestPath ++ args.path } := by
  unfold AttrNested
  rw [hrouting, hparse]

theorem attrNested_of_foreign {attr' : Attribute} (hforeign : isRoutingAttr attr = false) :
    AttrNested syn nestPath attr attr' ↔ attr' = attr := by
  unfold AttrNested
  rw [hforeign]

theorem attrNested_of_error {attr' : Attribute} {e : MacroError}
    (h : attr.parseArgs (RouteArgs.parse syn) = .error e) :
    AttrNested syn nestPath attr attr' ↔ attr' = attr := by
  unfold AttrNested
  rw [h]
  split
  · next heq => cases heq
  · exact Iff.rfl

/-- A routing attribute that is left as it is has the right path for the empty prefix only. -/
theorem attrNested_self_iff {args : RouteArgs} (hrouting : isRoutingAttr attr = true)
    (hparse : attr.parseArgs (RouteArgs.parse syn) = .ok args) :
    AttrNested syn nestPath attr attr ↔ nestPath = "" := by
  rw [attrNested_of_routing hrouting hparse, hparse]
  constructor
  · intro h
    have hargs := Except.ok.inj h.2
    exact prepend_eq_self.mp (congrArg RouteArgs.path hargs).symm
  · intro h
    rw [h, String.empty_append]
    exact ⟨rfl, rfl⟩

/-- The rewriting leaves an attribute as it is for the empty prefix only, and only when the
arguments were written as the macro prints them. -/
theorem modify_eq_self_iff {args : RouteArgs} (hallowed : hasAllowedMethodsInNest attr = true)
    (hparse : attr.parseArgs (RouteArgs.parse syn) = .ok args) :
    modifyAttributeWithNest syn metaTokens nestPath attr = attr ↔
      nestPath = "" ∧ attr.macroArgs = some (RouteArgs.toTokens metaTokens args) := by
  obtain ⟨p, tokens, hcontent, htokens⟩ := Attribute.parseArgs_ok_iff.mp hparse
  have hmacro : attr.macroArgs = some tokens := by rw [Attribute.macroArgs, hcontent]
  have hpath : attr.path = p := by rw [Attribute.path, hcontent]; rfl
  have hattr : attr = { content := .list p tokens } := by rw [← hcontent]
  have hfirst : ∃ rest, tokens = .str args.path :: rest := RouteArgs.parse_path htokens
  rw [modify_of_allowed hallowed hparse, hmacro, hpath]
  constructor
  · intro h
    rw [hattr] at h
    have heq : RouteArgs.toTokens metaTokens { args with path := nestPath ++ args.path } = tokens :=
      (Meta.list.inj (congrArg Attribute.content h)).2
    obtain ⟨rest, hrest⟩ := hfirst
    rw [hrest] at heq
    have hprepend : nestPath ++ args.path = args.path := Token.str.inj (List.cons.inj heq).1
    have hempty := prepend_eq_self.mp hprepend
    rw [hprepend, ← hrest] at heq
    exact ⟨hempty, congrArg some heq.symm⟩
  · intro h
    obtain ⟨hempty, htokens'⟩ := h
    rw [hattr, hempty, String.empty_append, Option.some.inj htokens']

/-- A rewritten attribute parses to the path with the prefix and to the same options. -/
theorem attrNested_modify_of_allowed (hprint : Reprints syn metaTokens) {args : RouteArgs}
    (hrouting : isRoutingAttr attr = true) (hallowed : hasAllowedMethodsInNest attr = true)
    (hparse : attr.parseArgs (RouteArgs.parse syn) = .ok args) :
    AttrNested syn nestPath attr (modifyAttributeWithNest syn metaTokens nestPath attr) := by
  obtain ⟨p, tokens, _, htokens⟩ := Attribute.parseArgs_ok_iff.mp hparse
  rw [attrNested_of_routing hrouting hparse, modify_of_allowed hallowed hparse]
  constructor
  · rfl
  · exact Attribute.parseArgs_ok_iff.mpr
      ⟨_, _, rfl, hprint.parse_toTokens htokens (nestPath ++ args.path)⟩

theorem attrNested_modify_iff (hprint : Reprints syn metaTokens) :
    AttrNested syn nestPath attr (modifyAttributeWithNest syn metaTokens nestPath attr) ↔
      Recognised syn metaTokens nestPath attr := by
  cases hparse : attr.parseArgs (RouteArgs.parse syn) with
  | error e =>
      rw [modify_of_error hparse, attrNested_of_error hparse]
      simp [Recognised, hparse]
  | ok args =>
      have hrecognised : Recognised syn metaTokens nestPath attr ↔
          (isRoutingAttr attr = true ∧ hasAllowedMethodsInNest attr = false → nestPath = "") ∧
            (isRoutingAttr attr = false ∧ hasAllowedMethodsInNest attr = true →
              nestPath = "" ∧ attr.macroArgs = some (RouteArgs.toTokens metaTokens args)) := by
        rw [missed_iff, foreign_iff]
        simp [Recognised, hparse]
      rw [hrecognised]
      cases hrouting : isRoutingAttr attr with
      | true =>
          cases hallowed : hasAllowedMethodsInNest attr with
          | true =>
              have hnested := @attrNested_modify_of_allowed E syn metaTokens nestPath attr hprint
                args hrouting hallowed hparse
              simp [hnested]
          | false =>
              rw [modify_of_not_allowed hallowed, attrNested_self_iff hrouting hparse]
              simp
      | false =>
          rw [attrNested_of_foreign hrouting]
          cases hallowed : hasAllowedMethodsInNest attr with
          | true =>
              rw [modify_eq_self_iff hallowed hparse]
              simp
          | false =>
              rw [modify_of_not_allowed hallowed]
              simp

/-! ## The module -/

theorem withNestInner_ok_iff {args : TokenStream} {input : Option ItemMod} {out : ItemMod} :
    withNestInner syn metaTokens args input = .ok out ↔
      ∃ nestPath module, args = [.str nestPath] ∧ nestPath.toList.getLast? ≠ some '/' ∧
        input = some module ∧ out = nestModule syn metaTokens nestPath module := by
  unfold withNestInner
  split
  · next hempty => simp [hempty]
  · split
    · next hliteral =>
        simp only [reduceCtorEq, false_iff]
        intro h
        obtain ⟨nestPath, module, rfl, _⟩ := h
        cases hliteral
    · next nestPath hliteral =>
        have hargs : args = [.str nestPath] := litStr_ok_iff.mp (parseAll_ok_iff.mp hliteral)
        subst hargs
        split
        · next hslash => simp [hslash]
        · next hslash =>
            cases input with
            | none => simp
            | some module =>
                simp only [Except.ok.injEq, List.cons.injEq, Token.str.injEq, and_true,
                  Option.some.injEq]
                constructor
                · intro h
                  exact ⟨nestPath, module, rfl, hslash, rfl, h.symm⟩
                · intro h
                  obtain ⟨_, _, rfl, _, rfl, rfl⟩ := h
                  rfl

theorem itemNested_nestItem_iff (hprint : Reprints syn metaTokens) {item : Item} :
    ItemNested syn nestPath item (nestItem syn metaTokens nestPath item) ↔
      ∀ function, item = .fn function → ∀ attr ∈ function.attrs,
        Recognised syn metaTokens nestPath attr := by
  have hattrs : ∀ function : ItemFn,
      List.Forall₂ (AttrNested syn nestPath) function.attrs
          (function.attrs.map (modifyAttributeWithNest syn metaTokens nestPath)) ↔
        ∀ attr ∈ function.attrs, Recognised syn metaTokens nestPath attr := by
    intro function
    rw [List.forall₂_map_right_iff, List.forall₂_same]
    simp only [attrNested_modify_iff hprint]
  cases item with
  | fn function =>
      simp only [Item.fn.injEq, forall_eq', ← hattrs]
      constructor
      · intro h
        generalize hout : nestItem syn metaTokens nestPath (.fn function) = out at h
        cases h with
        | fn _ attrs hnested =>
            have hattrs' : function.attrs.map (modifyAttributeWithNest syn metaTokens nestPath) =
                attrs := congrArg ItemFn.attrs (Item.fn.inj hout)
            rw [hattrs']
            exact hnested
      · exact ItemNested.fn function _
  | other text =>
      constructor
      · intro _ _ h
        cases h
      · intro _
        exact .other text

theorem nested_nestModule_iff (hprint : Reprints syn metaTokens) {module : ItemMod} :
    Nested syn nestPath module (nestModule syn metaTokens nestPath module) ↔
      ∀ function ∈ module.functions, ∀ attr ∈ function.attrs,
        Recognised syn metaTokens nestPath attr := by
  cases module with
  | mk ident moduleAttrs content =>
      cases content with
      | none => simp [Nested, nestModule, ItemMod.functions]
      | some items =>
          simp only [Nested, nestModule, Option.map_some, true_and, List.forall₂_map_right_iff,
            List.forall₂_same, itemNested_nestItem_iff hprint, ItemMod.functions,
            Option.getD_some, List.mem_filterMap]
          constructor
          · intro h function hfunction
            obtain ⟨item, hitem, heq⟩ := hfunction
            cases item with
            | fn f => exact h _ hitem function (by rw [Option.some.inj heq])
            | other text => cases heq
          · intro h item hitem function heq
            exact h function ⟨item, hitem, by rw [heq]⟩

/-- `nest` does what it is for exactly if no handler has an `api` attribute that keeps its
path or an attribute named `ROUTE` that does not. -/
theorem nest_iff_recognised (hprint : Reprints syn metaTokens) (module : ItemMod)
    (hslash : nestPath.toList.getLast? ≠ some '/') :
    (∃ out, withNestInner syn metaTokens [.str nestPath] (some module) = .ok out ∧
        Nested syn nestPath module out) ↔
      ∀ function ∈ module.functions, ∀ attr ∈ function.attrs,
        Recognised syn metaTokens nestPath attr := by
  rw [← nested_nestModule_iff hprint]
  constructor
  · intro h
    obtain ⟨out, hout, hnested⟩ := h
    obtain ⟨_, _, hargs, _, hinput, rfl⟩ := withNestInner_ok_iff.mp hout
    cases hargs
    cases hinput
    exact hnested
  · intro hnested
    exact ⟨_, withNestInner_ok_iff.mpr ⟨nestPath, module, rfl, hslash, rfl, rfl⟩, hnested⟩

end

namespace NestSample

def metaTokens : Meta → TokenStream
  | .path p => p.segments.map .ident
  | .nameValue p (.str value) => p.segments.map .ident ++ [.punct '=', .str value]
  | .nameValue _ (.other _) => []
  | .list _ _ => []

theorem reprints : Reprints Sample.syn metaTokens := by
  constructor
  · intro tokens m rest h
    simp only [Sample.syn] at h
    split at h
    · cases h
    · cases h
      rfl
    · cases h
      rfl
    · cases h
  · intro tokens m rest h
    simp only [Sample.syn] at h
    split at h
    · cases h
    · cases h
      rfl
    · cases h
      rfl
    · cases h

/-- `#[get_api("/users")]`. -/
def documented : ItemFn where
  ident := "documented"
  attrs := [⟨.list (.ident "get_api") [.str "/users"]⟩]
  isAsync := true
  hasReturnType := true

def module (function : ItemFn) : ItemMod where
  ident := "api"
  attrs := []
  content := some [.fn function]

end NestSample

/-- `#[route("/users", method = "GET")]` below `#[nest("/api")]`. -/
theorem nest_route :
    ∃ out, withNestInner Sample.syn NestSample.metaTokens [.str "/api"]
        (some (NestSample.module Sample.listUsers)) = .ok out ∧
      Nested Sample.syn "/api" (NestSample.module Sample.listUsers) out := by
  apply (nest_iff_recognised NestSample.reprints _ (by decide)).mpr
  intro function hfunction attr hattr
  obtain rfl := List.mem_singleton.mp hfunction
  obtain rfl := List.mem_singleton.mp hattr
  exact @recognised_of_name String _ _ _ _ "route" rfl (by decide)

/-- A handler of `get_api` stays at its path. -/
theorem get_api_not_nested :
    ¬ ∃ out, withNestInner Sample.syn NestSample.metaTokens [.str "/api"]
        (some (NestSample.module NestSample.documented)) = .ok out ∧
      Nested Sample.syn "/api" (NestSample.module NestSample.documented) out := by
  intro h
  obtain ⟨out, hout, hnested⟩ := h
  obtain ⟨_, _, hargs, _, hinput, rfl⟩ := withNestInner_ok_iff.mp hout
  cases hargs
  cases hinput
  have hrecognised := (nested_nestModule_iff NestSample.reprints).mp hnested
    NestSample.documented List.mem_cons_self _ List.mem_cons_self
  have hempty := (hrecognised { path := "/users", options := [] } rfl).1
    ⟨"get_api", by decide, rfl⟩
  exact absurd hempty (by decide)

end Summer.Macros
