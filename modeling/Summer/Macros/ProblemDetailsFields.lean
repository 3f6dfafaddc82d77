/-
What the problem details of a variant say, field by field, against what the attributes of the
variant declare.
-/
import Summer.Macros.ProblemDetails

namespace Summer.Macros

open Summer.Web (ProblemDetails)

/-! ## What the attributes declare -/

inductive TextAttribute
  | problemType
  | title
  | detail
  | uri
deriving DecidableEq, Repr

def TextAttribute.name : TextAttribute → String
  | .problemType => "problem_type"
  | .title => "title"
  | .detail => "detail"
  | .uri => "instance"

structure Declared where
  statusCode : UInt16
  texts : TextAttribute → Option String
  errors : List Attribute

def textAttribute (name text : String) : Attribute := ⟨.list (.ident name) [.str text]⟩

/-- The attributes may stand in any order, between others. -/
structure Declares (digits : String → Option ℕ) (attrs : List Attribute) (d : Declared) : Prop where
  statusCode : ∃ text, digits text = some d.statusCode.toNat ∧
    attrs.find? (fun attr => attr.path.isIdent "status_code") =
      some ⟨.list (.ident "status_code") [.lit text]⟩
  texts : ∀ a, attrs.find? (fun attr => attr.path.isIdent a.name) =
    (d.texts a).map (textAttribute a.name)
  errors : attrs.filter (fun attr => attr.path.isIdent "error") = d.errors

def Declared.NoBraces (d : Declared) : Prop :=
  ∀ a text, d.texts a = some text → hasBraces text = false

section
variable (format : String → String) (variant : Variant) (d : Declared)

/-- The text for a field: an attribute, else the format of `#[error]`, else a default. -/
def Declared.text (given : Option String) (default : String) : String :=
  match given with
  | some text => text
  | none =>
    match getErrorFormatFromAttrs d.errors with
    | some text => (generateFormatExpr variant.fields text).eval format
    | none => default

def Declared.titleText : String :=
  d.text format variant ((d.texts .title).or (titleOfError d.errors)) (variant.ident ++ " Error")

def Declared.detailText : String :=
  d.text format variant (d.texts .detail) (variant.ident ++ " occurred")

end

/-- The title and the detail of the constructor for a status code, which stands in for what the
attributes say; `none` for a detail is one that is taken over. -/
def fixedTexts (statusCode : UInt16) : Option (String × Option String) :=
  if statusCode = 400 then some ("Validation Error", none)
  else if statusCode = 401 then some ("Authentication Required",
    some "Authentication credentials are required to access this resource")
  else if statusCode = 403 then some ("Insufficient Permissions",
    some "You don't have permission to access this resource")
  else if statusCode = 500 then some ("Internal Server Error",
    some "An unexpected error occurred while processing your request")
  else if statusCode = 503 then some ("Service Unavailable",
    some "The service is temporarily unavailable")
  else none

def fieldOf (p : ProblemDetails) : TextAttribute → Option String
  | .problemType => some p.problemType
  | .title => some p.title
  | .detail => p.detail
  | .uri => p.instance

/-! ## Reading the attributes -/

theorem getTextFromAttrs_eq {name : String} {attrs : List Attribute} {text : Option String}
    (h : attrs.find? (fun attr => attr.path.isIdent name) = text.map (textAttribute name)) :
    getTextFromAttrs name attrs = .ok text := by
  induction attrs with
  | nil =>
      cases text with
      | none => rfl
      | some text => cases h
  | cons attr attrs ih =>
      rw [List.find?_cons] at h
      unfold getTextFromAttrs
      cases hname : attr.path.isIdent name with
      | false =>
          rw [hname] at h
          exact ih h
      | true =>
          rw [hname] at h
          cases text with
          | none => cases h
          | some text =>
              simp only [Option.map_some, Option.some.injEq] at h
              subst h
              rfl

theorem getStatusCodeLiteral_eq {digits : String → Option ℕ} {attrs : List Attribute}
    {text : String} {statusCode : UInt16} (hdigits : digits text = some statusCode.toNat)
    (h : attrs.find? (fun attr => attr.path.isIdent "status_code") =
      some ⟨.list (.ident "status_code") [.lit text]⟩) :
    getStatusCodeLiteral digits attrs = .ok statusCode := by
  induction attrs with
  | nil => cases h
  | cons attr attrs ih =>
      rw [List.find?_cons] at h
      unfold getStatusCodeLiteral
      cases hname : attr.path.isIdent "status_code" with
      | false =>
          rw [hname] at h
          exact ih h
      | true =>
          rw [hname] at h
          simp only [Option.some.injEq] at h
          subst h
          have hparse : (Attribute.mk (.list (.ident "status_code") [.lit text])).parseArgs
              (litInt digits) = .ok statusCode.toNat := by
            apply Attribute.parseArgs_ok_iff.mpr
            refine ⟨_, _, rfl, ?_⟩
            simp only [litInt, hdigits]
          simp only [if_true, hparse, if_pos statusCode.toNat_lt, UInt16.ofNat_toNat]

theorem titleOfError_filter (attrs : List Attribute) :
    titleOfError (attrs.filter fun attr => attr.path.isIdent "error") = titleOfError attrs := by
  induction attrs with
  | nil => rfl
  | cons attr attrs ih =>
      cases hname : attr.path.isIdent "error" with
      | false =>
          rw [List.filter_cons_of_neg (by simp [hname]), titleOfError, ih]
          simp [hname]
      | true =>
          rw [List.filter_cons_of_pos (by exact hname), titleOfError, titleOfError, ih]

theorem getErrorFormatFromAttrs_filter (attrs : List Attribute) :
    getErrorFormatFromAttrs (attrs.filter fun attr => attr.path.isIdent "error") =
      getErrorFormatFromAttrs attrs := by
  induction attrs with
  | nil => rfl
  | cons attr attrs ih =>
      cases hname : attr.path.isIdent "error" with
      | false =>
          rw [List.filter_cons_of_neg (by simp [hname]), getErrorFormatFromAttrs, ih]
          simp [hname]
      | true =>
          rw [List.filter_cons_of_pos (by exact hname), getErrorFormatFromAttrs,
            getErrorFormatFromAttrs, ih]

def Declared.expr (variant : Variant) (d : Declared) : DetailsExpr :=
  detailsExpr variant.fields d.statusCode variant.ident (d.texts .problemType)
    ((d.texts .title).or (titleOfError d.errors)) (d.texts .detail) (d.texts .uri)
    (getErrorFormatFromAttrs d.errors)

theorem deriveArm_eq {digits : String → Option ℕ} {variant : Variant} {d : Declared}
    (h : Declares digits variant.attrs d) :
    deriveArm digits variant = .ok
      { variant := variant.ident,
        pattern := patternOf variant.fields,
        expr := d.expr variant } := by
  obtain ⟨text, hdigits, hfind⟩ := h.statusCode
  have htitle : getTitleFromAttrs variant.attrs =
      .ok ((d.texts .title).or (titleOfError d.errors)) := by
    have hread : getTextFromAttrs "title" variant.attrs = .ok (d.texts .title) :=
      getTextFromAttrs_eq (h.texts .title)
    unfold getTitleFromAttrs
    rw [hread, ← h.errors, titleOfError_filter]
    cases d.texts .title <;> rfl
  have herror : getErrorFormatFromAttrs variant.attrs = getErrorFormatFromAttrs d.errors := by
    rw [← h.errors, getErrorFormatFromAttrs_filter]
  have htype : getProblemTypeFromAttrs variant.attrs = .ok (d.texts .problemType) :=
    getTextFromAttrs_eq (h.texts .problemType)
  have hdetail : getDetailFromAttrs variant.attrs = .ok (d.texts .detail) :=
    getTextFromAttrs_eq (h.texts .detail)
  have hinstance : getInstanceFromAttrs variant.attrs = .ok (d.texts .uri) :=
    getTextFromAttrs_eq (h.texts .uri)
  unfold deriveArm generateProblemDetailsForVariant
  rw [getStatusCodeLiteral_eq hdigits hfind, htype, htitle, hdetail, hinstance, herror]
  rfl

/-! ## The fields of the result -/

section
variable {format : String → String} {variant : Variant} {d : Declared}

theorem hasBraces_of_mem_titleOfError {attrs : List Attribute} {text : String}
    (h : titleOfError attrs = some text) : hasBraces text = false := by
  induction attrs with
  | nil => cases h
  | cons attr attrs ih =>
      unfold titleOfError at h
      split at h
      · split at h
        · split at h
          · cases h
          · next hbraces =>
              cases h
              exact Bool.eq_false_iff.mpr hbraces
        · exact ih h
      · exact ih h

theorem textExpr_eval {given : Option String} {default : String}
    (h : ∀ text, given = some text → hasBraces text = false) :
    (textExpr variant.fields given (getErrorFormatFromAttrs d.errors) default).eval format =
      d.text format variant given default := by
  unfold textExpr Declared.text
  cases given with
  | some text =>
      simp only [resolveStringOrFormatExpr, h text rfl]
      rfl
  | none => cases getErrorFormatFromAttrs d.errors <;> rfl

theorem Declared.NoBraces.title (h : d.NoBraces) (text : String)
    (htext : (d.texts .title).or (titleOfError d.errors) = some text) :
    hasBraces text = false := by
  cases htitle : d.texts .title with
  | some title =>
      rw [htitle, Option.some_or, Option.some.injEq] at htext
      exact h .title text (htext ▸ htitle)
  | none =>
      rw [htitle, Option.none_or] at htext
      exact hasBraces_of_mem_titleOfError htext

/-- The fields, if every attribute is taken over. -/
def uniformField (format : String → String) (variant : Variant) (d : Declared) :
    TextAttribute → Option String
  | .problemType => some ((d.texts .problemType).getD "about:blank")
  | .title => some (d.titleText format variant)
  | .detail => some (d.detailText format variant)
  | .uri => d.texts .uri

/-- The fields that the constructor for the status code leaves. -/
def fixedField (format : String → String) (variant : Variant) (d : Declared)
    (texts : String × Option String) : TextAttribute → Option String
  | .problemType => some "about:blank"
  | .title => some texts.1
  | .detail => some (texts.2.getD (d.detailText format variant))
  | .uri => none

/-- `ProblemDetails::new(..)` and the builders, with the texts of the attributes. -/
def Declared.newExpr (variant : Variant) (d : Declared) : DetailsExpr :=
  .new ((d.texts .problemType).getD "about:blank")
    (textExpr variant.fields ((d.texts .title).or (titleOfError d.errors))
      (getErrorFormatFromAttrs d.errors) (variant.ident ++ " Error"))
    d.statusCode
    (textExpr variant.fields (d.texts .detail) (getErrorFormatFromAttrs d.errors)
      (variant.ident ++ " occurred"))
    (d.texts .uri)

theorem fieldOf_newExpr (h : d.NoBraces) :
    ((d.newExpr variant).eval format).status = d.statusCode ∧
    fieldOf ((d.newExpr variant).eval format) = uniformField format variant d := by
  have htitle := @textExpr_eval format variant d _ (variant.ident ++ " Error") h.title
  have hdetail := @textExpr_eval format variant d _ (variant.ident ++ " occurred") (h .detail)
  unfold Declared.newExpr
  -- only the last field tells whether there is a uri
  refine ⟨by cases d.texts .uri <;> rfl, ?_⟩
  funext a
  cases a with
  | problemType => cases d.texts .uri <;> rfl
  | title => cases d.texts .uri <;> exact congrArg some htitle
  | detail => cases d.texts .uri <;> exact congrArg some hdetail
  | uri => cases huri : d.texts .uri <;> exact huri.symm

theorem expr_of_problemType (htype : (d.texts .problemType).isSome) :
    d.expr variant = d.newExpr variant := by
  obtain ⟨customType, htype⟩ := Option.isSome_iff_exists.mp htype
  unfold Declared.expr Declared.newExpr detailsExpr
  rw [htype]
  rfl

theorem expr_of_plain (htype : d.texts .problemType = none) (hnotFound : d.statusCode ≠ 404)
    (hfixed : fixedTexts d.statusCode = none) : d.expr variant = d.newExpr variant := by
  unfold fixedTexts at hfixed
  unfold Declared.expr Declared.newExpr detailsExpr
  rw [htype]
  split_ifs at hfixed with h400 h401 h403 h500 h503
  simp only [if_neg h400, if_neg h401, if_neg h403, if_neg hnotFound, if_neg h500, if_neg h503,
    Option.getD_none]

theorem fieldOf_fixed (h : d.NoBraces) (htype : d.texts .problemType = none)
    {texts : String × Option String} (hfixed : fixedTexts d.statusCode = some texts) :
    ((d.expr variant).eval format).status = d.statusCode ∧
    fieldOf ((d.expr variant).eval format) = fixedField format variant d texts := by
  have hdetail := @textExpr_eval format variant d _ (variant.ident ++ " occurred") (h .detail)
  unfold fixedTexts at hfixed
  unfold Declared.expr detailsExpr
  rw [htype]
  split_ifs at hfixed with h400 h401 h403 h500 h503
  all_goals
    simp only [Option.some.injEq] at hfixed
    subst hfixed
  · rw [h400]
    refine ⟨rfl, ?_⟩
    funext a
    cases a with
    | detail => exact congrArg some hdetail
    | _ => rfl
  · rw [h401]
    refine ⟨rfl, ?_⟩
    funext a
    cases a <;> rfl
  · rw [h403]
    refine ⟨rfl, ?_⟩
    funext a
    cases a <;> rfl
  · rw [h500]
    refine ⟨rfl, ?_⟩
    funext a
    cases a <;> rfl
  · rw [h503]
    refine ⟨rfl, ?_⟩
    funext a
    cases a <;> rfl

theorem sentence_ne (resource : String) :
    "The requested " ++ resource ++ " was not found" ≠ resource := by
  intro h
  have := congrArg String.length h
  simp only [String.length_append] at this
  have hlength : "The requested ".length = 14 := by decide
  omega

theorem found_ne_occurred (a b : String) : a ++ " was not found" ≠ b ++ " occurred" := by
  intro h
  have := congrArg (fun s : String => s.toList.reverse.take 2) h
  simp [String.toList_append, List.reverse_append] at this

/-- `not_found` writes a sentence around its resource, never the detail that is asked for. -/
theorem detail_of_notFound (h : d.NoBraces) (htype : d.texts .problemType = none)
    (hnotFound : d.statusCode = 404) :
    ((d.expr variant).eval format).detail ≠ some (d.detailText format variant) := by
  have hresource := @textExpr_eval format variant d _ "resource" (h .detail)
  have hexpr : d.expr variant = .notFound (textExpr variant.fields (d.texts .detail)
      (getErrorFormatFromAttrs d.errors) "resource") := by
    unfold Declared.expr detailsExpr
    rw [htype, hnotFound]
    rfl
  have heval : ((d.expr variant).eval format).detail =
      some ("The requested " ++ d.text format variant (d.texts .detail) "resource" ++
        " was not found") := by
    rw [hexpr, ← hresource]
    rfl
  rw [heval, Ne, Option.some.injEq]
  unfold Declared.detailText Declared.text
  cases d.texts .detail with
  | some text => exact sentence_ne text
  | none =>
      cases getErrorFormatFromAttrs d.errors with
      | some text => exact sentence_ne _
      | none => exact found_ne_occurred _ _

end

/-! ## The conversion of a variant within its enum -/

theorem expandDerive_others {digits : String → Option ℕ} {variants : List Variant}
    (h : ∀ v ∈ variants, ∃ arm, deriveArm digits v = .ok arm ∧ arm.pattern.fits v.fields) :
    ∃ arms, variants.mapM (deriveArm digits) = .ok arms ∧ arms.length = variants.length ∧
      ((arms.zip variants).all fun (arm, variant) => arm.pattern.fits variant.fields) = true ∧
      arms.map Arm.variant = variants.map Variant.ident := by
  induction variants with
  | nil => exact ⟨[], rfl, rfl, rfl, rfl⟩
  | cons v variants ih =>
      obtain ⟨arm, harm, hfits⟩ := h v List.mem_cons_self
      obtain ⟨arms, harms, hlength, hall, hnames⟩ :=
        ih fun w hw => h w (List.mem_cons_of_mem _ hw)
      have hname : arm.variant = v.ident := by
        unfold deriveArm at harm
        simp only [bind, Except.bind, pure, Except.pure] at harm
        split at harm
        · cases harm
        · split at harm
          · cases harm
          · cases harm
            rfl
      refine ⟨arm :: arms, ?_, ?_, ?_, ?_⟩
      · rw [List.mapM_cons, harm, harms]
        rfl
      · rw [List.length_cons, List.length_cons, hlength]
      · rw [List.zip_cons_cons, List.all_cons, hall, Bool.and_true]
        exact hfits
      · rw [List.map_cons, List.map_cons, hname, hnames]

/-- The other variants of the enum compile, and have other names. -/
structure Around (digits : String → Option ℕ) (before after : List Variant) (ident : String) :
    Prop where
  compiles : ∀ v ∈ before ++ after,
    ∃ arm, deriveArm digits v = .ok arm ∧ arm.pattern.fits v.fields
  named : ∀ v ∈ before ++ after, v.ident ≠ ident

theorem fromVariant_eq {digits : String → Option ℕ} (format : String → String)
    {before after : List Variant} {variant : Variant} {d : Declared}
    (haround : Around digits before after variant.ident)
    (hdeclares : Declares digits variant.attrs d) :
    fromVariant digits format (before ++ variant :: after) variant =
      if (patternOf variant.fields).fits variant.fields then
        some ((d.expr variant).eval format)
      else none := by
  obtain ⟨armsBefore, hbefore, hlength, hall, hnames⟩ :=
    expandDerive_others fun v hv => haround.compiles v (List.mem_append_left _ hv)
  obtain ⟨armsAfter, hafter, _, hall', _⟩ :=
    expandDerive_others fun v hv => haround.compiles v (List.mem_append_right _ hv)
  have hexpand : expandDerive digits (.enum (before ++ variant :: after)) =
      .ok (armsBefore ++ ⟨variant.ident, patternOf variant.fields, d.expr variant⟩ ::
        armsAfter) := by
    show (before ++ variant :: after).mapM (deriveArm digits) = _
    rw [List.mapM_append, hbefore, List.mapM_cons, deriveArm_eq hdeclares, hafter]
    rfl
  have hfirst : armsBefore.find? (fun arm => arm.variant = variant.ident) = none := by
    rw [List.find?_eq_none]
    intro arm harm hname
    have hmem : arm.variant ∈ before.map Variant.ident := by
      rw [← hnames]
      exact List.mem_map_of_mem harm
    obtain ⟨v, hv, hsame⟩ := List.mem_map.mp hmem
    exact haround.named v (List.mem_append_left _ hv) (hsame.trans (by simpa using hname))
  unfold fromVariant
  rw [hexpand]
  simp only [List.zip_append hlength, List.zip_cons_cons, List.all_append, List.all_cons, hall,
    hall', Bool.true_and, Bool.and_true, List.find?_append, hfirst, Option.none_or,
    List.find?_cons, decide_true, Option.map_some]

/-! ## Other attributes for the same variant -/

/-- The attributes that declare `d`, in one order. -/
def Declared.render (statusText : String) (d : Declared) : List Attribute :=
  [⟨.list (.ident "status_code") [.lit statusText]⟩] ++
    ((d.texts .problemType).map (textAttribute "problem_type")).toList ++
    ((d.texts .title).map (textAttribute "title")).toList ++
    ((d.texts .detail).map (textAttribute "detail")).toList ++
    ((d.texts .uri).map (textAttribute "instance")).toList ++ d.errors

theorem find?_textAttribute (name name' : String) (text : Option String) :
    ((text.map (textAttribute name)).toList).find? (fun attr => attr.path.isIdent name') =
      if name = name' then text.map (textAttribute name) else none := by
  cases text with
  | none => simp
  | some text =>
      have hpath : (textAttribute name text).path.isIdent name' = decide (name = name') := by
        simp [Attribute.path, textAttribute, Meta.thePath, Path.isIdent, Path.ident]
      rw [Option.map_some, Option.toList_some, List.find?_singleton, hpath]
      by_cases hname : name = name'
      · simp only [hname, decide_true, if_true]
      · simp only [hname, decide_false, Bool.false_eq_true, if_false]

theorem filter_textAttribute {name name' : String} (hname : name ≠ name') (text : Option String) :
    ((text.map (textAttribute name)).toList).filter (fun attr => attr.path.isIdent name') = [] := by
  cases text with
  | none => rfl
  | some text =>
      simp [Attribute.path, textAttribute, Meta.thePath, Path.isIdent, Path.ident, hname]

theorem declares_render {digits : String → Option ℕ} {attrs : List Attribute} {d d' : Declared}
    (h : Declares digits attrs d) (hstatus : d'.statusCode = d.statusCode)
    (herrors : d'.errors = d.errors) : ∃ attrs', Declares digits attrs' d' := by
  obtain ⟨text, hdigits, _⟩ := h.statusCode
  have herror : ∀ attr ∈ d'.errors, attr.path.isIdent "error" = true := by
    intro attr hattr
    rw [herrors, ← h.errors] at hattr
    exact (List.mem_filter.mp hattr).2
  have hother : ∀ name, name ≠ "error" →
      d'.errors.find? (fun attr => attr.path.isIdent name) = none := by
    intro name hname
    rw [List.find?_eq_none]
    intro attr hattr hident
    have := Path.isIdent_iff.mp (herror attr hattr)
    rw [this, Path.isIdent_iff, Path.ident_inj] at hident
    exact hname hident.symm
  refine ⟨d'.render text, ⟨text, hstatus ▸ hdigits, rfl⟩, ?_, ?_⟩
  · intro a
    have hfirst : (Attribute.mk (.list (.ident "status_code") [.lit text])).path.isIdent a.name =
        false := by
      cases a <;> rfl
    have hname : a.name ≠ "error" := by
      cases a <;> decide
    unfold Declared.render
    simp only [List.find?_append, List.find?_singleton, hfirst, find?_textAttribute,
      hother a.name hname]
    cases a <;> simp [TextAttribute.name]
  · have hfirst : (Attribute.mk (.list (.ident "status_code") [.lit text])).path.isIdent "error" =
        false := rfl
    unfold Declared.render
    simp only [List.filter_append, List.filter_singleton, hfirst,
      filter_textAttribute (show "problem_type" ≠ "error" by decide),
      filter_textAttribute (show "title" ≠ "error" by decide),
      filter_textAttribute (show "detail" ≠ "error" by decide),
      filter_textAttribute (show "instance" ≠ "error" by decide)]
    simpa using herror

/-! ## Which variants are honoured -/

section
variable (digits : String → Option ℕ) (format : String → String)

/-- The result has the declared texts, and one attribute leaves the fields of the others alone. -/
structure Honours (before after : List Variant) (variant : Variant) (d : Declared)
    (p : ProblemDetails) : Prop where
  result : fromVariant digits format (before ++ variant :: after) variant = some p
  present : ∀ a text, d.texts a = some text → fieldOf p a = some text
  noInstance : d.texts .uri = none → p.instance = none
  status : p.status = d.statusCode
  response : ∀ uri, (p.intoResponse uri).status = d.statusCode
  independent : ∀ attrs' d' a p', Declares digits attrs' d' → d'.NoBraces →
    d'.statusCode = d.statusCode → d'.errors = d.errors →
    (∀ b, b ≠ a → d'.texts b = d.texts b) →
    fromVariant digits format (before ++ { variant with attrs := attrs' } :: after)
      { variant with attrs := attrs' } = some p' →
    ∀ b, b ≠ a → fieldOf p' b = fieldOf p b

/-- The fixed texts for the status code are the texts that the attributes give. -/
def Declared.Agrees (variant : Variant) (d : Declared) : Prop :=
  d.statusCode ≠ 404 ∧ ∀ texts, fixedTexts d.statusCode = some texts →
    texts.1 = d.titleText format variant ∧
    texts.2.getD (d.detailText format variant) = d.detailText format variant ∧
    d.texts .uri = none

end

section
variable {digits : String → Option ℕ} {format : String → String} {before after : List Variant}
  {variant : Variant} {d : Declared}

theorem fits_iff {fields : Fields} :
    (patternOf fields).fits fields = true ↔
      ∀ types, fields = .unnamed types → types.length = 1 := by
  cases fields with
  | unit => simp [patternOf, Pattern.fits]
  | named names => simp [patternOf, Pattern.fits]
  | unnamed types =>
      rcases types with _ | ⟨first, _ | ⟨second, rest⟩⟩
      · simp [patternOf, Pattern.fits]
      · simp [patternOf, Pattern.fits]
      · simp [patternOf, Pattern.fits]

theorem status_eq (h : d.NoBraces) : ((d.expr variant).eval format).status = d.statusCode := by
  cases htype : d.texts .problemType with
  | some problemType =>
      rw [expr_of_problemType (by rw [htype]; rfl)]
      exact (fieldOf_newExpr h).1
  | none =>
      by_cases hnotFound : d.statusCode = 404
      · unfold Declared.expr detailsExpr
        rw [htype, hnotFound]
        rfl
      · cases hfixed : fixedTexts d.statusCode with
        | none =>
            rw [expr_of_plain htype hnotFound hfixed]
            exact (fieldOf_newExpr h).1
        | some texts => exact (fieldOf_fixed h htype hfixed).1

/-- Where the fixed texts agree, it makes no difference that they are used. -/
theorem fieldOf_of_agrees (h : d.NoBraces) (hagrees : d.Agrees format variant) :
    fieldOf ((d.expr variant).eval format) = uniformField format variant d := by
  cases htype : d.texts .problemType with
  | some problemType =>
      rw [expr_of_problemType (by rw [htype]; rfl)]
      exact (fieldOf_newExpr h).2
  | none =>
      cases hfixed : fixedTexts d.statusCode with
      | none =>
          rw [expr_of_plain htype hagrees.1 hfixed]
          exact (fieldOf_newExpr h).2
      | some texts =>
          obtain ⟨htitle, hdetail, huri⟩ := hagrees.2 texts hfixed
          rw [(fieldOf_fixed h htype hfixed).2]
          funext a
          cases a with
          | problemType => rw [uniformField, htype]; rfl
          | title => rw [uniformField, fixedField, htitle]
          | detail => rw [uniformField, fixedField, hdetail]
          | uri => rw [uniformField, fixedField, huri]

theorem uniformField_congr {d' : Declared} (herrors : d'.errors = d.errors) {b : TextAttribute}
    (htexts : d'.texts b = d.texts b) :
    uniformField format variant d' b = uniformField format variant d b := by
  cases b with
  | problemType => simp only [uniformField, htexts]
  | title => simp only [uniformField, Declared.titleText, Declared.text, htexts, herrors]
  | detail => simp only [uniformField, Declared.detailText, Declared.text, htexts, herrors]
  | uri => simp only [uniformField, htexts]

theorem agrees_congr {d' : Declared} (hstatus : d'.statusCode = d.statusCode)
    (herrors : d'.errors = d.errors)
    (htexts : ∀ b, b ≠ .problemType → d'.texts b = d.texts b)
    (h : d'.Agrees format variant) : d.Agrees format variant := by
  unfold Declared.Agrees Declared.titleText Declared.detailText Declared.text at *
  rwa [hstatus, herrors, htexts .title (by decide), htexts .detail (by decide),
    htexts .uri (by decide)] at h

/-- Changing one attribute of a variant that agrees leaves the other fields as they were. -/
theorem fieldOf_other {d' : Declared} (hagrees : d.Agrees format variant) (hbraces : d'.NoBraces)
    (hstatus : d'.statusCode = d.statusCode) (herrors : d'.errors = d.errors)
    {b : TextAttribute} (htexts : d'.texts b = d.texts b) :
    fieldOf ((d'.expr variant).eval format) b = uniformField format variant d b := by
  rw [← uniformField_congr herrors htexts]
  cases htype : d'.texts .problemType with
  | some problemType =>
      rw [expr_of_problemType (by rw [htype]; rfl), (fieldOf_newExpr hbraces).2]
  | none =>
      cases hfixed : fixedTexts d'.statusCode with
      | none =>
          rw [expr_of_plain htype (hstatus ▸ hagrees.1) hfixed, (fieldOf_newExpr hbraces).2]
      | some texts =>
          obtain ⟨htitle, hdetail, huri⟩ := hagrees.2 texts (hstatus ▸ hfixed)
          rw [(fieldOf_fixed hbraces htype hfixed).2]
          cases b with
          | problemType => rw [uniformField, htype]; rfl
          | title =>
              rw [uniformField_congr herrors htexts, fixedField, htitle]
              rfl
          | detail =>
              have hsame : d'.detailText format variant = d.detailText format variant := by
                simp only [Declared.detailText, Declared.text, htexts, herrors]
              rw [fixedField, hsame, hdetail, ← hsame]
              rfl
          | uri => rw [uniformField, htexts, huri]; rfl

theorem agrees_of_fields (h : d.NoBraces) (htype : d.texts .problemType = none)
    (hfields : ∀ b, b ≠ .problemType →
      fieldOf ((d.expr variant).eval format) b = uniformField format variant d b) :
    d.Agrees format variant := by
  constructor
  · intro hnotFound
    exact detail_of_notFound h htype hnotFound (hfields .detail (by decide))
  · intro texts hfixed
    rw [(fieldOf_fixed h htype hfixed).2] at hfields
    have htitle := hfields .title (by decide)
    have hdetail := hfields .detail (by decide)
    have huri := hfields .uri (by decide)
    exact ⟨Option.some.inj htitle, Option.some.inj hdetail, huri.symm⟩

/-- The same attributes with a problem type, or without the one that is there. -/
def Declared.toggle (d : Declared) : Declared :=
  { d with
    texts := fun a =>
      if a = .problemType then
        if (d.texts .problemType).isSome then none else some "about:blank"
      else d.texts a }

theorem toggle_texts {b : TextAttribute} (hb : b ≠ .problemType) :
    d.toggle.texts b = d.texts b := if_neg hb

theorem toggle_uniform {b : TextAttribute} (hb : b ≠ .problemType) :
    uniformField format variant d.toggle b = uniformField format variant d b :=
  @uniformField_congr format variant d d.toggle rfl b (toggle_texts hb)

theorem toggle_noBraces (h : d.NoBraces) : d.toggle.NoBraces := by
  intro a text htext
  by_cases ha : a = .problemType
  · subst ha
    simp only [Declared.toggle, if_true] at htext
    split at htext
    · cases htext
    · cases htext
      decide
  · rw [toggle_texts ha] at htext
    exact h a text htext

theorem agrees_of_honours {p : ProblemDetails}
    (haround : Around digits before after variant.ident)
    (hdeclares : Declares digits variant.attrs d) (hbraces : d.NoBraces)
    (hfits : (patternOf variant.fields).fits variant.fields = true)
    (h : Honours digits format before after variant d p) : d.Agrees format variant := by
  have hresult := h.result
  rw [fromVariant_eq format haround hdeclares, if_pos hfits, Option.some.injEq] at hresult
  obtain ⟨attrs', hdeclares'⟩ : ∃ attrs', Declares digits attrs' d.toggle :=
    declares_render hdeclares rfl rfl
  have hresult' := @fromVariant_eq digits format before after { variant with attrs := attrs' }
    d.toggle haround hdeclares'
  rw [if_pos hfits] at hresult'
  have hsame : ∀ b, b ≠ .problemType →
      fieldOf ((d.toggle.expr variant).eval format) b =
        fieldOf ((d.expr variant).eval format) b := by
    intro b hb
    have := h.independent attrs' d.toggle .problemType _ hdeclares' (toggle_noBraces hbraces) rfl
      rfl (fun b hb => toggle_texts hb) hresult' b hb
    rwa [← hresult] at this
  -- of the two results one is uniform
  cases htype : d.texts .problemType with
  | some problemType =>
      have huniform := (@fieldOf_newExpr format variant d hbraces).2
      rw [← expr_of_problemType (by rw [htype]; rfl)] at huniform
      apply @agrees_congr format variant d d.toggle rfl rfl (fun b hb => toggle_texts hb)
      apply agrees_of_fields (toggle_noBraces hbraces)
      · simp only [Declared.toggle, htype, Option.isSome_some, if_true]
      · intro b hb
        rw [hsame b hb, huniform]
        exact (toggle_uniform hb).symm
  | none =>
      have htoggle : (d.toggle.texts .problemType).isSome := by
        simp only [Declared.toggle, htype, Option.isSome_none, if_true, Bool.false_eq_true,
          if_false, Option.isSome_some]
      have huniform := (@fieldOf_newExpr format variant d.toggle (toggle_noBraces hbraces)).2
      rw [← expr_of_problemType htoggle] at huniform
      apply agrees_of_fields hbraces htype
      intro b hb
      rw [← hsame b hb, huniform]
      exact toggle_uniform hb

theorem honours_of_agrees (haround : Around digits before after variant.ident)
    (hdeclares : Declares digits variant.attrs d) (hbraces : d.NoBraces)
    (hvalid : 100 ≤ d.statusCode ∧ d.statusCode < 1000)
    (hfits : (patternOf variant.fields).fits variant.fields = true)
    (hagrees : d.Agrees format variant) :
    Honours digits format before after variant d ((d.expr variant).eval format) := by
  have hfields := fieldOf_of_agrees hbraces hagrees
  have hstatus := @status_eq format variant d hbraces
  refine ⟨?_, ?_, ?_, hstatus, ?_, ?_⟩
  · rw [fromVariant_eq format haround hdeclares, if_pos hfits]
  · intro a text htext
    rw [hfields]
    cases a <;> simp [uniformField, Declared.titleText, Declared.detailText, Declared.text, htext]
  · intro huri
    have := congrFun hfields .uri
    rw [uniformField, huri] at this
    exact this
  · intro uri
    show ((d.expr variant).eval format).statusCode = d.statusCode
    unfold ProblemDetails.statusCode
    rw [hstatus, if_pos hvalid]
  · intro attrs' d' a p' hdeclares' hbraces' hstatus' herrors htexts hresult b hb
    rw [@fromVariant_eq digits format before after { variant with attrs := attrs' } d' haround
      hdeclares', if_pos hfits, Option.some.injEq] at hresult
    rw [← hresult, hfields]
    exact fieldOf_other hagrees hbraces' hstatus' herrors (htexts b hb)

end

/-- Which variants are honoured, in whatever enum. -/
theorem honours_iff (digits : String → Option ℕ) (format : String → String)
    (before after : List Variant) (variant : Variant) (d : Declared)
    (haround : Around digits before after variant.ident)
    (hdeclares : Declares digits variant.attrs d) (hbraces : d.NoBraces)
    (hvalid : 100 ≤ d.statusCode ∧ d.statusCode < 1000) :
    (∃ p, Honours digits format before after variant d p) ↔
      (∀ types, variant.fields = .unnamed types → types.length = 1) ∧
        d.Agrees format variant := by
  rw [← fits_iff]
  constructor
  · rintro ⟨p, h⟩
    have hfits : (patternOf variant.fields).fits variant.fields = true := by
      have hresult := h.result
      rw [fromVariant_eq format haround hdeclares] at hresult
      by_contra hfits
      rw [if_neg hfits] at hresult
      cases hresult
    exact ⟨hfits, agrees_of_honours haround hdeclares hbraces hfits h⟩
  · rintro ⟨hfits, hagrees⟩
    exact ⟨_, honours_of_agrees haround hdeclares hbraces hvalid hfits hagrees⟩

namespace Sample

/-- A decimal literal without a suffix. -/
def digits (text : String) : Option ℕ :=
  text.toList.foldl (fun n c => n.bind fun n =>
    if c.isDigit then some (10 * n + (c.toNat - '0'.toNat)) else none) (some 0)

/-- `#[status_code(..)] #[title("Invalid")] Rejected`. -/
def rejected (statusCode : String) : Variant :=
  { ident := "Rejected",
    fields := .unit,
    attrs := [⟨.list (.ident "status_code") [.lit statusCode]⟩, textAttribute "title" "Invalid"] }

def titled (statusCode : UInt16) : Declared :=
  { statusCode := statusCode,
    texts := fun a => if a = .title then some "Invalid" else none,
    errors := [] }

theorem around (ident : String) : Around digits [] [] ident :=
  ⟨fun _ h => absurd h List.not_mem_nil, fun _ h => absurd h List.not_mem_nil⟩

theorem declares {text : String} {statusCode : UInt16}
    (h : digits text = some statusCode.toNat) :
    Declares digits (rejected text).attrs (titled statusCode) := by
  refine ⟨⟨text, h, rfl⟩, ?_, rfl⟩
  intro a
  cases a <;> rfl

theorem noBraces (statusCode : UInt16) : (titled statusCode).NoBraces := by
  intro a text htext
  cases a <;> simp [titled] at htext
  subst htext
  decide

end Sample

/-- On status 400 the constructor of validation errors replaces the title. -/
theorem title_ignored :
    ¬ ∀ (digits : String → Option ℕ) (format : String → String) (before after : List Variant)
      (variant : Variant) (d : Declared), Around digits before after variant.ident →
        Declares digits variant.attrs d → d.NoBraces →
        100 ≤ d.statusCode ∧ d.statusCode < 1000 →
        ∃ p, Honours digits format before after variant d p := by
  intro h
  have hdeclares := @Sample.declares "400" 400 (by decide)
  obtain ⟨p, hp⟩ := h Sample.digits id [] [] (Sample.rejected "400") (Sample.titled 400)
    (Sample.around _) hdeclares (Sample.noBraces 400) (by decide)
  have hresult := hp.result
  rw [fromVariant_eq id (Sample.around _) hdeclares] at hresult
  have hresult := Option.some.inj hresult
  have htitle := hp.present .title "Invalid" rfl
  rw [← hresult] at htitle
  have hfixed : "Validation Error" = "Invalid" := Option.some.inj htitle
  exact absurd hfixed (by decide)

theorem honours_sample :
    ∃ p, Honours Sample.digits id [] [] (Sample.rejected "409") (Sample.titled 409) p := by
  apply (honours_iff Sample.digits id [] [] (Sample.rejected "409") (Sample.titled 409)
    (Sample.around _) (Sample.declares (by decide)) (Sample.noBraces 409) (by decide)).mpr
  refine ⟨?_, ?_, ?_⟩
  · intro types h
    cases h
  · decide
  · intro texts h
    cases h

end Summer.Macros
