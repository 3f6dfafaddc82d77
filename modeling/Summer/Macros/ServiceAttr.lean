/-
The arguments of `#[service(...)]`: which streams the loop accepts, and what becomes of the
others (`summer-macros/src/inject.rs`).
-/
import Summer.Macros.Inject

namespace Summer.Macros

/-- Nothing or a trailing comma. -/
def TrailingComma (tokens : TokenStream) : Prop := tokens = [] ∨ tokens = [.punct ',']

/-- The streams with one key. -/
inductive ServiceForm (isPath : String → Bool) : TokenStream → ServiceAttr → Prop
  | grpc {path : String} {tail : TokenStream} : isPath path = true → TrailingComma tail →
      ServiceForm isPath (.ident "grpc" :: .punct '=' :: .str path :: tail) (.grpc path)
  | prototype {name : String} {tail : TokenStream} : TrailingComma tail →
      ServiceForm isPath (.ident "prototype" :: .punct '=' :: .str name :: tail) (.prototype name)
  | flag {tail : TokenStream} : TrailingComma tail →
      ServiceForm isPath (.ident "prototype" :: tail) (.prototype "build")

section
variable {E : Type} {syn : InjectSyn E}

theorem skipComma_eq_nil {tokens : TokenStream} : skipComma tokens = [] ↔ TrailingComma tokens := by
  unfold skipComma TrailingComma
  split
  · next rest => simp
  · next hcomma =>
      constructor
      · exact fun h => .inl h
      · rintro (h | h)
        · exact h
        · exact absurd h (hcomma [])

theorem serviceKeys_cons {keys : ServiceKeys} {tokens : TokenStream} (hne : tokens ≠ []) :
    serviceKeys syn keys tokens =
      match serviceKey syn keys tokens with
      | .error e => .error e
      | .ok (keys, rest) => serviceKeys syn keys (skipComma rest) := by
  cases tokens with
  | nil => exact absurd rfl hne
  | cons token rest =>
      rw [serviceKeys]
      split
      · next h => rw [h]
      · next h => rw [h]

/-- A second key is an error. -/
theorem serviceKeys_second {keys : ServiceKeys} {tokens : TokenStream} {attr : ServiceAttr}
    (hkeys : keys ≠ ⟨none, none⟩) (h : serviceKeys syn keys tokens = .ok attr) : tokens = [] := by
  by_contra hne
  rw [serviceKeys_cons hne] at h
  split at h
  · cases h
  · next keys' rest hkey => exact hkeys (serviceKey_cases hkey).1

theorem serviceKeys_grpc (path : String) :
    serviceKeys syn ⟨some path, none⟩ [] = .ok (.grpc path) := by
  rw [serviceKeys]

theorem serviceKeys_prototype (name : String) :
    serviceKeys syn ⟨none, some name⟩ [] = .ok (.prototype name) := by
  rw [serviceKeys]

theorem serviceForm_of_parse {tokens : TokenStream} {attr : ServiceAttr}
    (h : parseServiceAttr syn tokens = .ok attr) : ServiceForm syn.isPath tokens attr := by
  unfold parseServiceAttr at h
  have hne : tokens ≠ [] := by
    rintro rfl
    rw [serviceKeys] at h
    cases h
  rw [serviceKeys_cons hne] at h
  split at h
  · cases h
  · next keys' rest hkey =>
      obtain ⟨_, ⟨path, htokens, hpath, rfl⟩ | ⟨name, htokens, rfl⟩ | ⟨htokens, rfl⟩⟩ :=
        serviceKey_cases hkey
      · have hrest := serviceKeys_second (by simp) h
        rw [hrest, serviceKeys_grpc] at h
        cases h
        rw [htokens]
        exact .grpc hpath (skipComma_eq_nil.mp hrest)
      · have hrest := serviceKeys_second (by simp) h
        rw [hrest, serviceKeys_prototype] at h
        cases h
        rw [htokens]
        exact .prototype (skipComma_eq_nil.mp hrest)
      · have hrest := serviceKeys_second (by simp) h
        rw [hrest, serviceKeys_prototype] at h
        cases h
        rw [htokens]
        exact .flag (skipComma_eq_nil.mp hrest)

theorem parse_of_serviceForm {tokens : TokenStream} {attr : ServiceAttr}
    (h : ServiceForm syn.isPath tokens attr) : parseServiceAttr syn tokens = .ok attr := by
  have hgrpc : "grpc" ∉ keywords := by decide
  have hprototype : "prototype" ∉ keywords := by decide
  unfold parseServiceAttr
  cases h with
  | @grpc path tail hpath htail =>
      have hkey : serviceKey syn ⟨none, none⟩ (.ident "grpc" :: .punct '=' :: .str path :: tail) =
          .ok (⟨some path, none⟩, tail) := by
        simp [serviceKey, hgrpc, litStr, keyWithValue, hpath, Except.map]
      rw [serviceKeys_cons (by simp), hkey]
      show serviceKeys syn ⟨some path, none⟩ (skipComma tail) = _
      rw [skipComma_eq_nil.mpr htail, serviceKeys_grpc]
  | @prototype name tail htail =>
      have hkey : serviceKey syn ⟨none, none⟩
          (.ident "prototype" :: .punct '=' :: .str name :: tail) =
          .ok (⟨none, some name⟩, tail) := by
        simp [serviceKey, hprototype, litStr, keyWithValue, Except.map]
      rw [serviceKeys_cons (by simp), hkey]
      show serviceKeys syn ⟨none, some name⟩ (skipComma tail) = _
      rw [skipComma_eq_nil.mpr htail, serviceKeys_prototype]
  | @flag tail htail =>
      have hkey : serviceKey syn ⟨none, none⟩ (.ident "prototype" :: tail) =
          .ok (⟨none, some "build"⟩, tail) := by
        rcases htail with rfl | rfl
        · simp [serviceKey, hprototype, flagKey, Except.map]
        · simp [serviceKey, hprototype, flagKey, Except.map]
      rw [serviceKeys_cons (by simp), hkey]
      show serviceKeys syn ⟨none, some "build"⟩ (skipComma tail) = _
      rw [skipComma_eq_nil.mpr htail, serviceKeys_prototype]

/-- The loop accepts the forms and nothing else. -/
theorem parseServiceAttr_ok_iff {tokens : TokenStream} {attr : ServiceAttr} :
    parseServiceAttr syn tokens = .ok attr ↔ ServiceForm syn.isPath tokens attr :=
  ⟨serviceForm_of_parse, parse_of_serviceForm⟩

/-! ## The derive -/

/-- A form whose constructor, if it names one, can be a name. -/
def Accepted (syn : InjectSyn E) (tokens : TokenStream) (attr : ServiceAttr) : Prop :=
  ServiceForm syn.isPath tokens attr ∧ ∀ name, attr = .prototype name → syn.isIdent name = true

/-- The code that a form stands for. -/
def ServiceAttr.generate (ident : String) (fields : List (Injectable E)) :
    ServiceAttr → Generated E
  | .grpc server => .grpc ident server fields
  | .prototype name => .prototype ident name fields

/-- The derive takes the forms for what they are and fails on every other stream. -/
structure Exact (syn : InjectSyn E) (input : DeriveInput) (tokens : TokenStream) : Prop where
  accepts : ∀ attr, Accepted syn tokens attr → ∀ fields,
    injectables syn (ServiceAttr.isPrototype (some attr)) input.data = .ok fields →
    expandServiceDerive syn input = .ok (attr.generate input.ident fields)
  rejects : (¬ ∃ attr, Accepted syn tokens attr) → ∃ e, expandServiceDerive syn input = .error e

theorem expandServiceDerive_eq {input : DeriveInput} {tokens : TokenStream}
    (hattr : input.attrs.find? (fun attr => attr.path.isIdent "service") =
      some ⟨.list (.ident "service") tokens⟩) :
    expandServiceDerive syn input =
      match injectables syn (ServiceAttr.isPrototype (parseServiceAttr syn tokens).toOption)
        input.data with
      | .error e => .error (.err e)
      | .ok fields => ServiceInput.toTokens syn
          { ident := input.ident,
            attr := (parseServiceAttr syn tokens).toOption,
            fields := fields } := by
  unfold expandServiceDerive ServiceInput.new
  rw [hattr]
  simp only [Option.bind_some, parseServiceArgs]
  cases injectables syn (ServiceAttr.isPrototype (parseServiceAttr syn tokens).toOption)
    input.data <;> rfl

/-- Without a form the error is dropped: the service is an ordinary one. -/
theorem expandServiceDerive_of_no_form {input : DeriveInput} {tokens : TokenStream}
    (hattr : input.attrs.find? (fun attr => attr.path.isIdent "service") =
      some ⟨.list (.ident "service") tokens⟩)
    (hform : ¬ ∃ attr, ServiceForm syn.isPath tokens attr) :
    expandServiceDerive syn input =
      match injectables syn false input.data with
      | .error e => .error (.err e)
      | .ok fields => .ok (.component input.ident fields) := by
  have hnone : (parseServiceAttr syn tokens).toOption = none := by
    cases hparse : parseServiceAttr syn tokens with
    | error e => rfl
    | ok attr => exact absurd ⟨attr, parseServiceAttr_ok_iff.mp hparse⟩ hform
  rw [expandServiceDerive_eq hattr, hnone]
  rfl

theorem expandServiceDerive_of_accepted {input : DeriveInput} {tokens : TokenStream}
    (hattr : input.attrs.find? (fun attr => attr.path.isIdent "service") =
      some ⟨.list (.ident "service") tokens⟩) {attr : ServiceAttr}
    (haccepted : Accepted syn tokens attr) {fields : List (Injectable E)}
    (hfields : injectables syn (ServiceAttr.isPrototype (some attr)) input.data = .ok fields) :
    expandServiceDerive syn input = .ok (attr.generate input.ident fields) := by
  rw [expandServiceDerive_eq hattr, parseServiceAttr_ok_iff.mpr haccepted.1]
  simp only [Except.toOption, hfields]
  cases attr with
  | grpc server => rfl
  | prototype name =>
      unfold ServiceInput.toTokens
      simp only [haccepted.2 name rfl, if_true]
      rfl

/-- A form that is not accepted has a constructor that is no name. -/
theorem expandServiceDerive_of_not_accepted {input : DeriveInput} {tokens : TokenStream}
    (hattr : input.attrs.find? (fun attr => attr.path.isIdent "service") =
      some ⟨.list (.ident "service") tokens⟩) {attr : ServiceAttr}
    (hform : ServiceForm syn.isPath tokens attr) (hnot : ¬ Accepted syn tokens attr) :
    ∃ e, expandServiceDerive syn input = .error e := by
  rw [expandServiceDerive_eq hattr, parseServiceAttr_ok_iff.mpr hform]
  cases attr with
  | grpc server =>
      exact absurd ⟨hform, fun name heq => by cases heq⟩ hnot
  | prototype name =>
      have hname : ¬ syn.isIdent name = true := by
        intro hname
        refine hnot ⟨hform, ?_⟩
        intro name' heq
        cases heq
        exact hname
      simp only [Except.toOption, ServiceInput.toTokens, if_neg hname]
      split
      · exact ⟨_, rfl⟩
      · exact ⟨_, rfl⟩

/-- For a struct with the attribute, whatever its tokens. -/
theorem service_exact_iff (E : Type) (syn : InjectSyn E) (input : DeriveInput)
    (tokens : TokenStream)
    (hattr : input.attrs.find? (fun attr => attr.path.isIdent "service") =
      some ⟨.list (.ident "service") tokens⟩) :
    Exact syn input tokens ↔
      (∃ attr, ServiceForm syn.isPath tokens attr) ∨
        ∃ e, injectables syn false input.data = .error e := by
  constructor
  · intro h
    by_cases hform : ∃ attr, ServiceForm syn.isPath tokens attr
    · exact .inl hform
    · right
      obtain ⟨e, he⟩ := h.rejects fun ⟨attr, haccepted⟩ => hform ⟨attr, haccepted.1⟩
      rw [expandServiceDerive_of_no_form hattr hform] at he
      cases hfields : injectables syn false input.data with
      | error e => exact ⟨e, rfl⟩
      | ok fields =>
          rw [hfields] at he
          cases he
  · intro h
    constructor
    · intro attr haccepted fields hfields
      exact expandServiceDerive_of_accepted hattr haccepted hfields
    · intro hnot
      by_cases hform : ∃ attr, ServiceForm syn.isPath tokens attr
      · obtain ⟨attr, hform⟩ := hform
        exact expandServiceDerive_of_not_accepted hattr hform fun haccepted =>
          hnot ⟨attr, haccepted⟩
      · obtain ⟨e, he⟩ := h.resolve_left hform
        rw [expandServiceDerive_of_no_form hattr hform, he]
        exact ⟨_, rfl⟩

end

namespace Sample

/-- A struct without fields and with `#[service(...)]`. -/
def withService (tokens : TokenStream) : DeriveInput :=
  { ident := "UserService",
    attrs := [⟨.list (.ident "service") tokens⟩],
    data := .struct [] }

end Sample

/-- A misspelt key makes an ordinary service. -/
theorem misspelt_key_swallowed :
    ¬ ∀ (E : Type) (syn : InjectSyn E) (input : DeriveInput) (tokens : TokenStream),
      input.attrs.find? (fun attr => attr.path.isIdent "service") =
        some ⟨.list (.ident "service") tokens⟩ → Exact syn input tokens := by
  intro h
  have hexact := h Unit Sample.injectSyn (Sample.withService [.ident "protoype"])
    [.ident "protoype"] rfl
  have hnone : ¬ ∃ attr, Accepted Sample.injectSyn [.ident "protoype"] attr := by
    rintro ⟨attr, hform, _⟩
    generalize htokens : [Token.ident "protoype"] = tokens at hform
    cases hform with
    | grpc _ _ => simp at htokens
    | prototype _ => simp at htokens
    | flag _ => simp at htokens
  obtain ⟨e, he⟩ := hexact.rejects hnone
  have hderive : expandServiceDerive Sample.injectSyn (Sample.withService [.ident "protoype"]) =
      .ok (.component "UserService" []) := by
    rw [expandServiceDerive_eq rfl]
    have hparse : parseServiceAttr Sample.injectSyn [.ident "protoype"] =
        .error (.message "Unknown key `protoype` in #[service(...)]") := by
      rw [parseServiceAttr, serviceKeys_cons (by simp)]
      rfl
    rw [hparse]
    rfl
  rw [hderive] at he
  cases he

theorem service_exact_sample :
    Exact Sample.injectSyn (Sample.withService [.ident "prototype"]) [.ident "prototype"] :=
  (service_exact_iff Unit Sample.injectSyn (Sample.withService [.ident "prototype"])
    [.ident "prototype"] rfl).mpr (.inl ⟨_, .flag (.inl rfl)⟩)

end Summer.Macros
