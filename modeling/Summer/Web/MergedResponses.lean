/-
What the responses of an operation say after any calls that register some.

Whether a description is already there is asked of the merged text, so that the answer is
right as long as there is only one, and a description that comes again behind another one
is added again.  `merged_iff` has the exact condition.
-/
import Mathlib.Algebra.Order.Ring.Nat
import Mathlib.Data.List.Basic
import Summer.Web.Responses

namespace Summer.Web.OpenApi

section
variable {S : Type}

/-! ## Lists of descriptions -/

/-- A text that lists these descriptions, apart from list markers and line breaks. -/
inductive Lists : String → List String → Prop
  | nil : Lists "" []
  | marker {text : String} {descriptions : List String} :
      Lists text descriptions → Lists (text ++ "- ") descriptions
  | lineBreak {text : String} {descriptions : List String} :
      Lists text descriptions → Lists (text ++ "\n") descriptions
  | item {text : String} {descriptions : List String} (description : String) :
      Lists text descriptions → Lists (text ++ description) (descriptions ++ [description])

namespace Lists

variable {text : String} {descriptions : List String}

theorem single (description : String) : Lists description [description] := by
  have h := nil.item description
  rwa [String.empty_append] at h

theorem marked (h : Lists text descriptions) : Lists ("- " ++ text) descriptions := by
  induction h with
  | nil => exact nil.marker
  | marker _ ih =>
      rw [← String.append_assoc]
      exact ih.marker
  | lineBreak _ ih =>
      rw [← String.append_assoc]
      exact ih.lineBreak
  | item description _ ih =>
      rw [← String.append_assoc]
      exact ih.item description

theorem variantMerge (h : Lists text descriptions) (description : String) :
    Lists (variantMerge text description) (descriptions ++ [description]) := by
  have hseparator : "\n- " = "\n" ++ "- " := by decide
  unfold OpenApi.variantMerge
  rw [hseparator, ← String.append_assoc]
  exact h.lineBreak.marker.item description

theorem inferredMerge (h : Lists text descriptions) (description : String) :
    Lists (inferredMerge text description) (descriptions ++ [description]) :=
  h.marked.variantMerge description

theorem sum_length_le (h : Lists text descriptions) :
    (descriptions.map String.length).sum ≤ text.length := by
  induction h with
  | nil => exact Nat.le_refl 0
  | marker _ ih =>
      rw [String.length_append]
      omega
  | lineBreak _ ih =>
      rw [String.length_append]
      omega
  | item description _ ih =>
      rw [List.map_append, List.sum_append, String.length_append]
      simp only [List.map_cons, List.map_nil, List.sum_cons, List.sum_nil]
      omega

/-- Beside a description that is the whole text there is room for nothing. -/
theorem eq_empty_of_mem (h : Lists text descriptions) (hnodup : descriptions.Nodup)
    (htext : text ∈ descriptions) {description : String} (hmem : description ∈ descriptions)
    (hne : description ≠ text) : description = "" := by
  have herase : description ∈ descriptions.erase text :=
    (hnodup.mem_erase_iff).mpr ⟨hne, hmem⟩
  have hsum := ((List.perm_cons_erase htext).map String.length).sum_eq
  have hrest := ((List.perm_cons_erase herase).map String.length).sum_eq
  have hle := h.sum_length_le
  rw [List.map_cons, List.sum_cons] at hsum hrest
  rw [← String.length_eq_zero_iff]
  omega

end Lists

/-! ## One call -/

section
variable {merged : String → String → String} {responses : Responses S} {statusCode : StatusCode}
  {res existing : Response S}

theorem Responses.get?_add_of_ne {code : StatusCode} (h : code ≠ statusCode) :
    (responses.add merged statusCode res).responses.get? code = responses.responses.get? code := by
  unfold Responses.add
  split
  · exact IndexMap.get?_insert_of_ne _ h _
  · rfl
  · split
    · exact IndexMap.get?_insert_of_ne _ h _
    · rfl

theorem Responses.default_add :
    (responses.add merged statusCode res).default = responses.default := by
  unfold Responses.add
  split
  · rfl
  · rfl
  · split <;> rfl

theorem Responses.get?_add_of_none (h : responses.responses.get? statusCode = none) :
    (responses.add merged statusCode res).responses.get? statusCode = some (.item res) := by
  unfold Responses.add
  rw [h]
  exact IndexMap.get?_insert_self _ _ _

theorem Responses.add_of_reference {path : String}
    (h : responses.responses.get? statusCode = some (.reference path)) :
    responses.add merged statusCode res = responses := by
  unfold Responses.add
  rw [h]

theorem Responses.add_of_present (h : responses.responses.get? statusCode = some (.item existing))
    (hsame : existing.description = res.description) :
    responses.add merged statusCode res = responses := by
  unfold Responses.add
  rw [h]
  exact if_neg fun hne => hne hsame

theorem Responses.get?_add_of_ne_description
    (h : responses.responses.get? statusCode = some (.item existing))
    (hne : existing.description ≠ res.description) :
    (responses.add merged statusCode res).responses.get? statusCode =
      some (.item
        { existing with description := merged existing.description res.description }) := by
  unfold Responses.add
  rw [h]
  show (if _ then _ else _ : Responses S).responses.get? statusCode = _
  rw [if_pos hne]
  exact IndexMap.get?_insert_self _ _ _

end

/-- A way to write a description behind others. -/
structure Merges (merged : String → String → String) : Prop where
  lists : ∀ text descriptions description, Lists text descriptions →
    Lists (merged text description) (descriptions ++ [description])
  changes : ∀ text description, merged text description ≠ text

theorem merges_variantMerge : Merges variantMerge where
  lists text descriptions description h := h.variantMerge description
  changes text description h := by
    have hlength := congrArg String.length h
    unfold variantMerge at hlength
    rw [String.length_append, String.length_append] at hlength
    have hseparator : "\n- ".length = 3 := by decide
    omega

theorem merges_inferredMerge : Merges inferredMerge where
  lists text descriptions description h := h.inferredMerge description
  changes text description h := by
    have hlength := congrArg String.length h
    unfold inferredMerge at hlength
    rw [String.length_append, String.length_append, String.length_append] at hlength
    have hseparator : "\n- ".length = 3 := by decide
    omega

def Operation.responsesOrEmpty (operation : Operation S) : Responses S :=
  operation.responses.getD (Responses.empty S)

theorem Operation.get?_eq (operation : Operation S) (statusCode : StatusCode) :
    operation.get? statusCode = operation.responsesOrEmpty.responses.get? statusCode := by
  unfold Operation.get? Operation.responsesOrEmpty
  cases operation.responses <;> rfl

theorem Call.apply_of_registers {host : Host S} {g : Generation S} {call : Call S}
    {statusCode : StatusCode} {description : String}
    (h : call.registers = some (statusCode, description)) :
    ∃ merged res, Merges merged ∧ res.description = description ∧
      (call.apply host g).operation =
        ⟨some (g.operation.responsesOrEmpty.add merged statusCode res)⟩ := by
  cases call with
  | inferred status res =>
      obtain ⟨code, rfl, htarget⟩ := Option.map_eq_some_iff.mp h
      cases htarget
      exact ⟨inferredMerge, res, merges_inferredMerge, rfl, rfl⟩
  | variant info variantPath =>
      obtain ⟨⟨code, d⟩, hinfo, htarget⟩ := Option.map_eq_some_iff.mp h
      cases htarget
      refine ⟨variantMerge, variantResponse host (variantName variantPath) code description,
        merges_variantMerge, rfl, ?_⟩
      show (registerErrorResponseByVariant host info g variantPath).operation = _
      unfold registerErrorResponseByVariant
      rw [hinfo]
      rfl

theorem setInferredResponse_none (g : Generation S) (res : Response S) :
    setInferredResponse g none res =
      if g.operation.responsesOrEmpty.default.isSome then
        { errors := g.errors ++ [.inferredDefaultResponseConflict]
          operation := ⟨some g.operation.responsesOrEmpty⟩ }
      else
        { g with
          operation := ⟨some { g.operation.responsesOrEmpty with default := some (.item res) }⟩ } :=
  rfl

/-- What a call does to the entry of the status code it registers for. -/
inductive Outcome (before after : Operation S) (statusCode : StatusCode) (description : String) :
    Prop
  | new (res : Response S) (hbefore : before.get? statusCode = none)
      (hafter : after.get? statusCode = some (.item res)) (hres : res.description = description)
  | reference (path : String) (hbefore : before.get? statusCode = some (.reference path))
      (hafter : after = before)
  | present (res : Response S) (hbefore : before.get? statusCode = some (.item res))
      (hres : res.description = description) (hafter : after = before)
  | merged (res : Response S) (text : String) (hbefore : before.get? statusCode = some (.item res))
      (hres : res.description ≠ description)
      (hafter : after.get? statusCode = some (.item { res with description := text }))
      (hlists : ∀ descriptions, Lists res.description descriptions →
        Lists text (descriptions ++ [description]))
      (hchanges : text ≠ res.description)

theorem Operation.eq_of_responsesOrEmpty {operation : Operation S} {statusCode : StatusCode}
    (h : (operation.get? statusCode).isSome) :
    ⟨some operation.responsesOrEmpty⟩ = operation := by
  unfold Operation.get? at h
  unfold Operation.responsesOrEmpty
  obtain ⟨responses⟩ := operation
  cases responses with
  | none => cases h
  | some responses => rfl

theorem Call.outcome {host : Host S} {g : Generation S} {call : Call S} {statusCode : StatusCode}
    {description : String} (h : call.registers = some (statusCode, description)) :
    Outcome g.operation (call.apply host g).operation statusCode description := by
  obtain ⟨merged, res, hmerges, hdescription, happly⟩ := @Call.apply_of_registers S host g _ _ _ h
  have hentry := Operation.get?_eq g.operation statusCode
  rw [happly]
  cases hbefore : g.operation.get? statusCode with
  | none =>
      rw [hbefore] at hentry
      exact .new res hbefore (Responses.get?_add_of_none hentry.symm) hdescription
  | some entry =>
      have hsame :=
        @Operation.eq_of_responsesOrEmpty S g.operation statusCode (by rw [hbefore]; rfl)
      rw [hbefore] at hentry
      cases entry with
      | reference path =>
          refine .reference path hbefore ?_
          rw [Responses.add_of_reference hentry.symm, hsame]
      | item existing =>
          by_cases heq : existing.description = description
          · refine .present existing hbefore heq ?_
            rw [Responses.add_of_present hentry.symm (heq.trans hdescription.symm), hsame]
          · refine .merged existing (merged existing.description description) hbefore heq ?_ ?_ ?_
            · rw [← hdescription] at heq ⊢
              exact Responses.get?_add_of_ne_description hentry.symm heq
            · intro descriptions hlists
              exact hmerges.lists _ _ _ hlists
            · exact hmerges.changes _ _

/-- A call leaves the entries of the other status codes alone. -/
theorem Call.get?_of_not_registers {host : Host S} {g : Generation S} {call : Call S}
    {statusCode : StatusCode} (h : call.registersUnder statusCode = none) :
    (call.apply host g).operation.get? statusCode = g.operation.get? statusCode := by
  cases hregisters : call.registers with
  | some target =>
      obtain ⟨code, description⟩ := target
      have hne : statusCode ≠ code := by
        rintro rfl
        rw [registersUnder_eq_some_iff.mpr hregisters] at h
        cases h
      obtain ⟨merged, res, -, -, happly⟩ := @Call.apply_of_registers S host g _ _ _ hregisters
      rw [happly, Operation.get?_eq g.operation]
      exact Responses.get?_add_of_ne hne
  | none =>
      cases call with
      | inferred status res =>
          cases status with
          | some code => cases hregisters
          | none =>
              rw [Operation.get?_eq g.operation]
              show (setInferredResponse g none res).operation.get? statusCode = _
              rw [setInferredResponse_none]
              split <;> rfl
      | variant info variantPath =>
          have hinfo : info (variantName variantPath) = none := Option.map_eq_none_iff.mp hregisters
          show (registerErrorResponseByVariant host info g variantPath).operation.get? _ = _
          unfold registerErrorResponseByVariant
          rw [hinfo]

def Operation.default? (operation : Operation S) : Option (ReferenceOr (Response S)) :=
  operation.responsesOrEmpty.default

theorem Call.default?_kept {host : Host S} {g : Generation S} {call : Call S}
    {response : ReferenceOr (Response S)} (h : g.operation.default? = some response) :
    (call.apply host g).operation.default? = some response := by
  cases hregisters : call.registers with
  | some target =>
      obtain ⟨merged, res, -, -, happly⟩ :=
        @Call.apply_of_registers S host g _ target.1 target.2 hregisters
      rw [happly]
      exact Responses.default_add.trans h
  | none =>
      cases call with
      | inferred status res =>
          cases status with
          | some code => cases hregisters
          | none =>
              have hsome : g.operation.responsesOrEmpty.default.isSome := by
                show g.operation.default?.isSome
                rw [h]
                rfl
              show (setInferredResponse g none res).operation.default? = _
              rw [setInferredResponse_none, if_pos hsome]
              exact h
      | variant info variantPath =>
          have hinfo : info (variantName variantPath) = none := Option.map_eq_none_iff.mp hregisters
          show (registerErrorResponseByVariant host info g variantPath).operation.default? = _
          unfold registerErrorResponseByVariant
          rw [hinfo]
          exact h

/-! ## Every call of a sequence -/

section
variable (host : Host S) (start : Generation S) (before : List (Call S)) (call : Call S)

/-- The descriptions are listed, each once and nothing else. -/
def ListsEach (text : String) (descriptions : List String) : Prop :=
  ∃ order, Lists text order ∧ order.Nodup ∧ ∀ d, d ∈ order ↔ d ∈ descriptions

/-- The law of merging, for a call behind others. -/
structure CallLaw : Prop where
  lists : ∀ statusCode, registered start (before ++ [call]) statusCode ≠ [] →
    ∃ res, (run host start (before ++ [call])).operation.get? statusCode = some (.item res) ∧
      ListsEach res.description (registered start (before ++ [call]) statusCode)
  again : ∀ statusCode description, call.registers = some (statusCode, description) →
    description ∈ registered start before statusCode →
    (run host start (before ++ [call])).operation = (run host start before).operation
  others : ∀ statusCode, call.registersUnder statusCode = none →
    (run host start (before ++ [call])).operation.get? statusCode =
      (run host start before).operation.get? statusCode
  kept : ∀ statusCode res, (run host start before).operation.get? statusCode = some (.item res) →
    ∃ res', (run host start (before ++ [call])).operation.get? statusCode = some (.item res') ∧
      res'.content = res.content
  keptDefault : ∀ response, (run host start before).operation.default? = some response →
    (run host start (before ++ [call])).operation.default? = some response

def Merged (calls : List (Call S)) : Prop :=
  ∀ before call after, calls = before ++ call :: after → CallLaw host start before call

/-- The merged text tells whether the description has been registered. -/
def Tells : Prop :=
  ∀ statusCode description, call.registers = some (statusCode, description) →
    match (run host start before).operation.get? statusCode with
    | none => True
    | some (.reference _) => False
    | some (.item res) =>
      res.description = description ↔ description ∈ registered start before statusCode

end

section
variable {host : Host S} {start : Generation S} {before : List (Call S)} {call : Call S}
  {statusCode : StatusCode} {description : String}

theorem registered_concat_of_some (h : call.registers = some (statusCode, description)) :
    registered start (before ++ [call]) statusCode =
      registered start before statusCode ++ [description] := by
  rw [registered_concat, registersUnder_eq_some_iff.mpr h]
  rfl

theorem registered_concat_of_none (h : call.registersUnder statusCode = none) :
    registered start (before ++ [call]) statusCode = registered start before statusCode := by
  rw [registered_concat, h]
  exact List.append_nil _

theorem get?_concat_of_none (h : call.registersUnder statusCode = none) :
    (run host start (before ++ [call])).operation.get? statusCode =
      (run host start before).operation.get? statusCode := by
  rw [run_concat]
  exact Call.get?_of_not_registers h

theorem outcome_concat (h : call.registers = some (statusCode, description)) :
    Outcome (run host start before).operation (run host start (before ++ [call])).operation
      statusCode description := by
  rw [run_concat]
  exact Call.outcome h

/-- Whatever the calls: an entry is there for something registered, and as long as that is one
description, it is the whole text. -/
structure Tracks (host : Host S) (start : Generation S) (before : List (Call S))
    (statusCode : StatusCode) : Prop where
  absent : (run host start before).operation.get? statusCode = none →
    registered start before statusCode = []
  present : ∀ res, (run host start before).operation.get? statusCode = some (.item res) →
    registered start before statusCode ≠ []
  alone : ∀ res, (run host start before).operation.get? statusCode = some (.item res) →
    ∀ description, (∀ d ∈ registered start before statusCode, d = description) →
      res.description = description

theorem registered_nil (start : Generation S) (statusCode : StatusCode) :
    registered start [] statusCode =
      match start.operation.get? statusCode with
      | some (.item res) => [res.description]
      | _ => [] :=
  List.append_nil _

theorem tracks_nil (host : Host S) (start : Generation S) (statusCode : StatusCode) :
    Tracks host start [] statusCode := by
  have hregistered := registered_nil start statusCode
  constructor
  · intro hnone
    change start.operation.get? statusCode = none at hnone
    rw [hregistered, hnone]
  · intro res hres
    change start.operation.get? statusCode = some (.item res) at hres
    rw [hregistered, hres]
    exact List.cons_ne_nil _ _
  · intro res hres description hall
    change start.operation.get? statusCode = some (.item res) at hres
    rw [hregistered, hres] at hall
    exact hall _ List.mem_cons_self

theorem tracks_concat_of_none (h : Tracks host start before statusCode)
    (hunder : call.registersUnder statusCode = none) :
    Tracks host start (before ++ [call]) statusCode := by
  have hentry := @get?_concat_of_none S host start before call statusCode hunder
  have hregistered := @registered_concat_of_none S start before call statusCode hunder
  constructor
  · rw [hentry, hregistered]
    exact h.absent
  · rw [hentry, hregistered]
    exact h.present
  · rw [hentry, hregistered]
    exact h.alone

theorem tracks_concat_of_some (h : Tracks host start before statusCode)
    (hregisters : call.registers = some (statusCode, description)) :
    Tracks host start (before ++ [call]) statusCode := by
  have happend := @registered_concat_of_some S start before call _ _ hregisters
  have hnonempty : registered start (before ++ [call]) statusCode ≠ [] := by
    rw [happend]
    simp
  have hlast : ∀ {d : String}, (∀ x ∈ registered start (before ++ [call]) statusCode, x = d) →
      description = d ∧ ∀ x ∈ registered start before statusCode, x = d := by
    intro d hall
    rw [happend] at hall
    exact ⟨hall description (by simp), fun x hx => hall x (by simp [hx])⟩
  rcases @outcome_concat S host start before call _ _ hregisters with
    ⟨res, hbefore, hafter, hres⟩ | ⟨path, hbefore, hafter⟩ |
      ⟨res, hbefore, hres, hafter⟩ | ⟨res, text, hbefore, hres, hafter, -, -⟩
  · refine ⟨fun hnone => ?_, fun _ _ => hnonempty, fun res' hres' d hall => ?_⟩
    · rw [hafter] at hnone
      cases hnone
    · rw [hafter] at hres'
      cases hres'
      rw [hres, (hlast hall).1]
  · rw [← hafter] at hbefore
    refine ⟨fun hnone => ?_, fun _ _ => hnonempty, fun res' hres' d hall => ?_⟩
    · rw [hbefore] at hnone
      cases hnone
    · rw [hbefore] at hres'
      cases hres'
  · refine ⟨fun hnone => ?_, fun _ _ => hnonempty, fun res' hres' d hall => ?_⟩
    · rw [hafter, hbefore] at hnone
      cases hnone
    · rw [hafter] at hres'
      exact h.alone res' hres' d (hlast hall).2
  · refine ⟨fun hnone => ?_, fun _ _ => hnonempty, fun res' hres' d hall => ?_⟩
    · rw [hafter] at hnone
      cases hnone
    · exfalso
      apply hres
      rw [h.alone res hbefore d (hlast hall).2, (hlast hall).1]

theorem tracks (host : Host S) (start : Generation S) (before : List (Call S))
    (statusCode : StatusCode) : Tracks host start before statusCode := by
  induction before using List.reverseRecOn with
  | nil => exact tracks_nil host start statusCode
  | append_singleton before call ih =>
      cases hunder : call.registersUnder statusCode with
      | none => exact tracks_concat_of_none ih hunder
      | some description =>
          exact tracks_concat_of_some ih (registersUnder_eq_some_iff.mp hunder)

/-! ## When merging is lawful -/

theorem tells_of_callLaw (h : CallLaw host start before call) : Tells host start before call := by
  intro statusCode description hregisters
  have htracks := tracks host start before statusCode
  have happend := @registered_concat_of_some S start before call _ _ hregisters
  have hnonempty : registered start (before ++ [call]) statusCode ≠ [] := by
    rw [happend]
    simp
  obtain ⟨res', hafter', order, hlists, hnodup, hmem⟩ := h.lists statusCode hnonempty
  rcases @outcome_concat S host start before call _ _ hregisters with
    ⟨res, hbefore, hafter, hres⟩ | ⟨path, hbefore, hafter⟩ |
      ⟨res, hbefore, hres, hafter⟩ | ⟨res, text, hbefore, hres, hafter, -, hchanges⟩
  · rw [hbefore]
    trivial
  · rw [hafter, hbefore] at hafter'
    cases hafter'
  · rw [hbefore]
    refine ⟨fun _ => ?_, fun _ => hres⟩
    rw [hafter, hbefore] at hafter'
    cases hafter'
    by_contra hnew
    -- the text is the new description, so nothing else has room in it
    have hdescription : res'.description ∈ order := by
      rw [hmem, happend, hres]
      simp
    have hempty : ∀ d ∈ registered start before statusCode, d = "" := by
      intro d hd
      apply hlists.eq_empty_of_mem hnodup hdescription
      · rw [hmem, happend]
        simp [hd]
      · rintro rfl
        rw [hres] at hd
        exact hnew hd
    obtain ⟨d, rest, hd⟩ := List.exists_cons_of_ne_nil (htracks.present res' hbefore)
    have hd' : d ∈ registered start before statusCode := by
      rw [hd]
      exact List.mem_cons_self
    rw [← hres, htracks.alone res' hbefore "" hempty, ← hempty d hd'] at hnew
    exact hnew hd'
  · rw [hbefore]
    refine ⟨fun heq => absurd heq hres, fun hold => ?_⟩
    have hsame := h.again statusCode description hregisters hold
    rw [hsame, hbefore] at hafter
    injection hafter with hafter
    injection hafter with hafter
    rw [hafter] at hchanges
    exact absurd rfl hchanges

/-- The entries list what has been registered. -/
def Listed (host : Host S) (start : Generation S) (before : List (Call S)) : Prop :=
  ∀ statusCode, registered start before statusCode ≠ [] →
    ∃ res, (run host start before).operation.get? statusCode = some (.item res) ∧
      ListsEach res.description (registered start before statusCode)

theorem ListsEach.single (description : String) : ListsEach description [description] :=
  ⟨[description], .single description, List.nodup_singleton _, fun _ => Iff.rfl⟩

theorem listed_concat (hlisted : Listed host start before) (htells : Tells host start before call) :
    Listed host start (before ++ [call]) := by
  intro statusCode hnonempty
  cases hunder : call.registersUnder statusCode with
  | none =>
      rw [registered_concat_of_none hunder] at hnonempty ⊢
      rw [get?_concat_of_none hunder]
      exact hlisted statusCode hnonempty
  | some description =>
      have hregisters := registersUnder_eq_some_iff.mp hunder
      have htold := htells statusCode description hregisters
      have htracks := tracks host start before statusCode
      rw [registered_concat_of_some hregisters]
      rcases @outcome_concat S host start before call _ _ hregisters with
        ⟨res, hbefore, hafter, hres⟩ | ⟨path, hbefore, hafter⟩ |
          ⟨res, hbefore, hres, hafter⟩ | ⟨res, text, hbefore, hres, hafter, hlists, -⟩
      · refine ⟨res, hafter, ?_⟩
        rw [htracks.absent hbefore, hres]
        exact .single description
      · rw [hbefore] at htold
        exact absurd htold id
      · rw [hbefore] at htold
        obtain ⟨res', hres', order, horder, hnodup, hmem⟩ :=
          hlisted statusCode (htracks.present res hbefore)
        rw [hbefore] at hres'
        cases hres'
        refine ⟨res, by rw [hafter, hbefore], order, horder, hnodup, fun d => ?_⟩
        rw [hmem, List.mem_append, List.mem_singleton]
        constructor
        · exact .inl
        · rintro (hd | rfl)
          · exact hd
          · exact htold.mp hres
      · rw [hbefore] at htold
        obtain ⟨res', hres', order, horder, hnodup, hmem⟩ :=
          hlisted statusCode (htracks.present res hbefore)
        rw [hbefore] at hres'
        cases hres'
        refine ⟨_, hafter, order ++ [description], hlists order horder, ?_, fun d => ?_⟩
        · rw [← List.concat_eq_append]
          apply hnodup.concat
          rw [hmem]
          exact fun hold => hres (htold.mpr hold)
        · rw [List.mem_append, List.mem_append, hmem]

theorem listed_nil (host : Host S) (start : Generation S) : Listed host start [] := by
  intro statusCode hnonempty
  cases hentry : start.operation.get? statusCode with
  | none => exact absurd ((tracks host start [] statusCode).absent hentry) hnonempty
  | some entry =>
      have hregistered := registered_nil start statusCode
      rw [hentry] at hregistered
      cases entry with
      | reference path => exact absurd hregistered hnonempty
      | item res =>
          refine ⟨res, hentry, ?_⟩
          rw [hregistered]
          exact .single _

theorem listed_of_tells
    (h : ∀ earlier call later, before = earlier ++ call :: later → Tells host start earlier call) :
    Listed host start before := by
  induction before using List.reverseRecOn with
  | nil => exact listed_nil host start
  | append_singleton before call ih =>
      apply listed_concat
      · apply ih
        intro earlier call' later hsplit
        exact h earlier call' (later ++ [call]) (by rw [hsplit]; simp)
      · exact h before call [] rfl

theorem kept_concat {statusCode : StatusCode} {res : Response S}
    (h : (run host start before).operation.get? statusCode = some (.item res)) :
    ∃ res', (run host start (before ++ [call])).operation.get? statusCode = some (.item res') ∧
      res'.content = res.content := by
  cases hunder : call.registersUnder statusCode with
  | none =>
      rw [get?_concat_of_none hunder]
      exact ⟨res, h, rfl⟩
  | some description =>
      rcases @outcome_concat S host start before call _ _
          (registersUnder_eq_some_iff.mp hunder) with
        ⟨_, hbefore, -, -⟩ | ⟨path, hbefore, -⟩ | ⟨_, hbefore, -, hafter⟩ |
          ⟨_, text, hbefore, -, hafter, -, -⟩
      · rw [hbefore] at h
        cases h
      · rw [hbefore] at h
        cases h
      · rw [hafter]
        exact ⟨res, h, rfl⟩
      · rw [hbefore] at h
        cases h
        exact ⟨_, hafter, rfl⟩

theorem callLaw_of_tells (hlisted : Listed host start before)
    (htells : Tells host start before call) : CallLaw host start before call where
  lists := listed_concat hlisted htells
  again statusCode description hregisters hold := by
    have htold := htells statusCode description hregisters
    rcases @outcome_concat S host start before call _ _ hregisters with
      ⟨res, hbefore, -, -⟩ | ⟨path, -, hafter⟩ | ⟨res, -, -, hafter⟩ |
      ⟨res, text, hbefore, hres, -, -, -⟩
    · rw [(tracks host start before statusCode).absent hbefore] at hold
      cases hold
    · exact hafter
    · exact hafter
    · rw [hbefore] at htold
      exact absurd (htold.mpr hold) hres
  others statusCode hunder := get?_concat_of_none hunder
  kept statusCode res h := kept_concat h
  keptDefault response h := by
    rw [run_concat]
    exact Call.default?_kept h

end

/-- Which sequences of calls merge the responses lawfully. -/
theorem merged_iff (host : Host S) (start : Generation S) (calls : List (Call S)) :
    Merged host start calls ↔
      ∀ before call after, calls = before ++ call :: after → Tells host start before call := by
  constructor
  · intro h before call after hsplit
    exact tells_of_callLaw (h before call after hsplit)
  · intro h before call after hsplit
    apply callLaw_of_tells
    · apply listed_of_tells
      intro earlier call' later hbefore
      exact h earlier call' (later ++ call :: after) (by rw [hsplit, hbefore]; simp)
    · exact h before call after hsplit

end

def ReferenceOr.asItem {T : Type} : ReferenceOr T → Option T
  | .reference _ => none
  | .item value => some value

/-- A response with this description under the status code 404. -/
def notFound (description : String) : Call Unit :=
  .inferred (some (.code 404)) ⟨description, .empty⟩

/-- Two responses under one status code, and the first one again. -/
theorem repeated_behind_another :
    ¬ Merged ⟨id, ()⟩ ⟨[], ⟨none⟩⟩
      [notFound "User not found", notFound "Order not found", notFound "User not found"] := by
  intro h
  have hlaw := h [notFound "User not found", notFound "Order not found"]
    (notFound "User not found") [] rfl
  have hagain := hlaw.again (.code 404) "User not found" rfl (by decide)
  have hdescription := congrArg
    (fun operation => ((operation.get? (.code 404)).bind ReferenceOr.asItem).map
      Response.description) hagain
  revert hdescription
  decide

end Summer.Web.OpenApi
