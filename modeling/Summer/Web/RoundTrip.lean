/-
Whether problem details come back from their JSON form.

They do exactly if no extension has the name of a field (`round_trip_iff`).
-/
import Mathlib.Data.Finmap
import Summer.Web.ProblemDetails

namespace Summer.Web

/-- The keys of the fields, in their order. -/
def fieldNames : List String := ["type", "title", "status", "detail", "instance", "violations"]

/-- No two members have the same key. -/
def NoDuplicateKeys (members : Members) : Prop := (members.map Prod.fst).Nodup

/-! ## The values of the fields -/

theorem decodeU16_number (n : UInt16) : decodeU16 (.number n.toNat) = .ok n := by
  have hlt : n.toNat < UInt16.size := n.toNat_lt
  have hrange : (0 : Int) ≤ n.toNat ∧ (n.toNat : Int) < UInt16.size := by omega
  unfold decodeU16
  simp only [if_pos hrange, Int.toNat_natCast, UInt16.ofNat_toNat]

theorem ViolationLocation.deserialize_serialize (location : ViolationLocation) :
    ViolationLocation.deserialize location.serialize = .ok location := by
  cases location with
  | body => rfl
  | query => rfl
  | path => rfl

theorem Violation.deserialize_serialize (violation : Violation) :
    Violation.deserialize violation.serialize = .ok violation := by
  have hlocation := violation.location.deserialize_serialize
  simp [Violation.serialize, Violation.deserialize, Fields.visit, once, decodeString, hlocation,
    required, Except.map, bind, Except.bind, pure, Except.pure]

/-- Decoding the items undoes encoding a list where it does so for each item. -/
theorem decodeList_map {α : Type} {encode : α → Json} {decode : Json → Except DecodeError α}
    (h : ∀ x, decode (encode x) = .ok x) (xs : List α) :
    decodeList decode (.array (xs.map encode)) = .ok xs := by
  show (xs.map encode).mapM decode = .ok xs
  induction xs with
  | nil => rfl
  | cons x xs ih =>
      rw [List.map_cons, List.mapM_cons, h]
      simp only [ih, bind, Except.bind, pure, Except.pure]

namespace ProblemDetails

/-! ## Reading the members -/

theorem Fields.visitAll_append (fields : Fields) (members members' : Members) :
    fields.visitAll (members ++ members') =
      (fields.visitAll members).bind fun fields => fields.visitAll members' :=
  List.foldlM_append

theorem Fields.visit_extension {key : String} (h : key ∉ fieldNames) (fields : Fields) (v : Json) :
    fields.visit key v = .ok { fields with extensions := fields.extensions.insert key v } := by
  unfold Fields.visit
  split
  · exact absurd (by decide) h
  · exact absurd (by decide) h
  · exact absurd (by decide) h
  · exact absurd (by decide) h
  · exact absurd (by decide) h
  · exact absurd (by decide) h
  · rfl

theorem except_map_ok {ε α β : Type} {x : Except ε α} {f : α → β} {y : β}
    (h : x.map f = .ok y) : ∃ a, x = .ok a ∧ f a = y := by
  cases x with
  | error e => cases h
  | ok a => exact ⟨a, rfl, Except.ok.inj h⟩

/-- A member with the name of a field is read into that field, any other into the map. -/
theorem Fields.visit_cases {fields fields' : Fields} {key : String} {v : Json}
    (h : fields.visit key v = .ok fields') :
    (key ∈ fieldNames ∧ fields'.extensions = fields.extensions) ∨
      (key ∉ fieldNames ∧ fields'.extensions = fields.extensions.insert key v) := by
  by_cases hkey : key ∈ fieldNames
  · left
    refine ⟨hkey, ?_⟩
    simp only [fieldNames, List.mem_cons, List.not_mem_nil, or_false] at hkey
    rcases hkey with rfl | rfl | rfl | rfl | rfl | rfl
    all_goals
      obtain ⟨x, _, rfl⟩ := except_map_ok h
      rfl
  · right
    rw [visit_extension hkey] at h
    cases h
    exact ⟨hkey, rfl⟩

/-- No field is read into the map of the extensions. -/
theorem Fields.visitAll_disjoint {fields fields' : Fields} {members : Members}
    (h : fields.visitAll members = .ok fields')
    (hdisjoint : ∀ key ∈ fieldNames, key ∉ fields.extensions) :
    ∀ key ∈ fieldNames, key ∉ fields'.extensions := by
  induction members generalizing fields with
  | nil =>
      cases h
      exact hdisjoint
  | cons member rest ih =>
      have hstep : (fields.visit member.1 member.2).bind (fun fields => fields.visitAll rest) =
          .ok fields' := h
      cases hvisit : fields.visit member.1 member.2 with
      | error e =>
          rw [hvisit] at hstep
          cases hstep
      | ok next =>
          rw [hvisit] at hstep
          apply ih hstep
          intro key hkey
          rcases visit_cases hvisit with ⟨_, heq⟩ | ⟨hnew, heq⟩
          · rw [heq]
            exact hdisjoint key hkey
          · rw [heq, Finmap.mem_insert]
            rintro (rfl | hmem)
            · exact hnew hkey
            · exact hdisjoint key hkey hmem

theorem disjoint_of_deserialize {members : Members} {p : ProblemDetails}
    (h : deserialize members = .ok p) : ∀ key ∈ fieldNames, key ∉ p.extensions := by
  unfold deserialize at h
  cases hfields : Fields.visitAll {} members with
  | error e =>
      rw [hfields] at h
      cases h
  | ok fields =>
      have hdisjoint := Fields.visitAll_disjoint hfields fun key _ => Finmap.notMem_empty
      rw [hfields] at h
      rcases hvalues : fields with ⟨_ | _, _ | _, _ | _, _, _, _, _⟩
      all_goals
        rw [hvalues] at h hdisjoint
        cases h
      exact hdisjoint

/-! ## The extensions -/

theorem Fields.visitAll_extensions (entries : List (Σ _ : String, Json))
    (h : ∀ key ∈ entries.keys, key ∉ fieldNames) (fields : Fields) :
    fields.visitAll (entries.map fun entry => (entry.1, entry.2)) =
      .ok { fields with
        extensions :=
          entries.foldl (fun m entry => m.insert entry.1 entry.2) fields.extensions } := by
  induction entries generalizing fields with
  | nil => rfl
  | cons entry rest ih =>
      have hhead : entry.1 ∉ fieldNames := h _ List.mem_cons_self
      have hrest : ∀ key ∈ rest.keys, key ∉ fieldNames := fun key hkey =>
        h key (List.mem_cons_of_mem _ hkey)
      show (fields.visit entry.1 entry.2).bind _ = _
      rw [visit_extension hhead]
      exact ih hrest _

/-- Entries that are inserted one by one, under keys of their own, are found under them. -/
theorem lookup_foldl_insert {entries : List (Σ _ : String, Json)} (h : entries.NodupKeys)
    (extensions : Extensions) (key : String) :
    (entries.foldl (fun m entry => m.insert entry.1 entry.2) extensions).lookup key =
      (entries.dlookup key).or (extensions.lookup key) := by
  induction entries generalizing extensions with
  | nil => rfl
  | cons entry rest ih =>
      obtain ⟨name, v⟩ := entry
      rw [List.nodupKeys_cons] at h
      rw [List.foldl_cons, ih h.2]
      by_cases hkey : key = name
      · subst hkey
        rw [List.dlookup_cons_eq, List.dlookup_eq_none.mpr h.1, Finmap.lookup_insert]
        rfl
      · rw [List.dlookup_cons_ne _ _ hkey, Finmap.lookup_insert_of_ne _ hkey]

theorem insert_all {extensions : Extensions} (iteration : Iteration extensions) :
    iteration.entries.entries.foldl (fun m entry => m.insert entry.1 entry.2) ∅ = extensions := by
  apply Finmap.ext_lookup
  intro key
  obtain ⟨entries, rfl⟩ := iteration
  rw [lookup_foldl_insert entries.nodupKeys, Finmap.lookup_empty, Option.or_none,
    Finmap.lookup_toFinmap]
  rfl

theorem mem_keys_iff {extensions : Extensions} (iteration : Iteration extensions) (key : String) :
    key ∈ iteration.entries.entries.keys ↔ key ∈ extensions := by
  obtain ⟨entries, rfl⟩ := iteration
  rfl

/-! ## The fields -/

theorem once_of_decode {α : Type} {field : String} {decode : Json → Except DecodeError α} {v : Json}
    {x : α} (h : decode v = .ok x) : once field decode none v = .ok (some x) := by
  unfold once
  rw [h]
  rfl

theorem Fields.visitAll_cons (fields : Fields) (key : String) (v : Json) (rest : Members) :
    fields.visitAll ((key, v) :: rest) =
      (fields.visit key v).bind fun fields => fields.visitAll rest := rfl

/-- A field that is left out is not read, and one that is written is read. -/
theorem Fields.visitAll_skipNone {fields fields' : Fields} {key : String} {v : Option Json}
    (h : match v with
      | none => fields' = fields
      | some v => fields.visit key v = .ok fields') :
    fields.visitAll (skipNone key v) = .ok fields' := by
  cases v with
  | none =>
      have hfields : fields' = fields := h
      rw [hfields]
      rfl
  | some v =>
      have hvisit : fields.visit key v = .ok fields' := h
      show fields.visitAll [(key, v)] = .ok fields'
      rw [visitAll_cons, hvisit]
      rfl

theorem visit_type (fields : Fields) (s : String) (h : fields.problemType = none) :
    fields.visit "type" (.string s) = .ok { fields with problemType := some s } := by
  show (once "type" decodeString fields.problemType (.string s)).map _ = _
  rw [h]
  rfl

theorem visit_title (fields : Fields) (s : String) (h : fields.title = none) :
    fields.visit "title" (.string s) = .ok { fields with title := some s } := by
  show (once "title" decodeString fields.title (.string s)).map _ = _
  rw [h]
  rfl

theorem visit_status (fields : Fields) (n : UInt16) (h : fields.status = none) :
    fields.visit "status" (.number n.toNat) = .ok { fields with status := some n } := by
  show (once "status" decodeU16 fields.status (.number n.toNat)).map _ = _
  rw [h, once_of_decode (decodeU16_number n)]
  rfl

theorem visitAll_detail (fields : Fields) (detail : Option String) (h : fields.detail = none) :
    fields.visitAll (skipNone "detail" (detail.map .string)) =
      .ok { fields with detail := detail.map some } := by
  apply Fields.visitAll_skipNone
  cases detail with
  | none =>
      show { fields with detail := none } = fields
      rw [← h]
  | some s =>
      show (once "detail" (decodeOption decodeString) fields.detail (.string s)).map _ = _
      rw [h]
      rfl

theorem visitAll_instance (fields : Fields) (uri : Option String) (h : fields.instance = none) :
    fields.visitAll (skipNone "instance" (uri.map .string)) =
      .ok { fields with «instance» := uri.map some } := by
  apply Fields.visitAll_skipNone
  cases uri with
  | none =>
      show { fields with «instance» := none } = fields
      rw [← h]
  | some s =>
      show (once "instance" (decodeOption decodeString) fields.instance (.string s)).map _ = _
      rw [h]
      rfl

theorem visitAll_violations (fields : Fields) (violations : List Violation)
    (h : fields.violations = none) :
    fields.visitAll (skipNone "violations"
        (if violations.isEmpty then none else some (.array (violations.map Violation.serialize)))) =
      .ok { fields with violations := if violations.isEmpty then none else some violations } := by
  apply Fields.visitAll_skipNone
  cases violations with
  | nil =>
      show { fields with violations := none } = fields
      rw [← h]
  | cons violation rest =>
      have hlist := decodeList_map Violation.deserialize_serialize (violation :: rest)
      show (once "violations" (decodeList Violation.deserialize) fields.violations
        (.array ((violation :: rest).map Violation.serialize))).map _ = _
      rw [h, once_of_decode hlist]
      rfl

/-- The fields of a value, as they are read back. -/
def fieldsOf (p : ProblemDetails) : Fields :=
  { problemType := some p.problemType
    title := some p.title
    status := some p.status
    detail := p.detail.map some
    «instance» := p.instance.map some
    violations := if p.violations.isEmpty then none else some p.violations }

theorem visitAll_namedMembers (p : ProblemDetails) :
    Fields.visitAll {} p.namedMembers = .ok p.fieldsOf := by
  have hrequired : Fields.visitAll {} [("type", .string p.problemType), ("title", .string p.title),
      ("status", .number p.status.toNat)] =
      .ok { problemType := some p.problemType, title := some p.title,
            status := some p.status } := by
    rw [Fields.visitAll_cons, visit_type _ _ rfl, Except.bind, Fields.visitAll_cons,
      visit_title _ _ rfl, Except.bind, Fields.visitAll_cons, visit_status _ _ rfl]
    rfl
  unfold namedMembers
  rw [Fields.visitAll_append, Fields.visitAll_append, Fields.visitAll_append, hrequired,
    Except.bind, visitAll_detail _ _ rfl, Except.bind, visitAll_instance _ _ rfl, Except.bind,
    visitAll_violations _ _ rfl]
  rfl

/-! ## The round trip -/

theorem namedMembers_keys (p : ProblemDetails) :
    List.Sublist (p.namedMembers.map Prod.fst) fieldNames := by
  have hskip : ∀ (field : String) (v : Option Json),
      List.Sublist ((skipNone field v).map Prod.fst) [field] := by
    intro field v
    cases v with
    | none => exact List.nil_sublist _
    | some v => exact List.Sublist.refl _
  unfold namedMembers
  rw [List.map_append, List.map_append, List.map_append]
  have hnames : fieldNames = ["type", "title", "status"] ++ ["detail"] ++ ["instance"] ++
    ["violations"] := rfl
  rw [hnames]
  apply List.Sublist.append _ (hskip _ _)
  apply List.Sublist.append _ (hskip _ _)
  apply List.Sublist.append _ (hskip _ _)
  exact List.Sublist.refl _

theorem serialize_keys (p : ProblemDetails) (iteration : Iteration p.extensions) :
    (p.serialize iteration).map Prod.fst =
      p.namedMembers.map Prod.fst ++ iteration.entries.entries.keys := by
  rw [serialize, List.map_append, List.map_map]
  rfl

theorem noDuplicateKeys_serialize {p : ProblemDetails} (iteration : Iteration p.extensions)
    (h : ∀ key ∈ fieldNames, key ∉ p.extensions) : NoDuplicateKeys (p.serialize iteration) := by
  unfold NoDuplicateKeys
  rw [serialize_keys]
  apply List.Nodup.append
  · exact p.namedMembers_keys.nodup (by decide)
  · exact iteration.entries.nodupKeys
  · intro key hnamed hextension
    apply h key (p.namedMembers_keys.subset hnamed)
    exact (mem_keys_iff iteration key).mp hextension

theorem deserialize_serialize {p : ProblemDetails} (iteration : Iteration p.extensions)
    (h : ∀ key ∈ fieldNames, key ∉ p.extensions) :
    deserialize (p.serialize iteration) = .ok p := by
  have hentries : ∀ key ∈ iteration.entries.entries.keys, key ∉ fieldNames := by
    intro key hkey hname
    exact h key hname ((mem_keys_iff iteration key).mp hkey)
  have hfields : Fields.visitAll {} (p.serialize iteration) =
      .ok { p.fieldsOf with extensions := p.extensions } := by
    have hall := insert_all iteration
    rw [serialize, Fields.visitAll_append, visitAll_namedMembers, Except.bind,
      Fields.visitAll_extensions _ hentries]
    rw [show p.fieldsOf.extensions = ∅ from rfl, hall]
  have hdetail : (p.detail.map some).getD none = p.detail := by
    cases p.detail <;> rfl
  have hinstance : (p.instance.map some).getD none = p.instance := by
    cases p.instance <;> rfl
  have hviolations : (if p.violations.isEmpty then none else some p.violations).getD [] =
      p.violations := by
    cases p.violations <;> rfl
  unfold deserialize
  rw [hfields]
  show Except.ok {
      problemType := p.problemType
      title := p.title
      status := p.status
      detail := (p.detail.map some).getD none
      «instance» := (p.instance.map some).getD none
      violations := (if p.violations.isEmpty then none else some p.violations).getD []
      extensions := p.extensions } = Except.ok p
  rw [hdetail, hinstance, hviolations]

/-- A value comes back from its JSON form, in whichever order its extensions are written,
exactly if none of them has the name of a field. -/
theorem round_trip_iff (p : ProblemDetails) (iteration : Iteration p.extensions) :
    NoDuplicateKeys (p.serialize iteration) ∧ deserialize (p.serialize iteration) = .ok p ↔
      ∀ key ∈ fieldNames, key ∉ p.extensions := by
  constructor
  · intro h
    exact disjoint_of_deserialize h.2
  · intro h
    exact ⟨noDuplicateKeys_serialize iteration h, deserialize_serialize iteration h⟩

/-- A status of the domain, next to the one of HTTP. -/
def lockedConflict : ProblemDetails :=
  (new "about:blank" "Conflict" 409).withExtension "status" (.string "locked")

theorem status_extension_duplicated :
    Reachable lockedConflict ∧
      ∃ iteration : Iteration lockedConflict.extensions,
        lockedConflict.serialize iteration =
          [("type", .string "about:blank"), ("title", .string "Conflict"), ("status", .number 409),
            ("status", .string "locked")] ∧
        ¬ NoDuplicateKeys (lockedConflict.serialize iteration) ∧
        deserialize (lockedConflict.serialize iteration) = .error (.duplicateField "status") := by
  refine ⟨.withExtension _ _ (.new _ _ _),
    ⟨(∅ : AList fun _ : String => Json).insert "status" (.string "locked"), rfl⟩, rfl, ?_, rfl⟩
  unfold NoDuplicateKeys
  decide

/-! ## What can be built -/

theorem reachable_insert_all {p : ProblemDetails} (h : Reachable p)
    (entries : List (Σ _ : String, Json)) :
    Reachable { p with
      extensions := entries.foldl (fun m entry => m.insert entry.1 entry.2) p.extensions } := by
  induction entries generalizing p with
  | nil => exact h
  | cons entry rest ih => exact ih (h.withExtension entry.1 entry.2)

/-- The constructors and builders give every value. -/
theorem reachable (p : ProblemDetails) : Reachable p := by
  obtain ⟨problemType, title, status, detail, uri, violations, extensions⟩ := p
  have hnew := (Reachable.new problemType title status).withViolations violations
  have hdetail : Reachable { (new problemType title status).withViolations violations with
      detail := detail } := by
    cases detail with
    | none => exact hnew
    | some detail => exact hnew.withDetail detail
  have hinstance : Reachable { (new problemType title status).withViolations violations with
      detail := detail
      «instance» := uri } := by
    cases uri with
    | none => exact hdetail
    | some uri => exact hdetail.withInstance uri
  induction extensions using Finmap.induction_on with
  | H entries =>
      have hall := reachable_insert_all hinstance entries.entries
      have hentries := @insert_all entries.toFinmap ⟨entries, rfl⟩
      have hextensions : entries.entries.foldl (fun m entry => m.insert entry.1 entry.2)
          ((new problemType title status).withViolations violations).extensions =
          entries.toFinmap := hentries
      rw [hextensions] at hall
      exact hall

end ProblemDetails

end Summer.Web
