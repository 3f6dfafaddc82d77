/-
The metadata that a handler's documentation gives its operation, as a law on lines.

The locals of the loop of `parse_doc_attributes` (`summer-macros/src/route/openapi.rs`) are
read off the parts that the attributes make (`Reflects`), so that the metadata is what the
lines ask for whenever the parts are.
-/
import Summer.Macros.DocLines

namespace Summer.Macros

/-! ## The loop -/

/-- The locals after some attributes, in terms of the parts these made. -/
structure Reflects (fnName : String) (summary : Option Text) (parts : List Part) (s : DocState) :
    Prop where
  summary : s.summary = summary
  tags : s.tags = parts.filterMap Part.tag?
  id : s.id = some ((parts.filterMap Part.id?).getLast?.getD fnName.toList)
  externalDocs : s.externalDocs =
    (parts.filterMap Part.see?).getLast?.map fun url => { url := url, description := none }
  deprecated : s.deprecated = !(parts.filterMap Part.deprecated?).isEmpty
  statusCodes : s.statusCodes = (parts.filterMap Part.statusCodes?).flatten
  description : (linesOf s.description).filter (fun line => !isOther line) =
    parts.filterMap Part.text?
  closed : s.description = [] ∨ ∃ text, s.description = text ++ ['\n']

theorem linesOf_append_closed {description text : Text}
    (h : description = [] ∨ ∃ text, description = text ++ ['\n']) :
    linesOf (description ++ text ++ ['\n']) = linesOf description ++ linesOf text := by
  have hend : ∀ t : Text, linesOf (t ++ ['\n']) = linesOf t := by
    intro t
    apply Lines.lines_append_blank newline_isWhitespace
    intro c hc
    rw [List.mem_singleton.mp hc]
    exact newline_isWhitespace
  rw [hend]
  rcases h with rfl | ⟨before, rfl⟩
  · rfl
  · rw [hend, List.append_assoc, List.singleton_append]
    exact Lines.lines_append_sep before text

def DocState.add (s : DocState) : Part → DocState
  | .tag name => { s with tags := s.tags ++ [name] }
  | .id name => { s with id := some name }
  | .see url => { s with externalDocs := some { url := url, description := none } }
  | .deprecated => { s with deprecated := true }
  | .statusCodes codes => { s with statusCodes := s.statusCodes ++ codes }
  | .summary _ | .text _ => s

theorem addLine_later (s : DocState) (index : ℕ) (doc : Text) :
    s.addLine (index + 1, doc) =
      match directive (Text.trim doc) with
      | some p => s.add p
      | none =>
        if isText (Text.trim doc) then
          { s with description := s.description ++ Text.trim doc ++ ['\n'] }
        else s := by
  unfold DocState.addLine directive directives isText
  generalize Text.trim doc = line
  rw [if_neg (by simp)]
  simp only [List.findSome?]
  cases "@tag ".toList.isPrefixOf? line with
  | some stripped => rfl
  | none =>
      cases "@id ".toList.isPrefixOf? line with
      | some stripped => rfl
      | none =>
          cases "@see ".toList.isPrefixOf? line with
          | some stripped => rfl
          | none =>
              rw [← List.isSome_isPrefixOf?_eq_isPrefixOf]
              cases "@deprecated".toList.isPrefixOf? line with
              | some stripped => rfl
              | none =>
                  cases "@status_codes ".toList.isPrefixOf? line with
                  | some stripped => rfl
                  | none =>
                      cases "@".toList.isPrefixOf line with
                      | true => rfl
                      | false => rfl

variable {fnName : String} {summary : Option Text} {parts : List Part} {s : DocState}

theorem Reflects.add (h : Reflects fnName summary parts s) {p : Part} (hp : p.isDirective) :
    Reflects fnName summary (parts ++ [p]) (s.add p) := by
  obtain ⟨hsummary, htags, hid, hdocs, hdeprecated, hcodes, hdescription, hclosed⟩ := h
  cases p with
  | summary line => cases hp
  | text line => cases hp
  | _ =>
      have hempty : ∀ l : List Unit, (l ++ [()]).isEmpty = false := by
        intro l
        rw [List.isEmpty_eq_false_iff]
        exact List.append_ne_nil_of_right_ne_nil l (List.cons_ne_nil _ _)
      constructor <;>
        simp only [DocState.add, List.filterMap_append, List.filterMap_cons, List.filterMap_nil,
          Part.tag?, Part.id?, Part.see?, Part.deprecated?, Part.statusCodes?, Part.text?,
          List.append_nil, List.getLast?_concat, List.flatten_append, List.flatten_singleton,
          Option.getD_some, Option.map_some, Bool.not_false, hempty, hsummary, htags, hid, hdocs,
          hdeprecated, hcodes, hdescription, hclosed]

/-- Lines of text change the description and nothing else. -/
theorem Reflects.text (h : Reflects fnName summary parts s) (doc : Text) :
    Reflects fnName summary
      (parts ++ ((linesOf doc).filter fun line => !isOther line).map .text)
      { s with description := s.description ++ Text.trim doc ++ ['\n'] } := by
  have hnone : ∀ {β : Type} (f : Part → Option β), (∀ line, f (.text line) = none) →
      ∀ lines : List Text, (lines.map Part.text).filterMap f = [] := by
    intro β f hf lines
    rw [List.filterMap_map, List.filterMap_eq_nil_iff]
    exact fun line _ => hf line
  obtain ⟨hsummary, htags, hid, hdocs, hdeprecated, hcodes, hdescription, hclosed⟩ := h
  constructor
  · exact hsummary
  · rw [List.filterMap_append, hnone Part.tag? fun _ => rfl, List.append_nil, ← htags]
  · rw [List.filterMap_append, hnone Part.id? fun _ => rfl, List.append_nil, ← hid]
  · rw [List.filterMap_append, hnone Part.see? fun _ => rfl, List.append_nil, ← hdocs]
  · rw [List.filterMap_append, hnone Part.deprecated? fun _ => rfl, List.append_nil, ← hdeprecated]
  · rw [List.filterMap_append, hnone Part.statusCodes? fun _ => rfl, List.append_nil, ← hcodes]
  · have htext : ∀ lines : List Text, (lines.map Part.text).filterMap Part.text? = lines := by
      intro lines
      induction lines with
      | nil => rfl
      | cons line lines ih =>
          show line :: (lines.map Part.text).filterMap Part.text? = _
          rw [ih]
    show (linesOf (s.description ++ Text.trim doc ++ ['\n'])).filter _ = _
    rw [linesOf_append_closed hclosed, linesOf_trim, List.filter_append, hdescription,
      List.filterMap_append, htext]
  · exact .inr ⟨_, rfl⟩

theorem Reflects.addLine (h : Reflects fnName summary parts s) (index : ℕ) (doc : Text) :
    Reflects fnName summary (parts ++ laterParts doc)
      (s.addLine (index + 1, Text.trimStart doc)) := by
  rw [addLine_later, trim_trimStart]
  unfold laterParts
  cases hdirective : directive (Text.trim doc) with
  | some p => exact h.add (directive_isDirective hdirective)
  | none =>
      cases htext : isText (Text.trim doc) with
      | true => exact h.text doc
      | false =>
          show Reflects fnName summary (parts ++ []) s
          rw [List.append_nil]
          exact h

theorem Reflects.foldl (h : Reflects fnName summary parts s) (docs : List Text) (index : ℕ) :
    Reflects fnName summary (parts ++ (docs.map laterParts).flatten)
      ((((docs.map Text.trimStart).zipIdx (index + 1)).map Prod.swap).foldl
        DocState.addLine s) := by
  induction docs generalizing parts s index with
  | nil => simpa using h
  | cons doc docs ih =>
      have hrest := ih (h.addLine index doc) (index + 1)
      rw [List.append_assoc] at hrest
      exact hrest

def summaryText : List Text → Option Text
  | [] => none
  | doc :: docs =>
    if Text.trim doc = [] then summaryText docs else some (withoutHashes (Text.trim doc))

theorem filterMap_summaryParts {β : Type} {f : Part → Option β}
    (hf : ∀ line, f (.summary line) = none) (doc : Text) : (summaryParts doc).filterMap f = [] := by
  rw [List.filterMap_eq_nil_iff]
  intro p hp
  obtain ⟨line, rfl⟩ := mem_summaryParts hp
  exact hf line

theorem loop_reflects (docs : List Text) :
    Reflects fnName (summaryText docs) (attributeParts docs).flatten
      (((((docs.dropWhile fun doc => (Text.trim doc).isEmpty).map Text.trimStart).zipIdx).map
        Prod.swap).foldl DocState.addLine ⟨none, [], [], some fnName.toList, false, none, []⟩) := by
  induction docs with
  | nil => constructor <;> simp [summaryText, attributeParts, linesOf, Lines.lines]
  | cons doc docs ih =>
      unfold summaryText attributeParts
      by_cases hblank : Text.trim doc = []
      · rw [if_pos hblank, if_pos hblank, List.dropWhile_cons_of_pos (by rw [hblank]; rfl)]
        exact ih
      · rw [if_neg hblank, if_neg hblank,
          List.dropWhile_cons_of_neg (by simpa using hblank), List.flatten_cons]
        have hfirst : Reflects fnName (some (withoutHashes (Text.trim doc))) (summaryParts doc)
            ⟨some (withoutHashes (Text.trim doc)), [], [], some fnName.toList, false, none,
              []⟩ := by
          constructor
          · rfl
          · rw [filterMap_summaryParts fun _ => rfl]
          · rw [filterMap_summaryParts fun _ => rfl]
            rfl
          · rw [filterMap_summaryParts fun _ => rfl]
            rfl
          · rw [filterMap_summaryParts fun _ => rfl]
            rfl
          · rw [filterMap_summaryParts fun _ => rfl]
            rfl
          · rw [filterMap_summaryParts fun _ => rfl]
            rfl
          · exact .inl rfl
        have hstep : DocState.addLine ⟨none, [], [], some fnName.toList, false, none, []⟩
            (0, Text.trimStart doc) =
              ⟨some (withoutHashes (Text.trim doc)), [], [], some fnName.toList, false, none,
                []⟩ := by
          unfold DocState.addLine
          rw [trim_trimStart, if_pos ⟨rfl, rfl, hblank⟩]
          rfl
        have hloop := hfirst.foldl docs 0
        rw [← hstep] at hloop
        exact hloop

/-- What the metadata is, in terms of the parts of the attributes. -/
theorem parseDocAttributes_reflects (attrs : List Attribute) (fnName : String) :
    ∃ s,
      Reflects fnName (summaryText (docValues attrs)) (attributeParts (docValues attrs)).flatten s ∧
      parseDocAttributes attrs fnName =
        { summary := s.summary,
          description :=
            if Text.trim s.description = [] then none else some (Text.trim s.description),
          tags := s.tags,
          operationId := s.id,
          deprecated := s.deprecated,
          externalDocs := s.externalDocs,
          statusCodes := s.statusCodes } := by
  refine ⟨_, loop_reflects (docValues attrs), ?_⟩
  unfold parseDocAttributes
  rw [extractDocLines_eq]

/-! ## The law of lines -/

/-- The text behind the name of a directive, as it is read. -/
def argument {β : Type} (read : Text → β) (name : String) (line : Text) : Option β :=
  (name.toList.isPrefixOf? line).map read

/-- The metadata that these lines ask for.  Lines with another '@' may stand in the summary and the
description. -/
structure LineLaw (lines : List Text) (fnName : String) (metadata : OperationMetadata) : Prop where
  tags : metadata.tags = lines.filterMap (argument Text.trim "@tag ")
  operationId : metadata.operationId =
    some ((lines.filterMap (argument Text.trim "@id ")).getLast?.getD fnName.toList)
  externalDocs : metadata.externalDocs =
    (lines.filterMap (argument Text.trim "@see ")).getLast?.map fun url =>
      { url := url, description := none }
  deprecated : metadata.deprecated = lines.any fun line => "@deprecated".toList.isPrefixOf line
  statusCodes : metadata.statusCodes =
    (lines.filterMap (argument splitCodes "@status_codes ")).flatten
  hasSummary : lines.filter isText ≠ [] → metadata.summary.isSome
  summary : ∃ before after, (∀ line ∈ before ++ after, isOther line) ∧
    linesOf (metadata.summary.getD []) =
      before ++ linesOf (((lines.filter isText).head?.map withoutHashes).getD []) ++ after
  description : (linesOf (metadata.description.getD [])).filter (fun line => !isOther line) =
    (lines.filter isText).tail

/-- Every line counts where it stands, and the metadata is what the lines ask for.  A line that is
misread counts as such even where a later one hides it in the metadata, as a second `@id` does. -/
structure PositionIndependent (attrs : List Attribute) : Prop where
  parts : attributeParts (docValues attrs) = docParts false (docValues attrs)
  law : ∀ fnName, LineLaw (docLines attrs) fnName (parseDocAttributes attrs fnName)

theorem filterMap_lineParts {β : Type} {f : Part → Option β}
    (hsummary : ∀ line, f (.summary line) = none)
    (htext : ∀ line, f (.text line) = none) (seen : Bool) (lines : List Text) :
    (lineParts seen lines).filterMap f = lines.filterMap fun line => (directive line).bind f := by
  induction lines generalizing seen with
  | nil => rfl
  | cons line lines ih =>
      rcases line_cases line with ⟨p, hdirective, -⟩ | hline | hother
      · rw [lineParts_cons_directive hdirective, List.filterMap_cons, List.filterMap_cons, ih,
          hdirective]
        rfl
      · have hnone : f (if seen then .text line else .summary (withoutHashes line)) = none := by
          split
          · exact htext line
          · exact hsummary _
        rw [lineParts_cons_text hline, List.filterMap_cons_none hnone, ih,
          List.filterMap_cons_none (by rw [directive_of_isText hline]; rfl)]
      · rw [lineParts_cons_other hother, ih,
          List.filterMap_cons_none (by rw [(isOther_iff.mp hother).2]; rfl)]

/-- A projection of the parts reads one directive. -/
theorem bind_directive {β : Type} {f : Part → Option β} {read : Text → β} {name : String}
    (hname : name.toList ∈ directives.map Prod.fst)
    (hread : ∀ d ∈ directives, ∀ rest v,
      f (d.2 rest) = some v ↔ d.1 = name.toList ∧ read rest = v) (line : Text) :
    (directive line).bind f = argument read name line := by
  apply Option.ext
  intro v
  rw [Option.bind_eq_some_iff]
  unfold argument
  rw [Option.map_eq_some_iff]
  constructor
  · rintro ⟨p, hp, hv⟩
    obtain ⟨d, hd, rest, rfl, rfl⟩ := directive_eq_some_iff.mp hp
    obtain ⟨hd', hv'⟩ := (hread d hd rest v).mp hv
    exact ⟨rest, by rw [List.isPrefixOf?_eq_some_iff_append_eq, hd'], hv'⟩
  · rintro ⟨rest, hrest, hv⟩
    obtain ⟨d, hd, hd'⟩ := List.mem_map.mp hname
    rw [List.isPrefixOf?_eq_some_iff_append_eq] at hrest
    exact ⟨d.2 rest, directive_eq_some_iff.mpr ⟨d, hd, rest, by rw [hd', hrest], rfl⟩,
      (hread d hd rest v).mpr ⟨hd', hv⟩⟩

theorem filterMap_text_lineParts (seen : Bool) (lines : List Text) :
    (lineParts seen lines).filterMap Part.text? =
      if seen then lines.filter isText else (lines.filter isText).tail := by
  induction lines generalizing seen with
  | nil => cases seen <;> rfl
  | cons line lines ih =>
      rcases line_cases line with ⟨p, hdirective, hline⟩ | hline | hother
      · have hnone : p.text? = none := by
          cases p with
          | text line => exact absurd (directive_isDirective hdirective) Bool.false_ne_true
          | _ => rfl
        rw [lineParts_cons_directive hdirective, List.filterMap_cons_none hnone, ih,
          List.filter_cons_of_neg (by rw [hline]; decide)]
      · rw [lineParts_cons_text hline, List.filter_cons_of_pos hline, List.filterMap_cons, ih]
        cases seen <;> rfl
      · rw [lineParts_cons_other hother, ih,
          List.filter_cons_of_neg (by rw [(isOther_iff.mp hother).1]; decide)]

theorem not_isEmpty_filterMap {α β : Type} (f : α → Option β) (l : List α) :
    (!(l.filterMap f).isEmpty) = l.any fun a => (f a).isSome := by
  induction l with
  | nil => rfl
  | cons a l ih =>
      cases h : f a with
      | none =>
        rw [List.filterMap_cons_none h, List.any_cons, ih, h, Option.isSome_none, Bool.false_or]
      | some b => rw [List.filterMap_cons_some h, List.any_cons, h]; rfl

/-- Only the first line of an attribute loses its leading '#'. -/
theorem linesOf_withoutHashes {doc first : Text} {others : List Text}
    (h : linesOf doc = first :: others) :
    linesOf (withoutHashes (Text.trim doc)) = linesOf (withoutHashes first) ++ others := by
  obtain ⟨rest, htrim, hrest⟩ := Lines.trim_eq_append newline_isWhitespace h
  have hlines : ∀ text : Text, linesOf (text ++ rest) = linesOf text ++ others :=
    fun text => hrest.lines_append newline_isWhitespace text
  unfold withoutHashes
  rw [linesOf_trimStart, linesOf_trimStart, trim_eq, htrim, List.dropWhile_append]
  split
  · rename_i hempty
    have hnil : (first.dropWhile fun c => decide (c = '#')) = [] := by simpa using hempty
    have hstays : (rest.dropWhile fun c => decide (c = '#')) = rest := by
      cases rest with
      | nil => rfl
      | cons c rest =>
          have hblank : Text.isWhitespace c := hrest.blank_head newline_isWhitespace rfl
          have hne : c ≠ '#' := by
            rintro rfl
            exact absurd hblank (by decide)
          rw [List.dropWhile_cons_of_neg (by simpa using hne)]
    have hrestlines := hlines []
    rw [List.nil_append] at hrestlines
    rw [hstays, hnil, hrestlines]
  · exact hlines _

theorem head?_of_isOther {line : Text} (h : isOther line) : line.head? = some '@' := by
  have htext := (isOther_iff.mp h).1
  unfold isText at htext
  rw [Bool.not_eq_false', List.isPrefixOf_iff_prefix] at htext
  obtain ⟨rest, rfl⟩ := htext
  rfl

theorem linesOf_of_mem {doc line : Text} (h : line ∈ linesOf doc) : linesOf line = [line] :=
  Lines.lines_of_mem h

theorem filter_isText_of_isOther {lines : List Text} (h : ∀ line ∈ lines, isOther line) :
    lines.filter isText = [] := by
  rw [List.filter_eq_nil_iff]
  intro line hline
  rw [(isOther_iff.mp (h line hline)).1]
  decide

/-- The summary taken of an attribute whose one line of text is not behind a line that starts
with a hash. -/
theorem linesOf_summary_of_text {doc line : Text} {before after : List Text}
    (hlines : linesOf doc = before ++ line :: after)
    (hothers : ∀ l ∈ before ++ after, isOther l) (hhead : before = [] ∨ line.head? ≠ some '#') :
    linesOf (withoutHashes (Text.trim doc)) = before ++ linesOf (withoutHashes line) ++ after := by
  cases before with
  | nil => exact linesOf_withoutHashes hlines
  | cons first before =>
      have hmem : ∀ l ∈ first :: before ++ line :: after, l ∈ linesOf doc := by
        intro l hl
        rw [hlines]
        exact hl
      have hfirst : (first : Text).head? = some '@' := head?_of_isOther (hothers first (by simp))
      have hline : line.head? ≠ some '#' := hhead.resolve_left (List.cons_ne_nil _ _)
      rw [linesOf_withoutHashes hlines,
        withoutHashes_eq_self (hmem first (by simp)) (by rw [hfirst]; decide),
        withoutHashes_eq_self (hmem line (by simp)) hline,
        linesOf_of_mem (hmem first (by simp)), linesOf_of_mem (hmem line (by simp))]
      simp

theorem linesOf_summary_of_others {doc : Text} (hblank : Text.trim doc ≠ [])
    (hothers : ∀ line ∈ linesOf doc, isOther line) :
    linesOf (withoutHashes (Text.trim doc)) = linesOf doc := by
  obtain ⟨first, others, hlines⟩ :=
    List.exists_cons_of_ne_nil fun hnil => hblank (linesOf_eq_nil_iff.mp hnil)
  have hmem : first ∈ linesOf doc := by
    rw [hlines]
    exact List.mem_cons_self
  have hfirst : first.head? = some '@' := head?_of_isOther (hothers first hmem)
  rw [linesOf_withoutHashes hlines,
    withoutHashes_eq_self hmem (by rw [hfirst]; decide), linesOf_of_mem hmem, hlines]
  rfl

theorem summaryText_lines {docs : List Text} (h : Clear docs) :
    ((docs.flatMap linesOf).filter isText ≠ [] → (summaryText docs).isSome) ∧
      ∃ before after, (∀ line ∈ before ++ after, isOther line) ∧
        linesOf ((summaryText docs).getD []) = before ++
          linesOf ((((docs.flatMap linesOf).filter isText).head?.map withoutHashes).getD []) ++
            after := by
  induction docs with
  | nil =>
      refine ⟨fun hne => absurd rfl hne, [], [], by simp, rfl⟩
  | cons doc docs ih =>
      unfold Clear at h
      unfold summaryText
      by_cases hblank : Text.trim doc = []
      · rw [if_pos hblank] at h
        rw [if_pos hblank, List.flatMap_cons, linesOf_eq_nil_iff.mpr hblank, List.nil_append]
        exact ih h
      · rw [if_neg hblank] at h
        rw [if_neg hblank, List.flatMap_cons, List.filter_append]
        refine ⟨fun _ => rfl, ?_⟩
        show ∃ before after, _ ∧ linesOf (withoutHashes (Text.trim doc)) = _
        rcases h.1 with ⟨before, line, after, hlines, htext, hothers, hhead⟩ | ⟨hothers, hnotext⟩
        · have hbefore := filter_isText_of_isOther
            fun l hl => hothers l (List.mem_append_left after hl)
          rw [linesOf_summary_of_text hlines hothers hhead, hlines, List.filter_append, hbefore,
            List.filter_cons_of_pos htext]
          exact ⟨before, after, hothers, rfl⟩
        · have hrest : (docs.flatMap linesOf).filter isText = [] := by
            rw [List.filter_eq_nil_iff]
            intro line hline
            obtain ⟨d, hd, hline⟩ := List.mem_flatMap.mp hline
            rw [hnotext d hd line hline]
            decide
          rw [filter_isText_of_isOther hothers, hrest, linesOf_summary_of_others hblank hothers]
          refine ⟨linesOf doc, [], by simpa using hothers, ?_⟩
          simp [linesOf_nil]

theorem lineLaw_of_clear {attrs : List Attribute} (h : Clear (docValues attrs)) (fnName : String) :
    LineLaw (docLines attrs) fnName (parseDocAttributes attrs fnName) := by
  obtain ⟨s, hreflects, hparse⟩ := parseDocAttributes_reflects attrs fnName
  rw [(attributeParts_eq_iff _).mpr h, docParts_flatten] at hreflects
  change Reflects _ _ (lineParts false (docLines attrs)) s at hreflects
  have hread : ∀ {β : Type} (f : Part → Option β) (read : Text → β) (name : String),
      (∀ line, f (.summary line) = none) → (∀ line, f (.text line) = none) →
      name.toList ∈ directives.map Prod.fst →
      (∀ d ∈ directives, ∀ rest v, f (d.2 rest) = some v ↔ d.1 = name.toList ∧ read rest = v) →
      (lineParts false (docLines attrs)).filterMap f =
        (docLines attrs).filterMap (argument read name) := by
    intro β f read name hsummary htext hname hread
    rw [filterMap_lineParts hsummary htext]
    congr 1
    funext line
    exact bind_directive hname hread line
  rw [hparse]
  constructor
  · show s.tags = _
    rw [hreflects.tags]
    apply hread Part.tag? Text.trim "@tag " (fun _ => rfl) (fun _ => rfl) (by decide)
    simp [directives, Part.tag?]
  · show s.id = _
    rw [hreflects.id, hread Part.id? Text.trim "@id " (fun _ => rfl) (fun _ => rfl) (by decide)]
    simp [directives, Part.id?]
  · show s.externalDocs = _
    rw [hreflects.externalDocs,
      hread Part.see? Text.trim "@see " (fun _ => rfl) (fun _ => rfl) (by decide)]
    simp [directives, Part.see?]
  · show s.deprecated = _
    rw [hreflects.deprecated, hread Part.deprecated? (fun _ => ()) "@deprecated" (fun _ => rfl)
      (fun _ => rfl) (by decide) (by simp [directives, Part.deprecated?]), not_isEmpty_filterMap]
    congr 1
    funext line
    unfold argument
    rw [Option.isSome_map, List.isSome_isPrefixOf?_eq_isPrefixOf]
  · show s.statusCodes = _
    rw [hreflects.statusCodes,
      hread Part.statusCodes? splitCodes "@status_codes " (fun _ => rfl) (fun _ => rfl) (by decide)]
    simp [directives, Part.statusCodes?]
  · show _ → s.summary.isSome
    rw [hreflects.summary]
    exact (summaryText_lines h).1
  · show ∃ before after, _ ∧ linesOf (s.summary.getD []) = _
    rw [hreflects.summary]
    exact (summaryText_lines h).2
  · have hlines : linesOf ((if Text.trim s.description = [] then none
        else some (Text.trim s.description)).getD []) = linesOf s.description := by
      rw [← linesOf_trim s.description]
      split
      · rename_i hempty
        rw [hempty]
        rfl
      · rfl
    show (linesOf (Option.getD (if _ then _ else _) [])).filter _ = _
    rw [hlines, hreflects.description, filterMap_text_lineParts]
    rfl

/-- When directive lines are independent of their position. -/
theorem positionIndependent_iff (attrs : List Attribute) :
    PositionIndependent attrs ↔ Clear (docValues attrs) := by
  constructor
  · intro h
    exact (attributeParts_eq_iff _).mp h.parts
  · intro h
    exact ⟨(attributeParts_eq_iff _).mpr h, lineLaw_of_clear h⟩

/-- A handler whose documentation starts with a tag. -/
theorem leading_tag_is_summary :
    ¬ PositionIndependent [⟨.nameValue (.ident "doc") (.str " @tag todo")⟩] := by
  intro h
  have htags := (h.law "list_todos").tags
  revert htags
  decide

end Summer.Macros
