/-
Which lines of a handler's documentation reach its metadata.

`parse_doc_attributes` (`summer-macros/src/route/openapi.rs`) calls a line what is the
whole text of one doc attribute, which may have several lines, and takes the first
attribute for the summary whatever it says.  Here each attribute is compared with what
its lines ask for.
-/
import Mathlib.Data.List.Nodup
import Summer.Lib.Lines
import Summer.Macros.DocAttributes

namespace Summer.Macros

/-! ## The lines of the documentation -/

def docValue (attr : Attribute) : Option Text :=
  match attr.content with
  | .nameValue p (.str value) => if p.isIdent "doc" then some value.toList else none
  | _ => none

def docValues (attrs : List Attribute) : List Text := attrs.filterMap docValue

/-- The trimmed lines that are not empty. -/
def linesOf (text : Text) : List Text := Lines.lines Text.isWhitespace '\n' text

def docLines (attrs : List Attribute) : List Text := (docValues attrs).flatMap linesOf

theorem newline_isWhitespace : Text.isWhitespace '\n' = true := by decide

theorem trim_eq (text : Text) : Text.trim text = Lines.trim Text.isWhitespace text := rfl

theorem linesOf_nil : linesOf [] = [] := rfl

theorem linesOf_trim (text : Text) : linesOf (Text.trim text) = linesOf text :=
  Lines.lines_trim newline_isWhitespace text

theorem linesOf_trimStart (text : Text) : linesOf (Text.trimStart text) = linesOf text :=
  Lines.lines_dropWhile newline_isWhitespace text

theorem linesOf_eq_nil_iff {text : Text} : linesOf text = [] ↔ Text.trim text = [] := by
  unfold linesOf
  rw [Lines.lines_eq_nil_iff newline_isWhitespace, trim_eq, Lines.trim_eq_nil_iff]

theorem trim_trimStart (text : Text) : Text.trim (Text.trimStart text) = Text.trim text := by
  show Text.trimEnd (Text.trimStart (Text.trimStart text)) = _
  unfold Text.trimStart
  rw [List.dropWhile_idempotent]
  rfl

theorem docLine_eq (attr : Attribute) : docLine attr = (docValue attr).map Text.trimStart := by
  unfold docLine docValue
  cases attr.content with
  | nameValue p value =>
      cases value with
      | str value => by_cases hdoc : p.isIdent "doc" <;> simp [hdoc]
      | _ => rfl
  | _ => rfl

theorem extractDocLines_eq (attrs : List Attribute) :
    extractDocLines attrs =
      ((docValues attrs).dropWhile fun doc => (Text.trim doc).isEmpty).map Text.trimStart := by
  have hmap : attrs.filterMap docLine = (docValues attrs).map Text.trimStart := by
    unfold docValues
    rw [List.map_filterMap]
    congr 1
    funext attr
    exact docLine_eq attr
  unfold extractDocLines
  rw [hmap, List.dropWhile_map]
  congr 2
  funext doc
  show (Text.trim (Text.trimStart doc)).isEmpty = _
  rw [trim_trimStart]

/-! ## Directives -/

/-- What a line, or an attribute taken for one, puts into the metadata. -/
inductive Part where
  | tag (name : Text)
  | id (name : Text)
  | see (url : Text)
  | deprecated
  | statusCodes (codes : List Text)
  | summary (line : Text)
  | text (line : Text)
deriving DecidableEq, Repr

namespace Part

def tag? : Part → Option Text
  | tag name => some name
  | _ => none

def id? : Part → Option Text
  | id name => some name
  | _ => none

def see? : Part → Option Text
  | see url => some url
  | _ => none

def deprecated? : Part → Option Unit
  | deprecated => some ()
  | _ => none

def statusCodes? : Part → Option (List Text)
  | statusCodes codes => some codes
  | _ => none

def text? : Part → Option Text
  | text line => some line
  | _ => none

/-- The parts that only a directive makes. -/
def isDirective : Part → Bool
  | summary _ | text _ => false
  | _ => true

end Part

def splitCodes (text : Text) : List Text := Lines.lines Text.isWhitespace ',' text

/-- The directives, with what each makes of the text behind its name. -/
def directives : List (Text × (Text → Part)) :=
  [("@tag ".toList, fun stripped => .tag (Text.trim stripped)),
    ("@id ".toList, fun stripped => .id (Text.trim stripped)),
    ("@see ".toList, fun stripped => .see (Text.trim stripped)),
    ("@deprecated".toList, fun _ => .deprecated),
    ("@status_codes ".toList, fun stripped => .statusCodes (splitCodes stripped))]

def directive (line : Text) : Option Part :=
  directives.findSome? fun d => (d.1.isPrefixOf? line).map d.2

def isText (line : Text) : Bool := !"@".toList.isPrefixOf line

/-- A line that starts with '@' and is none of the directives. -/
def isOther (line : Text) : Bool := !isText line && (directive line).isNone

/-- Three letters tell the directives apart. -/
theorem directives_nodup : (directives.map fun d => d.1.take 3).Nodup := by decide

theorem directive_eq_some_iff {line : Text} {part : Part} :
    directive line = some part ↔
      ∃ d ∈ directives, ∃ rest, line = d.1 ++ rest ∧ part = d.2 rest := by
  have hsound : ∀ p, directive line = some p →
      ∃ d ∈ directives, ∃ rest, line = d.1 ++ rest ∧ p = d.2 rest := by
    intro p h
    obtain ⟨d, hd, hp⟩ := List.exists_of_findSome?_eq_some h
    obtain ⟨rest, hrest, hread⟩ := Option.map_eq_some_iff.mp hp
    exact ⟨d, hd, rest, (List.isPrefixOf?_eq_some_iff_append_eq.mp hrest).symm, hread.symm⟩
  constructor
  · exact hsound part
  · rintro ⟨d, hd, rest, hline, rfl⟩
    have hsome : (directive line).isSome := by
      unfold directive
      rw [List.findSome?_isSome_iff]
      exact ⟨d, hd, by rw [List.isPrefixOf?_eq_some_iff_append_eq.mpr hline.symm]; rfl⟩
    obtain ⟨p, hp⟩ := Option.isSome_iff_exists.mp hsome
    obtain ⟨d', hd', rest', hline', rfl⟩ := hsound p hp
    have htake : ∀ e ∈ directives, ∀ r, line = e.1 ++ r → line.take 3 = e.1.take 3 := by
      intro e he r hr
      have hlength : ∀ e ∈ directives, 3 ≤ e.1.length := by decide
      rw [hr, List.take_append_of_le_length (hlength e he)]
    have hsame : d = d' := by
      apply List.inj_on_of_nodup_map directives_nodup hd hd'
      rw [← htake d hd rest hline, ← htake d' hd' rest' hline']
    subst hsame
    rw [hline] at hline'
    rw [hp, List.append_cancel_left hline']

theorem isText_of_directive {line : Text} {part : Part} (h : directive line = some part) :
    isText line = false := by
  obtain ⟨d, hd, rest, rfl, -⟩ := directive_eq_some_iff.mp h
  have hat : ∀ d ∈ directives, "@".toList <+: d.1 := by decide
  unfold isText
  rw [Bool.not_eq_false', List.isPrefixOf_iff_prefix]
  exact (hat d hd).trans (List.prefix_append d.1 rest)

theorem directive_of_isText {line : Text} (h : isText line) : directive line = none := by
  cases hdirective : directive line with
  | none => rfl
  | some part =>
      rw [isText_of_directive hdirective] at h
      cases h

theorem isOther_iff {line : Text} : isOther line ↔ isText line = false ∧ directive line = none := by
  simp [isOther]

theorem line_cases (line : Text) :
    (∃ part, directive line = some part ∧ isText line = false) ∨ isText line ∨ isOther line := by
  cases hdirective : directive line with
  | some part => exact .inl ⟨part, rfl, isText_of_directive hdirective⟩
  | none =>
      cases htext : isText line with
      | true => exact .inr (.inl rfl)
      | false => exact .inr (.inr (isOther_iff.mpr ⟨htext, hdirective⟩))

/-- The summary that a first line of text makes. -/
def withoutHashes (line : Text) : Text := Text.trimStart (line.dropWhile fun c => c = '#')

/-! ## What the lines ask for -/

/-- The parts of the lines, the first one of text for the summary unless one has been `seen`. -/
def lineParts : Bool → List Text → List Part
  | _, [] => []
  | seen, line :: rest =>
    match directive line with
    | some part => part :: lineParts seen rest
    | none =>
      if isText line then
        (if seen then .text line else .summary (withoutHashes line)) :: lineParts true rest
      else lineParts seen rest

/-- The same for each attribute. -/
def docParts : Bool → List Text → List (List Part)
  | _, [] => []
  | seen, doc :: docs =>
    lineParts seen (linesOf doc) :: docParts (seen || (linesOf doc).any isText) docs

theorem lineParts_cons_directive {line : Text} {part : Part} (h : directive line = some part)
    (seen : Bool) (rest : List Text) :
    lineParts seen (line :: rest) = part :: lineParts seen rest := by
  simp only [lineParts, h]

theorem lineParts_cons_text {line : Text} (h : isText line) (seen : Bool) (rest : List Text) :
    lineParts seen (line :: rest) =
      (if seen then .text line else .summary (withoutHashes line)) :: lineParts true rest := by
  have hnone := directive_of_isText h
  simp only [lineParts, hnone, h, if_true]

theorem lineParts_cons_other {line : Text} (h : isOther line) (seen : Bool) (rest : List Text) :
    lineParts seen (line :: rest) = lineParts seen rest := by
  obtain ⟨htext, hnone⟩ := isOther_iff.mp h
  simp only [lineParts, hnone, htext, Bool.false_eq_true, if_false]

theorem lineParts_append (seen : Bool) (a b : List Text) :
    lineParts seen (a ++ b) = lineParts seen a ++ lineParts (seen || a.any isText) b := by
  induction a generalizing seen with
  | nil => simp [lineParts]
  | cons line a ih =>
      rw [List.cons_append, List.any_cons]
      rcases line_cases line with ⟨part, hdirective, htext⟩ | htext | hother
      · rw [lineParts_cons_directive hdirective, lineParts_cons_directive hdirective, ih, htext,
          Bool.false_or, List.cons_append]
      · rw [lineParts_cons_text htext, lineParts_cons_text htext, ih, htext, List.cons_append,
          Bool.true_or, Bool.or_true]
      · rw [lineParts_cons_other hother, lineParts_cons_other hother, ih,
          (isOther_iff.mp hother).1, Bool.false_or]

theorem docParts_flatten (seen : Bool) (docs : List Text) :
    (docParts seen docs).flatten = lineParts seen (docs.flatMap linesOf) := by
  induction docs generalizing seen with
  | nil => rfl
  | cons doc docs ih =>
      unfold docParts
      rw [List.flatten_cons, List.flatMap_cons, lineParts_append, ih]

/-! ## What the code does with an attribute -/

/-- The first attribute that is not blank is the summary. -/
def summaryParts (doc : Text) : List Part :=
  match linesOf doc with
  | [] => []
  | first :: others =>
    (if isOther first then [] else [.summary (withoutHashes first)]) ++
      (others.filter fun line => !isOther line).map .summary

/-- Every later one is taken for one line. -/
def laterParts (doc : Text) : List Part :=
  match directive (Text.trim doc) with
  | some part => [part]
  | none =>
    if isText (Text.trim doc) then ((linesOf doc).filter fun line => !isOther line).map .text
    else []

def attributeParts : List Text → List (List Part)
  | [] => []
  | doc :: docs =>
    if Text.trim doc = [] then [] :: attributeParts docs
    else summaryParts doc :: docs.map laterParts

/-! ## The condition -/

/-- The first attribute has one line that is not some other '@' line, and it is a line of text. -/
def FirstClear (doc : Text) : Prop :=
  ∃ before line after, linesOf doc = before ++ line :: after ∧ isText line ∧
    (∀ l ∈ before ++ after, isOther l) ∧ (before = [] ∨ line.head? ≠ some '#')

def hasArgument (text : Text) : Prop :=
  ∃ d ∈ directives, d.1 ≠ "@deprecated".toList ∧ d.1 <+: text

/-- A later attribute has one line, or its other lines are such that nothing in them counts. -/
def LaterClear (doc : Text) : Prop :=
  match linesOf doc with
  | first :: second :: others =>
    if isText first then ∀ line ∈ second :: others, directive line = none
    else ¬ hasArgument (Text.trim doc) ∧ ∀ line ∈ second :: others, isOther line
  | _ => True

def Clear : List Text → Prop
  | [] => True
  | doc :: docs =>
    if Text.trim doc = [] then Clear docs
    else
      (FirstClear doc ∨
        (∀ line ∈ linesOf doc, isOther line) ∧
          ∀ d ∈ docs, ∀ line ∈ linesOf d, isText line = false) ∧
      ∀ d ∈ docs, LaterClear d

/-! ## Later attributes -/

/-- The part of a line when the summary is already there. -/
def part (line : Text) : Option Part :=
  match directive line with
  | some p => some p
  | none => if isText line then some (.text line) else none

theorem part_of_directive {line : Text} {p : Part} (h : directive line = some p) :
    part line = some p := by
  simp only [part, h]

theorem part_of_isText {line : Text} (h : isText line) : part line = some (.text line) := by
  simp only [part, directive_of_isText h, h, if_true]

theorem part_eq_none_iff {line : Text} : part line = none ↔ isOther line := by
  rcases line_cases line with ⟨p, hdirective, htext⟩ | htext | hother
  · simp [part, isOther, hdirective]
  · simp [part_of_isText htext, isOther, htext]
  · obtain ⟨htext, hnone⟩ := isOther_iff.mp hother
    simp [part, hnone, htext, hother]

theorem filterMap_part_eq_nil_iff {lines : List Text} :
    lines.filterMap part = [] ↔ ∀ line ∈ lines, isOther line := by
  rw [List.filterMap_eq_nil_iff]
  exact forall₂_congr fun line _ => part_eq_none_iff

theorem lineParts_true (lines : List Text) : lineParts true lines = lines.filterMap part := by
  induction lines with
  | nil => rfl
  | cons line lines ih =>
      rcases line_cases line with ⟨p, hdirective, -⟩ | htext | hother
      · rw [lineParts_cons_directive hdirective, ih,
          List.filterMap_cons_some (part_of_directive hdirective)]
      · rw [lineParts_cons_text htext, ih, List.filterMap_cons_some (part_of_isText htext)]
        rfl
      · rw [lineParts_cons_other hother, ih,
          List.filterMap_cons_none (part_eq_none_iff.mpr hother)]

/-- Without a line of text it makes no difference whether there was one before. -/
theorem lineParts_of_no_text {lines : List Text} (h : ∀ line ∈ lines, isText line = false)
    (seen : Bool) : lineParts seen lines = lines.filterMap part := by
  induction lines with
  | nil => rfl
  | cons line lines ih =>
      have hrest := ih fun l hl => h l (List.mem_cons_of_mem line hl)
      have hline := h line List.mem_cons_self
      rcases line_cases line with ⟨p, hdirective, -⟩ | htext | hother
      · rw [lineParts_cons_directive hdirective, hrest,
          List.filterMap_cons_some (part_of_directive hdirective)]
      · rw [hline] at htext
        cases htext
      · rw [lineParts_cons_other hother, hrest,
          List.filterMap_cons_none (part_eq_none_iff.mpr hother)]

theorem directive_isDirective {line : Text} {p : Part} (h : directive line = some p) :
    p.isDirective := by
  obtain ⟨d, hd, rest, -, rfl⟩ := directive_eq_some_iff.mp h
  simp only [directives, List.mem_cons, List.not_mem_nil, or_false] at hd
  rcases hd with rfl | rfl | rfl | rfl | rfl <;> rfl

/-- Text lines and other '@' lines only: each line of text is a part. -/
theorem filterMap_part_of_no_directive {lines : List Text}
    (h : ∀ line ∈ lines, directive line = none) :
    lines.filterMap part = (lines.filter fun line => !isOther line).map .text := by
  induction lines with
  | nil => rfl
  | cons line lines ih =>
      have hrest := ih fun l hl => h l (List.mem_cons_of_mem line hl)
      rcases line_cases line with ⟨p, hdirective, -⟩ | htext | hother
      · rw [h line List.mem_cons_self] at hdirective
        cases hdirective
      · have hnot : isOther line = false := by simp [isOther, htext]
        rw [List.filterMap_cons_some (part_of_isText htext), hrest,
          List.filter_cons_of_pos (by rw [hnot]; rfl), List.map_cons]
      · rw [List.filterMap_cons_none (part_eq_none_iff.mpr hother), hrest,
          List.filter_cons_of_neg (by rw [hother]; decide)]

theorem filter_text_eq_iff {lines : List Text} :
    (lines.filter fun line => !isOther line).map .text = lines.filterMap part ↔
      ∀ line ∈ lines, directive line = none := by
  constructor
  · intro h line hline
    cases hdirective : directive line with
    | none => rfl
    | some p =>
        have hmem : p ∈ lines.filterMap part :=
          List.mem_filterMap.mpr ⟨line, hline, part_of_directive hdirective⟩
        rw [← h] at hmem
        obtain ⟨l, -, rfl⟩ := List.mem_map.mp hmem
        exact absurd (directive_isDirective hdirective) Bool.false_ne_true
  · intro h
    exact (filterMap_part_of_no_directive h).symm

/-- How many '@' an argument has, which is how it shows that it has taken another line in. -/
def Part.ats : Part → ℕ
  | tag name | id name => name.count '@'
  | see url => url.count '@'
  | statusCodes codes => codes.flatten.count '@'
  | _ => 0

theorem ats_of_directive {line : Text} {p : Part} (h : directive line = some p)
    (hp : p ≠ .deprecated) : p.ats + 1 = line.count '@' := by
  obtain ⟨d, hd, rest, rfl, rfl⟩ := directive_eq_some_iff.mp h
  have hone : ∀ d ∈ directives, d.1.count '@' = 1 := by decide
  have htrim : (Text.trim rest).count '@' = rest.count '@' := Lines.count_trim (by decide) rest
  have hcodes : (splitCodes rest).flatten.count '@' = rest.count '@' :=
    Lines.count_lines (by decide) (by decide) rest
  rw [List.count_append, hone d hd, Nat.add_comm]
  congr 1
  simp only [directives, List.mem_cons, List.not_mem_nil, or_false] at hd
  rcases hd with rfl | rfl | rfl | rfl | rfl
  · exact htrim
  · exact htrim
  · exact htrim
  · exact absurd rfl hp
  · exact hcodes

theorem name_eq_deprecated_iff {d : Text × (Text → Part)} (hd : d ∈ directives) (rest : Text) :
    d.1 = "@deprecated".toList ↔ d.2 rest = .deprecated := by
  simp only [directives, List.mem_cons, List.not_mem_nil, or_false] at hd
  rcases hd with rfl | rfl | rfl | rfl | rfl <;> simp

theorem hasArgument_iff {text : Text} :
    hasArgument text ↔ ∃ p, directive text = some p ∧ p ≠ .deprecated := by
  constructor
  · rintro ⟨d, hd, hne, rest, hrest⟩
    exact ⟨d.2 rest, directive_eq_some_iff.mpr ⟨d, hd, rest, hrest.symm, rfl⟩,
      fun h => hne ((name_eq_deprecated_iff hd rest).mpr h)⟩
  · rintro ⟨p, hp, hne⟩
    obtain ⟨d, hd, rest, hline, rfl⟩ := directive_eq_some_iff.mp hp
    exact ⟨d, hd, fun h => hne ((name_eq_deprecated_iff hd rest).mp h), rest, hline.symm⟩

theorem directive_eq_deprecated_iff {line : Text} :
    directive line = some .deprecated ↔ "@deprecated".toList <+: line := by
  constructor
  · intro h
    obtain ⟨d, hd, rest, hline, hread⟩ := directive_eq_some_iff.mp h
    exact ⟨rest, by rw [← (name_eq_deprecated_iff hd rest).mpr hread.symm, hline]⟩
  · rintro ⟨rest, hrest⟩
    exact directive_eq_some_iff.mpr
      ⟨("@deprecated".toList, fun _ => .deprecated), by simp [directives], rest, hrest.symm, rfl⟩

theorem eq_nil_of_no_ats {lines : List Text} (hother : ∀ line ∈ lines, isOther line)
    (h : lines.flatten.count '@' = 0) : lines = [] := by
  cases lines with
  | nil => rfl
  | cons line lines =>
      have htext := (isOther_iff.mp (hother line List.mem_cons_self)).1
      unfold isText at htext
      rw [Bool.not_eq_false', List.isPrefixOf_iff_prefix] at htext
      obtain ⟨rest, rfl⟩ := htext
      simp at h

/-- An argument that took other lines in is none that a line asks for. -/
theorem argument_of_one_line {text : Text} {p : Part} (h : directive (Text.trim text) = some p)
    (hp : p ≠ .deprecated) (hlines : (linesOf text).filterMap part = [p]) :
    ∃ line, linesOf text = [line] := by
  obtain ⟨before, line, after, htext, hbefore, hline, hafter⟩ :=
    List.filterMap_eq_cons_iff.mp hlines
  have hdirective : directive line = some p := by
    have hkind := directive_isDirective h
    rcases line_cases line with ⟨q, hq, -⟩ | htext' | hother
    · rw [part_of_directive hq] at hline
      rw [hq, hline]
    · rw [part_of_isText htext'] at hline
      cases hline
      cases hkind
    · rw [part_eq_none_iff.mpr hother] at hline
      cases hline
  have hcount : (linesOf text).flatten.count '@' = (Text.trim text).count '@' := by
    unfold linesOf
    rw [Lines.count_lines (by decide) (by decide), trim_eq, Lines.count_trim (by decide)]
  rw [htext, List.flatten_append, List.flatten_cons, List.count_append, List.count_append,
    ← ats_of_directive h hp, ats_of_directive hdirective hp] at hcount
  have hbefore' := eq_nil_of_no_ats (fun l hl => part_eq_none_iff.mp (hbefore l hl)) (by omega)
  have hafter' := eq_nil_of_no_ats (filterMap_part_eq_nil_iff.mp hafter) (by omega)
  rw [hbefore', hafter'] at htext
  exact ⟨line, htext⟩

/-- Apart from arguments, the trimmed text is classified as its first line is. -/
theorem first_line {doc first : Text} {others : List Text} (h : linesOf doc = first :: others) :
    isText (Text.trim doc) = isText first ∧
      (¬ hasArgument (Text.trim doc) → directive (Text.trim doc) = directive first) := by
  obtain ⟨rest, htrim, hrest⟩ := Lines.trim_eq_append newline_isWhitespace h
  rw [trim_eq, htrim]
  have hstarts : ∀ {word : Text}, word.all (fun c => !Text.isWhitespace c) = true →
      (word <+: first ++ rest ↔ word <+: first) := by
    intro word hword
    apply hrest.isPrefix_iff newline_isWhitespace
    intro c hc
    simpa using List.all_eq_true.mp hword c hc
  constructor
  · unfold isText
    rw [Bool.eq_iff_iff, Bool.not_eq_true', Bool.not_eq_true', Bool.eq_false_iff, Bool.eq_false_iff,
      ne_eq, ne_eq, List.isPrefixOf_iff_prefix, List.isPrefixOf_iff_prefix, hstarts (by decide)]
  · intro hno
    have hfirst : ¬ hasArgument first := by
      rintro ⟨d, hd, hne, hstart⟩
      exact hno ⟨d, hd, hne, hstart.trans (List.prefix_append first rest)⟩
    have hkind : ∀ {line : Text}, ¬ hasArgument line → ∀ p, directive line = some p ↔
        p = .deprecated ∧ "@deprecated".toList <+: line := by
      intro line hline p
      rw [← directive_eq_deprecated_iff]
      constructor
      · intro hp
        have heq : p = .deprecated := by
          by_contra hne
          exact hline (hasArgument_iff.mpr ⟨p, hp, hne⟩)
        exact ⟨heq, by rw [← heq, hp]⟩
      · rintro ⟨rfl, hp⟩
        exact hp
    apply Option.ext
    intro p
    rw [hkind hno, hkind hfirst, hstarts (by decide)]

theorem laterParts_of_isText {doc : Text} (h : isText (Text.trim doc)) :
    laterParts doc = ((linesOf doc).filter fun line => !isOther line).map .text := by
  simp only [laterParts, directive_of_isText h, h, if_true]

theorem laterParts_of_not_isText {doc : Text} (h : isText (Text.trim doc) = false) :
    laterParts doc = (directive (Text.trim doc)).toList := by
  unfold laterParts
  cases directive (Text.trim doc) with
  | some p => rfl
  | none =>
      rw [h]
      rfl

theorem filterMap_part_cons {first : Text} (h : isText first = false) (lines : List Text) :
    (first :: lines).filterMap part = (directive first).toList ++ lines.filterMap part := by
  rcases line_cases first with ⟨p, hdirective, -⟩ | htext | hother
  · rw [List.filterMap_cons_some (part_of_directive hdirective), hdirective]
    rfl
  · rw [h] at htext
    cases htext
  · rw [List.filterMap_cons_none (part_eq_none_iff.mpr hother), (isOther_iff.mp hother).2]
    rfl

theorem laterParts_of_one_line {doc line : Text} (h : linesOf doc = [line]) :
    laterParts doc = [line].filterMap part := by
  have htrim : Text.trim doc = line := Lines.trim_eq_of_lines newline_isWhitespace h
  cases htext : isText line with
  | true =>
      have hnone : ∀ l ∈ [line], directive l = none := by
        intro l hl
        rw [List.mem_singleton.mp hl]
        exact directive_of_isText htext
      rw [laterParts_of_isText (by rw [htrim, htext]), h, filterMap_part_of_no_directive hnone]
  | false =>
      rw [laterParts_of_not_isText (by rw [htrim, htext]), htrim, filterMap_part_cons htext,
        List.filterMap_nil, List.append_nil]

theorem laterParts_eq_iff (doc : Text) :
    laterParts doc = (linesOf doc).filterMap part ↔ LaterClear doc := by
  unfold LaterClear
  rcases hlines : linesOf doc with _ | ⟨first, _ | ⟨second, others⟩⟩
  · -- a blank attribute
    have htrim := linesOf_eq_nil_iff.mp hlines
    have hparts : laterParts doc = [] := by
      rw [laterParts_of_isText (by rw [htrim]; rfl), hlines]
      rfl
    simp [hparts]
  · simp only [laterParts_of_one_line hlines]
  · obtain ⟨hkind, hsame⟩ := first_line hlines
    simp only
    split
    · -- the whole text is taken for text
      rename_i htext
      rw [htext] at hkind
      rw [laterParts_of_isText hkind, hlines, filter_text_eq_iff, List.forall_mem_cons]
      exact and_iff_right (directive_of_isText htext)
    · -- the whole text is taken for a directive, or dropped
      rename_i htext
      rw [Bool.not_eq_true] at htext
      rw [htext] at hkind
      rw [laterParts_of_not_isText hkind, filterMap_part_cons htext]
      rw [← filterMap_part_eq_nil_iff]
      constructor
      · intro h
        have hno : ¬ hasArgument (Text.trim doc) := by
          intro hargument
          obtain ⟨p, hp, hne⟩ := hasArgument_iff.mp hargument
          rw [hp, ← filterMap_part_cons htext, ← hlines] at h
          obtain ⟨line, hline⟩ := argument_of_one_line hp hne h.symm
          rw [hlines] at hline
          cases hline
        rw [hsame hno] at h
        exact ⟨hno, List.self_eq_append_right.mp h⟩
      · rintro ⟨hno, hnil⟩
        rw [hsame hno, hnil, List.append_nil]

/-! ## The first attribute -/

theorem summary_not_mem_laterParts (doc line : Text) : .summary line ∉ laterParts doc := by
  intro hmem
  cases htext : isText (Text.trim doc) with
  | true =>
      rw [laterParts_of_isText htext] at hmem
      obtain ⟨l, -, hl⟩ := List.mem_map.mp hmem
      cases hl
  | false =>
      rw [laterParts_of_not_isText htext, Option.mem_toList] at hmem
      exact absurd (directive_isDirective hmem) Bool.false_ne_true

theorem any_isText_of_isText_false {lines : List Text} (h : ∀ line ∈ lines, isText line = false) :
    lines.any isText = false := by
  rw [List.any_eq_false]
  intro line hline
  rw [h line hline]
  decide

/-- The lines before the first one of text, that line, and the lines after it. -/
theorem lineParts_false {before after : List Text} {line : Text}
    (hbefore : ∀ l ∈ before, isText l = false) (hline : isText line) :
    lineParts false (before ++ line :: after) =
      before.filterMap part ++ .summary (withoutHashes line) :: after.filterMap part := by
  rw [lineParts_append, lineParts_of_no_text hbefore, any_isText_of_isText_false hbefore,
    lineParts_cons_text hline, lineParts_true]
  rfl

theorem exists_first_text {lines : List Text} (h : ¬ ∀ line ∈ lines, isText line = false) :
    ∃ before line after, lines = before ++ line :: after ∧ isText line ∧
      ∀ l ∈ before, isText l = false := by
  have hsome : (lines.find? isText).isSome := by
    rw [List.find?_isSome]
    simpa using h
  obtain ⟨line, hfind⟩ := Option.isSome_iff_exists.mp hsome
  obtain ⟨htext, before, after, hlines, hbefore⟩ := List.find?_eq_some_iff_append.mp hfind
  exact ⟨before, line, after, hlines, htext, fun l hl => by simpa using hbefore l hl⟩

theorem withoutHashes_eq_self {doc line : Text} (hmem : line ∈ linesOf doc)
    (hhead : line.head? ≠ some '#') : withoutHashes line = line := by
  obtain ⟨hne, htrim⟩ := Lines.mem_lines hmem
  obtain ⟨c, rest, rfl⟩ := List.exists_cons_of_ne_nil hne
  have hc : Text.isWhitespace c = false := by
    apply @Lines.not_blank_of_head?_trim _ _ (c :: rest)
    rw [htrim]
    rfl
  have hhash : c ≠ '#' := fun h => hhead (by rw [h]; rfl)
  unfold withoutHashes Text.trimStart
  rw [List.dropWhile_cons_of_neg (by simpa using hhash),
    List.dropWhile_cons_of_neg (by rw [hc]; decide)]

theorem withoutHashes_ne_self {line : Text} (hhead : line.head? = some '#') :
    withoutHashes line ≠ line := by
  obtain ⟨rest, rfl⟩ := List.head?_eq_some_iff.mp hhead
  intro h
  have hsuffix : withoutHashes ('#' :: rest) <:+ rest := by
    unfold withoutHashes Text.trimStart
    rw [List.dropWhile_cons_of_pos (by decide)]
    exact (List.dropWhile_suffix _).trans (List.dropWhile_suffix _)
  have hlength := hsuffix.length_le
  rw [h, List.length_cons] at hlength
  omega

theorem filter_not_isOther {lines : List Text} (h : ∀ line ∈ lines, isOther line) :
    (lines.filter fun line => !isOther line) = [] := by
  rw [List.filter_eq_nil_iff]
  intro line hline
  rw [h line hline]
  decide

/-- One line of text among other '@' lines: the summary, without '#' only if it stands first. -/
theorem summaryParts_of_one_text {doc line : Text} {before after : List Text}
    (h : linesOf doc = before ++ line :: after) (htext : isText line)
    (hothers : ∀ l ∈ before ++ after, isOther l) :
    summaryParts doc = [.summary (if before = [] then withoutHashes line else line)] := by
  have hnot : isOther line = false := by simp [isOther, htext]
  have hafter := filter_not_isOther fun l hl => hothers l (List.mem_append_right before hl)
  unfold summaryParts
  cases before with
  | nil =>
      rw [h]
      simp [hnot, hafter]
  | cons first before =>
      have hfirst : isOther first := hothers first (by simp)
      have hbefore := @filter_not_isOther before fun l hl => hothers l (by simp [hl])
      rw [h]
      simp [hfirst, hbefore, hnot, hafter]

theorem lineParts_of_one_text {line : Text} {before after : List Text} (htext : isText line)
    (hothers : ∀ l ∈ before ++ after, isOther l) :
    lineParts false (before ++ line :: after) = [.summary (withoutHashes line)] := by
  have hbefore : before.filterMap part = [] :=
    filterMap_part_eq_nil_iff.mpr fun l hl => hothers l (List.mem_append_left after hl)
  have hafter : after.filterMap part = [] :=
    filterMap_part_eq_nil_iff.mpr fun l hl => hothers l (List.mem_append_right before hl)
  have hnotext : ∀ l ∈ before, isText l = false :=
    fun l hl => (isOther_iff.mp (hothers l (List.mem_append_left after hl))).1
  rw [lineParts_false hnotext htext, hbefore, hafter, List.nil_append]

theorem part_ne_summary (line text : Text) : part line ≠ some (.summary text) := by
  intro h
  rcases line_cases line with ⟨p, hdirective, -⟩ | htext | hother
  · rw [part_of_directive hdirective] at h
    cases h
    exact absurd (directive_isDirective hdirective) Bool.false_ne_true
  · rw [part_of_isText htext] at h
    cases h
  · rw [part_eq_none_iff.mpr hother] at h
    cases h

theorem mem_summaryParts {doc : Text} {p : Part} (h : p ∈ summaryParts doc) :
    ∃ line, p = .summary line := by
  unfold summaryParts at h
  split at h
  · cases h
  · rcases List.mem_append.mp h with h | h
    · split at h
      · cases h
      · exact ⟨_, List.mem_singleton.mp h⟩
    · obtain ⟨line, -, rfl⟩ := List.mem_map.mp h
      exact ⟨line, rfl⟩

/-- Whatever the first attribute makes is a summary, and a line makes one only as the first. -/
theorem isOther_of_mem_summaryParts {doc : Text} {lines : List Text}
    (h : ∀ p ∈ lines.filterMap part, p ∈ summaryParts doc) : ∀ line ∈ lines, isOther line := by
  rw [← filterMap_part_eq_nil_iff, List.eq_nil_iff_forall_not_mem]
  intro p hp
  obtain ⟨text, rfl⟩ := mem_summaryParts (h p hp)
  obtain ⟨line, -, hline⟩ := List.mem_filterMap.mp hp
  exact part_ne_summary line text hline

theorem summaryParts_of_isOther {doc : Text} (h : ∀ line ∈ linesOf doc, isOther line) :
    summaryParts doc = [] := by
  unfold summaryParts
  cases hlines : linesOf doc with
  | nil => rfl
  | cons first others =>
      rw [hlines] at h
      have hfirst := h first List.mem_cons_self
      have hothers := filter_not_isOther fun l hl => h l (List.mem_cons_of_mem first hl)
      show (if isOther first then [] else _) ++ _ = _
      rw [if_pos hfirst, hothers]
      rfl

theorem summaryParts_eq_iff (doc : Text) :
    summaryParts doc = lineParts false (linesOf doc) ↔
      FirstClear doc ∨ ∀ line ∈ linesOf doc, isOther line := by
  constructor
  · intro h
    by_cases hnotext : ∀ line ∈ linesOf doc, isText line = false
    · rw [lineParts_of_no_text hnotext] at h
      right
      apply @isOther_of_mem_summaryParts doc
      intro p hp
      rw [h]
      exact hp
    · obtain ⟨before, line, after, hlines, htext, hbefore⟩ := exists_first_text hnotext
      rw [hlines, lineParts_false hbefore htext] at h
      have hothers : ∀ l ∈ before ++ after, isOther l := by
        apply @isOther_of_mem_summaryParts doc
        intro p hp
        rw [List.filterMap_append, List.mem_append] at hp
        rw [h, List.mem_append, List.mem_cons]
        exact hp.imp_right .inr
      rw [← lineParts_false hbefore htext, lineParts_of_one_text htext hothers,
        summaryParts_of_one_text hlines htext hothers] at h
      refine .inl ⟨before, line, after, hlines, htext, hothers, ?_⟩
      by_cases hnil : before = []
      · exact .inl hnil
      · right
        intro hhead
        rw [if_neg hnil] at h
        injection h with h
        injection h with h
        exact withoutHashes_ne_self hhead h.symm
  · rintro (⟨before, line, after, hlines, htext, hothers, hhead⟩ | hothers)
    · rw [summaryParts_of_one_text hlines htext hothers, hlines,
        lineParts_of_one_text htext hothers]
      split
      · rfl
      · rename_i hne
        rw [@withoutHashes_eq_self doc _ (by rw [hlines]; simp) (hhead.resolve_left hne)]
    · rw [lineParts_of_no_text fun l hl => (isOther_iff.mp (hothers l hl)).1,
        filterMap_part_eq_nil_iff.mpr hothers, summaryParts_of_isOther hothers]

/-! ## All attributes -/

theorem FirstClear.any_isText {doc : Text} (h : FirstClear doc) :
    (linesOf doc).any isText = true := by
  obtain ⟨before, line, after, hlines, htext, -, -⟩ := h
  rw [hlines, List.any_eq_true]
  exact ⟨line, by simp, htext⟩

theorem any_isText_of_isOther {lines : List Text} (h : ∀ line ∈ lines, isOther line) :
    lines.any isText = false :=
  any_isText_of_isText_false fun line hline => (isOther_iff.mp (h line hline)).1

theorem map_laterParts_iff (docs : List Text) :
    docs.map laterParts = docParts true docs ↔ ∀ doc ∈ docs, LaterClear doc := by
  induction docs with
  | nil => simp [docParts]
  | cons doc docs ih =>
      rw [List.map_cons, docParts, List.cons_eq_cons, Bool.true_or, lineParts_true,
        laterParts_eq_iff, ih, List.forall_mem_cons]

theorem map_laterParts_iff_of_unseen (docs : List Text) :
    docs.map laterParts = docParts false docs ↔
      (∀ doc ∈ docs, ∀ line ∈ linesOf doc, isText line = false) ∧
        ∀ doc ∈ docs, LaterClear doc := by
  induction docs with
  | nil => simp [docParts]
  | cons doc docs ih =>
      rw [List.map_cons, docParts, List.cons_eq_cons, Bool.false_or, List.forall_mem_cons,
        List.forall_mem_cons]
      by_cases hnotext : ∀ line ∈ linesOf doc, isText line = false
      · rw [any_isText_of_isText_false hnotext, lineParts_of_no_text hnotext, laterParts_eq_iff, ih]
        constructor
        · rintro ⟨hclear, hrest, hclears⟩
          exact ⟨⟨hnotext, hrest⟩, hclear, hclears⟩
        · rintro ⟨⟨-, hrest⟩, hclear, hclears⟩
          exact ⟨hclear, hrest, hclears⟩
      · -- the line would be for the summary, which no later attribute makes
        obtain ⟨before, line, after, hlines, htext, hbefore⟩ := exists_first_text hnotext
        constructor
        · rintro ⟨h, -⟩
          exfalso
          apply summary_not_mem_laterParts doc (withoutHashes line)
          rw [h, hlines, lineParts_false hbefore htext]
          simp
        · rintro ⟨⟨h, -⟩, -⟩
          exact absurd h hnotext

theorem attributeParts_eq_iff (docs : List Text) :
    attributeParts docs = docParts false docs ↔ Clear docs := by
  induction docs with
  | nil => simp [attributeParts, docParts, Clear]
  | cons doc docs ih =>
      unfold attributeParts docParts Clear
      by_cases hblank : Text.trim doc = []
      · rw [if_pos hblank, if_pos hblank, linesOf_eq_nil_iff.mpr hblank, List.cons_eq_cons]
        simp only [lineParts, true_and, List.any_nil, Bool.or_false, ih]
      · rw [if_neg hblank, if_neg hblank, List.cons_eq_cons, summaryParts_eq_iff, Bool.false_or]
        constructor
        · rintro ⟨hfirst, hrest⟩
          rcases hfirst with hfirst | hothers
          · have hany : (linesOf doc).any isText := hfirst.any_isText
            rw [hany, map_laterParts_iff] at hrest
            exact ⟨.inl hfirst, hrest⟩
          · rw [any_isText_of_isOther hothers, map_laterParts_iff_of_unseen] at hrest
            exact ⟨.inr ⟨hothers, hrest.1⟩, hrest.2⟩
        · rintro ⟨hfirst | ⟨hothers, hnotext⟩, hclears⟩
          · rw [hfirst.any_isText, map_laterParts_iff]
            exact ⟨.inl hfirst, hclears⟩
          · rw [any_isText_of_isOther hothers, map_laterParts_iff_of_unseen]
            exact ⟨.inr hothers, hnotext, hclears⟩

end Summer.Macros
