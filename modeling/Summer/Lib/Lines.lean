/-
The lines of a text.

A text is a list of characters, some of which are blank; one of the blank ones ends
a line.  `lines` are the trimmed lines that are not empty.  Trimming the text does
not change them (`lines_trim`), a text of two parts with a line's end between them
has the lines of both (`lines_append_sep`), and every character that is not blank
stands in exactly one of them (`sum_count_lines`).

`trim_eq_append` relates the trimmed text to its lines: it starts with the first of
them, and is that line if there is no other.
-/
import Mathlib.Data.List.DropRight

namespace Lines

variable {α : Type*} (blank : α → Bool)

/-! ## Trimming -/

def trim (text : List α) : List α := (text.dropWhile blank).rdropWhile blank

variable {blank}

@[simp] theorem trim_nil : trim blank [] = [] := rfl

theorem trim_eq_nil_iff {text : List α} : trim blank text = [] ↔ ∀ c ∈ text, blank c := by
  unfold trim
  rw [List.rdropWhile_eq_nil_iff]
  constructor
  · intro h c hc
    by_cases hdrop : text.dropWhile blank = []
    · exact List.dropWhile_eq_nil_iff.mp hdrop c hc
    · have hhead := List.head_dropWhile_not blank hdrop
      have hblank := h _ (List.head_mem hdrop)
      rw [hhead] at hblank
      exact absurd hblank Bool.false_ne_true
  · intro h c hc
    exact h c ((List.dropWhile_suffix blank).subset hc)

theorem trim_cons_blank {c : α} (hc : blank c) (text : List α) :
    trim blank (c :: text) = trim blank text := by
  unfold trim
  rw [List.dropWhile_cons_of_pos hc]

theorem trim_append_blank {text tail : List α} (htail : ∀ c ∈ tail, blank c) :
    trim blank (text ++ tail) = trim blank text := by
  induction tail using List.reverseRecOn with
  | nil => rw [List.append_nil]
  | append_singleton tail c ih =>
      have hc : blank c := htail c (by simp)
      have hrest : ∀ d ∈ tail, blank d := fun d hd => htail d (by simp [hd])
      rw [← ih hrest, ← List.append_assoc]
      unfold trim
      rw [List.dropWhile_append]
      split
      · rename_i hall
        have hnil : (text ++ tail).dropWhile blank = [] := by simpa using hall
        rw [hnil, List.dropWhile_cons_of_pos hc]
        rfl
      · exact List.rdropWhile_concat_pos _ _ _ hc

theorem trim_blank_append {lead text : List α} (hlead : ∀ c ∈ lead, blank c) :
    trim blank (lead ++ text) = trim blank text := by
  unfold trim
  rw [List.dropWhile_append_of_pos hlead]

/-- A text is its trimmed form between blanks. -/
theorem eq_append_trim (text : List α) :
    ∃ lead tail, (∀ c ∈ lead, blank c) ∧ (∀ c ∈ tail, blank c) ∧
      text = lead ++ trim blank text ++ tail := by
  refine ⟨text.takeWhile blank, (text.dropWhile blank).rtakeWhile blank, ?_, ?_, ?_⟩
  · intro c hc
    exact List.mem_takeWhile_imp hc
  · intro c hc
    exact List.mem_rtakeWhile_imp hc
  · unfold trim
    rw [List.append_assoc, List.rdropWhile_append_rtakeWhile, List.takeWhile_append_dropWhile]

theorem trim_trim (text : List α) : trim blank (trim blank text) = trim blank text := by
  obtain ⟨lead, tail, hlead, htail, htext⟩ := @eq_append_trim α blank text
  conv_rhs => rw [htext]
  rw [trim_append_blank htail, trim_blank_append hlead]

theorem not_blank_of_head?_trim {text : List α} {c : α} (h : (trim blank text).head? = some c) :
    blank c = false := by
  obtain ⟨rest, hrest⟩ := List.head?_eq_some_iff.mp h
  have hstarts := List.rdropWhile_prefix blank (text.dropWhile blank)
  change trim blank text <+: text.dropWhile blank at hstarts
  rw [hrest] at hstarts
  obtain ⟨tail, htail⟩ := hstarts
  have hne : text.dropWhile blank ≠ [] := by
    rw [← htail]
    simp
  have hhead := List.head_dropWhile_not blank hne
  simp only [← htail] at hhead
  exact hhead

theorem rdropWhile_append {a b : List α} (hb : ¬ ∀ c ∈ b, blank c) :
    (a ++ b).rdropWhile blank = a ++ b.rdropWhile blank := by
  have hne : b.reverse.dropWhile blank ≠ [] := by
    intro hnil
    apply hb
    intro c hc
    exact List.dropWhile_eq_nil_iff.mp hnil c (List.mem_reverse.mpr hc)
  unfold List.rdropWhile
  rw [List.reverse_append, List.dropWhile_append, if_neg (by simpa using hne),
    List.reverse_append, List.reverse_reverse]

/-- Blanks are taken off the ends only. -/
theorem trim_append {first rest : List α} (hne : first ≠ []) (hfirst : trim blank first = first)
    (hrest : ¬ ∀ c ∈ rest, blank c) :
    trim blank (first ++ rest) = first ++ rest.rdropWhile blank := by
  obtain ⟨c, first', rfl⟩ := List.exists_cons_of_ne_nil hne
  have hc : blank c = false := by
    have hhead : (trim blank (c :: first')).head? = some c := by
      rw [hfirst]
      rfl
    exact not_blank_of_head?_trim hhead
  unfold trim
  rw [List.cons_append, List.dropWhile_cons_of_neg (by simp [hc]), ← List.cons_append,
    rdropWhile_append hrest]

/-- After the first line, what is blank to the end is taken off. -/
theorem trim_append_gap_of_blank {sep : α} (hsep : blank sep) {first gap rest : List α}
    (htight : trim blank first = first) (hgap : ∀ c ∈ gap, blank c)
    (hrest : ∀ c ∈ rest, blank c) : trim blank (first ++ (gap ++ sep :: rest)) = first := by
  rw [trim_append_blank, htight]
  intro c hc
  rcases List.mem_append.mp hc with hc | hc
  · exact hgap c hc
  · rcases List.mem_cons.mp hc with rfl | hc
    · exact hsep
    · exact hrest c hc

/-- Otherwise the rest keeps what it has before its last line. -/
theorem trim_append_gap {sep : α} {first gap rest : List α} (hne : first ≠ [])
    (htight : trim blank first = first) (hrest : ¬ ∀ c ∈ rest, blank c) :
    trim blank (first ++ (gap ++ sep :: rest)) =
      first ++ (gap ++ sep :: rest.rdropWhile blank) := by
  have hsome : ¬ ∀ c ∈ gap ++ sep :: rest, blank c := by
    intro hall
    exact hrest fun c hc => hall c (by simp [hc])
  have hlast : (gap ++ sep :: rest).rdropWhile blank = gap ++ sep :: rest.rdropWhile blank := by
    have happend := @rdropWhile_append α blank (gap ++ [sep]) rest hrest
    simpa using happend
  rw [trim_append hne htight hsome, hlast]

/-! ## Lines -/

variable [DecidableEq α]

@[elab_as_elim]
theorem sep_induction (sep : α) {motive : List α → Prop} (last : ∀ text, sep ∉ text → motive text)
    (more : ∀ line rest, sep ∉ line → motive rest → motive (line ++ sep :: rest))
    (text : List α) : motive text := by
  induction hn : text.length using Nat.strong_induction_on generalizing text with
  | _ n ih =>
      by_cases hmem : sep ∈ text
      · obtain ⟨line, rest, rfl, hline⟩ := List.eq_append_cons_of_mem hmem
        apply more line rest hline
        apply ih rest.length _ rest rfl
        rw [← hn, List.length_append, List.length_cons]
        omega
      · exact last text hmem

variable (blank) in
def lines (sep : α) (text : List α) : List (List α) :=
  ((text.splitOn sep).map (trim blank)).filter fun line => !line.isEmpty

variable {sep : α}

theorem lines_append_sep (a b : List α) :
    lines blank sep (a ++ sep :: b) = lines blank sep a ++ lines blank sep b := by
  unfold lines
  rw [List.splitOn_append_cons_self, List.map_append, List.filter_append]

theorem lines_of_not_mem {text : List α} (h : sep ∉ text) :
    lines blank sep text = if trim blank text = [] then [] else [trim blank text] := by
  unfold lines
  rw [List.splitOn_eq_singleton h]
  cases htrim : trim blank text with
  | nil => simp [htrim]
  | cons c rest => simp [htrim]

theorem lines_cons_blank (hsep : blank sep) {c : α} (hc : blank c) (text : List α) :
    lines blank sep (c :: text) = lines blank sep text := by
  by_cases heq : c = sep
  · subst heq
    have happend := @lines_append_sep α blank _ c [] text
    rw [List.nil_append] at happend
    rw [happend, lines_of_not_mem (List.not_mem_nil)]
    rfl
  · have hline : ∀ {line : List α}, sep ∉ line →
        lines blank sep (c :: line) = lines blank sep line := fun {line} h => by
      have hcons : sep ∉ c :: line := by
        rw [List.mem_cons, not_or]
        exact ⟨fun h' => heq h'.symm, h⟩
      rw [lines_of_not_mem h, lines_of_not_mem hcons, trim_cons_blank hc]
    by_cases hmem : sep ∈ text
    · obtain ⟨line, rest, rfl, h⟩ := List.eq_append_cons_of_mem hmem
      rw [← List.cons_append, lines_append_sep, lines_append_sep, hline h]
    · exact hline hmem

theorem lines_blank_append (hsep : blank sep) {lead : List α} (hlead : ∀ c ∈ lead, blank c)
    (text : List α) : lines blank sep (lead ++ text) = lines blank sep text := by
  induction lead with
  | nil => rfl
  | cons c lead ih =>
      rw [List.cons_append, lines_cons_blank hsep (hlead c List.mem_cons_self),
        ih fun d hd => hlead d (List.mem_cons_of_mem c hd)]

theorem lines_append_blank (hsep : blank sep) {tail : List α} (htail : ∀ c ∈ tail, blank c)
    (text : List α) : lines blank sep (text ++ tail) = lines blank sep text := by
  induction text using sep_induction sep with
  | last text h =>
      by_cases hmem : sep ∈ tail
      · obtain ⟨a, b, rfl, ha⟩ := List.eq_append_cons_of_mem hmem
        have hb : lines blank sep b = [] := by
          have hblank := @lines_blank_append α blank _ sep hsep b
            (fun c hc => htail c (by simp [hc])) []
          rw [List.append_nil] at hblank
          rw [hblank]
          rfl
        have htext : sep ∉ text ++ a := by simp [h, ha]
        rw [← List.append_assoc, lines_append_sep, hb, List.append_nil, lines_of_not_mem htext,
          lines_of_not_mem h, trim_append_blank fun c hc => htail c (by simp [hc])]
      · have htext : sep ∉ text ++ tail := by simp [h, hmem]
        rw [lines_of_not_mem htext, lines_of_not_mem h, trim_append_blank htail]
  | more line rest _ ih =>
      rw [List.append_assoc, List.cons_append, lines_append_sep, lines_append_sep, ih]

theorem lines_trim (hsep : blank sep) (text : List α) :
    lines blank sep (trim blank text) = lines blank sep text := by
  obtain ⟨lead, tail, hlead, htail, htext⟩ := @eq_append_trim α blank text
  conv_rhs => rw [htext]
  rw [lines_append_blank hsep htail, lines_blank_append hsep hlead]

theorem lines_eq_nil_iff (hsep : blank sep) {text : List α} :
    lines blank sep text = [] ↔ ∀ c ∈ text, blank c := by
  constructor
  · induction text using sep_induction sep with
    | last text h =>
        rw [lines_of_not_mem h, ← trim_eq_nil_iff]
        intro hnil
        by_contra hne
        rw [if_neg hne] at hnil
        cases hnil
    | more line rest h ih =>
        rw [lines_append_sep, List.append_eq_nil_iff]
        rintro ⟨hline, hrest⟩ c hc
        rw [lines_of_not_mem h] at hline
        have hblank : ∀ d ∈ line, blank d := by
          rw [← trim_eq_nil_iff]
          by_contra hne
          rw [if_neg hne] at hline
          cases hline
        rcases List.mem_append.mp hc with hc | hc
        · exact hblank c hc
        · rcases List.mem_cons.mp hc with rfl | hc
          · exact hsep
          · exact ih hrest c hc
  · intro h
    rw [← lines_trim hsep, trim_eq_nil_iff.mpr h]
    rfl

theorem mem_lines {text line : List α} (h : line ∈ lines blank sep text) :
    line ≠ [] ∧ trim blank line = line := by
  unfold lines at h
  rw [List.mem_filter, List.mem_map] at h
  obtain ⟨⟨piece, -, rfl⟩, hne⟩ := h
  exact ⟨by simpa using hne, trim_trim piece⟩

theorem lines_of_mem {text line : List α} (h : line ∈ lines blank sep text) :
    lines blank sep line = [line] := by
  have hmem : sep ∉ line := by
    unfold lines at h
    rw [List.mem_filter, List.mem_map] at h
    obtain ⟨⟨piece, hpiece, rfl⟩, -⟩ := h
    obtain ⟨lead, tail, -, -, htext⟩ := @eq_append_trim α blank piece
    have hsep : sep ∉ piece := by
      induction text using sep_induction sep with
      | last text h' =>
          rw [List.splitOn_eq_singleton h', List.mem_singleton] at hpiece
          rwa [hpiece]
      | more first rest h' ih =>
          rw [List.splitOn_append_cons_self, List.splitOn_eq_singleton h', List.mem_append,
            List.mem_singleton] at hpiece
          rcases hpiece with hpiece | hpiece
          · rwa [hpiece]
          · exact ih hpiece
    intro hin
    apply hsep
    rw [htext]
    simp [hin]
  obtain ⟨hne, htrim⟩ := mem_lines h
  rw [lines_of_not_mem hmem, htrim, if_neg hne]

theorem lines_dropWhile (hsep : blank sep) (text : List α) :
    lines blank sep (text.dropWhile blank) = lines blank sep text := by
  conv_rhs => rw [← @List.takeWhile_append_dropWhile _ blank text]
  rw [lines_blank_append hsep fun c hc => List.mem_takeWhile_imp hc]

/-! ## The first line -/

variable (blank sep) in
/-- What stands behind the first line of a trimmed text that has these other lines. -/
def Follows (others : List (List α)) (rest : List α) : Prop :=
  others = [] ∧ rest = [] ∨
    others ≠ [] ∧ ∃ gap tail, (∀ c ∈ gap, blank c) ∧ rest = gap ++ sep :: tail ∧
      lines blank sep tail = others

theorem Follows.lines_append {others : List (List α)} {rest : List α} (hsep : blank sep)
    (h : Follows blank sep others rest) (text : List α) :
    lines blank sep (text ++ rest) = lines blank sep text ++ others := by
  rcases h with ⟨rfl, rfl⟩ | ⟨-, gap, tail, hgap, rfl, htail⟩
  · rw [List.append_nil, List.append_nil]
  · rw [← List.append_assoc, lines_append_sep, lines_append_blank hsep hgap, htail]

theorem Follows.blank_head {others : List (List α)} {rest : List α} (hsep : blank sep)
    (h : Follows blank sep others rest) {c : α} (hc : rest.head? = some c) : blank c := by
  rcases h with ⟨-, rfl⟩ | ⟨-, gap, tail, hgap, rfl, -⟩
  · cases hc
  · cases gap with
    | nil =>
        cases hc
        exact hsep
    | cons d gap =>
        cases hc
        exact hgap c List.mem_cons_self

theorem trim_eq_append (hsep : blank sep) {text first : List α} {others : List (List α)}
    (h : lines blank sep text = first :: others) :
    ∃ rest, trim blank text = first ++ rest ∧ Follows blank sep others rest := by
  induction text using sep_induction sep with
  | last text hmem =>
      rw [lines_of_not_mem hmem] at h
      split at h
      · cases h
      · cases h
        exact ⟨[], (List.append_nil _).symm, .inl ⟨rfl, rfl⟩⟩
  | more line rest hmem ih =>
      rw [lines_append_sep, lines_of_not_mem hmem] at h
      split at h
      · -- an empty line before the first one
        rename_i hempty
        obtain ⟨tail, htrim, htail⟩ := ih h
        refine ⟨tail, ?_, htail⟩
        rw [trim_blank_append (trim_eq_nil_iff.mp hempty), trim_cons_blank hsep, htrim]
      · rename_i hne
        obtain ⟨lead, gap, hlead, hgap, hline⟩ := @eq_append_trim α blank line
        have htight := @trim_trim α blank line
        obtain ⟨hfirst, hothers⟩ := List.cons.inj h
        rw [hfirst] at hline htight hne
        change lines blank sep rest = others at hothers
        rw [hline, List.append_assoc, List.append_assoc, trim_blank_append hlead]
        by_cases hblank : ∀ c ∈ rest, blank c
        · refine ⟨[], ?_, .inl ⟨?_, rfl⟩⟩
          · rw [List.append_nil, trim_append_gap_of_blank hsep htight hgap hblank]
          · rw [← hothers]
            exact (lines_eq_nil_iff hsep).mpr hblank
        · refine ⟨gap ++ sep :: rest.rdropWhile blank, trim_append_gap hne htight hblank,
            .inr ⟨?_, gap, _, hgap, rfl, ?_⟩⟩
          · rw [← hothers]
            exact fun hnil => hblank ((lines_eq_nil_iff hsep).mp hnil)
          · rw [← hothers, ← @lines_append_blank α blank _ sep hsep (rest.rtakeWhile blank)
              (fun c hc => List.mem_rtakeWhile_imp hc) (rest.rdropWhile blank),
              List.rdropWhile_append_rtakeWhile]

/-- A word without blanks starts the text exactly if it starts the first line. -/
theorem Follows.isPrefix_iff {others : List (List α)} {rest : List α} (hsep : blank sep)
    (h : Follows blank sep others rest) {word first : List α}
    (hword : ∀ c ∈ word, blank c = false) : word <+: first ++ rest ↔ word <+: first := by
  constructor
  · induction word generalizing first with
    | nil =>
        intro _
        exact List.nil_prefix
    | cons c word ih =>
        intro hstarts
        cases first with
        | nil =>
            obtain ⟨tail, htail⟩ := hstarts
            have hblank : blank c :=
              h.blank_head hsep (by rw [← List.nil_append rest, ← htail]; rfl)
            rw [hword c List.mem_cons_self] at hblank
            cases hblank
        | cons d first =>
            rw [List.cons_append, List.cons_prefix_cons] at hstarts
            rw [List.cons_prefix_cons]
            exact ⟨hstarts.1, ih (fun e he => hword e (List.mem_cons_of_mem c he)) hstarts.2⟩
  · intro hstarts
    exact hstarts.trans (List.prefix_append first rest)

theorem trim_eq_of_lines (hsep : blank sep) {text line : List α}
    (h : lines blank sep text = [line]) : trim blank text = line := by
  obtain ⟨rest, htrim, hrest⟩ := trim_eq_append hsep h
  rcases hrest with ⟨-, rfl⟩ | ⟨hne, -⟩
  · rw [htrim, List.append_nil]
  · exact absurd rfl hne

/-! ## No character is lost -/

theorem count_trim {c : α} (hc : blank c = false) (text : List α) :
    (trim blank text).count c = text.count c := by
  obtain ⟨lead, tail, hlead, htail, htext⟩ := @eq_append_trim α blank text
  have hnot : ∀ l : List α, (∀ d ∈ l, blank d) → l.count c = 0 := by
    intro l hl
    apply List.count_eq_zero_of_not_mem
    intro hmem
    rw [hl c hmem] at hc
    cases hc
  conv_rhs => rw [htext]
  rw [List.count_append, List.count_append, hnot lead hlead, hnot tail htail]
  omega

theorem count_flatten_filter_nonempty (c : α) (pieces : List (List α)) :
    (pieces.filter fun piece => !piece.isEmpty).flatten.count c = pieces.flatten.count c := by
  induction pieces with
  | nil => rfl
  | cons piece pieces ih =>
      cases piece with
      | nil => simpa using ih
      | cons d piece =>
          rw [List.filter_cons_of_pos (by rfl), List.flatten_cons, List.flatten_cons,
            List.count_append, List.count_append, ih]

theorem count_splitOn {c : α} (hc : c ≠ sep) (text : List α) :
    (text.splitOn sep).flatten.count c = text.count c := by
  induction text using sep_induction sep with
  | last text h =>
      rw [List.splitOn_eq_singleton h, List.flatten_singleton]
  | more line rest h ih =>
      rw [List.splitOn_append_cons_self, List.splitOn_eq_singleton h, List.flatten_append,
        List.flatten_singleton, List.count_append, ih, List.count_append,
        List.count_cons_of_ne fun h' => hc h'.symm]

/-- Splitting, trimming and leaving out what is empty loses no other character. -/
theorem count_lines {c : α} (hblank : blank c = false) (hc : c ≠ sep) (text : List α) :
    (lines blank sep text).flatten.count c = text.count c := by
  unfold lines
  rw [count_flatten_filter_nonempty, ← count_splitOn hc text]
  induction text.splitOn sep with
  | nil => rfl
  | cons piece pieces ih =>
      rw [List.map_cons, List.flatten_cons, List.flatten_cons, List.count_append,
        List.count_append, count_trim hblank, ih]

end Lines
