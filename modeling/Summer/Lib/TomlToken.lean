/-
A text that is put between two quotes of a TOML document.

If the token that begins at the first quote has the text as its value, every character of
the text stands for itself (`plain_of_token`).  A token that ends in a later quote has too
many quotes: every quote of a body is a quote of its value, and where the rest of the line
could make up for that, only the quotes before one kind of text are counted.
-/
import Summer.Lib.TomlString

namespace TomlString

/-! ## Counting quotes -/

/-- The number of the quotes after which the text looks so. -/
def countQuotes (look : List Char → Bool) : List Char → ℕ
  | [] => 0
  | c :: rest => (if c = '"' ∧ look rest = true then 1 else 0) + countQuotes look rest

section
variable {look : List Char → Bool}

theorem countQuotes_cons_of_ne {c : Char} (hc : c ≠ '"') (rest : List Char) :
    countQuotes look (c :: rest) = countQuotes look rest := by
  rw [countQuotes, if_neg (fun hquote => hc hquote.1)]
  omega

theorem countQuotes_append_of_not_mem {text : List Char} (h : '"' ∉ text) (rest : List Char) :
    countQuotes look (text ++ rest) = countQuotes look rest := by
  induction text with
  | nil => rfl
  | cons c text ih =>
      obtain ⟨hc, htext⟩ := List.ne_and_not_mem_of_not_mem_cons h
      rw [List.cons_append, countQuotes_cons_of_ne (Ne.symm hc), ih htext]

theorem countQuotes_true (text : List Char) :
    countQuotes (fun _ => true) text = text.count '"' := by
  induction text with
  | nil => rfl
  | cons c text ih =>
      rw [countQuotes, ih, List.count_cons]
      by_cases hc : c = '"' <;> simp [hc, Nat.add_comm]

theorem le_countQuotes_append
    (hmono : ∀ text rest, look text = true → look (text ++ rest) = true)
    (text rest : List Char) :
    countQuotes look text + countQuotes look rest ≤ countQuotes look (text ++ rest) := by
  induction text with
  | nil => simp [countQuotes]
  | cons c text ih =>
      rw [List.cons_append, countQuotes, countQuotes]
      by_cases hlook : c = '"' ∧ look text = true
      · rw [if_pos hlook, if_pos ⟨hlook.1, hmono _ _ hlook.2⟩]
        omega
      · rw [if_neg hlook]
        omega

end

theorem Newline.quote_not_mem {nl : List Char} (h : Newline nl) : '"' ∉ nl := by
  cases h <;> decide

theorem quote_not_mem_spaces {spaces : List Char} (h : spaces.all isSpace = true) :
    '"' ∉ spaces := by
  intro hmem
  exact absurd (List.all_eq_true.mp h _ hmem) (by decide)

theorem Blank.quote_not_mem {gap : List Char} (h : Blank gap) : '"' ∉ gap := by
  induction h with
  | nil => exact List.not_mem_nil
  | space hc _ ih =>
      intro hmem
      rcases List.mem_cons.mp hmem with rfl | hmem
      · exact absurd hc (by decide)
      · exact ih hmem
  | newline hnl _ ih =>
      intro hmem
      rcases List.mem_append.mp hmem with hmem | hmem
      · exact hnl.quote_not_mem hmem
      · exact ih hmem

section
variable {look : List Char → Bool}
  (hread : ∀ {quotes text value}, MultilineBody quotes text value → look text = true →
    look value = true)
include hread

theorem countQuotes_quote_le {quotes : ℕ} {text value : List Char}
    (hbody : MultilineBody quotes text value)
    (hle : countQuotes look text ≤ countQuotes look value) :
    countQuotes look ('"' :: text) ≤ countQuotes look ('"' :: value) := by
  rw [countQuotes, countQuotes]
  by_cases hlook : look text = true
  · rw [if_pos ⟨rfl, hlook⟩, if_pos ⟨rfl, hread hbody hlook⟩]
    omega
  · rw [if_neg (fun h => hlook h.2)]
    omega

/-- Every quote of a multi-line body is a quote of its value, and if reading keeps how the
rest looks, it is followed by the same kind of text there. -/
theorem MultilineBody.countQuotes_le {quotes : ℕ} {text value : List Char}
    (h : MultilineBody quotes text value) :
    countQuotes look text ≤ countQuotes look value := by
  have hslash : '\\' ≠ '"' := by decide
  induction h with
  | nil => exact Nat.le_refl _
  | char hc _ ih =>
      have hne := (ne_of_isUnescaped hc).1
      rw [countQuotes_cons_of_ne hne, countQuotes_cons_of_ne hne]
      exact ih
  | @escape seq d _ text value hseq hbody ih =>
      rw [countQuotes_cons_of_ne hslash]
      by_cases hmem : '"' ∈ seq
      · obtain ⟨rfl, rfl⟩ := hseq.quote hmem
        exact countQuotes_quote_le hread hbody ih
      · rw [countQuotes_append_of_not_mem hmem]
        exact Nat.le_trans ih (Nat.le_add_left _ _)
  | quote _ hbody ih => exact countQuotes_quote_le hread hbody ih
  | @newline nl nl' _ text value hnl hnl' _ ih =>
      have hnot : '"' ∉ nl' := by
        rcases hnl' with rfl | rfl
        · exact hnl.quote_not_mem
        · decide
      rw [countQuotes_append_of_not_mem hnl.quote_not_mem, countQuotes_append_of_not_mem hnot]
      exact ih
  | @continuation spaces nl gap _ text value hspaces hnl hgap _ _ ih =>
      have hnot : '"' ∉ spaces ++ nl ++ gap := by
        simp [quote_not_mem_spaces hspaces, hnl.quote_not_mem, hgap.quote_not_mem]
      rw [countQuotes_cons_of_ne hslash, countQuotes_append_of_not_mem hnot]
      exact ih

end

theorem MultilineBody.count_le {quotes : ℕ} {text value : List Char}
    (h : MultilineBody quotes text value) : text.count '"' ≤ value.count '"' := by
  have hle := @MultilineBody.countQuotes_le (fun _ => true) (fun _ _ => rfl) _ _ _ h
  rwa [countQuotes_true, countQuotes_true] at hle

/-! ## The token of a value -/

def isLineEnd (c : Char) : Bool := c = '\n' || c = '\r'

/-- The head is `c`, or both end a line. -/
def headLike (c : Char) : List Char → Bool
  | [] => false
  | d :: _ => d = c || (isLineEnd d && isLineEnd c)

def nextLineLike (c : Char) : List Char → Bool
  | '\n' :: rest => headLike c rest
  | '\r' :: '\n' :: rest => headLike c rest
  | _ => false

theorem headLike_append {c : Char} {text : List Char} (rest : List Char)
    (h : headLike c text = true) : headLike c (text ++ rest) = true := by
  cases text with
  | nil => cases h
  | cons d text => exact h

theorem nextLineLike_append {c : Char} {text : List Char} (rest : List Char)
    (h : nextLineLike c text = true) : nextLineLike c (text ++ rest) = true := by
  unfold nextLineLike at h
  split at h
  · exact headLike_append rest h
  · exact headLike_append rest h
  · cases h

theorem headLike_of_ne {c d : Char} {text : List Char} (hne : d ≠ c) (hline : isLineEnd d = false) :
    headLike c (d :: text) = false := by
  simp [headLike, hne, hline]

theorem Newline.isLineEnd_head {nl : List Char} (h : Newline nl) :
    ∃ d rest, nl = d :: rest ∧ isLineEnd d = true := by
  cases h with
  | lf => exact ⟨'\n', [], rfl, rfl⟩
  | crlf => exact ⟨'\r', ['\n'], rfl, rfl⟩

theorem nextLineLike_newline {nl : List Char} (h : Newline nl) (c : Char) (text : List Char) :
    nextLineLike c (nl ++ text) = headLike c text := by
  cases h <;> rfl

/-- Reading keeps the head, unless it is a quote or a backslash. -/
theorem MultilineBody.headLike {c : Char} (hquote : c ≠ '"') (hslash : c ≠ '\\') {quotes : ℕ}
    {text value : List Char} (h : MultilineBody quotes text value)
    (hlook : headLike c text = true) : headLike c value = true := by
  have hfalse : ∀ {d rest}, d ≠ c → isLineEnd d = false →
      TomlString.headLike c (d :: rest) = true → TomlString.headLike c value = true := by
    intro d rest hne hline hlook
    rw [headLike_of_ne hne hline] at hlook
    cases hlook
  cases h with
  | nil => exact hlook
  | char _ _ => exact hlook
  | escape _ _ => exact hfalse (Ne.symm hslash) (by decide) hlook
  | quote _ _ => exact hfalse (Ne.symm hquote) (by decide) hlook
  | newline hnl hnl' _ =>
      obtain ⟨d, rest, rfl, hd⟩ := hnl.isLineEnd_head
      have hc : isLineEnd c = true := by
        simp only [TomlString.headLike, List.cons_append, hd, Bool.true_and, Bool.or_eq_true,
          decide_eq_true_eq] at hlook
        rcases hlook with rfl | hc
        · exact hd
        · exact hc
      rcases hnl' with rfl | rfl
      · exact hlook
      · simp [TomlString.headLike, hc, show isLineEnd '\n' = true from rfl]
  | continuation _ _ _ _ _ => exact hfalse (Ne.symm hslash) (by decide) hlook

theorem MultilineBody.nextLineLike {c : Char} (hquote : c ≠ '"') (hslash : c ≠ '\\') {quotes : ℕ}
    {text value : List Char} (h : MultilineBody quotes text value)
    (hlook : nextLineLike c text = true) : nextLineLike c value = true := by
  cases h with
  | nil => exact hlook
  | char hc _ =>
      obtain ⟨-, -, hlf, hcr⟩ := ne_of_isUnescaped hc
      unfold TomlString.nextLineLike at hlook
      split at hlook
      · rename_i heq
        exact absurd (List.cons.inj heq).1 hlf
      · rename_i heq
        exact absurd (List.cons.inj heq).1 hcr
      · cases hlook
  | escape _ _ => cases hlook
  | quote _ _ => cases hlook
  | newline hnl hnl' hbody =>
      rw [nextLineLike_newline hnl] at hlook
      have hvalue := hbody.headLike hquote hslash hlook
      rcases hnl' with rfl | rfl
      · rwa [nextLineLike_newline hnl]
      · rwa [nextLineLike_newline .lf]
  | continuation _ _ _ _ _ => cases hlook

theorem MultilineBody.head_of_quote {quotes : ℕ} {text value : List Char}
    (h : MultilineBody quotes text ('"' :: value)) :
    ∃ d rest, text = d :: rest ∧ (d = '"' ∨ d = '\\') := by
  generalize hvalue : '"' :: value = value' at h
  cases h with
  | nil => cases hvalue
  | char hc _ => exact absurd (List.cons.inj hvalue).1.symm (ne_of_isUnescaped hc).1
  | escape _ _ => exact ⟨_, _, rfl, .inr rfl⟩
  | quote _ _ => exact ⟨_, _, rfl, .inl rfl⟩
  | newline hnl hnl' _ =>
      have hmem : ∃ d rest, isLineEnd d = true ∧ '"' :: value = d :: rest := by
        rcases hnl' with rfl | rfl
        · obtain ⟨d, rest, rfl, hd⟩ := hnl.isLineEnd_head
          exact ⟨d, _, hd, hvalue⟩
        · exact ⟨'\n', _, rfl, hvalue⟩
      obtain ⟨d, rest, hd, heq⟩ := hmem
      rw [← (List.cons.inj heq).1] at hd
      cases hd
  | continuation _ _ _ _ _ => exact ⟨_, _, rfl, .inr rfl⟩

theorem AfterValue.head_ne {rest : List Char} (h : AfterValue rest) :
    rest.head? ≠ some '"' ∧ rest.head? ≠ some '\\' := by
  cases h with
  | done => exact ⟨by simp, by simp⟩
  | mark hc =>
      simp only [List.head?_cons, ne_eq, Option.some.injEq]
      constructor <;> rintro rfl <;> exact absurd hc (by decide)
  | line hnl _ => cases hnl <;> exact ⟨by simp, by simp⟩

theorem Body.nil_of_quote {body value rest after : List Char} (h : Body body value)
    (heq : body ++ rest = '"' :: after) : body = [] := by
  cases h with
  | nil => rfl
  | char hc _ =>
      rw [List.cons_append] at heq
      exact absurd (List.cons.inj heq).1 (ne_of_isUnescaped hc).1
  | escape _ _ =>
      rw [List.cons_append] at heq
      exact absurd (List.cons.inj heq).1 (by decide)

/-- A basic string that has three quotes in a row after its first quote ends in them. -/
theorem Body.quote_after {body value text rest after : List Char} (h : Body body value)
    (hnot : '"' ∉ text) (heq : body ++ '"' :: rest = text ++ '"' :: '"' :: '"' :: after) :
    rest.head? = some '"' := by
  induction h generalizing text with
  | nil =>
      cases text with
      | nil =>
          rw [← (List.cons.inj heq).2.symm]
          rfl
      | cons d text =>
          rw [List.nil_append, List.cons_append] at heq
          exact absurd ((List.cons.inj heq).1 ▸ List.mem_cons_self) hnot
  | @char c body value hc _ ih =>
      cases text with
      | nil => exact absurd (List.cons.inj heq).1 (ne_of_isUnescaped hc).1
      | cons d text => exact ih (List.not_mem_of_not_mem_cons hnot) (List.cons.inj heq).2
  | @escape seq d body value hseq hbody ih =>
      cases text with
      | nil => exact absurd (List.cons.inj heq).1 (by decide)
      | cons e text =>
          have htext := List.not_mem_of_not_mem_cons hnot
          have htail : seq ++ (body ++ '"' :: rest) = text ++ '"' :: '"' :: '"' :: after := by
            rw [← List.append_assoc]
            exact (List.cons.inj heq).2
          rcases List.append_eq_append_iff.mp htail with ⟨more, rfl, hmore⟩ | ⟨more, rfl, hmore⟩
          · exact ih (fun h => htext (List.mem_append_right _ h)) hmore
          · cases more with
            | nil => exact @ih [] List.not_mem_nil hmore.symm
            | cons e more =>
                obtain ⟨he, htwo⟩ := List.cons.inj hmore
                subst he
                -- the first of the three is escaped, so the second closes the string
                obtain ⟨hone, -⟩ := hseq.quote (by simp)
                obtain ⟨rfl, hnil⟩ : text = [] ∧ more = [] := by
                  have := congrArg List.length hone
                  simp only [List.length_append, List.length_cons, List.length_nil] at this
                  exact ⟨List.length_eq_zero_iff.mp (by omega),
                    List.length_eq_zero_iff.mp (by omega)⟩
                subst hnil
                have hbody' := hbody.nil_of_quote htwo.symm
                subst hbody'
                rw [← (List.cons.inj htwo).2]
                rfl

section
variable {v rest lead body : List Char} {quotes : ℕ}

/-- A quote that is put after `v` is one too many for the quotes after which the text looks
like `rest`. -/
theorem not_longer {look : List Char → Bool}
    (hmono : ∀ text rest, look text = true → look (text ++ rest) = true)
    (hread : ∀ {quotes text value}, MultilineBody quotes text value → look text = true →
      look value = true)
    (hlead : lead = [] ∨ Newline lead) (hbody : MultilineBody quotes body v)
    (heq : v ++ '"' :: rest = '"' :: '"' :: (lead ++ body)) (hrest : look rest = true)
    (hfirst : look ('"' :: (lead ++ body)) = false) (hsecond : look (lead ++ body) = false) :
    False := by
  have hv := le_countQuotes_append hmono v ('"' :: rest)
  have hle := MultilineBody.countQuotes_le hread hbody
  have hskip : countQuotes look (lead ++ body) = countQuotes look body := by
    rcases hlead with rfl | hlead
    · rfl
    · exact countQuotes_append_of_not_mem hlead.quote_not_mem body
  rw [heq] at hv
  simp only [countQuotes, hrest, hfirst, hsecond, hskip, and_self, if_true, Bool.false_eq_true,
    and_false, if_false] at hv
  omega

/-- A value that starts with a quote comes from a body that starts with a quote or an escape. -/
theorem headLike_body (hbody : MultilineBody quotes body v)
    (heq : v ++ '"' :: rest = '"' :: '"' :: (lead ++ body)) (hrest : rest.head? ≠ some '"')
    {c : Char} (hquote : c ≠ '"') (hslash : c ≠ '\\') : headLike c body = false := by
  cases v with
  | nil =>
      have hquote := (List.cons.inj heq).2
      rw [hquote] at hrest
      exact absurd rfl hrest
  | cons d v =>
      obtain rfl := (List.cons.inj heq).1
      obtain ⟨d, more, rfl, hd⟩ := hbody.head_of_quote
      rcases hd with rfl | rfl
      · exact headLike_of_ne (Ne.symm hquote) rfl
      · exact headLike_of_ne (Ne.symm hslash) rfl

theorem not_multiline_of_ne (hlead : lead = [] ∨ Newline lead)
    (hbody : MultilineBody quotes body v) {c : Char}
    (heq : v ++ '"' :: c :: rest = '"' :: '"' :: (lead ++ body)) (hquote : c ≠ '"')
    (hslash : c ≠ '\\') (hline : lead = [] ∨ isLineEnd c = false) : False := by
  have hbegin := headLike_body hbody heq (by simpa using hquote) hquote hslash
  refine @not_longer v (c :: rest) lead body quotes (headLike c)
    (fun _ rest h => headLike_append rest h) (fun h => h.headLike hquote hslash) hlead hbody heq
    (by simp [headLike]) (headLike_of_ne (Ne.symm hquote) rfl) ?_
  rcases hlead with rfl | hnl
  · exact hbegin
  · obtain ⟨e, nl, rfl, he⟩ := hnl.isLineEnd_head
    rcases hline with hnil | hline
    · cases hnil
    · have hne : e ≠ c := by
        rintro rfl
        rw [he] at hline
        cases hline
      simp [headLike, hne, hline]

theorem not_multiline_of_newline {nl : List Char} (hlead : Newline lead)
    (hbody : MultilineBody quotes body v) (hnl : Newline nl) {c : Char}
    (heq : v ++ '"' :: (nl ++ c :: rest) = '"' :: '"' :: (lead ++ body)) (hquote : c ≠ '"')
    (hslash : c ≠ '\\') : False := by
  have hrest : (nl ++ c :: rest).head? ≠ some '"' := by
    cases hnl <;> simp
  have hbegin := headLike_body hbody heq hrest hquote hslash
  refine @not_longer v (nl ++ c :: rest) lead body quotes (nextLineLike c)
    (fun _ rest h => nextLineLike_append rest h) (fun h => h.nextLineLike hquote hslash)
    (.inr hlead) hbody heq ?_ rfl ?_
  · rw [nextLineLike_newline hnl]
    simp [headLike]
  · rw [nextLineLike_newline hlead]
    exact hbegin

end

/-- The next line begins between the quotes. -/
theorem not_multiline_of_line {v inner lead body after nl rest : List Char} {quotes : ℕ}
    (hlead : Newline lead) (hbody : MultilineBody quotes body v)
    (hinner : v ++ '"' :: inner = '"' :: '"' :: (lead ++ body)) (hlength : 2 ≤ inner.length)
    (hnl : Newline nl) (hstart : LineStart rest)
    (heq : inner ++ '"' :: '"' :: '"' :: after = nl ++ rest) : False := by
  have htwo : nl.length ≤ 2 := by
    cases hnl <;> decide
  obtain ⟨more, rfl, rfl⟩ : ∃ more, inner = nl ++ more ∧
      rest = more ++ '"' :: '"' :: '"' :: after := by
    rcases List.append_eq_append_iff.mp heq with ⟨extra, hextra, hrest⟩ | ⟨more, hmore, hrest⟩
    · have hlen := congrArg List.length hextra
      rw [List.length_append] at hlen
      obtain rfl : extra = [] := List.length_eq_zero_iff.mp (by omega)
      exact ⟨[], by rw [hextra]; simp, by rw [hrest]; rfl⟩
    · exact ⟨more, hmore, hrest⟩
  cases more with
  | nil =>
      generalize hline : [] ++ '"' :: '"' :: '"' :: after = line at hstart
      cases hstart with
      | other hquote _ =>
          subst hline
          exact hquote rfl
      | @key text _ rest htext hne =>
          have hrest := (List.cons.inj hline).2
          have hnil := htext.nil_of_quote hrest.symm
          subst hnil
          rw [← (List.cons.inj hrest).2] at hne
          exact hne rfl
  | cons c more =>
      generalize hline : c :: more ++ '"' :: '"' :: '"' :: after = line at hstart
      cases hstart with
      | other hquote hslash =>
          subst hline
          simp only [List.cons_append, List.head?_cons, ne_eq, Option.some.injEq] at hquote hslash
          exact not_multiline_of_newline hlead hbody hnl hinner hquote hslash
      | @key text _ rest htext hne =>
          obtain ⟨rfl, hrest⟩ := List.cons.inj hline
          have hnot : '"' ∉ more := by
            have hcount := congrArg (List.count '"') hinner
            have hle := hbody.count_le
            have hskip := List.count_eq_zero.mpr hlead.quote_not_mem
            simp only [List.count_append, List.count_cons_self] at hcount
            exact List.count_eq_zero.mp (by omega)
          exact hne (htext.quote_after hnot hrest.symm)

/-- A text between two quotes that stands at a value is not in a multi-line string of this
value. -/
theorem not_multiline {v rest lead body after : List Char} {quotes : ℕ} (hafter : AfterValue rest)
    (hlead : lead = [] ∨ Newline lead) (hbody : MultilineBody quotes body v)
    (heq : v ++ '"' :: rest =
      '"' :: '"' :: (lead ++ body ++ '"' :: '"' :: '"' :: after)) : False := by
  have hle := hbody.length_le
  -- the quote after `v` comes before the closing quotes
  obtain ⟨inner, rfl, hinner⟩ : ∃ inner, rest = inner ++ '"' :: '"' :: '"' :: after ∧
      v ++ '"' :: inner = '"' :: '"' :: (lead ++ body) := by
    have hsplit : (v ++ ['"']) ++ rest =
        ('"' :: '"' :: (lead ++ body)) ++ '"' :: '"' :: '"' :: after := by
      simpa using heq
    rcases List.append_eq_append_iff.mp hsplit with ⟨inner, hinner, hrest⟩ | ⟨more, hmore, _⟩
    · exact ⟨inner, hrest, by rw [hinner]; simp⟩
    · have := congrArg List.length hmore
      simp only [List.length_append, List.length_cons, List.length_nil] at this
      omega
  have hlength : lead.length < inner.length := by
    have := congrArg List.length hinner
    simp only [List.length_append, List.length_cons] at this
    omega
  obtain ⟨c, inner', hcons⟩ := List.exists_cons_of_ne_nil
    (List.ne_nil_of_length_pos (Nat.zero_lt_of_lt hlength))
  have hne := hafter.head_ne
  rw [hcons, List.cons_append] at hne
  simp only [List.head?_cons, ne_eq, Option.some.injEq] at hne
  rcases hlead with rfl | hlead
  · exact not_multiline_of_ne (.inl rfl) hbody (hcons ▸ hinner) hne.1 hne.2 (.inl rfl)
  · generalize htext : inner ++ '"' :: '"' :: '"' :: after = text at hafter
    cases hafter with
    | done => simp at htext
    | @mark d rest hd =>
        rw [hcons, List.cons_append] at htext
        obtain rfl := (List.cons.inj htext).1
        have hline : isLineEnd c = false := by
          simp only [List.mem_cons, List.not_mem_nil, or_false] at hd
          rcases hd with rfl | rfl | rfl | rfl | rfl | rfl <;> rfl
        exact not_multiline_of_ne (.inr hlead) hbody (hcons ▸ hinner) hne.1 hne.2 (.inr hline)
    | line hnl hstart =>
        have hpos := hlead.length_pos
        exact not_multiline_of_line hlead hbody hinner (by omega) hnl hstart htext

/-- If a text between two quotes at a value is read as this text, it is plain. -/
theorem plain_of_token {v rest token after : List Char} (htoken : Token token v)
    (heq : '"' :: (v ++ '"' :: rest) = token ++ after) (hafter : AfterValue rest) : Plain v := by
  cases htoken with
  | @basic body _ hbody =>
      have hsplit : v ++ '"' :: rest = body ++ '"' :: after := by
        simpa using heq
      have hle := hbody.length_le
      rcases List.append_eq_append_iff.mp hsplit with ⟨more, rfl, hmore⟩ | ⟨more, rfl, hmore⟩
      · cases more with
        | nil =>
            rw [List.append_nil] at hbody
            exact hbody.plain (Nat.le_refl _)
        | cons c more =>
            -- the quote after `v` would be escaped in the longer body
            obtain ⟨rfl, -⟩ := List.cons.inj hmore
            have hcount := hbody.multiline.count_le
            simp only [List.count_append, List.count_cons_self] at hcount
            omega
      · rw [List.length_append] at hle
        obtain rfl : more = [] := List.length_eq_zero_iff.mp (by omega)
        rw [List.append_nil] at hbody ⊢
        exact hbody.plain (Nat.le_refl _)
  | @multiline lead quotes body _ hlead hbody =>
      have hsplit : v ++ '"' :: rest =
          '"' :: '"' :: (lead ++ body ++ '"' :: '"' :: '"' :: after) := by
        simpa using heq
      exact (not_multiline hafter hlead hbody hsplit).elim

/-- A plain text between two quotes is a token, unless it is empty. -/
theorem Token.eq_of_plain {text rest token value after : List Char} (htoken : Token token value)
    (hplain : Plain text) (hne : text ≠ []) (heq : '"' :: (text ++ '"' :: rest) = token ++ after) :
    token = '"' :: (text ++ ['"']) ∧ value = text ∧ after = rest := by
  cases htoken with
  | @basic body _ hbody =>
      obtain ⟨rfl, rfl, rfl⟩ := hbody.eq_of_plain hplain (by simpa using heq)
      exact ⟨rfl, rfl, rfl⟩
  | multiline _ _ =>
      obtain ⟨c, text, rfl⟩ := List.exists_cons_of_ne_nil hne
      have hc := (List.cons.inj (List.cons.inj heq).2).1
      exact absurd hc (ne_of_isUnescaped (hplain c List.mem_cons_self)).1

end TomlString
