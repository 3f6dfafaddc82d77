/-
The strings in double quotes of TOML 1.0.

`Token text value` relates a basic string or a multi-line basic string, quotes included,
to its value.  `readBody` reads the rest of a basic string and finds exactly the related
value (`readBody_append`, `body_of_readBody`).
-/
import Mathlib.Data.List.Basic

namespace TomlString

/-! ## Characters -/

/-- `wschar / %x21 / %x23-5B / %x5D-7E / non-ascii`. -/
def isUnescaped (c : Char) : Bool :=
  c = '\t' || (0x20 ≤ c.toNat && c ≠ '"' && c ≠ '\\' && c.toNat ≠ 0x7F)

def Plain (text : List Char) : Prop := ∀ c ∈ text, isUnescaped c = true

instance (text : List Char) : Decidable (Plain text) :=
  decidable_of_iff (text.all isUnescaped = true) List.all_eq_true

def isHexDigit (c : Char) : Bool :=
  ('0' ≤ c && c ≤ '9') || ('a' ≤ c && c ≤ 'f') || ('A' ≤ c && c ≤ 'F')

def hexDigit (c : Char) : ℕ :=
  if c ≤ '9' then c.toNat - '0'.toNat
  else if c ≤ 'F' then c.toNat - 'A'.toNat + 10
  else c.toNat - 'a'.toNat + 10

def hexValue (digits : List Char) : ℕ := digits.foldl (fun n c => 16 * n + hexDigit c) 0

/-- The escapes of one character. -/
def unescape (c : Char) : Option Char :=
  if c = '"' then some '"'
  else if c = '\\' then some '\\'
  else if c = 'b' then some '\x08'
  else if c = 'f' then some '\x0c'
  else if c = 'n' then some '\n'
  else if c = 'r' then some '\r'
  else if c = 't' then some '\t'
  else none

/-- What stands after the backslash. -/
inductive Escape : List Char → Char → Prop
  | short {c d} : unescape c = some d → Escape [c] d
  | unicode {digits d} : digits.length = 4 → digits.all isHexDigit = true →
      hexValue digits = d.toNat → Escape ('u' :: digits) d
  | longUnicode {digits d} : digits.length = 8 → digits.all isHexDigit = true →
      hexValue digits = d.toNat → Escape ('U' :: digits) d

theorem ne_of_isUnescaped {c : Char} (h : isUnescaped c = true) :
    c ≠ '"' ∧ c ≠ '\\' ∧ c ≠ '\n' ∧ c ≠ '\r' := by
  refine ⟨?_, ?_, ?_, ?_⟩ <;> rintro rfl <;> exact absurd h (by decide)

theorem Plain.quote_not_mem {text : List Char} (h : Plain text) : '"' ∉ text := by
  intro hmem
  exact (ne_of_isUnescaped (h _ hmem)).1 rfl

theorem quote_not_mem_digits {digits : List Char} (h : digits.all isHexDigit = true) :
    '"' ∉ digits := by
  intro hmem
  exact absurd (List.all_eq_true.mp h _ hmem) (by decide)

/-- A quote that is escaped is the whole escape. -/
theorem Escape.quote {seq : List Char} {d : Char} (h : Escape seq d) (hmem : '"' ∈ seq) :
    seq = ['"'] ∧ d = '"' := by
  cases h with
  | @short c d hc =>
      obtain rfl : '"' = c := by simpa using hmem
      exact ⟨rfl, by simpa [unescape] using hc.symm⟩
  | unicode _ hall _ =>
      simp only [List.mem_cons] at hmem
      rcases hmem with h | h
      · exact absurd h (by decide)
      · exact absurd h (quote_not_mem_digits hall)
  | longUnicode _ hall _ =>
      simp only [List.mem_cons] at hmem
      rcases hmem with h | h
      · exact absurd h (by decide)
      · exact absurd h (quote_not_mem_digits hall)

theorem Escape.ne_nil {seq : List Char} {d : Char} (h : Escape seq d) : seq ≠ [] := by
  cases h <;> exact List.cons_ne_nil _ _

/-! ## Tokens -/

/-- What stands between the quotes of a basic string, and its value. -/
inductive Body : List Char → List Char → Prop
  | nil : Body [] []
  | char {c text value} : isUnescaped c = true → Body text value → Body (c :: text) (c :: value)
  | escape {seq d text value} : Escape seq d → Body text value →
      Body ('\\' :: (seq ++ text)) (d :: value)

inductive Newline : List Char → Prop
  | lf : Newline ['\n']
  | crlf : Newline ['\r', '\n']

def isSpace (c : Char) : Bool := c = ' ' || c = '\t'

inductive Blank : List Char → Prop
  | nil : Blank []
  | space {c text} : isSpace c = true → Blank text → Blank (c :: text)
  | newline {nl text} : Newline nl → Blank text → Blank (nl ++ text)

/-- What stands between the quotes of a multi-line basic string, by the number of the quotes at
its front, and its value.  A newline may be normalised; a backslash at the end of a line takes
the blanks after it away. -/
inductive MultilineBody : ℕ → List Char → List Char → Prop
  | nil : MultilineBody 0 [] []
  | char {c quotes text value} : isUnescaped c = true → MultilineBody quotes text value →
      MultilineBody 0 (c :: text) (c :: value)
  | escape {seq d quotes text value} : Escape seq d → MultilineBody quotes text value →
      MultilineBody 0 ('\\' :: (seq ++ text)) (d :: value)
  | quote {quotes text value} : quotes < 2 → MultilineBody quotes text value →
      MultilineBody (quotes + 1) ('"' :: text) ('"' :: value)
  | newline {nl nl' quotes text value} : Newline nl → nl' = nl ∨ nl' = ['\n'] →
      MultilineBody quotes text value → MultilineBody 0 (nl ++ text) (nl' ++ value)
  | continuation {spaces nl gap quotes text value} : spaces.all isSpace = true → Newline nl →
      Blank gap → (∀ c ∈ text.head?, isSpace c = false ∧ c ≠ '\n' ∧ c ≠ '\r') →
      MultilineBody quotes text value →
      MultilineBody 0 ('\\' :: (spaces ++ nl ++ gap ++ text)) value

/-- A basic string or a multi-line basic string; a newline right after the opening quotes is
not part of the value. -/
inductive Token : List Char → List Char → Prop
  | basic {text value} : Body text value → Token ('"' :: (text ++ ['"'])) value
  | multiline {lead quotes text value} : lead = [] ∨ Newline lead →
      MultilineBody quotes text value →
      Token ('"' :: '"' :: '"' :: (lead ++ text ++ ['"', '"', '"'])) value

/-! ## What stands after a value -/

/-- The front of a line of a document: a key may be a basic string. -/
inductive LineStart : List Char → Prop
  | other {rest} : rest.head? ≠ some '"' → rest.head? ≠ some '\\' → LineStart rest
  | key {text value rest} : Body text value → rest.head? ≠ some '"' →
      LineStart ('"' :: (text ++ '"' :: rest))

/-- A value is followed by the end, by a blank, a comment, a comma or a closing bracket, or by
the next line. -/
inductive AfterValue : List Char → Prop
  | done : AfterValue []
  | mark {c rest} : c ∈ [' ', '\t', '#', ',', ']', '}'] → AfterValue (c :: rest)
  | line {nl rest} : Newline nl → LineStart rest → AfterValue (nl ++ rest)

/-! ## Values and plain texts -/

theorem Body.of_plain {text : List Char} (h : Plain text) : Body text text := by
  induction text with
  | nil => exact .nil
  | cons c text ih =>
      exact .char (h c List.mem_cons_self) (ih fun d hd => h d (List.mem_cons_of_mem c hd))

theorem Newline.length_pos {nl : List Char} (h : Newline nl) : 0 < nl.length := by
  cases h <;> exact Nat.succ_pos _

theorem MultilineBody.length_le {quotes : ℕ} {text value : List Char}
    (h : MultilineBody quotes text value) : value.length ≤ text.length := by
  induction h with
  | nil => exact Nat.le_refl 0
  | char _ _ ih =>
      simp only [List.length_cons]
      omega
  | escape _ _ ih =>
      simp only [List.length_cons, List.length_append]
      omega
  | quote _ _ ih =>
      simp only [List.length_cons]
      omega
  | newline hnl hnl' _ ih =>
      have hpos := hnl.length_pos
      rcases hnl' with rfl | rfl
      · simp only [List.length_append]
        omega
      · simp only [List.length_append, List.length_cons, List.length_nil]
        omega
  | continuation _ _ _ _ _ ih =>
      simp only [List.length_cons, List.length_append]
      omega

theorem Body.multiline {text value : List Char} (h : Body text value) :
    MultilineBody 0 text value := by
  induction h with
  | nil => exact .nil
  | char hc _ ih => exact .char hc ih
  | escape hseq _ ih => exact .escape hseq ih

theorem Body.length_le {text value : List Char} (h : Body text value) :
    value.length ≤ text.length :=
  h.multiline.length_le

/-- A body as long as its value has no escapes. -/
theorem Body.plain {text value : List Char} (h : Body text value)
    (hlen : text.length ≤ value.length) : Plain text := by
  induction h with
  | nil =>
      intro c hc
      cases hc
  | @char c text value hc _ ih =>
      have hrest := ih (by simpa using hlen)
      intro d hd
      rcases List.mem_cons.mp hd with rfl | hd
      · exact hc
      · exact hrest d hd
  | escape hseq htext _ =>
      have hle := htext.length_le
      have hpos := List.length_pos_iff.mpr hseq.ne_nil
      simp only [List.length_cons, List.length_append] at hlen
      omega

/-- A plain text before a quote is the whole body. -/
theorem Body.eq_of_plain {text body value rest after : List Char} (h : Body body value)
    (hplain : Plain text) (heq : text ++ '"' :: rest = body ++ '"' :: after) :
    body = text ∧ value = text ∧ after = rest := by
  induction h generalizing text with
  | nil =>
      cases text with
      | nil => simpa using heq.symm
      | cons d text =>
          simp only [List.cons_append, List.nil_append, List.cons.injEq] at heq
          exact absurd heq.1 (ne_of_isUnescaped (hplain d List.mem_cons_self)).1
  | @char c body value hc _ ih =>
      cases text with
      | nil =>
          simp only [List.cons_append, List.nil_append, List.cons.injEq] at heq
          exact absurd heq.1.symm (ne_of_isUnescaped hc).1
      | cons d text =>
          simp only [List.cons_append, List.cons.injEq] at heq
          obtain ⟨hbody, hvalue, hafter⟩ := ih
            (fun e he => hplain e (List.mem_cons_of_mem d he)) heq.2
          exact ⟨by rw [heq.1, hbody], by rw [heq.1, hvalue], hafter⟩
  | escape _ _ _ =>
      cases text with
      | nil =>
          simp only [List.cons_append, List.nil_append, List.cons.injEq] at heq
          exact absurd heq.1 (by decide)
      | cons d text =>
          simp only [List.cons_append, List.cons.injEq] at heq
          exact absurd heq.1 (ne_of_isUnescaped (hplain d List.mem_cons_self)).2.1

/-! ## Reading a basic string -/

def readUnicode (size : ℕ) (text : List Char) : Option (Char × List Char) :=
  if (text.take size).length = size ∧ (text.take size).all isHexDigit = true ∧
      (hexValue (text.take size)).isValidChar then
    some (Char.ofNat (hexValue (text.take size)), text.drop size)
  else none

def readEscape : List Char → Option (Char × List Char)
  | [] => none
  | c :: rest =>
    match unescape c with
    | some d => some (d, rest)
    | none =>
      if c = 'u' then readUnicode 4 rest
      else if c = 'U' then readUnicode 8 rest
      else none

theorem readUnicode_eq {size : ℕ} {digits : List Char} {d : Char} (hsize : digits.length = size)
    (hall : digits.all isHexDigit = true) (hvalue : hexValue digits = d.toNat)
    (rest : List Char) : readUnicode size (digits ++ rest) = some (d, rest) := by
  subst hsize
  unfold readUnicode
  rw [List.take_left, List.drop_left, hvalue, if_pos ⟨rfl, hall, d.valid⟩, Char.ofNat_toNat]

theorem of_readUnicode {size : ℕ} {text rest : List Char} {d : Char}
    (h : readUnicode size text = some (d, rest)) :
    ∃ digits, text = digits ++ rest ∧ digits.length = size ∧ digits.all isHexDigit = true ∧
      hexValue digits = d.toNat := by
  unfold readUnicode at h
  split at h
  · rename_i hdigits
    obtain ⟨hsize, hall, hvalid⟩ := hdigits
    cases h
    refine ⟨text.take size, (List.take_append_drop size text).symm, hsize, hall, ?_⟩
    rw [Char.ofNat, dif_pos hvalid]
    rfl
  · cases h

theorem readEscape_append {seq : List Char} {d : Char} (h : Escape seq d) (rest : List Char) :
    readEscape (seq ++ rest) = some (d, rest) := by
  cases h with
  | short hc =>
      rw [List.cons_append, readEscape, hc]
      rfl
  | unicode hsize hall hvalue => exact readUnicode_eq hsize hall hvalue rest
  | longUnicode hsize hall hvalue => exact readUnicode_eq hsize hall hvalue rest

theorem escape_of_readEscape {text rest : List Char} {d : Char}
    (h : readEscape text = some (d, rest)) : ∃ seq, text = seq ++ rest ∧ Escape seq d := by
  unfold readEscape at h
  split at h
  · cases h
  · rename_i c text
    split at h
    · rename_i e hc
      cases h
      exact ⟨[c], rfl, .short hc⟩
    · split at h
      · rename_i hc
        subst hc
        obtain ⟨digits, rfl, hsize, hall, hvalue⟩ := of_readUnicode h
        exact ⟨'u' :: digits, rfl, .unicode hsize hall hvalue⟩
      · split at h
        · rename_i hc
          subst hc
          obtain ⟨digits, rfl, hsize, hall, hvalue⟩ := of_readUnicode h
          exact ⟨'U' :: digits, rfl, .longUnicode hsize hall hvalue⟩
        · cases h

theorem readEscape_length {text rest : List Char} {d : Char}
    (h : readEscape text = some (d, rest)) : rest.length < text.length := by
  obtain ⟨seq, rfl, hseq⟩ := escape_of_readEscape h
  have hpos := List.length_pos_iff.mpr hseq.ne_nil
  rw [List.length_append]
  omega

/-- Reads up to the closing quote. -/
def readBody (text : List Char) : Option (List Char × List Char) :=
  match text with
  | [] => none
  | c :: rest =>
    if c = '"' then some ([], rest)
    else if c = '\\' then
      match _hread : readEscape rest with
      | some (d, rest') => (readBody rest').map fun (value, after) => (d :: value, after)
      | none => none
    else if isUnescaped c = true then
      (readBody rest).map fun (value, after) => (c :: value, after)
    else none
termination_by text.length
decreasing_by
  · have := readEscape_length _hread
    simp only [List.length_cons]
    omega
  · simp

theorem readBody_append {text value : List Char} (h : Body text value) (rest : List Char) :
    readBody (text ++ '"' :: rest) = some (value, rest) := by
  induction h with
  | nil =>
      rw [List.nil_append, readBody]
      rfl
  | char hc _ ih =>
      obtain ⟨hquote, hslash, -⟩ := ne_of_isUnescaped hc
      rw [List.cons_append, readBody, if_neg hquote, if_neg hslash, if_pos hc, ih]
      rfl
  | @escape seq d text value hseq _ ih =>
      rw [List.cons_append, List.append_assoc, readBody, if_neg (by decide), if_pos rfl]
      split
      · rename_i e rest' hread
        rw [readEscape_append hseq] at hread
        cases hread
        rw [ih]
        rfl
      · rename_i hread
        rw [readEscape_append hseq] at hread
        cases hread

theorem body_of_readBody {text value rest : List Char}
    (h : readBody text = some (value, rest)) :
    ∃ body, text = body ++ '"' :: rest ∧ Body body value := by
  fun_induction readBody text generalizing value with
  | case1 => cases h
  | case2 text =>
      cases h
      exact ⟨[], rfl, .nil⟩
  | case3 text d later hread _ ih =>
      obtain ⟨⟨tail, after⟩, hlater, heq⟩ := Option.map_eq_some_iff.mp h
      cases heq
      obtain ⟨body, rfl, hbody⟩ := ih hlater
      obtain ⟨seq, rfl, hseq⟩ := escape_of_readEscape hread
      exact ⟨'\\' :: (seq ++ body), by simp, .escape hseq hbody⟩
  | case4 => cases h
  | case5 c text _ _ hc ih =>
      obtain ⟨⟨tail, after⟩, hlater, heq⟩ := Option.map_eq_some_iff.mp h
      cases heq
      obtain ⟨body, rfl, hbody⟩ := ih hlater
      exact ⟨c :: body, rfl, .char hc hbody⟩
  | case6 => cases h

end TomlString
