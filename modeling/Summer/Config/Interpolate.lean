/-
The placeholders of a configuration file (`summer/src/config/env.rs`).  Texts are lists of
characters.

The scanner walks over the characters by index and splits a placeholder at a byte offset.  What
it returns is read off the decomposition of the template into characters and placeholders.
-/
import Mathlib.Algebra.Order.Ring.Nat
import Mathlib.Data.List.TakeWhile

namespace Summer.Config

/-! ## Byte offsets -/

namespace Utf8

/-- `text.find(c)`, which counts bytes. -/
def find (c : Char) : List Char → Option ℕ
  | [] => none
  | d :: rest => if d = c then some 0 else (find c rest).map (d.utf8Size + ·)

/-- `text.split_at(pos)`, or `none` where it panics: past the end or inside of a character. -/
def splitAt : List Char → ℕ → Option (List Char × List Char)
  | text, 0 => some ([], text)
  | [], _ + 1 => none
  | c :: rest, pos + 1 =>
    if c.utf8Size ≤ pos + 1 then
      (splitAt rest (pos + 1 - c.utf8Size)).map fun (before, after) => (c :: before, after)
    else none

def sliceTo (text : List Char) (pos : ℕ) : Option (List Char) := (splitAt text pos).map Prod.fst

def sliceFrom (text : List Char) (pos : ℕ) : Option (List Char) := (splitAt text pos).map Prod.snd

def size (text : List Char) : ℕ := (text.map Char.utf8Size).sum

@[simp] theorem size_nil : size [] = 0 := rfl

@[simp] theorem size_cons (c : Char) (text : List Char) :
    size (c :: text) = c.utf8Size + size text := by
  simp [size]

theorem size_append (a b : List Char) : size (a ++ b) = size a + size b := by
  simp [size]

theorem splitAt_size (before after : List Char) :
    splitAt (before ++ after) (size before) = some (before, after) := by
  induction before with
  | nil => cases after <;> rfl
  | cons c before ih =>
      have hpos : 0 < c.utf8Size := Char.utf8Size_pos c
      obtain ⟨n, hn⟩ : ∃ n, size (c :: before) = n + 1 := ⟨size (c :: before) - 1, by
        rw [size_cons]
        omega⟩
      have hle : c.utf8Size ≤ n + 1 := by
        rw [← hn, size_cons]
        omega
      have hrest : n + 1 - c.utf8Size = size before := by
        rw [← hn, size_cons]
        omega
      rw [hn, List.cons_append, splitAt, if_pos hle, hrest, ih]
      rfl

theorem find_append {c : Char} {before after : List Char} (hnot : c ∉ before) :
    find c (before ++ c :: after) = some (size before) := by
  induction before with
  | nil => simp [find]
  | cons d before ih =>
      obtain ⟨hd, hbefore⟩ := List.ne_and_not_mem_of_not_mem_cons hnot
      simp [find, Ne.symm hd, ih hbefore]

theorem find_eq_none {c : Char} {text : List Char} (hnot : c ∉ text) : find c text = none := by
  induction text with
  | nil => rfl
  | cons d text ih =>
      obtain ⟨hd, htext⟩ := List.ne_and_not_mem_of_not_mem_cons hnot
      simp [find, Ne.symm hd, ih htext]

end Utf8

/-! ## The scanner -/

inductive VarError
  | notPresent
  | notUnicode
deriving DecidableEq, Repr

/-- `std::env::var`. -/
abbrev Environment := List Char → Except VarError (List Char)

/-- What is pushed for a placeholder; `none` is a panic of a slice. -/
def resolve (env : Environment) (placeholder : List Char) : Option (List Char) :=
  match Utf8.find ':' placeholder with
  | some pos =>
    (Utf8.sliceTo placeholder pos).bind fun varName =>
      match env varName with
      | .ok value => some value
      | .error _ => Utf8.sliceFrom placeholder (pos + 1)
  | none =>
    match env placeholder with
    | .ok value => some value
    | .error _ => some (['$', '{'] ++ placeholder ++ ['}'])

/-- The inner loop: the first `}` at or after `j`, or the end. -/
def closing (chars : List Char) (j : ℕ) : ℕ :=
  if h : j < chars.length then
    if chars[j] = '}' then j else closing chars (j + 1)
  else j
termination_by chars.length - j

theorem le_closing (chars : List Char) (j : ℕ) : j ≤ closing chars j := by
  fun_induction closing chars j with
  | case1 j h hclose => exact Nat.le_refl j
  | case2 j h hclose ih => omega
  | case3 j h => exact Nat.le_refl j

/-- The outer loop from index `i` on. -/
def interpolateFrom (env : Environment) (chars : List Char) (i : ℕ) (result : List Char) :
    Option (List Char) :=
  if h : i < chars.length then
    if chars[i] = '$' ∧ chars[i + 1]? = some '{' then
      if chars[closing chars (i + 2)]? = some '}' then
        match resolve env ((chars.take (closing chars (i + 2))).drop (i + 2)) with
        | some text => interpolateFrom env chars (closing chars (i + 2) + 1) (result ++ text)
        | none => none
      else
        interpolateFrom env chars (i + 1) (result ++ ['$'])
    else
      interpolateFrom env chars (i + 1) (result ++ [chars[i]])
  else some result
termination_by chars.length - i
decreasing_by
  · have := le_closing chars (i + 2)
    omega
  · omega
  · omega

def interpolate (env : Environment) (template : List Char) : Option (List Char) :=
  interpolateFrom env template 0 []

/-! ## The decomposition of a template -/

inductive Piece
  | literal (c : Char)
  | placeholder (body : List Char)
deriving DecidableEq, Repr

def Piece.source : Piece → List Char
  | .literal c => [c]
  | .placeholder body => '$' :: '{' :: (body ++ ['}'])

/-- The name is the text before the first `:`, the default the text after it. -/
def placeholderValue (env : Environment) (body : List Char) : List Char :=
  match env (body.takeWhile (· ≠ ':')) with
  | .ok value => value
  | .error _ =>
    match body.dropWhile (· ≠ ':') with
    | _ :: default => default
    | [] => (Piece.placeholder body).source

def Piece.substitute (env : Environment) : Piece → List Char
  | .literal c => [c]
  | .placeholder body => placeholderValue env body

/-- A `${` with a later `}` stands at the front. -/
def Opens (text : List Char) : Prop := ∃ body rest, text = '$' :: '{' :: (body ++ '}' :: rest)

inductive Decomposes : List Char → List Piece → Prop
  | nil : Decomposes [] []
  | literal {c rest pieces} : ¬ Opens (c :: rest) → Decomposes rest pieces →
      Decomposes (c :: rest) (.literal c :: pieces)
  | placeholder {body rest pieces} : '}' ∉ body → Decomposes rest pieces →
      Decomposes ('$' :: '{' :: (body ++ '}' :: rest)) (.placeholder body :: pieces)

theorem Opens.append {a : List Char} (h : Opens a) (b : List Char) : Opens (a ++ b) := by
  obtain ⟨body, rest, rfl⟩ := h
  exact ⟨body, rest ++ b, by simp⟩

theorem first_split_unique {c : Char} {before after before' after' : List Char}
    (hnot : c ∉ before) (hnot' : c ∉ before')
    (h : before ++ c :: after = before' ++ c :: after') : before = before' ∧ after = after' := by
  induction before generalizing before' with
  | nil =>
      cases before' with
      | nil => simpa using h
      | cons d before' =>
          simp only [List.nil_append, List.cons_append, List.cons.injEq] at h
          exact absurd (h.1 ▸ List.mem_cons_self) hnot'
  | cons d before ih =>
      cases before' with
      | nil =>
          simp only [List.nil_append, List.cons_append, List.cons.injEq] at h
          exact absurd (h.1 ▸ List.mem_cons_self) hnot
      | cons d' before' =>
          simp only [List.cons_append, List.cons.injEq] at h
          obtain ⟨hbefore, hafter⟩ := ih (List.not_mem_of_not_mem_cons hnot)
            (List.not_mem_of_not_mem_cons hnot') h.2
          exact ⟨by rw [h.1, hbefore], hafter⟩

theorem decomposes_exists (text : List Char) : ∃ pieces, Decomposes text pieces := by
  -- a placeholder is consumed whole, so the induction is on the length
  induction hlen : text.length using Nat.strongRecOn generalizing text with
  | _ n ih =>
    by_cases hopen : Opens text
    · obtain ⟨body, rest, rfl⟩ := hopen
      obtain ⟨first, later, hsplit, hnot⟩ :=
        List.eq_append_cons_of_mem (show '}' ∈ body ++ '}' :: rest by simp)
      have hlt : later.length < n := by
        have := congrArg List.length hsplit
        simp only [List.length_append, List.length_cons] at this hlen
        omega
      obtain ⟨pieces, hpieces⟩ := ih later.length hlt later rfl
      rw [hsplit]
      exact ⟨_, .placeholder hnot hpieces⟩
    · cases text with
      | nil => exact ⟨[], .nil⟩
      | cons c rest =>
          have hlt : rest.length < n := by
            simp only [List.length_cons] at hlen
            omega
          obtain ⟨pieces, hpieces⟩ := ih rest.length hlt rest rfl
          exact ⟨_, .literal hopen hpieces⟩

theorem Decomposes.source {text : List Char} {pieces : List Piece} (h : Decomposes text pieces) :
    pieces.flatMap Piece.source = text := by
  induction h with
  | nil => rfl
  | literal _ _ ih => simp [Piece.source, ih]
  | placeholder _ _ ih => simp [Piece.source, ih]

theorem Decomposes.unique {text : List Char} {pieces pieces' : List Piece}
    (h : Decomposes text pieces) (h' : Decomposes text pieces') : pieces = pieces' := by
  induction h generalizing pieces' with
  | nil => cases h' with | nil => rfl
  | @literal c rest pieces hopen _ ih =>
      generalize htext : c :: rest = text at h'
      cases h' with
      | nil => cases htext
      | literal _ hrest =>
          cases htext
          rw [ih hrest]
      | @placeholder body later _ _ _ => exact absurd ⟨body, later, htext⟩ hopen
  | @placeholder body rest pieces hnot _ ih =>
      generalize htext : '$' :: '{' :: (body ++ '}' :: rest) = text at h'
      cases h' with
      | nil => cases htext
      | literal hopen _ => exact absurd ⟨body, rest, htext.symm⟩ hopen
      | placeholder hnot' hrest =>
          simp only [List.cons.injEq, true_and] at htext
          obtain ⟨rfl, rfl⟩ := first_split_unique hnot hnot' htext
          rw [ih hrest]

/-! ## The scanner returns the substitution -/

theorem forall_ne_of_not_mem {c : Char} {text : List Char} (h : c ∉ text) :
    ∀ d ∈ text, decide (d ≠ c) = true := by
  intro d hd
  simp only [decide_eq_true_eq]
  rintro rfl
  exact h hd

theorem resolve_eq (env : Environment) (body : List Char) :
    resolve env body = some (placeholderValue env body) := by
  unfold resolve placeholderValue
  by_cases hcolon : ':' ∈ body
  · obtain ⟨name, default, rfl, hnot⟩ := List.eq_append_cons_of_mem hcolon
    have hname := forall_ne_of_not_mem hnot
    have hfrom : Utf8.splitAt (name ++ ':' :: default) (Utf8.size name + 1) =
        some (name ++ [':'], default) := by
      have hsplit := Utf8.splitAt_size (name ++ [':']) default
      simpa [Utf8.size_append, show (':' : Char).utf8Size = 1 from rfl] using hsplit
    simp only [Utf8.find_append hnot, Utf8.sliceTo, Utf8.sliceFrom, Utf8.splitAt_size, hfrom,
      List.takeWhile_append_of_pos hname, List.dropWhile_append_of_pos hname, Option.map_some,
      Option.bind_some]
    cases henv : env name <;> simp [henv]
  · have hall := forall_ne_of_not_mem hcolon
    rw [Utf8.find_eq_none hcolon, List.takeWhile_eq_self_iff.mpr hall,
      List.dropWhile_eq_nil_iff.mpr hall]
    cases env body with
    | ok value => rfl
    | error _ => simp [Piece.source]

theorem getElem?_of_drop {chars rest : List Char} {c : Char} {i : ℕ}
    (h : chars.drop i = c :: rest) : chars[i]? = some c := by
  rw [← List.head?_drop, h]
  rfl

theorem drop_succ_of_drop {chars rest : List Char} {c : Char} {i : ℕ}
    (h : chars.drop i = c :: rest) : chars.drop (i + 1) = rest := by
  rw [← List.tail_drop, h]
  rfl

theorem closing_of_drop {chars body rest : List Char} {j : ℕ} (hnot : '}' ∉ body)
    (h : chars.drop j = body ++ '}' :: rest) : closing chars j = j + body.length := by
  induction body generalizing j with
  | nil =>
      obtain ⟨hlt, hj⟩ := List.getElem?_eq_some_iff.mp (getElem?_of_drop h)
      rw [closing, dif_pos hlt, if_pos hj]
      rfl
  | cons d body ih =>
      obtain ⟨hd, hbody⟩ := List.ne_and_not_mem_of_not_mem_cons hnot
      obtain ⟨hlt, hj⟩ := List.getElem?_eq_some_iff.mp (getElem?_of_drop h)
      have hdrop : chars.drop (j + 1) = body ++ '}' :: rest := drop_succ_of_drop h
      rw [closing, dif_pos hlt, if_neg (by rw [hj]; exact Ne.symm hd), ih hbody hdrop,
        List.length_cons]
      omega

theorem closing_of_not_mem {chars : List Char} {j : ℕ} (hnot : '}' ∉ chars.drop j) :
    chars.length ≤ closing chars j := by
  fun_induction closing chars j with
  | case1 j hlt hj =>
      rw [List.drop_eq_getElem_cons hlt, hj] at hnot
      exact absurd List.mem_cons_self hnot
  | case2 j hlt hj ih =>
      apply ih
      rw [List.drop_eq_getElem_cons hlt] at hnot
      exact List.not_mem_of_not_mem_cons hnot
  | case3 j hge => omega

theorem interpolateFrom_eq (env : Environment) {chars text : List Char} {pieces : List Piece}
    (h : Decomposes text pieces) :
    ∀ (i : ℕ) (result : List Char), chars.drop i = text →
      interpolateFrom env chars i result =
        some (result ++ pieces.flatMap (Piece.substitute env)) := by
  induction h with
  | nil =>
      intro i result hdrop
      have hge := List.drop_eq_nil_iff.mp hdrop
      rw [interpolateFrom, dif_neg (by omega)]
      simp
  | @literal c rest pieces hopen _ ih =>
      intro i result hdrop
      obtain ⟨hlt, hi⟩ := List.getElem?_eq_some_iff.mp (getElem?_of_drop hdrop)
      have hrest : chars.drop (i + 1) = rest := drop_succ_of_drop hdrop
      rw [interpolateFrom, dif_pos hlt, hi]
      by_cases hbrace : c = '$' ∧ chars[i + 1]? = some '{'
      · obtain ⟨rfl, hnext⟩ := hbrace
        -- an unclosed `${` is copied character by character
        have hnot : '}' ∉ chars.drop (i + 2) := by
          intro hmem
          obtain ⟨body, after, hafter⟩ := List.append_of_mem hmem
          apply hopen
          refine ⟨body, after, ?_⟩
          rw [← hrest, ← hafter, List.drop_eq_getElem?_toList_append, hnext]
          rfl
        have hend := closing_of_not_mem hnot
        rw [if_pos ⟨rfl, hnext⟩, List.getElem?_eq_none hend, if_neg (by simp),
          ih (i + 1) _ hrest]
        simp [Piece.substitute]
      · rw [if_neg hbrace, ih (i + 1) _ hrest]
        simp [Piece.substitute]
  | @placeholder body rest pieces hnot _ ih =>
      intro i result hdrop
      obtain ⟨hlt, hi⟩ := List.getElem?_eq_some_iff.mp (getElem?_of_drop hdrop)
      have hname := drop_succ_of_drop hdrop
      have hnext := getElem?_of_drop hname
      have hbody : chars.drop (i + 2) = body ++ '}' :: rest := drop_succ_of_drop hname
      have hclose := closing_of_drop hnot hbody
      have hmatch : chars[closing chars (i + 2)]? = some '}' := by
        rw [hclose, ← List.getElem?_drop, hbody]
        simp
      have hslice : (chars.take (closing chars (i + 2))).drop (i + 2) = body := by
        rw [hclose, List.drop_take, hbody]
        simp
      have hrest : chars.drop (closing chars (i + 2) + 1) = rest := by
        rw [hclose, show i + 2 + body.length + 1 = (i + 2) + (body.length + 1) by omega,
          ← List.drop_drop, hbody]
        simp
      rw [interpolateFrom, dif_pos hlt, if_pos ⟨hi, hnext⟩, if_pos hmatch, hslice, resolve_eq]
      show interpolateFrom env chars _ _ = _
      rw [ih _ _ hrest]
      simp [Piece.substitute]

theorem interpolate_eq (env : Environment) {template : List Char} {pieces : List Piece}
    (h : Decomposes template pieces) :
    interpolate env template = some (pieces.flatMap (Piece.substitute env)) := by
  unfold interpolate
  rw [interpolateFrom_eq env h 0 [] (List.drop_zero ..)]
  rfl

/-! ## Templates joined -/

/-- A placeholder of `a ++ b` begins in `a` and ends in `b`. -/
def Straddles (a b : List Char) : Prop :=
  ∃ before body after, Decomposes (a ++ b) (before ++ .placeholder body :: after) ∧
    (before.flatMap Piece.source).length < a.length ∧
    a.length < ((before ++ [.placeholder body]).flatMap Piece.source).length

/-- No placeholder reaches from the first `size` characters into the others. -/
def Whole (size : ℕ) (pieces : List Piece) : Prop :=
  ∀ before body after, pieces = before ++ .placeholder body :: after →
    (before.flatMap Piece.source).length < size →
    ((before ++ [.placeholder body]).flatMap Piece.source).length ≤ size

theorem Whole.tail {size : ℕ} {piece : Piece} {pieces : List Piece}
    (h : Whole (piece.source.length + size) (piece :: pieces)) : Whole size pieces := by
  intro before body after hpieces hstart
  have hend := h (piece :: before) body after (by rw [hpieces]; rfl) (by
    rw [List.flatMap_cons, List.length_append]
    omega)
  rw [List.cons_append, List.flatMap_cons, List.length_append] at hend
  omega

theorem Decomposes.split {text : List Char} {pieces : List Piece} (h : Decomposes text pieces) :
    ∀ {a b : List Char}, text = a ++ b → Whole a.length pieces →
      ∃ left right, pieces = left ++ right ∧ Decomposes a left ∧ Decomposes b right := by
  induction h with
  | nil =>
      intro a b htext _
      obtain ⟨rfl, rfl⟩ := List.append_eq_nil_iff.mp htext.symm
      exact ⟨[], [], rfl, .nil, .nil⟩
  | @literal c rest pieces hopen hrest ih =>
      intro a b htext hwhole
      cases a with
      | nil =>
          rw [List.nil_append] at htext
          exact ⟨[], _, rfl, .nil, htext ▸ .literal hopen hrest⟩
      | cons d a =>
          simp only [List.cons_append, List.cons.injEq] at htext
          obtain ⟨rfl, rfl⟩ := htext
          rw [List.length_cons, Nat.add_comm] at hwhole
          obtain ⟨left, right, rfl, hleft, hright⟩ := ih rfl hwhole.tail
          exact ⟨.literal c :: left, right, rfl,
            .literal (fun h => hopen (h.append b)) hleft, hright⟩
  | @placeholder body rest pieces hnot hrest ih =>
      intro a b htext hwhole
      cases a with
      | nil =>
          rw [List.nil_append] at htext
          exact ⟨[], _, rfl, .nil, htext ▸ .placeholder hnot hrest⟩
      | cons d a =>
          have hsize : (Piece.placeholder body).source.length ≤ (d :: a).length := by
            have := hwhole [] body pieces rfl (by simp)
            simpa using this
          obtain ⟨a', ha⟩ : ∃ a', d :: a = (Piece.placeholder body).source ++ a' := by
            apply List.prefix_of_prefix_length_le _ (List.prefix_append (d :: a) b) hsize |>.imp
            · intro a' h
              exact h.symm
            · rw [← htext]
              exact ⟨rest, by simp [Piece.source]⟩
          have hrest' : rest = a' ++ b := by
            rw [ha] at htext
            simpa [Piece.source] using htext
          rw [ha, List.length_append] at hwhole
          obtain ⟨left, right, rfl, hleft, hright⟩ := ih hrest' hwhole.tail
          refine ⟨.placeholder body :: left, right, rfl, ?_, hright⟩
          have hsource : (Piece.placeholder body).source ++ a' =
              '$' :: '{' :: (body ++ '}' :: a') := by
            simp [Piece.source]
          rw [ha, hsource]
          exact .placeholder hnot hleft

/-- A `${` that lies across the boundary and is never closed does no harm. -/
theorem interpolate_append (env : Environment) {a b : List Char} (h : ¬ Straddles a b) :
    ∃ x y, interpolate env a = some x ∧ interpolate env b = some y ∧
      interpolate env (a ++ b) = some (x ++ y) := by
  obtain ⟨pieces, hpieces⟩ := decomposes_exists (a ++ b)
  obtain ⟨left, right, rfl, hleft, hright⟩ := hpieces.split rfl (by
    intro before body after hsplit hstart
    by_contra hlong
    subst hsplit
    exact h ⟨before, body, after, hpieces, hstart, by omega⟩)
  refine ⟨_, _, interpolate_eq env hleft, interpolate_eq env hright, ?_⟩
  rw [interpolate_eq env hpieces, List.flatMap_append]

/-- The template has one decomposition, the scanner returns its substitution, and so two
templates can be filled in apart. -/
theorem interpolate_substitutes (env : Environment) :
    (∀ template, ∃ pieces, Decomposes template pieces ∧
      (∀ pieces', Decomposes template pieces' → pieces' = pieces) ∧
      interpolate env template = some (pieces.flatMap (Piece.substitute env))) ∧
    ∀ a b, ¬ Straddles a b → ∃ x y, interpolate env a = some x ∧ interpolate env b = some y ∧
      interpolate env (a ++ b) = some (x ++ y) := by
  constructor
  · intro template
    obtain ⟨pieces, hpieces⟩ := decomposes_exists template
    exact ⟨pieces, hpieces, fun _ h => h.unique hpieces, interpolate_eq env hpieces⟩
  · intro a b h
    exact interpolate_append env h

namespace Sample

def env : Environment := fun name =>
  if name = "NAME".toList then .ok "Alice".toList else .error .notPresent

def template : List Char := ['$', '{', 'N', 'A', 'M', 'E', '}']

theorem interpolate_sample : ∃ x y, interpolate env template = some x ∧
    interpolate env ['!'] = some y ∧ interpolate env (template ++ ['!']) = some (x ++ y) := by
  apply (interpolate_substitutes env).2
  rintro ⟨before, body, after, hpieces, hstart, hend⟩
  have hwhole : Decomposes (template ++ ['!']) [.placeholder "NAME".toList, .literal '!'] := by
    have hlast : Decomposes ['!'] [.literal '!'] := .literal (by rintro ⟨_, _, h⟩; cases h) .nil
    exact @Decomposes.placeholder "NAME".toList ['!'] [.literal '!'] (by decide) hlast
  have hsame := hpieces.unique hwhole
  cases before with
  | nil =>
      simp only [List.nil_append, List.cons.injEq, Piece.placeholder.injEq] at hsame
      obtain ⟨rfl, rfl⟩ := hsame
      exact absurd hend (by decide)
  | cons first before =>
      cases before <;> simp at hsame

end Sample

end Summer.Config
