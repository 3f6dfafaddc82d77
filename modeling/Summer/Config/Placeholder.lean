/-
A key of a configuration file that is set to `"${NAME}"` (`interpolate` in
`summer/src/config/env.rs`, then `load_config` in `summer/src/config/toml.rs`).

The value of the variable is put between the quotes before the file is parsed.  What the parser
is known to do with a value in double quotes is stated in `TomlGrammar`.
-/
import Mathlib.Logic.Function.Basic
import Mathlib.Tactic.IntervalCases
import Summer.Config.Interpolate
import Summer.Config.Places
import Summer.Lib.TomlToken

namespace Summer.Config

open TomlString (Plain Body Token AfterValue)

/-! ## The parser -/

/-- What `toml::from_str` does with a value in double quotes, by the grammar.  `Expects before
place` says that the value at `place` begins after the text `before`. -/
structure TomlGrammar (fromStr : String → Except String Table)
    (Expects : List Char → List Step → Prop) : Prop where
  value : ∀ {before rest place t}, Expects before place →
    fromStr (String.ofList (before ++ '"' :: rest)) = .ok t →
    ∃ token value after, '"' :: rest = token ++ after ∧ Token token value ∧ AfterValue after ∧
      (Value.table t).get? place = some (.string (String.ofList value))
  replace : ∀ {before text value text' value' after place t}, Expects before place →
    Body text value → text ≠ [] → Body text' value' →
    fromStr (String.ofList (before ++ '"' :: (text ++ '"' :: after))) = .ok t →
    ∃ t', fromStr (String.ofList (before ++ '"' :: (text' ++ '"' :: after))) = .ok t' ∧
      Value.table t' = (Value.table t).set place (.string (String.ofList value'))

/-- `interpolate` on strings; it never panics. -/
def interpolated (env : Environment) (template : String) : String :=
  String.ofList ((interpolate env template.toList).getD [])

theorem interpolated_eq (env : Environment) {template : List Char} {pieces : List Piece}
    (h : Decomposes template pieces) :
    interpolated env (String.ofList template) =
      String.ofList (pieces.flatMap (Piece.substitute env)) := by
  unfold interpolated
  rw [String.toList_ofList, interpolate_eq env h]
  rfl

/-! ## The placeholder among the pieces -/

theorem Decomposes.literal_of_ne {c : Char} {text : List Char} {pieces : List Piece} (hc : c ≠ '$')
    (h : Decomposes text pieces) : Decomposes (c :: text) (.literal c :: pieces) := by
  apply Decomposes.literal _ h
  rintro ⟨_, _, heq⟩
  exact hc (List.cons.inj heq).1

/-- A `${` without a later `}`; it takes in what comes next. -/
def LeftOpen (text : List Char) : Prop :=
  ∃ before body, text = before ++ '$' :: '{' :: body ∧ '}' ∉ body

theorem Decomposes.close_not_mem {text body : List Char} {pieces : List Piece}
    (h : Decomposes text pieces) (hmem : .placeholder body ∈ pieces) : '}' ∉ body := by
  induction h with
  | nil => cases hmem
  | literal _ _ ih =>
      rcases List.mem_cons.mp hmem with heq | hmem
      · cases heq
      · exact ih hmem
  | placeholder hnot _ ih =>
      rcases List.mem_cons.mp hmem with heq | hmem
      · cases heq
        exact hnot
      · exact ih hmem

/-- A text that ends inside of a placeholder, before a quote, is left open. -/
theorem leftOpen_of_inside {before m body tail : List Char} (hm : m ≠ []) (hclose : '}' ∉ body)
    (heq : (Piece.placeholder body).source = m ++ '"' :: tail) : LeftOpen (before ++ m) := by
  obtain ⟨d, m, rfl⟩ := List.exists_cons_of_ne_nil hm
  obtain ⟨rfl, hrest⟩ : '$' = d ∧ '{' :: (body ++ ['}']) = m ++ '"' :: tail := List.cons.inj heq
  cases m with
  | nil => exact absurd (List.cons.inj hrest).1 (by decide)
  | cons e m =>
      obtain ⟨rfl, hbody⟩ : '{' = e ∧ body ++ ['}'] = m ++ '"' :: tail := List.cons.inj hrest
      have hstarts : m <+: body := by
        have hlen := congrArg List.length hbody
        simp only [List.length_append, List.length_cons, List.length_nil] at hlen
        exact List.prefix_of_prefix_length_le (hbody.symm ▸ List.prefix_append m _)
          (List.prefix_append body _) (by omega)
      exact ⟨before, m, rfl, fun h => hclose (hstarts.subset h)⟩

section
variable {front back : List Char}

/-- A text that is not left open is decomposed on its own. -/
theorem Decomposes.split_quote {pieces : List Piece}
    (h : Decomposes (front ++ '"' :: back) pieces) (hopen : ¬ LeftOpen front) :
    ∃ left right, pieces = left ++ right ∧ Decomposes front left ∧
      Decomposes ('"' :: back) right := by
  apply h.split rfl
  rintro before body after rfl hstart
  by_contra hlong
  have hsource := h.source
  rw [List.flatMap_append, List.flatMap_cons] at hsource
  rw [List.flatMap_append, List.flatMap_singleton, List.length_append] at hlong
  rcases List.append_eq_append_iff.mp hsource with ⟨m, rfl, hm⟩ | ⟨m, hm, _⟩
  · rw [List.length_append] at hstart hlong
    rcases List.append_eq_append_iff.mp hm with ⟨m', hm', -⟩ | ⟨m', hm', hquote⟩
    · have := congrArg List.length hm'
      rw [List.length_append] at this
      omega
    · cases m' with
      | nil =>
          rw [List.append_nil] at hm'
          rw [hm'] at hlong
          omega
      | cons c m' =>
          obtain ⟨rfl, -⟩ := List.cons.inj hquote
          refine hopen (leftOpen_of_inside ?_ (h.close_not_mem (by simp)) hm')
          rintro rfl
          simp at hstart
  · rw [hm, List.length_append] at hstart
    omega

/-- In a text that is left open no placeholder begins at the quote after it. -/
theorem LeftOpen.not_placeholder_after (hopen : LeftOpen front) {text body : List Char}
    {before after : List Piece} (h : Decomposes text (before ++ .placeholder body :: after)) :
    before.flatMap Piece.source ≠ front ++ ['"'] := by
  induction before generalizing front text with
  | nil =>
      intro heq
      simp at heq
  | cons piece before ih =>
      obtain ⟨b, inner, rfl, hnot⟩ := hopen
      intro heq
      cases h with
      | @literal c rest _ hopens hrest =>
          cases b with
          | nil =>
              obtain ⟨rfl, hinner⟩ : c = '$' ∧
                before.flatMap Piece.source = '{' :: (inner ++ ['"']) := List.cons.inj heq
              refine hopens ⟨inner ++ '"' :: '$' :: '{' :: body, after.flatMap Piece.source, ?_⟩
              rw [← hrest.source]
              simp [hinner, Piece.source]
          | cons d b => exact ih ⟨b, inner, rfl, hnot⟩ hrest (List.cons.inj heq).2
      | @placeholder other rest _ hclose hrest =>
          rw [List.flatMap_cons, List.append_assoc] at heq
          rcases List.append_eq_append_iff.mp heq with ⟨m, rfl, hm⟩ | ⟨m, hm, htail⟩
          · exact ih ⟨m, inner, rfl, hnot⟩ hrest (by rw [hm]; simp)
          · rcases List.eq_nil_or_concat m with rfl | ⟨m, c, rfl⟩
            · exact ih ⟨[], inner, rfl, hnot⟩ hrest (by simpa using htail.symm)
            · -- the closing brace would be in what is left open
              have hc : c = '}' := by
                have hlast := congrArg List.getLast? hm
                simpa [Piece.source, List.getLast?_cons] using hlast.symm
              have hmem : '}' ∈ '$' :: '{' :: inner ++ ['"'] := by
                rw [htail, hc]
                simp
              simp [hnot] at hmem

end

/-! ## The value of the key -/

section
variable (toml : Toml) (files : Files) (Expects : List Char → List Step → Prop)
  (env : Environment)

/-- A configuration file with a value that is set to `"${NAME}"`, where the rest of the file does
not use the variable and the file is well formed as long as the variable is not set. -/
structure Setting where
  configPath : String
  envPath : Except ConfigError String
  name : List Char
  front : List Char
  back : List Char
  place : List Step
  unset : Table
  read : files.readToString configPath = .ok (String.ofList
    (front ++ '"' :: ((Piece.placeholder name).source ++ '"' :: back)))
  noProfile : ∀ path, envPath = .ok path → files.pathExists path = false
  plain : Plain name
  whole : ':' ∉ name ∧ '}' ∉ name
  expects : Expects ((interpolate env front).getD []) place
  alone : ∀ before body after,
    Decomposes (front ++ '"' :: ((Piece.placeholder name).source ++ '"' :: back))
      (before ++ .placeholder body :: after) →
    body.takeWhile (· ≠ ':') = name → before.flatMap Piece.source = front ++ ['"']
  loads : loadConfig toml files
    (interpolated (Function.update env name (.error .notPresent))) configPath envPath = .ok unset

end

namespace Setting

variable {toml : Toml} {files : Files} {Expects : List Char → List Step → Prop}
  {env : Environment} (s : Setting toml files Expects env)

def template : List Char := s.front ++ '"' :: ((Piece.placeholder s.name).source ++ '"' :: s.back)

def load (value : Except VarError (List Char)) : Except ConfigError Table :=
  loadConfig toml files (interpolated (Function.update env s.name value)) s.configPath s.envPath

/-- The key gets the value of the variable, and nothing else depends on it. -/
def Exact (v : List Char) : Prop :=
  ∃ t, s.load (.ok v) = .ok t ∧
    (Value.table t).get? s.place = some (.string (String.ofList v)) ∧
    SameElsewhere s.place (.table s.unset) (.table t)

theorem load_eq_ok_iff (value : Except VarError (List Char)) (t : Table) :
    s.load value = .ok t ↔ toml.fromStr
      (interpolated (Function.update env s.name value) (String.ofList s.template)) = .ok t := by
  have hread : files.readToString s.configPath = .ok (String.ofList s.template) := s.read
  unfold load loadConfig
  rw [hread]
  dsimp only
  cases toml.fromStr
      (interpolated (Function.update env s.name value) (String.ofList s.template)) with
  | error e => simp
  | ok mainTable =>
      cases hpath : s.envPath with
      | error e => simp
      | ok path => simp [s.noProfile path hpath]

theorem substitute_update {body : List Char} {name : List Char}
    (h : body.takeWhile (· ≠ ':') ≠ name) (value : Except VarError (List Char)) :
    (Piece.placeholder body).substitute (Function.update env name value) =
      (Piece.placeholder body).substitute env := by
  show placeholderValue (Function.update env name value) body = placeholderValue env body
  unfold placeholderValue
  rw [Function.update_of_ne h]

/-- The variable is used by one placeholder only. -/
theorem flatMap_update {before pieces after : List Piece}
    (h : Decomposes s.template (before ++ pieces ++ after))
    (hfar : ∀ left body right, pieces = left ++ .placeholder body :: right →
      (before ++ left).flatMap Piece.source ≠ s.front ++ ['"'])
    (value : Except VarError (List Char)) :
    pieces.flatMap (Piece.substitute (Function.update env s.name value)) =
      pieces.flatMap (Piece.substitute env) := by
  apply List.flatMap_congr
  intro piece hpiece
  cases piece with
  | literal c => rfl
  | placeholder body =>
      apply substitute_update
      intro hname
      obtain ⟨left, right, rfl⟩ := List.append_of_mem hpiece
      have hsplit : before ++ (left ++ .placeholder body :: right) ++ after =
          (before ++ left) ++ .placeholder body :: (right ++ after) := by
        simp
      rw [hsplit] at h
      exact hfar left body right rfl (s.alone _ _ _ h hname)

theorem placeholderValue_name (value : Except VarError (List Char)) :
    placeholderValue (Function.update env s.name value) s.name =
      match value with
      | .ok v => v
      | .error _ => (Piece.placeholder s.name).source := by
  have hall := forall_ne_of_not_mem s.whole.1
  have hname := List.takeWhile_eq_self_iff.mpr hall
  have hrest := List.dropWhile_eq_nil_iff.mpr hall
  unfold placeholderValue
  cases value with
  | ok v => simp only [hname, Function.update_self]
  | error e => simp only [hname, hrest, Function.update_self]

/-- The text that is parsed. -/
theorem interpolated_template (hopen : ¬ LeftOpen s.front) :
    ∃ back, ∀ value : Except VarError (List Char),
      interpolated (Function.update env s.name value) (String.ofList s.template) =
        String.ofList ((interpolate env s.front).getD [] ++
          '"' :: (placeholderValue (Function.update env s.name value) s.name ++ '"' :: back)) := by
  obtain ⟨pieces, hpieces⟩ := decomposes_exists s.template
  obtain ⟨left, right, rfl, hleft, hright⟩ := hpieces.split_quote hopen
  obtain ⟨after, hafter⟩ := decomposes_exists s.back
  have hwhole : Decomposes ('"' :: ((Piece.placeholder s.name).source ++ '"' :: s.back))
      (.literal '"' :: .placeholder s.name :: .literal '"' :: after) := by
    have hlast := Decomposes.literal_of_ne (show '"' ≠ '$' by decide) hafter
    have hplaceholder := Decomposes.placeholder s.whole.2 hlast
    apply Decomposes.literal_of_ne (by decide)
    simpa [Piece.source] using hplaceholder
  obtain rfl := hright.unique hwhole
  refine ⟨after.flatMap (Piece.substitute env), ?_⟩
  intro value
  have hbefore := @flatMap_update _ _ _ _ s [] left _ (by simpa using hpieces) (by
    intro l body r hl heq
    have hlen := congrArg List.length heq
    have hsource := congrArg List.length hleft.source
    rw [hl] at hsource
    simp only [List.nil_append, List.flatMap_append, List.flatMap_cons, List.length_append,
      List.length_cons, List.length_nil, Piece.source] at hlen hsource
    omega) value
  have hlater := @flatMap_update _ _ _ _ s
    (left ++ [.literal '"', .placeholder s.name, .literal '"']) after []
    (by simpa using hpieces) (by
    intro l body r _ heq
    have hlen := congrArg List.length heq
    have hsource := congrArg List.length hleft.source
    simp only [List.flatMap_append, List.flatMap_cons, List.length_append,
      List.length_cons, List.length_nil, Piece.source] at hlen hsource
    omega) value
  rw [interpolated_eq _ hpieces, interpolate_eq env hleft, List.flatMap_append, hbefore]
  simp only [List.flatMap_cons, Piece.substitute, hlater, Option.getD_some, List.cons_append,
    List.nil_append]

theorem interpolated_template_of_leftOpen (hopen : LeftOpen s.front)
    (value : Except VarError (List Char)) :
    interpolated (Function.update env s.name value) (String.ofList s.template) =
      interpolated env (String.ofList s.template) := by
  obtain ⟨pieces, hpieces⟩ := decomposes_exists s.template
  rw [interpolated_eq _ hpieces, interpolated_eq _ hpieces]
  have hnone := @flatMap_update _ _ _ _ s [] pieces [] (by simpa using hpieces) (by
    rintro l body r rfl
    exact hopen.not_placeholder_after hpieces) value
  rw [hnone]

end Setting

theorem plain_source {name : List Char} (h : Plain name) :
    Plain ('$' :: '{' :: (name ++ ['}'])) := by
  intro c hc
  simp only [List.mem_cons, List.mem_append, List.not_mem_nil, or_false] at hc
  rcases hc with rfl | rfl | hc | rfl
  · rfl
  · rfl
  · exact h c hc
  · rfl

/-- Exactly the values without a quote, a backslash or a control character are read back, and
they change nothing else.  A placeholder that an earlier `${` has taken in has one value. -/
theorem exact_iff_plain {toml : Toml} {files : Files} {Expects : List Char → List Step → Prop}
    {env : Environment} (hgrammar : TomlGrammar toml.fromStr Expects)
    (s : Setting toml files Expects env) (v : List Char) :
    (¬ LeftOpen s.front → (s.Exact v ↔ Plain v)) ∧
      (LeftOpen s.front → ∀ w, s.Exact v → s.Exact w → v = w) := by
  constructor
  · intro hopen
    obtain ⟨back, htext⟩ := s.interpolated_template hopen
    have hsource := plain_source s.plain
    -- the document as it is while the variable is not set
    have hunset := (s.load_eq_ok_iff (.error .notPresent) s.unset).mp s.loads
    rw [htext, s.placeholderValue_name] at hunset
    obtain ⟨token, value, after, hsplit, htoken, hafter, hold⟩ := hgrammar.value s.expects hunset
    obtain ⟨-, rfl, rfl⟩ := htoken.eq_of_plain hsource (List.cons_ne_nil _ _) hsplit
    constructor
    · rintro ⟨t, hload, hvalue, -⟩
      rw [s.load_eq_ok_iff, htext, s.placeholderValue_name] at hload
      obtain ⟨token, value, rest, hsplit, htoken, -, hnew⟩ := hgrammar.value s.expects hload
      rw [hvalue, Option.some.injEq, Value.string.injEq] at hnew
      obtain rfl := String.ofList_injective hnew
      exact TomlString.plain_of_token htoken hsplit hafter
    · intro hplain
      obtain ⟨t, hparse, ht⟩ := hgrammar.replace s.expects (Body.of_plain hsource)
        (List.cons_ne_nil _ _) (Body.of_plain hplain) hunset
      refine ⟨t, ?_, ?_, ?_⟩
      · rw [s.load_eq_ok_iff, htext, s.placeholderValue_name]
        exact hparse
      · rw [ht]
        exact Value.get?_set hold
      · rw [ht]
        exact sameElsewhere_set _ hold
  · rintro hopen w ⟨t, hload, hvalue, -⟩ ⟨t', hload', hvalue', -⟩
    rw [s.load_eq_ok_iff, s.interpolated_template_of_leftOpen hopen] at hload hload'
    rw [hload, Except.ok.injEq] at hload'
    subst hload'
    rw [hvalue, Option.some.injEq, Value.string.injEq] at hvalue'
    exact String.ofList_injective hvalue'

namespace Sample

/-- Documents with two lines, `h="…"` and `k="…"`. -/
def parseLines (text : String) : Except String Table :=
  match text.toList with
  | 'h' :: '=' :: '"' :: rest =>
    match TomlString.readBody rest with
    | some (host, '\n' :: 'k' :: '=' :: '"' :: rest) =>
      match TomlString.readBody rest with
      | some (value, []) =>
        .ok [("h", .string (String.ofList host)), ("k", .string (String.ofList value))]
      | _ => .error "invalid basic string"
    | _ => .error "invalid basic string"
  | _ => .error "key with no value"

/-- The text up to the value of `k`. -/
def upTo (host : List Char) : List Char :=
  ['h', '=', '"'] ++ (host ++ ['"', '\n', 'k', '='])

def StandsAfter (before : List Char) (place : List Step) : Prop :=
  (∃ text host, Body text host ∧ before = upTo text) ∧ place = [.key "k"]

theorem parseLines_eq_ok_iff {text host : List Char} (h : Body text host) (rest : List Char)
    (t : Table) :
    parseLines (String.ofList (upTo text ++ '"' :: rest)) = .ok t ↔
      ∃ value, TomlString.readBody rest = some (value, []) ∧
        t = [("h", .string (String.ofList host)), ("k", .string (String.ofList value))] := by
  have htext : upTo text ++ '"' :: rest =
      'h' :: '=' :: '"' :: (text ++ '"' :: ('\n' :: 'k' :: '=' :: '"' :: rest)) := by
    simp [upTo]
  unfold parseLines
  rw [String.toList_ofList, htext]
  simp only [TomlString.readBody_append h]
  rcases TomlString.readBody rest with _ | ⟨value, _ | ⟨c, after⟩⟩
  · simp
  · simp [eq_comm]
  · simp

theorem parseLines_grammar : TomlGrammar parseLines StandsAfter := by
  constructor
  · rintro before rest place t ⟨⟨text, host, hhost, rfl⟩, rfl⟩ hparse
    obtain ⟨value, hread, rfl⟩ := (parseLines_eq_ok_iff hhost rest t).mp hparse
    obtain ⟨body, rfl, hbody⟩ := TomlString.body_of_readBody hread
    exact ⟨_, value, [], by simp, .basic hbody, .done, rfl⟩
  · rintro before text value text' value' after place t ⟨⟨front, host, hhost, rfl⟩, rfl⟩ htext _
      htext' hparse
    obtain ⟨other, hread, rfl⟩ := (parseLines_eq_ok_iff hhost _ t).mp hparse
    rw [TomlString.readBody_append htext, Option.some.injEq, Prod.mk.injEq] at hread
    obtain ⟨rfl, rfl⟩ := hread
    refine ⟨_, (parseLines_eq_ok_iff hhost _ _).mpr
      ⟨value', TomlString.readBody_append htext' [], rfl⟩, ?_⟩
    simp [Value.set, Table.modify]

def linesToml : Toml := { fromStr := parseLines, mergeTables := fun a _ => .ok a }

def unsetEnv : Environment := fun _ => .error .notPresent

def varName : List Char := ['N', 'A', 'M', 'E']

/-- `HOST`, which is not set, with a default. -/
def host : List Char := ['H', 'O', 'S', 'T', ':', 'x', 'y']

def front : List Char := upTo (Piece.placeholder host).source

def document : List Char := front ++ '"' :: ((Piece.placeholder varName).source ++ ['"'])

def documentPieces : List Piece :=
  [.literal 'h', .literal '=', .literal '"', .placeholder host, .literal '"', .literal '\n',
    .literal 'k', .literal '=', .literal '"', .placeholder varName, .literal '"']

def documentFiles : Files :=
  { readToString := fun _ => .ok (String.ofList document)
    pathExists := fun _ => false }

theorem document_decomposes : Decomposes document documentPieces := by
  have hlast : Decomposes ['"'] [.literal '"'] := Decomposes.literal_of_ne (by decide) .nil
  have hname := @Decomposes.placeholder varName ['"'] [.literal '"'] (by decide) hlast
  have hsecond := Decomposes.literal_of_ne (show '"' ≠ '$' by decide)
    (Decomposes.literal_of_ne (show '\n' ≠ '$' by decide)
      (Decomposes.literal_of_ne (show 'k' ≠ '$' by decide)
        (Decomposes.literal_of_ne (show '=' ≠ '$' by decide)
          (Decomposes.literal_of_ne (show '"' ≠ '$' by decide) hname))))
  exact Decomposes.literal_of_ne (by decide) (Decomposes.literal_of_ne (by decide)
    (Decomposes.literal_of_ne (by decide) (@Decomposes.placeholder host _ _ (by decide) hsecond)))

theorem front_decomposes : Decomposes front
    [.literal 'h', .literal '=', .literal '"', .placeholder host, .literal '"', .literal '\n',
      .literal 'k', .literal '='] := by
  have hsecond := Decomposes.literal_of_ne (show '"' ≠ '$' by decide)
    (Decomposes.literal_of_ne (show '\n' ≠ '$' by decide)
      (Decomposes.literal_of_ne (show 'k' ≠ '$' by decide)
        (Decomposes.literal_of_ne (show '=' ≠ '$' by decide) .nil)))
  exact Decomposes.literal_of_ne (by decide) (Decomposes.literal_of_ne (by decide)
    (Decomposes.literal_of_ne (by decide) (@Decomposes.placeholder host _ _ (by decide) hsecond)))

/-- Of the two placeholders the second is the one of the variable. -/
theorem document_placeholder {before after : List Piece} {body : List Char}
    (h : before ++ .placeholder body :: after = documentPieces)
    (hname : body.takeWhile (· ≠ ':') = varName) :
    before = documentPieces.take 9 := by
  have hget : documentPieces[before.length]? = some (.placeholder body) := by
    rw [← h]
    simp
  have hbefore : before = documentPieces.take before.length := by
    rw [← h, List.take_left']
    rfl
  have hlt : before.length < documentPieces.length := by
    rw [← h, List.length_append, List.length_cons]
    omega
  have hlength : before.length = 9 := by
    generalize before.length = i at hget hlt
    have hi : i < 11 := hlt
    interval_cases i <;> simp [documentPieces] at hget ⊢
    subst hget
    exact absurd hname (by decide)
  rw [hbefore, hlength]

theorem interpolated_document (value : Except VarError (List Char)) :
    interpolated (Function.update unsetEnv varName value) (String.ofList document) =
      String.ofList (upTo ['x', 'y'] ++
        '"' :: (placeholderValue (Function.update unsetEnv varName value) varName ++ ['"'])) :=
  interpolated_eq _ document_decomposes

theorem parseLines_unset : linesToml.fromStr (interpolated
      (Function.update unsetEnv varName (.error .notPresent)) (String.ofList document)) =
    .ok [("h", .string (String.ofList ['x', 'y'])),
      ("k", .string (String.ofList (Piece.placeholder varName).source))] := by
  have hplain : Plain (Piece.placeholder varName).source := by decide
  rw [interpolated_document]
  exact (parseLines_eq_ok_iff (Body.of_plain (show Plain ['x', 'y'] by decide)) _ _).mpr
    ⟨_, TomlString.readBody_append (Body.of_plain hplain) [], rfl⟩

def setting : Setting linesToml documentFiles StandsAfter unsetEnv :=
  { configPath := "app.toml"
    envPath := .error (.otherError [])
    name := varName
    front := front
    back := []
    place := [.key "k"]
    unset := [("h", .string (String.ofList ['x', 'y'])),
      ("k", .string (String.ofList (Piece.placeholder varName).source))]
    read := rfl
    noProfile := nofun
    plain := by decide
    whole := by decide
    expects := by
      rw [interpolate_eq unsetEnv front_decomposes]
      exact ⟨⟨['x', 'y'], ['x', 'y'], Body.of_plain (by decide), rfl⟩, rfl⟩
    alone := by
      intro before body after h hname
      rw [document_placeholder (h.unique document_decomposes) hname]
      rfl
    loads := by
      unfold loadConfig
      show (match linesToml.fromStr (interpolated
        (Function.update unsetEnv varName (.error .notPresent)) (String.ofList document)) with
        | .error e => _
        | .ok mainTable => Except.ok mainTable) = _
      rw [parseLines_unset] }

theorem load_eq_ok_iff (v : List Char) (t : Table) : setting.load (.ok v) = .ok t ↔
    ∃ value, TomlString.readBody (v ++ ['"']) = some (value, []) ∧
      t = [("h", .string (String.ofList ['x', 'y'])), ("k", .string (String.ofList value))] := by
  have hvalue : placeholderValue (Function.update unsetEnv varName (.ok v)) varName = v :=
    setting.placeholderValue_name (.ok v)
  rw [setting.load_eq_ok_iff,
    ← parseLines_eq_ok_iff (Body.of_plain (show Plain ['x', 'y'] by decide))]
  show parseLines
    (interpolated (Function.update unsetEnv varName (.ok v)) (String.ofList document)) = _ ↔ _
  rw [interpolated_document, hvalue]

/-- The placeholder of the host is closed before the quote. -/
theorem front_closed : ¬ LeftOpen setting.front := by
  rintro ⟨before, body, heq, hbody⟩
  have hget : setting.front[before.length]? = some '$' := by
    rw [heq]
    simp
  have hrest : body = setting.front.drop (before.length + 2) := by
    rw [heq, List.drop_append]
    simp
  have hlt : before.length < setting.front.length := by
    rw [heq, List.length_append, List.length_cons]
    omega
  generalize before.length = i at hget hrest hlt
  have hi : i < 17 := hlt
  subst hrest
  interval_cases i <;> first | exact absurd hget (by decide) | exact hbody (by decide)


end Sample

theorem exact_hash : Sample.setting.Exact ['a', '#', 'b'] :=
  ((exact_iff_plain Sample.parseLines_grammar Sample.setting ['a', '#', 'b']).1
    Sample.front_closed).mpr (by decide)

/-- The quote in `x"y` ends the string. -/
theorem quote_not_exact : TomlGrammar Sample.linesToml.fromStr Sample.StandsAfter ∧
    ¬ LeftOpen Sample.setting.front ∧ ¬ Sample.setting.Exact ['x', '"', 'y'] := by
  refine ⟨Sample.parseLines_grammar, Sample.front_closed, ?_⟩
  rintro ⟨t, hload, -, -⟩
  obtain ⟨value, hread, -⟩ := (Sample.load_eq_ok_iff _ t).mp hload
  have hx := TomlString.readBody_append (Body.of_plain (show Plain ['x'] by decide)) ['y', '"']
  rw [show (['x', '"', 'y'] ++ ['"'] : List Char) = ['x'] ++ '"' :: ['y', '"'] from rfl, hx]
    at hread
  cases hread

end Summer.Config
