/-
The arguments of the `cache` macro (`summer-macros/src/cache.rs`).

After the key come assignments, each behind a comma.  The macro takes the last `expire` that is
an integer literal, the last `condition` and the last `unless`, and rejects every other name
(`cacheArgs_ok_iff`).  An `expire` that is no literal it passes over, so an entry that is
stored expires only if some `expire` of the attribute is written as a number
(`entries_expire_iff`).
-/
import Summer.Lib.Assignments
import Summer.Macros.Cache

namespace Summer.Macros.Cache

open Assignments SharedStore

/-- What `base10_parse::<u64>` says of an integer literal, or that there is none. -/
inductive Literal
  | int (value : Option Nat)
  | other
  | notLiteral
deriving DecidableEq, Repr

/-- The parser of `syn` for `left = right`, which reads at least a token, and what the macro asks
of an expression: the name it is, and the literal. -/
structure AssignSyn (E : Type) where
  exprAssign : Parse (E × E)
  exprAssign_lt : ∀ tokens a rest, exprAssign tokens = .ok (a, rest) →
    rest.length < tokens.length
  ident : E → Option String
  literal : E → Literal

inductive Key
  | expire
  | condition
  | unlessExpr
deriving DecidableEq, Repr

@[reducible] def Key.Value (E : Type) : Key → Type
  | .expire => Nat
  | .condition => E
  | .unlessExpr => E

structure CacheArgs (E : Type) where
  key : String
  opts : Slots (Key.Value E)

variable {E : Type}

/-- The body of the `while` loop, once an assignment is parsed. -/
def readAssign (syn : AssignSyn E) (a : E × E) :
    Except MacroError (Option (Sigma (Key.Value E))) :=
  match syn.ident a.1 with
  | none => .error (.message "invalid assignment")
  | some name =>
    if name = "expire" then
      match syn.literal a.2 with
      | .int (some seconds) => .ok (some ⟨.expire, seconds⟩)
      | .int none => .error .syn
      | .other => .error (.message "expire must be an integer")
      | .notLiteral => .ok none
    else if name = "condition" then
      .ok (some ⟨.condition, a.2⟩)
    else if name = "unless" then
      .ok (some ⟨.unlessExpr, a.2⟩)
    else
      .error (.message s!"unknown named parameter `{name}`")

/-- The `while` loop. -/
def parseAssigns (syn : AssignSyn E) (opts : Slots (Key.Value E)) :
    Parse (Slots (Key.Value E))
  | .punct ',' :: rest =>
    match _h : syn.exprAssign rest with
    | .error e => .error e
    | .ok (a, rest') =>
      match assign (readAssign syn) opts a with
      | .error e => .error e
      | .ok opts' => parseAssigns syn opts' rest'
  | rest => .ok (opts, rest)
termination_by tokens => tokens.length
decreasing_by
  have := syn.exprAssign_lt _ _ _ _h
  simp only [List.length_cons]
  omega

def keyError : MacroError :=
  .combine .syn (.message ("invalid cache definition, expected #[cache(\"<key_pattern>\", " ++
    "expire = <seconds>, condition = <bool_expr>, unless = <bool_expr>)]"))

def CacheArgs.parse (syn : AssignSyn E) : Parse (CacheArgs E) := fun tokens =>
  match litStr tokens with
  | .error _ => .error keyError
  | .ok (key, rest) =>
    match parseAssigns syn Assignments.empty rest with
    | .error e => .error e
    | .ok (opts, rest') => .ok ({ key := key, opts := opts }, rest')

/-! ## What is accepted -/

/-- An assignment that counts. -/
def Sets (syn : AssignSyn E) (a : E × E) : (k : Key) → Key.Value E k → Prop
  | .expire, seconds => syn.ident a.1 = some "expire" ∧ syn.literal a.2 = .int (some seconds)
  | .condition, e => syn.ident a.1 = some "condition" ∧ a.2 = e
  | .unlessExpr, e => syn.ident a.1 = some "unless" ∧ a.2 = e

/-- An `expire` that the macro passes over. -/
def PassedOver (syn : AssignSyn E) (a : E × E) : Prop :=
  syn.ident a.1 = some "expire" ∧ syn.literal a.2 = .notLiteral

/-- The assignments, each behind a comma. -/
inductive Listed (syn : AssignSyn E) : TokenStream → List (E × E) → Prop
  | nil : Listed syn [] []
  | cons {rest rest' : TokenStream} {a : E × E} {assigns : List (E × E)} :
      syn.exprAssign rest = .ok (a, rest') → Listed syn rest' assigns →
      Listed syn (.punct ',' :: rest) (a :: assigns)

theorem readAssign_ok {syn : AssignSyn E} {a : E × E} {entry : Option (Sigma (Key.Value E))}
    (h : readAssign syn a = .ok entry) :
    (∃ k v, entry = some ⟨k, v⟩ ∧ Sets syn a k v) ∨ entry = none ∧ PassedOver syn a := by
  unfold readAssign at h
  cases hident : syn.ident a.1 with
  | none => simp only [hident, reduceCtorEq] at h
  | some name =>
    simp only [hident] at h
    split_ifs at h with hexpire hcondition hunless
    · subst hexpire
      cases hlit : syn.literal a.2 with
      | int value =>
        cases value with
        | none => simp only [hlit, reduceCtorEq] at h
        | some seconds =>
          simp only [hlit, Except.ok.injEq] at h
          exact Or.inl ⟨.expire, seconds, h.symm, hident, hlit⟩
      | other => simp only [hlit, reduceCtorEq] at h
      | notLiteral =>
        simp only [hlit, Except.ok.injEq] at h
        exact Or.inr ⟨h.symm, hident, hlit⟩
    · subst hcondition
      cases h
      exact Or.inl ⟨.condition, a.2, rfl, hident, rfl⟩
    · subst hunless
      cases h
      exact Or.inl ⟨.unlessExpr, a.2, rfl, hident, rfl⟩

theorem readAssign_sets {syn : AssignSyn E} {a : E × E} {k : Key} {v : Key.Value E k}
    (h : Sets syn a k v) : readAssign syn a = .ok (some ⟨k, v⟩) := by
  cases k with
  | expire =>
    simp only [readAssign, h.1, h.2]
    rfl
  | condition =>
    obtain ⟨hident, rfl⟩ := h
    simp only [readAssign, hident]
    rfl
  | unlessExpr =>
    obtain ⟨hident, rfl⟩ := h
    simp only [readAssign, hident]
    rfl

theorem readAssign_passedOver {syn : AssignSyn E} {a : E × E} (h : PassedOver syn a) :
    readAssign syn a = .ok none := by
  simp only [readAssign, h.1, h.2]
  rfl

theorem readAssign_some_iff {syn : AssignSyn E} {a : E × E} {k : Key} {v : Key.Value E k} :
    readAssign syn a = .ok (some ⟨k, v⟩) ↔ Sets syn a k v := by
  constructor
  · intro h
    rcases readAssign_ok h with ⟨k', v', heq, hsets⟩ | ⟨heq, _⟩
    · cases heq
      exact hsets
    · cases heq
  · exact readAssign_sets

theorem parseAssigns_cons {syn : AssignSyn E} {opts : Slots (Key.Value E)} {rest : TokenStream} :
    parseAssigns syn opts (.punct ',' :: rest) =
      match syn.exprAssign rest with
      | .error e => .error e
      | .ok (a, rest') =>
        match assign (readAssign syn) opts a with
        | .error e => .error e
        | .ok opts' => parseAssigns syn opts' rest' := by
  rw [parseAssigns]
  split
  · next hassign => rw [hassign]
  · next hassign => simp only [hassign]

theorem parseAssigns_ok_iff {syn : AssignSyn E} {opts out : Slots (Key.Value E)}
    {tokens : TokenStream} :
    parseAssigns syn opts tokens = .ok (out, []) ↔ ∃ assigns, Listed syn tokens assigns ∧
      assignAll (readAssign syn) opts assigns = .ok out := by
  constructor
  · intro h
    fun_induction parseAssigns syn opts tokens with
    | case1 opts rest e hassign => cases h
    | case2 opts rest a rest' hassign e hread => cases h
    | case3 opts rest a rest' hassign opts' hread ih =>
      obtain ⟨assigns, hlisted, hall⟩ := ih h
      refine ⟨a :: assigns, .cons hassign hlisted, ?_⟩
      rw [assignAll, List.foldlM_cons, hread]
      exact hall
    | case4 opts tokens hcomma =>
      cases h
      exact ⟨[], .nil, rfl⟩
  · intro h
    obtain ⟨assigns, hlisted, hall⟩ := h
    induction hlisted generalizing opts with
    | nil =>
      cases hall
      rw [parseAssigns]
      intro rest h
      cases h
    | @cons rest rest' a assigns hassign _ ih =>
      rw [assignAll, List.foldlM_cons] at hall
      cases hread : assign (readAssign syn) opts a with
      | error e =>
        rw [hread] at hall
        cases hall
      | ok opts' =>
        rw [hread] at hall
        simp only [parseAssigns_cons, hassign, hread]
        exact ih hall

/-- The last assignment that counts for this key gives it this value. -/
def Given (syn : AssignSyn E) (assigns : List (E × E)) (k : Key) (v : Key.Value E k) : Prop :=
  ∃ pre a post, assigns = pre ++ a :: post ∧ Sets syn a k v ∧ ∀ b ∈ post, ∀ w, ¬ Sets syn b k w

theorem last_iff_given {syn : AssignSyn E} {assigns : List (E × E)} {k : Key}
    {v : Key.Value E k} : Last (readAssign syn) assigns k v ↔ Given syn assigns k v := by
  simp only [Last, Given, readAssign_some_iff, ne_eq]

/-- The attribute is a key and then assignments, each of one of the three names, with a number for
an `expire` that is a literal. -/
theorem cacheArgs_ok_iff {syn : AssignSyn E} {tokens : TokenStream} {args : CacheArgs E} :
    parseAll (CacheArgs.parse syn) tokens = .ok args ↔ ∃ rest assigns,
      tokens = .str args.key :: rest ∧ Listed syn rest assigns ∧
        (∀ a ∈ assigns, (∃ k v, Sets syn a k v) ∨ PassedOver syn a) ∧
        ∀ k v, args.opts k = some v ↔ Given syn assigns k v := by
  have hread : ∀ a : E × E, (∃ entry, readAssign syn a = .ok entry) ↔
      (∃ k v, Sets syn a k v) ∨ PassedOver syn a := by
    intro a
    constructor
    · intro h
      obtain ⟨entry, h⟩ := h
      rcases readAssign_ok h with ⟨k, v, _, hsets⟩ | ⟨_, hpassed⟩
      · exact Or.inl ⟨k, v, hsets⟩
      · exact Or.inr hpassed
    · intro h
      rcases h with ⟨k, v, hsets⟩ | hpassed
      · exact ⟨_, readAssign_sets hsets⟩
      · exact ⟨_, readAssign_passedOver hpassed⟩
  have hassigns : ∀ rest, parseAssigns syn Assignments.empty rest = .ok (args.opts, []) ↔
      ∃ assigns, Listed syn rest assigns ∧
        (∀ a ∈ assigns, (∃ k v, Sets syn a k v) ∨ PassedOver syn a) ∧
        ∀ k v, args.opts k = some v ↔ Given syn assigns k v := by
    intro rest
    rw [parseAssigns_ok_iff]
    refine exists_congr fun assigns => and_congr_right fun _ => ?_
    rw [assignAll_ok_iff]
    simp only [hread, last_iff_given, Assignments.empty, reduceCtorEq, and_false, or_false]
  rw [parseAll_ok_iff]
  unfold CacheArgs.parse
  constructor
  · intro h
    cases tokens with
    | nil => cases h
    | cons token rest =>
      cases token with
      | str key =>
        cases hparse : parseAssigns syn Assignments.empty rest with
        | error e => simp only [litStr, hparse, reduceCtorEq] at h
        | ok r =>
          simp only [litStr, hparse, Except.ok.injEq, Prod.mk.injEq] at h
          obtain ⟨rfl, hrest⟩ := h
          have hr : r = (r.1, []) := Prod.ext rfl hrest
          rw [hr] at hparse
          obtain ⟨assigns, hshape⟩ := (hassigns rest).mp hparse
          exact ⟨rest, assigns, rfl, hshape⟩
      | _ => cases h
  · intro h
    obtain ⟨rest, assigns, rfl, hshape⟩ := h
    simp only [litStr, (hassigns rest).mpr ⟨assigns, hshape⟩]

/-! ## What is stored -/

section
variable {V A R T : Type}

/-- What the tokens of the attribute stand for. -/
structure Denotes (V E T : Type) where
  format : String → Scope V T → String
  bool : E → Scope V T → Bool

/-- The generated function: `f` with the arguments of the attribute. -/
def CacheArgs.generate (den : Denotes V E T) (args : CacheArgs E) (f : CachedFn V A R T) :
    CachedFn V A R T :=
  { f with
    key := den.format args.key
    expire := args.opts .expire
    condition := (args.opts .condition).map den.bool
    unlessExpr := (args.opts .unlessExpr).map den.bool }

theorem CachedFn.cache_writes (json : Json T) (f : CachedFn V A R T) (args : A) :
    (f.cache json args).Writes fun key _ ttl => key = f.cacheKey args ∧ ttl = f.expire := by
  have hsettle : ∀ result, (f.settle json args result).Writes
      fun key _ ttl => key = f.cacheKey args ∧ ttl = f.expire := by
    intro result
    unfold settle
    cases f.returns.value? result with
    | none => trivial
    | some value =>
      simp only
      split_ifs
      · trivial
      · cases json.toStr value with
        | none => trivial
        | some cacheValue => exact ⟨⟨rfl, rfl⟩, fun _ => trivial⟩
  rw [cache_eq]
  split_ifs
  · intro reply
    unfold answer
    cases reply.join.bind json.fromStr with
    | some value => trivial
    | none => exact fun outcome => hsettle outcome
  · exact fun outcome => trivial

/-- An entry is stored to expire after the seconds of the last `expire` that is a number.  Where
no `expire` is a number, constants and expressions included, it is stored for good. -/
theorem entries_expire_iff {syn : AssignSyn E} {tokens : TokenStream} {args : CacheArgs E}
    (h : parseAll (CacheArgs.parse syn) tokens = .ok args) :
    ∃ rest assigns, tokens = .str args.key :: rest ∧ Listed syn rest assigns ∧
      ∀ (den : Denotes V E T) (f : CachedFn V A R T) (json : Json T) (a : A),
        ((args.generate den f).cache json a).Writes fun _ _ ttl =>
          ∀ seconds, ttl = some seconds ↔ Given syn assigns .expire seconds := by
  obtain ⟨rest, assigns, htokens, hlisted, _, hgiven⟩ := cacheArgs_ok_iff.mp h
  refine ⟨rest, assigns, htokens, hlisted, fun den f json a => ?_⟩
  refine ((args.generate den f).cache_writes json a).mono fun key entry ttl hwrite seconds => ?_
  rw [hwrite.2]
  exact hgiven .expire seconds

namespace Sample

/-- Assignments of one token to another. -/
def exprAssign : Parse (Token × Token)
  | left :: .punct '=' :: right :: rest => .ok ((left, right), rest)
  | _ => .error .syn

def syn : AssignSyn Token where
  exprAssign := exprAssign
  exprAssign_lt := by
    intro tokens a rest h
    unfold exprAssign at h
    split at h
    · cases h
      simp only [List.length_cons]
      omega
    · cases h
  ident := fun
    | .ident name => some name
    | _ => none
  literal := fun
    | .lit text => .int text.toNat?
    | .str _ => .other
    | _ => .notLiteral

/-- `#[cache("todo:{id}", expire = TTL)]`. -/
def tokens : TokenStream :=
  [.str "todo:\x7bid\x7d", .punct ',', .ident "expire", .punct '=', .ident "TTL"]

def args : CacheArgs Token where
  key := "todo:\x7bid\x7d"
  opts := Assignments.empty

end Sample

/-- With `TTL` a constant, nothing that is stored expires. -/
theorem constant_never_expires :
    parseAll (CacheArgs.parse Sample.syn) Sample.tokens = .ok Sample.args ∧
      ∀ (den : Denotes ℕ Token ℕ) (f : CachedFn ℕ Unit ℕ ℕ) (json : Json ℕ),
        ((Sample.args.generate den f).cache json ()).Writes fun _ _ ttl => ttl = none := by
  have hassign : Sample.syn.exprAssign [.ident "expire", .punct '=', .ident "TTL"] =
      .ok ((.ident "expire", .ident "TTL"), []) := rfl
  have hparse : parseAll (CacheArgs.parse Sample.syn) Sample.tokens = .ok Sample.args := by
    have hassigns : parseAssigns Sample.syn Assignments.empty
        [.punct ',', .ident "expire", .punct '=', .ident "TTL"] = .ok (Assignments.empty, []) :=
      parseAssigns_ok_iff.mpr ⟨_, .cons hassign .nil, rfl⟩
    rw [parseAll_ok_iff, Sample.tokens]
    simp only [CacheArgs.parse, litStr, hassigns]
    rfl
  refine ⟨hparse, fun den f json => ?_⟩
  obtain ⟨rest, assigns, htokens, hlisted, hwrites⟩ :=
    entries_expire_iff (V := ℕ) (A := Unit) (R := ℕ) (T := ℕ) hparse
  have hassigns : assigns = [(.ident "expire", .ident "TTL")] := by
    cases htokens
    cases hlisted with
    | cons hfirst hrest =>
      cases hassign.symm.trans hfirst
      cases hrest
      rfl
  refine (hwrites den f json ()).mono fun key entry ttl httl => ?_
  refine Option.eq_none_iff_forall_not_mem.mpr fun seconds hseconds => ?_
  obtain ⟨pre, a, post, heq, hsets, _⟩ := (httl seconds).mp hseconds
  have ha : a ∈ assigns := heq ▸ List.mem_append_right _ List.mem_cons_self
  rw [hassigns, List.mem_singleton] at ha
  rw [ha] at hsets
  cases hsets.2

end

end Summer.Macros.Cache
