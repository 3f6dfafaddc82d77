/-
What the attribute macros of `summer-macros` see of a program.

Arguments of attributes are token streams, as `syn` hands them over: a group of tokens in
brackets is one token, and its content is not looked into.  `syn`'s own parsers of
expressions and of lists of metas are parameters (`Syn`); the parsers that the crate builds
from them are not.
-/
import Mathlib.Data.List.Basic

namespace Summer.Macros

inductive Token
  | ident (name : String)
  | str (value : String)
  | lit (text : String)
  | punct (c : Char)
  | group (content : String)
deriving DecidableEq, Repr

abbrev TokenStream := List Token

/-- `cursor().literal().is_some()`. -/
def literalNext : TokenStream → Bool
  | .str _ :: _ => true
  | .lit _ :: _ => true
  | _ => false

/-- The path of an attribute, which has no generic arguments. -/
structure Path where
  leadingColon : Bool
  segments : List String
deriving DecidableEq, Repr

namespace Path

def ident (name : String) : Path where
  leadingColon := false
  segments := [name]

theorem ident_inj {name name' : String} : Path.ident name = .ident name' ↔ name = name' := by
  simp [ident]

def isIdent (p : Path) (name : String) : Bool :=
  !p.leadingColon && decide (p.segments = [name])

theorem isIdent_iff {p : Path} {name : String} : p.isIdent name = true ↔ p = .ident name := by
  cases p with
  | mk leadingColon segments => simp [isIdent, ident]

end Path

/-- The value of `name = value`: a string literal or another expression. -/
inductive MetaValue
  | str (value : String)
  | other (text : String)
deriving DecidableEq, Repr

inductive Meta
  | path (p : Path)
  | list (p : Path) (tokens : TokenStream)
  | nameValue (p : Path) (value : MetaValue)
deriving DecidableEq, Repr

namespace Meta

def thePath : Meta → Path
  | .path p => p
  | .list p _ => p
  | .nameValue p _ => p

end Meta

structure Attribute where
  content : Meta
deriving DecidableEq, Repr

def Attribute.path (attr : Attribute) : Path := attr.content.thePath

/-- The errors a macro reports: `syn`'s own, the crate's messages, and the two combined. -/
inductive MacroError
  | syn
  | message (text : String)
  | combine (first second : MacroError)
deriving DecidableEq, Repr

/-- The parsers of `syn`.  `parseExprs` is `Punctuated::<Expr, Token![,]>::parse_terminated`
and `parseMetas` the same for `Meta`; both read the stream to its end.  `isExprPath` and
`isPath` say what `parse_str` accepts as an `ExprPath` and as a `Path`, and `pathText` is how
the tokens of a path are printed. -/
structure Syn (E : Type) where
  parseExprs : TokenStream → Option (List E)
  parseMetas : TokenStream → Option (List Meta)
  isExprPath : String → Bool
  isPath : String → Bool
  pathText : Path → String

/-- A parser reads from the front of the stream and leaves the rest. -/
abbrev Parse (α : Type) := TokenStream → Except MacroError (α × TokenStream)

/-- `syn::parse`: the parser must read the whole stream. -/
def parseAll {α : Type} (parse : Parse α) (tokens : TokenStream) : Except MacroError α :=
  match parse tokens with
  | .error e => .error e
  | .ok (a, []) => .ok a
  | .ok (_, _ :: _) => .error .syn

/-- `attr.parse_args()`: an attribute without a list of arguments is an error. -/
def Attribute.parseArgs {α : Type} (parse : Parse α) (attr : Attribute) : Except MacroError α :=
  match attr.content with
  | .list _ tokens => parseAll parse tokens
  | .path _ => .error .syn
  | .nameValue _ _ => .error .syn

/-- Words that `input.parse::<Ident>()` rejects. -/
def keywords : List String :=
  ["_", "abstract", "as", "async", "await", "become", "box", "break", "const", "continue",
    "crate", "do", "dyn", "else", "enum", "extern", "false", "final", "fn", "for", "if", "impl",
    "in", "let", "loop", "macro", "match", "mod", "move", "mut", "override", "priv", "pub", "ref",
    "return", "Self", "self", "static", "struct", "super", "trait", "true", "try", "type",
    "typeof", "unsafe", "unsized", "use", "virtual", "where", "while", "yield"]

/-- `input.parse::<LitStr>()`. -/
def litStr : Parse String
  | .str value :: rest => .ok (value, rest)
  | _ => .error .syn

/-- A function item: what the macros read of it, the body and the types apart. -/
structure ItemFn where
  ident : String
  attrs : List Attribute
  isAsync : Bool
  hasReturnType : Bool
deriving DecidableEq, Repr

theorem parseAll_ok_iff {α : Type} {parse : Parse α} {tokens : TokenStream} {a : α} :
    parseAll parse tokens = .ok a ↔ parse tokens = .ok (a, []) := by
  unfold parseAll
  split
  · next h => simp [h]
  · next h => simp [h]
  · next h => simp [h]

theorem Attribute.parseArgs_ok_iff {α : Type} {parse : Parse α} {attr : Attribute} {a : α} :
    attr.parseArgs parse = .ok a ↔
      ∃ p tokens, attr.content = .list p tokens ∧ parse tokens = .ok (a, []) := by
  unfold parseArgs
  cases attr.content with
  | list p tokens =>
      simp only [parseAll_ok_iff, Meta.list.injEq]
      constructor
      · intro h
        exact ⟨p, tokens, ⟨rfl, rfl⟩, h⟩
      · intro h
        obtain ⟨_, _, ⟨_, rfl⟩, h⟩ := h
        exact h
  | path p => simp
  | nameValue p value => simp

theorem litStr_ok_iff {tokens : TokenStream} {value : String} :
    litStr tokens = .ok (value, []) ↔ tokens = [.str value] := by
  unfold litStr
  split
  · simp
  · next h => simp only [reduceCtorEq, false_iff]; exact fun heq => h value [] heq

end Summer.Macros
