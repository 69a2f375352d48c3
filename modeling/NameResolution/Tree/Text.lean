import NameResolution.Tree.Basic
import NameResolution.Text.Quoted
import NameResolution.Decimal.Shortest

/-!
# NameResolution.Tree.Text

**The written form of paths, types and expressions.** The resolver relies on it: the
generic arguments of an implementation header enter its canonical path in their written
form (`canonicalArgs`), not by what they resolve to.

The written form forgets identities, places and empty argument lists, and writes a trait
object with one bound in one way only.
-/

namespace NameResolution

namespace UnaryOp

/-- The operator as written. -/
def text : UnaryOp → String
  | neg => "-"
  | not => "!"
  | deref => "*"

end UnaryOp

namespace BinaryOp

/-- The operator as written. -/
def text : BinaryOp → String
  | add => "+"
  | sub => "-"
  | mul => "*"
  | div => "/"
  | rem => "%"
  | and => "&&"
  | or => "||"
  | eq => "=="
  | ne => "!="
  | lt => "<"
  | le => "<="
  | gt => ">"
  | ge => ">="

end BinaryOp

/-- A literal as written: numbers in decimal, characters and strings quoted. -/
def Literal.text : Literal → String
  | int value => toString value
  | float value => value.text
  | bool value => if value then "true" else "false"
  | char value => Quoted.char value
  | str value => Quoted.string value

mutual

/-- A pattern as written. -/
def Pattern.text : Pattern → String
  | .binding _ name mutable => (if mutable then "mut " else "") ++ name.name
  | .tuple _ elems => "(" ++ String.intercalate ", " (patternTexts elems) ++ ")"
  | .wildcard _ => "_"

/-- The written forms of a list of patterns. -/
def patternTexts : List Pattern → List String
  | [] => []
  | p :: ps => p.text :: patternTexts ps

end

mutual

/-- A path as written, segments joined by `::`. -/
def Path.text : Path → String
  | ⟨_, segments⟩ => String.intercalate "::" (segmentTexts segments)

/-- The written forms of a list of segments. -/
def segmentTexts : List PathSegment → List String
  | [] => []
  | s :: rest => s.text :: segmentTexts rest

/-- A segment as written; an empty argument list is left out. -/
def PathSegment.text : PathSegment → String
  | ⟨_, ident, none⟩ => ident.text
  | ⟨_, ident, some args⟩ =>
    match args with
    | ⟨[], _⟩ => ident.text
    | args => ident.text ++ args.text

/-- An argument list as written. -/
def GenericArgs.text : GenericArgs → String
  | ⟨types, _⟩ => "<" ++ String.intercalate ", " (tyTexts types) ++ ">"

/-- The written forms of a list of types. -/
def tyTexts : List Ty → List String
  | [] => []
  | t :: ts => t.text :: tyTexts ts

/-- A type as written. A tuple of one element keeps its comma. -/
def Ty.text : Ty → String
  | .path _ p => p.text
  | .qualified _ p => p.text
  | .tuple _ [t] => "(" ++ t.text ++ ",)"
  | .tuple _ elems => "(" ++ String.intercalate ", " (tyTexts elems) ++ ")"
  | .array _ elem size => "[" ++ elem.text ++ "; " ++ size.text ++ "]"
  | .slice _ elem => "[" ++ elem.text ++ "]"
  | .reference _ mutable inner => (if mutable then "&mut " else "&") ++ inner.text
  | .pointer _ mutable inner => (if mutable then "*mut " else "*const ") ++ inner.text
  | .dynOne _ bound => "dyn " ++ bound.text
  | .dyn _ bounds => "dyn " ++ String.intercalate " + " (boundTexts bounds)
  | .fnPointer _ params none => "fn(" ++ String.intercalate ", " (paramTexts params) ++ ")"
  | .fnPointer _ params (some ret) =>
    "fn(" ++ String.intercalate ", " (paramTexts params) ++ ") -> " ++ ret.text
  | .inferred _ => "_"
  | .never _ => "!"

/-- A path that starts from a type, as written. -/
def QualifiedPath.text : QualifiedPath → String
  | ⟨_, qualifier, associated, rest⟩ =>
    String.intercalate "::" (qualifier.text :: associated.text :: segmentTexts rest)

/-- The head of a qualified path, as written. -/
def Qualifier.text : Qualifier → String
  | ⟨_, selfTy, none⟩ => "<" ++ selfTy.text ++ ">"
  | ⟨_, selfTy, some asTrait⟩ => "<" ++ selfTy.text ++ " as " ++ asTrait.text ++ ">"

/-- A trait bound as written. -/
def TraitBound.text : TraitBound → String
  | ⟨_, path⟩ => path.text

/-- A bound as written. -/
def Bound.text : Bound → String
  | .trait bound => bound.text
  | .lifetime name => name.name

/-- The written forms of a list of bounds. -/
def boundTexts : List Bound → List String
  | [] => []
  | b :: bs => b.text :: boundTexts bs

/-- The written forms of the parameters of a function pointer, which are their types. -/
def paramTexts : List FnPointerParam → List String
  | [] => []
  | ⟨_, _, ty⟩ :: ps => ty.text :: paramTexts ps

/-- An expression as written. No parentheses are added, since grouping is a node of its own. -/
def Expr.text : Expr → String
  | .literal _ value => value.text
  | .path _ p => p.text
  | .unary _ op operand => op.text ++ operand.text
  | .binary _ op lhs rhs => lhs.text ++ " " ++ op.text ++ " " ++ rhs.text
  | .call _ callee args => callee.text ++ "(" ++ String.intercalate ", " (exprTexts args) ++ ")"
  | .cast _ operand ty => operand.text ++ " as " ++ ty.text
  | .tuple _ elems => "(" ++ String.intercalate ", " (exprTexts elems) ++ ")"
  | .group _ inner => "(" ++ inner.text ++ ")"
  | .block _ body => body.text

/-- The written forms of a list of expressions. -/
def exprTexts : List Expr → List String
  | [] => []
  | e :: es => e.text :: exprTexts es

/-- A block as written, on one line. -/
def Block.text : Block → String
  | ⟨_, stmts, none⟩ => "\x7b " ++ stmtsText stmts ++ "\x7d"
  | ⟨_, stmts, some tail⟩ => "\x7b " ++ stmtsText stmts ++ tail.text ++ " \x7d"

/-- The statements of a block as written, each followed by a blank. -/
def stmtsText : List Stmt → String
  | [] => ""
  | s :: rest => s.text ++ "; " ++ stmtsText rest

/-- A statement as written, without the semicolon that ends it. -/
def Stmt.text : Stmt → String
  | .bind _ pattern none none => "let " ++ pattern.text
  | .bind _ pattern (some ty) none => "let " ++ pattern.text ++ ": " ++ ty.text
  | .bind _ pattern none (some init) => "let " ++ pattern.text ++ " = " ++ init.text
  | .bind _ pattern (some ty) (some init) =>
    "let " ++ pattern.text ++ ": " ++ ty.text ++ " = " ++ init.text
  | .expr _ value => value.text
  | .empty _ => ""

end

/-- The form in which generic arguments enter a canonical path: their written forms, joined by
bare commas. -/
def canonicalArgs (types : List Ty) : String :=
  "<" ++ String.intercalate "," (tyTexts types) ++ ">"

/-- A segment as it enters a canonical path, with its generic arguments or without. -/
def PathSegment.canonicalText (s : PathSegment) (withArgs : Bool) : String :=
  if withArgs && s.hasArgs then s.ident.text ++ "::" ++ canonicalArgs s.args else s.ident.text

end NameResolution
