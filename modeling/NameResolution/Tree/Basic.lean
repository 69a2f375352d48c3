import NameResolution.NodeId

/-!
# NameResolution.Tree.Basic

**Paths, types and expressions.** These forms refer to each other: a path segment has
generic arguments, which are types; an array type has a size, which is an expression; an
expression may cast to a type. They are therefore one mutual family, and every function
over them is one mutual recursion with a companion for each list of parts.

A node of the tree carries its identity and place as a `Node`. Identifiers (`Ident`),
argument lists and where clauses have a place but no identity.
-/

namespace NameResolution

/-- A name as it stands in the text. -/
structure Ident where
  name : String
  span : Span
  deriving DecidableEq, Repr, Inhabited

/-- How far a declaration can be seen. -/
inductive Visibility
  /-- The declaring module and everything nested in it. -/
  | ownModule
  /-- Everywhere (`pub`). -/
  | everywhere
  /-- Everywhere in the crate (`pub(crate)`). -/
  | ownCrate
  /-- The parent of the declaring module and everything nested in it (`pub(super)`). -/
  | parentModule
  deriving DecidableEq, Repr, Inhabited

/-- A double-precision number, given by its bit pattern so that it can be compared. -/
structure Binary64 where
  bits : UInt64
  deriving DecidableEq, Repr, Inhabited

/-- A literal value. -/
inductive Literal
  | int (value : Int)
  | float (value : Binary64)
  | bool (value : Bool)
  | char (value : Char)
  | str (value : String)
  deriving DecidableEq, Repr

/-- What a single path segment names. -/
inductive PathIdent
  | ident (name : String)
  /-- The keyword `crate`, naming the crate root. -/
  | crate
  /-- The keyword `super`, naming the parent module. -/
  | super
  /-- The keyword `self` in a path, naming the current module. -/
  | selfModule
  /-- A segment that could not be read. -/
  | malformed
  deriving DecidableEq, Repr, Inhabited

inductive UnaryOp
  | neg
  | not
  | deref
  deriving DecidableEq, Repr

inductive BinaryOp
  | add | sub | mul | div | rem
  | and | or
  | eq | ne | lt | le | gt | ge
  deriving DecidableEq, Repr

/-- What a pattern binds. -/
inductive Pattern
  | binding (node : Node) (name : Ident) (mutable : Bool)
  | tuple (node : Node) (elems : List Pattern)
  | wildcard (node : Node)

mutual

/-- A path such as `crate::a::B<T>`, in a type, a bound or an expression. -/
structure Path where
  node : Node
  segments : List PathSegment

structure PathSegment where
  node : Node
  ident : PathIdent
  generics : Option GenericArgs

/-- The arguments `<A, B>` attached to a path segment. -/
structure GenericArgs where
  types : List Ty
  span : Span

/-- A type as written. -/
inductive Ty
  | path (node : Node) (path : Path)
  | qualified (node : Node) (path : QualifiedPath)
  /-- A tuple type; without elements it is the unit type `()`. -/
  | tuple (node : Node) (elems : List Ty)
  | array (node : Node) (elem : Ty) (size : Expr)
  | slice (node : Node) (elem : Ty)
  | reference (node : Node) (mutable : Bool) (inner : Ty)
  | pointer (node : Node) (mutable : Bool) (inner : Ty)
  /-- A trait object `dyn A` with a single bound. -/
  | dynOne (node : Node) (bound : TraitBound)
  /-- A trait object `dyn A + B + 'a`. -/
  | dyn (node : Node) (bounds : List Bound)
  | fnPointer (node : Node) (params : List FnPointerParam) (ret : Option Ty)
  /-- The placeholder `_`. -/
  | inferred (node : Node)
  /-- The type `!` without values. -/
  | never (node : Node)

/-- A path `<T as Trait>::Assoc::More`, which starts from a type. -/
structure QualifiedPath where
  node : Node
  qualifier : Qualifier
  /-- The segment that has to follow the qualifier. -/
  associated : PathSegment
  /-- The segments after it. -/
  rest : List PathSegment

/-- The head `<T as Trait>`, or `<T>`, of a qualified path. -/
structure Qualifier where
  node : Node
  selfTy : Ty
  asTrait : Option Path

structure TraitBound where
  node : Node
  path : Path

/-- One bound of a type parameter. -/
inductive Bound
  | trait (bound : TraitBound)
  | lifetime (name : Ident)

structure FnPointerParam where
  id : NodeId
  name : Option Ident
  ty : Ty

inductive Expr
  | literal (node : Node) (value : Literal)
  | path (node : Node) (path : Path)
  | unary (node : Node) (op : UnaryOp) (operand : Expr)
  | binary (node : Node) (op : BinaryOp) (lhs rhs : Expr)
  | call (node : Node) (callee : Expr) (args : List Expr)
  | cast (node : Node) (operand : Expr) (ty : Ty)
  | tuple (node : Node) (elems : List Expr)
  | group (node : Node) (inner : Expr)
  | block (node : Node) (body : Block)

structure Block where
  node : Node
  stmts : List Stmt
  tail : Option Expr

inductive Stmt
  | bind (node : Node) (pattern : Pattern) (ty : Option Ty) (init : Option Expr)
  | expr (node : Node) (value : Expr)
  | empty (node : Node)

end

namespace Pattern

/-- The pattern under another identity. -/
def withId (id : NodeId) : Pattern → Pattern
  | binding n name m => binding { n with id } name m
  | tuple n elems => tuple { n with id } elems
  | wildcard n => wildcard { n with id }

end Pattern

namespace PathIdent

/-- The segment name as written; a segment that could not be read has a stand-in. -/
def text : PathIdent → String
  | ident name => name
  | crate => "crate"
  | super => "super"
  | selfModule => "self"
  | malformed => "<error>"

/-- The segment that a written word stands for: a keyword or a plain name. -/
def ofWord (word : String) : PathIdent :=
  if word = "crate" then crate
  else if word = "super" then super
  else if word = "self" then selfModule
  else ident word

end PathIdent

/-- The types given as arguments; a missing list counts as an empty one. -/
def PathSegment.args (s : PathSegment) : List Ty :=
  match s.generics with
  | none => []
  | some g => g.types

/-- Whether any generic argument is given. An empty argument list does not count. -/
def PathSegment.hasArgs (s : PathSegment) : Bool := !s.args.isEmpty

/-- Whether the path consists of exactly one segment. -/
def Path.isSingle (p : Path) : Bool := p.segments.length == 1

namespace Ty

/-- The identity and place of a type. -/
def node : Ty → Node
  | path n _ | qualified n _ | tuple n _ | array n _ _ | slice n _ | reference n _ _
  | pointer n _ _ | dynOne n _ | dyn n _ | fnPointer n _ _ | inferred n | never n => n

/-- Whether this is the unit type `()`. -/
def isUnit : Ty → Bool
  | tuple _ [] => true
  | _ => false

end Ty

end NameResolution
