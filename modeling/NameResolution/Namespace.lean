/-!
# NameResolution.Namespace

**The two namespaces.** A name and a type may be spelled alike without clashing,
because each namespace has a symbol table of its own.
-/

namespace NameResolution

/-- Which of the two symbol tables a declaration lives in. -/
inductive Namespace
  /-- Values, functions, modules, constants and locals. -/
  | name
  /-- Structs, enums, unions, traits, aliases and type parameters. -/
  | type
  deriving DecidableEq, Repr, Inhabited

namespace Namespace

/-- The word that messages use for the namespace. -/
def text : Namespace → String
  | name => "name"
  | type => "type"

/-- The namespace that is not this one. -/
def other : Namespace → Namespace
  | name => type
  | type => name

end Namespace

end NameResolution
