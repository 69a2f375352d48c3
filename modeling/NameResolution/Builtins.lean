import NameResolution.NodeId

/-!
# NameResolution.Builtins

**The types that no crate declares.** The primitive types are bound in a frame of their
own, the *prelude*, which lies beneath the crate root, so an item of the crate with the
same name comes first. The unit type, the never type and the placeholder have no name
that a path could spell; a type of that form refers to them directly.
-/

namespace NameResolution

/-- The names of the primitive types, in the order in which they get their identities. -/
def primitiveNames : List String :=
  ["bool", "char", "str", "i8", "i16", "i32", "i64", "i128", "isize", "u8", "u16", "u32", "u64",
    "u128", "usize", "f32", "f64"]

/-- The identities of the built-in types and of the prelude. -/
structure Builtins where
  primitives : List (String × NodeId)
  /-- The unit type `()`. -/
  unit : NodeId
  /-- The type `!`. -/
  never : NodeId
  /-- The placeholder `_`. -/
  inferred : NodeId
  /-- The owner of the frame that holds the primitive types. -/
  prelude : NodeId
  deriving DecidableEq, Repr

namespace Builtins

/-- Take the identities from a supply: the primitive types first, the prelude last. -/
def allocate (ids : IdSupply) : Builtins × IdSupply :=
  let (primitives, ids) := ids.freshMany primitiveNames.length
  let (unit, ids) := ids.fresh
  let (never, ids) := ids.fresh
  let (inferred, ids) := ids.fresh
  let (prelude, ids) := ids.fresh
  (⟨primitiveNames.zip primitives, unit, never, inferred, prelude⟩, ids)

/-- The primitive type of a name. -/
def primitive? (b : Builtins) (name : String) : Option NodeId := b.primitives.lookup name

/-- The types among the identities: all of them but the prelude. -/
def types (b : Builtins) : List NodeId :=
  b.primitives.map Prod.snd ++ [b.unit, b.never, b.inferred]

/-- Whether an identity is that of a built-in type. -/
def isBuiltin (b : Builtins) (id : NodeId) : Bool := decide (id ∈ b.types)

end Builtins

end NameResolution
