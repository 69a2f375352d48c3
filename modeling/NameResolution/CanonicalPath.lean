import NameResolution.NodeId

/-!
# NameResolution.CanonicalPath

**Fully qualified names of declarations.** A canonical path lists the segments under
which a declaration is reached, outermost first, each with the identity of the node
that contributed it. The crate root is the empty path.

Two paths count as the same name when their segment *texts* agree (`SameText`); the
identities are only carried along. That is what lets a use, whose segments have
identities of their own, find the binding made by a declaration.
-/

namespace NameResolution

/-- The segments of a fully qualified name, outermost first. -/
structure CanonicalPath where
  segments : List (NodeId × String)
  deriving DecidableEq, Repr, Inhabited

namespace CanonicalPath

/-- The name of the crate root. -/
def empty : CanonicalPath := ⟨[]⟩

/-- A name of one segment. -/
def single (id : NodeId) (text : String) : CanonicalPath := ⟨[(id, text)]⟩

/-- The segments of one path followed by those of another. -/
def append (p q : CanonicalPath) : CanonicalPath := ⟨p.segments ++ q.segments⟩

instance : Append CanonicalPath := ⟨append⟩

/-- The segment texts, which decide whether two paths are the same name. -/
def texts (p : CanonicalPath) : List String := p.segments.map Prod.snd

/-- The written form, segments joined by `::`. -/
def text (p : CanonicalPath) : String := String.intercalate "::" p.texts

/-- The one segment under which the items of a trait implementation are registered,
`<selfType as trait>`. -/
def projection (id : NodeId) (traitPath selfType : CanonicalPath) : CanonicalPath :=
  single id ("<" ++ selfType.text ++ " as " ++ traitPath.text ++ ">")

/-- Whether this is the name of the crate root. -/
def isEmpty (p : CanonicalPath) : Bool := p.segments.isEmpty

/-- The number of segments. -/
def size (p : CanonicalPath) : Nat := p.segments.length

/-- The segment at a position, counted from the outermost. -/
def get? (p : CanonicalPath) (index : Nat) : Option (NodeId × String) := p.segments[index]?

/-- The identity of the innermost segment. -/
def nodeId? (p : CanonicalPath) : Option NodeId := p.segments.getLast?.map Prod.fst

/-- The path with its innermost segment replaced by `f` of it. -/
def mapLast (f : NodeId × String → NodeId × String) (p : CanonicalPath) : CanonicalPath :=
  match p.segments.getLast? with
  | none => p
  | some last => ⟨p.segments.dropLast ++ [f last]⟩

/-- Two paths are the same name when their segment texts agree. -/
def SameText (p q : CanonicalPath) : Prop := p.texts = q.texts

instance (p q : CanonicalPath) : Decidable (p.SameText q) :=
  inferInstanceAs (Decidable (p.texts = q.texts))

@[simp] theorem segments_append (p q : CanonicalPath) :
    (p ++ q).segments = p.segments ++ q.segments := rfl

@[simp] theorem texts_append (p q : CanonicalPath) : (p ++ q).texts = p.texts ++ q.texts :=
  List.map_append

theorem append_empty (p : CanonicalPath) : p ++ empty = p := congrArg mk (List.append_nil _)

theorem append_assoc (p q r : CanonicalPath) : p ++ q ++ r = p ++ (q ++ r) :=
  congrArg mk (List.append_assoc _ _ _)

@[simp] theorem texts_empty : empty.texts = [] := rfl

@[simp] theorem texts_single (id : NodeId) (t : String) : (single id t).texts = [t] := rfl

@[simp] theorem text_single (id : NodeId) (t : String) : (single id t).text = t :=
  String.intercalate_singleton

end CanonicalPath

end NameResolution
