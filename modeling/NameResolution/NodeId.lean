/-!
# NameResolution.NodeId

**Identities and places.** Every node of a syntax tree has an identity of its own
(`NodeId`) and a place in the text it was read from (`Span`); the pair is a `Node`.
Identities are handed out in increasing order by an `IdSupply`, so no identity is
handed out twice and every one handed out lies below the supply's `bound`.
-/

namespace NameResolution

/-- Identity of a node of the syntax tree; every table the resolver fills is keyed by it. -/
structure NodeId where
  value : Nat
  deriving DecidableEq, Repr, Inhabited

namespace NodeId

/-- The form in which messages show an identity, such as `#5`. -/
def text (id : NodeId) : String :=
  "#" ++ toString id.value

end NodeId

/-- A stretch of the source text: where it starts, and how long it is. -/
structure Span where
  offset : Nat
  length : Nat
  deriving DecidableEq, Repr, Inhabited

/-- The identity of a tree node together with its place in the text. -/
structure Node where
  id : NodeId
  span : Span
  deriving DecidableEq, Repr, Inhabited

/-- The identities that are still unused: all those from `next` on. -/
structure IdSupply where
  next : Nat
  deriving DecidableEq, Repr, Inhabited

namespace IdSupply

/-- The supply from which nothing has been taken. -/
def full : IdSupply := ⟨0⟩

/-- The supply that continues past the identities below `bound`. -/
def startingAt (bound : NodeId) : IdSupply := ⟨bound.value⟩

/-- The first identity that has not been handed out. -/
def bound (s : IdSupply) : NodeId := ⟨s.next⟩

/-- Hand out the first unused identity. -/
def fresh (s : IdSupply) : NodeId × IdSupply := (s.bound, ⟨s.next + 1⟩)

/-- Hand out `n` identities, in increasing order. -/
def freshMany (s : IdSupply) (n : Nat) : List NodeId × IdSupply :=
  ((List.range n).map fun i => ⟨s.next + i⟩, ⟨s.next + n⟩)

@[simp] theorem bound_startingAt (b : NodeId) : (startingAt b).bound = b := rfl

@[simp] theorem fresh_fst (s : IdSupply) : s.fresh.1 = s.bound := rfl

@[simp] theorem fresh_snd_next (s : IdSupply) : s.fresh.2.next = s.next + 1 := rfl

end IdSupply

end NameResolution
