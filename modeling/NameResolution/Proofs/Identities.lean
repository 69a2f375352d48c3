import Mathlib.Data.List.Perm.Basic
import NameResolution.Tables
import NameResolution.Tree.NodeIds

/-!
# NameResolution.Proofs.Identities

**Which pass works on which identities.** The first pass works on the nodes that declare
something or hold declarations (`Item.declaredIds`): the modules (`Item.moduleIds`), whose
ribs it fills, and all other items and members (`Item.entryIds`). Everything else belongs
to the second pass (`Item.bodyIds`).

The three are a partition of the identities of a tree (`Item.nodeIds_perm`), so in a
well-formed crate no node is worked on by both passes, and no rib of a module is taken for
the frame of another item.

What is collected over a tree mostly tells modules from everything else. So do the proofs
about it, by `items_induction`.
-/

namespace NameResolution

/-! ### Members -/

/-- The identities of the parts of a variant. -/
def Variant.bodyIds (v : Variant) : List NodeId :=
  match v.kind with
  | .unit => []
  | .tuple fields => fields.flatMap TupleField.nodeIds
  | .record fields => fields.flatMap NamedField.nodeIds
  | .discriminant value => value.nodeIds

/-- The identities of the parts of an implementation item. -/
def ImplItem.bodyIds (i : ImplItem) : List NodeId :=
  match i.kind with
  | .function f => f.nodeIds
  | .const c => c.nodeIds
  | .typeAlias a => a.nodeIds

/-- The identities of the parts of a trait item. -/
def TraitItem.bodyIds (i : TraitItem) : List NodeId :=
  match i.kind with
  | .function f => f.nodeIds
  | .const c => c.nodeIds
  | .type t => boundsNodeIds t.bounds

/-- The identities of the parts of an extern item. -/
def ForeignItem.bodyIds (i : ForeignItem) : List NodeId :=
  match i.kind with
  | .function f => f.nodeIds
  | .static _ _ ty => ty.nodeIds

/-! ### Items -/

/-- The identities of the members that an item declares besides itself, those of a nested module
left out. -/
def ItemKind.memberIds : ItemKind → List NodeId
  | .enum e => e.variants.map (·.node.id)
  | .trait t => t.items.map (·.node.id)
  | .inherentImpl i => i.items.map (·.node.id)
  | .traitImpl i => i.items.map (·.node.id)
  | .foreign b => b.items.map (·.node.id)
  | _ => []

mutual

/-- The identities that the first pass works on. -/
def Item.declaredIds : Item → List NodeId
  | ⟨n, _, kind⟩ => n.id :: kind.declaredIds

def ItemKind.declaredIds : ItemKind → List NodeId
  | .module _ items => itemsDeclaredIds items
  | kind => kind.memberIds

def itemsDeclaredIds : List Item → List NodeId
  | [] => []
  | i :: rest => i.declaredIds ++ itemsDeclaredIds rest

end

mutual

/-- The identities of the modules that an item is or holds. -/
def Item.moduleIds : Item → List NodeId
  | ⟨n, _, .module _ items⟩ => n.id :: itemsModuleIds items
  | _ => []

def itemsModuleIds : List Item → List NodeId
  | [] => []
  | i :: rest => i.moduleIds ++ itemsModuleIds rest

end

mutual

/-- The modules, enums and traits that an item is or holds. -/
def Item.containers : Item → List (NodeId × ContainerKind)
  | ⟨n, _, .module _ items⟩ => (n.id, .module) :: itemsContainers items
  | ⟨n, _, .enum _⟩ => [(n.id, .enum)]
  | ⟨n, _, .trait _⟩ => [(n.id, .trait)]
  | _ => []

def itemsContainers : List Item → List (NodeId × ContainerKind)
  | [] => []
  | i :: rest => i.containers ++ itemsContainers rest

end

mutual

/-- The identities that the first pass works on and that are not those of modules. -/
def Item.entryIds : Item → List NodeId
  | ⟨_, _, .module _ items⟩ => itemsEntryIds items
  | ⟨n, _, kind⟩ => n.id :: kind.memberIds

def itemsEntryIds : List Item → List NodeId
  | [] => []
  | i :: rest => i.entryIds ++ itemsEntryIds rest

end

mutual

/-- The identities that only the second pass works on. -/
def Item.bodyIds : Item → List NodeId
  | ⟨_, _, kind⟩ => kind.bodyIds

def ItemKind.bodyIds : ItemKind → List NodeId
  | .module _ items => itemsBodyIds items
  | .typeAlias a => a.nodeIds
  | .struct s => s.generics.nodeIds ++ s.fields.flatMap NamedField.nodeIds
  | .tupleStruct s => s.generics.nodeIds ++ s.fields.flatMap TupleField.nodeIds
  | .enum e => e.generics.nodeIds ++ e.variants.flatMap Variant.bodyIds
  | .union u => u.generics.nodeIds ++ u.fields.flatMap NamedField.nodeIds
  | .static s => s.ty.nodeIds ++ optionalIds Expr.nodeIds s.init
  | .const c => c.nodeIds
  | .function f => f.nodeIds
  | .inherentImpl i => i.generics.nodeIds ++ i.selfTy.nodeIds ++ i.items.flatMap ImplItem.bodyIds
  | .traitImpl i =>
    i.generics.nodeIds ++ i.traitPath.nodeIds ++ i.selfTy.nodeIds
      ++ i.items.flatMap ImplItem.bodyIds
  | .trait t =>
    t.generics.nodeIds ++ boundsNodeIds t.supertraits ++ t.items.flatMap TraitItem.bodyIds
  | .foreign b => b.items.flatMap ForeignItem.bodyIds

def itemsBodyIds : List Item → List NodeId
  | [] => []
  | i :: rest => i.bodyIds ++ itemsBodyIds rest

end

/-! ### Items one after the other -/

/-- Items are gone through one after the other, each module with the items inside it. All that is
known of any other item is that it is no module. -/
@[elab_as_elim]
theorem items_induction {motive : List Item → Prop} (nil : motive [])
    (module : ∀ node vis name items rest, motive items → motive rest →
      motive (⟨node, vis, .module name items⟩ :: rest))
    (flat : ∀ node vis kind rest, (∀ name items, kind ≠ .module name items) → motive rest →
      motive (⟨node, vis, kind⟩ :: rest)) : ∀ items, motive items
  | [] => nil
  | ⟨node, vis, kind⟩ :: rest => by
      have hrest : motive rest := items_induction nil module flat rest
      cases kind with
      | module name items =>
          exact module node vis name items rest (items_induction nil module flat items) hrest
      | _ => exact flat node vis _ rest (by simp) hrest

section Flat

variable {node : Node} {vis : Visibility} {kind : ItemKind}
  (hflat : ∀ name items, kind ≠ .module name items)

include hflat

theorem Item.declaredIds_flat :
    Item.declaredIds ⟨node, vis, kind⟩ = node.id :: kind.memberIds := by
  cases kind with
  | module name items => exact absurd rfl (hflat name items)
  | _ => rfl

theorem Item.moduleIds_flat : Item.moduleIds ⟨node, vis, kind⟩ = [] := by
  cases kind with
  | module name items => exact absurd rfl (hflat name items)
  | _ => rfl

theorem Item.entryIds_flat : Item.entryIds ⟨node, vis, kind⟩ = node.id :: kind.memberIds := by
  cases kind with
  | module name items => exact absurd rfl (hflat name items)
  | _ => rfl

end Flat

/-! ### The partition -/

/-- Members first and their parts after them. -/
private theorem flatMap_perm {α : Type} (l : List α) (id : α → NodeId) (body : α → List NodeId) :
    List.Perm (l.flatMap fun a => id a :: body a) (l.map id ++ l.flatMap body) :=
  (List.map_append_flatMap_perm l id body).symm

/-- Parts that come before the members can be moved behind them. -/
private theorem perm_of_tail {head tail left right : List NodeId}
    (h : List.Perm tail (left ++ right)) : List.Perm (head ++ tail) (left ++ (head ++ right)) := by
  refine (h.append_left head).trans ?_
  rw [← List.append_assoc, ← List.append_assoc]
  exact List.perm_append_comm.append_right right

/-- Two interleaved partitions. -/
private theorem perm_append_four {a₁ a₂ b₁ b₂ c₁ c₂ : List NodeId}
    (h₁ : List.Perm a₁ (b₁ ++ c₁)) (h₂ : List.Perm a₂ (b₂ ++ c₂)) :
    List.Perm (a₁ ++ a₂) (b₁ ++ b₂ ++ (c₁ ++ c₂)) := by
  refine (h₁.append h₂).trans ?_
  rw [List.append_assoc, List.append_assoc]
  refine List.Perm.append_left b₁ ?_
  rw [← List.append_assoc, ← List.append_assoc]
  exact List.perm_append_comm.append_right c₂

mutual

/-- Every identity of an item is worked on by exactly one of the passes. -/
theorem Item.nodeIds_perm : ∀ item : Item,
    List.Perm item.nodeIds (item.declaredIds ++ item.bodyIds)
  | ⟨n, _, kind⟩ => by
      simp only [Item.nodeIds, Item.declaredIds, Item.bodyIds, List.cons_append]
      exact (ItemKind.nodeIds_perm kind).cons n.id

theorem ItemKind.nodeIds_perm : ∀ kind : ItemKind,
    List.Perm kind.nodeIds (kind.declaredIds ++ kind.bodyIds)
  | .module _ items => by
      simp only [ItemKind.nodeIds, ItemKind.declaredIds, ItemKind.bodyIds]
      exact itemsNodeIds_perm items
  -- What comes before the members, such as generics, is left to the second pass.
  | .enum e => perm_of_tail (flatMap_perm e.variants _ Variant.bodyIds)
  | .trait t => perm_of_tail (flatMap_perm t.items _ TraitItem.bodyIds)
  | .inherentImpl i => perm_of_tail (flatMap_perm i.items _ ImplItem.bodyIds)
  | .traitImpl i => perm_of_tail (flatMap_perm i.items _ ImplItem.bodyIds)
  | .foreign b => flatMap_perm b.items _ ForeignItem.bodyIds
  | .typeAlias _ | .struct _ | .tupleStruct _ | .union _ | .static _ | .const _ | .function _ =>
      List.Perm.refl _

theorem itemsNodeIds_perm : ∀ items : List Item,
    List.Perm (itemsNodeIds items) (itemsDeclaredIds items ++ itemsBodyIds items)
  | [] => List.Perm.refl _
  | item :: rest => by
      simp only [itemsNodeIds, itemsDeclaredIds, itemsBodyIds]
      exact perm_append_four (Item.nodeIds_perm item) (itemsNodeIds_perm rest)

end

/-- What the first pass works on are the modules and the other declarations. -/
theorem itemsDeclaredIds_perm (items : List Item) :
    List.Perm (itemsDeclaredIds items) (itemsModuleIds items ++ itemsEntryIds items) := by
  induction items using items_induction with
  | nil => exact List.Perm.refl _
  | module node vis name items rest ihInside ih =>
      exact perm_append_four (ihInside.cons node.id) ih
  | flat node vis kind rest hflat ih =>
      simp only [itemsDeclaredIds, itemsModuleIds, itemsEntryIds, Item.declaredIds_flat hflat,
        Item.moduleIds_flat hflat, Item.entryIds_flat hflat]
      exact perm_append_four (List.Perm.refl _) ih

theorem Item.declaredIds_perm (item : Item) :
    List.Perm item.declaredIds (item.moduleIds ++ item.entryIds) := by
  simpa [itemsDeclaredIds, itemsModuleIds, itemsEntryIds] using itemsDeclaredIds_perm [item]

/-- The modules that an item is or holds are nodes of the item. -/
theorem Item.moduleIds_subset (item : Item) : item.moduleIds ⊆ item.nodeIds := by
  intro id hid
  refine item.nodeIds_perm.mem_iff.mpr (List.mem_append_left _ ?_)
  exact item.declaredIds_perm.mem_iff.mpr (List.mem_append_left _ hid)

end NameResolution
