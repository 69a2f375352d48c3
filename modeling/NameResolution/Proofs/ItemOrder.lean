import Mathlib.Data.List.Pairwise
import NameResolution.Proofs.ParentModules
import NameResolution.Proofs.Lexical.ItemReading

/-!
# NameResolution.Proofs.ItemOrder

**The same items in another order.** `ItemsPermuted` says that the items of one module have
been put in another order. Whatever is collected item by item is the same up to its order
then (`CollectsItems.perm`).

What the first pass attempts is not collected item by item, since the items of a trait
implementation are only attempted if its projection has not been taken before. Where no
name is attempted twice this makes no difference (`itemsAttempts_eq_tries`), so what is
attempted is the same up to its order as well (`Crate.attempts_withItems`).
-/

namespace NameResolution

/-- The items are the same but for the order of those that are directly inside one module. -/
inductive ItemsPermuted : List Item → List Item → Prop
  | here {items items' : List Item} (h : items.Perm items') : ItemsPermuted items items'
  | inside {items items' : List Item} (before after : List Item) (node : Node) (vis : Visibility)
      (name : Ident) (h : ItemsPermuted items items') :
      ItemsPermuted (before ++ ⟨node, vis, .module name items⟩ :: after)
        (before ++ ⟨node, vis, .module name items'⟩ :: after)

/-- The crate with other items. -/
def Crate.withItems (c : Crate) (items : List Item) : Crate := { c with items }

/-! ### What is collected item by item -/

/-- A list is collected item by item, and for a module from the items inside it. The context says
what the modules around have to do with it. -/
structure CollectsItems {α γ : Type} (collect : γ → List Item → List α) (one : γ → Item → List α) :
    Prop where
  nil : ∀ ctx, collect ctx [] = []
  cons : ∀ ctx item rest, collect ctx (item :: rest) = one ctx item ++ collect ctx rest
  module : ∀ ctx node vis name, ∃ front inner back, ∀ items,
    one ctx ⟨node, vis, .module name items⟩ = front ++ collect inner items ++ back

namespace CollectsItems

variable {α γ : Type} {collect : γ → List Item → List α} {one : γ → Item → List α}

theorem eq_flatMap (h : CollectsItems collect one) (ctx : γ) (items : List Item) :
    collect ctx items = items.flatMap (one ctx) := by
  induction items with
  | nil => exact h.nil ctx
  | cons item rest ih => rw [h.cons, ih, List.flatMap_cons]

/-- Items in another order give the same list in another order. -/
theorem perm (h : CollectsItems collect one) {items items' : List Item}
    (hitems : ItemsPermuted items items') :
    ∀ ctx, (collect ctx items).Perm (collect ctx items') := by
  induction hitems with
  | here hperm =>
      intro ctx
      rw [h.eq_flatMap, h.eq_flatMap]
      exact hperm.flatMap_right _
  | inside before after node vis name _ ih =>
      intro ctx
      obtain ⟨front, inner, back, hone⟩ := h.module ctx node vis name
      have hmodule := ((ih inner).append_left front).append_right back
      rw [h.eq_flatMap, h.eq_flatMap, List.flatMap_append, List.flatMap_append, List.flatMap_cons,
        List.flatMap_cons, hone, hone]
      exact (hmodule.append_right _).append_left _

end CollectsItems

theorem collects_nodeIds :
    CollectsItems (fun _ : Unit => itemsNodeIds) (fun _ => Item.nodeIds) where
  nil _ := rfl
  cons _ _ _ := rfl
  module _ node _ _ := ⟨[node.id], (), [], fun _ => (List.append_nil _).symm⟩

/-- If of any two elements only one contributes something, the order does not matter. -/
theorem flatMap_eq_of_perm {α β : Type} {f : α → List β} {l l' : List α} (hperm : l.Perm l')
    (halone : l.Pairwise fun x y => f x = [] ∨ f y = []) : l.flatMap f = l'.flatMap f := by
  induction hperm with
  | nil => rfl
  | cons x _ ih => rw [List.flatMap_cons, List.flatMap_cons, ih (List.pairwise_cons.mp halone).2]
  | swap x y l =>
      have hone : f y = [] ∨ f x = [] := (List.pairwise_cons.mp halone).1 x List.mem_cons_self
      rcases hone with hone | hone <;> simp only [List.flatMap_cons, hone, List.nil_append]
  | trans hperm _ ih ih' =>
      exact (ih halone).trans (ih' ((hperm.pairwise_iff fun h => h.symm).mp halone))

/-- What only comes from around one node is the same in any order of the items. -/
theorem CollectsItems.eq_of_owner {α γ : Type} {collect : γ → List Item → List α}
    {one : γ → Item → List α} (h : CollectsItems collect one) {owner : NodeId}
    (hone : ∀ ctx item, one ctx item ≠ [] → owner ∈ item.nodeIds) {items items' : List Item}
    (hitems : ItemsPermuted items items') :
    ∀ ctx, (itemsNodeIds items).Nodup → collect ctx items = collect ctx items' := by
  induction hitems with
  | here hperm =>
      intro ctx hnodup
      rw [h.eq_flatMap, h.eq_flatMap]
      rw [collects_nodeIds.eq_flatMap ()] at hnodup
      refine flatMap_eq_of_perm hperm ((List.nodup_flatMap.mp hnodup).2.imp fun hdisjoint => ?_)
      by_contra hboth
      obtain ⟨hleft, hright⟩ := not_or.mp hboth
      exact hdisjoint (hone ctx _ hleft) (hone ctx _ hright)
  | inside before after node vis name _ ih =>
      intro ctx hnodup
      rw [collects_nodeIds.eq_flatMap (), List.flatMap_append, List.flatMap_cons] at hnodup
      have hitem := (List.nodup_append.mp (List.nodup_append.mp hnodup).2.1).1
      obtain ⟨front, inner, back, hmodule⟩ := h.module ctx node vis name
      rw [h.eq_flatMap, h.eq_flatMap, List.flatMap_append, List.flatMap_append, List.flatMap_cons,
        List.flatMap_cons, hmodule, hmodule, ih inner (List.nodup_cons.mp hitem).2]

theorem collects_nesting : CollectsItems itemsNesting Item.nesting where
  nil _ := rfl
  cons _ _ _ := rfl
  module here node _ _ := ⟨[], node.id, [(node.id, here)], fun _ => rfl⟩

theorem collects_findings (base : Session) :
    CollectsItems (fun modules items => (readItems base modules items).findings)
      (fun modules item => (item.read base modules).findings) where
  nil _ := rfl
  cons _ _ _ := rfl
  module modules node _ _ := ⟨[], node.id :: modules, [], fun _ => (List.append_nil _).symm⟩

section WithItems

variable {c : Crate} {items : List Item} (h : ItemsPermuted c.items items)

include h

theorem Crate.WellFormed.withItems (hwf : c.WellFormed) : (c.withItems items).WellFormed := by
  have hperm := (collects_nodeIds.perm h ()).cons c.node.id
  exact ⟨hperm.nodup_iff.mp hwf.1, fun id hid => hwf.2 id (hperm.mem_iff.mpr hid)⟩

/-- The order of the items does not matter for what modules are nested in. -/
theorem Crate.parent?_withItems (hwf : c.WellFormed) (module : NodeId) :
    (c.withItems items).parent? module = c.parent? module :=
  (lookup_perm (collects_nesting.perm h c.node.id) (c.nodup_nesting hwf)).symm

end WithItems

/-! ### Names that are attempted twice -/

/-- Two attempts for the same name in the rib of one module. -/
def Attempt.Clashes (a b : Attempt) : Prop :=
  a.module = b.module ∧ a.space = b.space ∧ a.key.SameText b.key

theorem Attempt.Clashes.symm {a b : Attempt} (h : a.Clashes b) : b.Clashes a :=
  ⟨h.1.symm, h.2.1.symm, h.2.2.symm⟩

/-- No name is attempted twice. -/
def Unrepeated (l : List Attempt) : Prop := l.Pairwise fun a b => ¬ a.Clashes b

namespace Unrepeated

variable {l l' before rest : List Attempt} {a b : Attempt}

theorem perm (h : Unrepeated l) (hperm : l.Perm l') : Unrepeated l' :=
  (hperm.pairwise_iff fun hnot hclash => hnot hclash.symm).mp h

theorem eq_of_clashes (h : Unrepeated l) (ha : a ∈ l) (hb : b ∈ l) (hclash : a.Clashes b) :
    a = b := by
  have : Std.Symm fun a b : Attempt => ¬ a.Clashes b :=
    ⟨fun _ _ hnot hclash => hnot hclash.symm⟩
  by_contra hne
  exact List.Pairwise.forall h ha hb hne hclash

/-- The name of an attempt is not taken by those before it. -/
theorem earlier? (h : Unrepeated (before ++ a :: rest)) : a.earlier? before = none := by
  refine List.find?_eq_none.mpr fun b hb hfor => ?_
  exact (List.pairwise_append.mp h).2.2 b hb a List.mem_cons_self (Attempt.isFor_iff.mp hfor)

theorem duplicateReports (h : Unrepeated l) : duplicateReports l = [] := by
  induction l using List.reverseRecOn with
  | nil => rfl
  | append_singleton l a ih =>
      rw [duplicateReports_snoc, h.earlier?]
      exact ih (List.pairwise_append.mp h).1

/-- Where everything is accepted, no name is attempted twice. -/
theorem of_accepted (hnodup : l.Nodup) (h : accepted l = l) : Unrepeated l :=
  hnodup.pairwise_of_forall_ne fun _ ha _ hb hne hclash =>
    hne (eq_of_mem_accepted (h.symm ▸ ha) (h.symm ▸ hb) hclash.1 hclash.2.1 hclash.2.2)

/-- Each name is looked up in the same way, whatever the order. -/
theorem firstFor_perm (h : Unrepeated l) (hperm : l.Perm l') (module : NodeId) (space : Namespace)
    (key : CanonicalPath) : firstFor l module space key = firstFor l' module space key := by
  have hsome : ∀ {l : List Attempt} {a : Attempt}, Unrepeated l →
      (firstFor l module space key = some a ↔ a ∈ l ∧ a.isFor module space key = true) := by
    intro l a h
    refine ⟨fun hfirst => ⟨mem_of_firstFor hfirst,
      Attempt.isFor_iff.mpr (isFor_of_firstFor hfirst)⟩, fun ⟨ha, hfor⟩ => ?_⟩
    have hisSome : (firstFor l module space key).isSome :=
      List.find?_isSome.mpr ⟨a, ha, hfor⟩
    obtain ⟨b, hb⟩ := Option.isSome_iff_exists.mp hisSome
    obtain ⟨hmodule, hspace, hkey⟩ := isFor_of_firstFor hb
    obtain ⟨hmodule', hspace', hkey'⟩ := Attempt.isFor_iff.mp hfor
    have hclash : b.Clashes a :=
      ⟨hmodule.trans hmodule'.symm, hspace.trans hspace'.symm, hkey.trans hkey'.symm⟩
    rw [hb, h.eq_of_clashes (mem_of_firstFor hb) ha hclash]
  refine Option.ext fun a => ?_
  rw [hsome h, hsome (h.perm hperm), hperm.mem_iff]

end Unrepeated

/-! ### Attempts item by item -/

mutual

/-- What an item and everything nested in it tries to declare if no name has been taken. -/
def Item.tries (here : NodeId) (place : Place) : Item → List Attempt
  | ⟨node, vis, .module name items⟩ =>
    let a := place.attempt here .name node.id name vis (some here) (some .module)
    a :: itemsTries node.id (.ofModule a.path) items
  | item => item.attempts here place []

def itemsTries (here : NodeId) (place : Place) : List Item → List Attempt
  | [] => []
  | item :: rest => item.tries here place ++ itemsTries here place rest

end

theorem collects_tries :
    CollectsItems (fun ctx : NodeId × Place => itemsTries ctx.1 ctx.2)
      (fun ctx => Item.tries ctx.1 ctx.2) where
  nil _ := rfl
  cons _ _ _ := rfl
  module ctx node vis name :=
    let a := ctx.2.attempt ctx.1 .name node.id name vis (some ctx.1) (some .module)
    ⟨[a], (node.id, .ofModule a.path), [], fun _ => (List.append_nil _).symm⟩

/-- Whether this is a variant of an enum or an item of a trait. -/
def Attempt.IsMemberOf (a : Attempt) (owner : NodeId) : Prop :=
  a.container = some owner ∧ a.module ≠ owner

instance (a : Attempt) (owner : NodeId) : Decidable (a.IsMemberOf owner) :=
  inferInstanceAs (Decidable (_ ∧ _))

theorem Item.tries_flat {node : Node} {vis : Visibility} {kind : ItemKind}
    (hflat : ∀ name items, kind ≠ .module name items) (here : NodeId) (place : Place) :
    Item.tries here place ⟨node, vis, kind⟩ = kind.attempts node vis here place [] := by
  cases kind with
  | module name items => exact absurd rfl (hflat name items)
  | _ => rfl

/-- A member that an item which is no module attempts is one of that item. -/
theorem ItemKind.owner_of_attempts {node : Node} {vis : Visibility} {kind : ItemKind}
    {here owner : NodeId} {place : Place} {before : List Attempt}
    (hflat : ∀ name items, kind ≠ .module name items) :
    ∀ a ∈ kind.attempts node vis here place before, a.IsMemberOf owner → owner = node.id := by
  rintro a ha ⟨hcontainer, hmodule⟩
  have hown := ItemKind.attempts_own hflat a ha
  cases hown with
  | leaf space id name itemVis hname himpl => exact absurd (Option.some.inj hcontainer) hmodule
  | container name k hname hkind himpl => exact absurd (Option.some.inj hcontainer) hmodule
  | member => exact (Option.some.inj hcontainer).symm
  | implItem => cases hcontainer
  | header => cases hcontainer

/-- The owner of a member is a node of the same items. -/
theorem itemsOwner_mem_nodeIds {owner : NodeId} (items : List Item) {here : NodeId}
    {place : Place} : ∀ a ∈ itemsTries here place items, a.IsMemberOf owner →
      owner ∈ itemsNodeIds items := by
  induction items using items_induction generalizing here place with
  | nil =>
      intro a ha
      cases ha
  | module node vis name items rest ihInside ih =>
      intro a ha howner
      rcases List.mem_append.mp ha with ha | ha
      · rcases List.mem_cons.mp ha with rfl | ha
        · exact absurd (Option.some.inj howner.1) howner.2
        · exact List.mem_append_left _ (List.mem_cons_of_mem _ (ihInside a ha howner))
      · exact List.mem_append_right _ (ih a ha howner)
  | flat node vis kind rest hflat ih =>
      intro a ha howner
      rw [itemsTries, Item.tries_flat hflat] at ha
      rcases List.mem_append.mp ha with ha | ha
      · rw [ItemKind.owner_of_attempts hflat a ha howner]
        exact List.mem_append_left _ List.mem_cons_self
      · exact List.mem_append_right _ (ih a ha howner)

theorem Item.owner_mem_nodeIds {owner : NodeId} (item : Item) {here : NodeId} {place : Place} :
    ∀ a ∈ item.tries here place, a.IsMemberOf owner → owner ∈ item.nodeIds := by
  intro a ha howner
  have hone : owner ∈ itemsNodeIds [item] :=
    itemsOwner_mem_nodeIds [item] a (List.mem_append_left _ ha) howner
  simpa [itemsNodeIds] using hone

theorem collects_members (owner : NodeId) :
    CollectsItems
      (fun (ctx : NodeId × Place) items =>
        (itemsTries ctx.1 ctx.2 items).filter (·.IsMemberOf owner))
      (fun ctx item => (item.tries ctx.1 ctx.2).filter (·.IsMemberOf owner)) where
  nil _ := rfl
  cons _ _ _ := List.filter_append _ _
  module ctx node vis name :=
    let a := ctx.2.attempt ctx.1 .name node.id name vis (some ctx.1) (some .module)
    ⟨[a].filter (·.IsMemberOf owner), (node.id, .ofModule a.path), [], fun items => by
      rw [List.append_nil, ← List.filter_append]
      rfl⟩

/-- If the first name that an item attempts has not been taken, it does not matter what has. -/
theorem ItemKind.attempts_eq_tries {node : Node} {vis : Visibility} {kind : ItemKind}
    {here : NodeId} {place : Place} {before : List Attempt}
    (hflat : ∀ name items, kind ≠ .module name items)
    (h : Unrepeated (before ++ kind.attempts node vis here place before) ∨
      Unrepeated (before ++ kind.attempts node vis here place [])) :
    kind.attempts node vis here place before = kind.attempts node vis here place [] := by
  cases kind with
  | module name items => exact absurd rfl (hflat name items)
  | traitImpl i =>
      simp only [ItemKind.attempts] at h ⊢
      cases hprojection : i.projection node.id with
      | error malformed => rfl
      | ok projection =>
          -- Whether its items come next or not, the projection is attempted.
          have hfree : (place.projectionAttempt here node projection).earlier? before = none := by
            rw [hprojection] at h
            dsimp only at h
            rcases h with h | h
            · split at h <;> exact h.earlier?
            · exact h.earlier?
          simp only [hfree]
          rfl
  | _ => rfl

/-- Where no name is attempted twice, none has been taken before. -/
theorem itemsAttempts_eq_tries (items : List Item) {here : NodeId} {place : Place}
    {before : List Attempt}
    (h : Unrepeated (before ++ itemsAttempts here place before items) ∨
      Unrepeated (before ++ itemsTries here place items)) :
    itemsAttempts here place before items = itemsTries here place items := by
  induction items using items_induction generalizing here place before with
  | nil => rfl
  | module node vis name items rest ihInside ih =>
      simp only [itemsAttempts, itemsTries, ← List.append_assoc] at h ⊢
      have hitem : Item.attempts here place before ⟨node, vis, .module name items⟩ =
          Item.tries here place ⟨node, vis, .module name items⟩ := by
        simp only [Item.attempts, ItemKind.attempts, Item.tries] at h ⊢
        refine congrArg _ (ihInside (h.imp (fun h => ?_) fun h => ?_))
        · rw [List.append_cons] at h
          exact (List.pairwise_append.mp h).1
        · rw [List.append_cons] at h
          exact (List.pairwise_append.mp h).1
      rw [hitem] at h ⊢
      exact congrArg _ (ih h)
  | flat node vis kind rest hflat ih =>
      simp only [itemsAttempts, itemsTries, ← List.append_assoc] at h ⊢
      have hitem : Item.attempts here place before ⟨node, vis, kind⟩ =
          Item.tries here place ⟨node, vis, kind⟩ := by
        rw [Item.tries_flat hflat] at h ⊢
        exact ItemKind.attempts_eq_tries hflat (h.imp (fun h => (List.pairwise_append.mp h).1)
          fun h => (List.pairwise_append.mp h).1)
      rw [hitem] at h ⊢
      exact congrArg _ (ih h)

section WithItems

variable {c : Crate} {items : List Item} (h : ItemsPermuted c.items items) {settings : Settings}
  (hunrepeated : Unrepeated (c.attempts settings))

include h hunrepeated

theorem Crate.tries_withItems :
    c.attempts settings =
        itemsTries c.node.id (.ofModule (Session.rootPathFor c settings)) c.items ∧
      (c.withItems items).attempts settings =
        itemsTries c.node.id (.ofModule (Session.rootPathFor c settings)) items := by
  have htries : c.attempts settings =
      itemsTries c.node.id (.ofModule (Session.rootPathFor c settings)) c.items :=
    itemsAttempts_eq_tries c.items (Or.inl hunrepeated)
  have hperm := collects_tries.perm h (c.node.id, .ofModule (Session.rootPathFor c settings))
  exact ⟨htries,
    itemsAttempts_eq_tries items (Or.inr (Unrepeated.perm (htries ▸ hunrepeated) hperm))⟩

/-- If no name is attempted twice, the attempts are the same in another order. -/
theorem Crate.attempts_withItems :
    (c.attempts settings).Perm ((c.withItems items).attempts settings) := by
  obtain ⟨htries, hother⟩ := Crate.tries_withItems h hunrepeated
  rw [htries, hother]
  exact collects_tries.perm h (c.node.id, _)

/-- The members of an enum or a trait stay in the order in which they were. -/
theorem Crate.members_withItems (hwf : c.WellFormed) (owner : NodeId) :
    ((c.withItems items).attempts settings).filter (·.IsMemberOf owner) =
      (c.attempts settings).filter (·.IsMemberOf owner) := by
  obtain ⟨htries, hother⟩ := Crate.tries_withItems h hunrepeated
  rw [htries, hother]
  have hone : ∀ (ctx : NodeId × Place) (item : Item),
      (item.tries ctx.1 ctx.2).filter (·.IsMemberOf owner) ≠ [] → owner ∈ item.nodeIds := by
    intro ctx item hsome
    obtain ⟨a, ha⟩ := List.exists_mem_of_ne_nil _ hsome
    obtain ⟨hmem, howner⟩ := List.mem_filter.mp ha
    exact item.owner_mem_nodeIds a hmem (of_decide_eq_true howner)
  exact ((collects_members owner).eq_of_owner hone h (c.node.id, _)
    (List.nodup_cons.mp hwf.1).2).symm

end WithItems

end NameResolution
