import Mathlib.Logic.Relation
import NameResolution.Proofs.ItemOrder
import NameResolution.Proofs.Lexical.Entries
import NameResolution.Proofs.Lexical.LocalNames

/-!
# NameResolution.Proofs.VisitOrder

**The second pass may visit the items of each module in any order**
(`Crate.visit_order_irrelevant`). It starts from the session that the first pass leaves
behind, and what it finds out about an item depends on that session alone. So in another
order there are the same findings and the same new canonical paths in another order. Each
node is entered once, and the tables are the same up to the order of what is in them
(`Ledger.same_noteAll`).
-/

namespace NameResolution

open Resolution

/-! ### Items in another order -/

/-- Whatever is collected item by item is the same up to its order if the items of any number of
modules have been put in another order. -/
theorem CollectsItems.perm_of_reordered {α γ : Type} {collect : γ → List Item → List α}
    {one : γ → Item → List α} (h : CollectsItems collect one) {items items' : List Item}
    (hitems : Relation.ReflTransGen ItemsPermuted items items') (ctx : γ) :
    (collect ctx items).Perm (collect ctx items') := by
  induction hitems with
  | refl => exact .refl _
  | tail _ hstep ih => exact ih.trans (h.perm hstep ctx)

theorem collects_containers :
    CollectsItems (fun _ : Unit => itemsContainers) (fun _ => Item.containers) where
  nil _ := rfl
  cons _ _ _ := rfl
  module _ node _ _ := ⟨[(node.id, .module)], (), [], fun _ => (List.append_nil _).symm⟩

theorem collects_entryIds :
    CollectsItems (fun _ : Unit => itemsEntryIds) (fun _ => Item.entryIds) where
  nil _ := rfl
  cons _ _ _ := rfl
  module _ _ _ _ := ⟨[], (), [], fun _ => (List.append_nil _).symm⟩

theorem collects_bodyIds :
    CollectsItems (fun _ : Unit => itemsBodyIds) (fun _ => Item.bodyIds) where
  nil _ := rfl
  cons _ _ _ := rfl
  module _ _ _ _ := ⟨[], (), [], fun _ => (List.append_nil _).symm⟩

theorem collects_gathered {α : Type} (one : List NodeId → Item → List α) :
    CollectsItems (itemsGathered one) (Item.gathered one) where
  nil _ := rfl
  cons _ _ _ := rfl
  module modules node _ _ := ⟨[], node.id :: modules, [], fun _ => (List.append_nil _).symm⟩

/-- The declarations are in place for the same items in another order. -/
theorem Crate.Declared.withItems {c : Crate} {base : Session} (h : c.Declared base)
    {items : List Item} (hitems : Relation.ReflTransGen ItemsPermuted c.items items) :
    (c.withItems items).Declared base where
  settled := h.settled
  prepared := h.prepared.mono (collects_containers.perm_of_reordered hitems ()).symm.subset
    (collects_entryIds.perm_of_reordered hitems ()).symm.subset
    (collects_bodyIds.perm_of_reordered hitems ()).symm.subset
  waits := h.waits.mono (collects_nodeIds.perm_of_reordered hitems ()).symm.subperm
  closed := h.closed
  modules := h.modules
  root := h.root

/-! ### Findings in another order -/

/-- New entries with different keys are read in the same way in whatever order they were made. -/
theorem Register.get?_eq_of_perm {α : Type} {r r' : Register α} {l l' rest : List (NodeId × α)}
    (h : r.entries = l ++ rest) (h' : r'.entries = l' ++ rest) (hperm : l.Perm l')
    (hnodup : (l.map Prod.fst).Nodup) (id : NodeId) : r'.get? id = r.get? id := by
  unfold get?
  rw [h, h', List.lookup_append, List.lookup_append, lookup_perm hperm hnodup]

/-- Two ledgers say the same: whatever is looked up is the same, and there are the same use sites
and the same errors in some order. -/
structure Ledger.Same (l l' : Ledger) : Prop where
  entered : ∀ space use, (l'.entered space).get? use = (l.entered space).get? use
  qualified : ∀ use, l'.qualified.get? use = l.qualified.get? use
  useSites : l.useSites.Perm l'.useSites
  reported : l.reported.Perm l'.reported

/-- Findings about different nodes can be entered in any order. -/
theorem Ledger.same_noteAll {base : Session} {findings findings' : List Finding}
    (hperm : findings.Perm findings') (hnodup : (usesOf findings).Nodup) (l : Ledger) :
    (l.noteAll base findings).Same (l.noteAll base findings') where
  entered space use := by
    refine Register.get?_eq_of_perm (entries_noteAll space findings l)
      (entries_noteAll space findings' l) ?_ ?_ use
    · exact (List.reverse_perm _).trans ((hperm.filterMap _).trans (List.reverse_perm _).symm)
    · obtain ⟨ids, hids, hsub⟩ := keys_subperm_usesOf findings
      have hkeys := List.nodup_append.mp (hids.nodup_iff.mp (hnodup.sublist hsub))
      rw [List.map_reverse, List.nodup_reverse]
      cases space with
      | name => exact hkeys.1
      | type => exact hkeys.2.1
  qualified use := by
    refine Register.get?_eq_of_perm (entries_qualified_noteAll findings l)
      (entries_qualified_noteAll findings' l) ?_ ?_ use
    · exact (List.reverse_perm _).trans ((hperm.filterMap _).trans (List.reverse_perm _).symm)
    · rw [List.map_reverse, List.nodup_reverse]
      exact hnodup.sublist (forms_sublist_usesOf findings)
  useSites := by
    rw [useSites_noteAll, useSites_noteAll]
    exact (hperm.filterMap _).append_left _
  reported := by
    rw [reported_noteAll, reported_noteAll]
    exact (hperm.filterMap _).append_left _

/-- The same binders in another order have the same canonical paths. -/
theorem Session.Introduced.get?_paths_of_perm {base s s' : Session} {bs bs' : List Binder}
    (h : base.Introduced bs s) (h' : base.Introduced bs' s') (hperm : bs.Perm bs') (id : NodeId) :
    s'.tables.paths.get? id = s.tables.paths.get? id := by
  refine Register.get?_eq_of_perm h.paths h'.paths ?_ ?_ id
  · exact (List.reverse_perm _).trans ((hperm.map _).trans (List.reverse_perm _).symm)
  · rw [List.map_reverse, List.nodup_reverse, List.map_map]
    exact h.nodup

/-! ### The second pass in another order -/

/-- **The second pass may visit the items of each module in any order.** It succeeds in whatever
order it comes to the items of a well-formed crate once their declarations have been registered,
and with no limit on the errors that are kept, it comes to the same result: to every node the
tables of resolved names and types, of qualified paths and of canonical paths assign the same, and
there are the same use sites and the same errors in some order. -/
theorem Crate.visit_order_irrelevant {c : Crate} (hwf : c.WellFormed) {settings : Settings}
    (hlimit : settings.maxDiagnostics = 0) {items : List Item}
    (hitems : Relation.ReflTransGen ItemsPermuted c.items items) :
    ∃ s s', Runs c.resolveItems (c.registered settings) () s ∧
      Runs (c.withItems items).resolveItems (c.registered settings) () s' ∧
      (∀ use, s'.tables.names.get? use = s.tables.names.get? use) ∧
      (∀ use, s'.tables.types.get? use = s.tables.types.get? use) ∧
      (∀ use, s'.tables.qualified.get? use = s.tables.qualified.get? use) ∧
      (∀ id, s'.tables.paths.get? id = s.tables.paths.get? id) ∧
      s.tables.useSites.Perm s'.tables.useSites ∧ s.errors.kept.Perm s'.errors.kept := by
  have hbase := c.firstPass hwf settings
  have hplace := hbase.inPlace hwf
  obtain ⟨one, hone⟩ := exists_addsEach hplace.settled
  obtain ⟨s, hrun, hs, hproceeds⟩ := hplace.exists_proceeds hbase.introduced hone
  obtain ⟨s', hrun', hs', hproceeds'⟩ :=
    (hplace.withItems hitems).exists_proceeds hbase.introduced hone
  have hfindings : (c.read (c.registered settings)).findings.Perm
      ((c.withItems items).read (c.registered settings)).findings :=
    (collects_findings _).perm_of_reordered hitems [c.node.id]
  have hsame : s.ledger.Same s'.ledger := by
    rw [hs.ledger, hs'.ledger]
    exact Ledger.same_noteAll hfindings (hs.nodup_uses hwf) _
  have hbinders : (itemsGathered one [c.node.id] c.items).Perm
      (itemsGathered one [c.node.id] items) :=
    (collects_gathered one).perm_of_reordered hitems [c.node.id]
  have hkept : ∀ {s₁ : Session}, s₁.errors.limit = (c.registered settings).errors.limit →
      s₁.errors.kept = s₁.ledger.reported := fun h =>
    Collector.kept_eq_reported (h.trans (hbase.limit.trans hlimit))
  refine ⟨s, s', hrun, hrun', hsame.entered .name, hsame.entered .type, hsame.qualified,
    hproceeds.introduced.get?_paths_of_perm hproceeds'.introduced hbinders, hsame.useSites, ?_⟩
  rw [hkept hs.limit, hkept hs'.limit]
  exact hsame.reported

/-- A struct `S` and functions with parameters of the type `S`, of a type `T` of their own and of a
type `T` that nothing declares. -/
def Crate.withThreeFunctions : Crate where
  node := ⟨⟨0⟩, ⟨0, 60⟩⟩
  items :=
    let node (id offset : Nat) : Node := ⟨⟨id⟩, ⟨offset, 1⟩⟩
    let name (text : String) (offset : Nat) : Ident := ⟨text, ⟨offset, 1⟩⟩
    let function (id offset : Nat) (text : String) (generics : Generics) (type : String) : Item :=
      ⟨node id offset, .ownModule, .function ⟨name text (offset + 3), generics, none,
        [⟨node (id + 1) (offset + 5), .binding (node (id + 2) (offset + 5)) (name "a" (offset + 5))
            false,
          .path (node (id + 3) (offset + 8)) ⟨node (id + 4) (offset + 8),
            [⟨node (id + 5) (offset + 8), .ident type, none⟩]⟩⟩], none, none⟩⟩
    [⟨node 1 0, .ownModule, .struct ⟨name "S" 7, .none, []⟩⟩, function 2 10 "f" .none "S",
      ⟨node 8 25, .ownModule, .module (name "m" 29)
        [function 9 31 "g" ⟨[⟨node 15 33, name "T" 33, .type [] none⟩], none⟩ "T"]⟩,
      function 16 45 "h" .none "T"]
  idBound := ⟨22⟩

/-- The functions are entered in the order that they are visited in. What is read for a segment is
the same, and the same error is kept. -/
theorem Crate.visit_order_withThreeFunctions :
    withThreeFunctions.WellFormed ∧
      ∃ s s', Runs withThreeFunctions.resolveItems (withThreeFunctions.registered {}) () s ∧
        Runs (withThreeFunctions.withItems withThreeFunctions.items.reverse).resolveItems
          (withThreeFunctions.registered {}) () s' ∧
        s.tables.types.keys = [⟨13⟩, ⟨14⟩, ⟨6⟩, ⟨7⟩] ∧
        s'.tables.types.keys = [⟨6⟩, ⟨7⟩, ⟨13⟩, ⟨14⟩] ∧
        (∀ use, s'.tables.types.get? use = s.tables.types.get? use) ∧
        s.errors.kept = [.failedToResolvePath "T" ⟨53, 1⟩] ∧ s.errors.kept.Perm s'.errors.kept := by
  have hwf : withThreeFunctions.WellFormed := by decide
  obtain ⟨s, s', hrun, hrun', -, htypes, -, -, -, herrors⟩ :=
    @visit_order_irrelevant _ hwf {} rfl _ (.single (.here (List.reverse_perm _).symm))
  have hs : s = (exec withThreeFunctions.resolveItems (withThreeFunctions.registered {})).2 :=
    congrArg Prod.snd hrun.symm
  have hs' : s' = (exec (withThreeFunctions.withItems withThreeFunctions.items.reverse).resolveItems
      (withThreeFunctions.registered {})).2 := congrArg Prod.snd hrun'.symm
  refine ⟨hwf, s, s', hrun, hrun', ?_, ?_, htypes, ?_, herrors⟩
  · exact hs ▸ by decide +kernel
  · exact hs' ▸ by decide +kernel
  · exact hs ▸ by decide +kernel

end NameResolution
