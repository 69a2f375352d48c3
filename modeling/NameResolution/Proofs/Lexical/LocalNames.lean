import NameResolution.Proofs.Lexical.ItemIntroductions
import NameResolution.Proofs.Lexical.SecondPass

/-!
# NameResolution.Proofs.Lexical.LocalNames

**The second pass names local declarations and nothing else.** In the session that the
first pass leaves behind no binder has introduced its name yet
(`Crate.FirstPass.introduced`). From there the second pass introduces some of the binders of
the crate, and whatever it enters is on record in the end (`Crate.exists_proceeds_of_runs`).
-/

namespace NameResolution

open Resolution

/-- No binder has introduced its name during the first pass. -/
theorem Crate.FirstPass.introduced {c : Crate} {settings : Settings} {base : Session}
    (h : c.FirstPass settings base) : base.Introduced [] base where
  paths := rfl
  nodup := List.nodup_nil
  known _ hb := nomatch hb
  classified _ _ hclass := Or.inl hclass
  bound space owner key b hb := by
    by_cases howner : owner = base.builtins.prelude
    · rw [howner, h.prelude] at hb
      cases space with
      | name => cases hb
      | type =>
          obtain ⟨p, hp, rfl⟩ := Option.map_eq_some_iff.mp hb
          have hprimitive : p ∈ base.builtins.primitives := List.mem_of_find?_eq_some hp
          exact (h.declared .type p.2).mpr (Or.inr ⟨rfl, List.mem_map_of_mem hprimitive⟩)
    · rw [h.ribs space owner key howner] at hb
      obtain ⟨a, ha, rfl⟩ := Option.map_eq_some_iff.mp hb
      obtain ⟨-, hspace, -⟩ := isFor_of_firstFor ha
      exact (h.declared space a.id).mpr (Or.inl ⟨a, mem_accepted_of_firstFor ha, hspace, rfl⟩)
  ribs _ _ _ _ hr := hr

/-- What the second pass introduces is gathered item by item, and what it enters is on record. -/
theorem Crate.Declared.exists_proceeds {c : Crate} {base : Session} (h : c.Declared base)
    (hbase : base.Introduced [] base) {one : List NodeId → Item → List Binder}
    (hone : AddsEach base one) :
    ∃ s, Runs c.resolveItems base () s ∧ c.SecondPass base s ∧
      base.Proceeds (itemsGathered one [c.node.id] c.items) (c.read base).findings base s := by
  obtain ⟨s, hrun, hs⟩ := h.exists_secondPass
  obtain ⟨-, hadds⟩ := adds_items h.settled hone c.items [c.node.id] h.prepared
  have hmodule : Adds base (fun s => s = base.openFrame base.builtins.prelude)
      (itemsGathered one [c.node.id] c.items)
      (inModule c.node.id (NameResolution.resolveItems c.items)) (c.read base) :=
    hadds.inModule fun _ hs => hs ▸ h.waits
  have hcrate : Adds base (fun s => s = base) (itemsGathered one [c.node.id] c.items)
      (inFrame base.builtins.prelude
        (inModule c.node.id (NameResolution.resolveItems c.items))) (c.read base) :=
    hmodule.inFrame fun _ hs => hs ▸ rfl
  have hinside : Runs (inFrame base.builtins.prelude
      (inModule base.root (NameResolution.resolveItems c.items))) base () s := hrun.get_bind_inv
  rw [h.root] at hinside
  exact ⟨s, hrun, hs, hcrate [] () base s rfl hbase hinside⟩

/-- The second pass of a well-formed crate introduces nothing but binders of it. -/
theorem Crate.exists_proceeds_of_runs {c : Crate} (hwf : c.WellFormed) {settings : Settings}
    {s : Session} (hrun : Runs c.resolveItems (c.registered settings) () s) :
    ∃ added : List Binder, added.Sublist c.binders ∧ (c.registered settings).Proceeds added
      (c.read (c.registered settings)).findings (c.registered settings) s := by
  have hbase := c.firstPass hwf settings
  have hplace := hbase.inPlace hwf
  obtain ⟨one, hone⟩ := exists_addsEach hplace.settled
  obtain ⟨s', hrun', -, hproceeds⟩ := hplace.exists_proceeds hbase.introduced hone
  obtain ⟨-, rfl⟩ := hrun'.eq hrun
  exact ⟨_, (adds_items hplace.settled hone c.items [c.node.id] hplace.prepared).1, hproceeds⟩

end NameResolution
