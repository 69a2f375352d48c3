import NameResolution.Proofs.DeclaredRibs
import NameResolution.Proofs.ReportSettings
import NameResolution.Proofs.Lexical.ItemRibs

/-!
# NameResolution.Proofs.LocalDuplicates

**Names that are introduced again in an item are reported exactly**
(`Crate.local_duplicates_exact`). In the frame of an item, a function, an implementation or
a trait the first of a name counts, and every later one is reported and refused. In a block
the latest counts, and none is reported. The names of different frames never get in each
other's way, and neither do those of different namespaces.

What is reported of names that are introduced again is, in order, what the first pass says
of declarations, and then what there is to say of each frame (`LocalFrame.reports`).
-/

namespace NameResolution

open Resolution

variable {c : Crate} {settings : Settings} {s : Session}

/-! ### Reports -/

/-- Of names that are introduced again, the first pass reports those of declarations. -/
theorem Crate.FirstPass.redefinitions {base : Session} (h : c.FirstPass settings base) :
    base.ledger.redefinitions = duplicateReports (c.attempts settings) := by
  refine Eq.trans (List.filter_congr fun e he => ?_) h.duplicates
  have hinner := h.unchecked e he
  cases e with
  | genericParamRedefined name span previous => cases hinner
  | _ => rfl

/-- A use that is not allowed introduces no name. -/
theorem Tables.redefinitions_privateUses (t : Tables) :
    t.privateUses.filter ResolveError.isRedefinition = [] := by
  refine List.filter_eq_nil_iff.mpr fun e he => ?_
  have hprivate := Tables.isPrivate_of_privateUses he
  cases e with
  | privateItem name span declared => exact Bool.false_ne_true
  | _ => cases hprivate

/-! ### Ribs -/

/-- What a frame has come to when everything is resolved: its rib holds the first of each name, and
of the nodes in it those that were refused have no canonical path, and the others have one. -/
structure LocalFrame.Settled (f : LocalFrame) (s : Session) : Prop where
  contents : ∀ space name, (s.scope space).bindingIn? f.owner (.single f.owner name) =
    (f.first? space name).map Introduction.binding
  paths : ∀ b locus earlier, (Introduction.own b locus, earlier) ∈ f.outcomes →
    s.tables.paths.get? b.id = if earlier.isSome then none else some b.path

/-- The rib of a block holds the latest of each name. -/
def Block.Settled (b : Block) (s : Session) : Prop :=
  ∀ space name, (s.scope space).bindingIn? b.node.id (.single b.node.id name) =
    (b.latest? space name).map Introduction.binding

theorem LocalFrame.Sealed.frame_settled {f : LocalFrame} {ids : List NodeId} (h : f.Sealed ids s) :
    f.Settled s where
  contents space name := congrFun (congrFun h.contents space) name
  paths b locus earlier hin := by
    have hsettled := (h.settled _ hin).2
    cases earlier with
    | none => exact hsettled
    | some first => exact Session.Unused.pathless hsettled

theorem Block.Sealed.block_settled {b : Block} {ids : List NodeId} (h : b.Sealed ids s) :
    b.Settled s := fun space name => congrFun (congrFun h.contents space) name

section Same

variable {s' : Session} (hscopes : ∀ space, s'.scope space = s.scope space)

include hscopes

theorem LocalFrame.Settled.congr {f : LocalFrame} (h : f.Settled s)
    (htables : s'.tables = s.tables) : f.Settled s' where
  contents space name := by rw [hscopes, h.contents]
  paths b locus earlier hin := by rw [htables, h.paths b locus earlier hin]

theorem Block.Settled.congr {b : Block} (h : b.Settled s) : b.Settled s' := fun space name => by
  rw [hscopes, h space name]

end Same

/-- What the second pass has bound and reported in frames. -/
structure Crate.SettlesNames (c : Crate) (base s : Session) : Prop where
  reported : s.ledger.redefinitions = base.ledger.redefinitions ++
    (c.frames s.tables).flatMap LocalFrame.reports
  frames : ∀ f ∈ c.frames s.tables, f.Settled s
  /-- Not all blocks are come to. Those that are have the ribs that are left. -/
  blocks : ∃ opened : List Block, opened.Sublist c.blocks ∧ (∀ b ∈ opened, b.Settled s) ∧
    ∀ space id, ((s.scope space).rib? id).isSome → ((base.scope space).rib? id).isSome ∨
      id = base.builtins.prelude ∨ s.tables.isModule id = true ∨
      id ∈ (c.frames s.tables).map LocalFrame.owner ∨ id ∈ opened.map (·.node.id)

theorem Crate.Declared.settlesNames {base : Session} (h : c.Declared base)
    (hrecords : s.tables.Records (c.read base).findings) (hrun : Runs c.resolveItems base () s) :
    c.SettlesNames base s := by
  have hinside : Runs (inFrame base.builtins.prelude
      (inModule base.root (NameResolution.resolveItems c.items))) base () s := hrun.get_bind_inv
  rw [h.root] at hinside
  obtain ⟨s₁, hrun₁, rfl⟩ := hinside.inFrame_inv
  obtain ⟨s₂, hrun₂, rfl⟩ := hrun₁.inModule_inv
  obtain ⟨opened, hsub, hbinds⟩ :=
    binds_items h.settled c.items h.prepared hrecords h.waits hrun₂
  refine ⟨hbinds.reported, fun f hf =>
    (hbinds.frames f hf).withoutModule.withoutFrame.frame_settled, opened, hsub, fun b hb =>
    (hbinds.blocks b hb).withoutModule.withoutFrame.block_settled, fun space id hid => ?_⟩
  rw [Session.scope_withoutFrame, Session.scope_withoutModule] at hid
  rcases hbinds.ribs space id hid with hopened | hlater
  · have hroot : s₂.tables.isModule c.node.id = true :=
      hbinds.grows.isModule (h.root ▸ h.settled.rootModule)
    rw [Session.scope_openModule, Scope.rib?_push, Session.scope_openFrame, Scope.rib?_push]
      at hopened
    by_cases hmodule : id = c.node.id
    · exact Or.inr (Or.inr (Or.inl (hmodule ▸ hroot)))
    · by_cases hprelude : id = base.builtins.prelude
      · exact Or.inr (Or.inl hprelude)
      · rw [if_neg hmodule, if_neg hprelude, Option.or_none, Option.or_none] at hopened
        exact Or.inl hopened
  · exact Or.inr (Or.inr hlater)

/-- **Names that are introduced again in an item are reported exactly.** In a well-formed crate, and
with no limit on the errors that are kept, resolution succeeds. The errors about names that are
introduced again are, in order, one for each declaration whose module has its name already and one
for each introduction in a frame that has its name already, in the same namespace. It is located at
the later introduction and points back at the first, which is what the rib of the frame holds in the
end; what was refused gets no canonical path. Blocks report nothing of the kind, and their ribs hold
the latest of each name. Apart from the prelude and the modules nothing else has a rib. -/
theorem Crate.local_duplicates_exact {c : Crate} (hwf : c.WellFormed) {settings : Settings}
    (hlimit : settings.maxDiagnostics = 0) :
    ∃ s, Runs (c.run settings) (.start c settings) () s ∧ c.resolve settings = .ok s.finish ∧
      s.finish.errors.filter ResolveError.isRedefinition =
        duplicateReports (c.attempts settings) ++
          (c.frames s.tables).flatMap LocalFrame.reports ∧
      (∀ f ∈ c.frames s.tables, f.Settled s) ∧
      ∃ opened : List Block, opened.Sublist c.blocks ∧ (∀ b ∈ opened, b.Settled s) ∧
        ∀ space id, ((s.scope space).rib? id).isSome →
          id = (c.registered settings).builtins.prelude ∨
          id ∈ c.node.id :: itemsModuleIds c.items ∨
          id ∈ (c.frames s.tables).map LocalFrame.owner ∨ id ∈ opened.map (·.node.id) := by
  obtain ⟨s, s', hrun, hs, hwhole, htables, hscopes, hlast, hreported⟩ :=
    c.exists_passes hwf settings
  have hbase := c.firstPass hwf settings
  have hnames := (hbase.inPlace hwf).settlesNames (hs.records hwf hbase) hrun
  obtain ⟨opened, hsub, hblocks, hribs⟩ := hnames.blocks
  refine ⟨s', hwhole, resolve_of_runs hwhole, ?_, fun f hf => ?_, opened, hsub,
    fun b hb => (hblocks b hb).congr hscopes, fun space id hid => ?_⟩
  · have hprivate : (if settings.checkPrivacy then s.tables.privateUses else []).filter
        ResolveError.isRedefinition = [] := by
      split
      · exact s.tables.redefinitions_privateUses
      · rfl
    change s'.errors.kept.filter _ = _
    rw [Collector.kept_eq_reported (hlast.trans hlimit), hreported, List.filter_append, hprivate,
      List.append_nil, htables, ← hbase.redefinitions]
    exact hnames.reported
  · rw [htables] at hf
    exact (hnames.frames f hf).congr hscopes htables
  · rw [hscopes] at hid
    rw [htables]
    have hmodule : s.tables.isModule id = true → id ∈ c.node.id :: itemsModuleIds c.items :=
      fun h => hbase.mem_of_isModule ((hs.tables.isModule id).symm.trans h)
    rcases hribs space id hid with hdeclared | hprelude | hentered | hlater
    · exact (c.ribs_registered hwf settings hdeclared).imp_right Or.inl
    · exact Or.inl hprelude
    · exact Or.inr (Or.inl (hmodule hentered))
    · exact Or.inr (Or.inr hlater)

/-- A struct with the parameters `T`, `const T` and `T`, and an implementation for it whose type
parameter is called `Self`. In that, a method has the receiver and the parameters `(self, x)` and
`x`, and its body repeats a local name. -/
def Crate.withRepeatedNames : Crate where
  node := ⟨⟨0⟩, ⟨0, 99⟩⟩
  items :=
    let node (id offset : Nat) : Node := ⟨⟨id⟩, ⟨offset, 1⟩⟩
    let name (text : String) (offset : Nat) : Ident := ⟨text, ⟨offset, 1⟩⟩
    let ty (id offset : Nat) (text : String) : Ty :=
      .path (node id offset) ⟨node (id + 1) offset, [⟨node (id + 2) offset, .ident text, none⟩]⟩
    let binding (id offset : Nat) (text : String) : Pattern :=
      .binding (node id offset) (name text offset) false
    [⟨node 1 0, .ownModule, .struct ⟨name "S" 7,
        ⟨[⟨node 2 9, name "T" 9, .type [] none⟩,
          ⟨node 3 12, name "T" 18, .const (ty 4 21 "u8") none⟩,
          ⟨node 7 25, name "T" 25, .type [] none⟩], none⟩, []⟩⟩,
      ⟨node 8 30, .ownModule, .inherentImpl ⟨
        ⟨[⟨node 9 35, name "Self" 35, .type [] none⟩], none⟩, ty 10 41 "S",
        [⟨node 13 45, .ownModule, .function ⟨name "m" 48, .none, some ⟨node 14 50, false, false⟩,
          [⟨node 15 56, .tuple (node 16 56) [binding 17 57 "self", binding 18 63 "x"],
              ty 19 67 "u8"⟩,
            ⟨node 22 71, binding 23 71 "x", ty 24 74 "u8"⟩], none,
          some ⟨node 27 78, [.bind (node 28 80) (binding 29 84 "y") none none,
            .bind (node 30 87) (binding 31 91 "y") none none], none⟩⟩⟩]⟩⟩]
  idBound := ⟨32⟩

/-- The constant `T` is in another namespace than the types, and blocks may repeat a name. -/
theorem Crate.local_duplicates_withRepeatedNames :
    withRepeatedNames.WellFormed ∧ ∃ r, withRepeatedNames.resolve {} = .ok r ∧
      r.errors.filter ResolveError.isRedefinition =
        [.genericParamRedefined "T" ⟨25, 1⟩ ⟨9, 1⟩, .duplicateDefinition "Self" ⟨41, 1⟩ ⟨35, 1⟩,
          .duplicateDefinition "self" ⟨57, 1⟩ ⟨50, 1⟩,
          .duplicateDefinition "x" ⟨71, 1⟩ ⟨63, 1⟩] := by
  have hwf : withRepeatedNames.WellFormed := by decide
  obtain ⟨s, -, hr, hreports, -⟩ := @local_duplicates_exact withRepeatedNames hwf {} rfl
  refine ⟨hwf, s.finish, hr, hreports.trans ?_⟩
  change duplicateReports _ ++ (withRepeatedNames.frames s.finish.tables).flatMap _ = _
  exact of_resolve hr (by decide +kernel)

end NameResolution
