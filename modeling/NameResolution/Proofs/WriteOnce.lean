import NameResolution.Proofs.Chains
import NameResolution.Proofs.Completion
import NameResolution.Proofs.TreeRules
import NameResolution.Proofs.Lexical.Entries

/-!
# NameResolution.Proofs.WriteOnce

**What a node was resolved to is entered once and never changed**
(`Crate.resolutions_written_once`). Entering is the only thing that is done to the tables
of resolved nodes, so each of them is the list of all that was ever entered in it
(`Resolution.Appends`). In a well-formed crate no node comes up twice in these lists, nor
in both of them, because every path, segment and type is a node of its own and is worked on
once.
-/

namespace NameResolution

open Resolution

/-- Whatever becomes of an action, what has been resolved before it stays as it is. -/
def Resolution.Appends (act : Resolution α) : Prop :=
  ∀ s : Session, s.tables.KeepsEntries (act.exec s).2.tables

namespace Resolution.Appends

theorem stable : Session.Stable fun s s' => s.tables.KeepsEntries s'.tables where
  refl s := .refl s.tables
  trans h₁ h₂ := h₁.trans h₂
  reporting s _ := .refl s.tables
  withPath s _ _ := .refl s.tables
  withBinding s space owner b := by
    have hsame : (s.withBinding space owner b).tables = s.tables := s.tables_withScope space _
    rw [hsame]
    exact .refl s.tables

/-- Nothing that is done to a session takes back what has been resolved. -/
theorem primitives : PrimitiveRules @Appends :=
  stable.primitives (fun _ _ h => h) (fun h => h) (fun h => h)

end Resolution.Appends

/-- **The tables of resolved nodes are written once.** Resolving a well-formed crate succeeds, and
in the result no node has two entries, be it in one of the tables of resolved nodes or in both; so
what is read for a node is all that was ever entered for it. Both passes only add entries, from
whatever session they start. -/
theorem Crate.resolutions_written_once {c : Crate} (hwf : c.WellFormed) (settings : Settings) :
    ∃ r, c.resolve settings = .ok r ∧ (r.tables.names.keys ++ r.tables.types.keys).Nodup ∧
      (∀ space use decl, (use, decl) ∈ (r.tables.entered space).entries ↔
        (r.tables.entered space).get? use = some decl) ∧
      Appends c.declare ∧ Appends c.resolveItems := by
  obtain ⟨s, r, h⟩ := c.exists_outcome hwf settings
  have hkeys := h.secondPass.nodup_keys (c.firstPass hwf settings) hwf
  rw [← h.tables] at hkeys
  obtain ⟨hnames, htypes, -⟩ := List.nodup_append.mp hkeys
  have rules : TreeRules @Appends := Appends.primitives.treeRules
  refine ⟨r, h.resolve, hkeys, fun space use decl => ?_, rules.declareCrate c, rules.resolveCrate c⟩
  cases space with
  | name => exact (lookup_iff_mem hnames).symm
  | type => exact (lookup_iff_mem htypes).symm

/-- A struct `S` and a function that takes one and names it in its body. -/
def Crate.withOneParameter : Crate where
  node := ⟨⟨0⟩, ⟨0, 40⟩⟩
  items :=
    let node (id offset : Nat) : Node := ⟨⟨id⟩, ⟨offset, 1⟩⟩
    let name (text : String) (offset : Nat) : Ident := ⟨text, ⟨offset, 1⟩⟩
    let path (id offset : Nat) (text : String) : Path :=
      ⟨node id offset, [⟨node (id + 1) offset, .ident text, none⟩]⟩
    [⟨node 1 0, .ownModule, .struct ⟨name "S" 7, .none, []⟩⟩,
      ⟨node 2 10, .ownModule, .function ⟨name "f" 13, .none, none,
        [⟨node 3 15, .binding (node 4 15) (name "a" 15) false, .path (node 5 18) (path 6 18 "S")⟩],
        some (.tuple (node 8 24) []),
        some ⟨node 9 27, [.expr (node 10 29) (.path (node 11 29) (path 12 29 "a"))], none⟩⟩⟩]
  idBound := ⟨14⟩

/-- The parameter is entered among the names, its type and the one that is returned among the
types. -/
theorem Crate.written_once_withOneParameter :
    withOneParameter.WellFormed ∧ ∃ r, withOneParameter.resolve {} = .ok r ∧
      r.tables.names.entries = [(⟨12⟩, ⟨4⟩), (⟨13⟩, ⟨4⟩)] ∧
      r.tables.types.keys = [⟨8⟩, ⟨6⟩, ⟨7⟩] ∧
      (r.tables.names.keys ++ r.tables.types.keys).Nodup := by
  have hwf : withOneParameter.WellFormed := by decide
  obtain ⟨r, hr, hnodup, -⟩ := resolutions_written_once hwf {}
  have hrun : (withOneParameter.resolve {}).toOption.map
      (fun r => (r.tables.names.entries, r.tables.types.keys)) =
        some ([(⟨12⟩, ⟨4⟩), (⟨13⟩, ⟨4⟩)], [⟨8⟩, ⟨6⟩, ⟨7⟩]) := by
    decide +kernel
  rw [hr] at hrun
  obtain ⟨hnames, htypes⟩ := Prod.mk.inj (Option.some.inj hrun)
  exact ⟨hwf, r, hr, hnames, htypes, hnodup⟩

end NameResolution
