import NameResolution.Proofs.Chains
import NameResolution.Proofs.TreeRules
import NameResolution.Proofs.Lexical.Replay

/-!
# NameResolution.Proofs.Lexical.Entries

**The tables of the second pass, entry by entry.** Entering findings puts one entry in
front for each finding that has something to enter and takes none away
(`Ledger.entries_noteAll`, `Ledger.entries_qualified_noteAll`). So in the end the tables
are lists that are read off the findings, and no node is entered twice in them
(`Crate.SecondPass.nodup_keys`).
-/

namespace NameResolution

/-- The entry that a finding makes in the table of a namespace. -/
def Finding.entryIn? (space : Namespace) : Finding → Option (NodeId × NodeId)
  | .segment own node _ decl _ => if own = space then some (node.id, decl) else none
  | .resolved own use decl => if own = space then some (use, decl) else none
  | .qualified _ _ | .error _ | .visit _ _ _ _ => none

/-- What makes an entry resolves a segment, or a path or a type. -/
theorem Finding.of_entryIn? {f : Finding} {space : Namespace} {use decl : NodeId}
    (h : f.entryIn? space = some (use, decl)) :
    (∃ node name here, f = .segment space node name decl here ∧ node.id = use) ∨
      f = .resolved space use decl := by
  cases f with
  | segment own node name decl' here =>
      obtain ⟨rfl, heq⟩ := Option.ite_none_right_eq_some.mp h
      cases heq
      exact Or.inl ⟨node, name, here, rfl, rfl⟩
  | resolved own use' decl' =>
      obtain ⟨rfl, heq⟩ := Option.ite_none_right_eq_some.mp h
      cases heq
      exact Or.inr rfl
  | qualified use' path => cases h
  | error e => cases h
  | visit path prefer env outcome => cases h

/-- The canonical form that a finding enters for a path that starts from a type. -/
def Finding.form? : Finding → Option (NodeId × CanonicalPath)
  | .qualified use path => some (use, path)
  | .segment _ _ _ _ _ | .resolved _ _ _ | .error _ | .visit _ _ _ _ => none

theorem Finding.form?_eq_some {f : Finding} {use : NodeId} {path : CanonicalPath} :
    f.form? = some (use, path) ↔ f = .qualified use path := by
  cases f <;> simp [form?]

namespace Ledger

variable {base : Session} {findings : List Finding}

/-- What has been entered in the table of a namespace. -/
def entered (l : Ledger) : Namespace → Register NodeId
  | .name => l.names
  | .type => l.types

theorem entries_setResolved (l : Ledger) (own space : Namespace) (use decl : NodeId) :
    ((l.setResolved own use decl).entered space).entries =
      (if own = space then some (use, decl) else none).toList ++ (l.entered space).entries := by
  cases own <;> cases space <;> rfl

theorem entries_note (l : Ledger) (space : Namespace) (f : Finding) :
    ((l.note base f).entered space).entries =
      (f.entryIn? space).toList ++ (l.entered space).entries := by
  cases f with
  | segment own node name decl here =>
      have hset := entries_setResolved l own space node.id decl
      simp only [note, Finding.entryIn?]
      -- Being a use site or not, a segment is entered in the same way.
      split
      · exact hset
      · rw [← hset]
        cases space <;> rfl
  | resolved own use decl => exact entries_setResolved l own space use decl
  | qualified use path => cases space <;> rfl
  | error e => cases space <;> rfl
  | visit path prefer env outcome => cases space <;> rfl

/-- One entry for each finding that resolves something in the namespace, the newest one first. -/
theorem entries_noteAll (space : Namespace) : ∀ (findings : List Finding) (l : Ledger),
    ((l.noteAll base findings).entered space).entries =
      (findings.filterMap (Finding.entryIn? space)).reverse ++ (l.entered space).entries
  | [], _ => rfl
  | f :: rest, l => by
      have hrest := entries_noteAll space rest (l.note base f)
      rw [entries_note] at hrest
      refine hrest.trans ?_
      rw [List.filterMap_cons]
      cases f.entryIn? space with
      | none => rfl
      | some entry => simp

theorem entries_qualified_noteAll : ∀ (findings : List Finding) (l : Ledger),
    (l.noteAll base findings).qualified.entries =
      (findings.filterMap Finding.form?).reverse ++ l.qualified.entries
  | [], _ => rfl
  | f :: rest, l => by
      have hf : (l.note base f).qualified.entries = f.form?.toList ++ l.qualified.entries := by
        cases f with
        | segment own node name decl here => cases own <;> simp only [note] <;> split <;> rfl
        | resolved own use decl => cases own <;> rfl
        | qualified use path => rfl
        | error e => rfl
        | visit path prefer env outcome => rfl
      have hrest := entries_qualified_noteAll rest (l.note base f)
      rw [hf] at hrest
      refine hrest.trans ?_
      rw [List.filterMap_cons]
      cases f.form? with
      | none => rfl
      | some entry => simp

end Ledger

/-! ### Keys -/

/-- What is entered in either table is entered for the node that the finding is about. -/
theorem keys_subperm_usesOf : ∀ findings : List Finding,
    List.Subperm ((findings.filterMap (Finding.entryIn? .name)).map Prod.fst ++
      (findings.filterMap (Finding.entryIn? .type)).map Prod.fst) (usesOf findings)
  | [] => List.Subperm.refl _
  | f :: rest => by
      have hrest := keys_subperm_usesOf rest
      -- A finding adds a key to one of the two lists and the same key to the uses.
      have hone : ∀ (own : Namespace) (use decl : NodeId),
          (∀ space, f.entryIn? space = if own = space then some (use, decl) else none) →
          f.use? = some use →
          List.Subperm (((f :: rest).filterMap (Finding.entryIn? .name)).map Prod.fst ++
            ((f :: rest).filterMap (Finding.entryIn? .type)).map Prod.fst)
            (usesOf (f :: rest)) := by
        intro own use decl hentry huse
        have hcons := (List.subperm_cons use).mpr hrest
        unfold usesOf at hcons ⊢
        rw [List.filterMap_cons, List.filterMap_cons, List.filterMap_cons, huse, hentry .name,
          hentry .type]
        cases own with
        | name => exact hcons
        | type => exact List.perm_middle.subperm.trans hcons
      cases f with
      | segment own node name decl here => exact hone own node.id decl (fun _ => rfl) rfl
      | resolved own use decl => exact hone own use decl (fun _ => rfl) rfl
      | qualified use path => exact hrest.trans (List.sublist_cons_self use _).subperm
      | error e => exact hrest
      | visit path prefer env outcome => exact hrest

theorem forms_sublist_usesOf (findings : List Finding) :
    List.Sublist ((findings.filterMap Finding.form?).map Prod.fst) (usesOf findings) := by
  unfold usesOf
  induction findings with
  | nil => exact List.Sublist.refl _
  | cons f rest ih =>
      cases f with
      | segment own node name decl here => exact ih.trans (List.sublist_cons_self _ _)
      | resolved own use decl => exact ih.trans (List.sublist_cons_self _ _)
      | qualified use path => exact ih.cons_cons use
      | error e => exact ih
      | visit path prefer env outcome => exact ih

/-! ### The tables in the end -/

namespace Crate.SecondPass

variable {c : Crate} {settings : Settings} {base s : Session}
  (hbase : c.FirstPass settings base) (hs : c.SecondPass base s)

include hbase hs

/-- Nothing is in the tables that has not been found out about. -/
theorem entries_entered (space : Namespace) : (s.tables.entered space).entries =
    ((c.read base).findings.filterMap (Finding.entryIn? space)).reverse := by
  have hentries : ((base.ledger.noteAll base (c.read base).findings).entered space).entries = _ :=
    Ledger.entries_noteAll space (c.read base).findings base.ledger
  obtain ⟨hnames, htypes, -⟩ := hbase.unresolved
  have hempty : (base.ledger.entered space).entries = [] := by
    cases space with
    | name => exact congrArg Register.entries hnames
    | type => exact congrArg Register.entries htypes
  rw [← hs.ledger, hempty, List.append_nil] at hentries
  rw [← hentries]
  cases space <;> rfl

omit hbase in
theorem nodup_uses (hwf : c.WellFormed) : (usesOf (c.read base).findings).Nodup := by
  obtain ⟨l, hperm, hsub⟩ := hs.uses
  exact hperm.nodup_iff.mp ((List.nodup_cons.mp hwf.1).2.sublist hsub)

/-- No node is entered twice, be it in one of the tables or in both. -/
theorem nodup_keys (hwf : c.WellFormed) : (s.tables.names.keys ++ s.tables.types.keys).Nodup := by
  have hnames := entries_entered hbase hs .name
  have htypes := entries_entered hbase hs .type
  change s.tables.names.entries = _ at hnames
  change s.tables.types.entries = _ at htypes
  unfold Register.keys
  rw [hnames, htypes, List.map_reverse, List.map_reverse]
  obtain ⟨l, hperm, hsub⟩ := keys_subperm_usesOf (c.read base).findings
  have hnodup := hperm.nodup_iff.mp ((nodup_uses hs hwf).sublist hsub)
  refine List.Perm.nodup_iff ?_ |>.mpr hnodup
  exact (List.reverse_perm _).append (List.reverse_perm _)

/-- The canonical form of a path that starts from a type is the one that has been found out. -/
theorem qualified_eq_some (hwf : c.WellFormed) {use : NodeId} {path : CanonicalPath} :
    s.tables.qualified.get? use = some path ↔ .qualified use path ∈ (c.read base).findings := by
  have hentries : (base.ledger.noteAll base (c.read base).findings).qualified.entries = _ :=
    Ledger.entries_qualified_noteAll (c.read base).findings base.ledger
  obtain ⟨-, -, hempty, -⟩ := hbase.unresolved
  have hnone : base.ledger.qualified.entries = [] := congrArg Register.entries hempty
  rw [← hs.ledger, hnone, List.append_nil] at hentries
  change s.tables.qualified.entries = _ at hentries
  have hnodup : (((c.read base).findings.filterMap Finding.form?).reverse.map Prod.fst).Nodup := by
    rw [List.map_reverse, List.nodup_reverse]
    exact (nodup_uses hs hwf).sublist (forms_sublist_usesOf _)
  unfold Register.get?
  rw [hentries, lookup_iff_mem hnodup, List.mem_reverse, List.mem_filterMap]
  simp only [Finding.form?_eq_some, exists_eq_right]

end Crate.SecondPass

end NameResolution
