import NameResolution.Proofs.PassRules
import NameResolution.Proofs.Lexical.Agreement

/-!
# NameResolution.Proofs.Lexical.Quiet

**Following a path binds nothing.** All that the steps along a path do is to enter what
they find out and to report where they cannot go on (`Quiet.steps`). None of that is about
a name that is introduced again, which only binding a name reports.
-/

namespace NameResolution

open Resolution

/-- What is reported of names that are introduced again. -/
def Ledger.redefinitions (l : Ledger) : List ResolveError :=
  l.reported.filter ResolveError.isRedefinition

/-- An action that only enters findings. -/
def Quiet (act : Resolution α) : Prop :=
  ∀ a s s', Runs act s a s' →
    ∃ l, s' = s.withLedger l ∧ l.redefinitions = s.ledger.redefinitions

namespace Quiet

variable {α β : Type} {act : Resolution α}

theorem of_runs {a : Session → α} {l : Session → Ledger}
    (h : ∀ s, Runs act s (a s) (s.withLedger (l s)))
    (hl : ∀ s, (l s).redefinitions = s.ledger.redefinitions) : Quiet act :=
  fun _ s _ hrun => ⟨l s, (hrun.eq (h s)).2.symm, hl s⟩

theorem bind {next : α → Resolution β} (h₁ : Quiet act) (h₂ : ∀ a, Quiet (next a)) :
    Quiet (act >>= next) := by
  intro b s s' hrun
  obtain ⟨a, s₁, hrun₁, hrun₂⟩ := hrun.bind_inv
  obtain ⟨l₁, rfl, hl₁⟩ := h₁ a s s₁ hrun₁
  obtain ⟨l₂, rfl, hl₂⟩ := h₂ a b _ s' hrun₂
  exact ⟨l₂, rfl, hl₂.trans hl₁⟩

/-- What a segment is resolved to is entered as a finding is. -/
theorem bindTo (seg : PathSegment) (space : Namespace) (decl here : NodeId) :
    Quiet (seg.bindTo space decl here) := by
  refine of_runs (a := fun _ => ())
    (l := fun s => s.ledger.note s (.segment space seg.node seg.ident.text decl here))
    (fun s => ?_) fun s => ?_
  · unfold PathSegment.bindTo bindSegment
    refine (runs_updateTables _ s).trans ?_
    cases hvis : s.tables.visibilities.get? decl <;> cases space <;>
      simp only [Ledger.note, Tables.setResolved, hvis] <;> rfl
  · cases hvis : s.tables.visibilities.get? decl <;> cases space <;>
      simp only [Ledger.note, hvis] <;> rfl

/-- Steps along a path only enter findings. -/
theorem steps : StepRules @Quiet where
  pure a := of_runs (a := fun _ => a) (l := Session.ledger) (fun s => Runs.pure a s) fun _ => rfl
  bind := bind
  complain e he := of_runs (a := fun _ => ())
    (l := fun s => { s.ledger with reported := s.ledger.reported ++ [e] })
    (fun s => runs_report e s) fun s => by simp [Ledger.redefinitions, he]
  get := of_runs (a := fun s => s) (l := Session.ledger) (fun _ => rfl) fun _ => rfl
  unclassified _ _ _ _ hrun := nomatch congrArg Prod.fst hrun
  bindTo := bindTo

/-- Taking a result as it is enters nothing. -/
theorem ofExcept (r : Except Violation α) : Quiet (Resolution.ofExcept r) := fun _ s _ hrun =>
  ⟨s.ledger, (congrArg Prod.snd hrun).symm, rfl⟩

theorem currentModule : Quiet currentModule := bind steps.get fun _ => ofExcept _

theorem rootModule : Quiet rootModule := bind steps.get fun _ => ofExcept _

theorem setResolved (space : Namespace) (use decl : NodeId) :
    Quiet (updateTables (·.setResolved space use decl)) :=
  of_runs (a := fun _ => ()) (l := fun s => s.ledger.setResolved space use decl)
    (fun s => by cases space <;> exact runs_updateTables _ s) fun s => by cases space <;> rfl

theorem setQualified (use : NodeId) (path : CanonicalPath) :
    Quiet (updateTables fun t => { t with qualified := t.qualified.set use path }) :=
  of_runs (a := fun _ => ())
    (l := fun s => { s.ledger with qualified := s.ledger.qualified.set use path })
    (fun s => runs_updateTables _ s) fun _ => rfl

theorem recordPath (path decl : NodeId) : Quiet (recordPath path decl) := by
  refine bind steps.get fun s => ?_
  split
  · exact steps.unclassified _
  · exact setResolved _ path decl

theorem resolveBuiltin (use : NodeId) (pick : Builtins → NodeId) :
    Quiet (resolveBuiltin use pick) :=
  bind steps.get fun _ => bind (setResolved .type use _) fun _ => steps.pure _

theorem pathOf (decl : NodeId) : Quiet (pathOf decl) := by
  refine bind steps.get fun s => ?_
  split
  · exact steps.pure _
  · exact fun _ _ _ hrun => nomatch congrArg Prod.fst hrun

theorem headPath (t : ResolvedTy) : Quiet t.headPath := by
  unfold ResolvedTy.headPath
  split
  · exact steps.pure _
  · exact bind (pathOf _) fun _ => steps.pure _
  · exact steps.pure _

end Quiet

end NameResolution
