import NameResolution.Proofs.Binders
import NameResolution.Proofs.Lexical.PathAgreement

/-!
# NameResolution.Proofs.Lexical.Introductions

**What a part of the second pass introduces depends on its environment alone.** `Introduced`
says all about a session in which some binders have introduced their names: there are
canonical paths for these and for what the first pass has declared, and nothing else
belongs to a namespace. An action `Adds` some binders if it goes from one such session to
another, and it always adds the same ones, whatever session it starts from. It `Introduces`
some of the binders that its part of the tree names if there are such binders among them.

An action that only enters findings introduces nothing (`Introduces.quiet`), and the rules
for sequencing and for frames are those of agreement.
-/

namespace NameResolution

open Resolution

/-- The entry of a binder in the table of canonical paths. -/
def Binder.entry (b : Binder) : NodeId × CanonicalPath := (b.id, b.path)

/-- Some binders have introduced their names, in this order, and nothing else has been named since
the first pass. -/
structure Session.Introduced (base : Session) (bs : List Binder) (s : Session) : Prop where
  paths : s.tables.paths.entries =
    (bs.map Binder.entry).reverse ++ base.tables.paths.entries
  nodup : (bs.map Binder.id).Nodup
  known : ∀ b ∈ bs, s.classify b.id = some b.space
  /-- What no name stood for before can have become a type, since `Self` may stand for it. -/
  classified : ∀ id space, s.classify id = some space →
    base.classify id = some space ∨ (∃ b ∈ bs, b.id = id ∧ b.space = space) ∨
      space = .type ∧ base.Nameable id
  bound : ∀ space owner key b, (s.scope space).bindingIn? owner key = some b →
    b.id ∈ (s.scope space).declared
  /-- The ribs of modules are as the first pass has left them. -/
  ribs : ∀ space module r, base.tables.isModule module = true →
    (base.scope space).rib? module = some r → (s.scope space).rib? module = some r

/-- What a finding enters is on record, and a path or a type is entered in the namespace of its
declaration, or is a type that is built in. -/
def Finding.Closed (base s : Session) : Finding → Prop
  | .segment _ _ _ decl _ => ∃ m, s.Knows m ∧ m.decl = decl
  | .resolved space _ decl =>
    (∃ path, s.Knows ⟨decl, space, path⟩) ∨ space = .type ∧ decl ∈ base.builtins.types
  | .qualified _ _ | .error _ | .visit _ _ _ _ => True

open Session (Introduced)

/-- What has become of a session after a part of the second pass. -/
structure Session.Proceeds (base : Session) (bs : List Binder) (findings : List Finding)
    (s s' : Session) : Prop where
  introduced : base.Introduced bs s'
  closed : ∀ f ∈ findings, f.Closed base s'
  knows : ∀ m, s.Knows m → s'.Knows m

/-- Under a condition on the session, an action leaves what it enters closed and introduces these
binders, whatever has been introduced before. -/
def Adds (base : Session) (pre : Session → Prop) (added : List Binder) (act : Resolution α)
    (r : Reading β) : Prop :=
  ∀ bs a s s', pre s → base.Introduced bs s → Runs act s a s' →
    base.Proceeds (bs ++ added) r.findings s s'

/-- An action introduces some of the binders that are named, the same ones in every session. -/
def Introduces (base : Session) (pre : Session → Prop) (named : List Binder) (act : Resolution α)
    (r : Reading β) : Prop :=
  ∃ added : List Binder, added.Sublist named ∧ Adds base pre added act r

/-- The innermost rib of both namespaces is not that of a module. -/
def Session.LocalRib (base s : Session) : Prop :=
  ∀ space owner, (s.scope space).opened.head? = some owner → base.tables.isModule owner = false

theorem Session.LocalRib.openFrame {base : Session} (s : Session) {owner : NodeId}
    (h : base.tables.isModule owner = false) : base.LocalRib (s.openFrame owner) := by
  intro space o hhead
  rw [scope_openFrame, Scope.opened_push] at hhead
  cases hhead
  exact h

theorem Session.LocalRib.grows {base s s' : Session} {ids : List NodeId} (h : base.LocalRib s)
    (hgrows : s.Grows ids s') : base.LocalRib s' := fun space owner hhead =>
  h space owner (hgrows.opened space ▸ hhead)

/-- The nodes are still to be worked on, and there is a frame for further names. -/
structure Framed (base : Session) (env : Env) (ids : List NodeId) (s : Session) : Prop where
  ready : Ready base env ids s
  frames : env.frames ≠ []
  innermost : base.LocalRib s

namespace Framed

variable {base s s' : Session} {env env' : Env} {id : NodeId} {ids ids₁ ids₂ : List NodeId}
  {l : List Finding}

theorem mono (h : Framed base env ids₂ s) (hids : List.Subperm ids₁ ids₂) :
    Framed base env ids₁ s := ⟨h.ready.mono hids, h.frames, h.innermost⟩

theorem tail (h : Framed base env (id :: ids) s) : Framed base env ids s :=
  h.mono (List.sublist_cons_self _ _).subperm

theorem left (h : Framed base env (ids₁ ++ ids₂) s) : Framed base env ids₁ s :=
  ⟨h.ready.left, h.frames, h.innermost⟩

/-- The innermost frame stays open while names are introduced. -/
theorem right (h : Framed base env (ids₁ ++ ids₂) s) (hstep : Step base ids₁ l s s')
    (hextents : env'.extents = env.extents) (hstands : Stands base env' s') :
    Framed base env' ids₂ s' := by
  refine ⟨h.ready.right hstep hextents hstands, fun hnil => h.frames ?_,
    h.innermost.grows hstep.grows⟩
  simpa [Env.extents, hnil] using hextents.symm

/-- A node that nothing is known about opens its frame. -/
theorem enter {owner : NodeId} {extent : List NodeId} (h : Ready base env (owner :: ids) s)
    (hextent : owner :: ids ⊆ extent) :
    Framed base (env.enter owner extent) ids (s.openFrame owner) := by
  refine ⟨h.enter hextent, List.cons_ne_nil _ _, .openFrame s ?_⟩
  have hchildless := (h.unused owner List.mem_cons_self).childless
  rw [← h.stands.tables.isModule]
  simp [Tables.isModule, hchildless]

end Framed

/-! ### Sessions -/

namespace Session

variable {base s s' : Session} {bs : List Binder}

/-- Whatever names something has been declared under that name or under that of its binder. -/
theorem Introduced.get?_paths (h : base.Introduced bs s) {id : NodeId} {path : CanonicalPath}
    (hpath : s.tables.paths.get? id = some path) :
    (∃ b ∈ bs, b.id = id ∧ b.path = path) ∨ base.tables.paths.get? id = some path := by
  unfold Register.get? at hpath
  rw [h.paths, List.lookup_append] at hpath
  rcases Option.or_eq_some_iff.mp hpath with hlookup | ⟨-, hbase⟩
  · obtain ⟨l₁, l₂, hsplit, -⟩ := List.lookup_eq_some_iff.mp hlookup
    have hmem : (id, path) ∈ bs.map Binder.entry :=
      List.mem_reverse.mp (hsplit ▸ List.mem_append_right _ List.mem_cons_self)
    obtain ⟨b, hb, hentry⟩ := List.mem_map.mp hmem
    obtain ⟨rfl, rfl⟩ := Prod.mk.inj hentry
    exact Or.inl ⟨b, hb, rfl, rfl⟩
  · exact Or.inr hbase

/-- It matters what is bound, declared and named, but not which ribs are open or what has been
found out otherwise. -/
theorem Introduced.congr (h : base.Introduced bs s)
    (hribs : ∀ space owner r, (s.scope space).rib? owner = some r →
      (s'.scope space).rib? owner = some r)
    (hbindings : ∀ space owner key,
      (s'.scope space).bindingIn? owner key = (s.scope space).bindingIn? owner key)
    (hdeclared : ∀ space, (s'.scope space).declared = (s.scope space).declared)
    (hpaths : s'.tables.paths = s.tables.paths)
    (hcontainers : s'.tables.containers = s.tables.containers) : base.Introduced bs s' := by
  have hclass : ∀ id, s'.classify id = s.classify id := fun id =>
    classify_congr (fun space => by rw [hdeclared]) (by unfold Tables.isModule; rw [hcontainers])
  exact
    { paths := hpaths ▸ h.paths
      nodup := h.nodup
      known := fun b hb => (hclass b.id).trans (h.known b hb)
      classified := fun id space hid => h.classified id space ((hclass id).symm.trans hid)
      bound := fun space owner key b hb => by
        rw [hdeclared]
        exact h.bound space owner key b ((hbindings space owner key).symm.trans hb)
      ribs := fun space module r hmodule hr =>
        hribs space module r (h.ribs space module r hmodule hr) }

theorem Introduced.openFrame (h : base.Introduced bs s) (owner : NodeId) :
    base.Introduced bs (s.openFrame owner) :=
  h.congr (fun space o r hr => by rw [scope_openFrame, Scope.rib?_push, hr, Option.some_or])
    (fun space o key => by rw [scope_openFrame, Scope.bindingIn?_push])
    (fun space => by rw [scope_openFrame, Scope.declared_push]) rfl rfl

theorem Introduced.openModule (h : base.Introduced bs s) (module : NodeId) :
    base.Introduced bs (s.openModule module) :=
  h.congr (fun space o r hr => by rw [scope_openModule, Scope.rib?_push, hr, Option.some_or])
    (fun space o key => by rw [scope_openModule, Scope.bindingIn?_push])
    (fun space => by rw [scope_openModule, Scope.declared_push]) rfl rfl

theorem Introduced.withoutFrame (h : base.Introduced bs s) :
    base.Introduced bs s.withoutFrame :=
  h.congr (fun space o r hr => by rw [scope_withoutFrame]; exact hr)
    (fun space o key => by rw [scope_withoutFrame]; rfl)
    (fun space => by rw [scope_withoutFrame]) rfl rfl

theorem Introduced.withoutModule (h : base.Introduced bs s) :
    base.Introduced bs s.withoutModule :=
  h.congr (fun space o r hr => by rw [scope_withoutModule]; exact hr)
    (fun space o key => by rw [scope_withoutModule]; rfl)
    (fun space => by rw [scope_withoutModule]) rfl rfl

theorem Introduced.withLedger (h : base.Introduced bs s) (l : Ledger) :
    base.Introduced bs (s.withLedger l) :=
  h.congr (fun space o r hr => by rw [scope_withLedger]; exact hr)
    (fun space o key => by rw [scope_withLedger]) (fun space => by rw [scope_withLedger]) rfl rfl

end Session

/-- What is on record stays on record. -/
theorem Finding.Closed.mono {base s s' : Session} {f : Finding} (h : f.Closed base s)
    (hknows : ∀ m, s.Knows m → s'.Knows m) : f.Closed base s' := by
  cases f with
  | segment space node name decl here => exact h.imp fun m hm => hm.imp_left (hknows m)
  | resolved space use decl => exact h.imp_left fun ⟨path, hm⟩ => ⟨path, hknows _ hm⟩
  | qualified use path => trivial
  | error e => trivial
  | visit path prefer env outcome => trivial

namespace Session.Proceeds

variable {base s s₁ s₂ : Session} {bs bs₁ bs₂ : List Binder}
  {l l₁ l₂ : List Finding}

theorem trans (h₁ : base.Proceeds bs₁ l₁ s s₁) (h₂ : base.Proceeds bs₂ l₂ s₁ s₂) :
    base.Proceeds bs₂ (l₁ ++ l₂) s s₂ where
  introduced := h₂.introduced
  closed f hf := by
    rcases List.mem_append.mp hf with hf | hf
    · exact (h₁.closed f hf).mono h₂.knows
    · exact h₂.closed f hf
  knows m h := h₂.knows m (h₁.knows m h)

/-- What was done with a frame open, seen from around it. -/
theorem inFrame {owner : NodeId} (h : base.Proceeds bs l (s.openFrame owner) s₁) :
    base.Proceeds bs l s s₁.withoutFrame where
  introduced := h.introduced.withoutFrame
  closed f hf := (h.closed f hf).mono fun _ hm => hm.congr rfl rfl
  knows m hm := (h.knows m (hm.congr rfl rfl)).congr rfl rfl

/-- What was done in a module, seen from around it. -/
theorem inModule {module : NodeId} (h : base.Proceeds bs l (s.openModule module) s₁) :
    base.Proceeds bs l s s₁.withoutModule where
  introduced := h.introduced.withoutModule
  closed f hf := (h.closed f hf).mono fun _ hm => hm.congr rfl rfl
  knows m hm := (h.knows m (hm.congr rfl rfl)).congr rfl rfl

end Session.Proceeds

/-! ### Composition -/

namespace Adds

variable {base : Session} {pre pre' : Session → Prop} {added added₁ added₂ : List Binder}
  {α β γ δ : Type} {act : Resolution α} {r : Reading β}

theorem pure (a : α) (b : β) : Adds base pre [] (Pure.pure a) (Pure.pure b) := by
  intro bs a' s s' _ hs hrun
  obtain ⟨-, rfl⟩ := hrun.eq (Runs.pure a s)
  rw [List.append_nil]
  exact ⟨hs, fun _ hf => (nomatch hf), fun _ hm => hm⟩

/-- Two parts, one after the other. The answer of the first one is known. -/
theorem bind {next : α → Resolution γ} {next' : β → Reading δ} {a₀ : α}
    (h₁ : Adds base pre added₁ act r)
    (hnext : ∀ bs a s s', pre s → base.Introduced bs s → Runs act s a s' → a = a₀ ∧ pre' s')
    (h₂ : Adds base pre' added₂ (next a₀) (next' r.value)) :
    Adds base pre (added₁ ++ added₂) (act >>= next) (r >>= next') := by
  intro bs c s s₂ hpre hs hrun
  obtain ⟨a, s₁, hrun₁, hrun₂⟩ := hrun.bind_inv
  obtain ⟨rfl, hpre'⟩ := hnext bs a s s₁ hpre hs hrun₁
  have hfirst := h₁ bs a s s₁ hpre hs hrun₁
  have hlast := h₂ (bs ++ added₁) c s₁ s₂ hpre' hfirst.introduced hrun₂
  rw [List.append_assoc] at hlast
  exact hfirst.trans hlast

/-- An action in a frame of its own. -/
theorem inFrame {owner : NodeId} (henter : ∀ s, pre s → pre' (s.openFrame owner))
    (h : Adds base pre' added act r) : Adds base pre added (Resolution.inFrame owner act) r := by
  intro bs a s s' hpre hs hrun
  obtain ⟨s₁, hrun₁, rfl⟩ := hrun.inFrame_inv
  exact (h bs a _ s₁ (henter s hpre) (hs.openFrame owner) hrun₁).inFrame

/-- An action inside a module. -/
theorem inModule {module : NodeId} (henter : ∀ s, pre s → pre' (s.openModule module))
    (h : Adds base pre' added act r) : Adds base pre added (Resolution.inModule module act) r := by
  intro bs a s s' hpre hs hrun
  obtain ⟨s₁, hrun₁, rfl⟩ := hrun.inModule_inv
  exact (h bs a _ s₁ (henter s hpre) (hs.openModule module) hrun₁).inModule

end Adds

namespace Introduces

variable {base : Session} {env : Env} {pre pre' : Session → Prop} {ids ids₁ ids₂ : List NodeId}
  {named named₁ named₂ : List Binder} {α β γ δ : Type} {act : Resolution α} {r : Reading β}
  {after : β → Env} {R : α → β → Session → Prop}

/-- Less may be asked of the session, and more binders may be named. -/
theorem weaken (h : Introduces base pre' named₁ act r) (hpre : ∀ s, pre s → pre' s)
    (hsub : named₁.Sublist named₂) : Introduces base pre named₂ act r := by
  obtain ⟨added, hadded, h⟩ := h
  exact ⟨added, hadded.trans hsub, fun bs a s s' hs => h bs a s s' (hpre s hs)⟩

/-- A part may name nothing. -/
theorem unnamed (h : Introduces base pre (named ++ []) act r) : Introduces base pre named act r :=
  h.weaken (fun _ hs => hs) (by rw [List.append_nil])

theorem under (h : Introduces base pre' named act r) (hpre : ∀ s, pre s → pre' s) :
    Introduces base pre named act r := h.weaken hpre (List.Sublist.refl _)

/-- Nothing is read but what is found out. -/
theorem congr {r' : Reading δ} (h : Introduces base pre named act r)
    (hfindings : r'.findings = r.findings) : Introduces base pre named act r' := by
  unfold Introduces Adds at h ⊢
  rwa [hfindings]

/-- Two parts, one after the other. The answer of the first one is known. -/
theorem bind {next : α → Resolution γ} {next' : β → Reading δ} {a₀ : α}
    (h₁ : Introduces base pre named₁ act r)
    (hnext : ∀ bs a s s', pre s → base.Introduced bs s → Runs act s a s' → a = a₀ ∧ pre' s')
    (h₂ : Introduces base pre' named₂ (next a₀) (next' r.value)) :
    Introduces base pre (named₁ ++ named₂) (act >>= next) (r >>= next') := by
  obtain ⟨added₁, hsub₁, h₁⟩ := h₁
  obtain ⟨added₂, hsub₂, h₂⟩ := h₂
  exact ⟨added₁ ++ added₂, hsub₁.append hsub₂, h₁.bind hnext h₂⟩

/-- What is looked up without changing the session is known to what follows. -/
theorem runs_bind {act₀ : Resolution γ} {c : γ} {next : γ → Resolution α}
    (hrun : ∀ s, pre s → Runs act₀ s c s) (h : Introduces base pre named (next c) r) :
    Introduces base pre named (act₀ >>= next) r := by
  obtain ⟨added, hadded, h⟩ := h
  refine ⟨added, hadded, fun bs a s s' hpre hs hruns => ?_⟩
  obtain ⟨c', s₁, hrun₁, hrun₂⟩ := hruns.bind_inv
  obtain ⟨rfl, rfl⟩ := hrun₁.eq (hrun s hpre)
  exact h bs a s s' hpre hs hrun₂

/-- The answer is passed on as something else. -/
theorem map {f : α → γ} {g : β → δ} (h : Introduces base pre named act r) :
    Introduces base pre named (act >>= fun a => Pure.pure (f a))
      (r >>= fun b => Pure.pure (g b)) := by
  obtain ⟨added, hadded, h⟩ := h
  refine ⟨added, hadded, fun bs c s s' hpre hs hrun => ?_⟩
  obtain ⟨a, s₁, hrun₁, hrun₂⟩ := hrun.bind_inv
  obtain ⟨-, rfl⟩ := hrun₂.eq (Runs.pure (f a) s₁)
  simpa only [Reading.findings_bind, Reading.findings_pure, List.append_nil] using
    h bs a s s₁ hpre hs hrun₁

theorem discard (h : Introduces base pre named act r) :
    Introduces base pre named (Functor.discard act) (Functor.discard r) := h.map

/-- Only the value that is read is passed on as something else. -/
theorem mapRead {g : β → δ} (h : Introduces base pre named act r) :
    Introduces base pre named act (r >>= fun b => Pure.pure (g b)) :=
  h.congr (by rw [Reading.findings_bind, Reading.findings_pure, List.append_nil])

/-! ### Entering findings -/

/-- An action that only enters findings. -/
theorem quiet
    (hquiet : ∀ a s s', pre s → Runs act s a s' → ∃ l, s' = s.withLedger l)
    (hclosed : ∀ bs a s s', pre s → base.Introduced bs s → Runs act s a s' →
      ∀ f ∈ r.findings, f.Closed base s') :
    Introduces base pre named act r := by
  refine ⟨[], List.nil_sublist _, fun bs a s s' hpre hs hrun => ?_⟩
  have hfindings := hclosed bs a s s' hpre hs hrun
  obtain ⟨l, rfl⟩ := hquiet a s s' hpre hrun
  rw [List.append_nil]
  exact ⟨hs.withLedger l, hfindings, fun _ hm => hm.congr rfl rfl⟩

theorem pure (a : α) (b : β) : Introduces base pre named (Pure.pure a) (Pure.pure b) :=
  quiet (fun _ s _ _ hrun => ⟨s.ledger, (hrun.eq (Runs.pure a s)).2.symm⟩)
    fun _ _ _ _ _ _ _ _ hf => nomatch hf

/-- An action that agrees with its reading keeps what is known. -/
theorem of_agrees {added : List Binder} (hadded : added.Sublist named)
    (hagrees : ∀ s, pre s → Agrees base env ids s act r after R)
    (hintroduced : ∀ bs a s s', pre s → base.Introduced bs s → Runs act s a s' →
      base.Introduced (bs ++ added) s')
    (hclosed : ∀ f ∈ r.findings, ∀ s', f.Closed base s') : Introduces base pre named act r := by
  refine ⟨added, hadded, fun bs a s s' hpre hs hrun => ?_⟩
  obtain ⟨-, -, -, hstep⟩ := (hagrees s hpre).of_runs hrun
  exact ⟨hintroduced bs _ s _ hpre hs hrun, fun f hf => hclosed f hf _, hstep.knows⟩

/-! ### Parts whose nodes are still to be worked on -/

theorem skip {id : NodeId} (h : Introduces base (Ready base env ids) named act r) :
    Introduces base (Ready base env (id :: ids)) named act r := h.under fun _ hs => hs.tail

theorem perm (h : Introduces base (Ready base env ids₁) named act r) (hids : ids₁.Perm ids₂) :
    Introduces base (Ready base env ids₂) named act r := h.under fun _ hs => hs.mono hids.subperm

/-- Two parts, one after the other. What the first one agrees with says what it leaves to the second
one. -/
theorem bind_agrees {next : α → Resolution γ} {next' : β → Reading δ} {a₀ : α}
    (hagrees : ∀ s, pre s → Agrees base env ids s act r after R)
    (hnext : ∀ a s s', pre s → Step base ids r.findings s s' →
      (after r.value).extents = env.extents → Stands base (after r.value) s' → R a r.value s' →
      a = a₀ ∧ pre' s')
    (h₁ : Introduces base pre named₁ act r)
    (h₂ : Introduces base pre' named₂ (next a₀) (next' r.value)) :
    Introduces base pre (named₁ ++ named₂) (act >>= next) (r >>= next') := by
  refine bind h₁ (fun _ a s s' hpre _ hrun => ?_) h₂
  obtain ⟨hR, hstands, hextents, hstep⟩ := (hagrees s hpre).of_runs hrun
  exact hnext a s s' hpre hstep hextents hstands hR

/-- The first part answers nothing. -/
theorem seq_agrees {act : Resolution Unit} {R : Unit → β → Session → Prop}
    {next : Unit → Resolution γ} {next' : β → Reading δ}
    (hagrees : ∀ s, pre s → Agrees base env ids s act r after R)
    (hnext : ∀ s s', pre s → Step base ids r.findings s s' →
      (after r.value).extents = env.extents → Stands base (after r.value) s' → pre' s')
    (h₁ : Introduces base pre named₁ act r)
    (h₂ : Introduces base pre' named₂ (next ()) (next' r.value)) :
    Introduces base pre (named₁ ++ named₂) (act >>= next) (r >>= next') :=
  bind_agrees hagrees (fun _ s s' hpre hstep hextents hstands _ =>
    ⟨rfl, hnext s s' hpre hstep hextents hstands⟩) h₁ h₂

/-- The second part is worked on in the environment that the first one has made. -/
theorem bind_ready {next : α → Resolution γ} {next' : β → Reading δ} {a₀ : α}
    (hagrees : ∀ s, Ready base env ids₁ s → Agrees base env ids₁ s act r after R)
    (hanswer : ∀ a s', R a r.value s' → a = a₀)
    (h₁ : Introduces base (Ready base env ids₁) named₁ act r)
    (h₂ : Introduces base (fun s' => Ready base (after r.value) ids₂ s' ∧ R a₀ r.value s') named₂
      (next a₀) (next' r.value)) :
    Introduces base (Ready base env (ids₁ ++ ids₂)) (named₁ ++ named₂) (act >>= next)
      (r >>= next') :=
  bind_agrees (fun s hs => hagrees s hs.left) (fun a _ s' hs hstep hextents hstands hR => by
    obtain rfl := hanswer a s' hR
    exact ⟨rfl, hs.right hstep hextents hstands, hR⟩) (h₁.under fun _ hs => hs.left) h₂

theorem seq_ready {act : Resolution Unit} {R : Unit → β → Session → Prop}
    {next : Unit → Resolution γ} {next' : β → Reading δ}
    (hagrees : ∀ s, Ready base env ids₁ s → Agrees base env ids₁ s act r after R)
    (h₁ : Introduces base (Ready base env ids₁) named₁ act r)
    (h₂ : Introduces base (Ready base (after r.value) ids₂) named₂ (next ()) (next' r.value)) :
    Introduces base (Ready base env (ids₁ ++ ids₂)) (named₁ ++ named₂) (act >>= next)
      (r >>= next') :=
  bind_ready hagrees (fun _ _ _ => rfl) h₁ (h₂.under fun _ hs => hs.1)

/-- The first part may introduce names in the innermost frame, which stays open. -/
theorem seq_framed {act : Resolution Unit} {R : Unit → β → Session → Prop}
    {next : Unit → Resolution γ} {next' : β → Reading δ}
    (hagrees : ∀ s, Framed base env ids₁ s → Agrees base env ids₁ s act r after R)
    (h₁ : Introduces base (Framed base env ids₁) named₁ act r)
    (h₂ : Introduces base (Framed base (after r.value) ids₂) named₂ (next ()) (next' r.value)) :
    Introduces base (Framed base env (ids₁ ++ ids₂)) (named₁ ++ named₂) (act >>= next)
      (r >>= next') :=
  seq_agrees (fun s hs => hagrees s hs.left)
    (fun _ _ hs hstep hextents hstands => hs.right hstep hextents hstands)
    (h₁.under fun _ hs => hs.left) h₂

/-- An action in a frame of its own. -/
theorem inFrame {owner : NodeId} (henter : ∀ s, pre s → pre' (s.openFrame owner))
    (h : Introduces base pre' named act r) :
    Introduces base pre named (Resolution.inFrame owner act) r :=
  have ⟨added, hadded, h⟩ := h
  ⟨added, hadded, h.inFrame henter⟩

end Introduces

/-! ### Names that are bound -/

section Binding

variable {base s : Session} {env : Env} {bs : List Binder}

theorem Session.Unused.classify {id : NodeId} (h : s.Unused id) : s.classify id = none := by
  have hnames := h.undeclared .name
  have htypes := h.undeclared .type
  rw [Session.scope_name] at hnames
  rw [Session.scope_type] at htypes
  simp [Session.classify, Scope.wasDeclared, Tables.isModule, hnames, htypes, h.childless]

/-- What is bound in the innermost rib is declared, if everything was before. -/
theorem Session.Introduced.bound_withBinding (hs : base.Introduced bs s) {space : Namespace}
    {owner : NodeId} (hrib : ((s.scope space).rib? owner).isSome) (new : Binding) (x : Namespace)
    (o : NodeId) (key : CanonicalPath) (b : Binding)
    (hb : ((s.withBinding space owner new).scope x).bindingIn? o key = some b) :
    b.id ∈ ((s.withBinding space owner new).scope x).declared := by
  rw [Session.bindingIn?_withBinding hrib] at hb
  rw [Session.declared_withBinding]
  split at hb
  · next hnew =>
    cases hb
    rw [if_pos hnew.1]
    exact List.mem_cons_self
  · have hold := hs.bound x o key b hb
    split
    · exact List.mem_cons_of_mem _ hold
    · exact hold

/-- What is bound elsewhere does not change the rib of a module. -/
theorem Session.Introduced.ribs_withBinding (hs : base.Introduced bs s) {owner : NodeId}
    (howner : base.tables.isModule owner = false) (space : Namespace) (new : Binding)
    (x : Namespace) (module : NodeId) (r : Rib) (hmodule : base.tables.isModule module = true)
    (hr : (base.scope x).rib? module = some r) :
    ((s.withBinding space owner new).scope x).rib? module = some r := by
  have hne : module ≠ owner := fun heq => by
    rw [heq, howner] at hmodule
    cases hmodule
  have hold := hs.ribs x module r hmodule hr
  rw [Session.withBinding, Session.scope_withScope]
  split
  · next hx =>
    rw [← hx, Scope.rib?_bindIn, hold, Option.map_some, if_neg hne]
  · exact hold

/-- What a binder introduces under its own name. -/
def Binder.localName (b : Binder) (locus : Span) : LocalName := .own b.space b.id b.name locus

/-- A node that was unused belongs to the namespace that it is bound in, and nothing else changes
its namespace. -/
theorem Session.Introduced.boundOwn (hs : base.Introduced bs s) {b : Binder}
    (hunused : s.Unused b.id) {owner : NodeId} (hrib : ((s.scope b.space).rib? owner).isSome)
    (howner : base.tables.isModule owner = false) (locus : Span) :
    base.Introduced (bs ++ [b]) (boundOwn s b.space owner (b.localName locus)) := by
  have hself : (NameResolution.boundOwn s b.space owner (b.localName locus)).classify b.id =
      some b.space := (knows_own hunused owner).classified
  have hother : ∀ id ≠ b.id,
      (NameResolution.boundOwn s b.space owner (b.localName locus)).classify id =
        s.classify id := fun id hne => by
    refine Session.classify_congr (fun x => ?_) (by rw [tables_boundOwn]; rfl)
    rw [scope_boundOwn]
    exact Session.mem_declared_withBinding_of_ne hne x
  have hapart : ∀ b' ∈ bs, b'.id ≠ b.id := fun b' hb' heq => by
    have hknown := hs.known b' hb'
    rw [heq, hunused.classify] at hknown
    cases hknown
  refine ⟨?_, ?_, fun b' hb' => ?_, fun id space hid => ?_, fun x o key found hfound => ?_,
    fun x module r hmodule hr => ?_⟩
  · rw [tables_boundOwn, List.map_append, List.reverse_append]
    exact congrArg ((b.id, b.path) :: ·) hs.paths
  · rw [List.map_append]
    refine List.nodup_append.mpr
      ⟨hs.nodup, List.pairwise_singleton _ _, fun id hid other hother => ?_⟩
    obtain ⟨b', hb', rfl⟩ := List.mem_map.mp hid
    rw [List.mem_singleton.mp hother]
    exact hapart b' hb'
  · rcases List.mem_append.mp hb' with hb' | hb'
    · exact (hother b'.id (hapart b' hb')).trans (hs.known b' hb')
    · rw [List.mem_singleton.mp hb']
      exact hself
  · by_cases hnew : id = b.id
    · subst hnew
      rw [hself] at hid
      exact Or.inr (Or.inl ⟨b, by simp, rfl, Option.some.inj hid⟩)
    · rw [hother id hnew] at hid
      refine (hs.classified id space hid).imp_right (Or.imp_left fun ⟨b', hb', hsame⟩ => ?_)
      exact ⟨b', List.mem_append_left _ hb', hsame⟩
  · rw [scope_boundOwn] at hfound ⊢
    exact hs.bound_withBinding hrib _ x o key found hfound
  · rw [scope_boundOwn]
    exact hs.ribs_withBinding howner _ _ x module r hmodule hr

/-- What `Self` is bound to becomes a type at most, if it belonged to no namespace. -/
theorem Session.Introduced.boundSelf (hs : base.Introduced bs s) {owner : NodeId}
    (hrib : ((s.scope .type).rib? owner).isSome) (howner : base.tables.isModule owner = false)
    {l : LocalName} (hl : s.Offers l.meaning)
    (hnameable : s.Nameable l.meaning.decl → base.Nameable l.meaning.decl) :
    base.Introduced bs (boundSelf s owner l) where
  paths := hs.paths
  nodup := hs.nodup
  known b hb := classify_boundSelf (hs.known b hb)
  classified id space hid := by
    cases hclass : s.classify id with
    | some space' =>
        rw [classify_boundSelf hclass] at hid
        exact hs.classified id space (hid ▸ hclass)
    | none =>
        rw [classify_boundSelf_of_none hclass] at hid
        split at hid
        · next hdecl =>
          cases hid
          rw [hdecl] at hclass ⊢
          rcases hl.classified with hsome | ⟨-, -, hself⟩
          · rw [hclass] at hsome
            cases hsome
          · exact Or.inr (Or.inr ⟨rfl, hnameable hself⟩)
        · cases hid
  bound x o key b hb := hs.bound_withBinding hrib l.binding x o key b hb
  ribs x module r hmodule hr := hs.ribs_withBinding howner .type l.binding x module r hmodule hr

/-- The action by which a binder introduces its name. -/
def Binder.bind (b : Binder) (locus : Span) (shadow : Bool)
    (complaint : Binding → Binding → ResolveError) : Resolution Unit :=
  bindOwn b.space b.id b.name locus shadow complaint

/-- What is reported of a name that is refused is the only finding. -/
theorem closed_readNew (space : Namespace) (l : LocalName)
    (complaint : Binding → Binding → ResolveError) :
    ∀ f ∈ (env.readNew space l complaint).findings, ∀ s' : Session, f.Closed base s' := by
  intro f hf s'
  unfold Env.readNew at hf
  split at hf
  · simp only [Reading.findings_bind, Reading.findings_note, Reading.findings_pure,
      List.append_nil, List.mem_singleton] at hf
    rw [hf]
    trivial
  · cases hf

section Own

variable {b : Binder} {locus : Span} {complaint : Binding → Binding → ResolveError}

/-- A name that is new in the innermost frame, or may be repeated there. -/
private theorem Framed.introduced_bind {a : Unit} {s' : Session} (hs : Framed base env [b.id] s)
    {shadow : Bool} (hnew : shadow = true ∨ env.findInnermost? b.space b.name = none)
    (hin : base.Introduced bs s) (hrun : Runs (b.bind locus shadow complaint) s a s') :
    base.Introduced (bs ++ [b]) s' := by
  obtain ⟨f, outer, hframes⟩ := List.exists_cons_of_ne_nil hs.frames
  obtain ⟨-, rfl⟩ := hrun.eq (hs.ready.runs_bindOwn hframes hnew complaint)
  exact hin.boundOwn (hs.ready.unused b.id List.mem_cons_self)
    (hs.ready.stands.isSome_rib?_innermost hframes b.space)
    (hs.innermost b.space f.owner (hs.ready.stands.head?_opened hframes b.space)) locus

theorem introduces_bindNew :
    Introduces base (Framed base env [b.id]) [b] (b.bind locus false complaint)
      (env.readNew b.space (b.localName locus) complaint) := by
  have hagrees : ∀ s, Framed base env [b.id] s → Agrees base env [b.id] s
      (b.bind locus false complaint) (env.readNew b.space (b.localName locus) complaint) id
      (fun _ _ _ => True) := fun s hs => agrees_bindNew hs.ready hs.frames complaint
  cases hfind : env.findInnermost? b.space b.name with
  | none =>
      exact .of_agrees (List.Sublist.refl [b]) hagrees
        (fun _ _ _ _ hs hin hrun => hs.introduced_bind (Or.inr hfind) hin hrun)
        (closed_readNew _ _ _)
  | some earlier =>
      -- The name is refused, which is only reported.
      refine .quiet (fun a s s' hs hrun => ?_) fun _ _ _ s' _ _ _ f hf =>
        closed_readNew _ _ _ f hf s'
      obtain ⟨owner, hhead, hheld⟩ := hs.ready.stands.exists_held (i := b.id) hfind
      have hrefused : Runs (b.bind locus false complaint) s ()
          (s.reporting (complaint (b.localName locus).binding earlier.binding)) :=
        runs_bindOwn_refused hhead hheld complaint
      exact ⟨{ s.ledger with reported := s.ledger.reported ++ _ }, (hrun.eq hrefused).2.symm⟩

theorem introduces_bindLatest :
    Introduces base (Framed base env [b.id]) [b] (b.bind locus true complaint)
      (pure (env.bind b.space (b.localName locus))) :=
  .of_agrees (List.Sublist.refl [b])
    (fun _ hs => agrees_bindLatest hs.ready hs.frames complaint)
    (fun _ _ _ _ hs hin hrun => hs.introduced_bind (Or.inl rfl) hin hrun)
    fun _ hf => nomatch hf

end Own

/-- Binding `Self` introduces no name of a node. -/
theorem introduces_bindSelf {pre : Session → Prop} {owner : NodeId} {target : Option Meaning}
    {locus : Span} (hpre : ∀ s, pre s → Stands base env s ∧ env.frames ≠ [] ∧
      env.Encloses [owner] ∧ base.LocalRib s ∧ ∀ m ∈ target, s.Offers m) :
    Introduces base pre [] (bindSelf owner (target.map Meaning.decl) locus)
      (env.readSelf owner target locus) := by
  have hagrees : ∀ s, pre s → Agrees base env [] s
      (bindSelf owner (target.map Meaning.decl) locus) (env.readSelf owner target locus) id
      (fun _ _ _ => True) := fun s hs =>
    have ⟨hstands, hframes, henclosed, _, hoffers⟩ := hpre s hs
    agrees_bindSelf hstands hframes henclosed hoffers locus
  cases target with
  | none => exact .pure () env
  | some m =>
      cases hfind : env.findInnermost? .type "Self" with
      | none =>
          refine .of_agrees (List.nil_sublist []) hagrees (fun bs _ s s' hs hin hrun => ?_)
            (closed_readNew _ _ _)
          obtain ⟨hstands, hframes, -, hlocal, hoffers⟩ := hpre s hs
          obtain ⟨f, outer, hframes⟩ := List.exists_cons_of_ne_nil hframes
          obtain ⟨-, rfl⟩ := hrun.eq (hstands.runs_bindSelf hframes hfind)
          rw [List.append_nil]
          exact hin.boundSelf (hstands.isSome_rib?_innermost hframes .type)
            (hlocal .type f.owner (hstands.head?_opened hframes .type)) (hoffers m rfl)
            hstands.nameable
      | some earlier =>
          refine .quiet (fun a s s' hs hrun => ?_) fun _ _ _ s' _ _ _ f hf =>
            closed_readNew _ _ _ f hf s'
          obtain ⟨o, hhead, hheld⟩ := (hpre s hs).1.exists_held (i := owner) hfind
          have hrefused : Runs (bindSelf owner (some m.decl) locus) s ()
              (s.reporting (redefinition ⟨.single owner "Self", m.decl, locus⟩
                earlier.binding)) :=
            (runs_makeBinding_refused hhead hheld redefinition).discard
          exact ⟨{ s.ledger with reported := s.ledger.reported ++ _ }, (hrun.eq hrefused).2.symm⟩

end Binding

end NameResolution
