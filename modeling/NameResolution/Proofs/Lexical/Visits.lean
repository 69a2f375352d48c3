import NameResolution.Proofs.Lexical.PathSteps

/-!
# NameResolution.Proofs.Lexical.Visits

**Where paths are visited, and where names fail.** The paths that are visited while a part
of the tree is read are among its sites, each in the modules around it, and whatever frames
are around the part are around each of them. No other path is resolved. Segments are resolved
along these paths, the first of each to what can be found around it (`PathSegment.Begins`). A
name fails to be resolved only as the first segment of a path, in an environment that has nothing
under the name. And a canonical form is found only for a path that starts from a type, all of
which is read (`Session.visits`).
-/

namespace NameResolution

/-- Whether a finding is an error, but not the failure of a name. -/
def Finding.isPlain : Finding → Bool
  | .visit _ _ _ _ | .segment _ _ _ _ _ | .resolved _ _ _ | .error (.failedToResolvePath _ _)
  | .qualified _ _ => false
  | _ => true

/-- What the first segment of a path can lead to: the crate root, the module around it or the parent
of that one, something declared in that module, or what a name stands for in the environment. The
name is that of the segment, or `self` for a receiver. -/
inductive PathSegment.Begins (base : Session) (env : Env) (seg : PathSegment) : NodeId → Prop
  | root : Begins base env seg base.root
  | here : Begins base env seg (env.here base)
  | parent {module : NodeId} (hparent : env.parentModule? base (env.here base) = some module) :
      Begins base env seg module
  | child {name : String} {decl : NodeId}
      (hchild : decl ∈ base.tables.childrenNamed (env.here base) name) : Begins base env seg decl
  | found {space : Namespace} {name : String} {m : Meaning}
      (hname : seg.ident = .ident name ∨ name = "self")
      (hfound : env.find? base space name = some m) : Begins base env seg m.decl

/-- The name of the first segment of a path that is visited is nowhere to be found. -/
def FailsIn (base : Session) (findings : List Finding) (name : String) (span : Span) : Prop :=
  ∃ p prefer env outcome seg rest, .visit p prefer env outcome ∈ findings ∧
    p.segments = seg :: rest ∧ seg.ident = .ident name ∧ seg.node.span = span ∧
    env.resolve base prefer name = none

theorem FailsIn.mono {base : Session} {l₁ l₂ : List Finding} {name : String} {span : Span}
    (h : FailsIn base l₁ name span) (hl : l₁ ⊆ l₂) : FailsIn base l₂ name span := by
  obtain ⟨p, prefer, env, outcome, seg, rest, hvisit, hfirst⟩ := h
  exact ⟨p, prefer, env, outcome, seg, rest, hl hvisit, hfirst⟩

/-- A declaration has been reached along a path that is visited, at the segment with a node. -/
def LedIn (base : Session) (findings : List Finding) (node : Node) (decl : NodeId) : Prop :=
  ∃ p prefer env outcome before seg rest, .visit p prefer env outcome ∈ findings ∧
    p.segments = before ++ seg :: rest ∧ seg.node = node ∧
    (before = [] → seg.Begins base env decl)

theorem LedIn.mono {base : Session} {l₁ l₂ : List Finding} {node : Node} {decl : NodeId}
    (h : LedIn base l₁ node decl) (hl : l₁ ⊆ l₂) : LedIn base l₂ node decl := by
  obtain ⟨p, prefer, env, outcome, before, seg, rest, hvisit, hsegments⟩ := h
  exact ⟨p, prefer, env, outcome, before, seg, rest, hl hvisit, hsegments⟩

/-- A node is that of a path that is visited, or of a type that is built in and is among some
sites. -/
def NamedIn (findings : List Finding) (l : List PlacedSite) (use : NodeId) : Prop :=
  (∃ p prefer env outcome, .visit p prefer env outcome ∈ findings ∧ p.node.id = use) ∨
    ∃ x ∈ l, x.site = .type use

theorem NamedIn.mono {l₁ l₂ : List Finding} {sites sites' : List PlacedSite} {use : NodeId}
    (h : NamedIn l₁ sites use) (hl : l₁ ⊆ l₂)
    (hsites : ∀ x ∈ sites, x.site = .type use → ∃ y ∈ sites', y.site = .type use) :
    NamedIn l₂ sites' use := by
  rcases h with ⟨p, prefer, env, outcome, hvisit, huse⟩ | ⟨x, hx, htype⟩
  · exact Or.inl ⟨p, prefer, env, outcome, hl hvisit, huse⟩
  · exact Or.inr (hsites x hx htype)

/-- A canonical form is that of a path that starts from a type and is read in an environment. Its
sites are among the given ones, in the modules around it. -/
def FormedAt (base : Session) (findings : List Finding) (l : List PlacedSite) (use : NodeId)
    (path : CanonicalPath) : Prop :=
  ∃ (q : QualifiedPath) (env : Env), q.node.id = use ∧ (q.read base env).value = some path ∧
    (q.read base env).findings ⊆ findings ∧
    ∀ s ∈ q.sites, ∃ x ∈ l, x.modules = env.modules ∧ x.site.id = s.id

theorem FormedAt.mono {base : Session} {l₁ l₂ : List Finding} {sites sites' : List PlacedSite}
    {use : NodeId} {path : CanonicalPath} (h : FormedAt base l₁ sites use path) (hl : l₁ ⊆ l₂)
    (hsites : ∀ x ∈ sites, ∃ y ∈ sites', y.modules = x.modules ∧ y.site.id = x.site.id) :
    FormedAt base l₂ sites' use path := by
  obtain ⟨q, env, huse, hvalue, hfindings, hq⟩ := h
  refine ⟨q, env, huse, hvalue, List.Subset.trans hfindings hl, fun s hs => ?_⟩
  obtain ⟨x, hx, hmodules, hid⟩ := hq s hs
  obtain ⟨y, hy, hmodules', hid'⟩ := hsites x hx
  exact ⟨y, hy, hmodules'.trans hmodules, hid'.trans hid⟩

/-- Only sites within some frames are visited, in the modules around them. No path and no segment is
resolved and no name fails but at a visit, and no canonical form is found but for a path that is
read. -/
structure Visits (base : Session) (outer : List Frame) {α : Type} (r : Reading α)
    (l : List PlacedSite) : Prop where
  visits : ∀ p prefer env outcome, .visit p prefer env outcome ∈ r.findings →
    outer <:+ env.frames ∧
      ∃ x ∈ l, x.modules = env.modules ∧ ∃ gates, x.site = .path p gates
  segments : ∀ space node name decl here, .segment space node name decl here ∈ r.findings →
    LedIn base r.findings node decl
  names : ∀ space use decl, .resolved space use decl ∈ r.findings → NamedIn r.findings l use
  failures : ∀ name span, .error (.failedToResolvePath name span) ∈ r.findings →
    FailsIn base r.findings name span
  forms : ∀ use path, .qualified use path ∈ r.findings → FormedAt base r.findings l use path

/-! ### What is found out at a segment -/

section Segments

variable {base : Session} {env : Env} {prefer : Namespace} {f : Finding}

/-- What may be found out at a segment itself, once a path has come to some spot. -/
inductive PathSegment.Notes (base : Session) (env : Env) (prefer : Namespace) (spot : Spot)
    (seg : PathSegment) : Finding → Prop
  | plain {f : Finding} (h : f.isPlain = true) : Notes base env prefer spot seg f
  | failed {name : String} (hfirst : spot.reached = none) (hident : seg.ident = .ident name)
      (hnone : env.resolve base prefer name = none) :
      Notes base env prefer spot seg (.error (.failedToResolvePath name seg.node.span))
  | led {space : Namespace} {name : String} {decl here : NodeId}
      (hfirst : spot = ⟨env.here base, none⟩ → seg.Begins base env decl) :
      Notes base env prefer spot seg (.segment space seg.node name decl here)

/-- Among some findings there are all those about the arguments of a segment, and one of these is
given. -/
def InArgs (base : Session) (env : Env) (segments : List PathSegment) (l : List Finding)
    (f : Finding) : Prop :=
  ∃ seg ∈ segments, ∃ args, seg.generics = some args ∧ (args.read base env).findings ⊆ l ∧
    f ∈ (args.read base env).findings

theorem InArgs.mono {segments segments' : List PathSegment} {l l' : List Finding}
    (h : InArgs base env segments l f) (hsegments : segments ⊆ segments') (hl : l ⊆ l') :
    InArgs base env segments' l' f := by
  obtain ⟨seg, hseg, args, hargs, hsub, hf⟩ := h
  exact ⟨seg, hsegments hseg, args, hargs, List.Subset.trans hsub hl, hf⟩

theorem InArgs.of_readGenericArgs {seg : PathSegment}
    (h : f ∈ (readGenericArgs base env seg.generics).findings) :
    InArgs base env [seg] (readGenericArgs base env seg.generics).findings f := by
  cases hgenerics : seg.generics with
  | none =>
      rw [hgenerics] at h
      cases h
  | some args =>
      rw [hgenerics] at h
      exact ⟨seg, List.mem_singleton_self seg, args, hgenerics, List.Subset.refl _, h⟩

/-- A plain name leads to a child of the spot or to what the environment has under it, and fails
only if it comes first and there is neither. -/
theorem notes_readName {single isLast : Bool} {spot : Spot} {seg : PathSegment} {name : String}
    (hident : seg.ident = .ident name)
    (hf : f ∈ (readName base env prefer single spot seg name isLast).findings) :
    seg.Notes base env prefer spot f := by
  unfold readName at hf
  dsimp only at hf
  split at hf
  · next child hchild =>
    cases List.mem_singleton.mp hf
    refine .led fun hstart => ?_
    subst hstart
    split at hchild
    · cases hchild
    · exact .child (mem_of_pickChild? hchild)
  · split at hf
    · cases List.mem_singleton.mp hf
      exact .plain rfl
    · next hreached =>
      have hfirst : spot.reached = none := Option.not_isSome_iff_eq_none.mp hreached
      split at hf
      · next hnone =>
        cases List.mem_singleton.mp hf
        exact .failed hfirst hident hnone
      · next space m hresolve =>
        cases List.mem_singleton.mp hf
        obtain ⟨space', hfound⟩ := Env.exists_find?_of_resolve hresolve
        exact .led fun _ => .found (Or.inl hident) hfound

theorem notes_readFirst {spot : Spot} {seg : PathSegment} {module : NodeId}
    (hmodule : seg.Begins base env module)
    (hf : f ∈ (readFirst base env spot seg module).findings) :
    seg.Notes base env prefer spot f := by
  unfold readFirst at hf
  split at hf
  · cases List.mem_singleton.mp hf
    exact .plain rfl
  · cases List.mem_singleton.mp hf
    exact .led fun _ => hmodule

theorem notes_readSuper {spot : Spot} {seg : PathSegment}
    (hf : f ∈ (readSuper base env spot seg).findings) : seg.Notes base env prefer spot f := by
  unfold readSuper at hf
  split at hf
  · cases List.mem_singleton.mp hf
    exact .plain rfl
  · split at hf
    · split at hf
      · cases List.mem_singleton.mp hf
        exact .plain rfl
      · next parent hparent =>
        cases List.mem_singleton.mp hf
        refine .led fun hstart => ?_
        subst hstart
        exact .parent hparent
    · cases List.mem_singleton.mp hf
      exact .plain rfl

/-- What is found out while a segment is read is about its arguments or about itself. -/
theorem PathSegment.mem_read {single isLast : Bool} {spot : Spot} {seg : PathSegment}
    (hf : f ∈ (seg.read base env prefer single spot isLast).findings) :
    InArgs base env [seg] (seg.read base env prefer single spot isLast).findings f ∨
      seg.Notes base env prefer spot f := by
  obtain ⟨node, ident, generics⟩ := seg
  unfold PathSegment.read at hf ⊢
  cases ident with
  | malformed =>
      cases List.mem_singleton.mp hf
      exact Or.inr (.plain rfl)
  | crate =>
      refine Or.inr ?_
      dsimp only at hf
      split at hf
      · cases hf
      · exact notes_readFirst .root hf
  | selfModule =>
      refine Or.inr ?_
      dsimp only at hf
      split at hf
      · cases hf
      · exact notes_readFirst .here hf
  | super =>
      refine Or.inr ?_
      dsimp only at hf
      split at hf
      · cases hf
      · exact notes_readSuper hf
  | ident name =>
      dsimp only at hf ⊢
      split at hf
      · cases hf
      · next hopen =>
        rw [if_neg hopen]
        cases generics with
        | none => exact Or.inr (notes_readName rfl hf)
        | some args =>
            rcases List.mem_append.mp hf with hf | hf
            · exact Or.inl ⟨_, List.mem_singleton_self _, args, rfl,
                List.subset_append_left _ _, hf⟩
            · exact Or.inr (notes_readName rfl hf)

/-- Once a segment has been followed, the next one is not the first. -/
theorem PathSegment.reached_read {single isLast : Bool} {spot next : Spot} {seg : PathSegment}
    (h : (seg.read base env prefer single spot isLast).value = some next) :
    next.reached.isSome = true := by
  have hsteps : ∀ r, seg.Steps base env r → r.value = some next → next.reached.isSome = true := by
    intro r hstep hvalue
    cases hstep with
    | onto space m scope _ =>
        cases hvalue
        rfl
    | stop e _ => cases hvalue
  have hcomes := seg.comes base env prefer single spot isLast
  generalize seg.read base env prefer single spot isLast = r at h hcomes
  cases hcomes with
  | deferred _ => cases h
  | keyword _ hstep => exact hsteps _ hstep h
  | name _ hstep => exact hsteps _ hstep h

/-- A finding about one of the segments that are followed from a spot. Only the first of them starts
from that spot, and none of the others starts from where nothing has been reached. -/
def NotedAlong (base : Session) (env : Env) (prefer : Namespace) (spot : Spot)
    (segments : List PathSegment) (f : Finding) : Prop :=
  ∃ before seg rest spot', segments = before ++ seg :: rest ∧ seg.Notes base env prefer spot' f ∧
    (before = [] ∧ spot' = spot ∨ before ≠ [] ∧ spot'.reached.isSome = true)

/-- What is found out while segments are followed is about the arguments of one or about one
itself. -/
theorem mem_readSegments {single : Bool} : ∀ (segments : List PathSegment) {spot : Spot},
    f ∈ (readSegments base env prefer single spot segments).findings →
      InArgs base env segments (readSegments base env prefer single spot segments).findings f ∨
        NotedAlong base env prefer spot segments f
  | [], _, hf => nomatch hf
  | seg :: rest, spot, hf => by
      rw [readSegments_cons, Reading.findings_bind] at hf ⊢
      rcases List.mem_append.mp hf with hf | hf
      · rcases seg.mem_read hf with hargs | hnotes
        · exact Or.inl (hargs.mono (by simp) (List.subset_append_left _ _))
        · exact Or.inr ⟨[], seg, rest, spot, rfl, hnotes, Or.inl ⟨rfl, rfl⟩⟩
      · cases hvalue : (seg.read base env prefer single spot rest.isEmpty).value with
        | none =>
            rw [hvalue] at hf
            cases hf
        | some next =>
            rw [hvalue] at hf
            have hreached := seg.reached_read hvalue
            rcases mem_readSegments rest hf with hargs | hnoted
            · exact Or.inl (hargs.mono (List.subset_cons_self _ _) (List.subset_append_right _ _))
            · obtain ⟨before, seg', after, spot', rfl, hnotes, hspot⟩ := hnoted
              refine Or.inr ⟨seg :: before, seg', after, spot', rfl, hnotes, Or.inr ⟨by simp, ?_⟩⟩
              rcases hspot with ⟨-, rfl⟩ | ⟨-, hsome⟩
              · exact hreached
              · exact hsome

/-- What is found out about a path is what it names, or about its segments. -/
theorem mem_readWhole {node : Node} {segments : List PathSegment}
    {walked : Reading (Option Meaning)}
    (hf : f ∈ (readWhole base env prefer node segments walked).findings) :
    (∃ space decl, f = .resolved space node.id decl) ∨ NotedAlong base env prefer ⟨env.here base, none⟩ segments f ∨
      f ∈ walked.findings ∧
        walked.findings ⊆ (readWhole base env prefer node segments walked).findings := by
  unfold readWhole at hf ⊢
  cases hreceiver : env.receiver? base prefer segments with
  | some found =>
      rw [hreceiver] at hf
      rcases List.mem_append.mp hf with hf | hf
      · cases List.mem_singleton.mp hf
        obtain ⟨hsegments, -, -, hfound⟩ := receiver?_eq_some hreceiver
        exact Or.inr (Or.inl ⟨[], found.1, [], _, hsegments,
          .led fun _ => .found (Or.inr rfl) hfound, Or.inl ⟨rfl, rfl⟩⟩)
      · exact Or.inl ⟨_, _, List.mem_singleton.mp hf⟩
  | none =>
      rw [hreceiver] at hf
      rcases List.mem_append.mp hf with hf | hf
      · exact Or.inr (Or.inr ⟨hf, List.subset_append_left _ _⟩)
      · refine Or.inl ?_
        cases hvalue : walked.value with
        | none =>
            rw [hvalue] at hf
            cases hf
        | some m =>
            rw [hvalue] at hf
            exact ⟨_, _, List.mem_singleton.mp hf⟩

theorem Path.visit_mem_read (p : Path) :
    .visit p prefer env (p.read base env prefer).value ∈ (p.read base env prefer).findings := by
  obtain ⟨node, segments⟩ := p
  exact List.mem_append_right _ (List.mem_singleton_self _)

/-- What is found out about a path is what it names, the visit itself, about the arguments of its
segments, or about one of its segments. -/
theorem Path.mem_read {p : Path} (hf : f ∈ (p.read base env prefer).findings) :
    (∃ space decl, f = .resolved space p.node.id decl) ∨ f = .visit p prefer env (p.read base env prefer).value ∨
      InArgs base env p.segments (p.read base env prefer).findings f ∨
      NotedAlong base env prefer ⟨env.here base, none⟩ p.segments f := by
  obtain ⟨node, segments⟩ := p
  rcases List.mem_append.mp hf with hf | hf
  · rcases mem_readWhole hf with hnamed | hnoted | ⟨hf, hsub⟩
    · exact Or.inl hnamed
    · exact Or.inr (Or.inr (Or.inr hnoted))
    · have hwhole := List.Subset.trans hsub (List.subset_append_left _
        (Reading.note (.visit ⟨node, segments⟩ prefer env
          (Path.read base env prefer ⟨node, segments⟩).value)).findings)
      rcases mem_readSegments segments hf with hargs | hnoted
      · exact Or.inr (Or.inr (Or.inl (hargs.mono (List.Subset.refl _) hwhole)))
      · exact Or.inr (Or.inr (Or.inr hnoted))
  · exact Or.inr (Or.inl (List.mem_singleton.mp hf))

/-- What is found out while a segment is appended is about its arguments, or plain. -/
theorem PathSegment.mem_readAppended {path : CanonicalPath} {seg : PathSegment}
    (hf : f ∈ (seg.readAppended base env path).findings) :
    InArgs base env [seg] (seg.readAppended base env path).findings f ∨ f.isPlain = true := by
  rw [seg.readAppended_eq] at hf ⊢
  split at hf
  · cases List.mem_singleton.mp hf
    exact Or.inr rfl
  · next hident =>
    rw [if_neg hident]
    rw [Reading.findings_bind, Reading.findings_pure, List.append_nil] at hf ⊢
    exact Or.inl (.of_readGenericArgs hf)

theorem mem_readAppendedSegments : ∀ (segments : List PathSegment) {path : CanonicalPath},
    f ∈ (readAppendedSegments base env path segments).findings →
      InArgs base env segments (readAppendedSegments base env path segments).findings f ∨
        f.isPlain = true
  | [], _, hf => nomatch hf
  | seg :: rest, path, hf => by
      rw [readAppendedSegments, Reading.findings_bind] at hf ⊢
      rcases List.mem_append.mp hf with hf | hf
      · exact (seg.mem_readAppended hf).imp_left fun hargs =>
          hargs.mono (by simp) (List.subset_append_left _ _)
      · cases hvalue : (seg.readAppended base env path).value with
        | none =>
            rw [hvalue] at hf
            cases hf
        | some next =>
            rw [hvalue] at hf
            exact (mem_readAppendedSegments rest hf).imp_left fun hargs =>
              hargs.mono (List.subset_cons_self _ _) (List.subset_append_right _ _)

end Segments

/-! ### Rules -/

namespace Visits

variable {base : Session} {outer : List Frame} {α β : Type} {r : Reading α}
  {l l₁ l₂ : List PlacedSite} {env : Env}

theorem pure (a : α) (l : List PlacedSite) : Visits base outer (Pure.pure a) l where
  visits _ _ _ _ hf := nomatch hf
  segments _ _ _ _ _ hf := nomatch hf
  names _ _ _ hf := nomatch hf
  failures _ _ hf := nomatch hf
  forms _ _ hf := nomatch hf

/-- Plain findings have nothing to do with it. -/
theorem plain (h : ∀ f ∈ r.findings, f.isPlain = true) (l : List PlacedSite) :
    Visits base outer r l where
  visits _ _ _ _ hf := nomatch h _ hf
  segments _ _ _ _ _ hf := nomatch h _ hf
  names _ _ _ hf := nomatch h _ hf
  failures _ _ hf := nomatch h _ hf
  forms _ _ hf := nomatch h _ hf

theorem bind {next : α → Reading β} (h₁ : Visits base outer r l₁)
    (h₂ : Visits base outer (next r.value) l₂) : Visits base outer (r >>= next) (l₁ ++ l₂) where
  visits p prefer env outcome hf := by
    rcases List.mem_append.mp hf with hf | hf
    · obtain ⟨henv, x, hx, hsite⟩ := h₁.visits p prefer env outcome hf
      exact ⟨henv, x, List.mem_append_left _ hx, hsite⟩
    · obtain ⟨henv, x, hx, hsite⟩ := h₂.visits p prefer env outcome hf
      exact ⟨henv, x, List.mem_append_right _ hx, hsite⟩
  segments space node name decl here hf := by
    rcases List.mem_append.mp hf with hf | hf
    · exact (h₁.segments space node name decl here hf).mono (List.subset_append_left _ _)
    · exact (h₂.segments space node name decl here hf).mono (List.subset_append_right _ _)
  names space use decl hf := by
    rcases List.mem_append.mp hf with hf | hf
    · exact (h₁.names space use decl hf).mono (List.subset_append_left _ _) fun x hx htype =>
        ⟨x, List.mem_append_left _ hx, htype⟩
    · exact (h₂.names space use decl hf).mono (List.subset_append_right _ _) fun x hx htype =>
        ⟨x, List.mem_append_right _ hx, htype⟩
  failures name span hf := by
    rcases List.mem_append.mp hf with hf | hf
    · exact (h₁.failures name span hf).mono (List.subset_append_left _ _)
    · exact (h₂.failures name span hf).mono (List.subset_append_right _ _)
  forms use path hf := by
    rcases List.mem_append.mp hf with hf | hf
    · exact (h₁.forms use path hf).mono (List.subset_append_left _ _) fun x hx =>
        ⟨x, List.mem_append_left _ hx, rfl, rfl⟩
    · exact (h₂.forms use path hf).mono (List.subset_append_right _ _) fun x hx =>
        ⟨x, List.mem_append_right _ hx, rfl, rfl⟩

/-- What comes after looks at no path. -/
theorem last {next : α → Reading β} (h₁ : Visits base outer r l)
    (h₂ : Visits base outer (next r.value) []) : Visits base outer (r >>= next) l := by
  have hbind := h₁.bind h₂
  rwa [List.append_nil] at hbind

theorem discard (h : Visits base outer r l) : Visits base outer (Functor.discard r) l :=
  h.last (pure () [])

/-- Parts in a row. -/
theorem members {f : α → Reading Unit} {sites : α → List Site} {modules : List NodeId}
    (hf : ∀ a, Visits base outer (f a) ((sites a).map (.mk modules))) :
    ∀ l : List α, Visits base outer (l.forM f) ((l.flatMap sites).map (.mk modules))
  | [] => pure () []
  | a :: l => by
      rw [List.flatMap_cons, List.map_append]
      exact (hf a).bind (members hf l)

/-- Sites are found again behind one more gate. -/
theorem behind {modules : List NodeId} {sites sites' : List Site} {gate : Gate}
    (h : Visits base outer r (sites.map (.mk modules)))
    (hbehind : ∀ s ∈ sites, s.behind gate ∈ sites') :
    Visits base outer r (sites'.map (.mk modules)) where
  visits p prefer env outcome hf := by
    obtain ⟨henv, x, hx, hmodules, gates, hsite⟩ := h.visits p prefer env outcome hf
    obtain ⟨s, hs, rfl⟩ := List.mem_map.mp hx
    refine ⟨henv, ⟨modules, s.behind gate⟩, List.mem_map_of_mem (hbehind s hs), hmodules,
      gate :: gates, ?_⟩
    change s = .path p gates at hsite
    rw [hsite]
    rfl
  segments := h.segments
  names space use decl hf := by
    refine (h.names space use decl hf).mono (List.Subset.refl _) fun x hx htype => ?_
    obtain ⟨s, hs, rfl⟩ := List.mem_map.mp hx
    refine ⟨⟨modules, s.behind gate⟩, List.mem_map_of_mem (hbehind s hs), ?_⟩
    change s = .type use at htype
    rw [htype]
    rfl
  failures := h.failures
  forms use path hf := by
    refine (h.forms use path hf).mono (List.Subset.refl _) fun x hx => ?_
    obtain ⟨s, hs, rfl⟩ := List.mem_map.mp hx
    exact ⟨⟨modules, s.behind gate⟩, List.mem_map_of_mem (hbehind s hs), rfl, s.id_behind gate⟩

/-- Whatever is found out about arguments is about sites behind a gate. -/
theorem of_inArgs {segments : List PathSegment} {sites : List Site}
    (hargs : ∀ seg ∈ segments, ∀ args, seg.generics = some args →
      Visits base outer (args.read base env) (args.sites.map (.mk env.modules)))
    (hbehind : ∀ seg ∈ segments, ∀ args, seg.generics = some args →
      ∃ gate, ∀ s ∈ args.sites, s.behind gate ∈ sites)
    (hin : ∀ f ∈ r.findings, f.isPlain = false → InArgs base env segments r.findings f) :
    Visits base outer r (sites.map (.mk env.modules)) where
  visits p prefer env' outcome hf := by
    obtain ⟨seg, hseg, args, hgenerics, -, hf⟩ := hin _ hf rfl
    obtain ⟨gate, hsites⟩ := hbehind seg hseg args hgenerics
    exact ((hargs seg hseg args hgenerics).behind hsites).visits p prefer env' outcome hf
  segments space node name decl here hf := by
    obtain ⟨seg, hseg, args, hgenerics, hsub, hf⟩ := hin _ hf rfl
    exact ((hargs seg hseg args hgenerics).segments space node name decl here hf).mono hsub
  names space use decl hf := by
    obtain ⟨seg, hseg, args, hgenerics, hsub, hf⟩ := hin _ hf rfl
    obtain ⟨gate, hsites⟩ := hbehind seg hseg args hgenerics
    exact (((hargs seg hseg args hgenerics).behind hsites).names space use decl hf).mono hsub
      fun x hx htype => ⟨x, hx, htype⟩
  failures name span hf := by
    obtain ⟨seg, hseg, args, hgenerics, hsub, hf⟩ := hin _ hf rfl
    exact ((hargs seg hseg args hgenerics).failures name span hf).mono hsub
  forms use path hf := by
    obtain ⟨seg, hseg, args, hgenerics, hsub, hf⟩ := hin _ hf rfl
    obtain ⟨gate, hsites⟩ := hbehind seg hseg args hgenerics
    exact (((hargs seg hseg args hgenerics).behind hsites).forms use path hf).mono hsub fun x hx =>
      ⟨x, hx, rfl, rfl⟩

theorem path {prefer : Namespace} (p : Path) (henv : outer <:+ env.frames)
    (hargs : ∀ seg ∈ p.segments, ∀ args, seg.generics = some args →
      Visits base outer (args.read base env) (args.sites.map (.mk env.modules))) :
    Visits base outer (p.read base env prefer) (p.sites.map (.mk env.modules)) where
  visits q prefer' env' outcome hf := by
    rcases Path.mem_read hf with ⟨_, _, heq⟩ | heq | hin | ⟨_, _, _, _, -, hnotes, -⟩
    · cases heq
    · cases heq
      exact ⟨henv, ⟨env.modules, .path p []⟩, List.mem_map_of_mem p.mem_sites, rfl, [], rfl⟩
    · obtain ⟨seg, hseg, args, hgenerics, -, hf⟩ := hin
      obtain ⟨gate, hsites⟩ := Path.behind_mem_sites hgenerics p hseg
      exact ((hargs seg hseg args hgenerics).behind hsites).visits q prefer' env' outcome hf
    · cases hnotes with
      | plain hplain => cases hplain
  segments space node name decl here hf := by
    rcases Path.mem_read hf with ⟨_, _, heq⟩ | heq | hin | ⟨before, seg, rest, spot, hseg, hnotes, hspot⟩
    · cases heq
    · cases heq
    · obtain ⟨seg, hseg, args, hgenerics, hsub, hf⟩ := hin
      exact ((hargs seg hseg args hgenerics).segments space node name decl here hf).mono hsub
    · cases hnotes with
      | plain hplain => cases hplain
      | led hfirst =>
          refine ⟨p, prefer, env, _, before, seg, rest, p.visit_mem_read, hseg, rfl, fun hnil => ?_⟩
          rcases hspot with ⟨-, rfl⟩ | ⟨hne, -⟩
          · exact hfirst rfl
          · exact absurd hnil hne
  names space use decl hf := by
    rcases Path.mem_read hf with ⟨_, _, heq⟩ | heq | hin | ⟨_, _, _, _, -, hnotes, -⟩
    · cases heq
      exact Or.inl ⟨p, prefer, env, _, p.visit_mem_read, rfl⟩
    · cases heq
    · obtain ⟨seg, hseg, args, hgenerics, hsub, hf⟩ := hin
      obtain ⟨gate, hsites⟩ := Path.behind_mem_sites hgenerics p hseg
      exact (((hargs seg hseg args hgenerics).behind hsites).names space use decl hf).mono hsub
        fun x hx htype => ⟨x, hx, htype⟩
    · cases hnotes with
      | plain hplain => cases hplain
  failures name span hf := by
    rcases Path.mem_read hf with ⟨_, _, heq⟩ | heq | hin | ⟨before, seg, rest, spot, hseg, hnotes, hspot⟩
    · cases heq
    · cases heq
    · obtain ⟨seg, hseg, args, hgenerics, hsub, hf⟩ := hin
      exact ((hargs seg hseg args hgenerics).failures name span hf).mono hsub
    · cases hnotes with
      | plain hplain => cases hplain
      | failed hreached hident hnone =>
          rcases hspot with ⟨rfl, rfl⟩ | ⟨-, hsome⟩
          · exact ⟨p, prefer, env, _, seg, rest, p.visit_mem_read, hseg, hident, rfl, hnone⟩
          · rw [hreached] at hsome
            cases hsome
  forms use path hf := by
    rcases Path.mem_read hf with ⟨_, _, heq⟩ | heq | hin | ⟨_, _, _, _, -, hnotes, -⟩
    · cases heq
    · cases heq
    · obtain ⟨seg, hseg, args, hgenerics, hsub, hf⟩ := hin
      obtain ⟨gate, hsites⟩ := Path.behind_mem_sites hgenerics p hseg
      exact (((hargs seg hseg args hgenerics).behind hsites).forms use path hf).mono hsub
        fun x hx => ⟨x, hx, rfl, rfl⟩
    · cases hnotes with
      | plain hplain => cases hplain

/-- A segment that is appended. -/
theorem appended {seg : PathSegment} (gate : Gate) (path : CanonicalPath)
    (hargs : ∀ args, seg.generics = some args →
      Visits base outer (args.read base env) (args.sites.map (.mk env.modules))) :
    Visits base outer (seg.readAppended base env path)
      ((seg.sites gate).map (.mk env.modules)) := by
  have hall : ∀ seg' ∈ [seg], ∀ args, seg'.generics = some args →
      Visits base outer (args.read base env) (args.sites.map (.mk env.modules)) := by
    intro seg' hseg
    rw [List.mem_singleton.mp hseg]
    exact hargs
  refine of_inArgs hall (fun seg' hseg args hgenerics => ⟨gate, ?_⟩) fun f hf hplain => ?_
  · rw [List.mem_singleton.mp hseg] at hgenerics
    exact seg.behind_mem_sites gate hgenerics
  · exact seg.mem_readAppended hf |>.resolve_right (by simp [hplain])

theorem appendedAll {segments : List PathSegment} (gate : Gate) (path : CanonicalPath)
    (hargs : ∀ seg ∈ segments, ∀ args, seg.generics = some args →
      Visits base outer (args.read base env) (args.sites.map (.mk env.modules))) :
    Visits base outer (readAppendedSegments base env path segments)
      ((appendedSites gate segments).map (.mk env.modules)) := by
  refine of_inArgs hargs (fun seg hseg args hgenerics => ⟨gate, ?_⟩) fun f hf hplain => ?_
  · exact behind_mem_appendedSites hgenerics hseg
  · exact (mem_readAppendedSegments segments hf).resolve_right (by simp [hplain])

theorem head (q : Qualifier)
    (hself : Visits base outer (q.selfTy.read base env) (q.selfTy.sites.map (.mk env.modules)))
    (htrait : ∀ asTrait, q.asTrait = some asTrait →
      Visits base outer (asTrait.read base env .type) (asTrait.sites.map (.mk env.modules))) :
    Visits base outer (q.read base env) (q.sites.map (.mk env.modules)) := by
  obtain ⟨node, selfTy, asTrait⟩ := q
  cases asTrait with
  | none =>
      refine last hself ?_
      split <;> exact pure _ _
  | some traitPath =>
      rw [Qualifier.sites, List.map_append]
      refine bind hself ?_
      split
      · exact pure _ _
      · have hbehind : ∀ s ∈ traitPath.sites, s.behind (.asTrait selfTy) ∈
            traitPath.sites.map (Site.behind (.asTrait selfTy)) := fun s hs =>
          List.mem_map_of_mem hs
        refine last ((htrait traitPath rfl).behind hbehind) ?_
        split <;> exact pure _ _

/-- What is read before the canonical form is noted. -/
theorem qualifiedParts (p : QualifiedPath)
    (hself : Visits base outer (p.qualifier.selfTy.read base env)
      (p.qualifier.selfTy.sites.map (.mk env.modules)))
    (htrait : ∀ asTrait, p.qualifier.asTrait = some asTrait →
      Visits base outer (asTrait.read base env .type) (asTrait.sites.map (.mk env.modules)))
    (hargs : ∀ seg ∈ p.associated :: p.rest, ∀ args, seg.generics = some args →
      Visits base outer (args.read base env) (args.sites.map (.mk env.modules))) :
    Visits base outer (p.readParts base env) (p.sites.map (.mk env.modules)) := by
  obtain ⟨node, q, associated, rest⟩ := p
  obtain ⟨hassociated, hrest⟩ := List.forall_mem_cons.mp hargs
  rw [QualifiedPath.sites, List.map_append, List.map_append, QualifiedPath.readParts]
  refine bind (head q hself htrait) ?_
  split
  · exact pure _ _
  · refine bind (appended _ _ hassociated) ?_
    split
    · exact pure _ _
    · exact appendedAll _ _ hrest

theorem qualified (p : QualifiedPath)
    (hself : Visits base outer (p.qualifier.selfTy.read base env)
      (p.qualifier.selfTy.sites.map (.mk env.modules)))
    (htrait : ∀ asTrait, p.qualifier.asTrait = some asTrait →
      Visits base outer (asTrait.read base env .type) (asTrait.sites.map (.mk env.modules)))
    (hargs : ∀ seg ∈ p.associated :: p.rest, ∀ args, seg.generics = some args →
      Visits base outer (args.read base env) (args.sites.map (.mk env.modules))) :
    Visits base outer (p.read base env) (p.sites.map (.mk env.modules)) := by
  have hparts := qualifiedParts p hself htrait hargs
  have hsub : (p.readParts base env).findings ⊆ (p.read base env).findings := by
    rw [p.findings_read]
    exact List.subset_append_left _ _
  -- The form of the path itself is all that is found out besides its parts.
  have hmem : ∀ f ∈ (p.read base env).findings, f ∈ (p.readParts base env).findings ∨
      ∃ path, (p.read base env).value = some path ∧ f = .qualified p.node.id path := by
    intro f hf
    rw [p.findings_read] at hf
    refine (List.mem_append.mp hf).imp_right fun hf => ?_
    obtain ⟨path, hpath, rfl⟩ := List.mem_map.mp hf
    exact ⟨path, Option.mem_toList.mp hpath, rfl⟩
  refine ⟨fun q prefer env' outcome hf => ?_, fun space node name decl here hf => ?_,
    fun space use decl hf => ?_, fun name span hf => ?_, fun use path hf => ?_⟩
  · rcases hmem _ hf with hf | ⟨_, -, heq⟩
    · exact hparts.visits q prefer env' outcome hf
    · cases heq
  · rcases hmem _ hf with hf | ⟨_, -, heq⟩
    · exact (hparts.segments space node name decl here hf).mono hsub
    · cases heq
  · rcases hmem _ hf with hf | ⟨_, -, heq⟩
    · exact (hparts.names space use decl hf).mono hsub fun x hx htype => ⟨x, hx, htype⟩
    · cases heq
  · rcases hmem _ hf with hf | ⟨_, -, heq⟩
    · exact (hparts.failures name span hf).mono hsub
    · cases heq
  · rcases hmem _ hf with hf | ⟨_, hvalue, heq⟩
    · exact (hparts.forms use path hf).mono hsub fun x hx => ⟨x, hx, rfl, rfl⟩
    · cases heq
      exact ⟨p, env, rfl, hvalue, List.Subset.refl _, fun s hs =>
        ⟨⟨env.modules, s⟩, List.mem_map_of_mem hs, rfl, rfl⟩⟩

/-- A type that is built in stands for itself. -/
theorem builtin {use decl : NodeId} (modules : List NodeId) :
    Visits base outer (readBuiltin base use decl) [⟨modules, .type use⟩] where
  visits _ _ _ _ hf := by cases List.mem_singleton.mp hf
  segments _ _ _ _ _ hf := by cases List.mem_singleton.mp hf
  names space use' decl' hf := by
    cases List.mem_singleton.mp hf
    exact Or.inr ⟨_, List.mem_singleton_self _, rfl⟩
  failures _ _ hf := by cases List.mem_singleton.mp hf
  forms _ _ hf := by cases List.mem_singleton.mp hf

end Visits

/-- All that is read within some frames. -/
theorem Session.visits (base : Session) (outer : List Frame) :
    Traversal base base outer fun {_} r _ l => Visits base outer r l where
  pure a := .pure a []
  bind h₁ h₂ := h₁.bind h₂
  introduce env space l complaint hcomplaint := by
    refine .plain (fun f hf => ?_) []
    unfold Env.readNew at hf
    split at hf
    · cases List.mem_singleton.mp hf
      rcases List.mem_pair.mp hcomplaint with rfl | rfl <;> rfl
    · cases hf
  builtin modules _ _ _ := .builtin modules
  path env prefer p henv hargs := .path p henv hargs
  qualified env p _ hself htrait hargs := .qualified p hself htrait hargs

/-- All that is read of a crate. -/
theorem Crate.visits (c : Crate) (base : Session) : Visits base [] (c.read base) c.sites :=
  (base.visits []).crate c

end NameResolution
