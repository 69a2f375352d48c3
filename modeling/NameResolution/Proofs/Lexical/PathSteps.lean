import NameResolution.Proofs.Lexical.Replay
import NameResolution.Proofs.Lexical.Traversal

/-!
# NameResolution.Proofs.Lexical.PathSteps

**What can come of one segment of a path.** A step that is taken either resolves its
segment and leads to what the segment stands for, or stops with an error
(`PathSegment.Steps`). A segment is passed over if the path is left to type checking before
it; the arguments of a segment are read only if it is a plain name (`PathSegment.Comes`).
-/

namespace NameResolution

/-- Follow the rest of a path from where a segment has led to, if it has led anywhere. -/
def readOnward (base : Session) (env : Env) (prefer : Namespace) (single : Bool)
    (rest : List PathSegment) : Option Spot → Reading (Option Meaning)
  | none => return none
  | some spot => readSegments base env prefer single spot rest

theorem readSegments_cons (base : Session) (env : Env) (prefer : Namespace) (single : Bool)
    (spot : Spot) (seg : PathSegment) (rest : List PathSegment) :
    readSegments base env prefer single spot (seg :: rest) =
      seg.read base env prefer single spot rest.isEmpty >>=
        readOnward base env prefer single rest := by
  rw [readSegments]
  refine congrArg _ (funext fun next => ?_)
  cases next <;> rfl

/-! ### Sites in arguments -/

/-- The sites of a segment are those of its arguments, behind a gate, and itself. -/
theorem PathSegment.sites_eq (gate : Gate) (seg : PathSegment) :
    seg.sites gate =
      (optionalSites GenericArgs.sites seg.generics).map (Site.behind gate) ++ [.segment seg] := by
  obtain ⟨node, ident, generics⟩ := seg
  cases generics <;> rfl

/-- What is in the arguments of a segment are sites behind its gate. -/
theorem PathSegment.behind_mem_sites (gate : Gate) {seg : PathSegment} {args : GenericArgs}
    (hargs : seg.generics = some args) : ∀ s ∈ args.sites, s.behind gate ∈ seg.sites gate := by
  intro s hs
  rw [seg.sites_eq, hargs]
  exact List.mem_append_left _ (List.mem_map_of_mem hs)

theorem behind_mem_segmentsSites {seg : PathSegment} {args : GenericArgs}
    (hargs : seg.generics = some args) : ∀ {segments before : List PathSegment},
      seg ∈ segments → ∃ gate, ∀ s ∈ args.sites, s.behind gate ∈ segmentsSites before segments
  | first :: rest, before, hseg => by
      rcases List.mem_cons.mp hseg with rfl | hseg
      · exact ⟨.args before seg, fun s hs =>
          List.mem_append_left _ (seg.behind_mem_sites _ hargs s hs)⟩
      · obtain ⟨gate, hsites⟩ := behind_mem_segmentsSites hargs hseg
        exact ⟨gate, fun s hs => List.mem_append_right _ (hsites s hs)⟩

theorem behind_mem_appendedSites {gate : Gate} {seg : PathSegment} {args : GenericArgs}
    (hargs : seg.generics = some args) : ∀ {segments : List PathSegment}, seg ∈ segments →
      ∀ s ∈ args.sites, s.behind gate ∈ appendedSites gate segments
  | first :: rest, hseg, s, hs => by
      rcases List.mem_cons.mp hseg with rfl | hseg
      · exact List.mem_append_left _ (seg.behind_mem_sites _ hargs s hs)
      · exact List.mem_append_right _ (behind_mem_appendedSites hargs hseg s hs)

theorem Path.mem_sites (p : Path) : .path p [] ∈ p.sites := by
  obtain ⟨node, segments⟩ := p
  exact List.mem_append_right _ (List.mem_singleton_self _)

theorem Path.behind_mem_sites {seg : PathSegment} {args : GenericArgs}
    (hargs : seg.generics = some args) : ∀ p : Path, seg ∈ p.segments →
      ∃ gate, ∀ s ∈ args.sites, s.behind gate ∈ p.sites
  | ⟨_, segments⟩, hseg => by
      obtain ⟨gate, hsites⟩ : ∃ gate, ∀ s ∈ args.sites, s.behind gate ∈ segmentsSites [] segments :=
        behind_mem_segmentsSites hargs hseg
      exact ⟨gate, fun s hs => List.mem_append_left _ (hsites s hs)⟩

namespace QualifiedPath

theorem selfTy_mem_sites (p : QualifiedPath) : ∀ s ∈ p.qualifier.selfTy.sites, s ∈ p.sites := by
  obtain ⟨_, ⟨_, selfTy, asTrait⟩, associated, rest⟩ := p
  intro s hs
  refine List.mem_append_left _ ?_
  cases asTrait with
  | none => exact hs
  | some asTrait => exact List.mem_append_left _ hs

theorem asTrait_behind_mem_sites (p : QualifiedPath) {asTrait : Path}
    (h : p.qualifier.asTrait = some asTrait) :
    ∃ gate, ∀ s ∈ asTrait.sites, s.behind gate ∈ p.sites := by
  obtain ⟨_, ⟨_, selfTy, asTrait⟩, associated, rest⟩ := p
  cases h
  exact ⟨.asTrait selfTy, fun s hs =>
    List.mem_append_left _ (List.mem_append_right _ (List.mem_map_of_mem hs))⟩

theorem behind_mem_sites {seg : PathSegment} {args : GenericArgs}
    (hargs : seg.generics = some args) (p : QualifiedPath) (hseg : seg ∈ p.associated :: p.rest) :
    ∃ gate, ∀ s ∈ args.sites, s.behind gate ∈ p.sites := by
  obtain ⟨_, qualifier, associated, rest⟩ := p
  exact ⟨.tail qualifier, fun s hs =>
    List.mem_append_right _ (behind_mem_appendedSites hargs hseg s hs)⟩

end QualifiedPath

/-! ### Steps -/

/-- Taking a step resolves the segment, or stops with an error. A container that is reached is where
the path goes on. -/
inductive PathSegment.Steps (base : Session) (env : Env) (seg : PathSegment) :
    Reading (Option Spot) → Prop
  | onto (space : Namespace) (m : Meaning) (scope : NodeId)
      (hscope : base.tables.isContainer m.decl = true → scope = m.decl) :
      Steps base env seg ⟨some ⟨scope, some m⟩,
        [.segment space seg.node seg.ident.text m.decl (env.here base)]⟩
  | stop (e : ResolveError) (he : e.isPrivate = false) : Steps base env seg ⟨none, [.error e]⟩

/-- What can come of reading a segment, once a path has come to some spot. -/
inductive PathSegment.Comes (base : Session) (env : Env) (spot : Spot) (seg : PathSegment) :
    Reading (Option Spot) → Prop
  /-- The path has been left to type checking. -/
  | deferred (h : spot.isDeferred base = true) : Comes base env spot seg (pure none)
  /-- The arguments of a keyword, and of a segment that could not be read, are not looked at. -/
  | keyword {r : Reading (Option Spot)} (hident : ∀ name, seg.ident ≠ .ident name)
      (hstep : seg.Steps base env r) : Comes base env spot seg r
  | name {r : Reading (Option Spot)} {name : String} (hident : seg.ident = .ident name)
      (hstep : seg.Steps base env r) :
      Comes base env spot seg (readGenericArgs base env seg.generics >>= fun _ => r)

section Steps

variable (base : Session) (env : Env) (seg : PathSegment)

theorem steps_readModule (module : NodeId) :
    seg.Steps base env (readModule base env seg module) :=
  .onto .name (base.meaning module) module fun _ => rfl

theorem steps_readFirst (spot : Spot) (module : NodeId) :
    seg.Steps base env (readFirst base env spot seg module) := by
  unfold readFirst
  split
  · exact .stop _ rfl
  · exact steps_readModule base env seg module

theorem steps_readSuper (spot : Spot) : seg.Steps base env (readSuper base env spot seg) := by
  unfold readSuper
  split
  · exact .stop _ rfl
  · split
    · split
      · exact .stop _ rfl
      · exact steps_readModule base env seg _
    · exact .stop _ rfl

theorem steps_readName (prefer : Namespace) (single : Bool) (spot : Spot) (name : String)
    (isLast : Bool) :
    seg.Steps base env (readName base env prefer single spot seg name isLast) := by
  unfold readName
  dsimp only
  split
  · exact .onto _ _ _ fun hcontainer => if_pos hcontainer
  · split
    · exact .stop _ rfl
    · split
      · exact .stop _ rfl
      · exact .onto _ _ _ fun hcontainer => if_pos hcontainer

theorem PathSegment.comes (prefer : Namespace) (single : Bool) (spot : Spot) (isLast : Bool) :
    seg.Comes base env spot (seg.read base env prefer single spot isLast) := by
  obtain ⟨node, ident, generics⟩ := seg
  unfold PathSegment.read
  cases ident with
  | malformed => exact .keyword (by simp) (.stop _ rfl)
  | crate =>
      dsimp only
      split
      · exact .deferred ‹_›
      · exact .keyword (by simp) (steps_readFirst _ _ _ _ _)
  | selfModule =>
      dsimp only
      split
      · exact .deferred ‹_›
      · exact .keyword (by simp) (steps_readFirst _ _ _ _ _)
  | super =>
      dsimp only
      split
      · exact .deferred ‹_›
      · exact .keyword (by simp) (steps_readSuper _ _ _ _)
  | ident name =>
      dsimp only
      split
      · exact .deferred ‹_›
      · have hstep := steps_readName base env ⟨node, .ident name, generics⟩ prefer single spot name
          isLast
        cases generics with
        | none => exact .name rfl hstep
        | some args => exact .name rfl hstep

/-- A segment is appended once its arguments have been read. -/
theorem PathSegment.readAppended_eq (path : CanonicalPath) :
    seg.readAppended base env path =
      if seg.ident = .malformed then .stopWith seg.unreadable
      else do
        readGenericArgs base env seg.generics
        return some (path ++ .single seg.node.id (seg.canonicalText true)) := by
  obtain ⟨node, ident, generics⟩ := seg
  rw [readAppended]
  cases generics <;> rfl

/-- What is read of a path that starts from a type before its canonical form is noted. -/
def QualifiedPath.readParts : QualifiedPath → Reading (Option CanonicalPath)
  | ⟨_, qualifier, associated, rest⟩ => do
    match ← qualifier.read base env with
    | none => return none
    | some head =>
      match ← associated.readAppended base env head with
      | none => return none
      | some path => readAppendedSegments base env path rest

/-- The form is noted last, if there is one. -/
theorem QualifiedPath.findings_read (q : QualifiedPath) :
    (q.read base env).findings = (q.readParts base env).findings ++
      (q.read base env).value.toList.map (.qualified q.node.id) := by
  obtain ⟨node, qualifier, associated, rest⟩ := q
  simp only [read, readParts, Reading.value_bind, Reading.findings_bind]
  cases (qualifier.read base env).value with
  | none => simp
  | some head =>
      simp only [Reading.value_bind, Reading.findings_bind]
      cases (associated.readAppended base env head).value with
      | none => simp
      | some path =>
          simp only [Reading.value_bind, Reading.findings_bind]
          cases (readAppendedSegments base env path rest).value <;> simp

/-- Only a lone `self` can be a receiver. -/
theorem Env.receiver?_eq_some {prefer : Namespace} {segments : List PathSegment}
    {seg : PathSegment} {m : Meaning} (h : env.receiver? base prefer segments = some (seg, m)) :
    segments = [seg] ∧ seg.ident = .selfModule :=
  have ⟨hsegments, _, hself, _⟩ := NameResolution.receiver?_eq_some h
  ⟨hsegments, hself⟩

/-- If no receiver is meant, a path stands for what its segments lead to. -/
theorem readWhole_of_no_receiver {prefer : Namespace} (node : Node) {segments : List PathSegment}
    (hreceiver : env.receiver? base prefer segments = none) (r : Reading (Option Meaning)) :
    (readWhole base env prefer node segments r).value = r.value ∧
      r.findings ⊆ (readWhole base env prefer node segments r).findings := by
  unfold readWhole
  rw [hreceiver]
  constructor
  · rw [Reading.value_bind]
    split <;> rename_i hvalue <;> exact hvalue.symm
  · exact List.subset_append_left _ _

end Steps

/-- Once what has been found out is entered, a segment that the path has gone on from is resolved to
what has been reached. -/
theorem PathSegment.Steps.leads {base : Session} {t : Tables} {env : Env} {seg : PathSegment}
    {r : Reading (Option Spot)} (hstep : seg.Steps base env r) (h : Entered base t r.findings)
    {spot : Spot} (hvalue : r.value = some spot) :
    ∃ m, spot.reached = some m ∧ t.resolved? seg.node.id = some m.decl ∧
      (base.tables.isContainer m.decl = true → spot.scope = m.decl) := by
  cases hstep with
  | onto space m scope hscope =>
      cases hvalue
      exact ⟨m, rfl, h.found _ List.mem_cons_self _ _ rfl, hscope⟩
  | stop e _ => cases hvalue

theorem PathSegment.Comes.leads {base : Session} {t : Tables} {env : Env} {seg : PathSegment}
    {spot : Spot} {r : Reading (Option Spot)} (hcomes : seg.Comes base env spot r)
    (h : Entered base t r.findings) {next : Spot} (hvalue : r.value = some next) :
    ∃ m, next.reached = some m ∧ t.resolved? seg.node.id = some m.decl ∧
      (base.tables.isContainer m.decl = true → next.scope = m.decl) := by
  cases hcomes with
  | deferred _ => cases hvalue
  | keyword _ hstep => exact hstep.leads h hvalue
  | name _ hstep => exact hstep.leads h.right hvalue

end NameResolution
