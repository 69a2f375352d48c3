import NameResolution.Proofs.PathEndings
import NameResolution.Proofs.Lexical.BlockRibs
import NameResolution.Proofs.Lexical.Entries

/-!
# NameResolution.Proofs.BarePaths

**Generic arguments never change what a path names** (`Crate.arguments_only_add`), although
they are resolved in the middle of the path and may have blocks in which names are bound.
A path is compared with the same path without arguments (`Path.bare`):

* reading the two, each step leads to the same place or fails in the same way
  (`PathSegment.turnsAlike`), so that the paths stand for the same and find out the same
  about themselves and their segments (`Path.read_bare`);
* resolving a path binds names in its arguments and nowhere else (`Path.fills_arguments`),
  and without arguments it binds none (`Path.quiet_bare`).

What the two make of one session is put side by side in `Path.ArgumentsOnlyAdd`.
-/

namespace NameResolution

open Resolution
open Session (SameDeclarations)

/-! ### Paths without arguments -/

/-- The segment without its generic arguments. -/
def PathSegment.bare (seg : PathSegment) : PathSegment := { seg with generics := none }

/-- The path without the generic arguments of its segments. -/
def Path.bare (p : Path) : Path := { p with segments := p.segments.map PathSegment.bare }

/-- The nodes of the arguments of a segment. -/
def PathSegment.argumentIds (seg : PathSegment) : List NodeId :=
  match seg.generics with
  | none => []
  | some args => args.nodeIds

/-- The nodes of the arguments of all segments. -/
def Path.argumentIds (p : Path) : List NodeId := p.segments.flatMap PathSegment.argumentIds

theorem PathSegment.nodeIds_eq (seg : PathSegment) :
    seg.nodeIds = seg.node.id :: seg.argumentIds := by
  obtain ⟨node, ident, generics⟩ := seg
  cases generics <;> rfl

theorem segmentsNodeIds_perm (segments : List PathSegment) :
    (segmentsNodeIds segments).Perm
      (segments.map (·.node.id) ++ segments.flatMap PathSegment.argumentIds) := by
  induction segments with
  | nil => exact .refl _
  | cons seg rest ih =>
      rw [segmentsNodeIds, seg.nodeIds_eq, List.map_cons, List.flatMap_cons, List.cons_append,
        List.cons_append]
      refine .cons _ ((ih.append_left _).trans ?_)
      rw [← List.append_assoc, ← List.append_assoc]
      exact List.perm_append_comm.append_right _

/-- The nodes of a path are its own and those of the arguments. -/
theorem Path.nodeIds_perm (p : Path) : p.nodeIds.Perm (p.ownIds ++ p.argumentIds) := by
  obtain ⟨node, segments⟩ := p
  exact (segmentsNodeIds_perm segments).cons node.id

theorem segmentsNodeIds_bare (segments : List PathSegment) :
    segmentsNodeIds (segments.map PathSegment.bare) = segments.map (·.node.id) := by
  induction segments with
  | nil => rfl
  | cons seg rest ih => exact congrArg (seg.node.id :: ·) ih

theorem Path.nodeIds_bare (p : Path) : p.bare.nodeIds = p.ownIds :=
  congrArg (p.node.id :: ·) (segmentsNodeIds_bare p.segments)

/-! ### One step -/

section Readings

variable {base : Session} {env : Env}

/-- What is read of a segment and of the same segment without its arguments. The arguments are
looked at first; then the segment is resolved to the same, or there is an error of the same kind. -/
inductive PathSegment.TurnsAlike (base : Session) (env : Env) (seg : PathSegment) :
    Reading (Option Spot) → Reading (Option Spot) → Prop
  | leaves : TurnsAlike base env seg (pure none) (pure none)
  | goesOn (space : Namespace) (name : String) (decl here : NodeId) (spot : Spot) :
      TurnsAlike base env seg
        (seg.readArgs base env >>= fun _ =>
          ⟨some spot, [.segment space seg.node name decl here]⟩)
        ⟨some spot, [.segment space seg.node name decl here]⟩
  | fails {e e' : ResolveError} (hcode : e.code = e'.code) (hspan : e.span = e'.span) :
      TurnsAlike base env seg (seg.readArgs base env >>= fun _ => .stopWith e) (.stopWith e')

/-- The arguments of a keyword are not looked at. -/
theorem PathSegment.TurnsAlike.keyword {seg : PathSegment} {r r' : Reading (Option Spot)}
    (hident : ∀ name, seg.ident ≠ .ident name)
    (h : seg.TurnsAlike base env (seg.readArgs base env >>= fun _ => r) r') :
    seg.TurnsAlike base env r r' := by
  have hargs : seg.readArgs base env = pure () := by
    unfold PathSegment.readArgs
    split
    · next name hname => exact absurd hname (hident name)
    all_goals rfl
  rwa [hargs] at h

section Steps

variable {seg : PathSegment} {spot : Spot}

theorem turnsAlike_readFirst (hident : ∀ name, seg.ident ≠ .ident name) (module : NodeId) :
    seg.TurnsAlike base env (readFirst base env spot seg module)
      (readFirst base env spot seg.bare module) := by
  unfold readFirst
  split
  · exact .keyword hident (.fails rfl rfl)
  · exact .keyword hident (.goesOn ..)

theorem turnsAlike_readSuper (hident : ∀ name, seg.ident ≠ .ident name) :
    seg.TurnsAlike base env (readSuper base env spot seg) (readSuper base env spot seg.bare) := by
  unfold readSuper
  split
  · exact .keyword hident (.fails rfl rfl)
  split
  · split
    · exact .keyword hident (.fails rfl rfl)
    · exact .keyword hident (.goesOn ..)
  · exact .keyword hident (.fails rfl rfl)

theorem turnsAlike_readName (prefer : Namespace) (single isLast : Bool) (name : String) :
    seg.TurnsAlike base env
      (seg.readArgs base env >>= fun _ => readName base env prefer single spot seg name isLast)
      (readName base env prefer single spot seg.bare name isLast) := by
  unfold readName
  dsimp only
  split
  · exact .goesOn ..
  split
  · exact .fails rfl rfl
  split
  · exact .fails rfl rfl
  · exact .goesOn ..

/-- A step does the same with and without the arguments. -/
theorem PathSegment.turnsAlike (seg : PathSegment) (prefer : Namespace) (single isLast : Bool) :
    seg.TurnsAlike base env (seg.read base env prefer single spot isLast)
      (seg.bare.read base env prefer single spot isLast) := by
  obtain ⟨node, ident, generics⟩ := seg
  unfold PathSegment.read PathSegment.bare
  cases ident with
  | malformed => exact .keyword (by simp) (.fails rfl rfl)
  | crate =>
      dsimp only
      split
      · exact .leaves
      · exact turnsAlike_readFirst (by simp) _
  | selfModule =>
      dsimp only
      split
      · exact .leaves
      · exact turnsAlike_readFirst (by simp) _
  | super =>
      dsimp only
      split
      · exact .leaves
      · exact turnsAlike_readSuper (by simp)
  | ident name =>
      dsimp only
      split
      · exact .leaves
      · cases generics <;> exact turnsAlike_readName prefer single isLast name

end Steps

/-! ### Whole paths -/

/-- Errors of one kind at one place, or none. Their wording may differ. -/
def SameKind (e e' : Option ResolveError) : Prop :=
  e.map ResolveError.code = e'.map ResolveError.code ∧
    e.map ResolveError.span = e'.map ResolveError.span

/-- Whether something is entered for one of the nodes. -/
def Finding.isAbout (ids : List NodeId) (f : Finding) : Bool := f.use?.any (· ∈ ids)

/-- What is read of segments, or of a path, with the arguments and without. What is found out about
nodes of its `own` is the same, and the arguments that are looked at, which are those of the first
segments, add errors before its own. -/
structure FollowsAlike (base : Session) (env : Env) (own : List NodeId)
    (segments : List PathSegment) (full bare : Reading (Option Meaning)) : Prop where
  value : full.value = bare.value
  own : full.findings.filter (Finding.isAbout own) = bare.findings.filter (·.use?.isSome)
  errors : ∃ passed e e', passed <+: segments ∧ SameKind e e' ∧
    full.findings.filterMap Finding.error? =
      passed.flatMap (·.argErrors base env) ++ e.toList ∧
    bare.findings.filterMap Finding.error? = e'.toList

theorem Finding.isAbout_eq_false {ids : List NodeId} {f : Finding}
    (h : ∀ id ∈ f.use?, id ∉ ids) : f.isAbout ids = false := by
  unfold isAbout
  cases huse : f.use? with
  | none => rfl
  | some id => simpa using h id huse

/-- None of the findings about other nodes counts. -/
theorem filter_isAbout_eq_nil {own : List NodeId} {findings : List Finding}
    (h : ∀ id ∈ usesOf findings, id ∉ own) : findings.filter (Finding.isAbout own) = [] := by
  refine List.filter_eq_nil_iff.mpr fun f hf => ?_
  rw [Finding.isAbout_eq_false fun id hid => h id (List.mem_filterMap.mpr ⟨f, hf, hid⟩)]
  exact Bool.false_ne_true

variable {prefer : Namespace} {own : List NodeId}

/-- Following the rest of a path does the same with and without the arguments. -/
theorem readSegments_bare (single : Bool) (segments : List PathSegment) (spot : Spot)
    (hown : ∀ seg ∈ segments, seg.node.id ∈ own)
    (hapart : ∀ seg ∈ segments, ∀ id ∈ usesOf (seg.readArgs base env).findings, id ∉ own) :
    FollowsAlike base env own segments (readSegments base env prefer single spot segments)
      (readSegments base env prefer single spot (segments.map PathSegment.bare)) := by
  induction segments generalizing spot with
  | nil => exact ⟨rfl, rfl, [], none, none, List.nil_prefix, ⟨rfl, rfl⟩, rfl, rfl⟩
  | cons seg rest ih =>
      obtain ⟨hseg, hrest⟩ := List.forall_mem_cons.mp hown
      obtain ⟨hargs, hapart⟩ := List.forall_mem_cons.mp hapart
      have hturns := @PathSegment.turnsAlike base env spot seg prefer single rest.isEmpty
      rw [List.map_cons, readSegments_cons, readSegments_cons, List.isEmpty_map]
      generalize seg.read base env prefer single spot rest.isEmpty = full at hturns
      generalize seg.bare.read base env prefer single spot rest.isEmpty = bare at hturns
      have hskipped := filter_isAbout_eq_nil hargs
      cases hturns with
      | leaves => exact ⟨rfl, rfl, [], none, none, List.nil_prefix, ⟨rfl, rfl⟩, rfl, rfl⟩
      | @fails e e' hcode hspan =>
          refine ⟨rfl, ?_, [seg], some e, some e', ?_, ⟨congrArg some hcode, congrArg some hspan⟩,
            ?_, rfl⟩
          · simp [hskipped, Reading.stopWith, readOnward, Finding.isAbout, Finding.use?]
          · exact List.cons_prefix_cons.mpr ⟨rfl, List.nil_prefix⟩
          · simp [Reading.stopWith, readOnward, Finding.error?, PathSegment.argErrors]
      | goesOn space name decl here spot =>
          obtain ⟨hvalue, hsame, passed, e, e', hpassed, hkind, herrors, herrors'⟩ :=
            ih spot hrest hapart
          refine ⟨hvalue, ?_, seg :: passed, e, e', ?_, hkind, ?_, ?_⟩
          · simpa [hskipped, readOnward, Finding.isAbout, Finding.use?, hseg] using hsame
          · exact List.cons_prefix_cons.mpr ⟨rfl, hpassed⟩
          · simp [readOnward, List.filterMap_cons, Finding.error?, PathSegment.argErrors, herrors]
          · simpa [readOnward, List.filterMap_cons, Finding.error?] using herrors'

theorem receiver?_bare (segments : List PathSegment) :
    env.receiver? base prefer (segments.map PathSegment.bare) =
      (env.receiver? base prefer segments).map fun found => (found.1.bare, found.2) := by
  match segments, prefer with
  | [], _ => rfl
  | [seg], .type => rfl
  | [seg], .name =>
      change (if seg.ident = .selfModule then _ else _) = Option.map _ (if _ then _ else _)
      split
      · rw [Option.map_map]
        rfl
      · rfl
  | _ :: _ :: _, _ => rfl

/-- A path does the same with and without its arguments. -/
theorem Path.read_bare (p : Path)
    (hapart : ∀ seg ∈ p.segments, ∀ id ∈ usesOf (seg.readArgs base env).findings, id ∉ p.ownIds) :
    FollowsAlike base env p.ownIds p.segments (p.read base env prefer)
      (p.bare.read base env prefer) := by
  obtain ⟨node, segments⟩ := p
  have hreceiver := @receiver?_bare base env prefer segments
  cases hfound : env.receiver? base prefer segments with
  | some found =>
      obtain ⟨seg, m⟩ := found
      obtain ⟨rfl, -⟩ := env.receiver?_eq_some _ hfound
      rw [hfound] at hreceiver
      unfold Path.bare
      rw [Path.read_of_receiver node hfound, Path.read_of_receiver node hreceiver]
      refine ⟨rfl, ?_, [], none, none, List.nil_prefix, ⟨rfl, rfl⟩, rfl, rfl⟩
      simp [Finding.isAbout, Finding.use?, ownIds, PathSegment.bare]
  | none =>
      rw [hfound] at hreceiver
      have hown : ∀ seg ∈ segments, seg.node.id ∈ node.id :: segments.map (·.node.id) :=
        fun seg hseg => List.mem_cons_of_mem _ (List.mem_map_of_mem hseg)
      obtain ⟨hvalue, hsame, passed, e, e', hpassed, hkind, herrors, herrors'⟩ :=
        @readSegments_bare base env prefer _ (segments.length == 1) segments ⟨env.here base, none⟩
          hown hapart
      obtain ⟨hfull, hfindings⟩ := Path.read_of_no_receiver node hfound rfl
      obtain ⟨hbare, hfindings'⟩ := Path.read_of_no_receiver node hreceiver rfl
      rw [List.length_map] at hbare hfindings'
      unfold Path.bare
      refine ⟨by rw [hfull, hbare, hvalue], ?_, passed, e, e', hpassed, hkind, ?_, ?_⟩
      · rw [hfindings, hfindings', List.filter_append, List.filter_append, ownIds, hsame, hvalue]
        cases Reading.value _ <;> simp [Finding.isAbout, Finding.use?]
      · rw [hfindings, List.filterMap_append, herrors]
        cases Reading.value _ <;> simp [List.filterMap_cons, Finding.error?]
      · rw [hfindings', List.filterMap_append, herrors']
        cases Reading.value _ <;> simp [List.filterMap_cons, Finding.error?]

end Readings

/-! ### What is bound on the way -/

/-- A step only enters findings, except that the arguments of a plain name are resolved first. -/
theorem PathSegment.follow_cases (w : Walk) (pos : Position) (isLast : Bool) (seg : PathSegment) :
    Quiet (seg.follow w pos isLast) ∨
      ∃ args name, seg.generics = some args ∧ seg.follow w pos isLast =
        unlessDeferred pos (args.resolve >>= fun _ => followName w pos seg name isLast) := by
  obtain ⟨node, ident, generics⟩ := seg
  cases ident with
  | malformed => exact .inl (Quiet.steps.stopWith rfl)
  | crate => exact .inl (Quiet.steps.unlessDeferred pos (Quiet.steps.followFirst w pos _ w.root))
  | selfModule =>
      exact .inl (Quiet.steps.unlessDeferred pos (Quiet.steps.followFirst w pos _ w.here))
  | super => exact .inl (Quiet.steps.unlessDeferred pos (Quiet.steps.followSuper w pos _))
  | ident name =>
      cases generics with
      | none =>
          exact .inl (Quiet.steps.unlessDeferred pos (Quiet.steps.followName w pos _ name isLast))
      | some args => exact .inr ⟨args, name, rfl, rfl⟩

/-- The end of a path only enters findings. -/
theorem quiet_ending (node : Node) : ∀ reached : Option NodeId,
    Quiet (match reached with
      | none => pure none
      | some decl => do
        recordPath node.id decl
        return some decl : Resolution (Option NodeId))
  | none => Quiet.steps.pure _
  | some decl => Quiet.steps.bind (Quiet.recordPath node.id decl) fun _ => Quiet.steps.pure _

/-- What a receiver is resolved to is entered. -/
theorem quiet_receiver (node : Node) (receiver : NodeId) :
    Quiet (do
      updateTables (·.setResolved .name node.id receiver)
      return some receiver : Resolution (Option NodeId)) :=
  Quiet.steps.bind (Quiet.setResolved .name node.id receiver) fun _ => Quiet.steps.pure _

section Binding

variable {top : NodeId} {shadow : Bool} {s : Session}

/-- Whatever a step binds, it binds in the arguments of its segment. -/
theorem PathSegment.fills_arguments (w : Walk) (pos : Position) (isLast : Bool)
    (seg : PathSegment) :
    Fills top shadow s seg.argumentIds [] seg.blocks (seg.follow w pos isLast) := by
  rcases seg.follow_cases w pos isLast with hquiet | ⟨args, name, hargs, hfollow⟩
  · exact .quiet hquiet
  · obtain ⟨node, ident, generics⟩ := seg
    obtain rfl : generics = some args := hargs
    rw [hfollow]
    refine .quiet_bind Quiet.steps.get fun s₁ _ => ?_
    split
    · exact .pure none
    · exact .bind_quiet args.fills fun _ => Quiet.steps.followName w pos _ name isLast

theorem fills_walk_arguments (w : Walk) (segments : List PathSegment) {pos : Position} :
    Fills top shadow s (segments.flatMap PathSegment.argumentIds) [] (segmentsBlocks segments)
      (walk w pos segments) := by
  induction segments generalizing s pos with
  | nil => exact .pure _
  | cons seg rest ih =>
      refine .seq (seg.fills_arguments w pos rest.isEmpty) fun reached _ => ?_
      cases reached with
      | none => exact .pure _
      | some pos => exact ih

/-- Whatever a path binds, it binds in the arguments of its segments. -/
theorem Path.fills_arguments (prefer : Namespace) (p : Path) :
    Fills top shadow s p.argumentIds [] p.blocks (p.resolve prefer) := by
  obtain ⟨node, segments⟩ := p
  refine .quiet_bind Quiet.currentModule fun here _ => ?_
  refine .quiet_bind Quiet.rootModule fun root _ => ?_
  refine .quiet_bind (Quiet.steps.receiver? _ segments) fun receiver _ => ?_
  cases receiver with
  | some receiver => exact .quiet (quiet_receiver node receiver)
  | none => exact .bind_quiet (fills_walk_arguments _ segments) (quiet_ending node)

end Binding

theorem quiet_walk_bare (w : Walk) (segments : List PathSegment) (pos : Position) :
    Quiet (walk w pos (segments.map PathSegment.bare)) := by
  induction segments generalizing pos with
  | nil => exact Quiet.steps.pure _
  | cons seg rest ih =>
      refine Quiet.steps.bind ?_ fun reached => ?_
      · rcases seg.bare.follow_cases w pos (rest.map PathSegment.bare).isEmpty with
          hquiet | ⟨args, -, hargs, -⟩
        · exact hquiet
        · cases hargs
      · cases reached with
        | none => exact Quiet.steps.pure _
        | some pos => exact ih pos

/-- Without arguments, a path binds nothing. -/
theorem Path.quiet_bare (prefer : Namespace) (p : Path) : Quiet (p.bare.resolve prefer) := by
  obtain ⟨node, segments⟩ := p
  refine Quiet.steps.bind Quiet.currentModule fun here => ?_
  refine Quiet.steps.bind Quiet.rootModule fun root => ?_
  refine Quiet.steps.bind (Quiet.steps.receiver? _ _) fun receiver => ?_
  cases receiver with
  | some receiver => exact quiet_receiver node receiver
  | none => exact Quiet.steps.bind (quiet_walk_bare _ segments _) (quiet_ending node)

/-! ### What is entered on the way -/

/-- What is entered for the nodes of a path itself and of its segments, if `key` tells the node. -/
theorem filterMap_bare {β : Type} {own : List NodeId} {full bare : List Finding}
    (hsame : full.filter (Finding.isAbout own) = bare.filter (·.use?.isSome))
    {entry : Finding → Option β} {key : β → NodeId}
    (hkey : ∀ f b, entry f = some b → f.use? = some (key b)) :
    (full.filterMap entry).filter (key · ∈ own) = bare.filterMap entry := by
  have hfull : (full.filterMap entry).filter (key · ∈ own) =
      (full.filter (Finding.isAbout own)).filterMap entry := by
    rw [List.filter_filterMap, List.filterMap_filter]
    refine List.filterMap_congr fun f _ => ?_
    cases hentry : entry f with
    | none => simp
    | some b => by_cases hown : key b ∈ own <;> simp [Finding.isAbout, hkey f b hentry, hown]
  have hbare : bare.filterMap entry = (bare.filter (·.use?.isSome)).filterMap entry := by
    rw [List.filterMap_filter]
    refine List.filterMap_congr fun f _ => ?_
    cases hentry : entry f with
    | none => simp
    | some b => simp [hkey f b hentry]
  rw [hfull, hbare, hsame]

/-- What tells the node of an entry, of a form or of a use site is what the finding is about. -/
theorem Finding.use?_of_entryIn? {f : Finding} {space : Namespace} {entry : NodeId × NodeId}
    (h : f.entryIn? space = some entry) : f.use? = some entry.1 := by
  rcases f.of_entryIn? h with ⟨node, name, here, rfl, hnode⟩ | rfl
  · exact congrArg some hnode
  · rfl

theorem Finding.use?_of_form? {f : Finding} {form : NodeId × CanonicalPath}
    (h : f.form? = some form) : f.use? = some form.1 := by
  rw [Finding.form?_eq_some.mp h]
  rfl

theorem Finding.use?_of_useSite? {f : Finding} {t : Tables} {site : UseSite}
    (h : f.useSite? t = some site) : f.use? = some site.segment := by
  cases f with
  | segment space node name decl here =>
      obtain ⟨_, -, rfl⟩ := Option.map_eq_some_iff.mp h
      rfl
  | resolved | qualified | error | visit => cases h

namespace FollowsAlike

variable {base s s' s'' : Session} {env : Env} {own arguments : List NodeId}
  {segments : List PathSegment} {full bare : Reading (Option Meaning)}
  (h : FollowsAlike base env own segments full bare)

include h

/-- What is entered for the nodes of the path itself is the same, and everything else is entered
for the arguments. -/
theorem entered {β : Type} (huses : usesOf full.findings ⊆ own ++ arguments)
    {entry : Finding → Option β} {key : β → NodeId}
    (hkey : ∀ f b, entry f = some b → f.use? = some (key b)) :
    (full.findings.filterMap entry).filter (key · ∈ own) = bare.findings.filterMap entry ∧
      ∀ b ∈ full.findings.filterMap entry, key b ∈ own ∨ key b ∈ arguments := by
  refine ⟨filterMap_bare h.own hkey, fun b hb => ?_⟩
  obtain ⟨f, hf, hentry⟩ := List.mem_filterMap.mp hb
  exact List.mem_append.mp (huses (List.mem_filterMap.mpr ⟨f, hf, hkey f b hentry⟩))

variable (hfull : s'.ledger = s.ledger.noteAll base full.findings)
  (hbare : s''.ledger = s.ledger.noteAll base bare.findings)

include hfull hbare

theorem entries (huses : usesOf full.findings ⊆ own ++ arguments) (space : Namespace) : ∃ new,
    (s'.tables.entered space).entries = new ++ (s.tables.entered space).entries ∧
    (s''.tables.entered space).entries =
      new.filter (·.1 ∈ own) ++ (s.tables.entered space).entries ∧
    ∀ entry ∈ new, entry.1 ∈ own ∨ entry.1 ∈ arguments := by
  have hentered (s : Session) : s.tables.entered space = s.ledger.entered space := by
    cases space <;> rfl
  obtain ⟨hown, hmem⟩ := h.entered huses fun f entry => @Finding.use?_of_entryIn? f space entry
  refine ⟨(full.findings.filterMap (Finding.entryIn? space)).reverse, ?_, ?_,
    fun entry hentry => hmem entry (List.mem_reverse.mp hentry)⟩
  · rw [hentered, hentered, hfull, Ledger.entries_noteAll]
  · rw [hentered, hentered, hbare, Ledger.entries_noteAll, List.filter_reverse, hown]

theorem forms (huses : usesOf full.findings ⊆ own ++ arguments) : ∃ new,
    s'.tables.qualified.entries = new ++ s.tables.qualified.entries ∧
    s''.tables.qualified.entries = new.filter (·.1 ∈ own) ++ s.tables.qualified.entries ∧
    ∀ form ∈ new, form.1 ∈ own ∨ form.1 ∈ arguments := by
  obtain ⟨hown, hmem⟩ := h.entered huses fun f form => @Finding.use?_of_form? f form
  refine ⟨(full.findings.filterMap Finding.form?).reverse, ?_, ?_,
    fun form hform => hmem form (List.mem_reverse.mp hform)⟩
  · change s'.ledger.qualified.entries = _
    rw [hfull, Ledger.entries_qualified_noteAll]
    rfl
  · change s''.ledger.qualified.entries = _
    rw [hbare, Ledger.entries_qualified_noteAll, List.filter_reverse, hown]
    rfl

theorem useSites (huses : usesOf full.findings ⊆ own ++ arguments) : ∃ new,
    s'.tables.useSites = s.tables.useSites ++ new ∧
    s''.tables.useSites = s.tables.useSites ++ new.filter (·.segment ∈ own) ∧
    ∀ site ∈ new, site.segment ∈ own ∨ site.segment ∈ arguments := by
  obtain ⟨hown, hmem⟩ :=
    h.entered huses fun f site => @Finding.use?_of_useSite? f base.tables site
  refine ⟨full.findings.filterMap (Finding.useSite? base.tables), ?_, ?_, hmem⟩
  · change s'.ledger.useSites = _
    rw [hfull, Ledger.useSites_noteAll]
    rfl
  · change s''.ledger.useSites = _
    rw [hbare, Ledger.useSites_noteAll, hown]
    rfl

theorem reported : ∃ passed e e', passed <+: segments ∧ SameKind e e' ∧
    s'.errors.reported =
      s.errors.reported ++ passed.flatMap (·.argErrors base env) ++ e.toList ∧
    s''.errors.reported = s.errors.reported ++ e'.toList := by
  obtain ⟨passed, e, e', hpassed, hkind, herrors, herrors'⟩ := h.errors
  refine ⟨passed, e, e', hpassed, hkind, ?_, ?_⟩
  · change s'.ledger.reported = _
    rw [hfull, Ledger.reported_noteAll, herrors, List.append_assoc]
    rfl
  · change s''.ledger.reported = _
    rw [hbare, Ledger.reported_noteAll, herrors']
    rfl

end FollowsAlike

/-- What becomes of a session when a path is resolved (`full`), and when it is resolved without its
arguments instead (`bare`). -/
structure Path.ArgumentsOnlyAdd (base : Session) (env : Env) (p : Path) (s full bare : Session) :
    Prop where
  apart : p.ownIds.Disjoint p.argumentIds
  /-- Without the arguments, nothing is done but to enter what is found out. -/
  quiet : ∃ l, bare = s.withLedger l
  /-- With them, only nodes of the arguments are declared, named or given a rib that holds
  anything. -/
  grows : s.Grows p.argumentIds full
  contents : ∀ owner ∉ p.argumentIds, full.contents owner = s.contents owner
  declarations : SameDeclarations s.tables full.tables
  /-- The path and its segments are resolved to the same declarations. -/
  entries : ∀ space, ∃ new,
    (full.tables.entered space).entries = new ++ (s.tables.entered space).entries ∧
    (bare.tables.entered space).entries =
      new.filter (·.1 ∈ p.ownIds) ++ (s.tables.entered space).entries ∧
    ∀ entry ∈ new, entry.1 ∈ p.ownIds ∨ entry.1 ∈ p.argumentIds
  forms : ∃ new,
    full.tables.qualified.entries = new ++ s.tables.qualified.entries ∧
    bare.tables.qualified.entries = new.filter (·.1 ∈ p.ownIds) ++ s.tables.qualified.entries ∧
    ∀ form ∈ new, form.1 ∈ p.ownIds ∨ form.1 ∈ p.argumentIds
  /-- The segments are the same use sites. -/
  useSites : ∃ new,
    full.tables.useSites = s.tables.useSites ++ new ∧
    bare.tables.useSites = s.tables.useSites ++ new.filter (·.segment ∈ p.ownIds) ∧
    ∀ site ∈ new, site.segment ∈ p.ownIds ∨ site.segment ∈ p.argumentIds
  /-- The path has an error of its own in both cases or in neither, after those about the arguments
  of the segments that it has come to. -/
  errors : ∃ passed own own', passed <+: p.segments ∧ SameKind own own' ∧
    full.errors.reported =
      s.errors.reported ++ passed.flatMap (·.argErrors base env) ++ own.toList ∧
    bare.errors.reported = s.errors.reported ++ own'.toList

namespace Ready

variable {base s : Session} {env : Env} {ids : List NodeId}

/-- Nodes that are still to be worked on fit in, whichever rib is the innermost one. -/
theorem exists_fits (h : Ready base env ids s) : ∃ top, s.Fits (fun _ => True) top ids := by
  obtain ⟨top, outer, howners⟩ : ∃ top outer, env.owners base = top :: outer :=
    List.exists_cons_of_ne_nil (List.append_ne_nil_of_right_ne_nil _ (List.cons_ne_nil _ _))
  refine ⟨top, fun space => ?_, fun space => ?_, h.nodup, fun id hid space => ?_,
    fun id hid _ => h.unused id hid, h.vacant⟩
  · rw [h.stands.opened, howners]
    rfl
  · exact h.stands.ribs space top (howners ▸ List.mem_cons_self)
  · rw [h.stands.opened]
    exact h.apart id hid

/-- Nodes that are all different belong to the path itself or to its arguments, never to both. -/
theorem ownIds_disjoint {p : Path} (h : Ready base env p.nodeIds s) :
    p.ownIds.Disjoint p.argumentIds := fun id hown harg =>
  (List.nodup_append.mp (p.nodeIds_perm.nodup_iff.mp h.nodup)).2.2 id hown id harg rfl

/-- What is found out about the arguments concerns none of the nodes of the path itself, so the
path is followed in the same way without them. -/
theorem followsAlike {p : Path} (h : Ready base env p.nodeIds s) (hbase : base.Settled)
    (prefer : Namespace) :
    FollowsAlike base env p.ownIds p.segments (p.read base env prefer)
      (p.bare.read base env prefer) := by
  refine p.read_bare fun seg hseg id huse hown => ?_
  have hargs : ArgsApart base env seg := by
    obtain ⟨node, segments⟩ := p
    exact (h.tail.mono (nodeIds_sublist hseg).subperm).argsApart hbase
  have hid := hargs huse
  rw [seg.nodeIds_eq] at hid
  exact h.ownIds_disjoint hown (List.mem_flatMap.mpr ⟨seg, hseg, hid⟩)

end Ready

/-- A path does the same from a session with and without its arguments. -/
theorem Path.resolve_bare {base s : Session} {env : Env} (hbase : base.Settled) (prefer : Namespace)
    (p : Path) (hready : Ready base env p.nodeIds s) :
    ∃ decl full bare, Runs (p.resolve prefer) s decl full ∧
      Runs (p.bare.resolve prefer) s decl bare ∧ p.ArgumentsOnlyAdd base env s full bare := by
  have hperm := p.nodeIds_perm
  have hbare : Ready base env p.bare.nodeIds s := by
    rw [p.nodeIds_bare]
    exact hready.mono ((List.sublist_append_left _ _).subperm.trans hperm.symm.subperm)
  have harguments : Ready base env p.argumentIds s :=
    hready.mono ((List.sublist_append_right _ _).subperm.trans hperm.symm.subperm)
  have hread := hready.followsAlike hbase prefer
  obtain ⟨_, full, hrun, ⟨rfl, -⟩, -, -, hstep⟩ := p.agrees hbase prefer hready
  obtain ⟨_, bare, hrun', ⟨rfl, -⟩, -, -, hstep'⟩ := p.bare.agrees hbase prefer hbare
  rw [← hread.value] at hrun'
  obtain ⟨l, hquiet, -⟩ := p.quiet_bare prefer _ s bare hrun'
  obtain ⟨top, hfits⟩ := harguments.exists_fits
  have hfills : Fills top false s p.argumentIds [] p.blocks (p.resolve prefer) :=
    p.fills_arguments prefer
  obtain ⟨opened, -, hbinds⟩ := hfills hfits _ full hrun
  have huses := List.Subset.trans hstep.uses.subset hperm.subset
  refine ⟨_, full, bare, hrun, hrun', hready.ownIds_disjoint, ⟨l, hquiet⟩, hbinds.grows, ?_,
    hstep.tables, hread.entries hstep.ledger hstep'.ledger huses,
    hread.forms hstep.ledger hstep'.ledger huses, hread.useSites hstep.ledger hstep'.ledger huses,
    hread.reported hstep.ledger hstep'.ledger⟩
  -- the path itself binds nothing in the innermost rib, and no action reaches the ribs around it
  intro owner howner
  by_cases htop : owner = top
  · rw [htop]
    exact hbinds.contents
  · refine hbinds.grows.contents howner fun space hhead => htop ?_
    exact (Option.some.inj (hhead.symm.trans (hfits.innermost space)))

namespace Crate

/-- **Generic arguments never change what a path names.** In a well-formed crate, let a path be
looked up. When the second pass comes to it, its nodes are still to be worked on, and the tables are
what has been found out before. From every such session the path and the same path without
arguments name the same declaration or nothing, enter the same for the path and its segments, and
report an error of the same kind at the same place or none; the arguments only add what is about
their own nodes. -/
theorem arguments_only_add {c : Crate} (hwf : c.WellFormed) (settings : Settings) {x : PlacedSite}
    {p : Path} {prefer : Namespace} {env : Env} (hlook : c.LooksUp settings x p prefer env) :
    (∃ before after s, (c.read (c.registered settings)).findings =
        before ++ (p.read (c.registered settings) env prefer).findings ++ after ∧
      Ready (c.registered settings) env p.nodeIds s ∧
      s.ledger = (c.registered settings).ledger.noteAll (c.registered settings) before) ∧
    ∀ s, Ready (c.registered settings) env p.nodeIds s →
      ∃ decl full bare, Runs (p.resolve prefer) s decl full ∧
        Runs (p.bare.resolve prefer) s decl bare ∧
        p.ArgumentsOnlyAdd (c.registered settings) env s full bare :=
  ⟨hlook.exists_ready hwf, fun _ hready =>
    p.resolve_bare ((c.firstPass hwf settings).settled hwf) prefer hready⟩

/-- The path `crate::Missing<[S; { let y = 1; y }]>::T`. -/
def pathWithArray : Path :=
  let node (id offset : Nat) : Node := ⟨⟨id⟩, ⟨offset, 1⟩⟩
  let y : Expr := .path (node 16 40) ⟨node 17 40, [⟨node 18 40, .ident "y", none⟩]⟩
  let block : Block :=
    ⟨node 12 30, [.bind (node 13 32) (.binding (node 14 36) ⟨"y", ⟨36, 1⟩⟩ false) none
      (some (.literal (node 15 38) (.int 1)))], some y⟩
  let array : Ty := .array (node 7 26)
    (.path (node 8 27) ⟨node 9 27, [⟨node 10 27, .ident "S", none⟩]⟩) (.block (node 11 30) block)
  ⟨node 4 10, [⟨node 5 11, .crate, none⟩,
    ⟨node 6 17, .ident "Missing", some ⟨[array], ⟨25, 18⟩⟩⟩, ⟨node 19 44, .ident "T", none⟩]⟩

/-- A struct `S`, and an alias for a path with an array type among the arguments. -/
def withArrayArgument : Crate where
  node := ⟨⟨0⟩, ⟨0, 50⟩⟩
  items := [⟨⟨⟨1⟩, ⟨0, 3⟩⟩, .ownModule, .struct ⟨⟨"S", ⟨2, 1⟩⟩, .none, []⟩⟩,
    ⟨⟨⟨2⟩, ⟨4, 46⟩⟩, .ownModule,
      .typeAlias ⟨⟨"A", ⟨5, 1⟩⟩, .none, .path ⟨⟨3⟩, ⟨10, 36⟩⟩ pathWithArray⟩⟩]
  idBound := ⟨20⟩

/-- With and without the argument the path fails at its second segment, which is quoted as it is
written. The block of the array is among the nodes of the argument. -/
theorem arguments_only_add_withArrayArgument :
    withArrayArgument.WellFormed ∧
      ∃ x env s decl full bare,
        withArrayArgument.LooksUp {} x pathWithArray .type env ∧
        Ready (withArrayArgument.registered {}) env pathWithArray.nodeIds s ∧
        Runs (pathWithArray.resolve .type) s decl full ∧
        Runs (pathWithArray.bare.resolve .type) s decl bare ∧
        pathWithArray.ArgumentsOnlyAdd (withArrayArgument.registered {}) env s full bare ∧
        ⟨12⟩ ∈ pathWithArray.argumentIds ∧
        (pathWithArray.read (withArrayArgument.registered {}) env .type).findings.filterMap
          Finding.error? = [.cannotFindPath "Missing<[S; { let y = 1; y }]>" ⟨17, 1⟩] ∧
        (pathWithArray.bare.read (withArrayArgument.registered {}) env .type).findings.filterMap
          Finding.error? = [.cannotFindPath "Missing" ⟨17, 1⟩] := by
  have hwf : withArrayArgument.WellFormed := by decide
  obtain ⟨prefer, env, hlook⟩ := withArrayArgument.exists_looksUp_of_open {}
    (x := ⟨[⟨0⟩], .path pathWithArray []⟩) (List.mem_of_getElem? (i := 7) rfl) rfl
  let inAlias : Env := (Env.inside [⟨0⟩]).enter ⟨2⟩ ((List.range' 2 18).map NodeId.mk)
  -- The path is visited once, in the frame of the alias.
  have hvisits : ∀ v ∈ (withArrayArgument.read (withArrayArgument.registered {})).findings.filterMap
      Finding.visited?, v.1 = ⟨4⟩ → v.2.2 = (.type, inAlias) := by
    decide +kernel
  obtain ⟨outcome, hvisit⟩ := hlook.visit
  have hwhere := hvisits (⟨4⟩, _, prefer, env) (List.mem_filterMap.mpr ⟨_, hvisit, rfl⟩) rfl
  obtain ⟨rfl, rfl⟩ := Prod.mk.inj hwhere
  obtain ⟨⟨_, _, s, -, hready, -⟩, hadds⟩ := arguments_only_add hwf {} hlook
  obtain ⟨decl, full, bare, hfull, hbare, h⟩ := hadds s hready
  exact ⟨hwf, _, _, s, decl, full, bare, hlook, hready, hfull, hbare, h, by decide,
    by decide +kernel, by decide +kernel⟩

end Crate

end NameResolution
