import NameResolution.Proofs.Lexical.PathSteps

/-!
# NameResolution.Proofs.Lexical.Likeness

**Sessions in which a crate reads the same.** Reading depends on little of what the first
pass leaves behind: the kinds of containers, the parents of modules, what modules have
under a name, which child a segment picks, and what declarations mean. Two sessions that
agree about that are `Alike`, and then every part of a crate reads the same in both
(`Alike.traversal`).

Which child a segment before the last one picks may depend on the order of declaration.
The sessions need only agree about names that are `clear` where they are looked up, and
about the last segments. Where a name is looked up shows in what has been entered for the
segment before it (`SegmentsClear`).
-/

namespace NameResolution

/-- Two sessions that agree about all that a reading depends on, as long as segments before the last
one only have names that are clear where they are looked up. -/
structure Alike (base base' : Session) (clear : NodeId → String → Prop) : Prop where
  root : base'.root = base.root
  builtins : base'.builtins = base.builtins
  builtinMeanings : ∀ id ∈ base.builtins.types, base'.meaning id = base.meaning id
  containers : ∀ id, base'.tables.containers.get? id = base.tables.containers.get? id
  modules : ∀ m, base.tables.isModule m = true → base'.meaning m = base.meaning m
  parents : ∀ m, base.tables.isModule m = true →
    base'.tables.parents.get? m = base.tables.parents.get? m
  members : ∀ space owner name,
    Env.findMember? base' space owner name = Env.findMember? base space owner name
  children : ∀ scope name, ∀ child ∈ base.tables.childrenNamed scope name,
    base'.meaning child = base.meaning child
  picks : ∀ prefer isLast scope name, isLast = true ∨ clear scope name →
    base'.pickChild? prefer isLast (base'.tables.childrenNamed scope name) =
      base.pickChild? prefer isLast (base.tables.childrenNamed scope name)

/-- Before its last segment, a path only has names that are clear where they are looked up: the
first one in the container given, and every further one in what the segment before it was resolved
to. -/
def SegmentsClear (resolved? : NodeId → Option NodeId) (clear : NodeId → String → Prop)
    (container? : Option NodeId) : List PathSegment → Prop
  | [] | [_] => True
  | seg :: next :: rest =>
    (∀ name, seg.ident = .ident name → ∀ container ∈ container?, clear container name) ∧
      SegmentsClear resolved? clear (resolved? seg.node.id) (next :: rest)

/-- A site in modules that are known as such, where the segments of a path are clear. -/
structure PlacedSite.Clear (base : Session) (t : Tables) (clear : NodeId → String → Prop)
    (x : PlacedSite) : Prop where
  modules : ∀ m ∈ x.modules, base.tables.isModule m = true
  segments : ∀ p gates, x.site = .path p gates →
    SegmentsClear t.resolved? clear (some (x.modules.headD base.root)) p.segments

theorem PlacedSite.Clear.of_behind {base : Session} {t : Tables} {clear : NodeId → String → Prop}
    {gate : Gate} {modules : List NodeId} {s : Site}
    (h : PlacedSite.Clear base t clear ⟨modules, s.behind gate⟩) :
    PlacedSite.Clear base t clear ⟨modules, s⟩ where
  modules := h.modules
  segments p gates hsite := by
    cases hsite
    exact h.segments p (gate :: gates) rfl

/-- The arguments of a segment read the same, once what there is to be found out is entered. -/
def ArgsAlike (base base' : Session) (t : Tables) (env : Env) (seg : PathSegment) : Prop :=
  ∀ args, seg.generics = some args → Entered base t (args.read base env).findings →
    args.read base env = args.read base' env

theorem ArgsAlike.eq {base base' : Session} {t : Tables} {env : Env} {seg : PathSegment}
    (hargs : ArgsAlike base base' t env seg)
    (hentered : Entered base t (readGenericArgs base env seg.generics).findings) :
    readGenericArgs base env seg.generics = readGenericArgs base' env seg.generics := by
  cases hgenerics : seg.generics with
  | none => rfl
  | some args =>
      rw [hgenerics] at hentered
      exact hargs args hgenerics hentered

namespace Alike

variable {base base' : Session} {t : Tables} {clear : NodeId → String → Prop}
  (hbase : base.Settled) (h : Alike base base' clear)

section Steps

variable {env : Env} {seg : PathSegment} {prefer : Namespace} {single : Bool} {spot : Spot}

section Lookup

include h

theorem isContainer (id : NodeId) : base'.tables.isContainer id = base.tables.isContainer id := by
  unfold Tables.isContainer
  rw [h.containers]

theorem isModule (id : NodeId) : base'.tables.isModule id = base.tables.isModule id := by
  unfold Tables.isModule
  rw [h.containers]

theorem here (env : Env) : env.here base' = env.here base := by
  unfold Env.here
  rw [h.root]

theorem readTo (env : Env) (seg : PathSegment) (space : Namespace) (decl : NodeId) :
    seg.readTo base' env space decl = seg.readTo base env space decl := by
  unfold PathSegment.readTo
  rw [h.here]

theorem find? (env : Env) (space : Namespace) (name : String) :
    env.find? base' space name = env.find? base space name := by
  have hmembers : (Env.findMember? base' space · name) = (Env.findMember? base space · name) :=
    funext fun owner => h.members space owner name
  unfold Env.find?
  rw [hmembers, h.builtins]

theorem resolve (env : Env) (prefer : Namespace) (name : String) :
    env.resolve base' prefer name = env.resolve base prefer name := by
  unfold Env.resolve
  rw [h.find?, h.find?]

theorem receiver? (env : Env) (prefer : Namespace) (segments : List PathSegment) :
    env.receiver? base' prefer segments = env.receiver? base prefer segments := by
  unfold Env.receiver?
  split
  · split
    · rw [h.find?]
    · rfl
  · rfl

theorem isDeferred (spot : Spot) : spot.isDeferred base' = spot.isDeferred base := by
  unfold Spot.isDeferred
  split
  · rfl
  · rw [h.isContainer]

theorem advance (spot : Spot) (m : Meaning) : spot.advance base' m = spot.advance base m := by
  unfold Spot.advance
  rw [h.isContainer]

theorem readModule {module : NodeId} (hmodule : base.tables.isModule module = true) :
    NameResolution.readModule base' env seg module =
      NameResolution.readModule base env seg module := by
  unfold NameResolution.readModule
  rw [h.readTo, h.modules module hmodule]

theorem readFirst {module : NodeId} (hmodule : base.tables.isModule module = true) :
    NameResolution.readFirst base' env spot seg module =
      NameResolution.readFirst base env spot seg module := by
  unfold NameResolution.readFirst
  rw [h.readModule hmodule]

theorem readName {name : String} {isLast : Bool} (hclear : isLast = true ∨ clear spot.scope name) :
    NameResolution.readName base' env prefer single spot seg name isLast =
      NameResolution.readName base env prefer single spot seg name isLast := by
  unfold NameResolution.readName
  rw [h.picks prefer isLast spot.scope name hclear, h.resolve]
  dsimp only
  split
  · next child hchild =>
    -- The child that is picked is one of those of that name.
    have hmeaning : base'.meaning child = base.meaning child := by
      split at hchild
      · cases hchild
      · exact h.children spot.scope name child (mem_of_pickChild? hchild)
    rw [hmeaning, h.readTo, h.advance]
  · split
    · rfl
    · split
      · rfl
      · rw [h.readTo, h.advance]

/-- If the segments read the same, so does the whole. -/
theorem readWhole (node : Node) (segments : List PathSegment) (r : Reading (Option Meaning)) :
    NameResolution.readWhole base' env prefer node segments r =
      NameResolution.readWhole base env prefer node segments r := by
  unfold NameResolution.readWhole
  rw [h.receiver?]
  simp only [h.readTo]

end Lookup

include hbase

theorem isModule_here (hmodules : ∀ m ∈ env.modules, base.tables.isModule m = true) :
    base.tables.isModule (env.here base) = true := by
  unfold Env.here
  cases hcases : env.modules with
  | nil => exact hbase.rootModule
  | cons m rest => exact hmodules m (hcases ▸ List.mem_cons_self)

include h

theorem readSuper (hmodules : ∀ m ∈ env.modules, base.tables.isModule m = true) :
    NameResolution.readSuper base' env spot seg = NameResolution.readSuper base env spot seg := by
  unfold NameResolution.readSuper
  rw [h.root, h.isModule]
  by_cases hmodule : base.tables.isModule spot.scope = true
  · rw [hmodule]
    have hparent : env.parentModule? base' spot.scope = env.parentModule? base spot.scope := by
      unfold Env.parentModule?
      rw [h.here, h.parents _ hmodule]
    rw [hparent]
    cases hfound : env.parentModule? base spot.scope with
    | none => rfl
    | some parent =>
        have hknown : base.tables.isModule parent = true := by
          unfold Env.parentModule? at hfound
          split at hfound
          · exact hmodules parent (List.mem_of_getElem? hfound)
          · exact hbase.parentsModules _ _ hfound
        simp only [h.readModule hknown]
  · rw [Bool.not_eq_true] at hmodule
    rw [hmodule]
    rfl

/-- A segment reads the same if its name is clear where it is looked up. -/
theorem segment {isLast : Bool} (hmodules : ∀ m ∈ env.modules, base.tables.isModule m = true)
    (hclear : spot.isDeferred base = false →
      ∀ name, seg.ident = .ident name → isLast = true ∨ clear spot.scope name)
    (hargs : ArgsAlike base base' t env seg)
    (hentered : Entered base t (seg.read base env prefer single spot isLast).findings) :
    seg.read base env prefer single spot isLast = seg.read base' env prefer single spot isLast := by
  obtain ⟨node, ident, generics⟩ := seg
  unfold PathSegment.read at hentered ⊢
  rw [h.isDeferred]
  cases ident with
  | malformed => rfl
  | crate =>
      dsimp only
      rw [h.root, h.readFirst hbase.rootModule]
  | selfModule =>
      dsimp only
      rw [h.here, h.readFirst (isModule_here hbase hmodules)]
  | super =>
      dsimp only
      rw [h.readSuper hbase hmodules]
  | ident name =>
      dsimp only at hentered ⊢
      cases hdeferred : spot.isDeferred base with
      | true => rfl
      | false =>
          rw [hdeferred] at hentered
          rw [h.readName (hclear hdeferred name rfl)]
          cases generics with
          | none => rfl
          | some args => simp only [hargs args rfl hentered.left]

theorem walk (hmodules : ∀ m ∈ env.modules, base.tables.isModule m = true) :
    ∀ (segments : List PathSegment) (spot : Spot) (container? : Option NodeId),
      (spot.isDeferred base = false → container? = some spot.scope) →
      SegmentsClear t.resolved? clear container? segments →
      (∀ seg ∈ segments, ArgsAlike base base' t env seg) →
      Entered base t (readSegments base env prefer single spot segments).findings →
      readSegments base env prefer single spot segments =
        readSegments base' env prefer single spot segments
  | [], _, _, _, _, _, _ => rfl
  | seg :: rest, spot, container?, hscope, hclear, hargs, hentered => by
      obtain ⟨hseg, hrest⟩ := List.forall_mem_cons.mp hargs
      have hname : spot.isDeferred base = false →
          ∀ name, seg.ident = .ident name → rest.isEmpty = true ∨ clear spot.scope name := by
        intro hdeferred name hident
        cases rest with
        | nil => exact Or.inl rfl
        | cons next rest => exact Or.inr (hclear.1 name hident _ (hscope hdeferred))
      have hlater : SegmentsClear t.resolved? clear (t.resolved? seg.node.id) rest := by
        cases rest with
        | nil => trivial
        | cons next rest => exact hclear.2
      rw [readSegments_cons] at hentered
      rw [readSegments_cons, readSegments_cons,
        ← segment hbase h hmodules hname hseg hentered.left]
      have hcomes := seg.comes base env prefer single spot rest.isEmpty
      have hread := hentered.left
      replace hentered := hentered.right
      refine Reading.bind_congr ?_
      cases hvalue : (seg.read base env prefer single spot rest.isEmpty).value with
      | none => rfl
      | some next =>
          rw [hvalue] at hentered
          obtain ⟨m, hreached, hresolved, hcontainer⟩ := hcomes.leads hread hvalue
          refine walk hmodules rest next _ (fun hdeferred => ?_) hlater hrest hentered
          -- The path goes on from a container, which is what the segment was resolved to.
          rw [Spot.isDeferred, hreached, Bool.not_eq_false'] at hdeferred
          rw [hresolved, hcontainer hdeferred]

theorem path (hmodules : ∀ m ∈ env.modules, base.tables.isModule m = true) (p : Path)
    (hclear : SegmentsClear t.resolved? clear (some (env.here base)) p.segments)
    (hargs : ∀ seg ∈ p.segments, ArgsAlike base base' t env seg)
    (hentered : Entered base t (p.read base env prefer).findings) :
    p.read base env prefer = p.read base' env prefer := by
  obtain ⟨node, segments⟩ := p
  rw [Path.read] at hentered
  rw [Path.read, Path.read, h.here, h.readWhole]
  refine congrArg (· >>= _) ?_
  cases hreceiver : env.receiver? base prefer segments with
  | some found =>
      unfold NameResolution.readWhole
      rw [hreceiver]
  | none =>
      let r := readSegments base env prefer (segments.length == 1) ⟨env.here base, none⟩ segments
      have hsegments : Entered base t r.findings :=
        hentered.left.mono (readWhole_of_no_receiver base env node hreceiver r).2
      rw [walk hbase h hmodules segments ⟨env.here base, none⟩ (some (env.here base))
        (fun _ => rfl) hclear hargs hsegments]

end Steps

section Appended

variable {env : Env}

theorem appended {seg : PathSegment} (path : CanonicalPath) (hargs : ArgsAlike base base' t env seg)
    (hentered : Entered base t (seg.readAppended base env path).findings) :
    seg.readAppended base env path = seg.readAppended base' env path := by
  rw [PathSegment.readAppended_eq] at hentered
  rw [PathSegment.readAppended_eq, PathSegment.readAppended_eq]
  split
  · rfl
  · next hident =>
    rw [if_neg hident] at hentered
    rw [hargs.eq hentered.left]

theorem appendedAll : ∀ (segments : List PathSegment) (path : CanonicalPath),
    (∀ seg ∈ segments, ArgsAlike base base' t env seg) →
    Entered base t (readAppendedSegments base env path segments).findings →
    readAppendedSegments base env path segments = readAppendedSegments base' env path segments
  | [], _, _, _ => rfl
  | seg :: rest, path, hargs, hentered => by
      obtain ⟨hseg, hrest⟩ := List.forall_mem_cons.mp hargs
      rw [readAppendedSegments] at hentered
      rw [readAppendedSegments, readAppendedSegments, ← appended path hseg hentered.left]
      replace hentered := hentered.right
      refine Reading.bind_congr ?_
      cases hvalue : (seg.readAppended base env path).value with
      | none => rfl
      | some path =>
          rw [hvalue] at hentered
          exact appendedAll rest path hrest hentered

theorem head (q : Qualifier)
    (hself : Entered base t (q.selfTy.read base env).findings →
      q.selfTy.read base env = q.selfTy.read base' env)
    (htrait : ∀ asTrait, q.asTrait = some asTrait →
      Entered base t (asTrait.read base env .type).findings →
      asTrait.read base env .type = asTrait.read base' env .type)
    (hentered : Entered base t (q.read base env).findings) :
    q.read base env = q.read base' env := by
  obtain ⟨node, selfTy, asTrait⟩ := q
  rw [Qualifier.read] at hentered
  rw [Qualifier.read, Qualifier.read, ← hself hentered.left]
  replace hentered := hentered.right
  refine Reading.bind_congr ?_
  dsimp only at hentered ⊢
  cases hpath : (selfTy.read base env).value.headPath with
  | none => rfl
  | some selfPath =>
      rw [hpath] at hentered
      cases asTrait with
      | none => rfl
      | some traitPath => exact congrArg (· >>= _) (htrait traitPath rfl hentered.left)

theorem qualified (p : QualifiedPath)
    (hhead : Entered base t (p.qualifier.read base env).findings →
      p.qualifier.read base env = p.qualifier.read base' env)
    (hargs : ∀ seg ∈ p.associated :: p.rest, ArgsAlike base base' t env seg)
    (hentered : Entered base t (p.read base env).findings) :
    p.read base env = p.read base' env := by
  obtain ⟨node, q, associated, rest⟩ := p
  obtain ⟨hassociated, hrest⟩ := List.forall_mem_cons.mp hargs
  rw [QualifiedPath.read] at hentered
  rw [QualifiedPath.read, QualifiedPath.read, ← hhead hentered.left]
  replace hentered := hentered.right
  refine Reading.bind_congr ?_
  cases hvalue : (q.read base env).value with
  | none => rfl
  | some path =>
      rw [hvalue] at hentered
      dsimp only at hentered ⊢
      rw [← appended path hassociated hentered.left]
      replace hentered := hentered.right
      refine Reading.bind_congr ?_
      cases hvalue : (associated.readAppended base env path).value with
      | none => rfl
      | some path =>
          rw [hvalue] at hentered
          exact congrArg (· >>= _) (appendedAll rest path hrest hentered.left)

end Appended

include hbase h

/-- Every part of a crate whose sites are clear reads the same. -/
theorem traversal : Traversal base base' [] fun {_} r r' l =>
    Entered base t r.findings → (∀ x ∈ l, x.Clear base t clear) → r = r' where
  pure _ _ _ := rfl
  bind h₁ h₂ hentered hclear := by
    obtain ⟨hleft, hright⟩ := List.forall_mem_append.mp hclear
    rw [← h₁ hentered.left hleft]
    exact Reading.bind_congr (h₂ hentered.right hright)
  introduce _ _ _ _ _ _ _ := rfl
  builtin modules use pick hpick _ _ := by
    have hmem : pick base.builtins ∈
        [Builtins.unit, Builtins.never, Builtins.inferred].map (· base.builtins) :=
      List.mem_map_of_mem hpick
    unfold readBuiltin
    rw [h.builtins, h.builtinMeanings _ (List.mem_append_right _ hmem)]
  path env prefer p _ hargs hentered hclear := by
    have hpath := hclear ⟨env.modules, .path p []⟩ (List.mem_map_of_mem p.mem_sites)
    refine h.path hbase hpath.modules p (hpath.segments p [] rfl)
      (fun seg hseg args hgenerics => ?_) hentered
    obtain ⟨gate, hbehind⟩ := p.behind_mem_sites hgenerics hseg
    exact fun h => hargs seg hseg args hgenerics h (List.forall_mem_map.mpr fun s hs =>
      .of_behind (hclear _ (List.mem_map_of_mem (hbehind s hs))))
  qualified env p _ hself htrait hargs hentered hclear := by
    have hsites : ∀ s ∈ p.sites, PlacedSite.Clear base t clear ⟨env.modules, s⟩ :=
      List.forall_mem_map.mp hclear
    refine Alike.qualified p (head p.qualifier (fun h => hself h ?_) fun asTrait hasTrait h =>
      htrait asTrait hasTrait h ?_) (fun seg hseg args hgenerics h =>
        hargs seg hseg args hgenerics h ?_) hentered
    · exact List.forall_mem_map.mpr fun s hs => hsites s (p.selfTy_mem_sites s hs)
    · obtain ⟨gate, hbehind⟩ := p.asTrait_behind_mem_sites hasTrait
      exact List.forall_mem_map.mpr fun s hs => .of_behind (hsites _ (hbehind s hs))
    · obtain ⟨gate, hbehind⟩ := p.behind_mem_sites hgenerics hseg
      exact List.forall_mem_map.mpr fun s hs => .of_behind (hsites _ (hbehind s hs))

end Alike

end NameResolution
