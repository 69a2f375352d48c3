import Mathlib
import NameResolution.Proofs.CanonicalPaths
import NameResolution.Proofs.PrivateUses

/-!
# NameResolution.Proofs.ParentPaths

**Every `super` goes up by one module** (`Crate.supers_lead_up`). The first `super` of a
path looks at the modules that are open, and later ones look at the parents on record. Both
are the modules around the path, so the keywords lead up through these one after the other
(`readSegments_supers`), and the names behind them are followed from the module reached. The
`super` that would leave the crate root is reported, and the path ends there.
-/

namespace NameResolution

open Resolution

/-- A path has come to a module. -/
def Spot.atModule (base : Session) (m : NodeId) : Spot := ⟨m, some (base.meaning m)⟩

/-! ### The modules around a point -/

/-- The modules around a point are on record as modules, each as the parent of the one before. -/
structure Env.Nests (base : Session) (env : Env) : Prop where
  chained : Chained base.tables.parents.get? env.modules
  outermost : env.modules.getLast? = some base.root
  areModules : ∀ m ∈ env.modules, base.tables.isModule m = true

namespace Env.Nests

variable {base : Session} {env : Env} {m outer : NodeId} {up : List NodeId} (h : env.Nests base)

include h

theorem exists_here : ∃ up, env.modules = env.here base :: up := by
  cases hmodules : env.modules with
  | nil =>
      have houtermost := h.outermost
      rw [hmodules] at houtermost
      cases houtermost
  | cons m up => exact ⟨up, by rw [Env.here, hmodules]; rfl⟩

/-- A path goes on from a module. -/
theorem not_deferred (hm : m ∈ env.modules) : (Spot.atModule base m).isDeferred base = false := by
  have hmodule : base.tables.containers.get? m = some .module := eq_of_beq (h.areModules m hm)
  simp [Spot.isDeferred, Spot.atModule, Session.meaning, Tables.isContainer, hmodule]

theorem eq_root_iff (hsuffix : m :: up <:+ env.modules) : m = base.root ↔ up = [] := by
  obtain ⟨inner, hmodules⟩ := hsuffix
  have houtermost := h.outermost
  have hnodup := h.chained.nodup
  rw [← hmodules, List.getLast?_append_of_ne_nil _ (List.cons_ne_nil m up)] at houtermost
  rw [← hmodules] at hnodup
  have hnotin := (List.nodup_cons.mp (List.nodup_append.mp hnodup).2.1).1
  constructor
  · rintro rfl
    by_contra hne
    rw [List.getLast?_cons_of_ne_nil hne] at houtermost
    exact hnotin (List.mem_of_getLast? houtermost)
  · rintro rfl
    exact Option.some.inj houtermost

/-- The open modules and the parents on record say the same about what is around a module. -/
theorem parentModule?_eq (hsuffix : m :: up <:+ env.modules) :
    env.parentModule? base m = up.head? := by
  obtain ⟨inner, hmodules⟩ := hsuffix
  unfold Env.parentModule? Env.here
  cases inner with
  | nil =>
      rw [← hmodules]
      cases up <;> simp
  | cons first inner =>
      have hnodup := h.chained.nodup
      have hchained := h.chained
      rw [← hmodules] at hnodup hchained ⊢
      have hne : m ≠ first := fun heq =>
        (List.nodup_cons.mp hnodup).1 (heq ▸ List.mem_append_right _ List.mem_cons_self)
      refine (if_neg hne).trans ?_
      cases hchained.of_append with
      | root hnone => exact hnone
      | step hparent _ => exact hparent

end Env.Nests

/-! ### Going up -/

section Upward

variable {base : Session} {env : Env} {prefer : Namespace} {single : Bool} {seg : PathSegment}
  {m outer : NodeId} {up : List NodeId} {spot : Spot}

/-- What `super` leads to from a module. -/
theorem readSuper_eq (h : env.Nests base) (hsuffix : m :: up <:+ env.modules)
    (hscope : spot.scope = m) :
    readSuper base env spot seg =
      match up with
      | [] => .stopWith (.superAtCrateScope seg.node.span)
      | outer :: _ => readModule base env seg outer := by
  unfold readSuper
  rw [hscope]
  cases up with
  | nil => rw [if_pos ((h.eq_root_iff hsuffix).mpr rfl)]
  | cons outer up =>
      have hne : m ≠ base.root := fun heq => List.cons_ne_nil _ _ ((h.eq_root_iff hsuffix).mp heq)
      have hmodule := h.areModules m (hsuffix.subset List.mem_cons_self)
      rw [if_neg hne, if_pos hmodule, h.parentModule?_eq hsuffix]
      rfl

/-- Go up from a module by one module for each `super`, and read on from the module reached. -/
def readUp (base : Session) (env : Env) (onward : NodeId → Reading (Option Meaning)) :
    List PathSegment → NodeId → List NodeId → Reading (Option Meaning)
  | [], m, _ => onward m
  | seg :: _, _, [] => .stopWith (.superAtCrateScope seg.node.span)
  | seg :: supers, _, outer :: up => do
    seg.readTo base env .name outer
    readUp base env onward supers outer up

/-- The segment is resolved to the module. -/
def PathSegment.leadsTo (base : Session) (env : Env) (seg : PathSegment) (module : NodeId) :
    Finding :=
  .segment .name seg.node seg.ident.text module (env.here base)

theorem PathSegment.read_super (hident : seg.ident = .super) (hopen : spot.isDeferred base = false)
    (isLast : Bool) :
    seg.read base env prefer single spot isLast = readSuper base env spot seg := by
  obtain ⟨node, ident, generics⟩ := seg
  cases hident
  rw [PathSegment.read]
  simp [hopen]

/-- Reading `super` after `super` goes up through the modules around the path. -/
theorem readSegments_supers (h : env.Nests base) (rest : List PathSegment)
    {supers : List PathSegment} (hsupers : ∀ seg ∈ supers, seg.ident = .super)
    (hsuffix : m :: up <:+ env.modules) :
    readSegments base env prefer single (.atModule base m) (supers ++ rest) =
      readUp base env (fun top => readSegments base env prefer single (.atModule base top) rest)
        supers m up := by
  induction supers generalizing m up with
  | nil => rfl
  | cons seg supers ih =>
      obtain ⟨hseg, hsupers⟩ := List.forall_mem_cons.mp hsupers
      have hopen := h.not_deferred (hsuffix.subset List.mem_cons_self)
      rw [List.cons_append, readSegments_cons, PathSegment.read_super hseg hopen,
        readSuper_eq h hsuffix rfl]
      cases up with
      | nil => rfl
      | cons outer up =>
          have hrest := ih hsupers ((List.suffix_cons m _).trans hsuffix)
          exact congrArg (fun r => seg.readTo base env .name outer >>= fun _ => r) hrest

variable {onward : NodeId → Reading (Option Meaning)}

/-- Going up leads nowhere exactly if there are more `super` than modules further out. -/
theorem value_readUp (supers : List PathSegment) (m : NodeId) (up : List NodeId) :
    (readUp base env onward supers m up).value =
      (m :: up)[supers.length]?.bind fun top => (onward top).value := by
  induction supers generalizing m up with
  | nil => rfl
  | cons seg supers ih =>
      cases up with
      | nil => rfl
      | cons outer up => exact ih outer up

/-- What is found out on the way up: every `super` leads to the next module, until the names go on
from there or a `super` is left over. -/
theorem findings_readUp (supers : List PathSegment) (m : NodeId) (up : List NodeId) :
    (readUp base env onward supers m up).findings =
      List.zipWith (PathSegment.leadsTo base env) supers up ++
        match (m :: up)[supers.length]? with
        | some top => (onward top).findings
        | none => supers[up.length]?.toList.map fun seg =>
          .error (.superAtCrateScope seg.node.span) := by
  induction supers generalizing m up with
  | nil => rfl
  | cons seg supers ih =>
      cases up with
      | nil => rfl
      | cons outer up => exact congrArg (seg.leadsTo base env outer :: ·) (ih outer up)

end Upward

/-! ### Whole paths -/

/-- A path that starts with keywords, which are at most one `self` and then any number of `super`,
and goes on along plain names. It is not a lone `self`, which could be a receiver. -/
structure Path.GoesUp (p : Path) (first supers rest : List PathSegment) (names : List String) :
    Prop where
  segments_eq : p.segments = first ++ (supers ++ rest)
  self_first : first = [] ∨ ∃ seg, first = [seg] ∧ seg.ident = .selfModule
  idents_supers : ∀ seg ∈ supers, seg.ident = .super
  idents_rest : rest.map PathSegment.ident = names.map PathIdent.ident
  proper : supers ≠ [] ∨ first ≠ [] ∧ rest ≠ []

section Whole

variable {base : Session} {env : Env} {prefer : Namespace} {first supers rest : List PathSegment}
  {names : List String} {up : List NodeId} {p : Path}

/-- The reading of a path that goes up, after its leading `self`. -/
def readUpward (base : Session) (env : Env) (prefer : Namespace)
    (supers rest : List PathSegment) : Reading (Option Meaning) :=
  readUp base env (fun top => readSegments base env prefer false (.atModule base top) rest) supers
    (env.here base) env.modules.tail

/-- Without any segments left, it makes no difference whether there is a single one. -/
theorem readSegments_single {single : Bool} (hsingle : single = true → rest = []) (spot : Spot) :
    readSegments base env prefer single spot rest =
      readSegments base env prefer false spot rest := by
  cases single with
  | false => rfl
  | true => rw [hsingle rfl]; rfl

/-- The keywords are followed from the innermost module, whether `self` comes first or not. -/
theorem readSegments_goesUp (prefer : Namespace) (h : env.Nests base) {single : Bool}
    (hsingle : single = true → rest = [])
    (hfirst : first = [] ∨ ∃ seg, first = [seg] ∧ seg.ident = .selfModule)
    (hsupers : ∀ seg ∈ supers, seg.ident = .super) (hkeyword : first ++ supers ≠ []) :
    readSegments base env prefer single ⟨env.here base, none⟩ (first ++ (supers ++ rest)) =
      ⟨(readUpward base env prefer supers rest).value,
        first.map (·.leadsTo base env (env.here base)) ++
          (readUpward base env prefer supers rest).findings⟩ := by
  obtain ⟨up, hmodules⟩ := h.exists_here
  have hsuffix : env.here base :: up <:+ env.modules := hmodules ▸ List.suffix_refl _
  have hupward : readSegments base env prefer single (.atModule base (env.here base))
      (supers ++ rest) = readUpward base env prefer supers rest := by
    rw [readSegments_supers h rest hsupers hsuffix, readUpward, hmodules, List.tail_cons]
    exact congrArg (readUp base env · supers _ up) (funext fun top => readSegments_single hsingle _)
  rcases hfirst with rfl | ⟨⟨node, ident, generics⟩, rfl, rfl⟩
  · -- The first `super` starts from the innermost module, just as it would after `self`.
    obtain ⟨seg, supers, rfl⟩ := List.exists_cons_of_ne_nil hkeyword
    have hseg := hsupers seg List.mem_cons_self
    have hopen := h.not_deferred (hsuffix.subset List.mem_cons_self)
    rw [← hupward]
    change readSegments _ _ _ _ _ (seg :: (supers ++ rest)) =
      readSegments _ _ _ _ _ (seg :: (supers ++ rest))
    rw [readSegments_cons, readSegments_cons, PathSegment.read_super hseg hopen,
      PathSegment.read_super hseg rfl, readSuper_eq h hsuffix rfl, readSuper_eq h hsuffix rfl]
  · rw [← hupward]
    rfl

/-- What a path that goes up stands for, and what is found out about it. -/
theorem Path.read_goesUp (prefer : Namespace) (h : env.Nests base)
    (hp : p.GoesUp first supers rest names) :
    (p.read base env prefer).value = (readUpward base env prefer supers rest).value ∧
      (p.read base env prefer).findings =
        first.map (·.leadsTo base env (env.here base)) ++
          (readUpward base env prefer supers rest).findings ++
          (((readUpward base env prefer supers rest).value.map fun m =>
              Finding.resolved m.space p.node.id m.decl).toList ++
            [.visit p prefer env (readUpward base env prefer supers rest).value]) := by
  obtain ⟨node, segments⟩ := p
  obtain ⟨hsegments, hfirst, hsupers, -, hproper⟩ := hp
  change segments = first ++ (supers ++ rest) at hsegments
  subst hsegments
  have hkeyword : first ++ supers ≠ [] := by
    rcases hproper with hne | ⟨hne, -⟩ <;> simp [hne]
  have hsingle : ((first ++ (supers ++ rest)).length == 1) = true → rest = [] := by
    intro hlength
    have hpos := List.length_pos_of_ne_nil hkeyword
    rw [beq_iff_eq, ← List.append_assoc, List.length_append] at hlength
    exact List.eq_nil_of_length_eq_zero (by omega)
  have hreceiver : env.receiver? base prefer (first ++ (supers ++ rest)) = none := by
    by_contra hsome
    obtain ⟨found, hfound⟩ := Option.ne_none_iff_exists'.mp hsome
    obtain ⟨hlone, hself⟩ := env.receiver?_eq_some base hfound
    rcases hfirst with rfl | ⟨seg, rfl, -⟩
    · obtain ⟨seg, supers, rfl⟩ := List.exists_cons_of_ne_nil hkeyword
      obtain rfl : seg = found.1 := (List.cons.inj hlone).1
      rw [hsupers _ List.mem_cons_self] at hself
      cases hself
    · have htail : supers ++ rest = [] := (List.cons.inj hlone).2
      obtain ⟨hnil, hrest⟩ := List.append_eq_nil_iff.mp htail
      rcases hproper with hne | ⟨-, hne⟩
      · exact hne hnil
      · exact hne hrest
  have hwalk := readSegments_goesUp prefer h hsingle hfirst hsupers hkeyword
  rw [Path.read, hwalk, readWhole, hreceiver]
  cases hvalue : (readUpward base env prefer supers rest).value <;> simp

/-- A path that goes up stands for what its names lead to from the module that it comes to. -/
theorem Path.value_read_goesUp (h : env.Nests base) (hp : p.GoesUp first supers rest names) :
    (p.read base env prefer).value =
      (env.modules[supers.length]?.bind (base.follow? prefer · names)).map base.meaning := by
  obtain ⟨up, hmodules⟩ := h.exists_here
  have hnames (top : NodeId) :
      (readSegments base env prefer false (.atModule base top) rest).value =
        (base.follow? prefer top names).map base.meaning :=
    value_readSegments rest hp.idents_rest fun _ => rfl
  rw [(Path.read_goesUp prefer h hp).1, readUpward, value_readUp, hmodules, List.tail_cons]
  simp only [hnames]
  cases (env.here base :: up)[supers.length]? <;> rfl

theorem filterMap_error?_leadsTo (segments : List PathSegment) (modules : List NodeId) :
    (List.zipWith (PathSegment.leadsTo base env) segments modules).filterMap Finding.error? =
      [] := by
  induction segments generalizing modules with
  | nil => rfl
  | cons seg segments ih =>
      cases modules with
      | nil => rfl
      | cons m modules => exact ih modules

theorem usesOf_leadsTo (segments : List PathSegment) (modules : List NodeId) :
    usesOf (List.zipWith (PathSegment.leadsTo base env) segments modules) =
      (segments.take modules.length).map (·.node.id) := by
  induction segments generalizing modules with
  | nil => simp [usesOf]
  | cons seg segments ih =>
      cases modules with
      | nil => rfl
      | cons m modules => exact congrArg (seg.node.id :: ·) (ih modules)

/-- What is reported about a path that goes up is reported on the way down, or it is that the path
leaves the crate root. -/
theorem Path.errors_goesUp (prefer : Namespace) (h : env.Nests base)
    (hp : p.GoesUp first supers rest names) :
    p.errors base env prefer =
      match env.modules[supers.length]? with
      | some top =>
        (readSegments base env prefer false (.atModule base top) rest).findings.filterMap
          Finding.error?
      | none => supers[env.modules.length - 1]?.toList.map fun seg =>
        .superAtCrateScope seg.node.span := by
  obtain ⟨up, hmodules⟩ := h.exists_here
  have hfirst : (first.map (·.leadsTo base env (env.here base))).filterMap Finding.error? = [] :=
    List.filterMap_eq_nil_iff.mpr (List.forall_mem_map.mpr fun _ _ => rfl)
  rw [Path.errors, (Path.read_goesUp prefer h hp).2, readUpward, findings_readUp, value_readUp, hmodules]
  simp only [List.filterMap_append, hfirst, filterMap_error?_leadsTo, List.tail_cons,
    List.length_cons, Nat.add_sub_cancel]
  cases (env.here base :: up)[supers.length]? with
  | none => cases supers[up.length]? <;> rfl
  | some top =>
      cases hvalue : (readSegments base env prefer false (.atModule base top) rest).value <;>
        simp [hvalue, Finding.error?]

/-- Past the crate root nothing more of the path is resolved. -/
theorem Path.usesOf_goesUp (h : env.Nests base) (hp : p.GoesUp first supers rest names)
    (houtside : env.modules.length ≤ supers.length) :
    usesOf (p.read base env prefer).findings =
      (first ++ supers.take (env.modules.length - 1)).map (·.node.id) := by
  obtain ⟨up, hmodules⟩ := h.exists_here
  have hnone : (env.here base :: up)[supers.length]? = none :=
    List.getElem?_eq_none (hmodules ▸ houtside)
  have hfirst : usesOf (first.map (·.leadsTo base env (env.here base))) =
      first.map (·.node.id) := by
    unfold usesOf
    rw [List.filterMap_map, ← List.filterMap_eq_map]
    rfl
  rw [(Path.read_goesUp prefer h hp).2, readUpward, findings_readUp, value_readUp, hmodules,
    List.tail_cons, hnone, List.map_append, List.length_cons, Nat.add_sub_cancel]
  simp only [usesOf_append, hfirst, usesOf_leadsTo]
  cases supers[up.length]? <;> simp [usesOf, Finding.use?]

end Whole

/-! ### What becomes of them -/

/-- What becomes of a path that goes up from inside some modules. -/
structure Crate.ResolvesUpward (c : Crate) (settings : Settings) (s : Session)
    (modules : List NodeId) (p : Path) (prefer : Namespace) (env : Env)
    (first supers rest : List PathSegment) (names : List String) : Prop
    extends c.Reports settings s p prefer env where
  /-- A leading `self` is the innermost module. -/
  resolved_first : ∀ seg ∈ first, s.tables.resolved? seg.node.id = modules.head?
  /-- Each `super` is the next module. Those for which none is left stay unresolved. -/
  resolved_supers : ∀ i seg, supers[i]? = some seg →
    s.tables.resolved? seg.node.id = modules[i + 1]?
  /-- The names are followed from the module that the keywords lead to, if they lead to one. -/
  resolved_path : s.tables.resolved? p.node.id =
    modules[supers.length]?.bind ((c.registered settings).follow? prefer · names)
  /-- If the keywords lead to a module, they are not reported. -/
  inside : ∀ top, modules[supers.length]? = some top →
    p.errors (c.registered settings) env prefer =
      (readSegments (c.registered settings) env prefer false (.atModule (c.registered settings) top)
        rest).findings.filterMap Finding.error?
  /-- If not, the first `super` for which no module is left is reported, and nothing else. What
  comes after it stays unresolved. -/
  outside : modules.length ≤ supers.length → ∃ seg, supers[modules.length - 1]? = some seg ∧
    p.errors (c.registered settings) env prefer = [.superAtCrateScope seg.node.span] ∧
    ∀ later ∈ rest, s.tables.resolved? later.node.id = none

namespace Crate

variable {c : Crate} {settings : Settings} {s : Session} {x : PlacedSite} {p : Path}
  {prefer : Namespace} {env : Env} {first supers rest : List PathSegment} {names : List String}

/-- A path is looked up inside modules that are nested in each other. -/
theorem LooksUp.nests (hlook : c.LooksUp settings x p prefer env) (hwf : c.WellFormed) :
    env.Nests (c.registered settings) := by
  obtain ⟨_, _, s', -, hready, -⟩ := hlook.exists_ready hwf
  exact ⟨hlook.modules ▸ c.chained_site hwf settings hlook.mem_sites, hready.stands.outermost,
    hready.stands.areModules⟩

namespace SecondPass

variable (hwf : c.WellFormed) (hs : c.SecondPass (c.registered settings) s)
  (hlook : c.LooksUp settings x p prefer env) (hp : p.GoesUp first supers rest names)

include hwf hs hlook

/-- A segment is resolved if its reading says so. -/
theorem resolved?_of_leadsTo {seg : PathSegment} {module : NodeId}
    (hmem : seg.leadsTo (c.registered settings) env module ∈
      (p.read (c.registered settings) env prefer).findings) :
    s.tables.resolved? seg.node.id = some module := by
  exact hs.resolved?_of_found hwf (c.firstPass hwf settings) (hlook.findings_subset hwf hmem) rfl

include hp

/-- Nothing is resolved from where a path leaves the crate root. -/
theorem resolved?_past_root (houtside : env.modules.length ≤ supers.length) {seg : PathSegment}
    (hseg : seg ∈ supers.drop (env.modules.length - 1) ++ rest) :
    s.tables.resolved? seg.node.id = none := by
  obtain ⟨outcome, hvisit⟩ := hlook.visit
  obtain ⟨s', hready⟩ := (hs.traced _ _ _ _ hvisit).ready
  obtain ⟨node, segments⟩ := p
  have hsegments : segments = (first ++ supers.take (env.modules.length - 1)) ++
      (supers.drop (env.modules.length - 1) ++ rest) := by
    rw [List.append_assoc, ← List.append_assoc (supers.take _), List.take_append_drop]
    exact hp.segments_eq
  have hsublist := map_id_sublist_segmentsNodeIds segments
  have hnodup := (List.nodup_cons.mp hready.nodup).2.sublist hsublist
  have hmem : seg.node.id ∈ Path.nodeIds ⟨node, segments⟩ := by
    refine List.mem_cons_of_mem _ (hsublist.subset (List.mem_map_of_mem ?_))
    rw [hsegments]
    exact List.mem_append_right _ hseg
  refine hs.resolved?_of_not_found hwf (c.firstPass hwf settings) hvisit hmem fun huse => ?_
  rw [Path.usesOf_goesUp (hlook.nests hwf) hp houtside] at huse
  rw [hsegments, List.map_append] at hnodup
  exact (List.nodup_append.mp hnodup).2.2 _ huse _ (List.mem_map_of_mem hseg) rfl

theorem resolvesUpward :
    c.ResolvesUpward settings s x.modules p prefer env first supers rest names := by
  have hnests := hlook.nests hwf
  have hread := (Path.read_goesUp prefer hnests hp).2
  have herrors := Path.errors_goesUp prefer hnests hp
  obtain ⟨up, hmodules⟩ := hnests.exists_here
  rw [← hlook.modules]
  refine ⟨hlook.reports hwf hs (List.prefix_refl _), fun seg hseg => ?_, fun i seg hseg => ?_, ?_,
    fun top htop => ?_, fun houtside => ?_⟩
  · have hmem : seg.leadsTo (c.registered settings) env (env.here (c.registered settings)) ∈
        (p.read (c.registered settings) env prefer).findings := by
      rw [hread]
      exact List.mem_append_left _ (List.mem_append_left _ (List.mem_map_of_mem hseg))
    rw [hs.resolved?_of_leadsTo hwf hlook hmem, hmodules]
    rfl
  · rw [hmodules, List.getElem?_cons_succ]
    cases houter : up[i]? with
    | some outer =>
        have hmem : seg.leadsTo (c.registered settings) env outer ∈
            (p.read (c.registered settings) env prefer).findings := by
          have hzip : seg.leadsTo (c.registered settings) env outer ∈
              List.zipWith (PathSegment.leadsTo (c.registered settings) env) supers up :=
            List.mem_of_getElem? (List.getElem?_zipWith_eq_some.mpr ⟨seg, outer, hseg, houter, rfl⟩)
          rw [hread, readUpward, findings_readUp, hmodules]
          exact List.mem_append_left _ (List.mem_append_right _ (List.mem_append_left _ hzip))
        exact hs.resolved?_of_leadsTo hwf hlook hmem
    | none =>
        have hlength := List.getElem?_eq_none_iff.mp houter
        obtain ⟨hi, rfl⟩ := List.getElem?_eq_some_iff.mp hseg
        have hdrop : supers[i] ∈ supers.drop (env.modules.length - 1) := by
          rw [hmodules, List.length_cons, Nat.add_sub_cancel]
          refine List.mem_of_getElem? (i := i - up.length) ?_
          rw [List.getElem?_drop, Nat.add_sub_cancel' hlength]
          exact List.getElem?_eq_getElem hi
        refine hs.resolved?_past_root hwf hlook hp ?_ (List.mem_append_left _ hdrop)
        rw [hmodules, List.length_cons]
        omega
  · rw [hs.resolved?_of_looksUp hwf hlook, Path.value_read_goesUp hnests hp, Option.map_map]
    exact Option.map_id_apply
  · rw [herrors, htop]
  · have hlast : env.modules.length - 1 < supers.length := by
      rw [hmodules, List.length_cons] at houtside ⊢
      omega
    refine ⟨supers[env.modules.length - 1], List.getElem?_eq_getElem hlast, ?_, fun later hlater =>
      hs.resolved?_past_root hwf hlook hp houtside (List.mem_append_right _ hlater)⟩
    rw [herrors, List.getElem?_eq_none houtside, List.getElem?_eq_getElem hlast]
    rfl

omit hlook in
/-- A path that leaves the crate root is not resolved from there on, be it looked up or skipped. -/
theorem unresolved_past_root {gates : List Gate} (hx : x ∈ c.sites) (hsite : x.site = .path p gates)
    (houtside : x.modules.length ≤ supers.length) :
    s.tables.resolved? p.node.id = none ∧
      ∀ seg ∈ supers.drop (x.modules.length - 1) ++ rest,
        s.tables.resolved? seg.node.id = none := by
  rcases hs.looksUpOrSkips hwf x hx p gates hsite with ⟨prefer, env, hlook⟩ | ⟨-, huntouched⟩
  · have hmodules := hlook.modules
    refine ⟨?_, fun seg hseg => ?_⟩
    · rw [(hs.resolvesUpward hwf hlook hp).resolved_path, List.getElem?_eq_none houtside]
      rfl
    · rw [← hmodules] at houtside hseg
      exact hs.resolved?_past_root hwf hlook hp houtside hseg
  · refine ⟨huntouched _ List.mem_cons_self, fun seg hseg => ?_⟩
    refine huntouched _ (List.mem_cons_of_mem _ (List.mem_map_of_mem ?_))
    rw [hp.segments_eq]
    rcases List.mem_append.mp hseg with hseg | hseg
    · exact List.mem_append_right _ (List.mem_append_left _ (List.mem_of_mem_drop hseg))
    · exact List.mem_append_right _ (List.mem_append_right _ hseg)

end SecondPass

/-- **Every `super` goes up by one module.** In a well-formed crate, whatever modules have been
refused, the keywords of a path that is looked up lead up through the modules around it, and its
names are followed from the module that the keywords come to. If it has more `super` than there are
modules around the innermost one, the first `super` for which no module is left is reported, and
nothing else about the path is. Such a path is never resolved, and nothing in it is from that
`super` on. Every path is looked up unless it stands inside another one, and nothing comes of those
that are skipped. -/
theorem supers_lead_up (hwf : c.WellFormed) (settings : Settings) :
    ∃ s, Runs (c.run settings) (.start c settings) () s ∧ c.resolve settings = .ok s.finish ∧
      (∀ x p prefer env, c.LooksUp settings x p prefer env → ∀ first supers rest names,
        p.GoesUp first supers rest names →
          c.ResolvesUpward settings s x.modules p prefer env first supers rest names) ∧
      (∀ x ∈ c.sites, ∀ p gates, x.site = .path p gates → ∀ first supers rest names,
        p.GoesUp first supers rest names → x.modules.length ≤ supers.length →
          s.tables.resolved? p.node.id = none ∧
            ∀ seg ∈ supers.drop (x.modules.length - 1) ++ rest,
              s.tables.resolved? seg.node.id = none) ∧
      c.LooksUpOrSkips settings s.tables := by
  obtain ⟨s, s', hs, hrun, htables, -, -, hreported⟩ := c.exists_run hwf settings
  refine ⟨s', hrun, resolve_of_runs hrun, fun x p prefer env hlook first supers rest names hp => ?_,
    fun x hx p gates hsite first supers rest names hp houtside => ?_,
    htables ▸ hs.looksUpOrSkips hwf⟩
  · have h := hs.resolvesUpward hwf hlook hp
    exact
      { toReports := hlook.reports hwf hs (hreported ▸ List.prefix_append _ _)
        resolved_first := htables ▸ h.resolved_first
        resolved_supers := htables ▸ h.resolved_supers
        resolved_path := htables ▸ h.resolved_path
        inside := h.inside
        outside := htables ▸ h.outside }
  · rw [htables]
    exact hs.unresolved_past_root hwf hp hx hsite houtside

/-- Two modules `m`, the second of which is refused. A function in that one uses the paths
`self::super::g` and `super::super::g`. -/
def withUpwardPaths : Crate where
  node := ⟨⟨0⟩, ⟨0, 99⟩⟩
  items :=
    let node (id offset : Nat) : Node := ⟨⟨id⟩, ⟨offset, 1⟩⟩
    let name (text : String) (offset : Nat) : Ident := ⟨text, ⟨offset, 1⟩⟩
    let segment (id offset : Nat) (ident : PathIdent) : PathSegment := ⟨node id offset, ident, none⟩
    let path (id offset : Nat) (first : PathIdent) : Expr :=
      .path (node id offset) ⟨node (id + 1) offset, [segment (id + 2) offset first,
        segment (id + 3) (offset + 7) .super, segment (id + 4) (offset + 14) (.ident "g")]⟩
    [⟨node 1 0, .ownModule, .module (name "m" 4) []⟩,
      ⟨node 2 10, .ownModule, .module (name "m" 14)
        [⟨node 3 18, .ownModule, .function ⟨name "f" 21, .none, none, [], none,
          some ⟨node 4 25, [.expr (node 5 27) (path 6 27 .selfModule)],
            some (path 11 45 .super)⟩⟩⟩]⟩,
      ⟨node 16 80, .ownModule, .function ⟨name "g" 83, .none, none, [], none, none⟩⟩]
  idBound := ⟨17⟩

/-- The second module is as deep as the first one, so one `super` leads to the crate root from there
and the next one is reported. -/
theorem supers_lead_up_withUpwardPaths :
    withUpwardPaths.WellFormed ∧ ∃ s,
      Runs (withUpwardPaths.run {}) (.start withUpwardPaths {}) () s ∧
        s.tables.resolved? ⟨9⟩ = some ⟨0⟩ ∧ s.tables.resolved? ⟨7⟩ = some ⟨16⟩ ∧
        s.tables.resolved? ⟨13⟩ = some ⟨0⟩ ∧ s.tables.resolved? ⟨14⟩ = none ∧
        s.tables.resolved? ⟨12⟩ = none ∧ .superAtCrateScope ⟨52, 1⟩ ∈ s.errors.reported := by
  have hwf : withUpwardPaths.WellFormed := by decide
  obtain ⟨s, hrun, -, hpaths, -⟩ := supers_lead_up hwf {}
  have hopen {x : PlacedSite} {p : Path} (hx : x ∈ withUpwardPaths.sites)
      (hsite : x.site = .path p []) := withUpwardPaths.exists_looksUp_of_open {} hx hsite
  let segment (id offset : Nat) (ident : PathIdent) : PathSegment :=
    ⟨⟨⟨id⟩, ⟨offset, 1⟩⟩, ident, none⟩
  have hinner : withUpwardPaths.sites[3]? = some ⟨[⟨2⟩, ⟨0⟩], .path ⟨⟨⟨7⟩, ⟨27, 1⟩⟩,
      [segment 8 27 .selfModule, segment 9 34 .super, segment 10 41 (.ident "g")]⟩ []⟩ := rfl
  have houter : withUpwardPaths.sites[7]? = some ⟨[⟨2⟩, ⟨0⟩], .path ⟨⟨⟨12⟩, ⟨45, 1⟩⟩,
      [segment 13 45 .super, segment 14 52 .super, segment 15 59 (.ident "g")]⟩ []⟩ := rfl
  obtain ⟨prefer, env, hlook⟩ := hopen (List.mem_of_getElem? hinner) rfl
  have h := hpaths _ _ _ _ hlook [segment 8 27 .selfModule] [segment 9 34 .super]
    [segment 10 41 (.ident "g")] ["g"] ⟨rfl, Or.inr ⟨_, rfl, rfl⟩, by simp [segment], rfl, by simp⟩
  have hfollow : (some ⟨0⟩ : Option NodeId).bind
      ((withUpwardPaths.registered {}).follow? prefer · ["g"]) = some ⟨16⟩ := by
    cases prefer <;> decide +kernel
  obtain ⟨prefer', env', hlook'⟩ := hopen (List.mem_of_getElem? houter) rfl
  have h' := hpaths _ _ _ _ hlook' [] [segment 13 45 .super, segment 14 52 .super]
    [segment 15 59 (.ident "g")] ["g"] ⟨rfl, Or.inl rfl, by simp [segment], rfl, by simp⟩
  obtain ⟨seg, hseg, herrors, -⟩ := h'.outside (Nat.le_refl 2)
  obtain rfl : segment 14 52 .super = seg := Option.some.inj hseg
  have hreported : .superAtCrateScope ⟨52, 1⟩ ∈ s.errors.reported := by
    refine h'.toReports.reported.subset ?_
    rw [herrors]
    exact List.mem_singleton_self _
  exact ⟨hwf, s, hrun, h.resolved_supers 0 _ rfl, h.resolved_path.trans hfollow,
    h'.resolved_supers 0 _ rfl, h'.resolved_supers 1 _ rfl, h'.resolved_path, hreported⟩

/-- Where the second pass turns back before it gets to `super::S` in the crate root, the `super` is
not reported. -/
theorem supers_lead_up_skipped :
    (withSkippedPath .super).WellFormed ∧
      ∃ r, (withSkippedPath .super).resolve {} = .ok r ∧
        ∃ modules p supers rest names, (withSkippedPath .super).HasArgument modules p ∧
          p.GoesUp [] supers rest names ∧ modules.length ≤ supers.length ∧
          ∀ span, .superAtCrateScope span ∉ r.errors := by
  have hwf : (withSkippedPath .super).WellFormed := by decide
  obtain ⟨r, hr⟩ := resolve_succeeds hwf {}
  have herrors : r.errors = [.failedToResolvePath "Lost" ⟨0, 1⟩] :=
    of_resolve hr (by decide +kernel)
  refine ⟨hwf, r, hr, [⟨0⟩], .toSkip .super, [⟨⟨⟨2⟩, ⟨2, 1⟩⟩, .super, none⟩],
    [⟨⟨⟨3⟩, ⟨4, 1⟩⟩, .ident "S", none⟩], ["S"], hasArgument_withSkippedPath .super,
    ⟨rfl, Or.inl rfl, by simp, rfl, by simp⟩, Nat.le_refl 1, ?_⟩
  rw [herrors]
  simp

end Crate

end NameResolution
