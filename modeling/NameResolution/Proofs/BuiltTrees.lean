import Mathlib
import NameResolution.Tree.Builder
import NameResolution.Tree.NodeIds
import NameResolution.Tree.Spans

/-!
# NameResolution.Proofs.BuiltTrees

**Built trees are well formed** (`Build.crate_wellFormed`). Whatever calls are made, in any order,
the crate they are closed to has distinct identities below its bound and distinct places, as long
as nothing that a call returned becomes part of two things.

* The **marks** of a part of a tree are its identities and its places. Two counters hand them out,
  and what a counter hands out on the way from one number to another lies between the two
  (`Drawn`).
* Every call **spends** the marks of its arguments: the result carries these and otherwise what
  the call draws itself (`Spends`, `Call.spends`).
* What may still be used is a **stock** of marks (`Reaches`): a call takes the marks of its
  arguments out and puts those of its result in. The arguments are any values whose marks are in
  the stock, so a node may be taken apart and put together by hand between two calls. The stock is
  never more than what was drawn (`Reaches.drawn`).
-/

namespace NameResolution

/-! ### Marks -/

/-- The identities and the places that something carries, each as often as it does. -/
abbrev Marks := Multiset NodeId × Multiset Span

/-- The identities and the places in two lists. -/
def marksOf (ids : List NodeId) (spans : List Span) : Marks := (↑ids, ↑spans)

/-- The marks of the parts of a tree. -/
class Marked (α : Type) where
  marks : α → Marks

export Marked (marks)

instance : Marked NodeId := ⟨fun id => marksOf [id] []⟩
instance : Marked Span := ⟨fun span => marksOf [] [span]⟩
instance : Marked Node := ⟨fun n => marksOf [n.id] [n.span]⟩
instance : Marked Ident := ⟨fun name => marks name.span⟩

/-- A word that is not in the tree yet has no place. -/
instance : Marked String := ⟨fun _ => 0⟩

section

variable {α β : Type} [Marked α] [Marked β]

instance : Marked (α × β) := ⟨fun x => marks x.1 + marks x.2⟩
instance : Marked (Option α) := ⟨fun x => x.elim 0 marks⟩
instance : Marked (List α) := ⟨fun xs => (xs.map marks).sum⟩

@[simp] theorem marks_none : marks (none : Option α) = 0 := rfl

@[simp] theorem marks_some (x : α) : marks (some x) = marks x := rfl

@[simp] theorem marks_nil : marks ([] : List α) = 0 := rfl

@[simp] theorem marks_cons (x : α) (xs : List α) : marks (x :: xs) = marks x + marks xs := rfl

@[simp] theorem marks_words (words : List String) : marks words = 0 :=
  List.sum_eq_zero fun x hx => by
    obtain ⟨word, -, rfl⟩ := List.mem_map.mp hx
    rfl

theorem marks_map {f : β → α} (h : ∀ x, marks (f x) = marks x) (xs : List β) :
    marks (xs.map f) = marks xs :=
  congrArg List.sum (by rw [List.map_map]; exact List.map_congr_left fun x _ => h x)

/-- A row of parts carries what its companions list. -/
theorem marks_list {ids : List α → List NodeId} {spans : List α → List Span}
    (hnil : marksOf (ids []) (spans []) = 0)
    (hcons : ∀ x xs, marksOf (ids (x :: xs)) (spans (x :: xs))
      = marks x + marksOf (ids xs) (spans xs)) (xs : List α) :
    marks xs = marksOf (ids xs) (spans xs) := by
  induction xs with
  | nil => exact hnil.symm
  | cons x xs ih => rw [marks_cons, ih, hcons]

theorem marks_flatMap {ids : α → List NodeId} {spans : α → List Span}
    (h : ∀ x, marks x = marksOf (ids x) (spans x)) (xs : List α) :
    marks xs = marksOf (xs.flatMap ids) (xs.flatMap spans) :=
  marks_list rfl (fun x xs => by simp only [List.flatMap_cons, h x]; rfl) xs

theorem marks_option {ids : α → List NodeId} {spans : α → List Span}
    (h : ∀ x, marks x = marksOf (ids x) (spans x)) (x : Option α) :
    marks x = marksOf (optionalIds ids x) (optionalSpans spans x) := by
  cases x with
  | none => rfl
  | some x => exact h x

end

/-! ### The marks of trees -/

instance : Marked Pattern := ⟨fun p => marksOf p.nodeIds p.spans⟩
instance : Marked Path := ⟨fun p => marksOf p.nodeIds p.spans⟩
instance : Marked PathSegment := ⟨fun s => marksOf s.nodeIds s.spans⟩
instance : Marked Ty := ⟨fun t => marksOf t.nodeIds t.spans⟩
instance : Marked QualifiedPath := ⟨fun p => marksOf p.nodeIds p.spans⟩
instance : Marked Qualifier := ⟨fun q => marksOf q.nodeIds q.spans⟩
instance : Marked TraitBound := ⟨fun b => marksOf b.nodeIds b.spans⟩
instance : Marked Bound := ⟨fun b => marksOf b.nodeIds b.spans⟩
instance : Marked FnPointerParam := ⟨fun p => marks p.id + (marks p.name + marks p.ty)⟩
instance : Marked Expr := ⟨fun e => marksOf e.nodeIds e.spans⟩
instance : Marked Block := ⟨fun b => marksOf b.nodeIds b.spans⟩
instance : Marked Stmt := ⟨fun s => marksOf s.nodeIds s.spans⟩
instance : Marked GenericParam := ⟨fun p => marksOf p.nodeIds p.spans⟩
instance : Marked WherePredicate := ⟨fun p => marksOf p.nodeIds p.spans⟩
instance : Marked WhereClause := ⟨fun w => marks w.span + marks w.predicates⟩
instance : Marked Generics := ⟨fun g => marksOf g.nodeIds g.spans⟩
instance : Marked NamedField := ⟨fun f => marksOf f.nodeIds f.spans⟩
instance : Marked TupleField := ⟨fun f => marksOf f.nodeIds f.spans⟩
instance : Marked Variant := ⟨fun v => marksOf v.nodeIds v.spans⟩
instance : Marked SelfParam := ⟨fun p => marks p.node⟩
instance : Marked Param := ⟨fun p => marksOf p.nodeIds p.spans⟩
instance : Marked FunctionDecl := ⟨fun f => marksOf f.nodeIds f.spans⟩
instance : Marked ConstDecl := ⟨fun c => marksOf c.nodeIds c.spans⟩
instance : Marked AliasDecl := ⟨fun a => marksOf a.nodeIds a.spans⟩
instance : Marked ImplItem := ⟨fun i => marksOf i.nodeIds i.spans⟩
instance : Marked TraitItem := ⟨fun i => marksOf i.nodeIds i.spans⟩
instance : Marked ForeignItem := ⟨fun i => marksOf i.nodeIds i.spans⟩
instance : Marked Item := ⟨fun i => marksOf i.nodeIds i.spans⟩
instance : Marked ItemKind := ⟨fun k => marksOf k.nodeIds k.spans⟩

instance : Marked GenericParamKind where
  marks
    | .type bounds default => marks bounds + marks default
    | .const ty default => marks ty + marks default
    | .lifetime => 0

instance : Marked VariantKind where
  marks
    | .unit => 0
    | .tuple fields => marks fields
    | .record fields => marks fields
    | .discriminant value => marks value

instance : Marked ImplItemKind where
  marks
    | .function f => marks f
    | .const c => marks c
    | .typeAlias a => marks a

instance : Marked TraitItemKind where
  marks
    | .function f => marks f
    | .const c => marks c
    | .type t => marks t.name + marks t.bounds

instance : Marked ForeignItemKind where
  marks
    | .function f => marks f
    | .static name _ ty => marks name + marks ty

theorem marks_segments (ss : List PathSegment) :
    marks ss = marksOf (segmentsNodeIds ss) (segmentsSpans ss) :=
  marks_list rfl (fun _ _ => rfl) ss

theorem marks_tys (ts : List Ty) : marks ts = marksOf (tysNodeIds ts) (tysSpans ts) :=
  marks_list rfl (fun _ _ => rfl) ts

theorem marks_bounds (bs : List Bound) : marks bs = marksOf (boundsNodeIds bs) (boundsSpans bs) :=
  marks_list rfl (fun _ _ => rfl) bs

theorem marks_paramTys (ps : List FnPointerParam) :
    marks ps = marksOf (paramTysNodeIds ps) (paramTysSpans ps) :=
  marks_list rfl (fun ⟨_, name, _⟩ _ => by cases name <;> rfl) ps

theorem marks_exprs (es : List Expr) : marks es = marksOf (exprsNodeIds es) (exprsSpans es) :=
  marks_list rfl (fun _ _ => rfl) es

theorem marks_stmts (ss : List Stmt) : marks ss = marksOf (stmtsNodeIds ss) (stmtsSpans ss) :=
  marks_list rfl (fun _ _ => rfl) ss

theorem marks_items (is : List Item) : marks is = marksOf (itemsNodeIds is) (itemsSpans is) :=
  marks_list rfl (fun _ _ => rfl) is

section

variable (n : Node)

/-! A node carries its own marks and those of its parts. For most forms this holds by definition;
the following list their parts case by case. -/

theorem marks_fnPointer (params : List FnPointerParam) (ret : Option Ty) :
    marks (Ty.fnPointer n params ret) = marks n + (marks params + marks ret) := by
  rw [marks_paramTys]
  cases ret <;> simp only [marks_none, marks_some, add_zero] <;> rfl

theorem marks_qualifier (selfTy : Ty) (asTrait : Option Path) :
    marks (Qualifier.mk n selfTy asTrait) = marks n + (marks selfTy + marks asTrait) := by
  cases asTrait <;> simp only [marks_none, marks_some, add_zero] <;> rfl

theorem marks_block (stmts : List Stmt) (tail : Option Expr) :
    marks (Block.mk n stmts tail) = marks n + (marks stmts + marks tail) := by
  rw [marks_stmts]
  cases tail <;> simp only [marks_none, marks_some, add_zero] <;> rfl

theorem marks_bind (pattern : Pattern) (ty : Option Ty) (init : Option Expr) :
    marks (Stmt.bind n pattern ty init) = marks n + (marks pattern + marks ty + marks init) := by
  cases ty <;> cases init <;> simp only [marks_none, marks_some, add_zero] <;> rfl

theorem marks_genericParam (name : Ident) (kind : GenericParamKind) :
    marks (GenericParam.mk n name kind) = marks n + (marks name + marks kind) := by
  cases kind with
  | type bounds default =>
    change _ = marks n + (marks name + (marks bounds + marks default))
    rw [marks_bounds, marks_option (fun _ => rfl) default]
    rfl
  | const ty default =>
    change _ = marks n + (marks name + (marks ty + marks default))
    rw [marks_option (fun _ => rfl) default]
    rfl
  | lifetime => rfl

theorem marks_variant (name : Ident) (kind : VariantKind) :
    marks (Variant.mk n name kind) = marks n + (marks name + marks kind) := by
  cases kind with
  | unit | discriminant value => rfl
  | tuple fields =>
    change _ = marks n + (marks name + marks fields)
    rw [marks_flatMap (fun _ => rfl) fields]
    rfl
  | record fields =>
    change _ = marks n + (marks name + marks fields)
    rw [marks_flatMap (fun _ => rfl) fields]
    rfl

theorem marks_implItem (vis : Visibility) (kind : ImplItemKind) :
    marks (ImplItem.mk n vis kind) = marks n + marks kind := by
  cases kind <;> rfl

theorem marks_traitItem (kind : TraitItemKind) :
    marks (TraitItem.mk n kind) = marks n + marks kind := by
  cases kind with
  | function f | const c => rfl
  | type t =>
    change _ = marks n + (marks t.name + marks t.bounds)
    rw [marks_bounds]
    rfl

theorem marks_foreignItem (vis : Visibility) (kind : ForeignItemKind) :
    marks (ForeignItem.mk n vis kind) = marks n + marks kind := by
  cases kind <;> rfl

end

/-! ### What counters hand out -/

/-- What a counter hands out on the way from `lo` to `hi`, everything once. -/
structure Drawn (number : α → Nat) (lo hi : Nat) (new : Multiset α) : Prop where
  le : lo ≤ hi
  nodup : new.Nodup
  between : ∀ x ∈ new, lo ≤ number x ∧ number x < hi

namespace Drawn

variable {number : α → Nat} {lo mid hi : Nat} {new more : Multiset α}

theorem refl (number : α → Nat) (lo : Nat) : Drawn number lo lo 0 :=
  ⟨le_rfl, Multiset.nodup_zero, by simp⟩

theorem one {x : α} (hlo : lo ≤ number x) (hhi : number x < hi) : Drawn number lo hi {x} :=
  ⟨by omega, Multiset.nodup_singleton x, by simp [hlo, hhi]⟩

/-- What is handed out on the second half of the way is new to the first half. -/
theorem trans (h : Drawn number lo mid new) (h' : Drawn number mid hi more) :
    Drawn number lo hi (new + more) where
  le := h.le.trans h'.le
  nodup := by
    refine Multiset.nodup_add.mpr ⟨h.nodup, h'.nodup, Multiset.disjoint_left.mpr ?_⟩
    intro x hx hx'
    exact absurd (h.between x hx).2 (not_lt.mpr (h'.between x hx').1)
  between x hx := by
    rcases Multiset.mem_add.mp hx with hx | hx
    · exact ⟨(h.between x hx).1, (h.between x hx).2.trans_le h'.le⟩
    · exact ⟨h.le.trans (h'.between x hx).1, (h'.between x hx).2⟩

end Drawn

/-- What is handed out between two allocations. -/
structure Allocation.Draws (a a' : Allocation) (new : Marks) : Prop where
  ids : Drawn NodeId.value a.ids.next a'.ids.next new.1
  spans : Drawn Span.offset a.offset a'.offset new.2

namespace Allocation.Draws

theorem refl (a : Allocation) : a.Draws a 0 := ⟨.refl _ _, .refl _ _⟩

theorem trans {a b c : Allocation} {new more : Marks} (h : a.Draws b new) (h' : b.Draws c more) :
    a.Draws c (new + more) :=
  ⟨h.ids.trans h'.ids, h.spans.trans h'.spans⟩

end Allocation.Draws

/-! ### What an action spends -/

namespace Build

/-- The result of an action carries the marks of the parts it is given, and otherwise what the
action draws itself. -/
def Spends [Marked α] (used : Marks) (act : Build α) : Prop :=
  ∀ a, ∃ new, a.Draws (act.run a).2 new ∧ marks (act.run a).1 = used + new

namespace Spends

variable {α β : Type} [Marked α] [Marked β] {used rest : Marks}

theorem pure {x : α} (h : marks x = used) : Spends used (pure x : Build α) :=
  fun a => ⟨0, .refl a, h.trans (add_zero used).symm⟩

/-- The parts that the first action does not use are left for the second. -/
theorem bind {act : Build α} {f : α → Build β} (hact : Spends used act)
    (hf : ∀ x, Spends (marks x + rest) (f x)) : Spends (used + rest) (act >>= f) := by
  intro a
  obtain ⟨new, hnew, hmarks⟩ := hact a
  obtain ⟨more, hmore, hmarks'⟩ := hf (act.run a).1 (act.run a).2
  refine ⟨new + more, hnew.trans hmore, ?_⟩
  calc marks ((act >>= f).run a).1
      = marks (act.run a).1 + rest + more := hmarks'
    _ = used + rest + (new + more) := by rw [hmarks]; abel

theorem andThen {act : Build α} {f : α → Build β} (hact : Spends used act)
    (hf : ∀ x, Spends (marks x) (f x)) : Spends used (act >>= f) := by
  have hf (x : α) : Spends (marks x + 0) (f x) := by simpa using hf x
  simpa using hact.bind hf

/-- An action without parts leaves all of them for the next. -/
theorem andWith {act : Build α} {f : α → Build β} (hact : Spends 0 act)
    (hf : ∀ x, Spends (marks x + used) (f x)) : Spends used (act >>= f) := by
  simpa using hact.bind hf

theorem mapM {f : α → Build β} (hf : ∀ x, Spends (marks x) (f x)) (xs : List α) :
    Spends (marks xs) (xs.mapM f) := by
  induction xs with
  | nil => exact .pure rfl
  | cons x xs ih =>
    rw [List.mapM_cons]
    refine (hf x).bind fun y => ?_
    rw [add_comm]
    exact ih.bind fun ys => .pure (add_comm _ _)

theorem freshId : Spends 0 freshId := fun a =>
  have hids : Drawn NodeId.value a.ids.next (a.ids.next + 1) {a.ids.bound} :=
    .one le_rfl (Nat.lt_succ_self _)
  ⟨marks a.ids.bound, ⟨hids, .refl _ _⟩, (zero_add _).symm⟩

theorem freshSpan : Spends 0 freshSpan := fun a =>
  have hspans : Drawn Span.offset a.offset (a.offset + 2) {⟨a.offset, 1⟩} :=
    .one le_rfl (Nat.lt_add_of_pos_right Nat.two_pos)
  ⟨marks (Span.mk a.offset 1), ⟨.refl _ _, hspans⟩, (zero_add _).symm⟩

/-- An action without parts makes nothing but what it draws. -/
theorem draws {act : Build α} (h : Spends 0 act) (a : Allocation) :
    a.Draws (act.run a).2 (marks (act.run a).1) := by
  obtain ⟨new, hnew, hmarks⟩ := h a
  rwa [hmarks, zero_add]

theorem node : Spends 0 node :=
  freshId.andThen fun _ => freshSpan.andWith fun _ => .pure rfl

theorem located {make : Node → α} (h : ∀ n, marks (make n) = marks n + used) :
    Spends used (located make) :=
  node.andWith fun n => .pure (h n)

theorem ident (name : String) : Spends 0 (ident name) :=
  freshSpan.andThen fun _ => .pure rfl

end Spends

/-! ### Calls -/

/-- A call, with the marks of its arguments. Whatever else is made is made by a row of these. -/
inductive Call : {α : Type} → [Marked α] → Marks → Build α → Prop
  | freshId : Call 0 freshId
  | freshSpan : Call 0 freshSpan
  | ident (name : String) : Call 0 (ident name)
  -- paths
  | segment (word : String) : Call 0 (segment word)
  | segmentWithArgs (word : String) (args : List Ty) :
      Call (marks args) (segmentWithArgs word args)
  | malformedSegment : Call 0 malformedSegment
  | path (segments : List PathSegment) : Call (marks segments) (path segments)
  | pathOfWords (words : List String) : Call 0 (pathOfWords words)
  -- types, of every kind
  | tyPath (p : Path) : Call (marks p) (tyPath p)
  | tyGeneric (word : String) (args : List Ty) : Call (marks args) (tyGeneric word args)
  | tyTuple (elems : List Ty) : Call (marks elems) (located (Ty.tuple · elems))
  | tyArray (elem : Ty) (size : Expr) :
      Call (marks elem + marks size) (located (Ty.array · elem size))
  | tySlice (elem : Ty) : Call (marks elem) (located (Ty.slice · elem))
  | tyReference (mutable : Bool) (inner : Ty) :
      Call (marks inner) (located (Ty.reference · mutable inner))
  | tyPointer (mutable : Bool) (inner : Ty) :
      Call (marks inner) (located (Ty.pointer · mutable inner))
  | tyInferred : Call 0 (located Ty.inferred)
  | tyNever : Call 0 (located Ty.never)
  | tyDynBound (bound : TraitBound) : Call (marks bound) (located (Ty.dynOne · bound))
  | tyDynOne (p : Path) : Call (marks p) (tyDynOne p)
  | tyDyn (bounds : List Bound) : Call (marks bounds) (located (Ty.dyn · bounds))
  | tyDynPaths (paths : List Path) : Call (marks paths) (tyDynPaths paths)
  | tyFnPointerOf (params : List FnPointerParam) (ret : Option Ty) :
      Call (marks params + marks ret) (located (Ty.fnPointer · params ret))
  | tyFnPointer (params : List Ty) (ret : Option Ty) :
      Call (marks params + marks ret) (tyFnPointer params ret)
  | qualifier (selfTy : Ty) (asTrait : Option Path) :
      Call (marks selfTy + marks asTrait) (qualifier selfTy asTrait)
  | tyQualifiedPath (p : QualifiedPath) : Call (marks p) (located (Ty.qualified · p))
  | tyQualified (head : Qualifier) (associated : PathSegment) (rest : List PathSegment) :
      Call (marks head + marks associated + marks rest) (tyQualified head associated rest)
  -- bounds and generics
  | traitBound (p : Path) : Call (marks p) (traitBound p)
  | lifetimeBound (name : String) : Call 0 (lifetimeBound name)
  | genericParam (name : String) (kind : GenericParamKind) :
      Call (marks kind) (genericParam name kind)
  | wherePredicate (ty : Ty) (bounds : List Bound) :
      Call (marks ty + marks bounds) (wherePredicate ty bounds)
  | whereClause (predicates : List WherePredicate) :
      Call (marks predicates) (whereClause predicates)
  -- expressions, of every kind
  | exprLiteral (value : Literal) : Call 0 (located (Expr.literal · value))
  | exprPath (p : Path) : Call (marks p) (located (Expr.path · p))
  | exprUnary (op : UnaryOp) (operand : Expr) :
      Call (marks operand) (located (Expr.unary · op operand))
  | exprBinary (op : BinaryOp) (lhs rhs : Expr) :
      Call (marks lhs + marks rhs) (located (Expr.binary · op lhs rhs))
  | exprCall (callee : Expr) (args : List Expr) :
      Call (marks callee + marks args) (located (Expr.call · callee args))
  | exprCast (operand : Expr) (ty : Ty) :
      Call (marks operand + marks ty) (located (Expr.cast · operand ty))
  | exprTuple (elems : List Expr) : Call (marks elems) (located (Expr.tuple · elems))
  | exprGroup (inner : Expr) : Call (marks inner) (located (Expr.group · inner))
  | exprBlock (body : Block) : Call (marks body) (located (Expr.block · body))
  -- patterns and statements
  | binding (name : String) (mutable : Bool) : Call 0 (binding name mutable)
  | letStmt (name : String) (ty : Option Ty) (init : Option Expr) :
      Call (marks ty + marks init) (letStmt name ty init)
  | exprStmt (value : Expr) : Call (marks value) (located (Stmt.expr · value))
  | block (stmts : List Stmt) (tail : Option Expr) :
      Call (marks stmts + marks tail) (block stmts tail)
  -- functions, fields and variants
  | function (name : String) (generics : Generics) (receiver : Option SelfParam)
      (params : List Param) (ret : Option Ty) (body : Option Block) :
      Call (marks generics + marks receiver + marks params + marks ret + marks body)
        (function name generics receiver params ret body)
  | selfParam (byRef mutable : Bool) : Call 0 (selfParam byRef mutable)
  | param (name : String) (ty : Ty) : Call (marks ty) (param name ty)
  | constDecl (name : String) (ty : Ty) (init : Option Expr) :
      Call (marks ty + marks init) (constDecl name ty init)
  | aliasDecl (name : String) (generics : Generics) (ty : Ty) :
      Call (marks generics + marks ty) (aliasDecl name generics ty)
  | namedFields (fields : List (String × Ty)) : Call (marks fields) (namedFields fields)
  | tupleFields (types : List Ty) : Call (marks types) (tupleFields types)
  | variant (name : String) (kind : VariantKind) : Call (marks kind) (variant name kind)
  -- items
  | item (kind : ItemKind) : Call (marks kind) (item kind)
  | module (name : String) (items : List Item) : Call (marks items) (module name items)
  | typeAlias (name : String) (ty : Ty) : Call (marks ty) (typeAlias name ty)
  | struct (name : String) (fields : List (String × Ty)) : Call (marks fields) (struct name fields)
  | union (name : String) (fields : List (String × Ty)) : Call (marks fields) (union name fields)
  | tupleStruct (name : String) (fields : List Ty) : Call (marks fields) (tupleStruct name fields)
  | enum (name : String) (variants : List Variant) : Call (marks variants) (enum name variants)
  | static (name : String) (mutable : Bool) (ty : Ty) (init : Option Expr) :
      Call (marks ty + marks init) (static name mutable ty init)
  | const (name : String) (ty : Ty) (init : Option Expr) :
      Call (marks ty + marks init) (const name ty init)
  | emptyFunction (name : String) : Call 0 (emptyFunction name)
  | trait (name : String) (supertraits : List Bound) (items : List TraitItem) :
      Call (marks supertraits + marks items) (trait name supertraits items)
  | inherentImpl (selfTy : Ty) (items : List ImplItem) :
      Call (marks selfTy + marks items) (inherentImpl selfTy items)
  | traitImpl (traitPath : Path) (selfTy : Ty) (items : List ImplItem) :
      Call (marks traitPath + marks selfTy + marks items) (traitImpl traitPath selfTy items)
  | foreignBlock (items : List ForeignItem) : Call (marks items) (foreignBlock items)
  | implItem (kind : ImplItemKind) : Call (marks kind) (implItem kind)
  | traitItem (kind : TraitItemKind) : Call (marks kind) (traitItem kind)
  | foreignItem (kind : ForeignItemKind) : Call (marks kind) (foreignItem kind)

namespace Spends

theorem segment (word : String) : Spends 0 (segment word) :=
  .located fun _ => rfl

theorem segmentWithArgs (word : String) (args : List Ty) :
    Spends (marks args) (segmentWithArgs word args) := by
  -- the segment is made without arguments and gets them afterwards
  change Spends (marks args) (Build.node >>= fun n => Build.freshSpan >>= fun span =>
    Pure.pure (PathSegment.mk n (.ofWord word) (some ⟨args, span⟩)))
  refine Spends.node.andWith fun n => Spends.freshSpan.andWith fun span => .pure ?_
  calc marks (PathSegment.mk n (.ofWord word) (some ⟨args, span⟩))
      = marks n + (marks span + marks args) := by rw [marks_tys]; rfl
    _ = marks span + (marks n + marks args) := add_left_comm _ _ _

theorem path (segments : List PathSegment) : Spends (marks segments) (path segments) :=
  .located fun _ => by rw [marks_segments]; rfl

theorem tyPath (p : Path) : Spends (marks p) (tyPath p) :=
  .located fun _ => rfl

theorem fnPointer (params : List FnPointerParam) (ret : Option Ty) :
    Spends (marks params + marks ret) (Build.located (Ty.fnPointer · params ret)) :=
  .located fun n => marks_fnPointer n params ret

theorem traitBound (p : Path) : Spends (marks p) (traitBound p) :=
  .located fun _ => rfl

theorem binding (name : String) (mutable : Bool) : Spends 0 (binding name mutable) :=
  (Spends.ident name).andThen fun _ => .located fun _ => rfl

theorem block (stmts : List Stmt) (tail : Option Expr) :
    Spends (marks stmts + marks tail) (block stmts tail) :=
  .located fun n => marks_block n stmts tail

theorem constDecl (name : String) (ty : Ty) (init : Option Expr) :
    Spends (marks ty + marks init) (constDecl name ty init) :=
  (Spends.ident name).andWith fun _ => .pure (by rw [marks_option (fun _ => rfl) init]; rfl)

theorem aliasDecl (name : String) (generics : Generics) (ty : Ty) :
    Spends (marks generics + marks ty) (aliasDecl name generics ty) :=
  (Spends.ident name).andWith fun _ => .pure rfl

theorem namedFields (fields : List (String × Ty)) : Spends (marks fields) (namedFields fields) :=
  .mapM (fun (name, _) => (Spends.ident name).andWith fun _ => .located fun _ => rfl) fields

theorem tupleFields (types : List Ty) : Spends (marks types) (tupleFields types) :=
  .mapM (fun _ => .located fun _ => rfl) types

theorem item {used : Marks} {kind : ItemKind} (h : marks kind = used) : Spends used (item kind) :=
  .located fun _ => by rw [← h]; rfl

/-- An item whose name is made before its parts. -/
theorem declares {α : Type} [Marked α] {used : Marks} {act : Build α}
    {kind : Ident → α → ItemKind} (name : String) (hact : Spends used act)
    (hkind : ∀ x parts, marks (kind x parts) = marks x + marks parts) :
    Spends used (Build.ident name >>= fun x => act >>= fun parts => Build.item (kind x parts)) := by
  refine (Spends.ident name).andWith fun x => ?_
  rw [add_comm]
  exact hact.bind fun parts => .item (by rw [hkind, add_comm])

end Spends

/-- A call puts the marks of its arguments into its result, and besides them only what it draws. -/
theorem Call.spends {α : Type} [Marked α] {used : Marks} {act : Build α} (h : Call used act) :
    Spends used act := by
  cases h with
  | freshId => exact .freshId
  | freshSpan => exact .freshSpan
  | ident name => exact .ident name
  | segment word => exact .segment word
  | segmentWithArgs word args => exact .segmentWithArgs word args
  | malformedSegment => exact .located fun _ => rfl
  | path segments => exact .path segments
  | pathOfWords words =>
    rw [← marks_words words]
    exact (Spends.mapM (fun word => Spends.segment word) words).andThen .path
  | tyPath p => exact .tyPath p
  | tyGeneric word args =>
    refine (Spends.segmentWithArgs word args).andThen fun s => ?_
    rw [← add_zero (marks s)]
    exact (Spends.path [s]).andThen .tyPath
  | tyTuple elems => exact .located fun _ => by rw [marks_tys]; rfl
  | tyArray | tySlice | tyReference | tyPointer | tyInferred | tyNever | tyDynBound
  | tyQualifiedPath => exact .located fun _ => rfl
  | tyDynOne p => exact (Spends.traitBound p).andThen fun _ => .located fun _ => rfl
  | tyDyn bounds => exact .located fun _ => by rw [marks_bounds]; rfl
  | tyDynPaths paths =>
    refine (Spends.mapM Spends.traitBound paths).andThen fun bounds => .located fun _ => ?_
    rw [← marks_map (f := Bound.trait) (fun _ => rfl) bounds, marks_bounds]
    rfl
  | tyFnPointerOf params ret => exact .fnPointer params ret
  | tyFnPointer params ret =>
    have hparam (ty : Ty) :
        Spends (marks ty) (do return FnPointerParam.mk (← Build.freshId) none ty) :=
      Spends.freshId.andWith fun _ => .pure rfl
    exact (Spends.mapM hparam params).bind fun params => .fnPointer params ret
  | qualifier selfTy asTrait => exact .located fun n => marks_qualifier n selfTy asTrait
  | tyQualified head associated rest =>
    refine Spends.andThen (.located fun _ => ?_) fun _ => .located fun _ => rfl
    rw [marks_segments]
    rfl
  | traitBound p => exact .traitBound p
  | lifetimeBound name => exact (Spends.ident name).andThen fun _ => .pure rfl
  | genericParam name kind =>
    exact (Spends.ident name).andWith fun x => .located fun n => marks_genericParam n x kind
  | wherePredicate ty bounds => exact .located fun _ => by rw [marks_bounds]; rfl
  | whereClause predicates => exact Spends.freshSpan.andWith fun _ => .pure rfl
  | exprTuple elems => exact .located fun _ => by rw [marks_exprs]; rfl
  | exprCall callee args => exact .located fun _ => by rw [marks_exprs]; rfl
  | exprLiteral | exprPath | exprUnary | exprBinary | exprCast | exprGroup | exprBlock
  | exprStmt => exact .located fun _ => rfl
  | binding name mutable => exact .binding name mutable
  | letStmt name ty init =>
    refine (Spends.binding name false).andWith fun p => .located fun n => ?_
    rw [marks_bind, add_assoc (marks p)]
  | block stmts tail => exact .block stmts tail
  | function name generics receiver params ret body =>
    refine (Spends.ident name).andWith fun _ => .pure ?_
    rw [marks_option (fun _ => rfl) receiver, marks_flatMap (fun _ => rfl) params,
      marks_option (fun _ => rfl) ret, marks_option (fun _ => rfl) body]
    rfl
  | selfParam byRef mutable => exact .located fun _ => rfl
  | param name ty => exact (Spends.binding name false).andWith fun _ => .located fun _ => rfl
  | constDecl name ty init => exact .constDecl name ty init
  | aliasDecl name generics ty => exact .aliasDecl name generics ty
  | namedFields fields => exact .namedFields fields
  | tupleFields types => exact .tupleFields types
  | variant name kind =>
    exact (Spends.ident name).andWith fun x => .located fun n => marks_variant n x kind
  | item kind => exact .item rfl
  | module name items =>
    exact (Spends.ident name).andWith fun _ => .item (by rw [marks_items]; rfl)
  | typeAlias name ty =>
    rw [← zero_add (marks ty)]
    exact (Spends.aliasDecl name .none ty).andThen fun _ => .item rfl
  | struct name fields | union name fields =>
    refine .declares name (.namedFields fields) fun _ fields => ?_
    rw [marks_flatMap (fun _ => rfl) fields]
    rfl
  | tupleStruct name fields =>
    refine .declares name (.tupleFields fields) fun _ fields => ?_
    rw [marks_flatMap (fun _ => rfl) fields]
    rfl
  | enum name variants =>
    refine (Spends.ident name).andWith fun _ => .item ?_
    rw [marks_flatMap (fun _ => rfl) variants]
    rfl
  | static name mutable ty init =>
    refine (Spends.ident name).andWith fun _ => .item ?_
    rw [marks_option (fun _ => rfl) init]
    rfl
  | const name ty init => exact (Spends.constDecl name ty init).andThen fun _ => .item rfl
  | emptyFunction name =>
    have hbody : Spends 0 (Build.block [] none) := by simpa using Spends.block [] none
    exact .declares name hbody fun _ _ => rfl
  | trait name supertraits items =>
    refine (Spends.ident name).andWith fun _ => .item ?_
    rw [marks_bounds, marks_flatMap (fun _ => rfl) items]
    rfl
  | inherentImpl selfTy items =>
    refine .item ?_
    rw [marks_flatMap (fun _ => rfl) items]
    rfl
  | traitImpl traitPath selfTy items =>
    refine .item ?_
    rw [marks_flatMap (fun _ => rfl) items]
    rfl
  | foreignBlock items =>
    refine .item ?_
    rw [marks_flatMap (fun _ => rfl) items]
    rfl
  | implItem kind => exact .located fun n => marks_implItem n _ kind
  | traitItem kind => exact .located fun n => marks_traitItem n kind
  | foreignItem kind => exact .located fun n => marks_foreignItem n _ kind

/-! ### Rows of calls -/

/-- What has been handed out once the crate root has its identity. -/
def afterRoot : Allocation := (freshId.run .start).2

/-- Where calls can lead to from the crate root on, with the marks that may still become part of
something. The crate root keeps its identity for itself. -/
inductive Reaches : Allocation → Marks → Prop
  | start : Reaches afterRoot 0
  /-- The arguments of a call come out of the stock, and its result goes into it. -/
  | call {a : Allocation} {stock used rest : Marks} {α : Type} [Marked α] {act : Build α}
      (h : Reaches a stock) (hcall : Call used act) (hstock : stock = used + rest) :
      Reaches (act.run a).2 (marks (act.run a).1 + rest)

/-- The stock is never more than what was drawn. -/
theorem Reaches.drawn {a : Allocation} {stock : Marks} (h : Reaches a stock) :
    ∃ drawn, afterRoot.Draws a drawn ∧ stock ≤ drawn := by
  induction h with
  | start => exact ⟨0, .refl _, le_rfl⟩
  | @call a stock used rest _ _ act _ hcall hstock ih =>
    obtain ⟨drawn, hdrawn, hle⟩ := ih
    obtain ⟨new, hnew, hmarks⟩ := hcall.spends a
    refine ⟨drawn + new, hdrawn.trans hnew, ?_⟩
    calc marks (act.run a).1 + rest
        = stock + new := by rw [hmarks, hstock]; abel
      _ ≤ drawn + new := add_le_add_left hle new

/-- The crate root draws first, and its place is drawn last. -/
theorem crate_draws (items : Build (List Item)) {drawn : Marks}
    (h : afterRoot.Draws (items.run afterRoot).2 drawn)
    (hitems : marks (items.run afterRoot).1 ≤ drawn) :
    ∃ final new, Allocation.start.Draws final new ∧ (crate items).idBound = final.ids.bound
      ∧ marksOf (crate items).nodeIds (crate items).spans ≤ new := by
  have hroot := Spends.freshId.draws .start
  have hlast := Spends.freshSpan.draws (items.run afterRoot).2
  refine ⟨_, _, (hroot.trans h).trans hlast, rfl, ?_⟩
  calc marksOf (crate items).nodeIds (crate items).spans
      = marks (crate items).node + marks (items.run afterRoot).1 := by rw [marks_items]; rfl
    _ ≤ marks (crate items).node + drawn := add_le_add_right hitems _
    _ = marks (crate items).node.id + drawn + marks (crate items).node.span :=
      add_right_comm (marks (crate items).node.id) (marks (crate items).node.span) drawn

/-- **Every crate that calls make is well formed.** Let any row of calls be made in which nothing
is used twice, and let its items come out of what is left over: then the identities in the crate
that they are closed to are distinct, each lies below the bound of the crate, and the places of its
nodes, names, argument lists and where clauses are distinct too. -/
theorem crate_wellFormed {items : Build (List Item)} {stock : Marks}
    (h : Reaches (items.run afterRoot).2 stock) (hitems : marks (items.run afterRoot).1 ≤ stock) :
    (crate items).WellFormed ∧ (crate items).spans.Nodup := by
  obtain ⟨drawn, hdrawn, hstock⟩ := h.drawn
  obtain ⟨final, new, hnew, hbound, hle⟩ := crate_draws items hdrawn (hitems.trans hstock)
  refine ⟨⟨Multiset.nodup_of_le hle.1 hnew.ids.nodup, fun id hid => ?_⟩,
    Multiset.nodup_of_le hle.2 hnew.spans.nodup⟩
  rw [hbound]
  exact (hnew.ids.between id (Multiset.mem_of_le hle.1 hid)).2

/-- A function in a module. -/
def withNestedFunction : Build (List Item) := do
  let f ← emptyFunction "f"
  return [← module "m" [f]]

theorem crate_wellFormed_withNestedFunction :
    Reaches (withNestedFunction.run afterRoot).2 (marks (withNestedFunction.run afterRoot).1)
      ∧ (crate withNestedFunction).nodeIds = [⟨0⟩, ⟨3⟩, ⟨2⟩, ⟨1⟩]
      ∧ (crate withNestedFunction).WellFormed ∧ (crate withNestedFunction).spans.Nodup := by
  have hfunction := Reaches.start.call (.emptyFunction "f") (add_zero 0).symm
  have hmodule := hfunction.call (.module "m" [((emptyFunction "f").run afterRoot).1])
    (add_zero (marks [((emptyFunction "f").run afterRoot).1])).symm
  exact ⟨hmodule, rfl, crate_wellFormed hmodule le_rfl⟩

/-- A type that becomes part of two items. -/
def withSharedType : Build (List Item) := do
  let ty ← located Ty.never
  return [← typeAlias "A" ty, ← typeAlias "B" ty]

example : ¬ (crate withSharedType).WellFormed := by decide

end Build

end NameResolution
