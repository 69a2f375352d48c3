import NameResolution.Proofs.SymbolTable

/-!
# NameResolution.Proofs.ScopeHistory

**A symbol table is accounted for by the names it accepted.** A table is used through
three calls: a rib is opened, closed, or a name is bound in the innermost one. A row of
calls has a *log*, every binding that was accepted together with the owner of the rib
that took it, newest first. Whatever the calls were, closings in the wrong order and
refused bindings included, the table that they leave behind says about a name what the
log says (`Scope.Accounts`):

* the binding of a name in a rib is the last one that this owner's rib accepted for it,
  however often the rib was closed, opened again or opened twice in the meantime;
* an identity counts as declared exactly if the log has it.

One call keeps the account (`Accounts.after`), so every row of calls does
(`accounts_run`), and the answers of the table can be read off the log.
-/

namespace NameResolution

namespace Insertion

/-- Whether a name could not be bound. -/
def isRefused : Insertion → Bool
  | added _ => false
  | duplicate _ => true

/-- The earlier bindings that the caller is told about, one for each time it is told. -/
def reported : Insertion → List Binding
  | added _ => []
  | duplicate earlier => [earlier]

end Insertion

/-- No name is bound twice in a rib. -/
def Rib.NamesDistinct (r : Rib) : Prop := (r.bindings.map (·.path.texts)).Nodup

namespace Scope

/-- What a symbol table is asked to do. -/
inductive Call
  | push (owner : NodeId)
  | pop (owner : NodeId)
  | insert (b : Binding) (shadow : Bool)
  deriving DecidableEq, Repr

/-- A binding that was accepted, and the owner of the rib that took it. -/
structure Acceptance where
  owner : NodeId
  binding : Binding
  deriving DecidableEq, Repr

/-- The table after one call. A rib is closed even if another one was named, and a binding
that is refused leaves the table alone. -/
def after (s : Scope) : Call → Scope
  | .push owner => s.push owner
  | .pop owner => (s.pop owner).2
  | .insert b shadow =>
    match s.insert b shadow with
    | .ok (.added bound) => bound
    | .ok (.duplicate _) | .error _ => s

/-- The binding that a call adds, for which the answer has to say so. -/
def accepts (s : Scope) : Call → List Acceptance
  | .push _ | .pop _ => []
  | .insert b shadow =>
    match s.opened, s.insert b shadow with
    | owner :: _, .ok (.added _) => [⟨owner, b⟩]
    | _, _ => []

/-- The owners of the open ribs after one more call, innermost first. -/
def Call.openAfter (owners : List NodeId) : Call → List NodeId
  | push owner => owner :: owners
  | pop _ => owners.tail
  | insert _ _ => owners

/-- The table after a row of calls. -/
def run (s : Scope) (calls : List Call) : Scope := calls.foldl after s

/-- Everything that a row of calls binds, newest first. -/
def log (s : Scope) : List Call → List Acceptance
  | [] => []
  | call :: rest => (s.after call).log rest ++ s.accepts call

/-- The binding last accepted for a name in the rib of a node. -/
def latest? (log : List Acceptance) (owner : NodeId) (key : CanonicalPath) : Option Binding :=
  (log.find? fun a => a.owner = owner ∧ a.binding.path.SameText key).map Acceptance.binding

end Scope

/-! ### The names of one rib -/

namespace Rib

/-- What a rib holds under a name is found. -/
theorem find?_eq_some_of_mem {r : Rib} (h : r.NamesDistinct) {held : Binding}
    (hmem : held ∈ r.bindings) {key : CanonicalPath} (hkey : held.path.SameText key) :
    r.find? key = some held := by
  unfold NamesDistinct at h
  unfold find?
  obtain ⟨before, behind, hsplit⟩ := List.append_of_mem hmem
  rw [hsplit, List.map_append, List.map_cons, List.nodup_append] at h
  rw [hsplit, List.find?_append, List.find?_eq_none.mpr, List.find?_cons_of_pos]
  · rfl
  · exact decide_eq_true hkey
  · intro other hother hsame
    have hsame : other.path.texts = held.path.texts :=
      (of_decide_eq_true hsame : other.path.SameText key).trans hkey.symm
    exact h.2.2 _ (List.mem_map_of_mem hother) _ List.mem_cons_self hsame

/-- What is found under a name is in the rib, under that name. -/
theorem mem_of_find? {r : Rib} {key : CanonicalPath} {held : Binding}
    (h : r.find? key = some held) : held ∈ r.bindings ∧ held.path.SameText key := by
  unfold find? at h
  exact ⟨List.mem_of_find?_eq_some h, by simpa using List.find?_some h⟩

/-- Binding a name does not bind it twice. -/
theorem NamesDistinct.bind {r : Rib} (h : r.NamesDistinct) (b : Binding) :
    (r.bind b).NamesDistinct := by
  unfold NamesDistinct at h ⊢
  unfold Rib.bind
  cases hfound : r.find? b.path with
  | none =>
      have habsent : b.path.texts ∉ r.bindings.map (·.path.texts) := by
        rintro hmem
        obtain ⟨held, hheld, htexts⟩ := List.mem_map.mp hmem
        exact List.find?_eq_none.mp hfound held hheld (decide_eq_true htexts)
      simpa [List.nodup_append] using ⟨h, fun held hheld htexts =>
        habsent (List.mem_map.mpr ⟨held, hheld, htexts⟩)⟩
  | some earlier =>
      -- The new binding takes a place whose name it shares, so that the names stay what they were.
      have hnames : (fun old : Binding =>
          (if old.path.SameText b.path then b else old).path.texts) = (·.path.texts) := by
        funext old
        split
        · rename_i hsame
          exact Eq.symm hsame
        · rfl
      simp only [List.map_map, Function.comp_def, hnames]
      exact h

end Rib

namespace Scope

/-! ### The account of a table -/

/-- A table that is what a log and the open ribs make it. -/
structure Accounts (s : Scope) (space : Namespace) (owners : List NodeId)
    (log : List Acceptance) : Prop where
  space : s.space = space
  opened : s.opened = owners
  exist : ∀ owner ∈ owners, (s.rib? owner).isSome
  distinct : ∀ r ∈ s.ribs, r.NamesDistinct
  binding : ∀ owner key, s.bindingIn? owner key = latest? log owner key
  declared : s.declared = log.map (·.binding.id)

theorem accounts_empty (space : Namespace) : (empty space).Accounts space [] [] where
  space := rfl
  opened := rfl
  exist _ h := nomatch h
  distinct _ h := nomatch h
  binding _ _ := rfl
  declared := rfl

theorem latest?_cons (a : Acceptance) (log : List Acceptance) (owner : NodeId)
    (key : CanonicalPath) :
    latest? (a :: log) owner key =
      if owner = a.owner ∧ a.binding.path.SameText key then some a.binding
      else latest? log owner key := by
  unfold latest?
  by_cases h : owner = a.owner ∧ a.binding.path.SameText key
  · obtain ⟨rfl, hkey⟩ := h
    simp [hkey]
  · have hne : ¬ (a.owner = owner ∧ a.binding.path.SameText key) := fun h' =>
      h ⟨h'.1.symm, h'.2⟩
    rw [List.find?_cons_of_neg (by simpa using hne), if_neg h]

namespace Accounts

variable {s : Scope} {space : Namespace} {owners : List NodeId} {log : List Acceptance}

theorem push (h : s.Accounts space owners log) (owner : NodeId) :
    (s.push owner).Accounts space (owner :: owners) log where
  space := h.space
  opened := by rw [opened_push, h.opened]
  exist x hx := isSome_rib?_push ((List.mem_cons.mp hx).imp_right (h.exist x))
  distinct r hr := by
    rcases mem_ribs_push r hr with hr | hnew
    · exact h.distinct r hr
    · unfold Rib.NamesDistinct
      rw [hnew]
      exact List.nodup_nil
  binding x key := (bindingIn?_push s owner x key).trans (h.binding x key)
  declared := h.declared

theorem pop (h : s.Accounts space owners log) (owner : NodeId) :
    (s.pop owner).2.Accounts space owners.tail log := by
  rw [snd_pop]
  exact {
    space := h.space
    opened := congrArg List.tail h.opened
    exist := fun x hx => h.exist x (List.mem_of_mem_tail hx)
    distinct := h.distinct
    binding := h.binding
    declared := h.declared }

/-- A name that is bound in a rib is the newest entry of the log. -/
theorem bindIn {owner : NodeId} (h : s.Accounts space owners log) (howner : owner ∈ owners)
    (b : Binding) : (s.bindIn owner b).Accounts space owners (⟨owner, b⟩ :: log) where
  space := h.space
  opened := h.opened
  exist x hx := by rw [isSome_rib?_bindIn]; exact h.exist x hx
  distinct r hr := by
    obtain ⟨old, hold, rfl⟩ := List.mem_map.mp hr
    split
    · exact (h.distinct old hold).bind b
    · exact h.distinct old hold
  binding x key := by
    rw [bindingIn?_bindIn (h.exist owner howner), latest?_cons, h.binding]
  declared := by rw [declared_bindIn, h.declared, List.map_cons]

/-- What the innermost rib makes of a name is decided by what it accepted last. -/
theorem insert_cases {owner : NodeId} {outer : List NodeId}
    (h : s.Accounts space (owner :: outer) log) (b : Binding) (shadow : Bool) :
    (∃ earlier, latest? log owner b.path = some earlier ∧ shadow = false ∧
      s.insert b shadow = .ok (.duplicate earlier)) ∨
    ((latest? log owner b.path = none ∨ shadow = true) ∧
      s.insert b shadow = .ok (.added (s.bindIn owner b))) := by
  rw [insert_cons h.opened, h.binding]
  cases latest? log owner b.path with
  | none => exact Or.inr ⟨Or.inl rfl, rfl⟩
  | some earlier =>
      cases shadow with
      | false => exact Or.inl ⟨earlier, rfl, rfl, rfl⟩
      | true => exact Or.inr ⟨Or.inr rfl, rfl⟩

theorem insert_eq_error (h : s.Accounts space [] log) (b : Binding) (shadow : Bool) :
    s.insert b shadow = .error (.scopeStackUnderflow space) := by
  unfold insert
  rw [h.opened, h.space]

/-- Every call keeps the account. -/
theorem after (h : s.Accounts space owners log) (call : Call) :
    (s.after call).Accounts space (call.openAfter owners) (s.accepts call ++ log) := by
  cases call with
  | push owner => exact h.push owner
  | pop owner => exact h.pop owner
  | insert b shadow =>
      unfold Scope.after Scope.accepts
      cases owners with
      | nil =>
          simp only [h.opened, h.insert_eq_error b shadow, List.nil_append]
          exact h
      | cons owner outer =>
          obtain ⟨earlier, -, -, hanswer⟩ | ⟨-, hanswer⟩ := h.insert_cases b shadow
          · simp only [h.opened, hanswer, List.nil_append]
            exact h
          · simp only [h.opened, hanswer]
            exact h.bindIn List.mem_cons_self b

/-- An open rib holds what it accepted last for each name, and nothing else. -/
theorem exists_rib {owner : NodeId} (h : s.Accounts space owners log) (howner : owner ∈ owners) :
    ∃ r, s.rib? owner = some r ∧ ∀ held key,
      held ∈ r.bindings ∧ held.path.SameText key ↔ latest? log owner key = some held := by
  obtain ⟨r, hr⟩ := Option.isSome_iff_exists.mp (h.exist owner howner)
  have hdistinct := h.distinct r (List.mem_of_find?_eq_some hr)
  have hfind (key : CanonicalPath) : r.find? key = latest? log owner key := by
    rw [← h.binding, bindingIn?, hr, Option.bind_some]
  refine ⟨r, hr, fun held key => ?_⟩
  rw [← hfind]
  exact ⟨fun ⟨hmem, hkey⟩ => Rib.find?_eq_some_of_mem hdistinct hmem hkey, Rib.mem_of_find?⟩

/-- A name is refused exactly if the innermost rib holds it and it may not be shadowed; a refusal
reports what the rib holds and changes nothing. -/
theorem insert_answers {owner : NodeId} {outer : List NodeId}
    (h : s.Accounts space (owner :: outer) log) (b : Binding) (shadow : Bool) :
    ∃ r answer, s.innermost? = some r ∧ s.insert b shadow = .ok answer ∧
      (answer.isRefused = true ↔
        shadow = false ∧ ∃ held ∈ r.bindings, held.path.SameText b.path) ∧
      (answer.isRefused = true → s.after (.insert b shadow) = s ∧
        ∀ held ∈ r.bindings, held.path.SameText b.path →
          answer.reported = [held] ∧ latest? log owner b.path = some held) ∧
      (answer.isRefused = false → answer.reported = []) := by
  obtain ⟨r, hr, hholds⟩ := h.exists_rib List.mem_cons_self
  have hinnermost : s.innermost? = some r := by
    rw [innermost?, h.opened, List.head?_cons, Option.bind_some, hr]
  obtain ⟨earlier, hearlier, hshadow, hanswer⟩ | ⟨hfree, hanswer⟩ := h.insert_cases b shadow
  · refine ⟨r, .duplicate earlier, hinnermost, hanswer, ?_, fun _ => ⟨?_, ?_⟩, nofun⟩
    · exact iff_of_true rfl ⟨hshadow, earlier, (hholds earlier b.path).mpr hearlier⟩
    · simp only [Scope.after, hanswer]
    · intro held hmem hkey
      have hheld := (hholds held b.path).mp ⟨hmem, hkey⟩
      cases hearlier.symm.trans hheld
      exact ⟨rfl, hheld⟩
  · refine ⟨r, .added (s.bindIn owner b), hinnermost, hanswer, ?_, nofun, fun _ => rfl⟩
    refine iff_of_false Bool.false_ne_true ?_
    rintro ⟨hshadow, held, hheld⟩
    rcases hfree with hnone | hshadow'
    · cases hnone.symm.trans ((hholds held b.path).mp hheld)
    · cases hshadow.symm.trans hshadow'

theorem lookup?_eq (h : s.Accounts space owners log) (key : CanonicalPath) :
    s.lookup? key = (owners.findSome? (latest? log · key)).map Binding.id := by
  unfold lookup?
  rw [findBinding?_eq_findSome?, h.opened]
  simp only [h.binding]

theorem wasDeclared_iff (h : s.Accounts space owners log) (id : NodeId) :
    s.wasDeclared id = true ↔ ∃ a ∈ log, a.binding.id = id := by
  unfold wasDeclared
  rw [decide_eq_true_iff, h.declared, List.mem_map]

/-- What a name stands for was declared. -/
theorem wasDeclared_of_lookup? {key : CanonicalPath} {id : NodeId}
    (h : s.Accounts space owners log) (hlookup : s.lookup? key = some id) :
    s.wasDeclared id = true := by
  rw [h.lookup?_eq] at hlookup
  obtain ⟨b, hb, rfl⟩ := Option.map_eq_some_iff.mp hlookup
  obtain ⟨owner, -, hlatest⟩ := List.exists_of_findSome?_eq_some hb
  obtain ⟨a, ha, rfl⟩ := Option.map_eq_some_iff.mp hlatest
  exact (h.wasDeclared_iff _).mpr ⟨a, List.mem_of_find?_eq_some ha, rfl⟩

end Accounts

/-- Every row of calls keeps the account. -/
theorem Accounts.run {s : Scope} {space : Namespace} {owners : List NodeId}
    {log : List Acceptance} (h : s.Accounts space owners log) (calls : List Call) :
    (s.run calls).Accounts space (calls.foldl Call.openAfter owners) (s.log calls ++ log) := by
  induction calls generalizing s owners log with
  | nil => exact h
  | cons call rest ih =>
      have hrest := ih (h.after call)
      rwa [← List.append_assoc] at hrest

theorem accounts_run (space : Namespace) (calls : List Call) :
    ((empty space).run calls).Accounts space (calls.foldl Call.openAfter [])
      ((empty space).log calls) := by
  simpa using (accounts_empty space).run calls

/-! ### What the calls are answered -/

/-- **A symbol table says of every name what was last accepted for it.** After any row of calls:

* a name is refused by the innermost open rib exactly if shadowing is not allowed and the rib
  holds it already; then the earlier binding is reported, once, and the table stays as it was;
* a name stands for what was last accepted for it in the innermost open rib that ever accepted
  it;
* an identity was declared exactly if a binding of it was accepted, as is everything that a
  name stands for. -/
theorem run_answers (space : Namespace) (calls : List Call) :
    let s := (empty space).run calls
    let log := (empty space).log calls
    s.opened = calls.foldl Call.openAfter [] ∧
    (∀ owner outer, s.opened = owner :: outer → ∀ b shadow, ∃ r answer,
      s.innermost? = some r ∧ s.insert b shadow = .ok answer ∧
      (answer.isRefused = true ↔
        shadow = false ∧ ∃ held ∈ r.bindings, held.path.SameText b.path) ∧
      (answer.isRefused = true → s.after (.insert b shadow) = s ∧
        ∀ held ∈ r.bindings, held.path.SameText b.path →
          answer.reported = [held] ∧ latest? log owner b.path = some held) ∧
      (answer.isRefused = false → answer.reported = [])) ∧
    (∀ key, s.lookup? key = (s.opened.findSome? (latest? log · key)).map Binding.id) ∧
    (∀ id, s.wasDeclared id = true ↔ ∃ a ∈ log, a.binding.id = id) ∧
    (∀ key id, s.lookup? key = some id → s.wasDeclared id = true) := by
  intro s log
  have h : s.Accounts space (calls.foldl Call.openAfter []) log := accounts_run space calls
  refine ⟨h.opened, ?_, fun key => h.opened ▸ h.lookup?_eq key, h.wasDeclared_iff,
    fun key id => h.wasDeclared_of_lookup?⟩
  intro owner outer hopened b shadow
  rw [h.opened] at hopened
  rw [hopened] at h
  exact h.insert_answers b shadow

/-- The rib of node 1 is open twice in the end, around that of node 2. Until then `a` has been
bound in both, that of node 2 was closed under a wrong name, `a` was shadowed in the rib of node
1 and refused there once. -/
def reopenedCalls : List Call :=
  [.push ⟨1⟩, .insert ⟨.single ⟨10⟩ "a", ⟨10⟩, ⟨0, 1⟩⟩ false, .push ⟨2⟩,
    .insert ⟨.single ⟨20⟩ "a", ⟨20⟩, ⟨2, 1⟩⟩ false, .pop ⟨9⟩,
    .insert ⟨.single ⟨11⟩ "a", ⟨11⟩, ⟨4, 1⟩⟩ true,
    .insert ⟨.single ⟨12⟩ "a", ⟨12⟩, ⟨6, 1⟩⟩ false, .push ⟨2⟩, .push ⟨1⟩]

/-- The rib that is opened a second time refuses `a` once more, which stands for the binding that
shadowed the first one; the first one still counts as declared, the refused one never does. -/
theorem run_answers_reopened :
    let s := (empty .name).run reopenedCalls
    s.opened = [⟨1⟩, ⟨2⟩, ⟨1⟩] ∧
    (∃ answer, s.insert ⟨.single ⟨13⟩ "a", ⟨13⟩, ⟨8, 1⟩⟩ false = .ok answer ∧
      answer.reported = [⟨.single ⟨11⟩ "a", ⟨11⟩, ⟨4, 1⟩⟩]) ∧
    s.lookup? (.single ⟨14⟩ "a") = some ⟨11⟩ ∧
    s.wasDeclared ⟨10⟩ = true ∧ s.wasDeclared ⟨12⟩ = false := by
  intro s
  obtain ⟨hopened, hinsert, hlookup, hdeclared, -⟩ := run_answers .name reopenedCalls
  have howners : s.opened = [⟨1⟩, ⟨2⟩, ⟨1⟩] := hopened.trans rfl
  obtain ⟨r, answer, hr, hanswer, hrefused, hreport, -⟩ :=
    hinsert _ _ howners ⟨.single ⟨13⟩ "a", ⟨13⟩, ⟨8, 1⟩⟩ false
  have hrib : r = ⟨⟨1⟩, [⟨.single ⟨11⟩ "a", ⟨11⟩, ⟨4, 1⟩⟩]⟩ := Option.some.inj (hr.symm.trans rfl)
  subst hrib
  have hholds := hrefused.mpr ⟨rfl, _, List.mem_cons_self, by decide⟩
  refine ⟨howners, ⟨answer, hanswer, ?_⟩, (hlookup _).trans (by decide), ?_, ?_⟩
  · exact ((hreport hholds).2 _ List.mem_cons_self (by decide)).1
  · exact (hdeclared _).mpr (by decide)
  · exact Bool.eq_false_iff.mpr fun h => absurd ((hdeclared _).mp h) (by decide)

end Scope

end NameResolution
