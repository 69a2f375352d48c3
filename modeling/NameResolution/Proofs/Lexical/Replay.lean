import NameResolution.Proofs.Lexical.SecondPass

/-!
# NameResolution.Proofs.Lexical.Replay

**What becomes of the findings.** Entering findings one after the other changes the entry
of a node only if one of them resolves that node (`Ledger.resolved?_noteAll_of_no_entry`).
The nodes of a tree are all different, so each is entered at most once, and what is entered
stays (`Ledger.resolved?_noteAll_of_mem`).

For a path that is visited, what the second pass has entered for its nodes is what reading
the path alone finds out (`Crate.SecondPass.resolved?_of_visit`).
Where no errors are found, the tables of the result have it all (`Entered`).
-/

namespace NameResolution

/-- The declaration that a node was resolved to, in either namespace. -/
def Ledger.resolved? (l : Ledger) (use : NodeId) : Option NodeId :=
  (l.names.get? use).or (l.types.get? use)

/-- The nodes that findings enter something for. -/
def usesOf (findings : List Finding) : List NodeId := findings.filterMap Finding.use?

/-- The error that a finding reports. -/
def Finding.error? : Finding → Option ResolveError
  | .error e => some e
  | .segment _ _ _ _ _ | .resolved _ _ _ | .qualified _ _ | .visit _ _ _ _ => none

/-- The node that a finding resolves, and to which declaration. -/
def Finding.entry? : Finding → Option (NodeId × NodeId)
  | .segment _ node _ decl _ => some (node.id, decl)
  | .resolved _ use decl => some (use, decl)
  | .qualified _ _ | .error _ | .visit _ _ _ _ => none

/-- The use site that a finding is, if visibility matters for its declaration. -/
def Finding.useSite? (t : Tables) : Finding → Option UseSite
  | .segment _ node name decl here =>
    (t.visibilities.get? decl).map fun _ => ⟨node.id, decl, here, name, node.span⟩
  | .resolved _ _ _ | .qualified _ _ | .error _ | .visit _ _ _ _ => none

namespace Ledger

variable {base : Session} {l : Ledger} {findings : List Finding} {id decl : NodeId}

theorem resolved?_setResolved_ne (l : Ledger) (space : Namespace) {use : NodeId} (h : id ≠ use)
    (decl : NodeId) : (l.setResolved space use decl).resolved? id = l.resolved? id := by
  cases space <;> simp [setResolved, resolved?, Register.get?_set_ne h]

theorem resolved?_setResolved_self (space : Namespace) (h : l.resolved? id = none) (decl : NodeId) :
    (l.setResolved space id decl).resolved? id = some decl := by
  obtain ⟨hnames, htypes⟩ := Option.or_eq_none_iff.mp h
  cases space <;> simp [setResolved, resolved?, hnames]

/-- Being a use site or not, a segment is resolved. -/
theorem resolved?_note_segment (space : Namespace) (node : Node) (name : String)
    (decl here : NodeId) : (l.note base (.segment space node name decl here)).resolved? id =
      (l.setResolved space node.id decl).resolved? id := by
  simp only [note]
  split <;> rfl

theorem resolved?_note_of_no_entry (f : Finding) (h : ∀ decl, f.entry? ≠ some (id, decl)) :
    (l.note base f).resolved? id = l.resolved? id := by
  cases f with
  | segment space node name decl here =>
      have hne : id ≠ node.id := fun heq => h decl (by rw [heq]; rfl)
      rw [resolved?_note_segment]
      exact resolved?_setResolved_ne l space hne decl
  | resolved space use decl =>
      have hne : id ≠ use := fun heq => h decl (by rw [heq]; rfl)
      exact resolved?_setResolved_ne l space hne decl
  | qualified use path => rfl
  | error e => rfl
  | visit path prefer env outcome => rfl

/-- A finding about a node that has no entry yet. -/
theorem resolved?_note_of_entry {f : Finding} (hentry : f.entry? = some (id, decl))
    (h : l.resolved? id = none) : (l.note base f).resolved? id = some decl := by
  cases f with
  | segment space node name decl here =>
      cases hentry
      rw [resolved?_note_segment]
      exact resolved?_setResolved_self space h decl
  | resolved space use decl =>
      cases hentry
      exact resolved?_setResolved_self space h decl
  | qualified use path => cases hentry
  | error e => cases hentry
  | visit path prefer env outcome => cases hentry

/-- Findings that do not resolve a node leave its entry alone. -/
theorem resolved?_noteAll_of_no_entry : ∀ {findings : List Finding} {l : Ledger},
    (∀ f ∈ findings, ∀ decl, f.entry? ≠ some (id, decl)) →
      (l.noteAll base findings).resolved? id = l.resolved? id
  | [], _, _ => rfl
  | f :: rest, l, h => by
      obtain ⟨hf, hrest⟩ := List.forall_mem_cons.mp h
      exact (resolved?_noteAll_of_no_entry hrest).trans (resolved?_note_of_no_entry f hf)

theorem use?_of_entry {f : Finding} (h : f.entry? = some (id, decl)) : f.use? = some id := by
  cases f <;> cases h <;> rfl

/-- Findings about other nodes leave an entry alone. -/
theorem resolved?_noteAll_of_not_use (h : id ∉ usesOf findings) :
    (l.noteAll base findings).resolved? id = l.resolved? id :=
  resolved?_noteAll_of_no_entry fun f hf _ hentry =>
    h (List.mem_filterMap.mpr ⟨f, hf, use?_of_entry hentry⟩)

/-- A node that is found out about once has that entry in the end. -/
theorem resolved?_noteAll_of_mem (huses : (usesOf findings).Nodup) {f : Finding}
    (hf : f ∈ findings) (hentry : f.entry? = some (id, decl)) (h : l.resolved? id = none) :
    (l.noteAll base findings).resolved? id = some decl := by
  -- What comes before leaves the entry empty, and what comes after leaves it as it is.
  obtain ⟨before, after, rfl⟩ := List.append_of_mem hf
  unfold usesOf at huses
  rw [List.filterMap_append, List.filterMap_cons, use?_of_entry hentry] at huses
  obtain ⟨-, hafter, hbefore⟩ := List.nodup_append.mp huses
  have hnone : (l.noteAll base before).resolved? id = none :=
    (resolved?_noteAll_of_not_use fun hin => hbefore id hin id List.mem_cons_self rfl).trans h
  rw [noteAll_append]
  exact (resolved?_noteAll_of_not_use (List.nodup_cons.mp hafter).1).trans
    (resolved?_note_of_entry hentry hnone)

/-- The errors that are found out about are reported in order. -/
theorem reported_noteAll : ∀ (findings : List Finding) (l : Ledger),
    (l.noteAll base findings).reported = l.reported ++ findings.filterMap Finding.error?
  | [], l => (List.append_nil _).symm
  | f :: rest, l => by
      have hrest := reported_noteAll rest (l.note base f)
      have hf : (l.note base f).reported = l.reported ++ f.error?.toList := by
        cases f with
        | segment space node name decl here =>
            simp only [note, Finding.error?, Option.toList_none, List.append_nil]
            cases space <;> split <;> rfl
        | resolved space use decl => cases space <;> simp [note, setResolved, Finding.error?]
        | qualified use path => simp [note, Finding.error?]
        | error e => rfl
        | visit path prefer env outcome => simp [note, Finding.error?]
      refine hrest.trans ?_
      rw [hf, List.append_assoc, List.filterMap_cons]
      cases f.error? <;> rfl

/-- The use sites that are found are entered in order. -/
theorem useSites_noteAll : ∀ (findings : List Finding) (l : Ledger),
    (l.noteAll base findings).useSites =
      l.useSites ++ findings.filterMap (Finding.useSite? base.tables)
  | [], l => (List.append_nil _).symm
  | f :: rest, l => by
      have hrest := useSites_noteAll rest (l.note base f)
      have hf : (l.note base f).useSites =
          l.useSites ++ (f.useSite? base.tables).toList := by
        cases f with
        | segment space node name decl here =>
            simp only [note, Finding.useSite?]
            cases base.tables.visibilities.get? decl <;> cases space <;> simp [setResolved]
        | resolved space use decl => cases space <;> simp [note, setResolved, Finding.useSite?]
        | qualified use path => simp [note, Finding.useSite?]
        | error e => simp [note, Finding.useSite?]
        | visit path prefer env outcome => simp [note, Finding.useSite?]
      refine hrest.trans ?_
      rw [hf, List.append_assoc, List.filterMap_cons]
      cases f.useSite? base.tables <;> rfl

end Ledger

theorem usesOf_append (l₁ l₂ : List Finding) : usesOf (l₁ ++ l₂) = usesOf l₁ ++ usesOf l₂ :=
  List.filterMap_append

theorem Trace.findings_subset {base : Session} {ids : List NodeId} {l : List Finding} {path : Path}
    {prefer : Namespace} {env : Env} {outcome : Option Meaning}
    (h : Trace base ids l path prefer env outcome) : (path.read base env prefer).findings ⊆ l := by
  obtain ⟨before, after, _, rfl, -⟩ := h.apart
  exact fun f hf => List.mem_append_left _ (List.mem_append_right _ hf)

/-- Nothing but the findings of a path that is visited is about its nodes. -/
theorem Trace.not_use {base : Session} {ids : List NodeId} {l : List Finding} {path : Path}
    {prefer : Namespace} {env : Env} {outcome : Option Meaning}
    (h : Trace base ids l path prefer env outcome) (hnodup : ids.Nodup) {id : NodeId}
    (hid : id ∈ path.nodeIds) (hnot : id ∉ usesOf (path.read base env prefer).findings) :
    id ∉ usesOf l := by
  obtain ⟨before, after, rest, rfl, hnodes, huses⟩ := h.apart
  obtain ⟨l, hperm, hsub⟩ := hnodes
  have hdisjoint := (List.nodup_append.mp (hperm.nodup_iff.mp (hnodup.sublist hsub))).2.2
  have hrest : id ∉ usesOf (before ++ after) := fun hin =>
    hdisjoint id hid id (huses.subset hin) rfl
  rw [usesOf_append, List.mem_append, not_or] at hrest
  rw [usesOf_append, usesOf_append, List.mem_append, List.mem_append, not_or, not_or]
  exact ⟨⟨hrest.1, hnot⟩, hrest.2⟩

/-- The end of a path is found out about exactly if the path stands for something. -/
theorem readWhole_cases (base : Session) (env : Env) (prefer : Namespace) (node : Node)
    (segments : List PathSegment) (r : Reading (Option Meaning)) :
    (∃ m space, (readWhole base env prefer node segments r).value = some m ∧
      .resolved space node.id m.decl ∈ (readWhole base env prefer node segments r).findings) ∨
    (readWhole base env prefer node segments r).value = none ∧
      (readWhole base env prefer node segments r).findings = r.findings := by
  unfold readWhole
  cases env.receiver? base prefer segments with
  | some found =>
      refine Or.inl ⟨found.2, .name, rfl, ?_⟩
      simp
  | none =>
      cases hvalue : r.value with
      | none => exact Or.inr ⟨by simp [hvalue], by simp [hvalue]⟩
      | some m => exact Or.inl ⟨m, m.space, by simp [hvalue], by simp [hvalue]⟩

/-! ### What has been entered -/

/-- The tables have what has been found out. -/
structure Tables.Records (t : Tables) (findings : List Finding) : Prop where
  found : ∀ f ∈ findings, ∀ id decl, f.entry? = some (id, decl) → t.resolved? id = some decl
  visited : ∀ path prefer env outcome, .visit path prefer env outcome ∈ findings →
    t.resolved? path.node.id = outcome.map Meaning.decl

namespace Tables.Records

variable {base : Session} {t : Tables} {l l₁ l₂ : List Finding}

theorem mono (h : t.Records l₂) (hl : l₁ ⊆ l₂) : t.Records l₁ where
  found f hf := h.found f (hl hf)
  visited path prefer env outcome hf := h.visited path prefer env outcome (hl hf)

theorem left (h : t.Records (l₁ ++ l₂)) : t.Records l₁ := h.mono (List.subset_append_left _ _)

theorem right (h : t.Records (l₁ ++ l₂)) : t.Records l₂ := h.mono (List.subset_append_right _ _)

/-- A path that has been read is resolved exactly if it stands for something. -/
theorem path {env : Env} {prefer : Namespace} {p : Path}
    (h : t.Records (p.read base env prefer).findings) :
    t.resolved? p.node.id = (p.read base env prefer).value.map Meaning.decl := by
  obtain ⟨node, segments⟩ := p
  refine h.visited ⟨node, segments⟩ prefer env _ ?_
  simp [Path.read]

end Tables.Records

/-- The findings have been entered, and none of them is an error. -/
structure Entered (base : Session) (t : Tables) (findings : List Finding) : Prop
    extends t.Records findings where
  clean : ∀ f ∈ findings, f.error? = none
  containers : ∀ id, t.isContainer id = base.tables.isContainer id

namespace Entered

variable {base : Session} {t : Tables} {l l₁ l₂ : List Finding}

theorem mono (h : Entered base t l₂) (hl : l₁ ⊆ l₂) : Entered base t l₁ where
  toRecords := h.toRecords.mono hl
  clean f hf := h.clean f (hl hf)
  containers := h.containers

theorem left (h : Entered base t (l₁ ++ l₂)) : Entered base t l₁ :=
  h.mono (List.subset_append_left _ _)

theorem right (h : Entered base t (l₁ ++ l₂)) : Entered base t l₂ :=
  h.mono (List.subset_append_right _ _)

theorem no_error {e : ResolveError} (h : Entered base t l) : .error e ∉ l :=
  fun hin => nomatch h.clean _ hin

end Entered

/-! ### Entries of the second pass -/

namespace Crate.SecondPass

variable {c : Crate} {settings : Settings} {base s : Session} (hwf : c.WellFormed)
  (hbase : c.FirstPass settings base) (hs : c.SecondPass base s)

include hs in
/-- The second pass reports the errors that are found out about. -/
theorem reported :
    s.errors.reported =
      base.errors.reported ++ (c.read base).findings.filterMap Finding.error? := by
  change s.ledger.reported = base.ledger.reported ++ _
  rw [hs.ledger, Ledger.reported_noteAll]

include hbase hs in
/-- The use sites of the second pass are all that there are. -/
theorem useSites :
    s.tables.useSites = (c.read base).findings.filterMap (Finding.useSite? base.tables) := by
  change s.ledger.useSites = _
  rw [hs.ledger, Ledger.useSites_noteAll]
  change base.tables.useSites ++ _ = _
  rw [hbase.unresolved.2.2.2, List.nil_append]

include hbase in
/-- Nothing is resolved before the second pass. -/
theorem unresolved (id : NodeId) : base.ledger.resolved? id = none := by
  obtain ⟨hnames, htypes, -⟩ := hbase.unresolved
  unfold Ledger.resolved? Session.ledger
  rw [hnames, htypes]
  rfl

include hwf hbase hs

/-- A node is resolved to what has been found out about it. -/
theorem resolved?_of_found {f : Finding} {id decl : NodeId} (hf : f ∈ (c.read base).findings)
    (hentry : f.entry? = some (id, decl)) : s.tables.resolved? id = some decl := by
  have hnodup : (usesOf (c.read base).findings).Nodup := by
    obtain ⟨l, hperm, hsub⟩ := hs.uses
    exact hperm.nodup_iff.mp ((List.nodup_cons.mp hwf.1).2.sublist hsub)
  change s.ledger.resolved? id = some decl
  rw [hs.ledger]
  exact Ledger.resolved?_noteAll_of_mem hnodup hf hentry (unresolved hbase id)

omit hwf in
/-- A node that nothing has been found out about stays unresolved. -/
theorem resolved?_of_no_entry {id : NodeId}
    (h : ∀ f ∈ (c.read base).findings, ∀ decl, f.entry? ≠ some (id, decl)) :
    s.tables.resolved? id = none := by
  change s.ledger.resolved? id = none
  rw [hs.ledger]
  exact (Ledger.resolved?_noteAll_of_no_entry h).trans (unresolved hbase id)

/-- What a node is resolved to is what has been found out about it, if anything. -/
theorem resolved?_eq_some {id decl : NodeId} : s.tables.resolved? id = some decl ↔
    ∃ f ∈ (c.read base).findings, f.entry? = some (id, decl) := by
  refine ⟨fun hresolved => ?_, fun ⟨f, hf, hentry⟩ => resolved?_of_found hwf hbase hs hf hentry⟩
  by_contra hnone
  have hunresolved : s.tables.resolved? id = none :=
    resolved?_of_no_entry hbase hs fun f hf decl' hentry => by
      have hother := resolved?_of_found hwf hbase hs hf hentry
      rw [hresolved] at hother
      cases hother
      exact hnone ⟨f, hf, hentry⟩
  rw [hresolved] at hunresolved
  cases hunresolved

variable {path : Path} {prefer : Namespace} {env : Env} {outcome : Option Meaning}
  (hvisit : .visit path prefer env outcome ∈ (c.read base).findings)

include hvisit

/-- A node of a path that nothing is found out about stays unresolved. -/
theorem resolved?_of_not_found {id : NodeId} (hid : id ∈ path.nodeIds)
    (hnot : id ∉ usesOf (path.read base env prefer).findings) : s.tables.resolved? id = none := by
  have htrace := hs.traced path prefer env outcome hvisit
  change s.ledger.resolved? id = none
  rw [hs.ledger]
  exact (Ledger.resolved?_noteAll_of_not_use
    (htrace.not_use (List.nodup_cons.mp hwf.1).2 hid hnot)).trans (unresolved hbase id)

/-- A path that is visited is resolved to what it stands for, if it stands for anything. -/
theorem resolved?_of_visit : s.tables.resolved? path.node.id = outcome.map Meaning.decl := by
  have htrace := hs.traced path prefer env outcome hvisit
  obtain ⟨s', hready⟩ := htrace.ready
  obtain ⟨node, segments⟩ := path
  rw [← htrace.value]
  let r := readSegments base env prefer (segments.length == 1) ⟨env.here base, none⟩ segments
  have hread : (Path.read base env prefer ⟨node, segments⟩).findings =
      (readWhole base env prefer node segments r).findings ++
        [.visit ⟨node, segments⟩ prefer env (readWhole base env prefer node segments r).value] :=
    rfl
  rcases readWhole_cases base env prefer node segments r with
    ⟨m, space, hvalue, hfound⟩ | ⟨hvalue, hfindings⟩
  · have hmem := htrace.findings_subset (List.mem_append_left _ hfound)
    rw [resolved?_of_found hwf hbase hs hmem rfl]
    exact congrArg (Option.map Meaning.decl) hvalue.symm
  · -- The path itself is none of the nodes that its segments are made of.
    obtain ⟨_, _, -, -, -, -, hstep⟩ := agrees_walk (hbase.settled hwf) prefer
      (segments.length == 1) segments ⟨env.here base, none⟩
      (fun m hm => absurd hm (Option.not_mem_none m)) hready.tail
    have hnot : node.id ∉ usesOf (Path.read base env prefer ⟨node, segments⟩).findings := by
      rw [hread, usesOf_append, hfindings, List.mem_append, not_or]
      refine ⟨fun hin => ?_, List.not_mem_nil⟩
      exact (List.nodup_cons.mp hready.nodup).1 (hstep.uses.subset hin)
    rw [resolved?_of_not_found hwf hbase hs hvisit List.mem_cons_self hnot]
    exact congrArg (Option.map Meaning.decl) hvalue.symm

omit hvisit

/-- Everything that has been found out about is entered. -/
theorem records : s.tables.Records (c.read base).findings where
  found _ hf _ _ hentry := resolved?_of_found hwf hbase hs hf hentry
  visited _ _ _ _ hvisit := resolved?_of_visit hwf hbase hs hvisit

theorem entered (hclean : (c.read base).findings.filterMap Finding.error? = []) :
    Entered base s.tables (c.read base).findings where
  toRecords := records hwf hbase hs
  clean f hf := List.filterMap_eq_nil_iff.mp hclean f hf
  containers := hs.tables.isContainer

end Crate.SecondPass

end NameResolution
