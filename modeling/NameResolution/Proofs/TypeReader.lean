import Mathlib.Data.List.Forall2
import NameResolution.Tree.Shape

/-!
# NameResolution.Proofs.TypeReader

**Types can be read back from their written forms.** `readTy` reads a type off the front of
a text and says what is left of the text. It reads the arguments of a segment both as they
stand in a type, `A<B, C>`, and as they stand in the header of an implementation,
`A::<B,C>`. What it finds is the shape of the type, since nothing else is written.

A reader is given some fuel, which limits how deep it goes. `Reads` says what a reader gets
out of a text, no matter what comes after the text, as long as that does not make it longer.
-/

namespace NameResolution

/-! ### Words and symbols -/

/-- What a text starts with: a word, or a character that is in no word. -/
inductive Token
  | word (w : String)
  | symbol (c : Char)
  deriving DecidableEq

/-- The first word or symbol of a text, and what comes after it. -/
def nextToken : List Char → Option (Token × List Char)
  | [] => none
  | c :: s =>
    if isDelimiter c then some (.symbol c, s)
    else
      some (.word (String.ofList ((c :: s).takeWhile (!isDelimiter ·))),
        (c :: s).dropWhile (!isDelimiter ·))

/-- What comes after the given characters, if the text starts with them. -/
def skip : List Char → List Char → Option (List Char)
  | [], s => some s
  | _ :: _, [] => none
  | c :: cs, d :: s => if c = d then skip cs s else none

/-- Whether the word `mut` comes first, and what comes after it and a blank. -/
def takeMut (s : List Char) : Bool × List Char :=
  match nextToken s with
  | some (.word w, rest) => if w = "mut" then (true, rest.tail) else (false, s)
  | _ => (false, s)

/-- What comes after a comma, which a blank may follow. -/
def skipComma (s : List Char) : List Char :=
  match skip [',', ' '] s with
  | some rest => rest
  | none => (skip [','] s).getD s

/-- What comes after the bracket that opens an argument list, if there is one. -/
def openArgs? (s : List Char) : Option (List Char) := (skip ['<'] s).or (skip [':', ':', '<'] s)

/-- The number that a word of digits stands for. -/
def wordValue (w : String) : Nat := Nat.ofDigitChars 10 w.toList 0

/-! ### Readers -/

section Lists

variable {α : Type} (read : List Char → Option (α × List Char))

/-- Read things with the same characters between any two of them, as far as there are any. -/
def readSeparated (between : List Char) : Nat → List Char → Option (List α × List Char)
  | 0, _ => none
  | n + 1, s => do
    let (a, s) ← read s
    match skip between s with
    | none => return ([a], s)
    | some s => do
      let (as, s) ← readSeparated between n s
      return (a :: as, s)

/-- Read things with commas between them up to a closing bracket. -/
def readListed (close : Char) : Nat → List Char → Option (List α × List Char)
  | 0, _ => none
  | n + 1, s =>
    match skip [close] s with
    | some s => some ([], s)
    | none => do
      let (a, s) ← read s
      let (as, s) ← readListed close n (skipComma s)
      return (a :: as, s)

end Lists

mutual

/-- Read a type. -/
def readTy : Nat → List Char → Option (Ty × List Char)
  | 0, _ => none
  | n + 1, s =>
    match nextToken s with
    | none => none
    | some (.symbol c, after) =>
      if c = '!' then some (.never default, after)
      else if c = '&' then do
        let (mutable, s) := takeMut after
        let (inner, s) ← readTy n s
        return (.reference default mutable inner, s)
      else if c = '*' then do
        let (mutable, s) := takeMut after
        let (inner, s) ← readTy n (if mutable then s else s.drop 6)
        return (.pointer default mutable inner, s)
      else if c = '[' then do
        let (elem, s) ← readTy n after
        match skip [';', ' '] s with
        | none => return (.slice default elem, s.tail)
        | some s => do
          let (size, s) ← readSize n s
          return (.array default elem size, s.tail)
      else if c = '(' then do
        let (elems, s) ← readListed (readTy n) ')' n after
        return (.tuple default elems, s)
      else if c = '<' then readQualified n after
      else none
    | some (.word w, after) =>
      if w = "_" then some (.inferred default, after)
      else if w = "mut" then none
      else if w = "dyn" then do
        let (bounds, s) ← readSeparated (readBound n) [' ', '+', ' '] n after.tail
        return (.dyn default bounds, s)
      else if w = "fn" then do
        let (params, s) ← readListed (readParam n) ')' n after.tail
        match skip [' ', '-', '>', ' '] s with
        | none => return (.fnPointer default params none, s)
        | some s => do
          let (ret, s) ← readTy n s
          return (.fnPointer default params (some ret), s)
      else do
        let (p, s) ← readPath n s
        return (.path default p, s)

/-- Read a path that starts from a type, after its first bracket. -/
def readQualified : Nat → List Char → Option (Ty × List Char)
  | 0, _ => none
  | n + 1, s => do
    let (selfTy, s) ← readTy n s
    let (asTrait, s) ← (
      match skip [' ', 'a', 's', ' '] s with
      | none => some (none, s)
      | some s => do
        let (p, s) ← readPath n s
        return (some p, s) : Option (Option Path × List Char))
    match ← readPath n (s.drop 3) with
    | (⟨_, []⟩, _) => none
    | (⟨_, associated :: rest⟩, s) =>
      return (.qualified default ⟨default, ⟨default, selfTy, asTrait⟩, associated, rest⟩, s)

/-- Read a path. -/
def readPath : Nat → List Char → Option (Path × List Char)
  | 0, _ => none
  | n + 1, s => do
    let (segments, s) ← readSeparated (readSegment n) [':', ':'] n s
    return (⟨default, segments⟩, s)

/-- Read a segment and its arguments, if there are any. -/
def readSegment : Nat → List Char → Option (PathSegment × List Char)
  | 0, _ => none
  | n + 1, s =>
    match nextToken s with
    | some (.word w, s) =>
      match openArgs? s with
      | none => some (⟨default, .ofWord w, none⟩, s)
      | some s => do
        let (types, s) ← readListed (readTy n) '>' n s
        return (⟨default, .ofWord w, some ⟨types, default⟩⟩, s)
    | _ => none

/-- Read a bound, which is a lifetime if it starts with a symbol. -/
def readBound : Nat → List Char → Option (Bound × List Char)
  | 0, _ => none
  | n + 1, s =>
    match nextToken s with
    | some (.symbol c, s) =>
      match nextToken s with
      | some (.word w, s) => some (.lifetime ⟨String.ofList (c :: w.toList), default⟩, s)
      | _ => none
    | _ => do
      let (p, s) ← readPath n s
      return (.trait ⟨default, p⟩, s)

/-- Read a parameter of a function pointer, of which only the type is written. -/
def readParam : Nat → List Char → Option (FnPointerParam × List Char)
  | 0, _ => none
  | n + 1, s => do
    let (ty, s) ← readTy n s
    return (⟨default, none, ty⟩, s)

/-- Read the size of an array, which is an integer or a path. -/
def readSize : Nat → List Char → Option (Expr × List Char)
  | 0, _ => none
  | n + 1, s =>
    match nextToken s with
    | some (.symbol _, s) =>
      match nextToken s with
      | some (.word w, s) => some (.literal default (.int (-wordValue w)), s)
      | _ => none
    | some (.word w, after) =>
      if w.toList.head?.any Char.isDigit then
        some (.literal default (.int (wordValue w)), after)
      else do
        let (p, s) ← readPath n s
        return (.path default p, s)
    | none => none

end

/-! ### Reading a text off the front of another one -/

/-- A reader gets `a` out of a text, whatever follows, as long as that ends it. -/
def Reads {α : Type} (read : List Char → Option (α × List Char)) (ends : List Char → Prop)
    (text : String) (a : α) : Prop :=
  ∀ rest, ends rest → read (text.toList ++ rest) = some (a, rest)

/-- A reader gets one thing only out of a text, whichever way the text is split. -/
theorem Reads.unique {α : Type} {read : List Char → Option (α × List Char)}
    {ends : List Char → Prop} {text text' : String} {rest rest' : List Char} {a a' : α}
    (h : Reads read ends text a) (h' : Reads read ends text' a') (hrest : ends rest)
    (hrest' : ends rest') (heq : text.toList ++ rest = text'.toList ++ rest') :
    a = a' ∧ rest = rest' := by
  have hread := (h rest hrest).symm.trans (heq ▸ h' rest' hrest')
  simpa using hread

/-- Characters that form a word. -/
def IsWord (w : List Char) : Prop := w ≠ [] ∧ ∀ c ∈ w, isDelimiter c = false

/-- A word is over where a text does not go on, or goes on with a character that is in no word. -/
def Breaks (s : List Char) : Prop := ∀ c ∈ s.head?, isDelimiter c

/-- Characters that may come after a type. -/
def closers : List Char := [',', ';', ')', ']', '>']

/-- What may come after a type. -/
inductive EndsTy : List Char → Prop
  | nil : EndsTy []
  | closer {c : Char} (h : c ∈ closers) (s : List Char) : EndsTy (c :: s)
  | asTrait (s : List Char) : EndsTy (' ' :: 'a' :: s)

/-- What may come after a path. -/
inductive EndsPath : List Char → Prop
  | nil : EndsPath []
  | closer {c : Char} (h : c ∈ closers) (s : List Char) : EndsPath (c :: s)
  | blank (s : List Char) : EndsPath (' ' :: s)

/-- What may come after a segment: whatever ends the path, or another segment. -/
inductive EndsSegment : List Char → Prop
  | path {s : List Char} (h : EndsPath s) : EndsSegment s
  | segment {c : Char} (h : c ≠ '<') (s : List Char) : EndsSegment (':' :: ':' :: c :: s)

theorem closers_spec {c : Char} (h : c ∈ closers) :
    isDelimiter c ∧ ' ' ≠ c ∧ ':' ≠ c ∧ '<' ≠ c := by
  simp only [closers, List.mem_cons, List.not_mem_nil, or_false] at h
  obtain rfl | rfl | rfl | rfl | rfl := h <;> decide

theorem EndsTy.path {s : List Char} (h : EndsTy s) : EndsPath s := by
  cases h with
  | nil => exact .nil
  | closer h s => exact .closer h s
  | asTrait s => exact .blank _

theorem EndsTy.skip_bound {s : List Char} (h : EndsTy s) : skip [' ', '+', ' '] s = none := by
  cases h with
  | nil | asTrait => rfl
  | closer h s => simp [skip, closers_spec h]

theorem EndsTy.skip_arrow {s : List Char} (h : EndsTy s) :
    skip [' ', '-', '>', ' '] s = none := by
  cases h with
  | nil | asTrait => rfl
  | closer h s => simp [skip, closers_spec h]

theorem EndsPath.breaks {s : List Char} (h : EndsPath s) : Breaks s := by
  cases h with
  | nil => simp [Breaks]
  | closer h s => simpa [Breaks] using (closers_spec h).1
  | blank s => simp [Breaks, isDelimiter, delimiters]

theorem EndsPath.skip_colons {s : List Char} (h : EndsPath s) : skip [':', ':'] s = none := by
  cases h with
  | nil | blank => rfl
  | closer h s => simp [skip, closers_spec h]

theorem EndsSegment.breaks {s : List Char} (h : EndsSegment s) : Breaks s := by
  cases h with
  | path h => exact h.breaks
  | segment => simp [Breaks, isDelimiter, delimiters]

theorem EndsSegment.openArgs?_eq {s : List Char} (h : EndsSegment s) : openArgs? s = none := by
  cases h with
  | path h =>
    cases h with
    | nil | blank => rfl
    | closer h s => simp [openArgs?, skip, closers_spec h]
  | segment h s => simp [openArgs?, skip, Ne.symm h]

theorem nextToken_word {w s : List Char} (hw : IsWord w) (hs : Breaks s) :
    nextToken (w ++ s) = some (.word (String.ofList w), s) := by
  have htake : s.takeWhile (!isDelimiter ·) = [] := by
    cases s with
    | nil => rfl
    | cons c s => simp [hs c rfl]
  have hdrop : s.dropWhile (!isDelimiter ·) = s := by
    cases s with
    | nil => rfl
    | cons c s => simp [hs c rfl]
  obtain ⟨hne, hw⟩ := hw
  have hword : ∀ c ∈ w, !isDelimiter c := by simpa using hw
  cases w with
  | nil => exact absurd rfl hne
  | cons c w =>
    rw [List.cons_append, nextToken, if_neg (by simp [hw]), ← List.cons_append,
      List.takeWhile_append_of_pos hword, List.dropWhile_append_of_pos hword, htake, hdrop,
      List.append_nil]

@[simp] theorem skip_append (between s : List Char) : skip between (between ++ s) = some s := by
  induction between with
  | nil => rfl
  | cons c between ih => simpa [skip] using ih

/-! ### Lists -/

section Lists

variable {α : Type} {read : List Char → Option (α × List Char)} {endsItem ends : List Char → Prop}

theorem read_of_readSeparated {between : List Char} {n : Nat} {s : List Char}
    {r : List α × List Char} (h : readSeparated read between n s = some r) :
    ∃ a, read s = some a := by
  cases n with
  | zero => simp [readSeparated] at h
  | succ n =>
    obtain ⟨a, ha, -⟩ := Option.bind_eq_some_iff.mp h
    exact ⟨a, ha⟩

theorem readSeparated_last {between : List Char} (n : Nat) {s s' : List Char} {a : α}
    (h : read s = some (a, s')) (hskip : skip between s' = none) :
    readSeparated read between (n + 1) s = some ([a], s') := by
  simp [readSeparated, h, hskip]

theorem readSeparated_more {between : List Char} {n : Nat} {s s' s'' : List Char} {a : α}
    {as : List α} (h : read s = some (a, between ++ s'))
    (hmore : readSeparated read between n s' = some (as, s'')) :
    readSeparated read between (n + 1) s = some (a :: as, s'') := by
  simp [readSeparated, h, hmore]

/-- Things are read up to where there is nothing between one and the next. -/
theorem Reads.separated (between : String) {t : String} {texts : List String} {as : List α}
    {n : Nat} (hends : ∀ s, ends s → endsItem s ∧ skip between.toList s = none)
    (hbetween : ∀ s a, read s = some a → endsItem (between.toList ++ s))
    (h : List.Forall₂ (Reads read endsItem) (t :: texts) as)
    (hn : texts.length < n) :
    Reads (readSeparated read between.toList n) ends (String.intercalate between (t :: texts))
      as := by
  intro rest hrest
  induction texts generalizing t as n with
  | nil =>
    obtain ⟨n, rfl⟩ := Nat.exists_eq_add_one.mpr hn
    obtain ⟨a, _, ha, ⟨⟩, rfl⟩ := List.forall₂_cons_left_iff.mp h
    obtain ⟨hitem, hskip⟩ := hends rest hrest
    rw [String.intercalate_singleton]
    exact readSeparated_last n (ha rest hitem) hskip
  | cons t' texts ih =>
    obtain ⟨n, rfl⟩ := Nat.exists_eq_add_one.mpr (Nat.zero_lt_of_lt hn)
    obtain ⟨a, as, ha, has, rfl⟩ := List.forall₂_cons_left_iff.mp h
    have hmore := ih has (Nat.lt_of_succ_lt_succ hn)
    obtain ⟨b, hb⟩ := read_of_readSeparated hmore
    rw [String.intercalate_cons_cons, String.toList_append, String.toList_append,
      List.append_assoc, List.append_assoc]
    exact readSeparated_more (ha _ (hbetween _ b hb)) hmore

theorem read_of_readListed {close : Char} {n : Nat} {s s' : List Char} {a : α} {as : List α}
    (h : readListed read close n s = some (a :: as, s')) : ∃ b, read s = some b := by
  cases n with
  | zero => simp [readListed] at h
  | succ n =>
    rw [readListed] at h
    cases hskip : skip [close] s with
    | some s => simp [hskip] at h
    | none =>
      rw [hskip] at h
      obtain ⟨b, hb, -⟩ := Option.bind_eq_some_iff.mp h
      exact ⟨b, hb⟩

/-- What is read from starts with no blank and no closing bracket. -/
def StartsItem (read : List Char → Option (α × List Char)) : Prop :=
  ∀ s a, read s = some a → ∀ c ∈ s.head?, c ∉ [' ', ')', '>']

theorem StartsItem.skip_close (hstarts : StartsItem read) {close : Char} {s : List Char}
    {a : α × List Char} (hclose : close ∈ [')', '>']) (h : read s = some a) :
    skip [close] s = none := by
  cases s with
  | nil => rfl
  | cons c s =>
    have hc : close ≠ c := fun heq => hstarts _ _ h c rfl (List.mem_cons_of_mem _ (heq ▸ hclose))
    simp [skip, hc]

theorem StartsItem.skipComma_eq (hstarts : StartsItem read) {s : List Char} {a : α × List Char}
    {between : String} (hbetween : between ∈ [", ", ","]) (h : read s = some a) :
    skipComma (between.toList ++ s) = s := by
  simp only [List.mem_cons, List.not_mem_nil, or_false] at hbetween
  obtain rfl | rfl := hbetween
  · simp [skipComma, skip]
  · cases s with
    | nil => rfl
    | cons c s =>
      have hc : ' ' ≠ c := fun heq => hstarts _ _ h c rfl (heq ▸ List.mem_cons_self)
      simp [skipComma, skip, hc]

theorem skipComma_close {close : Char} (hclose : close ∈ [')', '>']) (s : List Char) :
    skipComma (close :: s) = close :: s := by
  simp only [List.mem_cons, List.not_mem_nil, or_false] at hclose
  obtain rfl | rfl := hclose <;> rfl

theorem mem_closers_of_close {close : Char} (hclose : close ∈ [')', '>']) : close ∈ closers := by
  simp only [List.mem_cons, List.not_mem_nil, or_false] at hclose
  obtain rfl | rfl := hclose <;> decide

theorem readListed_more {close : Char} {n : Nat} {s s' s'' : List Char} {a : α} {as : List α}
    (hopen : skip [close] s = none) (h : read s = some (a, s'))
    (hmore : readListed read close n (skipComma s') = some (as, s'')) :
    readListed read close (n + 1) s = some (a :: as, s'') := by
  simp [readListed, hopen, h, hmore]

/-- Things are read up to the bracket that closes the list. -/
theorem readListed_intercalate (close : Char) (between : String) {texts : List String}
    {as : List α} {n : Nat} (hclose : close ∈ [')', '>']) (hbetween : between ∈ [", ", ","])
    (hstarts : StartsItem read) (h : List.Forall₂ (Reads read EndsTy) texts as)
    (hn : texts.length < n) (rest : List Char) :
    readListed read close n ((String.intercalate between texts).toList ++ close :: rest) =
      some (as, rest) := by
  obtain ⟨n, rfl⟩ := Nat.exists_eq_add_one.mpr (Nat.zero_lt_of_lt hn)
  induction texts generalizing as n with
  | nil =>
    cases h
    simp [readListed, skip]
  | cons t texts ih =>
    obtain ⟨n, rfl⟩ := Nat.exists_eq_add_one.mpr (Nat.zero_lt_of_lt (Nat.lt_of_succ_lt_succ hn))
    obtain ⟨a, as, ha, has, rfl⟩ := List.forall₂_cons_left_iff.mp h
    have hmore := ih has n (Nat.lt_of_succ_lt_succ hn)
    cases texts with
    | nil =>
      have hfirst := ha (close :: rest) (.closer (mem_closers_of_close hclose) rest)
      rw [String.intercalate_singleton]
      exact readListed_more (hstarts.skip_close hclose hfirst) hfirst
        ((skipComma_close hclose rest).symm ▸ hmore)
    | cons t' texts =>
      obtain ⟨a', as, -, -, rfl⟩ := List.forall₂_cons_left_iff.mp has
      obtain ⟨b, hb⟩ := read_of_readListed hmore
      have hends : EndsTy (between.toList ++
          ((String.intercalate between (t' :: texts)).toList ++ close :: rest)) := by
        simp only [List.mem_cons, List.not_mem_nil, or_false] at hbetween
        obtain rfl | rfl := hbetween <;> exact .closer (by decide) _
      have hfirst := ha _ hends
      rw [String.intercalate_cons_cons, String.toList_append, String.toList_append,
        List.append_assoc, List.append_assoc]
      exact readListed_more (hstarts.skip_close hclose hfirst) hfirst
        ((hstarts.skipComma_eq hbetween hb).symm ▸ hmore)

/-- A single thing may have a comma after it. -/
theorem readListed_one {t : String} {a : α} {n : Nat} (hstarts : StartsItem read)
    (h : Reads read EndsTy t a) (hn : 1 < n) (rest : List Char) :
    readListed read ')' n (t.toList ++ ',' :: ')' :: rest) = some ([a], rest) := by
  obtain ⟨n, rfl⟩ := Nat.exists_eq_add_of_le' hn
  have hfirst := h (',' :: ')' :: rest) (.closer (by decide) _)
  refine readListed_more (hstarts.skip_close (by decide) hfirst) hfirst ?_
  simp [readListed, skipComma, skip]

end Lists

/-! ### What a text starts with, if something can be read -/

theorem startsItem_readTy (n : Nat) : StartsItem (readTy n) := by
  intro s a h c hc hmem
  cases n with
  | zero => simp [readTy] at h
  | succ n =>
    obtain ⟨s, rfl⟩ := List.head?_eq_some_iff.mp hc
    simp only [List.mem_cons, List.not_mem_nil, or_false] at hmem
    obtain rfl | rfl | rfl := hmem <;> simp [readTy, nextToken, isDelimiter, delimiters] at h

theorem startsItem_readParam (n : Nat) : StartsItem (readParam n) := by
  intro s a h
  cases n with
  | zero => simp [readParam] at h
  | succ n =>
    obtain ⟨b, hb, -⟩ := Option.bind_eq_some_iff.mp h
    exact startsItem_readTy n s b hb

/-- No type starts with the word `mut`. -/
theorem takeMut_of_readTy {n : Nat} {s : List Char} {a : Ty × List Char}
    (h : readTy n s = some a) : takeMut s = (false, s) := by
  cases n with
  | zero => simp [readTy] at h
  | succ n =>
    unfold takeMut
    split
    · next w rest hnext =>
      have hw : w ≠ "mut" := by
        rintro rfl
        simp [readTy, hnext] at h
      rw [if_neg hw]
    · rfl

theorem word_of_readSegment {n : Nat} {s s' : List Char} {seg : PathSegment}
    (h : readSegment n s = some (seg, s')) :
    ∃ w after, nextToken s = some (.word w, after) ∧ seg.ident = .ofWord w := by
  cases n with
  | zero => simp [readSegment] at h
  | succ n =>
    rw [readSegment] at h
    split at h
    · next w after hnext =>
      refine ⟨w, after, hnext, ?_⟩
      split at h
      · cases h
        rfl
      · obtain ⟨_, -, h⟩ := Option.bind_eq_some_iff.mp h
        cases h
        rfl
    · cases h

theorem word_of_readPath {n : Nat} {s s' : List Char} {p : Path}
    (h : readPath n s = some (p, s')) : ∃ w after seg segments,
      nextToken s = some (.word w, after) ∧ p = ⟨default, seg :: segments⟩ ∧
        seg.ident = .ofWord w := by
  cases n with
  | zero => simp [readPath] at h
  | succ n =>
    obtain ⟨⟨segments, _⟩, hsegments, hp⟩ := Option.bind_eq_some_iff.mp h
    cases hp
    cases n with
    | zero => simp [readSeparated] at hsegments
    | succ n =>
      obtain ⟨⟨seg, s₁⟩, hseg, hmore⟩ := Option.bind_eq_some_iff.mp hsegments
      obtain ⟨w, after, hnext, hident⟩ := word_of_readSegment hseg
      dsimp only at hmore
      split at hmore
      · cases hmore
        exact ⟨w, after, seg, _, hnext, rfl, hident⟩
      · obtain ⟨_, -, hmore⟩ := Option.bind_eq_some_iff.mp hmore
        cases hmore
        exact ⟨w, after, seg, _, hnext, rfl, hident⟩

/-- A bracket starts no segment. -/
theorem endsSegment_of_readSegment {n : Nat} (s : List Char) (a : PathSegment × List Char)
    (h : readSegment n s = some a) : EndsSegment (':' :: ':' :: s) := by
  obtain ⟨w, after, hnext, -⟩ := word_of_readSegment h
  cases s with
  | nil => simp [nextToken] at hnext
  | cons c s =>
    refine .segment (fun hc => ?_) s
    simp [hc, nextToken, isDelimiter, delimiters] at hnext

end NameResolution
