import Mathlib.Order.Filter.AtTopBot.Basic
import NameResolution.ImplHeader
import NameResolution.Proofs.TypeReader

/-!
# NameResolution.Proofs.TypeTexts

**The written form of a plain type can be read back** (`Ty.isRead`). There is one lemma for each
form that a type can have (`Reads.reference`, `Reads.tuple` and so on), which says that it can be
read if its parts can, with one more unit of fuel. A type has a depth of its own, so nothing is
said of how much fuel it takes, but only that there is enough (`IsRead`).

The same lemmas apply to the form in which a type stands in the header of an implementation
(`Ty.header_isRead`), where it is only the arguments of segments that are written in another way.
-/

namespace NameResolution

open Filter

/-! ### Plain names -/

theorem isWord_of_isPlainName {name : String} (h : isPlainName name) : IsWord name.toList := by
  unfold isPlainName at h
  split at h
  · cases h
  · next c rest heq =>
    simp only [Bool.and_eq_true, List.all_eq_true, Bool.not_eq_true'] at h
    exact ⟨by simp [heq], fun c hc => h.1.1 c (heq ▸ hc)⟩

theorem notMem_typeKeywords {name : String} (h : isPlainName name) : name ∉ typeKeywords := by
  unfold isPlainName at h
  split at h
  · cases h
  · simp only [Bool.and_eq_true, Bool.not_eq_true'] at h
    simpa using h.2

theorem PathIdent.isWord_text {i : PathIdent} (h : i.isPlain) : IsWord i.text.toList := by
  cases i with
  | ident name => exact isWord_of_isPlainName h
  | crate | super | selfModule => simp [IsWord, text, isDelimiter, delimiters]
  | malformed => cases h

theorem PathIdent.ofWord_text {i : PathIdent} (h : i.isPlain) : ofWord i.text = i := by
  cases i with
  | ident name =>
    have hname : name ∉ typeKeywords := notMem_typeKeywords h
    simp [typeKeywords] at hname
    simp [text, ofWord, hname]
  | crate | super | selfModule => rfl
  | malformed => cases h

/-- A plain segment starts with none of the words that start other types than paths. -/
theorem PathIdent.notMem_of_isPlain_ofWord {w : String} (h : (ofWord w).isPlain) :
    w ∉ ["_", "mut", "dyn", "fn"] := by
  intro hw
  simp only [List.mem_cons, List.not_mem_nil, or_false] at hw
  obtain rfl | rfl | rfl | rfl := hw <;> revert h <;> decide

/-- No plain segment starts with a digit. -/
theorem PathIdent.digit_of_isPlain_ofWord {w : String} (h : (ofWord w).isPlain) :
    w.toList.head?.any Char.isDigit = false := by
  unfold ofWord at h
  split at h
  · next hw => simp [hw]
  split at h
  · next hw => simp [hw]
  split at h
  · next hw => simp [hw]
  · change isPlainName w = true at h
    unfold isPlainName at h
    split at h
    · cases h
    · next c rest heq =>
      simp only [Bool.and_eq_true, Bool.not_eq_true'] at h
      simp [heq, h.1.2]

/-- Digits are in words. -/
theorem isDelimiter_of_isDigit {c : Char} (h : c.isDigit) : isDelimiter c = false := by
  have hdelimiters : delimiters.all (!·.isDigit) = true := by decide
  rw [isDelimiter, decide_eq_false_iff_not]
  intro hmem
  have hnot := List.all_eq_true.mp hdelimiters c hmem
  simp [h] at hnot

theorem isDigit_of_mem_toDigits {value : Nat} {c : Char} (hc : c ∈ Nat.toDigits 10 value) :
    c.isDigit :=
  Nat.isDigit_of_mem_toDigits (by decide) (by decide) hc

theorem isWord_toDigits (value : Nat) : IsWord (Nat.toDigits 10 value) :=
  ⟨Nat.toDigits_ne_nil, fun _ hc => isDelimiter_of_isDigit (isDigit_of_mem_toDigits hc)⟩

@[simp] theorem wordValue_toDigits (value : Nat) :
    wordValue (String.ofList (Nat.toDigits 10 value)) = value := by
  rw [wordValue, String.toList_ofList, Nat.ofDigitChars_ten_toDigits]

@[simp] theorem digit_toDigits (value : Nat) :
    (Nat.toDigits 10 value).head?.any Char.isDigit := by
  obtain ⟨c, s, heq⟩ := List.exists_cons_of_ne_nil (Nat.toDigits_ne_nil (b := 10) (n := value))
  have hc : c.isDigit := isDigit_of_mem_toDigits (heq ▸ List.mem_cons_self)
  simp [heq, hc]

/-! ### The forms of paths

A text is read with one unit of fuel more than its parts. -/

section Forms

variable {n : Nat} {texts : List String} {between : String}

theorem Reads.segment {i : PathIdent} (hi : i.isPlain) :
    Reads (readSegment (n + 1)) EndsSegment i.text ⟨default, i, none⟩ := by
  intro rest hrest
  simp [readSegment, nextToken_word (PathIdent.isWord_text hi) hrest.breaks, hrest.openArgs?_eq,
    PathIdent.ofWord_text hi]

theorem Reads.segment_args {i : PathIdent} {types : List Ty} {opening : String} (hi : i.isPlain)
    (hopening : opening ∈ ["<", "::<"]) (hbetween : between ∈ [", ", ","])
    (h : List.Forall₂ (Reads (readTy n) EndsTy) texts types)
    (hn : texts.length < n) :
    Reads (readSegment (n + 1)) EndsSegment
      (i.text ++ opening ++ String.intercalate between texts ++ ">")
      ⟨default, i, some ⟨types, default⟩⟩ := by
  intro rest _
  have hargs := readListed_intercalate '>' between (by decide) hbetween
    (startsItem_readTy n) h hn rest
  have hbreaks : ∀ s, Breaks (opening.toList ++ s) ∧ openArgs? (opening.toList ++ s) = some s := by
    intro s
    simp only [List.mem_cons, List.not_mem_nil, or_false] at hopening
    obtain rfl | rfl := hopening <;> simp [Breaks, isDelimiter, delimiters, openArgs?, skip]
  have hnext := nextToken_word (PathIdent.isWord_text hi)
    (hbreaks ((String.intercalate between texts).toList ++ '>' :: rest)).1
  have heq : (i.text ++ opening ++ String.intercalate between texts ++ ">").toList ++ rest =
      i.text.toList ++ (opening.toList ++
        ((String.intercalate between texts).toList ++ '>' :: rest)) := by
    simp
  rw [heq, readSegment]
  simp only [hnext, (hbreaks _).2, hargs, Option.bind_eq_bind, Option.bind_some,
    PathIdent.ofWord_text hi, String.ofList_toList]
  rfl

theorem Reads.path {segments : List PathSegment} (hne : texts ≠ [])
    (h : List.Forall₂ (Reads (readSegment n) EndsSegment) texts segments)
    (hn : texts.length ≤ n) :
    Reads (readPath (n + 1)) EndsPath (String.intercalate "::" texts) ⟨default, segments⟩ := by
  obtain ⟨t, texts, rfl⟩ := List.exists_cons_of_ne_nil hne
  have hends : ∀ s, EndsPath s → EndsSegment s ∧ skip "::".toList s = none :=
    fun s hs => ⟨.path hs, hs.skip_colons⟩
  intro rest hrest
  have hseparated := Reads.separated "::" hends endsSegment_of_readSegment h hn rest hrest
  generalize String.intercalate "::" (t :: texts) = t at hseparated ⊢
  have hsegments : readSeparated (readSegment n) [':', ':'] n (t.toList ++ rest) =
      some (segments, rest) := hseparated
  simp [readPath, hsegments]

/-! ### The forms of types -/

theorem Reads.never : Reads (readTy (n + 1)) EndsTy "!" (.never default) := by
  intro rest _
  simp [readTy, nextToken, isDelimiter, delimiters]

theorem Reads.inferred : Reads (readTy (n + 1)) EndsTy "_" (.inferred default) := by
  intro rest hrest
  have hword : IsWord "_".toList := by simp [IsWord, isDelimiter, delimiters]
  rw [readTy, nextToken_word hword hrest.path.breaks]
  simp

theorem Reads.ty_path {p : Path} {t : String} (h : Reads (readPath n) EndsPath t p)
    (hp : ∀ s ∈ p.segments.head?, s.ident.isPlain) :
    Reads (readTy (n + 1)) EndsTy t (.path default p) := by
  intro rest hrest
  have hpath := h rest hrest.path
  obtain ⟨w, after, seg, segments, hnext, rfl, hident⟩ := word_of_readPath hpath
  have hw := PathIdent.notMem_of_isPlain_ofWord (hident ▸ hp seg rfl)
  simp only [List.mem_cons, List.not_mem_nil, or_false, not_or] at hw
  simp [readTy, hnext, hw, hpath]

theorem Reads.reference {inner : Ty} {t : String} (mutable : Bool)
    (h : Reads (readTy n) EndsTy t inner) :
    Reads (readTy (n + 1)) EndsTy ((if mutable then "&mut " else "&") ++ t)
      (.reference default mutable inner) := by
  intro rest hrest
  have hinner := h rest hrest
  cases mutable with
  | false => simp [readTy, nextToken, isDelimiter, delimiters, takeMut_of_readTy hinner, hinner]
  | true => simp [readTy, nextToken, isDelimiter, delimiters, takeMut, hinner]

theorem Reads.pointer {inner : Ty} {t : String} (mutable : Bool)
    (h : Reads (readTy n) EndsTy t inner) :
    Reads (readTy (n + 1)) EndsTy ((if mutable then "*mut " else "*const ") ++ t)
      (.pointer default mutable inner) := by
  intro rest hrest
  have hinner := h rest hrest
  cases mutable <;> simp [readTy, nextToken, isDelimiter, delimiters, takeMut, hinner]

theorem Reads.slice {elem : Ty} {t : String} (h : Reads (readTy n) EndsTy t elem) :
    Reads (readTy (n + 1)) EndsTy ("[" ++ t ++ "]") (.slice default elem) := by
  intro rest _
  have helem := h (']' :: rest) (.closer (by decide) _)
  simp [readTy, nextToken, isDelimiter, delimiters, helem, skip]

theorem Reads.array {elem : Ty} {size : Expr} {t t' : String}
    (h : Reads (readTy n) EndsTy t elem) (hsize : Reads (readSize n) EndsPath t' size) :
    Reads (readTy (n + 1)) EndsTy ("[" ++ t ++ "; " ++ t' ++ "]")
      (.array default elem size) := by
  intro rest _
  have helem := h (';' :: ' ' :: (t'.toList ++ ']' :: rest)) (.closer (by decide) _)
  have hsize := hsize (']' :: rest) (.closer (by decide) _)
  simp [readTy, nextToken, isDelimiter, delimiters, helem, skip, hsize]

theorem Reads.tuple {elems : List Ty}
    (h : List.Forall₂ (Reads (readTy n) EndsTy) texts elems)
    (hn : texts.length < n) :
    Reads (readTy (n + 1)) EndsTy ("(" ++ String.intercalate ", " texts ++ ")")
      (.tuple default elems) := by
  intro rest _
  have helems := readListed_intercalate ')' ", " (by decide) (by decide)
    (startsItem_readTy n) h hn rest
  generalize String.intercalate ", " texts = t at helems ⊢
  simp [readTy, nextToken, isDelimiter, delimiters, helems]

theorem Reads.tuple_one {elem : Ty} {t : String} (h : Reads (readTy n) EndsTy t elem)
    (hn : 1 < n) :
    Reads (readTy (n + 1)) EndsTy ("(" ++ t ++ ",)") (.tuple default [elem]) := by
  intro rest _
  simp [readTy, nextToken, isDelimiter, delimiters, readListed_one (startsItem_readTy n) h hn]

theorem Reads.dyn {bounds : List Bound} (hne : texts ≠ [])
    (h : List.Forall₂ (Reads (readBound n) EndsPath) texts bounds)
    (hn : texts.length ≤ n) :
    Reads (readTy (n + 1)) EndsTy ("dyn " ++ String.intercalate " + " texts)
      (.dyn default bounds) := by
  intro rest hrest
  obtain ⟨t, texts, rfl⟩ := List.exists_cons_of_ne_nil hne
  have hends : ∀ s, EndsTy s → EndsPath s ∧ skip " + ".toList s = none :=
    fun s hs => ⟨hs.path, hs.skip_bound⟩
  have hseparated := Reads.separated " + " hends (fun _ _ _ => .blank _) h hn rest hrest
  generalize String.intercalate " + " (t :: texts) = t at hseparated ⊢
  have hbounds : readSeparated (readBound n) [' ', '+', ' '] n (t.toList ++ rest) =
      some (bounds, rest) := hseparated
  simp [readTy, nextToken, isDelimiter, delimiters, hbounds]

theorem Reads.fnPointer {params : List FnPointerParam}
    (h : List.Forall₂ (Reads (readParam n) EndsTy) texts params)
    (hn : texts.length < n) :
    Reads (readTy (n + 1)) EndsTy ("fn(" ++ String.intercalate ", " texts ++ ")")
      (.fnPointer default params none) := by
  intro rest hrest
  have hparams := readListed_intercalate ')' ", " (by decide) (by decide)
    (startsItem_readParam n) h hn rest
  generalize String.intercalate ", " texts = t at hparams ⊢
  simp [readTy, nextToken, isDelimiter, delimiters, hparams, hrest.skip_arrow]

theorem Reads.fnPointer_ret {params : List FnPointerParam} {ret : Ty} {t : String}
    (h : List.Forall₂ (Reads (readParam n) EndsTy) texts params)
    (hret : Reads (readTy n) EndsTy t ret) (hn : texts.length < n) :
    Reads (readTy (n + 1)) EndsTy ("fn(" ++ String.intercalate ", " texts ++ ") -> " ++ t)
      (.fnPointer default params (some ret)) := by
  intro rest hrest
  have hparams := readListed_intercalate ')' ", " (by decide) (by decide)
    (startsItem_readParam n) h hn (' ' :: '-' :: '>' :: ' ' :: (t.toList ++ rest))
  generalize String.intercalate ", " texts = t' at hparams ⊢
  simp [readTy, nextToken, isDelimiter, delimiters, hparams, skip, hret rest hrest]

/-! ### Bounds, parameters and sizes -/

theorem Reads.param {ty : Ty} {t : String} (h : Reads (readTy n) EndsTy t ty) :
    Reads (readParam (n + 1)) EndsTy t ⟨default, none, ty⟩ := by
  intro rest hrest
  simp [readParam, h rest hrest]

theorem Reads.bound_trait {p : Path} {t : String} (h : Reads (readPath n) EndsPath t p) :
    Reads (readBound (n + 1)) EndsPath t (.trait ⟨default, p⟩) := by
  intro rest hrest
  have hpath := h rest hrest
  obtain ⟨w, after, -, -, hnext, -, -⟩ := word_of_readPath hpath
  simp [readBound, hnext, hpath]

theorem Reads.bound_lifetime {name : String} (h : isPlainLifetime name) :
    Reads (readBound (n + 1)) EndsPath name (.lifetime ⟨name, default⟩) := by
  intro rest hrest
  unfold isPlainLifetime at h
  split at h
  · next word heq =>
    have hnext : nextToken (word ++ rest) = some (.word (String.ofList word), rest) := by
      have hword := isWord_of_isPlainName h
      rw [String.toList_ofList] at hword
      exact nextToken_word hword hrest.breaks
    have hname : String.ofList ('\'' :: word) = name := by rw [← heq, String.ofList_toList]
    rw [heq, List.cons_append]
    simp [readBound, nextToken.eq_2, isDelimiter, delimiters, hnext, hname]
  · cases h

theorem Reads.size_path {p : Path} {t : String} (h : Reads (readPath n) EndsPath t p)
    (hp : ∀ s ∈ p.segments.head?, s.ident.isPlain) :
    Reads (readSize (n + 1)) EndsPath t (.path default p) := by
  intro rest hrest
  have hpath := h rest hrest
  obtain ⟨w, after, seg, segments, hnext, rfl, hident⟩ := word_of_readPath hpath
  have hw := PathIdent.digit_of_isPlain_ofWord (hident ▸ hp seg rfl)
  simp [readSize, hnext, hw, hpath]

theorem Reads.size_int (value : Int) :
    Reads (readSize (n + 1)) EndsPath (toString value) (.literal default (.int value)) := by
  intro rest hrest
  cases value with
  | ofNat value =>
    change readSize (n + 1) ((Nat.repr value).toList ++ rest) = _
    rw [Nat.toList_repr, readSize, nextToken_word (isWord_toDigits value) hrest.breaks]
    simp
  | negSucc value =>
    have hnext := nextToken_word (isWord_toDigits (value + 1)) hrest.breaks
    change readSize (n + 1) (("-" ++ Nat.repr (value + 1)).toList ++ rest) = _
    simp [readSize, nextToken.eq_2, isDelimiter, delimiters, hnext, Int.negSucc_eq]

/-- A qualified path as written is read from its first bracket on. -/
theorem Reads.qualified {selfTy : Ty} {associated : PathSegment} {segments : List PathSegment}
    {t t' : String} (hself : Reads (readTy n) EndsTy t selfTy)
    (hpath : Reads (readPath n) EndsPath t' ⟨default, associated :: segments⟩) :
    Reads (readTy (n + 2)) EndsTy ("<" ++ t ++ ">" ++ "::" ++ t')
      (.qualified default ⟨default, ⟨default, selfTy, none⟩, associated, segments⟩) := by
  intro rest hrest
  have hself := hself ('>' :: ':' :: ':' :: (t'.toList ++ rest)) (.closer (by decide) _)
  have hpath := hpath rest hrest.path
  simp [readTy, nextToken, isDelimiter, delimiters, readQualified, hself, skip, hpath]

theorem Reads.qualified_as {selfTy : Ty} {asTrait : Path} {associated : PathSegment}
    {segments : List PathSegment} {t t' t'' : String}
    (hself : Reads (readTy n) EndsTy t selfTy)
    (htrait : Reads (readPath n) EndsPath t' asTrait)
    (hpath : Reads (readPath n) EndsPath t'' ⟨default, associated :: segments⟩) :
    Reads (readTy (n + 2)) EndsTy ("<" ++ t ++ " as " ++ t' ++ ">" ++ "::" ++ t'')
      (.qualified default ⟨default, ⟨default, selfTy, some asTrait⟩, associated, segments⟩) := by
  intro rest hrest
  have hself := hself (' ' :: 'a' :: 's' :: ' ' ::
    (t'.toList ++ '>' :: ':' :: ':' :: (t''.toList ++ rest))) (.asTrait _)
  have htrait := htrait ('>' :: ':' :: ':' :: (t''.toList ++ rest)) (.closer (by decide) _)
  have hpath := hpath rest hrest.path
  simp [readTy, nextToken, isDelimiter, delimiters, readQualified, hself, skip, htrait, hpath]

end Forms

/-! ### With enough fuel -/

/-- With enough fuel, a reader gets `a` out of a text. -/
def IsRead {α : Type} (read : Nat → List Char → Option (α × List Char)) (ends : List Char → Prop)
    (text : String) (a : α) : Prop :=
  ∀ᶠ n in atTop, Reads (read n) ends text a

theorem eventually_of_succ {p : Nat → Prop} (h : ∀ᶠ n in atTop, p (n + 1)) :
    ∀ᶠ n in atTop, p n := by
  rw [← map_add_atTop_eq_nat 1]
  exact h

/-- The same fuel is enough for all things of a list. -/
theorem IsRead.all {α : Type} {read : Nat → List Char → Option (α × List Char)}
    {ends : List Char → Prop} {texts : List String} {as : List α}
    (h : List.Forall₂ (IsRead read ends) texts as) :
    ∀ᶠ n in atTop, List.Forall₂ (Reads (read n) ends) texts as := by
  induction h with
  | nil => exact .of_forall fun _ => .nil
  | cons ha _ ih =>
    filter_upwards [ha, ih] with n ha has using .cons ha has

theorem isRead_segment_args {i : PathIdent} {texts : List String} {types : List Ty}
    {opening between : String} (hi : i.isPlain) (hopening : opening ∈ ["<", "::<"])
    (hbetween : between ∈ [", ", ","]) (h : List.Forall₂ (IsRead readTy EndsTy) texts types) :
    IsRead readSegment EndsSegment (i.text ++ opening ++ String.intercalate between texts ++ ">")
      ⟨default, i, some ⟨types, default⟩⟩ := by
  refine eventually_of_succ ?_
  filter_upwards [IsRead.all h, eventually_gt_atTop texts.length] with n h hn using
    Reads.segment_args hi hopening hbetween h hn

theorem isRead_path {texts : List String} {segments : List PathSegment} (hne : texts ≠ [])
    (h : List.Forall₂ (IsRead readSegment EndsSegment) texts segments) :
    IsRead readPath EndsPath (String.intercalate "::" texts) ⟨default, segments⟩ := by
  refine eventually_of_succ ?_
  filter_upwards [IsRead.all h, eventually_ge_atTop texts.length] with n h hn using
    Reads.path hne h hn

theorem isRead_dyn {t : String} {texts : List String} {bounds : List Bound}
    (h : List.Forall₂ (IsRead readBound EndsPath) (t :: texts) bounds) :
    IsRead readTy EndsTy ("dyn " ++ String.intercalate " + " (t :: texts))
      (.dyn default bounds) := by
  refine eventually_of_succ ?_
  filter_upwards [IsRead.all h, eventually_ge_atTop (t :: texts).length] with n h hn using
    Reads.dyn (List.cons_ne_nil _ _) h hn

theorem isRead_dyn_one {t : String} {bound : TraitBound}
    (h : IsRead readBound EndsPath t (.trait bound)) :
    IsRead readTy EndsTy ("dyn " ++ t) (.dyn default [.trait bound]) := by
  have hone := isRead_dyn (.cons h .nil)
  rwa [String.intercalate_singleton] at hone

theorem Path.isPlain_head {p : Path} (h : p.isPlain) :
    ∀ s ∈ p.shape.segments.head?, s.ident.isPlain := by
  obtain ⟨_, _ | ⟨⟨_, ident, _ | args⟩, rest⟩⟩ := p
  · cases h
  all_goals
    simp only [Path.isPlain, segmentsPlain, PathSegment.isPlain, Bool.and_eq_true] at h
    rintro s ⟨⟩
  · exact h.2.1
  · exact h.2.1.1

/-! ### Trees -/

mutual

theorem Path.isRead : ∀ p : Path, p.isPlain → IsRead readPath EndsPath p.text p.shape
  | ⟨_, []⟩, h => by cases h
  | ⟨_, s :: rest⟩, h => by
    rw [Path.isPlain, Bool.and_eq_true] at h
    exact isRead_path (by simp [segmentTexts]) (segments_areRead (s :: rest) h.2)

theorem segments_areRead : ∀ segments : List PathSegment, segmentsPlain segments →
    List.Forall₂ (IsRead readSegment EndsSegment) (segmentTexts segments) (segmentShapes segments)
  | [], _ => .nil
  | s :: rest, h => by
    rw [segmentsPlain, Bool.and_eq_true] at h
    exact .cons (s.isRead h.1) (segments_areRead rest h.2)

theorem PathSegment.isRead : ∀ s : PathSegment, s.isPlain →
    IsRead readSegment EndsSegment s.text s.shape
  | ⟨_, ident, none⟩, h => eventually_of_succ (.of_forall fun _ => Reads.segment h)
  | ⟨_, ident, some ⟨[], _⟩⟩, h => by
    rw [PathSegment.isPlain, Bool.and_eq_true] at h
    exact eventually_of_succ (.of_forall fun _ => Reads.segment h.1)
  | ⟨node, ident, some ⟨t :: ts, span⟩⟩, h => by
    rw [PathSegment.isPlain, Bool.and_eq_true, GenericArgs.isPlain, tysPlain, Bool.and_eq_true] at h
    have hts : List.Forall₂ (IsRead readTy EndsTy) (tyTexts (t :: ts)) (tyShapes (t :: ts)) :=
      .cons (t.isRead h.2.1) (tys_areRead ts h.2.2)
    have htext : ident.text ++ "<" ++ String.intercalate ", " (tyTexts (t :: ts)) ++ ">" =
        PathSegment.text ⟨node, ident, some ⟨t :: ts, span⟩⟩ := by
      simp only [PathSegment.text, GenericArgs.text, String.append_assoc]
    rw [← htext]
    exact isRead_segment_args h.1 (by decide) (by decide) hts

theorem tys_areRead : ∀ ts : List Ty, tysPlain ts →
    List.Forall₂ (IsRead readTy EndsTy) (tyTexts ts) (tyShapes ts)
  | [], _ => .nil
  | t :: ts, h => by
    rw [tysPlain, Bool.and_eq_true] at h
    exact .cons (t.isRead h.1) (tys_areRead ts h.2)

/-- The shape of a plain type is read back from its written form. -/
theorem Ty.isRead : ∀ t : Ty, t.isPlain → IsRead readTy EndsTy t.text t.shape
  | .path _ p, h =>
    eventually_of_succ ((p.isRead h).mono fun _ hp => Reads.ty_path hp (Path.isPlain_head h))
  | .qualified _ p, h => p.isRead h
  | .tuple _ elems, h => by
    have helems := tys_areRead elems h
    refine eventually_of_succ ?_
    match elems, helems with
    | [t], .cons ht .nil =>
      filter_upwards [ht, eventually_gt_atTop 1] with n ht hn using Reads.tuple_one ht hn
    | [], helems =>
      filter_upwards [IsRead.all helems, eventually_gt_atTop 0] with n helems hn using
        Reads.tuple helems hn
    | t :: t' :: ts, helems =>
      filter_upwards [IsRead.all helems, eventually_gt_atTop (tyTexts (t :: t' :: ts)).length]
        with n helems hn using Reads.tuple helems hn
  | .array _ elem size, h => by
    rw [Ty.isPlain, Bool.and_eq_true] at h
    refine eventually_of_succ ?_
    filter_upwards [elem.isRead h.1, size.size_isRead h.2] with n helem hsize using
      Reads.array helem hsize
  | .slice _ elem, h => eventually_of_succ ((elem.isRead h).mono fun _ => Reads.slice)
  | .reference _ mutable inner, h =>
    eventually_of_succ ((inner.isRead h).mono fun _ => Reads.reference mutable)
  | .pointer _ mutable inner, h =>
    eventually_of_succ ((inner.isRead h).mono fun _ => Reads.pointer mutable)
  | .dynOne _ bound, h => isRead_dyn_one (bound.isRead h)
  | .dyn _ [], h => by cases h
  | .dyn _ (b :: bs), h => by
    rw [Ty.isPlain, Bool.and_eq_true] at h
    exact isRead_dyn (bounds_areRead (b :: bs) h.2)
  | .fnPointer _ params none, h => by
    refine eventually_of_succ ?_
    filter_upwards [IsRead.all (params_areRead params h),
      eventually_gt_atTop (paramTexts params).length] with n hparams hn using
      Reads.fnPointer hparams hn
  | .fnPointer _ params (some ret), h => by
    rw [Ty.isPlain, Bool.and_eq_true] at h
    refine eventually_of_succ ?_
    filter_upwards [IsRead.all (params_areRead params h.1), ret.isRead h.2,
      eventually_gt_atTop (paramTexts params).length] with n hparams hret hn using
      Reads.fnPointer_ret hparams hret hn
  | .inferred _, _ => eventually_of_succ (.of_forall fun _ => Reads.inferred)
  | .never _, _ => eventually_of_succ (.of_forall fun _ => Reads.never)

theorem QualifiedPath.isRead : ∀ q : QualifiedPath, q.isPlain →
    IsRead readTy EndsTy q.text (.qualified default q.shape)
  | ⟨_, ⟨_, selfTy, none⟩, associated, rest⟩, h => by
    simp only [QualifiedPath.isPlain, Qualifier.isPlain, Bool.and_eq_true] at h
    obtain ⟨⟨hself, hassociated⟩, hrest⟩ := h
    have hpath := isRead_path (List.cons_ne_nil _ _)
      (.cons (associated.isRead hassociated) (segments_areRead rest hrest))
    refine eventually_of_succ (eventually_of_succ ?_)
    filter_upwards [selfTy.isRead hself, hpath] with n hself hpath
    rw [QualifiedPath.text, Qualifier.text, String.intercalate_cons_cons]
    exact Reads.qualified hself hpath
  | ⟨_, ⟨_, selfTy, some asTrait⟩, associated, rest⟩, h => by
    simp only [QualifiedPath.isPlain, Qualifier.isPlain, Bool.and_eq_true] at h
    obtain ⟨⟨⟨hself, htrait⟩, hassociated⟩, hrest⟩ := h
    have hpath := isRead_path (List.cons_ne_nil _ _)
      (.cons (associated.isRead hassociated) (segments_areRead rest hrest))
    refine eventually_of_succ (eventually_of_succ ?_)
    filter_upwards [selfTy.isRead hself, asTrait.isRead htrait, hpath] with n hself htrait hpath
    rw [QualifiedPath.text, Qualifier.text, String.intercalate_cons_cons]
    exact Reads.qualified_as hself htrait hpath

theorem TraitBound.isRead : ∀ b : TraitBound, b.isPlain →
    IsRead readBound EndsPath b.text (.trait b.shape)
  | ⟨_, p⟩, h => eventually_of_succ ((p.isRead h).mono fun _ => Reads.bound_trait)

theorem Bound.isRead : ∀ b : Bound, b.isPlain → IsRead readBound EndsPath b.text b.shape
  | .trait bound, h => bound.isRead h
  | .lifetime _, h => eventually_of_succ (.of_forall fun _ => Reads.bound_lifetime h)

theorem bounds_areRead : ∀ bs : List Bound, boundsPlain bs →
    List.Forall₂ (IsRead readBound EndsPath) (boundTexts bs) (boundShapes bs)
  | [], _ => .nil
  | b :: bs, h => by
    rw [boundsPlain, Bool.and_eq_true] at h
    exact .cons (b.isRead h.1) (bounds_areRead bs h.2)

theorem params_areRead : ∀ ps : List FnPointerParam, paramsPlain ps →
    List.Forall₂ (IsRead readParam EndsTy) (paramTexts ps) (paramShapes ps)
  | [], _ => .nil
  | ⟨_, _, ty⟩ :: ps, h => by
    rw [paramsPlain, Bool.and_eq_true] at h
    exact .cons (eventually_of_succ ((ty.isRead h.1).mono fun _ => Reads.param))
      (params_areRead ps h.2)

theorem Expr.size_isRead : ∀ size : Expr, size.isPlainSize →
    IsRead readSize EndsPath size.text size.sizeShape
  | .literal _ (.int value), _ => eventually_of_succ (.of_forall fun _ => Reads.size_int value)
  | .path _ p, h =>
    eventually_of_succ ((p.isRead h).mono fun _ hp => Reads.size_path hp (Path.isPlain_head h))

end

/-! ### Headers of implementations -/

theorem PathSegment.isRead_canonicalText : ∀ s : PathSegment, s.isPlain →
    IsRead readSegment EndsSegment (s.canonicalText true) s.shape
  | ⟨_, ident, none⟩, h => eventually_of_succ (.of_forall fun _ => Reads.segment h)
  | ⟨_, ident, some ⟨[], _⟩⟩, h => by
    rw [PathSegment.isPlain, Bool.and_eq_true] at h
    exact eventually_of_succ (.of_forall fun _ => Reads.segment h.1)
  | ⟨node, ident, some ⟨t :: ts, span⟩⟩, h => by
    rw [PathSegment.isPlain, Bool.and_eq_true, GenericArgs.isPlain] at h
    have htext : ident.text ++ "::<" ++ String.intercalate "," (tyTexts (t :: ts)) ++ ">" =
        PathSegment.canonicalText ⟨node, ident, some ⟨t :: ts, span⟩⟩ true := by
      change _ = ident.text ++ "::" ++ canonicalArgs (t :: ts)
      rw [canonicalArgs, show "::<" = "::" ++ "<" from rfl]
      simp only [String.append_assoc]
    rw [← htext]
    exact isRead_segment_args h.1 (by decide) (by decide) (tys_areRead (t :: ts) h.2)

/-- The header of an implementation has the texts of the segments of a path. -/
theorem headerSegments_areRead : ∀ segments : List PathSegment, segmentsPlain segments →
    List.Forall₂ (IsRead readSegment EndsSegment) (segments.map (·.canonicalText true))
      (segmentShapes segments)
  | [], _ => .nil
  | s :: rest, h => by
    rw [segmentsPlain, Bool.and_eq_true] at h
    exact .cons (s.isRead_canonicalText h.1) (headerSegments_areRead rest h.2)

theorem ident_ne_malformed : ∀ {segments : List PathSegment}, segmentsPlain segments →
    ∀ s ∈ segments, s.ident ≠ .malformed
  | ⟨_, ident, generics⟩ :: rest, h, s, hs => by
    rw [segmentsPlain, Bool.and_eq_true] at h
    rcases List.mem_cons.mp hs with rfl | hs
    · rintro (rfl : ident = .malformed)
      cases generics <;> cases h.1
    · exact ident_ne_malformed h.2 s hs

/-- All segments of a path are in its header, if all of them could be read. -/
theorem Path.headerPath_eq (withArgs : Bool) {p : Path}
    (h : ∀ s ∈ p.segments, s.ident ≠ .malformed) :
    p.headerPath withArgs =
      .ok ⟨p.segments.map fun s => (s.node.id, s.canonicalText withArgs)⟩ := by
  obtain ⟨_, segments⟩ := p
  unfold headerPath
  change (segments.mapM _ >>= _) = _
  have hsegments : segments.mapM (fun s => if s.ident = .malformed then Except.error s
      else .ok (s.node.id, s.canonicalText withArgs)) =
        .ok (segments.map fun s => (s.node.id, s.canonicalText withArgs)) := by
    induction segments with
    | nil => rfl
    | cons s rest ih =>
      rw [List.mapM_cons, if_neg (h s List.mem_cons_self),
        ih fun s hs => h s (List.mem_cons_of_mem _ hs)]
      rfl
  rw [hsegments]
  rfl

theorem Path.header_isRead {p : Path} (h : p.isPlain) : ∃ header, p.headerPath true = .ok header ∧
    IsRead readPath EndsPath header.text p.shape := by
  obtain ⟨node, _ | ⟨s, rest⟩⟩ := p
  · cases h
  rw [Path.isPlain, Bool.and_eq_true] at h
  refine ⟨_, Path.headerPath_eq true (ident_ne_malformed h.2), ?_⟩
  have htexts : CanonicalPath.texts ⟨(s :: rest).map fun s => (s.node.id, s.canonicalText true)⟩ =
      (s :: rest).map (·.canonicalText true) := by
    simp [CanonicalPath.texts, Function.comp_def]
  rw [CanonicalPath.text, htexts]
  exact isRead_path (List.cons_ne_nil _ _) (headerSegments_areRead _ h.2)

/-- Whatever is no path is a header of one segment. -/
theorem isRead_single {t : Ty} {text : String} (id : NodeId) (h : IsRead readTy EndsTy text t) :
    ∃ header, Except.ok (CanonicalPath.single id text) = (.ok header : Except PathSegment _) ∧
      IsRead readTy EndsTy header.text t :=
  ⟨_, rfl, (CanonicalPath.text_single id text).symm ▸ h⟩

/-- The header that is made of a plain type can be read as the type is. -/
theorem Ty.header_isRead : ∀ t : Ty, t.isPlain → ∃ header, t.headerPath true = .ok header ∧
    IsRead readTy EndsTy header.text t.shape
  | .path _ p, h => by
    obtain ⟨header, hheader, hread⟩ := p.header_isRead h
    exact ⟨header, hheader, eventually_of_succ (hread.mono fun _ hp =>
      Reads.ty_path hp (Path.isPlain_head h))⟩
  | .reference node mutable inner, h => by
    obtain ⟨header, hheader, hread⟩ := inner.header_isRead h
    rw [Ty.headerPath, hheader]
    exact isRead_single node.id (eventually_of_succ (hread.mono fun _ => Reads.reference mutable))
  | .pointer node mutable inner, h => by
    obtain ⟨header, hheader, hread⟩ := inner.header_isRead h
    rw [Ty.headerPath, hheader]
    exact isRead_single node.id (eventually_of_succ (hread.mono fun _ => Reads.pointer mutable))
  | .slice node elem, h => by
    obtain ⟨header, hheader, hread⟩ := elem.header_isRead h
    rw [Ty.headerPath, hheader]
    exact isRead_single node.id (eventually_of_succ (hread.mono fun _ => Reads.slice))
  | .qualified node q, h => isRead_single node.id ((Ty.qualified node q).isRead h)
  | .tuple node elems, h => isRead_single node.id ((Ty.tuple node elems).isRead h)
  | .array node elem size, h => isRead_single node.id ((Ty.array node elem size).isRead h)
  | .dynOne node bound, h => isRead_single node.id ((Ty.dynOne node bound).isRead h)
  | .dyn node bounds, h => isRead_single node.id ((Ty.dyn node bounds).isRead h)
  | .fnPointer node params ret, h => isRead_single node.id ((Ty.fnPointer node params ret).isRead h)
  | .inferred node, h => isRead_single node.id ((Ty.inferred node).isRead h)
  | .never node, h => isRead_single node.id ((Ty.never node).isRead h)

end NameResolution
