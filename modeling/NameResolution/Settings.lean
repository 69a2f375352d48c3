/-!
# NameResolution.Settings

**The settings of a resolution**, as read from a TOML text such as

```
[crate]
name = "demo"
prefix_crate_name = false

[resolve]
check_privacy = true
max_diagnostics = 0
```

Every key may be left out, and no other key is allowed. A section may also be given as an
array of its values in the order above; missing ones have their default, and values beyond
the last one are ignored.

What a text says as a document, and what there is at the path of a file, is for others to find
out: the functions below are given the one as a parser and the other as a `FileEntry`.
-/

namespace NameResolution

/-- What can be set for a resolution. -/
structure Settings where
  /-- The name of the crate that is resolved. -/
  crateName : String := "main"
  /-- Whether every canonical path starts with the name of the crate. -/
  prefixCrateName : Bool := false
  /-- Whether uses of declarations that cannot be seen are reported. -/
  checkPrivacy : Bool := true
  /-- How many errors to keep; zero keeps them all. -/
  maxDiagnostics : Nat := 0
  deriving DecidableEq, Repr

/-- What is found at a path. -/
inductive FileEntry
  | missing
  /-- Something that is there but has no content to read. -/
  | directory
  | file (content : ByteArray)

/-- Why settings could not be had. -/
inductive SettingsError
  /-- There is no file at the path. -/
  | notFound (path : String)
  /-- The file cannot be read as text. -/
  | readError
  /-- The text is not well formed, or a key or a value has no place in it. -/
  | parseError
  /-- A value is of the right kind but not acceptable. -/
  | invalidValue (key message : String)
  deriving DecidableEq, Repr

namespace SettingsError

/-- The wording of the errors that depend on the settings alone. What is wrong with a file or a
text is for the system and the grammar to say. -/
def message? : SettingsError → Option String
  | notFound path => some ("Configuration file not found: " ++ path)
  | readError | parseError => none
  | invalidValue key message => some ("Invalid value for `" ++ key ++ "`: " ++ message)

/-- The code that identifies the kind of error. -/
def code : SettingsError → String
  | notFound _ => "CONFIG-001"
  | readError => "CONFIG-002"
  | parseError => "CONFIG-003"
  | invalidValue _ _ => "CONFIG-004"

/-- Advice on how to mend the error, where there is any. -/
def help : SettingsError → Option String
  | notFound _ =>
    some "Pass the path of an existing osprey.toml, or use the default configuration"
  | readError => some "Check file permissions and ensure the file is not corrupted"
  | parseError =>
    some "Check the TOML syntax and the names of the [crate] and [resolve] keys"
  | invalidValue _ _ => none

end SettingsError

namespace Settings

/-- A value of a document. -/
inductive Value
  | string (value : String)
  | integer (value : Int)
  | boolean (value : Bool)
  /-- A float, a date or a time, of which no setting is one. -/
  | other
  | array (elems : List Value)
  | table (entries : List (String × Value))

/-- What a text says: its keys with their values. -/
abbrev Document := List (String × Value)

/-! ## Reading -/

/-- A string value. -/
def string? : Value → Option String
  | .string s => some s
  | _ => none

/-- A truth value. -/
def boolean? : Value → Option Bool
  | .boolean b => some b
  | _ => none

/-- A number that is not negative. -/
def natural? : Value → Option Nat
  | .integer n => if 0 ≤ n then some n.toNat else none
  | _ => none

/-- The values of a section in the order of its keys, none for a key that is left out. -/
def fields? (keys : List String) : Value → Option (List (Option Value))
  | .table entries =>
    if entries.all fun (key, _) => keys.contains key then
      some (keys.map fun key => entries.lookup key)
    else none
  | .array elems => some ((List.range keys.length).map fun i => elems[i]?)
  | .string _ | .integer _ | .boolean _ | .other => none

/-- The value of a field, or its default if it is left out. -/
def field? (read : Value → Option α) (default : α) (fields : List (Option Value)) (index : Nat) :
    Option α :=
  match fields[index]?.join with
  | none => some default
  | some v => read v

/-- The settings with those of the section `[crate]`. -/
def withCrateSection? (s : Settings) (v : Value) : Option Settings := do
  let fields ← fields? ["name", "prefix_crate_name"] v
  let crateName ← field? string? s.crateName fields 0
  let prefixCrateName ← field? boolean? s.prefixCrateName fields 1
  return { s with crateName, prefixCrateName }

/-- The settings with those of the section `[resolve]`. -/
def withResolveSection? (s : Settings) (v : Value) : Option Settings := do
  let fields ← fields? ["check_privacy", "max_diagnostics"] v
  let checkPrivacy ← field? boolean? s.checkPrivacy fields 0
  let maxDiagnostics ← field? natural? s.maxDiagnostics fields 1
  return { s with checkPrivacy, maxDiagnostics }

/-- The settings that a document describes. -/
def ofDocument? (document : Document) : Option Settings :=
  document.foldlM (fun s (key, v) =>
    if key = "crate" then s.withCrateSection? v
    else if key = "resolve" then s.withResolveSection? v
    else none) {}

/-! ## Checking -/

/-- Whether a character may stand in the name of a crate. -/
def isNameChar (c : Char) : Bool := c.isAlphanum || c == '_' || c == '-'

/-- Whether a text can be the name of a crate: letters, digits, `_` and `-` of ASCII, at least
one of them. -/
def isCrateName (name : String) : Bool := !name.isEmpty && name.toList.all isNameChar

/-- Refuse settings whose crate name is none. -/
def validate (s : Settings) : Except SettingsError Settings :=
  if isCrateName s.crateName then .ok s
  else .error (.invalidValue "crate.name" ("`" ++ s.crateName ++ "` is not a valid crate name"))

/-- The settings that a text describes. The parser answers with what the text says, unless it is not
well formed. -/
def ofText (parse : String → Option Document) (text : String) : Except SettingsError Settings :=
  match parse text >>= ofDocument? with
  | none => .error .parseError
  | some s => s.validate

/-! ## Files -/

/-- The settings in what is found at a path. -/
def load (parse : String → Option Document) (path : String) (entry : FileEntry) :
    Except SettingsError Settings :=
  match entry with
  | .missing => .error (.notFound path)
  | .directory => .error .readError
  | .file content =>
    match String.fromUTF8? content with
    | none => .error .readError
    | some text => ofText parse text

/-! ## What has been read has been checked -/

theorem eq_of_validate {s s' : Settings} (h : s.validate = .ok s') :
    s' = s ∧ isCrateName s.crateName = true := by
  unfold validate at h
  split at h
  · next hname => exact ⟨(Except.ok.inj h).symm, hname⟩
  · cases h

/-- The default settings are acceptable. -/
theorem validate_default : validate {} = .ok {} := rfl

/-- Whatever a parser makes of a text, the settings that come out of it have a proper crate name. -/
theorem isCrateName_of_ofText {parse : String → Option Document} {text : String} {s : Settings}
    (h : ofText parse text = .ok s) : isCrateName s.crateName = true := by
  unfold ofText at h
  split at h
  · cases h
  · obtain ⟨rfl, hname⟩ := eq_of_validate h
    exact hname

/-- So have those that come out of a file. -/
theorem isCrateName_of_load {parse : String → Option Document} {path : String} {entry : FileEntry}
    {s : Settings} (h : load parse path entry = .ok s) : isCrateName s.crateName = true := by
  unfold load at h
  split at h
  · cases h
  · cases h
  · split at h
    · cases h
    · exact isCrateName_of_ofText h

end Settings

end NameResolution
