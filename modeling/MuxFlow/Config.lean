import MuxFlow.Options
import MuxFlow.Yaml.Node.OfTokens
import MuxFlow.Yaml.Writer

/-!
# Option files

Options can be kept in a YAML file: a mapping of at most three settings, none of
them twice. What the file does not mention, or mentions without a value, keeps
its default. A mapping may take settings over from others with `<<`; its own
settings win over those, and earlier ones over later ones.
-/

namespace MuxFlow.Config

open Yaml (Meaning)

/-- The trouble with a file that is no option file. -/
def malformed (why : String) : Fault :=
  .caused { phase := .config, kind := .invalidData, detail := "decode config" } (.plain why)

/-! ## Settings -/

/-- A part of a setting that cannot be read is `none`; one that says nothing, and
so changes nothing, is `none` inside. -/
abbrev Reading (α : Type) := Option (Option α)

/-- The meaning of a scalar, with its text: the bytes of a binary one count as a
text. -/
def meaning? : Yaml.Node → Option (Meaning × String)
  | .scalar tag s =>
    if tag = "!!binary" then (Yaml.binaryText? s).map fun t => (.text t, t)
    else (Yaml.resolve? tag s).map fun m => (m, s)
  | .aliasOf _ (some (.scalar tag s)) =>
    if tag = "!!binary" then (Yaml.binaryText? s).map fun t => (.text t, t)
    else (Yaml.resolve? tag s).map fun m => (m, s)
  | _ => none

/-- A text: any scalar as it is written. -/
def text? (n : Yaml.Node) : Reading String :=
  (meaning? n).map fun
    | (.null, _) => none
    | (_, s) => some s

/-- A truth value, in the spellings of two versions of the standard. -/
def flag? (n : Yaml.Node) : Reading Bool :=
  (meaning? n).bind fun
    | (.null, _) => some none
    | (.bool b, _) => some (some b)
    | (.text s, _) =>
      if s ∈ Yaml.truthWords.take 8 then some (some true)
      else if s ∈ Yaml.truthWords.drop 8 then some (some false)
      else none
    | _ => none

/-- The least whole number of 64 bits. -/
def leastInt : Int := -0x8000000000000000

/-- A whole number of 64 bits. Decimals are cut off at the point; those below the
least number, and `2 ^ 63` itself, become the least number. -/
def count? (n : Yaml.Node) : Reading Int :=
  (meaning? n).bind fun
    | (.null, _) => some none
    | (.int k, _) => if k < 0x8000000000000000 then some (some k) else none
    | (.float x, _) =>
      match x.truncate? with
      | some k => some (some k)
      | none =>
        if x.negative ∨ x = ⟨false, Binary64.leastFull, 11⟩ then some (some leastInt) else none
    | (.infinity true, _) => some (some leastInt)
    | _ => none

/-- Changes the setting with a name; none if there is no such setting or the
value is of the wrong kind. -/
def set? (o : Options) (name : String) (v : Yaml.Node) : Option Options :=
  match name with
  | "mode" => (text? v).map fun x => { o with mode := x.getD o.mode }
  | "include_control" =>
    (flag? v).map fun x => { o with includeControl := x.getD o.includeControl }
  | "workers" => (count? v).map fun x => { o with workers := x.getD o.workers }
  | _ => none

/-! ## Mappings -/

/-- Whether a key asks for settings to be taken over. -/
def isMerge : Yaml.Node → Bool
  | .scalar tag s => tag = "!!merge" && s = "<<"
  | _ => false

/-- What makes two keys the same: their kind and their text. -/
def keyIdentity (n : Yaml.Node) : Nat × String :=
  match n with
  | .scalar _ s => (0, s)
  | .sequence _ => (1, "")
  | .mapping _ => (2, "")
  | .aliasOf name _ => (3, name)

/-- Whether no key of a mapping occurs twice. -/
def keysDiffer (es : List (Yaml.Node × Yaml.Node)) : Bool :=
  decide ((es.map fun e => keyIdentity e.1).Nodup)

/-- The settings that have been read. -/
structure Progress where
  options : Options
  /-- The names that later mappings cannot change any more; none while nothing is
  taken over. -/
  taken : Option (List String) := none
  /-- The names that the current mapping has set. -/
  done : List String := []

/-- Reads one entry of a mapping. -/
def entry? (p : Progress) (e : Yaml.Node × Yaml.Node) : Option Progress :=
  if isMerge e.1 then some p
  else
    match text? e.1 with
    | none => none
    | some none => some p
    | some (some name) =>
      if (p.taken.getD []).contains name then some p
      else if p.done.contains name then none
      else
        (set? p.options name e.2).map fun options =>
          { options, taken := p.taken.map (name :: ·), done := name :: p.done }

/-- The names of the settings of a mapping. -/
def names (es : List (Yaml.Node × Yaml.Node)) : List String :=
  es.filterMap fun e => (text? e.1).join

mutual

/-- Reads a mapping. Where settings are taken over, an alias of a mapping will do
as well, and if `many` holds also a list of mappings. -/
def fill? (many : Bool) (p : Progress) : Yaml.Node → Option Progress
  | .mapping es =>
    if keysDiffer es then
      (es.foldlM entry? { p with done := [] }).bind fun q =>
        (takeOver? { q with taken := some (q.taken.getD (names es)) } es).map fun r =>
          { r with taken := p.taken.bind fun _ => r.taken }
    else none
  | .aliasOf _ (some n) => fill? false p n
  | .sequence ns => if many then fillAll? p ns else none
  | _ => none

/-- Reads mappings one after the other. -/
def fillAll? (p : Progress) : List Yaml.Node → Option Progress
  | [] => some p
  | n :: ns => (fill? false p n).bind fun p => fillAll? p ns

/-- Reads the mappings that a mapping takes settings over from. -/
def takeOver? (p : Progress) : List (Yaml.Node × Yaml.Node) → Option Progress
  | [] => some p
  | (k, v) :: es => if isMerge k then fill? true p v else takeOver? p es

end

/-- The settings of a document. -/
def ofNode? (o : Options) : Yaml.Node → Option Options
  | .scalar tag s =>
    match Yaml.resolve? tag s with
    | some .null => some o
    | _ => none
  | .mapping es => (fill? false { options := o } (.mapping es)).map Progress.options
  | _ => none

/-- The options of a file, checked. -/
def read (source : Text.Source) : Except Fault Options := do
  let o ←
    match Yaml.Node.read? source with
    | none => .error (malformed "malformed YAML")
    | some none => .ok Options.default
    | some (some n) =>
      match ofNode? Options.default n with
      | none => .error (malformed "not a mapping of known settings")
      | some o => .ok o
  o.validate
  .ok o

/-- The file of options. Words that other readers would take for truth values are
quoted. -/
def text (o : Options) : String :=
  Yaml.documentText true
    [(.text "mode", .text o.mode),
      (.text "include_control", .scalar "!!bool" (if o.includeControl then "true" else "false")),
      (.text "workers", .scalar "!!int" (toString o.workers))]

end MuxFlow.Config
