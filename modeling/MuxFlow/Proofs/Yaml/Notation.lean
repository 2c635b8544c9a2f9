import MuxFlow.Document.Yaml
import MuxFlow.Proofs.Document.RoundTrip

/-!
# The same document in two notations

A JSON value and its YAML tree say the same: turning a value into a tree and the tree
into a value gives the value back (`toJson_ofJson`). Members keep their order and may be
repeated, and a string is a text under its tag however it is spelled. Numbers are left
out here; no document of a graph has one.

Both turns can be made in one pass. A tree can be put together from the brackets and
scalars of a text, taken one at a time (`ofLexemes?`), and the text of a value can be
written while its tree is gone through (`jsonText`). Neither makes a difference.
-/

namespace MuxFlow

namespace Json

/-- What is met in a text, blanks, commas and colons left out. -/
inductive Lexeme where
  | openArr
  | closeArr
  | openObj
  | closeObj
  | null
  | bool (b : Bool)
  | num (n : Decimal)
  | str (s : String)
  deriving DecidableEq, Repr

mutual

/-- What is met in the text of a value. -/
def lexemes : Json → List Lexeme
  | null => [.null]
  | bool b => [.bool b]
  | num n => [.num n]
  | str s => [.str s]
  | arr items => .openArr :: itemLexemes items
  | obj members => .openObj :: memberLexemes members

/-- What is met in the rest of an array. -/
def itemLexemes : List Json → List Lexeme
  | [] => [.closeArr]
  | v :: vs => lexemes v ++ itemLexemes vs

/-- What is met in the rest of an object. -/
def memberLexemes : List (String × Json) → List Lexeme
  | [] => [.closeObj]
  | (name, v) :: ms => .str name :: (lexemes v ++ memberLexemes ms)

end

end Json

namespace Yaml.Node

open Json (Lexeme)

/-! ## From brackets and scalars to a tree -/

mutual

/-- Takes a value off and makes its node; gives what comes after it. -/
def ofLexemes? (ts : List Lexeme) : Option (Node × List Lexeme) :=
  match ts with
  | .null :: ts => some (scalar "!!null" "null", ts)
  | .bool b :: ts => some (scalar "!!bool" (if b then "true" else "false"), ts)
  | .num n :: ts => some (scalar "!!float" (Number.layout n), ts)
  | .str s :: ts => some (text s, ts)
  | .openArr :: ts => do
    let (items, ts) ← itemsOfLexemes? ts
    some (sequence items, ts)
  | .openObj :: ts => do
    let (entries, ts) ← entriesOfLexemes? ts
    some (mapping entries, ts)
  | .closeArr :: _ | .closeObj :: _ | [] => none
termination_by (ts.length, 0)

/-- Takes values off up to the end of their array. -/
def itemsOfLexemes? (ts : List Lexeme) : Option (List Node × List Lexeme) :=
  match ts with
  | .closeArr :: ts => some ([], ts)
  | ts => do
    let (n, rest) ← ofLexemes? ts
    -- a value is never empty, so this holds
    if rest.length < ts.length then
      let (ns, rest) ← itemsOfLexemes? rest
      some (n :: ns, rest)
    else none
termination_by (ts.length, 1)

/-- Takes names and values off up to the end of their object. -/
def entriesOfLexemes? (ts : List Lexeme) : Option (List (Node × Node) × List Lexeme) :=
  match ts with
  | .closeObj :: ts => some ([], ts)
  | .str name :: ts => do
    let (n, rest) ← ofLexemes? ts
    if rest.length < ts.length then
      let (es, rest) ← entriesOfLexemes? rest
      some ((text name, n) :: es, rest)
    else none
  | _ => none
termination_by (ts.length, 1)

end

theorem length_lexemes_append (v : Json) (ts : List Lexeme) :
    ts.length < (v.lexemes ++ ts).length := by
  have hpos : 0 < v.lexemes.length := by
    cases v <;> simp [Json.lexemes]
  rw [List.length_append]
  exact Nat.lt_add_of_pos_left hpos

/-- No value begins with the end of an array. -/
theorem itemsOfLexemes?_lexemes (v : Json) (ts : List Lexeme) :
    itemsOfLexemes? (v.lexemes ++ ts) =
      (do
        let (n, rest) ← ofLexemes? (v.lexemes ++ ts)
        if rest.length < (v.lexemes ++ ts).length then
          let (ns, rest) ← itemsOfLexemes? rest
          some (n :: ns, rest)
        else none) := by
  rw [itemsOfLexemes?]
  intro rest h
  cases v <;> simp [Json.lexemes] at h

mutual

/-- What is met in a value gives its node, whatever comes after it. -/
theorem ofLexemes?_lexemes : ∀ (v : Json) (ts : List Lexeme),
    ofLexemes? (v.lexemes ++ ts) = some (ofJson v, ts)
  | .null, ts => by rw [Json.lexemes, List.singleton_append, ofLexemes?, ofJson]
  | .bool b, ts => by rw [Json.lexemes, List.singleton_append, ofLexemes?, ofJson]
  | .num n, ts => by rw [Json.lexemes, List.singleton_append, ofLexemes?, ofJson]
  | .str s, ts => by rw [Json.lexemes, List.singleton_append, ofLexemes?, ofJson]
  | .arr items, ts => by
    rw [Json.lexemes, List.cons_append, ofLexemes?, itemsOfLexemes?_itemLexemes items ts, ofJson]
    rfl
  | .obj members, ts => by
    rw [Json.lexemes, List.cons_append, ofLexemes?, entriesOfLexemes?_memberLexemes members ts,
      ofJson]
    rfl

theorem itemsOfLexemes?_itemLexemes : ∀ (vs : List Json) (ts : List Lexeme),
    itemsOfLexemes? (Json.itemLexemes vs ++ ts) = some (ofItems vs, ts)
  | [], ts => by rw [Json.itemLexemes, List.singleton_append, itemsOfLexemes?, ofItems]
  | v :: vs, ts => by
    rw [Json.itemLexemes, List.append_assoc, itemsOfLexemes?_lexemes, ofLexemes?_lexemes v]
    simp only [Option.bind_eq_bind, Option.bind_some, length_lexemes_append, if_true,
      itemsOfLexemes?_itemLexemes vs ts, ofItems]

theorem entriesOfLexemes?_memberLexemes : ∀ (ms : List (String × Json)) (ts : List Lexeme),
    entriesOfLexemes? (Json.memberLexemes ms ++ ts) = some (ofMembers ms, ts)
  | [], ts => by
    rw [Json.memberLexemes, List.singleton_append, entriesOfLexemes?, ofMembers]
  | (name, v) :: ms, ts => by
    rw [Json.memberLexemes, List.cons_append, List.append_assoc, entriesOfLexemes?,
      ofLexemes?_lexemes v]
    simp only [Option.bind_eq_bind, Option.bind_some, length_lexemes_append, if_true,
      entriesOfLexemes?_memberLexemes ms ts, ofMembers]

end

/-! ## From a tree to a text -/

mutual

/-- The text of the value of a node, written while the node is gone through. -/
def jsonText : Node → Except NoValue (List Char)
  | scalar tag s =>
    match scalarJson? tag s with
    | some v => .ok v.compact
    | none => .error (.meaningless s)
  | sequence items => do return '[' :: ((← itemsText true items) ++ [']'])
  | mapping entries => do return '\x7b' :: ((← entriesText true entries) ++ ['\x7d'])
  | aliasOf name none => .error (.endless name)
  | aliasOf _ (some n) => jsonText n

/-- The texts of items; there is a comma in front of each but the first. -/
def itemsText (first : Bool) : List Node → Except NoValue (List Char)
  | [] => .ok []
  | n :: ns => do
    return (if first then [] else [',']) ++ ((← jsonText n) ++ (← itemsText false ns))

/-- The texts of entries; there is a comma in front of each but the first. -/
def entriesText (first : Bool) : List (Node × Node) → Except NoValue (List Char)
  | [] => .ok []
  | (k, n) :: es => do
    return (if first then [] else [',']) ++
      (Json.literal true k.keyText ++ ':' :: ((← jsonText n) ++ (← entriesText false es)))

end

mutual

/-- What is written for a node is the text of its value, and it fails in the same way. -/
theorem jsonText_eq : ∀ n : Node, n.jsonText = n.toJson.map Json.compact
  | .scalar tag s => by
    rw [jsonText, toJson]
    cases scalarJson? tag s <;> rfl
  | .sequence [] => rfl
  | .sequence (n :: ns) => by
    simp only [jsonText, itemsText, toJson, itemsJson, jsonText_eq n, itemsText_eq ns]
    cases n.toJson with
    | error e => rfl
    | ok v =>
        cases itemsJson ns with
        | error e => rfl
        | ok vs => simp [Except.map, Json.compact]
  | .mapping [] => rfl
  | .mapping ((k, n) :: es) => by
    simp only [jsonText, entriesText, toJson, entriesJson, jsonText_eq n, entriesText_eq es]
    cases n.toJson with
    | error e => rfl
    | ok v =>
        cases entriesJson es with
        | error e => rfl
        | ok ms => simp [Except.map, Json.compact]
  | .aliasOf name none => rfl
  | .aliasOf _ (some n) => by rw [jsonText, toJson, jsonText_eq n]

theorem itemsText_eq : ∀ ns : List Node,
    itemsText false ns = (itemsJson ns).map Json.compactItems
  | [] => rfl
  | n :: ns => by
    rw [itemsText, itemsJson, jsonText_eq n, itemsText_eq ns]
    cases n.toJson <;> cases itemsJson ns <;> rfl

theorem entriesText_eq : ∀ es : List (Node × Node),
    entriesText false es = (entriesJson es).map Json.compactMembers
  | [] => rfl
  | (k, n) :: es => by
    rw [entriesText, entriesJson, jsonText_eq n, entriesText_eq es]
    cases n.toJson <;> cases entriesJson es <;> rfl

end

/-! ## There and back -/

theorem itemsJson_ofItems {vs : List Json} (h : ∀ v ∈ vs, (ofJson v).toJson = .ok v) :
    itemsJson (ofItems vs) = .ok vs := by
  induction vs with
  | nil => rfl
  | cons v vs ih =>
      obtain ⟨hv, hvs⟩ := List.forall_mem_cons.1 h
      rw [ofItems, itemsJson, hv, ih hvs]
      rfl

theorem entriesJson_ofMembers {ms : List (String × Json)}
    (h : ∀ m ∈ ms, (ofJson m.2).toJson = .ok m.2) : entriesJson (ofMembers ms) = .ok ms := by
  induction ms with
  | nil => rfl
  | cons m ms ih =>
      obtain ⟨hm, hms⟩ := List.forall_mem_cons.1 h
      rw [ofMembers, entriesJson, hm, ih hms]
      rfl

/-- A value without numbers is what its tree says. -/
theorem toJson_ofJson {n : Nat} {v : Json} (h : Json.Fits n v) : (ofJson v).toJson = .ok v := by
  induction h with
  | null => rfl
  | bool b => cases b <;> rfl
  | str s => rfl
  | arr _ ih => rw [ofJson, toJson, itemsJson_ofItems ih]; rfl
  | obj _ ih => rw [ofJson, toJson, entriesJson_ofMembers ih]; rfl

end Yaml.Node

namespace Json

theorem depth_le {n : Nat} {v : Json} (h : Fits n v) : v.depth ≤ n := by
  induction h with
  | null | bool | str => simp [depth]
  | @arr n items _ ih =>
      have hitems : ∀ vs : List Json, (∀ v ∈ vs, v.depth ≤ n) → depthOfItems vs ≤ n := by
        intro vs hvs
        induction vs with
        | nil => simp [depthOfItems]
        | cons v vs ihvs =>
            obtain ⟨hv, hvs⟩ := List.forall_mem_cons.1 hvs
            exact Nat.max_le.2 ⟨hv, ihvs hvs⟩
      exact Nat.succ_le_succ (hitems items ih)
  | @obj n members _ ih =>
      have hmembers : ∀ ms : List (String × Json), (∀ m ∈ ms, m.2.depth ≤ n) →
          depthOfMembers ms ≤ n := by
        intro ms hms
        induction ms with
        | nil => simp [depthOfMembers]
        | cons m ms ihms =>
            obtain ⟨hm, hms⟩ := List.forall_mem_cons.1 hms
            exact Nat.max_le.2 ⟨hm, ihms hms⟩
      exact Nat.succ_le_succ (hmembers members ih)

end Json

namespace Graph

/-- The tree of a graph is read as the graph that its document is read as. -/
theorem ofYaml_toYaml (g : Graph) : ofYaml g.toYaml = ofJson g.toJson := by
  have hdepth : ¬Json.maxDepth < g.toJson.depth := by
    have hle := Json.depth_le g.fits_toJson
    have hmax : 8 ≤ Json.maxDepth := by decide
    omega
  rw [ofYaml, toYaml, Yaml.Node.toJson_ofJson g.fits_toJson]
  exact if_neg hdepth

/-- The document of a graph says the same in both notations: its JSON text, taken apart,
makes its tree, the text that is written while the tree is gone through is that very text,
and where the tree is read back from its YAML text, reading the two texts makes no
difference. -/
theorem readYaml_toYamlText (g : Graph) :
    (Json.read? g.toCompactText.toList = some g.toJson ∧
      Yaml.Node.ofLexemes? g.toJson.lexemes = some (g.toYaml, [])) ∧
    (g.toYaml.toJson = .ok g.toJson ∧ g.toYaml.jsonText = .ok g.toCompactText.toList) ∧
    (Yaml.Node.read? (.ofString g.toYamlText) = some (some g.toYaml) →
      readYaml (.ofString g.toYamlText) = readJson (.ofString g.toCompactText)) := by
  have hread : Json.read? g.toCompactText.toList = some g.toJson := by
    have h := (Json.readsAs_compact g.fits_toJson).read? (by decide) []
    rwa [List.append_nil, ← String.toList_ofList (l := g.toJson.compact)] at h
  have hjson : g.toYaml.toJson = .ok g.toJson := Yaml.Node.toJson_ofJson g.fits_toJson
  refine ⟨⟨hread, ?_⟩, ⟨hjson, ?_⟩, ?_⟩
  · have h := Yaml.Node.ofLexemes?_lexemes g.toJson []
    rwa [List.append_nil] at h
  · rw [Yaml.Node.jsonText_eq, hjson, toCompactText, String.toList_ofList]
    rfl
  · intro hback
    rw [readYaml, hback]
    simp only
    rw [ofYaml_toYaml, readJson, Text.Source.lossy_ofString, ofJsonChars, hread]

end Graph

namespace Yaml.Node

mutual

/-- Whether two nodes are the same. -/
def same : Node → Node → Bool
  | scalar tag s, scalar tag' s' => tag = tag' && s = s'
  | sequence ns, sequence ns' => sameItems ns ns'
  | mapping es, mapping es' => sameEntries es es'
  | _, _ => false

/-- Whether two lists of nodes are the same. -/
def sameItems : List Node → List Node → Bool
  | [], [] => true
  | n :: ns, n' :: ns' => same n n' && sameItems ns ns'
  | _, _ => false

/-- Whether two lists of entries are the same. -/
def sameEntries : List (Node × Node) → List (Node × Node) → Bool
  | [], [] => true
  | (k, n) :: es, (k', n') :: es' => same k k' && (same n n' && sameEntries es es')
  | _, _ => false

end

mutual

theorem eq_of_same : ∀ {n n' : Node}, same n n' = true → n = n'
  | .scalar tag s, .scalar tag' s', h => by simpa [same] using h
  | .sequence ns, .sequence ns', h => by rw [eq_of_sameItems h]
  | .mapping es, .mapping es', h => by rw [eq_of_sameEntries h]

theorem eq_of_sameItems : ∀ {ns ns' : List Node}, sameItems ns ns' = true → ns = ns'
  | [], [], _ => rfl
  | n :: ns, n' :: ns', h => by
    obtain ⟨hn, hns⟩ := Bool.and_eq_true_iff.1 h
    rw [eq_of_same hn, eq_of_sameItems hns]

theorem eq_of_sameEntries : ∀ {es es' : List (Node × Node)}, sameEntries es es' = true → es = es'
  | [], [], _ => rfl
  | (k, n) :: es, (k', n') :: es', h => by
    obtain ⟨hk, h⟩ := Bool.and_eq_true_iff.1 h
    obtain ⟨hn, hes⟩ := Bool.and_eq_true_iff.1 h
    rw [eq_of_same hk, eq_of_same hn, eq_of_sameEntries hes]

end

theorem eq_of_same_found {found : Option (Option Node)} {n : Node}
    (h : (found.any fun m => m.any (same · n)) = true) : found = some (some n) :=
  match found, h with
  | some (some m), h => by rw [eq_of_same h]

end Yaml.Node

namespace Graph

/-- A graph of texts that look like something else, with a port that is declared twice. -/
def lookalikes : Graph where
  nodes := [{ id := "1", component := "null", inputs := [⟨"true", "~"⟩, ⟨"true", "2001-01-01"⟩] }]
  edges := [⟨"1", "no", "1", "true", "0x1F", false, false⟩]
  id_ne_empty := by decide
  ids_nodup := by decide
  kind_eq_mux := by decide
  name_ne_empty := by decide
  names_nodup := by decide
  closed := by decide

/-- The characters of the YAML text of a graph, without the detour by way of a string. -/
theorem ofString_toYamlText (g : Graph) :
    Text.Source.ofString g.toYamlText =
      (match g.toYaml with
        | .mapping entries =>
          let body := Yaml.entriesPiece false 0 (.line true) entries
          body.chars ++ if body.ended then [] else ['\n']
        | _ => []).map some := by
  unfold toYamlText
  cases g.toYaml with
  | mapping entries => exact congrArg (List.map some) String.toList_ofList
  | _ => rfl

theorem readYaml_lookalikes :
    Yaml.Node.read? (.ofString lookalikes.toYamlText) = some (some lookalikes.toYaml) ∧
      readYaml (.ofString lookalikes.toYamlText) =
        readJson (.ofString lookalikes.toCompactText) := by
  have hback : Yaml.Node.read? (.ofString lookalikes.toYamlText) =
      some (some lookalikes.toYaml) := by
    apply Yaml.Node.eq_of_same_found
    rw [ofString_toYamlText]
    decide +kernel
  exact ⟨hback, (readYaml_toYamlText lookalikes).2.2 hback⟩

end Graph

end MuxFlow
