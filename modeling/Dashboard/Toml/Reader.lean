import Dashboard.Toml.Text
import Dashboard.Toml.Scalar
import Dashboard.Toml.Table

/-! # Reading TOML documents

* `Toml.key?`: a key with or without dots.
* `Toml.value?`: a value; arrays and inline tables nest to a bounded depth.
* `Toml.Statement`, `Toml.statements?`: the lines of a document.
* `Toml.document?`: the table that the lines write.
* `Toml.parse?`: a whole text.
-/

namespace Dashboard.Toml
set_option autoImplicit false

/-! ## Keys -/

def keyPart? (cs : List Char) : Option (String × List Char) :=
  match lineText? cs with
  | some (t, r) => some (String.ofList t, r)
  | none =>
    match cs.takeWhile isBareKey with
    | [] => none
    | name => some (String.ofList name, cs.drop name.length)

/-- The parts of a key between dots, with blanks around them. The first argument bounds the parts. -/
def keyParts? : Nat → List Char → Option (List String × List Char)
  | 0, _ => none
  | n + 1, cs => do
    let (k, r) ← keyPart? (skipWhite cs)
    match skipWhite r with
    | '.' :: r => (keyParts? n r).map fun ks => (k :: ks.1, ks.2)
    | r => some ([k], r)

def key? (cs : List Char) : Option (List String × List Char) := keyParts? (depthBound - 1) cs

/-! ## Values -/

mutual

/-- One value. The first argument bounds the steps, the second the arrays and tables that may still open. -/
def value? : Nat → Nat → List Char → Option (Toml × List Char)
  | 0, _, _ => none
  | steps + 1, depth, cs =>
    match cs with
    | [] => none
    | '"' :: _ | '\'' :: _ => (text? cs).map fun t => (.text (String.ofList t.1), t.2)
    | '[' :: r =>
      match depth with
      | d + 2 => (items? steps (d + 1) r).map fun t => (.array t.1, t.2)
      | _ => none
    | '{' :: r =>
      match depth with
      | d + 2 => do
        let (pairs, r) ← match skipWhite r with
          | '}' :: r => some ([], r)
          | _ => pairs? steps (d + 1) r
        let t ← ofPairs? pairs
        some (t, r)
      | _ => none
    | 't' :: 'r' :: 'u' :: 'e' :: r => some (.bool true, r)
    | 'f' :: 'a' :: 'l' :: 's' :: 'e' :: r => some (.bool false, r)
    | _ => scalar? cs

/-- The items of an array and its closing bracket; a comma may follow the last item. -/
def items? : Nat → Nat → List Char → Option (List Toml × List Char)
  | 0, _, _ => none
  | steps + 1, depth, cs =>
    match skipBlankLines cs with
    | ']' :: r => some ([], r)
    | r => do
      let (v, r) ← value? steps depth r
      match skipBlankLines r with
      | ']' :: r => some ([v], r)
      | ',' :: r => (items? steps depth r).map fun t => (v :: t.1, t.2)
      | _ => none

/-- The entries of an inline table, of which there is at least one, and its closing brace. -/
def pairs? : Nat → Nat → List Char → Option (List (List String × Toml) × List Char)
  | 0, _, _ => none
  | steps + 1, depth, cs => do
    let (k, r) ← key? cs
    let r ← past? '=' r
    let (v, r) ← value? steps depth (skipWhite r)
    match skipWhite r with
    | '}' :: r => some ([(k, v)], r)
    | ',' :: r => (pairs? steps depth r).map fun t => ((k, v) :: t.1, t.2)
    | _ => none

end

/-! ## Lines -/

inductive Statement where
  | header (path : List String)
  | element (path : List String)
  | entry (key : List String) (v : Toml)

/-- The statement of a line, without the end of the line. -/
def statement? (cs : List Char) : Option (Statement × List Char) :=
  match cs with
  | '[' :: '[' :: r => do
    let (k, r) ← key? r
    let r ← past? ']' r
    let r ← past? ']' r
    some (.element k, r)
  | '[' :: r => do
    let (k, r) ← key? r
    let r ← past? ']' r
    some (.header k, r)
  | _ => do
    let (k, r) ← key? cs
    let r ← past? '=' r
    let (v, r) ← value? (r.length + 1) depthBound (skipWhite r)
    some (.entry k v, r)

def statements? : Nat → List Char → Option (List Statement)
  | 0, _ => none
  | n + 1, cs =>
    match skipBlankLines cs with
    | [] => some []
    | r => do
      let (s, r) ← statement? r
      let r ← lineEnd? r
      (statements? n r).map (s :: ·)

/-! ## Documents -/

/-- What the statements so far wrote, and the table that is open. -/
structure Draft where
  entries : Entries Node := []
  path : List String := []

/-- One more statement. An entry goes into the open table. -/
def Draft.add? (d : Draft) : Statement → Option Draft
  | .header path => do
    let es ← within? (openTable? (path.getLast?.getD "")) path.dropLast d.entries
    some ⟨es, path⟩
  | .element path => do
    let es ← within? (openElement? (path.getLast?.getD "")) path.dropLast d.entries
    some ⟨es, path⟩
  | .entry key v => do
    let es ← within? (assign? true false key v) d.path d.entries
    some { d with entries := es }

def document? (ss : List Statement) : Option (List (String × Toml)) :=
  (ss.foldlM Draft.add? {}).map fun d => finishEntries d.entries

def withoutMark : List Char → List Char
  | '\uFEFF' :: r => r
  | cs => cs

def parse? (s : String) : Option (List (String × Toml)) :=
  let cs := withoutMark s.toList
  statements? (cs.length + 1) cs >>= document?

end Dashboard.Toml
