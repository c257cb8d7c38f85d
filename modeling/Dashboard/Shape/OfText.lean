import Dashboard.Shape.Basic
import Dashboard.Json.Skip

/-! # Reading a shape from a JSON text

The text is read from left to right, so a fault is reported where the reading stops.

* `Shape.refuse`: the fault for a value that is not of the shape asked for.
* `Shape.readItems`, `Shape.readMembers`: the loops over a list and over the members of an object.
* `Shape.read`: a value of a shape where the cursor stands.
* `Shape.ofText`: a whole text as a value of a shape.
-/

namespace Dashboard.Shape
set_option autoImplicit false
open Json

def clash {α : Type} (m : Mismatch) (c : Cursor) : Except Fault α := c.fail (.mismatch m)

/-- Refuses the value where the cursor stands. A value without parts is read first, and its own faults win. -/
def refuse {α : Type} (expected : String) (c : Cursor) : Except Fault α := do
  match c.rest with
  | 'n' :: _ => clash (.wrongType .absent expected) (← (c.advance 1).word ['u', 'l', 'l'])
  | 't' :: _ => clash (.wrongType (.boolean true) expected) (← (c.advance 1).word ['r', 'u', 'e'])
  | 'f' :: _ =>
    clash (.wrongType (.boolean false) expected) (← (c.advance 1).word ['a', 'l', 's', 'e'])
  | '"' :: _ =>
    let (s, c) ← string (c.advance 1)
    clash (.wrongType (.text s) expected) c
  | '[' :: _ => clash (.wrongType .list expected) c
  | '{' :: _ => clash (.wrongType .table expected) c
  | '-' :: _ => number true (c.advance 1) >>= refuseNumber
  | x :: _ => if x.isDigit then number false c >>= refuseNumber else c.failAfter 1 .expectedValue
  | [] => c.fail .expectedValue
where
  /-- Refuses a number that was read. -/
  refuseNumber : Number × Cursor → Except Fault α
    | (.int z, c) => clash (.wrongType (.integer z) expected) c
    | (.float x, c) => clash (.wrongType (.float x) expected) c

def naturalOf : Number × Cursor → Except Fault (UInt64 × Cursor)
  | (.int z, c) =>
    if z < 0 then clash (.wrongValue (.integer z) "u64") c else .ok (UInt64.ofNat z.toNat, c)
  | (.float x, c) => clash (.wrongType (.float x) "u64") c

def readNatural (c : Cursor) : Except Fault (UInt64 × Cursor) :=
  match c.rest with
  | '-' :: _ => number true (c.advance 1) >>= naturalOf
  | x :: _ => if x.isDigit then number false c >>= naturalOf else refuse "u64" c
  | [] => c.fail .endInValue

/-! ## Loops -/

/-- The items of a list up to its closing bracket. The first argument bounds the steps. -/
def readItems {α : Type} (item : Cursor → Except Fault (α × Cursor)) :
    Nat → Bool → Cursor → Except Fault (List α × Cursor)
  | 0, _, c => c.fail .tooDeep
  | steps + 1, first, c => do
    match ← c.nextItem first with
    | (false, c) => .ok ([], c)
    | (true, c) =>
      let (v, c) ← item c
      let (vs, c) ← readItems item steps false c
      .ok (v :: vs, c)

/-- The members of an object up to its closing brace. `member` reads the member of a key that it knows; any other is
passed over. -/
def readMembers {σ : Type} (member : String → σ → Cursor → Except Fault (Option (σ × Cursor))) :
    Nat → Bool → σ → Cursor → Except Fault (σ × Cursor)
  | 0, _, _, c => c.fail .tooDeep
  | steps + 1, first, st, c => do
    match ← c.nextKey first with
    | (false, c) => .ok (st, c)
    | (true, c) =>
      let (key, c) ← string c
      match ← member key st c with
      | some (st, c) => readMembers member steps false st c
      | none =>
        let c ← c.colon
        let c ← skip (2 * c.rest.length + 2) c
        readMembers member steps false st c

/-! ## The reader -/

/-- The key of a single member that names an alternative. -/
def readTag (c : Cursor) : Except Fault (String × Cursor) :=
  let c := c.skipBlanks
  match c.rest with
  | [] => c.fail .endInObject
  | '"' :: _ => string (c.advance 1)
  | '}' :: _ => c.failAfter 1 .expectedValue
  | _ => c.failAfter 1 .keyMustBeString

/-- Past the brace that closes the single member of an alternative. -/
def endTagged (c : Cursor) : Except Fault Cursor :=
  let c := c.skipBlanks
  match c.rest with
  | [] => c.fail .endInObject
  | '}' :: _ => .ok (c.advance 1)
  | _ => c.fail .expectedValue

mutual

def read : (s : Shape) → Cursor → Except Fault (s.Value × Cursor)
  | .unit, c =>
    let c := c.skipBlanks
    match c.rest with
    | [] => c.fail .endInValue
    | 'n' :: _ => (c.advance 1).word ['u', 'l', 'l'] |>.map fun c => ((), c)
    | _ => refuse "unit" c
  | .text, c =>
    let c := c.skipBlanks
    match c.rest with
    | [] => c.fail .endInValue
    | '"' :: _ => string (c.advance 1)
    | _ => refuse "a string" c
  | .natural, c => readNatural c.skipBlanks
  | .optional item, c =>
    let c := c.skipBlanks
    match c.rest with
    | 'n' :: _ => (c.advance 1).word ['u', 'l', 'l'] |>.map fun c => (none, c)
    | _ => (read item c).map fun r => (some r.1, r.2)
  | .list item, c =>
    let c := c.skipBlanks
    match c.rest with
    | [] => c.fail .endInValue
    | '[' :: _ => do
      let (vs, c) ← readItems (read item) (c.rest.length + 1) true (c.advance 1)
      .ok (vs, ← c.endList)
    | _ => refuse "a sequence" c
  | .record name fillsIn fields, c =>
    let c := c.skipBlanks
    match c.rest with
    | [] => c.fail .endInValue
    | '[' :: _ => do
      let (vs, c) ← readInOrder name fillsIn fields.length fields 0 (c.advance 1)
      .ok (vs, ← c.endList)
    | '{' :: _ => do
      let (vs, c) ←
        readMembers (readField fields) (c.rest.length + 1) true (emptyFields fields) (c.advance 1)
      .ok (vs, ← c.endObject)
    | _ => refuse ("struct " ++ name) c
  | .choice cases, c =>
    let c := c.skipBlanks
    match c.rest with
    | [] => c.fail .endInValue
    | '{' :: _ => do
      let (tag, c) ← readTag (c.advance 1)
      match ← readCase cases tag c with
      | some (v, c) => .ok (v, ← endTagged c)
      | none => clash (.unknownTag tag (cases.map (·.1))) c
    | '"' :: _ => do
      let (tag, c) ← string (c.advance 1)
      match bareCase? cases tag with
      | some (some v) => .ok (v, c)
      | some none => .error ⟨.mismatch (.wrongType .bareTag "newtype variant"), none⟩
      | none => clash (.unknownTag tag (cases.map (·.1))) c
    | _ => c.failAfter 1 .expectedValue

/-- The member of a key, put into the fields so far, if the record has such a field. -/
def readField : (fields : List (String × Shape)) → String → FieldValues fields → Cursor →
    Except Fault (Option (FieldValues fields × Cursor))
  | [], _, _, _ => .ok none
  | (name, s) :: fields, key, (v, vs), c =>
    if key = name then
      if v.isSome then clash (.repeatedField name) c.afterObject
      else do
        let (x, c) ← read s (← c.colon)
        .ok (some ((some x, vs), c))
    else (readField fields key vs c).map (·.map fun r => ((v, r.1), r.2))

/-- The values of the fields in their order, as items of a list; `n` of `total` fields have been read. -/
def readInOrder (name : String) (fillsIn : Bool) (total : Nat) :
    (fields : List (String × Shape)) → Nat → Cursor → Except Fault (FieldValues fields × Cursor)
  | [], _, c => .ok ((), c)
  | (_, s) :: fields, n, c => do
    match ← c.nextItem (n = 0) with
    | (false, c) =>
      if fillsIn then .ok ((none, emptyFields fields), c)
      else
        clash (.wrongLength n (wantedFields name total)) (← c.endList)
    | (true, c) =>
      let (v, c) ← read s c
      let (vs, c) ← readInOrder name fillsIn total fields (n + 1) c
      .ok ((some v, vs), c)

/-- The value of the alternative with a tag, after its colon, if there is such an alternative. -/
def readCase : (cases : List (String × Shape)) → String → Cursor →
    Except Fault (Option (CaseValue cases × Cursor))
  | [], _, _ => .ok none
  | (name, s) :: cases, tag, c =>
    if tag = name then do
      let (v, c) ← read s (← c.colon)
      .ok (some (.inl v, c))
    else (readCase cases tag c).map (·.map fun r => (.inr r.1, r.2))

end

def ofText (s : Shape) (text : String) : Except Fault s.Value := do
  let (v, c) ← s.read (Cursor.ofString text)
  c.finish
  .ok v

end Dashboard.Shape
