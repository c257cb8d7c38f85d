import Dashboard.Json.Token

/-! # Reading a JSON value

* `Json.value`: one value where the cursor stands; lists and objects nest to a bounded depth.
* `Json.parse`: a whole text as one value.
-/

namespace Dashboard.Json
set_option autoImplicit false

def depthBound : Nat := 128

mutual

/-- One value. The first argument bounds the steps, the second the lists and objects that may still open. -/
def value : Nat → Nat → Cursor → Except Fault (Json × Cursor)
  | 0, _, c => c.fail .tooDeep
  | steps + 1, depth, c =>
    let c := c.skipBlanks
    match c.rest with
    | [] => c.fail .endInValue
    | 'n' :: _ => (c.advance 1).word ['u', 'l', 'l'] |>.map fun c => (.null, c)
    | 't' :: _ => (c.advance 1).word ['r', 'u', 'e'] |>.map fun c => (.bool true, c)
    | 'f' :: _ => (c.advance 1).word ['a', 'l', 's', 'e'] |>.map fun c => (.bool false, c)
    | '-' :: _ => (number true (c.advance 1)).map fun r => (r.1.toJson, r.2)
    | '"' :: _ => (string (c.advance 1)).map fun r => (.text r.1, r.2)
    | '[' :: _ =>
      match depth with
      | d + 2 => (items steps (d + 1) true (c.advance 1)).map fun r => (.array r.1, r.2)
      | _ => c.failAfter 1 .tooDeep
    | '{' :: _ =>
      match depth with
      | d + 2 => (members steps (d + 1) true [] (c.advance 1)).map fun r => (.object r.1, r.2)
      | _ => c.failAfter 1 .tooDeep
    | x :: _ =>
      if x.isDigit then (number false c).map fun r => (r.1.toJson, r.2)
      else c.failAfter 1 .expectedValue

def items : Nat → Nat → Bool → Cursor → Except Fault (List Json × Cursor)
  | 0, _, _, c => c.fail .tooDeep
  | steps + 1, depth, first, c => do
    match ← c.nextItem first with
    | (false, c) => .ok ([], ← c.endList)
    | (true, c) =>
      let (v, c) ← value steps depth c
      let (vs, c) ← items steps depth false c
      .ok (v :: vs, c)

/-- The members of an object and its closing brace, put into the members so far. -/
def members : Nat → Nat → Bool → List (String × Json) → Cursor →
    Except Fault (List (String × Json) × Cursor)
  | 0, _, _, _, c => c.fail .tooDeep
  | steps + 1, depth, first, sofar, c => do
    match ← c.nextKey first with
    | (false, c) => .ok (sofar, ← c.endObject)
    | (true, c) =>
      let (k, c) ← string c
      let c ← c.colon
      let (v, c) ← value steps depth c
      members steps depth false (put k v sofar) c

end

/-- Enough steps for any text of so many characters: each one takes at least one character. -/
def stepBound (c : Cursor) : Nat := 2 * c.rest.length + 2

def parse (s : String) : Except Fault Json := do
  let c := Cursor.ofString s
  let (v, c) ← value (stepBound c) depthBound c
  c.finish
  .ok v

end Dashboard.Json
