import Dashboard.Json.Token

/-! # Passing over a JSON value

A value that nobody asks for is passed over. Its form is checked, but strings are not decoded, numbers have no
range, and nesting has no bound.

* `Json.skipString`: past the rest of a string.
* `Json.skipNumber`: past a number, after its sign.
* `Json.skip`: past one value.
-/

namespace Dashboard.Json
set_option autoImplicit false

/-- The number of characters of an escape after its backslash. -/
def skipEscape (c : Cursor) : Except Fault Nat :=
  match c.rest with
  | [] => c.fail .endInString
  | 'u' :: _ => (fourHex (c.advance 1)).map fun _ => 5
  | x :: _ =>
    if x ∈ ['"', '\\', '/', 'b', 'f', 'n', 'r', 't'] then .ok 1 else c.failAfter 1 .invalidEscape

/-- Past the rest of a string. A control character is reported where it stands. -/
def skipString (c : Cursor) : Except Fault Cursor :=
  match _h : c.rest with
  | [] => c.fail .endInString
  | x :: _ =>
    if x = '"' then .ok (c.advance 1)
    else if x = '\\' then
      match skipEscape (c.advance 1) with
      | .error f => .error f
      | .ok n => skipString (c.advance (n + 1))
    else if x.toNat < 0x20 then c.fail .controlCharacter
    else skipString (c.advance 1)
termination_by c.rest.length
decreasing_by all_goals exact Cursor.length_advance_lt _h _

def skipExponent (c : Cursor) : Except Fault Cursor :=
  let c := match c.rest with
    | '+' :: _ | '-' :: _ => c.advance 1
    | _ => c
  match c.rest with
  | [] => c.fail .invalidNumber
  | x :: _ => if x.isDigit then .ok (digits c).2 else c.failAfter 1 .invalidNumber

def skipNumber (c : Cursor) : Except Fault Cursor := do
  let c ← match c.rest with
    | [] => c.fail .invalidNumber
    | _ => (leadingDigits c).map (·.2)
  match c.rest with
  | '.' :: _ =>
    let (fraction, c) := digits (c.advance 1)
    if fraction = [] then c.failAfter 1 .invalidNumber
    else
      match c.rest with
      | 'e' :: _ | 'E' :: _ => skipExponent (c.advance 1)
      | _ => .ok c
  | 'e' :: _ | 'E' :: _ => skipExponent (c.advance 1)
  | _ => .ok c

/-- A key and its colon, in an object that is passed over. -/
def skipKey (c : Cursor) : Except Fault Cursor := do
  let c := c.skipBlanks
  match c.rest with
  | [] => c.fail .endInObject
  | '"' :: _ => (← skipString (c.advance 1)).colon
  | _ => c.failAfter 1 .keyMustBeString

mutual

/-- Past one value. The first argument bounds the steps. -/
def skip : Nat → Cursor → Except Fault Cursor
  | 0, c => c.fail .tooDeep
  | steps + 1, c =>
    let c := c.skipBlanks
    match c.rest with
    | [] => c.fail .endInValue
    | 'n' :: _ => (c.advance 1).word ['u', 'l', 'l']
    | 't' :: _ => (c.advance 1).word ['r', 'u', 'e']
    | 'f' :: _ => (c.advance 1).word ['a', 'l', 's', 'e']
    | '-' :: _ => skipNumber (c.advance 1)
    | '"' :: _ => skipString (c.advance 1)
    | '[' :: _ =>
      let c := (c.advance 1).skipBlanks
      match c.rest with
      | [] => c.fail .endInList
      | ']' :: _ => .ok (c.advance 1)
      | _ => skipItems steps c
    | '{' :: _ =>
      let c := (c.advance 1).skipBlanks
      match c.rest with
      | [] => c.fail .endInObject
      | '}' :: _ => .ok (c.advance 1)
      | _ => skipMembers steps c
    | x :: _ => if x.isDigit then skipNumber c else c.failAfter 1 .expectedValue

/-- Past the items of a list, of which there is at least one, and its closing bracket. -/
def skipItems : Nat → Cursor → Except Fault Cursor
  | 0, c => c.fail .tooDeep
  | steps + 1, c => do
    let c := (← skip steps c).skipBlanks
    match c.rest with
    | [] => c.fail .endInList
    | ']' :: _ => .ok (c.advance 1)
    | ',' :: _ => skipItems steps (c.advance 1)
    | _ => c.failAfter 1 .expectedListCommaOrEnd

/-- Past the members of an object, of which there is at least one, and its closing brace. -/
def skipMembers : Nat → Cursor → Except Fault Cursor
  | 0, c => c.fail .tooDeep
  | steps + 1, c => do
    let c := (← skip steps (← skipKey c)).skipBlanks
    match c.rest with
    | [] => c.fail .endInObject
    | '}' :: _ => .ok (c.advance 1)
    | ',' :: _ => skipMembers steps (c.advance 1)
    | _ => c.failAfter 1 .expectedObjectCommaOrEnd

end

end Dashboard.Json
