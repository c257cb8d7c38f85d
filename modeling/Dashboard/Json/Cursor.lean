import Dashboard.Json.Fault

/-! # Reading a JSON text from left to right

* `Json.Cursor`: the text that is left and the place where it begins.
* `Cursor.fail`, `Cursor.failAfter`: a fault at the place, or so many bytes beyond it.
* `Cursor.skipBlanks`: past the blanks of JSON.
* `Cursor.word`: past the letters of a word.
* `Cursor.nextItem`, `Cursor.nextKey`, `Cursor.colon`, `Cursor.endList`, `Cursor.endObject`: the punctuation of
  lists and objects.
-/

namespace Dashboard.Json
set_option autoImplicit false

structure Cursor where
  rest : List Char
  place : Position
  deriving DecidableEq, Repr

namespace Cursor

def ofString (s : String) : Cursor := ⟨s.toList, .start⟩

def fail {α : Type} (c : Cursor) (cause : Cause) : Except Fault α := .error ⟨cause, some c.place⟩

def failAfter {α : Type} (n : Nat) (c : Cursor) (cause : Cause) : Except Fault α :=
  .error ⟨cause, some (Position.pastBytes n c.rest c.place)⟩

def advance (n : Nat) (c : Cursor) : Cursor :=
  ⟨c.rest.drop n, c.place.pastAll (c.rest.take n)⟩

theorem length_advance_lt {c : Cursor} {x : Char} {xs : List Char} (h : c.rest = x :: xs) (n : Nat) :
    (c.advance (n + 1)).rest.length < c.rest.length := by
  simp only [advance, h, List.length_drop, List.length_cons]
  omega

def isBlank (c : Char) : Bool := c == ' ' || c == '\n' || c == '\t' || c == '\r'

def skipBlanks (c : Cursor) : Cursor :=
  ⟨c.rest.dropWhile isBlank, c.place.pastAll (c.rest.takeWhile isBlank)⟩

/-- The cursor after the letters of a word. The first letter that differs is consumed. -/
def word : List Char → Cursor → Except Fault Cursor
  | [], c => .ok c
  | w :: ws, c =>
    match c.rest with
    | [] => c.fail .endInValue
    | x :: _ => if x = w then word ws (c.advance 1) else c.failAfter 1 .expectedWord

/-! ## Punctuation -/

/-- The next item of a list. Gives `true` and the cursor at the item, or `false` and the cursor at the closing
bracket. -/
def nextItem (first : Bool) (c : Cursor) : Except Fault (Bool × Cursor) :=
  let c := c.skipBlanks
  match c.rest with
  | [] => c.fail .endInList
  | ']' :: _ => .ok (false, c)
  | x :: _ =>
    if first then .ok (true, c)
    else if x = ',' then
      let c := (c.advance 1).skipBlanks
      match c.rest with
      | [] => c.fail .endInValue
      | ']' :: _ => c.failAfter 1 .trailingComma
      | _ => .ok (true, c)
    else c.failAfter 1 .expectedListCommaOrEnd

/-- The next key of an object. Gives `true` and the cursor after the opening quote of the key, or `false` and the
cursor at the closing brace. -/
def nextKey (first : Bool) (c : Cursor) : Except Fault (Bool × Cursor) :=
  let c := c.skipBlanks
  match c.rest with
  | [] => c.fail .endInObject
  | '}' :: _ => .ok (false, c)
  | x :: _ =>
    if first then
      if x = '"' then .ok (true, c.advance 1) else c.failAfter 1 .keyMustBeString
    else if x = ',' then
      let c := (c.advance 1).skipBlanks
      match c.rest with
      | [] => c.fail .endInValue
      | '"' :: _ => .ok (true, c.advance 1)
      | '}' :: _ => c.failAfter 1 .trailingComma
      | _ => c.failAfter 1 .keyMustBeString
    else c.failAfter 1 .expectedObjectCommaOrEnd

def colon (c : Cursor) : Except Fault Cursor :=
  let c := c.skipBlanks
  match c.rest with
  | [] => c.fail .endInObject
  | ':' :: _ => .ok (c.advance 1)
  | _ => c.failAfter 1 .expectedColon

def endList (c : Cursor) : Except Fault Cursor :=
  let c := c.skipBlanks
  match c.rest with
  | [] => c.fail .endInList
  | ']' :: _ => .ok (c.advance 1)
  | ',' :: _ =>
    let c := (c.advance 1).skipBlanks
    match c.rest with
    | ']' :: _ => c.failAfter 1 .trailingComma
    | _ => c.failAfter 1 .trailingCharacters
  | _ => c.failAfter 1 .trailingCharacters

def endObject (c : Cursor) : Except Fault Cursor :=
  let c := c.skipBlanks
  match c.rest with
  | [] => c.fail .endInObject
  | '}' :: _ => .ok (c.advance 1)
  | ',' :: _ => c.failAfter 1 .trailingComma
  | _ => c.failAfter 1 .trailingCharacters

/-- Where a fault inside an object that has no place of its own is reported: after blanks and a closing
brace. -/
def afterObject (c : Cursor) : Cursor :=
  let c := c.skipBlanks
  match c.rest with
  | '}' :: _ => c.advance 1
  | _ => c

def finish (c : Cursor) : Except Fault Unit :=
  let c := c.skipBlanks
  match c.rest with
  | [] => .ok ()
  | _ => c.failAfter 1 .trailingCharacters

end Cursor
end Dashboard.Json
