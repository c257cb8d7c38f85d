import Dashboard.Shape.Mismatch

/-! # Faults in a JSON text

* `Json.Cause`: what is wrong.
* `Json.Position`: a line, counted from one, and the bytes of that line that were consumed.
* `Json.Fault`: a cause and, where the fault lies in a text, its position.
* `Json.Fault.message`: the sentence for a fault.
-/

namespace Dashboard.Json
set_option autoImplicit false

/-- A place in a text. The column counts the bytes of the line up to the place. -/
structure Position where
  line : Nat
  column : Nat
  deriving DecidableEq, Repr

namespace Position

def start : Position := ⟨1, 0⟩

def past (p : Position) (c : Char) : Position :=
  if c = '\n' then ⟨p.line + 1, 0⟩ else ⟨p.line, p.column + c.utf8Size⟩

def pastAll (p : Position) (cs : List Char) : Position := cs.foldl past p

/-- The place after the first `n` bytes of a text, or after all of it. -/
def pastBytes : Nat → List Char → Position → Position
  | 0, _, p => p
  | _ + 1, [], p => p
  | n + 1, c :: cs, p =>
    if c.utf8Size ≤ n + 1 then pastBytes (n + 1 - c.utf8Size) cs (p.past c)
    else ⟨p.line, p.column + (n + 1)⟩

end Position

inductive Cause where
  | endInValue
  | endInList
  | endInObject
  | endInString
  | expectedValue
  | expectedWord
  | expectedListCommaOrEnd
  | expectedObjectCommaOrEnd
  | expectedColon
  | trailingComma
  | trailingCharacters
  | keyMustBeString
  | invalidNumber
  | numberOutOfRange
  | invalidEscape
  | endOfHexEscape
  | loneSurrogate
  | controlCharacter
  | tooDeep
  | mismatch (m : Mismatch)
  deriving DecidableEq, Repr

def Cause.message : Cause → String
  | .endInValue => "EOF while parsing a value"
  | .endInList => "EOF while parsing a list"
  | .endInObject => "EOF while parsing an object"
  | .endInString => "EOF while parsing a string"
  | .expectedValue => "expected value"
  | .expectedWord => "expected ident"
  | .expectedListCommaOrEnd => "expected `,` or `]`"
  | .expectedObjectCommaOrEnd => "expected `,` or `\x7d`"
  | .expectedColon => "expected `:`"
  | .trailingComma => "trailing comma"
  | .trailingCharacters => "trailing characters"
  | .keyMustBeString => "key must be a string"
  | .invalidNumber => "invalid number"
  | .numberOutOfRange => "number out of range"
  | .invalidEscape => "invalid escape"
  | .endOfHexEscape => "unexpected end of hex escape"
  | .loneSurrogate => "lone leading surrogate in hex escape"
  | .controlCharacter => "control character (\\u0000-\\u001F) found while parsing a string"
  | .tooDeep => "recursion limit exceeded"
  | .mismatch m => m.message Binary64.dataText "null"

structure Fault where
  cause : Cause
  place : Option Position
  deriving DecidableEq, Repr

def Fault.message (f : Fault) : String :=
  match f.place with
  | none => f.cause.message
  | some p =>
    f.cause.message ++ " at line " ++ toString p.line ++ " column " ++ toString p.column

end Dashboard.Json
