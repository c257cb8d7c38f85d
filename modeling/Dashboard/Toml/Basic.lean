import Dashboard.Binary64.Basic

/-! # TOML values

* `Toml`: a value of a document.
* `Toml.depthBound`: how deep values may nest.
* Character classes: `isBareKey`, `isWhite`, `isPlain`, and what ends a line: `lineEnd?`, `blankLines`.
-/

namespace Dashboard
set_option autoImplicit false

/-- A TOML value. A date keeps its normal text. -/
inductive Toml where
  | text (s : String)
  | int (z : Int)
  | float (x : Binary64)
  | bool (b : Bool)
  | date (s : String)
  | array (items : List Toml)
  | table (entries : List (String × Toml))
  deriving Repr

namespace Toml

/-- Arrays and inline tables nest less deep than this, and keys have fewer parts. -/
def depthBound : Nat := 80

/-! ## Characters -/

def isWhite (c : Char) : Bool := c == ' ' || c == '\t'

def isBareKey (c : Char) : Bool := c.isAlphanum || c == '_' || c == '-'

/-- A character that may stand in comments and strings: any but the control characters, and the tab. -/
def isPlain (c : Char) : Bool := c == '\t' || (0x20 ≤ c.toNat && c.toNat != 0x7f)

/-! ## Blanks, comments and the ends of lines -/

def skipWhite (cs : List Char) : List Char := cs.dropWhile isWhite

/-- Past a newline, which is a line feed with or without a carriage return before it. -/
def newline? : List Char → Option (List Char)
  | '\n' :: r => some r
  | '\r' :: '\n' :: r => some r
  | _ => none

def skipComment : List Char → List Char
  | '#' :: r => r.dropWhile isPlain
  | cs => cs

/-- Past the end of a line: blanks, a comment if there is one, and a newline or the end of the text. -/
def lineEnd? (cs : List Char) : Option (List Char) :=
  match skipComment (skipWhite cs) with
  | [] => some []
  | r => newline? r

def blankLines : Nat → List Char → List Char
  | 0, cs => cs
  | n + 1, cs =>
    let r := skipComment (skipWhite cs)
    match newline? r with
    | some r => blankLines n r
    | none => r

def skipBlankLines (cs : List Char) : List Char := blankLines (cs.length + 1) cs

end Toml
end Dashboard
