import Dashboard.Toml.Basic
import Dashboard.Word

/-! # Writing TOML sections

* `Toml.Style`, `Toml.Style.of`: the form of string that suits a text.
* `Toml.textChars`: a text in the form that suits it.
* `Toml.Leaf`, `Toml.Section`: a document of sections of texts and natural numbers.
* `Toml.render`: the text of such a document.
-/

namespace Dashboard.Toml
set_option autoImplicit false

/-! ## Strings -/

inductive Style where
  | basic
  | literal
  | basicLines
  | literalLines
  deriving DecidableEq, Repr

/-- A character that has to be escaped: a control character other than tab and newline. -/
def isHidden (c : Char) : Bool := !isPlain c && c != '\n'

/-- The length of the longest run of a character; `n` of them stand right before the text. -/
def longestRun (quote : Char) : Nat → List Char → Nat
  | n, [] => n
  | n, c :: cs => if c = quote then longestRun quote (n + 1) cs else max n (longestRun quote 0 cs)

/-- The form for a text: the first that shows it as it is, and basic with escapes if none does. -/
def Style.of (cs : List Char) : Style :=
  let hidden := cs.any isHidden
  let lines := cs.contains '\n'
  let double := longestRun '"' 0 cs
  let single := longestRun '\'' 0 cs
  if !hidden && !cs.contains '\\' && double == 0 && !lines then .basic
  else if !hidden && single == 0 && !lines then .literal
  else if !hidden && !cs.contains '\\' && double < 3 then .basicLines
  else if !hidden && single < 3 then .literalLines
  else if lines then .basicLines
  else .basic

def upperDigit (n : Nat) : Char := (Nat.digitChar n).toUpper

/-- The written form of a character in a basic string, the quote and the newline aside. -/
def escapedChar (c : Char) : List Char :=
  match c with
  | '\\' => ['\\', '\\']
  | '\x08' => ['\\', 'b']
  | '\t' => ['\\', 't']
  | '\x0c' => ['\\', 'f']
  | '\r' => ['\\', 'r']
  | c =>
    if isPlain c then [c]
    else ['\\', 'u', '0', '0', upperDigit (c.toNat / 16), upperDigit (c.toNat % 16)]

def basicChars (cs : List Char) : List Char :=
  cs.flatMap fun c => if c = '"' then ['\\', '"'] else escapedChar c

/-- The inside of a basic string on several lines; `n` quotes stand right before it. Every third quote in a row is
escaped, so that no three of them close the string. -/
def basicLineChars : Nat → List Char → List Char
  | _, [] => []
  | n, c :: cs =>
    if c = '"' then
      if n = 2 then '\\' :: '"' :: basicLineChars 0 cs else '"' :: basicLineChars (n + 1) cs
    else if c = '\n' then '\n' :: basicLineChars 0 cs
    else escapedChar c ++ basicLineChars 0 cs

/-- A text between quotes of several lines, which open with a newline if the text has one. -/
def inLines (quotes cs inside : List Char) : List Char :=
  quotes ++ (if cs.contains '\n' then '\n' :: inside else inside) ++ quotes

def styledChars (cs : List Char) : Style → List Char
  | .basic => '"' :: (basicChars cs ++ ['"'])
  | .literal => '\'' :: (cs ++ ['\''])
  | .basicLines => inLines ['"', '"', '"'] cs (basicLineChars 0 cs)
  | .literalLines => inLines ['\'', '\'', '\''] cs cs

def textChars (cs : List Char) : List Char := styledChars cs (Style.of cs)

/-! ## Sections -/

inductive Leaf where
  | text (s : String)
  | natural (n : Nat)
  deriving DecidableEq, Repr

inductive Unwritable where
  | integerTooLarge
  deriving DecidableEq, Repr

def Unwritable.message : Unwritable → String
  | .integerTooLarge => "out-of-range value for u64 type"

structure Section where
  name : String
  entries : List (String × Leaf)

/-- The written form of a value. An integer has to fit into 64 bits with a sign. -/
def Leaf.chars : Leaf → Except Unwritable (List Char)
  | .text s => .ok (textChars s.toList)
  | .natural n => if n < Word.signedBound then .ok (Nat.toDigits 10 n) else .error .integerTooLarge

def entryChars : List (String × Leaf) → Except Unwritable (List Char)
  | [] => .ok []
  | (key, leaf) :: rest => do
    let v ← leaf.chars
    let r ← entryChars rest
    .ok (key.toList ++ [' ', '=', ' '] ++ v ++ '\n' :: r)

/-- The header of a section and its entries, a line each. -/
def Section.chars (s : Section) : Except Unwritable (List Char) :=
  (entryChars s.entries).map fun es => '[' :: (s.name.toList ++ [']', '\n'] ++ es)

def sectionChars : List Section → Except Unwritable (List Char)
  | [] => .ok []
  | [s] => s.chars
  | s :: t :: rest => do
    let a ← s.chars
    let b ← sectionChars (t :: rest)
    .ok (a ++ '\n' :: b)

def render (ss : List Section) : Except Unwritable String := (sectionChars ss).map String.ofList

end Dashboard.Toml
