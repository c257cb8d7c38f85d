import Dashboard.Toml.Basic
import Dashboard.Text.Digits

/-! # Reading TOML strings

* `Toml.basicBody`, `Toml.literalBody`: strings on one line, with and without escapes.
* `Toml.basicLines`, `Toml.literalLines`: strings on several lines.
* `Toml.text?`: a string of any of the four forms.
-/

namespace Dashboard.Toml
set_option autoImplicit false

/-- The character of hexadecimal digits, if they write one. -/
def codePoint? (ds : List Char) : Option Char :=
  if ds.all fun d => (Text.hexValue? d).isSome then
    let n := Text.digitsValue 16 ds
    if n.isValidChar then some (Char.ofNat n) else none
  else none

def letterEscape? : Char → Option Char
  | 'b' => some '\x08'
  | 't' => some '\t'
  | 'n' => some '\n'
  | 'f' => some '\x0c'
  | 'r' => some '\r'
  | '"' => some '"'
  | '\\' => some '\\'
  | _ => none

/-- The character of an escape after its backslash, and the number of characters it takes. -/
def escape? (cs : List Char) : Option (Char × Nat) :=
  match cs with
  | 'u' :: r => if r.length < 4 then none else (codePoint? (r.take 4)).map fun c => (c, 5)
  | 'U' :: r => if r.length < 8 then none else (codePoint? (r.take 8)).map fun c => (c, 9)
  | c :: _ => (letterEscape? c).map fun c => (c, 1)
  | [] => none

def basicBody (cs : List Char) : Option (List Char × List Char) :=
  match cs with
  | [] => none
  | c :: r =>
    if c = '"' then some ([], r)
    else if c = '\\' then do
      let (x, n) ← escape? r
      let (t, rest) ← basicBody (r.drop n)
      some (x :: t, rest)
    else if isPlain c then do
      let (t, rest) ← basicBody r
      some (c :: t, rest)
    else none
termination_by cs.length
decreasing_by
  all_goals
    simp only [List.length_drop, List.length_cons]
    omega

def literalBody : List Char → Option (List Char × List Char)
  | [] => none
  | c :: r =>
    if c = '\'' then some ([], r)
    else if isPlain c then do
      let (t, rest) ← literalBody r
      some (c :: t, rest)
    else none

/-! ## Several lines -/

/-- The closing quotes of a string of several lines. Up to two quotes before them belong to the string. -/
def closing? (quote : Char) (cs : List Char) : Option (List Char × List Char) :=
  let run := (cs.takeWhile (· = quote)).length
  if run < 3 then none
  else
    let inside := min (run - 3) 2
    some (List.replicate inside quote, cs.drop (inside + 3))

/-- Past a backslash at the end of a line, and all blanks and newlines after it. -/
def continuation? (cs : List Char) : Option (List Char) :=
  match newline? (skipWhite cs) with
  | none => none
  | some r => some (skipBreaks r)
where
  /-- Past blanks and newlines. -/
  skipBreaks : List Char → List Char
    | ' ' :: r | '\t' :: r | '\n' :: r => skipBreaks r
    | '\r' :: '\n' :: r => skipBreaks r
    | cs => cs

/-- A string of several lines with escapes, after its opening quotes. The first argument bounds the steps. -/
def basicLines : Nat → List Char → Option (List Char × List Char)
  | 0, _ => none
  | n + 1, cs =>
    match closing? '"' cs with
    | some r => some r
    | none =>
      match newline? cs with
      | some r => (basicLines n r).map fun t => ('\n' :: t.1, t.2)
      | none =>
        match cs with
        | [] => none
        | '\\' :: r =>
          match continuation? r with
          | some r => basicLines n r
          | none => do
            let (x, k) ← escape? r
            let (t, rest) ← basicLines n (r.drop k)
            some (x :: t, rest)
        | c :: r => if isPlain c then (basicLines n r).map fun t => (c :: t.1, t.2) else none

/-- A string of several lines without escapes, after its opening quotes. The first argument bounds the steps. -/
def literalLines : Nat → List Char → Option (List Char × List Char)
  | 0, _ => none
  | n + 1, cs =>
    match closing? '\'' cs with
    | some r => some r
    | none =>
      match newline? cs with
      | some r => (literalLines n r).map fun t => ('\n' :: t.1, t.2)
      | none =>
        match cs with
        | [] => none
        | c :: r => if isPlain c then (literalLines n r).map fun t => (c :: t.1, t.2) else none

def dropNewline (cs : List Char) : List Char := (newline? cs).getD cs

def lineText? : List Char → Option (List Char × List Char)
  | '"' :: r => basicBody r
  | '\'' :: r => literalBody r
  | _ => none

/-- A string of any form. A newline right after the opening quotes of several lines is not part of it. -/
def text? : List Char → Option (List Char × List Char)
  | '"' :: '"' :: '"' :: r => basicLines (r.length + 1) (dropNewline r)
  | '\'' :: '\'' :: '\'' :: r => literalLines (r.length + 1) (dropNewline r)
  | cs => lineText? cs

end Dashboard.Toml
