import Dashboard.Text.Printable

/-! # Quoted texts

A quoted text stands between double quotes. Quote, backslash and the usual control characters have
two-character escapes, every other character without a glyph is written as its hexadecimal code point in
braces, and all else stands for itself.

* `Quoted.hex`: lower-case hexadecimal digits.
* `Quoted.encodeChar`, `Quoted.encode`: the escape of one character and of a text.
* `quoted`: the whole form.
* `quotedList`: texts in brackets, separated by a comma and a space.
-/

namespace Dashboard.Text
set_option autoImplicit false

namespace Quoted

def hex (n : Nat) : List Char := Nat.toDigits 16 n

def encodeChar (c : Char) : List Char :=
  match c with
  | '"' => ['\\', '"']
  | '\\' => ['\\', '\\']
  | '\n' => ['\\', 'n']
  | '\r' => ['\\', 'r']
  | '\t' => ['\\', 't']
  | '\x00' => ['\\', '0']
  | c => if isPrintable c then [c] else ['\\', 'u', '{'] ++ hex c.toNat ++ ['}']

def encode (cs : List Char) : List Char := cs.flatMap encodeChar

theorem encode_append (a b : List Char) : encode (a ++ b) = encode a ++ encode b := by
  simp [encode]

end Quoted

def quoted (s : String) : String := "\"" ++ String.ofList (Quoted.encode s.toList) ++ "\""

def bracketed (items : List String) : String := "[" ++ ", ".intercalate items ++ "]"

def quotedList (texts : List String) : String := bracketed (texts.map quoted)

end Dashboard.Text
