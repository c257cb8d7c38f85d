import Dashboard.Text.Quoted
import Dashboard.Binary64.Shortest

/-! # Data that does not have the shape asked for

* `Found`: what stands in the data.
* `Mismatch`: why it cannot be read.
* `Mismatch.message`: the sentence that says so.
-/

namespace Dashboard
set_option autoImplicit false

inductive Found where
  | integer (z : Int)
  | float (x : Binary64)
  | boolean (b : Bool)
  | text (s : String)
  | absent
  | list
  | table
  | bareTag
  deriving DecidableEq, Repr

inductive Mismatch where
  | wrongType (found : Found) (expected : String)
  | wrongValue (found : Found) (expected : String)
  | wrongLength (length : Nat) (expected : String)
  | unknownTag (tag : String) (known : List String)
  | repeatedField (name : String)
  deriving DecidableEq, Repr

def ticked (s : String) : String := "`" ++ s ++ "`"

/-- The words for what was found. How a float and an absent value read depends on the format. -/
def Found.words (floatText : Binary64 → String) (absentText : String) : Found → String
  | .integer z => "integer " ++ ticked (toString z)
  | .float x => "floating point " ++ ticked (floatText x)
  | .boolean b => "boolean " ++ ticked (toString b)
  | .text s => "string " ++ Text.quoted s
  | .absent => absentText
  | .list => "sequence"
  | .table => "map"
  | .bareTag => "unit variant"

/-- A list of alternatives: one, two joined by "or", or more after "one of". -/
def alternatives : List String → String
  | [] => "there are no variants"
  | [a] => ticked a
  | [a, b] => ticked a ++ " or " ++ ticked b
  | names => "one of " ++ ", ".intercalate (names.map ticked)

def Mismatch.message (floatText : Binary64 → String) (absentText : String) : Mismatch → String
  | .wrongType found expected =>
    "invalid type: " ++ found.words floatText absentText ++ ", expected " ++ expected
  | .wrongValue found expected =>
    "invalid value: " ++ found.words floatText absentText ++ ", expected " ++ expected
  | .wrongLength n expected => "invalid length " ++ toString n ++ ", expected " ++ expected
  | .unknownTag tag known => "unknown variant " ++ ticked tag ++ ", expected " ++ alternatives known
  | .repeatedField name => "duplicate field " ++ ticked name

end Dashboard
