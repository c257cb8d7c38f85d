import Dashboard.Slot

/-! # What a failed sample shows

* `Fallback`: a fixed status, or nothing new.
* `Fallback.forSlot`: the fallback of each slot: a server that cannot be asked is down, tables keep their last rows.
-/

namespace Dashboard
set_option autoImplicit false

inductive Fallback where
  | sentinel (status : Status)
  | keepLast
  deriving DecidableEq, Repr

namespace Fallback

def forSlot : Slot → Fallback
  | .server => .sentinel .down
  | _ => .keepLast

def status? : Fallback → Option Status
  | .sentinel s => some s
  | .keepLast => none

def describe : Fallback → String
  | .sentinel s => "Sentinel(" ++ s.describe ++ ")"
  | .keepLast => "KeepLast"

theorem status?_forSlot (s : Slot) :
    (forSlot s).status? = if s = .server then some .down else none := by
  cases s <;> rfl

end Fallback
end Dashboard
