import Dashboard.Setting

/-! # The settings store

The store keeps the latest value of each setting and counts the times it was set, so that a follower can tell whether
it has seen the latest value. Setting the same value again counts as well.

* `Setting.Channel`: a value and its version.
* `Setting.Store`: one channel for each setting, open as long as someone holds the store.
* `Setting.Store.set`, `Setting.Store.snapshot`: its operations.
* `Setting.Store.hold`, `Setting.Store.release`: one holder more, or less.
-/

namespace Dashboard.Setting
set_option autoImplicit false

/-- The latest value of a setting, and how often it was set. No version comes again, as long as there are fewer than
2 ^ 64 of them. -/
structure Channel where
  value : Option String := none
  version : Nat := 0
  deriving DecidableEq, Repr

/-- The channels of all settings, and the number of those who hold the store. -/
structure Store where
  scenariosDirectory : Channel := {}
  gridpathDatabase : Channel := {}
  pythonEnvironment : Channel := {}
  holders : Nat := 1
  deriving DecidableEq, Repr

namespace Store

def ofSnapshot (s : Snapshot) : Store :=
  { scenariosDirectory := { value := s.scenariosDirectory }
    gridpathDatabase := { value := s.gridpathDatabase }
    pythonEnvironment := { value := s.pythonEnvironment } }

def channel (s : Store) : Setting → Channel
  | .scenariosDirectory => s.scenariosDirectory
  | .gridpathDatabase => s.gridpathDatabase
  | .pythonEnvironment => s.pythonEnvironment

def get (s : Store) (k : Setting) : Option String := (s.channel k).value

def withChannel (s : Store) (k : Setting) (c : Channel) : Store :=
  match k with
  | .scenariosDirectory => { s with scenariosDirectory := c }
  | .gridpathDatabase => { s with gridpathDatabase := c }
  | .pythonEnvironment => { s with pythonEnvironment := c }

def set (k : Setting) (v : Option String) (s : Store) : Store :=
  s.withChannel k ⟨v, (s.channel k).version + 1⟩

def isOpen (s : Store) : Bool := 0 < s.holders

def hold (s : Store) : Store := { s with holders := s.holders + 1 }

/-- A holder lets the store go. After the last one all channels are closed; their last values can still be read by those
who follow them. -/
def release (s : Store) : Store := { s with holders := s.holders - 1 }

def snapshot (s : Store) : Snapshot := Snapshot.ofFunction s.get

@[simp] theorem channel_withChannel_self (s : Store) (k : Setting) (c : Channel) :
    (s.withChannel k c).channel k = c := by cases k <;> rfl

theorem channel_withChannel_ne (s : Store) {k m : Setting} (c : Channel) (h : m ≠ k) :
    (s.withChannel k c).channel m = s.channel m := by
  revert h
  cases k <;> cases m <;> simp [withChannel, channel]

@[simp] theorem get_set_self (s : Store) (k : Setting) (v : Option String) : (s.set k v).get k = v := by
  simp [get, set]

theorem get_set_ne (s : Store) {k m : Setting} (v : Option String) (h : m ≠ k) :
    (s.set k v).get m = s.get m := by
  simp [get, set, channel_withChannel_ne _ _ h]

end Store
end Dashboard.Setting
