import Dashboard.Json.Reader
import Dashboard.Proofs.Result
import Mathlib.Data.List.TakeWhile

/-! # What the reader of values gives

* `Position.pastAll_append`, `Cursor.advance_append`: places behind a text.
* `Json.Outcome`, `Json.outcome_of_value`: what may be read as a value, by its first character.
* `Json.exists_value_of_items`, `Json.exists_value_of_members`: the parts of a list or an object are read as values.
* `Json.parse_eq_ok_iff`: a whole text is one value with nothing but blanks behind it.
-/

namespace Dashboard.Json
set_option autoImplicit false

/-! ## Places -/

namespace Position
variable (p : Position)

@[simp] theorem pastAll_nil : p.pastAll [] = p := rfl

theorem pastAll_cons (c : Char) (cs : List Char) : p.pastAll (c :: cs) = (p.past c).pastAll cs := rfl

theorem pastAll_append (cs ds : List Char) : p.pastAll (cs ++ ds) = (p.pastAll cs).pastAll ds := List.foldl_append

end Position

namespace Cursor
variable (p : Position) (rest : List Char)

theorem advance_append (cs : List Char) : advance cs.length ⟨cs ++ rest, p⟩ = ⟨rest, p.pastAll cs⟩ := by
  rw [advance, List.drop_left, List.take_left]

@[simp] theorem advance_one (c : Char) : advance 1 ⟨c :: rest, p⟩ = ⟨rest, p.past c⟩ := rfl

theorem skipBlanks_cons {c : Char} (h : isBlank c = false) : skipBlanks ⟨c :: rest, p⟩ = ⟨c :: rest, p⟩ := by
  simp [skipBlanks, h]

end Cursor

/-! ## Values -/

/-- What may be read as a value in so many further steps. Lists and objects take one level of the depth. -/
inductive Outcome (steps depth : Nat) (c d : Cursor) : Json → Prop
  | null : Outcome steps depth c d .null
  | bool (b : Bool) : Outcome steps depth c d (.bool b)
  | int (z : Int) : Outcome steps depth c d (.int z)
  | float (x : Binary64) : Outcome steps depth c d (.float x)
  | text {rest : List Char} {s : String} (hquote : c.skipBlanks.rest = '"' :: rest)
      (h : string (c.skipBlanks.advance 1) = .ok (s, d)) : Outcome steps depth c d (.text s)
  | array {k : Nat} {vs : List Json} (hdepth : depth = k + 2)
      (h : items steps (k + 1) true (c.skipBlanks.advance 1) = .ok (vs, d)) : Outcome steps depth c d (.array vs)
  | object {k : Nat} {ms : List (String × Json)} (hdepth : depth = k + 2)
      (h : members steps (k + 1) true [] (c.skipBlanks.advance 1) = .ok (ms, d)) : Outcome steps depth c d (.object ms)

section
variable {steps depth : Nat} {c d : Cursor}

theorem outcome_of_value {v : Json} (h : value (steps + 1) depth c = .ok (v, d)) : Outcome steps depth c d v := by
  have hnumber (m : Number) : Outcome steps depth c d m.toJson := by
    cases m with
    | int z => exact .int z
    | float x => exact .float x
  unfold value at h
  dsimp only at h
  split at h
  case h_1 => cases h
  case h_2 =>
    obtain ⟨_, -, ⟨⟩⟩ := map_eq_ok_iff.1 h
    exact .null
  case h_3 =>
    obtain ⟨_, -, ⟨⟩⟩ := map_eq_ok_iff.1 h
    exact .bool true
  case h_4 =>
    obtain ⟨_, -, ⟨⟩⟩ := map_eq_ok_iff.1 h
    exact .bool false
  case h_5 =>
    obtain ⟨r, -, ⟨⟩⟩ := map_eq_ok_iff.1 h
    exact hnumber r.1
  case h_6 hquote =>
    obtain ⟨r, hs, ⟨⟩⟩ := map_eq_ok_iff.1 h
    exact .text hquote hs
  case h_7 =>
    split at h
    · obtain ⟨r, hvs, ⟨⟩⟩ := map_eq_ok_iff.1 h
      exact .array rfl hvs
    · cases h
  case h_8 =>
    split at h
    · obtain ⟨r, hms, ⟨⟩⟩ := map_eq_ok_iff.1 h
      exact .object rfl hms
    · cases h
  case h_9 =>
    split at h
    · obtain ⟨r, -, ⟨⟩⟩ := map_eq_ok_iff.1 h
      exact hnumber r.1
    · cases h

/-! ## Lists and objects -/

theorem exists_value_of_items {first : Bool} {vs : List Json} (h : items steps depth first c = .ok (vs, d)) :
    ∀ v ∈ vs, ∃ s b e, value s depth b = .ok (v, e) := by
  induction steps generalizing first c vs d with
  | zero => cases h
  | succ steps ih =>
    unfold items at h
    obtain ⟨⟨more, b⟩, -, h⟩ := bind_eq_ok_iff.1 h
    cases more with
    | false =>
      obtain ⟨_, -, ⟨⟩⟩ := bind_eq_ok_iff.1 h
      exact List.forall_mem_nil _
    | true =>
      obtain ⟨⟨v, e⟩, hv, h⟩ := bind_eq_ok_iff.1 h
      obtain ⟨⟨ws, _⟩, hws, ⟨⟩⟩ := bind_eq_ok_iff.1 h
      exact List.forall_mem_cons.2 ⟨⟨steps, b, e, hv⟩, ih hws⟩

theorem mem_put {k : String} {v : Json} {ms : List (String × Json)} {m : String × Json} (h : m ∈ put k v ms) :
    m = (k, v) ∨ m ∈ ms := by
  induction ms with
  | nil => exact .inl (List.mem_singleton.1 h)
  | cons n ms ih =>
    unfold put at h
    split at h
    · exact List.mem_cons.1 h
    · split at h
      · exact (List.mem_cons.1 h).imp_right (List.mem_cons_of_mem n)
      · rcases List.mem_cons.1 h with rfl | h
        · exact .inr List.mem_cons_self
        · exact (ih h).imp_right (List.mem_cons_of_mem n)

theorem exists_value_of_members {first : Bool} {sofar ms : List (String × Json)}
    (h : members steps depth first sofar c = .ok (ms, d)) :
    ∀ m ∈ ms, m ∈ sofar ∨ ∃ s b e, value s depth b = .ok (m.2, e) := by
  induction steps generalizing first sofar c d with
  | zero => cases h
  | succ steps ih =>
    unfold members at h
    obtain ⟨⟨more, b⟩, -, h⟩ := bind_eq_ok_iff.1 h
    cases more with
    | false =>
      obtain ⟨_, -, ⟨⟩⟩ := bind_eq_ok_iff.1 h
      exact fun m hm => .inl hm
    | true =>
      obtain ⟨⟨k, _⟩, -, h⟩ := bind_eq_ok_iff.1 h
      obtain ⟨a, -, h⟩ := bind_eq_ok_iff.1 h
      obtain ⟨⟨v, e⟩, hv, h⟩ := bind_eq_ok_iff.1 h
      intro m hm
      rcases ih h m hm with hm | hm
      · rcases mem_put hm with rfl | hm
        · exact .inr ⟨steps, a, e, hv⟩
        · exact .inl hm
      · exact .inr hm

end

/-! ## Whole texts -/

theorem finish_iff {c : Cursor} : c.finish = .ok () ↔ ∀ x ∈ c.rest, Cursor.isBlank x = true := by
  rw [← List.dropWhile_eq_nil_iff]
  cases hrest : c.rest.dropWhile Cursor.isBlank with
  | nil => simp [Cursor.finish, Cursor.skipBlanks, hrest]
  | cons x xs => simp [Cursor.finish, Cursor.skipBlanks, hrest, Cursor.failAfter]

/-- A whole text is one value, with nothing but blanks behind it. -/
theorem parse_eq_ok_iff (t : String) (v : Json) : parse t = .ok v ↔
    ∃ d, value (stepBound (.ofString t)) depthBound (.ofString t) = .ok (v, d) ∧
      ∀ x ∈ d.rest, Cursor.isBlank x = true := by
  constructor
  · intro h
    obtain ⟨⟨w, d⟩, hw, h⟩ := bind_eq_ok_iff.1 h
    obtain ⟨_, hfinish, ⟨⟩⟩ := bind_eq_ok_iff.1 h
    exact ⟨d, hw, finish_iff.1 hfinish⟩
  · rintro ⟨d, hv, hblank⟩
    exact bind_eq_ok_iff.2 ⟨_, hv, bind_eq_ok_iff.2 ⟨(), finish_iff.2 hblank, rfl⟩⟩

end Dashboard.Json
