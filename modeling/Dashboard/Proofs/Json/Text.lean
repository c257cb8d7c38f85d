import Dashboard.Proofs.Json.Literal
import Dashboard.Proofs.Text.Digits

/-! # Written numbers, lists and objects are read back

Compact text holds no blanks, so a reader that stands before it meets the first character at once, and stops right behind the
last one.

* `Json.Ends`, `Json.Reads`: what may stand behind a value, and that a reader takes a text for a value.
* `Json.number_toDigits`, `Json.number_negative`: integers of 64 bits.
* `Cursor.nextItem_joint`, `Cursor.nextKey_joint`: what stands between the items of a list and the members of an object.
-/

namespace Dashboard.Json
set_option autoImplicit false

/-! ## Readers -/

/-- What may stand behind a value: nothing, a comma, or what closes a list or an object. -/
def Ends (rest : List Char) : Prop := ∀ c ∈ rest.head?, c = ',' ∨ c = ']' ∨ c = '}'

theorem Ends.nil : Ends [] := by
  intro c hc
  cases hc

theorem Ends.cons {c : Char} (h : c = ',' ∨ c = ']' ∨ c = '}') (rest : List Char) : Ends (c :: rest) := by
  intro d hd
  rw [List.head?_cons, Option.mem_some_iff] at hd
  exact hd ▸ h

/-- The reader takes the text for the value, and stops right behind it. -/
def Reads {α : Type} (reader : Cursor → Except Fault (α × Cursor)) (text : List Char) (a : α) : Prop :=
  ∀ rest p, Ends rest → reader ⟨text ++ rest, p⟩ = .ok (a, ⟨rest, p.pastAll text⟩)

/-! ## Numbers -/

theorem isBlank_of_isDigit {d : Char} (hd : d.isDigit = true) : Cursor.isBlank d = false := by
  have hne (c : Char) (hc : c.isDigit = false) : d ≠ c := Text.ne_of_isDigit hd hc
  simp [Cursor.isBlank, hne ' ' rfl, hne '\n' rfl, hne '\t' rfl, hne '\r' rfl]

theorem Ends.isDigit {rest : List Char} (h : Ends rest) : ∀ c ∈ rest.head?, c.isDigit = false := by
  intro c hc
  rcases h c hc with rfl | rfl | rfl <;> rfl

theorem digits_append {ds rest : List Char} (hds : ∀ d ∈ ds, d.isDigit = true)
    (hrest : ∀ c ∈ rest.head?, c.isDigit = false) (p : Position) :
    digits ⟨ds ++ rest, p⟩ = (ds, ⟨rest, p.pastAll ds⟩) := by
  have htake : (ds ++ rest).takeWhile Char.isDigit = ds := by
    rw [List.takeWhile_append_of_pos hds]
    cases rest with
    | nil => rw [List.takeWhile_nil, List.append_nil]
    | cons c rest => rw [List.takeWhile_cons_of_neg (by simp [hrest c rfl]), List.append_nil]
  rw [digits, htake, Cursor.advance_append]

theorem leadingDigits_toDigits (n : Nat) {rest : List Char} (hrest : Ends rest) (p : Position) :
    leadingDigits ⟨Nat.toDigits 10 n ++ rest, p⟩ =
      .ok (Nat.toDigits 10 n, ⟨rest, p.pastAll (Nat.toDigits 10 n)⟩) := by
  have hdigits := digits_append (fun _ => Text.isDigit_of_mem (n := n)) hrest.isDigit p
  cases hds : Nat.toDigits 10 n with
  | nil => exact absurd hds Nat.toDigits_ne_nil
  | cons d ds =>
    have hd : d.isDigit = true := Text.isDigit_of_mem (n := n) (hds ▸ List.mem_cons_self)
    by_cases hzero : d = '0'
    · subst hzero
      rw [Text.eq_nil_of_toDigits hds]
      cases rest with
      | nil => rfl
      | cons c rest =>
        have hc : c.isDigit = false := hrest.isDigit c rfl
        simp [leadingDigits, hc, Position.pastAll_cons]
    · rw [hds, List.cons_append] at hdigits
      simp [leadingDigits, hd, hdigits]

/-- Digits that write a whole number are taken for it, for nothing behind them makes it a fraction. -/
theorem reads_number {negative : Bool} {n : Nat} {m : Number}
    (h : ∀ c, wholeNumber negative (Nat.toDigits 10 n) c = .ok (m, c)) :
    Reads (number negative) (Nat.toDigits 10 n) m := by
  intro rest p hrest
  have hpoint : ∀ c ∈ rest.head?, c ≠ '.' ∧ c ≠ 'e' ∧ c ≠ 'E' := by
    intro c hc
    rcases hrest c hc with rfl | rfl | rfl <;> decide
  rw [number, leadingDigits_toDigits n hrest]
  cases rest with
  | nil => exact h _
  | cons c rest =>
    obtain ⟨hdot, hlower, hupper⟩ := hpoint c rfl
    simp [bind, Except.bind, hdot, hlower, hupper, h]

/-- A natural number of 64 bits is read back from its digits. -/
theorem number_toDigits {n : Nat} (hn : n < Word.bound) :
    Reads (number false) (Nat.toDigits 10 n) (.int n) := by
  refine reads_number fun c => ?_
  simp only [wholeNumber, Text.digitsValue_toDigits, Bool.false_eq_true, if_false, if_pos hn]

/-- A number below zero is read back from its digits behind the sign. -/
theorem number_negative {n : Nat} (hpos : n ≠ 0) (hn : n ≤ Word.signedBound) :
    Reads (number true) (Nat.toDigits 10 n) (.int (-n)) := by
  refine reads_number fun c => ?_
  simp only [wholeNumber, Text.digitsValue_toDigits, if_true, if_neg hpos, if_pos hn]

/-! ## Lists and objects -/

/-- The first character of a value: no blank, nothing that closes a list, and only that of null is the letter n. -/
theorem exists_chars {v : Json} (hv : ∀ x, v ≠ .float x) :
    ∃ c cs, chars v = c :: cs ∧ Cursor.isBlank c = false ∧ c ≠ ']' ∧ (c = 'n' → v = .null) := by
  cases v with
  | null => exact ⟨_, _, rfl, rfl, by decide, fun _ => rfl⟩
  | bool b =>
    cases b with
    | true => exact ⟨_, _, rfl, rfl, by decide, fun h => absurd h (by decide)⟩
    | false => exact ⟨_, _, rfl, rfl, by decide, fun h => absurd h (by decide)⟩
  | int z =>
    rw [chars, intChars]
    split
    · exact ⟨_, _, rfl, rfl, by decide, fun h => absurd h (by decide)⟩
    · cases hds : Nat.toDigits 10 z.natAbs with
      | nil => exact absurd hds Nat.toDigits_ne_nil
      | cons d ds =>
        have hd : d.isDigit = true := Text.isDigit_of_mem (n := z.natAbs) (hds ▸ List.mem_cons_self)
        have hne (c : Char) (hc : c.isDigit = false) : d ≠ c := Text.ne_of_isDigit hd hc
        exact ⟨d, ds, rfl, isBlank_of_isDigit hd, hne ']' rfl, fun h => absurd h (hne 'n' rfl)⟩
  | float x => exact absurd rfl (hv x)
  | text s => exact ⟨_, _, rfl, rfl, by decide, fun h => absurd h (by decide)⟩
  | array items => exact ⟨_, _, rfl, rfl, by decide, fun h => absurd h (by decide)⟩
  | object members => exact ⟨_, _, rfl, rfl, by decide, fun h => absurd h (by decide)⟩

/-- What stands before an item or a member: a comma, unless it is the first one. -/
def joint (first : Bool) : List Char := if first then [] else [',']

/-- The items of a list from one on, which may be the first. -/
def itemsFrom (first : Bool) : List Json → List Char
  | [] => []
  | v :: vs => joint first ++ (chars v ++ itemsFrom false vs)

/-- The members of an object from one on, which may be the first. -/
def membersFrom (first : Bool) : List (String × Json) → List Char
  | [] => []
  | (k, v) :: ms => joint first ++ (stringChars k ++ ':' :: (chars v ++ membersFrom false ms))

theorem itemChars_eq (vs : List Json) : itemChars vs = itemsFrom true vs := by
  have hcons (v : Json) (vs : List Json) : itemChars (v :: vs) = chars v ++ itemsFrom false vs := by
    induction vs generalizing v with
    | nil => rw [itemChars, itemsFrom, List.append_nil]
    | cons w vs ih => rw [itemChars, ih w]; rfl
  cases vs with
  | nil => rw [itemChars, itemsFrom]
  | cons v vs => exact hcons v vs

theorem memberChars_eq (ms : List (String × Json)) : memberChars ms = membersFrom true ms := by
  have hcons (m : String × Json) (ms : List (String × Json)) :
      memberChars (m :: ms) = stringChars m.1 ++ ':' :: (chars m.2 ++ membersFrom false ms) := by
    induction ms generalizing m with
    | nil => rw [memberChars, membersFrom, List.append_nil]
    | cons n ms ih => rw [memberChars, ih n]; rfl
  cases ms with
  | nil => rw [memberChars, membersFrom]
  | cons m ms => exact hcons m ms

theorem length_le_itemsFrom {vs : List Json} (hvs : ∀ v ∈ vs, ∀ x, v ≠ .float x) (first : Bool) :
    vs.length ≤ (itemsFrom first vs).length := by
  induction vs generalizing first with
  | nil => exact Nat.zero_le _
  | cons v vs ih =>
    obtain ⟨c, cs, hchars, -⟩ := exists_chars (hvs v List.mem_cons_self)
    have hrest := ih (fun w hw => hvs w (List.mem_cons_of_mem v hw)) false
    simp only [itemsFrom, hchars, List.length_append, List.length_cons]
    omega

theorem length_le_membersFrom (ms : List (String × Json)) (first : Bool) :
    ms.length ≤ (membersFrom first ms).length := by
  induction ms generalizing first with
  | nil => exact Nat.zero_le _
  | cons m ms ih =>
    have hrest := ih false
    simp only [membersFrom, List.length_append, List.length_cons]
    omega

theorem ends_itemsFrom (vs : List Json) (rest : List Char) : Ends (itemsFrom false vs ++ ']' :: rest) := by
  cases vs with
  | nil => exact .cons (.inr (.inl rfl)) rest
  | cons v vs => exact .cons (.inl rfl) _

theorem ends_membersFrom (ms : List (String × Json)) (rest : List Char) :
    Ends (membersFrom false ms ++ '}' :: rest) := by
  cases ms with
  | nil => exact .cons (.inr (.inr rfl)) rest
  | cons m ms => exact .cons (.inl rfl) _

namespace Cursor
variable (first : Bool) (rest : List Char) (p : Position)

theorem nextItem_joint {c : Char} (hblank : isBlank c = false) (hc : c ≠ ']') :
    nextItem first ⟨joint first ++ c :: rest, p⟩ = .ok (true, ⟨c :: rest, p.pastAll (joint first)⟩) := by
  cases first with
  | true => simp [joint, nextItem, skipBlanks_cons p rest hblank]
  | false =>
    have hcomma : isBlank ',' = false := rfl
    simp [joint, nextItem, skipBlanks_cons p _ hcomma, skipBlanks_cons _ rest hblank, hc, Position.pastAll_cons]

theorem nextKey_joint :
    nextKey first ⟨joint first ++ '"' :: rest, p⟩ = .ok (true, ⟨rest, p.pastAll (joint first ++ ['"'])⟩) := by
  cases first <;> rfl

theorem colon_cons : colon ⟨':' :: rest, p⟩ = .ok ⟨rest, p.past ':'⟩ := rfl

theorem endList_cons : endList ⟨']' :: rest, p⟩ = .ok ⟨rest, p.past ']'⟩ := rfl

theorem endObject_cons : endObject ⟨'}' :: rest, p⟩ = .ok ⟨rest, p.past '}'⟩ := rfl

end Cursor
end Dashboard.Json
