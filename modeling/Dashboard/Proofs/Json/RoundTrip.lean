import Dashboard.Proofs.Json.Reader
import Dashboard.Proofs.Json.Text

/-! # Compact text is read back

A value is found again in its compact text, unless it holds a float or nests deeper than the reader goes.

* `Json.Plain`: values without floats, by how deep they nest.
* `Json.items_itemsFrom`, `Json.members_membersFrom`: lists and objects whose parts are read.
* `Json.Plain.reads`, `Json.Plain.of_value`: a value wherever it stands, and the depth that it takes.
* `Json.parse_render_iff`: a value that is a whole text.
-/

namespace Dashboard.Json
set_option autoImplicit false

/-- A value without floats, in which at most `n` lists and objects stand inside one another. Integers have 64 bits, and keys
ascend as `put` has them. -/
inductive Plain : Nat → Json → Prop
  | null {n : Nat} : Plain n .null
  | bool {n : Nat} (b : Bool) : Plain n (.bool b)
  | int {n : Nat} {z : Int} (hlow : -(Word.signedBound : Int) ≤ z) (hhigh : z < Word.bound) : Plain n (.int z)
  | text {n : Nat} (s : String) : Plain n (.text s)
  | array {n : Nat} {items : List Json} (h : ∀ v ∈ items, Plain n v) : Plain (n + 1) (.array items)
  | object {n : Nat} {members : List (String × Json)} (hkeys : (members.map Prod.fst).Pairwise (· < ·))
      (h : ∀ m ∈ members, Plain n m.2) : Plain (n + 1) (.object members)

theorem Plain.ne_float {n : Nat} {v : Json} (h : Plain n v) (x : Binary64) : v ≠ .float x := by
  rintro rfl
  cases h

/-! ## Single values -/

section
variable (steps depth : Nat)

theorem reads_null : Reads (value (steps + 1) depth) (chars .null) .null := fun _ _ _ => rfl

theorem reads_bool (b : Bool) : Reads (value (steps + 1) depth) (chars (.bool b)) (.bool b) := by
  intro rest p _
  cases b <;> rfl

theorem reads_text (s : String) : Reads (value (steps + 1) depth) (chars (.text s)) (.text s) := by
  intro rest p _
  have hquote : Cursor.isBlank '"' = false := rfl
  rw [chars, stringChars, List.cons_append, List.append_assoc, List.singleton_append]
  unfold value
  simp only [Cursor.skipBlanks_cons p _ hquote, Cursor.advance_one, string_stringChars]
  rfl

/-- A value that begins with a digit is a number. -/
theorem value_digit {d : Char} (hd : d.isDigit = true) (rest : List Char) (p : Position) :
    value (steps + 1) depth ⟨d :: rest, p⟩ = (number false ⟨d :: rest, p⟩).map fun r => (r.1.toJson, r.2) := by
  have hne {c : Char} {cs : List Char} (hc : c.isDigit = false) : d :: rest ≠ c :: cs := fun h =>
    Text.ne_of_isDigit hd hc (List.cons.inj h).1
  unfold value
  simp only [Cursor.skipBlanks_cons p _ (isBlank_of_isDigit hd)]
  split
  case h_1 heq => cases heq
  case h_9 heq =>
    rw [← (List.cons.inj heq).1, if_pos hd]
  all_goals
    rename_i heq
    exact absurd heq (hne rfl)

theorem reads_int {z : Int} (hlow : -(Word.signedBound : Int) ≤ z) (hhigh : z < Word.bound) :
    Reads (value (steps + 1) depth) (chars (.int z)) (.int z) := by
  intro rest p hrest
  rw [chars, intChars]
  split
  · have hpos : z.natAbs ≠ 0 := by omega
    have hbound : z.natAbs ≤ Word.signedBound := by omega
    have hz : -(z.natAbs : Int) = z := by omega
    have hminus : Cursor.isBlank '-' = false := rfl
    have hnumber := number_negative hpos hbound rest (p.past '-') hrest
    rw [List.cons_append]
    unfold value
    simp only [Cursor.skipBlanks_cons p _ hminus, Cursor.advance_one, hnumber, hz]
    rfl
  · have hbound : z.natAbs < Word.bound := by omega
    have hz : (z.natAbs : Int) = z := by omega
    have hnumber := number_toDigits hbound rest p hrest
    cases hds : Nat.toDigits 10 z.natAbs with
    | nil => exact absurd hds Nat.toDigits_ne_nil
    | cons d ds =>
      have hd : d.isDigit = true := Text.isDigit_of_mem (n := z.natAbs) (hds ▸ List.mem_cons_self)
      rw [hds, List.cons_append] at hnumber
      rw [List.cons_append, value_digit steps depth hd, hnumber, Except.map, hz, Number.toJson]

end

/-! ## Lists -/

/-- The items of a list are read one after the other, with a step for each. -/
theorem items_itemsFrom {vs : List Json} {depth : Nat} (hexact : ∀ v ∈ vs, ∀ x, v ≠ .float x)
    (hvs : ∀ v ∈ vs, ∀ steps, (chars v).length ≤ steps → Reads (value steps depth) (chars v) v) (steps : Nat)
    (first : Bool) (hsteps : (itemsFrom first vs).length < steps) (rest : List Char) (p : Position) :
    items steps depth first ⟨itemsFrom first vs ++ ']' :: rest, p⟩ =
      .ok (vs, ⟨rest, p.pastAll (itemsFrom first vs ++ [']'])⟩) := by
  induction vs generalizing steps first p with
  | nil =>
    cases steps with
    | zero => exact absurd hsteps (Nat.not_lt_zero _)
    | succ steps => rfl
  | cons v vs ih =>
    cases steps with
    | zero => exact absurd hsteps (Nat.not_lt_zero _)
    | succ steps =>
      obtain ⟨c, cs, hchars, hblank, hclose, -⟩ := exists_chars (hexact v List.mem_cons_self)
      have hpos : 0 < (chars v).length := by simp [hchars]
      simp only [itemsFrom, List.length_append] at hsteps
      have hfirst := hvs v List.mem_cons_self steps (by omega) (itemsFrom false vs ++ ']' :: rest)
        (p.pastAll (joint first)) (ends_itemsFrom _ rest)
      have hrest := ih (fun w hw => hexact w (List.mem_cons_of_mem v hw)) (fun w hw => hvs w (List.mem_cons_of_mem v hw))
        steps false (by omega) ((p.pastAll (joint first)).pastAll (chars v))
      have hnext := Cursor.nextItem_joint first (cs ++ (itemsFrom false vs ++ ']' :: rest)) p hblank hclose
      rw [← List.cons_append, ← hchars] at hnext
      rw [itemsFrom, List.append_assoc, List.append_assoc, items, hnext]
      simp only [bind, Except.bind, hfirst, hrest, List.append_assoc, Position.pastAll_append]

/-! ## Objects -/

/-- A member with the greatest key so far goes to the end. -/
theorem put_of_greatest {k : String} {v : Json} {ms : List (String × Json)} (h : ∀ m ∈ ms, m.1 < k) :
    put k v ms = ms ++ [(k, v)] := by
  induction ms with
  | nil => rfl
  | cons m ms ih =>
    have hless : m.1 < k := h m List.mem_cons_self
    have hne : k ≠ m.1 := fun hk => String.lt_irrefl k (hk ▸ hless)
    rw [put, if_neg (String.lt_asymm hless), if_neg hne, ih fun n hn => h n (List.mem_cons_of_mem m hn)]
    rfl

/-- The members of an object are read one after the other behind the members so far, with a step for each. -/
theorem members_membersFrom {ms : List (String × Json)} {depth : Nat}
    (hms : ∀ m ∈ ms, ∀ steps, (chars m.2).length ≤ steps → Reads (value steps depth) (chars m.2) m.2) (steps : Nat)
    (first : Bool) (hsteps : (membersFrom first ms).length < steps) (sofar : List (String × Json))
    (hkeys : ((sofar ++ ms).map Prod.fst).Pairwise (· < ·)) (rest : List Char) (p : Position) :
    members steps depth first sofar ⟨membersFrom first ms ++ '}' :: rest, p⟩ =
      .ok (sofar ++ ms, ⟨rest, p.pastAll (membersFrom first ms ++ ['}'])⟩) := by
  induction ms generalizing steps first sofar p with
  | nil =>
    cases steps with
    | zero => exact absurd hsteps (Nat.not_lt_zero _)
    | succ steps =>
      rw [List.append_nil]
      rfl
  | cons m ms ih =>
    obtain ⟨k, v⟩ := m
    cases steps with
    | zero => exact absurd hsteps (Nat.not_lt_zero _)
    | succ steps =>
      have hgreatest : ∀ m ∈ sofar, m.1 < k := by
        rw [List.map_append, List.pairwise_append] at hkeys
        exact fun m hm => hkeys.2.2 _ (List.mem_map_of_mem hm) k List.mem_cons_self
      have hput : put k v sofar ++ ms = sofar ++ (k, v) :: ms := by
        rw [put_of_greatest hgreatest, List.append_assoc, List.singleton_append]
      simp only [membersFrom, List.length_append, List.length_cons] at hsteps
      have hnext := Cursor.nextKey_joint first
        (k.toList.flatMap escape ++ '"' :: ':' :: (chars v ++ (membersFrom false ms ++ '}' :: rest))) p
      have hvalue := hms (k, v) List.mem_cons_self steps (by simp only; omega) (membersFrom false ms ++ '}' :: rest)
      have hrest := ih (fun m hm => hms m (List.mem_cons_of_mem _ hm)) steps false (by omega) _ (hput ▸ hkeys)
      rw [membersFrom, stringChars]
      simp only [List.cons_append, List.append_assoc, List.nil_append] at hnext ⊢
      rw [members, hnext]
      simp only [bind, Except.bind, string_stringChars, Cursor.colon_cons, hvalue _ (ends_membersFrom ms rest), hrest, hput,
        Position.pastAll_append, Position.pastAll_cons, Position.pastAll_nil]

/-! ## All values -/

theorem Plain.length_pos {n : Nat} {v : Json} (h : Plain n v) : 0 < (chars v).length := by
  obtain ⟨c, cs, hchars, -⟩ := exists_chars h.ne_float
  rw [hchars]
  exact Nat.succ_pos _

/-- A value is not read in no steps, but its text is not empty. -/
theorem Plain.reads_of_succ {n depth : Nat} {v : Json} (h : Plain n v)
    (hreads : ∀ steps, (chars v).length ≤ steps + 1 → Reads (value (steps + 1) depth) (chars v) v) (steps : Nat)
    (hsteps : (chars v).length ≤ steps) : Reads (value steps depth) (chars v) v := by
  obtain ⟨s, rfl⟩ := Nat.exists_eq_add_one.2 (Nat.lt_of_lt_of_le h.length_pos hsteps)
  exact hreads s hsteps

theorem Plain.reads_succ {n : Nat} {v : Json} (h : Plain n v) {steps depth : Nat}
    (hsteps : (chars v).length ≤ steps + 1) (hdepth : n < depth) : Reads (value (steps + 1) depth) (chars v) v := by
  induction h generalizing steps depth with
  | null => exact reads_null steps depth
  | bool b => exact reads_bool steps depth b
  | int hlow hhigh => exact reads_int steps depth hlow hhigh
  | text s => exact reads_text steps depth s
  | @array n vs hvs ih =>
    intro rest p _
    obtain ⟨d, rfl⟩ : ∃ d, depth = d + 2 := ⟨depth - 2, by omega⟩
    have hparts : ∀ v ∈ vs, ∀ steps, (chars v).length ≤ steps → Reads (value steps (d + 1)) (chars v) v :=
      fun v hv => (hvs v hv).reads_of_succ fun s hs => ih v hv hs (by omega)
    have hbracket : Cursor.isBlank '[' = false := rfl
    simp only [chars, itemChars_eq, List.length_cons, List.length_append, List.length_nil] at hsteps
    have hitems := items_itemsFrom (fun v hv => (hvs v hv).ne_float) hparts steps true (by omega) rest
      (p.past '[')
    rw [chars, itemChars_eq, List.cons_append, List.append_assoc, List.singleton_append]
    unfold value
    simp only [Cursor.skipBlanks_cons p _ hbracket, Cursor.advance_one, hitems]
    rfl
  | @object n ms hkeys hms ih =>
    intro rest p _
    obtain ⟨d, rfl⟩ : ∃ d, depth = d + 2 := ⟨depth - 2, by omega⟩
    have hparts : ∀ m ∈ ms, ∀ steps, (chars m.2).length ≤ steps → Reads (value steps (d + 1)) (chars m.2) m.2 :=
      fun m hm => (hms m hm).reads_of_succ fun s hs => ih m hm hs (by omega)
    have hbrace : Cursor.isBlank '{' = false := rfl
    simp only [chars, memberChars_eq, List.length_cons, List.length_append, List.length_nil] at hsteps
    have hmembers := members_membersFrom hparts steps true (by omega) [] hkeys rest (p.past '{')
    rw [chars, memberChars_eq, List.cons_append, List.append_assoc, List.singleton_append]
    unfold value
    simp only [Cursor.skipBlanks_cons p _ hbrace, Cursor.advance_one, hmembers]
    rfl

/-- A value is read from its text wherever it stands, if the reader may go one level deeper than the value nests. -/
theorem Plain.reads {n steps depth : Nat} {v : Json} (h : Plain n v) (hsteps : (chars v).length ≤ steps)
    (hdepth : n < depth) : Reads (value steps depth) (chars v) v :=
  h.reads_of_succ (fun _ hs => h.reads_succ hs hdepth) steps hsteps

/-- Whatever is read nests less deep than the reader may go. -/
theorem Plain.of_value {n steps depth : Nat} {v : Json} {c d : Cursor} (h : Plain n v)
    (hv : value steps depth c = .ok (v, d)) : Plain (depth - 1) v := by
  induction h generalizing steps depth c d with
  | null => exact .null
  | bool b => exact .bool b
  | int hlow hhigh => exact .int hlow hhigh
  | text s => exact .text s
  | array _ ih =>
    cases steps with
    | zero => cases hv
    | succ steps =>
      cases outcome_of_value hv with
      | @array k vs hdepth hitems =>
        subst hdepth
        refine .array (n := k) fun v hmem => ?_
        obtain ⟨s, b, e, hread⟩ := exists_value_of_items hitems v hmem
        exact ih v hmem hread
  | object hkeys _ ih =>
    cases steps with
    | zero => cases hv
    | succ steps =>
      cases outcome_of_value hv with
      | @object k ms hdepth hmembers =>
        subst hdepth
        refine .object (n := k) hkeys fun m hmem => ?_
        obtain hsofar | ⟨s, b, e, hread⟩ := exists_value_of_members hmembers m hmem
        · cases hsofar
        · exact ih m hmem hread

/-- A plain value is read back from its compact text exactly if it does not nest too deep. -/
theorem parse_render_iff {n : Nat} {v : Json} (h : Plain n v) :
    parse (render v) = .ok v ↔ Plain (depthBound - 1) v := by
  rw [parse_eq_ok_iff]
  constructor
  · rintro ⟨d, hv, -⟩
    exact h.of_value hv
  · intro hplain
    have hcursor : Cursor.ofString (render v) = ⟨chars v ++ [], .start⟩ := by
      rw [Cursor.ofString, render, String.toList_ofList, List.append_nil]
    have hsteps : (chars v).length ≤ stepBound (Cursor.ofString (render v)) := by
      rw [hcursor, List.append_nil, stepBound]
      simp only
      omega
    have hdepth : depthBound - 1 < depthBound := by decide
    exact ⟨_, (congrArg _ hcursor).trans (hplain.reads hsteps hdepth [] .start .nil), List.forall_mem_nil _⟩

end Dashboard.Json
