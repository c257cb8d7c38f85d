import Dashboard.Proofs.Json.Text
import Dashboard.Proofs.Shape.Record
import Dashboard.Shape.OfText
import Dashboard.Shape.ToJson

/-! # Written values of a shape are read back

A shape reads back if its reader finds every value in the compact text of that value. Each kind of shape reads back if its
parts do, so this is settled part by part for the shapes of the library.

* `ReadsBack`: a shape whose values are found in their texts.
* `ReadsBack.optional`, `ReadsBack.list`, `ReadsBack.record`, `ReadsBack.choice`: shapes with parts.
* `Takes`, `Takes.readMembers`: members that are taken in one after the other.
* `ReadsBack.ofText_render`: whole texts.
-/

namespace Dashboard.Shape
set_option autoImplicit false
open Json

/-- Every value of the shape is found in its compact text, and is not written as a float. -/
structure ReadsBack (s : Shape) : Prop where
  reads : ∀ v, Reads s.read (chars (s.toJson v)) v
  exact : ∀ v x, s.toJson v ≠ .float x

/-! ## Single values -/

theorem readsBack_text : ReadsBack .text where
  reads (s : String) rest p _ := by
    have hquote : Cursor.isBlank '"' = false := rfl
    have hstring := string_stringChars s rest (p.past '"')
    show read .text ⟨stringChars s ++ rest, p⟩ = .ok (s, ⟨rest, p.pastAll (stringChars s)⟩)
    rw [stringChars, List.cons_append, List.append_assoc, List.singleton_append, read]
    simp only [Cursor.skipBlanks_cons p _ hquote, Cursor.advance_one, hstring]
    rfl
  exact _ _ h := by cases h

theorem readsBack_natural : ReadsBack .natural where
  reads (n : UInt64) rest p hrest := by
    have hnumber := number_toDigits n.toNat_lt rest p hrest
    have hchars : chars (toJson .natural n) = Nat.toDigits 10 n.toNat := by
      have hnot : ¬(n.toNat : Int) < 0 := Int.not_lt.2 (Int.natCast_nonneg _)
      rw [toJson, chars, intChars, if_neg hnot, Int.natAbs_natCast]
    have hvalue (c : Cursor) : naturalOf (.int n.toNat, c) = .ok (n, c) := by
      have hnot : ¬(n.toNat : Int) < 0 := Int.not_lt.2 (Int.natCast_nonneg _)
      rw [naturalOf, if_neg hnot, Int.toNat_natCast, UInt64.ofNat_toNat]
    rw [hchars, read]
    cases hds : Nat.toDigits 10 n.toNat with
    | nil => exact absurd hds Nat.toDigits_ne_nil
    | cons d ds =>
      have hd : d.isDigit = true := Text.isDigit_of_mem (n := n.toNat) (hds ▸ List.mem_cons_self)
      have hminus : d ≠ '-' := Text.ne_of_isDigit hd rfl
      rw [hds, List.cons_append] at hnumber
      rw [List.cons_append, Cursor.skipBlanks_cons p _ (isBlank_of_isDigit hd)]
      simp only [readNatural, hd, if_true, hnumber]
      exact hvalue _
  exact _ _ h := by cases h

/-! ## Optional values -/

theorem ReadsBack.optional {item : Shape} (h : item.ReadsBack) (hnull : ∀ v, item.toJson v ≠ .null) :
    ReadsBack (.optional item) where
  reads v rest p hrest := by
    cases v with
    | none => rfl
    | some v =>
      obtain ⟨c, cs, hchars, hblank, -, hn⟩ := exists_chars (h.exact v)
      have hne : c ≠ 'n' := fun hc => hnull v (hn hc)
      have hitem := h.reads v rest p hrest
      show read (.optional item) ⟨chars (item.toJson v) ++ rest, p⟩ =
        .ok (some v, ⟨rest, p.pastAll (chars (item.toJson v))⟩)
      rw [hchars, List.cons_append] at hitem ⊢
      rw [read, Cursor.skipBlanks_cons p _ hblank]
      split
      · rename_i heq
        exact absurd (List.cons.inj heq).1 hne
      · rw [hitem]
        rfl
  exact v x := by
    cases v with
    | none => exact fun h => by cases h
    | some v => exact h.exact v x

/-! ## Lists -/

section
variable {α : Type} {item : Cursor → Except Fault (α × Cursor)} {text : α → Json}

theorem readItems_itemsFrom (hitem : ∀ v, Reads item (chars (text v)) v) (hexact : ∀ v x, text v ≠ .float x)
    {vs : List α} {steps : Nat} (hsteps : vs.length < steps) (first : Bool) (rest : List Char) (p : Position) :
    readItems item steps first ⟨itemsFrom first (vs.map text) ++ ']' :: rest, p⟩ =
      .ok (vs, ⟨']' :: rest, p.pastAll (itemsFrom first (vs.map text))⟩) := by
  induction vs generalizing steps first p with
  | nil =>
    cases steps with
    | zero => exact absurd hsteps (Nat.not_lt_zero _)
    | succ steps => rfl
  | cons v vs ih =>
    cases steps with
    | zero => exact absurd hsteps (Nat.not_lt_zero _)
    | succ steps =>
      obtain ⟨c, cs, hchars, hblank, hclose, -⟩ := exists_chars (hexact v)
      have hfirst := hitem v (itemsFrom false (vs.map text) ++ ']' :: rest) (p.pastAll (joint first))
        (ends_itemsFrom _ rest)
      have hrest := ih (Nat.lt_of_succ_lt_succ hsteps) false ((p.pastAll (joint first)).pastAll (chars (text v)))
      have hnext := Cursor.nextItem_joint first (cs ++ (itemsFrom false (vs.map text) ++ ']' :: rest)) p hblank hclose
      rw [← List.cons_append, ← hchars] at hnext
      rw [List.map_cons, itemsFrom, List.append_assoc, List.append_assoc, readItems, hnext]
      simp only [bind, Except.bind, hfirst, hrest, Position.pastAll_append]

end

theorem ReadsBack.list {item : Shape} (h : item.ReadsBack) : ReadsBack (.list item) where
  reads (vs : List item.Value) rest p _ := by
    have hbracket : Cursor.isBlank '[' = false := rfl
    have hexact : ∀ v ∈ vs.map item.toJson, ∀ x, v ≠ .float x := by
      intro v hv x
      obtain ⟨w, -, rfl⟩ := List.mem_map.1 hv
      exact h.exact w x
    have hlength : vs.length < ('[' :: (itemsFrom true (vs.map item.toJson) ++ ']' :: rest)).length + 1 := by
      have hle := length_le_itemsFrom hexact true
      rw [List.length_map] at hle
      rw [List.length_cons, List.length_append]
      omega
    have hitems := readItems_itemsFrom h.reads h.exact hlength true rest (p.past '[')
    have hchars : chars (toJson (.list item) vs) = '[' :: (itemsFrom true (vs.map item.toJson) ++ [']']) := by
      rw [toJson, chars, itemChars_eq]
    rw [hchars, List.cons_append, List.append_assoc, List.singleton_append, read, Cursor.skipBlanks_cons p _ hbracket]
    simp only [Cursor.advance_one, bind, Except.bind, hitems, Cursor.endList_cons, Position.pastAll_cons,
      Position.pastAll_append, Position.pastAll_nil]
  exact _ _ h := by cases h

/-! ## Members -/

section
variable {σ : Type} {member : String → σ → Cursor → Except Fault (Option (σ × Cursor))}

/-- The members are taken in one after the other, each from its colon on, and lead from one state to another. -/
inductive Takes (member : String → σ → Cursor → Except Fault (Option (σ × Cursor))) :
    σ → List (String × Json) → σ → Prop
  | nil (st : σ) : Takes member st [] st
  | cons {st st' st'' : σ} {k : String} {v : Json} {ms : List (String × Json)}
      (h : ∀ rest p, Ends rest → member k st ⟨':' :: (chars v ++ rest), p⟩ =
        .ok (some (st', ⟨rest, p.pastAll (':' :: chars v)⟩)))
      (hms : Takes member st' ms st'') : Takes member st ((k, v) :: ms) st''

theorem Takes.readMembers {st st' : σ} {ms : List (String × Json)} (h : Takes member st ms st') {steps : Nat}
    (hsteps : ms.length < steps) (first : Bool) (rest : List Char) (p : Position) :
    Shape.readMembers member steps first st ⟨membersFrom first ms ++ '}' :: rest, p⟩ =
      .ok (st', ⟨'}' :: rest, p.pastAll (membersFrom first ms)⟩) := by
  induction h generalizing steps first p with
  | nil st =>
    cases steps with
    | zero => exact absurd hsteps (Nat.not_lt_zero _)
    | succ steps => rfl
  | @cons st st' st'' k v ms h hms ih =>
    cases steps with
    | zero => exact absurd hsteps (Nat.not_lt_zero _)
    | succ steps =>
      have hrest := fun p => ih (Nat.lt_of_succ_lt_succ hsteps) false p
      have hmember := fun p => h (membersFrom false ms ++ '}' :: rest) p (ends_membersFrom ms rest)
      have hkey := fun p => string_stringChars k (':' :: (chars v ++ (membersFrom false ms ++ '}' :: rest))) p
      have htext : membersFrom first ((k, v) :: ms) ++ '}' :: rest =
          joint first ++ '"' :: (k.toList.flatMap escape ++
            '"' :: (':' :: (chars v ++ (membersFrom false ms ++ '}' :: rest)))) := by
        simp [membersFrom, stringChars]
      rw [htext, Shape.readMembers, Cursor.nextKey_joint]
      simp only [bind, Except.bind, hkey, hmember, hrest]
      simp [membersFrom, stringChars, Position.pastAll_append, Position.pastAll_cons]

end

/-! ## Records -/

section
variable {name : String} {s : Shape} {fields : List (String × Shape)}

theorem readField_self {v : s.Value} (h : s.ReadsBack) (xs : FieldValues fields) {rest : List Char}
    (hrest : Ends rest) (p : Position) :
    readField ((name, s) :: fields) name (.cons none xs) ⟨':' :: (chars (s.toJson v) ++ rest), p⟩ =
      .ok (some (.cons (some v) xs, ⟨rest, p.pastAll (':' :: chars (s.toJson v))⟩)) := by
  have hvalue := h.reads v rest (p.past ':') hrest
  show readField ((name, s) :: fields) name ((none : Option s.Value), xs) _ = _
  rw [readField, if_pos rfl]
  simp only [bind, Except.bind, Cursor.colon_cons, hvalue]
  rfl

theorem readField_of_ne {key : String} (h : key ≠ name) (x : Option s.Value) (xs : FieldValues fields) (c : Cursor) :
    readField ((name, s) :: fields) key (.cons x xs) c =
      (readField fields key xs c).map (·.map fun r => (.cons x r.1, r.2)) :=
  if_neg h

theorem Takes.skip {xs xs' : FieldValues fields} {ms : List (String × Json)}
    (h : Takes (readField fields) xs ms xs') (hname : name ∉ ms.map Prod.fst) (x : Option s.Value) :
    Takes (readField ((name, s) :: fields)) (.cons x xs) ms (.cons x xs') := by
  induction h with
  | nil xs => exact .nil _
  | @cons xs xs' xs'' k v ms h hms ih =>
    rw [List.map_cons, List.mem_cons, not_or] at hname
    have hmore : Takes (readField ((name, s) :: fields)) (.cons x xs') ms (.cons x xs'') := ih hname.2
    refine .cons (fun rest p hrest => ?_) hmore
    rw [readField_of_ne (Ne.symm hname.1), h rest p hrest]
    rfl

end

theorem mem_fieldsToJson {fields : List (String × Shape)} {v : FieldValues fields} {key : String}
    (h : key ∈ (fieldsToJson fields v).map Prod.fst) : key ∈ fields.map Prod.fst := by
  induction fields with
  | nil => cases h
  | cons f fields ih =>
    obtain ⟨name, s⟩ := f
    obtain ⟨x, xs⟩ := v
    rw [List.map_cons, List.mem_cons]
    cases x with
    | none => exact .inr (ih h)
    | some x =>
      rcases List.mem_cons.1 h with hkey | hkey
      · exact .inl hkey
      · exact .inr (ih hkey)

/-- The members of a record bring about its fields, each in its turn. -/
theorem takes_fieldsToJson {fields : List (String × Shape)} (hread : ∀ f ∈ fields, f.2.ReadsBack)
    (hnodup : (fields.map Prod.fst).Nodup) (v : FieldValues fields) :
    Takes (readField fields) (emptyFields fields) (fieldsToJson fields v) v := by
  induction fields with
  | nil => exact .nil ()
  | cons f fields ih =>
    obtain ⟨name, s⟩ := f
    obtain ⟨x, xs⟩ := v
    rw [List.map_cons, List.nodup_cons] at hnodup
    have hrest := ih (fun f hf => hread f (List.mem_cons_of_mem _ hf)) hnodup.2 xs
    have hname : name ∉ (fieldsToJson fields xs).map Prod.fst := fun h => hnodup.1 (mem_fieldsToJson h)
    cases x with
    | none => exact hrest.skip hname none
    | some x =>
      have hs : s.ReadsBack := hread (name, s) List.mem_cons_self
      exact .cons (fun rest p hends => readField_self hs (emptyFields fields) hends p) (hrest.skip hname (some x))

theorem ReadsBack.record (name : String) (fillsIn : Bool) {fields : List (String × Shape)}
    (hread : ∀ f ∈ fields, f.2.ReadsBack) (hnodup : (fields.map Prod.fst).Nodup) :
    ReadsBack (.record name fillsIn fields) where
  reads (v : FieldValues fields) rest p _ := by
    have hbrace : Cursor.isBlank '{' = false := rfl
    have hlength : (fieldsToJson fields v).length <
        ('{' :: (membersFrom true (fieldsToJson fields v) ++ '}' :: rest)).length + 1 := by
      have hle := length_le_membersFrom (fieldsToJson fields v) true
      rw [List.length_cons, List.length_append]
      omega
    have hmembers := (takes_fieldsToJson hread hnodup v).readMembers hlength true rest (p.past '{')
    have hchars : chars (toJson (.record name fillsIn fields) v) =
        '{' :: (membersFrom true (fieldsToJson fields v) ++ ['}']) := by
      show chars (.object (fieldsToJson fields v)) = _
      rw [chars, memberChars_eq]
    rw [hchars, List.cons_append, List.append_assoc, List.singleton_append, read, Cursor.skipBlanks_cons p _ hbrace]
    simp only [Cursor.advance_one, bind, Except.bind, hmembers, Cursor.endObject_cons, Position.pastAll_cons,
      Position.pastAll_append, Position.pastAll_nil]
  exact _ _ h := by cases h

/-! ## Alternatives -/

theorem eq_of_bare? {s : Shape} {x : s.Value} (h : s.bare? = some x) (y : s.Value) : y = x := by
  cases s with
  | unit => rfl
  | _ => cases h

/-- How an alternative is written and found again: by its tag alone, or as the value of its tag. -/
theorem caseToJson_cases {cases : List (String × Shape)} (hread : ∀ c ∈ cases, c.2.ReadsBack)
    (hnodup : (cases.map Prod.fst).Nodup) (v : CaseValue cases) :
    ∃ tag ∈ cases.map Prod.fst,
      (caseToJson cases v = .text tag ∧ bareCase? cases tag = some (some v)) ∨
      ∃ j, caseToJson cases v = .object [(tag, j)] ∧ ∀ rest p, Ends rest →
        readCase cases tag ⟨':' :: (chars j ++ rest), p⟩ = .ok (some (v, ⟨rest, p.pastAll (':' :: chars j)⟩)) := by
  induction cases with
  | nil => exact nomatch v
  | cons c cases ih =>
    obtain ⟨name, s⟩ := c
    rw [List.map_cons, List.nodup_cons] at hnodup
    cases v with
    | inl x =>
      have hs : s.ReadsBack := hread (name, s) List.mem_cons_self
      refine ⟨name, List.mem_cons_self, ?_⟩
      cases hbare : s.bare? with
      | some y =>
        refine .inl ⟨?_, ?_⟩
        · show (if s.bare?.isSome then Json.text name else .object [(name, toJson s x)]) = .text name
          rw [hbare]
          rfl
        · rw [bareCase?, if_pos rfl, hbare, eq_of_bare? hbare x]
          rfl
      | none =>
        refine .inr ⟨s.toJson x, ?_, ?_⟩
        · show (if s.bare?.isSome then Json.text name else .object [(name, toJson s x)]) = _
          rw [hbare]
          rfl
        · intro rest p hrest
          rw [readCase, if_pos rfl, Cursor.colon_cons]
          simp only [bind, Except.bind, hs.reads x rest (p.past ':') hrest]
          rfl
    | inr w =>
      obtain ⟨tag, htag, hcase⟩ := ih (fun c hc => hread c (List.mem_cons_of_mem _ hc)) hnodup.2 w
      have hne : tag ≠ name := by
        rintro rfl
        exact hnodup.1 htag
      refine ⟨tag, List.mem_cons_of_mem _ htag, ?_⟩
      rcases hcase with ⟨htext, hbare⟩ | ⟨j, hobject, hvalue⟩
      · refine .inl ⟨htext, ?_⟩
        rw [bareCase?, if_neg hne, hbare]
        rfl
      · refine .inr ⟨j, hobject, ?_⟩
        intro rest p hrest
        rw [readCase, if_neg hne, hvalue rest p hrest]
        rfl

theorem ReadsBack.choice {cases : List (String × Shape)} (hread : ∀ c ∈ cases, c.2.ReadsBack)
    (hnodup : (cases.map Prod.fst).Nodup) : ReadsBack (.choice cases) where
  reads (v : CaseValue cases) rest p _ := by
    show read (.choice cases) ⟨chars (caseToJson cases v) ++ rest, p⟩ =
      .ok (v, ⟨rest, p.pastAll (chars (caseToJson cases v))⟩)
    obtain ⟨tag, -, ⟨htext, hbare⟩ | ⟨j, hobject, hvalue⟩⟩ := caseToJson_cases hread hnodup v
    · have hquote : Cursor.isBlank '"' = false := rfl
      have hstring := string_stringChars tag rest (p.past '"')
      rw [htext, chars, stringChars, List.cons_append, List.append_assoc, List.singleton_append, read,
        Cursor.skipBlanks_cons p _ hquote]
      simp only [Cursor.advance_one, bind, Except.bind, hstring, hbare]
      rfl
    · have hbrace : Cursor.isBlank '{' = false := rfl
      have hquote : Cursor.isBlank '"' = false := rfl
      have hclose : Cursor.isBlank '}' = false := rfl
      have hends : Ends ('}' :: rest) := .cons (.inr (.inr rfl)) rest
      have htext : chars (.object [(tag, j)]) ++ rest = '{' :: '"' :: (tag.toList.flatMap escape ++
          '"' :: (':' :: (chars j ++ '}' :: rest))) := by
        simp [chars, memberChars, stringChars]
      rw [hobject, htext, read, Cursor.skipBlanks_cons p _ hbrace]
      simp only [Cursor.advance_one, readTag, Cursor.skipBlanks_cons _ _ hquote, bind, Except.bind, string_stringChars,
        hvalue _ _ hends, endTagged, Cursor.skipBlanks_cons _ _ hclose]
      simp [chars, memberChars, stringChars, Position.pastAll_append, Position.pastAll_cons]
  exact (v : CaseValue cases) x := by
    show caseToJson cases v ≠ .float x
    obtain ⟨tag, -, ⟨htext, -⟩ | ⟨j, hobject, -⟩⟩ := caseToJson_cases hread hnodup v
    · rw [htext]
      exact fun h => by cases h
    · rw [hobject]
      exact fun h => by cases h

/-! ## Whole texts -/

/-- A value is read back from its whole text. -/
theorem ReadsBack.ofText_render {s : Shape} (h : s.ReadsBack) (v : s.Value) :
    s.ofText (render (s.toJson v)) = .ok v := by
  have hread := h.reads v [] .start .nil
  rw [List.append_nil] at hread
  rw [ofText, Cursor.ofString, render, String.toList_ofList, hread]
  rfl

end Dashboard.Shape
