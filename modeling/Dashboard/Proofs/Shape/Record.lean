import Dashboard.Shape.OfLayers
import Dashboard.Shape.OfToml

/-! # Records are read field by field

A record is read from a table exactly if each of its fields is read from the entry of its name. Both readers of tables do
so: the loose one of merged layers, and the strict one of documents, which wants every name to stand once.

* `FieldsHold`: a condition on each field of a record.
* `optionOfLayers`, `fieldsOfLayers_eq_ok_iff`: the loose reader.
* `optionOfToml?`, `takeEntries_eq_some_iff`: the strict reader.
-/

namespace Dashboard.Shape
set_option autoImplicit false
open Layer (Tree Fault)

section

variable {name : String} {s : Shape} {fields : List (String × Shape)}

/-- Each field has a value for which the condition holds. -/
def FieldsHold (R : String → (s : Shape) → Option s.Value → Prop) :
    (fields : List (String × Shape)) → FieldValues fields → Prop
  | [], _ => True
  | (name, s) :: fields, (x, xs) => R name s x ∧ FieldsHold R fields xs

/-- The values of fields with one field before them. -/
def FieldValues.cons (x : Option s.Value) (xs : FieldValues fields) : FieldValues ((name, s) :: fields) := (x, xs)

/-! ## The loose reader -/

/-- A value that may be missing, from its entry. -/
def optionOfLayers (s : Shape) (entry : Option Tree) : Except Fault (Option s.Value) :=
  entry.elim (.ok none) fun t => (s.ofLayers t).map some

theorem fieldsOfLayers_cons {entries : Entries Tree} {x : Option s.Value} {xs : FieldValues fields} :
    fieldsOfLayers ((name, s) :: fields) entries = .ok (.cons x xs) ↔
      optionOfLayers s (entries.lookup name) = .ok x ∧ fieldsOfLayers fields entries = .ok xs := by
  -- A field that cannot be read is told with its name, which is of no account here.
  have hread : fieldsOfLayers ((name, s) :: fields) entries =
      ((optionOfLayers s (entries.lookup name)).mapError (Fault.below (.child name))).bind fun x =>
        (fieldsOfLayers fields entries).map fun xs => .cons x xs := by
    rw [fieldsOfLayers]
    cases entries.lookup name with
    | none => cases fieldsOfLayers fields entries <;> rfl
    | some t =>
      have hoption : optionOfLayers s (some t) = (s.ofLayers t).map some := rfl
      rw [hoption]
      dsimp only
      cases s.ofLayers t <;> cases fieldsOfLayers fields entries <;> rfl
  rw [hread]
  cases optionOfLayers s (entries.lookup name) with
  | error e =>
    constructor
    · rintro ⟨⟩
    · rintro ⟨⟨⟩, -⟩
  | ok y =>
    cases fieldsOfLayers fields entries with
    | error e =>
      constructor
      · rintro ⟨⟩
      · rintro ⟨-, ⟨⟩⟩
    | ok ys =>
      constructor
      · rintro ⟨⟩
        exact ⟨rfl, rfl⟩
      · rintro ⟨⟨⟩, ⟨⟩⟩
        rfl

theorem fieldsOfLayers_eq_ok_iff {entries : Entries Tree} {xs : FieldValues fields} :
    fieldsOfLayers fields entries = .ok xs ↔
      FieldsHold (fun name s x => optionOfLayers s (entries.lookup name) = .ok x) fields xs := by
  induction fields with
  | nil => exact ⟨fun _ => trivial, fun _ => rfl⟩
  | cons field fields ih =>
    obtain ⟨name, s⟩ := field
    obtain ⟨x, xs⟩ := xs
    exact fieldsOfLayers_cons.trans (and_congr_right fun _ => ih)

theorem fieldsOfLayers_nil (fields : List (String × Shape)) : fieldsOfLayers fields [] = .ok (emptyFields fields) := by
  induction fields with
  | nil => rfl
  | cons field fields ih => exact fieldsOfLayers_cons.2 ⟨rfl, ih⟩

/-! ## The strict reader -/

/-- One entry of a table is taken into the fields; an entry of no field is passed over. -/
def takeEntry (fields : List (String × Shape)) (st : FieldValues fields) (e : String × Toml) :
    Option (FieldValues fields) :=
  (withMember? fields e.1 e.2 st).getD (some st)

def takeEntries (fields : List (String × Shape)) (st : FieldValues fields) (es : Entries Toml) :
    Option (FieldValues fields) :=
  es.foldlM (takeEntry fields) st

theorem takeEntries_cons (st : FieldValues fields) (e : String × Toml) (es : Entries Toml) :
    takeEntries fields st (e :: es) = (takeEntry fields st e).bind fun st => takeEntries fields st es := rfl

/-- A value that may be missing, from its entry. -/
def optionOfToml? (s : Shape) (entry : Option Toml) : Option (Option s.Value) :=
  entry.elim (some none) fun v => (s.ofToml? v).map some

theorem takeEntry_self (v : Toml) (x : Option s.Value) (xs : FieldValues fields) :
    takeEntry ((name, s) :: fields) (.cons x xs) (name, v) = (s.ofToml? v).map fun y => .cons (some y) xs := by
  have hmember : withMember? ((name, s) :: fields) name v (.cons x xs) =
      some ((s.ofToml? v).map fun y => .cons (some y) xs) := if_pos rfl
  rw [takeEntry, hmember, Option.getD_some]

theorem takeEntry_of_ne {e : String × Toml} (h : e.1 ≠ name) (x : Option s.Value) (xs : FieldValues fields) :
    takeEntry ((name, s) :: fields) (.cons x xs) e = (takeEntry fields xs e).map (.cons x) := by
  have hmember : withMember? ((name, s) :: fields) e.1 e.2 (.cons x xs) =
      (withMember? fields e.1 e.2 xs).map (·.map (.cons x)) := if_neg h
  rw [takeEntry, takeEntry, hmember]
  cases withMember? fields e.1 e.2 xs <;> rfl

theorem takeEntry_of_not_mem {e : String × Toml} (h : e.1 ∉ fields.map Prod.fst) (xs : FieldValues fields) :
    takeEntry fields xs e = some xs := by
  induction fields with
  | nil => rfl
  | cons field fields ih =>
    obtain ⟨name, s⟩ := field
    obtain ⟨x, xs⟩ := xs
    rw [List.map_cons, List.mem_cons, not_or] at h
    exact (takeEntry_of_ne h.1 x xs).trans (congrArg (Option.map (FieldValues.cons x)) (ih h.2 xs))

/-- Entries of other names leave the first field as it is. -/
theorem takeEntries_of_not_mem {es : Entries Toml} (h : name ∉ es.map Prod.fst) (x : Option s.Value)
    (xs : FieldValues fields) :
    takeEntries ((name, s) :: fields) (.cons x xs) es = (takeEntries fields xs es).map (.cons x) := by
  induction es generalizing xs with
  | nil => rfl
  | cons e es ih =>
    rw [List.map_cons, List.mem_cons, not_or] at h
    rw [takeEntries_cons, takeEntries_cons, takeEntry_of_ne (Ne.symm h.1)]
    cases takeEntry fields xs e with
    | none => rfl
    | some ys => exact ih h.2 ys

/-- The first field is read from the entry of its name, and the others as if it were not there. -/
theorem takeEntries_field {es : Entries Toml} (hes : (es.map Prod.fst).Nodup) (hname : name ∉ fields.map Prod.fst)
    (xs : FieldValues fields) :
    takeEntries ((name, s) :: fields) (.cons none xs) es =
      (optionOfToml? s (es.lookup name)).bind fun x => (takeEntries fields xs es).map (.cons x) := by
  induction es generalizing xs with
  | nil => rfl
  | cons e es ih =>
    obtain ⟨n, v⟩ := e
    rw [List.map_cons, List.nodup_cons] at hes
    rw [takeEntries_cons, takeEntries_cons, List.lookup_cons]
    by_cases hn : n = name
    · subst hn
      rw [takeEntry_self, takeEntry_of_not_mem hname, beq_self_eq_true]
      cases hv : s.ofToml? v with
      | none => simp [optionOfToml?, hv]
      | some y => simpa [optionOfToml?, hv] using takeEntries_of_not_mem hes.1 (some y) xs
    · rw [takeEntry_of_ne hn, beq_eq_false_iff_ne.2 (Ne.symm hn)]
      cases takeEntry fields xs (n, v) with
      | none => cases optionOfToml? s (es.lookup name) <;> rfl
      | some ys => exact ih hes.2 ys

theorem takeEntries_eq_some_iff {es : Entries Toml} (hes : (es.map Prod.fst).Nodup)
    (hfields : (fields.map Prod.fst).Nodup) {xs : FieldValues fields} :
    takeEntries fields (emptyFields fields) es = some xs ↔
      FieldsHold (fun name s x => optionOfToml? s (es.lookup name) = some x) fields xs := by
  induction fields with
  | nil =>
    have hnone : takeEntries [] xs es = some xs := by
      clear hes
      induction es with
      | nil => rfl
      | cons e es ih => exact ih
    exact ⟨fun _ => trivial, fun _ => hnone⟩
  | cons field fields ih =>
    obtain ⟨name, s⟩ := field
    obtain ⟨x, xs⟩ := xs
    rw [List.map_cons, List.nodup_cons] at hfields
    rw [FieldsHold, ← ih hfields.2]
    show takeEntries ((name, s) :: fields) (.cons none (emptyFields fields)) es = some (.cons x xs) ↔ _
    rw [takeEntries_field hes hfields.1]
    cases optionOfToml? s (es.lookup name) with
    | none => simp
    | some y =>
      cases takeEntries fields (emptyFields fields) es with
      | none => simp
      | some ys =>
        constructor
        · rintro ⟨⟩
          exact ⟨rfl, rfl⟩
        · rintro ⟨⟨⟩, ⟨⟩⟩
          rfl

end
end Dashboard.Shape
