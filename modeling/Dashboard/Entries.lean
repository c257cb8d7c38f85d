/-! # Named entries

* `Entries`: named values in the order in which the names came up.
* `Entries.put`: one more value; the value of a known name is replaced where it stands.
-/

namespace Dashboard
set_option autoImplicit false

abbrev Entries (α : Type) := List (String × α)

namespace Entries

def put {α : Type} (name : String) (value : α) : Entries α → Entries α
  | [] => [(name, value)]
  | (n, v) :: rest => if n = name then (n, value) :: rest else (n, v) :: put name value rest

theorem lookup_put_self {α : Type} (name : String) (value : α) (es : Entries α) :
    (put name value es).lookup name = some value := by
  induction es with
  | nil => simp [put]
  | cons e rest ih =>
    obtain ⟨n, v⟩ := e
    by_cases h : n = name
    · simp [put, h]
    · simp [put, h, List.lookup_cons, beq_eq_false_iff_ne.2 (Ne.symm h), ih]

theorem lookup_put_of_ne {α : Type} {name other : String} (h : other ≠ name) (value : α) (es : Entries α) :
    (put name value es).lookup other = es.lookup other := by
  induction es with
  | nil => simp [put, h]
  | cons e rest ih =>
    obtain ⟨n, v⟩ := e
    by_cases hn : n = name
    · simp [put, hn, List.lookup_cons, beq_eq_false_iff_ne.2 h]
    · simp [put, hn, List.lookup_cons, ih]

theorem lookup_eq_none_iff {α : Type} {name : String} {es : Entries α} :
    es.lookup name = none ↔ name ∉ es.map Prod.fst := by
  rw [List.lookup_eq_none_iff, List.mem_map]
  constructor
  · rintro h ⟨e, he, rfl⟩
    exact bne_iff_ne.1 (h e he) rfl
  · intro h e he
    exact bne_iff_ne.2 fun hname => h ⟨e, he, hname.symm⟩

theorem mem_of_lookup {α : Type} {name : String} {value : α} {es : Entries α} (h : es.lookup name = some value) :
    (name, value) ∈ es := by
  obtain ⟨front, back, hsplit, -⟩ := List.lookup_eq_some_iff.1 h
  simp [hsplit]

theorem put_append {α : Type} {name : String} {front : Entries α} (h : name ∉ front.map Prod.fst) (value : α)
    (es : Entries α) : put name value (front ++ es) = front ++ put name value es := by
  induction front with
  | nil => rfl
  | cons e front ih =>
    obtain ⟨n, v⟩ := e
    rw [List.map_cons, List.mem_cons, not_or] at h
    rw [List.cons_append, put, if_neg (Ne.symm h.1), ih h.2]
    rfl

/-- A new name comes last. -/
theorem put_of_not_mem {α : Type} {name : String} {es : Entries α} (h : name ∉ es.map Prod.fst) (value : α) :
    put name value es = es ++ [(name, value)] := by
  have happend := put_append h value []
  rwa [List.append_nil] at happend

theorem lookup_append {α : Type} {name : String} {front : Entries α} (h : name ∉ front.map Prod.fst)
    (es : Entries α) : (front ++ es).lookup name = es.lookup name := by
  rw [List.lookup_append, lookup_eq_none_iff.2 h, Option.none_or]

theorem lookup_map {α β : Type} (f : α → β) (name : String) (es : Entries α) :
    (es.map fun e => (e.1, f e.2)).lookup name = (es.lookup name).map f := by
  induction es with
  | nil => rfl
  | cons e es ih =>
    rw [List.map_cons, List.lookup_cons, List.lookup_cons, ih]
    cases name == e.1 <;> rfl

end Entries
end Dashboard
