import Dashboard.Response
import Dashboard.Proofs.Json.RoundTrip
import Dashboard.Proofs.Result
import Mathlib.Data.List.Forall2

/-! # The table in an answer to a run or a validation

A table keeps its shape, and every cell its content. The first row that is no list fails the whole table.

* `Json.IsArray`: the values that are rows.
* `Response.Shows`: a text shows what a cell holds.
* `Response.rowsFrom_eq_ok_iff`, `Response.exists_first_of_error`: rows from one on.
* `Response.table_law`: every value.
-/

namespace Dashboard
set_option autoImplicit false

def Json.IsArray (v : Json) : Prop := ∃ items, v = .array items

namespace Response
open Json (IsArray Plain depthBound)

/-! ## Cells -/

/-- What a text shows of a cell. A string stands for itself and null for nothing; another cell is read back, unless it nests
deeper than the reader goes. -/
structure Shows (v : Json) (s : String) : Prop where
  text : ∀ t, v = .text t → s = t
  null : v = .null → s = ""
  other : (∀ t, v ≠ .text t) → v ≠ .null → ∀ n, Plain n v → (Json.parse s = .ok v ↔ Plain (depthBound - 1) v)

theorem cell_eq_render {v : Json} (htext : ∀ t, v ≠ .text t) (hnull : v ≠ .null) : cell v = v.render := by
  cases v with
  | null => exact absurd rfl hnull
  | text s => exact absurd rfl (htext s)
  | bool b => rfl
  | int z => rfl
  | float x => rfl
  | array items => rfl
  | object members => rfl

theorem shows_cell (v : Json) : Shows v (cell v) where
  text t h := by rw [h, cell]
  null h := by rw [h, cell]
  other htext hnull n h := by rw [cell_eq_render htext hnull, Json.parse_render_iff h]

/-! ## Rows -/

section
variable (source : String) (n : Nat)

theorem rowsFrom_array (cells items : List Json) :
    rowsFrom source n (.array cells :: items) = (rowsFrom source (n + 1) items).map (cells.map cell :: ·) := rfl

theorem rowsFrom_of_not_isArray {x : Json} (hx : ¬IsArray x) (items : List Json) :
    rowsFrom source n (x :: items) =
      .error (.malformed source ("row " ++ toString n ++ " is not an array: " ++ x.render)) := by
  cases x with
  | array cells => exact absurd ⟨cells, rfl⟩ hx
  | _ => rfl

/-- Either all values are rows and give one each, or the first one that is none is reported with its place. -/
theorem rowsFrom_cases (items : List Json) :
    (∃ lists : List (List Json), items = lists.map .array ∧
      rowsFrom source n items = .ok (lists.map fun cells => cells.map cell)) ∨
    ∃ (lists : List (List Json)) (x : Json) (after : List Json), items = lists.map .array ++ x :: after ∧ ¬IsArray x ∧
      rowsFrom source n items = .error (.malformed source
        ("row " ++ toString (n + lists.length) ++ " is not an array: " ++ x.render)) := by
  induction items generalizing n with
  | nil => exact .inl ⟨[], rfl, rfl⟩
  | cons x items ih =>
    by_cases hx : IsArray x
    · obtain ⟨cells, rfl⟩ := hx
      obtain ⟨lists, rfl, hrows⟩ | ⟨lists, y, after, rfl, hy, herror⟩ := ih (n + 1)
      · exact .inl ⟨cells :: lists, rfl, by rw [rowsFrom_array, hrows]; rfl⟩
      · have hplace : n + 1 + lists.length = n + (cells :: lists).length := by
          rw [List.length_cons]
          omega
        rw [hplace] at herror
        exact .inr ⟨cells :: lists, y, after, rfl, hy, by rw [rowsFrom_array, herror]; rfl⟩
    · exact .inr ⟨[], x, items, rfl, hx, rowsFrom_of_not_isArray source n hx items⟩

end

/-! ## Tables -/

/-- Every cell is shown, row by row. -/
theorem forall₂_shows (lists : List (List Json)) :
    List.Forall₂ (List.Forall₂ Shows) lists (lists.map fun cells => cells.map cell) := by
  rw [List.forall₂_map_right_iff, List.forall₂_same]
  intro cells _
  rw [List.forall₂_map_right_iff, List.forall₂_same]
  exact fun v _ => shows_cell v

theorem isArray_of_mem_map {lists : List (List Json)} {x : Json} (hx : x ∈ lists.map .array) : IsArray x := by
  obtain ⟨cells, -, rfl⟩ := List.mem_map.1 hx
  exact ⟨cells, rfl⟩

/-- What stands at the place behind some lists, and before it. -/
theorem getElem?_first (lists : List (List Json)) (x : Json) (after : List Json) :
    (lists.map .array ++ x :: after)[lists.length]? = some x ∧
      ∀ (j : Nat) (y : Json), j < lists.length → (lists.map .array ++ x :: after)[j]? = some y → IsArray y := by
  constructor
  · rw [← List.length_map Json.array, List.getElem?_append_right (Nat.le_refl _), Nat.sub_self]
    rfl
  · intro j y hj hy
    rw [List.getElem?_append_left (by rwa [List.length_map])] at hy
    exact isArray_of_mem_map (List.mem_of_getElem? hy)

theorem table_of_not_isArray (source : String) {v : Json} (hv : ¬IsArray v) :
    table source v = .error (.malformed source "expected an array of rows") := by
  cases v with
  | array items => exact absurd ⟨items, rfl⟩ hv
  | _ => rfl

/-- **A table keeps the shape and the content of a list of lists, and there is none for any other value.** Without a table the
answer is malformed; if the value is a list, the first item that is none is named by its place and its text. -/
theorem table_law (source : String) (v : Json) :
    ((∃ rows, table source v = .ok rows) ↔ ∃ items, v = .array items ∧ ∀ x ∈ items, IsArray x) ∧
    (∀ rows, table source v = .ok rows →
      ∃ lists : List (List Json), v = .array (lists.map .array) ∧ List.Forall₂ (List.Forall₂ Shows) lists rows) ∧
    ∀ f, table source v = .error f → ∃ details, f = .malformed source details ∧
      (¬IsArray v → details = "expected an array of rows") ∧
      ∀ items, v = .array items → ∃ (i : Nat) (x : Json), items[i]? = some x ∧ ¬IsArray x ∧
        (∀ (j : Nat) (y : Json), j < i → items[j]? = some y → IsArray y) ∧
        details = "row " ++ toString i ++ " is not an array: " ++ x.render := by
  by_cases hv : IsArray v
  · obtain ⟨items, rfl⟩ := hv
    obtain ⟨lists, rfl, hrows⟩ | ⟨lists, x, after, rfl, hx, herror⟩ := rowsFrom_cases source 0 items
    · rw [table, hrows]
      refine ⟨⟨fun _ => ⟨_, rfl, fun x => isArray_of_mem_map⟩, fun _ => ⟨_, rfl⟩⟩, ?_, fun f h => by cases h⟩
      rintro rows ⟨⟩
      exact ⟨lists, rfl, forall₂_shows lists⟩
    · rw [table, herror]
      refine ⟨⟨?_, ?_⟩, fun rows h => (by cases h), ?_⟩
      · rintro ⟨rows, ⟨⟩⟩
      · rintro ⟨items, ⟨⟩, hitems⟩
        exact absurd (hitems x (List.mem_append_right _ List.mem_cons_self)) hx
      · rintro f ⟨⟩
        refine ⟨_, rfl, fun h => absurd ⟨_, rfl⟩ h, ?_⟩
        rintro items ⟨⟩
        obtain ⟨hplace, hbefore⟩ := getElem?_first lists x after
        exact ⟨lists.length, x, hplace, hx, hbefore, by rw [Nat.zero_add]⟩
  · rw [table_of_not_isArray source hv]
    refine ⟨⟨?_, ?_⟩, fun rows h => (by cases h), ?_⟩
    · rintro ⟨rows, ⟨⟩⟩
    · rintro ⟨items, rfl, -⟩
      exact absurd ⟨items, rfl⟩ hv
    · rintro f ⟨⟩
      exact ⟨_, rfl, fun _ => rfl, fun items h => absurd ⟨items, h⟩ hv⟩

/-- A row with a string, a null and an object that holds a list. -/
theorem table_of_nested : ∃ s, table "runs" (.array [.array [.text "up", .null,
      .object [("done", .array [.int (-3), .bool true])]]]) = .ok [["up", "", s]] ∧
    Json.parse s = .ok (.object [("done", .array [.int (-3), .bool true])]) := by
  refine ⟨_, rfl, ?_⟩
  obtain ⟨lists, hlists, hrows⟩ := (table_law "runs" (.array [.array [.text "up", .null,
    .object [("done", .array [.int (-3), .bool true])]]])).2.1 _ rfl
  have hlist : Plain 126 (.array [.int (-3), .bool true]) :=
    .array (n := 125) (List.forall_mem_cons.2 ⟨.int (by decide) (by decide), List.forall_mem_singleton.2 (.bool true)⟩)
  have hobject : Plain (depthBound - 1) (.object [("done", .array [.int (-3), .bool true])]) :=
    .object (n := 126) (List.pairwise_singleton _ _) (List.forall_mem_singleton.2 hlist)
  match lists, hlists, hrows with
  | [_], rfl, .cons (.cons _ (.cons _ (.cons hshow .nil))) .nil =>
    exact (hshow.other (fun _ h => by cases h) (fun h => by cases h) _ hobject).2 hobject

end Response
end Dashboard
