import Dashboard.Config.File
import Dashboard.Proofs.Board.History
import Dashboard.Proofs.Text.Digits
import Dashboard.Proofs.Response.Label
import Mathlib.Algebra.Ring.Nat
import Mathlib.Data.List.Basic

/-! # The lines of a view

A view is shown as a header and one entry for each slot, and a newline behind each of these. A label is shown as it is, so an
entry has a line more for each newline in its label. Without such newlines each slot has one line.

* `Text.breaks`, `Text.linesOf`: the newlines of a text, and its lines.
* `Text.linesOf_join`: the lines of texts that each have a newline behind them.
* `Status.breaks_text`: a table breaks no line.
* `Board.lines_of_view`: the lines of every view of a board.
-/

namespace Dashboard
set_option autoImplicit false

/-! ## Lines -/

namespace Text

def breaks (s : String) : Nat := s.toList.count '\n'

/-- The lines of a text, each of which ends with a newline. What stands behind the last newline is no line. -/
def linesOf (s : String) : List String := (Config.pieces '\n' s).dropLast

theorem breaks_append (s t : String) : breaks (s ++ t) = breaks s + breaks t := by
  rw [breaks, String.toList_append, List.count_append]
  rfl

theorem breaks_eq_zero_iff {s : String} : breaks s = 0 ↔ '\n' ∉ s.toList := List.count_eq_zero

theorem length_pieces (s : String) : (Config.pieces '\n' s).length = breaks s + 1 := by
  rw [Config.pieces, List.length_map, breaks]
  induction s.toList with
  | nil => rfl
  | cons c cs ih =>
    rw [List.splitOn_cons_eq_if_modifyHead, List.count_cons]
    split
    · rw [List.length_cons, ih]
    · rw [List.length_modifyHead, ih]

theorem pieces_of_breaks {s : String} (h : breaks s = 0) : Config.pieces '\n' s = [s] := by
  rw [Config.pieces, List.splitOn_eq_singleton (breaks_eq_zero_iff.1 h), List.map_singleton, String.ofList_toList]

/-- Each text gives the lines that its newlines make of it. -/
theorem linesOf_join (ss : List String) :
    linesOf (String.join (ss.map (· ++ "\n"))) = ss.flatMap (Config.pieces '\n') := by
  have hpieces : Config.pieces '\n' (String.join (ss.map (· ++ "\n"))) = ss.flatMap (Config.pieces '\n') ++ [""] := by
    induction ss with
    | nil => rfl
    | cons s ss ih =>
      have hcut : (String.join ((s :: ss).map (· ++ "\n"))).toList =
          s.toList ++ '\n' :: (String.join (ss.map (· ++ "\n"))).toList := by
        rw [List.map_cons, String.join_cons, String.toList_append, String.toList_append, List.append_assoc]
        rfl
      rw [List.flatMap_cons, List.append_assoc, ← ih, Config.pieces, hcut, List.splitOn_append_cons_self, List.map_append]
      rfl
  rw [linesOf, hpieces, List.dropLast_concat]

theorem length_linesOf_join (ss : List String) :
    (linesOf (String.join (ss.map (· ++ "\n")))).length = (ss.map fun s => breaks s + 1).sum := by
  rw [linesOf_join, List.length_flatMap]
  simp only [length_pieces]

theorem linesOf_join_of_breaks {ss : List String} (h : ∀ s ∈ ss, breaks s = 0) :
    linesOf (String.join (ss.map (· ++ "\n"))) = ss := by
  rw [linesOf_join]
  calc ss.flatMap (Config.pieces '\n') = ss.flatMap fun s => [s] := List.flatMap_congr fun s hs => pieces_of_breaks (h s hs)
    _ = ss := List.flatMap_singleton' ss

theorem breaks_toString (n : Nat) : breaks (toString n) = 0 := by
  rw [breaks_eq_zero_iff, Nat.toString_eq_ofList_toDigits, String.toList_ofList]
  intro hmem
  cases isDigit_of_mem hmem

end Text

/-! ## Entries -/

/-- The newlines that a status brings into the text of a view. -/
def Status.breaks : Status → Nat
  | .label l => Text.breaks l
  | .table _ => 0

theorem Status.breaks_text (s : Status) : Text.breaks s.text = s.breaks := by
  cases s with
  | label l => rfl
  | table rows =>
    unfold text
    split
    · rename_i heq
      cases heq
    · rfl
    · rw [Text.breaks_append, Text.breaks_toString]
      rfl

namespace Board
open Text (breaks linesOf)

namespace View

/-- A name takes twenty columns. -/
theorem length_padRight_name (slot : Slot) : (padRight 20 slot.name).length = 20 := by
  cases slot <;> rfl

/-- Only a label brings newlines into the entry of a slot. -/
theorem breaks_line (slot : Slot) (t : Tracked) : breaks (line (slot, t)) = t.current.elim 0 Status.breaks := by
  have hname : breaks ("  " ++ padRight 20 slot.name ++ " ") = 0 := by
    cases slot <;> decide
  have hwords : breaks (words t) = t.current.elim 0 Status.breaks := by
    cases hcurrent : t.current with
    | none =>
      rw [words, hcurrent]
      rfl
    | some s =>
      rw [words, hcurrent]
      exact s.breaks_text
  rw [line, Text.breaks_append, hname, hwords, Nat.zero_add]

end View

/-- **The lines of a view.** After every history of calls, the text of the view is the header with the revision, and then in
their order one entry for each slot: two blanks, the name in twenty columns, a blank, and the status that the slot holds, or
that it is pending; a newline stands behind each. The text has seven lines and one more for each newline in a label that it
shows. So it has seven lines exactly if it shows no label with a newline, and then these are the header and the entries. -/
theorem lines_of_view (calls : List Call) :
    let b := after calls
    let entry (slot : Slot) : String :=
      "  " ++ View.padRight 20 slot.name ++ " " ++ ((b.get slot).map Status.text).getD "pending"
    let lines := ("revision " ++ toString b.revision) :: Slot.all.map entry
    b.view.text = String.join (lines.map (· ++ "\n")) ∧ (∀ slot : Slot, (View.padRight 20 slot.name).length = 20) ∧
    (linesOf b.view.text).length = 7 + (Slot.all.map fun slot => (b.get slot).elim 0 Status.breaks).sum ∧
    ((linesOf b.view.text).length = 7 ↔ ∀ slot l, b.get slot = some (.label l) → '\n' ∉ l.toList) ∧
    ((∀ slot l, b.get slot = some (.label l) → '\n' ∉ l.toList) → linesOf b.view.text = lines) := by
  intro b entry lines
  have htext : b.view.text = String.join (lines.map (· ++ "\n")) := rfl
  have hheader : breaks ("revision " ++ toString b.revision) = 0 := by
    rw [Text.breaks_append, Text.breaks_toString]
    rfl
  have hentry (slot : Slot) : breaks (entry slot) = (b.get slot).elim 0 Status.breaks :=
    View.breaks_line slot (b.tracked slot)
  have hlength : (linesOf b.view.text).length =
      7 + (Slot.all.map fun slot => (b.get slot).elim 0 Status.breaks).sum := by
    rw [htext, Text.length_linesOf_join, List.map_cons, List.sum_cons, hheader, List.map_map]
    simp only [Slot.all, List.map_cons, List.map_nil, List.sum_cons, List.sum_nil, Function.comp_apply, hentry]
    omega
  have hnone : (∀ slot l, b.get slot = some (.label l) → '\n' ∉ l.toList) ↔
      ∀ slot, (b.get slot).elim 0 Status.breaks = 0 := by
    refine forall_congr' fun slot => ?_
    cases b.get slot with
    | none => simp
    | some s =>
      cases s with
      | label l => simp [Status.breaks, Text.breaks_eq_zero_iff]
      | table rows => simp [Status.breaks]
  refine ⟨htext, View.length_padRight_name, hlength, ?_, ?_⟩
  · rw [hlength, hnone, Nat.add_eq_left, List.sum_eq_zero_iff_forall_eq_nat, List.forall_mem_map]
    exact ⟨fun h slot => h slot (Slot.mem_all slot), fun h slot _ => h slot⟩
  · intro h
    rw [htext]
    refine Text.linesOf_join_of_breaks (List.forall_mem_cons.2 ⟨hheader, List.forall_mem_map.2 fun slot _ => ?_⟩)
    rw [hentry]
    exact hnone.1 h slot

/-- A label with a newline, which an answer of the server may well hold. The text has eight lines, and the third one is what
a run status of one row would show, while no run status was ever written. -/
theorem lines_of_broken_label :
    let label := "up\n  run_status           1 row"
    let b := after [⟨0, .server, .label label⟩]
    Response.label "server" "\"up\\n  run_status           1 row\"" = .ok label ∧
      b.get .runStatus = none ∧ (linesOf b.view.text).length = 8 ∧
      (linesOf b.view.text)[2]? = some (View.line (.runStatus, ⟨some (.table [["base", "complete"]]), some 0, 1⟩)) := by
  intro label b
  have htext : "\"up\\n  run_status           1 row\"".toList = [] ++ Json.stringChars label ++ [] := by
    decide +kernel
  have hlines : linesOf b.view.text = b.view.lines.flatMap (Config.pieces '\n') := Text.linesOf_join _
  rw [hlines]
  refine ⟨?_, by decide +kernel, by decide +kernel, by decide +kernel⟩
  rw [Response.label_of_literal "server" htext (by simp) (Json.isLiteral_stringChars label)]
  exact if_neg (by decide)

end Board
end Dashboard
