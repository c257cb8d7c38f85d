import Dashboard.Text.Blank
import Mathlib.Data.List.TakeWhile

/-! # What trimming removes

A text is a stripped text between characters of the class, and this says all: no other cut leaves a stripped text.

* `Text.Stripped`: a text that neither begins nor ends with a character of the class.
* `Text.exists_strip`: what `strip` leaves is stripped, and what it removes is of the class.
* `Text.strip_append`: a stripped text is what `strip` leaves of it between characters of the class.
-/

namespace Dashboard.Text
set_option autoImplicit false

variable {p : Char → Bool} {cs w w₁ w₂ : List Char}

/-- The text neither begins nor ends with a character of class `p`. -/
def Stripped (p : Char → Bool) (cs : List Char) : Prop :=
  (∀ c ∈ cs.head?, p c = false) ∧ ∀ c ∈ cs.getLast?, p c = false

/-! ## The beginning -/

theorem stripStart_append (h : ∀ c ∈ w, p c = true) : stripStart p (w ++ cs) = stripStart p cs :=
  List.dropWhile_append_of_pos h

theorem stripStart_eq_self (h : ∀ c ∈ cs.head?, p c = false) : stripStart p cs = cs := by
  cases cs with
  | nil => rfl
  | cons c cs => exact List.dropWhile_cons_of_neg (by simp [h c rfl])

theorem head?_stripStart (p : Char → Bool) (cs : List Char) : ∀ c ∈ (stripStart p cs).head?, p c = false := by
  intro c hc
  have hhead := List.head?_dropWhile_not p cs
  rw [stripStart, Option.mem_def] at hc
  rwa [hc] at hhead

theorem exists_stripStart (p : Char → Bool) (cs : List Char) :
    ∃ w, (∀ c ∈ w, p c = true) ∧ cs = w ++ stripStart p cs :=
  ⟨cs.takeWhile p, fun _ => List.mem_takeWhile_imp, List.takeWhile_append_dropWhile.symm⟩

/-! ## The end -/

theorem stripEnd_eq_reverse (p : Char → Bool) (cs : List Char) : stripEnd p cs = (stripStart p cs.reverse).reverse := by
  rw [← stripEnd_reverse, List.reverse_reverse]

theorem stripEnd_append (h : ∀ c ∈ w, p c = true) : stripEnd p (cs ++ w) = stripEnd p cs := by
  have hw : ∀ c ∈ w.reverse, p c = true := fun c hc => h c (List.mem_reverse.1 hc)
  rw [stripEnd_eq_reverse, List.reverse_append, stripStart_append hw, stripEnd_eq_reverse]

theorem stripEnd_eq_self (h : ∀ c ∈ cs.getLast?, p c = false) : stripEnd p cs = cs := by
  rw [← List.head?_reverse] at h
  rw [stripEnd_eq_reverse, stripStart_eq_self h, List.reverse_reverse]

theorem getLast?_stripEnd (p : Char → Bool) (cs : List Char) : ∀ c ∈ (stripEnd p cs).getLast?, p c = false := by
  rw [stripEnd_eq_reverse, List.getLast?_reverse]
  exact head?_stripStart p cs.reverse

theorem exists_stripEnd (p : Char → Bool) (cs : List Char) :
    ∃ w, (∀ c ∈ w, p c = true) ∧ cs = stripEnd p cs ++ w := by
  obtain ⟨w, hw, hcs⟩ := exists_stripStart p cs.reverse
  refine ⟨w.reverse, fun c hc => hw c (List.mem_reverse.1 hc), ?_⟩
  rw [stripEnd_eq_reverse, ← List.reverse_append, ← hcs, List.reverse_reverse]

/-! ## Both ends -/

theorem stripped_strip (p : Char → Bool) (cs : List Char) : Stripped p (strip p cs) := by
  refine ⟨fun c hc => ?_, getLast?_stripEnd p _⟩
  obtain ⟨w, -, hw⟩ := exists_stripEnd p (stripStart p cs)
  have hhead := head?_stripStart p cs c
  rw [hw, List.head?_append, ← strip, Option.mem_def.1 hc] at hhead
  exact hhead rfl

/-- What is left is stripped, and what is removed at either end is of the class. -/
theorem exists_strip (p : Char → Bool) (cs : List Char) :
    ∃ w₁ w₂, (∀ c ∈ w₁ ++ w₂, p c = true) ∧ cs = w₁ ++ strip p cs ++ w₂ ∧ Stripped p (strip p cs) := by
  obtain ⟨w₁, h₁, hstart⟩ := exists_stripStart p cs
  obtain ⟨w₂, h₂, hend⟩ := exists_stripEnd p (stripStart p cs)
  refine ⟨w₁, w₂, List.forall_mem_append.2 ⟨h₁, h₂⟩, ?_, stripped_strip p cs⟩
  rw [List.append_assoc, strip, ← hend, ← hstart]

/-- A stripped text is what is left of it between characters of the class. -/
theorem strip_append (h₁ : ∀ c ∈ w₁, p c = true) (h₂ : ∀ c ∈ w₂, p c = true) (hcs : Stripped p cs) :
    strip p (w₁ ++ cs ++ w₂) = cs := by
  rw [strip, List.append_assoc, stripStart_append h₁]
  cases cs with
  | nil =>
    have hw : stripStart p (w₂ ++ []) = [] := stripStart_append h₂
    rw [List.nil_append, ← List.append_nil w₂, hw]
    rfl
  | cons c cs =>
    have hstart : stripStart p (c :: cs ++ w₂) = c :: cs ++ w₂ := stripStart_eq_self hcs.1
    rw [hstart, stripEnd_append h₂, stripEnd_eq_self hcs.2]

end Dashboard.Text
