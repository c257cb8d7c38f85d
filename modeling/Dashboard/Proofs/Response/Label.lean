import Dashboard.Response
import Dashboard.Proofs.Json.Literal
import Dashboard.Proofs.Text.Strip

/-! # The label in the answer to a health check

An answer is one stripped text between blanks. A text that is a string literal gives the string, whatever the string holds;
every other text gives itself.

* `Json.parse_eq_text_iff_of_stripped`: a stripped text is read as a string exactly if it is a literal.
* `Response.label_of_literal`, `Response.label_of_bare`: the two forms of a label.
* `Response.label_law`: every answer.
-/

namespace Dashboard
set_option autoImplicit false

/-! ## Stripped texts -/

namespace Json
variable {text : List Char} {s : String}

theorem isBlank_of_cursor {c : Char} (h : Cursor.isBlank c = true) : Text.isBlank c = true := by
  simp only [Cursor.isBlank, Bool.or_eq_true, beq_iff_eq] at h
  rcases h with ((rfl | rfl) | rfl) | rfl <;> rfl

/-- A literal has a quote at either end. -/
theorem IsLiteral.stripped (h : IsLiteral text s) : Text.Stripped Text.isBlank text := by
  obtain ⟨body, rfl, -⟩ := h
  have hquote : Text.isBlank '"' = false := rfl
  constructor
  · rintro c ⟨⟩
    exact hquote
  · intro c hc
    rw [← List.cons_append, List.getLast?_concat, Option.mem_some_iff] at hc
    exact hc ▸ hquote

/-- The blanks of JSON are blanks, so none stand around a literal in a stripped text. -/
theorem parse_eq_text_iff_of_stripped {t : String} (ht : Text.Stripped Text.isBlank t.toList) :
    parse t = .ok (.text s) ↔ IsLiteral t.toList s := by
  rw [parse_eq_text_iff]
  constructor
  · rintro ⟨w₁, text, w₂, hcut, hblank, hliteral⟩
    have hwhite : ∀ c ∈ w₁ ++ w₂, Text.isBlank c = true := fun c hc => isBlank_of_cursor (hblank c hc)
    obtain ⟨h₁, h₂⟩ := List.forall_mem_append.1 hwhite
    have hnone : ∀ c ∈ ([] : List Char), Text.isBlank c = true := List.forall_mem_nil _
    have hself : Text.strip Text.isBlank ([] ++ t.toList ++ []) = t.toList := Text.strip_append hnone hnone ht
    rw [List.nil_append, List.append_nil, hcut, Text.strip_append h₁ h₂ hliteral.stripped] at hself
    rwa [hcut, ← hself]
  · intro hliteral
    exact ⟨[], t.toList, [], by simp, List.forall_mem_nil _, hliteral⟩

end Json

/-! ## The two forms -/

namespace Response
open Json (IsLiteral)

variable (source : String) {body : String} {w₁ t w₂ : List Char}

theorem trim_eq (hbody : body.toList = w₁ ++ t ++ w₂) (hblank : ∀ c ∈ w₁ ++ w₂, Text.isBlank c = true)
    (ht : Text.Stripped Text.isBlank t) : Text.trim body = String.ofList t := by
  obtain ⟨h₁, h₂⟩ := List.forall_mem_append.1 hblank
  rw [Text.trim, hbody, Text.strip_append h₁ h₂ ht]

theorem label_of_literal (hbody : body.toList = w₁ ++ t ++ w₂) (hblank : ∀ c ∈ w₁ ++ w₂, Text.isBlank c = true)
    {s : String} (hs : IsLiteral t s) :
    label source body = if s = "" then .error (.malformed source "empty status label") else .ok s := by
  have htoList : (String.ofList t).toList = t := String.toList_ofList
  have hparse : Json.parse (String.ofList t) = .ok (.text s) :=
    (Json.parse_eq_text_iff_of_stripped (htoList.symm ▸ hs.stripped)).2 (htoList.symm ▸ hs)
  simp only [label, trim_eq hbody hblank hs.stripped, hparse]

theorem label_of_bare (hbody : body.toList = w₁ ++ t ++ w₂) (hblank : ∀ c ∈ w₁ ++ w₂, Text.isBlank c = true)
    (ht : Text.Stripped Text.isBlank t) (hbare : ∀ s, ¬IsLiteral t s) :
    label source body =
      if t = [] then .error (.malformed source "empty status label") else .ok (String.ofList t) := by
  have htoList : (String.ofList t).toList = t := String.toList_ofList
  have hparse (s : String) : Json.parse (String.ofList t) ≠ .ok (.text s) := by
    rw [Ne, Json.parse_eq_text_iff_of_stripped (htoList.symm ▸ ht), htoList]
    exact hbare s
  have hempty : String.ofList t = "" ↔ t = [] := by
    rw [← String.toList_inj, htoList, String.toList_empty]
  simp only [label, trim_eq hbody hblank ht, hempty]

/-! ## Every answer -/

theorem ne_empty_of_label {r : String} (h : label source body = .ok r) : r ≠ "" := by
  unfold label at h
  dsimp only at h
  split at h <;> split at h
  · cases h
  · rename_i hne
    exact Except.ok.inj h ▸ hne
  · cases h
  · rename_i hne
    exact Except.ok.inj h ▸ hne

/-- **A label is what a string literal denotes, or the stripped text itself.** Every answer has one stripped text between
blanks, and one of the two forms decides. No label is empty; and every string that is not empty comes through, in whichever way
its literal is written and whatever blanks stand around it. -/
theorem label_law (source : String) :
    (∀ body : String, ∃ w₁ t w₂, body.toList = w₁ ++ t ++ w₂ ∧ (∀ c ∈ w₁ ++ w₂, Text.isBlank c = true) ∧
      Text.Stripped Text.isBlank t) ∧
    (∀ (body : String) (w₁ t w₂ : List Char), body.toList = w₁ ++ t ++ w₂ → (∀ c ∈ w₁ ++ w₂, Text.isBlank c = true) →
      Text.Stripped Text.isBlank t →
      (∀ s, IsLiteral t s →
        label source body = if s = "" then .error (.malformed source "empty status label") else .ok s) ∧
      ((∀ s, ¬IsLiteral t s) → label source body =
        if t = [] then .error (.malformed source "empty status label") else .ok (String.ofList t))) ∧
    (∀ s : String, s ≠ "" → IsLiteral (Json.render (.text s)).toList s ∧
      ∀ w₁ text w₂ : List Char, (∀ c ∈ w₁ ++ w₂, Text.isBlank c = true) → IsLiteral text s →
        label source (String.ofList (w₁ ++ text ++ w₂)) = .ok s) ∧
    ∀ body r, label source body = .ok r → r ≠ "" := by
  refine ⟨fun body => ?_, fun body w₁ t w₂ hbody hblank ht => ⟨fun s hs => ?_, fun hbare => ?_⟩,
    fun s hne => ⟨?_, fun w₁ text w₂ hblank hs => ?_⟩, fun body r h => ne_empty_of_label source h⟩
  · obtain ⟨w₁, w₂, hblank, hbody, hstripped⟩ := Text.exists_strip Text.isBlank body.toList
    exact ⟨w₁, _, w₂, hbody, hblank, hstripped⟩
  · exact label_of_literal source hbody hblank hs
  · exact label_of_bare source hbody hblank ht hbare
  · rw [Json.render, String.toList_ofList, Json.chars]
    exact Json.isLiteral_stringChars s
  · rw [label_of_literal source String.toList_ofList hblank hs, if_neg hne]

/-- A face in two code units, with a blank of its own behind it, between blanks that JSON does not know. -/
theorem label_of_surrogates : label "server" (String.ofList (['\u00a0'] ++
      ('"' :: (['\\', 'u', 'D', '8', '3', 'd', '\\', 'u', 'D', 'E', '0', '0', ' '] ++ ['"'])) ++ ['\u3000', '\n'])) =
    .ok (String.ofList ['😀', ' ']) := by
  have hlead : Json.Unit16 ['D', '8', '3', 'd'] 0xD83D := ⟨13, 8, 3, 13, rfl, rfl⟩
  have htrail : Json.Unit16 ['D', 'E', '0', '0'] 0xDE00 := ⟨13, 14, 0, 0, rfl, rfl⟩
  have hspace : Json.Body ([' '] ++ []) [' '] := .cons (.self (by decide) (by decide) (by decide)) .nil
  have hbody := Json.Body.cons (.pair hlead htrail (by decide) (by decide)) hspace
  have hliteral : IsLiteral ('"' :: (['\\', 'u', 'D', '8', '3', 'd', '\\', 'u', 'D', 'E', '0', '0', ' '] ++ ['"']))
      (String.ofList ['😀', ' ']) := by
    refine ⟨['\\', 'u', 'D', '8', '3', 'd', '\\', 'u', 'D', 'E', '0', '0', ' '], rfl, ?_⟩
    rw [String.toList_ofList]
    exact hbody
  have hblank : ∀ c ∈ ['\u00a0'] ++ ['\u3000', '\n'], Text.isBlank c = true := by
    simp only [List.cons_append, List.nil_append, List.forall_mem_cons]
    exact ⟨rfl, rfl, rfl, List.forall_mem_nil _⟩
  exact ((label_law "server").2.2.1 _ (by decide)).2 _ _ _ hblank hliteral

end Response
end Dashboard
