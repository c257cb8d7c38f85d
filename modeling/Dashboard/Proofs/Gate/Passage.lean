import Dashboard.Gate

/-! # Passage through gates

The three ways to ask about a gate agree, and a closing only ever takes passages away.

* `isClosed_iff`, `isOpen_iff`, `permits_iff`: a closing has reached the gate, or it is open and writes may pass.
* `isClosed_close`: what one closing does to any gate.
* `Sound`, `isClosed_of_new`: the latch of a new gate is unshut, so a closing reaches it through those above only.
-/

namespace Dashboard.Latches
set_option autoImplicit false

variable (l : Latches) (g x : Gate)

theorem isClosed_iff : l.isClosed g = true ↔ ∃ n ∈ g.latches, n ∈ l.shut := by
  simp [isClosed, isShut]

theorem isOpen_eq_not_isClosed : l.isOpen g = !l.isClosed g := by
  rw [isOpen_eq_all, isClosed, List.not_any_eq_all_not]

theorem isOpen_iff : l.isOpen g = true ↔ l.isClosed g = false := by
  rw [isOpen_eq_not_isClosed, Bool.not_eq_true']

/-- The walk from the root finds what the walk from the gate finds. -/
theorem permits_eq_isOpen : l.permits g = l.isOpen g := by
  rw [permits, allUnshut_eq_all, List.all_reverse, isOpen_eq_all]

theorem permits_iff : l.permits g = true ↔ l.isClosed g = false := by
  rw [permits_eq_isOpen, isOpen_iff]

theorem isClosed_congr {l m : Latches} (h : m.shut = l.shut) (g : Gate) : m.isClosed g = l.isClosed g := by
  rw [Bool.eq_iff_iff, isClosed_iff, isClosed_iff, h]

theorem isClosed_close : (l.close x).isClosed g = true ↔ x.latch ∈ g.latches ∨ l.isClosed g = true := by
  rw [isClosed_iff, isClosed_iff]
  constructor
  · rintro ⟨n, hn, hs⟩
    rcases List.mem_cons.mp hs with rfl | hs
    · exact .inl hn
    · exact .inr ⟨n, hn, hs⟩
  · rintro (h | ⟨n, hn, hs⟩)
    · exact ⟨_, h, List.mem_cons_self⟩
    · exact ⟨n, hn, List.mem_cons_of_mem _ hs⟩

/-- A latch that was not made yet was not shut. -/
def Sound : Prop := ∀ n ∈ l.shut, n < l.made

theorem Sound.close {l : Latches} (h : l.Sound) {x : Gate} (hx : x.latch < l.made) : (l.close x).Sound := by
  intro n hn
  rcases List.mem_cons.mp hn with rfl | hn
  · exact hx
  · exact h n hn

theorem Sound.not_isShut {l : Latches} (h : l.Sound) {n : Nat} (hn : l.made ≤ n) : n ∉ l.shut :=
  fun hs => absurd (h n hs) (by omega)

/-- A gate of which only its own latch is new is closed exactly if one of the others is. -/
theorem isClosed_of_new {l : Latches} (h : l.Sound) {n : Nat} (hn : l.made ≤ n) (above : List Nat)
    (a : Nat) : l.isClosed ⟨n, above, a⟩ = true ↔ ∃ m ∈ above, m ∈ l.shut := by
  rw [isClosed_iff]
  simp only [Gate.latches, List.mem_cons, exists_eq_or_imp]
  exact or_iff_right (h.not_isShut hn)

end Dashboard.Latches
