import Dashboard.Proofs.World.Writing
import Mathlib.Logic.ExistsUnique
import Mathlib.Logic.Relation

/-! # The law of the gate tree

Gates are made and closed in any order: roots, children of any gate, and closings of any gate, be it open or not. What the
history says about a gate decides whether it is open, and nothing else does.

* `Gate.History`, `History.forest`: what was done to gates, and the gates and latches that come of it.
* `History.parent?`, `History.Behind`, `History.closings`: what a history says, read without the latches.
* `History.mem_latches_gate`: the latches of a gate are those of the gates that it is behind.
* `History.Continues`: a longer history.
* `History.gate_tree_law`: openness, closing and activations, for every history.
-/

namespace Dashboard.Gate
set_option autoImplicit false

/-! ## Histories -/

/-- A history in which so many gates were made. They are numbered from zero. -/
inductive History : Nat → Type where
  | start : History 0
  | root {n : Nat} (h : History n) : History (n + 1)
  | child {n : Nat} (h : History n) (parent : Fin n) : History (n + 1)
  | close {n : Nat} (h : History n) (gate : Fin n) : History n

/-- The gates in the order of their numbers, and the latches. -/
structure Forest (n : Nat) where
  gates : Vector Gate n
  latches : Latches

namespace History

def forest : {n : Nat} → History n → Forest n
  | _, .start => ⟨#v[], {}⟩
  | _, .root h =>
    let (g, l) := h.forest.latches.root
    ⟨h.forest.gates.push g, l⟩
  | _, .child h parent =>
    let (g, l) := h.forest.latches.child h.forest.gates[parent]
    ⟨h.forest.gates.push g, l⟩
  | _, .close h gate => ⟨h.forest.gates, h.forest.latches.close h.forest.gates[gate]⟩

def latches {n : Nat} (h : History n) : Latches := h.forest.latches

def gate {n : Nat} (h : History n) (x : Fin n) : Gate := h.forest.gates[x]

/-- The gate that a gate was made a child of, by their numbers. -/
def parent? : {n : Nat} → History n → Nat → Option Nat
  | _, .start, _ => none
  | _, .root h, x => h.parent? x
  | _, @child n h parent, x => if x = n then some parent else h.parent? x
  | _, .close h _, x => h.parent? x

/-- The first gate is the second one, or a descendant of it. -/
def Behind {n : Nat} (h : History n) : Nat → Nat → Prop :=
  Relation.ReflTransGen fun x parent => h.parent? x = some parent

/-- The gates that were closed, the latest first. -/
def closings : {n : Nat} → History n → List Nat
  | _, .start => []
  | _, .root h => h.closings
  | _, .child h _ => h.closings
  | _, .close h gate => gate :: h.closings

variable {n : Nat} (h : History n)

/-! ## What a history made -/

@[simp] theorem latches_root : h.root.latches = ⟨h.latches.made + 1, h.latches.shut⟩ := rfl

@[simp] theorem latches_child (p : Fin n) : (h.child p).latches = ⟨h.latches.made + 1, h.latches.shut⟩ := rfl

@[simp] theorem latches_close (g : Fin n) : (h.close g).latches = h.latches.close (h.gate g) := rfl

@[simp] theorem gate_close (g x : Fin n) : (h.close g).gate x = h.gate x := rfl

theorem made_latches : h.latches.made = n := by
  induction h with
  | start => rfl
  | root h ih => exact congrArg (· + 1) ih
  | child h p ih => exact congrArg (· + 1) ih
  | close h g ih => exact ih

@[simp] theorem gate_root_last : h.root.gate (Fin.last n) = ⟨n, [], n⟩ := by
  have hmade := h.made_latches
  simp only [latches] at hmade
  simp [gate, forest, Latches.root, hmade]

@[simp] theorem gate_child_last (p : Fin n) :
    (h.child p).gate (Fin.last n) = ⟨n, (h.gate p).latches, (h.gate p).activation⟩ := by
  have hmade := h.made_latches
  simp only [latches] at hmade
  simp [gate, forest, Latches.child, hmade]

@[simp] theorem gate_root_castSucc (x : Fin n) : h.root.gate x.castSucc = h.gate x := by
  simp [gate, forest]

@[simp] theorem gate_child_castSucc (p x : Fin n) : (h.child p).gate x.castSucc = h.gate x := by
  simp [gate, forest]

theorem parent?_lt {x p : Nat} (hp : h.parent? x = some p) : p < x ∧ x < n := by
  induction h with
  | start => exact absurd hp (Option.some_ne_none p).symm
  | root h ih =>
    have hlt := ih hp
    omega
  | @child n h q ih =>
    by_cases hx : x = n
    · simp only [parent?, hx, if_true, Option.some.injEq] at hp
      omega
    · simp only [parent?, hx, if_false] at hp
      have hlt := ih hp
      omega
  | close h g ih => exact ih hp

/-- A gate has a latch of its own, above it the latches of its parent, and the activation of its parent. A root begins an
activation. -/
theorem gate_cases (x : Fin n) :
    h.parent? x = none ∧ h.gate x = ⟨x, [], x⟩ ∨
      ∃ p : Fin n, h.parent? x = some p.val ∧
        h.gate x = ⟨x, (h.gate p).latches, (h.gate p).activation⟩ := by
  induction h with
  | start => exact x.elim0
  | @root n h ih =>
    induction x using Fin.lastCases with
    | last =>
      refine .inl ⟨?_, by simp⟩
      rw [← Option.not_isSome_iff_eq_none, Option.isSome_iff_exists]
      rintro ⟨p, hp⟩
      have hlt := h.parent?_lt hp
      simp at hlt
    | cast x =>
      rcases ih x with ⟨hp, hg⟩ | ⟨p, hp, hg⟩
      · exact .inl ⟨hp, by simpa using hg⟩
      · exact .inr ⟨p.castSucc, hp, by simpa using hg⟩
  | @child n h q ih =>
    induction x using Fin.lastCases with
    | last => exact .inr ⟨q.castSucc, by simp [parent?], by simp⟩
    | cast x =>
      have hparent : (h.child q).parent? x.castSucc = h.parent? x := if_neg (Nat.ne_of_lt x.isLt)
      rw [hparent]
      rcases ih x with ⟨hp, hg⟩ | ⟨p, hp, hg⟩
      · exact .inl ⟨hp, by simpa using hg⟩
      · exact .inr ⟨p.castSucc, hp, by simpa using hg⟩
  | close h g ih => exact ih x

/-- What holds of every root and passes from a gate to its children holds of every gate. -/
theorem gate_induction {motive : Fin n → Prop}
    (root : ∀ x : Fin n, h.parent? x = none → h.gate x = ⟨x, [], x⟩ → motive x)
    (child : ∀ x p : Fin n, h.parent? x = some p.val →
      h.gate x = ⟨x, (h.gate p).latches, (h.gate p).activation⟩ → motive p → motive x)
    (x : Fin n) : motive x := by
  obtain ⟨x, hx⟩ := x
  induction x using Nat.strongRecOn with
  | ind x ih =>
    rcases h.gate_cases ⟨x, hx⟩ with ⟨hp, hg⟩ | ⟨p, hp, hg⟩
    · exact root _ hp hg
    · exact child _ p hp hg (ih p (h.parent?_lt hp).1 p.isLt)

theorem latch_gate (x : Fin n) : (h.gate x).latch = x := by
  rcases h.gate_cases x with ⟨-, hg⟩ | ⟨p, -, hg⟩
  · rw [hg]
  · rw [hg]

theorem shut_latches : h.latches.shut = h.closings := by
  induction h with
  | start => rfl
  | root h ih => exact ih
  | child h p ih => exact ih
  | close h g ih =>
    rw [latches_close, Latches.close, latch_gate, ih]
    rfl

/-! ## Ancestors -/

theorem behind_iff {x y : Nat} : h.Behind x y ↔ x = y ∨ ∃ p, h.parent? x = some p ∧ h.Behind p y :=
  Relation.ReflTransGen.cases_head_iff

theorem behind_of_root {x y : Nat} (hx : h.parent? x = none) : h.Behind x y ↔ x = y := by
  rw [behind_iff, hx]
  simp

theorem behind_of_child {x y p : Nat} (hx : h.parent? x = some p) :
    h.Behind x y ↔ x = y ∨ h.Behind p y := by
  rw [behind_iff, hx]
  simp

/-- The latches of a gate, its own and those above it, are those of the gates that it is behind. -/
theorem mem_latches_gate (x : Fin n) (y : Nat) : y ∈ (h.gate x).latches ↔ h.Behind x y := by
  induction x using h.gate_induction with
  | root x hp hg => rw [hg, h.behind_of_root hp, Gate.latches, List.mem_singleton, eq_comm]
  | child x p hp hg ih => rw [hg, h.behind_of_child hp, ← ih, Gate.latches, List.mem_cons, eq_comm]

theorem isClosed_iff (x : Fin n) :
    h.latches.isClosed (h.gate x) = true ↔ ∃ y, h.Behind x y ∧ y ∈ h.closings := by
  rw [Latches.isClosed_iff, shut_latches]
  simp only [mem_latches_gate]

theorem isOpen_iff (x : Fin n) :
    h.latches.isOpen (h.gate x) = true ↔ ∀ y, h.Behind x y → y ∉ h.closings := by
  rw [Latches.isOpen_iff, ← Bool.not_eq_true, isClosed_iff]
  simp

/-- Every gate has a root, and carries the number of its root as its activation. -/
theorem exists_root (x : Fin n) :
    ∃ r : Fin n, h.Behind x r ∧ h.parent? r = none ∧ (h.gate x).activation = r := by
  induction x using h.gate_induction with
  | root x hp hg => exact ⟨x, .refl, hp, by rw [hg]⟩
  | child x p hp hg ih =>
    obtain ⟨r, hb, hr, ha⟩ := ih
    exact ⟨r, .head hp hb, hr, by rw [hg, ha]⟩

theorem eq_of_behind_root {x r s : Nat} (hr : h.Behind x r) (hs : h.Behind x s)
    (hr' : h.parent? r = none) (hs' : h.parent? s = none) : r = s := by
  induction hr using Relation.ReflTransGen.head_induction_on with
  | refl => exact (h.behind_of_root hr').1 hs
  | head hp _ ih =>
    rcases (h.behind_of_child hp).1 hs with rfl | hs
    · exact absurd (hp.symm.trans hs') (Option.some_ne_none _)
    · exact ih hs

theorem activation_gate {x r : Fin n} (hb : h.Behind x r) (hr : h.parent? r = none) :
    (h.gate x).activation = r := by
  obtain ⟨s, hb', hs, ha⟩ := h.exists_root x
  rw [ha, h.eq_of_behind_root hb hb' hr hs]

/-! ## Longer histories -/

/-- The second history goes on from the first one. -/
inductive Continues {n : Nat} (h : History n) : {m : Nat} → History m → Prop where
  | refl : Continues h h
  | root {m : Nat} {k : History m} (hk : Continues h k) : Continues h k.root
  | child {m : Nat} {k : History m} (parent : Fin m) (hk : Continues h k) : Continues h (k.child parent)
  | close {m : Nat} {k : History m} (gate : Fin m) (hk : Continues h k) : Continues h (k.close gate)

variable {h} {m : Nat} {k : History m}

theorem Continues.le (hk : h.Continues k) : n ≤ m := by
  induction hk with
  | refl => exact Nat.le_refl n
  | root _ ih => exact Nat.le_succ_of_le ih
  | child _ _ ih => exact Nat.le_succ_of_le ih
  | close _ _ ih => exact ih

theorem Continues.closings_subset (hk : h.Continues k) : h.closings ⊆ k.closings := by
  induction hk with
  | refl => exact fun y hy => hy
  | root _ ih => exact ih
  | child _ _ ih => exact ih
  | close g _ ih => exact fun y hy => List.mem_cons_of_mem _ (ih hy)

/-- The gates that were made stay what they are. -/
theorem Continues.gate_eq (hk : h.Continues k) (x : Fin n) : k.gate (x.castLE hk.le) = h.gate x := by
  induction hk with
  | refl => rfl
  | @root m k hk ih =>
    rw [← ih]
    exact k.gate_root_castSucc (x.castLE hk.le)
  | @child m k p hk ih =>
    rw [← ih]
    exact k.gate_child_castSucc p (x.castLE hk.le)
  | close g _ ih => exact ih

/-! ## The law -/

theorem isOpen_close (h : History n) (g x : Fin n) :
    (h.close g).latches.isOpen (h.gate x) = true ↔
      h.latches.isOpen (h.gate x) = true ∧ ¬h.Behind x g := by
  rw [latches_close, Latches.isOpen_iff, Latches.isOpen_iff, ← Bool.not_eq_true, ← Bool.not_eq_true,
    Latches.isClosed_close, latch_gate, mem_latches_gate, not_or, and_comm]

end History
end Dashboard.Gate
