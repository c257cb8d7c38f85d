import Dashboard.Board.View
import Dashboard.Proofs.World.Writing

/-! # The board as a history of calls

A board that began empty is decided by the calls that were made on it. What it holds in four places - the latest statuses,
their times, the counts of the slots and the revision - and shows in three ways is all read off the calls that a slot
accepted.

Histories of calls have the latest call first.

* `Board.Call`, `Board.after`: a call, and the board after a history of calls.
* `Board.accepted`, `Board.recorded`: the calls that a slot accepted, and what they leave in it.
* `Board.tracked_after`: a slot holds what its accepted calls leave in it.
* `Board.totalUpdates_set`: an accepted call counts once in all slots together.
* `Board.find?_view`: a view has one entry for each slot.
-/

namespace Dashboard.Board
set_option autoImplicit false

/-! ## Calls -/

/-- A status for a slot, at a time. -/
structure Call where
  now : Nat
  slot : Slot
  status : Status
  deriving DecidableEq, Repr

/-- The board after a history of calls. -/
def after : List Call → Board
  | [] => empty
  | c :: past => ((after past).set c.now c.slot c.status).2

/-- The calls that a slot accepted: those for it whose status has its kind. -/
def accepted (slot : Slot) (calls : List Call) : List Call :=
  calls.filter fun c => c.slot = slot ∧ c.status.kind = slot.kind

/-- What the calls that a slot accepted leave in it: the status and the time of the latest one, and their number. -/
def recorded : List Call → Tracked
  | [] => {}
  | c :: past => ⟨some c.status, some c.now, past.length + 1⟩

theorem accepted_self {c : Call} (h : c.status.kind = c.slot.kind) (past : List Call) :
    accepted c.slot (c :: past) = c :: accepted c.slot past := by
  simp [accepted, h]

theorem accepted_of_rejected {c : Call} (h : c.status.kind ≠ c.slot.kind) (slot : Slot) (past : List Call) :
    accepted slot (c :: past) = accepted slot past := by
  have hc : ¬(c.slot = slot ∧ c.status.kind = slot.kind) := by
    rintro ⟨rfl, hkind⟩
    exact h hkind
  simp [accepted, hc]

theorem accepted_of_ne {c : Call} {slot : Slot} (h : slot ≠ c.slot) (past : List Call) :
    accepted slot (c :: past) = accepted slot past := by
  simp [accepted, h.symm]

theorem kind_of_mem_accepted {slot : Slot} {calls : List Call} {c : Call} (h : c ∈ accepted slot calls) :
    c.status.kind = slot.kind := by
  simp only [accepted, List.mem_filter, decide_eq_true_eq] at h
  exact h.2.2

theorem updates_recorded (calls : List Call) : (recorded calls).updates = calls.length := by
  cases calls <;> rfl

theorem current_recorded (calls : List Call) : (recorded calls).current = calls.head?.map Call.status := by
  cases calls <;> rfl

theorem updatedAt_recorded (calls : List Call) : (recorded calls).updatedAt = calls.head?.map Call.now := by
  cases calls <;> rfl

/-! ## One call -/

section
variable (b : Board) (c : Call)

theorem set_fst : (b.set c.now c.slot c.status).1 = true ↔ c.status.kind = c.slot.kind := by
  rw [← accepts_iff]
  cases h : accepts c.slot c.status with
  | true => simp [set_of_accepts b c.now h]
  | false => simp [set_of_not_accepts b c.now h]

theorem set_of_rejected {c : Call} (h : c.status.kind ≠ c.slot.kind) : (b.set c.now c.slot c.status).2 = b := by
  have hnot : accepts c.slot c.status = false := by
    rw [← Bool.not_eq_true, accepts_iff]
    exact h
  rw [set_of_not_accepts b c.now hnot]

theorem totalUpdates_store (now : Nat) (slot : Slot) (status : Status) :
    (b.store now slot status).totalUpdates = b.totalUpdates + 1 := by
  cases slot <;> simp [totalUpdates, Slot.all, tracked, store, Slot.Map.get, Slot.Map.set, Tracked.written] <;> omega

/-- An accepted call counts once for the board and once in all slots together. -/
theorem totalUpdates_set {b : Board} (h : b.revision = b.totalUpdates) :
    (b.set c.now c.slot c.status).2.revision = (b.set c.now c.slot c.status).2.totalUpdates := by
  cases hk : accepts c.slot c.status with
  | true =>
    have htotal : (b.store c.now c.slot c.status).publish.totalUpdates = b.totalUpdates + 1 :=
      totalUpdates_store b c.now c.slot c.status
    rw [set_of_accepts b c.now hk, htotal, ← h]
    rfl
  | false => rw [set_of_not_accepts b c.now hk, h]

end

/-! ## Histories of calls -/

/-- A slot holds what the calls that it accepted leave in it. -/
theorem tracked_after (calls : List Call) (slot : Slot) :
    (after calls).tracked slot = recorded (accepted slot calls) := by
  induction calls with
  | nil => cases slot <;> rfl
  | cons c past ih =>
    rw [after]
    by_cases hkind : c.status.kind = c.slot.kind
    · by_cases hslot : slot = c.slot
      · subst hslot
        rw [tracked_set_self _ c.now ((accepts_iff c.slot c.status).2 hkind), ih, accepted_self hkind]
        rw [Tracked.written, updates_recorded]
        rfl
      · rw [tracked_set_ne _ c.now c.status hslot, ih, accepted_of_ne hslot]
    · rw [set_of_rejected _ hkind, ih, accepted_of_rejected hkind]

theorem revision_after (calls : List Call) : (after calls).revision = (after calls).totalUpdates := by
  induction calls with
  | nil => rfl
  | cons c past ih => exact totalUpdates_set c ih

/-! ## Views -/

theorem find?_view (b : Board) (slot : Slot) :
    (b.view.slots.find? fun e => e.1 = slot) = some (slot, b.tracked slot) := by
  cases slot <;> rfl

theorem view_get (b : Board) (slot : Slot) : b.view.get slot = b.get slot := by
  rw [View.get, find?_view]
  rfl

theorem pendingCount_view (b : Board) : b.view.pendingCount = Slot.all.countP fun s => (b.tracked s).isPending := by
  rw [View.pendingCount, view, List.filter_map, List.length_map, List.countP_eq_length_filter]
  rfl

theorem isPending_after (calls : List Call) (slot : Slot) :
    ((after calls).tracked slot).isPending = (accepted slot calls).isEmpty := by
  rw [tracked_after]
  cases accepted slot calls <;> rfl

/-! ## The law -/

/-- **A board is what its history says.** A call is accepted exactly if its status has the kind of its slot, and a rejected
call changes nothing. After every history a slot holds the status of the last call that it accepted, and the number of these
calls; it has a time exactly if it has a status, and the status has its kind. The revision is the sum of the six numbers.
A view lists every slot once, in their order, with just these values, and counts as pending the slots that never accepted
a call. -/
theorem refines_history (calls : List Call) :
    (∀ c : Call, (((after calls).set c.now c.slot c.status).1 = true ↔ c.status.kind = c.slot.kind) ∧
      (((after calls).set c.now c.slot c.status).1 = false →
        ((after calls).set c.now c.slot c.status).2 = after calls)) ∧
    (∀ slot, (after calls).get slot = (accepted slot calls).head?.map Call.status ∧
      ((after calls).tracked slot).updates = (accepted slot calls).length ∧
      ((after calls).tracked slot).updatedAt.isSome = ((after calls).tracked slot).current.isSome ∧
      ∀ s, (after calls).get slot = some s → s.kind = slot.kind) ∧
    (after calls).revision = (Slot.all.map fun s => ((after calls).tracked s).updates).foldr (· + ·) 0 ∧
    ((after calls).view.revision = (after calls).revision ∧
      (after calls).view.slots.map Prod.fst = Slot.all ∧ Slot.all.Nodup ∧ (∀ slot, slot ∈ Slot.all) ∧
      (∀ e ∈ (after calls).view.slots, e.2 = (after calls).tracked e.1) ∧
      ∀ slot, (after calls).view.get slot = (after calls).get slot) ∧
    (after calls).view.pendingCount = Slot.all.countP fun slot => (accepted slot calls).isEmpty := by
  refine ⟨?_, ?_, revision_after calls, ⟨rfl, rfl, by decide, Slot.mem_all, ?_, view_get _⟩, ?_⟩
  · intro c
    refine ⟨set_fst (after calls) c, ?_⟩
    intro hrejected
    apply set_of_rejected
    intro hkind
    rw [(set_fst (after calls) c).2 hkind] at hrejected
    cases hrejected
  · intro slot
    have hget : (after calls).get slot = (accepted slot calls).head?.map Call.status := by
      rw [get, tracked_after, current_recorded]
    refine ⟨hget, ?_, ?_, ?_⟩
    · rw [tracked_after, updates_recorded]
    · rw [tracked_after, updatedAt_recorded, current_recorded, Option.isSome_map, Option.isSome_map]
    · intro s hs
      rw [hget, Option.map_eq_some_iff] at hs
      obtain ⟨c, hc, rfl⟩ := hs
      exact kind_of_mem_accepted (List.mem_of_head? hc)
  · intro e he
    rw [view, List.mem_map] at he
    obtain ⟨slot, -, rfl⟩ := he
    rfl
  · rw [pendingCount_view]
    simp only [isPending_after]

end Dashboard.Board
