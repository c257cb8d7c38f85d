import Dashboard.Proofs.Board.History
import Mathlib.Data.List.Perm.Basic

/-! # A board with several writers

A call on a board has two halves: the status is stored, and then the revision goes up. Calls that overlap may take their
halves in any order, and a view may be taken at any moment. Such a view can be ahead of its revision, by one for each call
that is between its halves, and it is never behind.

* `Board.Caller`, `Caller.next`, `Caller.effect`: a call that is under way, and what its next half does.
* `Board.Shared`, `Shared.Event`, `Shared.after`, `Shared.run`: a board with its calls. The latest event comes first.
* `Shared.advance_advance`: the halves one right after the other are a whole call.
* `Shared.Balanced`: the invariant between the board and where its calls stand.
* `Board.Within`: what a later view has, counted slot by slot.
* `Shared.views_under_writers`: what every view shows.
-/

namespace Dashboard.Board
set_option autoImplicit false

/-- Where a call stands: before its first half, between its halves, or at its end, with an answer. -/
inductive Stage where
  | called
  | stored
  | returned (accepted : Bool)
  deriving DecidableEq, Repr

/-- A status for a slot, and how far the call has got. -/
structure Caller where
  slot : Slot
  status : Status
  stage : Stage
  deriving DecidableEq, Repr

namespace Caller
variable (k : Caller) (now : Nat) (b : Board)

/-- The call after its next half. One that is refused has none. -/
def next (k : Caller) : Caller :=
  match k.stage with
  | .called => { k with stage := if accepts k.slot k.status then .stored else .returned false }
  | .stored => { k with stage := .returned true }
  | .returned _ => k

/-- What the next half of the call does to the board. -/
def effect (k : Caller) (now : Nat) (b : Board) : Board :=
  match k.stage with
  | .called => if accepts k.slot k.status then b.store now k.slot k.status else b
  | .stored => b.publish
  | .returned _ => b

def isBetween : Bool := k.stage = .stored

def isPublished : Bool := k.stage = .returned true

def isWritten : Bool := k.isBetween || k.isPublished

def isFinished : Bool := k.isPublished || k.stage = .returned false

theorem totalUpdates_effect : (k.effect now b).totalUpdates + (if k.isWritten then 1 else 0) =
    b.totalUpdates + if k.next.isWritten then 1 else 0 := by
  obtain ⟨slot, status, stage⟩ := k
  cases stage with
  | called =>
    cases ha : accepts slot status with
    | true => simp [effect, next, ha, totalUpdates_store, isWritten, isBetween, isPublished]
    | false => simp [effect, next, ha, isWritten, isBetween, isPublished]
  | stored => rfl
  | returned accepted => rfl

theorem revision_effect : (k.effect now b).revision + (if k.isPublished then 1 else 0) =
    b.revision + if k.next.isPublished then 1 else 0 := by
  obtain ⟨slot, status, stage⟩ := k
  cases stage with
  | called =>
    cases ha : accepts slot status with
    | true => simp [effect, next, ha, store, isPublished]
    | false => simp [effect, next, ha, isPublished]
  | stored => rfl
  | returned accepted => rfl

theorem countP_isWritten (ks : List Caller) :
    ks.countP isWritten = ks.countP isPublished + ks.countP isBetween := by
  induction ks with
  | nil => rfl
  | cons k ks ih =>
    obtain ⟨slot, status, stage⟩ := k
    simp only [List.countP_cons, ih, isWritten, isPublished, isBetween]
    cases stage <;> simp <;> omega

end Caller

/-! ## Boards and their calls -/

/-- A board with all calls that were made on it. -/
structure Shared where
  board : Board := .empty
  callers : List Caller := []

namespace Shared

/-- Someone calls, or the call of a number takes its next half. -/
inductive Event where
  | call (slot : Slot) (status : Status)
  | advance (i now : Nat)

def after (c : Shared) : Event → Shared
  | .call slot status => { c with callers := c.callers ++ [⟨slot, status, .called⟩] }
  | .advance i now =>
    match c.callers[i]? with
    | none => c
    | some k => ⟨k.effect now c.board, c.callers.set i k.next⟩

/-- The board after events, of which the latest comes first. -/
def run (c : Shared) : List Event → Shared
  | [] => c
  | e :: past => (c.run past).after e

variable {c : Shared} {i : Nat} {k : Caller}

theorem after_advance (h : c.callers[i]? = some k) (now : Nat) :
    c.after (.advance i now) = ⟨k.effect now c.board, c.callers.set i k.next⟩ := by
  simp [after, h]

theorem after_advance_of_none (h : c.callers[i]? = none) (now : Nat) : c.after (.advance i now) = c := by
  simp [after, h]

/-- The halves one right after the other are a whole call, with its answer. -/
theorem advance_advance (h : c.callers[i]? = some k) (hs : k.stage = .called) (now : Nat) :
    ((c.after (.advance i now)).after (.advance i now)).board = (c.board.set now k.slot k.status).2 ∧
      ((c.after (.advance i now)).after (.advance i now)).callers[i]? =
        some { k with stage := .returned (c.board.set now k.slot k.status).1 } := by
  have hi := (List.getElem?_eq_some_iff.1 h).1
  have hnext : (c.after (.advance i now)).callers[i]? = some k.next := by
    rw [after_advance h, List.getElem?_set_self hi]
  rw [after_advance hnext, after_advance h, List.set_set, List.getElem?_set_self hi]
  cases ha : accepts k.slot k.status with
  | true => simp [Caller.next, Caller.effect, hs, ha, set]
  | false => simp [Caller.next, Caller.effect, hs, ha, set]

/-! ## The invariant -/

/-- Every call that stored its status counts once in all slots together, and every call that published it counts once in
the revision. -/
structure Balanced (c : Shared) : Prop where
  total : c.board.totalUpdates = c.callers.countP Caller.isWritten
  revision : c.board.revision = c.callers.countP Caller.isPublished

namespace Balanced

/-- One call moves on, and all others stay where they stand. -/
theorem advance (h : c.Balanced) (hk : c.callers[i]? = some k) (now : Nat) :
    (c.after (.advance i now)).Balanced := by
  obtain ⟨hi, rfl⟩ := List.getElem?_eq_some_iff.1 hk
  have hbefore := (List.getElem_cons_eraseIdx_perm hi).symm
  have hafter := List.set_perm_cons_eraseIdx hi (c.callers[i]).next
  have htotal := h.total
  have hrevision := h.revision
  have heffect := (c.callers[i]).totalUpdates_effect now c.board
  have heffect' := (c.callers[i]).revision_effect now c.board
  rw [hbefore.countP_eq, List.countP_cons] at htotal hrevision
  rw [after_advance hk]
  constructor
  · rw [hafter.countP_eq, List.countP_cons]
    dsimp only
    omega
  · rw [hafter.countP_eq, List.countP_cons]
    dsimp only
    omega

theorem after (h : c.Balanced) (e : Event) : (c.after e).Balanced := by
  cases e with
  | call slot status =>
    have hnew (p : Caller → Bool) (hp : p ⟨slot, status, .called⟩ = false) :
        (c.callers ++ [Caller.mk slot status .called]).countP p = c.callers.countP p := by
      simp [hp]
    exact ⟨h.total.trans (hnew _ rfl).symm, h.revision.trans (hnew _ rfl).symm⟩
  | advance i now =>
    cases hk : c.callers[i]? with
    | none => rwa [after_advance_of_none hk]
    | some k => exact h.advance hk now

theorem run (h : c.Balanced) (es : List Event) : (c.run es).Balanced := by
  induction es with
  | nil => exact h
  | cons e es ih => exact ih.after e

theorem total_eq (h : c.Balanced) : c.board.totalUpdates = c.board.revision + c.callers.countP Caller.isBetween := by
  rw [h.total, h.revision, Caller.countP_isWritten]

end Balanced

theorem balanced_empty : (Shared.mk .empty []).Balanced := ⟨rfl, rfl⟩

end Shared

/-! ## Views one after the other -/

/-- The updates that a view lists, all slots together. -/
def View.total (v : View) : Nat := (v.slots.map fun e => e.2.updates).foldr (· + ·) 0

theorem total_view (b : Board) : b.view.total = b.totalUpdates := rfl

/-- Neither the revision nor the count of a slot is higher on the first board. -/
structure Within (b d : Board) : Prop where
  revision : b.revision ≤ d.revision
  updates : ∀ slot, (b.tracked slot).updates ≤ (d.tracked slot).updates

namespace Within
variable {b d e : Board}

theorem refl (b : Board) : b.Within b := ⟨Nat.le_refl _, fun _ => Nat.le_refl _⟩

theorem trans (h : b.Within d) (h' : d.Within e) : b.Within e :=
  ⟨Nat.le_trans h.revision h'.revision, fun slot => Nat.le_trans (h.updates slot) (h'.updates slot)⟩

theorem store (b : Board) (now : Nat) (slot : Slot) (status : Status) : b.Within (b.store now slot status) where
  revision := Nat.le_refl _
  updates other := by
    by_cases h : other = slot
    · subst h
      rw [tracked_store_self]
      exact Nat.le_succ _
    · exact Nat.le_of_eq (by rw [tracked_store_ne now status b h])

theorem publish (b : Board) : b.Within b.publish := ⟨Nat.le_succ _, fun _ => Nat.le_refl _⟩

theorem effect (k : Caller) (now : Nat) (b : Board) : b.Within (k.effect now b) := by
  unfold Caller.effect
  split
  · split
    · exact .store b now k.slot k.status
    · exact .refl b
  · exact .publish b
  · exact .refl b

theorem view (h : b.Within d) :
    List.Forall₂ (fun x y => x.1 = y.1 ∧ x.2.updates ≤ y.2.updates) b.view.slots d.view.slots := by
  simp only [Board.view, List.forall₂_map_left_iff, List.forall₂_map_right_iff, List.forall₂_same]
  exact fun slot _ => ⟨trivial, h.updates slot⟩

end Within

namespace Shared

theorem within_after (c : Shared) (e : Event) : c.board.Within (c.after e).board := by
  cases e with
  | call slot status => exact .refl _
  | advance i now =>
    cases hk : c.callers[i]? with
    | none =>
      rw [after_advance_of_none hk]
      exact .refl _
    | some k =>
      rw [after_advance hk]
      exact .effect k now c.board

theorem within_run (c : Shared) (es : List Event) : c.board.Within (c.run es).board := by
  induction es with
  | nil => exact .refl _
  | cons e es ih => exact ih.trans (within_after _ e)

/-- **Views under several writers.** Calls on a new board take their halves in any order. A view lists as many updates as
calls stored a status before it, and these are ahead of its revision by the calls that are between their halves. A later view
lists as many updates of every slot at least, and at least as many in all as the revision that someone saw before. When all
calls are at their end, the revision is the sum. -/
theorem views_under_writers (past : List Event) :
    let c := (Shared.mk .empty []).run past
    c.board.view.total = c.callers.countP Caller.isWritten ∧
    (c.board.view.revision ≤ c.board.view.total ∧
      c.board.view.total = c.board.view.revision + c.callers.countP Caller.isBetween) ∧
    (∀ es, c.board.view.revision ≤ (c.run es).board.view.revision ∧
      List.Forall₂ (fun x y => x.1 = y.1 ∧ x.2.updates ≤ y.2.updates) c.board.view.slots (c.run es).board.view.slots ∧
      c.board.revision ≤ (c.run es).board.view.total) ∧
    ((∀ k ∈ c.callers, k.isFinished = true) → c.board.revision = c.board.view.total) := by
  intro c
  have hc : c.Balanced := balanced_empty.run past
  have htotal : c.board.view.total = c.board.revision + c.callers.countP Caller.isBetween := by
    rw [total_view, hc.total_eq]
  refine ⟨by rw [total_view, hc.total], ⟨?_, htotal⟩, ?_, ?_⟩
  · rw [htotal]
    exact Nat.le_add_right _ _
  · intro es
    have hwithin := c.within_run es
    refine ⟨hwithin.revision, hwithin.view, ?_⟩
    calc c.board.revision ≤ (c.run es).board.revision := hwithin.revision
      _ ≤ (c.run es).board.revision + (c.run es).callers.countP Caller.isBetween := Nat.le_add_right _ _
      _ = (c.run es).board.view.total := (hc.run es).total_eq.symm
  · intro hall
    have hnone : c.callers.countP Caller.isBetween = 0 := by
      rw [List.countP_eq_zero]
      intro k hk hbetween
      have hfinished := hall k hk
      obtain ⟨slot, status, stage⟩ := k
      cases stage with
      | called => cases hbetween
      | stored => cases hfinished
      | returned accepted => cases hbetween
    rw [htotal, hnone, Nat.add_zero]

/-- Two calls that stored their statuses, of which the later one was published first, and a third one that is refused. -/
example :
    let c := (Shared.mk .empty []).run [.advance 1 6, .advance 2 5, .advance 1 4, .advance 0 3,
      .call .server (.table []), .call .server .up, .call .gridpathDatabase .notSet]
    c.board.view.revision = 1 ∧ c.board.view.total = 2 ∧ c.callers.map Caller.stage = [.stored, .returned true, .returned false] := by
  decide

end Shared
end Dashboard.Board
