import Dashboard.World
import Dashboard.Proofs.Gate.Passage

/-! # What writing changes

Noting something changes the journal only, and writing changes the journal and the board only. A write is accepted if its
gate is open and its status has the kind of the slot, and it is counted exactly then.

* `World.write_eq`: a write is one call of `Board.set`, or nothing but a notice.
* `World.Written`: what a producer with a given writer may do to the board in one action.
* `World.Kept`: what no producer changes: the clock, the gates and the values of the settings.
-/

namespace Dashboard
set_option autoImplicit false

/-! ## The board -/

namespace Board
variable (b : Board) (now : Nat) (slot other : Slot) (status : Status)

theorem set_of_accepts {slot : Slot} {status : Status} (h : accepts slot status = true) :
    b.set now slot status = (true, (b.store now slot status).publish) := by
  simp [set, h]

theorem set_of_not_accepts {slot : Slot} {status : Status} (h : accepts slot status = false) :
    b.set now slot status = (false, b) := by
  simp [set, h]

theorem accepts_iff : accepts slot status = true ↔ status.kind = slot.kind := by
  simp [accepts]

/-- A write that changes the board was accepted. -/
theorem set_eq_of_ne {slot : Slot} {status : Status} (h : (b.set now slot status).2 ≠ b) :
    b.set now slot status = (true, (b.set now slot status).2) := by
  cases hk : accepts slot status with
  | true => rw [set_of_accepts b now hk]
  | false =>
    rw [set_of_not_accepts b now hk] at h
    exact absurd rfl h

theorem tracked_set_ne {slot other : Slot} (h : other ≠ slot) :
    (b.set now slot status).2.tracked other = b.tracked other := by
  cases hk : accepts slot status with
  | true => rw [set_of_accepts b now hk, tracked_publish, tracked_store_ne now status b h]
  | false => rw [set_of_not_accepts b now hk]

theorem tracked_set_self {slot : Slot} {status : Status} (h : accepts slot status = true) :
    (b.set now slot status).2.tracked slot = (b.tracked slot).written now status := by
  rw [set_of_accepts b now h, tracked_publish, tracked_store_self]

end Board

/-! ## The world -/

namespace World
variable (w : World) (n : Notice) (x : Writer) (slot : Slot) (status : Status)

@[simp] theorem now_note : (w.note n).now = w.now := rfl
@[simp] theorem board_note : (w.note n).board = w.board := rfl
@[simp] theorem latches_note : (w.note n).latches = w.latches := rfl
@[simp] theorem store_note : (w.note n).store = w.store := rfl
@[simp] theorem responder_note : (w.note n).responder = w.responder := rfl
@[simp] theorem sources_note : (w.note n).sources = w.sources := rfl

theorem put_eq : ∃ m, w.put slot status =
    ((w.board.set w.now slot status).1, { w with board := (w.board.set w.now slot status).2 }.note m) := by
  unfold put
  obtain ⟨a, b⟩ := w.board.set w.now slot status
  cases a
  · exact ⟨_, rfl⟩
  · exact ⟨_, rfl⟩

theorem write_of_closed {w : World} {x : Writer} (h : w.latches.isClosed x.gate = true) :
    w.write x status = (false, w.note (.discarded x.slot)) := by
  have hp : w.latches.permits x.gate = false := by
    rw [Latches.permits_eq_isOpen, Latches.isOpen_eq_not_isClosed, h]
    rfl
  simp [write, hp]

theorem write_of_open {w : World} {x : Writer} (h : w.latches.isClosed x.gate = false) :
    w.write x status = w.put x.slot status := by
  simp [write, (Latches.permits_iff _ _).2 h]

/-- A write is one call of `Board.set` through an open gate, and nothing but a notice otherwise. -/
theorem write_eq : ∃ m, (w.write x status).2 =
    { w with
      board := if w.latches.isClosed x.gate then w.board
        else (w.board.set w.now x.slot status).2 }.note m := by
  cases h : w.latches.isClosed x.gate with
  | true => exact ⟨.discarded x.slot, by rw [write_of_closed status h]; simp⟩
  | false =>
    obtain ⟨m, hm⟩ := w.put_eq x.slot status
    exact ⟨m, by rw [write_of_open status h, hm]; simp⟩

@[simp] theorem now_write : (w.write x status).2.now = w.now := by
  obtain ⟨m, h⟩ := w.write_eq x status
  rw [h, now_note]

@[simp] theorem latches_write : (w.write x status).2.latches = w.latches := by
  obtain ⟨m, h⟩ := w.write_eq x status
  rw [h, latches_note]

@[simp] theorem store_write : (w.write x status).2.store = w.store := by
  obtain ⟨m, h⟩ := w.write_eq x status
  rw [h, store_note]

@[simp] theorem responder_write : (w.write x status).2.responder = w.responder := by
  obtain ⟨m, h⟩ := w.write_eq x status
  rw [h, responder_note]

theorem board_write : (w.write x status).2.board =
    if w.latches.isClosed x.gate then w.board else (w.board.set w.now x.slot status).2 := by
  obtain ⟨m, h⟩ := w.write_eq x status
  rw [h, board_note]

theorem tracked_write_self {w : World} {x : Writer} {status : Status}
    (hg : w.latches.isClosed x.gate = false) (hk : status.kind = x.slot.kind) :
    (w.write x status).2.board.tracked x.slot = (w.board.tracked x.slot).written w.now status := by
  have ha : Board.accepts x.slot status = true := (Board.accepts_iff _ _).2 hk
  rw [board_write, hg, if_neg Bool.false_ne_true, Board.tracked_set_self w.board w.now ha]

/-- What an action of a producer with this writer may do to the board: nothing, or one call of `Board.set` for the slot
of the writer, while its gate is open. -/
def Written (x : Writer) (w v : World) : Prop :=
  v.board = w.board ∨
    w.latches.isClosed x.gate = false ∧ ∃ t s, v.board = (w.board.set t x.slot s).2

theorem Written.of_eq {x : Writer} {w v : World} (h : v.board = w.board) : Written x w v := .inl h

theorem written_write : Written x w (w.write x status).2 := by
  rw [Written, board_write]
  cases h : w.latches.isClosed x.gate with
  | true => exact .inl rfl
  | false => exact .inr ⟨rfl, w.now, status, rfl⟩

theorem Written.tracked_ne {x : Writer} {w v : World} (h : Written x w v) {slot : Slot}
    (hs : slot ≠ x.slot) : v.board.tracked slot = w.board.tracked slot := by
  rcases h with h | ⟨-, t, s, h⟩
  · rw [h]
  · rw [h, Board.tracked_set_ne w.board t s hs]

/-! ## What no producer changes -/

/-- The clock, the gates and the values of the settings are the same. -/
structure Kept (w v : World) : Prop where
  now : v.now = w.now
  latches : v.latches = w.latches
  channel : v.store.channel = w.store.channel

theorem Kept.refl : Kept w w := ⟨rfl, rfl, rfl⟩

theorem Kept.trans {u v w : World} (h : Kept u v) (h' : Kept v w) : Kept u w :=
  ⟨h'.now.trans h.now, h'.latches.trans h.latches, h'.channel.trans h.channel⟩

theorem kept_note : Kept w (w.note n) := ⟨rfl, rfl, rfl⟩

theorem kept_write : Kept w (w.write x status).2 :=
  ⟨w.now_write x status, w.latches_write x status, congrArg Setting.Store.channel (w.store_write x status)⟩

theorem kept_releaseStore : Kept w w.releaseStore := by
  refine ⟨rfl, rfl, ?_⟩
  funext k
  cases k <;> rfl

theorem kept_beginSample (i : Nat) : Kept w (w.beginSample i).2 := by
  unfold beginSample
  split
  · exact .refl w
  · split <;> exact ⟨rfl, rfl, rfl⟩

theorem kept_finishSample (i : Nat) : Kept w (w.finishSample i).2 := by
  unfold finishSample
  split
  · exact .refl w
  · split <;> exact ⟨rfl, rfl, rfl⟩

theorem board_beginSample (i : Nat) : (w.beginSample i).2.board = w.board := by
  unfold beginSample
  split
  · rfl
  · split <;> rfl

theorem board_finishSample (i : Nat) : (w.finishSample i).2.board = w.board := by
  unfold finishSample
  split
  · rfl
  · split <;> rfl

theorem Written.of_kept {x : Writer} {u v w : World} (hk : Kept u v) (hb : v.board = u.board)
    (h : Written x v w) : Written x u w := by
  rw [Written, hk.latches, hb] at h
  exact h

end World
end Dashboard
