import Dashboard.Proofs.Slot.Lane
import Dashboard.Proofs.Session.History

/-! # What an action tells a slot

An action of a producer tells a slot something if the producer writes to it, or is the inquiry that finds its setting
absent. In any other action it leaves the slot alone.

* `Producer.signal?`: what the next action of a producer tells a slot.
* `Producer.signal?_inquiry`, `Producer.signal?_sampler`, `Producer.signal?_relay`: what each sort of producer can tell.
* `Sampler.tracked_step`, `Relay.tracked_step`: what an action writes to the slot of its writer.
-/

namespace Dashboard
set_option autoImplicit false

theorem Setting.Snapshot.slot_mem_absent (x : Snapshot) (key : Setting) :
    key.slot ∈ x.absent.map Setting.slot ↔ (x.get key).isNone = true := by
  rw [List.mem_map]
  constructor
  · rintro ⟨k, hk, hslot⟩
    obtain rfl := Setting.slot_injective hslot
    exact (List.mem_filter.1 hk).2
  · intro h
    exact ⟨key, List.mem_filter.2 ⟨by cases key <;> decide, h⟩, rfl⟩

namespace Producer

/-- What the next action of a producer tells a slot. Behind a closed gate it tells nothing. -/
def signal? (slot : Slot) (w : World) (p : Producer) : Option Slot.Signal :=
  if w.latches.isClosed p.role.gate then none
  else
    match p with
    | .sampler p =>
      match p.phase with
      | .sampling _ _ => if p.writer.slot = slot then some (.sample (w.finishSample p.source).1.toOption) else none
      | _ => none
    | .relay p => if p.writer.slot = slot then some (.turn w.store.isOpen) else none
    | .inquiry p =>
      match (Producer.inquiry p).learns? w with
      | some (.ok x) => if slot ∈ x.absent.map Setting.slot then some .absent else none
      | _ => none

variable {slot : Slot} {w : World}

theorem signal?_of_closed {p : Producer} (h : w.latches.isClosed p.role.gate = true) :
    p.signal? slot w = none := if_pos h

/-- A producer whose writer is for another slot tells this one nothing. -/
theorem signal?_of_ne {p : Producer} {x : Writer} (hx : p.role.writer? = some x) (hne : x.slot ≠ slot) :
    p.signal? slot w = none := by
  unfold signal?
  split
  · rfl
  · cases p with
    | sampler p =>
      obtain rfl : p.writer = x := Option.some.inj hx
      simp only [if_neg hne]
      split <;> rfl
    | relay p =>
      obtain rfl : p.writer = x := Option.some.inj hx
      exact if_neg hne
    | inquiry p => exact absurd hx (Option.some_ne_none x).symm

/-- An inquiry tells a slot that its setting is absent, when a snapshot says so. -/
theorem signal?_inquiry (p : Inquiry) : (inquiry p).signal? slot w =
    match (inquiry p).learns? w with
    | some (.ok x) => if slot ∈ x.absent.map Setting.slot then some .absent else none
    | _ => none := by
  cases hg : w.latches.isClosed (inquiry p).role.gate with
  | true => rw [signal?_of_closed hg, learns?_of_closed hg]
  | false => simp [signal?, hg]

theorem signal?_sampler {p : Sampler} {x : Slot.Signal} (h : (sampler p).signal? slot w = some x) :
    x = .sample (w.finishSample p.source).1.toOption := by
  simp only [signal?] at h
  split at h
  · exact absurd h (Option.some_ne_none x).symm
  · split at h
    · split at h
      · exact (Option.some.inj h).symm
      · exact absurd h (Option.some_ne_none x).symm
    · exact absurd h (Option.some_ne_none x).symm

theorem signal?_relay {p : Relay} {x : Slot.Signal} (h : (relay p).signal? slot w = some x) :
    x = .turn w.store.isOpen := by
  simp only [signal?] at h
  split at h
  · exact absurd h (Option.some_ne_none x).symm
  · split at h
    · exact (Option.some.inj h).symm
    · exact absurd h (Option.some_ne_none x).symm

/-- No action of a producer is a call of the session, or sets a setting. -/
theorem learn_signal? {p : Producer} {x : Slot.Signal} (h : p.signal? slot w = some x) (l : Slot.Lane) :
    (l.learn x).value = l.value ∧ (l.learn x).isActive = l.isActive := by
  cases p with
  | sampler p =>
    obtain rfl := signal?_sampler h
    exact ⟨rfl, rfl⟩
  | relay p =>
    obtain rfl := signal?_relay h
    exact ⟨rfl, rfl⟩
  | inquiry p =>
    rw [signal?_inquiry] at h
    split at h
    · split at h
      · obtain rfl : Slot.Signal.absent = x := Option.some.inj h
        exact ⟨rfl, rfl⟩
      · exact absurd h (Option.some_ne_none x).symm
    · exact absurd h (Option.some_ne_none x).symm

end Producer

/-- What the next action of a sampler writes: what a sample shows that ends then. -/
def Sampler.shown? (p : Sampler) (w : World) : Option Status :=
  match p.phase with
  | .sampling _ _ => p.fallback.shown? (w.finishSample p.source).1.toOption
  | _ => none

theorem Sampler.tracked_step {w : World} {p : Sampler} (h : w.latches.isClosed p.writer.gate = false) :
    (p.step w).1.board.tracked p.writer.slot =
      (w.board.tracked p.writer.slot).shown p.writer.slot w.now (p.shown? w) := by
  cases hp : p.phase with
  | fresh => simp [step, shown?, hp, Tracked.shown]
  | resting due =>
    simp only [step, shown?, hp, h, Tracked.shown]
    exact congrArg (fun b => Board.tracked b p.writer.slot) (w.board_beginSample p.source)
  | sampling ends due =>
    have hk := w.kept_finishSample p.source
    have hg : (w.finishSample p.source).2.latches.isClosed p.writer.gate = false := by rwa [hk.latches]
    have hrecord := tracked_record hg (w.finishSample p.source).1
    rw [w.board_finishSample, hk.now] at hrecord
    simp only [step, shown?, hp]
    exact hrecord

theorem Relay.tracked_step {w : World} {p : Relay} (h : w.latches.isClosed p.writer.gate = false) :
    (p.step w).1.board.tracked p.writer.slot = (w.board.tracked p.writer.slot).shown p.writer.slot w.now
      ((p.due w).status? p.hasValue) := by
  rw [step_of_open (.inr h)]
  exact tracked_handle h _

end Dashboard
