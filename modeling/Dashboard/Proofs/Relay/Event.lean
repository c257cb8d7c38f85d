import Dashboard.Proofs.World.Writing
import Dashboard.Producer.Relay

/-! # What a relay handles

An action of a relay behind an open gate handles one event: a value of the setting, an absent report, the loss of the
store, or nothing at all.

* `Relay.Event`, `Relay.handle`: the events, and what each of them does.
* `Relay.due`: the event that is handled next; a value goes before the loss of the store, and that before a report.
* `Relay.step_of_open`, `Relay.step_of_closed`, `Relay.step_cases`: an action handles the event that is due, or is the
  last one.
-/

namespace Dashboard.Relay
set_option autoImplicit false

/-- What one action handles. The mailbox is quiet when it holds no report, be it that one may still come or that nobody
is left to send one. -/
inductive Event where
  | push (value : Option String)
  | absent
  | closing
  | quiet
  deriving DecidableEq, Repr

def handle (e : Event) (w : World) (p : Relay) : World × Relay :=
  match e with
  | .push value => push value w { p with seen := (w.store.channel p.key).version, started := true }
  | .absent => (p.absent w, { p with reports := p.reports - 1 })
  | .closing => (w.note (.channelClosed p.key), { p with watching := false })
  | .quiet => (w, p)

def due (w : World) (p : Relay) : Event :=
  if !p.started || p.hasNews w then .push (w.store.channel p.key).value
  else if p.hasLost w then .closing
  else if 0 < p.reports then .absent
  else .quiet

variable (e : Event) (value : Option String) (w : World) (p : Relay)

/-- Only a closed gate ends a relay, and not before the relay has started. -/
theorem step_of_closed {w : World} {p : Relay} (hs : p.started = true)
    (hg : w.latches.isClosed p.writer.gate = true) :
    p.step w = (w.note (.relayStopped p.key), none) := by
  simp [step, hs, hg]

theorem step_of_open {w : World} {p : Relay}
    (h : p.started = false ∨ w.latches.isClosed p.writer.gate = false) :
    p.step w = ((p.handle (p.due w) w).1, some (p.handle (p.due w) w).2) := by
  cases hs : p.started with
  | false => simp [step, due, handle, catchUp, hs]
  | true =>
    have hg : w.latches.isClosed p.writer.gate = false := by simpa [hs] using h
    cases hn : p.hasNews w with
    | true => simp [step, due, handle, catchUp, hs, hg, hn]
    | false =>
      cases hl : p.hasLost w with
      | true => simp [step, due, handle, hs, hg, hn, hl]
      | false =>
        by_cases hr : 0 < p.reports
        · simp [step, due, handle, hs, hg, hn, hl, hr]
        · simp [step, due, handle, hs, hg, hn, hl, hr]

theorem step_cases :
    p.started = true ∧ w.latches.isClosed p.writer.gate = true ∧
        p.step w = (w.note (.relayStopped p.key), none) ∨
      p.step w = ((p.handle (p.due w) w).1, some (p.handle (p.due w) w).2) := by
  cases hs : p.started with
  | false => exact .inr (step_of_open (.inl hs))
  | true =>
    cases hg : w.latches.isClosed p.writer.gate with
    | false => exact .inr (step_of_open (.inr hg))
    | true => exact .inl ⟨rfl, rfl, step_of_closed hs hg⟩

theorem step_snd_eq_none_iff :
    (p.step w).2 = none ↔ p.started = true ∧ w.latches.isClosed p.writer.gate = true := by
  constructor
  · intro h
    rcases p.step_cases w with ⟨hs, hg, -⟩ | hstep
    · exact ⟨hs, hg⟩
    · rw [hstep] at h
      exact absurd h (Option.some_ne_none _)
  · rintro ⟨hs, hg⟩
    rw [step_of_closed hs hg]

/-! ## The effects of the events -/

theorem push_snd : (p.push value w).2 = { p with hasValue := value.isSome } := by
  cases value with
  | some v => rfl
  | none =>
    obtain ⟨key, writer, seen, started, watching, hasValue, reports⟩ := p
    cases hasValue <;> rfl

/-- Whether the relay holds a value after an event. -/
def Event.holds (hasValue : Bool) : Event → Bool
  | .push value => value.isSome
  | _ => hasValue

/-- The status that an event asks for, by what the relay held before. -/
def Event.status? (hasValue : Bool) : Event → Option Status
  | .push (some v) => some (.label v)
  | .push none => if hasValue then some .notSet else none
  | .absent => if hasValue then none else some .notSet
  | .closing | .quiet => none

theorem kind_of_status? {hasValue : Bool} {e : Event} {s : Status} (h : e.status? hasValue = some s) :
    s.kind = .label := by
  revert h
  cases e with
  | push value =>
    cases value with
    | some v =>
      rintro ⟨⟩
      rfl
    | none => cases hasValue <;> rintro ⟨⟩; rfl
  | absent => cases hasValue <;> rintro ⟨⟩; rfl
  | closing => rintro ⟨⟩
  | quiet => rintro ⟨⟩

/-- An event makes notices, and then writes the status that it asks for, if any. -/
theorem handle_fst : ∃ v, World.Kept w v ∧ v.board = w.board ∧
    (p.handle e w).1 = match e.status? p.hasValue with
      | none => v
      | some s => (v.write p.writer s).2 := by
  cases e with
  | push value =>
    cases value with
    | some v => exact ⟨w.note (.pushed p.key v), w.kept_note _, rfl, rfl⟩
    | none =>
      cases h : p.hasValue with
      | true =>
        refine ⟨w.note (.cleared p.key), w.kept_note _, rfl, ?_⟩
        simp [handle, push, h, Event.status?]
      | false =>
        refine ⟨w.note (.noValueYet p.key), w.kept_note _, rfl, ?_⟩
        simp [handle, push, h, Event.status?]
  | absent =>
    cases h : p.hasValue with
    | true =>
      refine ⟨w.note (.absentIgnored p.key), w.kept_note _, rfl, ?_⟩
      simp [handle, absent, h, Event.status?]
    | false =>
      refine ⟨w.note (.absentReported p.key), w.kept_note _, rfl, ?_⟩
      simp [handle, absent, h, Event.status?]
  | closing => exact ⟨w.note (.channelClosed p.key), w.kept_note _, rfl, rfl⟩
  | quiet => exact ⟨w, .refl w, rfl, rfl⟩

theorem kept_handle : World.Kept w (p.handle e w).1 := by
  obtain ⟨v, hk, -, h⟩ := handle_fst e w p
  rw [h]
  split
  · exact hk
  · exact hk.trans (v.kept_write p.writer _)

theorem written_handle : World.Written p.writer w (p.handle e w).1 := by
  obtain ⟨v, hk, hb, h⟩ := handle_fst e w p
  rw [h]
  split
  · exact .of_eq hb
  · exact .of_kept hk hb (v.written_write p.writer _)

theorem handle_snd_same : (p.handle e w).2.key = p.key ∧ (p.handle e w).2.writer = p.writer := by
  cases e with
  | push value => simp [handle, push_snd]
  | absent => exact ⟨rfl, rfl⟩
  | closing => exact ⟨rfl, rfl⟩
  | quiet => exact ⟨rfl, rfl⟩

theorem handle_push_snd : (p.handle (.push value) w).2 =
    { p with seen := (w.store.channel p.key).version, started := true, hasValue := value.isSome } := by
  simp [handle, push_snd]

theorem value_of_due {w : World} {p : Relay} {value : Option String} (h : p.due w = .push value) :
    value = (w.store.channel p.key).value := by
  unfold due at h
  split at h
  · exact (Event.push.inj h).symm
  · split at h
    · cases h
    · split at h <;> cases h

theorem reports_of_due {w : World} {p : Relay} (h : p.due w = .absent) : 0 < p.reports := by
  unfold due at h
  split at h
  · cases h
  · split at h
    · cases h
    · split at h
      · assumption
      · cases h

theorem hasValue_handle : (p.handle e w).2.hasValue = e.holds p.hasValue := by
  cases e with
  | push value => simp [handle, push_snd, Event.holds]
  | absent => rfl
  | closing => rfl
  | quiet => rfl

/-! ## Actions -/

theorem kept_step : World.Kept w (p.step w).1 := by
  rcases p.step_cases w with ⟨-, -, hstep⟩ | hstep
  · rw [hstep]
    exact w.kept_note _
  · rw [hstep]
    exact kept_handle _ w p

theorem written_step : World.Written p.writer w (p.step w).1 := by
  rcases p.step_cases w with ⟨-, -, hstep⟩ | hstep
  · rw [hstep]
    exact .of_eq rfl
  · rw [hstep]
    exact written_handle _ w p

theorem step_snd {w : World} {p q : Relay} (h : (p.step w).2 = some q) :
    q.key = p.key ∧ q.writer = p.writer := by
  rcases p.step_cases w with ⟨-, -, hstep⟩ | hstep
  · rw [hstep] at h
    exact absurd h (Option.some_ne_none q).symm
  · rw [hstep] at h
    rw [← Option.some.inj h]
    exact handle_snd_same _ w p

end Dashboard.Relay
