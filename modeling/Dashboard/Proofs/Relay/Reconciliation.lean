import Dashboard.Proofs.Relay.Event

/-! # The law of reconciliation

What a relay shows is decided by the events that it handled: by the last value, and by whether it ever had a reason to say
that the setting is not set. One hidden flag, `Relay.hasValue`, carries all that the relay has to know of the past.

Histories of events have the latest event first.

* `Relay.lastPush`, `Relay.holdsValue`, `Relay.shown`: what a history says about the value and about the slot.
* `Relay.values`, `Relay.clearings`, `Relay.openReports`: the events of a history that are written.
* `Relay.Reconciled`: the invariant between the flag, the history and the slot, with `Reconciled.handle` for one event.
* `Relay.Course`: the events that a relay handles, in a world that may change around it.
-/

namespace Dashboard.Relay
set_option autoImplicit false

/-! ## What a history says -/

/-- The last value that was pushed, if there was one. -/
def lastPush : List Event → Option (Option String)
  | [] => none
  | .push value :: _ => some value
  | _ :: past => lastPush past

def holdsValue (es : List Event) : Bool := (lastPush es).join.isSome

/-- The history has a reason to say that the setting is not set: a value that was there once, or an absent report. -/
def hasReason (es : List Event) : Bool :=
  es.any fun
    | .push value => value.isSome
    | .absent => true
    | _ => false

/-- What the slot shows after a history, if it showed `content` before. -/
def shown (es : List Event) (content : Option Status) : Option Status :=
  match lastPush es with
  | some (some v) => some (.label v)
  | _ => if hasReason es then some .notSet else content

def values : List Event → Nat
  | [] => 0
  | .push (some _) :: past => values past + 1
  | _ :: past => values past

/-- The pushes without a value right after a push that had one. -/
def clearings : List Event → Nat
  | [] => 0
  | .push none :: past => clearings past + if holdsValue past then 1 else 0
  | _ :: past => clearings past

/-- The absent reports that did not follow a push with a value. -/
def openReports : List Event → Nat
  | [] => 0
  | .absent :: past => openReports past + if holdsValue past then 0 else 1
  | _ :: past => openReports past

/-- The writes of a history. -/
def writes (es : List Event) : Nat := values es + clearings es + openReports es

theorem holdsValue_cons (e : Event) (es : List Event) : holdsValue (e :: es) = e.holds (holdsValue es) := by
  cases e <;> rfl

theorem holdsValue_iff (es : List Event) : holdsValue es = true ↔ ∃ v, lastPush es = some (some v) := by
  cases h : lastPush es with
  | none => simp [holdsValue, h]
  | some value => cases value <;> simp [holdsValue, h]

theorem hasReason_cons (e : Event) (es : List Event) : hasReason (e :: es) = (hasReason [e] || hasReason es) := by
  simp [hasReason]

theorem hasReason_of_holdsValue {es : List Event} (h : holdsValue es = true) : hasReason es = true := by
  induction es with
  | nil => exact absurd h (by decide)
  | cons e es ih =>
    cases e with
    | push value =>
      rw [holdsValue_cons] at h
      have hv : value.isSome = true := h
      simp [hasReason, hv]
    | absent => simp [hasReason]
    | closing => exact ih h
    | quiet => exact ih h

theorem shown_of_not_holdsValue {es : List Event} (h : holdsValue es = false) (content : Option Status) :
    shown es content = if hasReason es then some .notSet else content := by
  unfold shown
  split
  · rename_i v hv
    rw [(holdsValue_iff es).2 ⟨v, hv⟩] at h
    exact absurd h (by decide)
  · rfl

/-- One event changes what is shown as it asks for a status. -/
theorem shown_cons (e : Event) (es : List Event) (content : Option Status) :
    shown (e :: es) content = ((e.status? (holdsValue es)).orElse fun _ => shown es content) := by
  cases e with
  | push value =>
    cases value with
    | some v => rfl
    | none =>
      rw [shown_of_not_holdsValue rfl]
      have hr : hasReason (.push none :: es) = hasReason es := by simp [hasReason]
      cases h : holdsValue es with
      | true => simp [hr, hasReason_of_holdsValue h, Event.status?]
      | false => simp [hr, shown_of_not_holdsValue h, Event.status?]
  | absent =>
    cases h : holdsValue es with
    | true =>
      obtain ⟨v, hv⟩ := (holdsValue_iff es).1 h
      simp [shown, lastPush, hv, Event.status?]
    | false =>
      rw [shown_of_not_holdsValue (by rw [holdsValue_cons]; exact h)]
      simp [hasReason, Event.status?]
  | closing => simp [shown, lastPush, hasReason, Event.status?]
  | quiet => simp [shown, lastPush, hasReason, Event.status?]

theorem writes_cons (e : Event) (es : List Event) :
    writes (e :: es) = writes es + if (e.status? (holdsValue es)).isSome then 1 else 0 := by
  cases e with
  | push value =>
    cases value with
    | some v =>
      simp only [writes, values, clearings, openReports, Event.status?, Option.isSome_some, if_true]
      omega
    | none =>
      cases h : holdsValue es with
      | true =>
        simp only [writes, values, clearings, openReports, Event.status?, h, if_true, Option.isSome_some]
        omega
      | false => simp [writes, values, clearings, openReports, Event.status?, h]
  | absent =>
    cases h : holdsValue es with
    | true => simp [writes, values, clearings, openReports, Event.status?, h]
    | false => simp [writes, values, clearings, openReports, Event.status?, h, Nat.add_assoc]
  | closing => simp [writes, values, clearings, openReports, Event.status?]
  | quiet => simp [writes, values, clearings, openReports, Event.status?]

/-! ## The invariant -/

/-- The relay and its slot are what the history makes of a slot that was `start`. -/
structure Reconciled (start : Tracked) (es : List Event) (w : World) (p : Relay) : Prop where
  hasValue : p.hasValue = holdsValue es
  current : (w.board.tracked p.writer.slot).current = shown es start.current
  updates : (w.board.tracked p.writer.slot).updates = start.updates + writes es

theorem Reconciled.start {w : World} {p : Relay} (h : p.hasValue = false) :
    Reconciled (w.board.tracked p.writer.slot) [] w p :=
  ⟨h, rfl, rfl⟩

theorem Reconciled.congr {start : Tracked} {es : List Event} {w v : World} {p q : Relay}
    (h : Reconciled start es w p) (hw : q.writer = p.writer) (hv : q.hasValue = p.hasValue)
    (hs : v.board.tracked p.writer.slot = w.board.tracked p.writer.slot) : Reconciled start es v q :=
  ⟨hv.trans h.hasValue, by rw [hw, hs, h.current], by rw [hw, hs, h.updates]⟩

/-- Every event keeps the invariant while the gate is open. -/
theorem Reconciled.handle {start : Tracked} {es : List Event} {w : World} {p : Relay}
    (h : Reconciled start es w p) (hg : w.latches.isClosed p.writer.gate = false)
    (hk : p.writer.slot.kind = .label) (e : Event) :
    Reconciled start (e :: es) (p.handle e w).1 (p.handle e w).2 := by
  have hwriter := (handle_snd_same e w p).2
  obtain ⟨v, hkept, hboard, hfst⟩ := handle_fst e w p
  rw [h.hasValue] at hfst
  refine ⟨?_, ?_, ?_⟩
  · rw [hasValue_handle, holdsValue_cons, h.hasValue]
  · rw [hwriter, hfst, shown_cons]
    cases hs : e.status? (holdsValue es) with
    | none => simp [hboard, h.current]
    | some s =>
      have hopen : v.latches.isClosed p.writer.gate = false := by rw [hkept.latches, hg]
      simp [World.tracked_write_self hopen ((kind_of_status? hs).trans hk.symm), Tracked.written]
  · rw [hwriter, hfst, writes_cons]
    cases hs : e.status? (holdsValue es) with
    | none => simp [hboard, h.updates]
    | some s =>
      have hopen : v.latches.isClosed p.writer.gate = false := by rw [hkept.latches, hg]
      have hu := h.updates
      simp [World.tracked_write_self hopen ((kind_of_status? hs).trans hk.symm), Tracked.written, hboard]
      omega

/-! ## Courses of events -/

/-- From a world and a relay on, the events that were handled while the gate was open. In between the world may change in
any way that leaves the slot alone, and reports may come in. -/
inductive Course (w₀ : World) (p₀ : Relay) : List Event → World → Relay → Prop
  | start : Course w₀ p₀ [] w₀ p₀
  | handle {es : List Event} {w : World} {p : Relay} (e : Event) (h : Course w₀ p₀ es w p)
      (hg : w.latches.isOpen p.writer.gate = true) :
      Course w₀ p₀ (e :: es) (p.handle e w).1 (p.handle e w).2
  | aside {es : List Event} {w v : World} {p : Relay} (h : Course w₀ p₀ es w p)
      (hs : v.board.tracked p.writer.slot = w.board.tracked p.writer.slot) : Course w₀ p₀ es v p
  | report {es : List Event} {w : World} {p : Relay} (h : Course w₀ p₀ es w p) :
      Course w₀ p₀ es w { p with reports := p.reports + 1 }

theorem Course.writer {w₀ w : World} {p₀ p : Relay} {es : List Event} (h : Course w₀ p₀ es w p) :
    p.writer = p₀.writer := by
  induction h with
  | start => rfl
  | @handle es w p e h hg ih => rw [(handle_snd_same e w p).2, ih]
  | aside h hs ih => exact ih
  | report h ih => exact ih

theorem Course.reconciled {w₀ w : World} {p₀ p : Relay} {es : List Event} (h : Course w₀ p₀ es w p)
    (hv : p₀.hasValue = false) (hk : p₀.writer.slot.kind = .label) :
    Reconciled (w₀.board.tracked p₀.writer.slot) es w p := by
  induction h with
  | start => exact .start hv
  | handle e h hg ih => exact ih.handle ((Latches.isOpen_iff _ _).1 hg) (by rw [h.writer, hk]) e
  | aside h hs ih => exact ih.congr rfl rfl hs
  | report h ih => exact ih.congr rfl rfl rfl

/-- Any events in any order make a course, since no event closes a gate. -/
theorem Course.exists {w₀ : World} {p₀ : Relay} (hg : w₀.latches.isOpen p₀.writer.gate = true)
    (es : List Event) :
    ∃ w p, Course w₀ p₀ es w p ∧ w.latches = w₀.latches := by
  induction es with
  | nil => exact ⟨w₀, p₀, .start, rfl⟩
  | cons e es ih =>
    obtain ⟨w, p, h, hl⟩ := ih
    have hopen : w.latches.isOpen p.writer.gate = true := by rw [h.writer, hl, hg]
    exact ⟨_, _, h.handle e hopen, by rw [(kept_handle e w p).latches, hl]⟩

theorem hasReason_iff (es : List Event) :
    hasReason es = true ↔ (∃ v, Event.push (some v) ∈ es) ∨ Event.absent ∈ es := by
  induction es with
  | nil => simp [hasReason]
  | cons e es ih =>
    rw [hasReason_cons, Bool.or_eq_true, ih]
    cases e with
    | push value => cases value <;> simp [hasReason]
    | absent => simp [hasReason]
    | closing => simp [hasReason]
    | quiet => simp [hasReason]

/-- **The law of reconciliation.** Any events in any order make a course, and after every course the flag, the slot and
the number of writes are what the history says. Losing the store and losing everyone who could report change nothing, and
only the closing of the gate ends the relay. -/
theorem reconciliation_law (w₀ : World) (p₀ : Relay) (hv : p₀.hasValue = false)
    (hk : p₀.writer.slot.kind = .label) :
    (w₀.latches.isOpen p₀.writer.gate = true → ∀ es, ∃ w p, Course w₀ p₀ es w p) ∧
    ∀ es w p, Course w₀ p₀ es w p →
      (p.hasValue = true ↔ ∃ v, lastPush es = some (some v)) ∧
      (∀ v, lastPush es = some (some v) → w.board.get p₀.writer.slot = some (.label v)) ∧
      ((∀ v, lastPush es ≠ some (some v)) → (∃ v, Event.push (some v) ∈ es) ∨ Event.absent ∈ es →
        w.board.get p₀.writer.slot = some .notSet) ∧
      ((∀ v, lastPush es ≠ some (some v)) → ¬((∃ v, Event.push (some v) ∈ es) ∨ Event.absent ∈ es) →
        w.board.get p₀.writer.slot = w₀.board.get p₀.writer.slot) ∧
      (w.board.tracked p₀.writer.slot).updates =
        (w₀.board.tracked p₀.writer.slot).updates + (values es + clearings es + openReports es) ∧
      ((p.handle .closing w).1.board = w.board ∧ p.handle .quiet w = (w, p)) ∧
      ((p.step w).2 = none ↔ p.started = true ∧ w.latches.isOpen p.writer.gate = false) ∧
      (w.latches.isOpen p.writer.gate = true →
        p.step w = ((p.handle (p.due w) w).1, some (p.handle (p.due w) w).2)) := by
  constructor
  · intro hg es
    obtain ⟨w, p, h, -⟩ := Course.exists hg es
    exact ⟨w, p, h⟩
  · intro es w p h
    have hr := h.reconciled hv hk
    have hcurrent : w.board.get p₀.writer.slot = shown es (w₀.board.get p₀.writer.slot) := by
      rw [← h.writer]
      exact h.writer ▸ hr.current
    have hnot (hn : ∀ v, lastPush es ≠ some (some v)) : holdsValue es = false := by
      rw [← Bool.not_eq_true, holdsValue_iff]
      rintro ⟨v, hs⟩
      exact hn v hs
    refine ⟨?_, ?_, ?_, ?_, ?_, ⟨rfl, rfl⟩, ?_, ?_⟩
    · rw [hr.hasValue, holdsValue_iff]
    · intro v hs
      rw [hcurrent, shown, hs]
    · intro hn hreason
      rw [hcurrent, shown_of_not_holdsValue (hnot hn), (hasReason_iff es).2 hreason, if_pos rfl]
    · intro hn hreason
      rw [← hasReason_iff] at hreason
      rw [hcurrent, shown_of_not_holdsValue (hnot hn), if_neg hreason]
    · rw [← h.writer]
      exact h.writer ▸ hr.updates
    · rw [step_snd_eq_none_iff, Latches.isOpen_eq_not_isClosed, Bool.not_eq_false']
    · intro hg
      have hopen : w.latches.isClosed p.writer.gate = false := (Latches.isOpen_iff _ _).1 hg
      exact step_of_open (.inr hopen)

/-- A report before any value, a value, a report that it overrules, its clearing, and the loss of the store: three
writes, and the setting is shown as not set. -/
theorem reconciliation_law_mixed :
    let gate : Gate := ⟨0, [], 0⟩
    let p : Relay := { key := .gridpathDatabase, writer := ⟨.gridpathDatabase, gate⟩, seen := 0 }
    let es : List Event := [.closing, .push none, .absent, .push (some "io.db"), .absent]
    p.hasValue = false ∧ p.writer.slot.kind = .label ∧
      ∃ w q, Course { latches := { made := 1 } } p es w q ∧ q.hasValue = false ∧
        w.board.get .gridpathDatabase = some .notSet ∧ (w.board.tracked .gridpathDatabase).updates = 3 := by
  intro gate p es
  have law := reconciliation_law { latches := { made := 1 } } p rfl rfl
  obtain ⟨w, q, h⟩ := law.1 rfl es
  obtain ⟨hv, -, hreason, -, hu, -⟩ := law.2 es w q h
  have hlast : ∀ v, lastPush es ≠ some (some v) := by
    intro v
    simp [es, lastPush]
  refine ⟨rfl, rfl, w, q, h, ?_, hreason hlast (.inr (by simp [es])), hu⟩
  rw [← Bool.not_eq_true, hv]
  exact fun ⟨v, hs⟩ => hlast v hs

end Dashboard.Relay
