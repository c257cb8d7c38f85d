import Dashboard.Proofs.Producer.Role

/-! # What a slot depends on

A slot is a machine of its own. All that it takes in is told to it by signals: the calls of the session, what its own
source answers, the turns of its own relay, the values of its own setting, and the report that this setting is absent.

* `Relay.Memory`, `Relay.memory`: what a relay goes by, apart from its gate and what it looks up.
* `Slot.Signal`, `Slot.Lane`, `Lane.next`: the signals, what a slot keeps in mind, and what a signal changes.
* `Signal.Yields`: the statuses that a signal can lead to.
* `Tracked.shown`, `Sampler.tracked_record`, `Relay.tracked_handle`: what producers with an open gate write.
-/

namespace Dashboard
set_option autoImplicit false

/-! ## The memory of a relay -/

namespace Relay

/-- What a relay goes by: whether its setting was set since the last look, and what it remembers. -/
structure Memory where
  isBehind : Bool := false
  started : Bool := false
  watching : Bool := true
  hasValue : Bool := false
  reports : Nat := 0
  deriving DecidableEq, Repr

def memory (w : World) (p : Relay) : Memory where
  isBehind := (w.store.channel p.key).version != p.seen
  started := p.started
  watching := p.watching
  hasValue := p.hasValue
  reports := p.reports

namespace Memory

def due (isOpen : Bool) (value : Option String) (m : Memory) : Event :=
  if !m.started || (m.watching && m.isBehind) then .push value
  else if m.watching && !isOpen then .closing
  else if 0 < m.reports then .absent
  else .quiet

def handle (e : Event) (m : Memory) : Memory :=
  match e with
  | .push value => { m with isBehind := false, started := true, hasValue := value.isSome }
  | .absent => { m with reports := m.reports - 1 }
  | .closing => { m with watching := false }
  | .quiet => m

/-- Nothing is pushed but the value of the setting. -/
theorem eq_of_due_eq_push {m : Memory} {isOpen : Bool} {value pushed : Option String}
    (h : m.due isOpen value = .push pushed) : pushed = value := by
  unfold due at h
  split at h
  · exact (Event.push.inj h).symm
  · split at h
    · cases h
    · split at h <;> cases h

end Memory

variable (w : World) (p : Relay)

/-- Of the world a relay looks up two things only: whether the store is open, and the value of its setting. -/
theorem due_eq_memory : p.due w = (p.memory w).due w.store.isOpen (w.store.channel p.key).value := rfl

theorem memory_handle {v : World} (h : v.store.channel = w.store.channel) (e : Event) :
    (p.handle e w).2.memory v = (p.memory w).handle e := by
  cases e with
  | push value => simp [handle_push_snd, memory, Memory.handle, h]
  | absent => simp [handle, memory, Memory.handle, h]
  | closing => simp [handle, memory, Memory.handle, h]
  | quiet => simp [handle, memory, Memory.handle, h]

end Relay

/-! ## Lanes -/

/-- The setting that is shown in a slot, if the slot is for one. -/
def Slot.setting? (slot : Slot) : Option Setting := Setting.all.find? fun key => key.slot = slot

theorem Slot.setting?_slot (key : Setting) : key.slot.setting? = some key := by
  cases key <;> rfl

theorem Slot.slot_of_setting? {slot : Slot} {key : Setting} (h : slot.setting? = some key) : key.slot = slot := by
  unfold setting? at h
  simpa using List.find?_some h

/-- The value that the store holds for a slot. -/
def Setting.Store.valueOf (slot : Slot) (s : Store) : Option String := slot.setting?.bind s.get

theorem Setting.Store.valueOf_slot (key : Setting) (s : Store) : s.valueOf key.slot = s.get key := by
  rw [valueOf, Slot.setting?_slot, Option.bind_some]

/-- The status to show for what a source answered, which is nothing if the sample failed. -/
def Fallback.shown? (answer : Option Status) (f : Fallback) : Option Status := answer.or f.status?

namespace Slot

/-- What a slot is told: the calls of the session, what its source answered if it did, a turn of its relay, and what there
is to know of its setting. -/
inductive Signal where
  | activate
  | deactivate
  | sample (answer : Option Status)
  | turn (isOpen : Bool)
  | absent
  | value (value : Option String)
  deriving DecidableEq, Repr

/-- What a slot shows, how often it was written, and all that its later content depends on: whether the session is
active, the value of the setting, and the memory of the relay. -/
structure Lane where
  current : Option Status
  updates : Nat
  value : Option String
  isActive : Bool := false
  memory : Relay.Memory := {}
  deriving DecidableEq, Repr

namespace Lane

/-- The status that a signal asks for. -/
def status? (slot : Slot) (x : Signal) (l : Lane) : Option Status :=
  match x with
  | .sample answer => (Fallback.forSlot slot).shown? answer
  | .turn isOpen => (l.memory.due isOpen l.value).status? l.memory.hasValue
  | _ => none

/-- A write to a slot. A status of the wrong kind is refused. -/
def put (slot : Slot) (status : Option Status) (l : Lane) : Lane :=
  match status with
  | some s => if Board.accepts slot s then { l with current := some s, updates := l.updates + 1 } else l
  | none => l

def learn (x : Signal) (l : Lane) : Lane :=
  match x with
  | .activate => if l.isActive then l else { l with isActive := true, memory := {} }
  | .deactivate => { l with isActive := false }
  | .sample _ => l
  | .turn isOpen => { l with memory := l.memory.handle (l.memory.due isOpen l.value) }
  | .absent => { l with memory := { l.memory with reports := l.memory.reports + 1 } }
  | .value value => { l with value, memory := { l.memory with isBehind := true } }

def next (slot : Slot) (x : Signal) (l : Lane) : Lane := (l.learn x).put slot (l.status? slot x)

section
variable (slot : Slot) (x : Signal) (status : Option Status) (l : Lane)

@[simp] theorem memory_put : (l.put slot status).memory = l.memory := by
  unfold put
  split
  · split <;> rfl
  · rfl

@[simp] theorem value_put : (l.put slot status).value = l.value := by
  unfold put
  split
  · split <;> rfl
  · rfl

@[simp] theorem isActive_put : (l.put slot status).isActive = l.isActive := by
  unfold put
  split
  · split <;> rfl
  · rfl

/-- What a lane learns is not shown yet. -/
theorem shown_learn : (l.current, l.updates) = ((l.learn x).current, (l.learn x).updates) := by
  cases x with
  | activate => cases h : l.isActive <;> simp [learn, h]
  | deactivate => rfl
  | sample answer => rfl
  | turn isOpen => rfl
  | absent => rfl
  | value value => rfl

end

end Lane

/-- A signal can lead to a status: a source answered with it, it is the fallback of the slot, it is the value of the
setting of the slot, or it says that this setting is not set. -/
inductive Signal.Yields (slot : Slot) (value : Option String) : Signal → Status → Prop
  | sampled (s : Status) : Yields slot value (.sample (some s)) s
  | failed (s : Status) (h : (Fallback.forSlot slot).status? = some s) : Yields slot value (.sample none) s
  | label (isOpen : Bool) (v : String) (h : value = some v) : Yields slot value (.turn isOpen) (.label v)
  | notSet (isOpen : Bool) : Yields slot value (.turn isOpen) .notSet

theorem Lane.yields_of_status? {slot : Slot} {x : Signal} {l : Lane} {s : Status}
    (h : l.status? slot x = some s) : x.Yields slot l.value s := by
  cases x with
  | sample answer =>
    cases answer with
    | some status =>
      obtain rfl : status = s := Option.some.inj h
      exact .sampled status
    | none => exact .failed s h
  | turn isOpen =>
    simp only [status?] at h
    cases hd : l.memory.due isOpen l.value with
    | push value =>
      have hvalue := Relay.Memory.eq_of_due_eq_push hd
      rw [hd] at h
      cases value with
      | some v =>
        obtain rfl : Status.label v = s := Option.some.inj h
        exact .label isOpen v hvalue.symm
      | none =>
        obtain ⟨-, rfl⟩ : l.memory.hasValue = true ∧ Status.notSet = s := by
          simpa [Relay.Event.status?] using h
        exact .notSet isOpen
    | absent =>
      rw [hd] at h
      obtain ⟨-, rfl⟩ : l.memory.hasValue = false ∧ Status.notSet = s := by
        simpa [Relay.Event.status?] using h
      exact .notSet isOpen
    | closing =>
      rw [hd] at h
      exact absurd h (Option.some_ne_none s).symm
    | quiet =>
      rw [hd] at h
      exact absurd h (Option.some_ne_none s).symm
  | activate => exact absurd h (Option.some_ne_none s).symm
  | deactivate => exact absurd h (Option.some_ne_none s).symm
  | absent => exact absurd h (Option.some_ne_none s).symm
  | value value => exact absurd h (Option.some_ne_none s).symm

end Slot

/-! ## Actions -/

namespace Tracked

/-- A slot after a write of a status, if there is one. -/
def shown (slot : Slot) (now : Nat) (status : Option Status) (t : Tracked) : Tracked :=
  match status with
  | some s => if Board.accepts slot s then t.written now s else t
  | none => t

/-- What a write does to a slot, it does to its lane. -/
theorem shown_put {slot : Slot} {t : Tracked} {l : Slot.Lane} (h : (t.current, t.updates) = (l.current, l.updates))
    (now : Nat) (status : Option Status) :
    ((t.shown slot now status).current, (t.shown slot now status).updates) =
      ((l.put slot status).current, (l.put slot status).updates) := by
  obtain ⟨-, hupdates⟩ := Prod.mk.inj h
  cases status with
  | none => exact h
  | some s =>
    simp only [shown, Slot.Lane.put]
    split
    · rw [written, hupdates]
    · exact h

end Tracked

theorem World.tracked_write_of_open {w : World} {x : Writer} (h : w.latches.isClosed x.gate = false)
    (s : Status) :
    (w.write x s).2.board.tracked x.slot = (w.board.tracked x.slot).shown x.slot w.now (some s) := by
  rw [board_write, h, if_neg Bool.false_ne_true, Tracked.shown]
  cases hk : Board.accepts x.slot s with
  | true => rw [Board.tracked_set_self w.board w.now hk, if_pos rfl]
  | false => rw [Board.set_of_not_accepts w.board w.now hk, if_neg Bool.false_ne_true]

theorem Sampler.tracked_record {w : World} {p : Sampler} (h : w.latches.isClosed p.writer.gate = false)
    (outcome : Except Failure Status) :
    (p.record outcome w).1.board.tracked p.writer.slot =
      (w.board.tracked p.writer.slot).shown p.writer.slot w.now (p.fallback.shown? outcome.toOption) := by
  cases outcome with
  | ok status =>
    by_cases hf : 0 < p.failures
    · simp only [record, hf, if_true]
      exact World.tracked_write_of_open (w := (w.note _).note _) h status
    · simp only [record, hf, if_false]
      exact World.tracked_write_of_open (w := w.note _) h status
  | error failure =>
    cases hs : p.fallback.status? with
    | none => simp [record, hs, Fallback.shown?, Except.toOption, Tracked.shown]
    | some s =>
      simp only [record, hs, Fallback.shown?, Except.toOption, Option.none_or]
      exact World.tracked_write_of_open (w := w.note _) h s

theorem Relay.tracked_handle {w : World} {p : Relay} (h : w.latches.isClosed p.writer.gate = false)
    (e : Event) :
    (p.handle e w).1.board.tracked p.writer.slot =
      (w.board.tracked p.writer.slot).shown p.writer.slot w.now (e.status? p.hasValue) := by
  obtain ⟨v, hk, hb, hv⟩ := handle_fst e w p
  rw [hv]
  cases e.status? p.hasValue with
  | none => rw [hb, Tracked.shown]
  | some s =>
    have hg : v.latches.isClosed p.writer.gate = false := by rwa [hk.latches]
    rw [World.tracked_write_of_open hg s, hb, hk.now]

end Dashboard
