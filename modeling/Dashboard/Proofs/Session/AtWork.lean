import Dashboard.Proofs.Session.Invariant

/-! # Producers at work

While an activation is stored, there is one open producer for each slot that it writes.

* `Producer.Role.samples`, `Producer.Role.follows`, `System.atWork`: open producers of a sort, and how many there are.
* `Session.activate_fst`, `Session.deactivate_fst`: what calls answer.
* `Session.State.Sound.cases_of_open`: a producer behind an open gate has a role in the stored activation.
* `Session.State.Sound.atWork_samples`, `Session.State.Sound.atWork_follows`: one producer for each slot.
-/

namespace Dashboard
set_option autoImplicit false

/-! ## Producers at work -/

/-- The role of a sampler for a slot. -/
def Producer.Role.samples (slot : Slot) : Producer.Role → Bool
  | .sampler _ _ _ x => x.slot == slot
  | _ => false

/-- The role of a relay of a setting. -/
def Producer.Role.follows (key : Setting) : Producer.Role → Bool
  | .relay k _ => k == key
  | _ => false

def Slot.sampled : List Slot := [.server, .runStatus, .validationStatus]

namespace System

/-- The number of producers in a role of some sort whose gate is open. -/
def atWork (sort : Producer.Role → Bool) (s : System) : Nat :=
  s.tasks.countP fun t => sort t.producer.role && s.world.latches.isOpen t.producer.role.gate

variable {s : System} {sort : Producer.Role → Bool}

theorem atWork_eq_one (hs : s.Numbered) {t : Task} (ht : t ∈ s.tasks)
    (hsort : sort t.producer.role = true) (ho : s.world.latches.isOpen t.producer.role.gate = true)
    (huniq : ∀ u ∈ s.tasks, sort u.producer.role = true →
      s.world.latches.isOpen u.producer.role.gate = true → u.id = t.id) :
    s.atWork sort = 1 := by
  have hnodup : s.tasks.Nodup := .of_map Task.id hs.nodup
  rw [← List.count_eq_one_of_mem hnodup ht]
  apply List.countP_congr
  intro u hu
  rw [Bool.and_eq_true, beq_iff_eq]
  constructor
  · rintro ⟨h1, h2⟩
    exact hs.eq_of_id hu ht (huniq u hu h1 h2)
  · rintro rfl
    exact ⟨hsort, ho⟩

theorem atWork_eq_zero
    (h : ∀ t ∈ s.tasks, sort t.producer.role = true →
      s.world.latches.isOpen t.producer.role.gate = false) : s.atWork sort = 0 := by
  apply List.countP_eq_zero.2
  intro t ht hw
  rw [Bool.and_eq_true] at hw
  rw [h t ht hw.1] at hw
  exact absurd hw.2 Bool.false_ne_true

end System

/-! ## Calls -/

namespace Session

theorem activate_fst (d : Session) (s : System) : (d.activate s).1 = true ↔ d.activation = none := by
  cases h : d.activation with
  | none => simp [activate_of_none s h]
  | some a => simp [activate_of_some s h]

theorem deactivate_fst (d : Session) (s : System) :
    (d.deactivate s).1 = true ↔ d.activation ≠ none := by
  cases h : d.activation with
  | none => simp [deactivate_of_none s h]
  | some a => simp [deactivate_of_some s h]

end Session

/-! ## All runs -/

namespace Session.State
variable {σ : State}

theorem Sound.held_of_open (h : σ.Sound) {t : Task} (ht : t ∈ σ.system.tasks)
    (ho : σ.system.world.latches.isOpen t.producer.role.gate = true) :
    ∃ a, σ.activation? = some a ∧ t.id ∈ a.tasks := by
  rw [Latches.isOpen_iff] at ho
  rcases h.held t ht with hc | ha
  · exact absurd (hc.symm.trans ho) Bool.false_ne_true.symm
  · exact ha

theorem Sound.isOpen_of_none (h : σ.Sound) (hn : σ.activation? = none) {t : Task}
    (ht : t ∈ σ.system.tasks) : σ.system.world.latches.isOpen t.producer.role.gate = false := by
  rw [← Bool.not_eq_true]
  intro ho
  obtain ⟨a, ha, -⟩ := h.held_of_open ht ho
  exact absurd (ha.symm.trans hn) (Option.some_ne_none a)

/-- A producer behind an open gate has a role in the stored activation. -/
theorem Sound.cases_of_open (h : σ.Sound) {a : Activation} (ha : σ.activation? = some a) {t : Task}
    (ht : t ∈ σ.system.tasks) (ho : σ.system.world.latches.isOpen t.producer.role.gate = true) :
    (∃ x ∈ a.samplers, t.id = x.task ∧
      ∃ source period fallback, t.producer.role = .sampler source period fallback x.writer) ∨
    (∃ x ∈ a.relays, t.id = x.task ∧ t.producer.role = .relay x.key x.writer) ∨
    t.id = a.inquiry ∧ t.producer.role = .inquiry a.gate (a.relays.map RelayHandle.reconciler) := by
  obtain ⟨b, hb, hi⟩ := h.held_of_open ht ho
  obtain rfl : b = a := Option.some.inj (hb.symm.trans ha)
  exact (h.running b ha).cases h.numbered ht hi

theorem Sound.exists_sampler (h : σ.Sound) {a : Activation} (ha : σ.activation? = some a) {slot : Slot}
    {t : Task} (ht : t ∈ σ.system.tasks) (hs : t.producer.role.samples slot = true)
    (ho : σ.system.world.latches.isOpen t.producer.role.gate = true) :
    ∃ x ∈ a.samplers, t.id = x.task ∧ x.writer.slot = slot := by
  rcases h.cases_of_open ha ht ho with
    ⟨x, hx, hid, source, period, fallback, hrole⟩ | ⟨x, hx, hid, hrole⟩ | ⟨hid, hrole⟩
  · rw [hrole] at hs
    exact ⟨x, hx, hid, beq_iff_eq.1 hs⟩
  · rw [hrole] at hs
    exact absurd hs Bool.false_ne_true
  · rw [hrole] at hs
    exact absurd hs Bool.false_ne_true

theorem Sound.exists_relay (h : σ.Sound) {a : Activation} (ha : σ.activation? = some a) {key : Setting}
    {t : Task} (ht : t ∈ σ.system.tasks) (hs : t.producer.role.follows key = true)
    (ho : σ.system.world.latches.isOpen t.producer.role.gate = true) :
    ∃ x ∈ a.relays, t.id = x.task ∧ x.key = key := by
  rcases h.cases_of_open ha ht ho with
    ⟨x, hx, hid, source, period, fallback, hrole⟩ | ⟨x, hx, hid, hrole⟩ | ⟨hid, hrole⟩
  · rw [hrole] at hs
    exact absurd hs Bool.false_ne_true
  · rw [hrole] at hs
    exact ⟨x, hx, hid, beq_iff_eq.1 hs⟩
  · rw [hrole] at hs
    exact absurd hs Bool.false_ne_true

theorem Sound.isOpen_of_post (h : σ.Sound) {a : Activation} (ha : σ.activation? = some a)
    {x : Nat × Writer} (hx : x ∈ a.posts) : σ.system.world.latches.isOpen x.2.gate = true :=
  (Latches.isOpen_iff _ _).2 ((h.running a ha).posts x hx).2

theorem Sound.atWork_samples (h : σ.Sound) {a : Activation} (ha : σ.activation? = some a) (slot : Slot) :
    σ.system.atWork (Producer.Role.samples slot) = if slot ∈ Slot.sampled then 1 else 0 := by
  have hwell := h.wellFormed a ha
  split
  · rename_i hslot
    rw [Slot.sampled, ← hwell.slots] at hslot
    obtain ⟨x, hx, rfl⟩ := List.mem_map.1 hslot
    obtain ⟨t, ht, hid, source, period, fallback, hrole⟩ := (h.running a ha).samplers x hx
    apply System.atWork_eq_one h.numbered ht
    · rw [hrole]
      exact beq_self_eq_true _
    · rw [hrole]
      exact h.isOpen_of_post ha (Activation.mem_posts_sampler hx)
    · intro u hu hs ho
      obtain ⟨y, hy, hidy, hslot⟩ := h.exists_sampler ha hu hs ho
      have heq := hwell.eq_of_slot (Activation.mem_posts_sampler hy) (Activation.mem_posts_sampler hx) hslot
      rw [hidy, hid]
      exact congrArg Prod.fst heq
  · rename_i hslot
    apply System.atWork_eq_zero
    intro t ht hs
    rw [← Bool.not_eq_true]
    intro ho
    obtain ⟨x, hx, -, hxs⟩ := h.exists_sampler ha ht hs ho
    apply hslot
    rw [Slot.sampled, ← hwell.slots, ← hxs]
    exact List.mem_map_of_mem hx

theorem Sound.atWork_follows (h : σ.Sound) {a : Activation} (ha : σ.activation? = some a)
    (key : Setting) : σ.system.atWork (Producer.Role.follows key) = 1 := by
  have hwell := h.wellFormed a ha
  have hkey : key ∈ a.relays.map RelayHandle.key := by
    rw [hwell.keys]
    cases key <;> decide
  obtain ⟨x, hx, rfl⟩ := List.mem_map.1 hkey
  obtain ⟨t, ht, hid, hrole⟩ := (h.running a ha).relays x hx
  apply System.atWork_eq_one h.numbered ht
  · rw [hrole]
    exact beq_self_eq_true _
  · rw [hrole]
    exact h.isOpen_of_post ha (Activation.mem_posts_relay hx)
  · intro u hu hs ho
    obtain ⟨y, hy, hidy, hkeyy⟩ := h.exists_relay ha hu hs ho
    have hslot : y.writer.slot = x.writer.slot := by rw [hwell.keySlot y hy, hwell.keySlot x hx, hkeyy]
    have heq := hwell.eq_of_slot (Activation.mem_posts_relay hy) (Activation.mem_posts_relay hx) hslot
    rw [hidy, hid]
    exact congrArg Prod.fst heq

end Session.State
end Dashboard
