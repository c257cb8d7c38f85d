import Dashboard.Proofs.Producer.Signal
import Dashboard.Proofs.Session.Agreement

/-! # The lane of a slot

In every run of a dashboard a slot is where its signals have brought it: no event does more to a slot, and to all that its
later content depends on, than its signal says.

* `System.Recalls`: the relay of a handle goes by a memory.
* `Session.State.signal?`, `State.trace`: what a slot is told by an event and by a run.
* `State.Shows`: a slot is in the state of a lane, and so is all that the lane says about the dashboard.
* `Shows.tracked_act`, `Shows.recalls_after`: what an action writes to the slot, and leaves in the memory of its relay.
* `Shows.after`, `IsNew.shows_run`: one event, and all runs.
-/

namespace Dashboard
set_option autoImplicit false

/-! ## The relay of a handle -/

/-- The relay of a handle is there, and goes by this memory. -/
def System.Recalls (h : RelayHandle) (m : Relay.Memory) (s : System) : Prop :=
  ∃ p : Relay, ⟨h.task, .relay p⟩ ∈ s.tasks ∧ p.key = h.key ∧ p.writer = h.writer ∧
    p.seen ≤ (s.world.store.channel h.key).version ∧ p.memory s.world = m

namespace System
variable {h : RelayHandle} {m : Relay.Memory} {s s' : System}

theorem Recalls.of_perm (hr : s.Recalls h m) (ht : s'.tasks.Perm s.tasks)
    (hc : s'.world.store.channel h.key = s.world.store.channel h.key) : s'.Recalls h m := by
  obtain ⟨p, hm, hkey, hwriter, hle, hmemory⟩ := hr
  refine ⟨p, ht.mem_iff.2 hm, hkey, hwriter, hc ▸ hle, ?_⟩
  rw [← hmemory, Relay.memory, Relay.memory, hkey, hc]

theorem Recalls.setSetting (hr : s.Recalls h m) (value : Option String) :
    (s.onWorld (World.setSetting h.key value)).Recalls h { m with isBehind := true } := by
  obtain ⟨p, hm, hkey, hwriter, hle, rfl⟩ := hr
  have hversion : ((s.onWorld (World.setSetting h.key value)).world.store.channel h.key).version =
      (s.world.store.channel h.key).version + 1 := by
    simp [onWorld, World.setSetting, Setting.Store.set]
  refine ⟨p, (s.tasks_onWorld _).mem_iff.2 hm, hkey, hwriter, ?_, ?_⟩
  · rw [hversion]
    exact Nat.le_succ_of_le hle
  · have hbehind : (s.world.store.channel h.key).version + 1 ≠ p.seen := by omega
    simp [Relay.memory, hkey, hversion, hbehind]

/-- An action of another producer fills the mailbox at most. -/
theorem Recalls.act_other (hr : s.Recalls h m) {j : Nat} {t : Task} (ht : s.acting j = some t)
    (hne : j ≠ h.task) :
    (s.act j).Recalls h { m with reports := m.reports +
      (t.producer.step s.world).2.2.countP fun r => r.relay = h.task } := by
  obtain ⟨p, hm, hkey, hwriter, hle, rfl⟩ := hr
  have hc := (s.kept_act j).channel
  refine ⟨_, mem_act_of_other hm ht hne, hkey, hwriter, ?_, ?_⟩
  · rw [hc]
    exact hle
  · rw [Relay.memory, hc]
    rfl

theorem Recalls.of_acting (hr : s.Recalls h m) (hs : s.Numbered) {t : Task} (ht : s.acting h.task = some t) :
    ∃ p : Relay, t = ⟨h.task, .relay p⟩ ∧ p.key = h.key ∧ p.writer = h.writer ∧
      p.seen ≤ (s.world.store.channel h.key).version ∧ p.memory s.world = m := by
  obtain ⟨p, hm, hp⟩ := hr
  obtain ⟨htm, hid, -⟩ := mem_of_acting ht
  exact ⟨p, hs.eq_of_id htm hm hid, hp⟩

/-- Its own action depends on its memory, on the value of its setting and on whether the store is open. -/
theorem Recalls.act_self (hr : s.Recalls h m) (hs : s.Numbered) {t : Task} (ht : s.acting h.task = some t)
    (hg : s.world.latches.isClosed h.writer.gate = false) :
    (s.act h.task).Recalls h (m.handle (m.due s.world.store.isOpen (s.world.store.get h.key))) := by
  obtain ⟨p, rfl, hkey, hwriter, hle, rfl⟩ := hr.of_acting hs ht
  obtain ⟨hm, -⟩ := mem_act_of_self ht (.inr (hwriter ▸ hg))
  obtain ⟨hkey', hwriter'⟩ := Relay.handle_snd_same (p.due s.world) s.world p
  have hc := (s.kept_act h.task).channel
  refine ⟨_, hm, hkey'.trans hkey, hwriter'.trans hwriter, ?_, ?_⟩
  · rw [hc]
    cases p.due s.world with
    | push value => exact Nat.le_of_eq (by rw [Relay.handle_push_snd, hkey])
    | absent => exact hle
    | closing => exact hle
    | quiet => exact hle
  · have hdue := p.due_eq_memory s.world
    rw [hkey] at hdue
    rw [Relay.memory_handle _ _ hc, hdue]
    rfl

theorem recalls_of_begins {a : Activation} (hb : a.Begins s s') (hm : h ∈ a.relays) : s'.Recalls h {} := by
  obtain ⟨ts, -, hbegun⟩ := hb.producers
  refine ⟨{ key := h.key, writer := h.writer, seen := (s.world.store.channel h.key).version }, ?_, rfl, rfl, ?_, ?_⟩
  · refine (hbegun.mem_iff _).2 (.inr (List.mem_append_left _ (List.mem_append_right _ ?_)))
    exact List.mem_map_of_mem (f := RelayHandle.fresh s.world.store) hm
  · exact Nat.le_of_eq (by rw [hbegun.channel])
  · simp [Relay.memory, hbegun.channel]

theorem store_retire (a : Activation) (s : System) : (s.retire a).world.store = s.world.store := by
  have hfold {α : Type} {f : System → α → System} (hf : ∀ s x, (f s x).world.store = s.world.store)
      (xs : List α) (s : System) : (xs.foldl f s).world.store = s.world.store := by
    induction xs generalizing s with
    | nil => rfl
    | cons x xs ih => exact (ih (f s x)).trans (hf s x)
  have hpending (t : System) : (if t.isAlive a.inquiry then t.note .snapshotPending else t).world.store =
      t.world.store := by
    split <;> rfl
  have hstop (s : System) (h : SamplerHandle) : (s.stop h).world.store = s.world.store := rfl
  have hrelease (s : System) (h : RelayHandle) : (s.release h).world.store = s.world.store := rfl
  exact (hpending _).trans ((hfold hrelease a.relays _).trans (hfold hstop a.samplers _))

end System

/-! ## Fallbacks -/

/-- A sampler falls back to what its slot is given. -/
def Producer.Role.FallsBack : Producer.Role → Prop
  | .sampler _ _ fallback x => fallback = .forSlot x.slot
  | _ => True

namespace Session.State

theorem fallsBack_after {σ : State} (h : ∀ t ∈ σ.system.tasks, t.producer.role.FallsBack) (e : Event) :
    ∀ t ∈ (σ.after e).system.tasks, t.producer.role.FallsBack := by
  intro t ht
  cases σ.happens_after e with
  | act i hs ha =>
    rw [hs] at ht
    obtain ⟨u, hu, hb⟩ := System.exists_of_mem_act ht
    have hrole : u.producer.role = t.producer.role := congrArg Prod.snd hb
    exact hrole ▸ h u hu
  | aside hs hl ha => exact h t (hs.tasks.mem_iff.1 ht)
  | begins a hn ha hs =>
    obtain ⟨ts, hts, hb⟩ := hs.producers
    rcases (hb.mem_iff t).1 ht with ht | ht
    · exact h t ht
    · rcases List.mem_append.1 ht with ht | ht
      · rcases List.mem_append.1 ht with ht | ht
        · obtain ⟨x, -, -, p, hp, -, -, -, hfallback⟩ := SamplerHandle.exists_handle hts ht
          rw [hp]
          exact hfallback
        · obtain ⟨x, -, rfl⟩ := List.mem_map.1 ht
          trivial
      · rw [List.mem_singleton.1 ht]
        trivial
  | ends a _ ha hn ns hns hs => exact h t (hs.tasks.mem_iff.1 ht)

theorem fallsBack_run {σ : State} (h : ∀ t ∈ σ.system.tasks, t.producer.role.FallsBack) (es : List Event) :
    ∀ t ∈ (σ.run es).system.tasks, t.producer.role.FallsBack := by
  induction es with
  | nil => exact h
  | cons e es ih => exact fallsBack_after ih e

/-! ## What an event tells a slot -/

def signal? (slot : Slot) (σ : State) : Event → Option Slot.Signal
  | .activate => some .activate
  | .deactivate => some .deactivate
  | .setting key value => if key.slot = slot then some (.value value) else none
  | .act i => (σ.system.acting i).bind fun t => t.producer.signal? slot σ.system.world
  | _ => none

/-- All that a slot was told in a run, with the latest first. -/
def trace (slot : Slot) (σ : State) : List Event → List Slot.Signal
  | [] => []
  | e :: past => (signal? slot (σ.run past) e).toList ++ trace slot σ past

/-- What a slot shows, and how often it was written. -/
def content (slot : Slot) (σ : State) : Option Status × Nat :=
  ((σ.board.tracked slot).current, (σ.board.tracked slot).updates)

/-- The slot is in the state of the lane. -/
structure Shows (σ : State) (slot : Slot) (l : Slot.Lane) : Prop where
  content : σ.content slot = (l.current, l.updates)
  value : σ.system.world.store.valueOf slot = l.value
  isActive : ∀ d, σ.session = some d → l.isActive = d.activation.isSome
  relay : ∀ a, σ.activation? = some a → ∀ h ∈ a.relays, h.key.slot = slot → σ.system.Recalls h l.memory

variable {σ τ : State} {slot : Slot} {l : Slot.Lane}

/-- The lane of a slot in a dashboard that was not activated yet. -/
def lane (slot : Slot) (σ : State) : Slot.Lane where
  current := (σ.content slot).1
  updates := (σ.content slot).2
  value := σ.system.world.store.valueOf slot

theorem IsNew.shows (h : σ.IsNew) (slot : Slot) : σ.Shows slot (σ.lane slot) := by
  obtain ⟨d, hd, hn⟩ := h.session
  refine ⟨rfl, rfl, ?_, ?_⟩
  · intro d' hd'
    obtain rfl : d = d' := Option.some.inj (hd.symm.trans hd')
    rw [hn]
    rfl
  · intro a ha
    rw [activation?, hd, Option.bind_some, hn] at ha
    exact absurd ha (Option.some_ne_none a).symm

theorem valueOf_congr {s t : Setting.Store} (h : ∀ key : Setting, key.slot = slot → t.channel key = s.channel key) :
    t.valueOf slot = s.valueOf slot := by
  unfold Setting.Store.valueOf
  cases hk : slot.setting? with
  | none => rfl
  | some key =>
    have hslot : key.slot = slot := Slot.slot_of_setting? hk
    rw [Option.bind_some, Option.bind_some, Setting.Store.get, Setting.Store.get, h key hslot]

/-- What tells a slot nothing changes nothing for it. -/
theorem Shows.aside (f : σ.Shows slot l) (hsession : τ.session = σ.session)
    (ht : τ.system.tasks.Perm σ.system.tasks) (hb : τ.board = σ.board)
    (hc : ∀ key : Setting, key.slot = slot → τ.system.world.store.channel key = σ.system.world.store.channel key) :
    τ.Shows slot l where
  content := by
    rw [State.content, hb]
    exact f.content
  value := (valueOf_congr hc).trans f.value
  isActive d hd := f.isActive d (hsession ▸ hd)
  relay a ha h hm hslot := by
    rw [activation?, hsession] at ha
    exact (f.relay a ha h hm hslot).of_perm ht (hc h.key hslot)

/-! ## Actions -/

/-- The relay that is at work for a slot is the one of the stored activation. -/
theorem Sound.exists_handle (hs : σ.Sound) {i : Nat} {p : Relay} (ht : σ.system.acting i = some ⟨i, .relay p⟩)
    (hg : σ.system.world.latches.isClosed p.writer.gate = false) :
    ∃ a h, σ.activation? = some a ∧ h ∈ a.relays ∧ i = h.task ∧ p.writer = h.writer := by
  have hm := (System.mem_of_acting ht).1
  rcases hs.held _ hm with hc | ⟨a, ha, hi⟩
  · exact absurd (hc.symm.trans hg) Bool.false_ne_true.symm
  · rcases (hs.running a ha).cases hs.numbered hm hi with
      ⟨x, -, -, source, period, fallback, hrole⟩ | ⟨h, hh, hid, hrole⟩ | ⟨-, hrole⟩
    · cases hrole
    · injection hrole with _ hwriter
      exact ⟨a, h, ha, hh, hid, hwriter⟩
    · cases hrole

theorem tracked_sampler (l : Slot.Lane) {p : Sampler}
    (hg : σ.system.world.latches.isClosed p.writer.gate = false) (hslot : p.writer.slot = slot)
    (hf : p.fallback = .forSlot slot) :
    (p.step σ.system.world).1.board.tracked slot = (σ.board.tracked slot).shown slot σ.system.world.now
      (((Producer.sampler p).signal? slot σ.system.world).bind fun x => l.status? slot x) := by
  have hsignal : ((Producer.sampler p).signal? slot σ.system.world).bind (fun x => l.status? slot x) =
      p.shown? σ.system.world := by
    have hopen : σ.system.world.latches.isClosed (Producer.sampler p).role.gate = false := hg
    unfold Producer.signal? Sampler.shown?
    rw [hopen, if_neg Bool.false_ne_true, hf]
    cases hp : p.phase with
    | fresh => simp [hp]
    | resting due => simp [hp]
    | sampling ends due => simp [hp, hslot, Slot.Lane.status?]
  have htracked := Sampler.tracked_step hg
  rw [hslot] at htracked
  rw [hsignal]
  exact htracked

theorem Shows.tracked_relay (f : σ.Shows slot l) (hs : σ.Sound) {i : Nat} {p : Relay}
    (ht : σ.system.acting i = some ⟨i, .relay p⟩)
    (hg : σ.system.world.latches.isClosed p.writer.gate = false) (hslot : p.writer.slot = slot) :
    (p.step σ.system.world).1.board.tracked slot = (σ.board.tracked slot).shown slot σ.system.world.now
      (l.status? slot (.turn σ.system.world.store.isOpen)) := by
  obtain ⟨a, h, ha, hh, rfl, hwriter⟩ := hs.exists_handle ht hg
  have hkeySlot : h.key.slot = slot := by rw [← (hs.wellFormed a ha).keySlot h hh, ← hwriter, hslot]
  obtain ⟨q, hq, hkey, -, -, hmemory⟩ := (f.relay a ha h hh hkeySlot).of_acting hs.numbered ht
  injection hq with _ hq
  obtain rfl : p = q := Producer.relay.inj hq
  have hvalue : l.value = (σ.system.world.store.channel p.key).value := by
    rw [← f.value, ← hkeySlot, Setting.Store.valueOf_slot, hkey]
    rfl
  have htracked := Relay.tracked_step hg
  rw [hslot, p.due_eq_memory] at htracked
  rw [htracked, Slot.Lane.status?, ← hmemory, hvalue]
  rfl

theorem Shows.tracked_act (f : σ.Shows slot l) (hs : σ.Sound)
    (hf : ∀ t ∈ σ.system.tasks, t.producer.role.FallsBack) {i : Nat} {t : Task}
    (ht : σ.system.acting i = some t) :
    (σ.after (.act i)).board.tracked slot = (σ.board.tracked slot).shown slot σ.system.world.now
      ((t.producer.signal? slot σ.system.world).bind fun x => l.status? slot x) := by
  obtain ⟨hm, hid, -⟩ := System.mem_of_acting ht
  obtain ⟨journal, hw⟩ := (System.acted ht).world
  have hboard : (σ.after (.act i)).board = (t.producer.step σ.system.world).1.board := by
    rw [board, after, hw]
  rw [hboard]
  cases hg : σ.system.world.latches.isClosed t.producer.role.gate with
  | true =>
    rw [Producer.signal?_of_closed hg, Producer.board_step_of_closed hg]
    rfl
  | false =>
    obtain ⟨j, producer⟩ := t
    obtain rfl : j = i := hid
    cases producer with
    | sampler p =>
      by_cases hslot : p.writer.slot = slot
      · exact tracked_sampler l hg hslot (hslot ▸ hf _ hm)
      · rw [Producer.signal?_of_ne rfl hslot]
        exact (p.written_step σ.system.world).tracked_ne (Ne.symm hslot)
    | relay p =>
      by_cases hslot : p.writer.slot = slot
      · have hopen : σ.system.world.latches.isClosed (Producer.relay p).role.gate = false := hg
        simp only [Producer.signal?, hopen, hslot, if_true]
        exact f.tracked_relay hs ht hg hslot
      · rw [Producer.signal?_of_ne rfl hslot]
        exact (p.written_step σ.system.world).tracked_ne (Ne.symm hslot)
    | inquiry p =>
      have hstatus : ((Producer.inquiry p).signal? slot σ.system.world).bind (fun x => l.status? slot x) = none := by
        rw [Producer.signal?_inquiry]
        split
        · split <;> rfl
        · rfl
      rw [hstatus]
      exact congrArg (fun b => Board.tracked b slot) (p.board_step σ.system.world)

/-! ## The memory after an action -/

/-- A slot has no other relay than that of its handle, so any other one tells it nothing. -/
theorem Sound.signal?_relay_of_ne (hs : σ.Sound) {a : Activation} (ha : σ.activation? = some a) {h : RelayHandle}
    (hh : h ∈ a.relays) (hslot : h.key.slot = slot) {i : Nat} {p : Relay}
    (ht : σ.system.acting i = some ⟨i, .relay p⟩) (hne : i ≠ h.task) :
    (Producer.relay p).signal? slot σ.system.world = none := by
  have hwell := hs.wellFormed a ha
  cases hg : σ.system.world.latches.isClosed p.writer.gate with
  | true => exact Producer.signal?_of_closed hg
  | false =>
    obtain ⟨b, k, hb, hk, rfl, hwriter⟩ := hs.exists_handle ht hg
    obtain rfl : b = a := Option.some.inj (hb.symm.trans ha)
    refine Producer.signal?_of_ne rfl ?_
    intro hpslot
    have hsame : k.writer.slot = h.writer.slot := by rw [hwell.keySlot h hh, ← hwriter, hpslot, hslot]
    have hposts := hwell.eq_of_slot (Activation.mem_posts_relay hk) (Activation.mem_posts_relay hh) hsame
    exact hne (congrArg Prod.fst hposts)

/-- Another producer than the relay reports to it exactly what it tells the slot. -/
theorem Shows.recalls_of_other (f : σ.Shows slot l) (hs : σ.Sound) {a : Activation} (ha : σ.activation? = some a)
    {h : RelayHandle} (hh : h ∈ a.relays) (hslot : h.key.slot = slot) {i : Nat} {t : Task}
    (ht : σ.system.acting i = some t) (hne : i ≠ h.task) :
    (σ.system.act i).Recalls h
      ((t.producer.signal? slot σ.system.world).elim l.memory fun x => (l.learn x).memory) := by
  have hother := (f.relay a ha h hh hslot).act_other ht hne
  rw [Producer.step_reports] at hother
  obtain ⟨hm, hid, -⟩ := System.mem_of_acting ht
  obtain ⟨j, producer⟩ := t
  obtain rfl : j = i := hid
  cases producer with
  | sampler p =>
    cases hx : (Producer.sampler p).signal? slot σ.system.world with
    | none => exact hother
    | some x =>
      obtain rfl := Producer.signal?_sampler hx
      exact hother
  | relay p =>
    rw [hs.signal?_relay_of_ne ha hh hslot ht hne]
    exact hother
  | inquiry p =>
    rw [Producer.signal?_inquiry]
    cases hl : (Producer.inquiry p).learns? σ.system.world with
    | none =>
      rw [hl] at hother
      exact hother
    | some answer =>
      cases answer with
      | error failure =>
        rw [hl] at hother
        exact hother
      | ok x =>
        have hrole := (hs.seen_learns? ha ht).2 (by rw [hl]; exact Option.some_ne_none _)
        rw [hl, hrole] at hother
        simp only [Producer.Role.reconcilers, (hs.wellFormed a ha).countP_addressees_eq hh] at hother
        have habsent : slot ∈ x.absent.map Setting.slot ↔ (x.get h.key).isNone = true := by
          rw [← hslot]
          exact x.slot_mem_absent h.key
        by_cases hy : (x.get h.key).isNone = true
        · rw [if_pos hy] at hother
          simp only [habsent.2 hy, if_true]
          exact hother
        · rw [if_neg hy] at hother
          simp only [mt habsent.1 hy, if_false]
          exact hother

theorem Shows.recalls_after (f : σ.Shows slot l) (hs : σ.Sound) {a : Activation} (ha : σ.activation? = some a)
    {h : RelayHandle} (hh : h ∈ a.relays) (hslot : h.key.slot = slot) {i : Nat} {t : Task}
    (ht : σ.system.acting i = some t) :
    (σ.system.act i).Recalls h
      ((t.producer.signal? slot σ.system.world).elim l.memory fun x => (l.learn x).memory) := by
  by_cases hi : i = h.task
  · subst hi
    have hg := ((hs.running a ha).posts _ (Activation.mem_posts_relay hh)).2
    have hself := (f.relay a ha h hh hslot).act_self hs.numbered ht hg
    obtain ⟨p, rfl, -, hwriter, -⟩ := (f.relay a ha h hh hslot).of_acting hs.numbered ht
    have hsignal : (Producer.relay p).signal? slot σ.system.world =
        some (.turn σ.system.world.store.isOpen) := by
      have hopen : σ.system.world.latches.isClosed (Producer.relay p).role.gate = false := by
        rw [Producer.role, Producer.Role.gate, hwriter]
        exact hg
      have hpslot : p.writer.slot = slot := by rw [hwriter, (hs.wellFormed a ha).keySlot h hh, hslot]
      simp [Producer.signal?, hopen, hpslot]
    have hvalue : l.value = σ.system.world.store.get h.key := by
      rw [← f.value, ← hslot, Setting.Store.valueOf_slot]
    rw [hsignal, Option.elim_some, Slot.Lane.learn, hvalue]
    exact hself
  · exact f.recalls_of_other hs ha hh hslot ht hi

theorem Shows.act (f : σ.Shows slot l) (hs : σ.Sound)
    (hf : ∀ t ∈ σ.system.tasks, t.producer.role.FallsBack) {i : Nat} {t : Task}
    (ht : σ.system.acting i = some t) :
    (σ.after (.act i)).Shows slot
      ((t.producer.signal? slot σ.system.world).toList.foldr (Slot.Lane.next slot) l) := by
  have htracked := f.tracked_act hs hf ht
  have hvalue : (σ.after (.act i)).system.world.store.valueOf slot = l.value :=
    (valueOf_congr fun key _ => congrFun (σ.system.kept_act i).channel key).trans f.value
  have hrelay (a : Activation) (ha : (σ.after (.act i)).activation? = some a) (h : RelayHandle)
      (hh : h ∈ a.relays) (hslot : h.key.slot = slot) :=
    f.recalls_after hs (a := a) ha hh hslot ht
  cases hx : t.producer.signal? slot σ.system.world with
  | none =>
    rw [hx] at htracked hrelay
    refine ⟨?_, hvalue, f.isActive, hrelay⟩
    rw [State.content, htracked]
    exact f.content
  | some x =>
    rw [hx] at htracked hrelay
    obtain ⟨hsame, hactive⟩ := Producer.learn_signal? hx l
    have hnext : (some x).toList.foldr (Slot.Lane.next slot) l = (l.learn x).put slot (l.status? slot x) := rfl
    rw [hnext]
    refine ⟨?_, ?_, ?_, ?_⟩
    · rw [State.content, htracked]
      exact Tracked.shown_put (f.content.trans (l.shown_learn x)) _ _
    · rw [Slot.Lane.value_put, hsame]
      exact hvalue
    · intro d hd
      rw [Slot.Lane.isActive_put, hactive]
      exact f.isActive d hd
    · intro a ha h hh hslot
      rw [Slot.Lane.memory_put]
      exact hrelay a ha h hh hslot

/-! ## Calls and changes of the surroundings -/

theorem Shows.activate (f : σ.Shows slot l) (hs : σ.Sound) :
    (σ.after .activate).Shows slot (l.next slot .activate) := by
  have hb : (σ.after .activate).board = σ.board := hs.board_after_call (by rintro i ⟨⟩)
  have hcontent : (σ.after .activate).content slot = ((l.learn .activate).current, (l.learn .activate).updates) := by
    rw [← l.shown_learn, State.content, hb]
    exact f.content
  obtain ⟨session, s⟩ := σ
  cases session with
  | none =>
    refine ⟨hcontent, ?_, ?_, ?_⟩
    · have hvalue : (l.learn .activate).value = l.value := by
        cases h : l.isActive <;> simp [Slot.Lane.learn, h]
      exact f.value.trans hvalue.symm
    · rintro d ⟨⟩
    · rintro a ⟨⟩
  | some d =>
    have hactive := f.isActive d rfl
    cases ha : d.activation with
    | some a =>
      have hsame : l.next slot .activate = l := by
        rw [ha] at hactive
        exact if_pos hactive
      rw [hsame, after_activate, activate_of_some s ha]
      exact f.aside rfl (.refl _) rfl fun _ _ => rfl
    | none =>
      rw [after_activate, activate_of_none s ha] at hcontent ⊢
      have hnext : l.next slot .activate = { l with isActive := true, memory := {} } := by
        rw [ha] at hactive
        exact if_neg (by rw [hactive]; exact Bool.false_ne_true)
      have hbegins := d.start_spec s
      obtain ⟨ts, -, hbegun⟩ := hbegins.producers
      refine ⟨hcontent, ?_, ?_, ?_⟩
      · rw [hnext]
        exact (valueOf_congr fun key _ => congrFun hbegun.channel key).trans f.value
      · rintro d' ⟨⟩
        rw [hnext]
        rfl
      · intro a ha' h hh hslot
        obtain rfl : (d.start s).1 = a := Option.some.inj ha'
        rw [hnext]
        exact System.recalls_of_begins hbegins hh

/-- The end of an activation: the slot stays as it is, and nobody is left to write it. -/
theorem Shows.ends (f : σ.Shows slot l) (hb : τ.board = σ.board)
    (hc : τ.system.world.store.channel = σ.system.world.store.channel) (ha : τ.activation? = none)
    {active : Bool} (hactive : ∀ d, τ.session = some d → active = false) :
    τ.Shows slot { l with isActive := active } where
  content := by
    rw [State.content, hb]
    exact f.content
  value := (valueOf_congr fun key _ => congrFun hc key).trans f.value
  isActive d hd := by
    have hnone : d.activation = none := by
      rw [activation?, hd] at ha
      exact ha
    rw [hnone, hactive d hd]
    rfl
  relay a ha' := absurd (ha'.symm.trans ha) (Option.some_ne_none a)

theorem Shows.deactivate (f : σ.Shows slot l) (hs : σ.Sound) :
    (σ.after .deactivate).Shows slot (l.next slot .deactivate) := by
  refine f.ends (hs.board_after_call (by rintro i ⟨⟩)) ?_ (σ.activation?_after_end (.inl rfl)) fun _ _ => rfl
  obtain ⟨session, s⟩ := σ
  cases session with
  | none => rfl
  | some d =>
    rw [after_deactivate]
    cases ha : d.activation with
    | none => rw [deactivate_of_none s ha]; rfl
    | some a =>
      rw [deactivate_of_some s ha]
      exact congrArg Setting.Store.channel (s.store_retire a)

theorem Shows.drop (f : σ.Shows slot l) (hs : σ.Sound) : (σ.after .drop).Shows slot l := by
  refine f.ends (hs.board_after_call (by rintro i ⟨⟩)) ?_ (σ.activation?_after_end (.inr rfl)) ?_
  · obtain ⟨session, s⟩ := σ
    cases session with
    | none => rfl
    | some d =>
      rw [after_drop]
      cases ha : d.activation with
      | none =>
        rw [drop_of_none s ha]
        exact (World.kept_releaseStore _).channel
      | some a =>
        rw [drop_of_some s ha]
        exact (World.kept_releaseStore _).channel
  · intro d hd
    obtain ⟨session, s⟩ := σ
    cases session with
    | none => exact absurd hd (Option.some_ne_none d).symm
    | some d' => exact absurd hd (Option.some_ne_none d).symm

theorem Shows.onWorld (f : σ.Shows slot l) (g : World → World)
    (hb : (g σ.system.world).board = σ.system.world.board)
    (hc : ∀ key : Setting, key.slot = slot →
      (g σ.system.world).store.channel key = σ.system.world.store.channel key) :
    (σ.onWorld g).Shows slot l :=
  f.aside rfl (σ.system.tasks_onWorld g) hb hc

theorem Shows.setting (f : σ.Shows slot l) (key : Setting) (value : Option String) :
    (σ.after (.setting key value)).Shows slot
      ((signal? slot σ (.setting key value)).toList.foldr (Slot.Lane.next slot) l) := by
  by_cases hslot : key.slot = slot
  · subst hslot
    rw [signal?, if_pos rfl]
    refine ⟨f.content, ?_, f.isActive, ?_⟩
    · rw [Setting.Store.valueOf_slot]
      exact Setting.Store.get_set_self _ _ _
    · intro a ha h hh hk
      obtain rfl := Setting.slot_injective hk
      exact (f.relay a ha h hh hk).setSetting value
  · rw [signal?, if_neg hslot]
    refine f.onWorld _ rfl ?_
    intro k hk
    exact Setting.Store.channel_withChannel_ne _ _ fun h => hslot (h ▸ hk)

/-! ## Runs -/

theorem Shows.after (f : σ.Shows slot l) (hs : σ.Sound)
    (hf : ∀ t ∈ σ.system.tasks, t.producer.role.FallsBack) (e : Event) :
    (σ.after e).Shows slot ((signal? slot σ e).toList.foldr (Slot.Lane.next slot) l) := by
  cases e with
  | activate => exact f.activate hs
  | deactivate => exact f.deactivate hs
  | drop => exact f.drop hs
  | act i =>
    cases ht : σ.system.acting i with
    | none =>
      rw [signal?, ht, State.after, System.act_of_none ht]
      exact f
    | some t =>
      rw [signal?, ht]
      exact f.act hs hf ht
  | clock t => exact f.onWorld _ rfl fun _ _ => rfl
  | setting key value => exact f.setting key value
  | sources sources => exact f.onWorld _ rfl fun _ _ => rfl
  | responder responder => exact f.onWorld _ rfl fun _ _ => rfl
  | releaseStore => exact f.onWorld _ rfl fun key _ => congrFun (World.kept_releaseStore _).channel key

/-- After a run a slot is where its signals have brought it. -/
theorem IsNew.shows_run (h : σ.IsNew) (slot : Slot) (es : List Event) :
    (σ.run es).Shows slot ((trace slot σ es).foldr (Slot.Lane.next slot) (σ.lane slot)) := by
  induction es with
  | nil => exact h.shows slot
  | cons e es ih =>
    have hf := fallsBack_run (σ := σ) (by simp [h.tasks]) es
    rw [trace, List.foldr_append]
    exact ih.after ((Sound.of_isNew h).run es) hf e

end Session.State
end Dashboard
