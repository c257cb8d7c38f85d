import Dashboard.Proofs.Session.Custody

/-! # Histories of producers

What a relay handles and what an inquiry learns is read off a run event by event. An action of one producer reaches the
relay of another number through its mailbox only.

* `Producer.handles?`, `Producer.learns?`: what a producer does with its next action, seen from outside.
* `Producer.step_reports`: only an inquiry that learns a snapshot reports, and to its own reconcilers.
* `Session.State.history`: what one producer did in a run, with the latest first.
* `System.mem_act_of_other`, `System.mem_act_of_self`: the relay of a number after an action.
* `Session.State.activation?_of_stored`: an activation that is stored was stored ever since its start.
-/

namespace Dashboard
set_option autoImplicit false

/-! ## What producers do -/

/-- The event that a relay handles with its next action, unless that is its last one. -/
def Producer.handles? (w : World) : Producer → Option Relay.Event
  | .relay p => if p.started && w.latches.isClosed p.writer.gate then none else some (p.due w)
  | _ => none

/-- What an inquiry learns with its next action, if that gives an answer. -/
def Producer.learns? (w : World) : Producer → Option (Except Failure Setting.Snapshot)
  | .inquiry p =>
    if w.latches.isClosed p.gate || p.resolvesAt.isNone then none else some (w.responder.answer w.store)
  | _ => none

def Producer.Role.reconcilers : Producer.Role → List Reconciler
  | .inquiry _ rs => rs
  | _ => []

namespace Producer
variable {w : World} {p : Producer}

/-- The reports of an action are what a snapshot that is learned by it says. -/
theorem step_reports (w : World) (p : Producer) : (p.step w).2.2 =
    match p.learns? w with
    | some (.ok s) => Inquiry.addressees s p.role.reconcilers
    | _ => [] := by
  cases p with
  | sampler p => rfl
  | relay p => rfl
  | inquiry p =>
    cases hg : w.latches.isClosed p.gate with
    | true => simp [step, Inquiry.step, learns?, hg]
    | false =>
      cases hr : p.resolvesAt with
      | none => simp [step, Inquiry.step, learns?, hg, hr]
      | some t =>
        cases ha : w.responder.answer w.store with
        | error failure => simp [step, Inquiry.step, Inquiry.resolve, learns?, hg, hr, ha]
        | ok s => simp [step, Inquiry.step, Inquiry.resolve, learns?, role, Role.reconcilers, hg, hr, ha]

theorem step_of_learns? {x : Except Failure Setting.Snapshot} (h : p.learns? w = some x) :
    (p.step w).2.1 = none := by
  cases p with
  | sampler p => exact absurd h (Option.some_ne_none x).symm
  | relay p => exact absurd h (Option.some_ne_none x).symm
  | inquiry p =>
    cases hg : w.latches.isClosed p.gate with
    | true => simp [learns?, hg] at h
    | false =>
      cases hr : p.resolvesAt with
      | none => simp [learns?, hg, hr] at h
      | some t => simp [step, Inquiry.step, hg, hr]

theorem learns?_of_closed (h : w.latches.isClosed p.role.gate = true) : p.learns? w = none := by
  cases p with
  | sampler p => rfl
  | relay p => rfl
  | inquiry p =>
    have hg : w.latches.isClosed p.gate = true := h
    simp [learns?, hg]

theorem learns?_of_writer? {x : Writer} (h : p.role.writer? = some x) : p.learns? w = none := by
  cases p with
  | sampler p => rfl
  | relay p => rfl
  | inquiry p => exact absurd h (Option.some_ne_none x).symm

end Producer

/-! ## The relay of a number -/

namespace System
variable {s : System} {i j : Nat} {p : Relay}

/-- An action of another producer reaches a relay through its mailbox only. -/
theorem mem_act_of_other (hm : ⟨i, .relay p⟩ ∈ s.tasks) {t : Task} (ht : s.acting j = some t)
    (hne : j ≠ i) :
    ⟨i, .relay { p with reports := p.reports +
      (t.producer.step s.world).2.2.countP fun r => r.relay = i }⟩ ∈ (s.act j).tasks := by
  have hid : i ≠ t.id := by
    rw [(mem_of_acting ht).2.1]
    exact hne.symm
  rw [(acted ht).tasks.mem_iff, ← Task.receiveAll_relay]
  exact List.mem_map_of_mem (mem_afterStep.2 (.inr ⟨hm, hid⟩))

theorem mem_act_of_self (ht : s.acting i = some ⟨i, .relay p⟩)
    (ho : p.started = false ∨ s.world.latches.isClosed p.writer.gate = false) :
    ⟨i, .relay (p.handle (p.due s.world) s.world).2⟩ ∈ (s.act i).tasks ∧
      ∃ journal, (s.act i).world = { (p.handle (p.due s.world) s.world).1 with journal } := by
  obtain ⟨hp, -, hw⟩ := acted ht
  have hstep : Producer.step s.world (.relay p) =
      ((p.handle (p.due s.world) s.world).1, some (.relay (p.handle (p.due s.world) s.world).2), []) := by
    simp [Producer.step, Relay.step_of_open ho]
  rw [hstep] at hp hw
  refine ⟨?_, hw⟩
  rw [hp.mem_iff]
  exact List.mem_map_of_mem (mem_afterStep.2 (.inl ⟨_, rfl, rfl⟩))

theorem ne_of_mem_act {t u : Task} (ht : s.acting j = some t)
    (hend : (t.producer.step s.world).2.1 = none) (hu : u ∈ (s.act j).tasks) : u.id ≠ j := by
  obtain ⟨x, hx, rfl⟩ := List.mem_map.1 ((acted ht).tasks.mem_iff.1 hu)
  rw [Task.id_receiveAll, ← (mem_of_acting ht).2.1]
  rcases mem_afterStep.1 hx with ⟨q, hq, -⟩ | ⟨-, hne⟩
  · exact absurd (hq.symm.trans hend) (Option.some_ne_none q)
  · exact hne

end System

/-! ## Histories -/

namespace Session.State

/-- What the producer of a number does in one event, if that is its action. -/
def seen {α : Type} (f : World → Producer → Option α) (i : Nat) (σ : State) : Event → Option α
  | .act j => if j = i then (σ.system.acting i).bind fun t => f σ.system.world t.producer else none
  | _ => none

/-- What the producer of a number did in a run, with the latest first. -/
def history {α : Type} (f : World → Producer → Option α) (i : Nat) (σ : State) : List Event → List α
  | [] => []
  | e :: past => (seen f i (σ.run past) e).toList ++ history f i σ past

variable {σ : State}

/-- A producer is seen to do something in its own actions only. -/
theorem seen_of_ne {α : Type} (f : World → Producer → Option α) (σ : State) {i : Nat} {e : Event}
    (he : e ≠ .act i) : seen f i σ e = none := by
  unfold seen
  split
  · exact if_neg fun hj => he (congrArg Event.act hj)
  · rfl

theorem seen_self {α : Type} (f : World → Producer → Option α) (i : Nat) (σ : State) :
    seen f i σ (.act i) = (σ.system.acting i).bind fun t => f σ.system.world t.producer := if_pos rfl

/-- Whoever acts, what is learned is learned by the inquiry of the stored activation. -/
theorem Sound.seen_learns? (h : σ.Sound) {a : Activation} (ha : σ.activation? = some a) {j : Nat}
    {t : Task} (ht : σ.system.acting j = some t) :
    seen Producer.learns? a.inquiry σ (.act j) = t.producer.learns? σ.system.world ∧
      (t.producer.learns? σ.system.world ≠ none →
        t.producer.role = .inquiry a.gate (a.relays.map RelayHandle.reconciler)) := by
  obtain ⟨hm, hid, -⟩ := System.mem_of_acting ht
  by_cases hj : j = a.inquiry
  · subst hj
    exact ⟨by rw [seen_self, ht, Option.bind_some], fun _ => (h.running a ha).inquiry t hm hid⟩
  · have hnone : t.producer.learns? σ.system.world = none := by
      rcases h.held t hm with hc | ⟨b, hb, hi⟩
      · exact Producer.learns?_of_closed hc
      · obtain rfl : b = a := Option.some.inj (hb.symm.trans ha)
        rcases (h.running b ha).cases h.numbered hm hi with
          ⟨x, -, -, source, period, fallback, hrole⟩ | ⟨x, -, -, hrole⟩ | ⟨hinquiry, -⟩
        · exact Producer.learns?_of_writer? (x := x.writer) (by rw [hrole]; rfl)
        · exact Producer.learns?_of_writer? (x := x.writer) (by rw [hrole]; rfl)
        · exact absurd (hid.symm.trans hinquiry) hj
    rw [hnone]
    exact ⟨seen_of_ne _ _ fun h => hj (Event.act.inj h), fun hne => absurd rfl hne⟩

theorem activation?_of_stored (hs : σ.Sound) {a : Activation} (ha : σ.activation? = some a) {e : Event}
    {es : List Event} (h : (σ.run (e :: es)).activation? = some a) :
    (σ.run es).activation? = some a := by
  have he : Happens (σ.run es) (σ.run (e :: es)) e := happens_after _ e
  cases he with
  | act i hs' hsame => exact hsame ▸ h
  | aside hs' hl hsame => exact hsame ▸ h
  | begins b hn hb hs' =>
    obtain rfl : b = a := Option.some.inj (hb.symm.trans h)
    have hi := b.inquiry_mem_tasks
    have hlt := (hs.running b ha).lt _ hi
    rw [hs'.tasks_eq, List.mem_range'_1] at hi
    have hle := nextId_le_run σ es
    omega
  | ends b _ hb hn ns hns hs' => exact absurd (h.symm.trans hn) (Option.some_ne_none a)

theorem closes_of_stored {a : Activation} {e : Event} (he : ∀ j, e ≠ .act j)
    (ha : σ.activation? = some a) (h : (σ.after e).activation? = some a) :
    σ.system.Closes [] (σ.after e).system := by
  cases σ.happens_after e with
  | act i hs hsame => exact absurd rfl (he i)
  | aside hs hl hsame => exact hs
  | begins b hn hb hs => exact absurd (ha.symm.trans hn) (Option.some_ne_none a)
  | ends b _ hb hn ns hns hs => exact absurd (h.symm.trans hn) (Option.some_ne_none a)

/-- A setting is set by its own event only, and that gives it a new version. -/
theorem channel_of_stored {a : Activation} {e : Event} (he : ∀ j, e ≠ .act j)
    (ha : σ.activation? = some a) (h : (σ.after e).activation? = some a) (key : Setting) :
    (σ.after e).system.world.store.channel key = σ.system.world.store.channel key ∨
      (σ.system.world.store.channel key).version <
        ((σ.after e).system.world.store.channel key).version := by
  obtain ⟨session, s⟩ := σ
  cases e with
  | act j => exact absurd rfl (he j)
  | activate =>
    cases session with
    | none => exact .inl rfl
    | some d =>
      rw [after_activate, activate_of_some s ha]
      exact .inl rfl
  | deactivate =>
    rw [activation?_after_end _ (.inl rfl)] at h
    exact absurd h (Option.some_ne_none a).symm
  | drop =>
    rw [activation?_after_end _ (.inr rfl)] at h
    exact absurd h (Option.some_ne_none a).symm
  | clock t => exact .inl rfl
  | setting k value =>
    by_cases hk : key = k
    · subst hk
      exact .inr (by simp [after, onWorld, System.onWorld, World.setSetting, Setting.Store.set])
    · exact .inl (Setting.Store.channel_withChannel_ne _ _ hk)
  | sources sources => exact .inl rfl
  | responder responder => exact .inl rfl
  | releaseStore => exact .inl (congrFun (World.kept_releaseStore _).channel key)

end Session.State
end Dashboard
