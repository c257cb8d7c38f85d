import Dashboard.Proofs.Producer.Role

/-! # The load of a producer

At one moment a producer has only so many actions before it rests. Its load bounds them: each action lowers it, by more
than the number of reports that the action makes. As time passes, a producer at rest stays at rest until it is due.

* `Producer.Role.isPeriodic`: a sampler with a period of nothing would never rest.
* `Sampler.load_step`, `Relay.load_step`, `Inquiry.load_step`, `Producer.load_step`: an action lowers the load.
* `Producer.load_withReport_le`: a report raises it by one at most.
* `Producer.isReady_later`, `Producer.isReady_of_due`: a producer at rest can act again when it is due, and not before.
-/

namespace Dashboard
set_option autoImplicit false

/-! ## Samplers -/

namespace Sampler
variable {w v : World} {p q : Sampler}

theorem load_of_kept (h : World.Kept w v) (p : Sampler) : p.load v = p.load w := by
  simp only [load, h.now]

/-- The deadline after a sample lies a period later, so only so many samples begin at one moment. -/
theorem load_step (hp : 0 < p.period) (hr : p.isReady w = true) (hq : (p.step w).2 = some q) :
    q.load w < p.load w := by
  have hphase := phase_step hq
  cases h : p.phase with
  | fresh =>
    rw [h] at hphase
    simp only [load, h, hphase]
    omega
  | resting due =>
    rw [h] at hphase
    have hopen : w.latches.isClosed p.writer.gate = false := by
      rw [← Bool.not_eq_true]
      intro hc
      have hnone := (p.step_snd_eq_none_iff w).2 ⟨⟨due, h⟩, hc⟩
      exact Option.some_ne_none q (hq.symm.trans hnone)
    have hdue : due ≤ w.now := by simpa [isReady_resting h, hopen] using hr
    have hnext := Ticker.le_next p.period due w.now
    simp only [load, h, hphase]
    omega
  | sampling ends due =>
    rw [h] at hphase
    simp only [load, h, hphase]
    omega

theorem load_pos (p : Sampler) (w : World) : 0 < p.load w := by
  unfold load
  split <;> omega

end Sampler

/-! ## Relays -/

namespace Relay
variable {w v : World} {p q : Relay}

theorem hasNews_of_kept (h : World.Kept w v) (p : Relay) : p.hasNews v = p.hasNews w := by
  rw [hasNews, hasNews, h.channel]

theorem load_of_kept (h : World.Kept w v) (p : Relay) : p.load v = p.load w := by
  rw [load, load, hasNews_of_kept h]

/-- A relay that has caught up has no news. -/
theorem load_push (value : Option String) (w : World) (p : Relay) :
    (p.handle (.push value) w).2.load w = p.reports + 1 + (if p.watching then 1 else 0) := by
  rw [handle_push_snd]
  simp [load, hasNews]

/-- A relay that has lost the store waits for reports only. -/
theorem load_closing (w : World) (p : Relay) :
    (p.handle .closing w).2.load w = p.reports + (if p.started then 1 else 4) := rfl

theorem load_absent (w : World) (p : Relay) :
    (p.handle .absent w).2.load w + p.reports = p.load w + (p.reports - 1) := by
  have hafter : (p.handle .absent w).2.load w = p.reports - 1 + (if p.started then 1 else 4) +
      (if p.hasNews w then 1 else 0) + (if p.watching then 1 else 0) := rfl
  rw [hafter, load]
  omega

theorem load_step (hr : p.isReady w = true) (hq : (p.step w).2 = some q) : q.load w < p.load w := by
  have hgo : ¬(p.started = true ∧ w.latches.isClosed p.writer.gate = true) := by
    rw [← step_snd_eq_none_iff, hq]
    exact Option.some_ne_none q
  rcases p.step_cases w with ⟨hs, hg, -⟩ | hstep
  · exact absurd ⟨hs, hg⟩ hgo
  obtain rfl : (p.handle (p.due w) w).2 = q := Option.some.inj ((congrArg Prod.snd hstep).symm.trans hq)
  cases hs : p.started with
  | false =>
    have hdue : p.due w = .push (w.store.channel p.key).value := by simp [due, hs]
    rw [hdue, load_push, load, hs, if_neg Bool.false_ne_true]
    omega
  | true =>
    cases hn : p.hasNews w with
    | true =>
      have hdue : p.due w = .push (w.store.channel p.key).value := by simp [due, hn]
      rw [hdue, load_push, load, hs, hn]
      simp
    | false =>
      cases hl : p.hasLost w with
      | true =>
        have hwatching : p.watching = true := (Bool.and_eq_true _ _ ▸ hl).1
        have hdue : p.due w = .closing := by simp [due, hs, hn, hl]
        rw [hdue, load_closing, load, hs, hn, hwatching]
        simp
      | false =>
        have hopen : w.latches.isClosed p.writer.gate = false := by simpa [hs] using hgo
        have hreports : 0 < p.reports := by simpa [isReady, hs, hn, hl, hopen] using hr
        have hdue : p.due w = .absent := by simp [due, hs, hn, hl, hreports]
        have habsent := load_absent w p
        rw [hdue]
        omega

theorem load_pos (p : Relay) (w : World) : 0 < p.load w := by
  unfold load
  split <;> omega

end Relay

/-! ## Inquiries -/

namespace Inquiry
variable (w : World) (p : Inquiry)

theorem length_resolve : (p.resolve w).2.length ≤ p.reconcilers.length := by
  unfold resolve
  split
  · exact Nat.zero_le _
  · exact List.length_filter_le _ _

/-- The reports that an answer makes were part of the load of the inquiry. -/
theorem load_step : (p.step w).2.1.elim 0 load + (p.step w).2.2.length < p.load := by
  unfold step
  split
  · exact Nat.lt_of_lt_of_le (by split <;> exact Nat.succ_pos _) (Nat.le_add_left _ _)
  · cases h : p.resolvesAt with
    | none =>
      simp only [Option.elim_some, load, h]
      simp
    | some t =>
      have hle := p.length_resolve w
      simp only [Option.elim_none, load, h]
      simp
      omega

end Inquiry

/-! ## All producers -/

namespace Producer

/-- A sampler in this role has a period, so that the time of its next sample comes. -/
def Role.isPeriodic : Role → Bool
  | .sampler _ period _ _ => decide (0 < period)
  | _ => true

variable {w v : World} {p : Producer}

theorem load_of_kept (h : World.Kept w v) (p : Producer) : p.load v = p.load w := by
  cases p with
  | sampler p => exact p.load_of_kept h
  | relay p => exact p.load_of_kept h
  | inquiry p => rfl

/-- An action lowers the load by more than the number of its reports. -/
theorem load_step (hp : p.role.isPeriodic = true) (hr : p.isReady w = true) :
    (p.step w).2.1.elim 0 (load w) + (p.step w).2.2.length < p.load w := by
  cases p with
  | sampler p =>
    have hstep : ((Producer.sampler p).step w).2 = ((p.step w).2.map .sampler, []) := rfl
    rw [hstep]
    cases hq : (p.step w).2 with
    | none => exact p.load_pos w
    | some q => exact p.load_step (of_decide_eq_true hp) hr hq
  | relay p =>
    have hstep : ((Producer.relay p).step w).2 = ((p.step w).2.map .relay, []) := rfl
    rw [hstep]
    cases hq : (p.step w).2 with
    | none => exact p.load_pos w
    | some q => exact p.load_step hr hq
  | inquiry p =>
    have hload := p.load_step w
    have hstep : ((Producer.inquiry p).step w).2 = ((p.step w).2.1.map .inquiry, (p.step w).2.2) := rfl
    rw [hstep]
    cases hq : (p.step w).2.1 with
    | none =>
      rw [hq] at hload
      exact hload
    | some q =>
      rw [hq] at hload
      exact hload

theorem load_withReport_le (w : World) (p : Producer) : p.withReport.load w ≤ p.load w + 1 := by
  cases p with
  | sampler p => exact Nat.le_succ _
  | relay p =>
    have hload : (Producer.relay p).withReport.load w = p.reports + 1 + (if p.started then 1 else 4) +
        (if p.hasNews w then 1 else 0) + (if p.watching then 1 else 0) := rfl
    have hbefore : (Producer.relay p).load w = p.load w := rfl
    rw [hload, hbefore, Relay.load]
    omega
  | inquiry p => exact Nat.le_succ _

/-! ## Rest -/

/-- A producer at rest stays at rest until it is due. -/
theorem isReady_later {t : Nat} (h : p.isReady w = false) (hdue : ∀ due, p.dueAt? = some due → t < due) :
    p.isReady { w with now := t } = false := by
  cases p with
  | sampler p =>
    cases hp : p.phase with
    | fresh => exact absurd ((Sampler.isReady_fresh hp).symm.trans h) Bool.false_ne_true.symm
    | resting due =>
      have hlt : t < due := hdue due (by simp [dueAt?, Sampler.dueAt?, hp])
      have hopen : w.latches.isClosed p.writer.gate = false := by
        have hrest : p.isReady w = false := h
        rw [Sampler.isReady_resting hp, Bool.or_eq_false_iff] at hrest
        exact hrest.1
      simp [isReady, Sampler.isReady_resting hp, hopen, hlt]
    | sampling ends due =>
      have hlt : t < ends := hdue ends (by simp [dueAt?, Sampler.dueAt?, hp])
      simp [isReady, Sampler.isReady_sampling hp, hlt]
  | relay p => exact h
  | inquiry p =>
    have hrest : p.isReady w = false := h
    cases hp : p.resolvesAt with
    | none => simp [Inquiry.isReady, hp] at hrest
    | some due =>
      have hlt : t < due := hdue due hp
      have hopen : w.latches.isClosed p.gate = false := by
        simp only [Inquiry.isReady, hp, Bool.or_eq_false_iff] at hrest
        exact hrest.1
      simp [isReady, Inquiry.isReady, hp, hopen, hlt]

theorem isReady_of_due {due : Nat} (h : p.dueAt? = some due) (hle : due ≤ w.now) : p.isReady w = true := by
  cases p with
  | sampler p =>
    have hdue : p.dueAt? = some due := h
    cases hp : p.phase with
    | fresh => exact Sampler.isReady_fresh hp
    | resting d =>
      obtain rfl : d = due := by simpa [Sampler.dueAt?, hp] using hdue
      simp [isReady, Sampler.isReady_resting hp, hle]
    | sampling ends d =>
      obtain rfl : ends = due := by simpa [Sampler.dueAt?, hp] using hdue
      simp [isReady, Sampler.isReady_sampling hp, hle]
  | relay p => exact absurd h (Option.some_ne_none due).symm
  | inquiry p =>
    have hresolves : p.resolvesAt = some due := h
    simp [isReady, Inquiry.isReady, hresolves, hle]

end Producer
end Dashboard
