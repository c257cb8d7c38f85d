import Dashboard.Proofs.World.Writing
import Dashboard.Producer.Sampler

/-! # What one action of a sampler may do

* `Sampler.record_eq`: an outcome makes notices, and then writes at most one status.
* `Sampler.kept_step`, `Sampler.written_step`: an action writes at most once, through the writer of the sampler.
* `Sampler.phase_step`: what the sampler does next.
* `Sampler.isClosed_of_last`: only a closed gate ends a sampler, whatever the outcomes of its samples are.
-/

namespace Dashboard.Sampler
set_option autoImplicit false

variable (outcome : Except Failure Status) (w : World) (p : Sampler)

/-- The world in which the notices of an outcome were made, and its status if it has one to write. -/
theorem record_eq : ∃ v, World.Kept w v ∧ v.board = w.board ∧
    ((p.record outcome w).1 = v ∨ ∃ s, (p.record outcome w).1 = (v.write p.writer s).2) := by
  cases outcome with
  | ok status =>
    let v := if 0 < p.failures then w.note (.recovered p.name p.failures) else w
    refine ⟨v.note (.sampled p.name status), ?_, ?_, .inr ⟨status, rfl⟩⟩
    · by_cases h : 0 < p.failures
      · simp only [v, h, if_true]
        exact ⟨rfl, rfl, rfl⟩
      · simp only [v, h, if_false]
        exact ⟨rfl, rfl, rfl⟩
    · by_cases h : 0 < p.failures
      · simp only [v, h, if_true]
        rfl
      · simp only [v, h, if_false]
        rfl
  | error failure =>
    refine ⟨w.note (.sampleFailed p.name (p.failures + 1) failure), World.kept_note _ _, rfl, ?_⟩
    cases h : p.fallback.status? with
    | none => exact .inl (by simp [record, h])
    | some s => exact .inr ⟨s, by simp [record, h]⟩

theorem kept_record : World.Kept w (p.record outcome w).1 := by
  obtain ⟨v, hk, -, h | ⟨s, h⟩⟩ := p.record_eq outcome w
  · rw [h]
    exact hk
  · rw [h]
    exact hk.trans (v.kept_write p.writer s)

theorem written_record : World.Written p.writer w (p.record outcome w).1 := by
  obtain ⟨v, hk, hb, h | ⟨s, h⟩⟩ := p.record_eq outcome w
  · exact .of_eq (by rw [h, hb])
  · rw [h]
    exact .of_kept hk hb (v.written_write p.writer s)

theorem record_snd : ∃ n, (p.record outcome w).2 = { p with failures := n } := by
  cases outcome with
  | ok status => exact ⟨0, rfl⟩
  | error failure => exact ⟨p.failures + 1, rfl⟩

theorem kept_step : World.Kept w (p.step w).1 := by
  unfold step
  split
  · exact .refl w
  · split
    · exact w.kept_note _
    · exact w.kept_beginSample p.source
  · exact (w.kept_finishSample p.source).trans (p.kept_record _ _)

theorem written_step : World.Written p.writer w (p.step w).1 := by
  unfold step
  split
  · exact .of_eq rfl
  · split
    · exact .of_eq rfl
    · exact .of_eq (w.board_beginSample p.source)
  · exact .of_kept (w.kept_finishSample p.source) (w.board_finishSample p.source) (p.written_record _ _)

theorem step_snd {w : World} {p q : Sampler} (h : (p.step w).2 = some q) :
    ∃ n ph, q = { p with failures := n, phase := ph } := by
  revert h
  unfold step
  split
  · intro h
    exact ⟨p.failures, _, (Option.some.inj h).symm⟩
  · split
    · intro h
      exact absurd h (Option.some_ne_none q).symm
    · intro h
      exact ⟨p.failures, _, (Option.some.inj h).symm⟩
  · rename_i due _
    intro h
    obtain ⟨n, hn⟩ := p.record_snd (w.finishSample p.source).1 (w.finishSample p.source).2
    exact ⟨n, .resting due, by rw [← Option.some.inj h]; simp only [hn]⟩

section ready
variable {w : World} {p : Sampler} {due ends : Nat}

theorem isReady_fresh (hp : p.phase = .fresh) : p.isReady w = true := by
  rw [isReady, hp]

theorem isReady_resting (hp : p.phase = .resting due) :
    p.isReady w = (w.latches.isClosed p.writer.gate || decide (due ≤ w.now)) := by
  rw [isReady, hp]

theorem isReady_sampling (hp : p.phase = .sampling ends due) : p.isReady w = decide (ends ≤ w.now) := by
  rw [isReady, hp]

end ready

/-- What a sampler does after an action, by what it did before. -/
theorem phase_step {w : World} {p q : Sampler} (h : (p.step w).2 = some q) :
    q.phase = match p.phase with
      | .fresh => .resting w.now
      | .resting due =>
        .sampling (w.now + (w.beginSample p.source).1) (Ticker.next p.period due w.now)
      | .sampling _ due => .resting due := by
  cases hp : p.phase with
  | fresh =>
    simp only [step, hp, Option.some.injEq] at h
    rw [← h]
  | resting due =>
    cases hg : w.latches.isClosed p.writer.gate with
    | true => simp [step, hp, hg] at h
    | false =>
      simp only [step, hp, hg, Bool.false_eq_true, if_false, Option.some.injEq] at h
      rw [← h, (w.kept_beginSample p.source).now]
  | sampling ends due =>
    simp only [step, hp, Option.some.injEq] at h
    rw [← h]

/-- An action ends a sampler exactly if it rests and its gate is closed. -/
theorem step_snd_eq_none_iff (w : World) (p : Sampler) : (p.step w).2 = none ↔
    (∃ due, p.phase = .resting due) ∧ w.latches.isClosed p.writer.gate = true := by
  unfold step
  cases p.phase with
  | fresh => simp
  | resting due => cases hg : w.latches.isClosed p.writer.gate <;> simp
  | sampling ends due => simp

/-- No outcome ends a sampler: its last action finds its gate closed. -/
theorem isClosed_of_last {w : World} {p : Sampler} (h : (p.step w).2 = none) :
    w.latches.isClosed p.writer.gate = true :=
  ((p.step_snd_eq_none_iff w).1 h).2

theorem exists_next {w : World} {p : Sampler} (hg : w.latches.isClosed p.writer.gate = false) :
    ∃ q, (p.step w).2 = some q := by
  rw [← Option.ne_none_iff_exists']
  intro hnone
  rw [isClosed_of_last hnone] at hg
  exact absurd hg Bool.false_ne_true.symm

end Dashboard.Sampler
