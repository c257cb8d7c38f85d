import Dashboard.Proofs.Producer.Role

/-! # What producers ask for

A sampler asks its source for a sample, and an inquiry asks for a snapshot. Nobody else asks for anything, and behind a
closed gate nobody does.

* `Source.calls`, `World.sampleCalls`: the samples that were asked for, source by source.
* `Sampler.isSampling`, `Producer.isSampling`: a sample is under way.
* `Producer.isUnasked`: an inquiry that has not asked yet.
* `Producer.calls_step`: an action asks for at most one snapshot, and then the inquiry has asked.
* `Producer.sampleCalls_step_of_closed`, `Producer.isSampling_of_step`: behind a closed gate no sample begins.
-/

namespace Dashboard
set_option autoImplicit false

/-- The samples that a scripted source was asked for. Other sources do not count them. -/
def Source.calls : Source → Nat
  | .scripted s => s.calls
  | _ => 0

theorem Source.calls_finish (s : Source) : s.finish.calls = s.calls := by
  cases s <;> rfl

/-! ## The world -/

namespace World
variable (w : World)

def sampleCalls (w : World) : List Nat := w.sources.map Source.calls

@[simp] theorem sources_write (x : Writer) (status : Status) : (w.write x status).2.sources = w.sources := by
  obtain ⟨m, h⟩ := w.write_eq x status
  rw [h, sources_note]

theorem responder_beginSample (i : Nat) : (w.beginSample i).2.responder = w.responder := by
  unfold beginSample
  split
  · rfl
  · split <;> rfl

theorem responder_finishSample (i : Nat) : (w.finishSample i).2.responder = w.responder := by
  unfold finishSample
  split
  · rfl
  · split <;> rfl

theorem sampleCalls_finishSample (i : Nat) : (w.finishSample i).2.sampleCalls = w.sampleCalls := by
  have hmodify (ss : List Source) (i : Nat) :
      (ss.modify i Source.finish).map Source.calls = ss.map Source.calls := by
    apply List.ext_getElem?
    intro j
    simp only [List.getElem?_map, List.getElem?_modify]
    cases ss[j]? with
    | none => rfl
    | some s => by_cases hj : i = j <;> simp [hj, Source.calls_finish]
  unfold finishSample
  split
  · rfl
  · split <;> exact hmodify _ _

end World

/-! ## Samplers -/

namespace Sampler
variable (outcome : Except Failure Status) (w : World) (p : Sampler)

theorem record_asks_nothing :
    (p.record outcome w).1.sources = w.sources ∧ (p.record outcome w).1.responder = w.responder := by
  cases outcome with
  | ok status =>
    by_cases h : 0 < p.failures
    · simp [record, h]
    · simp [record, h]
  | error failure =>
    cases h : p.fallback.status? with
    | none => simp [record, h]
    | some s => simp [record, h]

theorem responder_step : (p.step w).1.responder = w.responder := by
  unfold step
  split
  · rfl
  · split
    · rfl
    · exact w.responder_beginSample p.source
  · exact (p.record_asks_nothing _ _).2.trans (w.responder_finishSample p.source)

/-- A sample is under way. -/
def isSampling (p : Sampler) : Bool :=
  match p.phase with
  | .sampling .. => true
  | _ => false

theorem isSampling_of_step {w : World} {p q : Sampler} (h : (p.step w).2 = some q)
    (hq : q.isSampling = true) : w.latches.isClosed p.writer.gate = false ∧ p.isSampling = false := by
  cases hp : p.phase with
  | fresh =>
    simp only [step, hp, Option.some.injEq] at h
    subst h
    exact absurd hq Bool.false_ne_true
  | resting due =>
    cases hg : w.latches.isClosed p.writer.gate with
    | true => simp [step, hp, hg] at h
    | false => exact ⟨rfl, by simp [isSampling, hp]⟩
  | sampling ends due =>
    simp only [step, hp, Option.some.injEq] at h
    subst h
    exact absurd hq Bool.false_ne_true

theorem sampleCalls_step_of_closed {w : World} {p : Sampler}
    (h : w.latches.isClosed p.writer.gate = true) : (p.step w).1.sampleCalls = w.sampleCalls := by
  unfold step
  split
  · rfl
  · rw [if_pos h]
    rfl
  · have hrecord := congrArg (List.map Source.calls) (p.record_asks_nothing (w.finishSample p.source).1
      (w.finishSample p.source).2).1
    exact hrecord.trans (w.sampleCalls_finishSample p.source)

end Sampler

/-! ## Relays and inquiries -/

theorem Relay.step_asks_nothing (w : World) (p : Relay) :
    (p.step w).1.sources = w.sources ∧ (p.step w).1.responder = w.responder := by
  have hpush (value : Option String) (w : World) (p : Relay) :
      (p.push value w).1.sources = w.sources ∧ (p.push value w).1.responder = w.responder := by
    cases value with
    | some v => simp [push]
    | none => cases h : p.hasValue <;> simp [push, h]
  rcases p.step_cases w with ⟨-, -, hstep⟩ | hstep
  · rw [hstep]
    exact ⟨rfl, rfl⟩
  · rw [hstep]
    cases p.due w with
    | push value => exact hpush value w _
    | absent => cases h : p.hasValue <;> simp [handle, absent, h]
    | closing => exact ⟨rfl, rfl⟩
    | quiet => exact ⟨rfl, rfl⟩

theorem Inquiry.sources_step (w : World) (p : Inquiry) : (p.step w).1.sources = w.sources := by
  have hresolve : (p.resolve w).1.sources = w.sources := by
    unfold resolve
    split
    · rfl
    · split <;> rfl
  unfold step
  split
  · rfl
  · split
    · rfl
    · exact hresolve

theorem Inquiry.responder_resolve (w : World) (p : Inquiry) : (p.resolve w).1.responder = w.responder := by
  unfold resolve
  split
  · rfl
  · split <;> rfl

/-! ## Producers -/

namespace Producer

def isSampling : Producer → Bool
  | .sampler p => p.isSampling
  | _ => false

/-- An inquiry that has not asked yet. -/
def isUnasked : Producer → Bool
  | .inquiry p => p.resolvesAt.isNone
  | _ => false

@[simp] theorem isSampling_withReport (p : Producer) : p.withReport.isSampling = p.isSampling := by
  cases p <;> rfl

@[simp] theorem isUnasked_withReport (p : Producer) : p.withReport.isUnasked = p.isUnasked := by
  cases p <;> rfl

variable {w : World} {p : Producer}

/-- An action asks for a snapshot only if the inquiry has not asked yet, and then it has asked. -/
theorem calls_step (w : World) (p : Producer) :
    w.responder.calls ≤ (p.step w).1.responder.calls ∧
      (p.step w).1.responder.calls + (p.step w).2.1.toList.countP isUnasked ≤
        w.responder.calls + [p].countP isUnasked := by
  cases p with
  | sampler p =>
    have hnone : ((p.step w).2.map Producer.sampler).toList.countP isUnasked = 0 := by
      cases (p.step w).2 <;> rfl
    have hsame : (step w (.sampler p)).1.responder = w.responder := p.responder_step w
    rw [hsame]
    exact ⟨Nat.le_refl _, Nat.add_le_add_left (Nat.le_of_eq hnone) _⟩
  | relay p =>
    have hnone : ((p.step w).2.map Producer.relay).toList.countP isUnasked = 0 := by
      cases (p.step w).2 <;> rfl
    have hsame : (step w (.relay p)).1.responder = w.responder := (p.step_asks_nothing w).2
    rw [hsame]
    exact ⟨Nat.le_refl _, Nat.add_le_add_left (Nat.le_of_eq hnone) _⟩
  | inquiry p =>
    cases hg : w.latches.isClosed p.gate with
    | true => simp [step, Inquiry.step, hg, World.releaseStore, isUnasked]
    | false =>
      cases hr : p.resolvesAt with
      | none => simp [step, Inquiry.step, hg, hr, Setting.Responder.call, isUnasked]
      | some t =>
        simp [step, Inquiry.step, hg, hr, World.releaseStore, p.responder_resolve w, isUnasked]

theorem sampleCalls_step_of_closed (h : w.latches.isClosed p.role.gate = true) :
    (p.step w).1.sampleCalls = w.sampleCalls := by
  cases p with
  | sampler p => exact Sampler.sampleCalls_step_of_closed h
  | relay p => exact congrArg (List.map Source.calls) (p.step_asks_nothing w).1
  | inquiry p => exact congrArg (List.map Source.calls) (p.sources_step w)

theorem responder_step_of_closed (h : w.latches.isClosed p.role.gate = true) :
    (p.step w).1.responder = w.responder := by
  cases p with
  | sampler p => exact p.responder_step w
  | relay p => exact (p.step_asks_nothing w).2
  | inquiry p =>
    have hg : w.latches.isClosed p.gate = true := h
    simp [step, Inquiry.step, hg, World.releaseStore]

/-- Behind a closed gate a producer can always act, unless it waits for a sample to finish. -/
theorem isReady_of_closed (h : w.latches.isClosed p.role.gate = true) (hp : p.isSampling = false) :
    p.isReady w = true := by
  cases p with
  | sampler p =>
    have hg : w.latches.isClosed p.writer.gate = true := h
    cases hphase : p.phase with
    | fresh => simp [isReady, Sampler.isReady, hphase]
    | resting due => simp [isReady, Sampler.isReady, hphase, hg]
    | sampling ends due => simp [isSampling, Sampler.isSampling, hphase] at hp
  | relay p =>
    have hg : w.latches.isClosed p.writer.gate = true := h
    simp [isReady, Relay.isReady, hg]
  | inquiry p =>
    have hg : w.latches.isClosed p.gate = true := h
    cases hr : p.resolvesAt with
    | none => simp [isReady, Inquiry.isReady, hr]
    | some t => simp [isReady, Inquiry.isReady, hr, hg]

/-- A sample is under way after an action only if it began with this action, behind an open gate. -/
theorem isSampling_of_step {q : Producer} (h : (p.step w).2.1 = some q) (hq : q.isSampling = true) :
    w.latches.isClosed p.role.gate = false ∧ p.isSampling = false := by
  cases p with
  | sampler p =>
    obtain ⟨r, hr, rfl⟩ := Option.map_eq_some_iff.1 h
    exact Sampler.isSampling_of_step hr hq
  | relay p =>
    obtain ⟨r, hr, rfl⟩ := Option.map_eq_some_iff.1 h
    exact absurd hq Bool.false_ne_true
  | inquiry p =>
    obtain ⟨r, hr, rfl⟩ := Option.map_eq_some_iff.1 h
    exact absurd hq Bool.false_ne_true

end Producer
end Dashboard
