import Dashboard.Proofs.Relay.Event
import Dashboard.Proofs.Sampler.Action
import Dashboard.System

/-! # Roles of producers

A producer acts in a role that it keeps from its start to its end: the gate that it watches, the writer that it writes
through, and where its data comes from or goes to.

* `Producer.Role`, `Producer.role`: the roles.
* `Producer.role_step`: an action keeps the role.
* `Producer.kept_step`, `Producer.written_step`: an action changes at most the slot of its role, through an open gate.
* `Producer.isClosed_of_last`: a sampler or a relay comes to its end behind a closed gate only.
-/

namespace Dashboard
set_option autoImplicit false

/-! ## Inquiries -/

namespace Inquiry
variable (w : World) (p : Inquiry)

theorem kept_resolve : World.Kept w (p.resolve w).1 := by
  unfold resolve
  split
  · exact w.kept_note _
  · split
    · exact .refl w
    · exact w.kept_note _

theorem board_resolve : (p.resolve w).1.board = w.board := by
  unfold resolve
  split
  · rfl
  · split <;> rfl

theorem kept_step : World.Kept w (p.step w).1 := by
  unfold step
  split
  · exact (w.kept_note _).trans (World.kept_releaseStore _)
  · split
    · exact ⟨rfl, rfl, rfl⟩
    · exact (p.kept_resolve w).trans (World.kept_releaseStore _)

theorem board_step : (p.step w).1.board = w.board := by
  unfold step
  split
  · rfl
  · split
    · rfl
    · exact p.board_resolve w

theorem step_snd {w : World} {p q : Inquiry} (h : (p.step w).2.1 = some q) :
    (∃ t, q = { p with resolvesAt := t }) ∧ (p.step w).2.2 = [] := by
  revert h
  unfold step
  split
  · rintro ⟨⟩
  · split
    · intro h
      exact ⟨⟨_, (Option.some.inj h).symm⟩, rfl⟩
    · rintro ⟨⟩

end Inquiry

/-! ## Roles -/

namespace Producer

/-- What a producer keeps from its start to its end. -/
inductive Role where
  | sampler (source period : Nat) (fallback : Fallback) (writer : Writer)
  | relay (key : Setting) (writer : Writer)
  | inquiry (gate : Gate) (reconcilers : List Reconciler)
  deriving DecidableEq, Repr

def role : Producer → Role
  | .sampler p => .sampler p.source p.period p.fallback p.writer
  | .relay p => .relay p.key p.writer
  | .inquiry p => .inquiry p.gate p.reconcilers

/-- The gate that a producer in this role watches. -/
def Role.gate : Role → Gate
  | .sampler _ _ _ writer => writer.gate
  | .relay _ writer => writer.gate
  | .inquiry gate _ => gate

/-- The writer of a producer in this role. An inquiry has none. -/
def Role.writer? : Role → Option Writer
  | .sampler _ _ _ writer => some writer
  | .relay _ writer => some writer
  | .inquiry _ _ => none

theorem Role.gate_of_writer? {r : Role} {x : Writer} (h : r.writer? = some x) : r.gate = x.gate := by
  cases r with
  | sampler source period fallback writer => exact congrArg Writer.gate (Option.some.inj h)
  | relay key writer => exact congrArg Writer.gate (Option.some.inj h)
  | inquiry gate reconcilers => exact absurd h (by simp [writer?])

@[simp] theorem role_withReport (p : Producer) : p.withReport.role = p.role := by
  cases p <;> rfl

/-! ## Actions -/

variable (w : World) (p : Producer)

theorem kept_step : World.Kept w (p.step w).1 := by
  cases p with
  | sampler p => exact p.kept_step w
  | relay p => exact p.kept_step w
  | inquiry p => exact p.kept_step w

/-- An action leaves the board alone, or it is one call of `Board.set` through the writer of the role. -/
theorem written_step :
    (p.step w).1.board = w.board ∨ ∃ x, p.role.writer? = some x ∧ World.Written x w (p.step w).1 := by
  cases p with
  | sampler p => exact .inr ⟨p.writer, rfl, p.written_step w⟩
  | relay p => exact .inr ⟨p.writer, rfl, p.written_step w⟩
  | inquiry p => exact .inl (p.board_step w)

theorem board_step_of_closed {w : World} {p : Producer} (h : w.latches.isClosed p.role.gate = true) :
    (p.step w).1.board = w.board := by
  rcases p.written_step w with hb | ⟨x, hx, hb | ⟨hg, -⟩⟩
  · exact hb
  · exact hb
  · rw [Role.gate_of_writer? hx, hg] at h
    exact absurd h (by decide)

theorem role_step {w : World} {p q : Producer} (h : (p.step w).2.1 = some q) : q.role = p.role := by
  cases p with
  | sampler p =>
    obtain ⟨r, hr, rfl⟩ := Option.map_eq_some_iff.1 h
    obtain ⟨n, ph, rfl⟩ := Sampler.step_snd hr
    rfl
  | relay p =>
    obtain ⟨r, hr, rfl⟩ := Option.map_eq_some_iff.1 h
    obtain ⟨hk, hw⟩ := Relay.step_snd hr
    simp [role, hk, hw]
  | inquiry p =>
    obtain ⟨r, hr, rfl⟩ := Option.map_eq_some_iff.1 h
    obtain ⟨⟨t, rfl⟩, -⟩ := Inquiry.step_snd hr
    rfl

/-- Only an inquiry may come to its end while its gate is open. -/
theorem isClosed_of_last {w : World} {p : Producer} {x : Writer} (hx : p.role.writer? = some x)
    (h : (p.step w).2.1 = none) : w.latches.isClosed p.role.gate = true := by
  cases p with
  | sampler p => exact Sampler.isClosed_of_last (Option.map_eq_none_iff.1 h)
  | relay p => exact ((Relay.step_snd_eq_none_iff w p).1 (Option.map_eq_none_iff.1 h)).2
  | inquiry p => exact absurd hx (by simp [role, Role.writer?])

end Producer
end Dashboard
