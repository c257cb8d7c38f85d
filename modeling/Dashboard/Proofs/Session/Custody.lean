import Dashboard.Proofs.Session.Invariant

/-! # Who writes

Only a producer of the stored activation changes the board. Whatever producers of earlier activations still have in
flight is lost.

* `Session.State.Sound.board_after`: what one event does to the board.
* `Session.State.board_run_of_inactive`: without an activation the board rests.
* `Session.State.writes_by_stored_activation`: all of it, for every run.
-/

namespace Dashboard.Session.State
set_option autoImplicit false

variable {σ : State}

/-- One event leaves the board alone, or it is an action of a producer of the stored activation, and then one call of
`Board.set` through the writer of its handle. -/
theorem Sound.board_after (h : σ.Sound) (e : Event) : (σ.after e).board = σ.board ∨
    ∃ a i x, σ.activation? = some a ∧ e = .act i ∧ (i, x) ∈ a.posts ∧
      ∃ now status, (σ.after e).board = (σ.board.set now x.slot status).2 := by
  cases σ.happens_after e with
  | act i hs ha =>
    rw [board, hs]
    rcases σ.system.written_act i with hb | ⟨t, ht, hid, x, hx, hb | ⟨hg, now, status, hb⟩⟩
    · exact .inl hb
    · exact .inl hb
    · rcases h.held t ht with hc | ⟨a, ha, hi⟩
      · rw [Producer.Role.gate_of_writer? hx, hg] at hc
        exact absurd hc Bool.false_ne_true
      · have hpost := (h.running a ha).mem_posts h.numbered ht hi hx
        exact .inr ⟨a, i, x, ha, rfl, hid ▸ hpost, now, status, hb⟩
  | aside hs hl ha => exact .inl hs.board
  | begins a hn ha hs =>
    obtain ⟨ts, hts, hb⟩ := hs.producers
    exact .inl hb.board
  | ends a he ha hn ns hns hs => exact .inl hs.board

theorem activation?_after_of_none (h : σ.activation? = none) {e : Event} (he : e ≠ .activate) :
    (σ.after e).activation? = none := by
  cases σ.happens_after e with
  | act i hs ha => exact ha.trans h
  | aside hs hl ha => exact ha.trans h
  | begins a hn ha hs => exact absurd rfl he
  | ends a _ ha hn ns hns hs => exact hn

theorem activation?_run_of_none (h : σ.activation? = none) {es : List Event} (hes : .activate ∉ es) :
    (σ.run es).activation? = none := by
  induction es with
  | nil => exact h
  | cons e es ih =>
    rw [List.mem_cons, not_or] at hes
    exact activation?_after_of_none (ih hes.2) (Ne.symm hes.1)

theorem board_run_of_inactive (hs : σ.Sound) (h : σ.activation? = none) {es : List Event}
    (hes : .activate ∉ es) : (σ.run es).board = σ.board := by
  induction es with
  | nil => rfl
  | cons e es ih =>
    rw [List.mem_cons, not_or] at hes
    rcases (hs.run es).board_after e with hb | ⟨a, i, x, ha, -⟩
    · exact hb.trans (ih hes.2)
    · rw [activation?_run_of_none h hes.2] at ha
      exact absurd ha (Option.some_ne_none a).symm

theorem Sound.board_after_call (h : σ.Sound) {e : Event} (he : ∀ i, e ≠ .act i) :
    (σ.after e).board = σ.board := by
  rcases h.board_after e with hb | ⟨a, i, x, -, hact, -⟩
  · exact hb
  · exact absurd hact (he i)

theorem activation?_after_end (σ : State) {e : Event} (he : e = .deactivate ∨ e = .drop) :
    (σ.after e).activation? = none := by
  obtain ⟨session, s⟩ := σ
  cases session with
  | none => rcases he with rfl | rfl <;> rfl
  | some d =>
    rcases he with rfl | rfl
    · rw [after_deactivate]
      cases ha : d.activation with
      | none =>
        rw [deactivate_of_none s ha]
        exact ha
      | some a =>
        rw [deactivate_of_some s ha]
        rfl
    · rfl

/-- A producer that belongs to an activation which is not stored any more writes nothing. -/
theorem Sound.board_act_of_past (h : σ.Sound) {a : Activation} (ha : σ.activation? = some a)
    {es : List Event} (hpast : (σ.run es).activation? ≠ some a) {i : Nat} (hi : i ∈ a.tasks) :
    ((σ.run es).after (.act i)).board = (σ.run es).board := by
  rcases (h.run es).board_after (.act i) with hb | ⟨b, j, x, hb, hj, hx, -⟩
  · exact hb
  · injection hj with hij
    subst hij
    rcases later_activation σ es hb with hsame | hnew
    · rw [ha] at hsame
      rw [Option.some.inj hsame] at hpast
      exact absurd hb hpast
    · -- The numbers of a later activation were not given out yet when the earlier one was stored.
      have hlater : σ.system.nextId ≤ i := hnew i (Activation.mem_tasks_of_mem_posts hx)
      have hbefore : i < σ.system.nextId := (h.running a ha).lt i hi
      omega

/-- **Custody of the board.** In every run of a dashboard, a write that the board accepts is made by a producer of the
stored activation, through its own writer. From the end of an activation to the next start the board does not change. A
producer of an activation that is over writes nothing, not even when another activation is stored. No call of the
session changes the board. -/
theorem writes_by_stored_activation (σ₀ : State) (hnew : σ₀.IsNew) (past : List Event) :
    let σ := σ₀.run past
    (∀ e, (σ.after e).board ≠ σ.board →
      ∃ a i x, σ.activation? = some a ∧ e = .act i ∧ (i, x) ∈ a.posts ∧
        ∃ now status, σ.board.set now x.slot status = (true, (σ.after e).board)) ∧
    (∀ e, e = .deactivate ∨ e = .drop → ∀ later, .activate ∉ later →
      ((σ.after e).run later).board = σ.board) ∧
    (∀ a, σ.activation? = some a → ∀ later, (σ.run later).activation? ≠ some a → ∀ i ∈ a.tasks,
      ((σ.run later).after (.act i)).board = (σ.run later).board) ∧
    ∀ e, e = .activate ∨ e = .deactivate ∨ e = .drop → (σ.after e).board = σ.board := by
  intro σ
  have hs : σ.Sound := (Sound.of_isNew hnew).run past
  refine ⟨?_, ?_, ?_, ?_⟩
  · intro e hne
    rcases hs.board_after e with hb | ⟨a, i, x, ha, hi, hx, now, status, hb⟩
    · exact absurd hb hne
    · refine ⟨a, i, x, ha, hi, hx, now, status, ?_⟩
      cases hk : Board.accepts x.slot status with
      | true => rw [hb, Board.set_of_accepts _ _ hk]
      | false =>
        rw [Board.set_of_not_accepts _ _ hk] at hb
        exact absurd hb hne
  · intro e he later hl
    rw [board_run_of_inactive (hs.after e) (activation?_after_end σ he) hl]
    apply hs.board_after_call
    rintro i rfl
    rcases he with h | h
    · cases h
    · cases h
  · intro a ha later hpast i hi
    exact hs.board_act_of_past ha hpast hi
  · intro e he
    apply hs.board_after_call
    rintro i rfl
    rcases he with h | h | h
    · cases h
    · cases h
    · cases h

/-- Two activations. The first relay of the first one, which has not acted yet, has a value to show but writes nothing
after the restart; the first relay of the second one shows the value. -/
theorem writes_by_stored_activation_restarted :
    let σ₀ : State := ofSettings { scenariosDirectory := some "/srv/a" }
    let σ := (σ₀.run [.activate]).run [.activate, .deactivate]
    σ₀.IsNew ∧ (σ.after (.act 3)).board = σ.board ∧
      (σ.after (.act 10)).board.get .scenariosDirectory = some (.label "/srv/a") := by
  intro σ₀ σ
  have custody := (writes_by_stored_activation σ₀ (isNew_ofSettings _) [.activate]).2.2.1
  refine ⟨isNew_ofSettings _, custody _ rfl [.activate, .deactivate] ?_ 3 ?_, ?_⟩
  · decide
  · decide
  · decide

end Dashboard.Session.State
