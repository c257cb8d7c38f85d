import Dashboard.Proofs.Session.Lane

/-! # Slots apart

What a slot shows depends on its own signals only, and not on what any other source, setting or producer does. Two runs
in which a slot is told the same show the same in it, whatever else differs between them.

* `Session.State.exists_trace_eq`: all that a slot was told before some signal, it was told up to an event.
* `State.Shows.origin`: where a status comes from.
* `Session.State.slot_isolation`: two runs compared.
-/

namespace Dashboard.Session.State
set_option autoImplicit false

variable {σ τ : State} {slot : Slot} {l : Slot.Lane}

theorem trace_suffix {es es' : List Event} (h : es' <:+ es) : trace slot σ es' <:+ trace slot σ es := by
  obtain ⟨later, rfl⟩ := h
  induction later with
  | nil => exact List.suffix_rfl
  | cons e later ih => exact ih.trans (List.suffix_append _ _)

/-- What a slot was told up to some moment of a run, it was told up to a moment between two events. -/
theorem exists_trace_eq {fs : List Event} {xs : List Slot.Signal} (h : xs <:+ trace slot σ fs) :
    ∃ fs', fs' <:+ fs ∧ trace slot σ fs' = xs := by
  induction fs with
  | nil => exact ⟨[], List.suffix_rfl, (List.suffix_nil.1 h).symm⟩
  | cons e fs ih =>
    cases hx : signal? slot (σ.run fs) e with
    | none =>
      rw [trace, hx] at h
      obtain ⟨fs', hfs, htrace⟩ := ih h
      exact ⟨fs', hfs.trans (List.suffix_cons e fs), htrace⟩
    | some x =>
      rw [trace, hx] at h
      rcases List.suffix_cons_iff.1 h with rfl | h
      · refine ⟨e :: fs, List.suffix_rfl, ?_⟩
        rw [trace, hx]
        rfl
      · obtain ⟨fs', hfs, htrace⟩ := ih h
        exact ⟨fs', hfs.trans (List.suffix_cons e fs), htrace⟩

theorem content_eq_of_trace_eq (hσ : σ.IsNew) (hτ : τ.IsNew) (hlane : σ.lane slot = τ.lane slot)
    {es fs : List Event} (h : trace slot σ es = trace slot τ fs) :
    (σ.run es).content slot = (τ.run fs).content slot := by
  rw [(hσ.shows_run slot es).content, (hτ.shows_run slot fs).content, hlane, h]

/-- An action that changes a slot is that of a producer with a writer for this slot. -/
theorem exists_writer_of_tracked_ne {i : Nat} {t : Task} (ht : σ.system.acting i = some t)
    (hne : (σ.after (.act i)).board.tracked slot ≠ σ.board.tracked slot) :
    ∃ writer, t.producer.role.writer? = some writer ∧ writer.slot = slot := by
  obtain ⟨journal, hworld⟩ := (System.acted ht).world
  have hboard : (σ.after (.act i)).board = (t.producer.step σ.system.world).1.board := by
    rw [board, State.after, hworld]
  rw [hboard] at hne
  rcases t.producer.written_step σ.system.world with hkept | ⟨writer, hwriter, hwritten⟩
  · rw [hkept] at hne
    exact absurd rfl hne
  · refine ⟨writer, hwriter, ?_⟩
    by_contra hslot
    exact hne (hwritten.tracked_ne (Ne.symm hslot))

/-- A slot changes by an action of its own producer, and then shows a status that this producer was told to show. -/
theorem Shows.origin (f : σ.Shows slot l) (hs : σ.Sound)
    (hf : ∀ t ∈ σ.system.tasks, t.producer.role.FallsBack) {e : Event}
    (hne : (σ.after e).board.tracked slot ≠ σ.board.tracked slot) :
    ∃ i t writer x s, e = .act i ∧ σ.system.acting i = some t ∧ t.producer.role.writer? = some writer ∧
      writer.slot = slot ∧ signal? slot σ e = some x ∧
      x.Yields slot (σ.system.world.store.valueOf slot) s ∧ (σ.after e).board.get slot = some s := by
  by_cases he : ∃ i, e = .act i
  · obtain ⟨i, rfl⟩ := he
    cases ht : σ.system.acting i with
    | none =>
      rw [State.after, System.act_of_none ht] at hne
      exact absurd rfl hne
    | some t =>
      have htracked := f.tracked_act hs hf ht
      have hsignal : signal? slot σ (.act i) = t.producer.signal? slot σ.system.world := by
        rw [signal?, ht, Option.bind_some]
      obtain ⟨writer, hwriter, hslot⟩ := exists_writer_of_tracked_ne ht hne
      rw [htracked] at hne
      cases hx : t.producer.signal? slot σ.system.world with
      | none =>
        rw [hx] at hne
        exact absurd rfl hne
      | some x =>
        rw [hx, Option.bind_some] at hne htracked
        cases hstatus : l.status? slot x with
        | none =>
          rw [hstatus] at hne
          exact absurd rfl hne
        | some s =>
          rw [hstatus, Tracked.shown] at hne htracked
          by_cases hk : Board.accepts slot s = true
          · rw [if_pos hk] at htracked
            refine ⟨i, t, writer, x, s, rfl, ht, hwriter, hslot, hsignal.trans hx, ?_, ?_⟩
            · rw [f.value]
              exact Slot.Lane.yields_of_status? hstatus
            · rw [Board.get, htracked]
              rfl
          · rw [if_neg hk] at hne
            exact absurd rfl hne
  · rw [hs.board_after_call (not_exists.1 he)] at hne
    exact absurd rfl hne

/-- **Slots apart.** Take any two runs of two dashboards that begin with the same content of a slot and with the same
value of its setting, if it has one, and in which the slot is told the same: the same calls of the session, the same
answers to its own samples, and for a setting the same values, the same turns of its relay and the same reports that the
setting is absent. All other sources, settings, producers, answers and times may differ. Then the slot shows the same and
was written equally often, at the end and at all moments in between. A slot only ever changes by an action of its own
producer, and then it shows what its own source answered, its own fallback, the value of its own setting, or that this
setting is not set. -/
theorem slot_isolation (slot : Slot) (σ₀ τ₀ : State) (hσ : σ₀.IsNew) (hτ : τ₀.IsNew)
    (hcontent : σ₀.content slot = τ₀.content slot)
    (hvalue : σ₀.system.world.store.valueOf slot = τ₀.system.world.store.valueOf slot) :
    (∀ es fs, trace slot σ₀ es = trace slot τ₀ fs →
      (σ₀.run es).content slot = (τ₀.run fs).content slot ∧
      ∀ es', es' <:+ es → ∃ fs', fs' <:+ fs ∧ trace slot σ₀ es' = trace slot τ₀ fs' ∧
        (σ₀.run es').content slot = (τ₀.run fs').content slot) ∧
    ∀ es e, let σ := σ₀.run es
      (σ.after e).board.tracked slot ≠ σ.board.tracked slot →
        ∃ i t writer x s, e = .act i ∧ σ.system.acting i = some t ∧ t.producer.role.writer? = some writer ∧
          writer.slot = slot ∧ signal? slot σ e = some x ∧
          x.Yields slot (σ.system.world.store.valueOf slot) s ∧ (σ.after e).board.get slot = some s := by
  have hlane : σ₀.lane slot = τ₀.lane slot := by rw [lane, lane, hcontent, hvalue]
  refine ⟨?_, ?_⟩
  · intro es fs htrace
    refine ⟨content_eq_of_trace_eq hσ hτ hlane htrace, ?_⟩
    intro es' hes
    obtain ⟨fs', hfs, htrace'⟩ := exists_trace_eq (htrace ▸ trace_suffix hes)
    exact ⟨fs', hfs, htrace'.symm, content_eq_of_trace_eq hσ hτ hlane htrace'.symm⟩
  · intro es e σ hne
    exact (hσ.shows_run slot es).origin ((Sound.of_isNew hσ).run es)
      (fallsBack_run (σ := σ₀) (by simp [hσ.tasks]) es) hne

/-- Two dashboards with the same database. In one of them the first sampler acts, in the other one the directory of the
scenarios has a value that is shown, a setting is set and the answers to snapshots change. -/
theorem slot_isolation_database :
    let σ₀ : State := ofSettings { gridpathDatabase := some "/db" }
    let τ₀ : State := ofSettings { gridpathDatabase := some "/db", scenariosDirectory := some "/srv/a" }
    let es : List Event := [.act 4, .act 0, .act 0, .activate]
    let fs : List Event :=
      [.act 4, .act 3, .setting .pythonEnvironment (some "env"), .responder { fault := some "gone" }, .activate]
    σ₀.IsNew ∧ τ₀.IsNew ∧ (σ₀.run es).content .gridpathDatabase = (τ₀.run fs).content .gridpathDatabase ∧
      (σ₀.run es).board.get .gridpathDatabase = some (.label "/db") ∧
      (σ₀.run es).board.get .scenariosDirectory = none ∧
      (τ₀.run fs).board.get .scenariosDirectory = some (.label "/srv/a") := by
  intro σ₀ τ₀ es fs
  have isolation := slot_isolation .gridpathDatabase σ₀ τ₀ (isNew_ofSettings _) (isNew_ofSettings _) rfl rfl
  have htrace : trace .gridpathDatabase σ₀ es = trace .gridpathDatabase τ₀ fs := by decide +kernel
  refine ⟨isNew_ofSettings _, isNew_ofSettings _, (isolation.1 es fs htrace).1, ?_, ?_, ?_⟩
  · decide +kernel
  · decide +kernel
  · decide +kernel

end Dashboard.Session.State
