import Dashboard.Proofs.Session.Start

/-! # Runs of a dashboard

In the life of a dashboard whole calls of its session take turns with actions of producers and with changes of the
surroundings, in any order. Lists of events have the latest event first.

* `Session.State`, `Session.Event`, `State.after`, `State.run`: the dashboard, what happens to it, and the outcome.
* `State.IsNew`: a dashboard before its first activation.
* `System.Closes`, `System.retire_spec`: latches are shut, and nothing else changes.
* `State.Happens`, `State.happens_after`: what one event does, whichever it is.
* `State.exists_run_wait`: letting time pass is a run.
-/

namespace Dashboard
set_option autoImplicit false

namespace Session

/-! ## Calls -/

section calls
variable {d : Session} (s : System)

theorem activate_of_none (h : d.activation = none) :
    d.activate s = (true, { d with activation := some (d.start s).1 }, (d.start s).2) := by
  simp [activate, h]

theorem activate_of_some {a : Activation} (h : d.activation = some a) :
    d.activate s = (false, d, s.note .alreadyActive) := by
  simp [activate, h]

theorem deactivate_of_none (h : d.activation = none) : d.deactivate s = (false, d, s.note .notActive) := by
  obtain ⟨server, runStatus, validationStatus, activation⟩ := d
  obtain rfl : activation = none := h
  rfl

theorem deactivate_of_some {a : Activation} (h : d.activation = some a) :
    d.deactivate s = (true, { d with activation := none }, s.retire a) := by
  simp [deactivate, take, h]

theorem drop_of_none (h : d.activation = none) : d.drop s = s.onWorld World.releaseStore := by
  simp [drop, h]

theorem drop_of_some {a : Activation} (h : d.activation = some a) :
    d.drop s = (s.onWorld (World.close a.gate)).onWorld World.releaseStore := by
  simp [drop, h]

end calls

/-! ## Events -/

/-- A dashboard: the session until it is dropped, and the system. -/
structure State where
  session : Option Session
  system : System

/-- A whole call of the session, an action of a producer, or a change of the surroundings: time passes, a setting is
set or cleared, the sources or the answers to snapshots change, or someone lets the store go. -/
inductive Event where
  | activate
  | deactivate
  | drop
  | act (i : Nat)
  | clock (t : Nat)
  | setting (key : Setting) (value : Option String)
  | sources (sources : List Source)
  | responder (responder : Setting.Responder)
  | releaseStore

/-- The producers act, or time passes: what happens on its own. -/
def Event.isOwn : Event → Bool
  | .act _ | .clock _ => true
  | _ => false

namespace State

def onWorld (f : World → World) (σ : State) : State := { σ with system := σ.system.onWorld f }

/-- The dashboard after an event. Nobody can call a session that was dropped. -/
def after (σ : State) : Event → State
  | .activate =>
    match σ.session with
    | none => σ
    | some d => ⟨some (d.activate σ.system).2.1, (d.activate σ.system).2.2⟩
  | .deactivate =>
    match σ.session with
    | none => σ
    | some d => ⟨some (d.deactivate σ.system).2.1, (d.deactivate σ.system).2.2⟩
  | .drop =>
    match σ.session with
    | none => σ
    | some d => ⟨none, d.drop σ.system⟩
  | .act i => { σ with system := σ.system.act i }
  | .clock t => { σ with system := σ.system.setClock t }
  | .setting key value => σ.onWorld (World.setSetting key value)
  | .sources sources => σ.onWorld fun w => { w with sources }
  | .responder responder => σ.onWorld fun w => { w with responder }
  | .releaseStore => σ.onWorld World.releaseStore

theorem after_activate (d : Session) (s : System) :
    after ⟨some d, s⟩ .activate = ⟨some (d.activate s).2.1, (d.activate s).2.2⟩ := rfl

theorem after_deactivate (d : Session) (s : System) :
    after ⟨some d, s⟩ .deactivate = ⟨some (d.deactivate s).2.1, (d.deactivate s).2.2⟩ := rfl

theorem after_drop (d : Session) (s : System) : after ⟨some d, s⟩ .drop = ⟨none, d.drop s⟩ := rfl

/-- The dashboard after events, of which the latest comes first. -/
def run (σ : State) : List Event → State
  | [] => σ
  | e :: past => (σ.run past).after e

theorem run_append (σ : State) (es past : List Event) : σ.run (es ++ past) = (σ.run past).run es := by
  induction es with
  | nil => rfl
  | cons e es ih => exact congrArg (fun τ => after τ e) ih

def activation? (σ : State) : Option Activation := σ.session.bind Session.activation

def board (σ : State) : Board := σ.system.world.board

/-- A dashboard before its first activation: there is no producer, and no gate was closed that is still to be made. The
board may hold anything. -/
structure IsNew (σ : State) : Prop where
  session : ∃ d, σ.session = some d ∧ d.activation = none
  tasks : σ.system.tasks = []
  latches : σ.system.world.latches.Sound

/-- A new dashboard with an empty board, without sources, and with given settings. -/
def ofSettings (settings : Setting.Snapshot) : State where
  session := some
    { server := ⟨0, 1000⟩
      runStatus := ⟨0, 1000⟩
      validationStatus := ⟨0, 1000⟩ }
  system := { world := { store := .ofSnapshot settings } }

theorem isNew_ofSettings (settings : Setting.Snapshot) : (ofSettings settings).IsNew :=
  ⟨⟨_, rfl, rfl⟩, rfl, fun _ hn => absurd hn List.not_mem_nil⟩

end State
end Session

/-! ## What one event does -/

/-- In the second system some latches are shut that were not in the first one. No producer acted. -/
structure System.Closes (ns : List Nat) (s s' : System) : Prop where
  tasks : s'.tasks.Perm s.tasks
  nextId : s'.nextId = s.nextId
  board : s'.world.board = s.world.board
  made : s'.world.latches.made = s.world.latches.made
  shut : ∀ n, n ∈ s'.world.latches.shut ↔ n ∈ ns ∨ n ∈ s.world.latches.shut

namespace System
variable {s t u : System}

theorem closes_nothing (ht : t.tasks.Perm s.tasks) (hn : t.nextId = s.nextId)
    (hb : t.world.board = s.world.board) (hl : t.world.latches = s.world.latches) : s.Closes [] t :=
  ⟨ht, hn, hb, by rw [hl], by simp [hl]⟩

theorem Closes.trans {ns ms : List Nat} (h : s.Closes ns t) (h' : t.Closes ms u) :
    s.Closes (ns ++ ms) u where
  tasks := h'.tasks.trans h.tasks
  nextId := h'.nextId.trans h.nextId
  board := h'.board.trans h.board
  made := h'.made.trans h.made
  shut n := by
    rw [h'.shut, h.shut, List.mem_append, or_left_comm, or_assoc]

theorem closes_note (s : System) (n : Notice) : s.Closes [] (s.note n) :=
  closes_nothing (.refl _) rfl rfl rfl

theorem closes_close (s : System) (g : Gate) : s.Closes [g.latch] (s.onWorld (World.close g)) :=
  ⟨s.tasks_onWorld _, rfl, rfl, rfl, fun n => by simp [System.onWorld, World.close, Latches.close]⟩

theorem closes_foldl {α : Type} {f : System → α → System} {latch : α → Nat}
    (hf : ∀ (s : System) x, s.Closes [latch x] (f s x)) (xs : List α) (s : System) :
    s.Closes (xs.map latch) (xs.foldl f s) := by
  induction xs generalizing s with
  | nil => exact closes_nothing (.refl _) rfl rfl rfl
  | cons x xs ih => exact (hf s x).trans (ih (f s x))

/-- A deactivation shuts the gate of the activation first, and then those of all that wrote behind it. -/
theorem retire_spec (a : Activation) (s : System) :
    s.Closes (a.gate.latch :: a.posts.map fun x => x.2.gate.latch) (s.retire a) := by
  have hstop (s : System) (h : SamplerHandle) : s.Closes [h.writer.gate.latch] (s.stop h) :=
    (s.closes_note _).trans (closes_close _ _)
  have hrelease (s : System) (h : RelayHandle) : s.Closes [h.writer.gate.latch] (s.release h) :=
    (s.closes_note _).trans (closes_close _ _)
  have hsamplers := (s.closes_close a.gate).trans (closes_foldl hstop a.samplers _)
  have hrelays := hsamplers.trans (closes_foldl hrelease a.relays _)
  have hpending (t : System) : t.Closes [] (if t.isAlive a.inquiry then t.note .snapshotPending else t) := by
    split
    · exact t.closes_note _
    · exact closes_nothing (.refl _) rfl rfl rfl
  have hall := (hrelays.trans (hpending _)).trans (closes_note _ .deactivated)
  have hns : a.gate.latch :: a.posts.map (fun x => x.2.gate.latch) =
      [a.gate.latch] ++ a.samplers.map (fun h => h.writer.gate.latch) ++
        a.relays.map (fun h => h.writer.gate.latch) ++ [] ++ [] := by
    simp [Activation.posts, Function.comp_def]
  rw [hns]
  exact hall

end System

namespace Session.State
variable (σ : State)

/-- What can happen in one event: an action of a producer; a change of the surroundings, or a call that has nothing to
do; the start of an activation, or the end of one. -/
inductive Happens (σ τ : State) : Event → Prop
  | act (i : Nat) (hs : τ.system = σ.system.act i) (ha : τ.activation? = σ.activation?) :
      Happens σ τ (.act i)
  | aside {e : Event} (hs : σ.system.Closes [] τ.system)
      (hl : τ.system.world.latches = σ.system.world.latches)
      (ha : τ.activation? = σ.activation?) : Happens σ τ e
  | begins (a : Activation) (hn : σ.activation? = none) (ha : τ.activation? = some a)
      (hs : a.Begins σ.system τ.system) : Happens σ τ .activate
  | ends {e : Event} (a : Activation) (he : e = .deactivate ∨ e = .drop) (ha : σ.activation? = some a)
      (hn : τ.activation? = none) (ns : List Nat)
      (hns : ∀ n ∈ ns, n = a.gate.latch ∨ ∃ x ∈ a.posts, x.2.gate.latch = n)
      (hs : σ.system.Closes (a.gate.latch :: ns) τ.system) : Happens σ τ e

theorem happens_onWorld (f : World → World) (hb : (f σ.system.world).board = σ.system.world.board)
    (hl : (f σ.system.world).latches = σ.system.world.latches) (e : Event) : Happens σ (σ.onWorld f) e :=
  .aside (System.closes_nothing (σ.system.tasks_onWorld f) rfl hb hl) hl rfl

theorem happens_after (e : Event) : Happens σ (σ.after e) e := by
  have hsame (e : Event) : Happens σ σ e :=
    .aside (System.closes_nothing (.refl _) rfl rfl rfl) rfl rfl
  obtain ⟨session, s⟩ := σ
  cases e with
  | activate =>
    cases session with
    | none => exact hsame _
    | some d =>
      rw [after_activate]
      cases ha : d.activation with
      | none =>
        rw [activate_of_none s ha]
        exact .begins (d.start s).1 ha rfl (d.start_spec s)
      | some a =>
        rw [activate_of_some s ha]
        exact .aside (s.closes_note _) rfl rfl
  | deactivate =>
    cases session with
    | none => exact hsame _
    | some d =>
      rw [after_deactivate]
      cases ha : d.activation with
      | none =>
        rw [deactivate_of_none s ha]
        exact .aside (s.closes_note _) rfl rfl
      | some a =>
        rw [deactivate_of_some s ha]
        exact .ends a (.inl rfl) ha rfl _ (fun n hn => .inr (List.mem_map.1 hn)) (s.retire_spec a)
  | drop =>
    cases session with
    | none => exact hsame _
    | some d =>
      rw [after_drop]
      have hrelease (t : System) : t.Closes [] (t.onWorld World.releaseStore) :=
        System.closes_nothing (t.tasks_onWorld _) rfl rfl rfl
      cases ha : d.activation with
      | none =>
        rw [drop_of_none s ha]
        exact .aside (hrelease s) rfl ha.symm
      | some a =>
        rw [drop_of_some s ha]
        refine .ends a (.inr rfl) ha rfl [] ?_ ((s.closes_close a.gate).trans (hrelease _))
        intro n hn
        exact absurd hn List.not_mem_nil
  | act i => exact .act i rfl rfl
  | clock t => exact happens_onWorld _ _ rfl rfl _
  | setting key value => exact happens_onWorld _ _ rfl rfl _
  | sources sources => exact happens_onWorld _ _ rfl rfl _
  | responder responder => exact happens_onWorld _ _ rfl rfl _
  | releaseStore => exact happens_onWorld _ _ rfl rfl _

/-! ## Waiting -/

theorem exists_acts_settleWithin (n : Nat) : ∃ is : List Nat,
    σ.run (is.map .act) = { σ with system := σ.system.settleWithin n } := by
  induction n generalizing σ with
  | zero => exact ⟨[], rfl⟩
  | succ n ih =>
    cases hf : σ.system.firstReady? with
    | none => exact ⟨[], by simp [System.settleWithin, hf, run]⟩
    | some i =>
      obtain ⟨is, hrun⟩ := ih (σ.after (.act i))
      refine ⟨is ++ [i], ?_⟩
      have hsettle : σ.system.settleWithin (n + 1) = (σ.system.act i).settleWithin n := by
        simp [System.settleWithin, hf]
      rw [List.map_append, run_append, hsettle]
      exact hrun

theorem exists_run_settleWithin (n : Nat) : ∃ es, (∀ e ∈ es, Event.isOwn e = true) ∧
    σ.run es = { σ with system := σ.system.settleWithin n } := by
  obtain ⟨is, hrun⟩ := σ.exists_acts_settleWithin n
  exact ⟨_, List.forall_mem_map.2 fun _ _ => rfl, hrun⟩

theorem exists_run_passWith (target fuel : Nat) : ∃ es, (∀ e ∈ es, Event.isOwn e = true) ∧
    σ.run es = { σ with system := (System.passWith (fun u _ => u) target fuel () σ.system).2 } := by
  induction fuel generalizing σ with
  | zero => exact ⟨[.clock target], by simp [Event.isOwn], rfl⟩
  | succ fuel ih =>
    obtain ⟨es, hes, hrun⟩ := σ.exists_run_settleWithin σ.system.load
    have hclock (t : Nat) : ∀ e ∈ Event.clock t :: es, e.isOwn = true := by
      simpa [Event.isOwn] using hes
    have hafter (t : Nat) : σ.run (.clock t :: es) = { σ with system := σ.system.settle.setClock t } := by
      rw [run, hrun]
      rfl
    cases hd : σ.system.settle.nextDue? with
    | none => exact ⟨.clock target :: es, hclock target, by rw [hafter]; simp [System.passWith, hd]⟩
    | some t =>
      by_cases ht : σ.system.settle.world.now < t ∧ t < target
      · obtain ⟨es', hes', hrun'⟩ := ih { σ with system := σ.system.settle.setClock t }
        refine ⟨es' ++ .clock t :: es, ?_, ?_⟩
        · intro e he
          exact (List.mem_append.1 he).elim (hes' e) (hclock t e)
        · rw [run_append, hafter, hrun']
          simp [System.passWith, hd, ht]
      · exact ⟨.clock target :: es, hclock target, by rw [hafter]; simp [System.passWith, hd, ht]⟩

/-- When nobody calls, the order in which the producers act while time passes is one of the orders of a run. -/
theorem exists_run_wait (ms : Nat) : ∃ es, (∀ e ∈ es, Event.isOwn e = true) ∧
    σ.run es = { σ with system := σ.system.wait ms } :=
  exists_run_passWith _ _ _

end Session.State
end Dashboard
