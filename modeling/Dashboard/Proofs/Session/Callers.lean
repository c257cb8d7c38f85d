import Dashboard.Proofs.Session.Underway

/-! # Several callers

Several callers share a session. Activating is one step, but deactivating is two, and between them everybody else may
act: the activation is not stored any more, and its gate is still open.

* `Session.Shared`, `Shared.Event`, `Shared.after`, `Shared.run`: a session with the activations that callers took out.
* `Shared.answer?`: what a caller who ends the session is told.
* `Shared.underway`: the stored activation and those taken out.
* `Shared.Happens`, `Shared.happens_after`: what one event does to the activations under way.
* `Shared.writes_by_underway`: who may write, and until when, for every run.
-/

namespace Dashboard.Session
set_option autoImplicit false

/-- A session that several callers share. An activation is in the hands of a caller who took it out of the session and
has not closed its gate yet. -/
structure Shared where
  state : State
  inHand : List Activation := []

namespace Shared

/-- An event of which nobody sees a part, the first half of a deactivation, or the second half of one. -/
inductive Event where
  | whole (e : Session.Event)
  | take
  | retire (a : Activation)

/-- The session after an event. It is dropped by its last caller, who has no activation in hand. -/
def after (c : Shared) : Event → Shared
  | .whole .drop => if c.inHand = [] then { c with state := c.state.after .drop } else c
  | .whole e => { c with state := c.state.after e }
  | .take =>
    match c.state.session with
    | none => c
    | some d =>
      match d.take with
      | (none, d) => { c with state := ⟨some d, c.state.system.note .notActive⟩ }
      | (some a, d) => { state := ⟨some d, c.state.system⟩, inHand := a :: c.inHand }
  | .retire a =>
    if a ∈ c.inHand then
      { state := { c.state with system := c.state.system.retire a }, inHand := c.inHand.erase a }
    else c

/-- What a deactivation answers, if the event ends one. A caller who took an activation has no answer yet. -/
def answer? (c : Shared) : Event → Option Bool
  | .whole .deactivate => c.state.session.map fun d => (d.deactivate c.state.system).1
  | .take => if c.state.session.isSome && c.state.activation?.isNone then some false else none
  | .retire a => if a ∈ c.inHand then some true else none
  | .whole _ => none

/-- The session after events, of which the latest comes first. -/
def run (c : Shared) : List Event → Shared
  | [] => c
  | e :: past => (c.run past).after e

def underway (c : Shared) : List Activation := c.state.activation?.toList ++ c.inHand

def system (c : Shared) : System := c.state.system

def board (c : Shared) : Board := c.state.board

def isOpen (c : Shared) (g : Gate) : Bool := c.system.world.latches.isOpen g

theorem run_append (c : Shared) (es past : List Event) : c.run (es ++ past) = (c.run past).run es := by
  induction es with
  | nil => rfl
  | cons e es ih => exact congrArg (fun b => after b e) ih

/-! ## The halves of a deactivation -/

section halves
variable {c : Shared} {a : Activation}

theorem exists_session (h : c.state.activation? = some a) :
    ∃ d, c.state.session = some d ∧ d.activation = some a :=
  Option.bind_eq_some_iff.1 h

theorem take_of_some {d : Session} (hd : c.state.session = some d) (ha : d.activation = some a) :
    c.after .take = ⟨⟨some { d with activation := none }, c.system⟩, a :: c.inHand⟩ := by
  simp [after, hd, take, ha, system]

/-- Taking what is not there only makes a notice. -/
theorem take_of_none (h : c.state.activation? = none) :
    (c.after .take).state.activation? = none ∧ (c.after .take).inHand = c.inHand ∧
      ((c.after .take).system = c.system ∨ (c.after .take).system = c.system.note .notActive) := by
  cases hd : c.state.session with
  | none =>
    have hsame : c.after .take = c := by simp [after, hd]
    rw [hsame]
    exact ⟨h, rfl, .inl rfl⟩
  | some d =>
    have ha : d.activation = none := by simpa [State.activation?, hd] using h
    have hnoted : c.after .take =
        { c with state := ⟨some { d with activation := none }, c.system.note .notActive⟩ } := by
      simp [after, hd, take, ha, system]
    rw [hnoted]
    exact ⟨rfl, rfl, .inr rfl⟩

theorem retire_of_mem (h : a ∈ c.inHand) :
    c.after (.retire a) = ⟨{ c.state with system := c.system.retire a }, c.inHand.erase a⟩ := by
  simp [after, h, system]

theorem retire_of_not_mem (h : a ∉ c.inHand) : c.after (.retire a) = c := by simp [after, h]

/-- The halves one right after the other are a whole deactivation. -/
theorem retire_take (h : c.state.activation? = some a) :
    (c.after .take).after (.retire a) = c.after (.whole .deactivate) := by
  obtain ⟨d, hd, ha⟩ := exists_session h
  rw [take_of_some hd ha, retire_of_mem List.mem_cons_self, List.erase_cons_head]
  simp [after, State.after, hd, deactivate_of_some c.state.system ha, system]

end halves

/-! ## What one event does -/

/-- What can happen in one event: an action of a producer; something that ends no activation and begins none; the start
of one that is then under way too, or the end of one of those under way. -/
inductive Happens (c c' : Shared) : Event → Prop
  | act (i : Nat) (hs : c'.system = c.system.act i) (hu : c'.underway = c.underway) :
      Happens c c' (.whole (.act i))
  | aside {e : Event} (hs : c.system.Closes [] c'.system)
      (hl : c'.system.world.latches = c.system.world.latches)
      (hu : c'.underway = c.underway) : Happens c c' e
  | begins {e : Event} (a : Activation) (hu : c'.underway = a :: c.underway)
      (hs : a.Begins c.system c'.system) : Happens c c' e
  | ends {e : Event} (a : Activation) (hu : c.underway.Perm (a :: c'.underway)) (ns : List Nat)
      (hg : a.gate.latch ∈ ns) (hns : ∀ n ∈ ns, n ∈ a.latches) (hs : c.system.Closes ns c'.system) :
      Happens c c' e

theorem happens_same (c : Shared) (e : Event) : Happens c c e :=
  .aside (System.closes_nothing (.refl _) rfl rfl rfl) rfl rfl

/-- A whole event happens to the session as it does when nobody else calls. -/
theorem happens_whole (c : Shared) {σ : State} {e : Session.Event} (h : State.Happens c.state σ e) :
    Happens c { c with state := σ } (.whole e) := by
  have hsame (ha : σ.activation? = c.state.activation?) :
      underway { c with state := σ } = c.underway := by
    simp only [underway, ha]
  cases h with
  | act i hs ha => exact .act i hs (hsame ha)
  | aside hs hl ha => exact .aside hs hl (hsame ha)
  | begins a hn ha hs => exact .begins a (by simp [underway, hn, ha]) hs
  | ends a he ha hn ns hns hs =>
    refine .ends a (by simp [underway, hn, ha]) _ List.mem_cons_self ?_ hs
    refine List.forall_mem_cons.2 ⟨List.mem_cons_self, ?_⟩
    intro n hm
    rcases hns n hm with rfl | ⟨x, hx, rfl⟩
    · exact List.mem_cons_self
    · exact Activation.latch_mem_latches hx

theorem happens_after (c : Shared) (e : Event) : Happens c (c.after e) e := by
  cases e with
  | whole e =>
    by_cases hdrop : e = .drop
    · subst hdrop
      by_cases hnone : c.inHand = []
      · have heq : c.after (.whole .drop) = { c with state := c.state.after .drop } := by
          simp [after, hnone]
        rw [heq]
        exact c.happens_whole (c.state.happens_after .drop)
      · have heq : c.after (.whole .drop) = c := by simp [after, hnone]
        rw [heq]
        exact c.happens_same _
    · have heq : c.after (.whole e) = { c with state := c.state.after e } := by
        cases e <;> first | exact absurd rfl hdrop | rfl
      rw [heq]
      exact c.happens_whole (c.state.happens_after e)
  | take =>
    cases ha : c.state.activation? with
    | none =>
      obtain ⟨hn, hi, hs⟩ := take_of_none ha
      have hu : (c.after .take).underway = c.underway := by rw [underway, underway, hn, ha, hi]
      rcases hs with hs | hs
      · exact .aside (hs ▸ System.closes_nothing (.refl _) rfl rfl rfl) (by rw [hs]) hu
      · exact .aside (hs ▸ c.system.closes_note _) (by rw [hs]; rfl) hu
    | some a =>
      obtain ⟨d, hd, hstored⟩ := exists_session ha
      rw [take_of_some hd hstored]
      refine .aside (System.closes_nothing (.refl _) rfl rfl rfl) rfl ?_
      rw [underway, underway, ha]
      rfl
  | retire a =>
    by_cases hm : a ∈ c.inHand
    · rw [retire_of_mem hm]
      refine .ends a ?_ a.latches List.mem_cons_self (fun n hn => hn) (c.system.retire_spec a)
      exact ((List.perm_cons_erase hm).append_left _).trans List.perm_middle
    · rw [retire_of_not_mem hm]
      exact c.happens_same _

/-! ## All runs -/

theorem underway_of_isNew {σ : State} (h : σ.IsNew) :
    (Shared.mk σ []).underway = [] ∧ (Shared.mk σ []).system.Underway [] := by
  obtain ⟨d, hd, hn⟩ := h.session
  refine ⟨by simp [underway, State.activation?, hd, hn], ?_⟩
  have hs := State.Sound.of_isNew h
  refine ⟨hs.numbered, hs.latches, ?_, ?_, ?_, ?_, .nil⟩
  · intro t ht
    have ht : t ∈ σ.system.tasks := ht
    rw [h.tasks] at ht
    exact absurd ht List.not_mem_nil
  all_goals exact fun a ha => absurd ha List.not_mem_nil

section steps
variable {c c' : Shared} {e : Event}

theorem Happens.underway (he : Happens c c' e) (h : c.system.Underway c.underway) :
    c'.system.Underway c'.underway := by
  cases he with
  | act i hs hu =>
    rw [hu]
    refine h.onward (hs ▸ System.onward_act h.numbered i) ?_
    rw [hs]
    exact (System.kept_act _ i).latches
  | aside hs hl hu =>
    rw [hu]
    exact h.onward (.of_perm h.numbered hs.tasks hs.nextId) hl
  | begins a hu hs =>
    rw [hu]
    exact h.begins hs
  | ends a hu ns hg hns hs => exact (h.perm hu).ends hs hg hns

theorem Happens.isClosed (he : Happens c c' e) {g : Gate}
    (h : c.system.world.latches.isClosed g = true) : c'.system.world.latches.isClosed g = true := by
  cases he with
  | act i hs hu =>
    rw [hs, (System.kept_act _ i).latches]
    exact h
  | aside hs hl hu =>
    rw [hl]
    exact h
  | begins a hu hs =>
    obtain ⟨ts, -, hb⟩ := hs.producers
    rw [Latches.isClosed_congr hb.shut]
    exact h
  | ends a hu ns hg hns hs => exact (hs.isClosed_iff g).2 (.inr h)

/-- Whatever is not under way any more has its gate closed. -/
theorem Happens.of_mem (he : Happens c c' e) {a : Activation} (ha : a ∈ c.underway) :
    a ∈ c'.underway ∨ c'.system.world.latches.isClosed a.gate = true := by
  cases he with
  | act i hs hu => exact .inl (hu ▸ ha)
  | aside hs hl hu => exact .inl (hu ▸ ha)
  | begins b hu hs => exact .inl (hu ▸ List.mem_cons_of_mem _ ha)
  | ends b hu ns hg hns hs =>
    rcases List.mem_cons.1 (hu.mem_iff.1 ha) with rfl | ha
    · exact .inr ((hs.isClosed_iff _).2 (.inl ⟨_, List.mem_cons_self, hg⟩))
    · exact .inl ha

theorem Happens.nextId_le (he : Happens c c' e) : c.system.nextId ≤ c'.system.nextId := by
  cases he with
  | act i hs hu =>
    rw [hs]
    exact Nat.le_of_eq (c.system.nextId_act i).symm
  | aside hs hl hu => exact Nat.le_of_eq hs.nextId.symm
  | begins a hu hs =>
    rw [hs.nextId_eq]
    omega
  | ends a hu ns hg hns hs => exact Nat.le_of_eq hs.nextId.symm

theorem Happens.board (he : Happens c c' e) (h : c.system.Underway c.underway) :
    c'.board = c.board ∨ ∃ a ∈ c.underway, ∃ i x, e = .whole (.act i) ∧ (i, x) ∈ a.posts ∧
      ∃ now status, c'.board = (c.board.set now x.slot status).2 := by
  cases he with
  | act i hs hu =>
    have hboard : c'.board = (c.system.act i).world.board := congrArg (fun s => s.world.board) hs
    rw [hboard]
    rcases h.board_act i with hb | ⟨a, ha, x, hx, hb⟩
    · exact .inl hb
    · exact .inr ⟨a, ha, i, x, rfl, hx, hb⟩
  | aside hs hl hu => exact .inl hs.board
  | begins a hu hs =>
    obtain ⟨ts, -, hb⟩ := hs.producers
    exact .inl hb.board
  | ends a hu ns hg hns hs => exact .inl hs.board

end steps

section runs
variable {c : Shared}

theorem underway_run (h : c.system.Underway c.underway) (es : List Event) :
    (c.run es).system.Underway (c.run es).underway := by
  induction es with
  | nil => exact h
  | cons e es ih => exact (happens_after _ e).underway ih

theorem mem_underway_run {a : Activation} (ha : a ∈ c.underway) (es : List Event) :
    a ∈ (c.run es).underway ∨ (c.run es).system.world.latches.isClosed a.gate = true := by
  induction es with
  | nil => exact .inl ha
  | cons e es ih =>
    rcases ih with hm | hc
    · exact (happens_after _ e).of_mem hm
    · exact .inr ((happens_after _ e).isClosed hc)

theorem isClosed_run {g : Gate} (h : c.system.world.latches.isClosed g = true) (es : List Event) :
    (c.run es).system.world.latches.isClosed g = true := by
  induction es with
  | nil => exact h
  | cons e es ih => exact (happens_after _ e).isClosed ih

/-- An activation that is under way later was so before, or it was started in between. -/
theorem mem_underway_of_run {a : Activation} (es : List Event) (ha : a ∈ (c.run es).underway) :
    a ∈ c.underway ∨ ∀ i ∈ a.tasks, c.system.nextId ≤ i := by
  have hle (es : List Event) : c.system.nextId ≤ (c.run es).system.nextId := by
    induction es with
    | nil => exact Nat.le_refl _
    | cons e es ih => exact Nat.le_trans ih (happens_after _ e).nextId_le
  induction es with
  | nil => exact .inl ha
  | cons e es ih =>
    have he : Happens (c.run es) (c.run (e :: es)) e := happens_after _ e
    cases he with
    | act i hs hu => exact ih (hu ▸ ha)
    | aside hs hl hu => exact ih (hu ▸ ha)
    | begins b hu hs =>
      rw [hu] at ha
      rcases List.mem_cons.1 ha with rfl | ha
      · exact .inr fun i hi => Nat.le_trans (hle es) (hs.tasks_new hi)
      · exact ih ha
    | ends b hu ns hg hns hs => exact ih (hu.mem_iff.2 (List.mem_cons_of_mem _ ha))

/-- The gate of an activation is open exactly while it is under way. -/
theorem isOpen_iff (h : c.system.Underway c.underway) {a : Activation} (ha : a ∈ c.underway)
    (es : List Event) : (c.run es).isOpen a.gate = true ↔ a ∈ (c.run es).underway := by
  constructor
  · intro ho
    rcases mem_underway_run ha es with hm | hc
    · exact hm
    · rw [isOpen, Latches.isOpen_iff, hc] at ho
      exact absurd ho Bool.false_ne_true.symm
  · exact (underway_run h es).isOpen

theorem not_mem_underway_run (h : c.system.Underway c.underway) {a : Activation} (ha : a ∈ c.underway)
    {es : List Event} (hover : a ∉ (c.run es).underway) (further : List Event) :
    a ∉ (c.run (further ++ es)).underway := by
  rw [← isOpen_iff h ha, isOpen, Latches.isOpen_iff, Bool.not_eq_false, run_append]
  apply isClosed_run
  rwa [← isOpen_iff h ha, isOpen, Latches.isOpen_iff, Bool.not_eq_false] at hover

/-- Once an activation is not under way any more, its producers write nothing. -/
theorem board_act_of_over (h : c.system.Underway c.underway) {a : Activation} (ha : a ∈ c.underway)
    {es : List Event} (hover : a ∉ (c.run es).underway) {i : Nat} (hi : i ∈ a.tasks) :
    ((c.run es).after (.whole (.act i))).board = (c.run es).board := by
  rcases (happens_after (c.run es) (.whole (.act i))).board (underway_run h es) with
    hb | ⟨b, hb, j, x, hj, hx, -⟩
  · exact hb
  · injection hj with hj
    injection hj with hj
    subst hj
    have hib := Activation.mem_tasks_of_mem_posts hx
    rcases mem_underway_of_run es hb with hbc | hnew
    · rw [h.eq_of_mem_tasks ha hbc hi hib] at hover
      exact absurd hb hover
    · have hle : c.system.nextId ≤ i := hnew i hib
      have hlt : i < c.system.nextId := (h.running a ha).lt i hi
      omega

theorem not_mem_underway_retire (h : c.system.Underway c.underway) {a : Activation} (ha : a ∈ c.inHand) :
    a ∉ (c.after (.retire a)).underway := by
  have hafter := (happens_after c (.retire a)).underway h
  intro hm
  have hopen := hafter.isOpen hm
  rw [Latches.isOpen_iff, ← Bool.not_eq_true] at hopen
  apply hopen
  rw [retire_of_mem ha]
  exact ((c.system.retire_spec a).isClosed_iff _).2 (.inl ⟨_, List.mem_cons_self, List.mem_cons_self⟩)

end runs

/-- **Who writes while several callers come and go.** In every run of a shared session, a write that the board accepts is
made by a producer of an activation under way, through its own writer. The gate of an activation is open exactly while
it is under way; afterwards it stays closed, and none of its producers writes. A deactivation that took an activation
answers with its gate closed. An activation that is neither stored nor in the hands of a caller is over, so when no
caller is between the halves of a deactivation, all earlier activations are. Each slot has as many open producers as
activations are under way: the stored one, and one for each caller who is between the halves. -/
theorem writes_by_underway (σ₀ : State) (hnew : σ₀.IsNew) (past : List Event) :
    let c := run ⟨σ₀, []⟩ past
    (∀ e, (c.after e).board ≠ c.board →
      ∃ a ∈ c.underway, ∃ i x, e = .whole (.act i) ∧ (i, x) ∈ a.posts ∧
        ∃ now status, c.board.set now x.slot status = (true, (c.after e).board)) ∧
    (∀ a ∈ c.underway, ∀ later,
      ((c.run later).isOpen a.gate = true ↔ a ∈ (c.run later).underway) ∧
      (a ∉ (c.run later).underway → ∀ further,
        ((c.run later).run further).isOpen a.gate = false ∧
        ∀ i ∈ a.tasks, (((c.run later).run further).after (.whole (.act i))).board =
          ((c.run later).run further).board) ∧
      ((c.run later).inHand = [] → (c.run later).state.activation? ≠ some a → a ∉ (c.run later).underway)) ∧
    (∀ a ∈ c.inHand, c.answer? (.retire a) = some true ∧
      ∀ later, ((c.after (.retire a)).run later).isOpen a.gate = false) ∧
    ∀ slot, c.system.atWork (Producer.Role.writes slot) = c.state.activation?.toList.length + c.inHand.length := by
  intro c
  have h : c.system.Underway c.underway := by
    obtain ⟨hnone, hstart⟩ := underway_of_isNew hnew
    rw [← hnone] at hstart
    exact underway_run hstart past
  have hover {a : Activation} (ha : a ∈ c.underway) {es : List Event} (hm : a ∉ (c.run es).underway)
      (further : List Event) : a ∉ ((c.run es).run further).underway := by
    rw [← run_append]
    exact not_mem_underway_run h ha hm further
  have hshut {a : Activation} (ha : a ∈ c.underway) {es : List Event} (hm : a ∉ (c.run es).underway)
      (further : List Event) : ((c.run es).run further).isOpen a.gate = false := by
    rw [← Bool.not_eq_true, ← run_append, isOpen_iff h ha, run_append]
    exact hover ha hm further
  refine ⟨?_, ?_, ?_, ?_⟩
  · intro e hne
    rcases (happens_after c e).board h with hb | ⟨a, ha, i, x, hi, hx, now, status, hb⟩
    · exact absurd hb hne
    · refine ⟨a, ha, i, x, hi, hx, now, status, ?_⟩
      rw [hb] at hne ⊢
      exact c.board.set_eq_of_ne now hne
  · intro a ha later
    refine ⟨isOpen_iff h ha later, ?_, ?_⟩
    · intro hm further
      refine ⟨hshut ha hm further, fun i hi => ?_⟩
      rw [← run_append]
      exact board_act_of_over h ha (not_mem_underway_run h ha hm further) hi
    · intro hnone hstored hm
      rw [underway, hnone, List.append_nil, Option.mem_toList] at hm
      exact hstored hm
  · intro a ha
    have hgone : a ∉ (c.run [.retire a]).underway := not_mem_underway_retire h ha
    exact ⟨if_pos ha, hshut (List.mem_append_right _ ha) hgone⟩
  · intro slot
    rw [h.atWork_writes slot, underway, List.length_append]

/-- A caller takes the first activation out, and a second one is started before the gate of the first is closed. Then each
slot has two open producers. -/
theorem writes_by_underway_restarted :
    let σ₀ : State := .ofSettings { scenariosDirectory := some "/srv/a" }
    let c := run ⟨σ₀, []⟩ [.whole .activate, .take, .whole .activate]
    σ₀.IsNew ∧ c.inHand.length = 1 ∧
      c.system.atWork (Producer.Role.writes .scenariosDirectory) = 2 ∧
      ∀ a ∈ c.inHand, (c.after (.retire a)).isOpen a.gate = false := by
  intro σ₀ c
  obtain ⟨-, -, hreturned, hcount⟩ := writes_by_underway σ₀ (State.isNew_ofSettings _)
    [.whole .activate, .take, .whole .activate]
  refine ⟨State.isNew_ofSettings _, rfl, hcount _, ?_⟩
  intro a ha
  exact (hreturned a ha).2 []

/-- A caller is told that the session is inactive while another one is between the halves of a deactivation. After this
answer the board still accepts a write of the activation that is not stored any more; and when the session is activated
at that moment, the gates of two activations are open at once, with two producers for each slot. -/
theorem answer_before_closing :
    let σ₀ : State := .ofSettings { scenariosDirectory := some "/srv/a" }
    let c := run ⟨σ₀, []⟩ [.take, .whole .activate]
    let answered := c.after .take
    let restarted := answered.after (.whole .activate)
    σ₀.IsNew ∧ c.answer? .take = some false ∧ answered.state.activation? = none ∧
      (answered.after (.whole (.act 3))).board ≠ answered.board ∧
      (∃ a ∈ restarted.inHand, ∃ b, restarted.state.activation? = some b ∧ a.gate ≠ b.gate ∧
        restarted.isOpen a.gate = true ∧ restarted.isOpen b.gate = true) ∧
      ∀ slot, restarted.system.atWork (Producer.Role.writes slot) = 2 := by
  intro σ₀ c answered restarted
  let a : Activation := c.inHand.head (by decide)
  let b : Activation := restarted.state.activation?.get (by decide)
  refine ⟨State.isNew_ofSettings _, rfl, rfl, ?_, ⟨a, ?_, b, ?_, ?_, ?_, ?_⟩, ?_⟩
  · decide +kernel
  · decide +kernel
  · rfl
  · decide +kernel
  · decide +kernel
  · decide +kernel
  · intro slot
    cases slot <;> decide +kernel

end Shared
end Dashboard.Session
