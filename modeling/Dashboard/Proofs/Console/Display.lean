import Dashboard.Proofs.Session.Waiting
import Dashboard.Live
import Mathlib.Logic.Relation

/-! # What the console shows

The program activates its session and then lets the console watch the board. Each change that the console notices makes it
show the view of that moment; after the end of the activation it shows the last one. Between any two of these steps the
producers may act.

* `Board.Precedes`: a board and a later one.
* `Console.Follows`: what holds of a console that watches since some board.
* `Display`, `Display.Step`, `Display.Reaches`: the program, its steps, and any number of them.
* `Display.shows_every_change`: which views are shown, wherever the writes fall.
* `Live.shows_current`: what this says of a live dashboard.
* `Live.samples_on_schedule`: when its samples begin.
-/

namespace Dashboard
set_option autoImplicit false

/-! ## Boards in the course of time -/

/-- The second board is a later one: it is the same, or its revision is higher. -/
structure Board.Precedes (b c : Board) : Prop where
  le : b.revision ≤ c.revision
  eq_of_eq : c.revision = b.revision → c = b

namespace Board
variable {b c d : Board}

theorem Precedes.refl (b : Board) : b.Precedes b := ⟨Nat.le_refl _, fun _ => rfl⟩

theorem Precedes.trans (h : b.Precedes c) (h' : c.Precedes d) : b.Precedes d where
  le := Nat.le_trans h.le h'.le
  eq_of_eq heq := by
    have hle := h.le
    have hle' := h'.le
    rw [h'.eq_of_eq (by omega), h.eq_of_eq (by omega)]

theorem precedes_set (b : Board) (now : Nat) (slot : Slot) (status : Status) :
    b.Precedes (b.set now slot status).2 := by
  cases hk : accepts slot status with
  | false =>
    rw [set_of_not_accepts b now hk]
    exact .refl b
  | true =>
    rw [set_of_accepts b now hk]
    have hrevision : (true, (b.store now slot status).publish).2.revision = b.revision + 1 := rfl
    exact ⟨by omega, fun heq => by omega⟩

end Board

theorem Session.State.Sound.precedes_after {σ : Session.State} (h : σ.Sound) (e : Session.Event) :
    σ.board.Precedes (σ.after e).board := by
  rcases h.board_after e with hb | ⟨a, i, x, -, -, -, now, status, hb⟩
  · rw [hb]
    exact .refl _
  · rw [hb]
    exact σ.board.precedes_set now x.slot status

/-! ## Consoles -/

/-- What holds of a console that has watched since the first board, now that the second one is there. Unless a view is
due, the console has shown nothing and seen nothing new, or the view that it showed last has what it saw last. -/
structure Console.Follows (b₀ b : Board) (c : Console) : Prop where
  precedes : b₀.Precedes b
  sorted : (c.shown.map Board.View.revision).Pairwise (· ≤ ·)
  le : ∀ v ∈ c.shown, v.revision ≤ b.revision
  seen_le : c.seen ≤ b.revision
  last : c.isDue = false → c.shown = [] ∧ c.seen = b₀.revision ∨
    ∃ b₁ : Board, c.shown.getLast? = some b₁.view ∧ b₁.Precedes b ∧ c.seen ≤ b₁.revision

namespace Console
variable {b₀ b b' : Board} {c : Console}

theorem follows_watch (b : Board) : (watch b).Follows b b :=
  ⟨.refl b, .nil, fun _ hv => absurd hv List.not_mem_nil, Nat.le_refl _, fun _ => .inl ⟨rfl, rfl⟩⟩

/-- The views so far and the view of a later board are in order. -/
theorem Follows.sorted_append (h : c.Follows b₀ b) :
    ((c.shown ++ [b.view]).map Board.View.revision).Pairwise (· ≤ ·) := by
  rw [List.map_append, List.pairwise_append]
  refine ⟨h.sorted, List.pairwise_singleton _ _, ?_⟩
  intro n hn m hm
  obtain ⟨v, hv, rfl⟩ := List.mem_map.1 hn
  obtain rfl : m = b.revision := List.mem_singleton.1 hm
  exact h.le v hv

theorem Follows.mono (h : c.Follows b₀ b) (hb : b.Precedes b') : c.Follows b₀ b' where
  precedes := h.precedes.trans hb
  sorted := h.sorted
  le v hv := Nat.le_trans (h.le v hv) hb.le
  seen_le := Nat.le_trans h.seen_le hb.le
  last hd := (h.last hd).imp_right fun ⟨b₁, hshown, h₁, hseen⟩ => ⟨b₁, hshown, h₁.trans hb, hseen⟩

theorem Follows.notice (h : c.Follows b₀ b) : (c.notice b).Follows b₀ b := by
  unfold Console.notice
  split
  · exact h
  · exact ⟨h.precedes, h.sorted, h.le, Nat.le_refl _, fun hd => absurd hd Bool.false_ne_true.symm⟩

theorem Follows.print (h : c.Follows b₀ b) : (c.print b).Follows b₀ b := by
  unfold Console.print
  split
  · refine ⟨h.precedes, h.sorted_append, ?_, h.seen_le, fun _ => .inr ⟨b, by simp, .refl b, h.seen_le⟩⟩
    intro v hv
    rcases List.mem_append.1 hv with hv | hv
    · exact h.le v hv
    · exact Nat.le_of_eq (congrArg Board.View.revision (List.mem_singleton.1 hv))
  · exact h

/-- A console that waits and has seen all there is has shown it, unless there was nothing new. -/
theorem Follows.shown (h : c.Follows b₀ b) (hd : c.isDue = false) (hseen : c.seen = b.revision) :
    c.shown = [] ∧ b = b₀ ∨ c.shown.getLast? = some b.view := by
  rcases h.last hd with ⟨hnone, hstart⟩ | ⟨b₁, hshown, h₁, hle⟩
  · exact .inl ⟨hnone, h.precedes.eq_of_eq (hseen.symm.trans hstart)⟩
  · have hb : b = b₁ := h₁.eq_of_eq (Nat.le_antisymm (hseen ▸ hle) h₁.le)
    exact .inr (hb ▸ hshown)

end Console

/-! ## The program -/

/-- Somebody calls the session. -/
def Session.Event.isCall : Session.Event → Bool
  | .activate | .deactivate | .drop => true
  | _ => false

/-- Where the program stands: before and after activating its session, with a console that watches the board or has
stopped to do so, after deactivating the session, and after the last view. -/
inductive Display.Phase where
  | ready
  | active
  | following (c : Console)
  | stopped (c : Console)
  | ended (c : Console)
  | closed (c : Console)

/-- The program with its session. -/
structure Display where
  state : Session.State
  phase : Display.Phase

namespace Display

/-- The console, from when it begins to watch. -/
def Phase.console? : Phase → Option Console
  | .ready | .active => none
  | .following c | .stopped c | .ended c | .closed c => some c

def board (l : Display) : Board := l.state.board

/-- A step of the program, or of its surroundings. A console that waits may notice a change or be stopped; one that
noticed a change shows the view. -/
inductive Step : Display → Display → Prop
  | activate (σ : Session.State) : Step ⟨σ, .ready⟩ ⟨σ.after .activate, .active⟩
  | watch (σ : Session.State) : Step ⟨σ, .active⟩ ⟨σ, .following (.watch σ.board)⟩
  | notice (σ : Session.State) (c : Console) (hd : c.isDue = false) (hn : c.seen ≠ σ.board.revision) :
      Step ⟨σ, .following c⟩ ⟨σ, .following (c.notice σ.board)⟩
  | print (σ : Session.State) (c : Console) (hd : c.isDue = true) :
      Step ⟨σ, .following c⟩ ⟨σ, .following (c.print σ.board)⟩
  | stop (σ : Session.State) (c : Console) (hd : c.isDue = false) : Step ⟨σ, .following c⟩ ⟨σ, .stopped c⟩
  | deactivate (σ : Session.State) (c : Console) : Step ⟨σ, .stopped c⟩ ⟨σ.after .deactivate, .ended c⟩
  | close (σ : Session.State) (c : Console) : Step ⟨σ, .ended c⟩ ⟨σ, .closed (c.close σ.board)⟩
  | aside (σ : Session.State) (p : Phase) (e : Session.Event) (he : e.isCall = false) :
      Step ⟨σ, p⟩ ⟨σ.after e, p⟩

/-- Any number of steps. -/
def Reaches : Display → Display → Prop := Relation.ReflTransGen Step

/-- What holds of the program since its console began to watch the given board. -/
inductive Shows (b₀ : Board) : Display → Prop
  | following {σ : Session.State} {c : Console} (h : c.Follows b₀ σ.board) : Shows b₀ ⟨σ, .following c⟩
  | stopped {σ : Session.State} {c : Console} (h : c.Follows b₀ σ.board) : Shows b₀ ⟨σ, .stopped c⟩
  | ended {σ : Session.State} {c : Console} (h : c.Follows b₀ σ.board) (hn : σ.activation? = none) :
      Shows b₀ ⟨σ, .ended c⟩
  | closed {σ : Session.State} {c : Console} (h : c.Follows b₀ σ.board) (hn : σ.activation? = none) :
      Shows b₀ ⟨σ, .closed (c.close σ.board)⟩

variable {l m : Display} {b₀ : Board}

theorem Step.sound (hstep : Step l m) (h : l.state.Sound) : m.state.Sound := by
  cases hstep with
  | activate σ => exact h.after .activate
  | watch σ => exact h
  | notice σ c hd hn => exact h
  | print σ c hd => exact h
  | stop σ c hd => exact h
  | deactivate σ c => exact h.after .deactivate
  | close σ c => exact h
  | aside σ p e he => exact h.after e

theorem Reaches.sound (hreach : Reaches l m) (h : l.state.Sound) : m.state.Sound := by
  induction hreach with
  | refl => exact h
  | tail _ hstep ih => exact hstep.sound ih

/-- Without an activation nothing changes the board but a new activation. -/
theorem board_aside {σ : Session.State} (hs : σ.Sound) (hn : σ.activation? = none) {e : Session.Event}
    (he : e.isCall = false) : (σ.after e).board = σ.board ∧ (σ.after e).activation? = none := by
  have hne : e ≠ .activate := by
    rintro rfl
    exact absurd he Bool.false_ne_true.symm
  have hboard : (σ.run [e]).board = σ.board :=
    Session.State.board_run_of_inactive hs hn (by simpa using hne.symm)
  exact ⟨hboard, Session.State.activation?_after_of_none hn hne⟩

theorem Step.shows (hstep : Step l m) (hs : l.state.Sound) (h : Shows b₀ l) : Shows b₀ m := by
  cases hstep with
  | activate σ => cases h
  | watch σ => cases h
  | notice σ c hd hn =>
    cases h with
    | following h => exact .following h.notice
  | print σ c hd =>
    cases h with
    | following h => exact .following h.print
  | stop σ c hd =>
    cases h with
    | following h => exact .stopped h
  | deactivate σ c =>
    cases h with
    | stopped h =>
      exact .ended (h.mono (hs.precedes_after _)) (Session.State.activation?_after_end σ (.inl rfl))
  | close σ c =>
    cases h with
    | ended h hn => exact .closed h hn
  | aside σ p e he =>
    have hlater := hs.precedes_after e
    cases h with
    | following h => exact .following (h.mono hlater)
    | stopped h => exact .stopped (h.mono hlater)
    | ended h hn => exact .ended (h.mono hlater) (board_aside hs hn he).2
    | closed h hn =>
      obtain ⟨hb, hn⟩ := board_aside hs hn he
      have hb : (σ.after e).board = σ.board := hb
      rw [← hb]
      exact .closed (h.mono hlater) hn

theorem Reaches.shows (hreach : Reaches l m) (hs : l.state.Sound) (h : Shows b₀ l) : Shows b₀ m := by
  induction hreach with
  | refl => exact h
  | tail hreach hstep ih => exact hstep.shows (Reaches.sound hreach hs) ih

theorem Shows.sorted (h : Shows b₀ l) {c : Console} (hc : l.phase.console? = some c) :
    (c.shown.map Board.View.revision).Pairwise (· ≤ ·) := by
  cases h with
  | following h => exact Option.some.inj hc ▸ h.sorted
  | stopped h => exact Option.some.inj hc ▸ h.sorted
  | ended h hn => exact Option.some.inj hc ▸ h.sorted
  | closed h hn => exact Option.some.inj hc ▸ h.sorted_append

/-- After the end of the activation the board stays as it is, and the last view shows it. -/
theorem Reaches.of_ended {σ : Session.State} {c : Console} (hreach : Reaches ⟨σ, .ended c⟩ m) (hs : σ.Sound)
    (hn : σ.activation? = none) :
    m.board = σ.board ∧ m.state.activation? = none ∧
      (m.phase = .ended c ∨ m.phase = .closed (c.close σ.board)) := by
  induction hreach with
  | refl => exact ⟨rfl, hn, .inl rfl⟩
  | tail hreach hstep ih =>
    obtain ⟨hb, hnone, hphase⟩ := ih
    have hsound := Reaches.sound hreach hs
    cases hstep with
    | aside τ p e he =>
      obtain ⟨hsame, hnone'⟩ := board_aside hsound hnone he
      exact ⟨hsame.trans hb, hnone', hphase⟩
    | close τ d =>
      rcases hphase with hphase | hphase
      · injection hphase with hd
        have hb : τ.board = σ.board := hb
        exact ⟨hb, hnone, .inr (by rw [hd, hb])⟩
      · cases hphase
    | _ => rcases hphase with hphase | hphase <;> cases hphase

/-- **What the console shows.** Wherever the accepted writes fall between the steps of the program: the revisions of the
views that are shown never decrease. A console that waits and has seen the current revision has shown the current view
last, or it has shown nothing and the board is as it was when the console began to watch. A console that waits and has
not seen the current revision can notice it, and then shows the current view. Once it has stopped and the session is
deactivated, the board stays as it is, and the last view shows it. -/
theorem shows_every_change (σ₀ σ : Session.State) (hnew : σ₀.IsNew)
    (hactive : Reaches ⟨σ₀, .ready⟩ ⟨σ, .active⟩) (l : Display)
    (hreach : Reaches ⟨σ, .following (.watch σ.board)⟩ l) :
    (∀ c, l.phase.console? = some c → (c.shown.map Board.View.revision).Pairwise (· ≤ ·)) ∧
    (∀ c, l.phase = .following c → c.isDue = false → c.seen = l.board.revision →
      c.shown = [] ∧ l.board = σ.board ∨ c.shown.getLast? = some l.board.view) ∧
    (∀ c, l.phase = .following c → c.isDue = false → c.seen ≠ l.board.revision →
      Reaches l ⟨l.state, .following ⟨l.board.revision, false, c.shown ++ [l.board.view]⟩⟩) ∧
    ∀ c, l.phase = .stopped c → ∀ m, Reaches ⟨l.state.after .deactivate, .ended c⟩ m →
      m.board = (l.state.after .deactivate).board ∧
      ∀ d, m.phase = .closed d → d.shown = c.shown ++ [(l.state.after .deactivate).board.view] := by
  have hsound : σ.Sound := hactive.sound (.of_isNew hnew)
  have hl : l.state.Sound := hreach.sound hsound
  have hshows : Shows σ.board l := hreach.shows hsound (.following (Console.follows_watch σ.board))
  refine ⟨?_, ?_, ?_, ?_⟩
  · exact fun c hc => hshows.sorted hc
  · intro c hphase hd hseen
    cases hshows with
    | following h =>
      injection hphase with hc
      subst hc
      exact h.shown hd hseen
    | _ => cases hphase
  · intro c hphase hd hseen
    obtain ⟨τ, phase⟩ := l
    obtain rfl : phase = .following c := hphase
    have hnotice : c.notice τ.board = ⟨τ.board.revision, true, c.shown⟩ := if_neg (Ne.symm hseen)
    refine .tail (.single (.notice τ c hd hseen)) ?_
    rw [hnotice]
    exact .print τ _ rfl
  · intro c hphase m hm
    obtain ⟨hb, -, hend⟩ :=
      hm.of_ended (hl.after .deactivate) (Session.State.activation?_after_end l.state (.inl rfl))
    refine ⟨hb, fun d hd => ?_⟩
    rcases hend with hend | hend
    · cases hend.symm.trans hd
    · injection hend.symm.trans hd with hd
      rw [← hd]
      rfl

/-- A relay writes while the console waits. The console notices the change and shows the view with the value. -/
theorem shows_every_change_written :
    let σ₀ : Session.State := .ofSettings { scenariosDirectory := some "/srv/a" }
    let σ := σ₀.after .activate
    let τ := σ.after (.act 3)
    let c : Console := ⟨τ.board.revision, false, [τ.board.view]⟩
    σ₀.IsNew ∧ Reaches ⟨σ, .following (.watch σ.board)⟩ ⟨τ, .following c⟩ ∧
      (c.shown = [] ∧ τ.board = σ.board ∨ c.shown.getLast? = some τ.board.view) ∧
      τ.board.view.get .scenariosDirectory = some (.label "/srv/a") := by
  intro σ₀ σ τ c
  have hnew : σ₀.IsNew := Session.State.isNew_ofSettings _
  have hactive : Reaches ⟨σ₀, .ready⟩ ⟨σ, .active⟩ := .single (.activate σ₀)
  have hwritten : Reaches ⟨σ, .following (.watch σ.board)⟩ ⟨τ, .following (.watch σ.board)⟩ :=
    .single (.aside σ _ (.act 3) rfl)
  obtain ⟨-, -, hnotice, -⟩ := shows_every_change σ₀ σ hnew hactive _ hwritten
  have hshown : Reaches ⟨σ, .following (.watch σ.board)⟩ ⟨τ, .following c⟩ :=
    hwritten.trans (hnotice _ rfl rfl (by decide +kernel))
  obtain ⟨-, hlast, -⟩ := shows_every_change σ₀ σ hnew hactive _ hshown
  refine ⟨hnew, hshown, hlast c rfl rfl rfl, ?_⟩
  decide +kernel

/-- A relay writes between the activation and the moment at which the console begins to watch. The console waits and has
nothing to notice, and the value was never shown. -/
theorem waits_without_showing :
    let σ₀ : Session.State := .ofSettings { scenariosDirectory := some "/srv/a" }
    let σ := (σ₀.after .activate).after (.act 3)
    let c : Console := .watch σ.board
    σ₀.IsNew ∧ Reaches ⟨σ₀, .ready⟩ ⟨σ, .following c⟩ ∧ c.isDue = false ∧
      c.seen = σ.board.revision ∧ σ.board.revision ≠ 0 ∧
      σ.board.get .scenariosDirectory = some (.label "/srv/a") ∧ c.shown = [] := by
  intro σ₀ σ c
  refine ⟨Session.State.isNew_ofSettings _, ?_, rfl, rfl, ?_, ?_, rfl⟩
  · exact .tail (.tail (.single (.activate σ₀)) (.aside _ _ (.act 3) rfl)) (.watch σ)
  · decide +kernel
  · decide +kernel

end Display

/-! ## Live dashboards -/

namespace Live

/-- A live dashboard as a program whose console watches. -/
def display (l : Live) : Display := ⟨⟨some l.session, l.system⟩, .following l.console⟩

/-- The dashboard of a configuration before its start. -/
def initial (c : Config) (sources : List Source) : Session.State :=
  ⟨some (c.polling.session 0 1 2), { world := { store := .ofSnapshot c.settings, sources } }⟩

/-- The console waits, and there is nothing that it could notice. -/
structure UpToDate (l : Live) : Prop where
  isDue : l.console.isDue = false
  seen : l.console.seen = l.system.world.board.revision

end Live

namespace Display

theorem reaches_asides (σ : Session.State) (p : Phase) {es : List Session.Event}
    (hes : ∀ e ∈ es, Session.Event.isOwn e = true) : Reaches ⟨σ, p⟩ ⟨σ.run es, p⟩ := by
  induction es with
  | nil => exact .refl
  | cons e es ih =>
    refine .tail (ih fun x hx => hes x (List.mem_cons_of_mem _ hx)) (.aside _ _ e ?_)
    have hown := hes e List.mem_cons_self
    cases e <;> first | rfl | exact absurd hown Bool.false_ne_true

/-- A console that waits is up to date once it has looked at the board. -/
theorem reaches_refresh (σ : Session.State) {c : Console} (hd : c.isDue = false) :
    Reaches ⟨σ, .following c⟩ ⟨σ, .following (c.refresh σ.board)⟩ ∧
      (c.refresh σ.board).isDue = false ∧ (c.refresh σ.board).seen = σ.board.revision := by
  by_cases hseen : c.seen = σ.board.revision
  · have hsame : c.refresh σ.board = c := by
      simp [Console.refresh, Console.notice, Console.print, hseen, hd]
    rw [hsame]
    exact ⟨.refl, hd, hseen⟩
  · have hnotice : c.notice σ.board = ⟨σ.board.revision, true, c.shown⟩ := if_neg (Ne.symm hseen)
    have hrefresh : c.refresh σ.board = ⟨σ.board.revision, false, c.shown ++ [σ.board.view]⟩ := by
      rw [Console.refresh, hnotice]
      rfl
    rw [hrefresh]
    refine ⟨.tail (.single (.notice σ c hd hseen)) ?_, rfl, rfl⟩
    rw [hnotice]
    exact .print σ _ rfl

end Display

namespace Live
open Display (Reaches reaches_asides reaches_refresh)

theorem reaches_passWith (d : Session) (target fuel : Nat) (c : Console) (s : System)
    (hd : c.isDue = false) (hseen : c.seen = s.world.board.revision) :
    let r := System.passWith (fun c s => c.refresh s.world.board) target fuel c s
    Reaches ⟨⟨some d, s⟩, .following c⟩ ⟨⟨some d, r.2⟩, .following r.1⟩ ∧
      r.1.isDue = false ∧ r.1.seen = r.2.world.board.revision := by
  have hclock (t : Nat) (c : Console) (s : System) :
      Reaches ⟨⟨some d, s⟩, .following c⟩ ⟨⟨some d, s.setClock t⟩, .following c⟩ :=
    .single (.aside _ _ (.clock t) rfl)
  induction fuel generalizing c s with
  | zero => exact ⟨hclock target c s, hd, hseen⟩
  | succ fuel ih =>
    -- The producers act until they rest; then the console looks at the board.
    obtain ⟨es, hes, hrun⟩ := Session.State.exists_run_settleWithin ⟨some d, s⟩ s.load
    have hsettle : Reaches ⟨⟨some d, s⟩, .following c⟩ ⟨⟨some d, s.settle⟩, .following c⟩ := by
      have hasides := reaches_asides ⟨some d, s⟩ (.following c) hes
      rwa [hrun] at hasides
    obtain ⟨hlook, hd', hseen'⟩ := reaches_refresh ⟨some d, s.settle⟩ hd
    have hlooked := Relation.ReflTransGen.trans hsettle hlook
    have hrest (t : Nat) : Reaches ⟨⟨some d, s⟩, .following c⟩
        ⟨⟨some d, s.settle.setClock t⟩, .following (c.refresh s.settle.world.board)⟩ :=
      Relation.ReflTransGen.trans hlooked (hclock t _ _)
    cases hdue : s.settle.nextDue? with
    | none =>
      simp only [System.passWith, hdue]
      exact ⟨hrest target, hd', hseen'⟩
    | some t =>
      by_cases ht : s.settle.world.now < t ∧ t < target
      · obtain ⟨hgo, hd'', hseen''⟩ := ih (c.refresh s.settle.world.board) (s.settle.setClock t) hd' hseen'
        simp only [System.passWith, hdue, ht, and_self, if_true]
        exact ⟨Relation.ReflTransGen.trans (hrest t) hgo, hd'', hseen''⟩
      · simp only [System.passWith, hdue, ht, if_false]
        exact ⟨hrest target, hd', hseen'⟩

/-- The console begins to watch right after the activation. -/
theorem display_start (c : Config) (sources : List Source) :
    let σ := (initial c sources).after .activate
    (start c sources).display = ⟨σ, .following (.watch σ.board)⟩ ∧ (start c sources).UpToDate := by
  simp only [start, initial, Session.State.after_activate]
  generalize Session.activate _ _ = activated
  exact ⟨rfl, rfl, rfl⟩

theorem UpToDate.run {l : Live} (h : l.UpToDate) (ms : Nat) :
    Reaches l.display (l.run ms).display ∧ (l.run ms).UpToDate := by
  obtain ⟨hreach, hd, hseen⟩ := reaches_passWith l.session (l.system.world.now + Ticker.pause ms)
    (Ticker.pause ms) l.console l.system h.isDue h.seen
  exact ⟨hreach, hd, hseen⟩

theorem UpToDate.runs {l : Live} (h : l.UpToDate) (waits : List Nat) :
    Reaches l.display (waits.foldl (fun l ms => l.run ms) l).display ∧
      (waits.foldl (fun l ms => l.run ms) l).UpToDate := by
  induction waits generalizing l with
  | nil => exact ⟨.refl, h⟩
  | cons ms waits ih =>
    obtain ⟨hrun, hup⟩ := h.run ms
    obtain ⟨hruns, hups⟩ := ih hup
    exact ⟨Relation.ReflTransGen.trans hrun hruns, hups⟩

theorem UpToDate.reaches_finish {l : Live} (h : l.UpToDate) :
    Reaches l.display ⟨⟨some l.finish.session, l.finish.system⟩, .closed l.finish.console⟩ :=
  .tail (.tail (.single (.stop _ _ h.isDue)) (.deactivate _ _)) (.close _ _)

theorem isNew_initial (c : Config) (sources : List Source) : (initial c sources).IsNew :=
  ⟨⟨_, rfl, rfl⟩, rfl, fun _ hn => absurd hn List.not_mem_nil⟩

/-- **Live dashboards.** No producer acts before the console watches, so whenever a live dashboard was run for a while,
the view shown last is the current one, unless nothing was ever written. The revisions of all views that are shown never
decrease, the last view included. -/
theorem shows_current (c : Config) (sources : List Source) (waits : List Nat) :
    let l := waits.foldl (fun l ms => l.run ms) (start c sources)
    (l.system.world.board.revision = 0 ∨ l.console.shown.getLast? = some l.system.world.board.view) ∧
      (l.finish.console.shown.map Board.View.revision).Pairwise (· ≤ ·) ∧
      l.finish.console.shown.getLast? = some l.finish.system.world.board.view := by
  intro l
  let σ := (initial c sources).after .activate
  have hnew : (initial c sources).Sound := .of_isNew (isNew_initial c sources)
  have hempty : σ.board = .empty := hnew.board_after_call nofun
  obtain ⟨hstart, hup⟩ := display_start c sources
  obtain ⟨hruns, hups⟩ := hup.runs waits
  rw [hstart] at hruns
  have hwatch := Display.Shows.following (Console.follows_watch σ.board)
  have hend : Reaches _ ⟨_, .closed l.finish.console⟩ := Relation.ReflTransGen.trans hruns hups.reaches_finish
  refine ⟨?_, (hend.shows (hnew.after .activate) hwatch).sorted rfl, List.getLast?_concat⟩
  have hshows := hruns.shows (hnew.after .activate) hwatch
  rw [hempty] at hshows
  cases hshows with
  | following hfollows =>
    rcases hfollows.shown hups.isDue hups.seen with ⟨-, hb⟩ | hshown
    · exact .inl (congrArg Board.revision hb)
    · exact .inr hshown

theorem passes_runs (l : Live) (h : l.system.Orderly) (waits : List Nat) :
    let r := waits.foldl (fun l ms => l.run ms) l
    Session.State.Passes ⟨some l.session, l.system⟩ ⟨some r.session, r.system⟩ := by
  induction waits generalizing l with
  | nil => exact .refl _
  | cons ms waits ih =>
    have hrun : Session.State.Passes ⟨some l.session, l.system⟩ ⟨some l.session, (l.run ms).system⟩ :=
      Session.State.passes_passWith _ _ _ _ _ h (Nat.le_add_right _ _) (Nat.le_refl _)
    exact hrun.trans (ih (l.run ms) (hrun.orderly h))

/-- Right after the activation all samplers are still to begin, behind open gates. -/
theorem sampler_of_activated (c : Config) (sources : List Source) {i : Nat} {p : Sampler}
    (hm : ⟨i, .sampler p⟩ ∈ ((initial c sources).after .activate).system.tasks) :
    p.phase = .fresh ∧
      ((initial c sources).after .activate).system.world.latches.isClosed p.writer.gate = false := by
  have hbegins : ((c.polling.session 0 1 2).start (initial c sources).system).1.Begins (initial c sources).system
      ((initial c sources).after .activate).system := Session.start_spec _ _
  have hsound := Session.State.Sound.of_isNew (isNew_initial c sources)
  have hrunning := (Activation.Running.of_begins hbegins hsound.numbered hsound.latches).2
  obtain ⟨ts, hts, hb⟩ := hbegins.producers
  rcases (hb.mem_iff _).1 hm with hm | hm
  · exact absurd hm List.not_mem_nil
  rcases List.mem_append.1 hm with hm | hm
  · rcases List.mem_append.1 hm with hm | hm
    · obtain ⟨h, hh, -, q, hq, hwriter, hfresh, -⟩ := SamplerHandle.exists_handle hts hm
      obtain rfl : p = q := Producer.sampler.inj hq
      refine ⟨hfresh, ?_⟩
      rw [hwriter]
      exact (hrunning.posts _ (List.mem_append_left _ (List.mem_map_of_mem hh))).2
    · obtain ⟨h, -, heq⟩ := List.mem_map.1 hm
      cases congrArg Task.producer heq
  · cases congrArg Task.producer (List.mem_singleton.1 hm)

/-- **The schedule of a live dashboard.** Whenever a live dashboard was run for a while, its samplers have begun their
samples on schedule, from the moment of the activation on. -/
theorem samples_on_schedule (c : Config) (sources : List Source) (waits : List Nat) :
    let σ := (initial c sources).after .activate
    let l := waits.foldl (fun l ms => l.run ms) (start c sources)
    ∃ es, (∀ e ∈ es, Session.Event.isOwn e = true) ∧ σ.run es = ⟨some l.session, l.system⟩ ∧
      ∀ i p, ⟨i, .sampler p⟩ ∈ σ.system.tasks → Sample.OnSchedule σ.system.world.now p.period (σ.samples i es) := by
  intro σ l
  have hnew := isNew_initial c sources
  have h : σ.system.Orderly := Session.State.orderly_after (Session.State.orderly_of_isNew hnew) .activate
  have hstart : σ = ⟨some (start c sources).session, (start c sources).system⟩ :=
    congrArg Display.state (display_start c sources).1.symm
  have hsystem : σ.system = (start c sources).system := congrArg Session.State.system hstart
  have hpasses := passes_runs (start c sources) (hsystem ▸ h) waits
  rw [← hstart] at hpasses
  obtain ⟨es, hown, hprompt, hrun⟩ := hpasses
  refine ⟨es, hown, hrun, fun i p hm => ?_⟩
  obtain ⟨hfresh, hopen⟩ := sampler_of_activated c sources hm
  exact Session.State.onSchedule_of_own h hm hfresh hopen hown (hprompt i)

end Live
end Dashboard
