import Dashboard.Proofs.Relay.Reconciliation

/-! # The order of delivery

A relay need not take every value of its setting: of several values between two of its actions it takes the last one only.
What it takes it takes in the order in which it was set, each value at most once, and the last one is never lost.

A value together with its version says when it was set, so equal values in a row are told apart. Lists of values have the
latest value first.

* `Relay.takes?`: the value that the next action takes, if it takes one.
* `Relay.IsCurrent`: a relay that has seen all there is.
* `Relay.Delivery`: a relay from its subscription on, while its setting is set and others act.
* `Relay.Ordered`: the invariant between the values of the setting, those that were taken, and what the relay has seen.
* `Relay.delivers_in_order`: what this says of every interleaving.
-/

namespace Dashboard.Relay
set_option autoImplicit false

/-- The value that the next action takes, with the version that the relay has then seen. -/
def takes? (w : World) (p : Relay) : Option Setting.Channel :=
  match p.due w with
  | .push value => some ⟨value, (w.store.channel p.key).version⟩
  | _ => none

/-- The relay has taken a value, and the setting was not set since. -/
def IsCurrent (w : World) (p : Relay) : Prop :=
  p.started = true ∧ p.seen = (w.store.channel p.key).version

/-- From a subscription on, the values that the setting had and those that the relay took. The setting is set by someone
who holds the store, and the relay acts behind its open gate, with no report in its mailbox. In between the world may
change in any way that leaves the slot and the setting alone; a store that was let go does not come back. -/
inductive Delivery (w₀ : World) (key : Setting) (writer : Writer) :
    List Setting.Channel → List Setting.Channel → World → Relay → Prop
  | subscribe : Delivery w₀ key writer [w₀.store.channel key] [] w₀
      { key, writer, seen := (w₀.store.channel key).version }
  | set {history taken : List Setting.Channel} {w : World} {p : Relay} (value : Option String)
      (h : Delivery w₀ key writer history taken w p) (ho : w.store.isOpen = true) :
      Delivery w₀ key writer (⟨value, (w.store.channel key).version + 1⟩ :: history) taken
        (w.setSetting key value) p
  | act {history taken : List Setting.Channel} {w v : World} {p q : Relay}
      (h : Delivery w₀ key writer history taken w p) (hg : w.latches.isOpen writer.gate = true)
      (hstep : p.step w = (v, some q)) :
      Delivery w₀ key writer history ((p.takes? w).toList ++ taken) v q
  | aside {history taken : List Setting.Channel} {w v : World} {p : Relay}
      (h : Delivery w₀ key writer history taken w p)
      (hslot : v.board.tracked writer.slot = w.board.tracked writer.slot)
      (hchannel : v.store.channel key = w.store.channel key)
      (hopen : v.store.isOpen = true → w.store.isOpen = true) : Delivery w₀ key writer history taken v p

/-! ## One action -/

section
variable {w : World} {p : Relay}

theorem channel_setSetting_self (w : World) (key : Setting) (value : Option String) :
    (w.setSetting key value).store.channel key = ⟨value, (w.store.channel key).version + 1⟩ := by
  simp [World.setSetting, Setting.Store.set]

/-- What an action does without reports: it takes the current value; or there is nothing new, and the loss of the store is
noted, or nothing happens. -/
theorem step_cases_of_quiet (hg : w.latches.isOpen p.writer.gate = true) (hr : p.reports = 0) :
    (p.started = false ∨ p.hasNews w = true) ∧ p.takes? w = some (w.store.channel p.key) ∧
        p.step w = ((p.handle (.push (w.store.channel p.key).value) w).1,
          some (p.handle (.push (w.store.channel p.key).value) w).2) ∨
      p.started = true ∧ p.hasNews w = false ∧ p.takes? w = none ∧
        (p.hasLost w = true ∧ p.step w = ((p.handle .closing w).1, some (p.handle .closing w).2) ∨
          p.hasLost w = false ∧ p.step w = (w, some p)) := by
  have hstep := step_of_open (p := p) (.inr ((Latches.isOpen_iff _ _).1 hg))
  have hnews : (!p.started || p.hasNews w) = true ↔ p.started = false ∨ p.hasNews w = true := by simp
  by_cases hn : p.started = false ∨ p.hasNews w = true
  · have hdue : p.due w = .push (w.store.channel p.key).value := by rw [due, if_pos (hnews.2 hn)]
    rw [hdue] at hstep
    exact .inl ⟨hn, by rw [takes?, hdue], hstep⟩
  · have hnot := hn
    rw [not_or, Bool.not_eq_false, Bool.not_eq_true] at hnot
    cases hl : p.hasLost w with
    | true =>
      have hdue : p.due w = .closing := by rw [due, if_neg (mt hnews.1 hn), if_pos hl]
      rw [hdue] at hstep
      exact .inr ⟨hnot.1, hnot.2, by rw [takes?, hdue], .inl ⟨rfl, hstep⟩⟩
    | false =>
      have hdue : p.due w = .quiet := by
        rw [due, if_neg (mt hnews.1 hn), if_neg (by rw [hl]; exact Bool.false_ne_true), if_neg (by omega)]
      rw [hdue] at hstep
      exact .inr ⟨hnot.1, hnot.2, by rw [takes?, hdue], .inr ⟨rfl, hstep⟩⟩

/-- The same by what an action leaves. -/
theorem cases_of_quiet {v : World} {q : Relay} (hg : w.latches.isOpen p.writer.gate = true) (hr : p.reports = 0)
    (hstep : p.step w = (v, some q)) :
    (p.started = false ∨ p.hasNews w = true) ∧ p.takes? w = some (w.store.channel p.key) ∧
        v = (p.handle (.push (w.store.channel p.key).value) w).1 ∧
        q = (p.handle (.push (w.store.channel p.key).value) w).2 ∨
      p.started = true ∧ p.hasNews w = false ∧ p.takes? w = none ∧
        (p.hasLost w = true ∧ v = (p.handle .closing w).1 ∧ q = (p.handle .closing w).2 ∨ v = w ∧ q = p) := by
  rcases step_cases_of_quiet hg hr with ⟨hn, htakes, hact⟩ | ⟨hs, hn, htakes, ⟨hl, hact⟩ | ⟨-, hact⟩⟩
  all_goals
    rw [hact, Prod.mk.injEq, Option.some_inj] at hstep
    obtain ⟨rfl, rfl⟩ := hstep
  · exact .inl ⟨hn, htakes, rfl, rfl⟩
  · exact .inr ⟨hs, hn, htakes, .inl ⟨hl, rfl, rfl⟩⟩
  · exact .inr ⟨hs, hn, htakes, .inr ⟨rfl, rfl⟩⟩

theorem seen_eq_of_not_hasNews (hw : p.watching = true) (hn : p.hasNews w = false) :
    p.seen = (w.store.channel p.key).version := by
  rw [hasNews, hw, Bool.true_and, bne_eq_false_iff_eq] at hn
  exact hn.symm

theorem not_isCurrent_of_news (hn : p.started = false ∨ p.hasNews w = true) : ¬p.IsCurrent w := by
  rintro ⟨hs, hseen⟩
  rcases hn with hn | hn
  · rw [hs] at hn
    cases hn
  · simp [hasNews, hseen] at hn

end

/-! ## The invariant -/

/-- The values that the setting had are in order and end with its present one. Those that the relay took are some of them,
and the last of those is the one that it has seen. Who lost the store had seen all of it. -/
structure Ordered (history taken : List Setting.Channel) (w : World) (p : Relay) : Prop where
  current : history.head? = some (w.store.channel p.key)
  sorted : history.Pairwise fun later earlier => earlier.version < later.version
  sublist : taken.Sublist history
  fresh : p.started = false → taken = []
  seen : p.started = true → taken.head?.map Setting.Channel.version = some p.seen
  quiet : p.reports = 0
  lost : p.watching = false → p.IsCurrent w ∧ w.store.isOpen = false

namespace Ordered
variable {history taken : List Setting.Channel} {w v : World} {p q : Relay}

theorem subscribe (w : World) (key : Setting) (writer : Writer) :
    Ordered [w.store.channel key] [] w { key, writer, seen := (w.store.channel key).version } where
  current := rfl
  sorted := List.pairwise_singleton _ _
  sublist := List.nil_sublist _
  fresh _ := rfl
  seen h := absurd h Bool.false_ne_true
  quiet := rfl
  lost h := absurd h.symm Bool.false_ne_true

theorem exists_older (h : Ordered history taken w p) : ∃ older, history = w.store.channel p.key :: older := by
  have hcurrent := h.current
  cases history with
  | nil => exact absurd hcurrent.symm (Option.some_ne_none _)
  | cons c older => exact ⟨older, by rw [Option.some.inj hcurrent]⟩

/-- No value was set after the present one. -/
theorem version_le (h : Ordered history taken w p) {c : Setting.Channel} (hc : c ∈ history) :
    c.version ≤ (w.store.channel p.key).version := by
  obtain ⟨older, rfl⟩ := h.exists_older
  rcases List.mem_cons.1 hc with rfl | hc
  · exact Nat.le_refl _
  · exact Nat.le_of_lt (List.rel_of_pairwise_cons h.sorted hc)

theorem eq_of_version_eq (h : Ordered history taken w p) {c : Setting.Channel} (hc : c ∈ history)
    (hv : c.version = (w.store.channel p.key).version) : c = w.store.channel p.key := by
  obtain ⟨older, rfl⟩ := h.exists_older
  rcases List.mem_cons.1 hc with rfl | hc
  · rfl
  · have hlt := List.rel_of_pairwise_cons h.sorted hc
    omega

/-- What a relay that has seen all there is took last is the present value. -/
theorem head?_of_isCurrent (h : Ordered history taken w p) (hc : p.IsCurrent w) :
    taken.head? = some (w.store.channel p.key) := by
  obtain ⟨c, hhead, hversion⟩ := Option.map_eq_some_iff.1 (h.seen hc.1)
  have hmem : c ∈ history := h.sublist.subset (List.mem_of_head? hhead)
  rw [hhead, h.eq_of_version_eq hmem (hversion.trans hc.2)]

/-- A value that is not seen yet was not taken yet. -/
theorem sublist_older (h : Ordered history taken w p) (hc : ¬p.IsCurrent w) {older : List Setting.Channel}
    (ho : history = w.store.channel p.key :: older) : taken.Sublist older := by
  cases hs : p.started with
  | false =>
    rw [h.fresh hs]
    exact List.nil_sublist older
  | true =>
    have hsublist := h.sublist
    rw [ho] at hsublist
    cases hsublist with
    | cons _ hsublist => exact hsublist
    | cons_cons _ _ => exact absurd ⟨hs, (Option.some.inj (h.seen hs)).symm⟩ hc

theorem isCurrent (h : Ordered history taken w p) (hs : p.started = true) (hn : p.hasNews w = false) :
    p.IsCurrent w := by
  cases hw : p.watching with
  | false => exact (h.lost hw).1
  | true => exact ⟨hs, seen_eq_of_not_hasNews hw hn⟩

/-! ### What keeps it -/

theorem set (h : Ordered history taken w p) (ho : w.store.isOpen = true) (value : Option String) :
    Ordered (⟨value, (w.store.channel p.key).version + 1⟩ :: history) taken (w.setSetting p.key value) p where
  current := congrArg some (channel_setSetting_self w p.key value).symm
  sorted := List.pairwise_cons.2 ⟨fun _ hc => Nat.lt_succ_of_le (h.version_le hc), h.sorted⟩
  sublist := h.sublist.cons _
  fresh := h.fresh
  seen := h.seen
  quiet := h.quiet
  lost hw := by
    rw [(h.lost hw).2] at ho
    cases ho

theorem take (h : Ordered history taken w p) (hn : p.started = false ∨ p.hasNews w = true) :
    Ordered history (w.store.channel p.key :: taken) (p.handle (.push (w.store.channel p.key).value) w).1
      (p.handle (.push (w.store.channel p.key).value) w).2 := by
  have hnot := not_isCurrent_of_news hn
  have hchannel := (kept_handle (.push (w.store.channel p.key).value) w p).channel
  obtain ⟨older, ho⟩ := h.exists_older
  rw [handle_push_snd]
  refine ⟨?_, h.sorted, ?_, fun hs => absurd hs.symm Bool.false_ne_true, fun _ => rfl, h.quiet, ?_⟩
  · rw [hchannel, h.current]
  · rw [ho]
    exact (h.sublist_older hnot ho).cons_cons _
  · intro hw
    exact absurd (h.lost hw).1 hnot

theorem close (h : Ordered history taken w p) (hs : p.started = true) (hn : p.hasNews w = false)
    (hl : p.hasLost w = true) : Ordered history taken (p.handle .closing w).1 (p.handle .closing w).2 where
  current := h.current
  sorted := h.sorted
  sublist := h.sublist
  fresh := h.fresh
  seen := h.seen
  quiet := h.quiet
  lost _ := by
    rw [hasLost, Bool.and_eq_true, Bool.not_eq_true'] at hl
    exact ⟨h.isCurrent hs hn, hl.2⟩

/-- Every action behind an open gate keeps the invariant, and after it the relay has seen all there is. -/
theorem act (h : Ordered history taken w p) (hg : w.latches.isOpen p.writer.gate = true)
    (hstep : p.step w = (v, some q)) : Ordered history ((p.takes? w).toList ++ taken) v q ∧ q.IsCurrent v := by
  rcases cases_of_quiet hg h.quiet hstep with ⟨hn, htakes, rfl, rfl⟩ | ⟨hs, hn, htakes, ⟨hl, rfl, rfl⟩ | ⟨rfl, rfl⟩⟩
  · rw [htakes]
    refine ⟨h.take hn, ?_⟩
    rw [IsCurrent, (kept_handle _ w p).channel, handle_push_snd]
    exact ⟨rfl, rfl⟩
  · rw [htakes]
    exact ⟨h.close hs hn hl, h.isCurrent hs hn⟩
  · rw [htakes]
    exact ⟨h, h.isCurrent hs hn⟩

theorem aside (h : Ordered history taken w p) (hc : v.store.channel p.key = w.store.channel p.key)
    (ho : v.store.isOpen = true → w.store.isOpen = true) : Ordered history taken v p where
  current := by rw [hc, h.current]
  sorted := h.sorted
  sublist := h.sublist
  fresh := h.fresh
  seen := h.seen
  quiet := h.quiet
  lost hw := by
    obtain ⟨hcurrent, hclosed⟩ := h.lost hw
    refine ⟨⟨hcurrent.1, hc ▸ hcurrent.2⟩, ?_⟩
    rw [← Bool.not_eq_true] at hclosed ⊢
    exact mt ho hclosed

end Ordered

/-! ## All interleavings -/

namespace Delivery
variable {w₀ w : World} {key : Setting} {writer : Writer} {history taken : List Setting.Channel} {p : Relay}

theorem same (h : Delivery w₀ key writer history taken w p) : p.key = key ∧ p.writer = writer := by
  induction h with
  | subscribe => exact ⟨rfl, rfl⟩
  | set value h ho ih => exact ih
  | @act history taken w v p q h hg hstep ih =>
    obtain ⟨hkey, hwriter⟩ := step_snd (congrArg Prod.snd hstep)
    exact ⟨hkey.trans ih.1, hwriter.trans ih.2⟩
  | aside h hslot hchannel hopen ih => exact ih

theorem ordered (h : Delivery w₀ key writer history taken w p) : Ordered history taken w p := by
  induction h with
  | subscribe => exact .subscribe w₀ key writer
  | set value h ho ih =>
    obtain ⟨rfl, -⟩ := h.same
    exact ih.set ho value
  | act h hg hstep ih =>
    obtain ⟨-, rfl⟩ := h.same
    exact (ih.act hg hstep).1
  | aside h hslot hchannel hopen ih =>
    obtain ⟨rfl, -⟩ := h.same
    exact ih.aside hchannel hopen

/-- The slot is what the values that were taken make of it. -/
theorem reconciled (h : Delivery w₀ key writer history taken w p) (hk : writer.slot.kind = .label) :
    Reconciled (w₀.board.tracked writer.slot) (taken.map fun c => .push c.value) w p := by
  induction h with
  | subscribe => exact Reconciled.start (p := { key, writer, seen := (w₀.store.channel key).version }) rfl
  | set value h ho ih => exact ih.congr rfl rfl rfl
  | @act history taken w v p q h hg hstep ih =>
    obtain ⟨-, rfl⟩ := h.same
    rcases cases_of_quiet hg h.ordered.quiet hstep with ⟨-, htakes, rfl, rfl⟩ | ⟨-, -, htakes, ⟨-, rfl, rfl⟩ | ⟨rfl, rfl⟩⟩
    · rw [htakes]
      exact ih.handle ((Latches.isOpen_iff _ _).1 hg) hk _
    · rw [htakes]
      exact ih.congr rfl rfl rfl
    · rw [htakes]
      exact ih
  | aside h hslot hchannel hopen ih =>
    refine ih.congr rfl rfl ?_
    rw [h.same.2, hslot]

end Delivery

theorem lastPush_map_push (cs : List Setting.Channel) :
    lastPush (cs.map fun c => .push c.value) = cs.head?.map Setting.Channel.value := by
  cases cs <;> rfl

theorem hasReason_map_push (cs : List Setting.Channel) :
    hasReason (cs.map fun c => .push c.value) = true ↔ ∃ c ∈ cs, c.value ≠ none := by
  simp [hasReason, Option.isSome_iff_ne_none]

/-- Without a reason to say that the setting is not set nothing was written. -/
theorem writes_eq_zero {es : List Event} (h : hasReason es = false) : writes es = 0 := by
  induction es with
  | nil => rfl
  | cons e es ih =>
    rw [hasReason_cons, Bool.or_eq_false_iff] at h
    have hholds : holdsValue es = false := by
      rw [← Bool.not_eq_true]
      intro hv
      rw [hasReason_of_holdsValue hv] at h
      exact absurd h.2 Bool.false_ne_true.symm
    rw [writes_cons, ih h.2, hholds]
    cases e with
    | push value =>
      cases value with
      | some v => exact absurd h.1 Bool.false_ne_true.symm
      | none => rfl
    | absent => exact absurd h.1 Bool.false_ne_true.symm
    | closing => rfl
    | quiet => rfl

/-- **The order of delivery.** Whenever the setting is set and whenever the relay acts: what it took are some of the values
that the setting had, in their order and each at most once, from the one on that was there when it first acted. With its
next action it takes the present value if it has not seen it, and else none, so one action is always enough to see all there
is. A relay that has seen all there is took the present value last, and its slot shows it: a value by itself, and no value
as not set if there was one before. Otherwise nothing was written. -/
theorem delivers_in_order {w₀ w : World} {key : Setting} {writer : Writer} {history taken : List Setting.Channel}
    {p : Relay} (h : Delivery w₀ key writer history taken w p) :
    (history.head? = some (w.store.channel key) ∧
      history.Pairwise fun later earlier => earlier.version < later.version) ∧
    (taken.Sublist history ∧ (taken.Pairwise fun later earlier => earlier.version < later.version) ∧
      (taken = [] ↔ p.started = false)) ∧
    (w.latches.isOpen writer.gate = true →
      (¬p.IsCurrent w → p.takes? w = some (w.store.channel key)) ∧ (p.IsCurrent w → p.takes? w = none) ∧
      ∃ v q, p.step w = (v, some q) ∧ q.IsCurrent v) ∧
    (p.IsCurrent w → taken.head? = some (w.store.channel key)) ∧
    (writer.slot.kind = .label → p.IsCurrent w →
      (∀ v, w.store.get key = some v → w.board.get writer.slot = some (.label v)) ∧
      (w.store.get key = none → (∃ c ∈ taken, c.value ≠ none) → w.board.get writer.slot = some .notSet) ∧
      (w.store.get key = none → (∀ c ∈ taken, c.value = none) →
        w.board.get writer.slot = w₀.board.get writer.slot ∧
        (w.board.tracked writer.slot).updates = (w₀.board.tracked writer.slot).updates)) := by
  have ho := h.ordered
  have hreconciled := h.reconciled
  obtain ⟨rfl, rfl⟩ := h.same
  refine ⟨⟨ho.current, ho.sorted⟩, ⟨ho.sublist, ho.sorted.sublist ho.sublist, ?_, ho.fresh⟩, ?_,
    ho.head?_of_isCurrent, ?_⟩
  · rintro rfl
    rw [← Bool.not_eq_true]
    exact fun hs => absurd (ho.seen hs) (Option.some_ne_none _).symm
  · intro hg
    have hend : (p.step w).2 ≠ none := by
      rw [Ne, step_snd_eq_none_iff, (Latches.isOpen_iff _ _).1 hg]
      exact fun hend => absurd hend.2 Bool.false_ne_true
    obtain ⟨q, hq⟩ := Option.ne_none_iff_exists'.1 hend
    refine ⟨?_, ?_, (p.step w).1, q, Prod.ext rfl hq, (ho.act hg (Prod.ext rfl hq)).2⟩
    · intro hnot
      rcases step_cases_of_quiet hg ho.quiet with ⟨-, htakes, -⟩ | ⟨hs, hn, -⟩
      · exact htakes
      · exact absurd (ho.isCurrent hs hn) hnot
    · intro hc
      rcases step_cases_of_quiet hg ho.quiet with ⟨hn, -⟩ | ⟨-, -, htakes, -⟩
      · exact absurd hc (not_isCurrent_of_news hn)
      · exact htakes
  · intro hk hc
    have hr := hreconciled hk
    have hcurrent := hr.current
    have hlast : lastPush (taken.map fun c => .push c.value) = some (w.store.get p.key) := by
      rw [lastPush_map_push, ho.head?_of_isCurrent hc]
      rfl
    have hnone (hv : w.store.get p.key = none) : holdsValue (taken.map fun c => .push c.value) = false := by
      rw [holdsValue, hlast, hv]
      rfl
    refine ⟨?_, ?_, ?_⟩
    · intro v hv
      rw [shown, hlast, hv] at hcurrent
      exact hcurrent
    · intro hv hreason
      rw [shown_of_not_holdsValue (hnone hv), (hasReason_map_push taken).2 hreason, if_pos rfl] at hcurrent
      exact hcurrent
    · intro hv hall
      have hreason : ¬∃ c ∈ taken, c.value ≠ none := by
        rintro ⟨c, hm, hne⟩
        exact hne (hall c hm)
      rw [shown_of_not_holdsValue (hnone hv), if_neg (mt (hasReason_map_push taken).1 hreason)] at hcurrent
      have hwrites := hr.updates
      rw [writes_eq_zero (Bool.eq_false_iff.2 (mt (hasReason_map_push taken).1 hreason))] at hwrites
      exact ⟨hcurrent, hwrites⟩

/-- Two equal values in a row of which the second one is taken, and a value that was cleared before it was seen: the setting
had six values, and two of them were taken. -/
theorem delivers_in_order_coalesced :
    let gate : Gate := ⟨0, [], 0⟩
    let w₀ : World := { latches := { made := 1 }, store := .ofSnapshot { gridpathDatabase := some "a.db" } }
    ∃ history taken w p, Delivery w₀ .gridpathDatabase ⟨.gridpathDatabase, gate⟩ history taken w p ∧
      history.map Setting.Channel.value = [none, some "c.db", none, some "b.db", some "b.db", some "a.db"] ∧
      taken = [⟨none, 5⟩, ⟨some "b.db", 2⟩] ∧ p.IsCurrent w ∧ w.board.get .gridpathDatabase = some .notSet := by
  intro gate w₀
  let p : Relay := { key := .gridpathDatabase, writer := ⟨.gridpathDatabase, gate⟩, seen := 0 }
  let w₁ := (w₀.setSetting .gridpathDatabase (some "b.db")).setSetting .gridpathDatabase (some "b.db")
  let w₂ := (((p.step w₁).1.setSetting .gridpathDatabase none).setSetting .gridpathDatabase
    (some "c.db")).setSetting .gridpathDatabase none
  let q : Relay := { p with seen := 2, started := true, hasValue := true }
  let r : Relay := { p with seen := 5, started := true, hasValue := false }
  have h₀ : Delivery w₀ .gridpathDatabase ⟨.gridpathDatabase, gate⟩ [⟨some "a.db", 0⟩] [] w₀ p := .subscribe
  have h₁ := (h₀.set (some "b.db") rfl).set (some "b.db") rfl
  have h₂ := (((h₁.act rfl (Prod.ext rfl rfl : p.step w₁ = (_, some q))).set none rfl).set (some "c.db") rfl).set none rfl
  have h := h₂.act rfl (Prod.ext rfl rfl : q.step w₂ = (_, some r))
  have hcurrent : r.IsCurrent (q.step w₂).1 := ⟨rfl, rfl⟩
  obtain ⟨-, -, -, -, hslot⟩ := delivers_in_order h
  refine ⟨_, _, _, _, h, rfl, rfl, hcurrent, ?_⟩
  exact (hslot rfl hcurrent).2.1 rfl ⟨⟨some "b.db", 2⟩, by decide, by decide⟩

end Dashboard.Relay
