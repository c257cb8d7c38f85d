import Dashboard.Proofs.Relay.Reconciliation
import Dashboard.Proofs.Session.History
import Mathlib.Data.List.Count

/-! # When the board agrees with the settings

When a relay has seen the latest value of its setting, has no report left, and the snapshot of its activation was
answered, its slot shows the value of the setting. Where there is no value, it says so if the snapshot said so or the
relay itself took a value before. A value that only the snapshot saw, and that was cleared before the relay took it,
leaves the slot as it was.

* `Activation.Followed`: the invariant between the history of a relay, the answers to its inquiry, and the system.
* `Activation.Followed.handle`, `other`, `aside`: an action of the relay, of another producer, and anything else.
* `Session.State.Sound.followed_run`: all runs in which the activation stays stored.
* `Session.State.agreement_at_rest`: what the slot shows at rest.
-/

namespace Dashboard
set_option autoImplicit false

/-- What a slot shows for a value of its setting. -/
def Setting.statusOf : Option String → Status
  | some v => .label v
  | none => .notSet

/-- The relay of a handle is what its history makes of a slot that was `content`. It has seen the last value that it
took, and its reports, waiting or handled, are those of a snapshot that the inquiry learned. -/
structure Activation.Followed (a : Activation) (h : RelayHandle) (content : Tracked) (es : List Relay.Event)
    (answers : List (Except Failure Setting.Snapshot)) (s : System) (p : Relay) : Prop where
  mem : ⟨h.task, .relay p⟩ ∈ s.tasks
  key : p.key = h.key
  writer : p.writer = h.writer
  reconciled : Relay.Reconciled content es s.world p
  le : p.seen ≤ (s.world.store.channel h.key).version
  latest : p.started = true → p.seen = (s.world.store.channel h.key).version →
    Relay.lastPush es = some (s.world.store.channel h.key).value
  reports : .absent ∈ es ∨ 0 < p.reports ↔ ∃ x, .ok x ∈ answers ∧ x.get h.key = none
  asked : answers = [] ∨ answers.length = 1 ∧ ∀ t ∈ s.tasks, t.id ≠ a.inquiry

/-! ## The addressees of a snapshot -/

namespace Activation
variable {a : Activation} {h : RelayHandle}

theorem WellFormed.eq_of_task (ha : a.WellFormed) {x y : RelayHandle} (hx : x ∈ a.relays)
    (hy : y ∈ a.relays) (htask : x.task = y.task) : x = y := by
  have hnodup : (a.relays.map RelayHandle.task).Nodup := by
    refine ha.nodup.sublist ?_
    have hsub : (a.relays.map RelayHandle.task).Sublist (a.posts.map Prod.fst) := by
      simp [posts, Function.comp_def]
    exact hsub.trans (List.sublist_append_left _ _)
  exact List.inj_on_of_nodup_map hnodup hx hy htask

/-- A snapshot is reported to the relay of a handle once if it says that the setting is absent, and else not at all. -/
theorem WellFormed.countP_addressees_eq (ha : a.WellFormed) (hm : h ∈ a.relays) (x : Setting.Snapshot) :
    (Inquiry.addressees x (a.relays.map RelayHandle.reconciler)).countP (fun r => r.relay = h.task) =
      if (x.get h.key).isNone then 1 else 0 := by
  rw [Inquiry.addressees, List.countP_filter, List.countP_map]
  cases habsent : (x.get h.key).isNone with
  | true =>
    have hnodup : a.relays.Nodup := .of_map RelayHandle.key (ha.keys ▸ (by decide : Setting.all.Nodup))
    rw [if_pos rfl, ← List.count_eq_one_of_mem hnodup hm]
    apply List.countP_congr
    intro y hy
    rw [beq_iff_eq]
    constructor
    · intro hyes
      rw [Function.comp_apply, Bool.and_eq_true] at hyes
      exact ha.eq_of_task hy hm (of_decide_eq_true hyes.1)
    · rintro rfl
      simpa [RelayHandle.reconciler] using habsent
  | false =>
    rw [if_neg Bool.false_ne_true, List.countP_eq_zero]
    intro y hy hyes
    rw [Function.comp_apply, Bool.and_eq_true] at hyes
    obtain rfl := ha.eq_of_task hy hm (of_decide_eq_true hyes.1)
    exact absurd (habsent.symm.trans hyes.2) Bool.false_ne_true

theorem WellFormed.countP_addressees (ha : a.WellFormed) (hm : h ∈ a.relays) (x : Setting.Snapshot) :
    0 < (Inquiry.addressees x (a.relays.map RelayHandle.reconciler)).countP (fun r => r.relay = h.task) ↔
      x.get h.key = none := by
  rw [ha.countP_addressees_eq hm, ← Option.isNone_iff_eq_none]
  cases (x.get h.key).isNone with
  | true => simp
  | false => simp

end Activation

/-! ## One event -/

namespace Activation.Followed
variable {a : Activation} {h : RelayHandle} {content : Tracked} {es : List Relay.Event}
  {answers : List (Except Failure Setting.Snapshot)} {s s' : System} {p : Relay}

theorem handle (f : a.Followed h content es answers s p)
    (hg : s.world.latches.isClosed h.writer.gate = false) (hk : h.writer.slot.kind = .label)
    (hmem : ⟨h.task, .relay (p.handle (p.due s.world) s.world).2⟩ ∈ s'.tasks)
    (hworld : ∃ journal, s'.world = { (p.handle (p.due s.world) s.world).1 with journal })
    (hids : ∀ u ∈ s'.tasks, ∃ t ∈ s.tasks, t.badge = u.badge) :
    a.Followed h content (p.due s.world :: es) answers s' (p.handle (p.due s.world) s.world).2 := by
  obtain ⟨hkey, hwriter⟩ := Relay.handle_snd_same (p.due s.world) s.world p
  have hkept := Relay.kept_handle (p.due s.world) s.world p
  obtain ⟨journal, hw⟩ := hworld
  have hchannel : s'.world.store.channel = s.world.store.channel := by rw [hw]; exact hkept.channel
  have hrec := f.reconciled.handle (f.writer ▸ hg) (f.writer ▸ hk) (p.due s.world)
  have hreconciled : Relay.Reconciled content (p.due s.world :: es) s'.world
      (p.handle (p.due s.world) s.world).2 := by
    rw [hw]
    exact hrec.congr rfl rfl rfl
  have hasked : answers = [] ∨ answers.length = 1 ∧ ∀ t ∈ s'.tasks, t.id ≠ a.inquiry := by
    rcases f.asked with hnil | ⟨hone, hgone⟩
    · exact .inl hnil
    · refine .inr ⟨hone, ?_⟩
      intro u hu
      obtain ⟨t, ht, hb⟩ := hids u hu
      have hid : t.id = u.id := congrArg Prod.fst hb
      exact hid ▸ hgone t ht
  refine ⟨hmem, hkey.trans f.key, hwriter.trans f.writer, hreconciled, ?_, ?_, ?_, hasked⟩
  · rw [hchannel]
    cases hd : p.due s.world with
    | push value =>
      apply Nat.le_of_eq
      rw [Relay.handle_push_snd, f.key]
    | absent => exact f.le
    | closing => exact f.le
    | quiet => exact f.le
  · rw [hchannel]
    cases hd : p.due s.world with
    | push value =>
      intro _ _
      rw [← f.key]
      exact congrArg some (Relay.value_of_due hd)
    | absent => exact f.latest
    | closing => exact f.latest
    | quiet => exact f.latest
  · rw [← f.reports]
    cases hd : p.due s.world with
    | push value =>
      rw [Relay.handle_push_snd]
      simp
    | absent => simp [Relay.reports_of_due hd]
    | closing => simp [Relay.handle]
    | quiet => simp [Relay.handle]

/-- Another producer acts: it may report, and it writes elsewhere. -/
theorem other (f : a.Followed h content es answers s p) {n : Nat}
    {news : List (Except Failure Setting.Snapshot)}
    (hmem : ⟨h.task, .relay { p with reports := p.reports + n }⟩ ∈ s'.tasks)
    (hslot : s'.world.board.tracked h.writer.slot = s.world.board.tracked h.writer.slot)
    (hchannel : s'.world.store.channel = s.world.store.channel)
    (hn : 0 < n ↔ ∃ x, .ok x ∈ news ∧ x.get h.key = none)
    (hasked : news ++ answers = [] ∨ (news ++ answers).length = 1 ∧ ∀ t ∈ s'.tasks, t.id ≠ a.inquiry) :
    a.Followed h content es (news ++ answers) s' { p with reports := p.reports + n } where
  mem := hmem
  key := f.key
  writer := f.writer
  reconciled := f.reconciled.congr rfl rfl (f.writer ▸ hslot)
  le := hchannel ▸ f.le
  latest := hchannel ▸ f.latest
  reports := by
    have hpos : 0 < p.reports + n ↔ 0 < p.reports ∨ 0 < n := by omega
    rw [hpos, ← or_assoc, f.reports, hn]
    simp only [List.mem_append, or_and_right, exists_or]
    exact or_comm
  asked := hasked

/-- A call or a change of the surroundings: at most the setting is set. -/
theorem aside (f : a.Followed h content es answers s p) (htasks : s'.tasks.Perm s.tasks)
    (hboard : s'.world.board = s.world.board)
    (hchannel : s'.world.store.channel h.key = s.world.store.channel h.key ∨
      (s.world.store.channel h.key).version < (s'.world.store.channel h.key).version) :
    a.Followed h content es answers s' p where
  mem := htasks.mem_iff.2 f.mem
  key := f.key
  writer := f.writer
  reconciled := f.reconciled.congr rfl rfl (by rw [hboard])
  le := by
    have hle := f.le
    rcases hchannel with hc | hc
    · rwa [hc]
    · omega
  latest hs hv := by
    have hle := f.le
    rcases hchannel with hc | hc
    · rw [hc] at hv ⊢
      exact f.latest hs hv
    · omega
  reports := f.reports
  asked := by
    rcases f.asked with hnil | ⟨hone, hgone⟩
    · exact .inl hnil
    · exact .inr ⟨hone, fun t ht => hgone t (htasks.mem_iff.1 ht)⟩

end Activation.Followed

/-! ## All runs -/

namespace Session.State
variable {σ : State} {a : Activation} {h : RelayHandle}

/-- The start of an activation: the relay has done nothing, and nothing was learned. -/
theorem followed_of_begins {s s' : System} (hb : a.Begins s s') (hm : h ∈ a.relays) :
    ∃ p, a.Followed h (s.world.board.tracked h.writer.slot) [] [] s' p := by
  obtain ⟨ts, -, hbegun⟩ := hb.producers
  let p : Relay := { key := h.key, writer := h.writer, seen := (s.world.store.channel h.key).version }
  have hmem : ⟨h.task, .relay p⟩ ∈ s'.tasks := by
    refine (hbegun.mem_iff _).2 (.inr (List.mem_append_left _ (List.mem_append_right _ ?_)))
    exact List.mem_map_of_mem (f := RelayHandle.fresh s.world.store) hm
  refine ⟨p, hmem, rfl, rfl, ?_, ?_, ?_, ?_, .inl rfl⟩
  · have hstart := Relay.Reconciled.start (w := s'.world) (p := p) rfl
    rwa [hbegun.board] at hstart
  · apply Nat.le_of_eq
    rw [hbegun.channel]
  · intro hs
    exact absurd hs Bool.false_ne_true
  · simp [p]

/-- An action of another producer than the relay: at most, the inquiry learns and reports. -/
theorem Sound.followed_act_other (hs : σ.Sound) (ha : σ.activation? = some a) (hm : h ∈ a.relays)
    {content : Tracked} {es : List Relay.Event} {answers : List (Except Failure Setting.Snapshot)}
    {p : Relay} (f : a.Followed h content es answers σ.system p) {j : Nat} {t : Task}
    (ht : σ.system.acting j = some t) (hj : j ≠ h.task) :
    ∃ q, a.Followed h content es ((seen Producer.learns? a.inquiry σ (.act j)).toList ++ answers)
      (σ.after (.act j)).system q := by
  obtain ⟨hlearns, hrole⟩ := hs.seen_learns? ha ht
  obtain ⟨htm, hid, -⟩ := System.mem_of_acting ht
  have hboard : (σ.system.act j).world.board.tracked h.writer.slot =
      σ.system.world.board.tracked h.writer.slot := by
    rcases hs.board_after (.act j) with hb | ⟨b, i, x, hb, hij, hx, now, status, hw⟩
    · exact congrArg (fun b => Board.tracked b h.writer.slot) hb
    · obtain rfl : b = a := Option.some.inj (hb.symm.trans ha)
      injection hij with hij
      subst hij
      have hslot : h.writer.slot ≠ x.slot := by
        intro hslot
        have hpost := (hs.wellFormed b ha).eq_of_slot hx (Activation.mem_posts_relay hm) hslot.symm
        exact hj (congrArg Prod.fst hpost)
      exact (congrArg (fun b => Board.tracked b h.writer.slot) hw).trans (Board.tracked_set_ne _ _ _ hslot)
  have hcount : 0 < (t.producer.step σ.system.world).2.2.countP (fun r => r.relay = h.task) ↔
      ∃ x, .ok x ∈ (t.producer.learns? σ.system.world).toList ∧ x.get h.key = none := by
    rw [Producer.step_reports]
    cases hl : t.producer.learns? σ.system.world with
    | none => simp
    | some answer =>
      cases answer with
      | error failure => simp
      | ok x =>
        rw [hrole (by rw [hl]; exact Option.some_ne_none _)]
        have haddressees := (hs.wellFormed a ha).countP_addressees hm x
        simpa [Producer.Role.reconcilers] using haddressees
  refine ⟨_, f.other (System.mem_act_of_other f.mem ht hj) hboard (System.kept_act _ j).channel ?_ ?_⟩
  · rw [hlearns]
    exact hcount
  · rw [hlearns]
    cases hl : t.producer.learns? σ.system.world with
    | none =>
      rcases f.asked with hnil | ⟨hone, hgone⟩
      · exact .inl hnil
      · refine .inr ⟨hone, ?_⟩
        intro u hu
        obtain ⟨v, hv, hb⟩ := System.exists_of_mem_act hu
        have hvu : v.id = u.id := congrArg Prod.fst hb
        exact hvu ▸ hgone v hv
    | some answer =>
      have hinquiry : j = a.inquiry := by
        by_contra hne
        have hseen : seen Producer.learns? a.inquiry σ (.act j) = none := if_neg hne
        rw [hlearns, hl] at hseen
        exact absurd hseen (Option.some_ne_none answer)
      -- It learns in its last action, so it had not learned anything before and is gone afterwards.
      have hgone : ∀ u ∈ (σ.after (.act j)).system.tasks, u.id ≠ a.inquiry := by
        intro u hu
        rw [← hinquiry]
        exact System.ne_of_mem_act ht (Producer.step_of_learns? hl) hu
      refine .inr ⟨?_, hgone⟩
      rcases f.asked with hnil | ⟨-, hbefore⟩
      · rw [hnil]
        rfl
      · exact absurd (hid.trans hinquiry) (hbefore t htm)

theorem Sound.followed_after (hs : σ.Sound) (ha : σ.activation? = some a) {e : Event}
    (hafter : (σ.after e).activation? = some a) (hm : h ∈ a.relays) {content : Tracked}
    {es : List Relay.Event} {answers : List (Except Failure Setting.Snapshot)} {p : Relay}
    (f : a.Followed h content es answers σ.system p) :
    ∃ q, a.Followed h content ((seen Producer.handles? h.task σ e).toList ++ es)
      ((seen Producer.learns? a.inquiry σ e).toList ++ answers) (σ.after e).system q := by
  by_cases he : ∃ j, e = .act j
  · obtain ⟨j, rfl⟩ := he
    cases ht : σ.system.acting j with
    | none =>
      have hnone {α : Type} (g : World → Producer → Option α) (i : Nat) :
          seen g i σ (.act j) = none := by
        by_cases hj : j = i
        · subst hj
          simp [seen, ht]
        · exact if_neg hj
      rw [hnone, hnone, State.after, System.act_of_none ht]
      exact ⟨p, f⟩
    | some t =>
      by_cases hj : j = h.task
      · subst hj
        obtain ⟨htm, hid, -⟩ := System.mem_of_acting ht
        obtain rfl := hs.numbered.eq_of_id htm f.mem hid
        have hg := ((hs.running a ha).posts _ (Activation.mem_posts_relay hm)).2
        have hopen : p.started = false ∨ σ.system.world.latches.isClosed p.writer.gate = false :=
          .inr (f.writer ▸ hg)
        have hhandles : seen Producer.handles? h.task σ (.act h.task) = some (p.due σ.system.world) := by
          simp [seen, ht, Producer.handles?, f.writer, hg]
        have hlearns : seen Producer.learns? a.inquiry σ (.act h.task) = none :=
          (hs.seen_learns? ha ht).1.trans rfl
        have hk : h.writer.slot.kind = .label := by
          rw [(hs.wellFormed a ha).keySlot h hm]
          exact Setting.kind_slot h.key
        obtain ⟨hmem, hworld⟩ := System.mem_act_of_self ht hopen
        rw [hhandles, hlearns]
        exact ⟨_, f.handle hg hk hmem hworld fun u hu => System.exists_of_mem_act hu⟩
      · have hhandles : seen Producer.handles? h.task σ (.act j) = none := if_neg hj
        rw [hhandles]
        exact hs.followed_act_other ha hm f ht hj
  · rw [seen_of_ne _ _ (not_exists.1 he _), seen_of_ne _ _ (not_exists.1 he _)]
    have hcloses := closes_of_stored (not_exists.1 he) ha hafter
    exact ⟨p, f.aside hcloses.tasks hcloses.board (channel_of_stored (not_exists.1 he) ha hafter h.key)⟩

theorem Sound.followed_run (hs : σ.Sound) (ha : σ.activation? = some a) (hm : h ∈ a.relays)
    {content : Tracked} {p : Relay} (f : a.Followed h content [] [] σ.system p) (es : List Event)
    (hstored : (σ.run es).activation? = some a) :
    ∃ q, a.Followed h content (history Producer.handles? h.task σ es)
      (history Producer.learns? a.inquiry σ es) (σ.run es).system q := by
  induction es with
  | nil => exact ⟨p, f⟩
  | cons e es ih =>
    have hbefore := activation?_of_stored hs ha hstored
    obtain ⟨q, hq⟩ := ih hbefore
    exact (hs.run es).followed_after hbefore hstored hm hq

/-! ## At rest -/

/-- After a run the activation is stored, its inquiry learned a snapshot and reported, and the relay of a handle has
started, has no report left, and has seen what the store holds. -/
structure AtRest (σ : State) (es : List Event) (a : Activation) (h : RelayHandle) (x : Setting.Snapshot) : Prop where
  stored : (σ.run es).activation? = some a
  learned : .ok x ∈ history Producer.learns? a.inquiry σ es
  relay : ∃ p, ⟨h.task, .relay p⟩ ∈ (σ.run es).system.tasks ∧ p.started = true ∧ p.reports = 0 ∧
    p.seen = ((σ.run es).system.world.store.channel h.key).version

theorem Sound.get_of_atRest (hs : σ.Sound) (ha : σ.activation? = some a) (hm : h ∈ a.relays)
    {content : Tracked} {p : Relay} (f : a.Followed h content [] [] σ.system p) {es : List Event}
    {x : Setting.Snapshot} (hrest : σ.AtRest es a h x) :
    (∀ v, (σ.run es).system.world.store.get h.key = some v →
      (σ.run es).board.get h.key.slot = some (.label v)) ∧
    ((σ.run es).system.world.store.get h.key = none →
      (x.get h.key = none ∨ (∃ v, .push (some v) ∈ history Producer.handles? h.task σ es) →
        (σ.run es).board.get h.key.slot = some .notSet) ∧
      (¬(x.get h.key = none ∨ ∃ v, .push (some v) ∈ history Producer.handles? h.task σ es) →
        (σ.run es).board.get h.key.slot = content.current)) := by
  obtain ⟨p', hp, hstarted, hmail, hseen⟩ := hrest.relay
  obtain ⟨q, f⟩ := hs.followed_run ha hm f es hrest.stored
  obtain rfl : p' = q := by
    have hpq : (⟨h.task, .relay p'⟩ : Task) = ⟨h.task, .relay q⟩ :=
      (hs.run es).numbered.eq_of_id hp f.mem rfl
    injection hpq with _ hpq
    exact Producer.relay.inj hpq
  have hlast := f.latest hstarted hseen
  have hslot : p'.writer.slot = h.key.slot := by rw [f.writer, (hs.wellFormed a ha).keySlot h hm]
  have hshown := f.reconciled.current
  rw [hslot] at hshown
  have hanswers : history Producer.learns? a.inquiry σ es = [.ok x] := by
    have hmem := hrest.learned
    rcases f.asked with hnil | ⟨hone, -⟩
    · rw [hnil] at hmem
      exact absurd hmem List.not_mem_nil
    · obtain ⟨y, hy⟩ := List.length_eq_one_iff.1 hone
      rw [hy, List.mem_singleton] at hmem
      rw [hy, hmem]
  have habsent : .absent ∈ history Producer.handles? h.task σ es ↔ x.get h.key = none := by
    have hreports := f.reports
    rw [hmail, hanswers] at hreports
    simpa using hreports
  refine ⟨?_, ?_⟩
  · intro v hv
    have hpush : Relay.lastPush (history Producer.handles? h.task σ es) = some (some v) :=
      hlast.trans (congrArg some hv)
    refine hshown.trans ?_
    rw [Relay.shown, hpush]
  · intro hv
    have hpush : Relay.lastPush (history Producer.handles? h.task σ es) = some none :=
      hlast.trans (congrArg some hv)
    have hholds : Relay.holdsValue (history Producer.handles? h.task σ es) = false := by
      rw [Relay.holdsValue, hpush]
      rfl
    rw [Relay.shown_of_not_holdsValue hholds] at hshown
    have hreason := Relay.hasReason_iff (history Producer.handles? h.task σ es)
    rw [habsent, or_comm] at hreason
    refine ⟨?_, ?_⟩
    · intro hr
      rw [if_pos (hreason.2 hr)] at hshown
      exact hshown
    · intro hr
      rw [if_neg (mt hreason.1 hr)] at hshown
      exact hshown

/-- **Agreement at rest.** From any idle moment of any run on, activate the dashboard, and let anything happen in any
order while the activation stays stored. At rest the slot of a setting shows the value of the setting if there is one,
and else that it is not set, exactly if one of these holds: the setting has a value; the snapshot said that it has none;
the relay took a value at some time; or the slot said so already before the activation. Otherwise the slot is as it was
before the activation: pending, or with a value that the store does not hold any more. -/
theorem agreement_at_rest (σ₀ : State) (hnew : σ₀.IsNew) (past : List Event) (a : Activation)
    (hidle : (σ₀.run past).activation? = none)
    (hstart : ((σ₀.run past).after .activate).activation? = some a) (h : RelayHandle)
    (hm : h ∈ a.relays) (es : List Event) (x : Setting.Snapshot)
    (hrest : ((σ₀.run past).after .activate).AtRest es a h x) :
    let σ := (σ₀.run past).after .activate
    let before := (σ₀.run past).board.get h.key.slot
    let value := (σ.run es).system.world.store.get h.key
    ((σ.run es).board.get h.key.slot = some (Setting.statusOf value) ↔
      value.isSome = true ∨ x.get h.key = none ∨
        (∃ v, .push (some v) ∈ history Producer.handles? h.task σ es) ∨
        before = some .notSet) ∧
    ((σ.run es).board.get h.key.slot ≠ some (Setting.statusOf value) →
      (σ.run es).board.get h.key.slot = before) := by
  intro σ before value
  have hpast : (σ₀.run past).Sound := (Sound.of_isNew hnew).run past
  have hs : σ.Sound := hpast.after .activate
  have hb : a.Begins (σ₀.run past).system σ.system := by
    cases (σ₀.run past).happens_after .activate with
    | aside hs hl hsame => exact absurd (hstart.symm.trans (hsame.trans hidle)) (Option.some_ne_none a)
    | begins b hn hb hs => exact Option.some.inj (hb.symm.trans hstart) ▸ hs
    | ends b he hb hn ns hns hs => exact absurd (hstart.symm.trans hn) (Option.some_ne_none a)
  obtain ⟨p, f⟩ := followed_of_begins hb hm
  have hslot : h.writer.slot = h.key.slot := hb.keySlot h hm
  obtain ⟨hsome, hnone⟩ := hs.get_of_atRest hstart hm f hrest
  rw [hslot] at hnone
  cases hv : value with
  | some v =>
    have hget := hsome v hv
    simp [hget, Setting.statusOf]
  | none =>
    obtain ⟨hshows, hkeeps⟩ := hnone hv
    by_cases hr : x.get h.key = none ∨ ∃ v, .push (some v) ∈ history Producer.handles? h.task σ es
    · have hget := hshows hr
      refine ⟨⟨?_, fun _ => hget⟩, fun hne => absurd hget hne⟩
      intro _
      exact .inr (hr.imp_right .inl)
    · have hget : (σ.run es).board.get h.key.slot = before := hkeeps hr
      rw [not_or] at hr
      refine ⟨?_, fun _ => hget⟩
      rw [hget]
      simp [hr.1, hr.2, Setting.statusOf]

/-- A setting without a value: the inquiry learns so and reports, and the relay says that it is not set. -/
theorem agreement_at_rest_of_absent :
    let σ := ((ofSettings {}).run []).after .activate
    let es : List Event := [.act 4, .act 4, .act 6, .act 6]
    (ofSettings {}).IsNew ∧ ∃ a h x, σ.activation? = some a ∧ h ∈ a.relays ∧ σ.AtRest es a h x ∧
      (σ.run es).board.get .gridpathDatabase = some .notSet := by
  intro σ es
  let a : Activation := σ.activation?.get (by decide)
  let h : RelayHandle := ⟨.gridpathDatabase, ⟨.gridpathDatabase, ⟨5, [0], 0⟩⟩, 4⟩
  let p : Relay := { key := .gridpathDatabase, writer := h.writer, seen := 0, started := true }
  have ha : σ.activation? = some a := (Option.some_get _).symm
  have hm : h ∈ a.relays := by decide
  have hrest : σ.AtRest es a h {} :=
    ⟨by decide +kernel, by decide +kernel, p, by decide +kernel, rfl, rfl, by decide +kernel⟩
  have agreement := agreement_at_rest (ofSettings {}) (isNew_ofSettings _) [] a rfl ha h hm es {} hrest
  exact ⟨isNew_ofSettings _, a, h, {}, ha, hm, hrest, agreement.1.2 (.inr (.inl rfl))⟩

/-- The snapshot sees a value that is cleared before the relay takes it. Then the setting is not set and the dashboard is
at rest, but the slot stays pending. -/
theorem pending_at_rest :
    let σ₀ : State := ofSettings { scenariosDirectory := some "/srv/a" }
    let σ := (σ₀.run []).after .activate
    let es : List Event := [.act 3, .setting .scenariosDirectory none, .act 6, .act 6]
    σ₀.IsNew ∧ ∃ a h x, σ.activation? = some a ∧ h ∈ a.relays ∧ h.key = .scenariosDirectory ∧
      σ.AtRest es a h x ∧
      (σ.run es).system.world.store.get .scenariosDirectory = none ∧
      (σ.run es).board.get .scenariosDirectory = none := by
  intro σ₀ σ es
  let a : Activation := σ.activation?.get (by decide)
  let h : RelayHandle := ⟨.scenariosDirectory, ⟨.scenariosDirectory, ⟨4, [0], 0⟩⟩, 3⟩
  let p : Relay := { key := .scenariosDirectory, writer := h.writer, seen := 1, started := true }
  have hrest : σ.AtRest es a h { scenariosDirectory := some "/srv/a" } :=
    ⟨by decide +kernel, by decide +kernel, p, by decide +kernel, rfl, rfl, by decide +kernel⟩
  refine ⟨isNew_ofSettings _, a, h, _, (Option.some_get _).symm, ?_, rfl, hrest, ?_, ?_⟩
  · decide
  · decide +kernel
  · decide +kernel

end Session.State
end Dashboard
