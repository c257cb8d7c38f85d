import Dashboard.Command.Program
import Dashboard.Proofs.Command.Arguments
import Dashboard.Proofs.Config.RoundTrip
import Dashboard.Proofs.Console.Display

/-! # What the check of a configuration promises

The program can be asked to check its configuration, and then it ends at once and tells by its exit whether the same
arguments without that flag would show a dashboard. A dashboard that is shown has a configuration that passes the check, so
each of its samplers runs at the period that was configured.

* `Config.used_feed`: a configuration that passes asks for periods that are used as they are.
* `Command.Decision.ofOptions_of_invalid`, `Command.Decision.ofOptions_of_valid`: the ways out of the program.
* `Command.Decision.exists_of_display`: what came before a dashboard.
* `Live.feeds_start`: what the samplers of a live dashboard sample.
* `Command.Decision.check_law`: all that the check promises.
-/

namespace Dashboard
set_option autoImplicit false

/-! ## Periods that pass -/

namespace Config
variable {c : Config}

/-- No period that passes the check is replaced by the shortest one. -/
theorem used_feed (h : c.validate = .ok ()) {x : Slot × Feed} (hx : x ∈ (c.polling.session 0 1 2).feeds) :
    x.2.period ≠ 0 ∧ x.2.used = x.2 := by
  obtain ⟨-, -, hserver, hrun, hvalidation⟩ := validate_eq_ok_iff.1 h
  have hpositive {n : UInt64} (hn : n ≠ 0) : n.toNat ≠ 0 := fun h => hn (UInt64.toNat_inj.1 h)
  have hperiod : x.2.period ≠ 0 := by
    simp only [Polling.session, Session.feeds, List.mem_cons, List.not_mem_nil, or_false] at hx
    rcases hx with rfl | rfl | rfl
    · exact hpositive hserver
    · exact hpositive hrun
    · exact hpositive hvalidation
  refine ⟨hperiod, ?_⟩
  rw [Feed.used, Ticker.period, Nat.max_eq_left (Nat.one_le_iff_ne_zero.2 hperiod)]

theorem map_used_feeds (h : c.validate = .ok ()) :
    (c.polling.session 0 1 2).feeds.map (fun x => (x.1, x.2.used)) = (c.polling.session 0 1 2).feeds := by
  conv_rhs => rw [← List.map_id (c.polling.session 0 1 2).feeds]
  refine List.map_congr_left fun x hx => ?_
  rw [(used_feed h hx).2, id]

end Config

/-- The samplers of a live dashboard are those for the feeds of its configuration, each at its period. -/
theorem Live.feeds_start (c : Config) (sources : List Source) :
    (((initial c sources).after .activate).system.tasks.filterMap Task.feed?).Perm
      ((c.polling.session 0 1 2).feeds.map fun x => (x.1, x.2.used)) := by
  obtain ⟨ts, hb, hts⟩ := Session.start_feeds (c.polling.session 0 1 2) (initial c sources).system
  rw [← hts]
  exact hb.tasks.filterMap Task.feed?

namespace Command.Decision
variable {o : Options} {read : String → Option String} {environment : Entries String} {c : Config}

/-! ## Ways out -/

theorem ofOptions_of_unloaded (hprint : o.printConfig = false) {e : Config.LoadError}
    (h : Config.load read environment o.config = .error e) :
    ofOptions o read environment = fault (formatWarning o) ("Error: " ++ e.message) := by
  rw [ofOptions, hprint, h]
  rfl

theorem ofOptions_of_invalid (hprint : o.printConfig = false) (h : Config.load read environment o.config = .ok c)
    {e : Config.Invalid} (he : c.validate = .error e) :
    ofOptions o read environment = fault (formatWarning o)
      ((if o.validateConfig then "✗ Configuration validation failed: " else "Error: ") ++ e.message) := by
  rw [ofOptions, hprint, h]
  simp only [ofConfig, he]
  rfl

theorem ofOptions_of_valid (hprint : o.printConfig = false) (h : Config.load read environment o.config = .ok c)
    (hc : c.validate = .ok ()) :
    ofOptions o read environment =
      if o.validateConfig then .finish ⟨0, "✓ Configuration is valid\n", formatWarning o⟩
      else .display (formatWarning o) c (o.sources c) o.durationSecs := by
  rw [ofOptions, hprint, h]
  simp only [ofConfig, hc]
  rfl

/-- A configuration that is refused, while it is loaded or afterwards, ends the program. -/
theorem ofOptions_of_refused (hprint : o.printConfig = false)
    (h : ¬∃ c, Config.load read environment o.config = .ok c ∧ c.validate = .ok ()) :
    ∃ message, ofOptions o read environment = .finish ⟨1, "", message⟩ := by
  cases hload : Config.load read environment o.config with
  | error e => exact ⟨_, ofOptions_of_unloaded hprint hload⟩
  | ok c =>
    cases hc : c.validate with
    | error e => exact ⟨_, ofOptions_of_invalid hprint hload hc⟩
    | ok u => exact absurd ⟨c, hload, hc⟩ h

theorem ofArguments_of_accepted {args : List String} (h : Options.ofArguments args = .ok o) :
    ofArguments args read environment = ofOptions o read environment := by
  rw [ofArguments, h]

/-- Before a dashboard is shown, the configuration was loaded and passed the check. -/
theorem exists_of_display {args : List String} {warnings : String} {sources : List Source} {seconds : Option UInt64}
    (h : ofArguments args read environment = .display warnings c sources seconds) :
    ∃ o, Options.ofArguments args = .ok o ∧ Config.load read environment o.config = .ok c ∧ c.validate = .ok () ∧
      sources = o.sources c := by
  cases hargs : Options.ofArguments args with
  | error s =>
    rw [ofArguments, hargs] at h
    cases h
  | ok o =>
    refine ⟨o, rfl, ?_⟩
    rw [ofArguments_of_accepted hargs] at h
    unfold ofOptions at h
    split at h
    · split at h <;> cases h
    · cases hload : Config.load read environment o.config with
      | error e =>
        rw [hload] at h
        cases h
      | ok c' =>
        simp only [hload, ofConfig] at h
        split at h
        · cases h
        · rename_i hc
          split at h
          · cases h
          · cases h
            exact ⟨rfl, hc, rfl⟩

theorem exists_defaultConfigLines : ∃ lines, defaultConfigLines = .ok lines := by
  obtain ⟨t, ht⟩ := (Config.exists_toToml_iff {}).2 ((Config.all_fits_iff {}).2 (by decide))
  exact ⟨_, map_eq_ok_iff.2 ⟨t, ht, rfl⟩⟩

/-! ## The check -/

section
variable (read : String → Option String) (environment : Entries String)

/-- The configuration at the path can be loaded, and it passes. -/
def Passes (path : String) : Prop :=
  ∃ c, Config.load read environment path = .ok c ∧ c.validate = .ok ()

/-- Without the flag a dashboard is shown exactly if the configuration passes. -/
theorem display_iff_passes (hprint : o.printConfig = false) (hcheck : o.validateConfig = false) :
    (∃ warnings c sources seconds, ofOptions o read environment = .display warnings c sources seconds) ↔
      Passes read environment o.config := by
  constructor
  · rintro ⟨warnings, c, sources, seconds, hdisplay⟩
    refine Classical.byContradiction fun hnot => ?_
    obtain ⟨message, hfinish⟩ := ofOptions_of_refused hprint hnot
    cases hfinish.symm.trans hdisplay
  · rintro ⟨c, hload, hc⟩
    refine ⟨_, _, _, _, (ofOptions_of_valid hprint hload hc).trans (if_neg ?_)⟩
    rw [hcheck]
    exact Bool.false_ne_true

/-- Otherwise the program ends. -/
theorem finish_iff_not_passes (hprint : o.printConfig = false) (hcheck : o.validateConfig = false) :
    (∃ message, ofOptions o read environment = .finish ⟨1, "", message⟩) ↔ ¬Passes read environment o.config := by
  refine ⟨?_, ofOptions_of_refused hprint⟩
  rintro ⟨message, hfinish⟩ hpasses
  obtain ⟨_, _, _, _, hdisplay⟩ := (display_iff_passes read environment hprint hcheck).2 hpasses
  cases hfinish.symm.trans hdisplay

/-- With the flag the program ends, and its exit tells whether the configuration passes. -/
theorem exists_finish (hprint : o.printConfig = false) (hcheck : o.validateConfig = true) :
    ∃ out, ofOptions o read environment = .finish out ∧ (out.exit = 0 ↔ Passes read environment o.config) ∧
      (out.exit = 1 ↔ ¬Passes read environment o.config) := by
  by_cases hpasses : Passes read environment o.config
  · obtain ⟨c, hload, hc⟩ := hpasses
    have hpasses : Passes read environment o.config := ⟨c, hload, hc⟩
    refine ⟨_, (ofOptions_of_valid hprint hload hc).trans (if_pos hcheck), iff_of_true rfl hpasses, ?_⟩
    exact iff_of_false Nat.zero_ne_one (not_not_intro hpasses)
  · obtain ⟨message, hfinish⟩ := ofOptions_of_refused hprint hpasses
    exact ⟨_, hfinish, iff_of_false Nat.one_ne_zero hpasses, iff_of_true rfl hpasses⟩

end

/-- Printing the default configuration asks for nothing but the options. -/
theorem exists_printed : ∃ text, ∀ o : Options, o.printConfig = true → ∀ read environment,
    ofOptions o read environment = .finish ⟨0, text, ""⟩ := by
  obtain ⟨lines, hlines⟩ := exists_defaultConfigLines
  refine ⟨linesText lines, fun o hprint read environment => ?_⟩
  rw [ofOptions, hprint, hlines]
  rfl

/-- **What the check of a configuration promises.** Let arguments be accepted that do not ask for the default configuration.
If they ask for the check, the program ends at once, with an exit of zero if the configuration is loaded and passes, and of
one if not. The same arguments without the flag are accepted with the same options, and they show a dashboard exactly if that
exit is zero; otherwise they fail. Arguments without the flag are accepted with it, too. Every dashboard that is shown is that
of the configuration that was loaded, whose base is more than blanks and whose timeout and periods are not zero, and its
samplers, one for each feed, sample on schedule at the very periods that were configured. Arguments that ask for the default
configuration all print one text and exit with zero. -/
theorem check_law :
    (∀ args o, Options.ofArguments args = .ok o → Flag.printConfig.argument ∉ args →
      Flag.validateConfig.argument ∈ args → ∀ read environment,
      let bare := args.erase Flag.validateConfig.argument
      Options.ofArguments bare = .ok { o with validateConfig := false } ∧
      ∃ out, ofArguments args read environment = .finish out ∧ run? args read environment = some out ∧
        (out.exit = 0 ↔ Passes read environment o.config) ∧ (out.exit = 1 ↔ ¬Passes read environment o.config) ∧
        (out.exit = 0 ↔
          ∃ warnings c sources seconds, ofArguments bare read environment = .display warnings c sources seconds) ∧
        (out.exit = 1 ↔ ∃ message, ofArguments bare read environment = .finish ⟨1, "", message⟩)) ∧
    (∀ args o, Options.ofArguments args = .ok o → Flag.validateConfig.argument ∉ args →
      Options.ofArguments (Flag.validateConfig.argument :: args) = .ok { o with validateConfig := true }) ∧
    (∀ args read environment warnings c sources seconds,
      ofArguments args read environment = .display warnings c sources seconds →
      (∃ o, Options.ofArguments args = .ok o ∧ Config.load read environment o.config = .ok c ∧ sources = o.sources c) ∧
      Text.trim c.server.baseUrl ≠ "" ∧ c.server.requestTimeout ≠ 0 ∧
      (∀ x ∈ (c.polling.session 0 1 2).feeds, x.2.period ≠ 0) ∧ ∀ waits : List Nat,
        let σ := (Live.initial c sources).after .activate
        let l := waits.foldl (fun l ms => l.run ms) (Live.start c sources)
        (σ.system.tasks.filterMap Task.feed?).Perm (c.polling.session 0 1 2).feeds ∧
        ∃ es, (∀ e ∈ es, Session.Event.isOwn e = true) ∧ σ.run es = ⟨some l.session, l.system⟩ ∧
          ∀ i p, ⟨i, .sampler p⟩ ∈ σ.system.tasks → Sample.OnSchedule σ.system.world.now p.period (σ.samples i es)) ∧
    ∃ text, ∀ args o, Options.ofArguments args = .ok o → Flag.printConfig.argument ∈ args → ∀ read environment,
      ofArguments args read environment = .finish ⟨0, text, ""⟩ ∧ run? args read environment = some ⟨0, text, ""⟩ := by
  refine ⟨fun args o hargs hprint hcheck read environment => ?_, fun args o hargs hcheck => ?_,
    fun args read environment warnings c sources seconds hdisplay => ?_, ?_⟩
  · have hprint : o.printConfig = false := by
      rw [← Bool.not_eq_true]
      exact fun h => hprint ((Options.has_iff_mem rfl hargs).1 h)
    obtain ⟨o', hbare, rfl, hhas⟩ := Options.ofArguments_erase rfl hargs hcheck
    have hsame : { o'.withFlag .validateConfig with validateConfig := false } = o' := by
      rw [← hhas]
      rfl
    have hbareprint : o'.printConfig = false := hprint
    obtain ⟨out, hfinish, hzero, hone⟩ := exists_finish read environment hprint rfl
    have hfinish := (ofArguments_of_accepted hargs).trans hfinish
    refine ⟨hsame.symm ▸ hbare, out, hfinish, by rw [run?, hfinish], hzero, hone, hzero.trans ?_, hone.trans ?_⟩
    · rw [ofArguments_of_accepted hbare]
      exact (display_iff_passes read environment hbareprint hhas).symm
    · rw [ofArguments_of_accepted hbare]
      exact (finish_iff_not_passes read environment hbareprint hhas).symm
  · exact (Options.ofArguments_cons rfl hargs hcheck).1
  · obtain ⟨o, hargs, hload, hc, hsources⟩ := exists_of_display hdisplay
    obtain ⟨hbase, htimeout, -⟩ := Config.validate_eq_ok_iff.1 hc
    refine ⟨⟨o, hargs, hload, hsources⟩, hbase, htimeout, fun x hx => (Config.used_feed hc hx).1,
      fun waits => ⟨?_, Live.samples_on_schedule c sources waits⟩⟩
    rw [← Config.map_used_feeds hc]
    exact Live.feeds_start c sources
  · obtain ⟨text, htext⟩ := exists_printed
    refine ⟨text, fun args o hargs hprint read environment => ?_⟩
    have hfinish : ofArguments args read environment = .finish ⟨0, text, ""⟩ :=
      (ofArguments_of_accepted hargs).trans (htext o ((Options.has_iff_mem rfl hargs).2 hprint) read environment)
    exact ⟨hfinish, by rw [run?, hfinish]⟩

/-- A variable asks for a period of zero. -/
example : run? ["--validate-config"] (fun _ => none) [("STATUSBOARD_POLLING__SERVER_INTERVAL_MS", "0")] =
    some ⟨1, "", "✗ Configuration validation failed: Polling server_interval_ms must be greater than 0\n"⟩ := by
  decide +kernel

end Command.Decision
end Dashboard
