import Dashboard.Command.Options
import Dashboard.Proofs.Result

/-! # Arguments with one flag more

A flag without a letter is given by one argument and by nothing else. To leave that argument out, or to put it in front of the
others, changes the flag and no other option, and it does not change what is accepted.

* `Command.Flag.argument`: the argument that gives a flag.
* `Command.Draft.arguments_settle`: a value that has come may be taken at once.
* `Command.Draft.Beside`: two drafts that differ in one flag. Every further argument keeps them so.
* `Command.Options.ofArguments_erase`, `Command.Options.ofArguments_cons`: arguments with the flag and without it.
-/

namespace Dashboard.Command
set_option autoImplicit false

/-- The argument that gives a flag. -/
def Flag.argument (f : Flag) : String := "--" ++ (Switch.flag f).long

/-! ## Flags among the options -/

namespace Options

def has (o : Options) : Flag → Bool
  | .debug => o.debug
  | .verbose => o.verbose
  | .quiet => o.quiet
  | .validateConfig => o.validateConfig
  | .printConfig => o.printConfig
  | .demo => o.demo

theorem has_withFlag (o : Options) (f g : Flag) : (o.withFlag f).has g = (decide (f = g) || o.has g) := by
  cases f <;> cases g <;> rfl

theorem withFlag_comm (o : Options) (f g : Flag) : (o.withFlag f).withFlag g = (o.withFlag g).withFlag f := by
  cases f <;> cases g <;> rfl

theorem has_initial (f : Flag) : ({} : Options).has f = false := by
  cases f <;> rfl

/-- A value changes no flag, and a flag changes no value. -/
theorem withValue_withFlag (o : Options) (f : Flag) (p : Param) (v : String) :
    Alike (fun a b => b = a.withFlag f ∧ a.has f = o.has f) (o.withValue p v) ((o.withFlag f).withValue p v) := by
  cases p with
  | durationSecs =>
    unfold withValue
    cases Text.natural? v with
    | none => exact .error _
    | some n => cases f <;> exact .ok ⟨rfl, rfl⟩
  | config | logFormat => cases f <;> exact .ok ⟨rfl, rfl⟩

end Options

namespace Switch

theorem long_of_ofLong? {name : String} {s : Switch} (h : ofLong? name = some s) : s.long = name := by
  simpa using List.find?_some h

theorem short?_of_ofShort? {c : Char} {s : Switch} (h : ofShort? c = some s) : s.short? = some c := by
  simpa using List.find?_some h

end Switch

namespace Draft
variable {d d₀ d' : Draft}

/-! ## Values that have come -/

theorem waiting_settle (h : d.settle = .ok d₀) : d₀.waiting = none := by
  unfold settle at h
  split at h
  · rename_i hwaiting
    cases h
    exact hwaiting
  · cases h
  · obtain ⟨d₁, h₁, h⟩ := bind_eq_ok_iff.1 h
    obtain ⟨options, -, h⟩ := bind_eq_ok_iff.1 h
    unfold claim at h₁
    split at h₁
    · cases h₁
    · cases h₁
      cases h
      rfl

theorem settle_of_waiting (h : d.waiting = none) : d.settle = .ok d := by
  rw [settle, h]

theorem settle_settle (h : d.settle = .ok d₀) : d₀.settle = .ok d₀ := settle_of_waiting (waiting_settle h)

section
variable (h : d.settle = .ok d₀)
include h

theorem switch_settle (isLong : Bool) (s : Switch) : d.switch isLong s = d₀.switch isLong s := by
  unfold switch
  rw [h, settle_settle h]

theorem switchWith_settle (p : Param) (v : String) : d.switchWith p v = d₀.switchWith p v := by
  unfold switchWith
  rw [h, settle_settle h]

theorem long_settle (name : String) (value : Option String) : d.long name value = d₀.long name value := by
  unfold long
  simp only [switch_settle h, switchWith_settle h]

theorem letters_settle (c : Char) (cs : List Char) : letters (c :: cs) d = letters (c :: cs) d₀ := by
  unfold letters
  simp only [switch_settle h, switchWith_settle h]

theorem plain_settle (a : String) : d.plain a = d₀.plain a := by
  have hnone := waiting_settle h
  unfold plain
  rw [hnone]
  split
  · rename_i hwaiting
    rw [settle, hwaiting] at h
    cases h
  · rfl

theorem argument_settle (a : String) : d.argument a = d₀.argument a := by
  unfold argument
  simp only [long_settle h, letters_settle h, plain_settle h]

/-- The next switch takes the value that has come, and so does the end. Nothing else may follow it. -/
theorem arguments_settle (args : List String) : arguments args d = arguments args d₀ := by
  cases args with
  | nil => rw [arguments, arguments, h, settle_settle h]
  | cons a rest =>
    unfold arguments
    rw [argument_settle h, h, settle_settle h]

end

/-! ## Drafts that differ in one flag -/

/-- A switch after two hyphens that has no value beside it is all that follows them. -/
theorem toList_cut {cs : List Char} (h : (cut cs).2 = none) : (cut cs).1.toList = cs := by
  simp only [cut] at h ⊢
  split at h
  · rename_i hdrop
    rw [String.toList_ofList]
    exact (List.takeWhile_prefix _).eq_of_length_le (List.drop_eq_nil_iff.1 hdrop)
  · cases h

/-- The second draft is the first one with the flag, which the first one was not given. -/
structure Beside (f : Flag) (d d' : Draft) : Prop where
  waiting : d'.waiting = d.waiting
  options : d'.options = d.options.withFlag f
  has : d.options.has f = false
  given : ∀ s, s ∈ d'.given ↔ s = .flag f ∨ s ∈ d.given

namespace Beside
variable {f : Flag}

theorem claim (h : Beside f d d') {s : Switch} (hs : s ≠ .flag f) :
    Alike (Beside f) (d.claim s) (d'.claim s) := by
  unfold Draft.claim
  by_cases hgiven : s ∈ d.given
  · rw [if_pos hgiven, if_pos ((h.given s).2 (.inr hgiven))]
    exact .error _
  · rw [if_neg hgiven, if_neg (by rw [h.given]; exact not_or.2 ⟨hs, hgiven⟩)]
    refine .ok ⟨h.waiting, h.options, h.has, fun t => ?_⟩
    rw [List.mem_cons, List.mem_cons, h.given]
    exact or_left_comm

theorem assign (h : Beside f d d') (p : Param) (v : String) :
    Alike (Beside f) (d.assign p v) (d'.assign p v) := by
  have hparam : Switch.param p ≠ .flag f := nofun
  refine (h.claim hparam).bind fun d d' h => ?_
  rw [h.options]
  refine (d.options.withValue_withFlag f p v).bind fun o o' ho => ?_
  exact .ok ⟨h.waiting, ho.1, ho.2.trans h.has, h.given⟩

theorem settle (h : Beside f d d') : Alike (Beside f) d.settle d'.settle := by
  unfold Draft.settle
  rw [h.waiting]
  split
  · exact .ok h
  · exact .error _
  · rename_i p v _
    have hnone : Beside f { d with waiting := none } { d' with waiting := none } := ⟨rfl, h.options, h.has, h.given⟩
    exact hnone.assign p v

theorem switch (h : Beside f d d') (isLong : Bool) {s : Switch} (hs : s ≠ .flag f) :
    Alike (Beside f) (d.switch isLong s) (d'.switch isLong s) := by
  refine h.settle.bind fun d d' h => ?_
  cases s with
  | help | version => exact .error _
  | param p => exact .ok ⟨rfl, h.options, h.has, h.given⟩
  | flag g =>
    refine (h.claim hs).bind fun d d' h => .ok ⟨h.waiting, ?_, ?_, h.given⟩
    · rw [h.options, Options.withFlag_comm]
    · have hne : g ≠ f := fun heq => hs (congrArg Switch.flag heq)
      rw [Options.has_withFlag, h.has, decide_eq_false hne]
      rfl

theorem switchWith (h : Beside f d d') (p : Param) (v : String) :
    Alike (Beside f) (d.switchWith p v) (d'.switchWith p v) :=
  h.settle.bind fun _ _ h => h.assign p v

theorem long (h : Beside f d d') {name : String} {value : Option String}
    (hne : value = none → name ≠ (Switch.flag f).long) : Alike (Beside f) (d.long name value) (d'.long name value) := by
  unfold Draft.long
  split
  · exact .error _
  · rename_i s hs
    refine h.switch true fun heq => hne rfl ?_
    rw [← heq]
    exact (Switch.long_of_ofLong? hs).symm
  · exact h.switchWith ..
  · exact .error _

theorem letters (hf : (Switch.flag f).short? = none) (cs : List Char) (h : Beside f d d') :
    Alike (Beside f) (Draft.letters cs d) (Draft.letters cs d') := by
  induction cs generalizing d d' with
  | nil => exact .ok h
  | cons c rest ih =>
    unfold Draft.letters
    split
    · exact .error _
    · exact h.switchWith ..
    · exact h.switchWith ..
    · rename_i s hs _ _
      have hne : s ≠ .flag f := by
        rintro rfl
        cases hf.symm.trans (Switch.short?_of_ofShort? hs)
      exact (h.switch false hne).bind fun _ _ h => ih h

theorem plain (h : Beside f d d') (a : String) : Alike (Beside f) (d.plain a) (d'.plain a) := by
  unfold Draft.plain
  rw [h.waiting]
  split
  · exact .ok ⟨rfl, h.options, h.has, h.given⟩
  · exact .error _

theorem argument (hf : (Switch.flag f).short? = none) {a : String} (ha : a ≠ f.argument) (h : Beside f d d') :
    Alike (Beside f) (d.argument a) (d'.argument a) := by
  unfold Draft.argument
  split
  · rename_i cs hcs
    refine h.long fun hvalue hname => ha ?_
    rw [← String.toList_inj, hcs, Flag.argument, ← hname, String.toList_append, toList_cut hvalue]
    rfl
  · exact letters hf _ h
  · exact h.plain a

theorem arguments (hf : (Switch.flag f).short? = none) {args : List String} (hargs : f.argument ∉ args)
    (h : Beside f d d') : Alike (Beside f) (Draft.arguments args d) (Draft.arguments args d') := by
  induction args generalizing d d' with
  | nil => exact h.settle
  | cons a rest ih =>
    obtain ⟨ha, hrest⟩ := List.ne_and_not_mem_of_not_mem_cons hargs
    unfold Draft.arguments
    split
    · split
      · exact h.settle
      · exact .error _
    · exact (argument hf ha.symm h).bind fun _ _ h => ih hrest h

end Beside

/-! ## The argument of the flag -/

section
variable {f : Flag}

theorem argument_flag (f : Flag) (d : Draft) : d.argument f.argument = d.switch true (.flag f) := by
  cases f <;> rfl

theorem argument_ne (f : Flag) : f.argument ≠ "--" := by
  cases f <;> decide

theorem arguments_cons {a : String} (ha : a ≠ "--") (rest : List String) (d : Draft) :
    arguments (a :: rest) d = d.argument a >>= arguments rest := if_neg ha

theorem Beside.of_has (h : d.options.has f = false) :
    Beside f d { d with given := .flag f :: d.given, options := d.options.withFlag f } :=
  ⟨rfl, rfl, h, fun _ => List.mem_cons⟩

/-- The argument of a flag adds the flag to what the draft is once it has taken the value that came. -/
theorem beside_of_switch (hhas : d.options.has f = false) (h : d.switch true (.flag f) = .ok d') :
    ∃ d₀, d.settle = .ok d₀ ∧ Beside f d₀ d' := by
  obtain ⟨d₀, hsettle, h⟩ := bind_eq_ok_iff.1 h
  obtain ⟨d₁, hclaim, h⟩ := bind_eq_ok_iff.1 h
  have hhas₀ : d₀.options.has f = false := by
    obtain ⟨_, -, hbeside⟩ := (Beside.of_has hhas).settle.exists_right hsettle
    exact hbeside.has
  unfold claim at hclaim
  split at hclaim
  · cases hclaim
  · cases hclaim
    cases h
    exact ⟨d₀, hsettle, .of_has hhas₀⟩

/-- A flag that was given is not given again. -/
theorem Beside.not_mem (hf : (Switch.flag f).short? = none) {e' : Draft} {args : List String} (h : Beside f d d')
    (hok : Draft.arguments args d' = .ok e') : f.argument ∉ args := by
  induction args generalizing d d' with
  | nil => exact List.not_mem_nil
  | cons a rest ih =>
    by_cases hdashes : a = "--"
    · rw [Draft.arguments, if_pos hdashes] at hok
      split at hok
      · rename_i hrest
        rw [hrest, hdashes, List.mem_singleton]
        exact argument_ne f
      · cases hok
    · rw [arguments_cons hdashes] at hok
      obtain ⟨d₁', hargument, hok⟩ := bind_eq_ok_iff.1 hok
      by_cases ha : a = f.argument
      · rw [ha, argument_flag] at hargument
        obtain ⟨d₀', hsettle, hswitch⟩ := bind_eq_ok_iff.1 hargument
        obtain ⟨d₀, -, h₀⟩ := h.settle.exists_left hsettle
        rw [Draft.claim, if_pos ((h₀.given _).2 (.inl rfl))] at hswitch
        cases hswitch
      · obtain ⟨d₁, -, h₁⟩ := (h.argument hf ha).exists_left hargument
        exact List.not_mem_cons_of_ne_of_not_mem (Ne.symm ha) (ih h₁ hok)

/-- Without its argument the flag is all that is missing. -/
theorem arguments_erase (hf : (Switch.flag f).short? = none) {e' : Draft} {args : List String}
    (hhas : d.options.has f = false) (hmem : f.argument ∈ args) (hok : arguments args d = .ok e') :
    ∃ e, arguments (args.erase f.argument) d = .ok e ∧ Beside f e e' := by
  induction args generalizing d with
  | nil => exact absurd hmem List.not_mem_nil
  | cons a rest ih =>
    by_cases ha : a = f.argument
    · subst ha
      rw [arguments_cons (argument_ne f), argument_flag] at hok
      obtain ⟨d₁, hswitch, hok⟩ := bind_eq_ok_iff.1 hok
      obtain ⟨d₀, hsettle, h₀⟩ := beside_of_switch hhas hswitch
      rw [List.erase_cons_head, arguments_settle hsettle]
      exact (h₀.arguments hf (h₀.not_mem hf hok)).exists_left hok
    · have hrest : f.argument ∈ rest := List.mem_of_ne_of_mem (Ne.symm ha) hmem
      rw [List.erase_cons_tail (by simpa using ha)]
      by_cases hdashes : a = "--"
      · rw [arguments, if_pos hdashes, if_neg (List.ne_nil_of_mem hrest)] at hok
        cases hok
      · rw [arguments_cons hdashes] at hok ⊢
        obtain ⟨d₁, hargument, hok⟩ := bind_eq_ok_iff.1 hok
        obtain ⟨_, -, h₁⟩ := ((Beside.of_has hhas).argument hf ha).exists_right hargument
        rw [hargument]
        exact ih h₁.has hrest hok

end
end Draft

/-! ## Options with the flag and without it -/

namespace Options
variable {f : Flag} {args : List String} {o : Options}

theorem ofArguments_erase (hf : (Switch.flag f).short? = none) (h : ofArguments args = .ok o) (hmem : f.argument ∈ args) :
    ∃ o', ofArguments (args.erase f.argument) = .ok o' ∧ o = o'.withFlag f ∧ o'.has f = false := by
  obtain ⟨e', hok, rfl⟩ := map_eq_ok_iff.1 h
  obtain ⟨e, he, hbeside⟩ := Draft.arguments_erase hf (has_initial f) hmem hok
  exact ⟨e.options, map_eq_ok_iff.2 ⟨e, he, rfl⟩, hbeside.options, hbeside.has⟩

theorem ofArguments_cons (hf : (Switch.flag f).short? = none) (h : ofArguments args = .ok o) (hmem : f.argument ∉ args) :
    ofArguments (f.argument :: args) = .ok (o.withFlag f) ∧ o.has f = false := by
  obtain ⟨e, hok, rfl⟩ := map_eq_ok_iff.1 h
  obtain ⟨e', he', hbeside⟩ := ((Draft.Beside.of_has (has_initial f)).arguments hf hmem).exists_right hok
  refine ⟨map_eq_ok_iff.2 ⟨e', ?_, hbeside.options⟩, hbeside.has⟩
  rw [Draft.arguments_cons (Draft.argument_ne f), Draft.argument_flag]
  exact he'

/-- The argument is the only way to give the flag. -/
theorem has_iff_mem (hf : (Switch.flag f).short? = none) (h : ofArguments args = .ok o) :
    o.has f = true ↔ f.argument ∈ args := by
  constructor
  · intro hhas
    refine Decidable.byContradiction fun hmem => ?_
    rw [(ofArguments_cons hf h hmem).2] at hhas
    cases hhas
  · intro hmem
    obtain ⟨o', -, rfl, -⟩ := ofArguments_erase hf h hmem
    rw [has_withFlag, decide_eq_true rfl]
    rfl

end Options
end Dashboard.Command
