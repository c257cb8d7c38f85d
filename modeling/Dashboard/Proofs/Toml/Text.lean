import Dashboard.Toml.Printer
import Dashboard.Toml.Text

/-! # Printed strings are read back

Whatever the form in which a text is printed, the reader finds the same text, and stops right behind it.

* `escapedChar_cases`: a character stands for itself, or is an escape that the reader undoes.
* `basicBody_basicChars`, `literalBody_append`: strings on one line.
* `LineStep`, `lineStep`: how the next character is written in a string on several lines.
* `FewQuotes`, `closing?_basicLineChars`: no run of quotes inside a string closes it.
* `basicLines_basicLineChars`, `literalLines_append`: strings on several lines.
* `text?_textChars`: the form that the printer picks.
-/

namespace Dashboard.Toml
set_option autoImplicit false

/-! ## Escapes -/

theorem codePoint?_upperDigits : ∀ n < 128,
    codePoint? ['0', '0', upperDigit (n / 16), upperDigit (n % 16)] = some (Char.ofNat n) := by
  decide +kernel

theorem escape?_codePoint {ds : List Char} {c : Char} (hl : ds.length = 4) (hc : codePoint? ds = some c)
    (r : List Char) : escape? ('u' :: ds ++ r) = some (c, 5) := by
  have htake : (ds ++ r).take 4 = ds := by rw [← hl, List.take_left]
  have hlen : ¬(ds ++ r).length < 4 := by
    rw [List.length_append]
    omega
  rw [List.cons_append, escape?, if_neg hlen, htake, hc]
  rfl

/-- A character is written as itself, or as an escape that the reader undoes. -/
theorem escapedChar_cases (c : Char) :
    (isPlain c = true ∧ c ≠ '\\' ∧ escapedChar c = [c]) ∨
    ∃ e, escapedChar c = '\\' :: e ∧
      ∀ r, escape? (e ++ r) = some (c, e.length) ∧ continuation? (e ++ r) = none := by
  unfold escapedChar
  split
  · exact .inr ⟨['\\'], rfl, fun r => ⟨rfl, rfl⟩⟩
  · exact .inr ⟨['b'], rfl, fun r => ⟨rfl, rfl⟩⟩
  · exact .inr ⟨['t'], rfl, fun r => ⟨rfl, rfl⟩⟩
  · exact .inr ⟨['f'], rfl, fun r => ⟨rfl, rfl⟩⟩
  · exact .inr ⟨['r'], rfl, fun r => ⟨rfl, rfl⟩⟩
  · rename_i hslash _ _ _ _
    cases hp : isPlain c with
    | true => exact .inl ⟨rfl, hslash, rfl⟩
    | false =>
      have hlt : c.toNat < 128 := by
        simp only [isPlain, Bool.or_eq_false_iff, Bool.and_eq_false_iff] at hp
        obtain ⟨-, hp | hp⟩ := hp
        · have : ¬0x20 ≤ c.toNat := of_decide_eq_false hp
          omega
        · have : c.toNat = 0x7f := by simpa using hp
          omega
      have hcode := codePoint?_upperDigits c.toNat hlt
      rw [Char.ofNat_toNat] at hcode
      refine .inr ⟨['u', '0', '0', upperDigit (c.toNat / 16), upperDigit (c.toNat % 16)], rfl, fun r => ⟨?_, rfl⟩⟩
      exact escape?_codePoint rfl hcode r

/-! ## Strings on one line -/

theorem basicBody_quote (r : List Char) : basicBody ('"' :: r) = some ([], r) := by
  rw [basicBody, if_pos rfl]

theorem basicBody_escape {e : List Char} {c : Char} {r : List Char} (h : escape? (e ++ r) = some (c, e.length)) :
    basicBody ('\\' :: (e ++ r)) = (basicBody r).map fun t => (c :: t.1, t.2) := by
  rw [basicBody, if_neg (by decide), if_pos rfl, h]
  simp only [Option.bind_eq_bind, Option.bind_some, List.drop_left]
  cases basicBody r <;> rfl

theorem basicBody_plain {c : Char} (hp : isPlain c = true) (hq : c ≠ '"') (hs : c ≠ '\\') (r : List Char) :
    basicBody (c :: r) = (basicBody r).map fun t => (c :: t.1, t.2) := by
  rw [basicBody, if_neg hq, if_neg hs, if_pos hp]
  cases basicBody r <;> rfl

theorem basicChars_cases (c : Char) (cs : List Char) :
    (isPlain c = true ∧ c ≠ '"' ∧ c ≠ '\\' ∧ basicChars (c :: cs) = c :: basicChars cs) ∨
    ∃ e, basicChars (c :: cs) = '\\' :: (e ++ basicChars cs) ∧ ∀ r, escape? (e ++ r) = some (c, e.length) := by
  have hcons : basicChars (c :: cs) = (if c = '"' then ['\\', '"'] else escapedChar c) ++ basicChars cs := rfl
  by_cases hq : c = '"'
  · subst hq
    exact .inr ⟨['"'], rfl, fun r => rfl⟩
  · rw [if_neg hq] at hcons
    rcases escapedChar_cases c with ⟨hp, hs, hc⟩ | ⟨e, hc, he⟩
    · rw [hc] at hcons
      exact .inl ⟨hp, hq, hs, hcons⟩
    · rw [hc] at hcons
      exact .inr ⟨e, hcons, fun r => (he r).1⟩

theorem basicBody_basicChars (cs r : List Char) : basicBody (basicChars cs ++ '"' :: r) = some (cs, r) := by
  induction cs with
  | nil => exact basicBody_quote r
  | cons c cs ih =>
    rcases basicChars_cases c cs with ⟨hp, hq, hs, hc⟩ | ⟨e, hc, he⟩
    · rw [hc, List.cons_append, basicBody_plain hp hq hs, ih]
      rfl
    · rw [hc, List.cons_append, List.append_assoc, basicBody_escape (he _), ih]
      rfl

theorem literalBody_append {cs : List Char} (hp : ∀ c ∈ cs, isPlain c = true) (hq : '\'' ∉ cs) (r : List Char) :
    literalBody (cs ++ '\'' :: r) = some (cs, r) := by
  induction cs with
  | nil => simp [literalBody]
  | cons c cs ih =>
    rw [List.mem_cons, not_or] at hq
    have hrest := ih (fun d hd => hp d (List.mem_cons_of_mem _ hd)) hq.2
    simp [literalBody, Ne.symm hq.1, hp c List.mem_cons_self, hrest]

/-! ## Steps of a string on several lines -/

/-- How the next character is written where `n` quotes stand right before it: a quote and a newline as they are, any other
character as itself or as an escape. Every third quote in a row is an escape as well. -/
inductive LineStep (n : Nat) (c : Char) (cs : List Char) : Prop
  | quote (hc : c = '"') (hn : n ≠ 2) (h : basicLineChars n (c :: cs) = '"' :: basicLineChars (n + 1) cs)
  | newline (hc : c = '\n') (h : basicLineChars n (c :: cs) = '\n' :: basicLineChars 0 cs)
  | plain (hp : isPlain c = true) (hq : c ≠ '"') (hs : c ≠ '\\')
      (h : basicLineChars n (c :: cs) = c :: basicLineChars 0 cs)
  | escape (e : List Char) (he : ∀ r, escape? (e ++ r) = some (c, e.length) ∧ continuation? (e ++ r) = none)
      (h : basicLineChars n (c :: cs) = '\\' :: (e ++ basicLineChars 0 cs))

theorem lineStep (n : Nat) (c : Char) (cs : List Char) : LineStep n c cs := by
  by_cases hq : c = '"'
  · subst hq
    by_cases hn : n = 2
    · subst hn
      exact .escape ['"'] (fun r => ⟨rfl, rfl⟩) rfl
    · exact .quote rfl hn (by rw [basicLineChars, if_pos rfl, if_neg hn])
  · by_cases hl : c = '\n'
    · subst hl
      exact .newline rfl rfl
    · have hstep : basicLineChars n (c :: cs) = escapedChar c ++ basicLineChars 0 cs := by
        rw [basicLineChars, if_neg hq, if_neg hl]
      rcases escapedChar_cases c with ⟨hp, hs, hc⟩ | ⟨e, hc, he⟩
      · rw [hc] at hstep
        exact .plain hp hq hs hstep
      · rw [hc] at hstep
        exact .escape e he hstep

theorem length_le_basicLineChars (n : Nat) (cs : List Char) : cs.length ≤ (basicLineChars n cs).length := by
  induction cs generalizing n with
  | nil => exact Nat.le_refl 0
  | cons c cs ih =>
    have hzero := ih 0
    cases lineStep n c cs with
    | quote _ _ h =>
      rw [h]
      exact Nat.succ_le_succ (ih (n + 1))
    | newline _ h =>
      rw [h]
      exact Nat.succ_le_succ hzero
    | plain _ _ _ h =>
      rw [h]
      exact Nat.succ_le_succ hzero
    | escape e _ h =>
      rw [h, List.length_cons, List.length_cons, List.length_append]
      omega

/-! ## Runs of quotes -/

/-- The quotes that close a string, with up to two quotes before them that belong to it. -/
theorem closing?_replicate {q : Char} {n : Nat} (hn : n ≤ 2) {r : List Char} (hr : r.head? ≠ some q) :
    closing? q (List.replicate n q ++ ([q, q, q] ++ r)) = some (List.replicate n q, r) := by
  have hthree : [q, q, q] = List.replicate 3 q := rfl
  have hquotes : List.replicate n q ++ ([q, q, q] ++ r) = List.replicate (n + 3) q ++ r := by
    rw [hthree, ← List.append_assoc, List.replicate_append_replicate]
  have htake : r.takeWhile (· = q) = [] := by
    cases r with
    | nil => rfl
    | cons c r =>
      have hne : c ≠ q := fun h => hr (congrArg some h)
      simp [hne]
  have hrun : ((List.replicate (n + 3) q ++ r).takeWhile (· = q)).length = n + 3 := by
    rw [List.takeWhile_append_of_pos (by simp), htake]
    simp
  rw [closing?, hquotes, hrun, if_neg (by omega)]
  have hinside : min (n + 3 - 3) 2 = n := by omega
  have hdrop : (List.replicate (n + 3) q ++ r).drop (n + 3) = r := List.drop_left' (by simp)
  simp only [hinside, hdrop]

/-- Fewer than three quotes in a row close nothing. -/
theorem closing?_of_ne {q d : Char} {n : Nat} (hn : n ≤ 2) (hd : d ≠ q) (r : List Char) :
    closing? q (List.replicate n q ++ d :: r) = none := by
  have hrun : ((List.replicate n q ++ d :: r).takeWhile (· = q)).length = n := by
    rw [List.takeWhile_append_of_pos (by simp)]
    simp [hd]
  rw [closing?, hrun, if_pos (by omega)]

/-- A list begins with at most so many quotes: it has no more than these, or something else stands behind them. -/
def FewQuotes (q : Char) (n : Nat) (cs : List Char) : Prop :=
  (∃ m, m ≤ n ∧ cs = List.replicate m q) ∨ ∃ m d r, m ≤ n ∧ d ≠ q ∧ cs = List.replicate m q ++ d :: r

theorem FewQuotes.cons {q : Char} {n : Nat} {cs : List Char} (h : FewQuotes q n cs) :
    FewQuotes q (n + 1) (q :: cs) := by
  rcases h with ⟨m, hm, rfl⟩ | ⟨m, d, r, hm, hd, rfl⟩
  · exact .inl ⟨m + 1, Nat.succ_le_succ hm, rfl⟩
  · exact .inr ⟨m + 1, d, r, Nat.succ_le_succ hm, hd, rfl⟩

theorem fewQuotes_of_ne {q d : Char} (hd : d ≠ q) (n : Nat) (r : List Char) : FewQuotes q n (d :: r) :=
  .inr ⟨0, d, r, Nat.zero_le n, hd, rfl⟩

/-- The printed inside of a string never closes it. -/
theorem fewQuotes_basicLineChars {n : Nat} (hn : n ≤ 2) (cs : List Char) :
    FewQuotes '"' (2 - n) (basicLineChars n cs) := by
  induction cs generalizing n with
  | nil => exact .inl ⟨0, Nat.zero_le _, rfl⟩
  | cons c cs ih =>
    cases lineStep n c cs with
    | quote _ h2 h =>
      have hnext := (ih (n := n + 1) (by omega)).cons
      rwa [h, show 2 - n = 2 - (n + 1) + 1 by omega]
    | newline _ h =>
      rw [h]
      exact fewQuotes_of_ne (by decide) _ _
    | plain _ hq _ h =>
      rw [h]
      exact fewQuotes_of_ne hq _ _
    | escape e _ h =>
      rw [h]
      exact fewQuotes_of_ne (by decide) _ _

/-- If only quotes are printed, then there are only quotes. -/
theorem eq_replicate_of_basicLineChars {n m : Nat} {cs : List Char}
    (h : basicLineChars n cs = List.replicate m '"') : cs = List.replicate m '"' := by
  induction cs generalizing n m with
  | nil => exact h
  | cons c cs ih =>
    have hhead {d : Char} {r : List Char} (hd : basicLineChars n (c :: cs) = d :: r) : d = '"' :=
      List.eq_of_mem_replicate (by rw [← h, hd]; exact List.mem_cons_self)
    cases lineStep n c cs with
    | quote hc _ hstep =>
      rw [hstep] at h
      cases m with
      | zero => exact absurd h (List.cons_ne_nil _ _)
      | succ m => rw [ih (List.cons.inj h).2, hc, List.replicate_succ]
    | newline _ hstep => exact absurd (hhead hstep) (by decide)
    | plain _ hq _ hstep => exact absurd (hhead hstep) hq
    | escape e _ hstep => exact absurd (hhead hstep) (by decide)

theorem le_longestRun (q : Char) (n : Nat) (cs : List Char) : n ≤ longestRun q n cs := by
  induction cs generalizing n with
  | nil => exact Nat.le_refl n
  | cons c cs ih =>
    rw [longestRun]
    split
    · exact Nat.le_of_succ_le (ih (n + 1))
    · exact Nat.le_max_left _ _

theorem longestRun_mono (q : Char) {n m : Nat} (h : n ≤ m) (cs : List Char) :
    longestRun q n cs ≤ longestRun q m cs := by
  induction cs generalizing n m with
  | nil => exact h
  | cons c cs ih =>
    rw [longestRun, longestRun]
    split
    · exact ih (Nat.succ_le_succ h)
    · omega

theorem longestRun_tail (q c : Char) (cs : List Char) : longestRun q 0 cs ≤ longestRun q 0 (c :: cs) := by
  rw [longestRun]
  split
  · exact longestRun_mono q (Nat.zero_le 1) cs
  · exact Nat.le_max_right _ _

/-- Where no run of quotes is longer than two, the first one is not. -/
theorem fewQuotes_of_longestRun {q : Char} {n : Nat} {cs : List Char} (h : longestRun q n cs < 3) :
    FewQuotes q (2 - n) cs := by
  induction cs generalizing n with
  | nil => exact .inl ⟨0, Nat.zero_le _, rfl⟩
  | cons c cs ih =>
    by_cases hq : c = q
    · subst hq
      rw [longestRun, if_pos rfl] at h
      have hle := le_longestRun c (n + 1) cs
      have hnext := (ih h).cons
      rwa [show 2 - (n + 1) + 1 = 2 - n by omega] at hnext
    · exact fewQuotes_of_ne hq _ _

theorem not_mem_of_longestRun {q : Char} {cs : List Char} (h : longestRun q 0 cs = 0) : q ∉ cs := by
  induction cs with
  | nil => exact List.not_mem_nil
  | cons c cs ih =>
    rw [longestRun] at h
    split at h
    · have hle := le_longestRun q (0 + 1) cs
      omega
    · rename_i hne
      rw [List.mem_cons, not_or]
      exact ⟨Ne.symm hne, ih (by omega)⟩

/-! ## Strings on several lines -/

theorem newline?_of_plain {c : Char} (hp : isPlain c = true) (r : List Char) : newline? (c :: r) = none := by
  have hn : c ≠ '\n' := by
    rintro rfl
    exact absurd hp (by decide)
  have hr : c ≠ '\r' := by
    rintro rfl
    exact absurd hp (by decide)
  unfold newline?
  split
  · rename_i heq
    exact absurd (List.cons.inj heq).1 hn
  · rename_i heq
    exact absurd (List.cons.inj heq).1 hr
  · rfl

section
variable {n : Nat} {c : Char} {cs r rest : List Char}

theorem basicLines_closing {x : List Char × List Char} (h : closing? '"' cs = some x) :
    basicLines (n + 1) cs = some x := by
  simp only [basicLines, h]

theorem basicLines_newline (h : basicLines n r = some (cs, rest)) :
    basicLines (n + 1) ('\n' :: r) = some ('\n' :: cs, rest) := by
  have hclosing : closing? '"' ('\n' :: r) = none := closing?_of_ne (n := 0) (by omega) (by decide) r
  simp [basicLines, hclosing, newline?, h]

theorem basicLines_plain (hp : isPlain c = true) (hs : c ≠ '\\') (hc : closing? '"' (c :: r) = none)
    (h : basicLines n r = some (cs, rest)) : basicLines (n + 1) (c :: r) = some (c :: cs, rest) := by
  simp [basicLines, hc, newline?_of_plain hp, hp, h]

theorem basicLines_escape {e : List Char} (he : escape? (e ++ r) = some (c, e.length))
    (hcontinuation : continuation? (e ++ r) = none) (h : basicLines n r = some (cs, rest)) :
    basicLines (n + 1) ('\\' :: (e ++ r)) = some (c :: cs, rest) := by
  have hclosing : closing? '"' ('\\' :: (e ++ r)) = none := closing?_of_ne (n := 0) (by omega) (by decide) _
  have hnewline : newline? ('\\' :: (e ++ r)) = none := newline?_of_plain (by decide) _
  simp [basicLines, hclosing, hnewline, hcontinuation, he, h]

theorem literalLines_closing {x : List Char × List Char} (h : closing? '\'' cs = some x) :
    literalLines (n + 1) cs = some x := by
  simp only [literalLines, h]

theorem literalLines_newline (h : literalLines n r = some (cs, rest)) :
    literalLines (n + 1) ('\n' :: r) = some ('\n' :: cs, rest) := by
  have hclosing : closing? '\'' ('\n' :: r) = none := closing?_of_ne (n := 0) (by omega) (by decide) r
  simp [literalLines, hclosing, newline?, h]

theorem literalLines_plain (hp : isPlain c = true) (hc : closing? '\'' (c :: r) = none)
    (h : literalLines n r = some (cs, rest)) : literalLines (n + 1) (c :: r) = some (c :: cs, rest) := by
  simp [literalLines, hc, newline?_of_plain hp, hp, h]

end

/-- The printed inside of a string and the quotes behind it close it at its end, and not before. -/
theorem closing?_basicLineChars {k : Nat} (hk : k ≤ 2) (cs : List Char) {r : List Char}
    (hr : r.head? ≠ some '"') :
    closing? '"' (basicLineChars k cs ++ (['"', '"', '"'] ++ r)) = some (cs, r) ∨
      cs ≠ [] ∧ closing? '"' (basicLineChars k cs ++ (['"', '"', '"'] ++ r)) = none := by
  rcases fewQuotes_basicLineChars hk cs with ⟨m, hm, hquotes⟩ | ⟨m, d, x, hm, hd, hinside⟩
  · left
    rw [hquotes, eq_replicate_of_basicLineChars hquotes]
    exact closing?_replicate (by omega) hr
  · right
    refine ⟨?_, ?_⟩
    · rintro rfl
      exact absurd hinside (by simp [basicLineChars])
    · rw [hinside, List.append_assoc]
      exact closing?_of_ne (by omega) hd _

theorem basicLines_basicLineChars {k n : Nat} (hk : k ≤ 2) {cs : List Char} (hn : cs.length < n)
    {r : List Char} (hr : r.head? ≠ some '"') :
    basicLines n (basicLineChars k cs ++ (['"', '"', '"'] ++ r)) = some (cs, r) := by
  induction n generalizing k cs with
  | zero => exact absurd hn (Nat.not_lt_zero _)
  | succ n ih =>
    rcases closing?_basicLineChars hk cs hr with hclosing | ⟨hne, hclosing⟩
    · exact basicLines_closing hclosing
    · cases cs with
      | nil => exact absurd rfl hne
      | cons c cs =>
        have hlen : cs.length < n := Nat.succ_lt_succ_iff.1 hn
        have hrest := ih (k := 0) (Nat.zero_le 2) hlen
        cases lineStep k c cs with
        | quote hc h2 h =>
          subst hc
          rw [h] at hclosing ⊢
          exact basicLines_plain (by decide) (by decide) hclosing (ih (by omega) hlen)
        | newline hc h =>
          subst hc
          rw [h]
          exact basicLines_newline hrest
        | plain hp _ hs h =>
          rw [h] at hclosing ⊢
          exact basicLines_plain hp hs hclosing hrest
        | escape e he h =>
          rw [h, List.cons_append, List.append_assoc]
          exact basicLines_escape (he _).1 (he _).2 hrest

theorem literalLines_append {n : Nat} {cs : List Char} (hn : cs.length < n)
    (hp : ∀ c ∈ cs, isPlain c = true ∨ c = '\n') (hrun : longestRun '\'' 0 cs < 3) {r : List Char}
    (hr : r.head? ≠ some '\'') :
    literalLines n (cs ++ (['\'', '\'', '\''] ++ r)) = some (cs, r) := by
  induction n generalizing cs with
  | zero => exact absurd hn (Nat.not_lt_zero _)
  | succ n ih =>
    rcases fewQuotes_of_longestRun hrun with ⟨m, hm, rfl⟩ | ⟨m, d, x, hm, hd, hcs⟩
    · exact literalLines_closing (closing?_replicate hm hr)
    · have hclosing : closing? '\'' (cs ++ (['\'', '\'', '\''] ++ r)) = none := by
        rw [hcs, List.append_assoc]
        exact closing?_of_ne hm hd _
      cases cs with
      | nil => exact absurd hcs (by simp)
      | cons c cs =>
        have hlen : cs.length < n := Nat.succ_lt_succ_iff.1 hn
        have hrest := ih hlen (fun c hc => hp c (List.mem_cons_of_mem _ hc))
          (Nat.lt_of_le_of_lt (longestRun_tail _ _ _) hrun)
        rcases hp c List.mem_cons_self with hp | rfl
        · exact literalLines_plain hp hclosing hrest
        · exact literalLines_newline hrest

/-! ## The form that the printer picks -/

theorem text?_basic {r : List Char} (h : ∀ x, r ≠ '"' :: '"' :: x) : text? ('"' :: r) = basicBody r := by
  unfold text?
  split
  · rename_i x heq
    exact absurd (List.cons.inj heq).2 (h x)
  · rename_i heq
    exact absurd (List.cons.inj heq).1 (by decide)
  · rfl

theorem text?_literal {r : List Char} (h : ∀ x, r ≠ '\'' :: '\'' :: x) : text? ('\'' :: r) = literalBody r := by
  unfold text?
  split
  · rename_i heq
    exact absurd (List.cons.inj heq).1 (by decide)
  · rename_i x heq
    exact absurd (List.cons.inj heq).2 (h x)
  · rfl

/-- A string on several lines may open with a newline, and has to if it begins with one. -/
theorem dropNewline_open {x y : List Char} {opens : Bool} (hx : opens = false → newline? (x ++ y) = none) :
    dropNewline ((if opens then '\n' :: x else x) ++ y) = x ++ y := by
  cases opens with
  | true => rfl
  | false =>
    rw [if_neg Bool.false_ne_true, dropNewline, hx rfl]
    rfl

section
variable (cs : List Char) {r : List Char}

theorem text?_styled_basic (hr : r.head? ≠ some '"') : text? (styledChars cs .basic ++ r) = some (cs, r) := by
  have hshape : styledChars cs .basic ++ r = '"' :: (basicChars cs ++ '"' :: r) := by simp [styledChars]
  rw [hshape, text?_basic, basicBody_basicChars]
  intro x hx
  cases cs with
  | nil => exact hr (by rw [(List.cons.inj hx).2]; rfl)
  | cons c cs =>
    rcases basicChars_cases c cs with ⟨-, hq, -, hc⟩ | ⟨e, hc, -⟩
    · rw [hc] at hx
      exact hq (List.cons.inj hx).1
    · rw [hc] at hx
      exact absurd (List.cons.inj hx).1 (by decide)

theorem text?_styled_literal (hp : ∀ c ∈ cs, isPlain c = true) (hq : '\'' ∉ cs) (hr : r.head? ≠ some '\'') :
    text? (styledChars cs .literal ++ r) = some (cs, r) := by
  have hshape : styledChars cs .literal ++ r = '\'' :: (cs ++ '\'' :: r) := by simp [styledChars]
  rw [hshape, text?_literal, literalBody_append hp hq]
  intro x hx
  cases cs with
  | nil => exact hr (by rw [(List.cons.inj hx).2]; rfl)
  | cons c cs => exact hq (by rw [(List.cons.inj hx).1]; exact List.mem_cons_self)

theorem text?_styled_basicLines (hr : r.head? ≠ some '"') :
    text? (styledChars cs .basicLines ++ r) = some (cs, r) := by
  have hshape : styledChars cs .basicLines ++ r = '"' :: '"' :: '"' ::
      ((if cs.contains '\n' then '\n' :: basicLineChars 0 cs else basicLineChars 0 cs) ++ (['"', '"', '"'] ++ r)) := by
    simp [styledChars, inLines]
  have hopen : cs.contains '\n' = false → newline? (basicLineChars 0 cs ++ (['"', '"', '"'] ++ r)) = none := by
    intro hnone
    cases cs with
    | nil => rfl
    | cons c cs =>
      cases lineStep 0 c cs with
      | quote _ _ h =>
        rw [h]
        exact newline?_of_plain (by decide) _
      | newline hc _ => exact absurd hnone (by simp [hc])
      | plain hp _ _ h =>
        rw [h]
        exact newline?_of_plain hp _
      | escape e _ h =>
        rw [h]
        exact newline?_of_plain (by decide) _
  rw [hshape, text?, dropNewline_open hopen]
  refine basicLines_basicLineChars (Nat.zero_le 2) ?_ hr
  have hlen := length_le_basicLineChars 0 cs
  split
  · simp only [List.length_append, List.length_cons]
    omega
  · simp only [List.length_append]
    omega

theorem text?_styled_literalLines (hp : ∀ c ∈ cs, isPlain c = true ∨ c = '\n')
    (hrun : longestRun '\'' 0 cs < 3) (hr : r.head? ≠ some '\'') :
    text? (styledChars cs .literalLines ++ r) = some (cs, r) := by
  have hshape : styledChars cs .literalLines ++ r = '\'' :: '\'' :: '\'' ::
      ((if cs.contains '\n' then '\n' :: cs else cs) ++ (['\'', '\'', '\''] ++ r)) := by
    simp [styledChars, inLines]
  have hopen : cs.contains '\n' = false → newline? (cs ++ (['\'', '\'', '\''] ++ r)) = none := by
    intro hnone
    cases cs with
    | nil => rfl
    | cons c cs =>
      rcases hp c List.mem_cons_self with hp | rfl
      · exact newline?_of_plain hp _
      · exact absurd hnone (by simp)
  rw [hshape, text?, dropNewline_open hopen]
  refine literalLines_append ?_ hp hrun hr
  split
  · simp only [List.length_append, List.length_cons]
    omega
  · simp only [List.length_append]
    omega

/-- Every text is read back from the form that was picked for it, if no further quote follows. -/
theorem text?_textChars (hr : r.head? ≠ some '"') (hr' : r.head? ≠ some '\'') :
    text? (textChars cs ++ r) = some (cs, r) := by
  have hplain (h : cs.any isHidden = false) : ∀ c ∈ cs, isPlain c = true ∨ c = '\n' := by
    intro c hc
    have hshown : isHidden c = false := by
      rw [List.any_eq_false] at h
      simpa using h c hc
    cases hp : isPlain c with
    | true => exact .inl rfl
    | false => exact .inr (by simpa [isHidden, hp] using hshown)
  unfold textChars Style.of
  dsimp only
  split
  · exact text?_styled_basic cs hr
  · split
    · rename_i hliteral
      obtain ⟨⟨hhidden, hsingle⟩, hlines⟩ : (cs.any isHidden = false ∧ longestRun '\'' 0 cs = 0) ∧ '\n' ∉ cs := by
        simpa using hliteral
      refine text?_styled_literal cs ?_ (not_mem_of_longestRun hsingle) hr'
      intro c hc
      rcases hplain hhidden c hc with hp | rfl
      · exact hp
      · exact absurd hc hlines
    · split
      · exact text?_styled_basicLines cs hr
      · split
        · rename_i hliteral
          obtain ⟨hhidden, hsingle⟩ : cs.any isHidden = false ∧ longestRun '\'' 0 cs < 3 := by
            simpa using hliteral
          exact text?_styled_literalLines cs (hplain hhidden) hsingle hr'
        · split
          · exact text?_styled_basicLines cs hr
          · exact text?_styled_basic cs hr

end

end Dashboard.Toml
