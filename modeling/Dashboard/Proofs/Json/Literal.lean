import Dashboard.Json.Printer
import Dashboard.Proofs.Json.Reader
import Mathlib.Data.List.TakeWhile

/-! # String literals

The grammar of a string literal, said without the reader: characters that stand for themselves, letters behind a backslash,
and code units in hexadecimal, of which two may make up one character. The reader takes exactly these texts.

* `Json.Piece`, `Json.Body`: what stands for one character, and for the characters of a string.
* `Json.IsLiteral`: a text that is one string literal.
* `Json.escaped_of_piece`, `Json.exists_piece`: the reader of escapes against the grammar.
* `Json.stringBody_of_body`, `Json.exists_body`: the reader of strings against the grammar.
* `Json.value_of_literal`, `Json.exists_literal`: literals among the values.
* `Json.parse_eq_text_iff`: a text is read as a string exactly if it is a literal between blanks.
* `Json.isLiteral_stringChars`, `Json.string_stringChars`: written strings are literals, so they are read back.
-/

namespace Dashboard.Json
set_option autoImplicit false

/-! ## The grammar -/

/-- The letters that may stand behind a backslash, with the characters that they stand for. -/
def letters : List (Char × Char) :=
  [('"', '"'), ('\\', '\\'), ('/', '/'), ('b', '\x08'), ('f', '\x0c'), ('n', '\n'), ('r', '\r'), ('t', '\t')]

/-- Four hexadecimal digits of either case, and the code unit that they write. -/
def Unit16 (ds : List Char) (n : Nat) : Prop :=
  ∃ a b c d, ds.map Text.hexValue? = [some a, some b, some c, some d] ∧ n = ((a * 16 + b) * 16 + c) * 16 + d

/-- What stands for one character. A code unit that is no surrogate is a character by itself; a leading surrogate needs a
trailing one right behind it. -/
inductive Piece : List Char → Char → Prop
  | self {c : Char} (hquote : c ≠ '"') (hslash : c ≠ '\\') (hcontrol : 0x20 ≤ c.toNat) : Piece [c] c
  | letter {e c : Char} (h : (e, c) ∈ letters) : Piece ['\\', e] c
  | unit {ds : List Char} {n : Nat} (h : Unit16 ds n) (hn : n < 0xD800 ∨ 0xDFFF < n) :
      Piece ('\\' :: 'u' :: ds) (Char.ofNat n)
  | pair {ds es : List Char} {n m : Nat} (h : Unit16 ds n) (h' : Unit16 es m) (hn : 0xD800 ≤ n ∧ n ≤ 0xDBFF)
      (hm : 0xDC00 ≤ m ∧ m ≤ 0xDFFF) :
      Piece ('\\' :: 'u' :: (ds ++ '\\' :: 'u' :: es))
        (Char.ofNat (0x10000 + (n - 0xD800) * 0x400 + (m - 0xDC00)))

/-- What stands for the characters of a string, one after the other. -/
inductive Body : List Char → List Char → Prop
  | nil : Body [] []
  | cons {ts us cs : List Char} {c : Char} (h : Piece ts c) (hs : Body us cs) : Body (ts ++ us) (c :: cs)

/-- The text is one string literal, and the string is what it denotes. -/
def IsLiteral (text : List Char) (s : String) : Prop :=
  ∃ body, text = '"' :: (body ++ ['"']) ∧ Body body s.toList

/-! ## Code units -/

theorem Unit16.exists_cons {ds : List Char} {n : Nat} (h : Unit16 ds n) : ∃ a b c d, ds = [a, b, c, d] := by
  obtain ⟨_, _, _, _, hds, -⟩ := h
  have hlength := congrArg List.length hds
  rw [List.length_map] at hlength
  match ds, hlength with
  | [a, b, c, d], _ => exact ⟨a, b, c, d, rfl⟩

theorem fourHex_of_unit16 {ds : List Char} {n : Nat} (h : Unit16 ds n) (rest : List Char) (p : Position) :
    fourHex ⟨ds ++ rest, p⟩ = .ok n := by
  obtain ⟨x, y, z, t, rfl⟩ := h.exists_cons
  obtain ⟨a, b, c, d, hds, rfl⟩ := h
  have htake : ([x, y, z, t] ++ rest).take 4 = [x, y, z, t] := rfl
  have hsize : ¬([x, y, z, t].map Char.utf8Size).foldr (· + ·) 0 < 4 := by
    have hx := x.utf8Size_pos
    have hy := y.utf8Size_pos
    have hz := z.utf8Size_pos
    have ht := t.utf8Size_pos
    simp only [List.map_cons, List.map_nil, List.foldr_cons, List.foldr_nil]
    omega
  rw [fourHex, htake, if_neg hsize, hds]

theorem exists_unit16 {c : Cursor} {n : Nat} (h : fourHex c = .ok n) :
    ∃ ds rest, c.rest = ds ++ rest ∧ ds.length = 4 ∧ Unit16 ds n := by
  unfold fourHex at h
  split at h
  · cases h
  · split at h
    · rename_i a b d e hds
      have hlength := congrArg List.length hds
      rw [List.length_map] at hlength
      exact ⟨_, _, (List.take_append_drop 4 c.rest).symm, hlength, a, b, d, e, hds, (Except.ok.inj h).symm⟩
    · cases h

/-! ## Escapes -/

theorem isTrailing_iff (n : Nat) : isTrailing n = true ↔ 0xDC00 ≤ n ∧ n ≤ 0xDFFF := by
  simp [isTrailing]

theorem isLeading_iff (n : Nat) : isLeading n = true ↔ 0xD800 ≤ n ∧ n ≤ 0xDBFF := by
  simp [isLeading]

theorem pairValue_eq (n m : Nat) : pairValue n m = 0x10000 + (n - 0xD800) * 0x400 + (m - 0xDC00) := by
  unfold pairValue
  omega

theorem unicodeEscape_of_unit {ds : List Char} {n : Nat} (h : Unit16 ds n) (hn : n < 0xD800 ∨ 0xDFFF < n)
    (rest : List Char) (p : Position) : unicodeEscape ⟨ds ++ rest, p⟩ = .ok (Char.ofNat n, 4) := by
  have htrailing : isTrailing n = false := by
    rw [← Bool.not_eq_true, isTrailing_iff]
    omega
  have hleading : isLeading n = false := by
    rw [← Bool.not_eq_true, isLeading_iff]
    omega
  rw [unicodeEscape, fourHex_of_unit16 h]
  simp only [bind, Except.bind, htrailing, hleading]
  rfl

theorem unicodeEscape_of_pair {ds es : List Char} {n m : Nat} (h : Unit16 ds n) (h' : Unit16 es m)
    (hn : 0xD800 ≤ n ∧ n ≤ 0xDBFF) (hm : 0xDC00 ≤ m ∧ m ≤ 0xDFFF) (rest : List Char) (p : Position) :
    unicodeEscape ⟨ds ++ '\\' :: 'u' :: (es ++ rest), p⟩ =
      .ok (Char.ofNat (0x10000 + (n - 0xD800) * 0x400 + (m - 0xDC00)), 10) := by
  have htrailing : isTrailing n = false := by
    rw [← Bool.not_eq_true, isTrailing_iff]
    omega
  have hleading : isLeading n = true := (isLeading_iff n).2 hn
  have hadvance (r : List Char) : Cursor.advance 4 ⟨ds ++ r, p⟩ = ⟨r, p.pastAll ds⟩ := by
    obtain ⟨x, y, z, t, rfl⟩ := h.exists_cons
    rfl
  have hsecond (q : Position) := fourHex_of_unit16 h' rest q
  rw [unicodeEscape, fourHex_of_unit16 h]
  simp [bind, Except.bind, htrailing, hleading, hadvance, hsecond, (isTrailing_iff m).2 hm, pairValue_eq]

/-- The reader undoes what stands for a character. -/
theorem escaped_of_piece {e : List Char} {c : Char} (h : Piece ('\\' :: e) c) (rest : List Char) (p : Position) :
    escaped ⟨e ++ rest, p⟩ = .ok (c, e.length) := by
  cases h with
  | self hquote hslash hcontrol => exact absurd rfl hslash
  | letter h =>
    simp only [letters, List.mem_cons, List.not_mem_nil, or_false, Prod.mk.injEq] at h
    rcases h with ⟨rfl, rfl⟩ | ⟨rfl, rfl⟩ | ⟨rfl, rfl⟩ | ⟨rfl, rfl⟩ | ⟨rfl, rfl⟩ | ⟨rfl, rfl⟩ | ⟨rfl, rfl⟩ |
      ⟨rfl, rfl⟩ <;> rfl
  | @unit ds n h hn =>
    have hlength : ds.length = 4 := by
      obtain ⟨x, y, z, t, rfl⟩ := h.exists_cons
      rfl
    have hread := unicodeEscape_of_unit h hn rest (p.past 'u')
    simp only [List.cons_append, escaped, Cursor.advance_one, hread, List.length_cons, hlength]
    rfl
  | @pair ds es n m h h' hn hm =>
    have hlength : (ds ++ '\\' :: 'u' :: es).length = 10 := by
      obtain ⟨x, y, z, t, rfl⟩ := h.exists_cons
      obtain ⟨x', y', z', t', rfl⟩ := h'.exists_cons
      rfl
    have hread := unicodeEscape_of_pair h h' hn hm rest (p.past 'u')
    simp only [List.cons_append, List.append_assoc, escaped, Cursor.advance_one, hread, List.length_cons, hlength,
      Except.map]

theorem rest_advance_append {c : Cursor} {ds rest : List Char} (h : c.rest = ds ++ rest) :
    (c.advance ds.length).rest = rest := by
  rw [Cursor.advance, h, List.drop_left]

theorem rest_advance_one {c : Cursor} {x : Char} {rest : List Char} (h : c.rest = x :: rest) :
    (c.advance 1).rest = rest := by
  have hskip : (c.advance [x].length).rest = rest := rest_advance_append h
  exact hskip

/-- When the reader finds a code unit that is no surrogate, or a pair of them. -/
theorem unicodeEscape_cases {c : Cursor} {x : Char} {n : Nat} (h : unicodeEscape c = .ok (x, n)) :
    ∃ m, fourHex c = .ok m ∧ isTrailing m = false ∧
      (isLeading m = false ∧ (Char.ofNat m, 4) = (x, n) ∨
        isLeading m = true ∧ ∃ after k, (c.advance 4).rest = '\\' :: 'u' :: after ∧
          fourHex (((c.advance 4).advance 1).advance 1) = .ok k ∧ isTrailing k = true ∧
          (Char.ofNat (pairValue m k), 10) = (x, n)) := by
  unfold unicodeEscape at h
  obtain ⟨m, hfirst, h⟩ := bind_eq_ok_iff.1 h
  refine ⟨m, hfirst, ?_⟩
  dsimp only at h
  split at h
  · cases h
  · rename_i htrailing
    refine ⟨Bool.eq_false_iff.2 htrailing, ?_⟩
    split at h
    · rename_i hleading
      exact .inl ⟨Bool.not_eq_true' _ ▸ hleading, Except.ok.inj h⟩
    · rename_i hleading
      rw [Bool.not_eq_true', Bool.not_eq_false] at hleading
      refine .inr ⟨hleading, ?_⟩
      split at h
      · cases h
      · rename_i after hslash
        have hletter : ((c.advance 4).advance 1).rest = after := rest_advance_one hslash
        rw [hletter] at h
        split at h
        · cases h
        · obtain ⟨k, hsecond, h⟩ := bind_eq_ok_iff.1 h
          split at h
          · exact ⟨_, k, hslash, hsecond, ‹_›, Except.ok.inj h⟩
          · cases h
        · cases h
      · cases h

theorem exists_units {c : Cursor} {x : Char} {n : Nat} (h : unicodeEscape c = .ok (x, n)) :
    ∃ e rest, c.rest = e ++ rest ∧ e.length = n ∧ Piece ('\\' :: 'u' :: e) x := by
  obtain ⟨m, hfirst, htrailing, hcases⟩ := unicodeEscape_cases h
  obtain ⟨ds, rest, hrest, hlength, hds⟩ := exists_unit16 hfirst
  have hafter : (c.advance 4).rest = rest := hlength ▸ rest_advance_append hrest
  rw [← Bool.not_eq_true, isTrailing_iff] at htrailing
  rcases hcases with ⟨hleading, hx⟩ | ⟨hleading, after, k, hslash, hsecond, htrail, hx⟩
  · obtain ⟨rfl, rfl⟩ := Prod.mk.inj hx
    rw [← Bool.not_eq_true, isLeading_iff] at hleading
    exact ⟨ds, rest, hrest, hlength, .unit hds (by omega)⟩
  · obtain ⟨rfl, rfl⟩ := Prod.mk.inj hx
    obtain ⟨es, rest', hrest', hlength', hes⟩ := exists_unit16 hsecond
    have hletters : (((c.advance 4).advance 1).advance 1).rest = after :=
      rest_advance_one (rest_advance_one hslash)
    rw [isLeading_iff] at hleading
    rw [isTrailing_iff] at htrail
    rw [pairValue_eq]
    refine ⟨ds ++ '\\' :: 'u' :: es, rest', ?_, by simp [hlength, hlength'], .pair hds hes hleading htrail⟩
    rw [hrest, ← hafter, hslash, ← hletters, hrest', List.append_assoc]
    rfl

/-- What the reader undoes stands for a character. -/
theorem exists_piece {c : Cursor} {x : Char} {n : Nat} (h : escaped c = .ok (x, n)) :
    ∃ e rest, c.rest = e ++ rest ∧ e.length = n ∧ Piece ('\\' :: e) x := by
  unfold escaped at h
  split at h
  case h_1 => cases h
  case h_10 rest hrest =>
    obtain ⟨r, hunits, ⟨⟩⟩ := map_eq_ok_iff.1 h
    obtain ⟨e, rest', hrest', hlength, hpiece⟩ := exists_units hunits
    have hafter : (c.advance 1).rest = rest := rest_advance_one hrest
    exact ⟨'u' :: e, rest', by rw [hrest, hafter.symm.trans hrest']; rfl, congrArg Nat.succ hlength, hpiece⟩
  case h_11 => cases h
  all_goals
    rename_i rest hrest
    injection h with h
    injection h with hx hn
    subst hx hn
    exact ⟨[_], rest, hrest, rfl, .letter (by decide)⟩

/-! ## Strings -/

theorem stringBody_escape {e : List Char} {c : Char} {rest : List Char} {p : Position}
    (h : escaped ⟨e ++ rest, p.past '\\'⟩ = .ok (c, e.length)) :
    stringBody ⟨'\\' :: (e ++ rest), p⟩ =
      (stringBody ⟨rest, p.pastAll ('\\' :: e)⟩).map fun r => (c :: r.1, r.2) := by
  have hadvance : Cursor.advance (e.length + 1) ⟨'\\' :: (e ++ rest), p⟩ = ⟨rest, p.pastAll ('\\' :: e)⟩ :=
    Cursor.advance_append p rest ('\\' :: e)
  rw [stringBody]
  simp only [Cursor.advance_one, h, hadvance]
  rfl

theorem stringBody_self {c : Char} (hquote : c ≠ '"') (hslash : c ≠ '\\') (hc : ¬c.toNat < 0x20) (rest : List Char)
    (p : Position) :
    stringBody ⟨c :: rest, p⟩ = (stringBody ⟨rest, p.past c⟩).map fun r => (c :: r.1, r.2) := by
  rw [stringBody]
  simp only [Cursor.advance_one, if_neg hquote, if_neg hslash, if_neg hc]

theorem stringBody_of_body {text cs : List Char} (h : Body text cs) (rest : List Char) (p : Position) :
    stringBody ⟨text ++ '"' :: rest, p⟩ = .ok (cs, ⟨rest, p.pastAll (text ++ ['"'])⟩) := by
  induction h generalizing p with
  | nil =>
    rw [List.nil_append, stringBody]
    simp only [Cursor.advance_one]
    rfl
  | @cons ts us cs c hpiece hs ih =>
    rw [List.append_assoc, List.append_assoc, Position.pastAll_append]
    have hread {e : List Char} (he : ts = '\\' :: e) :
        stringBody ⟨ts ++ (us ++ '"' :: rest), p⟩ = .ok (c :: cs, ⟨rest, (p.pastAll ts).pastAll (us ++ ['"'])⟩) := by
      subst he
      rw [List.cons_append, stringBody_escape (escaped_of_piece hpiece _ _), ih]
      rfl
    cases hpiece with
    | self hquote hslash hcontrol =>
      rw [List.singleton_append, stringBody_self hquote hslash (Nat.not_lt.2 hcontrol), ih]
      rfl
    | letter h => exact hread rfl
    | unit h hn => exact hread rfl
    | pair h h' hn hm => exact hread rfl

/-- What is read as the rest of a string stands for it, up to a closing quote. -/
theorem exists_body {c d : Cursor} {cs : List Char} (h : stringBody c = .ok (cs, d)) :
    ∃ text, c.rest = text ++ '"' :: d.rest ∧ Body text cs := by
  fun_induction stringBody c generalizing cs d with
  | case1 c hrest => cases h
  | case2 c rest hrest =>
    obtain ⟨rfl, rfl⟩ := Prod.mk.inj (Except.ok.inj h)
    exact ⟨[], by rw [rest_advance_one hrest, hrest]; rfl, .nil⟩
  | case3 c rest f hf hrest hne => cases h
  | case4 c rest x n hescaped hrest hne ih =>
    obtain ⟨e, after, hafter, rfl, hpiece⟩ := exists_piece hescaped
    have hslash : (c.advance 1).rest = rest := rest_advance_one hrest
    have htext : c.rest = ('\\' :: e) ++ after := by rw [hrest, ← hslash, hafter]; rfl
    have hrest' : (c.advance (e.length + 1)).rest = after := rest_advance_append htext
    obtain ⟨r, hrec, ⟨⟩⟩ := map_eq_ok_iff.1 h
    obtain ⟨text, hbody, hs⟩ := ih hrec
    rw [hrest'] at hbody
    exact ⟨('\\' :: e) ++ text, by rw [htext, hbody, List.append_assoc], .cons hpiece hs⟩
  | case5 c x rest hrest hquote hslash hcontrol => cases h
  | case6 c x rest hrest hquote hslash hcontrol ih =>
    obtain ⟨r, hrec, ⟨⟩⟩ := map_eq_ok_iff.1 h
    obtain ⟨text, hbody, hs⟩ := ih hrec
    rw [rest_advance_one hrest] at hbody
    exact ⟨[x] ++ text, by rw [hrest, hbody]; rfl, .cons (.self hquote hslash (Nat.not_lt.1 hcontrol)) hs⟩

/-! ## Values and whole texts -/

theorem string_eq_ok_iff {c d : Cursor} {s : String} : string c = .ok (s, d) ↔ stringBody c = .ok (s.toList, d) := by
  rw [string, map_eq_ok_iff]
  constructor
  · rintro ⟨r, hr, ⟨⟩⟩
    rw [hr, String.toList_ofList]
  · intro h
    exact ⟨_, h, by rw [String.ofList_toList]⟩

/-- A literal is read as its string, behind any blanks. -/
theorem value_of_literal {w text : List Char} {s : String} (hw : ∀ x ∈ w, Cursor.isBlank x = true) (hs : IsLiteral text s)
    (steps depth : Nat) (rest : List Char) (p : Position) :
    ∃ q, value (steps + 1) depth ⟨w ++ text ++ rest, p⟩ = .ok (.text s, ⟨rest, q⟩) := by
  obtain ⟨body, rfl, hbody⟩ := hs
  have hskip : Cursor.skipBlanks ⟨w ++ '"' :: (body ++ ['"']) ++ rest, p⟩ =
      ⟨'"' :: (body ++ '"' :: rest), p.pastAll ((w ++ '"' :: (body ++ ['"']) ++ rest).takeWhile Cursor.isBlank)⟩ := by
    have hquote : Cursor.isBlank '"' = false := rfl
    rw [Cursor.skipBlanks]
    simp only [List.append_assoc, List.cons_append, List.nil_append, List.dropWhile_append_of_pos hw]
    rw [List.dropWhile_cons_of_neg (by simp [hquote])]
  have hstring (q : Position) := string_eq_ok_iff.2 (stringBody_of_body hbody rest q)
  unfold value
  simp only [hskip, Cursor.advance_one, hstring]
  exact ⟨_, rfl⟩

/-- What is read as a string is a literal behind blanks. -/
theorem exists_literal {steps depth : Nat} {c d : Cursor} {s : String} (h : value (steps + 1) depth c = .ok (.text s, d)) :
    ∃ w text, c.rest = w ++ text ++ d.rest ∧ (∀ x ∈ w, Cursor.isBlank x = true) ∧ IsLiteral text s := by
  cases outcome_of_value h with
  | text hquote hstring =>
    obtain ⟨body, hbody, hs⟩ := exists_body (string_eq_ok_iff.1 hstring)
    rw [rest_advance_one hquote] at hbody
    refine ⟨c.rest.takeWhile Cursor.isBlank, '"' :: (body ++ ['"']), ?_, fun _ => List.mem_takeWhile_imp, body, rfl, hs⟩
    calc c.rest = c.rest.takeWhile Cursor.isBlank ++ c.rest.dropWhile Cursor.isBlank :=
          List.takeWhile_append_dropWhile.symm
      _ = c.rest.takeWhile Cursor.isBlank ++ '"' :: (body ++ '"' :: d.rest) :=
          congrArg _ (hquote.trans (congrArg _ hbody))
      _ = c.rest.takeWhile Cursor.isBlank ++ '"' :: (body ++ ['"']) ++ d.rest := by simp

/-- A text is read as a string exactly if it is a string literal between blanks. -/
theorem parse_eq_text_iff (t s : String) : parse t = .ok (.text s) ↔
    ∃ w₁ text w₂, t.toList = w₁ ++ text ++ w₂ ∧ (∀ c ∈ w₁ ++ w₂, Cursor.isBlank c = true) ∧ IsLiteral text s := by
  rw [parse_eq_ok_iff, stepBound]
  constructor
  · rintro ⟨d, hv, h₂⟩
    obtain ⟨w₁, text, ht, h₁, hs⟩ := exists_literal hv
    exact ⟨w₁, text, d.rest, ht, List.forall_mem_append.2 ⟨h₁, h₂⟩, hs⟩
  · rintro ⟨w₁, text, w₂, ht, hblank, hs⟩
    obtain ⟨h₁, h₂⟩ := List.forall_mem_append.1 hblank
    have hcursor : Cursor.ofString t = ⟨w₁ ++ text ++ w₂, .start⟩ := by rw [Cursor.ofString, ht]
    obtain ⟨q, hv⟩ := value_of_literal h₁ hs (2 * (Cursor.ofString t).rest.length + 1) depthBound w₂ .start
    exact ⟨_, (congrArg _ hcursor).trans hv, h₂⟩

/-! ## Written strings -/

theorem hexValue?_hexDigit : ∀ n < 0x20, Text.hexValue? (hexDigit (n / 16)) = some (n / 16) ∧
    Text.hexValue? (hexDigit (n % 16)) = some (n % 16) := by
  decide +kernel

theorem piece_escape (c : Char) : Piece (escape c) c := by
  unfold escape
  split
  · exact .letter (by decide)
  · exact .letter (by decide)
  · exact .letter (by decide)
  · exact .letter (by decide)
  · exact .letter (by decide)
  · exact .letter (by decide)
  · exact .letter (by decide)
  · rename_i hquote hslash _ _ _ _ _
    split
    · rename_i hc
      have hzero : Text.hexValue? '0' = some 0 := rfl
      have hunit : Unit16 ['0', '0', hexDigit (c.toNat / 16), hexDigit (c.toNat % 16)] c.toNat := by
        refine ⟨0, 0, c.toNat / 16, c.toNat % 16, ?_, by omega⟩
        obtain ⟨hhigh, hlow⟩ := hexValue?_hexDigit c.toNat hc
        simp only [List.map_cons, List.map_nil, hzero, hhigh, hlow]
      have hpiece := Piece.unit hunit (.inl (by omega))
      rwa [Char.ofNat_toNat] at hpiece
    · exact .self hquote hslash (Nat.not_lt.1 ‹_›)

theorem body_escape (cs : List Char) : Body (cs.flatMap escape) cs := by
  induction cs with
  | nil => exact .nil
  | cons c cs ih => exact .cons (piece_escape c) ih

/-- A written string is a literal that denotes it. -/
theorem isLiteral_stringChars (s : String) : IsLiteral (stringChars s) s := ⟨_, rfl, body_escape s.toList⟩

/-- A string is read back, whatever stands behind it. -/
theorem string_stringChars (s : String) (rest : List Char) (p : Position) :
    string ⟨s.toList.flatMap escape ++ '"' :: rest, p⟩ =
      .ok (s, ⟨rest, p.pastAll (s.toList.flatMap escape ++ ['"'])⟩) :=
  string_eq_ok_iff.2 (stringBody_of_body (body_escape s.toList) rest p)

end Dashboard.Json
