import Dashboard.Proofs.Toml.Text
import Dashboard.Proofs.Toml.Number
import Mathlib.Data.List.Nodup

/-! # Printed documents are read back

A document of sections is printed exactly if all its numbers fit into 64 bits with a sign. If the names of its sections and
of their entries are bare and differ, the reader finds these sections with these entries again, in the same order.

* `Leaf.fits`, `Leaf.written`, `render_eq`: what can be printed, and the text that is printed.
* `value?_written`, `key?_bare`: the two sides of an entry.
* `statements?_header`, `statements?_line`, `statements?_written`: the lines of a document.
* `document?_statements`: the table that the lines write.
* `parse?_render`: the whole text.
-/

namespace Dashboard.Toml
set_option autoImplicit false

/-! ## What is printed -/

/-- The value is a text, or a number that fits into 64 bits with a sign. -/
def Leaf.fits : Leaf → Bool
  | .text _ => true
  | .natural n => n < Word.signedBound

def Leaf.written : Leaf → List Char
  | .text s => textChars s.toList
  | .natural n => Nat.toDigits 10 n

def lineChars (e : String × Leaf) : List Char := e.1.toList ++ ' ' :: '=' :: ' ' :: (e.2.written ++ ['\n'])

def Section.fits (s : Section) : Bool := s.entries.all fun e => e.2.fits

def Section.written (s : Section) : List Char :=
  '[' :: (s.name.toList ++ ']' :: '\n' :: s.entries.flatMap lineChars)

/-- Sections with a blank line between them. -/
def written : List Section → List Char
  | [] => []
  | [s] => s.written
  | s :: t :: rest => s.written ++ '\n' :: written (t :: rest)

theorem Leaf.chars_eq (leaf : Leaf) :
    leaf.chars = if leaf.fits then .ok leaf.written else .error .integerTooLarge := by
  cases leaf with
  | text s => rfl
  | natural n =>
    by_cases h : n < Word.signedBound
    · simp [chars, fits, h, written]
    · simp [chars, fits, h]

theorem entryChars_eq (es : List (String × Leaf)) :
    entryChars es = if es.all (fun e => e.2.fits) then .ok (es.flatMap lineChars)
      else .error .integerTooLarge := by
  induction es with
  | nil => rfl
  | cons e es ih =>
    obtain ⟨key, leaf⟩ := e
    rw [entryChars, leaf.chars_eq, ih]
    cases hleaf : leaf.fits with
    | false => simp [hleaf, bind, Except.bind]
    | true =>
      cases hes : es.all fun e => e.2.fits with
      | false => simp [hleaf, hes, bind, Except.bind]
      | true => simp [hleaf, hes, bind, Except.bind, lineChars]

theorem Section.chars_eq (s : Section) :
    s.chars = if s.fits then .ok s.written else .error .integerTooLarge := by
  rw [chars, entryChars_eq]
  cases hs : s.entries.all fun e => e.2.fits with
  | false => simp [fits, hs, Except.map]
  | true => simp [fits, hs, Except.map, written]

theorem sectionChars_eq (ss : List Section) :
    sectionChars ss = if ss.all Section.fits then .ok (written ss) else .error .integerTooLarge := by
  induction ss with
  | nil => rfl
  | cons s ss ih =>
    cases ss with
    | nil => simp [sectionChars, written, s.chars_eq]
    | cons t rest =>
      rw [sectionChars, s.chars_eq, ih]
      cases hs : s.fits with
      | false => simp [hs, bind, Except.bind]
      | true =>
        cases hrest : (t :: rest).all Section.fits with
        | false => simp [hs, hrest, bind, Except.bind]
        | true => simp [hs, hrest, bind, Except.bind, written]

theorem render_eq (ss : List Section) : render ss =
    if ss.all Section.fits then .ok (String.ofList (written ss)) else .error .integerTooLarge := by
  rw [render, sectionChars_eq]
  cases ss.all Section.fits <;> rfl

/-! ## Values -/

def Leaf.value : Leaf → Toml
  | .text s => .text s
  | .natural n => .int n

/-- A printed text begins with a quote. -/
theorem exists_textChars (cs : List Char) : ∃ q r, textChars cs = q :: r ∧ (q = '"' ∨ q = '\'') := by
  unfold textChars
  cases Style.of cs with
  | basic => exact ⟨_, _, rfl, .inl rfl⟩
  | literal => exact ⟨_, _, rfl, .inr rfl⟩
  | basicLines => exact ⟨_, _, rfl, .inl rfl⟩
  | literalLines => exact ⟨_, _, rfl, .inr rfl⟩

theorem value?_textChars (s : String) (steps depth : Nat) (r : List Char) :
    value? (steps + 1) depth (textChars s.toList ++ '\n' :: r) = some (.text s, '\n' :: r) := by
  have htext := text?_textChars s.toList (r := '\n' :: r) (by simp) (by simp)
  obtain ⟨q, x, hx, hq⟩ := exists_textChars s.toList
  rw [hx] at htext ⊢
  rcases hq with rfl | rfl
  · rw [List.cons_append] at htext ⊢
    simp only [value?, htext]
    rw [Option.map_some, String.ofList_toList]
  · rw [List.cons_append] at htext ⊢
    simp only [value?, htext]
    rw [Option.map_some, String.ofList_toList]

theorem value?_written {leaf : Leaf} (h : leaf.fits = true) (steps depth : Nat) (r : List Char) :
    value? (steps + 1) depth (leaf.written ++ '\n' :: r) = some (leaf.value, '\n' :: r) := by
  cases leaf with
  | text s => exact value?_textChars s steps depth r
  | natural n => exact value?_toDigits (of_decide_eq_true h) steps depth r

/-- A printed value does not begin with a blank. -/
theorem skipWhite_written (leaf : Leaf) (r : List Char) : skipWhite (leaf.written ++ r) = leaf.written ++ r := by
  have hhead : ∃ c x, leaf.written = c :: x ∧ isWhite c = false := by
    cases leaf with
    | text s =>
      obtain ⟨q, x, hx, rfl | rfl⟩ := exists_textChars s.toList
      · exact ⟨_, x, hx, rfl⟩
      · exact ⟨_, x, hx, rfl⟩
    | natural n =>
      cases hds : Nat.toDigits 10 n with
      | nil => exact absurd hds Nat.toDigits_ne_nil
      | cons d ds =>
        refine ⟨d, ds, hds, ?_⟩
        have hd : d.isDigit = true := Text.isDigit_of_mem (n := n) (by rw [hds]; exact List.mem_cons_self)
        rw [← Bool.not_eq_true]
        intro hwhite
        rcases (by simpa [isWhite] using hwhite : d = ' ' ∨ d = '\t') with rfl | rfl
        · exact absurd hd (by decide)
        · exact absurd hd (by decide)
  obtain ⟨c, x, hx, hc⟩ := hhead
  rw [hx, skipWhite, List.cons_append, List.dropWhile_cons_of_neg (by rw [hc]; exact Bool.false_ne_true)]

/-! ## Keys -/

/-- The name can stand for itself as a key. -/
def isBare (name : String) : Bool := !name.toList.isEmpty && name.toList.all isBareKey

theorem ne_of_isBareKey {c d : Char} (hc : isBareKey c = true) (hd : isBareKey d = false) : c ≠ d := by
  rintro rfl
  exact absurd (hc.symm.trans hd) (by decide)

theorem exists_of_isBare {name : String} (h : isBare name = true) :
    ∃ c cs, name.toList = c :: cs ∧ isBareKey c = true ∧ ∀ d ∈ cs, isBareKey d = true := by
  obtain ⟨hne, hall⟩ : name.toList ≠ [] ∧ ∀ c ∈ name.toList, isBareKey c = true := by
    simpa [isBare] using h
  cases hcs : name.toList with
  | nil => exact absurd hcs hne
  | cons c cs =>
    rw [hcs] at hall
    exact ⟨c, cs, rfl, hall c List.mem_cons_self, fun d hd => hall d (List.mem_cons_of_mem _ hd)⟩

theorem keyPart?_bare {name : String} (h : isBare name = true) {d : Char} (hd : isBareKey d = false)
    (r : List Char) : keyPart? (name.toList ++ d :: r) = some (name, d :: r) := by
  obtain ⟨c, cs, hname, hc, hcs⟩ := exists_of_isBare h
  have hline : lineText? (name.toList ++ d :: r) = none := by
    rw [hname]
    simp [lineText?, ne_of_isBareKey hc (d := '"') (by decide), ne_of_isBareKey hc (d := '\'') (by decide)]
  have htake : (name.toList ++ d :: r).takeWhile isBareKey = name.toList := by
    rw [List.takeWhile_append_of_pos]
    · simp [hd]
    · rw [hname]
      exact List.forall_mem_cons.2 ⟨hc, hcs⟩
  rw [keyPart?, hline]
  simp only [htake]
  rw [hname]
  simp only
  rw [← hname, String.ofList_toList, List.drop_left]

theorem skipWhite_bare {name : String} (h : isBare name = true) (r : List Char) :
    skipWhite (name.toList ++ r) = name.toList ++ r := by
  obtain ⟨c, cs, hname, hc, -⟩ := exists_of_isBare h
  have hwhite : isWhite c = false := by
    simp [isWhite, ne_of_isBareKey hc (d := ' ') (by decide), ne_of_isBareKey hc (d := '\t') (by decide)]
  rw [hname, skipWhite, List.cons_append, List.dropWhile_cons_of_neg (by rw [hwhite]; exact Bool.false_ne_true)]

/-- A bare key of one part, with what may stand behind it. -/
theorem key?_bare {name : String} (h : isBare name = true) {d : Char} (hd : isBareKey d = false)
    {r x : List Char} (hx : skipWhite (d :: r) = x) (hdot : x.head? ≠ some '.') :
    key? (name.toList ++ d :: r) = some ([name], x) := by
  have hparts : depthBound - 1 = 78 + 1 := rfl
  rw [key?, hparts, keyParts?, skipWhite_bare h, keyPart?_bare h hd]
  simp only [Option.bind_eq_bind, Option.bind_some, hx]
  split
  · rename_i heq
    exact absurd rfl hdot
  · rfl

/-! ## Lines -/

/-- A line that begins with a bracket or with a bare key is not blank. -/
theorem skipBlankLines_of_head {c : Char} (hc : c = '[' ∨ isBareKey c = true) (r : List Char) :
    skipBlankLines (c :: r) = c :: r := by
  have hne (d : Char) (hd : d ≠ '[' ∧ isBareKey d = false) : c ≠ d := by
    rcases hc with rfl | hc
    · exact hd.1.symm
    · exact ne_of_isBareKey hc hd.2
  have hwhite : isWhite c = false := by simp [isWhite, hne ' ' (by decide), hne '\t' (by decide)]
  have hskip : skipWhite (c :: r) = c :: r := by
    rw [skipWhite, List.dropWhile_cons_of_neg (by rw [hwhite]; exact Bool.false_ne_true)]
  have hcomment : skipComment (c :: r) = c :: r := by simp [skipComment, hne '#' (by decide)]
  have hnewline : newline? (c :: r) = none := by
    simp [newline?, hne '\n' (by decide), hne '\r' (by decide)]
  simp only [skipBlankLines, blankLines, hskip, hcomment, hnewline]

theorem statements?_blank (n : Nat) (r : List Char) : statements? (n + 1) ('\n' :: r) = statements? (n + 1) r := by
  have hskip : skipBlankLines ('\n' :: r) = skipBlankLines r := rfl
  rw [statements?, statements?, hskip]

theorem statements?_cons {n : Nat} {c : Char} {r rest : List Char} {st : Statement}
    (hc : c = '[' ∨ isBareKey c = true) (hst : statement? (c :: r) = some (st, '\n' :: rest)) :
    statements? (n + 1) (c :: r) = (statements? n rest).map (st :: ·) := by
  have hend : lineEnd? ('\n' :: rest) = some rest := rfl
  rw [statements?, skipBlankLines_of_head hc]
  simp only [hst, Option.bind_eq_bind, Option.bind_some, hend]

section
variable {name : String} (h : isBare name = true)
include h

theorem statements?_header (n : Nat) (rest : List Char) :
    statements? (n + 1) ('[' :: (name.toList ++ ']' :: '\n' :: rest)) =
      (statements? n rest).map (.header [name] :: ·) := by
  refine statements?_cons (.inl rfl) ?_
  have hkey : key? (name.toList ++ ']' :: '\n' :: rest) = some ([name], ']' :: '\n' :: rest) :=
    key?_bare h (by decide) rfl (by simp)
  obtain ⟨c, cs, hname, hc, -⟩ := exists_of_isBare h
  rw [hname, List.cons_append] at hkey ⊢
  have hbracket : c ≠ '[' := ne_of_isBareKey hc (by decide)
  simp [statement?, hbracket, hkey, past?]

theorem statements?_line {leaf : Leaf} (hleaf : leaf.fits = true) (n : Nat) (rest : List Char) :
    statements? (n + 1) (lineChars (name, leaf) ++ rest) =
      (statements? n rest).map (.entry [name] leaf.value :: ·) := by
  have hline : lineChars (name, leaf) ++ rest =
      name.toList ++ ' ' :: '=' :: ' ' :: (leaf.written ++ '\n' :: rest) := by
    simp [lineChars]
  have hkey : key? (name.toList ++ ' ' :: '=' :: ' ' :: (leaf.written ++ '\n' :: rest)) =
      some ([name], '=' :: ' ' :: (leaf.written ++ '\n' :: rest)) :=
    key?_bare h (by decide) rfl (by simp)
  have hvalue (steps : Nat) := value?_written hleaf steps depthBound rest
  have hwhite : skipWhite (' ' :: (leaf.written ++ '\n' :: rest)) = leaf.written ++ '\n' :: rest :=
    (List.dropWhile_cons_of_pos rfl).trans (skipWhite_written leaf _)
  obtain ⟨c, cs, hname, hc, -⟩ := exists_of_isBare h
  rw [hline]
  rw [hname, List.cons_append] at hkey ⊢
  refine statements?_cons (.inr hc) ?_
  have hbracket : c ≠ '[' := ne_of_isBareKey hc (by decide)
  simp [statement?, hbracket, hkey, past?, hwhite, hvalue]

end

/-! ## Documents -/

def Section.statements (s : Section) : List Statement :=
  .header [s.name] :: s.entries.map fun e => .entry [e.1] e.2.value

/-- The names can be printed and read as bare keys. -/
def Section.isBare (s : Section) : Bool := Toml.isBare s.name && s.entries.all fun e => Toml.isBare e.1

theorem statements?_lines {es : List (String × Leaf)} (hbare : ∀ e ∈ es, Toml.isBare e.1 = true)
    (hfits : ∀ e ∈ es, e.2.fits = true) (n : Nat) (rest : List Char) :
    statements? (n + es.length) (es.flatMap lineChars ++ rest) =
      (statements? n rest).map (es.map (fun e => .entry [e.1] e.2.value) ++ ·) := by
  induction es with
  | nil => exact Option.map_id'.symm
  | cons e es ih =>
    have hrest := ih (fun x hx => hbare x (List.mem_cons_of_mem _ hx)) fun x hx => hfits x (List.mem_cons_of_mem _ hx)
    rw [List.flatMap_cons, List.append_assoc, List.length_cons, ← Nat.add_assoc,
      statements?_line (hbare e List.mem_cons_self) (hfits e List.mem_cons_self), hrest, Option.map_map]
    rfl

section
variable {s : Section} (hbare : s.isBare = true) (hfits : s.fits = true)
include hbare hfits

theorem statements?_section (n : Nat) (rest : List Char) :
    statements? (n + s.statements.length) (s.written ++ rest) =
      (statements? n rest).map (s.statements ++ ·) := by
  rw [Section.isBare, Bool.and_eq_true, List.all_eq_true] at hbare
  rw [Section.fits, List.all_eq_true] at hfits
  have hlength : n + s.statements.length = n + s.entries.length + 1 := by simp [Section.statements, Nat.add_assoc]
  have hshape : s.written ++ rest =
      '[' :: (s.name.toList ++ ']' :: '\n' :: (s.entries.flatMap lineChars ++ rest)) := by
    simp [Section.written]
  rw [hlength, hshape, statements?_header hbare.1, statements?_lines hbare.2 hfits, Option.map_map]
  rfl

end

theorem statements?_written {ss : List Section} (hbare : ∀ s ∈ ss, s.isBare = true)
    (hfits : ∀ s ∈ ss, s.fits = true) (n : Nat) :
    statements? (n + 1 + (ss.flatMap Section.statements).length) (written ss) =
      some (ss.flatMap Section.statements) := by
  induction ss with
  | nil => rfl
  | cons s ss ih =>
    have hrest := ih (fun x hx => hbare x (List.mem_cons_of_mem _ hx)) fun x hx => hfits x (List.mem_cons_of_mem _ hx)
    have hs := statements?_section (hbare s List.mem_cons_self) (hfits s List.mem_cons_self)
      (n + 1 + (ss.flatMap Section.statements).length)
    rw [List.flatMap_cons, List.length_append, Nat.add_left_comm, Nat.add_comm]
    cases ss with
    | nil =>
      have hnil := hs []
      rw [List.append_nil] at hnil
      exact hnil.trans (congrArg (Option.map _) hrest)
    | cons t rest =>
      have hblank := statements?_blank (n + ((t :: rest).flatMap Section.statements).length) (written (t :: rest))
      rw [Nat.add_right_comm] at hblank
      rw [written, hs, hblank, hrest]
      rfl

theorem length_lineChars (es : List (String × Leaf)) : es.length ≤ (es.flatMap lineChars).length := by
  induction es with
  | nil => exact Nat.le_refl 0
  | cons e es ih =>
    simp only [List.flatMap_cons, List.length_append, List.length_cons, lineChars]
    omega

/-- Every statement takes a line of its own. -/
theorem length_written (ss : List Section) : (ss.flatMap Section.statements).length ≤ (written ss).length := by
  have hsection (s : Section) : s.statements.length ≤ s.written.length := by
    have hlines := length_lineChars s.entries
    simp only [Section.statements, Section.written, List.length_cons, List.length_append, List.length_map]
    omega
  induction ss with
  | nil => exact Nat.le_refl 0
  | cons s ss ih =>
    have hs := hsection s
    rw [List.flatMap_cons, List.length_append]
    cases ss with
    | nil => exact hs
    | cons t rest =>
      rw [written, List.length_append, List.length_cons]
      omega

/-! ## The table that the lines write -/

/-- A section as an entry of an unfinished document. -/
def Section.node (s : Section) : String × Node :=
  (s.name, .table .header (s.entries.map fun e => (e.1, .value e.2.value)))

def Section.value (s : Section) : String × Toml :=
  (s.name, .table (s.entries.map fun e => (e.1, e.2.value)))

theorem add?_header {front : Entries Node} {name : String} (h : name ∉ front.map Prod.fst) (path : List String) :
    Draft.add? ⟨front, path⟩ (.header [name]) = some ⟨front ++ [(name, .table .header [])], [name]⟩ := by
  have hopen : openTable? name front = some (front ++ [(name, .table .header [])]) := by
    rw [openTable?, Entries.lookup_eq_none_iff.2 h]
    simp only [Entries.put_of_not_mem h]
  simp [Draft.add?, within?, hopen]

theorem add?_entry {front : Entries Node} {name : String} (h : name ∉ front.map Prod.fst)
    {done : Entries Node} {key : String} (hkey : key ∉ done.map Prod.fst) (v : Toml) :
    Draft.add? ⟨front ++ [(name, .table .header done)], [name]⟩ (.entry [key] v) =
      some ⟨front ++ [(name, .table .header (done ++ [(key, .value v)]))], [name]⟩ := by
  have hassign : assign? true false [key] v done = some (done ++ [(key, .value v)]) := by
    simp [assign?, Entries.lookup_eq_none_iff.2 hkey, Entries.put_of_not_mem hkey]
  have hput (n : Node) : Entries.put name n (front ++ [(name, .table .header done)]) = front ++ [(name, n)] := by
    rw [Entries.put_append h, Entries.put, if_pos rfl]
  have hlookup : (front ++ [(name, Node.table .header done)]).lookup name = some (.table .header done) := by
    rw [Entries.lookup_append h]
    simp
  simp [Draft.add?, within?, hlookup, hassign, hput]

theorem add?_entries {front : Entries Node} {name : String} (h : name ∉ front.map Prod.fst)
    {done : Entries Node} {es : List (String × Leaf)} (hnodup : (done.map Prod.fst ++ es.map Prod.fst).Nodup) :
    (es.map fun e => Statement.entry [e.1] e.2.value).foldlM Draft.add?
        ⟨front ++ [(name, .table .header done)], [name]⟩ =
      some ⟨front ++ [(name, .table .header (done ++ es.map fun e => (e.1, .value e.2.value)))], [name]⟩ := by
  induction es generalizing done with
  | nil => simp
  | cons e es ih =>
    have hkey : e.1 ∉ done.map Prod.fst := by
      intro hm
      exact List.disjoint_of_nodup_append hnodup hm List.mem_cons_self
    have hnext : ((done ++ [(e.1, Node.value e.2.value)]).map Prod.fst ++ es.map Prod.fst).Nodup := by
      rw [List.map_append, List.append_assoc]
      exact hnodup
    have hrest := ih hnext
    rw [List.append_assoc] at hrest
    rw [List.map_cons, List.foldlM_cons, add?_entry h hkey]
    exact hrest

/-- The names of the sections differ, and so do the names of the entries of each of them. -/
structure Distinct (ss : List Section) : Prop where
  names : (ss.map Section.name).Nodup
  keys : ∀ s ∈ ss, (s.entries.map Prod.fst).Nodup

theorem add?_section {front : Entries Node} {s : Section} (h : s.name ∉ front.map Prod.fst)
    (hkeys : (s.entries.map Prod.fst).Nodup) (path : List String) :
    s.statements.foldlM Draft.add? ⟨front, path⟩ = some ⟨front ++ [s.node], [s.name]⟩ := by
  rw [Section.statements, List.foldlM_cons, add?_header h]
  exact add?_entries h hkeys

theorem add?_sections {front : Entries Node} {ss : List Section} (hss : Distinct ss)
    (hfront : (front.map Prod.fst ++ ss.map Section.name).Nodup) (path : List String) :
    ∃ path', (ss.flatMap Section.statements).foldlM Draft.add? ⟨front, path⟩ =
      some ⟨front ++ ss.map Section.node, path'⟩ := by
  induction ss generalizing front path with
  | nil => exact ⟨path, by simp⟩
  | cons s ss ih =>
    have hname : s.name ∉ front.map Prod.fst := by
      intro hm
      exact List.disjoint_of_nodup_append hfront hm List.mem_cons_self
    have hrest : Distinct ss :=
      ⟨(List.nodup_cons.1 hss.names).2, fun x hx => hss.keys x (List.mem_cons_of_mem _ hx)⟩
    have hnext : ((front ++ [s.node]).map Prod.fst ++ ss.map Section.name).Nodup := by
      rw [List.map_append, List.append_assoc]
      exact hfront
    obtain ⟨path', hfold⟩ := ih hrest hnext [s.name]
    refine ⟨path', ?_⟩
    rw [List.flatMap_cons, List.foldlM_append, add?_section hname (hss.keys s List.mem_cons_self)]
    rw [List.append_assoc] at hfold
    exact hfold

theorem finishEntries_map {α : Type} (f : α → String × Node) (g : α → String × Toml) (xs : List α)
    (h : ∀ x ∈ xs, g x = ((f x).1, (f x).2.finish)) : finishEntries (xs.map f) = xs.map g := by
  induction xs with
  | nil => rfl
  | cons x xs ih =>
    have hrest := ih fun y hy => h y (List.mem_cons_of_mem _ hy)
    rw [List.map_cons, List.map_cons, h x List.mem_cons_self, ← hrest]
    rfl

theorem finish_node (s : Section) : s.value = (s.node.1, s.node.2.finish) := by
  have hentries := finishEntries_map (fun e : String × Leaf => (e.1, Node.value e.2.value))
    (fun e => (e.1, e.2.value)) s.entries fun _ _ => rfl
  rw [Section.value, Section.node, Node.finish, hentries]

/-- The statements of sections with distinct names write exactly these sections. -/
theorem document?_statements {ss : List Section} (hss : Distinct ss) :
    document? (ss.flatMap Section.statements) = some (ss.map Section.value) := by
  have hnames : (([] : Entries Node).map Prod.fst ++ ss.map Section.name).Nodup := hss.names
  obtain ⟨path, hfold⟩ := add?_sections hss hnames []
  rw [document?, hfold]
  exact congrArg some (finishEntries_map Section.node Section.value ss fun s _ => finish_node s)

/-! ## The whole text -/

/-- A printed document whose names are bare and distinct is read back. -/
theorem parse?_render {ss : List Section} (hbare : ∀ s ∈ ss, s.isBare = true) (hss : Distinct ss) {t : String}
    (ht : render ss = .ok t) : parse? t = some (ss.map Section.value) := by
  rw [render_eq] at ht
  split at ht
  · rename_i hfits
    obtain rfl := Except.ok.inj ht
    have hmark : withoutMark (written ss) = written ss := by
      cases ss with
      | nil => rfl
      | cons s ss =>
        cases ss with
        | nil => rfl
        | cons t rest => rfl
    have hlines := length_written ss
    have hfuel : (written ss).length + 1 =
        (written ss).length - (ss.flatMap Section.statements).length + 1 + (ss.flatMap Section.statements).length := by
      omega
    have hstatements := statements?_written hbare (List.all_eq_true.1 hfits)
      ((written ss).length - (ss.flatMap Section.statements).length)
    rw [← hfuel] at hstatements
    simp only [parse?, String.toList_ofList, hmark, hstatements, Option.bind_eq_bind, Option.bind_some]
    exact document?_statements hss
  · exact absurd ht (by simp)

end Dashboard.Toml
