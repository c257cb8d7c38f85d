import Dashboard.Toml.Reader
import Mathlib.Data.List.Nodup

/-! # Keys of a parsed document are distinct

In every table of a document that was read, at any depth, each key stands once.

* `KeysOnce`: entries with distinct keys, and a condition on their values.
* `Tidy`, `Node.Tidy`: a value, and an unfinished one, in which all tables have distinct keys.
* `assign?_tidy`, `within?_tidy`, `Draft.add?_tidy`: what is added to a table stays tidy.
* `value?_tidy`, `statements?_tidy`: what is read is tidy.
* `parse?_tidy`: the whole text.
-/

namespace Dashboard.Toml
set_option autoImplicit false

/-! ## Entries -/

/-- Each key stands once, and the condition holds for all values. -/
structure KeysOnce {α : Type} (P : α → Prop) (es : Entries α) : Prop where
  nodup : (es.map Prod.fst).Nodup
  values : ∀ e ∈ es, P e.2

section
variable {α : Type} {P : α → Prop}

theorem KeysOnce.nil : KeysOnce P [] := ⟨List.nodup_nil, fun _ h => by cases h⟩

theorem KeysOnce.of_lookup {es : Entries α} (h : KeysOnce P es) {key : String} {v : α} (hv : es.lookup key = some v) :
    P v :=
  h.values (key, v) (Entries.mem_of_lookup hv)

theorem map_fst_put (key : String) (v : α) (es : Entries α) :
    (Entries.put key v es).map Prod.fst =
      if key ∈ es.map Prod.fst then es.map Prod.fst else es.map Prod.fst ++ [key] := by
  induction es with
  | nil => rfl
  | cons e es ih =>
    obtain ⟨k, w⟩ := e
    by_cases hk : k = key
    · simp [Entries.put, hk]
    · rw [Entries.put, if_neg hk, List.map_cons, ih]
      by_cases hmem : key ∈ es.map Prod.fst
      · simp [hmem]
      · simp [hmem, Ne.symm hk]

theorem mem_put {key : String} {v : α} {es : Entries α} {e : String × α} (h : e ∈ Entries.put key v es) :
    e = (key, v) ∨ e ∈ es := by
  induction es with
  | nil => exact .inl (List.mem_singleton.1 h)
  | cons x es ih =>
    obtain ⟨k, w⟩ := x
    rw [Entries.put] at h
    split at h
    · rename_i hk
      rcases List.mem_cons.1 h with rfl | h
      · exact .inl (hk ▸ rfl)
      · exact .inr (List.mem_cons_of_mem _ h)
    · rcases List.mem_cons.1 h with rfl | h
      · exact .inr List.mem_cons_self
      · exact (ih h).imp_right (List.mem_cons_of_mem _)

theorem KeysOnce.put {es : Entries α} (h : KeysOnce P es) {v : α} (hv : P v) (key : String) :
    KeysOnce P (Entries.put key v es) where
  nodup := by
    rw [map_fst_put]
    split
    · exact h.nodup
    · rename_i hkey
      exact List.nodup_append.2 ⟨h.nodup, List.nodup_singleton key, fun a ha b hb => by
        rintro rfl
        exact hkey (List.mem_singleton.1 hb ▸ ha)⟩
  values e he := by
    rcases mem_put he with rfl | he
    · exact hv
    · exact h.values e he

theorem KeysOnce.map {β : Type} {Q : β → Prop} {es : Entries α} (h : KeysOnce P es) {f : α → β}
    (hf : ∀ e ∈ es, Q (f e.2)) : KeysOnce Q (es.map fun e => (e.1, f e.2)) where
  nodup := by
    rw [List.map_map]
    exact h.nodup
  values e he := by
    obtain ⟨x, hx, rfl⟩ := List.mem_map.1 he
    exact hf x hx

end

/-! ## Values -/

def isScalar : Toml → Bool
  | .array _ | .table _ => false
  | _ => true

/-- In all tables of the value each key stands once. -/
inductive Tidy : Toml → Prop
  | scalar {v : Toml} (h : v.isScalar = true) : Tidy v
  | array {items : List Toml} (h : ∀ v ∈ items, Tidy v) : Tidy (.array items)
  | table {es : Entries Toml} (hkeys : (es.map Prod.fst).Nodup) (h : ∀ e ∈ es, Tidy e.2) : Tidy (.table es)

theorem KeysOnce.tidy {es : Entries Toml} (h : KeysOnce Tidy es) : Tidy (.table es) := .table h.nodup h.values

theorem Tidy.keysOnce {es : Entries Toml} (h : Tidy (.table es)) : KeysOnce Tidy es := by
  cases h with
  | scalar h => cases h
  | table hkeys h => exact ⟨hkeys, h⟩

/-- The same for an entry of an unfinished document. -/
inductive Node.Tidy : Node → Prop
  | value {v : Toml} (h : v.Tidy) : Tidy (.value v)
  | table {making : Making} {es : Entries Node} (hkeys : (es.map Prod.fst).Nodup) (h : ∀ e ∈ es, Tidy e.2) :
      Tidy (.table making es)
  | tables {done : List (Entries Node)} {last : Entries Node} (hkeys : ∀ es ∈ last :: done, (es.map Prod.fst).Nodup)
      (h : ∀ es ∈ last :: done, ∀ e ∈ es, Tidy e.2) : Tidy (.tables done last)

theorem finishEntries_eq_map (es : Entries Node) : finishEntries es = es.map fun e => (e.1, e.2.finish) := by
  induction es with
  | nil => rfl
  | cons e es ih => rw [finishEntries, ih, List.map_cons]

theorem finishTables_eq_map (done : List (Entries Node)) :
    finishTables done = done.map fun es => .table (finishEntries es) := by
  induction done with
  | nil => rfl
  | cons es done ih => rw [finishTables, ih, List.map_cons]

theorem Node.Tidy.finish {n : Node} (h : n.Tidy) : n.finish.Tidy := by
  induction h with
  | value h => exact h
  | @table making es hkeys h ih =>
    have hes : KeysOnce Node.Tidy es := ⟨hkeys, h⟩
    rw [Node.finish, finishEntries_eq_map]
    exact (hes.map ih).tidy
  | @tables done last hkeys h ih =>
    have hes (es : Entries Node) (hmem : es ∈ last :: done) : Toml.Tidy (.table (finishEntries es)) := by
      have honce : KeysOnce Node.Tidy es := ⟨hkeys es hmem, h es hmem⟩
      rw [finishEntries_eq_map]
      exact (honce.map (ih es hmem)).tidy
    rw [Node.finish, finishTables_eq_map]
    refine .array fun v hv => ?_
    rcases List.mem_append.1 hv with hv | hv
    · obtain ⟨es, hmem, rfl⟩ := List.mem_map.1 hv
      exact hes es (List.mem_cons_of_mem _ hmem)
    · rw [List.mem_singleton.1 hv]
      exact hes last List.mem_cons_self

theorem KeysOnce.finish {es : Entries Node} (h : KeysOnce Node.Tidy es) : KeysOnce Tidy (finishEntries es) := by
  rw [finishEntries_eq_map]
  exact h.map fun e he => (h.values e he).finish

/-! ## Additions -/

/-- What each step of a fold keeps, the whole fold keeps. -/
theorem foldlM_induction {σ α : Type} {I : σ → Prop} {step : σ → α → Option σ} {xs : List α}
    (hstep : ∀ st x st', x ∈ xs → I st → step st x = some st' → I st') {st st' : σ} (hst : I st)
    (h : xs.foldlM step st = some st') : I st' := by
  induction xs generalizing st with
  | nil =>
    cases h
    exact hst
  | cons x xs ih =>
    rw [List.foldlM_cons] at h
    obtain ⟨next, hnext, hrest⟩ := Option.bind_eq_some_iff.1 h
    exact ih (fun st y st' hy => hstep st y st' (List.mem_cons_of_mem x hy))
      (hstep st x next List.mem_cons_self hst hnext) hrest

section
variable {es es' : Entries Node}

theorem Node.Tidy.table_iff {making : Making} : Node.Tidy (.table making es) ↔ KeysOnce Node.Tidy es := by
  constructor
  · rintro (_ | ⟨hkeys, h⟩)
    exact ⟨hkeys, h⟩
  · exact fun h => .table h.nodup h.values

theorem Node.Tidy.tables_iff {done : List (Entries Node)} :
    Node.Tidy (.tables done es) ↔ KeysOnce Node.Tidy es ∧ ∀ x ∈ done, KeysOnce Node.Tidy x := by
  rw [← List.forall_mem_cons (p := KeysOnce Node.Tidy)]
  constructor
  · rintro (_ | _ | ⟨hkeys, h⟩) x hx
    exact ⟨hkeys x hx, h x hx⟩
  · exact fun h => .tables (fun x hx => (h x hx).nodup) fun x hx => (h x hx).values

theorem Node.Tidy.withTable {making making' : Making} (hn : Node.Tidy (.table making es))
    (h : KeysOnce Node.Tidy es → KeysOnce Node.Tidy es') : Node.Tidy (.table making' es') :=
  Node.Tidy.table_iff.2 (h (Node.Tidy.table_iff.1 hn))

theorem Node.Tidy.withLast {done : List (Entries Node)} (hn : Node.Tidy (.tables done es))
    (h : KeysOnce Node.Tidy es → KeysOnce Node.Tidy es') : Node.Tidy (.tables done es') := by
  obtain ⟨hlast, hdone⟩ := Node.Tidy.tables_iff.1 hn
  exact Node.Tidy.tables_iff.2 ⟨h hlast, hdone⟩

end

theorem assign?_tidy {isFirst isDotted : Bool} {path : List String} {v : Toml} (hv : v.Tidy) {es es' : Entries Node}
    (hes : KeysOnce Node.Tidy es) (h : assign? isFirst isDotted path v es = some es') : KeysOnce Node.Tidy es' := by
  induction path generalizing isFirst isDotted es es' with
  | nil => cases h
  | cons key rest ih =>
    cases rest with
    | nil =>
      rw [assign?] at h
      split at h
      · cases h
      · split at h
        · cases h
        · cases h
          exact hes.put (.value hv) key
    | cons next rest =>
      rw [assign?] at h
      · cases hkey : es.lookup key with
        | none =>
          simp only [hkey] at h
          obtain ⟨inner, hinner, rfl⟩ := Option.map_eq_some_iff.1 h
          exact hes.put (Node.Tidy.table_iff.2 (ih .nil hinner)) key
        | some n =>
          have hn := hes.of_lookup hkey
          cases n with
          | value v =>
            simp only [hkey] at h
            cases h
          | tables done last =>
            simp only [hkey] at h
            obtain ⟨inner, hinner, rfl⟩ := Option.map_eq_some_iff.1 h
            exact hes.put (hn.withLast fun hlast => ih hlast hinner) key
          | table making inner =>
            simp only [hkey] at h
            split at h
            · cases h
            · obtain ⟨inner', hinner, rfl⟩ := Option.map_eq_some_iff.1 h
              exact hes.put (hn.withTable fun htable => ih htable hinner) key
      · simp

/-- A change of the table at a path. -/
theorem within?_tidy {change : Entries Node → Option (Entries Node)}
    (hchange : ∀ {es es'}, KeysOnce Node.Tidy es → change es = some es' → KeysOnce Node.Tidy es') {path : List String}
    {es es' : Entries Node} (hes : KeysOnce Node.Tidy es) (h : within? change path es = some es') :
    KeysOnce Node.Tidy es' := by
  induction path generalizing es es' with
  | nil => exact hchange hes h
  | cons key rest ih =>
    rw [within?] at h
    cases hkey : es.lookup key with
    | none =>
      simp only [hkey] at h
      obtain ⟨inner, hinner, rfl⟩ := Option.map_eq_some_iff.1 h
      exact hes.put (Node.Tidy.table_iff.2 (ih .nil hinner)) key
    | some n =>
      have hn := hes.of_lookup hkey
      cases n with
      | value v =>
        simp only [hkey] at h
        cases h
      | tables done last =>
        simp only [hkey] at h
        obtain ⟨inner, hinner, rfl⟩ := Option.map_eq_some_iff.1 h
        exact hes.put (hn.withLast fun hlast => ih hlast hinner) key
      | table making inner =>
        simp only [hkey] at h
        obtain ⟨inner', hinner, rfl⟩ := Option.map_eq_some_iff.1 h
        exact hes.put (hn.withTable fun htable => ih htable hinner) key

section
variable {key : String} {es es' : Entries Node} (hes : KeysOnce Node.Tidy es)
include hes

theorem openTable?_tidy (h : openTable? key es = some es') : KeysOnce Node.Tidy es' := by
  rw [openTable?] at h
  split at h
  · cases h
    exact hes.put (Node.Tidy.table_iff.2 .nil) key
  · rename_i inner hkey
    cases h
    exact hes.put ((hes.of_lookup hkey).withTable fun htable => htable) key
  · cases h

theorem openElement?_tidy (h : openElement? key es = some es') : KeysOnce Node.Tidy es' := by
  rw [openElement?] at h
  split at h
  · cases h
    exact hes.put (Node.Tidy.tables_iff.2 ⟨.nil, by simp⟩) key
  · rename_i done last hkey
    cases h
    obtain ⟨hlast, hdone⟩ := Node.Tidy.tables_iff.1 (hes.of_lookup hkey)
    refine hes.put (Node.Tidy.tables_iff.2 ⟨.nil, fun x hx => ?_⟩) key
    rcases List.mem_append.1 hx with hx | hx
    · exact hdone x hx
    · exact List.mem_singleton.1 hx ▸ hlast
  · cases h

end

theorem ofPairs?_tidy {pairs : List (List String × Toml)} (hpairs : ∀ p ∈ pairs, p.2.Tidy) {v : Toml}
    (h : ofPairs? pairs = some v) : v.Tidy := by
  obtain ⟨es, hes, rfl⟩ := Option.map_eq_some_iff.1 h
  have htidy : KeysOnce Node.Tidy es :=
    foldlM_induction (fun _ p _ hp hst hstep => assign?_tidy (hpairs p hp) hst hstep) KeysOnce.nil hes
  exact htidy.finish.tidy

/-! ## Reading -/

section
variable {cs r : List Char} {v : Toml}

theorem isScalar_of_int64? {z : Int} (h : int64? z = some v) : v.isScalar = true := by
  rw [int64?] at h
  split at h
  · cases h
    rfl
  · cases h

theorem isScalar_of_float? {negative : Bool} {digits : List Char} {places : Nat} {exponent : Int}
    (h : float? negative digits places exponent = some v) : v.isScalar = true := by
  rw [float?] at h
  split at h
  · cases h
  · cases h
    rfl

theorem isScalar_of_based? {base : Nat} {isDigit : Char → Bool} (h : based? base isDigit cs = some (v, r)) :
    v.isScalar = true := by
  obtain ⟨ds, -, h⟩ := Option.bind_eq_some_iff.1 h
  obtain ⟨w, hw, h⟩ := Option.bind_eq_some_iff.1 h
  cases h
  exact isScalar_of_int64? hw

theorem isScalar_of_decimalNumber? {negative : Bool} (h : decimalNumber? negative cs = some (v, r)) :
    v.isScalar = true := by
  have hfloat {digits : List Char} {places : Nat} {exponent : Int} {x : List Char}
      (h : (do let v ← float? negative digits places exponent; some (v, x)) = some (v, r)) : v.isScalar = true := by
    obtain ⟨w, hw, h⟩ := Option.bind_eq_some_iff.1 h
    cases h
    exact isScalar_of_float? hw
  obtain ⟨⟨whole, r₁⟩, -, h⟩ := Option.bind_eq_some_iff.1 h
  dsimp only at h
  split at h
  · obtain ⟨⟨fraction, r₂⟩, -, h⟩ := Option.bind_eq_some_iff.1 h
    dsimp only at h
    split at h
    · obtain ⟨⟨e, r₃⟩, -, h⟩ := Option.bind_eq_some_iff.1 h
      exact hfloat h
    · obtain ⟨⟨e, r₃⟩, -, h⟩ := Option.bind_eq_some_iff.1 h
      exact hfloat h
    · exact hfloat h
  · obtain ⟨⟨e, r₂⟩, -, h⟩ := Option.bind_eq_some_iff.1 h
    exact hfloat h
  · obtain ⟨⟨e, r₂⟩, -, h⟩ := Option.bind_eq_some_iff.1 h
    exact hfloat h
  · obtain ⟨w, hw, h⟩ := Option.bind_eq_some_iff.1 h
    cases h
    exact isScalar_of_int64? hw

theorem isScalar_of_number? (h : number? cs = some (v, r)) : v.isScalar = true := by
  unfold number? at h
  split at h
  · exact isScalar_of_based? h
  · exact isScalar_of_based? h
  · exact isScalar_of_based? h
  · dsimp only at h
    split at h
    · cases h
      rfl
    · cases h
      rfl
    · exact isScalar_of_decimalNumber? h

theorem isScalar_of_date? (h : date? cs = some (v, r)) : v.isScalar = true := by
  rw [date?] at h
  split at h
  · obtain ⟨⟨day, r₁⟩, -, h⟩ := Option.bind_eq_some_iff.1 h
    dsimp only at h
    split at h
    · cases h
      rfl
    · obtain ⟨⟨clock, r₂⟩, -, h⟩ := Option.bind_eq_some_iff.1 h
      obtain ⟨⟨offset, r₃⟩, -, h⟩ := Option.bind_eq_some_iff.1 h
      cases h
      rfl
  · obtain ⟨⟨clock, r₁⟩, -, h⟩ := Option.bind_eq_some_iff.1 h
    cases h
    rfl

theorem isScalar_of_scalar? (h : scalar? cs = some (v, r)) : v.isScalar = true := by
  rw [scalar?] at h
  split at h
  · exact isScalar_of_date? h
  · exact isScalar_of_number? h

end

/-- Each of the three readers of values reads tidy ones. -/
structure ReadsTidy (steps : Nat) : Prop where
  value : ∀ {depth cs v r}, value? steps depth cs = some (v, r) → v.Tidy
  items : ∀ {depth cs vs r}, items? steps depth cs = some (vs, r) → ∀ v ∈ vs, v.Tidy
  pairs : ∀ {depth cs ps r}, pairs? steps depth cs = some (ps, r) → ∀ p ∈ ps, p.2.Tidy

section
variable {steps : Nat} (ih : ReadsTidy steps) {depth : Nat} {cs r : List Char}
include ih

theorem value?_tidy {v : Toml} (h : value? (steps + 1) depth cs = some (v, r)) : v.Tidy := by
  unfold value? at h
  split at h
  · cases h
  · obtain ⟨t, -, ht⟩ := Option.map_eq_some_iff.1 h
    cases ht
    exact .scalar rfl
  · obtain ⟨t, -, ht⟩ := Option.map_eq_some_iff.1 h
    cases ht
    exact .scalar rfl
  · split at h
    · obtain ⟨t, ht, heq⟩ := Option.map_eq_some_iff.1 h
      cases heq
      exact .array (ih.items ht)
    · cases h
  · split at h
    · dsimp only at h
      split at h
      · obtain ⟨⟨pairs, r₁⟩, hpairs, h⟩ := Option.bind_eq_some_iff.1 h
        obtain ⟨t, ht, h⟩ := Option.bind_eq_some_iff.1 h
        cases hpairs
        cases h
        exact ofPairs?_tidy (fun p hp => by cases hp) ht
      · obtain ⟨⟨pairs, r₁⟩, hpairs, h⟩ := Option.bind_eq_some_iff.1 h
        obtain ⟨t, ht, h⟩ := Option.bind_eq_some_iff.1 h
        cases h
        exact ofPairs?_tidy (ih.pairs hpairs) ht
    · cases h
  · cases h
    exact .scalar rfl
  · cases h
    exact .scalar rfl
  · exact .scalar (isScalar_of_scalar? h)

theorem items?_tidy {vs : List Toml} (h : items? (steps + 1) depth cs = some (vs, r)) : ∀ v ∈ vs, v.Tidy := by
  unfold items? at h
  split at h
  · cases h
    exact fun v hv => by cases hv
  · obtain ⟨⟨v, r₁⟩, hv, h⟩ := Option.bind_eq_some_iff.1 h
    dsimp only at h
    split at h
    · cases h
      exact List.forall_mem_singleton.2 (ih.value hv)
    · obtain ⟨t, ht, heq⟩ := Option.map_eq_some_iff.1 h
      cases heq
      exact List.forall_mem_cons.2 ⟨ih.value hv, ih.items ht⟩
    · cases h

theorem pairs?_tidy {ps : List (List String × Toml)} (h : pairs? (steps + 1) depth cs = some (ps, r)) :
    ∀ p ∈ ps, p.2.Tidy := by
  obtain ⟨⟨k, r₁⟩, -, h⟩ := Option.bind_eq_some_iff.1 h
  obtain ⟨r₂, -, h⟩ := Option.bind_eq_some_iff.1 h
  obtain ⟨⟨v, r₃⟩, hv, h⟩ := Option.bind_eq_some_iff.1 h
  dsimp only at h
  split at h
  · cases h
    exact List.forall_mem_singleton.2 (ih.value hv)
  · obtain ⟨t, ht, heq⟩ := Option.map_eq_some_iff.1 h
    cases heq
    exact List.forall_mem_cons.2 ⟨ih.value hv, ih.pairs ht⟩
  · cases h

end

theorem readsTidy (steps : Nat) : ReadsTidy steps := by
  induction steps with
  | zero => exact ⟨fun h => (by cases h), fun h => (by cases h), fun h => (by cases h)⟩
  | succ steps ih => exact ⟨value?_tidy ih, items?_tidy ih, pairs?_tidy ih⟩

/-! ## Documents -/

/-- The value of an entry is tidy. -/
def Statement.Tidy : Statement → Prop
  | .entry _ v => v.Tidy
  | _ => True

theorem statement?_tidy {cs r : List Char} {s : Statement} (h : statement? cs = some (s, r)) : s.Tidy := by
  unfold statement? at h
  split at h
  · obtain ⟨⟨k, r₁⟩, -, h⟩ := Option.bind_eq_some_iff.1 h
    obtain ⟨r₂, -, h⟩ := Option.bind_eq_some_iff.1 h
    obtain ⟨r₃, -, h⟩ := Option.bind_eq_some_iff.1 h
    cases h
    trivial
  · obtain ⟨⟨k, r₁⟩, -, h⟩ := Option.bind_eq_some_iff.1 h
    obtain ⟨r₂, -, h⟩ := Option.bind_eq_some_iff.1 h
    cases h
    trivial
  · obtain ⟨⟨k, r₁⟩, -, h⟩ := Option.bind_eq_some_iff.1 h
    obtain ⟨r₂, -, h⟩ := Option.bind_eq_some_iff.1 h
    obtain ⟨⟨v, r₃⟩, hv, h⟩ := Option.bind_eq_some_iff.1 h
    cases h
    exact (readsTidy _).value hv

theorem statements?_tidy {n : Nat} {cs : List Char} {ss : List Statement} (h : statements? n cs = some ss) :
    ∀ s ∈ ss, s.Tidy := by
  induction n generalizing cs ss with
  | zero => cases h
  | succ n ih =>
    unfold statements? at h
    split at h
    · cases h
      exact fun s hs => by cases hs
    · obtain ⟨⟨s, r₁⟩, hs, h⟩ := Option.bind_eq_some_iff.1 h
      obtain ⟨r₂, -, h⟩ := Option.bind_eq_some_iff.1 h
      obtain ⟨rest, hrest, rfl⟩ := Option.map_eq_some_iff.1 h
      exact List.forall_mem_cons.2 ⟨statement?_tidy hs, ih hrest⟩

theorem Draft.add?_tidy {d d' : Draft} {s : Statement} (hs : s.Tidy) (hd : KeysOnce Node.Tidy d.entries)
    (h : d.add? s = some d') : KeysOnce Node.Tidy d'.entries := by
  cases s with
  | header path =>
    obtain ⟨es, hes, h⟩ := Option.bind_eq_some_iff.1 h
    cases h
    exact within?_tidy openTable?_tidy hd hes
  | element path =>
    obtain ⟨es, hes, h⟩ := Option.bind_eq_some_iff.1 h
    cases h
    exact within?_tidy openElement?_tidy hd hes
  | entry key v =>
    obtain ⟨es, hes, h⟩ := Option.bind_eq_some_iff.1 h
    cases h
    exact within?_tidy (assign?_tidy hs) hd hes

/-- In every table of a document that was read, at any depth, each key stands once. -/
theorem parse?_tidy {t : String} {es : Entries Toml} (h : parse? t = some es) : KeysOnce Tidy es := by
  obtain ⟨ss, hss, h⟩ := Option.bind_eq_some_iff.1 h
  obtain ⟨d, hd, rfl⟩ := Option.map_eq_some_iff.1 h
  have htidy : KeysOnce Node.Tidy d.entries :=
    foldlM_induction (fun d s _ hs hd hstep => Draft.add?_tidy (statements?_tidy hss s hs) hd hstep) KeysOnce.nil hd
  exact htidy.finish

end Dashboard.Toml
