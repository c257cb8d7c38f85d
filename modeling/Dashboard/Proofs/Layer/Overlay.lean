import Dashboard.Layer.Document
import Dashboard.Layer.Path
import Mathlib

/-! # A layer over what is there

A table is merged name by name, so what stands at a name afterwards depends on what stood there and on what the layer says
about that name.

* `merge_table`, `merge_absent`: a table over a table, and over nothing.
* `lookup_mergeEntries`: what stands at a name after tables were merged.
* `lowered`, `IsPlain`: names in any case, and names with one part.
* `entryAt`, `namedAt`, `HasTable`: what stands in the table at a name.
* `overlay_pairs`: a layer whose names have two parts each.
* `overlay_tables`, `entryAt_mergeEntries`: a layer of tables.
-/

namespace Dashboard.Layer
set_option autoImplicit false

/-! ## Merging tables -/

theorem merge_leaf (old : Option Tree) (o : Option String) (v : Scalar) : merge old (.leaf o v) = .leaf o v := rfl

theorem merge_table (o p : Option String) (old new : Entries Tree) :
    merge (some (.table o old)) (.table p new) = .table o (mergeEntries old new) := by
  cases new with
  | nil => rw [merge, mergeEntries, Option.getD_some]
  | cons e new => rw [merge, asTable]

theorem merge_absent (p : Option String) (new : Entries Tree) :
    merge none (.table p new) = .table none (mergeEntries [] new) := by
  cases new with
  | nil => rw [merge, mergeEntries, Option.getD_none]
  | cons e new => rfl

/-- A new value is put over what stood at its name; where nothing is new, the old value stays. -/
theorem lookup_mergeEntries {new : Entries Tree} (hlower : ∀ e ∈ new, lowerName e.1 = e.1)
    (hnodup : (new.map Prod.fst).Nodup) (old : Entries Tree) (name : String) :
    (mergeEntries old new).lookup name =
      (new.lookup name).elim (old.lookup name) fun t => some (merge (old.lookup name) t) := by
  induction new generalizing old with
  | nil => rfl
  | cons e new ih =>
    obtain ⟨n, t⟩ := e
    have hn : lowerName n = n := hlower (n, t) List.mem_cons_self
    rw [List.map_cons, List.nodup_cons] at hnodup
    rw [mergeEntries, hn, ih (fun e he => hlower e (List.mem_cons_of_mem _ he)) hnodup.2]
    by_cases h : name = n
    · subst h
      rw [Entries.lookup_eq_none_iff.2 hnodup.1, Option.elim_none, Entries.lookup_put_self, List.lookup_cons_self,
        Option.elim_some]
    · have hother : ((n, t) :: new).lookup name = new.lookup name := by
        rw [List.lookup_cons, beq_eq_false_iff_ne.2 h]
      rw [Entries.lookup_put_of_ne h, hother]

/-! ## Names in any case -/

theorem lowerName_lowerName (name : String) : lowerName (lowerName name) = lowerName name := by
  simp [lowerName, Function.comp_def, Char.toLower_toLower_eq_toLower]

/-- Entries under their names in lower case. -/
def lowered {α : Type} (es : Entries α) : Entries α := es.map fun e => (lowerName e.1, e.2)

theorem mergeEntries_lowered (old new : Entries Tree) : mergeEntries old (lowered new) = mergeEntries old new := by
  induction new generalizing old with
  | nil => rfl
  | cons e new ih =>
    obtain ⟨n, t⟩ := e
    show mergeEntries old ((lowerName n, t) :: lowered new) = mergeEntries old ((n, t) :: new)
    rw [mergeEntries, mergeEntries, lowerName_lowerName, ih]

theorem lookup_mergeEntries_lowered {new : Entries Tree} (hnodup : ((lowered new).map Prod.fst).Nodup)
    (old : Entries Tree) (name : String) :
    (mergeEntries old new).lookup name =
      ((lowered new).lookup name).elim (old.lookup name) fun t => some (merge (old.lookup name) t) := by
  have hlower : ∀ e ∈ lowered new, lowerName e.1 = e.1 := by
    intro e he
    obtain ⟨x, -, rfl⟩ := List.mem_map.1 he
    exact lowerName_lowerName x.1
  rw [← mergeEntries_lowered, lookup_mergeEntries hlower hnodup]

/-- The characters of a name with one part. -/
def IsPlain (name : String) : Prop := ∀ c ∈ name.toList, isNameChar c = true

instance (name : String) : Decidable (IsPlain name) := List.decidableBAll _ _

theorem IsPlain.stepsOf_eq {name : String} (h : IsPlain name) : stepsOf name = [.child (lowerName name)] := by
  have htake : name.toList.takeWhile isNameChar = name.toList := List.takeWhile_eq_self_iff.2 h
  have hdrop : name.toList.dropWhile isNameChar = [] := List.dropWhile_eq_nil_iff.2 h
  rw [stepsOf, steps?, name?, htake, hdrop]
  cases hname : name.toList with
  | nil => rfl
  | cons c cs =>
    show [Step.child (lowerName (String.ofList (c :: cs)))] = [.child (lowerName name)]
    rw [← hname, String.ofList_toList]

/-! ## Tables in tables -/

/-- What stands at a name, in the table at another name. -/
def entryAt (a b : String) (es : Entries Tree) : Option Tree := (asTable (es.lookup a)).2.lookup b

/-- The same for names in any case. -/
def namedAt (a b : String) (es : Entries Tree) : Option Tree := (lowered (asTable ((lowered es).lookup a)).2).lookup b

/-- What stands at the name is a table. -/
def HasTable (name : String) (es : Entries Tree) : Prop :=
  ∀ t, es.lookup name = some t → ∃ o inner, t = .table o inner

theorem HasTable.put {name : String} {es : Entries Tree} (h : HasTable name es) (a : String) (o : Option String)
    (inner : Entries Tree) : HasTable name (Entries.put a (.table o inner) es) := by
  intro t ht
  by_cases hname : name = a
  · subst hname
    rw [Entries.lookup_put_self, Option.some.injEq] at ht
    exact ⟨o, inner, ht.symm⟩
  · rw [Entries.lookup_put_of_ne hname] at ht
    exact h t ht

section
variable (a b : String) (t : Tree) (es : Entries Tree)

/-- The entries with a value put at a name, in the table at another name. -/
def putAt : Entries Tree :=
  Entries.put a (.table (asTable (es.lookup a)).1 (Entries.put b t (asTable (es.lookup a)).2)) es

theorem entryAt_putAt_self : entryAt a b (putAt a b t es) = some t := by
  rw [entryAt, putAt, Entries.lookup_put_self, asTable, Entries.lookup_put_self]

theorem entryAt_putAt_of_ne {c d : String} (h : c ≠ a ∨ d ≠ b) : entryAt c d (putAt a b t es) = entryAt c d es := by
  rw [entryAt, entryAt, putAt]
  by_cases hc : c = a
  · subst hc
    have hd : d ≠ b := h.resolve_left fun hne => hne rfl
    rw [Entries.lookup_put_self, asTable, Entries.lookup_put_of_ne hd]
  · rw [Entries.lookup_put_of_ne hc]

end

/-- Single values under names of two parts are put into tables, each at its place. -/
theorem overlay_pairs {layer : Entries Tree}
    (hpairs : ∀ e ∈ layer, (∃ a b, stepsOf e.1 = [.child a, .child b]) ∧ ∃ p v, e.2 = .leaf p v)
    (hnodup : (layer.map Prod.fst).Nodup) (o : Option String) (es : Entries Tree) :
    ∃ es', overlay (.table o es) layer = .table o es' ∧ (∀ name, HasTable name es → HasTable name es') ∧
      ∀ name a b, stepsOf name = [.child a, .child b] →
        (∀ e ∈ layer, stepsOf e.1 = stepsOf name → e.1 = name) →
        entryAt a b es' = (layer.lookup name).or (entryAt a b es) := by
  induction layer generalizing es with
  | nil => exact ⟨es, rfl, fun _ h => h, fun _ _ _ _ _ => rfl⟩
  | cons e layer ih =>
    obtain ⟨n, t⟩ := e
    obtain ⟨⟨c, d, hsteps⟩, p, v, hleaf⟩ := hpairs (n, t) List.mem_cons_self
    rw [List.map_cons, List.nodup_cons] at hnodup
    obtain ⟨es', hrest, htables, hentries⟩ :=
      ih (fun e he => hpairs e (List.mem_cons_of_mem _ he)) hnodup.2 (putAt c d t es)
    have hplace : place t (stepsOf n) (some (.table o es)) = .table o (putAt c d t es) := by
      rw [hsteps, show t = .leaf p v from hleaf]
      rfl
    refine ⟨es', ?_, fun name h => htables name (h.put c _ _), ?_⟩
    · rw [overlay] at hrest ⊢
      rw [List.foldl_cons, hplace, hrest]
    · intro name a b hname hinj
      rw [hentries name a b hname fun e he => hinj e (List.mem_cons_of_mem _ he), List.lookup_cons]
      by_cases hn : n = name
      · subst hn
        rw [hname] at hsteps
        cases hsteps
        rw [Entries.lookup_eq_none_iff.2 hnodup.1, beq_self_eq_true, entryAt_putAt_self]
        rfl
      · have hne : a ≠ c ∨ b ≠ d := by
          rw [← not_and_or]
          rintro ⟨rfl, rfl⟩
          exact hn (hinj (n, t) List.mem_cons_self (hsteps.trans hname.symm))
        rw [beq_eq_false_iff_ne.2 (Ne.symm hn), entryAt_putAt_of_ne c d t es hne]

/-- Tables under plain names are merged into tables, entry by entry. -/
theorem overlay_tables {layer : Entries Tree} (hplain : ∀ e ∈ layer, IsPlain e.1) (o : Option String)
    (es : Entries Tree) : overlay (.table o es) layer = .table o (mergeEntries es layer) := by
  induction layer generalizing es with
  | nil => rfl
  | cons e layer ih =>
    obtain ⟨n, t⟩ := e
    have hsteps : stepsOf n = [.child (lowerName n)] := (hplain (n, t) List.mem_cons_self).stepsOf_eq
    have hplace : place t (stepsOf n) (some (.table o es)) =
        .table o (Entries.put (lowerName n) (merge (es.lookup (lowerName n)) t) es) := by
      rw [hsteps, place, place, asTable]
    have hrest := ih (fun e he => hplain e (List.mem_cons_of_mem _ he))
      (Entries.put (lowerName n) (merge (es.lookup (lowerName n)) t) es)
    rw [overlay] at hrest ⊢
    rw [List.foldl_cons, hplace, hrest, mergeEntries]

section
variable {a : String} {es layer : Entries Tree} (hnodup : ((lowered layer).map Prod.fst).Nodup)
include hnodup

theorem lookup_mergeEntries_of_none (h : (lowered layer).lookup a = none) :
    (mergeEntries es layer).lookup a = es.lookup a := by
  rw [lookup_mergeEntries_lowered hnodup, h, Option.elim_none]

/-- A table merged over a table, or over nothing, is a table with the entries of both. -/
theorem lookup_mergeEntries_of_table (hes : HasTable a es) {p : Option String} {new : Entries Tree}
    (h : (lowered layer).lookup a = some (.table p new)) :
    ∃ q, (mergeEntries es layer).lookup a = some (.table q (mergeEntries (asTable (es.lookup a)).2 new)) := by
  rw [lookup_mergeEntries_lowered hnodup, h, Option.elim_some]
  cases hold : es.lookup a with
  | none => exact ⟨none, congrArg some (merge_absent p new)⟩
  | some t =>
    obtain ⟨o, old, rfl⟩ := hes t hold
    exact ⟨o, congrArg some (merge_table o p old new)⟩

variable (hes : HasTable a es) (hlayer : HasTable a (lowered layer))
include hes hlayer

theorem hasTable_mergeEntries : HasTable a (mergeEntries es layer) := by
  intro t ht
  cases hnew : (lowered layer).lookup a with
  | none =>
    rw [lookup_mergeEntries_of_none hnodup hnew] at ht
    exact hes t ht
  | some s =>
    obtain ⟨p, new, rfl⟩ := hlayer s hnew
    obtain ⟨q, hmerged⟩ := lookup_mergeEntries_of_table hnodup hes hnew
    rw [hmerged, Option.some.injEq] at ht
    exact ⟨q, _, ht.symm⟩

/-- A single value of a table takes the place of what was there. -/
theorem entryAt_mergeEntries
    (hinner : ((lowered (asTable ((lowered layer).lookup a)).2).map Prod.fst).Nodup) {b : String}
    (hleaf : ∀ t, namedAt a b layer = some t → ∃ p v, t = .leaf p v) :
    entryAt a b (mergeEntries es layer) = (namedAt a b layer).or (entryAt a b es) := by
  cases hnew : (lowered layer).lookup a with
  | none =>
    rw [entryAt, lookup_mergeEntries_of_none hnodup hnew, namedAt, hnew]
    rfl
  | some s =>
    obtain ⟨p, new, rfl⟩ := hlayer s hnew
    obtain ⟨q, hmerged⟩ := lookup_mergeEntries_of_table hnodup hes hnew
    have hnamed : namedAt a b layer = (lowered new).lookup b := by rw [namedAt, hnew, asTable]
    rw [hnew, asTable] at hinner
    rw [entryAt, hmerged, asTable, lookup_mergeEntries_lowered hinner, hnamed]
    rw [hnamed] at hleaf
    cases hvalue : (lowered new).lookup b with
    | none => rfl
    | some t =>
      obtain ⟨r, v, rfl⟩ := hleaf t hvalue
      rw [Option.elim_some, merge_leaf, Option.some_or]

end

/-! ## The layer of a document -/

theorem entriesOfToml_eq_map (place : String) (es : Entries Toml) :
    entriesOfToml place es = es.map fun e => (e.1, ofToml place e.2) := by
  induction es with
  | nil => rfl
  | cons e es ih => rw [entriesOfToml, ih, List.map_cons]

end Dashboard.Layer
