import Dashboard.Config.Basic
import Dashboard.Proofs.Text.Strip
import Mathlib.Data.List.Basic

/-! # One slash between a base and a path

A base and a path are joined without the slashes at which they meet, and with one slash in their place.

* `Endpoint.slashes`: a run of slashes.
* `Endpoint.exists_seam`: the part of the base, and the part of the path, that stand at the one slash.
* `Endpoint.join_slashes`: further slashes at the seam do not count.
* `Endpoint.join_of_valid`: what this says of a configuration that was found valid.
-/

namespace Dashboard.Endpoint
set_option autoImplicit false

def slashes (n : Nat) : String := String.ofList (List.replicate n '/')

theorem toList_slashes (n : Nat) : (slashes n).toList = List.replicate n '/' := String.toList_ofList

theorem isSlash_of_mem {n : Nat} : ∀ c ∈ (slashes n).toList, (c == '/') = true := by
  intro c hc
  rw [toList_slashes] at hc
  rw [List.eq_of_mem_replicate hc]
  rfl

theorem eq_slashes {w : List Char} (h : ∀ c ∈ w, (c == '/') = true) : String.ofList w = slashes w.length := by
  rw [slashes, ← List.eq_replicate_of_mem fun c hc => beq_iff_eq.1 (h c hc)]

/-! ## The seam -/

variable (base path : String)

theorem exists_base : ∃ b m, base = b ++ slashes m ∧ b.toList.getLast? ≠ some '/' ∧
    Text.stripEnd (· == '/') base.toList = b.toList := by
  obtain ⟨w, hw, hbase⟩ := Text.exists_stripEnd (· == '/') base.toList
  refine ⟨String.ofList (Text.stripEnd (· == '/') base.toList), w.length, ?_, ?_, String.toList_ofList.symm⟩
  · rw [← eq_slashes hw, ← String.ofList_append, ← hbase, String.ofList_toList]
  · rw [String.toList_ofList]
    intro hlast
    cases Text.getLast?_stripEnd (· == '/') base.toList '/' hlast

theorem exists_path : ∃ q n, path = slashes n ++ q ∧ q.toList.head? ≠ some '/' ∧
    Text.stripStart (· == '/') path.toList = q.toList := by
  obtain ⟨w, hw, hpath⟩ := Text.exists_stripStart (· == '/') path.toList
  refine ⟨String.ofList (Text.stripStart (· == '/') path.toList), w.length, ?_, ?_, String.toList_ofList.symm⟩
  · rw [← eq_slashes hw, ← String.ofList_append, ← hpath, String.ofList_toList]
  · rw [String.toList_ofList]
    intro hhead
    cases Text.head?_stripStart (· == '/') path.toList '/' hhead

/-- What is left of the base, one slash, and what is left of the path. Only slashes were removed, and none is left beside
the seam. -/
theorem exists_seam : ∃ b q m n, base = b ++ slashes m ∧ path = slashes n ++ q ∧
    b.toList.getLast? ≠ some '/' ∧ q.toList.head? ≠ some '/' ∧ join base path = b ++ "/" ++ q := by
  obtain ⟨b, m, hbase, hlast, hend⟩ := exists_base base
  obtain ⟨q, n, hpath, hhead, hstart⟩ := exists_path path
  refine ⟨b, q, m, n, hbase, hpath, hlast, hhead, ?_⟩
  rw [← String.toList_inj, join, hend, hstart, String.toList_ofList, String.append_assoc, String.toList_append,
    String.toList_append]
  rfl

theorem join_slashes (m n : Nat) : join (base ++ slashes m) (slashes n ++ path) = join base path := by
  rw [join, String.toList_append, String.toList_append, Text.stripEnd_append isSlash_of_mem,
    Text.stripStart_append isSlash_of_mem, join]

/-! ## Valid configurations -/

/-- **Joining in a valid configuration.** What is left of the base does not end in a slash, what is left of the path does not
begin with one, and exactly one slash stands between them; further slashes at the seam do not count. A valid base has more
than blanks, so something is left of it, unless it has nothing but slashes. -/
theorem join_of_valid (c : Config) (hc : c.validate = .ok ()) (path : String) :
    (∃ b q m n, c.server.baseUrl = b ++ slashes m ∧ path = slashes n ++ q ∧
      b.toList.getLast? ≠ some '/' ∧ q.toList.head? ≠ some '/' ∧
      join c.server.baseUrl path = b ++ "/" ++ q ∧ (b = "" ↔ ∃ k, c.server.baseUrl = slashes (k + 1))) ∧
    ∀ m n, join (c.server.baseUrl ++ slashes m) (slashes n ++ path) = join c.server.baseUrl path := by
  obtain ⟨hblank, -⟩ := Config.validate_eq_ok_iff.1 hc
  obtain ⟨b, q, m, n, hbase, hpath, hlast, hhead, hjoin⟩ := exists_seam c.server.baseUrl path
  refine ⟨⟨b, q, m, n, hbase, hpath, hlast, hhead, hjoin, ?_, ?_⟩, join_slashes c.server.baseUrl path⟩
  · rintro rfl
    cases m with
    | zero =>
      rw [hbase] at hblank
      exact absurd rfl hblank
    | succ k => exact ⟨k, hbase.trans String.empty_append⟩
  · rintro ⟨k, hk⟩
    -- The last character of what is left would be one of the slashes.
    by_contra hne
    have hmem : b.toList ≠ [] := fun h => hne (String.toList_eq_nil_iff.1 h)
    have hslash : b.toList.getLast hmem ∈ (slashes (k + 1)).toList := by
      rw [← hk, hbase, String.toList_append]
      exact List.mem_append_left _ (List.getLast_mem hmem)
    refine hlast ?_
    rw [List.getLast?_eq_some_getLast hmem, beq_iff_eq.1 (isSlash_of_mem _ hslash)]

/-- Two further slashes at the end of a base that has one, and a second one before the path. -/
theorem join_of_valid_padded :
    let c : Config := { server := { baseUrl := "http://127.0.0.1:8080/" } }
    c.validate = .ok () ∧ join (c.server.baseUrl ++ slashes 2) (slashes 1 ++ "/run-status") =
      "http://127.0.0.1:8080/run-status" := by
  intro c
  have hvalid : c.validate = .ok () := by decide
  exact ⟨hvalid, ((join_of_valid c hvalid "/run-status").2 2 1).trans (by decide)⟩

/-- A base of one slash is valid, and nothing is left of it: what is joined begins with the slash at the seam. -/
theorem join_of_slash :
    let c : Config := { server := { baseUrl := "/" } }
    c.validate = .ok () ∧ join c.server.baseUrl c.server.healthPath = "/server-status" ∧
      ¬∃ b q : String, b ≠ "" ∧ b.toList.getLast? ≠ some '/' ∧ q.toList.head? ≠ some '/' ∧
        join c.server.baseUrl c.server.healthPath = b ++ "/" ++ q := by
  intro c
  have hjoin : join c.server.baseUrl c.server.healthPath = "/server-status" := by decide
  refine ⟨by decide, hjoin, ?_⟩
  rintro ⟨b, q, hne, -, -, hseam⟩
  rw [hjoin, ← String.toList_inj, String.append_assoc, String.toList_append, String.toList_append] at hseam
  cases hb : b.toList with
  | nil => exact hne (String.toList_eq_nil_iff.1 hb)
  | cons x xs =>
    rw [hb, List.cons_append] at hseam
    have hrest : "server-status".toList = xs ++ ("/".toList ++ q.toList) := (List.cons.inj hseam).2
    have hslash : '/' ∈ "server-status".toList := by
      rw [hrest]
      exact List.mem_append_right _ (List.mem_append_left _ (List.mem_singleton.2 rfl))
    exact absurd hslash (by decide)

end Dashboard.Endpoint
