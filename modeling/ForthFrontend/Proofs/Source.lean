import ForthFrontend.Include.Resolve

/-!
# Where atoms come from

Scanning keeps the atoms found so far in front of those of the lines to come, and every atom carries
the path that the file was opened under.

## Main results

* `Scan.file_of_mem_tokens`: atoms of a line carry the file of their place.
* `Include.Setting.file_of_mem_compose`: atoms of a file carry its path.
-/

namespace ForthFrontend

/-- Every atom of a line is one that was found before, or carries the file of the place. -/
theorem Scan.file_of_mem_tokens {place : Scan.Place} {ts : List Token} {found : List Atom}
    {inComment : Bool} {atoms : List Atom}
    (h : (Scan.tokens place found inComment ts).result = .ok atoms)
    (hfound : ∀ a ∈ found, a.file = place.file) : ∀ a ∈ atoms, a.file = place.file := by
  induction ts generalizing found inComment with
  | nil =>
    obtain rfl := Except.ok.inj h
    simpa using hfound
  | cons t ts ih =>
    unfold Scan.tokens at h
    split at h
    · obtain rfl := Except.ok.inj h
      simpa using hfound
    · exact ih h hfound
    · exact ih h hfound
    · split at h
      · exact ih h hfound
      · split at h
        · cases h
        · exact ih h (List.forall_mem_cons.2 ⟨rfl, hfound⟩)

namespace Source

/-- Every atom of some lines is one that was found before, or carries the path of the file. -/
theorem file_of_mem_scanLines {strict : Bool} {path : Path} {lines : List Bytes} {number : Nat}
    {inComment : Bool} {found atoms : List Atom}
    (h : scanLines strict path number inComment found lines = .ok atoms)
    (hfound : ∀ a ∈ found, a.file = path) : ∀ a ∈ atoms, a.file = path := by
  induction lines generalizing number inComment found with
  | nil =>
    obtain rfl := Except.ok.inj h
    simpa using hfound
  | cons text rest ih =>
    unfold scanLines at h
    split at h
    · cases h
    · simp only at h
      split at h
      · cases h
      · next lineAtoms hline =>
        refine ih h fun a ha => ?_
        rw [List.reverseAux_eq, List.mem_append, List.mem_reverse] at ha
        rcases ha with ha | ha
        · exact Scan.file_of_mem_tokens hline (by simp) a ha
        · exact hfound a ha

end Source

/-- The atoms of a file carry the path it was composed from. -/
theorem Include.Setting.file_of_mem_compose {s : Include.Setting} {path : Path}
    {atoms : List Atom} (h : s.compose path = .ok atoms) : ∀ a ∈ atoms, a.file = path := by
  unfold Include.Setting.compose Source.compose at h
  split at h
  · cases h
  · split at h
    · cases h
    · exact Source.file_of_mem_scanLines h (by simp)

end ForthFrontend
