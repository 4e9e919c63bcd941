import Bindery.Proofs.Source
import Bindery.Proofs.Tree.Place

/-!
# File names and their extensions

Adding an extension to a stem does not change the stem (`stemOf_append`), and a file name is its
stem with or without an extension (`stemOf_cases`).  So putting an extension of several parts in
the place of another always makes another name (`stemOf_append_ne`).  The path with that name
leads to the same directory (`location_withExtension`).
-/

namespace Bindery

namespace Path

/-! ### Stems -/

/-- What stands in front of the last full stop is the stem, unless nothing stands there. -/
private theorem stemOf_of_split {name : String} {before after : List Char}
    (hname : name.toList = before ++ '.' :: after) (hafter : '.' ∉ after) :
  stemOf name = if before = [] then name else String.ofList before
  := by
  have hall : ∀ c ∈ after.reverse, (c != '.') = true := by
    intro c hc
    rw [bne_iff_ne]
    rintro rfl
    exact hafter (List.mem_reverse.mp hc)
  have hreverse : name.toList.reverse = after.reverse ++ '.' :: before.reverse := by
    rw [hname, List.reverse_append, List.reverse_cons, List.append_assoc,
      List.singleton_append]
  have hbefore : (name.toList.reverse.dropWhile (· != '.')).drop 1 = before.reverse := by
    rw [hreverse, List.dropWhile_append_of_pos hall]
    rfl
  rw [stemOf, hbefore]
  cases before <;> simp

/-- Adding an extension does not change the stem. -/
theorem stemOf_append {stem extension : String} (hstem : stem.toList ≠ [])
    (h : '.' ∉ extension.toList) :
  stemOf (stem ++ "." ++ extension) = stem
  := by
  have htext : (stem ++ "." ++ extension).toList = stem.toList ++ '.' :: extension.toList := by
    simp [String.toList_append]
  rw [stemOf_of_split htext h, if_neg hstem, String.ofList_toList]

/-- A name is its stem, perhaps with an extension. -/
theorem stemOf_cases (name : String) :
  stemOf name = name
    ∨ ∃ extension, '.' ∉ extension ∧ name.toList = (stemOf name).toList ++ '.' :: extension
  := by
  by_cases hdot : '.' ∈ name.toList
  · obtain ⟨after, before, hname, hafter⟩ :=
      List.eq_append_cons_of_mem (List.mem_reverse.mpr hdot)
    have hsplit : name.toList = before.reverse ++ '.' :: after.reverse := by
      rw [← List.reverse_reverse name.toList, hname, List.reverse_append, List.reverse_cons,
        List.append_assoc, List.singleton_append]
    have hstem := stemOf_of_split hsplit (mt List.mem_reverse.mp hafter)
    split at hstem
    · exact Or.inl hstem
    · right
      refine ⟨after.reverse, mt List.mem_reverse.mp hafter, ?_⟩
      rw [hstem, String.toList_ofList, hsplit]
  · left
    have hall : ∀ c ∈ name.toList.reverse, (c != '.') = true := by
      intro c hc
      rw [bne_iff_ne]
      rintro rfl
      exact hdot (List.mem_reverse.mp hc)
    have hnone : name.toList.reverse.dropWhile (· != '.') = [] :=
      List.dropWhile_eq_nil_iff.mpr hall
    rw [stemOf, hnone]
    rfl

/-- A stem with an extension of several parts is never the name that the stem was taken from. -/
theorem stemOf_append_ne (name : String) {extension : String} (h : '.' ∈ extension.toList) :
  stemOf name ++ "." ++ extension ≠ name
  := by
  intro heq
  have htext : (stemOf name).toList ++ '.' :: extension.toList = name.toList := by
    rw [← congrArg String.toList heq]
    simp [String.toList_append]
  rcases stemOf_cases name with hsame | ⟨other, hother, hname⟩
  · have hlength := congrArg List.length htext
    rw [hsame, List.length_append, List.length_cons] at hlength
    omega
  · rw [hname] at htext
    have hextension := List.append_cancel_left htext
    injection hextension with _ hextension
    rw [hextension] at h
    exact hother h

/-! ### Places -/

/-- A dot is a step that leads nowhere. -/
private theorem foldl_after_filter (l : Location) (segments : List String) :
  (segments.filter (· != ".")).foldl Location.after l = segments.foldl Location.after l
  := by
  induction segments generalizing l with
  | nil => rfl
  | cons segment segments ih =>
    by_cases hdot : segment = "."
    · subst hdot
      exact ih l
    · have hkept : (segment != ".") = true := bne_iff_ne.mpr hdot
      rw [List.filter_cons, if_pos hkept]
      exact ih (l.after segment)

/-- The parts of a path lead to its place. -/
theorem location_eq_parts (base : Location) (p : Path) :
  (p.place base).location
    = p.parts.foldl Location.after (if p.isAbsolute then [] else base)
  := by
  rw [place]
  rcases p.parts_cases with hparts | ⟨rest, hsegments, hparts⟩
  · rw [hparts, foldl_after_filter]
  · rw [hparts, hsegments, List.foldl_cons, List.foldl_cons, foldl_after_filter]

variable {p : Path} {name : String}

/-- The directory that a path leads through at last. -/
def lastStop (base : Location) (p : Path) : Location :=
  p.parts.dropLast.foldl Location.after (if p.isAbsolute then [] else base)

/-- A path with a file name leads to that name in a directory. -/
theorem location_of_fileName? (base : Location) (h : p.fileName? = some name) :
  (p.place base).location = p.lastStop base ++ [name]
  := by
  obtain ⟨hname, hparts⟩ := parts_of_fileName? h
  rw [location_eq_parts, hparts, List.foldl_append, lastStop]
  simp [Location.after, hname.notDot, hname.notDots]

/-- A path without a file name stays as it is. -/
theorem withExtension_of_no_fileName (h : p.fileName? = none) (extension : String) :
  p.withExtension extension = p
  := by
  rw [withExtension, fileStem?, h]
  rfl

/-- A stem with an extension of two characters or more is a name. -/
theorem IsName.withExtension (h : IsName name) {extension : String}
    (hslash : '/' ∉ extension.toList) (hlong : 2 ≤ extension.toList.length) :
  IsName (stemOf name ++ "." ++ extension)
  := by
  have htext : (stemOf name ++ "." ++ extension).toList
      = (stemOf name).toList ++ '.' :: extension.toList := by simp [String.toList_append]
  have hlength : 3 ≤ (stemOf name ++ "." ++ extension).toList.length := by
    rw [htext, List.length_append, List.length_cons]
    omega
  apply isName_of_length hlength
  rw [htext, List.mem_append, List.mem_cons, not_or, not_or]
  exact ⟨fun hstem => h.noSlash (stemOf_subset name hstem), by decide, hslash⟩

/-- With another extension a path leads to another name in the same directory. -/
theorem location_withExtension (base : Location) (h : p.fileName? = some name)
    {extension : String} (hslash : '/' ∉ extension.toList) (hlong : 2 ≤ extension.toList.length) :
  ((p.withExtension extension).place base).location
    = p.lastStop base ++ [stemOf name ++ "." ++ extension]
  := by
  obtain ⟨hname, -⟩ := parts_of_fileName? h
  have hnew := hname.withExtension hslash hlong
  have hparts : ∀ part ∈ p.parts.dropLast ++ [stemOf name ++ "." ++ extension],
      part.toList ≠ [] ∧ '/' ∉ part.toList := by
    rw [List.forall_mem_append, List.forall_mem_singleton]
    constructor
    · intro part hpart
      exact of_mem_segments (mem_segments_of_mem_parts (List.dropLast_subset _ hpart))
    · exact ⟨hnew.nonempty, hnew.noSlash⟩
  rw [withExtension, fileStem?, h, Option.map_some, place]
  dsimp only
  rw [segments_ofParts _ hparts, isAbsolute_ofParts _ hparts, List.foldl_append, lastStop]
  simp [Location.after, hnew.notDot, hnew.notDots]

end Path

end Bindery
