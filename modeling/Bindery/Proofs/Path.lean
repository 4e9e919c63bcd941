import Bindery.Path
import Bindery.Proofs.Text.Lines

/-!
# The segments of a path

Joining a name to a path adds one segment (`segments_join`), so that the name is the file name of
the path it was joined to (`fileName?_join`), and a path that is put together of parts has these
as its segments (`segments_ofParts`).
-/

namespace Bindery.Path

/-- A text that can name a file in a directory. -/
structure IsName (name : String) : Prop where
  nonempty : name.toList ≠ []
  noSlash : '/' ∉ name.toList
  notDot : name ≠ "."
  notDots : name ≠ ".."

instance (name : String) : Decidable (IsName name) :=
  decidable_of_iff (name.toList ≠ [] ∧ '/' ∉ name.toList ∧ name ≠ "." ∧ name ≠ "..")
    ⟨fun ⟨nonempty, noSlash, notDot, notDots⟩ => ⟨nonempty, noSlash, notDot, notDots⟩,
      fun h => ⟨h.nonempty, h.noSlash, h.notDot, h.notDots⟩⟩

/-- A text of three characters or more without a slash is a name. -/
theorem isName_of_length {name : String} (hlong : 3 ≤ name.toList.length)
    (hslash : '/' ∉ name.toList) :
  IsName name
  := by
  have hne (other : String) (hshort : other.toList.length < 3) : name ≠ other := by
    rintro rfl
    exact absurd hlong (Nat.not_le_of_lt hshort)
  constructor
  · intro hnil
    exact hne "" (by decide) (String.toList_inj.mp hnil)
  · exact hslash
  · exact hne "." (by decide)
  · exact hne ".." (by decide)

/-- The nonempty stretches of a text between slashes. -/
private def stretches (cs : List Char) : List (List Char) :=
  (Text.splitWhere (· == '/') cs).filter fun s => !s.isEmpty

private theorem segments_eq (p : Path) :
  p.segments = (stretches p.text.toList).map String.ofList
  := rfl

private theorem stretches_append_cons (before after : List Char) :
  stretches (before ++ '/' :: after) = stretches before ++ stretches after
  := by
  simp only [stretches, Text.splitWhere_eq_splitOnP]
  rw [List.splitOnP_append_cons before after (by decide), List.filter_append]

variable {name : String}

private theorem stretches_name (h : IsName name) :
  stretches name.toList = [name.toList]
  := by
  have hslash : ∀ c ∈ name.toList, (c == '/') = false := by
    intro c hc
    rw [beq_eq_false_iff_ne]
    rintro rfl
    exact h.noSlash hc
  rw [stretches, Text.splitWhere_eq_splitOnP, List.splitOnP_eq_singleton hslash]
  simpa using h.nonempty

/-- A stretch between slashes is not empty and holds no slash. -/
theorem of_mem_segments {p : Path} {s : String} (h : s ∈ p.segments) :
  s.toList ≠ [] ∧ '/' ∉ s.toList
  := by
  rw [segments_eq] at h
  obtain ⟨cs, hcs, rfl⟩ := List.mem_map.mp h
  obtain ⟨hsplit, hnonempty⟩ := List.mem_filter.mp hcs
  rw [String.toList_ofList]
  constructor
  · simpa using hnonempty
  · intro hslash
    have hseparator := Text.not_of_mem_splitWhere hsplit '/' hslash
    cases hseparator

/-- The segments of a path that is put together are its parts. -/
theorem segments_ofParts (absolute : Bool) {parts : List String}
    (h : ∀ part ∈ parts, part.toList ≠ [] ∧ '/' ∉ part.toList) :
  (ofParts absolute parts).segments = parts
  := by
  have hjoined : stretches ("/".intercalate parts).toList = parts.map String.toList := by
    rw [stretches, Text.splitWhere_eq_splitOnP, String.toList_intercalate]
    cases parts with
    | nil => rfl
    | cons part rest =>
      have hsplit := List.splitOn_intercalate '/'
        (List.forall_mem_map.mpr fun part hpart => (h part hpart).2) (List.cons_ne_nil _ _)
      rw [List.splitOn] at hsplit
      change ((['/'].intercalate _).splitOnP _).filter _ = _
      rw [hsplit, List.filter_eq_self]
      intro cs hcs
      obtain ⟨part', hpart, rfl⟩ := List.mem_map.mp hcs
      simpa using (h part' hpart).1
  have hall : stretches (ofParts absolute parts).text.toList = parts.map String.toList := by
    cases absolute with
    | false => simpa [ofParts] using hjoined
    | true =>
      have hrooted : (ofParts true parts).text.toList
          = [] ++ '/' :: ("/".intercalate parts).toList := by simp [ofParts]
      rw [hrooted, stretches_append_cons, hjoined]
      rfl
  rw [segments_eq, hall, List.map_map]
  simp

theorem isAbsolute_ofParts (absolute : Bool) {parts : List String}
    (h : ∀ part ∈ parts, part.toList ≠ [] ∧ '/' ∉ part.toList) :
  (ofParts absolute parts).isAbsolute = absolute
  := by
  cases absolute with
  | true => simp [ofParts, isAbsolute]
  | false =>
    cases parts with
    | nil => rfl
    | cons part rest =>
      obtain ⟨hnonempty, hslash⟩ := h part List.mem_cons_self
      have hhead : ("/".intercalate (part :: rest)).toList.head? = part.toList.head? := by
        rw [String.toList_intercalate, List.map_cons]
        cases rest with
        | nil => rw [List.map_nil, List.intercalate_singleton]
        | cons next rest =>
          rw [List.map_cons, List.intercalate_cons_cons, List.append_assoc,
            List.head?_append_of_ne_nil _ hnonempty]
      rw [isAbsolute, beq_eq_false_iff_ne]
      intro hfirst
      apply hslash
      apply List.mem_of_head?
      rw [← hhead, ← hfirst]
      simp [ofParts]

/-- The parts of a path are its segments without single dots, of which one may stay in front. -/
theorem parts_cases (p : Path) :
  p.parts = p.segments.filter (· != ".")
    ∨ ∃ rest, p.segments = "." :: rest ∧ p.parts = "." :: rest.filter (· != ".")
  := by
  cases hsegments : p.segments with
  | nil =>
    left
    rw [parts, hsegments]
    rfl
  | cons first rest =>
    by_cases hdot : first = "."
    · subst hdot
      cases habsolute : p.isAbsolute with
      | true =>
        left
        simp [parts, hsegments, habsolute]
      | false =>
        right
        use rest, rfl
        simp [parts, hsegments, habsolute]
    · left
      simp [parts, hsegments, hdot]

theorem parts_sublist (p : Path) :
  p.parts.Sublist p.segments
  := by
  rcases p.parts_cases with hparts | ⟨rest, hsegments, hparts⟩
  · rw [hparts]
    exact List.filter_sublist
  · rw [hparts, hsegments]
    exact List.Sublist.cons_cons _ List.filter_sublist

/-- A part of a path is one of its segments. -/
theorem mem_segments_of_mem_parts {p : Path} {s : String} (h : s ∈ p.parts) :
  s ∈ p.segments
  := p.parts_sublist.mem h

/-- A file name is the last part. -/
theorem parts_of_fileName? {p : Path} (h : p.fileName? = some name) :
  IsName name ∧ p.parts = p.parts.dropLast ++ [name]
  := by
  obtain ⟨hlast, hdots⟩ := Option.filter_eq_some_iff.mp h
  obtain ⟨hnonempty, hslash⟩ :=
    of_mem_segments (mem_segments_of_mem_parts (List.mem_of_getLast? hlast))
  rw [Bool.and_eq_true, bne_iff_ne, bne_iff_ne] at hdots
  refine ⟨⟨hnonempty, hslash, hdots.1, hdots.2⟩, ?_⟩
  exact (List.dropLast_append_getLast? name hlast).symm

theorem IsName.not_isAbsolute (h : IsName name) :
  (⟨name⟩ : Path).isAbsolute = false
  := by
  rw [isAbsolute, beq_eq_false_iff_ne]
  intro hhead
  exact h.noSlash (List.mem_of_head? hhead)

/-- Joining a name to a path adds the name as the last segment. -/
theorem segments_join (p : Path) (h : IsName name) :
  (p.join name).segments = p.segments ++ [name]
  := by
  have hname : (stretches name.toList).map String.ofList = [name] := by
    rw [stretches_name h, List.map_singleton, String.ofList_toList]
  rw [join, h.not_isAbsolute, Bool.false_or]
  split
  · next hempty =>
    have hnil : p.text.toList = [] := by simpa using hempty
    rw [segments_eq, segments_eq, hnil, hname]
    rfl
  · split
    · next hlast =>
      obtain ⟨before, hbefore⟩ := List.getLast?_eq_some_iff.mp hlast
      have hjoined : p.text.toList ++ name.toList = before ++ '/' :: name.toList := by
        rw [hbefore, List.append_assoc, List.singleton_append]
      have hpath : stretches p.text.toList = stretches before := by
        rw [hbefore, stretches_append_cons]
        exact List.append_nil _
      rw [segments_eq, segments_eq, hpath, String.toList_append, hjoined, stretches_append_cons,
        List.map_append, hname]
    · have hjoined : (p.text ++ "/" ++ name).toList = p.text.toList ++ '/' :: name.toList := by
        simp [String.toList_append]
      rw [segments_eq, segments_eq, hjoined, stretches_append_cons, List.map_append, hname]

theorem isAbsolute_join (p : Path) (h : IsName name) :
  (p.join name).isAbsolute = p.isAbsolute
  := by
  rw [join, h.not_isAbsolute, Bool.false_or]
  split
  · next hempty =>
    have hnil : p.text.toList = [] := by simpa using hempty
    rw [h.not_isAbsolute, isAbsolute, hnil]
    rfl
  · next hempty =>
    have hne : p.text.toList ≠ [] := by simpa using hempty
    split <;> simp [isAbsolute, String.toList_append, List.head?_append_of_ne_nil _ hne]

theorem getLast?_parts {p : Path} {outer : List String} (hsegments : p.segments = outer ++ [name])
    (h : IsName name) :
  p.parts.getLast? = some name
  := by
  have hfilter (segments : List String) :
      (segments ++ [name]).filter (· != ".") = segments.filter (· != ".") ++ [name] := by
    have hkept : (name != ".") = true := bne_iff_ne.mpr h.notDot
    rw [List.filter_append, List.filter_singleton, hkept, cond_true]
  rcases p.parts_cases with hparts | ⟨rest, hdot, hparts⟩
  · rw [hparts, hsegments, hfilter]
    exact List.getLast?_concat
  · rw [hsegments] at hdot
    rcases List.append_eq_cons_iff.mp hdot with ⟨-, hname⟩ | ⟨outer, -, rfl⟩
    · obtain ⟨rfl, -⟩ := List.cons.inj hname
      exact absurd rfl h.notDot
    · rw [hparts, hfilter, ← List.cons_append]
      exact List.getLast?_concat

/-- A name that is joined to a path is the file name of the new path. -/
theorem fileName?_join (p : Path) (h : IsName name) :
  (p.join name).fileName? = some name
  := by
  rw [fileName?, getLast?_parts (segments_join p h) h]
  simp [h.notDot, h.notDots]

end Bindery.Path
