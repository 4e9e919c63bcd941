import Bindery.Proofs.Merge.Reread

/-!
# Requests inside a line

A line of the preamble may hold commands that request packages anywhere in it (`HoldsRequest`).
Merging reads the one that the line begins with, and so of every request that stands at the start of
a line, behind white space at most, all packages are available (`available_of_leading`).  A request
behind other text is passed over, with the line that it stands in (`missing_behind_title`).
-/

namespace Bindery

namespace Text

variable {cs ds : List Char} {c : Char}

/-- White space at the end of a text ends at its last visible character. -/
theorem trimEnd_append_cons (hc : isBlank c = false) :
  trimEnd (cs ++ c :: ds) = cs ++ c :: trimEnd ds
  := by
  have hstop : (c :: cs.reverse).dropWhile isBlank = c :: cs.reverse :=
    List.dropWhile_cons_of_neg (by simp [hc])
  have hreverse : (cs ++ c :: ds).reverse = ds.reverse ++ c :: cs.reverse := by simp
  rw [trimEnd, hreverse, List.dropWhile_append, hstop]
  split
  · next h => simp [trimEnd, List.isEmpty_iff.mp h]
  · simp [trimEnd]

theorem trim_cons_of_blank (hc : isBlank c = true) :
  trim (c :: cs) = trim cs
  := by
  rw [trim, trimStart, List.dropWhile_cons_of_pos hc]
  rfl

theorem trim_concat_of_blank (hc : isBlank c = true) :
  trim (cs ++ [c]) = trim cs
  := by
  have hend : ∀ ds : List Char, trimEnd (ds ++ [c]) = trimEnd ds := by
    intro ds
    simp [trimEnd, hc]
  rw [trim, trimStart, List.dropWhile_append]
  split
  · next h =>
    rw [trim, trimStart, List.isEmpty_iff.mp h, List.dropWhile_cons_of_pos hc]
    rfl
  · exact hend _

/-- A character at the end of a text belongs to its last stretch, unless the text is cut there. -/
theorem exists_splitWhere_concat {p : Char → Bool} (hc : p c = false) (cs : List Char) :
  ∃ stretches last, splitWhere p cs = stretches ++ [last]
    ∧ splitWhere p (cs ++ [c]) = stretches ++ [last ++ [c]]
  := by
  induction cs with
  | nil => exact ⟨[], [], rfl, by simp [splitWhere, hc]⟩
  | cons a cs ih =>
    obtain ⟨stretches, last, hcs, hconcat⟩ := ih
    rw [List.cons_append, splitWhere, splitWhere, hcs, hconcat]
    cases p a with
    | true => exact ⟨[] :: stretches, last, rfl, rfl⟩
    | false =>
      cases stretches with
      | nil => exact ⟨[], a :: last, rfl, rfl⟩
      | cons first stretches => exact ⟨(a :: first) :: stretches, last, rfl, rfl⟩

end Text

/-! ### Packages of a name -/

open Text (isBlank isBlankText)

variable {name : List Char} {c : Char}

theorem not_comma_of_isBlank (hc : isBlank c = true) :
  (c == ',') = false
  := by
  apply beq_eq_false_iff_ne.mpr
  rintro rfl
  exact absurd hc (by decide)

theorem packageTexts_cons_of_blank (hc : isBlank c = true) (name : List Char) :
  packageTexts (c :: name) = packageTexts name
  := by
  rw [packageTexts, packageTexts, Text.splitWhere, not_comma_of_isBlank hc]
  cases hname : Text.splitWhere (· == ',') name with
  | nil => exact absurd hname (Text.splitWhere_ne_nil _ _)
  | cons first rest => simp [Text.trim_cons_of_blank hc]

theorem packageTexts_concat_of_blank (hc : isBlank c = true) (name : List Char) :
  packageTexts (name ++ [c]) = packageTexts name
  := by
  obtain ⟨stretches, last, hname, hconcat⟩ :=
    Text.exists_splitWhere_concat (p := (· == ',')) (not_comma_of_isBlank hc) name
  rw [packageTexts, packageTexts, hname, hconcat]
  simp [Text.trim_concat_of_blank hc]

/-- White space around a name does not matter for the packages that it lists. -/
theorem packageTexts_trim (name : List Char) :
  packageTexts (Text.trim name) = packageTexts name
  := by
  have hstart : ∀ name, packageTexts (Text.trimStart name) = packageTexts name := by
    intro name
    induction name with
    | nil => rfl
    | cons c name ih =>
      rw [Text.trimStart, List.dropWhile_cons]
      split
      · next hc => rw [packageTexts_cons_of_blank hc, ← ih, Text.trimStart]
      · rfl
  have hend : ∀ name, packageTexts (Text.trimEnd name) = packageTexts name := by
    intro name
    change packageTexts (name.rdropWhile isBlank) = _
    induction name using List.reverseRecOn with
    | nil => rfl
    | append_singleton name c ih =>
      rw [List.rdropWhile_concat]
      split
      · next hc => rw [packageTexts_concat_of_blank hc, ih]
      · rfl
  rw [Text.trim, hend, hstart]

/-! ### Requests in a line -/

/-- What may stand in front of the braces of a request: nothing, or options in square brackets. -/
inductive IsOptions : List Char → Prop
  | none : IsOptions []
  | bracketed {inside gap : List Char} (hinside : ']' ∉ inside) (hgap : isBlankText gap) :
    IsOptions ('[' :: inside ++ ']' :: gap)

/-- The text begins with the command that requests packages, and the argument stands in its
braces. -/
def BeginsRequest (text argument : List Char) : Prop :=
  ∃ gap options rest, text = usePackage.toList ++ gap ++ options ++ '{' :: argument ++ '}' :: rest
    ∧ isBlankText gap ∧ IsOptions options ∧ '}' ∉ argument

/-- A request with this argument stands in the line, behind the text `before`. -/
def HoldsRequest (line before argument : List Char) : Prop :=
  ∃ text, line = before ++ text ∧ BeginsRequest text argument

theorem cutAt_append_cons {close : Char} {inside : List Char} (h : close ∉ inside)
    (rest : List Char) :
  cutAt close (inside ++ close :: rest) = some (inside, rest)
  := by
  induction inside with
  | nil => simp [cutAt]
  | cons c inside ih =>
    rw [List.mem_cons, not_or] at h
    rw [List.cons_append, cutAt, if_neg (Ne.symm h.1), ih h.2]
    rfl

/-- Options are skipped, up to the brace behind them. -/
theorem skipOptional_append {gap options : List Char} (hgap : isBlankText gap)
    (hoptions : IsOptions options) (rest : List Char) :
  skipOptional (Text.trimStart (gap ++ (options ++ '{' :: rest))) = '{' :: rest
  := by
  have hbrace : isBlank '{' = false := by decide
  have hbracket : isBlank '[' = false := by decide
  rw [Text.trimStart_append_of_blank hgap]
  cases hoptions with
  | none =>
    rw [List.nil_append, Text.trimStart_cons hbrace]
    rfl
  | @bracketed inside gap' hinside hgap' =>
    simp only [List.cons_append, List.append_assoc]
    rw [Text.trimStart_cons hbracket, skipOptional, cutAt_append_cons hinside]
    dsimp only
    rw [Text.trimStart_append_of_blank hgap', Text.trimStart_cons hbrace]

/-- The argument of a request is what is read as the text in its braces. -/
theorem BeginsRequest.braceArgument?_eq {text argument : List Char}
    (h : BeginsRequest text argument) :
  braceArgument? text = some argument
  := by
  obtain ⟨gap, options, rest, rfl, hgap, hoptions, hargument⟩ := h
  simp only [List.append_assoc, List.cons_append]
  rw [braceArgument?, if_pos (List.isPrefixOf_iff_prefix.mpr (List.prefix_append _ _)),
    ← String.length_toList, List.drop_left, skipOptional_append hgap hoptions]
  change (cutAt '}' (argument ++ '}' :: rest)).map Prod.fst = some argument
  rw [cutAt_append_cons hargument]
  rfl

/-- A request at the start of a line is still there if the line is trimmed. -/
theorem HoldsRequest.trim {line before argument : List Char}
    (h : HoldsRequest line before argument) (hbefore : isBlankText before) :
  BeginsRequest (Text.trim line) argument
  := by
  obtain ⟨text, rfl, gap, options, rest, rfl, hgap, hoptions, hargument⟩ := h
  refine ⟨gap, options, Text.trimEnd rest, ?_, hgap, hoptions, hargument⟩
  have hslash : isBlank '\\' = false := by decide
  have huse : usePackage.toList = '\\' :: "usepackage".toList := by decide
  rw [Text.trim, Text.trimStart_append_of_blank hbefore, huse]
  simp only [List.cons_append]
  rw [Text.trimStart_cons hslash, ← List.cons_append, Text.trimEnd_append_cons (by decide),
    List.cons_append]

/-- The packages of the request that a line begins with are those that the line requests, if it
requests any. -/
theorem HoldsRequest.requested_eq {line : String} {before argument : List Char}
    (h : HoldsRequest line.toList before argument) (hbefore : isBlankText before)
    {name : String} (hname : packageName? (Text.trim line.toList) = some name) :
  packages name = packages (String.ofList argument)
  := by
  have hargument := (h.trim hbefore).braceArgument?_eq
  obtain ⟨argument', hargument', hname⟩ := Option.bind_eq_some_iff.mp hname
  cases hargument.symm.trans hargument'
  obtain ⟨_, -, hname⟩ := Option.bind_eq_some_iff.mp hname
  cases hname
  simp only [packages, String.toList_ofList, packageTexts_trim]

namespace Merge

/-- If it depends on the package alone whether it is available, all packages are available of every
request that stands at the start of a directive, behind white space at most. -/
theorem available_of_leading {available : String → Bool} {fragments : List Fragment}
    {d : Document} (h : (merge fragments).runPure available = .ok d) :
  ∀ x ∈ d.custom, ∀ before argument, HoldsRequest x.text.toList before argument →
    isBlankText before → ∀ package ∈ packages (String.ofList argument), available package
  := by
  intro x hx before argument hrequest hbefore package hpackage
  have hd := (merge_always_wellFormed fragments).runPure available d h
  have hconsistent := hd.consistent x hx
  obtain ⟨gap, options, rest, htrim, -⟩ := hrequest.trim hbefore
  have huse : usePackage.toList <+: Text.trim x.text.toList := by
    rw [htrim]
    simp only [List.append_assoc]
    apply List.prefix_append
  obtain ⟨name, hcapability, hname⟩ :=
    hconsistent.capability_of_request (hconsistent.kind_iff.mpr huse)
  rw [← hrequest.requested_eq hbefore hname] at hpackage
  exact granted_of_merge h x hx name hcapability package hpackage

/-- Both packages are there of a request with options, behind white space and in front of a
comment. -/
theorem available_of_leading_options :
  let line := " \\usepackage [x, y] \x7bp, q \x7d % z"
  let fragments : List Fragment := [
    { origin := "a", preamble := ["\\usepackage\x7bp, r\x7d", line] }]
  let d : Document := {
    fixed := fixedPreamble
    custom := [.request "p, q" line]
    body := [""]
    diagnostics := [.unavailable "a" "p, r" "\\usepackage\x7bp, r\x7d"] }
  let available := fun package => package = "p" || package = "q"
  (merge fragments).runPure available = .ok d
    ∧ HoldsRequest line.toList [' '] "p, q ".toList ∧ isBlankText [' ']
    ∧ packages "p, q " = ["p", "q"] ∧ ∀ package ∈ packages "p, q ", available package = true
  := by
  intro line fragments d available
  have h : (merge fragments).runPure available = .ok d := by decide +kernel
  have hinside : ']' ∉ "x, y".toList := by decide
  have hgap : isBlankText [' '] := by decide
  have hrequest : HoldsRequest line.toList [' '] "p, q ".toList :=
    ⟨line.toList.tail, by decide, [' '], "[x, y] ".toList, " % z".toList, by decide, hgap,
      .bracketed hinside hgap, by decide⟩
  exact ⟨h, hrequest, by decide, by decide +kernel,
    available_of_leading h _ List.mem_cons_self _ _ hrequest (by decide)⟩

/-- A request that stands behind the title in its line is taken over without a question, though its
package is missing. -/
theorem missing_behind_title :
  let line := "\\title\x7bA\x7d\\usepackage\x7bmissing\x7d"
  let fragments : List Fragment := [{ origin := "a.tex", preamble := [line], body := ["Hello"] }]
  let d : Document := {
    fixed := fixedPreamble, custom := [.plain line], body := ["Hello", ""], diagnostics := [] }
  let available := fun package => package != "missing"
  (merge fragments).runPure available = .ok d ∧ (merge fragments).trace available = []
    ∧ ∃ x ∈ d.custom, ∃ before argument, HoldsRequest x.text.toList before argument
      ∧ '%' ∉ before ∧ ∃ package ∈ packages (String.ofList argument), available package = false
  := by
  intro line fragments d available
  have h : (merge fragments).runPure available = .ok d := by decide +kernel
  have htrace : (merge fragments).trace available = [] := by decide +kernel
  have hrequest : HoldsRequest line.toList "\\title\x7bA\x7d".toList "missing".toList :=
    ⟨_, by decide, [], [], [], rfl, by decide, .none, by decide⟩
  have hmissing : "missing" ∈ packages (String.ofList "missing".toList) := by decide +kernel
  exact ⟨h, htrace, _, List.mem_cons_self, _, _, hrequest, by decide, _, hmissing, rfl⟩

end Merge

end Bindery
