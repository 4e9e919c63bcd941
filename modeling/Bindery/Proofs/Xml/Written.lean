import Mathlib.Data.List.Induction
import Bindery.Proofs.Text.Numeral

/-!
# Reading XML texts back

An XML text that is written token by token (`Token`), with each character of its character data in
one of several spellings (`Spelling`), is read as the events of its tokens (`ofText?_of_tokens`),
except that character data next to each other make one event (`eventsFrom`).
-/

namespace Bindery.Xml

/-! ### Spellings of characters -/

/-- A way to write a character. -/
inductive Spelling where
  | plain (c : Char)
  /-- By the name of an entity. -/
  | entity (name : String) (c : Char)
  /-- By its number. -/
  | decimal (c : Char)
  | hexadecimal (c : Char)

namespace Spelling

/-- The character that is spelled. -/
def char : Spelling → Char
  | plain c | entity _ c | decimal c | hexadecimal c => c

/-- What the reference says between ampersand and semicolon. -/
def name : Spelling → List Char
  | plain _ => []
  | entity name _ => name.toList
  | decimal c => '#' :: Nat.toDigits 10 c.toNat
  | hexadecimal c => '#' :: 'x' :: Nat.toDigits 16 c.toNat

/-- How the character is written. -/
def text : Spelling → List Char
  | plain c => [c]
  | s => '&' :: s.name ++ [';']

/-- Characters of markup do not stand for themselves, and only some characters have a name.  No
reference stands for the character zero. -/
def IsProper : Spelling → Prop
  | plain c => c ≠ '<' ∧ c ≠ '&'
  | entity name c => (name, c) ∈ entities
  | decimal c | hexadecimal c => c ≠ '\x00'

variable {s : Spelling}

theorem character?_toNat {c : Char} (h : c ≠ '\x00') :
  character? c.toNat = some c
  := by
  have hzero : c.toNat ≠ 0 := by
    intro hc
    apply h
    rw [← Char.ofNat_toNat c, hc]
  have hvalid : c.toNat < 0xd800 ∨ 0xdfff < c.toNat ∧ c.toNat < 0x110000 := c.valid
  rw [character?, if_pos ⟨hzero, hvalid⟩, Char.ofNat_toNat]

theorem reference?_name (h : s.IsProper) (href : ∀ c, s ≠ plain c) :
  reference? s.name = some s.char
  := by
  cases s with
  | plain c => exact absurd rfl (href c)
  | entity name c =>
    have hall : ∀ e ∈ entities, reference? e.1.toList = some e.2 := by decide
    exact hall (name, c) h
  | decimal c =>
    have hx : ∀ digits, Nat.toDigits 10 c.toNat ≠ 'x' :: digits := by
      intro digits hdigits
      have hmem : 'x' ∈ Nat.toDigits 10 c.toNat := by
        rw [hdigits]
        exact List.mem_cons_self
      exact absurd (Nat.isDigit_of_mem_toDigits (by decide) (by decide) hmem) (by decide)
    rw [name, reference?, numeral?_toDigits (by decide) (by decide)]
    · exact character?_toNat h
    · exact hx
  | hexadecimal c =>
    rw [name, reference?, numeral?_toDigits (by decide) (by decide)]
    exact character?_toNat h

/-- A reference has no characters of markup in it but its own. -/
theorem not_mem_name (h : s.IsProper) :
  ∀ c ∈ s.name, c ≠ ';' ∧ c ≠ '&' ∧ c ≠ '<'
  := by
  have hdigits : ∀ d < 16, d.digitChar ≠ ';' ∧ d.digitChar ≠ '&' ∧ d.digitChar ≠ '<' := by decide
  intro c hc
  cases s with
  | plain c => cases hc
  | entity word meaning =>
    have hall : ∀ e ∈ entities, (e.1.toList.all fun c => c ≠ ';' ∧ c ≠ '&' ∧ c ≠ '<') = true := by
      decide
    have hword := List.all_eq_true.mp (hall (word, meaning) h) c hc
    exact of_decide_eq_true hword
  | decimal =>
    rcases List.mem_cons.mp hc with rfl | hc
    · decide
    · obtain ⟨d, hd, rfl⟩ := exists_digitChar (by decide) hc
      exact hdigits d (by omega)
  | hexadecimal =>
    rcases List.mem_cons.mp hc with rfl | hc
    · decide
    · rcases List.mem_cons.mp hc with rfl | hc
      · decide
      · obtain ⟨d, hd, rfl⟩ := exists_digitChar (by decide) hc
        exact hdigits d hd

/-- A spelling begins no markup. -/
theorem not_mem_text (h : s.IsProper) :
  '<' ∉ s.text
  := by
  have hname : '<' ∉ '&' :: s.name ++ [';'] := by
    intro hmem
    rcases List.mem_append.mp hmem with hmem | hmem
    · rcases List.mem_cons.mp hmem with hmem | hmem
      · cases hmem
      · exact (not_mem_name h _ hmem).2.2 rfl
    · cases List.mem_singleton.mp hmem
  cases s with
  | plain c =>
    intro hmem
    exact h.1 (List.mem_singleton.mp hmem).symm
  | _ => exact hname

theorem text_ne_nil (s : Spelling) :
  s.text ≠ []
  := by cases s <;> exact List.cons_ne_nil _ _

end Spelling

/-- A reference is read up to its semicolon. -/
theorem unescapeFrom?_reference {name : List Char} (h : ∀ c ∈ name, c ≠ ';' ∧ c ≠ '&' ∧ c ≠ '<')
    (read rest : List Char) :
  unescapeFrom? (some read) (name ++ ';' :: rest) = (do
    let character ← reference? (read.reverse ++ name)
    return character :: (← unescapeFrom? none rest))
  := by
  induction name generalizing read with
  | nil =>
    rw [List.nil_append, unescapeFrom?, List.append_nil]
    rfl
  | cons c name ih =>
    obtain ⟨⟨hend, hamp, -⟩, hname⟩ := List.forall_mem_cons.mp h
    rw [List.cons_append, unescapeFrom?, if_neg hend, if_neg hamp, ih hname, List.reverse_cons,
      List.append_assoc]
    rfl

/-- A spelling is read as its character. -/
theorem unescapeFrom?_text {s : Spelling} (h : s.IsProper) (rest : List Char) :
  unescapeFrom? none (s.text ++ rest) = (unescapeFrom? none rest).map (s.char :: ·)
  := by
  have href (href : ∀ c, s ≠ .plain c) : unescapeFrom? none ('&' :: s.name ++ [';'] ++ rest)
      = (unescapeFrom? none rest).map (s.char :: ·) := by
    rw [List.append_assoc, List.cons_append, unescapeFrom?, if_pos rfl]
    change unescapeFrom? (some []) (s.name ++ ';' :: rest) = _
    rw [unescapeFrom?_reference (Spelling.not_mem_name h), List.reverse_nil, List.nil_append,
      Spelling.reference?_name h href]
    cases unescapeFrom? none rest <;> rfl
  cases s with
  | plain c =>
    rw [Spelling.text, List.singleton_append, unescapeFrom?, if_neg h.2]
    rfl
  | _ =>
    apply href
    rintro c ⟨⟩

/-- Every spelling of a character is read as the character. -/
theorem unescape?_spellings {ss : List Spelling} (h : ∀ s ∈ ss, s.IsProper) :
  unescape? (ss.flatMap Spelling.text) = some (ss.map Spelling.char)
  := by
  induction ss with
  | nil => rfl
  | cons s ss ih =>
    obtain ⟨hs, hss⟩ := List.forall_mem_cons.mp h
    rw [unescape?] at ih ⊢
    rw [List.flatMap_cons, unescapeFrom?_text hs, ih hss]
    rfl

/-! ### Tags -/

/-- A character of a name. -/
def isNameChar (c : Char) : Bool :=
  !isSpace c && !(['\x22', '\x27', '<', '>', '/', '!', '?', '=', '&'].contains c)

/-- A name of an element or an attribute. -/
structure IsName (name : List Char) : Prop where
  nonempty : name ≠ []
  chars : ∀ c ∈ name, isNameChar c = true

instance (name : List Char) : Decidable (IsName name) :=
  decidable_of_iff (name ≠ [] ∧ name.all isNameChar = true)
    ⟨fun h => ⟨h.1, List.all_eq_true.mp h.2⟩, fun h => ⟨h.nonempty, List.all_eq_true.mpr h.chars⟩⟩

/-- An attribute as it is written. -/
def attributeText (a : List Char × List Char) : List Char :=
  ' ' :: a.1 ++ '=' :: '\x22' :: a.2 ++ ['\x22']

namespace Tag

/-- The tag as it is written between its brackets. -/
def text (t : Tag) : List Char :=
  t.name ++ t.attributes.flatMap attributeText

/-- The names are names, no two attributes have the same, and no value ends early. -/
structure IsProper (t : Tag) : Prop where
  name : IsName t.name
  keys : ∀ a ∈ t.attributes, IsName a.1
  distinct : (t.attributes.map Prod.fst).Nodup
  values : ∀ a ∈ t.attributes, '\x22' ∉ a.2

instance (t : Tag) : Decidable t.IsProper :=
  decidable_of_iff (IsName t.name ∧ (∀ a ∈ t.attributes, IsName a.1)
      ∧ (t.attributes.map Prod.fst).Nodup ∧ ∀ a ∈ t.attributes, '\x22' ∉ a.2)
    ⟨fun h => ⟨h.1, h.2.1, h.2.2.1, h.2.2.2⟩,
      fun h => ⟨h.name, h.keys, h.distinct, h.values⟩⟩

end Tag

theorem isSpace_of_isNameChar {c : Char} (h : isNameChar c = true) :
  isSpace c = false
  := by
  rw [isNameChar, Bool.and_eq_true] at h
  simpa using h.1

theorem ne_of_isNameChar {c d : Char} (h : isNameChar c = true) (hd : isNameChar d = false) :
  c ≠ d
  := by
  rintro rfl
  rw [h] at hd
  cases hd

namespace AttributeScan

/-- The characters of a key are read one after another. -/
theorem foldl_key {key : List Char} (h : ∀ c ∈ key, isNameChar c = true) (read : List Char)
    (s : AttributeScan) :
  key.foldl step { s with mode := .key read } = { s with mode := .key (key.reverse ++ read) }
  := by
  induction key generalizing read with
  | nil => rfl
  | cons c key ih =>
    obtain ⟨hc, hkey⟩ := List.forall_mem_cons.mp h
    have hstep : step { s with mode := .key read } c = { s with mode := .key (c :: read) } := by
      rw [step]
      dsimp only
      rw [if_neg (ne_of_isNameChar hc rfl), isSpace_of_isNameChar hc]
      rfl
    rw [List.foldl_cons, hstep, ih hkey, List.reverse_cons, List.append_assoc]
    rfl

/-- The characters of a value are read up to its quotation mark. -/
theorem foldl_value {value : List Char} (h : '\x22' ∉ value) (key read : List Char)
    (s : AttributeScan) :
  value.foldl step { s with mode := .quoted key '\x22' read }
    = { s with mode := .quoted key '\x22' (value.reverse ++ read) }
  := by
  induction value generalizing read with
  | nil => rfl
  | cons c value ih =>
    obtain ⟨hc, hvalue⟩ := not_or.mp (mt List.mem_cons.mpr h)
    have hstep : step { s with mode := .quoted key '\x22' read } c
        = { s with mode := .quoted key '\x22' (c :: read) } := by
      rw [step]
      dsimp only
      rw [if_neg (Ne.symm hc)]
    rw [List.foldl_cons, hstep, ih hvalue, List.reverse_cons, List.append_assoc]
    rfl

/-- An attribute is read whose key is new. -/
theorem foldl_attributeText {a : List Char × List Char} (hkey : IsName a.1)
    (hvalue : '\x22' ∉ a.2) {keys : List (List Char)} (hnew : a.1 ∉ keys)
    (attributes : List (List Char × List Char)) :
  (attributeText a).foldl step { keys, attributes }
    = { keys := a.1 :: keys, attributes := a :: attributes }
  := by
  obtain ⟨key, value⟩ := a
  obtain ⟨hne, hchars⟩ := hkey
  cases key with
  | nil => exact absurd rfl hne
  | cons c key =>
    obtain ⟨hc, hkey⟩ := List.forall_mem_cons.mp hchars
    have hspace : step { keys, attributes } ' ' = { keys, attributes } := rfl
    have hfirst : step { keys, attributes } c = { mode := .key [c], keys, attributes } := by
      rw [step]
      dsimp only
      rw [isSpace_of_isNameChar hc]
      rfl
    have hrest := foldl_key hkey [c] { keys, attributes }
    have hequals : step { mode := .key (key.reverse ++ [c]), keys, attributes } '='
        = { mode := .value (c :: key), keys := (c :: key) :: keys, attributes } := by
      rw [step]
      dsimp only
      rw [if_pos rfl, List.reverse_append, List.reverse_reverse, equals, if_neg]
      · rfl
      · rw [List.contains_iff_mem]
        exact hnew
    have hquoted := foldl_value hvalue (c :: key) [] { keys := (c :: key) :: keys, attributes }
    have hquote : step { mode := .quoted (c :: key) '\x22' (value.reverse ++ []),
                         keys := (c :: key) :: keys, attributes } '\x22'
        = { keys := (c :: key) :: keys, attributes := (c :: key, value) :: attributes } := by
      rw [step]
      dsimp only
      rw [if_pos rfl, List.append_nil, List.reverse_reverse]
    have hopen : step { mode := .value (c :: key), keys := (c :: key) :: keys, attributes } '\x22'
        = { mode := .quoted (c :: key) '\x22' [], keys := (c :: key) :: keys, attributes } := rfl
    have htext : attributeText (c :: key, value)
        = ' ' :: c :: (key ++ '=' :: '\x22' :: (value ++ ['\x22'])) := by simp [attributeText]
    rw [htext, List.foldl_cons, hspace, List.foldl_cons, hfirst, List.foldl_append, hrest,
      List.foldl_cons, hequals, List.foldl_cons, hopen, List.foldl_append, hquoted,
      List.foldl_cons, hquote, List.foldl_nil]

/-- Attributes with different keys are read one after another. -/
theorem foldl_attributes {more : List (List Char × List Char)} (hkeys : ∀ a ∈ more, IsName a.1)
    (hvalues : ∀ a ∈ more, '\x22' ∉ a.2) (hdistinct : (more.map Prod.fst).Nodup)
    {keys : List (List Char)} (hnew : ∀ a ∈ more, a.1 ∉ keys)
    (attributes : List (List Char × List Char)) :
  ((more.flatMap attributeText).foldl step { keys, attributes }).attributes
    = more.reverse ++ attributes
  := by
  induction more generalizing keys attributes with
  | nil => rfl
  | cons a more ih =>
    obtain ⟨hkey, hkeys⟩ := List.forall_mem_cons.mp hkeys
    obtain ⟨hvalue, hvalues⟩ := List.forall_mem_cons.mp hvalues
    obtain ⟨hfirst, hnew⟩ := List.forall_mem_cons.mp hnew
    rw [List.map_cons, List.nodup_cons] at hdistinct
    rw [List.flatMap_cons, List.foldl_append, foldl_attributeText hkey hvalue hfirst,
      ih hkeys hvalues hdistinct.2, List.reverse_cons, List.append_assoc]
    · rfl
    · intro b hb hmem
      rcases List.mem_cons.mp hmem with hb' | hmem
      · exact hdistinct.1 (List.mem_map.mpr ⟨b, hb, hb'⟩)
      · exact hnew b hb hmem

end AttributeScan

theorem Tag.ofContent_text {t : Tag} (h : t.IsProper) :
  ofContent t.text = t
  := by
  have hname : ∀ c ∈ t.name, (!isSpace c) = true := by
    intro c hc
    rw [isSpace_of_isNameChar (h.name.chars c hc)]
    rfl
  have hnew : ∀ a ∈ t.attributes, a.1 ∉ ([] : List (List Char)) := fun _ _ => List.not_mem_nil
  have hattributes := AttributeScan.foldl_attributes h.keys h.values h.distinct hnew []
  have hend : ((t.attributes.flatMap attributeText).takeWhile (!isSpace ·)) = []
      ∧ (t.attributes.flatMap attributeText).dropWhile (!isSpace ·)
        = t.attributes.flatMap attributeText := by
    cases t.attributes with
    | nil => exact ⟨rfl, rfl⟩
    | cons a rest => exact ⟨rfl, rfl⟩
  rw [ofContent, text, List.takeWhile_append_of_pos hname, List.dropWhile_append_of_pos hname,
    hend.1, hend.2, hattributes]
  simp

/-! ### Tokens -/

/-- Markup, or text in spellings. -/
inductive Token where
  | start (tag : Tag)
  | empty (tag : Tag)
  | stop (name : List Char)
  | text (spellings : List Spelling)
  | comment (content : List Char)
  | instruction (content : List Char)

namespace Token

/-- The token as it is written. -/
def written : Token → List Char
  | start t => '<' :: t.text ++ ['>']
  | empty t => '<' :: (t.text ++ ['/']) ++ ['>']
  | stop name => '<' :: ('/' :: name) ++ ['>']
  | text spellings => spellings.flatMap Spelling.text
  | comment content => '<' :: '!' :: '-' :: '-' :: content ++ ['-', '-', '>']
  | instruction content => '<' :: '?' :: content ++ ['?', '>']

/-- The parts of the token are written in a way in which they can be read back. -/
def IsProper : Token → Prop
  | start t | empty t => t.IsProper
  | stop name => IsName name
  | text spellings => ∀ s ∈ spellings, s.IsProper
  | comment content => ¬ ['-', '-'] <:+: content
  | instruction content => ¬ ['?', '>'] <:+: '?' :: content

/-- The pieces of a token that is no text. -/
def pieces : Token → List Piece
  | start t => [.tag t.text]
  | empty t => [.tag (t.text ++ ['/'])]
  | stop name => [.tag ('/' :: name)]
  | text _ | comment _ | instruction _ => []

/-- What the token says. -/
def events : Token → List Event
  | start t => [.start t]
  | empty t => [.empty t]
  | stop name => [.stop name]
  | text spellings => [.text (spellings.map Spelling.char)]
  | comment _ | instruction _ => []

end Token

/-! ### Scanning tokens -/

/-- The text can stand inside a tag: no bracket in it ends the tag. -/
def Passes (content : List Char) : Prop :=
  ∀ (read : List Char) (pieces : List Piece),
    content.foldlM Scan.step (.tag read none, pieces)
      = some (.tag (content.reverse ++ read) none, pieces)

theorem Passes.append {content more : List Char} (h : Passes content) (hmore : Passes more) :
  Passes (content ++ more)
  := by
  intro read pieces
  rw [List.foldlM_append, h]
  change more.foldlM Scan.step _ = _
  rw [hmore, List.reverse_append, List.append_assoc]

theorem passes_nil :
  Passes []
  := fun _ _ => rfl

theorem passes_plain {content : List Char} (h : ∀ c ∈ content, c ≠ '>' ∧ c ≠ '\x22' ∧ c ≠ '\x27') :
  Passes content
  := by
  induction content with
  | nil => exact passes_nil
  | cons c content ih =>
    obtain ⟨⟨hend, hdouble, hsingle⟩, hcontent⟩ := List.forall_mem_cons.mp h
    intro read pieces
    have hstep : Scan.step (.tag read none, pieces) c = some (.tag (c :: read) none, pieces) := by
      rw [Scan.step, stepTag, if_neg hend, if_neg (by simp [hdouble, hsingle])]
    rw [List.foldlM_cons, hstep]
    change content.foldlM Scan.step _ = _
    rw [ih hcontent, List.reverse_cons, List.append_assoc]
    rfl

theorem foldlM_quoted {value : List Char} (h : '\x22' ∉ value) (read : List Char)
    (pieces : List Piece) :
  value.foldlM Scan.step (.tag read (some '\x22'), pieces)
    = some (.tag (value.reverse ++ read) (some '\x22'), pieces)
  := by
  induction value generalizing read with
  | nil => rfl
  | cons c value ih =>
    obtain ⟨hc, hvalue⟩ := not_or.mp (mt List.mem_cons.mpr h)
    have hstep : Scan.step (.tag read (some '\x22'), pieces) c
        = some (.tag (c :: read) (some '\x22'), pieces) := by
      rw [Scan.step, stepTag, if_neg (Ne.symm hc)]
    rw [List.foldlM_cons, hstep]
    change value.foldlM Scan.step _ = _
    rw [ih hvalue, List.reverse_cons, List.append_assoc]
    rfl

/-- Inside of quotation marks, brackets do not end a tag. -/
theorem passes_quoted {value : List Char} (h : '\x22' ∉ value) :
  Passes ('\x22' :: value ++ ['\x22'])
  := by
  intro read pieces
  rw [List.cons_append, List.foldlM_cons]
  change (value ++ ['\x22']).foldlM Scan.step (.tag ('\x22' :: read) (some '\x22'), pieces) = _
  rw [List.foldlM_append, foldlM_quoted h]
  simp [Scan.step, stepTag]

theorem passes_name {name : List Char} (h : ∀ c ∈ name, isNameChar c = true) :
  Passes name
  := passes_plain fun c hc => ⟨ne_of_isNameChar (h c hc) rfl, ne_of_isNameChar (h c hc) rfl,
    ne_of_isNameChar (h c hc) rfl⟩

theorem passes_tag {t : Tag} (h : t.IsProper) :
  Passes t.text
  := by
  obtain ⟨name, attributes⟩ := t
  obtain ⟨hname, hkeys, -, hvalues⟩ := h
  apply (passes_name hname.chars).append
  dsimp only at hkeys hvalues ⊢
  clear hname
  induction attributes with
  | nil => exact passes_nil
  | cons a rest ih =>
    obtain ⟨hkey, hkeys⟩ := List.forall_mem_cons.mp hkeys
    obtain ⟨hvalue, hvalues⟩ := List.forall_mem_cons.mp hvalues
    have hspace : Passes [' '] := passes_plain (List.forall_mem_singleton.mpr (by decide))
    have hequals : Passes ['='] := passes_plain (List.forall_mem_singleton.mpr (by decide))
    have hattribute : attributeText a
        = [' '] ++ (a.1 ++ (['='] ++ ('\x22' :: a.2 ++ ['\x22']))) := by simp [attributeText]
    rw [List.flatMap_cons, hattribute]
    exact (hspace.append ((passes_name hkey.chars).append
      (hequals.append (passes_quoted hvalue)))).append (ih hkeys hvalues)

/-- What stands between brackets is scanned as one tag, unless it begins something else. -/
theorem foldlM_tag {c : Char} {content : List Char} (h : Passes (c :: content)) (hbang : c ≠ '!')
    (hquestion : c ≠ '?') (read : List Char) (pieces : List Piece) :
  ('<' :: (c :: content) ++ ['>']).foldlM Scan.step (.text read, pieces)
    = some (.text [], .tag (c :: content) :: endText read pieces)
  := by
  have hopen : Scan.step (.text read, pieces) '<' = some (.opened, endText read pieces) := rfl
  have hfirst : Scan.step (.opened, endText read pieces) c
      = Scan.step (.tag [] none, endText read pieces) c := by
    rw [Scan.step, if_neg hbang, if_neg hquestion, Scan.step]
  have hcontent := h [] (endText read pieces)
  rw [List.foldlM_cons] at hcontent
  rw [List.cons_append, List.foldlM_cons, hopen]
  change (c :: content ++ ['>']).foldlM Scan.step (.opened, endText read pieces) = _
  rw [List.foldlM_append, List.foldlM_cons, hfirst, hcontent, List.append_nil]
  simp [Scan.step, stepTag]

/-- Text is scanned up to the next bracket. -/
theorem foldlM_text {content : List Char} (h : '<' ∉ content) (read : List Char)
    (pieces : List Piece) :
  content.foldlM Scan.step (.text read, pieces) = some (.text (content.reverse ++ read), pieces)
  := by
  induction content generalizing read with
  | nil => rfl
  | cons c content ih =>
    obtain ⟨hc, hcontent⟩ := not_or.mp (mt List.mem_cons.mpr h)
    have hstep : Scan.step (.text read, pieces) c = some (.text (c :: read), pieces) := by
      rw [Scan.step, if_neg (Ne.symm hc)]
    rw [List.foldlM_cons, hstep]
    change content.foldlM Scan.step _ = _
    rw [ih hcontent, List.reverse_cons, List.append_assoc]
    rfl

/-- In a comment without two hyphens in a row, nothing ends it. -/
theorem foldlM_comment {content : List Char} (h : ¬ ['-', '-'] <:+: content)
    (pieces : List Piece) :
  content.foldlM Scan.step (.comment ['-', '-', '!'], pieces)
    = some (.comment (content.reverse ++ ['-', '-', '!']), pieces)
  := by
  induction content using List.reverseRecOn with
  | nil => rfl
  | append_singleton content c ih =>
    have hcontent : ¬ ['-', '-'] <:+: content := by
      intro hmark
      exact h (hmark.trans (List.prefix_append content [c]).isInfix)
    have hlast : (c = '>' && 4 < (content.reverse ++ ['-', '-', '!']).length
        && ['-', '-'].isPrefixOf (content.reverse ++ ['-', '-', '!'])) = false := by
      rcases hreverse : content.reverse with _ | ⟨d, _ | ⟨e, rest⟩⟩
      · simp
      · simp
      · apply eq_false_of_ne_true
        intro htrue
        simp only [List.cons_append, List.isPrefixOf, Bool.and_eq_true, beq_iff_eq] at htrue
        obtain ⟨-, rfl, rfl, -⟩ := htrue
        rw [List.reverse_eq_iff] at hreverse
        apply hcontent
        rw [hreverse]
        exact ⟨rest.reverse, [], by simp⟩
    rw [List.foldlM_append, ih hcontent]
    change [c].foldlM Scan.step (.comment _, pieces) = _
    rw [List.foldlM_cons, Scan.step, hlast, if_neg Bool.false_ne_true, List.reverse_append]
    rfl

/-- In an instruction, nothing but its mark ends it. -/
theorem foldlM_instruction {content : List Char} (h : ¬ ['?', '>'] <:+: '?' :: content)
    (pieces : List Piece) :
  content.foldlM Scan.step (.instruction ['?'], pieces)
    = some (.instruction (content.reverse ++ ['?']), pieces)
  := by
  induction content using List.reverseRecOn with
  | nil => rfl
  | append_singleton content c ih =>
    have hcontent : ¬ ['?', '>'] <:+: '?' :: content := by
      intro hmark
      exact h (hmark.trans (List.prefix_append ('?' :: content) [c]).isInfix)
    have hlast : (c = '>' && (content.reverse ++ ['?']).head? = some '?') = false := by
      apply eq_false_of_ne_true
      intro htrue
      rw [Bool.and_eq_true, decide_eq_true_eq, decide_eq_true_eq] at htrue
      obtain ⟨rfl, hhead⟩ := htrue
      obtain ⟨rest, hrest⟩ := List.head?_eq_some_iff.mp hhead
      have hmarked : '?' :: content = rest.reverse ++ ['?'] := by
        simpa using congrArg List.reverse hrest
      apply h
      rw [← List.cons_append, hmarked]
      exact ⟨rest.reverse, [], by simp⟩
    rw [List.foldlM_append, ih hcontent]
    change [c].foldlM Scan.step (.instruction _, pieces) = _
    rw [List.foldlM_cons, Scan.step, hlast, if_neg Bool.false_ne_true, List.reverse_append]
    rfl

/-! ### Sequences of tokens -/

/-- The pieces of tokens that follow text that has been scanned, the latest character first. -/
def piecesFrom (read : List Char) : List Token → List Piece
  | [] => endText read []
  | .text spellings :: rest => piecesFrom ((spellings.flatMap Spelling.text).reverse ++ read) rest
  | token :: rest => endText read [] ++ token.pieces ++ piecesFrom [] rest

theorem reverse_endText (read : List Char) (pieces : List Piece) :
  (endText read pieces).reverse = pieces.reverse ++ endText read []
  := by
  unfold endText
  split
  · exact (List.append_nil _).symm
  · exact List.reverse_cons

theorem exists_cons_of_isName {name : List Char} (h : IsName name) :
  ∃ c rest, name = c :: rest ∧ isNameChar c = true
  := by
  obtain ⟨hne, hchars⟩ := h
  cases name with
  | nil => exact absurd rfl hne
  | cons c rest => exact ⟨c, rest, rfl, hchars c List.mem_cons_self⟩

/-- The first character of a tag shows that it is one. -/
theorem exists_cons_of_isProper {t : Tag} (h : t.IsProper) :
  ∃ c rest, t.text = c :: rest ∧ isNameChar c = true
  := by
  obtain ⟨c, rest, hname, hc⟩ := exists_cons_of_isName h.name
  refine ⟨c, rest ++ t.attributes.flatMap attributeText, ?_, hc⟩
  rw [Tag.text, hname]
  rfl

/-- A token that is no text ends the text before it. -/
theorem foldlM_written {token : Token} (h : token.IsProper)
    (hmarkup : ∀ spellings, token ≠ .text spellings) (read : List Char) (pieces : List Piece) :
  token.written.foldlM Scan.step (.text read, pieces)
    = some (.text [], token.pieces.reverse ++ endText read pieces)
  := by
  cases token with
  | text spellings => exact absurd rfl (hmarkup spellings)
  | start t =>
    obtain ⟨c, content, htext, hc⟩ := exists_cons_of_isProper h
    have hpasses := passes_tag h
    rw [htext] at hpasses
    rw [Token.written, Token.pieces, htext]
    exact foldlM_tag hpasses (ne_of_isNameChar hc rfl) (ne_of_isNameChar hc rfl) read pieces
  | empty t =>
    obtain ⟨c, content, htext, hc⟩ := exists_cons_of_isProper h
    have hslash : Passes ['/'] := passes_plain (List.forall_mem_singleton.mpr (by decide))
    have hpasses := (passes_tag h).append hslash
    rw [htext] at hpasses
    rw [Token.written, Token.pieces, htext]
    exact foldlM_tag hpasses (ne_of_isNameChar hc rfl) (ne_of_isNameChar hc rfl) read pieces
  | stop name =>
    have hslash : Passes ['/'] := passes_plain (List.forall_mem_singleton.mpr (by decide))
    exact foldlM_tag (hslash.append (passes_name h.chars)) (by decide) (by decide) read pieces
  | comment content =>
    change (content ++ ['-', '-', '>']).foldlM Scan.step
      (.comment ['-', '-', '!'], endText read pieces) = _
    rw [List.foldlM_append, foldlM_comment h]
    simp [Scan.step, endComment?, Token.pieces]
  | instruction content =>
    change (content ++ ['?', '>']).foldlM Scan.step (.instruction ['?'], endText read pieces) = _
    rw [List.foldlM_append, foldlM_instruction h]
    simp [Scan.step, Token.pieces]

theorem piecesFrom_cons {token : Token} (hmarkup : ∀ spellings, token ≠ .text spellings)
    (read : List Char) (rest : List Token) :
  piecesFrom read (token :: rest) = endText read [] ++ token.pieces ++ piecesFrom [] rest
  := by
  cases token with
  | text spellings => exact absurd rfl (hmarkup spellings)
  | _ => rfl

/-- Tokens are scanned as their pieces. -/
theorem foldlM_tokens {tokens : List Token} (h : ∀ token ∈ tokens, token.IsProper)
    (read : List Char) (pieces : List Piece) :
  ((tokens.flatMap Token.written).foldlM Scan.step (.text read, pieces)).bind Scan.finish
    = some (pieces.reverse ++ piecesFrom read tokens)
  := by
  induction tokens generalizing read pieces with
  | nil => exact congrArg some (reverse_endText read pieces)
  | cons token rest ih =>
    obtain ⟨htoken, hrest⟩ := List.forall_mem_cons.mp h
    rw [List.flatMap_cons, List.foldlM_append]
    by_cases htext : ∃ spellings, token = .text spellings
    · obtain ⟨spellings, rfl⟩ := htext
      have hopen : '<' ∉ spellings.flatMap Spelling.text := by
        intro hmem
        obtain ⟨s, hs, hmem⟩ := List.mem_flatMap.mp hmem
        exact Spelling.not_mem_text (htoken s hs) hmem
      rw [Token.written, foldlM_text hopen]
      exact ih hrest _ _
    · have hmarkup : ∀ spellings, token ≠ .text spellings :=
        fun spellings hspellings => htext ⟨spellings, hspellings⟩
      rw [foldlM_written htoken hmarkup, piecesFrom_cons hmarkup]
      change ((rest.flatMap Token.written).foldlM Scan.step (.text [], _)).bind _ = _
      rw [ih hrest, List.reverse_append, reverse_endText, List.reverse_reverse, List.append_assoc,
        List.append_assoc, List.append_assoc]

/-- Character data that have been read, which are no event if there are none. -/
def textEvent (pending : List Char) : List Event :=
  if pending.isEmpty then [] else [.text pending]

/-- The events of tokens that follow character data.  Character data next to each other are one
event. -/
def eventsFrom (pending : List Char) : List Token → List Event
  | [] => textEvent pending
  | .text spellings :: rest => eventsFrom (pending ++ spellings.map Spelling.char) rest
  | token :: rest => textEvent pending ++ token.events ++ eventsFrom [] rest

/-- Every tag that ends an element names the one that is open. -/
def Nests (opened : List (List Char)) : List Token → Prop
  | [] => True
  | .start t :: rest => Nests (t.name :: opened) rest
  | .stop name :: rest => ∃ outer, opened = name :: outer ∧ Nests outer rest
  | _ :: rest => Nests opened rest

variable {opened : List (List Char)}

/-- Text in spellings is read as its characters. -/
theorem foldlM_endText {pending : List Spelling} (h : ∀ s ∈ pending, s.IsProper)
    (opened : List (List Char)) (events : List Event) :
  (endText (pending.flatMap Spelling.text).reverse []).foldlM stepPiece? (opened, events)
    = some (opened, (textEvent (pending.map Spelling.char)).reverse ++ events)
  := by
  cases pending with
  | nil => rfl
  | cons s rest =>
    have htext : ((s :: rest).flatMap Spelling.text).reverse.isEmpty = false := by
      rw [List.isEmpty_reverse, List.flatMap_cons]
      obtain ⟨c, text, hs⟩ := List.exists_cons_of_ne_nil s.text_ne_nil
      rw [hs]
      rfl
    rw [endText, htext, if_neg Bool.false_ne_true, List.reverse_reverse, List.foldlM_cons,
      stepPiece?, unescape?_spellings h]
    rfl

/-- The last character of a tag is one of its name or a quotation mark. -/
theorem getLast?_text {t : Tag} (h : t.IsProper) :
  t.text.getLast? ≠ some '/'
  := by
  obtain ⟨name, attributes⟩ := t
  rw [Tag.text]
  rcases List.eq_nil_or_concat attributes with rfl | ⟨before, a, rfl⟩
  · intro hlast
    have hmem : '/' ∈ name := by
      simpa using List.mem_of_getLast? hlast
    exact ne_of_isNameChar (h.name.chars '/' hmem) rfl rfl
  · have hquote : name ++ (before.concat a).flatMap attributeText
        = (name ++ before.flatMap attributeText ++ (' ' :: a.1 ++ '=' :: '\x22' :: a.2))
          ++ ['\x22'] := by simp [attributeText]
    rw [hquote, List.getLast?_concat]
    decide

/-- A tag is read as the event that it is. -/
theorem stepTagContent?_text {t : Tag} (h : t.IsProper) (opened : List (List Char))
    (events : List Event) :
  stepTagContent? opened events t.text = some (t.name :: opened, .start t :: events)
  := by
  obtain ⟨c, content, htext, hc⟩ := exists_cons_of_isProper h
  rw [stepTagContent?, if_neg (getLast?_text h), Tag.ofContent_text h]
  intro rest hrest
  rw [htext] at hrest
  exact ne_of_isNameChar hc rfl (List.cons.inj hrest).1

theorem stepTagContent?_empty {t : Tag} (h : t.IsProper) (opened : List (List Char))
    (events : List Event) :
  stepTagContent? opened events (t.text ++ ['/']) = some (opened, .empty t :: events)
  := by
  obtain ⟨c, content, htext, hc⟩ := exists_cons_of_isProper h
  rw [stepTagContent?, if_pos List.getLast?_concat, List.dropLast_concat, Tag.ofContent_text h]
  intro rest hrest
  rw [htext] at hrest
  exact ne_of_isNameChar hc rfl (List.cons.inj hrest).1

theorem stepTagContent?_stop {name : List Char} (h : IsName name) (opened : List (List Char))
    (events : List Event) :
  stepTagContent? (name :: opened) events ('/' :: name) = some (opened, .stop name :: events)
  := by
  have hspaces : name.reverse.dropWhile isSpace = name.reverse := by
    cases hreverse : name.reverse with
    | nil => rfl
    | cons c rest =>
      have hc : c ∈ name := by
        rw [← List.mem_reverse, hreverse]
        exact List.mem_cons_self
      rw [List.dropWhile_cons_of_neg]
      rw [isSpace_of_isNameChar (h.chars c hc)]
      exact Bool.false_ne_true
  have hempty : name.isEmpty = false := List.isEmpty_eq_false_iff.mpr h.nonempty
  rw [stepTagContent?, hspaces, List.reverse_reverse, hempty, if_neg Bool.false_ne_true,
    if_pos rfl]

theorem eventsFrom_cons {token : Token} (hmarkup : ∀ spellings, token ≠ .text spellings)
    (pending : List Char) (rest : List Token) :
  eventsFrom pending (token :: rest) = textEvent pending ++ token.events ++ eventsFrom [] rest
  := by
  cases token with
  | text spellings => exact absurd rfl (hmarkup spellings)
  | _ => rfl

/-- The piece of a token that is no text is read as its event. -/
theorem foldlM_pieces {token : Token} (h : token.IsProper)
    (hmarkup : ∀ spellings, token ≠ .text spellings) {rest : List Token}
    (hnests : Nests opened (token :: rest)) (events : List Event) :
  ∃ outer, Nests outer rest ∧ token.pieces.foldlM stepPiece? (opened, events)
    = some (outer, token.events.reverse ++ events)
  := by
  cases token with
  | text spellings => exact absurd rfl (hmarkup spellings)
  | start t =>
    refine ⟨t.name :: opened, hnests, ?_⟩
    rw [Token.pieces, List.foldlM_cons, stepPiece?, stepTagContent?_text h]
    rfl
  | empty t =>
    refine ⟨opened, hnests, ?_⟩
    rw [Token.pieces, List.foldlM_cons, stepPiece?, stepTagContent?_empty h]
    rfl
  | stop name =>
    obtain ⟨outer, rfl, hnests⟩ := hnests
    refine ⟨outer, hnests, ?_⟩
    rw [Token.pieces, List.foldlM_cons, stepPiece?, stepTagContent?_stop h]
    rfl
  | comment content => exact ⟨opened, hnests, rfl⟩
  | instruction content => exact ⟨opened, hnests, rfl⟩

/-- The pieces of tokens are read as their events. -/
theorem foldlM_piecesFrom {pending : List Spelling} (hpending : ∀ s ∈ pending, s.IsProper)
    {tokens : List Token} (h : ∀ token ∈ tokens, token.IsProper) (hnests : Nests opened tokens)
    (events : List Event) :
  ∃ opened', (piecesFrom (pending.flatMap Spelling.text).reverse tokens).foldlM stepPiece?
      (opened, events)
    = some (opened', (eventsFrom (pending.map Spelling.char) tokens).reverse ++ events)
  := by
  induction tokens generalizing pending opened events with
  | nil => exact ⟨opened, foldlM_endText hpending opened events⟩
  | cons token rest ih =>
    obtain ⟨htoken, hrest⟩ := List.forall_mem_cons.mp h
    by_cases htext : ∃ spellings, token = .text spellings
    · obtain ⟨spellings, rfl⟩ := htext
      have hall : ∀ s ∈ pending ++ spellings, s.IsProper :=
        List.forall_mem_append.mpr ⟨hpending, htoken⟩
      obtain ⟨opened', hfold⟩ := ih hall hrest hnests events
      rw [List.flatMap_append, List.reverse_append, List.map_append] at hfold
      exact ⟨opened', hfold⟩
    · have hmarkup : ∀ spellings, token ≠ .text spellings :=
        fun spellings hspellings => htext ⟨spellings, hspellings⟩
      let before := (textEvent (pending.map Spelling.char)).reverse ++ events
      obtain ⟨outer, hnests, htoken⟩ := foldlM_pieces htoken hmarkup hnests before
      obtain ⟨opened', hfold⟩ := ih (List.forall_mem_nil _) hrest hnests
        (token.events.reverse ++ before)
      refine ⟨opened', ?_⟩
      rw [piecesFrom_cons hmarkup, eventsFrom_cons hmarkup, List.foldlM_append,
        List.foldlM_append, foldlM_endText hpending]
      change ((token.pieces.foldlM stepPiece? (opened, before)).bind _) = _
      rw [htoken]
      apply hfold.trans
      simp [before]

/-- A text that is written token by token is read as the events of its tokens. -/
theorem ofText?_of_tokens {tokens : List Token} (h : ∀ token ∈ tokens, token.IsProper)
    (hnests : Nests [] tokens) :
  Event.ofText? (tokens.flatMap Token.written) = some (eventsFrom [] tokens)
  := by
  have hnone : ∀ s ∈ ([] : List Spelling), s.IsProper := List.forall_mem_nil _
  have hpieces : Piece.ofText? (tokens.flatMap Token.written) = some (piecesFrom [] tokens) :=
    foldlM_tokens h [] []
  obtain ⟨opened', hevents⟩ := foldlM_piecesFrom hnone h hnests []
  change (piecesFrom [] tokens).foldlM stepPiece? ([], []) = _ at hevents
  rw [Event.ofText?, hpieces]
  change ((piecesFrom [] tokens).foldlM stepPiece? ([], [])).bind _ = _
  rw [hevents]
  simp

end Bindery.Xml
