import Bindery.Proofs.Compile.Abreast

/-!
# Reused directories

What a directory holds from earlier times does not change the verdict of compiling in it.  Two
runs whose trees look alike off the log and the artifact give results that agree, if the
compiler only appends to the log (`agrees_of_setOut`).  And what comes before the last pass has
no part in the verdict, whatever the two trees are (`Closes.succeeds_iff`).  A compiler that
empties the log is not covered, for the log is read from where it ended before the last pass
(`overwriting`).
-/

namespace Bindery.Compile

open Machine Bindery.Tree

variable {c : Course} {cwd : Location} {t : Task} {T T' S : Tree} {e : Ending}

/-! ### Verdicts in two runs -/

/-- What the compiler comes to on one tree it comes to on the other, up to the log. -/
theorem Reaches.setOut (hc : ∀ i, Blind (c i) cwd t) (hT : SetOut cwd t T T')
    {endings : List Ending} (h : Reaches c cwd t T endings S) :
  ∃ S', Reaches c cwd t T' endings S' ∧ Alike (· = t.logPlace cwd) S S'
  := by
  induction h with
  | start cleared =>
    obtain ⟨S', cleared', halike⟩ := cleared.alike hT
    exact ⟨S', .start cleared', halike⟩
  | @pass endings _ _ _ before completes ih =>
    obtain ⟨S₁, before', halike⟩ := ih
    obtain ⟨S', out, completes', habreast⟩ := completes.abreast (hc endings.length) halike
    exact ⟨S', before'.pass completes', habreast.alike⟩

theorem Succeeds.setOut (hc : ∀ i, Blind (c i) cwd t) (hT : SetOut cwd t T T')
    (h : Succeeds c cwd t T e) :
  Succeeds c cwd t T' e
  := by
  obtain ⟨e₁, T₁, T₂, reached, last, excused, present⟩ := h
  obtain ⟨T₁', reached', halike⟩ := reached.setOut hc hT
  obtain ⟨T₂', out, last', habreast⟩ := last.abreast (hc 1) halike
  refine ⟨e₁, T₁', T₂', reached', last', ?_, ?_⟩
  · rcases excused with he | hsign
    · exact Or.inl he
    · right
      rw [bytesAt_of_hasRoom last'.hasRoom, ← habreast.drop_bytesAt,
        ← bytesAt_of_hasRoom last.hasRoom]
      exact hsign
  · rw [← habreast.exists? t.artifact]
    exact present

/-- The passes on record in one run are the first ones on record in the other. -/
theorem Recorded.isPrefix (hc : ∀ i, Blind (c i) cwd t) (hT : SetOut cwd t T T')
    {endings endings' : List Ending} (h : Recorded c cwd t T endings)
    (h' : Recorded c cwd t T' endings') :
  endings <+: endings'
  := by
  rcases h.reached with rfl | ⟨S, reached⟩
  · apply List.nil_prefix
  · obtain ⟨S', reached', -⟩ := reached.setOut hc hT
    exact h'.longest reached' h.length_le

/-- The results agree in what they say of success, of the artifact, and of the passes. -/
structure Agrees (r r' : Compilation) : Prop where
  success : r.success = r'.success
  softWarning : r.softWarning = r'.softWarning
  artifact : r.artifact = r'.artifact
  exitCodes : r.passes.map Pass.exitCode = r'.passes.map Pass.exitCode

/-- Two verdicts are the same if they have the same right to succeed. -/
theorem success_eq_of_verdicts {c' : Course} {cwd' : Location} {t' : Task} {r r' : Compilation}
    (h : Verdict c cwd t T r) (h' : Verdict c' cwd' t' T' r')
    (hsucceeds : ∀ e, Succeeds c cwd t T e ↔ Succeeds c' cwd' t' T' e) :
  r.success = r'.success ∧ r.softWarning = r'.softWarning
  := by
  constructor
  · apply Bool.eq_iff_iff.mpr
    rw [h.success_iff, h'.success_iff]
    exact exists_congr hsucceeds
  · apply Bool.eq_iff_iff.mpr
    rw [h.softWarning_iff, h'.softWarning_iff]
    apply exists_congr
    intro e
    rw [hsucceeds]

/-- Two runs that set out from trees that look alike off the log and the artifact agree. -/
theorem agrees_of_setOut {r r' : Compilation} (hc : ∀ i, Blind (c i) cwd t)
    (hT : SetOut cwd t T T') (h : Verdict c cwd t T r) (h' : Verdict c cwd t T' r') :
  Agrees r r'
  := by
  obtain ⟨hsuccess, hwarning⟩ := success_eq_of_verdicts h h'
    fun e => ⟨Succeeds.setOut hc hT, Succeeds.setOut hc hT.symm⟩
  obtain ⟨endings, hpasses, hrecorded⟩ := h.exists_recorded
  obtain ⟨endings', hpasses', hrecorded'⟩ := h'.exists_recorded
  have hprefix := hrecorded.isPrefix hc hT hrecorded'
  have hprefix' := hrecorded'.isPrefix hc hT.symm hrecorded
  have heq : endings = endings' :=
    hprefix.eq_of_length (Nat.le_antisymm hprefix.length_le hprefix'.length_le)
  constructor
  · exact hsuccess
  · exact hwarning
  · rw [h.artifact_eq, h'.artifact_eq, hsuccess]
  · rw [hpasses, hpasses', heq]

/-! ### The last pass alone -/

/-- Both passes run to their ends, the last one with an ending, after which the log has some
more bytes, and the artifact is there or not. -/
def Closes (c : Course) (cwd : Location) (t : Task) (T : Tree) (e : Ending) (out : Bytes)
    (present : Bool) : Prop :=
  ∃ e₁ T₁ ended T₂, Reaches c cwd t T [e₁] T₁ ∧ Ends (c 1) cwd t T₁ e ended
    ∧ ended.bytesAt cwd t.log = T₁.bytesAt cwd t.log ++ out
    ∧ Signed cwd t ended e T₂ ∧ T₂.exists? cwd t.artifact = present

/-- A run that failed leaves one line at the end of the log. -/
theorem Signed.bytesAt (h : Signed cwd t T e S) (he : e ≠ .exited 0) :
  S.bytesAt cwd t.log
    = T.bytesAt cwd t.log ++ Text.utf8 (failureLine t.config.program e.code?).toList
  := by
  rw [Signed, if_neg he] at h
  obtain ⟨log, opened, hopen, rfl⟩ := h
  obtain ⟨hroom, hopens⟩ := openFile_eq_ok_iff.mp hopen
  obtain ⟨mode, hfile⟩ := hopens.lookup_kept
  have hdirs (k) : T.isDirAt k = (opened.append log
      (Text.utf8 (failureLine t.config.program e.code?).toList)).isDirAt k := by
    rw [isDirAt_append, hopens.isDirAt]
  rw [bytesAt_of_hasRoom hroom, bytesAt_of_hasRoom ((hasRoom_congr hdirs cwd t.log).mp hroom),
    contents_of_lookup (lookup_append_self hfile _)]

/-- Whether a compilation can succeed is a matter of how its last pass ends, what it prints,
and whether the artifact is there. -/
theorem Closes.succeeds_iff {out : Bytes} {present : Bool} (h : Closes c cwd t T e out present)
    (e' : Ending) :
  Succeeds c cwd t T e' ↔ e' = e ∧ present ∧ (e = .exited 0
    ∨ Text.utf8 missingFileSign.toList
      <:+: out ++ Text.utf8 (failureLine t.config.program e.code?).toList)
  := by
  obtain ⟨e₁, T₁, ended, T₂, reached, hends, hout, hsigned, hpresent⟩ := h
  have last : Completes (c 1) cwd t T₁ e T₂ := ⟨ended, hends, hsigned⟩
  have hexcused : Excused cwd t T₁ e T₂ ↔ e = .exited 0 ∨ Text.utf8 missingFileSign.toList
      <:+: out ++ Text.utf8 (failureLine t.config.program e.code?).toList := by
    by_cases he : e = .exited 0
    · exact iff_of_true (Or.inl he) (Or.inl he)
    · rw [Excused, hsigned.bytesAt he, hout, List.append_assoc, List.drop_left]
  rw [← hexcused, ← hpresent]
  constructor
  · intro he'
    obtain ⟨rfl, excused, present⟩ := he'.eq_of_reaches reached rfl last
    exact ⟨rfl, present, excused⟩
  · rintro ⟨rfl, present, excused⟩
    exact ⟨e₁, T₁, T₂, reached, last, excused, present⟩

/-! ### Compilers that print, and compilers that overwrite -/

/-- The tree after an attempt to write a file. -/
def written (T : Tree) (cwd : Location) (p : Path) (bytes : Bytes) : Tree :=
  (T.write cwd p bytes).toOption.getD T

theorem alike_written {off : Location → Prop} (h : Alike off T T') (cwd : Location) (p : Path)
    (bytes : Bytes) :
  Alike off (written T cwd p bytes) (written T' cwd p bytes)
  := by
  unfold written
  cases hwrite : T.write cwd p bytes with
  | ok S =>
    obtain ⟨S', hwrite', hS⟩ := h.write hwrite
    rw [hwrite']
    exact hS
  | error cause =>
    cases hwrite' : T'.write cwd p bytes with
    | ok S' =>
      obtain ⟨S, hS, -⟩ := h.symm.write hwrite'
      rw [hwrite] at hS
      cases hS
    | error cause' => exact h

/-- Writing another file leaves the log as it is. -/
theorem abreast_written {l : Location} {b b' : Bytes} (h : Abreast l T T' b b') {p : Path}
    (hp : l ≠ (p.place cwd).location) (bytes : Bytes) :
  Abreast l (written T cwd p bytes) (written T' cwd p bytes) b b'
  := by
  have hlookup (U : Tree) : (written U cwd p bytes).lookup l = U.lookup l := by
    unfold written
    cases hwrite : U.write cwd p bytes with
    | ok S => exact lookup_write_of_ne hwrite hp
    | error cause => rfl
  constructor
  · exact alike_written h.alike cwd p bytes
  · rw [hlookup]
    exact h.file
  · rw [hlookup]
    exact h.file'

/-- An earlier log makes a difference at its own location only. -/
theorem setOut_of_write {bytes : Bytes} (hlog : T.write cwd t.log bytes = .ok S)
    (hclears : (∃ T₁, Cleared T cwd t.artifact T₁) ↔ ∃ T₁, Cleared S cwd t.artifact T₁) :
  SetOut cwd t T S
  := by
  constructor
  · constructor
    · intro k hk
      have hlocation : k ≠ (t.log.place cwd).location := by
        rintro rfl
        exact hk (Or.inl (named_of_write hlog))
      rw [shown, shown, lookup_write_of_ne hlog hlocation]
    · intro k
      rw [isDirAt_write hlog]
  · exact hclears

/-- A document in the current directory. -/
def sample : Task where
  config := {}
  directory := ⟨"."⟩
  fileName := "merged.tex"
  announces := false

/-- A directory with nothing in it but a log, which is one byte long. -/
def logged : Tree where
  nodes := [(["latex_output.log"], .file 0 newFileMode [0x0a])]
  nextSerial := 1

theorem setOut_logged :
  SetOut [] sample {} logged
  := by
  have hlog : ({} : Tree).write [] sample.log [0x0a] = .ok logged := by decide +kernel
  apply setOut_of_write hlog
  apply iff_of_true
  · exact ⟨_, Or.inr ⟨by decide +kernel, rfl⟩⟩
  · exact ⟨_, Or.inr ⟨by decide +kernel, rfl⟩⟩

/-- A compiler that prints some bytes, writes an empty artifact, and exits. -/
def printing (code : Nat) (out : Bytes) : Programs :=
  fun i cwd T => (.ok (.exited code),
    written (i.output.elim T fun log => T.append log out) cwd ⟨"merged.pdf"⟩ [])

theorem blind_printing (code : Nat) (out : Bytes) :
  Blind (printing code out) [] sample
  := by
  intro T T' b b' log log' h hlog hlog'
  use rfl, out
  apply abreast_written (h.append hlog hlog' out)
  decide +kernel

/-- A compiler that prints in the first pass only. -/
def talking (out : Bytes) : Course
  | 0 => printing 0 out
  | _ => printing 0 []

theorem closes_talking (out : Bytes) :
  Closes (talking out) [] sample {} (.exited 0) [] true
  := by
  let artifact : Location × Node := (["merged.pdf"], .file 1 newFileMode [])
  let log (bytes : Bytes) : Location × Node :=
    (["latex_output.log"], .file 0 newFileMode bytes)
  let after (bytes : Bytes) : Tree := {
    nodes := [artifact, log bytes]
    nextSerial := 2
    numbered := show List.Nodup [1, 0] ∧ ∀ serial ∈ [1, 0], serial < 2 by decide }
  have cleared : Cleared {} [] sample.artifact {} := Or.inr ⟨by decide +kernel, rfl⟩
  have first : Completes (talking out 0) [] sample {} (.exited 0) (after out) := by
    refine ⟨after out, ⟨0, { nodes := [log []], nextSerial := 1 }, rfl, rfl, trivial⟩, ?_⟩
    rw [Signed, if_pos rfl]
  refine ⟨.exited 0, after out, after (out ++ []), after (out ++ []),
    .pass (.start cleared) first, ?_, ?_, ?_, ?_⟩
  · exact ⟨0, (after out).set (log out).1 (log out).2, rfl, rfl, trivial⟩
  · rfl
  · rw [Signed, if_pos rfl]
  · rfl

/-- Surroundings for a course, in which nothing else is found. -/
def bare : Surroundings where
  programs := fun _ _ T => (.error .notFound, T)

/-! ### The verdict in a reused directory -/

/-- Two runs with the same arguments, in directories that look alike off the log and the
artifact, agree if the compiler only appends to the log and does not depend on what the log held
before.  And two runs of any kind with the same configuration, whose passes run to their ends
and whose last passes end and print alike and leave the artifact in both or in none, have the
same verdict. -/
theorem verdict_of_reuse (config : CompilerConfig) :
  (∀ (s : Surroundings) (c : Course) (m m' : Machine) (announces : Bool)
      (document directory : Path), m.cwd = m'.cwd →
    (∀ fileName, document.fileName? = some fileName →
      (∀ i, Blind (c i) m.cwd { config, directory, fileName, announces })
        ∧ SetOut m.cwd { config, directory, fileName, announces } m.tree m'.tree) →
    Agrees (runInTurn s c (compile config announces document directory) (m, 0)).1
      (runInTurn s c (compile config announces document directory) (m', 0)).1)
    ∧ ∀ (s s' : Surroundings) (c c' : Course) (m m' : Machine) (t t' : Task)
      (document document' : Path) (e : Ending) (out : Bytes) (present : Bool),
    t.config = config → t'.config = config →
    document.fileName? = some t.fileName → document'.fileName? = some t'.fileName →
    Closes c m.cwd t m.tree e out present → Closes c' m'.cwd t' m'.tree e out present →
    let r := (runInTurn s c (compile t.config t.announces document t.directory) (m, 0)).1
    let r' := (runInTurn s' c' (compile t'.config t'.announces document' t'.directory) (m', 0)).1
    r.success = r'.success ∧ r.softWarning = r'.softWarning
  := by
  constructor
  · intro s c m m' announces document directory hcwd halike
    cases hname : document.fileName? with
    | none =>
      obtain ⟨_, hr⟩ := compile_of_no_fileName s c m config announces hname directory
      obtain ⟨_, hr'⟩ := compile_of_no_fileName s c m' config announces hname directory
      rw [hr, hr']
      exact ⟨rfl, rfl, rfl, rfl⟩
    | some fileName =>
      obtain ⟨hc, hT⟩ := halike fileName hname
      have h' := verdict_of_compile s c m' config announces hname directory
      rw [← hcwd] at h'
      apply agrees_of_setOut hc hT _ h'
      apply verdict_of_compile s c m config announces hname directory
  · intro s s' c c' m m' t t' document document' e out present hconfig hconfig' hname hname'
      hcloses hcloses'
    have h := verdict_of_compile s c m t.config t.announces hname t.directory
    have h' := verdict_of_compile s' c' m' t'.config t'.announces hname' t'.directory
    apply success_eq_of_verdicts h h'
    intro e'
    rw [hcloses.succeeds_iff, hcloses'.succeeds_iff, hconfig, hconfig']

theorem verdict_of_reuse_sample :
  Agrees
      (runInTurn bare (fun _ => printing 1 (Text.utf8 missingFileSign.toList))
        (compile {} false ⟨"merged.tex"⟩ ⟨"."⟩) ({ tree := {} }, 0)).1
      (runInTurn bare (fun _ => printing 1 (Text.utf8 missingFileSign.toList))
        (compile {} false ⟨"merged.tex"⟩ ⟨"."⟩) ({ tree := logged }, 0)).1
    ∧ (runInTurn bare (talking (Text.utf8 missingFileSign.toList))
        (compile {} false ⟨"merged.tex"⟩ ⟨"."⟩) ({ tree := {} }, 0)).1.success
      = (runInTurn bare (talking []) (compile {} false ⟨"merged.tex"⟩ ⟨"."⟩)
        ({ tree := {} }, 0)).1.success
  := by
  have hname : (⟨"merged.tex"⟩ : Path).fileName? = some "merged.tex" := by decide +kernel
  constructor
  · apply (verdict_of_reuse {}).1
    · rfl
    · intro fileName h
      rw [hname] at h
      cases h
      exact ⟨fun _ => blind_printing _ _, setOut_logged⟩
  · exact ((verdict_of_reuse {}).2 bare bare _ _ { tree := {} } { tree := {} } sample sample
      ⟨"merged.tex"⟩ ⟨"merged.tex"⟩ _ _ _ rfl rfl hname hname
      (closes_talking (Text.utf8 missingFileSign.toList)) (closes_talking [])).1

/-- What a program does off some locations does not depend on what is there. -/
def Indifferent (off : Location → Prop) (p : Programs) : Prop :=
  ∀ i i' cwd T T', Alike off T T' →
    (p i cwd T).1 = (p i' cwd T').1 ∧ Alike off (p i cwd T).2 (p i' cwd T').2

/-- A compiler that does nothing in the first pass, and in the last one writes an artifact and
the log anew, and fails for want of a file. -/
def overwriting : Course
  | 0 => fun _ _ T => (.ok (.exited 0), T)
  | _ => fun _ cwd T => (.ok (.exited 1),
    written (written T cwd ⟨"latex_output.log"⟩ (Text.utf8 missingFileSign.toList)) cwd
      ⟨"merged.pdf"⟩ [])

/-- A compiler that does not append to the log need not get the same verdict in a directory that
it has been used in, even if nothing that it does depends on the log and the artifact. -/
theorem overwriting_verdict :
  (∀ off i, Indifferent off (overwriting i)) ∧ SetOut [] sample {} logged
    ∧ (runInTurn bare overwriting (compile {} false ⟨"merged.tex"⟩ ⟨"."⟩)
        ({ tree := {} }, 0)).1.success = true
    ∧ (runInTurn bare overwriting (compile {} false ⟨"merged.tex"⟩ ⟨"."⟩)
        ({ tree := logged }, 0)).1.success = false
  := by
  refine ⟨?_, setOut_logged, ?_, ?_⟩
  · intro off i i₁ i₂ cwd T T' h
    cases i with
    | zero => exact ⟨rfl, h⟩
    | succ i =>
      use rfl
      apply alike_written
      apply alike_written h
  · decide +kernel
  · decide +kernel

end Bindery.Compile
