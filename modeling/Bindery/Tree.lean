import Bindery.OsError
import Bindery.Path
import Bindery.Text.Utf8

/-!
# File trees

A `Tree` is a state of the file system: what node, if any, is at each location.  A file has a
serial number that it keeps when it is renamed, so that output can follow a file that was
opened and not the name it had (`Tree.append`).  No two files of a tree have the same number
(`Tree.numbered`), so that a file has only one name.  `Tree.resolve` finds the place that a path
names, and the operations read or change a tree the way a system without links, access rights
and limits of space does; `lookup_set`, `lookup_addFile` and `lookup_erase` say what the basic
changes do.
-/

namespace Bindery

/-- The names that lead from the root to a place. -/
abbrev Location : Type := List String

/-- What is at a place. -/
inductive Node where
  | dir (mode : Nat)
  | file (serial mode : Nat) (bytes : Bytes)
deriving DecidableEq, Repr

namespace Node

/-- The node is a directory. -/
def isDir : Node → Bool
  | dir _ => true
  | file .. => false

/-- The permission bits. -/
def mode : Node → Nat
  | dir mode => mode
  | file _ mode _ => mode

/-- The number of bytes. -/
def size : Node → Nat
  | dir _ => 0
  | file _ _ bytes => bytes.length

/-- Somebody may write to the node. -/
def isWritable (n : Node) : Bool :=
  n.mode &&& 0o222 != 0

/-- Somebody may run the node as a program. -/
def isExecutable (n : Node) : Bool :=
  n.mode &&& 0o111 != 0

/-- The serial number of a file. -/
def serial? : Node → Option Nat
  | dir _ => none
  | file serial _ _ => some serial

/-- The node after bytes were written at the end of the file with a serial number. -/
def grown (serial : Nat) (bytes : Bytes) : Node → Node
  | dir mode => dir mode
  | file s mode old => file s mode (if s = serial then old ++ bytes else old)

@[simp]
theorem isDir_grown (serial : Nat) (bytes : Bytes) (n : Node) :
  (n.grown serial bytes).isDir = n.isDir
  := by cases n <;> rfl

@[simp]
theorem serial?_grown (serial : Nat) (bytes : Bytes) (n : Node) :
  (n.grown serial bytes).serial? = n.serial?
  := by cases n <;> rfl

end Node

/-! ### Serial numbers -/

/-- The serial numbers of the files among some nodes. -/
def serialsOf (nodes : List (Location × Node)) : List Nat :=
  nodes.filterMap fun entry => entry.2.serial?

/-- No two files among the nodes have the same serial number, and all numbers are below the
next one. -/
def AreNumbered (nodes : List (Location × Node)) (next : Nat) : Prop :=
  (serialsOf nodes).Nodup ∧ ∀ serial ∈ serialsOf nodes, serial < next

instance (nodes : List (Location × Node)) (next : Nat) : Decidable (AreNumbered nodes next) :=
  inferInstanceAs (Decidable (_ ∧ _))

namespace AreNumbered

variable {nodes nodes' : List (Location × Node)} {next next' : Nat}

theorem mono (h : AreNumbered nodes next) (hle : next ≤ next') :
  AreNumbered nodes next'
  := ⟨h.1, fun serial hserial => Nat.lt_of_lt_of_le (h.2 serial hserial) hle⟩

theorem sublist (h : AreNumbered nodes next) (hsub : nodes'.Sublist nodes) :
  AreNumbered nodes' next
  := by
  have hserials : (serialsOf nodes').Sublist (serialsOf nodes) := hsub.filterMap _
  exact ⟨h.1.sublist hserials, fun serial hserial => h.2 serial (hserials.subset hserial)⟩

/-- Nodes can be changed and moved as long as the files keep their numbers. -/
theorem map (h : AreNumbered nodes next) {f : Location × Node → Location × Node}
    (hf : ∀ entry, (f entry).2.serial? = entry.2.serial?) :
  AreNumbered (nodes.map f) next
  := by
  have hserials : serialsOf (nodes.map f) = serialsOf nodes := by
    rw [serialsOf, List.filterMap_map]
    exact congrArg (List.filterMap · nodes) (funext hf)
  rw [AreNumbered, hserials]
  exact h

theorem cons (h : AreNumbered nodes next) (l : Location) {n : Node}
    (hn : ∀ serial ∈ n.serial?, serial < next ∧ serial ∉ serialsOf nodes) :
  AreNumbered ((l, n) :: nodes) next
  := by
  cases n with
  | dir mode => exact h
  | file serial mode bytes =>
    obtain ⟨hlt, hnew⟩ := hn serial rfl
    exact ⟨List.nodup_cons.mpr ⟨hnew, h.1⟩, List.forall_mem_cons.mpr ⟨hlt, h.2⟩⟩

/-- A number belongs to one node only. -/
theorem unique (h : AreNumbered nodes next) {entry entry' : Location × Node}
    (hentry : entry ∈ nodes) (hentry' : entry' ∈ nodes) {serial : Nat}
    (hserial : entry.2.serial? = some serial) (hserial' : entry'.2.serial? = some serial) :
  entry = entry'
  := by
  induction nodes with
  | nil => cases hentry
  | cons first nodes ih =>
    have hrest := h.sublist (List.sublist_cons_self first nodes)
    -- If the first node has the number, none of the others has.
    have hfirst {other : Location × Node} (hother : other ∈ nodes)
        (hnumber : first.2.serial? = some serial) : other.2.serial? ≠ some serial := by
      intro hsame
      have hnodup : (serialsOf (first :: nodes)).Nodup := h.1
      have hserials : serialsOf (first :: nodes) = serial :: serialsOf nodes :=
        List.filterMap_cons_some hnumber
      rw [hserials, List.nodup_cons] at hnodup
      exact hnodup.1 (List.mem_filterMap.mpr ⟨other, hother, hsame⟩)
    rcases List.mem_cons.mp hentry with rfl | hlater
    · rcases List.mem_cons.mp hentry' with rfl | hlater'
      · rfl
      · exact absurd hserial' (hfirst hlater' hserial)
    · rcases List.mem_cons.mp hentry' with rfl | hlater'
      · exact absurd hserial (hfirst hlater hserial')
      · exact ih hrest hlater hlater'

end AreNumbered

/-- A state of the file system. -/
structure Tree where
  /-- The nodes below the root. -/
  nodes : List (Location × Node) := []
  /-- The serial number of the next new file. -/
  nextSerial : Nat := 0
  numbered : AreNumbered nodes nextSerial := by decide
deriving DecidableEq, Repr

/-- The place that a path names. -/
structure Place where
  location : Location
  /-- The path ends with a name, and not with a dot. -/
  named : Bool
  /-- The path ends with a slash, so it can only name a directory. -/
  slash : Bool
deriving DecidableEq, Repr

/-- The permission bits of a new file. -/
def newFileMode : Nat := 0o644

/-- The permission bits of a new directory. -/
def newDirMode : Nat := 0o755

namespace Tree

/-! ### Nodes at locations -/

/-- The node at a location; the root is always a directory. -/
def lookup (t : Tree) (l : Location) : Option Node :=
  if l = [] then some (.dir newDirMode)
  else (t.nodes.find? fun entry => entry.1 = l).map Prod.snd

/-- The nodes at other locations. -/
def others (t : Tree) (l : Location) : List (Location × Node) :=
  t.nodes.filter fun entry => entry.1 ≠ l

theorem others_sublist (t : Tree) (l : Location) :
  (t.others l).Sublist t.nodes
  := List.filter_sublist

/-- A node can be put at a location: if it is a file, it has a number of its own. -/
def Admits (t : Tree) (l : Location) (n : Node) : Prop :=
  ∀ serial ∈ n.serial?, serial < t.nextSerial ∧ serial ∉ serialsOf (t.others l)

instance (t : Tree) (l : Location) (n : Node) : Decidable (t.Admits l n) :=
  inferInstanceAs (Decidable (∀ serial ∈ n.serial?, _))

/-- The tree with a node put at a location, if that can be. -/
def set (t : Tree) (l : Location) (n : Node) : Tree :=
  if h : t.Admits l n then
    { t with
      nodes := (l, n) :: t.others l
      numbered := (t.numbered.sublist (t.others_sublist l)).cons l h }
  else t

/-- The tree with a new file put at a location. -/
def addFile (t : Tree) (l : Location) (mode : Nat) (bytes : Bytes) : Tree :=
  { t with
    nextSerial := t.nextSerial + 1
    numbered := t.numbered.mono (Nat.le_succ _) : Tree }.set l (.file t.nextSerial mode bytes)

/-- The tree without the node at a location. -/
def erase (t : Tree) (l : Location) : Tree :=
  { t with nodes := t.others l, numbered := t.numbered.sublist (t.others_sublist l) }

theorem exists_entry_of_lookup {t : Tree} {l : Location} {n : Node} (hl : l ≠ [])
    (h : t.lookup l = some n) :
  (l, n) ∈ t.nodes
  := by
  rw [lookup, if_neg hl] at h
  obtain ⟨⟨k, n'⟩, hfind, rfl⟩ := Option.map_eq_some_iff.mp h
  have hk := List.find?_some hfind
  obtain rfl : k = l := of_decide_eq_true hk
  exact List.mem_of_find?_eq_some hfind

theorem admits_dir (t : Tree) (l : Location) (mode : Nat) :
  t.Admits l (.dir mode)
  := nofun

/-- A file keeps its number where it is. -/
theorem admits_of_lookup {t : Tree} {l : Location} {serial mode : Nat} {bytes : Bytes}
    (h : t.lookup l = some (.file serial mode bytes)) (mode' : Nat) (bytes' : Bytes) :
  t.Admits l (.file serial mode' bytes')
  := by
  have hl : l ≠ [] := by
    rintro rfl
    rw [lookup, if_pos rfl] at h
    cases h
  have hentry := exists_entry_of_lookup hl h
  rintro _ ⟨⟩
  refine ⟨t.numbered.2 serial (List.mem_filterMap.mpr ⟨_, hentry, rfl⟩), fun hserial => ?_⟩
  obtain ⟨other, hother, hnumber⟩ := List.mem_filterMap.mp hserial
  obtain ⟨hmem, hne⟩ := List.mem_filter.mp hother
  rw [← t.numbered.unique hentry hmem rfl hnumber] at hne
  simp at hne

/-- A file keeps its number when it is moved. -/
theorem admits_erase {t : Tree} {l : Location} {n : Node} (h : t.Admits l n) (k : Location) :
  (t.erase l).Admits k n
  := by
  intro serial hserial
  obtain ⟨hlt, hnew⟩ := h serial hserial
  refine ⟨hlt, fun hother => hnew ?_⟩
  exact (((t.erase l).others_sublist k).filterMap _).subset hother

private theorem find_filter_ne {nodes : List (Location × Node)} {l k : Location} (h : k ≠ l) :
  (nodes.filter fun entry => entry.1 ≠ l).find? (fun entry => entry.1 = k)
    = nodes.find? fun entry => entry.1 = k
  := by
  rw [List.find?_filter]
  congr
  funext entry
  by_cases hk : entry.1 = k
  · simp [hk, h]
  · simp [hk]

/-- A node that was put at a location is there, and all others stay. -/
theorem lookup_set {t : Tree} {l k : Location} {n : Node} (hl : l ≠ []) (h : t.Admits l n) :
  (t.set l n).lookup k = if k = l then some n else t.lookup k
  := by
  rw [set, dif_pos h]
  by_cases hk : k = l
  · subst hk
    simp [lookup, hl]
  · by_cases hn : k = []
    · simp [lookup, hn, Ne.symm hl]
    · simp only [lookup, others, hn, if_false, hk]
      rw [List.find?_cons_of_neg (by simp [Ne.symm hk]), find_filter_ne hk]

/-- A directory can be put anywhere. -/
theorem lookup_set_dir {t : Tree} {l k : Location} (hl : l ≠ []) (mode : Nat) :
  (t.set l (.dir mode)).lookup k = if k = l then some (.dir mode) else t.lookup k
  := lookup_set hl (t.admits_dir l mode)

/-- A new file is where it was put, and all other nodes stay. -/
theorem lookup_addFile {t : Tree} {l k : Location} (hl : l ≠ []) (mode : Nat) (bytes : Bytes) :
  (t.addFile l mode bytes).lookup k
    = if k = l then some (.file t.nextSerial mode bytes) else t.lookup k
  := by
  refine lookup_set hl ?_
  rintro _ ⟨⟩
  refine ⟨Nat.lt_succ_self _, fun hserial => ?_⟩
  have hold := t.numbered.2 _ (((t.others_sublist l).filterMap _).subset hserial)
  exact Nat.lt_irrefl _ hold

/-- Nothing is left at an erased location, and all other nodes stay. -/
theorem lookup_erase {t : Tree} {l k : Location} (hl : l ≠ []) :
  (t.erase l).lookup k = if k = l then none else t.lookup k
  := by
  by_cases hk : k = l
  · subst hk
    simp [lookup, erase, others, hl]
  · by_cases hn : k = []
    · simp [lookup, hn, Ne.symm hl]
    · simp only [lookup, erase, others, hn, if_false, hk]
      rw [find_filter_ne hk]

/-- The locations below a location, with their nodes. -/
def below (t : Tree) (l : Location) : List (Location × Node) :=
  t.nodes.filter fun entry => l.isPrefixOf entry.1 && entry.1 != l

/-- The names in a directory. -/
def namesIn (t : Tree) (l : Location) : List String :=
  (t.nodes.filterMap fun entry =>
    if entry.1.dropLast = l && entry.1 ≠ [] then entry.1.getLast? else none).mergeSort (· ≤ ·)

/-- There is a directory at the location. -/
def isDirAt (t : Tree) (l : Location) : Bool :=
  (t.lookup l).any Node.isDir

/-! ### Places of paths -/

/-- The longest name that a node may have, in bytes. -/
def maxName : Nat := 255

/-- The longest path, in bytes. -/
def maxPath : Nat := 4095

/-- The place that one step from a directory leads to. -/
def stepFrom (l : Location) (segment : String) : Except OsError Location :=
  if segment = "." then .ok l
  else if segment = ".." then .ok l.dropLast
  else if maxName < segment.utf8ByteSize then .error .nameTooLong
  else .ok (l ++ [segment])

/-- Follows the steps of a path through directories, and takes the last step without looking
at what it leads to. -/
def walk (t : Tree) (l : Location) : List String → Except OsError Location
  | [] => .ok l
  | [last] => stepFrom l last
  | segment :: segments =>
    match stepFrom l segment with
    | .error e => .error e
    | .ok next =>
      match t.lookup next with
      | none => .error .notFound
      | some (.file ..) => .error .notADirectory
      | some (.dir _) => walk t next segments

/-- The place that a path names, seen from a location. -/
def resolve (t : Tree) (base : Location) (p : Path) : Except OsError Place :=
  if p.text.toList.contains '\x00' then .error .nulInName
  else if p.text.isEmpty then .error .notFound
  else if maxPath < p.text.utf8ByteSize then .error .nameTooLong
  else
    let last := p.segments.getLast?
    match t.walk (if p.isAbsolute then [] else base) p.segments with
    | .error e => .error e
    | .ok location => .ok {
        location
        named := last.any fun s => s != "." && s != ".."
        slash := p.text.toList.getLast? == some '/' }

/-- The node that a path names. -/
def node (t : Tree) (base : Location) (p : Path) : Except OsError (Location × Node) :=
  match t.resolve base p with
  | .error e => .error e
  | .ok place =>
    match t.lookup place.location with
    | none => .error .notFound
    | some n => if place.slash && !n.isDir then .error .notADirectory else .ok (place.location, n)

/-- A path names a directory. -/
def isDir (t : Tree) (base : Location) (p : Path) : Bool :=
  match t.node base p with
  | .ok (_, n) => n.isDir
  | .error _ => false

/-- A path names something. -/
def exists? (t : Tree) (base : Location) (p : Path) : Bool :=
  (t.node base p).toOption.isSome

/-! ### Files -/

/-- The contents of a file. -/
def read (t : Tree) (base : Location) (p : Path) : Except OsError Bytes :=
  match t.node base p with
  | .error e => .error e
  | .ok (_, .dir _) => .error .isADirectory
  | .ok (_, .file _ _ bytes) => .ok bytes

/-- Opens a file for writing, and creates it if nothing is there.  The file keeps what it holds
or is emptied.  The answer is its serial number. -/
def openFile (t : Tree) (base : Location) (p : Path) (emptied : Bool) (mode : Nat) :
    Except OsError (Nat × Tree) :=
  match t.resolve base p with
  | .error e => .error e
  | .ok place =>
    match t.lookup place.location with
    | some (.dir _) => .error .isADirectory
    | some (.file serial mode bytes) =>
      if place.slash then .error .notADirectory
      else .ok (serial,
        t.set place.location (.file serial mode (if emptied then [] else bytes)))
    | none =>
      if place.slash then .error .isADirectory
      else .ok (t.nextSerial, t.addFile place.location mode [])

/-- Adds bytes at the end of the file with the given serial number, wherever it is now.  If it
was removed, the bytes are lost. -/
def append (t : Tree) (serial : Nat) (bytes : Bytes) : Tree :=
  { t with
    nodes := t.nodes.map fun entry => (entry.1, entry.2.grown serial bytes)
    numbered := t.numbered.map fun entry => entry.2.serial?_grown serial bytes }

/-- Writes a whole file. -/
def write (t : Tree) (base : Location) (p : Path) (bytes : Bytes) : Except OsError Tree :=
  (t.openFile base p true newFileMode).map fun (serial, t) => t.append serial bytes

/-- Removes a file. -/
def remove (t : Tree) (base : Location) (p : Path) : Except OsError Tree :=
  match t.node base p with
  | .error e => .error e
  | .ok (_, .dir _) => .error .isADirectory
  | .ok (l, .file ..) => .ok (t.erase l)

/-- Copies a file, with its permission bits. -/
def copy (t : Tree) (base : Location) (source target : Path) : Except OsError Tree :=
  match t.node base source with
  | .error e => .error e
  | .ok (_, .dir _) => .error .notRegular
  | .ok (l, .file _ mode _) =>
    match t.openFile base target true mode with
    | .error e => .error e
    | .ok (serial, t) =>
      match t.lookup l with
      | some (.file _ _ bytes) => .ok (t.append serial bytes)
      | _ => .ok t

/-- Moves every node at or below one location to the corresponding place at another. -/
def moveAll (t : Tree) (source target : Location) : Tree :=
  let moved (l : Location) := if source.isPrefixOf l then target ++ l.drop source.length else l
  { t with
    nodes := t.nodes.map fun entry => (moved entry.1, entry.2)
    numbered := t.numbered.map fun _ => rfl }

/-- Gives a node another name; a file or an empty directory of that name is replaced.  A path that
ends in a dot has no name that could be given or taken away. -/
def rename (t : Tree) (base : Location) (source target : Path) : Except OsError Tree :=
  match t.resolve base source, t.resolve base target with
  | .error e, _ => .error e
  | _, .error e => .error e
  | .ok old, .ok new =>
    let l := old.location
    let k := new.location
    if !old.named || !new.named then .error .resourceBusy
    else match t.lookup l with
      | none => .error .notFound
      | some (.file serial mode bytes) =>
        if old.slash || new.slash then .error .notADirectory
        else if t.isDirAt k then .error (if k.isPrefixOf l then .notEmpty else .isADirectory)
        else if l = k then .ok t
        else .ok ((t.erase l).set k (.file serial mode bytes))
      | some (.dir _) =>
        if l = k then .ok t
        else if l.isPrefixOf k then .error .invalidArgument
        else match t.lookup k with
          | some (.file ..) => .error .notADirectory
          | some (.dir _) =>
            if (t.below k).isEmpty then .ok ((t.erase k).moveAll l k) else .error .notEmpty
          | none => .ok (t.moveAll l k)

/-! ### Directories -/

/-- Makes a directory in one that exists. -/
def makeDir (t : Tree) (base : Location) (p : Path) : Except OsError Tree :=
  match t.resolve base p with
  | .error e => .error e
  | .ok place =>
    if !place.named then .error .fileExists
    else match t.lookup place.location with
      | some _ => .error .fileExists
      | none => .ok (t.set place.location (.dir newDirMode))

/-- Makes a directory unless it exists. -/
def ensureDir (t : Tree) (base : Location) (p : Path) : Except OsError Tree :=
  match t.makeDir base p with
  | .ok t => .ok t
  | .error .notFound => .error .notFound
  | .error e => if t.isDir base p then .ok t else .error e

/-- Makes the directory whose parts are given from last to first, and those it is in. -/
def makeAll (base : Location) (absolute : Bool) : List String → Tree → Except OsError Unit × Tree
  | [], t => (.ok (), t)
  | part :: outer, t =>
    let p := Path.ofParts absolute (part :: outer).reverse
    match t.ensureDir base p with
    | .ok t => (.ok (), t)
    | .error .notFound =>
      match makeAll base absolute outer t with
      | (.error e, t) => (.error e, t)
      | (.ok _, t) =>
        match t.ensureDir base p with
        | .ok t => (.ok (), t)
        | .error e => (.error e, t)
    | .error e => (.error e, t)

/-- Makes a directory and those it is in, as far as they are missing. -/
def makeDirs (t : Tree) (base : Location) (p : Path) : Except OsError Unit × Tree :=
  if p.text.isEmpty then (.ok (), t)
  else match t.ensureDir base p with
    | .ok t => (.ok (), t)
    | .error .notFound =>
      match makeAll base p.isAbsolute p.parts.dropLast.reverse t with
      | (.error e, t) => (.error e, t)
      | (.ok _, t) =>
        match t.ensureDir base p with
        | .ok t => (.ok (), t)
        | .error e => (.error e, t)
    | .error e => (.error e, t)

/-- Removes a node and everything below it. -/
def removeAll (t : Tree) (base : Location) (p : Path) : Except OsError Tree :=
  match t.node base p with
  | .error e => .error e
  | .ok (l, _) => .ok {
      t with
      nodes := t.nodes.filter fun entry => !l.isPrefixOf entry.1
      numbered := t.numbered.sublist List.filter_sublist }

end Tree

end Bindery
