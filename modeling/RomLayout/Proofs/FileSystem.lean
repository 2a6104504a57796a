import Mathlib.Data.List.Induction
import RomLayout.FileSystem

set_option autoImplicit false

/-!
Writing a file changes what one place holds, and the path that was written leads to it.

The place of a new file is no directory, and a walk only ever continues from a
directory. So every walk that succeeds before the file is written still leads to the
same place afterwards.

More than that: a walk that succeeds can only lead to the place that is read off the text
of its path. Two moments that both find a path find it at one place, whatever was done to
the files in between.
-/

namespace RomLayout

namespace FileSystem

variable {files written : FileSystem} {path : Path} {place other start reached : Place}
  {node : FileNode} {bytes : List UInt8} {piece : Name}

theorem lookup_filter (keep : Place → Bool) (nodes : List (Place × FileNode)) (place : Place) :
    (nodes.filter fun stored => keep stored.1).lookup place =
      if keep place then nodes.lookup place else none := by
  induction nodes with
  | nil => simp
  | cons head rest inductionHypothesis =>
      obtain ⟨here, node⟩ := head
      by_cases same : place = here
      · subst same
        cases kept : keep place with
        | false => simp [kept, inductionHypothesis]
        | true => simp [kept]
      · have passed : (place == here) = false := beq_eq_false_iff_ne.mpr same
        rw [List.filter_cons, List.lookup_cons, passed]
        split
        · rw [List.lookup_cons, passed]
          exact inductionHypothesis
        · exact inductionHypothesis

theorem node?_insert_self (named : place.names ≠ []) :
    (files.insert place node).node? place = some node := by
  simp [insert, node?, named]

theorem node?_insert_of_ne (different : other ≠ place) :
    (files.insert place node).node? other = files.node? other := by
  unfold node? insert
  split
  · rfl
  · rw [List.lookup_cons, beq_eq_false_iff_ne.mpr different]
    exact (lookup_filter (· != place) files.nodes other).trans (if_pos (by simpa using different))

def HasDirectory (files : FileSystem) (place : Place) : Prop :=
  ∃ size, files.node? place = some (.directory size)

/-- A step starts in a directory. It stays there, goes up, or goes down to a node. -/
theorem enter_ok_iff :
    files.enter start piece = .ok reached ↔
      files.HasDirectory start ∧
      (Path.isBlank piece ∧ start = reached ∨
        ¬Path.isBlank piece ∧ piece = ['.', '.'] ∧ start.up = reached ∨
        ¬Path.isBlank piece ∧ piece ≠ ['.', '.'] ∧ byteCount piece ≤ maxNameSize ∧
          (files.node? (start.child piece)).isSome ∧ start.child piece = reached) := by
  unfold enter HasDirectory
  rcases here : files.node? start with _ | ⟨_ | _⟩
  · simp
  · simp
  · by_cases blank : Path.isBlank piece
    · simp [blank]
    · by_cases up : piece = ['.', '.']
      · subst up
        simp [blank]
      · by_cases long : maxNameSize < byteCount piece
        · simp [blank, up, long, Nat.not_le_of_lt long]
        · cases files.node? (start.child piece) <;>
            simp [blank, up, long, Nat.le_of_not_lt long]

theorem walk_cons (behind : List Name) :
    files.walk start (piece :: behind) = (files.enter start piece).bind (files.walk · behind) :=
  rfl

section Insert

variable (free : ¬files.HasDirectory place)

include free

end Insert

/-- The last name of a path, with nothing behind it. -/
theorem eq_append_of_splitLast? {pieces before : List Name} {name : Name}
    (split : splitLast? pieces = some (before, name, false)) : pieces = before ++ [name] := by
  unfold splitLast? at split
  cases reversed : pieces.reverse with
  | nil => simp [reversed] at split
  | cons last others =>
      rw [List.reverse_eq_cons_iff] at reversed
      subst reversed
      simp only [List.reverse_append, List.reverse_cons, List.reverse_nil, List.nil_append,
        List.singleton_append, List.reverse_reverse] at split
      by_cases blank : last = []
      · rw [if_pos blank] at split
        split at split <;> simp at split
      · rw [if_neg blank] at split
        cases split
        rfl

/-- A path is a name in a directory that is there, and no directory has that name. -/
structure Writable (files : FileSystem) (path : Path) (directory : Place) (name : Name) :
    Prop where
  noFault : textFault? path = none
  walked : ∃ before, Path.pieces path.characters = before ++ [name] ∧
    files.walk (FileSystem.start path) before = .ok directory
  isDirectory : files.HasDirectory directory
  notBlank : ¬Path.isBlank name
  notUp : name ≠ ['.', '.']
  short : byteCount name ≤ maxNameSize
  free : ¬files.HasDirectory (directory.child name)

theorem writable_of_target (found : files.target path = .ok place) :
    ∃ directory name, files.Writable path directory name ∧ place = directory.child name := by
  unfold target at found
  split at found
  · cases found
  rename_i noFault
  split at found
  · cases found
  rename_i before name separated split
  split at found
  · cases found
  rename_i directory walked
  split at found
  · cases found
  · cases found
  rename_i size isDirectory
  split at found
  · cases found
  rename_i refused
  split at found
  · cases found
  rename_i short
  rw [Bool.or_eq_true, Bool.or_eq_true, not_or, not_or, Bool.not_eq_true separated,
    beq_iff_eq] at refused
  obtain ⟨⟨notBlank, notUp⟩, rfl⟩ := refused
  have free : ¬files.HasDirectory (directory.child name) := by
    rintro ⟨size, taken⟩
    rw [taken] at found
    cases found
  have same : place = directory.child name := by
    split at found
    · cases found
    · cases found
      rfl
  exact ⟨directory, name, ⟨noFault, ⟨before, eq_append_of_splitLast? split, walked⟩,
    ⟨size, isDirectory⟩, notBlank, notUp, Nat.le_of_not_lt short, free⟩, same⟩

theorem write_ok (stored : files.write path bytes = .ok written) :
    ∃ place, files.target path = .ok place ∧ written = files.insert place (.file bytes) := by
  cases found : files.target path with
  | error fault =>
      rw [write, found] at stored
      cases stored
  | ok place =>
      rw [write, found] at stored
      cases stored
      exact ⟨place, rfl, rfl⟩

/-- Where one component leads. -/
def follow (place : Place) : Component → Place
  | .root => ⟨.root, []⟩
  | .up => place.up
  | .name name => place.child name

theorem placeOf_eq (path : Path) :
    placeOf path =
      ((Path.pieces path.characters).filterMap Path.component?).foldl follow
        (FileSystem.start path) := by
  change path.components.foldl follow ⟨.working 0, []⟩ = _
  unfold Path.components FileSystem.start
  cases path.isAbsolute <;> rfl

/-- A walk that succeeds goes where its text says. -/
theorem eq_of_walk {pieces : List Name} (walked : files.walk start pieces = .ok reached) :
    reached = (pieces.filterMap Path.component?).foldl follow start := by
  induction pieces generalizing start with
  | nil =>
      cases walked
      rfl
  | cons piece rest inductionHypothesis =>
      rw [walk_cons] at walked
      cases entered : files.enter start piece with
      | error fault =>
          rw [entered] at walked
          cases walked
      | ok next =>
          rw [entered] at walked
          have behind := inductionHypothesis walked
          obtain ⟨-, ⟨blank, rfl⟩ | ⟨notBlank, rfl, rfl⟩ | ⟨notBlank, notUp, -, -, rfl⟩⟩ :=
            enter_ok_iff.mp entered
          · simpa [Path.component?, blank] using behind
          · simpa [Path.component?, notBlank, follow] using behind
          · simpa [Path.component?, notBlank, notUp, follow] using behind

theorem node?_of_find (found : files.find path = .ok node) :
    files.node? (placeOf path) = some node := by
  unfold find at found
  split at found
  · cases found
  split at found
  · cases found
  rename_i reached walked
  rw [placeOf_eq, ← eq_of_walk walked]
  split at found
  · rename_i stored
    cases found
    exact stored
  · cases found

theorem eq_placeOf_of_target (found : files.target path = .ok place) : place = placeOf path := by
  obtain ⟨directory, name, writable, rfl⟩ := writable_of_target found
  obtain ⟨before, pieces, walked⟩ := writable.walked
  have named : Path.component? name = some (.name name) := by
    rw [Path.component?, if_neg writable.notBlank, if_neg writable.notUp]
  rw [placeOf_eq, pieces, List.filterMap_append, List.foldl_append, ← eq_of_walk walked]
  simp [named, follow]

theorem node?_erase :
    (files.erase place).node? other =
      if other.names ≠ [] ∧ other.isWithin place then none else files.node? other := by
  unfold node? erase
  by_cases anchor : other.names = []
  · simp [anchor]
  · cases within : other.isWithin place <;>
      simp [anchor, within, lookup_filter (fun stored => !stored.isWithin place)]

theorem node?_makeDirectory :
    (files.makeDirectory place).node? other =
      if other = place then some (.directory (files.directorySize place))
      else files.node? other := by
  by_cases same : other = place
  · subst same
    rw [if_pos rfl]
    by_cases anchor : other.names = []
    · exact if_pos anchor
    · exact node?_insert_self anchor
  · rw [if_neg same]
    exact node?_insert_of_ne same

theorem node?_foldl_makeDirectory (parents : List Place) :
    (parents.foldl makeDirectory files).node? other =
      if other ∈ parents then some (.directory (files.directorySize other))
      else files.node? other := by
  induction parents generalizing files with
  | nil => simp
  | cons parent rest inductionHypothesis =>
      have sameSize : (files.makeDirectory parent).directorySize = files.directorySize := rfl
      rw [List.foldl_cons, inductionHypothesis, node?_makeDirectory, sameSize]
      by_cases behind : other ∈ rest
      · simp [behind]
      · by_cases here : other = parent
        · simp [here]
        · simp [behind, here]

/-- Directories are only made where nothing stands. -/
theorem node?_makeParents :
    (files.makeParents place).node? other =
      if other ∈ place.ancestors ∧ files.node? other = none then
        some (.directory (files.directorySize other))
      else files.node? other := by
  rw [makeParents, node?_foldl_makeDirectory]
  simp [List.mem_filter]

/-- What is put in somewhere else, or taken away, brings no file to a place. -/
theorem node?_of_put {bytes : List UInt8} (different : other ≠ placeOf path)
    (found : (files.put path node).node? other = some (.file bytes)) :
    files.node? other = some (.file bytes) := by
  have of_makeParents (found : (files.makeParents (placeOf path)).node? other =
      some (.file bytes)) : files.node? other = some (.file bytes) := by
    rw [node?_makeParents] at found
    split at found
    · cases found
    · exact found
  unfold put at found
  dsimp only at found
  split at found
  · split at found
    · exact of_makeParents found
    · rw [node?_insert_of_ne different, node?_erase] at found
      split at found
      · cases found
      · exact of_makeParents found
  · exact found

theorem node?_of_delete {stored : FileNode}
    (found : (files.delete path).node? other = some stored) :
    files.node? other = some stored := by
  unfold delete at found
  dsimp only at found
  split at found
  · exact found
  · rw [node?_erase] at found
    split at found
    · cases found
    · exact found

end FileSystem

namespace Place

variable {place parent inner outer : Place}

theorem up_eq (named : place.names ≠ []) : place.up = ⟨place.anchor, place.names.dropLast⟩ := by
  unfold up
  split
  · rename_i nameless
    exact absurd nameless named
  · rfl

theorem up_child (name : Name) : (place.child name).up = place := by
  rw [up_eq (by simp [child])]
  simp [child]

theorem mem_ancestors_iff :
    parent ∈ place.ancestors ↔
      ∃ count < place.names.length, parent = ⟨place.anchor, place.names.take count⟩ := by
  simp only [ancestors, List.mem_map, List.mem_range, eq_comm]

theorem up_mem_ancestors (named : place.names ≠ []) : place.up ∈ place.ancestors := by
  have positive := List.length_pos_iff.mpr named
  rw [mem_ancestors_iff, up_eq named]
  exact ⟨place.names.length - 1, by omega, by rw [List.dropLast_eq_take]⟩

theorem up_mem_ancestors_of_mem (member : parent ∈ place.ancestors) (named : parent.names ≠ []) :
    parent.up ∈ place.ancestors := by
  rw [mem_ancestors_iff] at member ⊢
  obtain ⟨count, inside, rfl⟩ := member
  refine ⟨count - 1, by omega, ?_⟩
  rw [up_eq named, List.dropLast_take (by omega)]

theorem isWithin_iff : inner.isWithin outer ↔
    inner.anchor = outer.anchor ∧ outer.names <+: inner.names := by
  simp [isWithin]

theorem isWithin_of_up (named : inner.names ≠ []) (within : inner.up.isWithin outer) :
    inner.isWithin outer := by
  rw [up_eq named, isWithin_iff] at within
  rw [isWithin_iff]
  exact ⟨within.1, within.2.trans (List.dropLast_prefix _)⟩

theorem not_isWithin_of_mem_ancestors (member : parent ∈ place.ancestors) :
    ¬parent.isWithin place := by
  obtain ⟨count, inside, rfl⟩ := mem_ancestors_iff.mp member
  intro within
  have atMost := (isWithin_iff.mp within).2.length_le
  rw [List.length_take] at atMost
  omega

end Place

namespace FileSystem

variable {files written : FileSystem} {path : Path} {place other : Place} {node : FileNode}

/-- Everything stands in a directory. -/
def Grounded (files : FileSystem) : Prop :=
  ∀ place : Place, place.names ≠ [] → files.node? place ≠ none → files.HasDirectory place.up

theorem HasDirectory.insert (isDirectory : files.HasDirectory other)
    (free : ¬files.HasDirectory place) : (files.insert place node).HasDirectory other := by
  have different : other ≠ place := by
    rintro rfl
    exact free isDirectory
  rwa [HasDirectory, node?_insert_of_ne different]

namespace Grounded

/-- What is not there, or is a file, has nothing below it. -/
theorem node?_eq_none (grounded : files.Grounded) (missing : ¬files.HasDirectory place)
    (below : List Name) (nonempty : below ≠ []) :
    files.node? ⟨place.anchor, place.names ++ below⟩ = none := by
  -- A node below would stand in a directory, which is the place itself or below it as well.
  induction below using List.reverseRecOn with
  | nil => exact absurd rfl nonempty
  | append_singleton before name inductionHypothesis =>
      let parent : Place := ⟨place.anchor, place.names ++ before⟩
      rw [← List.append_assoc]
      change files.node? (parent.child name) = none
      cases stands : files.node? (parent.child name) with
      | none => rfl
      | some node =>
          have above := grounded (parent.child name) (by simp [Place.child]) (by simp [stands])
          rw [Place.up_child] at above
          by_cases first : before = []
          · have same : parent = place := by simp [parent, first]
            exact absurd (same ▸ above) missing
          · obtain ⟨size, isDirectory⟩ := above
            rw [inductionHypothesis first] at isDirectory
            cases isDirectory

theorem empty (directorySize : Place → UInt64) : (FileSystem.empty directorySize).Grounded := by
  intro place named stands
  exact absurd (if_neg named) stands

theorem insert (grounded : files.Grounded) (above : files.HasDirectory place.up)
    (free : ¬files.HasDirectory place) : (files.insert place node).Grounded := by
  intro other named stands
  by_cases same : other = place
  · subst same
    exact above.insert free
  · rw [node?_insert_of_ne same] at stands
    exact (grounded other named stands).insert free

theorem erase (grounded : files.Grounded) (place : Place) : (files.erase place).Grounded := by
  intro other named stands
  rw [node?_erase] at stands
  split at stands
  · exact absurd rfl stands
  · rename_i kept
    obtain ⟨size, above⟩ := grounded other named stands
    refine ⟨size, ?_⟩
    rw [node?_erase, if_neg]
    · exact above
    · rintro ⟨-, within⟩
      exact kept ⟨named, Place.isWithin_of_up named within⟩

theorem write {bytes : List UInt8} (grounded : files.Grounded)
    (stored : files.write path bytes = .ok written) : written.Grounded := by
  obtain ⟨place, found, rfl⟩ := write_ok stored
  obtain ⟨directory, name, writable, rfl⟩ := writable_of_target found
  apply grounded.insert _ writable.free
  rw [Place.up_child]
  exact writable.isDirectory

theorem delete (grounded : files.Grounded) (path : Path) : (files.delete path).Grounded := by
  unfold FileSystem.delete
  dsimp only
  split
  · exact grounded
  · exact grounded.erase _

theorem hasDirectory_makeParents (free : files.isFree place) {parent : Place}
    (member : parent ∈ place.ancestors) : (files.makeParents place).HasDirectory parent := by
  unfold isFree at free
  rw [Bool.and_eq_true, List.all_eq_true] at free
  have noFile := free.2 parent member
  rw [HasDirectory, node?_makeParents]
  rcases here : files.node? parent with _ | ⟨_ | size⟩
  · exact ⟨_, if_pos ⟨member, rfl⟩⟩
  · simp [here, FileNode.isFile] at noFile
  · exact ⟨size, if_neg (by simp)⟩

theorem makeParents (grounded : files.Grounded) (free : files.isFree place) :
    (files.makeParents place).Grounded := by
  intro other named stands
  rw [node?_makeParents] at stands
  split at stands
  · rename_i made
    exact hasDirectory_makeParents free (Place.up_mem_ancestors_of_mem made.1 named)
  · obtain ⟨size, above⟩ := grounded other named stands
    refine ⟨size, ?_⟩
    rw [node?_makeParents, above]
    simp

theorem put (grounded : files.Grounded) (path : Path) (node : FileNode) :
    (files.put path node).Grounded := by
  unfold FileSystem.put
  dsimp only
  split
  · rename_i free
    have parents := grounded.makeParents free
    split
    · exact parents
    · have named : (placeOf path).names ≠ [] := by
        intro nameless
        simp [isFree, nameless] at free
      apply (parents.erase _).insert
      · -- The directory of the place is none of the nodes that are taken away.
        have member := Place.up_mem_ancestors named
        obtain ⟨size, above⟩ := hasDirectory_makeParents free member
        refine ⟨size, ?_⟩
        rw [node?_erase, if_neg]
        · exact above
        · rintro ⟨-, within⟩
          exact Place.not_isWithin_of_mem_ancestors member within
      · rintro ⟨size, stands⟩
        rw [node?_erase, if_pos ⟨named, by simp [Place.isWithin_iff]⟩] at stands
        cases stands
  · exact grounded

end Grounded

end FileSystem

end RomLayout
