import RomLayout.Proofs.FileSystem
import RomLayout.Proofs.Assembly
import RomLayout.Proofs.Layout.Refusal
import RomLayout.Proofs.Layout.Resolution

set_option autoImplicit false

/-!
Included files, from the moment they are measured to the moment they are read.

A section keeps the path of a file and its number of bytes. The number is found when the
file is included, and every address behind it rests on it. The bytes are read when the image
is made, through the path alone, and nothing compares them with the number. So both agree
exactly as long as the file keeps its length.

A run puts operations on a layout and changes of files in one order. Each step keeps that
whatever stands in a section has been measured at a moment of the run; for a place that no
step writes or deletes, nothing has changed since.
-/

namespace RomLayout

/-- A change of one file. -/
inductive FileChange where
  | write (path : Path) (bytes : List UInt8)
  /-- Stores a file or a directory, together with the directories above it. -/
  | store (path : Path) (node : FileNode)
  | delete (path : Path)

namespace FileChange

def path : FileChange → Path
  | write path _ | store path _ | delete path => path

/-- A write that is refused changes nothing. -/
def perform (files : FileSystem) : FileChange → FileSystem
  | write path bytes =>
      match files.write path bytes with
      | .ok written => written
      | .error _ => files
  | store path node => files.put path node
  | delete path => files.delete path

/-- A file that stands at a place after another place was written or deleted has stood there
before. -/
theorem node?_of_perform {change : FileChange} {files : FileSystem} {place : Place}
    {bytes : List UInt8} (elsewhere : FileSystem.placeOf change.path ≠ place)
    (found : (change.perform files).node? place = some (.file bytes)) :
    files.node? place = some (.file bytes) := by
  cases change with
  | write path content =>
      dsimp only [perform] at found
      split at found
      · rename_i written stored
        obtain ⟨target, isTarget, rfl⟩ := FileSystem.write_ok stored
        obtain rfl := FileSystem.eq_placeOf_of_target isTarget
        exact (FileSystem.node?_insert_of_ne elsewhere.symm).symm.trans found
      · exact found
  | store path other => exact FileSystem.node?_of_put elsewhere.symm found
  | delete path => exact FileSystem.node?_of_delete found

theorem grounded_perform {files : FileSystem} (grounded : files.Grounded) (change : FileChange) :
    (change.perform files).Grounded := by
  cases change with
  | write path bytes =>
      dsimp only [perform]
      split
      · rename_i written stored
        exact grounded.write stored
      · exact grounded
  | store path node => exact grounded.put path node
  | delete path => exact grounded.delete path

end FileChange

namespace Binary

variable {binary : Binary} {files : Lookup} {bytes : List UInt8}

/-- The file has the recorded number of bytes now. -/
def Measured (binary : Binary) (files : Lookup) : Prop := probe files binary.path = .ok binary.size

theorem materialize_ok_iff :
    binary.materialize files = .ok bytes ↔ files binary.path = .ok (.file bytes) := by
  unfold materialize
  rcases files binary.path with fault | ⟨content | _⟩ <;>
    simp [bind, Except.bind, FileNode.bytes?]

theorem length_eq_iff_measured (found : files binary.path = .ok (.file bytes)) :
    bytes.length = binary.size.toNat ↔ binary.Measured files := by
  rw [Measured, probe_eq_ok_iff, found]
  simp

end Binary

/-- The section holds a copy of the file. -/
def Section.Holds (current : Section) (binary : Binary) : Prop :=
  ∃ entry ∈ current.entries, entry.payload = .binary binary

namespace Edit

/-- The operation looks at these files, and files that come in without being measured are
known ones. -/
def Faithful (files : Lookup) (known : Binary → Prop) : Edit → Prop
  | append payload _ | insert payload _ _ => ∀ binary, payload = .binary binary → known binary
  | register looked _ _ _ _ => looked = files
  | remove _ | pushMacroCall _ | resolve => True

variable {current : Section} {binary : Binary}

theorem holds_of_insert {payload : Payload} {position index : Nat}
    (holds : (current.insert payload position index).2.Holds binary) :
    current.Holds binary ∨ payload = .binary binary := by
  rw [Section.insert_eq] at holds
  cases checked : current.check payload index with
  | error error =>
      rw [checked] at holds
      exact .inl holds
  | ok _ =>
      rw [checked] at holds
      obtain ⟨entry, member, includes⟩ := holds
      rcases mem_take_append_cons_drop.mp member with rfl | old
      · exact .inr includes
      · exact .inl ⟨entry, old, includes⟩

theorem holds_of_resolve (sound : current.binding.Sound)
    (holds : current.resolve.2.Holds binary) : current.Holds binary := by
  obtain ⟨entry, member, includes⟩ := holds
  obtain ⟨old, oldMember, leaves⟩ :=
    exists_mem_of_forall₂ (Section.forall₂_resolve sound) member
  exact ⟨old, oldMember, leaves.payload_eq ▸ includes⟩

theorem holds_of_remove {id : EntryId} (holds : (current.remove id).2.Holds binary) :
    current.Holds binary := by
  unfold Section.remove at holds
  cases found : current.entry? id with
  | none =>
      rw [found] at holds
      exact holds
  | some entry =>
      rw [found] at holds
      obtain ⟨kept, member, includes⟩ := holds
      exact ⟨kept, List.mem_of_mem_eraseP member, includes⟩

theorem holds_of_register {files : Lookup} {source : SourceFile} {base text : Path} {index : Nat}
    (holds : (current.register files source base text index).2.Holds binary) :
    current.Holds binary ∨ binary.Measured files := by
  simp only [Section.register] at holds
  split at holds
  · exact .inl holds
  · rename_i size measured
    rw [Section.append_eq_insert] at holds
    rcases holds_of_insert holds with old | isPayload
    · exact .inl old
    · cases isPayload
      exact .inr measured

/-- A file that stands in a section has stood there before, was known, or has just been
measured. -/
theorem holds_of_perform {edit : Edit} {files : Lookup} {known : Binary → Prop}
    (sound : current.binding.Sound) (faithful : edit.Faithful files known)
    (holds : (edit.perform current).2.Holds binary) :
    current.Holds binary ∨ known binary ∨ binary.Measured files := by
  cases edit with
  | append payload index =>
      rw [perform, snd_insertion, Section.append_eq_insert] at holds
      exact (holds_of_insert holds).imp_right fun isPayload => .inl (faithful binary isPayload)
  | insert payload position index =>
      rw [perform, snd_insertion] at holds
      exact (holds_of_insert holds).imp_right fun isPayload => .inl (faithful binary isPayload)
  | remove id =>
      rw [perform, snd_removal] at holds
      exact .inl (holds_of_remove holds)
  | register looked source base text index =>
      obtain rfl := faithful
      rw [perform, snd_insertion] at holds
      exact (holds_of_register holds).imp_right .inr
  | pushMacroCall call => exact .inl holds
  | resolve =>
      rw [perform_resolve_snd] at holds
      exact .inl (holds_of_resolve sound holds)

end Edit

namespace Layout

/-- A section of the layout holds a copy of the file. -/
def Holds (layout : Layout) (binary : Binary) : Prop :=
  ∃ current ∈ layout.sections, current.Holds binary

/-- A pass resolves a section or leaves it alone. -/
theorem exists_of_mem_resolveSections {sections : List Section} {current : Section}
    (member : current ∈ (resolveSections sections).2) :
    ∃ old ∈ sections, current = old ∨ current = old.resolve.2 := by
  rcases resolveSections_cases sections with
    ⟨_, -, passed⟩ | ⟨before, failing, behind, _, rfl, -, -, stopped⟩
  · rw [passed] at member
    obtain ⟨old, oldMember, rfl⟩ := List.mem_map.mp member
    exact ⟨old, oldMember, .inr rfl⟩
  · rw [stopped] at member
    rcases List.mem_append.mp member with earlier | rest
    · obtain ⟨old, oldMember, rfl⟩ := List.mem_map.mp earlier
      exact ⟨old, List.mem_append_left _ oldMember, .inr rfl⟩
    · rcases List.mem_cons.mp rest with rfl | untouched
      · exact ⟨failing, by simp, .inr rfl⟩
      · exact ⟨current, by simp [untouched], .inl rfl⟩

namespace Operation

def Faithful (files : Lookup) (known : Binary → Prop) : Operation → Prop
  | edit _ change => change.Faithful files known
  | registerInclude looked _ _ _ _ => looked = files
  | declare _ | resolve => True

section

variable {layout : Layout} {files : Lookup} {known : Binary → Prop} {binary : Binary}
  (reachable : layout.Reachable)

include reachable

theorem holds_of_edit {number : Nat} {change : Edit} (faithful : change.Faithful files known)
    (holds : (perform layout (edit number change)).Holds binary) :
    layout.Holds binary ∨ known binary ∨ binary.Measured files := by
  simp only [perform] at holds
  cases found : layout.section? number with
  | none =>
      rw [found] at holds
      exact .inl holds
  | some old =>
      rw [found] at holds
      have oldMember : old ∈ layout.sections := List.mem_of_getElem? found
      obtain ⟨current, member, held⟩ := holds
      rcases List.mem_or_eq_of_mem_set member with kept | rfl
      · exact .inl ⟨current, kept, held⟩
      · have sound := reachable.sound_of_mem old oldMember
        rcases Edit.holds_of_perform sound faithful held with before | others
        · exact .inl ⟨old, oldMember, before⟩
        · exact .inr others

theorem holds_of_perform {operation : Operation} (faithful : operation.Faithful files known)
    (holds : (operation.perform layout).Holds binary) :
    layout.Holds binary ∨ known binary ∨ binary.Measured files := by
  cases operation with
  | declare declaration =>
      simp only [perform] at holds
      cases bound : declaration.bind with
      | error error =>
          rw [bound] at holds
          exact .inl holds
      | ok fresh =>
          rw [bound] at holds
          obtain ⟨current, member, held⟩ := holds
          rcases List.mem_append.mp member with kept | added
          · exact .inl ⟨current, kept, held⟩
          · obtain rfl := List.mem_singleton.mp added
            obtain ⟨binding, -, rfl⟩ := Declaration.bind_ok bound
            obtain ⟨entry, none, -⟩ := held
            cases none
  | edit number change => exact holds_of_edit reachable faithful holds
  | registerInclude looked source number text index =>
      rw [perform_registerInclude] at holds
      exact @holds_of_edit layout files known binary reachable number
        (.register looked source layout.base text index) faithful holds
  | resolve =>
      obtain ⟨current, member, held⟩ := holds
      obtain ⟨old, oldMember, rfl | rfl⟩ := exists_of_mem_resolveSections member
      · exact .inl ⟨current, oldMember, held⟩
      · have sound := reachable.sound_of_mem old oldMember
        exact .inl ⟨old, oldMember, Edit.holds_of_resolve sound held⟩

end

end Operation

/-- Building measures every file that it includes. -/
theorem measured_of_build {description : Description} {files : Lookup} {directory base : Path}
    {layout : Layout} {binary : Binary}
    (built : description.build files directory base = .ok layout) (holds : layout.Holds binary) :
    binary.Measured files := by
  have outcome := @Item.Outcome.build files base description directory
  rw [built] at outcome
  obtain ⟨-, parts, rfl, each⟩ := outcome
  obtain ⟨current, member, entry, entryMember, includes⟩ := holds
  obtain ⟨part, partMember, currentMember⟩ := List.mem_flatten.mp member
  obtain ⟨file, -, sectionsBuilt⟩ := exists_mem_of_forall₂ each partMember
  obtain ⟨_, _, _, -, sectionBuilt⟩ := sectionsBuilt.built_of_mem currentMember
  obtain ⟨_, -, becomes⟩ := sectionBuilt.becomes_of_mem entryMember
  rw [includes] at becomes
  cases becomes with
  | binary measured => exact measured

end Layout

/-- A layout, and the files beside it. -/
structure Workspace where
  layout : Layout
  files : FileSystem

inductive Step where
  | operate (operation : Layout.Operation)
  | alter (change : FileChange)

namespace Step

def perform (workspace : Workspace) : Step → Workspace
  | operate operation => { workspace with layout := operation.perform workspace.layout }
  | alter change => { workspace with files := change.perform workspace.files }

def Faithful (files : Lookup) (known : Binary → Prop) : Step → Prop
  | operate operation => operation.Faithful files known
  | alter _ => True

end Step

namespace Workspace

variable {workspace : Workspace} {steps : List Step} {binary : Binary}

def performAll (workspace : Workspace) (steps : List Step) : Workspace :=
  steps.foldl Step.perform workspace

/-- The layout is empty, or it has been built from the files that are there. -/
inductive Begins : Workspace → Prop where
  | empty (base : Path) (files : FileSystem) : Begins ⟨.empty base, files⟩
  | built {description : Description} {directory base : Path} {layout : Layout}
      {files : FileSystem} :
      description.build files.find directory base = .ok layout → Begins ⟨layout, files⟩

/-- Every operation looks at the files as they are at its turn. A file can also be put in by
hand, as a copy of one that has stood in the layout. -/
def Runs (known : Binary → Prop) (workspace : Workspace) : List Step → Prop
  | [] => True
  | step :: rest =>
      let seen := fun binary => known binary ∨ workspace.layout.Holds binary
      step.Faithful workspace.files.find seen ∧ Runs seen (step.perform workspace) rest

theorem Begins.reachable (begins : workspace.Begins) : workspace.layout.Reachable := by
  cases begins with
  | empty base files => exact .empty base
  | built built => exact .built built

theorem reachable_perform (reachable : workspace.layout.Reachable) (step : Step) :
    (step.perform workspace).layout.Reachable := by
  cases step with
  | operate operation => exact reachable.performed operation
  | alter => exact reachable

theorem holds_of_perform {step : Step} {known : Binary → Prop}
    (reachable : workspace.layout.Reachable)
    (faithful : step.Faithful workspace.files.find known)
    (holds : (step.perform workspace).layout.Holds binary) :
    workspace.layout.Holds binary ∨ known binary ∨ binary.Measured workspace.files.find := by
  cases step with
  | operate operation => exact Layout.Operation.holds_of_perform reachable faithful holds
  | alter => exact .inl holds

/-- Where every file of the layout comes from: whatever holds of the files that are known or
stand in the layout at the beginning, and of each one at a moment when it is measured, holds
of the files that stand in the layout at the end. -/
theorem origin_of_runs {motive known : Binary → Prop} (reachable : workspace.layout.Reachable)
    (runs : Runs known workspace steps) (ofKnown : ∀ binary, known binary → motive binary)
    (ofHeld : ∀ binary, workspace.layout.Holds binary → motive binary)
    (ofMeasured : ∀ binary before after, steps = before ++ after →
      binary.Measured (workspace.performAll before).files.find → motive binary)
    (holds : (workspace.performAll steps).layout.Holds binary) : motive binary := by
  induction steps generalizing workspace known with
  | nil => exact ofHeld binary holds
  | cons step rest inductionHypothesis =>
      obtain ⟨faithful, behind⟩ := runs
      have ofSeen : ∀ binary, known binary ∨ workspace.layout.Holds binary → motive binary := by
        rintro binary (isKnown | held)
        · exact ofKnown binary isKnown
        · exact ofHeld binary held
      apply inductionHypothesis (reachable_perform reachable step) behind ofSeen
      · intro binary held
        rcases holds_of_perform reachable faithful held with old | seen | measured
        · exact ofHeld binary old
        · exact ofSeen binary seen
        · exact ofMeasured binary [] (step :: rest) rfl measured
      · rintro binary before after rfl measured
        exact ofMeasured binary (step :: before) after rfl measured
      · exact holds

/-- Every file in the layout had the recorded number of bytes at some moment of the run. -/
theorem exists_measured_of_runs (begins : workspace.Begins)
    (runs : workspace.Runs (fun _ => False) steps)
    (holds : (workspace.performAll steps).layout.Holds binary) :
    ∃ before after, steps = before ++ after ∧
      binary.Measured (workspace.performAll before).files.find := by
  refine origin_of_runs (motive := fun binary => ∃ before after, steps = before ++ after ∧
    binary.Measured (workspace.performAll before).files.find) begins.reachable runs ?_ ?_ ?_ holds
  · exact fun _ impossible => impossible.elim
  · intro binary held
    refine ⟨[], steps, rfl, ?_⟩
    cases begins with
    | empty base files =>
        obtain ⟨current, none, -⟩ := held
        cases none
    | built built => exact Layout.measured_of_build built held
  · intro binary before after split measured
    exact ⟨before, after, split, measured⟩

/-- No step of the run writes or deletes the file that a path leads to. -/
def Untouched (path : Path) (steps : List Step) : Prop :=
  ∀ change, Step.alter change ∈ steps →
    FileSystem.placeOf change.path ≠ FileSystem.placeOf path

/-- A file is where it is because a step of the run has written it there, or because it was
there from the beginning. -/
theorem node?_of_performAll {path : Path} {bytes : List UInt8} (untouched : Untouched path steps)
    (found : (workspace.performAll steps).files.node? (FileSystem.placeOf path) =
      some (.file bytes)) :
    workspace.files.node? (FileSystem.placeOf path) = some (.file bytes) := by
  induction steps generalizing workspace with
  | nil => exact found
  | cons step rest inductionHypothesis =>
      have behind : ∀ change, Step.alter change ∈ rest →
          FileSystem.placeOf change.path ≠ FileSystem.placeOf path :=
        fun change member => untouched change (List.mem_cons_of_mem step member)
      have earlier := inductionHypothesis behind found
      cases step with
      | operate operation => exact earlier
      | alter change =>
          exact FileChange.node?_of_perform (untouched change List.mem_cons_self) earlier

/-- Whatever a run does to the files, nothing is ever left without the directory that it
stands in. -/
theorem grounded_performAll (grounded : workspace.files.Grounded) (steps : List Step) :
    (workspace.performAll steps).files.Grounded := by
  induction steps generalizing workspace with
  | nil => exact grounded
  | cons step rest inductionHypothesis =>
      apply inductionHypothesis
      cases step with
      | operate operation => exact grounded
      | alter change => exact FileChange.grounded_perform grounded change

/-- A file that was measured and not touched since still has the recorded length. -/
theorem length_eq_of_untouched {bytes : List UInt8}
    (measured : binary.Measured workspace.files.find) (untouched : Untouched binary.path steps)
    (found : (workspace.performAll steps).files.find binary.path = .ok (.file bytes)) :
    bytes.length = binary.size.toNat := by
  have before := node?_of_performAll untouched (FileSystem.node?_of_find found)
  rcases probe_eq_ok_iff.mp measured with ⟨old, was, length⟩ | was
  · rw [FileSystem.node?_of_find was] at before
    cases before
    exact length
  · rw [FileSystem.node?_of_find was] at before
    cases before

/-- The number of bytes that is recorded for an included file, and with which the entries
behind it are placed, is the one that the file had at a moment of the run. In the end the
whole file is read. That is as many bytes exactly if the file has this length now, and it has
if no step has written or deleted it since such a moment. -/
theorem materialize_length (begins : workspace.Begins)
    (runs : workspace.Runs (fun _ => False) steps) {current : Section} {entry : Entry}
    (member : current ∈ (workspace.performAll steps).layout.sections)
    (stored : entry ∈ current.entries) (includes : entry.payload = .binary binary) :
    (∃ before after, steps = before ++ after ∧
      probe (workspace.performAll before).files.find binary.path = .ok entry.size) ∧
    ∀ bytes, (binary.materialize (workspace.performAll steps).files.find = .ok bytes ↔
        (workspace.performAll steps).files.find binary.path = .ok (.file bytes)) ∧
      (binary.materialize (workspace.performAll steps).files.find = .ok bytes →
        (bytes.length = entry.size.toNat ↔
          probe (workspace.performAll steps).files.find binary.path = .ok entry.size) ∧
        ∀ before after, steps = before ++ after →
          probe (workspace.performAll before).files.find binary.path = .ok entry.size →
          Untouched binary.path after → bytes.length = entry.size.toNat) := by
  have recorded : entry.size = binary.size := by
    rw [Entry.size, includes]
    rfl
  rw [recorded]
  refine ⟨exists_measured_of_runs begins runs ⟨current, member, entry, stored, includes⟩, ?_⟩
  intro bytes
  refine ⟨Binary.materialize_ok_iff, ?_⟩
  intro reads
  have found := Binary.materialize_ok_iff.mp reads
  refine ⟨Binary.length_eq_iff_measured found, ?_⟩
  rintro before after rfl measured untouched
  have continued : workspace.performAll (before ++ after) =
      (workspace.performAll before).performAll after :=
    List.foldl_append
  rw [continued] at found
  exact length_eq_of_untouched measured untouched found

/-- Nothing is declared, and there are no files. -/
def blank : Workspace := ⟨.empty .empty, .empty fun _ => 0⟩

def tiles : Binary := ⟨⟨"main.gbc", 0⟩, Path.ofString "a.bin", 4⟩

/-- A file of four bytes is stored and included. -/
def including : List Step :=
  [.operate (.declare ⟨"main.gbc", "Test", 0, "ROM0", none, none⟩),
    .alter (.store tiles.path (.file [1, 2, 3, 4])),
    .operate (.registerInclude (blank.files.put tiles.path (.file [1, 2, 3, 4])).find
      ⟨"main.gbc", Path.ofString "main.gbc"⟩ 0 tiles.path 0)]

/-- Behind the include a file is written, and all sections are resolved. -/
def writing (name : String) (bytes : List UInt8) : List Step :=
  [.alter (.write (Path.ofString name) bytes), .operate .resolve]

def otherWritten : List Step := including ++ writing "b.bin" [5]

def rewritten : List Step := including ++ writing "a.bin" [1, 2, 3, 4, 5, 6, 7, 8, 9, 10]

theorem materialize_length_otherWritten :
    blank.Begins ∧ blank.Runs (fun _ => False) otherWritten ∧
      ∃ current ∈ (blank.performAll otherWritten).layout.sections,
        ∃ entry ∈ current.entries, entry.payload = .binary tiles ∧
          ∃ bytes, tiles.materialize (blank.performAll otherWritten).files.find = .ok bytes ∧
            bytes.length = entry.size.toNat := by
  have begins : blank.Begins := .empty _ _
  have runs : blank.Runs (fun _ => False) otherWritten :=
    ⟨trivial, trivial, rfl, trivial, trivial, trivial⟩
  obtain ⟨current, member, entry, stored, includes⟩ :
      (blank.performAll otherWritten).layout.Holds tiles :=
    ⟨_, List.mem_of_getElem? (i := 0) rfl, _, List.mem_of_getElem? (i := 0) rfl, rfl⟩
  have reads :
      tiles.materialize (blank.performAll otherWritten).files.find = .ok [1, 2, 3, 4] := by
    decide +kernel
  have measured : probe (blank.performAll including).files.find tiles.path = .ok entry.size := by
    rw [Entry.size, includes]
    decide +kernel
  have untouched : Untouched tiles.path (writing "b.bin" [5]) := by
    intro change member
    simp only [writing, List.mem_cons, Step.alter.injEq, reduceCtorEq, List.not_mem_nil,
      or_false] at member
    subst member
    decide +kernel
  obtain ⟨-, ofBytes⟩ := materialize_length begins runs member stored includes
  have sameLength := ((ofBytes _).2 reads).2 including _ rfl measured untouched
  exact ⟨begins, runs, current, member, entry, stored, includes, _, reads, sameLength⟩

/-- The file is included with four bytes and has ten when it is read. -/
theorem materialize_length_ne_rewritten :
    blank.Begins ∧ blank.Runs (fun _ => False) rewritten ∧
      ∃ current ∈ (blank.performAll rewritten).layout.sections,
        ∃ entry ∈ current.entries, entry.payload = .binary tiles ∧
          ∃ bytes, tiles.materialize (blank.performAll rewritten).files.find = .ok bytes ∧
            bytes.length ≠ entry.size.toNat := by
  have runs : blank.Runs (fun _ => False) rewritten :=
    ⟨trivial, trivial, rfl, trivial, trivial, trivial⟩
  obtain ⟨current, member, entry, stored, includes⟩ :
      (blank.performAll rewritten).layout.Holds tiles :=
    ⟨_, List.mem_of_getElem? (i := 0) rfl, _, List.mem_of_getElem? (i := 0) rfl, rfl⟩
  refine ⟨.empty _ _, runs, current, member, entry, stored, includes,
    [1, 2, 3, 4, 5, 6, 7, 8, 9, 10], by decide +kernel, ?_⟩
  rw [Entry.size, includes]
  decide

end Workspace

end RomLayout
