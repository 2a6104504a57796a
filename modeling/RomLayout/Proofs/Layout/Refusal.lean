import RomLayout.Proofs.Policy
import RomLayout.Proofs.References

set_option autoImplicit false

/-!
Includes, and operations that are refused.

An include fails for one of three reasons, and they are looked at in a fixed order: the
section is not there, the file cannot be measured, the section has no place for it. It then
leaves no trace, like every insertion that is answered with an error and every removal that
finds nothing. All of them hand back a section together with their answer; that it is the one
they were given rests on the order of their steps, since the counter and the size are touched
only behind the last check. So refused operations may as well be left out of a run.
-/

namespace RomLayout

/-- The number of bytes that a path leads to now. -/
def probe (files : Lookup) (path : Path) : Except Fault UInt64 := files path >>= FileNode.size?

/-- A file gives its length, a directory the room that it takes itself. -/
theorem probe_eq_ok_iff {files : Lookup} {path : Path} {size : UInt64} :
    probe files path = .ok size ↔
      (∃ bytes, files path = .ok (.file bytes) ∧ bytes.length = size.toNat) ∨
      files path = .ok (.directory size) := by
  unfold probe
  rcases files path with fault | ⟨bytes | _⟩
  · simp [bind, Except.bind]
  · by_cases small : bytes.length < UInt64.size
    · have measured : bytes.length.toUInt64.toNat = bytes.length :=
        UInt64.toNat_ofNat_of_lt' small
      simp [bind, Except.bind, FileNode.size?, small, ← UInt64.toNat_inj, measured]
    · have tooLong : bytes.length ≠ size.toNat := by
        intro same
        exact small (same ▸ size.toNat_lt)
      simp [bind, Except.bind, FileNode.size?, small, tooLong]
  · simp [bind, Except.bind, FileNode.size?]

namespace Section

variable {current : Section}

/-- No entry has the id, none refers to it, and no insertion has answered with it in any run
that leads to the section. -/
structure Unused (current : Section) (id : EntryId) : Prop where
  noEntry : id ∉ current.ids
  noReference : ∀ entry ∈ current.entries, entry.label ≠ some id
  neverGiven : ∀ (start : Section) (edits : List Edit),
    (Edit.performAll start edits).2 = current → id ∉ insertedIds (Edit.performAll start edits).1

theorem unused_nextId (reachable : Reachable current) : current.Unused current.nextId := by
  refine ⟨reachable.identified.nextId_not_mem, ?_, ?_⟩
  · intro entry member refers
    exact Nat.lt_irrefl _ (reachable.refersBack.known entry member _ refers)
  · rintro start edits rfl given
    obtain ⟨count, counter, ids⟩ := Edit.insertedIds_performAll start edits
    rw [ids, counter, List.mem_range'_1] at given
    exact Nat.lt_irrefl _ given.2

/-- One entry more at the end. The size is not known any more, and the counter has gone on;
everything else is the same. -/
structure Extends (current extended : Section) (entry : Entry) : Prop where
  entries : extended.entries = current.entries ++ [entry]
  binding : extended.binding = current.binding
  macroCalls : extended.macroCalls = current.macroCalls
  size : extended.size = none
  nextId : extended.nextId = current.nextId + 1

/-- What registering a file at `path` answers, by what probing it has given, and the state
that it leaves: the one in front of it, or one that shows the section with the new entry. -/
structure Registration {State : Type} (current : Section) (probed : Except Fault UInt64)
    (location : Location) (path : Path) (before : State) (shows : Section → State → Prop)
    (outcome : Except Error EntryId × State) : Prop where
  unreadable : ∀ cause, probed = .error cause →
    outcome = (.error (.includeFailed location path cause), before)
  refused : ∀ size, probed = .ok size → current.binding.region.storage = .readWrite →
    outcome =
      (.error (.illegalContent ⟨current.binding.file, location.index⟩ .binaryInRam), before)
  included : ∀ size, probed = .ok size → current.binding.region.storage = .readOnly →
    ∃ id extended after, outcome = (.ok id, after) ∧ shows extended after ∧ current.Unused id ∧
      current.Extends extended
        { id, payload := .binary ⟨location, path, size⟩, index := location.index,
          address := none, label := none }

theorem extends_grown (current : Section) (payload : Payload) (index : Nat) :
    current.Extends (current.grown payload current.entries.length index)
      (current.unplaced payload index) := by
  refine ⟨?_, rfl, rfl, rfl, rfl⟩
  simp [grown]

theorem insert_of_error {payload : Payload} {position index : Nat} {error : Error}
    (failed : (current.insert payload position index).1 = .error error) :
    (current.insert payload position index).2 = current := by
  rw [insert_eq] at failed ⊢
  cases checked : current.check payload index with
  | error _ => rfl
  | ok _ =>
      rw [checked] at failed
      cases failed

theorem append_of_error {payload : Payload} {index : Nat} {error : Error}
    (failed : (current.append payload index).1 = .error error) :
    (current.append payload index).2 = current := by
  rw [append_eq_insert] at failed ⊢
  exact insert_of_error failed

theorem register_of_error {files : Lookup} {source : SourceFile} {base text : Path} {index : Nat}
    {error : Error} (failed : (current.register files source base text index).1 = .error error) :
    (current.register files source base text index).2 = current := by
  unfold register at failed ⊢
  dsimp only at failed ⊢
  split at failed
  · rfl
  · exact append_of_error failed

theorem registration_register (reachable : Reachable current) (files : Lookup)
    (source : SourceFile) (base text : Path) (index : Nat) :
    current.Registration (probe files (source.includePath base text)) ⟨source.name, index⟩
      (source.includePath base text) current Eq
      (current.register files source base text index) := by
  unfold register probe
  dsimp only
  constructor
  · intro cause failed
    rw [failed]
  · intro size measured readWrite
    rw [measured]
    dsimp only
    have violated : (Payload.binary ⟨⟨source.name, index⟩, source.includePath base text,
        size⟩).violation? current.binding.region.storage = some .binaryInRam := by
      rw [readWrite]
      rfl
    rw [append_eq_insert, insert_of_violation? violated]
  · intro size measured readOnly
    rw [measured]
    dsimp only
    rw [append_eq_insert, insert_of_admits (by simp [Storage.Admits, readOnly])]
    exact ⟨_, _, _, rfl, rfl, unused_nextId reachable, extends_grown _ _ _⟩

end Section

namespace Edit

/-- The operation is answered with an error, or there is nothing to remove. A pass that stops
half way does not count. -/
def Refused (current : Section) : Edit → Prop
  | append payload index => ∃ error, (current.append payload index).1 = .error error
  | insert payload position index =>
      ∃ error, (current.insert payload position index).1 = .error error
  | remove id => id ∉ current.ids
  | register files source base text index =>
      ∃ error, (current.register files source base text index).1 = .error error
  | pushMacroCall _ | resolve => False

theorem perform_of_refused {current : Section} {edit : Edit} (refused : edit.Refused current) :
    (edit.perform current).2 = current := by
  cases edit with
  | append payload index =>
      obtain ⟨error, failed⟩ := refused
      rw [perform, snd_insertion, Section.append_of_error failed]
  | insert payload position index =>
      obtain ⟨error, failed⟩ := refused
      rw [perform, snd_insertion, Section.insert_of_error failed]
  | remove id =>
      rw [perform, Section.remove_of_not_mem refused]
      rfl
  | register files source base text index =>
      obtain ⟨error, failed⟩ := refused
      rw [perform, snd_insertion, Section.register_of_error failed]
  | pushMacroCall | resolve => cases refused

end Edit

namespace Layout

/-- The layout but for one of its sections, which is another one. -/
structure DiffersAt (layout : Layout) (number : Nat) (changed : Section) (after : Layout) :
    Prop where
  here : after.section? number = some changed
  elsewhere : ∀ other, other ≠ number → after.section? other = layout.section? other
  base : after.base = layout.base

theorem differsAt_update {layout : Layout} {number : Nat} {current : Section}
    (found : layout.section? number = some current) (changed : Section) :
    layout.DiffersAt number changed (layout.update number changed) := by
  obtain ⟨inside, -⟩ := List.getElem?_eq_some_iff.mp found
  refine ⟨List.getElem?_set_self inside, ?_, rfl⟩
  intro other different
  exact List.getElem?_set_ne different.symm

/-- What is registered in a section is registered in the layout that it stands in. -/
theorem registration_update {layout : Layout} {number : Nat} {current : Section}
    {probed : Except Fault UInt64} {location : Location} {path : Path}
    {outcome : Except Error EntryId × Section} (found : layout.section? number = some current)
    (registration : current.Registration probed location path current Eq outcome) :
    current.Registration probed location path layout (layout.DiffersAt number)
      (outcome.1, layout.update number outcome.2) := by
  constructor
  · intro cause failed
    rw [registration.unreadable cause failed, update_self found]
  · intro size measured readWrite
    rw [registration.refused size measured readWrite, update_self found]
  · intro size measured readOnly
    obtain ⟨id, extended, _, rfl, rfl, unused, shape⟩ :=
      registration.included size measured readOnly
    exact ⟨id, extended, _, rfl, differsAt_update found extended, unused, shape⟩

theorem registerInclude_eq {layout : Layout} {number : Nat} {current : Section}
    (found : layout.section? number = some current) (files : Lookup) (source : SourceFile)
    (text : Path) (index : Nat) :
    layout.registerInclude files source number text index =
      ((current.register files source layout.base text index).1,
        layout.update number (current.register files source layout.base text index).2) := by
  rw [registerInclude, found]

theorem registerInclude_of_error {layout : Layout} {files : Lookup} {source : SourceFile}
    {number : Nat} {text : Path} {index : Nat} {error : Error}
    (failed : (layout.registerInclude files source number text index).1 = .error error) :
    (layout.registerInclude files source number text index).2 = layout := by
  cases found : layout.section? number with
  | none => rw [registerInclude, found]
  | some current =>
      rw [registerInclude_eq found] at failed ⊢
      rw [Section.register_of_error failed, update_self found]

/-- Refused by the layout or by the section that it goes to, if there is one. -/
def Operation.Refused (layout : Layout) : Operation → Prop
  | declare declaration => ∃ error, declaration.bind = .error error
  | edit number change =>
      ∀ current, layout.section? number = some current → change.Refused current
  | registerInclude files source number text index =>
      ∃ error, (layout.registerInclude files source number text index).1 = .error error
  | resolve => False

namespace Operation

theorem perform_of_refused {layout : Layout} {operation : Operation}
    (refused : operation.Refused layout) : operation.perform layout = layout := by
  cases operation with
  | declare declaration =>
      obtain ⟨error, failed⟩ := refused
      simp only [perform, failed]
  | edit number change =>
      simp only [perform]
      cases found : layout.section? number with
      | none => rfl
      | some current =>
          dsimp only
          rw [Edit.perform_of_refused (refused current found), update_self found]
  | registerInclude files source number text index =>
      obtain ⟨error, failed⟩ := refused
      rw [perform, registerInclude_of_error failed]
  | resolve => cases refused

/-- The second run is the first one without some of the operations that are refused in it. -/
inductive Spares : Layout → List Operation → List Operation → Prop where
  | nil (layout : Layout) : Spares layout [] []
  | kept {layout : Layout} {rest others : List Operation} (operation : Operation) :
      Spares (operation.perform layout) rest others →
      Spares layout (operation :: rest) (operation :: others)
  | spared {layout : Layout} {operation : Operation} {rest others : List Operation} :
      operation.Refused layout → Spares layout rest others →
      Spares layout (operation :: rest) others

theorem performAll_eq_of_spares {layout : Layout} {operations others : List Operation}
    (spares : Spares layout operations others) :
    performAll layout operations = performAll layout others := by
  induction spares with
  | nil => rfl
  | kept operation _ inductionHypothesis => exact inductionHypothesis
  | @spared layout operation rest others refused _ inductionHypothesis =>
      change performAll (operation.perform layout) rest = _
      rw [perform_of_refused refused, inductionHypothesis]

end Operation

/-- An include is answered by the first of these that applies: there is no such section, the
path cannot be measured, the section is one of variables, or else a new entry stands at its
end that records the path and the number of bytes in the file, and no other section is another
one. A refused operation leaves the layout as it was, and so a run may leave it out. -/
theorem refusals_traceless {layout : Layout} (reachable : layout.Reachable) (files : Lookup)
    (source : SourceFile) (number : Nat) (text : Path) (index : Nat) :
    (layout.section? number = none →
      layout.registerInclude files source number text index =
        (.error (.sectionNotFound number), layout)) ∧
    (∀ current, layout.section? number = some current →
      current.Registration (probe files (source.includePath layout.base text))
        ⟨source.name, index⟩ (source.includePath layout.base text) layout
        (layout.DiffersAt number) (layout.registerInclude files source number text index) ∧
      ∀ base, current.Registration (probe files (source.includePath base text))
        ⟨source.name, index⟩ (source.includePath base text) current Eq
        (current.register files source base text index)) ∧
    (∀ path size, probe files path = .ok size ↔
      (∃ bytes, files path = .ok (.file bytes) ∧ bytes.length = size.toNat) ∨
      files path = .ok (.directory size)) ∧
    (∀ operation : Operation, operation.Refused layout → operation.perform layout = layout) ∧
    ∀ operations others, Operation.Spares layout operations others →
      Operation.performAll layout operations = Operation.performAll layout others := by
  refine ⟨?_, ?_, ?_, ?_, ?_⟩
  · intro missing
    rw [registerInclude, missing]
  · intro current found
    have registered := Section.registration_register
      (reachable.reachable_of_mem current (List.mem_of_getElem? found)) files source
    constructor
    · rw [registerInclude_eq found]
      exact registration_update found (registered layout.base text index)
    · intro base
      exact registered base text index
  · intro path size
    exact probe_eq_ok_iff
  · intro operation refused
    exact Operation.perform_of_refused refused
  · intro operations others spares
    exact Operation.performAll_eq_of_spares spares

/-- A missing file is reported even for the section of variables. Of three refused operations
and a label only the label is left. -/
theorem refusals_traceless_guarded :
    guarded.Reachable ∧
      guarded.registerInclude (fun _ => .error .notFound) ⟨"main.gbc", .empty⟩ 0 .empty 6 =
        (.error (.includeFailed ⟨"main.gbc", 6⟩ .empty .notFound), guarded) ∧
      guarded.registerInclude (fun _ => .ok (.file [1, 2])) ⟨"main.gbc", .empty⟩ 0 .empty 6 =
        (.error (.illegalContent ⟨"main.gbc", 6⟩ .binaryInRam), guarded) ∧
      (∃ id after, guarded.registerInclude (fun _ => .ok (.file [1, 2])) ⟨"main.gbc", .empty⟩ 1
          .empty 6 = (.ok id, after) ∧
        after.section? 0 = guarded.section? 0 ∧
        ∃ main, after.section? 1 = some main ∧ main.entries.map (·.payload) =
          [.binary ⟨⟨"main.gbc", 5⟩, .empty, 3⟩, .binary ⟨⟨"main.gbc", 6⟩, .empty, 2⟩]) ∧
      guarded.registerInclude (fun _ => .error .notFound) ⟨"main.gbc", .empty⟩ 2 .empty 6 =
        (.error (.sectionNotFound 2), guarded) ∧
      Operation.performAll guarded
        [.registerInclude (fun _ => .ok (.file [1, 2])) ⟨"main.gbc", .empty⟩ 0 .empty 6,
          .edit 0 (.append (.label "end") 7), .edit 1 (.append (.slot 1) 8),
          .edit 1 (.remove 5)] =
        Operation.performAll guarded [.edit 0 (.append (.label "end") 7)] := by
  have reachable : guarded.Reachable := (Reachable.empty _).performAll _
  let source : SourceFile := ⟨"main.gbc", .empty⟩
  let missing : Lookup := fun _ => .error .notFound
  let found : Lookup := fun _ => .ok (.file [1, 2])
  obtain ⟨-, vars, -, -, -⟩ := refusals_traceless reachable missing source 0 .empty 6
  obtain ⟨-, file, -, -, spare⟩ := refusals_traceless reachable found source 0 .empty 6
  obtain ⟨-, main, -, -, -⟩ := refusals_traceless reachable found source 1 .empty 6
  obtain ⟨absent, -, -, -, -⟩ := refusals_traceless reachable missing source 2 .empty 6
  obtain ⟨id, extended, after, included, differs, -, shape⟩ := (main _ rfl).1.included 2 rfl rfl
  refine ⟨reachable, (vars _ rfl).1.unreadable .notFound rfl, (file _ rfl).1.refused 2 rfl rfl,
    ⟨id, after, included, differs.elsewhere 0 (by decide), extended, differs.here, ?_⟩,
    absent rfl, spare _ _ ?_⟩
  · rw [shape.entries]
    rfl
  refine .spared ⟨_, rfl⟩ (.kept _ (.spared ?_ (.spared ?_ (.nil _))))
  · rintro current ⟨⟩
    exact ⟨_, rfl⟩
  · rintro current ⟨⟩
    change (5 : EntryId) ∉ Section.ids _
    decide

end Layout

end RomLayout
