import RomLayout.Proofs.Entries
import RomLayout.Proofs.Items

set_option autoImplicit false

/-!
Building a layout, item by item.

Each function of the builder comes to an outcome of the items that it goes through:
one entry, the entries of a section, the sections of a file, the files. The counters
that it passes on agree with the sums of `headerIndex`.
-/

namespace RomLayout

theorem toNat_max (left right : UInt64) :
    (max left right).toNat = max left.toNat right.toNat := by
  by_cases atMost : left ≤ right
  · have atMostNat : left.toNat ≤ right.toNat := atMost
    rw [Nat.max_eq_right atMostNat]
    exact congrArg UInt64.toNat (if_pos atMost)
  · have above : ¬left.toNat ≤ right.toNat := atMost
    rw [Nat.max_eq_left (by omega)]
    exact congrArg UInt64.toNat (if_neg atMost)

namespace Layout

/-- A layout whose last section is being filled. -/
def filling (base : Path) (front : List Section) (current : Section) : Layout :=
  ⟨base, front ++ [current]⟩

variable {base : Path} {front : List Section} {current changed : Section}

@[simp] theorem base_filling : (filling base front current).base = base := rfl

@[simp] theorem section?_filling :
    (filling base front current).section? front.length = some current := by
  simp [filling, section?]

@[simp] theorem update_filling :
    (filling base front current).update front.length changed = filling base front changed := by
  simp [filling, update, List.set_append_right]

end Layout

namespace EntryDescription

variable {files : Lookup} {base : Path} {source : SourceFile} {index : Nat}
  {described : EntryDescription}

/-- The payload of an entry, or why its file cannot be measured. -/
def payload? (files : Lookup) (base : Path) (source : SourceFile) (index : Nat) :
    EntryDescription → Except Error Payload
  | label name => .ok (.label name)
  | instruction mnemonic size => .ok (.instruction mnemonic size)
  | data values declared => .ok (.data ⟨values, max (declared.getD 0) values.length.toUInt64⟩)
  | slot size => .ok (.slot size)
  | binary text =>
      match files (source.includePath base text) >>= FileNode.size? with
      | .error cause =>
          .error (.includeFailed ⟨source.name, index⟩ (source.includePath base text) cause)
      | .ok size => .ok (.binary ⟨⟨source.name, index⟩, source.includePath base text, size⟩)

theorem becomes_iff {payload : Payload} :
    described.Becomes files base source index payload ↔
      described.payload? files base source index = .ok payload := by
  constructor
  · intro becomes
    cases becomes with
    | label | instruction | data | slot => rfl
    | binary measured =>
        rw [payload?]
        rw [measured]
  · intro found
    cases described with
    | label | instruction | data | slot =>
        cases found
        constructor
    | binary text =>
        rw [payload?] at found
        split at found
        · cases found
        · rename_i size measured
          cases found
          exact .binary measured

theorem refused_of_payload? {declaration : Declaration} {error : Error}
    (unmeasured : described.payload? files base source index = .error error) :
    Item.Refused files base (.entry source declaration index described) error := by
  cases described with
  | label | instruction | data | slot => cases unmeasured
  | binary text =>
      rw [payload?] at unmeasured
      split at unmeasured
      · rename_i cause missing
        cases unmeasured
        exact .unmeasured missing
      · cases unmeasured

theorem max_getD_count (declared : Option UInt64) (count : UInt64) :
    max (declared.getD count) count = max (declared.getD 0) count := by
  cases declared with
  | none =>
      apply UInt64.toNat_inj.mp
      rw [toNat_max, toNat_max]
      simp
  | some size => rfl

/-- In a layout whose last section has the number that is asked for, an entry goes to this
section, whichever way it takes. -/
theorem addTo_filling (front : List Section) (current : Section) :
    described.addTo files source front.length index (.filling base front current) =
      (described.payload? files base source index).bind fun payload =>
        (current.check payload index).map fun _ =>
          .filling base front (current.grown payload current.entries.length index) := by
  have appended (payload : Payload) :
      ((current.append payload index).1.map fun _ =>
        Layout.filling base front (current.append payload index).2) =
      (current.check payload index).map fun _ =>
        .filling base front (current.grown payload current.entries.length index) := by
    rw [Section.append_eq_insert, Section.insert_eq]
    cases current.check payload index <;> rfl
  cases described with
  | label | instruction | slot =>
      simp only [addTo, inMemory?, Layout.section?_filling, Layout.update_filling]
      exact appended _
  | data values declared =>
      simp only [addTo, inMemory?, Layout.section?_filling, Layout.update_filling, max_getD_count]
      exact appended _
  | binary text =>
      simp only [addTo, inMemory?, Layout.registerInclude, Layout.base_filling,
        Layout.section?_filling, Layout.update_filling, Section.register, payload?]
      cases files (source.includePath base text) >>= FileNode.size? with
      | error cause => rfl
      | ok size => exact appended _

end EntryDescription

/-- Entries that stand for their descriptions, with ids and source indices that count on
from the given ones. -/
inductive Listed (files : Lookup) (base : Path) (source : SourceFile) :
    Nat → Nat → List EntryDescription → List Entry → Prop where
  | nil (id index : Nat) : Listed files base source id index [] []
  | cons {id index : Nat} {described : EntryDescription} {rest : List EntryDescription}
      {payload : Payload} {others : List Entry} :
      described.Becomes files base source index payload →
      Listed files base source (id + 1) (index + 1) rest others →
      Listed files base source id index (described :: rest)
        ({ id, payload, index, address := none, label := none } :: others)

namespace Listed

variable {files : Lookup} {base : Path} {source : SourceFile} {id index : Nat}
  {described : List EntryDescription} {added : List Entry}

theorem length_eq (listed : Listed files base source id index described added) :
    added.length = described.length := by
  induction listed with
  | nil => rfl
  | cons _ _ inductionHypothesis => rw [List.length_cons, List.length_cons, inductionHypothesis]

theorem getElem? (listed : Listed files base source id index described added) {position : Nat}
    {entry : EntryDescription} (found : described[position]? = some entry) :
    ∃ payload, entry.Becomes files base source (index + position) payload ∧
      added[position]? = some
        { id := id + position, payload, index := index + position, address := none,
          label := none } := by
  induction listed generalizing position with
  | nil => simp at found
  | @cons id index described rest payload others becomes _ inductionHypothesis =>
      cases position with
      | zero =>
          simp only [List.getElem?_cons_zero, Option.some.injEq] at found
          subst found
          exact ⟨payload, becomes, rfl⟩
      | succ position =>
          rw [List.getElem?_cons_succ] at found
          have behind := inductionHypothesis found
          rwa [Nat.add_right_comm index, Nat.add_right_comm id] at behind

end Listed

namespace Item.Outcome

variable {files : Lookup} {base : Path} {source : SourceFile} {declaration : Declaration}
  {bound current : Section}

theorem addTo (isBound : declaration.bind = .ok bound)
    (sameBinding : current.binding = bound.binding) (named : bound.binding.file = source.name)
    (front : List Section) (index : Nat) (described : EntryDescription) :
    Outcome files base [.entry source declaration index described]
      (fun changed => ∃ payload, described.Becomes files base source index payload ∧
        changed = .filling base front (current.grown payload current.entries.length index))
      (described.addTo files source front.length index (.filling base front current)) := by
  rw [EntryDescription.addTo_filling]
  cases measured : described.payload? files base source index with
  | error error => exact .of_refused (EntryDescription.refused_of_payload? measured)
  | ok payload =>
      have becomes := EntryDescription.becomes_iff.mpr measured
      change Outcome files base _ _ ((current.check payload index).map _)
      rw [Section.check, sameBinding, named]
      cases allowed : payload.violation? bound.binding.region.storage with
      | some violation => exact .of_refused (.illegal isBound becomes allowed)
      | none =>
          apply of_accepted _ ⟨payload, becomes, rfl⟩
          -- Binding and payload are functions of the description, so no second bound
          -- section or payload could be refused in place of these.
          intro error refused
          cases refused with
          | @illegal _ _ _ _ other otherPayload violation otherBound otherBecomes violated =>
              rw [isBound] at otherBound
              cases otherBound
              rw [EntryDescription.becomes_iff, measured] at otherBecomes
              cases otherBecomes
              rw [allowed] at violated
              cases violated
          | unmeasured missing =>
              rw [EntryDescription.payload?] at measured
              rw [missing] at measured
              cases measured

theorem mapIdx_entry_cons (source : SourceFile) (declaration : Declaration) (index : Nat)
    (described : EntryDescription) (rest : List EntryDescription) :
    ((described :: rest).mapIdx fun position entry =>
      Item.entry source declaration (index + position) entry) =
      [.entry source declaration index described] ++
        rest.mapIdx fun position entry =>
          .entry source declaration (index + 1 + position) entry := by
  rw [List.mapIdx_cons]
  simp only [Nat.add_zero, List.singleton_append, List.cons.injEq, true_and]
  congr 1
  funext position entry
  rw [Nat.add_assoc index 1, Nat.add_comm 1]

theorem addEntries (isBound : declaration.bind = .ok bound)
    (sameBinding : current.binding = bound.binding) (named : bound.binding.file = source.name)
    (unresolved : current.size = none) (front : List Section) (index : Nat)
    (described : List EntryDescription) :
    Outcome files base
      (described.mapIdx fun position entry => .entry source declaration (index + position) entry)
      (fun changed => ∃ added, Listed files base source current.nextId index described added ∧
        changed = .filling base front { current with
          entries := current.entries ++ added
          nextId := current.nextId + described.length })
      (RomLayout.addEntries files source front.length index (.filling base front current)
        described) := by
  induction described generalizing index current with
  | nil =>
      refine ⟨by simp, [], .nil _ _, ?_⟩
      simp
  | cons entry rest inductionHypothesis =>
      have step (layout : Layout) :
          RomLayout.addEntries files source front.length index layout (entry :: rest) =
            (entry.addTo files source front.length index layout).bind fun changed =>
              RomLayout.addEntries files source front.length (index + 1) changed rest := by
        rw [RomLayout.addEntries]
        cases entry.addTo files source front.length index layout <;> rfl
      rw [step, mapIdx_entry_cons]
      apply bind (addTo isBound sameBinding named front index entry)
      rintro changed ⟨payload, becomes, rfl⟩
      have behind :=
        @inductionHypothesis (current.grown payload current.entries.length index) sameBinding rfl
          (index + 1)
      refine imp behind ?_
      rintro final ⟨added, listed, rfl⟩
      refine ⟨_, .cons becomes listed, ?_⟩
      simp only [Section.grown, Section.unplaced, unresolved, List.take_length, List.drop_length,
        List.append_assoc, List.singleton_append, List.length_cons, Nat.add_assoc, Nat.add_comm 1]

end Item.Outcome

/-- What building makes of a section: the bound declaration, with one entry for each
declared one. Ids count from zero, source indices from the one behind the header. -/
structure SectionDescription.Built (described : SectionDescription) (files : Lookup) (base : Path)
    (source : SourceFile) (name : String) (index : Nat) (current : Section) : Prop where
  bound : ∃ bound, (described.declaration source.name name index).bind = .ok bound ∧
    current = { bound with entries := current.entries, nextId := described.entries.length }
  count : current.entries.length = described.entries.length
  entry : ∀ (position : Nat) (entry : EntryDescription),
    described.entries[position]? = some entry →
    ∃ payload, entry.Becomes files base source (index + 1 + position) payload ∧
      current.entries[position]? = some
        { id := position, payload, index := index + 1 + position, address := none, label := none }

namespace Item.Outcome

variable {files : Lookup} {base : Path}

theorem addSection (described : SectionDescription) (source : SourceFile) (name : String)
    (index : Nat) (front : List Section) :
    Outcome files base (described.items source name index)
      (fun changed => ∃ current, described.Built files base source name index current ∧
        changed = ⟨base, front ++ [current]⟩)
      (described.addTo files source name index ⟨base, front⟩) := by
  let declaration := described.declaration source.name name index
  have header : Outcome files base [.header declaration]
      (fun bound => declaration.bind = .ok bound) declaration.bind := by
    cases bound : declaration.bind with
    | error error => exact .of_refused (.unbound bound)
    | ok current =>
        apply of_accepted _ rfl
        intro error refused
        cases refused with
        | unbound unbound =>
            rw [bound] at unbound
            cases unbound
  have step : described.addTo files source name index ⟨base, front⟩ =
      declaration.bind.bind fun bound =>
        RomLayout.addEntries files source front.length (index + 1) (.filling base front bound)
          described.entries := by
    rw [SectionDescription.addTo]
    cases declaration.bind <;> rfl
  rw [step, SectionDescription.items]
  apply bind header
  intro bound isBound
  obtain ⟨binding, accepted, rfl⟩ := Declaration.bind_ok isBound
  have named : binding.file = source.name := Declaration.file_of_binding accepted
  refine imp (addEntries isBound rfl named rfl front (index + 1) described.entries) ?_
  rintro final ⟨added, listed, rfl⟩
  refine ⟨_, ⟨⟨_, isBound, ?_⟩, ?_, ?_⟩, rfl⟩
  · simp [Binding.emptySection]
  · simpa [Binding.emptySection] using listed.length_eq
  · intro position entry found
    simpa [Binding.emptySection] using listed.getElem? found

end Item.Outcome

/-- One section for each declared one, in the same order. The first header has the source
index `start`. -/
structure SectionsBuilt (files : Lookup) (base : Path) (source : SourceFile) (start : Nat)
    (sections : List (String × SectionDescription)) (built : List Section) : Prop where
  count : built.length = sections.length
  each : ∀ (position : Nat) (name : String) (described : SectionDescription),
    sections[position]? = some (name, described) →
    ∃ current, built[position]? = some current ∧
      described.Built files base source name (headerIndex start sections position) current

section HeaderIndex

variable (source : SourceFile) (start : Nat) (name : String) (described : SectionDescription)
  (rest : List (String × SectionDescription))

@[simp] theorem headerIndex_zero (sections : List (String × SectionDescription)) :
    headerIndex start sections 0 = start := by
  simp [headerIndex]

theorem headerIndex_cons_succ (position : Nat) :
    headerIndex start ((name, described) :: rest) (position + 1) =
      headerIndex (start + described.itemCount) rest position := by
  simp only [headerIndex, SectionDescription.itemCount, List.take_succ_cons, List.map_cons,
    List.sum_cons]
  omega

theorem sectionItems_cons :
    sectionItems source start ((name, described) :: rest) =
      described.items source name start ++
        sectionItems source (start + described.itemCount) rest := by
  simp only [sectionItems, List.mapIdx_cons, List.flatten_cons, headerIndex_zero,
    headerIndex_cons_succ]

end HeaderIndex

theorem SectionsBuilt.cons {files : Lookup} {base : Path} {source : SourceFile} {start : Nat}
    {name : String} {described : SectionDescription} {rest : List (String × SectionDescription)}
    {current : Section} {others : List Section}
    (head : described.Built files base source name start current)
    (behind : SectionsBuilt files base source (start + described.itemCount) rest others) :
    SectionsBuilt files base source start ((name, described) :: rest) (current :: others) := by
  constructor
  · rw [List.length_cons, List.length_cons, behind.count]
  · intro position otherName other found
    cases position with
    | zero =>
        cases found
        rw [headerIndex_zero]
        exact ⟨current, rfl, head⟩
    | succ position =>
        rw [headerIndex_cons_succ]
        exact behind.each position otherName other found

namespace Item.Outcome

variable {files : Lookup} {base : Path}

theorem addSections (source : SourceFile) (start : Nat) (front : List Section)
    (sections : List (String × SectionDescription)) :
    Outcome files base (sectionItems source start sections)
      (fun changed => ∃ built, SectionsBuilt files base source start sections built ∧
        changed = ⟨base, front ++ built⟩)
      (RomLayout.addSections files source start ⟨base, front⟩ sections) := by
  induction sections generalizing start front with
  | nil => exact ⟨by simp [sectionItems], [], ⟨rfl, by simp⟩, by simp⟩
  | cons declared rest inductionHypothesis =>
      obtain ⟨name, described⟩ := declared
      have step (layout : Layout) :
          RomLayout.addSections files source start layout ((name, described) :: rest) =
            (described.addTo files source name start layout).bind fun changed =>
              RomLayout.addSections files source (start + described.itemCount) changed rest := by
        rw [RomLayout.addSections]
        cases described.addTo files source name start layout <;> rfl
      rw [step, sectionItems_cons]
      apply bind (addSection described source name start front)
      rintro changed ⟨current, built, rfl⟩
      refine imp (inductionHypothesis (start + described.itemCount) (front ++ [current])) ?_
      rintro final ⟨others, behind, rfl⟩
      exact ⟨current :: others, .cons built behind, by simp⟩

theorem addFiles (directory : Path) (front : List Section) (described : List FileDescription) :
    Outcome files base
      (described.flatMap fun file => sectionItems (file.source directory) 0 file.sections)
      (fun changed => ∃ parts : List (List Section), changed = ⟨base, front ++ parts.flatten⟩ ∧
        List.Forall₂ (fun file => SectionsBuilt files base (file.source directory) 0 file.sections)
          described parts)
      (Description.addFiles files directory ⟨base, front⟩ described) := by
  induction described generalizing front with
  | nil => exact ⟨by simp, [], by simp, .nil⟩
  | cons file rest inductionHypothesis =>
      have step (layout : Layout) :
          Description.addFiles files directory layout (file :: rest) =
            (RomLayout.addSections files (file.source directory) 0 layout file.sections).bind
              fun changed => Description.addFiles files directory changed rest := by
        rw [Description.addFiles, FileDescription.addTo]
        cases RomLayout.addSections files (file.source directory) 0 layout file.sections <;> rfl
      rw [step, List.flatMap_cons]
      apply bind (addSections (file.source directory) 0 front file.sections)
      rintro changed ⟨part, built, rfl⟩
      refine imp (inductionHypothesis (front ++ part)) ?_
      rintro final ⟨parts, rfl, behind⟩
      exact ⟨part :: parts, by simp, .cons built behind⟩

theorem build (description : Description) (directory : Path) :
    Outcome files base (description.items directory)
      (fun layout => ∃ parts : List (List Section), layout = ⟨base, parts.flatten⟩ ∧
        List.Forall₂ (fun file => SectionsBuilt files base (file.source directory) 0 file.sections)
          description.files parts)
      (description.build files directory base) :=
  addFiles directory [] description.files

end Item.Outcome

theorem SectionDescription.Built.becomes_of_mem {files : Lookup} {base : Path}
    {source : SourceFile} {name : String} {index : Nat} {described : SectionDescription}
    {current : Section} (built : described.Built files base source name index current)
    {entry : Entry} (member : entry ∈ current.entries) :
    ∃ declared ∈ described.entries,
      declared.Becomes files base source entry.index entry.payload := by
  obtain ⟨position, inside, rfl⟩ := List.getElem_of_mem member
  have declaredInside : position < described.entries.length := built.count ▸ inside
  obtain ⟨payload, becomes, found⟩ :=
    built.entry position _ (List.getElem?_eq_getElem declaredInside)
  rw [List.getElem?_eq_getElem inside, Option.some.injEq] at found
  refine ⟨_, List.getElem_mem declaredInside, ?_⟩
  rw [found]
  exact becomes

theorem SectionsBuilt.built_of_mem {files : Lookup} {base : Path} {source : SourceFile}
    {start : Nat} {sections : List (String × SectionDescription)} {built : List Section}
    (sectionsBuilt : SectionsBuilt files base source start sections built) {current : Section}
    (member : current ∈ built) :
    ∃ name described index, (name, described) ∈ sections ∧
      described.Built files base source name index current := by
  obtain ⟨position, inside, rfl⟩ := List.getElem_of_mem member
  have declaredInside : position < sections.length := sectionsBuilt.count ▸ inside
  obtain ⟨found, atPosition, each⟩ :=
    sectionsBuilt.each position _ _ (List.getElem?_eq_getElem declaredInside)
  rw [List.getElem?_eq_getElem inside, Option.some.injEq] at atPosition
  subst atPosition
  exact ⟨_, _, _, List.getElem_mem declaredInside, each⟩

namespace Description

variable (description : Description) (files : Lookup) (directory base : Path)

end Description

end RomLayout
