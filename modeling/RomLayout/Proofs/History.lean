import RomLayout.Section.Resolve
import RomLayout.Include
import RomLayout.Proofs.Binding

set_option autoImplicit false

/-!
Histories of a section: whatever is done to it after its declaration has been
bound, in any order, whether a single operation succeeds or not.

`Edit.perform` runs one operation. `Change` says what one operation can do, so a
property of every reachable section is proved by one case for each kind of change.
-/

namespace RomLayout

/-- One operation on a section. -/
inductive Edit where
  | append (payload : Payload) (index : Nat)
  | insert (payload : Payload) (position index : Nat)
  | remove (id : EntryId)
  | register (files : Lookup) (source : SourceFile) (base text : Path) (index : Nat)
  | pushMacroCall (call : MacroCall)
  | resolve

/-- What an operation answers. -/
inductive Answer where
  | inserted (id : EntryId)
  | removed (entry : Entry)
  /-- There was no entry to remove. -/
  | absent
  | noted
  | resolved (size : UInt64)
  | failed (error : Error)
  deriving DecidableEq

namespace Edit

def insertion : Except Error EntryId × Section → Answer × Section
  | (.ok id, changed) => (.inserted id, changed)
  | (.error error, changed) => (.failed error, changed)

def removal : Option Entry × Section → Answer × Section
  | (some entry, changed) => (.removed entry, changed)
  | (none, changed) => (.absent, changed)

def resolution : Except Error UInt64 × Section → Answer × Section
  | (.ok size, changed) => (.resolved size, changed)
  | (.error error, changed) => (.failed error, changed)

/-- The answer of an operation, and the section after it. -/
def perform (current : Section) : Edit → Answer × Section
  | append payload index => insertion (current.append payload index)
  | insert payload position index => insertion (current.insert payload position index)
  | remove id => removal (current.remove id)
  | register files source base text index =>
      insertion (current.register files source base text index)
  | pushMacroCall call => (.noted, current.pushMacroCall call)
  | resolve => resolution current.resolve

/-- The answers of operations one after the other, and the section after them. -/
def performAll (current : Section) : List Edit → List Answer × Section
  | [] => ([], current)
  | edit :: rest =>
      let (answer, changed) := edit.perform current
      let (answers, final) := performAll changed rest
      (answer :: answers, final)

end Edit

namespace Section

variable {current : Section} {payload : Payload} {index : Nat}

/-- The entry that a payload becomes, before any pass has come to it. -/
def unplaced (current : Section) (payload : Payload) (index : Nat) : Entry :=
  { id := current.nextId, payload, index, address := none, label := none }

/-- The section with one entry more, whatever the policy says. -/
def grown (current : Section) (payload : Payload) (position index : Nat) : Section :=
  { current with
    entries := current.entries.take position ++
      current.unplaced payload index :: current.entries.drop position
    size := none
    nextId := current.nextId + 1 }

theorem check_eq_ok_iff :
    current.check payload index = .ok () ↔
      payload.violation? current.binding.region.storage = none := by
  unfold check
  cases payload.violation? current.binding.region.storage <;> simp

/-- The check comes in front of the first change, so what is refused leaves nothing. -/
theorem insert_eq (current : Section) (payload : Payload) (position index : Nat) :
    current.insert payload position index =
      match current.check payload index with
      | .error error => (.error error, current)
      | .ok () => (.ok current.nextId, current.grown payload position index) := by
  unfold insert makeEntry
  cases current.check payload index <;> rfl

theorem append_eq_insert (current : Section) (payload : Payload) (index : Nat) :
    current.append payload index = current.insert payload current.entries.length index := by
  unfold append insert makeEntry
  cases current.check payload index <;> simp

end Section

/-- What an operation can do. Only resolving answers with a size or stops half way. -/
inductive Change (current : Section) : Edit → Answer → Section → Prop where
  | inserted {edit : Edit} {payload : Payload} {index : Nat} (position : Nat) :
      current.check payload index = .ok () →
      Change current edit (.inserted current.nextId) (current.grown payload position index)
  | removed {id : EntryId} {entry : Entry} :
      current.entry? id = some entry →
      Change current (.remove id) (.removed entry)
        { current with entries := current.entries.eraseP (·.id == id), size := none }
  | absent {id : EntryId} : Change current (.remove id) .absent current
  | noted (call : MacroCall) :
      Change current (.pushMacroCall call) .noted (current.pushMacroCall call)
  | resolved {size : UInt64} {changed : Section} :
      current.resolve = (.ok size, changed) → Change current .resolve (.resolved size) changed
  | stopped {error : Error} {changed : Section} :
      current.resolve = (.error error, changed) → Change current .resolve (.failed error) changed
  | refused {edit : Edit} (error : Error) : Change current edit (.failed error) current

namespace Edit

theorem snd_insertion (outcome : Except Error EntryId × Section) :
    (insertion outcome).2 = outcome.2 := by
  obtain ⟨error | id, changed⟩ := outcome <;> rfl

theorem snd_removal (outcome : Option Entry × Section) : (removal outcome).2 = outcome.2 := by
  obtain ⟨_ | entry, changed⟩ := outcome <;> rfl

theorem change_insertion {current : Section} (edit : Edit) (payload : Payload)
    (position index : Nat) :
    Change current edit (insertion (current.insert payload position index)).1
      (insertion (current.insert payload position index)).2 := by
  rw [Section.insert_eq]
  cases checked : current.check payload index with
  | error error => exact .refused error
  | ok _ => exact .inserted position checked

theorem perform_change (current : Section) (edit : Edit) :
    Change current edit (edit.perform current).1 (edit.perform current).2 := by
  cases edit with
  | append payload index =>
      rw [perform, Section.append_eq_insert]
      exact change_insertion _ payload _ index
  | insert payload position index => exact change_insertion _ payload position index
  | remove id =>
      rw [perform, Section.remove]
      cases found : current.entry? id with
      | none => exact .absent
      | some entry => exact .removed found
  | register files source base text index =>
      simp only [perform, Section.register]
      split
      · exact .refused _
      · rw [Section.append_eq_insert]
        exact change_insertion _ _ _ index
  | pushMacroCall call => exact .noted call
  | resolve =>
      simp only [perform]
      rcases resolved : current.resolve with ⟨result, changed⟩
      cases result with
      | ok size => exact .resolved resolved
      | error error => exact .stopped resolved

end Edit

theorem Section.resolve_binding (current : Section) :
    current.resolve.2.binding = current.binding := by
  unfold Section.resolve
  split <;> rfl

theorem Change.binding_eq {current changed : Section} {edit : Edit} {answer : Answer}
    (change : Change current edit answer changed) : changed.binding = current.binding := by
  cases change with
  | inserted | removed | absent | noted | refused => rfl
  | resolved resolved => rw [← current.resolve_binding, resolved]
  | stopped stopped => rw [← current.resolve_binding, stopped]

/-- Sections that can come about: a declaration is bound, and then any
operations follow. -/
inductive Reachable : Section → Prop where
  | bound {declaration : Declaration} {current : Section} :
      declaration.bind = .ok current → Reachable current
  | edited {current : Section} (edit : Edit) :
      Reachable current → Reachable (edit.perform current).2

namespace Reachable

theorem performAll {current : Section} (reachable : Reachable current) (edits : List Edit) :
    Reachable (Edit.performAll current edits).2 := by
  induction edits generalizing current with
  | nil => exact reachable
  | cons edit rest inductionHypothesis => exact inductionHypothesis (reachable.edited edit)

theorem resolve {current : Section} (reachable : Reachable current) :
    Reachable current.resolve.2 := by
  have resolved := reachable.edited .resolve
  simp only [Edit.perform] at resolved
  rcases outcome : current.resolve with ⟨result, changed⟩
  rw [outcome] at resolved
  cases result with
  | ok size => exact resolved
  | error error => exact resolved

theorem sound {current : Section} (reachable : Reachable current) : current.binding.Sound := by
  induction reachable with
  | bound accepted =>
      obtain ⟨binding, bound, rfl⟩ := Declaration.bind_ok accepted
      exact Declaration.binding_sound bound
  | edited edit _ inductionHypothesis =>
      rw [(edit.perform_change _).binding_eq]
      exact inductionHypothesis

/-- A property of fresh sections that every change keeps holds of all reachable
sections. -/
theorem invariant {motive : Section → Prop}
    (fresh : ∀ binding : Binding, motive binding.emptySection)
    (preserved : ∀ current edit answer changed, Reachable current → motive current →
      Change current edit answer changed → motive changed)
    {current : Section} (reachable : Reachable current) : motive current := by
  induction reachable with
  | bound accepted =>
      obtain ⟨binding, -, rfl⟩ := Declaration.bind_ok accepted
      exact fresh binding
  | edited edit reachable inductionHypothesis =>
      exact preserved _ _ _ _ reachable inductionHypothesis (edit.perform_change _)

end Reachable

/-- An empty section at the bottom of bank 2 of ROMX. -/
def Section.emptyRomx : Section :=
  Binding.emptySection
    { file := "main.gbc", name := "Main", index := 0, region := .romx, bank := 2,
      declared := none }

theorem Reachable.emptyRomx : Reachable Section.emptyRomx :=
  @Reachable.bound ⟨"main.gbc", "Main", 0, "ROMX", some 2, none⟩ _ rfl

end RomLayout
