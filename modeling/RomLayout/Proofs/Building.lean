import RomLayout.Description.Basic
import RomLayout.Proofs.Freshness

set_option autoImplicit false

/-!
Building a layout and resolving it, seen from a single section.

Both go through the sections one by one. An entry of a description is one operation
on the section that it belongs to, so every section of a built layout has a history.
Once a layout is resolved, every section records its size.
-/

namespace RomLayout

theorem Layout.reachable_update {layout : Layout} {number : Nat} {current : Section}
    (edit : Edit) (reachable : ∀ other ∈ layout.sections, Reachable other)
    (found : layout.section? number = some current) :
    ∀ other ∈ (layout.update number (edit.perform current).2).sections, Reachable other := by
  intro other member
  rcases List.mem_or_eq_of_mem_set member with kept | rfl
  · exact reachable other kept
  · exact (reachable current (List.mem_of_getElem? found)).edited edit

theorem Layout.reachable_registerInclude {layout : Layout} {number : Nat} {files : Lookup}
    {source : SourceFile} {text : Path} {index : Nat}
    (reachable : ∀ other ∈ layout.sections, Reachable other) :
    ∀ other ∈ (layout.registerInclude files source number text index).2.sections,
      Reachable other := by
  unfold registerInclude
  cases found : layout.section? number with
  | none => exact reachable
  | some current =>
      have edited :=
        reachable_update (.register files source layout.base text index) reachable found
      rw [Edit.perform, Edit.snd_insertion] at edited
      exact edited

section Build

variable {files : Lookup} {source : SourceFile} {directory base : Path} {number index : Nat}
  {layout changed : Layout}

theorem EntryDescription.reachable_of_addTo {entry : EntryDescription}
    (added : entry.addTo files source number index layout = .ok changed)
    (reachable : ∀ current ∈ layout.sections, Reachable current) :
    ∀ current ∈ changed.sections, Reachable current := by
  unfold addTo at added
  split at added
  · rename_i payload _
    split at added
    · rename_i current found
      obtain ⟨id, -, rfl⟩ := exists_of_map_ok added
      have edited := Layout.reachable_update (.append payload index) reachable found
      rw [Edit.perform, Edit.snd_insertion] at edited
      exact edited
    · cases added
      exact reachable
  · split at added
    · obtain ⟨id, -, rfl⟩ := exists_of_map_ok added
      exact Layout.reachable_registerInclude reachable
    · cases added
      exact reachable

theorem reachable_of_addEntries {entries : List EntryDescription}
    (added : addEntries files source number index layout entries = .ok changed)
    (reachable : ∀ current ∈ layout.sections, Reachable current) :
    ∀ current ∈ changed.sections, Reachable current := by
  induction entries generalizing index layout with
  | nil =>
      cases added
      exact reachable
  | cons entry rest inductionHypothesis =>
      unfold addEntries at added
      cases first : entry.addTo files source number index layout with
      | error error => simp [first] at added
      | ok grown =>
          rw [first] at added
          exact inductionHypothesis added (EntryDescription.reachable_of_addTo first reachable)

theorem SectionDescription.reachable_of_addTo {described : SectionDescription} {name : String}
    (added : described.addTo files source name index layout = .ok changed)
    (reachable : ∀ current ∈ layout.sections, Reachable current) :
    ∀ current ∈ changed.sections, Reachable current := by
  unfold addTo at added
  cases bound : (described.declaration source.name name index).bind with
  | error error => simp [bound] at added
  | ok fresh =>
      rw [bound] at added
      apply reachable_of_addEntries added
      exact List.forall_mem_append.mpr
        ⟨reachable, List.forall_mem_singleton.mpr (.bound bound)⟩

theorem reachable_of_addSections {described : List (String × SectionDescription)}
    (added : addSections files source index layout described = .ok changed)
    (reachable : ∀ current ∈ layout.sections, Reachable current) :
    ∀ current ∈ changed.sections, Reachable current := by
  induction described generalizing index layout with
  | nil =>
      cases added
      exact reachable
  | cons head rest inductionHypothesis =>
      obtain ⟨name, described⟩ := head
      unfold addSections at added
      cases first : described.addTo files source name index layout with
      | error error => simp [first] at added
      | ok grown =>
          rw [first] at added
          exact inductionHypothesis added (SectionDescription.reachable_of_addTo first reachable)

theorem Description.reachable_of_addFiles {described : List FileDescription}
    (added : addFiles files directory layout described = .ok changed)
    (reachable : ∀ current ∈ layout.sections, Reachable current) :
    ∀ current ∈ changed.sections, Reachable current := by
  induction described generalizing layout with
  | nil =>
      cases added
      exact reachable
  | cons file rest inductionHypothesis =>
      unfold addFiles at added
      cases first : file.addTo files directory layout with
      | error error => simp [first] at added
      | ok grown =>
          rw [first] at added
          exact inductionHypothesis added (reachable_of_addSections first reachable)

theorem Description.reachable_of_build {description : Description}
    (built : description.build files directory base = .ok layout) :
    ∀ current ∈ layout.sections, Reachable current := by
  apply reachable_of_addFiles built
  simp [Layout.empty]

end Build

/-- A reachable section that records its size. -/
structure Section.Settled (current : Section) (size : UInt64) : Prop where
  reachable : Reachable current
  recorded : current.size = some size

namespace Layout

/-- If all sections can be resolved, each one is in the state that resolving it
alone leaves. -/
theorem resolveSections_ok {sections changed : List Section} {total : UInt64}
    (resolves : resolveSections sections = (.ok total, changed)) :
    changed = sections.map (·.resolve.2) ∧
      ∀ current ∈ sections, ∃ size, current.resolve.1 = .ok size := by
  induction sections generalizing changed total with
  | nil =>
      cases resolves
      simp
  | cons current rest inductionHypothesis =>
      unfold resolveSections at resolves
      rcases first : current.resolve with ⟨_ | size, settled⟩
      · simp [first] at resolves
      · rcases others : resolveSections rest with ⟨_ | sum, behind⟩
        · simp [first, others] at resolves
        · simp only [first, others, Prod.mk.injEq] at resolves
          obtain ⟨-, rfl⟩ := resolves
          obtain ⟨shape, succeed⟩ := inductionHypothesis others
          rw [List.map_cons, first, ← shape, List.forall_mem_cons, first]
          exact ⟨rfl, ⟨size, rfl⟩, succeed⟩

theorem resolve_ok {layout resolved : Layout} {total : UInt64}
    (resolves : layout.resolve = (.ok total, resolved)) :
    resolved.sections = layout.sections.map (·.resolve.2) ∧
      ∀ current ∈ layout.sections, ∃ size, current.resolve.1 = .ok size := by
  rcases outcome : resolveSections layout.sections with ⟨result, sections⟩
  simp only [resolve, outcome, Prod.mk.injEq] at resolves
  obtain ⟨rfl, rfl⟩ := resolves
  exact resolveSections_ok outcome

theorem settled_of_resolve {layout resolved : Layout} {total : UInt64}
    (reachable : ∀ current ∈ layout.sections, Reachable current)
    (resolves : layout.resolve = (.ok total, resolved)) :
    ∀ current ∈ resolved.sections, ∃ size, current.Settled size := by
  obtain ⟨sections, succeed⟩ := resolve_ok resolves
  rw [sections, List.forall_mem_map]
  intro current member
  obtain ⟨size, succeeds⟩ := succeed current member
  have resolved : current.resolve = (.ok size, current.resolve.2) := Prod.ext succeeds rfl
  exact ⟨size, (reachable current member).resolve, Section.size_of_resolve resolved⟩

end Layout

end RomLayout
