import Mathlib.Data.List.Forall2
import RomLayout.Proofs.Assembly
import RomLayout.Proofs.Description.RoundTrip

set_option autoImplicit false

/-!
The sections that a text gives a layout. A file has one section for each name that stands
in it. So every written section gets one of its own exactly if no file repeats a name.
-/

namespace RomLayout

/-- One section for each name, where the name first stands, as it is written under that
name last. -/
structure MergedBuilt (files : Lookup) (base : Path) (source : SourceFile) (pairs : List Declared)
    (built : List Section) : Prop where
  count : built.length = (pairs.map (·.1)).eraseDups.length
  each : ∀ (position : Nat) (name : String),
    (pairs.map (·.1)).eraseDups[position]? = some name →
    ∃ described index current, pairs.reverse.lookup name = some described ∧
      built[position]? = some current ∧ described.Built files base source name index current

theorem lookup_of_getElem? {sections : List Declared} {position : Nat} {name : String}
    {described : SectionDescription} (distinct : (sections.map (·.1)).Nodup)
    (found : sections[position]? = some (name, described)) :
    sections.lookup name = some described := by
  obtain ⟨front, behind, rfl⟩ := List.append_of_mem (List.mem_of_getElem? found)
  rw [List.lookup_eq_some_iff]
  refine ⟨front, behind, rfl, ?_⟩
  intro other isOther
  rw [List.map_append, List.nodup_append] at distinct
  rw [bne_iff_ne]
  exact (distinct.2.2 other.1 (List.mem_map_of_mem isOther) name List.mem_cons_self).symm

theorem SectionsBuilt.merged {files : Lookup} {base : Path} {source : SourceFile} {start : Nat}
    {pairs : List Declared} {built : List Section}
    (sectionsBuilt : SectionsBuilt files base source start (putAll pairs) built) :
    MergedBuilt files base source pairs built where
  count := by
    rw [← names_putAll, List.length_map]
    exact sectionsBuilt.count
  each position name found := by
    rw [← names_putAll, List.getElem?_map, Option.map_eq_some_iff] at found
    obtain ⟨⟨own, described⟩, atPosition, rfl⟩ := found
    obtain ⟨current, isThere, isBuilt⟩ := sectionsBuilt.each position own described atPosition
    have isLast := lookup_of_getElem? (nodup_names_putAll pairs) atPosition
    rw [lookup_putAll] at isLast
    exact ⟨described, _, current, isLast, isThere, isBuilt⟩

namespace Description

/-- Number of sections that are written. -/
def pairCount (written : Description) : Nat := (written.files.map (·.sections.length)).sum

theorem sum_length_putAll_le (files : List FileDescription) :
    (files.map fun file => (putAll file.sections).length).sum ≤
      (files.map (·.sections.length)).sum := by
  induction files with
  | nil => exact Nat.le_refl 0
  | cons file others inductionHypothesis =>
      rw [List.map_cons, List.sum_cons, List.map_cons, List.sum_cons]
      exact Nat.add_le_add (length_putAll_le file.sections) inductionHypothesis

theorem sum_length_putAll_eq_iff (files : List FileDescription) :
    (files.map fun file => (putAll file.sections).length).sum =
        (files.map (·.sections.length)).sum ↔
      ∀ file ∈ files, (file.sections.map (·.1)).Nodup := by
  induction files with
  | nil => simp
  | cons file others inductionHypothesis =>
      have here := length_putAll_le file.sections
      have behind := sum_length_putAll_le others
      rw [List.forall_mem_cons, ← inductionHypothesis, ← length_putAll_eq_iff, List.map_cons,
        List.sum_cons, List.map_cons, List.sum_cons]
      omega

variable {text : String} {description : Description} {files : Lookup} {directory base : Path}
  {layout : Layout}

/-- What is written is merged name by name, and nothing else is lost: the sections of the
layout are as many as the written ones exactly if no file repeats a name, and then each of
them is built. -/
theorem sections_exact (accepted : parse text = .ok description)
    (built : description.build files directory base = .ok layout) :
    ∃ (written : Description) (parts : List (List Section)),
      writtenIn? text = some written ∧ layout.sections = parts.flatten ∧
      List.Forall₂ (fun file => MergedBuilt files base (file.source directory) file.sections)
        written.files parts ∧
      (layout.sections.length = written.pairCount ↔
        ∀ file ∈ written.files, (file.sections.map (·.1)).Nodup) ∧
      ((∀ file ∈ written.files, (file.sections.map (·.1)).Nodup) →
        List.Forall₂
          (fun file => SectionsBuilt files base (file.source directory) 0 file.sections)
          written.files parts) := by
  rw [parse_eq] at accepted
  cases isWritten : writtenIn? text with
  | none =>
      rw [isWritten] at accepted
      cases accepted
  | some written =>
      rw [isWritten] at accepted
      cases accepted
      have outcome := @Item.Outcome.build files base written.merged directory
      rw [built] at outcome
      obtain ⟨-, parts, rfl, each⟩ := outcome
      have eachMerged := each
      rw [merged, List.forall₂_map_left_iff] at eachMerged
      have sameCounts : parts.map List.length =
          written.files.map fun file => (putAll file.sections).length := by
        rw [map_eq_map_iff_forall₂]
        exact (eachMerged.imp fun _ _ part => part.count).flip
      refine ⟨written, parts, rfl, rfl, eachMerged.imp fun _ _ part => part.merged, ?_, ?_⟩
      · rw [pairCount, ← sum_length_putAll_eq_iff, List.length_flatten, sameCounts]
      · intro distinct
        rw [merged_of_nodup distinct] at each
        exact each

/-- A file with two sections of one name. -/
def repeatedName : Description where
  files :=
    [ ⟨"a",
        [ ("A", { region := "ROM0", bank := none, offset := none, entries := [] }),
          ("A", { region := "HRAM", bank := none, offset := none, entries := [] }) ]⟩ ]

theorem writtenIn?_repeatedName : writtenIn? repeatedName.render = some repeatedName := by
  apply writtenIn?_render
  decide

theorem parse_repeatedName : parse repeatedName.render = .ok repeatedName.merged := by
  rw [parse_eq, writtenIn?_repeatedName]

theorem build_repeatedName :
    ∃ layout, repeatedName.merged.build (fun _ => .error .notFound) (Path.ofString "")
      (Path.ofString "") = .ok layout ∧ layout.sections.length = 1 :=
  ⟨_, rfl, rfl⟩

theorem sections_exact_repeatedName :
    ∃ layout, repeatedName.merged.build (fun _ => .error .notFound) (Path.ofString "")
        (Path.ofString "") = .ok layout ∧
      ∃ (written : Description) (parts : List (List Section)),
        writtenIn? repeatedName.render = some written ∧ layout.sections = parts.flatten ∧
        List.Forall₂ (fun file => MergedBuilt (fun _ => .error .notFound) (Path.ofString "")
          (file.source (Path.ofString "")) file.sections) written.files parts := by
  obtain ⟨layout, built, -⟩ := build_repeatedName
  obtain ⟨written, parts, isWritten, split, merged, -⟩ := sections_exact parse_repeatedName built
  exact ⟨layout, built, written, parts, isWritten, split, merged⟩

/-- The first of two sections of one name is lost without an error. -/
theorem sections_lost_repeatedName :
    ¬∀ (text : String) (written description : Description) (files : Lookup)
      (directory base : Path) (layout : Layout),
      writtenIn? text = some written → parse text = .ok description →
      description.build files directory base = .ok layout →
      layout.sections.length = written.pairCount := by
  intro kept
  obtain ⟨layout, built, single⟩ := build_repeatedName
  have both : layout.sections.length = 2 :=
    kept _ _ _ _ _ _ _ writtenIn?_repeatedName parse_repeatedName built
  rw [single] at both
  exact absurd both (by decide)

end Description

end RomLayout
