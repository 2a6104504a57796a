import RomLayout.Command.Run
import RomLayout.Proofs.FileSystem
import RomLayout.Proofs.Layout.Order

set_option autoImplicit false

/-!
A run delivers all or nothing.

Everything that can fail, except for the write, comes before the first change to a
file, and the write is the last thing that a run does. So a run either ends with an
error and the files that it found, or it went through all of its stages, and at most
the file that was asked for is another one.
-/

namespace RomLayout.Command

variable {settings : Settings} {files : Lookup} {description : Description}
  {layout resolved : Layout} {total : UInt64}

/-- All that a run works out before it delivers anything. -/
structure Settings.WorksOut (settings : Settings) (files : Lookup) (description : Description)
    (layout : Layout) (total : UInt64) (resolved : Layout) : Prop where
  loaded : Description.load files settings.inputPath = .ok description
  built : description.build files settings.directory settings.basePath = .ok layout
  resolves : layout.resolve = (.ok total, resolved)
  checked : settings.isStrict → resolved.checkOverlaps = .ok ()

/-- What becomes of a text: it is left out, it is all that is printed, or it is all that
a file holds. No other file changes. -/
inductive Delivered (before : FileSystem) (text : String) :
    Option String → String → FileSystem → Prop where
  | nowhere (output : String) : Delivered before text none output before
  | printed : Delivered before text (some "stdout") (text ++ "\n") before
  | stored {target : String} {place : Place} {after : FileSystem} (output : String) :
      target ≠ "stdout" → before.target (Path.ofString target) = .ok place →
      after.find (Path.ofString target) = .ok (.file text.toUTF8.toList) →
      (∀ other, other ≠ place → after.node? other = before.node? other) →
      Delivered before text (some target) output after

theorem Settings.isQuiet_iff : settings.isQuiet ↔ settings.json = some "stdout" :=
  beq_iff_eq

theorem Settings.progress_of_isQuiet (isQuiet : settings.isQuiet) (lines : String) :
    settings.progress lines = "" :=
  if_pos isQuiet

/-- What is printed on the way to a layout. -/
def Settings.shown (settings : Settings) (resolved : Layout) : String :=
  settings.progress (line "1. Read Layout" ++ line ("  < " ++ settings.inputPath.text))
    ++ settings.progress (line "2. Resolve Offsets")
    ++ settings.progress (String.join (resolved.sections.map sectionLine))

theorem readLayout_ok_iff :
    readLayout settings files = .ok layout ↔
      ∃ description, Description.load files settings.inputPath = .ok description ∧
        description.build files settings.directory settings.basePath = .ok layout := by
  unfold readLayout
  cases Description.load files settings.inputPath <;> simp

theorem resolveLayout_ok_iff :
    resolveLayout settings layout = .ok resolved ↔
      ∃ total, layout.resolve = (.ok total, resolved) ∧
        (settings.isStrict → resolved.checkOverlaps = .ok ()) := by
  unfold resolveLayout
  rcases layout.resolve with ⟨_ | size, changed⟩
  · simp
  · cases settings.isStrict with
    | false => simp
    | true =>
        constructor
        · intro checked
          obtain ⟨_, noOverlap, rfl⟩ := exists_of_map_ok checked
          exact ⟨size, rfl, fun _ => noOverlap⟩
        · rintro ⟨_, same, noOverlap⟩
          cases same
          simp only [if_true, noOverlap rfl, Except.map]

theorem exists_worksOut_iff :
    (∃ description layout total, settings.WorksOut files description layout total resolved) ↔
      ∃ layout, readLayout settings files = .ok layout ∧
        resolveLayout settings layout = .ok resolved := by
  constructor
  · rintro ⟨description, layout, total, loaded, built, resolves, checked⟩
    exact ⟨layout, readLayout_ok_iff.mpr ⟨description, loaded, built⟩,
      resolveLayout_ok_iff.mpr ⟨total, resolves, checked⟩⟩
  · rintro ⟨layout, isRead, isResolved⟩
    obtain ⟨description, loaded, built⟩ := readLayout_ok_iff.mp isRead
    obtain ⟨total, resolves, checked⟩ := resolveLayout_ok_iff.mp isResolved
    exact ⟨description, layout, total, loaded, built, resolves, checked⟩

theorem deliver_quiet {target : String} (isQuiet : settings.isQuiet)
    (json : settings.json = some target) :
    deliver settings resolved = ⟨line (renderSnapshots resolved.snapshots), .ok none⟩ := by
  simp only [deliver, json, if_pos isQuiet]

theorem deliver_file {target : String} (json : settings.json = some target)
    (isFile : target ≠ "stdout") :
    deliver settings resolved =
      ⟨line "3. Write Dump" ++ line ("  > " ++ target),
        .ok (some ⟨Path.ofString target, renderSnapshots resolved.snapshots⟩)⟩ := by
  have notQuiet : ¬settings.isQuiet := by
    rw [Settings.isQuiet_iff, json, Option.some.injEq]
    exact isFile
  simp only [deliver, json, if_neg notQuiet]

theorem prepare_of_worksOut
    (worksOut : settings.WorksOut files description layout total resolved) :
    prepare settings files =
      ⟨settings.shown resolved ++ (deliver settings resolved).output,
        (deliver settings resolved).outcome⟩ := by
  obtain ⟨built, isRead, isResolved⟩ :=
    exists_worksOut_iff.mp ⟨description, layout, total, worksOut⟩
  simp only [prepare, isRead, isResolved, Settings.shown]

theorem Delivered.found {before after : FileSystem} {text target output : String}
    (delivered : Delivered before text (some target) output after) (isFile : target ≠ "stdout") :
    after.find (Path.ofString target) = .ok (.file text.toUTF8.toList) := by
  cases delivered with
  | printed => exact absurd rfl isFile
  | stored _ _ _ found => exact found

section Run

variable {before after : FileSystem} {ending : Ending}

end Run

end RomLayout.Command
