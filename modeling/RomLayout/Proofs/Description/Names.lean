import Mathlib.Data.List.Nodup
import Mathlib.Data.List.Induction
import RomLayout.Description.Reader

set_option autoImplicit false

/-!
Sections under repeated names. A description as it is written may name a section of one
file several times. Reading puts the sections under their names one by one: a name keeps
the place where it first stands, and has what stands under it last.
-/

namespace RomLayout

open Yaml (Node)
open Yaml.Node

abbrev Declared := String × SectionDescription

def putAll (pairs : List Declared) : List Declared :=
  pairs.foldl (fun sections (name, described) => putSection sections name described) []

section PutSection

variable {sections : List Declared} {name : String} {described : SectionDescription}

theorem any_name_iff : sections.any (·.1 == name) ↔ name ∈ sections.map (·.1) := by
  rw [List.any_eq_true, List.mem_map]
  apply exists_congr
  intro declared
  rw [beq_iff_eq]

theorem putSection_of_mem (isKnown : name ∈ sections.map (·.1)) :
    putSection sections name described =
      sections.map fun other => if other.1 = name then (name, described) else other :=
  if_pos (any_name_iff.mpr isKnown)

theorem putSection_of_not_mem (isNew : name ∉ sections.map (·.1)) :
    putSection sections name described = sections ++ [(name, described)] :=
  if_neg (mt any_name_iff.mp isNew)

theorem names_putSection :
    (putSection sections name described).map (·.1) =
      if name ∈ sections.map (·.1) then sections.map (·.1) else sections.map (·.1) ++ [name] := by
  by_cases isKnown : name ∈ sections.map (·.1)
  · rw [putSection_of_mem isKnown, if_pos isKnown, List.map_map]
    apply List.map_congr_left
    intro other _
    by_cases isHere : other.1 = name
    · simp [isHere]
    · simp [isHere]
  · rw [putSection_of_not_mem isKnown, if_neg isKnown, List.map_append]
    rfl

theorem lookup_putSection_self :
    (putSection sections name described).lookup name = some described := by
  by_cases isKnown : name ∈ sections.map (·.1)
  · rw [putSection_of_mem isKnown]
    induction sections with
    | nil => cases isKnown
    | cons declared others inductionHypothesis =>
        by_cases isHere : declared.1 = name
        · simp [isHere]
        · have elsewhere : (name == declared.1) = false := beq_eq_false_iff_ne.mpr (Ne.symm isHere)
          have behind := (List.mem_cons.mp isKnown).resolve_left (Ne.symm isHere)
          rw [List.map_cons, if_neg isHere, List.lookup_cons, elsewhere]
          exact inductionHypothesis behind
  · have missing : sections.lookup name = none := by
      rw [List.lookup_eq_none_iff]
      intro declared isDeclared
      rw [bne_iff_ne]
      rintro rfl
      exact isKnown (List.mem_map_of_mem isDeclared)
    rw [putSection_of_not_mem isKnown, List.lookup_append, missing, Option.none_or]
    exact List.lookup_cons_self

theorem lookup_putSection_of_ne {other : String} (isOther : other ≠ name) :
    (putSection sections name described).lookup other = sections.lookup other := by
  have elsewhere : (other == name) = false := beq_eq_false_iff_ne.mpr isOther
  by_cases isKnown : name ∈ sections.map (·.1)
  · rw [putSection_of_mem isKnown]
    clear isKnown
    induction sections with
    | nil => rfl
    | cons declared others inductionHypothesis =>
        rw [List.map_cons, List.lookup_cons, List.lookup_cons, inductionHypothesis]
        by_cases isHere : declared.1 = name
        · rw [if_pos isHere, isHere, elsewhere]
        · rw [if_neg isHere]
  · rw [putSection_of_not_mem isKnown, List.lookup_append, List.lookup_cons, elsewhere]
    exact Option.or_none

end PutSection

section PutAll

variable {pairs : List Declared}

theorem putAll_append_singleton (pairs : List Declared) (last : Declared) :
    putAll (pairs ++ [last]) = putSection (putAll pairs) last.1 last.2 := by
  rw [putAll, List.foldl_append]
  rfl

/-- Names stand in the order in which they first occur. -/
theorem names_putAll (pairs : List Declared) :
    (putAll pairs).map (·.1) = (pairs.map (·.1)).eraseDups := by
  induction pairs using List.reverseRecOn with
  | nil => rfl
  | append_singleton pairs last inductionHypothesis =>
      rw [putAll_append_singleton, names_putSection, inductionHypothesis, List.map_append,
        List.eraseDups_append]
      by_cases isKnown : last.1 ∈ pairs.map (·.1)
      · simp [isKnown, List.removeAll]
      · simp [isKnown, List.removeAll, List.eraseDups_cons]

theorem nodup_names_putAll (pairs : List Declared) : ((putAll pairs).map (·.1)).Nodup := by
  induction pairs using List.reverseRecOn with
  | nil => exact List.nodup_nil
  | append_singleton pairs last inductionHypothesis =>
      rw [putAll_append_singleton, names_putSection]
      split
      · exact inductionHypothesis
      · rename_i isNew
        apply List.Nodup.append inductionHypothesis (List.nodup_singleton _)
        rw [List.disjoint_singleton]
        exact isNew

/-- Under a name stands what is written under it last. -/
theorem lookup_putAll (pairs : List Declared) (name : String) :
    (putAll pairs).lookup name = pairs.reverse.lookup name := by
  induction pairs using List.reverseRecOn with
  | nil => rfl
  | append_singleton pairs last inductionHypothesis =>
      rw [putAll_append_singleton, List.reverse_append, List.reverse_singleton,
        List.singleton_append, List.lookup_cons]
      by_cases isSought : name = last.1
      · rw [isSought, lookup_putSection_self, beq_self_eq_true]
      · rw [lookup_putSection_of_ne isSought, inductionHypothesis,
          beq_eq_false_iff_ne.mpr isSought]

theorem putAll_of_nodup (distinct : (pairs.map (·.1)).Nodup) : putAll pairs = pairs := by
  induction pairs using List.reverseRecOn with
  | nil => rfl
  | append_singleton pairs last inductionHypothesis =>
      rw [List.map_append, List.nodup_append] at distinct
      obtain ⟨before, -, apart⟩ := distinct
      have isNew : last.1 ∉ pairs.map (·.1) := fun isThere =>
        apart last.1 isThere last.1 List.mem_cons_self rfl
      rw [putAll_append_singleton, inductionHypothesis before, putSection_of_not_mem isNew]

theorem length_putAll_append_singleton (pairs : List Declared) (last : Declared) :
    (putAll (pairs ++ [last])).length =
      if last.1 ∈ pairs.map (·.1) then (putAll pairs).length else (putAll pairs).length + 1 := by
  have sameNames : last.1 ∈ (putAll pairs).map (·.1) ↔ last.1 ∈ pairs.map (·.1) := by
    rw [names_putAll, List.mem_eraseDups]
  rw [← List.length_map (f := (·.1)), putAll_append_singleton, names_putSection]
  by_cases isKnown : last.1 ∈ pairs.map (·.1)
  · rw [if_pos (sameNames.mpr isKnown), if_pos isKnown, List.length_map]
  · rw [if_neg (mt sameNames.mp isKnown), if_neg isKnown, List.length_append, List.length_map]
    rfl

theorem length_putAll_le (pairs : List Declared) : (putAll pairs).length ≤ pairs.length := by
  induction pairs using List.reverseRecOn with
  | nil => exact Nat.le_refl 0
  | append_singleton pairs last inductionHypothesis =>
      rw [length_putAll_append_singleton, List.length_append, List.length_singleton]
      split <;> omega

/-- Every pair is kept exactly if no name is repeated. -/
theorem length_putAll_eq_iff (pairs : List Declared) :
    (putAll pairs).length = pairs.length ↔ (pairs.map (·.1)).Nodup := by
  refine ⟨?_, fun distinct => congrArg List.length (putAll_of_nodup distinct)⟩
  induction pairs using List.reverseRecOn with
  | nil => exact fun _ => List.nodup_nil
  | append_singleton pairs last inductionHypothesis =>
      intro allKept
      have atMost := length_putAll_le pairs
      rw [length_putAll_append_singleton, List.length_append, List.length_singleton] at allKept
      split at allKept
      · omega
      · rename_i isNew
        have before := inductionHypothesis (Nat.succ.inj allKept)
        rw [List.map_append]
        apply List.Nodup.append before (List.nodup_singleton _)
        rw [List.disjoint_singleton]
        exact isNew

end PutAll

theorem mapM_map_some {Value First Second : Type} (read : Value → Option First)
    (step : First → Second) (values : List Value) :
    values.mapM (fun value => (read value).map step) = (values.mapM read).map (List.map step) := by
  induction values with
  | nil => rfl
  | cons value others inductionHypothesis =>
      rw [List.mapM_cons, List.mapM_cons, inductionHypothesis]
      cases read value with
      | none => rfl
      | some first => cases others.mapM read <;> rfl

namespace FileDescription

/-- The sections that stand in a mapping, each as often as it stands there. -/
def pairs? (node : Node) : Option (List Declared) :=
  node.namedMembers?.bind (·.mapM fun (name, value) =>
    (SectionDescription.ofNode? value).map fun described => (name, described))

/-- A file with all sections that are written for it. -/
def written? (node : Node) : Option FileDescription := do
  let fields ← node.fields? ["name", "sections"]
  let name ← required? fields "name" text?
  let sections ← defaulted? fields "sections" [] pairs?
  some { name, sections }

def merged (file : FileDescription) : FileDescription :=
  { file with sections := putAll file.sections }

theorem sections?_eq (node : Node) : sections? node = (pairs? node).map putAll := by
  rw [sections?, pairs?]
  cases node.namedMembers? with
  | none => rfl
  | some members =>
      simp only [Option.bind_eq_bind, Option.bind_some]
      exact Option.map_eq_bind.symm

theorem ofNode?_eq (node : Node) : ofNode? node = (written? node).map merged := by
  rw [ofNode?, written?]
  cases node.fields? ["name", "sections"] with
  | none => rfl
  | some fields =>
      simp only [Option.bind_eq_bind, Option.bind_some]
      cases required? fields "name" text? with
      | none => rfl
      | some name =>
          simp only [Option.bind_some, defaulted?]
          cases fields.lookup "sections" with
          | none => rfl
          | some sections =>
              dsimp only
              rw [sections?_eq]
              cases pairs? sections <;> rfl

end FileDescription

namespace Description

/-- A description with all sections that are written for each file. -/
def written? (node : Node) : Option Description := do
  let fields ← node.fields? ["files"]
  let files ← required? fields "files" fun files =>
    files.elements?.bind (·.mapM FileDescription.written?)
  some { files }

def merged (description : Description) : Description :=
  { files := description.files.map FileDescription.merged }

theorem ofNode?_eq (node : Node) : ofNode? node = (written? node).map merged := by
  rw [ofNode?, written?]
  cases node.fields? ["files"] with
  | none => rfl
  | some fields =>
      simp only [Option.bind_eq_bind, Option.bind_some, required?]
      cases fields.lookup "files" with
      | none => rfl
      | some files =>
          simp only [Option.bind_some]
          cases files.elements? with
          | none => rfl
          | some elements =>
              have sameFiles := mapM_map_some FileDescription.written? FileDescription.merged
                elements
              simp only [← FileDescription.ofNode?_eq] at sameFiles
              simp only [Option.bind_some]
              rw [sameFiles]
              cases elements.mapM FileDescription.written? <;> rfl

/-- The description that a text holds, with all sections that are written in it. -/
def writtenIn? (text : String) : Option Description := (Node.ofText? text).bind written?

theorem parse_eq (text : String) :
    parse text = match writtenIn? text with
      | some written => .ok written.merged
      | none => .error .invalidDescription := by
  rw [parse, writtenIn?]
  cases Node.ofText? text with
  | none => rfl
  | some node =>
      rw [Option.bind_some, Option.bind_some, ofNode?_eq]
      cases written? node <;> rfl

end Description

end RomLayout
