import Mathlib.Algebra.Order.BigOperators.Group.List
import Mathlib.Algebra.Order.Ring.Nat
import RomLayout.Proofs.Capacity
import RomLayout.Proofs.Entries
import RomLayout.Proofs.Layout.History

set_option autoImplicit false

/-!
Resolving a layout is resolving its sections, cut at the first failure.

`resolveSections_cases` says what a whole pass does, in terms of `Section.resolve` alone.
Since resolving a section twice is resolving it once, the sections of a layout that can be
resolved may be taken in any order, and a second pass finds what the first one found, also
where that stopped half way.
-/

namespace RomLayout

section Sums

variable {sizes : List UInt64}

/-- The sum of sizes as far as 64 bits can hold it. -/
def wordSum (sizes : List UInt64) : UInt64 := sizes.foldr (· + ·) 0

theorem toNat_wordSum (small : (sizes.map UInt64.toNat).sum < UInt64.size) :
    (wordSum sizes).toNat = (sizes.map UInt64.toNat).sum := by
  induction sizes with
  | nil => rfl
  | cons size rest inductionHypothesis =>
      rw [List.map_cons, List.sum_cons] at small ⊢
      have restExact := inductionHypothesis (Nat.lt_of_le_of_lt (Nat.le_add_left _ _) small)
      rw [wordSum, List.foldr_cons, UInt64.toNat_add, ← wordSum, restExact]
      exact Nat.mod_eq_of_lt small

/-- Fewer than `2 ^ 50` banks are added without leaving the numbers of 64 bits. -/
theorem toNat_wordSum_of_room (few : sizes.length < 2 ^ 50)
    (room : ∀ size ∈ sizes, size.toNat ≤ Region.roomLimit) :
    (wordSum sizes).toNat = (sizes.map UInt64.toNat).sum := by
  apply toNat_wordSum
  have atMost :=
    List.sum_le_card_nsmul (sizes.map UInt64.toNat) Region.roomLimit (by simpa using room)
  rw [List.length_map, Nat.nsmul_eq_mul] at atMost
  have product : sizes.length * Region.roomLimit < 2 ^ 50 * Region.roomLimit :=
    Nat.mul_lt_mul_of_pos_right few (by decide)
  exact Nat.lt_of_le_of_lt atMost product

end Sums

/-- Taking a step at some positions, one after the other and some of them more than once. -/
theorem getElem?_foldl_modify {Value : Type} {step : Value → Value} (order : List Nat)
    {values : List Value} (settled : ∀ value ∈ values, step (step value) = step value)
    (number : Nat) :
    (order.foldl (fun values number => values.modify number step) values)[number]? =
      if number ∈ order then values[number]?.map step else values[number]? := by
  induction order generalizing values with
  | nil => simp
  | cons first rest inductionHypothesis =>
      have here := List.getElem?_modify step first values number
      -- Carried along for positions that come again: a second step there does nothing.
      have stillSettled : ∀ value ∈ values.modify first step, step (step value) = step value := by
        intro value member
        obtain ⟨position, found⟩ := List.mem_iff_getElem?.mp member
        rw [List.getElem?_modify, Option.map_eq_map, Option.map_eq_some_iff] at found
        obtain ⟨old, oldFound, rfl⟩ := found
        have once := settled old (List.mem_of_getElem? oldFound)
        split
        · rw [once, once]
        · exact once
      rw [List.foldl_cons, inductionHypothesis stillSettled, here]
      cases found : values[number]? with
      | none => simp
      | some value =>
          have once := settled value (List.mem_of_getElem? found)
          by_cases isFirst : first = number
          · by_cases again : number ∈ rest <;> simp [isFirst, again, once]
          · by_cases later : number ∈ rest <;> simp [isFirst, later, Ne.symm isFirst]

theorem foldl_modify_eq_map {Value : Type} {step : Value → Value} {order : List Nat}
    {values : List Value} (settled : ∀ value ∈ values, step (step value) = step value)
    (complete : ∀ number < values.length, number ∈ order) :
    order.foldl (fun values number => values.modify number step) values = values.map step := by
  apply List.ext_getElem?
  intro number
  rw [getElem?_foldl_modify order settled, List.getElem?_map]
  by_cases inside : number < values.length
  · rw [if_pos (complete number inside)]
  · simp [List.getElem?_eq_none (Nat.le_of_not_lt inside)]

theorem Edit.perform_resolve_snd (current : Section) :
    (Edit.perform current .resolve).2 = current.resolve.2 := by
  simp only [Edit.perform]
  rcases current.resolve with ⟨error | size, changed⟩ <;> rfl

namespace Layout

theorem resolveSections_cons (current : Section) (rest : List Section) :
    resolveSections (current :: rest) =
      match current.resolve.1 with
      | .error error => (.error error, current.resolve.2 :: rest)
      | .ok size =>
          ((resolveSections rest).1.map (size + ·),
            current.resolve.2 :: (resolveSections rest).2) := by
  rw [resolveSections]
  rcases current.resolve with ⟨error | size, changed⟩
  · rfl
  · rcases resolveSections rest with ⟨error | total, others⟩ <;> rfl

/-- A pass over sections: either each one is resolved, or it stops at the first one that
fails and leaves the sections behind it alone. -/
theorem resolveSections_cases (sections : List Section) :
    (∃ sizes : List UInt64,
      List.Forall₂ (fun current size => current.resolve.1 = .ok size) sections sizes ∧
      resolveSections sections = (.ok (wordSum sizes), sections.map (·.resolve.2))) ∨
    ∃ before failing behind error,
      sections = before ++ failing :: behind ∧
      (∀ earlier ∈ before, ∃ size, earlier.resolve.1 = .ok size) ∧
      failing.resolve.1 = .error error ∧
      resolveSections sections =
        (.error error, before.map (·.resolve.2) ++ failing.resolve.2 :: behind) := by
  induction sections with
  | nil => exact .inl ⟨[], .nil, rfl⟩
  | cons current rest inductionHypothesis =>
      rw [resolveSections_cons]
      cases outcome : current.resolve.1 with
      | error error => exact .inr ⟨[], current, rest, error, rfl, by simp, outcome, rfl⟩
      | ok size =>
          rcases inductionHypothesis with
            ⟨sizes, each, passed⟩ | ⟨before, failing, behind, error, rfl, earlier, failed, stopped⟩
          · refine .inl ⟨size :: sizes, .cons outcome each, ?_⟩
            rw [passed]
            rfl
          · refine .inr ⟨current :: before, failing, behind, error, rfl, ?_, failed, ?_⟩
            · exact List.forall_mem_cons.mpr ⟨⟨size, outcome⟩, earlier⟩
            · simp [stopped, Except.map]

theorem resolve_eq (layout : Layout) :
    layout.resolve =
      ((resolveSections layout.sections).1,
        { layout with sections := (resolveSections layout.sections).2 }) :=
  rfl

/-- What one pass has left, resolved or stopped, is what the next one leaves. -/
theorem resolveSections_resolveSections {sections : List Section}
    (sound : ∀ current ∈ sections, current.binding.Sound) :
    resolveSections (resolveSections sections).2 = resolveSections sections := by
  induction sections with
  | nil => rfl
  | cons current rest inductionHypothesis =>
      obtain ⟨here, behind⟩ := List.forall_mem_cons.mp sound
      rw [resolveSections_cons current rest]
      cases outcome : current.resolve.1 with
      | error error =>
          rw [resolveSections_cons, Section.resolve_resolve here, outcome]
      | ok size =>
          rw [resolveSections_cons, Section.resolve_resolve here, outcome]
          simp only [inductionHypothesis behind]

theorem Reachable.sound_of_mem {layout : Layout} (reachable : layout.Reachable) :
    ∀ current ∈ layout.sections, current.binding.Sound :=
  fun current member => (reachable.reachable_of_mem current member).sound

namespace Operation

/-- The sections of these numbers, each resolved on its own. -/
def resolveEach (order : List Nat) : List Operation :=
  order.map fun number => edit number .resolve

theorem perform_edit_resolve (layout : Layout) (number : Nat) :
    perform layout (edit number .resolve) =
      { layout with sections := layout.sections.modify number (·.resolve.2) } := by
  simp only [perform, section?]
  rw [List.modify_eq_set_getElem?]
  cases layout.sections[number]? with
  | none => rfl
  | some current => exact congrArg (layout.update number) (Edit.perform_resolve_snd current)

theorem performAll_resolveEach (layout : Layout) (order : List Nat) :
    performAll layout (resolveEach order) =
      { layout with
        sections :=
          order.foldl (fun sections number => sections.modify number (·.resolve.2))
            layout.sections } := by
  induction order generalizing layout with
  | nil => rfl
  | cons first rest inductionHypothesis =>
      change performAll (perform layout (edit first .resolve)) (resolveEach rest) = _
      rw [inductionHypothesis, perform_edit_resolve]
      rfl

end Operation

/-- Sections have nothing to do with each other: the order does not matter. -/
theorem performAll_resolveEach_eq_map {layout : Layout} (reachable : layout.Reachable)
    {order : List Nat} (complete : ∀ number < layout.sections.length, number ∈ order) :
    Operation.performAll layout (Operation.resolveEach order) =
      { layout with sections := layout.sections.map (·.resolve.2) } := by
  have settled : ∀ current ∈ layout.sections,
      current.resolve.2.resolve.2 = current.resolve.2 := by
    intro current member
    rw [Section.resolve_resolve (reachable.sound_of_mem current member)]
  rw [Operation.performAll_resolveEach, foldl_modify_eq_map settled complete]

theorem recorded_of_forall₂ {sections : List Section} {sizes : List UInt64}
    (each : List.Forall₂ (fun current size => current.resolve.1 = .ok size) sections sizes) :
    (sections.map (·.resolve.2)).map (·.size) = sizes.map some := by
  rw [List.map_map, map_eq_map_iff_forall₂]
  apply each.imp
  intro current size succeeds
  exact Section.size_of_resolve (Prod.ext succeeds rfl)

theorem room_of_forall₂ {sections : List Section} {sizes : List UInt64}
    (sound : ∀ current ∈ sections, current.binding.Sound)
    (each : List.Forall₂ (fun current size => current.resolve.1 = .ok size) sections sizes) :
    ∀ size ∈ sizes, size.toNat ≤ Region.roomLimit := by
  intro size member
  obtain ⟨current, currentMember, succeeds⟩ := exists_mem_of_forall₂ each member
  exact Section.size_le_roomLimit (sound current currentMember) succeeds

/-- Resolving a layout succeeds exactly if every section on its own can be resolved. Then
the total is the sum of the sizes that the sections record, and resolving the sections one
by one, in any order, gives the same layout. Otherwise the error is the one of the first
section that fails, at its first entry that does not fit; the sections in front of it are
resolved, it is left as its own pass leaves it, and nothing behind it changes. -/
theorem resolve_sectionwise {layout : Layout} (reachable : layout.Reachable) :
    ((∃ total, layout.resolve.1 = .ok total) ↔
      ∀ current ∈ layout.sections, ∃ size, current.resolve.1 = .ok size) ∧
    (∀ total, layout.resolve.1 = .ok total →
      (∃ sizes : List UInt64,
        layout.resolve.2.sections.map (·.size) = sizes.map some ∧ total = wordSum sizes ∧
        (layout.sections.length < 2 ^ 50 → total.toNat = (sizes.map UInt64.toNat).sum)) ∧
      ∀ order : List Nat, (∀ number < layout.sections.length, number ∈ order) →
        Operation.performAll layout (Operation.resolveEach order) = layout.resolve.2) ∧
    ∀ error, layout.resolve.1 = .error error →
      ∃ before failing behind,
        layout.sections = before ++ failing :: behind ∧
        (∀ earlier ∈ before, ∃ size, earlier.resolve.1 = .ok size) ∧
        failing.resolve.1 = .error error ∧
        (∃ position entry, failing.Overflows position entry ∧
          error.location? = some ⟨failing.binding.file, entry.index⟩) ∧
        layout.resolve.2 =
          { layout with
            sections := before.map (·.resolve.2) ++ failing.resolve.2 :: behind } := by
  have sound := reachable.sound_of_mem
  rw [resolve_eq]
  rcases resolveSections_cases layout.sections with
    ⟨sizes, each, passed⟩ | ⟨before, failing, behind, error, split, earlier, failed, stopped⟩
  · rw [passed]
    refine ⟨⟨?_, fun _ => ⟨_, rfl⟩⟩, ?_, ?_⟩
    · rintro - current member
      obtain ⟨position, found⟩ := List.mem_iff_getElem?.mp member
      obtain ⟨size, -, succeeds⟩ := exists_getElem?_of_forall₂ each found
      exact ⟨size, succeeds⟩
    · intro total succeeds
      cases succeeds
      refine ⟨⟨sizes, recorded_of_forall₂ each, rfl, ?_⟩, ?_⟩
      · intro few
        exact toNat_wordSum_of_room (each.length_eq ▸ few) (room_of_forall₂ sound each)
      · intro order complete
        exact performAll_resolveEach_eq_map reachable complete
    · intro error failed
      cases failed
  · rw [stopped]
    refine ⟨⟨?_, ?_⟩, ?_, ?_⟩
    · rintro ⟨total, succeeds⟩
      cases succeeds
    · intro succeed
      obtain ⟨size, succeeds⟩ := succeed failing (by simp [split])
      rw [failed] at succeeds
      cases succeeds
    · intro total succeeds
      cases succeeds
    · intro reported same
      cases same
      obtain ⟨position, entry, reached, overflows, -, rfl⟩ :=
        Section.exists_overflows_of_resolve (sound failing (by simp [split])) failed
      exact ⟨before, failing, behind, split, earlier, failed, ⟨position, entry, overflows, rfl⟩,
        rfl⟩

/-- The block of the second section does not fit. In the third one a label has been put in
after a pass of its own. -/
def interrupted : Layout :=
  Operation.performAll (.empty .empty)
    [.declare ⟨"a.gbc", "A", 0, "ROM0", none, none⟩, .edit 0 (.append (.instruction "nop" 1) 1),
      .declare ⟨"b.gbc", "B", 0, "HRAM", none, none⟩, .edit 1 (.append (.label "buffer") 1),
      .edit 1 (.append (.slot 0x20) 2), .edit 1 (.append (.data (.reserve 0x100)) 3),
      .edit 1 (.append (.slot 1) 4), .declare ⟨"c.gbc", "C", 0, "ROMX", some 3, none⟩,
      .edit 2 (.append (.instruction "ret" 1) 1), .edit 2 .resolve,
      .edit 2 (.insert (.label "main") 0 2)]

theorem reachable_interrupted : interrupted.Reachable := (Reachable.empty _).performAll _

/-- The pass stops at the block; without it all three sections can be resolved. -/
theorem resolve_sectionwise_interrupted :
    interrupted.Reachable ∧
      (∃ error before failing behind, interrupted.resolve.1 = .error error ∧
        error.location? = some ⟨"b.gbc", 3⟩ ∧
        interrupted.sections = before ++ failing :: behind ∧
        interrupted.resolve.2.sections =
          before.map (·.resolve.2) ++ failing.resolve.2 :: behind) ∧
      ∃ repaired, repaired = Operation.perform interrupted (.edit 1 (.remove 2)) ∧
        repaired.resolve.1 = .ok 35 ∧
        Operation.performAll repaired (Operation.resolveEach [2, 0, 1, 0]) =
          repaired.resolve.2 := by
  obtain ⟨-, -, stops⟩ := resolve_sectionwise reachable_interrupted
  obtain ⟨before, failing, behind, split, -, -, -, left⟩ := stops _ rfl
  obtain ⟨-, passes, -⟩ :=
    resolve_sectionwise (reachable_interrupted.performed (.edit 1 (.remove 2)))
  refine ⟨reachable_interrupted, ⟨_, before, failing, behind, rfl, rfl, split, ?_⟩,
    _, rfl, rfl, ?_⟩
  · rw [left]
  · exact (passes 35 rfl).2 [2, 0, 1, 0] (by decide)

/-- Resolving again changes nothing and answers the same, for a layout and for a single
section, whether the pass ends well or stops. -/
theorem resolve_idempotent :
    (∀ layout : Layout, layout.Reachable → layout.resolve.2.resolve = layout.resolve) ∧
      ∀ current : Section, RomLayout.Reachable current →
        current.resolve.2.resolve = current.resolve := by
  constructor
  · intro layout reachable
    have again := resolveSections_resolveSections reachable.sound_of_mem
    simp only [resolve_eq, again]
  · intro current reachable
    exact Section.resolve_resolve reachable.sound

/-- The pass that stopped half way stops in the same place and leaves the same. -/
theorem resolve_idempotent_interrupted :
    interrupted.Reachable ∧ (∃ error, interrupted.resolve.1 = .error error) ∧
      interrupted.resolve.2.resolve = interrupted.resolve ∧
      RomLayout.Reachable Section.staleRomx ∧
      Section.staleRomx.resolve.2.resolve = Section.staleRomx.resolve := by
  obtain ⟨layouts, sections⟩ := resolve_idempotent
  exact ⟨reachable_interrupted, ⟨_, rfl⟩, layouts interrupted reachable_interrupted,
    Section.reachable_staleRomx, sections _ Section.reachable_staleRomx⟩

end Layout

end RomLayout
