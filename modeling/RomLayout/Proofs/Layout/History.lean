import RomLayout.Proofs.Building

set_option autoImplicit false

/-!
Histories of a layout: sections are declared, changed one by one and resolved together,
and a description may have been built before all of that.

Whatever is done to a layout, each of its sections has a history of its own. So what holds
of every reachable section holds in every layout that can come about.
-/

namespace RomLayout.Layout

/-- One operation on a layout. -/
inductive Operation where
  | declare (declaration : Declaration)
  | edit (number : Nat) (change : Edit)
  | registerInclude (files : Lookup) (source : SourceFile) (number : Nat) (text : Path)
      (index : Nat)
  | resolve

theorem update_self {layout : Layout} {number : Nat} {current : Section}
    (found : layout.section? number = some current) : layout.update number current = layout := by
  obtain ⟨inside, rfl⟩ := List.getElem?_eq_some_iff.mp found
  simp [update]

namespace Operation

/-- The layout after an operation, whatever the operation answers. Nothing happens to a
section which is not there. -/
def perform (layout : Layout) : Operation → Layout
  | declare declaration =>
      match declaration.bind with
      | .ok bound => (layout.declare bound).2
      | .error _ => layout
  | edit number change =>
      match layout.section? number with
      | some current => layout.update number (change.perform current).2
      | none => layout
  | registerInclude files source number text index =>
      (layout.registerInclude files source number text index).2
  | resolve => layout.resolve.2

def performAll (layout : Layout) (operations : List Operation) : Layout :=
  operations.foldl perform layout

/-- Including a file is an operation on the one section that it goes to. -/
theorem perform_registerInclude (layout : Layout) (files : Lookup) (source : SourceFile)
    (number : Nat) (text : Path) (index : Nat) :
    perform layout (registerInclude files source number text index) =
      perform layout (edit number (.register files source layout.base text index)) := by
  simp only [perform, Layout.registerInclude]
  cases found : layout.section? number with
  | none => rfl
  | some current =>
      dsimp only [Edit.perform]
      rw [Edit.snd_insertion]

end Operation

/-- Layouts that can come about: an empty or a built one, and then any operations. -/
inductive Reachable : Layout → Prop where
  | empty (base : Path) : Reachable (Layout.empty base)
  | built {description : Description} {files : Lookup} {directory base : Path}
      {layout : Layout} :
      description.build files directory base = .ok layout → Reachable layout
  | performed {layout : Layout} (operation : Operation) :
      Reachable layout → Reachable (operation.perform layout)

theorem Reachable.performAll {layout : Layout} (reachable : layout.Reachable)
    (operations : List Operation) : (Operation.performAll layout operations).Reachable := by
  induction operations generalizing layout with
  | nil => exact reachable
  | cons operation rest inductionHypothesis =>
      exact inductionHypothesis (reachable.performed operation)

/-- Every section has been resolved on its own, or is left as it was. -/
theorem reachable_resolveSections {sections : List Section}
    (reachable : ∀ current ∈ sections, RomLayout.Reachable current) :
    ∀ current ∈ (resolveSections sections).2, RomLayout.Reachable current := by
  induction sections with
  | nil => exact reachable
  | cons head rest inductionHypothesis =>
      obtain ⟨headReachable, restReachable⟩ := List.forall_mem_cons.mp reachable
      have headResolved := headReachable.resolve
      have restResolved := inductionHypothesis restReachable
      unfold resolveSections
      rcases outcome : head.resolve with ⟨_ | size, settled⟩
      · rw [outcome] at headResolved
        exact List.forall_mem_cons.mpr ⟨headResolved, restReachable⟩
      · rw [outcome] at headResolved
        rcases others : resolveSections rest with ⟨_ | total, behind⟩
        all_goals
          rw [others] at restResolved
          exact List.forall_mem_cons.mpr ⟨headResolved, restResolved⟩

theorem Operation.reachable_perform {layout : Layout} (operation : Operation)
    (reachable : ∀ current ∈ layout.sections, RomLayout.Reachable current) :
    ∀ current ∈ (operation.perform layout).sections, RomLayout.Reachable current := by
  have editCase : ∀ number change,
      ∀ current ∈ (perform layout (edit number change)).sections, RomLayout.Reachable current := by
    intro number change
    simp only [perform]
    cases found : layout.section? number with
    | none => exact reachable
    | some old => exact reachable_update change reachable found
  cases operation with
  | declare declaration =>
      simp only [perform]
      cases bound : declaration.bind with
      | error error => exact reachable
      | ok fresh =>
          exact List.forall_mem_append.mpr
            ⟨reachable, List.forall_mem_singleton.mpr (.bound bound)⟩
  | edit number change => exact editCase number change
  | registerInclude files source number text index =>
      rw [perform_registerInclude]
      exact editCase number _
  | resolve => exact reachable_resolveSections reachable

/-- Every section of a layout has its own history. -/
theorem Reachable.reachable_of_mem {layout : Layout} (reachable : layout.Reachable) :
    ∀ current ∈ layout.sections, RomLayout.Reachable current := by
  induction reachable with
  | empty base => simp [Layout.empty]
  | built built => exact Description.reachable_of_build built
  | performed operation _ inductionHypothesis =>
      exact operation.reachable_perform inductionHypothesis

end RomLayout.Layout
