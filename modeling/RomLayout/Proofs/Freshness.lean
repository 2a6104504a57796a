import RomLayout.Proofs.Resolution

set_option autoImplicit false

/-!
The recorded size of a section is never stale.

A size is recorded by a pass that ends well and cleared by every change of the entry
list. A pass that fails clears nothing; that no size survives it rests on the history:
were one recorded, the same pass would have ended well.
-/

namespace RomLayout

namespace Section

variable {current changed : Section}

/-- A recorded size is what resolving would find now, and resolving would change
nothing. -/
def Fresh (current : Section) : Prop :=
  ∀ size, current.size = some size → current.resolve = (.ok size, current)

theorem size_of_resolve {size : UInt64} (resolved : current.resolve = (.ok size, changed)) :
    changed.size = some size := by
  unfold resolve at resolved
  split at resolved
  · cases resolved
    rfl
  · simp at resolved

theorem size_of_stopped {error : Error} (stopped : current.resolve = (.error error, changed)) :
    changed.size = current.size := by
  unfold resolve at stopped
  split at stopped
  · simp at stopped
  · cases stopped
    rfl

/-- Resolving twice is resolving once, whether it ends well or not. -/
theorem resolve_resolve (sound : current.binding.Sound) :
    current.resolve.2.resolve = current.resolve := by
  have again := Binding.place_place sound.origin_le_high none current.entries
  unfold resolve
  rcases placed : current.binding.place current.binding.origin none current.entries with
    ⟨result, entries⟩
  rw [placed] at again
  cases result with
  | ok reached => simp only [again]
  | error error => simp only [again]

theorem resolve_pushMacroCall (current : Section) (call : MacroCall) :
    (current.pushMacroCall call).resolve =
      (current.resolve.1, current.resolve.2.pushMacroCall call) := by
  unfold resolve pushMacroCall
  dsimp only
  split <;> rfl

theorem Fresh.pushMacroCall (fresh : current.Fresh) (call : MacroCall) :
    (current.pushMacroCall call).Fresh := by
  intro size recorded
  rw [resolve_pushMacroCall, fresh size recorded]

theorem Fresh.size_of_stopped {error : Error} (fresh : current.Fresh)
    (stopped : current.resolve = (.error error, changed)) : changed.size = none := by
  rw [Section.size_of_stopped stopped]
  cases recorded : current.size with
  | none => rfl
  | some size =>
      -- The pass clears nothing, but with this size it would have ended well.
      have succeeds := fresh size recorded
      rw [stopped] at succeeds
      cases succeeds

theorem Fresh.of_change {edit : Edit} {answer : Answer} (sound : current.binding.Sound)
    (fresh : current.Fresh) (change : Change current edit answer changed) : changed.Fresh := by
  cases change with
  | inserted | removed =>
      intro size recorded
      cases recorded
  | absent | refused => exact fresh
  | noted call => exact fresh.pushMacroCall call
  | resolved resolved =>
      intro size recorded
      rw [size_of_resolve resolved] at recorded
      cases recorded
      have again := resolve_resolve sound
      rwa [resolved] at again
  | stopped stopped =>
      intro size recorded
      rw [fresh.size_of_stopped stopped] at recorded
      cases recorded

end Section

theorem Reachable.fresh {current : Section} (reachable : Reachable current) : current.Fresh := by
  apply reachable.invariant (motive := Section.Fresh)
  · intro binding size recorded
    cases recorded
  · intro current edit answer changed reachable fresh change
    exact fresh.of_change reachable.sound change

/-- The bytes that a reachable section is recorded to use stand inside its bank. -/
theorem Reachable.recorded {current : Section} (reachable : Reachable current) {size : UInt64}
    (recorded : current.size = some size) :
    size.toNat = totalSize current.entries ∧
      current.binding.origin.toNat + size.toNat ≤ current.binding.high.toNat := by
  have resolved := reachable.fresh size recorded
  obtain ⟨fits, length, -⟩ := (Section.resolve_ok_iff reachable.sound size current).mp resolved
  exact ⟨length, length ▸ fits⟩

namespace Edit

variable {current : Section} {edit : Edit}

theorem size_of_entries_ne (notResolve : edit ≠ .resolve)
    (differs : (edit.perform current).2.entries ≠ current.entries) :
    (edit.perform current).2.size = none := by
  have change := edit.perform_change current
  generalize edit.perform current = outcome at change differs ⊢
  obtain ⟨answer, changed⟩ := outcome
  cases change with
  | inserted | removed => rfl
  | absent | noted | refused => exact absurd rfl differs
  | resolved | stopped => exact absurd rfl notResolve

theorem size_of_failed
    (failed : (edit.perform current).1 = .absent ∨
      ∃ error, (edit.perform current).1 = .failed error) :
    (edit.perform current).2.size = current.size := by
  have change := edit.perform_change current
  generalize edit.perform current = outcome at change failed ⊢
  obtain ⟨answer, changed⟩ := outcome
  cases change with
  | inserted | removed | noted | resolved => simp at failed
  | absent | refused => rfl
  | stopped stopped => exact Section.size_of_stopped stopped

theorem size_perform_of_stale (stale : current.size = none)
    (unresolved : ∀ size, (edit.perform current).1 ≠ .resolved size) :
    (edit.perform current).2.size = none := by
  have change := edit.perform_change current
  generalize edit.perform current = outcome at change unresolved ⊢
  obtain ⟨answer, changed⟩ := outcome
  cases change with
  | inserted | removed => rfl
  | absent | noted | refused => exact stale
  | resolved => exact absurd rfl (unresolved _)
  | stopped stopped => rw [Section.size_of_stopped stopped, stale]

/-- Only a pass that ends well brings a size back. -/
theorem size_performAll_of_stale (stale : current.size = none) (edits : List Edit)
    (unresolved : ∀ size, .resolved size ∉ (performAll current edits).1) :
    (performAll current edits).2.size = none := by
  induction edits generalizing current with
  | nil => exact stale
  | cons edit rest inductionHypothesis =>
      simp only [performAll, List.mem_cons, not_or] at unresolved
      apply inductionHypothesis
      · apply size_perform_of_stale stale
        intro size resolved
        exact (unresolved size).1 resolved.symm
      · intro size
        exact (unresolved size).2

end Edit

namespace Section

/-- The size is a sound flag: where it is set, resolving finds nothing to do, and
whatever could make it wrong clears it. -/
theorem size_sound {current : Section} (reachable : Reachable current) :
    (∀ size, current.size = some size →
      current.resolve = (.ok size, current) ∧
      size.toNat = totalSize current.entries ∧
      current.binding.origin.toNat + size.toNat ≤ current.binding.high.toNat) ∧
    (∀ edit : Edit, edit ≠ .resolve → (edit.perform current).2.entries ≠ current.entries →
      ∀ later : List Edit,
        (∀ size, .resolved size ∉ (Edit.performAll (edit.perform current).2 later).1) →
        (Edit.performAll (edit.perform current).2 later).2.size = none) ∧
    (∀ edit : Edit,
      ((edit.perform current).1 = .absent ∨ ∃ error, (edit.perform current).1 = .failed error) →
      (edit.perform current).2.size = current.size) ∧
    ∀ error, current.resolve.1 = .error error → current.resolve.2.size = none := by
  refine ⟨?_, ?_, ?_, ?_⟩
  · intro size recorded
    exact ⟨reachable.fresh size recorded, reachable.recorded recorded⟩
  · intro edit notResolve differs later unresolved
    have stale := Edit.size_of_entries_ne notResolve differs
    exact Edit.size_performAll_of_stale stale later unresolved
  · intro edit failed
    exact Edit.size_of_failed failed
  · intro error failed
    exact reachable.fresh.size_of_stopped (Prod.ext failed rfl)

/-- The size stays away through an insertion that does not fit and a pass that fails. -/
theorem size_sound_staleRomx :
    Reachable staleRomx.resolve.2 ∧ staleRomx.resolve.2.size = some 3 ∧
      staleRomx.resolve.2.resolve = (.ok 3, staleRomx.resolve.2) ∧
      (Edit.performAll (Edit.perform staleRomx.resolve.2 (.remove 1)).2
        [.append (.data (.reserve 0x4001)) 6, .resolve]).2.size = none := by
  have reachable := reachable_staleRomx.resolve
  obtain ⟨recorded, cleared, -, -⟩ := size_sound reachable
  refine ⟨reachable, rfl, (recorded 3 rfl).1, ?_⟩
  apply cleared (.remove 1) (by simp) (by decide)
  intro size resolved
  cases resolved with
  | tail _ resolved => cases resolved with
    | tail _ resolved => cases resolved

end Section

end RomLayout
