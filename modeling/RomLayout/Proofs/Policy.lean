import RomLayout.Proofs.Entries
import RomLayout.Proofs.Layout.History

set_option autoImplicit false

/-!
The content policy: what a storage class has a place for, and that no section of any layout
ever holds anything else.

Only insertions bring in a payload, and all of them pass the one check in `makeEntry`. The
policy is said here by what must not stand in a section, the check by what is wrong with a
payload; an insertion is refused exactly if the section would break the policy with it.
-/

namespace RomLayout

/-- The content policy of a storage class. -/
def Storage.Admits (storage : Storage) (payload : Payload) : Prop :=
  match storage with
  | .readWrite =>
      (∀ mnemonic size, payload ≠ .instruction mnemonic size) ∧
      (∀ block, payload = .data block → block.values = []) ∧
      ∀ included, payload ≠ .binary included
  | .readOnly => ∀ size, payload ≠ .slot size

/-- A violation says what kind of payload it is about. -/
inductive Violation.Names : Violation → Payload → Prop where
  | instruction (mnemonic : String) (size : UInt64) :
      Names .instructionInRam (.instruction mnemonic size)
  | data (block : DataBlock) : Names .initializedDataInRam (.data block)
  | binary (included : Binary) : Names .binaryInRam (.binary included)
  | slot (size : UInt64) : Names .variableInRom (.slot size)

namespace Payload

variable {payload : Payload} {storage : Storage}

theorem violation?_eq_none_iff : payload.violation? storage = none ↔ storage.Admits payload := by
  cases storage <;> cases payload <;>
    simp [violation?, Storage.Admits, DataBlock.isInitialized]

theorem names_of_violation? {violation : Violation}
    (found : payload.violation? storage = some violation) : violation.Names payload := by
  revert found
  fun_cases violation? payload storage <;> intro found <;> cases found <;> constructor

instance (storage : Storage) (payload : Payload) : Decidable (storage.Admits payload) :=
  decidable_of_iff _ violation?_eq_none_iff

end Payload

namespace Section

variable {current : Section} {payload : Payload} {position index : Nat}

/-- Every entry is one that the storage class of the section admits. -/
def KeepsPolicy (current : Section) : Prop :=
  ∀ entry ∈ current.entries, current.binding.region.storage.Admits entry.payload

instance (current : Section) : Decidable current.KeepsPolicy :=
  inferInstanceAs (Decidable (∀ entry ∈ current.entries, _))

theorem insert_of_admits (admits : current.binding.region.storage.Admits payload)
    (position index : Nat) :
    current.insert payload position index =
      (.ok current.nextId, current.grown payload position index) := by
  rw [insert_eq, check_eq_ok_iff.mpr (Payload.violation?_eq_none_iff.mpr admits)]

theorem insert_of_violation? {violation : Violation}
    (found : payload.violation? current.binding.region.storage = some violation)
    (position index : Nat) :
    current.insert payload position index =
      (.error (.illegalContent ⟨current.binding.file, index⟩ violation), current) := by
  rw [insert_eq, check, found]

namespace KeepsPolicy

theorem grown_iff (keeps : current.KeepsPolicy) :
    (current.grown payload position index).KeepsPolicy ↔
      current.binding.region.storage.Admits payload := by
  simp only [KeepsPolicy, grown, unplaced, mem_take_append_cons_drop, forall_eq_or_imp]
  exact and_iff_left keeps

theorem of_change {changed : Section} {edit : Edit} {answer : Answer}
    (sound : current.binding.Sound) (keeps : current.KeepsPolicy)
    (change : Change current edit answer changed) : changed.KeepsPolicy := by
  cases change with
  | inserted position checked =>
      exact keeps.grown_iff.mpr (Payload.violation?_eq_none_iff.mp (check_eq_ok_iff.mp checked))
  | removed =>
      intro entry member
      exact keeps entry (List.mem_of_mem_eraseP member)
  | absent | noted | refused => exact keeps
  | resolved resolved | stopped resolved =>
      have placed := forall₂_resolve sound
      have sameBinding := current.resolve_binding
      rw [resolved] at placed sameBinding
      intro entry member
      obtain ⟨old, oldMember, leaves⟩ := exists_mem_of_forall₂ placed member
      rw [sameBinding, leaves.payload_eq]
      exact keeps old oldMember

end KeepsPolicy

end Section

theorem Reachable.keepsPolicy {current : Section} (reachable : Reachable current) :
    current.KeepsPolicy := by
  apply reachable.invariant (motive := Section.KeepsPolicy)
  · intro binding entry member
    cases member
  · intro current edit answer changed reachable keeps change
    exact keeps.of_change reachable.sound change

/-- What an insertion answers that would make the section grow to another one: it is refused
exactly if the policy would be broken, at the given index and for the kind of the payload, and
then the section is the one that it was. -/
structure Section.Admission (current grown : Section) (payload : Payload) (index : Nat)
    (outcome : Except Error EntryId × Section) : Prop where
  admitted : grown.KeepsPolicy → outcome = (.ok current.nextId, grown)
  refused : ¬grown.KeepsPolicy → ∃ violation, violation.Names payload ∧
    outcome = (.error (.illegalContent ⟨current.binding.file, index⟩ violation), current)

theorem Section.KeepsPolicy.admission_insert {current : Section} (keeps : current.KeepsPolicy)
    (payload : Payload) (position index : Nat) :
    current.Admission (current.grown payload position index) payload index
      (current.insert payload position index) := by
  constructor
  · intro kept
    exact insert_of_admits (keeps.grown_iff.mp kept) position index
  · intro broken
    rw [keeps.grown_iff, ← Payload.violation?_eq_none_iff] at broken
    obtain ⟨violation, found⟩ := Option.ne_none_iff_exists'.mp broken
    exact ⟨violation, Payload.names_of_violation? found, insert_of_violation? found position index⟩

/-- In every layout that can come about, however it was built and changed, memory that is
written at run time holds no code and no initial bytes, and read-only memory holds no
variables. An insertion is refused exactly where it would break this. -/
theorem Layout.policy_exact {layout : Layout} (reachable : layout.Reachable) :
    ∀ current ∈ layout.sections, current.KeepsPolicy ∧
      ∀ payload index,
        current.Admission (current.grown payload current.entries.length index) payload index
          (current.append payload index) ∧
        ∀ position, current.Admission (current.grown payload position index) payload index
          (current.insert payload position index) := by
  intro current member
  have keeps := (reachable.reachable_of_mem current member).keepsPolicy
  refine ⟨keeps, ?_⟩
  intro payload index
  rw [Section.append_eq_insert]
  exact ⟨keeps.admission_insert payload _ index, fun position =>
    keeps.admission_insert payload position index⟩

/-- Variables and code, with a byte and an include that the variables have no place for. -/
def Layout.guarded : Layout :=
  Operation.performAll (.empty .empty)
    [.declare ⟨"main.gbc", "Vars", 0, "WRAM0", none, none⟩, .edit 0 (.append (.slot 2) 1),
      .edit 0 (.insert (.data (.ofValues [1])) 0 2),
      .declare ⟨"main.gbc", "Main", 3, "ROMX", none, none⟩,
      .registerInclude (fun _ => .ok (.file [1, 2, 3])) ⟨"main.gbc", .empty⟩ 0 .empty 4,
      .registerInclude (fun _ => .ok (.file [1, 2, 3])) ⟨"main.gbc", .empty⟩ 1 .empty 5, .resolve]

theorem Layout.policy_exact_guarded :
    guarded.Reachable ∧ ∃ vars main, guarded.sections = [vars, main] ∧
      vars.KeepsPolicy ∧
      vars.entries.map (·.payload) = [.slot 2] ∧
      vars.insert (.data (.ofValues [1])) 0 2 =
        (.error (.illegalContent ⟨"main.gbc", 2⟩ .initializedDataInRam), vars) ∧
      main.KeepsPolicy ∧
      main.entries.map (·.payload) = [.binary ⟨⟨"main.gbc", 5⟩, .empty, 3⟩] := by
  have reachable : guarded.Reachable := (Reachable.empty _).performAll _
  have vars := policy_exact reachable _ (List.getElem_mem (by decide : 0 < guarded.sections.length))
  have main := policy_exact reachable _ (List.getElem_mem (by decide : 1 < guarded.sections.length))
  refine ⟨reachable, _, _, rfl, vars.1, rfl, ?_, main.1, rfl⟩
  obtain ⟨violation, names, refused⟩ :=
    ((vars.2 (.data (.ofValues [1])) 2).2 0).refused (by decide)
  cases names
  exact refused

end RomLayout
