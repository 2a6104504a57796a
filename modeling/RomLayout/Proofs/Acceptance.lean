import RomLayout.Proofs.Binding

set_option autoImplicit false

/-!
Which declarations are accepted, and where they are bound.

`Yields` says in exact numbers what becomes of a declaration: the region has to be known, then
the bank has to be one of the region, then the offset has to be in the window of this bank,
bounds counted in. Binding agrees with it for every declaration. The window of a section
follows from region and bank alone, so neither the distance between the frames nor a default
that is written out makes a difference.
-/

namespace RomLayout

namespace Region

/-- Where a bank starts in the flattened image, in exact numbers. -/
def bankStart (region : Region) (bank : Nat) : Nat :=
  region.base.toNat + (bank - 1) * region.bankDistance

/-- The bank that is asked for: if no number is given, the first one to switch to, else 0. -/
def bankNumber (region : Region) : Option Int64 → Int
  | some bank => bank.toInt
  | none => if region.isBanked then 1 else 0

theorem ofName?_eq_some_iff {name : String} {region : Region} :
    ofName? name = some region ↔ region.name = name := by
  constructor
  · exact name_of_ofName?
  · rintro rfl
    exact ofName?_name region

theorem ofName?_eq_none_iff {name : String} :
    ofName? name = none ↔ ∀ region : Region, region.name ≠ name := by
  rw [Option.eq_none_iff_forall_ne_some]
  exact forall_congr' fun region => not_congr ofName?_eq_some_iff

end Region

/-- What is wrong with a number as a bank of a region. -/
inductive BankFault.Blames (region : Region) (number : Int) : BankFault → Prop where
  | notBanked : region.isBanked = false → 0 < number → Blames region number .notBanked
  | negative : number < 0 → Blames region number .negative
  | outOfRange : region.isBanked = true → 0 ≤ number →
      number < 1 ∨ region.maxBank.toNat < number →
      Blames region number (.outOfRange region.maxBank)

theorem BankFault.Blames.unique {region : Region} {number : Int} {first second : BankFault}
    (firstBlames : first.Blames region number) (secondBlames : second.Blames region number) :
    first = second := by
  cases firstBlames <;> cases secondBlames
  case notBanked.notBanked | negative.negative | outOfRange.outOfRange => rfl
  case notBanked.outOfRange unbanked _ banked _ _ => exact absurd banked (by simp [unbanked])
  case outOfRange.notBanked banked _ _ unbanked _ => exact absurd banked (by simp [unbanked])
  all_goals omega

namespace Declaration

/-- The region is there, and the bank is the one that is asked for. -/
structure Selects (declaration : Declaration) (region : Region) (bank : UInt64) : Prop where
  named : region.name = declaration.region
  faultless : ∀ fault : BankFault, ¬fault.Blames region (region.bankNumber declaration.bank)
  numbered : bank.toNat = region.bankNumber declaration.bank

/-- What becomes of a declaration. Each check comes into play only if those in front of it
are passed. -/
inductive Yields (declaration : Declaration) : Except Error Section → Prop where
  | unknownRegion :
      (∀ region : Region, region.name ≠ declaration.region) →
      Yields declaration (.error (.unknownRegion declaration.location declaration.region))
  | invalidBank {region : Region} {fault : BankFault} :
      region.name = declaration.region →
      fault.Blames region (region.bankNumber declaration.bank) →
      Yields declaration (.error (.invalidBank declaration.location fault))
  | offsetOutOfRange {region : Region} {bank offset : UInt64} {window : Window} :
      declaration.Selects region bank →
      window.low.toNat = region.bankStart bank.toNat →
      window.high.toNat = region.bankStart bank.toNat + region.size.toNat →
      declaration.offset = some offset →
      offset.toNat < window.low.toNat ∨ window.high.toNat < offset.toNat →
      Yields declaration (.error (.offsetOutOfRange declaration.location window))
  | bound {region : Region} {bank : UInt64} :
      declaration.Selects region bank →
      (∀ offset, declaration.offset = some offset →
        region.bankStart bank.toNat ≤ offset.toNat ∧
          offset.toNat ≤ region.bankStart bank.toNat + region.size.toNat) →
      Yields declaration (.ok (Binding.emptySection
        { file := declaration.file, name := declaration.name, index := declaration.index,
          region, bank, declared := declaration.offset }))

/-- Behind the check for a sign, leaving the sign out makes no difference. -/
theorem isOutside_iff {region : Region} {chosen : Int64} (natural : ¬chosen < 0) :
    (chosen < 1 ∨ region.maxBank < chosen.toUInt64) ↔
      (chosen.toInt < 1 ∨ region.maxBank.toNat < chosen.toInt) := by
  rw [Int64.lt_iff_toInt_lt, UInt64.lt_iff_toNat_lt, ← toNat_toUInt64 natural, Int.ofNat_lt]
  rfl

/-- Either something is wrong with the bank that is asked for, or it is found. -/
theorem bankIn_cases (region : Region) (bank : Option Int64) :
    (∃ fault, fault.Blames region (region.bankNumber bank) ∧ bankIn region bank = .error fault) ∨
    ∃ chosen, (∀ fault : BankFault, ¬fault.Blames region (region.bankNumber bank)) ∧
      chosen.toNat = region.bankNumber bank ∧ bankIn region bank = .ok chosen := by
  have number : (bank.getD region.defaultBank.toInt64).toInt = region.bankNumber bank := by
    cases bank with
    | some bank => rfl
    | none => cases region <;> rfl
  unfold bankIn
  extract_lets chosen
  rw [← number]
  split
  · rename_i unbanked
    have positive : 0 < chosen.toInt := Int64.lt_iff_toInt_lt.mp unbanked.1
    exact .inl ⟨_, .notBanked (by simpa using unbanked.2) positive, rfl⟩
  · rename_i banked
    split
    · rename_i negative
      exact .inl ⟨_, .negative (Int64.lt_iff_toInt_lt.mp negative), rfl⟩
    · rename_i natural
      have nonneg : 0 ≤ chosen.toInt := Int64.le_iff_toInt_le.mp (Int64.not_lt.mp natural)
      split
      · rename_i outside
        exact .inl ⟨_, .outOfRange outside.1 nonneg ((isOutside_iff natural).mp outside.2), rfl⟩
      · rename_i inRange
        refine .inr ⟨_, ?_, toNat_toUInt64 natural, rfl⟩
        intro fault blames
        cases blames with
        | notBanked unbanked positive =>
            exact banked ⟨Int64.lt_iff_toInt_lt.mpr positive, by simp [unbanked]⟩
        | negative negative => exact absurd nonneg (Int.not_le.mpr negative)
        | outOfRange isBanked _ outside =>
            exact inRange ⟨isBanked, (isOutside_iff natural).mpr outside⟩

theorem bankIn_of_blames {region : Region} {bank : Option Int64} {fault : BankFault}
    (blames : fault.Blames region (region.bankNumber bank)) :
    bankIn region bank = .error fault := by
  rcases bankIn_cases region bank with ⟨other, otherBlames, refused⟩ | ⟨chosen, faultless, -, -⟩
  · rw [refused, otherBlames.unique blames]
  · exact absurd blames (faultless fault)

namespace Selects

variable {declaration : Declaration} {region : Region} {bank : UInt64}

theorem bankIn_eq (selects : declaration.Selects region bank) :
    bankIn region declaration.bank = .ok bank := by
  rcases bankIn_cases region declaration.bank with
    ⟨fault, blames, -⟩ | ⟨chosen, -, numbered, found⟩
  · exact absurd blames (selects.faultless fault)
  · have same : chosen = bank := by
      rw [← UInt64.toNat_inj, ← Int.natCast_inj, numbered, selects.numbered]
    rw [found, same]

theorem hasBank (selects : declaration.Selects region bank) : region.HasBank bank :=
  hasBank_of_bankIn selects.bankIn_eq

theorem toNat_low (selects : declaration.Selects region bank) :
    (region.window bank).low.toNat = region.bankStart bank.toNat :=
  Region.toNat_windowLow selects.hasBank

theorem toNat_high (selects : declaration.Selects region bank) :
    (region.window bank).high.toNat = region.bankStart bank.toNat + region.size.toNat := by
  rw [Region.toNat_windowHigh selects.hasBank]
  exact congrArg (· + _) selects.toNat_low

/-- Once region and bank are found, only the offset can be refused. -/
theorem binding_of_inside (selects : declaration.Selects region bank)
    (inside : ∀ offset, declaration.offset = some offset →
      (region.window bank).low ≤ offset ∧ offset ≤ (region.window bank).high) :
    declaration.binding =
      .ok { file := declaration.file, name := declaration.name, index := declaration.index,
            region, bank, declared := declaration.offset } := by
  have found := Region.ofName?_eq_some_iff.mpr selects.named
  simp only [binding, found, selects.bankIn_eq]
  cases declared : declaration.offset with
  | none => rfl
  | some offset => exact if_pos (inside offset declared)

theorem binding_of_outside (selects : declaration.Selects region bank) {offset : UInt64}
    (declared : declaration.offset = some offset)
    (outside : ¬((region.window bank).low ≤ offset ∧ offset ≤ (region.window bank).high)) :
    declaration.binding =
      .error (.offsetOutOfRange declaration.location (region.window bank)) := by
  have found := Region.ofName?_eq_some_iff.mpr selects.named
  simp only [binding, found, selects.bankIn_eq, declared]
  exact if_neg outside

/-- The offset has no part in finding the region and the bank. -/
theorem offset_iff {offset : Option UInt64} :
    { declaration with offset }.Selects region bank ↔ declaration.Selects region bank :=
  ⟨fun ⟨named, faultless, numbered⟩ => ⟨named, faultless, numbered⟩,
    fun ⟨named, faultless, numbered⟩ => ⟨named, faultless, numbered⟩⟩

theorem unique {otherRegion : Region} {otherBank : UInt64}
    (selects : declaration.Selects region bank)
    (otherSelects : declaration.Selects otherRegion otherBank) :
    otherRegion = region ∧ otherBank = bank := by
  have found := Region.ofName?_eq_some_iff.mpr selects.named
  have otherFound := Region.ofName?_eq_some_iff.mpr otherSelects.named
  obtain rfl : otherRegion = region := Option.some.inj (otherFound.symm.trans found)
  exact ⟨rfl, Except.ok.inj (otherSelects.bankIn_eq.symm.trans selects.bankIn_eq)⟩

end Selects

theorem yields_bind (declaration : Declaration) : declaration.Yields declaration.bind := by
  unfold bind
  cases found : Region.ofName? declaration.region with
  | none =>
      simp only [binding, found]
      exact .unknownRegion (Region.ofName?_eq_none_iff.mp found)
  | some region =>
      have named := Region.ofName?_eq_some_iff.mp found
      rcases bankIn_cases region declaration.bank with
        ⟨fault, blames, refused⟩ | ⟨bank, faultless, numbered, -⟩
      · simp only [binding, found, refused]
        exact .invalidBank named blames
      · have selects : declaration.Selects region bank := ⟨named, faultless, numbered⟩
        by_cases inside : ∀ offset, declaration.offset = some offset →
            (region.window bank).low ≤ offset ∧ offset ≤ (region.window bank).high
        · rw [selects.binding_of_inside inside]
          apply Yields.bound selects
          intro offset declared
          rw [← selects.toNat_high, ← selects.toNat_low]
          exact inside offset declared
        · simp only [Classical.not_forall] at inside
          obtain ⟨offset, declared, outside⟩ := inside
          rw [selects.binding_of_outside declared outside]
          rw [Classical.not_and_iff_not_or_not, UInt64.not_le, UInt64.not_le] at outside
          exact .offsetOutOfRange selects selects.toNat_low selects.toNat_high declared outside

theorem Yields.bind_eq {declaration : Declaration} {outcome : Except Error Section}
    (yields : declaration.Yields outcome) : declaration.bind = outcome := by
  unfold bind
  cases yields with
  | unknownRegion unknown =>
      simp only [binding, Region.ofName?_eq_none_iff.mpr unknown]
      rfl
  | invalidBank named blames =>
      simp only [binding, Region.ofName?_eq_some_iff.mpr named, bankIn_of_blames blames]
      rfl
  | @offsetOutOfRange region bank offset window selects low high declared outside =>
      obtain rfl : window = region.window bank := by
        rw [← selects.toNat_low, UInt64.toNat_inj] at low
        rw [← selects.toNat_high, UInt64.toNat_inj] at high
        cases window
        simp_all
      rw [selects.binding_of_outside declared]
      · rfl
      · rintro ⟨atLeast, atMost⟩
        rw [UInt64.le_iff_toNat_le] at atLeast atMost
        omega
  | bound selects inside =>
      rw [selects.binding_of_inside]
      · rfl
      · intro offset declared
        rw [UInt64.le_iff_toNat_le, UInt64.le_iff_toNat_le, selects.toNat_low, selects.toNat_high]
        exact inside offset declared

theorem bind_eq_iff (declaration : Declaration) (outcome : Except Error Section) :
    declaration.bind = outcome ↔ declaration.Yields outcome := by
  constructor
  · rintro rfl
    exact declaration.yields_bind
  · exact Yields.bind_eq

theorem exists_selects_of_bind {declaration : Declaration} {current : Section}
    (accepted : declaration.bind = .ok current) :
    ∃ region bank, declaration.Selects region bank ∧
      current = Binding.emptySection
        { file := declaration.file, name := declaration.name, index := declaration.index,
          region, bank, declared := declaration.offset } := by
  rw [bind_eq_iff] at accepted
  cases accepted with
  | bound selects => exact ⟨_, _, selects, rfl⟩

end Declaration

/-- The window of a binding by the formulas of the memory map, in exact numbers. The distance
between the frames puts the bank into the processor window of its region, and it is what a
declared offset would have to be corrected by. -/
structure Binding.Measured (binding : Binding) : Prop where
  low : binding.low.toNat = binding.region.bankStart binding.bank.toNat
  high : binding.high.toNat =
    binding.region.bankStart binding.bank.toNat + binding.region.size.toNat
  low_le_origin : binding.low ≤ binding.origin
  origin_le_high : binding.origin ≤ binding.high
  base : (binding.low.toNat : Int) - binding.bankOffset.toNat = binding.region.base.toNat
  correction : (binding.bankOffset.toNat : Int) =
    binding.origin.toNat - binding.region.base.toNat - (binding.origin.toNat - binding.low.toNat)

namespace Declaration

variable {declaration : Declaration} {current : Section}

theorem measured_of_bind (accepted : declaration.bind = .ok current) :
    current.binding.Measured := by
  obtain ⟨binding, isBound, same⟩ := bind_ok accepted
  have sound := binding_sound isBound
  obtain ⟨region, bank, selects, rfl⟩ := exists_selects_of_bind accepted
  obtain rfl := congrArg Section.binding same
  have low := sound.toNat_low
  exact ⟨selects.toNat_low, selects.toNat_high, sound.low_le_origin, sound.origin_le_high,
    by omega, by omega⟩

/-- Two declarations that differ in nothing but the offset have the same bank offset. -/
theorem bankOffset_eq {offset : Option UInt64} {other : Section}
    (accepted : declaration.bind = .ok current)
    (otherAccepted : { declaration with offset }.bind = .ok other) :
    other.binding.bankOffset = current.binding.bankOffset := by
  obtain ⟨region, bank, selects, rfl⟩ := exists_selects_of_bind accepted
  obtain ⟨otherRegion, otherBank, otherSelects, rfl⟩ := exists_selects_of_bind otherAccepted
  obtain ⟨rfl, rfl⟩ := selects.unique (Selects.offset_iff.mp otherSelects)
  rfl

theorem bind_default_bank {region : Region} (named : region.name = declaration.region) :
    { declaration with bank := none }.bind =
      { declaration with bank := some (if region.isBanked then 1 else 0) }.bind := by
  have found := Region.ofName?_eq_some_iff.mpr named
  have same : bankIn region (some (if region.isBanked then 1 else 0)) = bankIn region none := by
    cases region <;> rfl
  simp only [bind, binding, found, same]
  rfl

theorem bind_default_offset (accepted : { declaration with offset := none }.bind = .ok current) :
    { declaration with offset := some current.binding.low }.bind =
      .ok { current with
        binding := { current.binding with declared := some current.binding.low } } := by
  have measured := measured_of_bind accepted
  obtain ⟨region, bank, selects, rfl⟩ := exists_selects_of_bind accepted
  have selectsLow : { declaration with offset := some (region.window bank).low }.Selects
      region bank := Selects.offset_iff.mpr (Selects.offset_iff.mp selects)
  have atMost : (region.window bank).low ≤ (region.window bank).high :=
    UInt64.le_trans measured.low_le_origin measured.origin_le_high
  change { declaration with offset := some (region.window bank).low }.bind = _
  rw [bind, selectsLow.binding_of_inside]
  · rfl
  · intro offset declared
    cases declared
    exact ⟨UInt64.le_refl _, atMost⟩

/-- A declaration is accepted exactly if it is legal, and the first thing that is wrong with it
is what is reported. The section that it is bound to has the window of its bank and starts at
the offset, or at the bottom of the window; the bank offset does not depend on the offset, and
a default makes the same section if it is written out. -/
theorem bind_exact (declaration : Declaration) :
    (∀ outcome, declaration.bind = outcome ↔ declaration.Yields outcome) ∧
    (∀ current, declaration.bind = .ok current →
      current.binding.Measured ∧
      current.binding.origin = declaration.offset.getD current.binding.low ∧
      ∀ offset other, { declaration with offset }.bind = .ok other →
        other.binding.bankOffset = current.binding.bankOffset) ∧
    (∀ region : Region, region.name = declaration.region →
      { declaration with bank := none }.bind =
        { declaration with bank := some (if region.isBanked then 1 else 0) }.bind) ∧
    ∀ current, { declaration with offset := none }.bind = .ok current →
      { declaration with offset := some current.binding.low }.bind =
        .ok { current with
          binding := { current.binding with declared := some current.binding.low } } := by
  refine ⟨declaration.bind_eq_iff, ?_, fun _ => bind_default_bank,
    fun _ => bind_default_offset⟩
  intro current accepted
  refine ⟨measured_of_bind accepted, ?_, fun _ _ => bankOffset_eq accepted⟩
  obtain ⟨region, bank, -, rfl⟩ := exists_selects_of_bind accepted
  rfl

/-- A buffer that starts on the very end of the last bank of RAMX. -/
def lastRamx : Declaration := ⟨"main.gbc", "Buffer", 3, "RAMX", some 7, some 0x18000⟩

/-- The end of the bank is accepted, the byte behind it is not. The lowest number is no bank of
any region, and it is found to be negative before it is found to be out of range. -/
theorem bind_exact_lastRamx :
    (∃ current, lastRamx.bind = .ok current ∧ current.binding.low.toNat = 0x16000 ∧
      current.binding.high.toNat = 0x18000 ∧ current.binding.origin = 0x18000 ∧
      (current.binding.bankOffset.toNat : Int) = 0x18000 - 0xA000 - (0x18000 - 0x16000)) ∧
    { lastRamx with offset := some 0x18001 }.bind =
      .error (.offsetOutOfRange ⟨"main.gbc", 3⟩ ⟨0x16000, 0x18000⟩) ∧
    { lastRamx with bank := some Int64.minValue }.bind =
      .error (.invalidBank ⟨"main.gbc", 3⟩ .negative) := by
  have selects : lastRamx.Selects .ramx 7 := by
    refine ⟨rfl, ?_, rfl⟩
    intro fault blames
    cases blames with
    | notBanked unbanked => cases unbanked
    | negative negative => exact absurd negative (by decide)
    | outOfRange _ _ outside => exact absurd outside (by decide)
  obtain ⟨exactly, bounds, -⟩ := bind_exact lastRamx
  refine ⟨?_, ?_, ?_⟩
  · have accepted := (exactly _).mpr (.bound selects fun offset declared => by
      cases declared
      decide)
    obtain ⟨measured, origin, -⟩ := bounds _ accepted
    exact ⟨_, accepted, measured.low, measured.high, origin, measured.correction⟩
  · exact ((bind_exact _).1 _).mpr
      (.offsetOutOfRange (Selects.offset_iff.mpr selects) rfl rfl rfl (.inr (by decide)))
  · have negative : Int64.minValue.toInt < 0 := by decide
    exact ((bind_exact _).1 _).mpr (@Yields.invalidBank _ .ramx _ rfl (.negative negative))

end Declaration

end RomLayout
