import Mathlib.Data.List.DropRight
import RomLayout.Proofs.Checked.Section
import RomLayout.Proofs.Numeral

set_option autoImplicit false

/-!
Addresses as text, and the range at the end of a summary.

The name of a section can be any text, so the addresses of a summary are looked for from its
end. They have neither a blank nor a dash in them, and each of them is read back to the number
that was written. What number that is rests on the binding: in the processor frame the bank
offset is taken from the origin, and no more is taken away than is there.
-/

namespace RomLayout

namespace Hex

/-- Four digits or more, in upper case, and zeros in front only up to the fourth. -/
structure Writes (digits : List Char) (address : UInt64) : Prop where
  fourDigits : 4 ≤ digits.length
  upperCase : ∀ digit ∈ digits, digit.isDigit = true ∨ 'A' ≤ digit ∧ digit ≤ 'F'
  notWidened : 4 < digits.length → digits.head? ≠ some '0'
  value : Numeral.toNat? 16 digits = some address.toNat

theorem upperCase_digitChar : ∀ digit, digit < 16 →
    (Numeral.digitChar digit).isDigit = true ∨
      'A' ≤ Numeral.digitChar digit ∧ Numeral.digitChar digit ≤ 'F' := by
  decide

theorem head?_ofNat_ne_zero {number : Nat} (long : 1 < (Numeral.ofNat 16 number).length) :
    (Numeral.ofNat 16 number).head? ≠ some '0' := by
  rcases Nat.eq_zero_or_pos number with rfl | positive
  · rw [Numeral.ofNat, Numeral.digits] at long
    exact absurd long (by decide)
  · obtain ⟨digit, rest, split, -, notZero⟩ :=
      @Numeral.exists_digits_cons 16 number (by decide) (by decide) positive
    rw [Numeral.ofNat, split, List.map_cons, List.head?_cons]
    exact fun isZero => notZero (Option.some.inj isZero)

theorem writes_digits (address : UInt64) : Writes (digits address) address := by
  have length : (digits address).length =
      4 - (Numeral.ofNat 16 address.toNat).length + (Numeral.ofNat 16 address.toNat).length := by
    rw [digits, List.length_append, List.length_replicate, width]
  constructor
  · omega
  · intro digit member
    rcases List.mem_append.mp member with isZero | isDigit
    · rw [List.eq_of_mem_replicate isZero]
      decide
    · obtain ⟨value, isValue, rfl⟩ := List.mem_map.mp isDigit
      exact upperCase_digitChar value (Numeral.digit_lt_of_mem_digits (by decide) isValue)
  · intro widened
    -- There is no room for a zero in front, so the numeral begins with a digit of its own.
    have noZeros : width - (Numeral.ofNat 16 address.toNat).length = 0 := by
      rw [width]
      omega
    rw [digits, noZeros, List.replicate_zero, List.nil_append]
    exact head?_ofNat_ne_zero (by omega)
  · exact Numeral.toNat?_padded (by decide) (by decide) _ _

theorem toList_render (address : UInt64) : (render address).toList = '$' :: digits address :=
  String.toList_ofList

theorem render_injective : Function.Injective render := by
  intro left right same
  have sameDigits : digits left = digits right := by
    have characters := congrArg String.toList same
    rw [toList_render, toList_render] at characters
    exact (List.cons.inj characters).2
  have sameValue := (writes_digits left).value.symm.trans
    (sameDigits ▸ (writes_digits right).value)
  exact UInt64.toNat_inj.mp (Option.some.inj sameValue)

/-- The number that an address text stands for. -/
def read? : List Char → Option Nat
  | '$' :: digits => Numeral.toNat? 16 digits
  | _ => none

/-- The two addresses behind the last blank of a text, with a dash between them. -/
def range? (text : String) : Option (Nat × Nat) := do
  let word := text.toList.rtakeWhile (· != ' ')
  let first ← read? (word.takeWhile (· != '-'))
  let last ← read? ((word.dropWhile (· != '-')).drop 1)
  return (first, last)

theorem read?_render (address : UInt64) : read? (render address).toList = some address.toNat := by
  rw [toList_render]
  exact (writes_digits address).value

/-- No mark that could end an address stands in one. -/
theorem ne_mark_of_mem_render {address : UInt64} {character : Char}
    (member : character ∈ (render address).toList) :
    (character != ' ') = true ∧ (character != '-') = true := by
  rw [toList_render] at member
  rw [bne_iff_ne, bne_iff_ne]
  rcases List.mem_cons.mp member with rfl | isDigit
  · decide
  · have upperCase := (writes_digits address).upperCase character isDigit
    constructor
    all_goals
      rintro rfl
      exact absurd upperCase (by decide)

section Marks

variable {Value : Type} {isOther : Value → Bool} {mark : Value} {front behind : List Value}

theorem takeWhile_append_cons (isMark : ¬isOther mark = true)
    (others : ∀ value ∈ front, isOther value = true) :
    (front ++ mark :: behind).takeWhile isOther = front := by
  rw [List.takeWhile_append_of_pos others, List.takeWhile_cons_of_neg isMark, List.append_nil]

theorem dropWhile_append_cons (isMark : ¬isOther mark = true)
    (others : ∀ value ∈ front, isOther value = true) :
    (front ++ mark :: behind).dropWhile isOther = mark :: behind := by
  rw [List.dropWhile_append_of_pos others, List.dropWhile_cons_of_neg isMark]

theorem rtakeWhile_append_cons (isMark : ¬isOther mark = true)
    (others : ∀ value ∈ behind, isOther value = true) :
    (front ++ mark :: behind).rtakeWhile isOther = behind := by
  have backwards : ∀ value ∈ behind.reverse, isOther value = true :=
    fun value member => others value (List.mem_reverse.mp member)
  rw [List.rtakeWhile, List.reverse_append, List.reverse_cons, List.append_assoc,
    List.singleton_append, takeWhile_append_cons isMark backwards, List.reverse_reverse]

end Marks

/-- A range is read back, whatever text stands in front of it. -/
theorem range?_append (text : String) (first last : UInt64) :
    range? (text ++ " " ++ render first ++ "-" ++ render last) =
      some (first.toNat, last.toNat) := by
  have shape : (text ++ " " ++ render first ++ "-" ++ render last).toList =
      text.toList ++ ' ' :: ((render first).toList ++ '-' :: (render last).toList) := by
    simp [String.toList_append]
  have word : (text ++ " " ++ render first ++ "-" ++ render last).toList.rtakeWhile (· != ' ') =
      (render first).toList ++ '-' :: (render last).toList := by
    rw [shape]
    apply rtakeWhile_append_cons (by decide)
    rw [List.forall_mem_append, List.forall_mem_cons]
    exact ⟨fun _ member => (ne_mark_of_mem_render member).1, by decide,
      fun _ member => (ne_mark_of_mem_render member).1⟩
  have noDash : ∀ character ∈ (render first).toList, (character != '-') = true :=
    fun _ member => (ne_mark_of_mem_render member).2
  rw [range?, word, takeWhile_append_cons (by decide) noDash,
    dropWhile_append_cons (by decide) noDash, List.drop_one, List.tail_cons, read?_render,
    read?_render]
  rfl

end Hex

/-- How far the addresses of a frame are below the physical ones. -/
def Binding.distance (binding : Binding) : Frame → Nat
  | .physical => 0
  | .cpu => binding.bankOffset.toNat

namespace Section

theorem summary_eq (current : Section) (frame : Frame) :
    current.summary frame =
      current.binding.name ++ " in " ++ current.binding.region.name ++ "["
        ++ Numeral.decimal current.binding.bank.toNat ++ "] at" ++ " "
        ++ Hex.render (current.beginning frame) ++ "-"
        ++ Hex.render (current.beginning frame + current.size.getD 0) := by
  have blank : "] at " = "] at" ++ " " := rfl
  rw [summary, blank]
  simp only [String.append_assoc]

theorem range?_summary (current : Section) (frame : Frame) :
    Hex.range? (current.summary frame) =
      some ((current.beginning frame).toNat,
        (current.beginning frame + current.size.getD 0).toNat) := by
  rw [summary_eq]
  exact Hex.range?_append _ _ _

theorem beginning_add_distance {current : Section} (sound : current.binding.Sound)
    (frame : Frame) :
    (current.beginning frame).toNat + current.binding.distance frame =
      current.binding.origin.toNat := by
  cases frame with
  | physical => rfl
  | cpu => exact (sound.toNat_sub_bankOffset (UInt64.le_refl _)).symm

theorem toNat_beginning_add_size {current : Section} (reachable : Reachable current)
    (frame : Frame) :
    (current.beginning frame + current.size.getD 0).toNat =
      (current.beginning frame).toNat + (current.size.getD 0).toNat := by
  have ends := reachable.origin_add_size_le
  have begins := beginning_le_origin reachable.sound frame
  have bound := UInt64.toNat_lt current.binding.high
  rw [UInt64.toNat_add]
  exact Nat.mod_eq_of_lt (by omega)

/-- The addresses at the end of a summary are read back to where the section starts and to
where it ends by its recorded size, in the physical frame as they are, in the processor frame
less the bank offset. No two addresses have the same text. -/
theorem summary_exact {current : Section} (reachable : Reachable current) :
    (∀ frame, ∃ first last, Hex.range? (current.summary frame) = some (first, last) ∧
      first + current.binding.distance frame = current.binding.origin.toNat ∧
      last + current.binding.distance frame =
        current.binding.origin.toNat + (current.size.getD 0).toNat) ∧
    (∀ address, ∃ digits, (Hex.render address).toList = '$' :: digits ∧
      Hex.Writes digits address) ∧
    Function.Injective Hex.render := by
  refine ⟨?_, ?_, Hex.render_injective⟩
  · intro frame
    have begins := beginning_add_distance reachable.sound frame
    refine ⟨_, _, current.range?_summary frame, begins, ?_⟩
    rw [toNat_beginning_add_size reachable, ← begins]
    omega
  · intro address
    exact ⟨Hex.digits address, Hex.toList_render address, Hex.writes_digits address⟩

/-- A section in the last bank of ROMX whose name looks like a range. -/
def rangeNamed : Section :=
  (Edit.performAll
    (Binding.emptySection
      { file := "main.gbc", name := "x at $0000-$FFFF", index := 0, region := .romx, bank := 127,
        declared := some 0x1FFFF0 })
    [.append (.data (.reserve 0x10)) 1, .resolve]).2

theorem summary_exact_rangeNamed :
    Reachable rangeNamed ∧
      rangeNamed.summary .physical = "x at $0000-$FFFF in ROMX[127] at $1FFFF0-$200000" ∧
      rangeNamed.summary .cpu = "x at $0000-$FFFF in ROMX[127] at $7FF0-$8000" ∧
      Hex.range? (rangeNamed.summary .physical) = some (0x1FFFF0, 0x200000) ∧
      Hex.range? (rangeNamed.summary .cpu) = some (0x7FF0, 0x8000) := by
  have bound : Declaration.bind
      ⟨"main.gbc", "x at $0000-$FFFF", 0, "ROMX", some 127, some 0x1FFFF0⟩ =
      .ok (Binding.emptySection
        { file := "main.gbc", name := "x at $0000-$FFFF", index := 0, region := .romx,
          bank := 127, declared := some 0x1FFFF0 }) := rfl
  have reachable : Reachable rangeNamed := (Reachable.bound bound).performAll _
  have origin : rangeNamed.binding.origin.toNat = 0x1FFFF0 := rfl
  have size : (rangeNamed.size.getD 0).toNat = 0x10 := rfl
  have distance : rangeNamed.binding.distance .cpu = 0x1F8000 := rfl
  obtain ⟨reads, -, -⟩ := summary_exact reachable
  refine ⟨reachable, by decide +kernel, by decide +kernel, ?_, ?_⟩
  · obtain ⟨first, last, read, begins, ends⟩ := reads .physical
    rw [Binding.distance] at begins ends
    obtain rfl : first = 0x1FFFF0 := by omega
    obtain rfl : last = 0x200000 := by omega
    exact read
  · obtain ⟨first, last, read, begins, ends⟩ := reads .cpu
    obtain rfl : first = 0x7FF0 := by omega
    obtain rfl : last = 0x8000 := by omega
    exact read

end Section

end RomLayout
