import Mathlib.Order.Interval.Set.Basic
import RomLayout.Proofs.Freshness
import RomLayout.Proofs.Occupancy

set_option autoImplicit false

/-!
The overlap check against the plain definition: no two sections of one bank share
a byte.

The check never compares sections with each other. `Tracks` relates what it keeps,
the spans of every bank, to the sections that have been claimed so far: their ranges
are the owned spans, one each. A further section meets an owned span exactly if it
shares a byte with one of them.
-/

namespace RomLayout

namespace Section

/-- The bytes that a section is recorded to use; none as long as it is not resolved. -/
def bytes (current : Section) : Set Nat :=
  match current.size with
  | some size =>
      Set.Ico current.binding.origin.toNat (current.binding.origin.toNat + size.toNat)
  | none => ∅

/-- Two sections of one bank that share a byte. -/
def Overlaps (left right : Section) : Prop :=
  left.binding.region = right.binding.region ∧ left.binding.bank = right.binding.bank ∧
    ∃ byte, byte ∈ left.bytes ∧ byte ∈ right.bytes

theorem Overlaps.symm {left right : Section} (overlaps : left.Overlaps right) :
    right.Overlaps left := by
  obtain ⟨sameRegion, sameBank, byte, inLeft, inRight⟩ := overlaps
  exact ⟨sameRegion.symm, sameBank.symm, byte, inRight, inLeft⟩

/-- What a section claims: its bytes as a span, if there are any. -/
def span? (current : Section) : Option Span :=
  let size := current.size.getD 0
  if size = 0 then none
  else some ⟨current.binding.origin, current.binding.origin + size - 1, some current.binding.name⟩

/-- A recorded range as the check sees it: its bounds are exact and inside the bank. -/
structure Claims (current : Section) (span : Span) (size : UInt64) : Prop where
  recorded : current.size = some size
  positive : 0 < size.toNat
  first : span.first = current.binding.origin
  last : span.last.toNat + 1 = current.binding.origin.toNat + size.toNat
  owner : span.owner = some current.binding.name
  low_le_first : current.binding.low ≤ span.first
  last_le_high : span.last ≤ current.binding.high

theorem exists_claims {current : Section} {size : UInt64} (recorded : current.size = some size)
    (positive : 0 < size) (low_le_origin : current.binding.low ≤ current.binding.origin)
    (fits : current.binding.origin.toNat + size.toNat ≤ current.binding.high.toNat + 1) :
    ∃ span, current.span? = some span ∧ current.Claims span size := by
  have bound := UInt64.toNat_lt current.binding.high
  have last := Span.toNat_last positive (Nat.le_trans fits bound)
  have nonzero : size ≠ 0 := by
    rintro rfl
    exact absurd positive (by decide)
  refine ⟨⟨current.binding.origin, current.binding.origin + size - 1,
    some current.binding.name⟩, ?_, ⟨recorded, positive, rfl, last, rfl, low_le_origin, ?_⟩⟩
  · simp [span?, recorded, nonzero]
  · rw [UInt64.le_iff_toNat_le]
    dsimp only
    omega

end Section

theorem Reachable.claims {current : Section} (reachable : Reachable current) {span : Span}
    (claimed : current.span? = some span) : ∃ size, current.Claims span size := by
  cases recorded : current.size with
  | none => simp [Section.span?, recorded] at claimed
  | some size =>
      have positive : 0 < size := by
        rw [UInt64.pos_iff_ne_zero]
        rintro rfl
        simp [Section.span?, recorded] at claimed
      have atMost := (reachable.recorded recorded).2
      obtain ⟨_, sameClaim, claims⟩ := Section.exists_claims recorded positive
        reachable.sound.low_le_origin (by omega)
      cases claimed.symm.trans sameClaim
      exact ⟨size, claims⟩

namespace Section

variable {current left right : Section}

theorem Claims.first_le_last {span : Span} {size : UInt64} (claims : current.Claims span size) :
    span.first ≤ span.last := by
  have positive := claims.positive
  have last := claims.last
  rw [UInt64.le_iff_toNat_le, claims.first]
  omega

theorem Claims.mem_bytes_iff {span : Span} {size : UInt64} (claims : current.Claims span size)
    (byte : Nat) :
    byte ∈ current.bytes ↔ span.first.toNat ≤ byte ∧ byte ≤ span.last.toNat := by
  have last := claims.last
  rw [bytes, claims.recorded, claims.first]
  simp only [Set.mem_Ico]
  omega

theorem Claims.exists_mem_bytes_iff {other span : Span} {leftSize rightSize : UInt64}
    (leftClaims : left.Claims other leftSize) (rightClaims : right.Claims span rightSize) :
    (∃ byte, byte ∈ left.bytes ∧ byte ∈ right.bytes) ↔
      other.overlaps span.first span.last = true := by
  have leftOrdered := leftClaims.first_le_last
  have rightOrdered := rightClaims.first_le_last
  rw [UInt64.le_iff_toNat_le] at leftOrdered rightOrdered
  simp only [leftClaims.mem_bytes_iff, rightClaims.mem_bytes_iff, Span.overlaps_iff]
  constructor
  · rintro ⟨byte, inLeft, inRight⟩
    omega
  · intro meets
    refine ⟨max span.first.toNat other.first.toNat, ?_, ?_⟩
    all_goals omega

theorem span?_of_mem_bytes {byte : Nat} (member : byte ∈ current.bytes) :
    ∃ span, current.span? = some span := by
  unfold bytes at member
  cases recorded : current.size with
  | none => simp [recorded] at member
  | some size =>
      simp only [recorded, Set.mem_Ico] at member
      have nonzero : size ≠ 0 := by
        rintro rfl
        simp at member
        omega
      simp [span?, recorded, nonzero]

/-- Two recorded ranges share a byte exactly if the check finds them to overlap. -/
theorem overlaps_iff (leftReachable : Reachable left) (rightReachable : Reachable right)
    {span : Span} (claimed : right.span? = some span) :
    left.Overlaps right ↔
      left.binding.region = right.binding.region ∧ left.binding.bank = right.binding.bank ∧
        ∃ other, left.span? = some other ∧ other.overlaps span.first span.last = true := by
  obtain ⟨rightSize, rightClaims⟩ := rightReachable.claims claimed
  unfold Overlaps
  apply and_congr_right
  intro _
  apply and_congr_right
  intro _
  constructor
  · rintro ⟨byte, inLeft, inRight⟩
    obtain ⟨other, otherClaimed⟩ := span?_of_mem_bytes inLeft
    obtain ⟨leftSize, leftClaims⟩ := leftReachable.claims otherClaimed
    exact ⟨other, otherClaimed,
      (leftClaims.exists_mem_bytes_iff rightClaims).mp ⟨byte, inLeft, inRight⟩⟩
  · rintro ⟨other, otherClaimed, overlaps⟩
    obtain ⟨leftSize, leftClaims⟩ := leftReachable.claims otherClaimed
    exact (leftClaims.exists_mem_bytes_iff rightClaims).mpr overlaps

end Section

namespace Occupancy

/-- The spans that sections claim in one bank. -/
def claimedSpans (region : Region) (bank : UInt64) (sections : List Section) : List Span :=
  sections.filterMap fun current =>
    if current.binding.region = region ∧ current.binding.bank = bank then current.span? else none

/-- What the check knows after it has claimed some sections. -/
structure Tracks (occupancy : Occupancy) (claimed : List Section) : Prop where
  reachable : ∀ current ∈ claimed, Reachable current
  partition : ∀ region bank, region.HasBank bank →
    Span.Partition (region.window bank).low (region.window bank).high (occupancy region bank)
  owned : ∀ region bank,
    (Span.owned (occupancy region bank)).Perm (claimedSpans region bank claimed)
  apart : claimed.Pairwise fun earlier later => ¬earlier.Overlaps later

theorem tracks_free : Tracks free [] := by
  refine ⟨by simp, ?_, ?_, .nil⟩
  · intro region bank hasBank
    have ordered : (region.window bank).low.toNat ≤ (region.window bank).high.toNat := by
      rw [Region.toNat_windowHigh hasBank]
      exact Nat.le_add_right _ _
    exact ⟨⟨rfl, ordered, rfl⟩, .singleton _⟩
  · intro region bank
    exact .nil

/-- The error of a section that meets a span of `other`. -/
def conflictOf (current : Section) (span : Span) (other : String) : Error :=
  .sectionOverlap
    { name := current.binding.name, other, region := current.binding.region,
      bank := current.binding.bank, first := span.first, last := span.last }

theorem update_self (occupancy : Occupancy) (region : Region) (bank : UInt64) :
    occupancy.update region bank (occupancy region bank) = occupancy := by
  funext otherRegion otherBank
  unfold update
  split
  · rename_i here
    obtain ⟨rfl, rfl⟩ := here
    rfl
  · rfl

theorem claimSection_of_none {current : Section} (occupancy : Occupancy)
    (empty : current.span? = none) : claimSection occupancy current = (.ok (), occupancy) := by
  have zero : current.size.getD 0 = 0 := by
    by_contra nonzero
    simp [Section.span?, nonzero] at empty
  simp [claimSection, zero]

/-- A span with an owner is found before the first one is cut, so a refused claim leaves
everything as it was. -/
theorem claimSection_of_some {current : Section} (occupancy : Occupancy) {span : Span}
    (claimed : current.span? = some span) :
    claimSection occupancy current =
      match Span.holder? (occupancy current.binding.region current.binding.bank)
          span.first span.last with
      | some other => (.error (conflictOf current span other), occupancy)
      | none =>
          (.ok (), occupancy.update current.binding.region current.binding.bank
            (Span.occupy span.first span.last current.binding.name
              (occupancy current.binding.region current.binding.bank))) := by
  simp only [Section.span?, Option.ite_none_left_eq_some, Option.some.injEq] at claimed
  obtain ⟨nonzero, rfl⟩ := claimed
  simp only [claimSection, if_neg nonzero, Span.claim]
  cases Span.holder? (occupancy current.binding.region current.binding.bank)
      current.binding.origin (current.binding.origin + current.size.getD 0 - 1) with
  | none => rfl
  | some other => exact Prod.ext rfl (update_self _ _ _)

/-- The section with the lowest origin among those that share a byte with `current`. -/
structure Lowest (claimed : List Section) (current other : Section) : Prop where
  member : other ∈ claimed
  overlaps : other.Overlaps current
  least : ∀ another ∈ claimed, another.Overlaps current →
    other.binding.origin ≤ another.binding.origin

namespace Tracks

variable {occupancy : Occupancy} {claimed : List Section} {current : Section} {span : Span}

theorem mem_owned_iff (tracks : Tracks occupancy claimed) (region : Region) (bank : UInt64) :
    span ∈ Span.owned (occupancy region bank) ↔
      ∃ earlier ∈ claimed, (earlier.binding.region = region ∧ earlier.binding.bank = bank) ∧
        earlier.span? = some span := by
  rw [(tracks.owned region bank).mem_iff, claimedSpans, List.mem_filterMap]
  simp only [Option.ite_none_right_eq_some]

theorem lowest_of_held (tracks : Tracks occupancy claimed) (reachable : Reachable current)
    (wanted : current.span? = some span) {name : String}
    (held : Span.holder? (occupancy current.binding.region current.binding.bank)
      span.first span.last = some name) :
    ∃ other, Lowest claimed current other ∧ other.binding.name = name := by
  have partition := tracks.partition _ _ reachable.sound.hasBank
  obtain ⟨owned, member, owner, overlaps, lowest⟩ := Span.holder?_eq_some partition held
  obtain ⟨other, inClaimed, ⟨sameRegion, sameBank⟩, claims⟩ := (tracks.mem_owned_iff _ _).mp member
  have otherReachable := tracks.reachable other inClaimed
  obtain ⟨size, otherClaims⟩ := otherReachable.claims claims
  refine ⟨other, ⟨inClaimed, ?_, ?_⟩, ?_⟩
  · rw [Section.overlaps_iff otherReachable reachable wanted]
    exact ⟨sameRegion, sameBank, owned, claims, overlaps⟩
  · intro another anotherInClaimed anotherOverlaps
    have anotherReachable := tracks.reachable another anotherInClaimed
    rw [Section.overlaps_iff anotherReachable reachable wanted] at anotherOverlaps
    obtain ⟨region, bank, anotherSpan, spanClaimed, meets⟩ := anotherOverlaps
    obtain ⟨anotherSize, anotherClaims⟩ := anotherReachable.claims spanClaimed
    have anotherOwned := (tracks.mem_owned_iff current.binding.region current.binding.bank).mpr
      ⟨another, anotherInClaimed, ⟨region, bank⟩, spanClaimed⟩
    rw [← otherClaims.first, ← anotherClaims.first, UInt64.le_iff_toNat_le]
    exact lowest anotherSpan anotherOwned meets
  · have same := otherClaims.owner.symm.trans owner
    exact Option.some.inj same

theorem apart_of_free (tracks : Tracks occupancy claimed) (reachable : Reachable current)
    (wanted : current.span? = some span)
    (free : Span.holder? (occupancy current.binding.region current.binding.bank)
      span.first span.last = none) :
    ∀ earlier ∈ claimed, ¬earlier.Overlaps current := by
  intro earlier member overlaps
  rw [Section.overlaps_iff (tracks.reachable earlier member) reachable wanted] at overlaps
  obtain ⟨region, bank, other, claims, meets⟩ := overlaps
  have owned := (tracks.mem_owned_iff current.binding.region current.binding.bank).mpr
    ⟨earlier, member, ⟨region, bank⟩, claims⟩
  obtain ⟨inSpans, isOwned⟩ := List.mem_filter.mp owned
  rw [Span.holder?_eq_none_iff.mp free other inSpans meets] at isOwned
  cases isOwned

theorem pairwise_append_singleton (tracks : Tracks occupancy claimed)
    (apart : ∀ earlier ∈ claimed, ¬earlier.Overlaps current) :
    (claimed ++ [current]).Pairwise fun earlier later => ¬earlier.Overlaps later := by
  rw [List.pairwise_append]
  refine ⟨tracks.apart, List.pairwise_singleton _ _, ?_⟩
  intro earlier member later isCurrent
  rw [List.mem_singleton.mp isCurrent]
  exact apart earlier member

theorem reachable_append_singleton (tracks : Tracks occupancy claimed)
    (reachable : Reachable current) :
    ∀ member ∈ claimed ++ [current], Reachable member := by
  intro member inList
  rcases List.mem_append.mp inList with inClaimed | isCurrent
  · exact tracks.reachable member inClaimed
  · rw [List.mem_singleton.mp isCurrent]
    exact reachable

/-- A section without bytes changes nothing. -/
theorem skip (tracks : Tracks occupancy claimed) (reachable : Reachable current)
    (empty : current.span? = none) : Tracks occupancy (claimed ++ [current]) := by
  refine ⟨tracks.reachable_append_singleton reachable, tracks.partition, ?_, ?_⟩
  · intro region bank
    simpa [claimedSpans, empty] using tracks.owned region bank
  · apply tracks.pairwise_append_singleton
    intro earlier member overlaps
    obtain ⟨-, -, byte, -, inCurrent⟩ := overlaps
    obtain ⟨span, claimed⟩ := Section.span?_of_mem_bytes inCurrent
    rw [empty] at claimed
    cases claimed

theorem claim (tracks : Tracks occupancy claimed) (reachable : Reachable current)
    (wanted : current.span? = some span)
    (free : Span.holder? (occupancy current.binding.region current.binding.bank)
      span.first span.last = none) :
    Tracks (occupancy.update current.binding.region current.binding.bank
      (Span.occupy span.first span.last current.binding.name
        (occupancy current.binding.region current.binding.bank))) (claimed ++ [current]) := by
  obtain ⟨size, claims⟩ := reachable.claims wanted
  have partition := tracks.partition _ _ reachable.sound.hasBank
  obtain ⟨changed, perm⟩ := partition.occupy current.binding.name claims.first_le_last
    claims.low_le_first claims.last_le_high free
  have same : (⟨span.first, span.last, some current.binding.name⟩ : Span) = span := by
    rw [← claims.owner]
  rw [same] at perm
  refine ⟨tracks.reachable_append_singleton reachable, ?_, ?_, ?_⟩
  · intro region bank hasBank
    unfold update
    split
    · rename_i here
      obtain ⟨rfl, rfl⟩ := here
      exact changed
    · exact tracks.partition region bank hasBank
  · intro region bank
    unfold update
    split
    · rename_i here
      obtain ⟨rfl, rfl⟩ := here
      have grown : claimedSpans current.binding.region current.binding.bank (claimed ++ [current]) =
          claimedSpans current.binding.region current.binding.bank claimed ++ [span] := by
        simp [claimedSpans, wanted]
      rw [grown]
      exact (perm.trans ((tracks.owned _ _).cons span)).trans
        (List.perm_append_singleton span _).symm
    · rename_i elsewhere
      have unchanged : claimedSpans region bank (claimed ++ [current]) =
          claimedSpans region bank claimed := by
        have other : ¬(current.binding.region = region ∧ current.binding.bank = bank) :=
          fun ⟨sameRegion, sameBank⟩ => elsewhere ⟨sameRegion.symm, sameBank.symm⟩
        simp [claimedSpans, other]
      rw [unchanged]
      exact tracks.owned region bank
  · exact tracks.pairwise_append_singleton (tracks.apart_of_free reachable wanted free)

/-- One claim: either the section shares no byte with an earlier one, or the
lowest of those that it meets is reported. -/
theorem claimSection (tracks : Tracks occupancy claimed) (reachable : Reachable current) :
    (∃ changed, occupancy.claimSection current = (.ok (), changed) ∧
      Tracks changed (claimed ++ [current])) ∨
    ∃ span other, current.span? = some span ∧ Lowest claimed current other ∧
      occupancy.claimSection current =
        (.error (conflictOf current span other.binding.name), occupancy) := by
  cases wanted : current.span? with
  | none =>
      exact .inl ⟨occupancy, claimSection_of_none occupancy wanted, tracks.skip reachable wanted⟩
  | some span =>
      rw [claimSection_of_some occupancy wanted]
      cases held : Span.holder? (occupancy current.binding.region current.binding.bank)
          span.first span.last with
      | none => exact .inl ⟨_, rfl, tracks.claim reachable wanted held⟩
      | some name =>
          obtain ⟨other, lowest, rfl⟩ := tracks.lowest_of_held reachable wanted held
          exact .inr ⟨span, other, rfl, lowest, rfl⟩

/-- All claims: either no two sections share a byte, or the check stops at the
first section that meets an earlier one. -/
theorem claimSections (tracks : Tracks occupancy claimed) (rest : List Section)
    (reachable : ∀ current ∈ rest, Reachable current) :
    (∃ changed, occupancy.claimSections rest = (.ok (), changed) ∧
      Tracks changed (claimed ++ rest)) ∨
    ∃ passed current behind span other,
      rest = passed ++ current :: behind ∧
        (claimed ++ passed).Pairwise (fun earlier later => ¬earlier.Overlaps later) ∧
        current.span? = some span ∧ Lowest (claimed ++ passed) current other ∧
        (occupancy.claimSections rest).1 =
          .error (conflictOf current span other.binding.name) := by
  -- The sections already passed move into `claimed`, so the invariant speaks of all of them.
  induction rest generalizing occupancy claimed with
  | nil => exact .inl ⟨occupancy, rfl, by simpa using tracks⟩
  | cons current rest inductionHypothesis =>
      rcases tracks.claimSection (reachable current List.mem_cons_self) with
        ⟨changed, claims, tracksChanged⟩ | ⟨span, other, wanted, lowest, fails⟩
      · have step : occupancy.claimSections (current :: rest) = changed.claimSections rest := by
          rw [Occupancy.claimSections, claims]
        rw [step]
        rcases inductionHypothesis tracksChanged
            (fun member inRest => reachable member (List.mem_cons_of_mem current inRest)) with
          ⟨final, runs, tracksFinal⟩ |
          ⟨passed, next, behind, span, other, rfl, apart, wanted, lowest, fails⟩
        · exact .inl ⟨final, runs, by simpa using tracksFinal⟩
        · refine .inr ⟨current :: passed, next, behind, span, other, rfl, ?_, wanted, ?_, fails⟩
          · simpa using apart
          · simpa using lowest
      · refine .inr ⟨[], current, rest, span, other, rfl, by simpa using tracks.apart, wanted,
          by simpa using lowest, ?_⟩
        rw [Occupancy.claimSections, fails]

end Tracks

end Occupancy

/-- Positions of two sections in a list that share a byte of one bank. -/
def Collision (sections : List Section) (earlier later : Nat) : Prop :=
  earlier < later ∧ ∃ left right,
    sections[earlier]? = some left ∧ sections[later]? = some right ∧ left.Overlaps right

/-- The collision that stops the check: the first section that meets one in front of
it, and of those that it meets the one with the lowest origin. -/
structure FirstCollision (sections : List Section) (earlier later : Nat) : Prop where
  collision : Collision sections earlier later
  first : ∀ before behind, Collision sections before behind → later ≤ behind
  lowest : ∀ position, Collision sections position later → position ≠ earlier →
    ∀ other another, sections[earlier]? = some other → sections[position]? = some another →
      other.binding.origin < another.binding.origin

theorem pairwise_iff_not_collision {sections : List Section} :
    sections.Pairwise (fun earlier later => ¬earlier.Overlaps later) ↔
      ∀ earlier later, ¬Collision sections earlier later := by
  rw [List.pairwise_iff_getElem]
  constructor
  · rintro apart earlier later ⟨inOrder, left, right, leftFound, rightFound, overlaps⟩
    obtain ⟨leftInside, rfl⟩ := List.getElem?_eq_some_iff.mp leftFound
    obtain ⟨rightInside, rfl⟩ := List.getElem?_eq_some_iff.mp rightFound
    exact apart earlier later leftInside rightInside inOrder overlaps
  · intro apart earlier later leftInside rightInside inOrder overlaps
    exact apart earlier later ⟨inOrder, _, _, List.getElem?_eq_getElem leftInside,
      List.getElem?_eq_getElem rightInside, overlaps⟩

theorem Section.origin_mem_bytes {current : Section} {byte : Nat} (member : byte ∈ current.bytes) :
    current.binding.origin.toNat ∈ current.bytes := by
  unfold Section.bytes at member ⊢
  cases recorded : current.size with
  | none => simp [recorded] at member
  | some size =>
      simp only [recorded, Set.mem_Ico] at member ⊢
      omega

/-- Two sections that both meet a third one, from the same origin on, meet each other. -/
theorem Section.Overlaps.of_origin_eq {left right current : Section}
    (leftOverlaps : left.Overlaps current) (rightOverlaps : right.Overlaps current)
    (same : left.binding.origin = right.binding.origin) : left.Overlaps right := by
  obtain ⟨leftRegion, leftBank, leftByte, inLeft, -⟩ := leftOverlaps
  obtain ⟨rightRegion, rightBank, rightByte, inRight, -⟩ := rightOverlaps
  refine ⟨leftRegion.trans rightRegion.symm, leftBank.trans rightBank.symm,
    left.binding.origin.toNat, Section.origin_mem_bytes inLeft, ?_⟩
  rw [same]
  exact Section.origin_mem_bytes inRight

theorem Collision.of_overlaps {sections : List Section} {left right : Nat} {first second : Section}
    (different : left ≠ right) (leftFound : sections[left]? = some first)
    (rightFound : sections[right]? = some second) (overlaps : first.Overlaps second) :
    ∃ earlier later, Collision sections earlier later := by
  rcases Nat.lt_or_gt_of_ne different with before | behind
  · exact ⟨left, right, before, first, second, leftFound, rightFound, overlaps⟩
  · exact ⟨right, left, behind, second, first, rightFound, leftFound, overlaps.symm⟩

theorem firstCollision_of_lowest {passed behind : List Section} {current other : Section}
    (apart : passed.Pairwise fun earlier later => ¬earlier.Overlaps later)
    (lowest : Occupancy.Lowest passed current other) :
    ∃ earlier, passed[earlier]? = some other ∧
      FirstCollision (passed ++ current :: behind) earlier passed.length := by
  obtain ⟨member, overlaps, least⟩ := lowest
  have noCollision := pairwise_iff_not_collision.mp apart
  obtain ⟨earlier, found⟩ := List.mem_iff_getElem?.mp member
  have inFront : ∀ {position : Nat}, position < passed.length →
      (passed ++ current :: behind)[position]? = passed[position]? :=
    List.getElem?_append_left
  have here : (passed ++ current :: behind)[passed.length]? = some current := by simp
  have earlierInside : earlier < passed.length := (List.getElem?_eq_some_iff.mp found).1
  have foundAgain := (inFront earlierInside).trans found
  refine ⟨earlier, found, ⟨earlierInside, other, current, foundAgain, here, overlaps⟩, ?_, ?_⟩
  · rintro before later ⟨inOrder, left, right, leftFound, rightFound, meets⟩
    by_contra inside
    rw [inFront (by omega)] at leftFound rightFound
    exact noCollision before later ⟨inOrder, left, right, leftFound, rightFound, meets⟩
  · rintro position ⟨inside, left, right, leftFound, rightFound, meets⟩ different
      other' another otherFound anotherFound
    rw [here] at rightFound
    rw [foundAgain] at otherFound
    rw [leftFound] at anotherFound
    cases rightFound
    cases otherFound
    cases anotherFound
    rw [inFront inside] at leftFound
    have atMost := least left (List.mem_of_getElem? leftFound) meets
    apply UInt64.lt_of_le_of_ne atMost
    intro same
    obtain ⟨first, second, collision⟩ := Collision.of_overlaps different.symm found leftFound
      (overlaps.of_origin_eq meets same)
    exact noCollision first second collision

theorem checkOverlaps_cases {sections : List Section}
    (reachable : ∀ current ∈ sections, Reachable current) :
    (checkOverlaps sections = .ok () ∧ ∀ earlier later, ¬Collision sections earlier later) ∨
    ∃ earlier later other current span,
      sections[earlier]? = some other ∧ sections[later]? = some current ∧
        FirstCollision sections earlier later ∧ current.span? = some span ∧
        checkOverlaps sections =
          .error (Occupancy.conflictOf current span other.binding.name) := by
  rcases Occupancy.tracks_free.claimSections sections reachable with
    ⟨changed, runs, tracks⟩ |
    ⟨passed, current, behind, span, other, rfl, apart, wanted, lowest, fails⟩
  · refine .inl ⟨by rw [checkOverlaps, runs], ?_⟩
    exact pairwise_iff_not_collision.mp tracks.apart
  · obtain ⟨earlier, found, collision⟩ := firstCollision_of_lowest apart lowest
    have inside := (List.getElem?_eq_some_iff.mp found).1
    refine .inr ⟨earlier, passed.length, other, current, span, ?_, by simp, collision, wanted, ?_⟩
    · rw [List.getElem?_append_left (by simpa using inside)]
      exact found
    · rw [checkOverlaps, fails]

theorem checkOverlaps_ok_iff {sections : List Section}
    (reachable : ∀ current ∈ sections, Reachable current) :
    checkOverlaps sections = .ok () ↔
      sections.Pairwise fun earlier later => ¬earlier.Overlaps later := by
  rw [pairwise_iff_not_collision]
  rcases checkOverlaps_cases reachable with
    ⟨succeeds, apart⟩ | ⟨earlier, later, other, current, span, -, -, collision, -, fails⟩
  · exact ⟨fun _ => apart, fun _ => succeeds⟩
  · rw [fails]
    constructor
    · intro succeeds
      cases succeeds
    · intro apart
      exact absurd collision.collision (apart earlier later)

/-- The check accepts a list exactly if no two of its sections collide, whatever
their order, and otherwise it reports the first collision. -/
theorem checkOverlaps_exact {sections : List Section}
    (reachable : ∀ current ∈ sections, Reachable current) :
    (checkOverlaps sections = .ok () ↔ ∀ earlier later, ¬Collision sections earlier later) ∧
    (∀ error, checkOverlaps sections = .error error →
      ∃ earlier later, FirstCollision sections earlier later ∧
        ∃ other current size last,
          sections[earlier]? = some other ∧ sections[later]? = some current ∧
          current.size = some size ∧
          last.toNat + 1 = current.binding.origin.toNat + size.toNat ∧
          error = .sectionOverlap
            { name := current.binding.name, other := other.binding.name,
              region := current.binding.region, bank := current.binding.bank,
              first := current.binding.origin, last }) ∧
    ∀ permuted : List Section, permuted.Perm sections →
      (checkOverlaps permuted = .ok () ↔ checkOverlaps sections = .ok ()) := by
  refine ⟨?_, ?_, ?_⟩
  · rw [checkOverlaps_ok_iff reachable, pairwise_iff_not_collision]
  · intro error failed
    rcases checkOverlaps_cases reachable with
      ⟨succeeds, -⟩ |
      ⟨earlier, later, other, current, span, otherFound, found, collision, wanted, fails⟩
    · rw [succeeds] at failed
      cases failed
    · obtain ⟨size, claims⟩ := (reachable current (List.mem_of_getElem? found)).claims wanted
      rw [fails] at failed
      cases failed
      refine ⟨earlier, later, collision, other, current, size, span.last, otherFound, found,
        claims.recorded, claims.last, ?_⟩
      rw [Occupancy.conflictOf, claims.first]
  · intro permuted perm
    have permutedReachable : ∀ current ∈ permuted, Reachable current :=
      fun current member => reachable current (perm.mem_iff.mp member)
    rw [checkOverlaps_ok_iff permutedReachable, checkOverlaps_ok_iff reachable]
    exact perm.pairwise_iff fun apart overlaps => apart overlaps.symm

/-- Sixteen bytes of bank 2 of ROMX. -/
def Section.blockAt (name : String) (offset : UInt64) : Section :=
  (Edit.performAll
    (Binding.emptySection
      { file := "main.gbc", name, index := 0, region := .romx, bank := 2,
        declared := some offset })
    [.append (.data (.reserve 0x10)) 1, .resolve]).2

/-- The last block meets two that stand in front of it, the lower one of them second. -/
def Section.blocks : List Section :=
  [blockAt "High" 0x8018, blockAt "Low" 0x8000, staleRomx, blockAt "Middle" 0x800C]

theorem Reachable.blockAt {name : String} {offset : UInt64} (atLeast : 0x8000 ≤ offset)
    (atMost : offset ≤ 0xC000) : Reachable (Section.blockAt name offset) := by
  apply Reachable.performAll
  apply @Reachable.bound ⟨"main.gbc", name, 0, "ROMX", some 2, some offset⟩
  have found : Region.ofName? "ROMX" = some .romx := rfl
  have bank : Declaration.bankIn .romx (some 2) = .ok 2 := rfl
  have window : Region.romx.window 2 = ⟨0x8000, 0xC000⟩ := rfl
  simp only [Declaration.bind, Declaration.binding, found, bank, window, atLeast, atMost, and_self,
    if_true]
  rfl

theorem checkOverlaps_exact_blocks :
    (∀ current ∈ Section.blocks, Reachable current) ∧
      (∃ earlier later, FirstCollision Section.blocks earlier later) ∧
      checkOverlaps Section.blocks.reverse ≠ .ok () := by
  have reachable : ∀ current ∈ Section.blocks, Reachable current := by
    simp only [Section.blocks, List.forall_mem_cons]
    exact ⟨.blockAt (by decide) (by decide), .blockAt (by decide) (by decide),
      Section.reachable_staleRomx, .blockAt (by decide) (by decide), by simp⟩
  obtain ⟨-, reports, anyOrder⟩ := checkOverlaps_exact reachable
  refine ⟨reachable, ?_, ?_⟩
  · obtain ⟨earlier, later, collision, -⟩ := reports (.sectionOverlap
      { name := "Middle", other := "Low", region := .romx, bank := 2,
        first := 0x800C, last := 0x801B }) rfl
    exact ⟨earlier, later, collision⟩
  · rw [Ne, anyOrder _ Section.blocks.reverse_perm]
    intro succeeds
    cases succeeds

end RomLayout
