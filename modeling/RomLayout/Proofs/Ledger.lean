import RomLayout.Proofs.Entries
import RomLayout.Proofs.Overlap

set_option autoImplicit false

/-!
The spans of one bank after any claims, granted and refused ones in any order.

`Partition` is what every claim keeps. Said in full it is a tiling of the window: sorted, without
a gap, and free spans never side by side. The last part is what a claim relies on. It gives up
silently if no span contains its range; this never happens, because a range without an owner
stands in one free span.
-/

namespace RomLayout

namespace Span

/-- Spans in the order of their addresses that fill a window, both bounds counted in. -/
structure Tiling (low high : UInt64) (spans : List Span) : Prop where
  sorted : spans.Pairwise fun front back => front.last < back.first
  ordered : ∀ span ∈ spans, span.first ≤ span.last
  adjacent : spans.IsChain fun left right => right.first.toNat = left.last.toNat + 1
  fills : ∀ address : UInt64,
    (∃ span ∈ spans, span.first ≤ address ∧ address ≤ span.last) ↔ low ≤ address ∧ address ≤ high
  separated : spans.IsChain fun left right => ¬(left.owner = none ∧ right.owner = none)

section Covers

variable {start stop : Nat} {spans : List Span}

theorem Covers.start_le_stop (covers : Covers start stop spans) : start ≤ stop := by
  induction spans generalizing start with
  | nil => exact Nat.le_of_eq covers
  | cons head rest inductionHypothesis =>
      obtain ⟨begins, ordered, behind⟩ := covers
      have orderedNat : head.first.toNat ≤ head.last.toNat := ordered
      have atMost := inductionHypothesis behind
      omega

theorem Covers.first_le_last (covers : Covers start stop spans) :
    ∀ span ∈ spans, span.first ≤ span.last := by
  induction spans generalizing start with
  | nil => simp
  | cons head rest inductionHypothesis =>
      obtain ⟨-, ordered, behind⟩ := covers
      exact List.forall_mem_cons.mpr ⟨ordered, inductionHypothesis behind⟩

theorem Covers.pairwise_last_lt_first (covers : Covers start stop spans) :
    spans.Pairwise fun front back => front.last < back.first := by
  induction spans generalizing start with
  | nil => exact .nil
  | cons head rest inductionHypothesis =>
      obtain ⟨-, -, behind⟩ := covers
      refine .cons ?_ (inductionHypothesis behind)
      intro span member
      exact behind.start_le_first member

theorem Covers.isChain_adjacent (covers : Covers start stop spans) :
    spans.IsChain fun left right => right.first.toNat = left.last.toNat + 1 := by
  induction spans generalizing start with
  | nil => exact .nil
  | cons head rest inductionHypothesis =>
      obtain ⟨-, -, behind⟩ := covers
      have chain := inductionHypothesis behind
      cases rest with
      | nil => exact .singleton head
      | cons next others => exact .cons_cons behind.1 chain

theorem Covers.exists_mem_iff (covers : Covers start stop spans) (byte : Nat) :
    (∃ span ∈ spans, span.first.toNat ≤ byte ∧ byte ≤ span.last.toNat) ↔
      start ≤ byte ∧ byte < stop := by
  induction spans generalizing start with
  | nil =>
      obtain rfl : start = stop := covers
      simp
  | cons head rest inductionHypothesis =>
      obtain ⟨begins, ordered, behind⟩ := covers
      have orderedNat : head.first.toNat ≤ head.last.toNat := ordered
      have atMost := behind.start_le_stop
      rw [List.exists_mem_cons_iff, inductionHypothesis behind]
      omega

end Covers

theorem Partition.tiling {low high : UInt64} {spans : List Span}
    (partition : Partition low high spans) : Tiling low high spans := by
  refine ⟨partition.covers.pairwise_last_lt_first, partition.covers.first_le_last,
    partition.covers.isChain_adjacent, ?_, ?_⟩
  · intro address
    have filled := partition.covers.exists_mem_iff address.toNat
    rw [Nat.lt_succ_iff] at filled
    simpa only [UInt64.le_iff_toNat_le] using filled
  · exact partition.separated.imp fun _ _ apart bothFree => apart bothFree.1 bothFree.2

theorem partition_free {low high : UInt64} (ordered : low ≤ high) :
    Partition low high [⟨low, high, none⟩] :=
  ⟨⟨rfl, ordered, rfl⟩, .singleton _⟩

end Span

namespace Section

/-- The range that a section claims, in exact numbers. -/
def Wants (current : Section) (range : Span) : Prop := ∃ size, current.Claims range size

/-- The recorded ranges of two sections share a byte. -/
def Meets (left right : Section) : Prop := ∃ byte, byte ∈ left.bytes ∧ byte ∈ right.bytes

/-- A claim on bytes of the bank that `binding` is bound to, both bounds of it counted in. -/
structure ClaimsWithin (current : Section) (binding : Binding) (size : UInt64) : Prop where
  region : current.binding.region = binding.region
  bank : current.binding.bank = binding.bank
  recorded : current.size = some size
  positive : 0 < size
  low_le_first : binding.low ≤ current.binding.origin
  last_le_high : current.binding.origin.toNat + size.toNat - 1 ≤ binding.high.toNat

/-- The range of a section cut out of one span that nobody owned. -/
def CutFrom (current : Section) (before after : List Span) : Prop :=
  ∃ front span back range,
    before = front ++ span :: back ∧ span.owner = none ∧ current.Wants range ∧
      span.contains range.first range.last = true ∧
      after = front ++ (span.split range.first range.last current.binding.name ++ back)

variable {current : Section} {binding : Binding} {size : UInt64}

theorem ClaimsWithin.low_high_eq (within : current.ClaimsWithin binding size) :
    current.binding.low = binding.low ∧ current.binding.high = binding.high := by
  have window : current.binding.window = binding.window := by
    rw [Binding.window, Binding.window, within.region, within.bank]
  exact ⟨congrArg Window.low window, congrArg Window.high window⟩

theorem ClaimsWithin.exists_span (within : current.ClaimsWithin binding size) :
    ∃ range, current.span? = some range ∧ current.Claims range size := by
  obtain ⟨low, high⟩ := within.low_high_eq
  have positive : 0 < size.toNat := within.positive
  have atMost := within.last_le_high
  apply exists_claims within.recorded within.positive
  · rw [low]
    exact within.low_le_first
  · rw [high]
    omega

end Section

/-- The claims that were granted, in their order, and the spans that they left. -/
structure Ledger where
  granted : List Section
  occupancy : Occupancy

namespace Ledger

variable {ledger : Ledger} {binding : Binding} {current : Section} {size : UInt64}

def spans (ledger : Ledger) (binding : Binding) : List Span :=
  ledger.occupancy binding.region binding.bank

/-- A claim on what earlier claims left, and what it leaves itself. -/
def claim (ledger : Ledger) (current : Section) : Ledger :=
  match ledger.occupancy.claimSection current with
  | (.ok (), occupancy) => ⟨ledger.granted ++ [current], occupancy⟩
  | (.error _, occupancy) => ⟨ledger.granted, occupancy⟩

def claimAll (claimants : List Section) : Ledger := claimants.foldl claim ⟨[], .free⟩

/-- The named spans are the ranges of the claims granted, one each. -/
def Owns (ledger : Ledger) (binding : Binding) : Prop :=
  ∃ ranges, ledger.granted.Forall₂ Section.Wants ranges ∧
    (Span.owned (ledger.spans binding)).Perm ranges

/-- What a claim keeps, granted or refused. -/
structure Exact (ledger : Ledger) (binding : Binding) : Prop where
  partition : Span.Partition binding.low binding.high (ledger.spans binding)
  owns : ledger.Owns binding

/-- A claim that meets no earlier one; its range is cut out of a free span, never dropped. -/
structure Grants (ledger : Ledger) (binding : Binding) (current : Section)
    (occupancy : Occupancy) : Prop where
  answers : ledger.occupancy.claimSection current = (.ok (), occupancy)
  apart : ∀ earlier ∈ ledger.granted, ¬earlier.Meets current
  cut : current.CutFrom (ledger.spans binding) (occupancy binding.region binding.bank)
  changes : ledger.claim current = ⟨ledger.granted ++ [current], occupancy⟩

/-- A claim that meets an earlier one; it leaves everything as it was. -/
structure Refuses (ledger : Ledger) (current : Section) (error : Error) : Prop where
  answers : ledger.occupancy.claimSection current = (.error error, ledger.occupancy)
  meets : ∃ earlier ∈ ledger.granted, earlier.Meets current
  keeps : ledger.claim current = ledger

namespace Owns

theorem exists_section (owns : ledger.Owns binding) {span : Span}
    (member : span ∈ Span.owned (ledger.spans binding)) :
    ∃ earlier ∈ ledger.granted, earlier.Wants span := by
  obtain ⟨ranges, wanted, same⟩ := owns
  exact exists_mem_of_forall₂ wanted (same.mem_iff.mp member)

theorem exists_span (owns : ledger.Owns binding) {earlier : Section}
    (member : earlier ∈ ledger.granted) :
    ∃ span ∈ Span.owned (ledger.spans binding), earlier.Wants span := by
  obtain ⟨ranges, wanted, same⟩ := owns
  obtain ⟨span, inRanges, wants⟩ := exists_mem_of_forall₂ wanted.flip member
  exact ⟨span, same.mem_iff.mpr inRanges, wants⟩

end Owns

theorem exact_empty (sound : binding.Sound) : Exact ⟨[], .free⟩ binding :=
  ⟨Span.partition_free (UInt64.le_trans sound.low_le_origin sound.origin_le_high), [], .nil, .nil⟩

theorem claimSection_eq (ledger : Ledger) (within : current.ClaimsWithin binding size)
    {range : Span} (wanted : current.span? = some range) :
    ledger.occupancy.claimSection current =
      match Span.holder? (ledger.spans binding) range.first range.last with
      | some other => (.error (Occupancy.conflictOf current range other), ledger.occupancy)
      | none =>
          (.ok (), ledger.occupancy.update binding.region binding.bank
            (Span.occupy range.first range.last current.binding.name (ledger.spans binding))) := by
  rw [Occupancy.claimSection_of_some _ wanted, within.region, within.bank]
  rfl

namespace Exact

variable {range : Span}

theorem refuses (exact : ledger.Exact binding) (within : current.ClaimsWithin binding size)
    (wanted : current.span? = some range) (claims : current.Claims range size) {other : String}
    (held : Span.holder? (ledger.spans binding) range.first range.last = some other) :
    ledger.Refuses current (Occupancy.conflictOf current range other) := by
  have answers := ledger.claimSection_eq within wanted
  rw [held] at answers
  obtain ⟨span, owned, -, overlaps, -⟩ := Span.holder?_eq_some exact.partition held
  obtain ⟨earlier, member, earlierSize, earlierClaims⟩ := exact.owns.exists_section owned
  have meets : earlier.Meets current := (earlierClaims.exists_mem_bytes_iff claims).mpr overlaps
  exact ⟨answers, ⟨earlier, member, meets⟩, by rw [claim, answers]⟩

theorem not_meets_of_free (exact : ledger.Exact binding) (claims : current.Claims range size)
    (free : Span.holder? (ledger.spans binding) range.first range.last = none) :
    ∀ earlier ∈ ledger.granted, ¬earlier.Meets current := by
  intro earlier member meets
  obtain ⟨span, owned, earlierSize, earlierClaims⟩ := exact.owns.exists_span member
  obtain ⟨inSpans, isOwned⟩ := List.mem_filter.mp owned
  have overlaps := (earlierClaims.exists_mem_bytes_iff claims).mp meets
  rw [Span.holder?_eq_none_iff.mp free span inSpans overlaps] at isOwned
  cases isOwned

theorem grants (exact : ledger.Exact binding) (within : current.ClaimsWithin binding size)
    (wanted : current.span? = some range) (claims : current.Claims range size)
    (free : Span.holder? (ledger.spans binding) range.first range.last = none) :
    ∃ occupancy, ledger.Grants binding current occupancy ∧
      Exact ⟨ledger.granted ++ [current], occupancy⟩ binding := by
  have answers := ledger.claimSection_eq within wanted
  rw [free] at answers
  obtain ⟨low, high⟩ := within.low_high_eq
  have atLeast : binding.low ≤ range.first := low ▸ claims.low_le_first
  have atMost : range.last ≤ binding.high := high ▸ claims.last_le_high
  have ordered := claims.first_le_last
  have spansAfter : Ledger.spans ⟨ledger.granted ++ [current],
      ledger.occupancy.update binding.region binding.bank
        (Span.occupy range.first range.last current.binding.name (ledger.spans binding))⟩ binding =
      Span.occupy range.first range.last current.binding.name (ledger.spans binding) := by
    simp [spans, Occupancy.update]
  obtain ⟨partition, perm⟩ :=
    exact.partition.occupy current.binding.name ordered atLeast atMost free
  refine ⟨_, ⟨answers, exact.not_meets_of_free claims free, ?_, by rw [claim, answers]⟩, ?_, ?_⟩
  · obtain ⟨front, span, back, before, spanFree, contains, after⟩ :=
      exact.partition.exists_cut current.binding.name ordered atLeast atMost free
    refine ⟨front, span, back, range, before, spanFree, ⟨size, claims⟩, contains, ?_⟩
    exact spansAfter.trans after
  · rw [spansAfter]
    exact partition
  · obtain ⟨ranges, wants, same⟩ := exact.owns
    refine ⟨ranges ++ [range], List.rel_append wants (.cons ⟨size, claims⟩ .nil), ?_⟩
    rw [spansAfter]
    have named : (⟨range.first, range.last, some current.binding.name⟩ : Span) = range := by
      rw [← claims.owner]
    rw [named] at perm
    exact (perm.trans (same.cons range)).trans (List.perm_append_singleton range ranges).symm

theorem claim (exact : ledger.Exact binding) (within : current.ClaimsWithin binding size) :
    (∃ occupancy, ledger.Grants binding current occupancy ∧
      Exact ⟨ledger.granted ++ [current], occupancy⟩ binding) ∨
    ∃ error, ledger.Refuses current error := by
  obtain ⟨range, wanted, claims⟩ := within.exists_span
  cases held : Span.holder? (ledger.spans binding) range.first range.last with
  | none => exact .inl (exact.grants within wanted claims held)
  | some other => exact .inr ⟨_, exact.refuses within wanted claims held⟩

theorem foldl_claim (exact : ledger.Exact binding) (claimants : List Section)
    (inside : ∀ current ∈ claimants, ∃ size, current.ClaimsWithin binding size) :
    (claimants.foldl Ledger.claim ledger).Exact binding := by
  induction claimants generalizing ledger with
  | nil => exact exact
  | cons current rest inductionHypothesis =>
      obtain ⟨⟨size, within⟩, insideRest⟩ := List.forall_mem_cons.mp inside
      rw [List.foldl_cons]
      rcases exact.claim within with ⟨occupancy, grants, changed⟩ | ⟨error, refuses⟩
      · rw [grants.changes]
        exact inductionHypothesis changed insideRest
      · rw [refuses.keeps]
        exact inductionHypothesis exact insideRest

end Exact

/-- Whatever was claimed in a bank before, a claim on bytes of it is refused exactly if it meets a
granted one, and the spans show all of those that were granted. -/
theorem claimAll_exact {declaration : Declaration} {bound : Section}
    (accepted : declaration.bind = .ok bound) {claimants : List Section}
    (inside : ∀ current ∈ claimants, ∃ size, current.ClaimsWithin bound.binding size) :
    let ledger := claimAll claimants
    Span.Tiling bound.binding.low bound.binding.high (ledger.spans bound.binding) ∧
      ledger.Owns bound.binding ∧
      ∀ current size, current.ClaimsWithin bound.binding size →
        (∃ occupancy, ledger.Grants bound.binding current occupancy) ∨
          ∃ error, ledger.Refuses current error := by
  obtain ⟨binding, found, rfl⟩ := Declaration.bind_ok accepted
  have sound := Declaration.binding_sound found
  have exact : (claimAll claimants).Exact binding :=
    (exact_empty sound).foldl_claim claimants inside
  refine ⟨exact.partition.tiling, exact.owns, ?_⟩
  intro current size within
  exact (exact.claim within).imp_left fun ⟨occupancy, grants, _⟩ => ⟨occupancy, grants⟩

def claimAt (name : String) (offset size : UInt64) : Section :=
  { Binding.emptySection
      { file := "main.gbc", name, index := 0, region := .romx, bank := 2,
        declared := some offset } with
    size := some size }

/-- The second claim meets the first one; the last one takes the highest byte of the bank. -/
def rivals : List Section :=
  [claimAt "Table" 0x8010 0x10, claimAt "Rival" 0x801F 1, claimAt "Tail" 0xC000 1]

theorem claimAll_exact_rivals :
    (∀ current ∈ rivals, ∃ size, current.ClaimsWithin Section.emptyRomx.binding size) ∧
      (claimAll rivals).Owns Section.emptyRomx.binding ∧
      (claimAll rivals).granted = [claimAt "Table" 0x8010 0x10, claimAt "Tail" 0xC000 1] ∧
      (claimAll rivals).spans Section.emptyRomx.binding =
        [⟨0x8000, 0x800F, none⟩, ⟨0x8010, 0x801F, some "Table"⟩, ⟨0x8020, 0xBFFF, none⟩,
          ⟨0xC000, 0xC000, some "Tail"⟩] := by
  have accepted : Declaration.bind ⟨"main.gbc", "Main", 0, "ROMX", some 2, none⟩ =
      .ok Section.emptyRomx := rfl
  have inside : ∀ current ∈ rivals,
      ∃ size, current.ClaimsWithin Section.emptyRomx.binding size := by
    simp only [rivals, List.forall_mem_cons]
    refine ⟨⟨0x10, ?_⟩, ⟨1, ?_⟩, ⟨1, ?_⟩, by simp⟩
    all_goals exact ⟨rfl, rfl, rfl, by decide, by decide, by decide⟩
  exact ⟨inside, (claimAll_exact accepted inside).2.1, by decide, by decide⟩

end Ledger

end RomLayout
