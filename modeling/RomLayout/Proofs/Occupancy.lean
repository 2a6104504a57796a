import Mathlib.Data.List.Chain
import RomLayout.Occupancy

set_option autoImplicit false

/-!
The span list of one bank.

A claim looks for one free span that contains its range, and gives up silently if there
is none. That there always is one rests on `Partition`: the spans follow one another
without a gap, and no two free ones are neighbours, so a range without an owner
cannot reach from one free span into the next.
-/

namespace RomLayout

namespace Span

/-- Spans that follow one another without a gap, from `start` up to but without
`stop`. -/
def Covers : Nat → Nat → List Span → Prop
  | start, stop, [] => start = stop
  | start, stop, span :: rest =>
      span.first.toNat = start ∧ span.first ≤ span.last ∧ Covers (span.last.toNat + 1) stop rest

def Separated (left right : Span) : Prop := left.owner = none → right.owner ≠ none

/-- What every claim keeps of the spans of a window, both bounds counted in. -/
structure Partition (low high : UInt64) (spans : List Span) : Prop where
  covers : Covers low.toNat (high.toNat + 1) spans
  separated : spans.IsChain Separated

/-- The spans that somebody has claimed. -/
def owned (spans : List Span) : List Span := spans.filter (·.owner.isSome)

section Ranges

variable {span : Span} {first last : UInt64}

theorem overlaps_iff :
    span.overlaps first last = true ↔
      first.toNat ≤ span.last.toNat ∧ span.first.toNat ≤ last.toNat := by
  simp [overlaps, UInt64.le_iff_toNat_le]

theorem contains_iff :
    span.contains first last = true ↔
      span.first.toNat ≤ first.toNat ∧ last.toNat ≤ span.last.toNat := by
  simp [contains, UInt64.le_iff_toNat_le]

theorem toNat_pred {low : UInt64} (above : low < first) : (first - 1).toNat = first.toNat - 1 := by
  have aboveNat : low.toNat < first.toNat := above
  have positive : (1 : UInt64) ≤ first := by
    rw [UInt64.le_iff_toNat_le]
    change 1 ≤ first.toNat
    omega
  exact UInt64.toNat_sub_of_le _ _ positive

theorem toNat_succ {high : UInt64} (below : last < high) : (last + 1).toNat = last.toNat + 1 := by
  have belowNat : last.toNat < high.toNat := below
  have bound := UInt64.toNat_lt high
  rw [UInt64.toNat_add]
  exact Nat.mod_eq_of_lt (by change last.toNat + 1 < 2 ^ 64; omega)

/-- The sum may reach the highest address plus one and wrap to zero: the last address is still
exact. -/
theorem toNat_last {size : UInt64} (positive : 0 < size)
    (fits : first.toNat + size.toNat ≤ UInt64.size) :
    (first + size - 1).toNat + 1 = first.toNat + size.toNat := by
  have positiveNat : 0 < size.toNat := positive
  have regrouped : first + size - 1 = first + (size - 1) := by
    rw [UInt64.sub_eq_add_neg, UInt64.sub_eq_add_neg, UInt64.add_assoc]
  unfold UInt64.size at fits
  rw [regrouped, UInt64.toNat_add, toNat_pred positive, Nat.mod_eq_of_lt (by omega)]
  omega

end Ranges

section Covers

variable {start middle stop : Nat} {spans : List Span}

theorem Covers.append {front back : List Span} (left : Covers start middle front)
    (right : Covers middle stop back) : Covers start stop (front ++ back) := by
  induction front generalizing start with
  | nil =>
      obtain rfl : start = middle := left
      exact right
  | cons span rest inductionHypothesis =>
      obtain ⟨begins, ordered, behind⟩ := left
      exact ⟨begins, ordered, inductionHypothesis behind⟩

theorem Covers.split_append {front back : List Span} (covers : Covers start stop (front ++ back)) :
    ∃ middle, Covers start middle front ∧ Covers middle stop back := by
  induction front generalizing start with
  | nil => exact ⟨start, rfl, covers⟩
  | cons span rest inductionHypothesis =>
      obtain ⟨begins, ordered, behind⟩ := covers
      obtain ⟨middle, left, right⟩ := inductionHypothesis behind
      exact ⟨middle, ⟨begins, ordered, left⟩, right⟩

theorem Covers.start_le_first (covers : Covers start stop spans) {span : Span}
    (member : span ∈ spans) : start ≤ span.first.toNat := by
  induction spans generalizing start with
  | nil => simp at member
  | cons head rest inductionHypothesis =>
      obtain ⟨begins, ordered, behind⟩ := covers
      have orderedNat : head.first.toNat ≤ head.last.toNat := ordered
      rcases List.mem_cons.mp member with rfl | inRest
      · omega
      · have atLeast := inductionHypothesis behind inRest
        omega

/-- Spans further back in the list have higher addresses. -/
theorem Covers.sorted (covers : Covers start stop spans) :
    spans.Pairwise fun front back => front.first.toNat ≤ back.first.toNat := by
  induction spans generalizing start with
  | nil => exact .nil
  | cons head rest inductionHypothesis =>
      obtain ⟨begins, ordered, behind⟩ := covers
      have orderedNat : head.first.toNat ≤ head.last.toNat := ordered
      apply List.Pairwise.cons
      · intro span member
        have atLeast := behind.start_le_first member
        omega
      · exact inductionHypothesis behind

/-- A range that meets free spans only stands in one of them: behind a free span
there is an owner, if anything. -/
theorem Covers.exists_contains (covers : Covers start stop spans)
    (separated : spans.IsChain Separated) {first last : UInt64} (ordered : first ≤ last)
    (atLeast : start ≤ first.toNat) (below : last.toNat < stop)
    (free : ∀ span ∈ spans, span.overlaps first last = true → span.owner = none) :
    ∃ span ∈ spans, span.contains first last = true := by
  have orderedNat : first.toNat ≤ last.toNat := ordered
  induction spans generalizing start with
  | nil =>
      obtain rfl : start = stop := covers
      omega
  | cons head rest inductionHypothesis =>
      obtain ⟨begins, -, behind⟩ := covers
      by_cases later : head.last.toNat < first.toNat
      · obtain ⟨span, member, contains⟩ := inductionHypothesis behind separated.tail later
          fun span member => free span (List.mem_cons_of_mem head member)
        exact ⟨span, List.mem_cons_of_mem head member, contains⟩
      · refine ⟨head, List.mem_cons_self, ?_⟩
        rw [contains_iff]
        refine ⟨by omega, ?_⟩
        by_contra reachesOut
        have headFree : head.owner = none := by
          apply free head List.mem_cons_self
          rw [overlaps_iff]
          omega
        cases rest with
        | nil =>
            obtain rfl : head.last.toNat + 1 = stop := behind
            omega
        | cons next others =>
            have nextOwned : next.owner ≠ none := separated.rel headFree
            apply nextOwned
            apply free next (List.mem_cons_of_mem head List.mem_cons_self)
            obtain ⟨nextBegins, nextOrdered, -⟩ := behind
            have nextOrderedNat : next.first.toNat ≤ next.last.toNat := nextOrdered
            rw [overlaps_iff]
            omega

end Covers

section Split

variable {span : Span} {first last : UInt64} (owner : String)

theorem covers_singleton {start stop : Nat} (begins : span.first.toNat = start)
    (ordered : span.first.toNat ≤ span.last.toNat) (ends : span.last.toNat + 1 = stop) :
    Covers start stop [span] :=
  ⟨begins, ordered, ends⟩

theorem covers_split (contains : span.contains first last = true) (ordered : first ≤ last) :
    Covers span.first.toNat (span.last.toNat + 1) (span.split first last owner) := by
  obtain ⟨atLeast, atMost⟩ := contains_iff.mp contains
  have leading : Covers span.first.toNat first.toNat
      (if span.first < first then [⟨span.first, first - 1, none⟩] else []) := by
    split
    · rename_i below
      have belowNat : span.first.toNat < first.toNat := below
      have before := toNat_pred below
      apply covers_singleton rfl
      · dsimp only
        omega
      · dsimp only
        omega
    · rename_i flush
      have flushNat : ¬span.first.toNat < first.toNat := flush
      change span.first.toNat = first.toNat
      omega
  have trailing : Covers (last.toNat + 1) (span.last.toNat + 1)
      (if last < span.last then [⟨last + 1, span.last, none⟩] else []) := by
    split
    · rename_i below
      have belowNat : last.toNat < span.last.toNat := below
      have behind := toNat_succ below
      refine covers_singleton behind ?_ rfl
      dsimp only
      omega
    · rename_i flush
      have flushNat : ¬last.toNat < span.last.toNat := flush
      change last.toNat + 1 = span.last.toNat + 1
      omega
  exact leading.append ⟨rfl, ordered, trailing⟩

theorem isChain_split : (span.split first last owner).IsChain Separated := by
  unfold split
  split <;> split <;> simp [Separated]

theorem owned_split : owned (span.split first last owner) = [⟨first, last, some owner⟩] := by
  unfold split owned
  split <;> split <;> simp

/-- The parts of a free span keep apart from the neighbours that it had: these have
owners, all of them. -/
theorem isChain_replace {front back : List Span} (free : span.owner = none)
    (separated : (front ++ span :: back).IsChain Separated) :
    (front ++ (span.split first last owner ++ back)).IsChain Separated := by
  obtain ⟨frontChain, spanChain, link⟩ := List.isChain_append.mp separated
  obtain ⟨behind, backChain⟩ := List.isChain_cons.mp spanChain
  apply frontChain.append
  · apply (isChain_split owner).append backChain
    intro part _ next inBack _
    exact behind next inBack free
  · intro previous inFront part _ previousFree
    exact absurd free (link previous inFront span (by simp) previousFree)

theorem occupy_eq {spans : List Span} (found : ∃ span ∈ spans, span.contains first last = true) :
    ∃ front span back,
      spans = front ++ span :: back ∧ span.contains first last = true ∧
        occupy first last owner spans = front ++ (span.split first last owner ++ back) := by
  induction spans with
  | nil => simp at found
  | cons head rest inductionHypothesis =>
      by_cases contains : head.contains first last = true
      · exact ⟨[], head, rest, rfl, contains, by simp [occupy, contains]⟩
      · have inRest : ∃ span ∈ rest, span.contains first last = true := by
          obtain ⟨span, member, spanContains⟩ := found
          rcases List.mem_cons.mp member with rfl | member
          · exact absurd spanContains contains
          · exact ⟨span, member, spanContains⟩
        obtain ⟨front, span, back, rfl, spanContains, occupied⟩ := inductionHypothesis inRest
        exact ⟨head :: front, span, back, rfl, spanContains, by simp [occupy, contains, occupied]⟩

end Split

section Claim

variable {low high first last : UInt64} {spans : List Span}

theorem holder?_eq_none_iff :
    holder? spans first last = none ↔
      ∀ span ∈ spans, span.overlaps first last = true → span.owner = none := by
  simp [holder?, List.findSome?_eq_none_iff]

/-- The owner that a claim meets is the one with the lowest address. -/
theorem holder?_eq_some (partition : Partition low high spans) {other : String}
    (held : holder? spans first last = some other) :
    ∃ span ∈ owned spans,
      span.owner = some other ∧ span.overlaps first last = true ∧
        ∀ another ∈ owned spans, another.overlaps first last = true →
          span.first.toNat ≤ another.first.toNat := by
  obtain ⟨front, span, back, rfl, holds, earlier⟩ := List.findSome?_eq_some_iff.mp held
  have overlaps : span.overlaps first last = true := by
    by_contra apart
    simp [apart] at holds
  have owner : span.owner = some other := by simpa [overlaps] using holds
  refine ⟨span, by simp [owned, owner], owner, overlaps, ?_⟩
  intro another member anotherOverlaps
  obtain ⟨inSpans, isOwned⟩ := List.mem_filter.mp member
  rcases List.mem_append.mp inSpans with inFront | inBack
  · have free := earlier another inFront
    rw [if_pos anotherOverlaps] at free
    rw [free] at isOwned
    cases isOwned
  · rcases List.mem_cons.mp inBack with rfl | behind
    · exact Nat.le_refl _
    · have sorted := (List.pairwise_append.mp partition.covers.sorted).2.1
      exact (List.pairwise_cons.mp sorted).1 another behind

/-- A range that meets no owner is always given away: one free span contains it. -/
theorem Partition.exists_cut (partition : Partition low high spans) (owner : String)
    (ordered : first ≤ last) (atLeast : low ≤ first) (atMost : last ≤ high)
    (free : holder? spans first last = none) :
    ∃ front span back,
      spans = front ++ span :: back ∧ span.owner = none ∧ span.contains first last = true ∧
        occupy first last owner spans = front ++ (span.split first last owner ++ back) := by
  have atMostNat : last.toNat ≤ high.toNat := atMost
  have orderedNat : first.toNat ≤ last.toNat := ordered
  have allFree := holder?_eq_none_iff.mp free
  obtain ⟨front, span, back, rfl, contains, occupied⟩ := occupy_eq owner
    (partition.covers.exists_contains partition.separated ordered atLeast (by omega) allFree)
  obtain ⟨fromBelow, toAbove⟩ := contains_iff.mp contains
  refine ⟨front, span, back, rfl, ?_, contains, occupied⟩
  apply allFree span (by simp)
  rw [overlaps_iff]
  omega

theorem Partition.occupy (partition : Partition low high spans) (owner : String)
    (ordered : first ≤ last) (atLeast : low ≤ first) (atMost : last ≤ high)
    (free : holder? spans first last = none) :
    Partition low high (occupy first last owner spans) ∧
      (owned (Span.occupy first last owner spans)).Perm
        (⟨first, last, some owner⟩ :: owned spans) := by
  obtain ⟨front, span, back, rfl, spanFree, contains, occupied⟩ :=
    partition.exists_cut owner ordered atLeast atMost free
  rw [occupied]
  refine ⟨⟨?_, isChain_replace owner spanFree partition.separated⟩, ?_⟩
  · obtain ⟨middle, inFront, begins, -, behind⟩ := partition.covers.split_append
    subst begins
    exact inFront.append ((covers_split owner contains ordered).append behind)
  · have unowned : owned [span] = [] := by simp [owned, spanFree]
    have before : owned (front ++ span :: back) = owned front ++ owned back := by
      rw [← List.singleton_append, owned, List.filter_append, List.filter_append]
      change owned front ++ (owned [span] ++ owned back) = _
      rw [unowned, List.nil_append]
    rw [before, owned, List.filter_append, List.filter_append]
    change (owned front ++ (owned (span.split first last owner) ++ owned back)).Perm _
    rw [owned_split]
    exact List.perm_middle

end Claim

end Span

end RomLayout
