import RomLayout.Section.Basic

set_option autoImplicit false

/-!
Which bytes of which bank are taken. The window of a bank is a list of spans in
the order of their addresses, bounds counted in; a claim cuts its range out of the
free span that contains it.

`checkOverlaps` claims the range of each section in turn and stops at the first
one that meets a span with an owner.
-/

namespace RomLayout

/-- Neighbouring addresses with the same owner, or with none. -/
structure Span where
  first : UInt64
  last : UInt64
  owner : Option String
  deriving DecidableEq

namespace Span

def overlaps (span : Span) (first last : UInt64) : Bool :=
  first ≤ span.last && span.first ≤ last

def contains (span : Span) (first last : UInt64) : Bool :=
  span.first ≤ first && last ≤ span.last

/-- The span with a range of it given to an owner. -/
def split (span : Span) (first last : UInt64) (owner : String) : List Span :=
  (if span.first < first then [⟨span.first, first - 1, none⟩] else [])
    ++ ⟨first, last, some owner⟩
    :: (if last < span.last then [⟨last + 1, span.last, none⟩] else [])

/-- The first owner that a range meets. -/
def holder? (spans : List Span) (first last : UInt64) : Option String :=
  spans.findSome? fun span => if span.overlaps first last then span.owner else none

/-- Gives a range to an owner, in the first span that contains it. -/
def occupy (first last : UInt64) (owner : String) : List Span → List Span
  | [] => []
  | span :: rest =>
      if span.contains first last then span.split first last owner ++ rest
      else span :: occupy first last owner rest

/-- Gives a range to an owner unless another one has a part of it. -/
def claim (spans : List Span) (first last : UInt64) (owner : String) :
    Except String Unit × List Span :=
  match holder? spans first last with
  | some other => (.error other, spans)
  | none => (.ok (), occupy first last owner spans)

end Span

abbrev Occupancy := Region → UInt64 → List Span

namespace Occupancy

def free : Occupancy := fun region bank =>
  let window := region.window bank
  [⟨window.low, window.high, none⟩]

def update (occupancy : Occupancy) (region : Region) (bank : UInt64) (spans : List Span) :
    Occupancy := fun otherRegion otherBank =>
  if otherRegion = region ∧ otherBank = bank then spans else occupancy otherRegion otherBank

/-- Claims the range of a section. Sections that are empty or not resolved have
none. -/
def claimSection (occupancy : Occupancy) (current : Section) : Except Error Unit × Occupancy :=
  let binding := current.binding
  let size := current.size.getD 0
  if size = 0 then (.ok (), occupancy)
  else
    let first := binding.origin
    let last := first + size - 1
    let conflict (other : String) : Error :=
      .sectionOverlap
        { name := binding.name, other, region := binding.region, bank := binding.bank,
          first, last }
    let (outcome, spans) :=
      Span.claim (occupancy binding.region binding.bank) first last binding.name
    (outcome.mapError conflict, occupancy.update binding.region binding.bank spans)

/-- Claims the ranges of sections one after the other, up to the first that is refused. -/
def claimSections (occupancy : Occupancy) : List Section → Except Error Unit × Occupancy
  | [] => (.ok (), occupancy)
  | current :: rest =>
      match occupancy.claimSection current with
      | (.error error, changed) => (.error error, changed)
      | (.ok (), changed) => changed.claimSections rest

end Occupancy

/-- Fails at the first section that shares a byte with one in front of it. -/
def checkOverlaps (sections : List Section) : Except Error Unit :=
  (Occupancy.free.claimSections sections).1

end RomLayout
