import RecurringEvents.Zone.Region

/-!
# Regular regions

A region is regular if its clock is never set twice within two days. Its listed changes are more
than two days apart, the times of its schedule lie well within the year and a month apart, and the
schedule goes on where the latest listed change has left the clock. Offsets are less than a day, and
no clock is set by more than a day.

* `Turn`: one setting of a clock.
* `Region.IsSpaced`, `Schedule.IsRegular`, `Schedule.Continues`: the parts of a region.
* `Region.IsRegular`: a region as a whole.
-/

namespace RecurringEvents

/-- The clock is set at `instant`, from the offset `before` to the offset `after`. -/
structure Turn where
  instant : Int
  before : Int
  after : Int
  deriving DecidableEq

/-- The year that a second lies in. -/
def yearOfSecond (t : Int) : Int := Date.yearOfDayNumber (t / 86400 + epochDayNumber)

namespace YearlyTime

/-- Whether a yearly time lies well within its year. -/
def IsPlain (r : YearlyTime) : Prop :=
  2 ≤ r.month ∧ r.month ≤ 11 ∧ 1 ≤ r.week ∧ r.week ≤ 5 ∧ -86400 ≤ r.time ∧ r.time ≤ 172800

instance (r : YearlyTime) : Decidable r.IsPlain := inferInstanceAs (Decidable (_ ∧ _))

end YearlyTime

namespace Schedule

/-- Whether a schedule is regular: its times lie well within the year and are far apart. -/
def IsRegular : Schedule → Prop
  | steady type => -86400 < type.offset ∧ type.offset < 86400
  | seasonal standard daylight starts ends =>
    ((-86400 < standard.offset ∧ standard.offset < 86400) ∧
      (-86400 < daylight.offset ∧ daylight.offset < 86400) ∧
      daylight.offset - standard.offset ≤ 86400 ∧ standard.offset - daylight.offset ≤ 86400) ∧
      starts.IsPlain ∧ ends.IsPlain ∧
      (starts.month + 2 ≤ ends.month ∨ ends.month + 2 ≤ starts.month)

instance : (p : Schedule) → Decidable p.IsRegular
  | steady _ => inferInstanceAs (Decidable (_ ∧ _))
  | seasonal .. => inferInstanceAs (Decidable (_ ∧ _))

/-- The turn from one local time type to another at a yearly time. -/
def yearlyTurn (old new : LocalType) (r : YearlyTime) (y : Int) : Turn :=
  ⟨r.secondsIn y - old.offset, old.offset, new.offset⟩

end Schedule

/-- Whether a turn of the year is the turn `c`, or more than two days away from it. -/
def Turn.IsClearOf (a c : Turn) : Prop :=
  a = c ∨ a.instant + 172800 < c.instant ∨ c.instant + 172800 < a.instant

instance (a c : Turn) : Decidable (a.IsClearOf c) := inferInstanceAs (Decidable (_ ∨ _))

namespace Schedule

/-- Whether a schedule goes on where the turn `c` has left the clock. -/
def Continues (c : Turn) : Schedule → Prop
  | steady type => type.offset = c.after
  | seasonal s d starts ends =>
    let y := yearOfSecond c.instant
    (yearlyTurn s d starts y).IsClearOf c ∧ (yearlyTurn d s ends y).IsClearOf c ∧
      (if inSeason (yearlyTurn s d starts y).instant (yearlyTurn d s ends y).instant c.instant
        then d else s).offset = c.after

instance (c : Turn) : (p : Schedule) → Decidable (p.Continues c)
  | steady _ => inferInstanceAs (Decidable (_ = _))
  | seasonal .. => inferInstanceAs (Decidable (_ ∧ _))

end Schedule

namespace Region

/-- The listed change as a turn. -/
def turnOf (first : LocalType) (c : Change) (cs : List Change) : Turn :=
  ⟨c.start, (typeAfter first cs).offset, c.type.offset⟩

/-- Whether listed changes are more than two days apart and each is small. -/
def IsSpaced (first : LocalType) : List Change → Prop
  | [] => -86400 < first.offset ∧ first.offset < 86400
  | c :: cs =>
    (-86400 < c.type.offset ∧ c.type.offset < 86400) ∧
      c.type.offset - (typeAfter first cs).offset ≤ 86400 ∧
      (typeAfter first cs).offset - c.type.offset ≤ 86400 ∧
      (∀ d ∈ cs.head?, d.start + 172800 < c.start) ∧ IsSpaced first cs

instance decidableIsSpaced (first : LocalType) :
    (cs : List Change) → Decidable (IsSpaced first cs)
  | [] => inferInstanceAs (Decidable (_ ∧ _))
  | _ :: cs =>
    have := decidableIsSpaced first cs
    inferInstanceAs (Decidable (_ ∧ _))

/-- Whether the changes of a region are far apart, those that are listed and those of its
schedule. -/
def IsWellSpaced (r : Region) : Prop := IsSpaced r.first r.changes ∧ r.later.IsRegular

instance (r : Region) : Decidable r.IsWellSpaced := inferInstanceAs (Decidable (_ ∧ _))

/-- Whether a schedule goes on where the latest of listed changes has left the clock. -/
def IsContinued (first : LocalType) (p : Schedule) : List Change → Prop
  | [] => True
  | c :: cs => p.Continues (turnOf first c cs)

instance (first : LocalType) (p : Schedule) :
    (cs : List Change) → Decidable (IsContinued first p cs)
  | [] => inferInstanceAs (Decidable True)
  | c :: cs => inferInstanceAs (Decidable (p.Continues (turnOf first c cs)))

/-- Whether a region is regular. -/
def IsRegular (r : Region) : Prop := r.IsWellSpaced ∧ IsContinued r.first r.later r.changes

instance (r : Region) : Decidable r.IsRegular := inferInstanceAs (Decidable (_ ∧ _))

end Region

end RecurringEvents
