import RecurringEvents.Moment

/-!
# Layouts

A layout is a text in which `yyyy`, `MM`, `dd`, `HH` and `mm` stand for the fields of a wall time,
and an `a` that touches no other letter for AM or PM. With such an `a` anywhere, hours are those of
a twelve-hour clock. Everything else is copied.

* `render_literals`: a layout without fields is its own rendering.
-/

namespace RecurringEvents.Layout

open Text

/-- A part of a layout. -/
inductive Piece where
  | year | month | day | hour | minute | halfDay
  | literal (c : Char)
  deriving Repr, DecidableEq

/-- The letters of ASCII. -/
def isLetter (c : Char) : Bool := ('A' ≤ c && c ≤ 'Z') || ('a' ≤ c && c ≤ 'z')

/-- Whether there is a letter. -/
def isLetter? (c : Option Char) : Bool := c.any isLetter

/-- The parts of a layout, given the character before it. -/
def pieces : Option Char → List Char → List Piece
  | _, [] => []
  | _, 'y' :: 'y' :: 'y' :: 'y' :: s => .year :: pieces (some 'y') s
  | _, 'M' :: 'M' :: s => .month :: pieces (some 'M') s
  | _, 'd' :: 'd' :: s => .day :: pieces (some 'd') s
  | _, 'H' :: 'H' :: s => .hour :: pieces (some 'H') s
  | _, 'm' :: 'm' :: s => .minute :: pieces (some 'm') s
  | before, c :: s =>
    (if c = 'a' ∧ !isLetter? before ∧ !isLetter? s.head? then .halfDay else .literal c)
      :: pieces (some c) s

/-- The hour as it is shown. -/
def shownHour (twelve : Bool) (hour : Int) : Int :=
  if twelve then if hour % 12 = 0 then 12 else hour % 12 else hour

/-- A part of a layout for a wall time. -/
def Piece.render (twelve : Bool) (w : Wall) : Piece → List Char
  | year => padded 4 w.date.year.toNat
  | month => padded 2 w.date.month.toNat
  | day => padded 2 w.date.day.toNat
  | hour => padded 2 (shownHour twelve w.time.hour).toNat
  | minute => padded 2 w.time.minute.toNat
  | halfDay => if w.time.hour < 12 then "AM".toList else "PM".toList
  | literal c => [c]

/-- A wall time in a layout. -/
def render (layout : List Char) (w : Wall) : List Char :=
  let ps := pieces none layout
  ps.flatMap (Piece.render (ps.contains .halfDay) w)

theorem flatMap_render_literal (twelve : Bool) (w : Wall) (s : List Char) :
    (s.map Piece.literal).flatMap (Piece.render twelve w) = s := by
  induction s with
  | nil => rfl
  | cons c s ih => rw [List.map_cons, List.flatMap_cons, ih]; rfl

/-- A layout without fields is its own rendering. -/
theorem render_literals {layout : List Char} (w : Wall)
    (h : pieces none layout = layout.map .literal) : render layout w = layout := by
  unfold render
  rw [h]
  exact flatMap_render_literal _ w layout

end RecurringEvents.Layout
