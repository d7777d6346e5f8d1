import IdentityProvider.Text.Blank
import IdentityProvider.Text.Digits

/-
  Dates and times in TOML, and their canonical form.

  A moment is a date, a time, or a date with a time and perhaps an offset.  The canonical form
  puts `T` between date and time and drops the zeros at the end of a fraction.
-/

namespace IdentityProvider.Toml.Moment

open Text (cutAt)

/-- The number that exactly this many digits write. -/
def fixed? (width : Nat) (cs : List Char) : Option Nat :=
  if cs.length = width then Text.Digits.number? 10 cs else none

/-- The number of days of a month. -/
def daysIn (year month : Nat) : Nat :=
  if month = 2 then
    if year % 4 = 0 ∧ (year % 100 ≠ 0 ∨ year % 400 = 0) then 29 else 28
  else if month = 4 ∨ month = 6 ∨ month = 9 ∨ month = 11 then 30
  else 31

/-- Whether the text is a date. -/
def isDate (cs : List Char) : Bool :=
  match fixed? 4 (cs.take 4), fixed? 2 ((cs.drop 5).take 2), fixed? 2 (cs.drop 8) with
  | some year, some month, some day =>
    cs[4]? = some '-' && cs[7]? = some '-' && 1 ≤ month && month ≤ 12 && 1 ≤ day &&
      day ≤ daysIn year month
  | _, _, _ => false

/-- Whether the text is two digits that write at most `limit`. -/
def isUpTo (limit : Nat) (cs : List Char) : Bool :=
  match fixed? 2 cs with
  | some n => n ≤ limit
  | none => false

/-- Whether the text is an hour and a minute. -/
def isHourMinute (cs : List Char) : Bool :=
  isUpTo 23 (cs.take 2) && cs[2]? = some ':' && isUpTo 59 (cs.drop 3)

/-- The digits of a fraction in their canonical form. -/
def fraction (digits : List Char) : List Char :=
  match ((digits.take 9).reverse.dropWhile (· = '0')).reverse with
  | [] => []
  | kept => '.' :: kept

/-- The canonical form of a time without offset. -/
def time? (cs : List Char) : Option (List Char) :=
  if isHourMinute (cs.take 5) then
    match cs.drop 5 with
    | [] => some cs
    | ':' :: rest =>
      match cutAt '.' rest with
      | (second, none) => if isUpTo 60 second then some cs else none
      | (second, some digits) =>
        if isUpTo 60 second ∧ digits ≠ [] ∧ digits.all Char.isDigit = true then
          some (cs.take 5 ++ ':' :: second ++ fraction digits)
        else none
    | _ => none
  else none

/-- The canonical form of an offset. -/
def offset? : List Char → Option (List Char)
  | [] => some []
  | ['Z'] => some ['Z']
  | ['z'] => some ['Z']
  | '+' :: cs => if isHourMinute cs then some ('+' :: cs) else none
  | '-' :: cs =>
    if isHourMinute cs then
      some ((if cs = ['0', '0', ':', '0', '0'] then '+' else '-') :: cs)
    else none
  | _ => none

/-- A character of a time without offset. -/
def isTimeChar (c : Char) : Bool := c.isDigit || c = ':' || c = '.'

/-- The canonical form of a date or time. -/
def canonical? (cs : List Char) : Option (List Char) :=
  if isDate (cs.take 10) then
    match cs.drop 10 with
    | [] => some cs
    | separator :: rest =>
      if separator = 'T' ∨ separator = 't' ∨ separator = ' ' then do
        let time ← time? (rest.takeWhile isTimeChar)
        let offset ← offset? (rest.dropWhile isTimeChar)
        return cs.take 10 ++ 'T' :: time ++ offset
      else none
  else time? cs

end IdentityProvider.Toml.Moment
