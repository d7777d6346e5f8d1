import IdentityProvider.Log.Event
import IdentityProvider.Text.Blank
import IdentityProvider.Text.Word

/-
  Which events are logged.

  A filter is a list of directives, separated by commas.  A directive gives a level, for all events
  or for those whose target begins with a text; it may also ask for a field that the events must
  have.  Of the directives that apply to an event the one with the longest target decides, of two
  with one target the one that asks for a field, and of two that ask for the same the later.  Where
  none applies nothing is logged.

  An event is taken to lie outside of all spans.  The program opens none of its own; the one that
  the HTTP library opens around a request is left out here, and with it what a directive for spans
  would let through inside of it.
-/

namespace IdentityProvider.Log

/-- The most detailed level that is let through, as a rank; 0 lets nothing through. -/
abbrev Threshold := Nat

namespace Threshold

/-- Nothing. -/
def off : Threshold := 0

/-- Everything. -/
def all : Threshold := Level.trace.rank

/-- The words for thresholds, in lower case. -/
def words : List (String × Threshold) :=
  [("off", off), ("error", Level.error.rank), ("warn", Level.warn.rank),
   ("info", Level.info.rank), ("debug", Level.debug.rank), ("trace", all)]

/-- The threshold that a number writes; a plus sign may stand in front. -/
def ofDigits? (text : List Char) : Option Threshold :=
  let digits := match text with
    | '+' :: rest => rest
    | rest => rest
  if digits ≠ [] ∧ digits.all Char.isDigit = true then
    (String.ofList digits).toNat?.filter (· ≤ all)
  else none

/-- The threshold with this name, in any case, or with this number. -/
def ofText? (text : List Char) : Option Threshold :=
  (ofDigits? text).or (words.lookup (String.ofList (text.map Char.toLower)))

end Threshold

/-- A directive of a filter. -/
inductive Directive
  /-- Events whose target begins with this text, or all of them; and of those the ones that have
  this field, or all of them. -/
  | events (target field : Option (List Char)) (threshold : Threshold)
  /-- Spans; it says nothing about events outside of them, and so about none of those here. -/
  | spans
  deriving DecidableEq, Repr

namespace Directive

/-- The threshold behind the sign of equality; everything where nothing is there. -/
def threshold? (text : List Char) : Option Threshold :=
  if text = [] then some .all else Threshold.ofText? text

/-- The threshold with which a directive ends behind its brackets. -/
def ending? : List Char → Option Threshold
  | [] => some .all
  | '=' :: level => threshold? level
  | _ => none

/-- A character of the name of a span. -/
def isNameChar (c : Char) : Bool := c ≠ ']' && c ≠ '\x7b'

/-- The directive for a target with what follows the opening bracket: the name of a span and
fields up to the closing bracket, and perhaps a level.  Fields without a name or a value ask for
events, anything else for spans. -/
def ofBrackets? (target : Option (List Char)) (text : List Char) : Option Directive :=
  match text.dropWhile isNameChar with
  | ']' :: rest => (ending? rest).map fun _ => .spans
  | '\x7b' :: inside =>
    let fields := inside.takeWhile (· ≠ '\x7d')
    match inside.dropWhile (· ≠ '\x7d') with
    | '\x7d' :: ']' :: rest =>
      if fields = [] then none
      else if text.takeWhile isNameChar = [] ∧ '=' ∉ fields then
        (ending? rest).map (.events target (some fields))
      else (ending? rest).map fun _ => .spans
    | _ => none
  | _ => none

/-- A character that can begin a target or a level. -/
def isStart (c : Char) : Bool := c = '-' || c = ':' || c = '_' || Text.isWordChar c

/-- The directive that a text without blanks at its ends writes. -/
def ofText? (text : List Char) : Option Directive :=
  match text with
  | [] => none
  | '[' :: rest => ofBrackets? none rest
  | c :: _ =>
    if isStart c then
      let word := text.takeWhile fun c => c ≠ '=' && c ≠ '['
      match text.dropWhile fun c => c ≠ '=' && c ≠ '[' with
      | [] => match Threshold.ofText? word with
        | some threshold => some (.events none none threshold)
        | none => some (.events (some word) none .all)
      | '=' :: level => (threshold? level).map (.events (some word) none)
      | _ :: rest => ofBrackets? (some word) rest
    else none

/-- Whether a directive applies to an event. -/
def applies (event : Event) : Directive → Bool
  | .events target field _ =>
    target.all (·.isPrefixOf event.target.toList) &&
      field.all (event.fieldNames.map String.toList).contains
  | .spans => false

/-- The field that a directive asks for, if it does. -/
def field? : Directive → Option (List Char)
  | .events _ field _ => field
  | .spans => none

/-- How precise a directive is, to be compared from the front: first by the length of its target,
then by the field for which it asks. -/
def precision : Directive → List Nat
  | .events target field _ =>
    target.elim 0 (·.length + 1) :: field.elim [] (1 :: ·.map Char.toNat)
  | .spans => []

/-- Whether a directive lets events of this level through. -/
def allows (level : Level) : Directive → Bool
  | .events _ _ threshold => level.rank ≤ threshold
  | .spans => false

end Directive

/-- A list of directives. -/
structure Filter where
  directives : List Directive
  deriving DecidableEq, Repr

namespace Filter

/-- A text without the blanks at its ends. -/
def trim (text : List Char) : List Char :=
  ((text.dropWhile Text.isBlank).reverse.dropWhile Text.isBlank).reverse

/-- The filter that a text writes.  Nothing between two commas is no directive. -/
def ofText? (text : String) : Option Filter :=
  (((Text.splitOn ',' text.toList).filter (· ≠ [])).mapM fun piece =>
    Directive.ofText? (trim piece)).map Filter.mk

/-- The filter that stands in for one that cannot be read: whatever is at least worth an
information. -/
def fallback : Filter := ⟨[.events none none Level.info.rank]⟩

/-- The filter for a text, and whether the text had to be replaced. -/
def ofText (text : String) : Filter × Bool :=
  match ofText? text with
  | some filter => (filter, false)
  | none => (fallback, true)

/-- The more precise of two directives; the second if they are equally precise. -/
def prefer (first : Option Directive) (second : Directive) : Option Directive :=
  match first with
  | none => some second
  | some d => if second.precision < d.precision then some d else some second

/-- The directive that decides on an event. -/
def deciding? (filter : Filter) (event : Event) : Option Directive :=
  (filter.directives.filter (·.applies event)).foldl prefer none

/-- Whether an event is logged. -/
def admits (filter : Filter) (event : Event) : Bool :=
  match filter.deciding? event with
  | some directive => directive.allows event.level
  | none => false

end Filter

end IdentityProvider.Log
