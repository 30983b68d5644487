import BudgetReaper.Assoc
import BudgetReaper.Log.Notice
import BudgetReaper.Text.Control
import BudgetReaper.Value.Json

/-!
# Log — lines

A record becomes a JSON object in one line, or a line of aligned text.  Both show the *entries* of
the record: its fields, the event, the logger, the level and the time.  An event that comes with
arguments is a template and is filled with them.  The marks that a record concerns a failure in
progress, or is to show where it was made, leave no trace.

A JSON line holds the entries in order, and every code point of a filled event.  A line of text
shows the time, the level, the event padded to a column, the logger, and the other entries in the
order of their names, each in its style; the stream, which is no terminal, drops the styles and
every other control sequence (`Text.written`).

The entries, their order and both kinds of line are those of the processors and renderers that the
package `structlog` documents.
-/

namespace BudgetReaper.Log

/-- How lines are written. -/
inductive Format where
  | json
  | console
  deriving DecidableEq, Repr, Inhabited

/-- The format that a name stands for: aligned text for every name but one. -/
def Format.ofName (name : Value) : Format :=
  if name = .str "json" then .json else .console

/-! ### Fields that a call cannot take -/

/-- The first name that stands in the list before. -/
def repeated? (seen : List String) : List String → Option String
  | [] => none
  | name :: rest => if seen.contains name then some name else repeated? (name :: seen) rest

/-- The call for a level, as a message names it. -/
def Level.call (l : Level) : String :=
  "BoundLogger." ++ l.name

/-- Why the fields cannot be passed on: a name is given twice, or is that of a parameter of the call
or of the one within. -/
def Record.fault? (r : Record) : Option Fault :=
  let names := r.fields.map Prod.fst
  match repeated? [] names with
  | some name => some (.call (.namedTwice ("structlog.stdlib." ++ r.level.call) name))
  | none =>
    match names.find? fun name => name == "self" || name == "event" with
    | some name => some (.call (.twice r.level.call name))
    | none =>
      if names.contains "method_name" then
        some (.call (.twice "BoundLogger._proxy_to_logger" "method_name"))
      else none

/-! ### Entries -/

/-- What an event is filled with: the single object of a list of arguments, or the arguments
themselves. -/
def argumentOf : Value → Except Fault Value
  | .list [.object fields] => .ok (if fields.isEmpty then .list [.object []] else .object fields)
  | .list items => .ok (.list items)
  | .str s => .ok (.str s)
  | .object [_] => .error .notAList
  | .object fields => .ok (.object fields)
  | v => .error (.unsized v.kindName)

/-- The event of the entries, filled with arguments. -/
def fillEvent (entries : List (String × Value)) (arguments : Value) :
    Except Fault (List CodePoint) := do
  let argument ← argumentOf arguments
  match Assoc.get? entries "event" with
  | none => .error .noEvent
  | some (.str template) => (Template.fill template argument).mapError .template
  | some event => .error (.value (.notCombined "%=" event.kindName argument.kindName))

/-- The event of the entries, filled if it comes with arguments; those that are nothing do not
fill it. -/
def filledEvent? (entries : List (String × Value)) : Except Fault (Option (List CodePoint)) :=
  match Assoc.get? entries "positional_args" with
  | none => .ok none
  | some arguments =>
    if arguments.isNothing then .ok none else (fillEvent entries arguments).map some

/-- A field of this name must be a record with a name of its own; no value is one. -/
def checkName (r : Record) : Except Fault Unit :=
  match Assoc.get? r.fields "_record" with
  | none | some .null => .ok ()
  | some v => .error (.value (.noPart v.kindName "name"))

/-- The fields of a record and its event, if it has one. -/
def Record.said (r : Record) : List (String × Value) :=
  match r.event with
  | .null => r.fields
  | event => Assoc.put r.fields "event" event

/-- What a line shows of a record: its entries, and the event in place of the template, if it came
with arguments. -/
structure Entries where
  fields : List (String × Value)
  event? : Option (List CodePoint) := none
  deriving DecidableEq, Repr, Inhabited

/-- An entry that leaves no trace: a mark, or the arguments of the event, unless they are absent. -/
def isTraceless : String × Value → Bool
  | ("stack_info", _) | ("exc_info", _) => true
  | ("positional_args", v) => v != .null
  | _ => false

/-- What a line shows of a record. -/
def Record.entries (time : String) (r : Record) : Except Fault Entries := do
  checkName r
  let event? ← filledEvent? r.said
  let fields := Assoc.put r.said "logger" (.str r.logger)
  let fields := Assoc.put fields "level" (.str r.level.name)
  let fields := Assoc.put fields "timestamp" (.str time)
  .ok { fields := fields.filter fun entry => !isTraceless entry, event? }

/-- The JSON text of an entry. -/
def Entries.jsonOf (e : Entries) (name : String) (v : Value) : List Char :=
  match name, e.event? with
  | "event", some event => Value.jsonCodePoints event
  | _, _ => v.jsonChars

/-- The entries as a JSON object. -/
def Entries.json (e : Entries) : String :=
  let fields := e.fields.map fun (name, v) => Value.jsonText name ++ ':' :: ' ' :: e.jsonOf name v
  String.ofList ('\x7b' :: [',', ' '].intercalate fields ++ ['\x7d'])

/-- The entries with the event as a text. -/
def Entries.shown (e : Entries) : List (String × Value) :=
  match e.event? with
  | none => e.fields
  | some event => Assoc.put e.fields "event" (.str (CodePoint.text event))

/-! ### Lines of text -/

/-- `s` with blanks up to `width` characters. -/
def padRight (width : Nat) (s : String) : String :=
  String.ofList (s.toList ++ List.replicate (width - s.length) ' ')

/-- A character for which a text is quoted in a line. -/
def needsQuotes (c : Char) : Bool :=
  c == ' ' || c == '\t' || c == '=' || c == '\r' || c == '\n' || c == '"' || c == '\''

/-- A value in a line. -/
def fieldText : Value → String
  | .str s => if s.toList.any needsQuotes then Text.quoted s else s
  | v => v.display

/-- The width of the column of levels. -/
def levelWidth : Nat := 9

/-- The width of the column of events. -/
def eventWidth : Nat := 30

/-- The style with a number. -/
def style (n : Nat) : String :=
  "\x1b[" ++ Decimal.text n ++ "m"

/-- The end of all styles. -/
def noStyle : String := style 0

/-- Bold letters. -/
def bold : String := style 1

/-- Faint letters. -/
def faint : String := style 2

/-- The colour of a level. -/
def levelStyle (name : String) : String :=
  if name = Level.error.name then style 31
  else if name = Level.warning.name then style 33
  else style 32

/-- An entry under its name. -/
def column (name text : String) : String :=
  style 36 ++ name ++ noStyle ++ "=" ++ style 35 ++ text ++ noStyle

/-- A value under its name. -/
def fieldColumn (verbatim : List String) (name : String) (v : Value) : String :=
  column name (if verbatim.contains name then v.plain else fieldText v)

/-- An entry between brackets. -/
def nameColumn (v : Value) : String :=
  "[" ++ noStyle ++ bold ++ style 34 ++ v.plain ++ noStyle ++ "]" ++ noStyle

/-- The entries with a column of their own, in order. -/
def columns : List (String × (Value → String)) :=
  [("", fieldColumn [] ""),
    ("timestamp", fun v => faint ++ v.plain ++ noStyle),
    ("level", fun v =>
      "[" ++ levelStyle v.plain ++ bold ++ padRight levelWidth v.plain ++ noStyle ++ "]"),
    ("event", fun v => bold ++ padRight eventWidth v.plain ++ noStyle),
    ("logger", nameColumn),
    ("logger_name", nameColumn)]

/-- The entries that stand behind the line. -/
def appendices : List String :=
  ["stack", "exception"]

/-- What stands between the two appendices. -/
def divider : String :=
  "\n\n" ++ String.ofList (List.replicate 79 '=') ++ "\n"

/-- An entry that stands behind the line, if it is there. -/
def appendix (entries : List (String × Value)) (name : String) : Except Fault (Option String) :=
  match Assoc.get? entries name with
  | none | some .null => .ok none
  | some (.str s) => .ok (some ("\n" ++ s))
  | some v => .error (.value (.notAText v.kindName))

/-- Entries as aligned text, with styles. -/
def aligned (verbatim : List String) (entries : List (String × Value)) : String :=
  let first := columns.filterMap fun (name, render) => (Assoc.get? entries name).map render
  let others := entries.filter fun entry =>
    !(columns.map Prod.fst).contains entry.1 && !appendices.contains entry.1
  " ".intercalate
    (first ++ (Value.sortFields others).map fun (name, v) => fieldColumn verbatim name v)

/-- Entries as aligned text, with what stands behind the line. -/
def consoleText (verbatim : List String) (entries : List (String × Value)) :
    Except Fault String := do
  let stack ← appendix entries "stack"
  let exception ← appendix entries "exception"
  let between := if stack.isSome && exception.isSome then divider else ""
  .ok (aligned verbatim entries ++ stack.getD "" ++ between ++ exception.getD "")

/-! ### A configured log -/

/-- What becomes of records: a threshold and a format. -/
structure Setup where
  threshold : Nat
  format : Format
  deriving DecidableEq, Repr, Inhabited

/-- The set-up for the name of a threshold and the name of a format. -/
def Setup.ofNames (level format : Value) : Except LevelFault Setup :=
  match level with
  | .str name => (thresholdOf name).map fun threshold => { threshold, format := .ofName format }
  | v => .error (.name (.noPart v.kindName "upper"))

/-- What is written for the entries of a record. -/
def Format.text (f : Format) (verbatim : List String) (e : Entries) : Except Fault String :=
  match f with
  | .json => .ok (e.json ++ "\n")
  | .console => (consoleText verbatim e.shown).map fun s =>
    String.ofList (Text.written (s ++ "\n").toList)

/-- What is written for a record: nothing, if its level does not reach the threshold. -/
def Setup.write (s : Setup) (time : String) (r : Record) : Except Fault String :=
  match r.fault? with
  | some f => .error f
  | none =>
    if s.threshold ≤ r.level.number then do s.format.text r.verbatim (← r.entries time)
    else .ok ""

/-- Below the threshold nothing is written, whatever the fields are. -/
theorem write_of_below {s : Setup} {r : Record} (h : r.level.number < s.threshold)
    (time : String) : s.write time r = .ok "" ∨ ∃ f, r.fault? = some f := by
  unfold Setup.write
  split
  · next f hf => exact .inr ⟨f, hf⟩
  · exact .inl (if_neg (Nat.not_le.mpr h))

end BudgetReaper.Log
