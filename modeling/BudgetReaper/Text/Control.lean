import BudgetReaper.Text.Digit

/-!
# Text — control sequences

What a stream that is no terminal keeps of a text.  A style is an escape character, an opening
bracket, digits of any script and semicolons, and a letter; a command is an escape character, a
closing bracket, and all that follows up to a bell.  Either may stand between the marks U+0001 and
U+0002.

`withoutStyles` drops the styles.  `withoutCommands` cuts the commands: each is found in the text as
it came, and cut at the same place of what the cuts before it have left, so that a second command
of one text is cut as far behind its own place as the first was long.  A text with a command that
sets a title is not written at all.
-/

namespace BudgetReaper.Text

/-- The length of the mark `mark` in front: one or none. -/
def markLength (mark : Char) : List Char → Nat
  | c :: _ => if c = mark then 1 else 0
  | [] => 0

/-! ### Styles -/

/-- A character of the parameters of a style. -/
def isStyleParameter (c : Char) : Bool :=
  (digitValue? c).isSome || c == ';'

/-- The length of the style in front, with its marks. -/
def styleLength? (cs : List Char) : Option Nat :=
  let lead := markLength '\x01' cs
  match cs.drop lead with
  | '\x1b' :: '[' :: rest =>
    let parameters := rest.takeWhile isStyleParameter
    match rest.drop parameters.length with
    | c :: after =>
      if c.isAlpha then some (lead + parameters.length + 3 + markLength '\x02' after) else none
    | [] => none
  | _ => none

/-- The text behind its first `skip` characters, without its styles. -/
def withoutStylesFrom : (skip : Nat) → List Char → List Char
  | _, [] => []
  | skip + 1, _ :: rest => withoutStylesFrom skip rest
  | 0, c :: rest =>
    match styleLength? (c :: rest) with
    | some n => withoutStylesFrom (n - 1) rest
    | none => c :: withoutStylesFrom 0 rest

/-- The text without its styles. -/
def withoutStyles (cs : List Char) : List Char :=
  withoutStylesFrom 0 cs

/-! ### Commands -/

/-- A command: where it begins, how long it is, and what it says. -/
structure Command where
  place : Nat
  length : Nat
  body : List Char
  deriving DecidableEq, Repr, Inhabited

/-- The body and the length of the command in front, with its marks. -/
def readCommand? (cs : List Char) : Option (List Char × Nat) :=
  let lead := markLength '\x01' cs
  match cs.drop lead with
  | '\x1b' :: ']' :: rest =>
    -- a command without a bell has no end, and is none
    let body := rest.takeWhile (· != '\x07')
    match rest.drop body.length with
    | _ :: after => some (body, lead + body.length + 3 + markLength '\x02' after)
    | [] => none
  | _ => none

/-- The commands of a text behind its first `skip` characters; the text begins at `place`. -/
def commandsFrom (place : Nat) : (skip : Nat) → List Char → List Command
  | _, [] => []
  | skip + 1, _ :: rest => commandsFrom (place + 1) skip rest
  | 0, c :: rest =>
    match readCommand? (c :: rest) with
    | some (body, length) =>
      { place, length, body } :: commandsFrom (place + 1) (length - 1) rest
    | none => commandsFrom (place + 1) 0 rest

/-- The commands of a text. -/
def commands (cs : List Char) : List Command :=
  commandsFrom 0 0 cs

/-- The numbers of the commands that set a title; none is a number of its own, and so are both. -/
def titleNumbers : List String :=
  ["", "0", "2", "02"]

/-- The command sets a title: one of the numbers, a semicolon, and a title without another. -/
def Command.isTitle (c : Command) : Bool :=
  c.body.count ';' == 1 && titleNumbers.contains (String.ofList (c.body.takeWhile (· != ';')))

/-- The text without the characters of a command at its place. -/
def Command.cut (c : Command) (cs : List Char) : List Char :=
  cs.take c.place ++ cs.drop (c.place + c.length)

/-- The text with its commands cut. -/
def withoutCommands (cs : List Char) : List Char :=
  (commands cs).foldl (fun cs c => c.cut cs) cs

/-- What is written of a text; nothing of one that sets a title. -/
def written (cs : List Char) : List Char :=
  -- the styles are sought in what the cuts have left, where two halves may have met
  if (commands cs).any Command.isTitle then [] else withoutStyles (withoutCommands cs)

end BudgetReaper.Text
