import BudgetReaper.Binary64.Places
import BudgetReaper.Text.CodePoint
import BudgetReaper.Text.Hex
import BudgetReaper.Value.Number

/-!
# Values — templates

A template is a text with placeholders.  A placeholder is a percent sign, an optional field name in
parentheses, flags, a width, a precision and the letter of a conversion; two percent signs stand
for one.  `fill` writes a template with one argument: the first placeholder without a field name
takes the argument as a whole, one with a field name takes that field of it.  It writes code points,
since the number of any of them can be asked for.

The argument must be used, unless it is a list or an object, which may go unused before the first
placeholder; behind a placeholder with a field name nothing of the field may be left.
-/

namespace BudgetReaper.Template

open BudgetReaper.Text (hexDigits)

/-! ### Faults -/

/-- Why a template cannot be filled. -/
inductive Fault where
  /-- A placeholder finds nothing left to take. -/
  | notEnough
  /-- Something is left that no placeholder has taken. -/
  | leftOver
  /-- A field is asked of a text. -/
  | noFields
  /-- A field is asked of a list. -/
  | listField
  /-- A field that the object does not have. -/
  | noField (name : String)
  /-- The name of a field is not closed. -/
  | openName
  /-- The template ends within a placeholder. -/
  | incomplete
  /-- A width or a precision that is to be taken is no integer. -/
  | starNotInteger
  /-- A width or a precision that is to be taken is beyond the integers of a kind. -/
  | starTooLarge (kind : String)
  /-- A width or a precision that is written is too large. -/
  | tooWide (what : String)
  /-- The letter of no conversion, and its place. -/
  | unknown (c : Char) (place : Nat)
  /-- A conversion of integers has another kind of value. -/
  | notInteger (c : Char) (kind : String)
  /-- A conversion of numbers to integers has another kind of value. -/
  | notNumber (c : Char) (kind : String)
  /-- A conversion of doubles has another kind of value. -/
  | notReal (kind : String)
  /-- A number that cannot be converted. -/
  | number (f : Number.Fault)
  /-- A precision beyond that of integers. -/
  | tooPrecise
  /-- A text too long to be made. -/
  | noRoom
  /-- A conversion to a character has neither a character nor a code point. -/
  | notCharacter
  /-- An integer that is no code point. -/
  | noCodePoint
  deriving DecidableEq, Repr, Inhabited

namespace Fault

/-- The character as it stands in a message: its place is taken if it is not visible. -/
def shown (c : Char) : Char :=
  if 31 ≤ c.toNat ∧ c.toNat < 127 then c else '?'

/-- The text of a fault. -/
def message : Fault → String
  | notEnough => "not enough arguments for format string"
  | leftOver => "not all arguments converted during string formatting"
  | noFields => "format requires a mapping"
  | listField => "list indices must be integers or slices, not str"
  | noField name => Text.quoted name
  | openName => "incomplete format key"
  | incomplete => "incomplete format"
  | starNotInteger => "* wants int"
  | starTooLarge kind => "Python int too large to convert to C " ++ kind
  | tooWide what => what ++ " too big"
  | unknown c place =>
    "unsupported format character '" ++ String.singleton (shown c) ++ "' (0x" ++
      String.ofList (Nat.toDigits 16 c.toNat) ++ ") at index " ++ Decimal.text place
  | notInteger c kind =>
    "%" ++ String.singleton c ++ " format: an integer is required, not " ++ kind
  | notNumber c kind =>
    "%" ++ String.singleton c ++ " format: a real number is required, not " ++ kind
  | notReal kind => "must be real number, not " ++ kind
  | number f => f.message
  | tooPrecise => "precision too large"
  | noRoom => ""
  | notCharacter => "%c requires int or char"
  | noCodePoint => "%c arg not in range(0x110000)"

/-- The name of a kind of fault. -/
def typeName : Fault → String
  | noField _ => "KeyError"
  | openName | incomplete | tooWide _ | unknown .. => "ValueError"
  | starTooLarge _ | tooPrecise | noCodePoint => "OverflowError"
  | noRoom => "MemoryError"
  | number f => f.typeName
  | _ => "TypeError"

end Fault

/-! ### What there is to take -/

/-- The argument as a whole, and what a placeholder takes next. -/
structure Supply where
  whole : Value
  next : Option Value

/-- Fields may be asked of the argument. -/
def Supply.hasFields (s : Supply) : Bool :=
  match s.whole with
  | .list _ | .object _ => true
  | _ => false

/-- The supply of one argument. -/
def Supply.of (v : Value) : Supply :=
  { whole := v, next := some v }

/-- What is taken next. -/
def Supply.take (s : Supply) : Except Fault (Value × Supply) :=
  match s.next with
  | some v => .ok (v, { s with next := none })
  | none => .error .notEnough

/-- The supply of a field of the argument. -/
def Supply.select (s : Supply) (name : String) : Except Fault Supply :=
  match s.whole with
  | .object _ =>
    match s.whole.field? name with
    | some v => .ok { s with next := some v }
    | none => .error (.noField name)
  | .list _ => .error .listField
  | _ => .error .noFields

/-! ### Placeholders -/

/-- What a placeholder asks of a text. -/
structure Placeholder where
  left : Bool := false
  plus : Bool := false
  blank : Bool := false
  full : Bool := false
  zeros : Bool := false
  width : Nat := 0
  precision : Option Nat := none
  deriving DecidableEq, Repr, Inhabited

/-- The largest width that can be written. -/
def widthLimit : Nat := 9223372036854775807

/-- The largest precision that can be written. -/
def precisionLimit : Nat := 2147483647

/-- The largest precision of an integer. -/
def integerPrecisionLimit : Nat := 2147483644

/-- The greatest width and precision with which a text is made. -/
def roomLimit : Nat := 268435456

/-- A character that is a flag. -/
def isFlag (c : Char) : Bool :=
  c == '-' || c == '+' || c == ' ' || c == '#' || c == '0'

/-- The placeholder with the given flags. -/
def Placeholder.ofFlags (flags : List Char) : Placeholder :=
  { left := flags.contains '-'
    plus := flags.contains '+'
    blank := flags.contains ' '
    full := flags.contains '#'
    zeros := flags.contains '0' }

/-- The name in front, up to the parenthesis that closes it, and what follows; `depth` parentheses
are open in it, and `done` is the part read, in reverse. -/
def nameFrom (depth : Nat) (done : List Char) : List Char → Option (String × List Char)
  | [] => none
  | ')' :: rest =>
    match depth with
    | 0 => some (String.ofList done.reverse, rest)
    | depth + 1 => nameFrom depth (')' :: done) rest
  | '(' :: rest => nameFrom (depth + 1) ('(' :: done) rest
  | c :: rest => nameFrom depth (c :: done) rest

/-- The supply for a placeholder: of a field, if a name is in front, and what follows the name. -/
def readName (s : Supply) : List Char → Except Fault (Supply × List Char)
  | '(' :: rest =>
    if s.hasFields then
      match nameFrom 0 [] rest with
      | some (name, rest) => do .ok (← s.select name, rest)
      | none => .error .openName
    else .error .noFields
  | cs => .ok (s, cs)

/-- An integer that is taken for a width or a precision, in the signed integers up to `limit`; truth
values are integers. -/
def takeInteger (kind : String) (limit : Nat) (s : Supply) : Except Fault (Int × Supply) := do
  match ← s.take with
  | (.int n, s) =>
    if -(limit : Int) - 1 ≤ n ∧ n ≤ limit then .ok (n, s) else .error (.starTooLarge kind)
  | (.bool b, s) => .ok (Value.bit b, s)
  | _ => .error .starNotInteger

/-- The digits in front as a number up to `limit`, and what follows them. -/
def readNumber (what : String) (limit : Nat) (cs : List Char) : Except Fault (Nat × List Char) :=
  let ds := cs.takeWhile Char.isDigit
  let n := Decimal.ofDigits (ds.map fun c => c.toNat - '0'.toNat)
  if n ≤ limit then .ok (n, cs.drop ds.length) else .error (.tooWide what)

/-- The placeholder with the width in front, and what follows it. -/
def readWidth (p : Placeholder) (s : Supply) :
    List Char → Except Fault (Placeholder × Supply × List Char)
  | '*' :: rest => do
    let (n, s) ← takeInteger "ssize_t" widthLimit s
    .ok ({ p with width := n.natAbs, left := p.left || n < 0 }, s, rest)
  | cs => do
    let (width, rest) ← readNumber "width" widthLimit cs
    .ok ({ p with width }, s, rest)

/-- The placeholder with the precision in front, if there is one, and what follows it. -/
def readPrecision (p : Placeholder) (s : Supply) :
    List Char → Except Fault (Placeholder × Supply × List Char)
  | '.' :: '*' :: rest => do
    let (n, s) ← takeInteger "int" precisionLimit s
    .ok ({ p with precision := some n.toNat }, s, rest)
  | '.' :: cs => do
    let (n, rest) ← readNumber "precision" precisionLimit cs
    .ok ({ p with precision := some n }, s, rest)
  | cs => .ok (p, s, cs)

/-- What follows a mark of size, which has no influence. -/
def skipSize : List Char → List Char
  | c :: rest => if c = 'h' ∨ c = 'l' ∨ c = 'L' then rest else c :: rest
  | [] => []

/-! ### Conversions -/

/-- A converted value: its sign, the mark of its base, and the rest. -/
structure Converted where
  sign : List Char := []
  mark : List Char := []
  body : List CodePoint
  deriving DecidableEq, Repr, Inhabited

/-- The sign of a number. -/
def Placeholder.sign (p : Placeholder) (negative : Bool) : List Char :=
  if negative then ['-'] else if p.plus then ['+'] else if p.blank then [' '] else []

/-- A text, cut at the precision. -/
def Placeholder.text (p : Placeholder) (cs : List Char) : Converted :=
  { body := CodePoint.ofChars (match p.precision with
      | some n => cs.take n
      | none => cs) }

/-- An integer in the given digits, with zeros in front up to the precision. -/
def Placeholder.integer (p : Placeholder) (mark : List Char) (digits : Nat → List Char) (n : Int) :
    Except Fault Converted :=
  let places := p.precision.getD 0
  let ds := digits n.natAbs
  if integerPrecisionLimit < places then .error .tooPrecise
  else if roomLimit < places then .error .noRoom
  else
    .ok {
      sign := p.sign (n < 0)
      mark := if p.full then mark else []
      body := CodePoint.ofChars (List.replicate (places - ds.length) '0' ++ ds) }

/-- A double with the given number of digits, six of them if none is given. -/
def Placeholder.double (p : Placeholder) (places : Binary64.Places) (x : Binary64) :
    Except Fault Converted :=
  let n := p.precision.getD 6
  if x.isFinite && roomLimit < n then .error .noRoom
  else .ok { sign := p.sign x.isNegative, body := CodePoint.ofChars (x.digits places p.full n) }

/-- The converted value with large letters. -/
def Converted.upper (c : Converted) : Converted :=
  { c with mark := c.mark.map Char.toUpper, body := c.body.map CodePoint.upper }

/-- The integer of a value, under a conversion of numbers to integers. -/
def toInteger (c : Char) (v : Value) : Except Fault Int :=
  match v.number? with
  | some n => n.truncated.mapError .number
  | none => .error (.notNumber c v.kindName)

/-- The integer of a value, under a conversion of integers. -/
def exactInteger (c : Char) (v : Value) : Except Fault Int :=
  match v.number? with
  | some (.whole n) => .ok n
  | _ => .error (.notInteger c v.kindName)

/-- The double of a value, under a conversion of doubles. -/
def toDouble (v : Value) : Except Fault Binary64 :=
  match v.number? with
  | some n => n.toDouble.mapError .number
  | none => .error (.notReal v.kindName)

/-- The code point of a value: the character of a text of one, or the code point with a number. -/
def toCodePoint : Value → Except Fault CodePoint
  | .str s =>
    match s.toList with
    | [c] => .ok (.char c)
    | _ => .error .notCharacter
  | .bool b => .ok (.ofNat (Value.bit b).toNat)
  | .int n => if n < 0 ∨ 0x110000 ≤ n then .error .noCodePoint else .ok (.ofNat n.toNat)
  | _ => .error .notCharacter

/-- A character in ASCII, or its code point as an escape. -/
def asciiChar (c : Char) : List Char :=
  if c.toNat < 0x80 then [c]
  else if c.toNat < 0x100 then '\\' :: 'x' :: hexDigits 2 c.toNat
  else if c.toNat < 0x10000 then '\\' :: 'u' :: hexDigits 4 c.toNat
  else '\\' :: 'U' :: hexDigits 8 c.toNat

/-- A value converted as the letter asks; `place` is that of the letter. -/
def convert (p : Placeholder) (place : Nat) (c : Char) (v : Value) : Except Fault Converted :=
  let octal (n : Nat) := Nat.toDigits 8 n
  let hexadecimal (n : Nat) := Nat.toDigits 16 n
  match c with
  | 's' => .ok (p.text v.plain.toList)
  | 'r' => .ok (p.text v.display.toList)
  | 'a' => .ok (p.text (v.display.toList.flatMap asciiChar))
  | 'd' | 'i' | 'u' => do p.integer [] Decimal.ofNat (← toInteger c v)
  | 'o' => do p.integer ['0', 'o'] octal (← exactInteger c v)
  | 'x' => do p.integer ['0', 'x'] hexadecimal (← exactInteger c v)
  | 'X' => do .ok (← p.integer ['0', 'x'] hexadecimal (← exactInteger c v)).upper
  | 'f' => do p.double .behindPoint (← toDouble v)
  | 'F' => do .ok (← p.double .behindPoint (← toDouble v)).upper
  | 'e' => do p.double .behindFirst (← toDouble v)
  | 'E' => do .ok (← p.double .behindFirst (← toDouble v)).upper
  | 'g' => do p.double .inAll (← toDouble v)
  | 'G' => do .ok (← p.double .inAll (← toDouble v)).upper
  | 'c' => (toCodePoint v).map fun c => { body := [c] }
  | _ => .error (.unknown c place)

/-- Numbers may be filled up with zeros. -/
def isNumeric (c : Char) : Bool :=
  c != 's' && c != 'r' && c != 'a' && c != 'c'

/-- A converted value, filled up to the width: on the left with zeros behind the sign and the mark
of the base, or with blanks, or on the right with blanks. -/
def Placeholder.layout (p : Placeholder) (numeric : Bool) (c : Converted) : List CodePoint :=
  let missing := p.width - (c.sign.length + c.mark.length + c.body.length)
  let front : List CodePoint := CodePoint.ofChars (c.sign ++ c.mark)
  if p.left then front ++ c.body ++ List.replicate missing (.char ' ')
  else if p.zeros && numeric then front ++ List.replicate missing (.char '0') ++ c.body
  else List.replicate missing (.char ' ') ++ front ++ c.body

/-! ### Filling -/

/-- Nothing is left of a supply behind a placeholder, where fields may be asked of the argument. -/
def Supply.check (s : Supply) : Except Fault Unit :=
  if s.hasFields && s.next.isSome then .error .leftOver else .ok ()

/-- The placeholder in front, behind its percent sign, filled; with what is left to take and what
follows.  `size` is the length of the template. -/
def fillOne (size : Nat) (s : Supply) (cs : List Char) :
    Except Fault (List CodePoint × Supply × List Char) := do
  let (s, cs) ← readName s cs
  let flags := cs.takeWhile isFlag
  let (p, s, cs) ← readWidth (.ofFlags flags) s (cs.drop flags.length)
  let (p, s, cs) ← readPrecision p s cs
  match skipSize cs with
  | [] => .error .incomplete
  | c :: rest =>
    -- the argument is taken before the letter is looked at: of an unknown letter and a missing
    -- argument the second is told
    let (v, s) ← s.take
    let converted ← convert p (size - rest.length - 1) c v
    if roomLimit < p.width then .error .noRoom
    s.check
    .ok (p.layout (isNumeric c) converted, s, rest)

/-- The rest of a template filled; `fuel` is at least its length. -/
def fillFrom (size : Nat) : (fuel : Nat) → Supply → List Char → Except Fault (List CodePoint)
  | 0, _, _ => .ok []
  | _ + 1, s, [] => if s.next.isSome && !s.hasFields then .error .leftOver else .ok []
  -- a percent sign behind flags or a width is a letter of no conversion, not this one
  | fuel + 1, s, '%' :: '%' :: rest => do .ok (.char '%' :: (← fillFrom size fuel s rest))
  | fuel + 1, s, '%' :: rest => do
    let (filled, s, rest) ← fillOne size s rest
    .ok (filled ++ (← fillFrom size fuel s rest))
  | fuel + 1, s, c :: rest => do .ok (.char c :: (← fillFrom size fuel s rest))

/-- A template filled with an argument. -/
def fill (template : String) (v : Value) : Except Fault (List CodePoint) :=
  let cs := template.toList
  fillFrom cs.length (cs.length + 1) (.of v) cs

end BudgetReaper.Template
