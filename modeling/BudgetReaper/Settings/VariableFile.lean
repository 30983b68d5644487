import BudgetReaper.Failure
import BudgetReaper.Settings.Environment

/-!
# Settings — files of variables

A file of variables is a sequence of bindings, behind an optional byte order mark.  A binding has a
key, which may stand between apostrophes and behind the word `export`, and a value behind an equals
sign: between apostrophes or double quotes, with escapes and over several lines, or the rest of the
line up to a comment.  A line that is no binding is skipped.  `${NAME}` and `${NAME:-default}` in a
value stand for a variable: that of the environment, else that of an earlier binding, else the
default.

`load` extends the environment by the bindings whose keys are not set.  Of bindings of one key the
last counts; a key without a value sets nothing.  A variable of the environment switches all of
this off (`isOff`).

The grammar and the order of the bindings are those that the package `dotenv` documents for its
`load_dotenv`.
-/

namespace BudgetReaper.VariableFile

open BudgetReaper.Text

/-! ### Characters and lines -/

/-- A blank within a line. -/
def isLineBlank (c : Char) : Bool :=
  isBlank c && c != '\n' && c != '\r'

/-- The text with every line end written as a line feed. -/
def unifyLineEnds : List Char → List Char
  | [] => []
  | '\r' :: '\n' :: rest => '\n' :: unifyLineEnds rest
  | '\r' :: rest => '\n' :: unifyLineEnds rest
  | c :: rest => c :: unifyLineEnds rest

/-- The text without a byte order mark in front. -/
def skipMark : List Char → List Char
  | '\ufeff' :: rest => rest
  | cs => cs

/-- What follows the blanks of the line in front. -/
def skipLineBlanks (cs : List Char) : List Char :=
  cs.dropWhile isLineBlank

/-- What follows the line in front. -/
def skipLine (cs : List Char) : List Char :=
  (cs.dropWhile (· != '\n')).drop 1

/-! ### Quoted values -/

/-- `cs` before the quote that closes it, and what follows the quote; a backslash takes the
character behind it along, whatever it is.  `done` holds what has been read, in reverse, and
`escaped` whether such a backslash is in front of `cs`. -/
def closeFrom (quote : Char) (done : List Char) (escaped : Bool) :
    List Char → Option (List Char × List Char)
  | [] => none
  | c :: rest =>
    if escaped then closeFrom quote (c :: done) false rest
    else if c = quote then some (done.reverse, rest)
    else closeFrom quote (c :: done) (c == '\\') rest

/-- The text up to the quote that closes it, and what follows the quote. -/
def close (quote : Char) (cs : List Char) : Option (List Char × List Char) :=
  closeFrom quote [] false cs

/-- The character of an escape between apostrophes. -/
def singleEscape? : Char → Option Char
  | '\\' => some '\\'
  | '\'' => some '\''
  | _ => none

/-- The character of an escape between double quotes. -/
def doubleEscape? : Char → Option Char
  | '\\' => some '\\'
  | '\'' => some '\''
  | '"' => some '"'
  | 'a' => some '\x07'
  | 'b' => some '\x08'
  | 'f' => some '\x0c'
  | 'n' => some '\n'
  | 'r' => some '\r'
  | 't' => some '\t'
  | 'v' => some '\x0b'
  | _ => none

/-- The text with its escapes resolved; a backslash in front of any other character stands for
itself. -/
def unescape (escape? : Char → Option Char) : List Char → List Char
  | [] => []
  | ['\\'] => ['\\']
  | '\\' :: c :: rest =>
    match escape? c with
    | some r => r :: unescape escape? rest
    | none => '\\' :: unescape escape? (c :: rest)
  | c :: rest => c :: unescape escape? rest

/-! ### Values -/

/-- The text before its first number sign behind a blank; `afterBlank` is whether a blank is in
front of the text. -/
def beforeComment (afterBlank : Bool) : List Char → List Char
  | [] => []
  | c :: rest =>
    if c = '#' ∧ afterBlank = true then [] else c :: beforeComment (isBlank c) rest

/-- The value in front and what follows it; none if a quote is not closed. -/
def readValue? (afterBlank : Bool) : List Char → Option (List Char × List Char)
  | '\'' :: rest => (close '\'' rest).map fun (v, rest) => (unescape singleEscape? v, rest)
  | '"' :: rest => (close '"' rest).map fun (v, rest) => (unescape doubleEscape? v, rest)
  | cs =>
    let line := cs.takeWhile (· != '\n')
    some (trimRight isBlank (beforeComment afterBlank line), cs.dropWhile (· != '\n'))

/-! ### Bindings -/

/-- A key, and its value if it has one. -/
structure Binding where
  key : List Char
  value : Option (List Char)
  deriving DecidableEq, Repr, Inhabited

/-- What follows the word `export` and its blanks in front. -/
def skipExport (cs : List Char) : List Char :=
  match cs with
  | 'e' :: 'x' :: 'p' :: 'o' :: 'r' :: 't' :: c :: rest =>
    if isLineBlank c then skipLineBlanks rest else cs
  | _ => cs

/-- A character of a key without quotes. -/
def isKeyChar (c : Char) : Bool :=
  c != '=' && c != '#' && !isBlank c

/-- The key in front, none in front of a comment, and what follows; or where reading stopped. -/
def readKey (cs : List Char) : Except (List Char) (Option (List Char) × List Char) :=
  match cs with
  | '#' :: _ => .ok (none, cs)
  | '\'' :: rest =>
    let key := rest.takeWhile (· != '\'')
    match rest.dropWhile (· != '\'') with
    | [] => .error cs
    | _ :: rest => if key.isEmpty then .error cs else .ok (some key, rest)
  | _ =>
    let key := cs.takeWhile isKeyChar
    if key.isEmpty then .error cs else .ok (some key, cs.dropWhile isKeyChar)

/-- What follows the end of the line, behind an optional comment; or else where reading stopped. -/
def readLineEnd (cs : List Char) : Except (List Char) (List Char) :=
  let behind := match skipLineBlanks cs with
    | '#' :: rest => rest.dropWhile (· != '\n')
    | _ => cs
  match skipLineBlanks behind with
  | [] => .ok []
  | '\n' :: rest => .ok rest
  | _ => .error behind

/-- The value behind an equals sign, if there is one, and what follows; or else where reading
stopped. -/
def readAssignment (cs : List Char) : Except (List Char) (Option (List Char) × List Char) :=
  match cs with
  | '=' :: rest =>
    let value := skipLineBlanks rest
    match readValue? (rest.head?.any isLineBlank) value with
    | some (value, rest) => .ok (some value, rest)
    | none => .error value
  | _ => .ok (none, cs)

/-- The binding in front, none for a comment, and what follows it; or else where reading
stopped. -/
def readBinding (cs : List Char) : Except (List Char) (Option Binding × List Char) := do
  let (key, rest) ← readKey (skipExport cs)
  let (value, rest) ← readAssignment (skipLineBlanks rest)
  let rest ← readLineEnd rest
  .ok (key.map ({ key := ·, value }), rest)

/-- The bindings of a text, at most `fuel` of them with the lines that are none. -/
def bindingsFrom : (fuel : Nat) → List Char → List Binding
  | 0, _ => []
  | fuel + 1, cs =>
    match cs.dropWhile isBlank with
    | [] => []
    | cs =>
      match readBinding cs with
      | .ok (some b, rest) => b :: bindingsFrom fuel rest
      | .ok (none, rest) => bindingsFrom fuel rest
      | .error rest => bindingsFrom fuel (skipLine rest)

/-- The bindings of a text. -/
def bindings (s : String) : List Binding :=
  let cs := unifyLineEnds (skipMark s.toList)
  bindingsFrom (cs.length + 1) cs

/-! ### Variables in values -/

/-- The name and the default of the variable in front, behind its opening brace, and what follows
it. -/
def readReference? (cs : List Char) : Option (List Char × List Char × List Char) :=
  let name := cs.takeWhile fun c => c != '\x7d' && c != ':'
  match cs.dropWhile fun c => c != '\x7d' && c != ':' with
  | '\x7d' :: rest => some (name, [], rest)
  | ':' :: '-' :: rest =>
    match rest.dropWhile (· != '\x7d') with
    | _ :: after => some (name, rest.takeWhile (· != '\x7d'), after)
    | [] => none
  | _ => none

/-- The text with its variables replaced by what `find` gives for a name and a default. -/
def expandFrom (find : List Char → List Char → List Char) :
    (fuel : Nat) → List Char → List Char
  | 0, cs => cs
  | _ + 1, [] => []
  | fuel + 1, '$' :: '\x7b' :: rest =>
    match readReference? rest with
    | some (name, default, after) => find name default ++ expandFrom find fuel after
    | none => '$' :: expandFrom find fuel ('\x7b' :: rest)
  | fuel + 1, c :: rest => c :: expandFrom find fuel rest

/-- The text with its variables replaced. -/
def expand (find : List Char → List Char → List Char) (cs : List Char) : List Char :=
  expandFrom find cs.length cs

/-- What a variable stands for: its value in the environment, else in the bindings so far, else
the default. -/
def find (env : Environment) (known : List (String × Option String)) (name default : List Char) :
    List Char :=
  match Assoc.get? env (String.ofList name) with
  | some v => v.toList
  | none =>
    match Assoc.get? known (String.ofList name) with
    | some v => (v.getD "").toList
    | none => default

/-- The values of the keys, with their variables replaced by what comes before them. -/
def resolve (env : Environment) (known : List (String × Option String)) :
    List Binding → List (String × Option String)
  | [] => known
  | b :: rest =>
    let value := b.value.map fun v => String.ofList (expand (find env known) v)
    resolve env (Assoc.put known (String.ofList b.key) value) rest

/-! ### The environment -/

/-- The environment with a variable, unless it is set already or has no value. -/
def setNew (env : Environment) (key : String) (value : Option String) :
    Except EnvironmentFault Environment :=
  match Assoc.get? env key, value with
  | some _, _ => .ok env
  | none, none => .ok env
  | none, some v =>
    if key.toList.contains '\x00' || v.toList.contains '\x00' then .error .embeddedNull
    else if key.toList.contains '=' then .error .illegalName
    else .ok (Assoc.put env key v)

/-- The environment with the variables that are not set yet. -/
def setAll (env : Environment) :
    List (String × Option String) → Except EnvironmentFault Environment
  | [] => .ok env
  | (key, value) :: rest => do setAll (← setNew env key value) rest

/-- The variable that switches files of variables off. -/
def switchName : String := "PYTHON_DOTENV_DISABLED"

/-- The values of that variable that do so, in any case. -/
def offWords : List String :=
  ["1", "true", "t", "yes", "y"]

/-- A character without its case, for the characters that are a letter of these words in some
case. -/
def caseless (c : Char) : Char :=
  if c = 'ſ' then 's' else c.toLower

/-- Files of variables are switched off. -/
def isOff (env : Environment) : Bool :=
  match Assoc.get? env switchName with
  | none => false
  | some raw => offWords.contains (String.ofList (raw.toList.map caseless))

/-- The environment extended by the text of a file. -/
def load (env : Environment) (s : String) : Except EnvironmentFault Environment :=
  if isOff env then .ok env else setAll env (resolve env [] (bindings s))

end BudgetReaper.VariableFile
