import BudgetReaper.Binary64.Shortest
import BudgetReaper.Gauge.Registry

/-!
# Gauges — exposition text

The text in which a registry is read and delivered: for each gauge a line of help, a line of its
type and a line for each sample, all in order of first use.  A name keeps its letters, digits, low
lines and colons; every other character, and a digit in front, becomes a low line.  One line feed
is spared, at the end of a name that is plain otherwise.
-/

namespace BudgetReaper.Exposition

/-- The gauge that a run sets. -/
def resultName : String := "governor_pdb_reaper_result"

/-- What a gauge measures, in one line: the name itself for a gauge that is not known. -/
def description (name : String) : String :=
  if name = resultName then "Result of pdb-reaper evaluation per PodDisruptionBudget and reason"
  else name

/-! ### Names and texts -/

/-- A character of a name, behind the first. -/
def isNameChar (c : Char) : Bool :=
  c.isAlphanum || c == '_' || c == ':'

/-- A character that a name may begin with. -/
def isNameStart (c : Char) : Bool :=
  c.isAlpha || c == '_' || c == ':'

/-- A name that is written as it is. -/
def isPlainName : List Char → Bool
  | [] => false
  | c :: rest => isNameStart c && rest.all isNameChar

/-- The text with every other character replaced by a low line. -/
def replaced : List Char → List Char
  | [] => []
  | c :: rest =>
    (if isNameStart c then c else '_') :: rest.map fun c => if isNameChar c then c else '_'

/-- A name as it is written; a plain name keeps a line feed at its end. -/
def escapedName (cs : List Char) : List Char :=
  if cs.getLast? = some '\n' ∧ isPlainName cs.dropLast then cs else replaced cs

/-- A plain name is its own written form. -/
theorem escapedName_of_isPlainName {cs : List Char} (h : isPlainName cs = true) :
    escapedName cs = cs := by
  unfold escapedName
  split
  · rfl
  · cases cs with
    | nil => rfl
    | cons c rest =>
      simp only [isPlainName, Bool.and_eq_true, List.all_eq_true] at h
      obtain ⟨start, others⟩ := h
      have kept : ∀ d ∈ rest, (if isNameChar d then d else '_') = d := fun d hd => by
        simp [others d hd]
      simp [replaced, start, List.map_congr_left kept]

/-- A text of a help line. -/
def escapedHelp (cs : List Char) : List Char :=
  cs.flatMap fun c => if c = '\\' then ['\\', '\\'] else if c = '\n' then ['\\', 'n'] else [c]

/-- The value of a label. -/
def escapedLabel (cs : List Char) : List Char :=
  cs.flatMap fun c =>
    if c = '\\' then ['\\', '\\']
    else if c = '\n' then ['\\', 'n']
    else if c = '"' then ['\\', '"']
    else [c]

/-! ### Values -/

/-- A text with more than six digits before its point as one digit, the others without zeros at
the end, and the exponent in two digits. -/
def scientific (whole fraction : List Char) : List Char :=
  let digits := Text.trimRight (fun c => c == '0' || c == '.')
    (whole.take 1 ++ '.' :: (whole.drop 1 ++ fraction))
  let e := Decimal.ofNat (whole.length - 1)
  digits ++ 'e' :: '+' :: (if e.length < 2 then '0' :: e else e)

/-- The text of the value of a sample. -/
def valueText : Binary64 → List Char
  | .nan => "NaN".toList
  | .infinite negative => (if negative then "-Inf" else "+Inf").toList
  | x =>
    let cs := x.text.toList
    match Binary64.splitFirst (· == '.') cs with
    | (whole, some fraction) =>
      if x.isPositive && 6 < whole.length then scientific whole fraction else cs
    | _ => cs

/-! ### Lines -/

/-- The line of a sample. -/
def sampleLine (name : List Char) (labels : Labels) (x : Binary64) : List Char :=
  let label (key : String) (value : String) : List Char :=
    key.toList ++ '=' :: '"' :: escapedLabel value.toList ++ ['"']
  name ++ '\x7b' :: label "namespace" labels.space ++ ',' :: label "pdb" labels.budget ++
    ',' :: label "reason" labels.reason ++ '\x7d' :: ' ' :: valueText x ++ ['\n']

/-- The lines of a gauge. -/
def gaugeLines (name : String) (samples : List (Labels × Binary64)) : List Char :=
  let escaped := escapedName name.toList
  "# HELP ".toList ++ escaped ++ ' ' :: escapedHelp (description name).toList ++ '\n' ::
    "# TYPE ".toList ++ escaped ++ " gauge\n".toList ++
    samples.flatMap fun (labels, x) => sampleLine escaped labels x

/-- The exposition text of a registry. -/
def text (r : Registry) : String :=
  String.ofList (r.gauges.flatMap fun (name, samples) => gaugeLines name samples)

end BudgetReaper.Exposition
