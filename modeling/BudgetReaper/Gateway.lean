import BudgetReaper.Fault
import BudgetReaper.Gauge.Exposition

/-!
# Gateway — delivering samples

Samples are delivered in one request to a gateway: the exposition text under the job's name.  The
gateway answers with a status, the request breaks on its way, or something else fails; only the
last is not a failure of delivery (`Delivery`).
-/

namespace BudgetReaper

/-- One request to the gateway. -/
structure Push where
  url : String
  body : String
  deriving DecidableEq, Repr, Inhabited

namespace Push

/-- The type of the body. -/
def contentType : String := "text/plain; version=1.0.0; charset=utf-8"

/-- The seconds after which a request is given up. -/
def timeout : Int := 10

/-- The request as an object. -/
def toValue (p : Push) : Value :=
  .object [("url", .str p.url), ("data", .str p.body),
    ("headers", .object [("Content-Type", .str contentType)]), ("timeout", .int timeout)]

end Push

namespace Gateway

/-- How a request ends. -/
inductive Answer where
  /-- The gateway answers. -/
  | response (status : Int) (reason : Option String)
  /-- The request breaks on its way. -/
  | broken (text : String)
  /-- Something else fails. -/
  | raised (f : Fault)
  deriving DecidableEq, Repr, Inhabited

/-- The answer when nothing is wrong. -/
def accepted : Answer :=
  .response 200 (some "OK")

/-- What came of a delivery. -/
inductive Delivery where
  | done
  | refused (error : String)
  | raised (f : Fault)
  deriving DecidableEq, Repr, Inhabited

/-- Who is to blame for a status that is an error. -/
def blame? (status : Int) : Option String :=
  if 400 ≤ status ∧ status < 500 then some "Client Error"
  else if 500 ≤ status ∧ status < 600 then some "Server Error"
  else none

/-- What an answer to a request at `url` means for the delivery. -/
def outcome (url : String) : Answer → Delivery
  | .broken text => .refused text
  | .raised f => .raised f
  | .response status reason =>
    match blame? status with
    | none => .done
    | some blame =>
      .refused (Decimal.text status ++ " " ++ blame ++ ": " ++ Text.orNone reason ++
        " for url: " ++ url)

/-- The address of a gateway without slashes at its end; none if nothing is left. -/
def address? (url : String) : Option String :=
  match Text.trimRight (· == '/') url.toList with
  | [] => none
  | cs => some (String.ofList cs)

/-- The address that a value gives: none for one that is nothing. -/
def addressOf : Value → Except Value.Fault (Option String)
  | .str url => .ok (address? url)
  | v => if v.isNothing then .ok none else .error (.noPart v.kindName "rstrip")

/-- The address of the samples of a job. -/
def target (address job : String) : String :=
  address ++ "/metrics/job/" ++ job

end Gateway

end BudgetReaper
