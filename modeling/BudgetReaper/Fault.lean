import BudgetReaper.Decimal.Digits
import BudgetReaper.Value.Display
import BudgetReaper.Value.Fault

/-!
# Faults — what can go wrong outside

A fault is what a call to the cluster, to a gauge or to a credential source fails with: the server
rejects the call, the transport breaks, or something else goes wrong on the way.  `isRemote` holds
of the first two kinds, which a cluster call reports as its own failure; every other fault passes
through unchanged.
-/

namespace BudgetReaper

/-- How a transport breaks. -/
inductive Transport where
  | http
  | protocol
  | decode
  | timeout
  | tls
  deriving DecidableEq, Repr, Inhabited

/-- The name of a break of the transport. -/
def Transport.name : Transport → String
  | http => "HTTPError"
  | protocol => "ProtocolError"
  | decode => "DecodeError"
  | timeout => "TimeoutError"
  | tls => "SSLError"

/-- What a call fails with.  What stops the process itself is no fault: an interrupt from the keyboard
(`KeyboardInterrupt`) and the demand to exit (`SystemExit`) are no failures of a call, and end a program
wherever they meet it. -/
inductive Fault where
  /-- The server rejected the call. -/
  | rejected (status : Option Int) (reason : Option String)
  /-- No attempt to reach `url` succeeded. -/
  | retriesExhausted (url reason : String)
  /-- The transport broke. -/
  | transport (kind : Transport) (text : String)
  /-- A failure of a cluster call, reported as such by the one who serves it. -/
  | cluster (text : String)
  /-- A failure to record a sample. -/
  | metrics (text : String)
  /-- A failure to render a selector. -/
  | selector (text : String)
  /-- Credentials that cannot be used. -/
  | credentials (text : String)
  /-- A failure of the operating system. -/
  | system (text : String)
  /-- A value out of range. -/
  | value (text : String)
  /-- Any other failure. -/
  | runtime (text : String)
  /-- A part is absent of an object that the server holds. -/
  | absent (part : String)
  deriving DecidableEq, Repr, Inhabited

namespace Fault

/-- The status of a rejection of something that does not exist. -/
def notFoundStatus : Int := 404

/-- The object of the call does not exist. -/
def isNotFound : Fault → Bool
  | rejected status _ => status == some notFoundStatus
  | _ => false

/-- The server rejected the call or the transport broke. -/
def isRemote : Fault → Bool
  | rejected .. | retriesExhausted .. | transport .. => true
  | _ => false

/-- The name of a kind of fault. -/
def typeName : Fault → String
  | rejected .. => "ApiException"
  | retriesExhausted .. => "MaxRetryError"
  | transport kind _ => kind.name
  | cluster _ => "ClusterError"
  | metrics _ => "MetricsError"
  | selector _ => "SelectorError"
  | credentials _ => "ConfigException"
  | system _ => "OSError"
  | value _ => "ValueError"
  | runtime _ => "RuntimeError"
  | absent part => (Value.Fault.noPart Value.null.kindName part).typeName

/-- The text of a fault. -/
def message : Fault → String
  | rejected status reason =>
    "(" ++ ((status.map Decimal.text).getD "None") ++ ")\nReason: " ++ Text.orNone reason ++ "\n"
  | retriesExhausted url reason =>
    "None: Max retries exceeded with url: " ++ url ++ " (Caused by " ++ Text.quoted reason ++ ")"
  | transport _ text | cluster text | metrics text | selector text | credentials text
  | system text | value text | runtime text => text
  | absent part => (Value.Fault.noPart Value.null.kindName part).message

/-- The text of a fault where it is shown as a thing, with its kind; a rejection shows nothing. -/
def shown (f : Fault) : String :=
  match f with
  | rejected .. => f.typeName ++ "()"
  | _ => f.typeName ++ "(" ++ Text.quoted f.message ++ ")"

/-- A short text of the cause of a failed cluster call: the server's reason, or the kind and the
text of the break. -/
def describe : Fault → String
  | rejected _ reason => Text.orNone reason
  | f => f.typeName ++ ": " ++ f.message

theorem isRemote_of_isNotFound {f : Fault} (h : f.isNotFound = true) : f.isRemote = true := by
  cases f <;> first | rfl | cases h

end Fault

end BudgetReaper
