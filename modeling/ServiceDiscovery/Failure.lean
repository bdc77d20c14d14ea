import ServiceDiscovery.Message
/-!
# Failures

What can go wrong between a client and its discovery server, each with the sentence that reports it.
Callers who ask for endpoints only ever see the first kind; a watch absorbs all the others.
-/

namespace ServiceDiscovery

inductive ConnectionFailure where
  | invalidAddress
  /-- What follows the last colon of the address is no port. -/
  | invalidPort
  | invalidName
  | unknownName
  | nameServiceUnavailable
  | refused
  | unreachable
  /-- Somebody else is listening at the address already. -/
  | addressInUse
  /-- The peer broke the connection off, with a reason of its own. -/
  | reset (reason : String)
  | lineTooLong
  | notText
  | malformed (reason : Json.Error)
  deriving DecidableEq, Repr

namespace ConnectionFailure

/-- What sort of failure it is, for those who do not need to know more. -/
inductive Kind where
  | invalidInput
  | uncategorized
  | refused
  | unreachable
  | addressInUse
  | reset
  | invalidData
  deriving DecidableEq, Repr

def kind : ConnectionFailure → Kind
  | invalidAddress | invalidPort | invalidName => .invalidInput
  | unknownName | nameServiceUnavailable => .uncategorized
  | refused => .refused
  | unreachable => .unreachable
  | addressInUse => .addressInUse
  | reset _ => .reset
  | lineTooLong | notText | malformed _ => .invalidData

/-- The sentence that reports it. A malformed line is reported without the place in it at which
reading stopped. -/
def message : ConnectionFailure → String
  | invalidAddress => "invalid socket address"
  | invalidPort => "invalid port value"
  | invalidName => "file name contained an unexpected NUL byte"
  | unknownName => "failed to lookup address information: Name or service not known"
  | nameServiceUnavailable =>
    "failed to lookup address information: Temporary failure in name resolution"
  | refused => "Connection refused (os error 111)"
  | unreachable => "Network is unreachable (os error 101)"
  | addressInUse => "Address already in use (os error 98)"
  | reset reason => reason
  | lineTooLong => "max line length exceeded"
  | notText => "Unable to decode input as UTF8"
  | malformed reason => reason.message

end ConnectionFailure

inductive Failure where
  /-- No response has been accepted for the service yet. -/
  | notYetDiscovered (service : String)
  | connection (cause : ConnectionFailure)
  | decode (cause : DecodeFailure)
  | streamEnded
  /-- The client was made where nothing can run its watches. -/
  | noRuntime
  deriving DecidableEq, Repr

namespace Failure

def message : Failure → String
  | notYetDiscovered service => "endpoints not yet discovered for " ++ service
  | connection cause => "discovery connection error: " ++ cause.message
  | decode cause => cause.message
  | streamEnded => "discovery stream ended"
  | noRuntime =>
    "no tokio runtime available: there is no reactor running, must be called from the context of a "
      ++ "Tokio 1.x runtime"

end Failure

end ServiceDiscovery
