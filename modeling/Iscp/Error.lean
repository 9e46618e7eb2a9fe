import Iscp.Message

/-!
# Errors

`Error` of `error.rs`; the payload of the two foreign errors is their text.
-/

namespace Iscp

inductive Error
  | transport (msg : String)
  | tokenSource (msg : String)
  | failedMessage (resultCode : ResultCode) (detail : String)
  | timeout (msg : String)
  | connectionClosed
  | cancelledByClose
  | streamClosed
  | unexpected (msg : String)
  | invalidValue (msg : String)
  | reordering (streamId : Uuid)
deriving DecidableEq

namespace Error

def canRetry : Error → Bool
  | transport _ | connectionClosed | cancelledByClose => true
  | _ => false

/-- Whether the resume loop tries again after this error. -/
def canRetryResume (e : Error) : Bool :=
  e.canRetry || match e with
    | timeout _ | unexpected _ => true
    | _ => false

def resultCode : Error → Option ResultCode
  | failedMessage code _ => some code
  | _ => none

/-- An error that carries a result code is never retried. -/
theorem canRetryResume_eq_false_of_resultCode {e : Error} (h : e.resultCode.isSome) :
    e.canRetryResume = false := by
  cases e <;> simp_all [resultCode, canRetryResume, canRetry]

end Error
end Iscp
