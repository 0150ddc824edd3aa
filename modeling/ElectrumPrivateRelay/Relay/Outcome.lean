/-! What a relay adapter answers to one submission. -/

set_option autoImplicit false

namespace ElectrumPrivateRelay.Relay

inductive RelayErrorKind where
  | disabled
  | failed
  deriving DecidableEq, Repr

structure RelayError where
  kind : RelayErrorKind
  deriving DecidableEq, Repr

def RelayError.disabled : RelayError := ⟨.disabled⟩

def RelayError.failed : RelayError := ⟨.failed⟩

inductive Outcome where
  | ok (transactionId : String)
  | err (error : RelayError)
  deriving DecidableEq, Repr

/-- The safe default adapter: no submission leaves the process. -/
def RejectRelay.broadcast (_rawTransaction : String) : Outcome := .err .disabled

end ElectrumPrivateRelay.Relay
