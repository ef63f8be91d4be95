/-!
# Failures

What can go wrong between a producer, the broker and a consumer, with the wording of each.
-/

namespace Switchboard

inductive Failure where
  | consumerNotFound
  | consumerAlreadyExists
  | messageNotFound
  | answerNotFound
  | peerNotFound (address : String)
  | commandNotFound (name : String)
  | invalidCommand (reason : String)
  | truncatedPacket (length : Nat)
  | sendFailure (reason : String)
  | timeout (id : UInt32)
  | connection (reason : String)
deriving DecidableEq, Repr

namespace Failure

def message : Failure → String
  | consumerNotFound => "consumer not found"
  | consumerAlreadyExists => "consumer already exists"
  | messageNotFound => "message not found"
  | answerNotFound => "answer not found"
  | peerNotFound address => s!"peer {address} not found"
  | commandNotFound name => s!"command '{name}' not found"
  | invalidCommand reason => s!"invalid command: {reason}"
  | truncatedPacket length => s!"truncated packet: got {length} bytes, need at least 4"
  | sendFailure reason => s!"send failed: {reason}"
  | timeout id => s!"request {id} timed out"
  | connection reason => s!"connection error: {reason}"

/-- Something that was looked up is absent. Such failures are part of normal operation. -/
def isNotFound : Failure → Bool
  | consumerNotFound | messageNotFound | answerNotFound | peerNotFound _ | commandNotFound _ => true
  | _ => false

end Failure

end Switchboard
