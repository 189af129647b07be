import EasyLoRa.TransportModel
import EasyLoRa.TransitionSystem

/-!
The transport in its surroundings: any number of threads inside `asyncWrite`,
tasks posted to the strand, and a stream that completes the operations started
on it. Strand tasks and completion handlers run one at a time.
-/

namespace EasyLoRa.TransportSystem

open EasyLoRa.TransportModel

/-- `asyncWrite` enters the method, `advance` performs the next step of the call
at place `i`, `post` is any other public method, `run` takes the task at place
`i` of the strand (the outcome is used by an open task), `receive` lets an
outstanding read append bytes to `rxBuffer`, and the last two run a completion
handler. -/
inductive Action where
  | asyncWrite (toWrite : List UInt8) (packetID : Nat)
  | advance (i : Nat)
  | post (request : Request)
  | run (i : Nat) (outcome : OpenOutcome)
  | receive (bytes : List UInt8)
  | completeRead (i : Nat) (ec : ErrorCode) (bytesRead : Nat)
  | completeWrite (i : Nat) (ec : ErrorCode)
deriving DecidableEq, Repr

def returnStatus (s : Transport) (i : Nat) (caller : Caller) (status : WriteStatus) :
    Transport :=
  { s with
    callers := s.callers.eraseIdx i
    events := s.events ++ [.returned caller.write.packetID status] }

/-- The next step of the `asyncWrite` call at place `i`. Reserving a slot is the
iteration of the compare-exchange loop that leaves the loop; the others change
nothing. -/
def advanceCaller (s : Transport) (i : Nat) (caller : Caller) : Transport :=
  match caller.pc with
  | .checkingClosed =>
      if s.closing || s.stopped then returnStatus s i caller .closed
      else
        { s with
          callers := s.callers.set i
            { pc := .checkingSize, write := { caller.write with session := s.session } } }
  | .checkingSize =>
      if s.bufferConfig.txMaxSizePerElement < caller.write.toWrite.length then
        returnStatus s i caller .messageTooLong
      else { s with callers := s.callers.set i { caller with pc := .reserving } }
  | .reserving =>
      if s.bufferConfig.txMaxElementsInQueue ≤ s.pendingWrites then
        returnStatus s i caller .queueFull
      else
        { s with
          callers := s.callers.set i { caller with pc := .posting }
          pendingWrites := s.pendingWrites + 1 }
  | .posting =>
      returnStatus { s with posted := s.posted ++ [.write caller.write] } i caller .scheduled

/-- One step of the system. Nothing happens once the process has ended. -/
def step (s : Transport) (a : Action) : Option Transport :=
  if s.ended.isSome then none
  else
    match a with
    | .asyncWrite toWrite packetID =>
        some { s with
          callers := s.callers ++
            [⟨.checkingClosed, ⟨toWrite, packetID, s.called.length, s.session⟩⟩]
          called := s.called ++ [packetID] }
    | .advance i => s.callers[i]?.map fun caller => advanceCaller s i caller
    | .post request => some { s with posted := s.posted ++ [.request request] }
    | .run i outcome =>
        s.posted[i]?.map fun task =>
          runTask { s with posted := s.posted.eraseIdx i } outcome task
    | .receive bytes =>
        if s.reads = [] then none else some { s with rxBuffer := s.rxBuffer ++ bytes }
    | .completeRead i ec bytesRead =>
        s.reads[i]?.map fun operationGeneration =>
          handleRead { s with reads := s.reads.eraseIdx i } ec bytesRead operationGeneration
    | .completeWrite i ec =>
        s.writes[i]?.map fun operation =>
          handleWrite { s with writes := s.writes.eraseIdx i } ec operation.generation

end EasyLoRa.TransportSystem
