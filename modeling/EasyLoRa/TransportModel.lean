import Mathlib.Data.List.Basic

/-!
The host's `BasicSerialTransport`: the fields of its `Pimpl`, the stream it
drives, and the functions that run on its strand. A strand task is one atomic
step. User handlers are known by an identity and return normally, and memory does not
run out; `ThrowingHandlers` and `BufferReservation` add the exceptions of the frame and
write handlers and of `reserve`.
-/

namespace EasyLoRa.TransportModel

inductive ErrorCode where
  | success
  | notFound
  | eof
  | badFileDescriptor
  | badDescriptor
  | noSuchDevice
  | permissionDenied
  | other (value : Nat)
deriving DecidableEq, Repr

inductive WriteStatus where
  | scheduled
  | closed
  | queueFull
  | messageTooLong
deriving DecidableEq, Repr

inductive WriteResult where
  | written
  | failed
  | cancelled
deriving DecidableEq, Repr

inductive FatalErrors where
  | unpluggedDevice
  | permissionDenied
  | externallyClosedPort
deriving DecidableEq, Repr

inductive RecoverableErrors where
  | rxBufferFull
deriving DecidableEq, Repr

structure BufferConfig where
  rxBufferMaxSize : Nat
  txMaxElementsInQueue : Nat
  txMaxSizePerElement : Nat
deriving DecidableEq, Repr

def defaultBufferConfig : BufferConfig where
  rxBufferMaxSize := 1024
  txMaxElementsInQueue := 10
  txMaxSizePerElement := 512

/-- `Pimpl::State`. -/
inductive State where
  | opened
  | opening
  | closed
  | closing
  | faulted
deriving DecidableEq, Repr

/-- An accepted message. `call` numbers the `asyncWrite` call it comes from and
`session` is the session that call saw open; the code stores neither. -/
structure Write where
  toWrite : List UInt8
  packetID : Nat
  call : Nat
  session : Nat
deriving DecidableEq, Repr

/-- An `async_write` whose completion handler has not run: the generation it
captured and the queue element whose bytes it was given. -/
structure WriteOperation where
  generation : Nat
  element : Write
deriving DecidableEq, Repr

/-- Where a call of `asyncWrite` stands: about to check `closing` and `stopped`,
to check the size, to reserve a slot in `pendingWrites`, or to post its task. -/
inductive CallerPc where
  | checkingClosed
  | checkingSize
  | reserving
  | posting
deriving DecidableEq, Repr

structure Caller where
  pc : CallerPc
  write : Write
deriving DecidableEq, Repr

def Caller.isPosting (caller : Caller) : Bool := caller.pc = .posting

abbrev Handler := Nat

/-- What the public methods post to the strand. The destructor posts `close`. -/
inductive Request where
  | openPort (bufferConfig : BufferConfig)
  | close
  | setFrameHandler (handler : Option Handler)
  | setFatalErrorHandler (handler : Option Handler)
  | setRecuperableErrorHandler (handler : Option Handler)
  | setWriteHandler (handler : Option Handler)
deriving DecidableEq, Repr

inductive Task where
  | request (request : Request)
  | write (write : Write)
deriving DecidableEq, Repr

def Task.isWrite : Task → Bool
  | .request _ => false
  | .write _ => true

/-- What can be observed from outside, oldest first: results of `asyncWrite`, calls
of user handlers, operations on the stream, exceptions out of a strand task. -/
inductive Event where
  | returned (packetID : Nat) (status : WriteStatus)
  | frame (package : List UInt8)
  | fatalError (error : FatalErrors)
  | recuperableError (error : RecoverableErrors)
  | writeResult (result : WriteResult) (packetID : Nat)
  | handed (session : Nat) (write : Write)
  | streamOpen
  | streamCancel
  | streamClose
  | threw
deriving DecidableEq, Repr

/-- How the process can end: `std::terminate`, or undefined behaviour. -/
inductive Ending where
  | terminated
  | undefined
deriving DecidableEq, Repr

/-- What the stream answers to `open` and the five `set_option` calls. -/
inductive OpenOutcome where
  | openThrows
  | optionThrows (option : Fin 5)
  | succeeds
deriving DecidableEq, Repr

/-- The transport with its surroundings. `port` says whether the stream is open;
then come the fields of `Pimpl`, the outstanding operations, the tasks posted to
the strand and the `asyncWrite` calls in progress. `called` lists the packet IDs
of all calls so far, `session` numbers the successful open tasks and
`underflowed` says whether `pendingWrites` was ever decremented at zero. -/
structure Transport where
  port : Bool
  bufferConfig : BufferConfig
  rxBuffer : List UInt8
  txDeque : List Write
  frameHandler : Option Handler
  fatalErrorHandler : Option Handler
  recuperableErrorHandler : Option Handler
  writeHandler : Option Handler
  closing : Bool
  stopped : Bool
  generation : Nat
  pendingWrites : Nat
  currentState : State
  reads : List Nat
  writes : List WriteOperation
  posted : List Task
  callers : List Caller
  called : List Nat
  session : Nat
  underflowed : Bool
  events : List Event
  ended : Option Ending

def Transport.init : Transport where
  port := false
  bufferConfig := defaultBufferConfig
  rxBuffer := []
  txDeque := []
  frameHandler := none
  fatalErrorHandler := none
  recuperableErrorHandler := none
  writeHandler := none
  closing := false
  stopped := true
  generation := 0
  pendingWrites := 0
  currentState := .closed
  reads := []
  writes := []
  posted := []
  callers := []
  called := []
  session := 0
  underflowed := false
  events := []
  ended := none

def sizeMax : Nat := 0xFFFFFFFFFFFFFFFF

/-- `++generation`, a `size_t`. -/
def nextGeneration (generation : Nat) : Nat :=
  if generation = sizeMax then 0 else generation + 1

def fetchSub (count : Nat) : Nat := if count = 0 then sizeMax else count - 1

def releaseSlot (s : Transport) : Transport :=
  { s with
    pendingWrites := fetchSub s.pendingWrites
    underflowed := s.underflowed || s.pendingWrites = 0 }

def notify (handler : Option Handler) (event : Event) (s : Transport) : Transport :=
  if handler.isSome then { s with events := s.events ++ [event] } else s

def startRead (s : Transport) : Transport :=
  if s.closing || s.stopped then s else { s with reads := s.reads ++ [s.generation] }

def doWrite (s : Transport) : Transport :=
  if s.closing || s.stopped then s
  else
    match s.txDeque with
    | [] => s
    | w :: _ =>
        { s with
          writes := s.writes ++ [⟨s.generation, w⟩]
          events := s.events ++ [.handed s.session w] }

def stopAfterIoError (s : Transport) : Transport :=
  { s with
    stopped := true
    currentState := .faulted
    generation := nextGeneration s.generation
    rxBuffer := []
    txDeque := []
    port := false
    events := s.events ++ [.streamCancel, .streamClose] }

def isRecoverableError (ec : ErrorCode) : Bool := ec = .notFound

/-- `none` is the exception. -/
def clarifyFatalError : ErrorCode → Option FatalErrors
  | .eof => some .unpluggedDevice
  | .badFileDescriptor => some .externallyClosedPort
  | .badDescriptor => some .externallyClosedPort
  | .noSuchDevice => some .externallyClosedPort
  | .permissionDenied => some .permissionDenied
  | _ => none

def clarifyRecoverableError : ErrorCode → Option RecoverableErrors
  | .notFound => some .rxBufferFull
  | _ => none

def recoverFromError (s : Transport) : Transport := startRead { s with rxBuffer := [] }

/-- `dispatchError` is `noexcept`, so an exception inside it ends the process. -/
def dispatchError (s : Transport) (ec : ErrorCode) : Transport :=
  if isRecoverableError ec then
    match clarifyRecoverableError ec with
    | none => { s with ended := some .terminated }
    | some clarifiedError =>
        notify s.recuperableErrorHandler (.recuperableError clarifiedError) (recoverFromError s)
  else
    if s.fatalErrorHandler.isSome then
      match clarifyFatalError ec with
      | none => { stopAfterIoError s with ended := some .terminated }
      | some clarifiedError =>
          notify s.fatalErrorHandler (.fatalError clarifiedError) (stopAfterIoError s)
    else stopAfterIoError s

/-- `async_read_until` reports at most as many bytes as `rxBuffer` holds. -/
def handleRead (s : Transport) (ec : ErrorCode) (bytesRead operationGeneration : Nat) :
    Transport :=
  if s.closing || s.stopped || operationGeneration ≠ s.generation then s
  else if ec ≠ .success then dispatchError s ec
  else
    startRead { notify s.frameHandler (.frame (s.rxBuffer.take bytesRead)) s with
      rxBuffer := s.rxBuffer.drop bytesRead }

/-- `txDeque.front()` and `txDeque.pop_front()` are undefined on an empty queue. -/
def handleWrite (s : Transport) (ec : ErrorCode) (operationGeneration : Nat) : Transport :=
  if s.closing || s.stopped || operationGeneration ≠ s.generation then s
  else if ec ≠ .success then
    match s.writeHandler, s.txDeque with
    | none, _ => dispatchError (releaseSlot s) ec
    | some _, [] => { releaseSlot s with ended := some .undefined }
    | some _, w :: _ =>
        -- the front is reported and stays in the queue
        dispatchError
          (notify s.writeHandler (.writeResult .failed w.packetID) (releaseSlot s)) ec
  else
    match s.txDeque with
    | [] => { releaseSlot s with ended := some .undefined }
    | w :: rest =>
        let popped : Transport := {
          notify s.writeHandler (.writeResult .written w.packetID) (releaseSlot s) with
          txDeque := rest }
        if rest ≠ [] then doWrite popped else popped

/-- `serial.open` and the `set_option` calls: whether the stream is open
afterwards, and whether one of them threw. Opening an open port throws. -/
def openStream (port : Bool) : OpenOutcome → Bool × Bool
  | .openThrows => (port, true)
  | .optionThrows _ => (true, true)
  | .succeeds => (true, port)

/-- Where `serial.open` or a `set_option` throws, the exception is rethrown and the port
stays as it is. -/
def openOnStrand (s : Transport) (newBufferConfig : BufferConfig) (outcome : OpenOutcome) :
    Transport :=
  if s.closing then s
  else
    let reset : Transport := { s with
      generation := nextGeneration s.generation
      stopped := true
      currentState := .opening
      rxBuffer := []
      txDeque := []
      pendingWrites := 0
      bufferConfig := newBufferConfig }
    match openStream s.port outcome with
    | (port, true) =>
        { reset with
          port := port
          currentState := .faulted
          events := s.events ++ [.streamOpen, .threw] }
    | (port, false) =>
        startRead { reset with
          port := port
          stopped := false
          currentState := .opened
          session := s.session + 1
          events := s.events ++ [.streamOpen] }

def closeOnStrand (s : Transport) : Transport :=
  if s.closing then s
  else
    let closed : Transport := { s with
      closing := true
      stopped := true
      currentState := .closing
      generation := nextGeneration s.generation
      rxBuffer := []
      txDeque := []
      port := false
      events := s.events ++ [.streamCancel, .streamClose] }
    { closed with currentState := .closed }

def unlessClosing (s : Transport) (assigned : Transport) : Transport :=
  if s.closing then s else assigned

def setFrameHandler (s : Transport) (handler : Option Handler) : Transport :=
  unlessClosing s { s with frameHandler := handler }

def setFatalErrorHandler (s : Transport) (handler : Option Handler) : Transport :=
  unlessClosing s { s with fatalErrorHandler := handler }

def setRecuperableErrorHandler (s : Transport) (handler : Option Handler) : Transport :=
  unlessClosing s { s with recuperableErrorHandler := handler }

def setWriteHandler (s : Transport) (handler : Option Handler) : Transport :=
  unlessClosing s { s with writeHandler := handler }

def runWrite (s : Transport) (w : Write) : Transport :=
  if s.closing || s.stopped then
    notify s.writeHandler (.writeResult .cancelled w.packetID) (releaseSlot s)
  else if s.txDeque = [] then doWrite { s with txDeque := s.txDeque ++ [w] }
  else { s with txDeque := s.txDeque ++ [w] }

def runTask (s : Transport) (outcome : OpenOutcome) : Task → Transport
  | .request (.openPort bufferConfig) => openOnStrand s bufferConfig outcome
  | .request .close => closeOnStrand s
  | .request (.setFrameHandler handler) => setFrameHandler s handler
  | .request (.setFatalErrorHandler handler) => setFatalErrorHandler s handler
  | .request (.setRecuperableErrorHandler handler) => setRecuperableErrorHandler s handler
  | .request (.setWriteHandler handler) => setWriteHandler s handler
  | .write w => runWrite s w

def isOpen (s : Transport) : Bool := s.currentState = .opened

end EasyLoRa.TransportModel
