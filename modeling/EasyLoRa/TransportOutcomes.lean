import EasyLoRa.TransportSystem

namespace EasyLoRa.TransportOutcomes

open EasyLoRa.TransportModel
open EasyLoRa.TransportSystem

def calls (handler : Option Handler) (event : Event) : List Event :=
  if handler.isSome then [event] else []

def fatalCalls (handler : Option Handler) (ec : ErrorCode) : List Event :=
  if handler.isSome then ((clarifyFatalError ec).map Event.fatalError).toList else []

theorem eq_of_mem_calls {handler : Option Handler} {event other : Event}
    (h : other ∈ calls handler event) : other = event := by
  cases handler with
  | none => simp [calls] at h
  | some handler => simpa [calls] using h

theorem fatalError_of_mem_fatalCalls {handler : Option Handler} {ec : ErrorCode} {event : Event}
    (h : event ∈ fatalCalls handler ec) : ∃ error, event = .fatalError error := by
  unfold fatalCalls at h
  split at h
  · cases hknown : clarifyFatalError ec with
    | none => simp [hknown] at h
    | some error => exact ⟨error, by simpa [hknown] using h⟩
  · simp at h

/-- A failed write is reported to the write handler and to nobody else. -/
theorem failed_of_mem_failure {s : Transport} {failure : List Event} {event : Event}
    (hfailure : ∀ w rest, s.txDeque = w :: rest →
      failure = calls s.writeHandler (.writeResult .failed w.packetID))
    (hnone : s.txDeque = [] → failure = [] ∧ s.writeHandler = none) (h : event ∈ failure) :
    ∃ packetID, event = .writeResult .failed packetID := by
  cases hqueue : s.txDeque with
  | nil => simp [(hnone hqueue).1] at h
  | cons w rest =>
      rw [hfailure w rest hqueue] at h
      exact ⟨w.packetID, eq_of_mem_calls h⟩

/-- A failed write is reported to the write handler, to neither error handler. -/
theorem countP_failure_eq_zero {s : Transport} {failure : List Event} {p : Event → Bool}
    (hfailure : ∀ w rest, s.txDeque = w :: rest →
      failure = calls s.writeHandler (.writeResult .failed w.packetID))
    (hnone : s.txDeque = [] → failure = [] ∧ s.writeHandler = none)
    (hp : ∀ result packetID, p (.writeResult result packetID) = false) :
    failure.countP p = 0 := by
  rw [List.countP_eq_zero]
  intro event hevent
  obtain ⟨packetID, rfl⟩ := failed_of_mem_failure hfailure hnone hevent
  simp [hp]

def isFatalError : Event → Bool
  | .fatalError _ => true
  | _ => false

/-- An unknown error with a handler installed ends the process. -/
def fatalEnding (handler : Option Handler) (ec : ErrorCode) : Option Ending :=
  if handler.isSome ∧ clarifyFatalError ec = none then some .terminated else none

/-- A completion handler of this generation is not ignored. -/
def Live (s : Transport) (operationGeneration : Nat) : Prop :=
  s.closing = false ∧ s.stopped = false ∧ operationGeneration = s.generation

instance (s : Transport) (operationGeneration : Nat) : Decidable (Live s operationGeneration) :=
  inferInstanceAs (Decidable (_ ∧ _))

def opening (s : Transport) (i : Nat) : Bool :=
  match s.posted[i]? with
  | some (.request (.openPort _)) => !s.closing
  | _ => false

def succeeding (s : Transport) (i : Nat) (outcome : OpenOutcome) : Bool :=
  opening s i && !s.port && outcome = .succeeds

def starting (s : Transport) (i : Nat) : Bool :=
  match s.posted[i]? with
  | some (.write _) => !s.closing && !s.stopped && s.txDeque = []
  | _ => false

/-- The write at place `i` completes with the recoverable error in its session. The
completion is undefined behaviour where a handler is to be told of a front that
is not there. -/
def recovering (s : Transport) (i : Nat) (ec : ErrorCode) : Bool :=
  match s.writes[i]? with
  | some operation =>
      Live s operation.generation ∧ ec = .notFound ∧ (s.txDeque ≠ [] ∨ s.writeHandler = none)
  | none => false

def failing (s : Transport) (i : Nat) (ec : ErrorCode) : Bool :=
  match s.writes[i]? with
  | some operation => Live s operation.generation ∧ ec ≠ .success
  | none => false

/-- The steps that end a session, or keep one from beginning, from outside its
writes: an open task, a close task, a read that fails for good. They clear
`txDeque`. -/
def interrupts (s : Transport) : Action → Bool
  | .run i _ => opening s i || (s.posted[i]? = some (.request .close) && !s.closing)
  | .completeRead i ec _ =>
      match s.reads[i]? with
      | some operationGeneration => Live s operationGeneration ∧ ec ≠ .success ∧ ec ≠ .notFound
      | none => false
  | _ => false

/-- Why an `asyncWrite` call returns without having posted a task. -/
def Refuses (s : Transport) (caller : Caller) : WriteStatus → Prop
  | .scheduled => False
  | .closed => caller.pc = .checkingClosed ∧ (s.closing = true ∨ s.stopped = true)
  | .messageTooLong =>
      caller.pc = .checkingSize ∧
        s.bufferConfig.txMaxSizePerElement < caller.write.toWrite.length
  | .queueFull =>
      caller.pc = .reserving ∧ s.bufferConfig.txMaxElementsInQueue ≤ s.pendingWrites

inductive Assigns (s : Transport) : Request → Option Handler → Option Handler →
    Option Handler → Option Handler → Prop where
  | frame (handler : Option Handler) :
      Assigns s (.setFrameHandler handler) handler s.fatalErrorHandler
        s.recuperableErrorHandler s.writeHandler
  | fatalError (handler : Option Handler) :
      Assigns s (.setFatalErrorHandler handler) s.frameHandler handler
        s.recuperableErrorHandler s.writeHandler
  | recuperableError (handler : Option Handler) :
      Assigns s (.setRecuperableErrorHandler handler) s.frameHandler s.fatalErrorHandler
        handler s.writeHandler
  | write (handler : Option Handler) :
      Assigns s (.setWriteHandler handler) s.frameHandler s.fatalErrorHandler
        s.recuperableErrorHandler handler

inductive StepOutcome (s : Transport) : Action → Transport → Prop where
  | called (toWrite : List UInt8) (packetID : Nat) :
      StepOutcome s (.asyncWrite toWrite packetID) { s with
        callers := s.callers ++
          [⟨.checkingClosed, ⟨toWrite, packetID, s.called.length, s.session⟩⟩]
        called := s.called ++ [packetID] }
  | refused (i : Nat) (caller : Caller) (status : WriteStatus)
      (hcaller : s.callers[i]? = some caller) (hrefuses : Refuses s caller status) :
      StepOutcome s (.advance i) { s with
        callers := s.callers.eraseIdx i
        events := s.events ++ [.returned caller.write.packetID status] }
  | foundOpen (i : Nat) (caller : Caller) (hcaller : s.callers[i]? = some caller)
      (hpc : caller.pc = .checkingClosed) (hclosing : s.closing = false)
      (hstopped : s.stopped = false) :
      StepOutcome s (.advance i) { s with
        callers := s.callers.set i ⟨.checkingSize, { caller.write with session := s.session }⟩ }
  | fitted (i : Nat) (caller : Caller) (hcaller : s.callers[i]? = some caller)
      (hpc : caller.pc = .checkingSize) :
      StepOutcome s (.advance i) { s with
        callers := s.callers.set i { caller with pc := .reserving } }
  | reserved (i : Nat) (caller : Caller) (hcaller : s.callers[i]? = some caller)
      (hpc : caller.pc = .reserving)
      (hroom : s.pendingWrites < s.bufferConfig.txMaxElementsInQueue) :
      StepOutcome s (.advance i) { s with
        callers := s.callers.set i { caller with pc := .posting }
        pendingWrites := s.pendingWrites + 1 }
  | scheduled (i : Nat) (caller : Caller) (hcaller : s.callers[i]? = some caller)
      (hpc : caller.pc = .posting) :
      StepOutcome s (.advance i) { s with
        callers := s.callers.eraseIdx i
        posted := s.posted ++ [.write caller.write]
        events := s.events ++ [.returned caller.write.packetID .scheduled] }
  | requested (request : Request) :
      StepOutcome s (.post request) { s with posted := s.posted ++ [.request request] }
  | suppressed (i : Nat) (outcome : OpenOutcome) (request : Request)
      (htask : s.posted[i]? = some (.request request)) (hclosing : s.closing = true) :
      StepOutcome s (.run i outcome) { s with posted := s.posted.eraseIdx i }
  | openFailed (i : Nat) (outcome : OpenOutcome) (newBufferConfig : BufferConfig) (port : Bool)
      (htask : s.posted[i]? = some (.request (.openPort newBufferConfig)))
      (hclosing : s.closing = false) (hstream : openStream s.port outcome = (port, true)) :
      StepOutcome s (.run i outcome) { s with
        posted := s.posted.eraseIdx i
        generation := nextGeneration s.generation
        stopped := true
        currentState := .faulted
        rxBuffer := []
        txDeque := []
        pendingWrites := 0
        bufferConfig := newBufferConfig
        port := port
        events := s.events ++ [.streamOpen, .threw] }
  | opened (i : Nat) (outcome : OpenOutcome) (newBufferConfig : BufferConfig)
      (htask : s.posted[i]? = some (.request (.openPort newBufferConfig)))
      (hclosing : s.closing = false) (hport : s.port = false)
      (houtcome : outcome = .succeeds) :
      StepOutcome s (.run i outcome) { s with
        posted := s.posted.eraseIdx i
        generation := nextGeneration s.generation
        stopped := false
        currentState := .opened
        rxBuffer := []
        txDeque := []
        pendingWrites := 0
        bufferConfig := newBufferConfig
        port := true
        session := s.session + 1
        reads := s.reads ++ [nextGeneration s.generation]
        events := s.events ++ [.streamOpen] }
  | closed (i : Nat) (outcome : OpenOutcome)
      (htask : s.posted[i]? = some (.request .close)) (hclosing : s.closing = false) :
      StepOutcome s (.run i outcome) { s with
        posted := s.posted.eraseIdx i
        closing := true
        stopped := true
        currentState := .closed
        generation := nextGeneration s.generation
        rxBuffer := []
        txDeque := []
        port := false
        events := s.events ++ [.streamCancel, .streamClose] }
  | handlersSet (i : Nat) (outcome : OpenOutcome) (request : Request)
      (frameHandler fatalErrorHandler recuperableErrorHandler writeHandler : Option Handler)
      (htask : s.posted[i]? = some (.request request)) (hclosing : s.closing = false)
      (hset : Assigns s request frameHandler fatalErrorHandler recuperableErrorHandler
        writeHandler) :
      StepOutcome s (.run i outcome) { s with
        posted := s.posted.eraseIdx i
        frameHandler := frameHandler
        fatalErrorHandler := fatalErrorHandler
        recuperableErrorHandler := recuperableErrorHandler
        writeHandler := writeHandler }
  | cancelled (i : Nat) (outcome : OpenOutcome) (w : Write)
      (htask : s.posted[i]? = some (.write w)) (hdown : s.closing = true ∨ s.stopped = true) :
      StepOutcome s (.run i outcome) { s with
        posted := s.posted.eraseIdx i
        pendingWrites := fetchSub s.pendingWrites
        underflowed := s.underflowed || s.pendingWrites = 0
        events := s.events ++ calls s.writeHandler (.writeResult .cancelled w.packetID) }
  | queued (i : Nat) (outcome : OpenOutcome) (w : Write)
      (htask : s.posted[i]? = some (.write w)) (hclosing : s.closing = false)
      (hstopped : s.stopped = false) (hbusy : s.txDeque ≠ []) :
      StepOutcome s (.run i outcome) { s with
        posted := s.posted.eraseIdx i
        txDeque := s.txDeque ++ [w] }
  | started (i : Nat) (outcome : OpenOutcome) (w : Write)
      (htask : s.posted[i]? = some (.write w)) (hclosing : s.closing = false)
      (hstopped : s.stopped = false) (hidle : s.txDeque = []) :
      StepOutcome s (.run i outcome) { s with
        posted := s.posted.eraseIdx i
        txDeque := [w]
        writes := s.writes ++ [⟨s.generation, w⟩]
        events := s.events ++ [.handed s.session w] }
  | received (bytes : List UInt8) (hreads : s.reads ≠ []) :
      StepOutcome s (.receive bytes) { s with rxBuffer := s.rxBuffer ++ bytes }
  | readIgnored (i : Nat) (ec : ErrorCode) (bytesRead operationGeneration : Nat)
      (hread : s.reads[i]? = some operationGeneration) (hstale : ¬ Live s operationGeneration) :
      StepOutcome s (.completeRead i ec bytesRead) { s with reads := s.reads.eraseIdx i }
  | delivered (i bytesRead : Nat) (hread : s.reads[i]? = some s.generation)
      (hlive : Live s s.generation) :
      StepOutcome s (.completeRead i .success bytesRead) { s with
        reads := s.reads.eraseIdx i ++ [s.generation]
        rxBuffer := s.rxBuffer.drop bytesRead
        events := s.events ++ calls s.frameHandler (.frame (s.rxBuffer.take bytesRead)) }
  | readRecovered (i bytesRead : Nat) (hread : s.reads[i]? = some s.generation)
      (hlive : Live s s.generation) :
      StepOutcome s (.completeRead i .notFound bytesRead) { s with
        reads := s.reads.eraseIdx i ++ [s.generation]
        rxBuffer := []
        events := s.events ++ calls s.recuperableErrorHandler (.recuperableError .rxBufferFull) }
  | readFailed (i : Nat) (ec : ErrorCode) (bytesRead : Nat)
      (hread : s.reads[i]? = some s.generation) (hlive : Live s s.generation)
      (hsuccess : ec ≠ .success) (hfatal : ec ≠ .notFound) :
      StepOutcome s (.completeRead i ec bytesRead) { s with
        reads := s.reads.eraseIdx i
        stopped := true
        currentState := .faulted
        generation := nextGeneration s.generation
        rxBuffer := []
        txDeque := []
        port := false
        events := s.events ++ [.streamCancel, .streamClose] ++ fatalCalls s.fatalErrorHandler ec
        ended := fatalEnding s.fatalErrorHandler ec }
  | writeIgnored (i : Nat) (ec : ErrorCode) (operation : WriteOperation)
      (hwrite : s.writes[i]? = some operation) (hstale : ¬ Live s operation.generation) :
      StepOutcome s (.completeWrite i ec) { s with writes := s.writes.eraseIdx i }
  | writtenLast (i : Nat) (operation : WriteOperation) (w : Write)
      (hwrite : s.writes[i]? = some operation) (hlive : Live s operation.generation)
      (hqueue : s.txDeque = [w]) :
      StepOutcome s (.completeWrite i .success) { s with
        writes := s.writes.eraseIdx i
        pendingWrites := fetchSub s.pendingWrites
        underflowed := s.underflowed || s.pendingWrites = 0
        txDeque := []
        events := s.events ++ calls s.writeHandler (.writeResult .written w.packetID) }
  | writtenNext (i : Nat) (operation : WriteOperation) (w next : Write) (rest : List Write)
      (hwrite : s.writes[i]? = some operation) (hlive : Live s operation.generation)
      (hqueue : s.txDeque = w :: next :: rest) :
      StepOutcome s (.completeWrite i .success) { s with
        writes := s.writes.eraseIdx i ++ [⟨s.generation, next⟩]
        pendingWrites := fetchSub s.pendingWrites
        underflowed := s.underflowed || s.pendingWrites = 0
        txDeque := next :: rest
        events := s.events ++ calls s.writeHandler (.writeResult .written w.packetID) ++
          [.handed s.session next] }
  | writeRecovered (i : Nat) (operation : WriteOperation) (failure : List Event)
      (hwrite : s.writes[i]? = some operation) (hlive : Live s operation.generation)
      (hfailure : ∀ w rest, s.txDeque = w :: rest →
        failure = calls s.writeHandler (.writeResult .failed w.packetID))
      (hnone : s.txDeque = [] → failure = [] ∧ s.writeHandler = none) :
      StepOutcome s (.completeWrite i .notFound) { s with
        writes := s.writes.eraseIdx i
        pendingWrites := fetchSub s.pendingWrites
        underflowed := s.underflowed || s.pendingWrites = 0
        reads := s.reads ++ [s.generation]
        rxBuffer := []
        events := s.events ++ failure ++
          calls s.recuperableErrorHandler (.recuperableError .rxBufferFull) }
  | writeFailed (i : Nat) (ec : ErrorCode) (operation : WriteOperation) (failure : List Event)
      (hwrite : s.writes[i]? = some operation) (hlive : Live s operation.generation)
      (hsuccess : ec ≠ .success) (hfatal : ec ≠ .notFound)
      (hfailure : ∀ w rest, s.txDeque = w :: rest →
        failure = calls s.writeHandler (.writeResult .failed w.packetID))
      (hnone : s.txDeque = [] → failure = [] ∧ s.writeHandler = none) :
      StepOutcome s (.completeWrite i ec) { s with
        writes := s.writes.eraseIdx i
        pendingWrites := fetchSub s.pendingWrites
        underflowed := s.underflowed || s.pendingWrites = 0
        stopped := true
        currentState := .faulted
        generation := nextGeneration s.generation
        rxBuffer := []
        txDeque := []
        port := false
        events := s.events ++ failure ++ [.streamCancel, .streamClose] ++
          fatalCalls s.fatalErrorHandler ec
        ended := fatalEnding s.fatalErrorHandler ec }
  | undefined (i : Nat) (ec : ErrorCode) (operation : WriteOperation)
      (hwrite : s.writes[i]? = some operation) (hlive : Live s operation.generation)
      (hqueue : s.txDeque = []) (hfront : ec = .success ∨ s.writeHandler.isSome = true) :
      StepOutcome s (.completeWrite i ec) { s with
        writes := s.writes.eraseIdx i
        pendingWrites := fetchSub s.pendingWrites
        underflowed := s.underflowed || s.pendingWrites = 0
        ended := some .undefined }

theorem notify_eq (handler : Option Handler) (event : Event) (s : Transport) :
    notify handler event s = { s with events := s.events ++ calls handler event } := by
  cases handler <;> simp [notify, calls]

theorem dispatchError_notFound {s : Transport} (hclosing : s.closing = false)
    (hstopped : s.stopped = false) :
    dispatchError s .notFound = { s with
      rxBuffer := []
      reads := s.reads ++ [s.generation]
      events := s.events ++
        calls s.recuperableErrorHandler (.recuperableError .rxBufferFull) } := by
  simp [dispatchError, isRecoverableError, clarifyRecoverableError, recoverFromError,
    startRead, hclosing, hstopped, notify_eq]

theorem dispatchError_fatal {s : Transport} {ec : ErrorCode} (hfatal : ec ≠ .notFound)
    (hended : s.ended = none) :
    dispatchError s ec = { s with
      stopped := true
      currentState := .faulted
      generation := nextGeneration s.generation
      rxBuffer := []
      txDeque := []
      port := false
      events := s.events ++ [.streamCancel, .streamClose] ++ fatalCalls s.fatalErrorHandler ec
      ended := fatalEnding s.fatalErrorHandler ec } := by
  cases hhandler : s.fatalErrorHandler with
  | none =>
      simp [dispatchError, isRecoverableError, hfatal, hhandler, fatalCalls, fatalEnding,
        stopAfterIoError, hended]
  | some handler =>
      cases hknown : clarifyFatalError ec <;>
        simp [dispatchError, isRecoverableError, hfatal, hhandler, fatalCalls, fatalEnding,
          stopAfterIoError, hended, hknown, notify]

theorem advanceCaller_outcome (s : Transport) {i : Nat} {caller : Caller}
    (hcaller : s.callers[i]? = some caller) :
    StepOutcome s (.advance i) (advanceCaller s i caller) := by
  cases hpc : caller.pc with
  | checkingClosed =>
      cases hclosing : s.closing with
      | true =>
          simpa [advanceCaller, hpc, hclosing, returnStatus] using
            StepOutcome.refused i caller .closed hcaller ⟨hpc, Or.inl hclosing⟩
      | false =>
          cases hstopped : s.stopped with
          | true =>
              simpa [advanceCaller, hpc, hclosing, hstopped, returnStatus] using
                StepOutcome.refused i caller .closed hcaller ⟨hpc, Or.inr hstopped⟩
          | false =>
              simpa [advanceCaller, hpc, hclosing, hstopped] using
                StepOutcome.foundOpen i caller hcaller hpc hclosing hstopped
  | checkingSize =>
      by_cases hsize : s.bufferConfig.txMaxSizePerElement < caller.write.toWrite.length
      · simpa [advanceCaller, hpc, hsize, returnStatus] using
          StepOutcome.refused i caller .messageTooLong hcaller ⟨hpc, hsize⟩
      · simpa [advanceCaller, hpc, hsize] using StepOutcome.fitted i caller hcaller hpc
  | reserving =>
      by_cases hfull : s.bufferConfig.txMaxElementsInQueue ≤ s.pendingWrites
      · simpa [advanceCaller, hpc, hfull, returnStatus] using
          StepOutcome.refused i caller .queueFull hcaller ⟨hpc, hfull⟩
      · simpa [advanceCaller, hpc, hfull] using
          StepOutcome.reserved i caller hcaller hpc (Nat.lt_of_not_le hfull)
  | posting =>
      simpa [advanceCaller, hpc, returnStatus] using
        StepOutcome.scheduled i caller hcaller hpc

theorem openOnStrand_outcome (s : Transport) {i : Nat} (outcome : OpenOutcome)
    {newBufferConfig : BufferConfig}
    (htask : s.posted[i]? = some (.request (.openPort newBufferConfig))) :
    StepOutcome s (.run i outcome)
      (openOnStrand { s with posted := s.posted.eraseIdx i } newBufferConfig outcome) := by
  cases hclosing : s.closing with
  | true =>
      simpa [openOnStrand, hclosing] using
        StepOutcome.suppressed i outcome _ htask hclosing
  | false =>
      cases hport : s.port with
      | true =>
          have hstream : openStream s.port outcome = (true, true) := by
            cases outcome <;> simp [openStream, hport]
          simpa [openOnStrand, hclosing, hport ▸ hstream] using
            StepOutcome.openFailed i outcome newBufferConfig true htask hclosing hstream
      | false =>
          cases outcome with
          | openThrows =>
              simpa [openOnStrand, hclosing, openStream, hport] using
                StepOutcome.openFailed i .openThrows newBufferConfig false htask hclosing
                  (by simp [openStream, hport])
          | optionThrows option =>
              simpa [openOnStrand, hclosing, openStream, hport] using
                StepOutcome.openFailed i (.optionThrows option) newBufferConfig true htask
                  hclosing (by simp [openStream])
          | succeeds =>
              simpa [openOnStrand, hclosing, openStream, hport, startRead] using
                StepOutcome.opened i .succeeds newBufferConfig htask hclosing hport rfl

theorem closeOnStrand_outcome (s : Transport) {i : Nat} (outcome : OpenOutcome)
    (htask : s.posted[i]? = some (.request .close)) :
    StepOutcome s (.run i outcome)
      (closeOnStrand { s with posted := s.posted.eraseIdx i }) := by
  cases hclosing : s.closing with
  | true =>
      simpa [closeOnStrand, hclosing] using
        StepOutcome.suppressed i outcome _ htask hclosing
  | false =>
      simpa [closeOnStrand, hclosing] using StepOutcome.closed i outcome htask hclosing

theorem unlessClosing_outcome (s : Transport) {i : Nat} (outcome : OpenOutcome)
    {request : Request}
    {frameHandler fatalErrorHandler recuperableErrorHandler writeHandler : Option Handler}
    (htask : s.posted[i]? = some (.request request))
    (hset : Assigns s request frameHandler fatalErrorHandler recuperableErrorHandler
      writeHandler) :
    StepOutcome s (.run i outcome) (unlessClosing { s with posted := s.posted.eraseIdx i }
      { s with
        posted := s.posted.eraseIdx i
        frameHandler := frameHandler
        fatalErrorHandler := fatalErrorHandler
        recuperableErrorHandler := recuperableErrorHandler
        writeHandler := writeHandler }) := by
  cases hclosing : s.closing with
  | true =>
      simpa [unlessClosing, hclosing] using
        StepOutcome.suppressed i outcome request htask hclosing
  | false =>
      simpa [unlessClosing, hclosing] using
        StepOutcome.handlersSet i outcome request frameHandler fatalErrorHandler
          recuperableErrorHandler writeHandler htask hclosing hset

theorem runWrite_outcome (s : Transport) {i : Nat} (outcome : OpenOutcome) {w : Write}
    (htask : s.posted[i]? = some (.write w)) :
    StepOutcome s (.run i outcome) (runWrite { s with posted := s.posted.eraseIdx i } w) := by
  by_cases hdown : s.closing = true ∨ s.stopped = true
  · simpa [runWrite, hdown, notify_eq, releaseSlot] using
      StepOutcome.cancelled i outcome w htask hdown
  · obtain ⟨hclosing, hstopped⟩ : s.closing = false ∧ s.stopped = false := by
      simpa using hdown
    by_cases hidle : s.txDeque = []
    · simpa [runWrite, hclosing, hstopped, hidle, doWrite] using
        StepOutcome.started i outcome w htask hclosing hstopped hidle
    · simpa [runWrite, hclosing, hstopped, hidle] using
        StepOutcome.queued i outcome w htask hclosing hstopped hidle

theorem runTask_outcome (s : Transport) {i : Nat} (outcome : OpenOutcome) {task : Task}
    (htask : s.posted[i]? = some task) :
    StepOutcome s (.run i outcome)
      (runTask { s with posted := s.posted.eraseIdx i } outcome task) := by
  cases task with
  | request request =>
      cases request with
      | openPort newBufferConfig => exact openOnStrand_outcome s outcome htask
      | close => exact closeOnStrand_outcome s outcome htask
      | setFrameHandler handler =>
          exact unlessClosing_outcome s outcome htask (.frame handler)
      | setFatalErrorHandler handler =>
          exact unlessClosing_outcome s outcome htask (.fatalError handler)
      | setRecuperableErrorHandler handler =>
          exact unlessClosing_outcome s outcome htask (.recuperableError handler)
      | setWriteHandler handler =>
          exact unlessClosing_outcome s outcome htask (.write handler)
  | write w => exact runWrite_outcome s outcome htask

theorem not_live_iff {s : Transport} {operationGeneration : Nat} :
    (s.closing || s.stopped || decide (operationGeneration ≠ s.generation)) = true ↔
      ¬ Live s operationGeneration := by
  simp only [Live, Bool.or_eq_true, decide_eq_true_eq, not_and_or, Bool.not_eq_false, or_assoc]

theorem handleRead_ignored {s : Transport} {ec : ErrorCode} {bytesRead operationGeneration : Nat}
    (hstale : ¬ Live s operationGeneration) :
    handleRead s ec bytesRead operationGeneration = s :=
  if_pos (not_live_iff.mpr hstale)

theorem handleWrite_ignored {s : Transport} {ec : ErrorCode} {operationGeneration : Nat}
    (hstale : ¬ Live s operationGeneration) : handleWrite s ec operationGeneration = s :=
  if_pos (not_live_iff.mpr hstale)

theorem handleRead_outcome (s : Transport) {i : Nat} (ec : ErrorCode) (bytesRead : Nat)
    {operationGeneration : Nat} (hread : s.reads[i]? = some operationGeneration)
    (hended : s.ended = none) :
    StepOutcome s (.completeRead i ec bytesRead)
      (handleRead { s with reads := s.reads.eraseIdx i } ec bytesRead operationGeneration) := by
  by_cases hlive : Live s operationGeneration
  · obtain ⟨hclosing, hstopped, rfl⟩ := hlive
    by_cases hsuccess : ec = .success
    · subst hsuccess
      simpa [handleRead, hclosing, hstopped, notify_eq, startRead] using
        StepOutcome.delivered i bytesRead hread ⟨hclosing, hstopped, rfl⟩
    · by_cases hfatal : ec = .notFound
      · subst hfatal
        simpa [handleRead, hclosing, hstopped, dispatchError_notFound] using
          StepOutcome.readRecovered i bytesRead hread ⟨hclosing, hstopped, rfl⟩
      · simpa [handleRead, hclosing, hstopped, hsuccess, dispatchError_fatal hfatal, hended,
          fatalCalls, fatalEnding] using
          StepOutcome.readFailed i ec bytesRead hread ⟨hclosing, hstopped, rfl⟩ hsuccess hfatal
  · rw [handleRead_ignored (s := { s with reads := s.reads.eraseIdx i }) hlive]
    exact StepOutcome.readIgnored i ec bytesRead operationGeneration hread hlive

theorem failedWrite_outcome (s : Transport) {i : Nat} {ec : ErrorCode}
    {operation : WriteOperation} (failure : List Event)
    (hwrite : s.writes[i]? = some operation) (hlive : Live s operation.generation)
    (hended : s.ended = none) (hsuccess : ec ≠ .success)
    (hfailure : ∀ w rest, s.txDeque = w :: rest →
      failure = calls s.writeHandler (.writeResult .failed w.packetID))
    (hnone : s.txDeque = [] → failure = [] ∧ s.writeHandler = none) :
    StepOutcome s (.completeWrite i ec) (dispatchError
      { releaseSlot { s with writes := s.writes.eraseIdx i } with
        events := s.events ++ failure } ec) := by
  by_cases hfatal : ec = .notFound
  · subst hfatal
    rw [releaseSlot, dispatchError_notFound]
    · exact .writeRecovered i operation failure hwrite hlive hfailure hnone
    · exact hlive.1
    · exact hlive.2.1
  · rw [releaseSlot, dispatchError_fatal hfatal]
    · exact .writeFailed i ec operation failure hwrite hlive hsuccess hfatal hfailure hnone
    · exact hended

theorem handleWrite_outcome (s : Transport) {i : Nat} (ec : ErrorCode)
    {operation : WriteOperation} (hwrite : s.writes[i]? = some operation)
    (hended : s.ended = none) :
    StepOutcome s (.completeWrite i ec)
      (handleWrite { s with writes := s.writes.eraseIdx i } ec operation.generation) := by
  by_cases hlive : Live s operation.generation
  · obtain ⟨hclosing, hstopped, hgeneration⟩ := hlive
    have hlive : Live s operation.generation := ⟨hclosing, hstopped, hgeneration⟩
    by_cases hsuccess : ec = .success
    · subst hsuccess
      match hqueue : s.txDeque with
      | [] =>
          simpa [handleWrite, hclosing, hstopped, hgeneration, hqueue, releaseSlot] using
            StepOutcome.undefined i .success operation hwrite hlive hqueue (Or.inl rfl)
      | [w] =>
          simpa [handleWrite, hclosing, hstopped, hgeneration, hqueue, releaseSlot,
            notify_eq] using StepOutcome.writtenLast i operation w hwrite hlive hqueue
      | w :: next :: rest =>
          simpa [handleWrite, hclosing, hstopped, hgeneration, hqueue, releaseSlot,
            notify_eq, doWrite] using
            StepOutcome.writtenNext i operation w next rest hwrite hlive hqueue
    · match hqueue : s.txDeque, hhandler : s.writeHandler with
      | [], none =>
          simpa [handleWrite, hclosing, hstopped, hgeneration, hsuccess, hqueue, hhandler,
            releaseSlot] using
            failedWrite_outcome s [] hwrite hlive hended hsuccess
              (by simp [hqueue]) (by simp [hhandler])
      | [], some handler =>
          simpa [handleWrite, hclosing, hstopped, hgeneration, hsuccess, hqueue, hhandler,
            releaseSlot] using StepOutcome.undefined i ec operation hwrite hlive hqueue
              (Or.inr (by simp [hhandler]))
      | w :: rest, handler =>
          have houtcome := failedWrite_outcome s
            (calls s.writeHandler (.writeResult .failed w.packetID)) hwrite hlive hended
            hsuccess (by simp [hqueue]) (by simp [hqueue])
          cases handler <;>
            simpa [handleWrite, hclosing, hstopped, hgeneration, hsuccess, hqueue, hhandler,
              releaseSlot, notify, calls] using houtcome
  · rw [handleWrite_ignored (s := { s with writes := s.writes.eraseIdx i }) hlive]
    exact StepOutcome.writeIgnored i ec operation hwrite hlive

theorem ended_of_step {s t : Transport} {a : Action} (hstep : step s a = some t) :
    s.ended = none := by
  cases hended : s.ended with
  | none => rfl
  | some ending => simp [step, hended] at hstep

theorem step_outcome {s t : Transport} {a : Action} (hstep : step s a = some t) :
    StepOutcome s a t := by
  cases hended : s.ended with
  | some ending => simp [step, hended] at hstep
  | none =>
      have hrunning : ¬ s.ended.isSome = true := by simp [hended]
      unfold step at hstep
      rw [if_neg hrunning] at hstep
      cases a with
      | asyncWrite toWrite packetID =>
          obtain rfl := Option.some.inj hstep
          exact .called toWrite packetID
      | advance i =>
          obtain ⟨caller, hcaller, rfl⟩ := Option.map_eq_some_iff.mp hstep
          exact advanceCaller_outcome s hcaller
      | post request =>
          obtain rfl := Option.some.inj hstep
          exact .requested request
      | run i outcome =>
          obtain ⟨task, htask, rfl⟩ := Option.map_eq_some_iff.mp hstep
          exact runTask_outcome s outcome htask
      | receive bytes =>
          by_cases hreads : s.reads = []
          · simp [hreads] at hstep
          · simp only [if_neg hreads] at hstep
            obtain rfl := Option.some.inj hstep
            exact .received bytes hreads
      | completeRead i ec bytesRead =>
          obtain ⟨operationGeneration, hread, rfl⟩ := Option.map_eq_some_iff.mp hstep
          exact handleRead_outcome s ec bytesRead hread hended
      | completeWrite i ec =>
          obtain ⟨operation, hwrite, rfl⟩ := Option.map_eq_some_iff.mp hstep
          exact handleWrite_outcome s ec hwrite hended

theorem interrupts_step {s t : Transport} {a : Action} (hinterrupts : interrupts s a = true)
    (hstep : step s a = some t) : t.txDeque = [] ∧ t.writes = s.writes := by
  cases step_outcome hstep with
  | openFailed => exact ⟨rfl, rfl⟩
  | opened => exact ⟨rfl, rfl⟩
  | closed => exact ⟨rfl, rfl⟩
  | readFailed => exact ⟨rfl, rfl⟩
  | suppressed i outcome request htask hclosing =>
      cases request <;> simp [interrupts, opening, htask, hclosing] at hinterrupts
  | handlersSet i outcome request fh feh reh wh htask hclosing hset =>
      cases hset <;> simp [interrupts, opening, htask] at hinterrupts
  | cancelled i outcome w htask => simp [interrupts, opening, htask] at hinterrupts
  | queued i outcome w htask => simp [interrupts, opening, htask] at hinterrupts
  | started i outcome w htask => simp [interrupts, opening, htask] at hinterrupts
  | readIgnored i ec bytesRead operationGeneration hread hstale =>
      simp [interrupts, hread, hstale] at hinterrupts
  | delivered i bytesRead hread => simp [interrupts, hread] at hinterrupts
  | readRecovered i bytesRead hread => simp [interrupts, hread] at hinterrupts
  | _ => simp [interrupts] at hinterrupts

theorem opening_step {s t : Transport} {i : Nat} {outcome : OpenOutcome}
    (hopening : opening s i = true) (hstep : step s (.run i outcome) = some t) :
    (openStream s.port outcome = (t.port, true) ∧ t.currentState = .faulted) ∨
      (s.port = false ∧ outcome = .succeeds ∧ t.reads = s.reads ++ [t.generation]) := by
  cases step_outcome hstep with
  | openFailed _ _ config port htask hclosing hstream => exact Or.inl ⟨hstream, rfl⟩
  | opened _ _ config htask hclosing hport houtcome => exact Or.inr ⟨hport, houtcome, rfl⟩
  | suppressed _ _ request htask hclosing =>
      cases request <;> simp [opening, htask, hclosing] at hopening
  | closed _ _ htask => simp [opening, htask] at hopening
  | handlersSet _ _ request fh feh reh wh htask hclosing hset =>
      cases hset <;> simp [opening, htask] at hopening
  | cancelled _ _ w htask => simp [opening, htask] at hopening
  | queued _ _ w htask => simp [opening, htask] at hopening
  | started _ _ w htask => simp [opening, htask] at hopening

theorem succeeding_step {s t : Transport} {i : Nat} {outcome : OpenOutcome}
    (hsucceeding : succeeding s i outcome = true) (hstep : step s (.run i outcome) = some t) :
    t.reads = s.reads ++ [t.generation] := by
  obtain ⟨⟨hopening, hport⟩, rfl⟩ :
      (opening s i = true ∧ s.port = false) ∧ outcome = .succeeds := by
    simpa [succeeding] using hsucceeding
  rcases opening_step hopening hstep with ⟨hstream, -⟩ | ⟨-, -, hreads⟩
  · simp [openStream, hport] at hstream
  · exact hreads

theorem starting_step {s t : Transport} {i : Nat} {outcome : OpenOutcome}
    (hstarting : starting s i = true) (hstep : step s (.run i outcome) = some t) :
    ∃ operation, t.writes = s.writes ++ [operation] := by
  cases step_outcome hstep with
  | started _ _ w => exact ⟨_, rfl⟩
  | cancelled _ _ w htask hdown =>
      rcases hdown with h | h <;> simp [starting, htask, h] at hstarting
  | queued _ _ w htask hclosing hstopped hbusy => simp [starting, htask, hbusy] at hstarting
  | openFailed _ _ config port htask => simp [starting, htask] at hstarting
  | opened _ _ config htask => simp [starting, htask] at hstarting
  | suppressed _ _ request htask => simp [starting, htask] at hstarting
  | closed _ _ htask => simp [starting, htask] at hstarting
  | handlersSet _ _ request fh feh reh wh htask => simp [starting, htask] at hstarting

theorem recovering_step {s t : Transport} {i : Nat} {ec : ErrorCode}
    (hrecovering : recovering s i ec = true) (hstep : step s (.completeWrite i ec) = some t) :
    t.reads = s.reads ++ [s.generation] := by
  cases step_outcome hstep with
  | writeRecovered => rfl
  | writeIgnored _ _ operation hwrite hstale => simp [recovering, hwrite, hstale] at hrecovering
  | writtenLast _ operation w hwrite => simp [recovering, hwrite] at hrecovering
  | writtenNext _ operation w next rest hwrite => simp [recovering, hwrite] at hrecovering
  | writeFailed _ _ operation failure hwrite hlive hsuccess hfatal =>
      simp [recovering, hwrite, hfatal] at hrecovering
  | undefined _ _ operation hwrite hlive hqueue hfront =>
      obtain ⟨-, rfl, hnone⟩ : Live s operation.generation ∧ ec = .notFound ∧
          s.writeHandler = none := by simpa [recovering, hwrite, hqueue] using hrecovering
      simp [hnone] at hfront

end EasyLoRa.TransportOutcomes
