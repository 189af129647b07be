import EasyLoRa.Pumps

namespace EasyLoRa.ThrowingHandlers

open EasyLoRa.TransportModel
open EasyLoRa.TransportSystem
open EasyLoRa.TransportOutcomes
open EasyLoRa.TransitionSystem
open EasyLoRa.PortState
open EasyLoRa.Pumps

inductive HandlerAnswer where
  | returns
  | throws
deriving DecidableEq, Repr

/-- Call a handler if it is installed; the second component says whether an
exception comes out of the call. -/
def callHandler (answer : HandlerAnswer) (handler : Option Handler) (event : Event)
    (s : Transport) : Transport × Bool :=
  if handler.isSome then ({ s with events := s.events ++ [event] }, decide (answer = .throws))
  else (s, false)

def propagate (s : Transport) : Transport := { s with events := s.events ++ [.threw] }

/-- `handleRead` with a frame handler that answers so. An exception leaves it at the place
of the call, and what comes after the call is not done. -/
def handleReadWith (answer : HandlerAnswer) (s : Transport) (ec : ErrorCode)
    (bytesRead operationGeneration : Nat) : Transport :=
  if s.closing || s.stopped || operationGeneration ≠ s.generation then s
  else if ec ≠ .success then dispatchError s ec
  else
    match callHandler answer s.frameHandler (.frame (s.rxBuffer.take bytesRead)) s with
    | (s, true) => propagate s
    | (s, false) => startRead { s with rxBuffer := s.rxBuffer.drop bytesRead }

/-- `handleWrite` with a write handler that answers so. -/
def handleWriteWith (answer : HandlerAnswer) (s : Transport) (ec : ErrorCode)
    (operationGeneration : Nat) : Transport :=
  if s.closing || s.stopped || operationGeneration ≠ s.generation then s
  else if ec ≠ .success then
    match s.writeHandler, s.txDeque with
    | none, _ => dispatchError (releaseSlot s) ec
    | some _, [] => { releaseSlot s with ended := some .undefined }
    | some _, w :: _ =>
        match callHandler answer s.writeHandler (.writeResult .failed w.packetID)
          (releaseSlot s) with
        | (s, true) => propagate s
        | (s, false) => dispatchError s ec
  else
    match s.txDeque with
    | [] => { releaseSlot s with ended := some .undefined }
    | w :: rest =>
        match callHandler answer s.writeHandler (.writeResult .written w.packetID)
          (releaseSlot s) with
        | (s, true) => propagate s
        | (s, false) =>
            let popped : Transport := { s with txDeque := rest }
            if rest ≠ [] then doWrite popped else popped

/-- One step of the system, with the answer of the handler that the completion
calls. A posted write that is cancelled reports this as the last thing it does,
so an exception there leaves the state as it is. -/
def throwingStep (s : Transport) : Action × HandlerAnswer → Option Transport
  | (.completeRead i ec bytesRead, answer) =>
      if s.ended.isSome then none
      else
        s.reads[i]?.map fun operationGeneration =>
          handleReadWith answer { s with reads := s.reads.eraseIdx i } ec bytesRead
            operationGeneration
  | (.completeWrite i ec, answer) =>
      if s.ended.isSome then none
      else
        s.writes[i]?.map fun operation =>
          handleWriteWith answer { s with writes := s.writes.eraseIdx i } ec operation.generation
  | (a, _) => step s a

/-- The completion calls the frame handler or the write handler. -/
def CallsHandler (s : Transport) : Action → Prop
  | .completeRead i ec _ =>
      s.reads[i]? = some s.generation ∧ Live s s.generation ∧ ec = .success ∧
        s.frameHandler.isSome = true
  | .completeWrite i _ =>
      s.writes[i]?.map WriteOperation.generation = some s.generation ∧ Live s s.generation ∧
        s.writeHandler.isSome = true ∧ s.txDeque ≠ []
  | _ => False

instance (s : Transport) (a : Action) : Decidable (CallsHandler s a) := by
  induction a using TransportSystem.Action.casesOn <;> dsimp only [CallsHandler] <;> infer_instance

theorem handleReadWith_returns (s : Transport) (ec : ErrorCode)
    (bytesRead operationGeneration : Nat) :
    handleReadWith .returns s ec bytesRead operationGeneration =
      handleRead s ec bytesRead operationGeneration := by
  cases hhandler : s.frameHandler <;>
    simp [handleReadWith, handleRead, callHandler, notify, hhandler]

theorem handleWriteWith_returns (s : Transport) (ec : ErrorCode) (operationGeneration : Nat) :
    handleWriteWith .returns s ec operationGeneration =
      handleWrite s ec operationGeneration := by
  cases hhandler : s.writeHandler <;> cases hqueue : s.txDeque <;>
    simp [handleWriteWith, handleWrite, callHandler, notify, hhandler, hqueue]

/-- With handlers that return, the system is the one of `step`. -/
theorem throwingStep_returns (s : Transport) (a : Action) :
    throwingStep s (a, .returns) = step s a := by
  cases a <;> simp [throwingStep, step, handleReadWith_returns, handleWriteWith_returns]

inductive ThrowOutcome (s : Transport) : Action → Transport → Prop where
  | undisturbed (a : Action) (t : Transport) (hcalls : ¬CallsHandler s a)
      (hstep : step s a = some t) : ThrowOutcome s a t
  | frameThrew (i bytesRead : Nat) (hread : s.reads[i]? = some s.generation)
      (hlive : Live s s.generation) (hhandler : s.frameHandler.isSome = true) :
      ThrowOutcome s (.completeRead i .success bytesRead) { s with
        reads := s.reads.eraseIdx i
        events := s.events ++ [.frame (s.rxBuffer.take bytesRead)] ++ [.threw] }
  | writeThrew (i : Nat) (ec : ErrorCode) (operation : WriteOperation) (w : Write)
      (rest : List Write) (result : WriteResult) (hwrite : s.writes[i]? = some operation)
      (hlive : Live s operation.generation) (hhandler : s.writeHandler.isSome = true)
      (hqueue : s.txDeque = w :: rest) :
      ThrowOutcome s (.completeWrite i ec) { s with
        writes := s.writes.eraseIdx i
        pendingWrites := fetchSub s.pendingWrites
        underflowed := s.underflowed || s.pendingWrites = 0
        events := s.events ++ [.writeResult result w.packetID] ++ [.threw] }

theorem handleReadWith_throws {s : Transport} {ec : ErrorCode} {operationGeneration : Nat}
    (bytesRead : Nat) (h : ¬(Live s operationGeneration ∧ ec = .success ∧
      s.frameHandler.isSome = true)) :
    handleReadWith .throws s ec bytesRead operationGeneration =
      handleRead s ec bytesRead operationGeneration := by
  by_cases hlive : Live s operationGeneration
  · by_cases hsuccess : ec = .success
    · have hhandler : s.frameHandler = none := by
        simpa [hlive, hsuccess] using h
      simp [handleReadWith, handleRead, callHandler, notify, hhandler]
    · simp [handleReadWith, handleRead, hsuccess]
  · rw [handleRead_ignored hlive]
    exact if_pos (not_live_iff.mpr hlive)

theorem handleWriteWith_throws {s : Transport} {operationGeneration : Nat} (ec : ErrorCode)
    (h : ¬(Live s operationGeneration ∧ s.writeHandler.isSome = true ∧ s.txDeque ≠ [])) :
    handleWriteWith .throws s ec operationGeneration = handleWrite s ec operationGeneration := by
  by_cases hlive : Live s operationGeneration
  · cases hqueue : s.txDeque with
    | nil =>
        cases hhandler : s.writeHandler <;>
          simp [handleWriteWith, handleWrite, hhandler, hqueue]
    | cons w rest =>
        have hhandler : s.writeHandler = none := by
          simpa [hlive, hqueue] using h
        simp [handleWriteWith, handleWrite, callHandler, notify, releaseSlot, hhandler, hqueue]
  · rw [handleWrite_ignored hlive]
    exact if_pos (not_live_iff.mpr hlive)

theorem throwingStep_read_outcome {s t : Transport} {i bytesRead : Nat} {ec : ErrorCode}
    (hstep : throwingStep s (.completeRead i ec bytesRead, .throws) = some t) :
    ThrowOutcome s (.completeRead i ec bytesRead) t := by
  by_cases hcalls : CallsHandler s (.completeRead i ec bytesRead)
  · obtain ⟨hread, hlive, rfl, hhandler⟩ := hcalls
    have houtcome := ThrowOutcome.frameThrew i bytesRead hread hlive hhandler
    simp only [throwingStep, hread, Option.map_some] at hstep
    split at hstep
    · contradiction
    · obtain rfl := Option.some.inj hstep
      simpa [handleReadWith, hlive.1, hlive.2.1, callHandler, hhandler, propagate] using houtcome
  · apply ThrowOutcome.undisturbed _ _ hcalls
    rw [← hstep]
    simp only [step, throwingStep]
    cases hread : s.reads[i]? with
    | none => rfl
    | some operationGeneration =>
        have hquiet : ¬(Live s operationGeneration ∧ ec = .success ∧
            s.frameHandler.isSome = true) := by
          rintro ⟨hlive, hcall⟩
          obtain ⟨hclosing, hstopped, rfl⟩ := hlive
          exact hcalls ⟨hread, ⟨hclosing, hstopped, rfl⟩, hcall⟩
        rw [Option.map_some, Option.map_some, handleReadWith_throws]
        exact hquiet

theorem throwingStep_write_outcome {s t : Transport} {i : Nat} {ec : ErrorCode}
    (hstep : throwingStep s (.completeWrite i ec, .throws) = some t) :
    ThrowOutcome s (.completeWrite i ec) t := by
  by_cases hcalls : CallsHandler s (.completeWrite i ec)
  · obtain ⟨hwrite, ⟨hclosing, hstopped, -⟩, hhandler, hbusy⟩ := hcalls
    obtain ⟨operation, hwrite, hgeneration⟩ := Option.map_eq_some_iff.mp hwrite
    obtain ⟨w, rest, hqueue⟩ := List.exists_cons_of_ne_nil hbusy
    obtain ⟨handler, hinstalled⟩ := Option.isSome_iff_exists.mp hhandler
    have houtcome := fun result => ThrowOutcome.writeThrew i ec operation w rest result hwrite
      ⟨hclosing, hstopped, hgeneration⟩ hhandler hqueue
    simp only [throwingStep, hwrite, Option.map_some] at hstep
    split at hstep
    · contradiction
    · obtain rfl := Option.some.inj hstep
      by_cases hsuccess : ec = .success
      · simpa [handleWriteWith, hclosing, hstopped, hgeneration, hsuccess, hqueue, callHandler,
          hinstalled, propagate, releaseSlot] using houtcome .written
      · simpa [handleWriteWith, hclosing, hstopped, hgeneration, hsuccess, hqueue, callHandler,
          hinstalled, propagate, releaseSlot] using houtcome .failed
  · apply ThrowOutcome.undisturbed _ _ hcalls
    rw [← hstep]
    simp only [step, throwingStep]
    cases hwrite : s.writes[i]? with
    | none => rfl
    | some operation =>
        have hquiet : ¬(Live s operation.generation ∧ s.writeHandler.isSome = true ∧
            s.txDeque ≠ []) := by
          rintro ⟨⟨hclosing, hstopped, hgeneration⟩, hcall⟩
          exact hcalls ⟨by simp [hwrite, hgeneration], ⟨hclosing, hstopped, rfl⟩, hcall⟩
        rw [Option.map_some, Option.map_some, handleWriteWith_throws]
        exact hquiet

theorem throwingStep_outcome {s t : Transport} {a : Action}
    (hstep : throwingStep s (a, .throws) = some t) : ThrowOutcome s a t := by
  cases a with
  | completeRead i ec bytesRead => exact throwingStep_read_outcome hstep
  | completeWrite i ec => exact throwingStep_write_outcome hstep
  | asyncWrite toWrite packetID => exact .undisturbed _ _ not_false hstep
  | advance i => exact .undisturbed _ _ not_false hstep
  | post request => exact .undisturbed _ _ not_false hstep
  | run i outcome => exact .undisturbed _ _ not_false hstep
  | receive bytes => exact .undisturbed _ _ not_false hstep

theorem coherent_throwingStep {s t : Transport} {l : Action × HandlerAnswer} (hs : Coherent s)
    (hstep : throwingStep s l = some t) : Coherent t := by
  obtain ⟨a, answer⟩ := l
  cases answer with
  | returns =>
      rw [throwingStep_returns] at hstep
      exact coherent_step hs hstep
  | throws =>
      cases throwingStep_outcome hstep with
      | undisturbed _ _ hcalls hnormal => exact coherent_step hs hnormal
      | frameThrew => exact ⟨hs.opened, hs.closed, hs.idle⟩
      | writeThrew => exact ⟨hs.opened, hs.closed, hs.idle⟩

/-- Everything but what was observed. -/
def unobserved (s : Transport) : Transport := { s with events := [] }

/-- After a completion `a` in `s` whose handler throws the state is `t`; where the
handler returns it is `u`. -/
structure Uncorrupted (s : Transport) (a : Action) (t u : Transport) : Prop where
  state : unobserved t = unobserved u ∨ (t.currentState = .faulted ∧ t.port = false)
  frameRemoved : ∀ i bytesRead, a = .completeRead i .success bytesRead →
    s.reads[i]? = some s.generation → t.rxBuffer = s.rxBuffer.drop bytesRead
  writeRemoved : ∀ i operation, a = .completeWrite i .success →
    s.writes[i]? = some operation → operation.generation = s.generation →
      t.txDeque = s.txDeque.tail
  pumping : Pumped s → Unstranded s a → Pumped t

theorem uncorrupted_of_step {s t : Transport} {a : Action} (hs : Coherent s)
    (hopen : s.currentState = .opened) (hstep : step s a = some t) : Uncorrupted s a t t := by
  obtain ⟨hclosing, hstopped⟩ := hs.opened.mp hopen
  refine ⟨Or.inl rfl, ?_, ?_, fun hpumped h => pumped_step hs hpumped h hstep⟩
  · rintro i bytesRead rfl hread
    cases step_outcome hstep with
    | readIgnored _ _ _ operationGeneration hread' hstale =>
        obtain rfl : s.generation = operationGeneration := by simpa [hread] using hread'
        exact absurd ⟨hclosing, hstopped, rfl⟩ hstale
    | delivered => rfl
    | readFailed _ _ _ _ _ hsuccess => exact absurd rfl hsuccess
  · rintro i operation rfl hwrite hgeneration
    cases step_outcome hstep with
    | writeIgnored _ _ operation' hwrite' hstale =>
        obtain rfl : operation = operation' := by simpa [hwrite] using hwrite'
        exact absurd ⟨hclosing, hstopped, hgeneration⟩ hstale
    | writtenLast _ _ w _ _ hqueue => simp [hqueue]
    | writtenNext _ _ w next rest _ _ hqueue => simp [hqueue]
    | writeFailed _ _ _ _ _ _ hsuccess => exact absurd rfl hsuccess
    | undefined _ _ _ _ _ hqueue => simp [hqueue]

theorem not_uncorrupted_frameThrew {s u : Transport} {i bytesRead : Nat}
    (hread : s.reads[i]? = some s.generation) (hlive : Live s s.generation)
    (hopen : s.currentState = .opened)
    (hnormal : step s (.completeRead i .success bytesRead) = some u) :
    ¬Uncorrupted s (.completeRead i .success bytesRead) { s with
      reads := s.reads.eraseIdx i
      events := s.events ++ [.frame (s.rxBuffer.take bytesRead)] ++ [.threw] } u := by
  intro h
  rcases h.state with hstate | ⟨hfaulted, -⟩
  · have hreads : s.reads.eraseIdx i = u.reads := congrArg Transport.reads hstate
    cases step_outcome hnormal with
    | readIgnored _ _ _ operationGeneration hread' hstale =>
        obtain rfl : s.generation = operationGeneration := by simpa [hread] using hread'
        exact hstale hlive
    | delivered => simp at hreads
    | readFailed _ _ _ _ _ hsuccess => exact hsuccess rfl
  · simp [hopen] at hfaulted

theorem not_uncorrupted_writeThrew {s t u : Transport} {i : Nat} {ec : ErrorCode}
    {operation : WriteOperation} (hwrite : s.writes[i]? = some operation)
    (hlive : Live s operation.generation) (hbusy : s.txDeque ≠ [])
    (hopen : s.currentState = .opened) (hstate : t.currentState = s.currentState)
    (hreads : t.reads = s.reads) (hqueue : t.txDeque = s.txDeque)
    (hnormal : step s (.completeWrite i ec) = some u) :
    ¬Uncorrupted s (.completeWrite i ec) t u := by
  intro h
  rcases h.state with hsame | ⟨hfaulted, -⟩
  · have hqueue' : (unobserved t).txDeque = (unobserved u).txDeque := by rw [hsame]
    have hreads' : (unobserved t).reads = (unobserved u).reads := by rw [hsame]
    have hstate' : (unobserved t).currentState = (unobserved u).currentState := by rw [hsame]
    simp only [unobserved, hqueue, hreads, hstate] at hqueue' hreads' hstate'
    cases step_outcome hnormal with
    | writeIgnored _ _ operation' hwrite' hstale =>
        obtain rfl : operation = operation' := by simpa [hwrite] using hwrite'
        exact hstale hlive
    | writtenLast => exact hbusy hqueue'
    | writtenNext _ _ w next rest _ _ hfront => simp [hfront] at hqueue'
    | writeRecovered => simp at hreads'
    | writeFailed => simp [hopen] at hstate'
    | undefined _ _ _ _ _ hnone => exact hbusy hnone
  · simp [hstate, hopen] at hfaulted

/-- A handler that throws is harmless in exactly the completions that do not call it. -/
theorem uncorrupted_iff (schedule : List (Action × HandlerAnswer)) (s t u : Transport)
    (a : Action) (hexec : exec throwingStep Transport.init schedule = some s)
    (hopen : s.currentState = .opened) (hthrown : throwingStep s (a, .throws) = some t)
    (hnormal : throwingStep s (a, .returns) = some u) :
    Uncorrupted s a t u ↔ ¬CallsHandler s a := by
  have hs : Coherent s :=
    exec_stable (fun _ _ _ hs hstep => coherent_throwingStep hs hstep) coherent_init hexec
  rw [throwingStep_returns] at hnormal
  cases throwingStep_outcome hthrown with
  | undisturbed _ _ hcalls hstep =>
      obtain rfl := Option.some.inj (hstep.symm.trans hnormal)
      exact iff_of_true (uncorrupted_of_step hs hopen hstep) hcalls
  | frameThrew i bytesRead hread hlive hhandler =>
      apply iff_of_false
      · exact not_uncorrupted_frameThrew hread hlive hopen hnormal
      · exact not_not_intro ⟨hread, hlive, rfl, hhandler⟩
  | writeThrew i ec operation w rest result hwrite hlive hhandler hqueue =>
      have hbusy : s.txDeque ≠ [] := by simp [hqueue]
      apply iff_of_false
      · exact not_uncorrupted_writeThrew hwrite hlive hbusy hopen rfl rfl rfl hnormal
      · exact not_not_intro ⟨by simp [hwrite, hlive.2.2], ⟨hlive.1, hlive.2.1, rfl⟩,
          hhandler, hbusy⟩

def frameSchedule : List (Action × HandlerAnswer) :=
  [(.post (.openPort defaultBufferConfig), .returns), (.run 0 .succeeds, .returns),
    (.post (.setFrameHandler (some 1)), .returns), (.run 0 .succeeds, .returns),
    (.receive [7, 0], .returns)]

def frameTransport : Transport := (exec throwingStep Transport.init frameSchedule).get (by decide)

def frameThrown : Transport :=
  (throwingStep frameTransport (.completeRead 0 .success 2, .throws)).get (by decide)

def frameReturned : Transport :=
  (throwingStep frameTransport (.completeRead 0 .success 2, .returns)).get (by decide)

/-- The port reports open, the frame is still in `rxBuffer`, and nothing reads. -/
theorem corrupted_frameThrown :
    exec throwingStep Transport.init frameSchedule = some frameTransport ∧
      frameTransport.currentState = .opened ∧
      throwingStep frameTransport (.completeRead 0 .success 2, .throws) = some frameThrown ∧
      throwingStep frameTransport (.completeRead 0 .success 2, .returns) = some frameReturned ∧
      frameThrown.currentState = .opened ∧ frameThrown.rxBuffer = [7, 0] ∧
      frameThrown.reads = [] ∧
      ¬Uncorrupted frameTransport (.completeRead 0 .success 2) frameThrown frameReturned := by
  refine ⟨by simp [frameTransport], by decide, by simp [frameThrown], by simp [frameReturned],
    by decide, by decide, by decide, ?_⟩
  intro h
  have hremoved := h.frameRemoved 0 2 rfl (by decide)
  exact absurd hremoved (by decide)

/-- The write of `[5]` is outstanding from a session that has ended, and in the next one
`[6]` has been handed over. -/
def staleSchedule : List (Action × HandlerAnswer) :=
  [.post (.setWriteHandler (some 1)), .run 0 .succeeds, .post (.openPort defaultBufferConfig),
    .run 0 .succeeds, .asyncWrite [5] 1, .advance 0, .advance 0, .advance 0, .advance 0,
    .run 0 .succeeds, .completeRead 0 .eof 0, .post (.openPort defaultBufferConfig),
    .run 0 .succeeds, .asyncWrite [6] 2, .advance 0, .advance 0, .advance 0, .advance 0,
    .run 0 .succeeds].map fun a => (a, .returns)

def staleTransport : Transport := (exec throwingStep Transport.init staleSchedule).get (by decide)

def staleThrown : Transport :=
  (throwingStep staleTransport (.completeWrite 0 .success, .throws)).get (by decide)

def staleReturned : Transport :=
  (throwingStep staleTransport (.completeWrite 0 .success, .returns)).get (by decide)

/-- A write handler that throws is installed, and the stale completion does not call it. -/
theorem uncorrupted_staleThrown :
    staleTransport.writeHandler = some 1 ∧ staleTransport.txDeque.length = 1 ∧
      staleThrown.txDeque = staleTransport.txDeque ∧ staleThrown.writes.length = 1 ∧
      Uncorrupted staleTransport (.completeWrite 0 .success) staleThrown staleReturned := by
  refine ⟨by decide, by decide, by decide, by decide, ?_⟩
  exact (uncorrupted_iff staleSchedule staleTransport staleThrown staleReturned
    (.completeWrite 0 .success) (by simp [staleTransport]) (by decide) (by simp [staleThrown])
    (by simp [staleReturned])).mpr (by decide)

end EasyLoRa.ThrowingHandlers
