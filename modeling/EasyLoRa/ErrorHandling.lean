import EasyLoRa.PortState
import EasyLoRa.WriteFate

namespace EasyLoRa.ErrorHandling

open EasyLoRa.TransportModel
open EasyLoRa.TransportSystem
open EasyLoRa.TransportOutcomes
open EasyLoRa.TransitionSystem
open EasyLoRa.PortState
open EasyLoRa.WriteFate

/-- A read or a write of the running session completes with the error `ec`. -/
def FailsLive (s : Transport) (ec : ErrorCode) : Action → Prop
  | .completeRead i code _ =>
      s.reads[i]? = some s.generation ∧ code = ec ∧ ec ≠ .success
  | .completeWrite i code =>
      (s.writes[i]?.map WriteOperation.generation) = some s.generation ∧ code = ec ∧
        ec ≠ .success
  | _ => False

instance (s : Transport) (ec : ErrorCode) (a : Action) : Decidable (FailsLive s ec a) := by
  induction a using TransportSystem.Action.casesOn <;> dsimp only [FailsLive] <;> infer_instance

def isRecuperableError : Event → Bool
  | .recuperableError _ => true
  | _ => false

/-- The step added one event of the kind `p` where `handler` is installed, and none
where it is not. -/
def CallsOnce (p : Event → Bool) (handler : Option Handler) (s t : Transport) : Prop :=
  t.events.countP p = s.events.countP p + handler.isSome.toNat

/-- The two ways an error may end. -/
def Handled (s t : Transport) : Prop :=
  t.ended = none ∧
    ((t.currentState = .faulted ∧ t.port = false ∧
        CallsOnce isFatalError s.fatalErrorHandler s t) ∨
      (t.currentState = .opened ∧ t.generation ∈ t.reads ∧
        CallsOnce isRecuperableError s.recuperableErrorHandler s t))

/-- The error codes some classifier names. -/
def knownErrors : List ErrorCode :=
  [.notFound, .eof, .badFileDescriptor, .badDescriptor, .noSuchDevice, .permissionDenied]

/-- A failed write that is to be reported is still at the front of the queue. -/
def FrontReported (s : Transport) : Action → Prop
  | .completeWrite _ _ => s.writeHandler.isSome = true → s.txDeque ≠ []
  | _ => True

instance (s t : Transport) : Decidable (Handled s t) :=
  inferInstanceAs (Decidable (_ ∧ (_ ∧ _ ∧ _ = _ ∨ _ ∧ _ ∧ _ = _)))

theorem mem_knownErrors_iff (ec : ErrorCode) :
    ec ∈ knownErrors ↔ ec = .notFound ∨ (clarifyFatalError ec).isSome = true := by
  cases ec <;> simp [knownErrors, clarifyFatalError]

theorem fatalEnding_eq_none_iff {handler : Option Handler} {ec : ErrorCode}
    (hfatal : ec ≠ .notFound) :
    fatalEnding handler ec = none ↔ ec ∈ knownErrors ∨ handler = none := by
  rw [mem_knownErrors_iff]
  cases handler <;> cases hknown : clarifyFatalError ec <;>
    simp [fatalEnding, hfatal, hknown]

theorem countP_fatalCalls_of_known {ec : ErrorCode} {handler : Option Handler}
    (hending : fatalEnding handler ec = none) :
    (fatalCalls handler ec).countP isFatalError = handler.isSome.toNat := by
  cases handler with
  | none => rfl
  | some handler =>
      cases hknown : clarifyFatalError ec with
      | none => simp [fatalEnding, hknown] at hending
      | some error => simp [fatalCalls, hknown, isFatalError]

theorem frontReported_of_failure {s : Transport} {failure : List Event} {i : Nat}
    {ec : ErrorCode} (hnone : s.txDeque = [] → failure = [] ∧ s.writeHandler = none) :
    FrontReported s (.completeWrite i ec) := by
  intro hhandler hqueue
  simp [(hnone hqueue).2] at hhandler

theorem handled_of_recovered {s t : Transport} (failure : List Event)
    (hrunning : t.ended = none) (hopen : t.currentState = .opened)
    (hreading : t.generation ∈ t.reads)
    (hevents : t.events = s.events ++ failure ++
      calls s.recuperableErrorHandler (.recuperableError .rxBufferFull))
    (hfailure : failure.countP isRecuperableError = 0) : Handled s t := by
  refine ⟨hrunning, Or.inr ⟨hopen, hreading, ?_⟩⟩
  rw [CallsOnce, hevents, List.countP_append, List.countP_append, hfailure, countP_calls]
  simp [isRecuperableError]

theorem handled_of_failed_iff {s t : Transport} (failure : List Event) {ec : ErrorCode}
    (hending : t.ended = fatalEnding s.fatalErrorHandler ec) (hfatal : ec ≠ .notFound)
    (hfaulted : t.currentState = .faulted) (hport : t.port = false)
    (hevents : t.events = s.events ++ failure ++ [.streamCancel, .streamClose] ++
      fatalCalls s.fatalErrorHandler ec)
    (hfailure : failure.countP isFatalError = 0) :
    Handled s t ↔ ec ∈ knownErrors ∨ s.fatalErrorHandler = none := by
  rw [← fatalEnding_eq_none_iff hfatal, ← hending]
  constructor
  · exact fun h => h.1
  · intro hrunning
    refine ⟨hrunning, Or.inl ⟨hfaulted, hport, ?_⟩⟩
    rw [CallsOnce, hevents, List.countP_append, List.countP_append, List.countP_append, hfailure,
      countP_fatalCalls_of_known (hending.symm.trans hrunning)]
    simp [isFatalError]

/-- An error of a running session is handled exactly when a classifier knows it or
nobody asked to be told of it, and a write to be reported is in the queue. -/
theorem handled_iff (schedule : List Action) (s t : Transport) (a : Action) (ec : ErrorCode)
    (hexec : exec step Transport.init schedule = some s) (hopen : s.currentState = .opened)
    (hfails : FailsLive s ec a) (hstep : step s a = some t) :
    Handled s t ↔
      (ec ∈ knownErrors ∨ s.fatalErrorHandler = none) ∧ FrontReported s a := by
  obtain ⟨hclosing, hstopped⟩ := (coherent_of_run hexec).opened.mp hopen
  have hlive : Live s s.generation := ⟨hclosing, hstopped, rfl⟩
  have hrunning := ended_of_step hstep
  cases step_outcome hstep with
  | readIgnored i code bytesRead operationGeneration hread hstale =>
      obtain ⟨hgeneration, -, -⟩ := hfails
      obtain rfl : operationGeneration = s.generation := by simpa [hread] using hgeneration
      exact absurd hlive hstale
  | readRecovered i bytesRead hread =>
      obtain ⟨-, rfl, -⟩ := hfails
      apply iff_of_true
      · refine handled_of_recovered [] hrunning hopen ?_ ?_ ?_
        · simp
        · simp
        · rfl
      · exact ⟨Or.inl (by decide), trivial⟩
  | readFailed i code bytesRead hread _ hsuccess hfatal =>
      obtain ⟨-, rfl, -⟩ := hfails
      rw [handled_of_failed_iff [] rfl hfatal rfl rfl (by rw [List.append_nil]) rfl]
      exact (and_iff_left trivial).symm
  | writeIgnored i code operation hwrite hstale =>
      obtain ⟨hgeneration, -, -⟩ := hfails
      have hgeneration : operation.generation = s.generation := by
        simpa [hwrite] using hgeneration
      exact absurd (hgeneration ▸ hlive) hstale
  | writeRecovered i operation failure hwrite _ hfailure hnone =>
      obtain ⟨-, rfl, -⟩ := hfails
      apply iff_of_true
      · refine handled_of_recovered failure hrunning hopen ?_ ?_ ?_
        · simp
        · rfl
        · exact countP_failure_eq_zero hfailure hnone fun _ _ => rfl
      · exact ⟨Or.inl (by decide), frontReported_of_failure hnone⟩
  | writeFailed i code operation failure hwrite _ hsuccess hfatal hfailure hnone =>
      obtain ⟨-, rfl, -⟩ := hfails
      rw [handled_of_failed_iff failure rfl hfatal rfl rfl rfl
        (countP_failure_eq_zero hfailure hnone fun _ _ => rfl)]
      exact (and_iff_left (frontReported_of_failure hnone)).symm
  | undefined i code operation hwrite _ hqueue hfront =>
      obtain ⟨-, rfl, hsuccess⟩ := hfails
      have hhandler : s.writeHandler.isSome = true := hfront.resolve_left hsuccess
      constructor
      · rintro ⟨hended, -⟩
        cases hended
      · rintro ⟨-, hfrontReported⟩
        exact absurd hqueue (hfrontReported hhandler)
  | delivered => exact absurd hfails.2.1.symm hfails.2.2
  | writtenLast => exact absurd hfails.2.1.symm hfails.2.2
  | writtenNext => exact absurd hfails.2.1.symm hfails.2.2
  | _ => exact hfails.elim

def listeningSchedule : List Action :=
  [.post (.openPort defaultBufferConfig), .run 0 .succeeds,
    .post (.setFatalErrorHandler (some 1)), .run 0 .succeeds]

def listeningTransport : Transport := (exec step Transport.init listeningSchedule).get (by decide)

/-- A code no classifier names, with a handler installed: the process ends. -/
theorem not_handled_unknown :
    exec step Transport.init listeningSchedule = some listeningTransport ∧
      listeningTransport.currentState = .opened ∧
      FailsLive listeningTransport (.other 121) (.completeRead 0 (.other 121) 0) ∧
      ∃ t, step listeningTransport (.completeRead 0 (.other 121) 0) = some t ∧
        t.ended = some .terminated ∧ ¬Handled listeningTransport t := by
  refine ⟨by simp [listeningTransport], by decide, by decide,
    (step listeningTransport (.completeRead 0 (.other 121) 0)).get (by decide), by simp, ?_, ?_⟩
    <;> decide

theorem handled_unplugged :
    ∃ t, step listeningTransport (.completeRead 0 .eof 0) = some t ∧
      Handled listeningTransport t := by
  refine ⟨(step listeningTransport (.completeRead 0 .eof 0)).get (by decide), by simp, ?_⟩
  exact (handled_iff listeningSchedule listeningTransport _ (.completeRead 0 .eof 0) .eof
    (by simp [listeningTransport]) (by decide) (by decide) (by simp)).mpr
    ⟨Or.inl (by decide), trivial⟩

end EasyLoRa.ErrorHandling
