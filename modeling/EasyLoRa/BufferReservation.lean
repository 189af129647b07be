import EasyLoRa.PortState

namespace EasyLoRa.BufferReservation

open EasyLoRa.TransportModel
open EasyLoRa.TransportSystem
open EasyLoRa.TransportOutcomes
open EasyLoRa.PortState

/-- Whether `rxBuffer.reserve` gets the memory it asks for. -/
inductive ReserveOutcome where
  | reserves
  | throws
deriving DecidableEq, Repr

/-- `rxBuffer.max_size()`. -/
def maxSize : Nat := 0x7FFFFFFFFFFFFFFF

/-- Beyond `max_size` the call throws in any case. -/
def reserveThrows (newBufferConfig : BufferConfig) (reservation : ReserveOutcome) : Bool :=
  maxSize < newBufferConfig.rxBufferMaxSize || reservation = .throws

/-- `open` with the call of `reserve`, which stands before the `try` block. Where it throws
the stream is not touched and `currentState` stays `Opening`. -/
def openReserving (s : Transport) (newBufferConfig : BufferConfig) (outcome : OpenOutcome)
    (reservation : ReserveOutcome) : Transport :=
  if s.closing then s
  else if reserveThrows newBufferConfig reservation then
    { s with
      generation := nextGeneration s.generation
      stopped := true
      currentState := .opening
      rxBuffer := []
      txDeque := []
      pendingWrites := 0
      bufferConfig := newBufferConfig
      events := s.events ++ [.threw] }
  else openOnStrand s newBufferConfig outcome

def runReserving (s : Transport) (outcome : OpenOutcome) (reservation : ReserveOutcome) :
    Task → Transport
  | .request (.openPort bufferConfig) => openReserving s bufferConfig outcome reservation
  | task => runTask s outcome task

/-- One step of the system, with what `reserve` does in the open task it runs. -/
def reservingStep (s : Transport) : Action × ReserveOutcome → Option Transport
  | (.run i outcome, reservation) =>
      if s.ended.isSome then none
      else
        s.posted[i]?.map fun task =>
          runReserving { s with posted := s.posted.eraseIdx i } outcome reservation task
  | (a, _) => step s a

/-- The open task at place `i` gets no further than `reserve`. -/
def failsToReserve (s : Transport) (reservation : ReserveOutcome) (i : Nat) : Bool :=
  match s.posted[i]? with
  | some (.request (.openPort newBufferConfig)) =>
      !s.closing && reserveThrows newBufferConfig reservation
  | _ => false

inductive ReservingOutcome (s : Transport) : Action → Transport → Prop where
  | undisturbed (a : Action) (t : Transport) (hstep : step s a = some t) :
      ReservingOutcome s a t
  | reserveThrew (i : Nat) (outcome : OpenOutcome) (newBufferConfig : BufferConfig)
      (htask : s.posted[i]? = some (.request (.openPort newBufferConfig)))
      (hclosing : s.closing = false) :
      ReservingOutcome s (.run i outcome) { s with
        posted := s.posted.eraseIdx i
        generation := nextGeneration s.generation
        stopped := true
        currentState := .opening
        rxBuffer := []
        txDeque := []
        pendingWrites := 0
        bufferConfig := newBufferConfig
        events := s.events ++ [.threw] }

/-- Where `reserve` returns, the system is the one of `step`. -/
theorem reservingStep_run {s : Transport} {i : Nat} {reservation : ReserveOutcome}
    (outcome : OpenOutcome) (hreserves : failsToReserve s reservation i = false) :
    reservingStep s (.run i outcome, reservation) = step s (.run i outcome) := by
  simp only [reservingStep, step]
  cases htask : s.posted[i]? with
  | none => rfl
  | some task =>
      have hrun : runReserving { s with posted := s.posted.eraseIdx i } outcome reservation task =
          runTask { s with posted := s.posted.eraseIdx i } outcome task := by
        unfold runReserving
        split
        · next newBufferConfig =>
            simp only [failsToReserve, htask] at hreserves
            cases hclosing : s.closing <;>
              simp_all [openReserving, runTask, openOnStrand]
        · rfl
      simp only [Option.map_some, hrun]

theorem reservingStep_outcome {s t : Transport} {a : Action} {reservation : ReserveOutcome}
    (hstep : reservingStep s (a, reservation) = some t) : ReservingOutcome s a t := by
  cases a with
  | run i outcome =>
      cases hfails : failsToReserve s reservation i with
      | false =>
          rw [reservingStep_run outcome hfails] at hstep
          exact .undisturbed _ _ hstep
      | true =>
          unfold failsToReserve at hfails
          split at hfails
          · next newBufferConfig htask =>
              obtain ⟨hclosing, hthrows⟩ : s.closing = false ∧
                  reserveThrows newBufferConfig reservation = true := by simpa using hfails
              have houtcome := ReservingOutcome.reserveThrew i outcome newBufferConfig htask hclosing
              simp only [reservingStep, htask, Option.map_some] at hstep
              split at hstep
              · contradiction
              · obtain rfl := Option.some.inj hstep
                simpa [runReserving, openReserving, hclosing, hthrows] using houtcome
          · contradiction
  | asyncWrite toWrite packetID => exact .undisturbed _ _ hstep
  | advance i => exact .undisturbed _ _ hstep
  | post request => exact .undisturbed _ _ hstep
  | receive bytes => exact .undisturbed _ _ hstep
  | completeRead i ec bytesRead => exact .undisturbed _ _ hstep
  | completeWrite i ec => exact .undisturbed _ _ hstep

theorem coherent_reservingStep {s t : Transport} {l : Action × ReserveOutcome}
    (hs : Coherent s) (hstep : reservingStep s l = some t) : Coherent t := by
  obtain ⟨a, reservation⟩ := l
  cases reservingStep_outcome hstep with
  | undisturbed _ _ hnormal => exact coherent_step hs hnormal
  | reserveThrew i outcome newBufferConfig htask hclosing =>
      exact ⟨by simp, by simp [hclosing], fun _ => rfl⟩

end EasyLoRa.BufferReservation
