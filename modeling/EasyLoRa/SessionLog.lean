import EasyLoRa.BufferReservation

namespace EasyLoRa.SessionLog

open EasyLoRa.TransportModel
open EasyLoRa.TransportSystem
open EasyLoRa.TransportOutcomes
open EasyLoRa.PortState
open EasyLoRa.BufferReservation
open EasyLoRa.TransitionSystem

/-- Where a session protocol stands: no session, the stream asked to open, a session, the
stream asked to open although there is a session, its operations cancelled, or closed
just now. -/
inductive Phase where
  | down
  | opening
  | up
  | refusing
  | cancelling
  | fallen
deriving DecidableEq, Repr

def whileDown : Event → Option Phase
  | .returned _ _ => some .down
  | .writeResult .cancelled _ => some .down
  | .threw => some .down
  | .streamOpen => some .opening
  | .streamCancel => some .cancelling
  | _ => none

def whileUp : Event → Option Phase
  | .returned _ _ => some .up
  | .frame _ => some .up
  | .recuperableError _ => some .up
  | .writeResult .written _ => some .up
  | .writeResult .failed _ => some .up
  | .handed _ _ => some .up
  | .threw => some .down
  | .streamOpen => some .refusing
  | .streamCancel => some .cancelling
  | _ => none

/-- One event of the log. A fatal error is reported at once after the stream was closed.
An exception comes out of an open task, after the stream was asked to open or in its place;
where there is a session, it ends there. -/
def logStep : Phase → Event → Option Phase
  | .down, event => whileDown event
  | .opening, event => whileUp event
  | .up, event => whileUp event
  | .refusing, .threw => some .down
  | .refusing, _ => none
  | .cancelling, .streamClose => some .fallen
  | .cancelling, _ => none
  | .fallen, .fatalError _ => some .down
  | .fallen, event => whileDown event

def Phase.InSession (phase : Phase) : Prop := phase = .opening ∨ phase = .up

def Phase.NoSession (phase : Phase) : Prop := phase = .down ∨ phase = .fallen

def running (s : Transport) : Bool := !s.closing && !s.stopped

/-- The log is a word of the protocol, and leads to a session exactly if there is one. -/
def Obeys (s : Transport) : Prop :=
  ∃ phase, exec logStep .down s.events = some phase ∧
    (running s = true → phase.InSession) ∧ (running s = false → phase.NoSession)

theorem running_of_live {s : Transport} {operationGeneration : Nat}
    (hlive : Live s operationGeneration) : running s = true := by
  simp [running, hlive.1, hlive.2.1]

theorem exec_up {phase : Phase} (hphase : phase.InSession) {more : List Event}
    (hmore : ∀ event ∈ more, whileUp event = some .up) :
    ∃ next, exec logStep phase more = some next ∧ next.InSession := by
  induction more generalizing phase with
  | nil => exact ⟨phase, rfl, hphase⟩
  | cons event more ih =>
      have hevent := hmore event (by simp)
      have hstep : logStep phase event = some .up := by
        rcases hphase with rfl | rfl
        · cases event <;> simp_all [logStep, whileUp]
        · exact hevent
      obtain ⟨next, hexec, hnext⟩ :=
        ih (Or.inr rfl) (fun event hmem => hmore event (by simp [hmem]))
      exact ⟨next, exec_cons_eq_some.mpr ⟨.up, hstep, hexec⟩, hnext⟩

theorem exec_down {phase : Phase} (hphase : phase.NoSession) {more : List Event}
    (hmore : ∀ event ∈ more, whileDown event = some .down) :
    ∃ next, exec logStep phase more = some next ∧ next.NoSession := by
  induction more generalizing phase with
  | nil => exact ⟨phase, rfl, hphase⟩
  | cons event more ih =>
      have hevent := hmore event (by simp)
      have hstep : logStep phase event = some .down := by
        rcases hphase with rfl | rfl
        · exact hevent
        · cases event <;> simp_all [logStep, whileDown]
      obtain ⟨next, hexec, hnext⟩ :=
        ih (Or.inl rfl) (fun event hmem => hmore event (by simp [hmem]))
      exact ⟨next, exec_cons_eq_some.mpr ⟨.down, hstep, hexec⟩, hnext⟩

/-- The stream is cancelled and closed, and then perhaps a fatal error is reported. -/
theorem exec_fall {phase : Phase} (hphase : phase.InSession ∨ phase.NoSession)
    (fatal : List Event) (hfatal : fatal = [] ∨ ∃ error, fatal = [.fatalError error]) :
    ∃ next, exec logStep phase ([.streamCancel, .streamClose] ++ fatal) = some next ∧
      next.NoSession := by
  rcases hfatal with rfl | ⟨error, rfl⟩
  · exact ⟨.fallen, by rcases hphase with (rfl | rfl) | (rfl | rfl) <;> rfl, Or.inr rfl⟩
  · exact ⟨.down, by rcases hphase with (rfl | rfl) | (rfl | rfl) <;> rfl, Or.inl rfl⟩

theorem exec_refused {phase : Phase} (hphase : phase.InSession ∨ phase.NoSession) :
    exec logStep phase [.streamOpen, .threw] = some .down := by
  rcases hphase with (rfl | rfl) | (rfl | rfl) <;> rfl

theorem exec_threw {phase : Phase} (hphase : phase.InSession ∨ phase.NoSession) :
    exec logStep phase [.threw] = some .down := by
  rcases hphase with (rfl | rfl) | (rfl | rfl) <;> rfl

theorem fatalCalls_cases (handler : Option Handler) (ec : ErrorCode) :
    fatalCalls handler ec = [] ∨ ∃ error, fatalCalls handler ec = [.fatalError error] := by
  unfold fatalCalls
  split
  · cases hknown : clarifyFatalError ec with
    | none => exact Or.inl rfl
    | some error => exact Or.inr ⟨error, rfl⟩
  · exact Or.inl rfl

theorem phase_cases {s : Transport} {phase : Phase} (hup : running s = true → phase.InSession)
    (hdown : running s = false → phase.NoSession) : phase.InSession ∨ phase.NoSession := by
  cases hrunning : running s with
  | true => exact Or.inl (hup hrunning)
  | false => exact Or.inr (hdown hrunning)

/-- An open stream is what a session runs on. -/
structure Obeying (s : Transport) : Prop where
  port : running s = true → s.port = true
  obeys : Obeys s

theorem obeying_init : Obeying Transport.init :=
  ⟨by decide, .down, rfl, by simp [running, Transport.init], fun _ => Or.inl rfl⟩

/-- The events of a step that stays in a session. -/
theorem obeys_up {s t : Transport} {more : List Event} (hs : Obeys s)
    (hrunning : running s = true) (ht : running t = true) (hevents : t.events = s.events ++ more)
    (hmore : ∀ event ∈ more, whileUp event = some .up) : Obeys t := by
  obtain ⟨phase, hexec, hup, -⟩ := hs
  obtain ⟨next, hnext, hsession⟩ := exec_up (hup hrunning) hmore
  refine ⟨next, ?_, fun _ => hsession, by simp [ht]⟩
  exact hevents ▸ exec_append_eq_some.mpr ⟨phase, hexec, hnext⟩

/-- The events of a step that changes nothing about the session. -/
theorem obeys_same {s t : Transport} {more : List Event} (hs : Obeys s)
    (ht : running t = running s) (hevents : t.events = s.events ++ more)
    (hup : running s = true → ∀ event ∈ more, whileUp event = some .up)
    (hdown : running s = false → ∀ event ∈ more, whileDown event = some .down) : Obeys t := by
  cases hrunning : running s with
  | true => exact obeys_up hs hrunning (ht.trans hrunning) hevents (hup hrunning)
  | false =>
      obtain ⟨phase, hexec, -, hnone⟩ := hs
      obtain ⟨next, hnext, hsession⟩ := exec_down (hnone hrunning) (hdown hrunning)
      refine ⟨next, ?_, by simp [ht, hrunning], fun _ => hsession⟩
      exact hevents ▸ exec_append_eq_some.mpr ⟨phase, hexec, hnext⟩

/-- The events of a step that ends a session: those of the session, then the fall. -/
theorem obeys_fall {s t : Transport} (before fatal : List Event) (hs : Obeys s)
    (ht : running t = false)
    (hevents : t.events = s.events ++ before ++ ([.streamCancel, .streamClose] ++ fatal))
    (hbefore : before = [] ∨
      running s = true ∧ ∀ event ∈ before, whileUp event = some .up)
    (hfatal : fatal = [] ∨ ∃ error, fatal = [.fatalError error]) : Obeys t := by
  obtain ⟨phase, hexec, hup, hdown⟩ := hs
  have hlast : ∃ last, exec logStep phase before = some last ∧
      (last.InSession ∨ last.NoSession) := by
    rcases hbefore with rfl | ⟨hrunning, hbefore⟩
    · exact ⟨phase, rfl, phase_cases hup hdown⟩
    · obtain ⟨last, hlast, hsession⟩ := exec_up (hup hrunning) hbefore
      exact ⟨last, hlast, Or.inl hsession⟩
  obtain ⟨last, hlast, hcases⟩ := hlast
  obtain ⟨next, hnext, hnone⟩ := exec_fall hcases fatal hfatal
  refine ⟨next, ?_, by simp [ht], fun _ => hnone⟩
  rw [hevents]
  exact exec_append_eq_some.mpr ⟨last, exec_append_eq_some.mpr ⟨phase, hexec, hlast⟩, hnext⟩

theorem whileUp_of_mem_calls {handler : Option Handler} {event other : Event}
    (hup : whileUp event = some .up) (h : other ∈ calls handler event) :
    whileUp other = some .up :=
  eq_of_mem_calls h ▸ hup

theorem whileUp_of_mem_failure {s : Transport} {failure : List Event}
    (hfailure : ∀ w rest, s.txDeque = w :: rest →
      failure = calls s.writeHandler (.writeResult .failed w.packetID))
    (hnone : s.txDeque = [] → failure = [] ∧ s.writeHandler = none) {event : Event}
    (h : event ∈ failure) : whileUp event = some .up := by
  obtain ⟨packetID, rfl⟩ := failed_of_mem_failure hfailure hnone h
  rfl

theorem running_of_down {s : Transport} (hdown : s.closing = true ∨ s.stopped = true) :
    running s = false := by
  rcases hdown with h | h <;> simp [running, h]

theorem obeys_step {s t : Transport} {a : Action} (hs : Obeying s)
    (hstep : step s a = some t) : Obeys t := by
  have hobeys := hs.obeys
  cases step_outcome hstep with
  | refused i caller status hcaller hrefuses =>
      exact obeys_same hobeys rfl rfl (by simp [whileUp]) (by simp [whileDown])
  | scheduled i caller hcaller hpc =>
      exact obeys_same hobeys rfl rfl (by simp [whileUp]) (by simp [whileDown])
  | openFailed i outcome newBufferConfig port htask hclosing hstream =>
      obtain ⟨phase, hexec, hup, hdown⟩ := hobeys
      refine ⟨.down, ?_, by simp [running], fun _ => Or.inl rfl⟩
      exact exec_append_eq_some.mpr ⟨phase, hexec, exec_refused (phase_cases hup hdown)⟩
  | opened i outcome newBufferConfig htask hclosing hport houtcome =>
      obtain ⟨phase, hexec, -, hdown⟩ := hobeys
      have hnone : running s = false := by
        by_contra hrunning
        simp [hs.port (by simpa using hrunning)] at hport
      refine ⟨.opening, ?_, fun _ => Or.inl rfl, by simp [running, hclosing]⟩
      refine exec_append_eq_some.mpr ⟨phase, hexec, ?_⟩
      rcases hdown hnone with rfl | rfl <;> rfl
  | closed i outcome htask hclosing =>
      exact obeys_fall [] [] hobeys (by simp [running]) (by simp)
        (Or.inl rfl) (Or.inl rfl)
  | cancelled i outcome w htask hdown =>
      refine obeys_same hobeys rfl rfl (by simp [running_of_down hdown]) fun _ event hmem => ?_
      rw [eq_of_mem_calls hmem]
      rfl
  | started i outcome w htask hclosing hstopped hidle =>
      have hrunning : running s = true := by simp [running, hclosing, hstopped]
      exact obeys_up hobeys hrunning hrunning rfl (by simp [whileUp])
  | delivered i bytesRead hread hlive =>
      have hrunning := running_of_live hlive
      exact obeys_up hobeys hrunning hrunning rfl fun event => whileUp_of_mem_calls rfl
  | readRecovered i bytesRead hread hlive =>
      have hrunning := running_of_live hlive
      exact obeys_up hobeys hrunning hrunning rfl fun event => whileUp_of_mem_calls rfl
  | readFailed i ec bytesRead hread hlive hsuccess hfatal =>
      exact obeys_fall [] _ hobeys (by simp [running]) (by simp) (Or.inl rfl)
        (fatalCalls_cases s.fatalErrorHandler ec)
  | writtenLast i operation w hwrite hlive hqueue =>
      have hrunning := running_of_live hlive
      exact obeys_up hobeys hrunning hrunning rfl fun event => whileUp_of_mem_calls rfl
  | writtenNext i operation w next rest hwrite hlive hqueue =>
      have hrunning := running_of_live hlive
      refine obeys_up hobeys hrunning hrunning (List.append_assoc _ _ _) fun event hmem => ?_
      rcases List.mem_append.mp hmem with hmem | hmem
      · exact whileUp_of_mem_calls rfl hmem
      · obtain rfl := List.mem_singleton.mp hmem
        rfl
  | writeRecovered i operation failure hwrite hlive hfailure hnone =>
      have hrunning := running_of_live hlive
      refine obeys_up hobeys hrunning hrunning (List.append_assoc _ _ _) fun event hmem => ?_
      rcases List.mem_append.mp hmem with hmem | hmem
      · exact whileUp_of_mem_failure hfailure hnone hmem
      · exact whileUp_of_mem_calls rfl hmem
  | writeFailed i ec operation failure hwrite hlive hsuccess hfatal hfailure hnone =>
      exact obeys_fall failure _ hobeys (by simp [running]) (by simp)
        (Or.inr ⟨running_of_live hlive, fun event => whileUp_of_mem_failure hfailure hnone⟩)
        (fatalCalls_cases s.fatalErrorHandler ec)
  | _ => exact hobeys

theorem obeying_step {s t : Transport} {a : Action} (hs : Obeying s)
    (hstep : step s a = some t) : Obeying t := by
  refine ⟨?_, obeys_step hs hstep⟩
  cases step_outcome hstep with
  | opened => exact fun _ => rfl
  | openFailed => simp [running]
  | closed => simp [running]
  | readFailed => simp [running]
  | writeFailed => simp [running]
  | _ => exact hs.port

theorem obeying_reservingStep {s t : Transport} {l : Action × ReserveOutcome}
    (hs : Obeying s) (hstep : reservingStep s l = some t) : Obeying t := by
  obtain ⟨a, reservation⟩ := l
  cases reservingStep_outcome hstep with
  | undisturbed _ _ hnormal => exact obeying_step hs hnormal
  | reserveThrew i outcome newBufferConfig htask hclosing =>
      obtain ⟨phase, hexec, hup, hdown⟩ := hs.obeys
      refine ⟨by simp [running], .down, ?_, by simp [running], fun _ => Or.inl rfl⟩
      exact exec_append_eq_some.mpr ⟨phase, hexec, exec_threw (phase_cases hup hdown)⟩

theorem running_eq_isOpen {s : Transport} (hs : Coherent s) : running s = isOpen s := by
  have hopened := hs.opened
  cases hclosing : s.closing <;> cases hstopped : s.stopped <;>
    simp_all [running, isOpen]

/-- Every log is a word of the session protocol, whatever the users of the transport, its
stream and the memory do, and it stands in a session exactly while `isOpen` holds. -/
theorem log_of_run (schedule : List (Action × ReserveOutcome)) (s : Transport)
    (hexec : exec reservingStep Transport.init schedule = some s) :
    ∃ phase, exec logStep .down s.events = some phase ∧
      (isOpen s = true → phase.InSession) ∧ (isOpen s = false → phase.NoSession) := by
  have hcoherent : Coherent s :=
    exec_stable (fun _ _ _ hs hstep => coherent_reservingStep hs hstep) coherent_init hexec
  rw [← running_eq_isOpen hcoherent]
  exact (exec_stable (fun _ _ _ hs hstep => obeying_reservingStep hs hstep) obeying_init
    hexec).obeys

/-- More than a `vector` can hold. -/
def hugeBufferConfig : BufferConfig := { defaultBufferConfig with rxBufferMaxSize := 2 ^ 63 }

/-- One frame arrives, the device is unplugged and opened again. An open with a huge buffer
ends the session and leaves the port as it is, so that the next one is refused. -/
def twoSessions : List (Action × ReserveOutcome) :=
  [.post (.setFrameHandler (some 1)), .run 0 .succeeds, .post (.setFatalErrorHandler (some 2)),
    .run 0 .succeeds, .post (.openPort defaultBufferConfig), .run 0 .succeeds, .receive [7, 0],
    .completeRead 0 .success 2, .completeRead 0 .eof 0, .post (.openPort defaultBufferConfig),
    .run 0 .succeeds, .post (.openPort hugeBufferConfig), .run 0 .succeeds,
    .post (.openPort defaultBufferConfig), .run 0 .succeeds].map fun a => (a, .reserves)

theorem log_twoSessions :
    ∃ s, exec reservingStep Transport.init twoSessions = some s ∧
      s.events = [.streamOpen, .frame [7, 0], .streamCancel, .streamClose,
        .fatalError .unpluggedDevice, .streamOpen, .threw, .streamOpen, .threw] ∧
      ∃ phase, exec logStep .down s.events = some phase ∧ phase.NoSession := by
  have hrun : ∃ s, exec reservingStep Transport.init twoSessions = some s ∧
      s.events = [.streamOpen, .frame [7, 0], .streamCancel, .streamClose,
        .fatalError .unpluggedDevice, .streamOpen, .threw, .streamOpen, .threw] ∧
      isOpen s = false :=
    ⟨(exec reservingStep Transport.init twoSessions).get (by decide), by simp, by decide,
      by decide⟩
  obtain ⟨s, hexec, hevents, hopen⟩ := hrun
  obtain ⟨phase, hphase, -, hdown⟩ := log_of_run twoSessions s hexec
  exact ⟨s, hexec, hevents, phase, hphase, hdown hopen⟩

end EasyLoRa.SessionLog
