import EasyLoRa.Sessions

namespace EasyLoRa.Reception

open EasyLoRa.TransportModel
open EasyLoRa.TransportSystem
open EasyLoRa.TransportOutcomes

/-- `received` is what the stream has brought since the session began and `handed`
are the packages passed to the frame handler, each with the place in `received`
it was taken from. A write that fails with the recoverable error empties `rxBuffer`
too: `interruptions` are the places where that happened, and `recoveries` counts
the reads that failed with it. -/
structure Listener where
  transport : Transport
  received : List UInt8
  handed : List (Nat × List UInt8)
  interruptions : List Nat
  recoveries : Nat

def Listener.init : Listener := ⟨Transport.init, [], [], [], 0⟩

def packages (events : List Event) : List (List UInt8) :=
  events.filterMap fun
    | .frame package => some package
    | _ => none

theorem packages_append (events more : List Event) :
    packages (events ++ more) = packages events ++ packages more :=
  List.filterMap_append

def begins (s : Transport) : Action → Bool
  | .run i outcome => succeeding s i outcome
  | _ => false

def arriving : Action → List UInt8
  | .receive bytes => bytes
  | _ => []

/-- The read at place `i` belongs to the open session. -/
def liveRead (s : Transport) (i : Nat) : Bool := s.reads[i]?.any fun g => Live s g

/-- A read of the open session succeeds while a frame handler is installed. -/
def delivers (s : Transport) : Action → Bool
  | .completeRead i ec _ => liveRead s i && ec = .success && s.frameHandler.isSome
  | _ => false

def overflows (s : Transport) : Action → Bool
  | .completeRead i ec _ => liveRead s i && ec = .notFound
  | _ => false

def interruptsReception (s : Transport) : Action → Bool
  | .completeWrite i ec => recovering s i ec
  | _ => false

/-- Where the front of `rxBuffer` lies in the bytes received. -/
def Listener.place (r : Listener) : Nat := r.received.length - r.transport.rxBuffer.length

def observe (r : Listener) (a : Action) (t : Transport) : Listener :=
  if begins r.transport a then ⟨t, [], [], [], 0⟩
  else
    { transport := t
      received := r.received ++ arriving a
      handed := r.handed ++
        ((packages t.events).drop (packages r.transport.events).length).map
          fun package => (r.place, package)
      interruptions := r.interruptions ++
        if interruptsReception r.transport a then [r.received.length] else []
      recoveries := r.recoveries + (overflows r.transport a).toNat }

def listen (r : Listener) (a : Action) : Option Listener :=
  (step r.transport a).map (observe r a)

/-- What a step does to the receive side. -/
inductive ListenOutcome (r : Listener) : Action → Listener → Prop where
  | began (i : Nat) (outcome : OpenOutcome) (t : Transport) (hempty : t.rxBuffer = []) :
      ListenOutcome r (.run i outcome) ⟨t, [], [], [], 0⟩
  | received (bytes : List UInt8) (t : Transport)
      (hbuffer : t.rxBuffer = r.transport.rxBuffer ++ bytes)
      (hconfig : t.bufferConfig = r.transport.bufferConfig)
      (hstopped : t.stopped = r.transport.stopped) :
      ListenOutcome r (.receive bytes)
        { r with transport := t, received := r.received ++ bytes }
  | delivered (i bytesRead : Nat) (t : Transport) (hlive : liveRead r.transport i = true)
      (hrunning : r.transport.stopped = false)
      (hbuffer : t.rxBuffer = r.transport.rxBuffer.drop bytesRead)
      (hconfig : t.bufferConfig = r.transport.bufferConfig) :
      ListenOutcome r (.completeRead i .success bytesRead)
        { r with
          transport := t
          handed := r.handed ++
            if r.transport.frameHandler.isSome then
              [(r.place, r.transport.rxBuffer.take bytesRead)]
            else [] }
  | overflowed (i bytesRead : Nat) (t : Transport) (hlive : liveRead r.transport i = true)
      (hrunning : r.transport.stopped = false) (hbuffer : t.rxBuffer = [])
      (hconfig : t.bufferConfig = r.transport.bufferConfig) :
      ListenOutcome r (.completeRead i .notFound bytesRead)
        { r with transport := t, recoveries := r.recoveries + 1 }
  | interrupted (i : Nat) (t : Transport)
      (hrecovering : recovering r.transport i .notFound = true)
      (hrunning : r.transport.stopped = false) (hbuffer : t.rxBuffer = [])
      (hconfig : t.bufferConfig = r.transport.bufferConfig) :
      ListenOutcome r (.completeWrite i .notFound)
        { r with transport := t, interruptions := r.interruptions ++ [r.received.length] }
  | stopped (a : Action) (t : Transport) (hquiet : delivers r.transport a = false)
      (hstopped : t.stopped = true) :
      ListenOutcome r a { r with transport := t }
  | kept (a : Action) (t : Transport) (hquiet : delivers r.transport a = false)
      (hbuffer : t.rxBuffer = r.transport.rxBuffer)
      (hconfig : t.bufferConfig = r.transport.bufferConfig)
      (hstopped : t.stopped = r.transport.stopped) :
      ListenOutcome r a { r with transport := t }

theorem packages_calls (handler : Option Handler) {event : Event}
    (hevent : packages [event] = []) : packages (calls handler event) = [] := by
  refine List.filterMap_eq_nil_iff.mpr fun other hother => ?_
  rw [eq_of_mem_calls hother]
  exact List.filterMap_eq_nil_iff.mp hevent event (by simp)

theorem packages_fatalCalls (handler : Option Handler) (ec : ErrorCode) :
    packages (fatalCalls handler ec) = [] := by
  refine List.filterMap_eq_nil_iff.mpr fun event hevent => ?_
  obtain ⟨error, rfl⟩ := fatalError_of_mem_fatalCalls hevent
  rfl

theorem packages_failure {s : Transport} {failure : List Event}
    (hfailure : ∀ w rest, s.txDeque = w :: rest →
      failure = calls s.writeHandler (.writeResult .failed w.packetID))
    (hnone : s.txDeque = [] → failure = [] ∧ s.writeHandler = none) :
    packages failure = [] := by
  refine List.filterMap_eq_nil_iff.mpr fun event hevent => ?_
  obtain ⟨packetID, rfl⟩ := failed_of_mem_failure hfailure hnone hevent
  rfl

theorem observe_quiet {r : Listener} {a : Action} {t : Transport}
    (hbegins : begins r.transport a = false) (harriving : arriving a = [])
    (hevents : packages t.events = packages r.transport.events)
    (hinterrupts : interruptsReception r.transport a = false)
    (hoverflows : overflows r.transport a = false) :
    observe r a t = { r with transport := t } := by
  simp [observe, hbegins, harriving, hevents, hinterrupts, hoverflows]

theorem observe_receive {r : Listener} {bytes : List UInt8} {t : Transport}
    (hevents : t.events = r.transport.events) :
    observe r (.receive bytes) t =
      { r with transport := t, received := r.received ++ bytes } := by
  simp [observe, begins, arriving, interruptsReception, overflows, hevents]

theorem observe_delivered {r : Listener} {i bytesRead : Nat} {t : Transport}
    (hevents : t.events = r.transport.events ++
      calls r.transport.frameHandler (.frame (r.transport.rxBuffer.take bytesRead))) :
    observe r (.completeRead i .success bytesRead) t =
      { r with
        transport := t
        handed := r.handed ++
          if r.transport.frameHandler.isSome then
            [(r.place, r.transport.rxBuffer.take bytesRead)]
          else [] } := by
  cases hhandler : r.transport.frameHandler <;>
    simp [observe, begins, arriving, interruptsReception, overflows, hevents, packages, calls,
      hhandler]

theorem observe_overflowed {r : Listener} {i bytesRead : Nat} {t : Transport}
    (hlive : liveRead r.transport i = true)
    (hevents : packages t.events = packages r.transport.events) :
    observe r (.completeRead i .notFound bytesRead) t =
      { r with transport := t, recoveries := r.recoveries + 1 } := by
  simp [observe, begins, arriving, interruptsReception, overflows, hevents, hlive]

theorem observe_interrupted {r : Listener} {i : Nat} {t : Transport}
    (hrecovering : recovering r.transport i .notFound = true)
    (hevents : packages t.events = packages r.transport.events) :
    observe r (.completeWrite i .notFound) t =
      { r with transport := t, interruptions := r.interruptions ++ [r.received.length] } := by
  simp [observe, begins, arriving, interruptsReception, overflows, hevents, hrecovering]

theorem begins_run {s : Transport} {i : Nat} {outcome : OpenOutcome} {task : Task}
    (htask : s.posted[i]? = some task) (hnot : ∀ config, task ≠ .request (.openPort config)) :
    begins s (.run i outcome) = false := by
  cases task with
  | write w => simp [begins, succeeding, opening, htask]
  | request request =>
      cases request with
      | openPort config => exact absurd rfl (hnot config)
      | _ => simp [begins, succeeding, opening, htask]

theorem listen_outcome {r u : Listener} {a : Action} (hlisten : listen r a = some u) :
    ListenOutcome r a u := by
  obtain ⟨t, hstep, rfl⟩ := Option.map_eq_some_iff.mp hlisten
  have hquiet := @observe_quiet r a t
  cases step_outcome hstep with
  | called => rw [hquiet rfl rfl rfl rfl rfl]; exact .kept _ _ rfl rfl rfl rfl
  | refused =>
      rw [hquiet rfl rfl (by simp [packages]) rfl rfl]
      exact .kept _ _ rfl rfl rfl rfl
  | foundOpen => rw [hquiet rfl rfl rfl rfl rfl]; exact .kept _ _ rfl rfl rfl rfl
  | fitted => rw [hquiet rfl rfl rfl rfl rfl]; exact .kept _ _ rfl rfl rfl rfl
  | reserved => rw [hquiet rfl rfl rfl rfl rfl]; exact .kept _ _ rfl rfl rfl rfl
  | scheduled =>
      rw [hquiet rfl rfl (by simp [packages]) rfl rfl]
      exact .kept _ _ rfl rfl rfl rfl
  | requested => rw [hquiet rfl rfl rfl rfl rfl]; exact .kept _ _ rfl rfl rfl rfl
  | suppressed i outcome request htask hclosing =>
      have hbegins : begins r.transport (.run i outcome) = false := by
        cases request <;> simp [begins, succeeding, opening, htask, hclosing]
      rw [hquiet hbegins rfl rfl rfl rfl]
      exact .kept _ _ rfl rfl rfl rfl
  | openFailed i outcome config port htask hclosing hstream =>
      have hbegins : begins r.transport (.run i outcome) = false := by
        cases hport : r.transport.port <;> cases outcome <;>
          simp [begins, succeeding, opening, openStream, hport] at hstream ⊢
      rw [hquiet hbegins rfl (by simp [packages]) rfl rfl]
      exact .stopped _ _ rfl rfl
  | opened i outcome config htask hclosing hport houtcome =>
      have hbegins : begins r.transport (.run i outcome) = true := by
        simp [begins, succeeding, opening, htask, hclosing, hport, houtcome]
      rw [observe, if_pos hbegins]
      exact .began _ _ _ rfl
  | closed i outcome htask =>
      rw [hquiet (begins_run htask (by simp)) rfl (by simp [packages]) rfl rfl]
      exact .stopped _ _ rfl rfl
  | handlersSet i outcome request fh feh reh wh htask hclosing hset =>
      rw [hquiet (begins_run htask (by cases hset <;> simp)) rfl rfl rfl rfl]
      exact .kept _ _ rfl rfl rfl rfl
  | cancelled i outcome w htask =>
      rw [hquiet (begins_run htask (by simp)) rfl
        (by rw [packages_append, packages_calls _ rfl, List.append_nil]) rfl rfl]
      exact .kept _ _ rfl rfl rfl rfl
  | queued i outcome w htask =>
      rw [hquiet (begins_run htask (by simp)) rfl rfl rfl rfl]
      exact .kept _ _ rfl rfl rfl rfl
  | started i outcome w htask =>
      rw [hquiet (begins_run htask (by simp)) rfl (by simp [packages]) rfl rfl]
      exact .kept _ _ rfl rfl rfl rfl
  | received bytes =>
      rw [observe_receive]
      · exact .received bytes _ rfl rfl rfl
      · rfl
  | readIgnored i ec bytesRead g hread hstale =>
      have hoverflows : overflows r.transport (.completeRead i ec bytesRead) = false := by
        simp [overflows, liveRead, hread, hstale]
      rw [hquiet rfl rfl rfl rfl hoverflows]
      exact .kept _ _ (by simp [delivers, liveRead, hread, hstale]) rfl rfl rfl
  | delivered i bytesRead hread hlive =>
      rw [observe_delivered]
      · exact .delivered i bytesRead _ (by simp [liveRead, hread, hlive]) hlive.2.1 rfl rfl
      · rfl
  | readRecovered i bytesRead hread hlive =>
      have hliveRead : liveRead r.transport i = true := by simp [liveRead, hread, hlive]
      rw [observe_overflowed hliveRead]
      · exact .overflowed i bytesRead _ hliveRead hlive.2.1 rfl rfl
      · rw [packages_append, packages_calls _ rfl, List.append_nil]
  | readFailed i ec bytesRead hread hlive hsuccess hfatal =>
      have hoverflows : overflows r.transport (.completeRead i ec bytesRead) = false := by
        simp [overflows, hfatal]
      rw [hquiet rfl rfl ?_ rfl hoverflows]
      · exact .stopped _ _ (by simp [delivers, hsuccess]) rfl
      · rw [packages_append, packages_append, packages_fatalCalls]
        simp [packages]
  | writeIgnored i ec operation hwrite hstale =>
      have hinterrupts : interruptsReception r.transport (.completeWrite i ec) = false := by
        simp [interruptsReception, recovering, hwrite, hstale]
      rw [hquiet rfl rfl rfl hinterrupts rfl]
      exact .kept _ _ rfl rfl rfl rfl
  | writtenLast i operation w hwrite =>
      have hinterrupts : interruptsReception r.transport (.completeWrite i .success) = false := by
        simp [interruptsReception, recovering, hwrite]
      rw [hquiet rfl rfl (by rw [packages_append, packages_calls _ rfl, List.append_nil])
        hinterrupts rfl]
      exact .kept _ _ rfl rfl rfl rfl
  | writtenNext i operation w next rest hwrite =>
      have hinterrupts : interruptsReception r.transport (.completeWrite i .success) = false := by
        simp [interruptsReception, recovering, hwrite]
      rw [hquiet rfl rfl ?_ hinterrupts rfl]
      · exact .kept _ _ rfl rfl rfl rfl
      · rw [packages_append, packages_append, packages_calls _ rfl]
        simp [packages]
  | writeRecovered i operation failure hwrite hlive hfailure hnone =>
      have hrecovering : recovering r.transport i .notFound = true := by
        by_cases hqueue : r.transport.txDeque = []
        · simp [recovering, hwrite, hlive, (hnone hqueue).2]
        · simp [recovering, hwrite, hlive, hqueue]
      rw [observe_interrupted hrecovering]
      · exact .interrupted i _ hrecovering hlive.2.1 rfl rfl
      · rw [packages_append, packages_append, packages_calls _ rfl,
          packages_failure hfailure hnone, List.append_nil, List.append_nil]
  | writeFailed i ec operation failure hwrite hlive hsuccess hfatal hfailure hnone =>
      have hinterrupts : interruptsReception r.transport (.completeWrite i ec) = false := by
        simp [interruptsReception, recovering, hwrite, hfatal]
      rw [hquiet rfl rfl ?_ hinterrupts rfl]
      · exact .stopped _ _ rfl rfl
      · rw [packages_append, packages_append, packages_append, packages_fatalCalls,
          packages_failure hfailure hnone]
        simp [packages]
  | undefined i ec operation hwrite hlive hqueue hfront =>
      have hinterrupts : interruptsReception r.transport (.completeWrite i ec) = false := by
        rcases hfront with rfl | hhandler
        · simp [interruptsReception, recovering, hwrite]
        · simp [interruptsReception, recovering, hwrite, hqueue,
            Option.isSome_iff_ne_none.mp hhandler]
      rw [hquiet rfl rfl rfl hinterrupts rfl]
      exact .kept _ _ rfl rfl rfl rfl

end EasyLoRa.Reception
