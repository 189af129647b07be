import EasyLoRa.PortState

namespace EasyLoRa.StateCoherence

open EasyLoRa.TransportModel
open EasyLoRa.TransportSystem
open EasyLoRa.TransportOutcomes
open EasyLoRa.TransitionSystem
open EasyLoRa.PortState

structure Settled (s : Transport) : Prop where
  opened : s.currentState = .opened ↔ s.stopped = false ∧ s.closing = false
  closed : s.closing = true → s.stopped = true ∧ s.currentState = .closed
  notOpening : s.currentState ≠ .opening
  notClosing : s.currentState ≠ .closing
  txIdle : s.currentState ≠ .opened → s.txDeque = []

/-- The transport is between two steps of its strand, not inside one. -/
def Between (s : Transport) : Prop := s.currentState ≠ .opening ∧ s.currentState ≠ .closing

theorem between_step {s t : Transport} {a : Action} (hs : Between s)
    (hstep : step s a = some t) : Between t := by
  cases step_outcome hstep with
  | openFailed => constructor <;> simp
  | opened => constructor <;> simp
  | closed => constructor <;> simp
  | readFailed => constructor <;> simp
  | writeFailed => constructor <;> simp
  | _ => exact hs

theorem settled_of_coherent {s : Transport} (hs : Coherent s) (hbetween : Between s) :
    Settled s := by
  refine ⟨by rw [hs.opened, and_comm], hs.closed, hbetween.1, hbetween.2, ?_⟩
  intro hdown
  apply hs.idle
  by_contra hstopped
  rw [Bool.not_eq_true] at hstopped
  apply hdown
  apply hs.opened.mpr
  cases hclosing : s.closing with
  | false => exact ⟨rfl, hstopped⟩
  | true => simp [(hs.closed hclosing).1] at hstopped

/-- The bytes the stream appends to `rxBuffer` while the port is not open, through
a read that was outstanding when the session ended. -/
def strayBytes (s : Transport) : Action → List UInt8
  | .receive bytes => if s.currentState = .opened then [] else bytes
  | _ => []

/-- Unless the port is open, `rxBuffer` holds nothing but stray bytes. -/
def RxIdle (s : Transport) (stray : List UInt8) : Prop :=
  s.currentState ≠ .opened → s.rxBuffer <:+ stray

theorem rxIdle_step {s t : Transport} {stray : List UInt8} {a : Action} (hs : Coherent s)
    (hidle : RxIdle s stray) (hstep : step s a = some t) :
    RxIdle t (stray ++ strayBytes s a) := by
  intro hdown
  have hlive : ∀ {g : Nat}, Live s g → s.currentState = .opened :=
    fun h => hs.opened.mpr ⟨h.1, h.2.1⟩
  cases step_outcome hstep with
  | received bytes hreads =>
      rw [strayBytes, if_neg hdown]
      obtain ⟨front, rfl⟩ := hidle hdown
      exact ⟨front, (List.append_assoc _ _ _).symm⟩
  | openFailed => exact List.nil_suffix
  | opened => exact absurd rfl hdown
  | closed => exact List.nil_suffix
  | delivered i bytesRead hread h => exact absurd (hlive h) hdown
  | readRecovered => exact List.nil_suffix
  | readFailed => exact List.nil_suffix
  | writeRecovered => exact List.nil_suffix
  | writeFailed => exact List.nil_suffix
  | _ =>
      have hunchanged : s.rxBuffer <:+ stray ++ [] := by simpa using hidle hdown
      exact hunchanged

/-- A call of `asyncWrite` made here, with nobody else taking a step, returns `status`. -/
def Answers (s : Transport) (toWrite : List UInt8) (packetID : Nat) (status : WriteStatus) :
    Prop :=
  ∃ n t, exec step s (.asyncWrite toWrite packetID ::
      List.replicate n (.advance s.callers.length)) = some t ∧
    t.events = s.events ++ [.returned packetID status]

theorem step_advance_last {s : Transport} {callers : List Caller} {caller : Caller}
    (hrunning : s.ended = none) (hcallers : s.callers = callers ++ [caller]) :
    step s (.advance callers.length) = some (advanceCaller s callers.length caller) := by
  simp [step, hrunning, hcallers]

/-- The last call of `callers ++ [caller]` runs to its return and leaves these events. -/
def Finishes (s : Transport) (callers : List Caller) (events : List Event) : Prop :=
  ∃ n t, exec step s (List.replicate n (.advance callers.length)) = some t ∧ t.events = events

theorem finishes_of_advance {s : Transport} {callers : List Caller} {caller : Caller}
    {events : List Event} (hrunning : s.ended = none) (hcallers : s.callers = callers ++ [caller])
    (h : Finishes (advanceCaller s callers.length caller) callers events) :
    Finishes s callers events := by
  obtain ⟨n, t, hexec, hevents⟩ := h
  refine ⟨n + 1, t, ?_, hevents⟩
  rw [List.replicate_succ, exec_cons_eq_some]
  exact ⟨_, step_advance_last hrunning hcallers, hexec⟩

theorem finishes_returned (s : Transport) (callers : List Caller) (caller : Caller)
    (status : WriteStatus) :
    Finishes (returnStatus s callers.length caller status) callers
      (s.events ++ [.returned caller.write.packetID status]) :=
  ⟨0, _, rfl, rfl⟩

theorem finishes_posting {s : Transport} {callers : List Caller} {w : Write}
    (hrunning : s.ended = none) (hcallers : s.callers = callers ++ [⟨.posting, w⟩]) :
    Finishes s callers (s.events ++ [.returned w.packetID .scheduled]) := by
  apply finishes_of_advance hrunning hcallers
  exact finishes_returned _ callers ⟨.posting, w⟩ .scheduled

theorem finishes_reserving {s : Transport} (callers : List Caller) {w : Write}
    (hrunning : s.ended = none) (hcallers : s.callers = callers ++ [⟨.reserving, w⟩]) :
    ∃ status, Finishes s callers (s.events ++ [.returned w.packetID status]) := by
  by_cases hfull : s.bufferConfig.txMaxElementsInQueue ≤ s.pendingWrites
  · refine ⟨.queueFull, finishes_of_advance hrunning hcallers ?_⟩
    rw [advanceCaller, if_pos hfull]
    exact finishes_returned s callers ⟨.reserving, w⟩ .queueFull
  · refine ⟨.scheduled, finishes_of_advance hrunning hcallers ?_⟩
    rw [advanceCaller, if_neg hfull]
    apply finishes_posting
    · exact hrunning
    · simp [hcallers]

theorem finishes_checkingSize {s : Transport} (callers : List Caller) {w : Write}
    (hrunning : s.ended = none) (hcallers : s.callers = callers ++ [⟨.checkingSize, w⟩]) :
    ∃ status, Finishes s callers (s.events ++ [.returned w.packetID status]) := by
  by_cases hsize : s.bufferConfig.txMaxSizePerElement < w.toWrite.length
  · refine ⟨.messageTooLong, finishes_of_advance hrunning hcallers ?_⟩
    rw [advanceCaller, if_pos hsize]
    exact finishes_returned s callers ⟨.checkingSize, w⟩ .messageTooLong
  · obtain ⟨status, h⟩ := finishes_reserving callers
      (s := advanceCaller s callers.length ⟨.checkingSize, w⟩) (w := w)
      (by simpa [advanceCaller, hsize] using hrunning) (by simp [advanceCaller, hsize, hcallers])
    refine ⟨status, finishes_of_advance hrunning hcallers ?_⟩
    simpa [advanceCaller, hsize] using h

theorem finishes_checkingClosed {s : Transport} (callers : List Caller) {w : Write}
    (hrunning : s.ended = none) (hcallers : s.callers = callers ++ [⟨.checkingClosed, w⟩]) :
    ∃ status, Finishes s callers (s.events ++ [.returned w.packetID status]) := by
  by_cases hdown : (s.closing || s.stopped) = true
  · refine ⟨.closed, finishes_of_advance hrunning hcallers ?_⟩
    rw [advanceCaller, if_pos hdown]
    exact finishes_returned s callers ⟨.checkingClosed, w⟩ .closed
  · obtain ⟨status, h⟩ := finishes_checkingSize callers
      (s := advanceCaller s callers.length ⟨.checkingClosed, w⟩)
      (w := { w with session := s.session })
      (by simpa [advanceCaller, hdown] using hrunning)
      (by simp [advanceCaller, hdown, hcallers])
    refine ⟨status, finishes_of_advance hrunning hcallers ?_⟩
    simpa [advanceCaller, hdown] using h

/-- The state after the call has begun. -/
def entered (s : Transport) (toWrite : List UInt8) (packetID : Nat) : Transport :=
  { s with
    callers := s.callers ++ [⟨.checkingClosed, ⟨toWrite, packetID, s.called.length, s.session⟩⟩]
    called := s.called ++ [packetID] }

theorem answers_iff_finishes {s : Transport} (hrunning : s.ended = none) (toWrite : List UInt8)
    (packetID : Nat) (status : WriteStatus) :
    Answers s toWrite packetID status ↔
      Finishes (entered s toWrite packetID) s.callers
        (s.events ++ [.returned packetID status]) := by
  have hentered : step s (.asyncWrite toWrite packetID) = some (entered s toWrite packetID) := by
    simp [step, hrunning, entered]
  constructor
  · rintro ⟨n, t, hexec, hevents⟩
    obtain ⟨r, hstep, hrest⟩ := exec_cons_eq_some.mp hexec
    obtain rfl : entered s toWrite packetID = r := Option.some.inj (hentered.symm.trans hstep)
    exact ⟨n, t, hrest, hevents⟩
  · rintro ⟨n, t, hexec, hevents⟩
    exact ⟨n, t, exec_cons_eq_some.mpr ⟨_, hentered, hexec⟩, hevents⟩

theorem exists_answer {s : Transport} (hrunning : s.ended = none) (toWrite : List UInt8)
    (packetID : Nat) : ∃ status, Answers s toWrite packetID status := by
  obtain ⟨status, h⟩ := finishes_checkingClosed s.callers (s := entered s toWrite packetID)
    hrunning rfl
  exact ⟨status, (answers_iff_finishes hrunning toWrite packetID status).mpr h⟩

/-- There is no call beyond place `k`, and one at place `k` is past its first check. -/
def LastPassed (callers : List Caller) (k : Nat) : Prop :=
  callers.length ≤ k + 1 ∧ ∀ caller, callers[k]? = some caller → caller.pc ≠ .checkingClosed

theorem lastPassed_eraseIdx {callers : List Caller} {k : Nat} {caller : Caller}
    (h : LastPassed callers k) (hcaller : callers[k]? = some caller) :
    LastPassed (callers.eraseIdx k) k := by
  obtain ⟨hk, -⟩ := List.getElem?_eq_some_iff.mp hcaller
  have hlen : (callers.eraseIdx k).length ≤ k := by
    rw [List.length_eraseIdx_of_lt hk]
    have := h.1
    omega
  constructor
  · exact Nat.le_succ_of_le hlen
  · intro other hother
    obtain ⟨hlt, -⟩ := List.getElem?_eq_some_iff.mp hother
    exact absurd hlt (Nat.not_lt.mpr hlen)

theorem lastPassed_set {callers : List Caller} {k : Nat} {moved : Caller}
    (h : LastPassed callers k) (hmoved : moved.pc ≠ .checkingClosed) :
    LastPassed (callers.set k moved) k := by
  constructor
  · simpa using h.1
  · intro other hother
    obtain ⟨hk, -⟩ := List.getElem?_eq_some_iff.mp hother
    obtain rfl : moved = other := by simpa [List.length_set ▸ hk] using hother
    exact hmoved

/-- Since `s`, no call has returned `Closed`. -/
def Unrefused (s : Transport) (events : List Event) : Prop :=
  ∃ more, events = s.events ++ more ∧ ∀ packetID, .returned packetID .closed ∉ more

theorem unrefused_concat {s : Transport} {events : List Event} (h : Unrefused s events)
    (packetID : Nat) {status : WriteStatus} (hstatus : status ≠ .closed) :
    Unrefused s (events ++ [.returned packetID status]) := by
  obtain ⟨more, rfl, hunrefused⟩ := h
  refine ⟨more ++ [.returned packetID status], List.append_assoc _ _ _, ?_⟩
  intro other hmem
  rcases List.mem_append.mp hmem with h | h
  · exact hunrefused other h
  · simp only [List.mem_singleton, Event.returned.injEq] at h
    exact hstatus h.2.symm

theorem unrefused_step {s t u : Transport} {k : Nat} (hlast : LastPassed t.callers k)
    (ht : Unrefused s t.events) (hstep : step t (.advance k) = some u) :
    LastPassed u.callers k ∧ Unrefused s u.events := by
  cases step_outcome hstep with
  | refused _ caller status hcaller hrefuses =>
      refine ⟨lastPassed_eraseIdx hlast hcaller, unrefused_concat ht _ ?_⟩
      rintro rfl
      exact hlast.2 caller hcaller hrefuses.1
  | foundOpen _ caller hcaller hpc => exact absurd hpc (hlast.2 caller hcaller)
  | fitted => exact ⟨lastPassed_set hlast (by simp), ht⟩
  | reserved => exact ⟨lastPassed_set hlast (by simp), ht⟩
  | scheduled _ caller hcaller =>
      exact ⟨lastPassed_eraseIdx hlast hcaller, unrefused_concat ht _ (by simp)⟩

theorem answers_closed_iff {s : Transport} (hrunning : s.ended = none) (toWrite : List UInt8)
    (packetID : Nat) :
    Answers s toWrite packetID .closed ↔ s.closing = true ∨ s.stopped = true := by
  rw [answers_iff_finishes hrunning]
  have hfirst : step (entered s toWrite packetID) (.advance s.callers.length) =
      some (advanceCaller (entered s toWrite packetID) s.callers.length _) :=
    step_advance_last hrunning rfl
  constructor
  · rintro ⟨n, t, hexec, hevents⟩
    by_contra hup
    cases n with
    | zero =>
        obtain rfl : entered s toWrite packetID = t := Option.some.inj hexec
        simp [entered] at hevents
    | succ n =>
        rw [List.replicate_succ, exec_cons_eq_some] at hexec
        obtain ⟨r, hstep, hrest⟩ := hexec
        obtain rfl := Option.some.inj (hfirst.symm.trans hstep)
        have hpast : LastPassed t.callers s.callers.length ∧ Unrefused s t.events := by
          refine exec_invariant (C := fun _ a => a = .advance s.callers.length)
            (I := fun u => LastPassed u.callers s.callers.length ∧ Unrefused s u.events) ?_ ?_
            (meets_of_labels (L := fun a => a = Action.advance s.callers.length) ?_ _) hrest
          · rintro u a v hu rfl hstep
            exact unrefused_step hu.1 hu.2 hstep
          · constructor
            · simp [LastPassed, advanceCaller, entered, hup]
            · exact ⟨[], by simp [advanceCaller, entered, hup]⟩
          · intro a ha
            exact List.eq_of_mem_replicate ha
        obtain ⟨more, hmore, hunrefused⟩ := hpast.2
        rw [hmore, List.append_cancel_left_eq] at hevents
        exact hunrefused packetID (by simp [hevents])
  · intro hdown
    refine ⟨1, _, exec_cons_eq_some.mpr ⟨_, hfirst, rfl⟩, ?_⟩
    simp [advanceCaller, entered, hdown, returnStatus]

/-- Coherence in every reachable state, and its consequence: `isOpen()` says exactly
whether a call of `asyncWrite` made now would return something else than `Closed`. -/
theorem state_coherent (schedule : List Action) (s : Transport)
    (hexec : exec step Transport.init schedule = some s) :
    Settled s ∧ RxIdle s (trace step strayBytes Transport.init schedule) ∧
      (s.ended = none → ∀ toWrite packetID,
        (∃ status, Answers s toWrite packetID status) ∧
          (isOpen s = true ↔ ¬Answers s toWrite packetID .closed)) := by
  have hcoherent := coherent_of_run hexec
  have hbetween : Between s :=
    exec_stable (fun _ _ _ hs hstep => between_step hs hstep) (by constructor <;> decide) hexec
  have hinit : Coherent Transport.init ∧ RxIdle Transport.init [] :=
    ⟨coherent_init, fun _ => List.nil_suffix⟩
  have hidle : Coherent s ∧ RxIdle s (trace step strayBytes Transport.init schedule) :=
    exec_trace_invariant (C := fun _ _ => True) (I := fun s stray => Coherent s ∧ RxIdle s stray)
      (fun _ _ _ _ hs _ hstep => ⟨coherent_step hs.1 hstep, rxIdle_step hs.1 hs.2 hstep⟩)
      hinit (meets_of_labels (fun _ _ => trivial) _) hexec
  refine ⟨settled_of_coherent hcoherent hbetween, hidle.2, ?_⟩
  intro hrunning toWrite packetID
  refine ⟨exists_answer hrunning toWrite packetID, ?_⟩
  rw [answers_closed_iff hrunning, isOpen, decide_eq_true_iff, hcoherent.opened]
  simp

/-- The read of a closed session delivers a byte after the end of its session. -/
def straySchedule : List Action :=
  [.post (.openPort defaultBufferConfig), .run 0 .succeeds, .receive [4], .post .close,
    .run 0 .succeeds, .receive [5]]

theorem state_coherent_straySchedule :
    ∃ s, exec step Transport.init straySchedule = some s ∧ Settled s ∧ s.rxBuffer = [5] ∧
      trace step strayBytes Transport.init straySchedule = [5] ∧ s.rxBuffer <:+ [5] ∧
      Answers s [1] 7 .closed := by
  have hexec : exec step Transport.init straySchedule =
      some ((exec step Transport.init straySchedule).get (by decide)) := by simp
  obtain ⟨hsettled, hidle, hcall⟩ := state_coherent straySchedule _ hexec
  refine ⟨_, hexec, hsettled, by decide, by decide, hidle (by decide), ?_⟩
  by_contra hanswer
  exact absurd (((hcall (by decide) [1] 7).2).mpr hanswer) (by decide)

end EasyLoRa.StateCoherence
