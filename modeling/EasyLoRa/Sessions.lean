import EasyLoRa.IndexedLists
import EasyLoRa.TransportOutcomes

namespace EasyLoRa.Sessions

open EasyLoRa.IndexedLists
open EasyLoRa.TransportModel
open EasyLoRa.TransportSystem
open EasyLoRa.TransportOutcomes
open EasyLoRa.TransitionSystem

/-- The payloads handed to the stream, each with the session it was handed over
in, oldest first. -/
def handedOver (events : List Event) : List (Nat × Write) :=
  events.filterMap fun
    | .handed session w => some (session, w)
    | _ => none

theorem handedOver_append (events more : List Event) :
    handedOver (events ++ more) = handedOver events ++ handedOver more :=
  List.filterMap_append

/-- Every payload was handed over in the session its `asyncWrite` call saw open. -/
def KeepsSession (s : Transport) : Prop := ∀ p ∈ handedOver s.events, p.2.session = p.1

instance (s : Transport) : Decidable (KeepsSession s) :=
  inferInstanceAs (Decidable (∀ p ∈ _, _))

/-- No session begins while an `asyncWrite` call that found an earlier one open
has not returned, or its task has not run. -/
def OpensSettled (s : Transport) : Action → Prop
  | .run i outcome =>
      succeeding s i outcome = true →
        (∀ task ∈ s.posted, task.isWrite = false) ∧
          ∀ caller ∈ s.callers, caller.pc = .checkingClosed
  | _ => True

instance (s : Transport) (a : Action) : Decidable (OpensSettled s a) := by
  induction a using TransportSystem.Action.casesOn <;> dsimp only [OpensSettled] <;> infer_instance

def PostedIn (session : Nat) : Task → Prop
  | .request _ => True
  | .write w => w.session = session

def AcceptedIn (session : Nat) (caller : Caller) : Prop :=
  caller.pc ≠ .checkingClosed → caller.write.session = session

structure Within (s : Transport) : Prop where
  posted : ∀ task ∈ s.posted, PostedIn s.session task
  callers : ∀ caller ∈ s.callers, AcceptedIn s.session caller
  queue : ∀ w ∈ s.txDeque, w.session = s.session
  handed : KeepsSession s

theorem keepsSession_append {events more : List Event}
    (h : ∀ p ∈ handedOver events, p.2.session = p.1)
    (hmore : ∀ p ∈ handedOver more, p.2.session = p.1) :
    ∀ p ∈ handedOver (events ++ more), p.2.session = p.1 := by
  rw [handedOver_append]
  exact fun p hp => (List.mem_append.mp hp).elim (h p) (hmore p)

theorem handedOver_calls (handler : Option Handler) {event : Event}
    (hevent : handedOver [event] = []) : handedOver (calls handler event) = [] := by
  refine List.filterMap_eq_nil_iff.mpr fun other hother => ?_
  rw [eq_of_mem_calls hother]
  exact List.filterMap_eq_nil_iff.mp hevent event (by simp)

theorem keepsSession_calls {events : List Event} (h : ∀ p ∈ handedOver events, p.2.session = p.1)
    (handler : Option Handler) {event : Event} (hevent : handedOver [event] = []) :
    ∀ p ∈ handedOver (events ++ calls handler event), p.2.session = p.1 :=
  keepsSession_append h (by simp [handedOver_calls handler hevent])

theorem handedOver_failure {s : Transport} {failure : List Event}
    (hfailure : ∀ w rest, s.txDeque = w :: rest →
      failure = calls s.writeHandler (.writeResult .failed w.packetID))
    (hnone : s.txDeque = [] → failure = [] ∧ s.writeHandler = none) :
    handedOver failure = [] := by
  refine List.filterMap_eq_nil_iff.mpr fun event hevent => ?_
  obtain ⟨packetID, rfl⟩ := failed_of_mem_failure hfailure hnone hevent
  rfl

theorem handedOver_fatalCalls (handler : Option Handler) (ec : ErrorCode) :
    handedOver (fatalCalls handler ec) = [] := by
  refine List.filterMap_eq_nil_iff.mpr fun event hevent => ?_
  obtain ⟨error, rfl⟩ := fatalError_of_mem_fatalCalls hevent
  rfl

theorem within_step {s t : Transport} {a : Action} (hs : Within s) (hsettled : OpensSettled s a)
    (hstep : step s a = some t) : Within t := by
  cases step_outcome hstep with
  | called toWrite packetID =>
      refine { hs with callers := ?_ }
      simpa [or_imp, forall_and, AcceptedIn] using hs.callers
  | refused i caller status =>
      exact { hs with
        callers := forall_eraseIdx hs.callers i
        handed := keepsSession_append hs.handed (by simp [handedOver]) }
  | foundOpen i caller hcaller =>
      exact { hs with callers := forall_set hs.callers (fun _ => rfl) i }
  | fitted i caller hcaller hpc =>
      have hbelongs := hs.callers caller (List.mem_of_getElem? hcaller) (by simp [hpc])
      exact { hs with
        callers := forall_set (b := ⟨.reserving, caller.write⟩) hs.callers (fun _ => hbelongs) i }
  | reserved i caller hcaller hpc =>
      have hbelongs := hs.callers caller (List.mem_of_getElem? hcaller) (by simp [hpc])
      exact { hs with
        callers := forall_set (b := ⟨.posting, caller.write⟩) hs.callers (fun _ => hbelongs) i }
  | scheduled i caller hcaller hpc =>
      have hbelongs := hs.callers caller (List.mem_of_getElem? hcaller) (by simp [hpc])
      refine { hs with
        posted := ?_
        callers := forall_eraseIdx hs.callers i
        handed := keepsSession_append hs.handed (by simp [handedOver]) }
      simpa [or_imp, forall_and, PostedIn, hbelongs] using hs.posted
  | requested request =>
      refine { hs with posted := ?_ }
      simpa [or_imp, forall_and, PostedIn] using hs.posted
  | suppressed i => exact { hs with posted := forall_eraseIdx hs.posted i }
  | handlersSet i => exact { hs with posted := forall_eraseIdx hs.posted i }
  | openFailed i =>
      exact { hs with
        posted := forall_eraseIdx hs.posted i
        queue := by simp
        handed := keepsSession_append hs.handed (by simp [handedOver]) }
  | opened i outcome config htask hclosing hport houtcome =>
      obtain ⟨hposted, hcallers⟩ :=
        hsettled (by simp [succeeding, opening, htask, hclosing, hport, houtcome])
      refine ⟨?_, ?_, by simp, keepsSession_append hs.handed (by simp [handedOver])⟩
      · refine forall_eraseIdx (fun task htask => ?_) i
        cases task with
        | request request => trivial
        | write w => simpa [Task.isWrite] using hposted _ htask
      · exact fun caller hcaller hpc => absurd (hcallers caller hcaller) hpc
  | closed i =>
      exact { hs with
        posted := forall_eraseIdx hs.posted i
        queue := by simp
        handed := keepsSession_append hs.handed (by simp [handedOver]) }
  | cancelled i outcome w =>
      exact { hs with
        posted := forall_eraseIdx hs.posted i
        handed := keepsSession_calls hs.handed _ rfl }
  | queued i outcome w htask =>
      have hbelongs : w.session = s.session := hs.posted _ (List.mem_of_getElem? htask)
      refine { hs with posted := forall_eraseIdx hs.posted i, queue := ?_ }
      simpa [or_imp, forall_and, hbelongs] using hs.queue
  | started i outcome w htask =>
      have hbelongs : w.session = s.session := hs.posted _ (List.mem_of_getElem? htask)
      exact { hs with
        posted := forall_eraseIdx hs.posted i
        queue := by simpa using hbelongs
        handed := keepsSession_append hs.handed (by simpa [handedOver] using hbelongs) }
  | delivered =>
      exact { hs with handed := keepsSession_calls hs.handed _ rfl }
  | readRecovered =>
      exact { hs with handed := keepsSession_calls hs.handed _ rfl }
  | readFailed =>
      refine { hs with
        queue := by simp
        handed := keepsSession_append (keepsSession_append hs.handed (by simp [handedOver])) ?_ }
      simp [handedOver_fatalCalls]
  | writtenLast =>
      exact { hs with
        queue := by simp
        handed := keepsSession_calls hs.handed _ rfl }
  | writtenNext i operation w next rest hwrite hlive hqueue =>
      have hbelongs : ∀ x ∈ next :: rest, x.session = s.session :=
        fun x hx => hs.queue x (by rw [hqueue]; exact List.mem_cons_of_mem _ hx)
      refine { hs with
        queue := hbelongs
        handed := keepsSession_append (keepsSession_calls hs.handed _ rfl) ?_ }
      simpa [handedOver] using hbelongs next (by simp)
  | writeRecovered i operation failure hwrite hlive hfailure hnone =>
      refine { hs with handed := keepsSession_calls (keepsSession_append hs.handed ?_) _ rfl }
      simp [handedOver_failure hfailure hnone]
  | writeFailed i ec operation failure hwrite hlive hsuccess hfatal hfailure hnone =>
      refine { hs with
        queue := by simp
        handed := keepsSession_append (keepsSession_append (keepsSession_append hs.handed ?_)
          (by simp [handedOver])) ?_ }
      · simp [handedOver_failure hfailure hnone]
      · simp [handedOver_fatalCalls]
  | _ => exact ⟨hs.posted, hs.callers, hs.queue, hs.handed⟩

/-- Writes stay in their session in a run whose sessions begin settled. -/
theorem keepsSession_of_opensSettled (schedule : List Action) (s : Transport)
    (hmeets : Meets step OpensSettled Transport.init schedule)
    (hexec : exec step Transport.init schedule = some s) : KeepsSession s :=
  (exec_invariant (I := Within) (fun _ _ _ hs hsettled hstep => within_step hs hsettled hstep)
    ⟨by simp [Transport.init], by simp [Transport.init], by simp [Transport.init],
      by simp [KeepsSession, handedOver, Transport.init]⟩ hmeets hexec).handed

/-- A call of `asyncWrite` finds the first session open and posts its task in the
second; the device was unplugged in between. -/
def lateSchedule : List Action :=
  [.post (.openPort defaultBufferConfig), .run 0 .succeeds, .asyncWrite [1] 7, .advance 0,
    .advance 0, .advance 0, .completeRead 0 .eof 0, .post (.openPort defaultBufferConfig),
    .run 0 .succeeds, .advance 0, .run 0 .succeeds]

theorem not_keepsSession_lateSchedule :
    ∃ s, exec step Transport.init lateSchedule = some s ∧ s.ended = none ∧
      handedOver s.events = [(2, ⟨[1], 7, 0, 1⟩)] ∧ ¬ KeepsSession s := by
  refine ⟨(exec step Transport.init lateSchedule).get (by decide), by simp, ?_, ?_, ?_⟩ <;>
    decide

def promptSchedule : List Action :=
  [.post (.openPort defaultBufferConfig), .run 0 .succeeds, .asyncWrite [1] 7, .advance 0,
    .advance 0, .advance 0, .completeRead 0 .eof 0, .advance 0, .run 0 .succeeds,
    .post (.openPort defaultBufferConfig), .run 0 .succeeds, .asyncWrite [2] 8, .advance 0,
    .advance 0, .advance 0, .advance 0, .run 0 .succeeds]

theorem keepsSession_promptSchedule :
    ∃ s, exec step Transport.init promptSchedule = some s ∧
      handedOver s.events = [(2, ⟨[2], 8, 1, 2⟩)] ∧ KeepsSession s := by
  refine ⟨(exec step Transport.init promptSchedule).get (by decide), by simp, by decide, ?_⟩
  exact keepsSession_of_opensSettled promptSchedule _ (by decide) (by simp)

end EasyLoRa.Sessions
