import EasyLoRa.PortState
import EasyLoRa.WriteFate

namespace EasyLoRa.CloseFinality

open EasyLoRa.IndexedLists
open EasyLoRa.TransportModel
open EasyLoRa.TransportSystem
open EasyLoRa.TransportOutcomes
open EasyLoRa.TransitionSystem
open EasyLoRa.PortState
open EasyLoRa.WriteFate

def Residual : Event → Prop
  | .returned _ _ => True
  | .writeResult result _ => result = .cancelled
  | _ => False

def cancels (packetID : Nat) (event : Event) : Bool := event = .writeResult .cancelled packetID

/-- The call has passed the check of `closing` and `stopped`. -/
def passed (packetID : Nat) (caller : Caller) : Bool :=
  caller.pc ≠ .checkingClosed ∧ caller.write.packetID = packetID

/-- The write tasks of the packet that have not run, and the calls that have found
the port open and may still post one. -/
def acceptedWrites (s : Transport) (packetID : Nat) : Nat :=
  posted s packetID + s.callers.countP (passed packetID)

/-- `s` is the state a close task has left behind, `t` a later one. -/
structure ClosedSince (s t : Transport) : Prop where
  closing : t.closing = true
  stopped : t.stopped = true
  currentState : t.currentState = .closed
  running : t.ended = none
  port : t.port = s.port
  frameHandler : t.frameHandler = s.frameHandler
  fatalErrorHandler : t.fatalErrorHandler = s.fatalErrorHandler
  recuperableErrorHandler : t.recuperableErrorHandler = s.recuperableErrorHandler
  writeHandler : t.writeHandler = s.writeHandler
  reads : t.reads.Sublist s.reads
  writes : t.writes.Sublist s.writes
  late : ∀ caller ∈ t.callers, s.called.length ≤ caller.write.call → caller.pc = .checkingClosed
  residual : ∃ later, t.events = s.events ++ later ∧ (∀ event ∈ later, Residual event) ∧
    ∀ packetID,
      later.countP (cancels packetID) + acceptedWrites t packetID ≤ acceptedWrites s packetID

theorem residual_extend {s t u : Transport} {more : List Event}
    (hs : ∃ later, t.events = s.events ++ later ∧ (∀ event ∈ later, Residual event) ∧
      ∀ packetID,
        later.countP (cancels packetID) + acceptedWrites t packetID ≤ acceptedWrites s packetID)
    (hevents : u.events = t.events ++ more) (hmore : ∀ event ∈ more, Residual event)
    (haccepted : ∀ packetID,
      more.countP (cancels packetID) + acceptedWrites u packetID ≤ acceptedWrites t packetID) :
    ∃ later, u.events = s.events ++ later ∧ (∀ event ∈ later, Residual event) ∧
      ∀ packetID,
        later.countP (cancels packetID) + acceptedWrites u packetID ≤
          acceptedWrites s packetID := by
  obtain ⟨later, hlater, hresidual, hcount⟩ := hs
  refine ⟨later ++ more, by rw [hevents, hlater, List.append_assoc], ?_, fun packetID => ?_⟩
  · simpa only [List.forall_mem_append] using ⟨hresidual, hmore⟩
  · have hcount := hcount packetID
    have haccepted := haccepted packetID
    rw [List.countP_append]
    omega

theorem acceptedWrites_set {s : Transport} {i : Nat} {caller : Caller} {pc : CallerPc}
    (hcaller : s.callers[i]? = some caller) (hpast : caller.pc ≠ .checkingClosed)
    (packetID : Nat) :
    (s.callers.set i { caller with pc := pc }).countP (passed packetID) ≤
      s.callers.countP (passed packetID) := by
  rw [countP_set hcaller, countP_eraseIdx hcaller]
  apply Nat.add_le_add_left
  by_cases hid : caller.write.packetID = packetID
  · simpa [passed, hpast, hid] using Bool.toNat_le _
  · simp [passed, hid]

theorem closedSince_step {s t u : Transport} {a : Action} (hs : ClosedSince s t)
    (hstep : step t a = some u) : ClosedSince s u := by
  have hclosing := hs.closing
  cases step_outcome hstep with
  | called toWrite packetID =>
      refine { hs with late := ?_, residual := ?_ }
      · simpa [or_imp, forall_and] using hs.late
      · exact residual_extend hs.residual (List.append_nil _).symm (by simp)
          fun id => by simp [acceptedWrites, posted, passed]
  | refused i caller status hcaller =>
      refine { hs with late := forall_eraseIdx hs.late i, residual := ?_ }
      refine residual_extend hs.residual rfl (by simp [Residual]) fun id => ?_
      simpa [acceptedWrites, posted, cancels] using (List.eraseIdx_sublist _ i).countP_le
  | fitted i caller hcaller hpc =>
      refine { hs with late := ?_, residual := ?_ }
      · refine forall_set hs.late (fun hcall => ?_) i
        simpa [hpc] using hs.late caller (List.mem_of_getElem? hcaller) hcall
      · exact residual_extend hs.residual (List.append_nil _).symm (by simp) fun id => by
          simpa [acceptedWrites, posted] using acceptedWrites_set hcaller (by simp [hpc]) id
  | reserved i caller hcaller hpc =>
      refine { hs with late := ?_, residual := ?_ }
      · refine forall_set hs.late (fun hcall => ?_) i
        simpa [hpc] using hs.late caller (List.mem_of_getElem? hcaller) hcall
      · exact residual_extend hs.residual (List.append_nil _).symm (by simp) fun id => by
          simpa [acceptedWrites, posted] using acceptedWrites_set hcaller (by simp [hpc]) id
  | scheduled i caller hcaller hpc =>
      refine { hs with late := forall_eraseIdx hs.late i, residual := ?_ }
      refine residual_extend hs.residual rfl (by simp [Residual]) fun id => ?_
      have hcallers := countP_eraseIdx hcaller (passed id)
      have hmoved : (carries id (.write caller.write)).toNat = (passed id caller).toNat := by
        simp [carries, passed, hpc]
      have hresidual : cancels id (.returned caller.write.packetID .scheduled) = false := rfl
      simp only [acceptedWrites, posted, countP_concat, countP_cons, List.countP_nil, hresidual,
        Bool.toNat_false]
      omega
  | requested request =>
      refine { hs with residual := ?_ }
      exact residual_extend hs.residual (List.append_nil _).symm (by simp) fun id => by
        simp [acceptedWrites, posted, carries]
  | suppressed i outcome request =>
      refine { hs with residual := ?_ }
      exact residual_extend hs.residual (List.append_nil _).symm (by simp) fun id => by
        simpa [acceptedWrites, posted] using (List.eraseIdx_sublist _ i).countP_le
  | cancelled i outcome w htask =>
      refine { hs with residual := ?_ }
      refine residual_extend hs.residual rfl ?_ fun id => ?_
      · cases t.writeHandler <;> simp [calls, Residual]
      · have hposted := countP_eraseIdx htask (carries id)
        have hcalls : (calls t.writeHandler (.writeResult .cancelled w.packetID)).countP
            (cancels id) ≤ (carries id (.write w)).toNat := by
          rw [countP_calls]
          cases t.writeHandler <;> simp [cancels, carries]
        simp only [acceptedWrites, posted]
        omega
  | received => exact { hs with }
  | readIgnored i =>
      exact { hs with reads := (List.eraseIdx_sublist _ i).trans hs.reads }
  | writeIgnored i =>
      exact { hs with writes := (List.eraseIdx_sublist _ i).trans hs.writes }
  | foundOpen i caller hcaller hpc hopen => simp [hclosing] at hopen
  | openFailed i outcome config port htask hopen => simp [hclosing] at hopen
  | opened i outcome config htask hopen => simp [hclosing] at hopen
  | closed i outcome htask hopen => simp [hclosing] at hopen
  | handlersSet i outcome request fh feh reh wh htask hopen => simp [hclosing] at hopen
  | queued i outcome w htask hopen => simp [hclosing] at hopen
  | started i outcome w htask hopen => simp [hclosing] at hopen
  | delivered i bytesRead hread hlive => simp [Live, hclosing] at hlive
  | readRecovered i bytesRead hread hlive => simp [Live, hclosing] at hlive
  | readFailed i ec bytesRead hread hlive => simp [Live, hclosing] at hlive
  | writtenLast i operation w hwrite hlive => simp [Live, hclosing] at hlive
  | writtenNext i operation w next rest hwrite hlive => simp [Live, hclosing] at hlive
  | writeRecovered i operation failure hwrite hlive => simp [Live, hclosing] at hlive
  | writeFailed i ec operation failure hwrite hlive => simp [Live, hclosing] at hlive
  | undefined i ec operation hwrite hlive => simp [Live, hclosing] at hlive

/-- The numbers of the calls in progress are below that of the next call. -/
def Numbered (s : Transport) : Prop :=
  ∀ caller ∈ s.callers, caller.write.call < s.called.length

theorem numbered_set {s : Transport} {i : Nat} {caller moved : Caller} (hs : Numbered s)
    (hcaller : s.callers[i]? = some caller) (hmoved : moved.write.call = caller.write.call) :
    ∀ x ∈ s.callers.set i moved, x.write.call < s.called.length :=
  forall_set hs (hmoved ▸ hs caller (List.mem_of_getElem? hcaller)) i

theorem numbered_step {s t : Transport} {a : Action} (hs : Numbered s)
    (hstep : step s a = some t) : Numbered t := by
  cases step_outcome hstep with
  | called toWrite packetID =>
      intro caller hcaller
      rw [List.length_append, List.length_singleton]
      rcases List.mem_append.mp hcaller with h | h
      · exact Nat.lt_succ_of_lt (hs caller h)
      · rw [List.mem_singleton] at h
        subst h
        exact Nat.lt_succ_self _
  | refused i => exact forall_eraseIdx hs i
  | scheduled i => exact forall_eraseIdx hs i
  | foundOpen i caller hcaller =>
      exact numbered_set hs hcaller rfl
  | fitted i caller hcaller =>
      exact numbered_set hs hcaller rfl
  | reserved i caller hcaller =>
      exact numbered_set hs hcaller rfl
  | _ => exact hs

theorem numbered_of_run {schedule : List Action} {s : Transport}
    (hexec : exec step Transport.init schedule = some s) : Numbered s :=
  exec_stable (fun _ _ _ hs hstep => numbered_step hs hstep) (by simp [Numbered, Transport.init])
    hexec

theorem closedSince_close {s t : Transport} {i : Nat} {outcome : OpenOutcome}
    (hs : Coherent s) (hnumbered : Numbered s) (htask : s.posted[i]? = some (.request .close))
    (hstep : step s (.run i outcome) = some t) : ClosedSince t t := by
  have hrunning := ended_of_step hstep
  have hlate : ∀ u : Transport, u.callers = s.callers → u.called = s.called →
      ∀ caller ∈ u.callers, u.called.length ≤ caller.write.call →
        caller.pc = .checkingClosed := by
    intro u hcallers hcalled caller hcaller hcall
    rw [hcallers] at hcaller
    rw [hcalled] at hcall
    exact absurd (hnumbered caller hcaller) (Nat.not_lt.mpr hcall)
  have hresidual : ∀ u : Transport, ∃ later, u.events = u.events ++ later ∧
      (∀ event ∈ later, Residual event) ∧
      ∀ packetID,
        later.countP (cancels packetID) + acceptedWrites u packetID ≤ acceptedWrites u packetID :=
    fun u => ⟨[], by simp, by simp, by simp⟩
  cases step_outcome hstep with
  | suppressed _ _ request hrequest hclosing =>
      obtain ⟨hstopped, hclosed⟩ := hs.closed hclosing
      exact ⟨hclosing, hstopped, hclosed, hrunning, rfl, rfl, rfl, rfl, rfl, .refl _, .refl _,
        hlate _ rfl rfl, hresidual _⟩
  | closed =>
      exact ⟨rfl, rfl, rfl, hrunning, rfl, rfl, rfl, rfl, rfl, .refl _, .refl _,
        hlate _ rfl rfl, hresidual _⟩
  | openFailed _ _ config port hopen => simp [htask] at hopen
  | opened _ _ config hopen => simp [htask] at hopen
  | handlersSet _ _ request fh feh reh wh hrequest hclosing hset =>
      obtain rfl : request = .close := by simpa [htask] using hrequest.symm
      cases hset
  | cancelled _ _ w hwrite => simp [htask] at hwrite
  | queued _ _ w hwrite => simp [htask] at hwrite
  | started _ _ w hwrite => simp [htask] at hwrite

/-- Whatever follows a close task, the port stays closed and quiet, and every
`asyncWrite` that begins afterwards returns `Closed`. -/
theorem closed_for_good (schedule more : List Action) (r s t : Transport) (i : Nat)
    (outcome : OpenOutcome) (hreach : exec step Transport.init schedule = some r)
    (htask : r.posted[i]? = some (.request .close))
    (hclose : step r (.run i outcome) = some s) (hmore : exec step s more = some t) :
    ClosedSince s t ∧ isOpen t = false ∧
      ∀ j caller, t.callers[j]? = some caller → s.called.length ≤ caller.write.call →
        step t (.advance j) = some (returnStatus t j caller .closed) := by
  have hclosed : ClosedSince s t :=
    exec_stable (fun _ _ _ ht hstep => closedSince_step ht hstep)
      (closedSince_close (coherent_of_run hreach) (numbered_of_run hreach) htask hclose) hmore
  refine ⟨hclosed, by simp [isOpen, hclosed.currentState], fun j caller hcaller hcall => ?_⟩
  have hpc := hclosed.late caller (List.mem_of_getElem? hcaller) hcall
  simp [step, hclosed.running, hcaller, advanceCaller, hpc, hclosed.closing]

def closingRun : List Action :=
  [.post (.openPort defaultBufferConfig), .run 0 .succeeds, .post (.setWriteHandler (some 1)),
    .run 0 .succeeds, .asyncWrite [1] 7, .advance 0, .advance 0, .advance 0, .advance 0,
    .asyncWrite [2] 8, .advance 0, .post .close]

def closingTransport : Transport := (exec step Transport.init closingRun).get (by decide)

def closedTransport : Transport := (step closingTransport (.run 1 .succeeds)).get (by decide)

/-- A posted write is cancelled, a call that had found the port open posts its task
and has it cancelled too, and a call that begins now is refused. -/
def afterClose : List Action :=
  [.post (.openPort defaultBufferConfig), .run 0 .succeeds, .advance 0, .advance 0, .advance 0,
    .run 0 .succeeds, .run 0 .succeeds, .completeRead 0 .eof 0, .asyncWrite [3] 9, .advance 0]

theorem closed_for_good_afterClose :
    ∃ t, exec step closedTransport afterClose = some t ∧
      t.events = closedTransport.events ++ [.writeResult .cancelled 7, .returned 8 .scheduled,
        .writeResult .cancelled 8, .returned 9 .closed] ∧ ClosedSince closedTransport t := by
  refine ⟨(exec step closedTransport afterClose).get (by decide), by simp, by decide, ?_⟩
  exact (closed_for_good closingRun afterClose closingTransport closedTransport _ 1 .succeeds
    (by simp [closingTransport]) (by decide) (by simp [closedTransport]) (by simp)).1

end EasyLoRa.CloseFinality
