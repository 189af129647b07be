import Mathlib.Algebra.Ring.Nat
import EasyLoRa.IndexedLists
import EasyLoRa.Ownership

namespace EasyLoRa.Shutdown

open EasyLoRa.IndexedLists
open EasyLoRa.TransportModel
open EasyLoRa.TransportSystem
open EasyLoRa.TransportOutcomes
open EasyLoRa.Ownership
open EasyLoRa.TransitionSystem

/-- The steps a call of `asyncWrite` may still cause on a closed transport, the task it
posts included. -/
def callerWork (caller : Caller) : Nat :=
  match caller.pc with
  | .checkingClosed => 1
  | .checkingSize => 4
  | .reserving => 3
  | .posting => 2

def work (s : Transport) : Nat :=
  (s.callers.map callerWork).sum + s.posted.length + s.reads.length + s.writes.length

/-- A public method is called. -/
def isCall : Action → Nat
  | .asyncWrite _ _ => 1
  | .post _ => 1
  | _ => 0

/-- A call in progress, the strand or a completion goes on. -/
def isProgress : Action → Nat
  | .advance _ => 1
  | .run _ _ => 1
  | .completeRead _ _ _ => 1
  | .completeWrite _ _ => 1
  | _ => 0

theorem callerWork_eraseIdx {callers : List Caller} {i : Nat} {caller : Caller}
    (hcaller : callers[i]? = some caller) :
    (callers.map callerWork).sum =
      callerWork caller + ((callers.eraseIdx i).map callerWork).sum := by
  simpa using ((perm_cons_eraseIdx hcaller).map callerWork).sum_nat

theorem callerWork_set {callers : List Caller} {i : Nat} {caller : Caller}
    (hcaller : callers[i]? = some caller) (moved : Caller) :
    ((callers.set i moved).map callerWork).sum =
      callerWork moved + ((callers.eraseIdx i).map callerWork).sum := by
  obtain ⟨hi, -⟩ := List.getElem?_eq_some_iff.mp hcaller
  simpa using ((List.set_perm_cons_eraseIdx hi moved).map callerWork).sum_nat

theorem not_live {s : Transport} (hclosing : s.closing = true) (operationGeneration : Nat) :
    ¬ Live s operationGeneration := by
  simp [Live, hclosing]

theorem work_step {s t : Transport} {a : Action} (hclosing : s.closing = true)
    (hstep : step s a = some t) : work t + isProgress a ≤ work s + isCall a := by
  cases step_outcome hstep with
  | called toWrite packetID =>
      simp [work, isProgress, isCall, callerWork]
      omega
  | refused i caller status hcaller hrefuses =>
      have hpos : 1 ≤ callerWork caller := by
        unfold callerWork
        split <;> omega
      simp only [work, isProgress, isCall, callerWork_eraseIdx hcaller]
      omega
  | fitted i caller hcaller hpc =>
      simp only [work, isProgress, isCall, callerWork_eraseIdx hcaller, callerWork_set hcaller]
      simp only [callerWork, hpc]
      omega
  | reserved i caller hcaller hpc hroom =>
      simp only [work, isProgress, isCall, callerWork_eraseIdx hcaller, callerWork_set hcaller]
      simp only [callerWork, hpc]
      omega
  | scheduled i caller hcaller hpc =>
      simp only [work, isProgress, isCall, callerWork_eraseIdx hcaller, List.length_append,
        List.length_singleton]
      simp only [callerWork, hpc]
      omega
  | requested request =>
      simp [work, isProgress, isCall]
      omega
  | suppressed i outcome request htask =>
      have hless := List.length_eraseIdx_add_one (List.getElem?_eq_some_iff.mp htask).1
      simp only [work, isProgress, isCall]
      omega
  | cancelled i outcome w htask =>
      have hless := List.length_eraseIdx_add_one (List.getElem?_eq_some_iff.mp htask).1
      simp only [work, isProgress, isCall]
      omega
  | received bytes hreads => simp [work, isProgress, isCall]
  | readIgnored i ec bytesRead operationGeneration hread =>
      have hless := List.length_eraseIdx_add_one (List.getElem?_eq_some_iff.mp hread).1
      simp only [work, isProgress, isCall]
      omega
  | writeIgnored i ec operation hwrite =>
      have hless := List.length_eraseIdx_add_one (List.getElem?_eq_some_iff.mp hwrite).1
      simp only [work, isProgress, isCall]
      omega
  | foundOpen i caller hcaller hpc hopen => simp [hclosing] at hopen
  | openFailed i outcome newBufferConfig port htask hopen => simp [hclosing] at hopen
  | opened i outcome newBufferConfig htask hopen => simp [hclosing] at hopen
  | closed i outcome htask hopen => simp [hclosing] at hopen
  | handlersSet i outcome request fh feh reh wh htask hopen => simp [hclosing] at hopen
  | queued i outcome w htask hopen => simp [hclosing] at hopen
  | started i outcome w htask hopen => simp [hclosing] at hopen
  | delivered i bytesRead hread hlive => exact absurd hlive (not_live hclosing _)
  | readRecovered i bytesRead hread hlive => exact absurd hlive (not_live hclosing _)
  | readFailed i ec bytesRead hread hlive => exact absurd hlive (not_live hclosing _)
  | writtenLast i operation w hwrite hlive => exact absurd hlive (not_live hclosing _)
  | writtenNext i operation w next rest hwrite hlive => exact absurd hlive (not_live hclosing _)
  | writeRecovered i operation failure hwrite hlive => exact absurd hlive (not_live hclosing _)
  | writeFailed i ec operation failure hwrite hlive => exact absurd hlive (not_live hclosing _)
  | undefined i ec operation hwrite hlive => exact absurd hlive (not_live hclosing _)

theorem closing_step {s t : Transport} {a : Action} (hclosing : s.closing = true)
    (hstep : step s a = some t) : t.closing = true := by
  cases step_outcome hstep with
  | closed => rfl
  | _ => exact hclosing

theorem running_step {s t : Transport} {a : Action} (hclosing : s.closing = true)
    (hstep : step s a = some t) : t.ended = none := by
  have hrunning := ended_of_step hstep
  cases step_outcome hstep with
  | readFailed i ec bytesRead hread hlive => exact absurd hlive (not_live hclosing _)
  | writeFailed i ec operation failure hwrite hlive => exact absurd hlive (not_live hclosing _)
  | undefined i ec operation hwrite hlive => exact absurd hlive (not_live hclosing _)
  | _ => exact hrunning

theorem referenced_iff_work (s : Transport) : Referenced s ↔ 0 < work s := by
  have hcallers : 0 < (s.callers.map callerWork).sum ↔ s.callers ≠ [] := by
    cases s.callers with
    | nil => simp
    | cons caller callers =>
        have hpos : 0 < callerWork caller := by
          unfold callerWork
          split <;> omega
        simp
        omega
  have hposted := List.length_pos_iff (l := s.posted)
  have hreads := List.length_pos_iff (l := s.reads)
  have hwrites := List.length_pos_iff (l := s.writes)
  rw [Referenced, ← hposted, ← hreads, ← hwrites, ← hcallers, work]
  omega

/-- Whatever still refers to the `Pimpl` can go on. -/
theorem exists_progress {s : Transport} (hrunning : s.ended = none) (href : Referenced s) :
    ∃ a, isProgress a = 1 ∧ (step s a).isSome = true := by
  have hfirst : ∀ {α : Type} {l : List α}, l ≠ [] → ∃ a, l[0]? = some a := by
    intro α l hl
    obtain ⟨a, l, rfl⟩ := List.exists_cons_of_ne_nil hl
    exact ⟨a, rfl⟩
  rcases href with hposted | hreads | hwrites | hcallers
  · obtain ⟨task, htask⟩ := hfirst hposted
    exact ⟨.run 0 .succeeds, rfl, by simp [step, hrunning, htask]⟩
  · obtain ⟨operationGeneration, hread⟩ := hfirst hreads
    exact ⟨.completeRead 0 .success 0, rfl, by simp [step, hrunning, hread]⟩
  · obtain ⟨operation, hwrite⟩ := hfirst hwrites
    exact ⟨.completeWrite 0 .success, rfl, by simp [step, hrunning, hwrite]⟩
  · obtain ⟨caller, hcaller⟩ := hfirst hcallers
    exact ⟨.advance 0, rfl, by simp [step, hrunning, hcaller]⟩

/-- A closed transport takes at most `work` steps of its own and one for each later call;
it can take one as long as something besides its owner refers to it, and no longer. -/
theorem runs_dry (more : List Action) (s t : Transport) (hclosing : s.closing = true)
    (hrunning : s.ended = none) (hexec : exec step s more = some t) :
    (more.map isProgress).sum + work t ≤ work s + (more.map isCall).sum ∧
      (Referenced t ↔ 0 < work t) ∧
      (Referenced t → ∃ a, isProgress a = 1 ∧ (step t a).isSome = true) := by
  have hclosed : t.closing = true ∧ t.ended = none :=
    exec_stable (I := fun s => s.closing = true ∧ s.ended = none)
      (fun _ _ _ hs hstep => ⟨closing_step hs.1 hstep, running_step hs.1 hstep⟩)
      ⟨hclosing, hrunning⟩ hexec
  have hpaid := exec_amortized (I := fun s : Transport => s.closing = true) work (fun _ => 0)
    isProgress isCall (fun _ _ _ hs hstep => closing_step hs hstep)
    (fun _ _ _ hs hstep => work_step hs hstep) hclosing hexec
  exact ⟨by omega, referenced_iff_work t, exists_progress hclosed.2⟩

/-- A read and a write are outstanding and a call has found the port open when the close
task runs. -/
def closingRun : List Action :=
  [.post (.openPort defaultBufferConfig), .run 0 .succeeds, .asyncWrite [1] 7, .advance 0,
    .advance 0, .advance 0, .advance 0, .run 0 .succeeds, .asyncWrite [2] 8, .advance 0,
    .post .close, .run 0 .succeeds]

/-- One more call comes while the transport runs dry. -/
def dryingSchedule : List Action :=
  [.advance 0, .completeWrite 0 .eof, .advance 0, .asyncWrite [3] 9, .advance 1, .advance 0,
    .run 0 .succeeds, .completeRead 0 .eof 0]

theorem runs_dry_dryingSchedule :
    ∃ s t, exec step Transport.init closingRun = some s ∧
      exec step s dryingSchedule = some t ∧ work s = 6 ∧
      (dryingSchedule.map isProgress).sum = 7 ∧ work t = 0 ∧ ¬ Referenced t := by
  have hrun : ∃ s t, exec step Transport.init closingRun = some s ∧
      exec step s dryingSchedule = some t ∧ s.closing = true ∧ s.ended = none ∧ work s = 6 :=
    ⟨(exec step Transport.init closingRun).get (by decide),
      (exec step ((exec step Transport.init closingRun).get (by decide)) dryingSchedule).get
        (by decide), by simp, by simp, by decide, by decide, by decide⟩
  obtain ⟨s, t, hclosed, hexec, hclosing, hrunning, hwork⟩ := hrun
  obtain ⟨hbound, hreferenced, -⟩ := runs_dry dryingSchedule s t hclosing hrunning hexec
  have hprogress : (dryingSchedule.map isProgress).sum = 7 := by decide
  have hcalls : (dryingSchedule.map isCall).sum = 1 := by decide
  have hdry : work t = 0 := by omega
  refine ⟨s, t, hclosed, hexec, hwork, hprogress, hdry, ?_⟩
  rw [hreferenced]
  omega

end EasyLoRa.Shutdown
