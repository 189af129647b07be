import EasyLoRa.IndexedLists
import EasyLoRa.TransportOutcomes

namespace EasyLoRa.WriteFate

open EasyLoRa.IndexedLists
open EasyLoRa.TransportModel
open EasyLoRa.TransportSystem
open EasyLoRa.TransportOutcomes

def notifies (packetID : Nat) : Event → Bool
  | .writeResult _ id => id = packetID
  | _ => false

def returns (packetID : Nat) (status : WriteStatus) : Event → Bool
  | .returned id returned => id = packetID ∧ returned = status
  | _ => false

def returnsFrom (packetID : Nat) : Event → Bool
  | .returned id _ => id = packetID
  | _ => false

def carries (packetID : Nat) : Task → Bool
  | .request _ => false
  | .write w => w.packetID = packetID

def notified (s : Transport) (packetID : Nat) : Nat := s.events.countP (notifies packetID)

def scheduled (s : Transport) (packetID : Nat) : Nat :=
  s.events.countP (returns packetID .scheduled)

def returned (s : Transport) (packetID : Nat) : Nat := s.events.countP (returnsFrom packetID)

def called (s : Transport) (packetID : Nat) : Nat := s.called.countP fun id => id = packetID

def calling (s : Transport) (packetID : Nat) : Nat :=
  s.callers.countP fun caller => caller.write.packetID = packetID

def posted (s : Transport) (packetID : Nat) : Nat := s.posted.countP (carries packetID)

def queued (s : Transport) (packetID : Nat) : Nat :=
  s.txDeque.countP fun w => w.packetID = packetID

/-- Write tasks find a write handler set, and nobody removes it. -/
def KeepsHandler (s : Transport) : Action → Prop
  | .run i _ =>
      s.posted[i]? ≠ some (.request (.setWriteHandler none)) ∧
        (s.posted[i]?.any Task.isWrite = true → s.writeHandler.isSome = true)
  | _ => True

instance (s : Transport) (a : Action) : Decidable (KeepsHandler s a) := by
  induction a using TransportSystem.Action.casesOn <;> dsimp only [KeepsHandler] <;> infer_instance

def FreshID (s : Transport) : Action → Prop
  | .asyncWrite _ packetID => packetID ∉ s.called
  | _ => True

instance (s : Transport) (a : Action) : Decidable (FreshID s a) := by
  induction a using TransportSystem.Action.casesOn <;> dsimp only [FreshID] <;> infer_instance

/-- A session ends with an empty queue, or with the failing write alone in it, and
no write completes with the recoverable error in its session. -/
def EndsIdle (s : Transport) (a : Action) : Prop :=
  (interrupts s a = true → s.txDeque = []) ∧
    match a with
    | .completeWrite i ec =>
        failing s i ec = true → ec ≠ .notFound ∧ s.txDeque.length ≤ 1
    | _ => True

instance (s : Transport) (a : Action) : Decidable (EndsIdle s a) := by
  induction a using TransportSystem.Action.casesOn <;> dsimp only [EndsIdle] <;> infer_instance

/-- Every scheduled packet is in one place: reported, posted or queued. -/
structure Resolving (s : Transport) : Prop where
  silent : s.writeHandler = none → s.txDeque = []
  balance : ∀ packetID, scheduled s packetID =
    notified s packetID + posted s packetID + queued s packetID
  calls : ∀ packetID, called s packetID = calling s packetID + returned s packetID

theorem countP_calls (p : Event → Bool) (handler : Option Handler) (event : Event) :
    (calls handler event).countP p = (handler.isSome && p event).toNat := by
  cases handler <;> cases h : p event <;> simp [calls, h]

theorem countP_fatalCalls {p : Event → Bool} (hp : ∀ error, p (.fatalError error) = false)
    (handler : Option Handler) (ec : ErrorCode) : (fatalCalls handler ec).countP p = 0 := by
  refine List.countP_eq_zero.mpr fun event hevent => ?_
  obtain ⟨error, rfl⟩ := fatalError_of_mem_fatalCalls hevent
  simp [hp]

@[simp] theorem countP_returns_fatalCalls (packetID : Nat) (status : WriteStatus)
    (handler : Option Handler) (ec : ErrorCode) :
    (fatalCalls handler ec).countP (returns packetID status) = 0 :=
  countP_fatalCalls (fun _ => rfl) handler ec

@[simp] theorem countP_notifies_fatalCalls (packetID : Nat) (handler : Option Handler)
    (ec : ErrorCode) : (fatalCalls handler ec).countP (notifies packetID) = 0 :=
  countP_fatalCalls (fun _ => rfl) handler ec

@[simp] theorem countP_returnsFrom_fatalCalls (packetID : Nat) (handler : Option Handler)
    (ec : ErrorCode) : (fatalCalls handler ec).countP (returnsFrom packetID) = 0 :=
  countP_fatalCalls (fun _ => rfl) handler ec

theorem countP_failure {s : Transport} {failure : List Event} (p : Event → Bool)
    (hfailure : ∀ w rest, s.txDeque = w :: rest →
      failure = calls s.writeHandler (.writeResult .failed w.packetID))
    (hnone : s.txDeque = [] → failure = [] ∧ s.writeHandler = none) :
    failure.countP p = match s.txDeque with
      | [] => 0
      | w :: _ => (s.writeHandler.isSome && p (.writeResult .failed w.packetID)).toNat := by
  cases hqueue : s.txDeque with
  | nil => simp [(hnone hqueue).1]
  | cons w rest => rw [hfailure w rest hqueue, countP_calls]

theorem handler_of_write {s : Transport} {i : Nat} {outcome : OpenOutcome} {w : Write}
    (hkeeps : KeepsHandler s (.run i outcome)) (htask : s.posted[i]? = some (.write w)) :
    s.writeHandler.isSome = true :=
  hkeeps.2 (by simp [htask, Task.isWrite])

theorem silent_step {s t : Transport} {a : Action}
    (hs : s.writeHandler = none → s.txDeque = []) (hkeeps : KeepsHandler s a)
    (hstep : step s a = some t) (hnone : t.writeHandler = none) : t.txDeque = [] := by
  cases step_outcome hstep with
  | handlersSet i outcome request fh feh reh wh htask hclosing hset =>
      cases hset with
      | write handler => exact absurd (show wh = none from hnone) (by simpa [htask] using hkeeps.1)
      | _ => exact hs hnone
  | openFailed => rfl
  | opened => rfl
  | closed => rfl
  | queued i outcome w htask =>
      simpa [show s.writeHandler = none from hnone] using handler_of_write hkeeps htask
  | started i outcome w htask =>
      simpa [show s.writeHandler = none from hnone] using handler_of_write hkeeps htask
  | readFailed => rfl
  | writtenLast => rfl
  | writtenNext i operation w next rest hwrite hlive hqueue =>
      exact absurd (hs hnone) (by simp [hqueue])
  | writeFailed => rfl
  | _ => exact hs hnone

theorem handler_of_queued {s : Transport} (hs : Resolving s) {w : Write} {rest : List Write}
    (hqueue : s.txDeque = w :: rest) : s.writeHandler.isSome = true := by
  by_contra hnone
  exact absurd (hs.silent (by simpa using hnone)) (by simp [hqueue])

theorem posted_of_request {s : Transport} {i : Nat} {request : Request}
    (htask : s.posted[i]? = some (.request request)) (packetID : Nat) :
    (s.posted.eraseIdx i).countP (carries packetID) = posted s packetID := by
  simpa [posted, carries] using (countP_eraseIdx htask (carries packetID)).symm

theorem balance_step {s t : Transport} {a : Action} (hs : Resolving s)
    (hkeeps : KeepsHandler s a) (hends : EndsIdle s a) (hstep : step s a = some t)
    (packetID : Nat) :
    scheduled t packetID = notified t packetID + posted t packetID + queued t packetID := by
  have hbalance := hs.balance packetID
  cases step_outcome hstep with
  | refused i caller status hcaller hrefuses =>
      have hstatus : status ≠ .scheduled := by
        rintro rfl
        exact hrefuses
      simpa [scheduled, notified, posted, queued, returns, notifies, hstatus] using hbalance
  | scheduled i caller hcaller =>
      simp only [scheduled, notified, posted, queued, countP_concat, returns, notifies, carries,
        and_true, Bool.toNat_false] at hbalance ⊢
      omega
  | requested request =>
      simpa [scheduled, notified, posted, queued, carries] using hbalance
  | suppressed i outcome request htask =>
      rw [← posted_of_request htask] at hbalance
      exact hbalance
  | handlersSet i outcome request fh feh reh wh htask =>
      rw [← posted_of_request htask] at hbalance
      exact hbalance
  | openFailed i outcome config port htask hclosing =>
      have hqueue := hends.1 (by simp [interrupts, opening, htask, hclosing])
      rw [← posted_of_request htask] at hbalance
      simpa [scheduled, notified, posted, queued, returns, notifies, hqueue] using hbalance
  | opened i outcome config htask hclosing =>
      have hqueue := hends.1 (by simp [interrupts, opening, htask, hclosing])
      rw [← posted_of_request htask] at hbalance
      simpa [scheduled, notified, posted, queued, returns, notifies, hqueue] using hbalance
  | closed i outcome htask hclosing =>
      have hqueue := hends.1 (by simp [interrupts, opening, htask, hclosing])
      rw [← posted_of_request htask] at hbalance
      simpa [scheduled, notified, posted, queued, returns, notifies, hqueue] using hbalance
  | cancelled i outcome w htask =>
      have hhandler := handler_of_write hkeeps htask
      have hposted := countP_eraseIdx htask (carries packetID)
      simp only [scheduled, notified, posted, queued, List.countP_append, countP_calls, returns,
        notifies, carries, hhandler, Bool.true_and, Bool.and_false, Bool.toNat_false]
        at hbalance hposted ⊢
      omega
  | queued i outcome w htask =>
      have hposted := countP_eraseIdx htask (carries packetID)
      simp only [scheduled, notified, posted, queued, countP_concat, carries] at hbalance hposted ⊢
      omega
  | started i outcome w htask hclosing hstopped hidle =>
      have hposted := countP_eraseIdx htask (carries packetID)
      simp only [scheduled, notified, posted, queued, countP_concat, countP_cons, List.countP_nil,
        returns, notifies, carries, hidle, Bool.toNat_false] at hbalance hposted ⊢
      omega
  | delivered =>
      simpa [scheduled, notified, posted, queued, countP_calls, returns, notifies] using hbalance
  | readRecovered =>
      simpa [scheduled, notified, posted, queued, countP_calls, returns, notifies] using hbalance
  | readFailed i ec bytesRead hread hlive hsuccess hfatal =>
      have hqueue := hends.1 (by simp [interrupts, hread, hlive, hsuccess, hfatal])
      simpa [scheduled, notified, posted, queued, returns, notifies, hqueue] using hbalance
  | writtenLast i operation w hwrite hlive hqueue =>
      have hhandler := handler_of_queued hs hqueue
      simp only [scheduled, notified, posted, queued, List.countP_append, countP_calls, countP_cons,
        List.countP_nil, returns, notifies, hhandler, hqueue, Bool.true_and, Bool.and_false,
        Bool.toNat_false] at hbalance ⊢
      omega
  | writtenNext i operation w next rest hwrite hlive hqueue =>
      have hhandler := handler_of_queued hs hqueue
      simp only [scheduled, notified, posted, queued, List.countP_append, countP_calls, countP_cons,
        List.countP_nil, returns, notifies, hhandler, hqueue, Bool.true_and, Bool.and_false,
        Bool.toNat_false] at hbalance ⊢
      omega
  | writeRecovered i operation failure hwrite hlive =>
      exact absurd rfl (hends.2 (by simp [failing, hwrite, hlive])).1
  | writeFailed i ec operation failure hwrite hlive hsuccess hfatal hfailure hnone =>
      have hreturns := countP_failure (returns packetID .scheduled) hfailure hnone
      have hnotifies := countP_failure (notifies packetID) hfailure hnone
      have hlen := (hends.2 (by simp [failing, hwrite, hlive, hsuccess])).2
      cases hqueue : s.txDeque with
      | nil =>
          simp only [hqueue] at hreturns hnotifies
          simpa [scheduled, notified, posted, queued, returns, notifies, hreturns, hnotifies,
            hqueue] using hbalance
      | cons w rest =>
          have hrest : rest = [] := by simpa [hqueue] using hlen
          have hhandler := handler_of_queued hs hqueue
          simp only [hqueue, hhandler, returns, notifies] at hreturns hnotifies
          simpa [scheduled, notified, posted, queued, returns, notifies, hreturns, hnotifies,
            hqueue, hrest, countP_cons, Nat.add_right_comm] using hbalance
  | _ => exact hbalance

theorem calling_set {s : Transport} {i : Nat} {caller moved : Caller}
    (hcaller : s.callers[i]? = some caller)
    (hmoved : moved.write.packetID = caller.write.packetID) (packetID : Nat) :
    ((s.callers.set i moved).countP fun caller => caller.write.packetID = packetID) =
      calling s packetID := by
  rw [calling, countP_set hcaller, countP_eraseIdx hcaller, hmoved]

theorem calls_step {s t : Transport} {a : Action} (hs : Resolving s)
    (hstep : step s a = some t) (packetID : Nat) :
    called t packetID = calling t packetID + returned t packetID := by
  have hcalls := hs.calls packetID
  cases step_outcome hstep with
  | called toWrite id =>
      simp only [called, calling, returned, countP_concat] at hcalls ⊢
      omega
  | refused i caller status hcaller =>
      have hcallers := countP_eraseIdx hcaller fun caller => caller.write.packetID = packetID
      simp only [called, calling, returned, countP_concat, returnsFrom] at hcalls hcallers ⊢
      omega
  | foundOpen i caller hcaller =>
      show called s packetID = List.countP _ (s.callers.set i _) + returned s packetID
      rw [calling_set hcaller (by rfl), hcalls]
  | fitted i caller hcaller =>
      show called s packetID = List.countP _ (s.callers.set i _) + returned s packetID
      rw [calling_set hcaller (by rfl), hcalls]
  | reserved i caller hcaller =>
      show called s packetID = List.countP _ (s.callers.set i _) + returned s packetID
      rw [calling_set hcaller (by rfl), hcalls]
  | scheduled i caller hcaller =>
      have hcallers := countP_eraseIdx hcaller fun caller => caller.write.packetID = packetID
      simp only [called, calling, returned, countP_concat, returnsFrom] at hcalls hcallers ⊢
      omega
  | openFailed => simpa [called, calling, returned, returnsFrom] using hcalls
  | opened => simpa [called, calling, returned, returnsFrom] using hcalls
  | closed => simpa [called, calling, returned, returnsFrom] using hcalls
  | cancelled => simpa [called, calling, returned, countP_calls, returnsFrom] using hcalls
  | started => simpa [called, calling, returned, returnsFrom] using hcalls
  | delivered => simpa [called, calling, returned, countP_calls, returnsFrom] using hcalls
  | readRecovered => simpa [called, calling, returned, countP_calls, returnsFrom] using hcalls
  | readFailed => simpa [called, calling, returned, returnsFrom] using hcalls
  | writtenLast => simpa [called, calling, returned, countP_calls, returnsFrom] using hcalls
  | writtenNext => simpa [called, calling, returned, countP_calls, returnsFrom] using hcalls
  | writeRecovered i operation failure hwrite hlive hfailure hnone =>
      have hreturns : failure.countP (returnsFrom packetID) = 0 := by
        rw [countP_failure _ hfailure hnone]
        split <;> simp [returnsFrom]
      simpa [called, calling, returned, countP_calls, returnsFrom, hreturns] using hcalls
  | writeFailed i ec operation failure hwrite hlive hsuccess hfatal hfailure hnone =>
      have hreturns : failure.countP (returnsFrom packetID) = 0 := by
        rw [countP_failure _ hfailure hnone]
        split <;> simp [returnsFrom]
      simpa [called, calling, returned, returnsFrom, hreturns] using hcalls
  | _ => exact hcalls

theorem resolving_step {s t : Transport} {a : Action} (hs : Resolving s)
    (hkeeps : KeepsHandler s a) (hends : EndsIdle s a) (hstep : step s a = some t) :
    Resolving t :=
  ⟨silent_step hs.silent hkeeps hstep, balance_step hs hkeeps hends hstep, calls_step hs hstep⟩

/-- A queued write waits for the outstanding write of the open session. -/
structure Pumping (s : Transport) : Prop where
  stopped : s.stopped = true → s.txDeque = []
  closed : s.closing = true → s.stopped = true
  outstanding : s.txDeque ≠ [] → ∃ operation ∈ s.writes, operation.generation = s.generation

theorem pumping_step {s t : Transport} {a : Action} (hs : Pumping s)
    (hends : EndsIdle s a) (hstep : step s a = some t) : Pumping t := by
  cases step_outcome hstep with
  | openFailed => exact ⟨fun _ => rfl, fun _ => rfl, by simp⟩
  | opened i outcome config htask hclosing => exact ⟨by simp, by simp [hclosing], by simp⟩
  | closed => exact ⟨fun _ => rfl, fun _ => rfl, by simp⟩
  | queued i outcome w htask hclosing hstopped hbusy =>
      exact ⟨by simp [hstopped], by simp [hclosing], fun _ => hs.outstanding hbusy⟩
  | started i outcome w htask hclosing hstopped =>
      exact ⟨by simp [hstopped], by simp [hclosing], by simp⟩
  | readFailed => exact ⟨fun _ => rfl, fun _ => rfl, by simp⟩
  | writeIgnored i ec operation hwrite hstale =>
      refine ⟨hs.stopped, hs.closed, fun hbusy => ?_⟩
      obtain ⟨live, hmem, hgeneration⟩ := hs.outstanding hbusy
      rcases eq_or_mem_eraseIdx hwrite hmem with rfl | hmem
      · have hstopped : s.stopped = false := by
          simpa using mt hs.stopped hbusy
        have hclosing : s.closing = false := by
          simpa [hstopped] using mt hs.closed
        exact absurd ⟨hclosing, hstopped, hgeneration⟩ hstale
      · exact ⟨live, hmem, hgeneration⟩
  | writtenLast => exact ⟨fun _ => rfl, hs.closed, by simp⟩
  | writtenNext i operation w next rest hwrite hlive =>
      exact ⟨by simp [hlive.2.1], hs.closed, by simp⟩
  | writeRecovered i operation failure hwrite hlive =>
      exact absurd rfl (hends.2 (by simp [failing, hwrite, hlive])).1
  | writeFailed => exact ⟨fun _ => rfl, fun _ => rfl, by simp⟩
  | undefined i ec operation hwrite hlive hqueue =>
      exact ⟨hs.stopped, hs.closed, fun hbusy => absurd hqueue hbusy⟩
  | _ => exact ⟨hs.stopped, hs.closed, hs.outstanding⟩

theorem resolving_init : Resolving Transport.init :=
  ⟨fun _ => rfl, fun _ => rfl, fun _ => rfl⟩

theorem pumping_init : Pumping Transport.init :=
  ⟨fun _ => rfl, fun _ => rfl, fun hbusy => absurd rfl hbusy⟩

theorem events_step {s t : Transport} {a : Action} (hstep : step s a = some t) :
    s.events <+: t.events := by
  cases step_outcome hstep <;> simp [List.append_assoc]

theorem posted_of_run {s t : Transport} {i : Nat} {outcome : OpenOutcome}
    (hstep : step s (.run i outcome) = some t) :
    t.posted = s.posted.eraseIdx i ∧ ∃ task, s.posted[i]? = some task := by
  cases step_outcome hstep with
  | suppressed _ _ request htask => exact ⟨rfl, _, htask⟩
  | openFailed _ _ config port htask => exact ⟨rfl, _, htask⟩
  | opened _ _ config htask => exact ⟨rfl, _, htask⟩
  | closed _ _ htask => exact ⟨rfl, _, htask⟩
  | handlersSet _ _ request fh feh reh wh htask => exact ⟨rfl, _, htask⟩
  | cancelled _ _ w htask => exact ⟨rfl, _, htask⟩
  | queued _ _ w htask => exact ⟨rfl, _, htask⟩
  | started _ _ w htask => exact ⟨rfl, _, htask⟩

theorem posted_step {s t : Transport} {a : Action} (hstep : step s a = some t)
    (packetID : Nat) :
    posted t packetID + scheduled s packetID ≤ posted s packetID + scheduled t packetID := by
  have hevents := (events_step hstep).sublist.countP_le (p := returns packetID .scheduled)
  cases a with
  | run i outcome =>
      rw [posted, (posted_of_run hstep).1]
      exact Nat.add_le_add (List.eraseIdx_sublist _ i).countP_le hevents
  | advance i =>
      cases step_outcome hstep with
      | scheduled _ caller hcaller =>
          simp only [scheduled, posted, countP_concat, returns, carries, and_true]
          omega
      | _ => exact Nat.add_le_add_left hevents _
  | post request =>
      cases step_outcome hstep with
      | requested => simp [scheduled, posted, carries]
  | _ => cases step_outcome hstep <;> exact Nat.add_le_add_left hevents _

theorem posted_run {s t : Transport} {i : Nat} {outcome : OpenOutcome} {w : Write}
    (hstep : step s (.run i outcome) = some t) (htask : s.posted[i]? = some (.write w)) :
    posted s w.packetID = posted t w.packetID + 1 := by
  simpa [posted, (posted_of_run hstep).1, carries] using
    countP_eraseIdx htask (carries w.packetID)

theorem queue_step {s t : Transport} {a : Action} (hstep : step s a = some t) :
    t.txDeque = s.txDeque ∨ (∃ w, t.txDeque = s.txDeque ++ [w]) ∨
      (∃ w, s.txDeque = w :: t.txDeque) ∨ t.txDeque = [] := by
  cases step_outcome hstep with
  | queued i outcome w => exact Or.inr (Or.inl ⟨w, rfl⟩)
  | started i outcome w htask hclosing hstopped hidle =>
      exact Or.inr (Or.inl ⟨w, by simp [hidle]⟩)
  | writtenNext i operation w next rest hwrite hlive hqueue =>
      exact Or.inr (Or.inr (Or.inl ⟨w, hqueue⟩))
  | openFailed => exact Or.inr (Or.inr (Or.inr rfl))
  | opened => exact Or.inr (Or.inr (Or.inr rfl))
  | closed => exact Or.inr (Or.inr (Or.inr rfl))
  | readFailed => exact Or.inr (Or.inr (Or.inr rfl))
  | writtenLast => exact Or.inr (Or.inr (Or.inr rfl))
  | writeFailed => exact Or.inr (Or.inr (Or.inr rfl))
  | _ => exact Or.inl rfl

theorem generation_step {s t : Transport} {a : Action} (hstep : step s a = some t)
    (hbusy : t.txDeque ≠ []) : t.generation = s.generation := by
  cases step_outcome hstep with
  | openFailed => exact absurd rfl hbusy
  | opened => exact absurd rfl hbusy
  | closed => exact absurd rfl hbusy
  | readFailed => exact absurd rfl hbusy
  | writeFailed => exact absurd rfl hbusy
  | _ => rfl

/-- The number of queued writes before the packet. -/
def ahead (s : Transport) (packetID : Nat) : Nat :=
  s.txDeque.findIdx fun w => w.packetID = packetID

theorem ne_of_popped {w : Write} {rest : List Write} {packetID : Nat}
    (hone : (w :: rest).countP (fun w => w.packetID = packetID) ≤ 1)
    (hrest : 0 < rest.countP fun w => w.packetID = packetID) : w.packetID ≠ packetID := by
  intro hfront
  simp only [countP_cons, hfront, decide_true, Bool.toNat_true] at hone
  omega

theorem findIdx_popped {w : Write} {rest : List Write} {packetID : Nat}
    (hfront : w.packetID ≠ packetID) :
    (w :: rest).findIdx (fun w => w.packetID = packetID) =
      rest.findIdx (fun w => w.packetID = packetID) + 1 := by
  simp [List.findIdx_cons, hfront]

theorem ahead_step {s t : Transport} {a : Action} {packetID : Nat}
    (hone : queued s packetID ≤ 1) (hs : 0 < queued s packetID) (ht : 0 < queued t packetID)
    (hstep : step s a = some t) : ahead t packetID ≤ ahead s packetID := by
  rcases queue_step hstep with hsame | ⟨w, hpushed⟩ | ⟨w, hpopped⟩ | hcleared
  · simp [ahead, hsame]
  · have hfound : s.txDeque.findIdx (fun w => w.packetID = packetID) < s.txDeque.length :=
      List.findIdx_lt_length.mpr (List.countP_pos_iff.mp hs)
    simp [ahead, hpushed, List.findIdx_append, hfound]
  · rw [queued, hpopped] at hone
    simp [ahead, hpopped, findIdx_popped (ne_of_popped hone ht)]
  · simp [queued, hcleared] at ht

/-- A write of the session completes while the packet stays queued: the front is
reported, and the packet moves up. -/
theorem ahead_completeWrite {s t : Transport} {i : Nat} {ec : ErrorCode}
    {operation : WriteOperation} {packetID : Nat} (hone : queued s packetID ≤ 1)
    (ht : 0 < queued t packetID) (hwrite : s.writes[i]? = some operation)
    (hlive : Live s operation.generation) (hends : EndsIdle s (.completeWrite i ec))
    (hstep : step s (.completeWrite i ec) = some t) : ahead t packetID < ahead s packetID := by
  cases step_outcome hstep with
  | writeIgnored _ _ stale hstale hnot =>
      obtain rfl : operation = stale := Option.some.inj (hwrite.symm.trans hstale)
      exact absurd hlive hnot
  | writtenLast => simp [queued] at ht
  | writtenNext _ _ w next rest _ _ hqueue =>
      rw [queued, hqueue] at hone
      simp only [ahead, hqueue, findIdx_popped (ne_of_popped hone ht)]
      exact Nat.lt_succ_self _
  | writeRecovered _ _ _ hrecovered hlive =>
      exact absurd rfl (hends.2 (by simp [failing, hrecovered, hlive])).1
  | writeFailed => simp [queued] at ht
  | undefined _ _ _ _ _ hqueue => simp [queued, hqueue] at ht

theorem nodup_step {s t : Transport} {a : Action} (hs : s.called.Nodup) (hfresh : FreshID s a)
    (hstep : step s a = some t) : t.called.Nodup := by
  cases step_outcome hstep with
  | called toWrite packetID =>
      refine List.nodup_append.mpr ⟨hs, by simp, fun id hid other hother heq => ?_⟩
      rw [List.mem_singleton] at hother
      exact hfresh (hother ▸ heq ▸ hid)
  | _ => exact hs

theorem called_le_one {s : Transport} (hnodup : s.called.Nodup) (packetID : Nat) :
    called s packetID ≤ 1 := by
  have hcount := List.nodup_iff_count.mp hnodup packetID
  rwa [List.count] at hcount

theorem returnsFrom_of_returns {packetID : Nat} {status : WriteStatus} {event : Event}
    (hevent : returns packetID status event = true) : returnsFrom packetID event = true := by
  cases event with
  | returned id returned => simpa [returnsFrom] using (of_decide_eq_true hevent).1
  | _ => cases hevent

theorem scheduled_add_refused_le_one {s : Transport} (hs : Resolving s)
    (hnodup : s.called.Nodup) (packetID : Nat) {status : WriteStatus}
    (hstatus : status ≠ .scheduled) :
    scheduled s packetID + s.events.countP (returns packetID status) ≤ 1 := by
  have hcalled := called_le_one hnodup packetID
  have hcalls := hs.calls packetID
  have hreturned : scheduled s packetID + s.events.countP (returns packetID status) ≤
      returned s packetID := by
    refine countP_add_countP_le (fun _ => returnsFrom_of_returns)
      (fun _ => returnsFrom_of_returns) ?_ s.events
    intro event hevent
    cases event with
    | returned id returned =>
        obtain ⟨-, rfl⟩ := of_decide_eq_true hevent
        simp [returns, hstatus.symm]
    | _ => rfl
  omega

theorem scheduled_le_one {s : Transport} (hs : Resolving s) (hnodup : s.called.Nodup)
    (packetID : Nat) : scheduled s packetID ≤ 1 := by
  have hle := scheduled_add_refused_le_one hs hnodup packetID (show WriteStatus.closed ≠ _ by simp)
  omega

theorem run_of_taken {s t : Transport} {a : Action} (hstep : step s a = some t) {task : Task}
    (hs : task ∈ s.posted) (ht : task ∉ t.posted) :
    ∃ i outcome, a = .run i outcome ∧ s.posted[i]? = some task := by
  cases a with
  | run i outcome =>
      obtain ⟨hposted, ran, hran⟩ := posted_of_run hstep
      rcases eq_or_mem_eraseIdx hran hs with rfl | hmem
      · exact ⟨i, outcome, rfl, hran⟩
      · exact absurd (hposted ▸ hmem) ht
  | advance i =>
      cases step_outcome hstep with
      | scheduled => exact absurd (List.mem_append_left _ hs) ht
      | _ => exact absurd hs ht
  | post request =>
      cases step_outcome hstep with
      | requested => exact absurd (List.mem_append_left _ hs) ht
  | _ => cases step_outcome hstep <;> exact absurd hs ht

theorem completeWrite_of_taken {s t : Transport} {a : Action} (hstep : step s a = some t)
    {operation : WriteOperation} (hs : operation ∈ s.writes) (ht : operation ∉ t.writes) :
    ∃ i ec, a = .completeWrite i ec ∧ s.writes[i]? = some operation := by
  have htaken : ∀ (i : Nat) (done : WriteOperation), s.writes[i]? = some done →
      operation ∉ s.writes.eraseIdx i → s.writes[i]? = some operation := by
    intro i done hdone hnot
    rcases eq_or_mem_eraseIdx hdone hs with rfl | hmem
    · exact hdone
    · exact absurd hmem hnot
  cases step_outcome hstep with
  | started => exact absurd (List.mem_append_left _ hs) ht
  | writeIgnored i ec done hwrite => exact ⟨i, ec, rfl, htaken i _ hwrite ht⟩
  | writtenLast i done w hwrite => exact ⟨i, .success, rfl, htaken i _ hwrite ht⟩
  | writtenNext i done w next rest hwrite =>
      exact ⟨i, .success, rfl, htaken i _ hwrite fun h => ht (List.mem_append_left _ h)⟩
  | writeRecovered i done failure hwrite => exact ⟨i, .notFound, rfl, htaken i _ hwrite ht⟩
  | writeFailed i ec done failure hwrite => exact ⟨i, ec, rfl, htaken i _ hwrite ht⟩
  | undefined i ec done hwrite => exact ⟨i, ec, rfl, htaken i _ hwrite ht⟩
  | _ => exact absurd hs ht

end EasyLoRa.WriteFate
