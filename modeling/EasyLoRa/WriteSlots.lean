import EasyLoRa.IndexedLists
import EasyLoRa.TransportOutcomes

namespace EasyLoRa.WriteSlots

open EasyLoRa.IndexedLists
open EasyLoRa.TransportModel
open EasyLoRa.TransportSystem
open EasyLoRa.TransportOutcomes
open EasyLoRa.TransitionSystem

def writesPosted (s : Transport) : Nat := s.posted.countP Task.isWrite

/-- The `asyncWrite` calls between their increment and their post. -/
def reservedSlots (s : Transport) : Nat := s.callers.countP Caller.isPosting

def liveWrites (s : Transport) : Nat :=
  s.writes.countP fun operation => operation.generation = s.generation

/-- `pendingWrites` never wrapped, and in an open transport it counts the posted
and the queued writes, within the limit. -/
structure CountsWrites (s : Transport) : Prop where
  noWrap : s.underflowed = false
  counts : s.currentState = .opened → reservedSlots s = 0 →
    s.pendingWrites = writesPosted s + s.txDeque.length
  limit : s.currentState = .opened → reservedSlots s = 0 →
    s.pendingWrites ≤ s.bufferConfig.txMaxElementsInQueue
  returnsToZero : s.currentState = .opened → reservedSlots s = 0 → writesPosted s = 0 →
    s.txDeque = [] → s.pendingWrites = 0

/-- An open task takes effect only when no write is posted or about to be, and
never on the generation of an outstanding write; no write completes with the
recoverable error in its session. -/
def OpensEmpty (s : Transport) : Action → Prop
  | .run i outcome =>
      (opening s i = true → writesPosted s = 0 ∧ reservedSlots s = 0) ∧
        (succeeding s i outcome = true →
          ∀ operation ∈ s.writes, operation.generation ≠ nextGeneration s.generation)
  | .completeWrite i ec => recovering s i ec = false
  | _ => True

instance (s : Transport) (a : Action) : Decidable (OpensEmpty s a) := by
  induction a using TransportSystem.Action.casesOn <;> dsimp only [OpensEmpty] <;> infer_instance

/-- The count as it stands at every moment: exact while the transport runs, and
never below what the posted tasks will release once it has stopped. -/
structure Counted (s : Transport) : Prop where
  noWrap : s.underflowed = false
  running : s.currentState = .opened → s.stopped = false
  closed : s.closing = true → s.stopped = true
  enough : writesPosted s + reservedSlots s ≤ s.pendingWrites
  exact : s.stopped = false →
    s.pendingWrites = writesPosted s + reservedSlots s + s.txDeque.length
  limit : s.stopped = false → s.pendingWrites ≤ s.bufferConfig.txMaxElementsInQueue
  single : s.stopped = false → liveWrites s ≤ 1
  queued : s.stopped = false → 0 < liveWrites s → s.txDeque ≠ []

theorem countsWrites_of_counted {s : Transport} (hs : Counted s) : CountsWrites s := by
  have hcounts : s.currentState = .opened → reservedSlots s = 0 →
      s.pendingWrites = writesPosted s + s.txDeque.length := by
    intro hopened hreserved
    have hexact := hs.exact (hs.running hopened)
    omega
  refine ⟨hs.noWrap, hcounts, fun hopened _ => hs.limit (hs.running hopened), ?_⟩
  intro hopened hreserved hposted hqueue
  simpa [hposted, hqueue] using hcounts hopened hreserved

theorem fetchSub_of_pos {count : Nat} (h : 0 < count) : fetchSub count = count - 1 :=
  if_neg (by omega)

theorem counted_init : Counted Transport.init := by
  constructor <;> simp [Transport.init, writesPosted, reservedSlots, liveWrites]

theorem counted_of_stopped {s : Transport} (hnoWrap : s.underflowed = false)
    (hstopped : s.stopped = true) (hstate : s.currentState ≠ .opened)
    (henough : writesPosted s + reservedSlots s ≤ s.pendingWrites) : Counted s := by
  refine ⟨hnoWrap, fun h => absurd h hstate, fun _ => hstopped, henough, ?_, ?_, ?_, ?_⟩ <;>
    simp [hstopped]

theorem postedWrites_eraseIdx {s : Transport} {i : Nat} {task : Task}
    (htask : s.posted[i]? = some task) :
    writesPosted s =
      writesPosted { s with posted := s.posted.eraseIdx i } + task.isWrite.toNat := by
  rw [writesPosted, countP_eraseIdx htask]
  rfl

theorem reservedSlots_eraseIdx {s : Transport} {i : Nat} {caller : Caller}
    (hcaller : s.callers[i]? = some caller) :
    reservedSlots s =
      reservedSlots { s with callers := s.callers.eraseIdx i } + caller.isPosting.toNat := by
  rw [reservedSlots, countP_eraseIdx hcaller]
  rfl

theorem reservedSlots_set {s : Transport} {i : Nat} {caller : Caller}
    (hcaller : s.callers[i]? = some caller) (next : Caller) :
    reservedSlots { s with callers := s.callers.set i next } + caller.isPosting.toNat =
      reservedSlots s + next.isPosting.toNat := by
  rw [reservedSlots_eraseIdx hcaller, reservedSlots, countP_set hcaller]
  exact Nat.add_right_comm _ _ _

theorem counted_of_running {s : Transport} (hnoWrap : s.underflowed = false)
    (hclosing : s.closing = false) (hstopped : s.stopped = false)
    (hexact : s.pendingWrites = writesPosted s + reservedSlots s + s.txDeque.length)
    (hlimit : s.pendingWrites ≤ s.bufferConfig.txMaxElementsInQueue)
    (hsingle : liveWrites s ≤ 1) (hqueued : 0 < liveWrites s → s.txDeque ≠ []) :
    Counted s :=
  ⟨hnoWrap, fun _ => hstopped, fun h => absurd h (by simp [hclosing]), by omega,
    fun _ => hexact, fun _ => hlimit, fun _ => hsingle, fun _ => hqueued⟩

theorem counted_of_balance {s : Transport} (hs : Counted s) (callers : List Caller)
    (posted : List Task) (pendingWrites : Nat)
    (hbalance : pendingWrites + (writesPosted s + reservedSlots s) =
      s.pendingWrites + (writesPosted { s with posted := posted } +
        reservedSlots { s with callers := callers }))
    (hlimit : pendingWrites ≤ s.pendingWrites ∨
      pendingWrites ≤ s.bufferConfig.txMaxElementsInQueue) :
    Counted { s with
      callers := callers
      posted := posted
      pendingWrites := pendingWrites } := by
  refine { hs with enough := ?_, exact := fun hstopped => ?_, limit := fun hstopped => ?_ }
  · have henough := hs.enough
    change writesPosted { s with posted := posted } +
      reservedSlots { s with callers := callers } ≤ pendingWrites
    omega
  · have hexact := hs.exact hstopped
    change pendingWrites = writesPosted { s with posted := posted } +
      reservedSlots { s with callers := callers } + s.txDeque.length
    omega
  · have hlimit' := hs.limit hstopped
    change pendingWrites ≤ s.bufferConfig.txMaxElementsInQueue
    omega

theorem counted_of_moved {s : Transport} (hs : Counted s) {i : Nat} {caller next : Caller}
    (hcaller : s.callers[i]? = some caller) (hpc : caller.isPosting = false)
    (hnext : next.isPosting = false) :
    Counted { s with callers := s.callers.set i next } := by
  have hcount : reservedSlots { s with callers := s.callers.set i next } = reservedSlots s := by
    simpa [hpc, hnext] using reservedSlots_set hcaller next
  exact counted_of_balance hs (s.callers.set i next) s.posted s.pendingWrites
    (by rw [hcount]) (Or.inl (Nat.le_refl _))

theorem isPosting_of_refuses {s : Transport} {caller : Caller} {status : WriteStatus}
    (hrefuses : Refuses s caller status) : caller.isPosting = false := by
  cases status with
  | scheduled => exact hrefuses.elim
  | closed => simp [Caller.isPosting, hrefuses.1]
  | queueFull => simp [Caller.isPosting, hrefuses.1]
  | messageTooLong => simp [Caller.isPosting, hrefuses.1]

theorem counted_caller {s t : Transport} {i : Nat} (hs : Counted s)
    (hstep : step s (.advance i) = some t) : Counted t := by
  cases step_outcome hstep with
  | refused _ caller status hcaller hrefuses =>
      have hcount := reservedSlots_eraseIdx hcaller
      rw [isPosting_of_refuses hrefuses] at hcount
      exact { counted_of_balance hs (s.callers.eraseIdx i) s.posted s.pendingWrites
        (by rw [hcount]; rfl) (Or.inl (Nat.le_refl _)) with }
  | foundOpen _ caller hcaller hpc =>
      exact counted_of_moved hs hcaller (by simp [Caller.isPosting, hpc]) rfl
  | fitted _ caller hcaller hpc =>
      exact counted_of_moved hs hcaller (by simp [Caller.isPosting, hpc]) rfl
  | reserved _ caller hcaller hpc hroom =>
      have hcount : reservedSlots
          { s with callers := s.callers.set i ⟨.posting, caller.write⟩ } = reservedSlots s + 1 := by
        simpa [Caller.isPosting, hpc] using reservedSlots_set hcaller ⟨.posting, caller.write⟩
      exact counted_of_balance hs (s.callers.set i ⟨.posting, caller.write⟩) s.posted
        (s.pendingWrites + 1) (by
          change s.pendingWrites + 1 + (writesPosted s + reservedSlots s) =
            s.pendingWrites + (writesPosted s + _)
          rw [hcount]
          omega) (Or.inr hroom)
  | scheduled _ caller hcaller hpc =>
      have hcount := reservedSlots_eraseIdx hcaller
      have hposted : writesPosted { s with posted := s.posted ++ [.write caller.write] } =
          writesPosted s + 1 := by simp [writesPosted, Task.isWrite]
      simp only [Caller.isPosting, hpc, decide_true, Bool.toNat_true] at hcount
      exact { counted_of_balance hs (s.callers.eraseIdx i)
        (s.posted ++ [.write caller.write]) s.pendingWrites
        (by rw [hposted]; omega) (Or.inl (Nat.le_refl _)) with }

theorem counted_of_request {s : Transport} (hs : Counted s) {i : Nat} {request : Request}
    (htask : s.posted[i]? = some (.request request)) :
    Counted { s with posted := s.posted.eraseIdx i } := by
  have hcount := postedWrites_eraseIdx htask
  exact counted_of_balance hs s.callers (s.posted.eraseIdx i) s.pendingWrites
    (by rw [hcount]; rfl) (Or.inl (Nat.le_refl _))

theorem counted_run {s t : Transport} {i : Nat} {outcome : OpenOutcome} (hs : Counted s)
    (hempty : OpensEmpty s (.run i outcome)) (hstep : step s (.run i outcome) = some t) :
    Counted t := by
  cases step_outcome hstep with
  | suppressed _ _ request htask => exact counted_of_request hs htask
  | handlersSet _ _ request fh feh reh wh htask => exact { counted_of_request hs htask with }
  | openFailed _ _ config port htask hclosing =>
      obtain ⟨hposted, hreserved⟩ := hempty.1 (by simp [opening, htask, hclosing])
      have hcount := postedWrites_eraseIdx htask
      refine counted_of_stopped hs.noWrap rfl (by simp) ?_
      change writesPosted { s with posted := s.posted.eraseIdx i } + reservedSlots s ≤ 0
      omega
  | opened _ _ config htask hclosing hport houtcome =>
      obtain ⟨hposted, hreserved⟩ := hempty.1 (by simp [opening, htask, hclosing])
      have hfresh := hempty.2 (by simp [succeeding, opening, htask, hclosing, hport, houtcome])
      have hcount := postedWrites_eraseIdx htask
      have hlive : s.writes.countP
          (fun operation => operation.generation = nextGeneration s.generation) = 0 :=
        List.countP_eq_zero.mpr fun operation hoperation => by
          simpa using hfresh operation hoperation
      refine counted_of_running hs.noWrap hclosing rfl ?_ (Nat.zero_le _) ?_ ?_
      · change 0 = writesPosted { s with posted := s.posted.eraseIdx i } + reservedSlots s + 0
        omega
      · simp [liveWrites, hlive]
      · simp [liveWrites, hlive]
  | closed _ _ htask =>
      have hcount := postedWrites_eraseIdx htask
      have henough := hs.enough
      refine counted_of_stopped hs.noWrap rfl (by simp) ?_
      change writesPosted { s with posted := s.posted.eraseIdx i } + reservedSlots s ≤
        s.pendingWrites
      omega
  | cancelled _ _ w htask hdown =>
      have hcount := postedWrites_eraseIdx htask
      have henough := hs.enough
      simp only [Task.isWrite, Bool.toNat_true] at hcount
      have hstopped : s.stopped = true := hdown.elim hs.closed id
      refine counted_of_stopped ?_ hstopped ?_ ?_
      · simp [hs.noWrap]
        omega
      · exact fun hopened => absurd (hs.running hopened) (by simp [hstopped])
      · change writesPosted { s with posted := s.posted.eraseIdx i } + reservedSlots s ≤
          fetchSub s.pendingWrites
        rw [fetchSub_of_pos (by omega)]
        omega
  | queued _ _ w htask hclosing hstopped hbusy =>
      have hcount := postedWrites_eraseIdx htask
      have hexact := hs.exact hstopped
      simp only [Task.isWrite, Bool.toNat_true] at hcount
      refine counted_of_running hs.noWrap hclosing hstopped ?_ (hs.limit hstopped)
        (hs.single hstopped) (by simp)
      change s.pendingWrites = writesPosted { s with posted := s.posted.eraseIdx i } +
        reservedSlots s + (s.txDeque ++ [w]).length
      rw [List.length_append, List.length_singleton]
      omega
  | started _ _ w htask hclosing hstopped hidle =>
      have hcount := postedWrites_eraseIdx htask
      have hexact := hs.exact hstopped
      have hnone : liveWrites s = 0 := by
        by_contra hlive
        exact hs.queued hstopped (Nat.pos_of_ne_zero hlive) hidle
      simp only [Task.isWrite, Bool.toNat_true] at hcount
      rw [hidle, List.length_nil] at hexact
      refine counted_of_running hs.noWrap hclosing hstopped ?_ (hs.limit hstopped) ?_ (by simp)
      · change s.pendingWrites = writesPosted { s with posted := s.posted.eraseIdx i } +
          reservedSlots s + 1
        omega
      · simp only [liveWrites] at hnone ⊢
        simp [hnone]

/-- A live write that completes was the only one, and its element is queued. -/
theorem liveWrites_of_live {s : Transport} (hs : Counted s) {i : Nat}
    {operation : WriteOperation} (hwrite : s.writes[i]? = some operation)
    (hlive : Live s operation.generation) :
    (s.writes.eraseIdx i).countP (fun operation => operation.generation = s.generation) = 0 ∧
      s.txDeque ≠ [] := by
  have hcount : liveWrites s = _ :=
    countP_eraseIdx hwrite fun operation => operation.generation = s.generation
  simp only [hlive.2.2, decide_true, Bool.toNat_true] at hcount
  have hsingle := hs.single hlive.2.1
  exact ⟨by omega, hs.queued hlive.2.1 (by omega)⟩

theorem counted_completeWrite {s t : Transport} {i : Nat} {ec : ErrorCode} (hs : Counted s)
    (hempty : OpensEmpty s (.completeWrite i ec))
    (hstep : step s (.completeWrite i ec) = some t) : Counted t := by
  cases step_outcome hstep with
  | writeIgnored _ _ operation hwrite =>
      have hcount : liveWrites { s with writes := s.writes.eraseIdx i } ≤ liveWrites s :=
        (List.eraseIdx_sublist s.writes i).countP_le
      exact { hs with
        single := fun hstopped => Nat.le_trans hcount (hs.single hstopped)
        queued := fun hstopped hlive => hs.queued hstopped (Nat.lt_of_lt_of_le hlive hcount) }
  | writtenLast _ operation w hwrite hlive hqueue =>
      obtain ⟨hnone, -⟩ := liveWrites_of_live hs hwrite hlive
      have hexact := hs.exact hlive.2.1
      have hlimit := hs.limit hlive.2.1
      rw [hqueue, List.length_singleton] at hexact
      have hsub := fetchSub_of_pos (show 0 < s.pendingWrites by omega)
      refine counted_of_running ?_ hlive.1 hlive.2.1 ?_ ?_ ?_ ?_
      · simp [hs.noWrap]
        omega
      · change fetchSub s.pendingWrites = writesPosted s + reservedSlots s + 0
        omega
      · change fetchSub s.pendingWrites ≤ s.bufferConfig.txMaxElementsInQueue
        omega
      · simp [liveWrites, hnone]
      · simp [liveWrites, hnone]
  | writtenNext _ operation w next rest hwrite hlive hqueue =>
      obtain ⟨hnone, -⟩ := liveWrites_of_live hs hwrite hlive
      have hexact := hs.exact hlive.2.1
      have hlimit := hs.limit hlive.2.1
      rw [hqueue, List.length_cons] at hexact
      have hsub := fetchSub_of_pos (show 0 < s.pendingWrites by omega)
      refine counted_of_running ?_ hlive.1 hlive.2.1 ?_ ?_ ?_ (by simp)
      · simp [hs.noWrap]
        omega
      · change fetchSub s.pendingWrites =
          writesPosted s + reservedSlots s + (next :: rest).length
        omega
      · change fetchSub s.pendingWrites ≤ s.bufferConfig.txMaxElementsInQueue
        omega
      · simp [liveWrites, hnone]
  | writeRecovered _ operation failure hwrite hlive hfailure hnone =>
      have hqueue := (liveWrites_of_live hs hwrite hlive).2
      simp [OpensEmpty, recovering, hwrite, hlive, hqueue] at hempty
  | writeFailed _ _ operation failure hwrite hlive =>
      have hqueue := List.length_pos_iff.mpr (liveWrites_of_live hs hwrite hlive).2
      have hexact := hs.exact hlive.2.1
      have hsub := fetchSub_of_pos (show 0 < s.pendingWrites by omega)
      refine counted_of_stopped ?_ rfl (by simp) ?_
      · simp [hs.noWrap]
        omega
      · change writesPosted s + reservedSlots s ≤ fetchSub s.pendingWrites
        omega
  | undefined _ _ operation hwrite hlive hqueue =>
      exact absurd hqueue (liveWrites_of_live hs hwrite hlive).2

theorem counted_step {s t : Transport} {a : Action} (hs : Counted s)
    (hempty : OpensEmpty s a) (hstep : step s a = some t) : Counted t := by
  cases a with
  | asyncWrite toWrite packetID =>
      cases step_outcome hstep with
      | called =>
          have hcount : reservedSlots { s with
              callers := s.callers ++
                [⟨.checkingClosed, ⟨toWrite, packetID, s.called.length, s.session⟩⟩] } =
              reservedSlots s := by simp [reservedSlots, Caller.isPosting]
          exact { counted_of_balance hs _ s.posted s.pendingWrites
            (by rw [hcount]) (Or.inl (Nat.le_refl _)) with }
  | advance i => exact counted_caller hs hstep
  | post request =>
      cases step_outcome hstep with
      | requested =>
          have hcount : writesPosted { s with posted := s.posted ++ [.request request] } =
              writesPosted s := by simp [writesPosted, Task.isWrite]
          exact counted_of_balance hs s.callers _ s.pendingWrites
            (by rw [hcount]) (Or.inl (Nat.le_refl _))
  | run i outcome => exact counted_run hs hempty hstep
  | receive bytes =>
      cases step_outcome hstep with
      | received => exact { hs with }
  | completeRead i ec bytesRead =>
      cases step_outcome hstep with
      | readFailed => exact counted_of_stopped hs.noWrap rfl (by simp) hs.enough
      | _ => exact { hs with }
  | completeWrite i ec => exact counted_completeWrite hs hempty hstep

/-- `pendingWrites` counts what it should in every run that opens the transport
only while no write is on its way to the queue. -/
theorem countsWrites_of_opensEmpty (schedule : List Action) (s : Transport)
    (hmeets : Meets step OpensEmpty Transport.init schedule)
    (hexec : exec step Transport.init schedule = some s) : CountsWrites s :=
  countsWrites_of_counted (exec_invariant (I := Counted)
    (fun _ _ _ hs hempty hstep => counted_step hs hempty hstep) counted_init hmeets hexec)

/-- The device is unplugged and the transport opened again while an `asyncWrite`
call holds a slot; then the call posts its task, and the write completes. -/
def resetSchedule : List Action :=
  [.post (.openPort defaultBufferConfig), .run 0 .succeeds, .asyncWrite [1] 7, .advance 0,
    .advance 0, .advance 0, .completeRead 0 .eof 0, .post (.openPort defaultBufferConfig),
    .run 0 .succeeds, .advance 0, .run 0 .succeeds, .completeWrite 0 .success]

theorem not_countsWrites_resetSchedule :
    ∃ s, exec step Transport.init resetSchedule = some s ∧ s.currentState = .opened ∧
      s.pendingWrites = sizeMax ∧ s.txDeque = [] ∧ ¬ CountsWrites s := by
  refine ⟨(exec step Transport.init resetSchedule).get (by decide), by simp, ?_, ?_, ?_,
    fun h => absurd h.noWrap ?_⟩ <;> decide

def settledSchedule : List Action :=
  [.post (.openPort defaultBufferConfig), .run 0 .succeeds, .asyncWrite [1] 7, .advance 0,
    .advance 0, .advance 0, .completeRead 0 .eof 0, .advance 0, .run 0 .succeeds,
    .post (.openPort defaultBufferConfig), .run 0 .succeeds, .asyncWrite [2] 8, .advance 0,
    .advance 0, .advance 0, .advance 0, .run 0 .succeeds, .completeWrite 0 .success]

theorem countsWrites_settledSchedule :
    ∃ s, exec step Transport.init settledSchedule = some s ∧ s.currentState = .opened ∧
      s.pendingWrites = 0 ∧ CountsWrites s := by
  refine ⟨(exec step Transport.init settledSchedule).get (by decide), by simp, by decide,
    by decide, ?_⟩
  exact countsWrites_of_opensEmpty settledSchedule _ (by decide) (by simp)

end EasyLoRa.WriteSlots
