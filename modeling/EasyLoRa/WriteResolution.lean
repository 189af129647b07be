import EasyLoRa.FairRuns
import EasyLoRa.WriteFate

namespace EasyLoRa.WriteResolution

open EasyLoRa.FairRuns
open EasyLoRa.TransportModel
open EasyLoRa.TransportSystem
open EasyLoRa.TransportOutcomes
open EasyLoRa.TransitionSystem
open EasyLoRa.WriteFate

/-- Every posted write task is eventually run, and every outstanding write is
eventually completed. -/
structure Fair (run : Nat → Transport) (label : Nat → Option Action) : Prop where
  tasks : ∀ n w, Task.write w ∈ (run n).posted → ∃ k, n ≤ k ∧ ∃ i outcome,
    label k = some (.run i outcome) ∧ (run k).posted[i]? = some (.write w)
  completions : ∀ n operation, operation ∈ (run n).writes → ∃ k, n ≤ k ∧ ∃ i ec,
    label k = some (.completeWrite i ec) ∧ (run k).writes[i]? = some operation

/-- What the write handler is told over a whole run. -/
structure ResolvesOnce (run : Nat → Transport) : Prop where
  scheduled : ∀ n packetID, 0 < scheduled (run n) packetID →
    ∃ m, ∀ k, m ≤ k → notified (run k) packetID = 1
  atMostOnce : ∀ n packetID, notified (run n) packetID ≤ 1
  refused : ∀ n packetID status, status ≠ .scheduled →
    Event.returned packetID status ∈ (run n).events → ∀ m, notified (run m) packetID = 0

section

variable {run : Nat → Transport} {label : Nat → Option Action}

theorem resolving_run (hrun : IsRun step Transport.init run label)
    (hkeeps : RunMeets KeepsHandler run label) (hends : RunMeets EndsIdle run label) (n : Nat) :
    Resolving (run n) :=
  hrun.invariant (C := fun s a => KeepsHandler s a ∧ EndsIdle s a)
    (fun _ _ _ hs hmeets hstep => resolving_step hs hmeets.1 hmeets.2 hstep) resolving_init
    (fun n a hlabel => ⟨hkeeps n a hlabel, hends n a hlabel⟩) n

theorem pumping_run (hrun : IsRun step Transport.init run label)
    (hends : RunMeets EndsIdle run label) (n : Nat) : Pumping (run n) :=
  hrun.invariant (fun _ _ _ => pumping_step) pumping_init hends n

theorem countP_events_mono (hrun : IsRun step Transport.init run label) (p : Event → Bool)
    {m n : Nat} (hmn : m ≤ n) : (run m).events.countP p ≤ (run n).events.countP p :=
  hrun.monotone (f := fun s => s.events.countP p)
    (fun n a hlabel => (events_step (hrun.steps n a hlabel)).sublist.countP_le) hmn

theorem nodup_run (hrun : IsRun step Transport.init run label)
    (hfresh : RunMeets FreshID run label) (n : Nat) : (run n).called.Nodup :=
  hrun.invariant (I := fun s => s.called.Nodup) (fun _ _ _ => nodup_step) List.nodup_nil hfresh n

/-- While a packet stays queued the write its session waits for stays outstanding,
and is completed in that session. -/
theorem completes_of_queued (hrun : IsRun step Transport.init run label)
    (hends : RunMeets EndsIdle run label) (hfair : Fair run label) {n packetID : Nat}
    (hqueued : ∀ k, n ≤ k → 0 < queued (run k) packetID) :
    ∃ k, n ≤ k ∧ ∃ i ec operation, label k = some (.completeWrite i ec) ∧
      (run k).writes[i]? = some operation ∧ Live (run k) operation.generation := by
  have hbusy : ∀ k, n ≤ k → (run k).txDeque ≠ [] := by
    intro k hk hempty
    have hpos := hqueued k hk
    simp [queued, hempty] at hpos
  obtain ⟨operation, hmem, hgeneration⟩ :=
    (pumping_run hrun hends n).outstanding (hbusy n (Nat.le_refl n))
  obtain ⟨k, hk, i, ec, hlabel, hwrite⟩ := hfair.completions n operation hmem
  have hsame : ∀ k, n ≤ k → (run k).generation = (run n).generation := by
    intro k hk
    induction k, hk using Nat.le_induction with
    | base => rfl
    | succ k hk ih =>
        cases hlabel : label k with
        | none => rw [hrun.stays k hlabel, ih]
        | some a =>
            rw [generation_step (hrun.steps k a hlabel) (hbusy (k + 1) (by omega)), ih]
  have hpumping := pumping_run hrun hends k
  have hstopped : (run k).stopped = false := by
    simpa using mt hpumping.stopped (hbusy k hk)
  have hclosing : (run k).closing = false := by
    simpa [hstopped] using mt hpumping.closed
  exact ⟨k, hk, i, ec, operation, hlabel, hwrite, hclosing, hstopped,
    hgeneration.trans (hsame k hk).symm⟩

section

variable (hrun : IsRun step Transport.init run label) (hkeeps : RunMeets KeepsHandler run label)
variable (hfresh : RunMeets FreshID run label) (hends : RunMeets EndsIdle run label)

include hrun hkeeps hfresh hends

theorem scheduled_run (n packetID : Nat) : scheduled (run n) packetID ≤ 1 :=
  scheduled_le_one (resolving_run hrun hkeeps hends n) (nodup_run hrun hfresh n) packetID

theorem queued_run (n packetID : Nat) : queued (run n) packetID ≤ 1 := by
  have hbalance := (resolving_run hrun hkeeps hends n).balance packetID
  have hscheduled := scheduled_run hrun hkeeps hfresh hends n packetID
  omega

theorem eventually_unqueued (hfair : Fair run label) (n packetID : Nat) :
    ∃ m, n ≤ m ∧ queued (run m) packetID = 0 := by
  have hone := fun k => queued_run hrun hkeeps hfresh hends k packetID
  have hstay : ∀ k, 0 < queued (run k) packetID → 0 < queued (run (k + 1)) packetID →
      ahead (run (k + 1)) packetID ≤ ahead (run k) packetID := by
    intro k hk hnext
    cases hlabel : label k with
    | none => exact Nat.le_of_eq (by rw [hrun.stays k hlabel])
    | some a => exact ahead_step (hone k) hk hnext (hrun.steps k a hlabel)
  obtain ⟨m, hm, hgone⟩ := eventually_not_of_ranking (fun k => ahead (run k) packetID) hstay
    fun hqueued m hm => by
      obtain ⟨k, hk, i, ec, operation, hlabel, hwrite, hlive⟩ :=
        completes_of_queued hrun hends hfair fun k hk => hqueued k (Nat.le_trans hm hk)
      exact ⟨k, hk, ahead_completeWrite (hone k) (hqueued (k + 1) (by omega)) hwrite hlive
        (hends k _ hlabel) (hrun.steps k _ hlabel)⟩
  exact ⟨m, hm, Nat.eq_zero_of_not_pos hgone⟩

theorem eventually_unposted (hfair : Fair run label) {n packetID : Nat}
    (hscheduled : 0 < scheduled (run n) packetID) :
    ∃ m, n ≤ m ∧ posted (run m) packetID = 0 := by
  by_cases hposted : posted (run n) packetID = 0
  · exact ⟨n, Nat.le_refl n, hposted⟩
  · obtain ⟨task, hmem, hcarries⟩ := List.countP_pos_iff.mp (Nat.pos_of_ne_zero hposted)
    cases task with
    | request request => cases hcarries
    | write w =>
        obtain rfl : w.packetID = packetID := of_decide_eq_true hcarries
        obtain ⟨k, hk, i, outcome, hlabel, htask⟩ := hfair.tasks n w hmem
        have hdropped := posted_run (hrun.steps k _ hlabel) htask
        have hbalance := (resolving_run hrun hkeeps hends k).balance w.packetID
        have hone := scheduled_run hrun hkeeps hfresh hends k w.packetID
        exact ⟨k + 1, by omega, by omega⟩

theorem unposted_run {m n packetID : Nat} (hscheduled : 0 < scheduled (run m) packetID)
    (hposted : posted (run m) packetID = 0) (hmn : m ≤ n) : posted (run n) packetID = 0 := by
  induction n, hmn using Nat.le_induction with
  | base => exact hposted
  | succ n hmn ih =>
      cases hlabel : label n with
      | none => rw [hrun.stays n hlabel, ih]
      | some a =>
          have hstep := posted_step (hrun.steps n a hlabel) packetID
          have hmono := countP_events_mono hrun (returns packetID .scheduled) hmn
          have hone := scheduled_run hrun hkeeps hfresh hends (n + 1) packetID
          change scheduled (run m) packetID ≤ scheduled (run n) packetID at hmono
          omega

end

/-- In every fair run with a write handler whose sessions end with nothing waiting,
every accepted write is reported once, and no refused one is. -/
theorem resolvesOnce_of_endsIdle (hrun : IsRun step Transport.init run label)
    (hkeeps : RunMeets KeepsHandler run label) (hfresh : RunMeets FreshID run label)
    (hends : RunMeets EndsIdle run label) (hfair : Fair run label) : ResolvesOnce run where
  scheduled := by
    intro n packetID hscheduled
    obtain ⟨k, hk, hposted⟩ :=
      eventually_unposted hrun hkeeps hfresh hends hfair hscheduled
    obtain ⟨m, hm, hqueued⟩ := eventually_unqueued hrun hkeeps hfresh hends hfair k packetID
    refine ⟨m, fun l hl => ?_⟩
    have hscheduledOf : ∀ l, n ≤ l → 0 < scheduled (run l) packetID := fun l hl =>
      Nat.lt_of_lt_of_le hscheduled (countP_events_mono hrun _ hl)
    have hunposted := unposted_run hrun hkeeps hfresh hends (hscheduledOf k hk) hposted hm
    have hbalanceAtM := (resolving_run hrun hkeeps hends m).balance packetID
    have hbalance := (resolving_run hrun hkeeps hends l).balance packetID
    have hone := scheduled_run hrun hkeeps hfresh hends l packetID
    have hpos := hscheduledOf m (by omega)
    have hmono : notified (run m) packetID ≤ notified (run l) packetID :=
      countP_events_mono hrun _ hl
    omega
  atMostOnce := by
    intro n packetID
    have hbalance := (resolving_run hrun hkeeps hends n).balance packetID
    have hone := scheduled_run hrun hkeeps hfresh hends n packetID
    omega
  refused := by
    intro n packetID status hstatus hreturned m
    have hl : n ≤ max n m := Nat.le_max_left n m
    have hrefused : 0 < (run n).events.countP (returns packetID status) :=
      List.countP_pos_iff.mpr ⟨_, hreturned, by simp [returns]⟩
    have hrefusedOnce := scheduled_add_refused_le_one
      (resolving_run hrun hkeeps hends (max n m)) (nodup_run hrun hfresh _) packetID hstatus
    have hbalance := (resolving_run hrun hkeeps hends (max n m)).balance packetID
    have hmono := countP_events_mono hrun (returns packetID status) hl
    have hnotified : notified (run m) packetID ≤ notified (run (max n m)) packetID :=
      countP_events_mono hrun _ (Nat.le_max_right n m)
    omega

end

/-- A schedule that leaves no write task and no write behind is fair. -/
theorem fair_visited {schedule : List Action} {s : Transport}
    (hexec : exec step Transport.init schedule = some s)
    (hposted : ∀ task ∈ s.posted, task.isWrite = false) (hwrites : s.writes = []) :
    Fair (visited step Transport.init schedule) fun n => schedule[n]? := by
  constructor
  · intro n w hmem
    obtain ⟨k, a, hk, hlabel, hstep, hbefore, hafter⟩ :=
      exists_label_of_final (P := fun s => Task.write w ∈ s.posted) hexec hmem
        (fun hleft => by simpa [Task.isWrite] using hposted _ hleft)
    obtain ⟨i, outcome, rfl, htask⟩ := run_of_taken hstep hbefore hafter
    exact ⟨k, hk, i, outcome, hlabel, htask⟩
  · intro n operation hmem
    obtain ⟨k, a, hk, hlabel, hstep, hbefore, hafter⟩ :=
      exists_label_of_final (P := fun s => operation ∈ s.writes) hexec hmem (by simp [hwrites])
    obtain ⟨i, ec, rfl, hwrite⟩ := completeWrite_of_taken hstep hbefore hafter
    exact ⟨k, hk, i, ec, hlabel, hwrite⟩

/-- Two writes are done one after the other; the device is unplugged before the task
of the third runs, and a fourth call finds the transport stopped. -/
def settledWritesSchedule : List Action :=
  [.post (.setWriteHandler (some 1)), .run 0 .succeeds, .post (.openPort defaultBufferConfig),
    .run 0 .succeeds, .asyncWrite [1] 7, .asyncWrite [2] 8, .asyncWrite [3] 9, .advance 0,
    .advance 0, .advance 0, .advance 0, .advance 0, .advance 0, .advance 0, .advance 0,
    .run 0 .succeeds, .run 0 .succeeds, .advance 0, .advance 0, .advance 0, .advance 0,
    .completeWrite 0 .success, .completeWrite 0 .success, .completeRead 0 .eof 0,
    .run 0 .succeeds, .asyncWrite [4] 10, .advance 0]

theorem resolvesOnce_settledWritesSchedule :
    ResolvesOnce (visited step Transport.init settledWritesSchedule) := by
  have hexec : exec step Transport.init settledWritesSchedule =
      some ((exec step Transport.init settledWritesSchedule).get (by decide)) := by simp
  exact resolvesOnce_of_endsIdle (isRun_visited hexec) (runMeets_visited hexec (by decide))
    (runMeets_visited hexec (by decide)) (runMeets_visited hexec (by decide))
    (fair_visited hexec (by decide) (by decide))

/-- The device is unplugged while one write is outstanding and one waits behind it;
then everything that was begun ends. -/
def unpluggedWritesSchedule : List Action :=
  [.post (.setWriteHandler (some 1)), .run 0 .succeeds, .post (.openPort defaultBufferConfig),
    .run 0 .succeeds, .asyncWrite [1] 7, .asyncWrite [2] 8, .advance 0, .advance 0, .advance 0,
    .advance 0, .advance 0, .advance 0, .advance 0, .advance 0, .run 0 .succeeds,
    .run 0 .succeeds, .completeRead 0 .eof 0, .completeWrite 0 (.other 125)]

/-- The write handler is told of neither packet. -/
theorem not_resolvesOnce_unpluggedWritesSchedule :
    ∃ run label, IsRun step Transport.init run label ∧ RunMeets KeepsHandler run label ∧
      RunMeets FreshID run label ∧ Fair run label ∧
      (∃ n, scheduled (run n) 7 = 1 ∧ scheduled (run n) 8 = 1 ∧
        ∀ k, n ≤ k → notified (run k) 7 = 0 ∧ notified (run k) 8 = 0) ∧
      ¬ ResolvesOnce run := by
  have hexec : exec step Transport.init unpluggedWritesSchedule =
      some ((exec step Transport.init unpluggedWritesSchedule).get (by decide)) := by simp
  have hlast : ∀ k, unpluggedWritesSchedule.length ≤ k →
      visited step Transport.init unpluggedWritesSchedule k =
        (exec step Transport.init unpluggedWritesSchedule).get (by decide) :=
    fun k hk => visited_of_length_le hexec hk
  refine ⟨visited step Transport.init unpluggedWritesSchedule,
    fun n => unpluggedWritesSchedule[n]?, isRun_visited hexec,
    runMeets_visited hexec (by decide), runMeets_visited hexec (by decide),
    fair_visited hexec (by decide) (by decide),
    ⟨unpluggedWritesSchedule.length, ?_, ?_, fun k hk => ?_⟩, fun hresolves => ?_⟩
  · decide
  · decide
  · rw [hlast k hk]
    decide
  · obtain ⟨m, hm⟩ := hresolves.scheduled unpluggedWritesSchedule.length 7 (by decide)
    have hone := hm (max m unpluggedWritesSchedule.length) (Nat.le_max_left _ _)
    rw [hlast _ (Nat.le_max_right _ _)] at hone
    exact absurd hone (by decide)

end EasyLoRa.WriteResolution
