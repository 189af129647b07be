import EasyLoRa.Sessions
import EasyLoRa.WriteFate

namespace EasyLoRa.WriteOrder

open EasyLoRa.IndexedLists
open EasyLoRa.TransportModel
open EasyLoRa.TransportSystem
open EasyLoRa.TransportOutcomes
open EasyLoRa.TransitionSystem
open EasyLoRa.Sessions
open EasyLoRa.WriteFate

universe u

/-- The payload a step appends to `txDeque`, with the session it does so in. -/
def enqueues (s : Transport) : Action → List (Nat × Write)
  | .run i _ =>
      match s.posted[i]? with
      | some (.write w) => if s.closing || s.stopped then [] else [(s.session, w)]
      | _ => []
  | _ => []

def inSession (session : Nat) (payloads : List (Nat × Write)) : List Write :=
  (payloads.filter fun p => p.1 = session).map Prod.snd

theorem inSession_append (session : Nat) (xs ys : List (Nat × Write)) :
    inSession session (xs ++ ys) = inSession session xs ++ inSession session ys := by
  simp [inSession]

theorem mem_inSession {session : Nat} {payloads : List (Nat × Write)} {w : Write} :
    w ∈ inSession session payloads ↔ (session, w) ∈ payloads := by
  simp [inSession]

/-- The payload a step hands to the stream, with the session it does so in. -/
def hands (s : Transport) : Action → List (Nat × Write)
  | .run i _ =>
      match s.posted[i]? with
      | some (.write w) =>
          if s.closing || s.stopped || s.txDeque ≠ [] then [] else [(s.session, w)]
      | _ => []
  | .completeWrite i ec =>
      match s.writes[i]? with
      | some operation =>
          if Live s operation.generation ∧ ec = .success then
            (s.txDeque.tail.head?.map fun w => (s.session, w)).toList
          else []
      | none => []
  | _ => []

theorem handed_of_step {s t : Transport} {a : Action} (hstep : step s a = some t) :
    handedOver t.events = handedOver s.events ++ hands s a := by
  cases step_outcome hstep with
  | refused => simp [handedOver, hands]
  | scheduled => simp [handedOver, hands]
  | suppressed i outcome request htask => simp [hands, htask]
  | openFailed i outcome config port htask => simp [handedOver, hands, htask]
  | opened i outcome config htask => simp [handedOver, hands, htask]
  | closed i outcome htask => simp [handedOver, hands, htask]
  | handlersSet i outcome request fh feh reh wh htask => simp [hands, htask]
  | cancelled i outcome w htask hdown =>
      rw [handedOver_append, handedOver_calls _ rfl]
      rcases hdown with h | h <;> simp [hands, htask, h]
  | queued i outcome w htask hclosing hstopped hbusy => simp [hands, htask, hbusy]
  | started i outcome w htask hclosing hstopped hidle =>
      simp [handedOver, hands, htask, hclosing, hstopped, hidle]
  | delivered =>
      rw [handedOver_append, handedOver_calls _ rfl]
      rfl
  | readRecovered =>
      rw [handedOver_append, handedOver_calls _ rfl]
      rfl
  | readFailed i ec =>
      rw [handedOver_append, handedOver_append, handedOver_fatalCalls]
      simp [handedOver, hands]
  | writeIgnored i ec operation hwrite hstale => simp [hands, hwrite, hstale]
  | writtenLast i operation w hwrite hlive hqueue =>
      rw [handedOver_append, handedOver_calls _ rfl]
      simp [hands, hwrite, hqueue]
  | writtenNext i operation w next rest hwrite hlive hqueue =>
      rw [handedOver_append, handedOver_append, handedOver_calls _ rfl]
      simp [hands, hwrite, hlive, hqueue, handedOver]
  | writeRecovered i operation failure hwrite hlive hfailure hnone =>
      rw [handedOver_append, handedOver_append, handedOver_calls _ rfl,
        handedOver_failure hfailure hnone]
      simp [hands, hwrite]
  | writeFailed i ec operation failure hwrite hlive hsuccess hfatal hfailure hnone =>
      rw [handedOver_append, handedOver_append, handedOver_append, handedOver_fatalCalls,
        handedOver_failure hfailure hnone]
      simp [handedOver, hands, hwrite, hsuccess]
  | undefined i ec operation hwrite hlive hqueue => simp [hands, hwrite, hqueue]
  | _ => simp [hands]

/-- The payloads of the open session: handed over, then waiting behind the front, in
the order they were enqueued. -/
structure Conserved (s : Transport) (enqueued : List (Nat × Write)) : Prop where
  past : ∀ p ∈ enqueued, p.1 ≤ s.session
  handed : ∀ session,
    inSession session (handedOver s.events) <+: inSession session enqueued
  waiting : s.stopped = false →
    inSession s.session (handedOver s.events) ++ s.txDeque.tail = inSession s.session enqueued

theorem conserved_unhanded {s t : Transport} {a : Action} {enqueued : List (Nat × Write)}
    (hs : Conserved s enqueued) (hstep : step s a = some t)
    (hquiet : enqueues s a = [] ∧ hands s a = []) (hsession : t.session = s.session)
    (hwaiting : t.stopped = false → s.stopped = false ∧ t.txDeque.tail = s.txDeque.tail) :
    Conserved t (enqueued ++ enqueues s a) := by
  have hhanded := handed_of_step hstep
  rw [hquiet.2, List.append_nil] at hhanded
  rw [hquiet.1, List.append_nil]
  refine ⟨hsession ▸ hs.past, hhanded ▸ hs.handed, fun hrunning => ?_⟩
  obtain ⟨hstopped, hqueue⟩ := hwaiting hrunning
  rw [hsession, hhanded, hqueue]
  exact hs.waiting hstopped

theorem conserved_grown {s t : Transport} {enqueued : List (Nat × Write)} {w : Write}
    (hs : Conserved s enqueued) (hstopped : s.stopped = false) (hsession : t.session = s.session)
    (hhanded : inSession s.session (handedOver t.events) ++ t.txDeque.tail =
      inSession s.session (handedOver s.events) ++ s.txDeque.tail ++ [w])
    (hothers : ∀ session, session ≠ s.session →
      inSession session (handedOver t.events) = inSession session (handedOver s.events)) :
    Conserved t (enqueued ++ [(s.session, w)]) := by
  have hwaiting : inSession s.session (handedOver t.events) ++ t.txDeque.tail =
      inSession s.session (enqueued ++ [(s.session, w)]) := by
    rw [hhanded, hs.waiting hstopped, inSession_append]
    simp [inSession]
  refine ⟨?_, fun session => ?_, fun _ => hsession ▸ hwaiting⟩
  · simpa [or_imp, forall_and, hsession] using hs.past
  · by_cases h : session = s.session
    · rw [h, ← hwaiting]
      exact List.prefix_append _ _
    · rw [hothers session h, inSession_append]
      exact (hs.handed session).trans (List.prefix_append _ _)

theorem inSession_singleton_of_ne {session k : Nat} (h : session ≠ k) (w : Write) :
    inSession session [(k, w)] = [] := by
  simp [inSession, h.symm]

theorem conserved_step {s t : Transport} {a : Action} {enqueued : List (Nat × Write)}
    (hs : Conserved s enqueued) (hstep : step s a = some t) :
    Conserved t (enqueued ++ enqueues s a) := by
  have hhanded := handed_of_step hstep
  have hquiet := conserved_unhanded hs hstep
  cases step_outcome hstep with
  | suppressed i outcome request htask =>
      exact hquiet (by simp [enqueues, hands, htask]) rfl fun h => ⟨h, rfl⟩
  | openFailed i outcome config port htask =>
      exact hquiet (by simp [enqueues, hands, htask]) rfl (by simp)
  | opened i outcome config htask =>
      have henqueues : enqueues s (.run i outcome) = [] := by simp [enqueues, htask]
      have hhands : hands s (.run i outcome) = [] := by simp [hands, htask]
      rw [hhands, List.append_nil] at hhanded
      rw [henqueues, List.append_nil]
      have hnone : inSession (s.session + 1) enqueued = [] := by
        refine List.eq_nil_iff_forall_not_mem.mpr fun w hw => ?_
        have hle := hs.past _ (mem_inSession.mp hw)
        exact absurd hle (Nat.not_succ_le_self _)
      refine ⟨fun p hp => Nat.le_succ_of_le (hs.past p hp), hhanded ▸ hs.handed, fun _ => ?_⟩
      have hempty := hs.handed (s.session + 1)
      rw [hnone, List.prefix_nil] at hempty
      rw [hhanded, hnone, hempty]
      rfl
  | closed i outcome htask =>
      exact hquiet (by simp [enqueues, hands, htask]) rfl (by simp)
  | handlersSet i outcome request fh feh reh wh htask =>
      exact hquiet (by simp [enqueues, hands, htask]) rfl fun h => ⟨h, rfl⟩
  | cancelled i outcome w htask hdown =>
      refine hquiet ?_ rfl fun h => ⟨h, rfl⟩
      rcases hdown with h | h <;> simp [enqueues, hands, htask, h]
  | queued i outcome w htask hclosing hstopped hbusy =>
      obtain ⟨front, rest, hqueue⟩ := List.exists_cons_of_ne_nil hbusy
      have henqueues : enqueues s (.run i outcome) = [(s.session, w)] := by
        simp [enqueues, htask, hclosing, hstopped]
      rw [henqueues]
      exact conserved_grown hs hstopped rfl (by simp [hqueue]) fun _ _ => rfl
  | started i outcome w htask hclosing hstopped hidle =>
      have henqueues : enqueues s (.run i outcome) = [(s.session, w)] := by
        simp [enqueues, htask, hclosing, hstopped]
      have hhands : hands s (.run i outcome) = [(s.session, w)] := by
        simp [hands, htask, hclosing, hstopped, hidle]
      rw [hhands] at hhanded
      rw [henqueues]
      refine conserved_grown hs hstopped rfl ?_ fun session h => ?_
      · rw [hhanded, inSession_append, hidle]
        simp [inSession]
      · rw [hhanded, inSession_append, inSession_singleton_of_ne h, List.append_nil]
  | readFailed => exact hquiet ⟨rfl, rfl⟩ rfl (by simp)
  | writeIgnored i ec operation hwrite hstale =>
      exact hquiet (by simp [enqueues, hands, hwrite, hstale]) rfl fun h => ⟨h, rfl⟩
  | writtenLast i operation w hwrite hlive hqueue =>
      exact hquiet (by simp [enqueues, hands, hwrite, hqueue]) rfl
        fun h => ⟨h, by simp [hqueue]⟩
  | writtenNext i operation w next rest hwrite hlive hqueue =>
      have henqueues : enqueues s (.completeWrite i .success) = [] := rfl
      have hhands : hands s (.completeWrite i .success) = [(s.session, next)] := by
        simp [hands, hwrite, hlive, hqueue]
      rw [hhands] at hhanded
      rw [henqueues, List.append_nil]
      have hwaiting := hs.waiting hlive.2.1
      have hfront : inSession s.session [(s.session, next)] ++ rest = s.txDeque.tail := by
        simp [inSession, hqueue]
      refine ⟨hs.past, fun session => ?_, fun _ => ?_⟩
      · rw [hhanded, inSession_append]
        by_cases h : session = s.session
        · rw [h, ← hwaiting, ← hfront, ← List.append_assoc]
          exact List.prefix_append _ _
        · rw [inSession_singleton_of_ne h, List.append_nil]
          exact hs.handed session
      · rw [hhanded, inSession_append, List.append_assoc]
        exact hfront ▸ hwaiting
  | writeRecovered i operation failure hwrite =>
      exact hquiet (by simp [enqueues, hands, hwrite]) rfl fun h => ⟨h, rfl⟩
  | writeFailed i ec operation failure hwrite hlive hsuccess =>
      exact hquiet (by simp [enqueues, hands, hwrite, hsuccess]) rfl (by simp)
  | undefined i ec operation hwrite hlive hqueue =>
      exact hquiet (by simp [enqueues, hands, hwrite, hqueue]) rfl fun h => ⟨h, rfl⟩
  | _ => exact hquiet ⟨rfl, rfl⟩ rfl fun h => ⟨h, rfl⟩

theorem conserved_init : Conserved Transport.init [] :=
  ⟨by simp, fun _ => List.prefix_rfl, by simp [Transport.init]⟩

def postedWrites (tasks : List Task) : List Write :=
  tasks.filterMap fun
    | .write w => some w
    | .request _ => none

/-- The calls whose payloads have been handed over, wait in the queue or wait on the
strand, in that order. -/
def line (s : Transport) : List Nat :=
  (handedOver s.events).map (fun p => p.2.call) ++ s.txDeque.tail.map Write.call ++
    (postedWrites s.posted).map Write.call

def inProgress (s : Transport) : List Nat := s.callers.map fun caller => caller.write.call

theorem inProgress_set {s : Transport} {i : Nat} {caller moved : Caller}
    (hcaller : s.callers[i]? = some caller) (hmoved : moved.write.call = caller.write.call) :
    (s.callers.set i moved).map (fun caller => caller.write.call) = inProgress s := by
  obtain ⟨hi, rfl⟩ := List.getElem?_eq_some_iff.mp hcaller
  rw [List.map_set, hmoved]
  apply List.ext_getElem (by simp [inProgress])
  intro n hn hn'
  rw [List.getElem_set]
  split
  · next h => simp [inProgress, h]
  · simp [inProgress]

section Threads

variable {τ : Type u} (thread : Nat → τ)

/-- What makes calls come in order: those of one thread follow their numbers. -/
def Precedes (a b : Nat) : Prop := thread a = thread b → a < b

/-- Tasks run in the order posted, a thread makes one call at a time, and no write
completes with the recoverable error. -/
def Orderly (s : Transport) : Action → Prop
  | .asyncWrite _ _ => ∀ call ∈ inProgress s, thread call ≠ thread s.called.length
  | .run i _ => i = 0
  | .completeWrite _ ec => ec ≠ .notFound
  | _ => True

instance [DecidableEq τ] (s : Transport) (a : Action) : Decidable (Orderly thread s a) := by
  induction a using TransportSystem.Action.casesOn <;> dsimp only [Orderly] <;> infer_instance

structure InLine (s : Transport) : Prop where
  ordered : (line s).Pairwise (Precedes thread)
  follow : ∀ a ∈ line s, ∀ b ∈ inProgress s, Precedes thread a b
  single : (inProgress s).Pairwise fun a b => thread a ≠ thread b
  numbered : ∀ a ∈ line s ++ inProgress s, a < s.called.length

variable {thread}

theorem inLine_of_sublist {s t : Transport} (hs : InLine thread s)
    (hline : (line t).Sublist (line s)) (hprogress : (inProgress t).Sublist (inProgress s))
    (hcalled : t.called = s.called) : InLine thread t := by
  constructor
  · exact hs.ordered.sublist hline
  · exact fun a ha b hb => hs.follow a (hline.subset ha) b (hprogress.subset hb)
  · exact hs.single.sublist hprogress
  · exact fun a ha => hcalled ▸ hs.numbered a ((hline.append hprogress).subset ha)

theorem inLine_moved {s t : Transport} {i : Nat} {caller moved : Caller} (hs : InLine thread s)
    (hcaller : s.callers[i]? = some caller) (hmoved : moved.write.call = caller.write.call)
    (hcallers : t.callers = s.callers.set i moved) (hline : line t = line s)
    (hcalled : t.called = s.called) : InLine thread t := by
  have hprogress : inProgress t = inProgress s := by
    rw [inProgress, hcallers, inProgress_set hcaller hmoved]
  exact inLine_of_sublist hs (hline ▸ .refl _) (hprogress ▸ .refl _) hcalled

theorem inProgress_cons {s : Transport} {i : Nat} {caller : Caller}
    (hcaller : s.callers[i]? = some caller) :
    (caller.write.call :: (s.callers.eraseIdx i).map fun caller => caller.write.call).Perm
      (inProgress s) := by
  simpa [inProgress] using ((perm_cons_eraseIdx hcaller).map fun caller => caller.write.call).symm

/-- The call that posts its task goes to the end of the line. -/
theorem inLine_scheduled {s t : Transport} {i : Nat} {caller : Caller} (hs : InLine thread s)
    (hcaller : s.callers[i]? = some caller) (hline : line t = line s ++ [caller.write.call])
    (hprogress : inProgress t = (s.callers.eraseIdx i).map fun caller => caller.write.call)
    (hcalled : t.called = s.called) : InLine thread t := by
  have hperm := inProgress_cons hcaller
  have hmem : caller.write.call ∈ inProgress s := hperm.subset (by simp)
  have hsingle : (caller.write.call :: inProgress t).Pairwise fun a b => thread a ≠ thread b :=
    hprogress ▸ (hperm.pairwise_iff fun h => Ne.symm h).mpr hs.single
  have hrest : ∀ b ∈ inProgress t, b ∈ inProgress s :=
    fun b hb => hperm.subset (List.mem_cons_of_mem _ (hprogress ▸ hb))
  constructor
  · rw [hline]
    refine List.pairwise_append.mpr ⟨hs.ordered, List.pairwise_singleton _ _, ?_⟩
    simpa using fun a ha => hs.follow a ha _ hmem
  · intro a ha b hb
    rw [hline, List.mem_append, List.mem_singleton] at ha
    rcases ha with ha | rfl
    · exact hs.follow a ha b (hrest b hb)
    · exact fun h => absurd h ((List.pairwise_cons.mp hsingle).1 b hb)
  · exact (List.pairwise_cons.mp hsingle).2
  · intro a ha
    rw [hcalled]
    apply hs.numbered
    rw [hline, List.append_assoc, List.mem_append, List.singleton_append, List.mem_cons] at ha
    rw [List.mem_append]
    rcases ha with ha | rfl | ha
    · exact Or.inl ha
    · exact Or.inr hmem
    · exact Or.inr (hrest a ha)

theorem inLine_called {s t : Transport} (hs : InLine thread s)
    (hown : ∀ call ∈ inProgress s, thread call ≠ thread s.called.length) (hline : line t = line s)
    (hprogress : inProgress t = inProgress s ++ [s.called.length])
    (hcalled : t.called.length = s.called.length + 1) : InLine thread t := by
  constructor
  · exact hline ▸ hs.ordered
  · intro a ha b hb
    rw [hline] at ha
    rw [hprogress, List.mem_append, List.mem_singleton] at hb
    rcases hb with hb | rfl
    · exact hs.follow a ha b hb
    · exact fun _ => hs.numbered a (List.mem_append_left _ ha)
  · rw [hprogress]
    refine List.pairwise_append.mpr ⟨hs.single, List.pairwise_singleton _ _, ?_⟩
    simpa using hown
  · intro a ha
    rw [hline, hprogress, ← List.append_assoc, List.mem_append, List.mem_singleton] at ha
    rw [hcalled]
    rcases ha with ha | rfl
    · exact Nat.lt_succ_of_lt (hs.numbered a ha)
    · exact Nat.lt_succ_self _

theorem line_of_head {s : Transport} {task : Task} (htask : s.posted[0]? = some task) :
    line s = (handedOver s.events).map (fun p => p.2.call) ++ s.txDeque.tail.map Write.call ++
      (postedWrites (task :: s.posted.eraseIdx 0)).map Write.call := by
  rw [← cons_eraseIdx_zero htask, line]

theorem inLine_step {s t : Transport} {a : Action} (hs : InLine thread s)
    (horderly : Orderly thread s a) (hstep : step s a = some t) : InLine thread t := by
  have hhanded := handed_of_step hstep
  cases step_outcome hstep with
  | called toWrite packetID =>
      exact inLine_called hs horderly rfl (by simp [inProgress]) (by simp)
  | refused i =>
      refine inLine_of_sublist hs ?_ ((List.eraseIdx_sublist _ i).map _) rfl
      rw [line, hhanded]
      simp [line, hands]
  | foundOpen i caller hcaller =>
      exact inLine_moved hs hcaller (by rfl) rfl rfl rfl
  | fitted i caller hcaller =>
      exact inLine_moved hs hcaller (by rfl) rfl rfl rfl
  | reserved i caller hcaller =>
      exact inLine_moved hs hcaller (by rfl) rfl rfl rfl
  | scheduled i caller hcaller =>
      refine inLine_scheduled hs hcaller ?_ rfl rfl
      rw [line, hhanded]
      simp [line, hands, postedWrites]
  | requested request =>
      exact inLine_of_sublist hs (by simp [line, postedWrites]) (.refl _) rfl
  | suppressed i outcome request htask =>
      obtain rfl : i = 0 := horderly
      refine inLine_of_sublist hs ?_ (.refl _) rfl
      rw [line_of_head htask]
      simp [line, postedWrites]
  | openFailed i outcome config port htask =>
      obtain rfl : i = 0 := horderly
      refine inLine_of_sublist hs ?_ (.refl _) rfl
      rw [line_of_head htask, line, hhanded]
      simp [hands, htask, postedWrites]
  | opened i outcome config htask =>
      obtain rfl : i = 0 := horderly
      refine inLine_of_sublist hs ?_ (.refl _) rfl
      rw [line_of_head htask, line, hhanded]
      simp [hands, htask, postedWrites]
  | closed i outcome htask =>
      obtain rfl : i = 0 := horderly
      refine inLine_of_sublist hs ?_ (.refl _) rfl
      rw [line_of_head htask, line, hhanded]
      simp [hands, htask, postedWrites]
  | handlersSet i outcome request fh feh reh wh htask =>
      obtain rfl : i = 0 := horderly
      refine inLine_of_sublist hs ?_ (.refl _) rfl
      rw [line_of_head htask]
      simp [line, postedWrites]
  | cancelled i outcome w htask hdown =>
      obtain rfl : i = 0 := horderly
      have hhands : hands s (.run 0 outcome) = [] := by
        rcases hdown with h | h <;> simp [hands, htask, h]
      refine inLine_of_sublist hs ?_ (.refl _) rfl
      rw [line_of_head htask, line, hhanded, hhands]
      simp [postedWrites]
  | queued i outcome w htask hclosing hstopped hbusy =>
      obtain rfl : i = 0 := horderly
      obtain ⟨front, rest, hqueue⟩ := List.exists_cons_of_ne_nil hbusy
      refine inLine_of_sublist hs ?_ (.refl _) rfl
      rw [line_of_head htask]
      simp [line, hqueue, postedWrites]
  | started i outcome w htask hclosing hstopped hidle =>
      obtain rfl : i = 0 := horderly
      refine inLine_of_sublist hs ?_ (.refl _) rfl
      rw [line_of_head htask, line, hhanded]
      simp [hands, htask, hclosing, hstopped, hidle, postedWrites]
  | writtenNext i operation w next rest hwrite hlive hqueue =>
      refine inLine_of_sublist hs ?_ (.refl _) rfl
      rw [line, hhanded]
      simp [line, hands, hwrite, hlive, hqueue]
  | delivered =>
      exact inLine_of_sublist hs (by rw [line, hhanded]; simp [line, hands]) (.refl _) rfl
  | readRecovered =>
      exact inLine_of_sublist hs (by rw [line, hhanded]; simp [line, hands]) (.refl _) rfl
  | readFailed =>
      exact inLine_of_sublist hs (by rw [line, hhanded]; simp [line, hands]) (.refl _) rfl
  | writtenLast i operation w hwrite hlive hqueue =>
      refine inLine_of_sublist hs ?_ (.refl _) rfl
      rw [line, hhanded]
      simp [line, hands, hwrite, hqueue]
  | writeRecovered => exact absurd rfl horderly
  | writeFailed i ec operation failure hwrite hlive hsuccess =>
      refine inLine_of_sublist hs ?_ (.refl _) rfl
      rw [line, hhanded]
      simp [line, hands, hwrite, hsuccess]
  | _ => exact inLine_of_sublist hs (.refl _) (.refl _) rfl

theorem inLine_init : InLine thread Transport.init := by
  constructor <;> simp [line, inProgress, Transport.init, postedWrites, handedOver]

/-- A payload that waits in the queue or on the strand has not been handed over. -/
theorem ne_of_handed {s : Transport} (hs : InLine thread s) {p : Nat × Write}
    (hp : p ∈ handedOver s.events) {w : Write}
    (hw : w ∈ s.txDeque.tail ∨ w ∈ postedWrites s.posted) : p.2 ≠ w := by
  rintro rfl
  have hline := hs.ordered
  rw [line, List.append_assoc, List.pairwise_append] at hline
  have hwaits : p.2.call ∈ s.txDeque.tail.map Write.call ++
      (postedWrites s.posted).map Write.call := by
    rw [List.mem_append]
    exact hw.imp (List.mem_map_of_mem (f := Write.call)) (List.mem_map_of_mem (f := Write.call))
  have hbefore := hline.2.2 p.2.call (List.mem_map_of_mem (f := fun p => p.2.call) hp) _ hwaits
  exact Nat.lt_irrefl _ (hbefore rfl)

end Threads

end EasyLoRa.WriteOrder
