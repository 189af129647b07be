import EasyLoRa.StaleCompletions
import EasyLoRa.WriteOrder

namespace EasyLoRa.WriteIdentity

open EasyLoRa.IndexedLists
open EasyLoRa.TransportModel
open EasyLoRa.TransportSystem
open EasyLoRa.TransportOutcomes
open EasyLoRa.TransitionSystem
open EasyLoRa.Sessions
open EasyLoRa.StaleCompletions
open EasyLoRa.WriteFate
open EasyLoRa.WriteOrder

universe u

/-- No session begins on the generation of a write that is still outstanding. -/
def FreshGeneration (s : Transport) : Action → Prop
  | .run i outcome =>
      succeeding s i outcome = true →
        ∀ operation ∈ s.writes, operation.generation ≠ nextGeneration s.generation
  | _ => True

instance (s : Transport) (a : Action) : Decidable (FreshGeneration s a) := by
  induction a using TransportSystem.Action.casesOn <;> dsimp only [FreshGeneration] <;> infer_instance

section Threads

variable {τ : Type u} {thread : Nat → τ}

/-- The outstanding writes of the open session: at most one, and it was given the
front of the queue. -/
structure Identified (s : Transport) : Prop where
  handed : ∀ operation ∈ s.writes, ∃ session, (session, operation.element) ∈ handedOver s.events
  fresh : s.stopped = false → ∀ operation ∈ s.writes,
    (s.session, operation.element) ∈ handedOver s.events → operation.generation = s.generation
  front : s.stopped = false → ∀ operation ∈ s.writes, operation.generation = s.generation →
    s.txDeque.head? = some operation.element
  single : s.stopped = false →
    s.writes.countP (fun operation => operation.generation = s.generation) ≤ 1

theorem identified_of_sublist {s t : Transport} (hs : Identified s)
    (hwrites : t.writes.Sublist s.writes) (hhanded : handedOver t.events = handedOver s.events)
    (hsession : t.session = s.session)
    (hrunning : t.stopped = false → s.stopped = false ∧ t.generation = s.generation ∧
      (t.txDeque.head? = s.txDeque.head? ∨
        ∀ operation ∈ t.writes, operation.generation ≠ s.generation)) : Identified t := by
  constructor
  · exact fun operation h => hhanded ▸ hs.handed operation (hwrites.subset h)
  · intro h
    obtain ⟨hstopped, hgeneration, -⟩ := hrunning h
    rw [hsession, hhanded, hgeneration]
    exact fun operation h => hs.fresh hstopped operation (hwrites.subset h)
  · intro h operation hmem hlive
    obtain ⟨hstopped, hgeneration, hfront⟩ := hrunning h
    rw [hgeneration] at hlive
    rcases hfront with hfront | hnone
    · exact hfront ▸ hs.front hstopped operation (hwrites.subset hmem) hlive
    · exact absurd hlive (hnone operation hmem)
  · intro h
    obtain ⟨hstopped, hgeneration, -⟩ := hrunning h
    rw [hgeneration]
    exact Nat.le_trans hwrites.countP_le (hs.single hstopped)

theorem alone_of_completed {s : Transport} {i : Nat} {operation : WriteOperation}
    (hs : Identified s) (hwrite : s.writes[i]? = some operation)
    (hlive : Live s operation.generation) :
    ∀ other ∈ s.writes.eraseIdx i, other.generation ≠ s.generation := by
  have hsingle := hs.single hlive.2.1
  rw [countP_eraseIdx hwrite, hlive.2.2] at hsingle
  simp only [decide_true, Bool.toNat_true] at hsingle
  have hnone := List.countP_eq_zero.mp (Nat.le_zero.mp (Nat.le_of_succ_le_succ hsingle))
  simpa using hnone

/-- Handing a payload over while no write of the session is outstanding. -/
theorem identified_handing {s t : Transport} {rest : List WriteOperation} {w : Write}
    (hs : Identified s) (hstopped : s.stopped = false) (hrest : rest.Sublist s.writes)
    (hnone : ∀ operation ∈ rest, operation.generation ≠ s.generation)
    (hnew : ∀ p ∈ handedOver s.events, p.2 ≠ w)
    (hwrites : t.writes = rest ++ [⟨s.generation, w⟩])
    (hhanded : handedOver t.events = handedOver s.events ++ [(s.session, w)])
    (hsession : t.session = s.session) (hgeneration : t.generation = s.generation)
    (hfront : t.txDeque.head? = some w) : Identified t := by
  have hcases : ∀ operation ∈ t.writes, operation ∈ rest ∨ operation = ⟨s.generation, w⟩ := by
    intro operation hmem
    rw [hwrites] at hmem
    exact (List.mem_append.mp hmem).imp_right List.mem_singleton.mp
  constructor
  · intro operation hmem
    rw [hhanded]
    rcases hcases operation hmem with h | rfl
    · obtain ⟨session, hearlier⟩ := hs.handed operation (hrest.subset h)
      exact ⟨session, List.mem_append_left _ hearlier⟩
    · exact ⟨s.session, by simp⟩
  · intro hrunning operation hmem hthis
    rw [hgeneration]
    rcases hcases operation hmem with h | rfl
    · obtain ⟨session, hearlier⟩ := hs.handed operation (hrest.subset h)
      rw [hhanded, hsession, List.mem_append, List.mem_singleton, Prod.mk.injEq] at hthis
      rcases hthis with hthis | ⟨-, heq⟩
      · exact hs.fresh hstopped operation (hrest.subset h) hthis
      · exact absurd heq (hnew _ hearlier)
    · rfl
  · intro hrunning operation hmem hlive
    rcases hcases operation hmem with h | rfl
    · exact absurd (hgeneration ▸ hlive) (hnone operation h)
    · exact hfront
  · intro hrunning
    have hzero : rest.countP (fun operation => operation.generation = s.generation) = 0 :=
      List.countP_eq_zero.mpr (by simpa using hnone)
    rw [hwrites, hgeneration, countP_concat, hzero]
    simp

theorem handed_past {s : Transport} {enqueued : List (Nat × Write)}
    (hs : Conserved s enqueued) : ∀ p ∈ handedOver s.events, p.1 ≤ s.session :=
  fun p hp => hs.past p (mem_inSession.mp ((hs.handed p.1).subset (mem_inSession.mpr hp)))

theorem idle_of_empty {s : Transport} (hs : Identified s) (hstopped : s.stopped = false)
    (hidle : s.txDeque = []) : ∀ operation ∈ s.writes, operation.generation ≠ s.generation := by
  intro operation hmem hlive
  simpa [hidle] using hs.front hstopped operation hmem hlive

theorem identified_step {s t : Transport} {a : Action} {enqueued : List (Nat × Write)}
    (hconserved : Conserved s enqueued) (hline : InLine thread s) (hs : Identified s)
    (horderly : Orderly thread s a) (hfresh : FreshGeneration s a)
    (hstep : step s a = some t) : Identified t := by
  have hhanded := handed_of_step hstep
  cases step_outcome hstep with
  | openFailed i outcome config port htask =>
      exact identified_of_sublist hs (.refl _) (by simpa [hands, htask] using hhanded) rfl (by simp)
  | opened i outcome config htask hclosing hport houtcome =>
      have hhanded : handedOver (s.events ++ [.streamOpen]) = handedOver s.events := by
        simpa [hands, htask] using hhanded
      have hfresh := hfresh (by simp [succeeding, opening, htask, hclosing, hport, houtcome])
      constructor
      · exact fun operation hmem => hhanded ▸ hs.handed operation hmem
      · intro _ operation _ hthis
        have hle := handed_past hconserved _ (hhanded ▸ hthis)
        exact absurd hle (Nat.not_succ_le_self _)
      · exact fun _ operation hmem hlive => absurd hlive (hfresh operation hmem)
      · intro _
        have hzero := List.countP_eq_zero.mpr (fun operation hmem => by
          simpa using hfresh operation hmem :
          ∀ operation ∈ s.writes,
            ¬ decide (operation.generation = nextGeneration s.generation) = true)
        exact Nat.le_trans (Nat.le_of_eq hzero) (Nat.zero_le 1)
  | closed i outcome htask =>
      exact identified_of_sublist hs (.refl _) (by simpa [hands, htask] using hhanded) rfl (by simp)
  | queued i outcome w htask hclosing hstopped hbusy =>
      obtain ⟨front, rest, hqueue⟩ := List.exists_cons_of_ne_nil hbusy
      exact identified_of_sublist hs (.refl _) rfl rfl
        fun h => ⟨h, rfl, Or.inl (by simp [hqueue])⟩
  | started i outcome w htask hclosing hstopped hidle =>
      obtain rfl : i = 0 := horderly
      have hwaits : w ∈ postedWrites s.posted := by
        rw [cons_eraseIdx_zero htask]
        simp [postedWrites]
      refine identified_handing hs hstopped (.refl _) (idle_of_empty hs hstopped hidle)
        (fun p hp => ne_of_handed hline hp (Or.inr hwaits)) rfl ?_ rfl rfl rfl
      simpa [hands, htask, hclosing, hstopped, hidle] using hhanded
  | readFailed =>
      exact identified_of_sublist hs (.refl _) (by simpa [hands] using hhanded) rfl (by simp)
  | writeIgnored i ec operation hwrite hstale =>
      exact identified_of_sublist hs (List.eraseIdx_sublist _ i) rfl rfl
        fun h => ⟨h, rfl, Or.inl rfl⟩
  | writtenLast i operation w hwrite hlive hqueue =>
      refine identified_of_sublist hs (List.eraseIdx_sublist _ i) ?_ rfl
        fun h => ⟨h, rfl, Or.inr (alone_of_completed hs hwrite hlive)⟩
      simpa [hands, hwrite, hqueue] using hhanded
  | writtenNext i operation w next rest hwrite hlive hqueue =>
      have hwaits : next ∈ s.txDeque.tail := by simp [hqueue]
      refine identified_handing hs hlive.2.1 (List.eraseIdx_sublist _ i)
        (alone_of_completed hs hwrite hlive)
        (fun p hp => ne_of_handed hline hp (Or.inl hwaits)) rfl ?_ rfl rfl rfl
      simpa [hands, hwrite, hlive, hqueue] using hhanded
  | writeRecovered => exact absurd rfl horderly
  | writeFailed i ec operation failure hwrite hlive hsuccess =>
      refine identified_of_sublist hs (List.eraseIdx_sublist _ i) ?_ rfl (by simp)
      simpa [hands, hwrite, hsuccess] using hhanded
  | undefined i ec operation hwrite =>
      exact identified_of_sublist hs (List.eraseIdx_sublist _ i) rfl rfl
        fun h => ⟨h, rfl, Or.inl rfl⟩
  | refused =>
      exact identified_of_sublist hs (.refl _) (by simpa [hands] using hhanded) rfl
        fun h => ⟨h, rfl, Or.inl rfl⟩
  | scheduled =>
      exact identified_of_sublist hs (.refl _) (by simpa [hands] using hhanded) rfl
        fun h => ⟨h, rfl, Or.inl rfl⟩
  | cancelled i outcome w htask hdown =>
      refine identified_of_sublist hs (.refl _) ?_ rfl fun h => ⟨h, rfl, Or.inl rfl⟩
      rw [handedOver_append, handedOver_calls _ rfl, List.append_nil]
  | delivered =>
      exact identified_of_sublist hs (.refl _) (by simpa [hands] using hhanded) rfl
        fun h => ⟨h, rfl, Or.inl rfl⟩
  | readRecovered =>
      exact identified_of_sublist hs (.refl _) (by simpa [hands] using hhanded) rfl
        fun h => ⟨h, rfl, Or.inl rfl⟩
  | _ => exact identified_of_sublist hs (.refl _) rfl rfl fun h => ⟨h, rfl, Or.inl rfl⟩

theorem identified_init : Identified Transport.init := by
  constructor <;> simp [Transport.init]

/-- A payload that is handed over becomes the front of the queue of an open port. -/
theorem front_of_hands {s t : Transport} {a : Action} {p : Nat × Write}
    (hfirst : ∀ i outcome, a = .run i outcome → i = 0) (hp : p ∈ hands s a)
    (hstep : step s a = some t) :
    p.1 = t.session ∧ t.stopped = false ∧ t.txDeque.head? = some p.2 ∧
      (p.2 ∈ s.txDeque.tail ∨ p.2 ∈ postedWrites s.posted) := by
  cases step_outcome hstep with
  | suppressed i outcome request htask => simp [hands, htask] at hp
  | openFailed i outcome config port htask => simp [hands, htask] at hp
  | opened i outcome config htask => simp [hands, htask] at hp
  | closed i outcome htask => simp [hands, htask] at hp
  | handlersSet i outcome request fh feh reh wh htask => simp [hands, htask] at hp
  | cancelled i outcome w htask hdown =>
      rcases hdown with h | h <;> simp [hands, htask, h] at hp
  | queued i outcome w htask hclosing hstopped hbusy => simp [hands, htask, hbusy] at hp
  | started i outcome w htask hclosing hstopped hidle =>
      obtain rfl := hfirst i outcome rfl
      obtain rfl : p = (s.session, w) := by
        simpa [hands, htask, hclosing, hstopped, hidle] using hp
      refine ⟨rfl, hstopped, rfl, Or.inr ?_⟩
      rw [cons_eraseIdx_zero htask]
      simp [postedWrites]
  | writeIgnored i ec operation hwrite hstale => simp [hands, hwrite, hstale] at hp
  | writtenLast i operation w hwrite hlive hqueue => simp [hands, hwrite, hqueue] at hp
  | writtenNext i operation w next rest hwrite hlive hqueue =>
      obtain rfl : p = (s.session, next) := by simpa [hands, hwrite, hlive, hqueue] using hp
      exact ⟨rfl, hlive.2.1, rfl, Or.inl (by simp [hqueue])⟩
  | writeRecovered i operation failure hwrite => simp [hands, hwrite] at hp
  | writeFailed i ec operation failure hwrite hlive hsuccess =>
      simp [hands, hwrite, hsuccess] at hp
  | undefined i ec operation hwrite hlive hqueue => simp [hands, hwrite, hqueue] at hp
  | _ => simp [hands] at hp

def newEvents (s t : Transport) : List Event := t.events.drop s.events.length

theorem newEvents_of_append {s t : Transport} {more : List Event}
    (h : t.events = s.events ++ more) : newEvents s t = more := by
  rw [newEvents, h, List.drop_left]

theorem events_of_step {s t : Transport} {a : Action} (hstep : step s a = some t) :
    t.events = s.events ++ newEvents s t := by
  obtain ⟨more, hmore⟩ := events_step hstep
  rw [newEvents_of_append hmore.symm, hmore]

theorem handed_newEvents {s t : Transport} {a : Action} (hstep : step s a = some t) :
    handedOver (newEvents s t) = hands s a := by
  have hhanded := handed_of_step hstep
  rw [events_of_step hstep, handedOver_append] at hhanded
  exact List.append_cancel_left hhanded

/-- A write that is reported as done or failed is the one whose operation completed. -/
theorem result_of_step {s t : Transport} {a : Action} (hs : Identified s)
    (hknown : ∀ i ec, a = .completeWrite i ec → ec ≠ .notFound) (hstep : step s a = some t)
    {result : WriteResult} {packetID : Nat}
    (hmem : .writeResult result packetID ∈ newEvents s t) (hresult : result ≠ .cancelled) :
    ∃ i ec operation, a = .completeWrite i ec ∧ s.writes[i]? = some operation ∧
      operation.element.packetID = packetID ∧ (result = .written ↔ ec = .success) := by
  have hfront : ∀ (i : Nat) (operation : WriteOperation), s.writes[i]? = some operation →
      Live s operation.generation → s.txDeque.head? = some operation.element :=
    fun i operation hwrite hlive =>
      hs.front hlive.2.1 operation (List.mem_of_getElem? hwrite) hlive.2.2
  cases step_outcome hstep with
  | cancelled i outcome w =>
      rw [newEvents_of_append rfl] at hmem
      obtain ⟨rfl, -⟩ := Event.writeResult.inj (eq_of_mem_calls hmem)
      exact absurd rfl hresult
  | delivered =>
      rw [newEvents_of_append rfl] at hmem
      cases eq_of_mem_calls hmem
  | readRecovered =>
      rw [newEvents_of_append rfl] at hmem
      cases eq_of_mem_calls hmem
  | readFailed i ec =>
      rw [newEvents_of_append (List.append_assoc _ _ _)] at hmem
      rcases List.mem_append.mp hmem with h | h
      · simp at h
      · obtain ⟨error, herror⟩ := fatalError_of_mem_fatalCalls h
        cases herror
  | writtenLast i operation w hwrite hlive hqueue =>
      rw [newEvents_of_append rfl] at hmem
      obtain ⟨rfl, rfl⟩ := Event.writeResult.inj (eq_of_mem_calls hmem)
      have hw : w = operation.element := by simpa [hqueue] using hfront i operation hwrite hlive
      exact ⟨i, _, operation, rfl, hwrite, by rw [hw], by simp⟩
  | writtenNext i operation w next rest hwrite hlive hqueue =>
      rw [newEvents_of_append (List.append_assoc _ _ _)] at hmem
      rcases List.mem_append.mp hmem with h | h
      · obtain ⟨rfl, rfl⟩ := Event.writeResult.inj (eq_of_mem_calls h)
        have hw : w = operation.element := by simpa [hqueue] using hfront i operation hwrite hlive
        exact ⟨i, _, operation, rfl, hwrite, by rw [hw], by simp⟩
      · simp at h
  | writeRecovered i => exact absurd rfl (hknown i _ rfl)
  | writeFailed i ec operation failure hwrite hlive hsuccess hfatal hfailure =>
      rw [newEvents_of_append (by simp only [List.append_assoc]; rfl)] at hmem
      obtain ⟨rest, hqueue⟩ := List.head?_eq_some_iff.mp (hfront i operation hwrite hlive)
      rw [hfailure _ _ hqueue] at hmem
      rcases List.mem_append.mp hmem with h | h
      · obtain ⟨rfl, rfl⟩ := Event.writeResult.inj (eq_of_mem_calls h)
        exact ⟨i, ec, operation, rfl, hwrite, rfl, by simp [hsuccess]⟩
      · rcases List.mem_append.mp h with h | h
        · simp at h
        · obtain ⟨error, herror⟩ := fatalError_of_mem_fatalCalls h
          cases herror
  | _ => simp [newEvents] at hmem

/-- The order in which payloads reach the stream, and what is reported about them. -/
theorem writes_in_order (thread : Nat → τ) (schedule : List Action) (s : Transport)
    (horderly : Meets step (Orderly thread) Transport.init schedule)
    (hfresh : Meets step FreshGeneration Transport.init schedule)
    (hexec : exec step Transport.init schedule = some s) :
    (∀ session, inSession session (handedOver s.events) <+:
      inSession session (trace step enqueues Transport.init schedule)) ∧
    (handedOver s.events).Pairwise (fun p q => Precedes thread p.2.call q.2.call) ∧
    ∀ a t, Orderly thread s a → FreshGeneration s a → step s a = some t →
      (∀ p ∈ handedOver (newEvents s t), ∀ earlier, (p.1, earlier) ∈ handedOver s.events →
        ∀ operation ∈ t.writes, operation.element ≠ earlier) ∧
      (∀ result packetID, .writeResult result packetID ∈ newEvents s t → result ≠ .cancelled →
        ∃ i ec operation, a = .completeWrite i ec ∧ s.writes[i]? = some operation ∧
          operation.element.packetID = packetID ∧ (result = .written ↔ ec = .success)) := by
  obtain ⟨hconserved, hline, hs⟩ := exec_trace_invariant
    (I := fun s enqueued => Conserved s enqueued ∧ InLine thread s ∧ Identified s)
    (fun _ _ _ _ hs horderly hstep => ⟨conserved_step hs.1 hstep,
      inLine_step hs.2.1 horderly.1 hstep,
      identified_step hs.1 hs.2.1 hs.2.2 horderly.1 horderly.2 hstep⟩)
    ⟨conserved_init, inLine_init, identified_init⟩ (meets_and horderly hfresh) hexec
  refine ⟨hconserved.handed, ?_, fun a t horderly hfresh hstep => ⟨?_, ?_⟩⟩
  · have hordered := hline.ordered
    rw [line, List.append_assoc, List.pairwise_append, List.pairwise_map] at hordered
    exact hordered.1
  · intro p hp earlier hearlier operation hmem heq
    rw [handed_newEvents hstep] at hp
    have hfirst : ∀ i outcome, a = .run i outcome → i = 0 := by
      rintro i outcome rfl
      exact horderly
    obtain ⟨hsession, hstopped, hfront, hwaits⟩ := front_of_hands hfirst hp hstep
    have ht := identified_step hconserved hline hs horderly hfresh hstep
    have hhanded : (t.session, operation.element) ∈ handedOver t.events := by
      rw [handed_of_step hstep, heq, ← hsession]
      exact List.mem_append_left _ hearlier
    have hsame := ht.front hstopped operation hmem (ht.fresh hstopped operation hmem hhanded)
    rw [hfront, heq] at hsame
    exact ne_of_handed hline hearlier hwaits (Option.some.inj hsame).symm
  · intro result packetID hmem hresult
    refine result_of_step hs ?_ hstep hmem hresult
    rintro i ec rfl
    exact horderly

end Threads

def twoWrites : List Action :=
  [.post (.openPort defaultBufferConfig), .run 0 .succeeds, .post (.setWriteHandler (some 1)),
    .run 0 .succeeds, .asyncWrite [1] 7, .advance 0, .advance 0, .advance 0, .advance 0,
    .asyncWrite [2] 8, .advance 0, .advance 0, .advance 0, .advance 0, .run 0 .succeeds,
    .run 0 .succeeds]

def twoWritesTransport : Transport := (exec step Transport.init twoWrites).get (by decide)

theorem writes_in_order_twoWrites :
    handedOver twoWritesTransport.events = [(1, ⟨[1], 7, 0, 1⟩)] ∧
      ∀ t, step twoWritesTransport (.completeWrite 0 .success) = some t →
        ∀ packetID, .writeResult .written packetID ∈ newEvents twoWritesTransport t →
          packetID = 7 := by
  refine ⟨by decide, fun t hstep packetID hmem => ?_⟩
  have horder := writes_in_order (fun _ => ()) twoWrites twoWritesTransport (by decide) (by decide)
    (by simp [twoWritesTransport])
  obtain ⟨i, ec, operation, haction, hwrite, hpacket, -⟩ :=
    (horder.2.2 (.completeWrite 0 .success) t (by decide) trivial hstep).2 .written packetID hmem
      (by decide)
  obtain ⟨rfl, rfl⟩ := Action.completeWrite.inj haction
  obtain rfl : ⟨1, ⟨[1], 7, 0, 1⟩⟩ = operation := Option.some.inj hwrite
  exact hpacket.symm

/-- The condition holds of itself until the counter wraps. -/
theorem freshGeneration_of_few {s : Transport} {schedule : List Action} (hs : Captured s)
    (hfew : s.generation + tally step ends s schedule ≤ sizeMax) :
    Meets step FreshGeneration s schedule := by
  induction schedule generalizing s with
  | nil => trivial
  | cons a schedule ih =>
      constructor
      · cases a with
        | run i outcome =>
            intro hsucceeding operation hmem
            have hends : ends s (.run i outcome) = true := by
              simp only [succeeding, Bool.and_eq_true] at hsucceeding
              simp [ends, interrupts, hsucceeding.1.1]
            have hlt : s.generation ≠ sizeMax := by
              simp only [tally, hends, Bool.toNat_true] at hfew
              omega
            have hle := hs.writes operation hmem
            simp only [nextGeneration, if_neg hlt]
            omega
        | _ => trivial
      · cases hstep : step s a with
        | none => trivial
        | some t =>
            rw [tally_cons hstep] at hfew
            have hone : exec step s [a] = some t := exec_cons_eq_some.mpr ⟨t, hstep, rfl⟩
            have htally : tally step ends s [a] = (ends s a).toNat := by
              rw [tally_cons hstep, tally, Nat.add_zero]
            obtain ⟨ht, hgeneration⟩ := captured_of_run hs (by omega) hone
            exact ih ht (by omega)

/-- A faulted transport whose first session has left a write outstanding and two
calls about to post their tasks. -/
def leftBehind (generation : Nat) (events : List Event) : Transport :=
  { Transport.init with
    writeHandler := some 1
    generation := generation
    currentState := .faulted
    writes := [⟨1, ⟨[1], 7, 0, 1⟩⟩]
    callers := [⟨.posting, ⟨[2], 8, 1, 1⟩⟩, ⟨.posting, ⟨[3], 9, 2, 1⟩⟩]
    called := [7, 8, 9]
    session := 1
    events := events }

def leaving : List Action :=
  [.post (.openPort defaultBufferConfig), .run 0 .succeeds, .post (.setWriteHandler (some 1)),
    .run 0 .succeeds, .asyncWrite [1] 7, .advance 0, .advance 0, .advance 0, .advance 0,
    .run 0 .succeeds, .asyncWrite [2] 8, .advance 0, .advance 0, .advance 0, .asyncWrite [3] 9,
    .advance 1, .advance 1, .advance 1, .completeRead 0 .eof 0,
    .post (.openPort defaultBufferConfig), .run 0 .openThrows]

def failedOpens : Nat → List Action
  | 0 => []
  | n + 1 => .post (.openPort defaultBufferConfig) :: .run 0 .openThrows :: failedOpens n

theorem exec_failedOpen (generation : Nat) (events : List Event) (n : Nat) :
    exec step (leftBehind generation events) (failedOpens (n + 1)) =
      exec step (leftBehind (nextGeneration generation) (events ++ [.streamOpen, .threw]))
        (failedOpens n) := rfl

/-- Enough failed open tasks bring `generation` back to zero. -/
theorem exec_failedOpens {n generation : Nat} (events : List Event)
    (hwrap : generation + n = sizeMax) :
    ∃ more, exec step (leftBehind generation events) (failedOpens (n + 1)) =
      some (leftBehind 0 more) := by
  induction n generalizing generation events with
  | zero =>
      have hlast : nextGeneration generation = 0 := if_pos hwrap
      exact ⟨_, by rw [exec_failedOpen, hlast, failedOpens, exec_nil]⟩
  | succ n ih =>
      have hne : generation ≠ sizeMax := by omega
      have hnext : generation + 1 + n = sizeMax := by omega
      obtain ⟨more, hmore⟩ := ih (events ++ [.streamOpen, .threw]) hnext
      refine ⟨more, ?_⟩
      rw [exec_failedOpen, nextGeneration, if_neg hne, hmore]

/-- Generation 1 comes back, and with it the write the first session left behind. -/
def returning : List Action :=
  [.post (.openPort defaultBufferConfig), .run 0 .succeeds, .advance 0, .run 0 .succeeds,
    .advance 0, .run 0 .succeeds]

def returnedTransport (events : List Event) : Transport :=
  { leftBehind 1 (events ++ [.streamOpen] ++ [.returned 8 .scheduled] ++
      [.handed 2 ⟨[2], 8, 1, 1⟩] ++ [.returned 9 .scheduled]) with
    port := true
    stopped := false
    currentState := .opened
    session := 2
    callers := []
    txDeque := [⟨[2], 8, 1, 1⟩, ⟨[3], 9, 2, 1⟩]
    reads := [1]
    writes := [⟨1, ⟨[1], 7, 0, 1⟩⟩, ⟨1, ⟨[2], 8, 1, 1⟩⟩] }

theorem orderly_failedOpens (thread : Nat → Nat) (n : Nat) :
    ∀ a ∈ failedOpens n, ∀ s, Orderly thread s a := by
  induction n with
  | zero => simp [failedOpens]
  | succ n ih =>
      intro a ha s
      rw [failedOpens, List.mem_cons, List.mem_cons] at ha
      rcases ha with rfl | rfl | ha
      · trivial
      · rfl
      · exact ih a ha s

/-- The completion of the first packet's write is reported as the second packet's,
and the third payload is handed over while the second is outstanding. -/
theorem misreported_after_wrap :
    ∃ schedule s t,
      Meets step (Orderly id) Transport.init (schedule ++ [.completeWrite 0 .success]) ∧
      exec step Transport.init schedule = some s ∧
      s.writes[0]? = some ⟨1, ⟨[1], 7, 0, 1⟩⟩ ∧ .handed 2 ⟨[2], 8, 1, 1⟩ ∈ s.events ∧
      step s (.completeWrite 0 .success) = some t ∧
      newEvents s t = [.writeResult .written 8, .handed 2 ⟨[3], 9, 2, 1⟩] ∧
      (⟨1, ⟨[2], 8, 1, 1⟩⟩ : WriteOperation) ∈ t.writes := by
  obtain ⟨n, hn⟩ : ∃ n, 3 + n = sizeMax := ⟨0xFFFFFFFFFFFFFFFC, by simp [sizeMax]⟩
  obtain ⟨events, hleaving⟩ : ∃ events,
      exec step Transport.init leaving = some (leftBehind 3 events) := ⟨_, rfl⟩
  obtain ⟨more, hfailing⟩ := exec_failedOpens events hn
  have hleft : exec step Transport.init (leaving ++ failedOpens (n + 1)) =
      some (leftBehind 0 more) := exec_append_eq_some.mpr ⟨_, hleaving, hfailing⟩
  have hreturning : exec step (leftBehind 0 more) returning = some (returnedTransport more) := rfl
  obtain ⟨t, hstep, hevents, hwrites⟩ : ∃ t,
      step (returnedTransport more) (.completeWrite 0 .success) = some t ∧
      t.events = (returnedTransport more).events ++
        ([.writeResult .written 8] ++ [.handed 2 ⟨[3], 9, 2, 1⟩]) ∧
      t.writes = [⟨1, ⟨[2], 8, 1, 1⟩⟩, ⟨1, ⟨[3], 9, 2, 1⟩⟩] := by
    refine ⟨_, rfl, ?_, rfl⟩
    exact List.append_assoc (returnedTransport more).events _ _
  refine ⟨leaving ++ failedOpens (n + 1) ++ returning, returnedTransport more, t, ?_,
    exec_append_eq_some.mpr ⟨_, hleft, hreturning⟩, rfl, by simp [returnedTransport, leftBehind],
    hstep, newEvents_of_append hevents, by simp [hwrites]⟩
  rw [List.append_assoc, meets_append hleft, meets_append hleaving]
  refine ⟨⟨by decide, meets_of_forall (orderly_failedOpens id (n + 1)) _⟩, meets_of_forall ?_ _⟩
  simp [returning, Orderly]

end EasyLoRa.WriteIdentity
