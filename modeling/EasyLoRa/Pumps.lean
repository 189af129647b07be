import EasyLoRa.IndexedLists
import EasyLoRa.PortState

namespace EasyLoRa.Pumps

open EasyLoRa.IndexedLists
open EasyLoRa.TransportModel
open EasyLoRa.TransportSystem
open EasyLoRa.TransportOutcomes
open EasyLoRa.TransitionSystem
open EasyLoRa.PortState

def Pumped (s : Transport) : Prop :=
  s.currentState = .opened →
    s.generation ∈ s.reads ∧
      ∀ w ∈ s.txDeque.head?, (⟨s.generation, w⟩ : WriteOperation) ∈ s.writes

instance (s : Transport) : Decidable (Pumped s) :=
  inferInstanceAs (Decidable (_ → _ ∧ _))

def Reading (s : Transport) : Prop := s.currentState = .opened → s.generation ∈ s.reads

def Writing (s : Transport) : Prop :=
  s.currentState = .opened →
    ∀ w ∈ s.txDeque.head?, (⟨s.generation, w⟩ : WriteOperation) ∈ s.writes

/-- A write completes with the recoverable error in its session and takes the last
outstanding write of the front element with it. -/
def strands (s : Transport) : Action → Bool
  | .completeWrite i ec =>
      recovering s i ec &&
        s.txDeque.head?.any fun w => (⟨s.generation, w⟩ : WriteOperation) ∉ s.writes.eraseIdx i
  | _ => false

def Unstranded (s : Transport) (a : Action) : Prop := strands s a = false

instance (s : Transport) (a : Action) : Decidable (Unstranded s a) :=
  inferInstanceAs (Decidable (_ = _))

theorem reading_step {s t : Transport} {a : Action} (hs : Coherent s) (hreading : Reading s)
    (hstep : step s a = some t) : Reading t := by
  intro hopen
  cases step_outcome hstep with
  | opened => simp
  | readIgnored i ec bytesRead operationGeneration hread hstale =>
      obtain ⟨hclosing, hstopped⟩ := hs.opened.mp hopen
      have hne : s.generation ≠ operationGeneration :=
        fun h => hstale ⟨hclosing, hstopped, h.symm⟩
      exact mem_eraseIdx_of_ne hread (hreading hopen) hne
  | delivered => simp
  | readRecovered => simp
  | writeRecovered => simp
  | openFailed => cases hopen
  | closed => cases hopen
  | readFailed => cases hopen
  | writeFailed => cases hopen
  | _ => exact hreading hopen

theorem writing_step {s t : Transport} {a : Action} (hs : Coherent s) (hwriting : Writing s)
    (hunstranded : Unstranded s a) (hstep : step s a = some t) : Writing t := by
  intro hopen
  cases step_outcome hstep with
  | opened => simp
  | queued i outcome w htask hclosing hstopped hbusy =>
      obtain ⟨first, rest, hqueue⟩ := List.exists_cons_of_ne_nil hbusy
      intro front hfront
      exact hwriting hopen front (by simpa [hqueue] using hfront)
  | started => simp
  | writeIgnored i ec operation hwrite hstale =>
      obtain ⟨hclosing, hstopped⟩ := hs.opened.mp hopen
      intro w hw
      refine mem_eraseIdx_of_ne hwrite (hwriting hopen w hw) ?_
      rintro rfl
      exact hstale ⟨hclosing, hstopped, rfl⟩
  | writtenLast => simp
  | writtenNext => simp
  | writeRecovered i operation failure hwrite hlive =>
      intro w hw
      by_contra hmissing
      have hqueue : s.txDeque ≠ [] := by
        intro h
        simp [h] at hw
      have hrecovering : recovering s i .notFound = true := by
        simp [recovering, hwrite, hlive, hqueue]
      simp only [Unstranded, strands, hrecovering, Bool.true_and, Option.mem_def.mp hw,
        Option.any_some, decide_eq_false_iff_not] at hunstranded
      exact hunstranded hmissing
  | undefined i ec operation hwrite hlive hqueue => simp [hqueue]
  | openFailed => cases hopen
  | closed => cases hopen
  | readFailed => cases hopen
  | writeFailed => cases hopen
  | _ => exact hwriting hopen

theorem pumped_step {s t : Transport} {a : Action} (hs : Coherent s) (hpumped : Pumped s)
    (hunstranded : Unstranded s a) (hstep : step s a = some t) : Pumped t := by
  intro hopen
  exact ⟨reading_step hs (fun h => (hpumped h).1) hstep hopen,
    writing_step hs (fun h => (hpumped h).2) hunstranded hstep hopen⟩

theorem not_pumped_of_strands {s t : Transport} {a : Action} (hs : Coherent s)
    (hstrands : ¬ Unstranded s a) (hstep : step s a = some t) : ¬ Pumped t := by
  intro hpumped
  apply hstrands
  cases step_outcome hstep with
  | writeRecovered i operation failure hwrite hlive =>
      have hopen := hs.opened.mpr ⟨hlive.1, hlive.2.1⟩
      obtain ⟨-, hfront⟩ := hpumped hopen
      simp only [Unstranded, strands, Bool.and_eq_false_imp]
      intro _
      cases hqueue : s.txDeque.head? with
      | none => rfl
      | some w => simpa using hfront w hqueue
  | writeIgnored i ec operation hwrite hstale =>
      simp [Unstranded, strands, recovering, hwrite, hstale]
  | writtenLast i operation w hwrite => simp [Unstranded, strands, recovering, hwrite]
  | writtenNext i operation w next rest hwrite =>
      simp [Unstranded, strands, recovering, hwrite]
  | writeFailed i ec operation failure hwrite hlive hsuccess hfatal =>
      simp [Unstranded, strands, recovering, hwrite, hfatal]
  | undefined i ec operation hwrite hlive hqueue => simp [Unstranded, strands, hqueue]
  | _ => rfl

/-- The pumps run in exactly the runs that never strand the queue. -/
theorem pumped_iff_unstranded (schedule : List Action) (s : Transport)
    (hexec : exec step Transport.init schedule = some s) :
    Always step Pumped Transport.init schedule ↔
      Meets step Unstranded Transport.init schedule :=
  always_iff_meets (I := fun s => Coherent s ∧ Pumped s)
    (fun _ _ _ hs hunstranded hstep =>
      ⟨coherent_step hs.1 hstep, pumped_step hs.1 hs.2 hunstranded hstep⟩)
    (fun _ hs => hs.2)
    (fun _ _ _ hs hstrands hstep => not_pumped_of_strands hs.1 hstrands hstep)
    ⟨coherent_init, by simp [Pumped, Transport.init]⟩ hexec

def strandedSchedule : List Action :=
  [.post (.openPort defaultBufferConfig), .run 0 .succeeds, .asyncWrite [1] 7, .advance 0,
    .advance 0, .advance 0, .advance 0, .run 0 .succeeds, .completeWrite 0 .notFound]

/-- The queue keeps its element, the port reports open, and no write is outstanding. -/
theorem not_pumped_strandedSchedule :
    ∃ s, exec step Transport.init strandedSchedule = some s ∧ s.ended = none ∧
      isOpen s = true ∧ s.txDeque = [⟨[1], 7, 0, 1⟩] ∧ s.writes = [] ∧ ¬ Pumped s := by
  refine ⟨(exec step Transport.init strandedSchedule).get (by decide), by simp, ?_, ?_, ?_, ?_, ?_⟩
    <;> decide

def pumpedSchedule : List Action :=
  [.post (.openPort defaultBufferConfig), .run 0 .succeeds, .asyncWrite [1] 7, .advance 0,
    .advance 0, .advance 0, .advance 0, .run 0 .succeeds, .asyncWrite [2] 8, .advance 0,
    .advance 0, .advance 0, .advance 0, .run 0 .succeeds, .completeWrite 0 .success,
    .completeRead 0 .notFound 0]

theorem pumped_pumpedSchedule : Always step Pumped Transport.init pumpedSchedule :=
  (pumped_iff_unstranded pumpedSchedule
    ((exec step Transport.init pumpedSchedule).get (by decide)) (by simp)).mpr (by decide)

end EasyLoRa.Pumps
