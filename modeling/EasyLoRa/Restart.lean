import EasyLoRa.IndexedLists
import EasyLoRa.TransportOutcomes

namespace EasyLoRa.Restart

open EasyLoRa.IndexedLists
open EasyLoRa.TransportModel
open EasyLoRa.TransportSystem
open EasyLoRa.TransportOutcomes
open EasyLoRa.TransitionSystem

/-- A faulted transport has released its port, and a valid open task opens it and
starts a read. -/
def Restartable (s : Transport) : Prop :=
  s.currentState = .faulted → s.port = false ∧ ∀ bufferConfig,
    (openOnStrand s bufferConfig .succeeds).currentState = .opened ∧
      (openOnStrand s bufferConfig .succeeds).generation ∈
        (openOnStrand s bufferConfig .succeeds).reads

/-- Open tasks find the port released, and no option is refused. -/
def OpensReleased (s : Transport) : Action → Prop
  | .run i outcome =>
      opening s i = true → s.port = false ∧ ∀ option, outcome ≠ .optionThrows option
  | _ => True

instance (s : Transport) (a : Action) : Decidable (OpensReleased s a) := by
  induction a using TransportSystem.Action.casesOn <;> dsimp only [OpensReleased] <;> infer_instance

def Unclosed (_ : Transport) (a : Action) : Prop := a ≠ .post .close

instance (s : Transport) (a : Action) : Decidable (Unclosed s a) :=
  inferInstanceAs (Decidable (_ ≠ _))

structure PortReleased (s : Transport) : Prop where
  closing : s.closing = false
  posted : ∀ task ∈ s.posted, task ≠ .request .close
  port : s.currentState = .faulted → s.port = false

theorem restartable_of_portReleased {s : Transport} (hs : PortReleased s) : Restartable s := by
  intro hfaulted
  have hport := hs.port hfaulted
  constructor
  · exact hport
  · intro bufferConfig
    simp [openOnStrand, hs.closing, hport, openStream, startRead]

theorem portReleased_step {s t : Transport} {a : Action} (hs : PortReleased s)
    (hunclosed : Unclosed s a) (hreleased : OpensReleased s a) (hstep : step s a = some t) :
    PortReleased t := by
  cases step_outcome hstep with
  | scheduled i caller hcaller hpc =>
      refine { hs with posted := ?_ }
      simpa [or_imp, forall_and] using hs.posted
  | requested request =>
      refine { hs with posted := ?_ }
      have hrequest : request ≠ .close := fun h => hunclosed (by rw [h])
      simpa [or_imp, forall_and, hrequest] using hs.posted
  | openFailed i outcome config port htask hclosing hstream =>
      refine ⟨hs.closing, forall_eraseIdx hs.posted i, fun _ => ?_⟩
      obtain ⟨hport, hoption⟩ := hreleased (by simp [opening, htask, hclosing])
      cases outcome with
      | openThrows => simpa [openStream, hport] using hstream.symm
      | optionThrows option => exact absurd rfl (hoption option)
      | succeeds => simp [openStream, hport] at hstream
  | opened i => exact ⟨hs.closing, forall_eraseIdx hs.posted i, by simp⟩
  | closed i outcome htask => exact absurd rfl (hs.posted _ (List.mem_of_getElem? htask))
  | suppressed i => exact { hs with posted := forall_eraseIdx hs.posted i }
  | handlersSet i => exact { hs with posted := forall_eraseIdx hs.posted i }
  | cancelled i => exact { hs with posted := forall_eraseIdx hs.posted i }
  | queued i => exact { hs with posted := forall_eraseIdx hs.posted i }
  | started i => exact { hs with posted := forall_eraseIdx hs.posted i }
  | readFailed => exact { hs with port := fun _ => rfl }
  | writeFailed => exact { hs with port := fun _ => rfl }
  | _ => exact ⟨hs.closing, hs.posted, hs.port⟩

theorem not_restartable_of_not_opensReleased {s t : Transport} {a : Action}
    (hheld : ¬ OpensReleased s a) (hstep : step s a = some t) : ¬ Restartable t := by
  intro hrestartable
  apply hheld
  cases a with
  | run i outcome =>
      intro hopening
      rcases opening_step hopening hstep with ⟨hstream, hfaulted⟩ | ⟨hport, houtcome, -⟩
      · rw [(hrestartable hfaulted).1] at hstream
        cases outcome with
        | openThrows => exact ⟨by simpa [openStream] using hstream, by simp⟩
        | optionThrows option => simp [openStream] at hstream
        | succeeds => simp [openStream] at hstream
      · exact ⟨hport, by simp [houtcome]⟩
  | _ => trivial

/-- Without a close, a faulted transport can always be restarted in exactly the
runs whose open tasks find the port released and all options accepted. -/
theorem restartable_iff_opensReleased (schedule : List Action) (s : Transport)
    (hunclosed : ∀ a ∈ schedule, a ≠ .post .close)
    (hexec : exec step Transport.init schedule = some s) :
    Always step Restartable Transport.init schedule ↔
      Meets step OpensReleased Transport.init schedule :=
  always_iff_meets_within (I := PortReleased) (D := Unclosed)
    (fun _ _ _ hs hunclosed hreleased hstep => portReleased_step hs hunclosed hreleased hstep)
    (fun _ hs => restartable_of_portReleased hs)
    (fun _ _ _ _ _ hheld hstep => not_restartable_of_not_opensReleased hheld hstep)
    ⟨rfl, by simp [Transport.init], by simp [Transport.init]⟩
    (meets_of_labels hunclosed Transport.init) hexec

def refusedOption : List Action :=
  [.post (.openPort defaultBufferConfig), .run 0 (.optionThrows 0)]

/-- The port stays open, and the next open task fails on it. -/
theorem not_restartable_refusedOption :
    ∃ s t, exec step Transport.init refusedOption = some s ∧ ¬ Restartable s ∧
      exec step s [.post (.openPort defaultBufferConfig), .run 0 .succeeds] = some t ∧
      t.currentState = .faulted ∧ t.reads = [] := by
  refine ⟨(exec step Transport.init refusedOption).get (by decide),
    (exec step ((exec step Transport.init refusedOption).get (by decide))
      [.post (.openPort defaultBufferConfig), .run 0 .succeeds]).get (by decide),
    by simp, fun h => ?_, by simp, by decide, by decide⟩
  exact absurd (h (by decide)).1 (by decide)

def replugged : List Action :=
  [.post (.openPort defaultBufferConfig), .run 0 .openThrows,
    .post (.openPort defaultBufferConfig), .run 0 .succeeds, .completeRead 0 .eof 0,
    .post (.openPort defaultBufferConfig), .run 0 .succeeds]

theorem restartable_replugged : Always step Restartable Transport.init replugged :=
  (restartable_iff_opensReleased replugged
    ((exec step Transport.init replugged).get (by decide)) (by decide) (by simp)).mpr (by decide)

end EasyLoRa.Restart
