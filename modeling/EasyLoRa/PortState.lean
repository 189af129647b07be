import EasyLoRa.TransportOutcomes

namespace EasyLoRa.PortState

open EasyLoRa.TransportModel
open EasyLoRa.TransportSystem
open EasyLoRa.TransportOutcomes
open EasyLoRa.TransitionSystem

structure Coherent (s : Transport) : Prop where
  opened : s.currentState = .opened ↔ s.closing = false ∧ s.stopped = false
  closed : s.closing = true → s.stopped = true ∧ s.currentState = .closed
  idle : s.stopped = true → s.txDeque = []

theorem coherent_init : Coherent Transport.init :=
  ⟨by simp [Transport.init], by simp [Transport.init], fun _ => rfl⟩

theorem coherent_step {s t : Transport} {a : Action} (hs : Coherent s)
    (hstep : step s a = some t) : Coherent t := by
  cases step_outcome hstep with
  | openFailed i outcome config port htask hclosing =>
      exact ⟨by simp, by simp [hclosing], fun _ => rfl⟩
  | opened i outcome config htask hclosing =>
      exact ⟨by simp [hclosing], by simp [hclosing], fun _ => rfl⟩
  | closed => exact ⟨by simp, by simp, fun _ => rfl⟩
  | queued i outcome w htask hclosing hstopped =>
      exact ⟨hs.opened, hs.closed, by simp [hstopped]⟩
  | started i outcome w htask hclosing hstopped =>
      exact ⟨hs.opened, hs.closed, by simp [hstopped]⟩
  | readFailed i ec bytesRead hread hlive => exact ⟨by simp, by simp [hlive.1], fun _ => rfl⟩
  | writtenLast => exact ⟨hs.opened, hs.closed, fun _ => rfl⟩
  | writtenNext i operation w next rest hwrite hlive =>
      exact ⟨hs.opened, hs.closed, by simp [hlive.2.1]⟩
  | writeFailed i ec operation failure hwrite hlive =>
      exact ⟨by simp, by simp [hlive.1], fun _ => rfl⟩
  | _ => exact ⟨hs.opened, hs.closed, hs.idle⟩

theorem coherent_of_run {schedule : List Action} {s : Transport}
    (hexec : exec step Transport.init schedule = some s) : Coherent s :=
  exec_stable (fun _ _ _ hs hstep => coherent_step hs hstep) coherent_init hexec

end EasyLoRa.PortState
