import EasyLoRa.CcittFalse

namespace EasyLoRa.CrcRoundTrip

open EasyLoRa.CrcCalculatorModel EasyLoRa.CrcCalculatorOutcomes EasyLoRa.CcittFalse

variable {calculate : List UInt8 → UInt16}

structure Inverse (calculate : List UInt8 → UInt16) : Prop where
  remove_add : ∀ payload output back : Span, payload.bytes ≠ [] →
    payload.bytes.length + 2 ≤ output.bytes.length →
    payload.bytes.length ≤ back.bytes.length →
    ∃ frame after, addCRC calculate payload output = some (.ok frame, after) ∧
      Returns (removeCRC calculate frame back) payload.bytes
  accepts_iff : ∀ frame output : Span, 2 ≤ frame.bytes.length →
    frame.bytes.length ≤ output.bytes.length + 2 →
    ∀ payload, payload = frame.bytes.take (frame.bytes.length - 2) →
      ((∃ bytes, Returns (removeCRC calculate frame output) bytes) ↔
        frame.bytes = payload ++ [getHighByte (calculateCrc16CcittFalse payload),
          getLowByte (calculateCrc16CcittFalse payload)]) ∧
      ∀ bytes, Returns (removeCRC calculate frame output) bytes → bytes = payload
  add_remove : ∀ frame output payload again : Span,
    Returns (removeCRC calculate frame output) payload.bytes → payload.bytes ≠ [] →
    payload.bytes.length + 2 ≤ again.bytes.length →
    Returns (addCRC calculate payload again) frame.bytes
  payload_determines : ∀ frame other output output' : Span, ∀ bytes,
    Returns (removeCRC calculate frame output) bytes →
    Returns (removeCRC calculate other output') bytes → frame.bytes = other.bytes
  outside_image_iff : ∀ frame output : Span, frame.bytes.length ≤ output.bytes.length + 2 →
    (((∃ bytes, Returns (removeCRC calculate frame output) bytes) ∧
        ¬∃ payload target : Span, Returns (addCRC calculate payload target) frame.bytes) ↔
      frame.bytes = [0xFF, 0xFF])

theorem returned_eq_payload {frame output : Span} {payload bytes : List UInt8} {high low : UInt8}
    (hframe : frame.bytes = payload ++ [high, low])
    (h : Returns (removeCRC calculate frame output) bytes) : bytes = payload := by
  have hreturned := of_returns_removeCRC h
  rw [hframe, frameOf] at hreturned
  exact (List.append_inj_left' hreturned rfl).symm

/-- A frame accepted with some payload is the one `addCRC` builds from it. -/
theorem image_of_returns {frame output : Span} {bytes : List UInt8}
    (h : Returns (removeCRC calculate frame output) bytes) (hne : bytes ≠ []) :
    ∃ payload target : Span, Returns (addCRC calculate payload target) frame.bytes := by
  have hframe := of_returns_removeCRC h
  have hlength : bytes.length + 2 = frame.bytes.length := by simp [hframe]
  obtain ⟨payload, rfl⟩ : ∃ payload : Span, payload.bytes = bytes :=
    ⟨⟨bytes, le_trans (by omega) frame.size_le⟩, rfl⟩
  refine ⟨payload, frame, ?_⟩
  rw [hframe]
  exact returns_addCRC hne hlength.le

theorem inverse (hcalculate : IsCcittFalse calculate) : Inverse calculate where
  remove_add := by
    intro payload output back hne hfits hback
    obtain ⟨frame, after, hadd, hframe, -⟩ := addCRC_of_fits calculate hne hfits
    exact ⟨frame, after, hadd, returns_removeCRC hframe hback⟩
  accepts_iff := by
    intro frame output hlength hfits payload hpayload
    obtain ⟨split, high, low, hsplit⟩ := exists_trailer hlength
    have hpayloadEq : payload = split := by simp [hpayload, hsplit]
    subst hpayloadEq
    refine ⟨?_, fun bytes => returned_eq_payload hsplit⟩
    rw [← hcalculate payload]
    constructor
    · rintro ⟨bytes, h⟩
      have hframe := of_returns_removeCRC h
      rwa [returned_eq_payload hsplit h] at hframe
    · intro hframe
      have hroom : payload.length ≤ output.bytes.length := by
        simp [hsplit] at hfits
        omega
      exact ⟨payload, returns_removeCRC hframe hroom⟩
  add_remove := by
    intro frame output payload again h hne hfits
    rw [of_returns_removeCRC h]
    exact returns_addCRC hne hfits
  payload_determines := by
    intro frame other output output' bytes h h'
    rw [of_returns_removeCRC h, of_returns_removeCRC h']
  outside_image_iff := by
    intro frame output hfits
    constructor
    · rintro ⟨⟨bytes, h⟩, houtside⟩
      have hframe := of_returns_removeCRC h
      by_contra hne
      refine houtside (image_of_returns h ?_)
      rintro rfl
      exact hne (by rw [hframe, frameOf_nil hcalculate])
    · intro hframe
      rw [← frameOf_nil hcalculate] at hframe
      refine ⟨⟨[], returns_removeCRC hframe (by simp)⟩, ?_⟩
      rintro ⟨payload, target, h⟩
      obtain ⟨hne, himage⟩ := of_returns_addCRC h
      have hlength := congrArg List.length (hframe.symm.trans himage)
      simp at hlength
      exact hne hlength

theorem inverse_ccittFalse : Inverse calculateCrc16CcittFalse := inverse fun _ => rfl

end EasyLoRa.CrcRoundTrip
