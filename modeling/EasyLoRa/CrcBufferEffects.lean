import EasyLoRa.CrcCalculatorOutcomes

namespace EasyLoRa.CrcBufferEffects

open EasyLoRa.CrcCalculatorModel
open EasyLoRa.CrcCalculatorOutcomes

/-- The outcome of a call whose errors are ordered: a short input, a short
output, a wrong trailer. A failed call leaves the output buffer alone, a
successful one returns a view of `contents`, which it wrote over its start. -/
def Decides (outcome : Option (Except ProtocolErrors Span × Span)) (output : Span)
    (inputShort outputShort mismatch : Prop) (contents : List UInt8) : Prop :=
  ∃ result after, outcome = some (result, after) ∧
    (result = .error .inputBufferTooSmall ↔ inputShort) ∧
    (result = .error .outputBufferTooSmall ↔ ¬inputShort ∧ outputShort) ∧
    (result = .error .crcMismatch ↔ ¬inputShort ∧ ¬outputShort ∧ mismatch) ∧
    ((∃ view, result = .ok view) ↔ ¬inputShort ∧ ¬outputShort ∧ ¬mismatch) ∧
    (∀ error, result = .error error → after = output) ∧
    ∀ view, result = .ok view →
      view.bytes = contents ∧ contents.length ≤ output.bytes.length ∧
        after.bytes = view.bytes ++ output.bytes.drop contents.length

section

variable {outcome : Option (Except ProtocolErrors Span × Span)} {output : Span}
  {inputShort outputShort mismatch : Prop} {contents : List UInt8}

theorem decides_inputShort (houtcome : outcome = some (.error .inputBufferTooSmall, output))
    (hinput : inputShort) :
    Decides outcome output inputShort outputShort mismatch contents :=
  ⟨_, _, houtcome, by simp [hinput], by simp [hinput], by simp [hinput], by simp [hinput],
    fun _ _ => rfl, fun _ h => by cases h⟩

theorem decides_outputShort (houtcome : outcome = some (.error .outputBufferTooSmall, output))
    (hinput : ¬inputShort) (houtput : outputShort) :
    Decides outcome output inputShort outputShort mismatch contents :=
  ⟨_, _, houtcome, by simp [hinput], by simp [hinput, houtput], by simp [houtput],
    by simp [houtput], fun _ _ => rfl, fun _ h => by cases h⟩

theorem decides_mismatch (houtcome : outcome = some (.error .crcMismatch, output))
    (hinput : ¬inputShort) (houtput : ¬outputShort) (hmismatch : mismatch) :
    Decides outcome output inputShort outputShort mismatch contents :=
  ⟨_, _, houtcome, by simp [hinput], by simp [houtput], by simp [hinput, houtput, hmismatch],
    by simp [hmismatch], fun _ _ => rfl, fun _ h => by cases h⟩

theorem decides_success {view after : Span} (houtcome : outcome = some (.ok view, after))
    (hinput : ¬inputShort) (houtput : ¬outputShort) (hmismatch : ¬mismatch)
    (hview : view.bytes = contents) (hroom : contents.length ≤ output.bytes.length)
    (hafter : after.bytes = view.bytes ++ output.bytes.drop contents.length) :
    Decides outcome output inputShort outputShort mismatch contents := by
  refine ⟨_, _, houtcome, by simp [hinput], by simp [houtput], by simp [hmismatch],
    by simp [hinput, houtput, hmismatch], fun _ h => (by cases h), ?_⟩
  intro v hv
  obtain rfl := Except.ok.inj hv
  exact ⟨hview, hroom, hafter⟩

end

variable (calculate : List UInt8 → UInt16) (input output : Span)

def AddEffects : Prop :=
  Decides (addCRC calculate input output) output (input.bytes = [])
    (output.bytes.length < (minimumAddingOutputBufferSize input.size).toNat) False
    (frameOf calculate input.bytes)

/-- The last two bytes of the input are not the CRC of the bytes before them. -/
def TrailerDiffers : Prop :=
  ∃ payload high low, input.bytes = payload ++ [high, low] ∧
    bindTwobytes high low ≠ calculate payload

def RemoveEffects : Prop :=
  Decides (removeCRC calculate input output) output (input.bytes.length < 2)
    (∃ n, minimumRemovingOutputBufferSize input.size = .ok n ∧ output.bytes.length < n.toNat)
    (TrailerDiffers calculate input) (input.bytes.take (input.bytes.length - 2))

theorem addEffects : AddEffects calculate input output := by
  by_cases hnil : input.bytes = []
  · exact decides_inputShort (addCRC_of_nil hnil) hnil
  · rw [AddEffects, toNat_minimumAdding]
    by_cases hshort : output.bytes.length < input.bytes.length + 2
    · exact decides_outputShort (addCRC_of_small hnil hshort) hnil hshort
    · have hfits := Nat.not_lt.mp hshort
      obtain ⟨view, after, hadd, hview, hafter⟩ := addCRC_of_fits calculate hnil hfits
      apply decides_success hadd hnil hshort not_false hview
      · rwa [length_frameOf]
      · rwa [length_frameOf]

theorem outputShort_iff (h : 2 ≤ input.bytes.length) :
    (∃ n, minimumRemovingOutputBufferSize input.size = .ok n ∧ output.bytes.length < n.toNat) ↔
      output.bytes.length + 2 < input.bytes.length := by
  obtain ⟨n, hn, hnNat⟩ := minimumRemoving_of_le h
  constructor
  · rintro ⟨m, hm, hlt⟩
    rw [hn] at hm
    obtain rfl := Except.ok.inj hm
    omega
  · intro hlt
    exact ⟨n, hn, by omega⟩

theorem trailerDiffers_iff {payload : List UInt8} {high low : UInt8}
    (hinput : input.bytes = payload ++ [high, low]) :
    TrailerDiffers calculate input ↔ bindTwobytes high low ≠ calculate payload := by
  constructor
  · rintro ⟨payload', high', low', hinput', hcrc⟩
    rw [hinput] at hinput'
    obtain ⟨rfl, hpair⟩ := List.append_inj' hinput' rfl
    obtain ⟨rfl, rfl⟩ : high = high' ∧ low = low' := by simpa using hpair
    exact hcrc
  · intro hcrc
    exact ⟨payload, high, low, hinput, hcrc⟩

theorem removeEffects : RemoveEffects calculate input output := by
  by_cases hlt : input.bytes.length < 2
  · exact decides_inputShort (removeCRC_of_lt hlt) hlt
  · have hle := Nat.not_lt.mp hlt
    rw [RemoveEffects, outputShort_iff input output hle]
    by_cases hshort : output.bytes.length + 2 < input.bytes.length
    · exact decides_outputShort (removeCRC_of_small hle hshort) hlt hshort
    · obtain ⟨payload, high, low, hinput⟩ := exists_trailer hle
      have hlength : input.bytes.length = payload.length + 2 := by simp [hinput]
      have hroom : payload.length ≤ output.bytes.length := by omega
      have hcontents : input.bytes.take (input.bytes.length - 2) = payload := by
        rw [hlength, Nat.add_sub_cancel, hinput, List.take_left]
      rw [hcontents, trailerDiffers_iff calculate input hinput]
      obtain ⟨view, after, hview, hafter, hremove⟩ :=
        removeCRC_of_fits calculate hinput hroom
      by_cases hcrc : bindTwobytes high low ≠ calculate payload
      · rw [if_pos hcrc] at hremove
        exact decides_mismatch hremove hlt hshort hcrc
      · rw [if_neg hcrc] at hremove
        exact decides_success hremove hlt hshort hcrc hview hroom hafter

/-- Both calls return for every pair of buffers, so no access is outside either. -/
theorem buffer_effects :
    AddEffects calculate input output ∧ RemoveEffects calculate input output :=
  ⟨addEffects calculate input output, removeEffects calculate input output⟩

end EasyLoRa.CrcBufferEffects
