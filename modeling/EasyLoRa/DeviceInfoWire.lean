import EasyLoRa.Cobs
import EasyLoRa.CoreStatics
import EasyLoRa.CrcCalculatorOutcomes

namespace EasyLoRa.DeviceInfoWire

open EasyLoRa.Cobs
open EasyLoRa.CoreStatics
open EasyLoRa.CrcCalculatorModel (bindTwobytes getHighByte getLowByte)
open EasyLoRa.CrcCalculatorOutcomes (bindTwobytes_split)
open EasyLoRa.FrameResponder
open EasyLoRa.FrameWaiterModel

/-- The string in a `char` array. -/
def text {n : Nat} (array : CharArray n) : List UInt8 := array.1.takeWhile (· ≠ 0)

/-- A field of wire type 2; the empty string is left out. -/
def textField {n : Nat} (tag : UInt8) (array : CharArray n) : List UInt8 :=
  if text array = [] then [] else tag :: (text array).length.toUInt8 :: text array

/-- Seven bits a byte, the least significant ones first; the first argument bounds the
number of bytes. -/
def varint : Nat → Nat → List UInt8
  | 0, _ => []
  | k + 1, v => if v < 128 then [v.toUInt8] else (v % 128 + 128).toUInt8 :: varint k (v / 128)

def varintField (tag : UInt8) (v : UInt32) : List UInt8 :=
  if v = 0 then [] else tag :: varint 5 v.toNat

def message (info : DeviceInfo) : List UInt8 :=
  textField 0x0A info.firmwareVersion ++ varintField 0x10 info.protocolVersion ++
    textField 0x1A info.deviceName ++ textField 0x22 info.hardwareRevision

theorem length_textField {n : Nat} (tag : UInt8) {array : CharArray n} (h : 0 ∈ array.1) :
    (textField tag array).length ≤ n + 1 := by
  have htext : (text array).length < n := by
    have hcut : text array <+: array.1 := List.takeWhile_prefix _
    suffices h : (text array).length < array.1.length by rwa [array.2] at h
    refine Nat.lt_of_le_of_ne hcut.length_le fun hlength => ?_
    have hmem : 0 ∈ text array := (hcut.eq_of_length hlength).symm ▸ h
    simpa using List.all_eq_true.mp List.all_takeWhile 0 hmem
  unfold textField
  split
  · simp
  · simp
    omega

theorem length_varint (k v : Nat) : (varint k v).length ≤ k := by
  induction k generalizing v with
  | zero => simp [varint]
  | succ k ih =>
      unfold varint
      split
      · simp
      · exact Nat.succ_le_succ (ih (v / 128))

theorem length_varintField (tag : UInt8) (v : UInt32) : (varintField tag v).length ≤ 6 := by
  unfold varintField
  split
  · simp
  · exact Nat.succ_le_succ (length_varint 5 v.toNat)

def protobuf : Nanopb where
  deviceInfoSize := 73
  pbEncode info buffer :=
    if info.Terminated ∧ (message info).length ≤ buffer.length then
      (true, copyOut (message info) buffer, (message info).length)
    else (false, buffer, 0)

theorem length_message {info : DeviceInfo} (h : info.Terminated) :
    (message info).length ≤ protobuf.deviceInfoSize := by
  have hfirmware := length_textField 0x0A h.1
  have hprotocol := length_varintField 0x10 info.protocolVersion
  have hname := length_textField 0x1A h.2.1
  have hhardware := length_textField 0x22 h.2.2
  simp only [message, List.length_append, protobuf]
  omega

def protobufDocumented : protobuf.Documented where
  message := message
  length_message _ h := length_message h
  pbEncode_eq _ _ h hroom := if_pos ⟨h, (length_message h).trans hroom⟩

def byteFormat : FrameFormat where
  MessageType := UInt8
  PackageKind := UInt8
  Seq := UInt16
  getDeviceInfo := 1
  request := 0
  response := 1
  actualFrameVersion := 1
  decEqMessageType := inferInstance
  decEqPackageKind := inferInstance

def frameBytes (frame : Frame byteFormat) : List UInt8 :=
  frame.version.toUInt8 :: frame.kind :: frame.flags.toUInt8 :: frame.reserved.toUInt8 ::
    getHighByte frame.seq :: getLowByte frame.seq :: frame.type :: frame.payload

def parseFrame : List UInt8 → Option (Frame byteFormat)
  | version :: kind :: flags :: reserved :: seqHigh :: seqLow :: type :: payload =>
      some ⟨version.toNat, kind, flags.toNat, reserved.toNat, bindTwobytes seqHigh seqLow,
        type, payload⟩
  | _ => none

/-- The numbers fit into their bytes and the frame into one run of stuffed bytes. -/
def Encodable (frame : Frame byteFormat) : Prop :=
  frame.version < 256 ∧ frame.flags < 256 ∧ frame.reserved < 256 ∧
    (frameBytes frame).length < 254

instance (frame : Frame byteFormat) : Decidable (Encodable frame) :=
  inferInstanceAs (Decidable (_ ∧ _))

theorem parse_frameBytes {frame : Frame byteFormat} (h : Encodable frame) :
    parseFrame (frameBytes frame) = some frame := by
  obtain ⟨hversion, hflags, hreserved, -⟩ := h
  simp only [parseFrame, frameBytes, Option.some.injEq, UInt8.toNat_ofNat',
    Nat.mod_eq_of_lt, hversion, hflags, hreserved]
  exact congrArg (fun seq => ({ frame with seq := seq } : Frame byteFormat))
    (bindTwobytes_split frame.seq)

def codec : Codec byteFormat where
  decode input bytes payload :=
    match parseFrame (unstuff input) with
    | none => (none, bytes, payload)
    | some frame =>
        if (unstuff input).length ≤ bytes.length ∧ frame.payload.length ≤ payload.length then
          (some frame, copyOut (unstuff input) bytes, copyOut frame.payload payload)
        else (none, bytes, payload)
  encode frame bytes buffer :=
    if Encodable frame ∧ (frameBytes frame).length ≤ bytes.length ∧
        (stuff (frameBytes frame)).length ≤ buffer.length then
      (some (stuff (frameBytes frame)), copyOut (frameBytes frame) bytes,
        copyOut (stuff (frameBytes frame)) buffer)
    else (none, bytes, buffer)

theorem length_copyOut {bytes buffer : List UInt8} (h : bytes.length ≤ buffer.length) :
    (copyOut bytes buffer).length = buffer.length := by
  simp only [copyOut, List.length_append, List.length_drop]
  omega

def decoded (N : Nat) (input : List UInt8) : Option (Frame byteFormat) :=
  (parseFrame (unstuff input)).filter fun frame =>
    (unstuff input).length ≤ N ∧ frame.payload.length ≤ N

def encoded (N : Nat) (frame : Frame byteFormat) : Option (List UInt8) :=
  if Encodable frame ∧ (stuff (frameBytes frame)).length ≤ N then
    some (stuff (frameBytes frame))
  else none

theorem decode_eq {N : Nat} (input : List UInt8) {bytes payload : List UInt8}
    (hbytes : bytes.length = N) (hpayload : payload.length = N) :
    (codec.decode input bytes payload).1 = decoded N input := by
  simp only [codec, decoded]
  cases parseFrame (unstuff input) with
  | none => rfl
  | some frame =>
      simp only [hbytes, hpayload]
      split <;> simp_all [Option.filter]

theorem encode_eq {N : Nat} (frame : Frame byteFormat) {bytes buffer : List UInt8}
    (hbytes : bytes.length = N) (hbuffer : buffer.length = N) :
    (codec.encode frame bytes buffer).1 = encoded N frame := by
  have hlength := length_stuff (frameBytes frame)
  have hcondition : (Encodable frame ∧ (frameBytes frame).length ≤ N ∧
      (stuff (frameBytes frame)).length ≤ N) ↔
        Encodable frame ∧ (stuff (frameBytes frame)).length ≤ N := by
    constructor
    · exact fun h => ⟨h.1, h.2.2⟩
    · exact fun h => ⟨h.1, by omega, h.2⟩
  simp only [codec, encoded, hbytes, hbuffer, hcondition]
  split <;> rfl

theorem length_decode (input bytes payload : List UInt8) :
    (codec.decode input bytes payload).2.1.length = bytes.length ∧
      (codec.decode input bytes payload).2.2.length = payload.length := by
  simp only [codec]
  split
  · exact ⟨rfl, rfl⟩
  · split
    · next h => exact ⟨length_copyOut h.1, length_copyOut h.2⟩
    · exact ⟨rfl, rfl⟩

theorem length_encode (frame : Frame byteFormat) (bytes buffer : List UInt8) :
    (codec.encode frame bytes buffer).2.1.length = bytes.length ∧
      (codec.encode frame bytes buffer).2.2.length = buffer.length := by
  simp only [codec]
  split
  · next h => exact ⟨length_copyOut h.2.1, length_copyOut h.2.2⟩
  · exact ⟨rfl, rfl⟩

theorem encoded_eq_some {N : Nat} {frame : Frame byteFormat} {codified : List UInt8}
    (h : encoded N frame = some codified) :
    Encodable frame ∧ codified.length ≤ N ∧ codified = stuff (frameBytes frame) := by
  unfold encoded at h
  split at h
  · next hfits =>
      obtain rfl := Option.some.inj h
      exact ⟨hfits.1, hfits.2, rfl⟩
  · contradiction

theorem decoded_of_encoded {N : Nat} {frame : Frame byteFormat} {codified : List UInt8}
    (h : encoded N frame = some codified) : decoded N codified = some frame := by
  obtain ⟨hencodable, hlength, rfl⟩ := encoded_eq_some h
  rw [length_stuff] at hlength
  have hpayload : frame.payload.length ≤ (frameBytes frame).length :=
    Nat.le_add_right _ 7
  rw [decoded, unstuff_stuff hencodable.2.2.2, parse_frameBytes hencodable]
  simp [Option.filter]
  omega

def codecDocumented (N : Nat) : codec.Documented N N where
  decoded := decoded N
  encoded := encoded N
  decode_fst input _ _ hbytes hpayload := decode_eq input hbytes hpayload
  length_decode := length_decode
  encode_fst frame _ _ hbytes hbuffer := encode_eq frame hbytes hbuffer
  length_encode := length_encode
  decoded_of_encoded _ _ h := decoded_of_encoded h
  not_mem_encoded _ _ h := by
    obtain ⟨hencodable, -, rfl⟩ := encoded_eq_some h
    exact zero_not_mem_stuff hencodable.2.2.2

end EasyLoRa.DeviceInfoWire
