import EasyLoRa.FrameWaiterModel

/-!
`FrameResponder` and `GetDeviceInfoHandle`: what the firmware answers to a decoded
frame. `Frame.hpp`, the codec and nanopb are not in the repository; they are parameters
here, with what the firmware relies on as assumptions.
-/

namespace EasyLoRa.FrameResponder

open EasyLoRa.FrameWaiterModel

/-- The types and constants of `Frame.hpp` that the firmware names. -/
structure FrameFormat where
  MessageType : Type
  PackageKind : Type
  Seq : Type
  getDeviceInfo : MessageType
  request : PackageKind
  response : PackageKind
  actualFrameVersion : Nat
  decEqMessageType : DecidableEq MessageType
  decEqPackageKind : DecidableEq PackageKind

attribute [instance] FrameFormat.decEqMessageType FrameFormat.decEqPackageKind

structure Frame (F : FrameFormat) where
  version : Nat
  kind : F.PackageKind
  flags : Nat
  reserved : Nat
  seq : F.Seq
  type : F.MessageType
  payload : List UInt8

/-- The errors of the responder. -/
inductive ProtocolErrors where
  | outputBufferTooSmall
  | handlerWithIncorrectType
  | incoherentFrame
  | codificationError
  | invalidMessageType
deriving DecidableEq, Repr

/-- A `char[n]`. -/
abbrev CharArray (n : Nat) := { bytes : List UInt8 // bytes.length = n }

def CharArray.zero (n : Nat) : CharArray n := ⟨List.replicate n 0, List.length_replicate⟩

/-- `std::memcpy` of a text over the start of the array; a `static_assert` promises the
room. -/
def CharArray.copy {n : Nat} (array : CharArray n) (text : List UInt8)
    (h : text.length ≤ n) : CharArray n :=
  ⟨copyOut text array.1, by simp only [copyOut, List.length_append, List.length_drop]; grind⟩

/-- The C struct nanopb generates for the message, with the sizes of
`DeviceInfo_.options`. -/
structure DeviceInfo where
  firmwareVersion : CharArray 16
  protocolVersion : UInt32
  deviceName : CharArray 32
  hardwareRevision : CharArray 16
deriving DecidableEq, Repr

/-- `DeviceInfo__init_zero`. -/
def deviceInfoInitZero : DeviceInfo := ⟨.zero 16, 0, .zero 32, .zero 16⟩

def bytesOf (text : List Char) : List UInt8 := text.map fun c => c.toNat.toUInt8

def firmwareVersion : List UInt8 := bytesOf ['0', '.', '1']

def protocolVersion : UInt32 := 1

def deviceName : List UInt8 := bytesOf ['E', 'a', 's', 'y', ' ', 'L', 'o', 'R', 'a']

def hardwareRevision : List UInt8 := bytesOf ['2']

def getDeviceInfo : DeviceInfo where
  firmwareVersion := deviceInfoInitZero.firmwareVersion.copy firmwareVersion (by decide)
  protocolVersion := protocolVersion
  deviceName := deviceInfoInitZero.deviceName.copy deviceName (by decide)
  hardwareRevision := deviceInfoInitZero.hardwareRevision.copy hardwareRevision (by decide)

/-- `pbEncode` says whether it succeeded, and gives the buffer of the stream after the
call and `bytes_written`. -/
structure Nanopb where
  deviceInfoSize : Nat
  pbEncode : DeviceInfo → List UInt8 → Bool × List UInt8 × Nat

/-- The result, and the two things a handler writes through its parameters. The payload
of a frame it returns lies in `framePayloadBuffer`. -/
structure Reply (F : FrameFormat) where
  result : Except ProtocolErrors (Frame F)
  framePayloadBuffer : List UInt8
  bytesWritten : Nat

section

variable {F : FrameFormat} (P : Nanopb)

def handleRequest (frame : Frame F) (framePayloadBuffer : List UInt8) (bytesWritten : Nat) :
    Reply F :=
  if framePayloadBuffer.length < P.deviceInfoSize then
    ⟨.error .outputBufferTooSmall, framePayloadBuffer, bytesWritten⟩
  else
    match P.pbEncode getDeviceInfo framePayloadBuffer with
    | (false, framePayloadBuffer, _) =>
        ⟨.error .codificationError, framePayloadBuffer, bytesWritten⟩
    | (true, framePayloadBuffer, bytesWritten) =>
        { result := .ok
            { version := F.actualFrameVersion
              kind := F.response
              flags := 0
              reserved := 0
              seq := frame.seq
              type := F.getDeviceInfo
              payload := framePayloadBuffer.take bytesWritten }
          framePayloadBuffer := framePayloadBuffer
          bytesWritten := bytesWritten }

def handle (frame : Frame F) (framePayloadBuffer : List UInt8) (bytesWritten : Nat) :
    Reply F :=
  if frame.type ≠ F.getDeviceInfo then
    ⟨.error .handlerWithIncorrectType, framePayloadBuffer, bytesWritten⟩
  else if frame.kind = F.request then handleRequest P frame framePayloadBuffer bytesWritten
  else ⟨.error .incoherentFrame, framePayloadBuffer, bytesWritten⟩

def dispatch (frame : Frame F) (framePayloadBuffer : List UInt8) : Reply F :=
  if frame.type = F.getDeviceInfo then handle P frame framePayloadBuffer 0
  else ⟨.error .invalidMessageType, framePayloadBuffer, 0⟩

end

/-- Every string field ends before its array does; nanopb refuses one that does not. -/
def DeviceInfo.Terminated (info : DeviceInfo) : Prop :=
  0 ∈ info.firmwareVersion.1 ∧ 0 ∈ info.deviceName.1 ∧ 0 ∈ info.hardwareRevision.1

instance (info : DeviceInfo) : Decidable info.Terminated :=
  inferInstanceAs (Decidable (_ ∧ _))

theorem terminated_getDeviceInfo : getDeviceInfo.Terminated := by decide

/-- What the responder relies on in nanopb: a buffer of `DeviceInfo__size` bytes is
enough, and the message is written over its start. -/
structure Nanopb.Documented (P : Nanopb) where
  message : DeviceInfo → List UInt8
  length_message : ∀ info, info.Terminated → (message info).length ≤ P.deviceInfoSize
  pbEncode_eq : ∀ info buffer, info.Terminated → P.deviceInfoSize ≤ buffer.length →
    P.pbEncode info buffer = (true, copyOut (message info) buffer, (message info).length)

def Frame.IsDeviceInfoRequest {F : FrameFormat} (frame : Frame F) : Prop :=
  frame.type = F.getDeviceInfo ∧ frame.kind = F.request

instance {F : FrameFormat} (frame : Frame F) : Decidable frame.IsDeviceInfoRequest :=
  inferInstanceAs (Decidable (_ ∧ _))

section

variable {F : FrameFormat} {P : Nanopb} (E : P.Documented)

/-- The one answer to a request. -/
def deviceInfoResponse (frame : Frame F) : Frame F where
  version := F.actualFrameVersion
  kind := F.response
  flags := 0
  reserved := 0
  seq := frame.seq
  type := F.getDeviceInfo
  payload := E.message getDeviceInfo

/-- What a call of `handle` can do: with an error it writes nothing. -/
inductive HandleOutcome (frame : Frame F) (framePayloadBuffer : List UInt8)
    (bytesWritten : Nat) : Reply F → Prop where
  | misdirected (htype : frame.type ≠ F.getDeviceInfo) :
      HandleOutcome frame framePayloadBuffer bytesWritten
        ⟨.error .handlerWithIncorrectType, framePayloadBuffer, bytesWritten⟩
  | incoherent (htype : frame.type = F.getDeviceInfo) (hkind : frame.kind ≠ F.request) :
      HandleOutcome frame framePayloadBuffer bytesWritten
        ⟨.error .incoherentFrame, framePayloadBuffer, bytesWritten⟩
  | cramped (hrequest : frame.IsDeviceInfoRequest)
      (hroom : framePayloadBuffer.length < P.deviceInfoSize) :
      HandleOutcome frame framePayloadBuffer bytesWritten
        ⟨.error .outputBufferTooSmall, framePayloadBuffer, bytesWritten⟩
  | answered (hrequest : frame.IsDeviceInfoRequest)
      (hroom : P.deviceInfoSize ≤ framePayloadBuffer.length) :
      HandleOutcome frame framePayloadBuffer bytesWritten
        ⟨.ok (deviceInfoResponse E frame),
          copyOut (E.message getDeviceInfo) framePayloadBuffer,
          (E.message getDeviceInfo).length⟩

theorem handleRequest_of_room (frame : Frame F) {framePayloadBuffer : List UInt8}
    (hroom : P.deviceInfoSize ≤ framePayloadBuffer.length) (bytesWritten : Nat) :
    handleRequest P frame framePayloadBuffer bytesWritten =
      ⟨.ok (deviceInfoResponse E frame),
        copyOut (E.message getDeviceInfo) framePayloadBuffer,
        (E.message getDeviceInfo).length⟩ := by
  have hencode := E.pbEncode_eq getDeviceInfo framePayloadBuffer terminated_getDeviceInfo hroom
  simp [handleRequest, Nat.not_lt.mpr hroom, hencode, deviceInfoResponse, copyOut]

theorem handle_outcome (frame : Frame F) (framePayloadBuffer : List UInt8)
    (bytesWritten : Nat) :
    HandleOutcome E frame framePayloadBuffer bytesWritten
      (handle P frame framePayloadBuffer bytesWritten) := by
  unfold handle
  split
  · next htype => exact .misdirected htype
  · next htype =>
      have htype : frame.type = F.getDeviceInfo := not_not.mp htype
      split
      · next hkind =>
          rcases Nat.lt_or_ge framePayloadBuffer.length P.deviceInfoSize with hroom | hroom
          · rw [handleRequest, if_pos hroom]
            exact .cramped ⟨htype, hkind⟩ hroom
          · rw [handleRequest_of_room E frame hroom]
            exact .answered ⟨htype, hkind⟩ hroom
      · next hkind => exact .incoherent htype hkind

/-- `dispatch` calls the handler for the type of the frame only. -/
theorem dispatch_outcome (frame : Frame F) (framePayloadBuffer : List UInt8) :
    (frame.type ≠ F.getDeviceInfo ∧
        dispatch P frame framePayloadBuffer =
          ⟨.error .invalidMessageType, framePayloadBuffer, 0⟩) ∨
      (frame.type = F.getDeviceInfo ∧
        HandleOutcome E frame framePayloadBuffer 0 (dispatch P frame framePayloadBuffer)) := by
  unfold dispatch
  split
  · next htype => exact Or.inr ⟨htype, handle_outcome E frame framePayloadBuffer 0⟩
  · next htype => exact Or.inl ⟨htype, rfl⟩

end

end EasyLoRa.FrameResponder
