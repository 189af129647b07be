import Mathlib.Data.List.Basic

/-!
The CRC calculator of the protocol library. A span is the list of the bytes it
views, and an access outside a span has no result. Input and output spans do
not overlap.
-/

namespace EasyLoRa.CrcCalculatorModel

inductive ProtocolErrors where
  | inputBufferTooSmall
  | outputBufferTooSmall
  | crcMismatch
deriving DecidableEq, Repr

def ptrdiffMax : Nat := 0x7FFFFFFFFFFFFFFF

structure Span where
  bytes : List UInt8
  size_le : bytes.length ≤ ptrdiffMax
deriving DecidableEq

namespace Span

def size (s : Span) : UInt64 := UInt64.ofNat s.bytes.length

theorem toNat_size (s : Span) : s.size.toNat = s.bytes.length := by
  have hle := s.size_le
  rw [size, UInt64.toNat_ofNat_of_lt']
  simp only [ptrdiffMax] at hle
  simp only [UInt64.size]
  omega

theorem toNat_le_length {s : Span} {count : UInt64} (h : count ≤ s.size) :
    count.toNat ≤ s.bytes.length := by
  rwa [UInt64.le_iff_toNat_le, toNat_size] at h

def empty (s : Span) : Bool := s.size == 0

def read (s : Span) (i : UInt64) : Option UInt8 := s.bytes[i.toNat]?

def write (s : Span) (i : UInt64) (b : UInt8) : Option Span :=
  if i < s.size then
    some ⟨s.bytes.set i.toNat b, by simpa using s.size_le⟩
  else none

def first (s : Span) (count : UInt64) : Option Span :=
  if count ≤ s.size then
    some ⟨s.bytes.take count.toNat, Nat.le_trans (List.length_take_le' _ _) s.size_le⟩
  else none

def last (s : Span) (count : UInt64) : Option Span :=
  if count ≤ s.size then
    some ⟨s.bytes.drop (s.size - count).toNat,
      Nat.le_trans (List.drop_sublist _ _).length_le s.size_le⟩
  else none

end Span

/-- Copy `count` bytes from the front of `source` to the front of `destination`. -/
def memcpy (destination source : Span) (count : UInt64) : Option Span :=
  if h : count ≤ destination.size ∧ count ≤ source.size then
    some ⟨source.bytes.take count.toNat ++ destination.bytes.drop count.toNat, by
      have hcount := Span.toNat_le_length h.1
      have hle := destination.size_le
      simp only [List.length_append, List.length_take, List.length_drop]
      omega⟩
  else none

def byteShift : UInt16 := 8

def getHighByte (twoBytes : UInt16) : UInt8 := (twoBytes >>> byteShift).toUInt8

def getLowByte (twoBytes : UInt16) : UInt8 := twoBytes.toUInt8

def bindTwobytes (highByte lowByte : UInt8) : UInt16 :=
  (highByte.toUInt16 <<< byteShift) ||| lowByte.toUInt16

def crcLenght : UInt64 := 2

def minimumAddingOutputBufferSize (inputBufferSize : UInt64) : UInt64 :=
  inputBufferSize + crcLenght

def minimumRemovingOutputBufferSize (inputBufferSize : UInt64) : Except ProtocolErrors UInt64 :=
  if inputBufferSize < crcLenght then .error .inputBufferTooSmall
  else .ok (inputBufferSize - crcLenght)

/-- `calculate` is the CRC over the bytes it is given, a value of two bytes. The result is
the returned view, or the error, and the output buffer afterwards. -/
def addCRC (calculate : List UInt8 → UInt16) (inputBuffer outputBuffer : Span) :
    Option (Except ProtocolErrors Span × Span) :=
  if inputBuffer.empty then
    some (.error .inputBufferTooSmall, outputBuffer)
  else if minimumAddingOutputBufferSize inputBuffer.size > outputBuffer.size then
    some (.error .outputBufferTooSmall, outputBuffer)
  else do
    let outputBuffer ← memcpy outputBuffer inputBuffer inputBuffer.size
    let lastByte := inputBuffer.size
    let crc := calculate inputBuffer.bytes
    let outputBuffer ← outputBuffer.write lastByte (getHighByte crc)
    let outputBuffer ← outputBuffer.write (lastByte + 1) (getLowByte crc)
    let view ← outputBuffer.first (lastByte + 2)
    some (.ok view, outputBuffer)

def removeCRC (calculate : List UInt8 → UInt16) (inputBuffer outputBuffer : Span) :
    Option (Except ProtocolErrors Span × Span) :=
  match minimumRemovingOutputBufferSize inputBuffer.size with
  | .error e => some (.error e, outputBuffer)
  | .ok minimumOutputSize =>
      if minimumOutputSize > outputBuffer.size then
        some (.error .outputBufferTooSmall, outputBuffer)
      else do
        let crcBytes ← inputBuffer.last crcLenght
        let actualCrc := bindTwobytes (← crcBytes.read 0) (← crcBytes.read 1)
        let expectedCrc := calculate (← inputBuffer.first minimumOutputSize).bytes
        if actualCrc ≠ expectedCrc then
          some (.error .crcMismatch, outputBuffer)
        else do
          let outputBuffer ← memcpy outputBuffer inputBuffer minimumOutputSize
          let view ← outputBuffer.first minimumOutputSize
          some (.ok view, outputBuffer)

end EasyLoRa.CrcCalculatorModel
