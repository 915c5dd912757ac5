/-
  THE PIPE MESSAGE (Vorsight.Contracts/IPC/PipeMessage.cs) and its binary form.

  `Serialize` writes a missing text as the empty one and a missing payload as one of no bytes, so
  what `Deserialize` gives back is the message with the same meaning (`received`), not always the
  same message (`deserialize_serialize`).
-/
import Vorsight.Library.Codec
import Vorsight.Library.Time

namespace Ipc

open Codec Time

/-- `PipeMessage.MessageType`; an enum of C# can hold any `int`. -/
structure MessageType where
  code : UInt32
deriving DecidableEq, Repr

namespace MessageType

def screenshot : MessageType := ⟨1⟩
def screenshotRequest : MessageType := ⟨2⟩
def shutdownCommand : MessageType := ⟨3⟩
def activity : MessageType := ⟨4⟩

end MessageType

structure PipeMessage where
  type : MessageType
  messageId : String
  createdUtc : DateTime
  sessionId : UInt32
  userSid : Option String := none
  payload : Option Bytes := none
  metadata : Option String := none
deriving DecidableEq, Repr

namespace PipeMessage

def payloadSize (m : PipeMessage) : Nat := (m.payload.getD []).length

/-- `Serialize`: [Header][MetadataLength][Metadata][PayloadLength][Payload]. -/
def serialize (m : PipeMessage) : Bytes :=
  let metadataBytes := encodeUtf8 (m.metadata.getD "")
  toLittleEndian 4 m.type.code.toNat ++ (writeString m.messageId ++
    (toLittleEndian 8 m.createdUtc.ticks ++ (toLittleEndian 4 m.sessionId.toNat ++
      (writeString (m.userSid.getD "") ++ (toLittleEndian 4 metadataBytes.length ++
        (metadataBytes ++ (toLittleEndian 4 m.payloadSize ++ (m.payload.getD [] ++ []))))))))

/-- `reader.ReadBytes(count)`; the count is an `Int32`, and a negative one is an exception. -/
def readBytes (count : Nat) : Reader Bytes := if 2 ^ 31 ≤ count then failure else readUpTo count

/-- `new DateTime(ticks)` throws outside its range. -/
def newDateTime (ticks : Nat) : Reader DateTime :=
  if h : ticks ≤ maxTicks then pure ⟨ticks, h⟩ else failure

/-- `payloadLength > 0 ? reader.ReadBytes(payloadLength) : null`; from `2 ^ 31` on the `Int32` is
    negative. -/
def readPayload (payloadLength : Nat) : Reader (Option Bytes) :=
  if 0 < payloadLength ∧ payloadLength < 2 ^ 31 then some <$> readBytes payloadLength
  else pure none

/-- The reads of `Deserialize`. -/
def readMessage : Reader PipeMessage := do
  let code ← readLittleEndian 4
  let messageId ← readString
  let createdTicks ← readLittleEndian 8
  let sessionId ← readLittleEndian 4
  let userSid ← readString
  let metadataLength ← readLittleEndian 4
  let metadataBytes ← readBytes metadataLength
  let payloadLength ← readLittleEndian 4
  let payload ← readPayload payloadLength
  let createdUtc ← newDateTime createdTicks
  pure {
    type := ⟨.ofNat code⟩
    messageId
    createdUtc
    sessionId := .ofNat sessionId
    userSid := if userSid = "" then none else some userSid
    metadata := some (decodeUtf8 metadataBytes)
    payload }

/-- `Deserialize`; `none` is an exception. -/
def deserialize (data : Bytes) : Option PipeMessage :=
  if data = [] then none else (readMessage.run data).map Prod.fst

/-- The message as it arrives. -/
def received (m : PipeMessage) : PipeMessage :=
  { m with
    userSid := m.userSid.filter (· ≠ "")
    metadata := some (m.metadata.getD "")
    payload := m.payload.filter (· ≠ []) }

/-- What `ms.ToArray()` can hold. -/
def Fits (m : PipeMessage) : Prop := m.serialize.length < 2 ^ 31

instance (m : PipeMessage) : Decidable m.Fits := inferInstanceAs (Decidable (_ < _))

theorem reads_bytes {bs : Bytes} (h : bs.length < 2 ^ 31) : Reads (readBytes bs.length) bs bs := by
  rw [readBytes, if_neg (by omega)]
  exact reads_upTo bs

theorem reads_payload {payload : Option Bytes} (h : (payload.getD []).length < 2 ^ 31) :
    Reads (readPayload (payload.getD []).length) (payload.filter (· ≠ [])) (payload.getD []) := by
  cases payload with
  | none => exact Reads.pure none
  | some bs =>
    cases bs with
    | nil => exact Reads.pure none
    | cons b bs =>
      rw [readPayload, if_pos ⟨by simp, h⟩]
      exact Reads.map some (reads_bytes h)

theorem getD_filter (text : Option String) :
    (if text.getD "" = "" then none else some (text.getD "")) = text.filter (· ≠ "") := by
  cases text with
  | none => rfl
  | some s => by_cases hs : s = "" <;> simp [hs, Option.filter]

theorem reads_message {m : PipeMessage} (h : m.Fits) :
    Reads readMessage m.received m.serialize := by
  have hlen := h
  simp only [Fits, serialize, writeString, List.length_append, length_toLittleEndian] at hlen
  have hticks := m.createdUtc.inRange
  unfold readMessage serialize
  refine Reads.bind (reads_littleEndian (m.type.code.toNat_lt)) ?_
  refine Reads.bind (reads_string (by omega)) ?_
  refine Reads.bind (reads_littleEndian (by unfold maxTicks at hticks; omega)) ?_
  refine Reads.bind (reads_littleEndian (m.sessionId.toNat_lt)) ?_
  refine Reads.bind (reads_string (by omega)) ?_
  refine Reads.bind (reads_littleEndian (by omega)) ?_
  refine Reads.bind (reads_bytes (by omega)) ?_
  refine Reads.bind (reads_littleEndian (by unfold payloadSize; omega)) ?_
  refine Reads.bind (reads_payload (by omega)) ?_
  rw [newDateTime, dif_pos hticks, decodeUtf8_encodeUtf8, UInt32.ofNat_toNat, UInt32.ofNat_toNat,
    getD_filter m.userSid]
  exact Reads.pure m.received

/-- **The round trip.**  What is sent is received, with its missing parts filled in. -/
theorem deserialize_serialize {m : PipeMessage} (h : m.Fits) :
    deserialize m.serialize = some m.received := by
  have hread := reads_message h []
  rw [List.append_nil] at hread
  have hne : m.serialize ≠ [] := by simp [serialize, toLittleEndian]
  rw [deserialize, if_neg hne, hread]
  rfl

/-! ## The array -/

/-- `ms.ToArray()` of what `Serialize` writes; a stream of `2 ^ 31` bytes is an exception. -/
def toArray (m : PipeMessage) : Option Bytes := if m.Fits then some m.serialize else none

theorem toArray_eq_some {m : PipeMessage} {data : Bytes} :
    m.toArray = some data ↔ m.Fits ∧ m.serialize = data := by
  unfold toArray
  split <;> simp_all

/-- **`Deserialize` undoes `Serialize`**, but for the missing parts, which it fills in or drops. -/
theorem deserialize_toArray {m : PipeMessage} {data : Bytes} (h : m.toArray = some data) :
    ∃ m', deserialize data = some m' ∧ m'.type = m.type ∧ m'.messageId = m.messageId ∧
      m'.createdUtc.ticks = m.createdUtc.ticks ∧ m'.sessionId = m.sessionId ∧
      m'.userSid = (if m.userSid = none ∨ m.userSid = some "" then none else m.userSid) ∧
      m'.metadata = some (m.metadata.getD "") ∧
      m'.payload = (if m.payload.getD [] = [] then none else m.payload) := by
  obtain ⟨hfits, rfl⟩ := toArray_eq_some.mp h
  refine ⟨m.received, deserialize_serialize hfits, rfl, rfl, rfl, rfl, ?_, rfl, ?_⟩
  · show m.userSid.filter (· ≠ "") = _
    cases m.userSid with
    | none => rfl
    | some sid => by_cases hsid : sid = "" <;> simp [hsid, Option.filter]
  · show m.payload.filter (· ≠ []) = _
    cases m.payload with
    | none => rfl
    | some bs => cases bs <;> rfl

/-- A message with every part, one of them of two-byte characters. -/
def sample : PipeMessage where
  type := .screenshot
  messageId := "7f3e"
  createdUtc := ⟨638449200000000000, by decide⟩
  sessionId := 2
  userSid := some ""
  payload := some [0x89, 0x50, 0x4e]
  metadata := some "Bürö"

theorem deserialize_toArray_sample : ∃ m', deserialize sample.serialize = some m' ∧
    m'.userSid = none ∧ m'.metadata = some "Bürö" ∧ m'.payload = some [0x89, 0x50, 0x4e] := by
  have harray : sample.toArray = some sample.serialize :=
    toArray_eq_some.mpr ⟨by decide +kernel, rfl⟩
  obtain ⟨m', h, -, -, -, -, hsid, hmetadata, hpayload⟩ := deserialize_toArray harray
  exact ⟨m', h, hsid, hmetadata, hpayload⟩

end PipeMessage

end Ipc
