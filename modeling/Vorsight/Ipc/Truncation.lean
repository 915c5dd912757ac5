/-
  DAMAGED MESSAGES: which cuts of a pipe message `Deserialize` notices.

  1. **What a buffer declares** (`Declares`): behind a header stand a block of metadata with its
     length, and a length for the payload.

  2. **Before the payload** every read is whole: numbers and texts throw at the end of the stream,
     and metadata that end early leave nothing for the length of the payload (`whole_front`).

  3. **The payload** is read by `ReadBytes`, which makes do with what there is.  So a cut inside it
     passes, and a declared length is kept exactly when it is not negative and the bytes are there
     (`shortened_iff`).
-/
import Vorsight.Ipc.PipeMessage

namespace Ipc.Truncation

open Codec Time PipeMessage

/-! ## What a buffer declares -/

/-- What stands before the metadata. -/
structure Header where
  code : Nat
  messageId : String
  createdTicks : Nat
  sessionId : Nat
  userSid : String

def readHeader : Reader Header := do
  let code ← readLittleEndian 4
  let messageId ← readString
  let createdTicks ← readLittleEndian 8
  let sessionId ← readLittleEndian 4
  let userSid ← readString
  pure { code, messageId, createdTicks, sessionId, userSid }

/-- A header, a block of metadata behind its length, and a length for the payload; then `rest`.
    From `2 ^ 31` on a length is negative. -/
def Declares (data metadataBlock : Bytes) (payloadLength : Nat) (rest : Bytes) : Prop :=
  ∃ h header, Reads readHeader h header ∧ metadataBlock.length < 2 ^ 31 ∧
    payloadLength < 2 ^ 32 ∧
    data = header ++ (toLittleEndian 4 metadataBlock.length ++
      (metadataBlock ++ toLittleEndian 4 payloadLength)) ++ rest

/-- Metadata and payload of the message are blocks of the buffer, as long as declared. -/
def FromBlocks (data : Bytes) (m : PipeMessage) : Prop :=
  ∃ metadataBlock payloadBlock rest, payloadBlock.length < 2 ^ 31 ∧
    Declares data metadataBlock payloadBlock.length (payloadBlock ++ rest) ∧
    m.metadata = some (decodeUtf8 metadataBlock) ∧
    m.payload = if payloadBlock = [] then none else some payloadBlock

/-- The declared length of the payload is not negative, and so many bytes follow. -/
def PayloadInside (data : Bytes) : Prop :=
  ∀ metadataBlock payloadLength rest, Declares data metadataBlock payloadLength rest →
    payloadLength < 2 ^ 31 ∧ payloadLength ≤ rest.length

/-! ## Before the payload -/

/-- The metadata and the length of the payload. -/
def readLengths : Reader (Bytes × Nat) := do
  let metadataLength ← readLittleEndian 4
  let metadataBytes ← readBytes metadataLength
  let payloadLength ← readLittleEndian 4
  pure (metadataBytes, payloadLength)

def readFront : Reader (Header × Bytes × Nat) := do
  let h ← readHeader
  let lengths ← readLengths
  pure (h, lengths)

/-- The message of what has been read. -/
def assemble (front : Header × Bytes × Nat) (payload : Option Bytes) (createdUtc : DateTime) :
    PipeMessage where
  type := ⟨.ofNat front.1.code⟩
  messageId := front.1.messageId
  createdUtc
  sessionId := .ofNat front.1.sessionId
  userSid := if front.1.userSid = "" then none else some front.1.userSid
  metadata := some (decodeUtf8 front.2.1)
  payload

/-- What is left to read behind the front. -/
def readRest (front : Header × Bytes × Nat) : Reader PipeMessage := do
  let payload ← readPayload front.2.2
  let createdUtc ← newDateTime front.1.createdTicks
  pure (assemble front payload createdUtc)

theorem readMessage_eq : readMessage = readFront >>= readRest := by
  unfold readMessage readFront readHeader readLengths readRest
  simp only [bind_assoc, pure_bind]
  rfl

theorem whole_header : Whole readHeader :=
  Whole.bind (whole_littleEndian 4) fun _ => Whole.bind whole_string fun _ =>
    Whole.bind (whole_littleEndian 8) fun _ => Whole.bind (whole_littleEndian 4) fun _ =>
      Whole.bind whole_string fun _ => Whole.pure _

/-- Metadata that end early leave nothing for the length of the payload. -/
theorem whole_lengths : Whole readLengths := by
  refine Whole.bind (whole_littleEndian 4) fun metadataLength => ?_
  unfold readBytes
  split
  · exact Whole.bind Whole.fail fun _ => Whole.bind (whole_littleEndian 4) fun _ => Whole.pure _
  · exact whole_upTo_bind metadataLength (whole_littleEndian 4) rfl

theorem whole_front : Whole readFront :=
  Whole.bind whole_header fun _ => Whole.bind whole_lengths fun _ => Whole.pure _

theorem eq_of_readLengths {bs metadataBlock rest : Bytes} {payloadLength : Nat}
    (h : readLengths.run bs = some ((metadataBlock, payloadLength), rest)) :
    metadataBlock.length < 2 ^ 31 ∧ payloadLength < 2 ^ 32 ∧
      bs = toLittleEndian 4 metadataBlock.length ++
        (metadataBlock ++ toLittleEndian 4 payloadLength) ++ rest := by
  obtain ⟨metadataLength, rest₁, hlength, h₁⟩ := run_bind_eq_some.mp h
  obtain ⟨-, rfl⟩ := eq_of_readLittleEndian hlength
  obtain ⟨block, rest₂, hblock, h₂⟩ := run_bind_eq_some.mp h₁
  obtain ⟨payloadLength', rest₃, hpayload, h₃⟩ := run_bind_eq_some.mp h₂
  obtain ⟨hpair, rfl⟩ := Prod.mk.inj (Option.some.inj h₃)
  obtain ⟨rfl, rfl⟩ := Prod.mk.inj hpair
  obtain ⟨hlt, rfl⟩ := eq_of_readLittleEndian hpayload
  unfold readBytes at hblock
  split at hblock
  · cases hblock
  · rename_i hmetadata
    obtain ⟨hblock, hrest⟩ := Prod.mk.inj (Option.some.inj hblock)
    -- four more bytes have been read behind the metadata, so that none of theirs is missing
    have hlen := congrArg List.length hrest
    simp only [List.length_drop, List.length_append, length_toLittleEndian] at hlen
    have hmetadataLength : block.length = metadataLength := by
      rw [← hblock, List.length_take]
      omega
    refine ⟨by omega, hlt, ?_⟩
    rw [hmetadataLength, List.append_assoc, List.append_assoc, ← hrest, ← hblock,
      List.take_append_drop]

theorem reads_front {h : Header} {header metadataBlock : Bytes} {payloadLength : Nat}
    (hheader : Reads readHeader h header) (hmetadata : metadataBlock.length < 2 ^ 31)
    (hpayload : payloadLength < 2 ^ 32) :
    Reads readFront (h, metadataBlock, payloadLength) (header ++
      (toLittleEndian 4 metadataBlock.length ++
        (metadataBlock ++ toLittleEndian 4 payloadLength))) := by
  have hlengths : Reads readLengths (metadataBlock, payloadLength)
      (toLittleEndian 4 metadataBlock.length ++
        (metadataBlock ++ (toLittleEndian 4 payloadLength ++ []))) := by
    refine Reads.bind (reads_littleEndian (by omega)) ?_
    refine Reads.bind (reads_bytes hmetadata) ?_
    exact Reads.bind (reads_littleEndian hpayload) (Reads.pure _)
  rw [List.append_nil] at hlengths
  have hboth : Reads readFront (h, metadataBlock, payloadLength) (header ++
      ((toLittleEndian 4 metadataBlock.length ++
        (metadataBlock ++ toLittleEndian 4 payloadLength)) ++ [])) :=
    Reads.bind hheader (Reads.bind hlengths (Reads.pure _))
  rwa [List.append_nil] at hboth

/-- **What is read is declared.** -/
theorem declares_iff {data metadataBlock rest : Bytes} {payloadLength : Nat} :
    Declares data metadataBlock payloadLength rest ↔
      ∃ h, readFront.run data = some ((h, metadataBlock, payloadLength), rest) := by
  constructor
  · rintro ⟨h, header, hheader, hmetadata, hpayload, rfl⟩
    exact ⟨h, reads_front hheader hmetadata hpayload rest⟩
  · rintro ⟨h, hrun⟩
    obtain ⟨h', rest₁, hheader, hrun₁⟩ := run_bind_eq_some.mp hrun
    obtain ⟨lengths, rest₂, hlengths, hrun₂⟩ := run_bind_eq_some.mp hrun₁
    obtain ⟨hpair, hrest⟩ := Prod.mk.inj (Option.some.inj hrun₂)
    obtain ⟨-, hpair⟩ := Prod.mk.inj hpair
    subst hrest hpair
    obtain ⟨header, hdata, hreads⟩ := whole_header _ _ _ hheader
    obtain ⟨hmetadata, hpayload, hrest₁⟩ := eq_of_readLengths hlengths
    refine ⟨h', header, hreads, hmetadata, hpayload, ?_⟩
    rw [hdata, hrest₁]
    exact (List.append_assoc ..).symm

/-! ## The payload -/

/-- The payload that is returned, of the bytes behind its length. -/
def payloadOf (payloadLength : Nat) (rest : Bytes) : Option Bytes :=
  if 0 < payloadLength ∧ payloadLength < 2 ^ 31 then some (rest.take payloadLength) else none

theorem run_readPayload (payloadLength : Nat) (bs : Bytes) :
    ∃ rest, (readPayload payloadLength).run bs = some (payloadOf payloadLength bs, rest) := by
  unfold readPayload payloadOf
  split
  · rename_i hlength
    rw [readBytes, if_neg (by omega)]
    exact ⟨bs.drop payloadLength, rfl⟩
  · exact ⟨bs, rfl⟩

theorem run_readRest {front : Header × Bytes × Nat} {bs : Bytes} {m : PipeMessage} :
    ((readRest front).run bs).map Prod.fst = some m ↔
      ∃ h : front.1.createdTicks ≤ maxTicks,
        m = assemble front (payloadOf front.2.2 bs) ⟨front.1.createdTicks, h⟩ := by
  obtain ⟨rest, hpayload⟩ := run_readPayload front.2.2 bs
  unfold readRest newDateTime
  rw [StateT.run_bind, hpayload]
  by_cases h : front.1.createdTicks ≤ maxTicks
  · rw [dif_pos h]
    constructor
    · intro hm
      exact ⟨h, (Option.some.inj hm).symm⟩
    · rintro ⟨-, rfl⟩
      rfl
  · rw [dif_neg h]
    constructor
    · intro hm
      cases hm
    · rintro ⟨h', -⟩
      exact absurd h' h

/-- What `Deserialize` makes of a buffer. -/
theorem deserialize_eq_some {data : Bytes} {m : PipeMessage} :
    deserialize data = some m ↔ ∃ front rest, readFront.run data = some (front, rest) ∧
      ∃ h : front.1.createdTicks ≤ maxTicks,
        m = assemble front (payloadOf front.2.2 rest) ⟨front.1.createdTicks, h⟩ := by
  unfold deserialize
  split
  · rename_i hnil
    subst hnil
    constructor
    · intro h
      cases h
    · rintro ⟨front, rest, hrun, -⟩
      cases hrun
  · rw [readMessage_eq, StateT.run_bind]
    cases hfront : readFront.run data with
    | none =>
      constructor
      · intro h
        cases h
      · rintro ⟨front, rest, hrun, -⟩
        cases hrun
    | some p =>
      obtain ⟨front, rest⟩ := p
      show ((readRest front).run rest).map Prod.fst = some m ↔ _
      rw [run_readRest]
      constructor
      · exact fun h => ⟨front, rest, rfl, h⟩
      · rintro ⟨front', rest', hrun, h⟩
        obtain ⟨rfl, rfl⟩ := Prod.mk.inj (Option.some.inj hrun)
        exact h

/-- The payload returned is a block of the declared length just when there is one. -/
theorem fromBlocks_iff {data : Bytes} {m : PipeMessage} (h : deserialize data = some m) :
    FromBlocks data m ↔ PayloadInside data := by
  obtain ⟨⟨header, metadataBlock, payloadLength⟩, rest, hrun, hticks, rfl⟩ :=
    deserialize_eq_some.mp h
  have hdeclares : Declares data metadataBlock payloadLength rest :=
    declares_iff.mpr ⟨header, hrun⟩
  have hunique : ∀ {metadataBlock' : Bytes} {payloadLength' : Nat} {rest' : Bytes},
      Declares data metadataBlock' payloadLength' rest' →
        metadataBlock' = metadataBlock ∧ payloadLength' = payloadLength ∧ rest' = rest := by
    intro metadataBlock' payloadLength' rest' h'
    obtain ⟨header', hrun'⟩ := declares_iff.mp h'
    rw [hrun] at hrun'
    simp only [Option.some.injEq, Prod.mk.injEq] at hrun'
    exact ⟨hrun'.1.2.1.symm, hrun'.1.2.2.symm, hrun'.2.symm⟩
  constructor
  · rintro ⟨block, payloadBlock, rest', hlength, hblocks, -, -⟩ _ _ _ h'
    obtain ⟨-, rfl, rfl⟩ := hunique h'
    obtain ⟨-, hpayload, hrest⟩ := hunique hblocks
    have hlen := congrArg List.length hrest
    rw [List.length_append] at hlen
    omega
  · intro hinside
    obtain ⟨hpositive, hlength⟩ := hinside _ _ _ hdeclares
    have htake : (rest.take payloadLength).length = payloadLength := by
      rw [List.length_take]
      omega
    refine ⟨metadataBlock, rest.take payloadLength, rest.drop payloadLength, by omega, ?_, rfl, ?_⟩
    · rw [htake, List.take_append_drop]
      exact hdeclares
    · show payloadOf payloadLength rest = _
      unfold payloadOf
      by_cases hzero : payloadLength = 0
      · subst hzero
        rfl
      · rw [if_pos ⟨by omega, hpositive⟩, if_neg]
        rw [← List.length_eq_zero_iff, htake]
        exact hzero

/-! ## Cuts -/

/-- What `Serialize` writes before the payload. -/
theorem serialize_eq {m : PipeMessage} (h : m.Fits) : ∃ header front,
    header.createdTicks = m.createdUtc.ticks ∧
      Reads readFront (header, encodeUtf8 (m.metadata.getD ""), m.payloadSize) front ∧
      m.serialize = front ++ m.payload.getD [] := by
  have hlen := h
  simp only [Fits, serialize, writeString, List.length_append, length_toLittleEndian] at hlen
  have hticks := m.createdUtc.inRange
  have hheader : Reads readHeader ⟨m.type.code.toNat, m.messageId, m.createdUtc.ticks,
      m.sessionId.toNat, m.userSid.getD ""⟩ (toLittleEndian 4 m.type.code.toNat ++
        (writeString m.messageId ++ (toLittleEndian 8 m.createdUtc.ticks ++
          (toLittleEndian 4 m.sessionId.toNat ++ (writeString (m.userSid.getD "") ++ []))))) := by
    refine Reads.bind (reads_littleEndian m.type.code.toNat_lt) ?_
    refine Reads.bind (reads_string (by omega)) ?_
    refine Reads.bind (reads_littleEndian (by unfold maxTicks at hticks; omega)) ?_
    refine Reads.bind (reads_littleEndian m.sessionId.toNat_lt) ?_
    exact Reads.bind (reads_string (by omega)) (Reads.pure _)
  refine ⟨_, _, rfl, reads_front hheader (by omega) ?_, ?_⟩
  · unfold payloadSize
    omega
  · unfold serialize
    simp only [List.append_assoc, List.append_nil]

/-- **A cut is noticed just when it is before the payload.** -/
theorem deserialize_take_eq_none_iff {m : PipeMessage} {data : Bytes} {k : Nat}
    (h : m.toArray = some data) (hk : k < data.length) :
    deserialize (data.take k) = none ↔ k + m.payloadSize < data.length := by
  obtain ⟨hfits, rfl⟩ := toArray_eq_some.mp h
  obtain ⟨header, front, hticks, hfront, heq⟩ := serialize_eq hfits
  have hlength : m.serialize.length = front.length + m.payloadSize := by
    rw [heq, List.length_append]
    rfl
  by_cases hcut : k < front.length
  · -- before the payload the readers throw
    have hnone : deserialize (m.serialize.take k) = none := by
      rw [Option.eq_none_iff_forall_ne_some]
      intro m' hm'
      obtain ⟨p, rest, hrun, -⟩ := deserialize_eq_some.mp hm'
      rw [heq, List.take_append_of_le_length (by omega), whole_front.cut hfront hcut] at hrun
      cases hrun
    exact iff_of_true hnone (by omega)
  · -- inside it `ReadBytes` takes what there is
    have htake : m.serialize.take k =
        front ++ (m.payload.getD []).take (k - front.length) := by
      rw [heq, List.take_append, List.take_of_length_le (by omega)]
    have hrun := hfront ((m.payload.getD []).take (k - front.length))
    rw [← htake] at hrun
    have hsome := deserialize_eq_some.mpr ⟨_, _, hrun, hticks ▸ m.createdUtc.inRange, rfl⟩
    rw [hsome]
    exact iff_of_false (fun hnone => by cases hnone) (by omega)

/-- **What `Deserialize` notices.**  Of the cuts of a message, those before the payload.  And of a
    buffer that it accepts, metadata and payload are blocks as long as declared just when the
    declared length of the payload is not negative and so many bytes follow. -/
theorem shortened_iff (m : PipeMessage) (data : Bytes) (k : Nat) (buffer : Bytes)
    (m' : PipeMessage) :
    (m.toArray = some data → k < data.length →
      (deserialize (data.take k) = none ↔ k + m.payloadSize < data.length)) ∧
    (deserialize buffer = some m' → (FromBlocks buffer m' ↔ PayloadInside buffer)) :=
  ⟨deserialize_take_eq_none_iff, fromBlocks_iff⟩

/-! ## An image that is cut -/

theorem toArray_sample : sample.toArray = some sample.serialize :=
  toArray_eq_some.mpr ⟨by decide +kernel, rfl⟩

/-- A cut in the header is noticed, and the whole message is of blocks just when its payload is
    inside. -/
theorem shortened_iff_sample : deserialize (sample.serialize.take 10) = none ∧
    (FromBlocks sample.serialize sample.received ↔ PayloadInside sample.serialize) := by
  have hfits : sample.Fits := by decide +kernel
  have h := shortened_iff sample sample.serialize 10 sample.serialize sample.received
  exact ⟨(h.1 toArray_sample (by decide +kernel)).mpr (by decide +kernel),
    h.2 (deserialize_serialize hfits)⟩

/-- Without its last byte the message is accepted, with a payload of two bytes for three. -/
theorem not_rejected_sample : sample.toArray = some sample.serialize ∧
    ∃ k < sample.serialize.length, ∃ m, deserialize (sample.serialize.take k) = some m ∧
      m.payload = some [0x89, 0x50] ∧ ¬ FromBlocks (sample.serialize.take k) m := by
  refine ⟨toArray_sample, sample.serialize.length - 1, by decide +kernel, ?_⟩
  have hpayload : (deserialize (sample.serialize.take (sample.serialize.length - 1))).map
      PipeMessage.payload = some (some [0x89, 0x50]) := by decide +kernel
  have hdeclared : (readFront.run (sample.serialize.take (sample.serialize.length - 1))).map
      (fun p => p.1.2.2) = some 3 := by decide +kernel
  obtain ⟨m, hm, hpayload⟩ := Option.map_eq_some_iff.mp hpayload
  refine ⟨m, hm, hpayload, ?_⟩
  rintro ⟨metadataBlock, payloadBlock, rest, -, hblocks, -, hblock⟩
  obtain ⟨h, hrun⟩ := declares_iff.mp hblocks
  rw [hrun] at hdeclared
  have hthree : payloadBlock.length = 3 := Option.some.inj hdeclared
  have hne : payloadBlock ≠ [] := List.ne_nil_of_length_eq_add_one hthree
  rw [if_neg hne, hpayload] at hblock
  rw [← Option.some.inj hblock] at hthree
  cases hthree

end Ipc.Truncation
