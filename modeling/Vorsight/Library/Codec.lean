/-
  BINARY CODECS: little-endian numbers, length-prefixed texts, and readers that undo writers.

  A `Reader` consumes bytes from the front and may fail.  `Reads r a bs` says that `r` takes exactly
  `bs` for `a`, whatever follows; it composes along `>>=` (`Reads.bind`), so that the round trip of
  a record is the round trips of its fields in order.

  `Whole r` says that `r` never makes do with less at the end of the data: what it reads, it reads
  whatever follows.  A whole reader fails on every cut of what it takes (`Whole.cut`).
-/
import Mathlib.Data.Nat.Digits.Lemmas

namespace Codec

abbrev Bytes := List UInt8

/-- Takes bytes from the front; `none` is an exception. -/
abbrev Reader := StateT Bytes Option

/-- The reader takes these bytes for this value. -/
def Reads {α : Type} (r : Reader α) (a : α) (bs : Bytes) : Prop :=
  ∀ rest, r.run (bs ++ rest) = some (a, rest)

variable {α β : Type}

theorem run_bind_eq_some {r : Reader α} {k : α → Reader β} {bs : Bytes} {p : β × Bytes} :
    (r >>= k).run bs = some p ↔
      ∃ a rest, r.run bs = some (a, rest) ∧ (k a).run rest = some p := by
  rw [StateT.run_bind]
  show (r.run bs).bind _ = _ ↔ _
  rw [Option.bind_eq_some_iff]
  exact Prod.exists

theorem Reads.pure (a : α) : Reads (pure a) a [] := fun _ => rfl

/-- What one reader leaves, the next one takes. -/
theorem Reads.bind {r : Reader α} {k : α → Reader β} {a : α} {b : β} {bs cs : Bytes}
    (hr : Reads r a bs) (hk : Reads (k a) b cs) : Reads (r >>= k) b (bs ++ cs) := by
  intro rest
  rw [StateT.run_bind, List.append_assoc, hr]
  exact hk rest

/-- A reader that ends with a function of what another reads. -/
theorem Reads.map {r : Reader α} {a : α} {bs : Bytes} (f : α → β) (hr : Reads r a bs) :
    Reads (f <$> r) (f a) bs := by
  intro rest
  rw [StateT.run_map, hr]
  rfl

/-! ## Readers that never take less -/

/-- What the reader takes, it takes whatever follows. -/
def Whole (r : Reader α) : Prop :=
  ∀ bs a rest, r.run bs = some (a, rest) → ∃ used, bs = used ++ rest ∧ Reads r a used

theorem Whole.pure (a : α) : Whole (pure a : Reader α) := by
  intro bs a' rest h
  obtain ⟨rfl, rfl⟩ := Prod.mk.inj (Option.some.inj h)
  exact ⟨[], rfl, Reads.pure a⟩

theorem Whole.fail : Whole (failure : Reader α) := by
  intro bs a rest h
  cases h

theorem Whole.bind {r : Reader α} {k : α → Reader β} (hr : Whole r) (hk : ∀ a, Whole (k a)) :
    Whole (r >>= k) := by
  intro bs b rest h
  obtain ⟨a, rest₁, hfirst, hsecond⟩ := run_bind_eq_some.mp h
  obtain ⟨used₁, rfl, hused₁⟩ := hr bs a rest₁ hfirst
  obtain ⟨used₂, rfl, hused₂⟩ := hk a rest₁ b rest hsecond
  exact ⟨used₁ ++ used₂, (List.append_assoc ..).symm, Reads.bind hused₁ hused₂⟩

theorem Whole.map {r : Reader α} (f : α → β) (hr : Whole r) : Whole (f <$> r) := by
  rw [map_eq_pure_bind]
  exact Whole.bind hr fun a => Whole.pure (f a)

/-- **A cut is noticed**: the reader fails on every strict start of what it takes. -/
theorem Whole.cut {r : Reader α} {a : α} {bs : Bytes} {k : Nat} (hr : Whole r) (h : Reads r a bs)
    (hk : k < bs.length) : r.run (bs.take k) = none := by
  cases hcut : r.run (bs.take k) with
  | none => rfl
  | some p =>
    obtain ⟨a', rest⟩ := p
    obtain ⟨used, hused, hreads⟩ := hr _ a' rest hcut
    -- with the missing bytes behind it the same is taken, and they are left over
    have hfull : r.run bs = some (a', rest ++ bs.drop k) := calc
      r.run bs = r.run (bs.take k ++ bs.drop k) := by rw [List.take_append_drop]
      _ = r.run (used ++ (rest ++ bs.drop k)) := by rw [hused, List.append_assoc]
      _ = some (a', rest ++ bs.drop k) := hreads _
    have hall := h []
    rw [List.append_nil, hfull] at hall
    have hleft := (Prod.mk.inj (Option.some.inj hall)).2
    rw [List.append_eq_nil_iff, List.drop_eq_nil_iff] at hleft
    omega

/-! ## Bytes -/

/-- Exactly `n` bytes, or an exception at the end of the data. -/
def readExactly (n : Nat) : Reader Bytes := fun bs =>
  if bs.length < n then none else some (bs.take n, bs.drop n)

/-- Up to `n` bytes: fewer at the end of the data. -/
def readUpTo (n : Nat) : Reader Bytes := fun bs => some (bs.take n, bs.drop n)

theorem reads_exactly (bs : Bytes) : Reads (readExactly bs.length) bs bs := by
  intro rest
  simp [readExactly, StateT.run]

theorem reads_upTo (bs : Bytes) : Reads (readUpTo bs.length) bs bs := by
  intro rest
  simp [readUpTo, StateT.run]

theorem whole_exactly (n : Nat) : Whole (readExactly n) := by
  intro bs a rest h
  unfold readExactly at h
  rw [StateT.run] at h
  split at h
  · cases h
  · rename_i hlen
    obtain ⟨rfl, rfl⟩ := Prod.mk.inj (Option.some.inj h)
    have hreads := reads_exactly (bs.take n)
    rw [List.length_take, Nat.min_eq_left (by omega)] at hreads
    exact ⟨bs.take n, (List.take_append_drop n bs).symm, hreads⟩

/-- Bytes that end early are noticed by a reader behind them that needs some. -/
theorem whole_upTo_bind (n : Nat) {r : Reader α} (hr : Whole r) (hnil : r.run [] = none) :
    Whole (do let bs ← readUpTo n; let a ← r; pure (bs, a)) := by
  intro bs p rest h
  obtain ⟨block, rest₁, hblock, h⟩ := run_bind_eq_some.mp h
  obtain ⟨rfl, rfl⟩ := Prod.mk.inj (Option.some.inj hblock)
  obtain ⟨a, rest₂, ha, h⟩ := run_bind_eq_some.mp h
  obtain ⟨rfl, rfl⟩ := Prod.mk.inj (Option.some.inj h)
  have hlen : n ≤ bs.length := by
    by_contra hshort
    rw [List.drop_eq_nil_of_le (by omega), hnil] at ha
    cases ha
  obtain ⟨used, hused, hreads⟩ := hr _ a rest₂ ha
  have hupTo := reads_upTo (bs.take n)
  rw [List.length_take, Nat.min_eq_left hlen] at hupTo
  refine ⟨bs.take n ++ used, ?_, ?_⟩
  · rw [List.append_assoc, ← hused, List.take_append_drop]
  · have hboth := Reads.bind (k := fun a => pure (bs.take n, a)) hreads (Reads.pure (bs.take n, a))
    rw [List.append_nil] at hboth
    exact Reads.bind hupTo hboth

/-! ## Little-endian numbers -/

/-- The lowest `width` bytes of a number, the lowest first. -/
def toLittleEndian : Nat → Nat → Bytes
  | 0, _ => []
  | width + 1, n => UInt8.ofNat n :: toLittleEndian width (n / 256)

/-- The number of little-endian bytes. -/
def ofLittleEndian : Bytes → Nat
  | [] => 0
  | b :: bs => b.toNat + 256 * ofLittleEndian bs

@[simp] theorem length_toLittleEndian : ∀ width n : Nat, (toLittleEndian width n).length = width
  | 0, _ => rfl
  | width + 1, n => by rw [toLittleEndian, List.length_cons, length_toLittleEndian width]

theorem ofLittleEndian_toLittleEndian :
    ∀ width n : Nat, ofLittleEndian (toLittleEndian width n) = n % 256 ^ width
  | 0, n => by simp [toLittleEndian, ofLittleEndian, Nat.mod_one]
  | width + 1, n => by
    rw [toLittleEndian, ofLittleEndian, ofLittleEndian_toLittleEndian width, UInt8.toNat_ofNat']
    exact (Nat.pow_succ' ▸ Nat.mod_mul).symm

theorem ofLittleEndian_lt : ∀ bs : Bytes, ofLittleEndian bs < 256 ^ bs.length
  | [] => by simp [ofLittleEndian]
  | b :: bs => by
    have hb : b.toNat < 256 := b.toNat_lt
    have hbs := ofLittleEndian_lt bs
    rw [ofLittleEndian, List.length_cons, Nat.pow_succ']
    omega

theorem toLittleEndian_ofLittleEndian :
    ∀ bs : Bytes, toLittleEndian bs.length (ofLittleEndian bs) = bs
  | [] => rfl
  | b :: bs => by
    have hb : b.toNat < 256 := b.toNat_lt
    have hlow : UInt8.ofNat (b.toNat + 256 * ofLittleEndian bs) = b := by
      rw [← UInt8.toNat_inj, UInt8.toNat_ofNat']
      omega
    have hhigh : (b.toNat + 256 * ofLittleEndian bs) / 256 = ofLittleEndian bs := by omega
    rw [ofLittleEndian, List.length_cons, toLittleEndian, hlow, hhigh,
      toLittleEndian_ofLittleEndian bs]

/-- A little-endian number of `width` bytes. -/
def readLittleEndian (width : Nat) : Reader Nat := ofLittleEndian <$> readExactly width

theorem reads_littleEndian {width n : Nat} (h : n < 256 ^ width) :
    Reads (readLittleEndian width) n (toLittleEndian width n) := by
  have hread := Reads.map ofLittleEndian (reads_exactly (toLittleEndian width n))
  rwa [length_toLittleEndian, ofLittleEndian_toLittleEndian, Nat.mod_eq_of_lt h] at hread

theorem whole_littleEndian (width : Nat) : Whole (readLittleEndian width) :=
  Whole.map ofLittleEndian (whole_exactly width)

/-- A number that is read stands in the data. -/
theorem eq_of_readLittleEndian {width n : Nat} {bs rest : Bytes}
    (h : (readLittleEndian width).run bs = some (n, rest)) :
    n < 256 ^ width ∧ bs = toLittleEndian width n ++ rest := by
  unfold readLittleEndian at h
  rw [StateT.run_map] at h
  obtain ⟨⟨used, rest'⟩, hused, hpair⟩ := Option.map_eq_some_iff.mp h
  obtain ⟨rfl, rfl⟩ := Prod.mk.inj hpair
  unfold readExactly at hused
  rw [StateT.run] at hused
  split at hused
  · cases hused
  · rename_i hlen
    obtain ⟨rfl, rfl⟩ := Prod.mk.inj (Option.some.inj hused)
    have hwidth : (bs.take width).length = width := by
      rw [List.length_take]
      omega
    have hlt := ofLittleEndian_lt (bs.take width)
    have hcanonical := toLittleEndian_ofLittleEndian (bs.take width)
    rw [hwidth] at hlt hcanonical
    exact ⟨hlt, by rw [hcanonical, List.take_append_drop]⟩

/-! ## Numbers in groups of seven bits

The highest bit of each byte says that another one follows; `groups` bounds their number. -/

def toSevenBit : Nat → Nat → Bytes
  | 0, _ => []
  | groups + 1, n =>
    if n < 128 then [UInt8.ofNat n]
    else UInt8.ofNat (n % 128 + 128) :: toSevenBit groups (n / 128)

/-- Of the last byte only the values below `last` are taken. -/
def readSevenBit (last : Nat) : Nat → Reader Nat
  | 0 => fun _ => none
  | groups + 1 => fun bs => match bs with
    | [] => none
    | b :: rest =>
      if b.toNat < 128 then if groups = 0 ∧ last ≤ b.toNat then none else some (b.toNat, rest)
      else (readSevenBit last groups rest).map fun (n, rest) => (b.toNat - 128 + 128 * n, rest)

theorem reads_sevenBit {last : Nat} (hlast : last ≤ 128) :
    ∀ {groups n : Nat}, n < 128 ^ groups * last →
      Reads (readSevenBit last (groups + 1)) n (toSevenBit (groups + 1) n)
  | 0, n, h => by
    have hn : n < last := by simpa using h
    have hbyte : (UInt8.ofNat n).toNat = n := by rw [UInt8.toNat_ofNat']; omega
    intro rest
    rw [toSevenBit, if_pos (by omega)]
    simp [readSevenBit, StateT.run, hbyte, hn]
    omega
  | groups + 1, n, h => by
    intro rest
    rw [toSevenBit]
    split
    · rename_i hn
      have hbyte : (UInt8.ofNat n).toNat = n := by rw [UInt8.toNat_ofNat']; omega
      simp [readSevenBit, StateT.run, hbyte, hn]
    · rename_i hn
      have hbyte : (UInt8.ofNat (n % 128 + 128)).toNat = n % 128 + 128 := by
        rw [UInt8.toNat_ofNat']; omega
      have hdiv : n / 128 < 128 ^ groups * last := by
        rw [Nat.div_lt_iff_lt_mul (by omega)]
        calc n < 128 ^ (groups + 1) * last := h
          _ = 128 ^ groups * last * 128 := by ring
      have ih := reads_sevenBit hlast hdiv rest
      rw [StateT.run] at ih
      rw [StateT.run, List.cons_append, readSevenBit]
      simp only [hbyte]
      rw [if_neg (by omega), ih, Option.map_some]
      congr 2
      omega

theorem whole_sevenBit (last : Nat) : ∀ groups : Nat, Whole (readSevenBit last groups)
  | 0 => fun _ _ _ h => by cases h
  | groups + 1 => by
    intro bs n rest h
    rw [StateT.run] at h
    cases bs with
    | nil => cases h
    | cons b bs =>
      rw [readSevenBit] at h
      simp only at h
      split at h
      · rename_i hlow
        split at h
        · cases h
        · rename_i hlast
          obtain ⟨rfl, rfl⟩ := Prod.mk.inj (Option.some.inj h)
          refine ⟨[b], rfl, fun rest => ?_⟩
          rw [StateT.run, List.singleton_append, readSevenBit]
          simp only
          rw [if_pos hlow, if_neg hlast]
      · rename_i hhigh
        obtain ⟨⟨m, rest'⟩, hm, hpair⟩ := Option.map_eq_some_iff.mp h
        obtain ⟨rfl, rfl⟩ := Prod.mk.inj hpair
        obtain ⟨used, rfl, hreads⟩ := whole_sevenBit last groups bs m rest' hm
        refine ⟨b :: used, rfl, fun rest => ?_⟩
        have hrest := hreads rest
        rw [StateT.run] at hrest
        rw [StateT.run, List.cons_append, readSevenBit]
        simp only
        rw [if_neg hhigh, hrest, Option.map_some]

/-! ## Text -/

/-- The UTF-8 bytes of a text. -/
def encodeUtf8 (text : String) : Bytes := text.toList.flatMap String.utf8EncodeChar

/-- Whether a byte may be the second one of a character of three or four bytes. -/
def isSecond (first second : UInt8) : Bool :=
  match first.toNat with
  | 0xe0 => 0xa0 ≤ second && second ≤ 0xbf
  | 0xed => 0x80 ≤ second && second ≤ 0x9f
  | 0xf0 => 0x90 ≤ second && second ≤ 0xbf
  | 0xf4 => 0x80 ≤ second && second ≤ 0x8f
  | _ => 0xe0 ≤ first && first ≤ 0xf4 && 0x80 ≤ second && second ≤ 0xbf

/-- How many bytes one replacement character stands for, where no character starts: the longest
    start of a character, or one byte. -/
def malformedLength : Bytes → Nat
  | first :: second :: rest =>
    if isSecond first second then
      match rest with
      | third :: _ => if 0xf0 ≤ first && 0x80 ≤ third && third ≤ 0xbf then 3 else 2
      | [] => 2
    else 1
  | _ => 1

/-- The characters of at most `fuel` pieces of the data. -/
def decodeChars : Nat → Bytes → List Char
  | 0, _ => []
  | _, [] => []
  | fuel + 1, bs => match bs.toByteArray.utf8DecodeChar? 0 with
    | some c => c :: decodeChars fuel (bs.drop c.utf8Size)
    | none => '\ufffd' :: decodeChars fuel (bs.drop (malformedLength bs))

/-- The text of UTF-8 bytes, with replacement characters for what is malformed. -/
def decodeUtf8 (bs : Bytes) : String := .ofList (decodeChars bs.length bs)

theorem decodeChars_encode :
    ∀ {cs : List Char} {fuel : Nat}, (cs.flatMap String.utf8EncodeChar).length ≤ fuel →
      decodeChars fuel (cs.flatMap String.utf8EncodeChar) = cs
  | [], fuel, _ => by cases fuel <;> rfl
  | c :: cs, 0, h => by
    have hpos := Char.utf8Size_pos c
    simp only [List.flatMap_cons, List.length_append, String.length_utf8EncodeChar] at h
    omega
  | c :: cs, fuel + 1, h => by
    have hpos := Char.utf8Size_pos c
    have hchar : ((c :: cs).flatMap String.utf8EncodeChar).toByteArray.utf8DecodeChar? 0 =
        some c := List.utf8DecodeChar?_utf8Encode_cons
    have hdrop : ((c :: cs).flatMap String.utf8EncodeChar).drop c.utf8Size =
        cs.flatMap String.utf8EncodeChar := by
      rw [List.flatMap_cons, ← String.length_utf8EncodeChar, List.drop_left]
    simp only [List.flatMap_cons, List.length_append, String.length_utf8EncodeChar] at h
    rw [decodeChars, hchar]
    · simp only [hdrop]
      rw [decodeChars_encode (by omega)]
    · intro hnil
      have hlen := congrArg List.length hnil
      simp only [List.flatMap_cons, List.length_append, String.length_utf8EncodeChar,
        List.length_nil] at hlen
      omega

theorem decodeUtf8_encodeUtf8 (text : String) : decodeUtf8 (encodeUtf8 text) = text := by
  rw [decodeUtf8, encodeUtf8, decodeChars_encode (Nat.le_refl _), String.ofList_toList]

/-- A text behind the number of its bytes in groups of seven bits. -/
def writeString (text : String) : Bytes :=
  toSevenBit 5 (encodeUtf8 text).length ++ encodeUtf8 text

/-- The number is an `Int32`, and a negative one is an exception. -/
def readString : Reader String := do
  let length ← readSevenBit 16 5
  if 2 ^ 31 ≤ length then failure
  decodeUtf8 <$> readExactly length

theorem reads_string {text : String} (h : (encodeUtf8 text).length < 2 ^ 31) :
    Reads readString text (writeString text) := by
  refine Reads.bind (reads_sevenBit (by omega) (by omega)) ?_
  rw [if_neg (by omega)]
  have hread := Reads.map decodeUtf8 (reads_exactly (encodeUtf8 text))
  rw [decodeUtf8_encodeUtf8] at hread
  exact hread

theorem whole_string : Whole readString := by
  refine Whole.bind (whole_sevenBit 16 5) fun length => ?_
  split
  · exact Whole.bind Whole.fail fun _ => Whole.map decodeUtf8 (whole_exactly length)
  · exact Whole.map decodeUtf8 (whole_exactly length)

end Codec
