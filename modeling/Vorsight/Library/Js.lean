/-
  JAVASCRIPT VALUES: `parseInt`, `includes`, JSON values, and objects with object spread.

  An object is a partial function from keys.
  `{...a, ...b}` takes every key of `b` from `b` and the others from `a`.  Key order, the only thing
  lost by this reading, is not observed by any of the operations here.  `spreadAll a bs` spreads a
  whole list over `a`, one after the other: at each key the LAST object that has the key decides,
  and `a` only where none has it (`spreadAll_of_absent`, `spreadAll_of_present`).
-/

namespace Js

/-! ## `parseInt` -/

/-- The characters `parseInt` skips at the front of a text. -/
def isWhitespace (c : Char) : Bool :=
  c ∈ ['\t', '\n', '\x0b', '\x0c', '\r', ' ', '\u00a0', '\u1680', '\u2028', '\u2029', '\u202f',
    '\u205f', '\u3000', '\ufeff'] || ('\u2000' ≤ c && c ≤ '\u200a')

/-- The value of a character as a digit, below `radix`. -/
def digitValue (radix : Nat) (c : Char) : Option Nat :=
  let value :=
    if '0' ≤ c ∧ c ≤ '9' then some (c.toNat - '0'.toNat)
    else if 'a' ≤ c ∧ c ≤ 'z' then some (c.toNat - 'a'.toNat + 10)
    else if 'A' ≤ c ∧ c ≤ 'Z' then some (c.toNat - 'A'.toNat + 10)
    else none
  value.filter (· < radix)

/-- The digits at the front of a text. -/
def leadingDigits (radix : Nat) : List Char → List Nat
  | [] => []
  | c :: cs => match digitValue radix c with
      | some d => d :: leadingDigits radix cs
      | none => []

/-- `parseInt(text)`; `none` is `NaN`. -/
def parseInt (text : String) : Option Int :=
  let cs := text.toList.dropWhile isWhitespace
  let (negative, cs) := match cs with
    | '-' :: rest => (true, rest)
    | '+' :: rest => (false, rest)
    | _ => (false, cs)
  let (radix, cs) := match cs with
    | '0' :: 'x' :: rest => (16, rest)
    | '0' :: 'X' :: rest => (16, rest)
    | _ => (10, cs)
  match leadingDigits radix cs with
  | [] => none
  | ds =>
      let n : Nat := ds.foldl (fun n d => n * radix + d) 0
      some (if negative then -n else n)

example : parseInt " 20px" = some 20 := by decide
example : parseInt "-0x1F" = some (-31) := by decide
example : parseInt "all" = none := by decide

theorem digit_range {c : Char} (h : c.isDigit = true) : '0' ≤ c ∧ c ≤ '9' := by
  rw [Char.isDigit, Bool.and_eq_true, decide_eq_true_eq, decide_eq_true_eq] at h
  exact h

theorem isWhitespace_digit {c : Char} (h : c.isDigit = true) : isWhitespace c = false := by
  obtain ⟨-, hle⟩ := digit_range h
  rw [isWhitespace, Bool.or_eq_false_iff]
  constructor
  · rw [decide_eq_false_iff_not]
    intro hmem
    have hnone : ∀ d ∈ ['\t', '\n', '\x0b', '\x0c', '\r', ' ', '\u00a0', '\u1680', '\u2028',
        '\u2029', '\u202f', '\u205f', '\u3000', '\ufeff'], d.isDigit = false := by
      simp only [List.forall_mem_cons, List.not_mem_nil, false_implies, implies_true, and_true]
      decide
    rw [hnone c hmem] at h
    cases h
  · rw [Bool.and_eq_false_iff, decide_eq_false_iff_not]
    refine Or.inl fun hlow => ?_
    exact absurd (Char.le_trans hlow hle) (by decide)

theorem digitValue_digit {c : Char} (h : c.isDigit = true) :
    digitValue 10 c = some (c.toNat - '0'.toNat) := by
  obtain ⟨hlow, hle⟩ := digit_range h
  have hnat : c.toNat ≤ '9'.toNat := hle
  have hlt : c.toNat - '0'.toNat < 10 := by
    show c.toNat - 48 < 10
    have : c.toNat ≤ 57 := hnat
    omega
  simp only [digitValue, if_pos (And.intro hlow hle), Option.filter_some, decide_eq_true hlt,
    if_true]

theorem leadingDigits_digits : ∀ {cs : List Char}, (∀ c ∈ cs, c.isDigit = true) →
    leadingDigits 10 cs = cs.map fun c => c.toNat - '0'.toNat
  | [], _ => rfl
  | c :: cs, h => by
    have hrest := leadingDigits_digits fun d hd => h d (List.mem_cons_of_mem c hd)
    rw [leadingDigits, digitValue_digit (h c List.mem_cons_self), List.map_cons, ← hrest]

/-- **A text of digits** is read as its number. -/
theorem parseInt_digits {cs : List Char} (hne : cs ≠ []) (h : ∀ c ∈ cs, c.isDigit = true) :
    parseInt (String.ofList cs) = some ((Nat.ofDigitChars 10 cs 0 : Nat) : Int) := by
  obtain ⟨c, rest, rfl⟩ := List.exists_cons_of_ne_nil hne
  have hc := h c List.mem_cons_self
  have hminus : c ≠ '-' := by
    rintro rfl
    exact absurd hc (by decide)
  have hplus : c ≠ '+' := by
    rintro rfl
    exact absurd hc (by decide)
  have hx : ∀ tail, c :: rest ≠ '0' :: 'x' :: tail := by
    intro tail heq
    have hmem : 'x' ∈ c :: rest := by simp [heq]
    exact absurd (h 'x' hmem) (by decide)
  have hX : ∀ tail, c :: rest ≠ '0' :: 'X' :: tail := by
    intro tail heq
    have hmem : 'X' ∈ c :: rest := by simp [heq]
    exact absurd (h 'X' hmem) (by decide)
  have hdrop : (c :: rest).dropWhile isWhitespace = c :: rest := by
    rw [List.dropWhile_cons, isWhitespace_digit hc]
    rfl
  unfold parseInt
  rw [String.toList_ofList, hdrop]
  have hsign : (match c :: rest with
      | '-' :: rest => (true, rest)
      | '+' :: rest => (false, rest)
      | _ => (false, c :: rest)) = (false, c :: rest) := by
    split
    · rename_i heq
      exact absurd (List.cons.inj heq).1 hminus
    · rename_i heq
      exact absurd (List.cons.inj heq).1 hplus
    · rfl
  have hradix : (match c :: rest with
      | '0' :: 'x' :: rest => (16, rest)
      | '0' :: 'X' :: rest => (16, rest)
      | _ => (10, c :: rest)) = (10, c :: rest) := by
    split
    · rename_i heq
      exact absurd heq (hx _)
    · rename_i heq
      exact absurd heq (hX _)
    · rfl
  dsimp only
  rw [hsign]
  dsimp only
  rw [hradix, leadingDigits_digits h, List.map_cons]
  simp [Nat.ofDigitChars_eq_foldl, List.foldl_map, Nat.mul_comm]

theorem parseInt_toString (n : Nat) : parseInt (toString n) = some (n : Int) := by
  have hne : Nat.toDigits 10 n ≠ [] := List.ne_nil_of_length_pos Nat.length_toDigits_pos
  rw [show toString n = String.ofList (Nat.toDigits 10 n) from Nat.repr_eq_ofList_toDigits,
    parseInt_digits hne fun c hc => Nat.isDigit_of_mem_toDigits (by decide) (by decide) hc,
    Nat.ofDigitChars_toDigits (by decide) (by decide)]

/-! ## `Number` -/

/-- `Number(text)` of decimal digits; `none`, `NaN`, for other texts. -/
def number (text : List Char) : Option Int :=
  let ds := leadingDigits 10 text
  if ds.length = text.length then some (ds.foldl (fun n d => n * 10 + d) 0 : Nat) else none

/-- `a <= b`, which is false when one of them is `NaN`. -/
def le (a b : Option Int) : Bool :=
  match a, b with
  | some a, some b => a ≤ b
  | _, _ => false

/-- `a < b` -/
def lt (a b : Option Int) : Bool :=
  match a, b with
  | some a, some b => a < b
  | _, _ => false

/-- `text || other` -/
def textOr : Option String → String → String
  | none, other | some "", other => other
  | some text, _ => text

/-! ## `includes` -/

/-- The characters of `part` follow one another somewhere in the text. -/
def includesChars (part : List Char) : List Char → Bool
  | [] => part.isEmpty
  | c :: cs => part.isPrefixOf (c :: cs) || includesChars part cs

/-- `text.includes(part)` -/
def includes (text part : String) : Bool := includesChars part.toList text.toList

example : includes "error: invalid_grant (400)" "invalid_grant" = true := by decide
example : includes "invalid grant" "invalid_grant" = false := by decide

/-! ## Values -/

/-- A JSON value.  `dec m p` is the number `m / 10 ^ p` when that is no integer. -/
inductive Json
  | null
  | bool (b : Bool)
  | num (n : Int)
  | dec (mantissa : Int) (places : Nat)
  | str (s : String)
  | arr (items : List Json)
  | obj (fields : List (String × Json))

/-- A value at run time: JSON, or `undefined`. -/
abbrev Value := Option Json

/-- What `if (v)` tests. -/
def truthy : Value → Bool
  | none => false
  | some .null => false
  | some (.bool b) => b
  | some (.num n) => n ≠ 0
  | some (.str s) => s ≠ ""
  | some (.dec ..) | some (.arr _) | some (.obj _) => true

/-- `a || b`. -/
def firstTruthy (a b : Value) : Value := if truthy a then a else b

/-- `v.key`; `none` is the `TypeError` on `undefined` and `null`. -/
def prop (v : Value) (key : String) : Option Value :=
  match v with
  | none => none
  | some .null => none
  | some (.obj fields) => some (fields.lookup key)
  | some _ => some none

/-- `a === v` for a nullable text `a`. -/
def strictEq (a : Option String) (v : Value) : Bool :=
  match a, v with
  | none, some .null => true
  | some s, some (.str s') => s = s'
  | _, _ => false

/-- `n + v` for an integer `n`, where the sum is an integer again. -/
def addInt (n : Int) (v : Value) : Option Int :=
  match v with
  | some (.num m) => some (n + m)
  | some .null => some n
  | some (.bool b) => some (n + b.toNat)
  | _ => none

/-! ## Objects -/

/-- An object: the value at each key it has. -/
def Obj (V : Type) : Type := String → Option V

namespace Obj

variable {V : Type}

@[ext] theorem ext {a b : Obj V} (h : ∀ k, a k = b k) : a = b := funext h

/-- `{}`. -/
def empty : Obj V := fun _ => none

/-- An object with the listed fields; the first of two fields with one key counts. -/
def ofList (fields : List (String × V)) : Obj V := fun k => fields.lookup k

/-- `{...a, ...b}`. -/
def spread (a b : Obj V) : Obj V := fun k => (b k).or (a k)

/-- `{...a, ...b₁, ...b₂, …}`. -/
def spreadAll (a : Obj V) (bs : List (Obj V)) : Obj V := bs.foldl spread a

@[simp] theorem spread_apply (a b : Obj V) (k : String) : spread a b k = (b k).or (a k) := rfl

@[simp] theorem spreadAll_nil (a : Obj V) : spreadAll a [] = a := rfl

@[simp] theorem spreadAll_cons (a b : Obj V) (bs : List (Obj V)) :
    spreadAll a (b :: bs) = spreadAll (spread a b) bs := rfl

theorem spreadAll_append (a : Obj V) (bs cs : List (Obj V)) :
    spreadAll a (bs ++ cs) = spreadAll (spreadAll a bs) cs := List.foldl_append

/-- A key that none of the objects has keeps its value. -/
theorem spreadAll_of_absent {k : String} :
    ∀ {bs : List (Obj V)} {a : Obj V}, (∀ b ∈ bs, b k = none) → spreadAll a bs k = a k
  | [], _, _ => rfl
  | b :: bs, a, h => by
    rw [spreadAll_cons, spreadAll_of_absent fun c hc => h c (List.mem_cons_of_mem b hc),
      spread_apply, h b List.mem_cons_self, Option.none_or]

/-- At a key that one of the objects has, the object spread over does not matter. -/
theorem spreadAll_of_present {k : String} :
    ∀ {bs : List (Obj V)} {a a' : Obj V}, (∃ b ∈ bs, b k ≠ none) →
      spreadAll a bs k = spreadAll a' bs k
  | [], _, _, h => by obtain ⟨b, hb, -⟩ := h; exact absurd hb List.not_mem_nil
  | c :: bs, a, a', h => by
    by_cases hrest : ∃ b ∈ bs, b k ≠ none
    · rw [spreadAll_cons, spreadAll_cons]
      exact spreadAll_of_present hrest
    · have habs : ∀ b ∈ bs, b k = none := by
        intro b hb
        by_cases hbk : b k = none
        · exact hbk
        · exact absurd ⟨b, hb, hbk⟩ hrest
      obtain ⟨b, hb, hbk⟩ := h
      have hck : c k ≠ none := by
        rcases List.mem_cons.mp hb with rfl | hb
        · exact hbk
        · exact absurd (habs b hb) hbk
      rw [spreadAll_cons, spreadAll_cons, spreadAll_of_absent habs, spreadAll_of_absent habs,
        spread_apply, spread_apply]
      cases hc : c k with
      | none => exact absurd hc hck
      | some v => rfl

/-- Objects without a key can be dropped from the list as far as that key goes. -/
theorem spreadAll_filter {ι : Type} {f : ι → Obj V} {p : ι → Bool} {k : String} :
    ∀ {is : List ι} {a : Obj V}, (∀ i ∈ is, p i = false → f i k = none) →
      spreadAll a ((is.filter p).map f) k = spreadAll a (is.map f) k
  | [], _, _ => rfl
  | i :: is, a, h => by
    have hrest : ∀ j ∈ is, p j = false → f j k = none :=
      fun j hj => h j (List.mem_cons_of_mem i hj)
    cases hp : p i with
    | true =>
      rw [List.filter_cons_of_pos hp, List.map_cons, List.map_cons, spreadAll_cons, spreadAll_cons,
        spreadAll_filter hrest]
    | false =>
      rw [List.filter_cons_of_neg (by simp [hp]), List.map_cons, spreadAll_cons,
        spreadAll_filter hrest]
      by_cases hpres : ∃ b ∈ is.map f, b k ≠ none
      · exact spreadAll_of_present hpres
      · have habs : ∀ b ∈ is.map f, b k = none := by
          intro b hb
          by_cases hbk : b k = none
          · exact hbk
          · exact absurd ⟨b, hb, hbk⟩ hpres
        rw [spreadAll_of_absent habs, spreadAll_of_absent habs, spread_apply,
          h i List.mem_cons_self hp, Option.none_or]

end Obj

end Js
