/-
  COMMAND LINES, AS WINDOWS PROGRAMS SPLIT THEM.

  A program gets its command line as one text, and its C runtime cuts that into arguments:

  * blanks outside quotes end an argument; a quote opens or closes;
  * two quotes inside quotes are one quote of the text, and the quotes stay open;
  * backslashes are as they are, unless a quote follows: then each two are one, and an odd one
    makes the quote one of the text.

  `scan` reads one argument and leaves the rest, `arguments` reads them all, and the name of the
  program at the front has rules of its own.

  A text that is only put in quotes is read back as it was in exactly the cases of
  `scan_quoted_iff`; every quote in it costs a character (`length_scan`).
-/
import Mathlib.Data.List.Basic

namespace CommandLine

def isBlank (c : Char) : Bool := c = ' ' || c = '\t'

/-- Outside quotes, inside, or after a quote that closes them unless another one follows. -/
inductive Mode
  | outside
  | inside
  | closing
deriving DecidableEq

/-- The mode for a character that is no quote. -/
def Mode.settle : Mode → Mode
  | .closing => .outside
  | mode => mode

/-- The mode after a quote that is none of the text. -/
def Mode.quote : Mode → Mode
  | .inside => .closing
  | _ => .inside

def backslashes (n : Nat) : List Char := List.replicate n '\\'

/-- An argument with more text in front. -/
def push (text : List Char) (r : List Char × List Char) : List Char × List Char :=
  (text ++ r.1, r.2)

/-- One argument, after `slashes` backslashes: its text, and what is left of the line. -/
def scan : Mode → (slashes : Nat) → List Char → List Char × List Char
  | _, slashes, [] => (backslashes slashes, [])
  | mode, slashes, c :: cs =>
    if c = '"' then
      if mode = .closing then push ['"'] (scan .inside 0 cs)
      else if slashes % 2 = 1 then push (backslashes (slashes / 2) ++ ['"']) (scan mode 0 cs)
      else push (backslashes (slashes / 2)) (scan mode.quote 0 cs)
    else if c = '\\' then scan mode.settle (slashes + 1) cs
    else if mode.settle = .outside ∧ isBlank c then (backslashes slashes, c :: cs)
    else push (backslashes slashes ++ [c]) (scan mode.settle 0 cs)

variable {mode : Mode} {n : Nat} {c d : Char} {cs text : List Char}

theorem length_rest_le (mode : Mode) (slashes : Nat) (cs : List Char) :
    (scan mode slashes cs).2.length ≤ cs.length := by
  fun_induction scan mode slashes cs <;> simp_all [push] <;> omega

theorem length_rest_lt (h : isBlank c = false) :
    (scan .outside 0 (c :: cs)).2.length < (c :: cs).length := by
  have hle := fun mode slashes => length_rest_le mode slashes cs
  unfold scan
  rw [List.length_cons]
  split
  · split
    · exact Nat.lt_succ_of_le (hle _ _)
    · split
      · exact Nat.lt_succ_of_le (hle _ _)
      · exact Nat.lt_succ_of_le (hle _ _)
  · split
    · exact Nat.lt_succ_of_le (hle _ _)
    · rw [if_neg (by simp [h])]
      exact Nat.lt_succ_of_le (hle _ _)

/-- The arguments of a line. -/
def arguments (cs : List Char) : List (List Char) :=
  match cs with
  | [] => []
  | c :: cs =>
    if isBlank c then arguments cs
    else (scan .outside 0 (c :: cs)).1 :: arguments (scan .outside 0 (c :: cs)).2
termination_by cs.length
decreasing_by
  · exact Nat.lt_succ_self cs.length
  · exact length_rest_lt (Bool.eq_false_iff.mpr ‹_›)

theorem arguments_blank (h : isBlank c = true) : arguments (c :: cs) = arguments cs := by
  rw [arguments, if_pos h]

theorem arguments_cons (h : isBlank c = false) : arguments (c :: cs) =
    (scan .outside 0 (c :: cs)).1 :: arguments (scan .outside 0 (c :: cs)).2 := by
  rw [arguments, if_neg (by simp [h])]

/-- What follows the name of the program, in which backslashes are as they are. -/
def afterProgram : (quoted : Bool) → List Char → List Char
  | _, [] => []
  | quoted, c :: cs =>
    if c = '"' then afterProgram (!quoted) cs
    else if !quoted && isBlank c then cs
    else afterProgram quoted cs

/-- The arguments that a program is started with. -/
def split (line : List Char) : List (List Char) := arguments (afterProgram false line)

/-! ## One character -/

theorem backslashes_succ (n : Nat) (text : List Char) :
    backslashes n ++ '\\' :: text = backslashes (n + 1) ++ text := by
  rw [backslashes, backslashes, List.replicate_succ', List.append_assoc]
  rfl

theorem scan_backslash : scan mode n ('\\' :: cs) = scan mode.settle (n + 1) cs := rfl

/-- A character that is neither a quote nor a backslash, inside quotes. -/
theorem scan_inside (hquote : c ≠ '"') (hslash : c ≠ '\\') :
    scan .inside n (c :: cs) = push (backslashes n ++ [c]) (scan .inside 0 cs) := by
  rw [scan, if_neg hquote, if_neg hslash, if_neg fun h => by cases h.1]
  rfl

/-- A character that is neither a quote, a backslash nor a blank. -/
def isOrdinary (c : Char) : Bool := c ≠ '"' && c ≠ '\\' && !isBlank c

theorem scan_ordinary (h : isOrdinary c = true) :
    scan mode n (c :: cs) = push (backslashes n ++ [c]) (scan mode.settle 0 cs) := by
  simp only [isOrdinary, Bool.and_eq_true, decide_eq_true_eq, Bool.not_eq_true'] at h
  obtain ⟨⟨hquote, hslash⟩, hblank⟩ := h
  rw [scan, if_neg hquote, if_neg hslash, if_neg (by simp [hblank])]

/-- A quote after an odd number of backslashes. -/
theorem scan_quote_odd (hmode : mode ≠ .closing) (hodd : n % 2 = 1) :
    scan mode n ('"' :: cs) = push (backslashes (n / 2) ++ ['"']) (scan mode 0 cs) := by
  rw [scan, if_pos rfl, if_neg hmode, if_pos hodd]

/-- A quote after an even number of backslashes. -/
theorem scan_quote_even (hmode : mode ≠ .closing) (heven : n % 2 = 0) :
    scan mode n ('"' :: cs) = push (backslashes (n / 2)) (scan mode.quote 0 cs) := by
  rw [scan, if_pos rfl, if_neg hmode, if_neg (by omega)]

/-- A closing quote that no quote follows has closed. -/
theorem scan_closing (hquote : c ≠ '"') :
    scan .closing n (c :: cs) = scan .outside n (c :: cs) := by
  rw [scan, scan, if_neg hquote, if_neg hquote]
  rfl

/-! ## What is lost -/

@[simp] theorem length_backslashes (n : Nat) : (backslashes n).length = n := List.length_replicate

theorem push_push (text text' : List Char) (r : List Char × List Char) :
    push text (push text' r) = push (text ++ text') r := by
  rw [push, push, push, List.append_assoc]

theorem inside_ne : Mode.inside ≠ .closing := nofun

theorem Mode.settle_ne (mode : Mode) : mode.settle ≠ .closing := by cases mode <;> decide

theorem Mode.settle_settle (mode : Mode) : mode.settle.settle = mode.settle := by cases mode <;> rfl

/-- How much of a text in front has been read: some characters, and backslashes that are pending. -/
structure Taken (mode : Mode) (n : Nat) (text read : List Char) (pending : Nat) : Prop where
  length : read.length + pending ≤ n + text.length
  loses : mode ≠ .closing → '"' ∈ text → read.length + pending < n + text.length
  mem : ∀ x ∈ read, x ∈ text ∨ x = '\\'

/-- A quotation mark never ends the argument. -/
theorem scan_quote (mode : Mode) (n : Nat) :
    ∃ read mode' pending, (∀ cs, scan mode n ('"' :: cs) = push read (scan mode' pending cs)) ∧
      Taken mode n ['"'] read pending := by
  by_cases hmode : mode = .closing
  · subst hmode
    refine ⟨['"'], .inside, 0, fun cs => rfl, ?_, fun h => absurd rfl h, ?_⟩
    · simp
    · simp
  by_cases hodd : n % 2 = 1
  · refine ⟨backslashes (n / 2) ++ ['"'], mode, 0, fun cs => scan_quote_odd hmode hodd, ?_,
      fun _ _ => ?_, ?_⟩
    · simp only [List.length_append, length_backslashes, List.length_singleton]
      omega
    · simp only [List.length_append, length_backslashes, List.length_singleton]
      omega
    · intro x hx
      rcases List.mem_append.mp hx with hx | hx
      · exact .inr (List.eq_of_mem_replicate hx)
      · exact .inl hx
  · refine ⟨backslashes (n / 2), mode.quote, 0, fun cs => scan_quote_even hmode (by omega), ?_,
      fun _ _ => ?_, ?_⟩
    · simp only [length_backslashes, List.length_singleton]
      omega
    · simp only [length_backslashes, List.length_singleton]
      omega
    · exact fun x hx => .inr (List.eq_of_mem_replicate hx)

/-- One character: the argument ends before it, or goes on in another mode.  A quote costs a
    character, unless it is the second of two. -/
theorem scan_cons (mode : Mode) (n : Nat) (c : Char) :
    (∀ cs, scan mode n (c :: cs) = (backslashes n, c :: cs)) ∨
      ∃ read mode' pending, (∀ cs, scan mode n (c :: cs) = push read (scan mode' pending cs)) ∧
        Taken mode n [c] read pending ∧ (mode ≠ .closing → c ≠ '"' → mode' ≠ .closing) := by
  by_cases hquote : c = '"'
  · subst hquote
    obtain ⟨read, mode', pending, hscan, htaken⟩ := scan_quote mode n
    exact .inr ⟨read, mode', pending, hscan, htaken, fun _ h => absurd rfl h⟩
  by_cases hslash : c = '\\'
  · subst hslash
    right
    refine ⟨[], mode.settle, n + 1, fun cs => rfl, ⟨?_, ?_, nofun⟩, fun _ _ => mode.settle_ne⟩
    · simp
    · simp
  by_cases hblank : mode.settle = .outside ∧ isBlank c
  · left
    intro cs
    rw [scan, if_neg hquote, if_neg hslash, if_pos hblank]
  · right
    refine ⟨backslashes n ++ [c], mode.settle, 0, fun cs => ?_, ⟨?_, fun _ h => ?_, ?_⟩,
      fun _ _ => mode.settle_ne⟩
    · rw [scan, if_neg hquote, if_neg hslash, if_neg hblank]
    · simp
    · exact absurd (List.mem_singleton.mp h).symm hquote
    · intro x hx
      rcases List.mem_append.mp hx with hx | hx
      · exact .inr (List.eq_of_mem_replicate hx)
      · exact .inl hx

/-- **A text in front**: the argument ends within it, or goes on behind it.  With a quote in the
    text that is not the second of two, a character is lost. -/
theorem scan_append (mode : Mode) (n : Nat) (text : List Char) :
    (∃ read, (∀ cs, (scan mode n (text ++ cs)).1 = read) ∧ read.length < n + text.length ∧
        ∀ x ∈ read, x ∈ text ∨ x = '\\') ∨
      ∃ read mode' pending,
        (∀ cs, scan mode n (text ++ cs) = push read (scan mode' pending cs)) ∧
          Taken mode n text read pending := by
  induction text generalizing mode n with
  | nil => exact .inr ⟨[], mode, n, fun cs => rfl, ⟨by simp, nofun, nofun⟩⟩
  | cons c text ih =>
    rcases scan_cons mode n c with hcut | ⟨first, mode₁, n₁, hfirst, htaken, hmode₁⟩
    · refine .inl ⟨backslashes n, fun cs => ?_, ?_, fun x hx => .inr (List.eq_of_mem_replicate hx)⟩
      · rw [List.cons_append, hcut]
      · simp
    have hlength := htaken.length
    rw [List.length_singleton] at hlength
    have hmemFirst : ∀ x ∈ first, x ∈ c :: text ∨ x = '\\' := by
      intro x hx
      rcases htaken.mem x hx with hc | hslash
      · cases List.mem_singleton.mp hc
        exact .inl List.mem_cons_self
      · exact .inr hslash
    rcases ih mode₁ n₁ with ⟨read, hread, hlt, hmem⟩ | ⟨read, mode', pending, hread, hrest⟩
    · refine .inl ⟨first ++ read, fun cs => ?_, ?_, fun x hx => ?_⟩
      · rw [List.cons_append, hfirst, push, hread]
      · rw [List.length_append, List.length_cons]
        omega
      · rcases List.mem_append.mp hx with hx | hx
        · exact hmemFirst x hx
        · exact (hmem x hx).imp_left (List.mem_cons_of_mem c)
    · refine .inr ⟨first ++ read, mode', pending, fun cs => ?_, ⟨?_, fun hmode hquote => ?_,
        fun x hx => ?_⟩⟩
      · rw [List.cons_append, hfirst, hread, push_push]
      · have := hrest.length
        rw [List.length_append, List.length_cons]
        omega
      · have hle := hrest.length
        rw [List.length_append, List.length_cons]
        by_cases hc : c = '"'
        · have := htaken.loses hmode (hc ▸ List.mem_singleton_self _)
          rw [List.length_singleton] at this
          omega
        · have hin : '"' ∈ text := (List.mem_cons.mp hquote).resolve_left (Ne.symm hc)
          have := hrest.loses (hmode₁ hmode hc) hin
          omega
      · rcases List.mem_append.mp hx with hx | hx
        · exact hmemFirst x hx
        · exact (hrest.mem x hx).imp_left (List.mem_cons_of_mem c)

/-- An argument is made of the line's characters, and backslashes. -/
theorem mem_scan {x : Char} (hx : x ∈ (scan mode n cs).1) : x ∈ cs ∨ x = '\\' := by
  rcases scan_append mode n cs with ⟨read, hread, -, hmem⟩ | ⟨read, mode', pending, hread, htaken⟩
  · have h := hread []
    rw [List.append_nil] at h
    exact hmem x (h ▸ hx)
  · have h := hread []
    rw [List.append_nil] at h
    rw [h, push, scan] at hx
    rcases List.mem_append.mp hx with hx | hx
    · exact htaken.mem x hx
    · exact .inr (List.eq_of_mem_replicate hx)

/-- Nothing is added to a line; a quote outside or inside quotes costs a character. -/
theorem length_scan (mode : Mode) (n : Nat) (cs : List Char) :
    (scan mode n cs).1.length ≤ n + cs.length ∧
      (mode ≠ .closing → '"' ∈ cs → (scan mode n cs).1.length < n + cs.length) := by
  rcases scan_append mode n cs with ⟨read, hread, hlt, -⟩ | ⟨read, mode', pending, hread, htaken⟩
  · have h := hread []
    rw [List.append_nil] at h
    rw [h]
    exact ⟨Nat.le_of_lt hlt, fun _ _ => hlt⟩
  · have h := hread []
    rw [List.append_nil] at h
    have hlength : (scan mode n cs).1.length = read.length + pending := by
      rw [h, push, scan, List.length_append, length_backslashes]
    rw [hlength]
    exact ⟨htaken.length, htaken.loses⟩

/-! ## A text in quotes -/

/-- The texts that quotes around them are enough for: no quote but a final one, and before that no
    final backslash. -/
def Quotable (text : List Char) : Prop :=
  ∃ plain, '"' ∉ plain ∧ plain.getLast? ≠ some '\\' ∧ (text = plain ∨ text = plain ++ ['"'])

/-- A text without quotes, inside quotes and before an ordinary character. -/
theorem scan_plain (hplain : '"' ∉ text) (hquote : d ≠ '"') (hslash : d ≠ '\\') (n : Nat) :
    scan .inside n (text ++ d :: cs) =
      push (backslashes n ++ text ++ [d]) (scan .inside 0 cs) := by
  induction text generalizing n with
  | nil => rw [List.nil_append, scan_inside hquote hslash, List.append_nil]
  | cons c text ih =>
    have hc : c ≠ '"' := fun h => hplain (h ▸ List.mem_cons_self)
    have htext : '"' ∉ text := fun h => hplain (List.mem_cons_of_mem c h)
    by_cases hs : c = '\\'
    · subst hs
      rw [List.cons_append, scan_backslash, backslashes_succ]
      exact ih htext (n + 1)
    · rw [List.cons_append, scan_inside hc hs, ih htext 0, push_push]
      simp [backslashes]

theorem quotable_backslashes (n : Nat) : Quotable (backslashes n) ↔ n = 0 := by
  constructor
  · rintro ⟨plain, hplain, hlast, h | h⟩
    · rw [← h, backslashes, List.getLast?_replicate] at hlast
      by_contra hn
      exact hlast (if_neg hn)
    · have hmem : '"' ∈ backslashes n := h ▸ by simp
      cases List.eq_of_mem_replicate hmem
  · rintro rfl
    exact ⟨[], nofun, nofun, .inl rfl⟩

theorem quote_mem_front (hquote : c ≠ '"') (n : Nat) :
    '"' ∈ backslashes n ++ c :: text ↔ '"' ∈ text := by
  rw [List.mem_append, List.mem_cons]
  constructor
  · rintro (h | h | h)
    · cases List.eq_of_mem_replicate h
    · exact absurd h.symm hquote
    · exact h
  · exact fun h => .inr (.inr h)

theorem getLast?_front (hslash : c ≠ '\\') (n : Nat) :
    (backslashes n ++ c :: text).getLast? = some '\\' ↔ text.getLast? = some '\\' := by
  rw [List.getLast?_append, List.getLast?_cons, Option.some_or]
  cases text.getLast? with
  | none => simpa using hslash
  | some last => simp

theorem quotable_cons (hquote : c ≠ '"') (hslash : c ≠ '\\') (n : Nat) :
    Quotable (backslashes n ++ c :: text) ↔ Quotable text := by
  constructor
  · rintro ⟨plain, hplain, hlast, rfl | h⟩
    · exact ⟨text, fun h => hplain ((quote_mem_front hquote n).mpr h),
        fun h => hlast ((getLast?_front hslash n).mpr h), .inl rfl⟩
    · rcases List.eq_nil_or_concat' text with rfl | ⟨init, last, rfl⟩
      · exact absurd (List.append_inj_right' h rfl) (by simpa using hquote)
      · have h : (backslashes n ++ c :: init) ++ [last] = plain ++ ['"'] := by
          rw [← h, List.append_assoc]
          rfl
        obtain ⟨rfl, hl⟩ := List.append_inj' h rfl
        cases hl
        exact ⟨init, fun h => hplain ((quote_mem_front hquote n).mpr h),
          fun h => hlast ((getLast?_front hslash n).mpr h), .inr rfl⟩
  · rintro ⟨plain, hplain, hlast, h⟩
    refine ⟨backslashes n ++ c :: plain, fun h => hplain ((quote_mem_front hquote n).mp h),
      fun h => hlast ((getLast?_front hslash n).mp h), ?_⟩
    rcases h with rfl | rfl
    · exact .inl rfl
    · exact .inr (by rw [List.append_assoc]; rfl)

theorem quotable_quote (n : Nat) :
    Quotable (backslashes n ++ '"' :: text) ↔ n = 0 ∧ text = [] := by
  constructor
  · rintro ⟨plain, hplain, hlast, rfl | h⟩
    · exact absurd (List.mem_append_right _ List.mem_cons_self) hplain
    · rcases List.eq_nil_or_concat' text with rfl | ⟨init, last, rfl⟩
      · obtain ⟨rfl, -⟩ := List.append_inj' h rfl
        refine ⟨(quotable_backslashes n).mp ⟨_, hplain, hlast, .inl rfl⟩, rfl⟩
      · have h : (backslashes n ++ '"' :: init) ++ [last] = plain ++ ['"'] := by
          rw [← h, List.append_assoc]
          rfl
        obtain ⟨rfl, -⟩ := List.append_inj' h rfl
        exact absurd (List.mem_append_right _ List.mem_cons_self) hplain
  · rintro ⟨rfl, rfl⟩
    exact ⟨[], nofun, nofun, .inr rfl⟩

/-- A text that begins with a quote is read back only if it is nothing else. -/
theorem scan_quoted_quote (n : Nat) (text : List Char) :
    (scan .inside n ('"' :: text ++ ['"'])).1 = backslashes n ++ '"' :: text ↔
      n = 0 ∧ text = [] := by
  rw [List.cons_append]
  by_cases hodd : n % 2 = 1
  · refine iff_of_false (ne_of_apply_ne List.length (Nat.ne_of_lt ?_)) (by omega)
    rw [scan_quote_odd inside_ne hodd]
    have h := (length_scan .inside 0 (text ++ ['"'])).2 nofun (by simp)
    simp only [push, List.length_append, length_backslashes, List.length_cons, List.length_nil]
      at h ⊢
    omega
  rw [scan_quote_even inside_ne (by omega)]
  cases text with
  | nil =>
    show backslashes (n / 2) ++ ['"'] = backslashes n ++ ['"'] ↔ _
    rw [List.append_left_inj, backslashes, backslashes, List.replicate_left_inj]
    simp only [and_true]
    omega
  | cons c text =>
    refine iff_of_false (ne_of_apply_ne List.length (Nat.ne_of_lt ?_)) nofun
    by_cases hquote : c = '"'
    · -- two quotes, which are one
      subst hquote
      have h := (length_scan .inside 0 (text ++ ['"'])).2 nofun (by simp)
      show (backslashes (n / 2) ++ ('"' :: (scan .inside 0 (text ++ ['"'])).1)).length < _
      simp only [List.length_append, length_backslashes, List.length_cons, List.length_nil] at h ⊢
      omega
    · -- the quotes are closed, and the last quote opens new ones
      have h := (length_scan .outside 0 (c :: text ++ ['"'])).2 nofun (by simp)
      rw [List.cons_append, ← scan_closing hquote] at h
      show (backslashes (n / 2) ++ (scan .closing 0 (c :: (text ++ ['"']))).1).length < _
      simp only [List.length_append, length_backslashes, List.length_cons, List.length_nil] at h ⊢
      omega

/-- **The round trip**, of a text that is only put in quotes. -/
theorem scan_quoted_iff (text : List Char) :
    (scan .inside 0 (text ++ ['"'])).1 = text ↔ Quotable text := by
  suffices h : ∀ n, (scan .inside n (text ++ ['"'])).1 = backslashes n ++ text ↔
      Quotable (backslashes n ++ text) from h 0
  induction text with
  | nil =>
    intro n
    rw [List.nil_append, List.append_nil, quotable_backslashes]
    by_cases hodd : n % 2 = 1
    · refine iff_of_false (fun h => ?_) (by omega)
      rw [scan_quote_odd inside_ne hodd] at h
      have hmem : '"' ∈ backslashes n := by
        rw [← h]
        simp [push, scan, backslashes]
      cases List.eq_of_mem_replicate hmem
    · rw [scan_quote_even inside_ne (by omega)]
      show backslashes (n / 2) ++ [] = _ ↔ _
      rw [List.append_nil, backslashes, backslashes, List.replicate_left_inj]
      omega
  | cons c text ih =>
    intro n
    by_cases hquote : c = '"'
    · subst hquote
      rw [scan_quoted_quote, quotable_quote]
    by_cases hslash : c = '\\'
    · subst hslash
      rw [List.cons_append, scan_backslash, backslashes_succ]
      exact ih (n + 1)
    · have ih₀ : (scan .inside 0 (text ++ ['"'])).1 = text ↔ Quotable text := ih 0
      rw [List.cons_append, scan_inside hquote hslash, quotable_cons hquote hslash, ← ih₀]
      show backslashes n ++ [c] ++ _ = _ ↔ _
      rw [List.append_assoc, List.append_right_inj]
      exact List.cons_inj_right c

/-! ## A program, a word and a text in quotes -/

theorem afterProgram_quoted {path : List Char} (hpath : '"' ∉ path) (hblank : isBlank d = true) :
    afterProgram false ('"' :: path ++ '"' :: d :: cs) = cs := by
  have hd : d ≠ '"' := by
    rintro rfl
    cases hblank
  have hinside : ∀ path : List Char, '"' ∉ path →
      afterProgram true (path ++ '"' :: d :: cs) = cs := by
    intro path
    induction path with
    | nil =>
      intro _
      simp [afterProgram, hd, hblank]
    | cons c path ih =>
      intro hpath
      have hc : c ≠ '"' := fun h => hpath (h ▸ List.mem_cons_self)
      simp only [List.cons_append, afterProgram, if_neg hc, Bool.not_true, Bool.false_and,
        Bool.false_eq_true, if_false]
      exact ih fun h => hpath (List.mem_cons_of_mem c h)
  exact hinside path hpath

/-- A word of ordinary characters is read as it is. -/
theorem scan_ordinaries (hword : text.all isOrdinary = true)
    (hmode : mode.settle = mode) : scan mode 0 (text ++ cs) = push text (scan mode 0 cs) := by
  induction text with
  | nil => rfl
  | cons c text ih =>
    obtain ⟨hc, hrest⟩ := Bool.and_eq_true_iff.mp hword
    rw [List.cons_append, scan_ordinary hc, hmode, ih hrest, push_push]
    rfl

/-- A word ends before a blank. -/
theorem scan_word (hword : text.all isOrdinary = true)
    (hblank : isBlank d = true) : scan .outside 0 (text ++ d :: cs) = (text, d :: cs) := by
  have hquote : d ≠ '"' := by
    rintro rfl
    cases hblank
  have hslash : d ≠ '\\' := by
    rintro rfl
    cases hblank
  rw [scan_ordinaries hword rfl, scan, if_neg hquote, if_neg hslash, if_pos ⟨rfl, hblank⟩, push,
    backslashes, List.replicate_zero, List.append_nil]

/-- **The two arguments** after a program in quotes: a word, and what is read of a text in
    quotes. -/
theorem split_quoted {path word : List Char} (hpath : '"' ∉ path) (hne : word ≠ [])
    (hword : word.all isOrdinary = true) (text : List Char) :
    ∃ rest, split ('"' :: path ++ '"' :: ' ' :: (word ++ ' ' :: '"' :: (text ++ ['"']))) =
      word :: (scan .inside 0 (text ++ ['"'])).1 :: rest := by
  rw [split, afterProgram_quoted hpath rfl]
  obtain ⟨c, word, rfl⟩ := List.exists_cons_of_ne_nil hne
  have hc : isBlank c = false := by
    have hordinary := (Bool.and_eq_true_iff.mp hword).1
    simp only [isOrdinary, Bool.and_eq_true, Bool.not_eq_true'] at hordinary
    exact hordinary.2
  have hscan : scan .outside 0 (c :: (word ++ ' ' :: '"' :: (text ++ ['"']))) =
      (c :: word, ' ' :: '"' :: (text ++ ['"'])) := scan_word hword rfl
  rw [List.cons_append, arguments_cons hc, hscan, arguments_blank rfl, arguments_cons rfl]
  exact ⟨_, rfl⟩

end CommandLine
