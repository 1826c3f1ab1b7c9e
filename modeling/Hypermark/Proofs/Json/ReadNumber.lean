import Hypermark.Json.Number
import Hypermark.Json.Printer
import Hypermark.Proofs.Decimal.Shortest

/-!
# Reading back a number

Every number that is held by a value (`JsonNumber.Held`) is read from its text in front of a comma,
a closing bracket or the end (`Delimited`): an integer as itself, a binary number as the one that
reading its decimal gives (`JsonNumber.reread`), which is close to it but need not be the same.

The text is cut where the reader goes on to the next part of a number: behind the digits in front of
the point, behind those after the point, and behind the exponent.
-/

namespace Hypermark.Json

/-- The text is at its end, or goes on with a comma or a closing bracket. -/
def Delimited (rest : List Char) : Prop := ∀ c ∈ rest.head?, c = ',' ∨ c = ']' ∨ c = '\x7d'

/-- The end of the text is a delimiter. -/
theorem delimited_nil : Delimited [] := by
  intro c hc
  cases hc

/-- So is a comma or a closing bracket. -/
theorem delimited_cons {c : Char} {rest : List Char} :
    Delimited (c :: rest) ↔ c = ',' ∨ c = ']' ∨ c = '\x7d' := by
  simp [Delimited]

/-- The text does not go on with a digit. -/
def Undigited (rest : List Char) : Prop := ∀ c ∈ rest.head?, digit? c = none

/-- The first character decides whether the text goes on with a digit. -/
theorem undigited_cons {c : Char} {rest : List Char} :
    Undigited (c :: rest) ↔ digit? c = none := by
  simp [Undigited]

/-- No delimiter is a digit. -/
theorem Delimited.undigited {rest : List Char} (h : Delimited rest) : Undigited rest := by
  intro c hc
  rcases h c hc with rfl | rfl | rfl <;> decide

/-! ## Digits -/

/-- The digits are the characters from zero to nine. -/
theorem le_of_isDigit {c : Char} (h : c.isDigit) : '0' ≤ c ∧ c ≤ '9' := by
  simpa [Char.isDigit, Char.le_def] using h

/-- A digit is read as its value. -/
theorem digit?_of_isDigit {c : Char} (h : c.isDigit) : digit? c = some (c.toNat - '0'.toNat) := by
  rw [digit?, if_pos (le_of_isDigit h)]

/-- Only the digit zero has the value zero. -/
theorem digitValue_ne_zero {c : Char} (h : c.isDigit) (hne : c ≠ '0') :
    c.toNat - '0'.toNat ≠ 0 := by
  intro hzero
  have hle : '0'.toNat ≤ c.toNat := (le_of_isDigit h).1
  exact hne (Char.toNat_inj.mp (by omega))

/-- Further digits make no number smaller. -/
theorem le_ofDigitChars (digits : List Char) (start : Nat) :
    start ≤ Nat.ofDigitChars 10 digits start := by
  rw [Nat.ofDigitChars_eq_ofDigitChars_zero]
  have hpow : 0 < 10 ^ digits.length := Nat.pow_pos (by decide)
  exact (Nat.le_mul_of_pos_left start hpow).trans (Nat.le_add_right _ _)

/-- Zeros behind a number multiply it by powers of ten. -/
theorem ofDigitChars_replicate_zero (count start : Nat) :
    Nat.ofDigitChars 10 (List.replicate count '0') start = start * 10 ^ count := by
  induction count generalizing start with
  | zero => simp
  | succ count ih =>
    rw [List.replicate_succ, Nat.ofDigitChars_cons, ih, Nat.sub_self, Nat.add_zero, Nat.pow_succ]
    ring

/-- Digits are read up to the rest, as long as their number stays within the bound. -/
theorem readDigits_append (count : Nat) {bound value : Nat} {digits rest : List Char}
    (hdigits : ∀ c ∈ digits, c.isDigit) (hbound : Nat.ofDigitChars 10 digits value ≤ bound)
    (hrest : Undigited rest) :
    readDigits bound value count (digits ++ rest)
      = ⟨Nat.ofDigitChars 10 digits value, count + digits.length, false, rest⟩ := by
  induction digits generalizing value count with
  | nil =>
    cases rest with
    | nil => rfl
    | cons c cs =>
      rw [List.nil_append, readDigits, undigited_cons.mp hrest]
      rfl
  | cons c cs ih =>
    have hc : c.isDigit := hdigits c List.mem_cons_self
    have hcs : ∀ c ∈ cs, c.isDigit := fun d hd => hdigits d (List.mem_cons_of_mem _ hd)
    rw [Nat.ofDigitChars_cons, Nat.mul_comm] at hbound ⊢
    have hle : value * 10 + (c.toNat - '0'.toNat) ≤ bound := (le_ofDigitChars cs _).trans hbound
    rw [List.cons_append, readDigits, digit?_of_isDigit hc]
    dsimp only
    rw [if_neg (not_lt.mpr hle), ih _ hcs hbound, List.length_cons]
    congr 1
    omega

/-- The digits of a positive number do not begin with a zero. -/
theorem exists_toDigits_eq_cons {n : Nat} (h : 0 < n) :
    ∃ c cs, Nat.toDigits 10 n = c :: cs ∧ c ≠ '0' := by
  induction n using Nat.strong_induction_on with
  | _ n ih =>
    by_cases hn : n < 10
    · have hdigit : ∀ d < 10, 0 < d → Nat.digitChar d ≠ '0' := by decide
      exact ⟨n.digitChar, [], Nat.toDigits_of_lt_base hn, hdigit n hn h⟩
    · obtain ⟨c, cs, hcs, hc⟩ := ih (n / 10) (by omega) (by omega)
      exact ⟨c, cs ++ [Nat.digitChar (n % 10)],
        by rw [Nat.toDigits_of_base_le (by decide) (by omega), hcs]; rfl, hc⟩

/-- The digits of a number are digits. -/
theorem isDigit_of_mem_toDigits {n : Nat} {c : Char} (h : c ∈ Nat.toDigits 10 n) : c.isDigit :=
  Nat.isDigit_of_mem_toDigits (by decide) (by decide) h

/-! ## The parts of a number -/

section Parts

variable {negative : Bool} {digits rest : List Char}

/-- The digits in front of the point are read, unless they begin with a zero and go on. -/
theorem readNumber_append (hne : digits ≠ []) (hdigits : ∀ c ∈ digits, c.isDigit)
    (hzero : ∀ cs, digits = '0' :: cs → cs = [])
    (hbound : Nat.ofDigitChars 10 digits 0 ≤ maxSignificand) (hrest : Undigited rest) :
    readNumber negative (digits ++ rest)
      = readTail negative (Nat.ofDigitChars 10 digits 0) rest := by
  obtain ⟨c, cs, rfl⟩ := List.exists_cons_of_ne_nil hne
  rw [Nat.ofDigitChars_cons, Nat.mul_zero, Nat.zero_add] at hbound ⊢
  by_cases hc : c = '0'
  · subst hc
    obtain rfl := hzero cs rfl
    rw [List.cons_append, List.nil_append, readNumber.eq_def]
    cases rest with
    | nil => rfl
    | cons d ds =>
      simp only [show digit? '0' = some 0 from by decide, undigited_cons.mp hrest]
      rfl
  · -- The first digit is not zero, so the reader goes on to the others.
    have hne := digitValue_ne_zero (hdigits c List.mem_cons_self) hc
    have hread := readDigits_append 1 (fun d hd => hdigits d (List.mem_cons_of_mem _ hd)) hbound
      hrest
    rw [List.cons_append, readNumber.eq_def]
    dsimp only
    rw [digit?_of_isDigit (hdigits c List.mem_cons_self)]
    split
    · contradiction
    · next h0 => exact absurd (Option.some.inj h0) hne
    · next d _ h1 =>
      cases h1
      rw [hread]
      rfl

/-- The digits behind the point are read on to the significand. -/
theorem readFraction_append {significand : Nat} {start : Int} (hne : digits ≠ [])
    (hdigits : ∀ c ∈ digits, c.isDigit)
    (hbound : Nat.ofDigitChars 10 digits significand ≤ maxSignificand) (hrest : Undigited rest) :
    readFraction negative significand start (digits ++ rest)
      = readOptionalExponent negative (Nat.ofDigitChars 10 digits significand)
          (start - digits.length) rest := by
  have hcount : digits.length ≠ 0 := List.length_eq_zero_iff.not.mpr hne
  rw [readFraction, readDigits_append 0 hdigits hbound hrest]
  simp only [Bool.false_eq_true, if_false, Nat.zero_add, if_neg hcount]

/-- A number ends where its rest begins. -/
theorem readOptionalExponent_of_delimited {significand : Nat} {start : Int} (h : Delimited rest) :
    readOptionalExponent negative significand start rest
      = scaled negative significand start rest := by
  cases rest with
  | nil => rfl
  | cons c cs => rcases delimited_cons.mp h with rfl | rfl | rfl <;> rfl

/-- Nothing more belongs to a number in front of a rest. -/
theorem readTail_of_delimited {n : Nat} (h : Delimited rest) :
    readTail negative n rest = .ok (whole negative n, rest) := by
  cases rest with
  | nil => rfl
  | cons c cs => rcases delimited_cons.mp h with rfl | rfl | rfl <;> rfl

/-- The digits of a natural number are read as that number. -/
theorem readNumber_toDigits {n : Nat} (hn : n ≤ maxSignificand) (hrest : Delimited rest) :
    readNumber negative (Nat.toDigits 10 n ++ rest) = .ok (whole negative n, rest) := by
  have hvalue : Nat.ofDigitChars 10 (Nat.toDigits 10 n) 0 = n := Nat.ofDigitChars_ten_toDigits
  have hzero (cs : List Char) (hcs : Nat.toDigits 10 n = '0' :: cs) : cs = [] := by
    rcases Nat.eq_zero_or_pos n with rfl | hpos
    · rw [Nat.toDigits_zero] at hcs
      exact (List.tail_eq_of_cons_eq hcs).symm
    · obtain ⟨c, cs', hcs', hc⟩ := exists_toDigits_eq_cons hpos
      exact absurd (List.head_eq_of_cons_eq (hcs'.symm.trans hcs)) hc
  rw [readNumber_append Nat.toDigits_ne_nil (fun c hc => isDigit_of_mem_toDigits hc) hzero
    (hvalue.trans_le hn) hrest.undigited, hvalue, readTail_of_delimited hrest]

/-- An integer of 64 bits is read as itself. -/
theorem readNumber_natCast {n : Nat} (hn : n ≤ maxSignificand) (hrest : Delimited rest) :
    readNumber false (Nat.toDigits 10 n ++ rest) = .ok (.int n, rest) := by
  rw [readNumber_toDigits hn hrest]
  rfl

/-- An integer of 64 bits below zero is read as itself, from behind its sign. -/
theorem readNumber_neg {n : Nat} (hpos : 0 < n) (hn : n ≤ 9223372036854775808)
    (hrest : Delimited rest) :
    readNumber true (Nat.toDigits 10 n ++ rest) = .ok (.int (-n), rest) := by
  have hmax : n ≤ maxSignificand := hn.trans (by decide)
  have hfits : ¬ (n = 0 ∨ 9223372036854775808 < n) := by omega
  rw [readNumber_toDigits hmax hrest, whole, if_pos rfl, if_neg hfits]

/-- A natural number is written by its digits. -/
theorem toList_toString_natCast (n : Nat) : (toString (n : Int)).toList = Nat.toDigits 10 n := by
  simp [Int.repr_eq_if]

/-- A number below zero is written by its digits behind a sign. -/
theorem toList_toString_neg {n : Nat} (h : 0 < n) :
    (toString (-n : Int)).toList = '-' :: Nat.toDigits 10 n := by
  simp [Int.repr_eq_if, Nat.ne_of_gt h]

/-- The exponent is read with its sign, if it is not too large. -/
theorem readExponent_toString {significand : Nat} {start exponent : Int}
    (hlow : -maxExponent ≤ exponent) (hhigh : exponent ≤ maxExponent) (hrest : Undigited rest) :
    readExponent negative significand start ((toString exponent).toList ++ rest)
      = scaled negative significand (start + exponent) rest := by
  -- Behind the sign the digits are read from the first on.
  have hdigits {n : Nat} (hn : n ≤ maxExponent) : ∃ c cs, Nat.toDigits 10 n = c :: cs ∧
      c.isDigit ∧ readDigits maxExponent (c.toNat - '0'.toNat) 1 (cs ++ rest)
        = ⟨n, 1 + cs.length, false, rest⟩ := by
    obtain ⟨c, cs, hcs⟩ := List.exists_cons_of_ne_nil (Nat.toDigits_ne_nil (b := 10) (n := n))
    have hall : ∀ d ∈ c :: cs, d.isDigit := fun d hd => isDigit_of_mem_toDigits (hcs ▸ hd)
    have hvalue : Nat.ofDigitChars 10 cs (c.toNat - '0'.toNat) = n := by
      have : Nat.ofDigitChars 10 (c :: cs) 0 = n := by
        rw [← hcs, Nat.ofDigitChars_ten_toDigits]
      rwa [Nat.ofDigitChars_cons, Nat.mul_zero, Nat.zero_add] at this
    refine ⟨c, cs, hcs, hall c List.mem_cons_self, ?_⟩
    rw [readDigits_append 1 (fun d hd => hall d (List.mem_cons_of_mem _ hd)) (hvalue.trans_le hn)
      hrest, hvalue]
  rcases lt_or_ge exponent 0 with hneg | hnonneg
  · obtain ⟨n, rfl⟩ : ∃ n : ℕ, exponent = -n := ⟨(-exponent).toNat, by omega⟩
    obtain ⟨c, cs, hcs, hc, hread⟩ := hdigits (n := n) (by omega)
    rw [toList_toString_neg (by omega), hcs, List.cons_append, List.cons_append, readExponent]
    simp only [digit?_of_isDigit hc, hread]
    simp [sub_eq_add_neg]
  · obtain ⟨n, rfl⟩ := Int.eq_ofNat_of_zero_le hnonneg
    obtain ⟨c, cs, hcs, hc, hread⟩ := hdigits (n := n) (by omega)
    have hne {d : Char} {ds : List Char} (hd : d.isDigit = false) :
        c :: (cs ++ rest) ≠ d :: ds := by
      intro heq
      rw [List.head_eq_of_cons_eq heq, hd] at hc
      contradiction
    rw [toList_toString_natCast, hcs, List.cons_append, readExponent]
    · simp only [digit?_of_isDigit hc, hread]
      simp
    · exact fun _ => hne (by decide)
    · exact fun _ => hne (by decide)

end Parts

/-! ## Decimals -/

end Json

/-- The places of a decimal in front of the point. -/
def Decimal.places (d : Decimal) : Int := (Nat.toDigits 10 d.digits).length + d.exponent

/-- The significand and the exponent that are read from the text of a decimal: an integer that is
written with all its places has a zero behind the point. -/
def RealFormat.asRead (format : RealFormat) (d : Decimal) : Decimal :=
  if 0 ≤ d.exponent ∧ d.places ≤ format.mostPlaces then
    ⟨d.digits * 10 ^ d.exponent.toNat * 10, -1⟩
  else d

namespace RealFormat

/-- A character that is pushed several times stands there as often. -/
theorem toList_pushn (s : String) (c : Char) (n : Nat) :
    (s.pushn c n).toList = s.toList ++ List.replicate n c := by
  induction n with
  | zero => simp [String.pushn, Nat.repeat]
  | succ n ih =>
    have hsucc : s.pushn c (n + 1) = (s.pushn c n).push c := rfl
    rw [hsucc, String.toList_push, ih, List.replicate_succ', List.append_assoc]

/-- The text of a decimal, part by part. -/
theorem toList_write (format : RealFormat) (d : Decimal) :
    (format.write d).toList =
      let digits := Nat.toDigits 10 d.digits
      if 0 ≤ d.exponent ∧ d.places ≤ format.mostPlaces then
        digits ++ List.replicate d.exponent.toNat '0' ++ ['.', '0']
      else if 0 < d.places ∧ d.places ≤ format.mostPlaces then
        digits.take d.places.toNat ++ '.' :: digits.drop d.places.toNat
      else if format.fewestPlaces ≤ d.places ∧ d.places ≤ 0 then
        '0' :: '.' :: (List.replicate (-d.places).toNat '0' ++ digits)
      else
        let exponent := 'e' :: (toString (d.places - 1)).toList
        match digits with
        | [c] => c :: exponent
        | c :: cs => c :: '.' :: (cs ++ exponent)
        | [] => exponent := by
  have hlength : ((toString d.digits).length : Int) + d.exponent = d.places := by
    rw [Decimal.places, ← String.length_toList, Nat.toString_eq_repr, Nat.toList_repr]
  have hdigits : (toString d.digits).toList = Nat.toDigits 10 d.digits := by
    rw [Nat.toString_eq_repr, Nat.toList_repr]
  unfold write
  dsimp only
  rw [hlength]
  split
  · simp [toList_pushn]
  split
  · simp
  split
  · simp [toList_pushn]
  · rw [hdigits]
    rcases Nat.toDigits 10 d.digits with _ | ⟨c, _ | ⟨c', cs⟩⟩ <;> simp

end RealFormat

namespace Json

/-- The number that is read from digits. -/
theorem ofDigitChars_append_toDigits (n : Nat) (digits : List Char) :
    Nat.ofDigitChars 10 (Nat.toDigits 10 n ++ digits) 0 = Nat.ofDigitChars 10 digits n := by
  rw [Nat.ofDigitChars_append, Nat.ofDigitChars_ten_toDigits]

/-- The text of a decimal is short enough for all of its digits to be read. -/
structure Readable (d : Decimal) : Prop where
  digits_le : d.digits ≤ 2 * 10 ^ 18
  exponent_ge : -416 ≤ d.exponent
  exponent_lt : d.exponent < 309
  zero : d.digits = 0 → d.exponent = 0

section Readable

variable {negative : Bool} {d : Decimal} {rest : List Char}

/-- The digits of such a decimal do not exceed what the reader holds. -/
theorem Readable.digits_le_max (h : Readable d) : d.digits ≤ maxSignificand :=
  h.digits_le.trans (by decide)

/-- The first digit is a zero only for zero. -/
theorem Readable.first (h : Readable d) {cs : List Char}
    (hcs : Nat.toDigits 10 d.digits = '0' :: cs) : cs = [] ∧ d.exponent = 0 := by
  have hdigits : d.digits = 0 := by
    by_contra hne
    obtain ⟨c', cs', hcs', hc'⟩ := exists_toDigits_eq_cons (Nat.pos_of_ne_zero hne)
    rw [hcs'] at hcs
    exact hc' (List.head_eq_of_cons_eq hcs)
  rw [hdigits, Nat.toDigits_zero] at hcs
  exact ⟨(List.tail_eq_of_cons_eq hcs).symm, h.zero hdigits⟩

/-- Zeros are digits. -/
theorem isDigit_of_mem_replicate {n : Nat} {c : Char} (h : c ∈ List.replicate n '0') :
    c.isDigit := by
  rw [List.eq_of_mem_replicate h]
  rfl

/-- An integer of at most sixteen places is read with the zero behind its point. -/
theorem readNumber_integer (h : Readable d) (hexponent : 0 ≤ d.exponent) (hplaces : d.places ≤ 16)
    (hrest : Delimited rest) :
    readNumber negative ((Nat.toDigits 10 d.digits ++ List.replicate d.exponent.toNat '0')
        ++ '.' :: (['0'] ++ rest))
      = scaled negative (d.digits * 10 ^ d.exponent.toNat * 10) (-1) rest := by
  have hvalue : Nat.ofDigitChars 10
      (Nat.toDigits 10 d.digits ++ List.replicate d.exponent.toNat '0') 0
        = d.digits * 10 ^ d.exponent.toNat := by
    rw [ofDigitChars_append_toDigits, ofDigitChars_replicate_zero]
  -- Sixteen places and the zero behind the point are less than the reader holds.
  have hlt : d.digits * 10 ^ d.exponent.toNat < 10 ^ 16 := by
    have hlength : d.digits < 10 ^ (Nat.toDigits 10 d.digits).length :=
      (Nat.length_toDigits_le_iff (by decide) (List.length_pos_of_ne_nil Nat.toDigits_ne_nil)).mp
        le_rfl
    calc d.digits * 10 ^ d.exponent.toNat
        < 10 ^ (Nat.toDigits 10 d.digits).length * 10 ^ d.exponent.toNat :=
          Nat.mul_lt_mul_of_pos_right hlength (Nat.pow_pos (by decide))
      _ = 10 ^ ((Nat.toDigits 10 d.digits).length + d.exponent.toNat) := (Nat.pow_add ..).symm
      _ ≤ 10 ^ 16 := by
        refine Nat.pow_le_pow_right (by decide) ?_
        rw [Decimal.places] at hplaces
        omega
  have hmax : 10 ^ 16 * 10 ≤ maxSignificand := by decide
  have hdigits : ∀ c ∈ Nat.toDigits 10 d.digits ++ List.replicate d.exponent.toNat '0',
      c.isDigit := fun c hc =>
    (List.mem_append.mp hc).elim isDigit_of_mem_toDigits isDigit_of_mem_replicate
  have hzero (cs : List Char) (hcs : Nat.toDigits 10 d.digits
      ++ List.replicate d.exponent.toNat '0' = '0' :: cs) : cs = [] := by
    obtain ⟨c, cs', hcs'⟩ := List.exists_cons_of_ne_nil
      (Nat.toDigits_ne_nil (b := 10) (n := d.digits))
    rw [hcs', List.cons_append] at hcs
    obtain ⟨rfl, rfl⟩ := List.cons.inj hcs
    obtain ⟨rfl, hexponent⟩ := h.first hcs'
    rw [hexponent]
    rfl
  rw [readNumber_append (by simp [Nat.toDigits_ne_nil]) hdigits hzero (by omega)
      (undigited_cons.mpr (by decide)), hvalue, readTail,
    readFraction_append (by simp) (List.forall_mem_singleton.mpr (by decide)) ?_ hrest.undigited,
    readOptionalExponent_of_delimited hrest]
  · simp [Nat.ofDigitChars_cons, Nat.mul_comm]
  · simp [Nat.ofDigitChars_cons]
    omega

/-- Digits around the point are read as one significand. -/
theorem readNumber_positional (h : Readable d) (hexponent : d.exponent < 0) (hplaces : 0 < d.places)
    (hrest : Delimited rest) :
    readNumber negative ((Nat.toDigits 10 d.digits).take d.places.toNat
        ++ '.' :: ((Nat.toDigits 10 d.digits).drop d.places.toNat ++ rest))
      = scaled negative d.digits d.exponent rest := by
  have hsplit := List.take_append_drop d.places.toNat (Nat.toDigits 10 d.digits)
  have hplaces' : d.places = (Nat.toDigits 10 d.digits).length + d.exponent := rfl
  have hvalue : Nat.ofDigitChars 10 ((Nat.toDigits 10 d.digits).drop d.places.toNat)
      (Nat.ofDigitChars 10 ((Nat.toDigits 10 d.digits).take d.places.toNat) 0) = d.digits := by
    rw [← Nat.ofDigitChars_append, hsplit, Nat.ofDigitChars_ten_toDigits]
  have hle := le_ofDigitChars ((Nat.toDigits 10 d.digits).drop d.places.toNat)
    (Nat.ofDigitChars 10 ((Nat.toDigits 10 d.digits).take d.places.toNat) 0)
  rw [hvalue] at hle
  have hmax := h.digits_le_max
  -- Only zero begins with a zero, and its exponent is not negative.
  have hzero (cs : List Char)
      (hcs : (Nat.toDigits 10 d.digits).take d.places.toNat = '0' :: cs) : cs = [] := by
    rw [hcs, List.cons_append] at hsplit
    have := (h.first hsplit.symm).2
    omega
  have htake : (Nat.toDigits 10 d.digits).take d.places.toNat ≠ [] := by
    have := List.length_pos_of_ne_nil (Nat.toDigits_ne_nil (b := 10) (n := d.digits))
    rw [← List.length_pos_iff, List.length_take]
    omega
  have hlength : ((Nat.toDigits 10 d.digits).drop d.places.toNat).length = -d.exponent := by
    rw [List.length_drop]
    omega
  have hdrop : (Nat.toDigits 10 d.digits).drop d.places.toNat ≠ [] := by
    rw [← List.length_pos_iff]
    omega
  rw [readNumber_append htake (fun c hc => isDigit_of_mem_toDigits (List.mem_of_mem_take hc)) hzero
      (hle.trans hmax) (undigited_cons.mpr (by decide)), readTail,
    readFraction_append hdrop (fun c hc => isDigit_of_mem_toDigits (List.mem_of_mem_drop hc))
      (hvalue.trans_le hmax) hrest.undigited, readOptionalExponent_of_delimited hrest, hvalue,
    hlength]
  congr 1
  omega

/-- Digits behind the point and some zeros are read as one significand. -/
theorem readNumber_fraction (h : Readable d) (hplaces : d.places ≤ 0) (hrest : Delimited rest) :
    readNumber negative ('0' :: '.' :: (List.replicate (-d.places).toNat '0'
        ++ Nat.toDigits 10 d.digits ++ rest))
      = scaled negative d.digits d.exponent rest := by
  have hplaces' : d.places = (Nat.toDigits 10 d.digits).length + d.exponent := rfl
  have hvalue : Nat.ofDigitChars 10 (List.replicate (-d.places).toNat '0'
      ++ Nat.toDigits 10 d.digits) 0 = d.digits := by
    rw [Nat.ofDigitChars_append, ofDigitChars_replicate_zero, Nat.zero_mul,
      Nat.ofDigitChars_ten_toDigits]
  have hdigits : ∀ c ∈ List.replicate (-d.places).toNat '0' ++ Nat.toDigits 10 d.digits,
      c.isDigit := fun c hc =>
    (List.mem_append.mp hc).elim isDigit_of_mem_replicate isDigit_of_mem_toDigits
  have hlength : ((List.replicate (-d.places).toNat '0' ++ Nat.toDigits 10 d.digits).length : Int)
      = -d.exponent := by
    rw [List.length_append, List.length_replicate]
    omega
  have hfirst : readNumber negative ('0' :: '.' :: (List.replicate (-d.places).toNat '0'
        ++ Nat.toDigits 10 d.digits ++ rest))
      = readFraction negative 0 0 (List.replicate (-d.places).toNat '0'
        ++ Nat.toDigits 10 d.digits ++ rest) := rfl
  rw [hfirst, readFraction_append (by simp [Nat.toDigits_ne_nil]) hdigits
      (hvalue.trans_le h.digits_le_max) hrest.undigited, readOptionalExponent_of_delimited hrest,
    hvalue, hlength]
  congr 1
  omega

/-- The exponent makes up for the place of the point. -/
theorem readNumber_exponent (h : Readable d) {c : Char} {cs : List Char}
    (hcs : Nat.toDigits 10 d.digits = c :: cs) (hrest : Delimited rest) :
    readNumber negative ((match c :: cs with
        | [c] => c :: 'e' :: (toString (d.places - 1)).toList
        | c :: cs => c :: '.' :: (cs ++ 'e' :: (toString (d.places - 1)).toList)
        | [] => 'e' :: (toString (d.places - 1)).toList) ++ rest)
      = scaled negative d.digits d.exponent rest := by
  have hplaces : d.places = (cs.length + 1 : Nat) + d.exponent := by
    rw [Decimal.places, hcs, List.length_cons]
  have hlength : cs.length < 19 := by
    have hpow : d.digits < 10 ^ 19 := h.digits_le.trans_lt (by decide)
    have := (Nat.length_toDigits_le_iff (b := 10) (by decide) (by decide)).mpr hpow
    rw [hcs, List.length_cons] at this
    omega
  have hlow := h.exponent_ge
  have hhigh := h.exponent_lt
  have hall : ∀ d ∈ c :: cs, d.isDigit := fun d hd => isDigit_of_mem_toDigits (hcs ▸ hd)
  have hvalue : Nat.ofDigitChars 10 cs (Nat.ofDigitChars 10 [c] 0) = d.digits := by
    rw [← Nat.ofDigitChars_append, List.singleton_append, ← hcs, Nat.ofDigitChars_ten_toDigits]
  have hle := le_ofDigitChars cs (Nat.ofDigitChars 10 [c] 0)
  rw [hvalue] at hle
  have hmax := h.digits_le_max
  -- In front of the point, if there is one, stands a single digit.
  have hfirst (text : List Char) (htext : Undigited text) :
      readNumber negative ([c] ++ text) = readTail negative (Nat.ofDigitChars 10 [c] 0) text :=
    readNumber_append (by simp) (fun d hd => hall d (List.mem_cons.mpr (.inl (by simpa using hd))))
      (fun cs hcs => (List.tail_eq_of_cons_eq hcs).symm) (hle.trans hmax) htext
  have hexponent {significand : Nat} {start : Int} :
      readExponent negative significand start ((toString (d.places - 1)).toList ++ rest)
        = scaled negative significand (start + (d.places - 1)) rest :=
    readExponent_toString (by unfold maxExponent; omega) (by unfold maxExponent; omega)
      hrest.undigited
  cases cs with
  | nil =>
    have := hfirst ('e' :: ((toString (d.places - 1)).toList ++ rest))
      (undigited_cons.mpr (by decide))
    rw [List.singleton_append] at this
    dsimp only [List.cons_append]
    rw [Nat.ofDigitChars_nil] at hvalue
    rw [List.length_nil] at hplaces
    rw [this, readTail, hexponent, hvalue]
    congr 1
    omega
  | cons c' cs =>
    have hfraction {text : List Char} (htext : Undigited text) :
        readFraction negative (Nat.ofDigitChars 10 [c] 0) 0 ((c' :: cs) ++ text)
          = readOptionalExponent negative d.digits (0 - (c' :: cs).length) text := by
      rw [readFraction_append (by simp) (fun d hd => hall d (List.mem_cons_of_mem _ hd))
        (hvalue.trans_le hmax) htext, hvalue]
    have := hfirst ('.' :: ((c' :: cs) ++ ('e' :: ((toString (d.places - 1)).toList ++ rest))))
      (undigited_cons.mpr (by decide))
    rw [List.singleton_append] at this
    dsimp only [List.cons_append]
    rw [List.append_assoc, List.cons_append]
    rw [List.cons_append] at this
    rw [this, readTail, ← List.cons_append, hfraction (undigited_cons.mpr (by decide)),
      readOptionalExponent, hexponent]
    congr 1
    omega

/-- **The text of a decimal is read as its digits and its exponent.** -/
theorem readNumber_write (h : Readable d) (hrest : Delimited rest) :
    readNumber negative ((JsonNumber.realFormat.write d).toList ++ rest)
      = scaled negative (JsonNumber.realFormat.asRead d).digits
          (JsonNumber.realFormat.asRead d).exponent rest := by
  rw [RealFormat.toList_write, RealFormat.asRead]
  by_cases hinteger : 0 ≤ d.exponent ∧ d.places ≤ JsonNumber.realFormat.mostPlaces
  · rw [if_pos hinteger, if_pos hinteger, ← readNumber_integer h hinteger.1 hinteger.2 hrest]
    simp
  rw [if_neg hinteger, if_neg hinteger]
  by_cases hpositional : 0 < d.places ∧ d.places ≤ JsonNumber.realFormat.mostPlaces
  · rw [if_pos hpositional, ← readNumber_positional h (by omega) hpositional.1 hrest]
    simp
  rw [if_neg hpositional]
  by_cases hfraction : JsonNumber.realFormat.fewestPlaces ≤ d.places ∧ d.places ≤ 0
  · rw [if_pos hfraction]
    exact readNumber_fraction h hfraction.2 hrest
  · rw [if_neg hfraction]
    obtain ⟨c, cs, hcs⟩ := List.exists_cons_of_ne_nil
      (Nat.toDigits_ne_nil (b := 10) (n := d.digits))
    rw [hcs]
    exact readNumber_exponent h hcs hrest

end Readable

end Json

/-! ## The numbers of a value -/

namespace JsonNumber

/-- The numbers that are read from a text: integers of 64 bits and finite binary numbers. -/
def Held : JsonNumber → Prop
  | int value => isWord value
  | real value => value.Finite

/-- The decimal that is written for a binary number, without its sign. -/
def decimal (value : Binary64) : Decimal := if value.code = 0 then ⟨0, 0⟩ else value.shortest

/-- What is read from the text of a number. -/
def reread : JsonNumber → JsonNumber
  | int value => int value
  | real value =>
    let d := realFormat.asRead (decimal value)
    real ((Binary64.ofScientific value.negative d.digits d.exponent).getD value)

/-- The text of a binary number is its sign and its decimal. -/
theorem text_real (value : Binary64) :
    (real value).text.toList
      = (if value.negative then ['-'] else []) ++ (realFormat.write (decimal value)).toList := by
  have hzero : realFormat.write ⟨0, 0⟩ = "0.0" := by decide
  have hdigits : (if value.code = 0 then "0.0" else realFormat.write value.shortest)
      = realFormat.write (decimal value) := by
    unfold decimal
    split
    · exact hzero.symm
    · rfl
  rw [text, hdigits]
  split <;> simp

/-- The decimal of a finite number can be read. -/
theorem readable_decimal {value : Binary64} (h : value.Finite) : Json.Readable (decimal value) := by
  have hzero : Json.Readable ⟨0, 0⟩ := ⟨by decide, by decide, by decide, fun _ => rfl⟩
  unfold decimal
  split
  · exact hzero
  · next hcode =>
    rcases Binary64.shortest_spec h hcode with heq | hwithin
    · rw [heq]
      exact hzero
    · exact ⟨hwithin.digits_le, hwithin.exponent_ge, hwithin.exponent_lt h,
        fun hdigits => absurd hdigits hwithin.digits_pos.ne'⟩

/-- **The decimal of a finite number is in range.** -/
theorem isSome_ofScientific_decimal {value : Binary64} (h : value.Finite) :
    (Binary64.ofScientific value.negative (realFormat.asRead (decimal value)).digits
      (realFormat.asRead (decimal value)).exponent).isSome := by
  unfold RealFormat.asRead
  split
  · rfl
  · next hinteger =>
    have hcode : value.code ≠ 0 := by
      intro hcode
      rw [decimal, if_pos hcode] at hinteger
      exact hinteger (by decide)
    rw [decimal, if_neg hcode] at hinteger ⊢
    rcases Binary64.shortest_spec h hcode with heq | hwithin
    · rw [heq] at hinteger
      exact absurd (by decide) hinteger
    · exact Binary64.isSome_ofScientific_shortest h hwithin

end JsonNumber

namespace Json

/-- A finite number is read from its text behind the sign. -/
theorem readNumber_real {value : Binary64} {rest : List Char} (h : value.Finite)
    (hrest : Delimited rest) :
    readNumber value.negative
        ((JsonNumber.realFormat.write (JsonNumber.decimal value)).toList ++ rest)
      = .ok ((JsonNumber.real value).reread, rest) := by
  rw [readNumber_write (JsonNumber.readable_decimal h) hrest, scaled, JsonNumber.reread]
  obtain ⟨read, hread⟩ := Option.isSome_iff_exists.mp (JsonNumber.isSome_ofScientific_decimal h)
  simp only [hread, Option.getD_some]

/-- The text of a decimal begins with a digit. -/
theorem exists_write_eq_cons (d : Decimal) :
    ∃ c cs, (JsonNumber.realFormat.write d).toList = c :: cs ∧ c.isDigit := by
  obtain ⟨c, cs, hcs⟩ := List.exists_cons_of_ne_nil
    (Nat.toDigits_ne_nil (b := 10) (n := d.digits))
  have hc : c.isDigit := isDigit_of_mem_toDigits (hcs ▸ List.mem_cons_self)
  rw [RealFormat.toList_write]
  dsimp only
  rw [hcs]
  split
  · exact ⟨c, _, rfl, hc⟩
  split
  · next h =>
    obtain ⟨n, hn⟩ : ∃ n, d.places.toNat = n + 1 := ⟨d.places.toNat - 1, by omega⟩
    rw [hn]
    exact ⟨c, _, rfl, hc⟩
  split
  · exact ⟨'0', _, rfl, rfl⟩
  · cases cs <;> exact ⟨c, _, rfl, hc⟩

/-! ## What is read is held -/

/-- The digits that are read stay within the bound. -/
theorem value_readDigits_le (count : Nat) {bound value : Nat} (h : value ≤ bound)
    (text : List Char) :
    (readDigits bound value count text).value ≤ bound := by
  induction text generalizing value count with
  | nil => exact h
  | cons c cs ih =>
    rw [readDigits]
    split
    · exact h
    split
    · exact h
    · next hle => exact ih _ (not_lt.mp hle)

/-- The largest significand is in the range of binary numbers. -/
theorem maxSignificand_lt_limit : (maxSignificand : ℚ) < Binary64.limit := by
  have hlimit : (2 : ℚ) ^ (970 : ℤ) ≤ Binary64.limit := by
    rw [Binary64.limit]
    exact le_mul_of_one_le_left (by positivity) (by norm_num)
  refine lt_of_lt_of_le ?_ hlimit
  refine lt_of_lt_of_le ?_ (zpow_le_zpow_right₀ one_le_two (show (64 : ℤ) ≤ 970 by decide))
  rw [maxSignificand]
  norm_num

section Held

variable {negative : Bool} {significand : Nat} {start : Int} {text rest : List Char}
  {number : JsonNumber}

/-- A number with an exponent is held, if it is in range. -/
theorem held_of_scaled (hle : significand ≤ maxSignificand)
    (h : scaled negative significand start text = .ok (number, rest)) : number.Held := by
  have hlt : (significand : ℚ) < Binary64.limit :=
    lt_of_le_of_lt (by exact_mod_cast hle) maxSignificand_lt_limit
  unfold scaled at h
  split at h
  · next value hvalue =>
    cases h
    exact Binary64.finite_of_ofScientific hlt hvalue
  · cases h

/-- So is one whose exponent is read. -/
theorem held_of_readExponent (hle : significand ≤ maxSignificand)
    (h : readExponent negative significand start text = .ok (number, rest)) : number.Held := by
  unfold readExponent at h
  dsimp only at h
  split at h
  · cases h
  split at h
  · cases h
  split_ifs at h
  · cases h
  · cases h
    exact Binary64.finite_zero
  · exact held_of_scaled hle h
  · exact held_of_scaled hle h

/-- So is one that may have an exponent. -/
theorem held_of_readOptionalExponent (hle : significand ≤ maxSignificand)
    (h : readOptionalExponent negative significand start text = .ok (number, rest)) :
    number.Held := by
  unfold readOptionalExponent at h
  split at h
  · exact held_of_readExponent hle h
  · exact held_of_readExponent hle h
  · exact held_of_scaled hle h

/-- So is one with a point. -/
theorem held_of_readFraction (hle : significand ≤ maxSignificand)
    (h : readFraction negative significand start text = .ok (number, rest)) : number.Held := by
  have hdigits := value_readDigits_le 0 hle text
  unfold readFraction at h
  dsimp only at h
  split at h
  · exact held_of_readOptionalExponent hdigits h
  split at h
  · split at h <;> cases h
  · exact held_of_readOptionalExponent hdigits h

/-- A whole number is held: as an integer, or else as a binary number. -/
theorem held_whole (hle : significand ≤ maxSignificand) : (whole negative significand).Held := by
  have hword {n : Int} (hlow : -9223372036854775808 ≤ n) (hhigh : n ≤ maxSignificand) :
      (JsonNumber.int n).Held := by
    rw [maxSignificand] at hhigh
    simp only [JsonNumber.Held, JsonNumber.isWord, Bool.and_eq_true, decide_eq_true_eq]
    omega
  unfold whole
  split
  · split
    · refine Binary64.finite_ofRatio Nat.one_pos ?_
      rw [Nat.cast_one, div_one]
      exact lt_of_le_of_lt (by exact_mod_cast hle) maxSignificand_lt_limit
    · exact hword (by omega) (by omega)
  · exact hword (by omega) (by omega)

/-- A number is held whatever belongs to it behind its whole part. -/
theorem held_of_readTail (hle : significand ≤ maxSignificand)
    (h : readTail negative significand text = .ok (number, rest)) : number.Held := by
  unfold readTail at h
  split at h
  · exact held_of_readFraction hle h
  · exact held_of_readExponent hle h
  · exact held_of_readExponent hle h
  · cases h
    exact held_whole hle

/-- So it is if there are more digits than the significand takes. -/
theorem held_of_readLongTail (hle : significand ≤ maxSignificand)
    (h : readLongTail negative significand text = .ok (number, rest)) : number.Held := by
  unfold readLongTail at h
  split at h
  · exact held_of_readFraction hle h
  · exact held_of_readOptionalExponent hle h

/-- **Every number that is read is held.** -/
theorem held_of_readNumber (h : readNumber negative text = .ok (number, rest)) : number.Held := by
  unfold readNumber at h
  split at h
  · cases h
  split at h
  · cases h
  · split at h
    · split at h
      · cases h
      · exact held_of_readTail (Nat.zero_le _) h
    · exact held_of_readTail (Nat.zero_le _) h
  · next c cs _ d _ hd =>
    have hd : d ≤ maxSignificand := by
      unfold digit? at hd
      split at hd
      · next hc =>
        cases hd
        have : c.toNat ≤ '9'.toNat := hc.2
        exact (Nat.sub_le _ _).trans (this.trans (by decide))
      · cases hd
    have hdigits := value_readDigits_le 1 hd cs
    dsimp only at h
    split at h
    · exact held_of_readLongTail hdigits h
    · exact held_of_readTail hdigits h

end Held

end Json

end Hypermark
