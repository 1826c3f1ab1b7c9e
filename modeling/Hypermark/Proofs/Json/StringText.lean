import Hypermark.Json.Skip
import Hypermark.Proofs.Json.ReadBack
import Hypermark.Outcome

/-!
# How strings are written

A character of a string is written as itself, with a letter behind a backslash, or by its number; one
that has no number of sixteen bits by the numbers of its two halves (`CharText`).  However a string is
written, it is read as the string (`readString_of_stringText`).

A string that nobody asks for is skipped instead of read.  There the halves may stand alone
(`LiteralText`), but what is read can be skipped, up to the same place (`skipString_of_readString`).
-/

namespace Hypermark.Json

/-! ## Characters -/

/-- Four hexadecimal digits and their number. -/
inductive HexText : Nat → List Char → Prop
  | intro {a b c d : Char} {i j k l : Nat} (ha : hexValue? a = some i) (hb : hexValue? b = some j)
    (hc : hexValue? c = some k) (hd : hexValue? d = some l) :
    HexText (((i * 16 + j) * 16 + k) * 16 + l) [a, b, c, d]

/-- The letters behind a backslash, and the characters that they stand for. -/
def shortEscapes : List (Char × Char) :=
  [('"', '"'), ('\\', '\\'), ('/', '/'), ('b', '\x08'), ('f', '\x0c'), ('n', '\n'), ('r', '\r'),
    ('t', '\t')]

/-- The ways to write a character of a string. -/
inductive CharText : Char → List Char → Prop
  | plain {c : Char} (hcontrol : 0x20 ≤ c.toNat) (hquote : c ≠ '"') (hslash : c ≠ '\\') :
    CharText c [c]
  | short {letter c : Char} (h : (letter, c) ∈ shortEscapes) : CharText c ['\\', letter]
  | code {c : Char} {digits : List Char} (h : HexText c.toNat digits) :
    CharText c ('\\' :: 'u' :: digits)
  | pair {c : Char} {high low : Nat} {first second : List Char} (hfirst : HexText high first)
    (hsecond : HexText low second) (hhigh : 0xd800 ≤ high ∧ high ≤ 0xdbff)
    (hlow : 0xdc00 ≤ low ∧ low ≤ 0xdfff)
    (hc : c.toNat = 0x10000 + (high - 0xd800) * 0x400 + (low - 0xdc00)) :
    CharText c ('\\' :: 'u' :: (first ++ '\\' :: 'u' :: second))

/-- The ways to write characters one after the other. -/
inductive CharsText : List Char → List Char → Prop
  | nil : CharsText [] []
  | cons {c : Char} {cs text texts : List Char} (hc : CharText c text) (hcs : CharsText cs texts) :
    CharsText (c :: cs) (text ++ texts)

/-- The ways to write a string, between its quotes. -/
def StringText (s : String) (text : List Char) : Prop := CharsText s.toList text

/-! ## Reading -/

/-- Four characters have at least four bytes. -/
theorem four_le_length_bytes (a b c d : Char) (rest : List Char) :
    4 ≤ (Stop.bytes (a :: b :: c :: d :: rest)).length := by
  have hbytes (e : Char) : 0 < (String.utf8EncodeChar e).length := by
    rw [String.length_utf8EncodeChar]
    exact Char.utf8Size_pos e
  have ha := hbytes a
  have hb := hbytes b
  have hc := hbytes c
  have hd := hbytes d
  simp only [Stop.bytes, List.flatMap_cons, List.length_append]
  omega

/-- Four hexadecimal digits are read as their number. -/
theorem readHex_of_hexText {n : Nat} {digits : List Char} (h : HexText n digits)
    (rest : List Char) : readHex (digits ++ rest) = .ok (n, rest) := by
  obtain ⟨ha, hb, hc, hd⟩ := h
  simp only [List.cons_append, List.nil_append]
  rw [readHex, if_neg (not_lt.mpr (four_le_length_bytes _ _ _ _ rest))]
  simp only [ha, hb, hc, hd]

/-- No character has the number of a half. -/
theorem not_half_toNat (c : Char) : ¬ (0xd800 ≤ c.toNat ∧ c.toNat ≤ 0xdfff) := by
  have hvalid := c.valid
  rw [UInt32.isValidChar, Nat.isValidChar] at hvalid
  have hnat : c.toNat = c.val.toNat := rfl
  omega

/-- A letter behind a backslash is read as the character that it stands for. -/
theorem readEscape_of_short {letter c : Char} (h : (letter, c) ∈ shortEscapes) (rest : List Char) :
    readEscape (letter :: rest) = .ok (c, rest) := by
  simp only [shortEscapes, List.mem_cons, Prod.mk.injEq, List.not_mem_nil, or_false] at h
  rcases h with ⟨rfl, rfl⟩ | ⟨rfl, rfl⟩ | ⟨rfl, rfl⟩ | ⟨rfl, rfl⟩ | ⟨rfl, rfl⟩ | ⟨rfl, rfl⟩ | ⟨rfl, rfl⟩ |
    ⟨rfl, rfl⟩ <;> rfl

/-- So is the number of a character. -/
theorem readEscape_of_code {c : Char} {digits : List Char} (h : HexText c.toNat digits)
    (rest : List Char) : readEscape ('u' :: (digits ++ rest)) = .ok (c, rest) := by
  have hhalf := not_half_toNat c
  have hlow : ¬ (0xdc00 ≤ c.toNat ∧ c.toNat ≤ 0xdfff) := by omega
  have hall : c.toNat < 0xd800 ∨ 0xdbff < c.toNat := by omega
  simp only [readEscape, readHex_of_hexText h, bind, Except.bind]
  rw [if_neg hlow, if_pos hall, Char.ofNat_toNat]

/-- So are the two halves of one that is beyond four digits. -/
theorem readEscape_of_pair {c : Char} {high low : Nat} {first second : List Char}
    (hfirst : HexText high first) (hsecond : HexText low second)
    (hhigh : 0xd800 ≤ high ∧ high ≤ 0xdbff) (hlow : 0xdc00 ≤ low ∧ low ≤ 0xdfff)
    (hc : c.toNat = 0x10000 + (high - 0xd800) * 0x400 + (low - 0xdc00)) (rest : List Char) :
    readEscape ('u' :: (first ++ '\\' :: 'u' :: (second ++ rest))) = .ok (c, rest) := by
  have hnotlow : ¬ (0xdc00 ≤ high ∧ high ≤ 0xdfff) := by omega
  have hhalf : ¬ (high < 0xd800 ∨ 0xdbff < high) := by omega
  have hrange : ¬ (low < 0xdc00 ∨ 0xdfff < low) := by omega
  have hjoin : joinPair high low = c := by
    have hsum : (high - 0xd800) * 0x400 + (low - 0xdc00) + 0x10000 = c.toNat := by omega
    rw [joinPair, hsum, Char.ofNat_toNat]
  simp only [readEscape, readHex_of_hexText hfirst, bind, Except.bind]
  rw [if_neg hnotlow, if_neg hhalf]
  simp only [readLowHalf, readHex_of_hexText hsecond, bind, Except.bind]
  rw [if_neg hrange, hjoin]

/-- A character is read however it is written. -/
theorem readChars_of_charText {c : Char} {text : List Char} (h : CharText c text) (fuel : Nat)
    (read rest : List Char) :
    readChars (fuel + 1) read (text ++ rest) = readChars fuel (c :: read) rest := by
  cases h with
  | plain hcontrol hquote hslash =>
    rw [List.cons_append, List.nil_append, readChars, if_neg (not_lt.mpr hcontrol)]
    · exact hquote
    · exact hslash
  | short h =>
    simp only [List.cons_append, List.nil_append, readChars, readEscape_of_short h, bind, Except.bind]
  | code h =>
    simp only [List.cons_append, readChars, readEscape_of_code h, bind, Except.bind]
  | pair hfirst hsecond hhigh hlow hc =>
    have hread := readEscape_of_pair hfirst hsecond hhigh hlow hc rest
    simp only [List.cons_append, List.append_assoc, readChars, hread, bind, Except.bind]

/-- A character is written as something. -/
theorem CharText.length_pos {c : Char} {text : List Char} (h : CharText c text) :
    0 < text.length := by
  cases h <;> simp

/-- Characters are read up to the closing quote, however they are written. -/
theorem readChars_of_charsText {cs text : List Char} (h : CharsText cs text) {fuel : Nat}
    (hfuel : text.length < fuel) (read rest : List Char) :
    readChars fuel read (text ++ '"' :: rest) = .ok (String.ofList (read.reverse ++ cs), rest) := by
  induction h generalizing fuel read with
  | nil =>
    obtain ⟨fuel, rfl⟩ : ∃ n, fuel = n + 1 := ⟨fuel - 1, by omega⟩
    rw [List.nil_append, readChars, List.append_nil]
  | cons hc _ ih =>
    have hpos := hc.length_pos
    rw [List.length_append] at hfuel
    obtain ⟨fuel, rfl⟩ : ∃ n, fuel = n + 1 := ⟨fuel - 1, by omega⟩
    rw [List.append_assoc, readChars_of_charText hc, ih (by omega), List.reverse_cons,
      List.append_assoc, List.singleton_append]

/-- **A string is read however it is written.** -/
theorem readString_of_stringText {s : String} {text : List Char} (h : StringText s text)
    (rest : List Char) : readString (text ++ '"' :: rest) = .ok (s, rest) := by
  have hfuel : text.length < (text ++ '"' :: rest).length + 1 := by
    rw [List.length_append]
    omega
  rw [readString, readChars_of_charsText h hfuel, List.reverse_nil, List.nil_append,
    String.ofList_toList]

/-! ## Printed strings -/

/-- The printer writes a character in one of the ways. -/
theorem charText_escapeChar (c : Char) : CharText c (escapeChar c) := by
  have hshort {letter : Char} (h : (letter, c) ∈ shortEscapes) : CharText c ['\\', letter] :=
    .short h
  unfold escapeChar
  split
  · next h => exact hshort (by simp [h, shortEscapes])
  split
  · next h => exact hshort (by simp [h, shortEscapes])
  split
  · next h => exact hshort (by simp [h, shortEscapes])
  split
  · next h => exact hshort (by simp [h, shortEscapes])
  split
  · next h => exact hshort (by simp [h, shortEscapes])
  split
  · next h => exact hshort (by simp [h, shortEscapes])
  split
  · next h => exact hshort (by simp [h, shortEscapes])
  split
  · next hcontrol =>
    have hzero : hexValue? '0' = some 0 := by decide
    have hdigits := HexText.intro hzero hzero
      (hexValue?_hexDigit (show c.toNat / 16 < 16 by omega))
      (hexValue?_hexDigit (show c.toNat % 16 < 16 by omega))
    have hnumber : ((0 * 16 + 0) * 16 + c.toNat / 16) * 16 + c.toNat % 16 = c.toNat := by omega
    rw [hnumber] at hdigits
    exact .code hdigits
  · next hquote hslash _ _ _ _ _ hcontrol => exact .plain (not_lt.mp hcontrol) hquote hslash

/-- The printer writes a string in one of the ways. -/
theorem stringText_escape (s : String) : StringText s (s.toList.flatMap escapeChar) := by
  rw [StringText]
  induction s.toList with
  | nil => exact .nil
  | cons c cs ih =>
    rw [List.flatMap_cons]
    exact .cons (charText_escapeChar c) ih

/-! ## Skipping -/

/-- What a string that is skipped may be made of; the halves of a pair count one by one. -/
inductive UnitText : List Char → Prop
  | plain {c : Char} (hcontrol : 0x20 ≤ c.toNat) (hquote : c ≠ '"') (hslash : c ≠ '\\') :
    UnitText [c]
  | short {letter c : Char} (h : (letter, c) ∈ shortEscapes) : UnitText ['\\', letter]
  | code {n : Nat} {digits : List Char} (h : HexText n digits) : UnitText ('\\' :: 'u' :: digits)

/-- A string that is skipped, between its quotes. -/
inductive LiteralText : List Char → Prop
  | nil : LiteralText []
  | cons {text texts : List Char} (h : UnitText text) (hs : LiteralText texts) :
    LiteralText (text ++ texts)

/-- What can be read can be skipped, character by character. -/
theorem CharsText.literalText {cs text : List Char} (h : CharsText cs text) : LiteralText text := by
  induction h with
  | nil => exact .nil
  | cons hc _ ih =>
    cases hc with
    | plain hcontrol hquote hslash => exact .cons (.plain hcontrol hquote hslash) ih
    | short h => exact .cons (.short h) ih
    | code h => exact .cons (.code h) ih
    | pair hfirst hsecond =>
      have hpair := LiteralText.cons (.code hfirst) (.cons (.code hsecond) ih)
      simpa using hpair

/-- So can a string. -/
theorem StringText.literalText {s : String} {text : List Char} (h : StringText s text) :
    LiteralText text := CharsText.literalText h

/-- One step of the skipper gets behind a unit. -/
theorem skipChars_of_unitText {text : List Char} (h : UnitText text) (fuel : Nat)
    (rest : List Char) : skipChars (fuel + 1) (text ++ rest) = skipChars fuel rest := by
  cases h with
  | plain hcontrol hquote hslash =>
    rw [List.cons_append, List.nil_append, skipChars, if_neg (not_lt.mpr hcontrol)]
    · exact hquote
    · exact hslash
  | short h =>
    simp only [shortEscapes, List.mem_cons, Prod.mk.injEq, List.not_mem_nil, or_false] at h
    rcases h with ⟨rfl, -⟩ | ⟨rfl, -⟩ | ⟨rfl, -⟩ | ⟨rfl, -⟩ | ⟨rfl, -⟩ | ⟨rfl, -⟩ | ⟨rfl, -⟩ |
      ⟨rfl, -⟩ <;> rfl
  | code h =>
    simp only [List.cons_append, skipChars, skipEscape, readHex_of_hexText h, bind, Except.bind,
      Except.map]

/-- A unit is not empty. -/
theorem UnitText.length_pos {text : List Char} (h : UnitText text) : 0 < text.length := by
  cases h <;> simp

/-- A string is skipped up to its closing quote. -/
theorem skipChars_of_literalText {text : List Char} (h : LiteralText text) {fuel : Nat}
    (hfuel : text.length < fuel) (rest : List Char) :
    skipChars fuel (text ++ '"' :: rest) = .ok rest := by
  induction h generalizing fuel with
  | nil =>
    obtain ⟨fuel, rfl⟩ : ∃ n, fuel = n + 1 := ⟨fuel - 1, by omega⟩
    rw [List.nil_append, skipChars]
  | cons hunit _ ih =>
    have hpos := hunit.length_pos
    rw [List.length_append] at hfuel
    obtain ⟨fuel, rfl⟩ : ∃ n, fuel = n + 1 := ⟨fuel - 1, by omega⟩
    rw [List.append_assoc, skipChars_of_unitText hunit, ih (by omega)]

/-- A string is skipped up to its closing quote, whatever its length. -/
theorem skipString_of_literalText {text : List Char} (h : LiteralText text) (rest : List Char) :
    skipString (text ++ '"' :: rest) = .ok rest := by
  refine skipChars_of_literalText h ?_ rest
  rw [List.length_append]
  omega

/-! ## What is read can be skipped -/

/-- Four characters are taken for a number. -/
theorem length_of_readHex {text rest : List Char} {n : Nat} (h : readHex text = .ok (n, rest)) :
    text.length = rest.length + 4 := by
  rw [readHex.eq_def] at h
  split at h
  · cases h
  split at h
  · split at h
    · cases h
      rfl
    · cases h
  · cases h

/-- A number behind a backslash is skipped in one step if it can be read. -/
theorem skipChars_of_readHex {text rest : List Char} {n : Nat} (h : readHex text = .ok (n, rest))
    (fuel : Nat) : skipChars (fuel + 1) ('\\' :: 'u' :: text) = skipChars fuel rest := by
  simp only [skipChars, skipEscape, h, bind, Except.bind, Except.map]

/-- A character behind a backslash is skipped in as many steps as it has halves. -/
theorem skipChars_of_readEscape {text rest : List Char} {c : Char}
    (h : readEscape text = .ok (c, rest)) :
    ∃ steps, 0 < steps ∧ steps + rest.length ≤ text.length ∧
      ∀ fuel, skipChars (fuel + steps) ('\\' :: text) = skipChars fuel rest := by
  rw [readEscape.eq_def] at h
  split at h
  case h_10 cs =>
    -- The number of a character, or of the first half of one; all other letters are one step.
    obtain ⟨⟨code, between⟩, hcode, h⟩ := bind_eq_ok_iff.mp h
    have hlength := length_of_readHex hcode
    dsimp only at h
    split at h
    · cases h
    split at h
    · cases h
      refine ⟨1, Nat.one_pos, ?_, fun fuel => skipChars_of_readHex hcode fuel⟩
      rw [List.length_cons]
      omega
    · -- The second half is a step of its own.
      rw [readLowHalf.eq_def] at h
      split at h
      · cases h
      · cases h
      · next cs' =>
        obtain ⟨⟨low, behind⟩, hlow, h⟩ := bind_eq_ok_iff.mp h
        have hlength' := length_of_readHex hlow
        dsimp only at h
        split at h
        · cases h
        · obtain ⟨-, rfl⟩ := Prod.mk.inj (Except.ok.inj h)
          refine ⟨2, Nat.two_pos, ?_, fun fuel => ?_⟩
          · simp only [List.length_cons] at hlength ⊢
            omega
          · rw [skipChars_of_readHex hcode (fuel + 1), skipChars_of_readHex hlow]
      · cases h
      · cases h
  case h_1 | h_11 => cases h
  all_goals
    cases h
    exact ⟨1, Nat.one_pos, by simp [Nat.add_comm], fun _ => rfl⟩

/-- Characters that can be read can be skipped, up to the same place. -/
theorem skipChars_of_readChars {fuel : Nat} {read text rest : List Char} {s : String}
    (h : readChars fuel read text = .ok (s, rest)) {fuel' : Nat} (hfuel : text.length < fuel') :
    skipChars fuel' text = .ok rest := by
  induction fuel generalizing read text fuel' with
  | zero => cases h
  | succ fuel ih =>
    obtain ⟨fuel', rfl⟩ : ∃ n, fuel' = n + 1 := ⟨fuel' - 1, by omega⟩
    cases text with
    | nil => cases h
    | cons c cs =>
      rw [List.length_cons] at hfuel
      by_cases hquote : c = '"'
      · subst hquote
        cases h
        rfl
      by_cases hslash : c = '\\'
      · subst hslash
        obtain ⟨⟨d, between⟩, hescape, hbehind⟩ := bind_eq_ok_iff.mp h
        obtain ⟨steps, hsteps, hlength, hskip⟩ := skipChars_of_readEscape hescape
        have hrest : fuel' + 1 = fuel' + 1 - steps + steps := by omega
        rw [hrest, hskip, ih hbehind (by omega)]
      · simp only [readChars] at h
        split at h
        · cases h
        · next hcontrol =>
          have hbehind : skipChars fuel' cs = .ok rest := ih h (by omega)
          rwa [skipChars, if_neg hcontrol]
          · exact hquote
          · exact hslash

/-- **A string that is read can be skipped**, up to the same place. -/
theorem skipString_of_readString {text rest : List Char} {s : String}
    (h : readString text = .ok (s, rest)) : skipString text = .ok rest :=
  skipChars_of_readChars h (Nat.lt_succ_self _)

/-- A string that is read is read up to its closing quote. -/
theorem rest_of_readString {text rest behind : List Char} {s : String} (htext : LiteralText text)
    (h : readString (text ++ '"' :: rest) = .ok (s, behind)) : behind = rest := by
  have hskip := skipString_of_readString h
  rw [skipString_of_literalText htext] at hskip
  exact (Except.ok.inj hskip).symm

end Hypermark.Json
