import Hypermark.Proofs.Json.StringText

/-!
# How values are written

The texts of values as JSON has them (`ValueText`): words, numbers, strings, and arrays and objects with
any blanks between their parts.  Every one of them is skipped as a whole, whatever stands around it, at
any depth and with numbers of any size (`skipValue_of_valueText`).  A printed object is one
without any blanks (`toList_print_obj`).

The skipper goes through the brackets of a text and not through its values, so what it needs for a value
is said as a number of steps that lead from in front of the value to behind it (`Skips`).  From there it
goes on with what is open around it.
-/

namespace Hypermark.Json

/-! ## Blanks -/

/-- There are only blanks. -/
def Blank (gap : List Char) : Prop := ∀ c ∈ gap, isBlank c = true

instance : DecidablePred Blank := fun gap => List.decidableBAll _ gap

/-- There may be no blanks at all. -/
theorem blank_nil : Blank [] := List.forall_mem_nil _

/-- Blanks in front are skipped. -/
theorem skipBlanks_append {gap : List Char} (h : Blank gap) (rest : List Char) :
    skipBlanks (gap ++ rest) = skipBlanks rest := by
  induction gap with
  | nil => rfl
  | cons c cs ih =>
    obtain ⟨hc, hcs⟩ := List.forall_mem_cons.mp h
    rw [List.cons_append, skipBlanks, if_pos hc, ih hcs]

/-- Where there is no blank nothing is skipped. -/
theorem skipBlanks_cons {c : Char} (h : isBlank c = false) (cs : List Char) :
    skipBlanks (c :: cs) = c :: cs := by
  rw [skipBlanks, h]
  rfl

/-- Blanks in front of something else, where the reader skips blanks. -/
theorem skipBlanks_append_cons {gap : List Char} (h : Blank gap) {c : Char} (hc : isBlank c = false)
    (cs : List Char) : skipBlanks (gap ++ c :: cs) = c :: cs := by
  rw [skipBlanks_append h, skipBlanks_cons hc]

/-- A value may end here: the text is at its end, or goes on with a blank, a comma or a closing
bracket. -/
def Ends (rest : List Char) : Prop :=
  ∀ c ∈ rest.head?, isBlank c = true ∨ c = ',' ∨ c = ']' ∨ c = '\x7d'

/-- Whether a value may end is decided by the next character. -/
theorem ends_cons {c : Char} {rest : List Char} :
    Ends (c :: rest) ↔ isBlank c = true ∨ c = ',' ∨ c = ']' ∨ c = '\x7d' := by
  simp [Ends]

/-- A value may end in front of blanks, if it may end behind them. -/
theorem ends_append {gap rest : List Char} (h : Blank gap) (hrest : Ends rest) : Ends (gap ++ rest) := by
  cases gap with
  | nil => exact hrest
  | cons c cs => exact ends_cons.mpr (.inl (h c List.mem_cons_self))

/-! ## Numbers -/

/-- The digits of a number in front of the point: there are no zeros in front of others. -/
inductive WholeText : List Char → Prop
  | zero : WholeText ['0']
  | digits {c : Char} {cs : List Char} (hc : c.isDigit) (hne : c ≠ '0') (hcs : ∀ d ∈ cs, d.isDigit) :
    WholeText (c :: cs)

/-- The point of a number and the digits behind it, if there are any. -/
inductive FractionText : List Char → Prop
  | none : FractionText []
  | point {c : Char} {cs : List Char} (h : ∀ d ∈ c :: cs, d.isDigit) : FractionText ('.' :: c :: cs)

/-- The exponent of a number, if there is one. -/
inductive ExponentText : List Char → Prop
  | none : ExponentText []
  | some {letter c : Char} {sign cs : List Char} (hletter : letter = 'e' ∨ letter = 'E')
    (hsign : sign = [] ∨ sign = ['+'] ∨ sign = ['-']) (h : ∀ d ∈ c :: cs, d.isDigit) :
    ExponentText (letter :: (sign ++ c :: cs))

/-- A number. -/
inductive NumberText : List Char → Prop
  | intro {sign whole fraction exponent : List Char} (hsign : sign = [] ∨ sign = ['-'])
    (hwhole : WholeText whole) (hfraction : FractionText fraction) (hexponent : ExponentText exponent) :
    NumberText (sign ++ (whole ++ (fraction ++ exponent)))

/-- A digit is read as one. -/
theorem isSome_digit? {c : Char} (h : c.isDigit) : (digit? c).isSome = true := by
  rw [digit?_of_isDigit h, Option.isSome_some]

/-- There is no digit where a value may end. -/
theorem Ends.undigited {rest : List Char} (h : Ends rest) : Undigited rest := by
  intro c hc
  rcases h c hc with hblank | rfl | rfl | rfl
  · simp only [isBlank, Bool.or_eq_true, decide_eq_true_eq] at hblank
    rcases hblank with ((rfl | rfl) | rfl) | rfl <;> decide
  · decide
  · decide
  · decide

/-- Digits are skipped and counted up to the rest. -/
theorem skipDigits_append {digits rest : List Char} (hdigits : ∀ d ∈ digits, d.isDigit)
    (hrest : Undigited rest) (count : Nat) :
    skipDigits count (digits ++ rest) = (count + digits.length, rest) := by
  induction digits generalizing count with
  | nil =>
    cases rest with
    | nil => rfl
    | cons c cs =>
      rw [List.nil_append, skipDigits, undigited_cons.mp hrest]
      rfl
  | cons c cs ih =>
    obtain ⟨hc, hcs⟩ := List.forall_mem_cons.mp hdigits
    rw [List.cons_append, skipDigits, if_pos (isSome_digit? hc), ih hcs, List.length_cons]
    congr 1
    omega

/-- No value ends in front of the letter of an exponent or of a point. -/
theorem Ends.ne {c : Char} {cs : List Char} (h : Ends (c :: cs)) : c ≠ 'e' ∧ c ≠ 'E' ∧ c ≠ '.' := by
  refine ⟨?_, ?_, ?_⟩ <;>
  · rintro rfl
    exact absurd (ends_cons.mp h) (by decide)

/-- An exponent is skipped, if there is one. -/
theorem skipOptionalExponent_append {exponent rest : List Char} (h : ExponentText exponent)
    (hrest : Ends rest) : skipOptionalExponent (exponent ++ rest) = .ok rest := by
  cases h with
  | none =>
    cases rest with
    | nil => rfl
    | cons c cs =>
      obtain ⟨hsmall, hlarge, -⟩ := hrest.ne
      rw [List.nil_append, skipOptionalExponent]
      · exact fun cs heq => hsmall (List.head_eq_of_cons_eq heq)
      · exact fun cs heq => hlarge (List.head_eq_of_cons_eq heq)
  | @some letter c sign cs hletter hsign hdigits =>
    obtain ⟨hc, hcs⟩ := List.forall_mem_cons.mp hdigits
    have hskip : skipExponent (sign ++ c :: (cs ++ rest)) = .ok rest := by
      have hrun : (if (digit? c).isSome then (.ok (skipDigits 0 (cs ++ rest)).2)
          else failAt .invalidNumber (c :: (cs ++ rest))) = (.ok rest : Except JsonFault (List Char)) := by
        rw [if_pos (isSome_digit? hc), skipDigits_append hcs hrest.undigited]
      have hplus : c ≠ '+' := by rintro rfl; exact absurd hc (by decide)
      have hminus : c ≠ '-' := by rintro rfl; exact absurd hc (by decide)
      rcases hsign with rfl | rfl | rfl
      · simpa [skipExponent, hplus, hminus] using hrun
      · exact hrun
      · exact hrun
    rcases hletter with rfl | rfl <;> simpa [skipOptionalExponent] using hskip

/-- Digits do not go on at an exponent. -/
theorem ExponentText.undigited {exponent rest : List Char} (h : ExponentText exponent)
    (hrest : Ends rest) : Undigited (exponent ++ rest) := by
  cases h with
  | none => exact hrest.undigited
  | some hletter =>
    rw [List.cons_append, undigited_cons]
    rcases hletter with rfl | rfl <;> decide

/-- The point with its digits and the exponent are skipped. -/
theorem skipTail_append {fraction exponent rest : List Char} (hfraction : FractionText fraction)
    (hexponent : ExponentText exponent) (hrest : Ends rest) :
    skipTail (fraction ++ (exponent ++ rest)) = .ok rest := by
  have hexp := skipOptionalExponent_append hexponent hrest
  cases hfraction with
  | none =>
    rw [List.nil_append, skipTail, hexp]
    intro cs heq
    cases hexponent with
    | none =>
      rw [List.nil_append] at heq
      subst heq
      exact hrest.ne.2.2 rfl
    | some hletter =>
      rw [List.cons_append] at heq
      rcases hletter with rfl | rfl <;> exact absurd (List.head_eq_of_cons_eq heq) (by decide)
  | @point c cs h =>
    have hdigits := skipDigits_append h (hexponent.undigited hrest) 0
    rw [List.cons_append, skipTail, hdigits, List.length_cons, ← Nat.add_assoc]
    exact hexp

/-- A number is skipped up to its end. -/
theorem skipNumber_append {whole fraction exponent rest : List Char} (hwhole : WholeText whole)
    (hfraction : FractionText fraction) (hexponent : ExponentText exponent) (hrest : Ends rest) :
    skipNumber (whole ++ (fraction ++ (exponent ++ rest))) = .ok rest := by
  have htail := skipTail_append hfraction hexponent hrest
  have hundigited : Undigited (fraction ++ (exponent ++ rest)) := by
    cases hfraction with
    | none => exact hexponent.undigited hrest
    | point => exact undigited_cons.mpr (by decide)
  cases hwhole with
  | zero =>
    rw [List.cons_append, List.nil_append, skipNumber.eq_def]
    dsimp only
    cases hbehind : fraction ++ (exponent ++ rest) with
    | nil =>
      rw [hbehind] at htail
      exact htail
    | cons d ds =>
      rw [hbehind] at htail hundigited
      simp only [show digit? '0' = some 0 from by decide, undigited_cons.mp hundigited]
      exact htail
  | @digits c cs hc hne hcs =>
    -- The first digit is not zero, so others may follow it.
    have hpositive := digitValue_ne_zero hc hne
    rw [List.cons_append, skipNumber.eq_def]
    dsimp only
    rw [digit?_of_isDigit hc]
    split
    · contradiction
    · next h0 => exact absurd (Option.some.inj h0) hpositive
    · rw [skipDigits_append hcs hundigited]
      exact htail

/-! ## Values -/

/-- Texts with commas between them; `first` says that none is in front. -/
def commaSeparated (first : Bool) : List (List Char) → List Char
  | [] => []
  | text :: texts => (if first then [] else [',']) ++ (text ++ commaSeparated false texts)

/-- There is no comma in front of the first text. -/
theorem commaSeparated_true_cons (text : List Char) (texts : List (List Char)) :
    commaSeparated true (text :: texts) = text ++ commaSeparated false texts := rfl

/-- There is one in front of any other. -/
theorem commaSeparated_false_cons (text : List Char) (texts : List (List Char)) :
    commaSeparated false (text :: texts) = ',' :: (text ++ commaSeparated false texts) := rfl

/-- A value with what stands around it. -/
structure ItemParts where
  before : List Char
  value : List Char
  after : List Char

/-- A name between quotes and a colon with what stands around them, and the value behind them. -/
structure MemberParts where
  before : List Char
  name : List Char
  between : List Char
  item : ItemParts

namespace ItemParts

/-- The whole text. -/
def text (item : ItemParts) : List Char := item.before ++ (item.value ++ item.after)

/-- Only blanks stand around the value. -/
def Spaced (item : ItemParts) : Prop := Blank item.before ∧ Blank item.after

instance : DecidablePred Spaced := fun item =>
  inferInstanceAs (Decidable (Blank item.before ∧ Blank item.after))

end ItemParts

namespace MemberParts

/-- The whole text. -/
def text (member : MemberParts) : List Char :=
  member.before ++ '"' :: (member.name ++ '"' :: (member.between ++ ':' :: member.item.text))

/-- Only blanks stand around the name, the colon and the value. -/
def Spaced (member : MemberParts) : Prop :=
  Blank member.before ∧ Blank member.between ∧ member.item.Spaced

instance : DecidablePred Spaced := fun member =>
  inferInstanceAs (Decidable (Blank member.before ∧ Blank member.between ∧ member.item.Spaced))

end MemberParts

/-- An array, with blanks in front of its items. -/
def arrayText (gap : List Char) (items : List ItemParts) : List Char :=
  '[' :: (gap ++ (commaSeparated true (items.map ItemParts.text) ++ [']']))

/-- An object, with blanks in front of its members. -/
def objectText (gap : List Char) (members : List MemberParts) : List Char :=
  '\x7b' :: (gap ++ (commaSeparated true (members.map MemberParts.text) ++ ['\x7d']))

/-- The texts of values. -/
inductive ValueText : List Char → Prop
  | null : ValueText ['n', 'u', 'l', 'l']
  | true : ValueText ['t', 'r', 'u', 'e']
  | false : ValueText ['f', 'a', 'l', 's', 'e']
  | number {text : List Char} (h : NumberText text) : ValueText text
  | string {text : List Char} (h : LiteralText text) : ValueText ('"' :: (text ++ ['"']))
  | array {gap : List Char} {items : List ItemParts} (hgap : Blank gap)
    (hspaced : ∀ item ∈ items, item.Spaced) (hvalues : ∀ item ∈ items, ValueText item.value) :
    ValueText (arrayText gap items)
  | object {gap : List Char} {members : List MemberParts} (hgap : Blank gap)
    (hspaced : ∀ member ∈ members, member.Spaced)
    (hnames : ∀ member ∈ members, LiteralText member.name)
    (hvalues : ∀ member ∈ members, ValueText member.item.value) :
    ValueText (objectText gap members)

/-- A digit is no blank. -/
theorem isBlank_of_isDigit {c : Char} (h : c.isDigit) : isBlank c = false :=
  (not_isBlank_of_isDigit h).1

/-- The digits in front of the point begin with one. -/
theorem WholeText.head {text : List Char} (h : WholeText text) :
    ∃ c cs, text = c :: cs ∧ c.isDigit := by
  cases h with
  | zero => exact ⟨_, _, rfl, by decide⟩
  | digits hc => exact ⟨_, _, rfl, hc⟩

/-- The first character of a number is a digit or a sign. -/
theorem NumberText.head {text : List Char} (h : NumberText text) :
    ∃ c cs, text = c :: cs ∧ (c.isDigit ∨ c = '-') := by
  obtain ⟨hsign, hwhole, -, -⟩ := h
  rcases hsign with rfl | rfl
  · obtain ⟨c, cs, rfl, hc⟩ := hwhole.head
    exact ⟨_, _, rfl, .inl hc⟩
  · exact ⟨_, _, rfl, .inr rfl⟩

/-- The text of a value opens. -/
theorem ValueText.opens {text : List Char} (h : ValueText text) (rest : List Char) :
    Opens (text ++ rest) := by
  cases h with
  | null | true | false | string | array | object => exact ⟨_, _, rfl, by decide, by decide⟩
  | number h =>
    obtain ⟨c, cs, rfl, hc | rfl⟩ := h.head
    · exact ⟨c, cs ++ rest, rfl, not_isBlank_of_isDigit hc⟩
    · exact ⟨_, _, rfl, by decide, by decide⟩

/-! ## Skipping -/

/-- The skipper gets from in front of the value to behind it, whatever is open around it. -/
def Skips (text : List Char) : Prop :=
  ∃ steps, 0 < steps ∧ steps ≤ 2 * text.length ∧ ∀ fuel brackets rest, Ends rest →
    skipInside (fuel + steps) brackets (text ++ rest) = skipBehind fuel brackets rest

/-- A value that is skipped in one step. -/
theorem skips_of_step {text : List Char} (hne : text ≠ [])
    (h : ∀ fuel brackets rest, Ends rest →
      skipInside (fuel + 1) brackets (text ++ rest) = skipBehind fuel brackets rest) :
    Skips text := by
  have hpos := List.length_pos_iff.mpr hne
  exact ⟨1, Nat.one_pos, by omega, h⟩

/-- Blanks in front of a value are skipped. -/
theorem skipInside_blanks {gap : List Char} (h : Blank gap) (fuel : Nat) (brackets : List Bracket)
    (text : List Char) :
    skipInside (fuel + 1) brackets (gap ++ text) = skipInside (fuel + 1) brackets text := by
  rw [skipInside, skipInside, skipBlanks_append h]

/-- So are those behind one. -/
theorem skipBehind_blanks {gap : List Char} (h : Blank gap) (fuel : Nat) (bracket : Bracket)
    (brackets : List Bracket) (text : List Char) :
    skipBehind (fuel + 1) (bracket :: brackets) (gap ++ text)
      = skipBehind (fuel + 1) (bracket :: brackets) text := by
  rw [skipBehind, skipBehind, skipBlanks_append h]

/-- A digit begins a number. -/
theorem skipInside_of_isDigit {c : Char} (h : c.isDigit) (fuel : Nat) (brackets : List Bracket)
    (cs : List Char) :
    skipInside (fuel + 1) brackets (c :: cs)
      = skipNumber (c :: cs) >>= fun rest => skipBehind fuel brackets rest := by
  have hne {d : Char} {ds : List Char} (hd : d.isDigit = false) : c :: cs ≠ d :: ds := by
    intro heq
    rw [List.head_eq_of_cons_eq heq, hd] at h
    contradiction
  rw [skipInside, skipBlanks_cons (isBlank_of_isDigit h)]
  split
  case h_1 => contradiction
  case h_9 heq =>
    obtain ⟨rfl, rfl⟩ := List.cons.inj heq
    rw [if_pos (isSome_digit? h)]
  all_goals
    next heq => exact absurd heq (hne (by decide))

/-- A number is skipped. -/
theorem skips_number {text : List Char} (h : NumberText text) : Skips text := by
  obtain ⟨c, cs, hhead, -⟩ := h.head
  refine skips_of_step (by rw [hhead]; exact List.cons_ne_nil c cs) fun fuel brackets rest hrest => ?_
  obtain ⟨hsign, hwhole, hfraction, hexponent⟩ := h
  have hskip := skipNumber_append hwhole hfraction hexponent hrest
  obtain ⟨d, ds, rfl, hd⟩ := hwhole.head
  rcases hsign with rfl | rfl
  · rw [List.nil_append, List.append_assoc, List.append_assoc, List.cons_append,
      skipInside_of_isDigit hd, ← List.cons_append, hskip]
    rfl
  · rw [List.singleton_append, List.cons_append, List.append_assoc, List.append_assoc, skipInside,
      skipBlanks_cons (by decide)]
    simp only [hskip, bind, Except.bind]

/-- So is a string. -/
theorem skips_string {text : List Char} (h : LiteralText text) :
    Skips ('"' :: (text ++ ['"'])) := by
  refine skips_of_step (List.cons_ne_nil _ _) fun fuel brackets rest _ => ?_
  have hskip := skipString_of_literalText h rest
  simp [skipInside, skipBlanks, isBlank, hskip, bind, Except.bind]

/-! ### Brackets -/

/-- The text of an item or of a member in a bracket, and the value in it, which is to be skipped. -/
structure IsPart (bracket : Bracket) (text : List Char) (item : ItemParts) : Prop where
  spaced : item.Spaced
  skips : Skips item.value
  length_le : item.value.length ≤ text.length
  /-- It cannot be taken for the end of the bracket. -/
  opens (rest : List Char) : ∃ c cs, skipBlanks (text ++ rest) = c :: cs ∧ c ≠ bracket.close
  /-- The name of a member is skipped. -/
  name (rest : List Char) : skipName bracket (text ++ rest) = .ok (item.text ++ rest)

variable {bracket : Bracket}

/-- From in front of a value to the blanks behind it. -/
theorem IsPart.skipInside {text : List Char} {item : ItemParts} (h : IsPart bracket text item) :
    ∃ steps, 0 < steps ∧ steps ≤ 2 * text.length ∧ ∀ fuel brackets rest, Ends rest →
      Json.skipInside (fuel + steps) brackets (item.text ++ rest)
        = skipBehind fuel brackets (item.after ++ rest) := by
  obtain ⟨steps, hpos, hle, hskip⟩ := h.skips
  have hlength := h.length_le
  refine ⟨steps, hpos, by omega, fun fuel brackets rest hrest => ?_⟩
  obtain ⟨hbefore, hafter⟩ := h.spaced
  obtain ⟨steps, rfl⟩ : ∃ n, steps = n + 1 := ⟨steps - 1, by omega⟩
  have hends := ends_append hafter hrest
  rw [ItemParts.text, List.append_assoc, List.append_assoc, ← Nat.add_assoc,
    skipInside_blanks hbefore, Nat.add_assoc, hskip _ _ _ hends]

/-- A closing bracket is no blank. -/
theorem isBlank_close (bracket : Bracket) : isBlank bracket.close = false := by
  cases bracket <;> decide

/-- Nor is it a comma. -/
theorem close_ne_comma (bracket : Bracket) : bracket.close ≠ ',' := by
  cases bracket <;> decide

/-- Behind a comma the next part is skipped. -/
theorem skipBehind_comma (fuel : Nat) (brackets : List Bracket) (text : List Char) :
    skipBehind (fuel + 1) (bracket :: brackets) (',' :: text)
      = skipName bracket text >>= fun rest => skipInside fuel (bracket :: brackets) rest := by
  rw [skipBehind, skipBlanks_cons (by decide)]
  dsimp only
  rw [if_pos rfl]

/-- A closing bracket closes what was opened last. -/
theorem skipBehind_close (fuel : Nat) (brackets : List Bracket) (rest : List Char) :
    skipBehind (fuel + 1) (bracket :: brackets) (bracket.close :: rest)
      = skipBehind fuel brackets rest := by
  rw [skipBehind, skipBlanks_cons (isBlank_close bracket)]
  dsimp only
  rw [if_neg (close_ne_comma bracket), if_pos rfl]

/-- A value may end in front of further parts and in front of the end of a bracket. -/
theorem ends_commaSeparated (texts : List (List Char)) (rest : List Char) :
    Ends (commaSeparated false texts ++ bracket.close :: rest) := by
  cases texts with
  | nil =>
    refine ends_cons.mpr ?_
    cases bracket <;> decide
  | cons text texts => exact ends_cons.mpr (.inr (.inl rfl))

/-- The parts of a bracket behind the first are skipped, and the end of the bracket. -/
theorem skipBehind_parts {parts : List (List Char × ItemParts)}
    (h : ∀ part ∈ parts, IsPart bracket part.1 part.2) :
    ∃ steps, 0 < steps ∧ steps ≤ 2 * (commaSeparated false (parts.map Prod.fst)).length + 1 ∧
      ∀ fuel gap brackets rest, Blank gap →
        skipBehind (fuel + steps) (bracket :: brackets)
            (gap ++ (commaSeparated false (parts.map Prod.fst) ++ bracket.close :: rest))
          = skipBehind fuel brackets rest := by
  induction parts with
  | nil =>
    refine ⟨1, Nat.one_pos, by simp, fun fuel gap brackets rest hgap => ?_⟩
    rw [skipBehind_blanks hgap]
    exact skipBehind_close fuel brackets rest
  | cons part parts ih =>
    obtain ⟨hpart, hparts⟩ := List.forall_mem_cons.mp h
    obtain ⟨steps, hpos, hle, hskip⟩ := ih hparts
    obtain ⟨steps', hpos', hle', hskip'⟩ := hpart.skipInside
    refine ⟨steps + steps' + 1, by omega, ?_, fun fuel gap brackets rest hgap => ?_⟩
    · rw [List.map_cons, commaSeparated_false_cons, List.length_cons, List.length_append]
      omega
    · have htext : commaSeparated false ((part :: parts).map Prod.fst) ++ bracket.close :: rest
          = ',' :: (part.1 ++ (commaSeparated false (parts.map Prod.fst) ++ bracket.close :: rest)) := by
        rw [List.map_cons, commaSeparated_false_cons, List.cons_append, List.append_assoc]
      rw [htext, ← Nat.add_assoc, ← Nat.add_assoc, skipBehind_blanks hgap, skipBehind_comma, hpart.name]
      simp only [bind, Except.bind]
      rw [hskip' _ _ _ (ends_commaSeparated _ rest), hskip _ _ _ _ hpart.spaced.2]

/-- Behind blanks that were skipped there are none to skip. -/
theorem skipBlanks_skipBlanks (text : List Char) : skipBlanks (skipBlanks text) = skipBlanks text := by
  induction text with
  | nil => rfl
  | cons c cs ih =>
    rw [skipBlanks]
    split
    · exact ih
    · next hc => exact skipBlanks_cons (Bool.eq_false_of_not_eq_true hc) cs

/-- Blanks in front of a part make no difference. -/
theorem skipName_skipBlanks (fuel : Nat) (brackets : List Bracket) (text : List Char) :
    (skipName bracket (skipBlanks text) >>= fun rest => skipInside (fuel + 1) brackets rest)
      = skipName bracket text >>= fun rest => skipInside (fuel + 1) brackets rest := by
  cases bracket with
  | array =>
    simp only [skipName, bind, Except.bind]
    rw [skipInside, skipInside, skipBlanks_skipBlanks]
  | object => rw [skipName, skipName, skipBlanks_skipBlanks]

/-- A bracket that has been opened is skipped up to its end. -/
theorem skipOpened_parts {parts : List (List Char × ItemParts)}
    (h : ∀ part ∈ parts, IsPart bracket part.1 part.2) {gap : List Char} (hgap : Blank gap) :
    ∃ steps, steps ≤ 2 * (commaSeparated true (parts.map Prod.fst)).length + 3 ∧
      ∀ fuel brackets rest,
        skipOpened (fuel + steps) bracket brackets
            (gap ++ (commaSeparated true (parts.map Prod.fst) ++ bracket.close :: rest))
          = skipBehind fuel brackets rest := by
  cases parts with
  | nil =>
    refine ⟨1, by omega, fun fuel brackets rest => ?_⟩
    rw [List.map_nil, commaSeparated, List.nil_append, skipOpened,
      skipBlanks_append_cons hgap (isBlank_close bracket)]
    dsimp only
    rw [if_pos rfl]
  | cons part parts =>
    obtain ⟨hpart, hparts⟩ := List.forall_mem_cons.mp h
    obtain ⟨steps, hpos, hle, hskip⟩ := skipBehind_parts hparts
    obtain ⟨steps', hpos', hle', hskip'⟩ := hpart.skipInside
    refine ⟨steps + steps' + 1, ?_, fun fuel brackets rest => ?_⟩
    · rw [List.map_cons, commaSeparated_true_cons, List.length_append]
      omega
    · have htext : commaSeparated true ((part :: parts).map Prod.fst) ++ bracket.close :: rest
          = part.1 ++ (commaSeparated false (parts.map Prod.fst) ++ bracket.close :: rest) := by
        rw [List.map_cons, commaSeparated_true_cons, List.append_assoc]
      obtain ⟨c, cs, hopens, hc⟩ :=
        hpart.opens (commaSeparated false (parts.map Prod.fst) ++ bracket.close :: rest)
      obtain ⟨fuel', hfuel⟩ : ∃ n, fuel + (steps + steps') = n + 1 :=
        ⟨fuel + (steps + steps') - 1, by omega⟩
      rw [htext, ← Nat.add_assoc, skipOpened, skipBlanks_append hgap, hopens]
      dsimp only
      rw [if_neg hc, ← hopens, hfuel, skipName_skipBlanks, ← hfuel, hpart.name, ← Nat.add_assoc]
      simp only [bind, Except.bind]
      rw [hskip' _ _ _ (ends_commaSeparated _ rest), hskip _ _ _ _ hpart.spaced.2]

/-- A value in brackets is skipped if its parts are. -/
theorem skips_bracket {parts : List (List Char × ItemParts)}
    (h : ∀ part ∈ parts, IsPart bracket part.1 part.2) {gap : List Char} (hgap : Blank gap) {c : Char}
    (hopen : ∀ fuel brackets text,
      skipInside (fuel + 1) brackets (c :: text) = skipOpened fuel bracket brackets text) :
    Skips (c :: (gap ++ (commaSeparated true (parts.map Prod.fst) ++ [bracket.close]))) := by
  obtain ⟨steps, hle, hskip⟩ := skipOpened_parts h hgap
  refine ⟨steps + 1, Nat.succ_pos _, ?_, fun fuel brackets rest _ => ?_⟩
  · simp only [List.length_cons, List.length_append, List.length_nil]
    omega
  · rw [List.cons_append, List.append_assoc, List.append_assoc, List.singleton_append,
      ← Nat.add_assoc, hopen, hskip]

/-- An item is a part of an array. -/
theorem isPart_item {item : ItemParts} (hspaced : item.Spaced) (hvalue : ValueText item.value)
    (hskips : Skips item.value) : IsPart .array item.text item where
  spaced := hspaced
  skips := hskips
  length_le := by
    simp only [ItemParts.text, List.length_append]
    omega
  opens rest := by
    obtain ⟨c, cs, heq, hblank, hc⟩ := hvalue.opens (item.after ++ rest)
    refine ⟨c, cs, ?_, hc⟩
    rw [ItemParts.text, List.append_assoc, List.append_assoc, heq,
      skipBlanks_append_cons hspaced.1 hblank]
  name _ := rfl

/-- The colon may stand behind blanks. -/
theorem readColon_append {gap : List Char} (h : Blank gap) (rest : List Char) :
    readColon (gap ++ ':' :: rest) = .ok rest := by
  rw [readColon, skipBlanks_append_cons h (by decide)]
  rfl

/-- A member is a part of an object. -/
theorem isPart_member {member : MemberParts} (hspaced : member.Spaced)
    (hname : LiteralText member.name) (hskips : Skips member.item.value) :
    IsPart .object member.text member.item where
  spaced := hspaced.2.2
  skips := hskips
  length_le := by
    simp only [MemberParts.text, ItemParts.text, List.length_append, List.length_cons]
    omega
  opens rest := by
    rw [MemberParts.text, List.append_assoc, List.cons_append]
    exact ⟨_, _, skipBlanks_append_cons hspaced.1 (by decide) _, by decide⟩
  name rest := by
    have htext : member.text ++ rest = member.before ++ '"' :: (member.name ++ '"' ::
        (member.between ++ ':' :: (member.item.text ++ rest))) := by
      simp [MemberParts.text]
    rw [htext, skipName, skipBlanks_append_cons hspaced.1 (by decide)]
    simp only [skipString_of_literalText hname, bind, Except.bind]
    exact readColon_append hspaced.2.1 _

/-- The text of a value is skipped; by induction on the value. -/
theorem ValueText.skips {text : List Char} (h : ValueText text) : Skips text := by
  induction h with
  | null | true | false =>
    refine skips_of_step (List.cons_ne_nil _ _) fun fuel brackets rest _ => ?_
    simp [skipInside, skipBlanks, isBlank, readWord, bind, Except.bind]
  | number h => exact skips_number h
  | string h => exact skips_string h
  | @array gap items hgap hspaced hvalues ih =>
    have hparts : ∀ part ∈ items.map fun item => (item.text, item), IsPart .array part.1 part.2 := by
      intro part hpart
      obtain ⟨item, hitem, rfl⟩ := List.mem_map.mp hpart
      exact isPart_item (hspaced item hitem) (hvalues item hitem) (ih item hitem)
    have hskips := @skips_bracket _ _ hparts _ hgap '[' fun _ _ _ => rfl
    rwa [List.map_map] at hskips
  | @object gap members hgap hspaced hnames hvalues ih =>
    have hparts : ∀ part ∈ members.map fun member => (member.text, member.item),
        IsPart .object part.1 part.2 := by
      intro part hpart
      obtain ⟨member, hmember, rfl⟩ := List.mem_map.mp hpart
      exact isPart_member (hspaced member hmember) (hnames member hmember) (ih member hmember)
    have hskips := @skips_bracket _ _ hparts _ hgap '\x7b' fun _ _ _ => rfl
    rwa [List.map_map] at hskips

/-- **The text of a value is skipped as a whole.** -/
theorem skipValue_of_valueText {text : List Char} (h : ValueText text) {gap rest : List Char}
    (hgap : Blank gap) (hrest : Ends rest) : skipValue (gap ++ (text ++ rest)) = .ok rest := by
  obtain ⟨steps, hpos, hle, hskip⟩ := h.skips
  obtain ⟨fuel, hfuel⟩ : ∃ n, 2 * (gap ++ (text ++ rest)).length + 2 = n + 1 + steps := by
    refine ⟨2 * (gap ++ (text ++ rest)).length + 1 - steps, ?_⟩
    simp only [List.length_append]
    omega
  obtain ⟨steps, rfl⟩ : ∃ n, steps = n + 1 := ⟨steps - 1, by omega⟩
  rw [skipValue, hfuel, ← Nat.add_assoc, skipInside_blanks hgap, Nat.add_assoc, hskip _ _ _ hrest]
  rfl

/-! ## Printed objects -/

/-- A member without any blanks. -/
def compactMember (entry : String × Json) : MemberParts :=
  ⟨[], entry.1.toList.flatMap escapeChar, [], ⟨[], entry.2.print.toList, []⟩⟩

/-- No blanks stand around its name, its colon and its value. -/
theorem spaced_compactMember (entry : String × Json) : (compactMember entry).Spaced :=
  ⟨blank_nil, blank_nil, blank_nil, blank_nil⟩

/-- Printed members are such members with commas between them. -/
theorem membersText_eq_commaSeparated (first : Bool) (members : List (String × Json)) :
    membersText first members
      = commaSeparated first ((members.map compactMember).map MemberParts.text) := by
  induction members generalizing first with
  | nil => rfl
  | cons entry members ih =>
    simp [membersText, commaSeparated, ih, toList_quote, compactMember, MemberParts.text,
      ItemParts.text]

/-- A printed object is an object without any blanks. -/
theorem toList_print_obj (members : List (String × Json)) :
    (Json.obj members).print.toList = objectText [] (members.map compactMember) := by
  rw [print, String.toList_append, String.toList_append, toList_printMembers,
    membersText_eq_commaSeparated]
  rfl

end Hypermark.Json
