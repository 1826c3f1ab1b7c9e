import Hypermark.Json.Reader
import Hypermark.Proofs.Json.Fits

/-!
# Reading back what was printed

The text of a value that fits, read again, gives the value with its numbers as they are read again
and the members of its objects in order (`readValue_print_of_fits`): the reader adds the members one
by one.  Where the numbers are integers of 64 bits, only the order may change (`readValue_print`).

Each part of a text is read back in front of any rest: escaped characters, a string, then by
induction on the value everything else.  A number ends only where its rest does, so a rest begins
with a comma or a closing bracket (`Delimited`).
-/

namespace Hypermark.Json

/-! ## Strings -/

/-- A hexadecimal digit is read back. -/
theorem hexValue?_hexDigit {n : Nat} (h : n < 16) : hexValue? (hexDigit n) = some n := by
  have hall : ∀ n < 16, hexValue? (hexDigit n) = some n := by decide
  exact hall n h

/-- A character that is escaped by its number is read back. -/
theorem readEscape_hex {c : Char} {rest : List Char} (h : c.toNat < 0x20) :
    readEscape ('u' :: '0' :: '0' :: hexDigit (c.toNat / 16) :: hexDigit (c.toNat % 16) :: rest)
      = .ok (c, rest) := by
  have hbytes (d : Char) : 0 < (String.utf8EncodeChar d).length := by
    rw [String.length_utf8EncodeChar]
    exact Char.utf8Size_pos d
  have hlength : ¬ (Stop.bytes ('0' :: '0' :: hexDigit (c.toNat / 16) :: hexDigit (c.toNat % 16)
      :: rest)).length < 4 := by
    have h0 := hbytes '0'
    have h1 := hbytes (hexDigit (c.toNat / 16))
    have h2 := hbytes (hexDigit (c.toNat % 16))
    simp only [Stop.bytes, List.flatMap_cons, List.length_append]
    omega
  have hvalue : ((0 * 16 + 0) * 16 + c.toNat / 16) * 16 + c.toNat % 16 = c.toNat := by omega
  have hread : readHex ('0' :: '0' :: hexDigit (c.toNat / 16) :: hexDigit (c.toNat % 16) :: rest)
      = .ok (c.toNat, rest) := by
    rw [readHex, if_neg hlength]
    simp only [show hexValue? '0' = some 0 from by decide,
      hexValue?_hexDigit (show c.toNat / 16 < 16 by omega),
      hexValue?_hexDigit (show c.toNat % 16 < 16 by omega), hvalue]
  simp only [readEscape, hread, bind, Except.bind]
  rw [if_neg (by omega), if_pos (by omega), Char.ofNat_toNat]

/-- A character of a string is read back. -/
theorem readChars_escapeChar {fuel : Nat} {read : List Char} {c : Char} {rest : List Char} :
    readChars (fuel + 1) read (escapeChar c ++ rest) = readChars fuel (c :: read) rest := by
  unfold escapeChar
  split
  · next h => subst h; rfl
  split
  · next h => subst h; rfl
  split
  · next h => subst h; rfl
  split
  · next h => subst h; rfl
  split
  · next h => subst h; rfl
  split
  · next h => subst h; rfl
  split
  · next h => subst h; rfl
  split
  · next h =>
    simp only [List.cons_append, List.nil_append, readChars, readEscape_hex h]
    rfl
  · next hquote hslash _ _ _ _ _ hcontrol =>
    rw [List.cons_append, List.nil_append, readChars, if_neg hcontrol]
    · exact hquote
    · exact hslash

/-- Escaped characters are read back up to the closing quote. -/
theorem readChars_flatMap_escapeChar {fuel : Nat} {read chars rest : List Char}
    (hfuel : chars.length < fuel) :
    readChars fuel read (chars.flatMap escapeChar ++ '"' :: rest)
      = .ok (String.ofList (read.reverse ++ chars), rest) := by
  induction chars generalizing fuel read with
  | nil =>
    obtain ⟨fuel, rfl⟩ : ∃ n, fuel = n + 1 := ⟨fuel - 1, by omega⟩
    simp [readChars]
  | cons c cs ih =>
    rw [List.length_cons] at hfuel
    obtain ⟨fuel, rfl⟩ : ∃ n, fuel = n + 1 := ⟨fuel - 1, by omega⟩
    rw [List.flatMap_cons, List.append_assoc, readChars_escapeChar, ih (by omega)]
    simp

/-- Escaping makes no text shorter. -/
theorem length_le_length_flatMap_escapeChar (chars : List Char) :
    chars.length ≤ (chars.flatMap escapeChar).length := by
  have hpos (c : Char) : 1 ≤ (escapeChar c).length := by
    unfold escapeChar
    split_ifs <;> simp
  induction chars with
  | nil => simp
  | cons c cs ih =>
    have := hpos c
    rw [List.flatMap_cons, List.length_append, List.length_cons]
    omega

/-- A string is printed between quotes, character by character. -/
theorem toList_quote (s : String) :
    (quote s).toList = '"' :: (s.toList.flatMap escapeChar ++ ['"']) := by
  simp [quote]

/-- A string is read back, from behind its opening quote. -/
theorem readString_flatMap_escapeChar (s : String) (rest : List Char) :
    readString (s.toList.flatMap escapeChar ++ '"' :: rest) = .ok (s, rest) := by
  have hlength := length_le_length_flatMap_escapeChar s.toList
  rw [readString, readChars_flatMap_escapeChar]
  · simp
  · rw [List.length_append]
    omega

/-! ## Between items and members -/

/-- The text begins with something that is neither a blank nor the end of an array. -/
def Opens (text : List Char) : Prop := ∃ c cs, text = c :: cs ∧ isBlank c = false ∧ c ≠ ']'

/-- A digit is neither a blank nor the end of an array. -/
theorem not_isBlank_of_isDigit {c : Char} (h : c.isDigit) : isBlank c = false ∧ c ≠ ']' := by
  refine ⟨?_, ?_⟩
  · by_contra hblank
    simp only [Bool.not_eq_false, isBlank, Bool.or_eq_true, decide_eq_true_eq] at hblank
    rcases hblank with ((rfl | rfl) | rfl) | rfl <;> exact absurd h (by decide)
  · rintro rfl
    exact absurd h (by decide)

/-- The digits of a number begin with a digit, whatever follows. -/
theorem exists_toDigits_append (n : Nat) (rest : List Char) :
    ∃ c cs, Nat.toDigits 10 n ++ rest = c :: cs ∧ c.isDigit := by
  cases h : Nat.toDigits 10 n with
  | nil => exact absurd h Nat.toDigits_ne_nil
  | cons c cs =>
    have hmem : c ∈ Nat.toDigits 10 n := by
      rw [h]
      exact List.mem_cons_self
    exact ⟨c, cs ++ rest, rfl, Nat.isDigit_of_mem_toDigits (by decide) (by decide) hmem⟩

/-- An integer is a natural number, or one below zero. -/
theorem natCast_or_neg (value : Int) :
    (∃ n : Nat, value = n) ∨ ∃ n : Nat, 0 < n ∧ value = -n := by
  rcases lt_or_ge value 0 with h | h
  · exact .inr ⟨value.natAbs, by omega, by omega⟩
  · exact .inl ⟨value.natAbs, by omega⟩

/-- A natural number is printed by its digits. -/
theorem toList_text_natCast (n : Nat) :
    (JsonNumber.int n).text.toList = Nat.toDigits 10 n := toList_toString_natCast n

/-- A number below zero is printed by its digits behind a sign. -/
theorem toList_text_neg {n : Nat} (h : 0 < n) :
    (JsonNumber.int (-n)).text.toList = '-' :: Nat.toDigits 10 n := toList_toString_neg h

/-- The text of a number opens with a digit or a sign. -/
theorem exists_text_eq_cons (number : JsonNumber) :
    ∃ c cs, number.text.toList = c :: cs ∧ (c.isDigit ∨ c = '-') := by
  cases number with
  | int value =>
    rcases natCast_or_neg value with ⟨n, rfl⟩ | ⟨n, hn, rfl⟩
    · obtain ⟨c, cs, hcs, hc⟩ := exists_toDigits_append n []
      rw [List.append_nil] at hcs
      exact ⟨c, cs, by rw [toList_text_natCast, hcs], .inl hc⟩
    · exact ⟨'-', _, toList_text_neg hn, .inr rfl⟩
  | real value =>
    rw [JsonNumber.text_real]
    split
    · exact ⟨'-', _, rfl, .inr rfl⟩
    · obtain ⟨c, cs, hcs, hc⟩ := exists_write_eq_cons (JsonNumber.decimal value)
      exact ⟨c, cs, hcs, .inl hc⟩

/-- The text of a value opens. -/
theorem opens_print (value : Json) (rest : List Char) : Opens (value.print.toList ++ rest) := by
  cases value with
  | null => exact ⟨'n', _, rfl, rfl, by decide⟩
  | bool value => cases value <;> exact ⟨_, _, rfl, rfl, by decide⟩
  | str value =>
    rw [print, toList_quote]
    exact ⟨'"', _, rfl, rfl, by decide⟩
  | arr items =>
    exact ⟨'[', (printItems items).toList ++ (']' :: rest), by simp [print], rfl, by decide⟩
  | obj members =>
    exact ⟨'\x7b', (printMembers members).toList ++ ('\x7d' :: rest), by simp [print], rfl,
      by decide⟩
  | num value =>
    obtain ⟨c, cs, hcs, hc⟩ := exists_text_eq_cons value
    rw [print, hcs]
    refine ⟨c, cs ++ rest, rfl, ?_⟩
    rcases hc with hc | rfl
    · exact not_isBlank_of_isDigit hc
    · exact ⟨rfl, by decide⟩

/-- The text of a value is not empty. -/
theorem length_print_pos (value : Json) : 0 < value.print.toList.length := by
  obtain ⟨c, cs, hcs, -⟩ := opens_print value []
  rw [List.append_nil] at hcs
  simp [hcs]

/-- There are no blanks to skip where a value opens. -/
theorem skipBlanks_of_opens {text : List Char} (h : Opens text) : skipBlanks text = text := by
  obtain ⟨c, cs, rfl, hc, _⟩ := h
  rw [skipBlanks, hc]
  rfl

/-- The first item begins where its text opens. -/
theorem readItemStart_true {text : List Char} (h : Opens text) :
    readItemStart true text = .ok (some text) := by
  rw [readItemStart, skipBlanks_of_opens h]
  obtain ⟨c, cs, rfl, _, hc⟩ := h
  split
  · contradiction
  · next heq => exact absurd (List.head_eq_of_cons_eq heq) hc
  · next heq => rw [if_pos rfl, ← heq]

/-- Any other item begins behind a comma. -/
theorem readItemStart_false {text : List Char} (h : Opens text) :
    readItemStart false (',' :: text) = .ok (some text) := by
  have hcomma : skipBlanks (',' :: text) = ',' :: text := rfl
  rw [readItemStart, hcomma]
  split
  · contradiction
  · next heq => exact absurd (List.head_eq_of_cons_eq heq) (by decide)
  · next heq =>
    obtain ⟨rfl, rfl⟩ := List.cons.inj heq
    rw [if_neg Bool.false_ne_true, if_pos rfl, skipBlanks_of_opens h]
    obtain ⟨c, cs, rfl, _, hc⟩ := h
    split
    · contradiction
    · next heq => exact absurd (List.head_eq_of_cons_eq heq) hc
    · rfl

/-! ## Values -/

/-- The text of items: at the front of an array (`first`), or behind other items. -/
def itemsText (first : Bool) : List Json → List Char
  | [] => []
  | item :: items => (if first then [] else [',']) ++ (item.print.toList ++ itemsText false items)

/-- The text of members: at the front of an object (`first`), or behind other members. -/
def membersText (first : Bool) : List (String × Json) → List Char
  | [] => []
  | (name, value) :: members =>
    (if first then [] else [','])
      ++ ((quote name).toList ++ ':' :: (value.print.toList ++ membersText false members))

/-- The printer puts commas between items. -/
theorem toList_printItems (items : List Json) :
    (printItems items).toList = itemsText true items := by
  induction items with
  | nil => rfl
  | cons item items ih =>
    cases items with
    | nil => simp [printItems, itemsText]
    | cons next items =>
      rw [printItems, String.toList_append, String.toList_append, ih]
      · simp [itemsText]
      · simp

/-- So it does between members. -/
theorem toList_printMembers (members : List (String × Json)) :
    (printMembers members).toList = membersText true members := by
  induction members with
  | nil => rfl
  | cons entry members ih =>
    obtain ⟨name, value⟩ := entry
    cases members with
    | nil => simp [printMembers, membersText]
    | cons next members =>
      rw [printMembers]
      · simp only [String.toList_append, ih]
        simp [membersText]
      · simp

/-- Behind an item there is a comma or the end of the array. -/
theorem delimited_itemsText (items : List Json) (rest : List Char) :
    Delimited (itemsText false items ++ ']' :: rest) := by
  cases items with
  | nil => exact delimited_cons.mpr (.inr (.inl rfl))
  | cons item items => exact delimited_cons.mpr (.inl rfl)

/-- Behind a member there is a comma or the end of the object. -/
theorem delimited_membersText (members : List (String × Json)) (rest : List Char) :
    Delimited (membersText false members ++ '\x7d' :: rest) := by
  cases members with
  | nil => exact delimited_cons.mpr (.inr (.inr rfl))
  | cons entry members => exact delimited_cons.mpr (.inl rfl)

/-- The value is read back from its text, whatever follows, when `depth` more arrays and objects may
open. -/
def ReadsBack (depth : Nat) (value : Json) : Prop :=
  ∀ (fuel : Nat) (rest : List Char), value.print.toList.length ≤ fuel → Delimited rest →
    readValueWith fuel depth (value.print.toList ++ rest) = .ok (value.reread.sorted, rest)

/-- Items that are read back one by one are read back as an array. -/
theorem readItemsWith_itemsText {fuel depth : Nat} {first : Bool} {read items : List Json}
    {rest : List Char} (hread : ∀ item ∈ items, ReadsBack depth item)
    (hfuel : (itemsText first items).length < fuel) :
    readItemsWith fuel depth first read (itemsText first items ++ ']' :: rest)
      = .ok (.arr (read.reverse ++ items.map fun item => item.reread.sorted), rest) := by
  induction items generalizing fuel first read with
  | nil =>
    obtain ⟨fuel, rfl⟩ : ∃ n, fuel = n + 1 := ⟨fuel - 1, by omega⟩
    rw [itemsText, List.nil_append, readItemsWith, readItemStart]
    simp [skipBlanks, isBlank, bind, Except.bind]
  | cons item items ih =>
    obtain ⟨fuel, rfl⟩ : ∃ n, fuel = n + 1 := ⟨fuel - 1, by omega⟩
    have hitem := hread item List.mem_cons_self
    have hopens := opens_print item (itemsText false items ++ ']' :: rest)
    have hpositive := length_print_pos item
    have hlength : item.print.toList.length + (itemsText false items).length ≤ fuel := by
      rw [itemsText, List.length_append, List.length_append] at hfuel
      omega
    have hstart : readItemStart first (itemsText first (item :: items) ++ ']' :: rest)
        = .ok (some (item.print.toList ++ (itemsText false items ++ ']' :: rest))) := by
      rw [itemsText]
      cases first with
      | true => simpa using readItemStart_true hopens
      | false => simpa using readItemStart_false hopens
    rw [readItemsWith, hstart]
    simp only [bind, Except.bind]
    rw [hitem fuel _ (by omega) (delimited_itemsText items rest)]
    dsimp only
    rw [ih (fun i hi => hread i (List.mem_cons_of_mem _ hi)) (by omega)]
    simp

/-- Members whose values are read back one by one are read back as an object. -/
theorem readMembersWith_membersText {fuel depth : Nat} {first : Bool} {read : Members Json}
    {members : List (String × Json)} {rest : List Char}
    (hread : ∀ entry ∈ members, ReadsBack depth entry.2)
    (hfuel : (membersText first members).length < fuel) :
    readMembersWith fuel depth first read (membersText first members ++ '\x7d' :: rest)
      = .ok (.obj ((members.map fun entry => (entry.1, entry.2.reread.sorted)).foldl
          (fun members entry => Members.insert entry.1 entry.2 members) read), rest) := by
  induction members generalizing fuel first read with
  | nil =>
    obtain ⟨fuel, rfl⟩ : ∃ n, fuel = n + 1 := ⟨fuel - 1, by omega⟩
    rw [membersText, List.nil_append, readMembersWith, readNameStart]
    simp [skipBlanks, isBlank, bind, Except.bind]
  | cons entry members ih =>
    obtain ⟨name, value⟩ := entry
    obtain ⟨fuel, rfl⟩ : ∃ n, fuel = n + 1 := ⟨fuel - 1, by omega⟩
    have hvalue : ReadsBack depth value := hread (name, value) List.mem_cons_self
    have hlength : value.print.toList.length + (membersText false members).length < fuel := by
      rw [membersText, List.length_append, List.length_append, List.length_cons,
        List.length_append] at hfuel
      omega
    have hstart :
        readNameStart first (membersText first ((name, value) :: members) ++ '\x7d' :: rest)
        = .ok (some (name.toList.flatMap escapeChar ++ '"' :: ':' ::
            (value.print.toList ++ (membersText false members ++ '\x7d' :: rest)))) := by
      rw [membersText, toList_quote]
      cases first <;> simp [readNameStart, skipBlanks, isBlank]
    rw [readMembersWith, hstart]
    simp only [bind, Except.bind]
    rw [readString_flatMap_escapeChar]
    simp only [readColon, skipBlanks, isBlank]
    simp only [Char.reduceEq, decide_false, Bool.or_self, Bool.false_eq_true, if_false]
    rw [hvalue fuel _ (by omega) (delimited_membersText members rest)]
    dsimp only
    rw [ih (fun e he => hread e (List.mem_cons_of_mem _ he)) (by omega)]
    rfl

/-- A digit begins a number. -/
theorem readValueWith_of_isDigit {fuel depth : Nat} {c : Char} {cs : List Char} (h : c.isDigit) :
    readValueWith (fuel + 1) depth (c :: cs)
      = (readNumber false (c :: cs)).map fun read => (.num read.1, read.2) := by
  have hopens : Opens (c :: cs) := ⟨c, cs, rfl, not_isBlank_of_isDigit h⟩
  have hne {d : Char} {ds : List Char} (hd : d.isDigit = false) : c :: cs ≠ d :: ds := by
    intro heq
    rw [List.head_eq_of_cons_eq heq, hd] at h
    contradiction
  rw [readValueWith, skipBlanks_of_opens hopens]
  split
  case h_1 => contradiction
  case h_9 heq =>
    obtain ⟨rfl, rfl⟩ := List.cons.inj heq
    rw [digit?_of_isDigit h, Option.isSome_some, if_pos rfl]
    cases readNumber false (c :: cs) <;> rfl
  all_goals
    next heq => exact absurd heq (hne (by decide))

/-- A number is read back from its text. -/
theorem readsBack_num {number : JsonNumber} (h : number.Held) {fuel depth : Nat}
    {rest : List Char} (hrest : Delimited rest) :
    readValueWith (fuel + 1) depth (number.text.toList ++ rest)
      = .ok (.num number.reread, rest) := by
  cases number with
  | int value =>
    have hword : -9223372036854775808 ≤ value ∧ value ≤ 18446744073709551615 := by
      simpa [JsonNumber.Held, JsonNumber.isWord] using h
    rcases natCast_or_neg value with ⟨n, rfl⟩ | ⟨n, hn, rfl⟩
    · obtain ⟨c, cs, hcs, hc⟩ := exists_toDigits_append n rest
      have hmax : n ≤ maxSignificand := by
        unfold maxSignificand
        omega
      rw [toList_text_natCast, hcs, readValueWith_of_isDigit hc, ← hcs,
        readNumber_natCast hmax hrest]
      rfl
    · have hmin : n ≤ 9223372036854775808 := by omega
      rw [toList_text_neg hn, List.cons_append, readValueWith]
      simp [skipBlanks, isBlank, readNumber_neg hn hmin hrest, JsonNumber.reread, bind, Except.bind]
  | real value =>
    have hread := readNumber_real h hrest
    rw [JsonNumber.text_real]
    cases hnegative : value.negative with
    | true =>
      rw [hnegative] at hread
      rw [if_pos rfl, List.singleton_append, List.cons_append, readValueWith]
      simp [skipBlanks, isBlank, hread, bind, Except.bind]
    | false =>
      rw [hnegative] at hread
      obtain ⟨c, cs, hcs, hc⟩ := exists_write_eq_cons (JsonNumber.decimal value)
      rw [hcs, List.cons_append] at hread
      rw [if_neg Bool.false_ne_true, List.nil_append, hcs, List.cons_append,
        readValueWith_of_isDigit hc, hread]
      rfl

/-- **A value that fits is read back from its text**, with its members in order. -/
theorem readsBack_print {value : Json} {depth : Nat} (h : value.Fits depth) :
    ReadsBack depth value := by
  induction value using induction_parts generalizing depth with
  | step value ih =>
    intro fuel rest hfuel hrest
    have hpositive := length_print_pos value
    obtain ⟨fuel, rfl⟩ : ∃ n, fuel = n + 1 := ⟨fuel - 1, by omega⟩
    cases value with
    | null => simp [print, readValueWith, skipBlanks, isBlank, readWord, sorted, reread]
    | bool value =>
      cases value <;> simp [print, readValueWith, skipBlanks, isBlank, readWord, sorted, reread]
    | num value =>
      rw [print, readsBack_num (fits_num.mp h) hrest, reread]
      simp only [sorted]
    | str value =>
      rw [print, toList_quote]
      simp [readValueWith, skipBlanks, isBlank, sorted, reread, readString_flatMap_escapeChar, bind,
        Except.bind]
    | arr items =>
      cases depth with
      | zero => exact absurd h not_fits_arr_zero
      | succ depth =>
        have htext : (arr items).print.toList = '[' :: (itemsText true items ++ [']']) := by
          simp [print, toList_printItems]
        have hread : ∀ item ∈ items, ReadsBack depth item := fun item hitem =>
          ih item hitem (fits_arr.mp h item hitem)
        have hitems : (itemsText true items).length < fuel := by
          rw [htext, List.length_cons, List.length_append, List.length_singleton] at hfuel
          omega
        rw [htext, List.cons_append, List.append_assoc, List.singleton_append, readValueWith]
        simp only [skipBlanks, isBlank]
        simp only [Char.reduceEq, decide_false, Bool.or_self, Bool.false_eq_true, if_false]
        rw [readItemsWith_itemsText hread hitems, reread, rereadItems_eq_map, sorted,
          sortedItems_eq_map, List.map_map]
        rfl
    | obj members =>
      cases depth with
      | zero => exact absurd h not_fits_obj_zero
      | succ depth =>
        have htext : (obj members).print.toList
            = '\x7b' :: (membersText true members ++ ['\x7d']) := by
          simp [print, toList_printMembers]
        have hread : ∀ entry ∈ members, ReadsBack depth entry.2 := fun entry hentry =>
          ih entry.2 (List.mem_map_of_mem hentry) (fits_obj.mp h entry hentry)
        have hmembers : (membersText true members).length < fuel := by
          rw [htext, List.length_cons, List.length_append, List.length_singleton] at hfuel
          omega
        rw [htext, List.cons_append, List.append_assoc, List.singleton_append, readValueWith]
        simp only [skipBlanks, isBlank]
        simp only [Char.reduceEq, decide_false, Bool.or_self, Bool.false_eq_true, if_false]
        rw [readMembersWith_membersText hread hmembers, reread, rereadMembers_eq_map, sorted,
          sortedMembers_eq_map, List.map_map]
        rfl

/-- The value that a printed text holds, if it fits. -/
theorem readValue_print_of_fits {value : Json} (h : value.Fits maxNesting) :
    readValue value.print.toList = .ok (value.reread.sorted, []) := by
  have hread := readsBack_print h
  have := hread (2 * value.print.toList.length + 2) [] (by omega) delimited_nil
  rwa [List.append_nil] at this

/-- The value that a printed text holds, if its numbers are integers of 64 bits. -/
theorem readValue_print {value : Json} (hwords : value.Words)
    (hnesting : value.nesting ≤ maxNesting) :
    readValue value.print.toList = .ok (value.sorted, []) := by
  rw [readValue_print_of_fits ⟨hnesting, hwords.held⟩, hwords.reread_eq]

end Hypermark.Json
