import Hypermark.Proofs.Hast.Tree
import Hypermark.Proofs.Html.Token

/-!
# Written HTML is read back

From the HTML of a tree the reader gets the tokens of the tree (`read_html_of_readable`), whatever its
texts and the values of its attributes are: escaping leaves no character in them that has a meaning in
markup, and is undone by `decode`.  Only names are written as they are, so names have to be names
(`Node.Readable`).

The reader does not see where one text ends and the next begins.  What it knows in front of a tag is
described by a `Pending` text, to which the tokens of a tree are added one by one.
-/

namespace Hypermark.Html

open Hast (Node Properties PropertyValue isAsciiBlank voidElements rawTextElements attributeName
  attributeHtml attributesHtml escapeTextChar escapeValueChar escapeText escapeValue attributes
  propertyAttributes)

/-! ## Escaping -/

/-- A character other than an ampersand stands for itself. -/
theorem decode_cons_of_ne {c : Char} (hc : c ≠ '&') (cs : List Char) :
    decode (c :: cs) = c :: decode cs := by
  rw [decode]
  all_goals
    rintro _ rfl
    contradiction

/-- A character of a text is read back in front of anything. -/
theorem decode_escapeTextChar (c : Char) (rest : List Char) :
    decode (escapeTextChar c ++ rest) = c :: decode rest := by
  unfold escapeTextChar
  split
  · next hc => subst hc; rfl
  split
  · next hc => subst hc; rfl
  split
  · next hc => subst hc; rfl
  · next hc _ _ => exact decode_cons_of_ne hc rest

/-- So is a character of a value. -/
theorem decode_escapeValueChar (c : Char) (rest : List Char) :
    decode (escapeValueChar c ++ rest) = c :: decode rest := by
  unfold escapeValueChar
  split
  · next hc => subst hc; rfl
  · exact decode_escapeTextChar c rest

/-- What is escaped character by character is read back. -/
theorem decode_flatMap {escape : Char → List Char}
    (hescape : ∀ c rest, decode (escape c ++ rest) = c :: decode rest) (cs : List Char) :
    decode (cs.flatMap escape) = cs := by
  induction cs with
  | nil => rw [List.flatMap_nil, decode]
  | cons c cs ih => rw [List.flatMap_cons, hescape, ih]

/-- There is no bracket or quote in the references. -/
theorem not_mem_reference : ∀ reference ∈ ["&amp;", "&lt;", "&gt;", "&quot;"],
    '<' ∉ reference.toList ∧ '>' ∉ reference.toList ∧ '"' ∉ reference.toList := by
  decide

/-- No character of a reference is a bracket or a quote. -/
theorem ne_of_mem_reference {reference : String}
    (hreference : reference ∈ ["&amp;", "&lt;", "&gt;", "&quot;"]) {d : Char}
    (hd : d ∈ reference.toList) : d ≠ '<' ∧ d ≠ '>' ∧ d ≠ '"' := by
  obtain ⟨hopen, hclose, hquote⟩ := not_mem_reference reference hreference
  exact ⟨ne_of_mem_of_not_mem hd hopen, ne_of_mem_of_not_mem hd hclose,
    ne_of_mem_of_not_mem hd hquote⟩

/-- There is no bracket in an escaped text, and no quote that was not in the text. -/
theorem ne_of_mem_escapeTextChar {c d : Char} (h : d ∈ escapeTextChar c) :
    d ≠ '<' ∧ d ≠ '>' ∧ (d = '"' → c = '"') := by
  have hreference {reference : String} (hmem : reference ∈ ["&amp;", "&lt;", "&gt;", "&quot;"])
      (hd : d ∈ reference.toList) : d ≠ '<' ∧ d ≠ '>' ∧ (d = '"' → c = '"') := by
    obtain ⟨hopen, hclose, hquote⟩ := ne_of_mem_reference hmem hd
    exact ⟨hopen, hclose, fun h => absurd h hquote⟩
  unfold escapeTextChar at h
  split at h
  · exact hreference (by simp) h
  split at h
  · exact hreference (by simp) h
  split at h
  · exact hreference (by simp) h
  · next hopen hclose =>
    rw [List.mem_singleton] at h
    subst h
    exact ⟨hopen, hclose, id⟩

/-- There is no bracket or quote in an escaped value. -/
theorem ne_of_mem_escapeValueChar {c d : Char} (h : d ∈ escapeValueChar c) :
    d ≠ '<' ∧ d ≠ '>' ∧ d ≠ '"' := by
  unfold escapeValueChar at h
  split at h
  · exact ne_of_mem_reference (by simp) h
  · next hquote =>
    obtain ⟨hopen, hclose, hsame⟩ := ne_of_mem_escapeTextChar h
    exact ⟨hopen, hclose, fun hd => hquote (hsame hd)⟩

/-! ## Steps of the reader -/

/-- What is read from two texts in a row is read from one after the other. -/
theorem run_append (reader : Reader) (cs ds : List Char) :
    reader.run (cs ++ ds) = (reader.run cs).run ds :=
  List.foldl_append

/-- A character ends tokens and leads to another part of the markup. -/
theorem run_cons {mode next : Mode} {c : Char} {ended : List Token}
    (h : mode.step c = (ended, next)) (tokens : List Token) (cs : List Char) :
    Reader.run ⟨tokens, mode⟩ (c :: cs) = Reader.run ⟨tokens ++ ended, next⟩ cs := by
  rw [Reader.run, List.foldl_cons, Reader.step, h]
  rfl

/-- As long as the characters are collected, the reader stays where it is. -/
theorem run_collect {mode : List Char → Mode} {cs : List Char}
    (h : ∀ c ∈ cs, ∀ seen, (mode seen).step c = ([], mode (seen ++ [c])))
    (tokens : List Token) (seen : List Char) :
    Reader.run ⟨tokens, mode seen⟩ cs = ⟨tokens, mode (seen ++ cs)⟩ := by
  induction cs generalizing seen with
  | nil => rw [List.append_nil]; rfl
  | cons c cs ih =>
    obtain ⟨hc, hcs⟩ := List.forall_mem_cons.mp h
    rw [run_cons (hc seen), List.append_nil, ih hcs, List.append_assoc, List.singleton_append]

/-- The characters of names are no blanks and have no meaning in a tag. -/
theorem ne_of_isNameChar {c : Char} (h : isNameChar c = true) :
    isAsciiBlank c = false ∧ c ≠ '=' ∧ c ≠ '<' ∧ c ≠ '>' ∧ c ≠ '/' := by
  simp only [isNameChar, Bool.not_eq_true', Bool.or_eq_false_iff, List.contains_eq_mem,
    List.mem_cons, decide_eq_false_iff_not, not_or] at h
  obtain ⟨hblank, -, -, hequals, hopen, hclose, hslash, -⟩ := h
  exact ⟨hblank, hequals, hopen, hclose, hslash⟩

/-! ## Names -/

/-- Names are not empty, and consist of the characters of names. -/
theorem isName_iff {name : String} :
    isName name = true ↔ name ≠ "" ∧ ∀ c ∈ name.toList, isNameChar c = true := by
  simp [isName]

/-- The names of tags are a letter with letters, digits and hyphens behind it. -/
theorem isTagName_iff {name : String} :
    isTagName name = true ↔ ∃ c cs, name.toList = c :: cs ∧ c.isAlpha = true ∧
      ∀ d ∈ cs, d.isAlphanum = true ∨ d = '-' := by
  unfold isTagName
  cases name.toList with
  | nil => simp
  | cons c cs => simp

/-- Letters, digits and hyphens are characters of names. -/
theorem isNameChar_of_isAlphanum {c : Char} (h : c.isAlphanum = true ∨ c = '-') :
    isNameChar c = true := by
  have hspecial : [' ', '\t', '\n', '\x0c', '\r', '"', '\'', '=', '<', '>', '/'].all
      (fun d => !(d.isAlphanum || d = '-')) = true := by
    decide
  have hne (d : Char) (hd : d ∈ [' ', '\t', '\n', '\x0c', '\r', '"', '\'', '=', '<', '>', '/']) :
      c ≠ d := by
    rintro rfl
    have hnot := List.all_eq_true.mp hspecial c hd
    rcases h with h | h <;> simp [h] at hnot
  simp [isNameChar, isAsciiBlank, hne]

/-- The name of a tag is a name. -/
theorem isName_of_isTagName {name : String} (h : isTagName name = true) : isName name = true := by
  obtain ⟨c, cs, hname, hc, hcs⟩ := isTagName_iff.mp h
  refine isName_iff.mpr ⟨fun hempty => ?_, ?_⟩
  · rw [hempty] at hname
    cases hname
  · rw [hname, List.forall_mem_cons]
    refine ⟨isNameChar_of_isAlphanum (.inl ?_), fun d hd => isNameChar_of_isAlphanum (hcs d hd)⟩
    rw [Char.isAlphanum, hc, Bool.true_or]

/-! ## Attributes -/

/-- The start tag that ends if the reader sees a closing bracket or a blank. -/
def Mode.opening? : Mode → Option Opening
  | startName name => some ⟨String.ofList name, []⟩
  | inTag tag => some tag
  | attributeName tag name => some (tag.add name none)
  | valueEnd tag => some tag
  | _ => none

/-- A start tag that may end does so at a bracket, and goes on behind a blank. -/
theorem step_of_opening? {mode : Mode} {tag : Opening} (h : mode.opening? = some tag) {c : Char}
    (hc : c = ' ' ∨ c = '>') : mode.step c = Mode.endOrGoOn tag c := by
  have hname : isNameChar c = false := by rcases hc with rfl | rfl <;> decide
  have hequals : c ≠ '=' := by rcases hc with rfl | rfl <;> decide
  cases mode with
  | startName | inTag | attributeName | valueEnd =>
    cases h
    simp [Mode.step, hname, hequals]
  | text | opened | equals | value | endName | declared | hyphen | comment | malformed => cases h

/-- A blank and a name make an attribute without a value. -/
theorem run_attributeName {mode : Mode} {tag : Opening} (h : mode.opening? = some tag)
    {name : String} (hname : isName name = true) (tokens : List Token) :
    Reader.run ⟨tokens, mode⟩ (' ' :: name.toList)
      = ⟨tokens, .attributeName tag name.toList⟩ := by
  obtain ⟨hne, hchars⟩ := isName_iff.mp hname
  have hblank : mode.step ' ' = ([], .inTag tag) := step_of_opening? h (.inl rfl)
  rw [run_cons hblank]
  cases hlist : name.toList with
  | nil => exact absurd (String.toList_eq_nil_iff.mp hlist) hne
  | cons c cs =>
    rw [hlist] at hchars
    obtain ⟨hc, hcs⟩ := List.forall_mem_cons.mp hchars
    have hfirst : (Mode.inTag tag).step c = ([], .attributeName tag [c]) := by
      rw [Mode.step, if_pos hc]
    rw [run_cons hfirst, List.append_nil, List.append_nil]
    refine run_collect (fun d hd seen => ?_) tokens [c]
    have hequals := (ne_of_isNameChar (hcs d hd)).2.1
    simp [Mode.step, hequals, hcs d hd]

/-- Behind an attribute's name, its value is read up to the closing quote. -/
theorem run_attributeValue (tokens : List Token) (tag : Opening) (name : List Char)
    (value : String) :
    Reader.run ⟨tokens, .attributeName tag name⟩
        ('=' :: '"' :: ((escapeValue value).toList ++ ['"']))
      = ⟨tokens, .valueEnd (tag.add name (some value.toList))⟩ := by
  have hcollect : Reader.run ⟨tokens, .value tag name '"' []⟩ (escapeValue value).toList
      = ⟨tokens, .value tag name '"' (value.toList.flatMap escapeValueChar)⟩ := by
    rw [escapeValue, String.toList_ofList]
    refine run_collect (fun d hd seen => ?_) tokens []
    obtain ⟨c, _, hc⟩ := List.mem_flatMap.mp hd
    obtain ⟨-, -, hquote⟩ := ne_of_mem_escapeValueChar hc
    rw [Mode.step, if_neg hquote]
  have hopen : Reader.run ⟨tokens, .attributeName tag name⟩ ['=', '"']
      = ⟨tokens, .value tag name '"' []⟩ := by
    simp [Reader.run, Reader.step, Mode.step]
  have hclose : Reader.run ⟨tokens, .value tag name '"' (value.toList.flatMap escapeValueChar)⟩ ['"']
      = ⟨tokens, .valueEnd (tag.add name (some value.toList))⟩ := by
    simp [Reader.run, Reader.step, Mode.step, decode_flatMap decode_escapeValueChar]
  have hsplit : '=' :: '"' :: ((escapeValue value).toList ++ ['"'])
      = ['=', '"'] ++ ((escapeValue value).toList ++ ['"']) := rfl
  rw [hsplit, run_append, hopen, run_append, hcollect, hclose]

/-- The attributes of a property are those of its rendering. -/
theorem propertyAttributes_eq (name : String) (value : PropertyValue) :
    propertyAttributes name value =
      match value.rendering with
      | .absent | .unsupported _ => []
      | .bare => [⟨attributeName name, none⟩]
      | .value text => [⟨attributeName name, some text⟩] := by
  cases value with
  | bool value => cases value <;> rfl
  | other value => cases value <;> rfl
  | null | number | string | list => rfl

/-- The attribute of a property is added to the start tag. -/
theorem run_attributeHtml {mode : Mode} {tag : Opening} (h : mode.opening? = some tag)
    {name : String} (hname : isName (attributeName name) = true) (value : PropertyValue)
    (tokens : List Token) :
    ∃ next : Mode, Reader.run ⟨tokens, mode⟩ (attributeHtml name value).toList = ⟨tokens, next⟩ ∧
      next.opening? = some ⟨tag.name, tag.attributes ++ propertyAttributes name value⟩ := by
  have hread := run_attributeName h hname tokens
  rw [propertyAttributes_eq, attributeHtml]
  cases value.rendering with
  | absent | unsupported => exact ⟨mode, rfl, by rw [h, List.append_nil]⟩
  | bare =>
    refine ⟨.attributeName tag (attributeName name).toList, ?_, ?_⟩
    · rw [← hread, String.toList_append]
      rfl
    · rw [Mode.opening?, Opening.add, String.ofList_toList]
      rfl
  | value text =>
    refine ⟨.valueEnd (tag.add (attributeName name).toList (some text.toList)), ?_, ?_⟩
    · have hsplit : (" " ++ attributeName name ++ "=\"" ++ escapeValue text ++ "\"").toList
          = ' ' :: (attributeName name).toList
            ++ '=' :: '"' :: ((escapeValue text).toList ++ ['"']) := by
        simp [String.toList_append]
      rw [hsplit, run_append, hread, run_attributeValue]
    · simp [Mode.opening?, Opening.add, String.ofList_toList]

/-- The attributes of properties are added to the start tag one by one. -/
theorem run_attributesHtml {mode : Mode} {tag : Opening} (h : mode.opening? = some tag)
    {properties : Properties} (hnames : ∀ entry ∈ properties, isName (attributeName entry.1) = true)
    (tokens : List Token) :
    ∃ next : Mode, Reader.run ⟨tokens, mode⟩ (attributesHtml properties).toList = ⟨tokens, next⟩ ∧
      next.opening? = some ⟨tag.name, tag.attributes ++ attributes properties⟩ := by
  induction properties generalizing mode tag with
  | nil => exact ⟨mode, rfl, by rw [h, attributes, List.flatMap_nil, List.append_nil]⟩
  | cons entry properties ih =>
    obtain ⟨hname, hnames⟩ := List.forall_mem_cons.mp hnames
    obtain ⟨between, hfirst, hbetween⟩ := run_attributeHtml h hname entry.2 tokens
    obtain ⟨next, hrest, hnext⟩ := ih hbetween hnames
    refine ⟨next, ?_, ?_⟩
    · rw [attributesHtml, List.map_cons, String.join_cons, String.toList_append, run_append, hfirst]
      exact hrest
    · rw [hnext, attributes, attributes, List.flatMap_cons, List.append_assoc]

/-! ## Texts -/

/-- What is known before a text has ended: the tokens in front of it, and the text so far. -/
structure Pending where
  tokens : List Token
  text : String

namespace Pending

/-- Adds a token. A text goes on with a text, and ends before anything else. -/
def add (pending : Pending) : Token → Pending
  | .text value => ⟨pending.tokens, pending.text ++ value⟩
  | token => ⟨pending.tokens ++ Token.ofText pending.text ++ [token], ""⟩

/-- The tokens when the text has ended. -/
def close (pending : Pending) : List Token := pending.tokens ++ Token.ofText pending.text

/-- The reader behind the escaped text. -/
def reader (pending : Pending) : Reader :=
  ⟨pending.tokens, .text (pending.text.toList.flatMap escapeTextChar)⟩

end Pending

/-- Every character is written as something. -/
theorem escapeTextChar_ne_nil (c : Char) : escapeTextChar c ≠ [] := by
  unfold escapeTextChar
  split
  · decide
  split
  · decide
  split
  · decide
  · exact List.cons_ne_nil c []

/-- An escaped text is read back. -/
theorem textToken_escape (value : String) :
    textToken (value.toList.flatMap escapeTextChar) = Token.ofText value := by
  have hempty : value.toList.flatMap escapeTextChar = [] ↔ value = "" := by
    rw [List.flatMap_eq_nil_iff, ← String.toList_eq_nil_iff, List.eq_nil_iff_forall_not_mem]
    exact forall₂_congr fun c _ => iff_of_false (escapeTextChar_ne_nil c) id
  rw [textToken, Token.ofText, decode_flatMap decode_escapeTextChar, String.ofList_toList]
  exact if_congr hempty rfl rfl

/-- The markup may end behind a text. -/
theorem finish_reader (pending : Pending) : pending.reader.finish = some pending.close := by
  rw [Pending.reader, Reader.finish, textToken_escape, Pending.close]

/-- An escaped text is added to the text in front of it. -/
theorem run_escapeText (pending : Pending) (value : String) :
    pending.reader.run (escapeText value).toList = (pending.add (.text value)).reader := by
  rw [Pending.reader, escapeText, String.toList_ofList, run_collect]
  · rw [Pending.add, Pending.reader, String.toList_append, List.flatMap_append]
  · intro d hd seen
    obtain ⟨c, _, hc⟩ := List.mem_flatMap.mp hd
    rw [Mode.step, if_neg (ne_of_mem_escapeTextChar hc).1]

/-- Adding tokens one by one joins them. -/
theorem close_foldl_add (pieces : List Token) (pending : Pending) :
    (pieces.foldl Pending.add pending).close
      = pending.tokens ++ Token.putText pending.text (Token.join pieces) := by
  induction pieces generalizing pending with
  | nil =>
    rw [List.foldl_nil, Pending.close, Token.join, Token.putText, List.append_nil]
    simp
  | cons token pieces ih =>
    rw [List.foldl_cons, ih]
    cases token with
    | text value => rw [Token.join, Token.putText_putText, Pending.add]
    | startTag | endTag | comment =>
      rw [Pending.add, Token.putText_empty, Token.join, Token.putText]
      all_goals simp

/-! ## Tags -/

/-- An opening bracket ends the text in front of it. -/
theorem run_bracket (pending : Pending) (cs : List Char) :
    pending.reader.run ('<' :: cs) = Reader.run ⟨pending.close, .opened⟩ cs := by
  have hstep : (Mode.text (pending.text.toList.flatMap escapeTextChar)).step '<'
      = (Token.ofText pending.text, .opened) := by
    rw [Mode.step, if_pos rfl, textToken_escape]
  rw [Pending.reader, run_cons hstep, Pending.close]

/-- A letter behind the opening bracket begins the name of a start tag. -/
theorem step_opened_of_isAlpha {c : Char} (hc : c.isAlpha = true) :
    Mode.opened.step c = ([], .startName [c]) := by
  have hslash : c ≠ '/' := by rintro rfl; exact absurd hc (by decide)
  have hmark : c ≠ '!' := by rintro rfl; exact absurd hc (by decide)
  rw [Mode.step, if_neg hslash, if_neg hmark, if_pos hc]

/-- A start tag is read back, and ends the text in front of it. -/
theorem run_startTag {tagName : String} (htag : isTagName tagName = true) {properties : Properties}
    (hnames : ∀ entry ∈ properties, isName (attributeName entry.1) = true) (pending : Pending) :
    pending.reader.run ("<" ++ tagName ++ attributesHtml properties ++ ">").toList
      = (pending.add (.startTag tagName (attributes properties))).reader := by
  obtain ⟨-, hchars⟩ := isName_iff.mp (isName_of_isTagName htag)
  obtain ⟨c, cs, hname, hc, -⟩ := isTagName_iff.mp htag
  rw [hname, List.forall_mem_cons] at hchars
  have hsplit : ("<" ++ tagName ++ attributesHtml properties ++ ">").toList
      = '<' :: c :: (cs ++ ((attributesHtml properties).toList ++ ['>'])) := by
    simp [String.toList_append, hname]
  have hcollect : Reader.run ⟨pending.close, .startName [c]⟩ cs
      = ⟨pending.close, .startName tagName.toList⟩ := by
    rw [hname]
    exact run_collect (fun d hd seen => by rw [Mode.step, if_pos (hchars.2 d hd)]) _ [c]
  have hopening : (Mode.startName tagName.toList).opening? = some ⟨tagName, []⟩ := by
    rw [Mode.opening?, String.ofList_toList]
  obtain ⟨next, hattributes, hnext⟩ := run_attributesHtml hopening hnames pending.close
  have hend : next.step '>' = ([.startTag tagName (attributes properties)], .text []) :=
    step_of_opening? hnext (.inr rfl)
  rw [hsplit, run_bracket, run_cons (step_opened_of_isAlpha hc), List.append_nil, run_append,
    hcollect, run_append, hattributes, run_cons hend]
  rfl

/-- The characters of an end tag are behind those of the content. -/
theorem toList_append_endTag (content tagName : String) :
    (content ++ "</" ++ tagName ++ ">").toList
      = content.toList ++ ("</" ++ tagName ++ ">").toList := by
  simp [String.toList_append]

/-- An end tag is read back, and ends the text in front of it. -/
theorem run_endTag {tagName : String} (htag : isTagName tagName = true) (pending : Pending) :
    pending.reader.run ("</" ++ tagName ++ ">").toList
      = (pending.add (.endTag tagName)).reader := by
  obtain ⟨hne, hchars⟩ := isName_iff.mp (isName_of_isTagName htag)
  have hsplit : ("</" ++ tagName ++ ">").toList = '<' :: '/' :: (tagName.toList ++ ['>']) := by
    simp [String.toList_append]
  have hslash : Mode.opened.step '/' = ([], .endName []) := by rw [Mode.step, if_pos rfl]
  have hcollect : Reader.run ⟨pending.close, .endName []⟩ tagName.toList
      = ⟨pending.close, .endName tagName.toList⟩ :=
    run_collect (fun d hd seen => by rw [Mode.step, if_pos (hchars d hd)]) _ []
  have hend : (Mode.endName tagName.toList).step '>' = ([.endTag tagName], .text []) := by
    have hname : tagName.toList ≠ [] := fun h => hne (String.toList_eq_nil_iff.mp h)
    rw [Mode.step, if_neg (by decide), if_pos ⟨rfl, hname⟩, String.ofList_toList]
  rw [hsplit, run_bracket, run_cons hslash, List.append_nil, run_append, hcollect, run_cons hend]
  rfl

end Hypermark.Html

namespace Hypermark.Hast.Node

open Html

/-! ## Trees -/

/-- The node can be read back: there are no comments and no raw markup, texts are escaped, and names
are names. -/
def ReadableHere : Node → Prop
  | element tagName properties .. =>
    isTagName tagName = true ∧ tagName ∉ rawTextElements ∧
      ∀ entry ∈ properties, isName (attributeName entry.1) = true
  | comment .. | raw .. => False
  | root .. | text .. | other _ => True

/-- Every node of the tree can be read back. -/
def Readable (node : Node) : Prop := node.Everywhere ReadableHere

mutual

/-- From the HTML of a tree the reader gets the tokens of the tree. -/
theorem run_htmlIn : (node : Node) → node.Readable → ∀ pending : Pending,
    pending.reader.run (node.htmlIn false).toList = (node.pieces.foldl Pending.add pending).reader
  | root children .., h, pending => by
    rw [htmlIn, pieces]
    exact run_htmlAllIn children h.child pending
  | element tagName properties children .., h, pending => by
    obtain ⟨htag, hraw, hnames⟩ := h.here
    have hstart := run_startTag htag hnames pending
    have hraw : rawTextElements.contains tagName = false := by simpa using hraw
    rw [htmlIn, pieces, String.toList_append, run_append, hstart, List.foldl_cons, hraw]
    split
    · rfl
    · rw [toList_append_endTag, run_append, List.foldl_append, run_htmlAllIn children h.child, run_endTag htag]
      rfl
  | text value .., _, pending => run_escapeText pending value
  | other _, _, _ => rfl
  | comment .., h, _ | raw .., h, _ => h.here.elim

/-- So it does from the HTML of a list of trees. -/
theorem run_htmlAllIn : (nodes : List Node) → (∀ node ∈ nodes, node.Readable) →
    ∀ pending : Pending, pending.reader.run (htmlAllIn false nodes).toList
      = ((piecesAll nodes).foldl Pending.add pending).reader
  | [], _, _ => rfl
  | node :: nodes, h, pending => by
    obtain ⟨hnode, hnodes⟩ := List.forall_mem_cons.mp h
    rw [htmlAllIn, piecesAll, String.toList_append, run_append, List.foldl_append,
      run_htmlIn node hnode, run_htmlAllIn nodes hnodes]

end

/-- **From the HTML of a tree the tokens of the tree are read.** -/
theorem read_html_of_readable {tree : Node} (h : tree.Readable) :
    Html.read tree.html = some tree.tokens := by
  have hstart : (⟨[], .text []⟩ : Reader) = (⟨[], ""⟩ : Pending).reader := rfl
  rw [Html.read, hstart, html, run_htmlIn tree h, finish_reader, close_foldl_add,
    Token.putText_empty, List.nil_append, tokens]

/-- **HTML is read back: the reader gets the tokens of the tree, and trees with other tokens have
other HTML.** -/
theorem read_html {tree : Node} (h : tree.Readable) :
    Html.read tree.html = some tree.tokens ∧
    ∀ other : Node, other.Readable → tree.tokens ≠ other.tokens → tree.html ≠ other.html := by
  refine ⟨read_html_of_readable h, fun other hother hne heq => hne ?_⟩
  have hsame := read_html_of_readable h
  rw [heq, read_html_of_readable hother] at hsame
  exact (Option.some.inj hsame).symm

/-- Brackets, quotes and references in texts and values are read as what they are, and a tree with
another value has other HTML. -/
theorem read_html_markup :
    let tree (title : String) : Node := .root [.tag "p" [("className", .list ["a", "b"]),
      ("hidden", .bool true), ("title", .string title)] [.plain "</p>", .other .null, .plain "&lt;",
      .tag "br" [] [.plain "x"] none] none] none []
    Html.read (tree "\">").html = some [.startTag "p" [⟨"class", some "a b"⟩, ⟨"hidden", none⟩,
      ⟨"title", some "\">"⟩], .text "</p>&lt;", .startTag "br" [], .endTag "p"] ∧
    (tree "\">").html ≠ (tree "").html := by
  intro tree
  have hplain (value : String) : (plain value).Readable := everywhere_of_childless rfl trivial
  have hbreak : (Node.tag "br" [] [.plain "x"] none).Readable :=
    ⟨⟨by decide, by decide, by simp⟩, List.forall_mem_singleton.mpr (hplain "x")⟩
  have hnames : ∀ name ∈ ["className", "hidden", "title"], isName (attributeName name) = true := by
    decide
  have hreadable (title : String) : (tree title).Readable := by
    refine ⟨trivial, List.forall_mem_singleton.mpr ⟨⟨by decide, by decide, ?_⟩, ?_⟩⟩
    · simp only [List.forall_mem_cons]
      exact ⟨hnames _ (by simp), hnames _ (by simp), hnames _ (by simp), by simp⟩
    · simp only [Node.childList_tag, List.forall_mem_cons]
      exact ⟨hplain _, ⟨trivial, by simp⟩, hplain _, hbreak, by simp⟩
  obtain ⟨hread, hother⟩ := read_html (hreadable "\">")
  have htokens : (tree "\">").tokens = [.startTag "p" [⟨"class", some "a b"⟩, ⟨"hidden", none⟩,
      ⟨"title", some "\">"⟩], .text "</p>&lt;", .startTag "br" [], .endTag "p"] := by
    decide
  exact ⟨htokens ▸ hread, hother _ (hreadable "") (by decide)⟩

end Hypermark.Hast.Node
