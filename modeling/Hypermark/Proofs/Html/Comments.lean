import Hypermark.Proofs.Html.ReadBack

/-!
# Comments in written HTML

A comment is written as it is, and ends at the first `-->`, even where that stands in its value.  So
what is read from the HTML of a tree (`Html.scan`) are the comments of the tree with their values, and
the tags that the tree has without what its comments say, as long as no comment holds the end of a
comment (`Node.commentsContained_iff`).  A comment that does breaks out of itself: what is behind the
end is read as markup (`Node.comment_breaks_out`).

The scanner looks at tags and comments only, and takes a tag as it stands between its brackets, so that
a name may be any run of letters, digits and hyphens.
-/

namespace Hypermark.Html

open Hast (Node Properties PropertyValue voidElements rawTextElements attributeName attributeHtml
  attributesHtml escapeTextChar escapeValueChar escapeText escapeValue)

/-! ## Scanning -/

/-- A tag with all that stands between its brackets, or a comment. -/
inductive Markup where
  | startTag (source : String)
  | endTag (source : String)
  | comment (value : String)
deriving DecidableEq, Repr

namespace Markup

/-- The tag with this between its brackets. -/
def ofTag : List Char → Markup
  | '/' :: source => endTag (String.ofList source)
  | source => startTag (String.ofList source)

/-- The value of a comment. -/
def comment? : Markup → Option String
  | comment value => some value
  | startTag _ | endTag _ => none

/-- It is a tag. -/
def isTag : Markup → Bool
  | startTag _ | endTag _ => true
  | comment _ => false

/-- Changes the value of a comment. -/
def mapComment (f : String → String) : Markup → Markup
  | comment value => comment (f value)
  | tag => tag

end Markup

/-- The part of the HTML that the scanner is in, with what has been read of it. -/
inductive Region where
  | text
  /-- Behind the opening bracket of a tag. -/
  | tag (raw : List Char)
  /-- Between the quotes in a tag. -/
  | value (quote : Char) (raw : List Char)
  | comment (raw : List Char)

namespace Region

/-- The markup that ends with a character, and the part of the HTML behind it. -/
def step (c : Char) : Region → List Markup × Region
  | text => if c = '<' then ([], tag []) else ([], text)
  | tag raw =>
    if c = '>' then ([.ofTag raw], text)
    else if c = '"' ∨ c = '\'' then ([], value c (raw ++ [c]))
    else if raw ++ [c] = ['!', '-', '-'] then ([], comment [])
    else ([], tag (raw ++ [c]))
  | value quote raw => if c = quote then ([], tag (raw ++ [c])) else ([], value quote (raw ++ [c]))
  | comment raw =>
    -- The comment ends with the first `-->`; its hyphens have been read already.
    if c = '>' ∧ ['-', '-'] <:+ raw then
      ([.comment (String.ofList raw.dropLast.dropLast)], text)
    else ([], comment (raw ++ [c]))

end Region

/-- The tags and comments behind a place in HTML; none of its tags and comments may lack its end. -/
def scanFrom : Region → List Char → Option (List Markup)
  | region, c :: cs => (scanFrom (region.step c).2 cs).map ((region.step c).1 ++ ·)
  | .text, [] => some []
  | _, [] => none

/-- The tags and comments of HTML. -/
def scan (source : String) : Option (List Markup) := scanFrom .text source.toList

/-- A tag in a comment is part of the comment, and an end in a value part of the value. -/
example : scan "<p a=\"-->\">x<!--<b>--></p>"
    = some [.startTag "p a=\"-->\"", .comment "<b>", .endTag "p"] := by
  decide

/-! ## Steps of the scanner -/

/-- A character ends tags and comments and leads to another region. -/
theorem scanFrom_cons {region next : Region} {c : Char} {ended : List Markup}
    (h : region.step c = (ended, next)) (cs : List Char) :
    scanFrom region (c :: cs) = (scanFrom next cs).map (ended ++ ·) := by
  rw [scanFrom, h]

/-- A character that ends nothing only leads to another region. -/
theorem scanFrom_cons_of_silent {region next : Region} {c : Char} (h : region.step c = ([], next))
    (cs : List Char) : scanFrom region (c :: cs) = scanFrom next cs := by
  rw [scanFrom_cons h]
  exact Option.map_id'

/-- As long as the characters are collected, the scanner stays in the region. -/
theorem scanFrom_collect {region : List Char → Region} {raw cs : List Char}
    (h : ∀ seen c, seen ++ [c] <+: cs →
      (region (raw ++ seen)).step c = ([], region (raw ++ seen ++ [c])))
    (rest : List Char) :
    scanFrom (region raw) (cs ++ rest) = scanFrom (region (raw ++ cs)) rest := by
  induction cs generalizing raw with
  | nil => rw [List.nil_append, List.append_nil]
  | cons c cs ih =>
    have hc := h [] c (List.prefix_append [c] cs)
    rw [List.append_nil] at hc
    rw [List.cons_append, scanFrom_cons_of_silent hc, ih, List.append_assoc, List.singleton_append]
    intro seen d hseen
    have hd := h (c :: seen) d (List.cons_prefix_cons.mpr ⟨rfl, hseen⟩)
    rwa [List.append_cons] at hd

/-! ## Texts -/

/-- There is no tag or comment in an escaped text. -/
theorem scanFrom_escapeText (value : String) (rest : List Char) :
    scanFrom .text ((escapeText value).toList ++ rest) = scanFrom .text rest := by
  refine @scanFrom_collect (fun _ => .text) [] _ (fun seen d hseen => ?_) rest
  have hd : d ∈ (escapeText value).toList := hseen.subset (by simp)
  rw [escapeText, String.toList_ofList] at hd
  obtain ⟨c, -, hc⟩ := List.mem_flatMap.mp hd
  rw [Region.step, if_neg (ne_of_mem_escapeTextChar hc).1]

/-! ## Tags -/

/-- Characters of names neither end a tag nor begin a value. -/
theorem ne_quote_of_isNameChar {c : Char} (h : isNameChar c = true) :
    c ≠ '>' ∧ c ≠ '"' ∧ c ≠ '\'' := by
  simp only [isNameChar, Bool.not_eq_true', Bool.or_eq_false_iff, List.contains_eq_mem,
    List.mem_cons, decide_eq_false_iff_not, not_or] at h
  obtain ⟨-, hdouble, hsingle, -, -, hclose, -⟩ := h
  exact ⟨hclose, hdouble, hsingle⟩

/-- What stands in a tag from its opening bracket on does not begin a comment. -/
theorem scanFrom_tag {raw cs : List Char} (hhead : (raw ++ cs).head? ≠ some '!')
    (h : ∀ c ∈ cs, c ≠ '>' ∧ c ≠ '"' ∧ c ≠ '\'') (rest : List Char) :
    scanFrom (.tag raw) (cs ++ rest) = scanFrom (.tag (raw ++ cs)) rest := by
  refine scanFrom_collect (fun seen c hseen => ?_) rest
  obtain ⟨hclose, hdouble, hsingle⟩ := h c (hseen.subset (by simp))
  have hopen : raw ++ seen ++ [c] ≠ ['!', '-', '-'] := by
    obtain ⟨after, rfl⟩ := hseen
    intro heq
    refine hhead ?_
    rw [← List.append_assoc, ← List.append_assoc, heq]
    rfl
  rw [Region.step, if_neg hclose, if_neg (not_or.mpr ⟨hdouble, hsingle⟩), if_neg hopen]

/-- An attribute begins with a blank, if there is one. -/
theorem head?_attributeHtml (name : String) (value : PropertyValue) :
    ∀ c, (attributeHtml name value).toList.head? = some c → c = ' ' := by
  intro c hc
  unfold attributeHtml at hc
  split at hc
  · simp at hc
  · simp at hc
  · simpa [String.toList_append, eq_comm] using hc
  · simpa [String.toList_append, eq_comm] using hc

/-- So do the attributes of a tag. -/
theorem head?_attributesHtml (properties : Properties) :
    ∀ c, (attributesHtml properties).toList.head? = some c → c = ' ' := by
  induction properties with
  | nil => simp [attributesHtml]
  | cons entry properties ih =>
    intro c hc
    rw [attributesHtml, List.map_cons, String.join_cons, String.toList_append, List.head?_append,
      Option.or_eq_some_iff] at hc
    rcases hc with hfirst | ⟨-, hrest⟩
    · exact head?_attributeHtml entry.1 entry.2 c hfirst
    · exact ih c hrest

/-- Nothing but a blank is put in front by what begins with one. -/
theorem head?_append_ne {raw cs : List Char} {d : Char} (h : raw.head? ≠ some d)
    (hcs : ∀ c, cs.head? = some c → c = ' ') (hd : d ≠ ' ') : (raw ++ cs).head? ≠ some d := by
  rw [List.head?_append, ne_eq, Option.or_eq_some_iff, not_or]
  exact ⟨h, fun ⟨_, hhead⟩ => hd (hcs d hhead)⟩

/-- A value leaves the scanner in the tag: no quote is left in it. -/
theorem scanFrom_value (raw : List Char) (text : String) (rest : List Char) :
    scanFrom (.tag raw) ('"' :: ((escapeValue text).toList ++ '"' :: rest))
      = scanFrom (.tag (raw ++ '"' :: ((escapeValue text).toList ++ ['"']))) rest := by
  have hopen : (Region.tag raw).step '"' = ([], .value '"' (raw ++ ['"'])) := by
    rw [Region.step, if_neg (by decide), if_pos (.inl rfl)]
  have hclose (before : List Char) :
      (Region.value '"' before).step '"' = ([], .tag (before ++ ['"'])) := by
    rw [Region.step, if_pos rfl]
  rw [scanFrom_cons_of_silent hopen, scanFrom_collect, scanFrom_cons_of_silent (hclose _)]
  · simp
  · intro seen d hseen
    have hd : d ∈ (escapeValue text).toList := hseen.subset (by simp)
    rw [escapeValue, String.toList_ofList] at hd
    obtain ⟨c, -, hc⟩ := List.mem_flatMap.mp hd
    rw [Region.step, if_neg (ne_of_mem_escapeValueChar hc).2.2]

/-- An attribute leaves the scanner in the tag, whatever its value is. -/
theorem scanFrom_attributeHtml {raw : List Char} (hhead : raw.head? ≠ some '!') {name : String}
    (hname : isName (attributeName name) = true) (value : PropertyValue) (rest : List Char) :
    scanFrom (.tag raw) ((attributeHtml name value).toList ++ rest)
      = scanFrom (.tag (raw ++ (attributeHtml name value).toList)) rest := by
  have hchars : ∀ c ∈ ' ' :: (attributeName name).toList, c ≠ '>' ∧ c ≠ '"' ∧ c ≠ '\'' := by
    refine List.forall_mem_cons.mpr ⟨by decide, fun c hc => ?_⟩
    exact ne_quote_of_isNameChar ((isName_iff.mp hname).2 c hc)
  have hblank {cs : List Char} : (raw ++ ' ' :: cs).head? ≠ some '!' :=
    head?_append_ne hhead (by simp) (by decide)
  unfold attributeHtml
  split
  · rw [String.toList_empty, List.nil_append, List.append_nil]
  · rw [String.toList_empty, List.nil_append, List.append_nil]
  · have hsplit : (" " ++ attributeName name).toList = ' ' :: (attributeName name).toList := by
      simp [String.toList_append]
    rw [hsplit]
    exact scanFrom_tag hblank hchars rest
  · next text _ =>
    have hsplit : (" " ++ attributeName name ++ "=\"" ++ escapeValue text ++ "\"").toList
        = ' ' :: ((attributeName name).toList ++ ['='])
          ++ '"' :: ((escapeValue text).toList ++ ['"']) := by
      simp [String.toList_append]
    have hfront : ∀ c ∈ ' ' :: ((attributeName name).toList ++ ['=']),
        c ≠ '>' ∧ c ≠ '"' ∧ c ≠ '\'' :=
      List.forall_mem_append.mpr ⟨hchars, List.forall_mem_singleton.mpr (by decide)⟩
    have hvalue := scanFrom_value (raw ++ ' ' :: ((attributeName name).toList ++ ['='])) text rest
    rw [hsplit, List.append_assoc, scanFrom_tag hblank hfront]
    simpa using hvalue

/-- Attributes leave the scanner in the tag. -/
theorem scanFrom_attributesHtml {raw : List Char} (hhead : raw.head? ≠ some '!')
    {properties : Properties} (hnames : ∀ entry ∈ properties, isName (attributeName entry.1) = true)
    (rest : List Char) :
    scanFrom (.tag raw) ((attributesHtml properties).toList ++ rest)
      = scanFrom (.tag (raw ++ (attributesHtml properties).toList)) rest := by
  induction properties generalizing raw with
  | nil => simp [attributesHtml]
  | cons entry properties ih =>
    obtain ⟨hname, hnames⟩ := List.forall_mem_cons.mp hnames
    have hrest := ih (head?_append_ne hhead (head?_attributeHtml entry.1 entry.2) (by decide)) hnames
    rw [attributesHtml, List.map_cons, String.join_cons, String.toList_append, List.append_assoc,
      scanFrom_attributeHtml hhead hname, ← List.append_assoc]
    exact hrest

/-- The letters, digits and hyphens of a tag's name. -/
def IsTagText (name : String) : Prop := ∀ c ∈ name.toList, c.isAlphanum = true ∨ c = '-'

instance : DecidablePred IsTagText := fun name => List.decidableBAll _ name.toList

/-- None of the characters that a tag or a comment begins or ends with is in the name of a tag. -/
theorem IsTagText.ne {name : String} (h : IsTagText name) {c : Char} (hc : c ∈ name.toList) :
    c ≠ '!' ∧ c ≠ '/' ∧ c ≠ '>' ∧ c ≠ '"' ∧ c ≠ '\'' := by
  have hname := ne_quote_of_isNameChar (isNameChar_of_isAlphanum (h c hc))
  refine ⟨?_, ?_, hname⟩
  · rintro rfl
    exact absurd (h _ hc) (by decide)
  · rintro rfl
    exact absurd (h _ hc) (by decide)

/-- So no name makes an end tag or a comment of its tag. -/
theorem IsTagText.head?_ne {name : String} (h : IsTagText name) :
    name.toList.head? ≠ some '!' ∧ name.toList.head? ≠ some '/' := by
  refine ⟨fun hhead => ?_, fun hhead => ?_⟩
  · exact (h.ne (List.mem_of_mem_head? hhead)).1 rfl
  · exact (h.ne (List.mem_of_mem_head? hhead)).2.1 rfl

/-- What begins with no slash is a start tag. -/
theorem ofTag_of_head? {raw : List Char} (h : raw.head? ≠ some '/') :
    Markup.ofTag raw = .startTag (String.ofList raw) := by
  unfold Markup.ofTag
  split
  · exact absurd rfl h
  · rfl

/-- An opening bracket begins a tag or a comment. -/
theorem scanFrom_bracket (rest : List Char) :
    scanFrom .text ('<' :: rest) = scanFrom (.tag []) rest :=
  scanFrom_cons_of_silent rfl rest

/-- A tag ends at its bracket. -/
theorem scanFrom_tag_close (raw rest : List Char) :
    scanFrom (.tag raw) ('>' :: rest) = (scanFrom .text rest).map (.ofTag raw :: ·) := by
  have hstep : (Region.tag raw).step '>' = ([.ofTag raw], .text) := by rw [Region.step, if_pos rfl]
  exact scanFrom_cons hstep rest

/-- A start tag is read with all its attributes. -/
theorem scanFrom_startTag {tagName : String} (htag : IsTagText tagName) {properties : Properties}
    (hnames : ∀ entry ∈ properties, isName (attributeName entry.1) = true) (rest : List Char) :
    scanFrom .text (("<" ++ tagName ++ attributesHtml properties ++ ">").toList ++ rest)
      = (scanFrom .text rest).map (.startTag (tagName ++ attributesHtml properties) :: ·) := by
  obtain ⟨hmark, hslash⟩ := htag.head?_ne
  have hsplit : ("<" ++ tagName ++ attributesHtml properties ++ ">").toList ++ rest
      = '<' :: (tagName.toList ++ ((attributesHtml properties).toList ++ '>' :: rest)) := by
    simp [String.toList_append]
  have hsource : Markup.ofTag (tagName.toList ++ (attributesHtml properties).toList)
      = .startTag (tagName ++ attributesHtml properties) := by
    rw [ofTag_of_head? (head?_append_ne hslash (head?_attributesHtml properties) (by decide)),
      ← String.toList_append, String.ofList_toList]
  rw [hsplit, scanFrom_bracket, scanFrom_tag hmark fun c hc => (htag.ne hc).2.2, List.nil_append,
    scanFrom_attributesHtml hmark hnames, scanFrom_tag_close, hsource]

/-- An end tag is read with its name. -/
theorem scanFrom_endTag {tagName : String} (htag : IsTagText tagName) (rest : List Char) :
    scanFrom .text (("</" ++ tagName ++ ">").toList ++ rest)
      = (scanFrom .text rest).map (.endTag tagName :: ·) := by
  have hsplit : ("</" ++ tagName ++ ">").toList ++ rest
      = '<' :: (('/' :: tagName.toList) ++ '>' :: rest) := by
    simp [String.toList_append]
  have hchars : ∀ c ∈ '/' :: tagName.toList, c ≠ '>' ∧ c ≠ '"' ∧ c ≠ '\'' :=
    List.forall_mem_cons.mpr ⟨by decide, fun c hc => (htag.ne hc).2.2⟩
  rw [hsplit, scanFrom_bracket, scanFrom_tag (by simp) hchars, scanFrom_tag_close, List.nil_append,
    Markup.ofTag, String.ofList_toList]

/-! ## Comments -/

/-- The text holds the end of a comment. -/
def HoldsEnd (cs : List Char) : Prop := ['-', '-', '>'] <:+: cs

instance (cs : List Char) : Decidable (HoldsEnd cs) := inferInstanceAs (Decidable (_ <:+: _))

/-- The end of a comment is complete where the scanner looks for it. -/
theorem holdsEnd_concat {raw : List Char} {c : Char} :
    HoldsEnd (raw ++ [c]) ↔ (c = '>' ∧ ['-', '-'] <:+ raw) ∨ HoldsEnd raw := by
  rw [HoldsEnd, HoldsEnd, List.infix_concat_iff, List.suffix_concat_iff]
  refine or_congr_left ?_
  constructor
  · rintro (hnil | ⟨before, heq, hsuffix⟩)
    · cases hnil
    · have hsplit : ['-', '-'] ++ ['>'] = before ++ [c] := heq
      obtain ⟨rfl, hc⟩ := List.append_inj' hsplit rfl
      exact ⟨(List.singleton_inj.mp hc).symm, hsuffix⟩
  · rintro ⟨rfl, hsuffix⟩
    exact .inr ⟨['-', '-'], rfl, hsuffix⟩

/-- A part of a text without an end of a comment has none. -/
theorem not_holdsEnd_of_infix {cs ds : List Char} (h : ¬ HoldsEnd ds) (hpart : cs <:+: ds) :
    ¬ HoldsEnd cs :=
  fun hcs => h (hcs.trans hpart)

/-- A comment that does not hold an end is read with its value. -/
theorem scanFrom_comment {value : String} (h : ¬ HoldsEnd value.toList) (rest : List Char) :
    scanFrom .text (("<!--" ++ value ++ "-->").toList ++ rest)
      = (scanFrom .text rest).map (.comment value :: ·) := by
  have hsplit : ("<!--" ++ value ++ "-->").toList ++ rest
      = '<' :: '!' :: '-' :: '-' :: ((value.toList ++ ['-', '-']) ++ '>' :: rest) := by
    simp [String.toList_append]
  have hopen (cs : List Char) :
      scanFrom .text ('<' :: '!' :: '-' :: '-' :: cs) = scanFrom (.comment []) cs := by
    rw [scanFrom_bracket]
    repeat rw [scanFrom_cons_of_silent rfl]
  -- Hyphens do not complete an end, so there is none before the bracket.
  have hfirst : ¬ HoldsEnd (value.toList ++ ['-']) := by
    rw [holdsEnd_concat]
    exact not_or.mpr ⟨fun hc => absurd hc.1 (by decide), h⟩
  have hsecond : ¬ HoldsEnd (value.toList ++ ['-', '-']) := by
    rw [List.append_cons, holdsEnd_concat]
    exact not_or.mpr ⟨fun hc => absurd hc.1 (by decide), hfirst⟩
  have hcollect : scanFrom (.comment []) ((value.toList ++ ['-', '-']) ++ '>' :: rest)
      = scanFrom (.comment (value.toList ++ ['-', '-'])) ('>' :: rest) := by
    refine scanFrom_collect (fun seen c hseen => ?_) _
    have hnone := not_holdsEnd_of_infix hsecond hseen.isInfix
    rw [holdsEnd_concat, not_or] at hnone
    rw [List.nil_append, Region.step, if_neg hnone.1]
  have hclose : (Region.comment (value.toList ++ ['-', '-'])).step '>' = ([.comment value], .text) := by
    rw [Region.step, if_pos ⟨rfl, List.suffix_append _ _⟩]
    simp
  rw [hsplit, hopen, hcollect, scanFrom_cons hclose]
  rfl

/-- What has been read of a comment does not hold an end. -/
def Region.Open : Region → Prop
  | comment raw => ¬ HoldsEnd raw
  | text | tag _ | value .. => True

/-- It stays so with every character, and a comment that ends with one holds no end. -/
theorem Region.open_step {region : Region} (h : region.Open) (c : Char) :
    (region.step c).2.Open ∧
    ∀ value ∈ (region.step c).1.filterMap Markup.comment?, ¬ HoldsEnd value.toList := by
  cases region with
  | text =>
    rw [step]
    split <;> exact ⟨trivial, by simp⟩
  | value =>
    rw [step]
    split <;> exact ⟨trivial, by simp⟩
  | tag raw =>
    have htag : [Markup.ofTag raw].filterMap Markup.comment? = [] := by
      unfold Markup.ofTag
      split <;> rfl
    rw [step]
    split
    · exact ⟨trivial, by simp [htag]⟩
    split
    · exact ⟨trivial, by simp⟩
    split
    · have hnothing : ¬ HoldsEnd [] := by decide
      exact ⟨hnothing, by simp⟩
    · exact ⟨trivial, by simp⟩
  | comment raw =>
    rw [step]
    split
    · refine ⟨trivial, List.forall_mem_singleton.mpr ?_⟩
      -- The value is what has been read, less the two hyphens of the end.
      have hfront : raw.dropLast.dropLast <:+: raw :=
        ((List.dropLast_prefix _).trans (List.dropLast_prefix _)).isInfix
      rw [String.toList_ofList]
      exact not_holdsEnd_of_infix h hfront
    · next hnone =>
      refine ⟨?_, by simp⟩
      rw [Open, holdsEnd_concat]
      exact not_or.mpr ⟨hnone, h⟩

/-- No comment that the scanner finds holds an end. -/
theorem not_holdsEnd_of_scanFrom {region : Region} (h : region.Open) {cs : List Char}
    {found : List Markup} (hscan : scanFrom region cs = some found) :
    ∀ value ∈ found.filterMap Markup.comment?, ¬ HoldsEnd value.toList := by
  induction cs generalizing region found with
  | nil =>
    cases region with
    | text =>
      cases hscan
      exact List.forall_mem_nil _
    | tag | value | comment => cases hscan
  | cons c cs ih =>
    obtain ⟨hnext, hended⟩ := Region.open_step h c
    rw [scanFrom, Option.map_eq_some_iff] at hscan
    obtain ⟨later, hlater, rfl⟩ := hscan
    rw [List.filterMap_append]
    exact List.forall_mem_append.mpr ⟨hended, ih hnext hlater⟩

end Hypermark.Html

namespace Hypermark.Hast.Node

open Html

/-! ## Trees -/

mutual

/-- The tags and comments of a tree in document order. -/
def markup : Node → List Markup
  | root children .. => markupAll children
  | element tagName properties children .. =>
    .startTag (tagName ++ attributesHtml properties) ::
      if voidElements.contains tagName then [] else markupAll children ++ [.endTag tagName]
  | comment value .. => [.comment value]
  | text .. | raw .. | other _ => []

/-- The tags and comments of a list of trees. -/
def markupAll : List Node → List Markup
  | [] => []
  | node :: nodes => node.markup ++ markupAll nodes

end

mutual

/-- The values of the comments that are written, in document order; there are none in void elements. -/
def comments : Node → List String
  | root children .. => commentsAll children
  | element tagName _ children .. =>
    if voidElements.contains tagName then [] else commentsAll children
  | comment value .. => [value]
  | text .. | raw .. | other _ => []

/-- The values of the comments of a list of trees. -/
def commentsAll : List Node → List String
  | [] => []
  | node :: nodes => node.comments ++ commentsAll nodes

end

mutual

/-- Changes the values of all comments of a tree. -/
def mapComments (f : String → String) : Node → Node
  | root children position extra => root (mapCommentsAll f children) position extra
  | element tagName properties children position extra =>
    element tagName properties (mapCommentsAll f children) position extra
  | comment value position extra => comment (f value) position extra
  | node => node

/-- Changes the values of all comments of a list of trees. -/
def mapCommentsAll (f : String → String) : List Node → List Node
  | [] => []
  | node :: nodes => node.mapComments f :: mapCommentsAll f nodes

end

/-- The node is no raw markup, texts in it are escaped, and its names are names. -/
def EscapedHere : Node → Prop
  | element tagName properties .. =>
    IsTagText tagName ∧ tagName ∉ rawTextElements ∧
      ∀ entry ∈ properties, isName (attributeName entry.1) = true
  | raw .. => False
  | root .. | text .. | comment .. | other _ => True

/-- Nothing but comments is written as it is. -/
def Escaped (node : Node) : Prop := node.Everywhere EscapedHere

mutual

/-- The HTML of a tree is read as the tags and comments of the tree, if no comment holds an end. -/
theorem scanFrom_htmlIn : (node : Node) → node.Escaped →
    (∀ value ∈ node.comments, ¬ HoldsEnd value.toList) → ∀ rest : List Char,
    scanFrom .text ((node.htmlIn false).toList ++ rest)
      = (scanFrom .text rest).map (node.markup ++ ·)
  | root children .., h, hvalues, rest => by
    rw [htmlIn, markup]
    exact scanFrom_htmlAllIn children h.child hvalues rest
  | element tagName properties children .., h, hvalues, rest => by
    obtain ⟨htag, hraw, hnames⟩ := h.here
    have hraw : rawTextElements.contains tagName = false := by simpa using hraw
    rw [comments] at hvalues
    rw [htmlIn, markup, String.toList_append, List.append_assoc, scanFrom_startTag htag hnames, hraw]
    split
    · rw [String.toList_empty, List.nil_append]
      rfl
    · next hvoid =>
      rw [if_neg hvoid] at hvalues
      rw [toList_append_endTag, List.append_assoc,
        scanFrom_htmlAllIn children h.child hvalues, scanFrom_endTag htag]
      simp [Option.map_map, Function.comp_def]
  | comment value .., _, hvalues, rest => by
    rw [htmlIn, markup]
    exact scanFrom_comment (hvalues value (List.mem_singleton_self value)) rest
  | text value .., _, _, rest => by
    rw [htmlIn, markup]
    simpa using scanFrom_escapeText value rest
  | other _, _, _, rest => by
    rw [htmlIn, markup]
    simp
  | raw .., h, _, _ => h.here.elim

/-- So is the HTML of a list of trees. -/
theorem scanFrom_htmlAllIn : (nodes : List Node) → (∀ node ∈ nodes, node.Escaped) →
    (∀ value ∈ commentsAll nodes, ¬ HoldsEnd value.toList) → ∀ rest : List Char,
    scanFrom .text ((htmlAllIn false nodes).toList ++ rest)
      = (scanFrom .text rest).map (markupAll nodes ++ ·)
  | [], _, _, rest => by
    rw [htmlAllIn, markupAll]
    simp
  | node :: nodes, h, hvalues, rest => by
    obtain ⟨hnode, hnodes⟩ := List.forall_mem_cons.mp h
    rw [commentsAll] at hvalues
    obtain ⟨hfirst, hothers⟩ := List.forall_mem_append.mp hvalues
    rw [htmlAllIn, markupAll, String.toList_append, List.append_assoc,
      scanFrom_htmlIn node hnode hfirst, scanFrom_htmlAllIn nodes hnodes hothers]
    simp [Option.map_map, Function.comp_def]

end

/-- **The HTML of a tree is read as the tags and comments of the tree**, if no comment holds an
end. -/
theorem scan_html {tree : Node} (h : tree.Escaped)
    (hvalues : ∀ value ∈ tree.comments, ¬ HoldsEnd value.toList) :
    scan tree.html = some tree.markup := by
  have hscan := scanFrom_htmlIn tree h hvalues []
  rwa [List.append_nil, scanFrom, Option.map_some, List.append_nil] at hscan

mutual

/-- The comments in the markup of a tree are the comments of the tree. -/
theorem filterMap_markup : (node : Node) → node.markup.filterMap Markup.comment? = node.comments
  | root children .. => by
    rw [markup, comments, filterMap_markupAll children]
  | element tagName _ children .. => by
    rw [markup, comments, List.filterMap_cons_none rfl]
    split
    · rfl
    · rw [List.filterMap_append, filterMap_markupAll children]
      exact List.append_nil _
  | comment .. | text .. | raw .. | other _ => rfl

/-- So it is for a list of trees. -/
theorem filterMap_markupAll : (nodes : List Node) →
    (markupAll nodes).filterMap Markup.comment? = commentsAll nodes
  | [] => rfl
  | node :: nodes => by
    rw [markupAll, commentsAll, List.filterMap_append, filterMap_markup node,
      filterMap_markupAll nodes]

end

variable (f : String → String)

mutual

/-- Other comments make other markup in the same places. -/
theorem markup_mapComments : (node : Node) →
    (node.mapComments f).markup = node.markup.map (Markup.mapComment f)
  | root children .. => by
    rw [mapComments, markup, markup, markupAll_mapCommentsAll children]
  | element tagName properties children .. => by
    rw [mapComments, markup, markup, List.map_cons, apply_ite (List.map _), List.map_append,
      ← markupAll_mapCommentsAll children]
    rfl
  | comment .. | text .. | raw .. | other _ => rfl

/-- So it is for a list of trees. -/
theorem markupAll_mapCommentsAll : (nodes : List Node) →
    markupAll (mapCommentsAll f nodes) = (markupAll nodes).map (Markup.mapComment f)
  | [] => rfl
  | node :: nodes => by
    rw [mapCommentsAll, markupAll, markupAll, List.map_append, markup_mapComments node,
      markupAll_mapCommentsAll nodes]

end

mutual

/-- A tree with other comments is escaped if the tree is. -/
theorem escaped_mapComments : (node : Node) → node.Escaped → (node.mapComments f).Escaped
  | root children .., h => ⟨trivial, escaped_mapCommentsAll children h.child⟩
  | element _ _ children .., h => ⟨h.here, escaped_mapCommentsAll children h.child⟩
  | comment .., _ => everywhere_of_childless rfl trivial
  | text .., h | raw .., h | other _, h => h

/-- So are the trees of a list. -/
theorem escaped_mapCommentsAll : (nodes : List Node) → (∀ node ∈ nodes, node.Escaped) →
    ∀ node ∈ mapCommentsAll f nodes, node.Escaped
  | [], _ => List.forall_mem_nil _
  | node :: nodes, h => by
    obtain ⟨hnode, hnodes⟩ := List.forall_mem_cons.mp h
    exact List.forall_mem_cons.mpr
      ⟨escaped_mapComments node hnode, escaped_mapCommentsAll nodes hnodes⟩

end

/-- The comments are the changed ones. -/
theorem comments_mapComments (node : Node) : (node.mapComments f).comments = node.comments.map f := by
  rw [← filterMap_markup, ← filterMap_markup, markup_mapComments, List.filterMap_map,
    List.map_filterMap]
  refine List.filterMap_congr fun markup _ => ?_
  cases markup <;> rfl

/-- The tags do not depend on the comments. -/
theorem filter_isTag_mapComments (node : Node) :
    (node.mapComments f).markup.filter Markup.isTag = node.markup.filter Markup.isTag := by
  rw [markup_mapComments]
  induction node.markup with
  | nil => rfl
  | cons markup found ih =>
    cases markup with
    | startTag | endTag => exact congrArg (_ :: ·) ih
    | comment => exact ih

/-- From the HTML of the tree its comments are read, each with its value, and the tags that are read
without what the comments say. -/
def CommentsContained (tree : Node) : Prop :=
  ∃ found silent, scan tree.html = some found ∧
    scan (tree.mapComments fun _ => "").html = some silent ∧
    found.filterMap Markup.comment? = tree.comments ∧
    found.filter Markup.isTag = silent.filter Markup.isTag

/-- **A comment cannot break out of itself unless it holds the end of a comment.** -/
theorem commentsContained_iff {tree : Node} (h : tree.Escaped) :
    tree.CommentsContained ↔ ∀ value ∈ tree.comments, ¬ HoldsEnd value.toList := by
  constructor
  · rintro ⟨found, silent, hfound, -, hcomments, -⟩
    rw [← hcomments]
    exact @not_holdsEnd_of_scanFrom .text trivial _ _ hfound
  · intro hvalues
    have hsilent : ∀ value ∈ (tree.mapComments fun _ => "").comments, ¬ HoldsEnd value.toList := by
      rw [comments_mapComments]
      intro value hvalue
      obtain ⟨_, -, rfl⟩ := List.mem_map.mp hvalue
      decide
    exact ⟨tree.markup, (tree.mapComments fun _ => "").markup, scan_html h hvalues,
      scan_html (escaped_mapComments _ tree h) hsilent, filterMap_markup tree,
      (filter_isTag_mapComments _ tree).symm⟩

/-- Brackets, tags and hyphens in a comment, with an end in an escaped text, in the value of an attribute
and in a comment that is not written; a name may begin with a digit. -/
theorem commentsContained_nested :
    let tree : Node := .root [.tag "2-x" [("title", .string "-->\"'")]
      [.comment "><b>--" none [], .plain "-->", .tag "br" [] [.comment "-->" none []] none] none,
      .comment "->" none []] none []
    tree.Escaped ∧ tree.comments = ["><b>--", "->"] ∧ tree.CommentsContained := by
  intro tree
  have hleaf {value : String} : (comment value none []).Escaped := everywhere_of_childless rfl trivial
  have htext : (plain "-->").Escaped := everywhere_of_childless rfl trivial
  have hbreak : (Node.tag "br" [] [.comment "-->" none []] none).Escaped :=
    ⟨⟨by decide, by decide, by simp⟩, List.forall_mem_singleton.mpr hleaf⟩
  have hnames : ∀ entry ∈ [("title", PropertyValue.string "-->\"'")],
      isName (attributeName entry.1) = true :=
    List.forall_mem_singleton.mpr (by decide)
  have htree : tree.Escaped := by
    refine ⟨trivial, List.forall_mem_cons.mpr ⟨⟨⟨by decide, by decide, hnames⟩, ?_⟩,
      List.forall_mem_singleton.mpr hleaf⟩⟩
    simp only [Node.childList_tag, List.forall_mem_cons]
    exact ⟨hleaf, htext, hbreak, by simp⟩
  exact ⟨htree, by decide, (commentsContained_iff htree).mpr (by decide)⟩

/-- **A comment that holds an end breaks out of itself**: a tag is read that the tree does not have. -/
theorem comment_breaks_out :
    let tree : Node := .root [.comment "--><b>" none []] none []
    tree.Escaped ∧ scan tree.html = some [.comment "", .startTag "b"] ∧ tree.comments = ["--><b>"] ∧
    ¬ tree.CommentsContained := by
  intro tree
  have htree : tree.Escaped :=
    ⟨trivial, List.forall_mem_singleton.mpr (everywhere_of_childless rfl trivial)⟩
  have hscan : scan tree.html = some [.comment "", .startTag "b"] := by decide
  refine ⟨htree, hscan, by decide, ?_⟩
  rintro ⟨found, silent, hfound, -, hcomments, -⟩
  have hempty : tree.comments = [""] := by
    rw [← hcomments, ← Option.some.inj (hscan.symm.trans hfound)]
    rfl
  exact absurd hempty (by decide)

end Hypermark.Hast.Node
