import Mathlib

/-!
# Reading XML documents of the introspection format

`nih_dbus_object_introspect` returns its description of an object as an XML
document. This module says what it means to read such a document back: a
character-level lexer into markup tokens, a check that the tokens form a
well-formed document, and the round trip that makes the check and the reader
usable on text a program writes.

What is read follows the XML 1.0 rules that apply to these documents: line
ends are normalised before anything else (`normalizeEol`); between markup
only white space may stand; an attribute value is quoted with `"`, may not
contain `<` or `&`, holds only XML characters, and has its tabs and line
ends read as spaces (attribute-value normalisation). A markup declaration
`<!…>`, the document type declaration, is read as one token. Names are the
ASCII part of the XML name rules, which is all the format uses.

- `lex` runs the automaton `lexStep` over the characters of a document.
- `renderToken` writes a token the way `dbus.c`'s format strings do, and
  `lexFrom_renderToken` reads it back; `lex_renderLines` reads back a
  document written one token a line.
- `docStep` checks nesting, the single root element, one document type
  declaration before it, and distinct attribute names in each tag;
  `wellFormed` is lexing followed by that check.
-/

namespace NihDBus

/-! ## Characters and tokens -/

/-- XML white space, once line ends are normalised. -/
def isXmlSpace (c : Char) : Bool := c = ' ' || c = '\t' || c = '\n'

/-- The characters XML allows in a document (`Char` already excludes the
surrogates). -/
def isXmlChar (c : Char) : Bool :=
  c = '\t' || c = '\n' || c = '\r' || (0x20 ≤ c.val && c.val ≠ 0xFFFE && c.val ≠ 0xFFFF)

/-- A character that may start a name. -/
def isNameStart (c : Char) : Bool := c.isAlpha || c = '_' || c = ':'

/-- A character that may continue a name. -/
def isNameChar (c : Char) : Bool := isNameStart c || c.isDigit || c = '-' || c = '.'

/-- A name: a name-start character, then name characters. -/
def isXmlName : List Char → Bool
  | [] => false
  | c :: cs => isNameStart c && cs.all isNameChar

/-- End-of-line handling (XML 1.0 §2.11): `\r\n` and a lone `\r` become `\n`. -/
def normalizeEol : List Char → List Char
  | [] => []
  | '\r' :: '\n' :: cs => '\n' :: normalizeEol cs
  | '\r' :: cs => '\n' :: normalizeEol cs
  | c :: cs => c :: normalizeEol cs

/-- How a character of an attribute value reads (XML 1.0 §3.3.3). -/
def normalizeValueChar (c : Char) : Char := if isXmlSpace c then ' ' else c

/-- A markup token: a declaration `<!…>` with its body, a start tag, an
empty-element tag, or an end tag. -/
inductive XmlToken
  | decl (body : List Char)
  | start (name : String) (attrs : List (String × String))
  | empty (name : String) (attrs : List (String × String))
  | stop (name : String)
  deriving DecidableEq, Repr

/-! ## The lexer -/

/-- Where the lexer is: between markup, after `<`, in a declaration, in a
name, between attributes, in an attribute name, after `=`, in a value, after
a value, after the `/` of an empty-element tag, or in an end tag's name. -/
inductive LexState
  | text
  | lt
  | decl (body : List Char)
  | startName (name : List Char)
  | tagSpace (name : List Char) (attrs : List (String × String))
  | attrName (name : List Char) (attrs : List (String × String)) (attr : List Char)
  | attrEq (name : List Char) (attrs : List (String × String)) (attr : List Char)
  | attrValue (name : List Char) (attrs : List (String × String)) (attr value : List Char)
  | afterValue (name : List Char) (attrs : List (String × String))
  | slash (name : List Char) (attrs : List (String × String))
  | stopName (name : List Char)
  deriving DecidableEq, Repr

/-- The end of a start tag's name or of an attribute value: white space, `>`
or `/`. -/
def lexTagEnd (name : List Char) (attrs : List (String × String)) (c : Char) :
    Option (LexState × Option XmlToken) :=
  if isXmlSpace c then some (.tagSpace name attrs, none)
  else if c = '>' then some (.text, some (.start ⟨name⟩ attrs))
  else if c = '/' then some (.slash name attrs, none)
  else none

/-- One character: the next state and the token it completes, if any. -/
def lexStep : LexState → Char → Option (LexState × Option XmlToken)
  | .text, c =>
    if c = '<' then some (.lt, none) else if isXmlSpace c then some (.text, none) else none
  | .lt, c =>
    if c = '/' then some (.stopName [], none)
    else if c = '!' then some (.decl [], none)
    else if isNameStart c then some (.startName [c], none)
    else none
  | .decl body, c =>
    if c = '>' then some (.text, some (.decl body)) else some (.decl (body ++ [c]), none)
  | .startName name, c =>
    if isNameChar c then some (.startName (name ++ [c]), none) else lexTagEnd name [] c
  | .tagSpace name attrs, c =>
    if isNameStart c then some (.attrName name attrs [c], none) else lexTagEnd name attrs c
  | .attrName name attrs attr, c =>
    if isNameChar c then some (.attrName name attrs (attr ++ [c]), none)
    else if c = '=' then some (.attrEq name attrs attr, none)
    else none
  | .attrEq name attrs attr, c =>
    if c = '"' then some (.attrValue name attrs attr [], none) else none
  | .attrValue name attrs attr value, c =>
    if c = '"' then some (.afterValue name (attrs ++ [(⟨attr⟩, ⟨value⟩)]), none)
    else if c = '<' || c = '&' || !isXmlChar c then none
    else some (.attrValue name attrs attr (value ++ [normalizeValueChar c]), none)
  | .afterValue name attrs, c => lexTagEnd name attrs c
  | .slash name attrs, c =>
    if c = '>' then some (.text, some (.empty ⟨name⟩ attrs)) else none
  | .stopName name, c =>
    if isNameChar c then some (.stopName (name ++ [c]), none)
    else if c = '>' then some (.text, some (.stop ⟨name⟩))
    else none

/-- The automaton run over characters from a state: where it ends and the
tokens it completes; `none` at a character it does not accept. -/
def lexFrom : LexState → List Char → Option (LexState × List XmlToken)
  | s, [] => some (s, [])
  | s, c :: cs =>
    (lexStep s c).bind fun r => (lexFrom r.1 cs).map fun r' => (r'.1, r.2.toList ++ r'.2)

/-- The tokens of a text; `none` if it is not markup of the kind read here,
or ends inside a tag. -/
def lex (s : LexState) (cs : List Char) : Option (List XmlToken) :=
  (lexFrom s cs).bind fun r => if r.1 = .text then some r.2 else none

/-! ## Writing tokens -/

/-- The attributes of a tag, each written ` name="value"`. -/
def renderAttrs (attrs : List (String × String)) : List Char :=
  attrs.flatMap fun a => ' ' :: a.1.data ++ '=' :: '"' :: a.2.data ++ ['"']

/-- A token written out. -/
def renderToken : XmlToken → List Char
  | .decl body => '<' :: '!' :: body ++ ['>']
  | .start name attrs => '<' :: name.data ++ renderAttrs attrs ++ ['>']
  | .empty name attrs => '<' :: name.data ++ renderAttrs attrs ++ ['/', '>']
  | .stop name => '<' :: '/' :: name.data ++ ['>']

/-- A character an attribute value may hold as written and that reaches the
lexer as written: an XML character other than the quote, `<`, `&` and the
carriage return, which end-of-line handling rewrites first. -/
def isValueChar (c : Char) : Bool := c != '"' && c != '<' && c != '&' && c != '\r' && isXmlChar c

/-- A string that may stand in an attribute value as written. -/
def isValueString (v : String) : Bool := v.data.all isValueChar

/-- Attributes with names and values the lexer reads back. -/
def validAttrs (attrs : List (String × String)) : Bool :=
  attrs.all fun a => isXmlName a.1.data && isValueString a.2

/-- A token the lexer reads back from its rendering. -/
def XmlToken.valid : XmlToken → Bool
  | .decl body => body.all fun c => c != '>' && c != '\r'
  | .start name attrs | .empty name attrs => isXmlName name.data && validAttrs attrs
  | .stop name => isXmlName name.data

/-- An attribute value as a reader sees it. -/
def normalizeValue (v : String) : String := ⟨v.data.map normalizeValueChar⟩

/-- Attribute values as a reader sees them. -/
def normalizeAttrs (attrs : List (String × String)) : List (String × String) :=
  attrs.map fun a => (a.1, normalizeValue a.2)

/-- A token as a reader sees it. -/
def XmlToken.normalize : XmlToken → XmlToken
  | .start name attrs => .start name (normalizeAttrs attrs)
  | .empty name attrs => .empty name (normalizeAttrs attrs)
  | t => t

/-! ## Reading back what was written -/

/-- Lexing a text in two parts. -/
theorem lexFrom_append (s : LexState) (xs ys : List Char) :
    lexFrom s (xs ++ ys) =
      (lexFrom s xs).bind fun r => (lexFrom r.1 ys).map fun r' => (r'.1, r.2 ++ r'.2) := by
  induction xs generalizing s with
  | nil => simp [lexFrom]
  | cons c xs ih =>
    rw [List.cons_append]
    simp only [lexFrom]
    cases lexStep s c with
    | none => rfl
    | some r =>
      simp only [Option.some_bind, ih]
      cases lexFrom r.1 xs with
      | none => rfl
      | some r' => simp [Function.comp_def]

/-- Characters the automaton takes one at a time into an accumulator, each as
`f` maps it, are taken as a block. -/
theorem lexFrom_accumulate (mk : List Char → LexState) (P : Char → Prop) (f : Char → Char)
    (hstep : ∀ acc c, P c → lexStep (mk acc) c = some (mk (acc ++ [f c]), none)) :
    ∀ (n acc : List Char), (∀ c ∈ n, P c) →
      lexFrom (mk acc) n = some (mk (acc ++ n.map f), [])
  | [], acc, _ => by simp [lexFrom]
  | c :: n, acc, h => by
    simp only [lexFrom, hstep acc c (h c (.head _)), Option.some_bind,
      lexFrom_accumulate mk P f hstep n _ fun d hd => h d (.tail _ hd)]
    simp

/-- White space between markup is skipped. -/
theorem lexFrom_text_space {ws : List Char} (h : ∀ c ∈ ws, isXmlSpace c) :
    lexFrom .text ws = some (.text, []) :=
  lexFrom_accumulate (fun _ => .text) (isXmlSpace · = true) id
    (fun _ c hc => by simp [lexStep, hc, show c ≠ '<' by rintro rfl; simp [isXmlSpace] at hc])
    ws [] h

theorem isNameChar_of_isNameStart {c : Char} (h : isNameStart c) : isNameChar c := by
  simp [isNameChar, h]

/-- A name is read into the state `mk` builds from it. -/
theorem lexFrom_name (mk : List Char → LexState)
    (hstep : ∀ acc c, isNameChar c → lexStep (mk acc) c = some (mk (acc ++ [c]), none))
    {c : Char} {cs : List Char} (h : cs.all isNameChar) :
    lexFrom (mk [c]) cs = some (mk (c :: cs), []) := by
  simpa using lexFrom_accumulate mk (isNameChar · = true) id hstep cs [c] (by simpa using h)

/-- The attributes of a tag are read, normalised. -/
theorem lexFrom_renderAttrs (name : List Char) :
    ∀ (attrs attrs₀ : List (String × String)), validAttrs attrs →
      lexFrom (.afterValue name attrs₀) (renderAttrs attrs) =
        some (.afterValue name (attrs₀ ++ normalizeAttrs attrs), [])
  | [], attrs₀, _ => by simp [renderAttrs, normalizeAttrs, lexFrom]
  | (⟨a⟩, ⟨v⟩) :: attrs, attrs₀, h => by
    simp only [validAttrs, List.all_cons, Bool.and_eq_true] at h
    obtain ⟨⟨ha, hv⟩, h⟩ := h
    obtain _ | ⟨c, cs⟩ := a
    · simp [isXmlName] at ha
    simp only [isXmlName, Bool.and_eq_true] at ha
    have hname := lexFrom_name (.attrName name attrs₀) (fun acc d hd => by simp [lexStep, hd])
      (c := c) ha.2
    have hval := lexFrom_accumulate (.attrValue name attrs₀ (c :: cs)) (isValueChar · = true)
      normalizeValueChar (fun acc d hd => by
        simp only [isValueChar, bne_iff_ne, ne_eq, Bool.and_eq_true] at hd
        simp [lexStep, hd.1.1.1.1, hd.1.1.1.2, hd.1.1.2, hd.2]) v []
        (by simpa [isValueString] using hv)
    have hrest := lexFrom_renderAttrs name attrs
      (attrs₀ ++ [(⟨c :: cs⟩, ⟨v.map normalizeValueChar⟩)]) h
    have e : renderAttrs ((⟨c :: cs⟩, ⟨v⟩) :: attrs) =
        [' ', c] ++ cs ++ ['=', '"'] ++ v ++ ['"'] ++ renderAttrs attrs := by
      simp [renderAttrs]
    have h1 :
        lexFrom (.afterValue name attrs₀) [' ', c] = some (.attrName name attrs₀ [c], []) := by
      simp [lexFrom, lexStep, lexTagEnd, isXmlSpace, ha.1]
    have h2 : lexFrom (.attrName name attrs₀ (c :: cs)) ['=', '"'] =
        some (.attrValue name attrs₀ (c :: cs) [], []) := by
      simp [lexFrom, lexStep, show isNameChar '=' = false by decide]
    have h3 : lexFrom (.attrValue name attrs₀ (c :: cs) (v.map normalizeValueChar)) ['"'] =
        some (.afterValue name
          (attrs₀ ++ [(⟨c :: cs⟩, ⟨v.map normalizeValueChar⟩)]), []) := by
      simp [lexFrom, lexStep]
    rw [e]
    simp only [lexFrom_append, h1, hname, h2, hval, h3, hrest, Option.some_bind, Option.map_some',
      List.nil_append]
    simp [normalizeAttrs, normalizeValue]

/-- After a start tag's name, a character that is not a name character is
read as after an attribute value. -/
theorem lexFrom_startName_end (name : List Char) {d : Char} (hd : isNameChar d = false)
    (rest : List Char) :
    lexFrom (.startName name) (d :: rest) = lexFrom (.afterValue name []) (d :: rest) := by
  simp [lexFrom, lexStep, hd]

/-- The tag of an element with a valid name: `<` and the name. -/
theorem lexFrom_tagName {c : Char} {cs : List Char} (h : isXmlName (c :: cs)) :
    lexFrom .text (['<', c] ++ cs) = some (.startName (c :: cs), []) := by
  simp only [isXmlName, Bool.and_eq_true] at h
  have h1 : c ≠ '/' := by rintro rfl; exact absurd h.1 (by decide)
  have h2 : c ≠ '!' := by rintro rfl; exact absurd h.1 (by decide)
  rw [lexFrom_append, show lexFrom .text ['<', c] = some (.startName [c], []) by
    simp [lexFrom, lexStep, h.1, h1, h2]]
  simp [lexFrom_name .startName (fun acc d hd => by simp [lexStep, hd]) h.2]

/-- What follows a start tag's name and attributes, `>` or `/>`, completes
it as a start or an empty-element tag. -/
theorem lexFrom_tagBody {name : List Char} {attrs : List (String × String)}
    (h : validAttrs attrs) {close : List Char} {t : XmlToken}
    (hclose : lexFrom (.afterValue name (normalizeAttrs attrs)) close = some (.text, [t]))
    (hd : ∀ d rest, close = d :: rest → isNameChar d = false) (hne : close ≠ []) :
    lexFrom (.startName name) (renderAttrs attrs ++ close) = some (.text, [t]) := by
  cases attrs with
  | nil =>
    obtain ⟨d, rest, rfl⟩ := List.exists_cons_of_ne_nil hne
    simpa [renderAttrs, normalizeAttrs, lexFrom_startName_end name (hd d rest rfl)] using hclose
  | cons a attrs =>
    obtain ⟨rest, e⟩ : ∃ rest, renderAttrs (a :: attrs) ++ close = ' ' :: rest := ⟨_, rfl⟩
    rw [e, lexFrom_startName_end name (by decide), ← e, lexFrom_append,
      lexFrom_renderAttrs name _ [] h]
    simpa using hclose

/-- **A written token reads back**, its attribute values normalised. -/
theorem lexFrom_renderToken {t : XmlToken} (h : t.valid) :
    lexFrom .text (renderToken t) = some (.text, [t.normalize]) := by
  cases t with
  | decl body =>
    simp only [XmlToken.valid, List.all_eq_true, Bool.and_eq_true, bne_iff_ne, ne_eq] at h
    have hb := lexFrom_accumulate .decl (· ≠ '>') id
      (fun acc c hc => by simp [lexStep, hc]) body [] fun c hc => (h c hc).1
    rw [show renderToken (.decl body) = ['<', '!'] ++ body ++ ['>'] by simp [renderToken],
      lexFrom_append, lexFrom_append]
    simp [hb, lexFrom, lexStep, XmlToken.normalize]
  | start name attrs =>
    obtain ⟨_ | ⟨c, cs⟩⟩ := name
    · simp [XmlToken.valid, isXmlName] at h
    simp only [XmlToken.valid, Bool.and_eq_true] at h
    rw [show renderToken (.start ⟨c :: cs⟩ attrs) =
        (['<', c] ++ cs) ++ (renderAttrs attrs ++ ['>']) by simp [renderToken],
      lexFrom_append, lexFrom_tagName h.1, Option.some_bind,
      lexFrom_tagBody h.2 (t := .start ⟨c :: cs⟩ (normalizeAttrs attrs))
        (by simp [lexFrom, lexStep, lexTagEnd, isXmlSpace]) (by rintro d rest ⟨rfl, -⟩; decide)
        (by simp)]
    simp [XmlToken.normalize]
  | empty name attrs =>
    obtain ⟨_ | ⟨c, cs⟩⟩ := name
    · simp [XmlToken.valid, isXmlName] at h
    simp only [XmlToken.valid, Bool.and_eq_true] at h
    rw [show renderToken (.empty ⟨c :: cs⟩ attrs) =
        (['<', c] ++ cs) ++ (renderAttrs attrs ++ ['/', '>']) by simp [renderToken],
      lexFrom_append, lexFrom_tagName h.1, Option.some_bind,
      lexFrom_tagBody h.2 (t := .empty ⟨c :: cs⟩ (normalizeAttrs attrs))
        (by simp [lexFrom, lexStep, lexTagEnd, isXmlSpace]) (by rintro d rest ⟨rfl, -⟩; decide)
        (by simp)]
    simp [XmlToken.normalize]
  | stop name =>
    obtain ⟨_ | ⟨c, cs⟩⟩ := name
    · simp [XmlToken.valid, isXmlName] at h
    simp only [XmlToken.valid, isXmlName, Bool.and_eq_true] at h
    have hn := lexFrom_accumulate .stopName (isNameChar · = true) id
      (fun acc d hd => by simp [lexStep, hd]) (c :: cs) []
      (by simpa [isNameChar_of_isNameStart h.1] using h.2)
    rw [List.nil_append, List.map_id] at hn
    have h0 : lexFrom .text ['<', '/'] = some (.stopName [], []) := by simp [lexFrom, lexStep]
    have h3 : lexFrom (.stopName (c :: cs)) ['>'] = some (.text, [.stop ⟨c :: cs⟩]) := by
      simp [lexFrom, lexStep, show isNameChar '>' = false by decide]
    rw [show renderToken (.stop ⟨c :: cs⟩) = ['<', '/'] ++ (c :: cs) ++ ['>'] by
        simp [renderToken],
      lexFrom_append, lexFrom_append, h0, Option.some_bind]
    simp [hn, h3, XmlToken.normalize]

/-- A token on a line of its own, indented by `l.1` spaces, as the format
strings of `dbus.c` write each tag. -/
def renderLine (l : Nat × XmlToken) : List Char :=
  List.replicate l.1 ' ' ++ renderToken l.2 ++ ['\n']

/-- **Written lines read back** as their tokens, normalised. -/
theorem lexFrom_renderLines :
    ∀ ls : List (Nat × XmlToken), (∀ l ∈ ls, l.2.valid) →
      lexFrom .text (ls.flatMap renderLine) = some (.text, ls.map (·.2.normalize))
  | [], _ => rfl
  | l :: ls, h => by
    have hi := @lexFrom_text_space (List.replicate l.1 ' ') (by simp [isXmlSpace])
    have hn : ∀ rest, lexFrom .text ('\n' :: rest) = lexFrom .text rest := fun rest => by
      simp [lexFrom, lexStep, isXmlSpace]
    simp [renderLine, lexFrom_append, hi, lexFrom_renderToken (h l (.head _)), hn,
      lexFrom_renderLines ls fun l hl => h l (.tail _ hl), Function.comp_def]

/-- A text without carriage returns is unchanged by end-of-line handling. -/
theorem normalizeEol_of_not_mem : ∀ {cs : List Char}, '\r' ∉ cs → normalizeEol cs = cs
  | [], _ => rfl
  | c :: cs, h => by
    have hc : c ≠ '\r' := fun e => h (e ▸ .head _)
    have ih := normalizeEol_of_not_mem fun m => h (.tail _ m)
    cases cs with
    | nil => simp [normalizeEol, hc]
    | cons d cs => simp [normalizeEol, hc, ih]

/-- A name holds no carriage return. -/
theorem cr_not_mem_of_isXmlName {cs : List Char} (h : isXmlName cs) : '\r' ∉ cs := by
  obtain _ | ⟨c, cs⟩ := cs
  · simp [isXmlName] at h
  simp only [isXmlName, Bool.and_eq_true, List.all_eq_true] at h
  rintro (_ | ⟨_, hm⟩)
  · exact absurd h.1 (by decide)
  · exact absurd (h.2 _ hm) (by decide)

/-- Valid tokens are written without carriage returns. -/
theorem cr_not_mem_renderToken {t : XmlToken} (h : t.valid) : '\r' ∉ renderToken t := by
  have hattrs : ∀ {attrs}, validAttrs attrs → '\r' ∉ renderAttrs attrs := fun {attrs} ha => by
    simp only [validAttrs, List.all_eq_true, Bool.and_eq_true] at ha
    simp only [renderAttrs, List.mem_flatMap, List.mem_cons, List.mem_append, not_exists, not_and]
    intro a hm
    have hv : '\r' ∉ a.2.data := fun m => by
      simpa [isValueChar] using List.all_eq_true.1 (ha a hm).2 _ m
    simp [cr_not_mem_of_isXmlName (ha a hm).1, hv]
  cases t with
  | decl body =>
    simp only [XmlToken.valid, List.all_eq_true, Bool.and_eq_true, bne_iff_ne, ne_eq] at h
    simpa [renderToken] using fun m => (h _ m).2 rfl
  | start name attrs | empty name attrs =>
    simp only [XmlToken.valid, Bool.and_eq_true] at h
    simp [renderToken, cr_not_mem_of_isXmlName h.1, hattrs h.2]
  | stop name => simp [renderToken, cr_not_mem_of_isXmlName (by simpa [XmlToken.valid] using h)]

/-- **A document written one valid token a line lexes back** to its tokens,
attribute values normalised. -/
theorem lex_renderLines {ls : List (Nat × XmlToken)} (h : ∀ l ∈ ls, l.2.valid) :
    lex .text (normalizeEol (ls.flatMap renderLine)) = some (ls.map (·.2.normalize)) := by
  have hcr : '\r' ∉ ls.flatMap renderLine := by
    simp only [List.mem_flatMap, renderLine, List.mem_append, List.mem_replicate, not_exists,
      not_and]
    intro l hl
    simp [cr_not_mem_renderToken (h l hl)]
  simp [lex, normalizeEol_of_not_mem hcr, lexFrom_renderLines ls h]

/-! ## Documents -/

/-- Where the document check is: in the prolog (and whether the document type
declaration was seen), inside the root element with the names of the open
elements, or after the root. -/
inductive DocState
  | prolog (doctype : Bool)
  | inside (openElems : List String)
  | epilog
  deriving DecidableEq, Repr

/-- Distinct attribute names. -/
def distinctAttrs (attrs : List (String × String)) : Bool := decide (attrs.map Prod.fst).Nodup

/-- One token of a document. -/
def docStep : DocState → XmlToken → Option DocState
  | .prolog false, .decl _ => some (.prolog true)
  | .prolog _, .start name attrs => if distinctAttrs attrs then some (.inside [name]) else none
  | .prolog _, .empty _ attrs => if distinctAttrs attrs then some .epilog else none
  | .inside s, .start name attrs => if distinctAttrs attrs then some (.inside (name :: s)) else none
  | .inside s, .empty _ attrs => if distinctAttrs attrs then some (.inside s) else none
  | .inside [name'], .stop name => if name = name' then some .epilog else none
  | .inside (name' :: s), .stop name => if name = name' then some (.inside s) else none
  | _, _ => none

/-- The state after a run of tokens. -/
def docRun : DocState → List XmlToken → Option DocState
  | s, [] => some s
  | s, t :: ts => (docStep s t).bind (docRun · ts)

/-- A well-formed document: it lexes, and its tokens are at most one document
type declaration, then one root element with properly nested content, each
tag with distinct attribute names. -/
def wellFormed (doc : String) : Bool :=
  match lex .text (normalizeEol doc.data) with
  | some toks => docRun (.prolog false) toks = some .epilog
  | none => false

/-- Token sequences in which every start tag is closed, in order, by its
end tag, each tag with distinct attribute names. -/
inductive Balanced : List XmlToken → Prop
  | nil : Balanced []
  | empty {name : String} {attrs : List (String × String)} {rest : List XmlToken} :
      distinctAttrs attrs → Balanced rest → Balanced (.empty name attrs :: rest)
  | elem {name : String} {attrs : List (String × String)} {inner rest : List XmlToken} :
      distinctAttrs attrs → Balanced inner → Balanced rest →
        Balanced (.start name attrs :: inner ++ .stop name :: rest)

theorem Balanced.append {as bs : List XmlToken} (ha : Balanced as) (hb : Balanced bs) :
    Balanced (as ++ bs) := by
  induction ha with
  | nil => exact hb
  | empty h _ ih => exact .empty h ih
  | elem h hi _ _ ih =>
    simp only [List.cons_append, List.append_assoc]
    exact .elem h hi ih

theorem balanced_flatMap {α : Type} {f : α → List XmlToken} {xs : List α}
    (h : ∀ x ∈ xs, Balanced (f x)) : Balanced (xs.flatMap f) := by
  induction xs with
  | nil => exact .nil
  | cons x xs ih => exact (h x (.head _)).append (ih fun y hy => h y (.tail _ hy))

theorem balanced_map {α : Type} {f : α → XmlToken} {xs : List α}
    (h : ∀ x ∈ xs, Balanced [f x]) :
    Balanced (xs.map f) := by
  rw [List.map_eq_flatMap]
  exact balanced_flatMap h

theorem distinctAttrs_normalizeAttrs (attrs : List (String × String)) :
    distinctAttrs (normalizeAttrs attrs) = distinctAttrs attrs := by
  simp [distinctAttrs, normalizeAttrs, Function.comp_def]

/-- Normalising attribute values keeps the nesting. -/
theorem Balanced.normalize {ts : List XmlToken} (h : Balanced ts) :
    Balanced (ts.map XmlToken.normalize) := by
  induction h with
  | nil => exact .nil
  | empty h _ ih =>
    exact .empty (by rwa [distinctAttrs_normalizeAttrs]) ih
  | elem h _ _ ihi ihr =>
    simpa [XmlToken.normalize] using
      Balanced.elem (by rwa [distinctAttrs_normalizeAttrs]) ihi ihr

/-- Inside an element, balanced content leaves the open elements as they were. -/
theorem docRun_balanced {g : List XmlToken} (hg : Balanced g) :
    ∀ {s : List String}, s ≠ [] → ∀ rest,
      docRun (.inside s) (g ++ rest) = docRun (.inside s) rest := by
  induction hg with
  | nil => intros; rfl
  | empty h _ ih =>
    intro s hs rest
    simp [docRun, docStep, h, ih hs]
  | @elem name attrs inner tail h _ _ ihi iht =>
    intro s hs rest
    obtain ⟨n, s', rfl⟩ := List.exists_cons_of_ne_nil hs
    simp only [List.cons_append, List.append_assoc, docRun, docStep, h, ite_true, Option.some_bind,
      List.append_eq]
    rw [ihi (List.cons_ne_nil _ _)]
    simp [docRun, docStep, iht hs]

/-- A document type declaration, then a root element with balanced content,
is a well-formed token sequence. -/
theorem docRun_document (body : List Char) {root : String} {attrs : List (String × String)}
    {inner : List XmlToken} (h : distinctAttrs attrs) (hi : Balanced inner) :
    docRun (.prolog false) (.decl body :: .start root attrs :: inner ++ [.stop root]) =
      some .epilog := by
  simp only [List.cons_append, docRun, docStep, h, ite_true, Option.some_bind, List.append_eq]
  rw [docRun_balanced hi (List.cons_ne_nil _ _)]
  simp [docRun, docStep]

end NihDBus
