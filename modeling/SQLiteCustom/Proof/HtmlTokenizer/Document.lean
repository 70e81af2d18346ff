import SQLiteCustom.Proof.HtmlTokenizer.Pieces

/-!
# HTML documents and what is indexed of them

A document is a sequence of texts, tags and elements that are to be left out
of the index (`Part`), with the texts whose words are to be in the index
(`shown`) and the places where no token may start (`ignoredRanges`). `Agrees`
says that the comparisons and searches that the tokenizer makes come to the
tags and elements of the document.
-/

namespace SQLiteCustom.Proof.HtmlTokenizer

open SQLiteCustom.Impl SQLiteCustom.Proof.CharacterTokenizer

/-! ## Tags -/

def equalsSign : UInt8 := 0x3d

def isSpace (b : UInt8) : Bool := b = space || b = 0x09 || b = 0x0a || b = 0x0c || b = 0x0d

/-- The name of a tag, in lower case, from what is between its `'<'` and its
`'>'`. An end tag has none. -/
def tagName (body : Bytes) : Bytes := (body.takeWhile fun b => !isSpace b && b ≠ slash).map tolower

/-- The name of an end tag. -/
def endName (body : Bytes) : Bytes := if body.head? = some slash then tagName body.tail else []

/-- The name and the attributes of a tag, with the names in lower case. -/
def attributes (body : Bytes) : List Bytes :=
  (segments (fun b => !isSpace b) (fun b => !isSpace b) body).map fun a =>
    (a.takeWhile (· ≠ equalsSign)).map tolower ++ a.dropWhile (· ≠ equalsSign)

/-- A `ruby` tag, which is in the middle of a word. -/
def IsRuby (body : Bytes) : Prop := tagName body = ascii "ruby" ∨ endName body = ascii "ruby"

instance (body : Bytes) : Decidable (IsRuby body) := inferInstanceAs (Decidable (_ ∨ _))

/-! ## Elements -/

/-- The elements that are left out of the index. -/
inductive Ignored
  | head
  | marker
  | studyNotes
  | notes
  | rp
  | rt
  deriving DecidableEq, Repr

namespace Ignored

def name : Ignored → Bytes
  | head => ascii "head"
  | marker => ascii "sup"
  | studyNotes => ascii "footer"
  | notes => ascii "footer"
  | rp => ascii "rp"
  | rt => ascii "rt"

def classAttribute : Ignored → Option Bytes
  | marker => some (ascii "class=\"marker\"")
  | studyNotes => some (ascii "class=\"study-notes\"")
  | notes => some (ascii "class=\"notes\"")
  | _ => none

/-- The elements that may be in the middle of a word. -/
def isAnnotation : Ignored → Bool
  | rp => true
  | rt => true
  | _ => false

/-- The start tag of the element. -/
def Opens (e : Ignored) (body : Bytes) : Prop := tagName body = e.name ∧ ∀ a ∈ e.classAttribute, a ∈ attributes body

instance (e : Ignored) (body : Bytes) : Decidable (e.Opens body) := inferInstanceAs (Decidable (_ ∧ ∀ _ ∈ _, _))

end Ignored

/-! ## Documents -/

/-- The text between two tags. -/
def IsText (s : List Char) : Prop := ∀ c ∈ s, c ≠ '<' ∧ c.val ≠ 0

/-- What is in a tag, up to its `'>'`. -/
def InTag (body : Bytes) : Prop := ∀ b ∈ body, b ≠ gt ∧ b ≠ 0

instance (s : List Char) : Decidable (IsText s) := List.decidableBAll (fun c => c ≠ '<' ∧ c.val ≠ 0) s

instance (body : Bytes) : Decidable (InTag body) := List.decidableBAll (fun b => b ≠ gt ∧ b ≠ 0) body

inductive Markup
  | text (s : List Char)
  | tag (body : Bytes)

def Markup.bytes : Markup → Bytes
  | text s => utf8 s
  | tag body => lt :: (body ++ [gt])

def Markup.WellFormed : Markup → Prop
  | text s => IsText s
  | tag body => InTag body

/-- How many elements of a name are open after some markup. There is no result
for an end tag without its start tag. -/
def depthAfter (name : Bytes) : Nat → List Markup → Option Nat
  | d, [] => some d
  | d, .text _ :: ms => depthAfter name d ms
  | d, .tag body :: ms =>
    if endName body = name then
      match d with
      | 0 => none
      | d + 1 => depthAfter name d ms
    else if tagName body = name then depthAfter name (d + 1) ms
    else depthAfter name d ms

/-- A part of a document: a text, a tag, or an element that is left out of the
index, with the rest of its start and end tags. -/
inductive Part
  | text (s : List Char)
  | tag (body : Bytes)
  | element (e : Ignored) (opening : Bytes) (content : List Markup) (closing : Bytes)

namespace Part

/-- An element from behind its first `'<'` on. -/
def elementBody (opening : Bytes) (content : List Markup) (closing : Bytes) : Bytes :=
  opening ++ gt :: (content.flatMap Markup.bytes ++ lt :: slash :: (closing ++ [gt]))

def bytes : Part → Bytes
  | text s => utf8 s
  | tag body => lt :: (body ++ [gt])
  | element _ opening content closing => lt :: elementBody opening content closing

/-- Tags are closed, a tag that is no element's opens none, and an element is
closed and has none of its kind in it. -/
def WellFormed : Part → Prop
  | text s => IsText s
  | tag body => InTag body ∧ ∀ e : Ignored, ¬e.Opens body
  | element e opening content closing =>
    InTag opening ∧ e.Opens opening ∧ InTag closing ∧ tagName closing = e.name ∧
      depthAfter e.name 0 content = some 0 ∧
      ∀ m ∈ content, m.WellFormed ∧ ∀ body, m = .tag body → ¬e.Opens body

/-- A tag is not taken for an ignored element: where it begins with what the
tokenizer compares, ignoring case, the end tag that is found is the end of the
tag itself, or there is none in the text that follows. In that case what is
after a name is compared with the other ones. -/
def Unopened : List (Bytes × Bytes) → Bytes → Bytes → Prop
  | [], _, _ => True
  | (opening, closing) :: tags, body, rest =>
    if Starts opening body then
      closing ++ [gt] <:+ body.drop opening.length ++ [gt] ∨
        ¬closing ++ [gt] <:+: body.drop opening.length ++ gt :: rest ∧ Unopened tags (body.drop opening.length) rest
    else Unopened tags body rest

instance decidableUnopened : (tags : List (Bytes × Bytes)) → (body rest : Bytes) → Decidable (Unopened tags body rest)
  | [], _, _ => inferInstanceAs (Decidable True)
  | (opening, _) :: tags, body, rest =>
    have := decidableUnopened tags (body.drop opening.length) rest
    have := decidableUnopened tags body rest
    inferInstanceAs (Decidable (if Starts opening body then _ ∨ _ ∧ _ else _))

/-- The comparisons before a token do not take a tag for an ignored element. -/
def NotTaken (body rest : Bytes) : Prop :=
  if (ignoredElement ignore_tags body).isSome then Unopened ignore_tags body rest else Unopened annotations body rest

instance (body rest : Bytes) : Decidable (NotTaken body rest) :=
  inferInstanceAs (Decidable (if (ignoredElement ignore_tags body).isSome then _ else _))

/-- The tokenizer takes the part for what it is, with `rest` after it; `b`
tells whether it comes to the part inside a token. Only there a tag is compared
with the names that do not end a token, and one that ends it, or is not in one,
is compared with those of the ignored elements, and its `'>'` is read. The
start tag of an element begins with what is compared, and its end tag is in
lower case and the first one that is found. -/
def Agrees (p : Tokenizer) (b : Bool) : Part → Bytes → Prop
  | text _, _ => True
  | tag body, rest =>
    b = true ∧ IsRuby body ∨
      (b = true → ∀ tag ∈ rubyTags ++ nonbreaking_ignore_tags, ¬Starts tag body) ∧
        p.unicodeIsAlnum gt.toNat = false ∧ NotTaken body rest
  | element e opening content closing, _ =>
    (∃ c ∈ ignore_tags ++ annotations, c.2 = e.name ∧ Starts c.1 opening ∧
      c.2 ++ [gt] <:+ (elementBody opening content closing).drop c.1.length ∧
      ¬c.2 ++ [gt] <:+: ((elementBody opening content closing).drop c.1.length).dropLast) ∧
    (b = true ∧ e.isAnnotation = true ∨ p.unicodeIsAlnum gt.toNat = false)

/-- Whether the tokenizer is inside a token after the part, given whether it is
before it. -/
def insideAfter (p : Tokenizer) (b : Bool) : Part → Bool
  | text s => HtmlTokenizer.insideAfter p b (utf8 s)
  | tag body => b && IsRuby body
  | element e _ _ _ => b && e.isAnnotation

end Part

/-- The text of a document. -/
def document (ps : List Part) : Bytes := ps.flatMap Part.bytes

/-- The tokenizer takes every part of a document for what it is. -/
def Agrees (p : Tokenizer) : Bool → List Part → Prop
  | _, [] => True
  | b, part :: ps => part.Agrees p b (document ps) ∧ Agrees p (part.insideAfter p b) ps

/-- The texts from offset `o` on, with `cs` before the first one. A text goes on
behind a `ruby` tag and an annotation, and ends at any other tag or element. -/
def shown : List Character → Nat → List Part → List (List Character)
  | cs, _, [] => [cs]
  | cs, o, .text s :: ps => shown (cs ++ decode (o + (utf8 s).length) (utf8 s)) (o + (utf8 s).length) ps
  | cs, o, .tag body :: ps =>
    let o' := o + (Part.tag body).bytes.length
    if IsRuby body then shown cs o' ps else cs :: shown [] o' ps
  | cs, o, .element e opening content closing :: ps =>
    let o' := o + (Part.element e opening content closing).bytes.length
    if e.isAnnotation then shown cs o' ps else cs :: shown [] o' ps

/-- Where the ignored elements begin and end. -/
def ignoredRanges : Nat → List Part → List (Nat × Nat)
  | _, [] => []
  | o, .element e opening content closing :: ps =>
    let o' := o + (Part.element e opening content closing).bytes.length
    (o, o') :: ignoredRanges o' ps
  | o, part :: ps => ignoredRanges (o + part.bytes.length) ps

/-- Nothing in one of the ranges is at offset `k`. -/
def Outside (rs : List (Nat × Nat)) (k : Nat) : Prop := ∀ r ∈ rs, ¬(r.1 ≤ k ∧ k < r.2)

/-- No token starts in an ignored element, and every word that is not in one is
reported. -/
structure LeavesOut (p : Tokenizer) (ps : List Part) (ts : List Token) : Prop where
  outside : ∀ t ∈ ts, Outside (ignoredRanges 0 ps) t.start
  complete : ∀ text ∈ shown [] 0 ps, ∀ w ∈ words p text, ∃ t ∈ ts, t.start = wordStart w ∧
    t.text = match p.stemmer with
      | some stem => stem (wordText p w)
      | none => wordText p w

/-- The tokenizer indexes a document, whatever is in the memory after its zero
byte. -/
def Indexes (p : Tokenizer) (ps : List Part) : Prop :=
  ∀ y, ∃ ts, Tokenizes p (document ps ++ 0 :: y) (document ps).length 0 0 ts ∧ LeavesOut p ps ts

end SQLiteCustom.Proof.HtmlTokenizer
