import Bindery.Text.Basic

/-! Blocks of HTML inside Markdown: which lines open one, what closes it, and whether it may break off a
paragraph. Names are compared without regard to case. -/

namespace Bindery.Markdown
open Text

/-- The small letter that a character is taken for. -/
def foldCase (c : Char) : Char :=
  if isAsciiUpper c then Char.ofNat (c.toNat + 32)
  else if c.toNat = 0x130 || c.toNat = 0x131 then 'i'
  else if c.toNat = 0x17f then 's'
  else if c.toNat = 0x212a then 'k'
  else c

def dropName? (name : Text) (text : Text) : Option Text :=
  if (text.take name.length).map foldCase = name then some (text.drop name.length) else none

def rawNames : List Text :=
  words "script pre style textarea"

def blockNames : List Text :=
  words "address article aside base basefont blockquote body caption center col colgroup dd details"
    ++ words "dialog dir div dl dt fieldset figcaption figure footer form frame frameset h1 h2 h3 h4"
    ++ words "h5 h6 head header hr html iframe legend li link main menu menuitem nav noframes ol"
    ++ words "optgroup option p param search section summary table tbody td tfoot th thead title tr"
    ++ words "track ul"

inductive HtmlKind where
  | raw
  | comment
  | instruction
  | declaration
  | characterData
  | block
  | anyTag
  deriving DecidableEq, Repr

def isAsciiLetter (c : Char) : Bool :=
  isAsciiLower c || isAsciiUpper c

/-- A name must not go on after it was found. -/
def endsName (text : Text) : Bool :=
  match text with
  | [] => true
  | c :: _ => isBlank c || c = '>'

def opensRaw (text : Text) : Bool :=
  rawNames.any fun name => (dropName? ('<' :: name) text).any endsName

def opensBlock (text : Text) : Bool :=
  let inner := match text with
    | '<' :: '/' :: rest => some rest
    | '<' :: rest => some rest
    | _ => none
  inner.any fun inner => blockNames.any fun name =>
    (dropName? name inner).any fun rest => endsName rest || "/>".toList.isPrefixOf rest

/-- What may remain after one attribute with the blanks before it. -/
def isAttributeChar (c : Char) : Bool :=
  isAsciiLetter c || isAsciiDigit c || c = ':' || c = '.' || c = '_' || c = '-'

def isBareValueChar (c : Char) : Bool :=
  32 < c.toNat && !(['\x22', '\x27', '=', '<', '>', '\x60'].contains c)

/-- All that may remain after an attribute's value; a bare value may end before any blank in it. -/
def afterValue : Text → List Text
  | '\x22' :: rest => ((cutAt '\x22' rest).map Prod.snd).toList
  | '\x27' :: rest => ((cutAt '\x27' rest).map Prod.snd).toList
  | text =>
    let value := text.takeWhile isBareValueChar
    let ends := (List.range value.length).filter fun i => i > 0 && (value[i]?.any isBlank)
    (if value.isEmpty then [] else [text.drop value.length]) ++ ends.map text.drop

/-- All that may remain after an attribute, which blanks come before. -/
def afterAttribute (text : Text) : List Text :=
  let name := stripStart text
  if name.length = text.length then []
  else
    match name with
    | c :: _ =>
      if isAsciiLetter c || c = '_' || c = ':' then
        let rest := name.dropWhile isAttributeChar
        match stripStart rest with
        | '=' :: value => afterValue (stripStart value) ++ [rest]
        | _ => [rest]
      else []
    | [] => []

def closesTag (text : Text) : Bool :=
  match stripStart text with
  | '/' :: '>' :: rest => rest.all isBlank
  | '>' :: rest => rest.all isBlank
  | _ => false

/-- Attributes one after another and then the end of the tag, with nothing but blanks after it. -/
def attributesClose : Nat → Text → Bool
  | 0, text => closesTag text
  | fuel + 1, text => closesTag text || (afterAttribute text).any (attributesClose fuel)

def isTagNameChar (c : Char) : Bool :=
  isAsciiLetter c || isAsciiDigit c || c = '-'

/-- A complete opening or closing tag that is alone on its line. -/
def isLoneTag (text : Text) : Bool :=
  match text with
  | '<' :: '/' :: c :: rest =>
    isAsciiLetter c && (match stripStart (rest.dropWhile isTagNameChar) with
      | '>' :: after => after.all isBlank
      | _ => false)
  | '<' :: c :: rest => isAsciiLetter c && attributesClose text.length (rest.dropWhile isTagNameChar)
  | _ => false

def htmlKind? (text : Text) : Option HtmlKind :=
  if opensRaw text then some .raw
  else if "<!--".toList.isPrefixOf text then some .comment
  else if "<?".toList.isPrefixOf text then some .instruction
  else if "<!".toList.isPrefixOf text && (text[2]?.any isAsciiUpper) then some .declaration
  else if "<![CDATA[".toList.isPrefixOf text then some .characterData
  else if opensBlock text then some .block
  else if isLoneTag text then some .anyTag
  else none

namespace HtmlKind

def mayBreakParagraph (kind : HtmlKind) : Bool :=
  kind ≠ .anyTag

private def closesRaw : Text → Bool
  | [] => false
  | c :: rest =>
    rawNames.any (fun name => (dropName? ("</".toList ++ name ++ ['>']) (c :: rest)).isSome) || closesRaw rest

/-- Whether a block ends on a line with this content. -/
def endsOn (kind : HtmlKind) (text : Text) : Bool :=
  match kind with
  | .raw => closesRaw text
  | .comment => occursIn "-->" text
  | .instruction => occursIn "?>" text
  | .declaration => occursIn ">" text
  | .characterData => occursIn "]]>" text
  | .block | .anyTag => text.isEmpty

end HtmlKind
end Bindery.Markdown
