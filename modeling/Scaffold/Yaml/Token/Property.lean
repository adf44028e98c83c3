import Scaffold.Yaml.Cursor
import Scaffold.Yaml.Scalar.Value

/-!
Names that nodes carry: anchors and references to them, and tags. A tag is a handle and what follows
it; the handle is looked up where the node is used.
-/

namespace Scaffold.Yaml

/-! ## Anchors -/

/-- The name after the sign of an anchor or a reference. -/
def readAnchor (activity : Activity) (c : Cursor) : Except SyntaxFault (List Char × Cursor) :=
  let name := (c.skip 1).run isWordChar
  let stop := c.skip (1 + name.length)
  let isEnded := stop.next?.all fun x => isGap x || "?:,]\x7d%@`".toList.contains x
  if name.isEmpty || !isEnded then .error (stop.fault activity c.mark .noWordChar)
  else .ok (name, stop)

/-! ## Tags -/

/-- Where a tag is read: at a node, or in a directive begun before. -/
inductive TagPlace where
  | node
  | directive
  deriving DecidableEq

/-- A handle: an exclamation mark, a word, and a second mark if it is there; in a directive only a
lone mark may do without the second. -/
def readHandle (place : TagPlace) (start : Mark) (c : Cursor) :
    Except SyntaxFault (List Char × Cursor) :=
  if c.next? != some '!' then
    let activity := if place == .node then Activity.tag else .tagDirectiveMark
    .error (c.fault activity start .noTagMark)
  else
    let word := (c.skip 1).run isWordChar
    let stop := c.skip (1 + word.length)
    if stop.next? == some '!' then .ok ('!' :: word ++ ['!'], stop.skip 1)
    else if place == .directive && !word.isEmpty then
      .error (stop.fault .tagDirectiveHandle start .noTagMark)
    else .ok ('!' :: word, stop)

/-- How many octets a character takes that starts with this one. -/
def octetWidth? (octet : Nat) : Option Nat :=
  if octet < 0x80 then some 1
  else if octet / 0x20 == 6 then some 2
  else if octet / 0x10 == 0xE then some 3
  else if octet / 8 == 0x1E then some 4
  else none

/-- The octet written as a percent sign and two digits. -/
def readOctet? (c : Cursor) : Option Nat :=
  match c.rest with
  | '%' :: a :: b :: _ => natInBase? 16 [a, b]
  | _ => none

/-- The octets of an escaped character after the first, `count` of them. -/
def laterOctets (fault : Cursor → Problem → SyntaxFault) : (count : Nat) → Cursor →
    Except SyntaxFault (List Nat × Cursor)
  | 0, c => .ok ([], c)
  | count + 1, c => do
    match readOctet? c with
    | none => .error (fault c .noOctet)
    | some octet =>
      if octet / 0x40 != 2 then .error (fault c .badLaterOctet)
      else
        let (rest, stop) ← laterOctets fault count (c.skip 3)
        return (octet :: rest, stop)

/-- The character made of a first octet and later ones. -/
def charOfOctets (first : Nat) (later : List Nat) : Char :=
  let lead :=
    match later.length with
    | 0 => first
    | 1 => first % 0x20
    | 2 => first % 0x10
    | _ => first % 8
  Char.ofNat (later.foldl (fun n octet => 0x40 * n + octet % 0x40) lead)

/-- Characters that a tag is made of; inside angle brackets some more are allowed. -/
def isTagChar (isVerbatim : Bool) (c : Char) : Bool :=
  isWordChar c || ";/?:@&=+$.%!~*'()".toList.contains c || (isVerbatim && ",[]".toList.contains c)

/-- The text of a tag up to the first character that is not part of it. -/
def tagChars (isVerbatim : Bool) (fault : Cursor → Problem → SyntaxFault) : (fuel : Nat) →
    Cursor → Except SyntaxFault (List Char × Cursor)
  | 0, c => .ok ([], c)
  | fuel + 1, c => do
    match c.next? with
    | none => return ([], c)
    | some x =>
      if !isTagChar isVerbatim x then return ([], c)
      else if x == '%' then
        match readOctet? c with
        | none => .error (fault c .noOctet)
        | some first =>
          match octetWidth? first with
          | none => .error (fault c .badFirstOctet)
          | some width =>
            let (later, stop) ← laterOctets fault (width - 1) (c.skip 3)
            let (rest, stop) ← tagChars isVerbatim fault fuel stop
            return (charOfOctets first later :: rest, stop)
      else
        let (rest, stop) ← tagChars isVerbatim fault fuel (c.skip 1)
        return (x :: rest, stop)

/-- The text of a tag begun at `start` after `head`; one of the two must not be empty. -/
def readTagText (isVerbatim : Bool) (place : TagPlace) (start : Mark) (head : List Char)
    (c : Cursor) : Except SyntaxFault (List Char × Cursor) := do
  let activity := if place == .node then Activity.tagText else .tagDirectiveText
  let fault (c : Cursor) (problem : Problem) := c.fault activity start problem
  let (text, stop) ← tagChars isVerbatim fault c.rest.length c
  if text.isEmpty && head.isEmpty then .error (fault stop .noTagText)
  else return (head.drop 1 ++ text, stop)

/-- A tag as written. -/
structure Tag where
  /-- Empty if the tag needs no look-up. -/
  handle : String
  text : String
  deriving DecidableEq, Inhabited

/-- The tag at its exclamation mark. -/
def readTag (flow : Bool) (c : Cursor) : Except SyntaxFault (Tag × Cursor) := do
  let tag (handle text : List Char) : Tag := ⟨String.ofList handle, String.ofList text⟩
  let (read, stop) ←
    if (c.skip 1).next? == some '<' then do
      let (text, stop) ← readTagText true .node c.mark [] (c.skip 2)
      if stop.next? != some '>' then .error (stop.fault .tag c.mark .noTagClose)
      else pure (tag [] text, stop.skip 1)
    else do
      let (handle, stop) ← readHandle .node c.mark c
      if handle.length != 1 && handle.getLast? == some '!' then
        let (text, stop) ← readTagText false .node c.mark [] stop
        pure (tag handle text, stop)
      else
        let (text, stop) ← readTagText false .node c.mark handle stop
        pure (if text.isEmpty then tag [] ['!'] else tag ['!'] text, stop)
  if gapNext stop.rest || (flow && stop.next? == some ',') then return (read, stop)
  else .error (stop.fault .tag c.mark .noTagEnd)

end Scaffold.Yaml
