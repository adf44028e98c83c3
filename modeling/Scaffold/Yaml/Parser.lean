import Scaffold.Yaml.Node
import Scaffold.Yaml.Token.Lexer

/-!
From the tokens of a document to its tree. Where a token is missing or does not fit, the tree is
cut, and nothing is read after that.
-/

namespace Scaffold.Yaml

/-- What is left of a document to read. -/
structure Feed where
  tokens : List Token
  /-- Why there is nothing after the tokens. -/
  error : ReadError
  /-- The names of anchors, each with the number that it stands for. -/
  names : List (String × Nat) := []
  /-- What the handles of tags stand for. -/
  handles : List (String × String) := []
  deriving Inhabited

namespace Feed

def skip (f : Feed) : Feed :=
  { f with tokens := f.tokens.drop 1 }

def fail (f : Feed) (error : ReadError) : Feed :=
  { f with tokens := [], error }

/-- Nothing more can be read: a problem at a token, while reading what began at `start`. -/
def failAt (f : Feed) (t : Token) (activity : Activity) (start : Mark) (problem : Problem) : Feed :=
  f.fail (.malformed ⟨problem, t.start, some (activity, start)⟩)

/-- The tree breaks off here. -/
def cut (f : Feed) : Node × Feed :=
  (.cut f.error, f)

/-- The number of the anchor of the next node, if it has one: how many names there are. A name that
there was already stands for the new number from here on. So after a name that is used again the
next new one gets the same number. -/
def number (f : Feed) : (anchor : Option String) → Option Nat × Feed
  | none => (none, f)
  | some name =>
    let n := f.names.length
    (some n, { f with names := (name, n) :: f.names.filter (·.1 != name) })

/-- The anchor at this place, if there is one. -/
def takeAnchor (f : Feed) : Option String × Feed :=
  match f.tokens with
  | ⟨.anchor name, _, _⟩ :: _ => (some name, f.skip)
  | _ => (none, f)

/-- The tag at this place and where it stands, if there is one. -/
def takeTag (f : Feed) : Option (Tag × Mark) × Feed :=
  match f.tokens with
  | ⟨.tag tag, start, _⟩ :: _ => (some (tag, start), f.skip)
  | _ => (none, f)

/-- The full text of a tag on a node that starts at `start`. -/
def expandTag (f : Feed) (start : Mark) : Option (Tag × Mark) → Except ReadError (Option String)
  | none => .ok none
  | some (tag, mark) =>
    if tag.handle == "" then .ok (some tag.text)
    else
      match f.handles.lookup tag.handle with
      | some expansion => .ok (some (expansion ++ tag.text))
      | none => .error (.malformed ⟨.unknownHandle, mark, some (.node, start)⟩)

end Feed

/-- A token that ends an entry of a block map. -/
def Token.Kind.endsBlockEntry : Token.Kind → Bool
  | .key | .value | .blockEnd => true
  | _ => false

/-- A token that ends an entry of a flow collection which `last` closes. -/
def Token.Kind.endsFlowEntry (last : Token.Kind) (kind : Token.Kind) : Bool :=
  kind == .flowEntry || kind == last

mutual

/-- A node. Block collections may start only in a block, and a list without indentation of its own
only in a map. -/
def readNode : (fuel : Nat) → (block indentless : Bool) → Feed → Node × Feed
  | 0, _, _, f => f.cut
  | fuel + 1, block, indentless, f =>
    match f.tokens with
    | [] => f.cut
    | ⟨.reference name, start, _⟩ :: _ =>
      match f.names.lookup name with
      | some n => (.reference start n, f.skip)
      | none => (f.fail (.unknownAnchor start)).cut
    | t :: _ =>
      let (anchor, f) := f.takeAnchor
      let (tag, f) := f.takeTag
      let (later, f) := if anchor.isSome then (none, f) else f.takeAnchor
      if f.tokens.isEmpty then f.cut
      else
        match f.expandTag t.start tag with
        | .error error => (f.fail error).cut
        | .ok tag => readContent fuel block indentless t.start (anchor.or later) tag f

/-- What stands after the anchor and the tag of a node that starts at `start`. -/
def readContent : (fuel : Nat) → (block indentless : Bool) → (start : Mark) →
    (anchor tag : Option String) → Feed → Node × Feed
  | 0, _, _, _, _, _, f => f.cut
  | fuel + 1, block, indentless, start, anchor, tag, f =>
    match f.tokens with
    | [] => f.cut
    | t :: _ =>
      let (number, g) := f.number anchor
      let list (read : List Node × Feed) : Node × Feed :=
        ((Node.list start read.1).withAnchor number, read.2)
      let map (read : List (Node × Node) × Feed) : Node × Feed :=
        ((Node.map start read.1).withAnchor number, read.2)
      match t.kind, block with
      | .scalar text style, _ =>
        ((Node.scalar start text style (tag.filter (· != "!"))).withAnchor number, g.skip)
      | .flowSequenceStart, _ => list (flowItems fuel true t.start g.skip)
      | .flowMappingStart, _ => map (flowEntries fuel true t.start g.skip)
      | .blockSequenceStart, true => list (blockItems fuel t.start g.skip)
      | .blockMappingStart, true => map (blockEntries fuel t.start g.skip)
      | kind, _ =>
        if indentless && kind == .blockEntry then list (plainItems fuel g)
        else if anchor.isSome || tag.isSome then
          ((Node.scalar start "" .plain tag).withAnchor number, g)
        else (f.failAt t (if block then .blockNode else .flowNode) start .noContent).cut

/-- The items of a block list whose start was read at `start`. -/
def blockItems : (fuel : Nat) → (start : Mark) → Feed → List Node × Feed
  | 0, _, f => ([f.cut.1], f)
  | fuel + 1, start, f =>
    match f.tokens with
    | [] => ([f.cut.1], f)
    | t :: _ =>
      match t.kind with
      | .blockEnd => ([], f.skip)
      | .blockEntry =>
        let (item, f) :=
          match f.skip.tokens with
          | ⟨.blockEntry, _, _⟩ :: _ | ⟨.blockEnd, _, _⟩ :: _ => (.empty t.stop, f.skip)
          | _ => readNode fuel true false f.skip
        let (items, f) := blockItems fuel start f
        (item :: items, f)
      | _ =>
        let f := f.failAt t .blockSequence start .noDash
        ([f.cut.1], f)

/-- The items of a list that is not indented further than the key above it. -/
def plainItems : (fuel : Nat) → Feed → List Node × Feed
  | 0, f => ([f.cut.1], f)
  | fuel + 1, f =>
    match f.tokens with
    | [] => ([f.cut.1], f)
    | t :: _ =>
      if t.kind != .blockEntry then ([], f)
      else
        let (item, f) :=
          match f.skip.tokens with
          | [] => f.skip.cut
          | next :: _ =>
            if next.kind == .blockEntry || next.kind.endsBlockEntry then (.empty t.stop, f.skip)
            else readNode fuel true false f.skip
        let (items, f) := plainItems fuel f
        (item :: items, f)

/-- The entries of a block map whose start was read at `start`. -/
def blockEntries : (fuel : Nat) → (start : Mark) → Feed → List (Node × Node) × Feed
  | 0, _, f => ([(f.cut.1, f.cut.1)], f)
  | fuel + 1, start, f =>
    match f.tokens with
    | [] => ([(f.cut.1, f.cut.1)], f)
    | t :: _ =>
      match t.kind with
      | .blockEnd => ([], f.skip)
      | .key =>
        let (key, f) := blockPart fuel t.stop f.skip
        let (value, f) :=
          match f.tokens with
          | [] => f.cut
          | ⟨.value, _, stop⟩ :: _ => blockPart fuel stop f.skip
          | t :: _ => (.empty t.start, f)
        let (entries, f) := blockEntries fuel start f
        ((key, value) :: entries, f)
      | _ =>
        let f := f.failAt t .blockMapping start .noKey
        ([(f.cut.1, f.cut.1)], f)

/-- A key or a value of a block map after its sign, which ended at `stop`; it may be missing. -/
def blockPart : (fuel : Nat) → (stop : Mark) → Feed → Node × Feed
  | 0, _, f => f.cut
  | fuel + 1, stop, f =>
    match f.tokens with
    | [] => f.cut
    | t :: _ =>
      if t.kind.endsBlockEntry then (.empty stop, f) else readNode fuel true true f

/-- The items of a flow list whose start was read at `start`; `first` says that no item was read
yet. A key with a value is a map of one entry. -/
def flowItems : (fuel : Nat) → (first : Bool) → (start : Mark) → Feed → List Node × Feed
  | 0, _, _, f => ([f.cut.1], f)
  | fuel + 1, first, start, f =>
    match f.tokens with
    | [] => ([f.cut.1], f)
    | t :: _ =>
      if t.kind == .flowSequenceEnd then ([], f.skip)
      else if !first && t.kind != .flowEntry then
        let f := f.failAt t .flowSequence start .noSequenceSign
        ([f.cut.1], f)
      else
        let f := if first then f else f.skip
        match f.tokens with
        | [] => ([f.cut.1], f)
        | ⟨.flowSequenceEnd, _, _⟩ :: _ => ([], f.skip)
        | ⟨.key, keyStart, _⟩ :: _ =>
          let (entries, f) := flowPair fuel f.skip
          let (items, f) := flowItems fuel false start f
          (.map keyStart entries :: items, f)
        | _ =>
          let (item, f) := readNode fuel false false f
          let (items, f) := flowItems fuel false start f
          (item :: items, f)

/-- The one entry of a map that is an item of a flow list. A sign in place of the key is passed
over. -/
def flowPair : (fuel : Nat) → Feed → List (Node × Node) × Feed
  | 0, f => ([(f.cut.1, f.cut.1)], f)
  | fuel + 1, f =>
    match f.tokens with
    | [] => ([(f.cut.1, f.cut.1)], f)
    | t :: _ =>
      let (key, f) :=
        if t.kind == .value || t.kind.endsFlowEntry .flowSequenceEnd then (.empty t.stop, f.skip)
        else readNode fuel false false f
      let (value, f) := flowValue fuel .flowSequenceEnd f
      ((key, value) :: if f.tokens.isEmpty then [(f.cut.1, f.cut.1)] else [], f)

/-- The entries of a flow map whose start was read at `start`; `first` says that no entry was read
yet. A node that no colon follows is a key without a value. -/
def flowEntries : (fuel : Nat) → (first : Bool) → (start : Mark) → Feed →
    List (Node × Node) × Feed
  | 0, _, _, f => ([(f.cut.1, f.cut.1)], f)
  | fuel + 1, first, start, f =>
    match f.tokens with
    | [] => ([(f.cut.1, f.cut.1)], f)
    | t :: _ =>
      if t.kind == .flowMappingEnd then ([], f.skip)
      else if !first && t.kind != .flowEntry then
        let f := f.failAt t .flowMapping start .noMappingSign
        ([(f.cut.1, f.cut.1)], f)
      else
        let f := if first then f else f.skip
        match f.tokens with
        | [] => ([(f.cut.1, f.cut.1)], f)
        | ⟨.flowMappingEnd, _, _⟩ :: _ => ([], f.skip)
        | ⟨.key, _, _⟩ :: _ =>
          let (key, f) :=
            match f.skip.tokens with
            | [] => f.skip.cut
            | t :: _ =>
              if t.kind == .value || t.kind.endsFlowEntry .flowMappingEnd then
                (.empty t.start, f.skip)
              else readNode fuel false false f.skip
          let (value, f) := flowValue fuel .flowMappingEnd f
          let (entries, f) := flowEntries fuel false start f
          ((key, value) :: entries, f)
        | _ =>
          let (key, f) := readNode fuel false false f
          let (value, f) :=
            match f.tokens with
            | [] => f.cut
            | t :: _ => (.empty t.start, f)
          let (entries, f) := flowEntries fuel false start f
          ((key, value) :: entries, f)

/-- The value of a key in a flow collection that `last` closes; it may be missing. -/
def flowValue : (fuel : Nat) → (last : Token.Kind) → Feed → Node × Feed
  | 0, _, f => f.cut
  | fuel + 1, last, f =>
    match f.tokens with
    | [] => f.cut
    | t :: _ =>
      if t.kind != .value then (.empty t.start, f)
      else
        match f.skip.tokens with
        | [] => f.skip.cut
        | t :: _ =>
          if t.kind.endsFlowEntry last then (.empty t.start, f.skip)
          else readNode fuel false false f.skip

end

/-! ## Documents -/

/-- A text with one document in it. -/
structure Document where
  root : Node
  /-- What is wrong after the root. -/
  fault : Option ReadError := none
  deriving Inhabited

/-- How many calls reading these tokens may take. -/
def fuelFor (tokens : List Token) : Nat :=
  4 * tokens.length + 10

def defaultHandles : List (String × String) :=
  [("!", "!"), ("!!", "tag:yaml.org,2002:")]

namespace Feed

/-- What is wrong after the root: the text breaks off, or there is another document. -/
def rootFault (f : Feed) : Option ReadError :=
  if f.tokens.isEmpty then some f.error
  else
    match f.tokens.dropWhile (·.kind == .documentEnd) with
    | ⟨.streamEnd, _, _⟩ :: _ => none
    | _ => some .severalDocuments

/-- A document from its root on. -/
def document (f : Feed) : Document :=
  let (root, f) := readNode (fuelFor f.tokens) true false f
  ⟨root, f.rootFault⟩

/-- The directives in front of a document; `isVersioned` says that its version was given. -/
def directives (f : Feed) : (isVersioned : Bool) → List Token → Feed
  | _, [] => { f with tokens := [] }
  | isVersioned, t :: rest =>
    let fail (problem : Problem) := f.fail (.malformed ⟨problem, t.start, none⟩)
    match t.kind with
    | .directive (.version major minor) =>
      if isVersioned then fail .repeatedVersion
      else if major != 1 || (minor != 1 && minor != 2) then fail .otherVersion
      else f.directives true rest
    | .directive (.handle name expansion) =>
      if f.handles.any (·.1 == name) then fail .repeatedHandle
      else { f with handles := (name, expansion) :: f.handles }.directives isVersioned rest
    | .documentStart => { f with tokens := t :: rest }
    | _ => fail .noDocumentStart

/-- A token that cannot be part of the root. -/
def endsRoot : Token.Kind → Bool
  | .directive _ | .documentStart | .documentEnd | .streamEnd => true
  | _ => false

/-- A document after its directives and its start mark. -/
def markedDocument (f : Feed) : Document :=
  let f := f.directives false f.tokens
  let f := { f.skip with handles := f.handles ++ defaultHandles }
  match f.tokens with
  | [] => ⟨f.cut.1, none⟩
  | t :: _ => if endsRoot t.kind then ⟨.empty t.start, f.rootFault⟩ else f.document

/-- The document of all tokens; one without any token is empty. -/
def wholeDocument (f : Feed) : Document :=
  match f.tokens with
  | [] => ⟨f.cut.1, none⟩
  | ⟨.streamEnd, start, _⟩ :: _ => ⟨.empty start, none⟩
  | ⟨.directive _, _, _⟩ :: _ | ⟨.documentStart, _, _⟩ :: _ => f.markedDocument
  | _ => { f with handles := defaultHandles }.document

end Feed

/-- The document in a text. -/
def Document.ofText (text : String) : Document :=
  let cs := text.toList
  let allowed := cs.takeWhile isAllowed
  if allowed.length < cs.length then
    ⟨.cut (.forbiddenChar (String.ofList allowed).utf8ByteSize), none⟩
  else
    let lexing := tokens (plainBreaks cs)
    Feed.wholeDocument
      { tokens := lexing.tokens
        error := (lexing.fault.map ReadError.malformed).getD .severalDocuments }

end Scaffold.Yaml
