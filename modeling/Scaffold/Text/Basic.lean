import Scaffold.Text.Letter

/-!
Cutting and joining text. The functions on `List Char` carry the meaning; those on `String` are
their images.
-/

namespace Scaffold.Text

/-! ## Trimming -/

/-- Without the longest run of `p` characters at the end. -/
def dropEndWhile (p : Char → Bool) (cs : List Char) : List Char :=
  (cs.reverse.dropWhile p).reverse

def trimChars (cs : List Char) : List Char :=
  dropEndWhile isBlank (cs.dropWhile isBlank)

def trim (s : String) : String :=
  String.ofList (trimChars s.toList)

/-- Without the copies of `c` at the start. -/
def trimStartOf (c : Char) (s : String) : String :=
  String.ofList (s.toList.dropWhile (· == c))

/-- Without the copies of `c` at the end. -/
def trimEndOf (c : Char) (s : String) : String :=
  String.ofList (dropEndWhile (· == c) s.toList)

/-! ## Splitting -/

/-- The pieces between the separators; there is one more piece than there are separators. -/
def splitChars (sep : Char → Bool) : List Char → List (List Char)
  | [] => [[]]
  | c :: cs =>
    match splitChars sep cs with
    | [] => [[]]
    | piece :: pieces => if sep c then [] :: piece :: pieces else (c :: piece) :: pieces

/-- The pieces between the copies of `sep`. -/
def split (sep : Char) (s : String) : List String :=
  (splitChars (· == sep) s.toList).map String.ofList

def words (s : String) : List String :=
  ((splitChars isBlank s.toList).filter (!·.isEmpty)).map String.ofList

/-- A line without the carriage return that may end it. -/
def dropReturn (line : List Char) : List Char :=
  match line.reverse with
  | '\r' :: rest => rest.reverse
  | _ => line

/-- The lines of a text: a line feed ends a line, a carriage return before it is not part of the
line, and a line feed at the very end starts no further line. A carriage return that no line feed
follows stays. -/
def lineChars (cs : List Char) : List (List Char) :=
  match (splitChars (· == '\n') cs).reverse with
  | [] => []
  | last :: ended =>
    (ended.reverse.map dropReturn) ++ (if last.isEmpty then [] else [last])

def lines (s : String) : List String :=
  (lineChars s.toList).map String.ofList

/-- What stands before and after the first `sep`. -/
def splitFirstChars (sep : Char) : List Char → Option (List Char × List Char)
  | [] => none
  | c :: cs =>
    if c == sep then some ([], cs)
    else (splitFirstChars sep cs).map fun (a, b) => (c :: a, b)

/-- What stands before and after the first `sep`. -/
def splitFirst (sep : Char) (s : String) : Option (String × String) :=
  (splitFirstChars sep s.toList).map fun (a, b) => (String.ofList a, String.ofList b)

/-- What stands before and after the last `sep`. -/
def splitLast (sep : Char) (s : String) : Option (String × String) :=
  (splitFirstChars sep s.toList.reverse).map fun (a, b) =>
    (String.ofList b.reverse, String.ofList a.reverse)

/-- What stands before the first `sep`, or everything. -/
def before (sep : Char) (s : String) : String :=
  String.ofList (s.toList.takeWhile (· != sep))

/-! ## Heads and tails -/

/-- What follows `head`, if the text starts with it. -/
def afterHeadChars : (head : List Char) → List Char → Option (List Char)
  | [], cs => some cs
  | _ :: _, [] => none
  | h :: hs, c :: cs => if h == c then afterHeadChars hs cs else none

/-- What follows `head`, if the text starts with it. -/
def afterHead (head : String) (s : String) : Option String :=
  (afterHeadChars head.toList s.toList).map String.ofList

/-- What precedes `tail`, if the text ends with it. -/
def beforeTail (tail : String) (s : String) : Option String :=
  (afterHeadChars tail.toList.reverse s.toList.reverse).map fun cs => String.ofList cs.reverse

/-- The text starts with `head`. -/
def startsWith (head : String) (s : String) : Bool :=
  (afterHead head s).isSome

/-- The text ends with `tail`. -/
def endsWith (tail : String) (s : String) : Bool :=
  (beforeTail tail s).isSome

/-- The text holds a copy of `pattern`. -/
def holdsChars (pattern : List Char) : List Char → Bool
  | [] => pattern.isEmpty
  | c :: cs => (afterHeadChars pattern (c :: cs)).isSome || holdsChars pattern cs

/-- The text holds a copy of `pattern`. -/
def holds (pattern : String) (s : String) : Bool :=
  holdsChars pattern.toList s.toList

/-! ## Replacing -/

/-- Every character goes to the text that `f` gives for it. -/
def mapEach (f : Char → String) (s : String) : String :=
  String.ofList (s.toList.flatMap fun c => (f c).toList)

/-- Every `c` becomes `image`. -/
def replaceChar (c : Char) (image : String) (s : String) : String :=
  mapEach (fun x => if x == c then image else x.toString) s

/-- A text in which the leftmost copies of a non-empty `pattern`, none overlapping, become
`image`. `skip` counts the characters of the copy just replaced that are still to be passed over. -/
def replaceChars (pattern image : List Char) : (skip : Nat) → List Char → List Char
  | _, [] => []
  | skip + 1, _ :: cs => replaceChars pattern image skip cs
  | 0, c :: cs =>
    if (afterHeadChars pattern (c :: cs)).isSome then
      image ++ replaceChars pattern image (pattern.length - 1) cs
    else c :: replaceChars pattern image 0 cs

/-- The leftmost copies of a non-empty `pattern`, none overlapping, become `image`. -/
def replace (pattern image : String) (s : String) : String :=
  String.ofList (replaceChars pattern.toList image.toList 0 s.toList)

/-! ## Comparing -/

/-- ASCII letters in lower case, all other characters as they are. -/
def lowerAscii (s : String) : String :=
  String.ofList (s.toList.map Char.toLower)

def sameLetters (a b : String) : Bool :=
  lowerAscii a == lowerAscii b

/-- Without repetitions, each text where it first appears. -/
def distinct (texts : List String) : List String :=
  texts.foldl (fun kept s => if kept.contains s then kept else kept ++ [s]) []

/-! ## Joining -/

/-- The texts in order with `sep` between neighbours. -/
def joinWith (sep : String) : List String → String
  | [] => ""
  | [s] => s
  | s :: rest => s ++ sep ++ joinWith sep rest

def unlines (lines : List String) : String :=
  String.join (lines.map (· ++ "\n"))

/-- The text `n` times over. -/
def repeated (n : Nat) (s : String) : String :=
  match n with
  | 0 => ""
  | n + 1 => s ++ repeated n s

end Scaffold.Text
