/-!
Lines of an indented text, and the documents that the lines belong to.
-/

namespace ChainIngest.Yaml

/-- What is left of a line from a column on. -/
structure Line where
  column : Nat
  text : List Char
  deriving Inhabited

/-- The blanks inside a line. -/
def isBlank (c : Char) : Bool := c == ' ' || c == '\t'

/-- Whether a blank or the line's end follows. -/
def endsWord : List Char → Bool
  | [] => true
  | c :: _ => isBlank c

namespace Line

/-- A whole line. The spaces in front are its indentation. -/
def ofText (cs : List Char) : Line :=
  let (spaces, text) := cs.span (· == ' ')
  ⟨spaces.length, text⟩

/-- The line from `rest` on, which is the end of its text. Blanks in front are left out. -/
def continuedAt (l : Line) (rest : List Char) : Line :=
  let text := rest.dropWhile isBlank
  ⟨l.column + (l.text.length - text.length), text⟩

/-- Whether nothing but blanks is left. -/
def isEmpty (l : Line) : Bool := l.text.all isBlank

/-- Whether nothing but blanks and a comment is left. -/
def isSilent (l : Line) : Bool :=
  match l.text.dropWhile isBlank with
  | [] => true
  | c :: _ => c == '#'

/-- Whether an item of a list begins. -/
def isDash (l : Line) : Bool :=
  match l.text with
  | '-' :: rest => endsWord rest
  | _ => false

/-- The text with its indentation. -/
def full (l : Line) : List Char := List.replicate l.column ' ' ++ l.text

/-- Whether a line of three times the character `c` begins. -/
def isMarker (c : Char) (l : Line) : Bool :=
  match l.column, l.text with
  | 0, x :: y :: z :: rest => x == c && y == c && z == c && endsWord rest
  | _, _ => false

def opensDocument (l : Line) : Bool := l.isMarker '-'

def closesDocument (l : Line) : Bool := l.isMarker '.'

/-- Whether an instruction about the documents that follow begins. -/
def isDirective (l : Line) : Bool := l.column == 0 && l.text.head? == some '%'

end Line

/-- Cuts a text at its line breaks. -/
def breakLines (current : List Char) : List Char → List (List Char)
  | [] => if current.isEmpty then [] else [current.reverse]
  | '\r' :: '\n' :: rest => current.reverse :: breakLines [] rest
  | c :: rest =>
    if c == '\n' || c == '\r' then current.reverse :: breakLines [] rest
    else breakLines (c :: current) rest

/-- The lines up to the next one that opens or closes a document. -/
def takeBody (lines : List Line) : List Line :=
  lines.takeWhile fun l => !l.opensDocument && !l.closesDocument

/-- The bodies of the documents. A document that is not opened by a marker is there if something
is written in it; `between` says that no document is open. -/
def documents (between : Bool) : List Line → List (List Line)
  | [] => []
  | l :: rest =>
    if l.opensDocument then
      (l.continuedAt (l.text.drop 3) :: takeBody rest) :: documents false rest
    else if l.closesDocument then documents true rest
    else if between && !l.isSilent && !l.isDirective then
      (l :: takeBody rest) :: documents false rest
    else documents between rest

end ChainIngest.Yaml
