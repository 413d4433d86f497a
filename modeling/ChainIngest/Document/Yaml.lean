import ChainIngest.Document.Yaml.Scalar

/-!
Documents in YAML: lists and tables by indentation or in brackets, texts plain, in quotes or in
blocks, anchors and aliases. A text holds at most one document.

A reader of a value takes lines, the first of which may be the rest of a line, and answers with the
value and the lines after it. `parent` is the column of the list or table around the value: the
value ends with the first line that does not stand to the right of it.
-/

namespace ChainIngest.Yaml

/-- Readers remember the values of anchors. -/
abbrev Reader (α : Type) := StateT (List (String × Document)) (Except ReadError) α

/-- A value and the lines after it. -/
abbrev Parsed (α : Type) := α × List Line

/-- Lines without those in front that say nothing. -/
def skipSilent (lines : List Line) : List Line := lines.dropWhile Line.isSilent

/-- The lines after a value, with nothing but a comment left on its own line. -/
def endLine (l : Line) (rest : List Char) (lines : List Line) : Reader (List Line) :=
  match rest.dropWhile isBlank with
  | [] => return lines
  | c :: _ =>
    if c == '#' && rest.head?.any isBlank then return lines
    else if c == '#' && rest.length == l.text.length then return lines
    else throw (.unexpected rest)

/-! ### Texts over many lines -/

/-- The lines of a plain text after its first one. -/
def continuePlain (parent : Int) (text : List Char) (emptyLines : Nat) :
    List Line → Reader (Parsed (List Char))
  | [] => return (text, [])
  | l :: rest => do
    if l.isEmpty then
      let (longer, after) ← continuePlain parent text (emptyLines + 1) rest
      return (longer, after)
    else if l.column ≤ parent || l.isSilent then return (text, l :: rest)
    else
      let (part, left) := scanPlain .block true (l.text.dropWhile isBlank)
      let text := joinLines text emptyLines (trimEnd part)
      match left with
      | [] => continuePlain parent text 0 rest
      | '#' :: _ => return (text, rest)
      | left => throw (.unexpected left)

/-- The rest of a text in quotes, from its second line on. -/
def continueQuoted (double : Bool) (least : Nat) (text : List Char) (joined : Bool)
    (emptyLines : Nat) : List Line → Reader (List Char × Line × List Char × List Line)
  | [] => throw .unfinished
  | l :: rest => do
    if l.isEmpty then continueQuoted double least text joined (emptyLines + 1) rest
    else if l.column < least then throw .badIndentation
    else
      let (part, ending) ← scanQuoted double [] 0 (l.text.dropWhile isBlank)
      let text :=
        if joined then text ++ List.replicate emptyLines '\n' ++ part
        else joinLines text emptyLines part
      match ending with
      | .closed left => return (text, l, left, rest)
      | .open => continueQuoted double least text false 0 rest
      | .openEscaped => continueQuoted double least text true 0 rest

/-- A text in quotes, after its first quote: the text, the line that it ends on, what is left of
that line, and the lines after it. -/
def readQuoted (double : Bool) (least : Nat) (l : Line) (text : List Char) (rest : List Line) :
    Reader (List Char × Line × List Char × List Line) := do
  let (part, ending) ← scanQuoted double [] 0 text
  match ending with
  | .closed left => return (part, l, left, rest)
  | .open => continueQuoted double least part false 0 rest
  | .openEscaped => continueQuoted double least part true 0 rest

/-- What becomes of the line breaks that end a block of text. -/
inductive Chomp where
  | strip
  | clip
  | keep

/-- How a block of text is to be read. -/
structure BlockHeader where
  folded : Bool
  chomp : Chomp
  /-- How far to the right of the parent the text stands, if that is given. -/
  indent : Option Nat

def readBlockHeader (h : BlockHeader) : List Char → Reader BlockHeader
  | [] => return h
  | '-' :: rest => readBlockHeader { h with chomp := .strip } rest
  | '+' :: rest => readBlockHeader { h with chomp := .keep } rest
  | c :: rest => do
    if isBlank c then
      if Line.isSilent ⟨0, rest⟩ then return h else throw (.unexpected rest)
    else if '1' ≤ c ∧ c ≤ '9' ∧ h.indent.isNone then
      readBlockHeader { h with indent := some (c.toNat - '0'.toNat) } rest
    else throw (.unexpected (c :: rest))

/-- The lines of a block of text, cut at its column. -/
def takeBlock (column : Nat) : List Line → List (List Char) × List Line
  | [] => ([], [])
  | l :: rest =>
    if l.text.isEmpty || column ≤ l.column then
      let (block, rest) := takeBlock column rest
      (l.full.drop column :: block, rest)
    else ([], l :: rest)

/-- Puts the lines of a folded block together. A line break between two lines that both start with
no blank becomes a space. -/
def foldLines (text : List Char) (breaks : Nat) (afterBlank : Bool) :
    List (List Char) → List Char
  | [] => text
  | [] :: rest => foldLines text (breaks + 1) afterBlank rest
  | (c :: line) :: rest =>
    let joint :=
      if text.isEmpty then List.replicate breaks '\n'
      else if afterBlank || isBlank c then List.replicate (breaks + 1) '\n'
      else if breaks = 0 then [' ']
      else List.replicate breaks '\n'
    foldLines (text ++ joint ++ c :: line) 0 (isBlank c) rest

def readBlockText (header : BlockHeader) (parent : Int) (lines : List Line) :
    Parsed (List Char) :=
  let least := (parent + 1).toNat
  let column := match header.indent with
    | some indent => parent.toNat + indent
    | none => ((lines.find? (!·.text.isEmpty)).map (max least ·.column)).getD least
  let (block, rest) := takeBlock column lines
  let written := (block.reverse.dropWhile List.isEmpty).reverse
  let text :=
    if header.folded then foldLines [] 0 false written
    else List.intercalate ['\n'] written
  let ending := match header.chomp with
    | .strip => []
    | .clip => if written.isEmpty then [] else ['\n']
    | .keep =>
      List.replicate ((block.length - written.length) + if written.isEmpty then 0 else 1) '\n'
  (text ++ ending, rest)

/-! ### Values in brackets -/

/-- The next thing inside brackets: the line it stands on, and the lines after that. -/
def nextInFlow (least : Nat) (l : Line) (lines : List Line) : Reader (Line × List Line) :=
  if l.isSilent then
    match skipSilent lines with
    | [] => throw .unfinished
    | next :: rest =>
      if next.column < least then throw .badIndentation
      else return (next.continuedAt next.text, rest)
  else return (l.continuedAt l.text, lines)

/-- The lines of a plain text inside brackets after its first one. -/
def continueFlowPlain (text : List Char) (l : Line) (left : List Char) (emptyLines : Nat) :
    List Line → Reader (List Char × Line × List Line)
  | [] => return (text, l.continuedAt left, [])
  | next :: rest => do
    if !left.isEmpty then return (text, l.continuedAt left, next :: rest)
    else if next.isEmpty then continueFlowPlain text l left (emptyLines + 1) rest
    else
      let start := next.text.dropWhile isBlank
      let (part, left) := scanPlain .flow true start
      if part.isEmpty then return (text, l.continuedAt [], next :: rest)
      else continueFlowPlain (joinLines text emptyLines (trimEnd part)) next left 0 rest

/-- The text of a key. -/
def keyText (raw : String) : Document → Reader String
  | .text s => return s
  | .integer n => return toString n
  | .bool _ | .float _ => return raw
  | _ => throw .keyIsNoText

/-- Adds an entry whose key must be new. -/
def addEntry (key : String) (value : Document) (entries : List (String × Document)) :
    Reader (List (String × Document)) :=
  if (entries.lookup key).isSome then throw (.repeatedKey key)
  else return entries ++ [(key, value)]

/-- The name of an anchor, an alias or a tag, and what follows it. -/
def readName (context : Context) (cs : List Char) : String × List Char :=
  let (name, rest) := cs.span fun c => !isBlank c && !(context == .flow && isFlowMark c)
  (String.ofList name, rest)

def lookupAnchor (name : String) : Reader Document := do
  match (← get).lookup name with
  | some value => return value
  | none => throw (.unknownAnchor name)

def setAnchor (name : String) (value : Document) : Reader Unit :=
  modify fun anchors => (name, value) :: anchors

def resolvePlain (tag : Option String) (text : List Char) : Reader Document :=
  match tag with
  | none => resolve (String.ofList text)
  | some tag => resolveAs tag (String.ofList text)

/-- The table entry that a list in brackets may hold in place of an item. -/
def singleEntry (key : String) (value : Document) : Document := .table [(key, value)]

/-- Whether a colon that ends a key comes next. After a text in quotes no blank is needed. -/
def colonNext (quoted : Bool) (l : Line) : Bool :=
  match l.text with
  | ':' :: rest => quoted || endsWord rest || (rest.head?.map isFlowMark).getD false
  | _ => false

mutual

/-- A value inside brackets. `raw` is its text if it is a single value. -/
def readFlow (fuel least : Nat) (tag : Option String) (l : Line) (lines : List Line) :
    Reader (Document × Option String × Line × List Line) :=
  match fuel with
  | 0 => throw .tooDeep
  | fuel + 1 => do
    let (l, lines) ← nextInFlow least l lines
    match l.text with
    | '[' :: rest =>
      let (items, l, lines) ← readFlowItems fuel least [] (l.continuedAt rest) lines
      return (.list items, none, l, lines)
    | '{' :: rest =>
      let (entries, l, lines) ← readFlowEntries fuel least [] (l.continuedAt rest) lines
      return (.table entries, none, l, lines)
    | '*' :: rest =>
      let (name, rest) := readName .flow rest
      return (← lookupAnchor name, none, l.continuedAt rest, lines)
    | '&' :: rest =>
      let (name, rest) := readName .flow rest
      let (value, raw, l, lines) ← readFlow fuel least tag (l.continuedAt rest) lines
      setAnchor name value
      return (value, raw, l, lines)
    | '!' :: rest =>
      let (name, rest) := readName .flow rest
      readFlow fuel least (some ("!" ++ name)) (l.continuedAt rest) lines
    | c :: rest =>
      if c == '"' || c == '\'' then
        let (text, l, left, lines) ← readQuoted (c == '"') least l rest lines
        let text := String.ofList text
        return (.text text, some text, ⟨l.column, left.dropWhile isBlank⟩, lines)
      else if startsPlain .flow (c :: rest) then
        let (text, left) := scanPlain .flow false (c :: rest)
        let (text, l, lines) ← continueFlowPlain (trimEnd text) l left 0 lines
        let raw := String.ofList text
        return (← resolvePlain tag text, some raw, l, lines)
      else throw (.unexpected (c :: rest))
    | [] => throw .unfinished

/-- The items up to the closing bracket. -/
def readFlowItems (fuel least : Nat) (items : List Document) (l : Line) (lines : List Line) :
    Reader (List Document × Line × List Line) :=
  match fuel with
  | 0 => throw .tooDeep
  | fuel + 1 => do
    let (l, lines) ← nextInFlow least l lines
    match l.text with
    | ']' :: rest => return (items, l.continuedAt rest, lines)
    | start =>
      let quoted := start.head?.any fun c => c == '"' || c == '\''
      let (value, raw, l, lines) ← readFlow fuel least none l lines
      let (l, lines) ← nextInFlow least l lines
      let (value, l, lines) ←
        if colonNext quoted l then
          match raw with
          | none => throw .keyIsNoText
          | some raw =>
            let key ← keyText raw value
            let (value, l, lines) ← readFlowValue fuel least (l.continuedAt (l.text.drop 1)) lines
            pure (singleEntry key value, l, lines)
        else pure (value, l, lines)
      match l.text with
      | ',' :: rest => readFlowItems fuel least (items ++ [value]) (l.continuedAt rest) lines
      | ']' :: rest => return (items ++ [value], l.continuedAt rest, lines)
      | rest => throw (.unexpected rest)

/-- The value after a colon, up to a comma or a closing bracket. -/
def readFlowValue (fuel least : Nat) (l : Line) (lines : List Line) :
    Reader (Document × Line × List Line) :=
  match fuel with
  | 0 => throw .tooDeep
  | fuel + 1 => do
    let (l, lines) ← nextInFlow least l lines
    match l.text with
    | c :: rest =>
      if c == ',' || c == '}' || c == ']' then return (.null, l, lines)
      else
        let (value, _, l, lines) ← readFlow fuel least none ⟨l.column, c :: rest⟩ lines
        let (l, lines) ← nextInFlow least l lines
        return (value, l, lines)
    | [] => throw .unfinished

/-- The entries up to the closing brace. -/
def readFlowEntries (fuel least : Nat) (entries : List (String × Document)) (l : Line)
    (lines : List Line) : Reader (List (String × Document) × Line × List Line) :=
  match fuel with
  | 0 => throw .tooDeep
  | fuel + 1 => do
    let (l, lines) ← nextInFlow least l lines
    match l.text with
    | '}' :: rest => return (entries, l.continuedAt rest, lines)
    | start =>
      let quoted := start.head?.any fun c => c == '"' || c == '\''
      let (name, raw, l, lines) ← readFlow fuel least none l lines
      let key ← match raw with
        | none => throw .keyIsNoText
        | some raw => keyText raw name
      let (l, lines) ← nextInFlow least l lines
      let (value, l, lines) ←
        if colonNext quoted l then
          readFlowValue fuel least (l.continuedAt (l.text.drop 1)) lines
        else pure (.null, l, lines)
      let entries ← addEntry key value entries
      match l.text with
      | ',' :: rest => readFlowEntries fuel least entries (l.continuedAt rest) lines
      | '}' :: rest => return (entries, l.continuedAt rest, lines)
      | rest => throw (.unexpected rest)

end

/-! ### Values by indentation -/

/-- The key that a line begins with, and what follows its colon. -/
def splitKey (l : Line) : Reader (Option (String × Line)) := do
  match l.text with
  | [] => return none
  | c :: rest =>
    if c == '"' || c == '\'' then
      match scanQuoted (c == '"') [] 0 rest with
      | .ok (key, .closed rest) =>
        match rest.dropWhile isBlank with
        | ':' :: rest =>
          if endsWord rest then return some (String.ofList key, l.continuedAt rest)
          else return none
        | _ => return none
      | _ => return none
    else if startsPlain .block (c :: rest) then
      match scanPlain .block false (c :: rest) with
      | (key, ':' :: rest) =>
        let raw := String.ofList (trimEnd key)
        let key ← keyText raw (← resolve raw)
        return some (key, l.continuedAt rest)
      | _ => return none
    else return none

mutual

/-- A value. `fresh` says that a list or a table may begin on the first line. -/
def readValue (fuel : Nat) (parent : Int) (fresh : Bool) (tag : Option String)
    (lines : List Line) : Reader (Parsed Document) :=
  match fuel with
  | 0 => throw .tooDeep
  | fuel + 1 => do
    match skipSilent lines with
    | [] => return (← resolvePlain tag [], [])
    | l :: rest =>
      if l.column ≤ parent then return (← resolvePlain tag [], l :: rest)
      if l.isDash then
        if fresh then return ← readItems fuel l.column [] (l :: rest)
        else throw (.unexpected l.text)
      if fresh then
        match ← splitKey l with
        | some _ => return ← readEntries fuel l.column [] (l :: rest)
        | none => pure ()
      match l.text with
      | '&' :: cs =>
        let (name, left) := readName .block cs
        let l := l.continuedAt left
        let (value, rest) ← readProperty fuel parent fresh tag l rest
        setAnchor name value
        return (value, rest)
      | '!' :: cs =>
        let (name, left) := readName .block cs
        readProperty fuel parent fresh (some ("!" ++ name)) (l.continuedAt left) rest
      | '*' :: cs =>
        let (name, left) := readName .block cs
        return (← lookupAnchor name, ← endLine l left rest)
      | c :: cs =>
        if c == '|' || c == '>' then
          let header ← readBlockHeader ⟨c == '>', .clip, none⟩ cs
          let (text, rest) := readBlockText header parent rest
          return (.text (String.ofList text), rest)
        else if c == '"' || c == '\'' then
          let (text, l, left, rest) ← readQuoted (c == '"') parent.toNat l cs rest
          return (.text (String.ofList text), ← endLine l left rest)
        else if c == '[' || c == '{' then
          let (value, _, l, rest) ← readFlow fuel parent.toNat none l rest
          -- What is left stands behind a bracket, so a comment needs no blank before it.
          return (value, ← endLine l l.text rest)
        else if startsPlain .block (c :: cs) then
          match scanPlain .block false (c :: cs) with
          | (text, []) =>
            let (text, rest) ← continuePlain parent (trimEnd text) 0 rest
            return (← resolvePlain tag text, rest)
          | (text, '#' :: _) => return (← resolvePlain tag (trimEnd text), rest)
          | (_, left) => throw (.unexpected left)
        else throw (.unexpected (c :: cs))
      | [] => throw .unfinished

/-- The value after an anchor or a tag. A list or a table may begin on the next line. -/
def readProperty (fuel : Nat) (parent : Int) (fresh : Bool) (tag : Option String) (l : Line)
    (lines : List Line) : Reader (Parsed Document) :=
  match fuel with
  | 0 => throw .tooDeep
  | fuel + 1 =>
    if l.isSilent then readValue fuel parent true tag lines
    else readValue fuel parent fresh tag (l :: lines)

/-- The items of a list at a column. -/
def readItems (fuel column : Nat) (items : List Document) (lines : List Line) :
    Reader (Parsed Document) :=
  match fuel with
  | 0 => throw .tooDeep
  | fuel + 1 => do
    match skipSilent lines with
    | [] => return (.list items, [])
    | l :: rest =>
      if column < l.column then throw .badIndentation
      else if l.column = column && l.isDash then
        let after := l.continuedAt (l.text.drop 1)
        let tabbed := (l.text.drop 1).takeWhile isBlank |>.contains '\t'
        let (item, rest) ←
          if after.isSilent then readValue fuel column true none rest
          else readValue fuel column (!tabbed) none (after :: rest)
        readItems fuel column (items ++ [item]) rest
      else return (.list items, l :: rest)

/-- The entries of a table at a column. -/
def readEntries (fuel column : Nat) (entries : List (String × Document)) (lines : List Line) :
    Reader (Parsed Document) :=
  match fuel with
  | 0 => throw .tooDeep
  | fuel + 1 => do
    match skipSilent lines with
    | [] => return (.table entries, [])
    | l :: rest =>
      if column < l.column then throw .badIndentation
      else if l.column = column then
        match ← splitKey l with
        | none => throw (.unexpected l.text)
        | some (key, after) =>
          let (value, rest) ← readEntry fuel column none after rest
          readEntries fuel column (← addEntry key value entries) rest
      else return (.table entries, l :: rest)

/-- The value after a key's colon. A list below the key may stand at the key's own column. -/
def readEntry (fuel column : Nat) (tag : Option String) (after : Line) (lines : List Line) :
    Reader (Parsed Document) :=
  match fuel with
  | 0 => throw .tooDeep
  | fuel + 1 => do
    if after.isSilent then
      match skipSilent lines with
      | [] => return (← resolvePlain tag [], [])
      | l :: rest =>
        if l.column = column && l.isDash then readItems fuel column [] (l :: rest)
        else readValue fuel column true tag (l :: rest)
    else
      match after.text with
      | '&' :: cs =>
        let (name, left) := readName .block cs
        let (value, rest) ← readEntry fuel column tag (after.continuedAt left) lines
        setAnchor name value
        return (value, rest)
      | '!' :: cs =>
        let (name, left) := readName .block cs
        readEntry fuel column (some ("!" ++ name)) (after.continuedAt left) lines
      | _ => readValue fuel column false tag (after :: lines)

end

/-- Reads the only document of its lines. -/
def readDocument (fuel : Nat) (lines : List Line) : Reader Document := do
  let (value, rest) ← readValue fuel (-1) true none lines
  match skipSilent rest with
  | [] => return value
  | l :: _ => throw (.unexpected l.text)

/-- Reads a text that holds one document, or none, which stands for an empty table. -/
def read (text : String) : Except ReadError Document :=
  let cs := text.toList
  match documents true ((breakLines [] cs).map Line.ofText) with
  | [] => .ok (.table [])
  -- Every reader calls at most four others before it takes a character or a line.
  | [body] => (readDocument (4 * cs.length + 16) body).run' []
  | _ => .error .severalDocuments

end ChainIngest.Yaml
