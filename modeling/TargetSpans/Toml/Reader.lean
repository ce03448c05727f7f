import TargetSpans.Toml.Quoted
import TargetSpans.Toml.Section

/-!
# Reading TOML

A TOML text is a sequence of lines, each of them empty, a header or an assignment, with white space
and a comment around it.  Arrays and tables that are written as values may run over several lines,
between any two of their parts, and lie in one another only so deep.
-/

namespace TargetSpans.Toml

def skipSpace (t : List Char) : List Char := t.dropWhile isSpace

/-- A text without the white space, the line breaks and the comments at its front.  Within a
comment, only characters that may stand in a line are allowed. -/
def skipFiller? : (inComment : Bool) → List Char → Option (List Char)
  | _, [] => some []
  | _, '\n' :: rest => skipFiller? false rest
  | _, '\r' :: '\n' :: rest => skipFiller? false rest
  | true, c :: rest => if isInline c then skipFiller? true rest else none
  | false, c :: rest =>
      if isSpace c then skipFiller? false rest
      else if c = '#' then skipFiller? true rest
      else some (c :: rest)

/-- What comes after the end of a line: nothing but white space and a comment may be left of it. -/
def endLine? (t : List Char) : Option (List Char) :=
  let rest := skipSpace t
  let afterComment := if rest.head? = some '#' then rest.dropWhile isInline else rest
  if afterComment.isEmpty then some [] else afterBreak? afterComment

def isKeyChar (c : Char) : Bool := c.isAlphanum || c = '_' || c = '-'

/-- The key without dots that a text starts with, and what comes after it. -/
def readSimpleKey? (t : List Char) : Option (String × List Char) :=
  match readLineString? t with
  | some (key, rest) => some (String.ofList key, rest)
  | none =>
      match t.takeWhile isKeyChar with
      | [] => none
      | key => some (String.ofList key, t.dropWhile isKeyChar)

/-- The parts of a dotted key: the path in front of the last part, and the last part. -/
structure DottedKey where
  path : List String
  last : String

/-- How many arrays and tables may enclose one another within a value, and how many parts a dotted
key may have. -/
def depthLimit : Nat := 80

/-- The dotted key of so many parts at most that a text starts with, and what comes after it. -/
def readParts? : (parts : Nat) → List Char → Option (DottedKey × List Char)
  | 0, _ => none
  | parts + 1, t => do
      let (first, rest) ← readSimpleKey? (skipSpace t)
      match skipSpace rest with
      | '.' :: next => do
          let (key, after) ← readParts? parts next
          return (⟨first :: key.path, key.last⟩, after)
      | after => return (⟨[], first⟩, after)

/-- The dotted key that a text starts with, and what comes after it. -/
def readDottedKey? (t : List Char) : Option (DottedKey × List Char) := readParts? depthLimit t

mutual

/-- The value that a text starts with, inside `depth` arrays and tables, and what comes after it. -/
def readValue? : (fuel depth : Nat) → List Char → Option (Value × List Char)
  | 0, _, _ => none
  | fuel + 1, depth, t =>
      match t with
      | '"' :: _ | '\'' :: _ => do
          let (s, rest) ← readString? t
          return (.string (String.ofList s), rest)
      | '[' :: rest => do
          guard (depth < depthLimit)
          let (items, after) ← readItems? fuel (depth + 1) rest
          return (.array items, after)
      | '\x7b' :: rest => do
          guard (depth < depthLimit)
          let (entries, after) ← readEntries? fuel (depth + 1) rest []
          return (.table (finishEntries entries), after)
      | _ => do
          let (word, rest) := takeScalar t
          let v ← scalar? word
          return (v, rest)

/-- The rest of an array up to its closing bracket, and what comes after it. -/
def readItems? : (fuel depth : Nat) → List Char → Option (List Value × List Char)
  | 0, _, _ => none
  | fuel + 1, depth, t => do
      match ← skipFiller? false t with
      | ']' :: after => return ([], after)
      | start => do
          let (item, rest) ← readValue? fuel depth start
          match ← skipFiller? false rest with
          | ']' :: after => return ([item], after)
          | ',' :: next => do
              let (items, after) ← readItems? fuel depth next
              return (item :: items, after)
          | _ => none

/-- The rest of a table that is written as a value, with what it holds so far, up to its closing
brace, and what comes after it.  Around its equals signs there may be line breaks and comments. -/
def readEntries? : (fuel depth : Nat) → List Char → Sections → Option (Sections × List Char)
  | 0, _, _, _ => none
  | fuel + 1, depth, t, sofar => do
      match ← skipFiller? false t with
      | '\x7d' :: after => return (sofar, after)
      | start => do
          let (key, rest) ← readDottedKey? start
          match ← skipFiller? false rest with
          | '=' :: next => do
              let (v, rest) ← readValue? fuel depth (← skipFiller? false next)
              let extended ← Sections.assign v key.last key.path sofar
              match ← skipFiller? false rest with
              | '\x7d' :: after => return (extended, after)
              | ',' :: next => readEntries? fuel depth next extended
              | _ => none
          | _ => none

end

/-- One line of a text that says something. -/
inductive Statement where
  | openTable (key : DottedKey)
  | addTable (key : DottedKey)
  | assign (key : DottedKey) (v : Value)

/-- The statement that a text starts with, and what comes after it. -/
def readStatement? (t : List Char) : Option (Statement × List Char) :=
  match t with
  | '[' :: '[' :: rest => do
      let (key, after) ← readDottedKey? rest
      match after with
      | ']' :: ']' :: after => return (.addTable key, after)
      | _ => none
  | '[' :: rest => do
      let (key, after) ← readDottedKey? rest
      match after with
      | ']' :: after => return (.openTable key, after)
      | _ => none
  | t => do
      let (key, rest) ← readDottedKey? t
      match rest with
      | '=' :: next => do
          let (v, after) ← readValue? (2 * next.length + 2) 0 (skipSpace next)
          return (.assign key v, after)
      | _ => none

/-- The statements of a text. -/
def readStatements? : (fuel : Nat) → List Char → Option (List Statement)
  | 0, _ => none
  | fuel + 1, t => do
      match ← skipFiller? false t with
      | [] => return []
      | start => do
          let (first, rest) ← readStatement? start
          let rest ← readStatements? fuel (← endLine? rest)
          return first :: rest

/-- What a text has built so far, and the path of the table that its assignments go to. -/
structure Builder where
  root : Sections
  current : List String

/-- What a text has built after one more statement. -/
def Builder.step (b : Builder) : Statement → Option Builder
  | .openTable key => do
      let root ← Sections.modifyAt (Sections.openTable key.last) key.path b.root
      return ⟨root, key.path ++ [key.last]⟩
  | .addTable key => do
      let root ← Sections.modifyAt (Sections.addTable key.last) key.path b.root
      return ⟨root, key.path ++ [key.last]⟩
  | .assign key v => do
      let root ← Sections.modifyAt (Sections.assign v key.last key.path) b.current b.root
      return { b with root }

def dropMark : List Char → List Char
  | '\uFEFF' :: rest => rest
  | t => t

def parse? (text : String) : Option Table := do
  let t := dropMark text.toList
  let statements ← readStatements? (t.length + 1) t
  let built ← statements.foldlM Builder.step ⟨[], []⟩
  return finishEntries built.root

/-- A text is parsed as the list of its characters. -/
theorem parse?_of_chars {text : String} {t : List Char} (same : text = String.ofList t) :
    parse? text = (do
      let statements ← readStatements? ((dropMark t).length + 1) (dropMark t)
      let built ← statements.foldlM Builder.step ⟨[], []⟩
      return finishEntries built.root) := by
  rw [same, parse?, String.toList_ofList]

end TargetSpans.Toml
