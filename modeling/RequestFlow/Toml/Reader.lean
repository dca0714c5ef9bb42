import RequestFlow.Toml.Literal

/-!
# Reading TOML

A document is a sequence of lines: fields of the current table, headers that open a table, comments
and blank lines. Values may be nested in arrays and tables in braces, at most 79 deep, and a dotted
key has at most 79 parts. A byte order mark at the head of the text is skipped.

Any deviation from the grammar, and any table or key that is given twice, refuses the whole
document.
-/

namespace RequestFlow.Toml

namespace Reader

/-- The deepest nesting of values, and the greatest number of parts of a key. -/
def nestingLimit : Nat := 79

/-! ### Keys and values -/

def isKeyChar (c : Char) : Bool := c.isAlphanum || c = '-' || c = '_'

def keyPart? (s : List Char) : Option (String × List Char) :=
  match lineString s with
  | some part => some part
  | none =>
    let part := s.takeWhile isKeyChar
    if part.isEmpty then none else some (String.ofList part, s.dropWhile isKeyChar)

/-- A key: parts between dots, blanks around each. -/
def key? : Nat → Reader (List String)
  | 0, _ => none
  | limit + 1, s => do
    let (part, rest) ← keyPart? (skipBlanks s)
    match skipBlanks rest with
    | '.' :: rest =>
      let (parts, rest) ← key? limit rest
      some (part :: parts, rest)
    | rest => some ([part], rest)

/-- Drop blanks, line breaks and comments. -/
def skipLines (inComment : Bool) : List Char → List Char
  | [] => []
  | '\n' :: rest => skipLines false rest
  | '\r' :: '\n' :: rest => skipLines false rest
  | c :: rest =>
    if inComment then if isLineChar c then skipLines true rest else c :: rest
    else if isBlank c then skipLines false rest
    else if c = '#' then skipLines true rest
    else c :: rest

/-- The items of an array behind its bracket or a comma. Every item leaves less text, so the length
of the text bounds their number. -/
def items (value : Reader Toml) : Nat → List Toml → Reader (List Toml)
  | 0, _, _ => none
  | bound + 1, read, s =>
    match skipLines false s with
    | ']' :: rest => some (read.reverse, rest)
    | s => do
      let (v, rest) ← value s
      match skipLines false rest with
      | ',' :: rest => items value bound (v :: read) rest
      | ']' :: rest => some ((v :: read).reverse, rest)
      | _ => none

def field? (value : Reader Toml) : Reader (List String × Toml) := fun s => do
  let (path, rest) ← key? nestingLimit s
  let (v, rest) ← value (skipBlanks (← expect? '=' rest))
  some ((path, v), rest)

/-- The fields of a table in braces behind its brace or a comma, at least one of them. -/
def bracedFields (value : Reader Toml) : Nat → Fields → Reader Fields
  | 0, _, _ => none
  | bound + 1, fields, s => do
    let ((path, v), rest) ← field? value s
    let fields ← Table.put path v .braces fields
    match skipBlanks rest with
    | ',' :: rest => bracedFields value bound fields rest
    | '}' :: rest => some (fields, rest)
    | _ => none

/-- A table in braces behind its brace. -/
def braces (value : Reader Toml) : Reader Toml := fun s =>
  match skipBlanks s with
  | '}' :: rest => some (.table .braces [], rest)
  | s => (bracedFields value s.length [] s).map fun (fs, rest) => (.table .braces fs, rest)

/-- A value whose arrays and tables are read by the given readers. -/
def valueWith (array table : Reader Toml) : Reader Toml
  | '[' :: rest => array rest
  | '{' :: rest => table rest
  | 't' :: 'r' :: 'u' :: 'e' :: rest => some (.boolean true, rest)
  | 'f' :: 'a' :: 'l' :: 's' :: 'e' :: rest => some (.boolean false, rest)
  | s =>
    match string s with
    | some (t, rest) => some (.string t, rest)
    | none => quantity? s

/-- A value in which at most `depth` arrays and tables are nested. -/
def value : Nat → Reader Toml
  | 0 => valueWith (fun _ => none) (fun _ => none)
  | depth + 1 =>
    valueWith
      (fun s => (items (value depth) (s.length + 1) [] s).map fun (vs, rest) => (.array vs, rest))
      (braces (value depth))

/-! ### Documents -/

/-- What follows the end of a line: blanks, perhaps a comment, and a line break or the end of the
text. -/
def endOfLine? (s : List Char) : Option (List Char) :=
  let rest :=
    match skipBlanks s with
    | '#' :: rest => rest.dropWhile isLineChar
    | rest => rest
  if rest.isEmpty then some [] else newline? rest

/-- A document as far as it is read. -/
structure Draft where
  root : Fields
  /-- The table that the last header opened. -/
  current : List String

namespace Draft

/-- Add a field to the current table. -/
def put (d : Draft) (path : List String) (v : Toml) : Option Draft :=
  (Table.update false (Table.put path v) d.current .header d.root).map fun root =>
    { d with root := root }

/-- Open a table and make it the current one. -/
def openTable (d : Draft) (path : List String) : Option Draft :=
  (Table.openTable path d.root).map fun root => ⟨root, path⟩

/-- Open a table of an array of tables and make it the current one. -/
def openItem (d : Draft) (path : List String) : Option Draft :=
  (Table.openItem path d.root).map fun root => ⟨root, path⟩

end Draft

def line? (d : Draft) : Reader Draft
  | '[' :: '[' :: rest => do
    let (path, rest) ← key? nestingLimit rest
    let rest ← expect? ']' (← expect? ']' rest)
    some (← d.openItem path, rest)
  | '[' :: rest => do
    let (path, rest) ← key? nestingLimit rest
    some (← d.openTable path, ← expect? ']' rest)
  | s => do
    let ((path, v), rest) ← field? (value nestingLimit) s
    some (← d.put path v, rest)

/-- The lines of a document. Every line leaves less text. -/
def lines (d : Draft) : Nat → List Char → Option Draft
  | 0, _ => none
  | bound + 1, s =>
    if s.isEmpty then some d
    else
      match endOfLine? s with
      | some rest => lines d bound rest
      | none => do
        let (d, rest) ← line? d (skipBlanks s)
        lines d bound (← endOfLine? rest)

end Reader

/-- The fields of the top table of a document. -/
def parse? (text : String) : Option Fields :=
  let s := text.toList
  let s := if s.head? = some '\ufeff' then s.tail else s
  (Reader.lines ⟨[], []⟩ (s.length + 1) s).map Reader.Draft.root

end RequestFlow.Toml
