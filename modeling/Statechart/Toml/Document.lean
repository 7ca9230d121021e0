import Statechart.Text.Bytes
import Statechart.Toml.Scalar
/-!
# Document — the tables of a configuration file

A file is a sequence of statements on lines: a key with a value, or a header that opens a table or adds one to a
sequence of tables.  What has been stated cannot be stated again, so beside the tables the reader keeps which of them
a header or a dotted key has taken, and which values are closed because they were stated whole.
-/
namespace Statechart
namespace Toml

/-- A table: its keys in order. -/
abbrev Table := List (Text × Value)

/-- A dotted key: the names on the way to a value. -/
abbrev DottedKey := List Text

/-! ## Tables -/

/-- Changes the table at a path, making the tables on the way.  A sequence stands for its last table where
`throughLists` says so; any other value is in the way. -/
def changeAt (throughLists : Bool) : DottedKey → (Table → Option Table) → Table → Option Table
  | [], change, t => change t
  | name :: path, change, t =>
    match Keyed.get? t name with
    | none => (changeAt throughLists path change []).map (fun sub => Keyed.insert t name (.table sub))
    | some (.table sub) => (changeAt throughLists path change sub).map (fun sub => Keyed.insert t name (.table sub))
    | some (.list items) =>
      if throughLists then match items.getLast? with
        | some (.table sub) =>
          (changeAt throughLists path change sub).map
            (fun sub => Keyed.insert t name (.list (items.dropLast ++ [.table sub])))
        | _ => none
      else none
    | some _ => none

/-- A value under a name that is still free. -/
def put (name : Text) (v : Value) (t : Table) : Option Table :=
  if (Keyed.get? t name).isSome then none else some (Keyed.insert t name v)

/-- One table more in the sequence under a name. -/
def grow (name : Text) (t : Table) : Option Table :=
  match Keyed.get? t name with
  | none => some (Keyed.insert t name (.list [.table []]))
  | some (.list items) => some (Keyed.insert t name (.list (items ++ [.table []])))
  | some _ => none

/-- A path cut in the names before the last one and the last one. -/
def lastName (path : DottedKey) : DottedKey × Text := (path.dropLast, path.getLastD [])

/-- Whether a value was stated whole, so that nothing can be added to it. -/
def isWhole (v : Value) : Bool :=
  match v with
  | .list _ | .table _ => true
  | _ => false

/-- The paths a file has taken. -/
structure Taken where
  /-- Tables that no header and no dotted key may open again. -/
  opened : List DottedKey := []
  /-- Values stated whole. -/
  closed : List DottedKey := []
  /-- Tables that dotted keys of this section made; the next header takes them. -/
  pending : List DottedKey := []

namespace Taken

def isOpened (c : Taken) (path : DottedKey) : Bool := c.opened.contains path

/-- Whether a path is at or below a closed value. -/
def isClosed (c : Taken) (path : DottedKey) : Bool := c.closed.any (fun p => p.isPrefixOf path)

/-- Takes what the section left pending. -/
def settle (c : Taken) : Taken := { c with opened := c.pending ++ c.opened, pending := [] }

/-- Frees all that is at or below a path. -/
def free (c : Taken) (path : DottedKey) : Taken where
  opened := c.opened.filter (fun p => !path.isPrefixOf p)
  closed := c.closed.filter (fun p => !path.isPrefixOf p)
  pending := c.pending

end Taken

/-- A file read so far: its tables, what is taken, and the table that keys belong to. -/
structure File where
  root : Table := []
  taken : Taken := {}
  current : DottedKey := []

namespace File

def openTable (f : File) (path : DottedKey) : Option File :=
  if f.taken.isOpened path || f.taken.isClosed path then none
  else (changeAt true path some f.root).map (fun root =>
    { root, taken := { f.taken with opened := path :: f.taken.opened }, current := path })

/-- Adds a table to a sequence by a header. -/
def addTable (f : File) (path : DottedKey) : Option File :=
  if f.taken.isClosed path then none
  else
    let freed := f.taken.free path
    (changeAt true (lastName path).1 (grow (lastName path).2) f.root).map (fun root =>
      { root, taken := { freed with opened := path :: freed.opened }, current := path })

/-- The tables that a dotted key of the section passes. -/
def between (f : File) (key : DottedKey) : List DottedKey :=
  (List.range (key.length - 1)).map (fun i => f.current ++ key.take (i + 1))

/-- States a value under a dotted key of the section. -/
def state (f : File) (key : DottedKey) (v : Value) : Option File :=
  let path := f.current ++ (lastName key).1
  if (f.between key).any f.taken.isOpened || f.taken.isClosed path then none
  else (changeAt true path (put (lastName key).2 v) f.root).map (fun root =>
    { root, current := f.current,
      taken := { f.taken with
        closed := if isWhole v then (f.current ++ key) :: f.taken.closed else f.taken.closed,
        pending := f.between key ++ f.taken.pending } })

end File

/-! ## Keys and values -/

def isBareKeyChar (c : Char) : Bool := c.isAlphanum || c == '-' || c == '_'

def skipSpace (t : Text) : Text := t.dropWhile isSpace

/-- One name of a key: bare, or in quotes on one line. -/
def keyName : Reader Text
  | [] => none
  | c :: rest =>
    if isBareKeyChar c then some ((c :: rest).takeWhile isBareKeyChar, (c :: rest).dropWhile isBareKeyChar)
    else if c = '"' then basic false rest
    else if c = '\'' then literal rest
    else none

/-- The names of a key, with dots between them and blanks around the dots, at most `limit` of them. -/
def keyUpTo : Nat → Reader DottedKey
  | 0, _ => none
  | limit + 1, t => match keyName t with
    | none => none
    | some (name, rest) => match skipSpace rest with
      | '.' :: next => (keyUpTo limit (skipSpace next)).map (fun p => (name :: p.1, p.2))
      | next => some ([name], next)

def key : Reader DottedKey := fun t => keyUpTo (t.length + 1) t

/-- The text behind a comment, if there is one here. -/
def behindComment : Text → Option Text
  | '#' :: rest =>
    if (rest.takeWhile (· != '\n')).any isControl then none else some (rest.dropWhile (· != '\n'))
  | t => some t

/-- The text behind blanks, line breaks and comments, in at most `limit` comments. -/
def behindFillerUpTo : Nat → Text → Option Text
  | 0, t => some t
  | limit + 1, t => match t.dropWhile isSpaceOrLine with
    | '#' :: rest => (behindComment ('#' :: rest)).bind (behindFillerUpTo limit)
    | next => some next

def behindFiller (t : Text) : Option Text := behindFillerUpTo (t.length + 1) t

/-- The sign between a key and its value. -/
def behindEquals : Text → Option Text
  | '=' :: rest => some (skipSpace rest)
  | _ => none

/-- An inline table so far: its keys, and those of them that are closed. -/
structure Inline where
  table : Table := []
  closed : List DottedKey := []

/-- States a value under a dotted key of an inline table. -/
def Inline.state (i : Inline) (path : DottedKey) (v : Value) : Option Inline :=
  if i.closed.any (fun p => p.isPrefixOf path) then none
  else (changeAt false (lastName path).1 (put (lastName path).2 v) i.table).map (fun table =>
    { table, closed := if isWhole v then path :: i.closed else i.closed })

/-- A value that is not a sequence and not a table. -/
def simple : ValueReader Value := fun t =>
  match quotedText t with
  | some (s, rest) => .ok (.text s, rest)
  | none => match truth t with
    | some (b, rest) => .ok (.flag b, rest)
    | none => match moment t with
      | .impossible => .error .malformed
      | .read m rest => .ok (.moment m, rest)
      | .other => number t

mutual

/-- A value, in at most `limit` steps. -/
def valueUpTo : Nat → ValueReader Value
  | 0, _ => .error .malformed
  | limit + 1, '[' :: rest => match behindFiller rest with
    | none => .error .malformed
    | some (']' :: next) => .ok (.list [], next)
    | some next => (itemsUpTo limit next).map (fun p => (.list p.1, p.2))
  | limit + 1, '{' :: rest => match skipSpace rest with
    | '}' :: next => .ok (.table [], next)
    | next => (entriesUpTo limit {} next).map (fun p => (.table p.1, p.2))
  | _, t => simple t

/-- The items of a sequence up to its closing bracket; there is at least one. -/
def itemsUpTo : Nat → ValueReader (List Value)
  | 0, _ => .error .malformed
  | limit + 1, t => match valueUpTo limit t with
    | .error why => .error why
    | .ok (v, rest) => match behindFiller rest with
      | some (']' :: next) => .ok ([v], next)
      | some (',' :: next) => match behindFiller next with
        | none => .error .malformed
        | some (']' :: last) => .ok ([v], last)
        | some more => (itemsUpTo limit more).map (fun p => (v :: p.1, p.2))
      | _ => .error .malformed

/-- The entries of an inline table up to its closing brace; there is at least one, and the last has no comma. -/
def entriesUpTo : Nat → Inline → ValueReader Table
  | 0, _, _ => .error .malformed
  | limit + 1, i, t => match key t with
    | none => .error .malformed
    | some (path, rest) => match (orMalformed (behindEquals rest)).bind (valueUpTo limit) with
      | .error why => .error why
      | .ok (v, rest) => match i.state path v, skipSpace rest with
        | some i, '}' :: next => .ok (i.table, next)
        | some i, ',' :: next => entriesUpTo limit i (skipSpace next)
        | _, _ => .error .malformed

end

/-- A value.  Each step reads a character or goes down to an item, so the length of the text bounds the steps. -/
def value : ValueReader Value := fun t => valueUpTo (2 * t.length + 2) t

/-! ## Statements -/

/-- A header behind its first bracket. -/
def header (f : File) : Text → Option (File × Text)
  | '[' :: rest => match key (skipSpace rest) with
    | some (path, ']' :: ']' :: next) => (f.addTable path).map (fun f => (f, next))
    | _ => none
  | rest => match key (skipSpace rest) with
    | some (path, ']' :: next) => (f.openTable path).map (fun f => (f, next))
    | _ => none

/-- A key with its value. -/
def assignment (f : File) : ValueReader File := fun t => do
  let (path, rest) ← orMalformed (key t)
  let (v, rest) ← value (← orMalformed (behindEquals rest))
  let f ← orMalformed (f.state path v)
  return (f, rest)

/-- A statement; there may be none on a line. -/
def statement (f : File) : ValueReader File
  | [] => .ok (f, [])
  | c :: rest =>
    if c = '\n' ∨ c = '#' then .ok (f, c :: rest)
    else if c = '[' then orMalformed (header { f with taken := f.taken.settle } rest)
    else assignment f (c :: rest)

/-- The lines of a file, at most `limit` of them. -/
def linesUpTo : Nat → File → Text → Except Refusal File
  | 0, f, _ => .ok f
  | limit + 1, f, t => match statement f (skipSpace t) with
    | .error why => .error why
    | .ok (f, rest) => match behindComment (skipSpace rest) with
      | none => .error .malformed
      | some [] => .ok f
      | some ('\n' :: next) => linesUpTo limit f next
      | some _ => .error .malformed

/-- A carriage return before a line feed belongs to it. -/
def plainBreaks : Text → Text
  | '\r' :: '\n' :: rest => '\n' :: plainBreaks rest
  | c :: rest => c :: plainBreaks rest
  | [] => []

/-- The tables of a text. -/
def ofText (t : Text) : Except Refusal Table :=
  (linesUpTo ((plainBreaks t).length + 1) {} (plainBreaks t)).map File.root

/-- Why a file tells nothing. -/
inductive Unreadable where
  /-- Its bytes are no text. -/
  | notText
  | refused (why : Refusal)
deriving DecidableEq, Repr

def ofBytes (bytes : ByteArray) : Except Unreadable Table :=
  match Text.decode? bytes with
  | none => .error .notText
  | some t => (ofText t).mapError .refused

end Toml
end Statechart
