import Statechart.Proofs.Doc.YamlTypes
/-!
# YamlReader — what a YAML text says

A reader for block mappings and block sequences of YAML 1.1, with plain and single-quoted texts, keys before their colon
and keys behind a question mark.  It is given the types of plain texts.  It reads printable ASCII, a scalar is on one
line, and what it does not know it refuses.

A line is cut into pieces, each with the column where it begins.  A piece holds what is deeper; a key also holds the
dashes in its own column, and a question mark the colon in its own.  The trees of pieces are then read: a scalar stands
alone, and items, or entries, stand in one column.
-/
namespace Statechart
namespace Yaml

/-! ## Scalars -/

/-- The printable characters of ASCII; no others are read. -/
def isReadable (c : Char) : Bool := 0x20 ≤ c.toNat && c.toNat ≤ 0x7E

/-- The end of a line, or a blank. -/
def isGap : Text → Bool
  | [] => true
  | c :: _ => c == ' '

def indicators : Text := " #,[]\x7b\x7d&*!|>'\"%@\x60".toList

/-- The characters that start a plain text unless a gap follows. -/
def marks : Text := ['-', '?', ':']

def startsPlain : Text → Bool
  | [] => false
  | c :: rest => !indicators.contains c && !(marks.contains c && isGap rest)

/-- Whether a plain text is over: before a colon and a gap, and before a remark. -/
def endsPlain (c : Char) (rest : Text) : Bool := (c == ':' && isGap rest) || (c == ' ' && rest.head? == some '#')

def plainFrom : Text → Text × Text
  | [] => ([], [])
  | c :: rest => if endsPlain c rest then ([], c :: rest) else (c :: (plainFrom rest).1, (plainFrom rest).2)

/-- The text up to the closing quote, and what is behind it.  A quote closes the text unless another one follows, which
is part of it; `behindQuote` says that a quote has just been read. -/
def singleFrom (behindQuote : Bool) : Text → Option (Text × Text)
  | [] => if behindQuote then some ([], []) else none
  | c :: rest =>
    if behindQuote then
      if c = '\'' then (singleFrom false rest).map (fun p => (c :: p.1, p.2)) else some ([], c :: rest)
    else if c = '\'' then singleFrom true rest
    else (singleFrom false rest).map (fun p => (c :: p.1, p.2))

def scalar? (types : Types) : Text → Option (Yaml × Text)
  | [] => none
  | c :: rest =>
    if c = '\'' then match singleFrom false rest with
      | none => none
      | some (t, behind) => if t.all isReadable then some (.text t, behind) else none
    else if startsPlain (c :: rest) && (plainFrom (c :: rest)).1.all isReadable then
      some (plain types (Text.dropEndWhile (· == ' ') (plainFrom (c :: rest)).1), (plainFrom (c :: rest)).2)
    else none

/-! ## Pieces -/

inductive Mark where
  | dash
  | ask
  | colon
  | key (t : Text)
  | scalar (v : Yaml)

structure Piece where
  column : Nat
  mark : Mark

def remark? (t : Text) : Option (List Piece) := if t.all isReadable then some [] else none

/-- Whether nothing but a remark is left of a line. -/
def isOver (t : Text) : Bool :=
  match t.dropWhile (· == ' ') with
  | [] => true
  | c :: rest => c == '#' && t.head? == some ' ' && (remark? rest).isSome

/-- What stands behind the colon of a key on its line: a scalar or nothing. -/
def valuePieces? (types : Types) (column : Nat) : Text → Option (List Piece)
  | [] => some []
  | c :: rest =>
    if c = ' ' then valuePieces? types (column + 1) rest
    else if c = '#' then remark? rest
    else match scalar? types (c :: rest) with
      | none => none
      | some (v, behind) => if isOver behind then some [⟨column, .scalar v⟩] else none

/-- A key before its colon has no more characters. -/
def keyLimit : Nat := 1024

def behindColon? (t : Text) : Option Text :=
  match t.dropWhile (· == ' ') with
  | [] => none
  | c :: rest => if c = ':' ∧ isGap rest then some rest else none

/-- Whether a line starts or ends a document. -/
def isMarker (t : Text) : Bool := (t.take 3 == ['-', '-', '-'] || t.take 3 == ['.', '.', '.']) && isGap (t.drop 3)

/-- A scalar that ends its line, or a key and what stands behind its colon. -/
def lastPieces? (types : Types) (column : Nat) (t : Text) : Option (List Piece) :=
  if column = 0 ∧ isMarker t then none
  else match scalar? types t with
    | none => none
    | some (v, behind) => match behindColon? behind with
      | none => if isOver behind then some [⟨column, .scalar v⟩] else none
      | some rest => match v with
        | .text key =>
          if t.length - rest.length ≤ keyLimit then
            (valuePieces? types (column + (t.length - rest.length)) rest).map (⟨column, .key key⟩ :: ·)
          else none
        | _ => none

def mark? (c : Char) (rest : Text) : Option Mark :=
  if !isGap rest then none
  else if c = '-' then some .dash
  else if c = '?' then some .ask
  else if c = ':' then some .colon
  else none

/-- The pieces of a line, or of the end of one from a column on. -/
def linePieces? (types : Types) (column : Nat) : Text → Option (List Piece)
  | [] => some []
  | c :: rest =>
    if c = ' ' then linePieces? types (column + 1) rest
    else if c = '#' then remark? rest
    else match mark? c rest with
      | some mark => (linePieces? types (column + 1) rest).map (⟨column, mark⟩ :: ·)
      | none => lastPieces? types column (c :: rest)

def linesPieces? (types : Types) : List Text → Option (List Piece)
  | [] => some []
  | l :: ls => do return (← linePieces? types 0 l) ++ (← linesPieces? types ls)

/-- The pieces of a text whose first line begins at a column. -/
def piecesFrom? (types : Types) (column : Nat) (t : Text) : Option (List Piece) :=
  match Text.lines t with
  | [] => some []
  | l :: ls => do return (← linePieces? types column l) ++ (← linesPieces? types ls)

/-! ## Trees -/

/-- A piece, and the trees of the pieces that it holds. -/
inductive Tree where
  | node (piece : Piece) (below : List Tree)

namespace Tree

def root : Tree → Piece
  | node p _ => p

def isLeaf : Tree → Bool
  | node _ below => below.isEmpty

end Tree

/-- Whether a piece is held by another one in its own column. -/
def Mark.holds : Mark → Mark → Bool
  | .key _, .dash => true
  | .ask, .colon => true
  | _, _ => false

def Piece.holds (p q : Piece) : Bool := p.column < q.column || (p.column == q.column && p.mark.holds q.mark)

def plant (p : Piece) (trees : List Tree) : List Tree :=
  .node p (trees.takeWhile (fun t => p.holds t.root)) :: trees.dropWhile (fun t => p.holds t.root)

def grow (pieces : List Piece) : List Tree := pieces.foldr plant []

/-- A mapping names no key twice. -/
def ofEntries (entries : List (Text × Yaml)) : Option Yaml :=
  if (entries.map Prod.fst).Nodup then some (.map entries) else none

mutual

/-- What trees side by side say. -/
def value? : List Tree → Option Yaml
  | [] => some (.other .empty [])
  | t :: ts =>
    match t.root.mark with
    | .scalar v => if t.isLeaf && ts.isEmpty then some v else none
    | .dash => do return .list ((← item? t.root.column t) :: (← items? t.root.column ts))
    | _ => do ofEntries ((← entryOf? t.root.column t) :: (← entries? t.root.column ts))

def item? (column : Nat) : Tree → Option Yaml
  | .node ⟨c, .dash⟩ below => if c = column then value? below else none
  | _ => none

def items? (column : Nat) : List Tree → Option (List Yaml)
  | [] => some []
  | t :: ts => do return (← item? column t) :: (← items? column ts)

/-- A key with its value, before its colon or behind a question mark. -/
def entryOf? (column : Nat) : Tree → Option (Text × Yaml)
  | .node ⟨c, .key key⟩ below => if c = column then (value? below).map (fun v => (key, v)) else none
  | .node ⟨c, .ask⟩ [.node ⟨_, .scalar (.text key)⟩ [], .node ⟨d, .colon⟩ below] =>
    if c = column ∧ d = column then (value? below).map (fun v => (key, v)) else none
  | _ => none

def entries? (column : Nat) : List Tree → Option (List (Text × Yaml))
  | [] => some []
  | t :: ts => do return (← entryOf? column t) :: (← entries? column ts)

end

def read (types : Types) (t : Text) : Option Yaml := do value? (grow (← piecesFrom? types 0 t))

example : read standard "'on': x\n? ''\n: - 1.5\n  - '1.5'\n".toList =
    some (.map [("on".toList, .text ['x']), ([], .list [.other .real "1.5".toList, .text "1.5".toList])]) := by cbv

end Yaml
end Statechart
