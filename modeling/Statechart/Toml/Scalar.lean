import Statechart.Toml.Value
/-!
# Scalar — texts, numbers and moments as they are written

A reader takes what it reads from the front of a text and gives the value and the rest, or refuses.  Readers that go
through a text of any length count down its length.  A reader of values tells why it refuses: most often the text is
malformed, but a whole number may also have too many digits.
-/
namespace Statechart
namespace Toml

/-- Reads from the front of a text. -/
abbrev Reader (α : Type) := Text → Option (α × Text)

/-- Why a text tells nothing. -/
inductive Refusal where
  | malformed
  /-- A whole number in it has more digits than are read, so many, or than are written. -/
  | tooLong (digits : Option Nat)
deriving DecidableEq, Repr

def orMalformed {α : Type} : Option α → Except Refusal α
  | none => .error .malformed
  | some a => .ok a

/-- Reads from the front of a text, or tells why not. -/
abbrev ValueReader (α : Type) := Text → Except Refusal (α × Text)

def isSpace (c : Char) : Bool := c == ' ' || c == '\t'

def isSpaceOrLine (c : Char) : Bool := isSpace c || c == '\n'

/-- The control characters that may not stand in a comment or on a line of text: all but the tabulator. -/
def isControl (c : Char) : Bool := c != '\t' && (c.toNat < 0x20 || c.toNat == 0x7F)

def isHexDigit (c : Char) : Bool := c.isDigit || ('a' ≤ c && c ≤ 'f') || ('A' ≤ c && c ≤ 'F')

/-- The value of a digit to a base up to sixteen. -/
def digitValue (c : Char) : Nat :=
  if c.isDigit then c.toNat - 48 else if 'a' ≤ c then c.toNat - 87 else c.toNat - 55

/-- The number that digits write to a base. -/
def numeral (base : Nat) (digits : Text) : Nat := digits.foldl (fun n c => n * base + digitValue c) 0

/-! ## Texts -/

/-- Puts characters in front of what a reader gives. -/
def before (s : Text) (r : Option (Text × Text)) : Option (Text × Text) := r.map (fun p => (s ++ p.1, p.2))

/-- A character by its code point in `width` hexadecimal digits. -/
def codePoint (width : Nat) : Reader Text := fun t =>
  let digits := t.take width
  let n := numeral 16 digits
  if digits.length = width ∧ digits.all isHexDigit ∧ n.isValidChar then some ([Char.ofNat n], t.drop width) else none

/-- A line break behind a backslash, and the blanks before and the blank lines after it, are no part of the text. -/
def lineJoin : Char → Reader Text
  | '\n', rest => some ([], rest.dropWhile isSpaceOrLine)
  | _, rest => match rest.dropWhile isSpace with
    | [] => some ([], [])
    | c :: next => if c = '\n' then some ([], next.dropWhile isSpaceOrLine) else none

/-- What a backslash introduces. -/
def escape (multiline : Bool) : Reader Text
  | [] => none
  | c :: rest =>
    if multiline && isSpaceOrLine c then lineJoin c rest
    else match c with
      | 'u' => codePoint 4 rest
      | 'U' => codePoint 8 rest
      | 'b' => some (['\x08'], rest)
      | 't' => some (['\t'], rest)
      | 'n' => some (['\n'], rest)
      | 'f' => some (['\x0c'], rest)
      | 'r' => some (['\r'], rest)
      | '"' => some (['"'], rest)
      | '\\' => some (['\\'], rest)
      | _ => none

/-- Whether a character may not stand in a text. -/
def isIllegal (multiline : Bool) (c : Char) : Bool := isControl c && !(multiline && c == '\n')

/-- The rest of a text in double quotes, in at most `limit` steps. -/
def basicUpTo (multiline : Bool) : Nat → Reader Text
  | 0, _ => none
  | _, [] => none
  | limit + 1, '"' :: rest =>
    if multiline then match rest with
      | '"' :: '"' :: next => some ([], next)
      | _ => before ['"'] (basicUpTo multiline limit rest)
    else some ([], rest)
  | limit + 1, '\\' :: rest => match escape multiline rest with
    | none => none
    | some (s, next) => before s (basicUpTo multiline limit next)
  | limit + 1, c :: rest => if isIllegal multiline c then none else before [c] (basicUpTo multiline limit rest)

def basic (multiline : Bool) : Reader Text := fun t => basicUpTo multiline (t.length + 1) t

/-- The rest of a text in single quotes. -/
def literal : Reader Text
  | [] => none
  | '\'' :: rest => some ([], rest)
  | c :: rest => if isControl c then none else before [c] (literal rest)

/-- The rest of a text in three single quotes. -/
def literalLines : Reader Text
  | [] => none
  | '\'' :: '\'' :: '\'' :: rest => some ([], rest)
  | c :: rest => if isIllegal true c then none else before [c] (literalLines rest)

/-- A line break right behind the opening quotes is no part of the text. -/
def behindFirstBreak : Text → Text
  | '\n' :: rest => rest
  | t => t

/-- Up to two quotes more than three at the end belong to the text. -/
def withQuotes (quote : Char) (r : Option (Text × Text)) : Option (Text × Text) :=
  r.map (fun p => match p.2 with
    | a :: b :: rest =>
      if a = quote ∧ b = quote then (p.1 ++ [quote, quote], rest)
      else if a = quote then (p.1 ++ [quote], b :: rest) else p
    | [a] => if a = quote then (p.1 ++ [quote], []) else p
    | [] => p)

/-- A text in quotes of either kind, on one line or several. -/
def quotedText : Reader Text
  | '"' :: '"' :: '"' :: rest => withQuotes '"' (basic true (behindFirstBreak rest))
  | '"' :: rest => basic false rest
  | '\'' :: '\'' :: '\'' :: rest => withQuotes '\'' (literalLines (behindFirstBreak rest))
  | '\'' :: rest => literal rest
  | _ => none

/-! ## Moments -/

/-- A number of exactly `width` digits between two bounds. -/
def fixed (width low high : Nat) : Reader Nat := fun t =>
  let digits := t.take width
  let n := numeral 10 digits
  if digits.length = width ∧ digits.all Char.isDigit ∧ low ≤ n ∧ n ≤ high then some (n, t.drop width) else none

def char (c : Char) : Reader Unit
  | [] => none
  | d :: rest => if d = c then some ((), rest) else none

/-- A fraction of a second in microseconds; digits beyond the sixth do not count. -/
def fraction : Text → Nat × Text
  | '.' :: rest =>
    let digits := rest.takeWhile Char.isDigit
    if digits.isEmpty then (0, '.' :: rest)
    else (numeral 10 (Text.padRightWith '0' 6 (digits.take 6)), rest.drop digits.length)
  | t => (0, t)

def time : Reader Time := fun t => do
  let (hour, t) ← fixed 2 0 23 t
  let ((), t) ← char ':' t
  let (minute, t) ← fixed 2 0 59 t
  let ((), t) ← char ':' t
  let (second, t) ← fixed 2 0 59 t
  let (micro, t) := fraction t
  return (⟨hour, minute, second, micro⟩, t)

def date : Reader Date := fun t => do
  let (year, t) ← fixed 4 0 9999 t
  let ((), t) ← char '-' t
  let (month, t) ← fixed 2 1 12 t
  let ((), t) ← char '-' t
  let (day, t) ← fixed 2 1 31 t
  return (⟨year, month, day⟩, t)

/-- Hours and minutes behind the sign of an offset. -/
def offsetBehind (sign : Int) : Reader Int := fun t => do
  let (hour, t) ← fixed 2 0 23 t
  let ((), t) ← char ':' t
  let (minute, t) ← fixed 2 0 59 t
  return (sign * (hour * 60 + minute), t)

/-- A zone, if there is one: `Z`, or an offset in hours and minutes. -/
def zone (t : Text) : Option Int × Text :=
  match t with
  | [] => (none, t)
  | c :: rest =>
    if c = 'Z' ∨ c = 'z' then (some 0, rest)
    else if c = '+' ∨ c = '-' then
      match offsetBehind (if c = '-' then -1 else 1) rest with
      | none => (none, t)
      | some (o, next) => (some o, next)
    else (none, t)

/-- A time behind a date, if there is one. -/
def timeBehindDate : Text → Option (Time × Text)
  | [] => none
  | c :: rest => if c = 'T' ∨ c = 't' ∨ c = ' ' then time rest else none

/-- What is read of a moment: nothing that looks like one, one that does not exist, or one. -/
inductive MomentReading where
  | other
  | impossible
  | read (m : Moment) (rest : Text)

def moment (t : Text) : MomentReading :=
  match date t with
  | none => match time t with
    | none => .other
    | some (x, rest) => .read (.time x) rest
  | some (d, rest) =>
    if d.isValid then
      match timeBehindDate rest with
      | none => .read (.date d) rest
      | some (x, next) => .read (.both d x (zone next).1) (zone next).2
    else .impossible

/-! ## Numbers -/

def withDigit (d : Char) (r : Text × Text) : Text × Text := (d :: r.1, r.2)

/-- More digits, each perhaps behind an underscore. -/
def moreDigits (p : Char → Bool) : Text → Text × Text
  | '_' :: d :: rest => if p d then withDigit d (moreDigits p rest) else ([], '_' :: d :: rest)
  | d :: rest => if p d then withDigit d (moreDigits p rest) else ([], d :: rest)
  | [] => ([], [])

/-- Digits, with single underscores between them. -/
def digits (p : Char → Bool) : Reader Text
  | [] => none
  | d :: rest => if p d then some (withDigit d (moreDigits p rest)) else none

/-- A whole number to the base sixteen, eight or two. -/
def based : Reader Int
  | '0' :: 'x' :: rest => (digits isHexDigit rest).map (fun p => ((numeral 16 p.1 : Int), p.2))
  | '0' :: 'o' :: rest => (digits (fun c => '0' ≤ c && c ≤ '7') rest).map (fun p => ((numeral 8 p.1 : Int), p.2))
  | '0' :: 'b' :: rest => (digits (fun c => c == '0' || c == '1') rest).map (fun p => ((numeral 2 p.1 : Int), p.2))
  | _ => none

/-- A sign, if there is one: whether it is a minus. -/
def sign : Text → Bool × Text
  | '-' :: rest => (true, rest)
  | '+' :: rest => (false, rest)
  | t => (false, t)

/-- The whole part of a decimal: zero alone, or digits that do not begin with zero. -/
def wholePart : Reader Text
  | '0' :: rest => some (['0'], rest)
  | t => digits Char.isDigit t

/-- Digits behind the point, if there are any. -/
def fractionPart (t : Text) : Option Text × Text :=
  match t with
  | '.' :: rest => match digits Char.isDigit rest with
    | none => (none, t)
    | some (ds, next) => (some ds, next)
  | _ => (none, t)

/-- A power of ten behind `e` or `E`, if there is one. -/
def exponentPart (t : Text) : Option Int × Text :=
  match t with
  | [] => (none, t)
  | c :: rest =>
    if c = 'e' ∨ c = 'E' then
      match digits Char.isDigit (sign rest).2 with
      | none => (none, t)
      | some (ds, next) => (some (if (sign rest).1 then -(numeral 10 ds : Int) else numeral 10 ds), next)
    else (none, t)

/-- A decimal: a whole number, or with a point or an exponent one that is rounded. -/
def decimal : ValueReader Value := fun t => do
  let (negative, t) := sign t
  let (whole, t) ← orMalformed (wholePart t)
  let (fractional, t) := fractionPart t
  let (exponent, t) := exponentPart t
  match fractional, exponent with
  | none, none =>
    if whole.length ≤ Whole.maxDigits then
      return (.int (if negative then -(numeral 10 whole : Int) else numeral 10 whole), t)
    else .error (.tooLong (some whole.length))
  | _, _ =>
    let ds := fractional.getD []
    return (.number (Binary64.ofDecimal negative (numeral 10 (whole ++ ds)) (exponent.getD 0 - ds.length)), t)

/-- The numbers that are words. -/
def wordNumber : Reader Value := fun t =>
  let (negative, rest) := sign t
  if rest.take 3 = "inf".toList then some (.number (.infinite negative), rest.drop 3)
  else if rest.take 3 = "nan".toList then some (.number .notANumber, rest.drop 3)
  else none

def number : ValueReader Value := fun t =>
  match based t with
  | some (i, rest) => .ok (.int i, rest)
  | none => match decimal t with
    | .error .malformed => orMalformed (wordNumber t)
    | r => r

/-- A word that is a truth value. -/
def truth : Reader Bool := fun t =>
  if t.take 4 = "true".toList then some (true, t.drop 4)
  else if t.take 5 = "false".toList then some (false, t.drop 5)
  else none

end Toml
end Statechart
