import Statechart.Text.Basic
/-!
# Resolution — texts that a YAML reader takes for something else

Without quotes a YAML 1.1 reader takes some texts for a truth value, an empty value, a number, a moment, a merge key
or a default key.  `isOther` says which; those have to be quoted.
-/
namespace Statechart
namespace Doc
namespace Yaml

/-- Digits with underscores between or behind them. -/
def isDigitOrBar (c : Char) : Bool := c.isDigit || c == '_'

def isSign (c : Char) : Bool := c == '+' || c == '-'

def isSpaceOrTab (c : Char) : Bool := c == ' ' || c == '\t'

/-- A text without the sign in front of it. -/
def unsigned : Text → Text
  | [] => []
  | c :: rest => if isSign c then rest else c :: rest

/-- Whether a text is not empty and all its characters satisfy `p`. -/
def isRun (p : Char → Bool) (t : Text) : Bool := !t.isEmpty && t.all p

def truthWords : List Text :=
  ["yes", "Yes", "YES", "no", "No", "NO", "true", "True", "TRUE", "false", "False", "FALSE", "on", "On", "ON", "off",
    "Off", "OFF"].map String.toList

def emptyWords : List Text := ["", "~", "null", "Null", "NULL"].map String.toList

def infinityWords : List Text := [".inf", ".Inf", ".INF"].map String.toList

def notNumberWords : List Text := [".nan", ".NaN", ".NAN"].map String.toList

/-- The words and signs that mean something by themselves. -/
def otherWords : List Text := ["<<", "=", "!", "&", "*"].map String.toList

/-- Nothing, or an exponent with its sign. -/
def isExponent : Text → Bool
  | [] => true
  | e :: s :: digits => (e == 'e' || e == 'E') && isSign s && isRun Char.isDigit digits
  | _ => false

/-- Digits behind a point, and an exponent or none. -/
def isFraction (t : Text) : Bool := isExponent (t.dropWhile isDigitOrBar)

/-- A number with a point behind a digit. -/
def isPointed : Text → Bool
  | [] => false
  | d :: rest => d.isDigit && match rest.dropWhile isDigitOrBar with
    | '.' :: fraction => isFraction fraction
    | _ => false

/-- A number that begins with the point; it has no sign. -/
def isPointFirst : Text → Bool
  | '.' :: d :: rest => d.isDigit && isFraction rest
  | _ => false

/-- One digit, or two that count to sixty. -/
def isSixtieth : Text → Bool
  | [d] => d.isDigit
  | [d, e] => '0' ≤ d && d ≤ '5' && e.isDigit
  | _ => false

/-- A digit, and more digits. -/
def isNumeral : Text → Bool
  | [] => false
  | d :: rest => d.isDigit && rest.all isDigitOrBar

/-- A numeral that does not begin with zero. -/
def isPositive (t : Text) : Bool := isNumeral t && t.head? != some '0'

/-- The last piece of a pointed number to the base sixty. -/
def isLastSixtieth (t : Text) : Bool :=
  isSixtieth (t.takeWhile (· != '.')) && match t.dropWhile (· != '.') with
    | '.' :: fraction => fraction.all isDigitOrBar
    | _ => false

/-- A number to the base sixty with a point, as in `1:30.5`. -/
def isPointedSixty (t : Text) : Bool :=
  match Text.splitAt ':' t with
  | first :: piece :: pieces =>
    isNumeral first && (piece :: pieces).dropLast.all isSixtieth && isLastSixtieth (pieces.getLastD piece)
  | _ => false

/-- A whole number to the base sixty, as in `1:30`. -/
def isWholeSixty (t : Text) : Bool :=
  match Text.splitAt ':' t with
  | first :: piece :: pieces => isPositive first && (piece :: pieces).all isSixtieth
  | _ => false

def isFloat (t : Text) : Bool :=
  isPointed (unsigned t) || isPointFirst t || isPointedSixty (unsigned t) || infinityWords.contains (unsigned t) ||
    notNumberWords.contains t

/-- A whole number to the base two, eight, ten, sixteen or sixty. -/
def isWhole (t : Text) : Bool :=
  match t with
  | ['0'] => true
  | '0' :: 'b' :: digits => isRun (fun c => c == '0' || c == '1' || c == '_') digits
  | '0' :: 'x' :: digits =>
    isRun (fun c => isDigitOrBar c || ('a' ≤ c && c ≤ 'f') || ('A' ≤ c && c ≤ 'F')) digits
  | '0' :: digits => isRun (fun c => ('0' ≤ c && c ≤ '7') || c == '_') digits
  | _ => isPositive t || isWholeSixty t

/-- What follows at least `least` and at most `most` digits. -/
def behindDigits (least most : Nat) (t : Text) : Option Text :=
  let digits := t.takeWhile Char.isDigit
  if least ≤ digits.length ∧ digits.length ≤ most then some (t.drop digits.length) else none

def behind (c : Char) : Text → Option Text
  | [] => none
  | d :: rest => if d = c then some rest else none

/-- A year, a month and a day, and what follows. -/
def behindDate (least : Nat) (t : Text) : Option Text := do
  let month ← behind '-' (← behindDigits 4 4 t)
  let day ← behind '-' (← behindDigits least 2 month)
  behindDigits least 2 day

/-- What follows the mark between a date and a time: one letter, or blanks. -/
def behindDateMark : Text → Option Text
  | [] => none
  | c :: rest =>
    if c = 'T' ∨ c = 't' then some rest
    else if isSpaceOrTab c then some (rest.dropWhile isSpaceOrTab)
    else none

/-- Hours, minutes and seconds, and what follows. -/
def behindTime (t : Text) : Option Text := do
  let minute ← behind ':' (← behindDigits 1 2 t)
  let second ← behind ':' (← behindDigits 2 2 minute)
  behindDigits 2 2 second

/-- The text behind a fraction of a second, if there is one. -/
def behindFraction : Text → Text
  | [] => []
  | c :: rest => if c = '.' then rest.dropWhile Char.isDigit else c :: rest

/-- Hours, and minutes or none. -/
def isOffset (t : Text) : Bool :=
  match behindDigits 1 2 t with
  | none => false
  | some rest => rest.isEmpty || ((behind ':' rest).bind (behindDigits 2 2)) == some []

/-- Nothing, or a zone. -/
def isZone (t : Text) : Bool :=
  t.isEmpty || match t.dropWhile isSpaceOrTab with
    | [] => false
    | c :: rest => if isSign c then isOffset rest else c == 'Z' && rest.isEmpty

/-- A date alone, or a date with a time. -/
def isMoment (t : Text) : Bool :=
  behindDate 2 t == some [] || match (behindDate 1 t).bind behindDateMark |>.bind behindTime with
    | none => false
    | some rest => isZone (behindFraction rest)

/-- Whether a reader takes the text, unquoted, for something that is not a text. -/
def isOther (t : Text) : Bool :=
  truthWords.contains t || emptyWords.contains t || isFloat t || isWhole (unsigned t) || otherWords.contains t ||
    isMoment t

end Yaml
end Doc
end Statechart
