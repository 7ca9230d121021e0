import Statechart.Text.Basic
import Statechart.Text.Ranges
/-!
# Whole — integers as people write them

An integer has digits, a sign before them if one is wanted, and space around it.  One underscore may stand between two
digits.  The digits of every script count, and the space characters of every script too.
-/
namespace Statechart
namespace Whole

/-- The most decimal digits that a whole number is read or written with. -/
def maxDigits : Nat := 4300

/-- The zero of each script; its other nine digits follow it. -/
def zeros : List Nat :=
  [0x30, 0x660, 0x6f0, 0x7c0, 0x966, 0x9e6, 0xa66, 0xae6, 0xb66, 0xbe6, 0xc66, 0xce6, 0xd66, 0xde6, 0xe50, 0xed0, 0xf20,
    0x1040, 0x1090, 0x17e0, 0x1810, 0x1946, 0x19d0, 0x1a80, 0x1a90, 0x1b50, 0x1bb0, 0x1c40, 0x1c50, 0xa620, 0xa8d0,
    0xa900, 0xa9d0, 0xa9f0, 0xaa50, 0xabf0, 0xff10, 0x104a0, 0x10d30, 0x11066, 0x110f0, 0x11136, 0x111d0, 0x112f0,
    0x11450, 0x114d0, 0x11650, 0x116c0, 0x11730, 0x118e0, 0x11950, 0x11c50, 0x11d50, 0x11da0, 0x16a60, 0x16ac0,
    0x16b50, 0x1d7ce, 0x1d7d8, 0x1d7e2, 0x1d7ec, 0x1d7f6, 0x1e140, 0x1e2f0, 0x1e950, 0x1fbf0]

/-- The borders of the set of space characters. -/
def spaces : List Nat :=
  [0x9, 0xe, 0x20, 0x21, 0x85, 0x86, 0xa0, 0xa1, 0x1680, 0x1681, 0x2000, 0x200b, 0x2028, 0x202a, 0x202f, 0x2030, 0x205f,
    0x2060, 0x3000, 0x3001]

def isSpace (c : Char) : Bool := Text.within spaces c.toNat

def digit? (c : Char) : Option Nat :=
  (zeros.find? (fun z => decide (z ≤ c.toNat ∧ c.toNat < z + 10))).map (fun z => c.toNat - z)

/-- The number that digits continue, of which `n` has been read. -/
def digitsFrom (n : Nat) : Text → Option Nat
  | [] => some n
  | ['_'] => none
  | '_' :: c :: rest => match digit? c with
    | none => none
    | some d => digitsFrom (10 * n + d) rest
  | c :: rest => match digit? c with
    | none => none
    | some d => digitsFrom (10 * n + d) rest

/-- A number without a sign: it begins with a digit, and has not too many of them. -/
def digits? : Text → Option Nat
  | [] => none
  | c :: rest => match digit? c with
    | none => none
    | some d => if (c :: rest).countP (fun c => (digit? c).isSome) ≤ maxDigits then digitsFrom d rest else none

/-- The integer that a text writes. -/
def ofText? (t : Text) : Option Int :=
  match Text.dropEndWhile isSpace (t.dropWhile isSpace) with
  | '-' :: rest => (digits? rest).map (fun n => -(n : Int))
  | '+' :: rest => (digits? rest).map Int.ofNat
  | rest => (digits? rest).map Int.ofNat

end Whole
end Statechart
