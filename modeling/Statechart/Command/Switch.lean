import Statechart.Text.Basic
/-!
# Switch — the options on a command line

A switch has a long name and may have a short one, and some switches take a value.  A long name takes the value behind
`=` or the next argument.  Short names may be run together behind one `-`; one that takes a value takes what is left
of the argument, or the next one.  A value may look like anything, also like a switch.  What is no switch is an
operand, and so is all that follows `--`.
-/
namespace Statechart

structure Switch where
  /-- The long name, with its two dashes. -/
  long : Text
  short : Option Char := none
  takesValue : Bool := false
deriving DecidableEq, Repr

namespace Switch

/-- The switches given on a command line, in order, with their values; and the operands. -/
structure Given where
  values : List (Switch × Text) := []
  operands : List Text := []
deriving DecidableEq, Repr

/-- What one argument gives: switches with their values, and perhaps one more, whose value is the next argument. -/
structure Spelled where
  values : List (Switch × Text) := []
  open? : Option Switch := none
deriving DecidableEq, Repr

/-- Short names that are run together. -/
def bundle (known : List Switch) : Text → Option Spelled
  | [] => some {}
  | c :: rest => match known.find? (fun s => s.short == some c) with
    | none => none
    | some s =>
      if s.takesValue then
        if rest.isEmpty then some { open? := some s } else some { values := [(s, rest)] }
      else (bundle known rest).map (fun b => { b with values := (s, []) :: b.values })

/-- What an argument that begins with a dash gives. -/
def spelled (known : List Switch) (arg : Text) : Option Spelled :=
  match known.find? (fun s => s.long == arg.takeWhile (· ≠ '=')) with
  | some s => match s.takesValue, arg.dropWhile (· ≠ '=') with
    | true, [] => some { open? := some s }
    | true, _ :: value => some { values := [(s, value)] }
    | false, [] => some { values := [(s, [])] }
    | false, _ :: _ => none
  | none => if "--".toList.isPrefixOf arg then none else bundle known (arg.drop 1)

/-- Whether an argument is to be read as switches: a lone dash is an operand. -/
def isSpelling : Text → Bool
  | '-' :: _ :: _ => true
  | _ => false

/-- Reads arguments.  Where switches may stand only in front, the first operand ends them. -/
def read (known : List Switch) (onlyInFront : Bool) : List Text → Option Given
  | [] => some {}
  | arg :: rest =>
    if arg = "--".toList then some { operands := rest }
    else if isSpelling arg then
      match spelled known arg with
      | none => none
      | some ⟨values, none⟩ => (read known onlyInFront rest).map (fun g => { g with values := values ++ g.values })
      | some ⟨values, some s⟩ => match rest with
        | [] => none
        | value :: rest =>
          (read known onlyInFront rest).map (fun g => { g with values := values ++ (s, value) :: g.values })
    else if onlyInFront then some { operands := arg :: rest }
    else (read known onlyInFront rest).map (fun g => { g with operands := arg :: g.operands })

namespace Given

def has (g : Given) (s : Switch) : Bool := g.values.any (fun v => v.1 == s)

/-- The value given last for a switch. -/
def value? (g : Given) (s : Switch) : Option Text := (g.values.reverse.find? (fun v => v.1 == s)).map (·.2)

end Given
end Switch
end Statechart
