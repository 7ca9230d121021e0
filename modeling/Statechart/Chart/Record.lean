import Statechart.Chart.Assembly
import Statechart.Diagnostic.Mismatch
/-!
# Record — what the library reports while it works

A record is an event worth telling: how many tokens a text has, a remark on a chart, that a chart was read or was not.
Each has a level, the part of the library it comes from, and a message.
-/
namespace Statechart

open Diagnostic (Mismatch)

inductive Level where
  | debug
  | info
  | warning
  | error
  | critical
deriving DecidableEq, Repr

namespace Level

def name : Level → Text
  | debug => "DEBUG".toList
  | info => "INFO".toList
  | warning => "WARNING".toList
  | error => "ERROR".toList
  | critical => "CRITICAL".toList

/-- How grave a level is. -/
def weight : Level → Nat
  | debug => 10
  | info => 20
  | warning => 30
  | error => 40
  | critical => 50

def all : List Level := [debug, info, warning, error, critical]

def ofName? (t : Text) : Option Level := all.find? (fun l => l.name == t)

theorem ofName?_eq_some_iff {t : Text} {l : Level} : ofName? t = some l ↔ l.name = t := by
  constructor
  · intro h
    simpa using List.find?_some h
  · rintro rfl
    cases l <;> decide

end Level

inductive Record where
  | tokenized (characters tokens : Nat)
  | remarked (remark : Remark)
  | parsed (id : Text) (states : Nat)
  | rejected (error : Mismatch)
deriving Repr

namespace Record

def level : Record → Level
  | remarked _ => .warning
  | _ => .debug

/-- The part of the library a record comes from. -/
def origin : Record → Text
  | tokenized _ _ => "chartlang.core.lexer".toList
  | remarked _ => "chartlang.core.parser_impl.assembler".toList
  | parsed _ _ | rejected _ => "chartlang.core.parser_impl".toList

def message : Record → Text
  | tokenized characters tokens =>
    "Tokenized ".toList ++ Text.ofNat characters ++ " characters into ".toList ++ Text.ofNat tokens ++
      " tokens".toList
  | remarked r => r.message
  | parsed id states =>
    "Parsed statechart ".toList ++ Text.quoted id ++ " with ".toList ++ Text.ofNat states ++
      " top-level states".toList
  | rejected error => "Parse failed: ".toList ++ error.shown

end Record
end Statechart
