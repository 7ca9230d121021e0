import Statechart.Chart.Assembly
import Statechart.Diagnostic.Mismatch
/-!
# Rule — matching tokens from a position on

A matcher reads tokens from a position and matches, with a value and the position behind what it read, or fails, with
a mismatch and the position it got to.  Positions are plain numbers, so trying another rule is going on from a
position kept, and nothing has to be undone.

Beside its outcome a matcher leaves a trace: the failures recorded on the way, and what was remarked on.  A trace only
grows and no matcher reads it, so an outcome never depends on what was tried before; the failure to report is found
from the trace afterwards (`Trace.furthest`).

A third outcome is a name or an action whose token has no text.  No text has such tokens, but a list of tokens stated
by hand may, and then no other rule is tried.
-/
namespace Statechart

open Diagnostic (Mismatch Reason Report)

/-- A mismatch, and the position where it came up. -/
structure Failure where
  error : Mismatch
  pos : Nat
deriving Repr

inductive Outcome (α : Type) where
  | matched (value : α) (pos : Nat)
  | failed (failure : Failure)
  | unfit
deriving Repr

/-- What a matcher leaves beside its outcome, in order. -/
structure Trace where
  failures : List Failure := []
  remarks : List Remark := []
deriving Repr

namespace Trace

def append (a b : Trace) : Trace := ⟨a.failures ++ b.failures, a.remarks ++ b.remarks⟩

instance : Append Trace := ⟨append⟩

/-- The further one of two failures; of two equally far, the earlier. -/
def further (best : Option Failure) (f : Failure) : Option Failure :=
  match best with
  | none => some f
  | some b => if b.pos < f.pos then some f else some b

/-- The failure at the greatest position among one known before and those of a trace, the first of several. -/
def furthest (before : Option Failure) (t : Trace) : Option Failure := t.failures.foldl further before

end Trace

/-- Reads tokens from a position. -/
def Matcher (α : Type) := Array Token → Nat → Outcome α × Trace

namespace Matcher

variable {α β : Type}

/-- Matches without reading. -/
def done (a : α) : Matcher α := fun _ pos => (.matched a pos, {})

/-- One matcher, and from where it stopped the next. -/
def andThen (p : Matcher α) (next : α → Matcher β) : Matcher β := fun tokens pos =>
  match p tokens pos with
  | (.matched a pos', t) => match next a tokens pos' with
    | (outcome, t') => (outcome, t ++ t')
  | (.failed f, t) => (.failed f, t)
  | (.unfit, t) => (.unfit, t)

instance : Monad Matcher where
  pure := done
  bind := andThen

def look : Matcher (Option Token) := fun tokens pos => (.matched tokens[pos]? pos, {})

/-- Fails at the position, on record. -/
def fail (reason : Reason) : Matcher α := fun tokens pos =>
  let failure : Failure := ⟨.plain (Report.on reason tokens[pos]?), pos⟩
  (.failed failure, { failures := [failure] })

/-- Fails at the position, off the record: layout decides where a statement ends, not a bad token. -/
def decline (reason : Reason) : Matcher α := fun tokens pos =>
  (.failed ⟨.plain (Report.on reason tokens[pos]?), pos⟩, {})

/-- Gives up on the tokens. -/
def unfit : Matcher α := fun _ _ => (.unfit, {})

def remark (rs : List Remark) : Matcher Unit := fun _ pos => (.matched () pos, { remarks := rs })

/-- Reads one token of a kind. -/
def expect (kind : TokenKind) : Matcher Token := fun tokens pos =>
  match tokens[pos]? with
  | none => fail (.wanted kind) tokens pos
  | some t => if t.kind = kind then (.matched t (pos + 1), {}) else fail (.wanted kind) tokens pos

/-- Matches only behind the last token. -/
def atEnd : Matcher Unit := fun tokens pos =>
  match tokens[pos]? with
  | none => (.matched () pos, {})
  | some _ => fail .trailing tokens pos

/-- One match or none. -/
def optional (p : Matcher α) : Matcher (Option α) := fun tokens pos =>
  match p tokens pos with
  | (.matched a pos', t) => (.matched (some a) pos', t)
  | (.failed _, t) => (.matched none pos, t)
  | (.unfit, t) => (.unfit, t)

/-- At most `limit` matches, up to the first that fails or reads nothing. -/
def repeatUpTo (p : Matcher α) : Nat → Matcher (List α)
  | 0 => done []
  | limit + 1 => fun tokens pos =>
    if tokens.size ≤ pos then (.matched [] pos, {})
    else match p tokens pos with
      | (.failed _, t) => (.matched [] pos, t)
      | (.unfit, t) => (.unfit, t)
      | (.matched a pos', t) =>
        if pos' = pos then (.matched [] pos, t)
        else match repeatUpTo p limit tokens pos' with
          | (.matched as last, t') => (.matched (a :: as) last, t ++ t')
          | (.failed f, t') => (.failed f, t ++ t')
          | (.unfit, t') => (.unfit, t ++ t')

/-- As many matches as there are.  Each reads a token, so there are at most as many as tokens are left. -/
def many (p : Matcher α) : Matcher (List α) := fun tokens pos => repeatUpTo p (tokens.size - pos) tokens pos

end Matcher

/-- A matcher with the name that messages give it. -/
structure Rule (α : Type) where
  name : Text
  run : Matcher α

namespace Rule

variable {α β : Type}

/-- Another value for what a rule reads. -/
def map (f : α → β) (r : Rule α) : Rule β := ⟨r.name, r.run >>= fun a => pure (f a)⟩

/-- One token of a kind, named for the kind in small letters. -/
def expect (kind : TokenKind) : Rule Token := ⟨kind.name.map Char.toLower, Matcher.expect kind⟩

def endOfInput : Rule Unit := ⟨"end_of_input".toList, Matcher.atEnd⟩

def named (name : Text) (r : Rule α) : Rule α := ⟨name, r.run⟩

def optional (r : Rule α) : Rule (Option α) := ⟨'[' :: r.name ++ [']'], r.run.optional⟩

def many (r : Rule α) : Rule (List α) := ⟨'{' :: r.name ++ ['}'], r.run.many⟩

/-- A rule for a token on a line: one on another line is no match. -/
def onLine (r : Rule α) (line : Int) : Rule α :=
  ⟨r.name, fun tokens pos =>
    match tokens[pos]? with
    | none => r.run tokens pos
    | some t =>
      if t.line = line then r.run tokens pos else Matcher.decline (.offLine r.name line) tokens pos⟩

/-- The failure of a choice at a position, from the failures of its rules in order. -/
def exhausted (names : List Text) (failures : List Failure) (tokens : Array Token) (pos : Nat) : Failure where
  error := .choice (Report.on (.noneOf names) tokens[pos]?) names (failures.map (fun f => (f.error, (f.pos : Int))))
  pos := (failures.map Failure.pos).max?.getD pos

/-- The first of some rules that matches; `before` are the failures of the rules already tried, the latest first. -/
def firstOf (names : List Text) : List (Rule α) → List Failure → Matcher α
  | [], before => fun tokens pos => (.failed (exhausted names before.reverse tokens pos), {})
  | r :: rest, before => fun tokens pos =>
    match r.run tokens pos with
    | (.matched a pos', t) => (.matched a pos', t)
    | (.unfit, t) => (.unfit, t)
    | (.failed f, t) => match firstOf names rest (f :: before) tokens pos with
      | (outcome, t') => (outcome, t ++ t')

/-- The name of a choice: its rules, or a word of its own when that says nothing. -/
def choiceName (names : List Text) : Text :=
  match Reason.listed names with
  | [] => "one_of".toList
  | listed => listed

/-- The first of some rules that matches, all from the same position. -/
def oneOf (rules : List (Rule α)) : Rule α :=
  ⟨choiceName (rules.map Rule.name), firstOf (rules.map Rule.name) rules []⟩

end Rule
end Statechart
