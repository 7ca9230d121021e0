import Statechart.Text.Basic
/-!
# Keyed — mappings that keep the order of their keys

A mapping is a list of pairs.  Giving a key a new value keeps the key where it first stood (`keys_insert`), so the
order of the keys is the order in which they first appeared, and the value is the last one given.

`merge` joins mappings of events to handlers: an event overwrites, but the empty event collects.
-/
namespace Statechart

/-- A mapping from texts, in the order of its keys. -/
abbrev Keyed (α : Type) := List (Text × α)

namespace Keyed

variable {α β : Type}

def keys (m : Keyed α) : List Text := m.map Prod.fst

/-- The value of the first entry with a key. -/
def get? : Keyed α → Text → Option α
  | [], _ => none
  | (k, v) :: rest, key => if k = key then some v else get? rest key

/-- Gives a key a value: in its place if it is there, else at the end. -/
def insert : Keyed α → Text → α → Keyed α
  | [], key, value => [(key, value)]
  | (k, v) :: rest, key, value => if k = key then (key, value) :: rest else (k, v) :: insert rest key value

/-- The mapping that results from giving the values of the entries in order. -/
def ofEntries (entries : List (Text × α)) : Keyed α := entries.foldl (fun m e => insert m e.1 e.2) []

def without (names : List Text) (m : Keyed α) : Keyed α := m.filter (fun e => !names.contains e.1)

/-- **A new value does not move a key**, and a new key comes last. -/
theorem keys_insert (key : Text) (value : α) : ∀ m : Keyed α,
    keys (insert m key value) = if key ∈ keys m then keys m else keys m ++ [key]
  | [] => by simp [insert, keys]
  | (k, v) :: rest => by
    have ih := keys_insert key value rest
    simp only [insert]
    by_cases h : k = key
    · subst h; simp [keys]
    · simp only [keys, h, ↓reduceIte, List.map_cons, List.mem_cons, Ne.symm h, false_or] at ih ⊢
      rw [ih]
      by_cases hm : key ∈ rest.map Prod.fst <;> simp [hm]

theorem get?_insert (key : Text) (value : α) (other : Text) : ∀ m : Keyed α,
    get? (insert m key value) other = if key = other then some value else get? m other
  | [] => by simp [insert, get?]
  | (k, v) :: rest => by
    have ih := get?_insert key value other rest
    simp only [insert]
    by_cases h : k = key
    · subst h; simp only [↓reduceIte, get?]; split <;> rfl
    · simp only [h, ↓reduceIte, get?, ih]
      by_cases h' : k = other
      · subst h'; simp [Ne.symm h]
      · simp [h']

/-- What a key of a merged mapping holds: the last value given for it, or all of them. -/
inductive Slot (α : Type) where
  | one (value : α)
  | all (values : List α)
deriving DecidableEq, Repr

namespace Slot

def values : Slot α → List α
  | one v => [v]
  | all vs => vs

def map (f : α → β) : Slot α → Slot β
  | one v => one (f v)
  | all vs => all (vs.map f)

end Slot

/-- The key under which values collect. -/
def collecting : Text := []

/-- Adds an entry: the collecting key takes one value more, any other key the new value. -/
def add (m : Keyed (Slot α)) (entry : Text × α) : Keyed (Slot α) :=
  if entry.1 = collecting then
    insert m collecting (.all ((match get? m collecting with
      | some slot => slot.values
      | none => []) ++ [entry.2]))
  else insert m entry.1 (.one entry.2)

/-- The entries of several mappings, added from left to right. -/
def merge (items : List (Keyed α)) : Keyed (Slot α) := items.flatten.foldl add []

end Keyed
end Statechart
