import Statechart.Doc
import Statechart.Proofs.Text.Lines
/-!
# JsonReader — what a JSON text says

A reader for JSON that is strict about all of its grammar: no comma too many, no zero in front of a number, no control
character in a string, nothing behind the value but white space.  A text is cut into pieces: brackets, colons and
commas, and scalars, with white space between them.  The pieces are then read one after the other with a stack of the
lists and mappings that are still open.  The entries of a mapping keep their order, and a key may come again.
-/
namespace Statechart

/-- What a JSON text says.  A number with a fraction or an exponent is kept as it is written. -/
inductive Json where
  | null
  | flag (b : Bool)
  | int (i : Int)
  | real (written : Text)
  | text (t : Text)
  | list (items : List Json)
  | map (entries : List (Text × Json))
deriving Repr

namespace Json

/-! ## Strings -/

def hex? (c : Char) : Option Nat :=
  if '0' ≤ c ∧ c ≤ '9' then some (c.toNat - '0'.toNat)
  else if 'a' ≤ c ∧ c ≤ 'f' then some (c.toNat - 'a'.toNat + 10)
  else if 'A' ≤ c ∧ c ≤ 'F' then some (c.toNat - 'A'.toNat + 10)
  else none

/-- The code unit of four hexadecimal digits, and what is behind them. -/
def unit? : Text → Option (Nat × Text)
  | a :: b :: c :: d :: rest => do
    let a ← hex? a
    let b ← hex? b
    let c ← hex? c
    let d ← hex? d
    return (((a * 16 + b) * 16 + c) * 16 + d, rest)
  | _ => none

def isHigh (unit : Nat) : Bool := decide (0xD800 ≤ unit ∧ unit < 0xDC00)

def isLow (unit : Nat) : Bool := decide (0xDC00 ≤ unit ∧ unit < 0xE000)

def paired (high low : Nat) : Char := Char.ofNat (0x10000 + (high - 0xD800) * 0x400 + (low - 0xDC00))

/-- The character of a high surrogate, whose low one has to follow in an escape of its own. -/
def pair? (high : Nat) : Text → Option (Char × Text)
  | '\\' :: 'u' :: t => match unit? t with
    | none => none
    | some (low, rest) => if isLow low then some (paired high low, rest) else none
  | _ => none

/-- The character of a code unit, or of two that are a pair of surrogates; a surrogate alone stands for none. -/
def unicode? (t : Text) : Option (Char × Text) :=
  match unit? t with
  | none => none
  | some (u, rest) => if isHigh u then pair? u rest else if isLow u then none else some (Char.ofNat u, rest)

/-- The escapes of one letter. -/
def short? (c : Char) : Option Char :=
  if c = '"' ∨ c = '\\' ∨ c = '/' then some c
  else if c = 'b' then some '\x08'
  else if c = 'f' then some '\x0c'
  else if c = 'n' then some '\n'
  else if c = 'r' then some '\r'
  else if c = 't' then some '\t'
  else none

/-- The character that an escape behind its backslash stands for, and what is behind it. -/
def escape? : Text → Option (Char × Text)
  | [] => none
  | c :: rest => if c = 'u' then unicode? rest else (short? c).map (fun x => (x, rest))

/-- One character of a string, and what is behind it. -/
def char? : Text → Option (Char × Text)
  | [] => none
  | c :: rest =>
    if c = '\\' then escape? rest else if c = '"' ∨ c.toNat < 0x20 then none else some (c, rest)

theorem exists_of_map {α β : Type} {x : Option (α × Text)} {f : α → β} {b : β} {rest : Text}
    (h : x.map (fun p => (f p.1, p.2)) = some (b, rest)) : ∃ a, x = some (a, rest) := by
  obtain ⟨⟨a, t⟩, hx, heq⟩ := Option.map_eq_some_iff.1 h
  obtain rfl : t = rest := congrArg Prod.snd heq
  exact ⟨a, hx⟩

theorem length_unit? {t rest : Text} {u : Nat} (h : unit? t = some (u, rest)) : rest.length < t.length := by
  unfold unit? at h
  split at h
  · simp only [Option.bind_eq_bind, Option.bind_eq_some_iff, Option.pure_def, Option.some.injEq, Prod.mk.injEq] at h
    obtain ⟨_, -, _, -, _, -, _, -, -, rfl⟩ := h
    simp only [List.length_cons]
    omega
  · cases h

theorem length_pair? {high : Nat} {t rest : Text} {c : Char} (h : pair? high t = some (c, rest)) :
    rest.length < t.length := by
  unfold pair? at h
  split at h
  · split at h
    · cases h
    · rename_i hunit
      have hlen := length_unit? hunit
      split at h
      · obtain rfl : _ = rest := congrArg Prod.snd (Option.some.inj h)
        simp only [List.length_cons]
        omega
      · cases h
  · cases h

theorem length_unicode? {t rest : Text} {c : Char} (h : unicode? t = some (c, rest)) : rest.length < t.length := by
  unfold unicode? at h
  split at h
  · cases h
  · rename_i hunit
    have hlen := length_unit? hunit
    split at h
    · exact Nat.lt_trans (length_pair? h) hlen
    · split at h
      · cases h
      · cases h
        exact hlen

theorem length_escape? {t rest : Text} {c : Char} (h : escape? t = some (c, rest)) : rest.length < t.length := by
  cases t with
  | nil => cases h
  | cons e t =>
    rw [List.length_cons, Nat.lt_succ_iff]
    rw [escape?] at h
    split at h
    · exact Nat.le_of_lt (length_unicode? h)
    · obtain ⟨_, -, heq⟩ := Option.map_eq_some_iff.1 h
      cases heq
      exact Nat.le_refl _

/-- **A character of a string takes a place.** -/
theorem length_char? {t rest : Text} {c : Char} (h : char? t = some (c, rest)) : rest.length < t.length := by
  cases t with
  | nil => cases h
  | cons x t =>
    rw [List.length_cons, Nat.lt_succ_iff]
    rw [char?] at h
    split at h
    · exact Nat.le_of_lt (length_escape? h)
    · split at h
      · cases h
      · cases h
        exact Nat.le_refl _

/-- A string behind its opening quote, and what is behind the closing one. -/
def string? (t : Text) : Option (Text × Text) :=
  if t.head? = some '"' then some ([], t.tail)
  else match _h : char? t with
    | none => none
    | some (c, rest) => (string? rest).map (fun p => (c :: p.1, p.2))
termination_by t.length
decreasing_by exact length_char? _h

theorem length_string? {t s rest : Text} (h : string? t = some (s, rest)) : rest.length ≤ t.length := by
  induction t using string?.induct generalizing s with
  | case1 t hquote =>
    rw [string?, if_pos hquote] at h
    cases h
    rw [List.length_tail]
    omega
  | case2 t hquote hc =>
    rw [string?, if_neg hquote] at h
    split at h
    · cases h
    · rename_i hc'
      rw [hc] at hc'
      cases hc'
  | case3 t hquote c behind hc ih =>
    rw [string?, if_neg hquote] at h
    split at h
    · cases h
    · rename_i hc'
      rw [hc] at hc'
      cases hc'
      obtain ⟨s', hs⟩ := exists_of_map h
      exact Nat.le_trans (ih hs) (Nat.le_of_lt (length_char? hc))

/-! ## Numbers -/

def digits? (t : Text) : Option (Text × Text) :=
  if t.takeWhile Char.isDigit = [] then none else some (t.takeWhile Char.isDigit, t.dropWhile Char.isDigit)

/-- Digits without a zero in front of others. -/
def whole? (t : Text) : Option (Text × Text) :=
  (digits? t).filter (fun p => p.1.head? ≠ some '0' || p.1 = ['0'])

def fraction? (t : Text) : Option (Text × Text) :=
  if t.head? = some '.' then (digits? t.tail).map (fun p => ('.' :: p.1, p.2)) else some ([], t)

def isSign (c : Char) : Bool := c == '+' || c == '-'

def isExponent (c : Char) : Bool := c == 'e' || c == 'E'

/-- An exponent, if there is one: its letter, at most one sign, and digits. -/
def exponent? (t : Text) : Option (Text × Text) :=
  if t.head?.any isExponent then
    let sign := (t.tail.take 1).filter isSign
    (digits? (t.tail.drop sign.length)).map (fun p => (t.take 1 ++ sign ++ p.1, p.2))
  else some ([], t)

/-- A number: whole unless it has a fraction or an exponent. -/
def number (minus : Bool) (whole tail : Text) : Json :=
  if tail = [] then .int (if minus then -(Nat.ofDigitChars 10 whole 0) else Nat.ofDigitChars 10 whole 0)
  else .real ((if minus then ['-'] else []) ++ whole ++ tail)

/-- A number behind its sign, and what is behind it. -/
def unsigned? (minus : Bool) (t : Text) : Option (Json × Text) := do
  let (whole, t) ← whole? t
  let (fraction, t) ← fraction? t
  let (exponent, t) ← exponent? t
  return (number minus whole (fraction ++ exponent), t)

def number? (t : Text) : Option (Json × Text) :=
  if t.head? = some '-' then unsigned? true t.tail else unsigned? false t

theorem length_digits? {t ds rest : Text} (h : digits? t = some (ds, rest)) : rest.length < t.length := by
  unfold digits? at h
  split at h
  · cases h
  · rename_i hds
    cases h
    have hlen := length_takeWhile_add_length_dropWhile Char.isDigit t
    have hpos := List.length_pos_iff.2 hds
    omega

theorem length_fraction? {t f rest : Text} (h : fraction? t = some (f, rest)) : rest.length ≤ t.length := by
  unfold fraction? at h
  split at h
  · obtain ⟨ds, hds⟩ := exists_of_map h
    have hlen := length_digits? hds
    rw [List.length_tail] at hlen
    omega
  · cases h
    exact Nat.le_refl _

theorem length_exponent? {t e rest : Text} (h : exponent? t = some (e, rest)) : rest.length ≤ t.length := by
  unfold exponent? at h
  split at h
  · obtain ⟨ds, hds⟩ := exists_of_map h
    have hlen := length_digits? hds
    rw [List.length_drop, List.length_tail] at hlen
    omega
  · cases h
    exact Nat.le_refl _

theorem length_unsigned? {minus : Bool} {t rest : Text} {v : Json} (h : unsigned? minus t = some (v, rest)) :
    rest.length < t.length := by
  simp only [unsigned?, Option.bind_eq_bind, Option.bind_eq_some_iff, Option.pure_def] at h
  obtain ⟨⟨whole, t₁⟩, hwhole, ⟨fraction, t₂⟩, hfraction, ⟨exponent, t₃⟩, hexponent, heq⟩ := h
  obtain rfl : t₃ = rest := congrArg Prod.snd (Option.some.inj heq)
  have h₁ : t₁.length < t.length := length_digits? (Option.filter_eq_some_iff.1 hwhole).1
  have h₂ : t₂.length ≤ t₁.length := length_fraction? hfraction
  have h₃ : t₃.length ≤ t₂.length := length_exponent? hexponent
  omega

theorem length_number? {t rest : Text} {v : Json} (h : number? t = some (v, rest)) : rest.length < t.length := by
  unfold number? at h
  split at h
  · have hlen := length_unsigned? h
    rw [List.length_tail] at hlen
    omega
  · exact length_unsigned? h

/-! ## Pieces -/

def words : List (Text × Json) :=
  [("true".toList, .flag true), ("false".toList, .flag false), ("null".toList, .null)]

/-- One of the three words that stand for a value. -/
def word? (t : Text) : Option (Json × Text) :=
  (words.find? (fun w => w.1.isPrefixOf t)).map (fun w => (w.2, t.drop w.1.length))

/-- A value without brackets, and what is behind it. -/
def scalar? (t : Text) : Option (Json × Text) :=
  if t.head? = some '"' then (string? t.tail).map (fun p => (.text p.1, p.2))
  else if t.head?.any (fun c => c == '-' || c.isDigit) then number? t
  else word? t

/-- What a text is cut into. -/
inductive Piece where
  | openList
  | closeList
  | openMap
  | closeMap
  | comma
  | colon
  | scalar (v : Json)

def punctuation? (c : Char) : Option Piece :=
  if c = '[' then some .openList
  else if c = ']' then some .closeList
  else if c = '{' then some .openMap
  else if c = '}' then some .closeMap
  else if c = ',' then some .comma
  else if c = ':' then some .colon
  else none

def isSpace (c : Char) : Bool := c == ' ' || c == '\t' || c == '\n' || c == '\r'

theorem length_word? {t rest : Text} {v : Json} (h : word? t = some (v, rest)) : rest.length < t.length := by
  obtain ⟨w, hw, heq⟩ := Option.map_eq_some_iff.1 h
  cases heq
  have hmem := List.mem_of_find?_eq_some hw
  have hpos : 0 < w.1.length := by
    have hwords : ∀ w ∈ words, 0 < w.1.length := by simp [words]
    exact hwords w hmem
  have hprefix : w.1.isPrefixOf t = true := by simpa using List.find?_some hw
  have hle := (List.isPrefixOf_iff_prefix.1 hprefix).length_le
  rw [List.length_drop]
  omega

/-- **A scalar takes a place.** -/
theorem length_scalar? {t rest : Text} {v : Json} (h : scalar? t = some (v, rest)) : rest.length < t.length := by
  unfold scalar? at h
  split at h
  · rename_i hquote
    obtain ⟨s, hs⟩ := exists_of_map h
    have hlen := length_string? hs
    cases t with
    | nil => cases hquote
    | cons c t =>
      rw [List.length_cons]
      exact Nat.lt_succ_of_le hlen
  · split at h
    · exact length_number? h
    · exact length_word? h

def pieces : Text → Option (List Piece)
  | [] => some []
  | c :: t =>
    if isSpace c then pieces t
    else match punctuation? c with
      | some p => (pieces t).map (p :: ·)
      | none => match _h : scalar? (c :: t) with
        | none => none
        | some (v, rest) => (pieces rest).map (.scalar v :: ·)
termination_by t => t.length
decreasing_by
  · exact Nat.lt_succ_self _
  · exact Nat.lt_succ_self _
  · exact length_scalar? _h

/-! ## Values -/

/-- A list or a mapping that is still open, with what it holds so far. -/
inductive Frame where
  | list (before : List Json)
  | map (before : List (Text × Json)) (key : Text)

inductive Place where
  | value
  /-- A value, or the end of a list without items. -/
  | item
  /-- A key, or the end of a mapping without entries. -/
  | entry
  | key (before : List (Text × Json))
  | colon (before : List (Text × Json)) (key : Text)
  | behind (v : Json)

abbrev State := Place × List Frame

/-- Where a value has to begin. -/
def begin (frames : List Frame) : Piece → Option State
  | .scalar v => some (.behind v, frames)
  | .openList => some (.item, frames)
  | .openMap => some (.entry, frames)
  | _ => none

def step : State → Piece → Option State
  | (.value, s), p => begin s p
  | (.item, s), .closeList => some (.behind (.list []), s)
  | (.item, s), p => begin (.list [] :: s) p
  | (.entry, s), .closeMap => some (.behind (.map []), s)
  | (.entry, s), .scalar (.text key) => some (.colon [] key, s)
  | (.key before, s), .scalar (.text key) => some (.colon before key, s)
  | (.colon before key, s), .colon => some (.value, .map before key :: s)
  | (.behind v, .list before :: s), .comma => some (.value, .list (before ++ [v]) :: s)
  | (.behind v, .list before :: s), .closeList => some (.behind (.list (before ++ [v])), s)
  | (.behind v, .map before key :: s), .comma => some (.key (before ++ [(key, v)]), s)
  | (.behind v, .map before key :: s), .closeMap => some (.behind (.map (before ++ [(key, v)])), s)
  | _, _ => none

/-- The value of a run that is at its end, with nothing open. -/
def accept? : State → Option Json
  | (.behind v, []) => some v
  | _ => none

def run (s : State) (ps : List Piece) : Option State := ps.foldlM step s

/-- **What a JSON text says**, or none when it is not one. -/
def read (t : Text) : Option Json := do
  let ps ← pieces t
  let s ← run (.value, []) ps
  accept? s

theorem run_cons {s s' : State} {p : Piece} (h : step s p = some s') (ps : List Piece) :
    run s (p :: ps) = run s' ps := by
  rw [run, List.foldlM_cons, h]
  rfl

theorem run_append {s s' : State} {ps : List Piece} (h : run s ps = some s') (ps' : List Piece) :
    run s (ps ++ ps') = run s' ps' := by
  rw [run, List.foldlM_append, show ps.foldlM step s = some s' from h]
  rfl

end Json
end Statechart
