import Statechart.Proofs.Token.Segment
/-!
# Row — a line as the grammar sees it

Of a line the grammar sees the words and, if the line counts for the layout, the width.  The number of the line and the
columns of its words are not in its row.
-/
namespace Statechart

open LineByLine (isSignificant)

/-- What the grammar sees of a token wherever it stands. -/
def Token.sign (t : Token) : TokenKind × Option Text := (t.kind, t.text)

/-- What the grammar sees of the rest of a line, behind an arrow or not. -/
def signs (afterArrow : Bool) (l : Text) : List (TokenKind × Option Text) :=
  (seen (lineWords 1 afterArrow 1 l)).map Token.sign

theorem signs_congr {ts us : List Token} (h : ts.map Token.sign = us.map Token.sign) :
    (seen ts).map Token.sign = (seen us).map Token.sign := by
  have hfilter : ∀ ts : List Token, (seen ts).map Token.sign = (ts.map Token.sign).filter (fun w => !w.1.isIgnored) := by
    intro ts
    rw [List.filter_map]
    rfl
  rw [hfilter, hfilter, h]

theorem lineWords_sign (number : Int) (b : Bool) (column column' : Nat) (l : Text) :
    (lineWords number b column l).map Token.sign = (lineWords number b column' l).map Token.sign := by
  cases hd : l.dropWhile isBlank with
  | nil => rw [lineWords_of_blank hd, lineWords_of_blank hd]
  | cons c rest =>
    have hdrop := length_drop_first_lt hd b
    rw [lineWords_of_lexeme hd, lineWords_of_lexeme hd, List.map_cons, List.map_cons, lineWords_sign]
    rfl
termination_by l.length
decreasing_by exact hdrop

theorem signs_eq (b : Bool) (column : Nat) (l : Text) : (seen (lineWords 1 b column l)).map Token.sign = signs b l :=
  signs_congr (lineWords_sign 1 b column 1 l)

theorem signs_of_blank {l : Text} (h : l.dropWhile isBlank = []) (b : Bool) : signs b l = [] := by
  unfold signs
  rw [lineWords_of_blank h]
  rfl

theorem signs_of_lexeme {l rest : Text} {c : Char} (h : l.dropWhile isBlank = c :: rest) (b : Bool) :
    signs b l = (if (Lexeme.first b c rest).kind.isIgnored then [] else
      [((Lexeme.first b c rest).kind, (Lexeme.first b c rest).text)]) ++
        signs ((Lexeme.first b c rest).kind == .arrow) ((c :: rest).drop (Lexeme.first b c rest).length) := by
  have hcons : ∀ (t : Token) (ts : List Token), (seen (t :: ts)).map Token.sign =
      (if t.kind.isIgnored then [] else [t.sign]) ++ (seen ts).map Token.sign := by
    intro t ts
    cases hk : t.kind.isIgnored <;> simp [seen, hk]
  have hl : signs b l = (seen (lineWords 1 b 1 l)).map Token.sign := rfl
  rw [hl, lineWords_of_lexeme h, hcons, signs_eq]
  rfl

theorem signs_dropWhile (b : Bool) (l : Text) : signs b (l.dropWhile isBlank) = signs b l := by
  cases hd : l.dropWhile isBlank with
  | nil => rw [signs_of_blank hd, signs_of_blank rfl]
  | cons c rest =>
    have hhere : (c :: rest).dropWhile isBlank = c :: rest := by
      rw [List.dropWhile_cons, not_of_dropWhile_eq_cons hd]
      rfl
    rw [signs_of_lexeme hd, signs_of_lexeme hhere]

theorem Lexeme.not_ignored_first {c : Char} (hfeed : c ≠ '\n') (hhash : c ≠ '#') (b : Bool) (rest : Text) :
    (first b c rest).kind.isIgnored = false := by
  have hmarker : ∀ {kind : TokenKind}, marker? c = some kind → kind.isIgnored = false := by
    intro kind h
    unfold marker? at h
    repeat' split at h
    all_goals first
      | cases h; rfl
      | cases h
  have hlabel : ∀ {kind : TokenKind}, labelKind? c = some kind → kind.isIgnored = false := by
    intro kind h
    unfold labelKind? at h
    repeat' split at h
    all_goals first
      | cases h; rfl
      | cases h
  unfold first
  rw [if_neg hfeed, if_neg hhash]
  split
  · next h => exact hmarker h
  · split
    · next h =>
      unfold label
      split
      · exact hlabel h
      · rfl
    · unfold word
      repeat' split
      all_goals rfl

/-- What the grammar sees of a line. -/
structure Row where
  /-- The leading spaces, on a line that counts for the layout. -/
  width : Option Nat
  words : List (TokenKind × Option Text)
deriving DecidableEq, Repr

namespace Row

def ofLine (l : Text) : Row where
  width := if isSignificant l then some (LineByLine.width l) else none
  words := signs false l

/-- The words as tokens of line `i`. -/
def tokens (r : Row) (i : Nat) : List Token := r.words.map (fun w => ⟨w.1, i, 1, w.2⟩)

/-- No word is layout, and a line counts for the layout only if it has a word. -/
structure Sound (r : Row) : Prop where
  words : ∀ w ∈ r.words, w.1.isLayout = false
  counts : r.width ≠ none → r.words ≠ []

theorem sound_ofLine {l : Text} (hl : '\n' ∉ l) : (ofLine l).Sound := by
  refine ⟨fun w hw => ?_, fun hwidth => ?_⟩
  · obtain ⟨t, ht, rfl⟩ := List.mem_map.1 hw
    exact lineWords_not_layout 1 false 1 l hl t (List.mem_filter.1 ht).1
  · show signs false l ≠ []
    unfold ofLine isSignificant at hwidth
    cases hd : l.dropWhile isBlank with
    | nil =>
      rw [hd] at hwidth
      exact absurd rfl hwidth
    | cons c rest =>
      have hfeed : c ≠ '\n' := fun hc => hl (hc ▸ mem_of_mem_dropWhile (hd ▸ List.mem_cons_self))
      have hhash : c ≠ '#' := by
        rintro rfl
        rw [hd] at hwidth
        exact absurd rfl hwidth
      rw [signs_of_lexeme hd, Lexeme.not_ignored_first hfeed hhash]
      exact List.cons_ne_nil _ _

end Row

end Statechart
