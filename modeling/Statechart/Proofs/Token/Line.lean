import Statechart.Proofs.Text.Lines
import Statechart.Proofs.Token.Movement
import Statechart.Token.Lexer
/-!
# Line — lexing stays in its line

A lexeme that does not begin with a line feed covers none, and is decided before the next one.  So the tokens of a line
are a function of the line alone (`lineWords`), and the lexer that stands before a line emits these and stands behind
it (`tokenizeFrom_line`).
-/
namespace Statechart

open Text (Breaks)

/-- The text is at its end or at the end of a line. -/
def EndsLine (t : Text) : Prop := ∀ c ∈ t.head?, isLineEnd c = true

theorem Text.Breaks.endsLine {t : Text} (h : Breaks t) : EndsLine t := by
  intro c hc
  rw [h c hc]
  rfl

theorem EndsLine.stops {t : Text} (h : EndsLine t) {p : Char → Bool} (hp : p '\n' = false ∧ p '\r' = false) :
    ∀ c ∈ t.head?, p c = false := by
  intro c hc
  have hend := h c hc
  simp only [isLineEnd, Bool.or_eq_true, beq_iff_eq] at hend
  rcases hend with rfl | rfl
  · exact hp.1
  · exact hp.2

theorem EndsLine.takeWhile {t : Text} (h : EndsLine t) {p : Char → Bool} (hp : p '\n' = false ∧ p '\r' = false)
    (l : Text) : (l ++ t).takeWhile p = l.takeWhile p :=
  takeWhile_append_of_head (h.stops hp) l

theorem EndsLine.dropWhile {t : Text} (h : EndsLine t) {p : Char → Bool} (hp : p '\n' = false ∧ p '\r' = false)
    (l : Text) : (l ++ t).dropWhile p = l.dropWhile p ++ t :=
  dropWhile_append_of_head (h.stops hp) l

namespace Lexeme

theorem startsName_append {t : Text} (ht : EndsLine t) (l : Text) : startsName (l ++ t) = startsName l := by
  cases l with
  | cons x l => rfl
  | nil =>
    cases t with
    | nil => rfl
    | cons x t => exact ht.stops (p := isNameChar) (by decide) x rfl

theorem label_append {t : Text} (ht : EndsLine t) (kind : TokenKind) (c : Char) (l : Text) :
    label kind c (l ++ t) = label kind c l := by
  have hf : ((l ++ t).dropWhile isFiller).takeWhile isNameChar = (l.dropWhile isFiller).takeWhile isNameChar := by
    rw [ht.dropWhile (by decide), ht.takeWhile (by decide)]
  have hs : (l ++ t).takeWhile isFiller = l.takeWhile isFiller := ht.takeWhile (by decide) l
  unfold label label?
  rw [List.tail_cons, List.tail_cons, hf, hs]

theorem word_append {t : Text} (ht : EndsLine t) (c : Char) (l : Text) : word c (l ++ t) = word c l := by
  have hhead : (l ++ t).head? = some '>' ↔ l.head? = some '>' := by
    cases l with
    | cons x l => rfl
    | nil =>
      constructor
      · intro h
        exact absurd (ht _ h) (by decide)
      · exact nofun
  unfold word
  rw [ht.takeWhile (by decide)]
  simp only [hhead]

/-- **A lexeme is decided on its line.** -/
theorem first_append {t : Text} (ht : EndsLine t) (b : Bool) (c : Char) (l : Text) :
    first b c (l ++ t) = first b c l := by
  unfold first target comment
  rw [startsName_append ht, ht.takeWhile (by decide), ht.takeWhile (by decide), word_append ht]
  simp only [label_append ht]

theorem length_label_le (kind : TokenKind) (c : Char) (rest : Text) :
    (label kind c rest).length ≤ rest.length + 1 := by
  have hn := length_takeWhile_le isNameChar (rest.dropWhile isFiller)
  have hs := length_takeWhile_add_length_dropWhile isFiller rest
  unfold label label?
  by_cases h : ((c :: rest).tail.dropWhile isFiller).takeWhile isNameChar = []
  · simp only [h, ↓reduceIte]
    omega
  · simp only [h, ↓reduceIte]
    simp only [List.tail_cons]
    omega

theorem length_word_le (c : Char) (rest : Text) : (word c rest).length ≤ rest.length + 1 := by
  unfold word
  split
  · next h =>
    cases rest with
    | nil => cases h.2
    | cons x rest =>
      simp only [List.length_cons]
      omega
  · split
    · have hn := length_takeWhile_le isNameChar rest
      simp only [List.length_cons]
      omega
    · exact Nat.le_add_left 1 rest.length

theorem length_first_le (b : Bool) (c : Char) (rest : Text) : (first b c rest).length ≤ rest.length + 1 := by
  unfold first
  split
  · exact Nat.le_add_left 1 rest.length
  · split
    · split
      · exact Nat.succ_le_succ (length_takeWhile_le _ _)
      · exact Nat.succ_le_succ (length_takeWhile_le _ _)
    · split
      · exact Nat.le_add_left 1 rest.length
      · split
        · exact length_label_le _ _ _
        · exact length_word_le _ _

theorem isLayout_marker {c : Char} {kind : TokenKind} (h : marker? c = some kind) : kind.isLayout = false := by
  unfold marker? at h
  repeat' split at h
  all_goals first
    | cases h; rfl
    | cases h

theorem isLayout_label {c c' : Char} {kind : TokenKind} (h : labelKind? c = some kind) (rest : Text) :
    (label kind c' rest).kind.isLayout = false := by
  have hk : kind.isLayout = false := by
    unfold labelKind? at h
    repeat' split at h
    all_goals first
      | cases h; rfl
      | cases h
  unfold label
  split
  · exact hk
  · rfl

/-- Only a line feed is layout. -/
theorem isLayout_first {c : Char} (hc : c ≠ '\n') (b : Bool) (rest : Text) :
    (first b c rest).kind.isLayout = false := by
  unfold first
  rw [if_neg hc]
  split
  · split <;> rfl
  · split
    · next h => exact isLayout_marker h
    · split
      · next h => exact isLayout_label h rest
      · unfold word
        repeat' split
        all_goals rfl

end Lexeme

/-- A lexeme leaves less of the line. -/
theorem length_drop_first_lt {l rest : Text} {c : Char} (h : l.dropWhile isBlank = c :: rest) (b : Bool) :
    ((c :: rest).drop (Lexeme.first b c rest).length).length < l.length := by
  have hp := Lexeme.length_first_pos b c rest
  have hl := length_dropWhile_le isBlank l
  rw [h, List.length_cons] at hl
  rw [List.length_drop, List.length_cons]
  omega

/-- The tokens of the rest of a line, which stands from a column on. -/
def lineWords (number : Int) (afterArrow : Bool) (column : Nat) (l : Text) : List Token :=
  match _h : l.dropWhile isBlank with
  | [] => []
  | c :: rest =>
    let x := Lexeme.first afterArrow c rest
    let place := column + (l.takeWhile isBlank).length
    ⟨x.kind, number, place, x.text⟩ ::
      lineWords number (x.kind == .arrow) (place + x.length) ((c :: rest).drop x.length)
termination_by l.length
decreasing_by exact length_drop_first_lt _h afterArrow

theorem lineWords_of_blank {l : Text} (h : l.dropWhile isBlank = []) (number : Int) (b : Bool) (column : Nat) :
    lineWords number b column l = [] := by
  rw [lineWords]
  split
  · rfl
  · next h' => rw [h] at h'; cases h'

theorem lineWords_of_lexeme {l rest : Text} {c : Char} (h : l.dropWhile isBlank = c :: rest) (number : Int) (b : Bool)
    (column : Nat) :
    lineWords number b column l =
      ⟨(Lexeme.first b c rest).kind, number, ↑(column + (l.takeWhile isBlank).length), (Lexeme.first b c rest).text⟩ ::
        lineWords number ((Lexeme.first b c rest).kind == .arrow)
          (column + (l.takeWhile isBlank).length + (Lexeme.first b c rest).length)
          ((c :: rest).drop (Lexeme.first b c rest).length) := by
  rw [lineWords]
  split
  · next h' => rw [h] at h'; cases h'
  · next h' => rw [h] at h'; cases h'; rfl

namespace Lexer

theorem skip_of_stops {lx : Lexer} {p : Char → Bool} (h : ∀ x ∈ lx.cursor.ahead.head?, p x = false) :
    lx.skip p = lx := by
  unfold skip
  rw [Cursor.skip_of_stops h]

theorem skip_of_end {lx : Lexer} (h : lx.cursor.ahead = []) (p : Char → Bool) : lx.skip p = lx :=
  skip_of_stops (fun x hx => by rw [h] at hx; cases hx)

theorem tokenizeFrom_end {lx : Lexer} (h : lx.cursor.ahead = []) (b : Bool) :
    lx.tokenizeFrom b = ⟨lx.closeAll, none⟩ := by
  rw [tokenizeFrom, if_pos h]

theorem tokenizeFrom_blank {lx : Lexer} (h : lx.skipBlanks.cursor.ahead = []) :
    lx.tokenizeFrom false = ⟨lx.skipBlanks.closeAll, none⟩ := by
  by_cases ha : lx.cursor.ahead = []
  · have hs : lx.skipBlanks = lx := skip_of_end ha isBlank
    rw [tokenizeFrom_end ha, hs]
  · have he : lx.enterLine false = ⟨lx, none⟩ := rfl
    rw [tokenizeFrom, if_neg ha]
    simp only [he]
    split
    · rfl
    · next h' => cases h.symm.trans h'

theorem tokenizeFrom_lexeme {lx : Lexer} {c : Char} {rest : Text} (h : lx.skipBlanks.cursor.ahead = c :: rest) :
    lx.tokenizeFrom false =
      (lx.skipBlanks.take (Lexeme.first lx.skipBlanks.afterArrow c rest)).tokenizeFrom (c == '\n') := by
  have ha : lx.cursor.ahead ≠ [] := by
    intro ha
    have hs : lx.skipBlanks.cursor.ahead = lx.cursor.ahead.dropWhile isBlank := Cursor.skip_ahead _ _
    rw [hs, ha] at h
    cases h
  have he : lx.enterLine false = ⟨lx, none⟩ := rfl
  rw [tokenizeFrom, if_neg ha]
  simp only [he]
  split
  · next h' => cases h.symm.trans h'
  · next h' => cases h.symm.trans h'; rfl

/-- At the start of a line the indentation is read, and then the line is lexed as from its middle. -/
theorem tokenizeFrom_true (lx : Lexer) :
    lx.tokenizeFrom true =
      match lx.readIndentation.refusal with
      | some e => ⟨lx.readIndentation.lexer, some e⟩
      | none => lx.readIndentation.lexer.tokenizeFrom false := by
  by_cases ha : lx.cursor.ahead = []
  · have hr : lx.readIndentation = ⟨lx, none⟩ := by
      unfold readIndentation
      rw [skip_of_end ha, ha]
      rfl
    rw [hr, tokenizeFrom_end ha, tokenizeFrom_end ha]
  · have he : lx.enterLine true = lx.readIndentation := rfl
    rw [tokenizeFrom, if_neg ha]
    simp only [he]
    cases lx.readIndentation.refusal with
    | some e => rfl
    | none =>
      simp only
      split
      · next h => exact (tokenizeFrom_blank h).symm
      · next h => exact (tokenizeFrom_lexeme h).symm

/-- The lexer behind the rest of a line, with the tokens of it. -/
def passLine (lx : Lexer) (l : Text) : Lexer where
  cursor := lx.cursor.advanceBy l.length
  emitted := (lineWords lx.cursor.line lx.afterArrow lx.cursor.column l).reverse ++ lx.emitted
  blocks := lx.blocks

theorem skipBlanks_of_line {lx : Lexer} {l t : Text} (h : lx.cursor.ahead = l ++ t) (ht : Breaks t) :
    lx.skipBlanks = ⟨⟨(l.takeWhile isBlank).reverse ++ lx.cursor.behind, l.dropWhile isBlank ++ t, lx.cursor.line,
      lx.cursor.column + (l.takeWhile isBlank).length⟩, lx.emitted, lx.blocks⟩ := by
  show Lexer.mk (lx.cursor.skip isBlank) lx.emitted lx.blocks = _
  rw [Cursor.skip_of_inline _ (by decide), h, ht.takeWhile (by decide), ht.dropWhile (by decide)]

/-- Blanks are not layout and not a token: the arrow before them stays the last token. -/
theorem afterArrow_skipBlanks (lx : Lexer) : lx.skipBlanks.afterArrow = lx.afterArrow := by
  have hs : lx.skipBlanks = ⟨lx.cursor.skip isBlank, lx.emitted, lx.blocks⟩ := rfl
  rw [hs, Cursor.skip_of_inline _ (by decide)]
  rfl

theorem skipBlanks_skipBlanks (lx : Lexer) : lx.skipBlanks.skipBlanks = lx.skipBlanks := by
  refine skip_of_stops ?_
  have ha : lx.skipBlanks.cursor.ahead = lx.cursor.ahead.dropWhile isBlank := Cursor.skip_ahead _ _
  cases hd : lx.cursor.ahead.dropWhile isBlank with
  | nil =>
    rw [ha, hd]
    exact fun x hx => nomatch hx
  | cons c rest =>
    rw [ha, hd]
    rintro x ⟨⟩
    exact not_of_dropWhile_eq_cons hd

theorem tokenizeFrom_skipBlanks (lx : Lexer) : lx.skipBlanks.tokenizeFrom false = lx.tokenizeFrom false := by
  cases h : lx.skipBlanks.cursor.ahead with
  | nil =>
    have h' := h
    rw [← skipBlanks_skipBlanks] at h'
    rw [tokenizeFrom_blank h, tokenizeFrom_blank h', skipBlanks_skipBlanks]
  | cons c rest =>
    have h' := h
    rw [← skipBlanks_skipBlanks] at h'
    rw [tokenizeFrom_lexeme h, tokenizeFrom_lexeme h', skipBlanks_skipBlanks]

theorem take_of_line {lx : Lexer} {l t : Text} {x : Lexeme} (h : lx.cursor.ahead = l ++ t) (hl : '\n' ∉ l)
    (hx : x.length ≤ l.length) :
    lx.take x = ⟨⟨(l.take x.length).reverse ++ lx.cursor.behind, l.drop x.length ++ t, lx.cursor.line,
      lx.cursor.column + x.length⟩, ⟨x.kind, lx.cursor.line, lx.cursor.column, x.text⟩ :: lx.emitted, lx.blocks⟩ := by
  have hlen : (l.take x.length).length = x.length := by rw [List.length_take, Nat.min_eq_left hx]
  have hsplit : lx.cursor.ahead = l.take x.length ++ (l.drop x.length ++ t) := by
    rw [h, ← List.append_assoc, List.take_append_drop]
  have hn : '\n' ∉ l.take x.length := fun hm => hl (List.mem_of_mem_take hm)
  have hc := Cursor.advanceBy_of_inline hsplit hn
  rw [hlen] at hc
  unfold take advanceBy emit
  rw [hc]

/-- What stands behind an arrow is told by the kind of the token just taken. -/
theorem afterArrow_cons (c : Cursor) (x : Token) (ts : List Token) (blocks : List Nat) (hline : x.line = c.line)
    (hkind : x.kind.isLayout = false) : (Lexer.mk c (x :: ts) blocks).afterArrow = (x.kind == .arrow) := by
  unfold afterArrow previousOnLine
  simp only
  rw [if_pos ⟨hline, hkind⟩]

/-- **A line is lexed as if it stood alone**, whatever comes after the line feed behind it. -/
theorem tokenizeFrom_line (lx : Lexer) (l t : Text) (h : lx.cursor.ahead = l ++ t) (hl : '\n' ∉ l) (ht : Breaks t) :
    lx.tokenizeFrom false = (lx.passLine l).tokenizeFrom false := by
  have hskip := skipBlanks_of_line h ht
  have hlen := length_takeWhile_add_length_dropWhile isBlank l
  cases hd : l.dropWhile isBlank with
  | nil =>
    have hall : l.takeWhile isBlank = l := by
      have := List.takeWhile_append_dropWhile (p := isBlank) (l := l)
      rw [hd, List.append_nil] at this
      exact this
    have hpass : lx.passLine l = lx.skipBlanks := by
      unfold passLine
      rw [hskip, lineWords_of_blank hd, Cursor.advanceBy_of_inline h hl, hall, hd]
      rfl
    rw [hpass, tokenizeFrom_skipBlanks]
  | cons c rest =>
    rw [hd, List.length_cons] at hlen
    have hmem : ∀ x ∈ c :: rest, x ∈ l := fun x hx => mem_of_mem_dropWhile (hd ▸ hx)
    have hc : c ≠ '\n' := fun hc => hl (hc ▸ hmem c List.mem_cons_self)
    have hw : '\n' ∉ c :: rest := fun hm => hl (hmem _ hm)
    have hhere : lx.skipBlanks.cursor.ahead = (c :: rest) ++ t := by rw [hskip, hd]
    have harrow := afterArrow_skipBlanks lx
    have hle : (Lexeme.first lx.afterArrow c rest).length ≤ (c :: rest).length := Lexeme.length_first_le _ _ _
    have hkind := Lexeme.isLayout_first hc lx.afterArrow rest
    have hdrop := length_drop_first_lt hd lx.afterArrow
    have htake := take_of_line (x := Lexeme.first lx.afterArrow c rest) hhere hw hle
    have hahead : (lx.skipBlanks.take (Lexeme.first lx.afterArrow c rest)).cursor.ahead =
        (c :: rest).drop (Lexeme.first lx.afterArrow c rest).length ++ t := by rw [htake]
    rw [@tokenizeFrom_lexeme lx c (rest ++ t) hhere, harrow, Lexeme.first_append ht.endsLine, beq_eq_false_iff_ne.mpr hc,
      tokenizeFrom_line _ _ t hahead (fun hm => hw (List.mem_of_mem_drop hm)) ht]
    congr 1
    -- both lexers stand behind the line; the tokens are those of the first lexeme and then those of the rest
    have hrun : lx.cursor.run isBlank = l.takeWhile isBlank := by
      unfold Cursor.run
      rw [h, ht.takeWhile (by decide)]
    have hcursor : (lx.skipBlanks.take (Lexeme.first lx.afterArrow c rest)).cursor.advanceBy
        ((c :: rest).drop (Lexeme.first lx.afterArrow c rest).length).length = lx.cursor.advanceBy l.length := by
      show ((lx.cursor.advanceBy (lx.cursor.run isBlank).length).advanceBy _).advanceBy _ = _
      rw [hrun, ← Cursor.advanceBy_add, ← Cursor.advanceBy_add, List.length_drop, List.length_cons]
      congr 1
      rw [List.length_cons] at hle
      omega
    have hwords := lineWords_of_lexeme hd lx.cursor.line lx.afterArrow lx.cursor.column
    unfold passLine
    rw [hcursor, htake, afterArrow_cons _ _ _ _ rfl hkind, hwords, hskip, List.reverse_cons, List.append_assoc]
    rfl
termination_by l.length
decreasing_by exact hdrop

end Lexer
end Statechart
