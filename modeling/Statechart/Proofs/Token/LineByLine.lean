import Statechart.Proofs.Token.Line
/-!
# LineByLine — the tokens of a text, line by line

A description of lexing that has no cursor: a text is cut into its lines, every line is lexed alone, and only the widths
of the open blocks go from one line to the next.  The widths stand innermost first, the ground level of width zero
last.
-/
namespace Statechart

open Diagnostic (BadIndentation)
open Text (Breaks)

namespace LineByLine

/-- The leading spaces of a line. -/
def width (l : Text) : Nat := (l.takeWhile (· == ' ')).length

/-- A line counts for the layout unless it is blank or only a comment. -/
def isSignificant (l : Text) : Bool :=
  match l.dropWhile isBlank with
  | [] => false
  | c :: _ => c != '#'

theorem blanks_append_dropWhile (l : Text) : Text.blanks (width l) ++ l.dropWhile (· == ' ') = l := by
  have hblanks : l.takeWhile (· == ' ') = Text.blanks (width l) :=
    List.eq_replicate_of_mem fun c hc => beq_iff_eq.1 (List.all_eq_true.1 List.all_takeWhile c hc)
  rw [← hblanks, List.takeWhile_append_dropWhile]

/-- A line that counts has a character behind its spaces. -/
theorem blanks_of_isSignificant {l : Text} (h : isSignificant l = true) :
    ∃ c rest, c ≠ ' ' ∧ l = Text.blanks (width l) ++ c :: rest := by
  have hl := blanks_append_dropWhile l
  cases hd : l.dropWhile (· == ' ') with
  | nil =>
    have hblank : l.dropWhile isBlank = [] := by
      rw [← dropWhile_dropWhile_of_imp (p := (· == ' ')) (fun c hc => by simp [isBlank, hc]) l, hd]
      rfl
    simp [isSignificant, hblank] at h
  | cons c rest =>
    rw [hd] at hl
    exact ⟨c, rest, by simpa using not_of_dropWhile_eq_cons hd, hl.symm⟩

/-- The widths that a line of width `w` closes. -/
def closes (w : Nat) : Nat → Bool := fun v => decide (w < v)

/-- The layout tokens at the start of line `i`, and the widths that are open in it. -/
def enter (source : Text) (stack : List Nat) (i : Nat) (l : Text) : Except BadIndentation (List Token × List Nat) :=
  if isSignificant l = false then .ok ([], stack)
  else if stack.headD 0 < width l then .ok ([⟨.indent, i, 1, none⟩], width l :: stack)
  else if width l < stack.headD 0 then
    if width l ∈ stack then
      .ok (List.replicate (stack.takeWhile (closes (width l))).length ⟨.dedent, i, 1, none⟩,
        stack.dropWhile (closes (width l)))
    else .error { width := width l, stack := stack.reverse.map Int.ofNat, line := i, source := some source }
  else .ok ([], stack)

/-- The tokens of a line lexed alone, without the layout, as tokens of line `i`. -/
def words (i : Nat) (l : Text) : Except BadIndentation (List Token) := do
  let ts ← tokenize l
  return (ts.filter (fun t => !t.kind.isLayout)).map (fun t => { t with line := i })

/-- The tokens of the lines from line `i` on. -/
def tokensFrom (source : Text) (stack : List Nat) (i : Nat) : List Text → Except BadIndentation (List Token)
  | [] => .ok []
  | [l] => do
    let (entry, stack) ← enter source stack i l
    let ws ← words i l
    return entry ++ ws ++ List.replicate (stack.length - 1) ⟨.dedent, i, ↑(l.length + 1), none⟩
  | l :: l' :: ls => do
    let (entry, stack) ← enter source stack i l
    let ws ← words i l
    let later ← tokensFrom source stack (i + 1) (l' :: ls)
    return entry ++ ws ++ ⟨.newline, i, ↑(l.length + 1), none⟩ :: later

def tokens (t : Text) : Except BadIndentation (List Token) := tokensFrom t [0] 1 (Text.lines t)

end LineByLine

open LineByLine (width isSignificant closes enter words tokensFrom)

theorem lineWords_not_layout (number : Int) (b : Bool) (column : Nat) (l : Text) (hl : '\n' ∉ l) :
    ∀ x ∈ lineWords number b column l, x.kind.isLayout = false := by
  cases hd : l.dropWhile isBlank with
  | nil =>
    rw [lineWords_of_blank hd]
    exact fun x hx => nomatch hx
  | cons c rest =>
    have hmem : ∀ x ∈ c :: rest, x ∈ l := fun x hx => mem_of_mem_dropWhile (hd ▸ hx)
    have hdrop := length_drop_first_lt hd b
    have ih := lineWords_not_layout number ((Lexeme.first b c rest).kind == .arrow)
      (column + (l.takeWhile isBlank).length + (Lexeme.first b c rest).length)
      ((c :: rest).drop (Lexeme.first b c rest).length) (fun hm => hl (hmem _ (List.mem_of_mem_drop hm)))
    rw [lineWords_of_lexeme hd]
    intro x hx
    rcases List.mem_cons.mp hx with rfl | hx
    · exact Lexeme.isLayout_first (fun hc => hl (hc ▸ hmem c List.mem_cons_self)) b rest
    · exact ih x hx
termination_by l.length
decreasing_by exact hdrop

/-- The number of a line does not decide how it is lexed. -/
theorem lineWords_renumber (m n : Int) (b : Bool) (column : Nat) (l : Text) :
    (lineWords m b column l).map (fun t => { t with line := n }) = lineWords n b column l := by
  cases hd : l.dropWhile isBlank with
  | nil =>
    rw [lineWords_of_blank hd, lineWords_of_blank hd]
    rfl
  | cons c rest =>
    have hdrop := length_drop_first_lt hd b
    rw [lineWords_of_lexeme hd, lineWords_of_lexeme hd, List.map_cons, lineWords_renumber]
termination_by l.length
decreasing_by exact hdrop

theorem isBlankLine_skip_spaces {l t : Text} (hl : '\n' ∉ l) (ht : Breaks t) :
    isBlankLine ((l ++ t).dropWhile (· == ' ')) = !isSignificant l := by
  have hd : ((l ++ t).dropWhile (· == ' ')).dropWhile isBlank = l.dropWhile isBlank ++ t := by
    rw [dropWhile_dropWhile_of_imp, ht.dropWhile (by decide)]
    intro x hx
    simp [isBlank, hx]
  unfold isBlankLine isSignificant
  rw [hd]
  cases hb : l.dropWhile isBlank with
  | nil =>
    cases t with
    | nil => rfl
    | cons c t =>
      rw [ht c rfl]
      rfl
  | cons c rest =>
    have hm : c ∈ l := mem_of_mem_dropWhile (hb ▸ List.mem_cons_self)
    have hc : c ≠ '\n' := fun hc => hl (hc ▸ hm)
    show (c == '\n' || c == '#') = !(c != '#')
    rw [beq_eq_false_iff_ne.mpr hc, bne, Bool.not_not, Bool.false_or]

theorem isLayout_of_enter {source : Text} {stack stack' : List Nat} {i : Nat} {l : Text} {entry : List Token}
    (h : enter source stack i l = .ok (entry, stack')) : ∀ x ∈ entry, x.kind.isLayout = true := by
  unfold enter at h
  repeat' split at h
  all_goals cases h
  · exact fun x hx => nomatch hx
  · intro x hx
    rw [List.mem_singleton.mp hx]
    rfl
  · intro x hx
    rw [List.eq_of_mem_replicate hx]
    rfl
  · exact fun x hx => nomatch hx

namespace Lexer

/-- The widths of the open blocks, innermost first, and the ground level. -/
def levels (lx : Lexer) : List Nat := lx.blocks ++ [0]

theorem stack_eq_levels (lx : Lexer) : lx.stack = lx.levels.reverse := by
  unfold stack levels
  rw [List.reverse_append]
  rfl

theorem mem_stack (lx : Lexer) (w : Nat) : w ∈ lx.stack ↔ w ∈ lx.levels := by
  rw [stack_eq_levels, List.mem_reverse]

theorem headD_levels (lx : Lexer) : lx.levels.headD 0 = lx.indent := by
  unfold levels indent
  cases lx.blocks <;> rfl

/-- No line closes the ground level. -/
theorem ground_stays (w : Nat) : ∀ x ∈ ([0] : List Nat).head?, closes w x = false := by
  intro x hx
  cases hx
  simp [closes]

theorem takeWhile_levels (lx : Lexer) (w : Nat) :
    lx.levels.takeWhile (closes w) = lx.blocks.takeWhile (closes w) :=
  takeWhile_append_of_head (ground_stays w) _

theorem dropWhile_levels (lx : Lexer) (w : Nat) :
    lx.levels.dropWhile (closes w) = lx.blocks.dropWhile (closes w) ++ [0] :=
  dropWhile_append_of_head (ground_stays w) _

/-- What entering a line does to a lexer at its start. -/
theorem readIndentation_eq_enter {lx : Lexer} {l t : Text} (h : lx.cursor.ahead = l ++ t) (hl : '\n' ∉ l)
    (ht : Breaks t) :
    lx.readIndentation =
      match enter lx.cursor.text lx.levels lx.cursor.line l with
      | .error e => ⟨lx.skip (· == ' '), some e⟩
      | .ok (entry, stack) =>
        ⟨⟨lx.cursor.skip (· == ' '), entry.reverse ++ lx.emitted, stack.dropLast⟩, none⟩ := by
  have hahead : (lx.skip (· == ' ')).cursor.ahead = (l ++ t).dropWhile (· == ' ') := by
    show (lx.cursor.skip (· == ' ')).ahead = _
    rw [Cursor.skip_ahead, h]
  have hwidth : (lx.cursor.run (· == ' ')).length = width l := by
    unfold Cursor.run width
    rw [h, ht.takeWhile (by decide)]
  have hdrop : lx.levels.dropLast = lx.blocks := List.dropLast_concat
  have hline : (lx.skip (· == ' ')).cursor.line = lx.cursor.line := by
    show (lx.cursor.skip (· == ' ')).line = _
    rw [Cursor.skip_of_inline _ (by decide)]
  unfold readIndentation
  rw [hahead, isBlankLine_skip_spaces hl ht, hwidth]
  unfold enter
  rw [headD_levels]
  by_cases hs : isSignificant l = false
  · rw [if_pos hs, hs]
    simp only [hdrop]
    rfl
  · rw [if_neg hs, if_neg (by simpa using hs)]
    unfold settle
    show (if lx.indent < width l then _ else if width l < lx.indent then if width l ∈ lx.stack then _ else _ else _) = _
    by_cases hopen : lx.indent < width l
    · rw [if_pos hopen, if_pos hopen]
      show _ = (⟨⟨_, _, (width l :: lx.levels).dropLast⟩, none⟩ : Progress)
      rw [levels, ← List.cons_append, List.dropLast_concat, hline]
      rfl
    · rw [if_neg hopen, if_neg hopen]
      by_cases hclose : width l < lx.indent
      · rw [if_pos hclose, if_pos hclose]
        by_cases hm : width l ∈ lx.levels
        · rw [if_pos ((mem_stack lx _).mpr hm), if_pos hm]
          show _ = (⟨⟨_, _, (lx.levels.dropWhile (closes (width l))).dropLast⟩, none⟩ : Progress)
          rw [takeWhile_levels, dropWhile_levels, List.dropLast_concat, List.reverse_replicate,
            ← Cursor.drop_length_takeWhile, hline]
          rfl
        · rw [if_neg (fun h' => hm ((mem_stack lx _).mp h')), if_neg hm]
          have htext : (lx.skip (· == ' ')).cursor.text = lx.cursor.text := Cursor.advanceBy_text _ _
          unfold refuse
          rw [hline, htext]
          show (⟨_, some ⟨_, lx.stack.map Int.ofNat, _, _⟩⟩ : Progress) = _
          rw [stack_eq_levels]
      · rw [if_neg hclose, if_neg hclose]
        simp only [hdrop]
        rfl

theorem afterArrow_of_layout {lx : Lexer} {x : Token} {ts : List Token} (h : lx.emitted = x :: ts)
    (hx : x.kind.isLayout = true) : lx.afterArrow = false := by
  unfold afterArrow previousOnLine
  rw [h]
  simp [hx]

/-- Behind the layout of a line start there is no arrow. -/
theorem afterArrow_of_entry {lx : Lexer} {entry : List Token} (h : ∀ x ∈ entry, x.kind.isLayout = true)
    (hfresh : lx.afterArrow = false) (blocks : List Nat) :
    (Lexer.mk lx.cursor (entry.reverse ++ lx.emitted) blocks).afterArrow = false := by
  cases he : entry.reverse with
  | nil => exact hfresh
  | cons x ts => exact afterArrow_of_layout rfl (h x (List.mem_reverse.mp (he ▸ List.mem_cons_self)))

/-- The spaces of the indentation are blanks like others. -/
theorem tokenizeFrom_skip_spaces (c : Cursor) (emitted : List Token) (blocks : List Nat) :
    (Lexer.mk (c.skip (· == ' ')) emitted blocks).tokenizeFrom false =
      (Lexer.mk c emitted blocks).tokenizeFrom false := by
  have himp : ∀ x : Char, (x == ' ') = true → isBlank x = true := by
    intro x hx
    simp [isBlank, hx]
  have hskip : (Lexer.mk (c.skip (· == ' ')) emitted blocks).skipBlanks = (Lexer.mk c emitted blocks).skipBlanks := by
    show Lexer.mk ((c.skip (· == ' ')).skip isBlank) emitted blocks = Lexer.mk (c.skip isBlank) emitted blocks
    have hlen := length_takeWhile_of_imp himp c.ahead
    unfold Cursor.skip Cursor.run
    rw [← Cursor.advanceBy_add, ← hlen, Cursor.advanceBy_ahead, Cursor.drop_length_takeWhile]
  rw [← tokenizeFrom_skipBlanks, hskip, tokenizeFrom_skipBlanks]

/-- **What a line does to a lexer at its start.** -/
theorem tokenize_line {lx : Lexer} {l t : Text} (h : lx.cursor.ahead = l ++ t) (hl : '\n' ∉ l) (ht : Breaks t)
    (hcolumn : lx.cursor.column = 1) (hfresh : lx.afterArrow = false) :
    lx.tokenize =
      match enter lx.cursor.text lx.levels lx.cursor.line l with
      | .error e => ⟨lx.skip (· == ' '), some e⟩
      | .ok (entry, stack) =>
        (Lexer.mk (lx.cursor.advanceBy l.length)
          ((lineWords lx.cursor.line false 1 l).reverse ++ (entry.reverse ++ lx.emitted)) stack.dropLast).tokenizeFrom
          false := by
  unfold tokenize
  rw [tokenizeFrom_true, readIndentation_eq_enter h hl ht]
  cases he : enter lx.cursor.text lx.levels lx.cursor.line l with
  | error e => rfl
  | ok entered =>
    obtain ⟨entry, stack⟩ := entered
    simp only
    rw [tokenizeFrom_skip_spaces,
      tokenizeFrom_line ⟨lx.cursor, entry.reverse ++ lx.emitted, stack.dropLast⟩ l t h hl ht]
    unfold passLine
    rw [afterArrow_of_entry (isLayout_of_enter he) hfresh, hcolumn]

theorem tokenizeFrom_break {lx : Lexer} {t : Text} (h : lx.cursor.ahead = '\n' :: t) :
    lx.tokenizeFrom false = tokenize ⟨⟨'\n' :: lx.cursor.behind, t, lx.cursor.line + 1, 1⟩,
      ⟨.newline, lx.cursor.line, lx.cursor.column, none⟩ :: lx.emitted, lx.blocks⟩ := by
  have hs : lx.skipBlanks = lx := by
    refine skip_of_stops ?_
    rw [h]
    rintro x ⟨⟩
    rfl
  have ha : lx.skipBlanks.cursor.ahead = '\n' :: t := by rw [hs, h]
  rw [tokenizeFrom_lexeme ha, hs]
  show Lexer.tokenizeFrom true ⟨lx.cursor.advance, _, _⟩ = _
  rw [Cursor.advance_of_break h]
  rfl

namespace Progress

/-- What a run of the lexer answers. -/
def outcome : Progress → Except BadIndentation (List Token)
  | ⟨lx, none⟩ => .ok lx.tokens
  | ⟨_, some e⟩ => .error e

end Progress

theorem outcome_end {c : Cursor} (h : c.ahead = []) (ws entry emitted : List Token) (blocks : List Nat) :
    ((Lexer.mk c (ws.reverse ++ (entry.reverse ++ emitted)) blocks).tokenizeFrom false).outcome =
      .ok (emitted.reverse ++ (entry ++ ws ++ List.replicate blocks.length ⟨.dedent, c.line, c.column, none⟩)) := by
  rw [tokenizeFrom_end h]
  show Except.ok
    (List.replicate blocks.length (Token.mk _ _ _ _) ++ (ws.reverse ++ (entry.reverse ++ emitted))).reverse = _
  rw [List.reverse_append, List.reverse_replicate, List.reverse_append, List.reverse_append, List.reverse_reverse,
    List.reverse_reverse, List.append_assoc, List.append_assoc]
  simp only [List.append_assoc]

end Lexer

theorem tokenize_eq_outcome (t : Text) : tokenize t = (Lexer.start t).tokenize.outcome := by
  unfold tokenize
  cases (Lexer.start t).tokenize with
  | mk lx refusal => cases refusal <;> rfl

/-- The ground level stays the outermost. -/
theorem levels_of_enter {source : Text} {blocks stack : List Nat} {i : Nat} {l : Text} {entry : List Token}
    (h : enter source (blocks ++ [0]) i l = .ok (entry, stack)) : stack.dropLast ++ [0] = stack := by
  unfold enter at h
  repeat' split at h
  all_goals cases h
  · rw [List.dropLast_concat]
  · rw [← List.cons_append, List.dropLast_concat]
  · rw [dropWhile_append_of_head (Lexer.ground_stays _), List.dropLast_concat]
  · rw [List.dropLast_concat]

/-- Where no block is open no width is refused. -/
theorem enter_ground (source : Text) (i : Nat) (l : Text) :
    ∃ entry stack, enter source [0] i l = .ok (entry, stack) := by
  unfold enter
  repeat' split
  · exact ⟨_, _, rfl⟩
  · exact ⟨_, _, rfl⟩
  · exact ⟨_, _, rfl⟩
  · next h _ => exact absurd h (Nat.not_lt_zero _)
  · exact ⟨_, _, rfl⟩

/-- **A line alone is never refused**, and its tokens without the layout are `lineWords`. -/
theorem words_of_inline {l : Text} (hl : '\n' ∉ l) (i : Nat) : words i l = .ok (lineWords i false 1 l) := by
  obtain ⟨entry, stack, he⟩ := enter_ground l 1 l
  have hentry : entry.filter (fun t => !t.kind.isLayout) = [] := by
    rw [List.filter_eq_nil_iff]
    intro x hx
    rw [isLayout_of_enter he x hx]
    decide
  have hwords : (lineWords 1 false 1 l).filter (fun t => !t.kind.isLayout) = lineWords 1 false 1 l := by
    rw [List.filter_eq_self]
    intro x hx
    rw [lineWords_not_layout 1 false 1 l hl x hx]
    rfl
  have hahead : (Lexer.start l).cursor.ahead = l ++ [] := (List.append_nil l).symm
  have hline := @Lexer.tokenize_line (Lexer.start l) l [] hahead hl Text.breaks_nil rfl rfl
  have henter : enter (Lexer.start l).cursor.text (Lexer.start l).levels (Lexer.start l).cursor.line l =
    .ok (entry, stack) := he
  have hend : ((Lexer.start l).cursor.advanceBy l.length).ahead = [] := by
    rw [Cursor.advanceBy_ahead]
    exact List.drop_length
  have hdedents (n : Nat) (line col : Int) :
      (List.replicate n (⟨.dedent, line, col, none⟩ : Token)).filter (fun t => !t.kind.isLayout) = [] :=
    List.filter_replicate_of_neg (fun h => nomatch h)
  rw [henter] at hline
  simp only at hline
  unfold words
  rw [tokenize_eq_outcome, hline, Lexer.outcome_end hend]
  show Except.ok (List.map _ (List.filter _ ([] ++ (entry ++ lineWords 1 false 1 l ++ _)))) = _
  rw [List.nil_append, List.filter_append, List.filter_append, hentry, hwords, hdedents, List.nil_append,
    List.append_nil, lineWords_renumber]

/-- The tokens of the lines ahead of a lexer at a line start come after those it has. -/
theorem outcome_tokenize : ∀ (ls : List Text) (lx : Lexer), ls ≠ [] → lx.cursor.ahead = Text.unlines ls →
    (∀ l ∈ ls, '\n' ∉ l) → lx.cursor.column = 1 → lx.afterArrow = false →
    lx.tokenize.outcome = (tokensFrom lx.cursor.text lx.levels lx.cursor.line ls).map (lx.tokens ++ ·)
  | [], _, hne, _, _, _, _ => absurd rfl hne
  | [l], lx, _, h, hls, hcolumn, hfresh => by
    have hl : '\n' ∉ l := hls l List.mem_cons_self
    have hahead : lx.cursor.ahead = l ++ [] := by rw [h, Text.unlines_singleton, List.append_nil]
    have hcursor := Cursor.advanceBy_of_inline hahead hl
    rw [Lexer.tokenize_line hahead hl Text.breaks_nil hcolumn hfresh, tokensFrom]
    cases he : enter lx.cursor.text lx.levels lx.cursor.line l with
    | error e => rfl
    | ok entered =>
      obtain ⟨entry, stack⟩ := entered
      have hend : (lx.cursor.advanceBy l.length).ahead = [] := by rw [hcursor]
      simp only
      rw [Lexer.outcome_end hend, words_of_inline hl, hcursor, hcolumn, Nat.add_comm 1, List.length_dropLast]
      rfl
  | l :: l' :: ls, lx, _, h, hls, hcolumn, hfresh => by
    have hl : '\n' ∉ l := hls l List.mem_cons_self
    have hahead : lx.cursor.ahead = l ++ '\n' :: Text.unlines (l' :: ls) := by rw [h, Text.unlines_cons_cons]
    have hcursor := Cursor.advanceBy_of_inline hahead hl
    rw [Lexer.tokenize_line hahead hl (Text.breaks_cons _) hcolumn hfresh, tokensFrom]
    cases he : enter lx.cursor.text lx.levels lx.cursor.line l with
    | error e => rfl
    | ok entered =>
      obtain ⟨entry, stack⟩ := entered
      have hbreak : (lx.cursor.advanceBy l.length).ahead = '\n' :: Text.unlines (l' :: ls) := by rw [hcursor]
      simp only
      rw [Lexer.tokenizeFrom_break hbreak, words_of_inline hl, hcursor]
      simp only
      rw [outcome_tokenize (l' :: ls) _ (List.cons_ne_nil l' ls) rfl (fun k hk => hls k (List.mem_cons_of_mem l hk)) rfl
        (Lexer.afterArrow_of_layout rfl rfl)]
      have htext : ('\n' :: (l.reverse ++ lx.cursor.behind)).reverse ++ Text.unlines (l' :: ls) = lx.cursor.text := by
        unfold Cursor.text
        rw [hahead, List.reverse_cons, List.reverse_append, List.reverse_reverse]
        simp only [List.append_assoc, List.singleton_append]
      show Except.map _ (tokensFrom (('\n' :: (l.reverse ++ lx.cursor.behind)).reverse ++ _) (stack.dropLast ++ [0])
        (lx.cursor.line + 1) (l' :: ls)) = _
      rw [htext, levels_of_enter he]
      show _ = Except.map _ ((tokensFrom lx.cursor.text stack (lx.cursor.line + 1) (l' :: ls)).bind fun later => _)
      cases tokensFrom lx.cursor.text stack (lx.cursor.line + 1) (l' :: ls) with
      | error e => rfl
      | ok later =>
        show Except.ok ((_ :: (_ ++ (entry.reverse ++ lx.emitted))).reverse ++ later) =
          Except.ok (lx.emitted.reverse ++ _)
        rw [List.reverse_cons, List.reverse_append, List.reverse_append, List.reverse_reverse, List.reverse_reverse,
          hcolumn, Nat.add_comm 1]
        simp only [List.append_assoc, List.singleton_append]

theorem line_of_mem_lineWords {number : Int} {b : Bool} {column : Nat} {l : Text} {x : Token}
    (h : x ∈ lineWords number b column l) : x.line = number := by
  rw [← lineWords_renumber number number b column l] at h
  obtain ⟨y, _, rfl⟩ := List.mem_map.mp h
  rfl

theorem line_of_enter {source : Text} {stack stack' : List Nat} {i : Nat} {l : Text} {entry : List Token}
    (h : enter source stack i l = .ok (entry, stack')) : ∀ x ∈ entry, x.line = i := by
  unfold enter at h
  repeat' split at h
  all_goals cases h
  · exact fun x hx => nomatch hx
  · intro x hx
    rw [List.mem_singleton.mp hx]
  · intro x hx
    rw [List.eq_of_mem_replicate hx]
  · exact fun x hx => nomatch hx

namespace LineByLine

/-- If the second token opens or closes a block, the first is no word of the same line. -/
def NotMidLine (y x : Token) : Prop :=
  x.kind = .indent ∨ x.kind = .dedent → y.line = x.line → y.kind.isLayout = true

/-- Tokens of which only those that close the blocks at the end of the text stand behind a word of their line. -/
def AtLineStarts (ts : List Token) : Prop :=
  ∃ body closing, ts = body ++ closing ∧ (∀ x ∈ closing, x.kind = .dedent) ∧ body.Pairwise NotMidLine

end LineByLine

open LineByLine (NotMidLine AtLineStarts)

theorem not_block_of_word {x : Token} (h : x.kind.isLayout = false) : ¬(x.kind = .indent ∨ x.kind = .dedent) := by
  rintro (hx | hx) <;> rw [hx] at h <;> cases h

/-- The layout of a line start and what stands behind it. -/
theorem pairwise_line {entry ws : List Token} (hentry : ∀ x ∈ entry, x.kind.isLayout = true)
    (hws : ∀ x ∈ ws, ¬(x.kind = .indent ∨ x.kind = .dedent)) : (entry ++ ws).Pairwise NotMidLine := by
  rw [List.pairwise_append]
  refine ⟨?_, ?_, ?_⟩
  · exact List.Pairwise.imp_of_mem (fun hy _ _ _ _ => hentry _ hy) (List.pairwise_of_forall (fun _ _ => trivial))
  · exact List.Pairwise.imp_of_mem (fun _ hx _ h => absurd h (hws _ hx)) (List.pairwise_of_forall (fun _ _ => trivial))
  · exact fun y _ x hx h => absurd h (hws x hx)

/-- Tokens of one line in front of those of later lines. -/
theorem LineByLine.AtLineStarts.append {front later : List Token} {i : Int} (hfront : front.Pairwise NotMidLine)
    (hline : ∀ x ∈ front, x.line = i) (h : AtLineStarts later) (hlater : ∀ x ∈ later, i < x.line) :
    AtLineStarts (front ++ later) := by
  obtain ⟨body, closing, rfl, hclosing, hbody⟩ := h
  refine ⟨front ++ body, closing, (List.append_assoc _ _ _).symm, hclosing, ?_⟩
  rw [List.pairwise_append]
  refine ⟨hfront, hbody, ?_⟩
  intro y hy x hx _ hyx
  have hlt := hlater x (List.mem_append_left _ hx)
  rw [← hyx, hline y hy] at hlt
  exact absurd hlt (Int.lt_irrefl i)

/-- The tokens of the last line. -/
theorem tokensFrom_singleton_ok {source l : Text} {stack : List Nat} {i : Nat} {ts : List Token} (hl : '\n' ∉ l)
    (h : tokensFrom source stack i [l] = .ok ts) :
    ∃ entry stack', enter source stack i l = .ok (entry, stack') ∧
      ts = entry ++ lineWords i false 1 l ++
        List.replicate (stack'.length - 1) ⟨.dedent, i, ↑(l.length + 1), none⟩ := by
  rw [tokensFrom, words_of_inline hl] at h
  cases he : enter source stack i l with
  | error e =>
    rw [he] at h
    cases h
  | ok entered =>
    rw [he] at h
    cases h
    exact ⟨entered.1, entered.2, rfl, rfl⟩

/-- The tokens of a line and of those behind it. -/
theorem tokensFrom_cons_ok {source l l' : Text} {ls : List Text} {stack : List Nat} {i : Nat} {ts : List Token}
    (hl : '\n' ∉ l) (h : tokensFrom source stack i (l :: l' :: ls) = .ok ts) :
    ∃ entry stack' later, enter source stack i l = .ok (entry, stack') ∧
      tokensFrom source stack' (i + 1) (l' :: ls) = .ok later ∧
      ts = entry ++ (lineWords i false 1 l ++ [⟨.newline, i, ↑(l.length + 1), none⟩]) ++ later := by
  rw [tokensFrom, words_of_inline hl] at h
  cases he : enter source stack i l with
  | error e =>
    rw [he] at h
    cases h
  | ok entered =>
    obtain ⟨entry, stack'⟩ := entered
    rw [he] at h
    have hbind : (tokensFrom source stack' (i + 1) (l' :: ls)).bind _ = .ok ts := h
    cases hr : tokensFrom source stack' (i + 1) (l' :: ls) with
    | error e =>
      rw [hr] at hbind
      cases hbind
    | ok later =>
      rw [hr] at hbind
      refine ⟨entry, stack', later, rfl, hr, ?_⟩
      rw [← Except.ok.inj hbind]
      simp only [List.append_assoc, List.singleton_append]

theorem atLineStarts_tokensFrom (source : Text) : ∀ (ls : List Text) (stack : List Nat) (i : Nat) (ts : List Token),
    (∀ l ∈ ls, '\n' ∉ l) → tokensFrom source stack i ls = .ok ts → AtLineStarts ts ∧ ∀ x ∈ ts, (i : Int) ≤ x.line
  | [], _, _, ts, _, h => by
    cases h
    exact ⟨⟨[], [], rfl, (fun x hx => nomatch hx), List.Pairwise.nil⟩, fun x hx => nomatch hx⟩
  | [l], stack, i, ts, hls, h => by
    have hl : '\n' ∉ l := hls l List.mem_cons_self
    obtain ⟨entry, stack', he, rfl⟩ := tokensFrom_singleton_ok hl h
    have hws := lineWords_not_layout i false 1 l hl
    refine ⟨⟨_, _, rfl, ?_, pairwise_line (isLayout_of_enter he) (fun x hx => not_block_of_word (hws x hx))⟩, ?_⟩
    · intro x hx
      rw [List.eq_of_mem_replicate hx]
    · intro x hx
      rcases List.mem_append.mp hx with hx | hx
      · rcases List.mem_append.mp hx with hx | hx
        · exact Int.le_of_eq (line_of_enter he x hx).symm
        · exact Int.le_of_eq (line_of_mem_lineWords hx).symm
      · exact Int.le_of_eq (by rw [List.eq_of_mem_replicate hx])
  | l :: l' :: ls, stack, i, ts, hls, h => by
    have hl : '\n' ∉ l := hls l List.mem_cons_self
    obtain ⟨entry, stack', later, he, hr, rfl⟩ := tokensFrom_cons_ok hl h
    obtain ⟨hstarts, hlater⟩ :=
      atLineStarts_tokensFrom source (l' :: ls) stack' (i + 1) later
        (fun k hk => hls k (List.mem_cons_of_mem l hk)) hr
    have hws : ∀ x ∈ lineWords i false 1 l ++ [⟨.newline, i, ↑(l.length + 1), none⟩],
        ¬(x.kind = .indent ∨ x.kind = .dedent) ∧ x.line = (i : Int) := by
      intro x hx
      rcases List.mem_append.mp hx with hx | hx
      · exact ⟨not_block_of_word (lineWords_not_layout i false 1 l hl x hx), line_of_mem_lineWords hx⟩
      · rw [List.mem_singleton.mp hx]
        exact ⟨by simp, rfl⟩
    have hline : ∀ x ∈ entry ++ (lineWords i false 1 l ++ [⟨.newline, i, ↑(l.length + 1), none⟩]),
        x.line = (i : Int) := by
      intro x hx
      rcases List.mem_append.mp hx with hx | hx
      · exact line_of_enter he x hx
      · exact (hws x hx).2
    have hbehind : ∀ x ∈ later, (i : Int) < x.line := by
      intro x hx
      have hle := hlater x hx
      omega
    refine ⟨.append (pairwise_line (isLayout_of_enter he) (fun x hx => (hws x hx).1)) hline hstarts hbehind, ?_⟩
    intro x hx
    rcases List.mem_append.mp hx with hx | hx
    · exact Int.le_of_eq (hline x hx).symm
    · exact Int.le_of_lt (hbehind x hx)

theorem inline_lines (t : Text) : ∀ l ∈ Text.lines t, '\n' ∉ l := fun _ => Text.inline_of_mem_lines

theorem tokenize_eq_tokens (t : Text) : tokenize t = LineByLine.tokens t := by
  rw [tokenize_eq_outcome, outcome_tokenize (Text.lines t) (Lexer.start t) (Text.lines_ne_nil t)
    (Text.unlines_lines t).symm (inline_lines t) rfl rfl]
  show Except.map (fun ts => [] ++ ts) (LineByLine.tokens t) = _
  cases LineByLine.tokens t <;> rfl

/-- **Lexing is line by line**: the tokens of a text, or the refusal of its first badly indented line, are those of the
description without a cursor; a line alone is never refused, and blocks open and close at line starts only. -/
theorem tokenize_eq_lineByLine (t : Text) :
    tokenize t = LineByLine.tokens t ∧ (∀ l ∈ Text.lines t, ∃ ts, tokenize l = .ok ts) ∧
      ∀ ts, tokenize t = .ok ts → AtLineStarts ts := by
  refine ⟨tokenize_eq_tokens t, ?_, ?_⟩
  · intro l hl
    have hw := words_of_inline (inline_lines t l hl) 1
    unfold words at hw
    cases htok : tokenize l with
    | ok ts => exact ⟨ts, rfl⟩
    | error e => rw [htok] at hw; cases hw
  · intro ts hts
    rw [tokenize_eq_tokens] at hts
    exact (atLineStarts_tokensFrom t _ _ _ ts (inline_lines t) hts).1

end Statechart
