import Statechart.Proofs.Token.Line
/-!
# Calls — what every sequence of calls keeps

The operations of a lexer may be called in any order and any number of times, also after a refused indentation and
after the end of the text.  Whatever is called, the place counts the text behind it, the open widths grow from the
ground level inwards, and no block is closed that was not opened (`WellFormed`).
-/
namespace Statechart

open Diagnostic (BadIndentation)

namespace Lexer

/-- The operations of a lexer; `look` stands for those that only read. -/
inductive Call where
  | advance
  | skipBlanks
  | readName
  | readComment
  | readLabel
  | readIndentation
  | tokenize
  | look
deriving DecidableEq, Repr

/-- The lexer that a call leaves, whether it answered or refused. -/
def call (lx : Lexer) : Call → Lexer
  | .advance => lx.advance
  | .skipBlanks => lx.skipBlanks
  | .readName => lx.readName.2
  | .readComment => lx.readComment.2
  | .readLabel => lx.readLabel.2
  | .readIndentation => lx.readIndentation.lexer
  | .tokenize => lx.tokenize.lexer
  | .look => lx

def afterCalls (lx : Lexer) (calls : List Call) : Lexer := calls.foldl call lx

end Lexer

/-- How many tokens open a block. -/
def openings (ts : List Token) : Nat := ts.countP (fun x => x.kind == .indent)

/-- How many tokens close a block. -/
def closings (ts : List Token) : Nat := ts.countP (fun x => x.kind == .dedent)

/-- No block is closed before it was opened. -/
def OpensFirst (ts : List Token) : Prop := ∀ front, front <+: ts → closings front ≤ openings front

theorem openings_append (ts us : List Token) : openings (ts ++ us) = openings ts + openings us := List.countP_append

theorem closings_append (ts us : List Token) : closings (ts ++ us) = closings ts + closings us := List.countP_append

theorem openings_dedents (n : Nat) (line col : Int) : openings (List.replicate n ⟨.dedent, line, col, none⟩) = 0 := by
  unfold openings
  rw [List.countP_replicate, if_neg (fun h => nomatch h)]

theorem closings_dedents (n : Nat) (line col : Int) : closings (List.replicate n ⟨.dedent, line, col, none⟩) = n := by
  unfold closings
  rw [List.countP_replicate, if_pos (beq_self_eq_true _)]

theorem opensFirst_concat {ts : List Token} {x : Token} (h : OpensFirst ts)
    (hx : closings (ts ++ [x]) ≤ openings (ts ++ [x])) : OpensFirst (ts ++ [x]) := by
  intro front hf
  rcases List.prefix_concat_iff.mp hf with rfl | hf
  · exact hx
  · exact h front hf

/-- As many blocks may be closed as are open. -/
theorem opensFirst_closed {ts : List Token} {line col : Int} : ∀ {n : Nat}, OpensFirst ts →
    closings ts + n ≤ openings ts → OpensFirst (ts ++ List.replicate n ⟨.dedent, line, col, none⟩)
  | 0, h, _ => by
    rw [List.replicate_zero, List.append_nil]
    exact h
  | n + 1, h, hn => by
    have ih := @opensFirst_closed ts line col n h (by omega)
    have hlast : ts ++ List.replicate (n + 1) ⟨.dedent, line, col, none⟩ =
        (ts ++ List.replicate n ⟨.dedent, line, col, none⟩) ++ [⟨.dedent, line, col, none⟩] := by
      rw [List.replicate_succ', List.append_assoc]
    rw [hlast]
    refine opensFirst_concat ih ?_
    rw [← hlast, closings_append, openings_append, closings_dedents, openings_dedents]
    exact hn

namespace Lexer

/-- What holds of a lexer in the text `t` at any time. -/
structure WellFormed (t : Text) (lx : Lexer) : Prop where
  text : lx.cursor.text = t
  placed : lx.cursor.Placed
  increasing : lx.stack.Pairwise (· < ·)
  opensFirst : OpensFirst lx.tokens
  excess : openings lx.tokens = closings lx.tokens + lx.blocks.length

theorem wellFormed_start (t : Text) : WellFormed t (start t) where
  text := rfl
  placed := Cursor.placed_start t
  increasing := List.pairwise_singleton _ _
  opensFirst := by
    intro front h
    rw [List.prefix_nil.mp h]
    exact Nat.le_refl _
  excess := rfl

/-- Movement touches neither the tokens nor the blocks. -/
theorem WellFormed.advanceBy {t : Text} {lx : Lexer} (h : WellFormed t lx) (n : Nat) : WellFormed t (lx.advanceBy n) :=
  { h with
    text := (Cursor.advanceBy_text n lx.cursor).trans h.text
    placed := h.placed.advanceBy n }

theorem WellFormed.skip {t : Text} {lx : Lexer} (h : WellFormed t lx) (p : Char → Bool) : WellFormed t (lx.skip p) :=
  h.advanceBy (lx.cursor.run p).length

theorem tokens_emit (lx : Lexer) (x : Token) : (lx.emit x).tokens = lx.tokens ++ [x] := List.reverse_cons

/-- A token that is no block boundary leaves the blocks. -/
theorem WellFormed.emit {t : Text} {lx : Lexer} (h : WellFormed t lx) {x : Token}
    (hx : ¬(x.kind = .indent ∨ x.kind = .dedent)) : WellFormed t (lx.emit x) := by
  have hopen : openings [x] = 0 := by
    unfold openings
    rw [List.countP_singleton, if_neg (fun hk => hx (.inl (beq_iff_eq.mp hk)))]
  have hclose : closings [x] = 0 := by
    unfold closings
    rw [List.countP_singleton, if_neg (fun hk => hx (.inr (beq_iff_eq.mp hk)))]
  refine { text := h.text, placed := h.placed, increasing := h.increasing, opensFirst := ?_, excess := ?_ }
  · rw [tokens_emit]
    refine opensFirst_concat h.opensFirst ?_
    rw [openings_append, closings_append, hopen, hclose]
    exact h.opensFirst _ (List.prefix_refl _)
  · rw [tokens_emit, openings_append, closings_append, hopen, hclose]
    exact h.excess

/-- The innermost width is the greatest. -/
theorem WellFormed.le_indent {t : Text} {lx : Lexer} (h : WellFormed t lx) : ∀ w ∈ lx.stack, w ≤ lx.indent := by
  have hp := h.increasing
  unfold stack at hp ⊢
  unfold indent
  cases hb : lx.blocks with
  | nil =>
    intro w hw
    exact Nat.le_of_eq (List.mem_singleton.mp hw)
  | cons b bs =>
    rw [hb, List.reverse_cons, ← List.cons_append, List.pairwise_append] at hp
    rw [List.reverse_cons, ← List.cons_append]
    intro w hw
    rcases List.mem_append.mp hw with hw | hw
    · exact Nat.le_of_lt (hp.2.2 w hw b (List.mem_singleton_self b))
    · exact Nat.le_of_eq (List.mem_singleton.mp hw)

/-- A deeper line opens one block. -/
theorem WellFormed.opened {t : Text} {lx : Lexer} (h : WellFormed t lx) {width : Nat} (hw : lx.indent < width)
    (line col : Int) :
    WellFormed t { lx with emitted := ⟨.indent, line, col, none⟩ :: lx.emitted, blocks := width :: lx.blocks } := by
  have hopen : openings (lx.emit ⟨.indent, line, col, none⟩).tokens = openings lx.tokens + 1 := by
    rw [tokens_emit, openings_append]
    rfl
  have hclose : closings (lx.emit ⟨.indent, line, col, none⟩).tokens = closings lx.tokens := by
    rw [tokens_emit, closings_append]
    rfl
  refine { text := h.text, placed := h.placed, increasing := ?_, opensFirst := ?_, excess := ?_ }
  · show (0 :: (width :: lx.blocks).reverse).Pairwise (· < ·)
    rw [List.reverse_cons, ← List.cons_append, List.pairwise_append]
    refine ⟨h.increasing, List.pairwise_singleton _ _, ?_⟩
    intro v hv w hw'
    rw [List.mem_singleton.mp hw']
    exact Nat.lt_of_le_of_lt (h.le_indent v hv) hw
  · show OpensFirst (lx.emit ⟨.indent, line, col, none⟩).tokens
    have hle := h.opensFirst _ (List.prefix_refl _)
    rw [tokens_emit] at hopen hclose ⊢
    refine opensFirst_concat h.opensFirst ?_
    rw [hopen, hclose]
    omega
  · show openings (lx.emit ⟨.indent, line, col, none⟩).tokens =
      closings (lx.emit ⟨.indent, line, col, none⟩).tokens + (lx.blocks.length + 1)
    rw [hopen, hclose, h.excess, Nat.add_assoc]

theorem tokens_close (lx : Lexer) (n : Nat) (line col : Int) :
    (lx.close n line col).tokens = lx.tokens ++ List.replicate n ⟨.dedent, line, col, none⟩ := by
  show (List.replicate n _ ++ lx.emitted).reverse = _
  rw [List.reverse_append, List.reverse_replicate]
  rfl

/-- Closing as many blocks as are open at most. -/
theorem WellFormed.closed {t : Text} {lx : Lexer} (h : WellFormed t lx) {n : Nat} (hn : n ≤ lx.blocks.length)
    (line col : Int) : WellFormed t (lx.close n line col) := by
  have hexcess := h.excess
  refine { text := h.text, placed := h.placed, increasing := ?_, opensFirst := ?_, excess := ?_ }
  · show (0 :: (lx.blocks.drop n).reverse).Pairwise (· < ·)
    have hsub : (lx.blocks.drop n).reverse.Sublist lx.blocks.reverse :=
      List.reverse_sublist.mpr (List.drop_sublist n lx.blocks)
    exact h.increasing.sublist (hsub.cons_cons 0)
  · rw [tokens_close]
    exact opensFirst_closed h.opensFirst (by omega)
  · rw [tokens_close, openings_append, closings_append, openings_dedents, closings_dedents]
    show _ = _ + (lx.blocks.drop n).length
    rw [List.length_drop]
    omega

theorem WellFormed.settled {t : Text} {lx : Lexer} (h : WellFormed t lx) (width : Nat) :
    WellFormed t (lx.settle width).lexer := by
  unfold settle
  split
  · next hw => exact h.opened hw _ _
  · split
    · split
      · exact h.closed (length_takeWhile_le _ _) _ _
      · exact h
    · exact h

theorem WellFormed.readIndentation {t : Text} {lx : Lexer} (h : WellFormed t lx) :
    WellFormed t lx.readIndentation.lexer := by
  unfold Lexer.readIndentation
  split
  · exact h.skip _
  · exact (h.skip _).settled _

theorem not_block_first (b : Bool) (c : Char) (rest : Text) :
    ¬((Lexeme.first b c rest).kind = .indent ∨ (Lexeme.first b c rest).kind = .dedent) := by
  by_cases hc : c = '\n'
  · subst hc
    rintro (h | h) <;> cases h
  · have hk := Lexeme.isLayout_first hc b rest
    rintro (h | h) <;> rw [h] at hk <;> cases hk

theorem WellFormed.take {t : Text} {lx : Lexer} (h : WellFormed t lx) (b : Bool) (c : Char) (rest : Text) :
    WellFormed t (lx.take (Lexeme.first b c rest)) :=
  (h.advanceBy _).emit (not_block_first b c rest)

theorem WellFormed.closeAll {t : Text} {lx : Lexer} (h : WellFormed t lx) : WellFormed t lx.closeAll :=
  h.closed (Nat.le_refl _) _ _

theorem length_readIndentation_le (lx : Lexer) :
    lx.readIndentation.lexer.cursor.ahead.length ≤ lx.cursor.ahead.length := by
  rw [readIndentation_cursor]
  exact Cursor.length_skip_le _ _

theorem length_taken_lt {lx : Lexer} {c : Char} {rest : Text} (h : lx.skipBlanks.cursor.ahead = c :: rest) (b : Bool) :
    (lx.skipBlanks.take (Lexeme.first b c rest)).cursor.ahead.length < lx.cursor.ahead.length :=
  Nat.lt_of_lt_of_le (length_take_lt _ b h) (Cursor.length_skip_le _ _)

/-- **Lexing step by step**: what holds of a refused line and of the end of the text, and of a lexer before a step
whenever it holds behind the step, holds of every run. -/
theorem tokenizeFrom_induction {R : Lexer → Progress → Prop}
    (hrefused : ∀ lx e, lx.readIndentation.refusal = some e → R lx ⟨lx.readIndentation.lexer, some e⟩)
    (hentered : ∀ lx r, R lx.readIndentation.lexer r → R lx r)
    (hclosed : ∀ lx, lx.skipBlanks.cursor.ahead = [] → R lx ⟨lx.skipBlanks.closeAll, none⟩)
    (htaken : ∀ lx b c rest r, lx.skipBlanks.cursor.ahead = c :: rest →
      R (lx.skipBlanks.take (Lexeme.first b c rest)) r → R lx r) :
    ∀ (b : Bool) (lx : Lexer), R lx (lx.tokenizeFrom b)
  | true, lx => by
    have hle := length_readIndentation_le lx
    rw [tokenizeFrom_true]
    cases hr : lx.readIndentation.refusal with
    | some e => exact hrefused lx e hr
    | none => exact hentered lx _ (tokenizeFrom_induction hrefused hentered hclosed htaken false _)
  | false, lx => by
    cases ha : lx.skipBlanks.cursor.ahead with
    | nil =>
      rw [tokenizeFrom_blank ha]
      exact hclosed lx ha
    | cons c rest =>
      have hlt := length_taken_lt ha lx.skipBlanks.afterArrow
      rw [tokenizeFrom_lexeme ha]
      exact htaken lx _ c rest _ ha (tokenizeFrom_induction hrefused hentered hclosed htaken _ _)
termination_by b lx => (lx.cursor.ahead.length, b.toNat)
decreasing_by
  · rcases Nat.lt_or_eq_of_le hle with hlt | heq
    · exact Prod.Lex.left _ _ hlt
    · rw [heq]
      exact Prod.Lex.right _ Nat.one_pos
  · exact Prod.Lex.left _ _ hlt

/-- What reading indentation, moving over blanks, taking lexemes and closing all blocks keep, lexing keeps. -/
theorem tokenizeFrom_keeps {P : Lexer → Prop} (hlayout : ∀ lx, P lx → P lx.readIndentation.lexer)
    (hskip : ∀ lx, P lx → P lx.skipBlanks)
    (htake : ∀ lx b c rest, lx.cursor.ahead = c :: rest → P lx → P (lx.take (Lexeme.first b c rest)))
    (hclose : ∀ lx, P lx → P lx.closeAll) (b : Bool) (lx : Lexer) : P lx → P (lx.tokenizeFrom b).lexer := by
  refine tokenizeFrom_induction (R := fun lx r => P lx → P r.lexer) ?_ ?_ ?_ ?_ b lx
  · exact fun lx _ _ h => hlayout lx h
  · exact fun lx _ ih h => ih (hlayout lx h)
  · exact fun lx _ h => hclose _ (hskip lx h)
  · exact fun lx b c rest _ ha ih h => ih (htake _ b c rest ha (hskip lx h))

/-- **A run that is not refused** ends behind the text with no block open. -/
theorem tokenize_ends {lx : Lexer} : lx.tokenize.refusal = none →
    lx.tokenize.lexer.cursor.ahead = [] ∧ lx.tokenize.lexer.blocks = [] := by
  refine tokenizeFrom_induction (R := fun _ r => r.refusal = none → r.lexer.cursor.ahead = [] ∧ r.lexer.blocks = [])
    ?_ ?_ ?_ ?_ true lx
  · exact fun _ _ _ h => nomatch h
  · exact fun _ _ ih => ih
  · exact fun _ ha _ => ⟨ha, List.drop_length⟩
  · exact fun _ _ _ _ _ _ ih => ih

/-- The tokens of a text are those of the run that is not refused. -/
theorem run_of_tokenize {t : Text} {ts : List Token} (h : Statechart.tokenize t = .ok ts) :
    (start t).tokenize.refusal = none ∧ (start t).tokenize.lexer.tokens = ts := by
  unfold Statechart.tokenize at h
  split at h
  · rename_i hrun
    rw [hrun]
    exact ⟨rfl, Except.ok.inj h⟩
  · cases h

theorem WellFormed.tokenize {t : Text} {lx : Lexer} (h : WellFormed t lx) : WellFormed t lx.tokenize.lexer :=
  tokenizeFrom_keeps (P := WellFormed t) (fun _ h => h.readIndentation) (fun _ h => h.skip _)
    (fun _ b c rest _ h => h.take b c rest) (fun _ h => h.closeAll) true lx h

/-- **Every call keeps it.** -/
theorem WellFormed.called {t : Text} {lx : Lexer} (h : WellFormed t lx) : ∀ c : Call, WellFormed t (lx.call c)
  | .advance => h.advanceBy 1
  | .skipBlanks => h.skip _
  | .readName => h.skip _
  | .readComment => h.skip _
  | .readLabel => by
    show WellFormed t lx.readLabel.2
    unfold readLabel
    split
    · exact h
    · exact h.advanceBy _
  | .readIndentation => h.readIndentation
  | .tokenize => h.tokenize
  | .look => h

theorem WellFormed.afterCalls {t : Text} : ∀ (calls : List Call) {lx : Lexer}, WellFormed t lx →
    WellFormed t (lx.afterCalls calls)
  | [], _, h => h
  | c :: calls, _, h => WellFormed.afterCalls calls (h.called c)

/-! ## The tokens of a text -/

/-- **Every block of a text that was opened is closed.** -/
theorem closed_of_tokenize {t : Text} {ts : List Token} (h : Statechart.tokenize t = .ok ts) :
    openings ts = closings ts := by
  obtain ⟨hnone, rfl⟩ := run_of_tokenize h
  rw [(wellFormed_start t).tokenize.excess, (tokenize_ends hnone).2]
  rfl

theorem one_le_of_placed {c : Cursor} (h : c.Placed) : (1 : Int) ≤ c.line ∧ (1 : Int) ≤ c.column := by
  have hline := h.line
  have hcolumn := h.column
  omega

/-- A property of lexemes and of the edges of blocks, wherever they stand in a text. -/
structure OfTokens (P : Token → Prop) : Prop where
  lexeme : ∀ b c rest line col, 1 ≤ line → 1 ≤ col →
    P ⟨(Lexeme.first b c rest).kind, line, col, (Lexeme.first b c rest).text⟩
  block : ∀ kind line col, kind = .indent ∨ kind = .dedent → 1 ≤ line → 1 ≤ col → P ⟨kind, line, col, none⟩

/-- A placed lexer whose tokens have a property. -/
structure Emits (P : Token → Prop) (lx : Lexer) : Prop where
  placed : lx.cursor.Placed
  emitted : ∀ x ∈ lx.emitted, P x

variable {P : Token → Prop} {lx : Lexer}

theorem Emits.closed (hP : OfTokens P) (h : Emits P lx) (n : Nat) {line col : Int} (hl : 1 ≤ line) (hc : 1 ≤ col) :
    Emits P (lx.close n line col) := by
  refine ⟨h.placed, fun x hx => ?_⟩
  rcases List.mem_append.mp hx with hx | hx
  · rw [List.eq_of_mem_replicate hx]
    exact hP.block _ _ _ (.inr rfl) hl hc
  · exact h.emitted x hx

theorem Emits.readIndentation (hP : OfTokens P) (h : Emits P lx) : Emits P lx.readIndentation.lexer := by
  have hskip : Emits P (lx.skip (· == ' ')) := ⟨h.placed.advanceBy _, h.emitted⟩
  have hline := (one_le_of_placed hskip.placed).1
  unfold Lexer.readIndentation
  split
  · exact hskip
  · unfold settle
    split
    · refine ⟨hskip.placed, fun x hx => ?_⟩
      rcases List.mem_cons.mp hx with rfl | hx
      · exact hP.block _ _ _ (.inl rfl) hline (Int.le_refl 1)
      · exact hskip.emitted x hx
    · split
      · split
        · exact hskip.closed hP _ hline (Int.le_refl 1)
        · exact hskip
      · exact hskip

theorem Emits.take (hP : OfTokens P) (h : Emits P lx) (b : Bool) (c : Char) (rest : Text) :
    Emits P (lx.take (Lexeme.first b c rest)) := by
  obtain ⟨hline, hcolumn⟩ := one_le_of_placed h.placed
  refine ⟨h.placed.advanceBy _, fun x hx => ?_⟩
  rcases List.mem_cons.mp hx with rfl | hx
  · exact hP.lexeme b c rest _ _ hline hcolumn
  · exact h.emitted x hx

/-- **What holds of every lexeme and of every edge of a block** holds of the tokens of a text. -/
theorem forall_of_tokenize (hP : OfTokens P) {t : Text} {ts : List Token} (h : Statechart.tokenize t = .ok ts) :
    ∀ x ∈ ts, P x := by
  have hstart : Emits P (start t) := ⟨Cursor.placed_start t, fun x hx => nomatch hx⟩
  have hrun : Emits P (start t).tokenize.lexer :=
    tokenizeFrom_keeps (P := Emits P) (fun _ h => h.readIndentation hP) (fun _ h => ⟨h.placed.advanceBy _, h.emitted⟩)
      (fun _ b c rest _ h => h.take hP b c rest)
      (fun _ h => h.closed hP _ (one_le_of_placed h.placed).1 (one_le_of_placed h.placed).2) true _ hstart
  obtain ⟨-, rfl⟩ := run_of_tokenize h
  exact fun x hx => hrun.emitted x (List.mem_reverse.mp hx)

/-- **Every token of a text has a place in it.** -/
theorem one_le_of_tokenize {t : Text} {ts : List Token} (h : Statechart.tokenize t = .ok ts) :
    ∀ x ∈ ts, 1 ≤ x.line ∧ 1 ≤ x.col :=
  forall_of_tokenize ⟨fun _ _ _ _ _ hl hc => ⟨hl, hc⟩, fun _ _ _ _ hl hc => ⟨hl, hc⟩⟩ h

/-! ## Refusals and second runs -/

theorem settle_refused {lx : Lexer} {width : Nat} (h : (lx.settle width).refusal ≠ none) :
    (lx.settle width).lexer = lx := by
  by_cases hopen : lx.indent < width
  · unfold settle at h
    rw [if_pos hopen] at h
    exact absurd rfl h
  · unfold settle at h ⊢
    rw [if_neg hopen] at h ⊢
    by_cases hclose : width < lx.indent ∧ width ∈ lx.stack
    · rw [if_pos hclose.1, if_pos hclose.2] at h
      exact absurd rfl h
    · split
      · next hlt =>
        rw [if_neg (fun hm => hclose ⟨hlt, hm⟩)]
      · rfl

/-- A refused indentation moves the lexer behind the spaces and does nothing else. -/
theorem readIndentation_refused {lx : Lexer} (h : lx.readIndentation.refusal ≠ none) :
    lx.readIndentation.lexer = lx.skip (· == ' ') := by
  unfold readIndentation at h ⊢
  split
  · rfl
  · next hb =>
    rw [if_neg hb] at h
    exact settle_refused h

theorem closeAll_of_closed {lx : Lexer} (h : lx.blocks = []) : lx.closeAll = lx := by
  obtain ⟨c, emitted, blocks⟩ := lx
  cases h
  rfl

theorem tokenize_again {lx : Lexer} (h : lx.tokenize.refusal = none) :
    lx.tokenize.lexer.tokenize = ⟨lx.tokenize.lexer, none⟩ := by
  obtain ⟨hahead, hblocks⟩ := tokenize_ends h
  show lx.tokenize.lexer.tokenizeFrom true = _
  rw [tokenizeFrom_end hahead, closeAll_of_closed hblocks]

theorem take_offset (c : Cursor) : c.text.take c.offset = c.behind.reverse := by
  unfold Cursor.text Cursor.offset
  rw [← List.length_reverse, List.take_left]

/-- **Whatever is called, in whatever order**, a lexer stands in its text, its line and column count what is before it,
its widths grow from the ground level, and its tokens open blocks before they close them.  A refused indentation touches
neither the tokens nor the widths; a run to the end closes every block, and a second one changes nothing. -/
theorem afterCalls_wellFormed (t : Text) (calls : List Call) :
    let lx := (start t).afterCalls calls
    (lx.cursor.text = t ∧ lx.cursor.offset ≤ t.length) ∧
    (lx.cursor.line = 1 + (t.take lx.cursor.offset).count '\n' ∧
      lx.cursor.column = 1 + ((t.take lx.cursor.offset).reverse.takeWhile (· != '\n')).length) ∧
    (lx.stack.head? = some 0 ∧ lx.stack.Pairwise (· < ·)) ∧
    (OpensFirst lx.tokens ∧ openings lx.tokens = closings lx.tokens + (lx.stack.length - 1)) ∧
    (lx.readIndentation.refusal ≠ none →
      lx.readIndentation.lexer.tokens = lx.tokens ∧ lx.readIndentation.lexer.stack = lx.stack) ∧
    (lx.tokenize.refusal = none →
      lx.tokenize.lexer.cursor.offset = t.length ∧ lx.tokenize.lexer.stack = [0] ∧
      OpensFirst lx.tokenize.lexer.tokens ∧ openings lx.tokenize.lexer.tokens = closings lx.tokenize.lexer.tokens ∧
      lx.tokenize.lexer.tokenize = ⟨lx.tokenize.lexer, none⟩) := by
  intro lx
  have h : WellFormed t lx := WellFormed.afterCalls calls (wellFormed_start t)
  have hbehind : t.take lx.cursor.offset = lx.cursor.behind.reverse := by
    rw [← h.text]
    exact take_offset lx.cursor
  refine ⟨⟨h.text, ?_⟩, ⟨?_, ?_⟩, ⟨rfl, h.increasing⟩, ⟨h.opensFirst, ?_⟩, ?_, ?_⟩
  · rw [← h.text]
    unfold Cursor.text Cursor.offset
    rw [List.length_append, List.length_reverse]
    exact Nat.le_add_right _ _
  · rw [hbehind, List.count_reverse]
    exact h.placed.line
  · rw [hbehind, List.reverse_reverse]
    exact h.placed.column
  · unfold stack
    rw [List.length_cons, List.length_reverse]
    exact h.excess
  · intro hr
    rw [readIndentation_refused hr]
    exact ⟨rfl, rfl⟩
  · intro hr
    obtain ⟨hahead, hblocks⟩ := tokenize_ends hr
    have h' : WellFormed t lx.tokenize.lexer := h.tokenize
    refine ⟨?_, ?_, h'.opensFirst, ?_, tokenize_again hr⟩
    · rw [← h'.text]
      unfold Cursor.text Cursor.offset
      rw [hahead, List.append_nil, List.length_reverse]
    · unfold stack
      rw [hblocks]
      rfl
    · rw [h'.excess, hblocks]
      rfl

end Lexer
end Statechart
