import Statechart.Proofs.Grammar.Likeness
import Statechart.Proofs.Token.Row
/-!
# Outline — a text as the grammar sees it

The rows of all lines are the outline of a text.  The outline decides which tokens the grammar sees, up to their columns,
and which line is refused (`tokenize_outline`).  So a law on texts that are written differently is a law on rows.
-/
namespace Statechart

open Diagnostic (BadIndentation)
open LineByLine (width isSignificant closes enter tokensFrom tokensFrom_cons)

/-- A row that ends a block where none began, with the widths that are open there, innermost first. -/
structure Clash where
  line : Nat
  width : Nat
  stack : List Nat
deriving DecidableEq, Repr

/-- What a clash is, wherever it is. -/
def Clash.widths (c : Clash) : Nat × List Nat := (c.width, c.stack)

def Clash.refusal (c : Clash) (source : Text) : BadIndentation where
  width := c.width
  stack := c.stack.reverse.map Int.ofNat
  line := c.line
  source := some source

def outline (t : Text) : List Row := (Text.lines t).map Row.ofLine

theorem sound_outline (t : Text) : ∀ r ∈ outline t, r.Sound := by
  intro r hr
  obtain ⟨l, hl, rfl⟩ := List.mem_map.1 hr
  exact Row.sound_ofLine (Text.inline_of_mem_lines hl)

theorem outline_of_inline {l : Text} (hl : '\n' ∉ l) : outline l = [Row.ofLine l] := by
  unfold outline Text.lines
  rw [Text.splitAt_of_inline hl]
  rfl

theorem outline_append_cons (p q : Text) : outline (p ++ '\n' :: q) = outline p ++ outline q := by
  unfold outline Text.lines
  rw [Text.splitAt_append_cons, List.map_append]

namespace Outline

/-- The layout in front of row `i`. -/
def entry (stack : List Nat) (i : Nat) : Option Nat → List Token
  | none => []
  | some w =>
    if stack.headD 0 < w then [⟨.indent, i, 1, none⟩]
    else List.replicate (stack.takeWhile (closes w)).length ⟨.dedent, i, 1, none⟩

/-- The widths that are open in a row. -/
def after (stack : List Nat) : Option Nat → List Nat
  | none => stack
  | some w => if stack.headD 0 < w then w :: stack else stack.dropWhile (closes w)

theorem entry_of_lt {stack : List Nat} {w : Nat} (h : stack.headD 0 < w) (i : Nat) :
    entry stack i (some w) = [⟨.indent, i, 1, none⟩] := if_pos h

theorem after_of_lt {stack : List Nat} {w : Nat} (h : stack.headD 0 < w) : after stack (some w) = w :: stack := if_pos h

theorem after_of_le {stack : List Nat} {w : Nat} (h : w ≤ stack.headD 0) :
    after stack (some w) = stack.dropWhile (closes w) := if_neg (Nat.not_lt.2 h)

def clashAt (stack : List Nat) (i : Nat) : Option Nat → Option Clash
  | none => none
  | some w => if w < stack.headD 0 ∧ w ∉ stack then some ⟨i, w, stack⟩ else none

theorem clashAt_of_le {stack : List Nat} {w : Nat} (h : stack.headD 0 ≤ w) (i : Nat) : clashAt stack i (some w) = none :=
  if_neg fun hclash => Nat.not_lt.2 h hclash.1

/-- The first row that clashes, from row `i` on. -/
def clash (stack : List Nat) (i : Nat) : List Row → Option Clash
  | [] => none
  | r :: rs => (clashAt stack i r.width).or (clash (after stack r.width) (i + 1) rs)

/-- The widths that are left open behind the rows. -/
def leave (stack : List Nat) : List Row → List Nat
  | [] => stack
  | r :: rs => leave (after stack r.width) rs

/-- The tokens of the rows from row `i` on, as far as the last of them. -/
def body (stack : List Nat) (i : Nat) : List Row → List Token
  | [] => []
  | r :: rs => entry stack i r.width ++ (r.tokens i ++ body (after stack r.width) (i + 1) rs)

/-- The ends of the blocks that are open where the text ends. -/
def ends (stack : List Nat) (i : Nat) : List Token := List.replicate (stack.length - 1) ⟨.dedent, i, 1, none⟩

/-- The tokens of the rows from row `i` on, to the end of the text. -/
def tokens (stack : List Nat) (i : Nat) (rs : List Row) : List Token :=
  body stack i rs ++ ends (leave stack rs) (i + rs.length)

theorem tokens_cons (stack : List Nat) (i : Nat) (r : Row) (rs : List Row) :
    tokens stack i (r :: rs) = entry stack i r.width ++ (r.tokens i ++ tokens (after stack r.width) (i + 1) rs) := by
  have hlast : i + (rs.length + 1) = i + 1 + rs.length := by omega
  unfold tokens
  rw [body, leave, List.length_cons, hlast, List.append_assoc, List.append_assoc]

/-! ## Rows in front of rows -/

theorem leave_append (stack : List Nat) : ∀ rs rs' : List Row, leave stack (rs ++ rs') = leave (leave stack rs) rs'
  | [], _ => rfl
  | _ :: rs, rs' => leave_append _ rs rs'

theorem body_append (stack : List Nat) (i : Nat) : ∀ rs rs' : List Row,
    body stack i (rs ++ rs') = body stack i rs ++ body (leave stack rs) (i + rs.length) rs'
  | [], _ => rfl
  | r :: rs, rs' => by
    have hlast : i + (rs.length + 1) = i + 1 + rs.length := by omega
    rw [List.cons_append, body, body, leave, List.length_cons, hlast, body_append _ _ rs rs', List.append_assoc,
      List.append_assoc]

theorem tokens_append (stack : List Nat) (i : Nat) (rs rs' : List Row) :
    tokens stack i (rs ++ rs') = body stack i rs ++ tokens (leave stack rs) (i + rs.length) rs' := by
  unfold tokens
  rw [body_append, leave_append, List.length_append, ← Nat.add_assoc, List.append_assoc]

theorem clash_append (stack : List Nat) (i : Nat) : ∀ rs rs' : List Row,
    clash stack i (rs ++ rs') = (clash stack i rs).or (clash (leave stack rs) (i + rs.length) rs')
  | [], _ => rfl
  | r :: rs, rs' => by
    have hlast : i + (rs.length + 1) = i + 1 + rs.length := by omega
    rw [List.cons_append, clash, clash, leave, List.length_cons, hlast, clash_append _ _ rs rs', Option.or_assoc]

/-- Empty rows do nothing but lower the rows behind them. -/
theorem empty_rows (stack : List Nat) (i : Nat) : ∀ {rs : List Row}, (∀ r ∈ rs, r = ⟨none, []⟩) →
    leave stack rs = stack ∧ body stack i rs = [] ∧ clash stack i rs = none
  | [], _ => ⟨rfl, rfl, rfl⟩
  | r :: rs, h => by
    obtain ⟨rfl, hrs⟩ := List.forall_mem_cons.1 h
    exact empty_rows stack (i + 1) hrs

theorem tokens_empty_append (stack : List Nat) (i : Nat) {rs : List Row} (h : ∀ r ∈ rs, r = ⟨none, []⟩)
    (rs' : List Row) : tokens stack i (rs ++ rs') = tokens stack (i + rs.length) rs' := by
  obtain ⟨hleave, hbody, -⟩ := empty_rows stack i h
  rw [tokens_append, hleave, hbody, List.nil_append]

theorem clash_empty_append (stack : List Nat) (i : Nat) {rs : List Row} (h : ∀ r ∈ rs, r = ⟨none, []⟩)
    (rs' : List Row) : clash stack i (rs ++ rs') = clash stack (i + rs.length) rs' := by
  obtain ⟨hleave, -, hclash⟩ := empty_rows stack i h
  rw [clash_append, hleave, hclash, Option.none_or]

/-! ## Rows at another place -/

section

variable {L : Int → Int → Prop}

theorem alike_dedents (n : Nat) (line col line' col' : Int) :
    List.Forall₂ (Token.Alike L) (List.replicate n ⟨.dedent, line, col, none⟩)
      (List.replicate n ⟨.dedent, line', col', none⟩) := by
  induction n with
  | zero => exact .nil
  | succ n ih => exact .cons ⟨rfl, rfl, nofun⟩ ih

theorem alike_entry (stack : List Nat) (i j : Nat) (width : Option Nat) :
    List.Forall₂ (Token.Alike L) (entry stack i width) (entry stack j width) := by
  unfold entry
  split
  · exact .nil
  · split
    · exact .cons ⟨rfl, rfl, nofun⟩ .nil
    · exact alike_dedents _ _ _ _ _

theorem alike_row {i j : Nat} (h : L i j) (r : Row) : List.Forall₂ (Token.Alike L) (r.tokens i) (r.tokens j) := by
  unfold Row.tokens
  rw [List.forall₂_map_left_iff, List.forall₂_map_right_iff, List.forall₂_same]
  exact fun w _ => ⟨rfl, rfl, fun _ => h⟩

theorem alike_body (stack : List Nat) : ∀ {rs : List Row} {i j : Nat}, (∀ k < rs.length, L ↑(i + k) ↑(j + k)) →
    List.Forall₂ (Token.Alike L) (body stack i rs) (body stack j rs)
  | [], _, _, _ => .nil
  | r :: rs, i, j, h => by
    have hlater : ∀ k < rs.length, L ↑(i + 1 + k) ↑(j + 1 + k) := by
      intro k hk
      rw [Nat.add_assoc, Nat.add_assoc, Nat.add_comm 1]
      exact h (k + 1) (Nat.succ_lt_succ hk)
    exact List.rel_append (alike_entry stack i j r.width)
      (List.rel_append (alike_row (h 0 (Nat.succ_pos _)) r) (alike_body (after stack r.width) hlater))

/-- **Rows that stand elsewhere have the same tokens**, if their lines correspond. -/
theorem alike_tokens (stack : List Nat) {rs : List Row} {i j : Nat} (h : ∀ k < rs.length, L ↑(i + k) ↑(j + k)) :
    List.Forall₂ (Token.Alike L) (tokens stack i rs) (tokens stack j rs) :=
  List.rel_append (alike_body stack h) (alike_dedents _ _ _ _ _)

end

/-- Where rows stand decides only the line of a clash. -/
theorem clash_elsewhere (i j : Nat) : ∀ (stack : List Nat) (rs : List Row),
    (clash stack j rs).map Clash.widths = (clash stack i rs).map Clash.widths
  | _, [] => rfl
  | stack, r :: rs => by
    have hrow : (clashAt stack j r.width).map Clash.widths = (clashAt stack i r.width).map Clash.widths := by
      unfold clashAt
      split
      · rfl
      · split <;> rfl
    rw [clash, clash, Option.map_or, Option.map_or, hrow, clash_elsewhere (i + 1) (j + 1)]

/-! ## The tokens of a text -/

theorem enter_eq (source : Text) (stack : List Nat) (i : Nat) (l : Text) :
    enter source stack i l = match clashAt stack i (Row.ofLine l).width with
      | some c => .error (c.refusal source)
      | none => .ok (entry stack i (Row.ofLine l).width, after stack (Row.ofLine l).width) := by
  unfold enter Row.ofLine
  cases hs : isSignificant l with
  | false => rfl
  | true =>
    simp only [Bool.true_eq_false, ↓reduceIte, clashAt, entry, after]
    by_cases hopen : stack.headD 0 < width l
    · have hclose : ¬ width l < stack.headD 0 := Nat.lt_asymm hopen
      rw [if_pos hopen, if_neg (fun h => hclose h.1)]
      simp only [if_pos hopen]
    · rw [if_neg hopen]
      by_cases hclose : width l < stack.headD 0
      · rw [if_pos hclose]
        by_cases hm : width l ∈ stack
        · rw [if_pos hm, if_neg (fun h => h.2 hm)]
          simp only [if_neg hopen]
        · rw [if_neg hm, if_pos ⟨hclose, hm⟩]
          rfl
      -- the line stands at the innermost width, and closes nothing
      · have hkeep : stack.takeWhile (closes (width l)) = [] ∧ stack.dropWhile (closes (width l)) = stack := by
          cases stack with
          | nil => exact ⟨rfl, rfl⟩
          | cons v stack =>
            have hv : closes (width l) v = false := decide_eq_false hclose
            rw [List.takeWhile_cons, List.dropWhile_cons, hv]
            exact ⟨rfl, rfl⟩
        rw [if_neg hclose, if_neg (fun h => hclose h.1)]
        simp only [if_neg hopen, hkeep]
        rfl

theorem seen_entry (stack : List Nat) (i : Nat) (width : Option Nat) :
    seen (entry stack i width) = entry stack i width := by
  refine seen_of_all fun t ht => ?_
  unfold entry at ht
  split at ht
  · cases ht
  · split at ht
    · rw [List.mem_singleton.1 ht]
      rfl
    · rw [List.eq_of_mem_replicate ht]
      rfl

theorem seen_map_line (n : Int) (ts : List Token) :
    seen (ts.map (fun t => { t with line := n })) = (seen ts).map (fun t => { t with line := n }) :=
  List.filter_map

/-- **The words of a line are those of its row.** -/
theorem alike_words (i : Nat) (l : Text) :
    List.Forall₂ (Token.Alike Eq) (seen (lineWords i false 1 l)) ((Row.ofLine l).tokens i) := by
  have hlines : seen (lineWords i false 1 l) = (seen (lineWords 1 false 1 l)).map (fun t => { t with line := (i : Int) }) := by
    rw [← seen_map_line, lineWords_renumber]
  unfold Row.tokens Row.ofLine signs
  rw [hlines, List.map_map, List.forall₂_map_left_iff, List.forall₂_map_right_iff, List.forall₂_same]
  exact fun t _ => ⟨rfl, rfl, fun _ => rfl⟩

/-- A run of the lexer ends in a refusal where a row clashes, and else in tokens of which the grammar sees `us`. -/
def Shows (source : Text) (run : Except BadIndentation (List Token)) (us : List Token) : Option Clash → Prop
  | some c => run = .error (c.refusal source)
  | none => ∃ ts, run = .ok ts ∧ List.Forall₂ (Token.Alike Eq) (seen ts) us

theorem Shows.append {source : Text} {run : Except BadIndentation (List Token)} {us vs front : List Token} :
    ∀ {c : Option Clash}, Shows source run us c → List.Forall₂ (Token.Alike Eq) (seen front) vs →
      Shows source (run.map (front ++ ·)) (vs ++ us) c
  | some c, h, _ => by
    have h : run = .error (c.refusal source) := h
    rw [h]
    rfl
  | none, ⟨ts, h, hts⟩, hfront => by
    rw [h]
    refine ⟨front ++ ts, rfl, ?_⟩
    rw [seen_append]
    exact List.rel_append hfront hts

theorem tokensFrom_refused {source : Text} {stack : List Nat} {i : Nat} {l : Text} {e : BadIndentation}
    (h : enter source stack i l = .error e) (ls : List Text) : tokensFrom source stack i (l :: ls) = .error e := by
  cases ls <;> rw [tokensFrom, h] <;> rfl

/-- **The rows of lines are refused where the lines are**, and else give the tokens that the grammar sees. -/
theorem shows_tokensFrom (source : Text) : ∀ (ls : List Text) (stack : List Nat) (i : Nat), ls ≠ [] →
    (∀ l ∈ ls, '\n' ∉ l) → Shows source (tokensFrom source stack i ls) (tokens stack i (ls.map Row.ofLine))
      (clash stack i (ls.map Row.ofLine))
  | [], _, _, hne, _ => absurd rfl hne
  | l :: ls, stack, i, _, hls => by
    have hl : '\n' ∉ l := hls l List.mem_cons_self
    have henter := enter_eq source stack i l
    rw [List.map_cons, clash, tokens_cons]
    cases hc : clashAt stack i (Row.ofLine l).width with
    | some c =>
      rw [hc] at henter
      exact tokensFrom_refused henter ls
    | none =>
      rw [hc] at henter
      have hfront : List.Forall₂ (Token.Alike Eq) (seen (entry stack i (Row.ofLine l).width ++ lineWords i false 1 l))
          (entry stack i (Row.ofLine l).width ++ (Row.ofLine l).tokens i) := by
        rw [seen_append, seen_entry]
        exact List.rel_append (List.forall₂_same.2 fun t _ => ⟨rfl, rfl, fun _ => rfl⟩) (alike_words i l)
      rw [tokensFrom_cons hl henter, ← List.append_assoc]
      refine Shows.append ?_ hfront
      -- behind the line the text ends, or a line feed leads to the next one
      cases ls with
      | nil =>
        refine ⟨_, rfl, ?_⟩
        rw [seen_of_all fun t ht => by rw [List.eq_of_mem_replicate ht]; rfl]
        exact alike_dedents _ _ _ _ _
      | cons l' ls =>
        have ih := shows_tokensFrom source (l' :: ls) (after stack (Row.ofLine l).width) (i + 1) (List.cons_ne_nil _ _)
          (fun k hk => hls k (List.mem_cons_of_mem l hk))
        have hfeed : List.Forall₂ (Token.Alike Eq) (seen [⟨.newline, i, ↑(l.length + 1), none⟩]) [] := .nil
        exact (ih.append hfeed : _)

end Outline

open Outline

/-- **The outline of a text decides its tokens**, as far as the grammar sees them, and its refusal. -/
theorem tokenize_outline (t : Text) :
    Shows t (tokenize t) (Outline.tokens [0] 1 (outline t)) (Outline.clash [0] 1 (outline t)) := by
  rw [tokenize_eq_tokens]
  exact shows_tokensFrom t _ _ _ (Text.lines_ne_nil t) (inline_lines t)

end Statechart
