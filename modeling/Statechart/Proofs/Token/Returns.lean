import Statechart.Proofs.Grammar.Decided
import Statechart.Proofs.Token.Outline
/-!
# Returns — lines that end with a carriage return too

A carriage return is blank, ends a comment, and ends the search for the name of a marker.  So at the end of a line it
changes no word of it, and the line has the same width and counts for the layout as before.  Only the line feed behind
it stands one column further right (`ofText_withReturns`).
-/
namespace Statechart

open Diagnostic (BadIndentation)
open LineByLine (width isSignificant enter words tokensFrom tokensFrom_cons behind)

namespace Text

/-- The text with a carriage return in front of every line feed. -/
def withReturns (t : Text) : Text := t.flatMap (fun c => if c = '\n' then ['\r', '\n'] else [c])

/-- The lines with a carriage return at the end of each but the last, behind which there is no line feed. -/
def returned : List Text → List Text
  | [] => []
  | [l] => [l]
  | l :: l' :: ls => (l ++ ['\r']) :: returned (l' :: ls)

theorem withReturns_append (l t : Text) : withReturns (l ++ t) = withReturns l ++ withReturns t := List.flatMap_append

theorem withReturns_of_inline : ∀ {l : Text}, '\n' ∉ l → withReturns l = l
  | [], _ => rfl
  | c :: l, h => by
    have hc : c ≠ '\n' := fun hc => h (hc ▸ List.mem_cons_self)
    have ih := withReturns_of_inline fun hm => h (List.mem_cons_of_mem c hm)
    unfold withReturns at ih ⊢
    rw [List.flatMap_cons, if_neg hc, ih]
    rfl

theorem withReturns_unlines : ∀ {ls : List Text}, (∀ l ∈ ls, '\n' ∉ l) →
    withReturns (unlines ls) = unlines (returned ls)
  | [], _ => rfl
  | [l], h => by
    rw [returned, unlines_singleton]
    exact withReturns_of_inline (h l List.mem_cons_self)
  | l :: l' :: ls, h => by
    have ih := withReturns_unlines fun k hk => h k (List.mem_cons_of_mem l hk)
    have hfeed : withReturns ('\n' :: unlines (l' :: ls)) = '\r' :: '\n' :: withReturns (unlines (l' :: ls)) := rfl
    obtain ⟨k, ks, hk⟩ : ∃ k ks, returned (l' :: ls) = k :: ks := by cases ls <;> exact ⟨_, _, rfl⟩
    rw [unlines_cons_cons, withReturns_append, withReturns_of_inline (h l List.mem_cons_self), hfeed, ih, returned, hk,
      unlines_cons_cons, List.append_assoc]
    rfl

theorem inline_returned : ∀ {ls : List Text}, (∀ l ∈ ls, '\n' ∉ l) → ∀ l ∈ returned ls, '\n' ∉ l
  | [], _ => nofun
  | [_], h => h
  | l :: l' :: ls, h => by
    obtain ⟨hl, hls⟩ := List.forall_mem_cons.1 h
    refine List.forall_mem_cons.2 ⟨?_, inline_returned hls⟩
    simp [hl]

/-- **The lines of the text** are those of the text without carriage returns, each but the last with one at its end. -/
theorem lines_withReturns (t : Text) : lines (withReturns t) = returned (lines t) := by
  have hinline : ∀ l ∈ lines t, '\n' ∉ l := fun _ => inline_of_mem_lines
  have hne : returned (lines t) ≠ [] := by
    have hlines := lines_ne_nil t
    revert hlines
    match lines t with
    | [] => simp
    | [l] => simp [returned]
    | l :: l' :: ls => simp [returned]
  conv_lhs => rw [← unlines_lines t, withReturns_unlines hinline]
  exact lines_unlines hne (inline_returned hinline)

end Text

open Text (withReturns returned)

/-! ## A line with a carriage return at its end -/

theorem endsLine_return : EndsLine ['\r'] := by
  rintro c ⟨⟩
  rfl

/-- **A carriage return at the end of a line changes no word of it.** -/
theorem lineWords_return (number : Int) (b : Bool) (column : Nat) (l : Text) :
    lineWords number b column (l ++ ['\r']) = lineWords number b column l := by
  cases hd : l.dropWhile isBlank with
  | nil =>
    have hd' : (l ++ ['\r']).dropWhile isBlank = [] := by
      rw [List.dropWhile_append, hd]
      rfl
    rw [lineWords_of_blank hd, lineWords_of_blank hd']
  | cons c rest =>
    have hd' : (l ++ ['\r']).dropWhile isBlank = c :: (rest ++ ['\r']) := by
      rw [List.dropWhile_append, hd]
      rfl
    have hblanks : ((l ++ ['\r']).takeWhile isBlank).length = (l.takeWhile isBlank).length := by
      have hlen := length_takeWhile_add_length_dropWhile isBlank l
      have hlen' := length_takeWhile_add_length_dropWhile isBlank (l ++ ['\r'])
      rw [hd] at hlen
      rw [hd'] at hlen'
      simp only [List.length_append, List.length_cons] at hlen hlen'
      omega
    have hfirst := Lexeme.first_append endsLine_return b c rest
    have hdrop : (c :: (rest ++ ['\r'])).drop (Lexeme.first b c rest).length =
        (c :: rest).drop (Lexeme.first b c rest).length ++ ['\r'] := by
      rw [← List.cons_append, List.drop_append_of_le_length (Lexeme.length_first_le b c rest)]
    have hshort := length_drop_first_lt hd b
    rw [lineWords_of_lexeme hd, lineWords_of_lexeme hd', hfirst, hdrop, hblanks, lineWords_return]
termination_by l.length
decreasing_by exact hshort

theorem width_return (l : Text) : width (l ++ ['\r']) = width l := by
  unfold LineByLine.width
  rw [takeWhile_append_of_head]
  rintro c ⟨⟩
  rfl

theorem isSignificant_return (l : Text) : isSignificant (l ++ ['\r']) = isSignificant l := by
  unfold isSignificant
  rw [List.dropWhile_append]
  cases l.dropWhile isBlank <;> rfl

/-- The refusal of the same line of another text. -/
def Diagnostic.BadIndentation.inSource (source : Text) (e : BadIndentation) : BadIndentation :=
  { e with source := some source }

theorem enter_return (source source' : Text) (stack : List Nat) (i : Nat) (l : Text) :
    enter source' stack i (l ++ ['\r']) = (enter source stack i l).mapError (BadIndentation.inSource source') := by
  unfold enter
  rw [isSignificant_return, width_return]
  repeat' split
  all_goals rfl

theorem enter_inSource (source source' : Text) (stack : List Nat) (i : Nat) (l : Text) :
    enter source' stack i l = (enter source stack i l).mapError (BadIndentation.inSource source') := by
  unfold enter
  repeat' split
  all_goals rfl

/-! ## A text with carriage returns -/

/-- A line feed stands one column further right, anything else where it stood. -/
def Token.pushed (x : Token) : Token := if x.kind = .newline then { x with col := x.col + 1 } else x

theorem map_pushed {ts : List Token} (h : ∀ x ∈ ts, x.kind ≠ .newline) : ts.map Token.pushed = ts := by
  conv_rhs => rw [← List.map_id ts]
  exact List.map_congr_left fun x hx => if_neg (h x hx)

theorem Token.seen_map_pushed (ts : List Token) : seen (ts.map pushed) = seen ts := by
  induction ts with
  | nil => rfl
  | cons x ts ih =>
    by_cases hx : x.kind = .newline
    · have hkept : seen (x :: ts) = seen ts := by simp [seen, hx, TokenKind.isIgnored]
      have hkept' : seen ((x :: ts).map pushed) = seen (ts.map pushed) := by
        simp [seen, pushed, hx, TokenKind.isIgnored]
      rw [hkept, hkept', ih]
    · have hsame : x.pushed = x := if_neg hx
      rw [List.map_cons, hsame]
      unfold seen at ih ⊢
      rw [List.filter_cons, List.filter_cons, ih]

/-- The tokens of a text with carriage returns, from those without. -/
def withPushed (source : Text) (run : Except BadIndentation (List Token)) : Except BadIndentation (List Token) :=
  (run.map (List.map Token.pushed)).mapError (BadIndentation.inSource source)

theorem withPushed_append {front : List Token} (h : ∀ x ∈ front, x.kind ≠ .newline) (source : Text)
    (run : Except BadIndentation (List Token)) :
    withPushed source (run.map (front ++ ·)) = (withPushed source run).map (front ++ ·) := by
  cases run with
  | error e => rfl
  | ok ts =>
    show Except.ok (List.map Token.pushed (front ++ ts)) = .ok (front ++ List.map Token.pushed ts)
    rw [List.map_append, map_pushed h]

theorem not_newline_of_enter {source : Text} {stack stack' : List Nat} {i : Nat} {l : Text} {entry : List Token}
    (h : enter source stack i l = .ok (entry, stack')) : ∀ x ∈ entry, x.kind ≠ .newline := by
  unfold enter at h
  split at h
  · cases h
    exact nofun
  split at h
  · cases h
    intro x hx
    rw [List.mem_singleton.1 hx]
    exact nofun
  split at h
  · split at h
    · cases h
      intro x hx
      rw [List.eq_of_mem_replicate hx]
      exact nofun
    · cases h
  · cases h
    exact nofun

/-- Lines with the same words at the same place are read alike, if what follows them is. -/
theorem tokensFrom_line {source source' : Text} {stack : List Nat} {i : Nat} {l k : Text} {ls ks : List Text}
    (hl : '\n' ∉ l) (hk : '\n' ∉ k) (hwords : lineWords i false 1 k = lineWords i false 1 l)
    (henter : enter source' stack i k = (enter source stack i l).mapError (BadIndentation.inSource source'))
    (hbehind : ∀ stack', behind source' stack' i (k.length + 1) ks =
      withPushed source' (behind source stack' i (l.length + 1) ls)) :
    tokensFrom source' stack i (k :: ks) = withPushed source' (tokensFrom source stack i (l :: ls)) := by
  cases he : enter source stack i l with
  | error e =>
    rw [he] at henter
    rw [Outline.tokensFrom_refused he, Outline.tokensFrom_refused henter]
    rfl
  | ok entered =>
    obtain ⟨entry, stack'⟩ := entered
    rw [he] at henter
    have hfront : ∀ x ∈ entry ++ lineWords i false 1 l, x.kind ≠ .newline := by
      intro x hx hnewline
      rcases List.mem_append.mp hx with hx | hx
      · exact not_newline_of_enter he x hx hnewline
      · have hword := lineWords_not_layout i false 1 l hl x hx
        rw [hnewline] at hword
        cases hword
    rw [tokensFrom_cons hl he, tokensFrom_cons hk henter, hwords, withPushed_append hfront, hbehind]

/-- **The tokens of lines with carriage returns**: only the line feeds stand further right. -/
theorem tokensFrom_returned (source source' : Text) : ∀ (ls : List Text) (stack : List Nat) (i : Nat),
    (∀ l ∈ ls, '\n' ∉ l) →
      tokensFrom source' stack i (returned ls) = withPushed source' (tokensFrom source stack i ls)
  | [], _, _, _ => rfl
  | [l], stack, i, h => by
    have hl : '\n' ∉ l := h l List.mem_cons_self
    refine tokensFrom_line hl hl rfl (enter_inSource source source' stack i l) ?_
    intro stack'
    show Except.ok _ = Except.ok (List.map Token.pushed _)
    rw [map_pushed]
    simp
  | l :: l' :: ls, stack, i, h => by
    obtain ⟨hl, hls⟩ := List.forall_mem_cons.1 h
    have hl' : '\n' ∉ l ++ ['\r'] := by simp [hl]
    refine tokensFrom_line hl hl' (lineWords_return i false 1 l) (enter_return source source' stack i l) ?_
    intro stack'
    have ih := tokensFrom_returned source source' (l' :: ls) stack' (i + 1) hls
    obtain ⟨k, ks, hk⟩ : ∃ k ks, returned (l' :: ls) = k :: ks := by cases ls <;> exact ⟨_, _, rfl⟩
    have hcol : (⟨.newline, i, ↑((l ++ ['\r']).length + 1), none⟩ : Token) =
        Token.pushed ⟨.newline, i, ↑(l.length + 1), none⟩ := by
      simp [Token.pushed]
    rw [hk, behind, ← hk, ih, behind, hcol]
    cases tokensFrom source stack' (i + 1) (l' :: ls) <;> rfl

/-- The refusal of the same line of another text. -/
def Refusal.inSource (source : Text) : Refusal → Refusal
  | indentation e => indentation (e.inSource source)
  | unfit => unfit

namespace Reading

theorem ofTokens_map_pushed (rootId : Text) (ts : List Token) :
    ofTokens rootId (ts.map Token.pushed) = ofTokens rootId ts := by
  have hvisible : Grammar.visible (ts.map Token.pushed) = Grammar.visible ts :=
    congrArg List.toArray (Token.seen_map_pushed ts)
  unfold ofTokens
  rw [hvisible]

end Reading

/-- **How lines end does not matter.**  With a carriage return in front of every line feed a text has the same tokens,
of which only the line feeds stand one column further right, or the same line of it is refused for the same widths; and
it has the same reading. -/
theorem ofText_withReturns (t : Text) :
    tokenize (withReturns t) = ((tokenize t).map (List.map Token.pushed)).mapError
        (BadIndentation.inSource (withReturns t)) ∧
      ∀ rootId, (Reading.ofText rootId (withReturns t)).map Prod.fst =
        ((Reading.ofText rootId t).map Prod.fst).mapError (Refusal.inSource (withReturns t)) := by
  have htokens : tokenize (withReturns t) = withPushed (withReturns t) (tokenize t) := by
    rw [tokenize_eq_tokens, tokenize_eq_tokens]
    unfold LineByLine.tokens
    rw [Text.lines_withReturns, tokensFrom_returned t (withReturns t) _ _ _ (inline_lines t)]
  refine ⟨htokens, ?_⟩
  intro rootId
  unfold Reading.ofText
  rw [htokens]
  cases hts : tokenize t with
  | error e => rfl
  | ok ts =>
    obtain ⟨read, hread⟩ := Reading.exists_ofTokens rootId (worded_of_tokenize hts)
    have hread' := Reading.ofTokens_map_pushed rootId ts
    rw [hread] at hread'
    simp only [withPushed, Except.map, Except.mapError, hread, hread']

end Statechart
