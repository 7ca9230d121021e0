import Statechart.Proofs.Token.Segment
/-!
# Names — what names, targets and labels look like

The text of a guard or an action is a name.  So is that of an identifier, unless an arrow is the token before it: there
it may begin with `#`.  The lexer looks at the token before it on the line, the grammar at the token before it that is
not a comment or a line feed, and what holds behind no arrow holds behind an arrow too.
-/
namespace Statechart

open LineByLine (tokensFrom)

/-- The text of a token is what its kind asks for, behind an arrow or not. -/
structure Token.Spelled (afterArrow : Bool) (x : Token) : Prop where
  name : x.kind = .identifier → afterArrow = false → IsName x.word
  target : x.kind = .identifier → IsTarget x.word
  label : x.kind = .condition ∨ x.kind = .action → IsName x.word

/-- All tokens are spelled as the ones before them ask for. -/
def SpelledFrom : Bool → List Token → Prop
  | _, [] => True
  | afterArrow, x :: ts => x.Spelled afterArrow ∧ SpelledFrom (x.kind == .arrow) ts

namespace Token

variable {x : Token} {b : Bool}

theorem Spelled.weaken (h : x.Spelled false) (b : Bool) : x.Spelled b := ⟨fun hk _ => h.name hk rfl, h.target, h.label⟩

/-- A token that is no word may have any text. -/
theorem spelled_of_kind (h : x.kind ≠ .identifier ∧ x.kind ≠ .condition ∧ x.kind ≠ .action) : x.Spelled b :=
  ⟨fun hk => absurd hk h.1, fun hk => absurd hk h.1, fun hk => hk.elim (absurd · h.2.1) (absurd · h.2.2)⟩

theorem spelled_of_name (h : IsName x.word) : x.Spelled b := ⟨fun _ _ => h, fun _ => .inl h, fun _ => h⟩

end Token

namespace Lexeme

theorem label_spelled (b : Bool) (kind : TokenKind) (c : Char) (rest : Text) (line col : Int) :
    Token.Spelled b ⟨(label kind c rest).kind, line, col, (label kind c rest).text⟩ := by
  by_cases hnone : (rest.dropWhile isFiller).takeWhile isNameChar = []
  · have hlabel : label kind c rest = ⟨.unknown, some [c], 1⟩ := by simp [label, label?, hnone]
    rw [hlabel]
    exact Token.spelled_of_kind ⟨nofun, nofun, nofun⟩
  · have hlabel : (label kind c rest).text = some ((rest.dropWhile isFiller).takeWhile isNameChar) := by
      simp [label, label?, hnone]
    rw [hlabel]
    exact Token.spelled_of_name ⟨hnone, of_mem_takeWhile⟩

/-- **A lexeme is a name, or a target behind an arrow.** -/
theorem first_spelled (b : Bool) (c : Char) (rest : Text) (line col : Int) :
    Token.Spelled b ⟨(first b c rest).kind, line, col, (first b c rest).text⟩ := by
  unfold first
  split
  · exact Token.spelled_of_kind ⟨nofun, nofun, nofun⟩
  · split
    · split
      · rename_i h
        obtain ⟨rfl, hstarts⟩ := Bool.and_eq_true_iff.1 h
        exact ⟨nofun, fun _ => .inr ⟨_, isName_takeWhile hstarts, rfl⟩, by rintro (hk | hk) <;> cases hk⟩
      · exact Token.spelled_of_kind ⟨nofun, nofun, nofun⟩
    · split
      · rename_i kind hmarker
        unfold marker? at hmarker
        repeat' split at hmarker
        all_goals cases hmarker
        all_goals exact Token.spelled_of_kind ⟨nofun, nofun, nofun⟩
      · split
        · exact label_spelled b _ c rest line col
        · unfold word
          split
          · exact Token.spelled_of_kind ⟨nofun, nofun, nofun⟩
          · split
            · rename_i hc
              exact Token.spelled_of_name ⟨List.cons_ne_nil _ _, List.forall_mem_cons.2 ⟨hc, of_mem_takeWhile⟩⟩
            · exact Token.spelled_of_kind ⟨nofun, nofun, nofun⟩

end Lexeme

/-! ## Lists of tokens -/

namespace SpelledFrom

variable {us vs : List Token} {b : Bool}

theorem weaken : ∀ {ts : List Token}, SpelledFrom false ts → ∀ b, SpelledFrom b ts
  | [], _, _ => trivial
  | _ :: _, ⟨hx, hts⟩, b => ⟨hx.weaken b, hts⟩

theorem append : ∀ {us : List Token} {b : Bool}, SpelledFrom b us → SpelledFrom false vs → SpelledFrom b (us ++ vs)
  | [], b, _, hvs => hvs.weaken b
  | _ :: _, _, ⟨hx, hus⟩, hvs => ⟨hx, hus.append hvs⟩

theorem left : ∀ {us : List Token} {b : Bool}, SpelledFrom b (us ++ vs) → SpelledFrom b us
  | [], _, _ => trivial
  | _ :: _, _, ⟨hx, h⟩ => ⟨hx, h.left⟩

/-- Behind tokens that do not end in an arrow the others stand as if nothing were before them. -/
theorem right (hlast : ∀ a ∈ us.getLast?, a.kind ≠ .arrow) : ∀ {b : Bool}, b = false ∨ us ≠ [] →
    SpelledFrom b (us ++ vs) → SpelledFrom false vs := by
  induction us with
  | nil =>
    rintro b (rfl | hne) h
    · exact h
    · exact absurd rfl hne
  | cons x us ih =>
    rintro b - ⟨-, h⟩
    cases us with
    | nil =>
      have hx : x.kind ≠ .arrow := hlast x rfl
      rwa [beq_eq_false_iff_ne.2 hx] at h
    | cons y us =>
      exact ih (fun a ha => hlast a (by rwa [List.getLast?_cons_cons])) (.inr (List.cons_ne_nil y us)) h

theorem label : ∀ {ts : List Token} {b : Bool}, SpelledFrom b ts →
    ∀ x ∈ ts, x.kind = .condition ∨ x.kind = .action → IsName x.word
  | x :: ts, _, ⟨hx, hts⟩, y, hy, hk => by
    rcases List.mem_cons.1 hy with rfl | hy
    · exact hx.label hk
    · exact hts.label y hy hk

theorem of_all : ∀ {ts : List Token}, (∀ x ∈ ts, x.Spelled false) → ∀ b, SpelledFrom b ts
  | [], _, _ => trivial
  | _ :: _, h, b =>
    let ⟨hx, hts⟩ := List.forall_mem_cons.1 h
    ⟨hx.weaken b, of_all hts _⟩

/-- What the grammar does not see is no word, so the rest is spelled as before. -/
theorem seen : ∀ {ts : List Token} {b : Bool}, SpelledFrom b ts → SpelledFrom b (Statechart.seen ts)
  | [], _, _ => trivial
  | x :: ts, b, ⟨hx, hts⟩ => by
    have hrest := hts.seen
    unfold Statechart.seen at hrest ⊢
    by_cases hk : x.kind.isIgnored = true
    · have harrow : (x.kind == .arrow) = false := by
        rw [beq_eq_false_iff_ne]
        intro h
        rw [h] at hk
        cases hk
      rw [harrow] at hrest
      rw [List.filter_cons_of_neg (by simp [hk])]
      exact hrest.weaken b
    · rw [List.filter_cons_of_pos (by simpa using hk)]
      exact ⟨hx, hrest⟩

end SpelledFrom

/-! ## The tokens of a text -/

theorem spelledFrom_lineWords (number : Int) (b : Bool) (column : Nat) (l : Text) :
    SpelledFrom b (lineWords number b column l) := by
  cases hd : l.dropWhile isBlank with
  | nil =>
    rw [lineWords_of_blank hd]
    trivial
  | cons c rest =>
    have hshort := length_drop_first_lt hd b
    rw [lineWords_of_lexeme hd]
    exact ⟨Lexeme.first_spelled b c rest _ _, spelledFrom_lineWords _ _ _ _⟩
termination_by l.length
decreasing_by exact hshort

theorem spelled_of_layout {x : Token} (h : x.kind.isLayout = true) : x.Spelled false := by
  refine Token.spelled_of_kind ⟨?_, ?_, ?_⟩
  all_goals
    intro hk
    rw [hk] at h
    cases h

theorem spelledFrom_tokensFrom (source : Text) : ∀ (ls : List Text) (stack : List Nat) (i : Nat) (ts : List Token),
    (∀ l ∈ ls, '\n' ∉ l) → tokensFrom source stack i ls = .ok ts → SpelledFrom false ts
  | [], _, _, ts, _, h => by
    cases h
    trivial
  | [l], stack, i, ts, hls, h => by
    obtain ⟨entry, stack', he, rfl⟩ := tokensFrom_singleton_ok (hls l List.mem_cons_self) h
    have hentry := SpelledFrom.of_all (fun x hx => spelled_of_layout (isLayout_of_enter he x hx)) false
    refine (hentry.append (spelledFrom_lineWords i false 1 l)).append (SpelledFrom.of_all (fun x hx => ?_) false)
    rw [List.eq_of_mem_replicate hx]
    exact spelled_of_layout rfl
  | l :: l' :: ls, stack, i, ts, hls, h => by
    obtain ⟨hl, hrest⟩ := List.forall_mem_cons.1 hls
    obtain ⟨entry, stack', later, he, hlater, rfl⟩ := tokensFrom_cons_ok hl h
    have hentry := SpelledFrom.of_all (fun x hx => spelled_of_layout (isLayout_of_enter he x hx)) false
    have hfeed : SpelledFrom false [⟨.newline, i, ↑(l.length + 1), none⟩] := ⟨spelled_of_layout rfl, trivial⟩
    exact (hentry.append ((spelledFrom_lineWords i false 1 l).append hfeed)).append
      (spelledFrom_tokensFrom source (l' :: ls) stack' (i + 1) later hrest hlater)

/-- **The words that the grammar sees are spelled as it asks for.** -/
theorem spelled_of_tokenize {t : Text} {ts : List Token} (h : tokenize t = .ok ts) : SpelledFrom false (seen ts) := by
  rw [tokenize_eq_tokens] at h
  exact (spelledFrom_tokensFrom t _ _ _ ts (inline_lines t) h).seen

end Statechart
