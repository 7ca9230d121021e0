import Mathlib
import Statechart.Proofs.Token.Words
/-!
# Coverage — no character of a text is lost

Every token but the edges of the blocks stands for characters of the text (`WrittenAs`), and its line and column say
where they begin (`Extent.In`).  The extents of the tokens follow each other, and what is between them is blank
(`Covers`): a lexer keeps this of all that is behind it, so at the end it holds of the whole text.
-/
namespace Statechart

namespace TokenKind

/-- The kinds that open or close a block: no character stands for them. -/
def isEdge : TokenKind → Bool
  | indent | dedent => true
  | _ => false

/-- The kinds whose text ends in a name. -/
def isNamed : TokenKind → Bool
  | identifier | condition | action => true
  | _ => false

end TokenKind

namespace Token

/-- The marker of a guard or an action, anything but a name or a line end, and the name that is the text. -/
def LabelWritten (marker : Char) (text : Option Text) (w : Text) : Prop :=
  ∃ filler name, w = marker :: (filler ++ name) ∧ (∀ c ∈ filler, isFiller c = true) ∧ IsName name ∧ text = some name

/-- The characters that a token stands for. -/
def WrittenAs (x : Token) (w : Text) : Prop :=
  match x.kind with
  | .identifier => IsTarget w ∧ x.text = some w
  | .arrow => w = ['-', '>']
  | .parallel => w = ['&']
  | .final => w = ['$']
  | .initial => w = ['*']
  | .condition => LabelWritten ';' x.text w
  | .action => LabelWritten '>' x.text w
  | .comment => (∃ body, w = '#' :: body ∧ ∀ c ∈ body, isLineEnd c = false) ∧ x.text = some w
  | .newline => w = ['\n']
  | .unknown => (∃ c, w = [c]) ∧ x.text = some w
  | .indent | .dedent => False

end Token

/-- A token with the number of characters before it and those it stands for. -/
structure Extent where
  token : Token
  start : Nat
  chars : Text

namespace Extent

def stop (e : Extent) : Nat := e.start + e.chars.length

/-- The token is written in the text where the extent begins, its place counts what is before that, and a name that it
ends in does not go on. -/
structure In (t : Text) (e : Extent) : Prop where
  written : e.token.WrittenAs e.chars
  found : e.chars <+: t.drop e.start
  line : e.token.line = ↑(1 + (t.take e.start).count '\n')
  col : e.token.col = ↑(1 + ((t.take e.start).reverse.takeWhile (· != '\n')).length)
  ends : e.token.kind.isNamed = true → EndsName (t.drop e.stop)

end Extent

/-- The tokens that stand for characters. -/
def written (ts : List Token) : List Token := ts.filter (fun x => !x.kind.isEdge)

theorem written_append (ts us : List Token) : written (ts ++ us) = written ts ++ written us := List.filter_append ts us

theorem written_of_edges {ts : List Token} (h : ∀ x ∈ ts, x.kind.isEdge = true) : written ts = [] := by
  unfold written
  rw [List.filter_eq_nil_iff]
  intro x hx
  simp [h x hx]

/-- The extents of the tokens, in order and apart, with nothing but blanks outside them in the first `n` characters. -/
structure Covers (t : Text) (ts : List Token) (es : List Extent) (n : Nat) : Prop where
  tokens : es.map Extent.token = written ts
  inText : ∀ e ∈ es, e.In t
  apart : es.Pairwise (fun d e => d.stop ≤ e.start)
  behind : ∀ e ∈ es, e.stop ≤ n
  blank : ∀ i c, i < n → t[i]? = some c → (∀ e ∈ es, ¬ (e.start ≤ i ∧ i < e.stop)) → isBlank c = true

namespace Covers

variable {t : Text} {ts us : List Token} {es : List Extent} {n m : Nat}

theorem nil (t : Text) : Covers t [] [] 0 :=
  ⟨rfl, by simp, List.Pairwise.nil, by simp, fun i _ hi => absurd hi (Nat.not_lt_zero i)⟩

/-- Blanks belong to no token. -/
theorem skip (h : Covers t ts es n) (hnm : n ≤ m) (hb : ∀ i c, n ≤ i → i < m → t[i]? = some c → isBlank c = true) :
    Covers t ts es m := by
  refine { h with behind := fun e he => Nat.le_trans (h.behind e he) hnm, blank := fun i c hi hc hout => ?_ }
  by_cases hin : i < n
  · exact h.blank i c hin hc hout
  · exact hb i c (Nat.le_of_not_lt hin) hi hc

theorem edges (h : Covers t ts es n) (hus : ∀ x ∈ us, x.kind.isEdge = true) : Covers t (ts ++ us) es n :=
  { h with tokens := by rw [h.tokens, written_append, written_of_edges hus, List.append_nil] }

/-- The next token begins where the blanks end. -/
theorem concat (h : Covers t ts es n) {e : Extent} (he : e.In t) (hstart : e.start = n) :
    Covers t (ts ++ [e.token]) (es ++ [e]) e.stop := by
  have hedge : e.token.kind.isEdge = false := by
    have hw := he.written
    unfold Token.WrittenAs at hw
    cases hk : e.token.kind <;> simp [hk, TokenKind.isEdge] at hw ⊢
  have hle : n ≤ e.stop := by rw [← hstart]; exact Nat.le_add_right _ _
  refine ⟨?_, ?_, ?_, ?_, ?_⟩
  · rw [List.map_append, h.tokens, written_append]
    simp [written, hedge]
  · intro d hd
    rcases List.mem_append.1 hd with hd | hd
    · exact h.inText d hd
    · exact List.mem_singleton.1 hd ▸ he
  · refine List.pairwise_append.2 ⟨h.apart, List.pairwise_singleton _ _, fun d hd d' hd' => ?_⟩
    rw [List.mem_singleton.1 hd', hstart]
    exact h.behind d hd
  · intro d hd
    rcases List.mem_append.1 hd with hd | hd
    · exact Nat.le_trans (h.behind d hd) hle
    · exact Nat.le_of_eq (congrArg Extent.stop (List.mem_singleton.1 hd))
  · intro i c hi hc hout
    by_cases hin : i < n
    · exact h.blank i c hin hc fun d hd => hout d (List.mem_append_left _ hd)
    · exact absurd ⟨by omega, hi⟩ (hout e (by simp))

end Covers

/-! ## Lexemes -/

theorem endsName_dropWhile (l : Text) : EndsName (l.dropWhile isNameChar) := by
  intro c hc
  have h := List.head?_dropWhile_not isNameChar l
  rw [Option.mem_def.1 hc] at h
  exact h

namespace Lexeme

/-- The lexeme stands for `w`, and `l` comes behind it. -/
structure Spells (x : Lexeme) (w l : Text) : Prop where
  length : x.length = w.length
  written : ∀ line col, Token.WrittenAs ⟨x.kind, line, col, x.text⟩ w
  ends : x.kind.isNamed = true → EndsName l

theorem target_spells {rest : Text} (h : startsName rest = true) :
    (target rest).Spells ('#' :: rest.takeWhile isNameChar) (rest.dropWhile isNameChar) :=
  ⟨rfl, fun _ _ => ⟨.inr ⟨_, isName_takeWhile h, rfl⟩, rfl⟩, fun _ => endsName_dropWhile rest⟩

theorem comment_spells (rest : Text) :
    (comment rest).Spells ('#' :: rest.takeWhile (fun c => !isLineEnd c)) (rest.dropWhile (fun c => !isLineEnd c)) := by
  refine ⟨rfl, fun _ _ => ⟨⟨_, rfl, fun c hc => ?_⟩, rfl⟩, nofun⟩
  simpa using of_mem_takeWhile c hc

theorem label_spells {c : Char} {kind : TokenKind} (hc : labelKind? c = some kind) (rest : Text) :
    ∃ w l, w ++ l = c :: rest ∧ (label kind c rest).Spells w l := by
  have hrest := List.takeWhile_append_dropWhile (p := isFiller) (l := rest)
  have hname := List.takeWhile_append_dropWhile (p := isNameChar) (l := rest.dropWhile isFiller)
  by_cases hnone : (rest.dropWhile isFiller).takeWhile isNameChar = []
  -- without a name the marker stands alone, and the filler is left to the lexemes behind it
  · have hlabel : label kind c rest = ⟨.unknown, some [c], 1⟩ := by simp [label, label?, hnone]
    rw [hlabel]
    exact ⟨[c], rest, rfl, rfl, fun _ _ => ⟨⟨c, rfl⟩, rfl⟩, nofun⟩
  · generalize hn : (rest.dropWhile isFiller).takeWhile isNameChar = name at hname hnone
    have hlabel : label kind c rest = ⟨kind, some name, (rest.takeWhile isFiller).length + 1 + name.length⟩ := by
      simp [label, label?, hn, hnone]
    have hwritten : Token.LabelWritten c (some name) (c :: (rest.takeWhile isFiller ++ name)) :=
      ⟨_, name, rfl, of_mem_takeWhile, ⟨hnone, hn ▸ of_mem_takeWhile⟩, rfl⟩
    rw [hlabel]
    refine ⟨c :: (rest.takeWhile isFiller ++ name), (rest.dropWhile isFiller).dropWhile isNameChar, ?_, ?_, ?_, ?_⟩
    · rw [List.cons_append, List.append_assoc, hname, hrest]
    · simp only [List.length_cons, List.length_append]
      omega
    · rcases eq_of_labelKind hc with rfl | rfl <;> cases hc <;> exact fun _ _ => hwritten
    · exact fun _ => endsName_dropWhile _

theorem word_spells (c : Char) (rest : Text) : ∃ w l, w ++ l = c :: rest ∧ (word c rest).Spells w l := by
  unfold word
  split
  · rename_i h
    obtain ⟨rfl, hhead⟩ := h
    cases rest with
    | nil => cases hhead
    | cons x rest =>
      cases hhead
      exact ⟨['-', '>'], rest, rfl, rfl, fun _ _ => rfl, nofun⟩
  · split
    · rename_i hc
      have hname : IsName (c :: rest.takeWhile isNameChar) :=
        ⟨List.cons_ne_nil _ _, List.forall_mem_cons.2 ⟨hc, of_mem_takeWhile⟩⟩
      refine ⟨c :: rest.takeWhile isNameChar, rest.dropWhile isNameChar, ?_, rfl, fun _ _ => ⟨.inl hname, rfl⟩,
        fun _ => endsName_dropWhile rest⟩
      rw [List.cons_append, List.takeWhile_append_dropWhile]
    · exact ⟨[c], rest, rfl, rfl, fun _ _ => ⟨⟨c, rfl⟩, rfl⟩, nofun⟩

theorem marker_spells {c : Char} {kind : TokenKind} (h : marker? c = some kind) (rest : Text) :
    Spells ⟨kind, none, 1⟩ [c] rest := by
  unfold marker? at h
  repeat' split at h
  all_goals cases h
  all_goals
    subst c
    exact ⟨rfl, fun _ _ => rfl, nofun⟩

/-- **A lexeme stands for the characters it covers**, and a name in it is as long as it can be. -/
theorem first_spells (b : Bool) (c : Char) (rest : Text) : ∃ w l, w ++ l = c :: rest ∧ (first b c rest).Spells w l := by
  unfold first
  split
  · subst c
    exact ⟨['\n'], rest, rfl, rfl, fun _ _ => rfl, nofun⟩
  · split
    · subst c
      split
      · rename_i h
        refine ⟨_, _, ?_, target_spells (Bool.and_eq_true_iff.1 h).2⟩
        rw [List.cons_append, List.takeWhile_append_dropWhile]
      · refine ⟨_, _, ?_, comment_spells rest⟩
        rw [List.cons_append, List.takeWhile_append_dropWhile]
    · split
      · rename_i h
        exact ⟨[c], rest, rfl, marker_spells h rest⟩
      · split
        · rename_i h
          exact label_spells h rest
        · exact word_spells c rest

end Lexeme

/-! ## Runs -/

namespace Lexer

/-- The tokens so far cover what is behind the lexer. -/
structure Covering (t : Text) (lx : Lexer) : Prop where
  wellFormed : WellFormed t lx
  covers : ∃ es, Covers t lx.tokens es lx.cursor.offset

variable {t : Text} {lx : Lexer}

theorem covering_start (t : Text) : Covering t (start t) := ⟨wellFormed_start t, [], .nil t⟩

theorem WellFormed.drop_offset (h : WellFormed t lx) : t.drop lx.cursor.offset = lx.cursor.ahead := by
  rw [← h.text]
  unfold Cursor.text Cursor.offset
  rw [← List.length_reverse, List.drop_left]

theorem WellFormed.take_offset (h : WellFormed t lx) : t.take lx.cursor.offset = lx.cursor.behind.reverse := by
  rw [← h.text]
  exact Lexer.take_offset lx.cursor

theorem offset_advanceBy {c : Cursor} {n : Nat} (h : n ≤ c.ahead.length) : (c.advanceBy n).offset = c.offset + n := by
  have htext := congrArg List.length (Cursor.advanceBy_text n c)
  unfold Cursor.text at htext
  rw [Cursor.advanceBy_ahead] at htext
  simp only [List.length_append, List.length_reverse, List.length_drop] at htext
  unfold Cursor.offset
  omega

theorem Covering.skip (h : Covering t lx) {p : Char → Bool} (hp : ∀ c, p c = true → isBlank c = true) :
    Covering t (lx.skip p) := by
  obtain ⟨es, hes⟩ := h.covers
  have hoffset : (lx.skip p).cursor.offset = lx.cursor.offset + (lx.cursor.run p).length :=
    offset_advanceBy (length_takeWhile_le p lx.cursor.ahead)
  refine ⟨h.wellFormed.skip p, es, hes.skip (by omega) fun i c hi hlt hc => ?_⟩
  obtain ⟨k, rfl⟩ := Nat.exists_eq_add_of_le hi
  rw [← List.getElem?_drop, h.wellFormed.drop_offset, ← Cursor.run_append_skip lx.cursor p,
    List.getElem?_append_left (by omega)] at hc
  exact hp c (of_mem_takeWhile c (List.mem_of_getElem? hc))

theorem Covering.closed (h : Covering t lx) {n : Nat} (hn : n ≤ lx.blocks.length) (line col : Int) :
    Covering t (lx.close n line col) := by
  obtain ⟨es, hes⟩ := h.covers
  refine ⟨h.wellFormed.closed hn line col, es, ?_⟩
  rw [tokens_close]
  exact hes.edges fun x hx => by rw [List.eq_of_mem_replicate hx]; rfl

theorem Covering.settled (h : Covering t lx) (width : Nat) : Covering t (lx.settle width).lexer := by
  unfold settle
  split
  · rename_i hw
    obtain ⟨es, hes⟩ := h.covers
    refine ⟨h.wellFormed.opened hw _ _, es, ?_⟩
    show Covers t (lx.emit ⟨.indent, lx.cursor.line, 1, none⟩).tokens es lx.cursor.offset
    rw [tokens_emit]
    exact hes.edges (by simp [TokenKind.isEdge])
  · split
    · split
      · exact h.closed (length_takeWhile_le _ _) _ _
      · exact h
    · exact h

theorem Covering.readIndentation (h : Covering t lx) : Covering t lx.readIndentation.lexer := by
  have hskip : Covering t (lx.skip (· == ' ')) := h.skip fun c hc => by simp [isBlank, hc]
  unfold Lexer.readIndentation
  split
  · exact hskip
  · exact hskip.settled _

/-- The token of a lexeme is written where the lexer stood. -/
theorem Covering.take (h : Covering t lx) (b : Bool) {c : Char} {rest : Text} (ha : lx.cursor.ahead = c :: rest) :
    Covering t (lx.take (Lexeme.first b c rest)) := by
  obtain ⟨es, hes⟩ := h.covers
  obtain ⟨w, l, hwl, hx⟩ := Lexeme.first_spells b c rest
  have hwf := h.wellFormed
  have htaken := hwf.take b c rest
  generalize Lexeme.first b c rest = x at hx htaken ⊢
  let e : Extent := ⟨⟨x.kind, lx.cursor.line, lx.cursor.column, x.text⟩, lx.cursor.offset, w⟩
  have hdrop : t.drop e.start = w ++ l := by rw [hwl, ← ha]; exact hwf.drop_offset
  have hstop : t.drop e.stop = l := by
    show t.drop (e.start + w.length) = l
    rw [← List.drop_drop, hdrop, List.drop_left]
  have he : e.In t := by
    refine ⟨hx.written _ _, ⟨l, hdrop.symm⟩, ?_, ?_, fun hk => ?_⟩
    · show (lx.cursor.line : Int) = _
      rw [hwf.take_offset, List.count_reverse, ← hwf.placed.line]
    · show (lx.cursor.column : Int) = _
      rw [hwf.take_offset, List.reverse_reverse, ← hwf.placed.column]
    · rw [hstop]
      exact hx.ends hk
  have hoffset : (lx.take x).cursor.offset = e.stop := by
    show (lx.cursor.advanceBy x.length).offset = _
    rw [hx.length]
    refine offset_advanceBy ?_
    rw [ha, ← hwl, List.length_append]
    exact Nat.le_add_right _ _
  refine ⟨htaken, es ++ [e], ?_⟩
  rw [hoffset]
  show Covers t ((lx.advanceBy x.length).emit _).tokens _ _
  rw [tokens_emit]
  exact hes.concat he rfl

theorem Covering.tokenize (h : Covering t lx) : Covering t lx.tokenize.lexer :=
  tokenizeFrom_keeps (P := Covering t) (fun _ h => h.readIndentation) (fun _ h => h.skip fun _ hc => hc)
    (fun _ b _ _ ha h => h.take b ha) (fun _ h => h.closed (Nat.le_refl _) _ _) true lx h

end Lexer

/-- **Lexing is lossless and its places are exact**: every token but the edges of the blocks is written in the text at its
line and column, the tokens stand in order and apart, all other characters are blank, and no name is cut short. -/
theorem tokenize_covers {t : Text} {ts : List Token} (h : tokenize t = .ok ts) : ∃ es, Covers t ts es t.length := by
  obtain ⟨hnone, rfl⟩ := Lexer.run_of_tokenize h
  have hrun := (Lexer.covering_start t).tokenize
  -- a run that succeeds leaves nothing ahead, so what it covers is the whole text
  have hend : (Lexer.start t).tokenize.lexer.cursor.offset = t.length := by
    have hahead := hrun.wellFormed.drop_offset
    rw [(Lexer.tokenize_ends hnone).1, List.drop_eq_nil_iff] at hahead
    have htext := congrArg List.length hrun.wellFormed.take_offset
    rw [List.length_take, List.length_reverse] at htext
    unfold Cursor.offset at hahead htext ⊢
    omega
  rw [← hend]
  exact hrun.covers

/-- A target behind an arrow, an action far from its marker, a marker without a name, and a comment. -/
def crowdedLine : Text := "a\t-> #b >-(c;\r# d".toList

theorem tokenize_covers_crowdedLine :
    ∃ ts, tokenize crowdedLine = .ok ts ∧
      ts.map Token.text = [some ['a'], none, some ['#', 'b'], some ['c'], some [';'], some ['#', ' ', 'd']] ∧
        ∃ es, Covers crowdedLine ts es crowdedLine.length := by
  have h : tokenize crowdedLine = .ok
      [⟨.identifier, 1, 1, some ['a']⟩, ⟨.arrow, 1, 3, none⟩, ⟨.identifier, 1, 6, some ['#', 'b']⟩,
        ⟨.action, 1, 9, some ['c']⟩, ⟨.unknown, 1, 13, some [';']⟩, ⟨.comment, 1, 15, some ['#', ' ', 'd']⟩] := by
    cbv
  exact ⟨_, h, rfl, tokenize_covers h⟩

end Statechart
