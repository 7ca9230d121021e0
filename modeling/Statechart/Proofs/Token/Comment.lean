import Mathlib.Data.List.TakeWhile
import Statechart.Proofs.Token.Outline
/-!
# Comment — blanks and comments say nothing

A line of blanks, with or without a comment, has an empty row.  A comment behind a line leaves its row as it is, with
one exception: `;` and `>` take the next name of the line, also across `#`, so one that found no name takes one from the
comment (`Dangles`).  Then the row had no place in a chart before.
-/
namespace Statechart

open Lexeme (first target comment label labelKind? word startsName)

theorem first_hash (b : Bool) (rest : Text) :
    first b '#' rest = if b && startsName rest then target rest else comment rest := rfl

/-- **A comment reaches to the end of the line.** -/
theorem signs_comment {b : Bool} {rest : Text} (hb : (b && startsName rest) = false)
    (hrest : ∀ c ∈ rest, isLineEnd c = false) : signs b ('#' :: rest) = [] := by
  have htake : rest.takeWhile (fun c => !isLineEnd c) = rest := List.takeWhile_eq_self_iff.2 (by simpa using hrest)
  have hfirst : first b '#' rest = ⟨.comment, some ('#' :: rest), rest.length + 1⟩ := by
    rw [first_hash, hb]
    unfold comment
    rw [htake]
    rfl
  have hd : ('#' :: rest).dropWhile isBlank = '#' :: rest := rfl
  rw [signs_of_lexeme hd, hfirst]
  show signs false (('#' :: rest).drop (rest.length + 1)) = []
  rw [List.drop_of_length_le (Nat.le_refl (rest.length + 1))]
  exact signs_of_blank rfl false

/-- A line of blanks, and perhaps a comment behind them. -/
def IsInert (l : Text) : Prop :=
  ∃ gap rest, l = gap ++ rest ∧ (∀ c ∈ gap, isBlank c = true) ∧
    (rest = [] ∨ ∃ body, rest = '#' :: body ∧ ∀ c ∈ body, isLineEnd c = false)

theorem IsInert.inline {l : Text} (h : IsInert l) : '\n' ∉ l := by
  obtain ⟨gap, rest, rfl, hgap, hrest⟩ := h
  intro hm
  rcases List.mem_append.1 hm with hm | hm
  · exact absurd (hgap _ hm) (by decide)
  · rcases hrest with rfl | ⟨body, rfl, hbody⟩
    · cases hm
    · rcases List.mem_cons.1 hm with hm | hm
      · cases hm
      · exact absurd (hbody _ hm) (by decide)

/-- **The row of such a line is empty.** -/
theorem IsInert.row {l : Text} (h : IsInert l) : Row.ofLine l = ⟨none, []⟩ := by
  obtain ⟨gap, rest, rfl, hgap, hrest⟩ := h
  have hd : (gap ++ rest).dropWhile isBlank = rest.dropWhile isBlank := List.dropWhile_append_of_pos hgap
  unfold Row.ofLine LineByLine.isSignificant
  rw [← signs_dropWhile, hd]
  rcases hrest with rfl | ⟨body, rfl, hbody⟩
  · rw [List.dropWhile_nil, signs_of_blank rfl]
    rfl
  · have hhash : ('#' :: body).dropWhile isBlank = '#' :: body := rfl
    rw [hhash, signs_comment rfl hbody]
    rfl

/-! ## A comment behind a line -/

/-- What a comment `x` adds to a line. -/
def trail (x : Text) : Text := ' ' :: '#' :: ' ' :: x

/-- A `;` or `>` of the line finds no name, and nothing behind it ends the search. -/
def Dangles (afterArrow : Bool) (l : Text) : Prop :=
  ∃ front m back, l = front ++ m :: back ∧ (m = ';' ∨ m = '>') ∧ (∀ c ∈ back, isFiller c = true) ∧
    ∃ t ∈ lineWords 1 afterArrow 1 l, t.col = front.length + 1

theorem lineWords_shift (number : Int) (k : Nat) (b : Bool) (column : Nat) (l : Text) :
    lineWords number b (column + k) l = (lineWords number b column l).map (fun t => { t with col := t.col + k }) := by
  cases hd : l.dropWhile isBlank with
  | nil =>
    rw [lineWords_of_blank hd, lineWords_of_blank hd]
    rfl
  | cons c rest =>
    have hdrop := length_drop_first_lt hd b
    have hplace : column + k + (l.takeWhile isBlank).length = column + (l.takeWhile isBlank).length + k := by omega
    have hnext : column + (l.takeWhile isBlank).length + k + (first b c rest).length =
        column + (l.takeWhile isBlank).length + (first b c rest).length + k := by omega
    rw [lineWords_of_lexeme hd, lineWords_of_lexeme hd, List.map_cons, hplace, hnext, lineWords_shift]
    rfl
termination_by l.length
decreasing_by exact hdrop

section

variable {c : Char} {l rest x : Text} {b : Bool}

theorem Dangles.here (h : l.dropWhile isBlank = c :: rest) (hc : c = ';' ∨ c = '>')
    (hrest : ∀ y ∈ rest, isFiller y = true) : Dangles b l := by
  refine ⟨l.takeWhile isBlank, c, rest, ?_, hc, hrest, ?_⟩
  · rw [← h, List.takeWhile_append_dropWhile]
  · rw [lineWords_of_lexeme h]
    exact ⟨_, List.mem_cons_self, by push_cast; omega⟩

theorem Dangles.later (h : l.dropWhile isBlank = c :: rest)
    (hd : Dangles ((first b c rest).kind == .arrow) ((c :: rest).drop (first b c rest).length)) : Dangles b l := by
  obtain ⟨front, m, back, hback, hm, hfill, t, ht, hcol⟩ := hd
  have hle : (first b c rest).length ≤ (c :: rest).length := Lexeme.length_first_le b c rest
  refine ⟨l.takeWhile isBlank ++ ((c :: rest).take (first b c rest).length ++ front), m, back, ?_, hm, hfill,
    { t with col := t.col + ((l.takeWhile isBlank).length + (first b c rest).length : Nat) }, ?_, ?_⟩
  · rw [List.append_assoc, List.append_assoc, ← hback, List.take_append_drop, ← h, List.takeWhile_append_dropWhile]
  · rw [lineWords_of_lexeme h, Nat.add_assoc, lineWords_shift]
    exact List.mem_cons_of_mem _ (List.mem_map_of_mem ht)
  · rw [List.length_append, List.length_append, List.length_take_of_le hle]
    push_cast
    omega

theorem Dangles.last (h : Dangles b l) : ∀ c ∈ l.getLast?, isNameChar c = false := by
  obtain ⟨front, m, back, rfl, hm, hfill, -⟩ := h
  intro c hc
  rw [List.getLast?_append, List.getLast?_cons, Option.some_or] at hc
  obtain rfl := Option.some.inj hc
  cases hback : back.getLast? with
  | none => rcases hm with rfl | rfl <;> decide
  | some y =>
    have hy := hfill y (List.mem_of_getLast? hback)
    unfold isFiller at hy
    simp only [Option.getD_some]
    cases hname : isNameChar y <;> simp [hname] at hy ⊢

theorem startsName_trail (rest x : Text) : startsName (rest ++ trail x) = startsName rest := by cases rest <;> rfl

theorem takeWhile_trail {p : Char → Bool} (hp : p ' ' = false) (rest x : Text) :
    (rest ++ trail x).takeWhile p = rest.takeWhile p := by
  refine takeWhile_append_of_head (fun y hy => ?_) rest
  obtain rfl := Option.some.inj hy
  exact hp

theorem word_trail (c : Char) (rest x : Text) : word c (rest ++ trail x) = word c rest := by
  have hhead : (rest ++ trail x).head? = some '>' ↔ rest.head? = some '>' := by
    cases rest with
    | nil => exact ⟨fun h => (nomatch Option.some.inj h), nofun⟩
    | cons y rest => rfl
  unfold word
  rw [takeWhile_trail (by decide)]
  simp only [hhead]

theorem comment_trail (h : ¬ ∀ y ∈ rest, isLineEnd y = false) (x : Text) : comment (rest ++ trail x) = comment rest := by
  have hstop : (rest.takeWhile (fun y => !isLineEnd y)).length ≠ rest.length := by
    intro hlen
    refine h fun y hy => ?_
    have hall := List.takeWhile_eq_self_iff.1 ((List.takeWhile_prefix _).eq_of_length hlen)
    simpa using hall y hy
  unfold comment
  rw [List.takeWhile_append, if_neg hstop]

/-- A marker that finds its name on the line, or none in the comment, finds the same. -/
theorem label?_trail (hx : ∀ y ∈ x, isLineEnd y = false)
    (h : (∀ y ∈ rest, isFiller y = true) → ∀ y ∈ x, isNameChar y = false) :
    label? (c :: (rest ++ trail x)) = label? (c :: rest) := by
  unfold label?
  rw [List.tail_cons, List.tail_cons]
  by_cases hfill : ∀ y ∈ rest, isFiller y = true
  · have hxfill : ∀ y ∈ x, isFiller y = true := by
      intro y hy
      unfold isFiller
      rw [h hfill y hy, hx y hy]
      rfl
    have htrail : ∀ y ∈ trail x, isFiller y = true :=
      List.forall_mem_cons.2 ⟨rfl, List.forall_mem_cons.2 ⟨rfl, List.forall_mem_cons.2 ⟨rfl, hxfill⟩⟩⟩
    rw [List.dropWhile_append_of_pos hfill, List.dropWhile_eq_nil_iff.2 htrail, List.dropWhile_eq_nil_iff.2 hfill]
    rfl
  · have hdrop : (rest ++ trail x).dropWhile isFiller = rest.dropWhile isFiller ++ trail x := by
      rw [List.dropWhile_append, if_neg fun hnil => hfill (List.dropWhile_eq_nil_iff.1 (List.isEmpty_iff.1 hnil))]
    have htake : (rest ++ trail x).takeWhile isFiller = rest.takeWhile isFiller := by
      rw [List.takeWhile_append, if_neg fun hlen => hfill (List.takeWhile_eq_self_iff.1
        ((List.takeWhile_prefix _).eq_of_length hlen))]
    rw [hdrop, htake, takeWhile_trail (by decide)]

theorem label_of_fillers (h : ∀ y ∈ rest, isFiller y = true) (kind : TokenKind) :
    label kind c rest = ⟨.unknown, some [c], 1⟩ := by
  unfold label label?
  rw [List.tail_cons, List.dropWhile_eq_nil_iff.2 h]
  rfl

/-- **A comment behind a line leaves a lexeme as it is**, or lengthens a comment, or gives a name to a marker. -/
theorem first_trail (hx : ∀ y ∈ x, isLineEnd y = false) (b : Bool) (c : Char) (rest : Text) :
    first b c (rest ++ trail x) = first b c rest ∨
      (c = '#' ∧ (b && startsName rest) = false ∧ ∀ y ∈ rest, isLineEnd y = false) ∨
      ((c = ';' ∨ c = '>') ∧ (∀ y ∈ rest, isFiller y = true) ∧ ∃ y ∈ x, isNameChar y = true) := by
  by_cases hhash : c = '#'
  · subst hhash
    rw [first_hash, first_hash, startsName_trail]
    cases hb : b && startsName rest with
    | true =>
      have htarget : target (rest ++ trail x) = target rest := by
        unfold target
        rw [takeWhile_trail (by decide)]
      rw [htarget]
      exact .inl rfl
    | false =>
      by_cases hrest : ∀ y ∈ rest, isLineEnd y = false
      · exact .inr (.inl ⟨rfl, rfl, hrest⟩)
      · rw [comment_trail hrest]
        exact .inl rfl
  · unfold first
    rw [if_neg hhash, if_neg hhash]
    cases hk : labelKind? c with
    | none => exact .inl (by rw [word_trail])
    | some kind =>
      by_cases hdangles : (∀ y ∈ rest, isFiller y = true) ∧ ∃ y ∈ x, isNameChar y = true
      · exact .inr (.inr ⟨Lexeme.eq_of_labelKind hk, hdangles⟩)
      · refine .inl ?_
        unfold label
        rw [label?_trail hx]
        intro hfill y hy
        exact Bool.eq_false_iff.2 fun hname => hdangles ⟨hfill, y, hy, hname⟩

/-- **A comment behind a line leaves its words as they are**, unless a marker finds its name there; then a character of
the line had no meaning before. -/
theorem signs_trail (hx : ∀ y ∈ x, isLineEnd y = false) (b : Bool) (l : Text) :
    signs b (l ++ trail x) = signs b l ∨
      ((Dangles b l ∧ ∃ y ∈ x, isNameChar y = true) ∧ ∃ w ∈ signs b l, w.1 = .unknown) := by
  have hcomment : ∀ {b : Bool} {rest : Text}, (b && startsName rest) = false → (∀ y ∈ rest, isLineEnd y = false) →
      signs b ('#' :: (rest ++ trail x)) = [] := by
    intro b rest hb hrest
    refine signs_comment (by rw [startsName_trail]; exact hb) (List.forall_mem_append.2 ⟨hrest, ?_⟩)
    exact List.forall_mem_cons.2 ⟨rfl, List.forall_mem_cons.2 ⟨rfl, List.forall_mem_cons.2 ⟨rfl, hx⟩⟩⟩
  cases hd : l.dropWhile isBlank with
  | nil =>
    have hend : (l ++ trail x).dropWhile isBlank = '#' :: ' ' :: x := by
      rw [List.dropWhile_append, hd]
      rfl
    refine .inl ?_
    rw [← signs_dropWhile, hend, signs_of_blank hd]
    exact signs_comment (Bool.and_false b) (List.forall_mem_cons.2 ⟨rfl, hx⟩)
  | cons c rest =>
    have hd' : (l ++ trail x).dropWhile isBlank = c :: (rest ++ trail x) := by
      rw [List.dropWhile_append, hd]
      rfl
    have hshort := length_drop_first_lt hd b
    rcases first_trail hx b c rest with hsame | ⟨rfl, hb, hrest⟩ | ⟨hc, hfill, hname⟩
    -- the first lexeme stays as it is, and the rest of the line is shorter
    · have hdrop : (c :: (rest ++ trail x)).drop (first b c rest).length =
          (c :: rest).drop (first b c rest).length ++ trail x := by
        rw [← List.cons_append, List.drop_append_of_le_length (Lexeme.length_first_le b c rest)]
      rw [signs_of_lexeme hd, signs_of_lexeme hd', hsame, hdrop]
      rcases signs_trail hx ((first b c rest).kind == .arrow) ((c :: rest).drop (first b c rest).length) with
        hlater | ⟨⟨hdangles, hname⟩, w, hw, hunknown⟩
      · exact .inl (by rw [hlater])
      · exact .inr ⟨⟨hdangles.later hd, hname⟩, w, List.mem_append_right _ hw, hunknown⟩
    -- a comment of the line goes on into the new one
    · refine .inl ?_
      rw [← signs_dropWhile, hd', ← signs_dropWhile b l, hd, hcomment hb hrest, signs_comment hb hrest]
    -- a marker finds its name in the comment; alone it had no meaning
    · refine .inr ⟨⟨.here hd hc hfill, hname⟩, (.unknown, some [c]), ?_, rfl⟩
      have hfirst : first b c rest = ⟨.unknown, some [c], 1⟩ := by
        rcases hc with rfl | rfl <;> exact label_of_fillers hfill _
      rw [signs_of_lexeme hd, hfirst]
      exact List.mem_append_left _ (List.mem_singleton_self _)
termination_by l.length
decreasing_by exact hshort

/-- **A comment behind a line leaves its row as it is**, unless a marker finds its name there; then the row had no place
in a chart before. -/
theorem row_trail (hx : ∀ y ∈ x, isLineEnd y = false) (l : Text) :
    Row.ofLine (l ++ trail x) = Row.ofLine l ∨
      ((Dangles false l ∧ ∃ y ∈ x, isNameChar y = true) ∧ ∃ w ∈ (Row.ofLine l).words, w.1 = .unknown) := by
  have hwidth : (Row.ofLine (l ++ trail x)).width = (Row.ofLine l).width := by
    unfold Row.ofLine LineByLine.isSignificant LineByLine.width
    rw [List.dropWhile_append]
    cases hd : l.dropWhile isBlank with
    | nil => rfl
    | cons c rest =>
      have hstop : (l.takeWhile (· == ' ')).length ≠ l.length := by
        intro hlen
        have hall := List.takeWhile_eq_self_iff.1 ((List.takeWhile_prefix _).eq_of_length hlen)
        rw [List.dropWhile_eq_nil_iff.2 fun y hy => by rw [beq_iff_eq.1 (hall y hy)]; rfl] at hd
        cases hd
      rw [List.takeWhile_append, if_neg hstop]
      rfl
  refine (signs_trail hx false l).imp_left fun hsigns => ?_
  exact congrArg₂ Row.mk hwidth hsigns

end
end Statechart
