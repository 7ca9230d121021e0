import Statechart.Proofs.Doc.YamlBlocks
/-!
# YamlPieces — the pieces that a written line is cut into

A word is written as it is or between single quotes, on one line and at any column; a reader of either form has the word
again, and stops where the writer stopped.  With the laws of lines, blanks and marks this says which pieces a text has
from the pieces of its parts.
-/
namespace Statechart
namespace Yaml

open Doc.Yaml (newLine)

variable {types : Types} {w s t : Text} {c : Char}

/-! ## Words as they are written -/

theorem ne_of_isWordChar {d : Char} (hc : isWordChar c = true) (hd : isWordChar d = false) : c ≠ d := by
  rintro rfl
  rw [hc] at hd
  cases hd

theorem isAscii_of_isWordChar (hc : isWordChar c = true) : Doc.Yaml.isAscii c = true := by
  simp only [isWordChar, isNameChar, Char.isAlphanum, Char.isAlpha, Char.isUpper, Char.isLower, Char.isDigit,
    Bool.or_eq_true, Bool.and_eq_true, decide_eq_true_eq, beq_iff_eq, UInt32.le_iff_toNat_le, ge_iff_le] at hc
  simp only [Doc.Yaml.isAscii, Bool.and_eq_true, decide_eq_true_eq]
  change (((((65 ≤ c.toNat ∧ c.toNat ≤ 90) ∨ (97 ≤ c.toNat ∧ c.toNat ≤ 122)) ∨ (48 ≤ c.toNat ∧ c.toNat ≤ 57)) ∨
    c = '_') ∨ c = '.') ∨ c = '#' at hc
  rcases hc with (((h | h) | rfl) | rfl) | rfl
  · omega
  · omega
  · decide
  · decide
  · decide

namespace IsWord

theorem not_mem (hw : IsWord w) (hc : isWordChar c = false) : c ∉ w := fun hm => ne_of_isWordChar (hw c hm) hc rfl

theorem tail (hw : IsWord (c :: w)) : IsWord w := fun d hd => hw d (List.mem_cons_of_mem c hd)

theorem readable (hw : IsWord w) : w.all isReadable = true :=
  List.all_eq_true.2 fun c hc => isAscii_of_isWordChar (hw c hc)

end IsWord

theorem Folded.eq_of_word (h : Folded w s) (hw : IsWord w) : s = w := by
  induction h with
  | nil => rfl
  | char c _ ih => rw [ih hw.tail]
  | fold _ _ _ => exact absurd (hw ' ' List.mem_cons_self) (by decide)

/-- **A word is written as it is or between single quotes.** -/
theorem Scalar.cases_of_word (h : Scalar w s) (hw : IsWord w) :
    (s = w ∧ startsPlain w = true ∧ plain common w = .text w) ∨ s = '\'' :: (w ++ ['\'']) := by
  cases h with
  | bare starts _ type folded => exact .inl ⟨folded.eq_of_word hw, starts, type hw⟩
  | single same => exact .inr (by rw [same hw])
  | double odd => exact absurd hw odd

/-- A word that types leave a text, at least where the common ones do. -/
structure Keeps (types : Types) (w : Text) : Prop where
  isWord : IsWord w
  type : plain common w = .text w → plain types w = .text w

theorem keeps_common (hw : IsWord w) : Keeps common w := ⟨hw, fun h => h⟩

theorem keeps_standard (hw : IsWord w) (h : w ∉ letters) : Keeps standard w :=
  ⟨hw, fun hplain => plain_standard h ▸ hplain⟩

/-! ## Words as they are read -/

theorem plainFrom_of_word {rest : Text} (hrest : rest = [] ∨ ∃ r, rest = ':' :: r ∧ isGap r = true) :
    ∀ {w : Text}, IsWord w → plainFrom (w ++ rest) = (w, rest)
  | [], _ => by
    rcases hrest with rfl | ⟨r, rfl, hr⟩
    · rfl
    · rw [List.nil_append, plainFrom, if_pos]
      simp [endsPlain, hr]
  | c :: w, hw => by
    have hc := hw c List.mem_cons_self
    have hcolon : c ≠ ':' := ne_of_isWordChar hc (by decide)
    have hblank : c ≠ ' ' := ne_of_isWordChar hc (by decide)
    rw [List.cons_append, plainFrom, plainFrom_of_word hrest hw.tail, if_neg]
    simp [endsPlain, hcolon, hblank]

theorem singleFrom_of_word {rest : Text} (hrest : ∀ c ∈ rest.head?, c ≠ '\'') :
    ∀ {w : Text}, IsWord w → singleFrom false (w ++ '\'' :: rest) = some (w, rest)
  | [], _ => by
    cases rest with
    | nil => rfl
    | cons c rest =>
      show (if c = '\'' then _ else some ([], c :: rest)) = _
      rw [if_neg (hrest c rfl)]
  | c :: w, hw => by
    have hc : c ≠ '\'' := ne_of_isWordChar (hw c List.mem_cons_self) (by decide)
    rw [List.cons_append, singleFrom, if_neg Bool.false_ne_true, if_neg hc, singleFrom_of_word hrest hw.tail]
    rfl

theorem dropEndWhile_of_word (hw : IsWord w) : Text.dropEndWhile (· == ' ') w = w := by
  have hblank : ∀ c ∈ w.reverse.head?, (c == ' ') = false := by
    intro c hc
    have hc : c ∈ w := List.mem_reverse.1 (List.mem_of_mem_head? hc)
    exact beq_eq_false_iff_ne.2 (ne_of_isWordChar (hw c hc) (by decide))
  have hdrop := dropWhile_append_of_head hblank []
  rw [List.nil_append] at hdrop
  rw [Text.dropEndWhile, hdrop, List.dropWhile_nil, List.nil_append, List.reverse_reverse]

/-- The start of a scalar that cannot be the start of anything else. -/
def begins (c : Char) : Bool := !" #-?:".toList.contains c

theorem begins_of_isWordChar (hc : isWordChar c = true) (hhash : c ≠ '#') : begins c = true := by
  have hblank : c ≠ ' ' := ne_of_isWordChar hc (by decide)
  have hdash : c ≠ '-' := ne_of_isWordChar hc (by decide)
  have hask : c ≠ '?' := ne_of_isWordChar hc (by decide)
  have hcolon : c ≠ ':' := ne_of_isWordChar hc (by decide)
  simp [begins, hblank, hhash, hdash, hask, hcolon]

/-- What starts a plain text is no blank and no hash. -/
theorem exists_of_startsPlain (h : startsPlain w = true) : ∃ c rest, w = c :: rest ∧ c ≠ '#' := by
  cases w with
  | nil => cases h
  | cons c rest =>
    refine ⟨c, rest, rfl, ?_⟩
    rintro rfl
    have hhash : indicators.contains '#' = true := by decide
    rw [startsPlain, hhash] at h
    cases h

theorem Scalar.begins (h : Scalar w s) (hw : IsWord w) : ∃ c rest, s = c :: rest ∧ begins c = true := by
  rcases h.cases_of_word hw with ⟨rfl, starts, -⟩ | rfl
  · obtain ⟨c, rest, rfl, hhash⟩ := exists_of_startsPlain starts
    exact ⟨c, rest, rfl, begins_of_isWordChar (hw c List.mem_cons_self) hhash⟩
  · exact ⟨'\'', _, rfl, by decide⟩

theorem startsPlain_append (rest : Text) (hw : IsWord w) (h : startsPlain w = true) :
    startsPlain (w ++ rest) = true := by
  cases w with
  | nil => cases h
  | cons c w =>
    have hmarks : ∀ d ∈ marks, (!isWordChar d) = true := List.all_eq_true.1 (by decide)
    have hmark : c ∉ marks := fun hm => by simpa [hw c List.mem_cons_self] using hmarks c hm
    have hindicator : c ∉ indicators := by
      intro hm
      simp [startsPlain, hm] at h
    simp [startsPlain, hmark, hindicator]

section

variable {rest : Text} (hrest : rest = [] ∨ ∃ r, rest = ':' :: r ∧ isGap r = true)
include hrest

/-- A word without quotes is read as what its type makes of it. -/
theorem scalar?_bare (types : Types) (hw : IsWord w) (starts : startsPlain w = true) :
    scalar? types (w ++ rest) = some (plain types w, rest) := by
  have hread := plainFrom_of_word hrest hw
  have hstart := startsPlain_append rest hw starts
  obtain ⟨c, t, rfl, -⟩ := exists_of_startsPlain starts
  have hc := hw c List.mem_cons_self
  rw [List.cons_append] at hread hstart
  rw [List.cons_append, scalar?, if_neg (ne_of_isWordChar hc (by decide)), hread, hstart, hw.readable, Bool.and_self,
    if_pos rfl, dropEndWhile_of_word hw]

/-- **A word is read as it was written**, at the end of a line and before the colon of a key. -/
theorem Scalar.reads (h : Scalar w s) (hw : Keeps types w) : scalar? types (s ++ rest) = some (.text w, rest) := by
  rcases h.cases_of_word hw.isWord with ⟨rfl, starts, htype⟩ | rfl
  · rw [scalar?_bare hrest types hw.isWord starts, hw.type htype]
  · have hquote : ∀ c ∈ rest.head?, c ≠ '\'' := by
      intro c hc
      rcases hrest with rfl | ⟨r, rfl, -⟩
      · cases hc
      · cases hc
        decide
    rw [List.cons_append, List.append_assoc, scalar?, if_pos rfl]
    have hread : singleFrom false (w ++ (['\''] ++ rest)) = some (w, rest) := singleFrom_of_word hquote hw.isWord
    rw [hread]
    simp only [hw.isWord.readable, if_true]

end

/-! ## Scalars and keys on a line -/

/-- A text that is a scalar and nothing else. -/
structure Written (types : Types) (t : Text) (v : Yaml) : Prop where
  first : ∃ c rest, t = c :: rest ∧ begins c = true
  inline : '\n' ∉ t
  reads : scalar? types t = some (v, [])

theorem Scalar.not_mem (h : Scalar w s) (hw : IsWord w) (hc : isWordChar c = false) (hquote : c ≠ '\'') : c ∉ s := by
  rcases h.cases_of_word hw with ⟨rfl, -, -⟩ | rfl
  · exact hw.not_mem hc
  · simp [hquote, hw.not_mem hc]

theorem Scalar.written (h : Scalar w s) (hw : Keeps types w) : Written types s (.text w) where
  first := h.begins hw.isWord
  inline := h.not_mem hw.isWord (by decide) (by decide)
  reads := by
    have hreads := h.reads (.inl rfl) hw
    rwa [List.append_nil] at hreads

theorem plain_flag (b : Bool) : plain common (Doc.Yaml.flag b) = .flag b := by
  cases b <;> rfl

/-- A truth value, where it has the type of one. -/
theorem written_flag {b : Bool} (h : plain types (Doc.Yaml.flag b) = .flag b) :
    Written types (Doc.Yaml.flag b) (.flag b) := by
  have hreads : scalar? types (Doc.Yaml.flag b) = some (.flag b, []) := by
    have hword : IsWord (Doc.Yaml.flag b) := by cases b <;> decide
    have hstarts : startsPlain (Doc.Yaml.flag b) = true := by cases b <;> decide
    have hbare := scalar?_bare (.inl rfl) types hword hstarts
    rwa [List.append_nil, h] at hbare
  cases b with
  | true => exact ⟨⟨'t', _, rfl, by decide⟩, by decide, hreads⟩
  | false => exact ⟨⟨'f', _, rfl, by decide⟩, by decide, hreads⟩

theorem ne_of_begins {d : Char} (hc : begins c = true) (hd : begins d = false) : c ≠ d := by
  rintro rfl
  rw [hc] at hd
  cases hd

theorem linePieces?_of_begins (hc : begins c = true) (column : Nat) (rest : Text) :
    linePieces? types column (c :: rest) = lastPieces? types column (c :: rest) := by
  have hmark : mark? c rest = none := by
    unfold mark?
    rw [if_neg (ne_of_begins hc (by decide)), if_neg (ne_of_begins hc (by decide)),
      if_neg (ne_of_begins hc (by decide)), ite_self]
  rw [linePieces?, if_neg (ne_of_begins hc (by decide)), if_neg (ne_of_begins hc (by decide)), hmark]

theorem linePieces?_written {v : Yaml} (h : Written types t v) {column : Nat} (hcolumn : column ≠ 0) :
    linePieces? types column t = some [⟨column, .scalar v⟩] := by
  obtain ⟨c, rest, rfl, hc⟩ := h.first
  rw [linePieces?_of_begins hc, lastPieces?, if_neg fun hm => hcolumn hm.1, h.reads]
  rfl

theorem valuePieces?_written {v : Yaml} (h : Written types t v) (column : Nat) :
    valuePieces? types column t = some [⟨column, .scalar v⟩] := by
  obtain ⟨c, rest, rfl, hc⟩ := h.first
  rw [valuePieces?, if_neg (ne_of_begins hc (by decide)), if_neg (ne_of_begins hc (by decide)), h.reads]
  rfl

theorem isMarker_of_colon {rest : Text} : ∀ {t : Text}, ' ' ∉ t → isMarker (t ++ ':' :: rest) = false
  | [], _ => by simp [isMarker]
  | [_], _ => by simp [isMarker]
  | [_, _], _ => by simp [isMarker]
  | [_, _, _], _ => by simp [isMarker, isGap]
  | _ :: _ :: _ :: d :: _, h => by
    have hd : d ≠ ' ' := fun hd => h (by simp [hd])
    simp [isMarker, isGap, hd]

/-- **A word before a colon and a gap is a key**; what is behind the colon is a value. -/
theorem Scalar.linePieces?_key (h : Scalar w s) (hw : Keeps types w) (hlimit : s.length < keyLimit) (column : Nat)
    {rest : Text} (hrest : isGap rest = true) :
    linePieces? types column (s ++ ':' :: rest) =
      (valuePieces? types (column + (s.length + 1)) rest).map (⟨column, .key w⟩ :: ·) := by
  have hread := h.reads (.inr ⟨rest, rfl, hrest⟩) hw
  have hmarker : isMarker (s ++ ':' :: rest) = false :=
    isMarker_of_colon (h.not_mem hw.isWord (by decide) (by decide))
  have hcolon : behindColon? (':' :: rest) = some rest := by simp [behindColon?, hrest]
  have hlen : (s ++ ':' :: rest).length - rest.length = s.length + 1 := by
    rw [List.length_append, List.length_cons]
    omega
  have hpieces : linePieces? types column (s ++ ':' :: rest) = lastPieces? types column (s ++ ':' :: rest) := by
    obtain ⟨c, t, hfirst, hc⟩ := h.begins hw.isWord
    rw [hfirst]
    exact linePieces?_of_begins hc column (t ++ ':' :: rest)
  rw [hpieces, lastPieces?, hmarker, if_neg (fun h => Bool.false_ne_true h.2), hread]
  simp only [hcolon, hlen, if_pos (Nat.succ_le_of_lt hlimit)]

/-! ## Lines -/

theorem lines_cons (hc : c ≠ '\n') (t : Text) :
    ∃ l ls, Text.lines t = l :: ls ∧ Text.lines (c :: t) = (c :: l) :: ls := by
  cases hlines : Text.lines t with
  | nil => exact absurd hlines (Text.lines_ne_nil t)
  | cons l ls =>
    refine ⟨l, ls, rfl, ?_⟩
    rw [Text.lines] at hlines ⊢
    rw [Text.splitAt, if_neg hc, hlines]

theorem linesPieces?_append : ∀ {ls ls' : List Text} {ps qs : List Piece}, linesPieces? types ls = some ps →
    linesPieces? types ls' = some qs → linesPieces? types (ls ++ ls') = some (ps ++ qs)
  | [], _, _, _, h, h' => by
    cases h
    exact h'
  | l :: ls, _, _, _, h, h' => by
    simp only [linesPieces?, Option.bind_eq_bind, Option.bind_eq_some_iff, Option.pure_def, Option.some.injEq] at h
    obtain ⟨ps, hl, others, hls, rfl⟩ := h
    rw [List.cons_append, linesPieces?, hl, linesPieces?_append hls h', List.append_assoc]
    rfl

theorem piecesFrom?_of_inline (h : '\n' ∉ t) (column : Nat) :
    piecesFrom? types column t = linePieces? types column t := by
  rw [piecesFrom?, Text.lines, Text.splitAt_of_inline h]
  cases hline : linePieces? types column t <;> simp [hline, linesPieces?]

/-- A blank moves what follows by a column. -/
theorem piecesFrom?_blank (column : Nat) (t : Text) :
    piecesFrom? types column (' ' :: t) = piecesFrom? types (column + 1) t := by
  obtain ⟨l, ls, hlines, hcons⟩ := lines_cons (c := ' ') (by decide) t
  rw [piecesFrom?, piecesFrom?, hlines, hcons]
  rfl

theorem piecesFrom?_blanks : ∀ (n column : Nat) (t : Text),
    piecesFrom? types column (Text.blanks n ++ t) = piecesFrom? types (column + n) t
  | 0, _, _ => rfl
  | n + 1, column, t => by
    rw [Text.blanks, List.replicate_succ, List.cons_append, piecesFrom?_blank, ← Text.blanks, piecesFrom?_blanks n,
      Nat.add_assoc, Nat.add_comm 1 n]

/-- A mark before a blank is a piece of its own. -/
theorem piecesFrom?_mark {m : Mark} (hm : ∀ rest, mark? c (' ' :: rest) = some m) (hc : c ∈ marks) (column : Nat)
    (t : Text) :
    piecesFrom? types column (c :: ' ' :: t) = (piecesFrom? types (column + 2) t).map (⟨column, m⟩ :: ·) := by
  have hline : c ≠ '\n' := ne_of_mem_of_not_mem hc (by decide)
  have hblank : c ≠ ' ' := ne_of_mem_of_not_mem hc (by decide)
  have hhash : c ≠ '#' := ne_of_mem_of_not_mem hc (by decide)
  obtain ⟨l, ls, hlines, hcons⟩ := lines_cons (c := ' ') (by decide) t
  obtain ⟨l', ls', hlines', hcons'⟩ := lines_cons hline (' ' :: t)
  rw [hcons] at hlines'
  cases hlines'
  rw [piecesFrom?, piecesFrom?, hcons', hlines]
  show (do return (← linePieces? types column (c :: ' ' :: l)) ++ (← linesPieces? types ls)) = _
  rw [linePieces?, if_neg hblank, if_neg hhash, hm]
  show (do return (← (linePieces? types (column + 2) l).map (Piece.mk column m :: ·)) ++ (← linesPieces? types ls)) = _
  cases hl : linePieces? types (column + 2) l with
  | none => simp [hl]
  | some ps => cases hls : linesPieces? types ls <;> simp [hl, hls]

/-- **The lines below a text add their pieces.** -/
theorem piecesFrom?_newLine {column indent : Nat} {u : Text} {ps qs : List Piece}
    (ht : piecesFrom? types column t = some ps) (hu : piecesFrom? types indent u = some qs) :
    piecesFrom? types column (t ++ (newLine indent ++ u)) = some (ps ++ qs) := by
  -- the lines below begin at the left, and their blanks lead to the indentation
  have hbelow : linesPieces? types (Text.lines (Text.blanks indent ++ u)) = some qs := by
    have h : piecesFrom? types 0 (Text.blanks indent ++ u) = _ := piecesFrom?_blanks indent 0 u
    rw [Nat.zero_add, hu] at h
    rw [← h, piecesFrom?]
    cases Text.lines (Text.blanks indent ++ u) <;> rfl
  have hlines : Text.lines (t ++ (newLine indent ++ u)) = Text.lines t ++ Text.lines (Text.blanks indent ++ u) :=
    Text.splitAt_append_cons '\n' _ t
  rw [piecesFrom?] at ht ⊢
  rw [hlines]
  cases hfirst : Text.lines t with
  | nil => exact absurd hfirst (Text.lines_ne_nil t)
  | cons l ls =>
    rw [hfirst] at ht
    simp only [Option.bind_eq_bind, Option.bind_eq_some_iff, Option.pure_def, Option.some.injEq] at ht
    obtain ⟨ps, hl, others, hls, rfl⟩ := ht
    rw [List.cons_append]
    show (do return (← linePieces? types column l) ++ (← linesPieces? types (ls ++ _))) = _
    rw [hl, linesPieces?_append hls hbelow, List.append_assoc]
    rfl

end Yaml
end Statechart
