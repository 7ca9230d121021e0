import Statechart.Doc.Json
import Statechart.Proofs.Doc.JsonReader
/-!
# JsonPieces — what a written document is cut into

Escaping a character and reading it back are inverse to each other, and so are writing a number and reading its digits.
From there on only the pieces count: a document is cut into the same pieces in every layout (`reads_written`), since
layouts differ in white space alone.  A number is the only piece that does not know its own end, so what stands behind
it has to end it.
-/
namespace Statechart

open Doc.Json (Layout escaped enclosed written writtenItems writtenEntries)

namespace Json

/-! ## Strings -/

theorem hex?_digitChar : ∀ d < 16, hex? (Nat.digitChar d) = some d := by decide

theorem unit?_ofDigits {n : Nat} (h : n < 0x100) (rest : Text) :
    unit? ('0' :: '0' :: Nat.digitChar (n / 16) :: Nat.digitChar (n % 16) :: rest) = some (n, rest) := by
  have h0 : hex? '0' = some 0 := by decide
  have h1 : hex? (Nat.digitChar (n / 16)) = some (n / 16) := hex?_digitChar _ (by omega)
  have h2 : hex? (Nat.digitChar (n % 16)) = some (n % 16) := hex?_digitChar _ (by omega)
  have hn : ((0 * 16 + 0) * 16 + n / 16) * 16 + n % 16 = n := by omega
  simp only [unit?, h0, h1, h2, Option.bind_eq_bind, Option.bind_some, Option.pure_def, hn]

theorem escape?_control {c : Char} (h : c.toNat < 0x20) (rest : Text) :
    escape? ('u' :: '0' :: '0' :: Nat.digitChar (c.toNat / 16) :: Nat.digitChar (c.toNat % 16) :: rest) =
      some (c, rest) := by
  have hhigh : isHigh c.toNat = false := decide_eq_false (by omega)
  have hlow : isLow c.toNat = false := decide_eq_false (by omega)
  rw [escape?, if_pos rfl]
  simp only [unicode?, unit?_ofDigits (show c.toNat < 0x100 by omega) rest, hhigh, hlow, Char.ofNat_toNat,
    Bool.false_eq_true, if_false]

/-- The three ways to write a character: an escape of one letter, one of four digits, and the character itself. -/
theorem escaped_cases (c : Char) :
    (∃ e, e ≠ 'u' ∧ short? e = some c ∧ escaped c = ['\\', e]) ∨
    (c.toNat < 0x20 ∧ escaped c =
      ['\\', 'u', '0', '0', Nat.digitChar (c.toNat / 16), Nat.digitChar (c.toNat % 16)]) ∨
    (c ≠ '\\' ∧ ¬(c = '"' ∨ c.toNat < 0x20) ∧ escaped c = [c]) := by
  have hshort : ∀ x e : Char, e ≠ 'u' → short? e = some x → escaped x = ['\\', e] → c = x →
      ∃ e, e ≠ 'u' ∧ short? e = some c ∧ escaped c = ['\\', e] := by
    rintro x e hu hx hw rfl
    exact ⟨e, hu, hx, hw⟩
  by_cases h₁ : c = '"'
  · exact .inl (hshort '"' '"' (by decide) (by decide) (by decide) h₁)
  by_cases h₂ : c = '\\'
  · exact .inl (hshort '\\' '\\' (by decide) (by decide) (by decide) h₂)
  by_cases h₃ : c = '\n'
  · exact .inl (hshort '\n' 'n' (by decide) (by decide) (by decide) h₃)
  by_cases h₄ : c = '\r'
  · exact .inl (hshort '\r' 'r' (by decide) (by decide) (by decide) h₄)
  by_cases h₅ : c = '\t'
  · exact .inl (hshort '\t' 't' (by decide) (by decide) (by decide) h₅)
  by_cases h₆ : c = '\x08'
  · exact .inl (hshort '\x08' 'b' (by decide) (by decide) (by decide) h₆)
  by_cases h₇ : c = '\x0c'
  · exact .inl (hshort '\x0c' 'f' (by decide) (by decide) (by decide) h₇)
  by_cases h₈ : c.toNat < 0x20
  · exact .inr (.inl ⟨h₈, by simp [escaped, h₁, h₂, h₃, h₄, h₅, h₆, h₇, h₈]⟩)
  · exact .inr (.inr ⟨h₂, by simp [h₁, h₈], by simp [escaped, h₁, h₂, h₃, h₄, h₅, h₆, h₇, h₈]⟩)

/-- **An escaped character is read as itself.** -/
theorem char?_escaped (c : Char) (rest : Text) : char? (escaped c ++ rest) = some (c, rest) := by
  rcases escaped_cases c with ⟨e, hu, he, hw⟩ | ⟨hcontrol, hw⟩ | ⟨hback, hplain, hw⟩
  · rw [hw]
    show char? ('\\' :: e :: rest) = _
    rw [char?, if_pos rfl, escape?, if_neg hu, he]
    rfl
  · rw [hw]
    show char? ('\\' :: _) = _
    rw [char?, if_pos rfl]
    exact escape?_control hcontrol rest
  · rw [hw]
    show char? (c :: rest) = _
    rw [char?, if_neg hback, if_neg hplain]

theorem head?_escaped (c : Char) (rest : Text) : (escaped c ++ rest).head? ≠ some '"' := by
  rcases escaped_cases c with ⟨e, -, -, hw⟩ | ⟨-, hw⟩ | ⟨-, hplain, hw⟩
  · simp [hw]
  · simp [hw]
  · simpa [hw] using fun h => hplain (.inl h)

theorem string?_flatMap_escaped : ∀ t rest : Text, string? (t.flatMap escaped ++ '"' :: rest) = some (t, rest)
  | [], rest => by
    rw [string?]
    rfl
  | c :: t, rest => by
    have hc := char?_escaped c (t.flatMap escaped ++ '"' :: rest)
    rw [List.flatMap_cons, List.append_assoc, string?, if_neg (head?_escaped _ _)]
    split
    · next h =>
      rw [hc] at h
      cases h
    · next h =>
      rw [hc] at h
      cases h
      rw [string?_flatMap_escaped t rest]
      rfl

/-! ## Numbers -/

/-- No number goes on here. -/
def EndsNumber (t : Text) : Prop := ∀ c ∈ t.head?, c.isDigit = false ∧ c ≠ '.' ∧ isExponent c = false

theorem isDigit_of_mem_ofNat {n : Nat} : ∀ c ∈ Text.ofNat n, c.isDigit = true :=
  fun _ => Nat.isDigit_of_mem_toDigits (by decide) (by decide)

theorem ofNat_eq_cons (n : Nat) : ∃ c ds, Text.ofNat n = c :: ds ∧ c.isDigit = true := by
  cases h : Text.ofNat n with
  | nil => exact absurd h Nat.toDigits_ne_nil
  | cons c ds => exact ⟨c, ds, rfl, isDigit_of_mem_ofNat c (h ▸ List.mem_cons_self)⟩

/-- Only nought is written with a nought in front. -/
theorem eq_zero_of_head?_ofNat {n : Nat} (h : (Text.ofNat n).head? = some '0') : n = 0 := by
  induction n using Nat.strongRecOn with
  | _ n ih =>
    rw [Text.ofNat, Nat.toDigits_eq_if (by decide)] at h
    split at h
    · exact Nat.digitChar_eq_zero.1 (Option.some.inj h)
    · obtain ⟨c, ds, hds, -⟩ := ofNat_eq_cons (n / 10)
      rw [show Nat.toDigits 10 (n / 10) = c :: ds from hds] at h
      have hn := ih (n / 10) (by omega) (by rw [hds]; exact h)
      omega

theorem digits?_ofNat (n : Nat) {rest : Text} (h : EndsNumber rest) :
    digits? (Text.ofNat n ++ rest) = some (Text.ofNat n, rest) := by
  have hrest : ∀ c ∈ rest.head?, c.isDigit = false := fun c hc => (h c hc).1
  rw [digits?, takeWhile_eq_of_all hrest isDigit_of_mem_ofNat, dropWhile_eq_of_all hrest isDigit_of_mem_ofNat]
  exact if_neg Nat.toDigits_ne_nil

theorem whole?_ofNat (n : Nat) {rest : Text} (h : EndsNumber rest) :
    whole? (Text.ofNat n ++ rest) = some (Text.ofNat n, rest) := by
  have hzero : (Text.ofNat n).head? ≠ some '0' ∨ Text.ofNat n = ['0'] := by
    by_cases hn : n = 0
    · exact .inr (by rw [hn]; rfl)
    · exact .inl fun h => hn (eq_zero_of_head?_ofNat h)
  rw [whole?, digits?_ofNat n h]
  simpa using hzero

theorem unsigned?_ofNat (minus : Bool) (n : Nat) {rest : Text} (h : EndsNumber rest) :
    unsigned? minus (Text.ofNat n ++ rest) = some (.int (if minus then -n else n), rest) := by
  have hfraction : fraction? rest = some ([], rest) := if_neg fun hd => (h _ hd).2.1 rfl
  have hexponent : exponent? rest = some ([], rest) := by
    refine if_neg ?_
    cases hr : rest.head? with
    | none => simp
    | some c => simpa using (h c hr).2.2
  have hvalue : Nat.ofDigitChars 10 (Text.ofNat n) 0 = n := Nat.ofDigitChars_ten_toDigits
  rw [unsigned?, whole?_ofNat n h]
  simp only [Option.bind_eq_bind, Option.bind_some, hfraction, hexponent, Option.pure_def, List.append_nil, number,
    if_true, hvalue]

theorem number?_ofInt (i : Int) {rest : Text} (h : EndsNumber rest) :
    number? (Text.ofInt i ++ rest) = some (.int i, rest) := by
  cases i with
  | ofNat n =>
    have hhead : (Text.ofNat n ++ rest).head? ≠ some '-' := by
      obtain ⟨c, ds, hds, hdigit⟩ := ofNat_eq_cons n
      rw [hds]
      rintro ⟨rfl⟩
      exact absurd hdigit (by decide)
    exact (if_neg hhead).trans (unsigned?_ofNat false n h)
  | negSucc n => exact (if_pos rfl).trans (unsigned?_ofNat true (n + 1) h)

/-! ## Scalars -/

theorem scalar?_string (t rest : Text) : scalar? (Doc.Json.string t ++ rest) = some (.text t, rest) := by
  have hcut : Doc.Json.string t ++ rest = '"' :: (t.flatMap escaped ++ '"' :: rest) := by
    rw [Doc.Json.string, List.append_assoc]
    rfl
  rw [hcut, scalar?, List.head?_cons, if_pos rfl, List.tail_cons, string?_flatMap_escaped]
  rfl

theorem scalar?_flag (b : Bool) (rest : Text) : scalar? (Doc.Json.flag b ++ rest) = some (.flag b, rest) := by
  cases b <;> rfl

theorem ofInt_eq_cons (i : Int) : ∃ c ds, Text.ofInt i = c :: ds ∧ (c = '-' ∨ c.isDigit = true) := by
  cases i with
  | ofNat n =>
    obtain ⟨c, ds, hds, hdigit⟩ := ofNat_eq_cons n
    exact ⟨c, ds, hds, .inr hdigit⟩
  | negSucc n => exact ⟨'-', _, rfl, .inl rfl⟩

theorem scalar?_ofInt (i : Int) {rest : Text} (h : EndsNumber rest) :
    scalar? (Text.ofInt i ++ rest) = some (.int i, rest) := by
  have hnumber := number?_ofInt i h
  obtain ⟨c, ds, hds, hc⟩ := ofInt_eq_cons i
  rw [hds, List.cons_append] at hnumber ⊢
  have hquote : c ≠ '"' := by
    rintro rfl
    exact absurd hc (by decide)
  rw [scalar?, List.head?_cons, if_neg (by simpa using hquote), if_pos (by simpa using hc), hnumber]

/-! ## Pieces -/

theorem pieces_space {c : Char} (h : isSpace c = true) (t : Text) : pieces (c :: t) = pieces t := by
  rw [pieces, if_pos h]

theorem pieces_scalar {c : Char} {t rest : Text} {v : Json} (hspace : isSpace c = false)
    (hmark : punctuation? c = none) (h : scalar? (c :: t) = some (v, rest)) :
    pieces (c :: t) = (pieces rest).map (.scalar v :: ·) := by
  rw [pieces, if_neg (by simp [hspace]), hmark]
  simp only
  split
  · next hnone =>
    rw [h] at hnone
    cases hnone
  · next hsome =>
    rw [h] at hsome
    cases hsome
    rfl

/-- A text that is cut into its pieces, whatever stands behind it that satisfies `Q`. -/
def CutBefore (Q : Text → Prop) (t : Text) (ps : List Piece) : Prop :=
  ∀ rest, Q rest → pieces (t ++ rest) = (pieces rest).map (ps ++ ·)

/-- A text that is cut off from all that stands behind it. -/
def Cuts (t : Text) (ps : List Piece) : Prop := CutBefore (fun _ => True) t ps

/-- A text that is cut off from what ends a number. -/
def Reads (t : Text) (ps : List Piece) : Prop := CutBefore EndsNumber t ps

theorem CutBefore.append {Q Q' : Text → Prop} {t t' : Text} {ps ps' : List Piece} (h : CutBefore Q t ps)
    (h' : CutBefore Q' t' ps') (hnext : ∀ rest, Q' rest → Q (t' ++ rest)) : CutBefore Q' (t ++ t') (ps ++ ps') := by
  intro rest hrest
  rw [List.append_assoc, h _ (hnext rest hrest), h' rest hrest, Option.map_map]
  simp only [Function.comp_def, List.append_assoc]

theorem Cuts.reads {t : Text} {ps : List Piece} (h : Cuts t ps) : Reads t ps := fun rest _ => h rest trivial

theorem Cuts.append {t t' : Text} {ps ps' : List Piece} (h : Cuts t ps) (h' : Cuts t' ps') :
    Cuts (t ++ t') (ps ++ ps') :=
  CutBefore.append h h' fun _ _ => trivial

theorem Cuts.append_reads {t t' : Text} {ps ps' : List Piece} (h : Cuts t ps) (h' : Reads t' ps') :
    Reads (t ++ t') (ps ++ ps') :=
  CutBefore.append h h' fun _ _ => trivial

/-- A text that no number goes on in, provided none goes on behind it. -/
def Apart (t : Text) : Prop := ∀ rest, EndsNumber rest → EndsNumber (t ++ rest)

theorem Reads.append {t t' : Text} {ps ps' : List Piece} (h : Reads t ps) (h' : Reads t' ps') (apart : Apart t') :
    Reads (t ++ t') (ps ++ ps') :=
  CutBefore.append h h' apart

theorem cuts_nil : Cuts [] [] := by
  intro rest _
  simp

theorem cuts_spaces : ∀ {t : Text}, (∀ c ∈ t, isSpace c = true) → Cuts t []
  | [], _ => cuts_nil
  | c :: t, h => by
    intro rest _
    rw [List.cons_append, pieces_space (h c List.mem_cons_self)]
    exact cuts_spaces (fun x hx => h x (List.mem_cons_of_mem c hx)) rest trivial

theorem cuts_blank : Cuts [' '] [] := by
  refine cuts_spaces fun c hc => ?_
  rw [List.mem_singleton.1 hc]
  rfl

theorem cuts_mark {c : Char} {p : Piece} (hspace : isSpace c = false) (hmark : punctuation? c = some p) :
    Cuts [c] [p] := by
  intro rest _
  rw [List.singleton_append, pieces, if_neg (by simp [hspace]), hmark]
  rfl

theorem cuts_string (t : Text) : Cuts (Doc.Json.string t) [.scalar (.text t)] := by
  intro rest _
  exact pieces_scalar rfl rfl (scalar?_string t rest)

theorem cuts_flag (b : Bool) : Cuts (Doc.Json.flag b) [.scalar (.flag b)] := by
  intro rest _
  have h := scalar?_flag b rest
  cases b with
  | false => exact pieces_scalar rfl rfl h
  | true => exact pieces_scalar rfl rfl h

/-- What begins a number is neither white space nor a mark. -/
theorem not_mark_of_number {c : Char} (h : c = '-' ∨ c.isDigit = true) :
    isSpace c = false ∧ punctuation? c = none := by
  have hne : ∀ x : Char, (x = '-' ∨ x.isDigit = true) = False → c ≠ x := by
    rintro x hx rfl
    exact hx.mp h
  constructor
  · simp [isSpace, hne ' ' (by decide), hne '\t' (by decide), hne '\n' (by decide), hne '\r' (by decide)]
  · simp [punctuation?, hne '[' (by decide), hne ']' (by decide), hne '{' (by decide), hne '}' (by decide),
      hne ',' (by decide), hne ':' (by decide)]

theorem reads_ofInt (i : Int) : Reads (Text.ofInt i) [.scalar (.int i)] := by
  intro rest hrest
  have hscalar := scalar?_ofInt i hrest
  obtain ⟨c, ds, hds, hc⟩ := ofInt_eq_cons i
  rw [hds, List.cons_append] at hscalar ⊢
  obtain ⟨hspace, hmark⟩ := not_mark_of_number hc
  exact pieces_scalar hspace hmark hscalar

/-! ## Layout -/

theorem isSpace_of_mem_blanks {n : Nat} : ∀ c ∈ Text.blanks n, isSpace c = true := by
  intro c hc
  rw [List.eq_of_mem_replicate hc]
  rfl

theorem cuts_margin (level : Nat) (layout : Layout) : Cuts (layout.margin level) [] := by
  cases layout with
  | oneLine => exact cuts_nil
  | lines width =>
    refine cuts_spaces fun c hc => ?_
    rcases List.mem_cons.1 hc with rfl | hc
    · rfl
    · exact isSpace_of_mem_blanks c hc

theorem cuts_between (level : Nat) (layout : Layout) : Cuts (layout.between level) [.comma] := by
  have hcomma : Cuts [','] [.comma] := cuts_mark rfl rfl
  cases layout with
  | oneLine => exact hcomma.append cuts_blank
  | lines width => exact hcomma.append (cuts_margin level (.lines width))

theorem apart_nil : Apart [] := fun _ h => h

theorem apart_cons {c : Char} (h : EndsNumber [c]) (t : Text) : Apart (c :: t) := fun _ _ => h

theorem apart_margin (level : Nat) (layout : Layout) : Apart (layout.margin level) := by
  cases layout with
  | oneLine => exact apart_nil
  | lines width => exact apart_cons (by simp [EndsNumber, isExponent]) _

theorem apart_between (level : Nat) (layout : Layout) (t : Text) : Apart (layout.between level ++ t) := by
  cases layout with
  | oneLine => exact apart_cons (by simp [EndsNumber, isExponent]) _
  | lines width => exact apart_cons (by simp [EndsNumber, isExponent]) _

/-- Items with something in front of the first one and a separator in front of each other. -/
def led (lead sep : Text) : List Text → Text
  | [] => []
  | t :: ts => lead ++ t ++ led sep sep ts

theorem join_eq_led (sep : Text) : ∀ ts : List Text, Text.join sep ts = led [] sep ts
  | [] => rfl
  | [t] => by simp [Text.join, led]
  | t :: t' :: ts => by
    have ih := join_eq_led sep (t' :: ts)
    simp only [Text.join, List.intercalate, List.intersperse, List.flatten_cons, led, List.nil_append] at ih ⊢
    rw [ih, List.append_assoc]

theorem apart_led (level : Nat) (layout : Layout) (ts : List Text) :
    Apart (led (layout.between level) (layout.between level) ts) := by
  cases ts with
  | nil => exact apart_nil
  | cons t ts =>
    rw [led, List.append_assoc]
    exact apart_between level layout _

theorem reads_enclosed {layout : Layout} {level : Nat} {opening closing : Char} {o c : Piece}
    (ho : Cuts [opening] [o]) (hc : Cuts [closing] [c]) (apart : Apart [closing]) {ts : List Text} {ps : List Piece}
    (h : Reads (led [] (layout.between (level + 1)) ts) ps) :
    Reads (enclosed layout level opening closing ts) (o :: ps ++ [c]) := by
  cases ts with
  | nil => exact (ho.append_reads h).append hc.reads apart
  | cons t ts =>
    have hfirst : Cuts (opening :: layout.margin (level + 1)) [o] := ho.append (cuts_margin (level + 1) layout)
    have hlast : Cuts (layout.margin level ++ [closing]) [c] := (cuts_margin level layout).append hc
    have hapart : Apart (layout.margin level ++ [closing]) := by
      intro rest hrest
      rw [List.append_assoc]
      exact apart_margin level layout _ (apart rest hrest)
    have hall := (hfirst.append_reads h).append hlast.reads hapart
    rw [← join_eq_led] at hall
    show Reads (opening :: layout.margin (level + 1) ++ Text.join _ (t :: ts) ++ layout.margin level ++ [closing]) _
    rw [List.append_assoc _ (layout.margin level)]
    exact hall

end Json

/-! ## Documents -/

namespace Doc

mutual

/-- The pieces of a document. -/
def pieces : Doc → List Json.Piece
  | .text t => [.scalar (.text t)]
  | .int i => [.scalar (.int i)]
  | .flag b => [.scalar (.flag b)]
  | .list items => .openList :: itemPieces [] items ++ [.closeList]
  | .map entries => .openMap :: entryPieces [] entries ++ [.closeMap]

/-- The pieces of items, with some pieces in front of the first one and a comma in front of each other. -/
def itemPieces (lead : List Json.Piece) : List Doc → List Json.Piece
  | [] => []
  | d :: rest => lead ++ d.pieces ++ itemPieces [.comma] rest

def entryPieces (lead : List Json.Piece) : List (Text × Doc) → List Json.Piece
  | [] => []
  | (key, d) :: rest => lead ++ (.scalar (.text key) :: .colon :: d.pieces) ++ entryPieces [.comma] rest

end

end Doc

namespace Json

mutual

/-- **A document is cut into its pieces**, whatever its layout. -/
theorem reads_written (layout : Layout) (level : Nat) : ∀ d : Doc, Reads (written layout level d) d.pieces
  | .text t => (cuts_string t).reads
  | .int i => reads_ofInt i
  | .flag b => (cuts_flag b).reads
  | .list items => by
    rw [written, Doc.pieces]
    exact reads_enclosed (cuts_mark rfl rfl) (cuts_mark rfl rfl) (apart_cons (by simp [EndsNumber, isExponent]) [])
      (reads_items layout (level + 1) cuts_nil items)
  | .map entries => by
    rw [written, Doc.pieces]
    exact reads_enclosed (cuts_mark rfl rfl) (cuts_mark rfl rfl) (apart_cons (by simp [EndsNumber, isExponent]) [])
      (reads_entries layout (level + 1) cuts_nil entries)

theorem reads_items (layout : Layout) (level : Nat) {lead : Text} {ps : List Piece} (h : Cuts lead ps) :
    ∀ items : List Doc,
      Reads (led lead (layout.between level) (writtenItems layout level items)) (Doc.itemPieces ps items)
  | [] => cuts_nil.reads
  | d :: rest => by
    rw [writtenItems, Doc.itemPieces, led]
    exact (h.append_reads (reads_written layout level d)).append
      (reads_items layout level (cuts_between level layout) rest) (apart_led level layout _)

theorem reads_entries (layout : Layout) (level : Nat) {lead : Text} {ps : List Piece} (h : Cuts lead ps) :
    ∀ entries : List (Text × Doc),
      Reads (led lead (layout.between level) (writtenEntries layout level entries)) (Doc.entryPieces ps entries)
  | [] => cuts_nil.reads
  | (key, d) :: rest => by
    have hcolon : Cuts [':', ' '] [.colon] := (cuts_mark rfl rfl : Cuts [':'] [.colon]).append cuts_blank
    have hentry := ((cuts_string key).append hcolon).append_reads (reads_written layout level d)
    rw [List.append_assoc] at hentry
    rw [writtenEntries, Doc.entryPieces, led]
    exact (h.append_reads hentry).append (reads_entries layout level (cuts_between level layout) rest)
      (apart_led level layout _)

end

/-- **The layout does not change the pieces** of a document. -/
theorem pieces_toJson (indent : Int) (d : Doc) : pieces (d.toJson indent) = some d.pieces := by
  have hread := reads_written (Layout.ofIndent indent) 0 d [] (by simp [EndsNumber])
  rw [List.append_nil] at hread
  simpa [pieces, Doc.toJson] using hread

end Json
end Statechart
