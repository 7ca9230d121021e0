import Mathlib
import Statechart.Doc.Yaml.Resolution
import Statechart.Proofs.Text.Lines
import Statechart.Token.Lexeme
/-!
# YamlTypes — what a YAML reader takes a plain text for

In YAML 1.1 a text without quotes has the type whose pattern it matches: it is a truth value, a number, nothing, a
moment, a merge key or a default value, and a text only where it matches none.  There are two tables of types.  In the
standard one the letters `y` and `n` alone are truth values; in the common one, which many writers and readers go by,
they are texts (`plain_standard`).  A writer decides the same without patterns, character by character; for words, it
quotes all that a pattern of the common table matches (`plain_of_word`).
-/
namespace Statechart

/-- The types of a plain text that is neither a text nor a truth value. -/
inductive PlainType where
  | empty
  | whole
  | real
  | moment
  | merge
  | default
deriving DecidableEq, Repr

/-- What a YAML text says.  What is no text, truth value or collection keeps its type and the form it is written in. -/
inductive Yaml where
  | text (t : Text)
  | flag (b : Bool)
  | other (type : PlainType) (written : Text)
  | list (items : List Yaml)
  | map (entries : List (Text × Yaml))
deriving Repr

/-! ## Words -/

namespace Yaml

def isWordChar (c : Char) : Bool := isNameChar c || c == '#'

/-- The texts of a chart. -/
def IsWord (t : Text) : Prop := ∀ c ∈ t, isWordChar c = true

instance (t : Text) : Decidable (IsWord t) :=
  decidable_of_iff (t.all isWordChar = true) (by rw [IsWord, List.all_eq_true])

theorem IsWord.left {a b : Text} (h : IsWord (a ++ b)) : IsWord a := fun c hc => h c (List.mem_append_left b hc)

theorem IsWord.right {a b : Text} (h : IsWord (a ++ b)) : IsWord b := fun c hc => h c (List.mem_append_right a hc)

end Yaml

/-! ## Patterns -/

abbrev Pattern := RegularExpression Char

namespace Pattern

open RegularExpression (char)

def seq (ps : List Pattern) : Pattern := ps.prod

def alt (ps : List Pattern) : Pattern := ps.sum

def word (w : String) : Pattern := seq (w.toList.map char)

def words (ws : List String) : Pattern := alt (ws.map word)

def oneOf (cs : String) : Pattern := alt (cs.toList.map char)

def maybe (p : Pattern) : Pattern := 1 + p

def several (p : Pattern) : Pattern := p * p.star

def sign : Pattern := maybe (oneOf "-+")

def digit : Pattern := oneOf "0123456789"

/-- Digits with underscores between or behind them. -/
def digits : Pattern := (oneOf "0123456789_").star

def exponent : Pattern := maybe (seq [oneOf "eE", oneOf "-+", several digit])

/-- The places behind the first one of a number to the base sixty. -/
def sixtieths : Pattern := several (seq [char ':', maybe (oneOf "012345"), digit])

def yesWord : Pattern := words ["yes", "Yes", "YES", "true", "True", "TRUE", "on", "On", "ON"]

def noWord : Pattern := words ["no", "No", "NO", "false", "False", "FALSE", "off", "Off", "OFF"]

/-- A truth value may also be a letter. -/
def yes : Pattern := oneOf "yY" + yesWord

def no : Pattern := oneOf "nN" + noWord

def empty : Pattern := words ["", "~", "null", "Null", "NULL"]

/-- Numbers to the base two, eight, ten, sixteen and sixty. -/
def whole : Pattern :=
  seq [sign, alt
    [seq [word "0b", several (oneOf "01_")],
      seq [char '0', several (oneOf "01234567_")],
      char '0',
      seq [oneOf "123456789", digits],
      seq [word "0x", several (oneOf "0123456789abcdefABCDEF_")],
      seq [oneOf "123456789", digits, sixtieths]]]

def real : Pattern :=
  alt
    [seq [sign, alt
      [seq [digit, digits, char '.', digits, exponent],
        seq [digit, digits, sixtieths, char '.', digits],
        words [".inf", ".Inf", ".INF"]]],
      seq [char '.', digit, digits, exponent],
      words [".nan", ".NaN", ".NAN"]]

def year : Pattern := seq [digit, digit, digit, digit]

def shortNumber : Pattern := seq [digit, maybe digit]

def zone : Pattern :=
  maybe (seq [(oneOf " \t").star,
    alt [char 'Z', seq [oneOf "-+", shortNumber, maybe (seq [char ':', digit, digit])]]])

def moment : Pattern :=
  alt
    [seq [year, char '-', digit, digit, char '-', digit, digit],
      seq [year, char '-', shortNumber, char '-', shortNumber, alt [oneOf "tT", several (oneOf " \t")],
        shortNumber, char ':', digit, digit, char ':', digit, digit, maybe (seq [char '.', digit.star]), zone]]

def merge : Pattern := word "<<"

def defaultValue : Pattern := word "="

end Pattern

namespace Yaml

/-- Patterns, and what a text that matches says; the first pattern that matches counts. -/
abbrev Types := List (Pattern × (Text → Yaml))

/-- All types but the truth values. -/
def otherTypes : Types :=
  [(Pattern.empty, .other .empty), (Pattern.whole, .other .whole), (Pattern.real, .other .real),
    (Pattern.moment, .other .moment), (Pattern.merge, .other .merge), (Pattern.defaultValue, .other .default)]

/-- The types of YAML 1.1. -/
def standard : Types := (Pattern.yes, fun _ => .flag true) :: (Pattern.no, fun _ => .flag false) :: otherTypes

/-- The types of readers to which a letter is a text. -/
def common : Types := (Pattern.yesWord, fun _ => .flag true) :: (Pattern.noWord, fun _ => .flag false) :: otherTypes

/-- The texts that only the standard types take for truth values. -/
def letters : List Text := [['y'], ['Y'], ['n'], ['N']]

/-- What a text without quotes says. -/
def plain (types : Types) (t : Text) : Yaml :=
  match types.find? (fun type => type.1.rmatch t) with
  | some type => type.2 t
  | none => .text t

end Yaml

/-! ## What matches a pattern -/

namespace Pattern

open RegularExpression (char)
open Yaml (IsWord isWordChar)

variable {t : Text}

theorem mem_mul {p q : Pattern} : t ∈ (p * q).matches' ↔ ∃ a ∈ p.matches', ∃ b ∈ q.matches', t = a ++ b := by
  rw [RegularExpression.matches'_mul, Language.mem_mul]
  simp only [eq_comm]

theorem mem_add {p q : Pattern} : t ∈ (p + q).matches' ↔ t ∈ p.matches' ∨ t ∈ q.matches' := by
  rw [RegularExpression.matches'_add, Language.mem_add]

theorem mem_char {c : Char} : t ∈ (char c).matches' ↔ t = [c] := by
  rw [RegularExpression.matches'_char]
  exact Set.mem_singleton_iff

theorem mem_seq_nil : t ∈ (seq []).matches' ↔ t = [] := by
  rw [seq, List.prod_nil, RegularExpression.matches'_epsilon, Language.mem_one]

theorem mem_seq_cons {p : Pattern} {ps : List Pattern} :
    t ∈ (seq (p :: ps)).matches' ↔ ∃ a ∈ p.matches', ∃ b ∈ (seq ps).matches', t = a ++ b := by
  rw [seq, List.prod_cons, mem_mul]
  rfl

theorem mem_alt {ps : List Pattern} : t ∈ (alt ps).matches' ↔ ∃ p ∈ ps, t ∈ p.matches' := by
  induction ps with
  | nil =>
    rw [alt, List.sum_nil, RegularExpression.matches'_zero]
    exact iff_of_false (Language.notMem_zero t) (by simp)
  | cons p ps ih =>
    rw [alt, List.sum_cons, mem_add, show ps.sum = alt ps from rfl, ih]
    simp

theorem mem_seq_chars : ∀ {w t : Text}, t ∈ (seq (w.map char)).matches' ↔ t = w
  | [], t => mem_seq_nil
  | c :: w, t => by
    rw [List.map_cons, mem_seq_cons]
    constructor
    · rintro ⟨a, ha, b, hb, rfl⟩
      rw [mem_char.1 ha, mem_seq_chars.1 hb]
      rfl
    · rintro rfl
      exact ⟨[c], mem_char.2 rfl, w, mem_seq_chars.2 rfl, rfl⟩

theorem mem_word {w : String} : t ∈ (word w).matches' ↔ t = w.toList := mem_seq_chars

theorem mem_words {ws : List String} : t ∈ (words ws).matches' ↔ t ∈ ws.map String.toList := by
  rw [words, mem_alt]
  simp only [List.mem_map, exists_exists_and_eq_and, mem_word]
  simp only [eq_comm]

theorem mem_oneOf {cs : String} : t ∈ (oneOf cs).matches' ↔ ∃ c ∈ cs.toList, t = [c] := by
  rw [oneOf, mem_alt]
  simp only [List.mem_map, exists_exists_and_eq_and, mem_char]

theorem mem_maybe {p : Pattern} : t ∈ (maybe p).matches' ↔ t = [] ∨ t ∈ p.matches' := by
  rw [maybe, mem_add, RegularExpression.matches'_epsilon, Language.mem_one]

theorem of_mem_star {cs : String} (h : t ∈ (oneOf cs).star.matches') : ∀ c ∈ t, c ∈ cs.toList := by
  rw [RegularExpression.matches'_star, Language.mem_kstar] at h
  obtain ⟨pieces, rfl, hpieces⟩ := h
  intro c hc
  obtain ⟨piece, hpiece, hc⟩ := List.mem_flatten.1 hc
  obtain ⟨x, hx, rfl⟩ := mem_oneOf.1 (hpieces piece hpiece)
  rwa [List.mem_singleton.1 hc]

theorem of_mem_several {cs : String} (h : t ∈ (several (oneOf cs)).matches') :
    ∃ c rest, t = c :: rest ∧ c ∈ cs.toList ∧ ∀ x ∈ rest, x ∈ cs.toList := by
  obtain ⟨a, ha, rest, hrest, rfl⟩ := mem_mul.1 h
  obtain ⟨c, hc, rfl⟩ := mem_oneOf.1 ha
  exact ⟨c, rest, rfl, hc, of_mem_star hrest⟩

/-! ## Patterns and words -/

/-- Whether a pattern only matches texts with a character that no word has. -/
def leavesWords : Pattern → Bool
  | .zero => true
  | .epsilon => false
  | .char c => !isWordChar c
  | .plus p q => leavesWords p && leavesWords q
  | .comp p q => leavesWords p || leavesWords q
  | .star _ => false

theorem exists_of_leavesWords : ∀ {p : Pattern} {t : Text}, leavesWords p = true → t ∈ p.matches' →
    ∃ c ∈ t, isWordChar c = false
  | .zero, t, _, ht => absurd ht (Language.notMem_zero t)
  | .char c, t, h, ht => by
    rw [mem_char.1 ht]
    exact ⟨c, List.mem_singleton_self c, by simpa [leavesWords] using h⟩
  | .plus p q, t, h, ht => by
    obtain ⟨hp, hq⟩ : leavesWords p = true ∧ leavesWords q = true := by simpa [leavesWords] using h
    rcases mem_add.1 ht with ht | ht
    · exact exists_of_leavesWords hp ht
    · exact exists_of_leavesWords hq ht
  | .comp p q, t, h, ht => by
    have hpq : leavesWords p = true ∨ leavesWords q = true := by simpa [leavesWords] using h
    obtain ⟨a, ha, b, hb, rfl⟩ := mem_mul.1 ht
    rcases hpq with hp | hq
    · obtain ⟨c, hc, hout⟩ := exists_of_leavesWords hp ha
      exact ⟨c, List.mem_append_left b hc, hout⟩
    · obtain ⟨c, hc, hout⟩ := exists_of_leavesWords hq hb
      exact ⟨c, List.mem_append_right a hc, hout⟩

theorem not_mem_of_leavesWords {p : Pattern} (h : leavesWords p = true) (hw : IsWord t) : t ∉ p.matches' := by
  intro ht
  obtain ⟨c, hc, hout⟩ := exists_of_leavesWords h ht
  rw [hw c hc] at hout
  cases hout

theorem eq_nil_of_maybe {p : Pattern} (h : leavesWords p = true) (hw : IsWord t) (ht : t ∈ (maybe p).matches') :
    t = [] :=
  (mem_maybe.1 ht).resolve_right (not_mem_of_leavesWords h hw)

/-! ## The writer's choice -/

open Doc.Yaml (isOther isWhole isFloat unsigned isDigitOrBar)

theorem unsigned_of_word (hw : IsWord t) : unsigned t = t := by
  cases t with
  | nil => rfl
  | cons c rest =>
    have hc := hw c List.mem_cons_self
    have hsign : Doc.Yaml.isSign c = false := by
      by_contra hs
      simp only [Doc.Yaml.isSign, Bool.not_eq_false, Bool.or_eq_true, beq_iff_eq] at hs
      rcases hs with rfl | rfl <;> exact absurd hc (by decide)
    rw [unsigned, hsign]
    rfl

/-- No word has a sign, so what matches with one matches without. -/
theorem mem_of_signed {p : Pattern} (hw : IsWord t) (h : t ∈ (seq [sign, p]).matches') : t ∈ p.matches' := by
  simp only [mem_seq_cons, mem_seq_nil] at h
  obtain ⟨s, hs, _, ⟨rest, hrest, _, rfl, rfl⟩, rfl⟩ := h
  rw [eq_nil_of_maybe (by decide) hw.left hs, List.nil_append, List.append_nil]
  exact hrest

theorem isDigit_of_mem : ∀ c ∈ "0123456789".toList, c.isDigit = true := List.all_eq_true.1 (by decide)

theorem all_of_digits (h : t ∈ digits.matches') : t.all isDigitOrBar = true := by
  have hchars : ∀ c ∈ "0123456789_".toList, isDigitOrBar c = true := List.all_eq_true.1 (by decide)
  exact List.all_eq_true.2 fun c hc => hchars c (of_mem_star h c hc)

/-- A run of some characters, where a writer allows them. -/
theorem isRun_of_mem_several {cs : String} {p : Char → Bool} (hp : cs.toList.all p = true)
    (h : t ∈ (several (oneOf cs)).matches') : Doc.Yaml.isRun p t = true := by
  obtain ⟨c, rest, rfl, hc, hrest⟩ := of_mem_several h
  have hp := List.all_eq_true.1 hp
  have hall : (c :: rest).all p = true := List.all_eq_true.2 fun x hx =>
    (List.mem_cons.1 hx).elim (fun heq => heq ▸ hp c hc) fun hx => hp x (hrest x hx)
  rw [Doc.Yaml.isRun, hall]
  rfl

theorem isWhole_binary (h : t ∈ (several (oneOf "01_")).matches') : isWhole ('0' :: 'b' :: t) = true :=
  isRun_of_mem_several (by decide) h

theorem isWhole_hexadecimal (h : t ∈ (several (oneOf "0123456789abcdefABCDEF_")).matches') :
    isWhole ('0' :: 'x' :: t) = true :=
  isRun_of_mem_several (by decide) h

theorem isWhole_octal (h : t ∈ (several (oneOf "01234567_")).matches') : isWhole ('0' :: t) = true := by
  obtain ⟨c, rest, rfl, hc, hrest⟩ := of_mem_several h
  have hb : c ≠ 'b' := ne_of_mem_of_not_mem hc (by decide)
  have hx : c ≠ 'x' := ne_of_mem_of_not_mem hc (by decide)
  have hwhole : isWhole ('0' :: c :: rest) =
      Doc.Yaml.isRun (fun c => ('0' ≤ c && c ≤ '7') || c == '_') (c :: rest) := by
    unfold isWhole
    split
    · simp_all
    · simp_all
    · simp_all
    · simp_all
    · simp_all
  rw [hwhole]
  exact isRun_of_mem_several (by decide) h

theorem isWhole_decimal {c : Char} (hc : c ∈ "123456789".toList) (h : t ∈ digits.matches') :
    isWhole (c :: t) = true := by
  have hdigits : ∀ c ∈ "123456789".toList, c.isDigit = true := List.all_eq_true.1 (by decide)
  have hdigit := hdigits c hc
  have hzero : c ≠ '0' := ne_of_mem_of_not_mem hc (by decide)
  have hpositive : Doc.Yaml.isPositive (c :: t) = true := by
    simp [Doc.Yaml.isPositive, Doc.Yaml.isNumeral, hdigit, hzero, all_of_digits h]
  have hwhole : isWhole (c :: t) = (Doc.Yaml.isPositive (c :: t) || Doc.Yaml.isWholeSixty (c :: t)) := by
    unfold isWhole
    split <;> simp_all
  rw [hwhole, hpositive]
  rfl

/-- **Words that match as whole numbers.** -/
theorem isWhole_of_mem (hw : IsWord t) (h : t ∈ whole.matches') : isWhole t = true := by
  have h := mem_of_signed hw h
  simp only [mem_alt, List.mem_cons, List.not_mem_nil, or_false, exists_eq_or_imp, exists_eq_left] at h
  rcases h with h | h | h | h | h | h
  · simp only [mem_seq_cons, mem_seq_nil, mem_word] at h
    obtain ⟨a, ha, _, ⟨ds, hds, _, rfl, rfl⟩, rfl⟩ := h
    rw [ha, List.append_nil]
    exact isWhole_binary hds
  · simp only [mem_seq_cons, mem_seq_nil, mem_char] at h
    obtain ⟨_, rfl, _, ⟨ds, hds, _, rfl, rfl⟩, rfl⟩ := h
    rw [List.append_nil]
    exact isWhole_octal hds
  · rw [mem_char.1 h]
    rfl
  · simp only [mem_seq_cons, mem_seq_nil, mem_oneOf] at h
    obtain ⟨_, ⟨c, hc, rfl⟩, _, ⟨ds, hds, _, rfl, rfl⟩, rfl⟩ := h
    rw [List.append_nil]
    exact isWhole_decimal hc hds
  · simp only [mem_seq_cons, mem_seq_nil, mem_word] at h
    obtain ⟨a, ha, _, ⟨ds, hds, _, rfl, rfl⟩, rfl⟩ := h
    rw [ha, List.append_nil]
    exact isWhole_hexadecimal hds
  · exact absurd h (not_mem_of_leavesWords (by decide) hw)

theorem isFraction_of_digits (h : t ∈ digits.matches') : Doc.Yaml.isFraction t = true := by
  have hnil : (t ++ []).dropWhile isDigitOrBar = [] := dropWhile_eq_of_all nofun (List.all_eq_true.1 (all_of_digits h))
  rw [List.append_nil] at hnil
  rw [Doc.Yaml.isFraction, hnil]
  rfl

/-- The places behind the point, without an exponent: its sign is in no word. -/
theorem mem_digits_of_fraction (hw : IsWord t) (h : t ∈ (seq [digits, exponent]).matches') : t ∈ digits.matches' := by
  simp only [mem_seq_cons, mem_seq_nil] at h
  obtain ⟨fs, hfs, _, ⟨e, he, _, rfl, rfl⟩, rfl⟩ := h
  rw [eq_nil_of_maybe (by decide) hw.right.left he, List.append_nil, List.append_nil]
  exact hfs

theorem isPointed_of_mem {d : Char} {ds fs : Text} (hd : d ∈ "0123456789".toList) (hds : ds ∈ digits.matches')
    (hfs : fs ∈ digits.matches') : Doc.Yaml.isPointed (d :: (ds ++ '.' :: fs)) = true := by
  have hpoint : ∀ x ∈ ('.' :: fs).head?, isDigitOrBar x = false := by
    rintro x ⟨⟩
    rfl
  have hbehind : (ds ++ '.' :: fs).dropWhile isDigitOrBar = '.' :: fs :=
    dropWhile_eq_of_all hpoint (List.all_eq_true.1 (all_of_digits hds))
  rw [Doc.Yaml.isPointed, isDigit_of_mem d hd, hbehind]
  exact isFraction_of_digits hfs

/-- **Words that match as numbers with a point.** -/
theorem isFloat_of_mem (hw : IsWord t) (h : t ∈ real.matches') : isFloat t = true := by
  have hunsigned := unsigned_of_word hw
  simp only [real, mem_alt, List.mem_cons, List.not_mem_nil, or_false, exists_eq_or_imp, exists_eq_left] at h
  rcases h with h | h | h
  -- without a sign there are three forms: with a point, to the base sixty, which needs a colon, and infinity
  · have h := mem_of_signed hw h
    simp only [mem_alt, List.mem_cons, List.not_mem_nil, or_false, exists_eq_or_imp, exists_eq_left] at h
    rcases h with h | h | h
    · obtain ⟨_, hfirst, _, hrest, rfl⟩ := mem_seq_cons.1 h
      obtain ⟨d, hd, rfl⟩ := mem_oneOf.1 hfirst
      obtain ⟨ds, hds, _, hbehind, rfl⟩ := mem_seq_cons.1 hrest
      obtain ⟨_, hpoint, fs, hfraction, rfl⟩ := mem_seq_cons.1 hbehind
      obtain rfl := mem_char.1 hpoint
      have hfs := mem_digits_of_fraction hw.right.right.right hfraction
      have hpointed := isPointed_of_mem hd hds hfs
      unfold isFloat
      rw [hunsigned]
      simp [hpointed]
    · exact absurd h (not_mem_of_leavesWords (by decide) hw)
    · have hcontains : Doc.Yaml.infinityWords.contains t = true := List.contains_iff_mem.2 (mem_words.1 h)
      unfold isFloat
      rw [hunsigned, hcontains]
      simp
  · obtain ⟨_, hpoint, _, hrest, rfl⟩ := mem_seq_cons.1 h
    obtain rfl := mem_char.1 hpoint
    obtain ⟨_, hfirst, fs, hfraction, rfl⟩ := mem_seq_cons.1 hrest
    obtain ⟨d, hd, rfl⟩ := mem_oneOf.1 hfirst
    have hfs := mem_digits_of_fraction hw.right.right hfraction
    have hpointed : Doc.Yaml.isPointFirst ('.' :: d :: fs) = true := by
      rw [Doc.Yaml.isPointFirst, isDigit_of_mem d hd]
      exact isFraction_of_digits hfs
    simp [isFloat, hpointed]
  · have hcontains : Doc.Yaml.notNumberWords.contains t = true := List.contains_iff_mem.2 (mem_words.1 h)
    unfold isFloat
    rw [hcontains]
    simp

end Pattern

namespace Yaml

open Doc.Yaml (isOther)

theorem isOther_of_mem_words {t : Text} {ws : List String} (hws : ∀ w ∈ ws.map String.toList, isOther w = true)
    (h : t ∈ (Pattern.words ws).matches') : isOther t = true := hws t (Pattern.mem_words.1 h)

theorem isOther_of_mem {t : Text} (hw : IsWord t) {type : Pattern × (Text → Yaml)} (htype : type ∈ common)
    (h : t ∈ type.1.matches') : isOther t = true := by
  simp only [common, otherTypes, List.mem_cons, List.not_mem_nil, or_false] at htype
  rcases htype with rfl | rfl | rfl | rfl | rfl | rfl | rfl | rfl
  · exact isOther_of_mem_words (by decide) h
  · exact isOther_of_mem_words (by decide) h
  · exact isOther_of_mem_words (by decide) h
  · have hwhole := Pattern.isWhole_of_mem hw h
    rw [← Pattern.unsigned_of_word hw] at hwhole
    simp [isOther, hwhole]
  · simp [isOther, Pattern.isFloat_of_mem hw h]
  · exact absurd h (Pattern.not_mem_of_leavesWords (by decide) hw)
  · exact absurd h (Pattern.not_mem_of_leavesWords (by decide) hw)
  · exact absurd h (Pattern.not_mem_of_leavesWords (by decide) hw)

/-- **A word that is written without quotes is a text**: it matches no other type. -/
theorem plain_of_word {t : Text} (hw : IsWord t) (h : isOther t = false) : plain common t = .text t := by
  have hnone : common.find? (fun type => type.1.rmatch t) = none := by
    refine List.find?_eq_none.2 fun type htype hmatch => ?_
    rw [RegularExpression.rmatch_iff_matches'] at hmatch
    rw [isOther_of_mem hw htype hmatch] at h
    cases h
  rw [plain, hnone]

/-! ## Letters -/

theorem rmatch_oneOf_add {t : Text} {cs : String} (p : Pattern)
    (hcs : cs.toList.all (fun c => letters.contains [c]) = true) (h : t ∉ letters) :
    (Pattern.oneOf cs + p).rmatch t = p.rmatch t := by
  rw [Bool.eq_iff_iff, RegularExpression.rmatch_iff_matches', RegularExpression.rmatch_iff_matches', Pattern.mem_add]
  refine or_iff_right fun hletter => h ?_
  obtain ⟨c, hc, rfl⟩ := Pattern.mem_oneOf.1 hletter
  exact List.contains_iff_mem.1 (List.all_eq_true.1 hcs c hc)

/-- **Both tables agree on all texts but four.** -/
theorem plain_standard {t : Text} (h : t ∉ letters) : plain standard t = plain common t := by
  have hyes : Pattern.yes.rmatch t = Pattern.yesWord.rmatch t := rmatch_oneOf_add _ (by decide) h
  have hno : Pattern.no.rmatch t = Pattern.noWord.rmatch t := rmatch_oneOf_add _ (by decide) h
  unfold plain standard common
  rw [List.find?_cons, List.find?_cons, List.find?_cons, List.find?_cons, hyes, hno]
  cases Pattern.yesWord.rmatch t <;> cases Pattern.noWord.rmatch t <;> rfl

end Yaml
end Statechart
