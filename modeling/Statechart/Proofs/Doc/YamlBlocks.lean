import Statechart.Doc.Yaml
import Statechart.Proofs.Doc.LastLine
import Statechart.Proofs.Doc.YamlReader
/-!
# YamlBlocks — YAML text in block style

What a writer of YAML has to do is said here without one.  In block style every item and every entry begins a line in
one column, behind a dash or a key, and what it holds follows on that line or stands deeper below.  How deep it stands
is left to the writer, and so is the choice of quotes, except that a word without quotes has to be of the type of texts.

However a writer chooses, the last line it has written is open (`InBlocks.exists_open`).
-/
namespace Statechart
namespace Yaml

open Doc (Open)
open Doc.Yaml (newLine stacked)

/-! ## The style -/

/-- A text, and the same text with a line break and an indentation for some of the blanks inside it. -/
inductive Folded : Text → Text → Prop where
  | nil : Folded [] []
  | char {t s : Text} (c : Char) (h : Folded t s) : Folded (c :: t) (c :: s)
  | fold {t s : Text} (indent : Nat) (hinside : t ≠ []) (h : Folded t s) : Folded (' ' :: t) (newLine indent ++ s)

/-- A text as it may be written: without quotes, between single ones or between double ones. -/
inductive Scalar (t : Text) : Text → Prop where
  | bare {s : Text} (starts : startsPlain t = true) (ends : Open t) (type : IsWord t → plain common t = .text t)
    (folded : Folded t s) : Scalar t s
  | single {inner : Text} (same : IsWord t → inner = t) : Scalar t ('\'' :: (inner ++ ['\'']))
  | double {inner : Text} (odd : ¬IsWord t) : Scalar t ('"' :: (inner ++ ['"']))

/-- A document that does not begin lines of its own. -/
inductive Leaf : Doc → Text → Prop where
  | text {t s : Text} (h : Scalar t s) : Leaf (.text t) s
  | int (i : Int) : Leaf (.int i) (Text.ofInt i)
  | flag (b : Bool) : Leaf (.flag b) (Doc.Yaml.flag b)
  | list : Leaf (.list []) ['[', ']']
  | map : Leaf (.map []) ['{', '}']

mutual

/-- The lines of a sequence or a mapping, from the first dash or key on, which stands at a column. -/
inductive Lines : Nat → Doc → Text → Prop where
  | list {column : Nat} {items : List Doc} {ts : List Text} (hne : items ≠ []) (h : Items column items ts) :
    Lines column (.list items) (stacked column ts)
  | map {column : Nat} {entries : List (Text × Doc)} {ts : List Text} (hne : entries ≠ [])
    (h : Entries column entries ts) : Lines column (.map entries) (stacked column ts)

/-- What a dash or a lone colon at a column holds. -/
inductive BehindMark : Nat → Doc → Text → Prop where
  | leaf {column : Nat} {d : Doc} {s : Text} (h : Leaf d s) : BehindMark column d (' ' :: s)
  | lines {column gap : Nat} {d : Doc} {t : Text} (h : Lines (column + 2 + gap) d t) :
    BehindMark column d (' ' :: (Text.blanks gap ++ t))

/-- What a key at a column holds, behind its colon.  Only dashes may stand in the column of the key. -/
inductive BehindKey : Nat → Doc → Text → Prop where
  | leaf {column : Nat} {d : Doc} {s : Text} (h : Leaf d s) : BehindKey column d (' ' :: s)
  | deeper {column indent : Nat} {d : Doc} {t : Text}
    (hplace : column < indent ∨ column = indent ∧ ∃ items, d = .list items) (h : Lines indent d t) :
    BehindKey column d (newLine indent ++ t)

inductive Items : Nat → List Doc → List Text → Prop where
  | nil {column : Nat} : Items column [] []
  | cons {column : Nat} {d : Doc} {items : List Doc} {t : Text} {ts : List Text} (h : BehindMark column d t)
    (hrest : Items column items ts) : Items column (d :: items) (('-' :: t) :: ts)

/-- Keys before their colon, which are short, and keys behind a question mark. -/
inductive Entries : Nat → List (Text × Doc) → List Text → Prop where
  | nil {column : Nat} : Entries column [] []
  | simple {column : Nat} {key k : Text} {d : Doc} {entries : List (Text × Doc)} {t : Text} {ts : List Text}
    (hkey : Scalar key k) (hshort : IsWord key → k.length < keyLimit) (h : BehindKey column d t)
    (hrest : Entries column entries ts) : Entries column ((key, d) :: entries) ((k ++ ':' :: t) :: ts)
  | asked {column : Nat} {key k : Text} {d : Doc} {entries : List (Text × Doc)} {t : Text} {ts : List Text}
    (hkey : Scalar key k) (h : BehindMark column d t) (hrest : Entries column entries ts) :
    Entries column ((key, d) :: entries) (('?' :: ' ' :: (k ++ (newLine column ++ ':' :: t))) :: ts)

end

/-- **A writer of block style**: what it makes of a mapping, for any indentation, is its lines and a line end. -/
def InBlocks (dump : Int → Doc → Text) : Prop :=
  ∀ (indent : Int) (entries : List (Text × Doc)), entries ≠ [] →
    ∃ t, Lines 0 (.map entries) t ∧ dump indent (.map entries) = t ++ ['\n']

/-! ## The last line -/

/-- **Folding keeps the last character**, for only blanks inside are folded. -/
theorem Folded.getLast?_eq {t s : Text} (h : Folded t s) : s.getLast? = t.getLast? := by
  induction h with
  | nil => rfl
  | char c _ ih => rw [List.getLast?_cons, List.getLast?_cons, ih]
  | @fold t s indent hinside _ ih =>
    obtain ⟨last, hlast⟩ := Option.isSome_iff_exists.1 (List.getLast?_isSome.2 hinside)
    rw [List.getLast?_append, List.getLast?_cons, ih, hlast]
    rfl

theorem Scalar.isOpen {t s : Text} (h : Scalar t s) : Open s := by
  cases h with
  | bare _ ends _ folded => rwa [Open, folded.getLast?_eq]
  | single _ => exact Doc.open_concat (_ :: _) (by decide)
  | double _ => exact Doc.open_concat (_ :: _) (by decide)

theorem open_flag (b : Bool) : Open (Doc.Yaml.flag b) := by
  cases b <;> exact Doc.open_of_inline (by decide) (by decide)

theorem Leaf.isOpen {d : Doc} {s : Text} (h : Leaf d s) : Open s := by
  cases h with
  | text h => exact h.isOpen
  | int i => exact Doc.open_ofInt i
  | flag b => exact open_flag b
  | list => exact Doc.open_concat ['['] (by decide)
  | map => exact Doc.open_concat ['\x7b'] (by decide)

theorem open_stacked (column : Nat) : ∀ {ts : List Text}, ts ≠ [] → (∀ t ∈ ts, Open t) → Open (stacked column ts)
  | [], hne, _ => absurd rfl hne
  | [t], _, h => by
    rw [stacked, Text.join, List.intercalate_singleton]
    exact h t List.mem_cons_self
  | t :: u :: rest, _, h => by
    have ih : Open (stacked column (u :: rest)) :=
      open_stacked column (List.cons_ne_nil u rest) fun x hx => h x (List.mem_cons_of_mem t hx)
    rw [stacked, Text.join, List.intercalate_cons_cons, List.append_assoc]
    exact (ih.append _).append t

theorem Items.ne_nil {column : Nat} {items : List Doc} {ts : List Text} (h : Items column items ts) (hne : items ≠ []) :
    ts ≠ [] := by
  cases h with
  | nil => exact absurd rfl hne
  | cons _ _ => exact List.cons_ne_nil _ _

theorem Entries.ne_nil {column : Nat} {entries : List (Text × Doc)} {ts : List Text} (h : Entries column entries ts)
    (hne : entries ≠ []) : ts ≠ [] := by
  cases h with
  | nil => exact absurd rfl hne
  | simple _ _ _ _ => exact List.cons_ne_nil _ _
  | asked _ _ _ => exact List.cons_ne_nil _ _

mutual

theorem Lines.isOpen {column : Nat} : ∀ {d : Doc} {t : Text}, Lines column d t → Open t
  | _, _, .list hne h => open_stacked column (h.ne_nil hne) h.isOpen
  | _, _, .map hne h => open_stacked column (h.ne_nil hne) h.isOpen

theorem BehindMark.isOpen {column : Nat} : ∀ {d : Doc} {t : Text}, BehindMark column d t → Open t
  | _, _, .leaf h => h.isOpen.cons ' '
  | _, _, .lines h => (h.isOpen.append _).cons ' '

theorem BehindKey.isOpen {column : Nat} : ∀ {d : Doc} {t : Text}, BehindKey column d t → Open t
  | _, _, .leaf h => h.isOpen.cons ' '
  | _, _, .deeper _ h => h.isOpen.append _

theorem Items.isOpen {column : Nat} : ∀ {items : List Doc} {ts : List Text}, Items column items ts → ∀ t ∈ ts, Open t
  | _, _, .nil, _, ht => nomatch ht
  | _, _, .cons h hrest, _, ht => by
    rcases List.mem_cons.1 ht with rfl | ht
    · exact h.isOpen.cons '-'
    · exact hrest.isOpen _ ht

theorem Entries.isOpen {column : Nat} : ∀ {entries : List (Text × Doc)} {ts : List Text}, Entries column entries ts →
    ∀ t ∈ ts, Open t
  | _, _, .nil, _, ht => nomatch ht
  | _, _, .simple _ _ h hrest, _, ht => by
    rcases List.mem_cons.1 ht with rfl | ht
    · exact (h.isOpen.cons ':').append _
    · exact hrest.isOpen _ ht
  | _, _, .asked _ h hrest, _, ht => by
    rcases List.mem_cons.1 ht with rfl | ht
    · exact ((((h.isOpen.cons ':').append _).append _).cons ' ').cons '?'
    · exact hrest.isOpen _ ht

end

/-- **What a writer of block style makes of a mapping has an open last line**, behind which the text ends. -/
theorem InBlocks.exists_open {dump : Int → Doc → Text} (h : InBlocks dump) (indent : Int)
    {entries : List (Text × Doc)} (hne : entries ≠ []) : ∃ t, Open t ∧ dump indent (.map entries) = t ++ ['\n'] := by
  obtain ⟨t, hlines, hdump⟩ := h indent entries hne
  exact ⟨t, hlines.isOpen, hdump⟩

end Yaml
end Statechart
