import Statechart.Proofs.Doc.JsonPieces
/-!
# LastLine — how the text of a document ends

The last thing that is written of a document is a scalar, a quote or a bracket, never a line end: its last line is open.
Behind a document in JSON nothing follows (`open_toJson`).
-/
namespace Statechart
namespace Doc

/-- A text whose last line holds a character. -/
def Open (t : Text) : Prop := ∃ c ∈ t.getLast?, c ≠ '\n'

variable {t : Text}

theorem Open.append (before : Text) (h : Open t) : Open (before ++ t) := by
  obtain ⟨c, hc, hne⟩ := h
  refine ⟨c, ?_, hne⟩
  rw [List.getLast?_append, Option.mem_def.1 hc]
  rfl

theorem Open.cons (c : Char) (h : Open t) : Open (c :: t) := Open.append [c] h

theorem open_concat (before : Text) {c : Char} (h : c ≠ '\n') : Open (before ++ [c]) :=
  ⟨c, List.getLast?_concat, h⟩

theorem open_of_inline (hne : t ≠ []) (h : '\n' ∉ t) : Open t :=
  ⟨t.getLast hne, List.getLast?_eq_some_getLast hne, ne_of_mem_of_not_mem (List.getLast_mem hne) h⟩

theorem open_ofInt (i : Int) : Open (Text.ofInt i) := by
  have hdigits : ∀ n : Nat, Open (Text.ofNat n) := by
    intro n
    exact open_of_inline Nat.toDigits_ne_nil fun hc => absurd (Json.isDigit_of_mem_ofNat _ hc) (by decide)
  cases i with
  | ofNat n => exact hdigits n
  | negSucc n => exact (hdigits (n + 1)).cons '-'

/-! ## JSON -/

namespace Json

theorem open_flag : ∀ b : Bool, Open (flag b)
  | true => open_of_inline (by decide) (by decide)
  | false => open_of_inline (by decide) (by decide)

theorem open_enclosed (layout : Layout) (level : Nat) (opening : Char) {closing : Char} (h : closing ≠ '\n')
    (items : List Text) : Open (enclosed layout level opening closing items) := by
  cases items with
  | nil => exact open_concat [opening] h
  | cons item rest => exact open_concat _ h

theorem open_written (layout : Layout) (level : Nat) (d : Doc) : Open (written layout level d) := by
  cases d with
  | text t => exact open_concat _ (by decide)
  | int i => exact open_ofInt i
  | flag b => exact open_flag b
  | list items => exact open_enclosed layout level '[' (by decide) _
  | map entries => exact open_enclosed layout level '\x7b' (by decide) _

end Json

/-- **The JSON text of a document has an open last line.** -/
theorem open_toJson (indent : Int) (d : Doc) : Open (d.toJson indent) := Json.open_written _ 0 d

end Doc
end Statechart
