import Statechart.Proofs.Token.Words
/-!
# Segment — consecutive lines with two spaces for each level

In such a text the open widths are known from the depth alone.  A segment is a run of lines that begins at one depth and
leaves another one open; what it contributes to the tokens of a text does not depend on what comes behind it, and what
comes before only decides which blocks its first line opens or closes (`entering`).
-/
namespace Statechart

open Diagnostic (BadIndentation)
open LineByLine (width isSignificant closes enter words tokensFrom)

/-- The tokens that the grammar sees. -/
def seen (ts : List Token) : List Token := ts.filter (fun t => !t.kind.isIgnored)

theorem seen_append (ts us : List Token) : seen (ts ++ us) = seen ts ++ seen us := List.filter_append ts us

theorem seen_of_all {ts : List Token} (h : ∀ t ∈ ts, t.kind.isIgnored = false) : seen ts = ts := by
  unfold seen
  rw [List.filter_eq_self]
  intro t ht
  rw [h t ht]
  rfl

namespace LineByLine

/-- The widths that are open at a depth. -/
def levels : Nat → List Nat
  | 0 => [0]
  | d + 1 => 2 * (d + 1) :: levels d

theorem length_levels : ∀ d : Nat, (levels d).length = d + 1
  | 0 => rfl
  | d + 1 => by rw [levels, List.length_cons, length_levels d]

theorem headD_levels (d : Nat) : (levels d).headD 0 = 2 * d := by cases d <;> rfl

theorem mem_levels {d : Nat} : ∀ {e : Nat}, d ≤ e → 2 * d ∈ levels e
  | 0, h => by
    rw [Nat.le_zero.mp h]
    exact List.mem_singleton_self _
  | e + 1, h => by
    rw [levels]
    rcases Nat.lt_or_eq_of_le h with h | rfl
    · exact List.mem_cons_of_mem _ (mem_levels (Nat.le_of_lt_succ h))
    · exact List.mem_cons_self

theorem closes_self (d : Nat) : (levels d).takeWhile (closes (2 * d)) = [] ∧
    (levels d).dropWhile (closes (2 * d)) = levels d := by
  have hc : closes (2 * d) (2 * d) = false := decide_eq_false (Nat.lt_irrefl _)
  cases d with
  | zero => exact ⟨rfl, rfl⟩
  | succ d => rw [levels, List.takeWhile_cons, List.dropWhile_cons, hc]; exact ⟨rfl, rfl⟩

/-- A line at depth `d` closes all that is deeper. -/
theorem closes_levels {d : Nat} : ∀ {e : Nat}, d ≤ e → ((levels e).takeWhile (closes (2 * d))).length = e - d ∧
    (levels e).dropWhile (closes (2 * d)) = levels d
  | 0, h => by
    rw [Nat.le_zero.mp h, (closes_self 0).1, (closes_self 0).2]
    exact ⟨rfl, rfl⟩
  | e + 1, h => by
    rcases Nat.lt_or_eq_of_le h with h | rfl
    · have hc : closes (2 * d) (2 * (e + 1)) = true := decide_eq_true (by omega)
      obtain ⟨hlen, hdrop⟩ := closes_levels (Nat.le_of_lt_succ h)
      rw [levels, List.takeWhile_cons, List.dropWhile_cons, hc, if_pos rfl, if_pos rfl, List.length_cons, hlen, hdrop]
      exact ⟨by omega, rfl⟩
    · rw [(closes_self (e + 1)).1, (closes_self (e + 1)).2, Nat.sub_self]
      exact ⟨rfl, rfl⟩

/-- The layout in front of line `i` at depth `d` where depth `e` is open. -/
def entering (e d i : Nat) : List Token :=
  if e < d then [⟨.indent, i, 1, none⟩] else List.replicate (e - d) ⟨.dedent, i, 1, none⟩

theorem entering_same (d i : Nat) : entering d d i = [] := by
  unfold entering
  rw [if_neg (Nat.lt_irrefl d), Nat.sub_self]
  rfl

/-- What a line may begin with behind its spaces. -/
def Begins (w : Text) : Prop := ∃ c rest, w = c :: rest ∧ isBlank c = false ∧ c ≠ '#'

theorem width_line {w : Text} (hw : Begins w) (d : Nat) : width (Print.line d w) = 2 * d := by
  obtain ⟨c, rest, rfl, hc, -⟩ := hw
  have hstop : ∀ x ∈ (c :: rest).head?, (x == ' ') = false := by
    intro x hx
    cases hx
    rw [beq_eq_false_iff_ne]
    rintro rfl
    cases hc
  have htake : (Print.line d (c :: rest)).takeWhile (· == ' ') = Text.blanks (2 * d) :=
    takeWhile_eq_of_all hstop (fun x hx => beq_iff_eq.mpr (List.eq_of_mem_replicate hx))
  unfold width
  rw [htake]
  exact List.length_replicate

theorem isSignificant_line {w : Text} (hw : Begins w) (d : Nat) : isSignificant (Print.line d w) = true := by
  obtain ⟨c, rest, rfl, hc, hhash⟩ := hw
  unfold isSignificant Print.line
  rw [dropWhile_blanks, List.dropWhile_cons, hc]
  exact bne_iff_ne.mpr hhash

theorem enter_line {w : Text} (hw : Begins w) (source : Text) (i : Nat) {d e : Nat} (h : d ≤ e + 1) :
    enter source (levels e) i (Print.line d w) = .ok (entering e d i, levels d) := by
  unfold enter entering
  rw [isSignificant_line hw, if_neg (by decide), headD_levels, width_line hw]
  by_cases hlt : e < d
  · obtain rfl : d = e + 1 := by omega
    rw [if_pos (by omega), if_pos hlt]
    rfl
  · have hle : d ≤ e := Nat.le_of_not_lt hlt
    obtain ⟨hlen, hdrop⟩ := closes_levels hle
    rw [if_neg (by omega), if_neg hlt]
    by_cases hde : d = e
    · subst hde
      rw [if_neg (Nat.lt_irrefl _), Nat.sub_self]
      rfl
    · rw [if_pos (by omega), if_pos (mem_levels hle), hlen, hdrop]

/-- What follows line `i`, with the widths that it leaves open. -/
def behind (source : Text) (stack : List Nat) (i col : Nat) : List Text → Except BadIndentation (List Token)
  | [] => .ok (List.replicate (stack.length - 1) ⟨.dedent, i, col, none⟩)
  | l :: ls => (tokensFrom source stack (i + 1) (l :: ls)).map (⟨.newline, i, col, none⟩ :: ·)

theorem tokensFrom_cons {source : Text} {stack stack' : List Nat} {i : Nat} {l : Text} {entry : List Token}
    (hl : '\n' ∉ l) (he : enter source stack i l = .ok (entry, stack')) (ls : List Text) :
    tokensFrom source stack i (l :: ls) =
      (behind source stack' i (l.length + 1) ls).map (entry ++ lineWords i false 1 l ++ ·) := by
  cases ls with
  | nil =>
    rw [tokensFrom, he, words_of_inline hl]
    rfl
  | cons l' ls =>
    rw [tokensFrom, he, words_of_inline hl, behind]
    show (tokensFrom source stack' (i + 1) (l' :: ls)).bind _ = _
    cases tokensFrom source stack' (i + 1) (l' :: ls) <;> rfl

/-- Lines from line `i` at depth `d` on, which leave depth `o` open and of which the grammar sees `vs`. -/
def Segment (source : Text) (d i : Nat) (ls : List Text) (o : Nat) (vs : List Token) : Prop :=
  ∃ ts col, seen ts = vs ∧ ∀ rest e, d ≤ e + 1 →
    tokensFrom source (levels e) i (ls ++ rest) =
      (behind source (levels o) (i + ls.length - 1) col rest).map (entering e d i ++ ts ++ ·)

theorem segment_line {w : Text} (hw : Begins w) (hl : '\n' ∉ Print.line d w) (source : Text) (i : Nat) :
    Segment source d i [Print.line d w] d (seen (lineWords i false 1 (Print.line d w))) := by
  refine ⟨_, (Print.line d w).length + 1, rfl, ?_⟩
  intro rest e h
  exact tokensFrom_cons hl (enter_line hw source i h) rest

theorem seen_entering (e d i : Nat) : seen (entering e d i) = entering e d i := by
  refine seen_of_all ?_
  intro t ht
  unfold entering at ht
  split at ht
  · rw [List.mem_singleton.mp ht]
    rfl
  · rw [List.eq_of_mem_replicate ht]
    rfl

/-- **Segments follow each other**: the second begins with the layout that leads from the depth the first left open. -/
theorem Segment.append {source : Text} {d d' i o o' : Nat} {l' : Text} {ls ls' : List Text} {vs vs' : List Token}
    (h : Segment source d i ls o vs) (hne : ls ≠ []) (h' : Segment source d' (i + ls.length) (l' :: ls') o' vs')
    (hd : d' ≤ o + 1) :
    Segment source d i (ls ++ l' :: ls') o' (vs ++ (entering o d' (i + ls.length) ++ vs')) := by
  obtain ⟨ts, col, hts, hrun⟩ := h
  obtain ⟨ts', col', hts', hrun'⟩ := h'
  have hpos : 0 < ls.length := List.length_pos_iff.mpr hne
  refine ⟨ts ++ ⟨.newline, ↑(i + ls.length - 1), col, none⟩ :: (entering o d' (i + ls.length) ++ ts'), col', ?_, ?_⟩
  · rw [seen_append, hts]
    show vs ++ seen (_ ++ ts') = _
    rw [seen_append, seen_entering, hts']
  · intro rest e he
    have hnext : i + ls.length - 1 + 1 = i + ls.length := by omega
    have hlast : i + (ls ++ l' :: ls').length - 1 = i + ls.length + (l' :: ls').length - 1 := by
      rw [List.length_append, Nat.add_assoc]
    rw [List.append_assoc, hrun _ e he, List.cons_append, behind, hnext, ← List.cons_append, hrun' rest o hd, hlast]
    cases behind source (levels o') (i + ls.length + (l' :: ls').length - 1) col' rest with
    | error x => rfl
    | ok later =>
      show Except.ok _ = Except.ok _
      simp only [List.append_assoc, List.cons_append]

/-- Block ends, one for each of `n` blocks. -/
def BlockEnds (n : Nat) (ts : List Token) : Prop := ts.length = n ∧ ∀ t ∈ ts, t.kind = .dedent

theorem blockEnds_replicate (n : Nat) (line col : Int) : BlockEnds n (List.replicate n ⟨.dedent, line, col, none⟩) := by
  refine ⟨List.length_replicate, ?_⟩
  intro t ht
  rw [List.eq_of_mem_replicate ht]

theorem blockEnds_entering {d o : Nat} (h : d ≤ o) (i : Nat) : BlockEnds (o - d) (entering o d i) := by
  unfold entering
  rw [if_neg (Nat.not_lt.mpr h)]
  refine ⟨List.length_replicate, ?_⟩
  intro t ht
  rw [List.eq_of_mem_replicate ht]

/-- The innermost blocks end first. -/
theorem BlockEnds.split {n : Nat} {ends : List Token} (h : BlockEnds (n + 1) ends) :
    ∃ inner closing, ends = inner ++ [closing] ∧ BlockEnds n inner ∧ closing.kind = .dedent := by
  obtain ⟨hlen, hkind⟩ := h
  have hne : ends ≠ [] := by
    rintro rfl
    cases hlen
  refine ⟨ends.dropLast, ends.getLast hne, (List.dropLast_concat_getLast hne).symm, ⟨?_, ?_⟩, ?_⟩
  · rw [List.length_dropLast, hlen, Nat.add_sub_cancel]
  · exact fun t ht => hkind t (List.dropLast_subset ends ht)
  · exact hkind _ (List.getLast_mem hne)

theorem BlockEnds.seen {n : Nat} {ts : List Token} (h : BlockEnds n ts) : seen ts = ts := by
  refine seen_of_all ?_
  intro t ht
  rw [h.2 t ht]
  rfl

/-- What is behind the last line, and behind a line feed at its end. -/
theorem behind_last (source : Text) (o i col : Nat) {rest : List Text} (h : rest = [] ∨ rest = [[]]) :
    ∃ ts ends, behind source (levels o) i col rest = .ok ts ∧ Statechart.seen ts = ends ∧ BlockEnds o ends := by
  have hcount : (levels o).length - 1 = o := by rw [length_levels, Nat.add_sub_cancel]
  rcases h with rfl | rfl
  · have hends := blockEnds_replicate o i col
    refine ⟨_, _, ?_, hends.seen, hends⟩
    rw [behind, hcount]
  · have hends := blockEnds_replicate o ↑(i + 1) ↑(0 + 1 : Nat)
    have henter : enter source (levels o) (i + 1) [] = .ok ([], levels o) := rfl
    refine ⟨⟨.newline, i, col, none⟩ :: List.replicate o ⟨.dedent, ↑(i + 1), ↑(0 + 1 : Nat), none⟩, _, ?_,
      hends.seen, hends⟩
    rw [behind, tokensFrom_cons List.not_mem_nil henter, behind, hcount, lineWords_of_blank rfl]
    rfl

/-- **A segment from the ground level** is a whole text, with a line feed at its end or without. -/
theorem Segment.closed {source : Text} {ls : List Text} {o : Nat} {vs : List Token} (h : Segment source 0 1 ls o vs)
    {rest : List Text} (hrest : rest = [] ∨ rest = [[]]) :
    ∃ ts ends, tokensFrom source [0] 1 (ls ++ rest) = .ok ts ∧ seen ts = vs ++ ends ∧ BlockEnds o ends := by
  obtain ⟨ts, col, hts, hrun⟩ := h
  obtain ⟨later, ends, hbehind, hseen, hends⟩ := behind_last source o (1 + ls.length - 1) col hrest
  refine ⟨entering 0 0 1 ++ ts ++ later, ends, ?_, ?_, hends⟩
  · have hrun := hrun rest 0 (Nat.zero_le _)
    rw [hbehind] at hrun
    exact hrun
  · rw [entering_same, List.nil_append, seen_append, hseen, hts]

end LineByLine
end Statechart
