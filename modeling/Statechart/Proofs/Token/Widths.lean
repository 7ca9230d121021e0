import Mathlib.Data.List.TakeWhile
import Mathlib.Order.Monotone.Basic
import Statechart.Proofs.Token.Outline
/-!
# Widths — lines that are moved to other widths

A row is compared with the open widths and with nothing else.  So when every width goes through a strictly increasing
function, the same blocks are opened and closed, and the same rows clash (`body_widen`, `clash_widen`).  If the function
does not keep the width zero, there may be one block more around all the others: its width stands on a floor below
every width that a row then has.
-/
namespace Statechart

open LineByLine (width isSignificant closes)

/-- The row at another width. -/
def Row.widen (f : Nat → Nat) (r : Row) : Row := { r with width := r.width.map f }

theorem Row.Sound.widen {r : Row} (h : r.Sound) (f : Nat → Nat) : (r.widen f).Sound :=
  ⟨h.words, fun hwidth => h.counts fun hnone => hwidth (by unfold Row.widen; rw [hnone]; rfl)⟩

theorem sound_widen {rs : List Row} (h : ∀ r ∈ rs, r.Sound) (f : Nat → Nat) : ∀ r ∈ rs.map (Row.widen f), r.Sound := by
  intro _ hr
  obtain ⟨r, hmem, rfl⟩ := List.mem_map.1 hr
  exact (h r hmem).widen f

/-- The clash at other widths, above a floor. -/
def Clash.widen (f : Nat → Nat) (floor : List Nat) (c : Clash) : Clash := ⟨c.line, f c.width, c.stack.map f ++ floor⟩

namespace Outline

section

variable {f : Nat → Nat} (hf : StrictMono f) {floor : List Nat} (hfloor : ∀ v ∈ floor, v < f 0)
include hf

theorem closes_widen (w v : Nat) : closes (f w) (f v) = closes w v := decide_eq_decide.2 hf.lt_iff_lt

include hfloor

theorem floor_stays (w : Nat) : ∀ v ∈ floor.head?, closes (f w) v = false := by
  intro v hv
  have hlow := hfloor v (List.mem_of_mem_head? hv)
  have hle : f 0 ≤ f w := hf.monotone (Nat.zero_le w)
  exact decide_eq_false (by omega)

theorem takeWhile_widen (stack : List Nat) (w : Nat) :
    (stack.map f ++ floor).takeWhile (closes (f w)) = (stack.takeWhile (closes w)).map f := by
  rw [takeWhile_append_of_head (floor_stays hf hfloor w), List.takeWhile_map]
  congr 1
  exact congrArg (stack.takeWhile ·) (funext (closes_widen hf w))

theorem dropWhile_widen (stack : List Nat) (w : Nat) :
    (stack.map f ++ floor).dropWhile (closes (f w)) = (stack.dropWhile (closes w)).map f ++ floor := by
  rw [dropWhile_append_of_head (floor_stays hf hfloor w), List.dropWhile_map]
  congr 2
  exact congrArg (stack.dropWhile ·) (funext (closes_widen hf w))

theorem mem_widen (stack : List Nat) (w : Nat) : f w ∈ stack.map f ++ floor ↔ w ∈ stack := by
  rw [List.mem_append, List.mem_map_of_injective hf.injective]
  refine or_iff_left fun hlow => ?_
  have hlow := hfloor _ hlow
  have hle : f 0 ≤ f w := hf.monotone (Nat.zero_le w)
  omega

omit hf hfloor in
theorem headD_widen {stack : List Nat} (h : 0 ∈ stack) : (stack.map f ++ floor).headD 0 = f (stack.headD 0) := by
  cases stack with
  | nil => cases h
  | cons v stack => rfl

/-- **A row at another width opens and closes as many blocks.** -/
theorem entry_widen {stack : List Nat} (h : 0 ∈ stack) (i : Nat) (w : Option Nat) :
    entry (stack.map f ++ floor) i (w.map f) = entry stack i w := by
  cases w with
  | none => rfl
  | some w =>
    unfold entry
    simp only [Option.map_some, headD_widen h, hf.lt_iff_lt, takeWhile_widen hf hfloor, List.length_map]

theorem after_widen {stack : List Nat} (h : 0 ∈ stack) (w : Option Nat) :
    after (stack.map f ++ floor) (w.map f) = (after stack w).map f ++ floor := by
  cases w with
  | none => rfl
  | some w =>
    unfold after
    simp only [Option.map_some, headD_widen h, hf.lt_iff_lt, dropWhile_widen hf hfloor]
    split <;> rfl

theorem clashAt_widen {stack : List Nat} (h : 0 ∈ stack) (i : Nat) (w : Option Nat) :
    clashAt (stack.map f ++ floor) i (w.map f) = (clashAt stack i w).map (Clash.widen f floor) := by
  cases w with
  | none => rfl
  | some w =>
    unfold clashAt
    simp only [Option.map_some, headD_widen h, hf.lt_iff_lt, mem_widen hf hfloor]
    split <;> rfl

end

theorem zero_mem_after {stack : List Nat} (h : 0 ∈ stack) (w : Option Nat) : 0 ∈ after stack w := by
  cases w with
  | none => exact h
  | some w =>
    unfold after
    simp only
    split
    · exact List.mem_cons_of_mem w h
    · have hsplit : 0 ∈ stack.takeWhile (closes w) ++ stack.dropWhile (closes w) := by
        rwa [List.takeWhile_append_dropWhile]
      refine (List.mem_append.1 hsplit).resolve_left fun hclosed => ?_
      exact absurd (List.mem_takeWhile_imp hclosed) (by simp [closes])

theorem zero_mem_leave : ∀ (rs : List Row) {stack : List Nat}, 0 ∈ stack → 0 ∈ leave stack rs
  | [], _, h => h
  | r :: rs, _, h => zero_mem_leave rs (zero_mem_after h r.width)

section

variable {f : Nat → Nat} (hf : StrictMono f) {floor : List Nat} (hfloor : ∀ v ∈ floor, v < f 0)
include hf hfloor

theorem leave_widen : ∀ (rs : List Row) {stack : List Nat}, 0 ∈ stack →
    leave (stack.map f ++ floor) (rs.map (Row.widen f)) = (leave stack rs).map f ++ floor
  | [], _, _ => rfl
  | r :: rs, stack, h => by
    rw [List.map_cons, leave, leave]
    show leave (after _ (r.width.map f)) _ = _
    rw [after_widen hf hfloor h, leave_widen rs (zero_mem_after h r.width)]

/-- **Rows at other widths have the same tokens.** -/
theorem body_widen : ∀ (rs : List Row) {stack : List Nat} (i : Nat), 0 ∈ stack →
    body (stack.map f ++ floor) i (rs.map (Row.widen f)) = body stack i rs
  | [], _, _, _ => rfl
  | r :: rs, stack, i, h => by
    rw [List.map_cons, body, body]
    show entry _ i (r.width.map f) ++ (r.tokens i ++ body (after _ (r.width.map f)) (i + 1) _) = _
    rw [entry_widen hf hfloor h, after_widen hf hfloor h, body_widen rs (i + 1) (zero_mem_after h r.width)]

/-- **Rows at other widths clash where they did.** -/
theorem clash_widen : ∀ (rs : List Row) {stack : List Nat} (i : Nat), 0 ∈ stack →
    clash (stack.map f ++ floor) i (rs.map (Row.widen f)) = (clash stack i rs).map (Clash.widen f floor)
  | [], _, _, _ => rfl
  | r :: rs, stack, i, h => by
    rw [List.map_cons, clash, clash, Option.map_or]
    show (clashAt _ i (r.width.map f)).or (clash (after _ (r.width.map f)) (i + 1) _) = _
    rw [clashAt_widen hf hfloor h, after_widen hf hfloor h, clash_widen rs (i + 1) (zero_mem_after h r.width)]

/-- The floor is closed where the text ends. -/
theorem tokens_widen (rs : List Row) {stack : List Nat} (i : Nat) (h : 0 ∈ stack) :
    tokens (stack.map f ++ floor) i (rs.map (Row.widen f)) =
      tokens stack i rs ++ List.replicate floor.length ⟨.dedent, ↑(i + rs.length), 1, none⟩ := by
  have hpos : 0 < (leave stack rs).length := List.length_pos_of_mem (zero_mem_leave rs h)
  have hcount : ((leave stack rs).map f ++ floor).length - 1 = (leave stack rs).length - 1 + floor.length := by
    rw [List.length_append, List.length_map]
    omega
  unfold tokens ends
  rw [body_widen hf hfloor rs i h, leave_widen hf hfloor rs h, List.length_map, hcount, List.replicate_add,
    List.append_assoc]

end
end Outline

/-! ## Texts -/

def respaceLine (f : Nat → Nat) (l : Text) : Text := Text.blanks (f (width l)) ++ l.dropWhile (· == ' ')

/-- **The text with the leading spaces of every line changed** from `w` to `f w`. -/
def respaced (f : Nat → Nat) (t : Text) : Text := Text.unlines ((Text.lines t).map (respaceLine f))

theorem width_respaceLine (f : Nat → Nat) (l : Text) : width (respaceLine f l) = f (width l) := by
  have hstop : ∀ c ∈ (l.dropWhile (· == ' ')).head?, (c == ' ') = false := by
    intro c hc
    cases hd : l.dropWhile (· == ' ') with
    | nil =>
      rw [hd] at hc
      cases hc
    | cons x rest =>
      rw [hd] at hc
      obtain rfl := Option.some.inj hc
      exact not_of_dropWhile_eq_cons (p := (· == ' ')) hd
  have hall : ∀ c ∈ Text.blanks (f (width l)), (c == ' ') = true := fun c hc => beq_iff_eq.2 (List.eq_of_mem_replicate hc)
  have htake : (respaceLine f l).takeWhile (· == ' ') = Text.blanks (f (width l)) := takeWhile_eq_of_all hstop hall
  unfold LineByLine.width at htake ⊢
  rw [htake]
  exact List.length_replicate

theorem dropWhile_respaceLine (f : Nat → Nat) (l : Text) :
    (respaceLine f l).dropWhile isBlank = l.dropWhile isBlank := by
  unfold respaceLine
  rw [dropWhile_blanks]
  refine dropWhile_dropWhile_of_imp (fun c hc => ?_) l
  rw [beq_iff_eq.1 hc]
  rfl

/-- **A line behind other spaces is its row at another width.** -/
theorem row_respaceLine (f : Nat → Nat) (l : Text) : Row.ofLine (respaceLine f l) = (Row.ofLine l).widen f := by
  have hsignificant : isSignificant (respaceLine f l) = isSignificant l := by
    unfold isSignificant
    rw [dropWhile_respaceLine]
  have hsigns : signs false (respaceLine f l) = signs false l := by
    rw [← signs_dropWhile, dropWhile_respaceLine, signs_dropWhile]
  unfold Row.ofLine Row.widen
  rw [hsignificant, hsigns, width_respaceLine]
  cases isSignificant l <;> rfl

theorem outline_respaced (f : Nat → Nat) (t : Text) : outline (respaced f t) = (outline t).map (Row.widen f) := by
  have hinline : ∀ l ∈ (Text.lines t).map (respaceLine f), '\n' ∉ l := by
    intro _ hl hm
    obtain ⟨l, hmem, rfl⟩ := List.mem_map.1 hl
    rcases List.mem_append.1 hm with hm | hm
    · exact absurd (List.eq_of_mem_replicate hm) (by decide)
    · exact Text.inline_of_mem_lines hmem (mem_of_mem_dropWhile hm)
  have hne : (Text.lines t).map (respaceLine f) ≠ [] := fun h => Text.lines_ne_nil t (List.map_eq_nil_iff.1 h)
  unfold outline respaced
  rw [Text.lines_unlines hne hinline, List.map_map, List.map_map]
  exact List.map_congr_left fun l _ => row_respaceLine f l

end Statechart
