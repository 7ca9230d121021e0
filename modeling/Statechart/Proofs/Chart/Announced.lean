import Statechart.Proofs.Chart.Declared
import Statechart.Proofs.Grammar.Derivation
/-!
# Announced — what there is to say of a chart

Of a state there is something to say when a child is declared again, each time, and when the surviving declarations of
several children are marked.  That depends on the declarations alone (`announced`), and it is what assembling a state
remarks on (`remarks_eq`).  Of a chart it is what there is to say of its states, those inside first, also of a state
that is declared again later and so does not survive.
-/
namespace Statechart
namespace Assembly

/-! ## What there is to say of a state -/

/-- The ids of the children that an earlier child shares its id with, in order. -/
def again (children : List Node) : List Text :=
  (children.zipIdx.filter (fun c => (children.take c.2).any (fun x => x.id == c.1.id))).map (fun c => c.1.id)

/-- What there is to say of a state with some children: that a child is declared again, each time, and then that several
are marked, if the surviving declarations of several are. -/
def announced (state : Text) (children : List Node) : List Remark :=
  (again children).map (.repeatedChild state) ++
    let names := (declared children).filter (marks children)
    if 1 < names.length then [.severalInitial state names] else []

/-- By induction on the children that are left, `seen` being the ids of those before. -/
theorem repeatedAfter_eq (state : Text) : ∀ (rest earlier : List Node) {seen : List Text},
    (∀ id, id ∈ seen ↔ ∃ c ∈ earlier, c.id = id) →
      repeatedAfter state seen rest =
        (((rest.zipIdx earlier.length).filter (fun c => ((earlier ++ rest).take c.2).any (fun x => x.id == c.1.id))).map
          (fun c => c.1.id)).map (.repeatedChild state)
  | [], _, _, _ => rfl
  | c :: rest, earlier, seen, h => by
    have hany : earlier.any (fun x => x.id == c.id) = seen.contains c.id := by
      rw [Bool.eq_iff_iff, List.any_eq_true, List.contains_iff_mem, h]
      simp
    have hrest := @repeatedAfter_eq state rest (earlier ++ [c])
    rw [List.length_append, List.length_singleton, List.append_assoc, List.singleton_append] at hrest
    rw [List.zipIdx_cons, List.filter_cons, List.take_left, hany, repeatedAfter]
    by_cases hc : seen.contains c.id
    · have hseen : ∀ id, id ∈ seen ↔ ∃ x ∈ earlier ++ [c], x.id = id := by
        intro id
        have hmem := (h c.id).1 (List.contains_iff_mem.1 hc)
        rw [h]
        constructor
        · rintro ⟨x, hx, hid⟩
          exact ⟨x, List.mem_append_left _ hx, hid⟩
        · rintro ⟨x, hx, rfl⟩
          rcases List.mem_append.1 hx with hx | hx
          · exact ⟨x, hx, rfl⟩
          · rwa [List.mem_singleton.1 hx]
      rw [if_pos hc, if_pos hc, List.map_cons, List.map_cons, hrest hseen]
    · have hseen : ∀ id, id ∈ c.id :: seen ↔ ∃ x ∈ earlier ++ [c], x.id = id := by
        intro id
        rw [List.mem_cons, h]
        simp only [List.mem_append, List.mem_singleton, or_and_right, exists_or, exists_eq_left]
        rw [or_comm, eq_comm]
      rw [if_neg hc, if_neg hc, hrest hseen]

theorem repeated_eq (state : Text) (children : List Node) :
    repeated state children = (again children).map (.repeatedChild state) :=
  repeatedAfter_eq state children [] (by simp)

theorem severalMarked_eq {n : Node} {children : List Node} (h : n.states = childrenByName children) :
    repeated n.id children ++ severalMarked n = announced n.id children := by
  unfold severalMarked announced
  rw [marked_eq h, repeated_eq]

theorem remarks_eq (d : Draft) : remarks d = announced d.heading.name (childrenOf d.body) :=
  severalMarked_eq (n := unsettled d) rfl

end Assembly

namespace Grammar

open Assembly (announced childrenOf)

/-! ## What there is to say of a chart -/

mutual

/-- What there is to say of a state and of the states in it, in the order in which they end. -/
def StateTree.remarks : StateTree → List Remark
  | .bare _ => []
  | .block heading _ body _ => body.remarks ++ announced heading.name.word (childrenOf body.items)

def BodyTree.remarks : BodyTree → List Remark
  | .nil => []
  | .transition _ rest => rest.remarks
  | .state s rest => s.remarks ++ rest.remarks

end

/-- What there is to say of a chart: of its states, and then of the state that holds them if there are several. -/
def ChartTree.remarks (rootId : Text) (d : ChartTree) : List Remark :=
  d.states.flatMap StateTree.remarks ++ if d.rest = [] then [] else announced rootId d.nodes

theorem rootRemarks_nodes (rootId : Text) (d : ChartTree) :
    Assembly.rootRemarks rootId d.nodes = if d.rest = [] then [] else announced rootId d.nodes := by
  obtain ⟨frame, first, rest⟩ := d
  cases rest with
  | nil => rfl
  | cons s rest =>
    rw [if_neg (List.cons_ne_nil s rest)]
    exact Assembly.severalMarked_eq (n := Assembly.synthetic rootId (ChartTree.nodes ⟨frame, first, s :: rest⟩)) rfl

end Grammar
end Statechart
