import Statechart.Proofs.Chart.Printing
import Statechart.Proofs.Keyed
/-!
# Reassembly — a state from its own parts

Handlers and children that came from a state are put together to the same mappings, because their keys are distinct and
only the empty event collects.  So a state that fits is assembled from its heading, its transitions and its children.
-/
namespace Statechart

theorem IsName.ne_nil {w : Text} (h : IsName w) : w ≠ [] := h.1

open Keyed (keys add merge collecting)

/-- The entries of a handler that fits make up the handler. -/
theorem foldl_add_handler {h : Text × Handler} (hf : HandlerFits h) {m : Keyed Handler} (hm : h.1 ∉ keys m) :
    (h.2.values.map (fun t => (h.1, t))).foldl add m = m ++ [h] := by
  obtain ⟨event, t | ts⟩ := h
  · obtain ⟨hname, -⟩ := hf
    have hevent : (event, t).1 ≠ collecting := hname.ne_nil
    have hm : (event, t).1 ∉ keys m := hm
    show add m (event, t) = _
    unfold add
    rw [if_neg hevent, Keyed.insert_of_fresh hm]
  · obtain ⟨rfl, hne, -⟩ := hf
    cases ts with
    | nil => exact absurd rfl hne
    | cons t ts =>
      have hm : collecting ∉ keys m := hm
      have hadd : add m (collecting, t) = m ++ [(collecting, .all [t])] := by
        unfold add
        rw [if_pos rfl, Keyed.get?_of_fresh hm, Keyed.insert_of_fresh hm]
        rfl
      show (ts.map (fun t => (collecting, t))).foldl add (add m (collecting, t)) = _
      rw [hadd, Keyed.foldl_add_collecting hm]
      rfl

theorem foldl_add_handlers : ∀ {hs m : Keyed Handler}, (∀ h ∈ hs, HandlerFits h) → (keys (m ++ hs)).Nodup →
    (hs.flatMap (fun h => h.2.values.map (fun t => (h.1, t)))).foldl add m = m ++ hs
  | [], m, _, _ => by rw [List.flatMap_nil, List.foldl_nil, List.append_nil]
  | h :: hs, m, hf, hk => by
    have hnext : (keys ((m ++ [h]) ++ hs)).Nodup := by
      rw [List.append_assoc, List.singleton_append]
      exact hk
    rw [List.flatMap_cons, List.foldl_append, foldl_add_handler (hf h List.mem_cons_self) (Keyed.fresh_of_nodup hk),
      foldl_add_handlers (fun h' hh => hf h' (List.mem_cons_of_mem h hh)) hnext, List.append_assoc,
      List.singleton_append]

namespace Node

theorem Fits.values_ne_nil {h : Text × Handler} (hf : HandlerFits h) : h.2.values ≠ [] := by
  obtain ⟨event, t | ts⟩ := h
  · exact List.cons_ne_nil t []
  · exact hf.2.1

/-- **The handlers of a state are made of its transitions.** -/
theorem Fits.handlers_entries {n : Node} (h : n.Fits) : Assembly.handlers n.entries = n.on := by
  unfold Assembly.handlers entries
  cases hon : n.on with
  | none => rfl
  | some hs =>
    obtain ⟨hne, hnodup, hfits⟩ := h.handlers hs hon
    have hentries : (hs.flatMap (fun h => h.2.values.map (Entry.mk h.1))).isEmpty = false := by
      cases hs with
      | nil => exact absurd rfl hne
      | cons x hs =>
        rw [List.isEmpty_eq_false_iff, List.flatMap_cons]
        intro hnil
        have hvalues := List.map_eq_nil_iff.mp (List.append_eq_nil_iff.mp hnil).1
        exact Fits.values_ne_nil (hfits x List.mem_cons_self) hvalues
    have hpairs :
        ((hs.flatMap (fun h => h.2.values.map (Entry.mk h.1))).map (fun e => [(e.event, e.transition)])).flatten =
          hs.flatMap (fun h => h.2.values.map (fun t => (h.1, t))) := by
      rw [← List.flatMap_def, ← List.map_eq_flatMap, List.map_flatMap]
      simp only [List.map_map]
      rfl
    rw [Option.getD_some, hentries]
    show some (merge _) = _
    unfold merge
    rw [hpairs, foldl_add_handlers (m := []) hfits hnodup]
    rfl

/-- **The children of a state are found by their ids.** -/
theorem Fits.childrenByName_children {n : Node} (h : n.Fits) :
    Assembly.childrenByName (n.children.map Prod.snd) = n.states := by
  unfold Assembly.childrenByName children
  cases hs : n.states with
  | none => rfl
  | some cs =>
    obtain ⟨hne, hnodup, hids⟩ := h.keys cs hs
    have hpairs : (cs.map Prod.snd).map (fun c => (c.id, c)) = cs := by
      rw [List.map_map]
      refine (List.map_congr_left ?_).trans (List.map_id cs)
      intro c hc
      exact Prod.ext (hids c hc).symm rfl
    have hempty : (cs.map Prod.snd).isEmpty = false := by
      rw [List.isEmpty_eq_false_iff]
      exact fun hnil => hne (List.map_eq_nil_iff.mp hnil)
    rw [Option.getD_some, hempty, hpairs, Keyed.ofEntries_of_nodup hnodup]
    rfl

theorem Fits.classify_heading {n : Node} (h : n.Fits) {heading : Heading}
    (hparallel : heading.parallel = decide (n.kind = .parallel)) (hfinal : heading.final = decide (n.kind = .final)) :
    Assembly.classify heading (n.children.map Prod.snd).length = n.kind := by
  have hcompound := h.compound
  have hatomic := h.atomic
  unfold Assembly.classify
  rw [hparallel, hfinal, List.length_map]
  cases hk : n.kind with
  | atomic =>
    rw [hatomic hk]
    rfl
  | compound => exact if_pos (List.length_pos_iff.mpr (hcompound hk))
  | parallel => rfl
  | final => rfl

/-- The default child that is printed by its place and its mark is found again. -/
theorem Fits.withInitial {n : Node} (h : n.Fits) : Assembly.withInitial { n with initial := none } = n := by
  have hinitial := h.initial
  have hchildren : ({ n with initial := none } : Node).children = n.children := rfl
  have hmarked : Assembly.marked { n with initial := none } = Assembly.marked n := rfl
  unfold Assembly.withInitial
  rw [hchildren, hmarked]
  cases hc : n.children with
  | nil =>
    rw [hc] at hinitial
    obtain ⟨id, kind, initial, isInitial, states, on⟩ := n
    cases hinitial
    rfl
  | cons c cs =>
    have hdefault : defaultChild (c :: cs) = some ((Assembly.marked n).getLastD c.1) := by
      unfold Assembly.marked defaultChild
      rw [hc, List.getLastD_eq_getLast?]
      cases (((c :: cs).filter (fun c => c.2.isInitial == some true)).map Prod.fst).getLast? <;> rfl
    rw [hc, hdefault] at hinitial
    show ({ n with initial := some ((Assembly.marked n).getLastD c.1) } : Node) = n
    rw [← hinitial]
    cases n
    rfl

/-- **A state that fits is assembled from its parts.** -/
theorem Fits.assemble {n : Node} (h : n.Fits) {heading : Heading} {body : List Item} (hname : heading.name = n.id)
    (hparallel : heading.parallel = decide (n.kind = .parallel)) (hfinal : heading.final = decide (n.kind = .final))
    (hmark : heading.initial = decide (n.isInitial = some true)) (hentries : Assembly.entriesOf body = n.entries)
    (hchildren : Assembly.childrenOf body = n.children.map Prod.snd) : Assembly.assemble ⟨heading, body⟩ = n := by
  have hinitial : (if heading.initial = true then some true else none) = n.isInitial := by
    have hmarked := h.marked
    rw [hmark]
    rcases hi : n.isInitial with _ | _ | _
    · rfl
    · exact absurd hi hmarked
    · rfl
  have hunsettled : Assembly.unsettled ⟨heading, body⟩ = { n with initial := none } := by
    unfold Assembly.unsettled
    simp only [hentries, hchildren]
    rw [hname, hinitial, h.classify_heading hparallel hfinal, h.handlers_entries, h.childrenByName_children]
  unfold Assembly.assemble
  rw [hunsettled]
  exact h.withInitial

end Node
end Statechart
