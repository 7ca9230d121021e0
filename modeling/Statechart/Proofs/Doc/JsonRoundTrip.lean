import Statechart.Proofs.Doc.JsonPieces
/-!
# JsonRoundTrip — a written document is read back

A document says a value that has no null in it.  Reading the text of a document, in any layout, gives the value it says
(`read_toJson`): the pieces of a document take the reader from where a value has to follow to behind that value,
whatever is still open.
-/
namespace Statechart
namespace Doc

mutual

/-- What a document says. -/
def value : Doc → Json
  | .text t => .text t
  | .int i => .int i
  | .flag b => .flag b
  | .list items => .list (itemValues items)
  | .map entries => .map (entryValues entries)

def itemValues : List Doc → List Json
  | [] => []
  | d :: rest => d.value :: itemValues rest

def entryValues : List (Text × Doc) → List (Text × Json)
  | [] => []
  | (key, d) :: rest => (key, d.value) :: entryValues rest

end

end Doc

namespace Json

def entries : Json → Keyed Json
  | .map es => es
  | _ => []

/-- What a value is made of. -/
def parts : Json → List Json
  | .list items => items
  | .map es => es.map Prod.snd
  | _ => []

/-- A property of a value and of all that it is made of, at every depth. -/
inductive Everywhere (P : Json → Prop) : Json → Prop where
  | intro {v : Json} (here : P v) (below : ∀ x ∈ v.parts, Everywhere P x) : Everywhere P v

/-- There is no null at any depth. -/
def NullFree (v : Json) : Prop := Everywhere (fun x => x ≠ .null) v

/-- No mapping names a key twice, at any depth: a reader that keeps one value for a key loses none. -/
def NoRepeats (v : Json) : Prop := Everywhere (fun x => (Keyed.keys x.entries).Nodup) v

mutual

/-- What holds of all that documents say holds of every part of it. -/
theorem everywhere_value {P : Json → Prop} (h : ∀ d : Doc, P d.value) : ∀ d : Doc, Everywhere P d.value
  | .text t => .intro (h (.text t)) nofun
  | .int i => .intro (h (.int i)) nofun
  | .flag b => .intro (h (.flag b)) nofun
  | .list items => .intro (h (.list items)) (everywhere_itemValues h items)
  | .map entries => .intro (h (.map entries)) (everywhere_entryValues h entries)

theorem everywhere_itemValues {P : Json → Prop} (h : ∀ d : Doc, P d.value) :
    ∀ items : List Doc, ∀ v ∈ Doc.itemValues items, Everywhere P v
  | [], _, hv => nomatch hv
  | d :: rest, v, hv => by
    rcases List.mem_cons.1 hv with rfl | hv
    · exact everywhere_value h d
    · exact everywhere_itemValues h rest v hv

theorem everywhere_entryValues {P : Json → Prop} (h : ∀ d : Doc, P d.value) :
    ∀ entries : List (Text × Doc), ∀ v ∈ (Doc.entryValues entries).map Prod.snd, Everywhere P v
  | [], _, hv => nomatch hv
  | (key, d) :: rest, v, hv => by
    rcases List.mem_cons.1 hv with rfl | hv
    · exact everywhere_value h d
    · exact everywhere_entryValues h rest v hv

end

/-- **A document says no null.** -/
theorem nullFree_value (d : Doc) : NullFree d.value := by
  refine everywhere_value (fun d => ?_) d
  cases d <;> simp [Doc.value]

/-! ## Reading the pieces -/

/-- Where a list begins, a document is read as the first item. -/
theorem run_item (frames : List Frame) (d : Doc) (ps : List Piece) :
    run (.item, frames) (d.pieces ++ ps) = run (.value, .list [] :: frames) (d.pieces ++ ps) := by
  cases d <;> rfl

mutual

/-- **The pieces of a document lead behind its value.** -/
theorem run_pieces (frames : List Frame) : ∀ d : Doc, run (.value, frames) d.pieces = some (.behind d.value, frames)
  | .text t => rfl
  | .int i => rfl
  | .flag b => rfl
  | .list [] => rfl
  | .map [] => rfl
  | .list (d :: rest) => by
    rw [Doc.pieces, Doc.itemPieces, Doc.value, Doc.itemValues, List.cons_append, run_cons rfl, List.nil_append,
      List.append_assoc, run_item, run_append (run_pieces (.list [] :: frames) d)]
    exact run_items frames [] d.value rest
  | .map ((key, d) :: rest) => by
    rw [Doc.pieces, Doc.entryPieces, Doc.value, Doc.entryValues, List.cons_append, run_cons rfl, List.nil_append,
      List.append_assoc, List.cons_append, List.cons_append, run_cons rfl, run_cons rfl,
      run_append (run_pieces (.map [] key :: frames) d)]
    exact run_entries frames [] key d.value rest

/-- Behind an item, the others follow up to the end of the list. -/
theorem run_items (frames : List Frame) (before : List Json) (v : Json) : ∀ items : List Doc,
    run (.behind v, .list before :: frames) (Doc.itemPieces [.comma] items ++ [.closeList]) =
      some (.behind (.list (before ++ v :: Doc.itemValues items)), frames)
  | [] => rfl
  | d :: rest => by
    rw [Doc.itemPieces, Doc.itemValues, List.append_assoc, List.append_assoc, List.singleton_append, run_cons rfl,
      run_append (run_pieces (.list (before ++ [v]) :: frames) d), run_items frames (before ++ [v]) d.value rest,
      List.append_assoc, List.singleton_append]

/-- Behind an entry, the others follow up to the end of the mapping. -/
theorem run_entries (frames : List Frame) (before : List (Text × Json)) (key : Text) (v : Json) :
    ∀ entries : List (Text × Doc),
      run (.behind v, .map before key :: frames) (Doc.entryPieces [.comma] entries ++ [.closeMap]) =
        some (.behind (.map (before ++ (key, v) :: Doc.entryValues entries)), frames)
  | [] => rfl
  | (next, d) :: rest => by
    rw [Doc.entryPieces, Doc.entryValues, List.append_assoc, List.append_assoc, List.singleton_append, run_cons rfl,
      List.cons_append, List.cons_append, run_cons rfl, run_cons rfl,
      run_append (run_pieces (.map (before ++ [(key, v)]) next :: frames) d),
      run_entries frames (before ++ [(key, v)]) next d.value rest, List.append_assoc, List.singleton_append]

end

/-- **The text of a document is read as what it says**, in every layout. -/
theorem read_toJson (indent : Int) (d : Doc) : read (d.toJson indent) = some d.value := by
  rw [read, pieces_toJson]
  simp only [Option.bind_eq_bind, Option.bind_some, run_pieces]
  rfl

example : read "[1, -20,\n {}]".toList = some (.list [.int 1, .int (-20), .map []]) := by cbv

example : read "[1,]".toList = none := by cbv

end Json
end Statechart
