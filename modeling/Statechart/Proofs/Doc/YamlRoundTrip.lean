import Statechart.Proofs.Doc.JsonRoundTrip
import Statechart.Proofs.Doc.YamlPieces
/-!
# YamlRoundTrip — a document of words in block style is read back

The pieces of an item or an entry are one tree: the dash, the key or the question mark in front holds all others, and
does not hold what begins the next item or entry.  So the trees of a sequence or a mapping stand side by side, and by
induction over the document each of them says what was written, whoever wrote it (`read_dump`).  That is what the JSON
text says too.
-/
namespace Statechart
namespace Doc

mutual

/-- What the YAML text of a document says. -/
def yaml : Doc → Yaml
  | .text t => .text t
  | .int i => .other .whole (Text.ofInt i)
  | .flag b => .flag b
  | .list items => .list (yamlItems items)
  | .map entries => .map (yamlEntries entries)

def yamlItems : List Doc → List Yaml
  | [] => []
  | d :: rest => d.yaml :: yamlItems rest

def yamlEntries : List (Text × Doc) → List (Text × Yaml)
  | [] => []
  | (key, d) :: rest => (key, d.yaml) :: yamlEntries rest

end

theorem yamlEntries_keys (entries : List (Text × Doc)) : (yamlEntries entries).map Prod.fst = Keyed.keys entries := by
  induction entries with
  | nil => rfl
  | cons e rest ih =>
    rw [yamlEntries, List.map_cons, ih]
    rfl

/-- All texts are words that types leave texts, nothing is empty, and no mapping names a key twice. -/
inductive Worded (types : Yaml.Types) : Doc → Prop where
  | text {t : Text} (ht : Yaml.Keeps types t) : Worded types (.text t)
  | flag {b : Bool} (hb : Yaml.plain types (Yaml.flag b) = .flag b) : Worded types (.flag b)
  | list {items : List Doc} (hne : items ≠ []) (h : ∀ d ∈ items, Worded types d) : Worded types (.list items)
  | map {entries : Keyed Doc} (hne : entries ≠ []) (hkeys : (Keyed.keys entries).Nodup)
    (hwords : ∀ e ∈ entries, Yaml.Keeps types e.1) (h : ∀ e ∈ entries, Worded types e.2) : Worded types (.map entries)

end Doc

namespace Yaml

/-! ## Trees -/

variable {types : Types} {p q : Piece} {ps qs below : List Piece} {column : Nat}

theorem grow_cons (p : Piece) (ps : List Piece) : grow (p :: ps) = plant p (grow ps) := rfl

/-- Each tree begins with one of the pieces, and the first tree with the first. -/
theorem root_mem_of_mem_grow : ∀ {ps : List Piece}, ∀ t ∈ grow ps, t.root ∈ ps
  | p :: ps, t, ht => by
    rw [grow_cons, plant] at ht
    rcases List.mem_cons.1 ht with rfl | ht
    · exact List.mem_cons_self
    · exact List.mem_cons_of_mem p (root_mem_of_mem_grow t (mem_of_mem_dropWhile ht))

theorem head?_grow (ps : List Piece) : (grow ps).head?.map Tree.root = ps.head? := by
  cases ps <;> rfl

/-- A piece that holds all that follows is the root of one tree. -/
theorem grow_of_holds (h : ∀ q ∈ ps, p.holds q = true) : grow (p :: ps) = [.node p (grow ps)] := by
  have hall : ∀ t ∈ grow ps, p.holds t.root = true := fun t ht => h _ (root_mem_of_mem_grow t ht)
  have htake := takeWhile_eq_of_all (t := []) nofun hall
  have hdrop := dropWhile_eq_of_all (t := []) nofun hall
  rw [List.append_nil] at htake hdrop
  rw [grow_cons, plant, htake, hdrop]

/-- Where nothing is held by anything in front, the trees stand side by side. -/
theorem grow_append : ∀ {ps : List Piece}, (∀ p ∈ ps, ∀ q ∈ qs.head?, p.holds q = false) →
    grow (ps ++ qs) = grow ps ++ grow qs
  | [], _ => rfl
  | p :: ps, h => by
    have hhead : ∀ t ∈ (grow qs).head?, p.holds t.root = false := by
      intro t ht
      refine h p List.mem_cons_self t.root ?_
      rw [← head?_grow, Option.mem_def.1 ht]
      rfl
    rw [List.cons_append, grow_cons, grow_append fun p hp => h p (List.mem_cons_of_mem _ hp), grow_cons, plant, plant,
      takeWhile_append_of_head hhead, dropWhile_append_of_head hhead]
    rfl

/-- What a mark holds in its own column holds nothing there. -/
theorem Mark.holds_of_holds {m n : Mark} (h : m.holds n = true) (o : Mark) : n.holds o = false := by
  cases m <;> cases n <;> cases h <;> rfl

theorem Piece.holds_iff :
    p.holds q = true ↔ p.column < q.column ∨ p.column = q.column ∧ p.mark.holds q.mark = true := by
  simp [Piece.holds]

/-- **An item or an entry is one tree**, in front of the trees of those that follow. -/
theorem grow_block (hbelow : ∀ q ∈ below, p.holds q = true)
    (hrest : ∀ q ∈ qs.head?, q.column = p.column ∧ p.mark.holds q.mark = false) :
    grow (p :: (below ++ qs)) = .node p (grow below) :: grow qs := by
  have hnot : ∀ x ∈ p :: below, ∀ q ∈ qs.head?, x.holds q = false := by
    intro x hx q hq
    obtain ⟨hcolumn, hmark⟩ := hrest q hq
    -- a piece below `p` is deeper, or stands in the column of `p` and holds nothing there
    by_contra hholds
    rw [Bool.not_eq_false, Piece.holds_iff] at hholds
    rcases List.mem_cons.1 hx with rfl | hx
    · rcases hholds with hlt | ⟨-, hholds⟩
      · omega
      · rw [hmark] at hholds
        cases hholds
    · rcases Piece.holds_iff.1 (hbelow x hx) with hlt | ⟨heq, hheld⟩
      · omega
      · rcases hholds with hlt | ⟨-, hholds⟩
        · omega
        · rw [Mark.holds_of_holds hheld] at hholds
          cases hholds
  have hblock := grow_append hnot
  rw [grow_of_holds hbelow, List.cons_append] at hblock
  exact hblock

theorem value?_items {t : Tree} {ts : List Tree} {vs : List Yaml} (hcolumn : t.root.column = column)
    (hmark : t.root.mark = .dash) (h : items? column (t :: ts) = some vs) : value? (t :: ts) = some (.list vs) := by
  rw [items?] at h
  rw [value?, hmark, hcolumn]
  simp only [Option.bind_eq_bind, Option.bind_eq_some_iff, Option.pure_def, Option.some.injEq] at h
  obtain ⟨v, hv, others, hothers, rfl⟩ := h
  simp [hv, hothers]

def Mark.beginsItem : Mark → Bool
  | .dash => true
  | _ => false

def Mark.beginsEntry : Mark → Bool
  | .key _ => true
  | .ask => true
  | _ => false

theorem Mark.eq_dash_of_beginsItem {m : Mark} (h : m.beginsItem = true) : m = .dash := by
  cases m <;> cases h
  rfl

/-- A dash holds no mark in its own column. -/
theorem Mark.holds_of_beginsItem (m n : Mark) (hm : m.beginsItem = true) (_ : n.beginsItem = true) :
    m.holds n = false := by
  rw [Mark.eq_dash_of_beginsItem hm]
  rfl

/-- A key only holds dashes in its own column, and a question mark only a colon. -/
theorem Mark.holds_of_beginsEntry (m n : Mark) (hm : m.beginsEntry = true) (hn : n.beginsEntry = true) :
    m.holds n = false := by
  cases n with
  | key _ => cases m <;> rfl
  | ask => cases m <;> rfl
  | dash => cases hn
  | colon => cases hn
  | scalar _ => cases hn

theorem value?_entries {t : Tree} {ts : List Tree} {es : List (Text × Yaml)} (hcolumn : t.root.column = column)
    (hmark : t.root.mark.beginsEntry = true) (h : entries? column (t :: ts) = some es)
    (hkeys : (es.map Prod.fst).Nodup) : value? (t :: ts) = some (.map es) := by
  rw [entries?] at h
  simp only [Option.bind_eq_bind, Option.bind_eq_some_iff, Option.pure_def, Option.some.injEq] at h
  obtain ⟨e, he, others, hothers, rfl⟩ := h
  have hentries : (do ofEntries ((← entryOf? column t) :: (← entries? column ts))) = some (.map (e :: others)) := by
    simp only [he, hothers, Option.bind_eq_bind, Option.bind_some, ofEntries, if_pos hkeys]
  rw [value?, hcolumn]
  cases hm : t.root.mark with
  | key k => exact hentries
  | ask => exact hentries
  | dash => rw [hm] at hmark; cases hmark
  | colon => rw [hm] at hmark; cases hmark
  | scalar v => rw [hm] at hmark; cases hmark

/-! ## Lines one below the other -/

open Doc.Yaml (newLine stacked)

/-- A text at a column whose pieces are one tree there. -/
inductive Block (types : Types) (begins : Mark → Bool) (column : Nat) : Text → Tree → Prop where
  | intro {t : Text} {p : Piece} {below : List Piece} (hcolumn : p.column = column) (hbegins : begins p.mark = true)
    (hbelow : ∀ q ∈ below, p.holds q = true) (hpieces : piecesFrom? types column t = some (p :: below)) :
    Block types begins column t (.node p (grow below))

theorem Block.root {begins : Mark → Bool} {t : Text} {tree : Tree} (h : Block types begins column t tree) :
    tree.root.column = column ∧ begins tree.root.mark = true := by
  obtain ⟨hcolumn, hbegins, -, -⟩ := h
  exact ⟨hcolumn, hbegins⟩

/-- **Texts in one column are trees side by side**, if no mark that begins one holds another. -/
theorem exists_grow_stacked {begins : Mark → Bool}
    (hapart : ∀ m n, begins m = true → begins n = true → m.holds n = false) :
    ∀ {texts : List Text} {trees : List Tree}, List.Forall₂ (Block types begins column) texts trees → texts ≠ [] →
      ∃ ps, piecesFrom? types column (stacked column texts) = some ps ∧ grow ps = trees ∧
        ∀ q ∈ ps, column < q.column ∨ q.column = column ∧ ∃ m, begins m = true ∧ (q.mark = m ∨ m.holds q.mark = true)
  | _, _, .nil, hne => absurd rfl hne
  | t :: texts, _ :: trees, .cons (@Block.intro _ _ _ _ p below hcolumn hbegins hbelow hpieces) hrest, _ => by
    have hplace : ∀ q ∈ p :: below, column < q.column ∨
        q.column = column ∧ ∃ m, begins m = true ∧ (q.mark = m ∨ m.holds q.mark = true) := by
      intro q hq
      rcases List.mem_cons.1 hq with rfl | hq
      · exact .inr ⟨hcolumn, q.mark, hbegins, .inl rfl⟩
      · rcases Piece.holds_iff.1 (hbelow q hq) with hlt | ⟨heq, hheld⟩
        · exact .inl (hcolumn ▸ hlt)
        · exact .inr ⟨heq ▸ hcolumn, p.mark, hbegins, .inr hheld⟩
    cases hrest with
    | nil =>
      refine ⟨p :: below, ?_, grow_of_holds hbelow, hplace⟩
      rw [stacked, Text.join, List.intercalate_singleton]
      exact hpieces
    | @cons t' tree texts trees hblock hothers =>
      obtain ⟨ps, hps, hgrow, hcolumns⟩ := exists_grow_stacked hapart (.cons hblock hothers) (List.cons_ne_nil t' texts)
      refine ⟨p :: (below ++ ps), ?_, ?_, ?_⟩
      · rw [stacked, Text.join, List.intercalate_cons_cons, List.append_assoc]
        exact piecesFrom?_newLine hpieces hps
      · rw [← hgrow]
        refine grow_block hbelow fun q hq => ?_
        have hroot : q = tree.root := by
          have h := head?_grow ps
          rw [hgrow, Option.mem_def.1 hq] at h
          exact (Option.some.inj h).symm
        obtain ⟨hq, hmark⟩ := hblock.root
        rw [hroot, hq, hcolumn]
        exact ⟨rfl, hapart _ _ hbegins hmark⟩
      · intro q hq
        rw [← List.cons_append] at hq
        exact (List.mem_append.1 hq).elim (hplace q) (hcolumns q)

/-! ## Documents -/

/-- A document is read behind a dash or a lone colon, and behind the colon of a key. -/
structure ReadBack (types : Types) (d : Doc) : Prop where
  behindMark {column : Nat} {t : Text} (h : BehindMark column d t) : ∃ u ps, t = ' ' :: u ∧
    piecesFrom? types (column + 2) u = some ps ∧ (∀ p ∈ ps, column < p.column) ∧ value? (grow ps) = some d.yaml
  behindKey {column : Nat} {key k t : Text} (hkey : Scalar key k) (hword : Keeps types key)
    (hshort : k.length < keyLimit) (h : BehindKey column d t) :
    ∃ ps, piecesFrom? types column (k ++ ':' :: t) = some (⟨column, .key key⟩ :: ps) ∧
      (∀ p ∈ ps, Piece.holds ⟨column, .key key⟩ p = true) ∧ value? (grow ps) = some d.yaml

theorem piecesFrom?_written {t : Text} {v : Yaml} (h : Written types t v) (column : Nat) :
    piecesFrom? types (column + 2) t = some [⟨column + 2, .scalar v⟩] := by
  rw [piecesFrom?_of_inline h.inline, linePieces?_written h (by omega)]

section

variable {key k : Text} (hkey : Scalar key k) (hword : Keeps types key) (hshort : k.length < keyLimit)
include hkey hword hshort

/-- A key and a scalar behind its colon. -/
theorem piecesFrom?_keyWritten {s : Text} {v : Yaml} (h : Written types s v) :
    piecesFrom? types column (k ++ ':' :: ' ' :: s) =
      some [⟨column, .key key⟩, ⟨column + (k.length + 1) + 1, .scalar v⟩] := by
  have hinline : '\n' ∉ k ++ ':' :: ' ' :: s := by
    simp only [List.mem_append, List.mem_cons, not_or]
    exact ⟨hkey.not_mem hword.isWord (by decide) (by decide), by decide, by decide, h.inline⟩
  have hgap : isGap (' ' :: s) = true := rfl
  rw [piecesFrom?_of_inline hinline, hkey.linePieces?_key hword hshort column hgap, valuePieces?, if_pos rfl,
    valuePieces?_written h]
  rfl

/-- A key with nothing behind its colon on the line, and the lines below it. -/
theorem piecesFrom?_keyLine {indent : Nat} {t : Text} {ps : List Piece} (h : piecesFrom? types indent t = some ps) :
    piecesFrom? types column (k ++ ':' :: (newLine indent ++ t)) = some (⟨column, .key key⟩ :: ps) := by
  have hinline : '\n' ∉ k ++ [':'] := by
    simp only [List.mem_append, List.mem_singleton, not_or]
    exact ⟨hkey.not_mem hword.isWord (by decide) (by decide), by decide⟩
  have hgap : isGap [] = true := rfl
  have hline : piecesFrom? types column (k ++ [':']) = some [⟨column, .key key⟩] := by
    rw [piecesFrom?_of_inline hinline, hkey.linePieces?_key hword hshort column hgap]
    rfl
  have hpieces := piecesFrom?_newLine hline h
  rwa [List.append_assoc] at hpieces

end

/-- What is a scalar on its line is read back. -/
theorem readBack_of_written {d : Doc} (hlines : ∀ {column : Nat} {t : Text}, ¬Lines column d t)
    (hleaf : ∀ {s : Text}, Leaf d s → Written types s d.yaml) : ReadBack types d where
  behindMark {column _} h := by
    cases h with
    | lines h => exact absurd h hlines
    | leaf h =>
      refine ⟨_, _, rfl, piecesFrom?_written (hleaf h) column, ?_, rfl⟩
      intro p hp
      rw [List.mem_singleton.1 hp]
      show column < column + 2
      omega
  behindKey {column _ k _} hkey hword hshort h := by
    cases h with
    | deeper _ h => exact absurd h hlines
    | leaf h =>
      refine ⟨_, piecesFrom?_keyWritten hkey hword hshort (hleaf h), ?_, rfl⟩
      intro p hp
      rw [List.mem_singleton.1 hp, Piece.holds_iff]
      left
      show column < column + (k.length + 1) + 1
      omega

/-- A dash and what stands behind it. -/
theorem exists_item {d : Doc} (h : ReadBack types d) {t : Text} (ht : BehindMark column d t) :
    ∃ tree, Block types Mark.beginsItem column ('-' :: t) tree ∧ item? column tree = some d.yaml := by
  obtain ⟨u, ps, rfl, hpieces, hbelow, hvalue⟩ := h.behindMark ht
  have hmark : piecesFrom? types column ('-' :: ' ' :: u) = some (⟨column, .dash⟩ :: ps) := by
    rw [piecesFrom?_mark (fun _ => rfl) (by decide), hpieces]
    rfl
  refine ⟨_, .intro rfl rfl (fun q hq => Piece.holds_iff.2 (.inl (hbelow q hq))) hmark, ?_⟩
  rw [item?, if_pos rfl, hvalue]

theorem exists_items : ∀ {items : List Doc} {ts : List Text}, (∀ d ∈ items, ReadBack types d) → Items column items ts →
    ∃ trees, List.Forall₂ (Block types Mark.beginsItem column) ts trees ∧
      items? column trees = some (Doc.yamlItems items)
  | [], _, _, .nil => ⟨[], .nil, rfl⟩
  | d :: items, _, h, .cons ht hrest => by
    obtain ⟨tree, hblock, hitem⟩ := exists_item (h d List.mem_cons_self) ht
    obtain ⟨trees, hblocks, hitems⟩ := exists_items (fun x hx => h x (List.mem_cons_of_mem d hx)) hrest
    refine ⟨tree :: trees, .cons hblock hblocks, ?_⟩
    rw [items?, hitem, hitems]
    rfl

/-- A key before its colon and what it holds. -/
theorem exists_simpleEntry {key k t : Text} {d : Doc} (hkey : Scalar key k) (hword : Keeps types key)
    (hshort : k.length < keyLimit) (h : ReadBack types d) (ht : BehindKey column d t) :
    ∃ tree, Block types Mark.beginsEntry column (k ++ ':' :: t) tree ∧ entryOf? column tree = some (key, d.yaml) := by
  obtain ⟨ps, hpieces, hholds, hvalue⟩ := h.behindKey hkey hword hshort ht
  refine ⟨_, .intro rfl rfl hholds hpieces, ?_⟩
  rw [entryOf?, if_pos rfl, hvalue]
  rfl

/-- A key behind a question mark, and what its colon holds: the question mark holds both. -/
theorem exists_askedEntry {key k t : Text} {d : Doc} (hkey : Scalar key k) (hword : Keeps types key)
    (h : ReadBack types d) (ht : BehindMark column d t) :
    ∃ tree, Block types Mark.beginsEntry column ('?' :: ' ' :: (k ++ (newLine column ++ ':' :: t))) tree ∧
      entryOf? column tree = some (key, d.yaml) := by
  obtain ⟨u, ps, rfl, hpieces, hbelow, hvalue⟩ := h.behindMark ht
  have hask : piecesFrom? types column ('?' :: ' ' :: k) =
      some [⟨column, .ask⟩, ⟨column + 2, .scalar (.text key)⟩] := by
    rw [piecesFrom?_mark (fun _ => rfl) (by decide), piecesFrom?_written (hkey.written hword)]
    rfl
  have hcolon : piecesFrom? types column (':' :: ' ' :: u) = some (⟨column, .colon⟩ :: ps) := by
    rw [piecesFrom?_mark (fun _ => rfl) (by decide), hpieces]
    rfl
  have hdeeper : ∀ q ∈ ps, Piece.holds ⟨column, .colon⟩ q = true := fun q hq => Piece.holds_iff.2 (.inl (hbelow q hq))
  -- the key is deeper than the colon, so they are two trees below the question mark
  have hgrow : grow (⟨column + 2, .scalar (.text key)⟩ :: ⟨column, .colon⟩ :: ps) =
      [.node ⟨column + 2, .scalar (.text key)⟩ [], .node ⟨column, .colon⟩ (grow ps)] := by
    have hapart : ∀ p ∈ [⟨column + 2, .scalar (.text key)⟩], ∀ q ∈ (⟨column, .colon⟩ :: ps).head?,
        Piece.holds p q = false := by
      intro p hp q hq
      rw [List.mem_singleton.1 hp, ← Option.some.inj hq]
      simp [Piece.holds, Mark.holds]
    have happend := grow_append hapart
    rw [grow_of_holds hdeeper] at happend
    exact happend
  have hall : ∀ q ∈ [⟨column + 2, .scalar (.text key)⟩] ++ ⟨column, .colon⟩ :: ps,
      Piece.holds ⟨column, .ask⟩ q = true := by
    intro q hq
    rw [Piece.holds_iff]
    rcases List.mem_append.1 hq with hq | hq
    · rw [List.mem_singleton.1 hq]
      exact .inl (Nat.lt_add_of_pos_right (by omega))
    · rcases List.mem_cons.1 hq with rfl | hq
      · exact .inr ⟨rfl, rfl⟩
      · exact .inl (hbelow q hq)
  refine ⟨_, .intro rfl rfl hall (piecesFrom?_newLine hask hcolon), ?_⟩
  rw [List.singleton_append, hgrow, entryOf?, if_pos ⟨rfl, rfl⟩, hvalue]
  rfl

theorem exists_entries : ∀ {entries : List (Text × Doc)} {ts : List Text}, (∀ e ∈ entries, Keeps types e.1) →
    (∀ e ∈ entries, ReadBack types e.2) → Entries column entries ts →
    ∃ trees, List.Forall₂ (Block types Mark.beginsEntry column) ts trees ∧
      entries? column trees = some (Doc.yamlEntries entries)
  | [], _, _, _, .nil => ⟨[], .nil, rfl⟩
  | (key, d) :: entries, t :: ts, hwords, h, hentries => by
    have hword := hwords (key, d) List.mem_cons_self
    have hread := h (key, d) List.mem_cons_self
    obtain ⟨hrest, tree, hblock, hentry⟩ : Entries column entries ts ∧
        ∃ tree, Block types Mark.beginsEntry column t tree ∧ entryOf? column tree = some (key, d.yaml) := by
      cases hentries with
      | simple hkey hshort ht hrest =>
        exact ⟨hrest, exists_simpleEntry hkey hword (hshort hword.isWord) hread ht⟩
      | asked hkey ht hrest => exact ⟨hrest, exists_askedEntry hkey hword hread ht⟩
    obtain ⟨trees, hblocks, hothers⟩ := exists_entries (fun e he => hwords e (List.mem_cons_of_mem _ he))
      (fun e he => h e (List.mem_cons_of_mem _ he)) hrest
    refine ⟨tree :: trees, .cons hblock hblocks, ?_⟩
    rw [entries?, hentry, hothers]
    rfl

theorem exists_sequence {items : List Doc} (h : ∀ d ∈ items, ReadBack types d) {t : Text}
    (ht : Lines column (.list items) t) :
    ∃ ps, piecesFrom? types column t = some ps ∧ (∀ q ∈ ps, column < q.column ∨ q.column = column ∧ q.mark = .dash) ∧
      value? (grow ps) = some (Doc.yaml (.list items)) := by
  obtain ⟨hne, hts⟩ | _ := ht
  obtain ⟨trees, hblocks, hitems⟩ := exists_items h hts
  obtain ⟨ps, hpieces, hgrow, hplace⟩ := exists_grow_stacked Mark.holds_of_beginsItem hblocks (hts.ne_nil hne)
  refine ⟨ps, hpieces, fun q hq => ?_, ?_⟩
  · rcases hplace q hq with hlt | ⟨hcolumn, m, hm, hmark⟩
    · exact .inl hlt
    · obtain rfl := Mark.eq_dash_of_beginsItem hm
      rcases hmark with hmark | hmark
      · exact .inr ⟨hcolumn, hmark⟩
      · cases hmark
  · rw [hgrow]
    cases hblocks with
    | nil => exact absurd rfl (hts.ne_nil hne)
    | cons hblock hothers =>
      obtain ⟨hcolumn, hmark⟩ := hblock.root
      exact value?_items hcolumn (Mark.eq_dash_of_beginsItem hmark) hitems

theorem exists_mapping {entries : Keyed Doc} (hkeys : (Keyed.keys entries).Nodup)
    (hwords : ∀ e ∈ entries, Keeps types e.1) (h : ∀ e ∈ entries, ReadBack types e.2) {t : Text}
    (ht : Lines column (.map entries) t) :
    ∃ ps, piecesFrom? types column t = some ps ∧ (∀ q ∈ ps, column ≤ q.column) ∧
      value? (grow ps) = some (Doc.yaml (.map entries)) := by
  obtain _ | ⟨hne, hts⟩ := ht
  obtain ⟨trees, hblocks, hentries⟩ := exists_entries hwords h hts
  obtain ⟨ps, hpieces, hgrow, hplace⟩ := exists_grow_stacked Mark.holds_of_beginsEntry hblocks (hts.ne_nil hne)
  refine ⟨ps, hpieces, fun q hq => (hplace q hq).elim le_of_lt fun hq => hq.1.ge, ?_⟩
  rw [hgrow]
  cases hblocks with
  | nil => exact absurd rfl (hts.ne_nil hne)
  | cons hblock hothers =>
    obtain ⟨hcolumn, hmark⟩ := hblock.root
    exact value?_entries hcolumn hmark hentries (by rwa [Doc.yamlEntries_keys])

/-- What has lines and no other form is read back, if its lines are read at any column and none of its pieces stands
before them; in the column of a key only dashes do. -/
theorem readBack_of_lines {d : Doc} (hleaf : ∀ {s : Text}, ¬Leaf d s)
    (hlines : ∀ {column : Nat} {t : Text}, Lines column d t → ∃ ps, piecesFrom? types column t = some ps ∧
      (∀ q ∈ ps, column ≤ q.column) ∧ ((∃ items, d = .list items) → ∀ q ∈ ps, column < q.column ∨ q.mark = .dash) ∧
      value? (grow ps) = some d.yaml) : ReadBack types d where
  behindMark {column _} h := by
    cases h with
    | leaf h => exact absurd h hleaf
    | @lines _ gap _ u h =>
      obtain ⟨ps, hpieces, hplace, -, hvalue⟩ := hlines h
      refine ⟨_, ps, rfl, ?_, fun q hq => ?_, hvalue⟩
      · rw [piecesFrom?_blanks, hpieces]
      · have hq := hplace q hq
        omega
  behindKey {column key k _} hkey hword hshort h := by
    cases h with
    | leaf h => exact absurd h hleaf
    | @deeper _ indent _ u hplaced h =>
      obtain ⟨ps, hpieces, hplace, hdash, hvalue⟩ := hlines h
      refine ⟨ps, piecesFrom?_keyLine hkey hword hshort hpieces, fun q hq => Piece.holds_iff.2 ?_, hvalue⟩
      have hle := hplace q hq
      show column < q.column ∨ column = q.column ∧ (Mark.key key).holds q.mark = true
      rcases hplaced with hlt | ⟨rfl, hlist⟩
      · exact .inl (Nat.lt_of_lt_of_le hlt hle)
      · rcases hdash hlist q hq with hlt | hmark
        · exact .inl hlt
        · rw [hmark]
          exact (Nat.lt_or_eq_of_le hle).imp id fun heq => ⟨heq, rfl⟩

/-- **A document of words is read back** wherever it stands. -/
theorem readBack_of_worded {d : Doc} (h : d.Worded types) : ReadBack types d := by
  induction h with
  | text ht =>
    refine readBack_of_written nofun fun h => ?_
    cases h with
    | text h => exact h.written ht
  | flag hb =>
    refine readBack_of_written nofun fun h => ?_
    cases h
    exact written_flag hb
  | list hne _ ih =>
    refine readBack_of_lines (fun h => by cases h; exact hne rfl) fun ht => ?_
    obtain ⟨ps, hpieces, hplace, hvalue⟩ := exists_sequence ih ht
    refine ⟨ps, hpieces, fun q hq => ?_, fun _ q hq => (hplace q hq).imp id And.right, hvalue⟩
    exact (hplace q hq).elim le_of_lt fun h => h.1.ge
  | map hne hkeys hwords _ ih =>
    refine readBack_of_lines (fun h => by cases h; exact hne rfl) fun ht => ?_
    obtain ⟨ps, hpieces, hplace, hvalue⟩ := exists_mapping hkeys hwords ih ht
    exact ⟨ps, hpieces, hplace, nofun, hvalue⟩

/-- **What a writer of block style makes of a mapping of words is read as what it says**, for every indentation. -/
theorem read_dump {dump : Int → Doc → Text} (hdump : InBlocks dump) (indent : Int) {entries : Keyed Doc}
    (h : (Doc.map entries).Worded types) : read types (dump indent (.map entries)) = some (Doc.map entries).yaml := by
  cases h with
  | map hne hkeys hwords hworded =>
    obtain ⟨t, hlines, ht⟩ := hdump indent entries hne
    obtain ⟨ps, hpieces, -, hvalue⟩ :=
      exists_mapping hkeys hwords (fun e he => readBack_of_worded (hworded e he)) hlines
    have hend : piecesFrom? types 0 [] = some [] := rfl
    have hall := piecesFrom?_newLine hpieces hend
    rw [List.append_nil, List.append_nil] at hall
    rw [ht]
    show (do value? (grow (← piecesFrom? types 0 (t ++ newLine 0)))) = _
    rw [hall]
    exact hvalue

/-! ## The same in JSON -/

mutual

/-- The same value in JSON, if there are only texts and truth values in it. -/
def json? : Yaml → Option Json
  | .text t => some (.text t)
  | .flag b => some (.flag b)
  | .other _ _ => none
  | .list items => (jsonItems? items).map .list
  | .map entries => (jsonEntries? entries).map .map

def jsonItems? : List Yaml → Option (List Json)
  | [] => some []
  | v :: rest => do return (← json? v) :: (← jsonItems? rest)

def jsonEntries? : List (Text × Yaml) → Option (List (Text × Json))
  | [] => some []
  | (key, v) :: rest => do return (key, ← json? v) :: (← jsonEntries? rest)

end

theorem jsonItems?_yamlItems : ∀ {items : List Doc}, (∀ d ∈ items, d.yaml.json? = some d.value) →
    jsonItems? (Doc.yamlItems items) = some (Doc.itemValues items)
  | [], _ => rfl
  | d :: rest, h => by
    rw [Doc.yamlItems, jsonItems?, h d List.mem_cons_self,
      jsonItems?_yamlItems fun x hx => h x (List.mem_cons_of_mem d hx)]
    rfl

theorem jsonEntries?_yamlEntries : ∀ {entries : List (Text × Doc)}, (∀ e ∈ entries, e.2.yaml.json? = some e.2.value) →
    jsonEntries? (Doc.yamlEntries entries) = some (Doc.entryValues entries)
  | [], _ => rfl
  | (key, d) :: rest, h => by
    have hd : d.yaml.json? = some d.value := h (key, d) List.mem_cons_self
    rw [Doc.yamlEntries, jsonEntries?, hd, jsonEntries?_yamlEntries fun x hx => h x (List.mem_cons_of_mem _ hx)]
    rfl

/-- **Both forms of a document of words say the same.** -/
theorem json?_yaml {d : Doc} (h : d.Worded types) : d.yaml.json? = some d.value := by
  induction h with
  | text ht => rfl
  | flag b => rfl
  | list _ _ ih =>
    rw [Doc.yaml, json?, jsonItems?_yamlItems ih]
    rfl
  | map _ _ _ _ ih =>
    rw [Doc.yaml, json?, jsonEntries?_yamlEntries ih]
    rfl

end Yaml
end Statechart
