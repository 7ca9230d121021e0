import Statechart.Command.Run
/-!
# Traceless — what a run leaves behind

A run can stop at any of its steps: the command line, the settings, the level, the format, the source, the layout, the
grammar, the place of the output.  Whichever it is, and whether it is put into words or a breakdown, nothing is printed
but records and messages and the disk stays as it was.  Only the last step can break off halfway, when the file or
standard output does not take all that it is given: then what was taken stays.  No run changes a file but the one that
it was asked to write.  It succeeds exactly when it has met its request (`run_leaves`): the chart is printed, or kept in
that file.
-/
namespace Statechart

/-- The path under which a request keeps its chart. -/
def Request.output : Request → Option Path
  | parse _ r => r.output
  | _ => none

namespace Run

/-- The last step of a run broke off: what was to be printed, to be kept in a file, or to be said of the file was not
taken as a whole. -/
inductive Interrupted (w : World) (output : Option Path) (r : Run) : Prop where
  | printing {text : Text} (hshort : w.shown text ≠ text) (hout : r.out = w.shown text) (hwritten : r.written = none)
  | writing {path : Path} {place : Place} {bytes : ByteArray} (hpath : path ∈ output)
    (htarget : w.disk.target path = .ok place) (hshort : w.taken place bytes ≠ bytes) (hout : r.out = [])
    (hwritten : r.written = some (place, w.taken place bytes))
  | naming {path : Path} {place : Place} {bytes : ByteArray} {text : Text} (hpath : path ∈ output)
    (htarget : w.disk.target path = .ok place) (htaken : w.taken place bytes = bytes) (hshort : w.shown text ≠ text)
    (hout : r.out = w.shown text) (hwritten : r.written = some (place, bytes))

/-- What a run leaves behind: nothing if it failed and was not interrupted, and at most the file that its output
names. -/
structure Leaves (w : World) (output : Option Path) (r : Run) : Prop where
  failed : r.code ≠ 0 → r.out = [] ∧ r.diskAfter w.disk = w.disk ∨ r.Interrupted w output
  broken : r.breakdown ≠ none → r.code ≠ 0
  elsewhere : ∀ place, (r.diskAfter w.disk).look place ≠ w.disk.look place →
    ∃ path ∈ output, w.disk.target path = .ok place

variable {tools : Tools} {w : World} {output : Option Path} {path : Path} {place : Place}

/-! ## Printing and keeping -/

theorem printing_of_shown {text : Text} (r : Run) (h : w.shown text = text) :
    printing w r text = { r with out := text } := if_pos h

theorem printing_of_short {text : Text} (r : Run) (h : w.shown text ≠ text) :
    printing w r text = { r with code := 1, out := w.shown text, breakdown := some .unshown } := if_neg h

theorem written_printing (r : Run) (text : Text) : (printing w r text).written = r.written := by
  unfold printing
  split <;> rfl

theorem code_printing_iff {r : Run} (hcode : r.code = 0) (text : Text) :
    (printing w r text).code = 0 ↔ w.shown text = text := by
  by_cases h : w.shown text = text
  · rw [printing_of_shown r h]
    exact iff_of_true hcode h
  · rw [printing_of_short r h]
    exact iff_of_false Nat.one_ne_zero h

/-- **Printing succeeds when the text has been printed.** -/
theorem printing_iff {r : Run} (hcode : r.code = 0) (text : Text) :
    (printing w r text).code = 0 ↔ (printing w r text).out = text := by
  rw [code_printing_iff hcode]
  by_cases h : w.shown text = text
  · rw [printing_of_shown r h]
    exact iff_of_true h rfl
  · rw [printing_of_short r h]

theorem look_of_written {r : Run} {bytes : ByteArray} (h : r.written = some (place, bytes)) :
    (r.diskAfter w.disk).look place = some (.file bytes) := by
  rw [diskAfter, h]
  exact w.disk.look_put place bytes

section

variable (records : Text) (root : Node) (content : Text)

theorem keep_of_taken (h : w.taken place (Text.encode (closed content)) = Text.encode (closed content)) :
    keep w path place records root content =
      printing w { err := records, written := some (place, Text.encode (closed content)) } (notice root path) := by
  simp only [keep, h, if_true]

theorem keep_of_short (h : w.taken place (Text.encode (closed content)) ≠ Text.encode (closed content)) :
    keep w path place records root content =
      { code := 1, err := records, breakdown := some (.output path .full),
        written := some (place, w.taken place (Text.encode (closed content))) } :=
  if_neg fun hsame => h (ByteArray.ext hsame)

/-- **A chart that is kept leaves in its file what the file takes.** -/
theorem written_keep :
    (keep w path place records root content).written = some (place, w.taken place (Text.encode (closed content))) := by
  by_cases h : w.taken place (Text.encode (closed content)) = Text.encode (closed content)
  · rw [keep_of_taken _ _ _ h, written_printing, h]
  · rw [keep_of_short _ _ _ h]

theorem code_keep_iff :
    (keep w path place records root content).code = 0 ↔
      w.taken place (Text.encode (closed content)) = Text.encode (closed content) ∧
        w.shown (notice root path) = notice root path := by
  by_cases h : w.taken place (Text.encode (closed content)) = Text.encode (closed content)
  · rw [keep_of_taken _ _ _ h, code_printing_iff rfl]
    exact (and_iff_right h).symm
  · rw [keep_of_short _ _ _ h]
    exact iff_of_false Nat.one_ne_zero fun hboth => h hboth.1

end

/-! ## What is left behind -/

theorem stopped_leaves (records : Text) : ∀ s : Stop, (stopped records s).Leaves w output
  | .told _ => ⟨fun _ => .inl ⟨rfl, rfl⟩, fun h => absurd rfl h, fun _ h => absurd rfl h⟩
  | .broken _ => ⟨fun _ => .inl ⟨rfl, rfl⟩, fun _ => Nat.one_ne_zero, fun _ h => absurd rfl h⟩

/-- A run that only prints. -/
theorem printing_leaves (records text : Text) : (printing w { err := records } text).Leaves w output := by
  by_cases h : w.shown text = text
  · rw [printing_of_shown _ h]
    exact ⟨fun hcode => absurd rfl hcode, fun hbroken => absurd rfl hbroken, fun _ hother => absurd rfl hother⟩
  · rw [printing_of_short _ h]
    exact ⟨fun _ => .inr (.printing h rfl rfl), fun _ => Nat.one_ne_zero, fun _ hother => absurd rfl hother⟩

/-- Writing where an output can be written changes no other place. -/
theorem elsewhere_of_written {r : Run} {bytes : ByteArray} (hwritten : r.written = some (place, bytes))
    (htarget : w.disk.target path = .ok place) (other : Place)
    (hother : (r.diskAfter w.disk).look other ≠ w.disk.look other) :
    ∃ p ∈ some path, w.disk.target p = .ok other := by
  by_cases heq : other = place
  · exact ⟨path, rfl, heq ▸ htarget⟩
  · rw [diskAfter, hwritten] at hother
    exact absurd (w.disk.look_put_of_ne bytes heq) hother

/-- A run that keeps its chart in an open file: the file takes it and is named, or one of the two breaks off. -/
theorem keep_leaves (htarget : w.disk.target path = .ok place) (records : Text) (root : Node) (content : Text) :
    (keep w path place records root content).Leaves w (some path) := by
  by_cases htaken : w.taken place (Text.encode (closed content)) = Text.encode (closed content)
  · rw [keep_of_taken _ _ _ htaken]
    by_cases hshown : w.shown (notice root path) = notice root path
    · rw [printing_of_shown _ hshown]
      exact ⟨fun hcode => absurd rfl hcode, fun hbroken => absurd rfl hbroken, elsewhere_of_written rfl htarget⟩
    · rw [printing_of_short _ hshown]
      exact ⟨fun _ => .inr (.naming rfl htarget htaken hshown rfl rfl), fun _ => Nat.one_ne_zero,
        elsewhere_of_written rfl htarget⟩
  · rw [keep_of_short _ _ _ htaken]
    exact ⟨fun _ => .inr (.writing rfl htarget htaken rfl rfl), fun _ => Nat.one_ne_zero,
      elsewhere_of_written rfl htarget⟩

theorem deliver_leaves (records : Text) (root : Node) (content : Text) :
    (deliver w output records root content).Leaves w output := by
  unfold deliver
  cases output with
  | none => exact printing_leaves _ _
  | some path =>
    cases htarget : w.disk.target path with
    | error f => simpa only [htarget] using stopped_leaves _ _
    | ok place => simpa only [htarget] using keep_leaves htarget _ _ _

/-- Once its first steps are done, a command stops at the layout, at the grammar, or at its output. -/
theorem compile_leaves (r : ParseRequest) (j : Job) : (compile tools w r j).Leaves w r.output := by
  unfold compile
  split
  case h_1 => exact stopped_leaves _ _
  case h_2 => exact stopped_leaves _ _
  case h_3 => exact stopped_leaves _ _
  case h_4 => exact deliver_leaves _ _ _

theorem parse_leaves (level : Option Text) (r : ParseRequest) : (parse tools w level r).Leaves w r.output := by
  unfold parse
  cases job w.disk level r with
  | error s => exact stopped_leaves _ _
  | ok j => exact compile_leaves r j

theorem tokens_leaves (level : Option Text) (r : TokensRequest) : (tokens w level r).Leaves w none := by
  unfold tokens
  cases listing w.disk level r with
  | error s => exact stopped_leaves _ _
  | ok settled =>
    cases htokens : tokenize settled.2 with
    | error e => simpa only [htokens] using stopped_leaves _ _
    | ok ts => simpa only [htokens] using printing_leaves _ _

/-! ## Requests that are met -/

/-- All steps of the command `parse` but the last succeed: there is a chart, and its text in the format. -/
def Charted (tools : Tools) (w : World) (level : Option Text) (r : ParseRequest) (root : Node) (content : Text) :
    Prop :=
  ∃ j records, job w.disk level r = .ok j ∧
    Reading.ofText (rootId r.rootId j.settings.rootId) j.text = .ok (.tree root, records) ∧
      content = j.format.write tools.dump (r.indent.getD j.settings.indent) root.toDoc

/-- A chart is printed, or kept in the file that the output names, which is said. -/
def Delivered (w : World) (output : Option Path) (root : Node) (content : Text) (r : Run) : Prop :=
  match output with
  | none => r.out = closedOnce content
  | some path => ∃ place, w.disk.target path = .ok place ∧
      (r.diskAfter w.disk).look place = some (.file (Text.encode (closed content))) ∧ r.out = notice root path

theorem stopped_code (records : Text) : ∀ s : Stop, (stopped records s).code ≠ 0
  | .told _ => Nat.one_ne_zero
  | .broken _ => Nat.one_ne_zero

theorem keep_iff (htarget : w.disk.target path = .ok place) (records : Text) (root : Node) (content : Text) :
    (keep w path place records root content).code = 0 ↔
      Delivered w (some path) root content (keep w path place records root content) := by
  have hlook : ((keep w path place records root content).diskAfter w.disk).look place =
      some (.file (w.taken place (Text.encode (closed content)))) := look_of_written (written_keep records root content)
  constructor
  · intro h
    obtain ⟨htaken, -⟩ := (code_keep_iff records root content).1 h
    rw [htaken] at hlook
    rw [keep_of_taken _ _ _ htaken] at h hlook ⊢
    exact ⟨place, htarget, hlook, (printing_iff rfl _).1 h⟩
  · rintro ⟨place', htarget', hkept, hout⟩
    obtain rfl : place = place' := Except.ok.inj (htarget.symm.trans htarget')
    have htaken := Thing.file.inj (Option.some.inj (hlook.symm.trans hkept))
    rw [keep_of_taken _ _ _ htaken] at hout ⊢
    exact (printing_iff rfl _).2 hout

theorem deliver_iff (records : Text) (root : Node) (content : Text) :
    (deliver w output records root content).code = 0 ↔
      Delivered w output root content (deliver w output records root content) := by
  unfold deliver
  cases output with
  | none => exact printing_iff rfl _
  | some path =>
    cases htarget : w.disk.target path with
    | error f =>
      simp only [htarget]
      refine iff_of_false (stopped_code _ _) ?_
      rintro ⟨place, hplace, -⟩
      rw [htarget] at hplace
      cases hplace
    | ok place =>
      simp only [htarget]
      exact keep_iff htarget records root content

theorem compile_iff (r : ParseRequest) (j : Job) :
    (compile tools w r j).code = 0 ↔ ∃ root records,
      Reading.ofText (rootId r.rootId j.settings.rootId) j.text = .ok (.tree root, records) ∧
        Delivered w r.output root (j.format.write tools.dump (r.indent.getD j.settings.indent) root.toDoc)
          (compile tools w r j) := by
  unfold compile
  rcases Reading.ofText (rootId r.rootId j.settings.rootId) j.text with (e | _) | ⟨root | m, records⟩
  · exact ⟨fun h => absurd h (stopped_code _ _), by simp⟩
  · exact ⟨fun h => absurd h (stopped_code _ _), by simp⟩
  · constructor
    · exact fun h => ⟨root, records, rfl, (deliver_iff _ _ _).1 h⟩
    · rintro ⟨_, _, heq, h⟩
      cases heq
      exact (deliver_iff _ _ _).2 h
  · exact ⟨fun h => absurd h (stopped_code _ _), by simp⟩

theorem parse_iff (level : Option Text) (r : ParseRequest) :
    (parse tools w level r).code = 0 ↔ ∃ root content, Charted tools w level r root content ∧
      Delivered w r.output root content (parse tools w level r) := by
  unfold parse Charted
  cases hjob : job w.disk level r with
  | error s => exact ⟨fun h => absurd h (stopped_code _ _), by simp⟩
  | ok j =>
    simp only
    rw [compile_iff]
    constructor
    · rintro ⟨root, records, hread, hdelivered⟩
      exact ⟨root, _, ⟨j, records, rfl, hread, rfl⟩, hdelivered⟩
    · rintro ⟨root, content, ⟨_, records, hj, hread, rfl⟩, hdelivered⟩
      cases hj
      exact ⟨root, records, hread, hdelivered⟩

theorem tokens_iff (level : Option Text) (r : TokensRequest) :
    (tokens w level r).code = 0 ↔ ∃ least text ts, listing w.disk level r = .ok (least, text) ∧
      tokenize text = .ok ts ∧ (tokens w level r).out = listed r ts := by
  unfold tokens
  rcases listing w.disk level r with s | ⟨least, text⟩
  · exact ⟨fun h => absurd h (stopped_code _ _), by simp⟩
  · cases htokens : tokenize text with
    | error e =>
      simp only [htokens]
      refine ⟨fun h => absurd h (stopped_code _ _), ?_⟩
      rintro ⟨_, _, _, heq, h, -⟩
      cases heq
      rw [htokens] at h
      cases h
    | ok ts =>
      simp only [htokens]
      rw [printing_iff rfl]
      constructor
      · exact fun h => ⟨least, text, ts, rfl, htokens, h⟩
      · rintro ⟨_, _, _, heq, h, hout⟩
        cases heq
        rw [htokens] at h
        cases h
        exact hout

end Run

namespace Request

/-- What a run has to do for a request: print what it asks for, or keep a chart. -/
def Met (tools : Tools) (w : World) (r : Run) : Request → Prop
  | help => r.out = Run.usage
  | version => r.out = Run.line (Release.program ++ ' ' :: Release.current)
  | parse level q => ∃ root content, Run.Charted tools w level q root content ∧ Run.Delivered w q.output root content r
  | tokens level q => ∃ least text ts, Run.listing w.disk level q = .ok (least, text) ∧ tokenize text = .ok ts ∧
      r.out = Run.listed q ts

variable (tools : Tools) (w : World)

theorem run_leaves_output : ∀ r : Request, (r.run tools w).Leaves w r.output
  | help => Run.printing_leaves _ _
  | version => Run.printing_leaves _ _
  | parse level r => Run.parse_leaves level r
  | tokens level r => Run.tokens_leaves level r

theorem run_code_iff : ∀ r : Request, (r.run tools w).code = 0 ↔ r.Met tools w (r.run tools w)
  | help => Run.printing_iff rfl _
  | version => Run.printing_iff rfl _
  | parse level r => Run.parse_iff level r
  | tokens level r => Run.tokens_iff level r

end Request

/-- **A run that fails leaves no trace unless its last step breaks off**, and every run changes at most the file that it
was asked to write.  It succeeds exactly when the command line is a request and the request is met. -/
theorem run_leaves (tools : Tools) (w : World) (args : List Text) :
    (run tools w args).Leaves w ((tools.request? args).bind Request.output) ∧
      ((run tools w args).code = 0 ↔
        ∃ r, tools.request? args = some r ∧ r.Met tools w (run tools w args)) := by
  unfold run
  cases tools.request? args with
  | none => exact ⟨⟨fun _ => .inl ⟨rfl, rfl⟩, fun h => absurd rfl h, fun _ h => absurd rfl h⟩, by simp⟩
  | some r =>
    refine ⟨r.run_leaves_output tools w, ?_⟩
    simp only [r.run_code_iff tools w, Option.some.injEq, exists_eq_left']

/-- **In a world that takes all it is given, a run that fails leaves no trace.** -/
theorem run_traceless (tools : Tools) {w : World} (htaken : ∀ place bytes, w.taken place bytes = bytes)
    (hshown : ∀ text, w.shown text = text) {args : List Text} (hcode : (run tools w args).code ≠ 0) :
    (run tools w args).out = [] ∧ (run tools w args).diskAfter w.disk = w.disk := by
  rcases (run_leaves tools w args).1.failed hcode with htrace | hinterrupted
  · exact htrace
  · cases hinterrupted with
    | printing hshort _ _ => exact absurd (hshown _) hshort
    | writing _ _ hshort _ _ => exact absurd (htaken _ _) hshort
    | naming _ _ _ hshort _ _ => exact absurd (hshown _) hshort

end Statechart
