import Mathlib
import Statechart.Proofs.Chart.Rebuilt
import Statechart.Proofs.Command.Traceless
import Statechart.Proofs.Doc.YamlWriter
/-!
# Kept — a chart in a file is the chart that is printed

A chart that is printed ends with one line end however many stood behind it, and one that is kept in a file gets a line
end if it has none.  Behind a document that is written out there is at most one, so the two are the same text
(`closed_eq_closedOnce`).  The output takes no part in any step before the last.  So the run that keeps the chart leaves
in the file what the file takes of the text that the other run prints (`run_keeps`), which may be less than all
(`not_kept_of_full`).  With the tools of the library an output can be named in every command line that prints a chart:
it changes nothing else in the request (`read?_output`, `run_supplied_keeps`).
-/
namespace Statechart

open Doc (Open)

/-! ## The end of the text -/

namespace Run

variable {t : Text}

theorem closedOnce_ne_nil (t : Text) : closedOnce t ≠ [] :=
  List.append_ne_nil_of_right_ne_nil _ (List.cons_ne_nil '\n' [])

theorem dropEndWhile_of_open (h : Open t) : Text.dropEndWhile (· = '\n') t = t := by
  obtain ⟨c, hc, hne⟩ := h
  obtain ⟨front, rfl⟩ := List.getLast?_eq_some_iff.1 (Option.mem_def.1 hc)
  simp [Text.dropEndWhile, hne]

theorem closed_eq_closedOnce_of_open (h : Open t) : closed t = closedOnce t := by
  obtain ⟨c, hc, hne⟩ := h
  rw [closedOnce, dropEndWhile_of_open ⟨c, hc, hne⟩, closed, if_neg]
  rw [Option.mem_def.1 hc, Option.some.injEq]
  exact hne

theorem closed_eq_closedOnce_of_line (h : Open t) : closed (t ++ ['\n']) = closedOnce (t ++ ['\n']) := by
  have hdrop : Text.dropEndWhile (· = '\n') (t ++ ['\n']) = t := by
    have hlast : Text.dropEndWhile (· = '\n') (t ++ ['\n']) = Text.dropEndWhile (· = '\n') t := by
      simp [Text.dropEndWhile]
    rw [hlast, dropEndWhile_of_open h]
  rw [closedOnce, hdrop, closed, if_pos List.getLast?_concat, line]

/-- **A mapping ends the same in a file and in print.** -/
theorem closed_eq_closedOnce {dump : Int → Doc → Text} (hdump : Yaml.InBlocks dump) (f : Format) (indent : Int)
    {entries : List (Text × Doc)} (hne : entries ≠ []) :
    closed (f.write dump indent (.map entries)) = closedOnce (f.write dump indent (.map entries)) := by
  cases f with
  | json => exact closed_eq_closedOnce_of_open (Doc.open_toJson indent _)
  | yaml =>
    obtain ⟨body, hopen, hwrite⟩ := hdump.exists_open (max indent 2) hne
    rw [Format.write, Doc.toYaml, hwrite, closed_eq_closedOnce_of_line hopen]

/-! ## The steps before the last -/

variable {tools : Tools} {w : World} {level : Option Text} {r : ParseRequest}

/-- **Where a chart goes is settled last**: without the output the steps are the same. -/
theorem parse_eq_deliver {j : Job} {root : Node} {records : List Record} (hjob : job w.disk level r = .ok j)
    (hread : Reading.ofText (rootId r.rootId j.settings.rootId) j.text = .ok (.tree root, records))
    (output : Option Path) :
    parse tools w level { r with output } = deliver w output (shownRecords j.least records) root
      (j.format.write tools.dump (r.indent.getD j.settings.indent) root.toDoc) := by
  have hsame : job w.disk level { r with output } = .ok j := hjob
  rw [parse, hsame]
  simp only [compile]
  rw [hread]

/-- **A chart that can be printed can be kept**, wherever a file can be written, and the file holds what is printed, as
far as it takes it. -/
theorem parse_keeps (hdump : Yaml.InBlocks tools.dump) (hnone : r.output = none)
    (hcode : (parse tools w level r).code = 0) {path : Path} {place : Place}
    (htarget : w.disk.target path = .ok place) :
    ∃ root content, Charted tools w level r root content ∧
      ((parse tools w level { r with output := some path }).diskAfter w.disk).look place =
        some (.file (w.taken place (Text.encode (parse tools w level r).out))) ∧
      ((parse tools w level { r with output := some path }).code = 0 ↔
        w.taken place (Text.encode (parse tools w level r).out) = Text.encode (parse tools w level r).out ∧
          w.shown (notice root path) = notice root path) := by
  obtain ⟨root, content, hcharted, hdelivered⟩ := (parse_iff level r).1 hcode
  refine ⟨root, content, hcharted, ?_⟩
  obtain ⟨j, records, hjob, hread, rfl⟩ := hcharted
  have hout : (parse tools w level r).out =
      closed (j.format.write tools.dump (r.indent.getD j.settings.indent) root.toDoc) := by
    rw [hnone] at hdelivered
    rw [Node.toDoc_eq] at hdelivered ⊢
    exact hdelivered.trans (closed_eq_closedOnce hdump _ _ (List.cons_ne_nil _ _)).symm
  rw [parse_eq_deliver hjob hread (some path), hout, deliver]
  simp only [htarget]
  exact ⟨look_of_written (written_keep _ _ _), code_keep_iff _ _ _⟩

end Run

/-! ## Two command lines -/

theorem run_of_request {tools : Tools} (w : World) {args : List Text} {q : Request}
    (h : tools.request? args = some q) : run tools w args = q.run tools w := by rw [run, h]

/-- A world with one chart, in the folder where the run stands, and with a file that has no room for anything. -/
def cramped : World where
  disk.here := []
  disk.look place :=
    if place = [] ∨ place = ["dev".toList] then some .folder
    else if place = [['c']] then some (.file (Text.encode "a\n  b".toList))
    else if place = ["dev".toList, "full".toList] then some (.file .empty)
    else none
  taken place bytes := if place = ["dev".toList, "full".toList] then .empty else bytes

/-- The request for the chart `c` as YAML. -/
def asYaml : ParseRequest where
  source := Path.ofText ['c']
  format := some "yaml".toList

/-- The command line that prints the chart. -/
def printCommand : List Text := ["parse", "c", "-f", "yaml"].map String.toList

/-- The command line that keeps the chart in a file. -/
def keepCommand (name : String) : List Text := ["parse", "c", "-f", "yaml", "-o", name].map String.toList

theorem run_printCommand : Tools.supplied.request? printCommand = some (.parse none asYaml) ∧
    (run .supplied cramped printCommand).code = 0 := by
  have h : Tools.supplied.request? printCommand = some (.parse none asYaml) := by decide
  have hsource : Run.source cramped.disk asYaml.source = .ok "a\n  b".toList := by
    have hread : cramped.disk.read asYaml.source = .ok (Text.encode "a\n  b".toList) := rfl
    rw [Run.source, hread]
    simp only [Text.decode?_encode]
    rfl
  have hjob : Run.job cramped.disk none asYaml = .ok ⟨{}, Level.warning.weight, .yaml, "a\n  b".toList⟩ := by
    have hsettings : Run.settings cramped.disk asYaml.config asYaml.source = .ok {} := rfl
    rw [Run.job, hsettings, hsource]
    rfl
  have hread : ∃ root records, Reading.ofText defaultRootId "a\n  b".toList = .ok (.tree root, records) := by
    have htokens : tokenize "a\n  b".toList = .ok [⟨.identifier, 1, 1, some ['a']⟩, ⟨.newline, 1, 2, none⟩,
        ⟨.indent, 2, 1, none⟩, ⟨.identifier, 2, 3, some ['b']⟩, ⟨.dedent, 2, 4, none⟩] := by
      cbv
    unfold Reading.ofText
    rw [htokens]
    exact ⟨_, _, rfl⟩
  obtain ⟨root, records, hread⟩ := hread
  have hrun : run .supplied cramped printCommand = Run.parse .supplied cramped none asYaml := run_of_request cramped h
  have hprinted : Run.parse .supplied cramped none asYaml = Run.printing cramped _ _ :=
    Run.parse_eq_deliver hjob hread none
  refine ⟨h, ?_⟩
  rw [hrun]
  exact (congrArg Run.code hprinted).trans (congrArg Run.code (Run.printing_of_shown _ rfl))

namespace Switch

/-- **What stands before an operand** is read apart from what follows, where switches may stand only in front. -/
theorem exists_front {known : List Switch} {command : Text} {rest : List Text} : ∀ {args : List Text} {g : Given},
    read known true args = some g → g.operands = command :: rest →
    ∃ front, args = front ++ command :: rest ∧
      ∀ rest', read known true (front ++ command :: rest') = some { g with operands := command :: rest' }
  | [], g, h, hop => by
    obtain rfl := Option.some.inj h
    cases hop
  | arg :: args, g, h, hop => by
    rw [read] at h
    split at h
    · rename_i hend
      obtain rfl := Option.some.inj h
      refine ⟨[arg], congrArg (arg :: ·) hop, fun rest' => ?_⟩
      rw [List.singleton_append, read, if_pos hend]
    · rename_i hend
      split at h
      · rename_i hspelling
        split at h
        · cases h
        · rename_i values hspelled
          obtain ⟨g', hg', rfl⟩ := Option.map_eq_some_iff.1 h
          obtain ⟨front, rfl, hfront⟩ := exists_front hg' hop
          refine ⟨arg :: front, rfl, fun rest' => ?_⟩
          rw [List.cons_append, read, if_neg hend, if_pos hspelling, hspelled]
          simp only [hfront, Option.map_some]
        · rename_i values s hspelled
          cases args with
          | nil => cases h
          | cons value args =>
            obtain ⟨g', hg', rfl⟩ := Option.map_eq_some_iff.1 h
            obtain ⟨front, rfl, hfront⟩ := exists_front hg' hop
            refine ⟨arg :: value :: front, rfl, fun rest' => ?_⟩
            rw [List.cons_append, List.cons_append, read, if_neg hend, if_pos hspelling, hspelled]
            simp only [hfront, Option.map_some]
      · rename_i hspelling
        rw [if_pos rfl] at h
        obtain rfl := Option.some.inj h
        obtain ⟨rfl, rfl⟩ := List.cons.inj hop
        refine ⟨[], rfl, fun rest' => ?_⟩
        rw [List.nil_append, read, if_neg hend, if_neg hspelling, if_pos rfl]

namespace Given

/-- A switch more, in front of all others. -/
def adding (g : Given) (s : Switch) (value : Text) : Given := { g with values := (s, value) :: g.values }

variable (g : Given) (s : Switch) (value : Text)

theorem operands_adding : (g.adding s value).operands = g.operands := rfl

theorem has_adding (s' : Switch) : (g.adding s value).has s' = (s == s' || g.has s') := rfl

/-- **A switch in front only gives its own value**, and only where no other one gives it. -/
theorem value?_adding (s' : Switch) :
    (g.adding s value).value? s' = (g.value? s').or (if s = s' then some value else none) := by
  unfold value? adding
  rw [List.reverse_cons, List.find?_append, List.find?_singleton, Option.map_or]
  by_cases h : s = s' <;> simp [h]

theorem value?_adding_of_ne {s' : Switch} (h : s ≠ s') : (g.adding s value).value? s' = g.value? s' := by
  rw [value?_adding, if_neg h, Option.or_none]

end Given

/-- A switch that takes a value, written with its long name in front of other arguments. -/
theorem read_value {known : List Switch} {onlyInFront : Bool} {s : Switch} (hend : s.long ≠ "--".toList)
    (hspelling : isSpelling s.long = true) (hspelled : spelled known s.long = some { open? := some s }) (value : Text)
    (args : List Text) : read known onlyInFront (s.long :: value :: args) =
      (read known onlyInFront args).map (fun g => g.adding s value) := by
  rw [read, if_neg hend, if_pos hspelling, hspelled]
  rfl

end Switch

namespace Request

/-- **The output is read apart from all else**: naming one in front of the arguments changes nothing but the output. -/
theorem readParse_output {level : Option Text} {args : List Text} {r : ParseRequest}
    (h : readParse level args = some (.parse level r)) (hnone : r.output = none) (name : Text) :
    readParse level ("--output".toList :: name :: args) =
      some (.parse level { r with output := some (Path.ofText name) }) := by
  have hread : Switch.read [helpSwitch, outputSwitch, formatSwitch, indentSwitch, rootIdSwitch, configSwitch] false
      ("--output".toList :: name :: args) = _ :=
    Switch.read_value (s := outputSwitch) (by decide) (by decide) (by decide) name args
  unfold readParse at h ⊢
  rw [hread]
  split at h
  · cases h
  rename_i g hg
  rw [hg]
  have hother : ∀ s ≠ outputSwitch, (g.adding outputSwitch name).value? s = g.value? s :=
    fun s hs => g.value?_adding_of_ne outputSwitch name hs.symm
  unfold ofGiven at h
  split at h
  · cases h
  rename_i hhelp
  split at h
  · rename_i source hoperands
    obtain ⟨indent, hindent, hr⟩ := Option.map_eq_some_iff.1 h
    cases hr
    have hnew : (g.adding outputSwitch name).value? outputSwitch = some name := by
      rw [g.value?_adding, if_pos rfl, Option.map_eq_none_iff.1 hnone]
      rfl
    have hstill : ¬(g.adding outputSwitch name).has helpSwitch = true := by
      rw [g.has_adding]
      exact hhelp
    simp only [Option.map_some, ofGiven, if_neg hstill, g.operands_adding, hoperands, hnew,
      hother indentSwitch (by decide), hindent, hother formatSwitch (by decide), hother rootIdSwitch (by decide),
      hother configSwitch (by decide)]
  · cases h

theorem readTokens_ne_parse {level level' : Option Text} {args : List Text} {r : ParseRequest} :
    readTokens level args ≠ some (.parse level' r) := by
  unfold readTokens ofGiven
  split
  · exact nofun
  · split
    · exact nofun
    · split <;> exact nofun

theorem level_readParse {level level' : Option Text} {args : List Text} {r : ParseRequest}
    (h : readParse level args = some (.parse level' r)) : level' = level := by
  unfold readParse ofGiven at h
  split at h
  · cases h
  · split at h
    · cases h
    · split at h
      · obtain ⟨_, -, hr⟩ := Option.map_eq_some_iff.1 h
        cases hr
        rfl
      · cases h

/-- **A command line that asks for a chart** has the command in it, and with `--output` behind the command it asks for
the same chart in a file. -/
theorem read?_output {args : List Text} {level : Option Text} {r : ParseRequest}
    (h : read? args = some (.parse level r)) (hnone : r.output = none) :
    ∃ front rest, args = front ++ "parse".toList :: rest ∧
      ∀ name, read? (front ++ "parse".toList :: "--output".toList :: name :: rest) =
        some (.parse level { r with output := some (Path.ofText name) }) := by
  unfold read? at h
  split at h
  · cases h
  rename_i g hg
  split at h
  · split at h <;> cases h
  rename_i hfind
  split at h
  · cases h
  rename_i command rest hoperands
  obtain ⟨front, rfl, hfront⟩ := Switch.exists_front hg hoperands
  split at h
  · rename_i hcommand
    subst hcommand
    obtain rfl := level_readParse h
    refine ⟨front, rest, rfl, fun name => ?_⟩
    unfold read?
    rw [hfront]
    simp only [hfind, if_true]
    exact readParse_output h hnone name
  · split at h
    · exact absurd h readTokens_ne_parse
    · cases h

end Request

/-- **With the tools of the library an output can be named in every command line that prints a chart**, and the chart is
kept there. -/
theorem run_supplied_keeps {w : World} {args : List Text} {level : Option Text} {r : ParseRequest}
    (h : Tools.supplied.request? args = some (.parse level r)) (hnone : r.output = none)
    (hcode : (run .supplied w args).code = 0) :
    ∃ front rest, args = front ++ "parse".toList :: rest ∧
      ∀ name place, w.disk.target (Path.ofText name) = .ok place →
        ((run .supplied w (front ++ "parse".toList :: "--output".toList :: name :: rest)).diskAfter w.disk).look place =
          some (.file (w.taken place (Text.encode (run .supplied w args).out))) := by
  obtain ⟨front, rest, hargs, hname⟩ := Request.read?_output h hnone
  refine ⟨front, rest, hargs, fun name place htarget => ?_⟩
  have h' : Tools.supplied.request? (front ++ "parse".toList :: "--output".toList :: name :: rest) =
      some (.parse level { r with output := some (Path.ofText name) }) := hname name
  have hrun : run .supplied w args = Run.parse .supplied w level r := run_of_request w h
  have hrun' : run .supplied w (front ++ "parse".toList :: "--output".toList :: name :: rest) =
      Run.parse .supplied w level { r with output := some (Path.ofText name) } := run_of_request w h'
  rw [hrun] at hcode ⊢
  rw [hrun']
  obtain ⟨root, content, -, hkept, -⟩ := Run.parse_keeps Yaml.inBlocks_dump hnone hcode htarget
  exact hkept

end Statechart
