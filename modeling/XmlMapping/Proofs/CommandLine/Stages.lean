import XmlMapping.CommandLine.Report
import XmlMapping.Proofs.CommandLine.Requests
import XmlMapping.Proofs.Config.Merging
import XmlMapping.Proofs.Mapping.NodeTree
import XmlMapping.Proofs.Mapping.Paths

/-! # Stages of a report

A report is made in four stages: the configuration of the file, the configuration with the bindings of the
command line, the document of the input, and the nodes of the path. What each stage gives is stated here on its
own, and in what ways it can fail after the stages before it. A command line is answered with the node trees of
the nodes selected when all stages succeed, and else with the error of the first one that fails and nothing on
the standard output. -/

namespace XmlMapping

/-! ### Texts and configurations -/

/-- A source can be read, and its bytes are those of a text. -/
def TextOf (contents : Contents) (text : String) : Prop :=
  ∃ bytes, contents = .ok bytes ∧ String.fromUTF8? bytes = some text

/-- Why a source gives no text. -/
inductive Unread (source : String) : Contents → LoadError → Prop
  | refused (reason : String) : Unread source (.error reason) (.unread source reason)
  | notText {bytes : ByteArray} (h : String.fromUTF8? bytes = none) :
      Unread source (.ok bytes) (.unread source noTextMessage)

variable {source text : String} {contents : Contents}

theorem loadText_eq_ok : loadText source contents = .ok text ↔ TextOf contents text := by
  cases contents with
  | error reason => exact ⟨nofun, nofun⟩
  | ok bytes => cases h : String.fromUTF8? bytes <;> simp [loadText, TextOf, h]

theorem loadText_eq_error {cause : LoadError} :
    loadText source contents = .error cause ↔ Unread source contents cause := by
  constructor
  · intro h
    cases contents with
    | error reason =>
      cases h
      exact .refused reason
    | ok bytes =>
      rw [loadText] at h
      split at h <;> cases h
      exact .notText ‹_›
  · rintro (_ | hnone)
    · rfl
    · rw [loadText, hnone]

theorem Config.load_eq_ok {c : Config} : Config.load text = .ok c ↔ Config.read text = .ok c ∧ c.Valid := by
  simp only [load, except_bind_eq_ok, except_mapError_eq_ok]
  constructor
  · rintro ⟨_, hread, _, hvalid, ⟨⟩⟩
    exact ⟨hread, validate_eq_ok.mp hvalid⟩
  · rintro ⟨hread, hvalid⟩
    exact ⟨c, hread, (), validate_eq_ok.mpr hvalid, rfl⟩

theorem Config.load_eq_error {e : Error} : Config.load text = .error e ↔
    (∃ fault, Config.read text = .error fault ∧ .json fault = e) ∨
      ∃ c flaw, Config.read text = .ok c ∧ c.flaw? = some flaw ∧ .configuration flaw = e := by
  simp only [load, except_bind_eq_error, except_mapError_eq_ok, except_mapError_eq_error, validate_eq_error]
  refine or_congr_right (exists_congr fun c => ?_)
  constructor
  · rintro ⟨hread, ⟨flaw, hflaw, rfl⟩ | ⟨_, -, ⟨⟩⟩⟩
    exact ⟨flaw, hread, hflaw, rfl⟩
  · rintro ⟨flaw, hread, hflaw, rfl⟩
    exact ⟨hread, Or.inl ⟨flaw, hflaw, rfl⟩⟩

theorem Setup.ofConfig_eq_ok {c : Config} {setup : Setup} : Setup.ofConfig c = .ok setup ↔
    c.Valid ∧ setup = ⟨c.namespaces, c.mostNodes⟩ := by
  simp only [ofConfig, except_bind_eq_ok, except_mapError_eq_ok]
  constructor
  · rintro ⟨_, hvalid, ⟨⟩⟩
    exact ⟨Config.validate_eq_ok.mp hvalid, rfl⟩
  · rintro ⟨hvalid, rfl⟩
    exact ⟨(), Config.validate_eq_ok.mpr hvalid, rfl⟩

theorem Setup.ofConfig_eq_error {c : Config} {e : Error} : Setup.ofConfig c = .error e ↔
    ∃ flaw, c.flaw? = some flaw ∧ .configuration flaw = e := by
  simp only [ofConfig, except_bind_eq_error, except_mapError_eq_error, Config.validate_eq_error]
  refine or_iff_left ?_
  rintro ⟨_, -, ⟨⟩⟩

/-! ### Nodes of a path -/

section
variable {root : String} {d : Document} {b : Bindings} {ns : List Node} {n : Node}

/-- A path is an expression with bound prefixes, and its value at a node is a node-set. -/
def PathSelects (root : String) (d : Document) (b : Bindings) (n : Node) (ns : List Node) : Prop :=
  ∃ e, XPath.compile root = .ok e ∧ (∀ p ∈ e.prefixes, b.uri? p ≠ none) ∧ e.evaluate d b ⟨n, 1, 1⟩ = .ok (.nodes ns)

/-- Why a path selects no nodes. -/
inductive PathFails (root : String) (d : Document) (b : Bindings) (n : Node) : XPath.Error → Prop
  | malformed {cause : XPath.Error} (h : XPath.compile root = .error cause) : PathFails root d b n cause
  | unbound {e : XPath.Expr} {p : String} (he : XPath.compile root = .ok e)
      (hp : e.prefixes.find? (fun p => (b.uri? p).isNone) = some p) : PathFails root d b n (.unboundPrefix p)
  | fails {e : XPath.Expr} {cause : XPath.Error} (he : XPath.compile root = .ok e)
      (hbound : ∀ p ∈ e.prefixes, b.uri? p ≠ none) (h : e.evaluate d b ⟨n, 1, 1⟩ = .error cause) :
      PathFails root d b n cause
  | notNodes {e : XPath.Expr} {v : XPath.Value} (he : XPath.compile root = .ok e)
      (hbound : ∀ p ∈ e.prefixes, b.uri? p ≠ none) (h : e.evaluate d b ⟨n, 1, 1⟩ = .ok v)
      (hv : v.type ≠ .nodeSet) : PathFails root d b n (.notNodes v.type)

theorem XPath.Expr.checkPrefixes_eq_error {e : XPath.Expr} {cause : XPath.Error} : e.checkPrefixes b = .error cause ↔
    ∃ p, e.prefixes.find? (fun p => (b.uri? p).isNone) = some p ∧ .unboundPrefix p = cause := by
  rw [checkPrefixes]
  cases e.prefixes.find? fun p => (b.uri? p).isNone <;> simp

theorem XPath.Value.toNodes_eq_error {v : XPath.Value} {cause : XPath.Error} : v.toNodes = .error cause ↔
    v.type ≠ .nodeSet ∧ .notNodes v.type = cause := by
  cases v <;> simp [toNodes, type]

theorem selectAt_iff_pathSelects : selectAt d b root n = .ok ns ↔ PathSelects root d b n ns := by
  simp only [selectAt_eq_ok, XPath.Expr.select_eq, XPath.Expr.valueAt, except_bind_eq_ok,
    XPath.Value.toNodes_eq_ok]
  refine exists_congr fun e => and_congr_right fun _ => ?_
  constructor
  · rintro ⟨_, ⟨_, hbound, hv⟩, rfl⟩
    exact ⟨XPath.Expr.checkPrefixes_eq_ok.mp hbound, hv⟩
  · rintro ⟨hbound, hv⟩
    exact ⟨_, ⟨(), XPath.Expr.checkPrefixes_eq_ok.mpr hbound, hv⟩, rfl⟩

theorem selectAt_eq_error {e : Error} : selectAt d b root n = .error e ↔
    ∃ cause, PathFails root d b n cause ∧ .path root cause = e := by
  simp only [selectAt, except_mapError_eq_error, XPath.Expr.select_eq, XPath.Expr.valueAt, except_bind_eq_error,
    except_bind_eq_ok, XPath.Expr.checkPrefixes_eq_error, XPath.Value.toNodes_eq_error]
  refine exists_congr fun cause => and_congr_left fun _ => ?_
  constructor
  · rintro (h | ⟨x, he, (⟨p, hp, rfl⟩ | ⟨_, hbound, h⟩) | ⟨v, ⟨_, hbound, h⟩, hv, rfl⟩⟩)
    · exact .malformed h
    · exact .unbound he hp
    · exact .fails he (XPath.Expr.checkPrefixes_eq_ok.mp hbound) h
    · exact .notNodes he (XPath.Expr.checkPrefixes_eq_ok.mp hbound) h hv
  · rintro (h | ⟨he, hp⟩ | ⟨he, hbound, h⟩ | ⟨he, hbound, h, hv⟩)
    · exact Or.inl h
    · exact Or.inr ⟨_, he, Or.inl (Or.inl ⟨_, hp, rfl⟩)⟩
    · exact Or.inr ⟨_, he, Or.inl (Or.inr ⟨(), XPath.Expr.checkPrefixes_eq_ok.mpr hbound, h⟩)⟩
    · exact Or.inr ⟨_, he, Or.inr ⟨_, ⟨(), XPath.Expr.checkPrefixes_eq_ok.mpr hbound, h⟩, hv, rfl⟩⟩

theorem PathSelects.ordered (h : PathSelects root d b n ns) : Ordered ns := by
  obtain ⟨_, -, -, hv⟩ := h
  exact XPath.Expr.ordered_evaluate hv

/-- The mapping of a report makes the array of the node trees of the nodes selected. -/
theorem CommandLine.result_treesAt (root : String) (d : Document) (b : Bindings) (n : Node) :
    ((treesAt root).run [] d b n).result = (selectAt d b root n).map fun ns => .array (ns.map d.nodeTree) := by
  have htree (m : Node) : Mapping.nodeTree.apply (resolve [] d b) d b m = .done (d.nodeTree m) := by
    refine Mapping.apply_nodeTree fun x _ => resolveWithin_nodeTree [] d b ?_
    calc (d.descendants x).length
        < d.size := d.length_descendants_lt_size x
      _ ≤ referenceDepth [] d := Nat.le_mul_of_pos_left _ (Nat.succ_pos _)
  rw [Mapping.run, treesAt, Mapping.apply, Run.result_map, itemsAt, Run.result_bind]
  show ((selectAt d b root n).bind _).map Json.array = _
  cases selectAt d b root n with
  | error _ => rfl
  | ok ns =>
    show (Run.each _ ns).result.map Json.array = _
    rw [Run.each_done fun m _ => htree m]
    rfl

end

namespace CommandLine

/-! ### Invocations -/

/-- What a command line names: an input, a path, the texts of bindings and perhaps a configuration file; with what
    the files and the standard input hold at the time. -/
structure Invocation where
  files : String → Contents
  standard : Contents
  input : String
  root : String
  texts : List String
  config : Option String

namespace Invocation

/-- The bindings of the texts. -/
def bindings (I : Invocation) : List (String × String) :=
  I.texts.filterMap splitEquals?

/-- The configuration file with what it holds, if one is named. -/
def configSource (I : Invocation) : Option (String × Contents) :=
  I.config.map fun file => (file, I.files file)

/-- What the input holds; a minus sign stands for the standard input. -/
def inputContents (I : Invocation) : Contents :=
  if I.input = "-" then I.standard else I.files I.input

/-- What the request is answered with. -/
def answer (I : Invocation) : Answer :=
  Request.answer (m := Id) I.files I.standard (.trees I.input I.root I.bindings I.config)

/-- The report that the request is answered with, or an error. -/
def report (I : Invocation) : Except Error String :=
  CommandLine.report (I.input, I.inputContents) I.root I.bindings I.configSource

theorem answer_eq (I : Invocation) : I.answer = .ofReport I.report := by
  obtain ⟨files, standard, input, root, texts, config⟩ := I
  by_cases h : input = "-"
  · subst h
    cases config <;> rfl
  · cases config <;> simp only [answer, report, Request.answer, configSource, inputContents, if_neg h] <;> rfl

/-! ### What the stages give -/

/-- The configuration of the file, which is valid by itself. When no file is named it is the empty one. -/
inductive Configured (I : Invocation) : Config → Prop
  | unnamed (h : I.config = none) : I.Configured .empty
  | named {file text : String} {c : Config} (hname : I.config = some file) (htext : TextOf (I.files file) text)
      (hread : Config.read text = .ok c) (hvalid : c.Valid) : I.Configured c

/-- The configuration of the file with the bindings of the command line over it, which is valid too. -/
def SetUp (I : Invocation) (c : Config) : Prop :=
  ∃ own, I.Configured own ∧ own.Merged I.bindings c ∧ c.Valid

/-- The document of the input, which keeps to the limit of the configuration. -/
def Loaded (I : Invocation) (c : Config) (d : Document) : Prop :=
  I.SetUp c ∧ ∃ text, TextOf I.inputContents text ∧ Markup.parse c.mostNodes text = .ok d

/-- The nodes that the path selects from the document node. -/
def Selected (I : Invocation) (c : Config) (d : Document) (ns : List Node) : Prop :=
  I.Loaded c d ∧ PathSelects I.root d c.namespaces .root ns

/-! ### How the stages fail -/

/-- Why the configuration file gives no valid configuration. -/
inductive FileFails (I : Invocation) : Error → Prop
  | unread {file : String} {cause : LoadError} (hname : I.config = some file) (h : Unread file (I.files file) cause) :
      I.FileFails (.load cause)
  | malformed {file text : String} {fault : Json.Fault} (hname : I.config = some file)
      (htext : TextOf (I.files file) text) (h : Config.read text = .error fault) : I.FileFails (.json fault)
  | flawed {file text : String} {c : Config} {flaw : Config.Flaw} (hname : I.config = some file)
      (htext : TextOf (I.files file) text) (hread : Config.read text = .ok c) (h : c.flaw? = some flaw) :
      I.FileFails (.configuration flaw)

/-- Why the input gives no document under a configuration. -/
inductive InputFails (I : Invocation) (c : Config) : LoadError → Prop
  | unread {cause : LoadError} (h : Unread (inputName I.input) I.inputContents cause) : I.InputFails c cause
  | malformed {text : String} {cause : Markup.Error} (htext : TextOf I.inputContents text)
      (h : Markup.parse c.mostNodes text = .error cause) : I.InputFails c (.markup cause)

/-- The stages before one have succeeded and it fails. -/
inductive Fails (I : Invocation) : Error → Prop
  | file {e : Error} (h : I.FileFails e) : I.Fails e
  | merged {own c : Config} {flaw : Config.Flaw} (hown : I.Configured own) (hmerged : own.Merged I.bindings c)
      (h : c.flaw? = some flaw) : I.Fails (.configuration flaw)
  | input {c : Config} {cause : LoadError} (hsetUp : I.SetUp c) (h : I.InputFails c cause) : I.Fails (.load cause)
  | path {c : Config} {d : Document} {cause : XPath.Error} (hloaded : I.Loaded c d)
      (h : PathFails I.root d c.namespaces .root cause) : I.Fails (.path I.root cause)

variable {I : Invocation} {c : Config} {d : Document} {ns : List Node} {e : Error}

theorem configSource_eq_none (hname : I.config = none) : I.configSource = none := by
  rw [configSource, hname, Option.map_none]

theorem configSource_eq_some {file : String} (hname : I.config = some file) :
    I.configSource = some (file, I.files file) := by
  rw [configSource, hname, Option.map_some]

theorem configOf_eq_ok : configOf I.configSource = .ok c ↔ I.Configured c := by
  cases hname : I.config with
  | none =>
    rw [configSource_eq_none hname]
    constructor
    · rintro ⟨⟩
      exact .unnamed hname
    · rintro (_ | ⟨hfile, -, -, -⟩)
      · rfl
      · cases hname.symm.trans hfile
  | some file =>
    simp only [configSource_eq_some hname, configOf, except_bind_eq_ok, except_mapError_eq_ok, loadText_eq_ok,
      Config.load_eq_ok]
    constructor
    · rintro ⟨text, htext, hread, hvalid⟩
      exact .named hname htext hread hvalid
    · rintro (hnone | ⟨hfile, htext, hread, hvalid⟩)
      · cases hname.symm.trans hnone
      · cases hname.symm.trans hfile
        exact ⟨_, htext, hread, hvalid⟩

theorem configOf_eq_error : configOf I.configSource = .error e ↔ I.FileFails e := by
  cases hname : I.config with
  | none =>
    rw [configSource_eq_none hname]
    refine ⟨nofun, ?_⟩
    rintro (⟨hfile, -⟩ | ⟨hfile, -, -⟩ | ⟨hfile, -, -, -⟩) <;> cases hname.symm.trans hfile
  | some file =>
    simp only [configSource_eq_some hname, configOf, except_bind_eq_error, except_mapError_eq_ok,
      except_mapError_eq_error, loadText_eq_ok, loadText_eq_error, Config.load_eq_error]
    constructor
    · rintro (⟨cause, h, rfl⟩ | ⟨text, htext, ⟨fault, h, rfl⟩ | ⟨c, flaw, hread, h, rfl⟩⟩)
      · exact .unread hname h
      · exact .malformed hname htext h
      · exact .flawed hname htext hread h
    · rintro (⟨hfile, h⟩ | ⟨hfile, htext, h⟩ | ⟨hfile, htext, hread, h⟩) <;> cases hname.symm.trans hfile
      · exact Or.inl ⟨_, h, rfl⟩
      · exact Or.inr ⟨_, htext, Or.inl ⟨_, h, rfl⟩⟩
      · exact Or.inr ⟨_, htext, Or.inr ⟨_, _, hread, h, rfl⟩⟩

theorem Configured.merged_iff {own : Config} (h : I.Configured own) :
    own.Merged I.bindings c ↔ c = own.bindAll I.bindings := by
  refine Config.merged_iff ?_
  rcases h with _ | ⟨_, _, hread, _⟩
  · exact .nil
  · exact Config.sorted_read hread

theorem setUp_iff : I.SetUp c ↔ ∃ own, I.Configured own ∧ c = own.bindAll I.bindings ∧ c.Valid :=
  exists_congr fun _ => and_congr_right fun hown => and_congr_left' hown.merged_iff

theorem report_eq_ok {text : String} : I.report = .ok text ↔
    ∃ c d ns, I.Selected c d ns ∧ (Json.array (ns.map d.nodeTree)).pretty ++ "\n" = text := by
  simp only [report, CommandLine.report, except_bind_eq_ok, except_mapError_eq_ok, configOf_eq_ok,
    Setup.ofConfig_eq_ok, loadText_eq_ok, loadDocument, result_treesAt, except_map_eq_ok, selectAt_iff_pathSelects,
    Selected, Loaded, setUp_iff]
  constructor
  · rintro ⟨own, hown, _, ⟨hvalid, rfl⟩, input, hinput, d, hd, _, ⟨ns, hns, rfl⟩, htext⟩
    exact ⟨_, d, ns, ⟨⟨⟨own, hown, rfl, hvalid⟩, input, hinput, hd⟩, hns⟩, Except.ok.inj htext⟩
  · rintro ⟨_, d, ns, ⟨⟨⟨own, hown, rfl, hvalid⟩, input, hinput, hd⟩, hns⟩, rfl⟩
    exact ⟨own, hown, _, ⟨hvalid, rfl⟩, input, hinput, d, hd, _, ⟨ns, hns, rfl⟩, rfl⟩

theorem report_eq_error : I.report = .error e ↔ I.Fails e := by
  simp only [report, CommandLine.report, except_bind_eq_error, except_mapError_eq_ok, except_mapError_eq_error,
    configOf_eq_ok, configOf_eq_error, Setup.ofConfig_eq_ok, Setup.ofConfig_eq_error, loadText_eq_ok,
    loadText_eq_error, loadDocument, result_treesAt, except_map_eq_error, selectAt_eq_error]
  constructor
  · rintro (h | ⟨own, hown, ⟨flaw, h, rfl⟩ | ⟨_, ⟨hvalid, rfl⟩, h⟩⟩)
    · exact .file h
    · exact .merged hown (hown.merged_iff.mpr rfl) h
    have hsetUp : I.SetUp (own.bindAll I.bindings) := setUp_iff.mpr ⟨own, hown, rfl, hvalid⟩
    rcases h with ⟨cause, h, rfl⟩ | ⟨text, htext, ⟨_, ⟨cause, h, rfl⟩, rfl⟩ | ⟨d, hd, h⟩⟩
    · exact .input hsetUp (.unread h)
    · exact .input hsetUp (.malformed htext h)
    rcases h with ⟨cause, h, rfl⟩ | ⟨_, -, ⟨⟩⟩
    exact .path ⟨hsetUp, text, htext, hd⟩ h
  · rintro (h | ⟨hown, hmerged, h⟩ | ⟨hsetUp, h⟩ | ⟨⟨hsetUp, text, htext, hd⟩, h⟩)
    · exact Or.inl h
    · obtain rfl := hown.merged_iff.mp hmerged
      exact Or.inr ⟨_, hown, Or.inl ⟨_, h, rfl⟩⟩
    all_goals
      obtain ⟨own, hown, rfl, hvalid⟩ := setUp_iff.mp hsetUp
      refine Or.inr ⟨own, hown, Or.inr ⟨_, ⟨hvalid, rfl⟩, ?_⟩⟩
    · rcases h with h | ⟨htext, h⟩
      · exact Or.inl ⟨_, h, rfl⟩
      · exact Or.inr ⟨_, htext, Or.inl ⟨_, ⟨_, h, rfl⟩, rfl⟩⟩
    · exact Or.inr ⟨text, htext, Or.inr ⟨_, hd, Or.inl ⟨_, h, rfl⟩⟩⟩

/-! ### Answers -/

theorem Selected.answer_eq (h : I.Selected c d ns) :
    I.answer = ⟨(Json.array (ns.map d.nodeTree)).pretty ++ "\n", "", 0⟩ := by
  rw [I.answer_eq, report_eq_ok.mpr ⟨c, d, ns, h, rfl⟩]
  rfl

theorem Fails.answer_eq (h : I.Fails e) : I.answer = ⟨"", "Error: " ++ e.message ++ "\n", 1⟩ := by
  rw [I.answer_eq, report_eq_error.mpr h]
  rfl

/-- Either all stages succeed or exactly one error counts. -/
theorem selected_or_fails (I : Invocation) : (∃ c d ns, I.Selected c d ns) ∨ ∃! e, I.Fails e := by
  cases hreport : I.report with
  | ok text =>
    obtain ⟨c, d, ns, h, -⟩ := report_eq_ok.mp hreport
    exact Or.inl ⟨c, d, ns, h⟩
  | error e =>
    refine Or.inr ⟨e, report_eq_error.mp hreport, fun e' h' => ?_⟩
    exact Except.error.inj ((report_eq_error.mpr h').symm.trans hreport)

theorem output_ne_empty_iff : I.answer.output ≠ "" ↔ ∃ c d ns, I.Selected c d ns := by
  constructor
  · intro h
    refine I.selected_or_fails.resolve_right fun ⟨e, he, _⟩ => h ?_
    rw [he.answer_eq]
  · rintro ⟨c, d, ns, h⟩
    rw [h.answer_eq]
    exact fun hempty => absurd (String.toList_inj.mpr hempty) (by simp [String.toList_append])

/-- A command line whose bindings have equals signs is answered with the node trees of the nodes that its path
    selects, in document order, when all stages succeed. Else nothing is put out, and the error is that of the stage
    that fails. -/
theorem answer_by_stages (I : Invocation) (h : ∀ text ∈ I.texts, '=' ∈ text.toList) :
    List.Forall₂ SplitsAtEquals I.texts I.bindings ∧
      (I.config ≠ some "" →
        CommandLine.answer (m := Id) I.files I.standard (commandLine I.input I.root I.texts I.config) = I.answer) ∧
      (I.answer.output ≠ "" ↔ ∃ c d ns, I.Selected c d ns) ∧
      (∀ c d ns, I.Selected c d ns →
        Ordered ns ∧ I.answer = ⟨(Json.array (ns.map d.nodeTree)).pretty ++ "\n", "", 0⟩) ∧
      ((∃ c d ns, I.Selected c d ns) ∨ ∃! e, I.Fails e) ∧
      ∀ e, I.Fails e → I.answer = ⟨"", "Error: " ++ e.message ++ "\n", 1⟩ := by
  refine ⟨splitsAtEquals_filterMap h, ?_, output_ne_empty_iff, ?_, I.selected_or_fails, ?_⟩
  · intro hconfig
    rw [CommandLine.answer, ofArguments_commandLine I.input I.root h hconfig]
    rfl
  · intro c d ns hselected
    exact ⟨hselected.2.ordered, hselected.answer_eq⟩
  · intro e he
    exact he.answer_eq

/-- `unxml --root=/p:x --ns=p=w --ns=p=u=v --config=c -- -`, where the file binds the prefix to another namespace. -/
def rebound : Invocation where
  files file :=
    if file = "c" then .ok "\x7b\"namespaces\": \x7b\"p\": \"u\"\x7d\x7d".toUTF8
    else .error "No such file or directory (os error 2)"
  standard := .ok "<x xmlns=\"u=v\"/>".toUTF8
  input := "-"
  root := "/p:x"
  texts := ["p=w", "p=u=v"]
  config := some "c"

/-- The document of the input. -/
def reboundDocument : Document :=
  ⟨[.element ⟨⟨some "u=v", "x"⟩, [⟨none, "u=v"⟩], []⟩ []]⟩

theorem textOf_toUTF8 (text : String) : TextOf (.ok text.toUTF8) text :=
  ⟨_, rfl, dif_pos text.isValidUTF8⟩

theorem answer_by_stages_rebound :
    (∀ text ∈ rebound.texts, '=' ∈ text.toList) ∧ rebound.config ≠ some "" ∧
      rebound.Selected ⟨⟨[("p", "u=v")]⟩, none⟩ reboundDocument [.ofPath [0]] ∧
      CommandLine.answer (m := Id) rebound.files rebound.standard
          ["--root=/p:x", "--ns=p=w", "--ns=p=u=v", "--config=c", "--", "-"] =
        ⟨"[\n  \x7b\n    \"nodeType\": \"x\",\n    \"children\": []\n  \x7d\n]\n", "", 0⟩ := by
  have htexts : ∀ text ∈ rebound.texts, '=' ∈ text.toList := by decide
  have hconfig : rebound.config ≠ some "" := by decide
  have hown : rebound.Configured ⟨⟨[("p", "u")]⟩, none⟩ := .named rfl (textOf_toUTF8 _) (by decide +kernel)
    ⟨by decide +kernel, nofun⟩
  have hsetUp : rebound.SetUp ⟨⟨[("p", "u=v")]⟩, none⟩ := ⟨_, hown, hown.merged_iff.mpr (by decide +kernel),
    by decide +kernel, nofun⟩
  have hinput : TextOf rebound.inputContents "<x xmlns=\"u=v\"/>" := textOf_toUTF8 "<x xmlns=\"u=v\"/>"
  have hloaded : rebound.Loaded ⟨⟨[("p", "u=v")]⟩, none⟩ reboundDocument :=
    ⟨hsetUp, _, hinput, by with_unfolding_all rfl⟩
  have hselected : rebound.Selected ⟨⟨[("p", "u=v")]⟩, none⟩ reboundDocument [.ofPath [0]] :=
    ⟨hloaded, .path .root [⟨.child, .name ⟨some "p", "x"⟩, []⟩], by with_unfolding_all rfl, by decide, by decide +kernel⟩
  obtain ⟨-, hline, -, hanswer, -⟩ := answer_by_stages rebound htexts
  refine ⟨htexts, hconfig, hselected, (hline hconfig).trans ((hanswer _ _ _ hselected).2.trans ?_)⟩
  decide +kernel

end Invocation
end CommandLine
end XmlMapping
