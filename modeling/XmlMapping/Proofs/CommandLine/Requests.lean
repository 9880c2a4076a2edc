import Mathlib.Data.List.Forall2
import Mathlib.Data.List.TakeWhile
import XmlMapping.CommandLine.Arguments
import XmlMapping.Proofs.Result
import XmlMapping.Proofs.Text.Scanning

/-! # Requests

A text is split at its first equals sign, so that an option can be written with its value after one, and a
binding with its namespace. A command line of options that are written like this, with the input after two
minus signs, makes the request that it says, whatever the values are: an equals sign may stand in each of
them, and a minus sign at the front of each. -/

namespace XmlMapping.CommandLine

variable {text before after option value : String}

/-! ### The first equals sign -/

/-- A text is split at its first equals sign into the texts before and after it. -/
def SplitsAtEquals (text : String) (parts : String × String) : Prop :=
  '=' ∉ parts.1.toList ∧ text = parts.1 ++ "=" ++ parts.2

theorem toList_append_equals (before after : String) :
    (before ++ "=" ++ after).toList = before.toList ++ '=' :: after.toList := by
  simp [String.toList_append]

theorem splitEquals?_append (h : '=' ∉ before.toList) :
    splitEquals? (before ++ "=" ++ after) = some (before, after) := by
  have hbefore : ∀ c ∈ before.toList, (c != '=') = true := fun c hc =>
    bne_iff_ne.mpr fun heq => h (heq ▸ hc)
  have hstops : Text.Stops (· != '=') ('=' :: after.toList) := Text.stops_cons.mpr rfl
  rw [splitEquals?, toList_append_equals, Text.dropWhile_append_stops hbefore hstops,
    Text.takeWhile_append_stops hbefore hstops]
  simp [String.ofList_toList]

theorem splitsAtEquals_of_splitEquals? {parts : String × String} (h : splitEquals? text = some parts) :
    SplitsAtEquals text parts := by
  rw [splitEquals?] at h
  split at h
  · cases h
  · next c rest hdrop =>
    obtain rfl := Option.some.inj h
    have hmark : c = '=' := by
      have hstops : Text.Stops (· != '=') (c :: rest) := hdrop ▸ Text.stops_dropWhile
      simpa using hstops
    subst hmark
    refine ⟨fun hmem => ?_, ?_⟩
    · rw [String.toList_ofList] at hmem
      exact absurd (List.mem_takeWhile_imp hmem) (by decide)
    · refine String.toList_inj.mp ?_
      rw [toList_append_equals, String.toList_ofList, String.toList_ofList, ← hdrop,
        List.takeWhile_append_dropWhile]

theorem exists_splitEquals? (h : '=' ∈ text.toList) : ∃ parts, splitEquals? text = some parts := by
  rw [splitEquals?]
  split
  · next hdrop =>
    rw [List.dropWhile_eq_nil_iff] at hdrop
    exact absurd (hdrop '=' h) (by decide)
  · exact ⟨_, rfl⟩

/-- The texts of bindings come apart at their first equals signs, one binding for each text. -/
theorem splitsAtEquals_filterMap {texts : List String} (h : ∀ text ∈ texts, '=' ∈ text.toList) :
    List.Forall₂ SplitsAtEquals texts (texts.filterMap splitEquals?) := by
  induction texts with
  | nil => exact .nil
  | cons text texts ih =>
    obtain ⟨htext, htexts⟩ := List.forall_mem_cons.mp h
    obtain ⟨parts, hparts⟩ := exists_splitEquals? htext
    rw [List.filterMap_cons_some hparts]
    exact .cons (splitsAtEquals_of_splitEquals? hparts) (ih htexts)

/-! ### Options with values -/

theorem splitOption_append (h : '=' ∉ option.toList) :
    splitOption (option ++ "=" ++ value) = (option, some value) := by
  rw [splitOption, splitEquals?_append h]

/-- A text that begins with two minus signs, and has more, is an option, and not one of one letter. -/
theorem flag?_of_long {cs : List Char} (hcs : text.toList = '-' :: '-' :: cs) (hsplit : splitOption text = (option, some value))
    (hversion : option ≠ "--version") (hhelp : option ≠ "--help") : flag? text = none := by
  simp only [flag?, hsplit, hcs, if_neg hversion, if_neg hhelp]
  rfl

theorem isOption_of_long {cs : List Char} (hcs : text.toList = '-' :: '-' :: cs) : isOption text = true := by
  have hminus : text ≠ "-" := fun h => by
    rw [h] at hcs
    exact absurd (List.cons.inj hcs).2 nofun
  rw [isOption, hcs, Bool.and_eq_true, bne_iff_ne]
  exact ⟨rfl, hminus⟩

theorem equals_notMem (hoption : option ∈ valueOptions) : '=' ∉ option.toList := by
  revert option
  decide

/-- An option that takes a value may have it after an equals sign. -/
theorem readArguments_option {a a' : Arguments} (hoption : option ∈ valueOptions) (hadd : a.addOption option value = .ok a')
    (rest : List String) : readArguments a ((option ++ "=" ++ value) :: rest) = readArguments a' rest := by
  have hlist : ∃ cs, (option ++ "=" ++ value).toList = '-' :: '-' :: cs ∧ cs ≠ [] := by
    rw [toList_append_equals]
    simp only [valueOptions, List.mem_cons, List.not_mem_nil, or_false] at hoption
    rcases hoption with rfl | rfl | rfl <;> exact ⟨_, rfl, nofun⟩
  have hversion : option ≠ "--version" := fun h => absurd (h ▸ hoption) (by decide)
  have hhelp : option ≠ "--help" := fun h => absurd (h ▸ hoption) (by decide)
  have hsplit : splitOption (option ++ "=" ++ value) = (option, some value) :=
    splitOption_append (equals_notMem hoption)
  generalize option ++ "=" ++ value = text at hlist hsplit
  obtain ⟨cs, hcs, hne⟩ := hlist
  have hmore : text ≠ "--" := fun h => by
    rw [h] at hcs
    exact hne (List.cons.inj (List.cons.inj hcs).2).2.symm
  have hflag := flag?_of_long hcs hsplit hversion hhelp
  have hlong := isOption_of_long hcs
  have hvalue : valueOptions.contains option = true := List.contains_iff_mem.mpr hoption
  -- the definition, not its equations, which take long to make
  delta readArguments
  simp only [if_neg hmore, hlong, hflag, hsplit, hvalue, hadd, Bool.not_true, Bool.false_eq_true, if_false]
  rfl

/-- After two minus signs there is the input alone. -/
theorem readArguments_input {a : Arguments} (h : a.input = none) (input : String) : readArguments a ["--", input] =
    .ok (.trees input (a.root.getD defaultRoot) a.namespaces a.config) := by
  have hadd : a.addInput input = .ok { a with input := some input } := by
    rw [Arguments.addInput, h]
    rfl
  show ((a.addInput input >>= fun a => .ok a) >>= Arguments.request) = _
  rw [hadd]
  rfl

/-! ### Whole command lines -/

/-- The command line with a path, bindings and a configuration, each written after an equals sign, and an input. -/
def commandLine (input root : String) (bindings : List String) (config : Option String) : List String :=
  ("--root" ++ "=" ++ root) :: (bindings.map ("--ns" ++ "=" ++ ·) ++
    (config.toList.map ("--config" ++ "=" ++ ·) ++ ["--", input]))

theorem readArguments_bindings (a : Arguments) {texts : List String} (h : ∀ text ∈ texts, '=' ∈ text.toList)
    (rest : List String) : readArguments a (texts.map ("--ns" ++ "=" ++ ·) ++ rest) =
      readArguments { a with namespaces := a.namespaces ++ texts.filterMap splitEquals? } rest := by
  induction texts generalizing a with
  | nil => simp
  | cons text texts ih =>
    obtain ⟨htext, htexts⟩ := List.forall_mem_cons.mp h
    obtain ⟨binding, hbinding⟩ := exists_splitEquals? htext
    have hadd : a.addOption "--ns" text = .ok { a with namespaces := a.namespaces ++ [binding] } := by
      simp [Arguments.addOption, hbinding]
    rw [List.map_cons, List.cons_append, readArguments_option (by decide) hadd, ih _ htexts]
    rw [List.filterMap_cons_some hbinding, List.append_assoc]
    rfl

/-- A command line asks for what is written in it. No name of a file is empty. -/
theorem ofArguments_commandLine (input root : String) {texts : List String} {config : Option String}
    (htexts : ∀ text ∈ texts, '=' ∈ text.toList) (hconfig : config ≠ some "") :
    Request.ofArguments (commandLine input root texts config) =
      .ok (.trees input root (texts.filterMap splitEquals?) config) := by
  have hroot : Arguments.none.addOption "--root" root = .ok { Arguments.none with root := some root } := rfl
  rw [Request.ofArguments, commandLine, readArguments_option (by decide) hroot, readArguments_bindings _ htexts]
  cases config with
  | none => exact readArguments_input rfl input
  | some file =>
    have hfile : file ≠ "" := fun h => hconfig (congrArg some h)
    have hadd (a : Arguments) (ha : a.config = none) : a.addOption "--config" file = .ok { a with config := some file } := by
      simp [Arguments.addOption, ha, hfile]
    rw [Option.toList_some, List.map_singleton, List.singleton_append,
      readArguments_option (by decide) (hadd _ rfl)]
    exact readArguments_input rfl input

end XmlMapping.CommandLine
