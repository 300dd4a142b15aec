import TagQuery.Command.Arguments

namespace TagQuery

def isOption (argument : String) : Bool := argument = "-h" || "--".toList.isPrefixOf argument.toList

inductive CommandOption
  | config (file : String)
  | jsonLogs
  | tags (file : String)
  | entities (file : String)
  | workers (count : String)
  | strict
  | failFast
deriving DecidableEq, Repr

namespace CommandOption

def name : CommandOption → String
  | .config _ => "--config"
  | .jsonLogs => "--json-logs"
  | .tags _ => "--tags"
  | .entities _ => "--entities"
  | .workers _ => "--threads"
  | .strict => "--strict"
  | .failFast => "--fail-fast"

def value? : CommandOption → Option String
  | .config value | .tags value | .entities value | .workers value => some value
  | .jsonLogs | .strict | .failFast => none

def arguments (option : CommandOption) : List String := option.name :: option.value?.toList

def Readable : CommandOption → Prop
  | .workers count => (Number.unsigned64? count).isSome = true
  | _ => True

end CommandOption

inductive CommandPart
  | word (text : String)
  | option (chosen : CommandOption)
deriving DecidableEq, Repr

namespace CommandPart

def arguments : CommandPart → List String
  | .word text => [text]
  | .option chosen => chosen.arguments

def Readable : CommandPart → Prop
  | .word text => isOption text = false
  | .option chosen => chosen.Readable

def word? : CommandPart → Option String
  | .word text => some text
  | .option _ => none

def option? : CommandPart → Option CommandOption
  | .word _ => none
  | .option chosen => some chosen

end CommandPart

namespace Arguments

def set (arguments : Arguments) : CommandOption → Arguments
  | .config file => { arguments with options.config := some file }
  | .jsonLogs => { arguments with options.jsonLogs := true }
  | .tags file => { arguments with tagsFile := some file }
  | .entities file => { arguments with entitiesFile := some file }
  | .workers count => { arguments with workers := (Number.unsigned64? count).map (max · 1) }
  | .strict => { arguments with strict := true }
  | .failFast => { arguments with failFast := true }

def addWords (arguments : Arguments) (more : List String) : Arguments :=
  { arguments with words := arguments.words ++ more }

def add (arguments : Arguments) : CommandPart → Arguments
  | .word text => arguments.addWords [text]
  | .option chosen => arguments.set chosen

section Steps

variable {arguments next : Arguments} {argument value : String} {rest : List String}

theorem sort_cons :
    arguments.sort (argument :: rest) =
      if argument = "--help" || argument = "-h" then .ok (arguments, true)
      else
        match arguments.setFlag? argument with
        | some next => next.sort rest
        | none =>
          if takesValue argument then
            match rest with
            | [] => .error (.missingValue argument)
            | value :: rest =>
              match arguments.setValue argument value with
              | .ok next => next.sort rest
              | .error error => .error error
          else if "--".toList.isPrefixOf argument.toList then .error (.unknownOption argument)
          else (arguments.add (.word argument)).sort rest :=
  sort.eq_def _ _

theorem setFlag?_eq_some (flag : arguments.setFlag? argument = some next) :
    ∃ chosen : CommandOption, chosen.arguments = [argument] ∧ chosen.Readable ∧ next = arguments.set chosen := by
  unfold setFlag? at flag
  split at flag
  · exact ⟨.jsonLogs, rfl, trivial, (Option.some.inj flag).symm⟩
  · exact ⟨.strict, rfl, trivial, (Option.some.inj flag).symm⟩
  · exact ⟨.failFast, rfl, trivial, (Option.some.inj flag).symm⟩
  · cases flag

theorem setValue_eq_ok (valued : takesValue argument = true) (given : arguments.setValue argument value = .ok next) :
    ∃ chosen : CommandOption, chosen.arguments = [argument, value] ∧ chosen.Readable ∧
      next = arguments.set chosen := by
  simp only [takesValue, Bool.or_eq_true, decide_eq_true_eq] at valued
  rcases valued with ((rfl | rfl) | rfl) | rfl
  · exact ⟨.config value, rfl, trivial, (Except.ok.inj given).symm⟩
  · exact ⟨.tags value, rfl, trivial, (Except.ok.inj given).symm⟩
  · exact ⟨.entities value, rfl, trivial, (Except.ok.inj given).symm⟩
  · simp only [setValue, String.reduceEq, if_false] at given
    split at given
    · rename_i count read
      refine ⟨.workers value, rfl, Option.isSome_of_eq_some read, ?_⟩
      rw [set, read]
      exact (Except.ok.inj given).symm
    · cases given

theorem sort_option {chosen : CommandOption} (readable : chosen.Readable) :
    arguments.sort (chosen.arguments ++ rest) = (arguments.set chosen).sort rest := by
  cases chosen with
  | workers count =>
    obtain ⟨number, read⟩ := Option.isSome_iff_exists.mp readable
    rw [set, read]
    refine sort_cons.trans ?_
    simp [CommandOption.name, CommandOption.value?, setFlag?, takesValue, setValue, read]
  | _ =>
    refine sort_cons.trans ?_
    simp [CommandOption.name, CommandOption.value?, setFlag?, takesValue, setValue, set]

theorem setFlag?_of_word (word : isOption argument = false) : arguments.setFlag? argument = none := by
  unfold setFlag?
  split <;> first | rfl | exact absurd word (by decide)

theorem takesValue_of_word (word : isOption argument = false) : takesValue argument = false := by
  refine Bool.eq_false_iff.mpr fun valued => ?_
  simp only [takesValue, Bool.or_eq_true, decide_eq_true_eq] at valued
  rcases valued with ((rfl | rfl) | rfl) | rfl <;> exact absurd word (by decide)

theorem sort_word (word : isOption argument = false) :
    arguments.sort (argument :: rest) = (arguments.add (.word argument)).sort rest := by
  have noHelp : (decide (argument = "--help") || decide (argument = "-h")) = false := by
    refine Bool.eq_false_iff.mpr fun help => ?_
    simp only [Bool.or_eq_true, decide_eq_true_eq] at help
    rcases help with rfl | rfl <;> exact absurd word (by decide)
  rw [sort_cons, noHelp, setFlag?_of_word word, takesValue_of_word word, (Bool.or_eq_false_iff.mp word).2]
  rfl

end Steps

section Runs

theorem sort_of_parts {parts : List CommandPart} (readable : ∀ part ∈ parts, part.Readable) (arguments : Arguments) :
    arguments.sort (parts.flatMap CommandPart.arguments) = .ok (parts.foldl add arguments, false) := by
  induction parts generalizing arguments with
  | nil => rw [List.flatMap_nil, sort, List.foldl_nil]
  | cons part parts ih =>
    obtain ⟨first, others⟩ := List.forall_mem_cons.mp readable
    rw [List.flatMap_cons, List.foldl_cons, ← ih others]
    cases part with
    | word text => exact sort_word first
    | option chosen => exact sort_option first

theorem parts_of_sort {arguments sorted : Arguments} {line : List String}
    (ends : arguments.sort line = .ok (sorted, false)) :
    ∃ parts : List CommandPart, (∀ part ∈ parts, part.Readable) ∧ line = parts.flatMap CommandPart.arguments ∧
      sorted = parts.foldl add arguments := by
  -- the cases in which the sorting fails or finds a call for help go against `ends`
  fun_induction sort arguments line with
  | case1 arguments => exact ⟨[], nofun, rfl, (congrArg Prod.fst (Except.ok.inj ends)).symm⟩
  | case2 | case4 | case6 | case7 => simp at ends
  | case3 arguments argument rest notHelp next flag ih =>
    obtain ⟨chosen, written, can, rfl⟩ := setFlag?_eq_some flag
    obtain ⟨parts, readable, rfl, rfl⟩ := ih ends
    exact ⟨.option chosen :: parts, List.forall_mem_cons.mpr ⟨can, readable⟩, congrArg (· ++ _) written.symm, rfl⟩
  | case5 arguments argument notHelp noFlag valued value rest next given ih =>
    obtain ⟨chosen, written, can, rfl⟩ := setValue_eq_ok valued given
    obtain ⟨parts, readable, rfl, rfl⟩ := ih ends
    exact ⟨.option chosen :: parts, List.forall_mem_cons.mpr ⟨can, readable⟩, congrArg (· ++ _) written.symm, rfl⟩
  | case8 arguments argument rest notHelp noFlag notValued notOption ih =>
    obtain ⟨parts, readable, rfl, rfl⟩ := ih ends
    have word : isOption argument = false := by
      simp only [Bool.or_eq_true, decide_eq_true_eq, not_or] at notHelp
      exact Bool.or_eq_false_iff.mpr ⟨decide_eq_false notHelp.2, Bool.eq_false_iff.mpr notOption⟩
    exact ⟨.word argument :: parts, List.forall_mem_cons.mpr ⟨word, readable⟩, rfl, rfl⟩

theorem addWords_set (arguments : Arguments) (more : List String) (chosen : CommandOption) :
    (arguments.addWords more).set chosen = (arguments.set chosen).addWords more := by
  cases chosen <;> rfl

theorem foldl_set_addWords (chosen : List CommandOption) (arguments : Arguments) (more : List String) :
    chosen.foldl set (arguments.addWords more) = (chosen.foldl set arguments).addWords more :=
  List.foldl_hom (·.addWords more) fun arguments => addWords_set arguments more

theorem words_foldl_set (chosen : List CommandOption) (arguments : Arguments) :
    (chosen.foldl set arguments).words = arguments.words := by
  induction chosen generalizing arguments with
  | nil => rfl
  | cons first chosen ih =>
    rw [List.foldl_cons, ih]
    cases first <;> rfl

theorem addWords_addWords (arguments : Arguments) (first second : List String) :
    (arguments.addWords first).addWords second = arguments.addWords (first ++ second) := by
  simp only [addWords, List.append_assoc]

/-- Where the words of a command line stand does not matter to its options, nor the other way round. -/
theorem foldl_add (parts : List CommandPart) (arguments : Arguments) :
    parts.foldl add arguments =
      ((parts.filterMap CommandPart.option?).foldl set arguments).addWords (parts.filterMap CommandPart.word?) := by
  induction parts generalizing arguments with
  | nil => simp [addWords]
  | cons part parts ih =>
    rw [List.foldl_cons, ih]
    cases part with
    | word text =>
      rw [add, List.filterMap_cons_none rfl, foldl_set_addWords, addWords_addWords]
      rfl
    | option chosen => rfl

end Runs

end Arguments

end TagQuery
