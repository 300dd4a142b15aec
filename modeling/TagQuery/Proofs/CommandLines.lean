import TagQuery.Proofs.CommandParts
import TagQuery.Proofs.DecimalText

namespace TagQuery

theorem Number.unsigned64?_toString {count : Nat} (small : count < 2 ^ 64) :
    unsigned64? (toString count) = some count := by
  have text : (toString count).toList = Nat.toDigits 10 count := Nat.toList_repr
  have all := toDigits_all count
  have value := digitsValue_toDigits count
  have digits : isDigits (Nat.toDigits 10 count) = true := isDigits_iff.mpr ⟨Nat.toDigits_ne_nil, all⟩
  unfold unsigned64?
  rw [text]
  generalize Nat.toDigits 10 count = written at all value digits
  dsimp only
  split
  · rw [List.all_cons, Bool.and_eq_true] at all
    exact absurd all.1 (by decide)
  · rw [digits, value, show wordRange = 2 ^ 64 from rfl, decide_eq_true small]
    rfl

namespace Arguments

theorem set_comm {first second : CommandOption} (differ : first.name ≠ second.name) (arguments : Arguments) :
    (arguments.set first).set second = (arguments.set second).set first := by
  cases first <;> cases second <;> first | rfl | exact absurd rfl differ

theorem foldl_set_of_perm {first second : List CommandOption} (same : first.Perm second)
    (differ : (first.map CommandOption.name).Nodup) (arguments : Arguments) :
    first.foldl set arguments = second.foldl set arguments := by
  refine same.foldl_eq' (fun one member another member' arguments => ?_) arguments
  by_cases named : one.name = another.name
  · rw [List.inj_on_of_nodup_map differ member member' named]
  · exact set_comm named arguments

end Arguments

def tagText (tag : String × String) : String := tag.1 ++ "=" ++ tag.2

def HasPlainKey (tag : String × String) : Prop := tag.1 ≠ "" ∧ '=' ∉ tag.1.toList

instance (tag : String × String) : Decidable (HasPlainKey tag) := inferInstanceAs (Decidable (_ ∧ _))

namespace Arguments

theorem tag_tagText {tag : String × String} (plain : HasPlainKey tag) : Arguments.tag (tagText tag) = .ok tag := by
  obtain ⟨key, value⟩ := tag
  obtain ⟨nonempty, single⟩ := plain
  have all : key.toList.all (fun c => decide (c ≠ '=')) = true :=
    List.all_eq_true.mpr fun c member => decide_eq_true fun equals => single (equals ▸ member)
  have text : (tagText (key, value)).toList = key.toList ++ '=' :: value.toList := by simp [tagText]
  have stops : Text.startsWith (fun c => decide (c ≠ '=')) ('=' :: value.toList) = false := by simp [Text.startsWith]
  unfold Arguments.tag
  dsimp only
  rw [text, Text.takeWhile_run all stops, Text.dropWhile_run all stops]
  split
  · rename_i first rest equals value' taken dropped
    obtain ⟨rfl, rfl⟩ := List.cons.inj dropped
    rw [← taken, String.ofList_toList, String.ofList_toList]
  · rename_i other
    cases chars : key.toList with
    | nil => exact absurd (String.toList_eq_nil_iff.mp chars) nonempty
    | cons first rest => exact absurd rfl (other _ _ _ _ chars)

theorem tagText_of_tag {argument : String} {tag : String × String} (read : Arguments.tag argument = .ok tag) :
    argument = tagText tag := by
  have whole := List.takeWhile_append_dropWhile (p := fun c : Char => decide (c ≠ '=')) (l := argument.toList)
  have stops := Text.startsWith_dropWhile (fun c : Char => decide (c ≠ '=')) argument.toList
  unfold Arguments.tag at read
  dsimp only at read
  split at read
  · rename_i first key equals value taken dropped
    obtain rfl := Except.ok.inj read
    rw [taken, dropped] at whole
    rw [dropped] at stops
    obtain rfl : equals = '=' := by simpa [Text.startsWith] using stops
    rw [← String.toList_inj, ← whole]
    simp [tagText]
  · cases read

theorem mapM_tag_tagText {tags : List (String × String)} (plain : ∀ tag ∈ tags, HasPlainKey tag) :
    (tags.map tagText).mapM Arguments.tag = .ok tags := by
  induction tags with
  | nil => rfl
  | cons tag tags ih =>
    obtain ⟨first, others⟩ := List.forall_mem_cons.mp plain
    rw [List.map_cons, List.mapM_cons, tag_tagText first, ih others]
    rfl

theorem map_tagText_of_mapM {pairs : List String} {tags : List (String × String)}
    (read : pairs.mapM Arguments.tag = .ok tags) : pairs = tags.map tagText := by
  induction pairs generalizing tags with
  | nil =>
    rw [List.mapM_nil] at read
    rw [← Except.ok.inj read]
    rfl
  | cons pair pairs ih =>
    rw [List.mapM_cons] at read
    cases first : Arguments.tag pair with
    | error error =>
      rw [first] at read
      cases read
    | ok tag =>
      cases others : pairs.mapM Arguments.tag with
      | error error =>
        rw [first, others] at read
        cases read
      | ok tags =>
        rw [first, others] at read
        rw [← Except.ok.inj read, List.map_cons, tagText_of_tag first, ih others]

end Arguments

def GlobalOptions.choices (options : GlobalOptions) : List CommandOption :=
  options.config.toList.map .config ++ if options.jsonLogs then [.jsonLogs] else []

namespace Command

def words : Command → List String
  | .help => []
  | .check expr => ["check", expr]
  | .eval expr tags _ _ => "eval" :: expr :: tags.map tagText
  | .explain expr => ["explain", expr]
  | .members expr _ _ _ _ => ["members", expr]

def choices : Command → List CommandOption
  | .help | .check _ | .explain _ => []
  | .eval _ _ tagsFile strict => tagsFile.toList.map .tags ++ if strict then [.strict] else []
  | .members _ entitiesFile workers failFast strict =>
    .entities entitiesFile :: (workers.toList.map fun count => .workers (toString count)) ++
      (if failFast then [.failFast] else []) ++ if strict then [.strict] else []

/-- Whether a command can be written: none of its words is taken for an option, its tags can be told from their values,
    and its workers are a positive number of 64 bits. -/
def Writable : Command → Prop
  | .help => False
  | .check expr | .explain expr => isOption expr = false
  | .eval expr tags _ _ =>
    isOption expr = false ∧ ∀ tag ∈ tags, HasPlainKey tag ∧ isOption (tagText tag) = false
  | .members expr _ workers _ _ => isOption expr = false ∧ ∀ count ∈ workers, 1 ≤ count ∧ count < 2 ^ 64

/-- The command lines of a command: its words in their order, and its options anywhere between them in any order. -/
structure Written (options : GlobalOptions) (command : Command) (parts : List CommandPart) : Prop where
  words : parts.filterMap CommandPart.word? = command.words
  choices : (parts.filterMap CommandPart.option?).Perm (options.choices ++ command.choices)

theorem choices_differ (options : GlobalOptions) (command : Command) :
    ((options.choices ++ command.choices).map CommandOption.name).Nodup := by
  obtain ⟨config, jsonLogs⟩ := options
  have first : ((GlobalOptions.choices ⟨config, jsonLogs⟩).map CommandOption.name).Sublist
      ["--config", "--json-logs"] := by
    cases config <;> cases jsonLogs <;> exact of_decide_eq_true rfl
  have second : (command.choices.map CommandOption.name).Sublist
      ["--tags", "--entities", "--threads", "--fail-fast", "--strict"] := by
    cases command with
    | eval expr tags tagsFile strict => cases tagsFile <;> cases strict <;> exact of_decide_eq_true rfl
    | members expr entitiesFile workers failFast strict =>
      cases workers <;> cases failFast <;> cases strict <;> exact of_decide_eq_true rfl
    | _ => exact List.nil_sublist _
  rw [List.map_append]
  exact (first.append second).nodup (by decide)

theorem readable_of_choices {command : Command} (writable : command.Writable) (options : GlobalOptions) :
    ∀ chosen ∈ options.choices ++ command.choices, chosen.Readable := by
  intro chosen member
  cases chosen with
  | workers count =>
    cases command with
    | members expr entitiesFile workers failFast strict =>
      obtain ⟨number, given, rfl⟩ : ∃ number, workers = some number ∧ toString number = count := by
        simpa [GlobalOptions.choices, choices] using member
      exact Option.isSome_of_eq_some (Number.unsigned64?_toString (writable.2 number given).2)
    | _ => simp [GlobalOptions.choices, choices] at member
  | _ => trivial

theorem not_option_of_words {command : Command} (writable : command.Writable) :
    ∀ word ∈ command.words, isOption word = false := by
  cases command with
  | help => cases writable
  | check expr => simpa [words] using ⟨by decide, writable⟩
  | explain expr => simpa [words] using ⟨by decide, writable⟩
  | members expr entitiesFile workers failFast strict => simpa [words] using ⟨by decide, writable.1⟩
  | eval expr tags tagsFile strict =>
    refine List.forall_mem_cons.mpr ⟨by decide, List.forall_mem_cons.mpr ⟨writable.1, fun word member => ?_⟩⟩
    obtain ⟨tag, given, rfl⟩ := List.mem_map.mp member
    exact (writable.2 tag given).2

theorem ofArguments_of_parts {parts : List CommandPart} (readable : ∀ part ∈ parts, part.Readable) :
    ofArguments (parts.flatMap CommandPart.arguments) =
      (parts.foldl Arguments.add {}).command.map fun command => ((parts.foldl Arguments.add {}).options, command) := by
  unfold ofArguments
  rw [Arguments.sort_of_parts readable]
  generalize parts.foldl Arguments.add {} = sorted
  show (sorted.command >>= fun command => pure (sorted.options, command)) = _
  cases sorted.command <;> rfl

theorem foldl_global_choices (options : GlobalOptions) :
    options.choices.foldl Arguments.set {} = { options } := by
  obtain ⟨config, jsonLogs⟩ := options
  cases config <;> cases jsonLogs <;> rfl

theorem command_of_choices {command : Command} (writable : command.Writable) (options : GlobalOptions) :
    let arguments := ((options.choices ++ command.choices).foldl Arguments.set {}).addWords command.words
    arguments.command = .ok command ∧ arguments.options = options := by
  rw [List.foldl_append, foldl_global_choices]
  cases command with
  | help => cases writable
  | check expr => exact ⟨rfl, rfl⟩
  | explain expr => exact ⟨rfl, rfl⟩
  | eval expr tags tagsFile strict =>
    have sorted : (Command.eval expr tags tagsFile strict).choices.foldl Arguments.set { options } =
        { options, tagsFile, strict } := by
      cases tagsFile <;> cases strict <;> rfl
    have read := Arguments.mapM_tag_tagText fun tag member => (writable.2 tag member).1
    rw [sorted]
    refine ⟨?_, rfl⟩
    show (tags.map tagText).mapM Arguments.tag >>= (fun tags => pure (Command.eval expr tags tagsFile strict)) = _
    rw [read]
    rfl
  | members expr entitiesFile workers failFast strict =>
    -- a positive count is not raised when it is read back
    have counted : workers = workers.bind fun count => (Number.unsigned64? (toString count)).map (max · 1) := by
      cases workers with
      | none => rfl
      | some count =>
        obtain ⟨positive, small⟩ := writable.2 count rfl
        rw [Option.bind_some, Number.unsigned64?_toString small, Option.map_some, Nat.max_eq_left positive]
    have sorted : (Command.members expr entitiesFile workers failFast strict).choices.foldl Arguments.set { options } =
        { options, entitiesFile := some entitiesFile, workers, failFast, strict } := by
      conv_rhs => rw [counted]
      cases workers <;> cases failFast <;> cases strict <;> rfl
    rw [sorted]
    exact ⟨rfl, rfl⟩

/-- A command is read back from every command line that it can be written as. -/
theorem ofArguments_of_written (options : GlobalOptions) (command : Command) (parts : List CommandPart)
    (writable : command.Writable) (written : Written options command parts) :
    ofArguments (parts.flatMap CommandPart.arguments) = .ok (options, command) := by
  have readable : ∀ part ∈ parts, part.Readable := by
    intro part member
    cases part with
    | word text => exact not_option_of_words writable text (written.words ▸ List.mem_filterMap.mpr ⟨_, member, rfl⟩)
    | option chosen =>
      have among : chosen ∈ parts.filterMap CommandPart.option? := List.mem_filterMap.mpr ⟨_, member, rfl⟩
      exact readable_of_choices writable options chosen (written.choices.mem_iff.mp among)
  have sorted : parts.foldl Arguments.add {} =
      ((options.choices ++ command.choices).foldl Arguments.set {}).addWords command.words := by
    rw [Arguments.foldl_add, written.words,
      ← Arguments.foldl_set_of_perm written.choices.symm (choices_differ options command)]
  obtain ⟨read, global⟩ := command_of_choices writable options
  rw [ofArguments_of_parts readable, sorted, read, global]
  rfl

theorem ofArguments_of_written_mixed :
    ofArguments ["--config", "--help", "eval", "--strict", "tag.k.v", "--tags", "-h", "k=v=w", "--json-logs", "-k="] =
        .ok (⟨some "--help", true⟩, .eval "tag.k.v" [("k", "v=w"), ("-k", "")] (some "-h") true) ∧
      ofArguments ["--threads", "12", "members", "--fail-fast", "--entities", "--strict", "not tag.k"] =
        .ok ({}, .members "not tag.k" "--strict" (some 12) true false) :=
  ⟨ofArguments_of_written _ (.eval "tag.k.v" [("k", "v=w"), ("-k", "")] (some "-h") true)
      [.option (.config "--help"), .word "eval", .option .strict, .word "tag.k.v", .option (.tags "-h"), .word "k=v=w",
        .option .jsonLogs, .word "-k="]
      ⟨by decide, by decide⟩ ⟨by decide, by decide⟩,
    ofArguments_of_written _ (.members "not tag.k" "--strict" (some 12) true false)
      [.option (.workers "12"), .word "members", .option .failFast, .option (.entities "--strict"), .word "not tag.k"]
      ⟨by decide, by decide⟩ ⟨by decide, by decide⟩⟩

end Command

end TagQuery
