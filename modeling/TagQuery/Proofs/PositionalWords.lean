import TagQuery.Proofs.CommandLines

namespace TagQuery

def positionals : List String → List String
  | [] => []
  | argument :: rest =>
    if Arguments.takesValue argument then
      match rest with
      | [] => []
      | _ :: rest => positionals rest
    else if isOption argument then positionals rest
    else argument :: positionals rest

theorem positionals_of_parts {parts : List CommandPart} (readable : ∀ part ∈ parts, part.Readable) :
    positionals (parts.flatMap CommandPart.arguments) = parts.filterMap CommandPart.word? := by
  induction parts with
  | nil => rw [List.flatMap_nil, positionals, List.filterMap_nil]
  | cons part parts ih =>
    obtain ⟨first, others⟩ := List.forall_mem_cons.mp readable
    rw [List.flatMap_cons]
    cases part with
    | word text =>
      show positionals (text :: _) = text :: parts.filterMap CommandPart.word?
      rw [← ih others]
      refine (positionals.eq_def _).trans ?_
      simp only [Arguments.takesValue_of_word first, show isOption text = false from first, Bool.false_eq_true,
        if_false]
      rfl
    | option chosen =>
      refine Eq.trans ?_ (ih others)
      cases chosen <;> exact positionals.eq_def _

namespace Command

/-- Whether a command lets words pass that it has no use for. -/
def dropsWords : Command → Bool
  | .members _ _ _ _ _ => true
  | _ => false

def withMore (more : List String) : Command → Except UsageError Command
  | .eval expr tags tagsFile strict =>
    (more.mapM Arguments.tag).map fun others => .eval expr (tags ++ others) tagsFile strict
  | .members expr entitiesFile workers failFast strict => .ok (.members expr entitiesFile workers failFast strict)
  | command =>
    match more with
    | [] => .ok command
    | word :: _ => .error (.unexpectedArgument word)

theorem command_cases {arguments : Arguments} {command : Command} (made : arguments.command = .ok command) :
    (∃ expr, arguments.words = ["check", expr] ∧ command = .check expr) ∨
    (∃ expr, arguments.words = ["explain", expr] ∧ command = .explain expr) ∨
    (∃ expr rest tags, arguments.words = "eval" :: expr :: rest ∧ rest.mapM Arguments.tag = .ok tags ∧
      command = .eval expr tags arguments.tagsFile arguments.strict) ∨
    ∃ expr rest file, arguments.words = "members" :: expr :: rest ∧ arguments.entitiesFile = some file ∧
      command = .members expr file arguments.workers arguments.failFast arguments.strict := by
  unfold Arguments.command at made
  split at made
  · cases made
  · cases made
  · rename_i name expr rest words
    split at made
    · exact .inl ⟨expr, words, (Except.ok.inj made).symm⟩
    · exact .inr (.inl ⟨expr, words, (Except.ok.inj made).symm⟩)
    · cases made
    · cases made
    · cases read : rest.mapM Arguments.tag with
      | error error =>
        rw [read] at made
        cases made
      | ok tags =>
        rw [read] at made
        exact .inr (.inr (.inl ⟨expr, rest, tags, words, read, (Except.ok.inj made).symm⟩))
    · split at made
      · cases made
      · rename_i file given
        exact .inr (.inr (.inr ⟨expr, rest, file, words, given, (Except.ok.inj made).symm⟩))
    · cases made

theorem words_of_command {arguments : Arguments} {command : Command} (made : arguments.command = .ok command) :
    ∃ dropped, arguments.words = command.words ++ dropped ∧ (command.dropsWords = false → dropped = []) := by
  obtain ⟨expr, words, rfl⟩ | ⟨expr, words, rfl⟩ | ⟨expr, rest, tags, words, read, rfl⟩ |
    ⟨expr, rest, file, words, -, rfl⟩ := command_cases made
  · exact ⟨[], words, fun _ => rfl⟩
  · exact ⟨[], words, fun _ => rfl⟩
  · refine ⟨[], ?_, fun _ => rfl⟩
    rw [words, Arguments.map_tagText_of_mapM read, List.append_nil]
    rfl
  · exact ⟨rest, words, nofun⟩

theorem command_addWords {arguments : Arguments} {command : Command} (made : arguments.command = .ok command)
    (more : List String) : (arguments.addWords more).command = command.withMore more := by
  have grown : (arguments.addWords more).words = arguments.words ++ more := rfl
  unfold Arguments.command
  rw [grown]
  obtain ⟨expr, words, rfl⟩ | ⟨expr, words, rfl⟩ | ⟨expr, rest, tags, words, read, rfl⟩ |
    ⟨expr, rest, file, words, given, rfl⟩ := command_cases made
  · rw [words]
    cases more <;> rfl
  · rw [words]
    cases more <;> rfl
  · rw [words]
    show (rest ++ more).mapM Arguments.tag >>= _ = _
    rw [List.mapM_append, read]
    unfold withMore
    cases more.mapM Arguments.tag <;> rfl
  · have listed : (arguments.addWords more).entitiesFile = some file := given
    rw [words]
    simp only [listed, List.cons_append]
    rfl

theorem flatMap_words (more : List String) : (more.map CommandPart.word).flatMap CommandPart.arguments = more := by
  rw [List.flatMap_map]
  exact List.flatMap_singleton' more

theorem foldl_add_words (more : List String) (arguments : Arguments) :
    (more.map CommandPart.word).foldl Arguments.add arguments = arguments.addWords more := by
  have words : (more.map CommandPart.word).filterMap CommandPart.word? = more := by
    rw [List.filterMap_map]
    exact List.filterMap_some
  have options : (more.map CommandPart.word).filterMap CommandPart.option? = [] := by
    simp [List.filterMap_map, CommandPart.option?]
  rw [Arguments.foldl_add, words, options, List.foldl_nil]

theorem parts_of_ofArguments {line : List String} {options : GlobalOptions} {command : Command}
    (read : ofArguments line = .ok (options, command)) (asked : command ≠ .help) :
    ∃ parts : List CommandPart, (∀ part ∈ parts, part.Readable) ∧ line = parts.flatMap CommandPart.arguments ∧
      (parts.foldl Arguments.add {}).command = .ok command ∧ (parts.foldl Arguments.add {}).options = options := by
  unfold ofArguments at read
  cases ends : Arguments.sort {} line with
  | error error =>
    rw [ends] at read
    cases read
  | ok pair =>
    obtain ⟨sorted, asksHelp⟩ := pair
    rw [ends] at read
    cases asksHelp with
    | true =>
      obtain ⟨-, rfl⟩ := Prod.mk.inj (Except.ok.inj read)
      exact absurd rfl asked
    | false =>
      obtain ⟨parts, readable, rfl, rfl⟩ := Arguments.parts_of_sort ends
      refine ⟨parts, readable, rfl, ?_⟩
      generalize parts.foldl Arguments.add {} = sorted at read ⊢
      change (sorted.command >>= fun command => pure (sorted.options, command)) = _ at read
      cases made : sorted.command with
      | error error =>
        rw [made] at read
        cases read
      | ok command =>
        rw [made] at read
        obtain ⟨global, rfl⟩ := Prod.mk.inj (Except.ok.inj read)
        exact ⟨rfl, global⟩

theorem words_length_of_dropsWords {command : Command} (drops : command.dropsWords = true) :
    command.words.length = 2 := by
  cases command <;> first | rfl | cases drops

theorem no_word_dropped_iff {command : Command} {words dropped : List String} (split : words = command.words ++ dropped)
    (kept : command.dropsWords = false → dropped = []) :
    words = command.words ↔ (command.dropsWords = true → words.length = 2) := by
  refine ⟨fun same drops => by rw [same, words_length_of_dropsWords drops], fun two => ?_⟩
  have none : dropped = [] := by
    cases drops : command.dropsWords with
    | false => exact kept drops
    | true =>
      have length := two drops
      rw [split, List.length_append, words_length_of_dropsWords drops] at length
      exact List.eq_nil_of_length_eq_zero (by omega)
  rw [split, none, List.append_nil]

theorem ofArguments_append_words {parts : List CommandPart} {command : Command} {more : List String}
    (readable : ∀ part ∈ parts, part.Readable) (made : (parts.foldl Arguments.add {}).command = .ok command)
    (plain : ∀ word ∈ more, isOption word = false) :
    ofArguments (parts.flatMap CommandPart.arguments ++ more) =
      (command.withMore more).map fun command => ((parts.foldl Arguments.add {}).options, command) := by
  have longer : ∀ part ∈ parts ++ more.map CommandPart.word, part.Readable := by
    refine List.forall_mem_append.mpr ⟨readable, fun part member => ?_⟩
    obtain ⟨word, given, rfl⟩ := List.mem_map.mp member
    exact plain word given
  have line : parts.flatMap CommandPart.arguments ++ more =
      (parts ++ more.map CommandPart.word).flatMap CommandPart.arguments := by
    rw [List.flatMap_append, flatMap_words]
  have sorted : (parts ++ more.map CommandPart.word).foldl Arguments.add {} =
      (parts.foldl Arguments.add {}).addWords more := by
    rw [List.foldl_append, foldl_add_words]
  rw [line, ofArguments_of_parts longer, sorted, command_addWords made]
  rfl

/-- Every word of a command line is a word of its command, unless that drops words. -/
theorem words_kept_unless_dropped (line : List String) (options : GlobalOptions) (command : Command)
    (read : ofArguments line = .ok (options, command)) (asked : command ≠ .help) :
    (∃ dropped, positionals line = command.words ++ dropped ∧ (command.dropsWords = false → dropped = [])) ∧
    (positionals line = command.words ↔ (command.dropsWords = true → (positionals line).length = 2)) ∧
    ∀ more : List String, (∀ word ∈ more, isOption word = false) →
      ofArguments (line ++ more) = (command.withMore more).map fun command => (options, command) := by
  obtain ⟨parts, readable, rfl, made, rfl⟩ := parts_of_ofArguments read asked
  have words : positionals (parts.flatMap CommandPart.arguments) = (parts.foldl Arguments.add {}).words := by
    rw [positionals_of_parts readable, Arguments.foldl_add, Arguments.addWords, Arguments.words_foldl_set]
    rfl
  obtain ⟨dropped, split, kept⟩ := words_of_command made
  rw [← words] at split
  exact ⟨⟨dropped, split, kept⟩, no_word_dropped_iff split kept, fun more => ofArguments_append_words readable made⟩

/-- Unquoted, an expression of `members` loses all but its first word. -/
theorem members_drops_words :
    ∃ (line : List String) (options : GlobalOptions) (command : Command),
      ofArguments line = .ok (options, command) ∧ command = .members "tag.a" "e.json" none false false ∧
      positionals line = ["members", "tag.a", "and", "tag.b"] ∧ positionals line ≠ command.words :=
  ⟨["members", "tag.a", "and", "tag.b", "--entities", "e.json"], {}, _, rfl, rfl, rfl, by decide⟩

theorem words_kept_unless_dropped_more :
    positionals ["eval", "--tags", "t", "tag.a", "a=1", "--strict"] = ["eval", "tag.a", "a=1"] ∧
      ofArguments (["eval", "--tags", "t", "tag.a", "a=1", "--strict"] ++ ["b=2", "or"]) = .error (.invalidTag "or") ∧
      ofArguments (["members", "tag.a", "--entities", "-h"] ++ ["or", "tag.b"]) =
        ofArguments ["members", "tag.a", "--entities", "-h"] := by
  obtain ⟨-, same, longer⟩ :=
    words_kept_unless_dropped ["eval", "--tags", "t", "tag.a", "a=1", "--strict"] {}
      (.eval "tag.a" [("a", "1")] (some "t") true) rfl (by decide)
  obtain ⟨-, -, unchanged⟩ :=
    words_kept_unless_dropped ["members", "tag.a", "--entities", "-h"] {} (.members "tag.a" "-h" none false false) rfl
      (by decide)
  exact ⟨same.mpr nofun, longer ["b=2", "or"] (by decide), unchanged ["or", "tag.b"] (by decide)⟩

end Command

end TagQuery
