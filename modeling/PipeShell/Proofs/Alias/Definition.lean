import PipeShell.Proofs.Alias.Transparency
import PipeShell.Proofs.Compile.Joined
import PipeShell.Proofs.Session.Staying

/-!
# Lines that define aliases

Between a line `alias name=text` and the table of aliases stand the validator, the splitting into
words, tildes and the builtin itself.  A name that is a word without marks comes through all of
them, and the text comes through with its tildes expanded and one space between its words
(`Shell.exists_value`).  So the line does what `AliasTable.add` does, and from then on the name
stands for what was defined (`line_defines_alias`).
-/

set_option autoImplicit false

namespace PipeShell

open Text

/-- A name that nothing takes apart on its way to the table. -/
structure AliasTable.Nameable (name : String) : Prop extends IsWord name where
  unequal : '=' ∉ name.toList
  unmarked : Line.Plain name.toList
  untilded : Homes.Plain name

/-! ## From the line to the builtin -/

/-- A text as a builtin gets it: tildes expanded in every word, and one space between the words. -/
def Shell.given (sh : Shell) (text : String) : String :=
  unwords ((words text).map sh.homes.expand)

/-- The name and the first `=` come through, because no tilde and no white space stand in them. -/
theorem Shell.exists_value (sh : Shell) {name : String} (nameable : AliasTable.Nameable name)
    (text : String) : ∃ value, sh.given (name ++ "=" ++ text) = name ++ "=" ++ value := by
  have filled : name ++ "=" ≠ "" := by simp
  have dense : Dense (name ++ "=").toList := by
    intro c member
    rw [String.toList_append] at member
    rcases List.mem_append.mp member with inName | equals
    · exact nameable.dense c inName
    · obtain rfl := List.mem_singleton.mp equals
      decide
  obtain ⟨more, rest, begun⟩ := exists_words_append filled dense text
  have untilded : Homes.Plain (name ++ "=" ++ more) := by
    rw [String.append_assoc]
    exact Homes.plain_append nameable.written nameable.untilded _
  obtain ⟨behind, joined⟩ :=
    exists_unwords_cons (name ++ "=" ++ more) (rest.map sh.homes.expand)
  refine ⟨more ++ behind, ?_⟩
  rw [given, begun, List.map_cons, Homes.expand_of_plain untilded, joined, String.append_assoc]

theorem Compile.arguments_of_unbound {sh : Shell} {command : String} (isWord : IsWord command)
    (untilded : Homes.Plain command) (unbound : sh.session.aliases.get? command = none)
    (text : String) : arguments sh.context (command ++ " " ++ text) =
      command :: (words text).map sh.homes.expand := by
  have kept : sh.context.expandTilde command = command := Homes.expand_of_plain untilded
  have itself : sh.context.expandAlias command = command := AliasTable.expand_of_unbound unbound
  refine arguments_eq_cons_iff.mpr ⟨command, _, [], ?_, ?_, List.nil_append _⟩
  · rw [words_append_space isWord, List.map_cons, kept]
    rfl
  · rw [itself, words_of_isWord isWord]

/-- The line is accepted and calls the builtin. -/
theorem Shell.calls_defineAlias {sh : Shell}
    (unbound : sh.session.aliases.get? "alias" = none) {text : String}
    (plain : Line.Plain text.toList) :
    sh.context.Calls ("alias" ++ " " ++ text) .defineAlias
      ("alias" :: (words text).map sh.homes.expand) := by
  have isWord : IsWord "alias" := ⟨by decide, hasWhiteSpace_eq_false_iff.mp (by decide)⟩
  have called := Compile.arguments_of_unbound isWord (by decide) unbound text
  have unmarked : Line.Plain ("alias" ++ " " ++ text).toList := by
    have before : Line.Plain ("alias" ++ " ").toList := ⟨by decide, by decide, by decide⟩
    rw [String.toList_append]
    exact before.append plain
  have compiled := compile_eq_single_iff.mpr ⟨unmarked, "alias", _, called, rfl⟩
  exact ⟨_, _, compiled, rfl, rfl, Builtin.ofName?_name .defineAlias, rfl⟩

/-! ## From the builtin to the table -/

/-- The name ends at the first `=`, and it has no white space to be trimmed. -/
theorem Builtin.runDefineAlias_of_definition {args : List String} {name value : String}
    (unequal : '=' ∉ name.toList) (dense : Dense name.toList)
    (definition : unwords args = name ++ "=" ++ value) (sink : Sink) (sh : Shell) :
    runDefineAlias args sink sh =
      if value.toList.contains '=' then fail (.usage defineAlias.name) sink sh
      else match sh.session.aliases.add name (unquoted value) with
        | .error cause => fail cause sink sh
        | .ok aliases =>
          (.done .proceed, sink, { sh with session := { sh.session with aliases } }) := by
  have filled : args ≠ [] := by
    rintro rfl
    have empty : (name ++ "=" ++ value).toList = [] := congrArg String.toList definition.symm
    simp at empty
  have shape : (name ++ "=" ++ value).toList = name.toList ++ '=' :: value.toList := by simp
  have cut : splitAtFirst '=' (unwords args) = some (name, value) := by
    rw [definition, splitAtFirst, cutOnce_eq_some_iff.mpr ⟨shape, unequal⟩]
    simp
  have trimmed : trim name = name := trim_of_dense dense
  cases outcome : sh.session.aliases.add name (unquoted value) with
  | error cause => simp only [runDefineAlias, if_neg filled, cut, trimmed, outcome]
  | ok aliases => simp only [runDefineAlias, if_neg filled, cut, trimmed, outcome]

/-! ## From the table to the name -/

/-- A name stands for what the first word of its value stands for, and the other words of it. -/
theorem Compile.arguments_of_bound {sh : Shell} {name value : String}
    (sound : sh.session.aliases.Sound) (bound : sh.session.aliases.get? name = some value)
    (untilded : Homes.Plain name) :
    ∃ first rest, arguments sh.context name = first :: rest ∧ first :: rest =
      words (sh.session.aliases.expand (firstWord value)) ++ (words value).tail := by
  obtain ⟨nonempty, unspaced⟩ := sound.named name value bound
  have isWord : IsWord name := ⟨nonempty, hasWhiteSpace_eq_false_iff.mp unspaced⟩
  have kept : sh.context.expandTilde name = name := Homes.expand_of_plain untilded
  obtain ⟨first, rest, shape, -⟩ := (sound.words_expand isWord).head
  have expanded : words (sh.context.expandAlias name) = first :: rest := shape
  refine ⟨first, rest, ?_, shape.symm.trans (sound.words_expand_of_get? bound)⟩
  refine arguments_eq_cons_iff.mpr ⟨name, [], rest, ?_, expanded, List.append_nil rest⟩
  rw [words_of_isWord isWord, List.map_singleton, kept]

/-- The shell with other aliases. -/
def Shell.withAliases (sh : Shell) (aliases : AliasTable) : Shell :=
  { sh with session := { sh.session with aliases } }

theorem Shell.exists_stage_of_added {sh : Shell} {name value : String} {aliases : AliasTable}
    (sound : sh.session.aliases.Sound) (nameable : AliasTable.Nameable name)
    (added : sh.session.aliases.add name value = .ok aliases) :
    ∃ stage, compile (sh.withAliases aliases).context name = .ok (.single stage) ∧
      stage.argv = words (aliases.expand (firstWord value)) ++ (words value).tail := by
  have sound' : (sh.withAliases aliases).session.aliases.Sound := by
    have after := AliasTable.sound_after sound (.add name value)
    rwa [AliasTable.after_of_add added] at after
  have bound : (sh.withAliases aliases).session.aliases.get? name = some (trim value) := by
    obtain ⟨-, -, -, rfl⟩ := AliasTable.add_eq_ok_iff.mp added
    exact (AliasTable.get?_define ..).trans (if_pos rfl)
  obtain ⟨first, rest, called, stands⟩ :=
    Compile.arguments_of_bound sound' bound nameable.untilded
  rw [firstWord_trim, words_trim] at stands
  exact ⟨_, compile_eq_single_iff.mpr ⟨nameable.unmarked, first, rest, called, rfl⟩, stands⟩

/-! ## The line -/

/-- What a line comes to that gives a name this value. -/
structure Shell.DefinesBy (sh : Shell) (order : Handshake) (ended : List WaitStatus)
    (line name value : String) : Prop where
  unstarted : Launcher.processes (calls (Job.launcher order) line (sh, ended)) = []
  misused : '=' ∈ value.toList → eval (Job.launcher order) line (sh, ended) =
    (.error (.builtin (.usage Builtin.defineAlias.name)), sh, ended)
  refused : '=' ∉ value.toList → ∀ cause,
    sh.session.aliases.add name (Builtin.unquoted value) = .error cause →
      eval (Job.launcher order) line (sh, ended) = (.error (.builtin cause), sh, ended)
  taken : '=' ∉ value.toList → ∀ aliases,
    sh.session.aliases.add name (Builtin.unquoted value) = .ok aliases →
      eval (Job.launcher order) line (sh, ended) = (.ok .proceed, sh.withAliases aliases, ended)
  /-- From then on, the name calls what its value says. -/
  stands : ∀ aliases, sh.session.aliases.add name (Builtin.unquoted value) = .ok aliases →
    ∃ stage, compile (sh.withAliases aliases).context name = .ok (.single stage) ∧
      stage.argv = words (aliases.expand (firstWord (Builtin.unquoted value))) ++
        (words (Builtin.unquoted value)).tail

/-- In every session in which `alias` is no alias: a line that defines one starts nothing and does
what adding the definition does, with the text as it comes through the line and without quotes.
After that, the name stands for it. -/
theorem line_defines_alias (sh : Shell) (lives : sh.Lives)
    (unbound : sh.session.aliases.get? "alias" = none) (name text : String)
    (nameable : AliasTable.Nameable name) (plain : Line.Plain text.toList) (order : Handshake)
    (ended : List WaitStatus) :
    ∃ value, sh.given (name ++ "=" ++ text) = name ++ "=" ++ value ∧
      sh.DefinesBy order ended ("alias" ++ " " ++ (name ++ "=" ++ text)) name value := by
  obtain ⟨value, through⟩ := sh.exists_value nameable text
  have unmarked : Line.Plain (name ++ "=" ++ text).toList := by
    have equals : Line.Plain "=".toList := ⟨by decide, by decide, by decide⟩
    rw [String.toList_append, String.toList_append]
    exact (nameable.unmarked.append equals).append plain
  have builtins := Shell.calls_defineAlias unbound unmarked
  have ran := Builtin.runDefineAlias_of_definition nameable.unequal nameable.dense through {} sh
  refine ⟨value, through, processes_calls_of_calls order builtins, ?_, ?_, ?_, ?_⟩
  · intro second
    rw [if_pos (List.contains_iff_mem.mpr second)] at ran
    exact eval_of_quiet_call order ended builtins ran
  · intro single cause refused
    rw [if_neg (fun second => single (List.contains_iff_mem.mp second)), refused] at ran
    exact eval_of_quiet_call order ended builtins ran
  · intro single aliases added
    rw [if_neg (fun second => single (List.contains_iff_mem.mp second)), added] at ran
    exact eval_of_quiet_call order ended builtins ran
  · intro aliases added
    exact Shell.exists_stage_of_added lives.sound nameable added

/-- The new alias begins with an alias itself, and the spaces of its value are put together. -/
theorem line_defines_alias_la :
    listingShell.Lives ∧ listingShell.session.aliases.get? "alias" = none ∧
    AliasTable.Nameable "la" ∧ Line.Plain "\"ll   -a\"".toList ∧
    (∃ value, listingShell.given ("la" ++ "=" ++ "\"ll   -a\"") = "la" ++ "=" ++ value ∧
      listingShell.DefinesBy .joinAdoptExec []
        ("alias" ++ " " ++ ("la" ++ "=" ++ "\"ll   -a\"")) "la" value) ∧
    listingShell.given "la=\"ll   -a\"" = "la=\"ll -a\"" ∧
    (listingShell.session.aliases.add "la" (Builtin.unquoted "\"ll -a\"")).toOption.map
      (fun aliases => words (aliases.expand "la")) = some ["exa", "--color", "-l", "-a"] := by
  have unbound : listingShell.session.aliases.get? "alias" = none := by decide
  have isWord : IsWord "la" := ⟨by decide, hasWhiteSpace_eq_false_iff.mp (by decide)⟩
  have unmarked : Line.Plain "la".toList := ⟨by decide, by decide, by decide⟩
  have nameable : AliasTable.Nameable "la" := ⟨isWord, by decide, unmarked, by decide⟩
  have plain : Line.Plain "\"ll   -a\"".toList := ⟨by decide, by decide, by decide⟩
  refine ⟨lives_listingShell, unbound, nameable, plain, ?_, by decide +kernel, by decide +kernel⟩
  exact line_defines_alias listingShell lives_listingShell unbound "la" "\"ll   -a\"" nameable plain
    .joinAdoptExec []

end PipeShell
