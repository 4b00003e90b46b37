import PipeShell.Proofs.Alias.Expansion
import PipeShell.Proofs.Compile.Stages
import PipeShell.Proofs.Session.Development
import PipeShell.Proofs.Tilde

/-!
# An alias and its value

In a session, a command that is an alias can be replaced by the text of its value, and the line
compiles to the same (`alias_is_as_good_as_its_value`).  The arguments are the same on both sides
because expansion takes one step from the alias to the first word of its value; tildes do not come
in between, as long as neither the alias nor a word of its value begins with one.
-/

set_option autoImplicit false

namespace PipeShell

/-- The words of a plain value stay as they are, and its first word stands for what the alias stands
for. -/
theorem Compile.arguments_of_alias {sh : Shell} {name value behind : String}
    (sound : sh.session.aliases.Sound) (bound : sh.session.aliases.get? name = some value)
    (plain : Homes.Plain name) (plainValue : ∀ word ∈ Text.words value, Homes.Plain word)
    (apart : ∀ c ∈ behind.toList.head?, Text.isWhiteSpace c = true) :
    arguments sh.context (name ++ behind) = arguments sh.context (value ++ behind) := by
  obtain ⟨nonempty, unspaced⟩ := sound.named name value bound
  have isWord : Text.IsWord name := ⟨nonempty, Text.hasWhiteSpace_eq_false_iff.mp unspaced⟩
  have cut := Text.words_eq_cons (sound.valued name value bound).2
  have others : (Text.words behind).map sh.context.expandTilde =
      (Text.words behind).map sh.homes.expand := rfl
  have left : (Text.words (name ++ behind)).map sh.context.expandTilde =
      name :: (Text.words behind).map sh.homes.expand := by
    rw [Text.words_append apart, Text.words_of_isWord isWord, List.map_append, others]
    exact congrArg (· :: _) (Homes.expand_of_plain plain)
  have right : (Text.words (value ++ behind)).map sh.context.expandTilde =
      Text.firstWord value ::
        ((Text.words value).tail ++ (Text.words behind).map sh.homes.expand) := by
    have kept : (Text.words value).map sh.context.expandTilde = Text.words value :=
      Homes.map_expand_of_plain plainValue
    rw [Text.words_append apart, List.map_append, kept, others, ← List.cons_append, ← cut]
  have step : Text.words (sh.context.expandAlias name) =
      Text.words (sh.context.expandAlias (Text.firstWord value)) ++ (Text.words value).tail :=
    sound.words_expand_of_get? bound
  have filled : Text.words (sh.context.expandAlias (Text.firstWord value)) ≠ [] := by
    obtain ⟨first, rest, shape, -⟩ :=
      (sound.words_expand (sound.isWord_firstWord bound)).head
    intro empty
    exact List.cons_ne_nil first rest (shape.symm.trans empty)
  obtain ⟨first, rest, shape⟩ := List.exists_cons_of_ne_nil filled
  unfold arguments
  rw [left, right]
  dsimp only
  rw [step, shape]
  simp

/-- Whatever stands before and behind it in the line, a command that is an alias and its value give
the same pipeline, or the same error. -/
theorem alias_is_as_good_as_its_value (sh : Shell) (lives : sh.Lives) (name value : String)
    (bound : sh.session.aliases.get? name = some value) (plain : Homes.Plain name)
    (plainValue : ∀ word ∈ Text.words value, Homes.Plain word) (args : String)
    (apart : ∀ c ∈ args.toList.head?, Text.isWhiteSpace c = true)
    (before behind : List String) (input output : Option String) :
    Compile.segments sh.context
        { stages := before ++ (name ++ args) :: behind, input, output } =
      Compile.segments sh.context
        { stages := before ++ (value ++ args) :: behind, input, output } := by
  have same := Compile.arguments_of_alias lives.sound bound plain plainValue apart
  have kept : ∀ stages : List String, List.Forall₂ (fun text text' =>
      Compile.arguments sh.context text = Compile.arguments sh.context text') stages stages :=
    fun stages => List.forall₂_same.mpr fun _ _ => rfl
  exact Compile.segments_congr (List.rel_append (kept before) (.cons same (kept behind))) rfl rfl

/-- A shell in which `ll` leads on to `ls`, and that to `exa`. -/
def listingShell : Shell :=
  { bareShell with
    session := { bareShell.session with
      aliases := ⟨Dictionary.ofList [("ll", "ls -l"), ("ls", "exa --color")]⟩ } }

theorem lives_listingShell : listingShell.Lives := by
  have added : AliasTable.empty.addAll listingShell.session.aliases.toList =
      .ok listingShell.session.aliases := by decide +kernel
  have adopted : bareShell.adoptAliases listingShell.session.aliases.bindings = listingShell :=
    Shell.foldl_adoptAlias_of_addAll added
  have started : Shell.start { prompt := "$ ", aliases := listingShell.session.aliases.bindings }
      Wiring.bareMachine = some listingShell := congrArg some adopted
  exact .start started

/-- The value of `ll` begins with an alias, its last word is followed by an argument with a tilde,
and the stage stands between two others. -/
theorem alias_is_as_good_as_its_value_for_ll :
    listingShell.Lives ∧ listingShell.session.aliases.get? "ll" = some "ls -l" ∧
    Homes.Plain "ll" ∧ (∀ word ∈ Text.words "ls -l", Homes.Plain word) ∧
    (∀ c ∈ "  ~/src".toList.head?, Text.isWhiteSpace c = true) ∧
    Compile.segments listingShell.context
        { stages := ["yes", "ll  ~/src", "sort"], input := some "in", output := none } =
      Compile.segments listingShell.context
        { stages := ["yes", "ls -l  ~/src", "sort"], input := some "in", output := none } ∧
    (Compile.segments listingShell.context
        { stages := ["yes", "ll  ~/src", "sort"], input := some "in", output := none }).toOption.map
      (fun p => p.stages.map (·.argv)) =
        some [["yes"], ["exa", "--color", "-l", "~/src"], ["sort"]] := by
  have bound : listingShell.session.aliases.get? "ll" = some "ls -l" := by decide
  have plain : Homes.Plain "ll" := by decide
  have plainValue : ∀ word ∈ Text.words "ls -l", Homes.Plain word := by decide
  have apart : ∀ c ∈ "  ~/src".toList.head?, Text.isWhiteSpace c = true := by
    intro c first
    have space : "  ~/src".toList.head? = some ' ' := by decide
    rw [space, Option.mem_some_iff] at first
    subst first
    decide
  refine ⟨lives_listingShell, bound, plain, plainValue, apart, ?_, by decide +kernel⟩
  exact alias_is_as_good_as_its_value listingShell lives_listingShell "ll" "ls -l" bound plain
    plainValue "  ~/src" apart ["yes"] ["sort"] (some "in") none

end PipeShell
