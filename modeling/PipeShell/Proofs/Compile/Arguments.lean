import PipeShell.Proofs.Alias.Expansion
import PipeShell.Proofs.Compile.Coherence
import PipeShell.Proofs.Supervisor.Steps
import PipeShell.Proofs.Tilde

/-!
# Arguments of stages without an alias

The words of a stage become its arguments, one for each word, with their tildes expanded.  This
holds of every word but the first, whatever the home directories are.  The command is taken apart
at white space once more, because an alias may stand for several words; where it is no alias, it
stays one argument just when the home directory that it names has no white space
(`unaliased_words_become_arguments`).
-/

set_option autoImplicit false

namespace PipeShell

open Text

/-- What the words of a text, the first of which is no alias, have become in its stage. -/
structure Stage.Keeps (homes : Homes) (first : String) (rest : List String) (stage : Stage) :
    Prop where
  taken : stage.argv = words (homes.expand first) ++ rest.map homes.expand
  named : stage.argv.head? = some stage.name
  whole : stage.argv = (first :: rest).map homes.expand ↔
    ∀ home, homes.named? first = some home → hasWhiteSpace home = false

/-- A word, once its tilde is expanded, is one word still, unless a home directory breaks it or is
empty. -/
theorem Homes.words_expand_iff {homes : Homes} {word : String} (isWord : IsWord word)
    (filled : words (homes.expand word) ≠ []) : words (homes.expand word) = [homes.expand word] ↔
      ∀ home, homes.named? word = some home → hasWhiteSpace home = false := by
  have broken : hasWhiteSpace (homes.expand word) = true ↔
      ∃ home, homes.named? word = some home ∧ hasWhiteSpace home = true :=
    Homes.hasWhiteSpace_expand_iff isWord.dense
  have written : homes.expand word ≠ "" := by
    intro empty
    rw [empty] at filled
    exact filled rfl
  constructor
  · intro single home named
    have member : homes.expand word ∈ words (homes.expand word) := by
      rw [single]
      exact List.mem_singleton_self _
    have dense := (mem_words member).2
    by_contra spaced
    rw [Bool.not_eq_false] at spaced
    rw [broken.mpr ⟨home, named, spaced⟩] at dense
    cases dense
  · intro unbroken
    refine words_of_isWord ⟨written, hasWhiteSpace_eq_false_iff.mp ?_⟩
    by_contra spaced
    rw [Bool.not_eq_false] at spaced
    obtain ⟨home, named, inside⟩ := broken.mp spaced
    rw [unbroken home named] at inside
    cases inside

/-- A text that gives a stage its arguments has a first word. -/
theorem Stage.keeps_of_arguments {sh : Shell} {text : String} {stage : Stage}
    (called : Compile.arguments sh.context text = stage.argv)
    (named : stage.argv.head? = some stage.name) :
    ∃ first rest, words text = first :: rest ∧
      (sh.session.aliases.get? (sh.homes.expand first) = none →
        stage.Keeps sh.homes first rest) := by
  obtain ⟨behind, argv⟩ : ∃ behind, stage.argv = stage.name :: behind :=
    List.head?_eq_some_iff.mp named
  obtain ⟨command, others, more, expanded, split, joined⟩ :=
    Compile.arguments_eq_cons_iff.mp (called.trans argv)
  cases written : words text with
  | nil =>
      rw [written] at expanded
      cases expanded
  | cons first rest =>
      refine ⟨first, rest, rfl, fun unbound => ?_⟩
      rw [written, List.map_cons] at expanded
      obtain ⟨rfl, rfl⟩ := List.cons.inj expanded
      have itself : sh.context.expandAlias (sh.context.expandTilde first) =
          sh.homes.expand first := AliasTable.expand_of_unbound unbound
      rw [itself] at split
      have taken : stage.argv = words (sh.homes.expand first) ++ rest.map sh.homes.expand := by
        rw [argv, split, List.cons_append, ← joined]
        rfl
      have isWord : IsWord first := isWord_of_mem (by rw [written]; exact List.mem_cons_self)
      have filled : words (sh.homes.expand first) ≠ [] := by
        rw [split]
        exact List.cons_ne_nil _ _
      refine ⟨taken, named, ?_⟩
      -- what the other words give is the same on both sides
      rw [taken, List.map_cons, ← List.singleton_append, List.append_left_inj,
        Homes.words_expand_iff isWord filled]

/-- In every session and whatever the home directories are: a stage whose command is no alias has
the words of its text as arguments, one for each word and in their order, just when no white space
comes into the command with a home directory. -/
theorem unaliased_words_become_arguments (sh : Shell) (line : String) (p : Pipeline)
    (compiled : compile sh.context line = .ok p) :
    ∃ s, Line.parse line = .ok s ∧
      List.Forall₂ (fun text stage => ∃ first rest, words text = first :: rest ∧
        (sh.session.aliases.get? (sh.homes.expand first) = none →
          stage.Keeps sh.homes first rest)) s.stages p.stages := by
  obtain ⟨s, accepted, fromSegments⟩ := compile_eq_ok_iff.mp compiled
  have coherent := coherent_of_compile compiled
  refine ⟨s, accepted, ?_⟩
  have each := Compile.arguments_of_segments fromSegments
  have together := List.forall₂_iff_zip.mp each
  refine List.forall₂_iff_zip.mpr ⟨together.1, fun {text stage} member => ?_⟩
  exact Stage.keeps_of_arguments (together.2 member)
    (coherent.called stage (List.of_mem_zip member).2)

/-- A shell whose user lives in this directory. -/
def shellAtHome (home : String) : Shell :=
  { bareShell with
    machine := { bareShell.machine with
      env := Dictionary.ofList [(Environment.homeName, encode home)] } }

/-- What `~/run ~ -x | sort` compiles to for a user at home in `/home/u`. -/
def runSort : Pipeline where
  stages :=
    [{ name := "/home/u/run", argv := ["/home/u/run", "/home/u", "-x"], isBuiltin := false
       input := .stdio, output := .pipe },
      { name := "sort", argv := ["sort"], isBuiltin := false, input := .pipe, output := .stdio }]
  inputFile := none
  outputFile := none

theorem unaliased_words_become_arguments_of_run :
    compile (shellAtHome "/home/u").context "~/run ~ -x | sort" = .ok runSort ∧
    ∃ s, Line.parse "~/run ~ -x | sort" = .ok s ∧
      List.Forall₂ (fun text stage => ∃ first rest, words text = first :: rest ∧
        ((shellAtHome "/home/u").session.aliases.get?
            ((shellAtHome "/home/u").homes.expand first) = none →
          stage.Keeps (shellAtHome "/home/u").homes first rest)) s.stages runSort.stages := by
  have compiled : compile (shellAtHome "/home/u").context "~/run ~ -x | sort" = .ok runSort := by
    decide +kernel
  exact ⟨compiled, unaliased_words_become_arguments _ _ _ compiled⟩

/-- The space in the home directory divides the command, which is no alias, but not the argument
behind it. -/
theorem command_breaks_at_spaced_home :
    (compile (shellAtHome "/home/a b").context "~/run ~/in").toOption.map
        (fun p => p.stages.map (·.argv)) = some [["/home/a", "b/run", "/home/a b/in"]] ∧
    (words "~/run ~/in").map (shellAtHome "/home/a b").homes.expand =
      ["/home/a b/run", "/home/a b/in"] ∧
    (shellAtHome "/home/a b").session.aliases.get? "/home/a b/run" = none := by
  decide +kernel

end PipeShell
