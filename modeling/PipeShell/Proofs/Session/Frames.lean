import PipeShell.Proofs.SearchPath.Sessions

/-!
# What a call of a builtin changes

A shell is the whole of its components (`Shell.eq_of_same`), and each builtin is there to change a
few of them or none (`Builtin.aims`).  Before it has made all of its change, a builtin prints
nothing and can only fail with nothing changed; what it prints, and whether that can be written,
makes no difference to the shell.  So a call is a whole `Effect` or none (`Builtin.ends_run`).

Only `cd` can fail when its change is made: it still has to find out where it is and to print it.
That is the one exception of `Builtin.calls_change_all_or_nothing`.
-/

set_option autoImplicit false

namespace PipeShell

/-! ## Components -/

/-- What a shell consists of. -/
inductive Component where
  | prompt
  | aliases
  | history
  | group
  | addedPaths
  | warnings
  /-- The working directory. -/
  | directory
  /-- A variable of the environment. -/
  | environment (name : String)
  /-- The machine, but for the working directory and the environment. -/
  | surroundings
  deriving DecidableEq

/-- The component is the same in both shells. -/
def Component.Same (sh sh' : Shell) : Component → Prop
  | prompt => sh'.session.prompt = sh.session.prompt
  | aliases => sh'.session.aliases = sh.session.aliases
  | history => sh'.session.history = sh.session.history
  | group => sh'.session.group = sh.session.group
  | addedPaths => sh'.session.addedPaths = sh.session.addedPaths
  | warnings => sh'.log = sh.log
  | directory => sh'.machine.cwd = sh.machine.cwd
  | environment name => sh'.machine.env.get? name = sh.machine.env.get? name
  | surroundings => { sh'.machine with cwd := sh.machine.cwd, env := sh.machine.env } = sh.machine

theorem Component.Same.refl (sh : Shell) (c : Component) : c.Same sh sh := by
  cases c <;> rfl

open Component (Same)

/-- There is nothing else to a shell. -/
theorem Shell.eq_of_same {sh sh' : Shell} (same : ∀ c, Same sh sh' c) : sh' = sh := by
  have env : sh'.machine.env = sh.machine.env :=
    Dictionary.ext_get? fun name => same (.environment name)
  have machine : sh'.machine = sh.machine := by
    have around : { sh'.machine with cwd := sh.machine.cwd, env := sh.machine.env } = sh.machine :=
      same .surroundings
    rw [← same .directory, ← env] at around
    exact around
  have prompt := same .prompt
  have aliases := same .aliases
  have history := same .history
  have group := same .group
  have addedPaths := same .addedPaths
  have log := same .warnings
  obtain ⟨⟨_, _, _, _, _⟩, _, _⟩ := sh
  obtain ⟨⟨_, _, _, _, _⟩, _, _⟩ := sh'
  simp_all [Same]

namespace Builtin

/-! ## Effects -/

/-- What a builtin called with these arguments is there to change. -/
def aims : Builtin → List String → List Component
  | defineAlias, _ :: _ => [.aliases]
  | removeAlias, _ => [.aliases]
  | set, "prompt" :: _ => [.prompt]
  | set, "path" :: _ => [.addedPaths, .environment Environment.pathName]
  | cd, _ => [.directory, .environment Environment.directoryName]
  | _, _ => []

/-- Where `cd` is sent. -/
def destination? (sh : Shell) : List String → Option String
  | [] => sh.machine.env.text? Environment.homeName
  | [directory] => some directory
  | _ => none

/-- The whole change of a builtin. -/
inductive Effect (sh : Shell) : Builtin → List String → Shell → Prop where
  | defined {args : List String} {name value : String} {aliases : AliasTable} (given : args ≠ [])
      (written : Text.splitAtFirst '=' (Text.unwords args) = some (name, value))
      (added : sh.session.aliases.add (Text.trim name) (unquoted value) = .ok aliases) :
      Effect sh defineAlias args { sh with session := { sh.session with aliases } }
  | removed {name : String} {aliases : AliasTable}
      (taken : sh.session.aliases.remove name = some aliases) :
      Effect sh removeAlias [name] { sh with session := { sh.session with aliases } }
  | prompted {prompt : String} :
      Effect sh set ["prompt", prompt] { sh with session := { sh.session with prompt } }
  | extended {directories : List String} {env : Environment}
      (list : env.get? Environment.pathName =
        SearchPath.grown (sh.machine.env.get? Environment.pathName) directories)
      (others : ∀ name, name ≠ Environment.pathName →
        env.get? name = sh.machine.env.get? name) :
      Effect sh set ("path" :: directories)
        { sh with
          session := { sh.session with addedPaths := sh.session.addedPaths ++ directories }
          machine := { sh.machine with env } }
  | moved {args : List String} {directory : String} {machine : Machine} {here : Bytes}
      (sent : destination? sh args = some directory)
      (went : sh.machine.changeDirectory directory = .ok machine)
      (found : machine.workingDirectory = .ok here) :
      Effect sh cd args
        { sh with
          machine := { machine with env := machine.env.insert Environment.directoryName here } }

/-- The ways in which a call can end, with what is left of the shell. -/
inductive Ends (sh : Shell) (b : Builtin) (args : List String) : Outcome → Shell → Prop where
  | refused (cause : BuiltinError) : Ends sh b args (.failed cause) sh
  | shown (flow : Flow) (idle : b.aims args = []) : Ends sh b args (.done flow) sh
  | changed {sh' : Shell} (flow : Flow) (effect : Effect sh b args sh') :
      Ends sh b args (.done flow) sh'
  /-- It is gone from where it was, and cannot tell where it is. -/
  | lost {directory : String} {machine : Machine} (cause : BuiltinError) (moving : b = cd)
      (sent : destination? sh args = some directory)
      (went : sh.machine.changeDirectory directory = .ok machine) :
      Ends sh b args (.failed cause) { sh with machine }
  /-- It has moved and cannot print where to. -/
  | unprinted {sh' : Shell} (cause : BuiltinError) (moving : b = cd)
      (effect : Effect sh b args sh') : Ends sh b args (.failed cause) sh'
  /-- The shell did not survive. -/
  | fatal (sh' : Shell) : Ends sh b args .aborted sh'

variable {b : Builtin} {args : List String} {sink : Sink} {sh sh' : Shell} {c : Component}

/-- What is printed is printed as a whole, or the call fails. -/
theorem printAll_cases (sink : Sink) (texts : List String) :
    (printAll sink texts).1 = .done .proceed ∨
      ∃ cause, (printAll sink texts).1 = .failed cause := by
  induction texts generalizing sink with
  | nil => exact .inl rfl
  | cons text rest ih =>
      rw [printAll]
      split
      · exact ih _
      · exact .inr ⟨_, rfl⟩

theorem ends_report (idle : b.aims args = []) (texts : List String) :
    Ends sh b args (report sink sh texts).1 (report sink sh texts).2.2 := by
  show Ends sh b args (printAll sink texts).1 sh
  rcases printAll_cases sink texts with done | ⟨cause, failed⟩
  · rw [done]
    exact .shown _ idle
  · rw [failed]
    exact .refused cause

/-! ## One builtin after the other -/

theorem ends_runDefineAlias (args : List String) (sink : Sink) (sh : Shell) :
    Ends sh defineAlias args (runDefineAlias args sink sh).1 (runDefineAlias args sink sh).2.2 := by
  unfold runDefineAlias
  split
  · next none =>
      subst none
      exact ends_report rfl _
  · next given =>
      split
      · exact .refused _
      · next name value written =>
          split
          · exact .refused _
          · split
            · exact .refused _
            · next aliases added => exact .changed _ (.defined given written added)

theorem ends_runRemoveAlias (args : List String) (sink : Sink) (sh : Shell) :
    Ends sh removeAlias args (runRemoveAlias args sink sh).1 (runRemoveAlias args sink sh).2.2 := by
  unfold runRemoveAlias
  split
  · split
    · exact .refused _
    · next aliases taken => exact .changed _ (.removed taken)
  · exact .refused _

theorem get?_of_addAllToPath_of_ne {directories : List String} {name : String}
    (added : sh.addAllToPath directories = some sh') (other : name ≠ Environment.pathName) :
    sh'.machine.env.get? name = sh.machine.env.get? name := by
  induction directories generalizing sh with
  | nil =>
      cases added
      rfl
  | cons directory directories ih =>
      rw [Shell.addAllToPath, List.foldlM_cons] at added
      obtain ⟨between, one, rest⟩ := Option.bind_eq_some_iff.mp added
      obtain ⟨env, stored, rfl⟩ := Option.map_eq_some_iff.mp one
      rw [ih rest, Environment.get?_of_addToPath stored, if_neg other]

theorem effect_of_addAllToPath {directories : List String}
    (added : sh.addAllToPath directories = some sh') :
    Effect sh set ("path" :: directories) sh' := by
  have list := Shell.get?_of_addAllToPath added
  have others : ∀ name, name ≠ Environment.pathName →
      sh'.machine.env.get? name = sh.machine.env.get? name :=
    fun _ other => get?_of_addAllToPath_of_ne added other
  obtain ⟨env, rfl⟩ := Shell.addAllToPath_spec added
  exact .extended list others

theorem ends_runSet (args : List String) (sink : Sink) (sh : Shell) :
    Ends sh set args (runSet args sink sh).1 (runSet args sink sh).2.2 := by
  unfold runSet
  split
  · exact ends_report rfl _
  · split
    · exact .fatal _
    · next added => exact .changed _ (effect_of_addAllToPath added)
  · exact .changed _ .prompted
  · exact .refused _

theorem ends_runHelp (args : List String) (sink : Sink) (sh : Shell) :
    Ends sh help args (runHelp args sink sh).1 (runHelp args sink sh).2.2 := by
  unfold runHelp
  split
  · split
    · exact ends_report rfl _
    · exact .refused _
  · exact ends_report rfl _

theorem ends_runPwd (args : List String) (sink : Sink) (sh : Shell) :
    Ends sh pwd args (runPwd sink sh).1 (runPwd sink sh).2.2 := by
  unfold runPwd
  split
  · exact .refused _
  · exact ends_report rfl _

theorem ends_runCd (args : List String) (sink : Sink) (sh : Shell) :
    Ends sh cd args (runCd args sink sh).1 (runCd args sink sh).2.2 := by
  unfold runCd
  dsimp only
  split
  · exact .refused _
  · next directory target =>
      have sent : destination? sh args = some directory := by
        unfold destination?
        split at target
        · split at target
          · next home =>
              obtain rfl := Except.ok.inj target
              exact home
          · cases target
        · obtain rfl := Except.ok.inj target
          rfl
        · cases target
      split
      · exact .refused _
      · next machine went =>
          split
          · exact .lost _ rfl sent went
          · next here found =>
              have effect : Effect sh cd args { sh with
                  machine := { machine with
                    env := machine.env.insert Environment.directoryName here } } :=
                .moved sent went found
              -- what is printed may fail, but the shell has moved
              rcases printAll_cases sink [s!"Changed directory to: {Text.decodeLossy here}\n"] with
                done | ⟨cause, failed⟩
              · exact done ▸ .changed .proceed effect
              · exact failed ▸ .unprinted cause rfl effect

/-- A call changes nothing, makes its whole change, or is that of a `cd` which fails behind it. -/
theorem ends_run (b : Builtin) (argv : List String) (sink : Sink) (sh : Shell) :
    Ends sh b (argv.drop 1) (b.run argv sink sh).1 (b.run argv sink sh).2.2 := by
  cases b with
  | defineAlias => exact ends_runDefineAlias ..
  | bye => exact .shown _ rfl
  | cd => exact ends_runCd ..
  | clear => exact ends_report rfl _
  | help => exact ends_runHelp ..
  | history => exact ends_report rfl _
  | prev => exact ends_report rfl _
  | pwd => exact ends_runPwd ..
  | set => exact ends_runSet ..
  | removeAlias => exact ends_runRemoveAlias ..

/-! ## What a call may change -/

theorem Effect.same (effect : Effect sh b args sh') (outside : c ∉ b.aims args) :
    Same sh sh' c := by
  cases effect with
  | defined given =>
      obtain ⟨first, rest, rfl⟩ := List.exists_cons_of_ne_nil given
      have other : c ≠ .aliases := by simpa [aims] using outside
      cases c <;> first | rfl | contradiction
  | removed =>
      have other : c ≠ .aliases := by simpa [aims] using outside
      cases c <;> first | rfl | contradiction
  | prompted =>
      have other : c ≠ .prompt := by simpa [aims] using outside
      cases c <;> first | rfl | contradiction
  | extended list others =>
      obtain ⟨notPaths, notList⟩ : c ≠ .addedPaths ∧ c ≠ .environment Environment.pathName := by
        simpa [aims] using outside
      cases c with
      | addedPaths => contradiction
      | environment name => exact others name fun same => notList (same ▸ rfl)
      | _ => rfl
  | moved sent went found =>
      obtain ⟨notHere, notNamed⟩ :
          c ≠ .directory ∧ c ≠ .environment Environment.directoryName := by
        simpa [aims] using outside
      obtain ⟨cwd, rfl⟩ := Machine.eq_of_changeDirectory went
      cases c with
      | directory => contradiction
      | environment name =>
          have other : name ≠ Environment.directoryName := fun same => notNamed (same ▸ rfl)
          exact (Dictionary.get?_insert ..).trans (if_neg other)
      | _ => rfl

/-- Going somewhere does no more than that. -/
theorem same_of_went {directory : String} {machine : Machine}
    (went : sh.machine.changeDirectory directory = .ok machine) (elsewhere : c ≠ .directory) :
    Same sh { sh with machine } c := by
  obtain ⟨cwd, rfl⟩ := Machine.eq_of_changeDirectory went
  cases c <;> first | rfl | contradiction

theorem Effect.destination (effect : Effect sh cd args sh') :
    ∃ directory machine, destination? sh args = some directory ∧
      sh.machine.changeDirectory directory = .ok machine ∧ sh'.machine.cwd = machine.cwd := by
  cases effect with
  | moved sent went found => exact ⟨_, _, sent, went, rfl⟩

theorem Ends.of_failed {cause : BuiltinError} (ends : Ends sh b args (.failed cause) sh') :
    sh' = sh ∨
      b = cd ∧ (∃ directory machine, destination? sh args = some directory ∧
          sh.machine.changeDirectory directory = .ok machine ∧
          sh'.machine.cwd = machine.cwd) ∧
        ∀ c, c ≠ .directory → c ≠ .environment Environment.directoryName → Same sh sh' c := by
  cases ends with
  | refused => exact .inl rfl
  | lost _ moving sent went =>
      exact .inr ⟨moving, ⟨_, _, sent, went, rfl⟩, fun c elsewhere _ => same_of_went went elsewhere⟩
  | unprinted _ moving effect =>
      subst moving
      refine .inr ⟨rfl, effect.destination, fun c elsewhere unnamed => effect.same ?_⟩
      simp [aims, elsewhere, unnamed]

theorem Ends.of_done {flow : Flow} (ends : Ends sh b args (.done flow) sh') :
    (b.aims args = [] ∧ sh' = sh ∨ Effect sh b args sh') ∧
      ∀ c, c ∉ b.aims args → Same sh sh' c := by
  cases ends with
  | shown _ idle => exact ⟨.inl ⟨idle, rfl⟩, fun c _ => .refl sh c⟩
  | changed _ effect => exact ⟨.inr effect, fun c => effect.same⟩

/-- A call that fails leaves the shell as it was, unless it is a `cd` that has gone where it was
sent; then nothing but the directory and the variable that names it may be different.  A call that
ends well has made its whole change and left everything else as it was.  The shell is to exit after
`bye` and after no other builtin. -/
theorem calls_change_all_or_nothing (b : Builtin) (argv : List String) (sink : Sink)
    (sh : Shell) :
    let args := argv.drop 1
    let outcome := (b.run argv sink sh).1
    let sh' := (b.run argv sink sh).2.2
    (∀ cause, outcome = .failed cause → sh' = sh ∨
      b = cd ∧ (∃ directory machine, destination? sh args = some directory ∧
          sh.machine.changeDirectory directory = .ok machine ∧
          sh'.machine.cwd = machine.cwd) ∧
        ∀ c, c ≠ .directory → c ≠ .environment Environment.directoryName → Same sh sh' c) ∧
    ∀ flow, outcome = .done flow →
      (b.aims args = [] ∧ sh' = sh ∨ Effect sh b args sh') ∧
      (∀ c, c ∉ b.aims args → Same sh sh' c) ∧ (flow = .exit ↔ b = bye) := by
  intro args outcome sh'
  have ends : Ends sh b args outcome sh' := ends_run b argv sink sh
  constructor
  · intro cause failed
    rw [failed] at ends
    exact ends.of_failed
  · intro flow done
    rw [done] at ends
    obtain ⟨whole, others⟩ := ends.of_done
    refine ⟨whole, others, ?_⟩
    rw [flow_run done]
    split <;> simp_all

end Builtin

end PipeShell
