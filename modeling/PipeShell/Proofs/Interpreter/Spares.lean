import PipeShell.Machine.Schedule
import PipeShell.Proofs.Job.Roster
import PipeShell.Proofs.Machine.Known

/-!
# Processes spare the shell

Whatever processes do while they take turns, the descriptors of the shell stay as they are, the
machine forgets no file that was opened, and the shell stays in its directory (`spares_wait`).  So
waiting for a process gives the shell nothing that it would have to close.  As to the processes
themselves, new ones are born into the groups of others and some are waited for
(`Roster.Evolves`).
-/

set_option autoImplicit false

namespace PipeShell.Machine

/-- The shell has the descriptors that it had, and all files are known that were. -/
structure KeepsTable (m m' : Machine) : Prop extends Grows m m' where
  table : m'.table = m.table

theorem KeepsTable.refl (m : Machine) : KeepsTable m m := ⟨.refl m, rfl⟩

theorem KeepsTable.trans {m m₁ m₂ : Machine} (first : KeepsTable m m₁)
    (second : KeepsTable m₁ m₂) : KeepsTable m m₂ :=
  ⟨first.toGrows.trans second.toGrows, second.table.trans first.table⟩

/-- What the shell has stays as it is, and its group. -/
structure Spares (m m' : Machine) : Prop extends KeepsTable m m', StaysPut m m' where
  shellGroup : m'.shellGroup = m.shellGroup
  roster : Roster.Evolves m.shellGroup m.roster m.nextPid m'.roster m'.nextPid

namespace Spares

variable {m m₁ m₂ : Machine}

/-- What does not concern the shell, and concerns processes only as `roster` says. -/
theorem of_evolves (grows : Grows m m₁) (table : m₁.table = m.table) (put : StaysPut m m₁)
    (shellGroup : m₁.shellGroup = m.shellGroup)
    (roster : Roster.Evolves m.shellGroup m.roster m.nextPid m₁.roster m₁.nextPid) :
    Spares m m₁ :=
  ⟨⟨grows, table⟩, put, shellGroup, roster⟩

/-- What does not concern the shell and starts or ends no process. -/
theorem of_grows (grows : Grows m m₁) (table : m₁.table = m.table) (put : StaysPut m m₁)
    (others : m₁.shellGroup = m.shellGroup ∧ m₁.roster = m.roster ∧ m₁.nextPid = m.nextPid) :
    Spares m m₁ := by
  obtain ⟨shellGroup, roster, nextPid⟩ := others
  refine .of_evolves grows table put shellGroup ?_
  rw [roster, nextPid]
  exact .refl

theorem of_size_eq (pipes : m₁.pipes.size = m.pipes.size)
    (cursors : m₁.cursors.size = m.cursors.size) (table : m₁.table = m.table)
    (put : StaysPut m m₁)
    (others : m₁.shellGroup = m.shellGroup ∧ m₁.roster = m.roster ∧ m₁.nextPid = m.nextPid) :
    Spares m m₁ :=
  .of_grows ⟨Nat.le_of_eq pipes.symm, Nat.le_of_eq cursors.symm⟩ table put others

theorem refl (m : Machine) : Spares m m :=
  .of_size_eq rfl rfl rfl ⟨rfl, rfl⟩ ⟨rfl, rfl, rfl⟩

theorem trans (first : Spares m m₁) (second : Spares m₁ m₂) : Spares m m₂ where
  toKeepsTable := first.toKeepsTable.trans second.toKeepsTable
  cwd := second.cwd.trans first.cwd
  env := second.env.trans first.env
  shellGroup := second.shellGroup.trans first.shellGroup
  roster := first.roster.trans (first.shellGroup ▸ second.roster)

end Spares

variable (m : Machine) (p : Running) (s : Script)

@[simp]
theorem spares_self : Spares m m := .refl m

theorem spares_foldl {α : Type} (f : Machine → α → Machine) (step : ∀ m x, Spares m (f m x))
    (list : List α) : Spares m (list.foldl f m) := by
  induction list generalizing m with
  | nil => exact .refl m
  | cons x list ih => exact (step m x).trans (ih (f m x))

/-! ## Calls of processes -/

@[simp]
theorem spares_resume (t : Task) : Spares m (m.resume p t) :=
  .of_size_eq rfl rfl rfl ⟨rfl, rfl⟩ ⟨rfl, rfl, rfl⟩

theorem spares_conclude (pid : Nat) (status : WaitStatus) : Spares m (m.conclude pid status) :=
  .of_size_eq rfl rfl rfl ⟨rfl, rfl⟩ ⟨rfl, rfl, rfl⟩

theorem spares_fork (table : DescriptorTable) (t : Task) : Spares m (m.fork p table t).2 :=
  .of_evolves ⟨Nat.le_refl _, Nat.le_refl _⟩ rfl ⟨rfl, rfl⟩ rfl (.born .refl p.pid)

theorem spares_makePipe (content : ByteArray) : Spares m (m.makePipe content).2 :=
  .of_grows ⟨by simp [makePipe], Nat.le_refl _⟩ rfl ⟨rfl, rfl⟩ ⟨rfl, rfl, rfl⟩

theorem spares_openFor {m' : Machine} {table table' : DescriptorTable} {path : Bytes}
    {access : Access} {append : Bool} {number : Nat}
    (opened : m.openFor p table path access append = .ok (number, table', m')) : Spares m m' := by
  unfold openFor at opened
  dsimp only at opened
  split at opened
  · cases opened
  · split at opened
    · cases opened
    · cases opened
      exact .of_grows ⟨Nat.le_refl _, by simp⟩ rfl ⟨rfl, rfl⟩ ⟨rfl, rfl, rfl⟩

theorem spares_readFrom (file : OpenFile) (most : Nat) : Spares m (m.readFrom file most).2 := by
  unfold readFrom
  dsimp only
  repeat' split
  all_goals exact .of_size_eq (by simp) (by simp) rfl ⟨rfl, rfl⟩ ⟨rfl, rfl, rfl⟩

theorem spares_putBack (file : OpenFile) (count : Nat) : Spares m (m.putBack file count) := by
  unfold putBack
  split
  · exact .of_size_eq rfl (by simp) rfl ⟨rfl, rfl⟩ ⟨rfl, rfl, rfl⟩
  · exact .refl m

theorem spares_writeTo (file : OpenFile) (data : ByteArray) : Spares m (m.writeTo file data).2 := by
  unfold writeTo
  dsimp only
  repeat' split
  all_goals exact .of_size_eq (by simp) (by simp) rfl ⟨rfl, rfl⟩ ⟨rfl, rfl, rfl⟩

/-! ## Scripts -/

@[simp]
theorem spares_goOn : Spares m (m.goOn p s) := spares_resume ..

@[simp]
theorem spares_say (text : ByteArray) : Spares m (m.say p s text) := spares_resume ..

@[simp]
theorem spares_giveUp (text : ByteArray) (status : Nat) : Spares m (m.giveUp p s text status) :=
  spares_resume ..

@[simp]
theorem spares_answer (line : Nat) (name : String) (a : Answer) :
    Spares m (m.answer p s line name a) := spares_resume ..

theorem spares_forkCommands (table : DescriptorTable) (todo : List Command) :
    Spares m (m.forkCommands p s table todo).2 := spares_fork ..

theorem spares_startParts (input : Option Nat) (parts : List Command) :
    Spares m (m.startParts p s input parts).2 := by
  induction parts generalizing m input with
  | nil => exact .refl m
  | cons part rest ih =>
      cases rest with
      | nil => exact spares_forkCommands ..
      | cons next rest =>
          have pipe := spares_makePipe m .empty
          exact (pipe.trans (spares_forkCommands ..)).trans (ih _ _)

@[simp]
theorem spares_collect (inner : Script) (text : List Char) (line : Nat) (c : Command) :
    Spares m (m.collect p s inner text line c) :=
  ((spares_makePipe m .empty).trans (spares_forkCommands ..)).trans (spares_resume ..)

theorem spares_expanding {α : Type} (c : Command) (line : Nat) (e : Script.Expansion α)
    {next : α → Script → Machine} (spares : ∀ found s, Spares m (next found s)) :
    Spares m (m.expanding p s c line e next) := by
  unfold expanding
  split
  · exact spares ..
  · simp
  · simp

@[simp]
theorem spares_runProgram (line : Nat) (back : DescriptorTable) (given : List (String × Bytes))
    (argv : List Bytes) (wanted : Bool) :
    Spares m (m.runProgram p s line back given argv wanted) := by
  unfold runProgram
  dsimp only
  split
  · split
    · simp
    · exact (spares_fork ..).trans (spares_resume ..)
  · split <;> simp
  · split <;> simp

/-- A file that is opened for a redirection is put on a number of the process. -/
theorem spares_placed {m' : Machine} {table table' : DescriptorTable} {path : Bytes}
    {access : Access} {append : Bool} {number : Nat} {complaint : Errno → String}
    (placed : ((m.openFor p table path access append).map fun opened =>
      (moved opened.2.1 opened.1 number, opened.2.2)).mapError complaint = .ok (table', m')) :
    Spares m m' := by
  rcases outcome : m.openFor p table path access append with cause | ⟨opened, table₁, m₁⟩
  · rw [outcome] at placed
    cases placed
  · rw [outcome] at placed
    cases placed
    exact spares_openFor _ _ outcome

theorem spares_redirect {m' : Machine} {table table' : DescriptorTable}
    {redirects : List (Redirect × Bytes)}
    (done : m.redirect p table redirects = .ok (table', m')) : Spares m m' := by
  induction redirects generalizing m table with
  | nil =>
      cases done
      exact .refl _
  | cons r rest ih =>
      rw [redirect] at done
      dsimp only at done
      split at done
      · cases done
      · next table₁ m₁ changed =>
          have first : Spares m m₁ := by
            split at changed
            · split at changed
              · cases changed
                exact .refl _
              · split at changed
                · cases changed
                · split at changed
                  · cases changed
                    exact .refl _
                  · cases changed
            · exact spares_placed _ _ changed
            · exact spares_placed _ _ changed
            · cases changed
              exact spares_makePipe ..
          exact first.trans (ih _ done)

theorem spares_sendSignal (signal : Nat) (pids : List Nat) :
    Spares m (m.sendSignal p s signal pids).1 := by
  unfold sendSignal
  dsimp only
  repeat' split
  all_goals
    apply spares_foldl
    intro m pid
    repeat' split
    all_goals simp

/-! ## Commands of the interpreter -/

@[simp]
theorem spares_changeDirectoryOf (line : Nat) (back : DescriptorTable) (arguments : List Bytes) :
    Spares m (m.changeDirectoryOf p s line back arguments) := by
  unfold changeDirectoryOf
  dsimp only
  split
  · simp
  · split <;> simp

@[simp]
theorem spares_runText (back : DescriptorTable) (label text : Bytes) (isFile : Bool) :
    Spares m (m.runText p s back label text isFile) := spares_goOn ..

@[simp]
theorem spares_runFile (line : Nat) (back : DescriptorTable) (file : Bytes) :
    Spares m (m.runFile p s line back file) := by
  unfold runFile
  dsimp only
  split
  · simp
  · split <;> simp

@[simp]
theorem spares_runTrap (line : Nat) (back : DescriptorTable) (arguments : List Bytes) :
    Spares m (m.runTrap p s line back arguments) := by
  unfold runTrap
  dsimp only
  repeat' split
  all_goals simp

@[simp]
theorem spares_runSpecial (line : Nat) (back : DescriptorTable) (given : List (String × Bytes))
    (name : String) (arguments : List Bytes) :
    Spares m (m.runSpecial p s line back given name arguments) := by
  unfold runSpecial
  dsimp only
  repeat' split
  all_goals simp

@[simp]
theorem spares_runWait (line : Nat) (back : DescriptorTable) (arguments : List Bytes) :
    Spares m (m.runWait p s line back arguments) := by
  unfold runWait
  dsimp only
  repeat' split
  all_goals simp

@[simp]
theorem spares_runKill (line : Nat) (arguments : List Bytes) :
    Spares m (m.runKill p s line arguments) := by
  unfold runKill
  dsimp only
  split
  · simp
  · split
    · simp
    · simp
    · next signal targets _ _ =>
        split
        · simp
        · have sent := spares_sendSignal m p (settle s 0) signal (targets.filterMap number?)
          split
          · next outcome =>
              rw [outcome] at sent
              exact sent.trans (spares_resume ..)
          · next outcome =>
              rw [outcome] at sent
              split
              · exact sent.trans (spares_goOn ..)
              · exact sent.trans (spares_answer ..)

@[simp]
theorem spares_runBuiltin (line : Nat) (back : DescriptorTable) (given : List (String × Bytes))
    (name : String) (arguments : List Bytes) :
    Spares m (m.runBuiltin p s line back given name arguments) := by
  unfold runBuiltin
  dsimp only
  repeat' split
  all_goals simp

/-! ## Steps of a script -/

@[simp]
theorem spares_runWords (line : Nat) (table : DescriptorTable) (given : List (String × Bytes))
    (argv : List Bytes) : Spares m (m.runWords p s line table given argv) := by
  unfold runWords
  dsimp only
  repeat' split
  all_goals simp

@[simp]
theorem spares_perform (line : Nat) (argv : List Bytes) (redirects : List (Redirect × Bytes))
    (given : List (String × Bytes)) : Spares m (m.perform p s line argv redirects given) := by
  unfold perform
  split
  · next redirected => exact (spares_redirect m p redirected).trans (spares_runWords ..)
  · dsimp only
    split <;> simp

@[simp]
theorem spares_runSimple (c : Command) (line : Nat) (words : List Word)
    (redirects : List Redirect) : Spares m (m.runSimple p s c line words redirects) := by
  apply spares_expanding
  intro e after
  dsimp only
  repeat' split
  all_goals simp

@[simp]
theorem spares_runBackground (c : Command) : Spares m (m.runBackground p s c) :=
  (spares_forkCommands ..).trans (spares_goOn ..)

@[simp]
theorem spares_runCommand (c : Command) : Spares m (m.runCommand p s c) := by
  unfold runCommand
  split
  · simp
  · exact (spares_startParts ..).trans (spares_resume ..)
  · simp
  · simp
  · simp
  · simp
  · simp
  · exact spares_expanding _ _ _ _ _ _ fun _ _ => by simp
  · exact spares_expanding _ _ _ _ _ _ fun _ _ => by simp
  · simp
  · exact (spares_forkCommands ..).trans (spares_resume ..)
  · apply spares_expanding
    intro targets s
    split
    · simp
    · next redirected => exact (spares_redirect m p redirected).trans (spares_goOn ..)
  · simp
  · simp

@[simp]
theorem spares_runAction : Spares m (m.runAction p s) := by
  unfold runAction
  dsimp only
  repeat' split
  all_goals simp

@[simp]
theorem spares_beginScript (argv : List Bytes) : Spares m (m.beginScript p argv) :=
  spares_resume ..

/-! ## Taking turns -/

@[simp]
theorem spares_beginInput (f : Filter) (source : Source) (inputs : List (Option Bytes))
    (code : Int) : Spares m (m.beginInput p f source inputs code) := by
  unfold beginInput
  split
  · exact spares_resume ..
  · exact spares_resume ..

theorem spares_endInput (f : Filter) (source : Source) (inputs : List (Option Bytes))
    (code : Int) : Spares m (m.endInput p f source inputs code) := spares_resume ..

theorem spares_nextInput (f : Filter) (inputs : List (Option Bytes)) (code : Int) :
    Spares m (m.nextInput p f inputs code) := by
  unfold nextInput
  split
  · simp
  · split
    · simp
    · dsimp only
      split
      · exact spares_resume ..
      · next opened => exact (spares_openFor m p opened).trans (spares_beginInput ..)

/-- A step that a process can take spares the shell. -/
def SparesIfAny (m : Machine) (advance : Advance) : Prop :=
  ∀ m', advance = some m' → Spares m m'

theorem sparesIfAny_some {m m' : Machine} (spares : Spares m m') : SparesIfAny m (some m') := by
  rintro _ ⟨⟩
  exact spares

theorem sparesIfAny_none (m : Machine) : SparesIfAny m none := by
  rintro _ ⟨⟩

theorem spares_readPiece (f : Filter) (source : Source) (inputs : List (Option Bytes))
    (code : Int) : SparesIfAny m (m.readPiece p f source inputs code) := by
  unfold readPiece
  dsimp only
  split
  · exact sparesIfAny_some (spares_endInput ..)
  · split
    · exact sparesIfAny_some (spares_resume ..)
    · next d _ =>
        have read := spares_readFrom m d.file (f.appetite pieceSize)
        split <;> next outcome =>
          rw [outcome] at read
          first
          | exact sparesIfAny_none m
          | exact sparesIfAny_some (read.trans (spares_resume ..))
          | exact sparesIfAny_some ((read.trans (spares_putBack ..)).trans (spares_resume ..))

theorem spares_readLine (names : List String) (raw : Bool) (line : Bytes) :
    SparesIfAny m (m.readLine p names raw line s) := by
  unfold readLine
  dsimp only
  split
  · exact sparesIfAny_some (spares_goOn ..)
  · next d _ =>
      have read := spares_readFrom m d.file (max 1 (m.lineAhead d.file))
      split
      · exact sparesIfAny_none m
      · next outcome =>
          rw [outcome] at read
          repeat' split
          all_goals exact sparesIfAny_some (read.trans (spares_resume ..))
      · next outcome =>
          rw [outcome] at read
          exact sparesIfAny_some (read.trans (spares_goOn ..))

theorem spares_loadScript (text : Bytes) : SparesIfAny m (m.loadScript p text s) := by
  unfold loadScript
  split
  · exact sparesIfAny_some (spares_resume ..)
  · next d _ =>
      have read := spares_readFrom m d.file pieceSize
      split
      · exact sparesIfAny_none m
      · next outcome =>
          rw [outcome] at read
          exact sparesIfAny_some (read.trans (spares_resume ..))
      · next outcome =>
          rw [outcome] at read
          exact sparesIfAny_some (read.trans (spares_goOn ..))

theorem spares_reap (child : Nat) : Spares m (reap m child) :=
  .of_evolves ⟨Nat.le_refl _, Nat.le_refl _⟩ rfl ⟨rfl, rfl⟩ rfl (.reaped .refl child)

theorem spares_awaitChildren (children : List Nat) (tells : Bool) :
    SparesIfAny m (m.awaitChildren p children tells s) := by
  unfold awaitChildren
  dsimp only
  split
  · exact sparesIfAny_some ((spares_foldl m reap spares_reap children).trans (spares_resume ..))
  · exact sparesIfAny_none m

theorem spares_collectOutput (child number : Nat) (text : Bytes) (c : Command) :
    SparesIfAny m (m.collectOutput p child number text c s) := by
  unfold collectOutput
  dsimp only
  split
  · next d _ =>
      have read := spares_readFrom m d.file pieceSize
      split
      · exact sparesIfAny_none m
      · next outcome =>
          rw [outcome] at read
          exact sparesIfAny_some (read.trans (spares_resume ..))
      · next outcome =>
          rw [outcome] at read
          exact sparesIfAny_some (read.trans (spares_resume ..))
  · split
    · exact sparesIfAny_none m
    · exact sparesIfAny_some ((spares_reap m child).trans (spares_resume ..))

theorem spares_beginProgram (program : String) (argv : List Bytes) :
    Spares m (m.beginProgram p program argv) := by
  unfold beginProgram
  dsimp only
  split <;> simp

/-- One call of a process spares the shell, whatever the process is about to do. -/
theorem spares_advance : SparesIfAny m (m.advance p) := by
  unfold advance
  split
  · exact sparesIfAny_some (spares_conclude ..)
  · exact sparesIfAny_some (spares_beginProgram ..)
  · next _ data _ _ _ =>
    split
    · exact sparesIfAny_some (spares_resume ..)
    · split
      · exact sparesIfAny_some (spares_resume ..)
      · next d _ =>
          have wrote := spares_writeTo m d.file data
          split <;> next outcome =>
            rw [outcome] at wrote
            repeat' split
            all_goals first
              | exact sparesIfAny_none m
              | exact sparesIfAny_some (wrote.trans (spares_resume ..))
  · split
    · exact sparesIfAny_some (spares_resume ..)
    · next opened => exact sparesIfAny_some ((spares_openFor m p opened).trans (spares_resume ..))
  · split
    · exact sparesIfAny_some (spares_resume ..)
    · next opened => exact sparesIfAny_some ((spares_openFor m p opened).trans (spares_resume ..))
  · exact sparesIfAny_some (spares_nextInput ..)
  · exact spares_readPiece m p _ _ _ _
  · exact sparesIfAny_some (spares_resume ..)
  · split
    · exact sparesIfAny_some (spares_resume ..)
    · exact sparesIfAny_none m
  · exact sparesIfAny_some (spares_runAction ..)
  · exact spares_readLine m p _ _ _ _
  · exact spares_loadScript m p _ _
  · exact spares_awaitChildren m p _ _ _
  · exact spares_collectOutput m p _ _ _ _ _

theorem spares_turn : Spares m m.turn.1 := by
  unfold turn
  refine List.foldlRecOn (motive := fun now : Machine × Bool => Spares m now.1) _ _ (.refl m) ?_
  rintro ⟨now, moved⟩ before pid -
  dsimp only
  split
  · exact before
  · next process _ =>
      split
      · next advanced => exact before.trans (spares_advance now process _ advanced)
      · exact before

theorem spares_runUntil (pid turns : Nat) : Spares m (runUntil pid turns m) := by
  induction turns generalizing m with
  | zero => exact .refl m
  | succ turns ih =>
      have turned := spares_turn m
      rw [runUntil]
      split
      · exact .refl m
      · split
        · next outcome =>
            rw [outcome] at turned
            exact turned.trans (ih _)
        · next outcome =>
            rw [outcome] at turned
            split
            -- nobody could move, so the clock does
            · refine turned.trans (.trans ?_ (ih _))
              exact .of_size_eq rfl rfl rfl ⟨rfl, rfl⟩ ⟨rfl, rfl, rfl⟩
            · exact turned

/-- Waiting for a process leaves the shell what it has. -/
theorem spares_wait (pid : Nat) : Spares m (m.wait pid).2 := by
  unfold wait
  split
  · exact .refl m
  · have ran := spares_runUntil m pid patience
    have reaped : ∀ m : Machine, Spares m { m with
        ended := m.ended.filter fun entry => entry.1 ≠ pid
        roster := m.roster.reap pid } :=
      fun m => .of_evolves ⟨Nat.le_refl _, Nat.le_refl _⟩ rfl ⟨rfl, rfl⟩ rfl (.reaped .refl pid)
    dsimp only
    split
    · exact ran.trans (reaped _)
    · exact (ran.trans (spares_conclude _ pid .killed)).trans (reaped _)

end PipeShell.Machine
