import PipeShell.Proofs.Session.Survival
import PipeShell.SearchPath

/-!
# Adding directories to the search list

The search list is kept as one value of `PATH`: text is read and joined when a directory is added,
bytes are cut when a program is looked for.  If the value is text, or there is none, the two sides
agree: what is added stands behind what was listed, and nothing of it is lost
(`adding_keeps_listed_directories`).  A value that is no text gives way to the new directory alone
(`adding_drops_undecodable_list`).
-/

set_option autoImplicit false

namespace PipeShell

namespace SearchPath

/-! ## Lists of directories -/

/-- The directories that a list names, without the empty ones, which are passed over. -/
def namedIn (list : Bytes) : List Bytes :=
  (split list).filter (· ≠ [])

/-- The directories that a value of `PATH` names, if it has one. -/
def listedIn : Option Bytes → List Bytes
  | some list => namedIn list
  | none => []

/-- The directories that `PATH` names. -/
def listed (env : Environment) : List Bytes :=
  listedIn (env.get? Environment.pathName)

/-- There is no value, or it is text. -/
def Readable (stored : Option Bytes) : Prop :=
  ∀ list, stored = some list → (Text.decode? list).isSome = true

/-- The working directory, where it has a path. -/
def here (m : Machine) : List Bytes :=
  match m.workingDirectory with
  | .ok path => [path]
  | .error _ => []

theorem namedIn_nil : namedIn [] = [] := by decide

theorem namedIn_append_colon (before behind : Bytes) :
    namedIn (before ++ colon :: behind) = namedIn before ++ namedIn behind := by
  have cut : split (before ++ colon :: behind) = split before ++ split behind := by
    simp only [split, List.splitOn_eq_splitOnP]
    exact List.splitOnP_append_cons before behind (by simp)
  rw [namedIn, cut, List.filter_append]
  rfl

theorem here_ne_nil {m : Machine} {directory : Bytes} (member : directory ∈ here m) :
    directory ≠ [] := by
  unfold here at member
  split at member
  · next path found =>
      obtain rfl := List.mem_singleton.mp member
      unfold Machine.workingDirectory FileSystem.pathOf at found
      split at found
      · cases found
        rintro ⟨⟩
      · cases found
  · cases member

/-- What is searched, empty directories passed over: what `PATH` names, then the working
directory. -/
theorem searched_eq (m : Machine) :
    (directories m).filter (· ≠ []) = listed m.env ++ here m := by
  have own : (here m).filter (· ≠ []) = here m := by
    apply List.filter_eq_self.mpr
    intro directory member
    simpa using here_ne_nil member
  have whole : directories m = (match m.env.get? Environment.pathName with
      | some list => split list
      | none => []) ++ here m := rfl
  rw [whole, List.filter_append, own, listed]
  cases m.env.get? Environment.pathName <;> rfl

/-! ## Candidates -/

theorem candidatesIn_append (isFile : Bytes → Bool) (first second : List Bytes) {name : Bytes}
    (plain : name.contains Path.slash = false) :
    candidatesIn isFile (first ++ second) name =
      candidatesIn isFile first name ++ candidatesIn isFile second name := by
  simp only [candidatesIn, plain, Bool.false_eq_true, if_false, List.filter_append, List.map_append]

theorem candidatesIn_filter (isFile : Bytes → Bool) (directories : List Bytes) (name : Bytes) :
    candidatesIn isFile (directories.filter (· ≠ [])) name =
      candidatesIn isFile directories name := by
  simp only [candidatesIn, List.filter_filter, Bool.and_self]

theorem candidates_eq (m : Machine) (name : String) : candidates m name =
    candidatesIn (m.files.isFile m.cwd) (listed m.env ++ here m) (Text.encode name) := by
  rw [candidates, ← candidatesIn_filter, searched_eq]

/-- More directories at the end do not change what is found first. -/
theorem head?_candidatesIn_append {isFile : Bytes → Bool} {first : List Bytes} {name found : Bytes}
    (head : (candidatesIn isFile first name).head? = some found) (second : List Bytes) :
    (candidatesIn isFile (first ++ second) name).head? = some found := by
  cases plain : name.contains Path.slash with
  | true =>
      simp only [candidatesIn, plain, if_true] at head ⊢
      exact head
  | false =>
      rw [candidatesIn_append isFile first second plain, List.head?_append, head]
      rfl

end SearchPath

/-! ## Adding a directory -/

namespace SearchPath

variable {stored : Option Bytes}

/-- The list with a directory behind it. -/
def extended (stored : Option Bytes) (directory : String) : String :=
  match stored.bind Text.decode? with
  | some old => if old = "" then directory else old ++ ":" ++ directory
  | none => directory

theorem encode_joined (old directory : String) : Text.encode (old ++ ":" ++ directory) =
    Text.encode old ++ colon :: Text.encode directory := by
  simp only [Text.encode_eq_flatMap, String.toList_append, List.flatMap_append, List.append_assoc]
  rfl

/-- The extended list names what was named before, and then the directory. -/
theorem namedIn_extended (readable : Readable stored) (directory : String) :
    namedIn (Text.encode (extended stored directory)) =
      listedIn stored ++ namedIn (Text.encode directory) := by
  unfold extended
  cases stored with
  | none => rfl
  | some list =>
      obtain ⟨old, decoded⟩ := Option.isSome_iff_exists.mp (readable list rfl)
      have bytes : Text.encode old = list := Text.encode_of_decode? decoded
      simp only [Option.bind_some, decoded, listedIn]
      split
      · next empty =>
          have nothing : list = [] := by rw [← bytes, empty]; decide
          rw [nothing, namedIn_nil, List.nil_append]
      · rw [encode_joined, namedIn_append_colon, bytes]

end SearchPath

namespace Environment

open SearchPath (extended listed namedIn)

variable {env env' : Environment} {directory : String}

/-- `PATH` is not set, or it is set to text. -/
def PathReadable (env : Environment) : Prop := SearchPath.Readable (env.get? pathName)

theorem get?_of_addToPath (added : env.addToPath directory = some env') (name : String) :
    env'.get? name = if name = pathName then
      some (Text.encode (extended (env.get? pathName) directory)) else env.get? name := by
  have stored : env.assign pathName
      (Text.encode (extended (env.get? pathName) directory)) = some env' := added
  rw [assign] at stored
  split at stored
  · obtain rfl := Option.some.inj stored
    exact Dictionary.get?_insert ..
  · cases stored

theorem listed_of_addToPath (readable : env.PathReadable)
    (added : env.addToPath directory = some env') :
    listed env' = listed env ++ namedIn (Text.encode directory) := by
  rw [listed, get?_of_addToPath added, if_pos rfl]
  exact SearchPath.namedIn_extended readable directory

end Environment

open SearchPath (here listed namedIn)

/-- Unless the search list is set to bytes that are no text, adding a directory keeps what is
searched, in order, and puts the directory behind what `PATH` named.  So what was found through
`PATH` is still what is found first. -/
theorem adding_keeps_listed_directories (sh : Shell) (directory : String)
    (readable : sh.machine.env.PathReadable) (clean : sh.machine.env.PathNulFree)
    (free : Text.NulFree directory) :
    ∃ sh', sh.addToPath directory = some sh' ∧
      listed sh'.machine.env = listed sh.machine.env ++ namedIn (Text.encode directory) ∧
      (SearchPath.directories sh.machine).filter (· ≠ []) =
        listed sh.machine.env ++ here sh.machine ∧
      (SearchPath.directories sh'.machine).filter (· ≠ []) =
        listed sh.machine.env ++ namedIn (Text.encode directory) ++ here sh.machine ∧
      ∀ name found,
        (SearchPath.candidatesIn (sh.machine.files.isFile sh.machine.cwd)
          (listed sh.machine.env) (Text.encode name)).head? = some found →
        (SearchPath.candidates sh.machine name).head? = some found ∧
        (SearchPath.candidates sh'.machine name).head? = some found := by
  obtain ⟨env, added, -⟩ := Environment.addToPath_of_nulFree clean free
  have grown := Environment.listed_of_addToPath readable added
  refine ⟨_, by rw [Shell.addToPath, added]; rfl, grown, SearchPath.searched_eq sh.machine, ?_, ?_⟩
  · rw [SearchPath.searched_eq, grown]
    rfl
  · intro name found head
    rw [SearchPath.candidates_eq, SearchPath.candidates_eq, grown, List.append_assoc]
    exact ⟨SearchPath.head?_candidatesIn_append head _, SearchPath.head?_candidatesIn_append head _⟩

/-- A shell with a value of `PATH`. -/
def shellWithPath (list : Bytes) : Shell :=
  { bareShell with
    machine := { bareShell.machine with
      env := Dictionary.ofList [(Environment.pathName, list)] } }

theorem get?_shellWithPath (list : Bytes) :
    (shellWithPath list).machine.env.get? Environment.pathName = some list := by
  show (Dictionary.insert _ _ _).get? _ = _
  rw [Dictionary.get?_insert, if_pos rfl]

theorem pathReadable_shellWithPath {list : Bytes} (text : (Text.decode? list).isSome = true) :
    (shellWithPath list).machine.env.PathReadable := by
  intro other here
  obtain rfl := Option.some.inj ((get?_shellWithPath list).symm.trans here)
  exact text

theorem pathNulFree_shellWithPath {list : Bytes} (free : 0 ∉ list) :
    (shellWithPath list).machine.env.PathNulFree := by
  intro other here
  obtain rfl := Option.some.inj ((get?_shellWithPath list).symm.trans here)
  exact free

theorem adding_keeps_usr_bin :
    (shellWithPath (Text.encode "/usr/bin::/bin")).machine.env.PathReadable ∧
    (shellWithPath (Text.encode "/usr/bin::/bin")).machine.env.PathNulFree ∧
    Text.NulFree "/opt::/srv" ∧
    ∃ sh', (shellWithPath (Text.encode "/usr/bin::/bin")).addToPath "/opt::/srv" = some sh' ∧
      listed sh'.machine.env = ["/usr/bin", "/bin", "/opt", "/srv"].map Text.encode := by
  have readable : (shellWithPath (Text.encode "/usr/bin::/bin")).machine.env.PathReadable :=
    pathReadable_shellWithPath (by decide +kernel)
  have clean : (shellWithPath (Text.encode "/usr/bin::/bin")).machine.env.PathNulFree :=
    pathNulFree_shellWithPath (by decide +kernel)
  have free : Text.NulFree "/opt::/srv" := by decide
  obtain ⟨sh', added, grown, -⟩ := adding_keeps_listed_directories _ _ readable clean free
  refine ⟨readable, clean, free, sh', added, ?_⟩
  rw [grown, SearchPath.listed, get?_shellWithPath]
  decide +kernel

/-- The last byte of the list is no text, and so the whole list is gone. -/
theorem adding_drops_undecodable_list :
    listed (shellWithPath (Text.encode "/bin:/" ++ [0xff])).machine.env =
      [Text.encode "/bin", Text.encode "/" ++ [0xff]] ∧
    ((shellWithPath (Text.encode "/bin:/" ++ [0xff])).addToPath "/opt").map
      (fun sh => listed sh.machine.env) = some [Text.encode "/opt"] := by
  decide +kernel

end PipeShell
