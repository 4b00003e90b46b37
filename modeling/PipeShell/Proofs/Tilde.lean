import PipeShell.Proofs.Text.Words
import PipeShell.Session

/-!
# What becomes of an argument

An argument that names a home directory becomes that directory with the path behind its first `/`
(`expand_of_named`), and every other argument stays as it is (`expand_of_unnamed`).  The path of a
word has no white space, so the expansion of a word has some just when the home directory has
(`hasWhiteSpace_expand_iff`).

`Shell.Expands` says what becomes of an argument in a shell without looking for its first `/`: the
argument is a tilde, a user and a path, and the home directory of the user takes the place of the
first two.  What comes behind an argument, as a path, stays as it is, and an expansion is not
expanded again (`tilde_expansion_rewrites_user_prefix`).
-/

set_option autoImplicit false

namespace PipeShell.Homes

variable {homes : Homes} {arg home : String}

/-- The home directory that an argument names with a leading tilde, if it is known. -/
def named? (homes : Homes) (arg : String) : Option String :=
  match arg.toList with
  | '~' :: rest => homes.home? (rest.takeWhile (· ≠ '/'))
  | _ => none

/-- An argument from its first `/` on. -/
def path (arg : String) : String := String.ofList (arg.toList.dropWhile (· ≠ '/'))

/-- The argument does not begin with a tilde. -/
def Plain (arg : String) : Prop := arg.toList.head? ≠ some '~'

instance (arg : String) : Decidable (Plain arg) :=
  inferInstanceAs (Decidable (arg.toList.head? ≠ some '~'))

theorem expand_of_named (named : homes.named? arg = some home) :
    homes.expand arg = home ++ path arg := by
  unfold named? at named
  split at named
  · next rest shape =>
      have behind : path arg = String.ofList (rest.dropWhile (· ≠ '/')) := by
        simp [path, shape]
      simp only [expand, shape, named, behind]
  · cases named

theorem expand_of_unnamed (unnamed : homes.named? arg = none) : homes.expand arg = arg := by
  unfold named? at unnamed
  unfold expand
  split
  · next rest shape =>
      simp only [shape] at unnamed
      rw [unnamed]
  · rfl

theorem named?_of_plain (plain : Plain arg) : homes.named? arg = none := by
  unfold named?
  split
  · next rest shape =>
      rw [Plain, shape] at plain
      exact absurd rfl plain
  · rfl

theorem plain_append (written : arg ≠ "") (plain : Plain arg) (more : String) :
    Plain (arg ++ more) := by
  obtain ⟨c, rest, shape⟩ := List.exists_cons_of_ne_nil (mt String.toList_eq_nil_iff.mp written)
  rw [Plain, shape] at plain
  rwa [Plain, String.toList_append, shape]

theorem expand_of_plain (plain : Plain arg) : homes.expand arg = arg :=
  expand_of_unnamed (named?_of_plain plain)

/-- Whatever is known of homes, plain arguments stay as they are. -/
theorem map_expand_of_plain {args : List String} (plain : ∀ arg ∈ args, Plain arg) :
    args.map homes.expand = args := by
  have same : args.map homes.expand = args.map id := by
    refine List.map_congr_left fun arg member => ?_
    exact expand_of_plain (plain arg member)
  rw [same, List.map_id]

theorem dense_path (dense : Text.Dense arg.toList) : Text.Dense (path arg).toList := by
  intro c member
  rw [path, String.toList_ofList] at member
  exact dense c ((List.dropWhile_sublist _).subset member)

/-- Only the home directory can bring white space into a word. -/
theorem hasWhiteSpace_expand_iff (dense : Text.Dense arg.toList) :
    Text.hasWhiteSpace (homes.expand arg) = true ↔
      ∃ home, homes.named? arg = some home ∧ Text.hasWhiteSpace home = true := by
  cases named : homes.named? arg with
  | none =>
      rw [expand_of_unnamed named, Text.hasWhiteSpace_eq_false_iff.mpr dense]
      simp
  | some home =>
      have clear : Text.hasWhiteSpace (path arg) = false :=
        Text.hasWhiteSpace_eq_false_iff.mpr (dense_path dense)
      have both : Text.hasWhiteSpace (home ++ path arg) = Text.hasWhiteSpace home := by
        rw [Text.hasWhiteSpace_append, clear, Bool.or_false]
      rw [expand_of_named named, both]
      simp

end PipeShell.Homes

namespace PipeShell

open Homes (Plain)

/-! ## Users and paths -/

/-- A path from its first `/` on, or nothing. -/
def IsPath (text : String) : Prop := ∀ c ∈ text.toList.head?, c = '/'

theorem isPath_append {path tail : String} (first : IsPath path) (second : IsPath tail) :
    IsPath (path ++ tail) := by
  intro c head
  rw [String.toList_append] at head
  cases shape : path.toList with
  | nil =>
      rw [shape] at head
      exact second c head
  | cons d rest =>
      rw [shape] at head
      exact first c (by rwa [shape])

theorem plain_of_isPath {path : String} (isPath : IsPath path) : Plain path := by
  intro tilde
  exact absurd (isPath '~' tilde) (by decide)

/-- What stands before a path and has no `/` ends where the path begins. -/
theorem span_user {user path : String} (unslashed : '/' ∉ user.toList) (isPath : IsPath path) :
    (user ++ path).toList.takeWhile (· ≠ '/') = user.toList ∧
      (user ++ path).toList.dropWhile (· ≠ '/') = path.toList := by
  have inside : ∀ c ∈ user.toList, decide (c ≠ '/') = true := by
    intro c member
    rw [decide_eq_true_eq]
    rintro rfl
    exact unslashed member
  rw [String.toList_append, List.takeWhile_append_of_pos inside,
    List.dropWhile_append_of_pos inside]
  cases shape : path.toList with
  | nil => simp
  | cons c rest =>
      obtain rfl := isPath c (by rw [shape]; rfl)
      simp

/-- Every argument that begins with a tilde names a user and a path. -/
theorem exists_user {arg : String} (tilde : ¬ Plain arg) :
    ∃ user path, '/' ∉ user.toList ∧ IsPath path ∧ arg = "~" ++ user ++ path := by
  have head : arg.toList.head? = some '~' := by
    by_contra other
    exact tilde other
  obtain ⟨rest, shape⟩ := List.head?_eq_some_iff.mp head
  refine ⟨String.ofList (rest.takeWhile (· ≠ '/')), String.ofList (rest.dropWhile (· ≠ '/')),
    ?_, ?_, ?_⟩
  · intro member
    rw [String.toList_ofList] at member
    simpa using List.mem_takeWhile_imp member
  · intro c first
    rw [String.toList_ofList] at first
    have stopped := List.head?_dropWhile_not (· ≠ '/') rest
    rw [Option.mem_def.mp first] at stopped
    simpa using stopped
  · apply String.toList_inj.mp
    simp [shape, List.takeWhile_append_dropWhile]

/-! ## Expansion in a shell -/

namespace Shell

variable {sh : Shell}

/-- The home directory of a user.  Without a name it is that of the shell's own user, which the
environment holds as text. -/
inductive HomeOf (sh : Shell) : String → String → Prop
  | own {value : Bytes} {home : String}
      (set : sh.machine.env.get? Environment.homeName = some value)
      (decoded : Text.decode? value = some home) : HomeOf sh "" home
  | named {user home : String} (named : user ≠ "") (known : sh.machine.users user = some home) :
      HomeOf sh user home

/-- What becomes of an argument. -/
inductive Expands (sh : Shell) : String → String → Prop
  | plain {arg : String} (plain : Plain arg) : Expands sh arg arg
  | home {user path home : String} (unslashed : '/' ∉ user.toList) (isPath : IsPath path)
      (lives : sh.HomeOf user home) : Expands sh ("~" ++ user ++ path) (home ++ path)
  | homeless {user path : String} (unslashed : '/' ∉ user.toList) (isPath : IsPath path)
      (unknown : ∀ home, ¬ sh.HomeOf user home) :
      Expands sh ("~" ++ user ++ path) ("~" ++ user ++ path)

theorem home?_eq_some_iff {user home : String} :
    sh.homes.home? user.toList = some home ↔ sh.HomeOf user home := by
  have nameless : user.toList = [] ↔ user = "" := String.toList_eq_nil_iff
  constructor
  · intro found
    by_cases empty : user = ""
    · rw [Homes.home?, if_pos (nameless.mpr empty)] at found
      obtain ⟨value, set, decoded⟩ := Option.bind_eq_some_iff.mp found
      subst empty
      exact .own set decoded
    · rw [Homes.home?, if_neg (mt nameless.mp empty), String.ofList_toList] at found
      exact .named empty found
  · rintro (⟨set, decoded⟩ | ⟨named, known⟩)
    · exact Option.bind_eq_some_iff.mpr ⟨_, set, decoded⟩
    · rw [Homes.home?, if_neg (mt nameless.mp named), String.ofList_toList]
      exact known

theorem named?_user {user path : String} (unslashed : '/' ∉ user.toList) (isPath : IsPath path) :
    sh.homes.named? ("~" ++ user ++ path) = sh.homes.home? user.toList := by
  have shape : ("~" ++ user ++ path).toList = '~' :: (user ++ path).toList := by simp
  simp only [Homes.named?, shape]
  rw [(span_user unslashed isPath).1]

theorem path_user {user path : String} (unslashed : '/' ∉ user.toList) (isPath : IsPath path) :
    Homes.path ("~" ++ user ++ path) = path := by
  have tilded : '/' ∉ ("~" ++ user).toList := by simp [unslashed]
  rw [Homes.path, (span_user tilded isPath).2, String.ofList_toList]

theorem expand_of_expands {arg result : String} (expands : sh.Expands arg result) :
    sh.homes.expand arg = result := by
  cases expands with
  | plain plain => exact Homes.expand_of_plain plain
  | home unslashed isPath lives =>
      have named := (named?_user unslashed isPath).trans (home?_eq_some_iff.mpr lives)
      rw [Homes.expand_of_named named, path_user unslashed isPath]
  | homeless unslashed isPath unknown =>
      refine Homes.expand_of_unnamed ((named?_user unslashed isPath).trans ?_)
      exact Option.eq_none_iff_forall_ne_some.mpr fun home found =>
        unknown home (home?_eq_some_iff.mp found)

theorem expands_expand (sh : Shell) (arg : String) : sh.Expands arg (sh.homes.expand arg) := by
  by_cases plain : Plain arg
  · rw [Homes.expand_of_plain plain]
    exact .plain plain
  · obtain ⟨user, path, unslashed, isPath, rfl⟩ := exists_user plain
    by_cases known : ∃ home, sh.HomeOf user home
    · obtain ⟨home, lives⟩ := known
      have expands := Expands.home unslashed isPath lives
      rwa [expand_of_expands expands]
    · push Not at known
      have expands := Expands.homeless unslashed isPath known
      rwa [expand_of_expands expands]

theorem expand_eq_iff {arg result : String} :
    sh.homes.expand arg = result ↔ sh.Expands arg result :=
  ⟨fun same => same ▸ expands_expand sh arg, expand_of_expands⟩

/-- A path behind an argument belongs to the path of the argument. -/
theorem Expands.append {arg result tail : String} (expands : sh.Expands arg result)
    (isPath : IsPath tail) : sh.Expands (arg ++ tail) (result ++ tail) := by
  cases expands with
  | plain plain =>
      by_cases empty : arg = ""
      · subst empty
        rw [String.empty_append]
        exact .plain (plain_of_isPath isPath)
      · exact .plain (Homes.plain_append empty plain tail)
  | @home user path home unslashed inside lives =>
      have moved : home ++ path ++ tail = home ++ (path ++ tail) := String.append_assoc
      rw [String.append_assoc, moved]
      exact .home unslashed (isPath_append inside isPath) lives
  | homeless unslashed inside unknown =>
      rw [String.append_assoc]
      exact .homeless unslashed (isPath_append inside isPath) unknown

/-- What becomes of an argument stays as it is, if no home directory begins with a tilde. -/
theorem Expands.again {arg result : String} (expands : sh.Expands arg result)
    (plain : ∀ user home, sh.HomeOf user home → Plain home) : sh.Expands result result := by
  cases expands with
  | plain plain => exact .plain plain
  | @home user path home unslashed isPath lives =>
      by_cases empty : home = ""
      · subst empty
        rw [String.empty_append]
        exact .plain (plain_of_isPath isPath)
      · exact .plain (Homes.plain_append empty (plain user home lives) path)
  | homeless unslashed isPath unknown => exact .homeless unslashed isPath unknown

end Shell

/-- In every shell: an argument becomes what `Shell.Expands` says and nothing else, which is itself
if it begins with no tilde or its home directory is not known.  Paths behind an argument stay, and
expanding again changes nothing if no home directory begins with a tilde. -/
theorem tilde_expansion_rewrites_user_prefix (sh : Shell) :
    (∀ arg result, sh.homes.expand arg = result ↔ sh.Expands arg result) ∧
    (∀ arg tail, IsPath tail → sh.homes.expand (arg ++ tail) = sh.homes.expand arg ++ tail) ∧
    ((∀ user home, sh.HomeOf user home → Plain home) →
      ∀ arg, sh.homes.expand (sh.homes.expand arg) = sh.homes.expand arg) := by
  refine ⟨fun arg result => Shell.expand_eq_iff, ?_, ?_⟩
  · intro arg tail isPath
    exact Shell.expand_of_expands ((sh.expands_expand arg).append isPath)
  · intro plain arg
    exact Shell.expand_of_expands ((sh.expands_expand arg).again plain)

/-- With a home directory that begins with a tilde, expanding again does change something. -/
example :
    let homes : Homes := { own := some "~u", ofUser := fun user => if user = "u" then "/u" else none }
    homes.expand "~/in" = "~u/in" ∧ homes.expand "~u/in" = "/u/in" := by decide

end PipeShell
