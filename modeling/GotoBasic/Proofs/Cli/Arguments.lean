import GotoBasic.Cli

/-!
# What the arguments ask for

Arguments are read from left to right, and the first that settles the matter does
(`Request.ofArgs_eq_iff`).  Where none does, the first argument that can be a name of a file is it.
`--debug` never settles anything: it may stand anywhere, and all it can change is whether notes are
asked for (`Request.ofArgs_insert`).
-/

namespace GotoBasic.Request

/-- The argument is the name of a file. -/
def namesFile (arg : String) : Bool := arg != "" && arg.toList.head? != some '-'

/-- The argument, behind the arguments `before`, settles what is asked for. -/
inductive Decides (before : List String) : String → Request → Prop
  | help {arg : String} (asks : arg = "--help" ∨ arg = "-h") : Decides before arg .usage
  | flag {arg : String} (dash : arg.toList.head? = some '-')
      (unknown : arg ≠ "--help" ∧ arg ≠ "-h" ∧ arg ≠ "--debug") :
      Decides before arg (.reject ("unknown flag '" ++ arg ++ "'"))
  /-- Behind the name of a file there is no further argument, not even an empty one. -/
  | surplus {arg : String} (positional : arg.toList.head? ≠ some '-')
      (named : ∃ file ∈ before, namesFile file) :
      Decides before arg (.reject ("unexpected argument '" ++ arg ++ "'"))

/-- None of the arguments settles what is asked for. -/
def Undecided (args : List String) : Prop :=
  ∀ before arg after q, args = before ++ arg :: after → ¬ Decides before arg q

/-- What arguments ask for. -/
inductive Asks (args : List String) : Request → Prop
  | decided {before after : List String} {arg : String} {q : Request}
      (split : args = before ++ arg :: after) (undecided : Undecided before)
      (decides : Decides before arg q) : Asks args q
  | unnamed (undecided : Undecided args) (none : ∀ arg ∈ args, namesFile arg = false) :
      Asks args (.reject "missing file argument")
  | named {file : String} (undecided : Undecided args)
      (first : args.find? namesFile = some file) : Asks args (.run file ("--debug" ∈ args))

variable {args before after : List String} {arg file : String} {q : Request}

theorem Undecided.nil : Undecided [] := by
  intro front arg behind q split
  cases front <;> cases split

theorem Undecided.concat (undecided : Undecided before) (here : ∀ q, ¬ Decides before arg q) :
    Undecided (before ++ [arg]) := by
  intro front arg' behind q split
  rcases List.eq_nil_or_concat behind with rfl | ⟨behind, last, rfl⟩
  · obtain ⟨rfl, same⟩ := List.append_inj' split rfl
    cases same
    exact here q
  · rw [List.concat_eq_append, ← List.cons_append, ← List.append_assoc] at split
    exact undecided front arg' behind q (List.append_inj' split rfl).1

/-- The file named by arguments, or the empty text. -/
def named (args : List String) : String := (args.find? namesFile).getD ""

theorem named_eq_empty_iff : named args = "" ↔ ∀ arg ∈ args, namesFile arg = false := by
  unfold named
  cases found : args.find? namesFile with
  | none => simpa using List.find?_eq_none.1 found
  | some file =>
    have names := List.find?_some found
    have mem := List.mem_of_find?_eq_some found
    have nonempty : file ≠ "" := by
      rintro rfl
      cases names
    refine iff_of_false nonempty fun none => ?_
    rw [none file mem] at names
    cases names

theorem exists_named (nonempty : named args ≠ "") : ∃ file ∈ args, namesFile file := by
  unfold named at nonempty
  cases found : args.find? namesFile with
  | none =>
    rw [found] at nonempty
    exact absurd rfl nonempty
  | some file => exact ⟨file, List.mem_of_find?_eq_some found, List.find?_some found⟩

theorem named_append_of_ne (nonempty : named before ≠ "") (after : List String) :
    named (before ++ after) = named before := by
  unfold named at nonempty ⊢
  rw [List.find?_append]
  cases found : before.find? namesFile with
  | none =>
    rw [found] at nonempty
    exact absurd rfl nonempty
  | some file => rfl

theorem named_append_of_empty (empty : named before = "") (after : List String) :
    named (before ++ after) = named after := by
  have none : before.find? namesFile = none :=
    List.find?_eq_none.2 fun arg mem => by simpa using named_eq_empty_iff.1 empty arg mem
  unfold named
  rw [List.find?_append, none, Option.none_or]

/-! ## Reading on -/

/-- What has been read shows in the name of the file and in whether notes are asked for. -/
theorem scan_cons_of_undecided (undecided : ∀ q, ¬ Decides before arg q) (after : List String) :
    scan (named before) ("--debug" ∈ before) (arg :: after) =
      scan (named (before ++ [arg])) ("--debug" ∈ before ++ [arg]) after := by
  have help : ¬ (arg = "--help" ∨ arg = "-h") := fun asks => undecided _ (.help asks)
  rw [scan, if_neg help]
  by_cases debug : arg = "--debug"
  · subst debug
    have same : named (before ++ ["--debug"]) = named before := by
      by_cases empty : named before = ""
      · rw [named_append_of_empty empty, empty]
        rfl
      · exact named_append_of_ne empty _
    rw [if_pos rfl, same]
    simp
  · have other : decide ("--debug" ∈ before ++ [arg]) = decide ("--debug" ∈ before) := by
      simp [Ne.symm debug]
    have positional : arg.toList.head? ≠ some '-' := fun dash =>
      undecided _ (.flag dash ⟨fun is => help (.inl is), fun is => help (.inr is), debug⟩)
    rw [if_neg debug, if_neg positional, other]
    by_cases empty : named before = ""
    · have name : named [arg] = arg := by
        by_cases nothing : arg = ""
        · subst nothing
          rfl
        · have names : namesFile arg = true := by simp [namesFile, nothing, positional]
          rw [named, List.find?_cons_of_pos names, Option.getD_some]
      rw [if_pos empty, named_append_of_empty empty, name]
    · exact absurd (.surplus positional (exists_named empty)) (undecided _)

theorem scan_append_of_undecided (undecided : Undecided (before ++ args)) (after : List String) :
    scan (named before) ("--debug" ∈ before) (args ++ after) =
      scan (named (before ++ args)) ("--debug" ∈ before ++ args) after := by
  induction args generalizing before with
  | nil => rw [List.append_nil, List.nil_append]
  | cons arg args ih =>
    have here (q : Request) : ¬ Decides before arg q := undecided before arg args q rfl
    have shape : before ++ arg :: args = before ++ [arg] ++ args := by simp
    rw [List.cons_append, scan_cons_of_undecided here, shape]
    exact ih (by rw [← shape]; exact undecided)

theorem ofArgs_append_of_undecided (undecided : Undecided before) (after : List String) :
    ofArgs (before ++ after) = scan (named before) ("--debug" ∈ before) after := by
  have behindNothing : Undecided ([] ++ before) := undecided
  exact scan_append_of_undecided behindNothing after

theorem scan_of_decides (decides : Decides before arg q) (after : List String) :
    scan (named before) ("--debug" ∈ before) (arg :: after) = q := by
  cases decides with
  | help asks => rw [scan, if_pos asks]
  | flag dash unknown =>
    obtain ⟨help, short, debug⟩ := unknown
    rw [scan, if_neg (by simp [help, short]), if_neg debug, if_pos dash]
  | surplus positional found =>
    have help : ¬ (arg = "--help" ∨ arg = "-h") := by
      rintro (rfl | rfl) <;> exact positional rfl
    have debug : arg ≠ "--debug" := by
      rintro rfl
      exact positional rfl
    have nonempty : named before ≠ "" := by
      obtain ⟨file, mem, names⟩ := found
      intro empty
      rw [named_eq_empty_iff.1 empty file mem] at names
      cases names
    rw [scan, if_neg help, if_neg debug, if_neg positional, if_neg nonempty]

/-! ## All arguments -/

theorem undecided_or_decided (undecided : Undecided before) (args : List String) :
    Undecided (before ++ args) ∨ ∃ front arg behind q, before ++ args = front ++ arg :: behind ∧
      Undecided front ∧ Decides front arg q := by
  induction args generalizing before with
  | nil => exact .inl (by rwa [List.append_nil])
  | cons arg args ih =>
    by_cases decided : ∃ q, Decides before arg q
    · obtain ⟨q, decides⟩ := decided
      exact .inr ⟨before, arg, args, q, rfl, undecided, decides⟩
    · have shape : before ++ arg :: args = before ++ [arg] ++ args := by simp
      rw [shape]
      exact ih (undecided.concat fun q decides => decided ⟨q, decides⟩)

theorem exists_asks (args : List String) : ∃ q, Asks args q := by
  rcases undecided_or_decided .nil args with undecided | ⟨front, arg, behind, q, split, rest⟩
  · cases found : args.find? namesFile with
    | none =>
      refine ⟨_, .unnamed undecided fun arg mem => ?_⟩
      simpa using List.find?_eq_none.1 found arg mem
    | some file => exact ⟨_, .named undecided found⟩
  · exact ⟨q, .decided split rest.1 rest.2⟩

theorem ofArgs_of_asks (asks : Asks args q) : ofArgs args = q := by
  cases asks with
  | decided split undecided decides =>
    rw [split, ofArgs_append_of_undecided undecided, scan_of_decides decides]
  | unnamed undecided none =>
    have ended := ofArgs_append_of_undecided undecided []
    rw [List.append_nil] at ended
    rw [ended, scan, if_pos (named_eq_empty_iff.2 none)]
  | @named file undecided first =>
    have ended := ofArgs_append_of_undecided undecided []
    have name : named args = file := by rw [named, first, Option.getD_some]
    have nonempty : named args ≠ "" := by
      intro empty
      have names := List.find?_some first
      rw [named_eq_empty_iff.1 empty file (List.mem_of_find?_eq_some first)] at names
      cases names
    rw [List.append_nil] at ended
    rw [ended, scan, if_neg nonempty, name]

/-- The first argument that settles the matter decides; where there is none, the file that is named
first is run, if one is named. -/
theorem ofArgs_eq_iff : ofArgs args = q ↔ Asks args q := by
  refine ⟨fun same => ?_, ofArgs_of_asks⟩
  obtain ⟨q', asks⟩ := exists_asks args
  rw [← same, ofArgs_of_asks asks]
  exact asks

/-! ## Asking for notes -/

/-- The request with notes, if it is one to run a file. -/
def withNotes : Request → Request
  | .run file _ => .run file true
  | q => q

/-- One argument keeps the difference that notes make. -/
theorem scan_cons_withNotes {debug debug' : Bool}
    (later : ∀ file, scan file debug' before = (scan file debug after).withNotes)
    (noted : ∀ file, scan file true before = (scan file true after).withNotes) (file : String) :
    scan file debug' (arg :: before) = (scan file debug (arg :: after)).withNotes := by
  rw [scan, scan]
  by_cases help : arg = "--help" ∨ arg = "-h"
  · simp only [if_pos help, withNotes]
  by_cases notes : arg = "--debug"
  · simp only [if_neg help, if_pos notes]
    exact noted file
  by_cases dash : arg.toList.head? = some '-'
  · simp only [if_neg help, if_neg notes, if_pos dash, withNotes]
  by_cases empty : file = ""
  · simp only [if_neg help, if_neg notes, if_neg dash, if_pos empty]
    exact later arg
  · simp only [if_neg help, if_neg notes, if_neg dash, if_neg empty, withNotes]

theorem scan_true (args : List String) (debug : Bool) (file : String) :
    scan file true args = (scan file debug args).withNotes := by
  induction args generalizing file debug with
  | nil =>
    unfold scan
    split <;> rfl
  | cons arg args ih => exact scan_cons_withNotes (ih debug) (ih true) file

theorem scan_insert (before after : List String) (debug : Bool) (file : String) :
    scan file debug (before ++ "--debug" :: after) =
      (scan file debug (before ++ after)).withNotes := by
  induction before generalizing file debug with
  | nil => exact scan_true after debug file
  | cons arg before ih => exact scan_cons_withNotes (ih debug) (ih true) file

/-- Wherever `--debug` stands, it asks for notes and for nothing else. -/
theorem ofArgs_insert (before after : List String) :
    ofArgs (before ++ "--debug" :: after) = (ofArgs (before ++ after)).withNotes :=
  scan_insert before after false ""

end GotoBasic.Request
