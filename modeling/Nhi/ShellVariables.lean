import Nhi.BorrowedEnviron

/-!
daemon/src/nhi.c: which of a shell's variables `getenv` finds after
`get_shell_environ`. The strings are chosen by the start of their names, and
only four of them are kept.
-/

namespace Nhi

open Sql (ascii)

/-- A string of the environment, with what lies in the memory of the shell where
512 bytes are read from its start. -/
structure ShellString where
  text : Text
  behind : Element
  nonempty : text ≠ []
  noNul : 0#8 ∉ text
  short : text.length < environElementSize

structure ShellVector where
  strings : List ShellString
  fits : strings.length ≤ environAmountOfVariables

def ShellString.element (string : ShellString) : Element := cString string.behind string.text

def ShellVector.reads (vector : ShellVector) : ShellReads :=
  ⟨true, true, fun i => (vector.strings.map ShellString.element)[i]?⟩

def wantedNames : List Text := [pwdName, nhiPS1, nhiExitStatus, nhiLastExecutedCommand]

def ShellString.names (name : Text) (string : ShellString) : Bool := (name ++ [61#8]).isPrefixOf string.text

def ShellString.wanted (string : ShellString) : Bool := wantedNames.any fun name => name.isPrefixOf string.text

/-- What `getenv` gives in the shell itself. -/
def ShellVector.value (vector : ShellVector) (event : Nat) (name : Text) : Found :=
  match vector.strings.find? (ShellString.names name) with
  | some string => .value (some event) (string.text.drop (name.length + 1))
  | none => .missing

def ShellVector.kept (vector : ShellVector) : List ShellString :=
  (vector.strings.filter ShellString.wanted).take localEnvironAmountOfVariables

/-- If there is an entry of that name, one is among the first four strings that
begin like one of the names; if there is none, fewer than four begin so. -/
structure ShellVector.Finds (vector : ShellVector) (name : Text) : Prop where
  present : (∃ string ∈ vector.strings, string.names name) → ∃ string ∈ vector.kept, string.names name
  absent : (∀ string ∈ vector.strings, ¬ string.names name) →
    (vector.strings.filter ShellString.wanted).length < localEnvironAmountOfVariables

section Element

variable (string : ShellString)

theorem element_toList :
    string.element.toList = string.text ++ 0#8 :: string.behind.toList.drop (string.text.length + 1) :=
  cString_fits string.behind string.short

theorem isPrefixOf_element {start : Text} (noNul : 0#8 ∉ start) :
    start.isPrefixOf string.element.toList = start.isPrefixOf string.text := by
  rw [Bool.eq_iff_iff, List.isPrefixOf_iff_prefix, List.isPrefixOf_iff_prefix, element_toList]
  constructor
  · intro begins
    rcases Nat.lt_or_ge string.text.length start.length with longer | within
    · have past : string.text ++ [0#8] <+: start := by
        refine List.prefix_of_prefix_length_le ?_ begins (by simpa using Nat.succ_le_of_lt longer)
        exact List.prefix_append_right_inj _ |>.mpr (List.prefix_append [0#8] _)
      exact absurd (past.subset (by simp)) noNul
    · exact List.prefix_of_prefix_length_le begins (List.prefix_append _ _) within
  · exact fun begins => begins.trans (List.prefix_append _ _)

theorem wanted_element : Nhi.wanted string.element = string.wanted := by
  simp only [Nhi.wanted, ShellString.wanted, wantedNames, List.any_cons, List.any_nil,
    isPrefixOf_element string (show 0#8 ∉ pwdName by decide),
    isPrefixOf_element string (show 0#8 ∉ nhiPS1 by decide),
    isPrefixOf_element string (show 0#8 ∉ nhiExitStatus by decide),
    isPrefixOf_element string (show 0#8 ∉ nhiLastExecutedCommand by decide)]

theorem begins_element {name : Text} (noNul : 0#8 ∉ name) : begins name string.element = string.names name :=
  isPrefixOf_element string (by simpa using noNul)

theorem strlen_element : strlen string.element.toList ≠ 0 := by
  rw [strlen, element_toList, takeWhile_terminated string.noNul]
  exact mt List.length_eq_zero_iff.mp string.nonempty

theorem names_wanted {name : Text} (member : name ∈ wantedNames) (named : string.names name = true) :
    string.wanted = true := by
  rw [ShellString.wanted, List.any_eq_true]
  refine ⟨name, member, ?_⟩
  rw [ShellString.names, List.isPrefixOf_iff_prefix] at named
  exact List.isPrefixOf_iff_prefix.mpr ((List.prefix_append _ _).trans named)

theorem value_element {name : Text} (named : string.names name = true) :
    (string.element.toList.drop (name.length + 1)).takeWhile (· ≠ 0#8) = string.text.drop (name.length + 1) ∧
      Delimited name string.element := by
  obtain ⟨value, same⟩ := List.isPrefixOf_iff_prefix.mp named
  have long : name.length + 1 ≤ string.text.length := by
    rw [← same]
    simp
  have noNul : 0#8 ∉ string.text.drop (name.length + 1) := fun member => string.noNul (List.mem_of_mem_drop member)
  rw [Delimited, element_toList, List.drop_append_of_le_length long, takeWhile_terminated noNul]
  exact ⟨rfl, List.mem_append_right _ List.mem_cons_self⟩

end Element

section Vector

variable (vector : ShellVector)

theorem readableFrom_strings (strings : List ShellString) (elements : Nat → Option Element) (passes i : Nat)
    (fits : strings.length ≤ passes)
    (reads : ∀ k, elements (i + k) = (strings.map ShellString.element)[k]?) :
    readableFrom elements i passes = strings.map ShellString.element := by
  induction passes generalizing i strings with
  | zero =>
      obtain rfl := List.length_eq_zero_iff.mp (Nat.le_zero.mp fits)
      rfl
  | succ passes ih =>
      rw [readableFrom, ← Nat.add_zero i, reads 0, Nat.add_zero]
      cases strings with
      | nil => rfl
      | cons string rest =>
          have later := ih rest (i + 1) (Nat.le_of_succ_le_succ fits) fun k => by
            rw [Nat.add_assoc, Nat.add_comm 1 k, reads (k + 1), List.map_cons, List.getElem?_cons_succ]
          simp only [List.map_cons, List.getElem?_cons_zero, if_neg (strlen_element string), later]

theorem borrowable_reads : borrowable vector.reads = vector.kept.map ShellString.element := by
  have readable : readableFrom vector.reads.elements 0 environAmountOfVariables =
      vector.strings.map ShellString.element := by
    refine readableFrom_strings _ _ _ 0 vector.fits fun k => ?_
    rw [Nat.zero_add, ShellVector.reads]
  have same : Nhi.wanted ∘ ShellString.element = ShellString.wanted := by
    funext string
    rw [Function.comp_apply, wanted_element]
  rw [borrowable, readable, List.filter_map, same, ← List.map_take, ShellVector.kept]

variable {vector} {name : Text}

theorem find?_kept (member : name ∈ wantedNames) {string : ShellString}
    (found : vector.kept.find? (ShellString.names name) = some string) :
    vector.strings.find? (ShellString.names name) = some string := by
  have all : vector.strings.find? (ShellString.names name) =
      (vector.strings.filter ShellString.wanted).find? (ShellString.names name) := by
    rw [List.find?_filter]
    congr
    funext other
    rw [Bool.eq_iff_iff, decide_eq_true_eq]
    exact (and_iff_right_of_imp (names_wanted other member)).symm
  rw [all, ← List.take_append_drop localEnvironAmountOfVariables (vector.strings.filter ShellString.wanted),
    List.find?_append]
  exact Option.or_eq_some_iff.mpr (Or.inl found)

theorem getenv_kept (daemon : Text → Option Text) (event : Nat) (noNul : 0#8 ∉ name) :
    getenv daemon (.copied event (vector.kept.map ShellString.element)) name =
      match vector.kept.find? (ShellString.names name) with
      | some string => .value (some event) (string.text.drop (name.length + 1))
      | none => if vector.kept.length < localEnvironAmountOfVariables then .missing else .beyond := by
  have same : begins name ∘ ShellString.element = ShellString.names name :=
    funext fun string => begins_element string noNul
  rw [getenv, List.find?_map, same, List.length_map]
  cases found : vector.kept.find? (ShellString.names name) with
  | none => rfl
  | some string =>
      obtain ⟨value, ended⟩ := value_element string (List.find?_some found)
      rw [Option.map_some]
      simp only [if_pos ended, value]

end Vector

/-- `getenv` gives for a name what it gives in the shell exactly when the name
is found among the strings there is room for. -/
theorem getenv_shell_iff (vector : ShellVector) (daemon : Text → Option Text) (event : Nat) (environ : Environ) :
    ∀ name ∈ wantedNames,
      getenv daemon (getShellEnviron event vector.reads environ) name = vector.value event name ↔
        vector.Finds name := by
  intro name member
  have plain : ∀ name ∈ wantedNames, 0#8 ∉ name := by decide
  rw [getShellEnviron_copied event environ ⟨rfl, rfl⟩, borrowable_reads,
    getenv_kept daemon event (plain name member), ShellVector.value]
  cases found : vector.kept.find? (ShellString.names name) with
  | some string =>
      have there := List.mem_of_find?_eq_some found
      have named := List.find?_some found
      rw [find?_kept member found]
      have inside := List.mem_of_mem_filter (List.mem_of_mem_take there)
      exact iff_of_true rfl ⟨fun _ => ⟨string, there, named⟩, fun none => absurd named (none string inside)⟩
  | none =>
      -- what `getenv` does then depends on the room that is left
      have lost : ¬ ∃ string ∈ vector.kept, string.names name := by simpa using found
      cases shell : vector.strings.find? (ShellString.names name) with
      | some string =>
          have entry : ∃ string ∈ vector.strings, string.names name :=
            ⟨string, List.mem_of_find?_eq_some shell, List.find?_some shell⟩
          refine iff_of_false (fun same => ?_) fun finds => lost (finds.present entry)
          simp only at same
          split_ifs at same
      | none =>
          have absent : ∀ string ∈ vector.strings, ¬ string.names name := by simpa using shell
          have room : vector.kept.length < localEnvironAmountOfVariables ↔
              (vector.strings.filter ShellString.wanted).length < localEnvironAmountOfVariables := by
            rw [ShellVector.kept, List.length_take]
            omega
          simp only [room]
          constructor
          · intro same
            split_ifs at same with fewer
            refine ⟨fun ⟨string, there, named⟩ => ?_, fun _ => fewer⟩
            exact absurd named (absent string there)
          · exact fun finds => if_pos (finds.absent absent)

theorem getenv_shell_root :
    ∃ vector : ShellVector,
      vector.strings.map ShellString.text =
        [ascii "SHLVL=1", ascii "PWDX=no", ascii "NHI_PS1=$ ", ascii "HOME=/root", ascii "PWD=/"] ∧
      getenv (fun _ => none) (getShellEnviron 1 vector.reads .original) pwdName = .value (some 1) (ascii "/") ∧
      getenv (fun _ => none) (getShellEnviron 1 vector.reads .original) nhiPS1 = .value (some 1) (ascii "$ ") ∧
      getenv (fun _ => none) (getShellEnviron 1 vector.reads .original) nhiExitStatus = .missing := by
  let blank : Element := Vector.replicate environElementSize 0#8
  let vector : ShellVector :=
    ⟨[⟨ascii "SHLVL=1", blank, by decide, by decide, by decide⟩,
      ⟨ascii "PWDX=no", blank, by decide, by decide, by decide⟩,
      ⟨ascii "NHI_PS1=$ ", blank, by decide, by decide, by decide⟩,
      ⟨ascii "HOME=/root", blank, by decide, by decide, by decide⟩,
      ⟨ascii "PWD=/", blank, by decide, by decide, by decide⟩], by decide⟩
  have gives := getenv_shell_iff vector (fun _ => none) 1 .original
  -- three of the strings begin like one of the names, so there is room for all of them
  have pwd : vector.Finds pwdName := ⟨fun _ => by decide, fun _ => by decide⟩
  have prompt : vector.Finds nhiPS1 := ⟨fun _ => by decide, fun _ => by decide⟩
  have status : vector.Finds nhiExitStatus := ⟨fun there => by revert there; decide, fun _ => by decide⟩
  exact ⟨vector, rfl, (gives pwdName (by decide)).mpr pwd, (gives nhiPS1 (by decide)).mpr prompt,
    (gives nhiExitStatus (by decide)).mpr status⟩

/-- Four variables whose names only begin with `PWD` take all the room, and
`getenv` runs past the array. -/
theorem crowded_pwd :
    ∃ vector : ShellVector,
      vector.strings.map ShellString.text =
        [ascii "PWDA=1", ascii "PWDB=2", ascii "PWDC=3", ascii "PWDD=4", ascii "PWD=/"] ∧
      ∀ daemon event environ,
        vector.value event pwdName = .value (some event) [47#8] ∧
        getenv daemon (getShellEnviron event vector.reads environ) pwdName = .beyond := by
  let blank : Element := Vector.replicate environElementSize 0#8
  refine ⟨⟨[⟨ascii "PWDA=1", blank, by decide, by decide, by decide⟩,
    ⟨ascii "PWDB=2", blank, by decide, by decide, by decide⟩,
    ⟨ascii "PWDC=3", blank, by decide, by decide, by decide⟩,
    ⟨ascii "PWDD=4", blank, by decide, by decide, by decide⟩,
    ⟨ascii "PWD=/", blank, by decide, by decide, by decide⟩], by decide⟩, rfl, fun daemon event environ => ?_⟩
  rw [getShellEnviron_copied event environ ⟨rfl, rfl⟩, borrowable_reads, getenv_kept daemon event (by decide)]
  exact ⟨rfl, rfl⟩

end Nhi
