/-
  Reflash.Proofs.Loader.CommandLine

  Two scans read a command line, each from left to right and without knowing of the
  other: one for the first occurrence of a flag, one for arguments that stand on their
  own. They agree on which argument belongs to which flag. So a flag and its value may be
  put in anywhere, as long as they do not come between another flag and its value; the
  path is the last argument that stands on its own, and such an argument is never what a
  flag is given.
-/
import Reflash.Loader.Arguments

namespace Reflash

namespace Arguments

variable {arguments before after rest : List String} {flag value previous path : String}

/-! ## A pair put in -/

/-- There is room for a flag and its value at `k`: behind some argument, which is not itself a flag
waiting for a value. -/
def Gap (arguments : List String) (k : Nat) : Prop :=
  1 ≤ k ∧ ∃ previous, arguments[k - 1]? = some previous ∧ previous ∉ valueFlags

/-- The arguments with a flag and its value in front of the one at `k`. -/
def putIn (arguments : List String) (k : Nat) (flag value : String) : List String :=
  arguments.take k ++ flag :: value :: arguments.drop k

theorem Gap.getLast?_take {k : Nat} (h : Gap arguments k) :
    ∃ previous, (arguments.take k).getLast? = some previous ∧ previous ∉ valueFlags := by
  obtain ⟨hk, previous, hat, hprevious⟩ := h
  refine ⟨previous, ?_, hprevious⟩
  rw [List.getLast?_take, if_neg (by omega), hat, Option.some_or]

theorem startsWith_of_mem_valueFlags (h : flag ∈ valueFlags) : flag.startsWith "--" = true := by
  revert flag
  decide +kernel

/-- Behind arguments among which a flag does not occur, it is found where it stands. -/
theorem flagValue?_append (h : flag ∉ before) :
    flagValue? flag (before ++ after) = flagValue? flag after := by
  induction before with
  | nil => rfl
  | cons argument before ih =>
    obtain ⟨hne, hrest⟩ := List.ne_and_not_mem_of_not_mem_cons h
    rw [List.cons_append, flagValue?, if_neg hne.symm, ih hrest]

/-- A flag and its value are not taken for the value of another flag, unless that stands right in
front. -/
theorem flagValue?_append_pair {other : String} (hflag : flag ≠ other) (hvalue : value ≠ other)
    (hfront : before.getLast? ≠ some other) :
    flagValue? other (before ++ flag :: value :: after) = flagValue? other (before ++ after) := by
  induction before with
  | nil => simp only [List.nil_append, flagValue?, if_neg hflag, if_neg hvalue]
  | cons argument before ih =>
    cases before with
    | nil =>
      have hne : argument ≠ other := fun heq => hfront (congrArg some heq)
      simp only [List.cons_append, List.nil_append, flagValue?, if_neg hne, if_neg hflag,
        if_neg hvalue]
    | cons next before =>
      rw [List.getLast?_cons_cons] at hfront
      simp only [List.cons_append] at ih ⊢
      rw [flagValue?, ih hfront, List.head?_cons]
      rfl

/-- What stands in front matters only for being a flag or not. -/
theorem positional_congr (hprevious : previous ∉ valueFlags) (hvalue : value ∉ valueFlags)
    (rest : List String) : positional previous rest = positional value rest := by
  cases rest with
  | nil => rfl
  | cons argument rest => simp only [positional, List.contains_eq_mem, hprevious, hvalue]

/-- Neither a flag that is put in nor its value is taken for the path. -/
theorem positional_append_pair (hflag : flag ∈ valueFlags) (hvalue : value ∉ valueFlags)
    (hfront : ∀ argument ∈ (previous :: before).getLast?, argument ∉ valueFlags) :
    positional previous (before ++ flag :: value :: after)
      = positional previous (before ++ after) := by
  induction before generalizing previous with
  | nil =>
    have hprevious : previous ∉ valueFlags := hfront previous rfl
    simp only [List.nil_append, positional, startsWith_of_mem_valueFlags hflag, Bool.true_or,
      List.contains_eq_mem, hflag, decide_true, Bool.or_true, if_true]
    exact positional_congr hvalue hprevious after
  | cons argument before ih =>
    rw [List.getLast?_cons_cons] at hfront
    rw [List.cons_append, List.cons_append, positional, positional, ih hfront]

theorem flagValue?_putIn_self (h : flag ∉ arguments) (k : Nat) (value : String) :
    flagValue? flag (putIn arguments k flag value) = some value := by
  have hfront : flag ∉ arguments.take k := fun hmem => h (List.mem_of_mem_take hmem)
  rw [putIn, flagValue?_append hfront, flagValue?, if_pos rfl, List.head?_cons]

theorem flagValue?_putIn_other {k : Nat} {other : String} (h : Gap arguments k)
    (hvalue : value ∉ valueFlags) (hother : other ∈ valueFlags) (hne : flag ≠ other) :
    flagValue? other (putIn arguments k flag value) = flagValue? other arguments := by
  obtain ⟨previous, hlast, hprevious⟩ := h.getLast?_take
  have hfront : (arguments.take k).getLast? ≠ some other := by
    rw [hlast]
    rintro ⟨rfl⟩
    exact hprevious hother
  have hvalue' : value ≠ other := fun heq => hvalue (heq ▸ hother)
  rw [putIn, flagValue?_append_pair hne hvalue' hfront, List.take_append_drop]

theorem firmwarePath_putIn {k : Nat} (h : Gap arguments k) (hflag : flag ∈ valueFlags)
    (hvalue : value ∉ valueFlags) :
    firmwarePath (putIn arguments k flag value) = firmwarePath arguments := by
  obtain ⟨previous, hlast, hprevious⟩ := h.getLast?_take
  obtain ⟨n, rfl⟩ : ∃ n, k = n + 1 := ⟨k - 1, by have := h.1; omega⟩
  cases arguments with
  | nil => cases hlast
  | cons program rest =>
    rw [List.take_succ_cons] at hlast
    have hpair : positional program (rest.take n ++ flag :: value :: rest.drop n)
        = positional program (rest.take n ++ rest.drop n) := by
      refine positional_append_pair hflag hvalue ?_
      rw [hlast]
      rintro _ ⟨rfl⟩
      exact hprevious
    rw [List.take_append_drop] at hpair
    show firmwarePath (program :: (rest.take n ++ flag :: value :: rest.drop n)) = _
    rw [firmwarePath, firmwarePath, hpair]

/-! ## Arguments that stand on their own -/

/-- The argument at `place` is neither the program's name, nor a flag, nor what follows a flag that
takes a value. -/
def StandsAlone (arguments : List String) (place : Nat) : Prop :=
  ∃ front previous argument, place = front + 1 ∧ arguments[front]? = some previous
    ∧ arguments[place]? = some argument ∧ argument.startsWith "--" = false
    ∧ previous ∉ valueFlags

theorem not_standsAlone_nil (place : Nat) : ¬StandsAlone [] place := by
  rintro ⟨front, previous, argument, rfl, hprevious, -⟩
  cases hprevious

theorem not_standsAlone_zero (arguments : List String) : ¬StandsAlone arguments 0 := by
  rintro ⟨front, previous, argument, heq, -⟩
  cases heq

theorem standsAlone_one {argument : String} :
    StandsAlone (previous :: argument :: rest) 1
      ↔ (argument.startsWith "--" || valueFlags.contains previous) = false := by
  rw [Bool.or_eq_false_iff, List.contains_eq_mem, decide_eq_false_iff_not]
  constructor
  · rintro ⟨front, _, _, heq, hprevious, hargument, h⟩
    obtain rfl : front = 0 := by omega
    cases hprevious
    cases hargument
    exact h
  · exact fun h => ⟨0, previous, argument, rfl, rfl, rfl, h⟩

/-- Further back it does not matter what the list begins with. -/
theorem standsAlone_cons {place : Nat} :
    StandsAlone (previous :: rest) (place + 2) ↔ StandsAlone rest (place + 1) := by
  constructor
  · rintro ⟨front, before, argument, heq, hbefore, hargument, h⟩
    obtain rfl : front = place + 1 := by omega
    exact ⟨place, before, argument, rfl, hbefore, hargument, h⟩
  · rintro ⟨front, before, argument, heq, hbefore, hargument, h⟩
    obtain rfl : front = place := by omega
    exact ⟨front + 1, before, argument, rfl, hbefore, hargument, h⟩

/-- What follows a flag that takes a value does not stand on its own. -/
theorem not_standsAlone_behind {place : Nat} (hflag : flag ∈ valueFlags)
    (hat : arguments[place]? = some flag) : ¬StandsAlone arguments (place + 1) := by
  rintro ⟨front, previous, argument, heq, hprevious, -, -, hnot⟩
  obtain rfl : place = front := by omega
  rw [hat] at hprevious
  cases hprevious
  exact hnot hflag

/-- The last of the arguments that stand on their own is at `place`. -/
def LastAlone (arguments : List String) (place : Nat) : Prop :=
  StandsAlone arguments place ∧ ∀ later, place < later → ¬StandsAlone arguments later

theorem LastAlone.unique {place place' : Nat} (h : LastAlone arguments place)
    (h' : LastAlone arguments place') : place = place' := by
  rcases Nat.lt_trichotomy place place' with hlt | heq | hgt
  · exact absurd h'.1 (h.2 _ hlt)
  · exact heq
  · exact absurd h.1 (h'.2 _ hgt)

theorem LastAlone.behind {place : Nat} (h : LastAlone rest (place + 1)) :
    LastAlone (previous :: rest) (place + 2) := by
  refine ⟨standsAlone_cons.2 h.1, fun later hlater => ?_⟩
  obtain ⟨m, rfl⟩ : ∃ m, later = m + 2 := ⟨later - 2, by omega⟩
  exact fun halone => h.2 (m + 1) (by omega) (standsAlone_cons.1 halone)

/-- The last argument that the scan finds is the last one that stands on its own; it finds none only
if there is none. -/
theorem getLast?_positional (previous : String) (rest : List String) :
    (∃ place path, (positional previous rest).getLast? = some path
        ∧ LastAlone (previous :: rest) (place + 1) ∧ (previous :: rest)[place + 1]? = some path)
      ∨ (positional previous rest).getLast? = none
        ∧ ∀ place, ¬StandsAlone (previous :: rest) (place + 1) := by
  -- By induction on the arguments: one found further back counts before the one in front.
  induction rest generalizing previous with
  | nil =>
    refine .inr ⟨rfl, ?_⟩
    rintro place ⟨front, _, _, -, -, hargument, -⟩
    cases hargument
  | cons argument rest ih =>
    rcases ih argument with ⟨place, path, hpath, hlast, hat⟩ | ⟨hnil, hnone⟩
    · refine .inl ⟨place + 1, path, ?_, hlast.behind, hat⟩
      rw [positional]
      split
      · exact hpath
      · rw [List.getLast?_cons, hpath, Option.getD_some]
    -- None stands on its own further back, so it is the one in front or none.
    have hbehind : ∀ place, ¬StandsAlone (previous :: argument :: rest) (place + 2) :=
      fun place halone => hnone place (standsAlone_cons.1 halone)
    rw [positional]
    split
    next hskipped =>
      refine .inr ⟨hnil, fun place => ?_⟩
      cases place with
      | zero => rw [standsAlone_one, hskipped]; exact Bool.noConfusion
      | succ place => exact hbehind place
    next hfound =>
      refine .inl ⟨0, argument, ?_, ⟨standsAlone_one.2 (Bool.eq_false_iff.2 hfound), ?_⟩, rfl⟩
      · rw [List.getLast?_eq_none_iff.1 hnil, List.getLast?_singleton]
      · intro later hlater
        obtain ⟨m, rfl⟩ : ∃ m, later = m + 2 := ⟨later - 2, by omega⟩
        exact hbehind m

/-- The path is the last argument that stands on its own, and missing only if none does. -/
theorem firmwarePath_cases (arguments : List String) :
    (∃ place path, firmwarePath arguments = .ok path ∧ LastAlone arguments place
        ∧ arguments[place]? = some path)
      ∨ firmwarePath arguments = .error (.custom .invalidInput "No firmware file path provided")
        ∧ ∀ place, ¬StandsAlone arguments place := by
  cases arguments with
  | nil => exact .inr ⟨rfl, not_standsAlone_nil⟩
  | cons program rest =>
    rw [firmwarePath]
    rcases getLast?_positional program rest with ⟨place, path, hpath, hlast⟩ | ⟨hnil, hnone⟩
    · rw [hpath]
      exact .inl ⟨place + 1, path, rfl, hlast⟩
    · rw [hnil]
      refine .inr ⟨rfl, fun place => ?_⟩
      cases place with
      | zero => exact not_standsAlone_zero _
      | succ place => exact hnone place

/-- A flag is given the argument behind its first occurrence. -/
theorem flagValue?_eq_some (h : flagValue? flag arguments = some value) :
    ∃ place, arguments[place]? = some flag ∧ flag ∉ arguments.take place
      ∧ arguments[place + 1]? = some value := by
  induction arguments with
  | nil => cases h
  | cons argument rest ih =>
    rw [flagValue?] at h
    split at h
    next heq =>
      refine ⟨0, congrArg some heq, List.not_mem_nil, ?_⟩
      rwa [List.getElem?_cons_succ, ← List.head?_eq_getElem?]
    next hne =>
      obtain ⟨place, hat, hfirst, hvalue⟩ := ih h
      refine ⟨place + 1, hat, ?_, hvalue⟩
      rw [List.take_succ_cons, List.mem_cons]
      rintro (heq | hmem)
      · exact hne heq.symm
      · exact hfirst hmem

/-! ## Where flags may stand -/

/-- A flag that does not occur and a value for it may be put in behind any argument that is not
itself a flag waiting for a value. The flag then has this value, and the path and all other options
are as they were. On any command line the path is the last argument that stands on its own, at a
place whose argument no flag is given; and a path is missing exactly if no argument stands on its
own. -/
theorem flags_stand_anywhere (arguments : List String) :
    (∀ flag ∈ valueFlags, flag ∉ arguments → ∀ value ∉ valueFlags, ∀ k, Gap arguments k →
      flagValue? flag (putIn arguments k flag value) = some value
        ∧ firmwarePath (putIn arguments k flag value) = firmwarePath arguments
        ∧ (flag ≠ "--port" → port? (putIn arguments k flag value) = port? arguments)
        ∧ (flag ≠ "--baud" → baud (putIn arguments k flag value) = baud arguments)
        ∧ (flag ≠ "--node-id" → nodeId (putIn arguments k flag value) = nodeId arguments)
        ∧ (flag ≠ "--log-level" → logLevel (putIn arguments k flag value) = logLevel arguments))
      ∧ (∀ path, firmwarePath arguments = .ok path
          ↔ ∃ place, LastAlone arguments place ∧ arguments[place]? = some path)
      ∧ (∀ flag ∈ valueFlags, ∀ value, flagValue? flag arguments = some value →
          ∃ place, arguments[place]? = some flag ∧ flag ∉ arguments.take place
            ∧ arguments[place + 1]? = some value ∧ ¬StandsAlone arguments (place + 1))
      ∧ ((∃ failure, firmwarePath arguments = .error failure)
          ↔ ∀ place, ¬StandsAlone arguments place) := by
  refine ⟨?_, fun path => ?_, ?_, ?_⟩
  · intro flag hflag habsent value hvalue k hgap
    refine ⟨flagValue?_putIn_self habsent k value, firmwarePath_putIn hgap hflag hvalue, ?_, ?_, ?_,
      ?_⟩
    · intro hne
      rw [port?, port?, flagValue?_putIn_other hgap hvalue (by decide) hne]
    · intro hne
      rw [baud, baud, flagValue?_putIn_other hgap hvalue (by decide) hne]
    · intro hne
      rw [nodeId, nodeId, flagValue?_putIn_other hgap hvalue (by decide) hne]
    · intro hne
      rw [logLevel, logLevel, flagValue?_putIn_other hgap hvalue (by decide) hne]
  · rcases firmwarePath_cases arguments with ⟨place, found, hfound, hlast, hat⟩ | ⟨herror, hnone⟩
    · rw [hfound]
      constructor
      · rintro ⟨rfl⟩
        exact ⟨place, hlast, hat⟩
      · rintro ⟨place', hlast', hat'⟩
        rw [← hlast.unique hlast', hat] at hat'
        exact congrArg Except.ok (Option.some.inj hat')
    · rw [herror]
      exact ⟨nofun, fun ⟨place, hlast, _⟩ => absurd hlast.1 (hnone place)⟩
  · intro flag hflag value hvalue
    obtain ⟨place, hat, hfirst, hbehind⟩ := flagValue?_eq_some hvalue
    exact ⟨place, hat, hfirst, hbehind, not_standsAlone_behind hflag hat⟩
  · rcases firmwarePath_cases arguments with ⟨place, found, hfound, hlast, -⟩ | ⟨herror, hnone⟩
    · rw [hfound]
      exact ⟨nofun, fun h => absurd hlast.1 (h place)⟩
    · rw [herror]
      exact iff_of_true ⟨_, rfl⟩ hnone

/-- A speed is put in behind the name of the program. The port is named like the image, and the last
flag has no value. -/
theorem flags_stand_anywhere_front :
    let arguments := ["loader", "a.bin", "--port", "b.bin", "b.bin", "--node-id"]
    let longer := ["loader", "--baud", "--fast", "a.bin", "--port", "b.bin", "b.bin", "--node-id"]
    longer = putIn arguments 1 "--baud" "--fast" ∧ Gap arguments 1
      ∧ flagValue? "--baud" longer = some "--fast" ∧ firmwarePath longer = .ok "b.bin"
      ∧ port? longer = port? arguments ∧ nodeId longer = nodeId arguments
      ∧ ∃ place, arguments[place]? = some "--port" ∧ arguments[place + 1]? = some "b.bin"
        ∧ ¬StandsAlone arguments (place + 1) := by
  intro arguments longer
  obtain ⟨hputIn, -, hgiven, -⟩ := flags_stand_anywhere arguments
  have hgap : Gap arguments 1 := ⟨Nat.le_refl 1, "loader", rfl, by decide⟩
  obtain ⟨hvalue, hpath, hport, -, hnode, -⟩ := hputIn "--baud" (by decide) (by decide) "--fast"
    (by decide) 1 hgap
  have hwas : firmwarePath arguments = .ok "b.bin" := by with_unfolding_all rfl
  obtain ⟨place, hat, -, hbehind, halone⟩ := hgiven "--port" (by decide) "b.bin" (by decide)
  exact ⟨rfl, hgap, hvalue, hpath.trans hwas, hport (by decide), hnode (by decide), place, hat,
    hbehind, halone⟩

end Arguments

end Reflash
