import Stencil.Command.Arguments
import Stencil.Proofs.Except

/-!
# Switches among arguments

Arguments are gathered in order, but a switch that was given before the others has no part in how
these are gathered. So every list of arguments that asks for a run to generate asks, with one more
switch after the command's name, for the same run with the switch.

## Main results

* `Arguments.gather_withSwitch`: gathering after a switch was given
* `Request.exists_ofArguments_keepSwitch`: the switch to write files in spite of errors
-/

namespace Stencil

namespace Arguments

variable {s : Signature} {g r : Gathered} {switch : String} {arguments : List String}

namespace Gathered

/-- What was gathered, after a switch that was given before. -/
def withSwitch (g : Gathered) (switch : String) : Gathered :=
  { g with switches := g.switches ++ [switch] }

/-- A value is added if it is one of the kind that its position asks for. -/
theorem addValue_eq_ok_iff {value : String} :
    g.addValue s value = .ok r ↔
      (∃ kind, s.kind? g.values.length = some kind ∧ kind.accepts value = true) ∧
        r = { g with values := g.values ++ [value] } := by
  unfold addValue
  cases s.kind? g.values.length with
  | none => simp
  | some kind => by_cases accepted : kind.accepts value <;> simp [accepted, @eq_comm _ r]

theorem addValue_withSwitch {value : String} (added : g.addValue s value = .ok r) :
    (g.withSwitch switch).addValue s value = .ok (r.withSwitch switch) := by
  obtain ⟨isAccepted, rfl⟩ := addValue_eq_ok_iff.mp added
  exact addValue_eq_ok_iff.mpr ⟨isAccepted, rfl⟩

theorem foldlM_addValue_withSwitch {values : List String}
    (added : values.foldlM (addValue s) g = .ok r) :
    values.foldlM (addValue s) (g.withSwitch switch) = .ok (r.withSwitch switch) := by
  induction values generalizing g with
  | nil =>
    cases added
    rfl
  | cons value values ih =>
    obtain ⟨next, first, others⟩ := bind_eq_ok_iff.mp added
    exact bind_eq_ok_iff.mpr ⟨_, addValue_withSwitch first, ih others⟩

theorem switches_of_addValue {value : String} (added : g.addValue s value = .ok r) :
    r.switches = g.switches := by
  obtain ⟨-, rfl⟩ := addValue_eq_ok_iff.mp added
  rfl

theorem switches_of_foldlM_addValue {values : List String}
    (added : values.foldlM (addValue s) g = .ok r) : r.switches = g.switches :=
  of_foldlM_eq_ok (fun _ _ _ _ same isNext => (switches_of_addValue isNext).trans same) rfl added

theorem addSwitch_eq_ok_iff {argument : String} :
    g.addSwitch argument = .ok r ↔
      argument ∉ g.switches ∧ r = { g with switches := argument :: g.switches } := by
  unfold addSwitch
  by_cases given : argument ∈ g.switches <;> simp [given, eq_comm]

end Gathered

open Gathered

/-- Switches that were given are never dropped. -/
theorem switches_subset_of_gather : gather s g arguments = .ok r → g.switches ⊆ r.switches := by
  fun_induction gather s g arguments with
  | case1 g =>
    rintro ⟨⟩
    exact List.Subset.refl _
  | case2 g rest =>
    intro added
    rw [switches_of_foldlM_addValue added]
    exact List.Subset.refl _
  | case3 | case5 | case8 => nofun
  | case4 g name rest _ ih | case7 g argument rest _ _ _ _ name _ ih =>
    intro gathered
    obtain ⟨format, -, others⟩ := bind_eq_ok_iff.mp gathered
    exact ih format others
  | case6 g argument rest _ _ _ _ ih =>
    intro gathered
    obtain ⟨next, isNext, others⟩ := bind_eq_ok_iff.mp gathered
    obtain ⟨-, rfl⟩ := addSwitch_eq_ok_iff.mp isNext
    exact List.Subset.trans (List.subset_cons_self _ _) (ih _ others)
  | case9 g value rest _ _ _ _ _ _ ih =>
    intro gathered
    obtain ⟨next, isNext, others⟩ := bind_eq_ok_iff.mp gathered
    rw [← switches_of_addValue isNext]
    exact ih next others

/-- A switch that was given before has no part in how other arguments are gathered, unless it is
among them. -/
theorem gather_withSwitch (absent : switch ∉ r.switches) :
    gather s g arguments = .ok r →
      gather s (g.withSwitch switch) arguments = .ok (r.withSwitch switch) := by
  fun_induction gather s g arguments with
  | case1 g =>
    rintro ⟨⟩
    rfl
  | case2 g rest =>
    intro added
    unfold gather
    rw [if_pos rfl]
    exact foldlM_addValue_withSwitch added
  | case3 | case5 | case8 => nofun
  | case4 g name rest notSeparator ih =>
    intro gathered
    obtain ⟨format, isFormat, others⟩ := bind_eq_ok_iff.mp gathered
    unfold gather
    rw [if_neg notSeparator, if_pos rfl]
    exact bind_eq_ok_iff.mpr ⟨format, isFormat, ih format others⟩
  | case6 g argument rest notSeparator notOption notHelp isSwitch ih =>
    intro gathered
    obtain ⟨next, isNext, others⟩ := bind_eq_ok_iff.mp gathered
    obtain ⟨isNew, rfl⟩ := addSwitch_eq_ok_iff.mp isNext
    -- had it been the same switch, it would have been kept
    have isOther : argument ≠ switch := by
      rintro rfl
      exact absent (switches_subset_of_gather others List.mem_cons_self)
    unfold gather
    rw [if_neg notSeparator, if_neg notOption, if_neg notHelp, if_pos isSwitch]
    refine bind_eq_ok_iff.mpr ⟨_, addSwitch_eq_ok_iff.mpr ⟨?_, rfl⟩, ih _ others⟩
    simp [withSwitch, isNew, isOther]
  | case7 g argument rest notSeparator notOption notHelp notSwitch name isAttached ih =>
    intro gathered
    obtain ⟨format, isFormat, others⟩ := bind_eq_ok_iff.mp gathered
    unfold gather
    rw [if_neg notSeparator, if_neg notOption, if_neg notHelp, if_neg notSwitch, isAttached]
    exact bind_eq_ok_iff.mpr ⟨format, isFormat, ih format others⟩
  | case9 g value rest notSeparator notOption notHelp notSwitch notAttached notDashed ih =>
    intro gathered
    obtain ⟨next, isNext, others⟩ := bind_eq_ok_iff.mp gathered
    unfold gather
    rw [if_neg notSeparator, if_neg notOption, if_neg notHelp, if_neg notSwitch, notAttached]
    dsimp only
    rw [if_neg notDashed]
    exact bind_eq_ok_iff.mpr ⟨_, addValue_withSwitch isNext, ih next others⟩

/-! ### The switch to write files in spite of errors -/

variable {named : Except Stop (Option ReportFormat)} {command : Gathered → Option Command}
  {format : ReportFormat} {request : GenerateRequest}

/-- Arguments after a command's name ask for a run if they can be gathered and make a command, and
the format was named well. -/
theorem readCommand_eq_run_iff {i : Invocation} :
    readCommand named s command arguments = .run i ↔
      ∃ g f, gather s {} arguments = .ok g ∧ command g = some i.command ∧ named = .ok f ∧
        i.format = (g.format <|> f).getD .terminal := by
  unfold readCommand
  obtain ⟨format, asked⟩ := i
  cases gather s {} arguments with
  | error stop => cases stop <;> simp
  | ok g =>
    cases isCommand : command g with
    | none => simp [isCommand]
    | some made =>
      cases named with
      | error stop => simp [isCommand]
      | ok f => simp [isCommand, and_comm, eq_comm]

/-- A request to generate comes of at least three values; its switches are those that were given. -/
theorem generateCommand_eq_some_iff :
    generateCommand g = some (.generate request) ↔
      ∃ source header input inputs, g.values = source :: header :: input :: inputs ∧
        request = ⟨source, header, input :: inputs, g.switches.contains includeSwitch,
          g.switches.contains keepSwitch⟩ := by
  unfold generateCommand
  constructor
  · intro isCommand
    split at isCommand
    · rename_i areValues
      cases isCommand
      exact ⟨_, _, _, _, areValues, rfl⟩
    · cases isCommand
  · rintro ⟨source, header, input, inputs, areValues, rfl⟩
    rw [areValues]

theorem generateCommand_withSwitch (isCommand : generateCommand g = some (.generate request)) :
    generateCommand (g.withSwitch keepSwitch) =
      some (.generate { request with keepOnError := true }) := by
  obtain ⟨source, header, input, inputs, areValues, rfl⟩ :=
    generateCommand_eq_some_iff.mp isCommand
  have isOther : includeSwitch ≠ keepSwitch := by decide
  refine generateCommand_eq_some_iff.mpr ⟨source, header, input, inputs, areValues, ?_⟩
  simp [withSwitch, isOther]

theorem keepOnError_of_generateCommand (isCommand : generateCommand g = some (.generate request)) :
    request.keepOnError = g.switches.contains keepSwitch := by
  obtain ⟨_, _, _, _, -, rfl⟩ := generateCommand_eq_some_iff.mp isCommand
  rfl

theorem readCommand_keepSwitch
    (asked : readCommand named generateSignature generateCommand arguments =
      .run ⟨format, .generate request⟩)
    (unforced : request.keepOnError = false) :
    readCommand named generateSignature generateCommand (keepSwitch :: arguments) =
      .run ⟨format, .generate { request with keepOnError := true }⟩ := by
  obtain ⟨g, f, gathered, isCommand, isNamed, isFormat⟩ := readCommand_eq_run_iff.mp asked
  have absent : keepSwitch ∉ g.switches := by
    rw [keepOnError_of_generateCommand isCommand] at unforced
    simpa using unforced
  refine readCommand_eq_run_iff.mpr
    ⟨g.withSwitch keepSwitch, f, ?_, generateCommand_withSwitch isCommand, isNamed, isFormat⟩
  -- the switch is gathered first, and it makes a state that differs from the empty one by it alone
  unfold gather
  rw [if_neg (show keepSwitch ≠ separator by decide),
    if_neg (show keepSwitch ≠ formatOption by decide),
    if_neg (show ¬ asksForHelp keepSwitch = true by decide),
    if_pos (show generateSignature.switches.contains keepSwitch = true by decide)]
  exact bind_eq_ok_iff.mpr ⟨withSwitch {} keepSwitch, rfl, gather_withSwitch absent gathered⟩

/-- Only the command to generate asks for a run to generate. -/
theorem not_generate_of_joinCommand : joinCommand g ≠ some (.generate request) := by
  unfold joinCommand
  split
  · cases lineMode? _ <;> simp
  · simp

@[inherit_doc not_generate_of_joinCommand]
theorem not_generate_of_renderCommand : renderCommand g ≠ some (.generate request) := by
  unfold renderCommand
  split <;> simp

theorem exists_read_keepSwitch (unforced : request.keepOnError = false) :
    read named arguments = .run ⟨format, .generate request⟩ →
      ∃ before rest, arguments = before ++ generateName :: rest ∧
        read named (before ++ generateName :: keepSwitch :: rest) =
          .run ⟨format, .generate { request with keepOnError := true }⟩ := by
  fun_induction read named arguments with
  | case1 | case6 | case7 | case8 | case10 | case12 => nofun
  | case2 named rest =>
    intro asked
    refine ⟨[], rest, rfl, ?_⟩
    unfold read
    rw [List.nil_append]
    dsimp only
    rw [if_pos rfl]
    exact readCommand_keepSwitch asked unforced
  | case3 named rest =>
    intro asked
    obtain ⟨g, f, -, isCommand, -⟩ := readCommand_eq_run_iff.mp asked
    exact absurd isCommand not_generate_of_joinCommand
  | case4 named rest =>
    intro asked
    obtain ⟨g, f, -, isCommand, -⟩ := readCommand_eq_run_iff.mp asked
    exact absurd isCommand not_generate_of_renderCommand
  | case5 named rest =>
    unfold readHelp
    split
    · nofun
    · split <;> nofun
    · nofun
  | case9 named name rest notDashed notGenerate notJoin notRender notHelp ih =>
    intro asked
    obtain ⟨before, after, rfl, kept⟩ := ih asked
    refine ⟨formatOption :: name :: before, after, rfl, ?_⟩
    unfold read
    simp only [List.cons_append]
    rw [if_neg notGenerate, if_neg notJoin, if_neg notRender, if_neg notHelp,
      if_pos trivial, if_neg notDashed, kept]
  | case11 argument rest notGenerate notJoin notRender notHelp named notOption notInformation
      format' isAttached ih =>
    intro asked
    obtain ⟨before, after, rfl, kept⟩ := ih asked
    refine ⟨argument :: before, after, rfl, ?_⟩
    unfold read
    simp only [List.cons_append]
    rw [if_neg notGenerate, if_neg notJoin, if_neg notRender, if_neg notHelp, if_neg notOption,
      if_neg notInformation, isAttached]
    exact kept

end Arguments

open Arguments in
/-- Every list of arguments that asks for a run to generate without the switch to write files in
spite of errors asks, with this switch right after the command's name, for the same run with it. -/
theorem Request.exists_ofArguments_keepSwitch {arguments : List String} {format : ReportFormat}
    {request : GenerateRequest}
    (asked : ofArguments arguments = .run ⟨format, .generate request⟩)
    (unforced : request.keepOnError = false) :
    ∃ before rest, arguments = before ++ generateName :: rest ∧
      ofArguments (before ++ generateName :: keepSwitch :: rest) =
        .run ⟨format, .generate { request with keepOnError := true }⟩ :=
  exists_read_keepSwitch unforced asked

end Stencil
