import Stencil.Diagnostic.Report
import Stencil.Mustache.Render
import Stencil.Proofs.Json.RoundTrip

/-!
# Reports for machines

A report in JSON is meant to be read by programs. It tells all that is known of each problem: the
problems can be read back from it, whatever characters stand in names of files and in messages, and
the numbers in it are those of the problems of either severity. Lines and numbers of problems take
at most 64 bits.

## Main definitions

* `Diagnostics.ofJson?`: the problems that are told of in a report
* `Diagnostics.Fits`: lines and the number of problems fit 64 bits

## Main results

* `Json.member?_ordered_object`: the members of an object that was written and read
* `Diagnostics.ofJson?_ordered`: the problems are read back
* `Diagnostics.parse_json`: what is read from a report
-/

namespace Stencil

/-! ### Members of an object that was read -/

namespace Json

variable {key : String} {members : List (String × Json)}

theorem lookup_cons_eq_ite (key k : String) (v : Json) (members : List (String × Json)) :
    ((k, v) :: members).lookup key = if key = k then some v else members.lookup key := by
  by_cases same : key = k
  · rw [same, if_pos rfl, List.lookup_cons_self]
  · rw [if_neg same, List.lookup_cons, beq_false_of_ne same]

theorem lookup_insertMember (key k : String) (v : Json) (members : List (String × Json)) :
    (insertMember k v members).lookup key = if key = k then some v else members.lookup key := by
  induction members with
  | nil => exact lookup_cons_eq_ite key k v []
  | cons member members ih =>
    obtain ⟨k', v'⟩ := member
    unfold insertMember
    split_ifs with before same isKey isKey
    all_goals simp only [lookup_cons_eq_ite, ih]
    all_goals grind

/-- Of the members with the same key the last one is there. -/
theorem member?_ofMembers (key : String) (members : List (String × Json)) :
    (ofMembers members).member? key = members.reverse.lookup key := by
  -- Members are inserted one by one, and each takes the place of one with its key.
  have fromHere (sorted : List (String × Json)) :
      (members.foldl (fun sorted m => insertMember m.1 m.2 sorted) sorted).lookup key =
        (members.reverse.lookup key).or (sorted.lookup key) := by
    induction members generalizing sorted with
    | nil => rfl
    | cons member members ih =>
      obtain ⟨k, v⟩ := member
      rw [List.foldl_cons, ih, lookup_insertMember, List.reverse_cons, List.lookup_append,
        Option.or_assoc, lookup_cons_eq_ite]
      split_ifs <;> rfl
  exact (fromHere []).trans Option.or_none

/-- An object that was written and read has the members that it had. -/
theorem member?_ordered_object (key : String) (members : List (String × Json)) :
    (ordered (.object members)).member? key = (members.reverse.lookup key).map ordered := by
  have isMap : orderedMembers members = members.map fun m => (m.1, m.2.ordered) := by
    induction members with
    | nil => rfl
    | cons member members ih => rw [orderedMembers, ih, List.map_cons]
  rw [ordered, member?_ofMembers, isMap, ← List.map_reverse]
  induction members.reverse with
  | nil => rfl
  | cons member members ih =>
    rw [List.map_cons, lookup_cons_eq_ite, lookup_cons_eq_ite, ih]
    split_ifs <;> rfl

end Json

/-! ### Reading problems back -/

/-- The severity with a given name. -/
def Severity.ofName? : String → Option Severity
  | "error" => some .error
  | "warning" => some .warning
  | _ => none

theorem Severity.ofName?_name (s : Severity) : ofName? s.name = some s := by
  cases s <;> rfl

theorem ProblemKind.ofName?_name (kind : ProblemKind) : ofName? kind.name = some kind := by
  cases kind <;> rfl

/-- The string that a value is. -/
def Json.string? : Json → Option String
  | .string value => some value
  | _ => none

/-- The line that a value tells; it is unknown if the value is null. -/
def Json.line? : Json → Option (Option Nat)
  | .null => some none
  | .number (.integer (.ofNat line)) => some (some line)
  | _ => none

/-- The problem that a value tells of. -/
def Diagnostic.ofJson? (value : Json) : Option Diagnostic := do
  let severity ← (value.member? "severity").bind Json.string?
  let kind ← (value.member? "kind").bind Json.string?
  let file ← (value.member? "file").bind Json.string?
  let line ← (value.member? "line").bind Json.line?
  let message ← (value.member? "message").bind Json.string?
  return ⟨← Severity.ofName? severity, ← ProblemKind.ofName? kind, file, line, message⟩

/-- The problems that a report tells of. -/
def Diagnostics.ofJson? (report : Json) : Option Diagnostics :=
  match report.member? "diagnostics" with
  | some (.array items) => items.mapM Diagnostic.ofJson?
  | _ => none

/-- A problem is read back from its object. -/
theorem Diagnostic.ofJson?_ordered (d : Diagnostic) : ofJson? d.toJson.ordered = some d := by
  obtain ⟨severity, kind, file, line, message⟩ := d
  simp only [ofJson?, toJson, Json.member?_ordered_object]
  cases line <;>
    simp [List.lookup_cons, Json.ordered, Json.string?, Json.line?, Severity.ofName?_name,
      ProblemKind.ofName?_name]

theorem Json.IsExact.natural {n : Nat} (below : n < 2 ^ 64) :
    Json.IsExact (.number (.integer n)) := by
  refine .number ⟨?_, ?_⟩
  · omega
  · omega

theorem Diagnostic.isExact_toJson (d : Diagnostic) (fits : ∀ line ∈ d.line, line < 2 ^ 64) :
    d.toJson.IsExact := by
  obtain ⟨severity, kind, file, line, message⟩ := d
  refine .object ?_
  simp only [List.forall_mem_cons]
  refine ⟨.string _, .string _, .string _, ?_, .string _, List.forall_mem_nil _⟩
  cases line with
  | none => exact .null
  | some line => exact .natural (fits line rfl)

namespace Diagnostics

variable {ds : Diagnostics}

/-- Lines and the number of problems fit 64 bits. -/
structure Fits (ds : Diagnostics) : Prop where
  lines : ∀ d ∈ ds, ∀ line ∈ d.line, line < 2 ^ 64
  count : ds.length < 2 ^ 64

theorem errorCount_eq (ds : Diagnostics) : ds.errorCount = ds.countP (·.severity = .error) := rfl

theorem warningCount_eq (ds : Diagnostics) :
    ds.warningCount = ds.countP (·.severity = .warning) := by
  refine List.countP_congr fun d _ => ?_
  unfold Diagnostic.isError
  cases d.severity <;> decide

/-- The problems are read back from their objects. -/
theorem mapM_ofJson?_ordered (ds : Diagnostics) :
    (Json.orderedAll (ds.map Diagnostic.toJson)).mapM Diagnostic.ofJson? = some ds := by
  induction ds with
  | nil => rfl
  | cons d ds ih =>
    rw [List.map_cons, Json.orderedAll, List.mapM_cons, d.ofJson?_ordered, ih]
    rfl

/-- The problems are read back from a report. -/
theorem ofJson?_ordered (ds : Diagnostics) : ofJson? ds.toJson.ordered = some ds := by
  have isArray : ds.toJson.ordered.member? "diagnostics" =
      some (.array (Json.orderedAll (ds.map Diagnostic.toJson))) := by
    simp only [toJson, Json.member?_ordered_object]
    simp [Json.ordered]
  rw [ofJson?, isArray]
  exact ds.mapM_ofJson?_ordered

theorem isExact_toJson (fits : ds.Fits) : ds.toJson.IsExact := by
  have each : ∀ value ∈ ds.map Diagnostic.toJson, value.IsExact := by
    intro value member
    obtain ⟨d, inList, rfl⟩ := List.mem_map.mp member
    exact d.isExact_toJson (fits.lines d inList)
  have counted := ds.errorCount_add_warningCount
  have count := fits.count
  have errors := Json.IsExact.natural (n := ds.errorCount) (by omega)
  have warnings := Json.IsExact.natural (n := ds.warningCount) (by omega)
  refine .object ?_
  simp only [List.forall_mem_cons]
  exact ⟨.bool _, errors, warnings, .array each, List.forall_mem_nil _⟩

/-- Arrays and objects nest three deep in a report. -/
theorem depth_toJson_le (ds : Diagnostics) : ds.toJson.depth ≤ 3 := by
  have shallow : Json.depthAll (ds.map Diagnostic.toJson) ≤ 1 := by
    induction ds with
    | nil => decide
    | cons d ds ih =>
      have flat : d.toJson.depth ≤ 1 := by
        unfold Diagnostic.toJson
        cases d.line <;> simp [Json.depth, Json.depthMembers]
      rw [List.map_cons, Json.depthAll]
      exact Nat.max_le.mpr ⟨flat, ih⟩
  -- The report is an object with the array of the problems.
  simp only [toJson, Json.depth, Json.depthMembers]
  omega

/-- **Reading a report.** From a report, in either style, the same object is read. The problems can
be read back from it, in order and with all that is known of each; it tells the numbers of errors
and of warnings among them, and success exactly if there are no errors. -/
theorem parse_json (fits : ds.Fits) :
    ∃ members, (∀ style, Json.parse (ds.json style) = .ok (.object members)) ∧
      ofJson? (.object members) = some ds ∧
      members.lookup "errors" = some (.number (.integer (ds.countP (·.severity = .error)))) ∧
      members.lookup "warnings" = some (.number (.integer (ds.countP (·.severity = .warning)))) ∧
      members.lookup "success" = some (.bool (ds.countP (·.severity = .error) = 0)) := by
  obtain ⟨members, isObject⟩ : ∃ members, ds.toJson.ordered = .object members := ⟨_, rfl⟩
  have memberOf (key : String) : members.lookup key = ds.toJson.ordered.member? key := by
    rw [isObject]
    rfl
  refine ⟨members, fun style => ?_, isObject ▸ ds.ofJson?_ordered, ?_, ?_, ?_⟩
  · have shallow : ds.toJson.depth ≤ Json.Reading.maxDepth :=
      ds.depth_toJson_le.trans (by decide)
    rw [← isObject]
    exact Json.parse_render (isExact_toJson fits) shallow style (List.forall_mem_singleton.mpr rfl)
  · rw [memberOf, ← errorCount_eq, toJson, Json.member?_ordered_object]
    rfl
  · rw [memberOf, ← warningCount_eq, toJson, Json.member?_ordered_object]
    rfl
  · have isSuccess : ds.isSuccess = decide (ds.errorCount = 0) := by
      rw [Bool.eq_iff_iff, isSuccess_iff, decide_eq_true_iff]
    rw [memberOf, ← errorCount_eq, ← isSuccess, toJson, Json.member?_ordered_object]
    rfl

/-- An error on no known line, whose texts need escapes, and a warning on the last line of all. -/
theorem parse_json_escapes :
    ∃ ds : Diagnostics,
      ds = [⟨.error, .loadFailure, "\"ä\"\t", none, "\\\x00\n"⟩,
        ⟨.warning, .unknownColumn, "", some 18446744073709551615, "😀"⟩] ∧
      ∃ members, (∀ style, Json.parse (ds.json style) = .ok (.object members)) ∧
        ofJson? (.object members) = some ds ∧
        members.lookup "errors" = some (.number (.integer 1)) ∧
        members.lookup "warnings" = some (.number (.integer 1)) ∧
        members.lookup "success" = some (.bool false) :=
  ⟨_, rfl, parse_json ⟨by decide, by decide⟩⟩

end Diagnostics

end Stencil
